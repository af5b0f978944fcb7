import SwiftLink.Transfer.Publication
import SwiftLink.Transfer.Receiver
import SwiftLink.Transfer.SenderIsolation

/-!
# `receive_file`

The blocking driver of `transfer/receiver.cpp` as a whole: the loop round one session, its ways out,
and the destructor that runs on each of them.  `World.receive` is one turn of the loop without the
socket calls.  A step is one turn; the clock, which only goes into the statistics, is left out.

The caller sees an error code, two output parameters and a directory.

* `Tells` — what it tells its caller and its peer.
* `Leaves` — what it leaves in the directory, the destructor's part included.
* `receive_file_outcome` — the error code tells what is in the directory, except for `kSendFailed`.
-/

namespace SwiftLink

/-- What one turn of the loop meets: a datagram and whoever sent it, or why there is none. -/
structure ReceiverEnv (Peer : Type) where
  peer : Peer
  timeoutOk : Bool := true
  recv : RecvOutcome := .wouldBlock
  sendOk : Bool := true
  io : IoEnv := {}

/-- Where `receive_file` is. -/
inductive ReceiverPhase
  | timeout
  | loop
  | done (error : TransferError)
  deriving Repr, DecidableEq

/-- `receive_file` at work: the session and its directory, the replies handed to the socket, and the
output parameters. -/
structure ReceiveFile (Peer : Type) where
  phase : ReceiverPhase
  world : World
  sent : List (Peer × Bytes)
  outPath : Path
  stats : TransferStats

namespace ReceiveFile

variable {Peer : Type}

/-! ## The implementation -/

def init (Peer : Type) (windowSize : BitVec 32) (outputDirectory : Path) (fs : FileSystem) :
    ReceiveFile Peer where
  phase := .timeout
  world := World.init windowSize outputDirectory fs
  sent := []
  outPath := []
  stats := {}

/-- `return error`; the session goes out of scope. -/
def finish (r : ReceiveFile Peer) (error : TransferError) : ReceiveFile Peer :=
  { r with
    phase := .done error
    world.fs := r.world.session.destroy r.world.fs }

/-- After the loop. -/
def settle (r : ReceiveFile Peer) : ReceiveFile Peer :=
  { r with outPath := r.world.session.outputPath, stats := r.world.session.stats }.finish
    r.world.session.error

/-- A datagram has come in. -/
def onDatagram (r : ReceiveFile Peer) (bytes : Bytes) (env : ReceiverEnv Peer) :
    ReceiveFile Peer :=
  let received := r.world.receive bytes env.io
  let r := { r with world := received.1 }
  match received.2 with
  | none => r
  | some answer =>
      if env.sendOk then { r with sent := r.sent ++ [(env.peer, answer)] }
      else r.finish .sendFailed

def step (r : ReceiveFile Peer) (env : ReceiverEnv Peer) : ReceiveFile Peer :=
  match r.phase with
  | .timeout => if env.timeoutOk then { r with phase := .loop } else r.finish .socketFailed
  | .loop =>
      if r.world.session.finished then r.settle
      else
        match env.recv with
        | .interrupted => r
        | .wouldBlock => r.finish .peerUnresponsive
        | .failed => r.finish .receiveFailed
        | .datagram bytes => r.onDatagram bytes env
  | .done _ => r

def run (r : ReceiveFile Peer) (envs : List (ReceiverEnv Peer)) : ReceiveFile Peer :=
  envs.foldl step r

lemma run_concat (r : ReceiveFile Peer) (envs : List (ReceiverEnv Peer)) (env : ReceiverEnv Peer) :
    r.run (envs ++ [env]) = (r.run envs).step env := by
  simp [run]

/-! ## Everything a step can do -/

/-- The packet is in the datagram the loop has taken from the socket. -/
structure Takes (r : ReceiveFile Peer) (env : ReceiverEnv Peer) (packet : Packet) : Prop where
  phase : r.phase = .loop
  unfinished : r.world.session.finished = false
  received : ∃ bytes, env.recv = .datagram bytes ∧ deserialize bytes = .ok packet

/-- **One turn of the loop.** -/
inductive Turn (r : ReceiveFile Peer) (env : ReceiverEnv Peer) : ReceiveFile Peer → Prop
  | stays : Turn r env r
  | enters (hphase : r.phase = .timeout) : Turn r env { r with phase := .loop }
  | settles (hphase : r.phase = .loop) (hfinished : r.world.session.finished = true) :
      Turn r env r.settle
  | fails (error : TransferError) (herror : error ≠ .none)
      (hunfinished : r.phase = .loop → r.world.session.finished = false)
      (hphase : ∀ e, r.phase ≠ .done e) : Turn r env (r.finish error)
  | silent (packet : Packet) (htakes : r.Takes env packet)
      (hreply : r.world.answer packet env.io = none) :
      Turn r env { r with world := r.world.next (.packet packet env.io) }
  | answers (packet : Packet) (htakes : r.Takes env packet) (answer : Bytes)
      (hreply : r.world.answer packet env.io = some answer) :
      Turn r env { r with
        world := r.world.next (.packet packet env.io)
        sent := r.sent ++ [(env.peer, answer)] }
  | mute (packet : Packet) (htakes : r.Takes env packet) (answer : Bytes)
      (hreply : r.world.answer packet env.io = some answer) :
      Turn r env ({ r with world := r.world.next (.packet packet env.io) }.finish .sendFailed)

lemma step_turn (r : ReceiveFile Peer) (env : ReceiverEnv Peer) : r.Turn env (r.step env) := by
  cases hphase : r.phase with
  | timeout =>
      simp only [step, hphase]
      split
      · exact .enters hphase
      · exact .fails _ (by decide) (by simp [hphase]) (by simp [hphase])
  | done error =>
      simp only [step, hphase]
      exact .stays
  | loop =>
      simp only [step, hphase]
      cases hfinished : r.world.session.finished with
      | true => exact .settles hphase hfinished
      | false =>
          simp only [Bool.false_eq_true, if_false]
          cases hrecv : env.recv with
          | interrupted => exact .stays
          | wouldBlock => exact .fails _ (by decide) (fun _ => hfinished) (by simp [hphase])
          | failed => exact .fails _ (by decide) (fun _ => hfinished) (by simp [hphase])
          | datagram bytes =>
              simp only [onDatagram, World.receive]
              cases hpacket : deserialize bytes with
              | error error => exact .stays
              | ok packet =>
                  have htakes : r.Takes env packet := ⟨hphase, hfinished, bytes, hrecv, hpacket⟩
                  dsimp only
                  cases hreply : r.world.answer packet env.io with
                  | none => exact .silent packet htakes hreply
                  | some answer =>
                      dsimp only
                      split
                      · exact .answers packet htakes answer hreply
                      · exact .mute packet htakes answer hreply

/-! ## What it tells its caller and its peer -/

/-- A FIN_ACK has been handed to the socket. -/
def SentFinAck (r : ReceiveFile Peer) : Prop :=
  ∃ (peer : Peer) (reply : Reply) (sessionId : BitVec 64), reply.IsFinAck ∧
    (peer, reply.wire sessionId) ∈ r.sent

/-- **What `receive_file` says is so.**  The error code tells whether the session has published,
unless a reply could not be sent; and then no FIN_ACK has been sent before. -/
structure Tells (r : ReceiveFile Peer) : Prop where
  verdict : r.world.session.Verdict
  failed : ∀ e, r.phase = .done e → r.world.session.published = false → e ≠ .none
  published : r.world.session.published = true →
    r.phase ≠ .timeout ∧ ∀ e, r.phase = .done e → e = .none ∨ e = .sendFailed
  acked : r.world.session.published = true → r.phase ≠ .done .sendFailed → r.SentFinAck
  finAck : ∀ x ∈ r.sent, ∀ packet, deserialize x.2 = .ok packet →
    packet.header.packetType = .finAck →
    r.world.session.published = true ∧ r.phase ≠ .done .sendFailed
  out : r.phase = .done .none → r.outPath = r.world.session.outputPath

namespace Tells

variable {r : ReceiveFile Peer} {env : ReceiverEnv Peer}

lemma init (windowSize : BitVec 32) (outputDirectory : Path) (fs : FileSystem) :
    Tells (ReceiveFile.init Peer windowSize outputDirectory fs) where
  verdict := ReceiverSession.init_verdict windowSize outputDirectory
  failed e h := by simp [ReceiveFile.init] at h
  published h := by simp [ReceiveFile.init, World.init, ReceiverSession.init] at h
  acked h := by simp [ReceiveFile.init, World.init, ReceiverSession.init] at h
  finAck x h := by simp [ReceiveFile.init] at h
  out h := by simp [ReceiveFile.init] at h

/-- A failure before the session has settled. -/
lemma finish (h : Tells r) (hpublished : r.world.session.published = false)
    {error : TransferError} (herror : error ≠ .none) : Tells (r.finish error) where
  verdict := h.verdict
  failed e he _ := by
    obtain rfl : error = e := by simpa [ReceiveFile.finish] using he
    exact herror
  published hp := by simp [ReceiveFile.finish, hpublished] at hp
  acked hp := by simp [ReceiveFile.finish, hpublished] at hp
  finAck x hx packet hpacket htype := by
    have hp := (h.finAck x hx packet hpacket htype).1
    simp [hpublished] at hp
  out he := absurd (by simpa [ReceiveFile.finish] using he) herror

/-- The end of the loop reports what the session has settled on. -/
lemma settle (h : Tells r) (hphase : r.phase = .loop)
    (hfinished : r.world.session.finished = true) : Tells r.settle := by
  have herror : ∀ e, r.settle.phase = .done e → r.world.session.error = e := fun e he => by
    simpa [ReceiveFile.settle, ReceiveFile.finish] using he
  cases h.verdict with
  | pending hpending => simp [hpending] at hfinished
  | failed _ hpublished hfailed =>
      refine ⟨h.verdict, fun e he _ => herror e he ▸ hfailed, fun hp => ?_, fun hp => ?_,
        fun x hx packet hpacket htype => ?_, fun _ => rfl⟩
      · simp [ReceiveFile.settle, ReceiveFile.finish, hpublished] at hp
      · simp [ReceiveFile.settle, ReceiveFile.finish, hpublished] at hp
      · have hp := (h.finAck x hx packet hpacket htype).1
        simp [hpublished] at hp
  | published _ hpublished hnone =>
      have hreturns : r.settle.phase = .done .none := by
        simp [ReceiveFile.settle, ReceiveFile.finish, hnone]
      refine ⟨h.verdict, fun e _ hp => ?_, fun _ => ⟨by simp [hreturns], fun e he => ?_⟩,
        fun _ _ => h.acked hpublished (by simp [hphase]),
        fun x hx packet hpacket htype => ⟨hpublished, by simp [hreturns]⟩, fun _ => rfl⟩
      · simp [ReceiveFile.settle, ReceiveFile.finish, hpublished] at hp
      · rw [← herror e he]
        exact Or.inl hnone

/-- The session has not published as long as the loop takes packets. -/
lemma unpublished (h : Tells r) {packet : Packet} (htakes : r.Takes env packet) :
    r.world.session.published = false :=
  (h.verdict.of_unfinished htakes.unfinished).2

/-- No FIN_ACK has been sent as long as the loop takes packets. -/
lemma no_finAck (h : Tells r) {packet : Packet} (htakes : r.Takes env packet) {x : Peer × Bytes}
    (hx : x ∈ r.sent) {reply : Packet} (hreply : deserialize x.2 = .ok reply) :
    reply.header.packetType ≠ .finAck := fun htype => by
  have hp := (h.finAck x hx reply hreply htype).1
  simp [h.unpublished htakes] at hp

/-- A session that publishes answers with a FIN_ACK. -/
lemma answer_of_published (h : Tells r) {packet : Packet} (htakes : r.Takes env packet)
    (hp : (r.world.next (.packet packet env.io)).session.published = true) :
    (r.world.reply (.packet packet env.io)).IsFinAck ∧
      r.world.answer packet env.io =
        some ((r.world.reply (.packet packet env.io)).wire packet.header.sessionId) := by
  have hpub : r.world.Publishes packet env.io := ⟨h.unpublished htakes, hp⟩
  refine ⟨hpub.isFinAck, ?_⟩
  rw [World.answer, if_pos hpub.isFinAck.1]

/-- A session that has published is noticed at the head of the loop. -/
lemma loop_of_published (h : Tells r) (hp : r.world.session.published = true)
    (hrunning : ∀ e, r.phase ≠ .done e) :
    r.phase = .loop ∧ r.world.session.finished = true := by
  refine ⟨?_, h.verdict.finished_of_published hp⟩
  cases hphase : r.phase with
  | timeout => exact absurd hphase (h.published hp).1
  | loop => rfl
  | done e => exact absurd hphase (hrunning e)

/-- **Every step keeps it so.** -/
lemma step (h : Tells r) : Tells (r.step env) := by
  have hturn := r.step_turn env
  generalize r.step env = r' at hturn ⊢
  cases hturn with
  | stays => exact h
  | enters hphase =>
      refine ⟨h.verdict, fun e he => by simp at he, fun hp => absurd hphase (h.published hp).1,
        fun hp => absurd hphase (h.published hp).1, fun x hx packet hpacket htype => ?_,
        fun he => by simp at he⟩
      exact ⟨(h.finAck x hx packet hpacket htype).1, by simp⟩
  | settles hphase hfinished => exact h.settle hphase hfinished
  | fails error herror hunfinished hrunning =>
      refine h.finish ?_ herror
      cases hp : r.world.session.published with
      | false => rfl
      | true =>
          obtain ⟨hloop, hfinished⟩ := h.loop_of_published hp hrunning
          rw [hunfinished hloop] at hfinished
          cases hfinished
  | silent packet htakes hreply =>
      have hnot : (r.world.next (.packet packet env.io)).session.published = false := by
        by_contra hp
        have hanswer := (h.answer_of_published htakes (by simpa using hp)).2
        simp [hreply] at hanswer
      refine ⟨h.verdict.handles (ReceiverSession.handlePacket_handles _ _ _ _), fun e he => ?_,
        fun hp => ?_, fun hp => ?_, fun x hx reply hdecoded htype => ?_, fun he => ?_⟩
      · simp [htakes.phase] at he
      · simp [hnot] at hp
      · simp [hnot] at hp
      · exact absurd htype (h.no_finAck htakes hx hdecoded)
      · simp [htakes.phase] at he
  | answers packet htakes answer hreply =>
      refine ⟨h.verdict.handles (ReceiverSession.handlePacket_handles _ _ _ _), fun e he => ?_,
        fun _ => ⟨by simp [htakes.phase], fun e he => ?_⟩, fun hp _ => ?_,
        fun x hx reply hdecoded htype => ⟨?_, by simp [htakes.phase]⟩, fun he => ?_⟩
      · simp [htakes.phase] at he
      · simp [htakes.phase] at he
      · obtain ⟨hfin, hanswer⟩ := h.answer_of_published htakes hp
        refine ⟨env.peer, _, packet.header.sessionId, hfin, List.mem_append_right _ ?_⟩
        rw [Option.some.inj (hreply.symm.trans hanswer)]
        exact List.mem_singleton_self _
      · rcases List.mem_append.mp hx with hold | hnew
        · exact absurd htype (h.no_finAck htakes hold hdecoded)
        · obtain rfl := List.mem_singleton.mp hnew
          simp only [World.answer] at hreply
          split at hreply
          · next hsend =>
            obtain rfl := Option.some.inj hreply
            have hfin := (Reply.decoded_wire hdecoded).1.symm.trans htype
            exact World.of_finAck h.verdict ⟨hsend, hfin⟩
          · simp at hreply
      · simp [htakes.phase] at he
  | mute packet htakes answer hreply =>
      refine ⟨h.verdict.handles (ReceiverSession.handlePacket_handles _ _ _ _), fun e he _ => ?_,
        fun _ => ⟨by simp [ReceiveFile.finish], fun e he => ?_⟩, fun _ hnot => absurd rfl hnot,
        fun x hx reply hdecoded htype => ?_, fun he => ?_⟩
      · obtain rfl : TransferError.sendFailed = e := by simpa [ReceiveFile.finish] using he
        decide
      · obtain rfl : TransferError.sendFailed = e := by simpa [ReceiveFile.finish] using he
        exact Or.inr rfl
      · exact absurd htype (h.no_finAck htakes hx hdecoded)
      · simp [ReceiveFile.finish] at he

/-- What has been published stays so, and the driver only has to return. -/
lemma published_step (h : Tells r) (hp : r.world.session.published = true)
    (hphase : r.phase ≠ .done .sendFailed) :
    (r.step env).world.session.published = true ∧ (r.step env).phase ≠ .done .sendFailed := by
  have hturn := r.step_turn env
  have htaken : ∀ packet, ¬ r.Takes env packet := fun packet htakes => by
    simp [h.unpublished htakes] at hp
  generalize r.step env = r' at hturn ⊢
  cases hturn with
  | stays => exact ⟨hp, hphase⟩
  | enters => exact ⟨hp, by simp⟩
  | settles =>
      refine ⟨hp, ?_⟩
      cases h.verdict with
      | pending _ hnot => simp [hnot] at hp
      | failed _ hnot => simp [hnot] at hp
      | published _ _ hnone => simp [ReceiveFile.settle, ReceiveFile.finish, hnone]
  | fails error herror hunfinished hrunning =>
      obtain ⟨hloop, hfinished⟩ := h.loop_of_published hp hrunning
      rw [hunfinished hloop] at hfinished
      cases hfinished
  | silent packet htakes => exact absurd htakes (htaken packet)
  | answers packet htakes => exact absurd htakes (htaken packet)
  | mute packet htakes => exact absurd htakes (htaken packet)

end Tells

/-! ## What it leaves in the directory -/

/-- The directory is as it was but for one file under the session's final name. -/
def Places (fs0 : FileSystem) (s : ReceiverSession) (fs : FileSystem) : Prop :=
  ∃ content, fs.view = Function.update fs0.view s.outputPath (some content)

/-- **What `receive_file` makes of a directory `fs0`.** -/
structure Leaves (fs0 : FileSystem) (r : ReceiveFile Peer) : Prop where
  unnamed : r.world.session.Unnamed
  confined : (∀ e, r.phase ≠ .done e) → r.world.session.published = false →
    Confined fs0 r.world.session r.world.fs
  restored : ∀ e, r.phase = .done e → r.world.session.published = false →
    r.world.fs.view = fs0.view
  placed : r.world.session.published = true → Places fs0 r.world.session r.world.fs

namespace Leaves

variable {fs0 : FileSystem} {r : ReceiveFile Peer} {env : ReceiverEnv Peer}

lemma init (windowSize : BitVec 32) (outputDirectory : Path) (fs0 : FileSystem) :
    Leaves fs0 (ReceiveFile.init Peer windowSize outputDirectory fs0) where
  unnamed _ _ := rfl
  confined _ _ := Confined.init windowSize outputDirectory fs0
  restored e h := by simp [ReceiveFile.init] at h
  placed h := by simp [ReceiveFile.init, World.init, ReceiverSession.init] at h

/-- **The destructor** removes a temporary file and leaves a published one. -/
lemma finish (h : Leaves fs0 r) (hfree : TempFree fs0 r.world.session)
    (hrunning : ∀ e, r.phase ≠ .done e) (error : TransferError) :
    Leaves fs0 (r.finish error) where
  unnamed := h.unnamed
  confined hnot _ := absurd rfl (hnot error)
  restored _ _ hp := (h.confined hrunning hp).destroy_view hfree hp
  placed hp := by
    obtain ⟨content, hview⟩ := h.placed hp
    refine ⟨content, Eq.trans (congrArg FileSystem.view ?_) hview⟩
    show r.world.session.destroy r.world.fs = r.world.fs
    have hpublished : r.world.session.published = true := hp
    simp [ReceiverSession.destroy, hpublished]

/-- The packet the loop has taken is handed to the session. -/
lemma packet (h : Leaves fs0 r) (htells : Tells r) {packet : Packet}
    (htakes : r.Takes env packet)
    (hfree : TempFree fs0 (r.world.next (.packet packet env.io)).session)
    {sent : List (Peer × Bytes)} :
    Leaves fs0 { r with world := r.world.next (.packet packet env.io), sent := sent } := by
  have hstep := ReceiverSession.handlePacket_handles r.world.session r.world.fs packet env.io
  have hbefore := htells.unpublished htakes
  have hconfined := h.confined (by simp [htakes.phase]) hbefore
  refine ⟨(h.unnamed.handles hstep).1, fun _ hp => hconfined.handles hstep hfree hp,
    fun e he => ?_, fun hp => ?_⟩
  · simp [htakes.phase] at he
  · obtain ⟨hlive, -, -, hrename, hout, -⟩ := hstep.of_published hbefore hp
    have hfree' : TempFree fs0 r.world.session := World.tempFree_of_next h.unnamed hfree
    obtain ⟨content, -, hview⟩ :=
      hconfined.rename_view hfree' (hconfined.tempPath_ne_nil hlive.started) hrename
    exact ⟨content, hview.trans (congrArg (fun p => Function.update _ p _) hout.symm)⟩

/-- **Every step keeps it so.** -/
lemma step (h : Leaves fs0 r) (htells : Tells r)
    (hfree : TempFree fs0 (r.step env).world.session) : Leaves fs0 (r.step env) := by
  have hturn := r.step_turn env
  generalize r.step env = r' at hturn hfree ⊢
  cases hturn with
  | stays => exact h
  | enters hphase =>
      exact ⟨h.unnamed, fun _ => h.confined (by simp [hphase]), fun e he => by simp at he, h.placed⟩
  | settles hphase hfinished =>
      have hsame : Leaves fs0 { r with
          outPath := r.world.session.outputPath, stats := r.world.session.stats } :=
        ⟨h.unnamed, h.confined, h.restored, h.placed⟩
      exact hsame.finish hfree (by simp [hphase]) _
  | fails error herror hunfinished hrunning => exact h.finish hfree hrunning error
  | silent packet htakes hreply => exact h.packet htells htakes hfree
  | answers packet htakes answer hreply => exact h.packet htells htakes hfree
  | mute packet htakes answer hreply =>
      have hnext : Leaves fs0 { r with world := r.world.next (.packet packet env.io) } :=
        h.packet htells htakes hfree
      exact hnext.finish hfree (by simp [htakes.phase]) _

end Leaves

/-! ## Whole runs -/

/-- A step hands the session a packet or leaves it alone. -/
lemma session_step (r : ReceiveFile Peer) (env : ReceiverEnv Peer) :
    (r.step env).world.session = r.world.session ∨
      ∃ packet, (r.step env).world.session = (r.world.next (.packet packet env.io)).session := by
  have hturn := r.step_turn env
  generalize r.step env = r' at hturn ⊢
  cases hturn with
  | stays => exact Or.inl rfl
  | enters => exact Or.inl rfl
  | settles => exact Or.inl rfl
  | fails => exact Or.inl rfl
  | silent packet => exact Or.inr ⟨packet, rfl⟩
  | answers packet => exact Or.inr ⟨packet, rfl⟩
  | mute packet => exact Or.inr ⟨packet, rfl⟩

lemma run_unnamed (windowSize : BitVec 32) (outputDirectory : Path) (fs : FileSystem)
    (envs : List (ReceiverEnv Peer)) :
    ((init Peer windowSize outputDirectory fs).run envs).world.session.Unnamed := by
  induction envs using List.reverseRecOn with
  | nil => exact fun _ _ => rfl
  | append_singleton envs env ih =>
      rw [run_concat]
      rcases session_step ((init Peer windowSize outputDirectory fs).run envs) env with
        hsame | ⟨packet, hnext⟩
      · rw [hsame]
        exact ih
      · rw [hnext]
        exact (ih.handles (ReceiverSession.handlePacket_handles _ _ _ _)).1

lemma run_tells (windowSize : BitVec 32) (outputDirectory : Path) (fs : FileSystem)
    (envs : List (ReceiverEnv Peer)) :
    Tells ((init Peer windowSize outputDirectory fs).run envs) := by
  induction envs using List.reverseRecOn with
  | nil => exact Tells.init windowSize outputDirectory fs
  | append_singleton envs env ih =>
      rw [run_concat]
      exact ih.step

/-- **Every run keeps the invariant**, if nothing was under the temporary name it ends up with. -/
lemma run_leaves (windowSize : BitVec 32) (outputDirectory : Path) (fs : FileSystem)
    (envs : List (ReceiverEnv Peer))
    (hfree : TempFree fs ((init Peer windowSize outputDirectory fs).run envs).world.session) :
    Leaves fs ((init Peer windowSize outputDirectory fs).run envs) := by
  induction envs using List.reverseRecOn with
  | nil => exact Leaves.init windowSize outputDirectory fs
  | append_singleton envs env ih =>
      rw [run_concat] at hfree ⊢
      refine (ih ?_).step (run_tells windowSize outputDirectory fs envs) hfree
      rcases session_step ((init Peer windowSize outputDirectory fs).run envs) env with
        hsame | ⟨packet, hnext⟩
      · rw [← hsame]
        exact hfree
      · rw [hnext] at hfree
        exact World.tempFree_of_next (run_unnamed windowSize outputDirectory fs envs) hfree

end ReceiveFile

/-- **What `receive_file` returns is what it leaves behind**, if nothing was under its temporary
name before and the destructor's `unlink` does its work.  Whatever arrives from whomever and
whatever becomes of its other calls: if it returns `kNone`, a FIN_ACK has gone out and the directory
has one new file, at the path reported; if it returns anything else, the directory is as it was.
Only `kSendFailed` leaves it open, for the reply that could not be sent may have been the
FIN_ACK. -/
theorem receive_file_outcome (Peer : Type) (windowSize : BitVec 32) (outputDirectory : Path)
    (fs : FileSystem) (envs : List (ReceiverEnv Peer)) (error : TransferError)
    (hdone : ((ReceiveFile.init Peer windowSize outputDirectory fs).run envs).phase = .done error)
    (hfree : TempFree fs
      ((ReceiveFile.init Peer windowSize outputDirectory fs).run envs).world.session) :
    let r := (ReceiveFile.init Peer windowSize outputDirectory fs).run envs
    (error = .none → r.SentFinAck ∧
      ∃ content, r.world.fs.view = Function.update fs.view r.outPath (some content)) ∧
    (error ≠ .none → r.world.fs.view = fs.view ∨ error = .sendFailed ∧
      ∃ content, r.world.fs.view =
        Function.update fs.view r.world.session.outputPath (some content)) := by
  intro r
  have htells : r.Tells := ReceiveFile.run_tells windowSize outputDirectory fs envs
  have hleaves : r.Leaves fs := ReceiveFile.run_leaves windowSize outputDirectory fs envs hfree
  cases hpublished : r.world.session.published with
  | false =>
      exact ⟨fun he => absurd he (htells.failed error hdone hpublished),
        fun _ => Or.inl (hleaves.restored error hdone hpublished)⟩
  | true =>
      obtain ⟨content, hview⟩ := hleaves.placed hpublished
      refine ⟨?_, fun hne => Or.inr ⟨?_, content, hview⟩⟩
      · rintro rfl
        have hphase : r.phase = .done .none := hdone
        refine ⟨htells.acked hpublished (by simp [hphase]), content, ?_⟩
        rw [htells.out hphase]
        exact hview
      · exact ((htells.published hpublished).2 error hdone).resolve_left hne

/-- A one-byte transfer with a datagram of garbage and a signal in between, and what `receive_file`
has to be told each time. -/
def sampleReception : List (ReceiverEnv Unit) :=
  [{ peer := () }, { peer := (), recv := .datagram (sampleJob.controlWire .start) },
    { peer := (), recv := .datagram [0] }, { peer := (), recv := .interrupted },
    { peer := (), recv := .datagram (sampleJob.dataWire 0) },
    { peer := (), recv := .datagram (sampleJob.controlWire .fin) }, { peer := () }]

/-- The file is there, and the caller is told where. -/
theorem receive_file_outcome_sample :
    let r := (ReceiveFile.init Unit 4 (asciiBytes "out") .empty).run sampleReception
    r.SentFinAck ∧ ∃ content, r.world.fs.view =
      Function.update FileSystem.empty.view r.outPath (some content) := by
  have hfree : TempFree .empty
      ((ReceiveFile.init Unit 4 (asciiBytes "out") .empty).run sampleReception).world.session :=
    fun _ => rfl
  exact (receive_file_outcome Unit 4 (asciiBytes "out") .empty sampleReception .none
    (by decide +kernel) hfree).1 rfl

end SwiftLink
