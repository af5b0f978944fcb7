import SwiftLink.System.OneJob
import SwiftLink.Transfer.ReceiveFile

/-!
# `send_file` against `receive_file`

The two blocking functions, each waiting for the other over a network that loses, delays, repeats
and reorders.  `receive_file` returns as soon as its session has settled and answers nothing after
that, so the two need not agree: when the last FIN_ACK is lost, the file has arrived and the sender
reports a failure.  They never disagree the other way round.

As long as `receive_file` runs it is the session of `System`, with a driver that sometimes fails to
send; so every run shadows one of `System` (`Follows`), and what is known there carries over.

* `blocking_agreement` — what each return value says about the other side and the directory.
-/

namespace SwiftLink

/-- The two calls, and what either has handed to its socket. -/
structure Blocking (Q : TimerQueue) where
  sender : Sender Q
  receiver : ReceiveFile Unit
  toReceiver : List Bytes

inductive BlockingEvent
  | sender (env : SenderEnv)
  | receiver (env : ReceiverEnv Unit)

namespace Blocking

variable {Q : TimerQueue}

/-- What `receive_file` has handed to its socket. -/
def toSender (b : Blocking Q) : List Bytes := b.receiver.sent.map Prod.snd

def init (Q : TimerQueue) (job : Job) (windowSize : BitVec 32) (outputDirectory : Path)
    (fs : FileSystem) : Blocking Q where
  sender := Sender.init Q job
  receiver := ReceiveFile.init Unit windowSize outputDirectory fs
  toReceiver := []

def next (job : Job) (b : Blocking Q) : BlockingEvent → Blocking Q
  | .sender env =>
      let stepped := b.sender.step job env
      { b with
        sender := stepped.1
        toReceiver := b.toReceiver ++ stepped.2.toList }
  | .receiver env => { b with receiver := b.receiver.step env }

/-- What may happen: each side receives only what the other has sent. -/
def Enabled (b : Blocking Q) : BlockingEvent → Prop
  | .sender env =>
      match env.recv with
      | .datagram bytes => bytes ∈ b.toSender
      | _ => True
  | .receiver env =>
      match env.recv with
      | .datagram bytes => bytes ∈ b.toReceiver
      | _ => True

instance (b : Blocking Q) (e : BlockingEvent) : Decidable (b.Enabled e) :=
  match e with
  | .sender env =>
      match h : env.recv with
      | .datagram bytes => decidable_of_iff (b.toSender.contains bytes) (by simp [Enabled, h])
      | .wouldBlock => isTrue (by simp [Enabled, h])
      | .interrupted => isTrue (by simp [Enabled, h])
      | .failed => isTrue (by simp [Enabled, h])
  | .receiver env =>
      match h : env.recv with
      | .datagram bytes => decidable_of_iff (b.toReceiver.contains bytes) (by simp [Enabled, h])
      | .wouldBlock => isTrue (by simp [Enabled, h])
      | .interrupted => isTrue (by simp [Enabled, h])
      | .failed => isTrue (by simp [Enabled, h])

lemma mem_of_enabled_sender {b : Blocking Q} {env : SenderEnv} {bytes : Bytes}
    (h : b.Enabled (.sender env)) (hrecv : env.recv = .datagram bytes) : bytes ∈ b.toSender := by
  rw [Enabled, hrecv] at h
  exact h

lemma mem_of_enabled_receiver {b : Blocking Q} {env : ReceiverEnv Unit} {bytes : Bytes}
    (h : b.Enabled (.receiver env)) (hrecv : env.recv = .datagram bytes) :
    bytes ∈ b.toReceiver := by
  rw [Enabled, hrecv] at h
  exact h

def run (job : Job) (b : Blocking Q) (events : List BlockingEvent) : Blocking Q :=
  events.foldl (next job) b

lemma run_concat (job : Job) (b : Blocking Q) (events : List BlockingEvent) (e : BlockingEvent) :
    b.run job (events ++ [e]) = (b.run job events).next job e := by
  simp [run]

/-- Each event of the list may happen when its turn comes. -/
def Runs (job : Job) (b : Blocking Q) : List BlockingEvent → Prop
  | [] => True
  | e :: events => b.Enabled e ∧ (b.next job e).Runs job events

instance instDecidableRuns (job : Job) (b : Blocking Q) (events : List BlockingEvent) :
    Decidable (b.Runs job events) :=
  match events with
  | [] => isTrue trivial
  | e :: events =>
      have : Decidable ((b.next job e).Runs job events) := instDecidableRuns job _ events
      inferInstanceAs (Decidable (_ ∧ _))

lemma runs_concat {job : Job} {b : Blocking Q} {events : List BlockingEvent} {e : BlockingEvent} :
    b.Runs job (events ++ [e]) ↔ b.Runs job events ∧ (b.run job events).Enabled e := by
  induction events generalizing b with
  | nil => simp [Runs, run]
  | cons first events ih => simp only [List.cons_append, Runs, ih, and_assoc]; rfl

end Blocking

/-! ## The run of `System` beside it -/

/-- **The two calls follow a run of the network.**  Once `receive_file` has returned, its directory
is what the destructor has made of it, and nothing is sent any more. -/
structure Follows {Q : TimerQueue} (b : Blocking Q) (sys : System Q) : Prop where
  sender : b.sender = sys.sender
  toReceiver : b.toReceiver = sys.toReceiver
  session : b.receiver.world.session = sys.receiver.session
  running : (∀ e, b.receiver.phase ≠ .done e) → b.receiver.world.fs = sys.receiver.fs
  returned : ∀ e, b.receiver.phase = .done e →
    b.receiver.world.fs = sys.receiver.session.destroy sys.receiver.fs
  toSender : ∀ bytes ∈ b.toSender, bytes ∈ sys.toSender

namespace Follows

variable {Q : TimerQueue} {job : Job} {b : Blocking Q} {sys : System Q}

lemma init (job : Job) (windowSize : BitVec 32) (outputDirectory : Path) (fs : FileSystem) :
    Follows (Blocking.init Q job windowSize outputDirectory fs)
      (System.init Q job windowSize outputDirectory fs) where
  sender := rfl
  toReceiver := rfl
  session := rfl
  running _ := rfl
  returned e h := by simp [Blocking.init, ReceiveFile.init] at h
  toSender bytes h := by simp [Blocking.init, Blocking.toSender, ReceiveFile.init] at h

lemma senderStep (h : Follows b sys) (env : SenderEnv) :
    Follows (b.next job (.sender env)) (sys.next job (.sender env)) := by
  refine ⟨?_, ?_, h.session, h.running, h.returned, h.toSender⟩
  · show (b.sender.step job env).1 = (sys.sender.step job env).1
    rw [h.sender]
  · show b.toReceiver ++ (b.sender.step job env).2.toList =
      sys.toReceiver ++ (sys.sender.step job env).2.toList
    rw [h.sender, h.toReceiver]

/-- The world, while `receive_file` runs. -/
lemma world_eq (h : Follows b sys) (hrunning : ∀ e, b.receiver.phase ≠ .done e) :
    b.receiver.world = sys.receiver := by
  have hfs := h.running hrunning
  have hsession := h.session
  generalize b.receiver.world = w at hfs hsession ⊢
  generalize sys.receiver = v at hfs hsession ⊢
  cases w
  cases v
  simp only [World.mk.injEq]
  exact ⟨hsession, hfs⟩

/-- A step that does not touch the session, of a `receive_file` that runs on. -/
lemma quiet (h : Follows b sys) {r : ReceiveFile Unit}
    (hrunning : ∀ e, b.receiver.phase ≠ .done e) (hphase : ∀ e, r.phase ≠ .done e)
    (hworld : r.world = b.receiver.world) (hsent : r.sent = b.receiver.sent) :
    Follows { b with receiver := r } sys := by
  have hw : r.world = sys.receiver := hworld.trans (h.world_eq hrunning)
  refine ⟨h.sender, h.toReceiver, congrArg World.session hw, fun _ => congrArg World.fs hw,
    fun e he => absurd he (hphase e), fun bytes hbytes => h.toSender bytes ?_⟩
  rw [Blocking.toSender, hsent] at hbytes
  exact hbytes

/-- `receive_file` returns. -/
lemma finish (h : Follows b sys) (hrunning : ∀ e, b.receiver.phase ≠ .done e)
    {r : ReceiveFile Unit} (hworld : r.world = b.receiver.world) (hsent : r.sent = b.receiver.sent)
    (error : TransferError) : Follows { b with receiver := r.finish error } sys := by
  have hw : r.world = sys.receiver := hworld.trans (h.world_eq hrunning)
  refine ⟨h.sender, h.toReceiver, ?_, fun hnot => absurd rfl (hnot error), fun e _ => ?_,
    fun bytes hbytes => h.toSender bytes ?_⟩
  · show r.world.session = _
    rw [hw]
  · show r.world.session.destroy r.world.fs = _
    rw [hw]
  · rw [Blocking.toSender, ReceiveFile.finish, hsent] at hbytes
    exact hbytes

/-- The datagram `receive_file` has taken is delivered in the network too. -/
lemma deliver (job : Job) (h : Follows b sys) {env : ReceiverEnv Unit} {packet : Packet}
    (henabled : b.Enabled (.receiver env)) (htakes : b.receiver.Takes env packet) :
    ∃ bytes, sys.Enabled (.deliver bytes env.io) ∧
      sys.next job (.deliver bytes env.io) =
        { sys with
          receiver := b.receiver.world.next (.packet packet env.io)
          toSender := sys.toSender ++ (b.receiver.world.answer packet env.io).toList } := by
  obtain ⟨bytes, hrecv, hpacket⟩ := htakes.received
  refine ⟨bytes, ?_, ?_⟩
  · show bytes ∈ sys.toReceiver
    rw [← h.toReceiver]
    exact Blocking.mem_of_enabled_receiver henabled hrecv
  · rw [h.world_eq (by simp [htakes.phase])]
    simp only [System.next, World.receive, hpacket]

/-- **A step of `receive_file`** is a delivery, or nothing to the network. -/
lemma receiverStep (job : Job) (h : Follows b sys) {env : ReceiverEnv Unit}
    (henabled : b.Enabled (.receiver env)) :
    Follows (b.next job (.receiver env)) sys ∨
      ∃ bytes, sys.Enabled (.deliver bytes env.io) ∧
        Follows (b.next job (.receiver env)) (sys.next job (.deliver bytes env.io)) := by
  have hturn := b.receiver.step_turn env
  have hnext : b.next job (.receiver env) = { b with receiver := b.receiver.step env } := rfl
  rw [hnext]
  generalize b.receiver.step env = r at hturn ⊢
  cases hturn with
  | stays => exact Or.inl h
  | enters hphase => exact Or.inl (h.quiet (by simp [hphase]) (by simp) rfl rfl)
  | settles hphase hfinished =>
      refine Or.inl (h.finish (r := { b.receiver with
        outPath := b.receiver.world.session.outputPath
        stats := b.receiver.world.session.stats }) ?_ rfl rfl _)
      simp [hphase]
  | fails error herror hunfinished hrunning => exact Or.inl (h.finish hrunning rfl rfl _)
  | silent packet htakes hreply =>
      obtain ⟨bytes, hmatched, hdelivered⟩ := h.deliver job henabled htakes
      refine Or.inr ⟨bytes, hmatched, ?_⟩
      rw [hdelivered]
      refine ⟨h.sender, h.toReceiver, rfl, fun _ => rfl, fun e he => ?_, fun a ha => ?_⟩
      · simp [htakes.phase] at he
      · exact List.mem_append_left _ (h.toSender a ha)
  | answers packet htakes answer hreply =>
      obtain ⟨bytes, hmatched, hdelivered⟩ := h.deliver job henabled htakes
      refine Or.inr ⟨bytes, hmatched, ?_⟩
      rw [hdelivered]
      refine ⟨h.sender, h.toReceiver, rfl, fun _ => rfl, fun e he => ?_, fun a ha => ?_⟩
      · simp [htakes.phase] at he
      · rw [Blocking.toSender, List.map_append, List.mem_append] at ha
        rcases ha with hold | hnew
        · exact List.mem_append_left _ (h.toSender a hold)
        · obtain rfl : a = answer := by simpa using hnew
          rw [hreply]
          exact List.mem_append_right _ (List.mem_singleton_self _)
  | mute packet htakes answer hreply =>
      obtain ⟨bytes, hmatched, hdelivered⟩ := h.deliver job henabled htakes
      refine Or.inr ⟨bytes, hmatched, ?_⟩
      rw [hdelivered]
      refine ⟨h.sender, h.toReceiver, rfl, fun hnot => absurd rfl (hnot _), fun _ _ => rfl,
        fun a ha => ?_⟩
      exact List.mem_append_left _ (h.toSender a ha)

end Follows

/-! ## Agreement -/

/-- **What the two calls keep true of each other.** -/
structure Agrees {Q : TimerQueue} (b : Blocking Q) (sys : System Q) : Prop
    extends Follows b sys where
  tells : b.receiver.Tells
  done : b.sender.phase = .done .none →
    b.receiver.world.session.published = true ∧ b.receiver.phase ≠ .done .sendFailed

namespace Agrees

variable {Q : TimerQueue} {job : Job} {b : Blocking Q} {sys : System Q}

lemma init (job : Job) (windowSize : BitVec 32) (outputDirectory : Path) (fs : FileSystem) :
    Agrees (Blocking.init Q job windowSize outputDirectory fs)
      (System.init Q job windowSize outputDirectory fs) where
  toFollows := Follows.init job windowSize outputDirectory fs
  tells := ReceiveFile.Tells.init windowSize outputDirectory fs
  done h := by simp [Blocking.init, Sender.init] at h

lemma senderStep (h : Agrees b sys) (hinv : sys.sender.Inv job) {env : SenderEnv}
    (henabled : b.Enabled (.sender env)) :
    Agrees (b.next job (.sender env)) (sys.next job (.sender env)) := by
  refine ⟨h.toFollows.senderStep env, h.tells, fun hdone => ?_⟩
  have hsteps : Sender.Steps job b.sender env (b.sender.step job env).1
      (b.sender.step job env).2 := Sender.step_steps (h.sender ▸ hinv)
  rcases hsteps.finished hdone with hwas | ⟨packet, ⟨bytes, hrecv, hpacket⟩, htype, -⟩
  · exact h.done hwas
  · -- the FIN_ACK is one that `receive_file` has sent
    obtain ⟨x, hx, rfl⟩ :=
      List.mem_map.mp (Blocking.mem_of_enabled_sender henabled hrecv)
    exact h.tells.finAck x hx packet hpacket htype

lemma receiverStep (job : Job) (h : Agrees b sys) {env : ReceiverEnv Unit}
    (henabled : b.Enabled (.receiver env)) :
    Agrees (b.next job (.receiver env)) sys ∨
      ∃ bytes, sys.Enabled (.deliver bytes env.io) ∧
        Agrees (b.next job (.receiver env)) (sys.next job (.deliver bytes env.io)) := by
  have hdone : (b.next job (.receiver env)).sender.phase = .done .none →
      (b.next job (.receiver env)).receiver.world.session.published = true ∧
        (b.next job (.receiver env)).receiver.phase ≠ .done .sendFailed := fun hdone =>
    h.tells.published_step (h.done hdone).1 (h.done hdone).2
  rcases h.toFollows.receiverStep job henabled with hsame | ⟨bytes, hmatched, hnext⟩
  · exact Or.inl ⟨hsame, h.tells.step, hdone⟩
  · exact Or.inr ⟨bytes, hmatched, hnext, h.tells.step, hdone⟩

/-- **Every run agrees with a run of the network.** -/
lemma run {windowSize : BitVec 32} {outputDirectory : Path} {fs : FileSystem}
    {events : List BlockingEvent} (hrange : job.InRange)
    (hruns : (Blocking.init Q job windowSize outputDirectory fs).Runs job events) :
    ∃ sys, Reachable job (fun _ => True) (System.init Q job windowSize outputDirectory fs) sys ∧
      Agrees ((Blocking.init Q job windowSize outputDirectory fs).run job events) sys := by
  induction events using List.reverseRecOn with
  | nil => exact ⟨_, .start, init job windowSize outputDirectory fs⟩
  | append_singleton events e ih =>
      obtain ⟨hbefore, henabled⟩ := Blocking.runs_concat.mp hruns
      obtain ⟨sys, hreach, hagrees⟩ := ih hbefore
      rw [Blocking.run_concat]
      cases e with
      | sender env =>
          refine ⟨_, .next hreach (.sender env) ?_ trivial,
            hagrees.senderStep (hreach.joint hrange).sender henabled⟩
          cases hrecv : env.recv with
          | datagram bytes =>
              rw [System.Enabled, hrecv]
              exact hagrees.toSender bytes (Blocking.mem_of_enabled_sender henabled hrecv)
          | wouldBlock => rw [System.Enabled, hrecv]; trivial
          | interrupted => rw [System.Enabled, hrecv]; trivial
          | failed => rw [System.Enabled, hrecv]; trivial
      | receiver env =>
          rcases hagrees.receiverStep job henabled with hsame | ⟨bytes, hmatched, hnext⟩
          · exact ⟨sys, hreach, hsame⟩
          · exact ⟨_, .next hreach (.deliver bytes env.io) hmatched trivial, hnext⟩

end Agrees

/-- **The two calls never disagree the dangerous way round.**  In every run, whatever the network
and the system calls do: when `send_file` has returned `kNone`, `receive_file` has not returned and
will not return anything else; and when either has returned `kNone`, the name the job asks for holds
the job's file, under the path `receive_file` reports. -/
theorem blocking_agreement (Q : TimerQueue) (job : Job) (windowSize : BitVec 32)
    (outputDirectory : Path) (fs : FileSystem) (events : List BlockingEvent)
    (hrange : job.InRange)
    (hruns : (Blocking.init Q job windowSize outputDirectory fs).Runs job events) :
    let b := (Blocking.init Q job windowSize outputDirectory fs).run job events
    (b.sender.phase = .done .none → ∀ error, b.receiver.phase = .done error → error = .none) ∧
    (b.sender.phase = .done .none ∨ b.receiver.phase = .done .none →
      ∃ name, sanitizeFilename job.config.remoteName = (.none, name) ∧
        b.receiver.world.fs.view (joinPath outputDirectory name) = some job.data ∧
        (b.receiver.phase = .done .none → b.receiver.outPath = joinPath outputDirectory name)) := by
  intro b
  obtain ⟨sys, hreach, hagrees⟩ := Agrees.run hrange hruns
  refine ⟨fun hdone error hreturned => ?_, fun hdone => ?_⟩
  · obtain ⟨hpublished, hnot⟩ := hagrees.done hdone
    rcases (hagrees.tells.published hpublished).2 error hreturned with hnone | rfl
    · exact hnone
    · exact absurd hreturned hnot
  · have hpublished : b.receiver.world.session.published = true := by
      rcases hdone with hsender | hreceiver
      · exact (hagrees.done hsender).1
      · by_contra hnot
        exact hagrees.tells.failed .none hreceiver (by simpa using hnot) rfl
    have hpublished' : sys.receiver.session.published = true := by
      rw [← hagrees.session]
      exact hpublished
    obtain ⟨name, hname, hpath, hview⟩ := (hreach.fed hrange).2.1 hpublished'
    -- the destructor leaves a published file alone
    have hfs : b.receiver.world.fs = sys.receiver.fs := by
      by_cases hrunning : ∀ e, b.receiver.phase ≠ .done e
      · exact hagrees.running hrunning
      · push Not at hrunning
        obtain ⟨e, he⟩ := hrunning
        rw [hagrees.returned e he]
        simp [ReceiverSession.destroy, hpublished']
    refine ⟨name, hname, hfs ▸ hview, fun hreceiver => ?_⟩
    rw [hagrees.tells.out hreceiver, hagrees.session]
    exact hpath

/-- The one-byte transfer between the two calls; the chunk arrives twice. -/
def sampleCalls : List BlockingEvent :=
  [.receiver { peer := () }, .sender {},
    .receiver { peer := (), recv := .datagram (sampleJob.controlWire .start) },
    .sender { recv := .datagram (sampleAnswer .startAck 0) }, .sender {}, .sender {},
    .receiver { peer := (), recv := .datagram (sampleJob.dataWire 0) },
    .receiver { peer := (), recv := .datagram (sampleJob.dataWire 0) }, .sender {},
    .sender { recv := .datagram (sampleAnswer .ack 0) }, .sender {}, .sender {}, .sender {},
    .receiver { peer := (), recv := .datagram (sampleJob.controlWire .fin) },
    .sender { recv := .datagram (sampleAnswer .finAck 1) }, .receiver { peer := () }]

/-- Both return `kNone`, and the file is there. -/
theorem blocking_agreement_sample :
    ∃ name, ((Blocking.init sortedTimers sampleJob 4 [] .empty).run sampleJob
      sampleCalls).receiver.world.fs.view (joinPath [] name) = some (asciiBytes "x") := by
  have hruns : (Blocking.init sortedTimers sampleJob 4 [] .empty).Runs sampleJob sampleCalls := by
    decide +kernel
  have hdone : ((Blocking.init sortedTimers sampleJob 4 [] .empty).run sampleJob
      sampleCalls).receiver.phase = .done .none := by
    decide +kernel
  obtain ⟨name, -, hview, -⟩ := (blocking_agreement sortedTimers sampleJob 4 [] .empty sampleCalls
    ⟨by decide, by decide⟩ hruns).2 (Or.inr hdone)
  exact ⟨name, hview⟩

end SwiftLink
