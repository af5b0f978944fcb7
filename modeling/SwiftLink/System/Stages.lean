import SwiftLink.System.Joint
import SwiftLink.Transfer.ControlIsolation
import SwiftLink.Transfer.Retransmission

/-!
# Where the sender is

The control flow of `send_file` only goes forward, through the handshake, the data phase and the FIN
exchange, so what it has sent tells where it is.  And the session sends no ERROR before it has
settled.  `InOrder` says so of the joint states.
-/

namespace SwiftLink

variable {Q : TimerQueue}

/-! ## Where the sender is -/

/-- The handshake, the data phase, the FIN exchange, and the return. -/
def SenderPhase.stage : SenderPhase → ℕ
  | .control .start _ => 0
  | .awaitReply .start _ _ => 0
  | .control .fin _ => 2
  | .awaitReply .fin _ _ => 2
  | .done _ => 3
  | _ => 1

/-- The stage in which a packet is sent first. -/
def PacketType.sentFrom : PacketType → ℕ
  | .data => 1
  | .fin => 2
  | _ => 0

/-- Where a step can lead. -/
inductive SenderPhase.Follows : SenderPhase → SenderPhase → Prop
  | stays (phase : SenderPhase) : Follows phase phase
  | sent (which : Control) (attempt : ℤ) (deadline : TimePoint) :
      Follows (.control which attempt) (.awaitReply which attempt deadline)
  | retries (which : Control) (attempt : ℤ) (deadline : TimePoint) :
      Follows (.awaitReply which attempt deadline) (.control which (attempt + 1))
  | started (attempt : ℤ) (deadline : TimePoint) :
      Follows (.awaitReply .start attempt deadline) .loop
  | fills : Follows .loop .fill
  | sleeps : Follows .fill .sleep
  | expires (expired : List ℕ) : Follows .sleep (.resend expired)
  | resent (sequence : ℕ) (rest : List ℕ) : Follows (.resend (sequence :: rest)) (.resend rest)
  | loops : Follows (.resend []) .loop
  | completes (phase : SenderPhase) (h : phase = .loop ∨ phase = .sleep) :
      Follows phase (.control .fin 0)
  | returns (phase : SenderPhase) (error : TransferError) : Follows phase (.done error)

namespace Sender

variable {job : Job} {s : Sender Q} {env : SenderEnv}

/-- **The control flow of `send_file`.** -/
lemma step_follows (job : Job) (s : Sender Q) (env : SenderEnv) :
    s.phase.Follows (s.step job env).1.phase := by
  cases hphase : s.phase with
  | control which attempt =>
      simp only [step, hphase, stepControl]
      generalize sendPacket env (job.controlWire which) _ = sent
      split_ifs
      · exact .sent ..
      · exact .returns ..
      · exact .returns ..
  | awaitReply which attempt deadline =>
      simp only [step, hphase, stepAwaitReply]
      split_ifs
      · exact .retries ..
      · exact .returns ..
      · split
        · exact .retries ..
        · exact hphase ▸ .stays _
        · exact .returns ..
        · split
          · exact .stays _
          · simp only [onControlReply]
            split_ifs
            · exact .returns ..
            · exact .stays _
            · cases which with
              | start => exact .started ..
              | fin => exact .returns ..
            · exact .stays _
  | loop =>
      simp only [step, hphase, stepLoop]
      split_ifs
      · exact .fills
      · exact .completes _ (Or.inl rfl)
  | fill =>
      simp only [step, hphase, stepFill]
      split_ifs
      · split
        · exact .returns ..
        · split_ifs
          · exact .returns ..
          · exact .stays _
          · exact .returns ..
      · exact .sleeps
  | sleep =>
      simp only [step, hphase, stepSleep]
      split
      · exact .completes _ (Or.inr rfl)
      · split_ifs
        · exact .returns ..
        · exact .returns ..
        · exact .expires _
  | resend expired =>
      cases expired with
      | nil =>
          simp only [step, hphase]
          exact .loops
      | cons sequence rest =>
          simp only [step, hphase, stepResend]
          split_ifs
          · exact .returns ..
          · exact .resent ..
          · exact .returns ..
  | done error =>
      simp only [step, hphase]
      exact .stays _

end Sender

/-- **The sender never goes back.** -/
lemma SenderPhase.Follows.stage_le {phase phase' : SenderPhase} (h : phase.Follows phase') :
    phase.stage ≤ phase'.stage := by
  cases h with
  | stays => exact le_rfl
  | sent which => cases which <;> exact le_rfl
  | retries which => cases which <;> exact le_rfl
  | started => exact Nat.zero_le _
  | fills => exact le_rfl
  | sleeps => exact le_rfl
  | expires => exact le_rfl
  | resent => exact le_rfl
  | loops => exact le_rfl
  | completes _ h => rcases h with rfl | rfl <;> decide
  | returns phase error =>
      cases phase with
      | control which => cases which <;> simp [stage]
      | awaitReply which => cases which <;> simp [stage]
      | _ => simp [stage]

/-- **What is sent gives the stage away.** -/
lemma Sender.sentFrom_le_stage {job : Job} (hrange : job.InRange) {s : Sender Q} (h : s.Inv job)
    {env : SenderEnv} {bytes : Bytes} (hout : (s.step job env).2 = some bytes) {packet : Packet}
    (hpacket : deserialize bytes = .ok packet) :
    packet.header.packetType.sentFrom ≤ s.phase.stage := by
  have hwire : ∀ {header : PacketHeader} {payload : Bytes}, header.WellFormed →
      deserialize (serialize header payload) = .ok packet →
      packet.header.packetType = header.packetType := by
    intro header payload hwf hdecodes
    rw [(decoded_of_serialize hwf hdecodes).1]
    rfl
  rw [step_datagram] at hout
  split_ifs at hout with hlost
  cases hphase : s.phase with
  | control which attempt =>
      simp only [handsOver, hphase] at hout
      split_ifs at hout
      obtain rfl := Option.some.inj hout
      cases which with
      | start => rw [(Job.decoded_start hrange hpacket).1]; exact le_rfl
      | fin => rw [(Job.decoded_fin hrange hpacket).1]; exact le_rfl
  | fill =>
      simp only [handsOver, hphase] at hout
      split_ifs at hout
      split at hout
      · simp at hout
      · split_ifs at hout
        obtain rfl := Option.some.inj hout
        rw [hwire ⟨rfl, rfl, rfl⟩ hpacket]
        exact le_rfl
  | resend expired =>
      cases expired with
      | nil => simp [handsOver, hphase] at hout
      | cons sequence rest =>
          have hat := h.phase
          rw [hphase] at hat
          simp only [handsOver, hphase, h.wires sequence (hat.2 sequence List.mem_cons_self)]
            at hout
          split_ifs at hout
          obtain rfl := Option.some.inj hout
          rw [hwire ⟨rfl, rfl, rfl⟩ hpacket]
          exact le_rfl
  | awaitReply => simp [handsOver, hphase] at hout
  | loop => simp [handsOver, hphase] at hout
  | sleep => simp [handsOver, hphase] at hout
  | done => simp [handsOver, hphase] at hout

/-! ## The session's side -/

namespace ReceiverSession

variable {s : ReceiverSession} {fs : FileSystem} {packet : Packet} {io : IoEnv} {handled : Handled}

/-- Only a settled session sends an ERROR. -/
lemma Handles.finished_of_error (h : s.Handles fs packet io handled)
    (hreply : handled.reply.type = .error) : handled.session.finished = true := by
  cases h with
  | replayed stats hr =>
      simp only [replays, Bool.and_eq_true] at hr
      exact hr.1.1.1
  | ignored => simp at hreply
  | restarted => simp at hreply
  | duplicate => simp at hreply
  | outside => simp at hreply
  | opened => simp at hreply
  | stored => simp at hreply
  | published => simp at hreply
  | strayed => rfl
  | misnamed => rfl
  | openFailed => rfl
  | oversized => rfl
  | writeFailed => rfl
  | finFailed => rfl

end ReceiverSession

/-! ## Both sides -/

/-- The order of events across the network: what the sender has sent tells where it is, and there
is no ERROR before the session has settled. -/
structure InOrder (sys : System Q) : Prop where
  sent : ∀ bytes ∈ sys.toReceiver, ∀ packet, deserialize bytes = .ok packet →
    packet.header.packetType.sentFrom ≤ sys.sender.phase.stage
  errors : ∀ bytes ∈ sys.toSender, ∀ packet, deserialize bytes = .ok packet →
    packet.header.packetType = .error → sys.receiver.session.finished = true
  returned : sys.sender.phase = .done .remoteError → sys.receiver.session.finished = true

namespace System

variable {job : Job} {sys : System Q}

/-- What a settled session keeps, it keeps throughout. -/
lemma settled_next {w : World} (h : w.session.finished = true) (hw : w.Settled sys.receiver)
    (e : NetEvent) : w.Settled (sys.next job e).receiver := by
  cases e with
  | sender env => exact hw
  | closeFile => exact hw.next h .closeFile
  | deliver bytes io =>
      simp only [next, World.receive]
      split
      · exact hw
      · next packet hpacket => exact hw.next h (.packet packet io)

lemma settled_run {w : World} (h : w.session.finished = true) (hw : w.Settled sys.receiver)
    (events : List NetEvent) : w.Settled (sys.run job events).receiver := by
  induction events generalizing sys with
  | nil => exact hw
  | cons e events ih => exact ih (settled_next h hw e)

lemma finished_next (h : sys.receiver.session.finished = true) (e : NetEvent) :
    (sys.next job e).receiver.session.finished = true := by
  have hsettled : sys.receiver.Settled (sys.next job e).receiver :=
    settled_next h (World.Settled.refl _) e
  obtain ⟨-, stats, file, hsession⟩ := hsettled
  rw [hsession]
  exact h

lemma stage_le_run (job : Job) (sys : System Q) (events : List NetEvent) :
    sys.sender.phase.stage ≤ (sys.run job events).sender.phase.stage := by
  induction events generalizing sys with
  | nil => exact le_rfl
  | cons e events ih =>
      refine le_trans ?_ (ih (sys.next job e))
      cases e with
      | sender env => exact (Sender.step_follows job sys.sender env).stage_le
      | deliver => exact le_rfl
      | closeFile => exact le_rfl

end System

namespace InOrder

variable {job : Job} {sys : System Q}

lemma init (job : Job) (windowCapacity : BitVec 32) (outputDirectory : Path) (fs : FileSystem) :
    InOrder (System.init Q job windowCapacity outputDirectory fs) where
  sent := by simp [System.init]
  errors := by simp [System.init]
  returned h := absurd h (by simp [System.init, Sender.init])

/-- **Every step keeps the order.** -/
lemma next (hrange : job.InRange) (hjoint : Joint job sys) (h : InOrder sys) {e : NetEvent}
    (henabled : sys.Enabled e) : InOrder (sys.next job e) := by
  cases e with
  | sender env =>
      have hstage := (Sender.step_follows job sys.sender env).stage_le
      refine ⟨fun bytes hbytes packet hpacket => ?_, h.errors, fun hreturned => ?_⟩
      · rcases List.mem_append.mp hbytes with hold | hnew
        · exact (h.sent bytes hold packet hpacket).trans hstage
        · exact (Sender.sentFrom_le_stage hrange hjoint.sender (Option.mem_toList.mp hnew)
            hpacket).trans hstage
      · rcases Sender.takes_of_remoteError hreturned with
          hold | ⟨_, _, _, packet, -, htakes, herror⟩
        · exact h.returned hold
        · obtain ⟨bytes, hrecv, hpacket⟩ := htakes.received
          exact h.errors bytes (System.mem_toSender_of_enabled henabled hrecv) packet hpacket herror
  | closeFile => exact ⟨h.sent, h.errors, h.returned⟩
  | deliver bytes io =>
      refine ⟨h.sent, fun bytes' hbytes' packet' hpacket' herror => ?_,
        fun hreturned => System.finished_next (h.returned hreturned) _⟩
      rcases List.mem_append.mp hbytes' with hold | hnew
      · exact System.finished_next (h.errors bytes' hold packet' hpacket' herror) _
      · simp only [World.receive] at hnew
        simp only [System.next, World.receive]
        split at hnew
        · simp at hnew
        · simp only [World.answer, Option.mem_toList] at hnew
          split_ifs at hnew with hsend
          obtain rfl := Option.some.inj hnew
          rw [(Reply.decoded_wire hpacket').1] at herror
          exact (ReceiverSession.handlePacket_handles _ _ _ _).finished_of_error herror

end InOrder

/-- **Every reachable state is in order.** -/
lemma Reachable.inOrder {job : Job} {P : IoEnv → Prop} {windowCapacity : BitVec 32}
    {outputDirectory : Path} {fs : FileSystem} {sys : System Q}
    (h : Reachable job P (System.init Q job windowCapacity outputDirectory fs) sys)
    (hrange : job.InRange) : InOrder sys := by
  induction h with
  | start => exact InOrder.init job windowCapacity outputDirectory fs
  | next hreach e henabled hcalls ih => exact ih.next hrange (hreach.joint hrange) henabled

end SwiftLink
