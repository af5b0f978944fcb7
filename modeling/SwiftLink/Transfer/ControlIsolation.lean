import SwiftLink.Transfer.SenderIsolation

/-!
# Whose replies end an exchange

`exchange_control` skips a reply of another session, "not ours", but only after it has looked for an
ERROR.  So an ERROR left over from another session ends the exchange, with the status of a transfer
this sender has nothing to do with.

That is the only way in: every other packet has passed the check before it decides anything, and
`control_isolated_iff` says that a run keeps the sessions apart exactly when it takes no ERROR of
another session while it waits for a reply.
-/

namespace SwiftLink

/-- Inside `exchange_control`. -/
def SenderPhase.inExchange : SenderPhase → Bool
  | .control _ _ => true
  | .awaitReply _ _ _ => true
  | _ => false

namespace Sender

variable {Q : TimerQueue} {job : Job} {s : Sender Q} {env : SenderEnv} {which : Control}
  {attempt : ℤ} {deadline : TimePoint} {packet : Packet}

/-- The step takes a datagram from the socket before the deadline, and it decodes. -/
structure Takes (env : SenderEnv) (deadline : TimePoint) (packet : Packet) : Prop where
  inTime : 0 < deadline - env.now
  timeoutOk : env.timeoutOk = true
  received : ∃ bytes, env.recv = .datagram bytes ∧ deserialize bytes = .ok packet

lemma Takes.packet_unique {deadline' : TimePoint} {packet' : Packet}
    (h : Takes env deadline packet) (h' : Takes env deadline' packet') : packet = packet' := by
  obtain ⟨bytes, hrecv, hpacket⟩ := h.received
  obtain ⟨bytes', hrecv', hpacket'⟩ := h'.received
  obtain rfl : bytes = bytes' := RecvOutcome.datagram.inj (hrecv.symm.trans hrecv')
  exact Except.ok.inj (hpacket.symm.trans hpacket')

/-- A datagram this program built is taken for what it is. -/
lemma takes_of_serialize {header : PacketHeader} {payload : Bytes}
    (hinTime : 0 < deadline - env.now) (htimeoutOk : env.timeoutOk = true)
    (hrecv : env.recv = .datagram (serialize header payload)) (hwf : header.WellFormed)
    (hlength : payload.length ≤ kMaxPayloadSize) :
    ∃ packet, Takes env deadline packet ∧ packet.header = onWire header payload ∧
      packet.payload = payload :=
  ⟨_, ⟨hinTime, htimeoutOk, _, hrecv, deserialize_serialize hwf hlength⟩, rfl, rfl⟩

/-- The exchange returns `kNone` or `kRemoteError`, or sets `remote_status`. -/
def Settles (s t : Sender Q) : Prop :=
  t.phase = .loop ∨ t.phase = .done .none ∨ t.phase = .done .remoteError ∨
    t.stats.remoteStatus ≠ s.stats.remoteStatus

/-! ## One step -/

lemma step_of_takes (hphase : s.phase = .awaitReply which attempt deadline)
    (h : Takes env deadline packet) :
    (s.step job env).1 =
      { s with stats.packetsReceived := s.stats.packetsReceived + 1 }.onControlReply job which
        packet := by
  obtain ⟨bytes, hrecv, hpacket⟩ := h.received
  simp only [step, hphase, stepAwaitReply, if_neg (not_le.mpr h.inTime), h.timeoutOk, hrecv,
    hpacket, Bool.not_true, Bool.false_eq_true, if_false]

/-- **An ERROR ends the exchange**, and its first byte is the status that is reported. -/
lemma step_of_error (hphase : s.phase = .awaitReply which attempt deadline)
    (h : Takes env deadline packet) (herror : packet.header.packetType = .error) :
    (s.step job env).1.phase = .done .remoteError ∧
      ∀ code, packet.payload.head?.bind StatusCode.ofByte? = some code →
        (s.step job env).1.stats.remoteStatus = code := by
  rw [step_of_takes hphase h, onControlReply, if_pos herror]
  refine ⟨rfl, fun code hcode => ?_⟩
  simp only [hcode, finish]

/-- Anything else of another session is skipped. -/
lemma step_of_foreign (hphase : s.phase = .awaitReply which attempt deadline)
    (h : Takes env deadline packet) (herror : packet.header.packetType ≠ .error)
    (hforeign : packet.header.sessionId ≠ job.config.sessionId) :
    (s.step job env).1.phase = .awaitReply which attempt deadline ∧
      (s.step job env).1.stats.remoteStatus = s.stats.remoteStatus := by
  rw [step_of_takes hphase h, onControlReply, if_neg herror, if_pos hforeign]
  exact ⟨hphase, rfl⟩

/-- Sending the packet settles nothing. -/
lemma not_settles_of_control (hphase : s.phase = .control which attempt) :
    ¬ Settles s (s.step job env).1 := by
  have hstatus : ∀ (wire : Bytes) (stats : TransferStats),
      (sendPacket env wire stats).stats.remoteStatus = stats.remoteStatus := by
    intro wire stats
    simp only [sendPacket]
    split_ifs <;> rfl
  have hgiveUp : which.giveUp ≠ .none ∧ which.giveUp ≠ .remoteError := by cases which <;> decide
  rw [step, hphase]
  simp only [stepControl, Settles]
  split_ifs <;> simp [finish, hstatus, hgiveUp]

/-- **Only a packet settles an exchange**, one of this session or an ERROR. -/
lemma takes_of_settles (hphase : s.phase = .awaitReply which attempt deadline)
    (h : Settles s (s.step job env).1) :
    ∃ packet, Takes env deadline packet ∧
      (packet.header.sessionId = job.config.sessionId ∨ packet.header.packetType = .error) := by
  rw [step, hphase] at h
  simp only [stepAwaitReply] at h
  split_ifs at h with htime htimeout
  · simp [Settles] at h
  · simp [Settles, finish] at h
  · split at h
    · simp [Settles] at h
    · simp [Settles, hphase] at h
    · simp [Settles, finish] at h
    · next bytes hrecv =>
      split at h
      · simp [Settles, hphase] at h
      · next packet hpacket =>
        refine ⟨packet, ⟨not_le.mp htime, by simpa using htimeout, bytes, hrecv, hpacket⟩, ?_⟩
        by_contra hneither
        rw [not_or] at hneither
        rw [onControlReply, if_neg hneither.2, if_pos hneither.1] at h
        simp [Settles, hphase] at h

/-- **`kRemoteError` comes from `exchange_control` alone**, when it takes an ERROR. -/
lemma takes_of_remoteError (h : (s.step job env).1.phase = .done .remoteError) :
    s.phase = .done .remoteError ∨ ∃ which attempt deadline packet,
      s.phase = .awaitReply which attempt deadline ∧ Takes env deadline packet ∧
      packet.header.packetType = .error := by
  cases hphase : s.phase with
  | control which attempt =>
      have hsettles : Settles s (s.step job env).1 := Or.inr (Or.inr (Or.inl h))
      exact absurd hsettles (not_settles_of_control hphase)
  | awaitReply which attempt deadline =>
      obtain ⟨packet, htakes, -⟩ := takes_of_settles hphase (Or.inr (Or.inr (Or.inl h)))
      refine Or.inr ⟨which, attempt, deadline, packet, rfl, htakes, ?_⟩
      by_contra herror
      rw [step_of_takes hphase htakes, onControlReply, if_neg herror] at h
      split_ifs at h
      · simp [hphase] at h
      · cases which <;> simp [acknowledged, finish] at h
      · simp [hphase] at h
  | loop =>
      rw [step, hphase] at h
      simp only [stepLoop] at h
      split_ifs at h
      simp [finishData] at h
  | fill =>
      rw [step, hphase] at h
      simp only [stepFill] at h
      split_ifs at h
      split at h
      · simp [finish] at h
      · split_ifs at h <;> simp [finish, hphase] at h
  | sleep =>
      rw [step, hphase] at h
      simp only [stepSleep] at h
      split at h
      · simp [finishData] at h
      · split_ifs at h <;> simp [finish] at h
  | resend expired =>
      cases expired with
      | nil => simp [step, hphase] at h
      | cons sequence rest =>
          rw [step, hphase] at h
          simp only [stepResend] at h
          split_ifs at h <;> simp [finish] at h
  | done error => simpa [step, hphase] using h

/-! ## Every run -/

/-- While an exchange waits, the run takes no ERROR of another session. -/
def NoForeignError (job : Job) (s : Sender Q) (envs : List SenderEnv) : Prop :=
  ∀ before env after which attempt deadline packet, envs = before ++ env :: after →
    (s.run job before).phase = .awaitReply which attempt deadline →
    Takes env deadline packet → packet.header.packetType = .error →
    packet.header.sessionId = job.config.sessionId

/-- **The exchanges of a run heed this session only.** -/
structure ControlIsolated (job : Job) (s : Sender Q) (envs : List SenderEnv) : Prop where
  /-- What settles an exchange is a packet of this session. -/
  own : ∀ before env after, envs = before ++ env :: after →
    (s.run job before).phase.inExchange = true →
    Settles (s.run job before) ((s.run job before).step job env).1 →
    ∃ which attempt deadline packet,
      (s.run job before).phase = .awaitReply which attempt deadline ∧
      Takes env deadline packet ∧ packet.header.sessionId = job.config.sessionId
  /-- Any number of packets of other sessions leaves the exchange waiting, in the same attempt. -/
  foreign : ∀ before between after which attempt deadline, envs = before ++ between ++ after →
    (s.run job before).phase = .awaitReply which attempt deadline →
    (∀ env ∈ between, ∃ packet, Takes env deadline packet ∧
      packet.header.sessionId ≠ job.config.sessionId) →
    (s.run job (before ++ between)).phase = .awaitReply which attempt deadline ∧
      (s.run job (before ++ between)).stats.remoteStatus = (s.run job before).stats.remoteStatus

lemma NoForeignError.own {envs : List SenderEnv} (h : s.NoForeignError job envs)
    {before after : List SenderEnv} (heq : envs = before ++ env :: after)
    (hexchange : (s.run job before).phase.inExchange = true)
    (hsettles : Settles (s.run job before) ((s.run job before).step job env).1) :
    ∃ which attempt deadline packet,
      (s.run job before).phase = .awaitReply which attempt deadline ∧
      Takes env deadline packet ∧ packet.header.sessionId = job.config.sessionId := by
  cases hphase : (s.run job before).phase with
  | control which attempt => exact absurd hsettles (not_settles_of_control hphase)
  | awaitReply which attempt deadline =>
      obtain ⟨packet, htakes, hown | herror⟩ := takes_of_settles hphase hsettles
      · exact ⟨which, attempt, deadline, packet, rfl, htakes, hown⟩
      · exact ⟨which, attempt, deadline, packet, rfl, htakes,
          h before env after which attempt deadline packet heq hphase htakes herror⟩
  | _ => simp [hphase, SenderPhase.inExchange] at hexchange

/-- Induction on the packets: none of them moves the exchange. -/
lemma NoForeignError.foreign {envs : List SenderEnv} (h : s.NoForeignError job envs)
    {before : List SenderEnv}
    (hphase : (s.run job before).phase = .awaitReply which attempt deadline)
    (between after : List SenderEnv) (heq : envs = before ++ between ++ after)
    (hbetween : ∀ env ∈ between, ∃ packet, Takes env deadline packet ∧
      packet.header.sessionId ≠ job.config.sessionId) :
    (s.run job (before ++ between)).phase = .awaitReply which attempt deadline ∧
      (s.run job (before ++ between)).stats.remoteStatus =
        (s.run job before).stats.remoteStatus := by
  induction between using List.reverseRecOn generalizing after with
  | nil => simpa using hphase
  | append_singleton between env ih =>
      obtain ⟨hwaits, hstatus⟩ := ih (env :: after) (by simp [heq])
        fun e he => hbetween e (List.mem_append_left _ he)
      obtain ⟨packet, htakes, hforeign⟩ := hbetween env (by simp)
      have herror : packet.header.packetType ≠ .error := fun herror =>
        hforeign (h (before ++ between) env after which attempt deadline packet (by simp [heq])
          hwaits htakes herror)
      rw [← List.append_assoc, run_concat]
      obtain ⟨hstill, hsame⟩ := step_of_foreign hwaits htakes herror hforeign
      exact ⟨hstill, hsame.trans hstatus⟩

end Sender

open Sender

/-- **Session isolation in the control phases.**  Only packets of this session settle an exchange,
and any number of packets of other sessions leaves it waiting with its retry count unchanged, in
exactly the runs that take no ERROR of another session while an exchange waits. -/
theorem control_isolated_iff (Q : TimerQueue) (job : Job) (s : Sender Q) (envs : List SenderEnv) :
    s.ControlIsolated job envs ↔ s.NoForeignError job envs := by
  constructor
  · intro h before env after which attempt deadline packet heq hphase htakes herror
    have hsettles : Settles (s.run job before) ((s.run job before).step job env).1 :=
      Or.inr (Or.inr (Or.inl (step_of_error hphase htakes herror).1))
    have hexchange : (s.run job before).phase.inExchange = true := by rw [hphase]; rfl
    obtain ⟨_, _, _, packet', -, htakes', hown⟩ := h.own before env after heq hexchange hsettles
    rw [htakes.packet_unique htakes']
    exact hown
  · intro h
    exact ⟨fun before env after heq hexchange hsettles => h.own heq hexchange hsettles,
      fun before between after which attempt deadline heq hphase hbetween =>
        h.foreign hphase between after heq hbetween⟩

/-- What a server sends to session 9 when it is full. -/
def sampleRefusal : Bytes :=
  serialize { packetType := .error, sessionId := 9 } StatusCode.serverBusy.errorPayload

/-- Session 7 sends its START and receives the refusal of session 9, which it takes for its own. -/
theorem foreign_error_settles :
    ¬ ∀ (Q : TimerQueue) (job : Job) (s : Sender Q) (envs : List SenderEnv),
      s.ControlIsolated job envs := by
  intro h
  let waiting : Sender sortedTimers := (Sender.init sortedTimers sampleJob).run sampleJob [{}]
  let refused : SenderEnv := { recv := .datagram sampleRefusal }
  have hphase : waiting.phase = .awaitReply .start 0 1 := by decide +kernel
  have hinTime : (0 : TimePoint) < 1 - refused.now := by decide
  obtain ⟨packet, htakes, hheader, -⟩ := takes_of_serialize hinTime rfl rfl ⟨rfl, rfl, rfl⟩
    (StatusCode.errorPayload_length_le _)
  have hforeign : packet.header.sessionId ≠ sampleJob.config.sessionId := by
    rw [hheader]
    decide
  have hwaits := ((h sortedTimers sampleJob waiting [refused]).foreign [] [refused] [] .start 0 1
    rfl hphase fun env henv => by
      rw [List.mem_singleton.mp henv]
      exact ⟨packet, htakes, hforeign⟩).1
  have hdone : (waiting.step sampleJob refused).1.phase = .done .remoteError :=
    (step_of_error hphase htakes (by rw [hheader]; rfl)).1
  rw [run_concat, run_nil, hdone] at hwaits
  simp at hwaits

end SwiftLink
