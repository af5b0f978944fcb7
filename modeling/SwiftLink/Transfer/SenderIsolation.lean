import SwiftLink.Transfer.Sender

/-!
# Whose ACKs retire a chunk

`exchange_control` ignores a reply of another session; the main loop of `send_file` does not ask.
An ACK left over from an earlier transfer on the same port therefore retires a chunk as soon as the
number it carries is outstanding, and sequence numbers start at zero in every transfer.

`own_acks_only` says what is true all the same: in a run where every foreign ACK happens to name a
packet that is not outstanding at that moment, all of this session's chunks are retired by its own
ACKs, foreign ones touch neither base nor timers, and FIN waits for the rest.
-/

namespace SwiftLink

namespace Sender

variable {Q : TimerQueue}

/-- The step receives no ACK of another session for a packet that is outstanding. -/
def ForeignAcksStale (job : Job) (s : Sender Q) (env : SenderEnv) : Prop :=
  ∀ packet, s.AckReceived env packet → packet.header.sessionId ≠ job.config.sessionId →
    ¬ s.window.Unacked packet.header.acknowledgementNumber.toNat

/-- The step of the run that retired chunk `t` received an ACK of this session for it. -/
def AckedByOwn (job : Job) (s : Sender Q) (envs : List SenderEnv) (t : ℕ) : Prop :=
  ∃ before env after packet, envs = before ++ env :: after ∧
    ¬ (s.run job before).Retired t ∧ ((s.run job before).step job env).1.Retired t ∧
    (s.run job before).AckReceived env packet ∧
    packet.header.sessionId = job.config.sessionId ∧
    packet.header.acknowledgementNumber.toNat = t

/-- The window after a step that received an ACK in the main loop. -/
lemma step_of_ackReceived {job : Job} {s : Sender Q} {env : SenderEnv} {packet : Packet}
    (h : s.AckReceived env packet) :
    (s.step job env).1.window = ((s.window.earliestDeadline.1.onAck
      packet.header.acknowledgementNumber.toNat).1.expire env.later).1 := by
  obtain ⟨bytes, hrecv, hpacket⟩ := h.received
  obtain ⟨deadline, hdeadline⟩ := Option.ne_none_iff_exists'.mp h.waiting
  simp only [step, h.phase, stepSleep, hdeadline, h.timeoutOk, hrecv, onDatagram, hpacket,
    h.packetType, Bool.not_true, Bool.false_eq_true, if_false, if_true, reduceCtorEq]
  split_ifs <;> rfl

/-- **A stale ACK changes nothing**: the base stays, and the only timers that go are the ones that
ran out. -/
lemma step_of_stale_ack {job : Job} {s : Sender Q} {env : SenderEnv} {packet : Packet}
    (hinv : s.Inv job) (h : s.AckReceived env packet)
    (hstale : ¬ s.window.Unacked packet.header.acknowledgementNumber.toNat) :
    (s.step job env).1.window.nextSequence = s.window.nextSequence ∧
      (s.step job env).1.window.base = s.window.base ∧
      (∀ t, (s.step job env).1.window.Unacked t ↔ s.window.Unacked t) ∧
      ∀ t d, (s.step job env).1.window.Armed t d ↔ s.window.Armed t d ∧ env.later < d := by
  obtain ⟨hearliest, -⟩ := hinv.window.earliestDeadline
  have hsame : s.window.earliestDeadline.1.onAck packet.header.acknowledgementNumber.toNat
      = (s.window.earliestDeadline.1, false) :=
    SenderWindow.onAck_of_not_unacked fun hu => hstale ((hearliest.unacked _).mp hu)
  obtain ⟨-, hexpire⟩ := hearliest.inv.expire env.later
  rw [step_of_ackReceived h, hsame]
  have hunacked : ∀ t, (s.window.earliestDeadline.1.expire env.later).1.Unacked t ↔
      s.window.Unacked t := fun t => (hexpire.unacked t).trans (hearliest.unacked t)
  have hnext := hexpire.next_eq.trans hearliest.next_eq
  refine ⟨hnext, ?_, hunacked, fun t d => ?_⟩
  · exact SenderWindow.base_eq_of_unacked hexpire.inv hinv.window hnext hunacked
  · exact (hexpire.armed t d).trans (and_congr_left fun _ => hearliest.armed t d)

/-- Whatever is retired was retired by an ACK of this session. -/
lemma retired_by_own {job : Job} {envs : List SenderEnv}
    (h : ∀ before env after, envs = before ++ env :: after →
      ((init Q job).run job before).ForeignAcksStale job env) :
    ∀ t, ((init Q job).run job envs).Retired t → (init Q job).AckedByOwn job envs t := by
  intro t ht
  obtain ⟨before, env, after, packet, heq, hnot, hretired, hack, hnumber⟩ := retired_at ht
  rw [run_concat] at hretired
  refine ⟨before, env, after, packet, heq, hnot, hretired, hack, ?_, hnumber⟩
  by_contra hforeign
  obtain ⟨hnext, -, hsame, -⟩ :=
    step_of_stale_ack (run_inv job before) hack (h before env after heq packet hack hforeign)
  exact hnot ⟨hnext ▸ hretired.1, fun hu => hretired.2 ((hsame t).mpr hu)⟩

end Sender

open Sender

/-- **Only this session's ACKs count**, in every run whose foreign ACKs are stale when they arrive:
the step that retires a chunk has received an ACK of this session for it, so FIN is not sent before
its receiver has acknowledged all of them, and a foreign ACK moves neither the base nor any
timer. -/
theorem own_acks_only (Q : TimerQueue) (job : Job) (envs : List SenderEnv)
    (h : ∀ before env after, envs = before ++ env :: after →
      ((Sender.init Q job).run job before).ForeignAcksStale job env) :
    let s := (Sender.init Q job).run job envs
    (∀ t, s.Retired t → (Sender.init Q job).AckedByOwn job envs t) ∧
    ((∃ attempt, s.phase = .control .fin attempt) →
      ∀ t < job.totalChunks, (Sender.init Q job).AckedByOwn job envs t) ∧
    (∀ before env after packet, envs = before ++ env :: after →
      ((Sender.init Q job).run job before).AckReceived env packet →
      packet.header.sessionId ≠ job.config.sessionId →
      let v := (Sender.init Q job).run job before
      (v.step job env).1.window.base = v.window.base ∧
        ∀ t d, (v.step job env).1.window.Armed t d ↔ v.window.Armed t d ∧ env.later < d) := by
  intro s
  have hretired := retired_by_own h
  refine ⟨hretired, ?_, ?_⟩
  · rintro ⟨attempt, hphase⟩ t ht
    have hat := (run_inv (Q := Q) job envs).phase
    rw [hphase] at hat
    exact hretired t ⟨hat.1 ▸ ht, hat.2 t⟩
  · intro before env after packet heq hack hforeign
    obtain ⟨-, hbase, -, harmed⟩ :=
      step_of_stale_ack (run_inv job before) hack (h before env after heq packet hack hforeign)
    exact ⟨hbase, harmed⟩

/-! ### A one-byte transfer

The job sends one chunk in session 7; the run is the handshake, the chunk, and then an ACK for it
from the session given. -/

def sampleJob : Job where
  config :=
    { chunkSize := 1
      rto := 1
      maxRetries := 5
      windowSize := 1
      sessionId := 7
      remoteName := asciiBytes "f" }
  data := asciiBytes "x"
  totalChunks := 1
  digest := digestOf (asciiBytes "x") 1
  count := by decide
  digest_eq := rfl

def sampleReply (type : PacketType) (sessionId : BitVec 64) : Bytes :=
  serialize { packetType := type, sessionId := sessionId } []

def sampleEnvs (session : BitVec 64) : List SenderEnv :=
  [{}, { recv := .datagram (sampleReply .startAck 7) }, {}, {}, {},
    { recv := .datagram (sampleReply .ack session) }]

lemma sampleReply_decodes {type : PacketType} {sessionId : BitVec 64} {packet : Packet}
    (h : deserialize (sampleReply type sessionId) = .ok packet) :
    packet.header.packetType = type ∧ packet.header.sessionId = sessionId := by
  rw [sampleReply, deserialize_serialize ⟨rfl, rfl, rfl⟩ (by simp)] at h
  obtain rfl := Except.ok.inj h
  exact ⟨rfl, rfl⟩

/-- The only ACK of the run is of the session given. -/
lemma sampleEnvs_ack {session : BitVec 64} {s : Sender sortedTimers} {env : SenderEnv}
    {packet : Packet} (henv : env ∈ sampleEnvs session) (hack : s.AckReceived env packet) :
    packet.header.sessionId = session := by
  obtain ⟨bytes, hrecv, hpacket⟩ := hack.received
  have hquiet : ∀ e : SenderEnv, e.recv = .wouldBlock → env ≠ e := by
    rintro e he rfl
    rw [he] at hrecv
    simp at hrecv
  simp only [sampleEnvs, List.mem_cons, List.not_mem_nil, or_false] at henv
  rcases henv with h | rfl | h | h | h | rfl
  · exact absurd h (hquiet _ rfl)
  · obtain rfl := RecvOutcome.datagram.inj hrecv
    have htype := (sampleReply_decodes hpacket).1
    simp [hack.packetType] at htype
  · exact absurd h (hquiet _ rfl)
  · exact absurd h (hquiet _ rfl)
  · exact absurd h (hquiet _ rfl)
  · obtain rfl := RecvOutcome.datagram.inj hrecv
    exact (sampleReply_decodes hpacket).2

/-- With an ACK of its own the chunk is retired as it should be. -/
theorem own_acks_only_one_chunk :
    let s0 := Sender.init sortedTimers sampleJob
    (s0.run sampleJob (sampleEnvs 7)).Retired 0 ∧ s0.AckedByOwn sampleJob (sampleEnvs 7) 0 := by
  intro s0
  have hretired : (s0.run sampleJob (sampleEnvs 7)).Retired 0 :=
    ⟨by decide +kernel, by decide +kernel⟩
  refine ⟨hretired, (own_acks_only sortedTimers sampleJob (sampleEnvs 7) ?_).1 0 hretired⟩
  intro before env after heq packet hack hforeign
  have hmem : env ∈ sampleEnvs 7 := by rw [heq]; exact List.mem_append_right _ List.mem_cons_self
  exact absurd (sampleEnvs_ack hmem hack) hforeign

/-- An ACK left over from session 9 retires the chunk of session 7. -/
theorem foreign_ack_retires :
    ¬ ∀ (Q : TimerQueue) (job : Job) (envs : List SenderEnv) (t : ℕ),
      ((Sender.init Q job).run job envs).Retired t →
        (Sender.init Q job).AckedByOwn job envs t := by
  intro h
  obtain ⟨before, env, after, packet, heq, -, -, hack, hown, -⟩ :=
    h sortedTimers sampleJob (sampleEnvs 9) 0 ⟨by decide +kernel, by decide +kernel⟩
  have hmem : env ∈ sampleEnvs 9 := by rw [heq]; exact List.mem_append_right _ List.mem_cons_self
  have hsession := sampleEnvs_ack hmem hack
  rw [hown] at hsession
  exact absurd hsession (by decide)

end SwiftLink
