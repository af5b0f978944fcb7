import SwiftLink.Transfer.SenderIsolation

/-!
# Timers and retransmissions

`expire` disarms the packets it hands back and relies on the caller to arm each of them again, so
"every outstanding packet has a timer" is broken and restored inside every turn of the main loop.
At the head of the loop it holds, with one live entry of the heap for each packet; during the loop
over what `expire` returned it holds but for the packets still to come.

So the `break` for an empty heap is never taken while a chunk is missing, and the FIN goes out only
when all of them have been acknowledged.
-/

namespace SwiftLink

namespace SenderWindow

variable {Q : TimerQueue}

/-- The live entries of the heap for `s`. -/
def liveTimers (w : SenderWindow Q) (s : ℕ) : Multiset TimerEntry :=
  (Q.contents w.timers).filter fun e => e.sequence = s ∧ w.isLive e = true

/-- **An armed packet has exactly one live timer.** -/
lemma Core.card_liveTimers {w : SenderWindow Q} (h : w.Core) {s : ℕ} {d : TimePoint}
    (ha : w.Armed s d) : (w.liveTimers s).card = 1 := by
  obtain ⟨e, he, hs, -, hlive⟩ := ha
  rw [Multiset.card_eq_one]
  refine ⟨e, ?_⟩
  have hnodup : (w.liveTimers s).Nodup :=
    Multiset.Nodup.filter _ (Multiset.Nodup.of_map _ h.stamps_nodup)
  refine (Multiset.Nodup.ext hnodup (Multiset.nodup_singleton e)).mpr fun f => ?_
  rw [liveTimers, Multiset.mem_filter, Multiset.mem_singleton]
  constructor
  · rintro ⟨hf, hfs, hflive⟩
    exact h.entry_unique hf he hflive hlive (hfs.trans hs.symm)
  · rintro rfl
    exact ⟨he, hs, hlive⟩

end SenderWindow

namespace Sender

variable {Q : TimerQueue} {job : Job} {s u : Sender Q} {env : SenderEnv}

/-! ## What is handed to `send_packet` -/

/-- The bytes a step hands to `send_packet`, whatever becomes of them there. -/
def handsOver (job : Job) (s : Sender Q) (env : SenderEnv) : Option Bytes :=
  match s.phase with
  | .control which attempt =>
      if attempt ≤ job.config.maxRetries then some (job.controlWire which) else none
  | .fill =>
      if s.window.canSend ∧ s.window.nextSequence < job.totalChunks then
        let sequence := s.window.nextSequence
        match readAt env.read job.data (job.chunkWant sequence) (job.chunkOffset sequence) with
        | none => none
        | some chunk =>
            if chunk.length ≠ job.chunkWant sequence then none
            else some (serialize (job.dataHeader sequence) chunk)
      else none
  | .resend (sequence :: _) =>
      let slot := s.inFlight (sequence % s.window.capacity)
      if job.config.maxRetries ≤ slot.attempts then none else some slot.wire
  | _ => none

/-- **What goes on the wire is what was handed over**, unless it is dropped or the send fails. -/
lemma step_datagram (job : Job) (s : Sender Q) (env : SenderEnv) :
    (s.step job env).2 = if env.drop ∨ !env.sendOk then none else s.handsOver job env := by
  cases hphase : s.phase with
  | control which attempt =>
      simp only [step, handsOver, hphase, stepControl, sendPacket]
      split_ifs <;> simp_all
  | awaitReply which attempt deadline => simp [step, handsOver, hphase]
  | loop => simp [step, handsOver, hphase]
  | fill =>
      simp only [step, handsOver, hphase, stepFill, sendPacket]
      cases readAt env.read job.data (job.chunkWant s.window.nextSequence)
        (job.chunkOffset s.window.nextSequence) with
      | none => split_ifs <;> rfl
      | some chunk =>
          simp only
          split_ifs <;> simp_all
  | sleep => simp [step, handsOver, hphase]
  | resend expired =>
      cases expired with
      | nil => simp [step, handsOver, hphase]
      | cons sequence rest =>
          simp only [step, handsOver, hphase, stepResend, sendPacket]
          split_ifs <;> simp_all
  | done error => simp [step, handsOver, hphase]

/-- The step hands the datagram of chunk `t` to `send_packet` again. -/
def Retransmits (job : Job) (s : Sender Q) (env : SenderEnv) (t : ℕ) : Prop :=
  (∃ rest, s.phase = .resend (t :: rest)) ∧ s.handsOver job env = some (job.dataWire t)

/-! ## The loop over the expired packets -/

/-- A turn of the loop returns from `send_file`, or resends its packet and arms it again. -/
lemma step_resend (h : s.Inv job) {t : ℕ} {rest : List ℕ} (hphase : s.phase = .resend (t :: rest))
    (env : SenderEnv) :
    (∃ error, (s.step job env).1.phase = .done error) ∨
      (s.step job env).1.phase = .resend rest ∧ s.Retransmits job env t ∧
        (s.step job env).1.window = s.window.reschedule t (env.now + job.config.rto) := by
  have hat := h.phase
  rw [hphase] at hat
  have hwire := h.wires t (hat.2 t List.mem_cons_self)
  rw [step, hphase]
  simp only [stepResend]
  split_ifs with hbudget hok
  · exact Or.inl ⟨_, rfl⟩
  · refine Or.inr ⟨rfl, ⟨⟨rest, hphase⟩, ?_⟩, rfl⟩
    simp only [handsOver, hphase, if_neg hbudget, hwire]
  · exact Or.inl ⟨_, rfl⟩

/-- From a state in the loop over what `expire` returned, the steps lead to the head of the main
loop without returning. -/
inductive Resends (job : Job) : Sender Q → List SenderEnv → Prop
  | last {u : Sender Q} (env : SenderEnv) (hphase : u.phase = .resend []) : Resends job u [env]
  | next {u : Sender Q} {t : ℕ} {rest : List ℕ} (env : SenderEnv) {envs : List SenderEnv}
      (hphase : u.phase = .resend (t :: rest)) (h : Resends job (u.step job env).1 envs) :
      Resends job u (env :: envs)

/-- A loop that is left again has not returned. -/
lemma Resends.phase_eq {envs : List SenderEnv} (h : Resends job u envs) :
    ∃ expired, u.phase = .resend expired := by
  cases h with
  | last env hphase => exact ⟨_, hphase⟩
  | next env hphase => exact ⟨_, hphase⟩

/-- **Every expired packet is resent and armed again**, and no other timer is touched. -/
lemma Resends.rearms {envs : List SenderEnv} (h : Resends job u envs) (hinv : u.Inv job)
    {expired : List ℕ} (hexpired : u.phase = .resend expired) :
    (u.run job envs).phase = .loop ∧
      (∀ t ∈ expired, ∃ before env after, envs = before ++ env :: after ∧
        (u.run job before).Retransmits job env t ∧
        (u.run job envs).window.Armed t (env.now + job.config.rto)) ∧
      ∀ t d, t ∉ expired → u.window.Armed t d → (u.run job envs).window.Armed t d := by
  induction h generalizing expired with
  | @last u env hphase =>
      obtain rfl : [] = expired := SenderPhase.resend.inj (hphase.symm.trans hexpired)
      have hstep : u.run job [env] = { u with phase := .loop } := by
        simp [run, step, hphase]
      rw [hstep]
      exact ⟨rfl, by simp, fun t d _ ha => ha⟩
  | @next u x rest env envs hphase hloop ih =>
      obtain rfl : x :: rest = expired := SenderPhase.resend.inj (hphase.symm.trans hexpired)
      have hself : u.window.Unacked x := by
        have hat := hinv.phase
        rw [hphase] at hat
        exact hat.2 x List.mem_cons_self
      rcases step_resend hinv hphase env with ⟨error, hdone⟩ | ⟨hnext, hresent, hwindow⟩
      · obtain ⟨expired, hresend⟩ := hloop.phase_eq
        simp [hdone] at hresend
      · obtain ⟨hend, hlater, hkept⟩ := ih (step_steps hinv).inv hnext
        have harmed := (hinv.window.reschedule x (env.now + job.config.rto)).armed
        refine ⟨hend, fun t ht => ?_, fun t d ht ha => ?_⟩
        · by_cases hrest : t ∈ rest
          · obtain ⟨before, e, after, heq, hretransmits, hagain⟩ := hlater t hrest
            exact ⟨env :: before, e, after, by simp [heq], hretransmits, hagain⟩
          · obtain rfl : t = x := by simpa [hrest] using ht
            refine ⟨[], env, envs, rfl, hresent, hkept t _ hrest ?_⟩
            rw [hwindow]
            exact (harmed _ _).mpr (Or.inr ⟨hself, rfl, rfl⟩)
        · rw [List.mem_cons, not_or] at ht
          refine hkept t d ht.2 ?_
          rw [hwindow]
          exact (harmed t d).mpr (Or.inl ⟨ha, fun _ => ht.1⟩)

/-- The receive and `expire` arm nothing: the timers left are timers that were there and are not
due yet. -/
lemma stepSleep_armed (h : s.Inv job) {expired : List ℕ}
    (hphase : (s.stepSleep job env).phase = .resend expired) {t : ℕ} {d : TimePoint}
    (ha : (s.stepSleep job env).window.Armed t d) : s.window.Armed t d ∧ env.later < d := by
  obtain ⟨hearliest, -, -⟩ := h.window.earliestDeadline
  -- whatever the datagram was, the window it leaves has no timer that was not there
  have hexpire : ∀ w : SenderWindow Q, w.Inv → (∀ t d, w.Armed t d → s.window.Armed t d) →
      (w.expire env.later).1.Armed t d → s.window.Armed t d ∧ env.later < d := by
    intro w hw hsub harmed
    obtain ⟨hwas, hlate⟩ := ((hw.expire env.later).2.armed t d).mp harmed
    exact ⟨hsub t d hwas, hlate⟩
  simp only [stepSleep] at hphase ha
  split at hphase
  · simp [finishData] at hphase
  · next deadline hdeadline =>
    simp only [hdeadline] at ha
    split_ifs at hphase ha with htimeout hfailed
    · simp [finish] at hphase
    · simp [finish] at hphase
    · split at ha
      · next bytes hrecv =>
        set v : Sender Q := { s with window := s.window.earliestDeadline.1 } with hv
        obtain ⟨-, -, U, hack, -⟩ := onDatagram_effect (t := v) hearliest.inv bytes
        refine hexpire _ hack.inv (fun t d harmed => ?_) ha
        exact (hearliest.armed t d).mp ((hack.armed t d).mp harmed).1
      · exact hexpire _ hearliest.inv (fun t d harmed => (hearliest.armed t d).mp harmed) ha

/-- **What was due and is still outstanding is handed to the loop.** -/
lemma due_mem_expired (h : s.Inv job) (hsleep : s.phase = .sleep) {expired : List ℕ}
    (hphase : (s.step job env).1.phase = .resend expired) {t : ℕ} {d : TimePoint}
    (ha : s.window.Armed t d) (hdue : d ≤ env.later) (hu : (s.step job env).1.window.Unacked t) :
    t ∈ expired := by
  have hinv : (s.step job env).1.Inv job := (step_steps h).inv
  have hat := hinv.phase
  rw [hphase] at hat
  obtain ⟨d', harmed⟩ | hmem := hat.1 t hu
  · have hstep : (s.step job env).1 = s.stepSleep job env := by rw [step, hsleep]
    rw [hstep] at hphase harmed
    obtain ⟨hwas, hlate⟩ := stepSleep_armed h hphase harmed
    rw [h.window.toCore.armed_unique ha hwas] at hdue
    exact absurd hlate (not_lt.mpr hdue)
  · exact hmem

/-! ## The end of the main loop -/

/-- An ACK for chunk `t` was received during the run. -/
def AckedIn (job : Job) (s : Sender Q) (envs : List SenderEnv) (t : ℕ) : Prop :=
  ∃ before env after packet, envs = before ++ env :: after ∧
    (s.run job before).AckReceived env packet ∧
    packet.header.acknowledgementNumber.toNat = t

/-- Nothing is missing when the heap is empty. -/
lemma Inv.base_eq_of_no_deadline (h : s.Inv job) (hphase : s.phase = .sleep)
    (hnone : s.window.earliestDeadline.2 = none) : s.window.base = job.totalChunks := by
  have hcomplete := h.complete_of_no_timer hphase (h.window.earliestDeadline.2.1.mp hnone)
  rcases h.window.base_spec with ⟨-, hu⟩ | ⟨heq, -⟩
  · exact absurd hu (hcomplete.2 _)
  · exact heq.trans hcomplete.1

end Sender

open Sender

/-- **No retransmission timer is ever lost.**  At the head of the main loop every outstanding chunk
has exactly one live timer; a turn of the loop that does not return has resent every outstanding
chunk that was due and armed it again, whatever was received; so the heap is never found empty
while a chunk is missing, and FIN waits for an ACK of every chunk. -/
theorem no_timer_lost (Q : TimerQueue) (job : Job) (envs : List SenderEnv) :
    let s := (Sender.init Q job).run job envs
    (s.phase = .loop → ∀ t, s.window.Unacked t → (s.window.liveTimers t).card = 1) ∧
    (s.phase = .sleep → ∀ env rest, Resends job (s.step job env).1 rest →
      ∀ t d, s.window.Armed t d → d ≤ env.later → (s.step job env).1.window.Unacked t →
        ∃ before e after, rest = before ++ e :: after ∧
          ((s.step job env).1.run job before).Retransmits job e t ∧
          ((s.step job env).1.run job rest).window.Armed t (e.now + job.config.rto)) ∧
    (s.phase = .sleep → s.window.base < job.totalChunks →
      s.window.earliestDeadline.2 ≠ none) ∧
    ((∃ attempt, s.phase = .control .fin attempt) →
      ∀ t < job.totalChunks, (Sender.init Q job).AckedIn job envs t) := by
  intro s
  have hinv : s.Inv job := run_inv job envs
  refine ⟨fun hphase t ht => ?_, fun hphase env rest hrest t d ha hdue hu => ?_,
    fun hphase hbase hnone => ?_, ?_⟩
  · have hat := hinv.phase
    rw [hphase] at hat
    obtain ⟨d, hd⟩ | hmem := hat t ht
    · exact hinv.window.toCore.card_liveTimers hd
    · exact absurd hmem List.not_mem_nil
  · obtain ⟨expired, hexpired⟩ := hrest.phase_eq
    have hmem := due_mem_expired hinv hphase hexpired ha hdue hu
    exact (hrest.rearms (step_steps hinv).inv hexpired).2.1 t hmem
  · have heq := hinv.base_eq_of_no_deadline hphase hnone
    omega
  · rintro ⟨attempt, hphase⟩ t ht
    have hat := hinv.phase
    rw [hphase] at hat
    have hretired : s.Retired t := ⟨hat.1 ▸ ht, hat.2 t⟩
    obtain ⟨before, env, after, packet, heq, -, -, hack, hnumber⟩ := retired_at hretired
    exact ⟨before, env, after, packet, heq, hack, hnumber⟩

/-- The sample transfer up to the point where its chunk is on the wire, due at time 1. -/
def sampleWaiting : Sender sortedTimers :=
  (Sender.init sortedTimers sampleJob).run sampleJob ((sampleEnvs 7).take 5)

/-- At time 1 a stray START_ACK arrives instead of the ACK: the chunk is resent and armed again. -/
theorem no_timer_lost_one_chunk :
    let stray : SenderEnv := { later := 1, recv := .datagram (sampleReply .startAck 7) }
    let s := (sampleWaiting.step sampleJob stray).1
    ∃ before e after, [{ now := 5 }, {}] = before ++ e :: after ∧
      (s.run sampleJob before).Retransmits sampleJob e 0 ∧
      (s.run sampleJob [{ now := 5 }, {}]).window.Armed 0 (e.now + 1) := by
  intro stray s
  have hphase : s.phase = .resend [0] := by decide +kernel
  have hresends : Resends sampleJob s [{ now := 5 }, {}] :=
    .next _ hphase (.last _ (by decide +kernel))
  have harmed : sampleWaiting.window.Armed 0 1 :=
    ⟨⟨1, 0, 1⟩, by decide +kernel, rfl, rfl, by decide +kernel⟩
  exact (no_timer_lost sortedTimers sampleJob ((sampleEnvs 7).take 5)).2.1 (by decide +kernel)
    stray _ hresends 0 1 harmed (by decide) (by decide +kernel)

end SwiftLink
