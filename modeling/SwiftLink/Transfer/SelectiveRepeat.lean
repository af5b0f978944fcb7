import SwiftLink.Transfer.Sendings

/-!
# Selective repeat

The bytes to resend are kept in a ring beside the window's own, indexed by the sequence number
modulo the capacity, and the list of what to resend comes out of a heap with stale entries.  That a
retransmission is the right datagram at the right time rests on both: the cell belongs to the oldest
unacknowledged packet with that remainder, and the timer found due is the one set after that
packet's last transmission.

The clock enters once.  A packet is armed again relative to the reading after its send, so that no
earlier transmission of it is younger than its timer; that needs readings that never go back.
-/

namespace SwiftLink

namespace Sender

variable {Q : TimerQueue} {job : Job} {stats : TransferStats}

/-! ## The clock -/

/-- The clock readings of a run, in order. -/
def readings (envs : List SenderEnv) : List TimePoint :=
  envs.flatMap fun env => [env.now, env.later]

/-- The clock never goes back. -/
def Forward (envs : List SenderEnv) : Prop := (readings envs).Pairwise (· ≤ ·)

instance (envs : List SenderEnv) : Decidable (Forward envs) :=
  inferInstanceAs (Decidable (List.Pairwise _ _))

lemma readings_append (envs envs' : List SenderEnv) :
    readings (envs ++ envs') = readings envs ++ readings envs' := by
  simp [readings]

lemma Forward.of_append {envs envs' : List SenderEnv} (h : Forward (envs ++ envs')) :
    Forward envs := by
  rw [Forward, readings_append] at h
  exact (List.pairwise_append.mp h).1

/-- A reading taken before a step is no later than the step's own. -/
lemma Forward.le_now {envs after : List SenderEnv} {env : SenderEnv}
    (h : Forward (envs ++ env :: after)) {r : TimePoint} (hr : r ∈ readings envs) :
    r ≤ env.now := by
  rw [Forward, readings_append] at h
  exact (List.pairwise_append.mp h).2.2 r hr env.now (by simp [readings])

lemma time_mem_readings {envs : List SenderEnv} {x : Sending}
    (hx : x ∈ (start Q job stats).sendings job envs) : x.time ∈ readings envs := by
  induction envs using List.reverseRecOn with
  | nil => simp at hx
  | append_singleton envs env ih =>
      rw [readings_append, List.mem_append]
      rcases mem_sendings_concat.mp hx with hold | hnew
      · exact Or.inl (ih hold)
      · right
        rw [((step_turn (start_run_inv Q job stats envs) env).wire hnew).2]
        simp [readings]

/-! ## The invariant -/

/-- **What the timers know about the log.** -/
structure Paced (job : Job) (log : List Sending) (clock : List TimePoint) (s : Sender Q) :
    Prop where
  /-- A timer is set a full timeout after every transmission of its packet. -/
  armed : ∀ t d, s.window.Armed t d → ∀ x ∈ log, x.packet = .data t → x.time + job.config.rto ≤ d
  /-- By a reading already taken, the timeout of every packet still to be resent has passed. -/
  pending : ∀ expired, s.phase = .resend expired → expired.Nodup ∧ ∀ t ∈ expired, ∀ x ∈ log,
    x.packet = .data t → ∃ r ∈ clock, x.time + job.config.rto ≤ r
  sent : ∀ t < s.window.nextSequence, ∃ x ∈ log, x.packet = .data t
  next : ∀ x ∈ log, ∀ t, x.packet = .data t → t < s.window.nextSequence

section Paced

variable {s s' : Sender Q} {env : SenderEnv} {sent : Option Sending} {log : List Sending}
  {clock : List TimePoint}

/-- A step that sends no chunk and sets no timer. -/
lemma Paced.keep (h : Paced job log clock s)
    (hnext : s'.window.nextSequence = s.window.nextSequence)
    (harmed : ∀ t d, s'.window.Armed t d → s.window.Armed t d)
    (hphase : ∀ expired, s'.phase ≠ .resend expired) {new : List Sending}
    (hnew : ∀ x ∈ new, ∀ t, x.packet ≠ .data t) (taken : List TimePoint) :
    Paced job (log ++ new) (clock ++ taken) s' := by
  have hold : ∀ x ∈ log ++ new, ∀ t, x.packet = .data t → x ∈ log := by
    intro x hx t ht
    rcases List.mem_append.mp hx with hx | hx
    · exact hx
    · exact absurd ht (hnew x hx t)
  refine ⟨fun t d ha x hx ht => ?_, fun expired he => absurd he (hphase expired), ?_, ?_⟩
  · exact h.armed t d (harmed t d ha) x (hold x hx t ht) ht
  · intro t ht
    obtain ⟨x, hx, hpacket⟩ := h.sent t (hnext ▸ ht)
    exact ⟨x, List.mem_append_left _ hx, hpacket⟩
  · intro x hx t ht
    rw [hnext]
    exact h.next x (hold x hx t ht) t ht

/-- The first transmission of a chunk. -/
lemma Paced.first (h : Paced job log clock s) (hinv : s.Inv job) (hphase : s'.phase = .fill)
    {wire : Bytes} {now : TimePoint}
    (heffect : s.window.Effect s'.window (s.window.nextSequence + 1)
      (fun t => s.window.Unacked t ∨ t = s.window.nextSequence)
      (fun t d => s.window.Armed t d ∨ t = s.window.nextSequence ∧ d = now + job.config.rto))
    (taken : List TimePoint) :
    Paced job (log ++ [⟨.data s.window.nextSequence, wire, now⟩]) (clock ++ taken) s' := by
  refine ⟨fun t d ha x hx ht => ?_, fun expired he => ?_, fun t ht => ?_, fun x hx t ht => ?_⟩
  · rcases (heffect.armed t d).mp ha with ha | ⟨rfl, rfl⟩
    · rcases List.mem_append.mp hx with hx | hx
      · exact h.armed t d ha x hx ht
      · -- a timer is never about a packet not sent yet
        have hlt := (hinv.window.toCore.armed_unacked ha).2.1
        obtain rfl := List.mem_singleton.mp hx
        simp only [OwnPacket.data.injEq] at ht
        omega
    · rcases List.mem_append.mp hx with hx | hx
      · exact absurd (h.next x hx _ ht) (lt_irrefl _)
      · obtain rfl := List.mem_singleton.mp hx
        exact le_refl _
  · rw [hphase] at he
    cases he
  · rw [heffect.next_eq, Nat.lt_succ_iff_lt_or_eq] at ht
    rcases ht with hlt | rfl
    · obtain ⟨x, hx, hpacket⟩ := h.sent t hlt
      exact ⟨x, List.mem_append_left _ hx, hpacket⟩
    · exact ⟨_, List.mem_append_right _ (List.mem_singleton_self _), rfl⟩
  · rw [heffect.next_eq, Nat.lt_succ_iff_lt_or_eq]
    rcases List.mem_append.mp hx with hx | hx
    · exact Or.inl (h.next x hx t ht)
    · obtain rfl := List.mem_singleton.mp hx
      simp only [OwnPacket.data.injEq] at ht
      exact Or.inr ht.symm

/-- What `expire` hands to the loop has run out. -/
lemma Paced.expire (h : Paced job log clock s) {expired : List ℕ} {now : TimePoint}
    (hphase : s'.phase = .resend expired) (hwindow : Expiry s.window s'.window now expired)
    {taken : List TimePoint} (htaken : now ∈ taken) : Paced job log (clock ++ taken) s' := by
  refine ⟨fun t d ha => ?_, fun pending he => ?_, fun t ht => ?_, fun x hx t ht => ?_⟩
  · exact h.armed t d (hwindow.armed t d ha).1
  · obtain rfl : expired = pending := SenderPhase.resend.inj (hphase.symm.trans he)
    refine ⟨hwindow.nodup, fun t ht x hx hpacket => ?_⟩
    obtain ⟨d, ha, hdue⟩ := hwindow.due t ht
    have htime := h.armed t d ha x hx hpacket
    exact ⟨now, List.mem_append_right _ htaken, htime.trans hdue⟩
  · exact h.sent t (hwindow.next_eq ▸ ht)
  · rw [hwindow.next_eq]
    exact h.next x hx t ht

/-- Another transmission of a chunk. -/
lemma Paced.again (h : Paced job log clock s) {t : ℕ} {rest : List ℕ}
    (hphase : s.phase = .resend (t :: rest)) (hself : s.window.Unacked t)
    (hphase' : s'.phase = .resend rest) {wire : Bytes} {now : TimePoint}
    (hclock : ∀ x ∈ log, x.time ≤ now)
    (heffect : s.window.Effect s'.window s.window.nextSequence s.window.Unacked
      (fun u d => s.window.Armed u d ∧ (s.window.Unacked t → u ≠ t) ∨
        s.window.Unacked t ∧ u = t ∧ d = now + job.config.rto)) (taken : List TimePoint) :
    Paced job (log ++ [⟨.data t, wire, now⟩]) (clock ++ taken) s' := by
  obtain ⟨hnodup, hdue⟩ := h.pending _ hphase
  rw [List.nodup_cons] at hnodup
  -- the new entry of the log is about `t` only
  have hother : ∀ u, u ≠ t → ∀ x ∈ log ++ [(⟨.data t, wire, now⟩ : Sending)],
      x.packet = .data u → x ∈ log := by
    intro u hu x hx hpacket
    rcases List.mem_append.mp hx with hx | hx
    · exact hx
    · obtain rfl := List.mem_singleton.mp hx
      exact absurd (OwnPacket.data.inj hpacket).symm hu
  refine ⟨fun u d ha x hx hpacket => ?_, fun pending he => ?_, fun u hu => ?_,
    fun x hx u hpacket => ?_⟩
  · rcases (heffect.armed u d).mp ha with ⟨ha, hne⟩ | ⟨-, rfl, rfl⟩
    · exact h.armed u d ha x (hother u (hne hself) x hx hpacket) hpacket
    · rcases List.mem_append.mp hx with hx | hx
      · have htime := hclock x hx
        exact (add_le_add_iff_right job.config.rto).mpr htime
      · obtain rfl := List.mem_singleton.mp hx
        exact le_refl _
  · obtain rfl : rest = pending := SenderPhase.resend.inj (hphase'.symm.trans he)
    refine ⟨hnodup.2, fun u hu x hx hpacket => ?_⟩
    have hne : u ≠ t := fun heq => hnodup.1 (heq ▸ hu)
    obtain ⟨r, hr, htime⟩ :=
      hdue u (List.mem_cons_of_mem _ hu) x (hother u hne x hx hpacket) hpacket
    exact ⟨r, List.mem_append_left _ hr, htime⟩
  · obtain ⟨x, hx, hpacket⟩ := h.sent u (heffect.next_eq ▸ hu)
    exact ⟨x, List.mem_append_left _ hx, hpacket⟩
  · rw [heffect.next_eq]
    rcases List.mem_append.mp hx with hx | hx
    · exact h.next x hx u hpacket
    · obtain rfl := List.mem_singleton.mp hx
      obtain rfl := OwnPacket.data.inj hpacket
      exact hself.2.1

/-- **A step keeps the timers in step with the log**, unless it returns from `send_file`. -/
lemma Turn.paced (h : Turn job s env s' sent) (hinv : s.Inv job) (hinv' : s'.Inv job)
    (hpaced : Paced job log clock s) (hclock : ∀ x ∈ log, x.time ≤ env.now)
    (halive : ∀ error, s'.phase ≠ .done error) :
    Paced job (log ++ sent.toList) (clock ++ [env.now, env.later]) s' := by
  cases h with
  | control which attempt hphase hbudget hphase' hwindow =>
      refine hpaced.keep (by rw [hwindow]) (fun t d => by rw [hwindow]; exact id) ?_ ?_ _
      · intro expired
        rcases hphase' with hphase' | hphase' <;> rw [hphase'] <;> simp
      · simp
  | giveUp => exact absurd rfl (halive _)
  | timeout which attempt deadline hphase =>
      refine hpaced.keep ?_ (fun _ _ => ?_) (fun expired => ?_) ?_ _
      · rfl
      · exact id
      · simp
      · simp
  | reply which attempt deadline hphase hphase' hwindow =>
      refine hpaced.keep (by rw [hwindow]) (fun t d => by rw [hwindow]; exact id) ?_ (by simp) _
      intro expired
      rcases hphase' with hphase' | hphase'
      · rw [hphase', hphase]
        simp
      · rw [hphase']
        cases which <;> simp [acknowledged, finish]
  | @jump phase hjump =>
      refine hpaced.keep ?_ (fun _ _ => ?_) hjump.ne_resend ?_ _
      · rfl
      · exact id
      · simp
  | first hphase hsend htotal hnext =>
      rcases hnext with ⟨hphase', hwindow⟩ | ⟨hdone, -⟩
      · have hlt := totalChunks_lt job
        have heffect := hinv.window.onSent hsend (by omega) (env.now + job.config.rto)
        rw [← hwindow] at heffect
        exact hpaced.first hinv hphase' heffect _
      · exact absurd hdone (halive _)
  | expire expired hphase hphase' hwindow =>
      have hlater : env.later ∈ [env.now, env.later] := by simp
      simpa using hpaced.expire hphase' hwindow hlater
  | again t rest hphase hbudget hnext =>
      rcases hnext with ⟨hphase', hwindow⟩ | ⟨hdone, -⟩
      · have hat := hinv.phase
        rw [hphase] at hat
        have heffect := hinv.window.reschedule t (env.now + job.config.rto)
        rw [← hwindow] at heffect
        exact hpaced.again hphase (hat.2 t List.mem_cons_self) hphase' hclock heffect _
      · exact absurd hdone (halive _)
  | exhausted => exact absurd rfl (halive _)
  | allAcked hphase hphase' hnext =>
      -- everything is acknowledged, so no timer is left
      have hcomplete : s'.Complete job := by
        have hat := hinv'.phase
        rwa [hphase'] at hat
      refine hpaced.keep hnext (fun t d ha => ?_) (by simp [hphase']) (by simp) _
      exact absurd (hinv'.window.toCore.armed_unacked ha) (hcomplete.2 t)
  | fails error hphase' => exact absurd hphase' (halive _)

end Paced

lemma step_of_done {s : Sender Q} {error : TransferError} (h : s.phase = .done error)
    (env : SenderEnv) : (s.step job env).1 = s := by
  simp [step, h]

lemma start_paced (Q : TimerQueue) (job : Job) (stats : TransferStats) :
    Paced job [] [] (start Q job stats) where
  armed t d ha := absurd ha (SenderWindow.not_armed_init Q _ t d)
  pending expired he := by simp [start, init] at he
  sent t ht := by simp [start, init, SenderWindow.init] at ht
  next x hx := by simp at hx

/-- **The timers keep step with the log throughout a run.** -/
lemma run_paced {envs : List SenderEnv} (hclock : Forward envs)
    (halive : ∀ error, ((start Q job stats).run job envs).phase ≠ .done error) :
    Paced job ((start Q job stats).sendings job envs) (readings envs)
      ((start Q job stats).run job envs) := by
  induction envs using List.reverseRecOn with
  | nil => exact start_paced Q job stats
  | append_singleton envs env ih =>
      have hinv := start_run_inv Q job stats envs
      have hwas : ∀ error, ((start Q job stats).run job envs).phase ≠ .done error := by
        intro error hdone
        refine halive error ?_
        rw [run_concat, step_of_done hdone]
        exact hdone
      rw [run_concat] at halive
      rw [run_concat, sendings_concat, readings_append]
      refine (step_turn hinv env).paced hinv (step_steps hinv).inv (ih hclock.of_append hwas) ?_
        halive
      intro x hx
      exact hclock.le_now (time_mem_readings hx)

/-! ## Acknowledged for good -/

lemma Retired.step {s : Sender Q} (hinv : s.Inv job) {t : ℕ} (h : s.Retired t) (env : SenderEnv) :
    (s.step job env).1.Retired t := by
  have hturn := step_turn hinv env
  refine ⟨?_, fun ht => ?_⟩
  · have hlt := h.1
    rcases hturn.nextSequence hinv with hnext | ⟨-, hnext, -⟩
    · rwa [hnext]
    · rw [hnext]
      omega
  · rcases hturn.unacked hinv ht with hwas | heq
    · exact h.2 hwas
    · exact absurd h.1 (by omega)

/-- An ACK for a packet that has been sent retires it. -/
lemma retired_of_ack {s : Sender Q} (hinv : s.Inv job) {env : SenderEnv} {packet : Packet}
    (hack : s.AckReceived env packet)
    (hsent : packet.header.acknowledgementNumber.toNat < s.window.nextSequence) :
    (s.step job env).1.Retired packet.header.acknowledgementNumber.toNat := by
  obtain ⟨hearliest, -⟩ := hinv.window.earliestDeadline
  obtain ⟨honAck, -⟩ := hearliest.inv.onAck packet.header.acknowledgementNumber.toNat
  obtain ⟨-, hexpire⟩ := honAck.inv.expire env.later
  rw [Retired, step_of_ackReceived hack]
  refine ⟨?_, fun ht => ?_⟩
  · rw [hexpire.next_eq, honAck.next_eq, hearliest.next_eq]
    exact hsent
  · exact ((honAck.unacked _).mp ((hexpire.unacked _).mp ht)).2 rfl

/-- **Once acknowledged, never outstanding again.** -/
lemma not_unacked_of_ack {before after : List SenderEnv} {env : SenderEnv} {packet : Packet}
    (hack : ((start Q job stats).run job before).AckReceived env packet)
    (hsent : packet.header.acknowledgementNumber.toNat <
      ((start Q job stats).run job before).window.nextSequence) :
    ¬ ((start Q job stats).run job (before ++ env :: after)).window.Unacked
      packet.header.acknowledgementNumber.toNat := by
  suffices hretired : ((start Q job stats).run job (before ++ env :: after)).Retired
      packet.header.acknowledgementNumber.toNat from hretired.2
  induction after using List.reverseRecOn with
  | nil =>
      rw [run_concat]
      exact retired_of_ack (start_run_inv Q job stats before) hack hsent
  | append_singleton after last ih =>
      rw [show before ++ env :: (after ++ [last]) = (before ++ env :: after) ++ [last] by simp,
        run_concat]
      exact ih.step (start_run_inv Q job stats _) last

/-! ## The ring of datagrams -/

/-- **The cell of an unacknowledged packet is its own**: only its own retransmission touches it, and
that leaves the bytes. -/
lemma Turn.slot {s s' : Sender Q} {env : SenderEnv} {sent : Option Sending}
    (h : Turn job s env s' sent) (hinv : s.Inv job) {t : ℕ} (ht : s.window.Unacked t) :
    s'.inFlight (t % s.window.capacity) = s.inFlight (t % s.window.capacity) ∨
      (∃ rest, s.phase = .resend (t :: rest)) ∧
        s'.inFlight (t % s.window.capacity) = { s.inFlight (t % s.window.capacity) with
          attempts := (s.inFlight (t % s.window.capacity)).attempts + 1 } := by
  cases h with
  | control which attempt hphase hbudget hphase' hwindow hinFlight =>
      exact Or.inl (by rw [hinFlight])
  | giveUp => exact Or.inl rfl
  | timeout => exact Or.inl rfl
  | reply which attempt deadline hphase hphase' hwindow hinFlight =>
      exact Or.inl (by rw [hinFlight])
  | jump => exact Or.inl rfl
  | first hphase hsend htotal hnext hinFlight =>
      rw [hinFlight, Function.update_of_ne (hinv.slot_free hsend ht)]
      exact Or.inl rfl
  | expire expired hphase hphase' hwindow hinFlight => exact Or.inl (by rw [hinFlight])
  | again u rest hphase hbudget hnext hinFlight =>
      have hat := hinv.phase
      rw [hphase] at hat
      have hu := hat.2 u List.mem_cons_self
      by_cases hut : u = t
      · subst hut
        refine Or.inr ⟨⟨rest, hphase⟩, ?_⟩
        rw [hinFlight, Function.update_self, ← hinv.wires u ht]
      · rw [hinFlight, Function.update_of_ne (hinv.slot_ne ht hu (Ne.symm hut))]
        exact Or.inl rfl
  | exhausted => exact Or.inl rfl
  | allAcked hphase hphase' hnext hkept hinFlight => exact Or.inl (by rw [hinFlight])
  | fails error hphase' hnone hpeer hnext hkept hinFlight => exact Or.inl (by rw [hinFlight])

end Sender

open Sender

/-- **Retransmissions are selective and faithful.**  In every run with a clock that never goes back,
whatever the loop over the expired packets sends for chunk `t` is byte for byte what was sent for it
before; the chunk is outstanding, no ACK that named it came in since it was first sent, and by a
reading taken before this send the timeout has passed since every earlier one.  The cell that keeps
the bytes is not overwritten while the chunk is outstanding. -/
theorem retransmissions_faithful (Q : TimerQueue) (job : Job) (stats : TransferStats)
    (envs : List SenderEnv) (hclock : Forward envs) (before after : List SenderEnv)
    (env : SenderEnv) (hrun : envs = before ++ env :: after) :
    let s₀ := Sender.start Q job stats
    let s := s₀.run job before
    (∀ t rest wire, s.phase = .resend (t :: rest) → s.handsOver job env = some wire →
      (∃ x ∈ s₀.sendings job before, x.packet = .data t) ∧
      (∀ x ∈ s₀.sendings job before, x.packet = .data t → x.wire = wire ∧
        ∃ r ∈ readings before, x.time + job.config.rto ≤ r ∧ r ≤ env.now) ∧
      s.window.Unacked t ∧
      (∀ b e a packet, before = b ++ e :: a → (s₀.run job b).AckReceived e packet →
        packet.header.acknowledgementNumber.toNat = t → (s₀.run job b).window.nextSequence ≤ t)) ∧
    (∀ t, s.window.Unacked t →
      (s.step job env).1.inFlight (t % s.window.capacity) = s.inFlight (t % s.window.capacity) ∨
      (∃ rest, s.phase = .resend (t :: rest)) ∧
        (s.step job env).1.inFlight (t % s.window.capacity) =
          { s.inFlight (t % s.window.capacity) with
            attempts := (s.inFlight (t % s.window.capacity)).attempts + 1 }) := by
  intro s₀ s
  subst hrun
  have hinv : s.Inv job := start_run_inv Q job stats before
  refine ⟨fun t rest wire hphase hwire => ?_, fun t ht => (step_turn hinv env).slot hinv ht⟩
  have hpaced : Paced job (s₀.sendings job before) (readings before) s :=
    run_paced hclock.of_append (fun error hdone => by
      change s.phase = .done error at hdone
      rw [hphase] at hdone
      cases hdone)
  have hself : s.window.Unacked t := by
    have hat := hinv.phase
    rw [hphase] at hat
    exact hat.2 t List.mem_cons_self
  -- the bytes of the cell are the chunk's datagram
  have hdata : wire = job.dataWire t := by
    simp only [handsOver, hphase] at hwire
    split_ifs at hwire
    rw [← Option.some.inj hwire]
    exact hinv.wires t hself
  refine ⟨hpaced.sent t hself.2.1, fun x hx hpacket => ⟨?_, ?_⟩, hself, ?_⟩
  · rw [sendings_wire hx, hpacket, hdata]
    rfl
  · obtain ⟨r, hr, htime⟩ := (hpaced.pending _ hphase).2 t List.mem_cons_self x hx hpacket
    exact ⟨r, hr, htime, hclock.le_now hr⟩
  · intro b e a packet heq hack hnumber
    by_contra hsent
    subst hnumber
    refine not_unacked_of_ack hack (not_le.mp hsent)
      (?_ : (s₀.run job (b ++ e :: a)).window.Unacked _)
    rw [← heq]
    exact hself

/-- The sample transfer with its only chunk sent at time 0 and found overdue at time 2. -/
def sampleOverdue : List SenderEnv := (sampleEnvs 7).take 5 ++ [{ now := 1, later := 2 }]

/-- The step that resends it, at time 5. -/
def sampleResend : SenderEnv := { now := 5, later := 5 }

/-- The chunk is outstanding when it is resent, and had been sent before. -/
theorem retransmissions_faithful_one_chunk :
    let s₀ := Sender.start sortedTimers sampleJob {}
    (∃ x ∈ s₀.sendings sampleJob sampleOverdue, x.packet = .data 0) ∧
      (s₀.run sampleJob sampleOverdue).window.Unacked 0 := by
  intro s₀
  have hphase : (s₀.run sampleJob sampleOverdue).phase = .resend [0] := by decide +kernel
  obtain ⟨wire, hwire⟩ : ∃ wire,
      (s₀.run sampleJob sampleOverdue).handsOver sampleJob sampleResend = some wire := by
    rw [← Option.isSome_iff_exists]
    decide +kernel
  have hall := retransmissions_faithful sortedTimers sampleJob {} (sampleOverdue ++ [sampleResend])
    (by decide) sampleOverdue [] sampleResend rfl
  obtain ⟨hsent, -, hself, -⟩ := hall.1 0 [] wire hphase hwire
  exact ⟨hsent, hself⟩

end SwiftLink
