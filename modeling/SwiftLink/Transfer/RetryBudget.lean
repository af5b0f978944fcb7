import SwiftLink.Transfer.SelectiveRepeat

/-!
# The retry budget and the books

A chunk may be sent `max_retries` times and a control packet once more than that: the loop of
`exchange_control` counts its attempts from zero, the ring of datagrams counts from one.  Here both
counts are compared with the log of the calls themselves, and a chunk's count with how often its
timer was found expired.

The counters of `TransferStats` are bumped at different places: `packets_sent` on every call,
`retransmissions` before a repeated call, `timeouts` by whoever finds the time up.  Between the
timeout of a control packet and the call that repeats it the books are one apart (`owed`);
everywhere else they agree.
-/

namespace SwiftLink

/-- What `expire` has handed to the loop and the loop has not dealt with. -/
def SenderPhase.pending : SenderPhase → List ℕ
  | .resend expired => expired
  | _ => []

/-- In the main loop. -/
def SenderPhase.inData : SenderPhase → Bool
  | .loop | .fill | .sleep | .resend _ => true
  | _ => false

/-- A control packet has timed out and has not been sent again yet. -/
def SenderPhase.owed : SenderPhase → ℕ
  | .control _ attempt => if 0 < attempt then 1 else 0
  | _ => 0

/-- How many of START and FIN have been sent. -/
def SenderPhase.controlsSent : SenderPhase → ℕ
  | .control .start attempt => if 0 < attempt then 1 else 0
  | .control .fin attempt => if 0 < attempt then 2 else 1
  | .awaitReply .fin _ _ => 2
  | .done _ => 2
  | _ => 1

namespace Sender

variable {Q : TimerQueue} {job : Job} {stats : TransferStats}

/-- How often a packet occurs in the log. -/
def calls (log : List Sending) (packet : OwnPacket) : ℕ := log.countP fun x => x.packet = packet

@[simp] lemma calls_nil (packet : OwnPacket) : calls [] packet = 0 := rfl

@[simp] lemma calls_concat (log : List Sending) (x : Sending) (packet : OwnPacket) :
    calls (log ++ [x]) packet = calls log packet + if x.packet = packet then 1 else 0 := by
  simp [calls, List.countP_append, List.countP_cons]

/-- The step finds the timer of chunk `t` expired. -/
def timesOut (job : Job) (s : Sender Q) (env : SenderEnv) (t : ℕ) : Bool :=
  s.phase = .sleep ∧ t ∈ (s.step job env).1.phase.pending

/-- How often a run finds the timer of chunk `t` expired. -/
def timeoutsOf (job : Job) (s : Sender Q) (t : ℕ) : List SenderEnv → ℕ
  | [] => 0
  | env :: envs => (s.timesOut job env t).toNat + timeoutsOf job (s.step job env).1 t envs

lemma timeoutsOf_concat (job : Job) (s : Sender Q) (t : ℕ) (envs : List SenderEnv)
    (env : SenderEnv) : s.timeoutsOf job t (envs ++ [env]) =
      s.timeoutsOf job t envs + ((s.run job envs).timesOut job env t).toNat := by
  induction envs generalizing s with
  | nil => simp [timeoutsOf]
  | cons e envs ih =>
      rw [List.cons_append, timeoutsOf, timeoutsOf, ih, run_cons]
      omega

/-! ## Attempts -/

/-- The attempts of a control packet, by the point the machine has reached. -/
def ControlCalls (job : Job) (log : List Sending) : SenderPhase → Prop
  | .control .start attempt => 0 ≤ attempt ∧ attempt ≤ job.config.maxRetries + 1 ∧
      (calls log (.control .start) : ℤ) = attempt ∧ calls log (.control .fin) = 0
  | .awaitReply .start attempt _ => 0 ≤ attempt ∧ attempt ≤ job.config.maxRetries ∧
      (calls log (.control .start) : ℤ) = attempt + 1 ∧ calls log (.control .fin) = 0
  | .control .fin attempt => 0 ≤ attempt ∧ attempt ≤ job.config.maxRetries + 1 ∧
      (calls log (.control .fin) : ℤ) = attempt
  | .awaitReply .fin attempt _ => 0 ≤ attempt ∧ attempt ≤ job.config.maxRetries ∧
      (calls log (.control .fin) : ℤ) = attempt + 1
  | _ => calls log (.control .fin) = 0

/-- **The attempts of the chunks.**  `fired t` is how often the timer of chunk `t` was found
expired. -/
structure DataCalls (log : List Sending) (fired : ℕ → ℕ) (s : Sender Q) : Prop where
  attempts : ∀ t, s.window.Unacked t →
    (calls log (.data t) : ℤ) = (s.inFlight (t % s.window.capacity)).attempts
  /-- Every call but the first was provoked by a timeout, and one timeout may be waiting. -/
  timeouts : ∀ t, s.window.Unacked t → fired t + 1 =
    calls log (.data t) + if t ∈ s.phase.pending then 1 else 0
  fresh : ∀ t, s.window.nextSequence ≤ t → calls log (.data t) = 0 ∧ fired t = 0
  nodup : s.phase.pending.Nodup

section Step

variable {s s' : Sender Q} {env : SenderEnv} {sent : Option Sending} {log : List Sending}
  {fired fired' : ℕ → ℕ}

/-- A step that sends no chunk and finds no timer expired. -/
lemma DataCalls.keep (h : DataCalls log fired s) {log' : List Sending}
    (hlog : ∀ t, calls log' (.data t) = calls log (.data t)) (hfired : ∀ t, fired' t = fired t)
    (hcapacity : s'.window.capacity = s.window.capacity)
    (hnext : s'.window.nextSequence = s.window.nextSequence)
    (hkept : ∀ t, s'.window.Unacked t → s.window.Unacked t) (hinFlight : s'.inFlight = s.inFlight)
    (hpending : s.phase.pending = []) (hpending' : s'.phase.pending = []) :
    DataCalls log' fired' s' where
  attempts t ht := by
    rw [hlog, hinFlight, hcapacity]
    exact h.attempts t (hkept t ht)
  timeouts t ht := by
    have hbooks := h.timeouts t (hkept t ht)
    rw [hpending] at hbooks
    rwa [hlog, hfired, hpending']
  fresh t ht := by
    rw [hlog, hfired]
    exact h.fresh t (hnext ▸ ht)
  nodup := by
    rw [hpending']
    exact List.nodup_nil

/-- The first call for a chunk. -/
lemma DataCalls.first (h : DataCalls log fired s) (hinv : s.Inv job)
    (hsend : s.window.canSend = true) (hphase : s.phase = .fill) (hphase' : s'.phase = .fill)
    {wire : Bytes} {now : TimePoint} {A : ℕ → TimePoint → Prop}
    (heffect : s.window.Effect s'.window (s.window.nextSequence + 1)
      (fun t => s.window.Unacked t ∨ t = s.window.nextSequence) A)
    (hinFlight : s'.inFlight =
      Function.update s.inFlight (s.window.nextSequence % s.window.capacity)
        { wire := wire, attempts := 1 }) (hfired : ∀ t, fired' t = fired t) :
    DataCalls (log ++ [⟨.data s.window.nextSequence, wire, now⟩]) fired' s' := by
  have hcalls : ∀ t, calls (log ++ [(⟨.data s.window.nextSequence, wire, now⟩ : Sending)])
      (.data t) = calls log (.data t) + if s.window.nextSequence = t then 1 else 0 := by
    intro t
    simp
  obtain ⟨hzero, hnever⟩ := h.fresh _ (le_refl s.window.nextSequence)
  refine ⟨fun t ht => ?_, fun t ht => ?_, fun t ht => ?_, ?_⟩
  · rw [hcalls, hinFlight, heffect.capacity_eq]
    rcases (heffect.unacked t).mp ht with hold | rfl
    · rw [Function.update_of_ne (hinv.slot_free hsend hold),
        if_neg (by have := hold.2.1; omega : s.window.nextSequence ≠ t)]
      exact h.attempts t hold
    · simp [hzero]
  · rw [hcalls, hfired, hphase']
    rcases (heffect.unacked t).mp ht with hold | rfl
    · have hbooks := h.timeouts t hold
      rw [hphase] at hbooks
      rw [if_neg (by have := hold.2.1; omega : s.window.nextSequence ≠ t)]
      exact hbooks
    · simp [hzero, hnever, SenderPhase.pending]
  · rw [heffect.next_eq] at ht
    rw [hcalls, hfired, if_neg (by omega : s.window.nextSequence ≠ t)]
    exact h.fresh t (by omega)
  · rw [hphase']
    exact List.nodup_nil

/-- The timers that ran out. -/
lemma DataCalls.expire (h : DataCalls log fired s) {expired : List ℕ} {now : TimePoint}
    (hphase : s.phase = .sleep) (hphase' : s'.phase = .resend expired)
    (hcapacity : s'.window.capacity = s.window.capacity)
    (hwindow : Expiry s.window s'.window now expired) (hinFlight : s'.inFlight = s.inFlight)
    (hinv : s.Inv job)
    (hfired : ∀ t, fired' t = fired t + if t ∈ expired then 1 else 0) :
    DataCalls log fired' s' := by
  refine ⟨fun t ht => ?_, fun t ht => ?_, fun t ht => ?_, ?_⟩
  · rw [hinFlight, hcapacity]
    exact h.attempts t (hwindow.unacked t ht)
  · have hbooks := h.timeouts t (hwindow.unacked t ht)
    rw [hphase] at hbooks
    simp only [SenderPhase.pending, List.not_mem_nil, if_false] at hbooks
    simp only [hfired, hphase', SenderPhase.pending]
    omega
  · rw [hwindow.next_eq] at ht
    obtain ⟨hzero, hnever⟩ := h.fresh t ht
    have hnot : t ∉ expired := by
      intro hmem
      obtain ⟨d, ha, -⟩ := hwindow.due t hmem
      have hlt := (hinv.window.toCore.armed_unacked ha).2.1
      omega
    rw [hfired, if_neg hnot]
    exact ⟨hzero, hnever⟩
  · rw [hphase']
    exact hwindow.nodup

/-- Another call for a chunk. -/
lemma DataCalls.again (h : DataCalls log fired s) (hinv : s.Inv job) {t : ℕ} {rest : List ℕ}
    (hphase : s.phase = .resend (t :: rest)) (hphase' : s'.phase = .resend rest)
    (hself : s.window.Unacked t) {wire : Bytes} {now : TimePoint} {A : ℕ → TimePoint → Prop}
    (heffect : s.window.Effect s'.window s.window.nextSequence s.window.Unacked A)
    (hinFlight : s'.inFlight = Function.update s.inFlight (t % s.window.capacity)
      { wire := wire, attempts := (s.inFlight (t % s.window.capacity)).attempts + 1 })
    (hfired : ∀ u, fired' u = fired u) :
    DataCalls (log ++ [⟨.data t, wire, now⟩]) fired' s' := by
  have hcalls : ∀ u, calls (log ++ [(⟨.data t, wire, now⟩ : Sending)]) (.data u) =
      calls log (.data u) + if t = u then 1 else 0 := by
    intro u
    simp
  have hnodup := h.nodup
  rw [hphase] at hnodup
  obtain ⟨hnot, hrest⟩ := List.nodup_cons.mp hnodup
  refine ⟨fun u hu => ?_, fun u hu => ?_, fun u hu => ?_, ?_⟩
  · have hold := (heffect.unacked u).mp hu
    have hbooks := h.attempts u hold
    rw [hcalls, hinFlight, heffect.capacity_eq]
    by_cases htu : t = u
    · subst htu
      rw [Function.update_self, if_pos rfl]
      push_cast
      rw [hbooks]
    · rw [Function.update_of_ne (hinv.slot_ne hold hself (Ne.symm htu)), if_neg htu]
      exact hbooks
  · have hbooks := h.timeouts u ((heffect.unacked u).mp hu)
    rw [hphase] at hbooks
    simp only [SenderPhase.pending, List.mem_cons] at hbooks
    simp only [hcalls, hfired, hphase', SenderPhase.pending]
    by_cases htu : t = u
    · subst htu
      rw [if_pos (Or.inl rfl)] at hbooks
      rw [if_pos rfl, if_neg hnot]
      exact hbooks
    · have hne : ¬ u = t := fun heq => htu heq.symm
      simp only [hne, false_or] at hbooks
      rw [if_neg htu]
      exact hbooks
  · rw [heffect.next_eq] at hu
    have hlt := hself.2.1
    rw [hcalls, hfired, if_neg (by omega : t ≠ u)]
    exact h.fresh u hu
  · rw [hphase']
    exact hrest

lemma Jump.pending {phase phase' : SenderPhase} (h : Jump phase phase') :
    phase.pending = [] ∧ phase'.pending = [] := by
  cases h <;> exact ⟨rfl, rfl⟩

/-- **A step keeps the chunks' counts**, unless it returns from `send_file`. -/
lemma Turn.dataCalls (h : Turn job s env s' sent) (hinv : s.Inv job) (hinv' : s'.Inv job)
    (hcalls : DataCalls log fired s) (halive : ∀ error, s'.phase ≠ .done error)
    (hfired : ∀ t, fired' t =
      fired t + (decide (s.phase = .sleep ∧ t ∈ s'.phase.pending)).toNat) :
    DataCalls (log ++ sent.toList) fired' s' := by
  have hcapacity : s'.window.capacity = s.window.capacity :=
    hinv'.capacity_eq.trans hinv.capacity_eq.symm
  have hquiet : s.phase ≠ .sleep ∨ s'.phase.pending = [] → ∀ t, fired' t = fired t := by
    intro hno t
    rw [hfired]
    rcases hno with hno | hno <;> simp [hno]
  cases h with
  | control which attempt hphase hbudget hphase' hwindow hinFlight =>
      have hpending' : s'.phase.pending = [] := by
        rcases hphase' with hphase' | hphase' <;> rw [hphase'] <;> rfl
      refine hcalls.keep (fun t => by simp) (hquiet (Or.inr hpending')) hcapacity
        (by rw [hwindow]) (fun t ht => hwindow ▸ ht) hinFlight (by rw [hphase]; rfl) hpending'
  | giveUp => exact absurd rfl (halive _)
  | timeout which attempt deadline hphase =>
      exact hcalls.keep (fun t => by simp) (hquiet (Or.inr rfl)) hcapacity rfl (fun _ => id) rfl
        (by rw [hphase]; rfl) rfl
  | reply which attempt deadline hphase hphase' hwindow hinFlight =>
      have hpending' : s'.phase.pending = [] := by
        rcases hphase' with hphase' | hphase'
        · rw [hphase', hphase]
          rfl
        · rw [hphase']
          cases which <;> rfl
      exact hcalls.keep (fun t => by simp) (hquiet (Or.inr hpending')) hcapacity (by rw [hwindow])
        (fun t ht => hwindow ▸ ht) hinFlight (by rw [hphase]; rfl) hpending'
  | jump hjump =>
      exact hcalls.keep (fun t => by simp) (hquiet (Or.inr hjump.pending.2)) hcapacity rfl
        (fun _ => id) rfl hjump.pending.1 hjump.pending.2
  | first hphase hsend htotal hnext hinFlight =>
      rcases hnext with ⟨hphase', hwindow⟩ | ⟨hdone, -⟩
      · have hlt := totalChunks_lt job
        have heffect := hinv.window.onSent hsend (by omega) (env.now + job.config.rto)
        rw [← hwindow] at heffect
        exact hcalls.first hinv hsend hphase hphase' heffect hinFlight
          (hquiet (Or.inl (by simp [hphase])))
      · exact absurd hdone (halive _)
  | expire expired hphase hphase' hwindow hinFlight =>
      rw [Option.toList_none, List.append_nil]
      refine hcalls.expire hphase hphase' hcapacity hwindow hinFlight hinv fun t => ?_
      rw [hfired, hphase', SenderPhase.pending]
      by_cases ht : t ∈ expired <;> simp [hphase, ht]
  | again t rest hphase hbudget hnext hinFlight =>
      rcases hnext with ⟨hphase', hwindow⟩ | ⟨hdone, -⟩
      · have hat := hinv.phase
        rw [hphase] at hat
        have heffect := hinv.window.reschedule t (env.now + job.config.rto)
        rw [← hwindow] at heffect
        exact hcalls.again hinv hphase hphase' (hat.2 t List.mem_cons_self) heffect hinFlight
          (hquiet (Or.inl (by simp [hphase])))
      · exact absurd hdone (halive _)
  | exhausted => exact absurd rfl (halive _)
  | allAcked hphase hphase' hnext hkept hinFlight =>
      have hpending : s.phase.pending = [] := by
        rcases hphase with hphase | hphase <;> rw [hphase] <;> rfl
      have hpending' : s'.phase.pending = [] := by rw [hphase']; rfl
      exact hcalls.keep (fun t => by simp) (hquiet (Or.inr hpending')) hcapacity hnext hkept
        hinFlight hpending hpending'
  | fails error hphase' => exact absurd hphase' (halive _)

/-- **A step keeps the count of the control packets**, unless it returns from `send_file`. -/
lemma Turn.controlCalls (h : Turn job s env s' sent) (hmax : 1 ≤ job.config.maxRetries)
    (hcalls : ControlCalls job log s.phase) (halive : ∀ error, s'.phase ≠ .done error) :
    ControlCalls job (log ++ sent.toList) s'.phase := by
  cases h with
  | control which attempt hphase hbudget hphase' =>
      rcases hphase' with hphase' | hdone
      · rw [hphase] at hcalls
        rw [hphase']
        cases which with
        | start =>
            obtain ⟨hnonneg, -, hcount, hfin⟩ := hcalls
            refine ⟨hnonneg, hbudget, ?_, ?_⟩
            · simp [hcount]
            · simp [hfin]
        | fin =>
            obtain ⟨hnonneg, -, hcount⟩ := hcalls
            refine ⟨hnonneg, hbudget, ?_⟩
            simp [hcount]
      · exact absurd hdone (halive _)
  | giveUp => exact absurd rfl (halive _)
  | timeout which attempt deadline hphase =>
      rw [hphase] at hcalls
      rw [Option.toList_none, List.append_nil]
      cases which with
      | start =>
          obtain ⟨hnonneg, hle, hcount, hfin⟩ := hcalls
          exact ⟨by omega, by omega, hcount, hfin⟩
      | fin =>
          obtain ⟨hnonneg, hle, hcount⟩ := hcalls
          exact ⟨by omega, by omega, hcount⟩
  | reply which attempt deadline hphase hphase' =>
      rw [Option.toList_none, List.append_nil]
      rcases hphase' with hphase' | hphase'
      · rwa [hphase']
      · rw [hphase] at hcalls
        rw [hphase'] at halive ⊢
        cases which with
        | start => exact hcalls.2.2.2
        | fin => exact absurd rfl (halive _)
  | @jump phase hjump =>
      rw [Option.toList_none, List.append_nil]
      generalize s.phase = was at hcalls hjump
      cases hjump with
      | enter => exact hcalls
      | full => exact hcalls
      | again => exact hcalls
      | stop error => exact hcalls
  | first hphase hsend htotal hnext =>
      rcases hnext with ⟨hphase', -⟩ | ⟨hdone, -⟩
      · rw [hphase] at hcalls
        have hfin : calls log (.control .fin) = 0 := hcalls
        rw [hphase']
        simp [ControlCalls, hfin]
      · exact absurd hdone (halive _)
  | expire expired hphase hphase' =>
      rw [hphase] at hcalls
      rw [hphase', Option.toList_none, List.append_nil]
      exact hcalls
  | again t rest hphase hbudget hnext =>
      rcases hnext with ⟨hphase', -⟩ | ⟨hdone, -⟩
      · rw [hphase] at hcalls
        have hfin : calls log (.control .fin) = 0 := hcalls
        rw [hphase']
        simp [ControlCalls, hfin]
      · exact absurd hdone (halive _)
  | exhausted => exact absurd rfl (halive _)
  | allAcked hphase hphase' =>
      have hfin : calls log (.control .fin) = 0 := by
        rcases hphase with hphase | hphase <;> rw [hphase] at hcalls <;> exact hcalls
      rw [hphase', Option.toList_none, List.append_nil]
      refine ⟨le_refl _, by omega, ?_⟩
      simp [hfin]
  | fails error hphase' => exact absurd hphase' (halive _)

/-- No packet is handed over more often than it may be. -/
structure WithinBudget (job : Job) (log : List Sending) : Prop where
  data : ∀ t, (calls log (.data t) : ℤ) ≤ job.config.maxRetries
  control : ∀ which, (calls log (.control which) : ℤ) ≤ job.config.maxRetries + 1

/-- One more call stays within a bound that its own packet has not reached. -/
lemma calls_concat_le {x : Sending} {packet : OwnPacket} {bound : ℤ}
    (h : (calls log packet : ℤ) ≤ bound)
    (hself : x.packet = packet → (calls log packet : ℤ) < bound) :
    (calls (log ++ [x]) packet : ℤ) ≤ bound := by
  rw [calls_concat]
  split
  · rename_i heq
    have hlt := hself heq
    push_cast
    omega
  · simpa using h

/-- **A call is made only while there is budget for it.** -/
lemma Turn.withinBudget (h : Turn job s env s' sent) (hinv : s.Inv job)
    (hmax : 1 ≤ job.config.maxRetries) (hdata : DataCalls log fired s)
    (hcontrol : ControlCalls job log s.phase) (hbudget : WithinBudget job log) :
    WithinBudget job (log ++ sent.toList) := by
  cases h with
  | control which attempt hphase hle =>
      have hcount : (calls log (.control which) : ℤ) = attempt := by
        rw [hphase] at hcontrol
        cases which with
        | start => exact hcontrol.2.2.1
        | fin => exact hcontrol.2.2
      refine ⟨fun t => calls_concat_le (hbudget.data t) (by simp), fun which' => ?_⟩
      refine calls_concat_le (hbudget.control which') fun hself => ?_
      obtain rfl : which = which' := by simpa using hself
      omega
  | first hphase hsend htotal hnext =>
      obtain ⟨hzero, -⟩ := hdata.fresh _ (le_refl s.window.nextSequence)
      refine ⟨fun t => calls_concat_le (hbudget.data t) fun hself => ?_,
        fun which => calls_concat_le (hbudget.control which) (by simp)⟩
      obtain rfl : s.window.nextSequence = t := by simpa using hself
      omega
  | again t rest hphase hleft =>
      have hunacked : s.window.Unacked t := by
        have hat := hinv.phase
        rw [hphase] at hat
        exact hat.2 t List.mem_cons_self
      have hcount := hdata.attempts t hunacked
      refine ⟨fun u => calls_concat_le (hbudget.data u) fun hself => ?_,
        fun which => calls_concat_le (hbudget.control which) (by simp)⟩
      obtain rfl : t = u := by simpa using hself
      omega
  | _ => simpa using hbudget

/-! ## The books -/

/-- **The books**, against the counters `send_file` was given. -/
structure Booked (given : Tally) (s : Sender Q) : Prop where
  timeouts : s.stats.tally.timeouts + given.retransmissions =
    given.timeouts + s.stats.tally.retransmissions + s.phase.owed
  packetsSent : s.stats.tally.packetsSent + given.retransmissions = given.packetsSent +
    s.stats.tally.retransmissions + s.window.nextSequence + s.phase.controlsSent
  simulatedDrops : s.stats.tally.simulatedDrops + given.packetsSent ≤
    given.simulatedDrops + s.stats.tally.packetsSent
  retransmissions_le : given.retransmissions ≤ s.stats.tally.retransmissions
  simulatedDrops_le : given.simulatedDrops ≤ s.stats.tally.simulatedDrops

/-- A step that counts nothing. -/
lemma Booked.keep {given : Tally} (h : Booked given s)
    (hnext : s'.window.nextSequence = s.window.nextSequence)
    (htally : s'.stats.tally = s.stats.tally) (howed : s'.phase.owed = s.phase.owed)
    (hcontrols : s'.phase.controlsSent = s.phase.controlsSent) : Booked given s' where
  timeouts := by rw [htally, howed]; exact h.timeouts
  packetsSent := by rw [htally, hnext, hcontrols]; exact h.packetsSent
  simulatedDrops := by rw [htally]; exact h.simulatedDrops
  retransmissions_le := by rw [htally]; exact h.retransmissions_le
  simulatedDrops_le := by rw [htally]; exact h.simulatedDrops_le

lemma Jump.books {phase phase' : SenderPhase} (h : Jump phase phase') :
    phase'.owed = phase.owed ∧ phase'.controlsSent = phase.controlsSent := by
  cases h <;> exact ⟨rfl, rfl⟩

/-- **A step keeps the books**, unless it returns an error. -/
lemma Turn.booked (h : Turn job s env s' sent) (hinv : s.Inv job)
    (hcontrol : ControlCalls job log s.phase) {given : Tally} (hbooked : Booked given s)
    (hsound : ∀ error, s'.phase = .done error → error = .none) : Booked given s' := by
  have hdrop := Bool.toNat_le env.drop
  have ⟨htimeouts, hpackets, hdrops, hretransmissions, hdropped⟩ := hbooked
  cases h with
  | control which attempt hphase hbudget hphase' hwindow hinFlight htally =>
      rcases hphase' with hphase' | hdone
      · have hcontrols : s'.phase.controlsSent =
            s.phase.controlsSent + if 0 < attempt then 0 else 1 := by
          rw [hphase, hphase']
          cases which <;> simp only [SenderPhase.controlsSent] <;> split_ifs <;> rfl
        have howed : s.phase.owed = if 0 < attempt then 1 else 0 := by rw [hphase]; rfl
        have howed' : s'.phase.owed = 0 := by rw [hphase']; rfl
        have hnext : s'.window.nextSequence = s.window.nextSequence := by rw [hwindow]
        rw [howed] at htimeouts
        by_cases hattempt : 0 < attempt
        · simp only [hattempt, if_true, Tally.send, Tally.retransmit] at htally hcontrols htimeouts
          constructor <;> simp only [htally, hcontrols, howed', hnext] <;> omega
        · simp only [hattempt, if_false, Tally.send] at htally hcontrols htimeouts
          constructor <;> simp only [htally, hcontrols, howed', hnext] <;> omega
      · exact absurd (hsound _ hdone) (by decide)
  | giveUp which => exact absurd (hsound _ rfl) (by cases which <;> decide)
  | timeout which attempt deadline hphase =>
      -- `attempt + 1` is positive, so the repeated call is owed
      have hattempt : 0 < attempt + 1 := by
        rw [hphase] at hcontrol
        cases which with
        | start => exact Int.lt_add_one_of_le hcontrol.1
        | fin => exact Int.lt_add_one_of_le hcontrol.1
      have hcontrols : (SenderPhase.control which (attempt + 1)).controlsSent =
          s.phase.controlsSent := by
        rw [hphase]
        cases which <;> simp [SenderPhase.controlsSent, hattempt]
      have howed : s.phase.owed = 0 := by rw [hphase]; rfl
      have howed' : (SenderPhase.control which (attempt + 1)).owed = 1 := by
        simp [SenderPhase.owed, hattempt]
      rw [howed] at htimeouts
      simp only [TransferStats.tally] at htimeouts hpackets hdrops hretransmissions hdropped
      constructor <;> simp only [TransferStats.tally, hcontrols, howed'] <;> omega
  | reply which attempt deadline hphase hphase' hwindow hinFlight htally =>
      have hbooks : s'.phase.owed = s.phase.owed ∧
          s'.phase.controlsSent = s.phase.controlsSent := by
        rcases hphase' with hphase' | hphase'
        · rw [hphase']
          exact ⟨rfl, rfl⟩
        · rw [hphase', hphase]
          cases which <;> exact ⟨rfl, rfl⟩
      exact hbooked.keep (by rw [hwindow]) htally hbooks.1 hbooks.2
  | jump hjump => exact hbooked.keep rfl rfl hjump.books.1 hjump.books.2
  | first hphase hsend htotal hnext hinFlight htally =>
      rcases hnext with ⟨hphase', hwindow⟩ | ⟨hdone, -⟩
      · have hlt := totalChunks_lt job
        have hone : s'.window.nextSequence = s.window.nextSequence + 1 := by
          rw [hwindow]
          exact (hinv.window.onSent hsend (by omega) _).next_eq
        rw [hphase] at htimeouts hpackets
        constructor <;> simp only [htally, hone, hphase', Tally.send] <;> omega
      · exact absurd (hsound _ hdone) (by decide)
  | expire expired hphase hphase' hwindow hinFlight htally =>
      exact hbooked.keep hwindow.next_eq htally (by rw [hphase, hphase']; rfl)
        (by rw [hphase, hphase']; rfl)
  | again t rest hphase hbudget hnext hinFlight htally =>
      rcases hnext with ⟨hphase', hwindow⟩ | ⟨hdone, -⟩
      · have hsame : s'.window.nextSequence = s.window.nextSequence := by
          rw [hwindow]
          exact (hinv.window.reschedule t _).next_eq
        rw [hphase] at htimeouts hpackets
        simp only [SenderPhase.owed, SenderPhase.controlsSent] at htimeouts hpackets
        constructor <;> simp only [htally, hsame, hphase', Tally.send, Tally.retransmit,
          Tally.timeout, SenderPhase.owed, SenderPhase.controlsSent] <;> omega
      · exact absurd (hsound _ hdone) (by decide)
  | exhausted => exact absurd (hsound _ rfl) (by decide)
  | allAcked hphase hphase' hnext hkept hinFlight htally =>
      have hbooks : s'.phase.owed = s.phase.owed ∧
          s'.phase.controlsSent = s.phase.controlsSent := by
        rcases hphase with hphase | hphase <;> rw [hphase, hphase'] <;> exact ⟨rfl, rfl⟩
      exact hbooked.keep hnext htally hbooks.1 hbooks.2
  | fails error hphase' hnone => exact absurd (hsound _ hphase') hnone

end Step

/-! ## Whole runs -/

lemma start_dataCalls (Q : TimerQueue) (job : Job) (stats : TransferStats) :
    DataCalls [] (fun _ => 0) (start Q job stats) where
  attempts t ht := absurd ht (SenderWindow.not_unacked_init Q _ t)
  timeouts t ht := absurd ht (SenderWindow.not_unacked_init Q _ t)
  fresh _ _ := ⟨rfl, rfl⟩
  nodup := List.nodup_nil

lemma start_booked (Q : TimerQueue) (job : Job) (stats : TransferStats) :
    Booked stats.tally (start Q job stats) where
  timeouts := rfl
  packetsSent := rfl
  simulatedDrops := le_refl _
  retransmissions_le := le_refl _
  simulatedDrops_le := le_refl _

/-- What a run has kept count of. -/
structure Counted (job : Job) (stats : TransferStats) (log : List Sending) (fired : ℕ → ℕ)
    (s : Sender Q) : Prop where
  budget : WithinBudget job log
  data : (∀ error, s.phase ≠ .done error) → DataCalls log fired s
  control : (∀ error, s.phase ≠ .done error) → ControlCalls job log s.phase
  booked : (∀ error, s.phase = .done error → error = .none) → Booked stats.tally s

/-- **Every run keeps count.** -/
lemma run_counted (hmax : 1 ≤ job.config.maxRetries) (envs : List SenderEnv) :
    Counted job stats ((start Q job stats).sendings job envs)
      (fun t => (start Q job stats).timeoutsOf job t envs) ((start Q job stats).run job envs) := by
  induction envs using List.reverseRecOn with
  | nil =>
      refine ⟨⟨fun t => ?_, fun which => ?_⟩, fun _ => start_dataCalls Q job stats, fun _ => ?_,
        fun _ => start_booked Q job stats⟩
      · rw [sendings_nil, calls_nil]
        push_cast
        omega
      · rw [sendings_nil, calls_nil]
        push_cast
        omega
      · exact ⟨le_refl _, by omega, rfl, rfl⟩
  | append_singleton envs env ih =>
      have hinv := start_run_inv Q job stats envs
      set s := (start Q job stats).run job envs with hs
      rw [run_concat, sendings_concat, ← hs]
      by_cases hdone : ∃ error, s.phase = .done error
      · -- a run that has returned does nothing more
        obtain ⟨error, hdone⟩ := hdone
        have hidle : s.sending job env = none := sending_of_idle (by rw [outgoing, hdone])
        rw [step_of_done hdone, hidle, Option.toList_none, List.append_nil]
        exact ⟨ih.budget, fun halive => absurd hdone (halive error),
          fun halive => absurd hdone (halive error), ih.booked⟩
      · have halive : ∀ error, s.phase ≠ .done error := fun error h => hdone ⟨error, h⟩
        have hdata := ih.data halive
        have hcontrol := ih.control halive
        have hturn := step_turn hinv env
        refine ⟨hturn.withinBudget hinv hmax hdata hcontrol ih.budget, fun halive' => ?_,
          fun halive' => hturn.controlCalls hmax hcontrol halive', fun hsound => ?_⟩
        · refine hturn.dataCalls hinv (step_steps hinv).inv hdata halive' fun t => ?_
          rw [timeoutsOf_concat, ← hs]
          rfl
        · exact hturn.booked hinv hcontrol (ih.booked fun error h => absurd h (halive error)) hsound

/-- **The main loop gives up on a chunk only when its budget is spent.** -/
lemma gives_up {s s' : Sender Q} {env : SenderEnv} {sent : Option Sending} {log : List Sending}
    {fired : ℕ → ℕ} (h : Turn job s env s' sent) (hinv : s.Inv job) (hdata : DataCalls log fired s)
    (hbudget : WithinBudget job log) (hphase : s.phase.inData = true)
    (hdone : s'.phase = .done .peerUnresponsive) :
    ∃ t, s.window.Unacked t ∧ (fired t : ℤ) = job.config.maxRetries := by
  cases h with
  | exhausted t rest hresend hspent =>
      have hself : s.window.Unacked t := by
        have hat := hinv.phase
        rw [hresend] at hat
        exact hat.2 t List.mem_cons_self
      refine ⟨t, hself, ?_⟩
      have hcount := hdata.attempts t hself
      have hle := hbudget.data t
      have hfired := hdata.timeouts t hself
      rw [hresend, SenderPhase.pending, if_pos List.mem_cons_self] at hfired
      omega
  | control which attempt hcontrol => rw [hcontrol] at hphase; cases hphase
  | giveUp which attempt hcontrol => rw [hcontrol] at hphase; cases hphase
  | timeout which attempt deadline hawait => rw [hawait] at hphase; cases hphase
  | reply which attempt deadline hawait => rw [hawait] at hphase; cases hphase
  | @jump phase hjump =>
      obtain rfl : phase = .done .peerUnresponsive := hdone
      generalize s.phase = was at hjump hphase
      cases hjump
      cases hphase
  | first hfill hsend htotal hnext =>
      rcases hnext with ⟨hphase', -⟩ | ⟨hphase', -⟩ <;> rw [hphase'] at hdone <;> cases hdone
  | expire expired hsleep hphase' => rw [hphase'] at hdone; cases hdone
  | again t rest hresend hleft hnext =>
      rcases hnext with ⟨hphase', -⟩ | ⟨hphase', -⟩ <;> rw [hphase'] at hdone <;> cases hdone
  | allAcked hloop hphase' => rw [hphase'] at hdone; cases hdone
  | fails error hphase' hnone hpeer =>
      rw [hphase'] at hdone
      exact absurd (SenderPhase.done.inj hdone) hpeer

end Sender

open Sender

/-- **The retry budget and the books.**  In every run with a budget of at least one, no chunk is
handed to `send_packet` more than `max_retries` times, and neither START nor FIN more than once
beyond that.  The main loop returns `kPeerUnresponsive` only when the timer of some outstanding
chunk has been found expired `max_retries` times.  When `send_file` succeeds, what it added to the
counters is one packet for each chunk, one for START, one for FIN and one for each retransmission;
every timeout was followed by a retransmission; and no more packets were dropped than sent. -/
theorem retry_budget (Q : TimerQueue) (job : Job) (stats : TransferStats) (envs : List SenderEnv)
    (hmax : 1 ≤ job.config.maxRetries) :
    let s₀ := Sender.start Q job stats
    let s := s₀.run job envs
    (∀ t, (calls (s₀.sendings job envs) (.data t) : ℤ) ≤ job.config.maxRetries) ∧
    (∀ which, (calls (s₀.sendings job envs) (.control which) : ℤ) ≤ job.config.maxRetries + 1) ∧
    (∀ before env after, envs = before ++ env :: after →
      (s₀.run job before).phase.inData = true →
      ((s₀.run job before).step job env).1.phase = .done .peerUnresponsive →
      ∃ t, (s₀.run job before).window.Unacked t ∧
        (s₀.timeoutsOf job t before : ℤ) = job.config.maxRetries) ∧
    (s.phase = .done .none → ∃ sent retransmitted timedOut dropped : ℕ,
      s.stats.packetsSent = stats.packetsSent + sent ∧
      s.stats.retransmissions = stats.retransmissions + retransmitted ∧
      s.stats.timeouts = stats.timeouts + timedOut ∧
      s.stats.simulatedDrops = stats.simulatedDrops + dropped ∧
      sent = job.totalChunks + 2 + retransmitted ∧ timedOut = retransmitted ∧ dropped ≤ sent) := by
  intro s₀ s
  have hcounted : Counted job stats (s₀.sendings job envs) (fun t => s₀.timeoutsOf job t envs) s :=
    run_counted hmax envs
  refine ⟨hcounted.budget.data, hcounted.budget.control, ?_, fun hdone => ?_⟩
  · rintro before env after - hphase hdone
    have hbefore : Counted job stats (s₀.sendings job before)
        (fun t => s₀.timeoutsOf job t before) (s₀.run job before) := run_counted hmax before
    have hinv := start_run_inv Q job stats before
    have halive : ∀ error, (s₀.run job before).phase ≠ .done error := by
      intro error h
      rw [h] at hphase
      cases hphase
    exact gives_up (step_turn hinv env) hinv (hbefore.data halive) hbefore.budget hphase hdone
  · obtain ⟨htimeouts, hpackets, hdrops, hretransmissions, hdropped⟩ : Booked stats.tally s :=
      hcounted.booked fun error h => (SenderPhase.done.inj (hdone.symm.trans h)).symm
    have hcomplete : s.Complete job := by
      have hat := (start_run_inv Q job stats envs).phase
      rw [show ((start Q job stats).run job envs).phase = .done .none from hdone] at hat
      exact hat rfl
    rw [hdone] at htimeouts hpackets
    rw [hcomplete.1] at hpackets
    simp only [TransferStats.tally] at hdrops hretransmissions hdropped
    simp only [TransferStats.tally, SenderPhase.owed] at htimeouts
    simp only [TransferStats.tally, SenderPhase.controlsSent] at hpackets
    obtain ⟨retransmitted, hr⟩ := Nat.exists_eq_add_of_le hretransmissions
    obtain ⟨dropped, hd⟩ := Nat.exists_eq_add_of_le hdropped
    exact ⟨job.totalChunks + 2 + retransmitted, retransmitted, retransmitted, dropped, by omega, hr,
      by omega, hd, rfl, rfl, by omega⟩

/-- The sample transfer to its end. -/
def sampleWhole : List SenderEnv :=
  (sampleEnvs 7).append [{}, {}, {}, { recv := .datagram (serialize
    { packetType := .finAck, sessionId := 7, acknowledgementNumber := 1 } []) }]

/-- Counters a caller has used before. -/
def sampleStats : TransferStats := { packetsSent := 4, retransmissions := 1 }

/-- One chunk and no loss: three packets more. -/
theorem retry_budget_one_chunk : ∃ s : Sender sortedTimers, s.phase = .done .none ∧
    s = (Sender.start sortedTimers sampleJob sampleStats).run sampleJob sampleWhole ∧
    ∃ sent retransmitted : ℕ, s.stats.packetsSent = sampleStats.packetsSent + sent ∧
      s.stats.retransmissions = sampleStats.retransmissions + retransmitted ∧
      sent = sampleJob.totalChunks + 2 + retransmitted := by
  have hdone : ((Sender.start sortedTimers sampleJob sampleStats).run sampleJob sampleWhole).phase =
      .done .none := by decide +kernel
  obtain ⟨sent, retransmitted, timedOut, dropped, hsent, hretransmitted, -, -, hsum, -⟩ :=
    (retry_budget sortedTimers sampleJob sampleStats sampleWhole (by decide)).2.2.2 hdone
  generalize (Sender.start sortedTimers sampleJob sampleStats).run sampleJob sampleWhole = s at *
  exact ⟨s, hdone, rfl, sent, retransmitted, hsent, hretransmitted, hsum⟩

end SwiftLink
