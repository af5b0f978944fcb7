import SwiftLink.Transfer.Retransmission

/-!
# What is handed to `send_packet`, and when

`send_file` calls `send_packet` from three places: `exchange_control`, the loop that fills the
window and the loop over the expired packets.  `sendings` is the log of these calls over a run, with
the clock reading that follows each of them, which is the one the packet's timer is set from.

`Turn` says once what a step can do to the log, to the ring of datagrams, to the timers and to the
four counters that are about sending.  What is proved about whole runs is proved from it.
-/

namespace SwiftLink

/-- The packets of a transfer. -/
inductive OwnPacket
  | control (which : Control)
  | data (sequence : ℕ)
  deriving Repr, DecidableEq

/-- The datagram of a packet. -/
def Job.wireOf (job : Job) : OwnPacket → Bytes
  | .control which => job.controlWire which
  | .data sequence => job.dataWire sequence

/-- A call of `send_packet`: the packet, its bytes, and the clock after the call. -/
structure Sending where
  packet : OwnPacket
  wire : Bytes
  time : TimePoint
  deriving Repr, DecidableEq

/-- The counters `send_packet` and the two retry loops keep. -/
@[ext] structure Tally where
  packetsSent : ℕ
  retransmissions : ℕ
  timeouts : ℕ
  simulatedDrops : ℕ

namespace Tally

def send (drop : Bool) (t : Tally) : Tally :=
  { t with packetsSent := t.packetsSent + 1, simulatedDrops := t.simulatedDrops + drop.toNat }

def retransmit (t : Tally) : Tally := { t with retransmissions := t.retransmissions + 1 }

def timeout (t : Tally) : Tally := { t with timeouts := t.timeouts + 1 }

end Tally

def TransferStats.tally (stats : TransferStats) : Tally where
  packetsSent := stats.packetsSent
  retransmissions := stats.retransmissions
  timeouts := stats.timeouts
  simulatedDrops := stats.simulatedDrops

lemma tally_sendPacket (env : SenderEnv) (wire : Bytes) (stats : TransferStats) :
    (sendPacket env wire stats).stats.tally = stats.tally.send env.drop := by
  cases hdrop : env.drop with
  | true => simp [sendPacket, hdrop, TransferStats.tally, Tally.send]
  | false => simp [sendPacket, hdrop, TransferStats.tally, Tally.send]

namespace Sender

variable {Q : TimerQueue}

/-- `send_file` is given the caller's counters and adds to them. -/
def start (Q : TimerQueue) (job : Job) (stats : TransferStats) : Sender Q :=
  { init Q job with stats := stats }

/-- The packet the machine is at. -/
def outgoing (s : Sender Q) : Option OwnPacket :=
  match s.phase with
  | .control which _ => some (.control which)
  | .fill => some (.data s.window.nextSequence)
  | .resend (sequence :: _) => some (.data sequence)
  | _ => none

/-- The call of `send_packet` a step makes. -/
def sending (job : Job) (s : Sender Q) (env : SenderEnv) : Option Sending :=
  s.outgoing.bind fun packet =>
    (s.handsOver job env).map fun wire => ⟨packet, wire, env.now⟩

/-- The calls of `send_packet` a run makes, in order. -/
def sendings (job : Job) (s : Sender Q) : List SenderEnv → List Sending
  | [] => []
  | env :: envs => (s.sending job env).toList ++ sendings job (s.step job env).1 envs

@[simp] lemma sendings_nil (job : Job) (s : Sender Q) : s.sendings job [] = [] := rfl

lemma run_cons (job : Job) (s : Sender Q) (env : SenderEnv) (envs : List SenderEnv) :
    s.run job (env :: envs) = (s.step job env).1.run job envs := rfl

lemma sendings_append (job : Job) (s : Sender Q) (envs envs' : List SenderEnv) :
    s.sendings job (envs ++ envs')
      = s.sendings job envs ++ (s.run job envs).sendings job envs' := by
  induction envs generalizing s with
  | nil => rfl
  | cons env envs ih => simp [sendings, ih, run_cons]

lemma sendings_concat (job : Job) (s : Sender Q) (envs : List SenderEnv) (env : SenderEnv) :
    s.sendings job (envs ++ [env]) =
      s.sendings job envs ++ ((s.run job envs).sending job env).toList := by
  simp [sendings_append, sendings]

/-! ## What a step can do -/

/-- The step from `sleep` into the loop over the expired packets, seen from the window: nothing is
sent, no timer is set, and what is handed to the loop was due. -/
structure Expiry (w w' : SenderWindow Q) (now : TimePoint) (expired : List ℕ) : Prop where
  next_eq : w'.nextSequence = w.nextSequence
  unacked : ∀ t, w'.Unacked t → w.Unacked t
  armed : ∀ t d, w'.Armed t d → w.Armed t d ∧ now < d
  due : ∀ t ∈ expired, ∃ d, w.Armed t d ∧ d ≤ now
  nodup : expired.Nodup

/-- The moves between the loops that send nothing and leave everything but the program counter. -/
inductive Jump : SenderPhase → SenderPhase → Prop
  | enter : Jump .loop .fill
  | full : Jump .fill .sleep
  | again : Jump (.resend []) .loop
  | stop (error : TransferError) : Jump (.done error) (.done error)

lemma Jump.ne_resend {phase phase' : SenderPhase} (h : Jump phase phase') (expired : List ℕ) :
    phase' ≠ .resend expired := by
  cases h <;> simp

/-- **Everything a step can do**, with the call of `send_packet` it makes. -/
inductive Turn (job : Job) (s : Sender Q) (env : SenderEnv) : Sender Q → Option Sending → Prop
  | control {s' : Sender Q} (which : Control) (attempt : ℤ)
      (hphase : s.phase = .control which attempt)
      (hbudget : attempt ≤ job.config.maxRetries)
      (hphase' : s'.phase = .awaitReply which attempt (env.now + job.config.rto) ∨
        s'.phase = .done .sendFailed)
      (hwindow : s'.window = s.window) (hinFlight : s'.inFlight = s.inFlight)
      (htally : s'.stats.tally =
        (if 0 < attempt then s.stats.tally.retransmit else s.stats.tally).send env.drop) :
      Turn job s env s' (some ⟨.control which, job.controlWire which, env.now⟩)
  | giveUp (which : Control) (attempt : ℤ) (hphase : s.phase = .control which attempt)
      (hbudget : job.config.maxRetries < attempt) :
      Turn job s env (s.finish which.giveUp) none
  | timeout (which : Control) (attempt : ℤ) (deadline : TimePoint)
      (hphase : s.phase = .awaitReply which attempt deadline) :
      Turn job s env { s with
        stats.timeouts := s.stats.timeouts + 1
        phase := .control which (attempt + 1) } none
  | reply {s' : Sender Q} (which : Control) (attempt : ℤ) (deadline : TimePoint)
      (hphase : s.phase = .awaitReply which attempt deadline)
      (hphase' : s'.phase = s.phase ∨ s'.phase = (s.acknowledged which).phase)
      (hwindow : s'.window = s.window) (hinFlight : s'.inFlight = s.inFlight)
      (htally : s'.stats.tally = s.stats.tally) : Turn job s env s' none
  | jump {phase : SenderPhase} (hjump : Jump s.phase phase) :
      Turn job s env { s with phase := phase } none
  | first {s' : Sender Q} (hphase : s.phase = .fill) (hsend : s.window.canSend = true)
      (htotal : s.window.nextSequence < job.totalChunks)
      (hnext : s'.phase = .fill ∧ s'.window = s.window.onSent (env.now + job.config.rto) ∨
        s'.phase = .done .sendFailed ∧ s'.window = s.window)
      (hinFlight : s'.inFlight =
        Function.update s.inFlight (s.window.nextSequence % s.window.capacity)
          { wire := job.dataWire s.window.nextSequence, attempts := 1 })
      (htally : s'.stats.tally = s.stats.tally.send env.drop) :
      Turn job s env s'
        (some ⟨.data s.window.nextSequence, job.dataWire s.window.nextSequence, env.now⟩)
  | expire {s' : Sender Q} (expired : List ℕ) (hphase : s.phase = .sleep)
      (hphase' : s'.phase = .resend expired)
      (hwindow : Expiry s.window s'.window env.later expired)
      (hinFlight : s'.inFlight = s.inFlight) (htally : s'.stats.tally = s.stats.tally) :
      Turn job s env s' none
  | again {s' : Sender Q} (t : ℕ) (rest : List ℕ) (hphase : s.phase = .resend (t :: rest))
      (hbudget : (s.inFlight (t % s.window.capacity)).attempts < job.config.maxRetries)
      (hnext : s'.phase = .resend rest ∧
          s'.window = s.window.reschedule t (env.now + job.config.rto) ∨
        s'.phase = .done .sendFailed ∧ s'.window = s.window)
      (hinFlight : s'.inFlight = Function.update s.inFlight (t % s.window.capacity)
        { wire := job.dataWire t
          attempts := (s.inFlight (t % s.window.capacity)).attempts + 1 })
      (htally : s'.stats.tally = s.stats.tally.retransmit.timeout.send env.drop) :
      Turn job s env s' (some ⟨.data t, job.dataWire t, env.now⟩)
  | exhausted (t : ℕ) (rest : List ℕ) (hphase : s.phase = .resend (t :: rest))
      (hbudget : job.config.maxRetries ≤ (s.inFlight (t % s.window.capacity)).attempts) :
      Turn job s env (s.finish .peerUnresponsive) none
  | allAcked {s' : Sender Q} (hphase : s.phase = .loop ∨ s.phase = .sleep)
      (hphase' : s'.phase = .control .fin 0)
      (hnext : s'.window.nextSequence = s.window.nextSequence)
      (hkept : ∀ t, s'.window.Unacked t → s.window.Unacked t)
      (hinFlight : s'.inFlight = s.inFlight) (htally : s'.stats.tally = s.stats.tally) :
      Turn job s env s' none
  | fails {s' : Sender Q} (error : TransferError) (hphase' : s'.phase = .done error)
      (hnone : error ≠ .none) (hpeer : error ≠ .peerUnresponsive)
      (hnext : s'.window.nextSequence = s.window.nextSequence)
      (hkept : ∀ t, s'.window.Unacked t → s.window.Unacked t)
      (hinFlight : s'.inFlight = s.inFlight) (htally : s'.stats.tally = s.stats.tally) :
      Turn job s env s' none

section Turn

variable {job : Job} {s : Sender Q} {env : SenderEnv}

/-- Two outstanding packets have different cells. -/
lemma Inv.slot_ne (h : s.Inv job) {t u : ℕ} (ht : s.window.Unacked t) (hu : s.window.Unacked u)
    (htu : t ≠ u) : t % s.window.capacity ≠ u % s.window.capacity := by
  intro hmod
  have hle := h.window.next_le
  exact htu (Ring.eq_of_mod_eq ht.1 (ht.2.1.trans_le hle) hu.1 (hu.2.1.trans_le hle) hmod)

lemma sending_of_phase {packet : OwnPacket} (h : s.outgoing = some packet) :
    s.sending job env = (s.handsOver job env).map fun wire => ⟨packet, wire, env.now⟩ := by
  rw [sending, h]
  rfl

lemma sending_of_idle (h : s.outgoing = none) : s.sending job env = none := by
  rw [sending, h]
  rfl

lemma stepControl_turn {which : Control} {attempt : ℤ} (hphase : s.phase = .control which attempt) :
    Turn job s env (s.stepControl job which attempt env).1 (s.sending job env) := by
  have hout : s.outgoing = some (.control which) := by rw [outgoing, hphase]
  rw [sending_of_phase hout]
  simp only [handsOver, hphase, stepControl]
  by_cases hbudget : attempt ≤ job.config.maxRetries
  · rw [if_pos hbudget, if_pos hbudget]
    generalize hstats : (if 0 < attempt then
      { s.stats with retransmissions := s.stats.retransmissions + 1 } else s.stats) = stats
    have htally : stats.tally =
        if 0 < attempt then s.stats.tally.retransmit else s.stats.tally := by
      rw [← hstats]
      split_ifs <;> rfl
    have hsent := tally_sendPacket env (job.controlWire which) stats
    rw [htally] at hsent
    split_ifs with hok
    · exact .control which attempt hphase hbudget (Or.inl rfl) rfl rfl hsent
    · exact .control which attempt hphase hbudget (Or.inr rfl) rfl rfl hsent
  · rw [if_neg hbudget, if_neg hbudget]
    exact .giveUp which attempt hphase (not_le.mp hbudget)

lemma stepAwaitReply_turn {which : Control} {attempt : ℤ} {deadline : TimePoint}
    (hphase : s.phase = .awaitReply which attempt deadline) :
    Turn job s env (s.stepAwaitReply job which attempt deadline env) none := by
  have hstay : ∀ stats : TransferStats, stats.tally = s.stats.tally →
      Turn job s env { s with stats := stats } none :=
    fun stats htally => .reply which attempt deadline hphase (Or.inl rfl) rfl rfl htally
  simp only [stepAwaitReply]
  split_ifs with htime htimeout
  · exact .timeout which attempt deadline hphase
  · exact .fails .socketFailed rfl (by decide) (by decide) rfl (fun _ => id) rfl rfl
  · split
    · exact .timeout which attempt deadline hphase
    · exact hstay s.stats rfl
    · exact .fails .receiveFailed rfl (by decide) (by decide) rfl (fun _ => id) rfl rfl
    · split
      · exact hstay _ rfl
      · simp only [onControlReply]
        split_ifs with herror hsession hreply
        · split
          · exact .fails .remoteError rfl (by decide) (by decide) rfl (fun _ => id) rfl rfl
          · exact .fails .remoteError rfl (by decide) (by decide) rfl (fun _ => id) rfl rfl
        · exact hstay _ rfl
        · cases which with
          | start => exact .reply .start attempt deadline hphase (Or.inr rfl) rfl rfl rfl
          | fin => exact .reply .fin attempt deadline hphase (Or.inr rfl) rfl rfl rfl
        · exact hstay _ rfl

lemma stepLoop_turn (hphase : s.phase = .loop) : Turn job s env (s.stepLoop job) none := by
  simp only [stepLoop]
  split_ifs with hbase
  · exact .jump (hphase ▸ Jump.enter)
  · exact .allAcked (Or.inl hphase) rfl rfl (fun _ => id) rfl rfl

lemma stepFill_turn (hphase : s.phase = .fill) :
    Turn job s env (s.stepFill job env).1 (s.sending job env) := by
  have hout : s.outgoing = some (.data s.window.nextSequence) := by rw [outgoing, hphase]
  rw [sending_of_phase hout]
  simp only [handsOver, hphase, stepFill]
  by_cases hcond : s.window.canSend = true ∧ s.window.nextSequence < job.totalChunks
  · rw [if_pos hcond, if_pos hcond]
    have hfail : Turn job s env (s.finish .fileReadFailed) none :=
      .fails .fileReadFailed rfl (by decide) (by decide) rfl (fun _ => id) rfl rfl
    cases hread : readAt env.read job.data (job.chunkWant s.window.nextSequence)
        (job.chunkOffset s.window.nextSequence) with
    | none => exact hfail
    | some chunk =>
        obtain rfl : chunk = job.chunk s.window.nextSequence := readAt_some hread
        simp only
        split_ifs with hlength hok
        · exact hfail
        · exact .first hphase hcond.1 hcond.2 (Or.inl ⟨rfl, rfl⟩) rfl (tally_sendPacket _ _ _)
        · exact .first hphase hcond.1 hcond.2 (Or.inr ⟨rfl, rfl⟩) rfl (tally_sendPacket _ _ _)
  · rw [if_neg hcond, if_neg hcond]
    exact .jump (hphase ▸ Jump.full)

/-- What `expire` hands to the loop, and what it leaves. -/
lemma expiry_of_effect {w w' : SenderWindow Q} {U : ℕ → Prop}
    (heffect : w.Effect w' w.nextSequence (fun t => w.Unacked t ∧ U t)
      (fun t d => w.Armed t d ∧ U t)) (now : TimePoint) :
    Expiry w (w'.expire now).1 now (w'.expire now).2 := by
  obtain ⟨⟨ds, hds, hexpired⟩, hafter⟩ := heffect.inv.expire now
  refine ⟨hafter.next_eq.trans heffect.next_eq, fun t ht => ?_, fun t d ha => ?_,
    fun t ht => ?_, ?_⟩
  · exact ((heffect.unacked t).mp ((hafter.unacked t).mp ht)).1
  · obtain ⟨hwas, hlate⟩ := (hafter.armed t d).mp ha
    exact ⟨((heffect.armed t d).mp hwas).1, hlate⟩
  · rw [hds] at ht
    obtain ⟨p, hp, rfl⟩ := List.mem_map.mp ht
    obtain ⟨ha, hdue⟩ := (hexpired.mem_iff p).mp hp
    exact ⟨p.2, ((heffect.armed _ _).mp ha).1, hdue⟩
  · rw [hds]
    exact hexpired.nodup

lemma onDatagram_tally (s : Sender Q) (bytes : Bytes) :
    (s.onDatagram bytes).stats.tally = s.stats.tally := by
  simp only [onDatagram]
  split
  · rfl
  · split_ifs <;> rfl

lemma stepSleep_turn (h : s.Inv job) (hphase : s.phase = .sleep) :
    Turn job s env (s.stepSleep job env) none := by
  obtain ⟨hearliest, -, -⟩ := h.window.earliestDeadline
  simp only [stepSleep]
  split
  · exact .allAcked (Or.inr hphase) rfl hearliest.next_eq
      (fun t => (hearliest.unacked t).mp) rfl rfl
  · split_ifs with htimeout hfailed
    · exact .fails .socketFailed rfl (by decide) (by decide) hearliest.next_eq
        (fun t => (hearliest.unacked t).mp) rfl rfl
    · rw [hfailed]
      exact .fails .receiveFailed rfl (by decide) (by decide) hearliest.next_eq
        (fun t => (hearliest.unacked t).mp) rfl rfl
    · split
      · next bytes hrecv =>
        set v : Sender Q := { s with window := s.window.earliestDeadline.1 } with hv
        obtain ⟨-, hinFlight, U, hack, -⟩ := onDatagram_effect (t := v) hearliest.inv bytes
        refine .expire _ hphase rfl (expiry_of_effect (U := U) ?_ env.later) hinFlight
          (onDatagram_tally v bytes)
        exact ⟨hack.inv, hack.capacity_eq.trans hearliest.capacity_eq,
          hack.next_eq.trans hearliest.next_eq,
          fun u => (hack.unacked u).trans (and_congr_left fun _ => hearliest.unacked u),
          fun u d => (hack.armed u d).trans (and_congr_left fun _ => hearliest.armed u d)⟩
      · refine .expire _ hphase rfl (expiry_of_effect (U := fun _ => True) ?_ env.later) rfl rfl
        simpa only [and_true] using hearliest

lemma stepResend_turn (h : s.Inv job) {t : ℕ} {rest : List ℕ}
    (hphase : s.phase = .resend (t :: rest)) :
    Turn job s env (s.stepResend job t rest env).1 (s.sending job env) := by
  have hout : s.outgoing = some (.data t) := by rw [outgoing, hphase]
  have hwire : (s.inFlight (t % s.window.capacity)).wire = job.dataWire t := by
    have hat := h.phase
    rw [hphase] at hat
    exact h.wires t (hat.2 t List.mem_cons_self)
  rw [sending_of_phase hout]
  simp only [handsOver, hphase, stepResend]
  by_cases hbudget : job.config.maxRetries ≤ (s.inFlight (t % s.window.capacity)).attempts
  · rw [if_pos hbudget, if_pos hbudget]
    exact .exhausted t rest hphase hbudget
  · rw [if_neg hbudget, if_neg hbudget, hwire]
    split_ifs with hok
    · exact .again t rest hphase (not_le.mp hbudget) (Or.inl ⟨rfl, rfl⟩) rfl
        (tally_sendPacket _ _ _)
    · exact .again t rest hphase (not_le.mp hbudget) (Or.inr ⟨rfl, rfl⟩) rfl
        (tally_sendPacket _ _ _)

/-- **Every step is a turn.** -/
theorem step_turn (h : s.Inv job) (env : SenderEnv) :
    Turn job s env (s.step job env).1 (s.sending job env) := by
  rw [step]
  split
  · next which attempt hphase => exact stepControl_turn hphase
  · next which attempt deadline hphase =>
    rw [sending_of_idle (by rw [outgoing, hphase])]
    exact stepAwaitReply_turn hphase
  · next hphase =>
    rw [sending_of_idle (by rw [outgoing, hphase])]
    exact stepLoop_turn hphase
  · next hphase => exact stepFill_turn hphase
  · next hphase =>
    rw [sending_of_idle (by rw [outgoing, hphase])]
    exact stepSleep_turn h hphase
  · next hphase =>
    rw [sending_of_idle (by rw [outgoing, hphase])]
    exact .jump (hphase ▸ Jump.again)
  · next t rest hphase => exact stepResend_turn h hphase
  · next error hphase =>
    rw [sending_of_idle (by rw [outgoing, hphase])]
    have hstay : s = { s with phase := .done error } := by rw [← hphase]
    rw [hstay]
    exact .jump (Jump.stop error)

end Turn

lemma start_inv (Q : TimerQueue) (job : Job) (stats : TransferStats) :
    (start Q job stats).Inv job where
  window := (init_inv Q job).window
  capacity_eq := (init_inv Q job).capacity_eq
  next_le := (init_inv Q job).next_le
  wires := (init_inv Q job).wires
  phase := rfl

lemma start_run_inv (Q : TimerQueue) (job : Job) (stats : TransferStats) (envs : List SenderEnv) :
    ((start Q job stats).run job envs).Inv job := by
  induction envs using List.reverseRecOn with
  | nil => exact start_inv Q job stats
  | append_singleton envs env ih =>
      rw [run_concat]
      exact (step_steps ih).inv

/-! ## Whole runs -/

section Runs

variable {job : Job} {s s' : Sender Q} {env : SenderEnv} {sent : Option Sending}

/-- A call hands over the datagram of its packet, as it was built the first time. -/
lemma Turn.wire (h : Turn job s env s' sent) {x : Sending} (hx : sent = some x) :
    x.wire = job.wireOf x.packet ∧ x.time = env.now := by
  cases h with
  | control => cases hx; exact ⟨rfl, rfl⟩
  | first => cases hx; exact ⟨rfl, rfl⟩
  | again => cases hx; exact ⟨rfl, rfl⟩
  | _ => simp at hx

/-- An acknowledged packet stays acknowledged. -/
lemma Turn.unacked (h : Turn job s env s' sent) (hinv : s.Inv job) {t : ℕ}
    (ht : s'.window.Unacked t) : s.window.Unacked t ∨ t = s.window.nextSequence := by
  cases h with
  | control which attempt hphase hbudget hphase' hwindow => exact Or.inl (hwindow ▸ ht)
  | giveUp => exact Or.inl ht
  | timeout => exact Or.inl ht
  | reply which attempt deadline hphase hphase' hwindow => exact Or.inl (hwindow ▸ ht)
  | jump => exact Or.inl ht
  | first hphase hsend htotal hnext =>
      rcases hnext with ⟨-, hwindow⟩ | ⟨-, hwindow⟩
      · have hlt := totalChunks_lt job
        rw [hwindow] at ht
        exact ((hinv.window.onSent hsend (by omega) _).unacked t).mp ht
      · exact Or.inl (hwindow ▸ ht)
  | expire expired hphase hphase' hwindow => exact Or.inl (hwindow.unacked t ht)
  | again u rest hphase hbudget hnext =>
      rcases hnext with ⟨-, hwindow⟩ | ⟨-, hwindow⟩
      · rw [hwindow] at ht
        exact Or.inl (((hinv.window.reschedule u _).unacked t).mp ht)
      · exact Or.inl (hwindow ▸ ht)
  | exhausted => exact Or.inl ht
  | allAcked hphase hphase' hnext hkept => exact Or.inl (hkept t ht)
  | fails error hphase' hnone hpeer hnext hkept => exact Or.inl (hkept t ht)

/-- Only a first transmission moves `next_sequence_`. -/
lemma Turn.nextSequence (h : Turn job s env s' sent) (hinv : s.Inv job) :
    s'.window.nextSequence = s.window.nextSequence ∨
      s.phase = .fill ∧ s'.window.nextSequence = s.window.nextSequence + 1 ∧
        sent = some ⟨.data s.window.nextSequence, job.dataWire s.window.nextSequence, env.now⟩ := by
  cases h with
  | control which attempt hphase hbudget hphase' hwindow => exact Or.inl (by rw [hwindow])
  | giveUp => exact Or.inl rfl
  | timeout => exact Or.inl rfl
  | reply which attempt deadline hphase hphase' hwindow => exact Or.inl (by rw [hwindow])
  | jump => exact Or.inl rfl
  | first hphase hsend htotal hnext =>
      rcases hnext with ⟨-, hwindow⟩ | ⟨-, hwindow⟩
      · have hlt := totalChunks_lt job
        rw [hwindow]
        exact Or.inr ⟨hphase, (hinv.window.onSent hsend (by omega) _).next_eq, rfl⟩
      · exact Or.inl (by rw [hwindow])
  | expire expired hphase hphase' hwindow => exact Or.inl hwindow.next_eq
  | again u rest hphase hbudget hnext =>
      rcases hnext with ⟨-, hwindow⟩ | ⟨-, hwindow⟩
      · rw [hwindow]
        exact Or.inl (hinv.window.reschedule u _).next_eq
      · exact Or.inl (by rw [hwindow])
  | exhausted => exact Or.inl rfl
  | allAcked hphase hphase' hnext => exact Or.inl hnext
  | fails error hphase' hnone hpeer hnext => exact Or.inl hnext

/-- A call of the longer run is one of the run before, or the last step's own. -/
lemma mem_sendings_concat {envs : List SenderEnv} {x : Sending} :
    x ∈ s.sendings job (envs ++ [env]) ↔
      x ∈ s.sendings job envs ∨ (s.run job envs).sending job env = some x := by
  rw [sendings_concat, List.mem_append, Option.mem_toList]

/-- **Every call hands over the datagram of its packet.** -/
lemma sendings_wire {stats : TransferStats} {envs : List SenderEnv} {x : Sending}
    (hx : x ∈ (start Q job stats).sendings job envs) : x.wire = job.wireOf x.packet := by
  induction envs using List.reverseRecOn with
  | nil => simp at hx
  | append_singleton envs env ih =>
      rcases mem_sendings_concat.mp hx with hold | hnew
      · exact ih hold
      · exact ((step_turn (start_run_inv Q job stats envs) env).wire hnew).1

end Runs

end Sender

end SwiftLink
