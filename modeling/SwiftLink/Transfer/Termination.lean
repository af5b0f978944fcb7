import SwiftLink.Net.UdpSocket
import SwiftLink.Transfer.RetryBudget
import SwiftLink.Transfer.WireFormat
import Mathlib.Algebra.BigOperators.Group.Finset.Basic
import Mathlib.Algebra.Order.BigOperators.Group.Finset

/-!
# `send_file` returns

Every loop of `send_file` waits for the network, so that it ends at all rests on three things: the
retry budget bounds the calls of `send_packet`, a chunk is retired only once, and a wait that ends
because its time is up leaves a timer to expire.  The third is not quite true.  The socket counts in
microseconds and is told to wake up too early by a fraction of one, so the main loop may find
nothing expired; but then the deadline is less than a microsecond off, the next wait is the shortest
the socket knows, and it does not end before the deadline.

What remains are datagrams that tell the sender nothing, and signals.  They are the only way to keep
it going: `send_file_returns` bounds the length of a run by a constant of the job and the number of
these.
-/

namespace SwiftLink

/-- What the steps up to this phase may exceed the account by. -/
def SenderPhase.credit : SenderPhase → ℕ
  | .control .start _ => 1
  | .awaitReply .start _ _ => 0
  | .loop => 1
  | .fill => 2
  | .sleep => 3
  | .resend [] => 0
  | .resend (_ :: _) => 8
  | .control .fin _ => 8
  | .awaitReply .fin _ _ => 7
  | .done _ => 0

/-- On the way round the main loop, with nothing waiting to be resent. -/
def SenderPhase.circling : SenderPhase → Bool
  | .loop | .fill | .sleep | .resend [] => true
  | _ => false

namespace Sender

variable {Q : TimerQueue} {job : Job} {stats : TransferStats}

/-! ## Waiting -/

/-- The deadline until which the step waits for a datagram, if it does. -/
def blocksUntil (s : Sender Q) (env : SenderEnv) : Option TimePoint :=
  match s.phase with
  | .awaitReply _ _ deadline => if deadline - env.now ≤ 0 then none else some deadline
  | .sleep => s.window.earliestDeadline.2
  | _ => none

/-- The time the socket is asked to wait for, in nanoseconds. -/
def askedWait (env : SenderEnv) (deadline : TimePoint) : ℤ :=
  (UdpSocket.receiveTimeout (toMicroseconds (max 0 (deadline - env.now)))).nanoseconds

/-- The socket does not report a timeout before the time it was asked to wait has passed. -/
def Patient (s : Sender Q) (env : SenderEnv) : Prop :=
  ∀ deadline, s.blocksUntil env = some deadline → env.recv = .wouldBlock →
    env.now + askedWait env deadline ≤ env.later

/-- The datagram is an ACK for an outstanding chunk. -/
def acknowledges (s : Sender Q) (recv : RecvOutcome) : Bool :=
  match recv with
  | .datagram bytes =>
      match deserialize bytes with
      | .ok packet => packet.header.packetType = .ack ∧
          s.window.Unacked packet.header.acknowledgementNumber.toNat
      | .error _ => false
  | _ => false

/-- The step is woken up by a signal, or by a datagram that leads nowhere: not to the end of the
exchange, and to no chunk's being retired. -/
def distracted (job : Job) (s : Sender Q) (env : SenderEnv) : Bool :=
  match s.phase with
  | .awaitReply _ _ _ => (s.step job env).1.phase = s.phase
  | .sleep => env.recv ≠ .wouldBlock ∧ s.acknowledges env.recv = false
  | _ => false

/-- How often a run is distracted. -/
def distractions (job : Job) (s : Sender Q) : List SenderEnv → ℕ
  | [] => 0
  | env :: envs => (s.distracted job env).toNat + distractions job (s.step job env).1 envs

lemma distractions_concat (job : Job) (s : Sender Q) (envs : List SenderEnv) (env : SenderEnv) :
    s.distractions job (envs ++ [env]) =
      s.distractions job envs + ((s.run job envs).distracted job env).toNat := by
  induction envs generalizing s with
  | nil => simp [distractions]
  | cons e envs ih =>
      rw [List.cons_append, distractions, distractions, ih, run_cons]
      omega

/-! ## What there is to spend -/

/-- How many chunks have been retired. -/
def retiredCount (s : Sender Q) : ℕ :=
  ((Finset.range s.window.nextSequence).filter fun t => ¬ s.window.Unacked t).card

lemma mem_retired {s : Sender Q} {t : ℕ} :
    t ∈ (Finset.range s.window.nextSequence).filter (fun t => ¬ s.window.Unacked t) ↔
      s.Retired t := by
  rw [Finset.mem_filter, Finset.mem_range, Retired]

lemma Inv.retiredCount_le {s : Sender Q} (h : s.Inv job) : s.retiredCount ≤ job.totalChunks := by
  have hle := Finset.card_filter_le (Finset.range s.window.nextSequence)
    fun t => ¬ s.window.Unacked t
  rw [Finset.card_range] at hle
  exact hle.trans h.next_le

/-- A step loses none. -/
lemma Inv.retiredCount_step {s : Sender Q} (h : s.Inv job) (env : SenderEnv) :
    s.retiredCount ≤ (s.step job env).1.retiredCount := by
  refine Finset.card_le_card fun t ht => ?_
  rw [mem_retired] at ht ⊢
  exact ht.step h env

/-- A step that retires a chunk has one more. -/
lemma Inv.retiredCount_lt {s : Sender Q} (h : s.Inv job) {env : SenderEnv} {t : ℕ}
    (ht : (s.step job env).1.Retired t) (hnot : ¬ s.Retired t) :
    s.retiredCount < (s.step job env).1.retiredCount := by
  refine Finset.card_lt_card ⟨fun u hu => ?_, fun hsub => ?_⟩
  · rw [mem_retired] at hu ⊢
    exact hu.step h env
  · exact hnot (mem_retired.mp (hsub (mem_retired.mpr ht)))

/-- The packets of a transfer. -/
def ownPackets (job : Job) : Finset OwnPacket :=
  {.control .start, .control .fin} ∪ (Finset.range job.totalChunks).image .data

/-- How many calls of `send_packet` the retry budget allows. -/
def callBound (job : Job) : ℕ :=
  2 * (job.config.maxRetries.toNat + 1) + job.totalChunks * job.config.maxRetries.toNat

lemma calls_eq_count (log : List Sending) (p : OwnPacket) :
    calls log p = (log.map Sending.packet).count p := by
  rw [List.count, List.countP_map, calls]
  exact List.countP_congr fun x _ => by simp

/-- **The retry budget bounds the log.** -/
lemma sendings_length_le (hmax : 1 ≤ job.config.maxRetries) (envs : List SenderEnv) :
    ((start Q job stats).sendings job envs).length ≤ callBound job := by
  have hcounted : Counted job stats ((start Q job stats).sendings job envs)
      (fun t => (start Q job stats).timeoutsOf job t envs) ((start Q job stats).run job envs) :=
    run_counted hmax envs
  have hbudget := hcounted.budget
  set log := (start Q job stats).sendings job envs with hlog
  have hmem : ∀ p ∈ (Multiset.ofList (log.map Sending.packet)), p ∈ ownPackets job := by
    intro p hp
    obtain ⟨x, hx, rfl⟩ := List.mem_map.mp (Multiset.mem_coe.mp hp)
    cases hpacket : x.packet with
    | control which => cases which <;> simp [ownPackets]
    | data t => simp [ownPackets, sendings_data_lt (hlog ▸ hx) hpacket]
  have hcount : ∀ p, (Multiset.ofList (log.map Sending.packet)).count p = calls log p := by
    intro p
    rw [Multiset.coe_count, calls_eq_count]
  have hsum := Multiset.sum_count_eq_card hmem
  rw [Multiset.coe_card, List.length_map] at hsum
  have hdisjoint : Disjoint ({.control .start, .control .fin} : Finset OwnPacket)
      ((Finset.range job.totalChunks).image .data) := by
    rw [Finset.disjoint_left]
    intro p hp hdata
    obtain ⟨t, -, rfl⟩ := Finset.mem_image.mp hdata
    simp at hp
  rw [← hsum, ownPackets, Finset.sum_union hdisjoint, callBound]
  refine Nat.add_le_add ?_ ?_
  · have hcontrols := Finset.sum_le_card_nsmul ({.control .start, .control .fin} : Finset OwnPacket)
      (fun p => (Multiset.ofList (log.map Sending.packet)).count p)
      (job.config.maxRetries.toNat + 1) (fun p hp => by
        have hle : ∀ which, calls log (.control which) ≤ job.config.maxRetries.toNat + 1 := by
          intro which
          have := hbudget.control which
          omega
        rw [hcount]
        rcases Finset.mem_insert.mp hp with rfl | hp
        · exact hle .start
        · rw [Finset.mem_singleton.mp hp]
          exact hle .fin)
    exact hcontrols
  · have hchunks := Finset.sum_le_card_nsmul ((Finset.range job.totalChunks).image OwnPacket.data)
      (fun p => (Multiset.ofList (log.map Sending.packet)).count p)
      job.config.maxRetries.toNat (fun p hp => by
        obtain ⟨t, -, rfl⟩ := Finset.mem_image.mp hp
        have := hbudget.data t
        rw [hcount]
        omega)
    refine hchunks.trans ?_
    rw [Nat.nsmul_eq_mul]
    refine Nat.mul_le_mul_right _ ?_
    exact Finset.card_image_le.trans (Finset.card_range _).le

/-! ## A turn of the main loop -/

section Sleep

variable {s : Sender Q} {env : SenderEnv} {expired : List ℕ}

/-- The loop over the expired packets is entered only after a wait that went well. -/
lemma resend_of_sleep (hsleep : s.phase = .sleep)
    (hphase : (s.step job env).1.phase = .resend expired) :
    (∃ deadline, s.window.earliestDeadline.2 = some deadline) ∧ env.timeoutOk = true ∧
      env.recv ≠ .failed := by
  rw [step, hsleep] at hphase
  simp only [stepSleep] at hphase
  split at hphase
  · simp [finishData] at hphase
  · next deadline hdeadline =>
    split_ifs at hphase with htimeout hfailed
    · simp [finish] at hphase
    · simp [finish] at hphase
    · exact ⟨⟨deadline, hdeadline⟩, by simpa using htimeout, hfailed⟩

/-- **An ACK for an outstanding chunk retires it.** -/
lemma retires_of_acknowledges (h : s.Inv job) (hsleep : s.phase = .sleep)
    (hphase : (s.step job env).1.phase = .resend expired)
    (hack : s.acknowledges env.recv = true) :
    s.retiredCount < (s.step job env).1.retiredCount := by
  obtain ⟨⟨deadline, hdeadline⟩, htimeout, -⟩ := resend_of_sleep hsleep hphase
  simp only [acknowledges] at hack
  split at hack
  · next bytes hrecv =>
    split at hack
    · next packet hpacket =>
      simp only [Bool.decide_and, Bool.and_eq_true, decide_eq_true_eq] at hack
      obtain ⟨htype, hu⟩ := hack
      have hreceived : s.AckReceived env packet :=
        ⟨hsleep, by simp [hdeadline], htimeout, ⟨bytes, hrecv, hpacket⟩, htype⟩
      exact h.retiredCount_lt (retired_of_ack h hreceived hu.2.1) fun hold => hold.2 hu
    · simp at hack
  · simp at hack

/-- What a wait leaves behind that nothing ended but the time: the chunks and the timers there were,
and none of them due. -/
lemma timers_of_wouldBlock (h : s.Inv job) (hsleep : s.phase = .sleep)
    (hphase : (s.step job env).1.phase = .resend []) (hrecv : env.recv = .wouldBlock) {t : ℕ}
    {d : TimePoint} (ha : s.window.Armed t d) :
    (s.step job env).1.window.Armed t d ∧ env.later < d := by
  have hu : s.window.Unacked t := h.window.toCore.armed_unacked ha
  have hsteps : Steps job s env (s.step job env).1 (s.step job env).2 := step_steps h
  have hkept : (s.step job env).1.window.Unacked t := by
    by_contra hnot
    have hlt : t < (s.step job env).1.window.nextSequence := by
      have hnext := (step_turn h env).nextSequence h
      have := hu.2.1
      omega
    rcases hsteps.retired t ⟨hlt, hnot⟩ with hold | ⟨packet, hack, -⟩
    · exact hold.2 hu
    · obtain ⟨bytes, hbytes, -⟩ := hack.received
      simp [hrecv] at hbytes
  have hat := hsteps.inv.phase
  rw [hphase] at hat
  obtain ⟨d', ha'⟩ | hmem := hat.1 t hkept
  · have hstep : (s.step job env).1 = s.stepSleep job env := by rw [step, hsleep]
    rw [hstep] at hphase ha' ⊢
    obtain ⟨hwas, hlate⟩ := stepSleep_armed h hphase ha'
    obtain rfl := h.window.toCore.armed_unique ha hwas
    exact ⟨ha', hlate⟩
  · exact absurd hmem List.not_mem_nil

/-- Some timer runs out less than a microsecond after a reading of the clock. -/
def Soon (s : Sender Q) (clock : List TimePoint) : Prop :=
  ∃ r ∈ clock, ∃ t d, s.window.Armed t d ∧ d < r + 1000

/-- **A wait that ends too early ends just too early**, and the next one does not. -/
lemma soon_of_wouldBlock (h : s.Inv job) (hsleep : s.phase = .sleep)
    (hphase : (s.step job env).1.phase = .resend []) (hrecv : env.recv = .wouldBlock)
    (hpatient : s.Patient env) {clock : List TimePoint} (hclock : ∀ r ∈ clock, r ≤ env.now) :
    ¬ s.Soon clock ∧ (s.step job env).1.Soon [env.now, env.later] := by
  obtain ⟨⟨deadline, hdeadline⟩, -, -⟩ := resend_of_sleep hsleep hphase
  obtain ⟨-, -, hearliest⟩ := h.window.earliestDeadline
  obtain ⟨⟨t, ha⟩, -⟩ := hearliest deadline hdeadline
  have hblocks : s.blocksUntil env = some deadline := by rw [blocksUntil, hsleep, hdeadline]
  have hwait := hpatient deadline hblocks hrecv
  obtain ⟨hasked, hleast⟩ := Timeval.nanoseconds_deadline (max 0 (deadline - env.now))
  obtain ⟨hkept, -⟩ := timers_of_wouldBlock h hsleep hphase hrecv ha
  constructor
  · rintro ⟨r, hr, u, d, hu, hd⟩
    obtain ⟨-, hlate⟩ := timers_of_wouldBlock h hsleep hphase hrecv hu
    refine absurd hlate (not_lt.mpr ?_)
    calc d ≤ r + 1000 := hd.le
      _ ≤ env.now + 1000 := add_le_add_left (hclock r hr) 1000
      _ ≤ env.now + askedWait env deadline := add_le_add_right hleast env.now
      _ ≤ env.later := hwait
  · refine ⟨env.later, by simp, t, deadline, hkept, ?_⟩
    calc deadline ≤ env.now + max 0 (deadline - env.now) := by
          rw [← sub_le_iff_le_add']
          exact le_max_right _ _
      _ < env.now + (askedWait env deadline + 1000) := by
          refine add_lt_add_right ?_ env.now
          exact sub_lt_iff_lt_add.mp hasked
      _ ≤ env.later + 1000 := by
          rw [← add_assoc]
          exact add_le_add_left hwait 1000

end Sleep

/-! ## The account -/

/-- What a run has paid for: so many steps for every call of `send_packet`, every chunk retired and
every distraction. -/
def paid (calls distractions : ℕ) (s : Sender Q) : ℕ :=
  9 * calls + 8 * (s.retiredCount + distractions)

/-- **The account.**  The steps taken are paid for, but for what the phase may owe, and for one turn
of the main loop after a wait that ended too early. -/
def Afforded (steps calls distractions : ℕ) (clock : List TimePoint) (s : Sender Q) : Prop :=
  steps ≤ s.paid calls distractions + s.phase.credit ∨
    s.phase.circling = true ∧ s.Soon clock ∧
      steps ≤ s.paid calls distractions + s.phase.credit + 4

section Account

variable {steps calls distractions : ℕ} {clock : List TimePoint} {s s' : Sender Q}
  {env : SenderEnv}

lemma credit_le (phase : SenderPhase) : phase.credit ≤ 8 := by
  unfold SenderPhase.credit
  split <;> omega

lemma credit_le_of_circling {phase : SenderPhase} (h : phase.circling = true) :
    phase.credit ≤ 3 := by
  unfold SenderPhase.credit SenderPhase.circling at *
  split at h <;> simp_all

lemma Afforded.le (h : Afforded steps calls distractions clock s) :
    steps ≤ s.paid calls distractions + 8 := by
  rcases h with h | ⟨hcircling, -, h⟩
  · have := credit_le s.phase
    omega
  · have := credit_le_of_circling hcircling
    omega

/-- Away from the main loop, and before a retransmission, nothing is owed but the phase's own. -/
lemma Afforded.exact (h : Afforded steps calls distractions clock s)
    (hphase : s.phase.circling = false) :
    steps ≤ s.paid calls distractions + s.phase.credit := by
  rcases h with h | ⟨hcircling, -⟩
  · exact h
  · rw [hphase] at hcircling
    cases hcircling

lemma Afforded.within (h : Afforded steps calls distractions clock s) :
    steps ≤ s.paid calls distractions + s.phase.credit + 4 := by
  rcases h with h | ⟨-, -, h⟩ <;> omega

/-- A step round the main loop that leaves the window as it is. -/
lemma Afforded.circle (h : Afforded steps calls distractions clock s) {phase : SenderPhase}
    (hcircling : phase.circling = true) (hcredit : phase.credit = s.phase.credit + 1)
    (new : List TimePoint) :
    Afforded (steps + 1) calls distractions (clock ++ new) { s with phase := phase } := by
  have hpaid : paid calls distractions { s with phase := phase } =
      s.paid calls distractions := rfl
  rcases h with h | ⟨-, ⟨r, hr, hdue⟩, h⟩
  · left
    rw [hpaid, hcredit]
    omega
  · right
    refine ⟨hcircling, ⟨r, List.mem_append_left _ hr, hdue⟩, ?_⟩
    rw [hpaid, hcredit]
    omega

/-- **The wait of the main loop** is paid for by what ended it, or leaves a timer about to run
out. -/
lemma Afforded.sleep (h : Afforded steps calls distractions clock s) (hinv : s.Inv job)
    (hsleep : s.phase = .sleep) {expired : List ℕ}
    (hphase : (s.step job env).1.phase = .resend expired) (hpatient : s.Patient env)
    (hclock : ∀ r ∈ clock, r ≤ env.now) :
    Afforded (steps + 1) calls (distractions + (s.distracted job env).toNat)
      (clock ++ [env.now, env.later]) (s.step job env).1 := by
  have hwithin := h.within
  have hcount := hinv.retiredCount_step env
  have hdistracted : s.distracted job env =
      decide (env.recv ≠ .wouldBlock ∧ s.acknowledges env.recv = false) := by
    rw [distracted, hsleep]
  rw [Afforded, hphase]
  simp only [paid, hsleep] at hwithin ⊢
  cases expired with
  | cons t rest =>
      left
      simp only [SenderPhase.credit] at hwithin ⊢
      omega
  | nil =>
      simp only [SenderPhase.credit] at hwithin ⊢
      by_cases hack : s.acknowledges env.recv = true
      · have hlt := retires_of_acknowledges hinv hsleep hphase hack
        exact Or.inl (by omega)
      · by_cases hrecv : env.recv = .wouldBlock
        · obtain ⟨hnot, hsoon⟩ := soon_of_wouldBlock hinv hsleep hphase hrecv hpatient hclock
          obtain ⟨r, hr, hrest⟩ := hsoon
          right
          refine ⟨rfl, ⟨r, List.mem_append_right _ hr, hrest⟩, ?_⟩
          -- the wait before did not end too early, or this one would have found its timer due
          rcases h with h | ⟨-, hwas, -⟩
          · simp only [paid, hsleep, SenderPhase.credit] at h
            omega
          · exact absurd hwas hnot
        · rw [hdistracted, decide_eq_true ⟨hrecv, by simpa using hack⟩]
          exact Or.inl (by simp only [Bool.toNat_true]; omega)

/-- **Every step is paid for**, unless it returns from `send_file`. -/
lemma Afforded.step (h : Afforded steps calls distractions clock s) (hinv : s.Inv job)
    (hpatient : s.Patient env) (hclock : ∀ r ∈ clock, r ≤ env.now)
    (halive : ∀ error, (s.step job env).1.phase ≠ .done error) :
    Afforded (steps + 1) (calls + (s.sending job env).toList.length)
      (distractions + (s.distracted job env).toNat) (clock ++ [env.now, env.later])
      (s.step job env).1 := by
  have hturn := step_turn hinv env
  have hcount := hinv.retiredCount_step env
  have hwithin := h.within
  have hsleep : ∀ expired, s.phase = .sleep → (s.step job env).1.phase = .resend expired →
      Afforded (steps + 1) calls (distractions + (s.distracted job env).toNat)
        (clock ++ [env.now, env.later]) (s.step job env).1 :=
    fun expired hphase hphase' => h.sleep hinv hphase hphase' hpatient hclock
  have hstays : ∀ which attempt deadline, s.phase = .awaitReply which attempt deadline →
      (s.step job env).1.phase = s.phase → s.distracted job env = true := by
    intro which attempt deadline hphase hsame
    rw [distracted, hphase]
    simpa [hphase] using hsame
  generalize hs' : (s.step job env).1 = s' at hturn hcount halive hsleep hstays ⊢
  generalize hsent : s.sending job env = sent at hturn ⊢
  generalize (s.distracted job env) = distracted at *
  cases hturn with
  | control which attempt hphase hbudget hphase' hwindow =>
      rcases hphase' with hphase' | hdone
      · left
        have hexact := h.exact (by rw [hphase]; rfl)
        rw [hphase']
        rw [hphase] at hexact
        simp only [paid, Option.toList_some, List.length_singleton] at hexact ⊢
        cases which <;> simp only [SenderPhase.credit] at hexact ⊢ <;> omega
      · exact absurd hdone (halive _)
  | giveUp => exact absurd rfl (halive _)
  | timeout which attempt deadline hphase =>
      left
      have hexact := h.exact (by rw [hphase]; rfl)
      rw [hphase] at hexact
      simp only [paid, Option.toList_none, List.length_nil] at hexact hcount ⊢
      cases which <;> simp only [SenderPhase.credit] at hexact ⊢ <;> omega
  | reply which attempt deadline hphase hphase' hwindow =>
      left
      have hexact := h.exact (by rw [hphase]; rfl)
      simp only [paid, Option.toList_none, List.length_nil] at hexact ⊢
      rcases hphase' with hsame | hacked
      · rw [hstays which attempt deadline hphase hsame, hsame]
        simp only [Bool.toNat_true]
        omega
      · rw [hacked]
        rw [hphase] at hexact
        cases which with
        | start =>
            simp only [SenderPhase.credit, acknowledged] at hexact ⊢
            omega
        | fin => exact absurd hacked (halive _)
  | @jump phase hjump =>
      have hstep : phase.circling = true ∧ phase.credit = s.phase.credit + 1 := by
        generalize s.phase = was at hjump
        cases hjump with
        | enter => exact ⟨rfl, rfl⟩
        | full => exact ⟨rfl, rfl⟩
        | again => exact ⟨rfl, rfl⟩
        | stop error => exact absurd rfl (halive error)
      have hturned : Afforded (steps + 1) calls distractions (clock ++ [env.now, env.later])
          { s with phase := phase } := h.circle hstep.1 hstep.2 _
      rcases hturned with hle | ⟨hcircling, hsoon, hle⟩
      · left
        simp only [paid, Option.toList_none, List.length_nil] at hle ⊢
        omega
      · refine Or.inr ⟨hcircling, hsoon, ?_⟩
        simp only [paid, Option.toList_none, List.length_nil] at hle ⊢
        omega
  | first hphase hsend htotal hnext =>
      rcases hnext with ⟨hphase', -⟩ | ⟨hdone, -⟩
      · left
        rw [hphase']
        simp only [paid, hphase, SenderPhase.credit, Option.toList_some,
          List.length_singleton] at hwithin ⊢
        omega
      · exact absurd hdone (halive _)
  | expire expired hphase hphase' => exact hsleep expired hphase hphase'
  | again t rest hphase hbudget hnext =>
      rcases hnext with ⟨hphase', -⟩ | ⟨hdone, -⟩
      · left
        have hexact := h.exact (by rw [hphase]; rfl)
        simp only [paid, hphase, SenderPhase.credit, Option.toList_some,
          List.length_singleton] at hexact ⊢
        omega
      · exact absurd hdone (halive _)
  | exhausted => exact absurd rfl (halive _)
  | allAcked hphase hphase' =>
      left
      rw [hphase']
      simp only [paid, Option.toList_none, List.length_nil] at hwithin ⊢
      rcases hphase with hphase | hphase <;> rw [hphase] at hwithin <;>
        simp only [SenderPhase.credit] at hwithin ⊢ <;> omega
  | fails error hphase' => exact absurd hphase' (halive _)

end Account

/-! ## Whole runs -/

/-- No wait of the run ends early. -/
def Patiently (job : Job) : Sender Q → List SenderEnv → Prop
  | _, [] => True
  | s, env :: envs => s.Patient env ∧ Patiently job (s.step job env).1 envs

instance (s : Sender Q) (env : SenderEnv) : Decidable (s.Patient env) :=
  match h : s.blocksUntil env with
  | none => isTrue (by simp [Patient, h])
  | some deadline =>
      decidable_of_iff (env.recv = .wouldBlock → env.now + askedWait env deadline ≤ env.later)
        (by simp [Patient, h])

instance instDecidablePatiently (job : Job) (s : Sender Q) (envs : List SenderEnv) :
    Decidable (s.Patiently job envs) :=
  match envs with
  | [] => isTrue trivial
  | env :: envs =>
      have : Decidable ((s.step job env).1.Patiently job envs) := instDecidablePatiently job _ envs
      inferInstanceAs (Decidable (_ ∧ _))

lemma patiently_concat {s : Sender Q} {envs : List SenderEnv} {env : SenderEnv} :
    s.Patiently job (envs ++ [env]) ↔ s.Patiently job envs ∧ (s.run job envs).Patient env := by
  induction envs generalizing s with
  | nil => simp [Patiently]
  | cons e envs ih =>
      rw [List.cons_append, Patiently, ih, Patiently, run_cons]
      exact (and_assoc).symm

/-- **The account holds throughout a run** that has not returned. -/
lemma run_afforded {envs : List SenderEnv} (hclock : Forward envs)
    (hpatient : (start Q job stats).Patiently job envs)
    (halive : ∀ error, ((start Q job stats).run job envs).phase ≠ .done error) :
    Afforded envs.length ((start Q job stats).sendings job envs).length
      ((start Q job stats).distractions job envs) (readings envs)
      ((start Q job stats).run job envs) := by
  induction envs using List.reverseRecOn with
  | nil => exact Or.inl (Nat.zero_le _)
  | append_singleton envs env ih =>
      obtain ⟨hbefore, hnow⟩ := patiently_concat.mp hpatient
      have hwas : ∀ error, ((start Q job stats).run job envs).phase ≠ .done error := by
        intro error hdone
        refine halive error ?_
        rw [run_concat, step_of_done hdone]
        exact hdone
      rw [run_concat] at halive ⊢
      rw [sendings_concat, distractions_concat, readings_append, List.length_append,
        List.length_append]
      exact (ih hclock.of_append hbefore hwas).step (start_run_inv Q job stats envs) hnow
        (fun r hr => hclock.le_now hr) halive

/-- So many steps a job may take without being distracted. -/
def stepBound (job : Job) : ℕ := 9 * callBound job + 8 * job.totalChunks + 8

/-- **A run that has not returned is short.** -/
lemma length_le_of_alive (hmax : 1 ≤ job.config.maxRetries) {envs : List SenderEnv}
    (hclock : Forward envs) (hpatient : (start Q job stats).Patiently job envs)
    (halive : ∀ error, ((start Q job stats).run job envs).phase ≠ .done error) :
    envs.length ≤ stepBound job + 8 * (start Q job stats).distractions job envs := by
  have hspent := (run_afforded hclock hpatient halive).le
  have hcalls : ((start Q job stats).sendings job envs).length ≤ callBound job :=
    sendings_length_le hmax envs
  have hretired := (start_run_inv Q job stats envs).retiredCount_le
  simp only [paid] at hspent
  simp only [stepBound]
  omega

end Sender

open Sender

/-- **`send_file` returns.**  In every run with a budget of at least one, a clock that never goes
back and a socket that never ends a wait early, the machine has returned once it has taken more
steps than `stepBound` and eight for every signal and every datagram that told it nothing. -/
theorem send_file_returns (Q : TimerQueue) (job : Job) (stats : TransferStats)
    (envs : List SenderEnv) (hmax : 1 ≤ job.config.maxRetries) (hclock : Forward envs)
    (hpatient : (Sender.start Q job stats).Patiently job envs)
    (hlong : stepBound job + 8 * (Sender.start Q job stats).distractions job envs < envs.length) :
    ∃ error, ((Sender.start Q job stats).run job envs).phase = .done error := by
  by_contra hnone
  exact absurd hlong (not_lt.mpr
    (length_le_of_alive hmax hclock hpatient fun error hdone => hnone ⟨error, hdone⟩))

/-- The one-byte transfer with a budget of one. -/
def sampleHasty : Job where
  config := { sampleJob.config with maxRetries := 1 }
  data := sampleJob.data
  totalChunks := sampleJob.totalChunks
  digest := sampleJob.digest
  count := sampleJob.count
  digest_eq := sampleJob.digest_eq

/-- Nobody answers. -/
def sampleSilence : List SenderEnv :=
  (List.range 62).map fun k => { now := 2000 * k, later := 2000 * k + 1000 }

/-- A receiver that is not there does not keep the sender waiting for ever. -/
theorem send_file_returns_silence :
    ∃ error, ((Sender.start sortedTimers sampleHasty {}).run sampleHasty sampleSilence).phase =
      .done error ∧ error = .handshakeFailed := by
  obtain ⟨error, hdone⟩ := send_file_returns sortedTimers sampleHasty {} sampleSilence (by decide)
    (by decide +kernel) (by decide +kernel) (by decide +kernel)
  refine ⟨error, hdone, ?_⟩
  have hgave : ((Sender.start sortedTimers sampleHasty {}).run sampleHasty sampleSilence).phase =
      .done .handshakeFailed := by decide +kernel
  exact SenderPhase.done.inj (hdone.symm.trans hgave)

end SwiftLink
