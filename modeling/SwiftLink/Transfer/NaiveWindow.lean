import SwiftLink.Transfer.SenderWindow
import Mathlib.Data.List.MinMax
import Mathlib.Data.List.Nodup

/-!
# What the sender's window is for

`NaiveWindow` is the window without its data structures: the unacknowledged sequence numbers, each
with the deadline of its timer if it has one, and a linear scan for every question.
`SenderWindow` with its ring, its generations and its lazily pruned heap gives the same answers
over every history of calls (`senderWindow_refines_naive`).

The heap may break ties between equal deadlines as it likes, so what `expire` hands back is pinned
down up to the order of equal deadlines.
-/

namespace SwiftLink

/-- The unacknowledged sequence numbers with their optional deadlines. -/
structure NaiveWindow where
  next : ℕ := 0
  pending : List (ℕ × Option TimePoint) := []
  deriving Repr, DecidableEq

namespace NaiveWindow

/-- The least unacknowledged sequence number, or the next one to be sent. -/
def base (n : NaiveWindow) : ℕ := ((n.pending.map Prod.fst).min?).getD n.next

/-- The packets with a timer. -/
def armed (n : NaiveWindow) : List (ℕ × TimePoint) :=
  n.pending.filterMap fun p => p.2.map fun d => (p.1, d)

def earliestDeadline (n : NaiveWindow) : Option TimePoint := (n.armed.map Prod.snd).min?

/-- The timers that have run out. -/
def due (n : NaiveWindow) (now : TimePoint) : List (ℕ × TimePoint) :=
  n.armed.filter fun p => p.2 ≤ now

def onSent (n : NaiveWindow) (deadline : TimePoint) : NaiveWindow where
  next := n.next + 1
  pending := n.pending ++ [(n.next, some deadline)]

def onAck (n : NaiveWindow) (sequence : ℕ) : NaiveWindow × Bool :=
  ({ n with pending := n.pending.filter fun p => p.1 ≠ sequence },
    n.pending.any fun p => p.1 = sequence)

/-- Disarms what is due. -/
def expire (n : NaiveWindow) (now : TimePoint) : NaiveWindow :=
  { n with pending := n.pending.map fun p => (p.1, p.2.filter fun d => now < d) }

def reschedule (n : NaiveWindow) (sequence : ℕ) (deadline : TimePoint) : NaiveWindow :=
  { n with pending := n.pending.map fun p => if p.1 = sequence then (p.1, some deadline) else p }

lemma mem_armed {n : NaiveWindow} {s : ℕ} {d : TimePoint} :
    (s, d) ∈ n.armed ↔ (s, some d) ∈ n.pending := by
  simp only [armed, List.mem_filterMap, Option.map_eq_some_iff, Prod.mk.injEq, Prod.exists]
  constructor
  · rintro ⟨t, o, hmem, e, rfl, rfl, rfl⟩
    exact hmem
  · exact fun hmem => ⟨s, some d, hmem, d, rfl, rfl, rfl⟩

/-- One packet, one timer. -/
lemma armed_keys_sublist (n : NaiveWindow) :
    (n.armed.map Prod.fst).Sublist (n.pending.map Prod.fst) := by
  rw [armed]
  induction n.pending with
  | nil => exact List.Sublist.refl _
  | cons p rest ih =>
      obtain ⟨s, o⟩ := p
      cases o with
      | none => exact ih.cons s
      | some d => exact ih.cons_cons s

end NaiveWindow

/-- The calls a caller of the window can make. -/
inductive WindowCall where
  | onSent (deadline : TimePoint)
  | onAck (sequence : ℕ)
  | earliestDeadline
  | expire (now : TimePoint)
  | reschedule (sequence : ℕ) (deadline : TimePoint)
  deriving Repr, DecidableEq

namespace WindowCall

variable {Q : TimerQueue}

/-- The window after a call. -/
def apply (w : SenderWindow Q) : WindowCall → SenderWindow Q
  | onSent deadline => w.onSent deadline
  | onAck sequence => (w.onAck sequence).1
  | earliestDeadline => w.earliestDeadline.1
  | expire now => (w.expire now).1
  | reschedule sequence deadline => w.reschedule sequence deadline

def applyNaive (n : NaiveWindow) : WindowCall → NaiveWindow
  | onSent deadline => n.onSent deadline
  | onAck sequence => (n.onAck sequence).1
  | earliestDeadline => n
  | expire now => n.expire now
  | reschedule sequence deadline => n.reschedule sequence deadline

def isSend : WindowCall → Bool
  | onSent _ => true
  | _ => false

end WindowCall

open WindowCall

variable {Q : TimerQueue}

/-- The one precondition of the class: `on_sent` only after `can_send`, as it asserts. -/
def Admissible : SenderWindow Q → List WindowCall → Prop
  | _, [] => True
  | w, call :: calls => (call.isSend = true → w.canSend = true) ∧ Admissible (apply w call) calls

instance : ∀ (w : SenderWindow Q) (calls : List WindowCall), Decidable (Admissible w calls)
  | _, [] => isTrue trivial
  | w, call :: calls =>
      have := instDecidableAdmissible (apply w call) calls
      inferInstanceAs (Decidable (_ ∧ _))

/-- The implementation `w`, of a given capacity, stands for the naive window `n`. -/
structure Refines (capacity : ℕ) (w : SenderWindow Q) (n : NaiveWindow) : Prop where
  inv : w.Inv
  capacity_eq : w.capacity = capacity
  next_eq : w.nextSequence = n.next
  keys_nodup : (n.pending.map Prod.fst).Nodup
  unacked_iff : ∀ s, w.Unacked s ↔ s ∈ n.pending.map Prod.fst
  armed_iff : ∀ s d, w.Armed s d ↔ (s, some d) ∈ n.pending

lemma refines_init (Q : TimerQueue) (capacity : ℕ) :
    Refines (max 1 capacity) (SenderWindow.init Q capacity) {} where
  inv := SenderWindow.init_inv Q capacity
  capacity_eq := by
    simp only [SenderWindow.init]
    split_ifs <;> omega
  next_eq := rfl
  keys_nodup := List.nodup_nil
  unacked_iff s := by simp [SenderWindow.not_unacked_init]
  armed_iff s d := by simp [SenderWindow.not_armed_init]

namespace Refines

variable {capacity : ℕ} {w : SenderWindow Q} {n : NaiveWindow}

/-! ## The answers agree -/

lemma base_eq (h : Refines capacity w n) : w.base = n.base := by
  rw [NaiveWindow.base]
  rcases h.inv.base_spec with ⟨-, hu⟩ | ⟨heq, hnone⟩
  · have hmin : (n.pending.map Prod.fst).min? = some w.base := by
      rw [List.min?_eq_some_iff]
      exact ⟨(h.unacked_iff _).mp hu, fun s hs => ((h.unacked_iff s).mpr hs).1⟩
    rw [hmin, Option.getD_some]
  · have hnil : n.pending.map Prod.fst = [] := by
      rw [List.eq_nil_iff_forall_not_mem]
      exact fun s hs => hnone s ((h.unacked_iff s).mpr hs)
    rw [hnil, List.min?_nil, Option.getD_none, heq, h.next_eq]

lemma onAck_eq (h : Refines capacity w n) (s : ℕ) : (w.onAck s).2 = (n.onAck s).2 := by
  rw [(h.inv.onAck s).2, NaiveWindow.onAck, Bool.eq_iff_iff]
  simp [h.unacked_iff]

lemma earliestDeadline_eq (h : Refines capacity w n) :
    w.earliestDeadline.2 = n.earliestDeadline := by
  obtain ⟨-, hnone, hsome⟩ := h.inv.earliestDeadline
  rw [NaiveWindow.earliestDeadline]
  have hmem : ∀ d, d ∈ n.armed.map Prod.snd ↔ ∃ t, w.Armed t d := by
    intro d
    simp only [List.mem_map, Prod.exists, NaiveWindow.mem_armed, exists_eq_right, h.armed_iff]
  cases hd : w.earliestDeadline.2 with
  | none =>
      have hnil : n.armed.map Prod.snd = [] := by
        rw [List.eq_nil_iff_forall_not_mem]
        intro d hin
        obtain ⟨t, ha⟩ := (hmem d).mp hin
        exact hnone.mp hd t d ha
      rw [hnil, List.min?_nil]
  | some d =>
      obtain ⟨⟨t, ha⟩, hle⟩ := hsome d hd
      symm
      rw [List.min?_eq_some_iff]
      refine ⟨(hmem d).mpr ⟨t, ha⟩, fun d' hd' => ?_⟩
      obtain ⟨t', ha'⟩ := (hmem d').mp hd'
      exact hle t' d' ha'

/-- What `expire` returns is what is due, in some order of non-decreasing deadlines. -/
lemma expire_perm (h : Refines capacity w n) (now : TimePoint) :
    ∃ ds : List (ℕ × TimePoint), (w.expire now).2 = ds.map Prod.fst ∧ ds.Perm (n.due now) ∧
      ds.Pairwise fun p q => p.2 ≤ q.2 := by
  obtain ⟨⟨ds, hout, hexp⟩, -⟩ := h.inv.expire now
  refine ⟨ds, hout, ?_, hexp.sorted⟩
  have hdue : (n.due now).Nodup :=
    (((NaiveWindow.armed_keys_sublist n).nodup h.keys_nodup).of_map Prod.fst).filter _
  rw [List.perm_ext_iff_of_nodup (hexp.nodup.of_map Prod.fst) hdue]
  rintro ⟨s, d⟩
  rw [hexp.mem_iff, NaiveWindow.due, List.mem_filter, NaiveWindow.mem_armed, h.armed_iff,
    decide_eq_true_eq]

/-! ## The calls keep the relation -/

lemma next_not_mem (h : Refines capacity w n) : n.next ∉ n.pending.map Prod.fst := by
  intro hin
  have hlt := ((h.unacked_iff _).mpr hin).2.1
  have hnext := h.next_eq
  omega

lemma onSent (h : Refines capacity w n) (hsend : w.canSend = true)
    (hlt : w.nextSequence + 1 < 2 ^ 32) (deadline : TimePoint) :
    Refines capacity (w.onSent deadline) (n.onSent deadline) := by
  have heff := h.inv.onSent hsend hlt deadline
  refine ⟨heff.inv, heff.capacity_eq.trans h.capacity_eq, ?_, ?_, fun s => ?_, fun s d => ?_⟩
  · rw [heff.next_eq, h.next_eq, NaiveWindow.onSent]
  · simp only [NaiveWindow.onSent, List.map_append, List.map_cons, List.map_nil]
    rw [List.nodup_append_comm, List.singleton_append, List.nodup_cons]
    exact ⟨h.next_not_mem, h.keys_nodup⟩
  · rw [heff.unacked, h.unacked_iff, h.next_eq]
    simp [NaiveWindow.onSent]
  · rw [heff.armed, h.armed_iff, h.next_eq]
    simp [NaiveWindow.onSent]

lemma onAck (h : Refines capacity w n) (s : ℕ) : Refines capacity (w.onAck s).1 (n.onAck s).1 := by
  obtain ⟨heff, -⟩ := h.inv.onAck s
  have hkeys : ((n.onAck s).1.pending.map Prod.fst) =
      (n.pending.map Prod.fst).filter fun t => t ≠ s := by
    rw [NaiveWindow.onAck, List.filter_map]
    rfl
  refine ⟨heff.inv, heff.capacity_eq.trans h.capacity_eq, heff.next_eq.trans h.next_eq, ?_,
    fun t => ?_, fun t d => ?_⟩
  · rw [hkeys]
    exact h.keys_nodup.filter _
  · rw [heff.unacked, h.unacked_iff, hkeys, List.mem_filter, decide_eq_true_eq]
  · rw [heff.armed, h.armed_iff, NaiveWindow.onAck, List.mem_filter, decide_eq_true_eq]

lemma expire (h : Refines capacity w n) (now : TimePoint) :
    Refines capacity (w.expire now).1 (n.expire now) := by
  obtain ⟨-, heff⟩ := h.inv.expire now
  have hkeys : (n.expire now).pending.map Prod.fst = n.pending.map Prod.fst := by
    rw [NaiveWindow.expire, List.map_map]
    rfl
  refine ⟨heff.inv, heff.capacity_eq.trans h.capacity_eq, heff.next_eq.trans h.next_eq, ?_,
    fun t => ?_, fun t d => ?_⟩
  · rw [hkeys]
    exact h.keys_nodup
  · rw [heff.unacked, h.unacked_iff, hkeys]
  · rw [heff.armed, h.armed_iff, NaiveWindow.expire, List.mem_map]
    constructor
    · rintro ⟨hmem, hlt⟩
      exact ⟨(t, some d), hmem, by simp [hlt]⟩
    · rintro ⟨⟨t', o⟩, hmem, heq⟩
      obtain ⟨rfl, ho⟩ := Prod.mk.inj heq
      obtain ⟨rfl, hlt⟩ := Option.filter_eq_some_iff.mp ho
      exact ⟨hmem, by simpa using hlt⟩

lemma reschedule (h : Refines capacity w n) (s : ℕ) (deadline : TimePoint) :
    Refines capacity (w.reschedule s deadline) (n.reschedule s deadline) := by
  have heff := h.inv.reschedule s deadline
  have hkeys : (n.reschedule s deadline).pending.map Prod.fst = n.pending.map Prod.fst := by
    rw [NaiveWindow.reschedule, List.map_map]
    refine List.map_congr_left fun p _ => ?_
    by_cases hp : p.1 = s <;> simp [hp]
  refine ⟨heff.inv, heff.capacity_eq.trans h.capacity_eq, heff.next_eq.trans h.next_eq, ?_,
    fun t => ?_, fun t d => ?_⟩
  · rw [hkeys]
    exact h.keys_nodup
  · rw [heff.unacked, h.unacked_iff, hkeys]
  · have hmem' : (t, some d) ∈ (n.reschedule s deadline).pending ↔ ∃ p ∈ n.pending,
        (if p.1 = s then (p.1, some deadline) else p) = (t, some d) := List.mem_map
    rw [heff.armed, h.armed_iff, h.unacked_iff, hmem']
    constructor
    · rintro (⟨hmem, hne⟩ | ⟨hs, rfl, rfl⟩)
      · have hts : t ≠ s := by
          rintro rfl
          exact hne (List.mem_map_of_mem hmem) rfl
        exact ⟨(t, some d), hmem, by simp [hts]⟩
      · obtain ⟨p, hp, rfl⟩ := List.mem_map.mp hs
        exact ⟨p, hp, by simp⟩
    · rintro ⟨p, hp, heq⟩
      by_cases hps : p.1 = s
      · rw [if_pos hps] at heq
        obtain ⟨rfl, hd⟩ := Prod.mk.inj heq
        exact Or.inr ⟨hps ▸ List.mem_map_of_mem hp, hps, (Option.some.inj hd).symm⟩
      · rw [if_neg hps] at heq
        subst heq
        exact Or.inl ⟨hp, fun _ => hps⟩

/-- **One call.** -/
lemma apply (h : Refines capacity w n) {call : WindowCall}
    (hsend : call.isSend = true → w.canSend = true)
    (hlt : call.isSend = true → w.nextSequence + 1 < 2 ^ 32) :
    Refines capacity (apply w call) (applyNaive n call) := by
  cases call with
  | onSent deadline => exact h.onSent (hsend rfl) (hlt rfl) deadline
  | onAck sequence => exact h.onAck sequence
  | earliestDeadline =>
      obtain ⟨heff, -⟩ := h.inv.earliestDeadline
      exact ⟨heff.inv, heff.capacity_eq.trans h.capacity_eq, heff.next_eq.trans h.next_eq,
        h.keys_nodup,
        fun s => (heff.unacked s).trans (h.unacked_iff s),
        fun s d => (heff.armed s d).trans (h.armed_iff s d)⟩
  | expire now => exact h.expire now
  | reschedule sequence deadline => exact h.reschedule sequence deadline

/-- **A whole history of calls.** -/
lemma run {calls : List WindowCall} (h : Refines capacity w n) (hadm : Admissible w calls)
    (hlt : n.next + calls.countP isSend < 2 ^ 32) :
    Refines capacity (calls.foldl WindowCall.apply w) (calls.foldl applyNaive n) := by
  induction calls generalizing w n with
  | nil => exact h
  | cons call calls ih =>
      obtain ⟨hsend, hrest⟩ := hadm
      have hnext := h.next_eq
      rw [List.countP_cons] at hlt
      refine ih (h.apply hsend fun hcall => ?_) hrest ?_
      · rw [hcall, if_pos rfl] at hlt
        omega
      · cases call <;> simp [applyNaive, NaiveWindow.onSent, NaiveWindow.onAck, NaiveWindow.expire,
          NaiveWindow.reschedule, isSend] at hlt ⊢ <;> omega

end Refines

/-- **`SenderWindow` refines the naive window.**  After any history of calls that respects
`can_send` and sends fewer than `2 ^ 32` packets, the window is where the naive one is and answers
every next question as the naive one does. -/
theorem senderWindow_refines_naive (Q : TimerQueue) (capacity : ℕ) (calls : List WindowCall)
    (hadm : Admissible (SenderWindow.init Q capacity) calls)
    (hsends : calls.countP isSend < 2 ^ 32) :
    let w := calls.foldl WindowCall.apply (SenderWindow.init Q capacity)
    let n := calls.foldl applyNaive {}
    w.nextSequence = n.next ∧ w.base = n.base ∧
      w.base ≤ w.nextSequence ∧ w.nextSequence - w.base ≤ max 1 capacity ∧
      (∀ s, (w.onAck s).2 = (n.onAck s).2) ∧
      w.earliestDeadline.2 = n.earliestDeadline ∧
      (∀ now, ∃ ds : List (ℕ × TimePoint), (w.expire now).2 = ds.map Prod.fst ∧
        ds.Perm (n.due now) ∧ (w.expire now).2.Nodup ∧ ds.Pairwise fun p q => p.2 ≤ q.2) := by
  have h := (refines_init Q capacity).run hadm (by simpa using hsends)
  refine ⟨h.next_eq, h.base_eq, h.inv.base_le, ?_, h.onAck_eq, h.earliestDeadline_eq,
    fun now => ?_⟩
  · have hnext := h.inv.next_le
    have hcap := h.capacity_eq
    omega
  · obtain ⟨ds, hout, hperm, hsorted⟩ := h.expire_perm now
    refine ⟨ds, hout, hperm, ?_, hsorted⟩
    rw [hout, (hperm.map Prod.fst).nodup_iff]
    exact (((List.filter_sublist).map Prod.fst).trans (NaiveWindow.armed_keys_sublist _)).nodup
      h.keys_nodup

/-- A window of two: the first packet is acknowledged while the second one's timer runs out. -/
theorem senderWindow_refines_naive_two_packets :
    let Q : TimerQueue := sortedQueue TimerEntry TimerEntry.deadline
    let calls := [onSent 10, onSent 20, onAck 0, WindowCall.expire 25]
    Admissible (SenderWindow.init Q 2) calls ∧ calls.countP isSend < 2 ^ 32 ∧
      (calls.foldl WindowCall.apply (SenderWindow.init Q 2)).base = 1 ∧
      (calls.foldl WindowCall.apply (SenderWindow.init Q 2)).earliestDeadline.2 = none := by
  intro Q calls
  have hadm : Admissible (SenderWindow.init Q 2) calls := by decide
  have hsends : calls.countP isSend < 2 ^ 32 := by decide
  obtain ⟨-, hbase, -, -, -, hdeadline, -⟩ := senderWindow_refines_naive Q 2 calls hadm hsends
  exact ⟨hadm, hsends, hbase.trans (by decide), hdeadline.trans (by decide)⟩

end SwiftLink
