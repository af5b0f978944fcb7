import Mathlib.Data.Multiset.Basic
import Mathlib.Data.Multiset.AddSub
import Mathlib.Data.List.Sort
import Mathlib.Tactic.Common

/-!
# Priority queues, by their contract

`PriorityQueue α lt` is any correct max-heap for the comparison `lt`, in the sense of
`std::priority_queue`: what is inside is a multiset, `top` shows an element no other element is
above, `pop` removes the one `top` shows.  Which of several equal elements comes first is left
open, so a proof over an arbitrary `PriorityQueue` holds whatever the heap does with ties.

`sortedQueue` is one such heap, for a comparison that reads a key.
-/

/-- A correct max-heap for `lt`. -/
structure PriorityQueue (α : Type) (lt : α → α → Prop) where
  Carrier : Type
  empty : Carrier
  push : Carrier → α → Carrier
  top : Carrier → Option α
  pop : Carrier → Carrier
  contents : Carrier → Multiset α
  contents_empty : contents empty = 0
  contents_push : ∀ q a, contents (push q a) = a ::ₘ contents q
  top_none : ∀ q, top q = none → contents q = 0
  top_max : ∀ q a, top q = some a → ∀ b ∈ contents q, ¬ lt a b
  contents_pop : ∀ q a, top q = some a → contents q = a ::ₘ contents (pop q)

namespace PriorityQueue

variable {α : Type} {lt : α → α → Prop} (Q : PriorityQueue α lt)

/-- `size()`. -/
def size (q : Q.Carrier) : ℕ := (Q.contents q).card

lemma top_mem {q : Q.Carrier} {a : α} (h : Q.top q = some a) : a ∈ Q.contents q := by
  rw [Q.contents_pop q a h]
  exact Multiset.mem_cons_self _ _

lemma size_pop {q : Q.Carrier} {a : α} (h : Q.top q = some a) :
    Q.size q = Q.size (Q.pop q) + 1 := by
  rw [size, Q.contents_pop q a h, Multiset.card_cons]
  rfl

lemma contents_pop_le {q : Q.Carrier} {a : α} (h : Q.top q = some a) :
    Q.contents (Q.pop q) ≤ Q.contents q := by
  rw [Q.contents_pop q a h]
  exact Multiset.le_cons_self _ _

/-- Pushing several elements adds them all. -/
lemma contents_foldl_push (q : Q.Carrier) (added : List α) :
    Q.contents (added.foldl Q.push q) = Q.contents q + (added : Multiset α) := by
  induction added generalizing q with
  | nil => rw [List.foldl_nil, Multiset.coe_nil, Multiset.add_zero]
  | cons a added ih =>
      rw [List.foldl_cons, ih, Q.contents_push, ← Multiset.cons_coe, Multiset.cons_add,
        Multiset.add_cons]

/-- **A queue whose contents are a list in strict order is that list**: its head is on top, and
popping leaves its tail. -/
lemma top_of_sorted {q : Q.Carrier} {a : α} {rest : List α}
    (hcontents : Q.contents q = (a :: rest : List α)) (hsorted : ∀ b ∈ rest, lt b a) :
    Q.top q = some a ∧ Q.contents (Q.pop q) = (rest : List α) := by
  have htop : Q.top q = some a := by
    cases h : Q.top q with
    | none =>
        have hempty := Q.top_none q h
        rw [hcontents] at hempty
        simp at hempty
    | some b =>
        have hmem := Q.top_mem h
        rw [hcontents, Multiset.mem_coe, List.mem_cons] at hmem
        rcases hmem with rfl | hb
        · rfl
        · -- the element on top is above none, the head included
          have ha : a ∈ Q.contents q := by
            rw [hcontents]
            exact List.mem_cons_self
          exact absurd (hsorted b hb) (Q.top_max q b h a ha)
  refine ⟨htop, ?_⟩
  have hpop := Q.contents_pop q a htop
  rw [hcontents, ← Multiset.cons_coe] at hpop
  exact (Multiset.cons_inj_right a).mp hpop.symm

lemma top_of_nil {q : Q.Carrier} (hcontents : Q.contents q = 0) : Q.top q = none := by
  cases h : Q.top q with
  | none => rfl
  | some a =>
      have hmem := Q.top_mem h
      rw [hcontents] at hmem
      simp at hmem

end PriorityQueue

/-- A priority queue kept as a sorted list: smallest key on top. -/
def sortedQueue (α : Type) (key : α → ℤ) : PriorityQueue α (fun a b => key b < key a) where
  Carrier := { l : List α // l.Pairwise fun a b => key a ≤ key b }
  empty := ⟨[], List.Pairwise.nil⟩
  push q a := ⟨q.1.orderedInsert (fun a b => key a ≤ key b) a,
    List.Pairwise.orderedInsert (r := fun a b => key a ≤ key b) a q.1 q.2⟩
  top q := q.1.head?
  pop q := ⟨q.1.tail, q.2.tail⟩
  contents q := q.1
  contents_empty := rfl
  contents_push q a := Multiset.coe_eq_coe.mpr (List.perm_orderedInsert _ a q.1)
  top_none q h := by
    have : q.1 = [] := by simpa using h
    simp [this]
  top_max := by
    rintro ⟨l, hl⟩ a h b hb
    cases l with
    | nil => simp at h
    | cons x rest =>
        obtain rfl : x = a := by simpa using h
        rw [Multiset.mem_coe, List.mem_cons] at hb
        rcases hb with rfl | hb
        · exact lt_irrefl _
        · exact not_lt.mpr (List.rel_of_pairwise_cons hl hb)
  contents_pop := by
    rintro ⟨l, hl⟩ a h
    cases l with
    | nil => simp at h
    | cons x rest =>
        obtain rfl : x = a := by simpa using h
        rfl

section OrderedList

variable {α : Type} (lt : α → α → Prop) [DecidableRel lt]
  [Std.Total fun a b => ¬ lt a b] [IsTrans α fun a b => ¬ lt a b]

/-- A priority queue kept as a list in descending order, for any comparison that never puts two
elements below each other. -/
def orderedQueue : PriorityQueue α lt where
  Carrier := { l : List α // l.Pairwise fun a b => ¬ lt a b }
  empty := ⟨[], List.Pairwise.nil⟩
  push q a := ⟨q.1.orderedInsert (fun a b => ¬ lt a b) a,
    List.Pairwise.orderedInsert (r := fun a b => ¬ lt a b) a q.1 q.2⟩
  top q := q.1.head?
  pop q := ⟨q.1.tail, q.2.tail⟩
  contents q := q.1
  contents_empty := rfl
  contents_push q a := Multiset.coe_eq_coe.mpr (List.perm_orderedInsert _ a q.1)
  top_none q h := by
    have : q.1 = [] := by simpa using h
    simp [this]
  top_max := by
    rintro ⟨l, hl⟩ a h b hb
    cases l with
    | nil => simp at h
    | cons x rest =>
        obtain rfl : x = a := by simpa using h
        rw [Multiset.mem_coe, List.mem_cons] at hb
        rcases hb with rfl | hb
        · exact (or_self_iff.mp (Std.Total.total (r := fun a b => ¬ lt a b) b b))
        · exact List.rel_of_pairwise_cons hl hb
  contents_pop := by
    rintro ⟨l, hl⟩ a h
    cases l with
    | nil => simp at h
    | cons x rest =>
        obtain rfl : x = a := by simpa using h
        rfl

end OrderedList
