import SwiftLink.Transfer.ReceiverWindow
import Mathlib.Data.Finset.Card
import Mathlib.Order.Bounds.Basic

/-!
# The receiver's window as a set

A ring of bits, read modulo its length from a base that moves, stands for the set of all sequence
numbers ever stored.  The set only grows; the ring forgets nothing of it as long as the base has
not passed.

The sliding loop of `mark_received` has no bound in the source.  Every turn clears a bit of the
ring, so it stops after as many turns as there are bits set, wherever the base is and whatever the
ring holds.
-/

namespace SwiftLink

namespace ReceiverWindow

/-! ## The sliding loop stops -/

/-- The cells of the ring that are set. -/
def setBits (w : ReceiverWindow) : Finset ℕ :=
  (Finset.range w.capacity).filter fun i => w.received i = true

lemma setBits_card_le (w : ReceiverWindow) : w.setBits.card ≤ w.capacity := by
  have hle := Finset.card_filter_le (Finset.range w.capacity) fun i => w.received i = true
  rwa [Finset.card_range] at hle

/-- **A turn of the loop clears a bit.** -/
lemma setBits_stepBase {w : ReceiverWindow} (hcap : 0 < w.capacity)
    (hbit : w.received (w.base % w.capacity) = true) :
    w.stepBase.setBits.card + 1 = w.setBits.card := by
  have hmem : w.base % w.capacity ∈ w.setBits := by
    simp only [setBits, Finset.mem_filter, Finset.mem_range]
    exact ⟨Nat.mod_lt _ hcap, hbit⟩
  have herase : w.stepBase.setBits = w.setBits.erase (w.base % w.capacity) := by
    ext i
    simp only [setBits, stepBase, Finset.mem_filter, Finset.mem_erase, Function.update_apply]
    split_ifs with hi
    · simp [hi]
    · simp [hi]
  rw [herase, Finset.card_erase_add_one hmem]

/-- With as many turns as there are bits set, the loop ends by its own condition, and further turns
would change nothing. -/
lemma slide_stops {w : ReceiverWindow} (hcap : 0 < w.capacity) {fuel : ℕ}
    (hfuel : w.setBits.card ≤ fuel) :
    (slide fuel w).received ((slide fuel w).base % w.capacity) = false ∧
      ∀ more, slide (fuel + more) w = slide fuel w := by
  induction fuel generalizing w with
  | zero =>
      have hclear : w.received (w.base % w.capacity) = false := by
        by_contra hbit
        have hcard := setBits_stepBase hcap (by simpa using hbit)
        omega
      refine ⟨hclear, fun more => ?_⟩
      cases more with
      | zero => rfl
      | succ more =>
          rw [Nat.zero_add]
          simp only [slide, hclear, Bool.false_eq_true, if_false]
  | succ fuel ih =>
      by_cases hbit : w.received (w.base % w.capacity) = true
      · have hcard := setBits_stepBase hcap hbit
        have hturn : ∀ n, slide (n + 1) w = slide n w.stepBase := by
          intro n
          rw [slide, if_pos hbit]
          rfl
        obtain ⟨hclear, hmore⟩ := ih (w := w.stepBase) hcap (by omega)
        refine ⟨by rw [hturn]; exact hclear, fun more => ?_⟩
        rw [show fuel + 1 + more = fuel + more + 1 by omega, hturn, hturn, hmore]
      · have hstay : ∀ n, slide (n + 1) w = w := fun n => by rw [slide, if_neg hbit]
        refine ⟨by rw [hstay]; simpa using hbit, fun more => ?_⟩
        rw [show fuel + 1 + more = fuel + more + 1 by omega, hstay, hstay]

/-! ## The set a window stands for -/

/-- A call of `mark_received`, and the calls so far that took effect. -/
def record (state : ReceiverWindow × List ℕ) (sequence : BitVec 32) : ReceiverWindow × List ℕ :=
  (state.1.markReceived sequence.toNat,
    if state.1.classify sequence.toNat = .accepted then state.2 ++ [sequence.toNat] else state.2)

def recorded (capacity : BitVec 32) (calls : List (BitVec 32)) : ReceiverWindow × List ℕ :=
  calls.foldl record (init capacity, [])

lemma recorded_concat (capacity : BitVec 32) (calls : List (BitVec 32)) (sequence : BitVec 32) :
    recorded capacity (calls ++ [sequence]) = record (recorded capacity calls) sequence := by
  simp [recorded]

/-- **The window stands for the set** `stored`. -/
structure Represents (w : ReceiverWindow) (stored : List ℕ) : Prop where
  inv : w.Inv
  mem_iff : ∀ s, s ∈ stored ↔ w.Stored s
  nodup : stored.Nodup

/-- **A call keeps the set in step**: it adds what is accepted, and nothing otherwise. -/
lemma Represents.record {w : ReceiverWindow} {stored : List ℕ} (h : w.Represents stored)
    (sequence : BitVec 32) :
    (record (w, stored) sequence).1.Represents (record (w, stored) sequence).2 := by
  simp only [ReceiverWindow.record]
  by_cases haccepted : w.classify sequence.toNat = .accepted
  · rw [if_pos haccepted]
    obtain ⟨hinv, -, -, hstored⟩ := h.inv.markReceived haccepted
    refine ⟨hinv, fun s => ?_, ?_⟩
    · rw [List.mem_append, List.mem_singleton, h.mem_iff, hstored]
    · have hnew := (h.inv.classify_accepted_iff.mp haccepted).1
      rw [← h.mem_iff] at hnew
      refine List.nodup_append.mpr ⟨h.nodup, List.nodup_singleton _, fun s hs t ht => ?_⟩
      rw [List.mem_singleton.mp ht]
      exact ne_of_mem_of_not_mem hs hnew
  · rw [if_neg haccepted, markReceived, if_pos haccepted]
    exact h

/-- **Every reachable window stands for the set of the calls that took effect.** -/
lemma recorded_represents (capacity : BitVec 32) (calls : List (BitVec 32)) :
    (recorded capacity calls).1.Represents (recorded capacity calls).2 := by
  induction calls using List.reverseRecOn with
  | nil => exact ⟨init_inv capacity, by simp [recorded, not_stored_init], List.nodup_nil⟩
  | append_singleton calls sequence ih =>
      rw [recorded_concat]
      exact ih.record sequence

section Classify

variable {w : ReceiverWindow} {stored : List ℕ}

/-- The set has no gap below the base, and the base is not in it. -/
lemma Represents.isLeast_base (h : w.Represents stored) : IsLeast {n | n ∉ stored} w.base := by
  refine ⟨?_, fun n hn => ?_⟩
  · simp only [Set.mem_ofPred_eq, h.mem_iff]
    exact h.inv.base_spec.2
  · by_contra hlt
    exact hn ((h.mem_iff n).mpr (h.inv.base_spec.1 n (not_le.mp hlt)))

lemma Represents.lt_of_mem (h : w.Represents stored) {s : ℕ} (hs : s ∈ stored) :
    s < w.base + w.capacity := by
  rcases (h.mem_iff s).mp hs with hlt | ⟨hlt, -⟩
  · exact Nat.lt_add_right _ hlt
  · exact hlt

/-- **An open window answers from the set.** -/
lemma Represents.classify_eq (h : w.Represents stored) (hopen : w.Open) (s : ℕ) :
    w.classify s =
      if s ∈ stored then .duplicate else if s < w.base + w.capacity then .accepted
      else .outsideWindow := by
  by_cases hs : s ∈ stored
  · rw [if_pos hs]
    cases hclass : w.classify s with
    | duplicate => rfl
    | accepted =>
        have hnot := (h.inv.classify_accepted_iff.mp hclass).1
        exact absurd ((h.mem_iff s).mp hs) hnot
    | outsideWindow => exact absurd hclass (classify_of_open hopen (h.lt_of_mem hs))
  · rw [if_neg hs]
    have hnot : ¬ w.Stored s := fun hstored => hs ((h.mem_iff s).mpr hstored)
    split_ifs with hlt
    · refine h.inv.classify_accepted_iff.mpr ⟨hnot, ?_, hlt, hopen⟩
      by_contra hbelow
      exact hnot (Or.inl (not_le.mp hbelow))
    · cases hclass : w.classify s with
      | duplicate => exact absurd (stored_of_duplicate hclass) hnot
      | accepted => exact absurd (h.inv.classify_accepted_iff.mp hclass).2.2.1 hlt
      | outsideWindow => rfl

end Classify

end ReceiverWindow

open ReceiverWindow

/-- **`ReceiverWindow` refines a plain set.**  No call takes effect twice; in every reachable state
whose upper end does not wrap the base is the least number missing from the set of calls that took
effect, and `classify` answers from that set; and the sliding loop ends by itself on every ring. -/
theorem receiverWindow_refines_set (capacity : BitVec 32) (calls : List (BitVec 32)) :
    (recorded capacity calls).2.Nodup ∧
    let w := (recorded capacity calls).1
    let stored := (recorded capacity calls).2
    (w.base + w.capacity ≤ 2 ^ 32 - 1 →
      IsLeast {n | n ∉ stored} w.base ∧ (∀ s ∈ stored, s < w.base + w.capacity) ∧
        ∀ s : BitVec 32,
          (w.classify s.toNat = .duplicate ↔ s.toNat ∈ stored) ∧
          (w.classify s.toNat = .accepted ↔ s.toNat ∉ stored ∧ s.toNat < w.base + w.capacity) ∧
          (w.classify s.toNat = .outsideWindow ↔
            s.toNat ∉ stored ∧ w.base + w.capacity ≤ s.toNat)) ∧
    ∀ v : ReceiverWindow, 0 < v.capacity → ∀ fuel ≥ v.capacity,
      slide fuel v = slide v.capacity v ∧
        (slide v.capacity v).received ((slide v.capacity v).base % v.capacity) = false := by
  refine ⟨(recorded_represents capacity calls).nodup, ?_⟩
  intro w stored
  have hrep : w.Represents stored := recorded_represents capacity calls
  refine ⟨fun hroom => ?_, fun v hcap fuel hfuel => ?_⟩
  · have hopen : w.Open := by
      rw [Open]
      omega
    refine ⟨hrep.isLeast_base, fun s => hrep.lt_of_mem, fun s => ?_⟩
    have hin : s.toNat ∈ stored → s.toNat < w.base + w.capacity := hrep.lt_of_mem
    rw [hrep.classify_eq hopen]
    by_cases hs : s.toNat ∈ stored
    · simp [hs]
    · by_cases hlt : s.toNat < w.base + w.capacity
      · simp [hs, hlt]
      · simp [hs, hlt, not_lt.mp hlt]
  · obtain ⟨hclear, hmore⟩ := slide_stops hcap (setBits_card_le v)
    obtain ⟨more, rfl⟩ := Nat.exists_eq_add_of_le hfuel
    exact ⟨hmore more, hclear⟩

/-- A window of two in which chunk 1 has come before chunk 0, and chunk 3 too early. -/
theorem receiverWindow_refines_set_of_two :
    (recorded 2 [1, 3, 0]).2 = [1, 0] ∧ (recorded 2 [1, 3, 0]).1.classify 3 = .accepted := by
  have hroom : (recorded 2 [1, 3, 0]).1.base + (recorded 2 [1, 3, 0]).1.capacity ≤ 2 ^ 32 - 1 := by
    decide
  have hclass := ((receiverWindow_refines_set 2 [1, 3, 0]).2.1 hroom).2.2 3
  exact ⟨by decide, hclass.2.1.mpr (by decide)⟩

end SwiftLink
