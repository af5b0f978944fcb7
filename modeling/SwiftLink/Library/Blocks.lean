import Mathlib.Data.List.Basic
import Mathlib.Data.Nat.Basic
import Mathlib.Tactic.Common

/-!
# Cutting a string into blocks

A string is its full blocks of `n` elements and a rest shorter than that.  A consumer that sees the
string in pieces keeps the rest of what it has seen, and the two lemmas it needs are about how the
next piece continues it: `blocks_append` and `rest_append`.
-/

namespace Blocks

variable {α : Type*} {n : ℕ} {l d : List α}

/-- The full blocks of a string. -/
def blocks (n : ℕ) (l : List α) : List (List α) :=
  (List.range (l.length / n)).map fun k => (l.drop (n * k)).take n

/-- What is behind the last full block. -/
def rest (n : ℕ) (l : List α) : List α :=
  l.drop (n * (l.length / n))

lemma rest_length : (rest n l).length = l.length % n := by
  rw [rest, List.length_drop, Nat.mod_eq_sub]

lemma blocks_of_lt (h : l.length < n) : blocks n l = [] := by
  rw [blocks, Nat.div_eq_of_lt h, List.range_zero, List.map_nil]

lemma rest_of_lt (h : l.length < n) : rest n l = l := by
  rw [rest, Nat.div_eq_of_lt h, Nat.mul_zero, List.drop_zero]

/-- Whole blocks in front stay blocks. -/
lemma blocks_append_of_dvd (hn : 0 < n) (h : n ∣ l.length) :
    blocks n (l ++ d) = blocks n l ++ blocks n d := by
  obtain ⟨q, hq⟩ := h
  have hdiv : (l ++ d).length / n = q + d.length / n := by
    rw [List.length_append, hq, Nat.mul_add_div hn]
  rw [blocks, hdiv, List.range_add, List.map_append, List.map_map]
  congr 1
  · rw [blocks, hq, Nat.mul_div_cancel_left q hn]
    refine List.map_congr_left fun k hk => ?_
    have hk : n * (k + 1) ≤ n * q := Nat.mul_le_mul_left n (List.mem_range.mp hk)
    rw [Nat.mul_succ] at hk
    rw [List.drop_append_of_le_length (by omega), List.take_append_of_le_length]
    rw [List.length_drop]
    omega
  · refine List.map_congr_left fun k _ => ?_
    rw [Function.comp_apply, Nat.mul_add, ← hq, ← List.drop_drop, List.drop_left]

lemma rest_append_of_dvd (hn : 0 < n) (h : n ∣ l.length) : rest n (l ++ d) = rest n d := by
  obtain ⟨q, hq⟩ := h
  rw [rest, List.length_append, hq, Nat.mul_add_div hn, Nat.mul_add, ← hq, ← List.drop_drop,
    List.drop_left, rest]

lemma blocks_of_length (hn : 0 < n) (h : l.length = n) : blocks n l = [l] := by
  simp [blocks, h, Nat.div_self hn, List.take_of_length_le]

/-- A string is whole blocks followed by its rest. -/
lemma exists_front (n : ℕ) (l : List α) : ∃ front, l = front ++ rest n l ∧ n ∣ front.length := by
  refine ⟨l.take (n * (l.length / n)), (List.take_append_drop _ l).symm, ?_⟩
  rw [List.length_take, Nat.min_eq_left (Nat.mul_div_le l.length n)]
  exact Nat.dvd_mul_right n _

/-- **The next piece continues the rest**: its first blocks are those of the rest and the piece. -/
lemma blocks_append (hn : 0 < n) (l d : List α) :
    blocks n (l ++ d) = blocks n l ++ blocks n (rest n l ++ d) := by
  obtain ⟨front, hl, hdvd⟩ := exists_front n l
  have hrest : blocks n (rest n l) = [] := blocks_of_lt (by rw [rest_length]; exact Nat.mod_lt _ hn)
  calc blocks n (l ++ d) = blocks n (front ++ (rest n l ++ d)) := by
        rw [← List.append_assoc, ← hl]
    _ = blocks n front ++ blocks n (rest n l ++ d) := blocks_append_of_dvd hn hdvd
    _ = blocks n l ++ blocks n (rest n l ++ d) := by
        conv_rhs => rw [hl, blocks_append_of_dvd hn hdvd, hrest, List.append_nil, ← hl]

/-- and the new rest is theirs. -/
lemma rest_append (hn : 0 < n) (l d : List α) : rest n (l ++ d) = rest n (rest n l ++ d) := by
  obtain ⟨front, hl, hdvd⟩ := exists_front n l
  calc rest n (l ++ d) = rest n (front ++ (rest n l ++ d)) := by rw [← List.append_assoc, ← hl]
    _ = rest n (rest n l ++ d) := rest_append_of_dvd hn hdvd

end Blocks
