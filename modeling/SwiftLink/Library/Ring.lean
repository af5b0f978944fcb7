import Mathlib.Data.Nat.ModEq
import Mathlib.Tactic.Common

/-!
# Windows in a ring

A ring of `capacity` cells indexed by `n % capacity` holds a window of that many consecutive
numbers without two of them sharing a cell.
-/

namespace Ring

/-- **No aliasing inside a window.**  Two numbers of a window as long as the ring that share a
cell are equal. -/
lemma eq_of_mod_eq {base capacity m n : ℕ} (hm : base ≤ m) (hm' : m < base + capacity)
    (hn : base ≤ n) (hn' : n < base + capacity) (h : m % capacity = n % capacity) : m = n := by
  rcases le_total m n with hle | hle
  · have hzero : (n - m) % capacity = 0 := Nat.sub_mod_eq_zero_of_mod_eq h.symm
    rw [Nat.mod_eq_of_lt (by omega)] at hzero
    omega
  · have hzero : (m - n) % capacity = 0 := Nat.sub_mod_eq_zero_of_mod_eq h
    rw [Nat.mod_eq_of_lt (by omega)] at hzero
    omega

/-- One full turn later the same cell comes round again, and not earlier. -/
lemma mod_ne_of_lt {base capacity m n : ℕ} (hm : base ≤ m) (hmn : m < n)
    (hn : n < base + capacity) : m % capacity ≠ n % capacity := by
  intro h
  have := eq_of_mod_eq hm (by omega) (by omega) hn h
  omega

end Ring
