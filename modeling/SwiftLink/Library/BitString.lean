import Mathlib.Data.List.Basic
import Mathlib.Data.List.GetD
import Mathlib.Tactic.Common

/-!
# Byte strings as bit strings

A byte string on a serial line is the string of its bits, the least significant bit of each byte
first.  `bitAt` reads one bit, `flipBit` inverts one, and `bits` is the whole string.  Byte strings
of one length that agree in every bit are equal (`ext_bitAt`), so how far two of them differ can be
said bit by bit.
-/

namespace BitString

/-- Bit `i` of a byte string. -/
def bitAt (bytes : List (BitVec 8)) (i : ℕ) : Bool :=
  (bytes.getD (i / 8) 0).getLsbD (i % 8)

/-- All bits of a byte string, in the order they go over the line. -/
def bits (bytes : List (BitVec 8)) : List Bool :=
  (List.range (8 * bytes.length)).map (bitAt bytes)

/-- The byte string with bit `i` inverted. -/
def flipBit (bytes : List (BitVec 8)) (i : ℕ) : List (BitVec 8) :=
  bytes.modify (i / 8) (· ^^^ (1#8 <<< (i % 8)))

/-- The bits of one byte. -/
def byteBits (b : BitVec 8) : List Bool :=
  (List.range 8).map b.getLsbD

@[simp] lemma bits_nil : bits [] = [] := rfl

lemma bitAt_cons_add (b : BitVec 8) (rest : List (BitVec 8)) (i : ℕ) :
    bitAt (b :: rest) (8 + i) = bitAt rest i := by
  rw [bitAt, bitAt, Nat.add_div_left i (by omega), Nat.add_mod_left, List.getD_cons_succ]

lemma bitAt_cons_of_lt (b : BitVec 8) (rest : List (BitVec 8)) {i : ℕ} (h : i < 8) :
    bitAt (b :: rest) i = b.getLsbD i := by
  rw [bitAt, Nat.div_eq_of_lt h, Nat.mod_eq_of_lt h, List.getD_cons_zero]

/-- The bits of the first byte come first. -/
lemma bits_cons (b : BitVec 8) (rest : List (BitVec 8)) :
    bits (b :: rest) = byteBits b ++ bits rest := by
  rw [bits, List.length_cons, Nat.mul_succ, Nat.add_comm, List.range_add, List.map_append,
    List.map_map]
  have hfirst : (List.range 8).map (bitAt (b :: rest)) = byteBits b :=
    List.map_congr_left fun i hi => bitAt_cons_of_lt b rest (List.mem_range.mp hi)
  have hrest : (List.range (8 * rest.length)).map (bitAt (b :: rest) ∘ (8 + ·)) = bits rest :=
    List.map_congr_left fun i _ => bitAt_cons_add b rest i
  rw [hfirst, hrest]

/-- Byte strings that agree in every bit are equal. -/
lemma ext_bitAt {xs ys : List (BitVec 8)} (hlen : xs.length = ys.length)
    (hbits : ∀ i < 8 * xs.length, bitAt xs i = bitAt ys i) : xs = ys := by
  refine List.ext_getElem hlen fun k hk hk' => ?_
  refine BitVec.eq_of_getLsbD_eq fun j hj => ?_
  have hbit := hbits (8 * k + j) (by omega)
  rw [bitAt, bitAt, show (8 * k + j) / 8 = k by omega, show (8 * k + j) % 8 = j by omega,
    List.getD_eq_getElem _ _ hk, List.getD_eq_getElem _ _ hk'] at hbit
  exact hbit

@[simp] lemma flipBit_length (bytes : List (BitVec 8)) (i : ℕ) :
    (flipBit bytes i).length = bytes.length := by
  simp [flipBit]

/-- **A flip inverts its bit and no other.** -/
lemma bitAt_flipBit {bytes : List (BitVec 8)} {i : ℕ} (hi : i < 8 * bytes.length) (j : ℕ) :
    bitAt (flipBit bytes i) j = (bitAt bytes j ^^ decide (j = i)) := by
  have hmask : ∀ r < 8, ∀ q < 8, (1#8 <<< r).getLsbD q = decide (q = r) := by decide
  rw [bitAt, bitAt, flipBit]
  by_cases hbyte : j / 8 = i / 8
  · have hlt : j / 8 < bytes.length := by omega
    rw [List.getD_eq_getElem _ _ (by simpa using hlt), List.getD_eq_getElem _ _ hlt,
      List.getElem_modify, if_pos hbyte.symm, BitVec.getLsbD_xor,
      hmask _ (Nat.mod_lt i (by omega)) _ (Nat.mod_lt j (by omega))]
    congr 1
    exact decide_eq_decide.mpr (by omega)
  · have hne : ¬ j = i := fun h => hbyte (by rw [h])
    rw [decide_eq_false hne, Bool.xor_false, List.getD_eq_getElem?_getD,
      List.getElem?_modify_ne _ _ (Ne.symm hbyte), ← List.getD_eq_getElem?_getD]

end BitString
