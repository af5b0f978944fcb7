import SwiftLink.Library.BitString
import SwiftLink.Library.ShiftRegister
import SwiftLink.Protocol.Crc32
import Mathlib.Algebra.Order.Group.Nat

/-!
# The table-driven CRC is the bit-serial one

CRC-32 is defined on bits: a register of ones is fed the bits of the message, the least significant
bit of each byte first, through the reflected IEEE 802.3 polynomial, and is inverted at the end
(`bitSerial`).  `protocol/crc32.cpp` takes a byte at a time.

One byte is one table lookup because a step of the register is linear: eight steps of the register
are eight steps of its low octet, which the table holds, and the rest moved down eight places
(`iterate_step_eight`).  The octet is where the byte goes in, so the lookup feeds it whole
(`update_eq_run`).
-/

namespace SwiftLink

open BitString (bits byteBits)

namespace Crc32

open ShiftRegister (step run word)

/-! ## The table is a shift register -/

lemma kPolynomial_msb : kPolynomial.msb = true := by decide

lemma shiftBit_eq_step : shiftBit = step kPolynomial := by
  funext v
  have hbit : v &&& 1 ≠ 0 ↔ v.getLsbD 0 = true := by
    rw [show (1 : BitVec 32) = 1#32 from rfl, BitVec.and_one_eq_setWidth_ofBool_getLsbD]
    cases v.getLsbD 0 <;> decide
  simp only [shiftBit, step, hbit]

lemma word_byteBits (b : Byte) : word 32 (byteBits b) = b.setWidth 32 := by
  refine BitVec.eq_of_getLsbD_eq fun i hi => ?_
  rw [ShiftRegister.getLsbD_word, BitVec.getLsbD_setWidth]
  congr 1
  by_cases h8 : i < 8
  · simp [byteBits, h8]
  · rw [List.getD_eq_default _ _ (by simpa [byteBits] using h8),
      BitVec.getLsbD_of_ge b i (not_lt.mp h8)]

/-- Eight steps: those of the low octet, and the rest moved down eight places. -/
lemma iterate_step_eight (v : BitVec 32) :
    (step kPolynomial)^[8] v
      = (step kPolynomial)^[8] ((v.setWidth 8).setWidth 32) ^^^ (v >>> 8) := by
  have hsplit : v = (v.setWidth 8).setWidth 32 ^^^ ((v >>> 8) <<< 8) := by
    refine BitVec.eq_of_getLsbD_eq fun i hi => ?_
    by_cases h8 : i < 8
    · simp [h8, hi]
    · simp [h8, hi, show 8 + (i - 8) = i by omega]
  have hhigh : ∀ i, 32 ≤ i + 8 → (v >>> 8).getLsbD i = false := by
    intro i hi
    rw [BitVec.getLsbD_ushiftRight, BitVec.getLsbD_of_ge v _ (by omega)]
  calc (step kPolynomial)^[8] v
      = (step kPolynomial)^[8] ((v.setWidth 8).setWidth 32 ^^^ ((v >>> 8) <<< 8)) := by
          rw [← hsplit]
    _ = _ := by
          rw [ShiftRegister.iterate_step_xor, ShiftRegister.iterate_step_shiftLeft _ hhigh]

/-- **One table lookup is eight input bits.** -/
lemma update_eq_run (crc : BitVec 32) (b : Byte) :
    update crc b = run kPolynomial crc (byteBits b) := by
  have hshift : (crc ^^^ b.setWidth 32) >>> 8 = crc >>> 8 := by
    refine BitVec.eq_of_getLsbD_eq fun i hi => ?_
    rw [BitVec.getLsbD_ushiftRight, BitVec.getLsbD_ushiftRight, BitVec.getLsbD_xor,
      BitVec.getLsbD_setWidth, BitVec.getLsbD_of_ge b _ (by omega), Bool.and_false, Bool.xor_false]
  have hlen : (byteBits b).length = 8 := by simp [byteBits]
  rw [ShiftRegister.run_eq_iterate kPolynomial crc (by rw [hlen]; omega), hlen, word_byteBits,
    iterate_step_eight, hshift, update, kTable, shiftBit_eq_step]

lemma foldl_update_eq_run (data : Bytes) (crc : BitVec 32) :
    data.foldl update crc = run kPolynomial crc (bits data) := by
  induction data generalizing crc with
  | nil => rfl
  | cons b rest ih =>
      rw [List.foldl_cons, ih, update_eq_run, BitString.bits_cons, run, run, run, List.foldl_append]

/-- The packet as the CRC sees it: the four bytes at `checksumOffset` are zero. -/
def blank (checksumOffset : ℕ) (packet : Bytes) : Bytes :=
  packet.mapIdx fun i b => if checksumOffset ≤ i ∧ i < checksumOffset + 4 then 0 else b

lemma excludingLoop_eq_foldl (checksumOffset : ℕ) (packet : Bytes) (i : ℕ) (crc : BitVec 32) :
    excludingLoop checksumOffset i crc packet
      = (packet.mapIdx fun j b =>
          if checksumOffset ≤ i + j ∧ i + j < checksumOffset + 4 then 0 else b).foldl
            update crc := by
  induction packet generalizing i crc with
  | nil => rfl
  | cons b rest ih =>
      rw [excludingLoop, List.mapIdx_cons, List.foldl_cons]
      simp only [ih, Nat.add_zero, Nat.add_comm 1, Nat.add_assoc]

/-- **The checksum's own bytes count as zero**, those of them that exist. -/
lemma crc32ExcludingChecksum_eq_blank (packet : Bytes) (checksumOffset : ℕ) :
    crc32ExcludingChecksum packet checksumOffset = crc32 (blank checksumOffset packet) := by
  rw [crc32ExcludingChecksum, excludingLoop_eq_foldl, crc32, blank]
  simp only [Nat.zero_add]

/-- The CRC of a packet is what its blanked bits leave in the register. -/
lemma crc32ExcludingChecksum_eq_run (packet : Bytes) (checksumOffset : ℕ) :
    crc32ExcludingChecksum packet checksumOffset
      = run kPolynomial 0xFFFFFFFF (bits (blank checksumOffset packet)) ^^^ 0xFFFFFFFF := by
  rw [crc32ExcludingChecksum_eq_blank, crc32, foldl_update_eq_run]

/-- The code computes `checksum_offset + 4` in 64 bits.  The sum wraps for the last four offsets
only, which no index of a packet in memory reaches. -/
lemma inChecksum_wrap {packet : Bytes} (hmemory : packet.length ≤ 2 ^ 63) {checksumOffset i : ℕ}
    (hoffset : checksumOffset < 2 ^ 64) (hi : i < packet.length) :
    (checksumOffset ≤ i ∧ i < (checksumOffset + 4) % 2 ^ 64)
      ↔ (checksumOffset ≤ i ∧ i < checksumOffset + 4) := by
  omega

/-! ## The bit-serial definition -/

/-- **The reflected IEEE 802.3 CRC-32, bit by bit.**  The register starts with all ones; an input
bit is added at the bottom, everything moves down one place, and the polynomial is added if a one
falls out; the register is inverted at the end. -/
def bitSerial (data : Bytes) : BitVec 32 :=
  ~~~ run 0xEDB88320 (BitVec.allOnes 32) (bits data)

/-- The polynomial is x³² + x²⁶ + x²³ + x²² + x¹⁶ + x¹² + x¹¹ + x¹⁰ + x⁸ + x⁷ + x⁵ + x⁴ + x² + x
+ 1, with the coefficient of x³¹ at the bottom and that of x³² left out. -/
lemma kPolynomial_coefficients (i : Fin 32) :
    kPolynomial.getLsbD i
      = decide (31 - i.val ∈ [26, 23, 22, 16, 12, 11, 10, 8, 7, 5, 4, 2, 1, 0]) := by
  revert i
  decide

/-- `make_table` as a whole. -/
def makeTable : List (BitVec 32) := (List.range 256).map fun i => shiftBit^[8] (BitVec.ofNat 32 i)

/-- A lookup with a byte stays inside the table. -/
lemma makeTable_getElem (index : Byte) : makeTable[index.toNat]? = some (kTable index) := by
  have hlt : index.toNat < 256 := index.isLt
  have hindex : BitVec.ofNat 32 index.toNat = index.setWidth 32 := by
    refine BitVec.eq_of_toNat_eq ?_
    rw [BitVec.toNat_ofNat, BitVec.toNat_setWidth]
  rw [makeTable, List.getElem?_map, List.getElem?_range hlt, Option.map_some, hindex, kTable]

/-- **The table-driven CRC is the bit-serial one**, for every byte string; and the CRC of a packet
without its checksum is the CRC of the packet with zeros there, wherever that is.  Every lookup
finds what `make_table` has put in its place. -/
theorem crc32_is_bit_serial :
    (∀ data : Bytes, crc32 data = bitSerial data) ∧
    (∀ (packet : Bytes) (checksumOffset : ℕ),
      crc32ExcludingChecksum packet checksumOffset = crc32 (blank checksumOffset packet)) ∧
    ∀ index : Byte, makeTable[index.toNat]? = some (kTable index) := by
  refine ⟨fun data => ?_, crc32ExcludingChecksum_eq_blank, makeTable_getElem⟩
  have hones : (0xFFFFFFFF : BitVec 32) = BitVec.allOnes 32 := by decide
  rw [crc32, foldl_update_eq_run, bitSerial, kPolynomial, hones, BitVec.xor_allOnes]

/-- The check value of the standard. -/
example : crc32 (asciiBytes "123456789") = 0xCBF43926 := by decide +kernel

end Crc32

end SwiftLink
