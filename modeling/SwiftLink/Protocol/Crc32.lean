import SwiftLink.Protocol.Packet
import Mathlib.Logic.Function.Iterate

/-!
# CRC-32

The table-driven CRC of `protocol/crc32.cpp`: reflected IEEE 802.3 polynomial, one table lookup
per byte, all-ones seed and final inversion.
-/

namespace SwiftLink.Crc32

/-- The reflected form of the IEEE 802.3 polynomial. -/
def kPolynomial : BitVec 32 := 0xEDB88320

/-- One turn of `make_table`'s inner loop. -/
def shiftBit (value : BitVec 32) : BitVec 32 :=
  if value &&& 1 ≠ 0 then (value >>> 1) ^^^ kPolynomial else value >>> 1

/-- `kTable[index]`, as `make_table` fills it: eight turns of the inner loop from `index`. -/
def kTable (index : Byte) : BitVec 32 :=
  shiftBit^[8] (index.setWidth 32)

/-- One byte: a table lookup on the low eight bits, xored into the shifted register. -/
def update (crc : BitVec 32) (b : Byte) : BitVec 32 :=
  kTable ((crc ^^^ b.setWidth 32).setWidth 8) ^^^ (crc >>> 8)

def crc32 (data : Bytes) : BitVec 32 :=
  data.foldl update 0xFFFFFFFF ^^^ 0xFFFFFFFF

/-- The loop of `crc32_excluding_checksum` from index `i` on: the four bytes at `checksumOffset`
count as zero. -/
def excludingLoop (checksumOffset : ℕ) : ℕ → BitVec 32 → Bytes → BitVec 32
  | _, crc, [] => crc
  | i, crc, b :: rest =>
      let inChecksum := checksumOffset ≤ i ∧ i < checksumOffset + 4
      excludingLoop checksumOffset (i + 1) (update crc (if inChecksum then 0 else b)) rest

def crc32ExcludingChecksum (packet : Bytes) (checksumOffset : ℕ) : BitVec 32 :=
  excludingLoop checksumOffset 0 0xFFFFFFFF packet ^^^ 0xFFFFFFFF

/-- The checksum's own four bytes do not reach the register. -/
lemma excludingLoop_congr (checksumOffset : ℕ) :
    ∀ (xs ys : Bytes) (i : ℕ) (crc : BitVec 32), xs.length = ys.length →
      (∀ j, ¬ (checksumOffset ≤ i + j ∧ i + j < checksumOffset + 4) → xs[j]? = ys[j]?) →
      excludingLoop checksumOffset i crc xs = excludingLoop checksumOffset i crc ys
  | [], [], _, _, _, _ => rfl
  | [], _ :: _, _, _, hlen, _ => by simp at hlen
  | _ :: _, [], _, _, hlen, _ => by simp at hlen
  | x :: xs, y :: ys, i, crc, hlen, hsame => by
      have hhead : (if checksumOffset ≤ i ∧ i < checksumOffset + 4 then 0 else x)
          = (if checksumOffset ≤ i ∧ i < checksumOffset + 4 then 0 else y) := by
        by_cases hin : checksumOffset ≤ i ∧ i < checksumOffset + 4
        · rw [if_pos hin, if_pos hin]
        · have hxy := hsame 0 (by simpa using hin)
          simp only [List.getElem?_cons_zero, Option.some.injEq] at hxy
          rw [hxy]
      simp only [excludingLoop, hhead]
      refine excludingLoop_congr checksumOffset xs ys (i + 1) _ (by simpa using hlen) ?_
      intro j hj
      have htail := hsame (j + 1) (by rwa [← Nat.add_assoc, Nat.add_right_comm])
      simpa using htail

/-- Two packets that differ only inside the checksum field have the same CRC. -/
lemma crc32ExcludingChecksum_congr {xs ys : Bytes} (checksumOffset : ℕ)
    (hlen : xs.length = ys.length)
    (hsame : ∀ j, ¬ (checksumOffset ≤ j ∧ j < checksumOffset + 4) → xs[j]? = ys[j]?) :
    crc32ExcludingChecksum xs checksumOffset = crc32ExcludingChecksum ys checksumOffset := by
  rw [crc32ExcludingChecksum, crc32ExcludingChecksum,
    excludingLoop_congr checksumOffset xs ys 0 _ hlen (by simpa using hsame)]

end SwiftLink.Crc32
