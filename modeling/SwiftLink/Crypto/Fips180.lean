import SwiftLink.Library.Blocks
import SwiftLink.Crypto.Sha256
import Mathlib.Data.Nat.Prime.Basic
import Mathlib.Data.Nat.Find
import Mathlib.Data.List.GetD

/-!
# SHA-256 as the standard states it

FIPS 180-4, written down from the standard and not from the code: the logical functions, the
constants as fractional parts of roots of primes, the message schedule as a recurrence, the
compression of one block, and the padding of a whole message.

The second half compares the code's compression function with it, part by part: its rotation, its
table of constants, its schedule loop, its rounds (`compress_eq`).  The padding has no counterpart
to compare with here: the code never sees the whole message, which is what the incremental hasher is
about.
-/

namespace SwiftLink

namespace Fips180

open Sha256 (Words)

/-! ## Functions and constants -/

def rotr (n : ℕ) (x : BitVec 32) : BitVec 32 := x.rotateRight n

def ch (x y z : BitVec 32) : BitVec 32 := (x &&& y) ^^^ (~~~ x &&& z)

def maj (x y z : BitVec 32) : BitVec 32 := (x &&& y) ^^^ (x &&& z) ^^^ (y &&& z)

def bigSigma0 (x : BitVec 32) : BitVec 32 := rotr 2 x ^^^ rotr 13 x ^^^ rotr 22 x

def bigSigma1 (x : BitVec 32) : BitVec 32 := rotr 6 x ^^^ rotr 11 x ^^^ rotr 25 x

def smallSigma0 (x : BitVec 32) : BitVec 32 := rotr 7 x ^^^ rotr 18 x ^^^ (x >>> 3)

def smallSigma1 (x : BitVec 32) : BitVec 32 := rotr 17 x ^^^ rotr 19 x ^^^ (x >>> 10)

/-- The first sixty-four primes. -/
def primes : List ℕ := (List.range 312).filter Nat.Prime

/-- The first 32 bits of the fractional part of the `k`-th root of `p`: the last 32 bits of the
integer part of that root times 2³². -/
def rootFraction (k p : ℕ) : BitVec 32 :=
  BitVec.ofNat 32 (Nat.findGreatest (fun n => n ^ k ≤ p * 2 ^ (32 * k)) (p * 2 ^ 32))

/-- `K_t`. -/
def roundConstant (t : ℕ) : BitVec 32 := rootFraction 3 (primes.getD t 0)

/-- `H⁽⁰⁾`. -/
def initialHash : Words where
  a := rootFraction 2 (primes.getD 0 0)
  b := rootFraction 2 (primes.getD 1 0)
  c := rootFraction 2 (primes.getD 2 0)
  d := rootFraction 2 (primes.getD 3 0)
  e := rootFraction 2 (primes.getD 4 0)
  f := rootFraction 2 (primes.getD 5 0)
  g := rootFraction 2 (primes.getD 6 0)
  h := rootFraction 2 (primes.getD 7 0)

/-! ## One block -/

/-- `M_t`: the `t`-th 32-bit word of a block. -/
def messageWord (block : Bytes) (t : ℕ) : BitVec 32 :=
  block.getD (4 * t) 0 ++ block.getD (4 * t + 1) 0 ++ block.getD (4 * t + 2) 0 ++
    block.getD (4 * t + 3) 0

/-- `W_t`: the message schedule. -/
def scheduled (block : Bytes) (t : ℕ) : BitVec 32 :=
  if t < 16 then messageWord block t
  else smallSigma1 (scheduled block (t - 2)) + scheduled block (t - 7) +
    smallSigma0 (scheduled block (t - 15)) + scheduled block (t - 16)
termination_by t

/-- The assignments for one value of `t`. -/
def hashRound (block : Bytes) (v : Words) (t : ℕ) : Words :=
  let t1 := v.h + bigSigma1 v.e + ch v.e v.f v.g + roundConstant t + scheduled block t
  let t2 := bigSigma0 v.a + maj v.a v.b v.c
  { a := t1 + t2, b := v.a, c := v.b, d := v.c, e := v.d + t1, f := v.e, g := v.f, h := v.g }

/-- The intermediate hash value after one block. -/
def hashBlock (hash : Words) (block : Bytes) : Words :=
  let v := (List.range 64).foldl (hashRound block) hash
  { a := v.a + hash.a, b := v.b + hash.b, c := v.c + hash.c, d := v.d + hash.d
    e := v.e + hash.e, f := v.f + hash.f, g := v.g + hash.g, h := v.h + hash.h }

/-! ## A message -/

/-- The number of zero bytes in the padding: as few as bring the message and the marker to eight
bytes before a block boundary. -/
def padZeros (length : ℕ) : ℕ := (64 - (length + 9) % 64) % 64

/-- The padded message. -/
def pad (message : Bytes) : Bytes :=
  message ++ [0x80] ++ List.replicate (padZeros message.length) 0 ++
    be64 (BitVec.ofNat 64 (8 * message.length))

/-- The message digest. -/
def digest (message : Bytes) : Bytes :=
  let hash := (Blocks.blocks 64 (pad message)).foldl hashBlock initialHash
  be32 hash.a ++ be32 hash.b ++ be32 hash.c ++ be32 hash.d ++ be32 hash.e ++ be32 hash.f ++
    be32 hash.g ++ be32 hash.h

/-- The padding is the least that ends on a block boundary. -/
lemma padZeros_spec (length : ℕ) :
    (length + 1 + padZeros length + 8) % 64 = 0 ∧
      ∀ k, (length + 1 + k + 8) % 64 = 0 → padZeros length ≤ k := by
  constructor
  · rw [padZeros]
    omega
  · intro k hk
    rw [padZeros]
    omega

/-! ## The code's constants -/

/-- Below 18² a composite has a divisor below 18. -/
lemma prime_iff_of_lt {n : ℕ} (h : n < 312) :
    Nat.Prime n ↔ 2 ≤ n ∧ ∀ m < 18, 2 ≤ m → m < n → ¬ m ∣ n := by
  constructor
  · intro hp
    refine ⟨hp.two_le, fun m _ h2 hlt hdvd => ?_⟩
    rcases hp.eq_one_or_self_of_dvd m hdvd with rfl | rfl
    · exact absurd h2 (by omega)
    · exact absurd hlt (lt_irrefl _)
  · rintro ⟨h2, hsmall⟩
    refine Nat.prime_def_le_sqrt.mpr ⟨h2, fun m h2m hle => ?_⟩
    have hsq : m * m ≤ n := Nat.le_sqrt.mp hle
    have h18 : m < 18 := by
      by_contra hge
      have := Nat.mul_le_mul (not_lt.mp hge) (not_lt.mp hge)
      omega
    have hlt : m < n := by
      have := Nat.mul_le_mul_right m h2m
      omega
    exact hsmall m h18 h2m hlt

lemma primes_eq : primes =
    [2, 3, 5, 7, 11, 13, 17, 19, 23, 29, 31, 37, 41, 43, 47, 53, 59, 61, 67, 71, 73, 79, 83, 89,
      97, 101, 103, 107, 109, 113, 127, 131, 137, 139, 149, 151, 157, 163, 167, 173, 179, 181, 191,
      193, 197, 199, 211, 223, 227, 229, 233, 239, 241, 251, 257, 263, 269, 271, 277, 281, 283, 293,
      307, 311] := by
  have htest : primes = (List.range 312).filter
      fun n => 2 ≤ n ∧ ∀ m < 18, 2 ≤ m → m < n → ¬ m ∣ n := by
    refine List.filter_congr fun n hn => ?_
    exact decide_eq_decide.mpr (prime_iff_of_lt (List.mem_range.mp hn))
  rw [htest]
  decide +kernel

/-- A constant is recognised by its integer part and by the two powers around it. -/
lemma rootFraction_eq {k p whole : ℕ} {c : BitVec 32} (hk : k ≠ 0)
    (hle : (whole * 2 ^ 32 + c.toNat) ^ k ≤ p * 2 ^ (32 * k))
    (hlt : p * 2 ^ (32 * k) < (whole * 2 ^ 32 + c.toNat + 1) ^ k) : rootFraction k p = c := by
  have hroot : Nat.findGreatest (fun n => n ^ k ≤ p * 2 ^ (32 * k)) (p * 2 ^ 32)
      = whole * 2 ^ 32 + c.toNat := by
    refine Nat.findGreatest_eq_iff.mpr ⟨?_, fun _ => hle, fun n hn _ hpow => ?_⟩
    · have hbound : (whole * 2 ^ 32 + c.toNat) ^ k ≤ (p * 2 ^ 32) ^ k := by
        rw [Nat.mul_pow, ← Nat.pow_mul]
        exact le_trans hle (Nat.mul_le_mul_right _ (Nat.le_self_pow hk p))
      exact (Nat.pow_le_pow_iff_left hk).mp hbound
    · have := Nat.pow_le_pow_left (Nat.succ_le_of_lt hn) k
      exact absurd (lt_of_lt_of_le hlt this) (not_lt.mpr hpow)
  rw [rootFraction, hroot]
  apply BitVec.eq_of_toNat_eq
  rw [BitVec.toNat_ofNat, Nat.mul_comm, Nat.mul_add_mod, Nat.mod_eq_of_lt c.isLt]

/-- **The table of round constants** holds the cube roots of the primes. -/
lemma kRoundConstants_eq : Sha256.kRoundConstants = (List.range 64).map roundConstant := by
  have hcheck : ∀ t < 64, ∃ whole < 7,
      (whole * 2 ^ 32 + (Sha256.kRoundConstants.getD t 0).toNat) ^ 3
        ≤ primes.getD t 0 * 2 ^ (32 * 3) ∧
      primes.getD t 0 * 2 ^ (32 * 3)
        < (whole * 2 ^ 32 + (Sha256.kRoundConstants.getD t 0).toNat + 1) ^ 3 := by
    rw [primes_eq]
    decide +kernel
  refine List.ext_getElem (by rw [List.length_map, List.length_range]; rfl) fun t ht _ => ?_
  obtain ⟨whole, -, hle, hlt⟩ := hcheck t ht
  rw [List.getElem_map, List.getElem_range, roundConstant,
    rootFraction_eq (by decide) hle hlt, List.getD_eq_getElem _ _ ht]

/-- The initial state holds the square roots of the first eight. -/
lemma initialState_eq : Sha256.initialState = initialHash := by
  have hroot : ∀ {t : ℕ} {c : BitVec 32} (whole : ℕ),
      (whole * 2 ^ 32 + c.toNat) ^ 2 ≤ primes.getD t 0 * 2 ^ (32 * 2) →
      primes.getD t 0 * 2 ^ (32 * 2) < (whole * 2 ^ 32 + c.toNat + 1) ^ 2 →
      c = rootFraction 2 (primes.getD t 0) :=
    fun whole hle hlt => (rootFraction_eq (by decide) hle hlt).symm
  rw [Sha256.initialState, initialHash, Sha256.Words.mk.injEq]
  rw [primes_eq] at *
  refine ⟨hroot 1 ?_ ?_, hroot 1 ?_ ?_, hroot 2 ?_ ?_, hroot 2 ?_ ?_, hroot 3 ?_ ?_, hroot 3 ?_ ?_,
    hroot 4 ?_ ?_, hroot 4 ?_ ?_⟩
  all_goals decide +kernel

/-! ## The code's compression function -/

lemma rotateRight_eq {n : ℕ} (hn : n < 32) (x : BitVec 32) :
    Sha256.rotateRight x n = rotr n x := by
  rw [rotr, BitVec.rotateRight, Nat.mod_eq_of_lt hn]
  rfl

/-- A word read from the block, most significant byte first. -/
lemma readBe32_eq_messageWord (block : Bytes) (t : ℕ) :
    readBe32 block (4 * t) = messageWord block t := by
  simp only [readBe32, messageWord, byteAt]
  generalize block.getD (4 * t) 0 = b0
  generalize block.getD (4 * t + 1) 0 = b1
  generalize block.getD (4 * t + 2) 0 = b2
  generalize block.getD (4 * t + 3) 0 = b3
  refine BitVec.eq_of_getLsbD_eq fun i hi => ?_
  grind

/-- **The schedule loop** computes the recurrence. -/
lemma schedule_eq (block : Bytes) :
    Sha256.schedule block = (List.range 64).map (scheduled block) := by
  have hloop : ∀ k, (List.range k).foldl (fun w i => w ++ [Sha256.scheduleWord w (i + 16)])
      ((List.range 16).map fun i => readBe32 block (4 * i))
        = (List.range (k + 16)).map (scheduled block) := by
    intro k
    induction k with
    | zero =>
        refine List.map_congr_left fun t ht => ?_
        rw [readBe32_eq_messageWord, scheduled, if_pos (List.mem_range.mp ht)]
    | succ k ih =>
        -- the words the loop looks back at are all in the part already computed
        have hback : ∀ j, 0 < j → j ≤ 16 →
            ((List.range (k + 16)).map (scheduled block)).getD (k + 16 - j) 0
              = scheduled block (k + 16 - j) := by
          intro j hpos hle
          rw [List.getD_eq_getElem _ _ (by simp; omega), List.getElem_map, List.getElem_range]
        rw [List.range_succ (n := k), List.foldl_append, ih, List.foldl_cons, List.foldl_nil,
          show k + 1 + 16 = (k + 16) + 1 by omega, List.range_succ (n := k + 16), List.map_append]
        congr 1
        rw [List.map_singleton, Sha256.scheduleWord, scheduled, if_neg (by omega)]
        simp only [hback 15 (by norm_num) (by norm_num), hback 2 (by norm_num) (by norm_num),
          hback 16 (by norm_num) (by norm_num), hback 7 (by norm_num) (by norm_num),
          rotateRight_eq (show 7 < 32 by norm_num), rotateRight_eq (show 18 < 32 by norm_num),
          rotateRight_eq (show 17 < 32 by norm_num), rotateRight_eq (show 19 < 32 by norm_num),
          smallSigma0, smallSigma1]
        congr 1
        ac_rfl
  rw [Sha256.schedule, hloop]

lemma round_eq (block : Bytes) (v : Words) (t : ℕ) :
    Sha256.round v (roundConstant t) (scheduled block t) = hashRound block v t := by
  simp only [Sha256.round, hashRound, rotateRight_eq (show 6 < 32 by norm_num),
    rotateRight_eq (show 11 < 32 by norm_num), rotateRight_eq (show 25 < 32 by norm_num),
    rotateRight_eq (show 2 < 32 by norm_num), rotateRight_eq (show 13 < 32 by norm_num),
    rotateRight_eq (show 22 < 32 by norm_num), bigSigma0, bigSigma1, ch, maj]

/-- **The code's compression function is the standard's.** -/
lemma compress_eq (state : Words) (block : Bytes) :
    Sha256.compress state block = hashBlock state block := by
  have hrounds : (Sha256.kRoundConstants.zip (Sha256.schedule block)).foldl
      (fun s kw => Sha256.round s kw.1 kw.2) state
        = (List.range 64).foldl (hashRound block) state := by
    rw [kRoundConstants_eq, schedule_eq, List.zip_map', List.foldl_map]
    simp only [round_eq]
  simp only [Sha256.compress, hashBlock, hrounds, BitVec.add_comm state.a, BitVec.add_comm state.b,
    BitVec.add_comm state.c, BitVec.add_comm state.d, BitVec.add_comm state.e,
    BitVec.add_comm state.f, BitVec.add_comm state.g, BitVec.add_comm state.h]

end Fips180

end SwiftLink
