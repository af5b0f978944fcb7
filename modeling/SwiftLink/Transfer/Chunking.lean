import SwiftLink.Transfer.Sender
import Mathlib.Algebra.Order.Floor.Div
import Mathlib.Order.Interval.Finset.Nat

/-!
# Cutting a file into chunks

Two pieces of code have to agree: `chunk_count`, which says how many chunks there are, and the loop
of `send_file` that fills the window, which works out where each of them starts and how long it is.
Both compute in 64 bits.

They agree as long as the rounding-up sum in `chunk_count` does not wrap.  When it does, the count
is zero, whatever the size of the file.
-/

namespace SwiftLink

/-! ## The arithmetic of the fill loop -/

/-- `static_cast<std::uint64_t>(sequence) * config.chunk_size`. -/
def fillOffset (chunkSize sequence : ℕ) : ℕ := sequence * chunkSize % 2 ^ 64

/-- `want`: what remains of the file, or a whole chunk if there is more. -/
def fillWant (fileSize chunkSize sequence : ℕ) : ℕ :=
  let remaining := (fileSize + 2 ^ 64 - fillOffset chunkSize sequence) % 2 ^ 64
  if remaining < chunkSize then remaining else chunkSize

/-- The bytes of the file that go into a chunk. -/
def fillRange (fileSize chunkSize sequence : ℕ) : Finset ℕ :=
  Finset.Ico (fillOffset chunkSize sequence)
    (fillOffset chunkSize sequence + fillWant fileSize chunkSize sequence)

namespace Job

/-- The sender's own offsets and lengths are these. -/
lemma chunkOffset_eq_fillOffset (job : Job) (sequence : ℕ) :
    job.chunkOffset sequence = fillOffset job.config.chunkSize sequence := rfl

lemma chunkWant_eq_fillWant (job : Job) (sequence : ℕ) :
    job.chunkWant sequence = fillWant job.fileSize job.config.chunkSize sequence := rfl

end Job

section Fill

variable {fileSize chunkSize s : ℕ}

/-- A chunk that starts inside the file is computed without wrapping. -/
lemma fillOffset_eq (hfile : fileSize < 2 ^ 64) (hs : s * chunkSize < fileSize) :
    fillOffset chunkSize s = s * chunkSize :=
  Nat.mod_eq_of_lt (hs.trans hfile)

lemma fillWant_eq (hfile : fileSize < 2 ^ 64) (hs : s * chunkSize < fileSize) :
    fillWant fileSize chunkSize s = min chunkSize (fileSize - s * chunkSize) := by
  have hremaining : (fileSize + 2 ^ 64 - s * chunkSize) % 2 ^ 64 = fileSize - s * chunkSize := by
    rw [show fileSize + 2 ^ 64 - s * chunkSize = fileSize - s * chunkSize + 2 ^ 64 by omega,
      Nat.add_mod_right, Nat.mod_eq_of_lt (by omega)]
  simp only [fillWant, fillOffset_eq hfile hs, hremaining]
  split_ifs <;> omega

/-- A byte is in the chunk its offset divides to. -/
lemma mem_fillRange (hfile : fileSize < 2 ^ 64) (hs : s * chunkSize < fileSize) {i : ℕ} :
    i ∈ fillRange fileSize chunkSize s ↔
      s * chunkSize ≤ i ∧ i < fileSize ∧ i < (s + 1) * chunkSize := by
  rw [fillRange, Finset.mem_Ico, fillOffset_eq hfile hs, fillWant_eq hfile hs, Nat.add_mul,
    Nat.one_mul]
  omega

end Fill

/-! ## Tiling -/

/-- The first `k` ranges of the fill loop tile the file, and no 64-bit computation wraps. -/
structure Tiles (fileSize chunkSize k : ℕ) : Prop where
  nonempty : ∀ s < k, 0 < fillWant fileSize chunkSize s
  ordered : ∀ s, s + 1 < k → fillOffset chunkSize s + fillWant fileSize chunkSize s
    ≤ fillOffset chunkSize (s + 1)
  disjoint : ∀ s < k, ∀ t < k, s ≠ t →
    Disjoint (fillRange fileSize chunkSize s) (fillRange fileSize chunkSize t)
  covers : ∀ i, (∃ s < k, i ∈ fillRange fileSize chunkSize s) ↔ i < fileSize
  sum_lt : fileSize + chunkSize - 1 < 2 ^ 64
  product_lt : ∀ s < k, s * chunkSize < 2 ^ 64
  offset_le : ∀ s < k, fillOffset chunkSize s ≤ fileSize

/-- `chunk_count` gives the true number of chunks, or refuses because it cannot be addressed, and
the fill loop cuts the file into that many. -/
structure ChunksExactly (fileSize chunkSize : ℕ) : Prop where
  refuses_iff : (∃ k, chunkCount fileSize chunkSize = some k) ↔
    fileSize ⌈/⌉ chunkSize ≤ 2 ^ 32 - 1
  counts : ∀ k, chunkCount fileSize chunkSize = some k →
    k = fileSize ⌈/⌉ chunkSize ∧ Tiles fileSize chunkSize k

section Count

variable {fileSize chunkSize k : ℕ}

/-- Where the sum does not wrap, the count is the ceiling or a refusal. -/
lemma chunkCount_eq (hpos : 0 < chunkSize) (hsum : fileSize + chunkSize ≤ 2 ^ 64) :
    chunkCount fileSize chunkSize =
      if fileSize ⌈/⌉ chunkSize ≤ 2 ^ 32 - 1 then some (fileSize ⌈/⌉ chunkSize) else none := by
  have hmod : (fileSize + chunkSize - 1) % 2 ^ 64 = fileSize + chunkSize - 1 :=
    Nat.mod_eq_of_lt (by omega)
  simp only [chunkCount, if_neg hpos.ne', hmod, Nat.ceilDiv_eq_add_pred_div]
  split_ifs <;> first | rfl | omega

/-- Where it wraps, the count is zero. -/
lemma chunkCount_of_wrap (hfile : fileSize < 2 ^ 64) (hchunk : chunkSize < 2 ^ 64)
    (hsum : 2 ^ 64 < fileSize + chunkSize) : chunkCount fileSize chunkSize = some 0 := by
  have hmod : (fileSize + chunkSize - 1) % 2 ^ 64 = fileSize + chunkSize - 1 - 2 ^ 64 := by
    rw [Nat.mod_eq_sub_mod (by omega), Nat.mod_eq_of_lt (by omega)]
  have hzero : (fileSize + chunkSize - 1 - 2 ^ 64) / chunkSize = 0 :=
    Nat.div_eq_of_lt (by omega)
  simp only [chunkCount, hmod, hzero]
  rw [if_neg (by omega), if_neg (by omega)]

/-- A chunk below the ceiling starts inside the file. -/
lemma mul_lt_of_lt_ceilDiv (hpos : 0 < chunkSize) {s : ℕ} (hs : s < fileSize ⌈/⌉ chunkSize) :
    s * chunkSize < fileSize := by
  by_contra hle
  rw [not_lt, Nat.mul_comm] at hle
  exact absurd ((ceilDiv_le_iff_le_mul hpos).mpr hle) (not_le.mpr hs)

/-- **The chunks tile the file.** -/
lemma tiles_ceilDiv (hpos : 0 < chunkSize) (hfile : fileSize < 2 ^ 64)
    (hsum : fileSize + chunkSize ≤ 2 ^ 64) :
    Tiles fileSize chunkSize (fileSize ⌈/⌉ chunkSize) := by
  have hstart : ∀ s < fileSize ⌈/⌉ chunkSize, s * chunkSize < fileSize :=
    fun s hs => mul_lt_of_lt_ceilDiv hpos hs
  refine ⟨fun s hs => ?_, fun s hs => ?_, fun s hs t ht hne => ?_, fun i => ⟨?_, fun hi => ?_⟩,
    by omega, fun s hs => (hstart s hs).trans hfile, fun s hs => ?_⟩
  · have hlt := hstart s hs
    rw [fillWant_eq hfile hlt]
    omega
  · have hnext := hstart (s + 1) hs
    have hlt := hstart s (by omega)
    rw [fillOffset_eq hfile hlt, fillOffset_eq hfile hnext, fillWant_eq hfile hlt, Nat.add_mul,
      Nat.one_mul]
    omega
  · -- a common byte would lie between the same two multiples of the chunk size
    rw [Finset.disjoint_left]
    intro i hi hi'
    obtain ⟨hlow, -, hhigh⟩ := (mem_fillRange hfile (hstart s hs)).mp hi
    obtain ⟨hlow', -, hhigh'⟩ := (mem_fillRange hfile (hstart t ht)).mp hi'
    have hst : s < t + 1 := Nat.lt_of_mul_lt_mul_right (lt_of_le_of_lt hlow hhigh')
    have hts : t < s + 1 := Nat.lt_of_mul_lt_mul_right (lt_of_le_of_lt hlow' hhigh)
    omega
  · rintro ⟨s, hs, hi⟩
    exact ((mem_fillRange hfile (hstart s hs)).mp hi).2.1
  · have hdiv : i / chunkSize * chunkSize ≤ i := Nat.div_mul_le_self i chunkSize
    have hmod : i < (i / chunkSize + 1) * chunkSize := by
      rw [Nat.mul_comm]
      exact Nat.lt_mul_div_succ i hpos
    refine ⟨i / chunkSize, ?_, (mem_fillRange hfile (hdiv.trans_lt hi)).mpr ⟨hdiv, hi, hmod⟩⟩
    by_contra hge
    have hall := (ceilDiv_le_iff_le_mul hpos).mp (not_lt.mp hge)
    rw [Nat.mul_comm] at hall
    omega
  · rw [fillOffset_eq hfile (hstart s hs)]
    exact (hstart s hs).le

end Count

/-- **Chunking is exact if and only if the rounding-up sum stays below `2 ^ 64`.**  Beyond it a
file that is not empty is given no chunk at all. -/
theorem chunking_exact_iff (fileSize chunkSize : ℕ) (hfile : fileSize < 2 ^ 64)
    (hchunk : chunkSize < 2 ^ 64) (hpos : 0 < chunkSize) :
    (ChunksExactly fileSize chunkSize ↔ fileSize + chunkSize ≤ 2 ^ 64) ∧
      (2 ^ 64 < fileSize + chunkSize →
        chunkCount fileSize chunkSize = some 0 ∧ 0 < fileSize ⌈/⌉ chunkSize) := by
  have hwrap : 2 ^ 64 < fileSize + chunkSize →
      chunkCount fileSize chunkSize = some 0 ∧ 0 < fileSize ⌈/⌉ chunkSize := by
    intro hsum
    refine ⟨chunkCount_of_wrap hfile hchunk hsum, Nat.pos_of_ne_zero fun hzero => ?_⟩
    have hempty := (ceilDiv_le_iff_le_mul (b := fileSize) hpos).mp hzero.le
    omega
  refine ⟨⟨fun hexact => ?_, fun hsum => ?_⟩, hwrap⟩
  · by_contra hsum
    obtain ⟨hcount, hceil⟩ := hwrap (not_le.mp hsum)
    have hzero := (hexact.counts 0 hcount).1
    omega
  · refine ⟨?_, fun k hk => ?_⟩
    · rw [chunkCount_eq hpos hsum]
      split_ifs with hle
      · exact ⟨fun _ => hle, fun _ => ⟨_, rfl⟩⟩
      · exact ⟨fun ⟨k, hk⟩ => by simp at hk, fun hle' => absurd hle' hle⟩
    · rw [chunkCount_eq hpos hsum] at hk
      split_ifs at hk with hle
      obtain rfl := Option.some.inj hk
      exact ⟨rfl, tiles_ceilDiv hpos hfile hsum⟩

/-- 2401 bytes in chunks of 1200. -/
theorem chunking_exact_three_chunks :
    chunkCount 2401 1200 = some 3 ∧ Tiles 2401 1200 3 := by
  have hexact := (chunking_exact_iff 2401 1200 (by norm_num) (by norm_num) (by norm_num)).1.mpr
    (by norm_num)
  exact ⟨by decide, (hexact.counts 3 (by decide)).2⟩

/-- The largest 64-bit size in chunks of two bytes: the count is zero, not a refusal. -/
theorem chunk_count_wraps :
    ¬ ∀ fileSize chunkSize : ℕ, fileSize < 2 ^ 64 → chunkSize < 2 ^ 64 → 0 < chunkSize →
      ChunksExactly fileSize chunkSize := by
  intro h
  have hexact := h (2 ^ 64 - 1) 2 (by norm_num) (by norm_num) (by norm_num)
  have hzero := (hexact.counts 0 (by decide)).1
  rw [Nat.ceilDiv_eq_add_pred_div] at hzero
  norm_num at hzero

end SwiftLink
