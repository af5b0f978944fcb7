import Mathlib.Data.List.Basic
import Mathlib.Data.List.GetD
import Mathlib.Data.List.Pairwise
import Mathlib.Algebra.BigOperators.Group.List.Basic
import Mathlib.Order.Interval.Finset.Nat
import Mathlib.Algebra.Order.BigOperators.Group.List
import Mathlib.Algebra.Order.Group.Nat
import Mathlib.Algebra.GroupWithZero.Nat
import Mathlib.Tactic.Common

/-!
# Files under positional writes

A file under positional I/O is a list with a fill element: reading past the end gives the fill,
writing past the end fills the gap.  `overwrite` is one positional write, `writeAll` a history of
them, and a file is determined by its length and by what is read at each index (`ext_getD`).

The second half is the counting behind "is the file complete": byte ranges inside `[0, n)` whose
lengths add up to `n` cover `[0, n)` exactly when no two of them overlap
(`covers_iff_pairwise_disjoint`).
-/

namespace ByteFile

variable {α : Type*} (z : α)

/-- One positional write of `bytes` at `off`.  Writing nothing changes nothing, not even the
length; writing past the end fills the gap with `z`. -/
def overwrite (data : List α) (off : ℕ) (bytes : List α) : List α :=
  match bytes with
  | [] => data
  | _ => data.take off ++ List.replicate (off - data.length) z ++ bytes ++
      data.drop (off + bytes.length)

@[simp] lemma overwrite_nil (data : List α) (off : ℕ) : overwrite z data off [] = data := rfl

lemma overwrite_of_ne_nil {bytes : List α} (hne : bytes ≠ []) (data : List α) (off : ℕ) :
    overwrite z data off bytes = data.take off ++ List.replicate (off - data.length) z ++ bytes ++
      data.drop (off + bytes.length) := by
  cases bytes with
  | nil => exact absurd rfl hne
  | cons b rest => rfl

lemma overwrite_length {bytes : List α} (hne : bytes ≠ []) (data : List α) (off : ℕ) :
    (overwrite z data off bytes).length = max data.length (off + bytes.length) := by
  rw [overwrite_of_ne_nil z hne]
  simp only [List.length_append, List.length_take, List.length_replicate, List.length_drop]
  omega

lemma le_overwrite_length (data : List α) (off : ℕ) (bytes : List α) :
    data.length ≤ (overwrite z data off bytes).length := by
  cases bytes with
  | nil => simp
  | cons b rest => rw [overwrite_length z (by simp)]; exact le_max_left _ _

/-- **What a write does, index by index.**  Inside the range the new bytes, elsewhere the old
ones; the fill of the gap is what reading past the old end gave anyway. -/
lemma overwrite_getD (data : List α) (off : ℕ) (bytes : List α) (i : ℕ) :
    (overwrite z data off bytes).getD i z
      = if off ≤ i ∧ i < off + bytes.length then bytes.getD (i - off) z else data.getD i z := by
  cases bytes with
  | nil => rw [overwrite_nil, if_neg (by simp)]
  | cons b rest =>
      rw [overwrite_of_ne_nil z (by simp)]
      have hpre : (data.take off ++ List.replicate (off - data.length) z).length = off := by
        simp only [List.length_append, List.length_take, List.length_replicate]
        omega
      simp only [List.getD_eq_getElem?_getD]
      rcases Nat.lt_or_ge i off with hlow | hhigh
      · -- before the range: old bytes, or the fill
        rw [if_neg (by omega), List.append_assoc,
          List.getElem?_append_left (by rw [hpre]; exact hlow)]
        by_cases hdata : i < data.length
        · rw [List.getElem?_append_left (by simp; omega), List.getElem?_take_of_lt hlow]
        · rw [List.getElem?_append_right (by simp; omega),
            List.getElem?_eq_none (by omega : data.length ≤ i)]
          rw [List.getElem?_replicate]
          split_ifs <;> rfl
      · rcases Nat.lt_or_ge i (off + (b :: rest).length) with hin | hout
        · rw [if_pos ⟨hhigh, hin⟩, List.append_assoc, List.getElem?_append_right (by omega), hpre,
            List.getElem?_append_left (by omega)]
        · rw [if_neg (by omega), List.getElem?_append_right (by
            rw [List.length_append, hpre]; exact hout)]
          rw [List.length_append, hpre, List.getElem?_drop]
          congr 2
          omega

/-- **Outside its range a write changes nothing**, except that it fills the gap it leaves behind. -/
lemma overwrite_getElem?_outside (data : List α) {off i : ℕ} {bytes : List α}
    (h : i < off ∨ off + bytes.length ≤ i) :
    (overwrite z data off bytes)[i]? = data[i]? ∨
      data.length ≤ i ∧ i < off ∧ (overwrite z data off bytes)[i]? = some z := by
  have hread : (overwrite z data off bytes).getD i z = data.getD i z := by
    rw [overwrite_getD, if_neg (by omega)]
  rcases Nat.lt_or_ge i (overwrite z data off bytes).length with hlt | hge
  · rw [List.getD_eq_getElem _ _ hlt] at hread
    rw [List.getElem?_eq_getElem hlt, hread]
    rcases Nat.lt_or_ge i data.length with hdata | hdata
    · left
      rw [List.getD_eq_getElem _ _ hdata, List.getElem?_eq_getElem hdata]
    · right
      rw [List.getD_eq_default _ _ hdata]
      refine ⟨hdata, ?_, rfl⟩
      cases bytes with
      | nil => exact absurd hlt (not_lt.mpr hdata)
      | cons b rest =>
          rw [overwrite_length z (by simp)] at hlt
          omega
  · left
    rw [List.getElem?_eq_none hge,
      List.getElem?_eq_none (le_trans (le_overwrite_length z data off bytes) hge)]

/-- A list is its length together with its reads. -/
lemma ext_getD {xs ys : List α} (hlen : xs.length = ys.length)
    (h : ∀ i < xs.length, xs.getD i z = ys.getD i z) : xs = ys := by
  refine List.ext_getElem hlen fun i hx hy => ?_
  have := h i hx
  rwa [List.getD_eq_getElem _ _ hx, List.getD_eq_getElem _ _ hy] at this

/-- Two writes back to back are one write. -/
lemma overwrite_append (data : List α) (off : ℕ) (xs ys : List α) :
    overwrite z (overwrite z data off xs) (off + xs.length) ys
      = overwrite z data off (xs ++ ys) := by
  by_cases hxs : xs = []
  · simp [hxs]
  by_cases hys : ys = []
  · simp [hys]
  refine ext_getD z ?_ fun i _ => ?_
  · rw [overwrite_length z hys, overwrite_length z hxs, overwrite_length z (by simp [hxs]),
      List.length_append]
    omega
  · simp only [overwrite_getD, List.length_append]
    rcases Nat.lt_or_ge i (off + xs.length) with hleft | hright
    · rw [if_neg (by omega)]
      by_cases hin : off ≤ i
      · rw [if_pos (by omega), if_pos (by omega), List.getD_append _ _ _ _ (by omega)]
      · rw [if_neg (by omega), if_neg (by omega)]
    · by_cases hin : i < off + xs.length + ys.length
      · rw [if_pos (by omega), if_pos (by omega), List.getD_append_right _ _ _ _ (by omega)]
        congr 1
        omega
      · rw [if_neg (by omega), if_neg (by omega), if_neg (by omega)]

/-- **Writes that do not overlap commute**, gaps filled or not. -/
lemma overwrite_comm (data : List α) {off off' : ℕ} {xs ys : List α}
    (h : Disjoint (Finset.Ico off (off + xs.length)) (Finset.Ico off' (off' + ys.length))) :
    overwrite z (overwrite z data off xs) off' ys
      = overwrite z (overwrite z data off' ys) off xs := by
  by_cases hxs : xs = []
  · simp [hxs]
  by_cases hys : ys = []
  · simp [hys]
  refine ext_getD z ?_ fun i _ => ?_
  · rw [overwrite_length z hys, overwrite_length z hxs, overwrite_length z hxs,
      overwrite_length z hys]
    omega
  · simp only [overwrite_getD]
    by_cases hx : off ≤ i ∧ i < off + xs.length
    · have hy : ¬ (off' ≤ i ∧ i < off' + ys.length) := fun hy =>
        Finset.disjoint_left.mp h (Finset.mem_Ico.mpr hx) (Finset.mem_Ico.mpr hy)
      rw [if_neg hy, if_pos hx, if_pos hx]
    · rw [if_neg hx, if_neg hx]

/-! ## Histories of writes -/

/-- A positional write: where, and what. -/
structure Write (α : Type*) where
  off : ℕ
  bytes : List α
  deriving DecidableEq

namespace Write

/-- One past the last index the write touches. -/
def stop (w : Write α) : ℕ := w.off + w.bytes.length

/-- The indices the write touches. -/
def range (w : Write α) : Finset ℕ := Finset.Ico w.off w.stop

@[simp] lemma card_range (w : Write α) : w.range.card = w.bytes.length := by
  simp [range, stop]

end Write

/-- The file left by a history of writes, oldest first, on an empty file. -/
def writeAll (ws : List (Write α)) : List α :=
  ws.foldl (fun data w => overwrite z data w.off w.bytes) []

@[simp] lemma writeAll_nil : writeAll z ([] : List (Write α)) = [] := rfl

lemma writeAll_concat (ws : List (Write α)) (w : Write α) :
    writeAll z (ws ++ [w]) = overwrite z (writeAll z ws) w.off w.bytes := by
  simp [writeAll]

/-- The file left by a history of writes on a file that has `data` already. -/
def writeOn (data : List α) (ws : List (Write α)) : List α :=
  ws.foldl (fun data w => overwrite z data w.off w.bytes) data

@[simp] lemma writeOn_nil (data : List α) : writeOn z data [] = data := rfl

lemma writeOn_concat (data : List α) (ws : List (Write α)) (w : Write α) :
    writeOn z data (ws ++ [w]) = overwrite z (writeOn z data ws) w.off w.bytes := by
  simp [writeOn]

/-- **The order of writes that do not overlap does not matter.** -/
lemma writeOn_perm {ws ws' : List (Write α)} (hperm : ws.Perm ws')
    (hdisjoint : ∀ v ∈ ws, ∀ w ∈ ws, v = w ∨ Disjoint v.range w.range) (data : List α) :
    writeOn z data ws = writeOn z data ws' := by
  refine hperm.foldl_eq' (fun v hv w hw data => ?_) data
  rcases hdisjoint v hv w hw with rfl | hvw
  · rfl
  · exact overwrite_comm z data hvw

/-- The file reaches at least as far as every write that wrote something. -/
lemma stop_le_writeAll_length {ws : List (Write α)} {w : Write α} (hw : w ∈ ws)
    (hne : w.bytes ≠ []) : w.stop ≤ (writeAll z ws).length := by
  induction ws using List.reverseRecOn with
  | nil => simp at hw
  | append_singleton ws v ih =>
      rw [writeAll_concat]
      rcases List.mem_append.mp hw with hold | hnew
      · exact le_trans (ih hold) (le_overwrite_length z _ _ _)
      · obtain rfl : w = v := by simpa using hnew
        rw [overwrite_length z hne]
        exact le_max_right _ _

/-- And no further than the furthest of them. -/
lemma writeAll_length_le {ws : List (Write α)} {n : ℕ}
    (h : ∀ w ∈ ws, w.bytes ≠ [] → w.stop ≤ n) : (writeAll z ws).length ≤ n := by
  induction ws using List.reverseRecOn with
  | nil => simp
  | append_singleton ws v ih =>
      have hearlier := ih fun w hw => h w (by simp [hw])
      rw [writeAll_concat]
      by_cases hne : v.bytes = []
      · rw [hne, overwrite_nil]; exact hearlier
      · rw [overwrite_length z hne]
        exact max_le hearlier (h v (by simp) hne)

/-- If every write of a history agrees with `target`, so does the file, wherever it was written. -/
lemma writeAll_getD_of_agree {ws : List (Write α)} {target : List α}
    (hagree : ∀ w ∈ ws, ∀ i ∈ w.range, w.bytes.getD (i - w.off) z = target.getD i z) :
    ∀ i, (∃ w ∈ ws, i ∈ w.range) → (writeAll z ws).getD i z = target.getD i z := by
  induction ws using List.reverseRecOn with
  | nil => rintro i ⟨w, hw, _⟩; simp at hw
  | append_singleton ws v ih =>
      rintro i ⟨w, hw, hi⟩
      rw [writeAll_concat, overwrite_getD]
      by_cases hv : i ∈ v.range
      · rw [if_pos (by simpa [Write.range, Write.stop] using hv)]
        exact hagree v (by simp) i hv
      · rw [if_neg (by simpa [Write.range, Write.stop] using hv)]
        refine ih (fun u hu => hagree u (by simp [hu])) i ⟨w, ?_, hi⟩
        rcases List.mem_append.mp hw with hold | hnew
        · exact hold
        · obtain rfl : w = v := by simpa using hnew
          exact absurd hi hv

/-! ## Counting: complete, or overlapping -/

/-- The indices some write of the history touches. -/
def covered (ws : List (Write α)) : Finset ℕ :=
  ws.foldr (fun w s => w.range ∪ s) ∅

lemma mem_covered {ws : List (Write α)} {i : ℕ} : i ∈ covered ws ↔ ∃ w ∈ ws, i ∈ w.range := by
  induction ws with
  | nil => simp [covered]
  | cons w ws ih => simpa [covered] using or_congr_right ih

/-- The number of bytes written, overlaps counted each time. -/
def total (ws : List (Write α)) : ℕ := (ws.map fun w => w.bytes.length).sum

@[simp] lemma total_nil : total ([] : List (Write α)) = 0 := rfl

lemma total_concat (ws : List (Write α)) (w : Write α) :
    total (ws ++ [w]) = total ws + w.bytes.length := by
  simp [total]

lemma total_perm {ws ws' : List (Write α)} (h : ws.Perm ws') : total ws = total ws' :=
  (h.map _).sum_eq

lemma total_le {ws : List (Write α)} {m : ℕ} (h : ∀ w ∈ ws, w.bytes.length ≤ m) :
    total ws ≤ ws.length * m := by
  have hsum := List.sum_le_card_nsmul (ws.map fun w => w.bytes.length) m (by simpa using h)
  simpa [total] using hsum

lemma card_covered_le (ws : List (Write α)) : (covered ws).card ≤ total ws := by
  induction ws with
  | nil => simp [covered, total]
  | cons w ws ih =>
      refine le_trans (Finset.card_union_le _ _) ?_
      rw [Write.card_range]
      simpa [total, covered] using ih

/-- Nothing is counted twice exactly when no two writes overlap. -/
lemma card_covered_eq_iff (ws : List (Write α)) :
    (covered ws).card = total ws ↔ ws.Pairwise fun v w => Disjoint v.range w.range := by
  induction ws with
  | nil => simp [covered, total]
  | cons w ws ih =>
      have hsplit : (covered (w :: ws)).card + (w.range ∩ covered ws).card
          = w.bytes.length + (covered ws).card := by
        have := Finset.card_union_add_card_inter w.range (covered ws)
        rwa [Write.card_range] at this
      have htotal : total (w :: ws) = w.bytes.length + total ws := by simp [total]
      have hle := card_covered_le ws
      have hinter : (w.range ∩ covered ws).card = 0 ↔ ∀ v ∈ ws, Disjoint w.range v.range := by
        rw [Finset.card_eq_zero, ← Finset.disjoint_iff_inter_eq_empty]
        simp only [Finset.disjoint_left, mem_covered]
        constructor
        · exact fun h v hv i hi hiv => h hi ⟨v, hv, hiv⟩
        · rintro h i hi ⟨v, hv, hiv⟩
          exact h v hv hi hiv
      rw [List.pairwise_cons, ← ih, ← hinter, htotal]
      omega

/-- **Covering, by counting.**  Ranges inside `[0, n)` whose lengths add up to `n` cover `[0, n)`
exactly when no two of them overlap. -/
lemma covers_iff_pairwise_disjoint {ws : List (Write α)} {n : ℕ}
    (hin : ∀ w ∈ ws, w.bytes ≠ [] → w.stop ≤ n) (htotal : total ws = n) :
    (∀ i < n, ∃ w ∈ ws, i ∈ w.range) ↔ ws.Pairwise fun v w => Disjoint v.range w.range := by
  have hsub : covered ws ⊆ Finset.range n := by
    intro i hi
    obtain ⟨w, hw, hiw⟩ := mem_covered.mp hi
    rw [Write.range, Finset.mem_Ico] at hiw
    have hne : w.bytes ≠ [] := by
      intro hnil
      simp only [Write.stop, hnil, List.length_nil] at hiw
      omega
    exact Finset.mem_range.mpr (lt_of_lt_of_le hiw.2 (hin w hw hne))
  rw [← card_covered_eq_iff, htotal]
  constructor
  · intro hcover
    have : covered ws = Finset.range n :=
      hsub.antisymm fun i hi => mem_covered.mpr (hcover i (Finset.mem_range.mp hi))
    rw [this, Finset.card_range]
  · intro hcard i hi
    have : covered ws = Finset.range n :=
      Finset.eq_of_subset_of_card_le hsub (by rw [hcard, Finset.card_range])
    exact mem_covered.mp (this ▸ Finset.mem_range.mpr hi)

/-- Covering `[0, n)` takes at least `n` bytes. -/
lemma le_total_of_covers {ws : List (Write α)} {n : ℕ} (hcover : ∀ i < n, ∃ w ∈ ws, i ∈ w.range) :
    n ≤ total ws := by
  have hsub : Finset.range n ⊆ covered ws := fun i hi =>
    mem_covered.mpr (hcover i (Finset.mem_range.mp hi))
  have := Finset.card_le_card hsub
  rw [Finset.card_range] at this
  exact le_trans this (card_covered_le ws)

end ByteFile
