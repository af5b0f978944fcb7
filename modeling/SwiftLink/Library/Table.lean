import Mathlib.Data.List.Sort
import Mathlib.Data.List.Nodup

/-!
# Ordered tables

A finite map kept as a list in key order, the way `std::map` is iterated over.  The structure
carries the fact that no key occurs twice, so a lookup and a membership say the same thing.
-/

/-- A finite map from `κ` to `σ`. -/
structure Table (κ σ : Type*) where
  entries : List (κ × σ)
  keys_nodup : (entries.map Prod.fst).Nodup

namespace Table

variable {κ σ : Type*}

def empty : Table κ σ := ⟨[], List.nodup_nil⟩

lemma eq_of_mem {t : Table κ σ} {k : κ} {s s' : σ} (h : (k, s) ∈ t.entries)
    (h' : (k, s') ∈ t.entries) : s = s' := by
  have heq := List.inj_on_of_nodup_map t.keys_nodup h h' rfl
  exact (Prod.mk.inj heq).2

/-- Removes the entries that satisfy `p`. -/
def eraseIf (t : Table κ σ) (p : κ × σ → Bool) : Table κ σ where
  entries := t.entries.filter fun e => !p e
  keys_nodup := t.keys_nodup.sublist (List.filter_sublist.map Prod.fst)

lemma mem_eraseIf {t : Table κ σ} {p : κ × σ → Bool} {e : κ × σ} :
    e ∈ (t.eraseIf p).entries ↔ e ∈ t.entries ∧ p e = false := by
  simp [eraseIf]

lemma eraseIf_sublist (t : Table κ σ) (p : κ × σ → Bool) :
    (t.eraseIf p).entries.Sublist t.entries :=
  List.filter_sublist

variable [DecidableEq κ]

/-- The value under a key. -/
def find (t : Table κ σ) (k : κ) : Option σ :=
  (t.entries.find? fun e => e.1 = k).map Prod.snd

lemma find_eq_none_iff {t : Table κ σ} {k : κ} : t.find k = none ↔ ∀ e ∈ t.entries, e.1 ≠ k := by
  simp [find]

lemma find_eq_some_iff {t : Table κ σ} {k : κ} {s : σ} :
    t.find k = some s ↔ (k, s) ∈ t.entries := by
  constructor
  · intro h
    obtain ⟨e, he, rfl⟩ := Option.map_eq_some_iff.mp h
    have hkey : e.1 = k := by simpa using List.find?_some he
    rw [← hkey]
    exact List.mem_of_find?_eq_some he
  · intro h
    cases hfind : t.find k with
    | none => exact absurd rfl (find_eq_none_iff.mp hfind _ h)
    | some s' =>
        obtain ⟨e, he, rfl⟩ := Option.map_eq_some_iff.mp hfind
        have hkey : e.1 = k := by simpa using List.find?_some he
        have hmem : (k, e.2) ∈ t.entries := by
          rw [← hkey]
          exact List.mem_of_find?_eq_some he
        rw [eq_of_mem h hmem]

/-- Tables with the same entries under a key give the same value. -/
lemma find_congr {t t' : Table κ σ} {k : κ} (h : ∀ s, (k, s) ∈ t.entries ↔ (k, s) ∈ t'.entries) :
    t.find k = t'.find k := by
  refine Option.ext fun s => ?_
  rw [find_eq_some_iff, find_eq_some_iff]
  exact h s

lemma find_eraseIf {t : Table κ σ} {p : κ × σ → Bool} {k : κ} :
    (t.eraseIf p).find k = (t.find k).filter fun s => !p (k, s) := by
  refine Option.ext fun s => ?_
  rw [find_eq_some_iff, mem_eraseIf, Option.filter_eq_some_iff,
    find_eq_some_iff, Bool.not_eq_true']

/-- Inserts under a new key, at its place in the order; a key that is there keeps its value. -/
def emplace (lt : κ → κ → Bool) (t : Table κ σ) (k : κ) (s : σ) : Table κ σ :=
  if h : t.find k = none then
    { entries := t.entries.orderedInsert (fun e f => lt e.1 f.1) (k, s)
      keys_nodup := by
        rw [((List.perm_orderedInsert _ _ _).map Prod.fst).nodup_iff, List.map_cons,
          List.nodup_cons]
        refine ⟨fun hmem => ?_, t.keys_nodup⟩
        obtain ⟨e, he, hkey⟩ := List.mem_map.mp hmem
        exact find_eq_none_iff.mp h e he hkey }
  else t

lemma mem_emplace {lt : κ → κ → Bool} {t : Table κ σ} {k : κ} {s : σ} (h : t.find k = none)
    {e : κ × σ} : e ∈ (t.emplace lt k s).entries ↔ e = (k, s) ∨ e ∈ t.entries := by
  rw [emplace, dif_pos h]
  exact List.mem_orderedInsert _

lemma mem_emplace_self (lt : κ → κ → Bool) {t : Table κ σ} {k : κ} (h : t.find k = none) (s : σ) :
    (k, s) ∈ (t.emplace lt k s).entries :=
  (mem_emplace h).mpr (Or.inl rfl)

lemma perm_emplace (lt : κ → κ → Bool) {t : Table κ σ} {k : κ} (h : t.find k = none) (s : σ) :
    (t.emplace lt k s).entries.Perm ((k, s) :: t.entries) := by
  rw [emplace, dif_pos h]
  exact List.perm_orderedInsert _ _ _

lemma find_emplace_of_ne {lt : κ → κ → Bool} {t : Table κ σ} {k k' : κ} (h : k' ≠ k) (s : σ) :
    (t.emplace lt k s).find k' = t.find k' := by
  by_cases habsent : t.find k = none
  · refine find_congr fun s' => ?_
    rw [mem_emplace habsent]
    simp [h]
  · rw [emplace, dif_neg habsent]

/-- Replaces the value under a key. -/
def set (t : Table κ σ) (k : κ) (s : σ) : Table κ σ where
  entries := t.entries.map fun e => if e.1 = k then (k, s) else e
  keys_nodup := by
    have hkeys : (t.entries.map fun e => if e.1 = k then (k, s) else e).map Prod.fst
        = t.entries.map Prod.fst := by
      rw [List.map_map]
      refine List.map_congr_left fun e _ => ?_
      by_cases he : e.1 = k
      · simp [he]
      · simp [he]
    rw [hkeys]
    exact t.keys_nodup

@[simp] lemma length_set (t : Table κ σ) (k : κ) (s : σ) :
    (t.set k s).entries.length = t.entries.length := by
  simp [set]

lemma countP_set_le {t : Table κ σ} {k : κ} {s : σ} {p : κ × σ → Bool}
    (h : ∀ s₀, (k, s₀) ∈ t.entries → p (k, s) = true → p (k, s₀) = true) :
    (t.set k s).entries.countP p ≤ t.entries.countP p := by
  rw [set, List.countP_map]
  refine List.countP_mono_left fun e he hp => ?_
  obtain ⟨k', s₀⟩ := e
  simp only [Function.comp_apply] at hp
  split_ifs at hp with hk
  · obtain rfl : k' = k := hk
    exact h s₀ he hp
  · exact hp

lemma mem_set {t : Table κ σ} {k : κ} {s s₀ : σ} (h : (k, s₀) ∈ t.entries) {e : κ × σ} :
    e ∈ (t.set k s).entries ↔ e = (k, s) ∨ e ∈ t.entries ∧ e.1 ≠ k := by
  simp only [set, List.mem_map]
  constructor
  · rintro ⟨d, hd, rfl⟩
    by_cases hk : d.1 = k
    · left
      rw [if_pos hk]
    · right
      rw [if_neg hk]
      exact ⟨hd, hk⟩
  · rintro (rfl | ⟨he, hk⟩)
    · exact ⟨_, h, if_pos rfl⟩
    · exact ⟨e, he, if_neg hk⟩

lemma find_set {t : Table κ σ} {k : κ} {s s₀ : σ} (h : (k, s₀) ∈ t.entries) :
    (t.set k s).find k = some s :=
  find_eq_some_iff.mpr ((mem_set h).mpr (Or.inl rfl))

lemma find_set_of_ne {t : Table κ σ} {k k' : κ} (h : k' ≠ k) (s : σ) :
    (t.set k s).find k' = t.find k' := by
  refine find_congr fun s' => ?_
  simp only [set, List.mem_map]
  constructor
  · rintro ⟨e, he, heq⟩
    split_ifs at heq with hk
    · exact absurd (Prod.mk.inj heq).1.symm h
    · exact heq ▸ he
  · exact fun hmem => ⟨_, hmem, if_neg h⟩

end Table
