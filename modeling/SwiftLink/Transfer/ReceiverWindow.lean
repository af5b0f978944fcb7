import SwiftLink.Library.Ring
import Mathlib.Logic.Function.Basic

/-!
# The receiver's window

`ReceiverWindow` of `transfer/window.cpp` remembers which sequence numbers have been stored: every
one below the base, and those above it whose bit in the ring is set.  `Stored` is that set; the
base is always the least number missing from it.

The upper end of the window, `base_ + capacity_`, is a 32-bit sum.  When it wraps nothing is
accepted any more, so the top sequence number is never stored and the base itself never wraps.
-/

namespace SwiftLink

inductive Disposition
  | accepted
  | duplicate
  | outsideWindow
  deriving Repr, DecidableEq

structure ReceiverWindow where
  capacity : ℕ
  base : ℕ
  received : ℕ → Bool

namespace ReceiverWindow

/-! ## The implementation -/

/-- The constructor.  A zero capacity becomes one. -/
def init (capacity : BitVec 32) : ReceiverWindow where
  capacity := if capacity = 0 then 1 else capacity.toNat
  base := 0
  received _ := false

def classify (w : ReceiverWindow) (sequence : ℕ) : Disposition :=
  if sequence < w.base then .duplicate
  else if (w.base + w.capacity) % 2 ^ 32 ≤ sequence then .outsideWindow
  else if w.received (sequence % w.capacity) then .duplicate
  else .accepted

/-- The sliding loop of `mark_received`.  A turn clears a bit, so `capacity` turns are enough. -/
def slide : ℕ → ReceiverWindow → ReceiverWindow
  | 0, w => w
  | fuel + 1, w =>
      if w.received (w.base % w.capacity) then
        slide fuel
          { w with
            received := Function.update w.received (w.base % w.capacity) false
            base := (w.base + 1) % 2 ^ 32 }
      else w

def markReceived (w : ReceiverWindow) (sequence : ℕ) : ReceiverWindow :=
  if w.classify sequence ≠ .accepted then w
  else slide w.capacity
    { w with received := Function.update w.received (sequence % w.capacity) true }

/-! ## Reading the state -/

/-- The sequence numbers recorded as stored. -/
def Stored (w : ReceiverWindow) (s : ℕ) : Prop :=
  s < w.base ∨ s < w.base + w.capacity ∧ w.received (s % w.capacity) = true

/-- The window invariant, all of it but the bit at the base, which the sliding loop restores. -/
structure Core (w : ReceiverWindow) : Prop where
  capacity_pos : 0 < w.capacity
  capacity_lt : w.capacity < 2 ^ 32
  base_lt : w.base < 2 ^ 32
  /-- The top sequence number is never stored. -/
  stored_lt : ∀ s, w.Stored s → s + 1 < 2 ^ 32

/-- **The window invariant.** -/
structure Inv (w : ReceiverWindow) : Prop extends Core w where
  base_missing : w.received (w.base % w.capacity) = false

lemma init_capacity (capacity : BitVec 32) : (init capacity).capacity = max 1 capacity.toNat := by
  simp only [init]
  split_ifs with hzero
  · simp [hzero]
  · have hne : capacity.toNat ≠ 0 := fun h => hzero (BitVec.eq_of_toNat_eq h)
    omega

lemma init_inv (capacity : BitVec 32) : (init capacity).Inv := by
  have hlt := capacity.isLt
  have hcap := init_capacity capacity
  exact
    { capacity_pos := by omega
      capacity_lt := by omega
      base_lt := by simp [init]
      stored_lt := by simp [init, Stored]
      base_missing := rfl }

lemma not_stored_init (capacity : BitVec 32) (s : ℕ) : ¬ (init capacity).Stored s := by
  simp [init, Stored]

/-- **The base is the first sequence number missing.** -/
lemma Inv.base_spec {w : ReceiverWindow} (h : w.Inv) :
    (∀ s < w.base, w.Stored s) ∧ ¬ w.Stored w.base := by
  refine ⟨fun s hs => Or.inl hs, ?_⟩
  rintro (hlt | ⟨-, hbit⟩)
  · omega
  · rw [h.base_missing] at hbit
    simp at hbit

/-- The window is open: its upper end does not wrap. -/
def Open (w : ReceiverWindow) : Prop := w.base + w.capacity < 2 ^ 32

/-- Once the 32-bit sum wraps it is no longer above the base. -/
lemma Core.wrapped_le {w : ReceiverWindow} (h : w.Core) (hopen : ¬ w.Open) :
    (w.base + w.capacity) % 2 ^ 32 ≤ w.base := by
  have hcap := h.capacity_lt
  have hbase := h.base_lt
  simp only [Open, not_lt] at hopen
  rw [Nat.mod_eq_sub_mod hopen, Nat.mod_eq_of_lt (by omega)]
  omega

/-- **What is accepted**: a number not stored yet, inside an open window. -/
lemma Core.classify_accepted_iff {w : ReceiverWindow} (h : w.Core) {s : ℕ} :
    w.classify s = .accepted ↔
      ¬ w.Stored s ∧ w.base ≤ s ∧ s < w.base + w.capacity ∧ w.Open := by
  simp only [classify, Stored]
  by_cases hbelow : s < w.base
  · simp [hbelow]
  · by_cases hopen : w.Open
    · have hsum : (w.base + w.capacity) % 2 ^ 32 = w.base + w.capacity := Nat.mod_eq_of_lt hopen
      rw [if_neg hbelow, hsum]
      by_cases hover : w.base + w.capacity ≤ s
      · simp [hover]
      · rw [if_neg hover]
        cases hbit : w.received (s % w.capacity) <;> simp [hopen] <;> omega
    · have hwrap := h.wrapped_le hopen
      rw [if_neg hbelow, if_pos (by omega)]
      simp [hopen]

/-- **What is called a duplicate** has been stored. -/
lemma stored_of_duplicate {w : ReceiverWindow} {s : ℕ}
    (hdup : w.classify s = .duplicate) : w.Stored s := by
  simp only [classify] at hdup
  split_ifs at hdup with hbelow hover hbit
  · exact Or.inl hbelow
  · refine Or.inr ⟨?_, hbit⟩
    have hmod := Nat.mod_le (w.base + w.capacity) (2 ^ 32)
    omega

/-- Inside an open window nothing is turned away. -/
lemma classify_of_open {w : ReceiverWindow} (hopen : w.Open) {s : ℕ}
    (hs : s < w.base + w.capacity) : w.classify s ≠ .outsideWindow := by
  simp only [classify]
  rw [Nat.mod_eq_of_lt hopen, if_neg (show ¬ w.base + w.capacity ≤ s by omega)]
  split_ifs <;> simp

/-! ## Recording a chunk -/

/-- The window after `received_[base_ % capacity_] = false; ++base_`. -/
def stepBase (w : ReceiverWindow) : ReceiverWindow :=
  { w with
    received := Function.update w.received (w.base % w.capacity) false
    base := (w.base + 1) % 2 ^ 32 }

lemma Core.stepBase {w : ReceiverWindow} (h : w.Core)
    (hbit : w.received (w.base % w.capacity) = true) :
    w.stepBase.Core ∧ w.stepBase.base = w.base + 1 ∧ ∀ t, w.stepBase.Stored t ↔ w.Stored t := by
  have hcap := h.capacity_pos
  have hself : w.Stored w.base := Or.inr ⟨by omega, hbit⟩
  have hlt := h.stored_lt _ hself
  have hbase : w.stepBase.base = w.base + 1 := Nat.mod_eq_of_lt hlt
  have hstored : ∀ t, w.stepBase.Stored t ↔ w.Stored t := by
    intro t
    have hcap' : w.stepBase.capacity = w.capacity := rfl
    have hrecv : w.stepBase.received = Function.update w.received (w.base % w.capacity) false := rfl
    rw [Stored, hbase, hcap', hrecv, Function.update_apply]
    rcases Nat.lt_trichotomy t w.base with hlt | rfl | hgt
    · exact ⟨fun _ => Or.inl hlt, fun _ => Or.inl (by omega)⟩
    · exact ⟨fun _ => hself, fun _ => Or.inl (Nat.lt_succ_self _)⟩
    · -- above the base the bit is cleared only at the number that enters the window now
      rcases Nat.lt_or_ge t (w.base + w.capacity) with hin | hout
      · have hcell : w.base % w.capacity ≠ t % w.capacity :=
          Ring.mod_ne_of_lt (le_refl w.base) hgt hin
        rw [if_neg (Ne.symm hcell)]
        simp only [Stored]
        constructor <;> rintro (hlow | ⟨-, hb⟩)
        · omega
        · exact Or.inr ⟨hin, hb⟩
        · omega
        · exact Or.inr ⟨by omega, hb⟩
      · have hnot : ¬ w.Stored t := by
          rintro (hlow | ⟨hlow, -⟩) <;> omega
        refine ⟨?_, fun hs => absurd hs hnot⟩
        rintro (hlow | ⟨hlow, hb⟩)
        · omega
        · obtain rfl : t = w.base + w.capacity := by omega
          rw [Nat.add_mod_right, if_pos rfl] at hb
          simp at hb
  refine ⟨⟨hcap, h.capacity_lt, ?_, fun t ht => ?_⟩, hbase, hstored⟩
  · rw [hbase]
    exact hlt
  · exact h.stored_lt t ((hstored t).mp ht)

/-- The loop stops with the bit at the base clear, and changes nothing that is stored. -/
lemma Core.slide {w : ReceiverWindow} (h : w.Core) {fuel : ℕ}
    (hfuel : ∀ t, w.base ≤ t → w.Stored t → t < w.base + fuel) :
    (slide fuel w).Inv ∧ (slide fuel w).capacity = w.capacity ∧ w.base ≤ (slide fuel w).base ∧
      ∀ t, (slide fuel w).Stored t ↔ w.Stored t := by
  induction fuel generalizing w with
  | zero =>
      have hbit : w.received (w.base % w.capacity) = false := by
        by_contra hbit
        have hcap := h.capacity_pos
        have := hfuel w.base (le_refl _) (Or.inr ⟨by omega, by simpa using hbit⟩)
        omega
      exact ⟨⟨h, hbit⟩, rfl, le_refl _, fun _ => Iff.rfl⟩
  | succ fuel ih =>
      rw [ReceiverWindow.slide]
      split_ifs with hbit
      · obtain ⟨hcore, hbase, hstored⟩ := h.stepBase hbit
        obtain ⟨hinv, hcap, hle, hsame⟩ := ih hcore fun t ht hs => by
          have := hfuel t (by omega) ((hstored t).mp hs)
          omega
        refine ⟨hinv, hcap, ?_, fun t => (hsame t).trans (hstored t)⟩
        exact le_trans (by omega) hle
      · exact ⟨⟨h, by simpa using hbit⟩, rfl, le_refl _, fun _ => Iff.rfl⟩

/-- **Recording an accepted chunk** stores that chunk and nothing else. -/
lemma Inv.markReceived {w : ReceiverWindow} (h : w.Inv) {s : ℕ} (hs : w.classify s = .accepted) :
    (w.markReceived s).Inv ∧ (w.markReceived s).capacity = w.capacity ∧
      w.base ≤ (w.markReceived s).base ∧
      ∀ t, (w.markReceived s).Stored t ↔ w.Stored t ∨ t = s := by
  obtain ⟨-, hlow, hhigh, hopen⟩ := h.classify_accepted_iff.mp hs
  set marked : ReceiverWindow :=
    { w with received := Function.update w.received (s % w.capacity) true } with hmarked
  have hstored : ∀ t, marked.Stored t ↔ w.Stored t ∨ t = s := by
    intro t
    simp only [Stored, hmarked, Function.update_apply]
    by_cases hts : t = s
    · subst hts
      simp [hhigh]
    · by_cases hin : w.base ≤ t ∧ t < w.base + w.capacity
      · have hcell : t % w.capacity ≠ s % w.capacity :=
          fun hcell => hts (Ring.eq_of_mod_eq hin.1 hin.2 hlow hhigh hcell)
        simp [hcell, hts]
      · have hcase : t < w.base ∨ w.base + w.capacity ≤ t := by omega
        rcases hcase with hlt | hge
        · simp [hlt]
        · simp [hts, Nat.not_lt.mpr hge]
  have hcore : marked.Core :=
    { capacity_pos := h.capacity_pos
      capacity_lt := h.capacity_lt
      base_lt := h.base_lt
      stored_lt := by
        intro t ht
        rcases (hstored t).mp ht with ht | rfl
        · exact h.stored_lt t ht
        · simp only [Open] at hopen
          omega }
  have hfuel : ∀ t, marked.base ≤ t → marked.Stored t → t < marked.base + w.capacity := by
    rintro t - (ht | ⟨ht, -⟩)
    · exact Nat.lt_add_right _ ht
    · exact ht
  have hslide := hcore.slide hfuel
  have heq : w.markReceived s = ReceiverWindow.slide w.capacity marked := by
    rw [ReceiverWindow.markReceived, if_neg (by simp [hs])]
  rw [heq]
  exact ⟨hslide.1, hslide.2.1, hslide.2.2.1, fun t => (hslide.2.2.2 t).trans (hstored t)⟩

end ReceiverWindow

end SwiftLink
