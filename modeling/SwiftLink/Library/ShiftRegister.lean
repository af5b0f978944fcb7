import Mathlib.Data.List.GetD
import Mathlib.Logic.Function.Iterate
import Mathlib.Tactic.Common

/-!
# Linear feedback shift registers

The register of a reflected cyclic redundancy check.  A step moves every bit down by one place and,
when a one falls out at the bottom, adds the polynomial; an input bit is added at the bottom before
the step.

Everything rests on two facts.  A step is **linear** over exclusive or (`step_xor`), so two inputs
leave registers whose difference is what the difference of the inputs leaves in a register of zeros
(`run_xor`).  And when the polynomial's top bit is set it **never loses a difference**: that bit of
the result tells what fell out at the bottom, so only zero steps to zero (`step_eq_zero_iff`).

An input no longer than the register is complete before its first bit has come back through the
feedback: feeding it bit by bit is adding it all at once and then stepping (`run_eq_iterate`).  So a
short input that is not all zeros leaves a register that is not zero, and no number of zero bits
behind it brings the register back: `run_burst_ne_zero`.
-/

namespace ShiftRegister

variable {w : ℕ} (poly : BitVec w)

/-- One step of the register. -/
def step (state : BitVec w) : BitVec w :=
  if state.getLsbD 0 then (state >>> 1) ^^^ poly else state >>> 1

/-- One input bit. -/
def feed (state : BitVec w) (bit : Bool) : BitVec w :=
  step poly (state ^^^ (BitVec.ofBool bit).setWidth w)

/-- A string of input bits. -/
def run (state : BitVec w) (bits : List Bool) : BitVec w :=
  bits.foldl (feed poly) state

/-- The bits of a string as a number, the first one at the bottom. -/
def word (w : ℕ) : List Bool → BitVec w
  | [] => 0
  | bit :: rest => (BitVec.ofBool bit).setWidth w ^^^ (word w rest <<< 1)

/-! ## Linearity -/

lemma step_zero : step poly 0 = 0 := by simp [step]

/-- **A step is linear.** -/
lemma step_xor (a b : BitVec w) : step poly (a ^^^ b) = step poly a ^^^ step poly b := by
  have hcancel : ∀ x y : BitVec w, x ^^^ y = (x ^^^ poly) ^^^ (y ^^^ poly) := by
    intro x y
    rw [BitVec.xor_assoc, ← BitVec.xor_assoc poly, BitVec.xor_comm poly y, BitVec.xor_assoc y,
      BitVec.xor_self, BitVec.xor_zero]
  simp only [step, BitVec.getLsbD_xor, BitVec.ushiftRight_xor_distrib]
  cases a.getLsbD 0 <;> cases b.getLsbD 0
  · simp
  · simp [BitVec.xor_assoc]
  · simp [BitVec.xor_assoc, BitVec.xor_comm poly]
  · simpa using hcancel _ _

lemma iterate_step_xor (n : ℕ) (a b : BitVec w) :
    (step poly)^[n] (a ^^^ b) = (step poly)^[n] a ^^^ (step poly)^[n] b := by
  induction n generalizing a b with
  | zero => rfl
  | succ n ih => rw [Function.iterate_succ_apply, step_xor, ih, ← Function.iterate_succ_apply,
      ← Function.iterate_succ_apply]

lemma ofBool_xor (a b : Bool) : (BitVec.ofBool (a ^^ b)).setWidth w
    = (BitVec.ofBool a).setWidth w ^^^ (BitVec.ofBool b).setWidth w := by
  rw [← BitVec.setWidth_xor, BitVec.ofBool_xor_ofBool]

/-- What two inputs leave differs by what their difference leaves. -/
lemma run_xor : ∀ {as bs : List Bool} (s t : BitVec w), as.length = bs.length →
    run poly s as ^^^ run poly t bs = run poly (s ^^^ t) (List.zipWith (· ^^ ·) as bs)
  | [], [], _, _, _ => rfl
  | [], _ :: _, _, _, hlen => by simp at hlen
  | _ :: _, [], _, _, hlen => by simp at hlen
  | a :: as, b :: bs, s, t, hlen => by
      have hfeed : feed poly s a ^^^ feed poly t b = feed poly (s ^^^ t) (a ^^ b) := by
        rw [feed, feed, feed, ← step_xor, ofBool_xor]
        congr 1
        rw [BitVec.xor_assoc, ← BitVec.xor_assoc _ t, BitVec.xor_comm _ t, BitVec.xor_assoc t,
          ← BitVec.xor_assoc]
      simp only [run, List.foldl_cons, List.zipWith_cons_cons]
      rw [← hfeed]
      exact run_xor _ _ (by simpa using hlen)

/-! ## Short inputs -/

lemma getLsbD_word : ∀ (bits : List Bool) (i : ℕ),
    (word w bits).getLsbD i = (decide (i < w) && bits.getD i false)
  | [], i => by simp [word]
  | bit :: rest, 0 => by simp [word]
  | bit :: rest, i + 1 => by
      simp [word, getLsbD_word rest i]
      grind

/-- A number with its top bit clear, shifted up, is shifted down again. -/
lemma step_shiftLeft_one {v : BitVec w} (h : v.getLsbD (w - 1) = false) :
    step poly (v <<< 1) = v := by
  refine BitVec.eq_of_getLsbD_eq fun i hi => ?_
  have hbottom : (v <<< 1).getLsbD 0 = false := by simp
  rw [step, hbottom]
  simp only [Bool.false_eq_true, if_false, BitVec.getLsbD_ushiftRight, BitVec.getLsbD_shiftLeft]
  by_cases htop : 1 + i < w
  · simp [htop]
  · have hlast : i = w - 1 := by omega
    simp [hlast, h]

lemma iterate_step_shiftLeft {n : ℕ} {v : BitVec w} (h : ∀ i, w ≤ i + n → v.getLsbD i = false) :
    (step poly)^[n] (v <<< n) = v := by
  induction n with
  | zero => simp
  | succ n ih =>
      have hclear : (v <<< n).getLsbD (w - 1) = false := by
        rw [BitVec.getLsbD_shiftLeft]
        by_cases hn : w - 1 < n
        · simp [hn]
        · rw [h _ (by omega), Bool.and_false]
      rw [Function.iterate_succ_apply, BitVec.shiftLeft_add, step_shiftLeft_one poly hclear]
      exact ih fun i hi => h i (by omega)

/-- **An input no longer than the register** can be added at once. -/
lemma run_eq_iterate : ∀ {bits : List Bool} (s : BitVec w), bits.length ≤ w →
    run poly s bits = (step poly)^[bits.length] (s ^^^ word w bits)
  | [], s, _ => by simp [run, word]
  | bit :: rest, s, hlen => by
      have hrest : rest.length < w := hlen
      have hclear : (word w rest).getLsbD (w - 1) = false := by
        rw [getLsbD_word, List.getD_eq_default _ _ (by omega), Bool.and_false]
      calc run poly s (bit :: rest) = run poly (feed poly s bit) rest := rfl
        _ = (step poly)^[rest.length] (feed poly s bit ^^^ word w rest) :=
            run_eq_iterate _ (Nat.le_of_lt hrest)
        _ = (step poly)^[rest.length] (step poly (s ^^^ word w (bit :: rest))) := by
            rw [word, ← BitVec.xor_assoc, step_xor, step_shiftLeft_one poly hclear, feed]
        _ = _ := by rw [List.length_cons, Function.iterate_succ_apply]

/-! ## Injectivity -/

variable {poly}

/-- Only the register of zeros steps to zero. -/
lemma step_eq_zero_iff (hpoly : poly.msb = true) {v : BitVec w} : step poly v = 0 ↔ v = 0 := by
  constructor
  · intro h
    have hbottom : v.getLsbD 0 = false := by
      -- otherwise the polynomial's top bit would be in the result
      by_contra hone
      rw [Bool.not_eq_false] at hone
      have htop := congrArg (fun x => BitVec.getLsbD x (w - 1)) h
      rw [BitVec.msb_eq_getLsbD_last] at hpoly
      simp [step, hone, hpoly] at htop
      have hw : v.getLsbD (1 + (w - 1)) = false := BitVec.getLsbD_of_ge v _ (by omega)
      rw [hw] at htop
      exact Bool.noConfusion htop
    refine BitVec.eq_of_getLsbD_eq fun i hi => ?_
    cases i with
    | zero => simpa using hbottom
    | succ i =>
        rw [step, hbottom] at h
        have hbit := congrArg (fun x => BitVec.getLsbD x i) h
        simpa [Nat.add_comm] using hbit
  · rintro rfl
    exact step_zero poly

lemma iterate_step_eq_zero_iff (hpoly : poly.msb = true) {n : ℕ} {v : BitVec w} :
    (step poly)^[n] v = 0 ↔ v = 0 := by
  induction n generalizing v with
  | zero => rfl
  | succ n ih => rw [Function.iterate_succ_apply, ih, step_eq_zero_iff hpoly]

/-- Zero bits neither clear the register nor set it. -/
lemma run_eq_zero_iff_of_false (hpoly : poly.msb = true) {bits : List Bool} {s : BitVec w}
    (hbits : ∀ bit ∈ bits, bit = false) : run poly s bits = 0 ↔ s = 0 := by
  induction bits generalizing s with
  | nil => rfl
  | cons bit rest ih =>
      rw [List.forall_mem_cons] at hbits
      obtain ⟨rfl, hrest⟩ := hbits
      have hfeed : feed poly s false = step poly s := by simp [feed]
      rw [run, List.foldl_cons, hfeed, ← run, ih hrest, step_eq_zero_iff hpoly]

/-- A short input that is not all zeros leaves a register that is not zero. -/
lemma run_short_ne_zero (hpoly : poly.msb = true) {bits : List Bool} (hlen : bits.length ≤ w)
    (hone : true ∈ bits) : run poly 0 bits ≠ 0 := by
  rw [run_eq_iterate poly 0 hlen, show (0 : BitVec w) ^^^ word w bits = word w bits from
    BitVec.zero_xor, Ne, iterate_step_eq_zero_iff hpoly]
  intro hzero
  obtain ⟨i, hi, hbit⟩ := List.getElem_of_mem hone
  have hword := getLsbD_word (w := w) bits i
  rw [hzero, List.getD_eq_getElem _ _ hi, hbit] at hword
  simp at hword
  omega

/-- **A burst no longer than the register is never forgotten**: whatever the zero bits before it
and behind it, it leaves a register that is not zero. -/
lemma run_burst_ne_zero (hpoly : poly.msb = true) {before burst behind : List Bool}
    (hbefore : ∀ bit ∈ before, bit = false) (hbehind : ∀ bit ∈ behind, bit = false)
    (hlen : burst.length ≤ w) (hone : true ∈ burst) :
    run poly 0 (before ++ burst ++ behind) ≠ 0 := by
  have hstart : run poly 0 before = 0 := (run_eq_zero_iff_of_false hpoly hbefore).mpr rfl
  have hsplit : run poly 0 (before ++ burst ++ behind)
      = run poly (run poly (run poly 0 before) burst) behind := by
    simp only [run, List.foldl_append]
  rw [hsplit, hstart, Ne, run_eq_zero_iff_of_false hpoly hbehind]
  exact run_short_ne_zero hpoly hlen hone

/-- The same for bits given by their positions: those that are set lie between `first` and
`first + length`. -/
lemma run_range_ne_zero (hpoly : poly.msb = true) {n first length : ℕ} {bit : ℕ → Bool}
    (hlen : length ≤ w) (hconfined : ∀ i, bit i = true → first ≤ i ∧ i < first + length)
    {i : ℕ} (hi : i < n) (hone : bit i = true) :
    run poly 0 ((List.range n).map bit) ≠ 0 := by
  obtain ⟨hfirst, hlast⟩ := hconfined i hone
  -- the string in three parts: up to the window, the window, and what is behind it
  have hsplit : ∀ l : List Bool,
      l = l.take first ++ (l.drop first).take length ++ l.drop (first + length) := by
    intro l
    rw [List.append_assoc, ← List.drop_drop, List.take_append_drop, List.take_append_drop]
  rw [hsplit ((List.range n).map bit)]
  refine run_burst_ne_zero hpoly ?_ ?_ (Nat.le_trans (List.length_take_le _ _) hlen) ?_
  · intro b hb
    obtain ⟨j, hj, rfl⟩ := List.mem_take_iff_getElem.mp hb
    rw [List.getElem_map, List.getElem_range, Bool.eq_false_iff]
    intro hset
    have := (hconfined j hset).1
    omega
  · intro b hb
    obtain ⟨j, hj, rfl⟩ := List.mem_drop_iff_getElem.mp hb
    rw [List.getElem_map, List.getElem_range, Bool.eq_false_iff]
    intro hset
    have := (hconfined _ hset).2
    omega
  · refine List.mem_take_iff_getElem.mpr ⟨i - first, ?_, ?_⟩
    · rw [List.length_drop, List.length_map, List.length_range]
      omega
    · rw [List.getElem_drop, List.getElem_map, List.getElem_range, Nat.add_sub_cancel' hfirst, hone]

end ShiftRegister
