import SwiftLink.Library.LexicalPath
import SwiftLink.Transfer.Filename

/-!
# What the sanitiser lets through, and where it lands

The sanitiser is a chain of early returns, each with its own rejection.  `Acceptable` says what the
chain as a whole decides, without mentioning its order: the conditions on the raw name, on its last
part, and nothing else.  `sanitizeFilename_eq_none_iff` compares the two.

The order of the checks is visible only in which rejection is reported, and the character loop's own
check for a separator never fires: the last part has none.

Containment is then a fact about paths.  An acceptable name is a single ordinary component, so
appending it to a directory enters exactly one directory entry below wherever the directory
resolves to (`LexicalPath.resolve_child`).
-/

namespace SwiftLink

open LexicalPath (IsLastPart)

/-! ## What is acceptable -/

/-- A permitted character is an ASCII letter or digit, or one of six punctuation marks. -/
def Permitted (c : Byte) : Prop :=
  (Char.ofNat c.toNat).isAlphanum = true ∨ c ∈ asciiBytes ".-_+@="

instance (c : Byte) : Decidable (Permitted c) :=
  inferInstanceAs (Decidable (_ ∨ _))

/-- `name` is what the raw name stands for, and nothing speaks against it. -/
structure Acceptable (raw name : Bytes) : Prop where
  nonempty : raw ≠ []
  printable : ∀ c ∈ raw, 0x20 ≤ c ∧ c ≠ 0x7F
  lastPart : IsLastPart separator raw name
  length_pos : 1 ≤ name.length
  length_le : name.length ≤ 200
  ne_dot : name ≠ asciiBytes "."
  ne_dotDot : name ≠ asciiBytes ".."
  head_ne_dash : name.head? ≠ (asciiBytes "-").head?
  permitted : ∀ c ∈ name, Permitted c

lemma isPermitted_iff (c : Byte) : isPermitted c = true ↔ Permitted c := by
  revert c
  decide

lemma afterLastSeparator_isLastPart (raw : Bytes) :
    IsLastPart separator raw (afterLastSeparator raw) :=
  LexicalPath.isLastPart_takeWhile separator raw

/-- A name has one last part, and it is the one the sanitiser takes. -/
lemma isLastPart_iff {raw name : Bytes} :
    IsLastPart separator raw name ↔ afterLastSeparator raw = name := by
  constructor
  · intro h
    exact (afterLastSeparator_isLastPart raw).unique h
  · rintro rfl
    exact afterLastSeparator_isLastPart raw

/-! ## The chain of checks -/

/-- The character loop passes exactly the names over the permitted characters: its check for a
separator is subsumed. -/
lemma checkCharacters_eq_none_iff {base : Bytes} :
    checkCharacters base = .none ↔ ∀ c ∈ base, Permitted c := by
  induction base with
  | nil => simp [checkCharacters]
  | cons c rest ih =>
      rw [checkCharacters, List.forall_mem_cons, ← isPermitted_iff c]
      split_ifs with hsep hperm
      · subst hsep
        simp [show isPermitted separator = false by decide]
      · simp_all
      · simp_all

/-- **The sanitiser is exact**: it accepts a raw name with an output exactly when the output is
acceptable for it. -/
lemma sanitizeFilename_eq_none_iff {raw name : Bytes} :
    sanitizeFilename raw = (.none, name) ↔ Acceptable raw name := by
  constructor
  · intro h
    obtain ⟨hname, hne⟩ := sanitizeFilename_accepted h
    simp only [sanitizeFilename] at h
    split_ifs at h with hempty hcontrol hbase hdots hlong hdash
    -- every early return carries a rejection
    all_goals try simp only [Prod.mk.injEq, reduceCtorEq, false_and] at h
    rw [← hname] at hdots hlong hdash h
    rw [not_or] at hdots
    refine ⟨by simpa using hempty, by simpa using hcontrol, isLastPart_iff.mpr hname.symm,
      List.length_pos_iff.mpr hne, not_lt.mp hlong, hdots.1, hdots.2, hdash, ?_⟩
    rw [← checkCharacters_eq_none_iff]
    split at h
    case h_1 hpassed => exact hpassed
    case h_2 hrejected => exact absurd (Prod.mk.inj h).1 hrejected
  · intro h
    have hlast := isLastPart_iff.mp h.lastPart
    have hclean : ¬ (raw.any fun c => c < 0x20 || c == 0x7F) = true := by
      simpa using h.printable
    have hdots : ¬ (name = asciiBytes "." ∨ name = asciiBytes "..") :=
      not_or.mpr ⟨h.ne_dot, h.ne_dotDot⟩
    rw [sanitizeFilename, if_neg (by simpa using h.nonempty), if_neg hclean, hlast]
    dsimp only
    have hlong : ¬ name.length > kMaxFilenameLength := not_lt.mpr h.length_le
    have hdash : name.head? ≠ some 0x2D := h.head_ne_dash
    rw [if_neg (by simpa using List.length_pos_iff.mp h.length_pos), if_neg hdots, if_neg hlong,
      if_neg hdash,
      checkCharacters_eq_none_iff.mpr h.permitted]

/-- A rejected name leaves `out` cleared. -/
lemma sanitizeFilename_rejected {raw : Bytes} (h : (sanitizeFilename raw).1 ≠ .none) :
    (sanitizeFilename raw).2 = [] := by
  revert h
  fun_cases sanitizeFilename raw <;> simp_all

/-! ## Containment -/

/-- The lexical resolution of a path: empty and `"."` components are dropped, `".."` removes its
predecessor. -/
def resolvePath (path : Path) : List Bytes :=
  LexicalPath.resolve separator (asciiBytes ".") (asciiBytes "..") path

/-- A directory joined to a name, with the separator it may already end in. -/
lemma joinPath_cases {directory : Bytes} (hne : directory ≠ []) (name : Bytes) :
    (∃ above, directory = above ++ [separator] ∧
        joinPath directory name = above ++ separator :: name) ∨
      joinPath directory name = directory ++ separator :: name := by
  by_cases hlast : directory.getLast? = some separator
  · obtain ⟨above, rfl⟩ := List.getLast?_eq_some_iff.mp hlast
    exact Or.inl ⟨above, rfl, by simp [joinPath]⟩
  · right
    simp [joinPath, hne, hlast]

/-- An acceptable name is a direct child of the directory it is joined to. -/
lemma Acceptable.contained {raw name directory : Bytes} (h : Acceptable raw name)
    (hne : directory ≠ []) :
    resolvePath (joinPath directory name) = resolvePath directory ++ [name] := by
  have hchild : ∀ above : Bytes,
      resolvePath (above ++ separator :: name) = resolvePath above ++ [name] := fun above =>
    LexicalPath.resolve_child h.lastPart.1 (List.length_pos_iff.mp h.length_pos) h.ne_dot
      h.ne_dotDot
  rcases joinPath_cases hne name with ⟨above, rfl, hjoin⟩ | hjoin
  · rw [hjoin, hchild, resolvePath, resolvePath, LexicalPath.resolve_concat_sep]
  · rw [hjoin, hchild]

/-- An acceptable name is acceptable for itself. -/
lemma Acceptable.self {raw name : Bytes} (h : Acceptable raw name) : Acceptable name name := by
  refine { h with
    nonempty := List.length_pos_iff.mp h.length_pos
    printable := ?_
    lastPart := LexicalPath.isLastPart_self h.lastPart.1 }
  have hprintable : ∀ c : Byte, isPermitted c = true → 0x20 ≤ c ∧ c ≠ 0x7F := by decide
  exact fun c hc => hprintable c ((isPermitted_iff c).mpr (h.permitted c hc))

/-- **The sanitiser is exact and its names are contained.**

* It accepts a raw name exactly when the raw name is non-empty and free of control bytes, and its
  part behind the last separator is acceptable; it then outputs that part.
* Otherwise it leaves `out` empty.
* An accepted output is accepted again, unchanged.
* Joined to any non-empty directory string, an accepted name resolves to a direct child of what the
  directory resolves to. -/
theorem sanitize_exact_and_contained (raw : Bytes) :
    ((sanitizeFilename raw).1 = .none ↔ ∃ name, Acceptable raw name) ∧
      (∀ name, Acceptable raw name → sanitizeFilename raw = (.none, name)) ∧
      ((sanitizeFilename raw).1 ≠ .none → (sanitizeFilename raw).2 = []) ∧
      ∀ name, sanitizeFilename raw = (.none, name) →
        sanitizeFilename name = (.none, name) ∧
        ∀ directory : Bytes, directory ≠ [] →
          resolvePath (joinPath directory name) = resolvePath directory ++ [name] := by
  refine ⟨⟨?_, ?_⟩, fun name h => sanitizeFilename_eq_none_iff.mpr h,
    sanitizeFilename_rejected, ?_⟩
  · intro h
    exact ⟨_, sanitizeFilename_eq_none_iff.mp (Prod.ext h rfl)⟩
  · rintro ⟨name, h⟩
    rw [sanitizeFilename_eq_none_iff.mpr h]
  · intro name h
    have hname := sanitizeFilename_eq_none_iff.mp h
    exact ⟨sanitizeFilename_eq_none_iff.mpr hname.self, fun directory hne => hname.contained hne⟩

/-- A traversal is reduced to its last part, which lands in the directory however that is
written. -/
example : sanitizeFilename (asciiBytes "../../etc/passwd") = (.none, asciiBytes "passwd") ∧
    resolvePath (joinPath (asciiBytes "/srv/./in/../out/") (asciiBytes "passwd"))
      = [asciiBytes "srv", asciiBytes "out", asciiBytes "passwd"] := by
  decide

end SwiftLink
