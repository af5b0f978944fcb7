import Mathlib.Data.List.Basic
import Mathlib.Data.List.TakeWhile

/-!
# Paths as strings

A path is a string over some alphabet, cut into components by a separator.  Two readings of it are
given.  `IsLastPart` says which string stands behind the last separator; `resolve` walks the
components from the left and keeps a stack of the directories entered so far, without looking at
any file system.

The walk is a fold, so what one more component does to it is what `resolveStep` does, whatever
came before: `resolve_child` needs nothing about the directory but where it ends.
-/

namespace LexicalPath

variable {α : Type*}

/-- `part` is what stands behind the last separator of `path`. -/
def IsLastPart (sep : α) (path part : List α) : Prop :=
  sep ∉ part ∧ (path = part ∨ ∃ above, path = above ++ sep :: part)

/-- A path without a separator is its own last part. -/
lemma isLastPart_self {sep : α} {path : List α} (h : sep ∉ path) : IsLastPart sep path path :=
  ⟨h, Or.inl rfl⟩

variable [DecidableEq α]

/-- Reading from the right until the first separator finds a last part. -/
lemma isLastPart_takeWhile (sep : α) (path : List α) :
    IsLastPart sep path (path.reverse.takeWhile (· ≠ sep)).reverse := by
  constructor
  · intro hmem
    simpa using List.mem_takeWhile_imp (List.mem_reverse.mp hmem)
  · have hsplit := List.takeWhile_append_dropWhile (p := fun c => decide (c ≠ sep))
      (l := path.reverse)
    cases hrest : path.reverse.dropWhile (fun c => decide (c ≠ sep)) with
    | nil =>
        left
        rw [hrest, List.append_nil] at hsplit
        rw [hsplit, List.reverse_reverse]
    | cons c above =>
        right
        -- the walk stopped here, so this character is the separator
        have hc : c = sep := by
          have hne : path.reverse.dropWhile (fun c => decide (c ≠ sep)) ≠ [] := by
            rw [hrest]
            exact List.cons_ne_nil c above
          have hhead := List.head_dropWhile_not (fun c => decide (c ≠ sep)) hne
          simp only [hrest, List.head_cons] at hhead
          simpa using hhead
        subst hc
        refine ⟨above.reverse, ?_⟩
        calc path = path.reverse.reverse := (List.reverse_reverse path).symm
          _ = (path.reverse.takeWhile (· ≠ c) ++ c :: above).reverse := by rw [← hrest, hsplit]
          _ = above.reverse ++ c :: (path.reverse.takeWhile (· ≠ c)).reverse := by
              rw [List.reverse_append, List.reverse_cons, List.append_assoc, List.singleton_append]

/-- Two last parts of one path are the same. -/
lemma IsLastPart.unique {sep : α} {path a b : List α} (ha : IsLastPart sep path a)
    (hb : IsLastPart sep path b) : a = b := by
  have hlast : ∀ {part : List α}, IsLastPart sep path part →
      ∃ front, path.splitOn sep = front ++ [part] := by
    intro part hpart
    obtain ⟨hsep, rfl | ⟨above, rfl⟩⟩ := hpart
    · exact ⟨[], by rw [List.splitOn_eq_singleton hsep, List.nil_append]⟩
    · exact ⟨above.splitOn sep, by
        rw [List.splitOn_append_cons_self, List.splitOn_eq_singleton hsep]⟩
  obtain ⟨front, hfront⟩ := hlast ha
  obtain ⟨front', hfront'⟩ := hlast hb
  rw [hfront] at hfront'
  exact (List.append_inj' hfront' rfl).2 |> List.singleton_inj.mp

/-- What one component does to the stack of directories: `here` and the empty component stay where
they are, `up` leaves the last directory entered, anything else is entered. -/
def resolveStep (here up : List α) (stack : List (List α)) (part : List α) : List (List α) :=
  if part = [] ∨ part = here then stack
  else if part = up then stack.dropLast
  else stack ++ [part]

/-- The lexical resolution of a path. -/
def resolve (sep : α) (here up path : List α) : List (List α) :=
  (path.splitOn sep).foldl (resolveStep here up) []

variable {sep : α} {here up : List α}

lemma resolveStep_nil (stack : List (List α)) : resolveStep here up stack [] = stack := by
  simp [resolveStep]

/-- An ordinary component is entered. -/
lemma resolveStep_of_ne {stack : List (List α)} {part : List α} (hnil : part ≠ [])
    (hhere : part ≠ here) (hup : part ≠ up) : resolveStep here up stack part = stack ++ [part] := by
  simp [resolveStep, hnil, hhere, hup]

/-- A path behind a separator is resolved where the path before it ended. -/
lemma resolve_append_cons (above below : List α) :
    resolve sep here up (above ++ sep :: below)
      = (below.splitOn sep).foldl (resolveStep here up) (resolve sep here up above) := by
  rw [resolve, List.splitOn_append_cons_self, List.foldl_append, ← resolve]

/-- A separator at the end of a path changes nothing. -/
lemma resolve_concat_sep (path : List α) :
    resolve sep here up (path ++ [sep]) = resolve sep here up path := by
  rw [resolve_append_cons, List.splitOn_nil, List.foldl_cons, List.foldl_nil, resolveStep_nil]

/-- **One ordinary component below a directory is a direct child of it**, wherever the directory
itself resolves to. -/
lemma resolve_child {dir part : List α} (hsep : sep ∉ part) (hnil : part ≠ [])
    (hhere : part ≠ here) (hup : part ≠ up) :
    resolve sep here up (dir ++ sep :: part) = resolve sep here up dir ++ [part] := by
  rw [resolve_append_cons, List.splitOn_eq_singleton hsep, List.foldl_cons, List.foldl_nil,
    resolveStep_of_ne hnil hhere hup]

end LexicalPath
