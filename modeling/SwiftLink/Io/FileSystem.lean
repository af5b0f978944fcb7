import SwiftLink.Io.File

/-!
# The output directory

Names and files are kept apart: `names` is the directory, `data` the files behind it.  A
descriptor is a file number, so it survives a rename or an unlink of the name it was opened under.

Two facts are part of the type, because every operation here keeps them: a name never refers to a
file that has not been created yet, and no file has two names (the program makes no hard links).

`open`, `write`, `fsync` and `rename` may fail, `unlink` may not: the destructor that calls it does
not look at the result, and what is said of the names it leaves is said of calls that succeed.
There are no symbolic links, and two paths are the same name only if they are the same string.
-/

namespace SwiftLink

abbrev Path := Bytes

/-- Files are numbered like inodes; `next` is the first number not yet handed out. -/
structure FileSystem where
  names : Path → Option ℕ
  data : ℕ → Bytes
  next : ℕ
  names_lt : ∀ p i, names p = some i → i < next
  names_inj : ∀ p q i, names p = some i → names q = some i → p = q

namespace FileSystem

/-- An empty directory. -/
def empty : FileSystem where
  names _ := none
  data _ := []
  next := 0
  names_lt := by simp
  names_inj := by simp

instance : Inhabited FileSystem := ⟨empty⟩

/-- What a reader of the directory sees: the content under each name. -/
def view (fs : FileSystem) (p : Path) : Option Bytes := (fs.names p).map fs.data

/-! ## Operations -/

/-- Replaces the content of one file. -/
def setData (fs : FileSystem) (i : ℕ) (bytes : Bytes) : FileSystem :=
  { fs with data := Function.update fs.data i bytes }

/-- A new, empty file under `path`. -/
def create (fs : FileSystem) (path : Path) : FileSystem where
  names := Function.update fs.names path (some fs.next)
  data := Function.update fs.data fs.next []
  next := fs.next + 1
  names_lt := by
    intro p i h
    by_cases hp : p = path
    · subst hp
      rw [Function.update_self, Option.some.injEq] at h
      omega
    · rw [Function.update_of_ne hp] at h
      exact Nat.lt_succ_of_lt (fs.names_lt p i h)
  names_inj := by
    intro p q i hp hq
    -- the new number is above every number in use, so it collides with nothing
    by_cases hpp : p = path
    · by_cases hqp : q = path
      · rw [hpp, hqp]
      · rw [hpp, Function.update_self, Option.some.injEq] at hp
        rw [Function.update_of_ne hqp] at hq
        have := fs.names_lt q i hq
        omega
    · rw [Function.update_of_ne hpp] at hp
      by_cases hqp : q = path
      · rw [hqp, Function.update_self, Option.some.injEq] at hq
        have := fs.names_lt p i hp
        omega
      · rw [Function.update_of_ne hqp] at hq
        exact fs.names_inj p q i hp hq

/-- `unlink(2)`.  The file itself stays for as long as a descriptor is open on it. -/
def unlink (fs : FileSystem) (path : Path) : FileSystem where
  names := Function.update fs.names path none
  data := fs.data
  next := fs.next
  names_lt := by
    intro p i h
    by_cases hp : p = path
    · rw [hp, Function.update_self] at h
      simp at h
    · rw [Function.update_of_ne hp] at h
      exact fs.names_lt p i h
  names_inj := by
    intro p q i hp hq
    have hpp : p ≠ path := by
      intro h
      rw [h, Function.update_self] at hp
      simp at hp
    have hqp : q ≠ path := by
      intro h
      rw [h, Function.update_self] at hq
      simp at hq
    rw [Function.update_of_ne hpp] at hp
    rw [Function.update_of_ne hqp] at hq
    exact fs.names_inj p q i hp hq

/-- Moves the name `src` over `dst`, whatever `dst` was before. -/
def move (fs : FileSystem) (src dst : Path) (i : ℕ) (hsrc : fs.names src = some i) :
    FileSystem where
  names := Function.update (Function.update fs.names src none) dst (some i)
  data := fs.data
  next := fs.next
  names_lt := by
    intro p j h
    by_cases hd : p = dst
    · rw [hd, Function.update_self, Option.some.injEq] at h
      exact h ▸ fs.names_lt src i hsrc
    · rw [Function.update_of_ne hd] at h
      by_cases hs : p = src
      · rw [hs, Function.update_self] at h
        simp at h
      · rw [Function.update_of_ne hs] at h
        exact fs.names_lt p j h
  names_inj := by
    -- every other name of the file would have to be `src`, which is gone
    have key : ∀ p j, p ≠ dst → Function.update (Function.update fs.names src none) dst (some i) p
        = some j → fs.names p = some j ∧ j ≠ i := by
      intro p j hd h
      rw [Function.update_of_ne hd] at h
      by_cases hs : p = src
      · rw [hs, Function.update_self] at h
        simp at h
      · rw [Function.update_of_ne hs] at h
        exact ⟨h, fun hji => hs (fs.names_inj p src i (hji ▸ h) hsrc)⟩
    intro p q j hp hq
    by_cases hpd : p = dst
    · by_cases hqd : q = dst
      · rw [hpd, hqd]
      · obtain ⟨_, hne⟩ := key q j hqd hq
        rw [hpd, Function.update_self, Option.some.injEq] at hp
        exact absurd hp.symm hne
    · obtain ⟨hp', hne⟩ := key p j hpd hp
      by_cases hqd : q = dst
      · rw [hqd, Function.update_self, Option.some.injEq] at hq
        exact absurd hq.symm hne
      · exact fs.names_inj p q j hp' (key q j hqd hq).1

/-- `File::open_write`, that is `open(O_RDWR | O_CREAT | O_TRUNC)`: an existing file is emptied, a
missing one created.  `ok` is whether the call succeeds; the result is the descriptor. -/
def openWrite (fs : FileSystem) (ok : Bool) (path : Path) : FileSystem × Option ℕ :=
  if ok then
    match fs.names path with
    | some i => (fs.setData i [], some i)
    | none => (fs.create path, some fs.next)
  else (fs, none)

/-- `rename(2)`.  Fails when the kernel says so or the source does not exist; renaming a name to
itself succeeds and does nothing. -/
def rename (fs : FileSystem) (ok : Bool) (src dst : Path) : FileSystem × Bool :=
  if ok then
    match h : fs.names src with
    | some i => if src = dst then (fs, true) else (fs.move src dst i h, true)
    | none => (fs, false)
  else (fs, false)

/-- `File::write_at` on a descriptor, `none` standing for a `File` that is not open. -/
def writeFile (fs : FileSystem) (file : Option ℕ) (sched : List PwriteOutcome) (buf : Bytes)
    (off : ℕ) : FileSystem × Option ℕ :=
  match file with
  | none => (fs, none)
  | some i =>
      let written := writeAt sched (fs.data i) buf off 0
      (fs.setData i written.1, written.2)

/-- `File::read_at` on a descriptor. -/
def readFile (fs : FileSystem) (file : Option ℕ) (sched : List PreadOutcome) (want off : ℕ) :
    Option Bytes :=
  match file with
  | none => none
  | some i => readAt sched (fs.data i) want off

/-! ## What each operation changes -/

@[simp] lemma setData_names (fs : FileSystem) (i : ℕ) (bytes : Bytes) :
    (fs.setData i bytes).names = fs.names := rfl

@[simp] lemma setData_next (fs : FileSystem) (i : ℕ) (bytes : Bytes) :
    (fs.setData i bytes).next = fs.next := rfl

@[simp] lemma setData_data_self (fs : FileSystem) (i : ℕ) (bytes : Bytes) :
    (fs.setData i bytes).data i = bytes := Function.update_self _ _ _

lemma setData_data_of_ne (fs : FileSystem) {i j : ℕ} (h : j ≠ i) (bytes : Bytes) :
    (fs.setData i bytes).data j = fs.data j := Function.update_of_ne h _ _

@[simp] lemma unlink_data (fs : FileSystem) (path : Path) : (fs.unlink path).data = fs.data := rfl

@[simp] lemma unlink_next (fs : FileSystem) (path : Path) : (fs.unlink path).next = fs.next := rfl

@[simp] lemma unlink_names_self (fs : FileSystem) (path : Path) :
    (fs.unlink path).names path = none := Function.update_self _ _ _

lemma unlink_names_of_ne (fs : FileSystem) {path p : Path} (h : p ≠ path) :
    (fs.unlink path).names p = fs.names p := Function.update_of_ne h _ _

/-- **Opening for writing.**  The name now refers to the descriptor's file, which is empty; every
other name, and the content of every other file, is as before. -/
lemma openWrite_some {fs fs' : FileSystem} {ok : Bool} {path : Path} {i : ℕ}
    (h : fs.openWrite ok path = (fs', some i)) :
    fs'.names path = some i ∧ (∀ p, p ≠ path → fs'.names p = fs.names p) ∧
      fs'.data i = [] ∧ (∀ j, j ≠ i → fs'.data j = fs.data j) ∧
      (fs.names path = some i ∨ fs.names path = none ∧ i = fs.next) ∧
      fs.next ≤ fs'.next ∧ i < fs'.next := by
  unfold openWrite at h
  split_ifs at h with hok
  · split at h
    case h_1 j hj =>
      simp only [Prod.mk.injEq, Option.some.injEq] at h
      obtain ⟨rfl, rfl⟩ := h
      exact ⟨hj, fun _ _ => rfl, by simp, fun k hk => setData_data_of_ne _ hk _, Or.inl hj,
        le_refl _, fs.names_lt _ _ hj⟩
    case h_2 hnone =>
      simp only [Prod.mk.injEq, Option.some.injEq] at h
      obtain ⟨rfl, rfl⟩ := h
      exact ⟨Function.update_self _ _ _, fun p hp => Function.update_of_ne hp _ _,
        Function.update_self _ _ _, fun k hk => Function.update_of_ne hk _ _, Or.inr ⟨hnone, rfl⟩,
        Nat.le_succ _, Nat.lt_succ_self _⟩
  · simp at h

/-- **Writing through a descriptor** changes that file and no name. -/
lemma writeFile_spec {fs fs' : FileSystem} {file : Option ℕ} {sched : List PwriteOutcome}
    {buf : Bytes} {off : ℕ} {written : Option ℕ}
    (h : fs.writeFile file sched buf off = (fs', written)) :
    fs'.names = fs.names ∧ fs'.next = fs.next ∧
      (∀ j, file ≠ some j → fs'.data j = fs.data j) ∧
      (∀ n, written = some n → ∃ i, file = some i ∧ n = buf.length ∧
        fs'.data i = ByteFile.overwrite 0 (fs.data i) off buf ∧
        (buf ≠ [] → off + buf.length ≤ kOffsetMax)) := by
  cases file with
  | none =>
      obtain ⟨rfl, rfl⟩ := Prod.mk.inj h
      exact ⟨rfl, rfl, fun _ _ => rfl, fun n hn => by simp at hn⟩
  | some i =>
      obtain ⟨rfl, hwritten⟩ := Prod.mk.inj h
      refine ⟨rfl, rfl, fun j hj => ?_, fun n hn => ?_⟩
      · exact setData_data_of_ne _ (fun hji => hj (by rw [hji])) _
      · obtain ⟨hlen, hdata, hbound⟩ := writeAt_some (Prod.ext rfl (hwritten.trans hn))
        exact ⟨i, rfl, by omega, (setData_data_self _ _ _).trans hdata, hbound⟩

/-- What a read through a descriptor returns, when it returns. -/
lemma readFile_some {fs : FileSystem} {file : Option ℕ} {sched : List PreadOutcome}
    {want off : ℕ} {bytes : Bytes} (h : fs.readFile file sched want off = some bytes) :
    ∃ i, file = some i ∧ bytes = ((fs.data i).drop off).take want := by
  cases file with
  | none => simp [readFile] at h
  | some i => exact ⟨i, rfl, readAt_some h⟩

lemma openWrite_true (fs : FileSystem) (path : Path) :
    ∃ fs' i, fs.openWrite true path = (fs', some i) := by
  cases hname : fs.names path with
  | some i => exact ⟨fs.setData i [], i, by simp [openWrite, hname]⟩
  | none => exact ⟨fs.create path, fs.next, by simp [openWrite, hname]⟩

lemma openWrite_none {fs fs' : FileSystem} {ok : Bool} {path : Path}
    (h : fs.openWrite ok path = (fs', none)) : fs' = fs ∧ ok = false := by
  unfold openWrite at h
  split_ifs at h with hok
  · split at h <;> simp at h
  · simp only [Prod.mk.injEq] at h
    exact ⟨h.1.symm, by simpa using hok⟩

/-- **A successful rename.**  The source existed; its file is now under `dst`, `src` is gone
(unless they are the same name), and nothing else changed. -/
lemma rename_true {fs fs' : FileSystem} {ok : Bool} {src dst : Path}
    (h : fs.rename ok src dst = (fs', true)) :
    ∃ i, fs.names src = some i ∧ fs'.names dst = some i ∧
      (src ≠ dst → fs'.names src = none) ∧
      (∀ p, p ≠ src → p ≠ dst → fs'.names p = fs.names p) ∧
      fs'.data = fs.data ∧ fs'.next = fs.next := by
  cases ok with
  | false => simp [rename] at h
  | true =>
      simp only [rename, if_true] at h
      split at h
      case h_1 i hi =>
        split at h
        case isTrue heq =>
          simp only [Prod.mk.injEq, and_true] at h
          subst h heq
          exact ⟨i, hi, hi, fun hne => absurd rfl hne, fun _ _ _ => rfl, rfl, rfl⟩
        case isFalse =>
          simp only [Prod.mk.injEq, and_true] at h
          subst h
          refine ⟨i, hi, Function.update_self _ _ _, fun hne => ?_, fun p hs hd => ?_, rfl, rfl⟩
          · exact (Function.update_of_ne hne _ _).trans (Function.update_self _ _ _)
          · exact (Function.update_of_ne hd _ _).trans (Function.update_of_ne hs _ _)
      case h_2 => simp at h

lemma rename_of_names {fs : FileSystem} {src : Path} {i : ℕ} (h : fs.names src = some i)
    (ok : Bool) (dst : Path) : (fs.rename ok src dst).2 = ok := by
  cases ok with
  | false => rfl
  | true =>
      simp only [rename, if_true]
      split
      · split_ifs <;> rfl
      · next hnone => simp [h] at hnone

lemma rename_false {fs fs' : FileSystem} {ok : Bool} {src dst : Path}
    (h : fs.rename ok src dst = (fs', false)) :
    fs' = fs ∧ (ok = false ∨ fs.names src = none) := by
  cases ok with
  | false =>
      simp only [rename, Bool.false_eq_true, if_false, Prod.mk.injEq, and_true] at h
      exact ⟨h.symm, Or.inl rfl⟩
  | true =>
      simp only [rename, if_true] at h
      split at h
      case h_1 => split at h <;> simp at h
      case h_2 hnone =>
        simp only [Prod.mk.injEq, and_true] at h
        exact ⟨h.symm, Or.inr hnone⟩

end FileSystem

end SwiftLink
