import SwiftLink.Transfer.Transfer

/-!
# Names in the output directory

Every name the receiving side uses comes from one of two functions.  `sanitizeFilename` reduces the
attacker-chosen name of a START to a bare name, under which a verified file is published;
`tempName` derives the private name of a transfer in progress from its session id.  Both are joined
to the output directory by `joinPath`.

The two were written for different reasons and nothing checks them against each other.  The
allowlist permits every character of a temporary name, so a START may ask to be published under
the temporary name of another session; `namespaces_disjoint_iff` says for which names exactly.
-/

namespace SwiftLink

/-! ## The sanitiser -/

inductive FilenameRejection
  | none
  | empty
  | tooLong
  | pathSeparator
  | dotDot
  | controlCharacter
  | disallowedCharacter
  | leadingDash
  deriving Repr, DecidableEq, Inhabited

/-- Longest accepted name. -/
def kMaxFilenameLength : ℕ := 200

/-- `'/'`. -/
def separator : Byte := 0x2F

def isPermitted (c : Byte) : Bool :=
  (0x61 ≤ c && c ≤ 0x7A) || (0x41 ≤ c && c ≤ 0x5A) || (0x30 ≤ c && c ≤ 0x39) ||
    c == 0x2E || c == 0x2D || c == 0x5F || c == 0x2B || c == 0x40 || c == 0x3D

/-- The final path component: what follows the last separator, or everything. -/
def afterLastSeparator (raw : Bytes) : Bytes :=
  (raw.reverse.takeWhile (· ≠ separator)).reverse

/-- The loop over the characters of the name. -/
def checkCharacters : Bytes → FilenameRejection
  | [] => .none
  | c :: rest =>
      if c = separator then .pathSeparator
      else if !isPermitted c then .disallowedCharacter
      else checkCharacters rest

/-- `sanitize_filename`: the verdict, and the contents of `out`. -/
def sanitizeFilename (raw : Bytes) : FilenameRejection × Bytes :=
  if raw.isEmpty then (.empty, [])
  else if raw.any fun c => c < 0x20 || c == 0x7F then (.controlCharacter, [])
  else
    let base := afterLastSeparator raw
    if base.isEmpty then (.pathSeparator, [])
    else if base = asciiBytes "." ∨ base = asciiBytes ".." then (.dotDot, [])
    else if base.length > kMaxFilenameLength then (.tooLong, [])
    else if base.head? = some 0x2D then (.leadingDash, [])
    else
      match checkCharacters base with
      | .none => (.none, base)
      | rejection => (rejection, [])

def joinPath (directory sanitizedName : Bytes) : Path :=
  let path := if !directory.isEmpty && directory.getLast? ≠ some separator
    then directory ++ [separator] else directory
  path ++ sanitizedName

/-- An accepted name is the final component of the raw one. -/
lemma sanitizeFilename_accepted {raw name : Bytes} (h : sanitizeFilename raw = (.none, name)) :
    name = afterLastSeparator raw ∧ name ≠ [] := by
  simp only [sanitizeFilename] at h
  split_ifs at h with _ _ hempty
  -- every early return carries a rejection
  all_goals try simp only [Prod.mk.injEq, reduceCtorEq, false_and] at h
  split at h
  case h_1 =>
    simp only [Prod.mk.injEq, true_and] at h
    subst h
    exact ⟨rfl, by simpa using hempty⟩
  case h_2 hne =>
    simp only [Prod.mk.injEq] at h
    exact absurd h.1 hne

/-- Within one directory a path determines the name. -/
lemma joinPath_inj {directory a b : Bytes} :
    joinPath directory a = joinPath directory b ↔ a = b := by
  simp [joinPath]

/-! ## The temporary name -/

def hexDigit (d : ℕ) : Byte :=
  if d < 10 then BitVec.ofNat 8 (0x30 + d) else BitVec.ofNat 8 (0x61 + (d - 10))

/-- The last `width` hexadecimal digits of `value`, zero-padded. -/
def hexFixed : (width : ℕ) → (value : ℕ) → Bytes
  | 0, _ => []
  | width + 1, value => hexFixed width (value / 16) ++ [hexDigit (value % 16)]

def kTempHead : Bytes := asciiBytes ".swiftlink-"

def kTempTail : Bytes := asciiBytes ".partial"

/-- `std::format(".swiftlink-{:016x}.partial", session_id)`. -/
def tempName (sessionId : BitVec 64) : Bytes :=
  kTempHead ++ hexFixed 16 sessionId.toNat ++ kTempTail

/-- A temporary path is never empty, which is how the destructor knows there is one. -/
lemma joinPath_tempName_ne_nil (directory : Bytes) (sessionId : BitVec 64) :
    joinPath directory (tempName sessionId) ≠ [] := by
  simp [joinPath, tempName, kTempHead, asciiBytes]

@[simp] lemma hexFixed_length : ∀ width value : ℕ, (hexFixed width value).length = width
  | 0, _ => rfl
  | width + 1, value => by simp [hexFixed, hexFixed_length width]

/-- A digit `{:x}` can print. -/
def isHexDigit (c : Byte) : Bool :=
  (0x30 ≤ c && c ≤ 0x39) || (0x61 ≤ c && c ≤ 0x66)

lemma isHexDigit_hexDigit {d : ℕ} (h : d < 16) : isHexDigit (hexDigit d) = true := by
  revert d
  decide

/-- Every printable digit is printed for some value below 16. -/
lemma exists_hexDigit {c : Byte} (h : isHexDigit c = true) : ∃ d < 16, hexDigit d = c := by
  revert c
  decide

lemma isHexDigit_of_mem_hexFixed : ∀ {width value : ℕ} {c : Byte}, c ∈ hexFixed width value →
    isHexDigit c = true
  | 0, _, c, h => by simp [hexFixed] at h
  | width + 1, value, c, h => by
      rw [hexFixed, List.mem_append, List.mem_singleton] at h
      rcases h with h | rfl
      · exact isHexDigit_of_mem_hexFixed h
      · exact isHexDigit_hexDigit (Nat.mod_lt _ (by norm_num))

/-- The formatter reaches every string of hexadecimal digits. -/
lemma hexFixed_surjective {digits : Bytes} (h : ∀ c ∈ digits, isHexDigit c = true) :
    ∃ value < 16 ^ digits.length, hexFixed digits.length value = digits := by
  induction digits using List.reverseRecOn with
  | nil => exact ⟨0, by simp, rfl⟩
  | append_singleton digits c ih =>
      obtain ⟨high, hhigh, hdigits⟩ := ih fun x hx => h x (by simp [hx])
      obtain ⟨low, hlow, rfl⟩ := exists_hexDigit (h c (by simp))
      refine ⟨high * 16 + low, ?_, ?_⟩
      · rw [List.length_append, List.length_singleton, Nat.pow_succ]
        omega
      · rw [List.length_append, List.length_singleton, hexFixed]
        rw [show (high * 16 + low) / 16 = high by omega,
          show (high * 16 + low) % 16 = low by omega, hdigits]

/-- Distinct ids have distinct digits. -/
lemma hexFixed_inj : ∀ {width a b : ℕ}, a < 16 ^ width → b < 16 ^ width →
    hexFixed width a = hexFixed width b → a = b
  | 0, a, b, ha, hb, _ => by simp at ha hb; omega
  | width + 1, a, b, ha, hb, h => by
      rw [Nat.pow_succ] at ha hb
      obtain ⟨hhigh, hlow⟩ := List.append_inj h (by simp)
      have hdiv := hexFixed_inj (by omega) (by omega) hhigh
      have hmod : a % 16 = b % 16 := by
        have hinj : ∀ x < 16, ∀ y < 16, hexDigit x = hexDigit y → x = y := by decide
        exact hinj _ (Nat.mod_lt _ (by norm_num)) _ (Nat.mod_lt _ (by norm_num))
          (by simpa using hlow)
      omega

lemma tempName_inj {s t : BitVec 64} (h : tempName s = tempName t) : s = t := by
  have hdigits : hexFixed 16 s.toNat = hexFixed 16 t.toNat := by simpa [tempName] using h
  exact BitVec.eq_of_toNat_eq (hexFixed_inj (by simpa using s.isLt) (by simpa using t.isLt) hdigits)

/-! ## Are the two namespaces disjoint? -/

/-- The shape of a temporary name: the fixed head and tail, and sixteen hexadecimal digits between
them. -/
def looksTemporary (name : Bytes) : Bool :=
  name.length == kTempHead.length + 16 + kTempTail.length &&
    name.take kTempHead.length == kTempHead &&
    ((name.drop kTempHead.length).take 16).all isHexDigit &&
    name.drop (kTempHead.length + 16) == kTempTail

lemma looksTemporary_tempName (s : BitVec 64) : looksTemporary (tempName s) = true := by
  have htake : (tempName s).take kTempHead.length = kTempHead := by
    rw [tempName, List.append_assoc, List.take_left]
  have hdigits : ((tempName s).drop kTempHead.length).take 16 = hexFixed 16 s.toNat := by
    rw [tempName, List.append_assoc, List.drop_left, List.take_left' (by simp)]
  have htail : (tempName s).drop (kTempHead.length + 16) = kTempTail := by
    rw [tempName, List.drop_left' (by simp)]
  have hlen : (tempName s).length = kTempHead.length + 16 + kTempTail.length := by
    simp [tempName]; omega
  simp only [looksTemporary, htake, hdigits, htail, hlen, beq_self_eq_true, Bool.true_and,
    Bool.and_true, List.all_eq_true]
  exact fun c hc => isHexDigit_of_mem_hexFixed hc

/-- A name of that shape is the temporary name of some session id. -/
lemma exists_tempName {name : Bytes} (h : looksTemporary name = true) :
    ∃ s : BitVec 64, tempName s = name := by
  simp only [looksTemporary, Bool.and_eq_true, beq_iff_eq, List.all_eq_true] at h
  obtain ⟨⟨⟨hlen, hhead⟩, hdigits⟩, htail⟩ := h
  have hwidth : ((name.drop kTempHead.length).take 16).length = 16 := by
    rw [List.length_take, List.length_drop]
    omega
  obtain ⟨value, hvalue, hfixed⟩ := hexFixed_surjective hdigits
  rw [hwidth] at hvalue hfixed
  refine ⟨BitVec.ofNat 64 value, ?_⟩
  have hnat : (BitVec.ofNat 64 value).toNat = value := by
    rw [BitVec.toNat_ofNat]
    exact Nat.mod_eq_of_lt (by norm_num at hvalue ⊢; exact hvalue)
  rw [tempName, hnat, hfixed, ← htail, ← List.drop_drop, List.append_assoc, List.take_append_drop]
  nth_rewrite 1 [← hhead]
  exact List.take_append_drop _ _

/-- **When the two namespaces are disjoint.**  A name the sanitiser accepts stays clear of every
session's temporary path exactly when its final component does not itself have the shape of a
temporary name. -/
theorem namespaces_disjoint_iff (directory raw name : Bytes)
    (haccepted : sanitizeFilename raw = (.none, name)) :
    (∀ s : BitVec 64, joinPath directory name ≠ joinPath directory (tempName s)) ↔
      looksTemporary (afterLastSeparator raw) = false := by
  obtain ⟨rfl, -⟩ := sanitizeFilename_accepted haccepted
  simp only [ne_eq, joinPath_inj]
  constructor
  · intro hclear
    by_contra hshape
    obtain ⟨s, hs⟩ := exists_tempName (by simpa using hshape)
    exact hclear s hs.symm
  · intro hshape s hs
    rw [hs, looksTemporary_tempName] at hshape
    exact Bool.noConfusion hshape

/-- An ordinary name meets the condition. -/
theorem namespaces_disjoint_report :
    sanitizeFilename (asciiBytes "inbox/report.pdf") = (.none, asciiBytes "report.pdf") ∧
      ∀ s : BitVec 64, joinPath (asciiBytes "out") (asciiBytes "report.pdf")
        ≠ joinPath (asciiBytes "out") (tempName s) :=
  ⟨by decide, (namespaces_disjoint_iff (asciiBytes "out") (asciiBytes "inbox/report.pdf") _
    (by decide)).mpr (by decide)⟩

/-- A START may ask for the temporary name of session 0, and the sanitiser grants it. -/
theorem temporary_name_accepted :
    sanitizeFilename (asciiBytes ".swiftlink-0000000000000000.partial")
        = (.none, asciiBytes ".swiftlink-0000000000000000.partial") ∧
      joinPath (asciiBytes "out") (asciiBytes ".swiftlink-0000000000000000.partial")
        = joinPath (asciiBytes "out") (tempName 0) := by
  decide

end SwiftLink
