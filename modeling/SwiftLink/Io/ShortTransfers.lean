import SwiftLink.Io.File
import Mathlib.Data.List.Count

/-!
# Short transfers

`File::read_at` and `File::write_at` call `pread` and `pwrite` until everything is transferred.
Each call is given three things that have to stay in step: where in the buffer to go on, how much is
left, and where in the file that is.  Here the loops stand as they are written, with one count
`done` that all three are computed from, and with the kernel apart from them.  A run of a loop is a
run over what its calls did, and it is unfinished while calls are still to be made.

* `readLoop_eq`, `writeLoop_eq`: what a finished run leaves is what `readAt` and `writeAt` say, so
  what is proved with these is about the code;
* `readLoop_isSome`, `writeLoop_isSome`: every call that is not interrupted brings the end nearer;
* `short_transfers_hidden`: what a caller sees.
-/

namespace SwiftLink

open ByteFile

/-! ## The kernel -/

/-- What a system call comes back with: a value, or `-1` and an `errno`, which is `EINTR` or another
one. -/
inductive SysResult (α : Type)
  | returned (value : α)
  | interrupted
  | failed
  deriving Repr, DecidableEq

/-- `static_cast<off_t>` of an unsigned 64-bit sum. -/
def offT (offset : ℕ) : ℤ := (BitVec.ofNat 64 offset).toInt

/-- `pread` of at most `count` bytes.  Short of an outcome that says so, it is short at the end of
the file only. -/
def pread (data : Bytes) (count : ℕ) (off : ℤ) (outcome : PreadOutcome) : SysResult Bytes :=
  if off < 0 then .failed
  else
    match outcome with
    | .interrupted => .interrupted
    | .fail => .failed
    | .transfer n => .returned ((data.drop off.toNat).take (min (max 1 n) count))

/-- `pwrite` of a non-empty range of memory: the file afterwards, and how much was written. -/
def pwrite (data bytes : Bytes) (off : ℤ) (outcome : PwriteOutcome) : Bytes × SysResult ℕ :=
  if off < 0 ∨ kOffsetMax ≤ off then (data, .failed)
  else
    match outcome with
    | .interrupted => (data, .interrupted)
    | .nothing => (data, .returned 0)
    | .fail => (data, .failed)
    | .transfer n =>
        let k := min (max 1 n) (min bytes.length (kOffsetMax - off.toNat))
        (overwrite 0 data off.toNat (bytes.take k), .returned k)

/-! ## The loops -/

/-- The loop of `read_at`: the buffer it leaves and what it returns, `none` for `-1`. -/
def readLoop (data : Bytes) (offset : ℕ) :
    List PreadOutcome → Bytes → ℕ → Option (Bytes × Option ℕ)
  | [], out, done => if done < out.length then none else some (out, some done)
  | outcome :: outcomes, out, done =>
      if done < out.length then
        match pread data (out.length - done) (offT (offset + done)) outcome with
        | .interrupted => readLoop data offset outcomes out done
        | .failed => some (out, none)
        | .returned [] => some (out, some done)
        | .returned (b :: bytes) =>
            readLoop data offset outcomes (overwrite 0 out done (b :: bytes))
              (done + (b :: bytes).length)
      else some (out, some done)

/-- The loop of `write_at`: the file it leaves and what it returns. -/
def writeLoop (buf : Bytes) (offset : ℕ) :
    List PwriteOutcome → Bytes → ℕ → Option (Bytes × Option ℕ)
  | [], data, done => if done < buf.length then none else some (data, some done)
  | outcome :: outcomes, data, done =>
      if done < buf.length then
        match pwrite data (buf.drop done) (offT (offset + done)) outcome with
        | (data, .interrupted) => writeLoop buf offset outcomes data done
        | (data, .failed) => some (data, none)
        | (data, .returned 0) => some (data, none)
        | (data, .returned (n + 1)) => writeLoop buf offset outcomes data (done + (n + 1))
      else some (data, some done)

structure File where
  fd : ℤ := -1
  deriving Repr, DecidableEq

namespace File

def valid (file : File) : Bool := 0 ≤ file.fd

/-- `read_at` into `out`, on a file that holds `data`. -/
def readAt (file : File) (data out : Bytes) (offset : ℕ) (outcomes : List PreadOutcome) :
    Option (Bytes × Option ℕ) :=
  if !file.valid then some (out, none) else readLoop data offset outcomes out 0

/-- `write_at` of `buf`, on a file that holds `data`. -/
def writeAt (file : File) (data buf : Bytes) (offset : ℕ) (outcomes : List PwriteOutcome) :
    Option (Bytes × Option ℕ) :=
  if !file.valid then some (data, none) else writeLoop buf offset outcomes data 0

end File

/-! ## Offsets -/

/-- An offset that fits is what it was, -/
lemma offT_of_le {offset : ℕ} (h : offset ≤ kOffsetMax) : offT offset = offset := by
  rw [kOffsetMax] at h
  rw [offT, BitVec.toInt_eq_toNat_cond, BitVec.toNat_ofNat, Nat.mod_eq_of_lt (by omega),
    if_pos (by omega)]

/-- and one that does not is negative. -/
lemma offT_neg {offset : ℕ} (h : kOffsetMax < offset) (hlt : offset < 2 ^ 64) :
    offT offset < 0 := by
  rw [kOffsetMax] at h
  rw [offT, BitVec.toInt_eq_toNat_cond, BitVec.toNat_ofNat, Nat.mod_eq_of_lt hlt,
    if_neg (by omega)]
  omega

/-! ## Reading -/

section Read

variable {data out : Bytes} {offset done : ℕ} {outcomes : List PreadOutcome}

lemma readLoop_of_le (h : out.length ≤ done) (outcomes : List PreadOutcome) :
    readLoop data offset outcomes out done = some (out, some done) := by
  cases outcomes with
  | nil => rw [readLoop, if_neg (not_lt.mpr h)]
  | cons outcome outcomes => rw [readLoop, if_neg (not_lt.mpr h)]

/-- A read behind the last offset is refused. -/
lemma readLoop_refused (h : done < out.length) (hbehind : kOffsetMax < offset + done)
    (hlt : offset + done < 2 ^ 64) (outcome : PreadOutcome) (outcomes : List PreadOutcome) :
    readLoop data offset (outcome :: outcomes) out done = some (out, none) := by
  have hcall : pread data (out.length - done) (offT (offset + done)) outcome = .failed := by
    cases outcome <;> simp only [pread, if_pos (offT_neg hbehind hlt)]
  rw [readLoop, if_pos h, hcall]

lemma readLoop_interrupted (h : done < out.length) (hoff : offset + done ≤ kOffsetMax)
    (outcomes : List PreadOutcome) :
    readLoop data offset (.interrupted :: outcomes) out done
      = readLoop data offset outcomes out done := by
  rw [readLoop, if_pos h, offT_of_le hoff, pread, if_neg (by omega)]

lemma readLoop_fail (h : done < out.length) (outcomes : List PreadOutcome) :
    readLoop data offset (.fail :: outcomes) out done = some (out, none) := by
  rw [readLoop, if_pos h]
  simp only [pread]
  split_ifs <;> rfl

/-- **One call.**  It goes on where the last one stopped, in the buffer and in the file. -/
lemma readLoop_transfer (h : done < out.length) (hoff : offset + done ≤ kOffsetMax) (n : ℕ)
    (outcomes : List PreadOutcome) :
    readLoop data offset (.transfer n :: outcomes) out done =
      let bytes := (data.drop (offset + done)).take (min (max 1 n) (out.length - done))
      if bytes = [] then some (out, some done)
      else readLoop data offset outcomes (overwrite 0 out done bytes) (done + bytes.length) := by
  rw [readLoop, if_pos h, offT_of_le hoff, pread, if_neg (by omega), Int.toNat_natCast]
  cases (data.drop (offset + done)).take (min (max 1 n) (out.length - done)) with
  | nil => rfl
  | cons b bytes => rfl

lemma readAt_refused {want off : ℕ} (hwant : 0 < want) (hbehind : kOffsetMax < off)
    (outcomes : List PreadOutcome) : readAt outcomes data want off = none := by
  obtain ⟨want, rfl⟩ := Nat.exists_eq_succ_of_ne_zero hwant.ne'
  cases outcomes with
  | nil => rw [readAt, if_neg (not_le.mpr hbehind)]
  | cons outcome outcomes =>
      cases outcome with
      | transfer n => rw [readAt, if_neg (not_le.mpr hbehind)]
      | interrupted => rw [readAt, if_neg (not_le.mpr hbehind)]
      | fail => rw [readAt]

/-- `readAt` in the same terms: what one call brings. -/
lemma readAt_transfer {want off : ℕ} (hwant : 0 < want) (hoff : off ≤ kOffsetMax) (n : ℕ)
    (outcomes : List PreadOutcome) :
    readAt (.transfer n :: outcomes) data want off =
      let bytes := (data.drop off).take (min (max 1 n) want)
      if bytes = [] then some []
      else (readAt outcomes data (want - bytes.length) (off + bytes.length)).map (bytes ++ ·) := by
  obtain ⟨want, rfl⟩ := Nat.exists_eq_succ_of_ne_zero hwant.ne'
  have hlen : ((data.drop off).take (min (max 1 n) (want + 1))).length
      = min (max 1 n) (min (want + 1) (data.length - off)) := by
    rw [List.length_take, List.length_drop, Nat.min_assoc]
  have hbytes : (data.drop off).take (min (max 1 n) (min (want + 1) (data.length - off)))
      = (data.drop off).take (min (max 1 n) (want + 1)) := by
    rw [List.take_eq_take_iff, List.length_drop]
    omega
  rw [readAt, if_pos hoff]
  simp only [← hlen, List.length_eq_zero_iff]
  rw [hlen, hbytes]

/-- **What the loop leaves is what `readAt` got**: the bytes in their place in the buffer, and their
number on top of what was there. -/
structure FilledWith (out : Bytes) (done : ℕ) (got : Option Bytes) (r : Bytes × Option ℕ) :
    Prop where
  count : r.2 = got.map fun bytes => done + bytes.length
  buffer : ∀ bytes, got = some bytes → r.1 = overwrite 0 out done bytes

lemma filledWith_none (out : Bytes) (done : ℕ) : FilledWith out done none (out, none) where
  count := rfl
  buffer bytes hbytes := by cases hbytes

lemma filledWith_some (out : Bytes) (done : ℕ) (bytes : Bytes) :
    FilledWith out done (some bytes) (overwrite 0 out done bytes, some (done + bytes.length)) where
  count := rfl
  buffer bytes' hbytes := by rw [Option.some.inj hbytes]

/-- What one call brought comes before what the others bring. -/
lemma FilledWith.append {first : Bytes} {got : Option Bytes} {r : Bytes × Option ℕ}
    (h : FilledWith (overwrite 0 out done first) (done + first.length) got r) :
    FilledWith out done (got.map (first ++ ·)) r where
  count := by
    rw [h.count, Option.map_map]
    congr 1
    funext bytes
    rw [Function.comp_apply, List.length_append, Nat.add_assoc]
  buffer bytes hbytes := by
    obtain ⟨rest, hrest, rfl⟩ := Option.map_eq_some_iff.mp hbytes
    rw [h.buffer rest hrest, overwrite_append]

/-- A call brings at most what is left to fill. -/
lemma overwrite_out_length {bytes : Bytes} (h : done + bytes.length ≤ out.length) :
    (overwrite 0 out done bytes).length = out.length := by
  cases bytes with
  | nil => rw [overwrite_nil]
  | cons b bytes =>
      rw [overwrite_length 0 (by simp)]
      exact Nat.max_eq_left h

/-- **The loop is `readAt`**: every run of it that has come to its end left what `readAt` gets. -/
lemma readLoop_eq {r : Bytes × Option ℕ} (hdone : done ≤ out.length)
    (hfile : min data.length (offset + out.length) ≤ kOffsetMax) (hoff : offset + done < 2 ^ 64)
    (h : readLoop data offset outcomes out done = some r) :
    FilledWith out done (readAt outcomes data (out.length - done) (offset + done)) r := by
  induction outcomes generalizing out done with
  | nil =>
      rw [readLoop] at h
      split_ifs at h with hlt
      obtain rfl := Option.some.inj h
      rw [Nat.sub_eq_zero_of_le (not_lt.mp hlt), readAt]
      exact filledWith_some out done []
  | cons outcome outcomes ih =>
      rcases hdone.eq_or_lt with rfl | hlt
      · rw [readLoop_of_le le_rfl] at h
        obtain rfl := Option.some.inj h
        rw [Nat.sub_self, readAt]
        exact filledWith_some out out.length []
      have hwant : 0 < out.length - done := by omega
      obtain ⟨want, hw⟩ := Nat.exists_eq_succ_of_ne_zero hwant.ne'
      rcases Nat.lt_or_ge kOffsetMax (offset + done) with hbehind | hinside
      · rw [readLoop_refused hlt hbehind hoff] at h
        obtain rfl := Option.some.inj h
        rw [readAt_refused hwant hbehind]
        exact filledWith_none out done
      cases outcome with
      | interrupted =>
          rw [readLoop_interrupted hlt hinside] at h
          rw [hw, readAt, if_pos hinside, ← Nat.succ_eq_add_one, ← hw]
          exact ih hdone hfile hoff h
      | fail =>
          rw [readLoop_fail hlt] at h
          obtain rfl := Option.some.inj h
          rw [hw, readAt]
          exact filledWith_none out done
      | transfer n =>
          rw [readLoop_transfer hlt hinside] at h
          rw [readAt_transfer hwant hinside]
          have hlen := List.length_take (i := min (max 1 n) (out.length - done))
            (l := data.drop (offset + done))
          rw [List.length_drop] at hlen
          generalize (data.drop (offset + done)).take (min (max 1 n) (out.length - done)) = bytes
            at h hlen ⊢
          simp only at h ⊢
          split_ifs at h ⊢ with hempty
          · obtain rfl := Option.some.inj h
            exact filledWith_some out done []
          · have hpos : 0 < bytes.length := List.length_pos_iff.mpr hempty
            have hout : (overwrite 0 out done bytes).length = out.length :=
              overwrite_out_length (by omega)
            have hnext : offset + (done + bytes.length) < 2 ^ 64 := by
              rw [kOffsetMax] at hfile
              omega
            have hrest := ih (by omega) (by rw [hout]; exact hfile) hnext h
            rw [hout, Nat.sub_add_eq, ← Nat.add_assoc] at hrest
            exact hrest.append

/-- **Every call that is not interrupted brings the end nearer.** -/
lemma readLoop_isSome
    (h : out.length ≤ done + outcomes.countP fun o => decide (o ≠ .interrupted)) :
    (readLoop data offset outcomes out done).isSome := by
  induction outcomes generalizing out done with
  | nil =>
      rw [readLoop_of_le (by simpa using h)]
      rfl
  | cons outcome outcomes ih =>
      rcases Nat.lt_or_ge done out.length with hlt | hfull
      · cases outcome with
        | fail =>
            rw [readLoop_fail hlt]
            rfl
        | interrupted =>
            rw [List.countP_cons_of_neg (by simp)] at h
            rw [readLoop, if_pos hlt, pread]
            split_ifs with hneg
            · rfl
            · exact ih h
        | transfer n =>
            rw [List.countP_cons_of_pos (by simp)] at h
            rw [readLoop, if_pos hlt, pread]
            split_ifs with hneg
            · rfl
            · cases hbytes : (data.drop (offT (offset + done)).toNat).take
                (min (max 1 n) (out.length - done)) with
              | nil => rfl
              | cons b bytes =>
                  have hlen : (b :: bytes).length ≤ out.length - done := by
                    rw [← hbytes, List.length_take]
                    omega
                  refine ih ?_
                  rw [overwrite_out_length (by omega), List.length_cons]
                  omega
      · rw [readLoop_of_le hfull]
        rfl

end Read

/-! ## Writing -/

section Write

variable {data buf : Bytes} {offset done : ℕ} {outcomes : List PwriteOutcome}

lemma writeLoop_of_le (h : buf.length ≤ done) (outcomes : List PwriteOutcome) :
    writeLoop buf offset outcomes data done = some (data, some done) := by
  cases outcomes with
  | nil => rw [writeLoop, if_neg (not_lt.mpr h)]
  | cons outcome outcomes => rw [writeLoop, if_neg (not_lt.mpr h)]

/-- A write behind the last offset is refused. -/
lemma writeLoop_refused (h : done < buf.length) (hbehind : kOffsetMax ≤ offset + done)
    (hlt : offset + done < 2 ^ 64) (outcome : PwriteOutcome) (outcomes : List PwriteOutcome) :
    writeLoop buf offset (outcome :: outcomes) data done = some (data, none) := by
  have hoff : offT (offset + done) < 0 ∨ (kOffsetMax : ℤ) ≤ offT (offset + done) := by
    rcases hbehind.eq_or_lt with heq | hbehind
    · rw [offT_of_le heq.ge]
      exact Or.inr (by exact_mod_cast heq.le)
    · exact Or.inl (offT_neg hbehind hlt)
  have hcall : pwrite data (buf.drop done) (offT (offset + done)) outcome = (data, .failed) := by
    cases outcome <;> simp only [pwrite, if_pos hoff]
  rw [writeLoop, if_pos h, hcall]

/-- Only an interruption interrupts. -/
lemma pwrite_interrupted {bytes : Bytes} {off : ℤ} {outcome : PwriteOutcome}
    (h : (pwrite data bytes off outcome).2 = .interrupted) : outcome = .interrupted := by
  cases outcome with
  | interrupted => rfl
  | transfer n =>
      simp only [pwrite] at h
      split_ifs at h
  | nothing =>
      simp only [pwrite] at h
      split_ifs at h
  | fail =>
      simp only [pwrite] at h
      split_ifs at h

/-- The call on an offset that a file can be written at. -/
lemma pwrite_of_lt {off : ℕ} (hoff : off < kOffsetMax) (bytes : Bytes) (outcome : PwriteOutcome) :
    pwrite data bytes (offT off) outcome =
      match outcome with
      | .interrupted => (data, .interrupted)
      | .nothing => (data, .returned 0)
      | .fail => (data, .failed)
      | .transfer n =>
          let k := min (max 1 n) (min bytes.length (kOffsetMax - off))
          (overwrite 0 data off (bytes.take k), .returned k) := by
  have hinside : ¬ ((off : ℤ) < 0 ∨ (kOffsetMax : ℤ) ≤ off) := by omega
  rw [offT_of_le hoff.le]
  cases outcome <;> simp only [pwrite, if_neg hinside, Int.toNat_natCast]

/-- **One call.**  It goes on where the last one stopped, in the buffer and in the file. -/
lemma writeLoop_transfer (h : done < buf.length) (hoff : offset + done < kOffsetMax) (n : ℕ)
    (outcomes : List PwriteOutcome) :
    writeLoop buf offset (.transfer n :: outcomes) data done =
      let k := min (max 1 n) (min (buf.length - done) (kOffsetMax - (offset + done)))
      writeLoop buf offset outcomes (overwrite 0 data (offset + done) ((buf.drop done).take k))
        (done + k) := by
  rw [writeLoop, if_pos h, pwrite_of_lt hoff, List.length_drop]
  simp only
  obtain ⟨k, hk⟩ : ∃ k, min (max 1 n) (min (buf.length - done) (kOffsetMax - (offset + done)))
      = k + 1 := Nat.exists_eq_succ_of_ne_zero (by omega)
  rw [hk]

lemma writeAt_refused {off : ℕ} (hne : buf ≠ []) (hbehind : kOffsetMax ≤ off)
    (outcomes : List PwriteOutcome) : writeAt outcomes data buf off done = (data, none) := by
  obtain ⟨b, rest, rfl⟩ := List.exists_cons_of_ne_nil hne
  have hroom : kOffsetMax - off = 0 := Nat.sub_eq_zero_of_le hbehind
  cases outcomes with
  | nil => simp [writeAt, hroom]
  | cons outcome outcomes =>
      cases outcome with
      | transfer n => simp [writeAt, hroom]
      | interrupted => simp only [writeAt, if_neg (not_lt.mpr hbehind)]
      | nothing => simp only [writeAt]
      | fail => simp only [writeAt]

/-- `writeAt` in the same terms: what one call takes away. -/
lemma writeAt_transfer {off : ℕ} (hne : buf ≠ []) (hoff : off < kOffsetMax) (n : ℕ)
    (outcomes : List PwriteOutcome) :
    writeAt (.transfer n :: outcomes) data buf off done =
      let k := min (max 1 n) (min buf.length (kOffsetMax - off))
      writeAt outcomes (overwrite 0 data off (buf.take k)) (buf.drop k) (off + k) (done + k) := by
  obtain ⟨b, rest, rfl⟩ := List.exists_cons_of_ne_nil hne
  have hpos : min (max 1 n) (min (b :: rest).length (kOffsetMax - off)) ≠ 0 := by
    rw [List.length_cons]
    omega
  simp only [writeAt, if_neg hpos]

/-- **The loop is `writeAt`**: every run of it that has come to its end left what `writeAt`
leaves. -/
lemma writeLoop_eq {r : Bytes × Option ℕ} (hdone : done ≤ buf.length)
    (hoff : offset + done < 2 ^ 64) (h : writeLoop buf offset outcomes data done = some r) :
    writeAt outcomes data (buf.drop done) (offset + done) done = r := by
  induction outcomes generalizing data done with
  | nil =>
      rw [writeLoop] at h
      split_ifs at h with hlt
      rw [List.drop_eq_nil_of_le (not_lt.mp hlt), writeAt]
      exact Option.some.inj h
  | cons outcome outcomes ih =>
      rcases hdone.eq_or_lt with rfl | hlt
      · rw [writeLoop_of_le le_rfl] at h
        rw [List.drop_length, writeAt]
        exact Option.some.inj h
      have hne : buf.drop done ≠ [] := by
        rw [Ne, List.drop_eq_nil_iff]
        omega
      obtain ⟨b, rest, hcons⟩ := List.exists_cons_of_ne_nil hne
      rcases Nat.lt_or_ge (offset + done) kOffsetMax with hinside | hbehind
      · cases outcome with
        | nothing =>
            rw [writeLoop, if_pos hlt, pwrite_of_lt hinside] at h
            simp only [hcons, writeAt]
            exact Option.some.inj h
        | fail =>
            rw [writeLoop, if_pos hlt, pwrite_of_lt hinside] at h
            simp only [hcons, writeAt]
            exact Option.some.inj h
        | interrupted =>
            rw [writeLoop, if_pos hlt, pwrite_of_lt hinside] at h
            have hrest := ih hdone hoff h
            rw [hcons] at hrest ⊢
            simpa only [writeAt, if_pos hinside] using hrest
        | transfer n =>
            rw [writeLoop_transfer hlt hinside] at h
            rw [writeAt_transfer hne hinside, List.length_drop]
            simp only at h ⊢
            have hk : min (max 1 n) (min (buf.length - done) (kOffsetMax - (offset + done)))
                ≤ min (buf.length - done) (kOffsetMax - (offset + done)) := Nat.min_le_right _ _
            generalize min (max 1 n) (min (buf.length - done) (kOffsetMax - (offset + done))) = k
              at h hk ⊢
            have hnext : offset + (done + k) < 2 ^ 64 := by
              rw [kOffsetMax] at hk
              omega
            rw [List.drop_drop, Nat.add_assoc]
            exact ih (by omega) hnext h
      · rw [writeLoop_refused hlt hbehind hoff] at h
        rw [writeAt_refused hne hbehind]
        exact Option.some.inj h

/-- **Every call that is not interrupted brings the end nearer.** -/
lemma writeLoop_isSome
    (h : buf.length ≤ done + outcomes.countP fun o => decide (o ≠ .interrupted)) :
    (writeLoop buf offset outcomes data done).isSome := by
  induction outcomes generalizing data done with
  | nil =>
      rw [writeLoop_of_le (by simpa using h)]
      rfl
  | cons outcome outcomes ih =>
      rcases Nat.lt_or_ge done buf.length with hlt | hfull
      · rw [writeLoop, if_pos hlt]
        cases hcall : pwrite data (buf.drop done) (offT (offset + done)) outcome with
        | mk data' result =>
            rw [List.countP_cons] at h
            cases result with
            | failed => rfl
            | interrupted =>
                have houtcome := pwrite_interrupted (congrArg Prod.snd hcall)
                exact ih (by simpa [houtcome] using h)
            | returned n =>
                cases n with
                | zero => rfl
                | succ n =>
                    refine ih ?_
                    split_ifs at h <;> omega
      · rw [writeLoop_of_le hfull]
        rfl

end Write

/-! ## What a caller sees -/

namespace File

variable {file : File} {data : Bytes} {offset : ℕ}

lemma readAt_eq {out : Bytes} {outcomes : List PreadOutcome} (hvalid : file.valid = true) :
    file.readAt data out offset outcomes = readLoop data offset outcomes out 0 := by
  rw [readAt, hvalid]
  rfl

lemma writeAt_eq {buf : Bytes} {outcomes : List PwriteOutcome} (hvalid : file.valid = true) :
    file.writeAt data buf offset outcomes = writeLoop buf offset outcomes data 0 := by
  rw [writeAt, hvalid]
  rfl

/-- A finished `read_at` has brought what is there. -/
lemma readAt_result {out : Bytes} {outcomes : List PreadOutcome} {r : Bytes × Option ℕ}
    (hvalid : file.valid = true) (hrange : offset + out.length ≤ kOffsetMax)
    (houtcomes : ∀ o ∈ outcomes, o.Harmless)
    (h : file.readAt data out offset outcomes = some r) :
    r = ((data.drop offset).take out.length
        ++ out.drop ((data.drop offset).take out.length).length,
      some ((data.drop offset).take out.length).length) := by
  have hoff : offset + 0 < 2 ^ 64 := by
    rw [kOffsetMax] at hrange
    omega
  rw [readAt_eq hvalid] at h
  have hfilled := readLoop_eq (Nat.zero_le _) (le_trans (Nat.min_le_right _ _) hrange) hoff h
  rw [Nat.sub_zero, Nat.add_zero, readAt_succeeds houtcomes hrange] at hfilled
  refine Prod.ext ?_ ?_
  · rw [hfilled.buffer _ rfl]
    generalize (data.drop offset).take out.length = found
    cases found with
    | nil => rfl
    | cons b found => simp [overwrite_of_ne_nil]
  · rw [hfilled.count, Option.map_some, Nat.zero_add]

/-- A finished `write_at` has written everything, or a part of it from the front. -/
lemma writeAt_result {buf : Bytes} {outcomes : List PwriteOutcome} {r : Bytes × Option ℕ}
    (hvalid : file.valid = true) (hrange : offset + buf.length ≤ kOffsetMax)
    (h : file.writeAt data buf offset outcomes = some r) :
    SwiftLink.writeAt outcomes data buf offset 0 = r := by
  have hoff : offset + 0 < 2 ^ 64 := by
    rw [kOffsetMax] at hrange
    omega
  rw [writeAt_eq hvalid] at h
  exact writeLoop_eq (Nat.zero_le _) hoff h

end File

/-- **Short transfers are hidden.**  For every file, every range an `off_t` can address and whatever
the single calls did:

* `read_at` leaves the bytes of the range that exist at the front of the buffer, the rest of the
  buffer as it was, and returns their number;
* `write_at` returns the full length and has done one write of the whole buffer, or returns `-1` and
  has written a part of it from the front; then nothing outside the range has changed, but for the
  zeros that fill a gap below it;
* without a call that fails or writes nothing it is the full length;
* both come to their end once as many calls as there are bytes have not been interrupted. -/
theorem short_transfers_hidden (file : File) (data : Bytes) (offset : ℕ)
    (hvalid : file.valid = true) :
    (∀ (out : Bytes) (outcomes : List PreadOutcome), offset + out.length < 2 ^ 63 →
      (∀ o ∈ outcomes, o.Harmless) →
      let found := data.extract offset (min (offset + out.length) data.length)
      (∀ r, file.readAt data out offset outcomes = some r →
        r = (found ++ out.drop found.length, some found.length)) ∧
      (out.length ≤ outcomes.countP (fun o => decide (o ≠ .interrupted)) →
        (file.readAt data out offset outcomes).isSome)) ∧
    ∀ (buf : Bytes) (outcomes : List PwriteOutcome), offset + buf.length < 2 ^ 63 →
      (∀ after n, file.writeAt data buf offset outcomes = some (after, some n) →
        n = buf.length ∧ after = overwrite 0 data offset buf) ∧
      (∀ after, file.writeAt data buf offset outcomes = some (after, none) →
        (∃ k ≤ buf.length, after = overwrite 0 data offset (buf.take k)) ∧
        ∀ i, i < offset ∨ offset + buf.length ≤ i →
          after[i]? = data[i]? ∨ data.length ≤ i ∧ i < offset ∧ after[i]? = some 0) ∧
      (buf.length ≤ outcomes.countP (fun o => decide (o ≠ .interrupted)) →
        (file.writeAt data buf offset outcomes).isSome) ∧
      ((∀ o ∈ outcomes, o.Harmless) → ∀ r, file.writeAt data buf offset outcomes = some r →
        r = (overwrite 0 data offset buf, some buf.length)) := by
  constructor
  · intro out outcomes hrange houtcomes found
    have hfound : found = (data.drop offset).take out.length := by
      show (data.drop offset).take (min (offset + out.length) data.length - offset) = _
      rw [List.take_eq_take_iff, List.length_drop]
      omega
    have hmax : offset + out.length ≤ kOffsetMax := Nat.le_sub_one_of_lt hrange
    refine ⟨fun r h => ?_, fun hcalls => ?_⟩
    · rw [hfound]
      exact File.readAt_result hvalid hmax houtcomes h
    · rw [File.readAt_eq hvalid]
      exact readLoop_isSome (by rwa [Nat.zero_add])
  · intro buf outcomes hrange
    have hmax : offset + buf.length ≤ kOffsetMax := Nat.le_sub_one_of_lt hrange
    refine ⟨fun after n h => ?_, fun after h => ?_, fun hcalls => ?_, fun houtcomes r h => ?_⟩
    · obtain ⟨hn, hafter, -⟩ := writeAt_some (File.writeAt_result hvalid hmax h)
      exact ⟨hn.trans (Nat.zero_add _), hafter⟩
    · obtain ⟨k, hk, hafter⟩ := writeAt_none (File.writeAt_result hvalid hmax h)
      refine ⟨⟨k, hk, hafter⟩, fun i hi => ?_⟩
      rw [hafter]
      refine overwrite_getElem?_outside 0 data ?_
      rw [List.length_take]
      omega
    · rw [File.writeAt_eq hvalid]
      exact writeLoop_isSome (by rwa [Nat.zero_add])
    · have hresult := File.writeAt_result hvalid hmax h
      rw [writeAt_succeeds houtcomes hmax, Nat.zero_add] at hresult
      exact hresult.symm

/-- A read cut short twice and interrupted once, over the end of the file; and a write behind the
end that fails half way. -/
theorem short_transfers_hidden_sample :
    let file : File := ⟨3⟩
    file.readAt [1, 2, 3, 4] [9, 9, 9, 9] 2
        [.transfer 1, .interrupted, .transfer 1, .transfer 5] = some ([3, 4, 9, 9], some 2) ∧
    ∃ after, file.writeAt [1] [7, 8, 9] 3 [.transfer 2, .interrupted, .fail] = some (after, none) ∧
      ∃ k ≤ 3, after = overwrite 0 [1] 3 ([7, 8, 9].take k) := by
  intro file
  constructor
  · have hread := ((short_transfers_hidden file [1, 2, 3, 4] 2 (by decide)).1 [9, 9, 9, 9]
      [.transfer 1, .interrupted, .transfer 1, .transfer 5] (by decide) (by decide)).1
    obtain ⟨r, hr⟩ := Option.isSome_iff_exists.mp (by decide : (file.readAt [1, 2, 3, 4]
      [9, 9, 9, 9] 2 [.transfer 1, .interrupted, .transfer 1, .transfer 5]).isSome = true)
    rw [hr, hread r hr]
    rfl
  · refine ⟨[1, 0, 0, 7, 8], by decide, ?_⟩
    exact (((short_transfers_hidden file [1] 3 (by decide)).2 [7, 8, 9]
      [.transfer 2, .interrupted, .fail] (by decide)).2.1 _ (by decide)).1

end SwiftLink
