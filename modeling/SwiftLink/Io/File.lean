import SwiftLink.Library.ByteFile
import SwiftLink.Crypto.Sha256
import Mathlib.Logic.Function.Basic
import Mathlib.Logic.Function.Iterate

/-!
# Files and the output directory

Two layers.  `writeAt` and `readAt` are the loops of `io/file.cpp` over one file's bytes, driven by
the outcomes of the successive `pwrite`/`pread` calls; `FileSystem` is the directory the receiving
side works in, with names and files kept apart the way a Unix file system keeps them.  The
distinction matters: an open descriptor keeps writing to a file whose name has been renamed over
or unlinked, and two openings of one name share the file.

The operating system's part is data: a schedule says what each call does, and everything here is
proved for every schedule.
-/

namespace SwiftLink

open ByteFile

/-- The largest file offset, `off_t` being a signed 64-bit integer.  A positional call at an offset
that does not fit is refused. -/
def kOffsetMax : ℕ := 2 ^ 63 - 1

/-! ## Positional writes -/

/-- What one `pwrite` does: transfer some bytes (never more than asked, and at least one), be
interrupted before transferring anything, transfer nothing, or fail. -/
inductive PwriteOutcome
  | transfer (n : ℕ)
  | interrupted
  | nothing
  | fail
  deriving Repr, DecidableEq

namespace PwriteOutcome

/-- Outcomes that do not make `write_at` give up. -/
def Harmless : PwriteOutcome → Prop
  | transfer _ => True
  | interrupted => True
  | nothing => False
  | fail => False

instance : DecidablePred Harmless := fun o =>
  match o with
  | transfer _ => isTrue trivial
  | interrupted => isTrue trivial
  | nothing => isFalse id
  | fail => isFalse id

end PwriteOutcome

/-- `File::write_at`: loops until the whole buffer is transferred or an error occurs.  `done` is the
count so far; the result is the file's new content and the count returned, `none` for `-1`.  Once
the schedule is used up the kernel transfers whatever the file has room for. -/
def writeAt : List PwriteOutcome → Bytes → Bytes → ℕ → ℕ → Bytes × Option ℕ
  | _, data, [], _, done => (data, some done)
  | [], data, buf, off, done =>
      let room := kOffsetMax - off
      if buf.length ≤ room then (overwrite 0 data off buf, some (done + buf.length))
      else (overwrite 0 data off (buf.take room), none)
  | .interrupted :: sched, data, buf, off, done =>
      if off < kOffsetMax then writeAt sched data buf off done else (data, none)
  | .nothing :: _, data, _, _, _ => (data, none)
  | .fail :: _, data, _, _, _ => (data, none)
  | .transfer n :: sched, data, buf, off, done =>
      let k := min (max 1 n) (min buf.length (kOffsetMax - off))
      if k = 0 then (data, none)
      else writeAt sched (overwrite 0 data off (buf.take k)) (buf.drop k) (off + k) (done + k)

/-- **A successful `write_at` is one positional write of the whole buffer**, inside the range an
`off_t` can address. -/
lemma writeAt_some {sched : List PwriteOutcome} :
    ∀ {data buf : Bytes} {off done n : ℕ} {data' : Bytes},
      writeAt sched data buf off done = (data', some n) →
        n = done + buf.length ∧ data' = overwrite 0 data off buf ∧
          (buf ≠ [] → off + buf.length ≤ kOffsetMax) := by
  induction sched with
  | nil =>
      intro data buf off done n data' h
      cases buf with
      | nil => simp only [writeAt, Prod.mk.injEq, Option.some.injEq] at h; simp [← h.1, ← h.2]
      | cons b rest =>
          simp only [writeAt] at h
          split_ifs at h with hroom
          · simp only [Prod.mk.injEq, Option.some.injEq] at h
            refine ⟨h.2.symm, h.1.symm, fun _ => ?_⟩
            simp only [List.length_cons] at hroom ⊢
            omega
          · simp at h
  | cons o sched ih =>
      intro data buf off done n data' h
      cases buf with
      | nil => simp only [writeAt, Prod.mk.injEq, Option.some.injEq] at h; simp [← h.1, ← h.2]
      | cons b rest =>
          cases o with
          | nothing => simp [writeAt] at h
          | fail => simp [writeAt] at h
          | interrupted =>
              simp only [writeAt] at h
              split_ifs at h
              · exact ih h
              · simp at h
          | transfer m =>
              simp only [writeAt] at h
              set buf := b :: rest with hbuf
              set k := min (max 1 m) (min buf.length (kOffsetMax - off)) with hk
              split_ifs at h with hzero
              · simp at h
              · have hkle : k ≤ buf.length := by omega
                obtain ⟨hn, hdata, hbound⟩ := ih h
                refine ⟨?_, ?_, fun _ => ?_⟩
                · rw [hn, List.length_drop]; omega
                · have hlen : off + k = off + (buf.take k).length := by
                    rw [List.length_take, Nat.min_eq_left hkle]
                  rw [hdata, hlen, overwrite_append, List.take_append_drop]
                · by_cases hrest : buf.drop k = []
                  · have : buf.length ≤ k := by simpa using hrest
                    omega
                  · have := hbound hrest
                    rw [List.length_drop] at this
                    omega

/-- A failed `write_at` has still only written a prefix of the buffer. -/
lemma writeAt_none {sched : List PwriteOutcome} :
    ∀ {data buf : Bytes} {off done : ℕ} {data' : Bytes},
      writeAt sched data buf off done = (data', none) →
        ∃ k ≤ buf.length, data' = overwrite 0 data off (buf.take k) := by
  induction sched with
  | nil =>
      intro data buf off done data' h
      cases buf with
      | nil => simp [writeAt] at h
      | cons b rest =>
          simp only [writeAt] at h
          split_ifs at h with hroom
          · simp at h
          · simp only [Prod.mk.injEq] at h
            exact ⟨kOffsetMax - off, by omega, h.1.symm⟩
  | cons o sched ih =>
      intro data buf off done data' h
      cases buf with
      | nil => simp [writeAt] at h
      | cons b rest =>
          cases o with
          | nothing => exact ⟨0, by simp, by simp [writeAt] at h; simp [h]⟩
          | fail => exact ⟨0, by simp, by simp [writeAt] at h; simp [h]⟩
          | interrupted =>
              simp only [writeAt] at h
              split_ifs at h
              · exact ih h
              · exact ⟨0, by simp, by simp at h; simp [h]⟩
          | transfer m =>
              simp only [writeAt] at h
              set buf := b :: rest with hbuf
              set k := min (max 1 m) (min buf.length (kOffsetMax - off)) with hk
              split_ifs at h with hzero
              · exact ⟨0, by simp, by simp at h; simp [h]⟩
              · have hkle : k ≤ buf.length := by omega
                obtain ⟨j, hj, hdata⟩ := ih h
                rw [List.length_drop] at hj
                refine ⟨k + j, by omega, ?_⟩
                have hlen : off + k = off + (buf.take k).length := by
                  rw [List.length_take, Nat.min_eq_left hkle]
                rw [hdata, hlen, overwrite_append, ← List.take_add]

/-- Without an error, and inside the addressable range, `write_at` succeeds. -/
lemma writeAt_succeeds {sched : List PwriteOutcome} (hsched : ∀ o ∈ sched, o.Harmless) :
    ∀ {data buf : Bytes} {off done : ℕ}, off + buf.length ≤ kOffsetMax →
      writeAt sched data buf off done = (overwrite 0 data off buf, some (done + buf.length)) := by
  induction sched with
  | nil =>
      intro data buf off done hle
      cases buf with
      | nil => simp [writeAt]
      | cons b rest => simp only [writeAt]; rw [if_pos (by omega)]
  | cons o sched ih =>
      intro data buf off done hle
      have hrest : ∀ o ∈ sched, o.Harmless := fun o ho => hsched o (by simp [ho])
      cases buf with
      | nil => simp [writeAt]
      | cons b rest =>
          cases o with
          | nothing => exact absurd (hsched .nothing (by simp)) id
          | fail => exact absurd (hsched .fail (by simp)) id
          | interrupted =>
              simp only [List.length_cons] at hle
              simp only [writeAt]
              rw [if_pos (by omega), ih hrest (by simp only [List.length_cons]; omega)]
          | transfer m =>
              simp only [writeAt]
              set buf := b :: rest with hbuf
              have hpos : 0 < buf.length := by simp [hbuf]
              set k := min (max 1 m) (min buf.length (kOffsetMax - off)) with hk
              have hkpos : k ≠ 0 := by omega
              have hkle : k ≤ buf.length := by omega
              have hlen : off + k = off + (buf.take k).length := by
                rw [List.length_take, Nat.min_eq_left hkle]
              rw [if_neg hkpos, ih hrest (by rw [List.length_drop]; omega), hlen, overwrite_append,
                List.take_append_drop, List.length_drop]
              congr 2
              omega

/-! ## Positional reads -/

/-- What one `pread` does before end of file. -/
inductive PreadOutcome
  | transfer (n : ℕ)
  | interrupted
  | fail
  deriving Repr, DecidableEq

namespace PreadOutcome

def Harmless : PreadOutcome → Prop
  | transfer _ => True
  | interrupted => True
  | fail => False

instance : DecidablePred Harmless := fun o =>
  match o with
  | transfer _ => isTrue trivial
  | interrupted => isTrue trivial
  | fail => isFalse id

end PreadOutcome

/-- `File::read_at`: loops until `want` bytes are there or the file ends; `none` for `-1`. -/
def readAt : List PreadOutcome → Bytes → ℕ → ℕ → Option Bytes
  | _, _, 0, _ => some []
  | [], data, want + 1, off =>
      if off ≤ kOffsetMax then some ((data.drop off).take (want + 1)) else none
  | .interrupted :: sched, data, want + 1, off =>
      if off ≤ kOffsetMax then readAt sched data (want + 1) off else none
  | .fail :: _, _, _ + 1, _ => none
  | .transfer n :: sched, data, want + 1, off =>
      if off ≤ kOffsetMax then
        let k := min (max 1 n) (min (want + 1) (data.length - off))
        if k = 0 then some []
        else (readAt sched data (want + 1 - k) (off + k)).map ((data.drop off).take k ++ ·)
      else none

/-- **What `read_at` returns**, when it returns: the bytes of the range that exist. -/
lemma readAt_some {sched : List PreadOutcome} :
    ∀ {data : Bytes} {want off : ℕ} {bytes : Bytes}, readAt sched data want off = some bytes →
      bytes = (data.drop off).take want := by
  induction sched with
  | nil =>
      intro data want off bytes h
      cases want with
      | zero => simp [readAt] at h; simp [h]
      | succ want =>
          simp only [readAt] at h
          split_ifs at h
          exact (Option.some.inj h).symm
  | cons o sched ih =>
      intro data want off bytes h
      cases want with
      | zero => simp [readAt] at h; simp [h]
      | succ want =>
          cases o with
          | fail => simp [readAt] at h
          | interrupted =>
              simp only [readAt] at h
              split_ifs at h
              exact ih h
          | transfer n =>
              simp only [readAt] at h
              set k := min (max 1 n) (min (want + 1) (data.length - off)) with hk
              split_ifs at h with hoff hzero
              · -- end of file
                have heof : data.length ≤ off := by omega
                rw [← Option.some.inj h, List.drop_eq_nil_of_le heof, List.take_nil]
              · obtain ⟨rest, hrest, rfl⟩ := Option.map_eq_some_iff.mp h
                have hkle : k ≤ want + 1 := by omega
                rw [ih hrest, ← List.drop_drop]
                conv_rhs => rw [← Nat.add_sub_cancel' hkle, List.take_add]

/-- Without an error `read_at` returns. -/
lemma readAt_succeeds {sched : List PreadOutcome} (hsched : ∀ o ∈ sched, o.Harmless) :
    ∀ {data : Bytes} {want off : ℕ}, off + want ≤ kOffsetMax →
      readAt sched data want off = some ((data.drop off).take want) := by
  induction sched with
  | nil =>
      intro data want off hle
      cases want with
      | zero => simp [readAt]
      | succ want => simp only [readAt]; rw [if_pos (by omega)]
  | cons o sched ih =>
      intro data want off hle
      have hrest : ∀ o ∈ sched, o.Harmless := fun o ho => hsched o (by simp [ho])
      suffices h : ∃ bytes, readAt (o :: sched) data want off = some bytes by
        obtain ⟨bytes, hbytes⟩ := h
        rw [hbytes, readAt_some hbytes]
      cases want with
      | zero => exact ⟨[], rfl⟩
      | succ want =>
          cases o with
          | fail => exact absurd (hsched .fail (by simp)) id
          | interrupted =>
              simp only [readAt]
              rw [if_pos (by omega)]
              exact ⟨_, ih hrest hle⟩
          | transfer n =>
              simp only [readAt]
              rw [if_pos (by omega)]
              split_ifs
              · exact ⟨[], rfl⟩
              · rw [ih hrest (by omega)]
                exact ⟨_, rfl⟩

end SwiftLink
