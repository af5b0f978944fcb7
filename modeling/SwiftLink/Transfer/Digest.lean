import SwiftLink.Crypto.Incremental
import SwiftLink.Transfer.ReceiverSession

/-!
# The digest of a file

Both ends hash a file through a 64 KiB buffer, and what they compare is what they computed that way.
The buffer is not part of the result: since the hasher computes SHA-256 of the bytes it has been
fed, however they were cut, either loop yields the one-shot digest of the bytes it read.
-/

namespace SwiftLink

open Sha256 (sha256 digestOfPieces)

lemma sha256_eq_digest (message : Bytes) : sha256 message = Fips180.digest message := by
  have hone := Sha256.digestOfPieces_eq_digest [message]
  rwa [List.flatten_singleton] at hone

section

variable {read : ℕ → ℕ → ℕ → Option Bytes} {data : Bytes} {size : ℕ}

/-- The digest the loop computes is the one-shot digest of the bytes it covers. -/
lemma digestOf_eq_sha256 (hsize : size ≤ data.length) :
    digestOf data size = sha256 (data.take size) := by
  rw [digestOf, Sha256.digestOfPieces_eq_digest, sha256_eq_digest, ← hashedBytes_eq hsize]
  rfl

/-- A loop over reads that return the bytes that exist yields the one-shot digest, if anything. -/
lemma hashFile_eq_sha256 {digest : Bytes}
    (hread : ∀ k want off bytes, read k want off = some bytes → bytes = (data.drop off).take want)
    (h : hashFile read size = some digest) : digest = sha256 (data.take size) := by
  obtain ⟨hdigest, hsize⟩ := hashFile_some hread h
  rw [hdigest, digestOf_eq_sha256 hsize]

/-- and it does yield it when no read fails. -/
lemma hashFile_sha256_succeeds
    (hread : ∀ k want off, off + want ≤ size → read k want off = some ((data.drop off).take want))
    (hsize : size ≤ data.length) : hashFile read size = some (sha256 (data.take size)) := by
  rw [hashFile_succeeds hread hsize, digestOf_eq_sha256 hsize]

end

/-- **Incremental SHA-256 is SHA-256.**  For a message of fewer than 2⁶¹ bytes:

* fed in any pieces, it yields the digest of the standard, and so does the one-shot function;
* `hash_file` over a file with these bytes yields the one-shot digest, if it yields one, and it does
  when no `pread` fails;
* and so does the read-back loop of `on_fin`, over the bytes it counts. -/
theorem incremental_sha256 (message : Bytes) (hlen : message.length < 2 ^ 61) :
    (∀ pieces : List Bytes, pieces.flatten = message →
      digestOfPieces pieces = Fips180.digest message) ∧
    sha256 message = Fips180.digest message ∧
    (∀ reads : ℕ → List PreadOutcome,
      (∀ digest, hashFile (fun k want off => readAt (reads k) message want off) message.length
        = some digest → digest = sha256 message) ∧
      ((∀ k, ∀ o ∈ reads k, o.Harmless) →
        hashFile (fun k want off => readAt (reads k) message want off) message.length
          = some (sha256 message))) ∧
    ∀ (s : ReceiverSession) (fs : FileSystem) (io : IoEnv) (fd : ℕ), s.file = some fd →
      s.bytesWritten = message.length → (fs.data fd).take s.bytesWritten = message →
      (∀ digest, hashFile (fun k want off => fs.readFile s.file (io.reads k) want off)
        s.bytesWritten = some digest → digest = sha256 message) ∧
      ((∀ k, ∀ o ∈ io.reads k, o.Harmless) →
        hashFile (fun k want off => fs.readFile s.file (io.reads k) want off) s.bytesWritten
          = some (sha256 message)) := by
  have hmax : message.length ≤ kOffsetMax := by
    rw [kOffsetMax]
    omega
  refine ⟨?_, sha256_eq_digest message, fun reads => ⟨?_, ?_⟩, ?_⟩
  · rintro pieces rfl
    exact Sha256.digestOfPieces_eq_digest pieces
  · intro digest h
    have hdigest := hashFile_eq_sha256 (fun _ _ _ _ hread => readAt_some hread) h
    rwa [List.take_length] at hdigest
  · intro hreads
    have hdigest : hashFile (fun k want off => readAt (reads k) message want off) message.length
        = some (sha256 (message.take message.length)) :=
      hashFile_sha256_succeeds (fun k want off hle =>
        readAt_succeeds (hreads k) (hle.trans hmax)) le_rfl
    rwa [List.take_length] at hdigest
  · intro s fs io fd hfile hbytes hmessage
    constructor
    · intro digest h
      have hread : ∀ k want off bytes, fs.readFile s.file (io.reads k) want off = some bytes →
          bytes = ((fs.data fd).drop off).take want := by
        intro k want off bytes hread
        rw [hfile] at hread
        exact readAt_some hread
      have hdigest := hashFile_eq_sha256 hread h
      rwa [hmessage] at hdigest
    · intro hreads
      have hread : ∀ k want off, off + want ≤ s.bytesWritten →
          fs.readFile s.file (io.reads k) want off
            = some (((fs.data fd).drop off).take want) := by
        intro k want off hle
        rw [hfile]
        exact readAt_succeeds (hreads k) (hle.trans (by rw [hbytes]; exact hmax))
      have hsize : s.bytesWritten ≤ (fs.data fd).length := by
        have := congrArg List.length hmessage
        rw [List.length_take] at this
        omega
      have hdigest := hashFile_sha256_succeeds hread hsize
      rwa [hmessage] at hdigest

/-- The standard's own example, cut in three. -/
theorem incremental_sha256_abc :
    (asciiBytes "abc").length < 2 ^ 61 ∧
      Fips180.digest (asciiBytes "abc") = [
        0xba, 0x78, 0x16, 0xbf, 0x8f, 0x01, 0xcf, 0xea, 0x41, 0x41, 0x40, 0xde, 0x5d, 0xae,
        0x22, 0x23, 0xb0, 0x03, 0x61, 0xa3, 0x96, 0x17, 0x7a, 0x9c, 0xb4, 0x10, 0xff, 0x61,
        0xf2, 0x00, 0x15, 0xad] := by
  refine ⟨by decide, ?_⟩
  have hpieces := (incremental_sha256 (asciiBytes "abc") (by decide)).1
    [asciiBytes "a", [], asciiBytes "bc"] rfl
  rw [← hpieces]
  decide +kernel

end SwiftLink
