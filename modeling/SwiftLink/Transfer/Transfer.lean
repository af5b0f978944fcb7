import SwiftLink.Io.FileSystem

/-!
# What both halves of a transfer share

The error codes and counters of `transfer/transfer.hpp`, the chunk count, and the loop that hashes
a file through a 64 KiB buffer.  The source has that loop twice, in `hash_file` on the sending side
and inline in `on_fin` on the receiving side; the two are the same text, and here the same function.
-/

namespace SwiftLink

inductive TransferError
  | none
  | fileOpenFailed
  | fileReadFailed
  | fileWriteFailed
  | socketFailed
  | sendFailed
  | receiveFailed
  | peerUnresponsive
  | protocolViolation
  | sizeMismatch
  | handshakeFailed
  | remoteError
  | integrityFailed
  | invalidFilename
  deriving Repr, DecidableEq, Inhabited

/-- The counters a transfer collects, both sides together, and the status an ERROR reply carried. -/
structure TransferStats where
  bytesTransferred : ℕ := 0
  chunks : ℕ := 0
  packetsSent : ℕ := 0
  retransmissions : ℕ := 0
  simulatedDrops : ℕ := 0
  packetsReceived : ℕ := 0
  duplicatesReceived : ℕ := 0
  outOfOrderReceived : ℕ := 0
  timeouts : ℕ := 0
  remoteStatus : StatusCode := .ok
  deriving Repr, DecidableEq

/-- `chunk_count`: the sum is taken in 64 bits, and a count that a 32-bit sequence number cannot
address is refused. -/
def chunkCount (fileSize chunkSize : ℕ) : Option ℕ :=
  if chunkSize = 0 then none
  else
    let chunks := (fileSize + chunkSize - 1) % 2 ^ 64 / chunkSize
    if chunks > 0xFFFFFFFF then none else some chunks

/-- Without a wrap-around the count is the ceiling of the quotient. -/
lemma chunkCount_some {fileSize chunkSize k : ℕ} (h : chunkCount fileSize chunkSize = some k)
    (hwrap : fileSize + chunkSize ≤ 2 ^ 64) :
    0 < chunkSize ∧ k < 2 ^ 32 ∧ fileSize ≤ k * chunkSize ∧
      ∀ s < k, s * chunkSize < fileSize := by
  simp only [chunkCount] at h
  split_ifs at h with hzero hlarge
  have hpos : 0 < chunkSize := Nat.pos_of_ne_zero hzero
  have hk : (fileSize + chunkSize - 1) / chunkSize = k := by
    rw [← Option.some.inj h, Nat.mod_eq_of_lt (by omega)]
  have hdiv := Nat.div_add_mod (fileSize + chunkSize - 1) chunkSize
  have hmod := Nat.mod_lt (fileSize + chunkSize - 1) hpos
  rw [hk, Nat.mul_comm] at hdiv
  refine ⟨hpos, ?_, by omega, fun s hs => ?_⟩
  · have := Option.some.inj h
    omega
  · have hle : (s + 1) * chunkSize ≤ k * chunkSize := Nat.mul_le_mul_right _ hs
    rw [Nat.add_mul, Nat.one_mul] at hle
    omega

/-! ## Hashing a file

`read k want off` is the `k`-th `read_at` of the loop.  A failed or a short read ends it. -/

/-- The buffer both loops read through. -/
def kHashBufferSize : ℕ := 64 * 1024

/-- The loop, from `offset` on.  Each turn consumes at least one byte, so `fuel` turns are enough
as soon as `fuel` buffers hold what is left. -/
def hashLoop (read : ℕ → ℕ → ℕ → Option Bytes) (size : ℕ) :
    (fuel turn offset : ℕ) → Sha256 → Option Sha256
  | 0, _, _, hasher => some hasher
  | fuel + 1, turn, offset, hasher =>
      if offset < size then
        let remaining := size - offset
        let want := if remaining < kHashBufferSize then remaining else kHashBufferSize
        match read turn want offset with
        | none => none
        | some bytes =>
            if bytes.length ≠ want then none
            else hashLoop read size fuel (turn + 1) (offset + want) (hasher.update bytes)
      else some hasher

/-- The digest of the first `size` bytes, or nothing if they could not all be read. -/
def hashFile (read : ℕ → ℕ → ℕ → Option Bytes) (size : ℕ) : Option Bytes :=
  (hashLoop read size (size / kHashBufferSize + 1) 0 0 {}).map Sha256.finish

/-- The pieces the loop feeds to the hasher when it hashes the first `size` bytes of `data`. -/
def hashPieces (data : Bytes) (size : ℕ) : (fuel offset : ℕ) → List Bytes
  | 0, _ => []
  | fuel + 1, offset =>
      if offset < size then
        let remaining := size - offset
        let want := if remaining < kHashBufferSize then remaining else kHashBufferSize
        (data.drop offset).take want :: hashPieces data size fuel (offset + want)
      else []

/-- The byte string whose SHA-256 the loop computes, as one string. -/
def hashedBytes (data : Bytes) (size : ℕ) : Bytes :=
  (hashPieces data size (size / kHashBufferSize + 1) 0).flatten

/-- The digest the loop computes when every read succeeds. -/
def digestOf (data : Bytes) (size : ℕ) : Bytes :=
  Sha256.digestOfPieces (hashPieces data size (size / kHashBufferSize + 1) 0)

@[simp] lemma digestOf_length (data : Bytes) (size : ℕ) :
    (digestOf data size).length = kSha256DigestSize := Sha256.finish_length _

section HashLoop

variable {read : ℕ → ℕ → ℕ → Option Bytes} {data : Bytes} {size : ℕ}

/-- If reads return the bytes that exist, a loop that finishes has fed exactly `hashPieces`, and
there were enough bytes for every one of its reads. -/
lemma hashLoop_some (hread : ∀ k want off bytes, read k want off = some bytes →
      bytes = (data.drop off).take want) :
    ∀ (fuel turn offset : ℕ) (hasher hasher' : Sha256),
      size ≤ offset + fuel * kHashBufferSize →
      hashLoop read size fuel turn offset hasher = some hasher' →
        hasher' = (hashPieces data size fuel offset).foldl Sha256.update hasher ∧
          (offset < size → size ≤ data.length)
  | 0, _, offset, hasher, hasher', hfuel, h => by
      refine ⟨by simpa [hashLoop, hashPieces] using h.symm, fun hlt => ?_⟩
      omega
  | fuel + 1, turn, offset, hasher, hasher', hfuel, h => by
      by_cases hlt : offset < size
      · simp only [hashLoop, if_pos hlt] at h
        simp only [hashPieces, if_pos hlt, List.foldl_cons]
        set want := if size - offset < kHashBufferSize then size - offset else kHashBufferSize
          with hwant
        have hwpos : 0 < want := by
          rw [hwant, kHashBufferSize]; split_ifs <;> omega
        split at h
        case h_1 => simp at h
        case h_2 bytes hb =>
          split at h
          case isTrue => simp at h
          case isFalse hlen =>
            rw [not_not] at hlen
            have hbytes := hread _ _ _ _ hb
            have hfuel' : size ≤ offset + want + fuel * kHashBufferSize := by
              rw [Nat.add_mul, Nat.one_mul] at hfuel
              rw [hwant]
              split_ifs <;> omega
            obtain ⟨hfold, hrest⟩ :=
              hashLoop_some hread fuel (turn + 1) (offset + want) _ _ hfuel' h
            refine ⟨by rw [hfold, hbytes], fun _ => ?_⟩
            -- the last read was not short, so the file reaches to the end of its range
            have hreach : offset + want ≤ data.length := by
              rw [hbytes, List.length_take, List.length_drop] at hlen
              omega
            by_cases hmore : offset + want < size
            · exact hrest hmore
            · omega
      · refine ⟨?_, fun h => absurd h hlt⟩
        simp only [hashLoop, if_neg hlt, Option.some.injEq] at h
        simp [hashPieces, if_neg hlt, h]

/-- If there are enough bytes and no read fails, the loop finishes. -/
lemma hashLoop_succeeds (hread : ∀ k want off, off + want ≤ size →
      read k want off = some ((data.drop off).take want)) (hsize : size ≤ data.length) :
    ∀ (fuel turn offset : ℕ) (hasher : Sha256),
      hashLoop read size fuel turn offset hasher
        = some ((hashPieces data size fuel offset).foldl Sha256.update hasher)
  | 0, _, _, _ => rfl
  | fuel + 1, turn, offset, hasher => by
      by_cases hlt : offset < size
      · simp only [hashLoop, hashPieces, if_pos hlt, List.foldl_cons]
        set want := if size - offset < kHashBufferSize then size - offset else kHashBufferSize
          with hwant
        have hwle : offset + want ≤ size := by
          rw [hwant]; split_ifs <;> omega
        rw [hread _ _ _ hwle]
        simp only [List.length_take, List.length_drop]
        rw [if_neg (by omega), hashLoop_succeeds hread hsize fuel]
      · simp [hashLoop, hashPieces, if_neg hlt]

/-- The pieces, joined, are the bytes from `offset` to `size`. -/
lemma hashPieces_flatten (hsize : size ≤ data.length) :
    ∀ fuel offset : ℕ, size ≤ offset + fuel * kHashBufferSize →
      (hashPieces data size fuel offset).flatten = (data.drop offset).take (size - offset)
  | 0, offset, hfuel => by
      simp [hashPieces, show size - offset = 0 by omega]
  | fuel + 1, offset, hfuel => by
      by_cases hlt : offset < size
      · simp only [hashPieces, if_pos hlt, List.flatten_cons]
        set want := if size - offset < kHashBufferSize then size - offset else kHashBufferSize
          with hwant
        have hwle : want ≤ size - offset := by
          rw [hwant]; split_ifs <;> omega
        have hfuel' : size ≤ offset + want + fuel * kHashBufferSize := by
          rw [Nat.add_mul, Nat.one_mul] at hfuel
          rw [hwant]
          split_ifs <;> omega
        rw [hashPieces_flatten hsize fuel (offset + want) hfuel', ← List.drop_drop,
          Nat.sub_add_eq]
        conv_rhs => rw [← Nat.add_sub_cancel' hwle, List.take_add]
      · simp [hashPieces, if_neg hlt, show size - offset = 0 by omega]

lemma hashFuel_enough (size : ℕ) : size ≤ 0 + (size / kHashBufferSize + 1) * kHashBufferSize := by
  have := Nat.lt_div_mul_add (a := size) (b := kHashBufferSize) (by norm_num [kHashBufferSize])
  rw [Nat.add_mul, Nat.one_mul]
  omega

/-- **A digest was computed, so every byte was there.** -/
lemma hashFile_some {digest : Bytes}
    (hread : ∀ k want off bytes, read k want off = some bytes →
      bytes = (data.drop off).take want)
    (h : hashFile read size = some digest) :
    digest = digestOf data size ∧ size ≤ data.length := by
  obtain ⟨hasher, hloop, rfl⟩ := Option.map_eq_some_iff.mp h
  obtain ⟨hfold, hreach⟩ := hashLoop_some hread _ _ _ _ _ (hashFuel_enough size) hloop
  refine ⟨by rw [hfold]; rfl, ?_⟩
  by_cases hpos : 0 < size
  · exact hreach hpos
  · omega

lemma hashFile_succeeds (hread : ∀ k want off, off + want ≤ size →
      read k want off = some ((data.drop off).take want)) (hsize : size ≤ data.length) :
    hashFile read size = some (digestOf data size) := by
  rw [hashFile, hashLoop_succeeds hread hsize]
  rfl

/-- The bytes hashed are the first `size` bytes of the file. -/
lemma hashedBytes_eq (hsize : size ≤ data.length) : hashedBytes data size = data.take size := by
  rw [hashedBytes, hashPieces_flatten hsize _ _ (hashFuel_enough size)]
  simp

end HashLoop

end SwiftLink
