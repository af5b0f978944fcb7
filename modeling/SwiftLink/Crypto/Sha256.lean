import SwiftLink.Protocol.Serializer

/-!
# SHA-256

`crypto/sha256.cpp`: the incremental hasher the sender runs over its source file before the
transfer and the receiver runs over what landed on disk after it.
-/

namespace SwiftLink

def kSha256DigestSize : ℕ := 32

namespace Sha256

/-- The first 32 bits of the fractional parts of the cube roots of the first 64 primes. -/
def kRoundConstants : List (BitVec 32) := [
  0x428a2f98, 0x71374491, 0xb5c0fbcf, 0xe9b5dba5, 0x3956c25b, 0x59f111f1, 0x923f82a4, 0xab1c5ed5,
  0xd807aa98, 0x12835b01, 0x243185be, 0x550c7dc3, 0x72be5d74, 0x80deb1fe, 0x9bdc06a7, 0xc19bf174,
  0xe49b69c1, 0xefbe4786, 0x0fc19dc6, 0x240ca1cc, 0x2de92c6f, 0x4a7484aa, 0x5cb0a9dc, 0x76f988da,
  0x983e5152, 0xa831c66d, 0xb00327c8, 0xbf597fc7, 0xc6e00bf3, 0xd5a79147, 0x06ca6351, 0x14292967,
  0x27b70a85, 0x2e1b2138, 0x4d2c6dfc, 0x53380d13, 0x650a7354, 0x766a0abb, 0x81c2c92e, 0x92722c85,
  0xa2bfe8a1, 0xa81a664b, 0xc24b8b70, 0xc76c51a3, 0xd192e819, 0xd6990624, 0xf40e3585, 0x106aa070,
  0x19a4c116, 0x1e376c08, 0x2748774c, 0x34b0bcb5, 0x391c0cb3, 0x4ed8aa4a, 0x5b9cca4f, 0x682e6ff3,
  0x748f82ee, 0x78a5636f, 0x84c87814, 0x8cc70208, 0x90befffa, 0xa4506ceb, 0xbef9a3f7, 0xc67178f2]

def rotateRight (value : BitVec 32) (bits : ℕ) : BitVec 32 :=
  (value >>> bits) ||| (value <<< (32 - bits))

/-- The eight words of `state_`, and of the working variables `a..h`. -/
structure Words where
  a : BitVec 32
  b : BitVec 32
  c : BitVec 32
  d : BitVec 32
  e : BitVec 32
  f : BitVec 32
  g : BitVec 32
  h : BitVec 32
  deriving Repr, DecidableEq

/-- The first 32 bits of the fractional parts of the square roots of the first eight primes. -/
def initialState : Words where
  a := 0x6a09e667
  b := 0xbb67ae85
  c := 0x3c6ef372
  d := 0xa54ff53a
  e := 0x510e527f
  f := 0x9b05688c
  g := 0x1f83d9ab
  h := 0x5be0cd19

/-- `w[i]` for `16 ≤ i`, from the words before it. -/
def scheduleWord (w : List (BitVec 32)) (i : ℕ) : BitVec 32 :=
  let x := w.getD (i - 15) 0
  let y := w.getD (i - 2) 0
  let s0 := rotateRight x 7 ^^^ rotateRight x 18 ^^^ (x >>> 3)
  let s1 := rotateRight y 17 ^^^ rotateRight y 19 ^^^ (y >>> 10)
  w.getD (i - 16) 0 + s0 + w.getD (i - 7) 0 + s1

/-- The message schedule: sixteen words straight from the block, 48 derived. -/
def schedule (block : Bytes) : List (BitVec 32) :=
  (List.range 48).foldl (fun w k => w ++ [scheduleWord w (k + 16)])
    ((List.range 16).map fun i => readBe32 block (4 * i))

/-- One of the 64 rounds, on schedule word `wi` and round constant `ki`. -/
def round (s : Words) (ki wi : BitVec 32) : Words :=
  let s1 := rotateRight s.e 6 ^^^ rotateRight s.e 11 ^^^ rotateRight s.e 25
  let choice := (s.e &&& s.f) ^^^ (~~~ s.e &&& s.g)
  let temp1 := s.h + s1 + choice + ki + wi
  let s0 := rotateRight s.a 2 ^^^ rotateRight s.a 13 ^^^ rotateRight s.a 22
  let majority := (s.a &&& s.b) ^^^ (s.a &&& s.c) ^^^ (s.b &&& s.c)
  let temp2 := s0 + majority
  { a := temp1 + temp2, b := s.a, c := s.b, d := s.c, e := s.d + temp1, f := s.e, g := s.f,
    h := s.g }

/-- `compress`: folds one 64-byte block into the state. -/
def compress (state : Words) (block : Bytes) : Words :=
  let r := (kRoundConstants.zip (schedule block)).foldl (fun s kw => round s kw.1 kw.2) state
  { a := state.a + r.a, b := state.b + r.b, c := state.c + r.c, d := state.d + r.d,
    e := state.e + r.e, f := state.f + r.f, g := state.g + r.g, h := state.h + r.h }

end Sha256

/-- The incremental hasher. -/
structure Sha256 where
  state : Sha256.Words := Sha256.initialState
  buffer : Bytes := List.replicate 64 0
  buffered : ℕ := 0
  totalBits : BitVec 64 := 0
  deriving Repr, DecidableEq

namespace Sha256

/-- `memcpy(buffer_.data() + at, bytes.data(), bytes.size())`. -/
def copyInto (buffer : Bytes) (pos : ℕ) (bytes : Bytes) : Bytes :=
  buffer.take pos ++ bytes ++ buffer.drop (pos + bytes.length)

/-- The part of `update` that follows the top-up: whole blocks straight from the input, then the
rest into the (now empty) partial block. -/
def absorb (s : Sha256) (data : Bytes) (offset : ℕ) : Sha256 :=
  let blocks := (data.length - offset) / 64
  let state := (List.range blocks).foldl
    (fun st k => compress st ((data.drop (offset + 64 * k)).take 64)) s.state
  let offset := offset + 64 * blocks
  if offset < data.length then
    { s with state := state, buffered := data.length - offset
             buffer := copyInto s.buffer 0 (data.drop offset) }
  else { s with state := state }

def update (s : Sha256) (data : Bytes) : Sha256 :=
  let s := { s with totalBits := s.totalBits + BitVec.ofNat 64 data.length * 8 }
  if s.buffered > 0 then
    let want := 64 - s.buffered
    let take := if data.length < want then data.length else want
    let s := { s with buffer := copyInto s.buffer s.buffered (data.take take)
                      buffered := s.buffered + take }
    if s.buffered < 64 then s
    else absorb { s with state := compress s.state s.buffer, buffered := 0 } data take
  else absorb s data 0

/-- The message length as the last eight bytes of the padding. -/
def lengthBytes (lengthBits : BitVec 64) : Bytes :=
  (List.range 8).map fun i => ((lengthBits >>> (8 * (7 - i))) &&& 0xFF).setWidth 8

/-- The bytes of a 32-bit word, most significant first. -/
def wordBytes (value : BitVec 32) : Bytes :=
  [((value >>> 24) &&& 0xFF).setWidth 8, ((value >>> 16) &&& 0xFF).setWidth 8,
    ((value >>> 8) &&& 0xFF).setWidth 8, (value &&& 0xFF).setWidth 8]

/-- `finish`: a single 1 bit, zeroes, and the length, ending on a 64-byte boundary. -/
def finish (s : Sha256) : Bytes :=
  let buffer := copyInto s.buffer s.buffered [0x80]
  let buffered := s.buffered + 1
  -- no room for the length in this block: fill it, compress, start another
  let (state, buffer, buffered) :=
    if buffered > 56 then
      let buffer := copyInto buffer buffered (List.replicate (64 - buffered) 0)
      (compress s.state buffer, buffer, 0)
    else (s.state, buffer, buffered)
  let buffer := copyInto buffer buffered (List.replicate (56 - buffered) 0)
  let buffer := copyInto buffer 56 (lengthBytes s.totalBits)
  let state := compress state buffer
  wordBytes state.a ++ wordBytes state.b ++ wordBytes state.c ++ wordBytes state.d ++
    wordBytes state.e ++ wordBytes state.f ++ wordBytes state.g ++ wordBytes state.h

/-- A digest always has the size the FIN handler compares with. -/
@[simp] lemma finish_length (s : Sha256) : s.finish.length = kSha256DigestSize := by
  simp [finish, wordBytes, kSha256DigestSize]

/-- One-shot hashing. -/
def sha256 (data : Bytes) : Bytes :=
  (update {} data).finish

/-- Feeds pieces in order and finishes: the digest of a byte string as the program computes it,
piece by piece. -/
def digestOfPieces (pieces : List Bytes) : Bytes :=
  (pieces.foldl update {}).finish

end Sha256

end SwiftLink
