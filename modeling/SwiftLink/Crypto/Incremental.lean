import SwiftLink.Crypto.Fips180

/-!
# The incremental hasher computes SHA-256

The hasher sees a message in pieces.  It keeps the state after the full blocks of what it has seen,
and the rest in its buffer; `Absorbed` says so.  One call of `update` appends a piece
(`Absorbed.update`), through whichever of its three paths: topping up the buffer without filling it,
filling it and going on with the input, or going straight to the input.  `finish` pads the rest, in
one block or two (`Absorbed.finish`).

How the message was cut never enters: the invariant is about the bytes seen so far.
-/

namespace SwiftLink.Sha256

open Blocks (blocks rest)

/-! ## The buffer -/

lemma copyInto_length {buffer bytes : Bytes} {pos : ℕ} (h : pos + bytes.length ≤ buffer.length) :
    (copyInto buffer pos bytes).length = buffer.length := by
  simp only [copyInto, List.length_append, List.length_take, List.length_drop]
  omega

/-- What is copied continues what is before it. -/
lemma take_copyInto {buffer before : Bytes} {pos : ℕ} (bytes : Bytes)
    (hbefore : buffer.take pos = before)
    (hpos : pos ≤ buffer.length) :
    (copyInto buffer pos bytes).take (pos + bytes.length) = before ++ bytes := by
  subst hbefore
  rw [copyInto, List.take_left']
  rw [List.length_append, List.length_take, Nat.min_eq_left hpos]

/-- Copied to the end, it leaves nothing of what was there. -/
lemma copyInto_to_end {buffer before : Bytes} {pos : ℕ} (bytes : Bytes)
    (hbefore : buffer.take pos = before)
    (hend : pos + bytes.length = buffer.length) : copyInto buffer pos bytes = before ++ bytes := by
  rw [copyInto, hbefore, hend, List.drop_length, List.append_nil]

lemma lengthBytes_eq (lengthBits : BitVec 64) : lengthBytes lengthBits = be64 lengthBits := by
  simp only [lengthBytes, show List.range 8 = [0, 1, 2, 3, 4, 5, 6, 7] from rfl, List.map_cons,
    List.map_nil, mask_byte (w := 64) (by norm_num)]
  rfl

lemma wordBytes_eq (value : BitVec 32) : wordBytes value = be32 value := by
  simp only [wordBytes, mask_byte (w := 32) (by norm_num), mask_low_byte (w := 32) (by norm_num),
    be32]

/-! ## What the hasher holds -/

/-- The hasher has been fed `message`: its full blocks are in the state, the rest is in the
buffer. -/
structure Absorbed (s : Sha256) (message : Bytes) : Prop where
  size : s.buffer.length = 64
  buffered : s.buffered = message.length % 64
  pending : s.buffer.take s.buffered = rest 64 message
  state : s.state = (blocks 64 message).foldl compress initialState

lemma absorbed_nil : Absorbed {} [] := ⟨rfl, rfl, rfl, rfl⟩

namespace Absorbed

variable {s : Sha256} {message : Bytes}

/-- The counter of bits is not part of it. -/
lemma withBits (h : Absorbed s message) (n : BitVec 64) :
    Absorbed { s with totalBits := n } message :=
  ⟨h.size, h.buffered, h.pending, h.state⟩

lemma buffered_lt (h : Absorbed s message) : s.buffered < 64 := by
  rw [h.buffered]
  exact Nat.mod_lt _ (by norm_num)

/-- Whole blocks straight from the input, and the rest of it into the empty buffer. -/
lemma absorb (h : Absorbed s message) (hempty : s.buffered = 0) (data : Bytes) (offset : ℕ) :
    Absorbed (s.absorb data offset) (message ++ data.drop offset) := by
  have hdvd : 64 ∣ message.length := Nat.dvd_of_mod_eq_zero (by rw [← h.buffered, hempty])
  have hblocks : ∀ st, (List.range ((data.length - offset) / 64)).foldl
      (fun st k => compress st ((data.drop (offset + 64 * k)).take 64)) st
        = (blocks 64 (data.drop offset)).foldl compress st := by
    intro st
    simp only [blocks, List.foldl_map, List.length_drop, List.drop_drop]
  have hstate : (blocks 64 (data.drop offset)).foldl compress s.state
      = (blocks 64 (message ++ data.drop offset)).foldl compress initialState := by
    rw [Blocks.blocks_append_of_dvd (by norm_num) hdvd, List.foldl_append, h.state]
  have hrest : rest 64 (message ++ data.drop offset)
      = data.drop (offset + 64 * ((data.length - offset) / 64)) := by
    rw [Blocks.rest_append_of_dvd (by norm_num) hdvd, rest, List.drop_drop, List.length_drop]
  have hmod : (message ++ data.drop offset).length % 64 = (data.length - offset) % 64 := by
    rw [List.length_append, List.length_drop]
    omega
  simp only [Sha256.absorb, hblocks]
  split_ifs with hmore
  · refine ⟨?_, ?_, ?_, hstate⟩
    · rw [copyInto_length, h.size]
      rw [h.size, List.length_drop]
      omega
    · rw [hmod]
      dsimp only
      omega
    · have htake := take_copyInto (data.drop (offset + 64 * ((data.length - offset) / 64)))
        (List.take_zero (l := s.buffer)) (Nat.zero_le _)
      rw [Nat.zero_add, List.length_drop, List.nil_append] at htake
      rw [hrest]
      exact htake
  · refine ⟨h.size, ?_, ?_, hstate⟩
    · rw [hmod]
      dsimp only
      omega
    · dsimp only
      rw [hrest, hempty, List.take_zero, List.drop_of_length_le (by omega)]

/-- A piece that exactly fills the buffer makes it a block. -/
lemma fill (h : Absorbed s message) (piece : Bytes) (hfull : s.buffered + piece.length = 64) :
    Absorbed { s with
      buffer := copyInto s.buffer s.buffered piece
      state := compress s.state (copyInto s.buffer s.buffered piece)
      buffered := 0 } (message ++ piece) := by
  have hbuffer : copyInto s.buffer s.buffered piece = rest 64 message ++ piece :=
    copyInto_to_end _ h.pending (by rw [h.size, hfull])
  have hblock : (rest 64 message ++ piece).length = 64 := by
    rw [List.length_append, Blocks.rest_length, ← h.buffered, hfull]
  refine ⟨?_, ?_, ?_, ?_⟩
  · dsimp only
    rw [hbuffer, hblock]
  · have := h.buffered
    dsimp only
    rw [List.length_append]
    omega
  · dsimp only
    rw [List.take_zero, Blocks.rest_append (by norm_num), rest, hblock, List.drop_of_length_le]
    rw [hblock]
  · dsimp only
    rw [Blocks.blocks_append (by norm_num), Blocks.blocks_of_length (by norm_num) hblock,
      List.foldl_append, ← h.state, hbuffer]
    rfl

/-- **One piece.**  Whatever path `update` takes, the hasher has been fed the piece as well. -/
lemma update (h : Absorbed s message) (data : Bytes) :
    Absorbed (s.update data) (message ++ data) := by
  have hlt := h.buffered_lt
  have hrest : (rest 64 message).length = s.buffered := by rw [Blocks.rest_length, h.buffered]
  simp only [Sha256.update]
  split_ifs with hpartial hfew hfew' hfew'
  · -- the whole piece goes into the buffer and does not fill it
    have hshort : (rest 64 message ++ data).length < 64 := by
      rw [List.length_append, hrest]
      exact hfew'
    refine ⟨?_, ?_, ?_, ?_⟩
    · dsimp only
      rw [copyInto_length, h.size]
      rw [h.size, List.length_take]
      omega
    · dsimp only
      rw [List.length_append, h.buffered]
      rw [h.buffered] at hfew'
      omega
    · dsimp only
      rw [List.take_length, take_copyInto _ h.pending (by rw [h.size]; omega),
        Blocks.rest_append (by norm_num), Blocks.rest_of_lt hshort]
    · dsimp only
      rw [Blocks.blocks_append (by norm_num), Blocks.blocks_of_lt hshort, List.append_nil, h.state]
  · omega
  · omega
  · -- the buffer is filled, and the rest of the piece follows
    have htake : (data.take (64 - s.buffered)).length = 64 - s.buffered := by
      rw [List.length_take]
      omega
    have hfilled := h.fill (data.take (64 - s.buffered)) (by omega)
    have hnext := (hfilled.withBits (s.totalBits + BitVec.ofNat 64 data.length * 8)).absorb
      rfl data (64 - s.buffered)
    rw [List.append_assoc, List.take_append_drop] at hnext
    exact hnext
  · -- nothing was waiting
    have hnext := (h.withBits (s.totalBits + BitVec.ofNat 64 data.length * 8)).absorb
      (show s.buffered = 0 by omega) data 0
    rw [List.drop_zero] at hnext
    exact hnext

/-- **Any number of pieces.** -/
lemma foldl_update (h : Absorbed s message) (pieces : List Bytes) :
    Absorbed (pieces.foldl Sha256.update s) (message ++ pieces.flatten) := by
  induction pieces generalizing s message with
  | nil => simpa using h
  | cons piece pieces ih =>
      rw [List.foldl_cons, List.flatten_cons, ← List.append_assoc]
      exact ih (h.update piece)

/-- The buffer up to and including the marker. -/
lemma marked (h : Absorbed s message) :
    (copyInto s.buffer s.buffered [0x80]).length = 64 ∧
      (copyInto s.buffer s.buffered [0x80]).take (s.buffered + 1) = rest 64 message ++ [0x80] := by
  have hlt := h.buffered_lt
  constructor
  · rw [copyInto_length, h.size]
    rw [h.size, List.length_singleton]
    omega
  · have htake := take_copyInto [0x80] h.pending (by rw [h.size]; omega)
    rwa [List.length_singleton] at htake

/-- **The last blocks.**  The state `finish` ends with is the one after the rest, the marker, the
zeros and the length, in one block or in two. -/
lemma finish_eq (h : Absorbed s message) :
    ∃ state : Words, s.finish = be32 state.a ++ be32 state.b ++ be32 state.c ++ be32 state.d ++
        be32 state.e ++ be32 state.f ++ be32 state.g ++ be32 state.h ∧
      state = (blocks 64 (rest 64 message ++ ([0x80] ++
        List.replicate (Fips180.padZeros message.length) 0 ++ be64 s.totalBits))).foldl
          compress s.state := by
  have hlt := h.buffered_lt
  have hrest : (rest 64 message).length = s.buffered := by rw [Blocks.rest_length, h.buffered]
  obtain ⟨hsize, hmarked⟩ := h.marked
  simp only [Sha256.finish, wordBytes_eq, lengthBytes_eq]
  generalize copyInto s.buffer s.buffered [0x80] = buffer at hsize hmarked
  by_cases hroom : s.buffered + 1 > 56
  · have hfirst : copyInto buffer (s.buffered + 1) (List.replicate (64 - (s.buffered + 1)) 0)
        = rest 64 message ++ [0x80] ++ List.replicate (64 - (s.buffered + 1)) 0 :=
      copyInto_to_end _ hmarked (by rw [hsize, List.length_replicate]; omega)
    have hlen : (rest 64 message ++ [0x80] ++
        List.replicate (64 - (s.buffered + 1)) (0 : Byte)).length = 64 := by
      simp only [List.length_append, List.length_singleton, List.length_replicate, hrest]
      omega
    have hzeros : (copyInto (rest 64 message ++ [0x80] ++
        List.replicate (64 - (s.buffered + 1)) (0 : Byte)) 0 (List.replicate (56 - 0) 0)).take 56
        = List.replicate 56 0 := by
      have htake := take_copyInto (List.replicate 56 (0 : Byte)) (List.take_zero
        (l := rest 64 message ++ [0x80] ++ List.replicate (64 - (s.buffered + 1)) (0 : Byte)))
        (Nat.zero_le _)
      rwa [List.length_replicate, List.nil_append] at htake
    have hsecond := copyInto_to_end (be64 s.totalBits) hzeros
      (by rw [copyInto_length (by rw [hlen, List.length_replicate]; norm_num), hlen]; rfl)
    have hpad : Fips180.padZeros message.length = (64 - (s.buffered + 1)) + 56 := by
      have := h.buffered
      rw [Fips180.padZeros]
      omega
    simp only [if_pos hroom, hfirst, hsecond]
    refine ⟨_, rfl, ?_⟩
    rw [hpad, List.replicate_add]
    simp only [← List.append_assoc]
    rw [List.append_assoc _ (List.replicate 56 0), Blocks.blocks_append_of_dvd (by norm_num)
      (by rw [hlen]), Blocks.blocks_of_length (by norm_num) hlen,
      Blocks.blocks_of_length (by norm_num) (by simp)]
    rfl
  · have hzeros : (copyInto buffer (s.buffered + 1)
        (List.replicate (56 - (s.buffered + 1)) 0)).take 56
        = rest 64 message ++ [0x80] ++ List.replicate (56 - (s.buffered + 1)) 0 := by
      have htake := take_copyInto (List.replicate (56 - (s.buffered + 1)) (0 : Byte)) hmarked
        (by rw [hsize]; omega)
      rwa [List.length_replicate, Nat.add_sub_cancel' (not_lt.mp hroom)] at htake
    have hlast := copyInto_to_end (be64 s.totalBits) hzeros
      (by rw [copyInto_length (by rw [hsize, List.length_replicate]; omega), hsize]; rfl)
    have hpad : Fips180.padZeros message.length = 56 - (s.buffered + 1) := by
      have := h.buffered
      rw [Fips180.padZeros]
      omega
    simp only [if_neg hroom, hlast]
    refine ⟨_, rfl, ?_⟩
    rw [hpad]
    simp only [← List.append_assoc]
    rw [Blocks.blocks_of_length (by norm_num)]
    · rfl
    · simp only [List.length_append, List.length_singleton, List.length_replicate, hrest,
        be64_length]
      omega

/-- **The digest.**  With the right number of bits counted, `finish` yields the standard's. -/
lemma finish (h : Absorbed s message) (hbits : s.totalBits = BitVec.ofNat 64 (8 * message.length)) :
    s.finish = Fips180.digest message := by
  obtain ⟨state, hfinish, hstate⟩ := h.finish_eq
  have hcompress : compress = Fips180.hashBlock := by
    funext st block
    exact Fips180.compress_eq st block
  have hdigest : (blocks 64 (Fips180.pad message)).foldl Fips180.hashBlock Fips180.initialHash
      = state := by
    rw [Fips180.pad, List.append_assoc, List.append_assoc, Blocks.blocks_append (by norm_num),
      List.foldl_append, hstate, h.state, hcompress, Fips180.initialState_eq, hbits,
      List.append_assoc]
  rw [hfinish, Fips180.digest, hdigest]

end Absorbed

/-! ## The count of bits -/

lemma absorb_totalBits (s : Sha256) (data : Bytes) (offset : ℕ) :
    (s.absorb data offset).totalBits = s.totalBits := by
  simp only [absorb]
  split_ifs <;> rfl

lemma update_totalBits (s : Sha256) (data : Bytes) :
    (s.update data).totalBits = s.totalBits + BitVec.ofNat 64 (8 * data.length) := by
  have hmul : BitVec.ofNat 64 data.length * 8 = BitVec.ofNat 64 (8 * data.length) := by
    rw [BitVec.ofNat_mul, BitVec.mul_comm]
    rfl
  rw [← hmul]
  simp only [update]
  split_ifs <;> first | rfl | exact absorb_totalBits _ _ _

lemma foldl_update_totalBits (s : Sha256) (pieces : List Bytes) :
    (pieces.foldl update s).totalBits
      = s.totalBits + BitVec.ofNat 64 (8 * pieces.flatten.length) := by
  induction pieces generalizing s with
  | nil => simp
  | cons piece pieces ih =>
      rw [List.foldl_cons, ih, update_totalBits, BitVec.add_assoc, ← BitVec.ofNat_add,
        List.flatten_cons, List.length_append, Nat.mul_add]

/-- **Incremental SHA-256 is SHA-256**, however the message is cut. -/
theorem digestOfPieces_eq_digest (pieces : List Bytes) :
    digestOfPieces pieces = Fips180.digest pieces.flatten := by
  have habsorbed := absorbed_nil.foldl_update pieces
  rw [List.nil_append] at habsorbed
  refine habsorbed.finish ?_
  rw [foldl_update_totalBits]
  exact BitVec.zero_add _

end SwiftLink.Sha256
