import SwiftLink.Protocol.Crc32
import Mathlib.Tactic.NormNum
import Mathlib.Tactic.IntervalCases
import Mathlib.Algebra.Order.Ring.Nat

/-!
# The packet codec

`protocol/serializer.cpp`: field-by-field conversion between a `PacketHeader` and its big-endian
wire form.  The buffer is written and read at the source's own offset table, so a field stored at
one place and read back from another would show up here.

The result the rest of the development rests on is **`deserialize_serialize`**: what one party
puts on the wire is what the other party's decoder hands to its state machine.  From then on
packets, not bytes, are what the protocol proofs reason about.
-/

namespace SwiftLink

/-! ## Big-endian primitives -/

/-- `in[i]`.  Every read of the decoder is behind its length check. -/
def byteAt (buffer : Bytes) (i : ℕ) : Byte := buffer.getD i 0

def writeBe16 (out : Bytes) (off : ℕ) (value : BitVec 16) : Bytes :=
  (out.set off (((value >>> 8) &&& 0xFF).setWidth 8)).set (off + 1) ((value &&& 0xFF).setWidth 8)

def writeBe32 (out : Bytes) (off : ℕ) (value : BitVec 32) : Bytes :=
  (((out.set off (((value >>> 24) &&& 0xFF).setWidth 8)).set
    (off + 1) (((value >>> 16) &&& 0xFF).setWidth 8)).set
    (off + 2) (((value >>> 8) &&& 0xFF).setWidth 8)).set
    (off + 3) ((value &&& 0xFF).setWidth 8)

def writeBe64 (out : Bytes) (off : ℕ) (value : BitVec 64) : Bytes :=
  (List.range 8).foldl
    (fun buffer i => buffer.set (off + i) (((value >>> (56 - 8 * i)) &&& 0xFF).setWidth 8)) out

def readBe8 (buffer : Bytes) (off : ℕ) : BitVec 8 := byteAt buffer off

def readBe16 (buffer : Bytes) (off : ℕ) : BitVec 16 :=
  ((byteAt buffer off).setWidth 16 <<< 8) ||| (byteAt buffer (off + 1)).setWidth 16

def readBe32 (buffer : Bytes) (off : ℕ) : BitVec 32 :=
  ((byteAt buffer off).setWidth 32 <<< 24) |||
    ((byteAt buffer (off + 1)).setWidth 32 <<< 16) |||
    ((byteAt buffer (off + 2)).setWidth 32 <<< 8) |||
    (byteAt buffer (off + 3)).setWidth 32

def readBe64 (buffer : Bytes) (off : ℕ) : BitVec 64 :=
  (List.range 8).foldl
    (fun (value : BitVec 64) i => (value <<< 8) ||| (byteAt buffer (off + i)).setWidth 64) 0

/-! ## The offset table -/

namespace Offset

def magic : ℕ := 0
def version : ℕ := 4
def packetType : ℕ := 5
def headerLength : ℕ := 6
def sessionId : ℕ := 8
def sequenceNumber : ℕ := 16
def ackNumber : ℕ := 20
def byteOffset : ℕ := 24
def payloadLength : ℕ := 32
def flags : ℕ := 34
def checksum : ℕ := 36

end Offset

/-! ## The two directions -/

/-- The buffer as it stands when the CRC is taken over it: every field but the checksum, and the
payload. -/
def unsignedWire (header : PacketHeader) (payload : Bytes) : Bytes :=
  let out := List.replicate (kHeaderWireSize + payload.length) (0 : Byte)
  let out := writeBe32 out Offset.magic header.magic
  let out := out.set Offset.version header.version
  let out := out.set Offset.packetType header.packetType.toByte
  let out := writeBe16 out Offset.headerLength header.headerLength
  let out := writeBe64 out Offset.sessionId header.sessionId
  let out := writeBe32 out Offset.sequenceNumber header.sequenceNumber
  let out := writeBe32 out Offset.ackNumber header.acknowledgementNumber
  let out := writeBe64 out Offset.byteOffset header.byteOffset
  let out := writeBe16 out Offset.payloadLength (BitVec.ofNat 16 payload.length)
  let out := writeBe16 out Offset.flags header.flags
  let out := writeBe32 out Offset.checksum 0
  out.take kHeaderWireSize ++ payload

/-- `serialize`.  An inexpressible payload is signalled by the empty vector, not by an error. -/
def serialize (header : PacketHeader) (payload : Bytes) : Bytes :=
  if payload.length > kMaxPayloadSize then []
  else
    let buffer := unsignedWire header payload
    writeBe32 buffer Offset.checksum (Crc32.crc32ExcludingChecksum buffer Offset.checksum)

/-- `deserialize`, checks in the source's order: each makes the next one safe to perform. -/
def deserialize (buffer : Bytes) : Except DecodeError Packet :=
  if buffer.length < kHeaderWireSize then .error .bufferTooSmall
  else if readBe32 buffer Offset.magic ≠ kMagic then .error .badMagic
  else if readBe8 buffer Offset.version ≠ kVersion then .error .unsupportedVersion
  else match PacketType.ofByte? (readBe8 buffer Offset.packetType) with
    | none => .error .unknownPacketType
    | some packetType =>
      if (readBe16 buffer Offset.headerLength).toNat ≠ kHeaderWireSize then
        .error .badHeaderLength
      else if h : buffer.length - kHeaderWireSize
          ≠ (readBe16 buffer Offset.payloadLength).toNat then
        .error .payloadLengthMismatch
      else if Crc32.crc32ExcludingChecksum buffer Offset.checksum
          ≠ readBe32 buffer Offset.checksum then
        .error .checksumMismatch
      else
        .ok {
          header := {
            magic := readBe32 buffer Offset.magic
            version := readBe8 buffer Offset.version
            packetType := packetType
            headerLength := readBe16 buffer Offset.headerLength
            sessionId := readBe64 buffer Offset.sessionId
            sequenceNumber := readBe32 buffer Offset.sequenceNumber
            acknowledgementNumber := readBe32 buffer Offset.ackNumber
            byteOffset := readBe64 buffer Offset.byteOffset
            payloadLength := readBe16 buffer Offset.payloadLength
            flags := readBe16 buffer Offset.flags
            checksum := readBe32 buffer Offset.checksum }
          payload := buffer.drop kHeaderWireSize
          payload_le := by
            have hlt := (readBe16 buffer Offset.payloadLength).isLt
            simp only [ne_eq, not_not] at h
            simp only [List.length_drop, kMaxPayloadSize]
            omega }

/-! ## A field survives the round trip -/

/-- The byte a writer stores, `(value >> k) & 0xFF`, is bits `k..k+7` of the value. -/
lemma mask_byte {w : ℕ} (hw : 8 ≤ w) (v : BitVec w) (k : ℕ) :
    ((v >>> k) &&& (0xFF : BitVec w)).setWidth 8 = v.extractLsb' k 8 := by
  apply BitVec.eq_of_toNat_eq
  have hmask : 255 % 2 ^ w = 2 ^ 8 - 1 :=
    Nat.mod_eq_of_lt (lt_of_lt_of_le (by norm_num) (Nat.pow_le_pow_right (by norm_num) hw))
  simp only [BitVec.toNat_setWidth, BitVec.toNat_and, BitVec.toNat_ushiftRight,
    BitVec.ofNat_eq_ofNat, BitVec.toNat_ofNat, BitVec.extractLsb'_toNat]
  rw [hmask, Nat.and_two_pow_sub_one_eq_mod, Nat.mod_mod]

lemma mask_low_byte {w : ℕ} (hw : 8 ≤ w) (v : BitVec w) :
    (v &&& (0xFF : BitVec w)).setWidth 8 = v.extractLsb' 0 8 := by
  simpa using mask_byte hw v 0

/-- One turn of the reading loop undoes one turn of the writing loop. -/
lemma shiftRight_join {w : ℕ} (v : BitVec w) (k : ℕ) :
    ((v >>> (k + 8)) <<< 8) ||| (v.extractLsb' k 8).setWidth w = v >>> k := by
  ext i hi
  simp only [BitVec.getElem_or, BitVec.getElem_shiftLeft, BitVec.getElem_setWidth,
    BitVec.getLsbD_extractLsb', BitVec.getElem_ushiftRight]
  by_cases h8 : i < 8
  · simp [h8]
  · simp [h8, show k + 8 + (i - 8) = k + i by omega]

lemma be16_join (v : BitVec 16) :
    ((v.extractLsb' 8 8).setWidth 16 <<< 8) ||| (v.extractLsb' 0 8).setWidth 16 = v := by
  ext i hi
  rw [← BitVec.getLsbD_eq_getElem hi, ← BitVec.getLsbD_eq_getElem hi]
  grind

lemma be32_join (v : BitVec 32) :
    ((v.extractLsb' 24 8).setWidth 32 <<< 24) |||
      ((v.extractLsb' 16 8).setWidth 32 <<< 16) |||
      ((v.extractLsb' 8 8).setWidth 32 <<< 8) |||
      (v.extractLsb' 0 8).setWidth 32 = v := by
  ext i hi
  rw [← BitVec.getLsbD_eq_getElem hi, ← BitVec.getLsbD_eq_getElem hi]
  grind

lemma be64_join (v : BitVec 64) :
    (List.range 8).foldl (fun (value : BitVec 64) i =>
      (value <<< 8) ||| (v.extractLsb' (56 - 8 * i) 8).setWidth 64) 0 = v := by
  -- before the first byte the accumulator is empty, as if everything had been shifted out
  have h0 : (0#64 <<< 8) ||| (v.extractLsb' 56 8).setWidth 64 = v >>> 56 := by
    rw [← shiftRight_join v 56]
    congr 2
    apply BitVec.eq_of_toNat_eq
    simp [Nat.shiftRight_eq_div_pow]
    omega
  simp only [show List.range 8 = [0, 1, 2, 3, 4, 5, 6, 7] from rfl, List.foldl_cons,
    List.foldl_nil, Nat.reduceMul, Nat.reduceSub, BitVec.ofNat_eq_ofNat]
  rw [h0]
  simp only [shiftRight_join v 48, shiftRight_join v 40, shiftRight_join v 32,
    shiftRight_join v 24, shiftRight_join v 16, shiftRight_join v 8, shiftRight_join v 0,
    BitVec.ushiftRight_zero]

/-! ## The wire image, byte by byte -/

def be16 (v : BitVec 16) : Bytes := [v.extractLsb' 8 8, v.extractLsb' 0 8]

def be32 (v : BitVec 32) : Bytes :=
  [v.extractLsb' 24 8, v.extractLsb' 16 8, v.extractLsb' 8 8, v.extractLsb' 0 8]

def be64 (v : BitVec 64) : Bytes :=
  [v.extractLsb' 56 8, v.extractLsb' 48 8, v.extractLsb' 40 8, v.extractLsb' 32 8,
    v.extractLsb' 24 8, v.extractLsb' 16 8, v.extractLsb' 8 8, v.extractLsb' 0 8]

/-- The first 36 bytes of a packet: every field before the checksum, in order. -/
def wireFields (header : PacketHeader) (payload : Bytes) : Bytes :=
  be32 header.magic ++ [header.version, header.packetType.toByte] ++ be16 header.headerLength ++
    be64 header.sessionId ++ be32 header.sequenceNumber ++ be32 header.acknowledgementNumber ++
    be64 header.byteOffset ++ be16 (BitVec.ofNat 16 payload.length) ++ be16 header.flags

/-! Each write lands right behind the fields already written, in the zeroed rest of the buffer;
`done` is that prefix, and its length is the field's offset. -/

lemma set_zeros {done : Bytes} {off m : ℕ} (n : ℕ) (hoff : done.length = off) (hm : m = n + 1)
    (b : Byte) :
    (done ++ List.replicate m 0).set off b = (done ++ [b]) ++ List.replicate n 0 := by
  subst hoff hm
  simp [List.set_append_right, List.replicate_succ]

lemma writeBe16_zeros {done : Bytes} {off m : ℕ} (n : ℕ) (hoff : done.length = off)
    (hm : m = n + 2) (v : BitVec 16) :
    writeBe16 (done ++ List.replicate m 0) off v = (done ++ be16 v) ++ List.replicate n 0 := by
  simp only [writeBe16, mask_byte (w := 16) (by norm_num), mask_low_byte (w := 16) (by norm_num)]
  rw [set_zeros (n + 1) hoff hm, set_zeros n (by simp [hoff]) rfl]
  simp [be16]

lemma writeBe32_zeros {done : Bytes} {off m : ℕ} (n : ℕ) (hoff : done.length = off)
    (hm : m = n + 4) (v : BitVec 32) :
    writeBe32 (done ++ List.replicate m 0) off v = (done ++ be32 v) ++ List.replicate n 0 := by
  simp only [writeBe32, mask_byte (w := 32) (by norm_num), mask_low_byte (w := 32) (by norm_num)]
  rw [set_zeros (n + 3) hoff hm, set_zeros (n + 2) (by simp [hoff]) rfl,
    set_zeros (n + 1) (by simp [hoff]) rfl, set_zeros n (by simp [hoff]) rfl]
  simp [be32]

lemma writeBe64_zeros {done : Bytes} {off m : ℕ} (n : ℕ) (hoff : done.length = off)
    (hm : m = n + 8) (v : BitVec 64) :
    writeBe64 (done ++ List.replicate m 0) off v = (done ++ be64 v) ++ List.replicate n 0 := by
  simp only [writeBe64, show List.range 8 = [0, 1, 2, 3, 4, 5, 6, 7] from rfl, List.foldl_cons,
    List.foldl_nil, Nat.reduceMul, Nat.reduceSub, mask_byte (w := 64) (by norm_num)]
  rw [set_zeros (n + 7) (by simp [hoff]) hm, set_zeros (n + 6) (by simp [hoff]) rfl,
    set_zeros (n + 5) (by simp [hoff]) rfl, set_zeros (n + 4) (by simp [hoff]) rfl,
    set_zeros (n + 3) (by simp [hoff]) rfl, set_zeros (n + 2) (by simp [hoff]) rfl,
    set_zeros (n + 1) (by simp [hoff]) rfl, set_zeros n (by simp [hoff]) rfl]
  simp [be64]

@[simp] lemma be16_length (v : BitVec 16) : (be16 v).length = 2 := rfl
@[simp] lemma be32_length (v : BitVec 32) : (be32 v).length = 4 := rfl
@[simp] lemma be64_length (v : BitVec 64) : (be64 v).length = 8 := rfl

@[simp] lemma wireFields_length (header : PacketHeader) (payload : Bytes) :
    (wireFields header payload).length = 36 := by
  simp [wireFields]

/-- The writes at the offset table lay the fields out one after the other. -/
lemma unsignedWire_eq (header : PacketHeader) (payload : Bytes) :
    unsignedWire header payload = wireFields header payload ++ be32 0 ++ payload := by
  have hzero : List.replicate (kHeaderWireSize + payload.length) (0 : Byte)
      = [] ++ List.replicate (payload.length + 40) 0 := by
    rw [kHeaderWireSize, Nat.add_comm, List.nil_append]
  simp only [unsignedWire, hzero]
  rw [writeBe32_zeros (payload.length + 36) (by rfl) (by rfl),
    set_zeros (payload.length + 35) (by rfl) (by rfl),
    set_zeros (payload.length + 34) (by rfl) (by rfl),
    writeBe16_zeros (payload.length + 32) (by rfl) (by rfl),
    writeBe64_zeros (payload.length + 24) (by rfl) (by rfl),
    writeBe32_zeros (payload.length + 20) (by rfl) (by rfl),
    writeBe32_zeros (payload.length + 16) (by rfl) (by rfl),
    writeBe64_zeros (payload.length + 8) (by rfl) (by rfl),
    writeBe16_zeros (payload.length + 6) (by rfl) (by rfl),
    writeBe16_zeros (payload.length + 4) (by rfl) (by rfl),
    writeBe32_zeros payload.length (by rfl) (by rfl)]
  rw [List.take_left' (by simp [kHeaderWireSize])]
  simp [wireFields]

lemma serialize_eq {header : PacketHeader} {payload : Bytes}
    (h : payload.length ≤ kMaxPayloadSize) :
    serialize header payload = wireFields header payload ++
      be32 (Crc32.crc32ExcludingChecksum (unsignedWire header payload) Offset.checksum) ++
      payload := by
  rw [serialize, if_neg (by omega)]
  have hset : ∀ crc : BitVec 32, writeBe32 (wireFields header payload ++ be32 0 ++ payload)
      Offset.checksum crc = wireFields header payload ++ be32 crc ++ payload := by
    intro crc
    simp only [writeBe32, mask_byte (w := 32) (by norm_num),
      mask_low_byte (w := 32) (by norm_num), Offset.checksum]
    simp [List.set_append_right, be32]
  simp only []
  rw [← hset, ← unsignedWire_eq]

/-! ## The round trip -/

/-- What the receiver's decoder makes of a packet built from `header` and `payload`: the header
with the two derived fields filled in. -/
def onWire (header : PacketHeader) (payload : Bytes) : PacketHeader :=
  { header with
    payloadLength := BitVec.ofNat 16 payload.length
    checksum := Crc32.crc32ExcludingChecksum (unsignedWire header payload) Offset.checksum }

section RoundTrip

variable {header : PacketHeader} {payload : Bytes} {crc : BitVec 32}

/-- Rewriting the checksum field does not change the CRC it is compared with. -/
lemma crc_wire :
    Crc32.crc32ExcludingChecksum (wireFields header payload ++ be32 crc ++ payload)
        Offset.checksum
      = Crc32.crc32ExcludingChecksum (unsignedWire header payload) Offset.checksum := by
  rw [unsignedWire_eq]
  refine Crc32.crc32ExcludingChecksum_congr _ (by simp) fun j hj => ?_
  have hout : j < 36 ∨ 40 ≤ j := by simp only [Offset.checksum] at hj; omega
  rcases hout with hlow | hhigh
  · rw [List.append_assoc, List.append_assoc, List.getElem?_append_left (by simpa using hlow),
      List.getElem?_append_left (by simpa using hlow)]
  · rw [List.getElem?_append_right (by simpa using hhigh),
      List.getElem?_append_right (by simpa using hhigh)]
    simp

lemma readBe16_join {buffer : Bytes} {off : ℕ} {v : BitVec 16}
    (h0 : byteAt buffer off = v.extractLsb' 8 8)
    (h1 : byteAt buffer (off + 1) = v.extractLsb' 0 8) :
    readBe16 buffer off = v := by
  rw [readBe16, h0, h1, be16_join]

lemma readBe32_join {buffer : Bytes} {off : ℕ} {v : BitVec 32}
    (h0 : byteAt buffer off = v.extractLsb' 24 8)
    (h1 : byteAt buffer (off + 1) = v.extractLsb' 16 8)
    (h2 : byteAt buffer (off + 2) = v.extractLsb' 8 8)
    (h3 : byteAt buffer (off + 3) = v.extractLsb' 0 8) :
    readBe32 buffer off = v := by
  rw [readBe32, h0, h1, h2, h3, be32_join]

lemma readBe64_join {buffer : Bytes} {off : ℕ} {v : BitVec 64}
    (h : ∀ i < 8, byteAt buffer (off + i) = v.extractLsb' (56 - 8 * i) 8) :
    readBe64 buffer off = v := by
  rw [readBe64, ← be64_join v]
  refine List.foldl_ext _ _ _ fun value i hi => ?_
  rw [h i (List.mem_range.mp hi)]

/-- A wire image with checksum `crc`, read back field by field. -/
lemma read_wire (wire : Bytes) (hwire : wire = wireFields header payload ++ be32 crc ++ payload) :
    readBe32 wire Offset.magic = header.magic ∧
      readBe8 wire Offset.version = header.version ∧
      readBe8 wire Offset.packetType = header.packetType.toByte ∧
      readBe16 wire Offset.headerLength = header.headerLength ∧
      readBe64 wire Offset.sessionId = header.sessionId ∧
      readBe32 wire Offset.sequenceNumber = header.sequenceNumber ∧
      readBe32 wire Offset.ackNumber = header.acknowledgementNumber ∧
      readBe64 wire Offset.byteOffset = header.byteOffset ∧
      readBe16 wire Offset.payloadLength = BitVec.ofNat 16 payload.length ∧
      readBe16 wire Offset.flags = header.flags ∧
      readBe32 wire Offset.checksum = crc := by
  subst hwire
  -- the derived length is one more opaque field as far as the layout is concerned
  simp only [wireFields]
  generalize BitVec.ofNat 16 payload.length = length
  simp only [be16, be32, be64, List.cons_append, List.nil_append]
  refine ⟨readBe32_join rfl rfl rfl rfl, rfl, rfl, readBe16_join rfl rfl, ?_,
    readBe32_join rfl rfl rfl rfl, readBe32_join rfl rfl rfl rfl, ?_, readBe16_join rfl rfl,
    readBe16_join rfl rfl, readBe32_join rfl rfl rfl rfl⟩
  all_goals
    refine readBe64_join fun i hi => ?_
    interval_cases i <;> rfl

/-- **The codec round trip.**  A packet with well-formed constants and an expressible payload is
decoded to exactly what was encoded, with `payload_length` and `checksum` as computed. -/
theorem deserialize_serialize (hwf : header.WellFormed)
    (hlen : payload.length ≤ kMaxPayloadSize) :
    deserialize (serialize header payload)
      = .ok { header := onWire header payload, payload := payload, payload_le := hlen } := by
  obtain ⟨hmagic, hversion, hheader⟩ := hwf
  rw [serialize_eq hlen]
  obtain ⟨wire, hwire⟩ : ∃ wire, wire = wireFields header payload ++
      be32 (Crc32.crc32ExcludingChecksum (unsignedWire header payload) Offset.checksum) ++
      payload := ⟨_, rfl⟩
  obtain ⟨rMagic, rVersion, rType, rHeader, rSession, rSequence, rAck, rOffset, rLength, rFlags,
    rChecksum⟩ := read_wire wire hwire
  have hsize : wire.length = 40 + payload.length := by simp [hwire, ← Nat.add_assoc]
  have hfits : (BitVec.ofNat 16 payload.length).toNat = payload.length := by
    rw [BitVec.toNat_ofNat]
    exact Nat.mod_eq_of_lt (by simp only [kMaxPayloadSize] at hlen; omega)
  have hdrop : wire.drop kHeaderWireSize = payload := by
    rw [hwire, List.drop_left' (by simp [kHeaderWireSize])]
  have hcrc : Crc32.crc32ExcludingChecksum wire Offset.checksum
      = Crc32.crc32ExcludingChecksum (unsignedWire header payload) Offset.checksum := by
    rw [hwire, crc_wire]
  rw [← hwire]
  simp only [deserialize, rMagic, rVersion, rType, rHeader, rSession, rSequence, rAck, rOffset,
    rLength, rFlags, rChecksum, hsize, hfits, hdrop, hcrc, PacketType.ofByte?_toByte]
  rw [if_neg (by simp [kHeaderWireSize]), if_neg (by simp [hmagic]), if_neg (by simp [hversion]),
    if_neg (by simp [hheader, kHeaderWireSize]), dif_neg (by simp [kHeaderWireSize]),
    if_neg (by simp)]
  rfl

end RoundTrip

/-- The empty vector `serialize` returns for an inexpressible payload is not a packet. -/
@[simp] lemma deserialize_nil : deserialize [] = .error .bufferTooSmall := rfl

/-- Whatever the decoder accepts of an encoder's output is what was encoded. -/
lemma decoded_of_serialize {header : PacketHeader} {payload : Bytes} {packet : Packet}
    (hwf : header.WellFormed) (h : deserialize (serialize header payload) = .ok packet) :
    packet.header = onWire header payload ∧ packet.payload = payload := by
  by_cases hlen : payload.length ≤ kMaxPayloadSize
  · rw [deserialize_serialize hwf hlen] at h
    obtain rfl := Except.ok.inj h
    exact ⟨rfl, rfl⟩
  · rw [serialize, if_pos (not_le.mp hlen), deserialize_nil] at h
    simp at h

end SwiftLink
