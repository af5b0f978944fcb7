import SwiftLink.Protocol.Serializer

/-!
# One packet, one datagram

The round trip says that nothing is lost on the way.  The other direction says that nothing is
added: the decoder reads every byte of a datagram, refuses a length that is not exact and a
checksum that is not the CRC, so a datagram it accepts is the encoding of the packet it returns.
Two different datagrams never mean the same packet.
-/

namespace SwiftLink

/-! ## A field is the bytes it was read from -/

lemma be16_readBe16 (buffer : Bytes) (off : ℕ) :
    be16 (readBe16 buffer off) = [byteAt buffer off, byteAt buffer (off + 1)] := by
  simp only [be16, readBe16, List.cons.injEq, and_true]
  refine ⟨?_, ?_⟩
  all_goals
    ext i hi
    rw [← BitVec.getLsbD_eq_getElem hi, ← BitVec.getLsbD_eq_getElem hi]
    grind

lemma be32_readBe32 (buffer : Bytes) (off : ℕ) :
    be32 (readBe32 buffer off) = [byteAt buffer off, byteAt buffer (off + 1),
      byteAt buffer (off + 2), byteAt buffer (off + 3)] := by
  simp only [be32, readBe32, List.cons.injEq, and_true]
  refine ⟨?_, ?_, ?_, ?_⟩
  all_goals
    ext i hi
    rw [← BitVec.getLsbD_eq_getElem hi, ← BitVec.getLsbD_eq_getElem hi]
    grind

/-- The byte the reading loop took last is at the bottom of the register. -/
lemma extract_last {w : ℕ} (hw : 8 ≤ w) (v : BitVec w) (b : Byte) :
    ((v <<< 8) ||| b.setWidth w).extractLsb' 0 8 = b := by
  ext i hi
  rw [← BitVec.getLsbD_eq_getElem hi, ← BitVec.getLsbD_eq_getElem hi]
  grind

/-- The bytes it took before have moved up by one. -/
lemma extract_earlier {w : ℕ} {k : ℕ} (hk : k + 16 ≤ w) (v : BitVec w) (b : Byte) :
    ((v <<< 8) ||| b.setWidth w).extractLsb' (k + 8) 8 = v.extractLsb' k 8 := by
  ext i hi
  rw [← BitVec.getLsbD_eq_getElem hi, ← BitVec.getLsbD_eq_getElem hi]
  grind

lemma be64_readBe64 (buffer : Bytes) (off : ℕ) :
    be64 (readBe64 buffer off) = [byteAt buffer off, byteAt buffer (off + 1),
      byteAt buffer (off + 2), byteAt buffer (off + 3), byteAt buffer (off + 4),
      byteAt buffer (off + 5), byteAt buffer (off + 6), byteAt buffer (off + 7)] := by
  simp only [be64, readBe64, show List.range 8 = [0, 1, 2, 3, 4, 5, 6, 7] from rfl,
    List.foldl_cons, List.foldl_nil, Nat.add_zero]
  simp only [extract_last (w := 64) (by norm_num), extract_earlier (w := 64) (k := 0) (by norm_num),
    extract_earlier (w := 64) (k := 8) (by norm_num),
    extract_earlier (w := 64) (k := 16) (by norm_num),
    extract_earlier (w := 64) (k := 24) (by norm_num),
    extract_earlier (w := 64) (k := 32) (by norm_num),
    extract_earlier (w := 64) (k := 40) (by norm_num),
    extract_earlier (w := 64) (k := 48) (by norm_num)]

/-! ## What the decoder accepts -/

/-- A buffer is what is read at its first `n` places, and the rest. -/
lemma eq_bytes_append {buffer : Bytes} {n : ℕ} (h : n ≤ buffer.length) :
    buffer = (List.range n).map (byteAt buffer) ++ buffer.drop n := by
  refine List.ext_getElem? fun i => ?_
  rcases lt_or_ge i n with hlt | hge
  · rw [List.getElem?_append_left (by simpa using hlt)]
    simp [hlt, byteAt, List.getElem?_eq_getElem (lt_of_lt_of_le hlt h)]
  · rw [List.getElem?_append_right (by simpa using hge)]
    simp [hge]

/-- What the decoder has found out about a buffer it accepts. -/
structure Decodes (buffer : Bytes) (packet : Packet) : Prop where
  size_le : kHeaderWireSize ≤ buffer.length
  magic : readBe32 buffer Offset.magic = kMagic
  version : readBe8 buffer Offset.version = kVersion
  packetType : packet.header.packetType.toByte = readBe8 buffer Offset.packetType
  headerLength : (readBe16 buffer Offset.headerLength).toNat = kHeaderWireSize
  payloadLength : buffer.length - kHeaderWireSize = (readBe16 buffer Offset.payloadLength).toNat
  checksum : Crc32.crc32ExcludingChecksum buffer Offset.checksum
    = readBe32 buffer Offset.checksum
  header : packet.header =
    { magic := readBe32 buffer Offset.magic
      version := readBe8 buffer Offset.version
      packetType := packet.header.packetType
      headerLength := readBe16 buffer Offset.headerLength
      sessionId := readBe64 buffer Offset.sessionId
      sequenceNumber := readBe32 buffer Offset.sequenceNumber
      acknowledgementNumber := readBe32 buffer Offset.ackNumber
      byteOffset := readBe64 buffer Offset.byteOffset
      payloadLength := readBe16 buffer Offset.payloadLength
      flags := readBe16 buffer Offset.flags
      checksum := readBe32 buffer Offset.checksum }
  payload : packet.payload = buffer.drop kHeaderWireSize

/-- **The checks of `deserialize`**, one after the other. -/
lemma deserialize_decodes {buffer : Bytes} {packet : Packet}
    (h : deserialize buffer = .ok packet) : Decodes buffer packet := by
  rw [deserialize] at h
  split at h
  · simp at h
  next hsize =>
  split at h
  · simp at h
  next hmagic =>
  split at h
  · simp at h
  next hversion =>
  split at h
  · simp at h
  next type htype =>
  split at h
  · simp at h
  next hheader =>
  split at h
  · simp at h
  next hlength =>
  split at h
  · simp at h
  next hcrc =>
  obtain rfl := Except.ok.inj h
  exact ⟨not_lt.mp hsize, not_not.mp hmagic, not_not.mp hversion,
    PacketType.toByte_of_ofByte? htype, not_not.mp hheader, not_not.mp hlength,
    not_not.mp hcrc, rfl, rfl⟩

/-- **The decoder reads every byte.**  What it accepts is the encoding of what it returns. -/
theorem serialize_of_deserialize {buffer : Bytes} {packet : Packet}
    (h : deserialize buffer = .ok packet) : serialize packet.header packet.payload = buffer := by
  have hd := deserialize_decodes h
  have hlength : BitVec.ofNat 16 packet.payload.length = readBe16 buffer Offset.payloadLength := by
    rw [hd.payload, List.length_drop, hd.payloadLength, BitVec.ofNat_toNat, BitVec.setWidth_eq]
  have hfields : wireFields packet.header packet.payload = (List.range 36).map (byteAt buffer) := by
    rw [wireFields, hlength, hd.packetType, hd.header]
    simp only [be16_readBe16, be32_readBe32, be64_readBe64]
    rfl
  have hchecksum : be32 (readBe32 buffer Offset.checksum)
      = [byteAt buffer 36, byteAt buffer 37, byteAt buffer 38, byteAt buffer 39] :=
    be32_readBe32 buffer Offset.checksum
  have hbuffer : buffer = wireFields packet.header packet.payload ++
      be32 (readBe32 buffer Offset.checksum) ++ packet.payload := by
    rw [hfields, hchecksum, hd.payload]
    exact eq_bytes_append hd.size_le
  have hcrc : Crc32.crc32ExcludingChecksum (unsignedWire packet.header packet.payload)
      Offset.checksum = readBe32 buffer Offset.checksum := by
    rw [← hd.checksum, ← crc_wire, ← hbuffer]
  rw [serialize_eq packet.payload_le, hcrc, ← hbuffer]

/-- A packet that decodes has the protocol's constants in its header. -/
lemma wellFormed_of_deserialize {buffer : Bytes} {packet : Packet}
    (h : deserialize buffer = .ok packet) : packet.header.WellFormed := by
  have hd := deserialize_decodes h
  rw [hd.header]
  exact ⟨hd.magic, hd.version, BitVec.eq_of_toNat_eq hd.headerLength⟩

/-- **The codec is a bijection** between the packets of the protocol and the datagrams the decoder
accepts. -/
theorem codec_bijection :
    (∀ (header : PacketHeader) (payload : Bytes), header.WellFormed →
      payload.length ≤ kMaxPayloadSize →
      ∃ packet, deserialize (serialize header payload) = .ok packet ∧
        packet.header = { header with
          payloadLength := BitVec.ofNat 16 payload.length
          checksum := readBe32 (serialize header payload) Offset.checksum } ∧
        packet.header.payloadLength.toNat = payload.length ∧ packet.payload = payload) ∧
    (∀ (buffer : Bytes) (packet : Packet), deserialize buffer = .ok packet →
      serialize packet.header packet.payload = buffer) ∧
    (∀ (first second : Bytes) (packet : Packet), deserialize first = .ok packet →
      deserialize second = .ok packet → first = second) ∧
    (∀ buffer : Bytes, (∃ packet, deserialize buffer = .ok packet) ↔
      ∃ header payload, PacketHeader.WellFormed header ∧ payload.length ≤ kMaxPayloadSize ∧
        serialize header payload = buffer) := by
  refine ⟨fun header payload hwf hlength => ?_, fun buffer packet => serialize_of_deserialize,
    fun first second packet hfirst hsecond => ?_, fun buffer => ⟨?_, ?_⟩⟩
  · refine ⟨_, deserialize_serialize hwf hlength, ?_, ?_, rfl⟩
    · obtain ⟨-, -, -, -, -, -, -, -, -, -, hread⟩ :=
        read_wire (serialize header payload) (serialize_eq hlength)
      rw [hread, onWire]
    · simp only [kMaxPayloadSize] at hlength
      simp only [onWire, BitVec.toNat_ofNat]
      omega
  · rw [← serialize_of_deserialize hfirst, serialize_of_deserialize hsecond]
  · rintro ⟨packet, h⟩
    exact ⟨packet.header, packet.payload, wellFormed_of_deserialize h, packet.payload_le,
      serialize_of_deserialize h⟩
  · rintro ⟨header, payload, hwf, hlength, rfl⟩
    exact ⟨_, deserialize_serialize hwf hlength⟩

/-- An ACK of session 7 that acknowledges chunk 3. -/
theorem codec_bijection_ack :
    let header : PacketHeader := { packetType := .ack, sessionId := 7, acknowledgementNumber := 3 }
    ∃ packet, deserialize (serialize header []) = .ok packet ∧
      serialize packet.header packet.payload = serialize header [] := by
  intro header
  obtain ⟨packet, hdecoded, -⟩ := codec_bijection.1 header [] ⟨rfl, rfl, rfl⟩ (by decide)
  exact ⟨packet, hdecoded, codec_bijection.2.1 _ packet hdecoded⟩

end SwiftLink
