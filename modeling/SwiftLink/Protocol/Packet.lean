import Mathlib.Data.Nat.Basic
import Mathlib.Data.List.Basic
import Mathlib.Tactic.Common

/-!
# Packets and status codes

The host-side view of a SwiftLink packet, as `protocol/packet.hpp` and `protocol/status.hpp`
declare it.  Header fields are fixed-width in the source, so they are `BitVec`s here and cannot
hold a value the wire could not carry.

`PacketType` and `StatusCode` are closed enumerations: the source notes that a scoped enum "will
happily hold 200", and keeps such values out with `is_valid_packet_type` before a header is ever
built, which is what `PacketType.ofByte?` does.
-/

namespace SwiftLink

/-- `std::byte`. -/
abbrev Byte := BitVec 8

/-- `std::vector<std::byte>` and `std::span<const std::byte>`; also `std::string`, whose elements
the source reads back as `unsigned char`. -/
abbrev Bytes := List Byte

/-- The bytes of an ASCII text. -/
def asciiBytes (text : String) : Bytes :=
  text.toList.map fun c => BitVec.ofNat 8 c.toNat

/-! ## Constants -/

/-- ASCII "SWLK". -/
def kMagic : BitVec 32 := 0x53574C4B

def kVersion : BitVec 8 := 1

/-- The number of bytes the header occupies on the wire. -/
def kHeaderWireSize : ℕ := 40

/-- `payload_length` is a `uint16_t`, so this is a hard format limit. -/
def kMaxPayloadSize : ℕ := 65535

/-! ## Packet types -/

inductive PacketType
  | start
  | startAck
  | data
  | ack
  | fin
  | finAck
  | error
  deriving Repr, DecidableEq, Inhabited

namespace PacketType

/-- The enumerator's value, which is what goes on the wire. -/
def toByte : PacketType → Byte
  | start => 1
  | startAck => 2
  | data => 3
  | ack => 4
  | fin => 5
  | finAck => 6
  | error => 7

/-- `is_valid_packet_type` followed by the `static_cast`: the enumerator a raw byte stands for, if
it stands for one. -/
def ofByte? (raw : Byte) : Option PacketType :=
  if raw = 1 then some start
  else if raw = 2 then some startAck
  else if raw = 3 then some data
  else if raw = 4 then some ack
  else if raw = 5 then some fin
  else if raw = 6 then some finAck
  else if raw = 7 then some error
  else none

@[simp] lemma ofByte?_toByte (t : PacketType) : ofByte? t.toByte = some t := by
  cases t <;> rfl

/-- A byte that stands for a packet type is that type's byte. -/
lemma toByte_of_ofByte? {raw : Byte} {t : PacketType} (h : ofByte? raw = some t) :
    t.toByte = raw := by
  simp only [ofByte?] at h
  split_ifs at h
  all_goals
    obtain rfl := Option.some.inj h
    simp_all [toByte]

end PacketType

/-! ## Status codes -/

/-- Carried in the first payload byte of an ERROR packet. -/
inductive StatusCode
  | ok
  | unsupportedVersion
  | invalidFilename
  | fileOpenFailed
  | integrityCheckFailed
  | sizeMismatch
  | unknownSession
  | internalError
  | serverBusy
  deriving Repr, DecidableEq, Inhabited

namespace StatusCode

def toByte : StatusCode → Byte
  | ok => 0
  | unsupportedVersion => 1
  | invalidFilename => 2
  | fileOpenFailed => 3
  | integrityCheckFailed => 4
  | sizeMismatch => 5
  | unknownSession => 6
  | internalError => 7
  | serverBusy => 8

/-- `is_valid_status_code` followed by the `static_cast`. -/
def ofByte? (raw : Byte) : Option StatusCode :=
  if raw = 0 then some ok
  else if raw = 1 then some unsupportedVersion
  else if raw = 2 then some invalidFilename
  else if raw = 3 then some fileOpenFailed
  else if raw = 4 then some integrityCheckFailed
  else if raw = 5 then some sizeMismatch
  else if raw = 6 then some unknownSession
  else if raw = 7 then some internalError
  else if raw = 8 then some serverBusy
  else none

@[simp] lemma ofByte?_toByte (c : StatusCode) : ofByte? c.toByte = some c := by
  cases c <;> rfl

/-- `to_string(StatusCode)`: the message that rides behind the status byte. -/
def toMessage : StatusCode → String
  | ok => "ok"
  | unsupportedVersion => "unsupported protocol version"
  | invalidFilename => "filename rejected"
  | fileOpenFailed => "could not open the output file"
  | integrityCheckFailed => "SHA-256 of the received file did not match the sender's"
  | sizeMismatch => "received byte count disagrees with the declared size"
  | unknownSession => "no such session"
  | internalError => "internal error"
  | serverBusy => "server is at its session limit"

/-- The payload of an ERROR packet: one status byte, then the message. -/
def errorPayload (code : StatusCode) : Bytes :=
  code.toByte :: asciiBytes code.toMessage

/-- Every ERROR payload fits in a packet. -/
lemma errorPayload_length_le (code : StatusCode) :
    code.errorPayload.length ≤ kMaxPayloadSize := by
  cases code <;> decide

end StatusCode

/-! ## The header and the packet -/

structure PacketHeader where
  magic : BitVec 32 := kMagic
  version : BitVec 8 := kVersion
  packetType : PacketType := .data
  headerLength : BitVec 16 := 40
  sessionId : BitVec 64 := 0
  sequenceNumber : BitVec 32 := 0
  acknowledgementNumber : BitVec 32 := 0
  byteOffset : BitVec 64 := 0
  payloadLength : BitVec 16 := 0
  flags : BitVec 16 := 0
  checksum : BitVec 32 := 0
  deriving Repr, DecidableEq

/-- A header `serialize` can be asked to send so that the peer's decoder accepts it: the three
constant fields hold the protocol's values.  Every header the program builds starts from the
defaults and never touches them. -/
def PacketHeader.WellFormed (h : PacketHeader) : Prop :=
  h.magic = kMagic ∧ h.version = kVersion ∧ h.headerLength = 40

instance (h : PacketHeader) : Decidable h.WellFormed :=
  inferInstanceAs (Decidable (_ ∧ _ ∧ _))

/-- A decoded packet.  Both drivers only ever hold packets that came out of `deserialize`, where
`payload_length` is 16 bits and has been compared with the bytes present; the last field records
that bound so that no later proof has to re-establish it. -/
structure Packet where
  header : PacketHeader
  payload : Bytes
  payload_le : payload.length ≤ kMaxPayloadSize
  deriving DecidableEq

inductive DecodeError
  | bufferTooSmall
  | badMagic
  | unsupportedVersion
  | badHeaderLength
  | unknownPacketType
  | payloadLengthMismatch
  | checksumMismatch
  deriving Repr, DecidableEq

end SwiftLink
