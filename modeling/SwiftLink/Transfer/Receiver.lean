import SwiftLink.Transfer.ReceiverSession
import SwiftLink.Protocol.Serializer

/-!
# From the socket to a session and back

The blocking driver of `transfer/receiver.cpp`, one datagram at a time.  All the reliability logic
is in the session; the driver decodes, hands over, and encodes the reply under the session id the
packet carried.  The epoll server encodes its replies the same way.
-/

namespace SwiftLink

/-- The header of a reply: it echoes the packet's sequence number in both number fields. -/
def Reply.header (reply : Reply) (sessionId : BitVec 64) : PacketHeader :=
  { packetType := reply.type
    sessionId := sessionId
    sequenceNumber := reply.sequence
    acknowledgementNumber := reply.sequence }

/-- The datagram of `send_reply`. -/
def Reply.wire (reply : Reply) (sessionId : BitVec 64) : Bytes :=
  serialize (reply.header sessionId) reply.payload

/-- What a session answers a packet with, on the wire. -/
def World.answer (w : World) (packet : Packet) (io : IoEnv) : Option Bytes :=
  let reply := w.reply (.packet packet io)
  if reply.send then some (reply.wire packet.header.sessionId) else none

/-- One turn of the loop of `receive_file`; what does not parse is ignored. -/
def World.receive (w : World) (bytes : Bytes) (io : IoEnv) : World × Option Bytes :=
  match deserialize bytes with
  | .error _ => (w, none)
  | .ok packet => (w.next (.packet packet io), w.answer packet io)

/-- A decoded reply is the reply. -/
lemma Reply.decoded_wire {reply : Reply} {sessionId : BitVec 64} {packet : Packet}
    (h : deserialize (reply.wire sessionId) = .ok packet) :
    packet.header.packetType = reply.type ∧ packet.header.sessionId = sessionId ∧
      packet.header.acknowledgementNumber = reply.sequence := by
  obtain ⟨hheader, -⟩ := decoded_of_serialize ⟨rfl, rfl, rfl⟩ h
  rw [hheader]
  exact ⟨rfl, rfl, rfl⟩

end SwiftLink
