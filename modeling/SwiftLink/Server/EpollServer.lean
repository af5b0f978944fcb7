import SwiftLink.Library.Table
import SwiftLink.Transfer.Receiver
import SwiftLink.Transfer.SenderWindow
import SwiftLink.Transfer.Verdict

/-!
# The epoll server

`run` of `server/epoll_server.cpp`: one thread, one loop, many receiving sessions in one output
directory.  The loop reacts to datagrams and to the timer; both are functions here from a server to
a server, with the clock and the outcome of every system call in their arguments.  The sessions are
kept under address, port and session id; all of them work in the same file system.

What the loop prints is left out, but for the counters it prints at shutdown; with it goes the
time a session started.
-/

namespace SwiftLink

structure Endpoint where
  address : Bytes
  port : BitVec 16
  deriving Repr, DecidableEq

structure SessionKey where
  address : Bytes
  port : BitVec 16
  sessionId : BitVec 64
  deriving Repr, DecidableEq

namespace SessionKey

/-- `operator<`. -/
def lt (key other : SessionKey) : Bool :=
  if key.address ≠ other.address then key.address < other.address
  else if key.port ≠ other.port then key.port < other.port
  else key.sessionId < other.sessionId

/-- The key a packet from a peer belongs to. -/
def ofPacket (peer : Endpoint) (packet : Packet) : SessionKey where
  address := peer.address
  port := peer.port
  sessionId := packet.header.sessionId

/-- Where the replies of a session go. -/
def peer (key : SessionKey) : Endpoint := ⟨key.address, key.port⟩

end SessionKey

/-- Times and durations are in nanoseconds, the configured ones in milliseconds. -/
structure ServerConfig where
  outputDirectory : Path
  sessionIdleTimeout : ℤ := 30000
  sessionLinger : ℤ := 20000
  maxSessions : ℕ := 256
  windowSize : BitVec 32 := 1024

structure Session where
  receiver : ReceiverSession
  peer : Endpoint
  lastActivity : TimePoint
  lingering : Bool := false
  completedAt : TimePoint := 0

structure Server where
  sessions : Table SessionKey Session
  fs : FileSystem
  completed : ℕ := 0
  failed : ℕ := 0
  expired : ℕ := 0
  refused : ℕ := 0

/-- A datagram on its way out. -/
structure Outgoing where
  peer : Endpoint
  wire : Bytes
  deriving Repr, DecidableEq

/-- The clock is read when a datagram is looked at, and again if its session has settled. -/
inductive ServerEvent
  | datagram (peer : Endpoint) (bytes : Bytes) (now later : TimePoint) (io : IoEnv)
  | sweep (now : TimePoint)

/-- `duration_cast<milliseconds>`, which rounds towards zero. -/
def toMilliseconds (duration : ℤ) : ℤ := duration.tdiv 1000000

namespace Session

def init (config : ServerConfig) (peer : Endpoint) (now : TimePoint) : Session where
  receiver := ReceiverSession.init config.windowSize config.outputDirectory
  peer := peer
  lastActivity := now

/-- Whether the sweep retires a session: a settled one leaves on the linger clock, another when it
has been idle for too long. -/
def stale (config : ServerConfig) (now : TimePoint) (session : Session) : Bool :=
  if session.lingering then
    config.sessionLinger < toMilliseconds (now - session.completedAt)
  else config.sessionIdleTimeout < toMilliseconds (now - session.lastActivity)

end Session

namespace Server

def init (fs : FileSystem) : Server where
  sessions := .empty
  fs := fs

/-- The file system after the destructors of the given sessions have run. -/
def destroyAll (entries : List (SessionKey × Session)) (fs : FileSystem) : FileSystem :=
  entries.foldl (fun fs e => e.2.receiver.destroy fs) fs

/-- Erases the entries that satisfy `p`, in map order. -/
def eraseIf (sv : Server) (p : SessionKey × Session → Bool) : Server :=
  { sv with
    sessions := sv.sessions.eraseIf p
    fs := destroyAll (sv.sessions.entries.filter p) sv.fs }

/-- The sessions that count against the limit. -/
def active (sv : Server) : ℕ := (sv.sessions.entries.filter fun e => !e.2.lingering).length

/-- `send_error`. -/
def errorWire (request : PacketHeader) (code : StatusCode) : Bytes :=
  serialize
    { packetType := .error
      sessionId := request.sessionId
      sequenceNumber := request.sequenceNumber
      acknowledgementNumber := request.sequenceNumber } code.errorPayload

/-- Under pressure the lingering sessions are retired early.  The bound is a `size_t`. -/
def makeRoom (config : ServerConfig) (sv : Server) : Server :=
  if config.maxSessions * 2 % 2 ^ 64 ≤ sv.sessions.entries.length then
    sv.eraseIf fun e => e.2.lingering
  else sv

/-- Counts a session that has settled. -/
def countSettled (sv : Server) (error : TransferError) : Server :=
  if error = .none then { sv with completed := sv.completed + 1 }
  else { sv with failed := sv.failed + 1 }

@[simp] lemma countSettled_sessions (sv : Server) (error : TransferError) :
    (sv.countSettled error).sessions = sv.sessions := by
  rw [countSettled]
  split_ifs <;> rfl

@[simp] lemma countSettled_fs (sv : Server) (error : TransferError) :
    (sv.countSettled error).fs = sv.fs := by
  rw [countSettled]
  split_ifs <;> rfl

/-- Hands a packet to the session under `key`, and closes its file once it has settled. -/
def dispatch (sv : Server) (key : SessionKey) (session : Session) (packet : Packet)
    (now later : TimePoint) (io : IoEnv) : Server × Option Outgoing :=
  let w : World := ⟨session.receiver, sv.fs⟩
  let w' := w.next (.packet packet io)
  let reply := (w.answer packet io).map fun wire => ⟨session.peer, wire⟩
  let session := { session with receiver := w'.session, lastActivity := now }
  let sv := { sv with fs := w'.fs }
  if session.receiver.finished ∧ !session.lingering then
    let sv := sv.countSettled session.receiver.error
    let session := { session with
      receiver := session.receiver.closeFile
      lingering := true
      completedAt := later }
    ({ sv with sessions := sv.sessions.set key session }, reply)
  else ({ sv with sessions := sv.sessions.set key session }, reply)

/-- One datagram.  Only a START may create a session. -/
def onDatagram (config : ServerConfig) (sv : Server) (peer : Endpoint) (bytes : Bytes)
    (now later : TimePoint) (io : IoEnv) : Server × Option Outgoing :=
  match deserialize bytes with
  | .error _ => (sv, none)
  | .ok packet =>
      let key := SessionKey.ofPacket peer packet
      match sv.sessions.find key with
      | some session => sv.dispatch key session packet now later io
      | none =>
          if packet.header.packetType ≠ .start then (sv, none)
          else if config.maxSessions ≤ sv.active then
            ({ sv with refused := sv.refused + 1 },
              some ⟨peer, errorWire packet.header .serverBusy⟩)
          else
            let sv := sv.makeRoom config
            let session := Session.init config peer now
            let sv := { sv with sessions := sv.sessions.emplace SessionKey.lt key session }
            sv.dispatch key session packet now later io

/-- The idle sweep. -/
def sweep (config : ServerConfig) (sv : Server) (now : TimePoint) : Server :=
  let timedOut := sv.sessions.entries.filter fun e => e.2.stale config now && !e.2.lingering
  let sv := sv.eraseIf fun e => e.2.stale config now
  { sv with expired := sv.expired + timedOut.length }

/-- The sessions reported as abandoned at shutdown, and the directory their destructors leave. -/
def shutdown (sv : Server) : ℕ × FileSystem :=
  (sv.active, destroyAll sv.sessions.entries sv.fs)

def next (config : ServerConfig) (sv : Server) : ServerEvent → Server
  | .datagram peer bytes now later io => (sv.onDatagram config peer bytes now later io).1
  | .sweep now => sv.sweep config now

def run (config : ServerConfig) (sv : Server) (events : List ServerEvent) : Server :=
  events.foldl (next config) sv

/-- What the server sends because of an event. -/
def reply (config : ServerConfig) (sv : Server) : ServerEvent → Option Outgoing
  | .datagram peer bytes now later io => (sv.onDatagram config peer bytes now later io).2
  | .sweep _ => none

lemma makeRoom_find_none (config : ServerConfig) {sv : Server} {key : SessionKey}
    (h : sv.sessions.find key = none) : (sv.makeRoom config).sessions.find key = none := by
  rw [makeRoom]
  split_ifs
  · rw [Table.find_eq_none_iff] at h ⊢
    exact fun e he => h e (Table.mem_eraseIf.mp he).1
  · exact h

/-! ## What an event can do -/

/-- What `dispatch` makes of a session, given the world after the packet. -/
structure Dispatched (session : Session) (w' : World) (session' : Session) : Prop where
  peer_eq : session'.peer = session.peer
  lingering_eq : session'.lingering = (session.lingering || w'.session.finished)
  receiver_eq : session'.receiver =
    if w'.session.finished ∧ session.lingering = false then w'.session.closeFile else w'.session

/-- Closing the file is all the server itself does to the session. -/
lemma Dispatched.same {session session' : Session} {w' : World}
    (hd : Dispatched session w' session') :
    session'.receiver = { w'.session with file := session'.receiver.file } := by
  rw [hd.receiver_eq]
  split_ifs <;> rfl

lemma Dispatched.verdict {session session' : Session} {w' : World}
    (hd : Dispatched session w' session') (h : w'.session.Verdict) : session'.receiver.Verdict := by
  rw [hd.same]
  exact h.congr rfl rfl rfl rfl

/-- **Lingering marks the settled sessions**, and a packet keeps it so. -/
lemma Dispatched.lingering_finished {session session' : Session} {fs : FileSystem}
    {packet : Packet} {io : IoEnv}
    (hd : Dispatched session (World.next ⟨session.receiver, fs⟩ (.packet packet io)) session')
    (h : session.lingering = session.receiver.finished) :
    session'.lingering = session'.receiver.finished := by
  have hclosed : session'.receiver.finished =
      (World.next ⟨session.receiver, fs⟩ (.packet packet io)).session.finished := by
    rw [hd.same]
  rw [hclosed, hd.lingering_eq, h]
  cases hf : session.receiver.finished with
  | false => simp
  | true =>
      obtain ⟨stats, hsame⟩ :=
        World.next_of_finished (w := ⟨session.receiver, fs⟩) hf packet io
      rw [hsame]
      simp [hf]

/-- **Everything `dispatch` does** to the table and the directory, and what it sends. -/
lemma dispatch_spec (sv : Server) (key : SessionKey) (session : Session) (packet : Packet)
    (now later : TimePoint) (io : IoEnv) :
    let w : World := ⟨session.receiver, sv.fs⟩
    let w' := w.next (.packet packet io)
    ∃ session', Dispatched session w' session' ∧
      (sv.dispatch key session packet now later io).1.sessions = sv.sessions.set key session' ∧
      (sv.dispatch key session packet now later io).1.fs = w'.fs ∧
      (sv.dispatch key session packet now later io).2
        = (w.answer packet io).map fun wire => ⟨session.peer, wire⟩ := by
  intro w w'
  simp only [dispatch]
  by_cases hsettled : w'.session.finished = true ∧ (!session.lingering) = true
  · rw [if_pos hsettled]
    have hlinger : session.lingering = false := by simpa using hsettled.2
    refine ⟨{ session with
      receiver := w'.session.closeFile
      lastActivity := now
      lingering := true
      completedAt := later }, ⟨rfl, ?_, ?_⟩, by rw [countSettled_sessions], countSettled_fs _ _,
      rfl⟩
    · simp [hsettled.1]
    · rw [if_pos ⟨hsettled.1, hlinger⟩]
  · rw [if_neg hsettled]
    refine ⟨{ session with receiver := w'.session, lastActivity := now }, ⟨rfl, ?_, ?_⟩, rfl, rfl,
      rfl⟩
    · cases hf : w'.session.finished with
      | false => simp
      | true =>
          have hlinger : session.lingering = true := by simpa [hf] using hsettled
          simp [hlinger]
    · rw [if_neg fun h => hsettled ⟨h.1, by simp [h.2]⟩]

/-- **Everything a datagram can do.** -/
inductive Reacts (config : ServerConfig) (sv : Server) (peer : Endpoint) (bytes : Bytes)
    (now later : TimePoint) (io : IoEnv) : Server × Option Outgoing → Prop
  | malformed (reason : DecodeError) (h : deserialize bytes = .error reason) :
      Reacts config sv peer bytes now later io (sv, none)
  | unknown (packet : Packet) (h : deserialize bytes = .ok packet)
      (habsent : sv.sessions.find (.ofPacket peer packet) = none)
      (htype : packet.header.packetType ≠ .start) :
      Reacts config sv peer bytes now later io (sv, none)
  | refused (packet : Packet) (h : deserialize bytes = .ok packet)
      (habsent : sv.sessions.find (.ofPacket peer packet) = none)
      (htype : packet.header.packetType = .start) (hfull : config.maxSessions ≤ sv.active) :
      Reacts config sv peer bytes now later io
        ({ sv with refused := sv.refused + 1 },
          some ⟨peer, errorWire packet.header .serverBusy⟩)
  | known (packet : Packet) (h : deserialize bytes = .ok packet) (session : Session)
      (hpresent : sv.sessions.find (.ofPacket peer packet) = some session) :
      Reacts config sv peer bytes now later io
        (sv.dispatch (.ofPacket peer packet) session packet now later io)
  | opened (packet : Packet) (h : deserialize bytes = .ok packet)
      (habsent : sv.sessions.find (.ofPacket peer packet) = none)
      (htype : packet.header.packetType = .start) (hroom : sv.active < config.maxSessions) :
      Reacts config sv peer bytes now later io
        ({ sv.makeRoom config with
            sessions := (sv.makeRoom config).sessions.emplace SessionKey.lt
              (.ofPacket peer packet) (Session.init config peer now) }.dispatch
          (.ofPacket peer packet) (Session.init config peer now) packet now later io)

/-- **`onDatagram` does one of the things `Reacts` lists.** -/
theorem onDatagram_reacts (config : ServerConfig) (sv : Server) (peer : Endpoint) (bytes : Bytes)
    (now later : TimePoint) (io : IoEnv) :
    Reacts config sv peer bytes now later io (sv.onDatagram config peer bytes now later io) := by
  simp only [onDatagram]
  split
  · next reason h => exact .malformed reason h
  · next packet h =>
    split
    · next session hpresent => exact .known packet h session hpresent
    · next habsent =>
      split_ifs with htype hfull
      · exact .unknown packet h habsent htype
      · exact .refused packet h habsent (not_not.mp htype) hfull
      · exact .opened packet h habsent (not_not.mp htype) (not_le.mp hfull)

end Server

end SwiftLink
