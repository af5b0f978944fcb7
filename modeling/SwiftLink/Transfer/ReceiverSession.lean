import SwiftLink.Transfer.Transfer
import SwiftLink.Transfer.Filename
import SwiftLink.Transfer.ReceiverWindow

/-!
# One receiving side of one transfer

`ReceiverSession` of `transfer/receiver_session.cpp`: a state machine from packets to replies that
writes one temporary file and renames it into place once a FIN's digest checks out.

A session touches the directory through the file system it is handed, so every function here takes
and returns a `FileSystem`; what the kernel does with each call is in `IoEnv`.  `Handles` says once
everything `handle_packet` can do.  The invariants of the later modules are read off it, case by
case, and none of them unfolds `handlePacket` again.
-/

namespace SwiftLink

/-- What the driver should transmit in response to a packet. -/
structure Reply where
  send : Bool := false
  type : PacketType := .ack
  sequence : BitVec 32 := 0
  payload : Bytes := []
  deriving Repr, DecidableEq

/-- How the system calls made while one packet is handled turn out. -/
structure IoEnv where
  openOk : Bool := true
  write : List PwriteOutcome := []
  syncOk : Bool := true
  /-- The `k`-th `read_at` of the hashing loop. -/
  reads : ℕ → List PreadOutcome := fun _ => []
  renameOk : Bool := true

/-- No call fails. -/
structure IoEnv.Succeeds (io : IoEnv) : Prop where
  openOk : io.openOk = true
  write : ∀ o ∈ io.write, o.Harmless
  syncOk : io.syncOk = true
  reads : ∀ k, ∀ o ∈ io.reads k, o.Harmless
  renameOk : io.renameOk = true

/-- `file` is the descriptor, `none` when `file_` is not open.  The two byte counts are 64-bit. -/
structure ReceiverSession where
  file : Option ℕ := none
  window : ReceiverWindow
  outputDirectory : Path
  outputPath : Path := []
  tempPath : Path := []
  published : Bool := false
  sessionId : BitVec 64 := 0
  declaredSize : ℕ := 0
  bytesWritten : ℕ := 0
  started : Bool := false
  finished : Bool := false
  finalReply : Reply := {}
  error : TransferError := .none
  stats : TransferStats := {}

/-- A session, the file system and the reply after a packet. -/
structure Handled where
  session : ReceiverSession
  fs : FileSystem
  reply : Reply

namespace ReceiverSession

/-! ## The implementation -/

/-- The constructor. -/
def init (windowCapacity : BitVec 32) (outputDirectory : Path) : ReceiverSession where
  window := ReceiverWindow.init windowCapacity
  outputDirectory := outputDirectory

/-- The destructor: a temporary that was never published is removed. -/
def destroy (s : ReceiverSession) (fs : FileSystem) : FileSystem :=
  if !s.published ∧ s.tempPath ≠ [] then fs.unlink s.tempPath else fs

/-- `close_file`. -/
def closeFile (s : ReceiverSession) : ReceiverSession := { s with file := none }

/-- The ERROR a session settles on. -/
def errorReply (code : StatusCode) (sequence : BitVec 32) : Reply where
  send := true
  type := .error
  sequence := sequence
  payload := code.errorPayload

/-- `fail`.  It touches no file. -/
def fail (s : ReceiverSession) (fs : FileSystem) (code : StatusCode) (error : TransferError)
    (sequence : BitVec 32) : Handled where
  session := { s with
    error := error
    finished := true
    finalReply := errorReply code sequence }
  fs := fs
  reply := errorReply code sequence

def onStart (s : ReceiverSession) (fs : FileSystem) (packet : Packet) (io : IoEnv) : Handled :=
  let header := packet.header
  if s.started then
    if header.sessionId = s.sessionId then
      { session := { s with stats.duplicatesReceived := s.stats.duplicatesReceived + 1 }
        fs := fs
        reply := { send := true, type := .startAck, sequence := header.sequenceNumber } }
    else s.fail fs .unknownSession .protocolViolation header.sequenceNumber
  else
    let s := { s with sessionId := header.sessionId }
    match sanitizeFilename packet.payload with
    | (.none, safeName) =>
        let s := { s with
          outputPath := joinPath s.outputDirectory safeName
          tempPath := joinPath s.outputDirectory (tempName s.sessionId) }
        match fs.openWrite io.openOk s.tempPath with
        | (fs, none) =>
            { s with file := none }.fail fs .fileOpenFailed .fileOpenFailed header.sequenceNumber
        | (fs, some fd) =>
            { session := { s with
                file := some fd
                declaredSize := header.byteOffset.toNat
                started := true }
              fs := fs
              reply := { send := true, type := .startAck, sequence := header.sequenceNumber } }
    | (_, _) => s.fail fs .invalidFilename .invalidFilename header.sequenceNumber

def onData (s : ReceiverSession) (fs : FileSystem) (packet : Packet) (io : IoEnv) : Handled :=
  let header := packet.header
  let sequence := header.sequenceNumber.toNat
  match s.window.classify sequence with
  | .duplicate =>
      { session := { s with stats.duplicatesReceived := s.stats.duplicatesReceived + 1 }
        fs := fs
        reply := { send := true, type := .ack, sequence := header.sequenceNumber } }
  | .outsideWindow =>
      { session := { s with stats.outOfOrderReceived := s.stats.outOfOrderReceived + 1 }
        fs := fs
        reply := {} }
  | .accepted =>
      -- the sum is taken in 64 bits
      if (header.byteOffset.toNat + packet.payload.length) % 2 ^ 64 > s.declaredSize then
        s.fail fs .sizeMismatch .sizeMismatch header.sequenceNumber
      else
        let s := if sequence ≠ s.window.base then
          { s with stats.outOfOrderReceived := s.stats.outOfOrderReceived + 1 } else s
        let written := fs.writeFile s.file io.write packet.payload header.byteOffset.toNat
        if written.2 ≠ some packet.payload.length then
          s.fail written.1 .internalError .fileWriteFailed header.sequenceNumber
        else
          let bytesWritten := (s.bytesWritten + packet.payload.length) % 2 ^ 64
          { session := { s with
              window := s.window.markReceived sequence
              bytesWritten := bytesWritten
              stats.chunks := s.stats.chunks + 1
              stats.bytesTransferred := bytesWritten }
            fs := written.1
            reply := { send := true, type := .ack, sequence := header.sequenceNumber } }

def onFin (s : ReceiverSession) (fs : FileSystem) (packet : Packet) (io : IoEnv) : Handled :=
  let header := packet.header
  if header.byteOffset.toNat ≠ s.bytesWritten then
    s.fail fs .sizeMismatch .sizeMismatch header.sequenceNumber
  else if !(s.file.isSome && io.syncOk) then
    s.fail fs .internalError .fileWriteFailed header.sequenceNumber
  else
    match hashFile (fun k want off => fs.readFile s.file (io.reads k) want off) s.bytesWritten with
    | none => s.fail fs .internalError .fileWriteFailed header.sequenceNumber
    | some computed =>
        if packet.payload.length ≠ kSha256DigestSize then
          s.fail fs .integrityCheckFailed .integrityFailed header.sequenceNumber
        else if computed ≠ packet.payload then
          s.fail fs .integrityCheckFailed .integrityFailed header.sequenceNumber
        else
          match fs.rename io.renameOk s.tempPath s.outputPath with
          | (fs, false) => s.fail fs .internalError .fileWriteFailed header.sequenceNumber
          | (fs, true) =>
              let reply : Reply :=
                { send := true, type := .finAck, sequence := header.sequenceNumber }
              { session := { s with published := true, finished := true, finalReply := reply }
                fs := fs
                reply := reply }

/-- Whether a settled session answers a packet with its stored verdict: a FIN_ACK answers a
repeated FIN, an ERROR whichever control packet provoked it. -/
def replays (s : ReceiverSession) (header : PacketHeader) : Bool :=
  s.finished && header.sessionId == s.sessionId && s.finalReply.send &&
    (if s.finalReply.type = .error then
      header.packetType == .fin || header.packetType == .start
    else header.packetType == .fin)

def handlePacket (s : ReceiverSession) (fs : FileSystem) (packet : Packet) (io : IoEnv) :
    Handled :=
  let header := packet.header
  let s := { s with stats.packetsReceived := s.stats.packetsReceived + 1 }
  if s.replays header then
    { session := { s with stats.duplicatesReceived := s.stats.duplicatesReceived + 1 }
      fs := fs
      reply := s.finalReply }
  else if s.finished then { session := s, fs := fs, reply := {} }
  else if header.packetType = .start then s.onStart fs packet io
  else if !s.started then s.fail fs .unknownSession .protocolViolation header.sequenceNumber
  else if header.sessionId ≠ s.sessionId then
    s.fail fs .unknownSession .protocolViolation header.sequenceNumber
  else
    match header.packetType with
    | .data => s.onData fs packet io
    | .fin => s.onFin fs packet io
    | _ => { session := s, fs := fs, reply := {} }

/-! ## Everything a packet can do -/

/-- The session is under way and the packet is one of its own. -/
structure Live (s : ReceiverSession) (packet : Packet) : Prop where
  finished : s.finished = false
  started : s.started = true
  sessionId : packet.header.sessionId = s.sessionId

/-- The session waits for its START and the packet is one. -/
structure Opening (s : ReceiverSession) (packet : Packet) : Prop where
  finished : s.finished = false
  started : s.started = false
  packetType : packet.header.packetType = .start

/-- The packet is DATA for a live session, new to its window, and within the declared size. -/
structure Fits (s : ReceiverSession) (packet : Packet) : Prop extends Live s packet where
  packetType : packet.header.packetType = .data
  accepted : s.window.classify packet.header.sequenceNumber.toNat = .accepted
  size_le : (packet.header.byteOffset.toNat + packet.payload.length) % 2 ^ 64 ≤ s.declaredSize

/-- The checks a FIN passes before the temporary file is renamed. -/
structure FinChecks (s : ReceiverSession) (fs : FileSystem) (packet : Packet) (io : IoEnv) :
    Prop where
  size : packet.header.byteOffset.toNat = s.bytesWritten
  synced : s.file.isSome = true ∧ io.syncOk = true
  hashed : hashFile (fun k want off => fs.readFile s.file (io.reads k) want off) s.bytesWritten
    = some packet.payload
  length : packet.payload.length = kSha256DigestSize

/-- The session a START with an acceptable name turns `s` into, before the file is opened. -/
def named (s : ReceiverSession) (packet : Packet) (name : Bytes) : ReceiverSession :=
  { s with
    sessionId := packet.header.sessionId
    outputPath := joinPath s.outputDirectory name
    tempPath := joinPath s.outputDirectory (tempName packet.header.sessionId) }

/-- **Everything `handle_packet` can do**, with what it has found out by then.  The counters in
`stats` are left open. -/
inductive Handles (s : ReceiverSession) (fs : FileSystem) (packet : Packet) (io : IoEnv) :
    Handled → Prop
  | replayed (stats : TransferStats) (h : s.replays packet.header = true) :
      Handles s fs packet io ⟨{ s with stats := stats }, fs, s.finalReply⟩
  | ignored (stats : TransferStats) (hreplay : s.replays packet.header = false)
      (h : s.finished = true ∨ s.Live packet ∧ packet.header.packetType ≠ .start ∧
        packet.header.packetType ≠ .data ∧ packet.header.packetType ≠ .fin) :
      Handles s fs packet io ⟨{ s with stats := stats }, fs, {}⟩
  | restarted (stats : TransferStats) (hlive : s.Live packet)
      (htype : packet.header.packetType = .start) :
      Handles s fs packet io ⟨{ s with stats := stats }, fs,
        { send := true, type := .startAck, sequence := packet.header.sequenceNumber }⟩
  | duplicate (stats : TransferStats) (hlive : s.Live packet)
      (htype : packet.header.packetType = .data)
      (hclass : s.window.classify packet.header.sequenceNumber.toNat = .duplicate) :
      Handles s fs packet io ⟨{ s with stats := stats }, fs,
        { send := true, type := .ack, sequence := packet.header.sequenceNumber }⟩
  | outside (stats : TransferStats) (hlive : s.Live packet)
      (htype : packet.header.packetType = .data)
      (hclass : s.window.classify packet.header.sequenceNumber.toNat = .outsideWindow) :
      Handles s fs packet io ⟨{ s with stats := stats }, fs, {}⟩
  | strayed (stats : TransferStats) (hfinished : s.finished = false)
      (h : if packet.header.packetType = .start
        then s.started = true ∧ packet.header.sessionId ≠ s.sessionId
        else s.started = true → packet.header.sessionId ≠ s.sessionId) :
      Handles s fs packet io ({ s with stats := stats }.fail fs .unknownSession .protocolViolation
        packet.header.sequenceNumber)
  | misnamed (stats : TransferStats) (hopen : s.Opening packet)
      (hname : (sanitizeFilename packet.payload).1 ≠ .none) :
      Handles s fs packet io ({ s with
          sessionId := packet.header.sessionId
          stats := stats }.fail fs .invalidFilename .invalidFilename packet.header.sequenceNumber)
  | openFailed (stats : TransferStats) (name : Bytes) (hopen : s.Opening packet)
      (hname : sanitizeFilename packet.payload = (.none, name)) (hio : io.openOk = false) :
      Handles s fs packet io ({ s.named packet name with
          file := none
          stats := stats }.fail fs .fileOpenFailed .fileOpenFailed packet.header.sequenceNumber)
  | opened (stats : TransferStats) (name : Bytes) (fs' : FileSystem) (fd : ℕ)
      (hopen : s.Opening packet) (hname : sanitizeFilename packet.payload = (.none, name))
      (hio : fs.openWrite io.openOk (s.named packet name).tempPath = (fs', some fd)) :
      Handles s fs packet io ⟨{ s.named packet name with
          file := some fd
          declaredSize := packet.header.byteOffset.toNat
          started := true
          stats := stats }, fs',
        { send := true, type := .startAck, sequence := packet.header.sequenceNumber }⟩
  | oversized (stats : TransferStats) (hlive : s.Live packet)
      (htype : packet.header.packetType = .data)
      (hclass : s.window.classify packet.header.sequenceNumber.toNat = .accepted)
      (hsize : s.declaredSize <
        (packet.header.byteOffset.toNat + packet.payload.length) % 2 ^ 64) :
      Handles s fs packet io ({ s with stats := stats }.fail fs .sizeMismatch .sizeMismatch
        packet.header.sequenceNumber)
  | writeFailed (stats : TransferStats) (fs' : FileSystem) (written : Option ℕ)
      (hfits : s.Fits packet) (hwrite : fs.writeFile s.file io.write packet.payload
        packet.header.byteOffset.toNat = (fs', written))
      (hshort : written ≠ some packet.payload.length) :
      Handles s fs packet io ({ s with stats := stats }.fail fs' .internalError .fileWriteFailed
        packet.header.sequenceNumber)
  | stored (stats : TransferStats) (fs' : FileSystem) (hfits : s.Fits packet)
      (hwrite : fs.writeFile s.file io.write packet.payload packet.header.byteOffset.toNat
        = (fs', some packet.payload.length)) :
      Handles s fs packet io ⟨{ s with
          window := s.window.markReceived packet.header.sequenceNumber.toNat
          bytesWritten := (s.bytesWritten + packet.payload.length) % 2 ^ 64
          stats := stats }, fs',
        { send := true, type := .ack, sequence := packet.header.sequenceNumber }⟩
  | finFailed (stats : TransferStats) (code : StatusCode) (error : TransferError)
      (hlive : s.Live packet) (htype : packet.header.packetType = .fin) (herror : error ≠ .none)
      (hchecks : s.FinChecks fs packet io →
        (fs.rename io.renameOk s.tempPath s.outputPath).2 = false) :
      Handles s fs packet io ({ s with stats := stats }.fail fs code error
        packet.header.sequenceNumber)
  | published (stats : TransferStats) (fs' : FileSystem) (hlive : s.Live packet)
      (htype : packet.header.packetType = .fin) (hchecks : s.FinChecks fs packet io)
      (hrename : fs.rename io.renameOk s.tempPath s.outputPath = (fs', true)) :
      Handles s fs packet io ⟨{ s with
          published := true
          finished := true
          finalReply :=
            { send := true, type := .finAck, sequence := packet.header.sequenceNumber }
          stats := stats }, fs',
        { send := true, type := .finAck, sequence := packet.header.sequenceNumber }⟩

variable {s : ReceiverSession} {fs : FileSystem} {packet : Packet} {io : IoEnv}

lemma onStart_handles (hfinished : s.finished = false)
    (htype : packet.header.packetType = .start) (stats : TransferStats) :
    Handles s fs packet io ({ s with stats := stats }.onStart fs packet io) := by
  simp only [onStart]
  split_ifs with hstarted hid
  · exact .restarted _ ⟨hfinished, hstarted, hid⟩ htype
  · exact .strayed _ hfinished (by rw [if_pos htype]; exact ⟨hstarted, hid⟩)
  · have hopen : s.Opening packet := ⟨hfinished, by simpa using hstarted, htype⟩
    split
    · next name hname =>
      split
      · next fs' hio =>
        obtain ⟨rfl, hok⟩ := FileSystem.openWrite_none hio
        exact .openFailed _ name hopen hname hok
      · next fs' fd hio => exact .opened _ name fs' fd hopen hname hio
    · next rejection name hne heq => exact .misnamed _ hopen (by rw [heq]; exact hne)

lemma onData_handles (hlive : s.Live packet) (htype : packet.header.packetType = .data)
    (stats : TransferStats) :
    Handles s fs packet io ({ s with stats := stats }.onData fs packet io) := by
  simp only [onData]
  split
  · next hclass => exact .duplicate _ hlive htype hclass
  · next hclass => exact .outside _ hlive htype hclass
  · next hclass =>
    split_ifs with hsize hbase hwrite hwrite
    · exact .oversized _ hlive htype hclass hsize
    · exact .writeFailed _ _ _ ⟨hlive, htype, hclass, not_lt.mp hsize⟩ rfl hwrite
    · exact .stored _ _ ⟨hlive, htype, hclass, not_lt.mp hsize⟩ (Prod.ext rfl (not_not.mp hwrite))
    · exact .writeFailed _ _ _ ⟨hlive, htype, hclass, not_lt.mp hsize⟩ rfl hwrite
    · exact .stored _ _ ⟨hlive, htype, hclass, not_lt.mp hsize⟩ (Prod.ext rfl (not_not.mp hwrite))

lemma onFin_handles (hlive : s.Live packet) (htype : packet.header.packetType = .fin)
    (stats : TransferStats) :
    Handles s fs packet io ({ s with stats := stats }.onFin fs packet io) := by
  simp only [onFin]
  split
  · next hsize =>
    exact .finFailed _ _ _ hlive htype (by decide) fun hchecks => absurd hchecks.size hsize
  next hsize =>
  split
  · next hsync =>
    exact .finFailed _ _ _ hlive htype (by decide) fun hchecks => by
      simp [hchecks.synced] at hsync
  next hsync =>
  split
  · next hhash =>
    exact .finFailed _ _ _ hlive htype (by decide) fun hchecks => by
      rw [hchecks.hashed] at hhash
      simp at hhash
  next computed hhash =>
  split
  · next hlength =>
    exact .finFailed _ _ _ hlive htype (by decide) fun hchecks => absurd hchecks.length hlength
  next hlength =>
  split
  · next hdigest =>
    refine .finFailed _ _ _ hlive htype (by decide) fun hchecks => absurd ?_ hdigest
    exact Option.some.inj (hhash.symm.trans hchecks.hashed)
  next hdigest =>
  rw [not_not] at hsize hlength hdigest
  have hchecks : s.FinChecks fs packet io :=
    ⟨hsize, by simpa only [Bool.not_eq_true', Bool.not_eq_false, Bool.and_eq_true] using hsync,
      hdigest ▸ hhash, hlength⟩
  split
  · next fs' hrename =>
    obtain ⟨rfl, -⟩ := FileSystem.rename_false hrename
    exact .finFailed _ _ _ hlive htype (by decide) fun _ => by rw [hrename]
  · next fs' hrename => exact .published _ fs' hlive htype hchecks hrename

/-- **`handle_packet` does one of the things `Handles` lists.** -/
theorem handlePacket_handles (s : ReceiverSession) (fs : FileSystem) (packet : Packet)
    (io : IoEnv) : Handles s fs packet io (s.handlePacket fs packet io) := by
  simp only [handlePacket]
  split_ifs with hreplay hfinished htype hstarted hid
  · exact .replayed _ hreplay
  · exact .ignored _ (Bool.eq_false_iff.mpr hreplay) (Or.inl hfinished)
  · exact onStart_handles (by simpa using hfinished) htype _
  · refine .strayed _ (by simpa using hfinished) ?_
    rw [if_neg htype]
    exact fun h => absurd h (by simpa using hstarted)
  · refine .strayed _ (by simpa using hfinished) ?_
    rw [if_neg htype]
    exact fun _ => hid
  · have hlive : s.Live packet :=
      ⟨by simpa using hfinished, by simpa using hstarted, not_not.mp hid⟩
    split
    · next hdata => exact onData_handles hlive hdata _
    · next hfin => exact onFin_handles hlive hfin _
    · next hdata hfin =>
      exact .ignored _ (Bool.eq_false_iff.mpr hreplay) (Or.inr ⟨hlive, htype, hdata, hfin⟩)

end ReceiverSession

/-! ## A session and its directory over time -/

/-- What a driver does with a session: hand it a packet, or release its file. -/
inductive SessionEvent
  | packet (packet : Packet) (io : IoEnv)
  | closeFile

/-- A session and the file system it works in. -/
structure World where
  session : ReceiverSession
  fs : FileSystem

namespace World

/-- A new session over an existing directory. -/
def init (windowCapacity : BitVec 32) (outputDirectory : Path) (fs : FileSystem) : World where
  session := ReceiverSession.init windowCapacity outputDirectory
  fs := fs

def next (w : World) : SessionEvent → World
  | .packet packet io =>
      let handled := w.session.handlePacket w.fs packet io
      { session := handled.session, fs := handled.fs }
  | .closeFile => { w with session := w.session.closeFile }

/-- What the driver sends because of an event. -/
def reply (w : World) : SessionEvent → Reply
  | .packet packet io => (w.session.handlePacket w.fs packet io).reply
  | .closeFile => {}

def run (w : World) (events : List SessionEvent) : World := events.foldl next w

@[simp] lemma run_nil (w : World) : w.run [] = w := rfl

@[simp] lemma run_concat (w : World) (events : List SessionEvent) (e : SessionEvent) :
    w.run (events ++ [e]) = (w.run events).next e := by
  simp [run]

lemma run_append (w : World) (first second : List SessionEvent) :
    w.run (first ++ second) = (w.run first).run second := by
  simp [run]

/-- **The induction every property of a run goes by**: it holds at first and every event keeps
it. -/
lemma run_induction {P : World → Prop} {w : World} (h0 : P w)
    (hstep : ∀ v e, P v → P (v.next e)) (events : List SessionEvent) : P (w.run events) := by
  induction events using List.reverseRecOn with
  | nil => exact h0
  | append_singleton events e ih =>
      rw [run_concat]
      exact hstep _ _ ih

end World

end SwiftLink
