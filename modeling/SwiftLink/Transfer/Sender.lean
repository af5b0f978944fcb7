import SwiftLink.Transfer.SenderWindow
import SwiftLink.Transfer.Transfer
import SwiftLink.Protocol.Serializer

/-!
# The sending side

`send_file` of `transfer/sender.cpp` is one long blocking function.  Here it is a machine that stops
at every point where the function looks at the world: a step reads the clock, hands at most one
datagram to the socket and takes at most one from it.  `SenderPhase` is the program counter, with
the locals alive at that point; `exchange_control` occurs twice, for START and for FIN, and is one
pair of phases with a parameter.

Everything the world decides is in `SenderEnv`: the clock, whether the loss simulator drops the
datagram, whether a call fails, what is received, how the reads of the source file turn out.

Two limits of the machine are left out.  `max_retries` and the counters compared with it are `int`
in the source and unbounded here, which is the same for any `max_retries` below `INT_MAX`.  And the
buffers of the window and of a chunk, which are allocated after the START, are always to be had.
-/

namespace SwiftLink

structure SenderConfig where
  chunkSize : ℕ
  rto : ℤ
  maxRetries : ℤ
  windowSize : BitVec 32
  sessionId : BitVec 64
  remoteName : Bytes
  deriving Repr, DecidableEq

/-- What `send_file` has worked out before it touches the network: the file it has open, the number
of its chunks and its digest. -/
structure Job where
  config : SenderConfig
  data : Bytes
  totalChunks : ℕ
  digest : Bytes
  count : chunkCount data.length config.chunkSize = some totalChunks
  digest_eq : digest = digestOf data data.length

/-- The two packets that are sent stop-and-wait. -/
inductive Control
  | start
  | fin
  deriving Repr, DecidableEq

namespace Job

def fileSize (job : Job) : ℕ := job.data.length

def startHeader (job : Job) : PacketHeader :=
  { packetType := .start
    sessionId := job.config.sessionId
    sequenceNumber := 0
    byteOffset := BitVec.ofNat 64 job.fileSize }

def finHeader (job : Job) : PacketHeader :=
  { packetType := .fin
    sessionId := job.config.sessionId
    sequenceNumber := BitVec.ofNat 32 job.totalChunks
    byteOffset := BitVec.ofNat 64 job.fileSize }

/-- The byte offset of a chunk, a 64-bit product. -/
def chunkOffset (job : Job) (sequence : ℕ) : ℕ := sequence * job.config.chunkSize % 2 ^ 64

/-- How many bytes of the file a chunk takes. -/
def chunkWant (job : Job) (sequence : ℕ) : ℕ :=
  let remaining := (job.fileSize + 2 ^ 64 - job.chunkOffset sequence) % 2 ^ 64
  if remaining < job.config.chunkSize then remaining else job.config.chunkSize

def dataHeader (job : Job) (sequence : ℕ) : PacketHeader :=
  { packetType := .data
    sessionId := job.config.sessionId
    sequenceNumber := BitVec.ofNat 32 sequence
    byteOffset := BitVec.ofNat 64 (job.chunkOffset sequence) }

/-- The bytes of a chunk. -/
def chunk (job : Job) (sequence : ℕ) : Bytes :=
  (job.data.drop (job.chunkOffset sequence)).take (job.chunkWant sequence)

/-- The datagram that carries a chunk. -/
def dataWire (job : Job) (sequence : ℕ) : Bytes :=
  serialize (job.dataHeader sequence) (job.chunk sequence)

def controlWire (job : Job) : Control → Bytes
  | .start => serialize job.startHeader job.config.remoteName
  | .fin => serialize job.finHeader job.digest

end Job

/-- The reply `exchange_control` waits for. -/
def Control.expectedReply : Control → PacketType
  | .start => .startAck
  | .fin => .finAck

def Control.expectedAck (job : Job) : Control → BitVec 32
  | .start => 0
  | .fin => job.finHeader.sequenceNumber

/-- What `send_file` returns when the retry budget runs out. -/
def Control.giveUp : Control → TransferError
  | .start => .handshakeFailed
  | .fin => .peerUnresponsive

/-- One outstanding packet: the exact bytes to resend, and how often they have been sent. -/
structure InFlight where
  wire : Bytes := []
  attempts : ℤ := 0
  deriving Repr, DecidableEq

/-- Where `send_file` is. -/
inductive SenderPhase
  /-- At the head of `exchange_control`'s loop. -/
  | control (which : Control) (attempt : ℤ)
  /-- In its inner loop, waiting for a reply. -/
  | awaitReply (which : Control) (attempt : ℤ) (deadline : TimePoint)
  /-- At the head of the main loop. -/
  | loop
  /-- At the head of the loop that fills the window. -/
  | fill
  /-- At `earliest_deadline`. -/
  | sleep
  /-- In the loop over what `expire` returned. -/
  | resend (expired : List ℕ)
  | done (error : TransferError)
  deriving Repr, DecidableEq

/-- The START_ACK has been received, and nothing has gone wrong since. -/
def SenderPhase.pastStart : SenderPhase → Bool
  | .control .start _ => false
  | .awaitReply .start _ _ => false
  | .done error => error = .none
  | _ => true

structure Sender (Q : TimerQueue) where
  phase : SenderPhase
  window : SenderWindow Q
  inFlight : ℕ → InFlight
  stats : TransferStats

inductive RecvOutcome
  | datagram (bytes : Bytes)
  | wouldBlock
  | interrupted
  | failed
  deriving Repr, DecidableEq

structure SenderEnv where
  now : TimePoint := 0
  /-- The clock when `expire` is called, after the receive. -/
  later : TimePoint := 0
  drop : Bool := false
  sendOk : Bool := true
  timeoutOk : Bool := true
  recv : RecvOutcome := .wouldBlock
  read : List PreadOutcome := []

/-- What `send_packet` did. -/
structure SendResult where
  stats : TransferStats
  ok : Bool
  datagram : Option Bytes

/-- `send_packet`: a simulated drop counts as sent. -/
def sendPacket (env : SenderEnv) (wire : Bytes) (stats : TransferStats) : SendResult :=
  let stats := { stats with packetsSent := stats.packetsSent + 1 }
  if env.drop then
    { stats := { stats with simulatedDrops := stats.simulatedDrops + 1 }
      ok := true
      datagram := none }
  else { stats := stats, ok := env.sendOk, datagram := if env.sendOk then some wire else none }

namespace Sender

variable {Q : TimerQueue}

def init (Q : TimerQueue) (job : Job) : Sender Q where
  phase := .control .start 0
  window := SenderWindow.init Q job.config.windowSize.toNat
  inFlight _ := {}
  stats := {}

/-- `return error`. -/
def finish (s : Sender Q) (error : TransferError) : Sender Q := { s with phase := .done error }

/-- One turn of `exchange_control`'s loop, as far as the send. -/
def stepControl (job : Job) (which : Control) (attempt : ℤ) (s : Sender Q) (env : SenderEnv) :
    Sender Q × Option Bytes :=
  if attempt ≤ job.config.maxRetries then
    let stats := if 0 < attempt then
      { s.stats with retransmissions := s.stats.retransmissions + 1 } else s.stats
    let sent := sendPacket env (job.controlWire which) stats
    let s := { s with stats := sent.stats }
    if sent.ok then
      ({ s with phase := .awaitReply which attempt (env.now + job.config.rto) }, sent.datagram)
    else (s.finish .sendFailed, none)
  else (s.finish which.giveUp, none)

/-- The reply `exchange_control` was waiting for has come. -/
def acknowledged (which : Control) (s : Sender Q) : Sender Q :=
  match which with
  | .start => { s with phase := .loop }
  | .fin => s.finish .none

/-- One decoded packet in `exchange_control`'s inner loop. -/
def onControlReply (job : Job) (which : Control) (s : Sender Q) (packet : Packet) : Sender Q :=
  if packet.header.packetType = .error then
    let s := match packet.payload.head?.bind StatusCode.ofByte? with
      | some code => { s with stats.remoteStatus := code }
      | none => s
    s.finish .remoteError
  else if packet.header.sessionId ≠ job.config.sessionId then s
  else if packet.header.packetType = which.expectedReply ∧
      packet.header.acknowledgementNumber = which.expectedAck job then s.acknowledged which
  else s

/-- One turn of `exchange_control`'s inner loop. -/
def stepAwaitReply (job : Job) (which : Control) (attempt : ℤ) (deadline : TimePoint)
    (s : Sender Q) (env : SenderEnv) : Sender Q :=
  let timedOut := { s with
    stats.timeouts := s.stats.timeouts + 1
    phase := .control which (attempt + 1) }
  if deadline - env.now ≤ 0 then timedOut
  else if !env.timeoutOk then s.finish .socketFailed
  else
    match env.recv with
    | .wouldBlock => timedOut
    | .interrupted => s
    | .failed => s.finish .receiveFailed
    | .datagram bytes =>
        let s := { s with stats.packetsReceived := s.stats.packetsReceived + 1 }
        match deserialize bytes with
        | .error _ => s
        | .ok packet => s.onControlReply job which packet

/-- The main loop is over: on to the FIN. -/
def finishData (job : Job) (s : Sender Q) : Sender Q :=
  { s with
    stats.chunks := job.totalChunks
    stats.bytesTransferred := job.fileSize
    phase := .control .fin 0 }

def stepLoop (job : Job) (s : Sender Q) : Sender Q :=
  if s.window.base < job.totalChunks then { s with phase := .fill } else s.finishData job

/-- One turn of the loop that fills the window. -/
def stepFill (job : Job) (s : Sender Q) (env : SenderEnv) : Sender Q × Option Bytes :=
  if s.window.canSend ∧ s.window.nextSequence < job.totalChunks then
    let sequence := s.window.nextSequence
    match readAt env.read job.data (job.chunkWant sequence) (job.chunkOffset sequence) with
    | none => (s.finish .fileReadFailed, none)
    | some chunk =>
        if chunk.length ≠ job.chunkWant sequence then (s.finish .fileReadFailed, none)
        else
          let wire := serialize (job.dataHeader sequence) chunk
          let slot : InFlight := { wire := wire, attempts := 1 }
          let sent := sendPacket env wire s.stats
          let s := { s with
            inFlight := Function.update s.inFlight (sequence % s.window.capacity) slot
            stats := sent.stats }
          if sent.ok then
            ({ s with window := s.window.onSent (env.now + job.config.rto) }, sent.datagram)
          else (s.finish .sendFailed, none)
  else ({ s with phase := .sleep }, none)

/-- What the main loop makes of a received datagram: only an ACK does anything, whatever session it
belongs to. -/
def onDatagram (s : Sender Q) (bytes : Bytes) : Sender Q :=
  let s := { s with stats.packetsReceived := s.stats.packetsReceived + 1 }
  match deserialize bytes with
  | .error _ => s
  | .ok packet =>
      if packet.header.packetType = .ack then
        let acked := s.window.onAck packet.header.acknowledgementNumber.toNat
        let s := { s with window := acked.1 }
        if acked.2 then s
        else { s with stats.duplicatesReceived := s.stats.duplicatesReceived + 1 }
      else s

/-- From `earliest_deadline` to `expire`. -/
def stepSleep (job : Job) (s : Sender Q) (env : SenderEnv) : Sender Q :=
  let earliest := s.window.earliestDeadline
  let s := { s with window := earliest.1 }
  match earliest.2 with
  | none => s.finishData job
  | some _ =>
      if !env.timeoutOk then s.finish .socketFailed
      else
        let s := match env.recv with
          | .datagram bytes => s.onDatagram bytes
          | _ => s
        if env.recv = .failed then s.finish .receiveFailed
        else
          let expired := s.window.expire env.later
          { s with window := expired.1, phase := .resend expired.2 }

/-- One turn of the loop over the expired packets. -/
def stepResend (job : Job) (sequence : ℕ) (rest : List ℕ) (s : Sender Q) (env : SenderEnv) :
    Sender Q × Option Bytes :=
  let slot := s.inFlight (sequence % s.window.capacity)
  if job.config.maxRetries ≤ slot.attempts then (s.finish .peerUnresponsive, none)
  else
    let slot := { slot with attempts := slot.attempts + 1 }
    let sent := sendPacket env slot.wire { s.stats with
      retransmissions := s.stats.retransmissions + 1
      timeouts := s.stats.timeouts + 1 }
    let s := { s with
      inFlight := Function.update s.inFlight (sequence % s.window.capacity) slot
      stats := sent.stats }
    if sent.ok then
      ({ s with
        window := s.window.reschedule sequence (env.now + job.config.rto)
        phase := .resend rest }, sent.datagram)
    else (s.finish .sendFailed, none)

/-- One step, and the datagram it puts on the wire. -/
def step (job : Job) (s : Sender Q) (env : SenderEnv) : Sender Q × Option Bytes :=
  match s.phase with
  | .control which attempt => s.stepControl job which attempt env
  | .awaitReply which attempt deadline => (s.stepAwaitReply job which attempt deadline env, none)
  | .loop => (s.stepLoop job, none)
  | .fill => s.stepFill job env
  | .sleep => (s.stepSleep job env, none)
  | .resend [] => ({ s with phase := .loop }, none)
  | .resend (sequence :: rest) => s.stepResend job sequence rest env
  | .done _ => (s, none)

/-- A run of the machine. -/
def run (job : Job) (s : Sender Q) (envs : List SenderEnv) : Sender Q :=
  envs.foldl (fun s env => (s.step job env).1) s

/-! ## The invariant -/

/-- Sent and acknowledged. -/
def Retired (s : Sender Q) (t : ℕ) : Prop := t < s.window.nextSequence ∧ ¬ s.window.Unacked t

/-- Every chunk has been sent and acknowledged. -/
def Complete (job : Job) (s : Sender Q) : Prop :=
  s.window.nextSequence = job.totalChunks ∧ ∀ t, ¬ s.window.Unacked t

/-- Every unacknowledged packet has a timer, the ones in `pending` excepted. -/
def Armed (s : Sender Q) (pending : List ℕ) : Prop :=
  ∀ t, s.window.Unacked t → (∃ d, s.window.Armed t d) ∨ t ∈ pending

/-- What holds at each point of the program. -/
def AtPhase (job : Job) (s : Sender Q) : SenderPhase → Prop
  | .control .start _ => s.window.nextSequence = 0
  | .awaitReply .start _ _ => s.window.nextSequence = 0
  | .loop => s.Armed []
  | .fill => s.Armed []
  | .sleep => s.Armed [] ∧ (s.window.canSend = true → job.totalChunks ≤ s.window.nextSequence)
  | .resend expired => s.Armed expired ∧ ∀ t ∈ expired, s.window.Unacked t
  | .control .fin _ => s.Complete job
  | .awaitReply .fin _ _ => s.Complete job
  | .done error => error = .none → s.Complete job

/-- **The invariant of the sending side.** -/
structure Inv (job : Job) (s : Sender Q) : Prop where
  window : s.window.Inv
  capacity_eq : s.window.capacity = max 1 job.config.windowSize.toNat
  next_le : s.window.nextSequence ≤ job.totalChunks
  /-- The ring of datagrams agrees with the window. -/
  wires : ∀ t, s.window.Unacked t →
    (s.inFlight (t % s.window.capacity)).wire = job.dataWire t
  phase : s.AtPhase job s.phase

/-- The step takes an ACK from the socket in the main loop. -/
structure AckReceived (s : Sender Q) (env : SenderEnv) (packet : Packet) : Prop where
  phase : s.phase = .sleep
  waiting : s.window.earliestDeadline.2 ≠ none
  timeoutOk : env.timeoutOk = true
  received : ∃ bytes, env.recv = .datagram bytes ∧ deserialize bytes = .ok packet
  packetType : packet.header.packetType = .ack

/-- The step takes the reply it is waiting for from the socket. -/
structure ReplyReceived (job : Job) (which : Control) (env : SenderEnv) (packet : Packet) :
    Prop where
  received : ∃ bytes, env.recv = .datagram bytes ∧ deserialize bytes = .ok packet
  packetType : packet.header.packetType = which.expectedReply
  sessionId : packet.header.sessionId = job.config.sessionId

/-- What a step may put on the wire. -/
inductive Emits (job : Job) (s : Sender Q) : Bytes → Prop
  | start : Emits job s (job.controlWire .start)
  | data (t : ℕ) (ht : s.window.Unacked t) (hphase : s.phase.pastStart = true) :
      Emits job s (job.dataWire t)
  | fin (hcomplete : s.Complete job) (hphase : s.phase.pastStart = true) :
      Emits job s (job.controlWire .fin)

/-- **Everything a step may do**, as far as the other party can tell. -/
structure Steps (job : Job) (s : Sender Q) (env : SenderEnv) (s' : Sender Q)
    (out : Option Bytes) : Prop where
  inv : s'.Inv job
  retired : ∀ t, s'.Retired t → s.Retired t ∨
    ∃ packet, s.AckReceived env packet ∧ packet.header.acknowledgementNumber.toNat = t
  emits : ∀ bytes, out = some bytes → Emits job s' bytes
  started : s'.phase.pastStart = true → s.phase.pastStart = true ∨
    ∃ packet, ReplyReceived job .start env packet
  finished : s'.phase = .done .none → s.phase = .done .none ∨
    ∃ packet, ReplyReceived job .fin env packet

section Steps

variable {job : Job} {s s' : Sender Q} {env : SenderEnv} {out : Option Bytes}

/-- The phase assertions read the window only. -/
lemma AtPhase.congr {phase : SenderPhase} (h : s.AtPhase job phase)
    (hwindow : s'.window = s.window) : s'.AtPhase job phase := by
  cases phase with
  | control which attempt => cases which <;> simpa only [AtPhase, Complete, hwindow] using h
  | awaitReply which attempt deadline =>
      cases which <;> simpa only [AtPhase, Complete, hwindow] using h
  | loop => simpa only [AtPhase, Armed, hwindow] using h
  | fill => simpa only [AtPhase, Armed, hwindow] using h
  | sleep => simpa only [AtPhase, Armed, hwindow] using h
  | resend expired => simpa only [AtPhase, Armed, hwindow] using h
  | done error => simpa only [AtPhase, Complete, hwindow] using h

/-- A step that leaves the window alone. -/
lemma Inv.quiet (h : s.Inv job) (hwindow : s'.window = s.window)
    (hinFlight : s'.inFlight = s.inFlight) (hphase : s.AtPhase job s'.phase)
    (hemits : ∀ bytes, out = some bytes → Emits job s' bytes)
    (hstarted : s'.phase.pastStart = true → s.phase.pastStart = true ∨
      ∃ packet, ReplyReceived job .start env packet)
    (hfinished : s'.phase = .done .none → s.phase = .done .none ∨
      ∃ packet, ReplyReceived job .fin env packet) : Steps job s env s' out where
  inv :=
    { window := hwindow ▸ h.window
      capacity_eq := by rw [hwindow]; exact h.capacity_eq
      next_le := by rw [hwindow]; exact h.next_le
      wires := by rw [hwindow, hinFlight]; exact h.wires
      phase := hphase.congr hwindow }
  retired t ht := Or.inl (by simpa only [Retired, hwindow] using ht)
  emits := hemits
  started := hstarted
  finished := hfinished

/-- `return error`. -/
lemma Inv.fails (h : s.Inv job) (hwindow : s'.window = s.window)
    (hinFlight : s'.inFlight = s.inFlight) {error : TransferError} (herror : error ≠ .none)
    (hphase : s'.phase = .done error) : Steps job s env s' none := by
  refine h.quiet hwindow hinFlight ?_ (by simp) ?_ ?_
  · rw [hphase]
    exact fun hnone => absurd hnone herror
  · rw [hphase]
    simp [SenderPhase.pastStart, herror]
  · rw [hphase]
    simp [herror]

/-- The two halves of `exchange_control` are at the same point of the protocol. -/
lemma atPhase_awaitReply {which : Control} {attempt : ℤ}
    (h : s.AtPhase job (.control which attempt)) (attempt' : ℤ) (deadline : TimePoint) :
    s.AtPhase job (.awaitReply which attempt' deadline) := by
  cases which <;> exact h

lemma atPhase_control {which : Control} {attempt : ℤ} {deadline : TimePoint}
    (h : s.AtPhase job (.awaitReply which attempt deadline)) (attempt' : ℤ) :
    s.AtPhase job (.control which attempt') := by
  cases which <;> exact h

lemma sendPacket_datagram {wire bytes : Bytes} {stats : TransferStats}
    (h : (sendPacket env wire stats).datagram = some bytes) : bytes = wire := by
  simp only [sendPacket] at h
  split_ifs at h
  exact (Option.some.inj h).symm

lemma stepControl_steps (h : s.Inv job) {which : Control} {attempt : ℤ}
    (hphase : s.phase = .control which attempt) :
    Steps job s env (s.stepControl job which attempt env).1
      (s.stepControl job which attempt env).2 := by
  have hat : s.AtPhase job (.control which attempt) := hphase ▸ h.phase
  simp only [stepControl]
  by_cases hbudget : attempt ≤ job.config.maxRetries
  · rw [if_pos hbudget]
    generalize hsent : sendPacket env (job.controlWire which) _ = sent
    by_cases hok : sent.ok = true
    · rw [if_pos hok]
      refine h.quiet rfl rfl (atPhase_awaitReply hat _ _) (fun bytes hbytes => ?_) ?_ (by simp)
      · obtain rfl := sendPacket_datagram (hsent ▸ hbytes)
        cases which with
        | start => exact .start
        | fin => exact .fin hat rfl
      · cases which with
        | start => simp [SenderPhase.pastStart]
        | fin => exact fun _ => Or.inl (by rw [hphase]; rfl)
    · rw [if_neg hok]
      exact h.fails rfl rfl (by decide : TransferError.sendFailed ≠ .none) rfl
  · rw [if_neg hbudget]
    have hgiveUp : which.giveUp ≠ .none := by cases which <;> decide
    exact h.fails rfl rfl hgiveUp rfl

lemma onControlReply_steps (h : s.Inv job) {which : Control} {attempt : ℤ} {deadline : TimePoint}
    (hphase : s.phase = .awaitReply which attempt deadline) {bytes : Bytes} {packet : Packet}
    (hrecv : env.recv = .datagram bytes) (hpacket : deserialize bytes = .ok packet)
    (stats : TransferStats) :
    Steps job s env ({ s with stats := stats }.onControlReply job which packet) none := by
  have hat : s.AtPhase job (.awaitReply which attempt deadline) := hphase ▸ h.phase
  have hstay : Steps job s env { s with stats := stats } none :=
    h.quiet rfl rfl h.phase (by simp) Or.inl Or.inl
  simp only [onControlReply]
  split_ifs with herror hsession hreply
  · split
    · exact h.fails rfl rfl (by decide : TransferError.remoteError ≠ .none) rfl
    · exact h.fails rfl rfl (by decide : TransferError.remoteError ≠ .none) rfl
  · exact hstay
  · have hreceived : ReplyReceived job which env packet :=
      ⟨⟨bytes, hrecv, hpacket⟩, hreply.1, not_not.mp hsession⟩
    cases which with
    | start =>
        refine h.quiet rfl rfl ?_ (by simp) (fun _ => Or.inr ⟨packet, hreceived⟩)
          (by simp [acknowledged])
        -- nothing has been sent yet, so there is nothing to time
        intro t ht
        have hnext : s.window.nextSequence = 0 := hat
        have hlt := ht.2.1
        omega
    | fin =>
        refine h.quiet rfl rfl (fun _ => hat) (by simp) (fun _ => Or.inl (by rw [hphase]; rfl))
          (fun _ => Or.inr ⟨packet, hreceived⟩)
  · exact hstay

lemma stepAwaitReply_steps (h : s.Inv job) {which : Control} {attempt : ℤ} {deadline : TimePoint}
    (hphase : s.phase = .awaitReply which attempt deadline) :
    Steps job s env (s.stepAwaitReply job which attempt deadline env) none := by
  have hat : s.AtPhase job (.awaitReply which attempt deadline) := hphase ▸ h.phase
  have hretry : Steps job s env { s with
      stats.timeouts := s.stats.timeouts + 1
      phase := .control which (attempt + 1) } none := by
    refine h.quiet rfl rfl (atPhase_control hat _) (by simp) (fun hpast => Or.inl ?_) (by simp)
    cases which with
    | start => simp [SenderPhase.pastStart] at hpast
    | fin => rw [hphase]; rfl
  simp only [stepAwaitReply]
  split_ifs with htime htimeout
  · exact hretry
  · exact h.fails rfl rfl (by decide : TransferError.socketFailed ≠ .none) rfl
  · split
    · exact hretry
    · exact h.quiet rfl rfl h.phase (by simp) Or.inl Or.inl
    · exact h.fails rfl rfl (by decide : TransferError.receiveFailed ≠ .none) rfl
    · next bytes hrecv =>
      split
      · exact h.quiet rfl rfl h.phase (by simp) Or.inl Or.inl
      · next packet hpacket => exact onControlReply_steps h hphase hrecv hpacket _

/-- The main loop ends only when every chunk has been acknowledged. -/
lemma Inv.complete (h : s.Inv job) (hnone : ∀ t, ¬ s.window.Unacked t)
    (hnext : job.totalChunks ≤ s.window.nextSequence) : s.Complete job :=
  ⟨le_antisymm h.next_le hnext, hnone⟩

lemma stepLoop_steps (h : s.Inv job) (hphase : s.phase = .loop) :
    Steps job s env (s.stepLoop job) none := by
  have hat : s.AtPhase job .loop := hphase ▸ h.phase
  have hpast : s.phase.pastStart = true := by rw [hphase]; rfl
  simp only [stepLoop]
  split_ifs with hbase
  · exact h.quiet rfl rfl hat (by simp) (fun _ => Or.inl hpast) (by simp)
  · refine h.quiet rfl rfl ?_ (by simp) (fun _ => Or.inl hpast) (by simp [finishData])
    rcases h.window.base_spec with ⟨hlt, -⟩ | ⟨heq, hnone⟩
    · have hle := h.next_le
      omega
    · exact h.complete hnone (by omega)

/-- A step that moves the window without sending anything new. -/
lemma Inv.moves (h : s.Inv job) {U : ℕ → Prop} {A : ℕ → TimePoint → Prop}
    (heffect : s.window.Effect s'.window s.window.nextSequence U A)
    (hsub : ∀ t, U t → s.window.Unacked t)
    (hwire : ∀ t, s.window.Unacked t → (s'.inFlight (t % s.window.capacity)).wire =
      (s.inFlight (t % s.window.capacity)).wire)
    (hphase : s'.AtPhase job s'.phase)
    (hretired : ∀ t, s.window.Unacked t → ¬ U t →
      ∃ packet, s.AckReceived env packet ∧ packet.header.acknowledgementNumber.toNat = t)
    (hemits : ∀ bytes, out = some bytes → Emits job s' bytes)
    (hpast : s.phase.pastStart = true) (hdone : s'.phase ≠ .done .none) :
    Steps job s env s' out where
  inv :=
    { window := heffect.inv
      capacity_eq := heffect.capacity_eq.trans h.capacity_eq
      next_le := heffect.next_eq ▸ h.next_le
      wires := by
        intro t ht
        have hold := hsub t ((heffect.unacked t).mp ht)
        rw [heffect.capacity_eq, hwire t hold]
        exact h.wires t hold
      phase := hphase }
  retired := by
    rintro t ⟨hlt, hnot⟩
    rw [heffect.next_eq] at hlt
    rw [heffect.unacked] at hnot
    by_cases hold : s.window.Unacked t
    · exact Or.inr (hretired t hold hnot)
    · exact Or.inl ⟨hlt, hold⟩
  emits := hemits
  started _ := Or.inl hpast
  finished hd := absurd hd hdone

/-- Sending chunk `next_sequence_` reuses a slot of the ring no unacknowledged packet holds. -/
lemma Inv.slot_free (h : s.Inv job) (hsend : s.window.canSend = true) {t : ℕ}
    (ht : s.window.Unacked t) :
    t % s.window.capacity ≠ s.window.nextSequence % s.window.capacity :=
  Ring.mod_ne_of_lt ht.1 ht.2.1 (h.window.canSend_iff.mp hsend)

lemma totalChunks_lt (job : Job) : job.totalChunks < 2 ^ 32 := by
  have hcount := job.count
  simp only [chunkCount] at hcount
  split_ifs at hcount with _ hlarge
  have := Option.some.inj hcount
  omega

/-- **Sending the next chunk.** -/
lemma Inv.sends (h : s.Inv job) (hphase : s.phase = .fill) (hsend : s.window.canSend = true)
    (htotal : s.window.nextSequence < job.totalChunks) (deadline : TimePoint)
    (stats : TransferStats)
    (hout : ∀ bytes, out = some bytes → bytes = job.dataWire s.window.nextSequence) :
    Steps job s env { s with
      window := s.window.onSent deadline
      inFlight := Function.update s.inFlight (s.window.nextSequence % s.window.capacity)
        { wire := job.dataWire s.window.nextSequence, attempts := 1 }
      stats := stats } out := by
  have harmed : s.Armed [] := by
    have hat := h.phase
    rwa [hphase] at hat
  have hlt : s.window.nextSequence + 1 < 2 ^ 32 := by
    have := totalChunks_lt job
    omega
  have hpast : s.phase.pastStart = true := by rw [hphase]; rfl
  have heffect := h.window.onSent hsend hlt deadline
  refine ⟨⟨heffect.inv, heffect.capacity_eq.trans h.capacity_eq, ?_, ?_, ?_⟩, ?_, ?_,
    fun _ => Or.inl hpast, fun hdone => by simp [hphase] at hdone⟩
  · rw [heffect.next_eq]
    exact htotal
  · intro t ht
    rw [heffect.capacity_eq]
    dsimp only
    rcases (heffect.unacked t).mp ht with hold | rfl
    · rw [Function.update_of_ne (h.slot_free hsend hold)]
      exact h.wires t hold
    · rw [Function.update_self]
  · simp only [hphase, AtPhase]
    intro t ht
    left
    rcases (heffect.unacked t).mp ht with hold | rfl
    · obtain ⟨d, hd⟩ | hmem := harmed t hold
      · exact ⟨d, (heffect.armed t d).mpr (Or.inl hd)⟩
      · exact absurd hmem List.not_mem_nil
    · exact ⟨deadline, (heffect.armed _ _).mpr (Or.inr ⟨rfl, rfl⟩)⟩
  · rintro t ⟨hlt', hnot⟩
    rw [heffect.next_eq] at hlt'
    rw [heffect.unacked, not_or] at hnot
    exact Or.inl ⟨by omega, hnot.1⟩
  · intro bytes hbytes
    rw [hout bytes hbytes]
    exact .data _ ((heffect.unacked _).mpr (Or.inr rfl)) hpast

/-- A failed send may already have overwritten a slot of the ring, but only a free one. -/
lemma Inv.sendFails (h : s.Inv job) (hsend : s.window.canSend = true) (slot : InFlight)
    (stats : TransferStats) :
    Steps job s env { s with
      phase := .done .sendFailed
      inFlight := Function.update s.inFlight (s.window.nextSequence % s.window.capacity) slot
      stats := stats } none where
  inv :=
    { window := h.window
      capacity_eq := h.capacity_eq
      next_le := h.next_le
      wires := by
        intro t ht
        dsimp only
        rw [Function.update_of_ne (h.slot_free hsend ht)]
        exact h.wires t ht
      phase := fun herror => by simp at herror }
  retired _ ht := Or.inl ht
  emits := by simp
  started := by simp [SenderPhase.pastStart]
  finished := by simp

lemma stepFill_steps (h : s.Inv job) (hphase : s.phase = .fill) :
    Steps job s env (s.stepFill job env).1 (s.stepFill job env).2 := by
  simp only [stepFill]
  by_cases hcond : s.window.canSend = true ∧ s.window.nextSequence < job.totalChunks
  · rw [if_pos hcond]
    obtain ⟨hsend, htotal⟩ := hcond
    have hfail : Steps job s env (s.finish .fileReadFailed) none :=
      h.fails rfl rfl (by decide : TransferError.fileReadFailed ≠ .none) rfl
    split
    · exact hfail
    · next chunk hread =>
      obtain rfl : chunk = job.chunk s.window.nextSequence := readAt_some hread
      split_ifs with hlength hok
      · exact hfail
      · exact h.sends hphase hsend htotal _ _ fun bytes hbytes => sendPacket_datagram hbytes
      · exact h.sendFails hsend _ _
  · rw [if_neg hcond]
    have hat := h.phase
    rw [hphase] at hat
    refine h.quiet rfl rfl ⟨hat, fun hsend => ?_⟩ (by simp)
      (fun _ => Or.inl (by rw [hphase]; rfl)) (by simp)
    by_contra hlt
    exact hcond ⟨hsend, not_le.mp hlt⟩

/-- What the receive in the main loop makes of the window: only an ACK changes it, and only by
retiring the packet it names. -/
lemma onDatagram_effect {t : Sender Q} (hinv : t.window.Inv) (bytes : Bytes) :
    (t.onDatagram bytes).phase = t.phase ∧ (t.onDatagram bytes).inFlight = t.inFlight ∧
      ∃ U : ℕ → Prop,
        t.window.Effect (t.onDatagram bytes).window t.window.nextSequence
          (fun u => t.window.Unacked u ∧ U u) (fun u d => t.window.Armed u d ∧ U u) ∧
        ∀ u, ¬ U u → ∃ packet, deserialize bytes = .ok packet ∧
          packet.header.packetType = .ack ∧ packet.header.acknowledgementNumber.toNat = u := by
  have hsame : ∀ w : SenderWindow Q, w = t.window →
      t.window.Effect w t.window.nextSequence (fun u => t.window.Unacked u ∧ True)
        (fun u d => t.window.Armed u d ∧ True) := by
    rintro w rfl
    simpa only [and_true] using hinv.effect_self
  simp only [onDatagram]
  split
  · exact ⟨rfl, rfl, fun _ => True, hsame _ rfl, fun u hu => absurd trivial hu⟩
  · next packet hpacket =>
    split_ifs with hack hduplicate
    · refine ⟨rfl, rfl, _, (hinv.onAck _).1, fun u hu => ⟨packet, hpacket, hack, ?_⟩⟩
      exact (not_not.mp hu).symm
    · refine ⟨rfl, rfl, _, (hinv.onAck _).1, fun u hu => ⟨packet, hpacket, hack, ?_⟩⟩
      exact (not_not.mp hu).symm
    · exact ⟨rfl, rfl, fun _ => True, hsame _ rfl, fun u hu => absurd trivial hu⟩

/-- **Expiring the timers** hands the retransmission loop exactly the packets left without one. -/
lemma Inv.expires {t : Sender Q} (h : s.Inv job) (hphase : s.phase = .sleep)
    (hinFlight : t.inFlight = s.inFlight) {U : ℕ → Prop}
    (heffect : s.window.Effect t.window s.window.nextSequence
      (fun u => s.window.Unacked u ∧ U u) (fun u d => s.window.Armed u d ∧ U u))
    (hretired : ∀ u, ¬ U u →
      ∃ packet, s.AckReceived env packet ∧ packet.header.acknowledgementNumber.toNat = u)
    (now : TimePoint) :
    Steps job s env { t with
      window := (t.window.expire now).1
      phase := .resend (t.window.expire now).2 } none := by
  have harmed : s.Armed [] := by
    have hat := h.phase
    rw [hphase] at hat
    exact hat.1
  obtain ⟨⟨ds, hds, hexpired⟩, hafter⟩ := heffect.inv.expire now
  have hwhole : s.window.Effect (t.window.expire now).1 s.window.nextSequence
      (fun u => s.window.Unacked u ∧ U u)
      (fun u d => (s.window.Armed u d ∧ U u) ∧ now < d) :=
    ⟨hafter.inv, hafter.capacity_eq.trans heffect.capacity_eq,
      hafter.next_eq.trans heffect.next_eq, fun u => (hafter.unacked u).trans (heffect.unacked u),
      fun u d => (hafter.armed u d).trans (and_congr_left fun _ => heffect.armed u d)⟩
  refine h.moves hwhole (fun u hu => hu.1) (fun u _ => by rw [hinFlight]) ?_
    (fun u hold hnot => hretired u fun hu => hnot ⟨hold, hu⟩) (by simp) (by rw [hphase]; rfl)
    (by simp)
  refine ⟨fun u hu => ?_, fun u hu => ?_⟩
  · obtain ⟨hold, hkept⟩ := (hwhole.unacked u).mp hu
    obtain ⟨d, hd⟩ | hmem := harmed u hold
    · rcases lt_or_ge now d with hlate | hdue
      · exact Or.inl ⟨d, (hwhole.armed u d).mpr ⟨⟨hd, hkept⟩, hlate⟩⟩
      · right
        rw [hds]
        have hmem : (u, d) ∈ ds := (hexpired.mem_iff (u, d)).mpr
          ⟨(heffect.armed u d).mpr ⟨hd, hkept⟩, hdue⟩
        exact List.mem_map_of_mem hmem
    · exact absurd hmem List.not_mem_nil
  · rw [hds] at hu
    obtain ⟨p, hp, rfl⟩ := List.mem_map.mp hu
    have ha := ((hexpired.mem_iff p).mp hp).1
    exact (hwhole.unacked p.1).mpr
      ((heffect.unacked p.1).mp (heffect.inv.toCore.armed_unacked ha))

/-- With no timer left there is no packet left, and then the window has room for the next chunk,
so there is no next chunk. -/
lemma Inv.complete_of_no_timer (h : s.Inv job) (hphase : s.phase = .sleep)
    (hnone : ∀ t d, ¬ s.window.Armed t d) : s.Complete job := by
  have hat := h.phase
  rw [hphase] at hat
  have hunacked : ∀ t, ¬ s.window.Unacked t := by
    intro t ht
    obtain ⟨d, hd⟩ | hmem := hat.1 t ht
    · exact hnone t d hd
    · exact List.not_mem_nil hmem
  refine h.complete hunacked (hat.2 ?_)
  rw [h.window.canSend_iff]
  rcases h.window.base_spec with ⟨-, hu⟩ | ⟨heq, -⟩
  · exact absurd hu (hunacked _)
  · have := h.window.capacity_pos
    omega

lemma stepSleep_steps (h : s.Inv job) (hphase : s.phase = .sleep) :
    Steps job s env (s.stepSleep job env) none := by
  obtain ⟨heffect, hnone, -⟩ := h.window.earliestDeadline
  have hpast : s.phase.pastStart = true := by rw [hphase]; rfl
  have hfails : ∀ error : TransferError, error ≠ .none →
      Steps job s env { s with
        window := s.window.earliestDeadline.1
        phase := .done error } none := by
    intro error herror
    exact h.moves heffect (fun _ => id) (fun _ _ => rfl) (fun he => absurd he herror)
      (fun t hu hnot => absurd hu hnot) (by simp) hpast (by simp [herror])
  simp only [stepSleep]
  split
  · next hdeadline =>
    have hcomplete := h.complete_of_no_timer hphase (hnone.mp hdeadline)
    refine h.moves heffect (fun _ => id) (fun _ _ => rfl) ?_ (fun t hu hnot => absurd hu hnot)
      (by simp) hpast (by simp [finishData])
    exact ⟨heffect.next_eq.trans hcomplete.1, fun t ht => hcomplete.2 t ((heffect.unacked t).mp ht)⟩
  · next deadline hdeadline =>
    have hquiet : s.window.Effect s.window.earliestDeadline.1 s.window.nextSequence
        (fun u => s.window.Unacked u ∧ True) (fun u d => s.window.Armed u d ∧ True) := by
      simpa only [and_true] using heffect
    split_ifs with htimeout hfailed
    · exact hfails _ (by decide)
    · rw [hfailed]
      exact hfails _ (by decide)
    · split
      · next bytes hrecv =>
        set t : Sender Q := { s with window := s.window.earliestDeadline.1 } with ht
        obtain ⟨-, hinFlight, U, hack, hretired⟩ := onDatagram_effect (t := t) heffect.inv bytes
        refine h.expires hphase hinFlight (U := U) ?_ (fun u hu => ?_) _
        · exact ⟨hack.inv, hack.capacity_eq.trans heffect.capacity_eq,
            hack.next_eq.trans heffect.next_eq,
            fun u => (hack.unacked u).trans (and_congr_left fun _ => heffect.unacked u),
            fun u d => (hack.armed u d).trans (and_congr_left fun _ => heffect.armed u d)⟩
        · obtain ⟨packet, hpacket, htype, hnumber⟩ := hretired u hu
          exact ⟨packet, ⟨hphase, by simp [hdeadline], by simpa using htimeout,
            ⟨bytes, hrecv, hpacket⟩, htype⟩, hnumber⟩
      · exact h.expires (t := { s with window := s.window.earliestDeadline.1 }) hphase rfl hquiet
          (fun u hu => absurd trivial hu) _

lemma stepResend_steps (h : s.Inv job) {sequence : ℕ} {rest : List ℕ}
    (hphase : s.phase = .resend (sequence :: rest)) :
    Steps job s env (s.stepResend job sequence rest env).1
      (s.stepResend job sequence rest env).2 := by
  have hat := h.phase
  rw [hphase] at hat
  obtain ⟨harmed, hexpired⟩ := hat
  have hself : s.window.Unacked sequence := hexpired sequence List.mem_cons_self
  have hpast : s.phase.pastStart = true := by rw [hphase]; rfl
  set slot := s.inFlight (sequence % s.window.capacity) with hslot
  -- the ring keeps the datagram; only its counter moves
  have hwire : ∀ (attempts : ℤ) (t : ℕ),
      (Function.update s.inFlight (sequence % s.window.capacity)
        { slot with attempts := attempts } (t % s.window.capacity)).wire
        = (s.inFlight (t % s.window.capacity)).wire := by
    intro attempts t
    rw [Function.update_apply]
    split_ifs with hcell
    · rw [hcell, hslot]
    · rfl
  simp only [stepResend]
  split_ifs with hbudget hok
  · exact h.fails rfl rfl (by decide : TransferError.peerUnresponsive ≠ .none) rfl
  · have heffect := h.window.reschedule sequence (env.now + job.config.rto)
    refine h.moves heffect (fun _ => id) (fun t _ => hwire _ t) ?_
      (fun t hu hnot => absurd hu hnot) (fun bytes hbytes => ?_) hpast (by simp)
    · refine ⟨fun t ht => ?_, fun t ht => ?_⟩
      · have hold := (heffect.unacked t).mp ht
        by_cases hts : t = sequence
        · subst hts
          exact Or.inl ⟨_, (heffect.armed _ _).mpr (Or.inr ⟨hself, rfl, rfl⟩)⟩
        · rcases harmed t hold with ⟨d, hd⟩ | hmem
          · exact Or.inl ⟨d, (heffect.armed t d).mpr (Or.inl ⟨hd, fun _ => hts⟩)⟩
          · rcases List.mem_cons.mp hmem with heq | hmem
            · exact absurd heq hts
            · exact Or.inr hmem
      · exact (heffect.unacked t).mpr (hexpired t (List.mem_cons_of_mem _ ht))
    · obtain rfl := sendPacket_datagram hbytes
      rw [show slot.wire = job.dataWire sequence from h.wires sequence hself]
      exact .data sequence ((heffect.unacked _).mpr hself) rfl
  · refine h.moves h.window.effect_self (fun _ => id) (fun t _ => hwire _ t) ?_
      (fun t hu hnot => absurd hu hnot) (by simp) hpast (by simp [finish])
    exact fun herror => by simp at herror

/-- **Every step of the sending side.** -/
theorem step_steps (h : s.Inv job) :
    Steps job s env (s.step job env).1 (s.step job env).2 := by
  rw [step]
  split
  · next which attempt hphase => exact stepControl_steps h hphase
  · next which attempt deadline hphase => exact stepAwaitReply_steps h hphase
  · next hphase => exact stepLoop_steps h hphase
  · next hphase => exact stepFill_steps h hphase
  · next hphase => exact stepSleep_steps h hphase
  · next hphase =>
    have hat := h.phase
    rw [hphase] at hat
    exact h.quiet rfl rfl hat.1 (by simp) (fun _ => Or.inl (by rw [hphase]; rfl)) (by simp)
  · next sequence rest hphase => exact stepResend_steps h hphase
  · next error hphase => exact h.quiet rfl rfl h.phase (by simp) Or.inl Or.inl

end Steps

lemma init_inv (Q : TimerQueue) (job : Job) : (init Q job).Inv job where
  window := SenderWindow.init_inv Q _
  capacity_eq := by
    simp only [init, SenderWindow.init]
    split_ifs <;> omega
  next_le := Nat.zero_le _
  wires t ht := absurd ht (SenderWindow.not_unacked_init Q _ t)
  phase := rfl

@[simp] lemma run_nil (job : Job) (s : Sender Q) : s.run job [] = s := rfl

@[simp] lemma run_concat (job : Job) (s : Sender Q) (envs : List SenderEnv) (env : SenderEnv) :
    s.run job (envs ++ [env]) = ((s.run job envs).step job env).1 := by
  simp [run]

/-- **The invariant holds throughout a run.** -/
theorem run_inv (job : Job) (envs : List SenderEnv) : ((init Q job).run job envs).Inv job := by
  induction envs using List.reverseRecOn with
  | nil => exact init_inv Q job
  | append_singleton envs env ih =>
      rw [run_concat]
      exact (step_steps ih).inv

/-- **A chunk is retired by an ACK**, received at the step before which it was not. -/
theorem retired_at {job : Job} {envs : List SenderEnv} {t : ℕ}
    (h : ((init Q job).run job envs).Retired t) :
    ∃ before env after packet, envs = before ++ env :: after ∧
      ¬ ((init Q job).run job before).Retired t ∧
      ((init Q job).run job (before ++ [env])).Retired t ∧
      ((init Q job).run job before).AckReceived env packet ∧
      packet.header.acknowledgementNumber.toNat = t := by
  induction envs using List.reverseRecOn with
  | nil =>
      obtain ⟨hlt, -⟩ := h
      simp [init, SenderWindow.init] at hlt
  | append_singleton envs env ih =>
      by_cases hold : ((init Q job).run job envs).Retired t
      · obtain ⟨before, e, after, packet, heq, hrest⟩ := ih hold
        exact ⟨before, e, after ++ [env], packet, by simp [heq], hrest⟩
      · have hsteps : Steps job ((init Q job).run job envs) env _ _ := step_steps (run_inv job envs)
        rw [run_concat] at h
        obtain hwas | ⟨packet, hack, hnumber⟩ := hsteps.retired t h
        · exact absurd hwas hold
        · exact ⟨envs, env, [], packet, rfl, hold, by rwa [run_concat], hack, hnumber⟩

end Sender

end SwiftLink
