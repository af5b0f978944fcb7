import SwiftLink.System.Chunks
import SwiftLink.Transfer.Receiver

/-!
# Two parties and a network

`send_file` on one side, one `ReceiverSession` on the other, and between them a network that loses,
duplicates, delays and reorders.  The network is everything ever sent, in each direction: a
datagram may be delivered at any later time, any number of times, or never, so no step takes one
away.  A step is a step of the sender, the delivery of a datagram to the session, or the driver
closing the file of a session that has settled.

Nothing the receiver has done is ever undone, so what a datagram implied about it when it was sent
still holds whenever it arrives.  `FromSender` and `Truthful` say what the datagrams of each
direction imply.
-/

namespace SwiftLink

/-- The two parties, and every datagram either has sent. -/
structure System (Q : TimerQueue) where
  sender : Sender Q
  receiver : World
  toReceiver : List Bytes
  toSender : List Bytes

inductive NetEvent
  | sender (env : SenderEnv)
  | deliver (bytes : Bytes) (io : IoEnv)
  | closeFile

namespace System

variable {Q : TimerQueue}

def init (Q : TimerQueue) (job : Job) (windowCapacity : BitVec 32) (outputDirectory : Path)
    (fs : FileSystem) : System Q where
  sender := Sender.init Q job
  receiver := World.init windowCapacity outputDirectory fs
  toReceiver := []
  toSender := []

def next (job : Job) (sys : System Q) : NetEvent → System Q
  | .sender env =>
      let stepped := sys.sender.step job env
      { sys with
        sender := stepped.1
        toReceiver := sys.toReceiver ++ stepped.2.toList }
  | .deliver bytes io =>
      let received := sys.receiver.receive bytes io
      { sys with
        receiver := received.1
        toSender := sys.toSender ++ received.2.toList }
  | .closeFile => { sys with receiver := sys.receiver.next .closeFile }

/-- What may happen: each party receives only what the other has sent, and a file is closed only
once its session has settled. -/
def Enabled (sys : System Q) : NetEvent → Prop
  | .sender env =>
      match env.recv with
      | .datagram bytes => bytes ∈ sys.toSender
      | _ => True
  | .deliver bytes _ => bytes ∈ sys.toReceiver
  | .closeFile => sys.receiver.session.finished = true

instance (sys : System Q) (e : NetEvent) : Decidable (sys.Enabled e) :=
  match e with
  | .sender env =>
      match h : env.recv with
      | .datagram bytes => decidable_of_iff (bytes ∈ sys.toSender) (by simp [Enabled, h])
      | .wouldBlock => isTrue (by simp [Enabled, h])
      | .interrupted => isTrue (by simp [Enabled, h])
      | .failed => isTrue (by simp [Enabled, h])
  | .deliver bytes _ => inferInstanceAs (Decidable (bytes ∈ sys.toReceiver))
  | .closeFile => inferInstanceAs (Decidable (_ = true))

lemma mem_toSender_of_enabled {sys : System Q} {env : SenderEnv} {bytes : Bytes}
    (h : sys.Enabled (.sender env)) (hrecv : env.recv = .datagram bytes) :
    bytes ∈ sys.toSender := by
  rw [Enabled, hrecv] at h
  exact h

end System

/-- The event's system calls satisfy `P`. -/
def NetEvent.Calls (P : IoEnv → Prop) : NetEvent → Prop
  | .deliver _ io => P io
  | _ => True

/-- The joint states of a transfer in which every system call of the receiver satisfies `P`. -/
inductive Reachable {Q : TimerQueue} (job : Job) (P : IoEnv → Prop) (start : System Q) :
    System Q → Prop
  | start : Reachable job P start start
  | next {sys : System Q} (h : Reachable job P start sys) (e : NetEvent) (henabled : sys.Enabled e)
      (hcalls : e.Calls P) : Reachable job P start (sys.next job e)

namespace System

variable {Q : TimerQueue}

def run (job : Job) (sys : System Q) (events : List NetEvent) : System Q :=
  events.foldl (next job) sys

/-- Each event of the list may happen when its turn comes. -/
def Runs (job : Job) (sys : System Q) : List NetEvent → Prop
  | [] => True
  | e :: events => sys.Enabled e ∧ (sys.next job e).Runs job events

instance instDecidableRuns (job : Job) (sys : System Q) (events : List NetEvent) :
    Decidable (sys.Runs job events) :=
  match events with
  | [] => isTrue trivial
  | e :: events =>
      have : Decidable ((sys.next job e).Runs job events) := instDecidableRuns job _ events
      inferInstanceAs (Decidable (_ ∧ _))

lemma reachable_run {job : Job} {P : IoEnv → Prop} {start sys : System Q} {events : List NetEvent}
    (h : Reachable job P start sys) (hruns : sys.Runs job events)
    (hcalls : ∀ e ∈ events, e.Calls P) : Reachable job P start (sys.run job events) := by
  induction events generalizing sys with
  | nil => exact h
  | cons e events ih =>
      exact ih (.next h e hruns.1 (hcalls e List.mem_cons_self)) hruns.2
        fun d hd => hcalls d (List.mem_cons_of_mem e hd)

end System

/-! ## What the datagrams say -/

/-- A packet the sender of `job` may have sent, when the session is in state `s`: the datagrams in
flight imply what has already happened at the receiver. -/
inductive FromSender (job : Job) (s : ReceiverSession) (packet : Packet) : Prop
  | start (htype : packet.header.packetType = .start)
      (hname : packet.payload = job.config.remoteName)
      (hsize : packet.header.byteOffset.toNat = job.fileSize)
  | data (htype : packet.header.packetType = .data) (hstarted : s.started = true)
      (hcarries : job.Carries packet)
  | fin (htype : packet.header.packetType = .fin) (hstarted : s.started = true)
      (hall : ∀ t < job.totalChunks, s.window.Stored t)
      (hsize : packet.header.byteOffset.toNat = job.fileSize)
      (hdigest : packet.payload = job.digest)

namespace FromSender

variable {job : Job} {s : ReceiverSession} {packet : Packet}

lemma of_start (h : FromSender job s packet) (htype : packet.header.packetType = .start) :
    packet.payload = job.config.remoteName ∧ packet.header.byteOffset.toNat = job.fileSize := by
  cases h with
  | start _ hname hsize => exact ⟨hname, hsize⟩
  | data htype' => simp [htype'] at htype
  | fin htype' => simp [htype'] at htype

lemma of_data (h : FromSender job s packet) (htype : packet.header.packetType = .data) :
    job.Carries packet := by
  cases h with
  | start htype' => simp [htype'] at htype
  | data _ _ hcarries => exact hcarries
  | fin htype' => simp [htype'] at htype

lemma of_fin (h : FromSender job s packet) (htype : packet.header.packetType = .fin) :
    (∀ t < job.totalChunks, s.window.Stored t) ∧
      packet.header.byteOffset.toNat = job.fileSize ∧ packet.payload = job.digest := by
  cases h with
  | start htype' => simp [htype'] at htype
  | data htype' => simp [htype'] at htype
  | fin _ _ hall hsize hdigest => exact ⟨hall, hsize, hdigest⟩

/-- Only a START is sent before the session has started. -/
lemma started (h : FromSender job s packet) (htype : packet.header.packetType ≠ .start) :
    s.started = true := by
  cases h with
  | start htype' => exact absurd htype' htype
  | data _ hstarted => exact hstarted
  | fin _ hstarted => exact hstarted

end FromSender

/-- A packet of the receiver's means what it says. -/
structure Truthful (s : ReceiverSession) (type : PacketType) (number : BitVec 32) : Prop where
  ack : type = .ack → s.window.Stored number.toNat
  startAck : type = .startAck → s.started = true
  finAck : type = .finAck → s.published = true

/-- What can only grow at the receiver. -/
structure Advances (s s' : ReceiverSession) : Prop where
  started : s.started = true → s'.started = true
  stored : ∀ t, s.window.Stored t → s'.window.Stored t
  published : s.published = true → s'.published = true
  capacity_eq : s'.window.capacity = s.window.capacity

lemma Advances.of_eq {s s' : ReceiverSession} (hstarted : s'.started = s.started)
    (hwindow : s'.window = s.window) (hpublished : s.published = true → s'.published = true) :
    Advances s s' :=
  ⟨fun h => hstarted.trans h, fun _ h => hwindow ▸ h, hpublished, by rw [hwindow]⟩

lemma FromSender.advance {job : Job} {s s' : ReceiverSession} {packet : Packet}
    (h : FromSender job s packet) (hs : Advances s s') : FromSender job s' packet := by
  cases h with
  | start htype hname hsize => exact .start htype hname hsize
  | data htype hstarted hcarries => exact .data htype (hs.started hstarted) hcarries
  | fin htype hstarted hall hsize hdigest =>
      exact .fin htype (hs.started hstarted) (fun t ht => hs.stored t (hall t ht)) hsize hdigest

lemma Truthful.advance {s s' : ReceiverSession} {type : PacketType} {number : BitVec 32}
    (h : Truthful s type number) (hs : Advances s s') : Truthful s' type number :=
  ⟨fun ht => hs.stored _ (h.ack ht), fun ht => hs.started (h.startAck ht),
    fun ht => hs.published (h.finAck ht)⟩

namespace ReceiverSession

variable {s : ReceiverSession} {fs : FileSystem} {packet : Packet} {io : IoEnv} {handled : Handled}

/-- **Nothing is taken back.** -/
lemma Handles.advances (h : s.Handles fs packet io handled) (hinv : s.window.Inv) :
    Advances s handled.session := by
  cases h with
  | replayed => exact .of_eq rfl rfl id
  | ignored => exact .of_eq rfl rfl id
  | restarted => exact .of_eq rfl rfl id
  | duplicate => exact .of_eq rfl rfl id
  | outside => exact .of_eq rfl rfl id
  | strayed => exact .of_eq rfl rfl id
  | misnamed => exact .of_eq rfl rfl id
  | openFailed => exact .of_eq rfl rfl id
  | oversized => exact .of_eq rfl rfl id
  | writeFailed => exact .of_eq rfl rfl id
  | finFailed => exact .of_eq rfl rfl id
  | opened => exact ⟨fun _ => rfl, fun _ => id, id, rfl⟩
  | published => exact .of_eq rfl rfl fun _ => rfl
  | stored stats fs' hfits =>
      obtain ⟨-, hcapacity, -, hstored⟩ := hinv.markReceived hfits.accepted
      exact ⟨id, fun t ht => (hstored t).mpr (Or.inl ht), id, hcapacity⟩

/-- **Every reply is truthful** about the state it leaves behind. -/
lemma Handles.truthful (h : s.Handles fs packet io handled) (hinv : s.window.Inv)
    (hverdict : s.Verdict) (hsend : handled.reply.send = true) :
    Truthful handled.session handled.reply.type handled.reply.sequence := by
  have hfinAck : handled.reply.type = .finAck → handled.session.published = true :=
    fun htype => hverdict.of_finAck h ⟨hsend, htype⟩
  have herror : handled.reply.type = .error →
      Truthful handled.session handled.reply.type handled.reply.sequence := by
    intro htype
    exact ⟨by simp [htype], by simp [htype], by simp [htype]⟩
  cases h with
  | replayed stats =>
      refine ⟨fun htype => ?_, fun htype => ?_, hfinAck⟩
      all_goals
        cases hverdict with
        | pending _ _ _ hreply =>
            dsimp only at hsend
            simp [hreply] at hsend
        | failed _ _ _ hreply => simp [hreply.2.1] at htype
        | published _ _ _ hreply => simp [hreply.2] at htype
  | ignored => simp at hsend
  | outside => simp at hsend
  | restarted stats hlive => exact ⟨by simp, fun _ => hlive.started, by simp⟩
  | opened => exact ⟨by simp, fun _ => rfl, by simp⟩
  | duplicate stats hlive htype hclass =>
      exact ⟨fun _ => ReceiverWindow.stored_of_duplicate hclass, by simp, by simp⟩
  | stored stats fs' hfits =>
      obtain ⟨-, -, -, hstored⟩ := hinv.markReceived hfits.accepted
      exact ⟨fun _ => (hstored _).mpr (Or.inr rfl), by simp, by simp⟩
  | published => exact ⟨by simp, by simp, hfinAck⟩
  | strayed => exact herror rfl
  | misnamed => exact herror rfl
  | openFailed => exact herror rfl
  | oversized => exact herror rfl
  | writeFailed => exact herror rfl
  | finFailed => exact herror rfl

end ReceiverSession

/-! ### A two-byte transfer

Two chunks, one at a time, for the later modules to run on: `sampleDelivery` is the handshake, the
first chunk and its ACK, and the second chunk on its way. -/

def sampleTwo : Job where
  config :=
    { chunkSize := 1
      rto := 1
      maxRetries := 5
      windowSize := 1
      sessionId := 7
      remoteName := asciiBytes "f" }
  data := asciiBytes "xy"
  totalChunks := 2
  digest := digestOf (asciiBytes "xy") 2
  count := by decide
  digest_eq := rfl

lemma sampleTwo_inRange : sampleTwo.InRange := ⟨by decide, by decide⟩

def sampleAnswer (type : PacketType) (sequence : BitVec 32) : Bytes :=
  Reply.wire { send := true, type := type, sequence := sequence } 7

def sampleDelivery : List NetEvent :=
  [.sender {}, .deliver (sampleTwo.controlWire .start) {},
    .sender { recv := .datagram (sampleAnswer .startAck 0) }, .sender {}, .sender {},
    .deliver (sampleTwo.dataWire 0) {}, .sender {},
    .sender { recv := .datagram (sampleAnswer .ack 0) }, .sender {}, .sender {}, .sender {}]

def sampleSystem (windowCapacity : BitVec 32) : System sortedTimers :=
  System.init sortedTimers sampleTwo windowCapacity [] .empty

end SwiftLink
