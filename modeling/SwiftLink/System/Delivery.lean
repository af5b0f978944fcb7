import SwiftLink.System.Joint

/-!
# Outstanding chunks and the receiver's window

The comment in `ReceiverWindow::classify` says that a sender obeying the window size cannot produce
a sequence number beyond the window.  The base of the receiver is never behind the base of the
sender, so this is true of the ring.  It is not true of `base_ + capacity_`, which is a 32-bit sum:
once it wraps, every chunk not yet stored is outside.  And a chunk that does not fit into a payload
is met with silence whatever the window, because its datagram is empty.
-/

namespace SwiftLink

variable {Q : TimerQueue}

/-- The session stores the chunk or has it already, and acknowledges it. -/
structure World.Acknowledges (w : World) (packet : Packet) (io : IoEnv) : Prop where
  classified : w.session.window.classify packet.seq = .accepted ∨
    w.session.window.classify packet.seq = .duplicate
  reply_eq : w.reply (.packet packet io) =
    { send := true, type := .ack, sequence := packet.header.sequenceNumber }

/-- The write the packet asks for succeeds. -/
def World.Writes (w : World) (packet : Packet) (io : IoEnv) : Prop :=
  (w.fs.writeFile w.session.file io.write packet.payload packet.header.byteOffset.toNat).2
    = some packet.payload.length

instance (w : World) (packet : Packet) (io : IoEnv) : Decidable (w.Writes packet io) :=
  inferInstanceAs (Decidable (_ = _))

/-- The capacity of the window never changes. -/
lemma Reachable.capacity_eq {job : Job} {P : IoEnv → Prop} {windowCapacity : BitVec 32}
    {outputDirectory : Path} {fs : FileSystem} {sys : System Q}
    (h : Reachable job P (System.init Q job windowCapacity outputDirectory fs) sys)
    (hrange : job.InRange) :
    sys.receiver.session.window.capacity = (ReceiverWindow.init windowCapacity).capacity := by
  induction h with
  | start => rfl
  | next hreach e henabled hcalls ih =>
      exact ((hreach.joint hrange).next hrange henabled).2.capacity_eq.trans ih

namespace Joint

variable {job : Job} {sys : System Q}

/-- **The receiver's base is never behind the sender's.** -/
lemma base_le (h : Joint job sys) :
    sys.sender.window.base ≤ sys.receiver.session.window.base := by
  obtain ⟨ps, hrecord, -⟩ := h.record
  by_contra hlt
  have hlt := not_le.mp hlt
  refine hrecord.window_inv.base_spec.2 (h.retired _ ⟨?_, fun hu => ?_⟩)
  · exact lt_of_lt_of_le hlt h.sender.window.base_le
  · exact absurd hu.1 (not_le.mpr hlt)

/-- **An outstanding chunk is inside the receiver's window**, as long as the 32-bit sum cannot
wrap before the last chunk. -/
lemma classify_of_unacked (h : Joint job sys)
    (hwindow : max 1 job.config.windowSize.toNat ≤ sys.receiver.session.window.capacity)
    (htop : job.totalChunks + sys.receiver.session.window.capacity ≤ 2 ^ 32) {t : ℕ}
    (ht : sys.sender.window.Unacked t) :
    sys.receiver.session.window.classify t ≠ .outsideWindow := by
  have hbase := h.base_le
  have hnext := h.sender.window.next_le
  have htotal := h.sender.next_le
  rw [h.sender.capacity_eq] at hnext
  by_cases hbelow : t < sys.receiver.session.window.base
  · rw [ReceiverWindow.classify, if_pos hbelow]
    simp
  · refine ReceiverWindow.classify_of_open ?_ ?_
    · have := ht.2.1
      rw [ReceiverWindow.Open]
      omega
    · have := ht.2.1
      omega

/-- A chunk of the job that the window does not turn away is acknowledged. -/
lemma acknowledges (hrange : job.InRange) (h : Joint job sys)
    (hstarted : sys.receiver.session.started = true)
    (hfinished : sys.receiver.session.finished = false) {packet : Packet}
    (htype : packet.header.packetType = .data)
    (hid : packet.header.sessionId = job.config.sessionId) (hcarries : job.Carries packet)
    (hclass : sys.receiver.session.window.classify packet.seq ≠ .outsideWindow) {io : IoEnv}
    (hwrite : sys.receiver.session.window.classify packet.seq = .accepted →
      sys.receiver.Writes packet io) :
    sys.receiver.Acknowledges packet io := by
  obtain ⟨hown, hdeclared⟩ := h.own hstarted
  have hsize : (packet.header.byteOffset.toNat + packet.payload.length) % 2 ^ 64
      ≤ sys.receiver.session.declaredSize := by
    rw [hdeclared]
    exact (Nat.mod_le _ _).trans (hrange.carried_le hcarries)
  have hstep := ReceiverSession.handlePacket_handles sys.receiver.session sys.receiver.fs packet io
  have hreply : sys.receiver.reply (.packet packet io)
      = (sys.receiver.session.handlePacket sys.receiver.fs packet io).reply := rfl
  generalize sys.receiver.session.handlePacket sys.receiver.fs packet io = handled at hstep hreply
  cases hstep with
  | duplicate _ _ _ hdup => exact ⟨Or.inr hdup, hreply⟩
  | stored _ _ hfits => exact ⟨Or.inl hfits.accepted, hreply⟩
  | outside _ _ _ hout => exact absurd hout hclass
  | oversized _ _ _ _ hover => exact absurd hsize (not_le.mpr hover)
  | writeFailed _ fs' written hfits hresult hshort =>
      have hok := hwrite hfits.accepted
      rw [World.Writes, hresult] at hok
      exact absurd hok hshort
  | replayed _ hr => simp [ReceiverSession.replays, hfinished] at hr
  | ignored _ _ hwhy => simp [hfinished, htype] at hwhy
  | restarted _ _ ht => simp [htype] at ht
  | strayed _ _ hwhy => simp [htype, hstarted, hid, hown] at hwhy
  | misnamed _ hopen => simp [hopen.started] at hstarted
  | openFailed _ _ hopen => simp [hopen.started] at hstarted
  | opened _ _ _ _ hopen => simp [hopen.started] at hstarted
  | finFailed _ _ _ _ ht => simp [htype] at ht
  | published _ _ _ ht => simp [htype] at ht

end Joint

/-- Within the payload limit the datagram of a chunk decodes. -/
lemma Job.InRange.dataWire_decodes {job : Job} (hrange : job.InRange)
    (hfits : min job.data.length job.config.chunkSize ≤ kMaxPayloadSize) {t : ℕ}
    (ht : t < job.totalChunks) : ∃ packet, deserialize (job.dataWire t) = .ok packet := by
  have hlength : (job.chunk t).length ≤ kMaxPayloadSize := by
    have hsize : job.fileSize = job.data.length := rfl
    rw [(hrange.chunk_length ht).1]
    omega
  exact ⟨_, deserialize_serialize ⟨rfl, rfl, rfl⟩ hlength⟩

/-- **A sender that obeys the window is never ignored**: whatever the network has done, the datagram
of an outstanding chunk decodes, and when it arrives at the started, unfinished session the chunk is
stored or recognised, and acknowledged.  The session's writes are assumed to succeed. -/
def NeverIgnored (Q : TimerQueue) (job : Job) (windowCapacity : BitVec 32) (outputDirectory : Path)
    (fs : FileSystem) : Prop :=
  ∀ sys : System Q,
    Reachable job (fun _ => True) (System.init Q job windowCapacity outputDirectory fs) sys →
    sys.receiver.session.started = true → sys.receiver.session.finished = false →
    ∀ t, sys.sender.window.Unacked t →
    ∃ packet, deserialize (job.dataWire t) = .ok packet ∧ packet.seq = t ∧
      ∀ io, (sys.receiver.session.window.classify t = .accepted → sys.receiver.Writes packet io) →
        sys.receiver.Acknowledges packet io

/-- The sender is never ignored in a transfer whose chunks fit into a payload and whose sequence
numbers leave room for the receiver's window below `2 ^ 32`. -/
theorem never_ignored_below_top (Q : TimerQueue) (job : Job) (windowCapacity : BitVec 32)
    (outputDirectory : Path) (fs : FileSystem) (hrange : job.InRange)
    (hfits : 0 < job.totalChunks → min job.data.length job.config.chunkSize ≤ kMaxPayloadSize)
    (hwindow : job.config.windowSize ≤ windowCapacity)
    (htop : job.totalChunks + max 1 windowCapacity.toNat ≤ 2 ^ 32) :
    NeverIgnored Q job windowCapacity outputDirectory fs := by
  intro sys hreach hstarted hfinished t ht
  have hjoint := hreach.joint hrange
  have hcapacity : sys.receiver.session.window.capacity = max 1 windowCapacity.toNat := by
    rw [hreach.capacity_eq hrange]
    exact ReceiverWindow.init_capacity windowCapacity
  have hlt : t < job.totalChunks := lt_of_lt_of_le ht.2.1 hjoint.sender.next_le
  obtain ⟨packet, hpacket⟩ := hrange.dataWire_decodes (hfits (by omega)) hlt
  obtain ⟨htype, hid, hseq, hcarries⟩ := Job.decoded_dataWire hlt hpacket
  have hclass : sys.receiver.session.window.classify t ≠ .outsideWindow :=
    hjoint.classify_of_unacked (hcapacity ▸ max_le_max_left 1 hwindow) (hcapacity ▸ htop) ht
  refine ⟨packet, hpacket, hseq, fun io hwrite => ?_⟩
  rw [← hseq] at hclass hwrite
  exact hjoint.acknowledges hrange hstarted hfinished htype hid hcarries hclass hwrite

/-- The state the sample events lead to. -/
def sampleMidway (windowCapacity : BitVec 32) : System sortedTimers :=
  (sampleSystem windowCapacity).run sampleTwo sampleDelivery

lemma sampleMidway_reachable {windowCapacity : BitVec 32}
    (h : (sampleSystem windowCapacity).Runs sampleTwo sampleDelivery) :
    Reachable sampleTwo (fun _ => True) (sampleSystem windowCapacity)
      (sampleMidway windowCapacity) := by
  refine System.reachable_run .start h fun e _ => ?_
  cases e <;> trivial

/-- The second chunk, as it arrives. -/
def sampleArrival : Packet where
  header := onWire (sampleTwo.dataHeader 1) (sampleTwo.chunk 1)
  payload := sampleTwo.chunk 1
  payload_le := by decide

lemma sampleArrival_decodes : deserialize (sampleTwo.dataWire 1) = .ok sampleArrival :=
  deserialize_serialize ⟨rfl, rfl, rfl⟩ (by decide)

/-- A window of four recognises the second chunk. -/
theorem never_ignored_two_chunks :
    (sampleMidway 4).sender.window.Unacked 1 ∧
      (sampleMidway 4).receiver.Acknowledges sampleArrival {} := by
  have hunacked : (sampleMidway 4).sender.window.Unacked 1 := by decide +kernel
  refine ⟨hunacked, ?_⟩
  obtain ⟨packet, hpacket, -, hacknowledged⟩ := never_ignored_below_top sortedTimers sampleTwo 4 []
    .empty sampleTwo_inRange (by decide) (by decide) (by decide) _
    (sampleMidway_reachable (by decide +kernel)) (by decide +kernel) (by decide +kernel) 1 hunacked
  obtain rfl := Except.ok.inj (hpacket.symm.trans sampleArrival_decodes)
  exact hacknowledged {} fun _ => by decide +kernel

/-- A window of `2 ^ 32 - 1` does not: after the first chunk `base_ + capacity_` is zero. -/
theorem second_chunk_ignored :
    ¬ ∀ (Q : TimerQueue) (job : Job) (windowCapacity : BitVec 32) (outputDirectory : Path)
      (fs : FileSystem), job.InRange → job.config.windowSize ≤ windowCapacity →
      NeverIgnored Q job windowCapacity outputDirectory fs := by
  intro h
  have hclass : (sampleMidway 0xFFFFFFFF).receiver.session.window.classify 1
      = .outsideWindow := by
    decide +kernel
  obtain ⟨packet, -, hseq, hacknowledged⟩ := h sortedTimers sampleTwo 0xFFFFFFFF [] .empty
    sampleTwo_inRange (by decide) _ (sampleMidway_reachable (by decide +kernel))
    (by decide +kernel) (by decide +kernel) 1 (by decide +kernel)
  have hstored := (hacknowledged {} fun hacc => by rw [hclass] at hacc; simp at hacc).classified
  rw [hseq, hclass] at hstored
  simp at hstored

end SwiftLink
