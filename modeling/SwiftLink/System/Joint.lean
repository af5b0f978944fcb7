import SwiftLink.System.Network

/-!
# The joint invariant

`Joint` ties the sender, the receiver and the datagrams in flight together: the receiver has
accepted chunks of the sender's file and nothing else, every chunk the sender has retired is among
them, and every datagram implies what it should.  It holds in every reachable state, however the
receiver's system calls turn out.
-/

namespace SwiftLink

variable {Q : TimerQueue}

/-- **The joint invariant.** -/
structure Joint (job : Job) (sys : System Q) : Prop where
  sender : sys.sender.Inv job
  verdict : sys.receiver.session.Verdict
  record : ∃ ps, Record sys.receiver.session sys.receiver.fs ps ∧ ∀ p ∈ ps, job.Carries p
  own : sys.receiver.session.started = true →
    sys.receiver.session.sessionId = job.config.sessionId ∧
      sys.receiver.session.declaredSize = job.fileSize
  retired : ∀ t, sys.sender.Retired t → sys.receiver.session.window.Stored t
  started : sys.sender.phase.pastStart = true → sys.receiver.session.started = true
  done : sys.sender.phase = .done .none → sys.receiver.session.published = true
  toReceiver : ∀ bytes ∈ sys.toReceiver, ∀ packet, deserialize bytes = .ok packet →
    packet.header.sessionId = job.config.sessionId ∧
      FromSender job sys.receiver.session packet
  toSender : ∀ bytes ∈ sys.toSender, ∀ packet, deserialize bytes = .ok packet →
    Truthful sys.receiver.session packet.header.packetType packet.header.acknowledgementNumber

namespace Job

variable {job : Job} {packet : Packet}

/-- What arrives of a chunk is the chunk. -/
lemma decoded_dataWire {t : ℕ} (ht : t < job.totalChunks)
    (h : deserialize (job.dataWire t) = .ok packet) :
    packet.header.packetType = .data ∧ packet.header.sessionId = job.config.sessionId ∧
      packet.seq = t ∧ job.Carries packet := by
  obtain ⟨hheader, hpayload⟩ := decoded_of_serialize ⟨rfl, rfl, rfl⟩ h
  have hseq : packet.seq = t := by
    rw [Packet.seq, hheader]
    exact BitVec.toNat_ofNat t 32 ▸ Nat.mod_eq_of_lt (ht.trans (Sender.totalChunks_lt job))
  refine ⟨by rw [hheader]; rfl, by rw [hheader]; rfl, hseq, hseq ▸ ht, ?_⟩
  have hoffset : packet.header.byteOffset.toNat = job.chunkOffset t := by
    rw [hheader]
    exact (BitVec.toNat_ofNat _ 64).trans (Nat.mod_mod _ _)
  rw [hseq, Packet.toWrite, hoffset, hpayload]
  rfl

lemma decoded_start (hrange : job.InRange)
    (h : deserialize (job.controlWire .start) = .ok packet) :
    packet.header.packetType = .start ∧ packet.header.sessionId = job.config.sessionId ∧
      packet.payload = job.config.remoteName ∧
      packet.header.byteOffset.toNat = job.fileSize := by
  obtain ⟨hheader, hpayload⟩ := decoded_of_serialize ⟨rfl, rfl, rfl⟩ h
  refine ⟨by rw [hheader]; rfl, by rw [hheader]; rfl, hpayload, ?_⟩
  rw [hheader]
  exact (BitVec.toNat_ofNat _ 64).trans (Nat.mod_eq_of_lt hrange.size_lt)

lemma decoded_fin (hrange : job.InRange) (h : deserialize (job.controlWire .fin) = .ok packet) :
    packet.header.packetType = .fin ∧ packet.header.sessionId = job.config.sessionId ∧
      packet.payload = job.digest ∧ packet.header.byteOffset.toNat = job.fileSize := by
  obtain ⟨hheader, hpayload⟩ := decoded_of_serialize ⟨rfl, rfl, rfl⟩ h
  refine ⟨by rw [hheader]; rfl, by rw [hheader]; rfl, hpayload, ?_⟩
  rw [hheader]
  exact (BitVec.toNat_ofNat _ 64).trans (Nat.mod_eq_of_lt hrange.size_lt)

end Job

namespace Joint

variable {job : Job} {sys : System Q}

lemma init (job : Job) (windowCapacity : BitVec 32) (outputDirectory : Path) (fs : FileSystem) :
    Joint job (System.init Q job windowCapacity outputDirectory fs) where
  sender := Sender.init_inv Q job
  verdict := ReceiverSession.init_verdict windowCapacity outputDirectory
  record := ⟨[], Record.init windowCapacity outputDirectory fs, by simp⟩
  own h := absurd h (by simp [System.init, World.init, ReceiverSession.init])
  retired t ht := absurd ht.1 (Nat.not_lt_zero t)
  started h := absurd h (by simp [System.init, Sender.init, SenderPhase.pastStart])
  done h := absurd h (by simp [System.init, Sender.init])
  toReceiver := by simp [System.init]
  toSender := by simp [System.init]

/-- Replies reach the sender only after what they say has happened. -/
lemma truthful_of_recv (h : Joint job sys) {env : SenderEnv} (henabled : sys.Enabled (.sender env))
    {packet : Packet}
    (hrecv : ∃ bytes, env.recv = .datagram bytes ∧ deserialize bytes = .ok packet) :
    Truthful sys.receiver.session packet.header.packetType packet.header.acknowledgementNumber := by
  obtain ⟨bytes, hbytes, hpacket⟩ := hrecv
  exact h.toSender bytes (System.mem_toSender_of_enabled henabled hbytes) packet hpacket

/-- **A step of the sender keeps the joint invariant.** -/
lemma senderStep (hrange : job.InRange) (h : Joint job sys) {env : SenderEnv}
    (henabled : sys.Enabled (.sender env)) : Joint job (sys.next job (.sender env)) := by
  have hsteps : Sender.Steps job sys.sender env (sys.sender.step job env).1
      (sys.sender.step job env).2 := Sender.step_steps h.sender
  have hretired : ∀ t, (sys.sender.step job env).1.Retired t →
      sys.receiver.session.window.Stored t := by
    intro t ht
    rcases hsteps.retired t ht with hold | ⟨packet, hack, rfl⟩
    · exact h.retired t hold
    · exact (h.truthful_of_recv henabled hack.received).ack hack.packetType
  have hstarted : (sys.sender.step job env).1.phase.pastStart = true →
      sys.receiver.session.started = true := by
    intro hpast
    rcases hsteps.started hpast with hold | ⟨packet, hreply⟩
    · exact h.started hold
    · exact (h.truthful_of_recv henabled hreply.received).startAck hreply.packetType
  have hdone : (sys.sender.step job env).1.phase = .done .none →
      sys.receiver.session.published = true := by
    intro hend
    rcases hsteps.finished hend with hold | ⟨packet, hreply⟩
    · exact h.done hold
    · exact (h.truthful_of_recv henabled hreply.received).finAck hreply.packetType
  refine ⟨hsteps.inv, h.verdict, h.record, h.own, hretired, hstarted, hdone, ?_, h.toSender⟩
  intro bytes hbytes packet hpacket
  rcases List.mem_append.mp hbytes with hold | hnew
  · exact h.toReceiver bytes hold packet hpacket
  · have hemits := hsteps.emits bytes (Option.mem_toList.mp hnew)
    cases hemits with
    | start =>
        obtain ⟨htype, hid, hname, hsize⟩ := Job.decoded_start hrange hpacket
        exact ⟨hid, .start htype hname hsize⟩
    | data t ht hphase =>
        have hlt : t < job.totalChunks := lt_of_lt_of_le ht.2.1 hsteps.inv.next_le
        obtain ⟨htype, hid, -, hcarries⟩ := Job.decoded_dataWire hlt hpacket
        exact ⟨hid, .data htype (hstarted hphase) hcarries⟩
    | fin hcomplete hphase =>
        obtain ⟨htype, hid, hdigest, hsize⟩ := Job.decoded_fin hrange hpacket
        refine ⟨hid, .fin htype (hstarted hphase) (fun t ht => ?_) hsize hdigest⟩
        exact hretired t ⟨hcomplete.1.symm ▸ ht, hcomplete.2 t⟩

/-- Whatever a packet of the job does to the session, the session stays the job's. -/
lemma own_handles {s : ReceiverSession} {fs : FileSystem} {packet : Packet} {io : IoEnv}
    {handled : Handled} (hown : s.started = true →
      s.sessionId = job.config.sessionId ∧ s.declaredSize = job.fileSize)
    (hid : packet.header.sessionId = job.config.sessionId) (hfrom : FromSender job s packet)
    (hstep : s.Handles fs packet io handled) (hstarted : handled.session.started = true) :
    handled.session.sessionId = job.config.sessionId ∧
      handled.session.declaredSize = job.fileSize := by
  cases hstep with
  | replayed => exact hown hstarted
  | ignored => exact hown hstarted
  | restarted => exact hown hstarted
  | duplicate => exact hown hstarted
  | outside => exact hown hstarted
  | strayed => exact hown hstarted
  | oversized => exact hown hstarted
  | writeFailed => exact hown hstarted
  | stored => exact hown hstarted
  | finFailed => exact hown hstarted
  | published => exact hown hstarted
  | misnamed stats hopen => exact absurd hstarted (by simp [ReceiverSession.fail, hopen.started])
  | openFailed stats name hopen =>
      exact absurd hstarted (by simp [ReceiverSession.fail, ReceiverSession.named, hopen.started])
  | opened stats name fs' fd hopen => exact ⟨hid, (hfrom.of_start hopen.packetType).2⟩

/-- **Delivering a datagram keeps the joint invariant.** -/
lemma deliverStep (h : Joint job sys) {bytes : Bytes} {io : IoEnv}
    (henabled : sys.Enabled (.deliver bytes io)) :
    Joint job (sys.next job (.deliver bytes io)) ∧
      Advances sys.receiver.session (sys.next job (.deliver bytes io)).receiver.session := by
  simp only [System.next, World.receive]
  split
  · simp only [Option.toList_none, List.append_nil]
    exact ⟨h, .of_eq rfl rfl id⟩
  · next packet hpacket =>
    obtain ⟨hid, hfrom⟩ := h.toReceiver bytes henabled packet hpacket
    obtain ⟨ps, hrecord, hcarries⟩ := h.record
    have hstep :=
      ReceiverSession.handlePacket_handles sys.receiver.session sys.receiver.fs packet io
    have hadvances := hstep.advances hrecord.window_inv
    refine ⟨⟨h.sender, h.verdict.handles hstep, ⟨_, hrecord.handles hstep, fun p hp => ?_⟩,
      own_handles h.own hid hfrom hstep, fun t ht => hadvances.stored t (h.retired t ht),
      fun hpast => hadvances.started (h.started hpast),
      fun hend => hadvances.published (h.done hend),
      fun bytes' hbytes' packet' hpacket' => ?_, fun bytes' hbytes' packet' hpacket' => ?_⟩,
      hadvances⟩
    · rcases List.mem_append.mp hp with hold | hnew
      · exact hcarries p hold
      · -- only a DATA packet is accepted, and this one is a chunk of the job
        simp only [World.accepts] at hnew
        split_ifs at hnew with hfits
        · obtain rfl := List.mem_singleton.mp hnew
          exact hfrom.of_data hfits.1.packetType
        · simp at hnew
    · obtain ⟨hid', hfrom'⟩ := h.toReceiver bytes' hbytes' packet' hpacket'
      exact ⟨hid', hfrom'.advance hadvances⟩
    · rcases List.mem_append.mp hbytes' with hold | hnew
      · exact (h.toSender bytes' hold packet' hpacket').advance hadvances
      · simp only [World.answer, Option.mem_toList] at hnew
        split_ifs at hnew with hsend
        obtain rfl := Option.some.inj hnew
        obtain ⟨htype, -, hnumber⟩ := Reply.decoded_wire hpacket'
        rw [htype, hnumber]
        exact hstep.truthful hrecord.window_inv h.verdict hsend

/-- **Closing the file keeps the joint invariant.** -/
lemma closeStep (h : Joint job sys) :
    Joint job (sys.next job .closeFile) ∧
      Advances sys.receiver.session (sys.next job .closeFile).receiver.session := by
  have hadvances : Advances sys.receiver.session sys.receiver.session.closeFile :=
    .of_eq rfl rfl id
  obtain ⟨ps, hrecord, hcarries⟩ := h.record
  refine ⟨⟨h.sender, h.verdict.closeFile,
    ⟨ps, hrecord.congr (Keeps.closeFile _) rfl fun he => ⟨he, rfl⟩, hcarries⟩,
    h.own, h.retired, h.started, h.done, fun bytes hbytes packet hpacket => ?_,
    fun bytes hbytes packet hpacket => ?_⟩, hadvances⟩
  · obtain ⟨hid, hfrom⟩ := h.toReceiver bytes hbytes packet hpacket
    exact ⟨hid, hfrom.advance hadvances⟩
  · exact (h.toSender bytes hbytes packet hpacket).advance hadvances

/-- **Every step keeps the joint invariant**, and takes nothing back at the receiver. -/
theorem next (hrange : job.InRange) (h : Joint job sys) {e : NetEvent} (henabled : sys.Enabled e) :
    Joint job (sys.next job e) ∧
      Advances sys.receiver.session (sys.next job e).receiver.session := by
  cases e with
  | sender env => exact ⟨h.senderStep hrange henabled, .of_eq rfl rfl id⟩
  | deliver bytes io => exact h.deliverStep henabled
  | closeFile => exact h.closeStep

end Joint

/-- **The joint invariant holds in every reachable state.** -/
theorem Reachable.joint {job : Job} {P : IoEnv → Prop} {windowCapacity : BitVec 32}
    {outputDirectory : Path} {fs : FileSystem} {sys : System Q}
    (h : Reachable job P (System.init Q job windowCapacity outputDirectory fs) sys)
    (hrange : job.InRange) : Joint job sys := by
  induction h with
  | start => exact Joint.init job windowCapacity outputDirectory fs
  | next hreach e henabled hcalls ih => exact (ih.next hrange henabled).1

end SwiftLink
