import SwiftLink.Server.Directory
import SwiftLink.System.Joint
import SwiftLink.Transfer.FirstWins
import SwiftLink.Transfer.Sendings

/-!
# A session that is sent one job

Between two parties that started together, a FIN arrives only after every chunk
(`FromSender.of_fin`).  A session of the server cannot count on it: it may have been thrown out and
put back by a late START, so that what it is sent is any selection of the datagrams of the job, in
any order, the FIN first.  It need not count on it either.  The chunks do not overlap and none is
empty, so only all of them add up to the size the FIN names.

* `Fed` — what such a session keeps true, whatever its system calls do.
* `publishes_only_the_job` — if it publishes, it publishes the file of the job.
-/

namespace SwiftLink

open ByteFile

/-- The packet is one of the job's, as it arrives. -/
def Job.Sends (job : Job) (packet : Packet) : Prop :=
  ∃ p, deserialize (job.wireOf p) = .ok packet ∧ ∀ t, p = .data t → t < job.totalChunks

namespace Job.Sends

variable {job : Job} {packet : Packet}

/-- What it is, type by type. -/
lemma cases (h : job.Sends packet) (hrange : job.InRange) :
    packet.header.sessionId = job.config.sessionId ∧
      (packet.header.packetType = .start ∧ packet.payload = job.config.remoteName ∨
        packet.header.packetType = .data ∧ job.Carries packet ∨
        packet.header.packetType = .fin ∧ packet.header.byteOffset.toNat = job.fileSize) := by
  obtain ⟨p, hpacket, hlt⟩ := h
  cases p with
  | control which =>
      cases which with
      | start =>
          obtain ⟨htype, hid, hname, -⟩ := decoded_start hrange hpacket
          exact ⟨hid, Or.inl ⟨htype, hname⟩⟩
      | fin =>
          obtain ⟨htype, hid, -, hsize⟩ := decoded_fin hrange hpacket
          exact ⟨hid, Or.inr (Or.inr ⟨htype, hsize⟩)⟩
  | data t =>
      obtain ⟨htype, hid, -, hcarries⟩ := decoded_dataWire (hlt t rfl) hpacket
      exact ⟨hid, Or.inr (Or.inl ⟨htype, hcarries⟩)⟩

lemma sessionId (h : job.Sends packet) (hrange : job.InRange) :
    packet.header.sessionId = job.config.sessionId :=
  (h.cases hrange).1

lemma of_start (h : job.Sends packet) (hrange : job.InRange)
    (htype : packet.header.packetType = .start) : packet.payload = job.config.remoteName := by
  simpa [htype] using (h.cases hrange).2

lemma of_data (h : job.Sends packet) (hrange : job.InRange)
    (htype : packet.header.packetType = .data) : job.Carries packet := by
  simpa [htype] using (h.cases hrange).2

lemma of_fin (h : job.Sends packet) (hrange : job.InRange)
    (htype : packet.header.packetType = .fin) :
    packet.header.byteOffset.toNat = job.fileSize := by
  simpa [htype] using (h.cases hrange).2

end Job.Sends

/-! ## Chunks that add up to the file -/

/-- **Only all the chunks add up to the size of the file.** -/
lemma Job.InRange.seqs_of_total {job : Job} (h : job.InRange) {ps : List Packet}
    (hps : ∀ p ∈ ps, job.Carries p) (hnodup : (ps.map Packet.seq).Nodup)
    (htotal : total (ps.map Packet.toWrite) = job.fileSize) :
    ∀ t < job.totalChunks, t ∈ ps.map Packet.seq := by
  intro t ht
  have hsubset : covered (ps.map Packet.toWrite) ⊆ Finset.range job.fileSize := by
    intro i hi
    obtain ⟨w, hw, hrange⟩ := mem_covered.mp hi
    obtain ⟨p, hp, rfl⟩ := List.mem_map.mp hw
    exact Finset.mem_range.mpr ((Finset.mem_Ico.mp hrange).2.trans_le (h.carried_le (hps p hp)))
  have hcovered : covered (ps.map Packet.toWrite) = Finset.range job.fileSize := by
    refine Finset.eq_of_subset_of_card_le hsubset ?_
    rw [Finset.card_range, (card_covered_eq_iff _).mpr (h.assembled_pairwise hps hnodup), htotal]
  -- the first byte of the chunk was written by some packet, and that packet carries the chunk
  obtain ⟨-, hpos, hinside⟩ := h.chunk_length ht
  have hfirst : job.chunkOffset t ∈ (job.chunkWrite t).range :=
    Finset.mem_Ico.mpr ⟨le_rfl, Nat.lt_add_of_pos_right hpos⟩
  have hbyte : job.chunkOffset t ∈ covered (ps.map Packet.toWrite) := by
    rw [hcovered, Finset.mem_range]
    omega
  obtain ⟨w, hw, hrange⟩ := mem_covered.mp hbyte
  obtain ⟨p, hp, rfl⟩ := List.mem_map.mp hw
  have hcarries := hps p hp
  rw [hcarries.write_eq] at hrange
  by_contra hnot
  have hne : t ≠ p.seq := fun heq => hnot (heq ▸ List.mem_map_of_mem hp)
  exact Finset.disjoint_left.mp (h.chunk_disjoint ht hcarries.seq_lt hne) hfirst hrange

/-- Chunks that add up to the size of the file make up the file. -/
lemma Job.InRange.assembled_of_total {job : Job} (h : job.InRange) {ps : List Packet}
    (hps : ∀ p ∈ ps, job.Carries p) (hnodup : (ps.map Packet.seq).Nodup)
    (htotal : total (ps.map Packet.toWrite) = job.fileSize) :
    writeAll 0 (ps.map Packet.toWrite) = job.data := by
  by_cases hwrap : job.fileSize + job.config.chunkSize ≤ 2 ^ 64
  · exact (h.assembled_eq hwrap hps hnodup (h.seqs_of_total hps hnodup htotal)).1
  · -- the count of chunks has wrapped to zero, so the file would have to be empty
    have hcount : chunkCount job.fileSize job.config.chunkSize = some job.totalChunks := job.count
    rw [chunkCount_of_wrap h.size_lt h.chunk_lt (not_le.mp hwrap)] at hcount
    have hnone : ps = [] := by
      refine List.eq_nil_iff_forall_not_mem.mpr fun p hp => ?_
      have hlt := (hps p hp).seq_lt
      rw [← Option.some.inj hcount] at hlt
      exact Nat.not_lt_zero _ hlt
    have hzero : job.fileSize = 0 := by
      rw [← htotal, hnone]
      rfl
    have hchunk := h.chunk_lt
    omega

/-! ## The invariant -/

/-- Where a session of the job keeps its files, once it has been told. -/
structure Job.Places (job : Job) (directory tempPath outputPath : Path) : Prop where
  temp_eq : tempPath = joinPath directory (tempName job.config.sessionId)
  output_eq : ∃ name, sanitizeFilename job.config.remoteName = (.none, name) ∧
    outputPath = joinPath directory name

/-- **What a session keeps true that is sent packets of one job only.** -/
structure Fed (job : Job) (directory : Path) (w : World) : Prop where
  verdict : w.session.Verdict
  record : ∃ ps, Record w.session w.fs ps ∧ ∀ p ∈ ps, job.Carries p
  directory_eq : w.session.outputDirectory = directory
  paths : w.session.tempPath = [] ∧ w.session.outputPath = [] ∨
    job.Places directory w.session.tempPath w.session.outputPath
  named : w.session.started = true → w.session.tempPath ≠ []

namespace Fed

variable {job : Job} {directory : Path} {w : World} {packet : Packet} {io : IoEnv}

lemma init (job : Job) (windowCapacity : BitVec 32) (directory : Path) (fs : FileSystem) :
    Fed job directory (World.init windowCapacity directory fs) where
  verdict := ReceiverSession.init_verdict windowCapacity directory
  record := ⟨[], Record.init windowCapacity directory fs, by simp⟩
  directory_eq := rfl
  paths := Or.inl ⟨rfl, rfl⟩
  named h := by simp [World.init, ReceiverSession.init] at h

lemma closeFile (h : Fed job directory w) : Fed job directory (w.next .closeFile) := by
  obtain ⟨ps, hrecord, hcarries⟩ := h.record
  refine ⟨h.verdict.closeFile, ⟨ps, ?_, hcarries⟩, h.directory_eq, h.paths, h.named⟩
  exact hrecord.congr (Keeps.closeFile _) rfl fun he => ⟨he, rfl⟩

/-- A session that has started has been told where. -/
lemma places (h : Fed job directory w) (hstarted : w.session.started = true) :
    job.Places directory w.session.tempPath w.session.outputPath := by
  rcases h.paths with ⟨hnone, -⟩ | hplaces
  · exact absurd hnone (h.named hstarted)
  · exact hplaces

/-- **A packet of the job keeps it so.** -/
lemma next (h : Fed job directory w) (hrange : job.InRange) (hsends : job.Sends packet)
    (io : IoEnv) : Fed job directory (w.next (.packet packet io)) := by
  have hstep := ReceiverSession.handlePacket_handles w.session w.fs packet io
  obtain ⟨ps, hrecord, hcarries⟩ := h.record
  refine ⟨h.verdict.handles hstep, ⟨_, hrecord.handles hstep, fun p hp => ?_⟩,
    hstep.onDisk.directory_eq.trans h.directory_eq, ?_, fun hstarted => ?_⟩
  · rcases List.mem_append.mp hp with hold | hnew
    · exact hcarries p hold
    · simp only [World.accepts] at hnew
      split_ifs at hnew with hfits
      · obtain rfl := List.mem_singleton.mp hnew
        exact hsends.of_data hrange hfits.1.packetType
      · simp at hnew
  · rcases hstep.onDisk.files with hsame | ⟨name, hopen, hname, -, htemp, houtput⟩
    · rw [World.next, hsame.temp, hsame.output]
      exact h.paths
    · rw [hsends.of_start hrange hopen.packetType] at hname
      refine Or.inr ⟨htemp.trans ?_, name, hname, houtput.trans ?_⟩
      · rw [ReceiverSession.named, h.directory_eq, hsends.sessionId hrange]
      · rw [ReceiverSession.named, h.directory_eq]
  · rcases hstep.onDisk.files with hsame | ⟨name, -, -, -, htemp, -⟩
    · rw [World.next, hsame.temp]
      exact h.named (hsame.started ▸ hstarted)
    · rw [World.next, htemp]
      exact joinPath_tempName_ne_nil _ _

/-- **What it publishes is the job's file**, under the name the job asks for. -/
lemma publishes (h : Fed job directory w) (hrange : job.InRange) (hsends : job.Sends packet)
    (hpub : w.Publishes packet io) :
    w.publishedFile packet io = some job.data ∧
      job.Places directory w.session.tempPath w.session.outputPath ∧
      (w.next (.packet packet io)).session.outputPath = w.session.outputPath := by
  have hstep := ReceiverSession.handlePacket_handles w.session w.fs packet io
  obtain ⟨hlive, htype, hchecks, hrename, hpath, -⟩ := hstep.of_published hpub.1 hpub.2
  obtain ⟨ps, hrecord, hcarries⟩ := h.record
  obtain ⟨fd, hfile⟩ := Option.isSome_iff_exists.mp hchecks.synced.1
  have htotal : total (ps.map Packet.toWrite) = job.fileSize := by
    rw [← hrecord.bytes_eq, ← hchecks.size]
    exact hsends.of_fin hrange htype
  have hcontent : w.fs.data fd = job.data :=
    (hrecord.content fd hfile (h.verdict.of_unfinished hlive.finished).1).trans
      (hrange.assembled_of_total hcarries hrecord.seqs_nodup htotal)
  obtain ⟨i, hsrc, hdst, -, -, hdata, -⟩ := FileSystem.rename_true hrename
  obtain rfl : i = fd := Option.some.inj (hsrc.symm.trans (hrecord.named hpub.1 fd hfile))
  refine ⟨?_, h.places hlive.started, hpath⟩
  rw [World.publishedFile, FileSystem.view, World.next, hpath, hdst, Option.map_some, hdata,
    hcontent]

end Fed

/-- What has been published is the job's file, under the name the job asks for. -/
def Job.Placed (job : Job) (directory : Path) (w : World) : Prop :=
  w.session.published = true → ∃ name, sanitizeFilename job.config.remoteName = (.none, name) ∧
    w.session.outputPath = joinPath directory name ∧
    w.fs.view (joinPath directory name) = some job.data

namespace Fed

variable {job : Job} {directory : Path} {w : World} {packet : Packet}

/-- **A packet of the job leaves the published file alone**, or publishes it. -/
lemma placed_next (h : Fed job directory w) (hrange : job.InRange) (hsends : job.Sends packet)
    (hplaced : job.Placed directory w) (io : IoEnv) :
    job.Placed directory (w.next (.packet packet io)) := by
  intro hpublished
  cases hbefore : w.session.published with
  | true =>
      obtain ⟨stats, hsame⟩ := World.next_of_finished (h.verdict.finished_of_published hbefore)
        packet io
      rw [hsame]
      exact hplaced hbefore
  | false =>
      obtain ⟨hfile, hplaces, houtput⟩ := h.publishes hrange hsends ⟨hbefore, hpublished⟩
      obtain ⟨name, hname, hpath⟩ := hplaces.output_eq
      refine ⟨name, hname, houtput.trans hpath, ?_⟩
      rw [← hpath, ← houtput]
      exact hfile

end Fed

/-! ## Whole runs -/

namespace World

/-- **Every run on a selection of the job's packets is fed.** -/
lemma deliver_fed {job : Job} (hrange : job.InRange) (windowCapacity : BitVec 32)
    (directory : Path) (fs : FileSystem) {arrivals : List Arrival}
    (h : ∀ a ∈ arrivals, job.Sends a.packet) :
    Fed job directory ((World.init windowCapacity directory fs).deliver arrivals) := by
  induction arrivals using List.reverseRecOn with
  | nil => exact Fed.init job windowCapacity directory fs
  | append_singleton arrivals a ih =>
      rw [deliver_concat]
      exact (ih fun b hb => h b (List.mem_append_left _ hb)).next hrange (h a (by simp)) a.io

end World

/-- What a sender puts on the wire is a packet of its job. -/
lemma Sender.Emits.wireOf {Q : TimerQueue} {job : Job} {s : Sender Q} {bytes : Bytes}
    (h : s.Emits job bytes) (hinv : s.Inv job) :
    ∃ p, bytes = job.wireOf p ∧ ∀ t, p = .data t → t < job.totalChunks := by
  cases h with
  | start => exact ⟨.control .start, rfl, by simp⟩
  | data t ht =>
      refine ⟨.data t, rfl, fun u hu => ?_⟩
      obtain rfl := OwnPacket.data.inj hu
      exact ht.2.1.trans_le hinv.next_le
  | fin => exact ⟨.control .fin, rfl, by simp⟩

/-- **Between two parties**, whatever the system calls of the receiver do. -/
lemma Reachable.fed {Q : TimerQueue} {job : Job} {C : IoEnv → Prop} {windowCapacity : BitVec 32}
    {directory : Path} {fs : FileSystem} {sys : System Q}
    (h : Reachable job C (System.init Q job windowCapacity directory fs) sys)
    (hrange : job.InRange) :
    Fed job directory sys.receiver ∧ job.Placed directory sys.receiver ∧
      ∀ bytes ∈ sys.toReceiver,
        ∃ p, bytes = job.wireOf p ∧ ∀ t, p = .data t → t < job.totalChunks := by
  induction h with
  | start =>
      refine ⟨Fed.init job windowCapacity directory fs, fun hpublished => ?_, by simp [System.init]⟩
      simp [System.init, World.init, ReceiverSession.init] at hpublished
  | @next sys hreach e henabled hcalls ih =>
      obtain ⟨hfed, hplaced, hsent⟩ := ih
      cases e with
      | sender env =>
          refine ⟨hfed, hplaced, fun bytes hbytes => ?_⟩
          have hsteps : Sender.Steps job sys.sender env (sys.sender.step job env).1
              (sys.sender.step job env).2 := Sender.step_steps (hreach.joint hrange).sender
          rcases List.mem_append.mp hbytes with hold | hnew
          · exact hsent bytes hold
          · exact (hsteps.emits bytes (Option.mem_toList.mp hnew)).wireOf hsteps.inv
      | deliver bytes io =>
          obtain ⟨own, hown, hlt⟩ := hsent bytes henabled
          simp only [System.next, World.receive]
          cases hpacket : deserialize bytes with
          | error error => exact ⟨hfed, hplaced, hsent⟩
          | ok packet =>
              have hsends : job.Sends packet := ⟨own, hown ▸ hpacket, hlt⟩
              exact ⟨hfed.next hrange hsends io, hfed.placed_next hrange hsends hplaced io, hsent⟩
      | closeFile => exact ⟨hfed.closeFile, hplaced, hsent⟩

/-- **A session publishes the job's file or nothing.**  Hand it any packets of one job, each any
number of times or never, in any order, and let its system calls turn out as they like: if it has
published, the name the job asks for holds the job's file. -/
theorem publishes_only_the_job (job : Job) (hrange : job.InRange) (windowCapacity : BitVec 32)
    (directory : Path) (fs : FileSystem) (arrivals : List Arrival)
    (h : ∀ a ∈ arrivals, job.Sends a.packet) :
    let w := (World.init windowCapacity directory fs).deliver arrivals
    w.session.published = true → ∃ name, sanitizeFilename job.config.remoteName = (.none, name) ∧
      w.session.outputPath = joinPath directory name ∧
      w.fs.view (joinPath directory name) = some job.data := by
  intro w
  show job.Placed directory w
  induction arrivals using List.reverseRecOn with
  | nil => simp [w, World.deliver, World.init, ReceiverSession.init, Job.Placed]
  | append_singleton arrivals a ih =>
      have hold : ∀ b ∈ arrivals, job.Sends b.packet := fun b hb => h b (List.mem_append_left _ hb)
      have hw : w = ((World.init windowCapacity directory fs).deliver arrivals).next
          (.packet a.packet a.io) := World.deliver_concat _ _ _
      rw [hw]
      exact (World.deliver_fed hrange windowCapacity directory fs hold).placed_next hrange
        (h a (by simp)) (ih hold) a.io

/-- Packets of the two-byte transfer, as they arrive. -/
def sampleParcels (ps : List OwnPacket) : List Arrival :=
  ps.filterMap fun p => (deserialize (sampleTwo.wireOf p)).toOption.map fun packet => ⟨packet, {}⟩

lemma sampleParcels_sends {ps : List OwnPacket} (h : ∀ p ∈ ps, ∀ t, p = .data t → t < 2) :
    ∀ a ∈ sampleParcels ps, sampleTwo.Sends a.packet := by
  intro a ha
  obtain ⟨p, hp, harrives⟩ := List.mem_filterMap.mp ha
  obtain ⟨packet, hpacket, rfl⟩ := Option.map_eq_some_iff.mp harrives
  refine ⟨p, ?_, h p hp⟩
  cases hdecoded : deserialize (sampleTwo.wireOf p) with
  | error reason => simp [hdecoded, Except.toOption] at hpacket
  | ok packet' =>
      rw [hdecoded] at hpacket
      exact congrArg Except.ok (Option.some.inj hpacket)

/-- The chunks out of order and one of them twice, and two FINs. -/
theorem publishes_only_the_job_shuffled :
    ∃ name, ((World.init 4 [] .empty).deliver (sampleParcels [.control .start, .data 1,
      .control .start, .data 0, .data 1, .control .fin, .control .fin])).fs.view
        (joinPath [] name) = some (asciiBytes "xy") := by
  obtain ⟨name, -, -, hfile⟩ := publishes_only_the_job sampleTwo sampleTwo_inRange 4 [] .empty
    (sampleParcels [.control .start, .data 1, .control .start, .data 0, .data 1, .control .fin,
      .control .fin]) (sampleParcels_sends (by simp)) (by decide +kernel)
  exact ⟨name, hfile⟩

end SwiftLink
