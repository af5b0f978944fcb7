import SwiftLink.System.Joint

/-!
# A transfer end to end

When no system call of the receiver fails, nothing the sender of a job can make it do ends in an
error: late and repeated packets are recognised, every chunk fits, and by the time a FIN arrives
every chunk is on disk, so its size and its digest check out.  `Sound` is what this adds to the
joint invariant.
-/

namespace SwiftLink

open ByteFile

variable {Q : TimerQueue}

/-- What the transfer needs of its job: a file that exists, chunks that fit in a datagram, and a
name the receiver will take. -/
structure Job.Transferable (job : Job) : Prop where
  size_le : job.fileSize ≤ kOffsetMax
  chunk_le : job.config.chunkSize ≤ kMaxPayloadSize
  name : (sanitizeFilename job.config.remoteName).1 = .none

namespace Job.Transferable

variable {job : Job}

lemma inRange (h : job.Transferable) : job.InRange := by
  have hsize := h.size_le
  have hchunk := h.chunk_le
  simp only [kOffsetMax, kMaxPayloadSize] at hsize hchunk
  exact ⟨by omega, by omega⟩

lemma no_wrap (h : job.Transferable) : job.fileSize + job.config.chunkSize ≤ 2 ^ 64 := by
  have hsize := h.size_le
  have hchunk := h.chunk_le
  simp only [kOffsetMax, kMaxPayloadSize] at hsize hchunk
  omega

end Job.Transferable

/-- The receiver's side of a transfer in which nothing has gone wrong. -/
structure Sound (job : Job) (w : World) : Prop where
  error : w.session.error = .none
  opened : w.session.started = true → w.session.finished = false → ∃ fd, w.session.file = some fd
  published : w.session.published = true → w.fs.view w.session.outputPath = some job.data

namespace Sound

variable {job : Job} {w : World} {ps : List Packet}

lemma init (job : Job) (windowCapacity : BitVec 32) (outputDirectory : Path) (fs : FileSystem) :
    Sound job (World.init windowCapacity outputDirectory fs) where
  error := rfl
  opened h := by simp [World.init, ReceiverSession.init] at h
  published h := by simp [World.init, ReceiverSession.init] at h

/-- A packet that moves nothing but counters. -/
lemma stats (h : Sound job w) (stats : TransferStats) :
    Sound job ⟨{ w.session with stats := stats }, w.fs⟩ :=
  ⟨h.error, h.opened, h.published⟩

/-- **Once every chunk is stored, the open file is the job's file**, and the byte count is its
size. -/
lemma content (hjob : job.Transferable) (h : Sound job w) (hrecord : Record w.session w.fs ps)
    (hcarries : ∀ p ∈ ps, job.Carries p) (hall : ∀ t < job.totalChunks, w.session.window.Stored t)
    {fd : ℕ} (hfile : w.session.file = some fd) :
    w.fs.data fd = job.data ∧ w.session.bytesWritten = job.fileSize := by
  obtain ⟨hdata, htotal⟩ := hjob.inRange.assembled_eq hjob.no_wrap hcarries hrecord.seqs_nodup
    fun t ht => (hrecord.stored_iff t).mp (hall t ht)
  exact ⟨(hrecord.content fd hfile h.error).trans hdata, hrecord.bytes_eq.trans htotal⟩

/-- **The FIN of a finished job passes every check.** -/
lemma finChecks (hjob : job.Transferable) (h : Sound job w) (hrecord : Record w.session w.fs ps)
    (hcarries : ∀ p ∈ ps, job.Carries p) (hall : ∀ t < job.totalChunks, w.session.window.Stored t)
    {fd : ℕ} (hfile : w.session.file = some fd) {packet : Packet}
    (hsize : packet.header.byteOffset.toNat = job.fileSize) (hdigest : packet.payload = job.digest)
    {io : IoEnv} (hio : io.Succeeds) : w.session.FinChecks w.fs packet io := by
  obtain ⟨hdata, hbytes⟩ := h.content hjob hrecord hcarries hall hfile
  refine ⟨hsize.trans hbytes.symm, ⟨by rw [hfile]; rfl, hio.syncOk⟩, ?_, ?_⟩
  · rw [hbytes, hdigest, job.digest_eq]
    refine hashFile_succeeds (fun k want off hle => ?_) le_rfl
    rw [hfile, FileSystem.readFile, hdata]
    exact readAt_succeeds (hio.reads k) (hle.trans hjob.size_le)
  · rw [hdigest, job.digest_eq, digestOf_length]

/-- **Storing a chunk of the job succeeds.** -/
lemma writes (hjob : job.Transferable) {fd : ℕ} (hfile : w.session.file = some fd) {packet : Packet}
    (hcarries : job.Carries packet) {io : IoEnv} (hio : io.Succeeds) :
    (w.fs.writeFile w.session.file io.write packet.payload packet.header.byteOffset.toNat).2
      = some packet.payload.length := by
  have hinside := (hjob.inRange.carried_le hcarries).trans hjob.size_le
  rw [hfile, FileSystem.writeFile]
  simp only
  rw [writeAt_succeeds hio.write hinside, Nat.zero_add]

/-- **A packet of the job never makes the session fail**, and if it makes it publish, it publishes
the job's file. -/
lemma handles (hjob : job.Transferable) (h : Sound job w) (hverdict : w.session.Verdict)
    (hrecord : Record w.session w.fs ps) (hcarries : ∀ p ∈ ps, job.Carries p)
    (hown : w.session.started = true →
      w.session.sessionId = job.config.sessionId ∧ w.session.declaredSize = job.fileSize)
    {packet : Packet} (hid : packet.header.sessionId = job.config.sessionId)
    (hfrom : FromSender job w.session packet) {io : IoEnv} (hio : io.Succeeds) {handled : Handled}
    (hstep : w.session.Handles w.fs packet io handled) :
    Sound job ⟨handled.session, handled.fs⟩ := by
  have hunpublished : w.session.finished = false → w.session.published = true → False := by
    intro hfinished hpublished
    simp [(hverdict.of_unfinished hfinished).2] at hpublished
  cases hstep with
  | replayed stats => exact h.stats stats
  | ignored stats => exact h.stats stats
  | restarted stats => exact h.stats stats
  | duplicate stats => exact h.stats stats
  | outside stats => exact h.stats stats
  | strayed stats hfinished hwhy =>
      have hsame (hstarted : w.session.started = true) :
          packet.header.sessionId = w.session.sessionId := hid.trans (hown hstarted).1.symm
      split_ifs at hwhy with htype
      · exact absurd (hsame hwhy.1) hwhy.2
      · exact absurd (hsame (hfrom.started htype)) (hwhy (hfrom.started htype))
  | misnamed stats hopen hbad =>
      exact absurd hjob.name ((hfrom.of_start hopen.packetType).1 ▸ hbad)
  | openFailed stats name hopen hname hfailed => simp [hio.openOk] at hfailed
  | opened stats name fs' fd hopen =>
      exact ⟨h.error, fun _ _ => ⟨fd, rfl⟩, fun hp => (hunpublished hopen.finished hp).elim⟩
  | oversized stats hlive htype hclass hsize =>
      rw [(hown hlive.started).2] at hsize
      have hinside := hjob.inRange.carried_le (hfrom.of_data htype)
      exact absurd ((Nat.mod_le _ _).trans hinside) (not_le.mpr hsize)
  | writeFailed stats fs' written hfits hwrite hshort =>
      obtain ⟨fd, hfile⟩ := h.opened hfits.started hfits.finished
      have hok := writes hjob hfile (hfrom.of_data hfits.packetType) hio
      rw [hwrite] at hok
      exact absurd hok hshort
  | stored stats fs' hfits =>
      exact ⟨h.error, h.opened, fun hp => (hunpublished hfits.finished hp).elim⟩
  | finFailed stats code error hlive htype herror hchecks =>
      obtain ⟨fd, hfile⟩ := h.opened hlive.started hlive.finished
      obtain ⟨hall, hsize, hdigest⟩ := hfrom.of_fin htype
      have hfailed := hchecks (h.finChecks hjob hrecord hcarries hall hfile hsize hdigest hio)
      have htemp := hrecord.named (hverdict.of_unfinished hlive.finished).2 fd hfile
      obtain ⟨-, hcause⟩ := FileSystem.rename_false (Prod.ext rfl hfailed)
      rcases hcause with hcause | hcause
      · simp [hio.renameOk] at hcause
      · simp [htemp] at hcause
  | published stats fs' hlive htype hchecks hrename =>
      obtain ⟨fd, hfile⟩ := h.opened hlive.started hlive.finished
      refine ⟨h.error, fun _ hfinished => by simp at hfinished, fun _ => ?_⟩
      obtain ⟨hdata, -⟩ := h.content hjob hrecord hcarries (hfrom.of_fin htype).1 hfile
      have htemp := hrecord.named (hverdict.of_unfinished hlive.finished).2 fd hfile
      obtain ⟨i, hsrc, hdst, -, -, hsame, -⟩ := FileSystem.rename_true hrename
      obtain rfl : i = fd := Option.some.inj (hsrc.symm.trans htemp)
      rw [FileSystem.view, hdst, Option.map_some, hsame, hdata]

end Sound

/-- **Nothing goes wrong at the receiver in any reachable state.** -/
lemma Reachable.sound {job : Job} {windowCapacity : BitVec 32} {outputDirectory : Path}
    {fs : FileSystem} {sys : System Q} (hjob : job.Transferable)
    (h : Reachable job IoEnv.Succeeds (System.init Q job windowCapacity outputDirectory fs) sys) :
    Sound job sys.receiver := by
  induction h with
  | start => exact Sound.init job windowCapacity outputDirectory fs
  | @next sys hreach e henabled hcalls ih =>
      have hjoint := hreach.joint hjob.inRange
      obtain ⟨ps, hrecord, hcarries⟩ := hjoint.record
      cases e with
      | sender env => exact ih
      | closeFile =>
          refine ⟨ih.error, fun _ hfinished => ?_, ih.published⟩
          exact absurd (hfinished.symm.trans henabled) (by decide)
      | deliver bytes io =>
          simp only [System.next, World.receive]
          split
          · exact ih
          · next packet hpacket =>
            obtain ⟨hid, hfrom⟩ := hjoint.toReceiver bytes henabled packet hpacket
            exact ih.handles hjob hjoint.verdict hrecord hcarries hjoint.own hid hfrom hcalls
              (ReceiverSession.handlePacket_handles _ _ _ _)

/-- The file the receiver is working on: the temporary one until publication, then the published
one. -/
def World.file (w : World) : Option Bytes :=
  w.fs.view (if w.session.published then w.session.outputPath else w.session.tempPath)

/-- **A stored chunk is in the file**, at its offset. -/
lemma Sound.stored_chunk {job : Job} {w : World} {ps : List Packet} (hjob : job.Transferable)
    (h : Sound job w) (hverdict : w.session.Verdict) (hrecord : Record w.session w.fs ps)
    (hcarries : ∀ p ∈ ps, job.Carries p) {t : ℕ} (ht : w.session.window.Stored t) :
    ∃ content, w.file = some content ∧
      (content.drop (job.chunkOffset t)).take (job.chunk t).length = job.chunk t := by
  cases hp : w.session.published with
  | true =>
      refine ⟨job.data, ?_, ?_⟩
      · rw [World.file, hp, if_pos rfl]
        exact h.published hp
      · rw [Job.chunk, List.length_take, List.take_eq_take_iff]
        omega
  | false =>
      have hmem := (hrecord.stored_iff t).mp ht
      have hstarted : w.session.started = true := by
        by_contra hnot
        obtain ⟨-, rfl⟩ := hrecord.closed (by simpa using hnot)
        simp at hmem
      have hfinished : w.session.finished = false := by
        cases hverdict with
        | pending hf => exact hf
        | failed _ _ he => exact absurd h.error he
        | published _ hp' => simp [hp] at hp'
      obtain ⟨fd, hfile⟩ := h.opened hstarted hfinished
      refine ⟨_, ?_, hjob.inRange.assembled_chunk hcarries hmem⟩
      rw [World.file, hp, if_neg (by simp), FileSystem.view, hrecord.named hp fd hfile,
        Option.map_some, hrecord.content fd hfile h.error]

/-- **End-to-end safety of one transfer.**  Whatever the network does, the receiver does not settle
on an error, every chunk the sender has retired is in the receiver's file at its offset, and what
the receiver publishes is the sender's file; so a sender that returns without error has delivered
it. -/
theorem end_to_end_safety (Q : TimerQueue) (job : Job) (windowCapacity : BitVec 32)
    (outputDirectory : Path) (fs : FileSystem) (hsize : job.data.length ≤ 2 ^ 63 - 1)
    (hchunk : job.config.chunkSize ≤ 65535)
    (hname : (sanitizeFilename job.config.remoteName).1 = .none) (sys : System Q)
    (hreach : Reachable job IoEnv.Succeeds
      (System.init Q job windowCapacity outputDirectory fs) sys) :
    sys.receiver.session.error = .none ∧
      (∀ t, sys.sender.Retired t → ∃ content, sys.receiver.file = some content ∧
        (content.drop (t * job.config.chunkSize)).take (job.chunk t).length = job.chunk t) ∧
      (sys.receiver.session.published = true →
        sys.receiver.fs.view sys.receiver.session.outputPath = some job.data) ∧
      (sys.sender.phase = .done .none → sys.receiver.session.published = true ∧
        sys.receiver.fs.view sys.receiver.session.outputPath = some job.data) := by
  have hjob : job.Transferable := ⟨hsize, hchunk, hname⟩
  have hjoint := hreach.joint hjob.inRange
  have hsound := hreach.sound hjob
  obtain ⟨ps, hrecord, hcarries⟩ := hjoint.record
  refine ⟨hsound.error, fun t ht => ?_, hsound.published, fun hdone => ?_⟩
  · have hlt : t < job.totalChunks := lt_of_lt_of_le ht.1 hjoint.sender.next_le
    obtain ⟨content, hfile, hstored⟩ :=
      hsound.stored_chunk hjob hjoint.verdict hrecord hcarries (hjoint.retired t ht)
    rw [hjob.inRange.chunkOffset_eq hlt] at hstored
    exact ⟨content, hfile, hstored⟩
  · exact ⟨hjoint.done hdone, hsound.published (hjoint.done hdone)⟩

/-- The rest of the sample transfer: the second chunk and the FIN are answered, and late copies of
the START and of the first chunk arrive in between and afterwards. -/
def sampleCompletion : List NetEvent :=
  [.deliver (sampleTwo.dataWire 1) {}, .deliver (sampleTwo.controlWire .start) {}, .sender {},
    .sender { recv := .datagram (sampleAnswer .ack 1) }, .sender {}, .sender {}, .sender {},
    .deliver (sampleTwo.dataWire 0) {}, .deliver (sampleTwo.controlWire .fin) {}, .closeFile,
    .deliver (sampleTwo.controlWire .start) {},
    .sender { recv := .datagram (sampleAnswer .finAck 2) }]

/-- The sample transfer ends without error and delivers the file. -/
theorem end_to_end_safety_two_chunks :
    let sys := (sampleSystem 4).run sampleTwo (sampleDelivery ++ sampleCompletion)
    sys.sender.phase = .done .none ∧
      sys.receiver.fs.view sys.receiver.session.outputPath = some (asciiBytes "xy") := by
  intro sys
  have hdone : sys.sender.phase = .done .none := by decide +kernel
  refine ⟨hdone, ?_⟩
  have hio : IoEnv.Succeeds {} := ⟨rfl, by simp, rfl, by simp, rfl⟩
  have hcalls : ∀ e ∈ sampleDelivery ++ sampleCompletion, e.Calls IoEnv.Succeeds := by
    simp [sampleDelivery, sampleCompletion, NetEvent.Calls, hio]
  exact ((end_to_end_safety sortedTimers sampleTwo 4 [] .empty (by decide) (by decide) (by decide)
    sys (System.reachable_run .start (by decide +kernel) hcalls)).2.2.2 hdone).2

end SwiftLink
