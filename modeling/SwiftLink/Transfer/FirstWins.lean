import SwiftLink.Transfer.Completeness

/-!
# The first accepted chunk wins

The receive path as one fold: of everything that arrives, a session stores the DATA packets of its
own that come while it is under way, pass the size check and are new to the window, each in the
place it asks for and in the order of arrival.  `takenFrom` is that list, said without a file and
without a ring; as long as the writes succeed, the file, the running sum and the chunk counter are
functions of it, and an ACK is a statement about it.
-/

namespace SwiftLink

open ByteFile

/-- A packet, and how the system calls made while it is handled turn out. -/
structure Arrival where
  packet : Packet
  io : IoEnv

namespace World

def arrive (w : World) (a : Arrival) : World := w.next (.packet a.packet a.io)

/-- The reply to a packet. -/
def replyTo (w : World) (a : Arrival) : Reply := w.reply (.packet a.packet a.io)

/-- Hand a session packet after packet. -/
def deliver (w : World) (arrivals : List Arrival) : World := arrivals.foldl arrive w

@[simp] lemma deliver_concat (w : World) (arrivals : List Arrival) (a : Arrival) :
    w.deliver (arrivals ++ [a]) = (w.deliver arrivals).arrive a := by
  simp [deliver]

/-- The `write_at` made for a packet that fits transfers the whole payload. -/
def WriteSucceeds (w : World) (a : Arrival) : Prop :=
  w.session.Fits a.packet → (w.fs.writeFile w.session.file a.io.write a.packet.payload
    a.packet.header.byteOffset.toNat).2 = some a.packet.payload.length

/-- Every `write_at` of the run does. -/
def WritesSucceed (w : World) (arrivals : List Arrival) : Prop :=
  ∀ before a after, arrivals = before ++ a :: after → (w.deliver before).WriteSucceeds a

lemma WritesSucceed.concat {w : World} {arrivals : List Arrival} {a : Arrival}
    (h : w.WritesSucceed (arrivals ++ [a])) :
    w.WritesSucceed arrivals ∧ (w.deliver arrivals).WriteSucceeds a := by
  refine ⟨fun before b after heq => ?_, h arrivals a [] rfl⟩
  exact h before b (after ++ [a]) (by simp [heq])

lemma writesSucceed_nil (w : World) : w.WritesSucceed [] := by
  intro before a after heq
  simp at heq

/-- The writes of a run, packet by packet. -/
lemma writesSucceed_cons {w : World} {a : Arrival} {arrivals : List Arrival}
    (hfirst : w.WriteSucceeds a) (hrest : (w.arrive a).WritesSucceed arrivals) :
    w.WritesSucceed (a :: arrivals) := by
  intro before b after heq
  cases before with
  | nil =>
      obtain ⟨rfl, rfl⟩ := List.cons.inj heq
      exact hfirst
  | cons c before =>
      obtain ⟨rfl, rfl⟩ := List.cons.inj heq
      exact hrest before b after rfl

instance (w : World) (a : Arrival) : Decidable (w.WriteSucceeds a) :=
  inferInstanceAs (Decidable (_ → _))

/-- `ps` and the arriving packet, if it is one to store: it fits, and none of `ps` has its sequence
number. -/
def taking (w : World) (ps : List Packet) (a : Arrival) : List Packet :=
  if w.session.Fits a.packet ∧ a.packet.seq ∉ ps.map Packet.seq then ps ++ [a.packet] else ps

/-- The packets of a run to store, in order of arrival, after the ones of `ps`. -/
def takenFrom (w : World) (ps : List Packet) : List Arrival → List Packet
  | [] => ps
  | a :: arrivals => (w.arrive a).takenFrom (w.taking ps a) arrivals

lemma takenFrom_concat (w : World) (ps : List Packet) (arrivals : List Arrival) (a : Arrival) :
    w.takenFrom ps (arrivals ++ [a]) = (w.deliver arrivals).taking (w.takenFrom ps arrivals) a := by
  induction arrivals generalizing w ps with
  | nil => rfl
  | cons b arrivals ih =>
      rw [List.cons_append, takenFrom, ih]
      rfl

end World

/-! ## The chunk counter -/

namespace ReceiverSession

variable {s : ReceiverSession} {fs : FileSystem} {packet : Packet} {io : IoEnv}

lemma onStart_chunks (s : ReceiverSession) (fs : FileSystem) (packet : Packet) (io : IoEnv) :
    (s.onStart fs packet io).session.stats.chunks = s.stats.chunks := by
  simp only [onStart]
  split_ifs
  · rfl
  · rfl
  · split
    · split <;> rfl
    · rfl

/-- `on_fin` neither reads nor changes the window and the counters. -/
lemma onFin_aside (s : ReceiverSession) (window : ReceiverWindow) (stats : TransferStats)
    (fs : FileSystem) (packet : Packet) (io : IoEnv) :
    { s with window := window, stats := stats }.onFin fs packet io =
      { s.onFin fs packet io with
        session := { (s.onFin fs packet io).session with window := window, stats := stats } } := by
  simp only [onFin]
  split
  · rfl
  split
  · rfl
  split
  · rfl
  split
  · rfl
  split
  · rfl
  split <;> rfl

lemma onFin_chunks (s : ReceiverSession) (fs : FileSystem) (packet : Packet) (io : IoEnv) :
    (s.onFin fs packet io).session.stats.chunks = s.stats.chunks :=
  congrArg (·.session.stats.chunks) (onFin_aside s s.window s.stats fs packet io)

/-- A packet that does not fit is not counted. -/
lemma onData_chunks_of_not_fits (hlive : s.Live packet) (htype : packet.header.packetType = .data)
    (hnot : ¬ s.Fits packet) (stats : TransferStats) :
    ({ s with stats := stats }.onData fs packet io).session.stats.chunks = stats.chunks := by
  simp only [onData]
  split
  · rfl
  · rfl
  · next hclass =>
    rw [if_pos]
    · rfl
    · by_contra hsize
      exact hnot ⟨hlive, htype, hclass, not_lt.mp hsize⟩

/-- One that fits and is written in full is. -/
lemma onData_chunks_of_fits (hfits : s.Fits packet)
    (hwrite : (fs.writeFile s.file io.write packet.payload packet.header.byteOffset.toNat).2 =
      some packet.payload.length) (stats : TransferStats) :
    ({ s with stats := stats }.onData fs packet io).session.stats.chunks = stats.chunks + 1 := by
  simp only [onData, hfits.accepted]
  rw [if_neg (not_lt.mpr hfits.size_le)]
  split_ifs with hbase hshort hshort
  · exact absurd hwrite hshort
  · rfl
  · exact absurd hwrite hshort
  · rfl

/-- **The chunk counter** counts the packets that fit, as long as the writes succeed. -/
lemma handlePacket_chunks (s : ReceiverSession) (fs : FileSystem) (packet : Packet) (io : IoEnv)
    (hwrite : s.Fits packet → (fs.writeFile s.file io.write packet.payload
      packet.header.byteOffset.toNat).2 = some packet.payload.length) :
    (s.handlePacket fs packet io).session.stats.chunks =
      s.stats.chunks + if s.Fits packet then 1 else 0 := by
  by_cases hfits : s.Fits packet
  · rw [if_pos hfits, handlePacket]
    simp only
    rw [if_neg (by simp [replays, hfits.finished]), if_neg (by simp [hfits.finished]),
      if_neg (by simp [hfits.packetType]), if_neg (by simp [hfits.started]),
      if_neg (by simp [hfits.sessionId])]
    simp only [hfits.packetType]
    exact onData_chunks_of_fits hfits (hwrite hfits) _
  · rw [if_neg hfits, handlePacket]
    simp only
    split_ifs with hreplay hfinished htype hstarted hid
    · rfl
    · rfl
    · exact onStart_chunks _ _ _ _
    · rfl
    · rfl
    · split
      · next hdata =>
        have hlive : s.Live packet :=
          ⟨by simpa using hfinished, by simpa using hstarted, not_not.mp hid⟩
        exact onData_chunks_of_not_fits hlive hdata hfits _
      · exact onFin_chunks _ _ _ _
      · rfl

/-! ## What a packet does to the file -/

/-- The name the session's bytes are under. -/
def place (s : ReceiverSession) : Path := if s.published then s.outputPath else s.tempPath

/-- `t` is as far as `s` was, with the same file under the same names. -/
structure SameFile (s t : ReceiverSession) : Prop where
  started : t.started = s.started
  file : t.file = s.file
  published : t.published = s.published
  tempPath : t.tempPath = s.tempPath
  outputPath : t.outputPath = s.outputPath

lemma SameFile.place {s t : ReceiverSession} (h : SameFile s t) : t.place = s.place := by
  rw [ReceiverSession.place, ReceiverSession.place, h.published, h.tempPath, h.outputPath]

/-- What a packet does to the file of a session that has started. -/
inductive FileStep (s : ReceiverSession) (fs : FileSystem) (packet : Packet) (io : IoEnv) :
    Handled → Prop
  | stored {handled : Handled} (hfits : s.Fits packet) (hsame : SameFile s handled.session)
      (hwrite : fs.writeFile s.file io.write packet.payload packet.header.byteOffset.toNat =
        (handled.fs, some packet.payload.length)) : FileStep s fs packet io handled
  | untouched {handled : Handled} (hnot : ¬ s.Fits packet) (hsame : SameFile s handled.session)
      (hfs : handled.fs = fs) : FileStep s fs packet io handled
  | published {handled : Handled} (hnot : ¬ s.Fits packet) (hlive : s.Live packet)
      (hfile : handled.session.file = s.file) (hplace : handled.session.place = s.outputPath)
      (hrename : fs.rename io.renameOk s.tempPath s.outputPath = (handled.fs, true)) :
      FileStep s fs packet io handled

/-- **A started session writes what fits, and nothing else touches a byte.** -/
lemma Handles.fileStep {handled : Handled} (h : Handles s fs packet io handled)
    (hstarted : s.started = true)
    (hwrite : s.Fits packet → (fs.writeFile s.file io.write packet.payload
      packet.header.byteOffset.toNat).2 = some packet.payload.length) :
    FileStep s fs packet io handled := by
  cases h with
  | replayed stats hreplay =>
      refine .untouched (fun hfits => ?_) ⟨rfl, rfl, rfl, rfl, rfl⟩ rfl
      simp [replays, hfits.finished] at hreplay
  | ignored stats _ hwhy =>
      refine .untouched (fun hfits => ?_) ⟨rfl, rfl, rfl, rfl, rfl⟩ rfl
      rcases hwhy with hfinished | ⟨-, -, hdata, -⟩
      · simp [hfits.finished] at hfinished
      · exact absurd hfits.packetType hdata
  | restarted stats _ htype =>
      refine .untouched (fun hfits => ?_) ⟨rfl, rfl, rfl, rfl, rfl⟩ rfl
      simp [hfits.packetType] at htype
  | duplicate stats _ _ hclass =>
      refine .untouched (fun hfits => ?_) ⟨rfl, rfl, rfl, rfl, rfl⟩ rfl
      simp [hfits.accepted] at hclass
  | outside stats _ _ hclass =>
      refine .untouched (fun hfits => ?_) ⟨rfl, rfl, rfl, rfl, rfl⟩ rfl
      simp [hfits.accepted] at hclass
  | strayed stats _ hwhy =>
      refine .untouched (fun hfits => ?_) ⟨rfl, rfl, rfl, rfl, rfl⟩ rfl
      rw [if_neg (by simp [hfits.packetType])] at hwhy
      exact absurd hfits.sessionId (hwhy hfits.started)
  | misnamed stats hopen => simp [hopen.started] at hstarted
  | openFailed stats name hopen => simp [hopen.started] at hstarted
  | opened stats name fs' fd hopen => simp [hopen.started] at hstarted
  | oversized stats _ _ _ hsize =>
      refine .untouched (fun hfits => ?_) ⟨rfl, rfl, rfl, rfl, rfl⟩ rfl
      exact absurd hfits.size_le (not_le.mpr hsize)
  | writeFailed stats fs' written hfits hwritten hshort =>
      have hfull := hwrite hfits
      rw [hwritten] at hfull
      exact absurd hfull hshort
  | stored stats fs' hfits hwritten => exact .stored hfits ⟨rfl, rfl, rfl, rfl, rfl⟩ hwritten
  | finFailed stats code error _ htype =>
      refine .untouched (fun hfits => ?_) ⟨rfl, rfl, rfl, rfl, rfl⟩ rfl
      simp [hfits.packetType] at htype
  | published stats fs' hlive htype hchecks hrename =>
      refine .published (fun hfits => ?_) hlive rfl rfl hrename
      simp [hfits.packetType] at htype

/-- No byte of any file changes but by a packet that fits. -/
lemma FileStep.data_eq {handled : Handled} (h : FileStep s fs packet io handled)
    (hnot : ¬ s.Fits packet) : handled.fs.data = fs.data := by
  cases h with
  | stored hfits => exact absurd hfits hnot
  | untouched _ _ hfs => rw [hfs]
  | published _ _ _ _ hrename =>
      obtain ⟨i, -, -, -, -, hdata, -⟩ := FileSystem.rename_true hrename
      exact hdata

/-- The session's file, under the name it has just then. -/
def Holds (s : ReceiverSession) (fs : FileSystem) (content : Bytes) : Prop :=
  ∃ fd, s.file = some fd ∧ fs.names s.place = some fd ∧ fs.data fd = content

/-- **The content after a packet.** -/
lemma FileStep.holds {handled : Handled} (h : FileStep s fs packet io handled) {content : Bytes}
    (hverdict : s.Verdict) (hholds : s.Holds fs content) :
    handled.session.Holds handled.fs (if s.Fits packet then
      overwrite 0 content packet.header.byteOffset.toNat packet.payload else content) := by
  obtain ⟨fd, hfile, hname, hdata⟩ := hholds
  cases h with
  | stored hfits hsame hwrite =>
      obtain ⟨hnames, -, -, hover⟩ := FileSystem.writeFile_spec hwrite
      obtain ⟨fd', hfile', -, hwritten, -⟩ := hover _ rfl
      obtain rfl : fd' = fd := Option.some.inj (hfile'.symm.trans hfile)
      refine ⟨fd', hsame.file.trans hfile, ?_, ?_⟩
      · rw [hsame.place, hnames]
        exact hname
      · rw [if_pos hfits, hwritten, hdata]
  | untouched hnot hsame hfs =>
      refine ⟨fd, hsame.file.trans hfile, ?_, ?_⟩
      · rw [hsame.place, hfs]
        exact hname
      · rw [if_neg hnot, hfs]
        exact hdata
  | published hnot hlive hfile' hplace hrename =>
      have htemp : s.place = s.tempPath := by
        rw [place, (hverdict.of_unfinished hlive.finished).2]
        rfl
      obtain ⟨i, hsrc, hdst, -, -, hkept, -⟩ := FileSystem.rename_true hrename
      obtain rfl : i = fd := Option.some.inj (hsrc.symm.trans (htemp ▸ hname))
      refine ⟨i, hfile'.trans hfile, ?_, ?_⟩
      · rw [hplace]
        exact hdst
      · rw [if_neg hnot, hkept]
        exact hdata

/-- **A session starts on an empty file.** -/
lemma Handles.opens {handled : Handled} (h : Handles s fs packet io handled) (hverdict : s.Verdict)
    (hbefore : s.started = false) (hafter : handled.session.started = true) :
    handled.session.Holds handled.fs [] := by
  cases h with
  | opened stats name fs' fd hopen hname hio =>
      obtain ⟨hnamed, -, hempty, -⟩ := FileSystem.openWrite_some hio
      refine ⟨fd, rfl, ?_, hempty⟩
      have hpublished := (hverdict.of_unfinished hopen.finished).2
      simpa [place, named, hpublished] using hnamed
  | replayed => simp [hbefore] at hafter
  | ignored => simp [hbefore] at hafter
  | restarted => simp [hbefore] at hafter
  | duplicate => simp [hbefore] at hafter
  | outside => simp [hbefore] at hafter
  | published => simp [hbefore] at hafter
  | stored => simp [hbefore] at hafter
  | strayed => simp [ReceiverSession.fail, hbefore] at hafter
  | misnamed => simp [ReceiverSession.fail, hbefore] at hafter
  | openFailed => simp [ReceiverSession.fail, named, hbefore] at hafter
  | oversized => simp [ReceiverSession.fail, hbefore] at hafter
  | writeFailed => simp [ReceiverSession.fail, hbefore] at hafter
  | finFailed => simp [ReceiverSession.fail, hbefore] at hafter

/-- **An ACK names a chunk that is stored**, by this packet or an earlier one. -/
lemma Handles.ack {handled : Handled} (h : Handles s fs packet io handled) (hverdict : s.Verdict)
    {ps : List Packet} (hrecord : Record s fs ps) (hsend : handled.reply.send = true)
    (htype : handled.reply.type = .ack) :
    s.Fits packet ∧ handled.reply.sequence = packet.header.sequenceNumber ∨
      handled.reply.sequence.toNat ∈ ps.map Packet.seq := by
  cases h with
  | replayed stats =>
      cases hverdict with
      | pending _ _ _ hreply =>
          have hsent : s.finalReply.send = true := hsend
          simp [hreply] at hsent
      | failed _ _ _ hreply =>
          have hack : s.finalReply.type = .ack := htype
          simp [hreply.2.1] at hack
      | published _ _ _ hreply =>
          have hack : s.finalReply.type = .ack := htype
          simp [hreply.2] at hack
  | duplicate stats _ _ hclass =>
      exact Or.inr ((hrecord.stored_iff _).mp (ReceiverWindow.stored_of_duplicate hclass))
  | stored stats fs' hfits => exact Or.inl ⟨hfits, rfl⟩
  | ignored => simp at hsend
  | outside => simp at hsend
  | restarted => simp at htype
  | opened => simp at htype
  | published => simp at htype
  | strayed => simp [ReceiverSession.fail, errorReply] at htype
  | misnamed => simp [ReceiverSession.fail, errorReply] at htype
  | openFailed => simp [ReceiverSession.fail, errorReply] at htype
  | oversized => simp [ReceiverSession.fail, errorReply] at htype
  | writeFailed => simp [ReceiverSession.fail, errorReply] at htype
  | finFailed => simp [ReceiverSession.fail, errorReply] at htype

end ReceiverSession

/-! ## Whole runs -/

/-- **What a session has**, of the packets `ps` it was to store. -/
structure Gathered (w : World) (ps : List Packet) : Prop where
  record : Record w.session w.fs ps
  verdict : w.session.Verdict
  chunks : w.session.stats.chunks = ps.length
  holds : w.session.started = true →
    w.session.Holds w.fs (writeAll 0 (ps.map Packet.toWrite))

namespace Gathered

variable {w : World} {ps : List Packet} {a : Arrival}

lemma init (windowCapacity : BitVec 32) (outputDirectory : Path) (fs : FileSystem) :
    Gathered (World.init windowCapacity outputDirectory fs) [] where
  record := Record.init windowCapacity outputDirectory fs
  verdict := ReceiverSession.init_verdict windowCapacity outputDirectory
  chunks := rfl
  holds hstarted := by simp [World.init, ReceiverSession.init] at hstarted

/-- What fits is new: no earlier packet with its number was stored. -/
lemma fresh (h : Gathered w ps) {packet : Packet} (hfits : w.session.Fits packet) :
    packet.seq ∉ ps.map Packet.seq := by
  rw [← h.record.stored_iff]
  exact (h.record.window_inv.classify_accepted_iff.mp hfits.accepted).1

lemma taking_eq (h : Gathered w ps) (a : Arrival) :
    w.taking ps a = if w.session.Fits a.packet then ps ++ [a.packet] else ps := by
  rw [World.taking]
  by_cases hfits : w.session.Fits a.packet
  · rw [if_pos ⟨hfits, h.fresh hfits⟩, if_pos hfits]
  · rw [if_neg fun hboth => hfits hboth.1, if_neg hfits]

/-- When the write succeeds, what is to be stored is what is accepted. -/
lemma taking_eq_accepts (h : Gathered w ps) (hwrite : w.WriteSucceeds a) :
    w.taking ps a = ps ++ w.accepts (.packet a.packet a.io) := by
  rw [h.taking_eq, World.accepts]
  by_cases hfits : w.session.Fits a.packet
  · rw [if_pos hfits, if_pos ⟨hfits, hwrite hfits⟩]
  · rw [if_neg hfits, if_neg fun hboth => hfits hboth.1, List.append_nil]

/-- **One packet.** -/
lemma arrive (h : Gathered w ps) (hwrite : w.WriteSucceeds a) :
    Gathered (w.arrive a) (w.taking ps a) := by
  have hstep := ReceiverSession.handlePacket_handles w.session w.fs a.packet a.io
  refine ⟨?_, h.verdict.handles hstep, ?_, fun hstarted => ?_⟩
  · rw [h.taking_eq_accepts hwrite]
    exact h.record.next (.packet a.packet a.io)
  · have hchunks := w.session.handlePacket_chunks w.fs a.packet a.io hwrite
    rw [h.taking_eq]
    refine hchunks.trans ?_
    rw [h.chunks]
    split_ifs <;> simp
  · cases hwas : w.session.started with
    | true =>
        have hholds := (hstep.fileStep hwas hwrite).holds h.verdict (h.holds hwas)
        rw [h.taking_eq]
        refine Eq.subst
          (motive := fun content => (w.arrive a).session.Holds (w.arrive a).fs content) ?_ hholds
        split_ifs
        · rw [List.map_append, List.map_singleton, writeAll_concat]
          rfl
        · rfl
    | false =>
        obtain ⟨-, rfl⟩ := h.record.closed hwas
        have hnot : ¬ w.session.Fits a.packet := fun hfits => by simp [hfits.started] at hwas
        rw [h.taking_eq, if_neg hnot]
        exact hstep.opens h.verdict hwas hstarted

/-- **A whole run.** -/
lemma deliver {arrivals : List Arrival} (h : Gathered w ps) (hwrites : w.WritesSucceed arrivals) :
    Gathered (w.deliver arrivals) (w.takenFrom ps arrivals) := by
  induction arrivals using List.reverseRecOn with
  | nil => exact h
  | append_singleton arrivals a ih =>
      obtain ⟨hbefore, hlast⟩ := hwrites.concat
      rw [World.deliver_concat, World.takenFrom_concat]
      exact (ih hbefore).arrive hlast

/-- An ACK is for a packet stored before, or by this very packet. -/
lemma ack (h : Gathered w ps) (hsend : (w.replyTo a).send = true)
    (htype : (w.replyTo a).type = .ack) :
    (w.replyTo a).sequence.toNat ∈ (w.taking ps a).map Packet.seq := by
  have hstep := ReceiverSession.handlePacket_handles w.session w.fs a.packet a.io
  rw [h.taking_eq]
  rcases hstep.ack h.verdict h.record hsend htype with ⟨hfits, hself⟩ | hold
  · rw [if_pos hfits, List.map_append, List.mem_append]
    refine Or.inr (List.mem_singleton.mpr ?_)
    exact congrArg BitVec.toNat hself
  · split_ifs
    · rw [List.map_append, List.mem_append]
      exact Or.inl hold
    · exact hold

end Gathered

/-- **First accepted chunk wins, and every ACK is earned.**  Whatever a session is sent, as long as
its writes succeed: its file, under the temporary name or the final one, is what writing the packets
to store leaves, in order of arrival; the running sum and the chunk counter are theirs, and no two
of them share a sequence number.  An ACK names one of them.  No other packet changes a byte of any
file once the session has started. -/
theorem first_accepted_wins (windowCapacity : BitVec 32) (outputDirectory : Path) (fs : FileSystem)
    (arrivals : List Arrival)
    (hwrites : (World.init windowCapacity outputDirectory fs).WritesSucceed arrivals) :
    let w₀ := World.init windowCapacity outputDirectory fs
    let w := w₀.deliver arrivals
    let taken := w₀.takenFrom [] arrivals
    (w.session.started = true →
      w.fs.view w.session.place = some (writeAll 0 (taken.map Packet.toWrite))) ∧
    (w.session.started = false → taken = []) ∧
    w.session.bytesWritten = (taken.map fun p => p.payload.length).sum ∧
    w.session.stats.chunks = taken.length ∧ (taken.map Packet.seq).Nodup ∧
    ∀ before a after, arrivals = before ++ a :: after →
      let v := w₀.deliver before
      ((v.replyTo a).send = true → (v.replyTo a).type = .ack →
        (v.replyTo a).sequence.toNat ∈ (w₀.takenFrom [] (before ++ [a])).map Packet.seq) ∧
      (v.session.started = true → w₀.takenFrom [] (before ++ [a]) = w₀.takenFrom [] before →
        (v.arrive a).fs.data = v.fs.data) := by
  intro w₀ w taken
  have hkept : Gathered w taken := (Gathered.init windowCapacity outputDirectory fs).deliver hwrites
  refine ⟨fun hstarted => ?_, fun hstarted => (hkept.record.closed hstarted).2, ?_, hkept.chunks,
    hkept.record.seqs_nodup, fun before a after heq => ?_⟩
  · obtain ⟨fd, -, hname, hdata⟩ := hkept.holds hstarted
    rw [FileSystem.view, hname, Option.map_some, hdata]
  · rw [hkept.record.bytes_eq, total, List.map_map]
    rfl
  · intro v
    have hbefore : Gathered v (w₀.takenFrom [] before) := by
      refine (Gathered.init windowCapacity outputDirectory fs).deliver fun b c d hsplit => ?_
      exact hwrites b c (d ++ a :: after) (by simp [heq, hsplit])
    rw [World.takenFrom_concat]
    refine ⟨hbefore.ack, fun hstarted hsame => ?_⟩
    have hnot : ¬ v.session.Fits a.packet := by
      intro hfits
      rw [hbefore.taking_eq, if_pos hfits] at hsame
      simp at hsame
    have hstep := ReceiverSession.handlePacket_handles v.session v.fs a.packet a.io
    exact (hstep.fileStep hstarted (hwrites before a after heq)).data_eq hnot

/-- A START, a chunk, the same chunk with another byte, and a chunk outside the window of one. -/
def sampleArrivals : List Arrival :=
  [⟨sampleStart 4, {}⟩, ⟨sampleData 0 1 "k" (by decide), {}⟩, ⟨sampleData 0 1 "x" (by decide), {}⟩,
    ⟨sampleData 3 2 "y" (by decide), {}⟩]

/-- The file keeps the first byte that came for the chunk. -/
theorem first_accepted_wins_one_chunk :
    ((World.init 1 [] FileSystem.empty).deliver sampleArrivals).fs.view
        ((World.init 1 [] FileSystem.empty).deliver sampleArrivals).session.place =
      some (0 :: asciiBytes "k") := by
  have hwrites : (World.init 1 [] FileSystem.empty).WritesSucceed sampleArrivals :=
    World.writesSucceed_cons (by decide +kernel) (World.writesSucceed_cons (by decide +kernel)
      (World.writesSucceed_cons (by decide +kernel) (World.writesSucceed_cons (by decide +kernel)
        (World.writesSucceed_nil _))))
  have hview := (first_accepted_wins 1 [] FileSystem.empty sampleArrivals hwrites).1
    (by decide +kernel)
  refine hview.trans ?_
  decide +kernel

end SwiftLink
