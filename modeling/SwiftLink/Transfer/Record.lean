import SwiftLink.Transfer.Verdict

/-!
# What a session has on disk

The receiver keeps no list of the chunks it accepted: it has a window of sequence numbers, a running
sum of payload lengths, and a file.  `World.accepted` is that list, read off the events, and
`Record` says how the three relate to it in every reachable state: the window stores exactly their
sequence numbers, the sum is the sum of their lengths (it never wraps), and the file is what
writing them in order of arrival leaves.
-/

namespace SwiftLink

open ByteFile

/-- The positional write a DATA packet asks for. -/
def Packet.toWrite (p : Packet) : Write Byte where
  off := p.header.byteOffset.toNat
  bytes := p.payload

/-- The sequence number as a number. -/
def Packet.seq (p : Packet) : ℕ := p.header.sequenceNumber.toNat

namespace ReceiverSession

instance (s : ReceiverSession) (packet : Packet) : Decidable (s.Fits packet) :=
  decidable_of_iff
    ((s.finished = false ∧ s.started = true ∧ packet.header.sessionId = s.sessionId) ∧
      packet.header.packetType = .data ∧
      s.window.classify packet.header.sequenceNumber.toNat = .accepted ∧
      (packet.header.byteOffset.toNat + packet.payload.length) % 2 ^ 64 ≤ s.declaredSize)
    ⟨fun ⟨⟨hf, hs, hid⟩, ht, hc, hz⟩ => ⟨⟨hf, hs, hid⟩, ht, hc, hz⟩,
      fun h => ⟨⟨h.finished, h.started, h.sessionId⟩, h.packetType, h.accepted, h.size_le⟩⟩

end ReceiverSession

namespace World

/-- The DATA packet an event makes the session accept, if it does: one that fits and whose payload
is written in full. -/
def accepts (w : World) : SessionEvent → List Packet
  | .packet packet io =>
      if w.session.Fits packet ∧ (w.fs.writeFile w.session.file io.write packet.payload
          packet.header.byteOffset.toNat).2 = some packet.payload.length
      then [packet] else []
  | .closeFile => []

/-- The DATA packets accepted over a run, in order of arrival. -/
def accepted (w : World) : List SessionEvent → List Packet
  | [] => []
  | e :: events => w.accepts e ++ (w.next e).accepted events

lemma accepts_eq_nil {w : World} {packet : Packet} {io : IoEnv}
    (h : w.session.Fits packet → (w.fs.writeFile w.session.file io.write packet.payload
      packet.header.byteOffset.toNat).2 ≠ some packet.payload.length) :
    w.accepts (.packet packet io) = [] := by
  rw [accepts, if_neg fun hacc => h hacc.1 hacc.2]

lemma accepted_concat (w : World) (events : List SessionEvent) (e : SessionEvent) :
    w.accepted (events ++ [e]) = w.accepted events ++ (w.run events).accepts e := by
  induction events generalizing w with
  | nil => simp [accepted]
  | cons d events ih =>
      rw [List.cons_append, accepted, ih, accepted, List.append_assoc]
      rfl

end World

/-- How a session relates to the DATA packets `ps` it has accepted. -/
structure Record (s : ReceiverSession) (fs : FileSystem) (ps : List Packet) : Prop where
  window_inv : s.window.Inv
  seqs_nodup : (ps.map Packet.seq).Nodup
  stored_iff : ∀ t, s.window.Stored t ↔ t ∈ ps.map Packet.seq
  bytes_eq : s.bytesWritten = total (ps.map Packet.toWrite)
  inside : ∀ p ∈ ps, p.toWrite.stop ≤ s.declaredSize
  closed : s.started = false → s.file = none ∧ ps = []
  /-- Until the first failure the open file holds what was accepted, and nothing else. -/
  content : ∀ fd, s.file = some fd → s.error = .none →
    fs.data fd = writeAll 0 (ps.map Packet.toWrite)
  /-- The temporary name leads to the open file for as long as it exists. -/
  named : s.published = false → ∀ fd, s.file = some fd → fs.names s.tempPath = some fd

/-- `t` differs from `s` only in fields the record does not read, or has its file closed. -/
structure Keeps (s t : ReceiverSession) : Prop where
  window : t.window = s.window
  bytesWritten : t.bytesWritten = s.bytesWritten
  declaredSize : t.declaredSize = s.declaredSize
  started : t.started = s.started
  published : t.published = s.published
  file : t.file = none ∨ t.file = s.file ∧ t.tempPath = s.tempPath

lemma Keeps.stats (s : ReceiverSession) (stats : TransferStats) :
    Keeps s { s with stats := stats } :=
  ⟨rfl, rfl, rfl, rfl, rfl, Or.inr ⟨rfl, rfl⟩⟩

lemma Keeps.sessionId (s : ReceiverSession) (id : BitVec 64) (stats : TransferStats) :
    Keeps s { s with sessionId := id, stats := stats } :=
  ⟨rfl, rfl, rfl, rfl, rfl, Or.inr ⟨rfl, rfl⟩⟩

lemma Keeps.named (s : ReceiverSession) (packet : Packet) (name : Bytes) (stats : TransferStats) :
    Keeps s { s.named packet name with file := none, stats := stats } :=
  ⟨rfl, rfl, rfl, rfl, rfl, Or.inl rfl⟩

lemma Keeps.closeFile (s : ReceiverSession) : Keeps s s.closeFile :=
  ⟨rfl, rfl, rfl, rfl, rfl, Or.inl rfl⟩

namespace Record

variable {s : ReceiverSession} {fs : FileSystem} {ps : List Packet}

lemma init (windowCapacity : BitVec 32) (outputDirectory : Path) (fs : FileSystem) :
    Record (ReceiverSession.init windowCapacity outputDirectory) fs [] where
  window_inv := ReceiverWindow.init_inv windowCapacity
  seqs_nodup := List.nodup_nil
  stored_iff t := by
    simp [ReceiverSession.init, ReceiverWindow.not_stored_init]
  bytes_eq := rfl
  inside := by simp
  closed _ := ⟨rfl, rfl⟩
  content fd h := by simp [ReceiverSession.init] at h
  named _ fd h := by simp [ReceiverSession.init] at h

/-- Fewer than `2 ^ 32` packets of less than `2 ^ 16` bytes: the running sum fits in 64 bits. -/
lemma total_lt (h : Record s fs ps) (p : Packet) :
    total (ps.map Packet.toWrite) + p.payload.length < 2 ^ 64 := by
  have hseqs : (ps.map Packet.seq).length ≤ (List.range (2 ^ 32)).length :=
    (List.subperm_of_subset h.seqs_nodup fun t ht => by
      obtain ⟨q, -, rfl⟩ := List.mem_map.mp ht
      exact List.mem_range.mpr q.header.sequenceNumber.isLt).length_le
  rw [List.length_map, List.length_range] at hseqs
  have htotal : total (ps.map Packet.toWrite) ≤ (ps.map Packet.toWrite).length * kMaxPayloadSize :=
    total_le fun w hw => by
      obtain ⟨q, -, rfl⟩ := List.mem_map.mp hw
      exact q.payload_le
  have hp := p.payload_le
  rw [List.length_map] at htotal
  simp only [kMaxPayloadSize] at htotal hp
  omega

/-- The record survives any change of session that `Keeps` allows, and any change of the file
system that leaves the names alone and, short of a failure, the contents. -/
lemma congr {t : ReceiverSession} {fs' : FileSystem} (h : Record s fs ps) (ht : Keeps s t)
    (hnames : fs'.names = fs.names)
    (hdata : t.error = .none → s.error = .none ∧ fs'.data = fs.data) : Record t fs' ps where
  window_inv := ht.window ▸ h.window_inv
  seqs_nodup := h.seqs_nodup
  stored_iff u := by rw [ht.window]; exact h.stored_iff u
  bytes_eq := ht.bytesWritten.trans h.bytes_eq
  inside := by rw [ht.declaredSize]; exact h.inside
  closed hs := by
    obtain ⟨hnone, hps⟩ := h.closed (ht.started.symm.trans hs)
    rcases ht.file with hfile | ⟨hfile, -⟩
    · exact ⟨hfile, hps⟩
    · exact ⟨hfile.trans hnone, hps⟩
  content fd hfd he := by
    rcases ht.file with hfile | ⟨hfile, -⟩
    · simp [hfile] at hfd
    · rw [(hdata he).2]
      exact h.content fd (hfile ▸ hfd) (hdata he).1
  named hp fd hfd := by
    rcases ht.file with hfile | ⟨hfile, htemp⟩
    · simp [hfile] at hfd
    · rw [hnames, htemp]
      exact h.named (ht.published.symm.trans hp) fd (hfile ▸ hfd)

/-- A session that fails keeps its record, whatever a failed write left in the file. -/
lemma fail {t : ReceiverSession} {fs' : FileSystem} (h : Record s fs ps) (ht : Keeps s t)
    (hnames : fs'.names = fs.names) {code : StatusCode} {error : TransferError}
    (herror : error ≠ .none) {sequence : BitVec 32} :
    Record (t.fail fs' code error sequence).session fs' ps :=
  h.congr ⟨ht.window, ht.bytesWritten, ht.declaredSize, ht.started, ht.published, ht.file⟩ hnames
    fun he => absurd he herror

/-- **Accepting a chunk** adds it to the record. -/
lemma stored {packet : Packet} {io : IoEnv} {fs' : FileSystem} (stats : TransferStats)
    (h : Record s fs ps) (hfits : s.Fits packet)
    (hwrite : fs.writeFile s.file io.write packet.payload packet.header.byteOffset.toNat
      = (fs', some packet.payload.length)) :
    Record { s with
      window := s.window.markReceived packet.header.sequenceNumber.toNat
      bytesWritten := (s.bytesWritten + packet.payload.length) % 2 ^ 64
      stats := stats } fs' (ps ++ [packet]) := by
  obtain ⟨hinv, -, -, hstored⟩ := h.window_inv.markReceived hfits.accepted
  obtain ⟨hnew, -⟩ := h.window_inv.classify_accepted_iff.mp hfits.accepted
  obtain ⟨hnames, -, -, hdata⟩ := FileSystem.writeFile_spec hwrite
  obtain ⟨fd, hfile, -, hover, hbound⟩ := hdata _ rfl
  refine ⟨hinv, ?_, fun t => ?_, ?_, fun p hp => ?_, fun hs => ?_, fun fd' hfd' he => ?_,
    fun hp fd' hfd' => ?_⟩
  · rw [List.map_append, List.map_singleton, List.nodup_append_comm, List.singleton_append,
      List.nodup_cons]
    exact ⟨fun hin => hnew ((h.stored_iff _).mpr hin), h.seqs_nodup⟩
  · rw [hstored, h.stored_iff, List.map_append, List.mem_append, List.map_singleton,
      List.mem_singleton, Packet.seq]
  · rw [List.map_append, List.map_singleton, total_concat, h.bytes_eq]
    exact Nat.mod_eq_of_lt (h.total_lt packet)
  · -- a write that succeeded lies below `2 ^ 63`, so the 64-bit sum compared was the true one
    rcases List.mem_append.mp hp with hp | hp
    · exact h.inside p hp
    · obtain rfl := List.mem_singleton.mp hp
      have hsize := hfits.size_le
      have hoff := p.header.byteOffset.isLt
      have hsum : p.header.byteOffset.toNat + p.payload.length < 2 ^ 64 := by
        by_cases hempty : p.payload = []
        · simp only [hempty, List.length_nil]
          omega
        · have := hbound hempty
          simp only [kOffsetMax] at this
          omega
      rw [Nat.mod_eq_of_lt hsum] at hsize
      exact hsize
  · exact absurd hs (by simp [hfits.started])
  · obtain rfl : fd' = fd := Option.some.inj (hfd'.symm.trans hfile)
    rw [List.map_append, List.map_singleton, writeAll_concat, hover, h.content _ hfile he]
    rfl
  · rw [hnames]
    exact h.named hp fd' hfd'

/-- **Opening the temporary file** starts an empty record. -/
lemma opened {packet : Packet} {name : Bytes} {ok : Bool} {fs' : FileSystem} {fd : ℕ}
    (stats : TransferStats) (h : Record s fs ps) (hopen : s.Opening packet)
    (hio : fs.openWrite ok (s.named packet name).tempPath = (fs', some fd)) :
    Record { s.named packet name with
      file := some fd
      declaredSize := packet.header.byteOffset.toNat
      started := true
      stats := stats } fs' ps := by
  obtain ⟨-, rfl⟩ := h.closed hopen.started
  obtain ⟨hname, -, hempty, -⟩ := FileSystem.openWrite_some hio
  refine ⟨h.window_inv, h.seqs_nodup, h.stored_iff, h.bytes_eq, by simp, by simp,
    fun fd' hfd' _ => ?_, fun _ fd' hfd' => ?_⟩
  · obtain rfl := Option.some.inj hfd'
    exact hempty
  · obtain rfl := Option.some.inj hfd'
    exact hname

/-- **One packet keeps the record.** -/
lemma handles {packet : Packet} {io : IoEnv} {handled : Handled} (h : Record s fs ps)
    (hstep : s.Handles fs packet io handled) :
    Record handled.session handled.fs (ps ++ World.accepts ⟨s, fs⟩ (.packet packet io)) := by
  have hsame : (s.Fits packet → (fs.writeFile s.file io.write packet.payload
      packet.header.byteOffset.toNat).2 ≠ some packet.payload.length) →
      Record handled.session handled.fs ps →
        Record handled.session handled.fs (ps ++ World.accepts ⟨s, fs⟩ (.packet packet io)) := by
    intro hnot hrecord
    rw [World.accepts_eq_nil hnot, List.append_nil]
    exact hrecord
  cases hstep with
  | replayed stats hreplay =>
      refine hsame (fun hfits => ?_) (h.congr (Keeps.stats s stats) rfl fun he => ⟨he, rfl⟩)
      simp [ReceiverSession.replays, hfits.finished] at hreplay
  | ignored stats _ hwhy =>
      refine hsame (fun hfits => ?_) (h.congr (Keeps.stats s stats) rfl fun he => ⟨he, rfl⟩)
      rcases hwhy with hfinished | ⟨-, -, hdata, -⟩
      · simp [hfits.finished] at hfinished
      · exact absurd hfits.packetType hdata
  | restarted stats _ htype =>
      refine hsame (fun hfits => ?_) (h.congr (Keeps.stats s stats) rfl fun he => ⟨he, rfl⟩)
      simp [hfits.packetType] at htype
  | duplicate stats _ _ hclass =>
      refine hsame (fun hfits => ?_) (h.congr (Keeps.stats s stats) rfl fun he => ⟨he, rfl⟩)
      simp [hfits.accepted] at hclass
  | outside stats _ _ hclass =>
      refine hsame (fun hfits => ?_) (h.congr (Keeps.stats s stats) rfl fun he => ⟨he, rfl⟩)
      simp [hfits.accepted] at hclass
  | strayed stats _ hwhy =>
      refine hsame (fun hfits => ?_) (h.fail (Keeps.stats s stats) rfl (by decide))
      rw [if_neg (by simp [hfits.packetType])] at hwhy
      exact absurd hfits.sessionId (hwhy hfits.started)
  | misnamed stats hopen =>
      refine hsame (fun hfits => ?_) (h.fail (Keeps.sessionId s _ stats) rfl (by decide))
      exact absurd hfits.started (by simp [hopen.started])
  | openFailed stats name hopen =>
      refine hsame (fun hfits => ?_) (h.fail (Keeps.named s packet name stats) rfl (by decide))
      exact absurd hfits.started (by simp [hopen.started])
  | opened stats name fs' fd hopen hname hio =>
      refine hsame (fun hfits => ?_) (h.opened stats hopen hio)
      exact absurd hfits.started (by simp [hopen.started])
  | oversized stats _ _ _ hsize =>
      refine hsame (fun hfits => ?_) (h.fail (Keeps.stats s stats) rfl (by decide))
      exact absurd hfits.size_le (not_le.mpr hsize)
  | writeFailed stats fs' written _ hwrite hshort =>
      have hnames := (FileSystem.writeFile_spec hwrite).1
      refine hsame (fun _ => ?_) (h.fail (Keeps.stats s stats) hnames (by decide))
      rw [hwrite]
      exact hshort
  | stored stats fs' hfits hwrite =>
      have haccepts : World.accepts ⟨s, fs⟩ (.packet packet io) = [packet] := by
        rw [World.accepts, if_pos ⟨hfits, by rw [hwrite]⟩]
      rw [haccepts]
      exact h.stored stats hfits hwrite
  | finFailed stats code error _ htype herror =>
      refine hsame (fun hfits => ?_) (h.fail (Keeps.stats s stats) rfl herror)
      simp [hfits.packetType] at htype
  | published stats fs' hlive htype hchecks hrename =>
      refine hsame (fun hfits => ?_) ?_
      · simp [hfits.packetType] at htype
      · obtain ⟨i, -, -, -, -, hdata, -⟩ := FileSystem.rename_true hrename
        refine ⟨h.window_inv, h.seqs_nodup, h.stored_iff, h.bytes_eq, h.inside, h.closed,
          fun fd hfd he => ?_, fun hp => absurd hp (by simp)⟩
        rw [hdata]
        exact h.content fd hfd he

lemma next {w : World} (h : Record w.session w.fs ps) (e : SessionEvent) :
    Record (w.next e).session (w.next e).fs (ps ++ w.accepts e) := by
  cases e with
  | packet packet io => exact h.handles (ReceiverSession.handlePacket_handles _ _ _ _)
  | closeFile =>
      rw [World.accepts, List.append_nil]
      exact h.congr (Keeps.closeFile w.session) rfl fun he => ⟨he, rfl⟩

end Record

/-- **The record of a whole run.** -/
lemma World.run_record (windowCapacity : BitVec 32) (outputDirectory : Path) (fs : FileSystem)
    (events : List SessionEvent) :
    let w := World.init windowCapacity outputDirectory fs
    Record (w.run events).session (w.run events).fs (w.accepted events) := by
  intro w
  induction events using List.reverseRecOn with
  | nil => exact Record.init windowCapacity outputDirectory fs
  | append_singleton events e ih =>
      rw [World.run_concat, World.accepted_concat]
      exact ih.next e

end SwiftLink
