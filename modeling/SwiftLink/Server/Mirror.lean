import SwiftLink.Transfer.Verdict

/-!
# A session and the rest of the directory

What a session does depends on the directory only through its own temporary file, and that is
emptied when it is opened.  `Mirrors` relates one session in two directories: everything but the
descriptor is the same, and so is the temporary file.  A packet keeps the two alike and gets the
same answer from both.
-/

namespace SwiftLink

/-- The open file of one session in two directories. -/
inductive SameFile (fs fs' : FileSystem) (tempPath : Path) (published : Bool) :
    Option ℕ → Option ℕ → Prop
  | closed : SameFile fs fs' tempPath published none none
  | opened (fd fd' : ℕ) (hdata : fs.data fd = fs'.data fd')
      (hname : published = false → fs.names tempPath = some fd)
      (hname' : published = false → fs'.names tempPath = some fd') :
      SameFile fs fs' tempPath published (some fd) (some fd')

/-- **One session in two directories.** -/
structure Mirrors (w w' : World) : Prop where
  same : w'.session = { w.session with file := w'.session.file }
  file : SameFile w.fs w'.fs w.session.tempPath w.session.published w.session.file w'.session.file
  temp : w.session.started = true → w.session.published = false →
    w.fs.view w.session.tempPath = w'.fs.view w.session.tempPath

/-- The same outcome in two directories, for a session that had or had not published before. -/
structure Alike (before : Bool) (h h' : Handled) : Prop where
  mirrors : Mirrors ⟨h.session, h.fs⟩ ⟨h'.session, h'.fs⟩
  reply_eq : h.reply = h'.reply
  /-- A file published by the packet is the same file. -/
  published : before = false → h.session.published = true →
    h.fs.view h.session.outputPath = h'.fs.view h.session.outputPath

namespace Mirrors

lemma init (windowCapacity : BitVec 32) (outputDirectory : Path) (fs fs' : FileSystem) :
    Mirrors (World.init windowCapacity outputDirectory fs)
      (World.init windowCapacity outputDirectory fs') :=
  ⟨rfl, .closed, fun h => by simp [World.init, ReceiverSession.init] at h⟩

lemma published_eq {w w' : World} (h : Mirrors w w') :
    w'.session.published = w.session.published := by
  rw [h.same]

lemma finished_eq {w w' : World} (h : Mirrors w w') :
    w'.session.finished = w.session.finished := by
  rw [h.same]

lemma outputPath_eq {w w' : World} (h : Mirrors w w') :
    w'.session.outputPath = w.session.outputPath := by
  rw [h.same]

lemma closeFile {w w' : World} (h : Mirrors w w') :
    Mirrors (w.next .closeFile) (w'.next .closeFile) := by
  refine ⟨?_, .closed, h.temp⟩
  simp only [World.next, ReceiverSession.closeFile]
  rw [h.same]

end Mirrors

namespace ReceiverSession

variable {s : ReceiverSession} {fs fs' : FileSystem} {file : Option ℕ} {packet : Packet}
  {io : IoEnv}

/-- A step that does to the session only what the directory does not show. -/
lemma alike_of {t : ReceiverSession} (h : Mirrors ⟨s, fs⟩ ⟨{ s with file := file }, fs'⟩)
    (ht : t.file = s.file ∧ t.tempPath = s.tempPath ∧ t.published = s.published ∧
      t.started = s.started) (reply : Reply) :
    Alike s.published ⟨t, fs, reply⟩ ⟨{ t with file := file }, fs', reply⟩ where
  mirrors := by
    obtain ⟨hfile, htemp, hpublished, hstarted⟩ := ht
    refine ⟨rfl, ?_, ?_⟩
    · dsimp only
      rw [hfile, htemp, hpublished]
      exact h.file
    · dsimp only
      rw [htemp, hpublished, hstarted]
      exact h.temp
  reply_eq := rfl
  published hnot hyes := by
    dsimp only at hyes
    simp [ht.2.2.1, hnot] at hyes

lemma onStart_alike (h : Mirrors ⟨s, fs⟩ ⟨{ s with file := file }, fs'⟩) :
    Alike s.published (s.onStart fs packet io) ({ s with file := file }.onStart fs' packet io) := by
  simp only [onStart]
  split_ifs with hstarted hid
  · exact alike_of h (by exact ⟨rfl, rfl, rfl, rfl⟩) _
  · exact alike_of h (by exact ⟨rfl, rfl, rfl, rfl⟩) _
  · split
    · next name hname =>
      cases io.openOk with
      | false =>
          simp only [FileSystem.openWrite, Bool.false_eq_true, if_false]
          exact ⟨⟨rfl, .closed, fun hs => absurd hs hstarted⟩, rfl,
            fun hnot hyes => by simp [fail, hnot] at hyes⟩
      | true =>
          set path := joinPath s.outputDirectory (tempName packet.header.sessionId)
          obtain ⟨fs₁, fd, hopen⟩ := fs.openWrite_true path
          obtain ⟨fs₁', fd', hopen'⟩ := fs'.openWrite_true path
          obtain ⟨hlink, -, hempty, -⟩ := FileSystem.openWrite_some hopen
          obtain ⟨hlink', -, hempty', -⟩ := FileSystem.openWrite_some hopen'
          rw [hopen, hopen']
          have hdata : fs₁.data fd = fs₁'.data fd' := hempty.trans hempty'.symm
          refine ⟨⟨rfl, .opened fd fd' hdata (fun _ => hlink) (fun _ => hlink'), fun _ _ => ?_⟩,
            rfl, fun hnot hyes => by simp [hnot] at hyes⟩
          simp only [FileSystem.view]
          rw [hlink, hlink', Option.map_some, Option.map_some, hdata]
    · exact alike_of h (by exact ⟨rfl, rfl, rfl, rfl⟩) _

/-- An open temporary file reads the same under its name in both directories. -/
lemma view_of_sameFile {tempPath : Path} {fd fd' : ℕ}
    (h : SameFile fs fs' tempPath false (some fd) (some fd')) :
    fs.view tempPath = fs'.view tempPath := by
  cases h with
  | opened fd fd' hdata hname hname' =>
      rw [FileSystem.view, FileSystem.view, hname rfl, hname' rfl, Option.map_some, Option.map_some,
        hdata]

/-- **Writing to the open file** does the same in both directories. -/
lemma writeFile_alike (h : Mirrors ⟨s, fs⟩ ⟨{ s with file := file }, fs'⟩)
    (sched : List PwriteOutcome) (buf : Bytes) (off : ℕ) :
    (fs.writeFile s.file sched buf off).2 = (fs'.writeFile file sched buf off).2 ∧
      Mirrors ⟨s, (fs.writeFile s.file sched buf off).1⟩
        ⟨{ s with file := file }, (fs'.writeFile file sched buf off).1⟩ := by
  have hfile : SameFile fs fs' s.tempPath s.published s.file file := h.file
  generalize hs : s.file = file₀ at hfile
  cases hfile with
  | closed => exact ⟨rfl, rfl, by rw [hs]; exact .closed, h.temp⟩
  | opened fd fd' hdata hname hname' =>
      simp only [FileSystem.writeFile]
      rw [hdata]
      have hafter : SameFile (fs.setData fd (writeAt sched (fs'.data fd') buf off 0).1)
          (fs'.setData fd' (writeAt sched (fs'.data fd') buf off 0).1) s.tempPath s.published
          (some fd) (some fd') := .opened fd fd' (by simp) hname hname'
      refine ⟨rfl, rfl, by rw [hs]; exact hafter, fun _ hp => ?_⟩
      rw [show s.published = false from hp] at hafter
      exact view_of_sameFile hafter

lemma onData_alike (h : Mirrors ⟨s, fs⟩ ⟨{ s with file := file }, fs'⟩) :
    Alike s.published (s.onData fs packet io) ({ s with file := file }.onData fs' packet io) := by
  obtain ⟨hresult, hwritten⟩ :=
    writeFile_alike h io.write packet.payload packet.header.byteOffset.toNat
  simp only [onData]
  split
  · exact alike_of h (by exact ⟨rfl, rfl, rfl, rfl⟩) _
  · exact alike_of h (by exact ⟨rfl, rfl, rfl, rfl⟩) _
  · split
    · exact alike_of h (by exact ⟨rfl, rfl, rfl, rfl⟩) _
    · split
      all_goals
        dsimp only
        rw [hresult]
        split
        · exact alike_of hwritten (by exact ⟨rfl, rfl, rfl, rfl⟩) _
        · exact alike_of hwritten (by exact ⟨rfl, rfl, rfl, rfl⟩) _

/-- Hashing the open file gives the same digest in both directories. -/
lemma hashFile_alike (h : Mirrors ⟨s, fs⟩ ⟨{ s with file := file }, fs'⟩) :
    hashFile (fun k want off => fs.readFile s.file (io.reads k) want off) s.bytesWritten
      = hashFile (fun k want off => fs'.readFile file (io.reads k) want off) s.bytesWritten := by
  have hfile : SameFile fs fs' s.tempPath s.published s.file file := h.file
  generalize s.file = file₀ at hfile
  cases hfile with
  | closed => rfl
  | opened fd fd' hdata => simp only [FileSystem.readFile, hdata]

lemma onFin_alike (h : Mirrors ⟨s, fs⟩ ⟨{ s with file := file }, fs'⟩)
    (hpub : s.published = false) :
    Alike s.published (s.onFin fs packet io) ({ s with file := file }.onFin fs' packet io) := by
  have hfile : SameFile fs fs' s.tempPath s.published s.file file := h.file
  have hsome : s.file.isSome = file.isSome := by
    generalize s.file = file₀ at hfile
    cases hfile <;> rfl
  simp only [onFin]
  rw [hashFile_alike h, hsome]
  split
  · exact alike_of h (by exact ⟨rfl, rfl, rfl, rfl⟩) _
  split
  · exact alike_of h (by exact ⟨rfl, rfl, rfl, rfl⟩) _
  next hsync =>
  split
  · exact alike_of h (by exact ⟨rfl, rfl, rfl, rfl⟩) _
  split
  · exact alike_of h (by exact ⟨rfl, rfl, rfl, rfl⟩) _
  split
  · exact alike_of h (by exact ⟨rfl, rfl, rfl, rfl⟩) _
  -- every check has passed, so there is an open file, and it has its name in both directories
  have hopen : file.isSome = true := by
    simp only [Bool.not_eq_true', Bool.not_eq_false, Bool.and_eq_true] at hsync
    exact hsync.1
  generalize hs : s.file = file₀ at hfile
  cases hfile with
  | closed => simp at hopen
  | opened fd fd' hdata hname hname' =>
      have hok := FileSystem.rename_of_names (hname hpub) io.renameOk s.outputPath
      have hok' := FileSystem.rename_of_names (hname' hpub) io.renameOk s.outputPath
      rcases hrename : fs.rename io.renameOk s.tempPath s.outputPath with ⟨fs₁, ok⟩
      rcases hrename' : fs'.rename io.renameOk s.tempPath s.outputPath with ⟨fs₁', ok'⟩
      rw [hrename] at hok
      rw [hrename'] at hok'
      obtain rfl : ok = io.renameOk := hok
      obtain rfl : ok' = io.renameOk := hok'
      cases hio : io.renameOk with
      | false =>
          rw [hio] at hrename hrename'
          obtain ⟨rfl, -⟩ := FileSystem.rename_false hrename
          obtain ⟨rfl, -⟩ := FileSystem.rename_false hrename'
          exact alike_of h (by exact ⟨rfl, rfl, rfl, rfl⟩) _
      | true =>
          rw [hio] at hrename hrename'
          obtain ⟨i, hsrc, hdst, -, -, hsame, -⟩ := FileSystem.rename_true hrename
          obtain ⟨i', hsrc', hdst', -, -, hsame', -⟩ := FileSystem.rename_true hrename'
          obtain rfl : i = fd := Option.some.inj (hsrc.symm.trans (hname hpub))
          obtain rfl : i' = fd' := Option.some.inj (hsrc'.symm.trans (hname' hpub))
          have hfiles : fs₁.data i = fs₁'.data i' := by rw [hsame, hsame', hdata]
          refine ⟨⟨rfl, ?_, fun _ hp => by simp at hp⟩, rfl, fun _ _ => ?_⟩
          · dsimp only
            exact .opened i i' hfiles (fun hp => by simp at hp) (fun hp => by simp at hp)
          · simp only [FileSystem.view]
            rw [hdst, hdst', Option.map_some, Option.map_some, hfiles]

/-- **A packet does the same to a session in either directory.** -/
theorem handlePacket_alike (hverdict : s.Verdict)
    (h : Mirrors ⟨s, fs⟩ ⟨{ s with file := file }, fs'⟩) (packet : Packet) (io : IoEnv) :
    Alike s.published (s.handlePacket fs packet io)
      ({ s with file := file }.handlePacket fs' packet io) := by
  have hreplays : ∀ stats, { s with file := file, stats := stats }.replays packet.header
      = { s with stats := stats }.replays packet.header := fun _ => rfl
  simp only [handlePacket, hreplays]
  have hcounted : Mirrors ⟨{ s with stats.packetsReceived := s.stats.packetsReceived + 1 }, fs⟩
      ⟨{ s with file := file, stats.packetsReceived := s.stats.packetsReceived + 1 }, fs'⟩ :=
    ⟨rfl, h.file, h.temp⟩
  split
  · exact alike_of h (by exact ⟨rfl, rfl, rfl, rfl⟩) _
  split
  · exact alike_of h (by exact ⟨rfl, rfl, rfl, rfl⟩) _
  next hunfinished =>
  have hpub : s.published = false := (hverdict.of_unfinished (by simpa using hunfinished)).2
  split
  · exact onStart_alike hcounted
  split
  · exact alike_of h (by exact ⟨rfl, rfl, rfl, rfl⟩) _
  split
  · exact alike_of h (by exact ⟨rfl, rfl, rfl, rfl⟩) _
  split
  · exact onData_alike hcounted
  · exact onFin_alike hcounted hpub
  · exact alike_of h (by exact ⟨rfl, rfl, rfl, rfl⟩) _

end ReceiverSession

/-- **A packet keeps the two alike**, is answered alike, and publishes alike. -/
theorem Mirrors.next {w w' : World} (h : Mirrors w w') (hverdict : w.session.Verdict)
    (packet : Packet) (io : IoEnv) :
    Mirrors (w.next (.packet packet io)) (w'.next (.packet packet io)) ∧
      w.reply (.packet packet io) = w'.reply (.packet packet io) ∧
      (w.session.published = false → (w.next (.packet packet io)).session.published = true →
        (w.next (.packet packet io)).fs.view (w.next (.packet packet io)).session.outputPath
          = (w'.next (.packet packet io)).fs.view
            (w.next (.packet packet io)).session.outputPath) := by
  obtain ⟨s, fs⟩ := w
  obtain ⟨s', fs'⟩ := w'
  obtain ⟨file, rfl⟩ : ∃ file, s' = { s with file := file } := ⟨s'.file, h.same⟩
  have halike := ReceiverSession.handlePacket_alike hverdict h packet io
  exact ⟨halike.mirrors, halike.reply_eq, halike.published⟩

end SwiftLink
