import SwiftLink.Server.EpollServer
import SwiftLink.Server.Mirror

/-!
# What a session does to the directory

The sessions of a server share one output directory.  `OnDisk` sorts what a packet can do by its
effect there; from it follow a frame rule, for a path the session has nothing to do with, and the
two facts about a session's own temporary path that the other sessions rely on.
-/

namespace SwiftLink

/-- The fields that say where a session's files are. -/
structure SameFiles (s t : ReceiverSession) : Prop where
  directory : t.outputDirectory = s.outputDirectory
  output : t.outputPath = s.outputPath
  temp : t.tempPath = s.tempPath
  file : t.file = s.file
  started : t.started = s.started

/-- **Everything a packet can do to the directory**, and to the fields that point into it. -/
inductive OnDisk (s : ReceiverSession) (fs : FileSystem) (packet : Packet) (t : ReceiverSession) :
    FileSystem → Prop
  | untouched (h : SameFiles s t) : OnDisk s fs packet t fs
  | written (fs' : FileSystem) (h : SameFiles s t)
      (hnames : fs'.names = fs.names) (hnext : fs'.next = fs.next)
      (hdata : ∀ j, s.file ≠ some j → fs'.data j = fs.data j) : OnDisk s fs packet t fs'
  | unopened (name : Bytes) (hopen : s.Opening packet)
      (hname : sanitizeFilename packet.payload = (.none, name))
      (h : SameFiles { s.named packet name with file := none } t) : OnDisk s fs packet t fs
  | opened (name : Bytes) (fs' : FileSystem) (fd : ℕ) (ok : Bool)
      (hopen : s.Opening packet) (hname : sanitizeFilename packet.payload = (.none, name))
      (h : SameFiles { s.named packet name with file := some fd, started := true } t)
      (hio : fs.openWrite ok (s.named packet name).tempPath = (fs', some fd)) :
      OnDisk s fs packet t fs'
  | renamed (fs' : FileSystem) (ok : Bool) (hlive : s.Live packet)
      (h : SameFiles s t) (hrename : fs.rename ok s.tempPath s.outputPath = (fs', true)) :
      OnDisk s fs packet t fs'

lemma ReceiverSession.Handles.onDisk {s : ReceiverSession} {fs : FileSystem} {packet : Packet}
    {io : IoEnv} {handled : Handled} (h : s.Handles fs packet io handled) :
    OnDisk s fs packet handled.session handled.fs := by
  cases h with
  | replayed => exact .untouched ⟨rfl, rfl, rfl, rfl, rfl⟩
  | ignored => exact .untouched ⟨rfl, rfl, rfl, rfl, rfl⟩
  | restarted => exact .untouched ⟨rfl, rfl, rfl, rfl, rfl⟩
  | duplicate => exact .untouched ⟨rfl, rfl, rfl, rfl, rfl⟩
  | outside => exact .untouched ⟨rfl, rfl, rfl, rfl, rfl⟩
  | strayed => exact .untouched ⟨rfl, rfl, rfl, rfl, rfl⟩
  | misnamed => exact .untouched ⟨rfl, rfl, rfl, rfl, rfl⟩
  | oversized => exact .untouched ⟨rfl, rfl, rfl, rfl, rfl⟩
  | finFailed => exact .untouched ⟨rfl, rfl, rfl, rfl, rfl⟩
  | openFailed stats name hopen hname =>
      exact .unopened name hopen hname ⟨rfl, rfl, rfl, rfl, rfl⟩
  | opened stats name fs' fd hopen hname hio =>
      exact .opened name fs' fd _ hopen hname ⟨rfl, rfl, rfl, rfl, rfl⟩ hio
  | writeFailed stats fs' written hfits hwrite =>
      obtain ⟨hnames, hnext, hdata, -⟩ := FileSystem.writeFile_spec hwrite
      exact .written fs' ⟨rfl, rfl, rfl, rfl, rfl⟩ hnames hnext hdata
  | stored stats fs' hfits hwrite =>
      obtain ⟨hnames, hnext, hdata, -⟩ := FileSystem.writeFile_spec hwrite
      exact .written fs' ⟨rfl, rfl, rfl, rfl, rfl⟩ hnames hnext hdata
  | published stats fs' hlive htype hchecks hrename =>
      exact .renamed fs' _ hlive ⟨rfl, rfl, rfl, rfl, rfl⟩ hrename

/-! ## A path that belongs to somebody else -/

/-- `path` leads where it led, to the same bytes. -/
structure Untouched (path : Path) (fs fs' : FileSystem) : Prop where
  names_eq : fs'.names path = fs.names path
  data_eq : ∀ i, fs.names path = some i → fs'.data i = fs.data i

lemma Untouched.refl (path : Path) (fs : FileSystem) : Untouched path fs fs := ⟨rfl, fun _ _ => rfl⟩

lemma Untouched.trans {path : Path} {fs fs' fs'' : FileSystem} (h : Untouched path fs fs')
    (h' : Untouched path fs' fs'') : Untouched path fs fs'' :=
  ⟨h'.names_eq.trans h.names_eq, fun i hi =>
    (h'.data_eq i (h.names_eq.trans hi)).trans (h.data_eq i hi)⟩

lemma Untouched.view_eq {path : Path} {fs fs' : FileSystem} (h : Untouched path fs fs') :
    fs'.view path = fs.view path := by
  rw [FileSystem.view, FileSystem.view, h.names_eq]
  cases hname : fs.names path with
  | none => rfl
  | some i => rw [Option.map_some, Option.map_some, h.data_eq i hname]

/-- What happens elsewhere in the directory does not matter. -/
lemma Mirrors.untouched {w' : World} {s : ReceiverSession} {fs fs' : FileSystem}
    (h : Mirrors ⟨s, fs⟩ w') (huntouched : s.started = true → Untouched s.tempPath fs fs')
    (hverdict : s.Verdict)
    (hopen : ∀ fd, s.file = some fd → s.finished = false ∧ s.started = true) :
    Mirrors ⟨s, fs'⟩ w' := by
  refine ⟨h.same, ?_, fun hstarted hpublished => ?_⟩
  · have hfile := h.file
    dsimp only at hfile ⊢
    generalize hs : s.file = file at hfile
    generalize w'.session.file = file' at hfile
    cases hfile with
    | closed => exact .closed
    | opened fd fd' hdata hname hname' =>
        obtain ⟨hfinished, hstarted⟩ := hopen fd hs
        have hlink := hname (hverdict.of_unfinished hfinished).2
        exact .opened fd fd' (((huntouched hstarted).data_eq fd hlink).trans hdata)
          (fun _ => (huntouched hstarted).names_eq.trans hlink) hname'
  · exact (huntouched hstarted).view_eq.trans (h.temp hstarted hpublished)

/-- A file `path` leads to now, it led to before, or the file is new. -/
structure Grows (path : Path) (fs fs' : FileSystem) : Prop where
  names : ∀ i, fs'.names path = some i → fs.names path = some i ∨ fs.next ≤ i
  next_le : fs.next ≤ fs'.next

lemma Untouched.grows {path : Path} {fs fs' : FileSystem} (h : Untouched path fs fs')
    (hnext : fs.next ≤ fs'.next) : Grows path fs fs' :=
  ⟨fun _ hi => Or.inl (h.names_eq ▸ hi), hnext⟩

lemma Grows.trans {path : Path} {fs fs' fs'' : FileSystem} (h : Grows path fs fs')
    (h' : Grows path fs' fs'') : Grows path fs fs'' where
  names i hi := by
    rcases h'.names i hi with hold | hnew
    · exact h.names i hold
    · exact Or.inr (h.next_le.trans hnew)
  next_le := h.next_le.trans h'.next_le

/-- A destructor only ever takes a name away. -/
lemma ReceiverSession.destroy_grows (r : ReceiverSession) (path : Path) (fs : FileSystem) :
    Grows path fs (r.destroy fs) := by
  rw [ReceiverSession.destroy]
  split_ifs
  · refine ⟨fun i hi => Or.inl ?_, le_rfl⟩
    by_cases hpath : path = r.tempPath
    · simp [hpath] at hi
    · rwa [fs.unlink_names_of_ne hpath] at hi
  · exact (Untouched.refl path fs).grows le_rfl

/-- A session of the directory that has nothing to do with `path`. -/
structure Stranger (directory path : Path) (fs : FileSystem) (r : ReceiverSession) : Prop where
  directory_eq : r.outputDirectory = directory
  temp_ne : r.tempPath ≠ path
  output_ne : r.outputPath ≠ path
  file_ne : ∀ i, fs.names path = some i → r.file ≠ some i
  file_lt : ∀ i, r.file = some i → i < fs.next

namespace Stranger

variable {directory path : Path} {fs fs' : FileSystem} {r : ReceiverSession}

lemma grow (h : Stranger directory path fs r) (hgrows : Grows path fs fs') :
    Stranger directory path fs' r where
  directory_eq := h.directory_eq
  temp_ne := h.temp_ne
  output_ne := h.output_ne
  file_ne i hi hfile := by
    rcases hgrows.names i hi with hold | hnew
    · exact h.file_ne i hold hfile
    · exact absurd (h.file_lt i hfile) (not_lt.mpr hnew)
  file_lt i hi := lt_of_lt_of_le (h.file_lt i hi) hgrows.next_le

lemma sameFiles {t : ReceiverSession} (h : Stranger directory path fs r) (ht : SameFiles r t) :
    Stranger directory path fs t where
  directory_eq := ht.directory.trans h.directory_eq
  temp_ne := ht.temp ▸ h.temp_ne
  output_ne := ht.output ▸ h.output_ne
  file_ne := ht.file ▸ h.file_ne
  file_lt := ht.file ▸ h.file_lt

lemma closeFile (h : Stranger directory path fs r) : Stranger directory path fs r.closeFile where
  directory_eq := h.directory_eq
  temp_ne := h.temp_ne
  output_ne := h.output_ne
  file_ne _ _ hfile := by simp [ReceiverSession.closeFile] at hfile
  file_lt _ hfile := by simp [ReceiverSession.closeFile] at hfile

lemma destroy (h : Stranger directory path fs r) : Untouched path fs (r.destroy fs) := by
  rw [ReceiverSession.destroy]
  split_ifs
  · exact ⟨fs.unlink_names_of_ne h.temp_ne.symm, fun _ _ => rfl⟩
  · exact Untouched.refl path fs

/-- **The frame rule.**  A stranger stays a stranger and leaves `path` alone, provided a START that
opens a file for it asks for other names. -/
lemma onDisk {packet : Packet} {t : ReceiverSession} (h : Stranger directory path fs r)
    (hname : r.Opening packet → ∀ name, sanitizeFilename packet.payload = (.none, name) →
      joinPath directory (tempName packet.header.sessionId) ≠ path ∧
        joinPath directory name ≠ path)
    (hdisk : OnDisk r fs packet t fs') :
    Untouched path fs fs' ∧ fs.next ≤ fs'.next ∧ Stranger directory path fs' t := by
  have hnamed : r.Opening packet → ∀ name, sanitizeFilename packet.payload = (.none, name) →
      (r.named packet name).tempPath ≠ path ∧ (r.named packet name).outputPath ≠ path := by
    intro hopen name hgood
    rw [← h.directory_eq] at hname
    exact hname hopen name hgood
  cases hdisk with
  | untouched h' => exact ⟨.refl path fs, le_rfl, h.sameFiles h'⟩
  | written _ h' hnames hnext hdata =>
      have huntouched : Untouched path fs fs' :=
        ⟨by rw [hnames], fun i hi => hdata i (h.file_ne i hi)⟩
      exact ⟨huntouched, hnext.ge, (h.sameFiles h').grow (huntouched.grows hnext.ge)⟩
  | unopened name hopen hgood h' =>
      obtain ⟨htemp, houtput⟩ := hnamed hopen name hgood
      refine ⟨.refl path fs, le_rfl, h'.directory.trans h.directory_eq, ?_, ?_, ?_, ?_⟩
      · rw [h'.temp]
        exact htemp
      · rw [h'.output]
        exact houtput
      · simp [h'.file]
      · simp [h'.file]
  | opened name _ fd ok hopen hgood h' hio =>
      obtain ⟨htemp, houtput⟩ := hnamed hopen name hgood
      obtain ⟨hlink, hnames, -, hdata, hfd, hnext, hlt⟩ := FileSystem.openWrite_some hio
      -- the descriptor is of the stranger's own path, or new; in neither case of `path`
      have hother : ∀ i, fs.names path = some i → i ≠ fd := by
        rintro i hi rfl
        rcases hfd with hold | ⟨-, hnew⟩
        · exact htemp (fs.names_inj _ _ _ hold hi)
        · exact absurd (fs.names_lt _ _ hi) (by omega)
      have huntouched : Untouched path fs fs' :=
        ⟨hnames path htemp.symm, fun i hi => hdata i (hother i hi)⟩
      refine ⟨huntouched, hnext, h'.directory.trans h.directory_eq, ?_, ?_, ?_, ?_⟩
      · rw [h'.temp]
        exact htemp
      · rw [h'.output]
        exact houtput
      · intro i hi hfile
        rw [h'.file] at hfile
        exact hother i (huntouched.names_eq ▸ hi) (Option.some.inj hfile).symm
      · intro i hfile
        rw [h'.file] at hfile
        exact Option.some.inj hfile ▸ hlt
  | renamed _ ok hlive h' hrename =>
      obtain ⟨i, -, -, -, hnames, hdata, hnext⟩ := FileSystem.rename_true hrename
      have huntouched : Untouched path fs fs' :=
        ⟨hnames path h.temp_ne.symm h.output_ne.symm, fun i _ => by rw [hdata]⟩
      exact ⟨huntouched, hnext.ge, (h.sameFiles h').grow (huntouched.grows hnext.ge)⟩

end Stranger

namespace OnDisk

variable {s t : ReceiverSession} {fs fs' : FileSystem} {packet : Packet} {path : Path}

/-- Only the START that opens a session says where its files are. -/
lemma files (h : OnDisk s fs packet t fs') :
    SameFiles s t ∨ ∃ name, s.Opening packet ∧ sanitizeFilename packet.payload = (.none, name) ∧
      t.outputDirectory = s.outputDirectory ∧ t.tempPath = (s.named packet name).tempPath ∧
      t.outputPath = (s.named packet name).outputPath := by
  cases h with
  | untouched h' => exact Or.inl h'
  | written _ h' => exact Or.inl h'
  | renamed _ ok _ h' => exact Or.inl h'
  | unopened name hopen hgood h' =>
      exact Or.inr ⟨name, hopen, hgood, h'.directory, h'.temp, h'.output⟩
  | opened name _ fd ok hopen hgood h' =>
      exact Or.inr ⟨name, hopen, hgood, h'.directory, h'.temp, h'.output⟩

lemma directory_eq (h : OnDisk s fs packet t fs') : t.outputDirectory = s.outputDirectory := by
  rcases h.files with hsame | ⟨name, -, -, hdirectory, -⟩
  · exact hsame.directory
  · exact hdirectory

/-- Only a session that has started has a file open. -/
lemma started_of_file (h : OnDisk s fs packet t fs')
    (hold : ∀ fd, s.file = some fd → s.started = true) {fd : ℕ} (hfile : t.file = some fd) :
    t.started = true := by
  cases h with
  | untouched h' => exact h'.started.trans (hold fd (h'.file ▸ hfile))
  | written _ h' => exact h'.started.trans (hold fd (h'.file ▸ hfile))
  | unopened name _ _ h' => exact absurd (h'.file.symm.trans hfile) (by simp)
  | opened name _ _ ok _ _ h' => exact h'.started
  | renamed _ ok _ h' => exact h'.started.trans (hold fd (h'.file ▸ hfile))

lemma temp_eq (h : OnDisk s fs packet t fs') (htemp : s.started = true → s.tempPath = path)
    (hnamed : s.Opening packet → ∀ name, sanitizeFilename packet.payload = (.none, name) →
      (s.named packet name).tempPath = path) (hstarted : t.started = true) :
    t.tempPath = path := by
  rcases h.files with hsame | ⟨name, hopen, hgood, -, hpath, -⟩
  · exact hsame.temp.trans (htemp (hsame.started ▸ hstarted))
  · exact hpath.trans (hnamed hopen name hgood)

/-- **A session on its own path** never makes it lead to a file somebody else may have open. -/
lemma grows (h : OnDisk s fs packet t fs') (htemp : s.started = true → s.tempPath = path)
    (hnamed : s.Opening packet → ∀ name, sanitizeFilename packet.payload = (.none, name) →
      (s.named packet name).tempPath = path) : Grows path fs fs' := by
  cases h with
  | untouched => exact (Untouched.refl path fs).grows le_rfl
  | unopened => exact (Untouched.refl path fs).grows le_rfl
  | written _ h' hnames hnext => exact ⟨fun i hi => Or.inl (hnames ▸ hi), hnext.ge⟩
  | opened name _ fd ok hopen hgood h' hio =>
      rw [hnamed hopen name hgood] at hio
      obtain ⟨hlink, -, -, -, hfd, hnext, -⟩ := FileSystem.openWrite_some hio
      refine ⟨fun i hi => ?_, hnext⟩
      obtain rfl : i = fd := Option.some.inj (hi.symm.trans hlink)
      rcases hfd with hold | ⟨-, rfl⟩
      · exact Or.inl hold
      · exact Or.inr le_rfl
  | renamed _ ok hlive h' hrename =>
      obtain ⟨j, hsrc, hdst, hgone, -, -, hnext⟩ := FileSystem.rename_true hrename
      rw [htemp hlive.started] at hsrc hgone
      refine ⟨fun i hi => Or.inl ?_, hnext.ge⟩
      by_cases hself : path = s.outputPath
      · rw [hsrc, ← hi, hself, hdst]
      · simp [hgone hself] at hi

end OnDisk

end SwiftLink
