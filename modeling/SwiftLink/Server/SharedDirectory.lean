import SwiftLink.Server.Directory
import SwiftLink.Transfer.Publication

/-!
# Sessions that share a directory

A session writes under a name made from its session id and publishes under the name its peer asked
for.  Two sessions may ask for the same name: each still writes to its own file, so what it answers
and what its file holds are what they would be if the other were not there, and the name they both
want changes only when one of them renames a finished file over it.

The rule is stated for any family of sessions, handed packets and destroyed in any order.
-/

namespace SwiftLink

open ByteFile

/-! ## The names a session asks for -/

/-- What an acceptable START asks for. -/
structure Advert where
  sessionId : BitVec 64
  name : Bytes
  deriving Repr, DecidableEq

namespace Advert

def tempPath (a : Advert) (directory : Path) : Path := joinPath directory (tempName a.sessionId)

def outputPath (a : Advert) (directory : Path) : Path := joinPath directory a.name

end Advert

/-- `none` for a packet that is no START, and for a START `sanitize_filename` rejects. -/
def Packet.advert (packet : Packet) : Option Advert :=
  if packet.header.packetType = .start then
    match sanitizeFilename packet.payload with
    | (.none, name) => some ⟨packet.header.sessionId, name⟩
    | (_, _) => none
  else none

def firstPacket (events : List SessionEvent) : Option Packet :=
  events.findSome? fun
    | .packet packet _ => some packet
    | .closeFile => none

/-- A session has its id and its names from the first packet it is handed. -/
def opening (events : List SessionEvent) : Option Advert := (firstPacket events).bind Packet.advert

lemma firstPacket_packet {events : List SessionEvent} (h : firstPacket events = none)
    (packet : Packet) (io : IoEnv) :
    firstPacket (events ++ [.packet packet io]) = some packet := by
  rw [firstPacket, List.findSome?_append, ← firstPacket, h]
  rfl

lemma firstPacket_closeFile (events : List SessionEvent) :
    firstPacket (events ++ [.closeFile]) = firstPacket events := by
  rw [firstPacket, List.findSome?_append, ← firstPacket]
  exact Option.or_none

lemma opening_append {events : List SessionEvent} {a : Advert} (h : a ∈ opening events)
    (later : List SessionEvent) : a ∈ opening (events ++ later) := by
  rw [opening] at h ⊢
  obtain ⟨packet, hpacket, hadvert⟩ := Option.bind_eq_some_iff.mp h
  have hsame : firstPacket (events ++ later) = some packet := by
    rw [firstPacket, List.findSome?_append, ← firstPacket, hpacket]
    rfl
  rw [hsame]
  exact hadvert

lemma ReceiverSession.Opening.advert_eq {s : ReceiverSession} {packet : Packet}
    (h : s.Opening packet) {name : Bytes}
    (hname : sanitizeFilename packet.payload = (.none, name)) :
    packet.advert = some ⟨packet.header.sessionId, name⟩ := by
  rw [Packet.advert, if_pos h.packetType, hname]

/-- A packet starts a session or settles it, if the session is not already under way. -/
lemma ReceiverSession.Handles.under_way {s : ReceiverSession} {fs : FileSystem} {packet : Packet}
    {io : IoEnv} {handled : Handled} (h : s.Handles fs packet io handled) :
    handled.session.started = true ∨ handled.session.finished = true := by
  cases h with
  | replayed stats hreplay =>
      simp only [ReceiverSession.replays, Bool.and_eq_true] at hreplay
      exact Or.inr hreplay.1.1.1
  | ignored stats _ hwhy =>
      rcases hwhy with hfinished | ⟨hlive, -⟩
      · exact Or.inr hfinished
      · exact Or.inl hlive.started
  | restarted stats hlive => exact Or.inl hlive.started
  | duplicate stats hlive => exact Or.inl hlive.started
  | outside stats hlive => exact Or.inl hlive.started
  | opened => exact Or.inl rfl
  | stored stats fs' hfits => exact Or.inl hfits.started
  | strayed => exact Or.inr rfl
  | misnamed => exact Or.inr rfl
  | openFailed => exact Or.inr rfl
  | oversized => exact Or.inr rfl
  | writeFailed => exact Or.inr rfl
  | finFailed => exact Or.inr rfl
  | published => exact Or.inr rfl

/-- Where a session that was handed `events` keeps its files. -/
structure Placed (directory : Path) (events : List SessionEvent) (s : ReceiverSession) : Prop where
  directory_eq : s.outputDirectory = directory
  under_way : s.started = false → s.finished = false → firstPacket events = none
  paths : (s.tempPath = [] ∧ s.outputPath = []) ∨ ∃ a ∈ opening events,
    s.tempPath = a.tempPath directory ∧ s.outputPath = a.outputPath directory
  named : s.started = true → s.tempPath ≠ []
  file_started : ∀ fd, s.file = some fd → s.started = true

namespace Placed

variable {directory : Path} {events : List SessionEvent} {s t : ReceiverSession}
  {fs fs' : FileSystem} {packet : Packet} {io : IoEnv}

lemma init (windowCapacity : BitVec 32) (directory : Path) :
    Placed directory [] (ReceiverSession.init windowCapacity directory) where
  directory_eq := rfl
  under_way _ _ := rfl
  paths := Or.inl ⟨rfl, rfl⟩
  named h := by simp [ReceiverSession.init] at h
  file_started fd h := by simp [ReceiverSession.init] at h

lemma closeFile (h : Placed directory events s) :
    Placed directory (events ++ [.closeFile]) s.closeFile where
  directory_eq := h.directory_eq
  under_way hstarted hfinished := by
    rw [firstPacket_closeFile]
    exact h.under_way hstarted hfinished
  paths := by
    rcases h.paths with hnone | ⟨a, ha, hpaths⟩
    · exact Or.inl hnone
    · exact Or.inr ⟨a, opening_append ha _, hpaths⟩
  named := h.named
  file_started fd hfd := by simp [ReceiverSession.closeFile] at hfd

/-- The START that opens a session is the first packet it was handed. -/
lemma opening_eq (h : Placed directory events s) (hopen : s.Opening packet) {name : Bytes}
    (hname : sanitizeFilename packet.payload = (.none, name)) (io : IoEnv) :
    opening (events ++ [.packet packet io]) = some ⟨packet.header.sessionId, name⟩ := by
  rw [opening, firstPacket_packet (h.under_way hopen.started hopen.finished)]
  exact hopen.advert_eq hname

/-- **A packet keeps the session's files where its first START put them.** -/
lemma handles {handled : Handled} (h : Placed directory events s)
    (hstep : s.Handles fs packet io handled) :
    Placed directory (events ++ [.packet packet io]) handled.session where
  directory_eq := hstep.onDisk.directory_eq.trans h.directory_eq
  under_way hstarted hfinished := by
    rcases hstep.under_way with hs | hf
    · simp [hs] at hstarted
    · simp [hf] at hfinished
  paths := by
    rcases hstep.onDisk.files with hsame | ⟨name, hopen, hname, -, htemp, houtput⟩
    · rw [hsame.temp, hsame.output]
      rcases h.paths with hnone | ⟨a, ha, hpaths⟩
      · exact Or.inl hnone
      · exact Or.inr ⟨a, opening_append ha _, hpaths⟩
    · refine Or.inr ⟨_, h.opening_eq hopen hname io, htemp.trans ?_, houtput.trans ?_⟩
      all_goals
        rw [← h.directory_eq]
        rfl
  named hstarted := by
    rcases hstep.onDisk.files with hsame | ⟨name, -, -, -, htemp, -⟩
    · rw [hsame.temp]
      exact h.named (hsame.started ▸ hstarted)
    · rw [htemp]
      exact joinPath_tempName_ne_nil _ _
  file_started _ hfd := hstep.onDisk.started_of_file h.file_started hfd

/-- A started session is on the path it advertised. -/
lemma tempPath_eq (h : Placed directory events s) {adverts : Option Advert} {a : Advert}
    (hopening : ∀ b ∈ opening events, b ∈ adverts) (ha : a ∈ adverts)
    (htemp : s.tempPath ≠ []) : s.tempPath = a.tempPath directory := by
  rcases h.paths with ⟨hnone, -⟩ | ⟨b, hb, hpath, -⟩
  · exact absurd hnone htemp
  · obtain rfl : b = a := Option.mem_unique (hopening b hb) ha
    exact hpath

end Placed

/-! ## One session in two directories, settled or not -/

namespace ReceiverSession

variable {s : ReceiverSession} {fs fs' : FileSystem} {packet : Packet} {io : IoEnv}
  {handled : Handled}

/-- A settled session does not look at its file. -/
lemma handlePacket_file (h : s.finished = true) (file : Option ℕ) (fs fs' : FileSystem)
    (packet : Packet) (io : IoEnv) :
    ({ s with file := file }.handlePacket fs' packet io).session
        = { (s.handlePacket fs packet io).session with file := file } ∧
      ({ s with file := file }.handlePacket fs' packet io).reply
        = (s.handlePacket fs packet io).reply := by
  have hreplays : ∀ stats, { s with file := file, stats := stats }.replays packet.header
      = { s with stats := stats }.replays packet.header := fun _ => rfl
  simp only [handlePacket, hreplays]
  split_ifs
  · exact ⟨rfl, rfl⟩
  · exact ⟨rfl, rfl⟩

/-- Until it starts, a session leaves the directory as it is. -/
lemma Handles.fs_of_unstarted (h : s.Handles fs packet io handled)
    (hstarted : handled.session.started = false) : handled.fs = fs := by
  cases h with
  | opened => simp at hstarted
  | writeFailed stats fs' written hfits =>
      have : s.started = false := hstarted
      simp [hfits.started] at this
  | stored stats fs' hfits =>
      have : s.started = false := hstarted
      simp [hfits.started] at this
  | published stats fs' hlive =>
      have : s.started = false := hstarted
      simp [hlive.started] at this
  | replayed => rfl
  | ignored => rfl
  | restarted => rfl
  | duplicate => rfl
  | outside => rfl
  | strayed => rfl
  | misnamed => rfl
  | openFailed => rfl
  | oversized => rfl
  | finFailed => rfl

/-- **Until it publishes**, a session changes no name but its temporary one, and no file but the
one it has open. -/
lemma Handles.elsewhere {path : Path} (h : s.Handles fs packet io handled)
    (hfile : ∀ fd, s.file = some fd → fs.names path ≠ some fd)
    (hname : s.Opening packet → ∀ name, sanitizeFilename packet.payload = (.none, name) →
      (s.named packet name).tempPath ≠ path)
    (hpublished : handled.session.published = false) : Untouched path fs handled.fs := by
  have hwrite : ∀ {fs' written}, fs.writeFile s.file io.write packet.payload
      packet.header.byteOffset.toNat = (fs', written) → Untouched path fs fs' := by
    intro fs' written hwrite
    obtain ⟨hnames, -, hdata, -⟩ := FileSystem.writeFile_spec hwrite
    exact ⟨by rw [hnames], fun i hi => hdata i fun hfd => hfile i hfd hi⟩
  cases h with
  | opened stats name fs' fd hopen hgood hio =>
      have htemp := hname hopen name hgood
      obtain ⟨-, hnames, -, hdata, hfd, -⟩ := FileSystem.openWrite_some hio
      refine ⟨hnames path htemp.symm, fun i hi => hdata i ?_⟩
      rintro rfl
      rcases hfd with hold | ⟨-, hnew⟩
      · exact htemp (fs.names_inj _ _ _ hold hi)
      · exact absurd (fs.names_lt _ _ hi) (by omega)
  | writeFailed stats fs' written _ hw => exact hwrite hw
  | stored stats fs' _ hw => exact hwrite hw
  | published => simp at hpublished
  | replayed => exact .refl path fs
  | ignored => exact .refl path fs
  | restarted => exact .refl path fs
  | duplicate => exact .refl path fs
  | outside => exact .refl path fs
  | strayed => exact .refl path fs
  | misnamed => exact .refl path fs
  | openFailed => exact .refl path fs
  | oversized => exact .refl path fs
  | finFailed => exact .refl path fs

end ReceiverSession

/-- The file a session has open is under its temporary name until it publishes. -/
lemma Mirrors.linked {w w' : World} (h : Mirrors w w') (hpublished : w.session.published = false)
    {fd : ℕ} (hfile : w.session.file = some fd) : w.fs.names w.session.tempPath = some fd := by
  have hsame := h.file
  rw [hfile] at hsame
  generalize w'.session.file = file' at hsame
  cases hsame with
  | opened _ fd' _ hname => exact hname hpublished

/-- Publishing takes the temporary name away. -/
lemma World.Publishes.view_tempPath {w : World} {packet : Packet} {io : IoEnv}
    (h : w.Publishes packet io) (hne : w.session.tempPath ≠ w.session.outputPath) :
    (w.next (.packet packet io)).fs.view w.session.tempPath = none := by
  obtain ⟨i, -, -, hgone, -⟩ := FileSystem.rename_true h.rename
  rw [FileSystem.view, hgone hne]
  rfl

/-- One session in two directories.  Once it has settled its file no longer matters. -/
structure Twin (w w' : World) : Prop where
  same : w'.session = { w.session with file := w'.session.file }
  mirrors : w.session.finished = false → Mirrors w w'

lemma Mirrors.twin {w w' : World} (h : Mirrors w w') : Twin w w' := ⟨h.same, fun _ => h⟩

namespace Twin

variable {w w' : World}

/-- **What is done to a session is done alike to its twin**, with the same answer. -/
lemma next (h : Twin w w') (hverdict : w.session.Verdict) (e : SessionEvent) :
    Twin (w.next e) (w'.next e) ∧ w.reply e = w'.reply e := by
  cases hfinished : w.session.finished with
  | false =>
      cases e with
      | packet packet io =>
          obtain ⟨hmirrors, hreply, -⟩ := (h.mirrors hfinished).next hverdict packet io
          exact ⟨hmirrors.twin, hreply⟩
      | closeFile => exact ⟨(h.mirrors hfinished).closeFile.twin, rfl⟩
  | true =>
      obtain ⟨s, fs⟩ := w
      obtain ⟨s', fs'⟩ := w'
      obtain ⟨file, rfl⟩ : ∃ file, s' = { s with file := file } := ⟨s'.file, h.same⟩
      cases e with
      | packet packet io =>
          obtain ⟨hsession, hreply⟩ :=
            ReceiverSession.handlePacket_file hfinished file fs fs' packet io
          obtain ⟨stats, hstep⟩ := World.next_of_finished hfinished packet io
          refine ⟨⟨?_, fun hnot => ?_⟩, hreply.symm⟩
          · simp only [World.next]
            rw [hsession]
          · rw [hstep] at hnot
            exact absurd (hfinished.symm.trans hnot) (by simp)
      | closeFile =>
          exact ⟨⟨rfl, fun hnot => absurd (hfinished.symm.trans hnot) (by simp)⟩, rfl⟩

/-- What happens elsewhere in the directory does not matter to the pair. -/
lemma untouched {s : ReceiverSession} {fs fs' : FileSystem} (h : Twin ⟨s, fs⟩ w')
    (hverdict : s.Verdict) (hstarted : ∀ fd, s.file = some fd → s.started = true)
    (huntouched : s.started = true → Untouched s.tempPath fs fs') : Twin ⟨s, fs'⟩ w' where
  same := h.same
  mirrors hfinished := by
    refine (h.mirrors hfinished).untouched huntouched hverdict fun fd hfd => ?_
    exact ⟨hfinished, hstarted fd hfd⟩

/-- **The temporary path holds the same in both directories**, after a packet as before it. -/
lemma view_next {path : Path} (h : Twin w w') (hverdict : w.session.Verdict) (packet : Packet)
    (io : IoEnv) (hview : w.fs.view path = w'.fs.view path)
    (hbefore : w.session.started = true → w.session.tempPath = path)
    (htemp : (w.next (.packet packet io)).session.started = true →
      (w.next (.packet packet io)).session.tempPath = path)
    (houtput : w.session.outputPath ≠ path) :
    (w.next (.packet packet io)).fs.view path = (w'.next (.packet packet io)).fs.view path := by
  have hsame : w'.session.finished = w.session.finished := by rw [h.same]
  cases hfinished : w.session.finished with
  | true =>
      obtain ⟨stats, hstep⟩ := World.next_of_finished hfinished packet io
      obtain ⟨stats', hstep'⟩ := World.next_of_finished (hsame.trans hfinished) packet io
      rw [hstep, hstep']
      exact hview
  | false =>
      have hmirrors := h.mirrors hfinished
      obtain ⟨hafter, -, -⟩ := hmirrors.next hverdict packet io
      have hpublished := (hverdict.of_unfinished hfinished).2
      have hstep := ReceiverSession.handlePacket_handles w.session w.fs packet io
      have hstep' := ReceiverSession.handlePacket_handles w'.session w'.fs packet io
      cases hpub : (w.next (.packet packet io)).session.published with
      | true =>
          -- the rename took the name away in both
          have hp : w.Publishes packet io := ⟨hpublished, hpub⟩
          have hp' : w'.Publishes packet io :=
            ⟨hmirrors.published_eq.trans hpublished, hafter.published_eq.trans hpub⟩
          obtain ⟨hlive, -⟩ := hstep.of_published hp.1 hp.2
          obtain rfl := hbefore hlive.started
          have hgone := hp.view_tempPath houtput.symm
          have hgone' := hp'.view_tempPath (by rw [h.same]; exact houtput.symm)
          rw [show w'.session.tempPath = w.session.tempPath by rw [h.same]] at hgone'
          rw [hgone, hgone']
      | false =>
          cases hstarted : (w.next (.packet packet io)).session.started with
          | true =>
              have := hafter.temp hstarted hpub
              rwa [htemp hstarted] at this
          | false =>
              have hstarted' : (w'.next (.packet packet io)).session.started = false := by
                rw [hafter.same]
                exact hstarted
              have hfs : (w.next (.packet packet io)).fs = w.fs := hstep.fs_of_unstarted hstarted
              have hfs' : (w'.next (.packet packet io)).fs = w'.fs :=
                hstep'.fs_of_unstarted hstarted'
              rw [hfs, hfs']
              exact hview

end Twin

/-! ## The family -/

/-- A packet for one of the sessions, its file released, or its end. -/
inductive SharedEvent (ι : Type)
  | give (i : ι) (e : SessionEvent)
  | destroy (i : ι)

/-- How the sessions were made, and the directory before any of them did anything. -/
structure SharedSetup (ι : Type) where
  windowCapacity : ι → BitVec 32
  outputDirectory : Path
  fs : FileSystem

/-- The session that runs alone. -/
def SharedSetup.alone {ι : Type} (setup : SharedSetup ι) (i : ι) : World :=
  World.init (setup.windowCapacity i) setup.outputDirectory setup.fs

/-- Sessions over one directory, `none` once destroyed, with what each was handed and answered. -/
structure Shared (ι : Type) where
  sessions : ι → Option ReceiverSession
  fs : FileSystem
  handed : ι → List SessionEvent
  answered : ι → List Reply

namespace Shared

variable {ι : Type}

def init (setup : SharedSetup ι) : Shared ι where
  sessions i := some (setup.alone i).session
  fs := setup.fs
  handed _ := []
  answered _ := []

/-- What the session leaves of the directory when it runs alone: it is handed the same, and
destroyed if it has been destroyed. -/
def aloneFs (setup : SharedSetup ι) (v : Shared ι) (i : ι) : FileSystem :=
  let w := (setup.alone i).run (v.handed i)
  if (v.sessions i).isSome then w.fs else w.session.destroy w.fs

/-- Session `i` has answered FIN_ACK, the name it advertised is `path`, and `content` is all it was
given up to then. -/
def HasPublished (setup : SharedSetup ι) (v : Shared ι) (i : ι) (path : Path) (content : Bytes) :
    Prop :=
  ∃ before fin io after, v.handed i = before ++ SessionEvent.packet fin io :: after ∧
    ((setup.alone i).run before).reply (.packet fin io) ∈ v.answered i ∧
    (((setup.alone i).run before).reply (.packet fin io)).IsFinAck ∧
    ((setup.alone i).run before).session.outputPath = path ∧
    content = writeAll 0 (((setup.alone i).accepted before).map Packet.toWrite)

variable [DecidableEq ι]

/-- Nothing can be done with a session that has been destroyed. -/
def next (v : Shared ι) : SharedEvent ι → Shared ι
  | .give i e =>
      match v.sessions i with
      | none => v
      | some s =>
          let w : World := ⟨s, v.fs⟩
          { sessions := Function.update v.sessions i (some (w.next e).session)
            fs := (w.next e).fs
            handed := Function.update v.handed i (v.handed i ++ [e])
            answered := Function.update v.answered i (v.answered i ++ [w.reply e]) }
  | .destroy i =>
      match v.sessions i with
      | none => v
      | some s =>
          { v with
            sessions := Function.update v.sessions i none
            fs := s.destroy v.fs }

def run (v : Shared ι) (events : List (SharedEvent ι)) : Shared ι := events.foldl next v

lemma run_concat (v : Shared ι) (events : List (SharedEvent ι)) (e : SharedEvent ι) :
    v.run (events ++ [e]) = (v.run events).next e := by
  simp [run]

lemma next_give {v : Shared ι} {i : ι} {s : ReceiverSession} (hs : v.sessions i = some s)
    (e : SessionEvent) :
    (v.next (.give i e)).sessions
        = Function.update v.sessions i (some (World.next ⟨s, v.fs⟩ e).session) ∧
      (v.next (.give i e)).fs = (World.next ⟨s, v.fs⟩ e).fs ∧
      (v.next (.give i e)).handed = Function.update v.handed i (v.handed i ++ [e]) ∧
      (v.next (.give i e)).answered
        = Function.update v.answered i (v.answered i ++ [World.reply ⟨s, v.fs⟩ e]) := by
  simp only [next, hs, and_self]

lemma next_destroy {v : Shared ι} {i : ι} {s : ReceiverSession} (hs : v.sessions i = some s) :
    (v.next (.destroy i)).sessions = Function.update v.sessions i none ∧
      (v.next (.destroy i)).fs = s.destroy v.fs ∧ (v.next (.destroy i)).handed = v.handed ∧
      (v.next (.destroy i)).answered = v.answered := by
  simp only [next, hs, and_self]

/-- Nothing happens to a session that is gone. -/
lemma next_gone {v : Shared ι} {i : ι} (hs : v.sessions i = none) :
    (∀ e, v.next (.give i e) = v) ∧ v.next (.destroy i) = v := by
  simp only [next, hs, implies_true, and_self]

/-- What was handed and what was answered stay so. -/
lemma next_log (v : Shared ι) (e : SharedEvent ι) (i : ι) :
    (∃ later, (v.next e).handed i = v.handed i ++ later) ∧
      ∃ later, (v.next e).answered i = v.answered i ++ later := by
  cases e with
  | give j e =>
      cases hs : v.sessions j with
      | none => exact ⟨⟨[], by simp [next, hs]⟩, [], by simp [next, hs]⟩
      | some s =>
          by_cases hij : i = j
          · subst hij
            exact ⟨⟨[e], by simp [next, hs]⟩, [World.reply ⟨s, v.fs⟩ e], by simp [next, hs]⟩
          · exact ⟨⟨[], by simp [next, hs, hij]⟩, [], by simp [next, hs, hij]⟩
  | destroy j =>
      cases hs : v.sessions j with
      | none => exact ⟨⟨[], by simp [next, hs]⟩, [], by simp [next, hs]⟩
      | some s => exact ⟨⟨[], by simp [next, hs]⟩, [], by simp [next, hs]⟩

lemma HasPublished.next {setup : SharedSetup ι} {v : Shared ι} {i : ι} {path : Path}
    {content : Bytes} (h : v.HasPublished setup i path content) (e : SharedEvent ι) :
    (v.next e).HasPublished setup i path content := by
  obtain ⟨before, fin, io, after, hhanded, hanswered, hrest⟩ := h
  obtain ⟨⟨later, hlater⟩, later', hlater'⟩ := v.next_log e i
  refine ⟨before, fin, io, after ++ later, ?_, ?_, hrest⟩
  · rw [hlater, hhanded, List.append_assoc, List.cons_append]
  · rw [hlater']
    exact List.mem_append_left _ hanswered

end Shared

/-- The ids are distinct, and no session publishes under a temporary name of the family. -/
structure Apart {ι : Type} (directory : Path) (adverts : ι → Option Advert) : Prop where
  sessionId_ne : ∀ i j, i ≠ j → ∀ a ∈ adverts i, ∀ b ∈ adverts j, a.sessionId ≠ b.sessionId
  outputPath_ne : ∀ i j, ∀ a ∈ adverts i, ∀ b ∈ adverts j,
    a.outputPath directory ≠ b.tempPath directory

lemma Apart.tempPath_ne {ι : Type} {directory : Path} {adverts : ι → Option Advert}
    (h : Apart directory adverts) {i j : ι} (hij : i ≠ j) {a b : Advert} (ha : a ∈ adverts i)
    (hb : b ∈ adverts j) : a.tempPath directory ≠ b.tempPath directory := by
  rw [Advert.tempPath, Advert.tempPath, ne_eq, joinPath_inj]
  exact fun heq => h.sessionId_ne i j hij a ha b hb (tempName_inj heq)

/-- What holds of a session of the family that was handed `events`. -/
structure Resident {ι : Type} (setup : SharedSetup ι) (adverts : ι → Option Advert)
    (fs : FileSystem) (i : ι) (events : List SessionEvent) (s : ReceiverSession) : Prop where
  placed : Placed setup.outputDirectory events s
  verdict : s.Verdict
  twin : Twin ⟨s, fs⟩ ((setup.alone i).run events)
  stranger : ∀ j, j ≠ i → ∀ a ∈ adverts j,
    Stranger setup.outputDirectory (a.tempPath setup.outputDirectory) fs s

namespace Resident

variable {ι : Type} {setup : SharedSetup ι} {adverts : ι → Option Advert} {fs fs' : FileSystem}
  {i : ι} {events : List SessionEvent} {s : ReceiverSession}

lemma init (setup : SharedSetup ι) (adverts : ι → Option Advert) (i : ι) :
    Resident setup adverts setup.fs i [] (setup.alone i).session where
  placed := Placed.init _ _
  verdict := ReceiverSession.init_verdict _ _
  twin := (Mirrors.init _ _ _ _).twin
  stranger j _ a _ :=
    { directory_eq := rfl
      temp_ne := (joinPath_tempName_ne_nil _ _).symm
      output_ne := (joinPath_tempName_ne_nil _ _).symm
      file_ne := fun _ _ h => by simp [SharedSetup.alone, World.init, ReceiverSession.init] at h
      file_lt := fun _ h => by simp [SharedSetup.alone, World.init, ReceiverSession.init] at h }

/-- A started session is on a path its family knows. -/
lemma exists_advert (h : Resident setup adverts fs i events s)
    (hopening : ∀ a ∈ opening events, a ∈ adverts i) (htemp : s.tempPath ≠ []) :
    ∃ a ∈ adverts i, s.tempPath = a.tempPath setup.outputDirectory := by
  rcases h.placed.paths with ⟨hnone, -⟩ | ⟨a, ha, hpath, -⟩
  · exact absurd hnone htemp
  · exact ⟨a, hopening a ha, hpath⟩

/-- **Another session's doing**: the rest of the directory may change, the session's own temporary
path may not. -/
lemma other (h : Resident setup adverts fs i events s)
    (hopening : ∀ a ∈ opening events, a ∈ adverts i)
    (huntouched : ∀ a ∈ adverts i, Untouched (a.tempPath setup.outputDirectory) fs fs')
    (hgrows : ∀ j, ∀ a ∈ adverts j, Grows (a.tempPath setup.outputDirectory) fs fs') :
    Resident setup adverts fs' i events s where
  placed := h.placed
  verdict := h.verdict
  twin := by
    refine h.twin.untouched h.verdict h.placed.file_started fun hstarted => ?_
    obtain ⟨a, ha, hpath⟩ := h.exists_advert hopening (h.placed.named hstarted)
    rw [hpath]
    exact huntouched a ha
  stranger j hj a ha := (h.stranger j hj a ha).grow (hgrows j a ha)

/-- **Its own doing**: the session stays what it was and leaves the temporary paths of the others
alone. -/
lemma give (h : Resident setup adverts fs i events s)
    (hapart : Apart setup.outputDirectory adverts) (e : SessionEvent)
    (hopening : ∀ a ∈ opening (events ++ [e]), a ∈ adverts i) :
    Resident setup adverts (World.next ⟨s, fs⟩ e).fs i (events ++ [e])
        (World.next ⟨s, fs⟩ e).session ∧
      (∀ j, j ≠ i → ∀ a ∈ adverts j,
        Untouched (a.tempPath setup.outputDirectory) fs (World.next ⟨s, fs⟩ e).fs) ∧
      ∀ j, ∀ a ∈ adverts j,
        Grows (a.tempPath setup.outputDirectory) fs (World.next ⟨s, fs⟩ e).fs := by
  obtain ⟨htwin, -⟩ := h.twin.next h.verdict e
  rw [← World.run_concat] at htwin
  cases e with
  | closeFile =>
      refine ⟨⟨h.placed.closeFile, h.verdict.closeFile, htwin, fun j hj a ha => ?_⟩, ?_, ?_⟩
      · exact (h.stranger j hj a ha).closeFile
      · exact fun j _ a _ => Untouched.refl _ _
      · exact fun j a _ => (Untouched.refl _ _).grows le_rfl
  | packet packet io =>
      have hstep := ReceiverSession.handlePacket_handles s fs packet io
      set w' := World.next ⟨s, fs⟩ (.packet packet io) with hw'
      have hdisk : OnDisk s fs packet w'.session w'.fs := hstep.onDisk
      have hadvert : s.Opening packet → ∀ name,
          sanitizeFilename packet.payload = (.none, name) →
            (⟨packet.header.sessionId, name⟩ : Advert) ∈ adverts i :=
        fun hopen name hname => hopening _ (h.placed.opening_eq hopen hname io)
      have hframe : ∀ j, j ≠ i → ∀ a ∈ adverts j,
          Untouched (a.tempPath setup.outputDirectory) fs w'.fs ∧ fs.next ≤ w'.fs.next ∧
            Stranger setup.outputDirectory (a.tempPath setup.outputDirectory) w'.fs
              w'.session := by
        intro j hj a ha
        refine (h.stranger j hj a ha).onDisk (fun hopen name hname => ?_) hdisk
        have hmem := hadvert hopen name hname
        have htemp := hapart.tempPath_ne hj.symm hmem ha
        have houtput := hapart.outputPath_ne i j _ hmem a ha
        exact ⟨htemp, houtput⟩
      refine ⟨⟨h.placed.handles hstep, h.verdict.handles hstep, htwin,
        fun j hj a ha => (hframe j hj a ha).2.2⟩, fun j hj a ha => (hframe j hj a ha).1,
        fun j a ha => ?_⟩
      by_cases hj : j = i
      · subst hj
        refine hdisk.grows (fun hstarted => ?_) fun hopen name hname => ?_
        · exact h.placed.tempPath_eq (fun b hb => hopening b (opening_append hb _)) ha
            (h.placed.named hstarted)
        · obtain rfl := Option.mem_unique (hadvert hopen name hname) ha
          rw [ReceiverSession.named, h.placed.directory_eq]
          rfl
      · exact (hframe j hj a ha).1.grows (hframe j hj a ha).2.1

/-- Its temporary path holds what it would hold if the session were alone. -/
lemma view_give (h : Resident setup adverts fs i events s)
    (hapart : Apart setup.outputDirectory adverts) (e : SessionEvent)
    (hopening : ∀ a ∈ opening (events ++ [e]), a ∈ adverts i) {a : Advert} (ha : a ∈ adverts i)
    (hview : fs.view (a.tempPath setup.outputDirectory)
      = ((setup.alone i).run events).fs.view (a.tempPath setup.outputDirectory)) :
    (World.next ⟨s, fs⟩ e).fs.view (a.tempPath setup.outputDirectory)
      = ((setup.alone i).run (events ++ [e])).fs.view (a.tempPath setup.outputDirectory) := by
  obtain ⟨hafter, -⟩ := h.give hapart e hopening
  have hopening' : ∀ b ∈ opening events, b ∈ adverts i :=
    fun b hb => hopening b (opening_append hb [e])
  rw [World.run_concat]
  cases e with
  | closeFile => exact hview
  | packet packet io =>
      refine h.twin.view_next h.verdict packet io hview (fun hstarted => ?_) (fun hstarted => ?_) ?_
      · exact h.placed.tempPath_eq hopening' ha (h.placed.named hstarted)
      · exact hafter.placed.tempPath_eq hopening ha (hafter.placed.named hstarted)
      · intro houtput
        rcases h.placed.paths with ⟨-, hnone⟩ | ⟨b, hb, -, hpath⟩
        · exact joinPath_tempName_ne_nil _ _ (houtput.symm.trans hnone)
        · exact hapart.outputPath_ne i i b (hopening' b hb) a ha (hpath.symm.trans houtput)

/-- Until it publishes, the session leaves every other name alone. -/
lemma elsewhere_unpublished (h : Resident setup adverts fs i events s) {packet : Packet}
    {io : IoEnv} (hopening : ∀ a ∈ opening (events ++ [.packet packet io]), a ∈ adverts i)
    {path : Path} (hpath : ∀ a ∈ adverts i, path ≠ a.tempPath setup.outputDirectory)
    (hfinished : s.finished = false)
    (hpublished : (World.next ⟨s, fs⟩ (.packet packet io)).session.published = false) :
    Untouched path fs (World.next ⟨s, fs⟩ (.packet packet io)).fs := by
  refine (ReceiverSession.handlePacket_handles s fs packet io).elsewhere
    (fun fd hfd hname => ?_) (fun hopen name hname => ?_) hpublished
  · -- its open file is under its temporary name, so not under `path`
    have htemp := h.placed.named (h.placed.file_started fd hfd)
    obtain ⟨a, ha, hself⟩ :=
      h.exists_advert (fun b hb => hopening b (opening_append hb _)) htemp
    have hlink := (h.twin.mirrors hfinished).linked (h.verdict.of_unfinished hfinished).2 hfd
    exact hpath a ha ((fs.names_inj _ _ _ hname hlink).trans hself)
  · intro heq
    have hmem := hopening _ (h.placed.opening_eq hopen hname io)
    rw [ReceiverSession.named, h.placed.directory_eq] at heq
    exact hpath _ hmem heq.symm

/-- **A name that is nobody's temporary name** changes only if the session publishes under it, and
then it holds what the session would have published alone. -/
lemma elsewhere_give (h : Resident setup adverts fs i events s) (e : SessionEvent)
    (hopening : ∀ a ∈ opening (events ++ [e]), a ∈ adverts i) {path : Path}
    (hpath : ∀ a ∈ adverts i, path ≠ a.tempPath setup.outputDirectory) :
    Untouched path fs (World.next ⟨s, fs⟩ e).fs ∨
      ∃ fin io, e = .packet fin io ∧ ((setup.alone i).run events).Publishes fin io ∧
        ((setup.alone i).run events).session.outputPath = path ∧
        (World.next ⟨s, fs⟩ e).fs.view path
          = ((setup.alone i).run events).publishedFile fin io := by
  cases e with
  | closeFile => exact Or.inl (.refl path fs)
  | packet packet io =>
      cases hfinished : s.finished with
      | true =>
          obtain ⟨stats, hstep⟩ := World.next_of_finished (w := ⟨s, fs⟩) hfinished packet io
          rw [hstep]
          exact Or.inl (.refl path fs)
      | false =>
          have hmirrors := h.twin.mirrors hfinished
          have hstep := ReceiverSession.handlePacket_handles s fs packet io
          have hfresh := (h.verdict.of_unfinished hfinished).2
          cases hpub : (World.next ⟨s, fs⟩ (.packet packet io)).session.published with
          | false => exact Or.inl (h.elsewhere_unpublished hopening hpath hfinished hpub)
          | true =>
              have hp : World.Publishes ⟨s, fs⟩ packet io := ⟨hfresh, hpub⟩
              obtain ⟨hafter, -, hfile⟩ := hmirrors.next h.verdict packet io
              obtain ⟨hlive, -, -, hrename, hout, -⟩ := hstep.of_published hp.1 hp.2
              by_cases houtput : s.outputPath = path
              · refine Or.inr ⟨packet, io, rfl, ?_, hmirrors.outputPath_eq.trans houtput, ?_⟩
                · exact ⟨hmirrors.published_eq.trans hfresh, hafter.published_eq.trans hpub⟩
                · have hfile' := hfile hfresh hpub
                  have hout' : (World.next ⟨s, fs⟩ (.packet packet io)).session.outputPath
                      = path := hout.trans houtput
                  rw [World.publishedFile, hafter.outputPath_eq, ← hfile', hout']
              · obtain ⟨-, -, -, -, hnames, hdata, -⟩ := FileSystem.rename_true hrename
                obtain ⟨a, ha, hself⟩ := h.exists_advert
                  (fun b hb => hopening b (opening_append hb _)) (h.placed.named hlive.started)
                exact Or.inl ⟨hnames path (hself ▸ hpath a ha) (Ne.symm houtput),
                  fun i _ => congrFun hdata i⟩

/-- **Its end**: it takes its own temporary name away and leaves every other name alone. -/
lemma destroy_untouched (h : Resident setup adverts fs i events s)
    (hopening : ∀ a ∈ opening events, a ∈ adverts i) {path : Path}
    (hpath : ∀ a ∈ adverts i, path ≠ a.tempPath setup.outputDirectory) :
    Untouched path fs (s.destroy fs) := by
  rw [ReceiverSession.destroy]
  split_ifs with hcond
  · obtain ⟨a, ha, htemp⟩ := h.exists_advert hopening hcond.2
    exact ⟨fs.unlink_names_of_ne (htemp ▸ hpath a ha), fun _ _ => rfl⟩
  · exact Untouched.refl path fs

/-- Alone or not, the destroyed session leaves the same under its temporary name. -/
lemma view_destroy (h : Resident setup adverts fs i events s)
    (hopening : ∀ a ∈ opening events, a ∈ adverts i) {a : Advert} (ha : a ∈ adverts i)
    (hview : fs.view (a.tempPath setup.outputDirectory)
      = ((setup.alone i).run events).fs.view (a.tempPath setup.outputDirectory)) :
    (s.destroy fs).view (a.tempPath setup.outputDirectory)
      = (((setup.alone i).run events).session.destroy ((setup.alone i).run events).fs).view
          (a.tempPath setup.outputDirectory) := by
  rw [ReceiverSession.destroy, ReceiverSession.destroy, h.twin.same]
  dsimp only
  split_ifs with hcond
  · rw [h.placed.tempPath_eq hopening ha hcond.2, FileSystem.view, FileSystem.view,
      FileSystem.unlink_names_self, FileSystem.unlink_names_self]
    rfl
  · exact hview

end Resident

/-- **What holds of the whole family**: every session is a resident, and every name is accounted
for. -/
structure Coexist {ι : Type} (setup : SharedSetup ι) (adverts : ι → Option Advert)
    (v : Shared ι) : Prop where
  resident : ∀ i s, v.sessions i = some s → Resident setup adverts v.fs i (v.handed i) s
  answered : ∀ i, v.answered i = (setup.alone i).replies (v.handed i)
  temp : ∀ i, ∀ a ∈ adverts i, v.fs.view (a.tempPath setup.outputDirectory)
    = (v.aloneFs setup i).view (a.tempPath setup.outputDirectory)
  content : ∀ path, (∀ i, ∀ a ∈ adverts i, path ≠ a.tempPath setup.outputDirectory) →
    v.fs.view path = setup.fs.view path ∨
      ∃ i content, v.HasPublished setup i path content ∧ v.fs.view path = some content

namespace Coexist

variable {ι : Type} {setup : SharedSetup ι} {adverts : ι → Option Advert} {v : Shared ι}

lemma init (setup : SharedSetup ι) (adverts : ι → Option Advert) :
    Coexist setup adverts (Shared.init setup) where
  resident i s hs := by
    obtain rfl : (setup.alone i).session = s := Option.some.inj hs
    exact Resident.init setup adverts i
  answered _ := rfl
  temp _ _ _ := rfl
  content _ _ := Or.inl rfl

variable [DecidableEq ι]

/-- **A step with one of the sessions.** -/
lemma give (h : Coexist setup adverts v) (hapart : Apart setup.outputDirectory adverts)
    {i : ι} {s : ReceiverSession} (hs : v.sessions i = some s) (e : SessionEvent)
    (hopening : ∀ j, ∀ a ∈ opening ((v.next (.give i e)).handed j), a ∈ adverts j) :
    Coexist setup adverts (v.next (.give i e)) := by
  have hresident := h.resident i s hs
  obtain ⟨-, hreply⟩ := hresident.twin.next hresident.verdict e
  obtain ⟨hsessions, hfs, hhanded, hanswered⟩ := Shared.next_give hs e
  have hown : ∀ a ∈ opening (v.handed i ++ [e]), a ∈ adverts i := by
    have := hopening i
    rwa [hhanded, Function.update_self] at this
  obtain ⟨hafter, huntouched, hgrows⟩ := hresident.give hapart e hown
  refine ⟨fun j t ht => ?_, fun j => ?_, fun j a ha => ?_, fun path hpath => ?_⟩
  · have hold := hopening j
    rw [hsessions] at ht
    rw [hhanded] at hold
    rw [hfs, hhanded]
    by_cases hj : j = i
    · subst hj
      rw [Function.update_self] at ht ⊢
      obtain rfl := Option.some.inj ht
      exact hafter
    · rw [Function.update_of_ne hj] at ht hold ⊢
      exact (h.resident j t ht).other hold (huntouched j hj) hgrows
  · rw [hanswered, hhanded]
    by_cases hj : j = i
    · subst hj
      rw [Function.update_self, Function.update_self, World.replies_append, h.answered j, hreply]
      rfl
    · rw [Function.update_of_ne hj, Function.update_of_ne hj]
      exact h.answered j
  · have hview := h.temp j a ha
    rw [Shared.aloneFs] at hview ⊢
    rw [hsessions, hhanded, hfs]
    by_cases hj : j = i
    · subst hj
      rw [hs, Option.isSome_some, if_pos rfl] at hview
      rw [Function.update_self, Function.update_self, Option.isSome_some, if_pos rfl]
      exact hresident.view_give hapart e hown ha hview
    · rw [Function.update_of_ne hj, Function.update_of_ne hj, (huntouched j hj a ha).view_eq]
      exact hview
  · rw [hfs]
    rcases hresident.elsewhere_give e hown (hpath i) with hsame | ⟨fin, io, rfl, hpub, hout, hfile⟩
    · rw [hsame.view_eq]
      rcases h.content path hpath with hold | ⟨j, content, hold, hcontent⟩
      · exact Or.inl hold
      · exact Or.inr ⟨j, content, hold.next _, hcontent⟩
    · obtain ⟨hcontent, -⟩ := World.published_content hpub
      refine Or.inr ⟨i, _, ⟨v.handed i, fin, io, [], ?_, ?_, hpub.isFinAck, hout, rfl⟩,
        hfile.trans hcontent⟩
      · rw [hhanded, Function.update_self]
      · rw [hanswered, Function.update_self, ← hreply]
        exact List.mem_append_right _ (List.mem_singleton_self _)

/-- **The end of one of the sessions.** -/
lemma destroy (h : Coexist setup adverts v) {i : ι} {s : ReceiverSession}
    (hs : v.sessions i = some s) (hopening : ∀ j, ∀ a ∈ opening (v.handed j), a ∈ adverts j) :
    Coexist setup adverts (v.next (.destroy i)) := by
  have hresident := h.resident i s hs
  obtain ⟨hsessions, hfs, hhanded, hanswered⟩ := Shared.next_destroy hs
  have huntouched : ∀ j, j ≠ i → ∀ a ∈ adverts j,
      Untouched (a.tempPath setup.outputDirectory) v.fs (s.destroy v.fs) :=
    fun j hj a ha => (hresident.stranger j hj a ha).destroy
  refine ⟨fun j t ht => ?_, fun j => ?_, fun j a ha => ?_, fun path hpath => ?_⟩
  · rw [hsessions] at ht
    rw [hfs, hhanded]
    have hj : j ≠ i := by
      rintro rfl
      simp at ht
    rw [Function.update_of_ne hj] at ht
    exact (h.resident j t ht).other (hopening j) (huntouched j hj)
      fun _ _ _ => s.destroy_grows _ _
  · rw [hanswered, hhanded]
    exact h.answered j
  · have hview := h.temp j a ha
    rw [Shared.aloneFs] at hview ⊢
    rw [hsessions, hhanded, hfs]
    by_cases hj : j = i
    · subst hj
      rw [hs, Option.isSome_some, if_pos rfl] at hview
      rw [Function.update_self, Option.isSome_none, if_neg (by simp)]
      exact hresident.view_destroy (hopening j) ha hview
    · rw [Function.update_of_ne hj, (huntouched j hj a ha).view_eq]
      exact hview
  · rw [hfs, (hresident.destroy_untouched (hopening i) (hpath i)).view_eq]
    rcases h.content path hpath with hold | ⟨j, content, hold, hcontent⟩
    · exact Or.inl hold
    · exact Or.inr ⟨j, content, hold.next _, hcontent⟩

/-- **Whatever is done, the family goes on coexisting.** -/
lemma next (h : Coexist setup adverts v) (hapart : Apart setup.outputDirectory adverts)
    (e : SharedEvent ι)
    (hopening : ∀ j, ∀ a ∈ opening ((v.next e).handed j), a ∈ adverts j) :
    Coexist setup adverts (v.next e) := by
  cases e with
  | give i e =>
      cases hs : v.sessions i with
      | none => rwa [(Shared.next_gone hs).1 e]
      | some s => exact h.give hapart hs e hopening
  | destroy i =>
      cases hs : v.sessions i with
      | none => rwa [(Shared.next_gone hs).2]
      | some s =>
          rw [(Shared.next_destroy hs).2.2.1] at hopening
          exact h.destroy hs hopening

lemma run (hapart : Apart setup.outputDirectory adverts) (events : List (SharedEvent ι))
    (hopening : ∀ i, ∀ a ∈ opening (((Shared.init setup).run events).handed i), a ∈ adverts i) :
    Coexist setup adverts ((Shared.init setup).run events) := by
  induction events using List.reverseRecOn with
  | nil => exact Coexist.init setup adverts
  | append_singleton events e ih =>
      rw [Shared.run_concat] at hopening ⊢
      refine (ih fun i a ha => hopening i a ?_).next hapart e hopening
      obtain ⟨⟨later, hlater⟩, -⟩ := ((Shared.init setup).run events).next_log e i
      rw [hlater]
      exact opening_append ha later

end Coexist

/-- **Sessions that share a directory do not disturb each other.**  Take any sessions over one
directory, two or more, that have distinct ids and publish under no temporary name of theirs, and
any order in which they are handed packets and destroyed.  Each answers as it would alone, ends with
the same error, and has the same bytes under its temporary name; and every name that is not one of
those, whoever asked for it, holds what it held before or all that one session was given, and that
session has answered FIN_ACK. -/
theorem shared_directory_independent {ι : Type} [DecidableEq ι] (setup : SharedSetup ι)
    (events : List (SharedEvent ι))
    (hapart : Apart setup.outputDirectory
      fun i => opening (((Shared.init setup).run events).handed i)) :
    let v := (Shared.init setup).run events
    (∀ i,
      v.answered i = (setup.alone i).replies (v.handed i) ∧
      (∀ s, v.sessions i = some s →
        s.error = ((setup.alone i).run (v.handed i)).session.error) ∧
      ∀ a ∈ opening (v.handed i), v.fs.view (a.tempPath setup.outputDirectory)
        = (v.aloneFs setup i).view (a.tempPath setup.outputDirectory)) ∧
    ∀ path, (∀ i, ∀ a ∈ opening (v.handed i), path ≠ a.tempPath setup.outputDirectory) →
      v.fs.view path = setup.fs.view path ∨
        ∃ i content, v.HasPublished setup i path content ∧ v.fs.view path = some content := by
  intro v
  have hcoexist := Coexist.run hapart events fun _ _ ha => ha
  refine ⟨fun i => ⟨hcoexist.answered i, fun s hs => ?_, hcoexist.temp i⟩, hcoexist.content⟩
  rw [(hcoexist.resident i s hs).twin.same]

/-- A sample packet under another session id. -/
def Packet.under (packet : Packet) (sessionId : BitVec 64) : Packet :=
  { packet with header.sessionId := sessionId }

/-- Two sessions ask for the name `f` and take turns; the first is destroyed before the second
has its FIN. -/
theorem shared_directory_independent_one_name :
    let setup : SharedSetup Bool := ⟨fun _ => 4, [], .empty⟩
    let events : List (SharedEvent Bool) :=
      [.give false (.packet (sampleStart 2) {}), .give true (.packet ((sampleStart 2).under 8) {}),
        .give false (.packet (sampleData 0 0 "aa" (by decide)) {}),
        .give true (.packet ((sampleData 0 0 "bb" (by decide)).under 8) {}),
        .give false (.packet (sampleFin 1 (asciiBytes "aa") 2) {}), .destroy false,
        .give true (.packet ((sampleFin 1 (asciiBytes "bb") 2).under 8) {})]
    let v := (Shared.init setup).run events
    Apart [] (fun i => opening (v.handed i)) ∧
      v.answered false = (setup.alone false).replies (v.handed false) ∧
      v.answered true = (setup.alone true).replies (v.handed true) := by
  intro setup events v
  have hapart : Apart [] (fun i => opening (v.handed i)) := by
    constructor
    · decide +kernel
    · decide +kernel
  have h := shared_directory_independent setup events hapart
  exact ⟨hapart, (h.1 false).1, (h.1 true).1⟩

end SwiftLink
