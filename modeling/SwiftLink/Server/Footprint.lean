import SwiftLink.Server.Admission
import SwiftLink.Server.Isolation
import SwiftLink.Transfer.Containment

/-!
# What the server leaves in its directory

A session writes to a temporary name, renames it when the file is complete, and its destructor
unlinks what was not renamed.  Seen from the directory, over any run and whatever fails except that
`unlink`:

* **`server_confined`**: a path that no START has asked for, neither as a temporary name nor as the
  name of a file, leads to the same bytes as before.
* **`nothing_left_behind`**: every name in the directory was there at the start, or a session has
  published under it, or it is the temporary name of a session in the table; at shutdown the
  temporary names are gone.

Both are inductions over the table, by one rule: `Server.next_keeps`.
-/

namespace SwiftLink

namespace Server

/-- **The induction rule for a table and its directory**: what is kept by erasing sessions, by
putting a new one in the table and by handing a packet to a session of the table, every event
keeps. -/
lemma next_keeps {I : Table SessionKey Session → FileSystem → Prop} {config : ServerConfig}
    {sv : Server} {e : ServerEvent}
    (herase : ∀ t fs p, I t fs → I (t.eraseIf p) (destroyAll (t.entries.filter p) fs))
    (hplace : ∀ t fs key now, t.find key = none → I t fs →
      I (t.emplace SessionKey.lt key (Session.init config key.peer now)) fs)
    (hhand : ∀ t fs key session session' packet io, e.packetFor key = some (packet, io) →
      (key, session) ∈ t.entries →
      Dispatched session (World.next ⟨session.receiver, fs⟩ (.packet packet io)) session' →
      (sv.next config e).sessions.find key = some session' →
      sv.hasPublished key = session.receiver.published → I t fs →
        I (t.set key session') (World.next ⟨session.receiver, fs⟩ (.packet packet io)).fs)
    (h : I sv.sessions sv.fs) : I (sv.next config e).sessions (sv.next config e).fs := by
  cases e with
  | sweep now => exact herase _ _ (fun e => e.2.stale config now) h
  | datagram peer bytes now later io =>
      have hreacts := onDatagram_reacts config sv peer bytes now later io
      rw [next] at hhand ⊢
      generalize sv.onDatagram config peer bytes now later io = result at hreacts hhand ⊢
      cases hreacts with
      | malformed => exact h
      | unknown => exact h
      | refused => exact h
      | known packet hpacket session hpresent =>
          have hmem := Table.find_eq_some_iff.mp hpresent
          obtain ⟨session', hd, hsessions, hfs, -⟩ :=
            sv.dispatch_spec (.ofPacket peer packet) session packet now later io
          rw [hsessions, hfs]
          exact hhand _ _ _ _ _ _ _ (ServerEvent.packetFor_own hpacket rfl) hmem hd
            (by rw [hsessions]; exact Table.find_set hmem)
            (by simp [hasPublished, hpresent]) h
      | opened packet hpacket habsent htype hroom =>
          have hmade : I (sv.makeRoom config).sessions (sv.makeRoom config).fs := by
            rw [makeRoom]
            split_ifs
            · exact herase _ _ _ h
            · exact h
          have habsent' := makeRoom_find_none config habsent
          have hmem := Table.mem_emplace_self SessionKey.lt habsent' (Session.init config peer now)
          obtain ⟨session', hd, hsessions, hfs, -⟩ :=
            dispatch_spec { sv.makeRoom config with
              sessions := (sv.makeRoom config).sessions.emplace SessionKey.lt
                (.ofPacket peer packet) (Session.init config peer now) }
              (.ofPacket peer packet) (Session.init config peer now) packet now later io
          rw [hsessions, hfs]
          exact hhand _ _ _ _ _ _ _ (ServerEvent.packetFor_own hpacket rfl) hmem hd
            (by rw [hsessions]; exact Table.find_set hmem)
            (by simp [hasPublished, habsent, Session.init, ReceiverSession.init])
            (hplace _ _ _ now habsent' hmade)

end Server

/-! ## What no START has asked for -/

/-- The event is a START that asks for `path`, as its temporary name or as the name of its file. -/
def ServerEvent.asks (directory path : Path) : ServerEvent → Bool
  | .datagram _ bytes _ _ _ =>
      match deserialize bytes with
      | .ok packet =>
          packet.header.packetType == .start &&
            (path == joinPath directory (tempName packet.header.sessionId) ||
              (sanitizeFilename packet.payload).1 == .none &&
                path == joinPath directory (sanitizeFilename packet.payload).2)
      | .error _ => false
  | .sweep _ => false

lemma ServerEvent.names_of_not_asks {key : SessionKey} {e : ServerEvent} {directory path : Path}
    {packet : Packet} {io : IoEnv} (hown : e.packetFor key = some (packet, io))
    (h : e.asks directory path = false) (htype : packet.header.packetType = .start) (name : Bytes)
    (hname : sanitizeFilename packet.payload = (.none, name)) :
    joinPath directory (tempName packet.header.sessionId) ≠ path ∧
      joinPath directory name ≠ path := by
  cases e with
  | sweep now => simp [packetFor] at hown
  | datagram peer bytes now later io' =>
      simp only [packetFor] at hown
      split at hown
      · next packet' hpacket =>
        split_ifs at hown with hkey
        obtain ⟨rfl, rfl⟩ := Prod.mk.inj (Option.some.inj hown)
        simp only [asks, hpacket, htype, hname, beq_self_eq_true, Bool.true_and,
          Bool.or_eq_false_iff, beq_eq_false_iff_ne, ne_eq] at h
        exact ⟨fun heq => h.1 heq.symm, fun heq => h.2 heq.symm⟩
      · simp at hown

/-- A temporary name passes the sanitiser's tests, so it too is a direct child of the directory. -/
lemma tempName_acceptable (sessionId : BitVec 64) :
    Acceptable (tempName sessionId) (tempName sessionId) := by
  have hpermitted : ∀ c ∈ tempName sessionId, isPermitted c = true := by
    have hdigit : ∀ c, isHexDigit c = true → isPermitted c = true := by decide
    have hends : (∀ c ∈ kTempHead, isPermitted c = true) ∧
        ∀ c ∈ kTempTail, isPermitted c = true := by
      decide
    intro c hc
    rw [tempName, List.mem_append, List.mem_append] at hc
    rcases hc with (hhead | hmiddle) | htail
    · exact hends.1 c hhead
    · exact hdigit c (isHexDigit_of_mem_hexFixed hmiddle)
    · exact hends.2 c htail
  have hprintable : ∀ c : Byte, isPermitted c = true → 0x20 ≤ c ∧ c ≠ 0x7F ∧ c ≠ separator := by
    decide
  have hlength : (tempName sessionId).length = 35 := by
    simp [tempName, kTempHead, kTempTail, asciiBytes]
  have hhead : (tempName sessionId).head? = some 0x2E := by
    simp [tempName, kTempHead, asciiBytes]
  refine ⟨fun hnil => ?_, fun c hc => ?_, LexicalPath.isLastPart_self fun hsep => ?_, ?_, ?_,
    fun hdot => ?_, fun hdots => ?_, ?_, fun c hc => (isPermitted_iff c).mp (hpermitted c hc)⟩
  · simp [hnil] at hlength
  · exact ⟨(hprintable c (hpermitted c hc)).1, (hprintable c (hpermitted c hc)).2.1⟩
  · exact (hprintable _ (hpermitted _ hsep)).2.2 rfl
  · omega
  · omega
  · simp [hdot, asciiBytes] at hlength
  · simp [hdots, asciiBytes] at hlength
  · rw [hhead]
    decide

/-- **What a START asks for is a direct child of the output directory.** -/
lemma ServerEvent.child_of_asks {e : ServerEvent} {directory path : Path} (hne : directory ≠ [])
    (h : e.asks directory path = true) :
    ∃ name, resolvePath path = resolvePath directory ++ [name] := by
  cases e with
  | sweep now => simp [asks] at h
  | datagram peer bytes now later io =>
      simp only [asks] at h
      split at h
      · next packet hpacket =>
        simp only [Bool.and_eq_true, Bool.or_eq_true, beq_iff_eq] at h
        obtain ⟨-, rfl | ⟨hgood, rfl⟩⟩ := h
        · exact ⟨_, (tempName_acceptable _).contained hne⟩
        · exact ⟨_, (sanitizeFilename_eq_none_iff.mp (Prod.ext hgood rfl)).contained hne⟩
      · simp at h

/-- **Nobody has to do with `path`**, and it leads where it led at the start. -/
structure OutOfReach (config : ServerConfig) (path : Path) (fs₀ : FileSystem)
    (sessions : Table SessionKey Session) (fs : FileSystem) : Prop where
  strangers : ∀ e ∈ sessions.entries, Stranger config.outputDirectory path fs e.2.receiver
  untouched : Untouched path fs₀ fs

namespace OutOfReach

variable {config : ServerConfig} {path : Path} {fs₀ fs : FileSystem}
  {t : Table SessionKey Session}

lemma eraseIf (h : OutOfReach config path fs₀ t fs) (p : SessionKey × Session → Bool) :
    OutOfReach config path fs₀ (t.eraseIf p) (Server.destroyAll (t.entries.filter p) fs) := by
  refine ⟨fun e he => ?_, h.untouched.trans ?_⟩
  · exact (h.strangers e (Table.mem_eraseIf.mp he).1).grow (Server.destroyAll_grows _ _ _)
  · exact Server.destroyAll_untouched config.outputDirectory
      fun e he => h.strangers e (List.mem_filter.mp he).1

lemma place (h : OutOfReach config path fs₀ t fs) (hpath : path ≠ []) {key : SessionKey}
    (habsent : t.find key = none) (now : TimePoint) :
    OutOfReach config path fs₀ (t.emplace SessionKey.lt key (Session.init config key.peer now))
      fs := by
  refine ⟨fun e he => ?_, h.untouched⟩
  rcases (Table.mem_emplace habsent).mp he with rfl | hold
  · refine ⟨rfl, hpath.symm, hpath.symm, ?_, ?_⟩
    · simp [Session.init, ReceiverSession.init]
    · simp [Session.init, ReceiverSession.init]
  · exact h.strangers e hold

lemma hand (h : OutOfReach config path fs₀ t fs) {key : SessionKey} {session session' : Session}
    {packet : Packet} {io : IoEnv}
    (hnames : packet.header.packetType = .start → ∀ name,
      sanitizeFilename packet.payload = (.none, name) →
        joinPath config.outputDirectory (tempName packet.header.sessionId) ≠ path ∧
          joinPath config.outputDirectory name ≠ path)
    (hmem : (key, session) ∈ t.entries)
    (hd : Server.Dispatched session (World.next ⟨session.receiver, fs⟩ (.packet packet io))
      session') :
    OutOfReach config path fs₀ (t.set key session')
      (World.next ⟨session.receiver, fs⟩ (.packet packet io)).fs := by
  have hstep := ReceiverSession.handlePacket_handles session.receiver fs packet io
  obtain ⟨huntouched, hnext, hstranger⟩ := (h.strangers _ hmem).onDisk
    (fun hopen => hnames hopen.packetType) hstep.onDisk
  refine ⟨fun e he => ?_, h.untouched.trans huntouched⟩
  rcases (Table.mem_set hmem).mp he with rfl | ⟨hold, -⟩
  · dsimp only
    rw [hd.receiver_eq]
    split_ifs
    · exact hstranger.closeFile
    · exact hstranger
  · exact (h.strangers e hold).grow (huntouched.grows hnext)

lemma run (config : ServerConfig) (fs : FileSystem) {path : Path} (hpath : path ≠ [])
    {events : List ServerEvent}
    (hasks : ∀ e ∈ events, e.asks config.outputDirectory path = false) :
    OutOfReach config path fs ((Server.init fs).run config events).sessions
      ((Server.init fs).run config events).fs := by
  induction events using List.reverseRecOn with
  | nil => exact ⟨fun e he => by simp [Server.run, Server.init, Table.empty] at he, .refl _ _⟩
  | append_singleton events e ih =>
      rw [Server.run_concat]
      refine Server.next_keeps (fun t fs p h => h.eraseIf p)
        (fun t fs key now habsent h => h.place hpath habsent now) ?_
        (ih fun d hd => hasks d (List.mem_append_left _ hd))
      intro t fs key session session' packet io hown hmem hd _ _ h
      exact h.hand (ServerEvent.names_of_not_asks hown (hasks e (by simp))) hmem hd

end OutOfReach

/-- **The server touches what STARTs ask for, and what they can ask for is in its directory.**
Whatever arrives, whatever fails and whenever sessions are retired: a path that no START has asked
for, or that does not resolve to a direct child of the output directory, if that has a name, leads
to the same file with the same bytes as at the start, also after the destructors have run at
shutdown. -/
theorem server_confined (config : ServerConfig) (fs : FileSystem) (events : List ServerEvent)
    (path : Path) (hpath : path ≠ [])
    (hapart : (∀ e ∈ events, e.asks config.outputDirectory path = false) ∨
      config.outputDirectory ≠ [] ∧
        ∀ name, resolvePath path ≠ resolvePath config.outputDirectory ++ [name]) :
    let sv := (Server.init fs).run config events
    Untouched path fs sv.fs ∧ Untouched path fs sv.shutdown.2 := by
  intro sv
  have hasks : ∀ e ∈ events, e.asks config.outputDirectory path = false := by
    rcases hapart with hasks | ⟨hdirectory, houtside⟩
    · exact hasks
    · intro e _
      by_contra hasked
      obtain ⟨name, hchild⟩ := ServerEvent.child_of_asks hdirectory (by simpa using hasked)
      exact houtside name hchild
  have hconfined := OutOfReach.run config fs hpath hasks
  refine ⟨hconfined.untouched, hconfined.untouched.trans ?_⟩
  exact Server.destroyAll_untouched config.outputDirectory hconfined.strangers

/-- A file elsewhere is safe from two clients. -/
theorem server_confined_elsewhere :
    Untouched (asciiBytes "/etc/passwd") (FileSystem.empty.create (asciiBytes "/etc/passwd"))
      ((Server.init (FileSystem.empty.create (asciiBytes "/etc/passwd"))).run sampleConfig
        (sampleFeeding ++ [sampleIntruder 8])).fs := by
  refine (server_confined sampleConfig _ (sampleFeeding ++ [sampleIntruder 8])
    (asciiBytes "/etc/passwd") (by decide) (Or.inr ⟨by decide, fun name hchild => ?_⟩)).1
  have hfirst := congrArg List.head? hchild
  have hout : (resolvePath sampleConfig.outputDirectory).head? = some (asciiBytes "out") := by
    decide
  rw [List.head?_append, hout, Option.some_or] at hfirst
  revert hfirst
  decide

/-! ## What is left -/

/-- The path an event publishes a file under. -/
def Server.publishes (config : ServerConfig) (sv : Server) : ServerEvent → Option Path
  | .datagram peer bytes now later io =>
      match deserialize bytes with
      | .ok packet =>
          let key := SessionKey.ofPacket peer packet
          match (sv.next config (.datagram peer bytes now later io)).sessions.find key with
          | some session =>
              if session.receiver.published && !sv.hasPublished key then
                some session.receiver.outputPath
              else none
          | none => none
      | .error _ => none
  | .sweep _ => none

/-- Everything a run publishes. -/
def Server.publications (config : ServerConfig) (sv : Server) : List ServerEvent → List Path
  | [] => []
  | e :: events =>
      (sv.publishes config e).toList ++ (sv.next config e).publications config events

lemma Server.publications_concat (config : ServerConfig) (sv : Server)
    (events : List ServerEvent) (e : ServerEvent) :
    sv.publications config (events ++ [e]) = sv.publications config events ++
      ((sv.run config events).publishes config e).toList := by
  induction events generalizing sv with
  | nil => simp [publications, run]
  | cons d events ih =>
      rw [List.cons_append, publications, publications, ih, List.append_assoc]
      rfl

lemma Server.publishes_eq {config : ServerConfig} {sv : Server} {e : ServerEvent}
    {key : SessionKey} {p : Packet × IoEnv} {session : Session} (hown : e.packetFor key = some p)
    (hfind : (sv.next config e).sessions.find key = some session) :
    sv.publishes config e =
      if session.receiver.published && !sv.hasPublished key then some session.receiver.outputPath
      else none := by
  cases e with
  | sweep now => simp [ServerEvent.packetFor] at hown
  | datagram peer bytes now later io =>
      simp only [ServerEvent.packetFor] at hown
      split at hown
      · next packet hpacket =>
        split_ifs at hown with hkey
        subst hkey
        simp only [publishes, hpacket, hfind]
      · simp at hown

/-- `path` is the temporary name of a session that has not published. -/
def ReceiverSession.Keeps (s : ReceiverSession) (path : Path) : Prop :=
  s.published = false ∧ s.tempPath = path ∧ path ≠ []

/-- Before its START a session has no temporary name. -/
def ReceiverSession.Fresh (s : ReceiverSession) : Prop :=
  s.started = false → s.finished = false → s.tempPath = []

namespace ReceiverSession

variable {s : ReceiverSession} {fs : FileSystem} {packet : Packet} {io : IoEnv} {handled : Handled}
  {path : Path}

/-- A name that was there before, for a session that has kept its own. -/
lemma Keeps.or_not (hpublished : handled.session.published = s.published)
    (htemp : handled.session.tempPath = s.tempPath) (hpath : (fs.names path).isSome = true) :
    (handled.session.published = true ∧ s.published = false ∧
        handled.session.outputPath = path) ∨
      handled.session.Keeps path ∨ (fs.names path).isSome = true ∧ ¬ s.Keeps path := by
  right
  rw [Keeps, hpublished, htemp]
  by_cases hkeeps : s.Keeps path
  · exact Or.inl hkeeps
  · exact Or.inr ⟨hpath, hkeeps⟩

/-- **A name after a packet** was there before and is not the one the session has let go of, or it
is the session's temporary name, or the packet has published under it. -/
lemma Handles.names (h : s.Handles fs packet io handled) (hverdict : s.Verdict) (hfresh : s.Fresh)
    (hpath : (handled.fs.names path).isSome = true) :
    (handled.session.published = true ∧ s.published = false ∧
        handled.session.outputPath = path) ∨
      handled.session.Keeps path ∨ (fs.names path).isSome = true ∧ ¬ s.Keeps path := by
  have hnone : s.Opening packet → ¬ s.Keeps path := fun hopen hkeeps =>
    hkeeps.2.2 (hkeeps.2.1.symm.trans (hfresh hopen.started hopen.finished))
  cases h with
  | replayed => exact Keeps.or_not rfl rfl hpath
  | ignored => exact Keeps.or_not rfl rfl hpath
  | restarted => exact Keeps.or_not rfl rfl hpath
  | duplicate => exact Keeps.or_not rfl rfl hpath
  | outside => exact Keeps.or_not rfl rfl hpath
  | strayed => exact Keeps.or_not rfl rfl hpath
  | misnamed => exact Keeps.or_not rfl rfl hpath
  | oversized => exact Keeps.or_not rfl rfl hpath
  | finFailed => exact Keeps.or_not rfl rfl hpath
  | openFailed stats name hopen => exact Or.inr (Or.inr ⟨hpath, hnone hopen⟩)
  | writeFailed stats fs' written hfits hwrite =>
      obtain ⟨hnames, -⟩ := FileSystem.writeFile_spec hwrite
      exact Keeps.or_not rfl rfl (hnames ▸ hpath)
  | stored stats fs' hfits hwrite =>
      obtain ⟨hnames, -⟩ := FileSystem.writeFile_spec hwrite
      exact Keeps.or_not rfl rfl (hnames ▸ hpath)
  | opened stats name fs' fd hopen hname hio =>
      obtain ⟨-, hothers, -⟩ := FileSystem.openWrite_some hio
      by_cases htemp : path = (s.named packet name).tempPath
      · subst htemp
        exact Or.inr (Or.inl ⟨(hverdict.of_unfinished hopen.finished).2, rfl,
          joinPath_tempName_ne_nil _ _⟩)
      · exact Or.inr (Or.inr ⟨hothers path htemp ▸ hpath, hnone hopen⟩)
  | published stats fs' hlive htype hchecks hrename =>
      obtain ⟨i, -, -, hgone, hothers, -⟩ := FileSystem.rename_true hrename
      by_cases hout : s.outputPath = path
      · exact Or.inl ⟨rfl, (hverdict.of_unfinished hlive.finished).2, hout⟩
      · -- the temporary name has moved, so the name is another one
        have hother : path ≠ s.tempPath := by
          rintro rfl
          simp [hgone (Ne.symm hout)] at hpath
        exact Or.inr (Or.inr ⟨hothers path hother (Ne.symm hout) ▸ hpath,
          fun hkeeps => hother hkeeps.2.1.symm⟩)

lemma Handles.fresh (h : s.Handles fs packet io handled) (hfresh : s.Fresh) :
    handled.session.Fresh := by
  intro hstarted hfinished
  cases h with
  | replayed => exact hfresh hstarted hfinished
  | ignored => exact hfresh hstarted hfinished
  | restarted => exact hfresh hstarted hfinished
  | duplicate => exact hfresh hstarted hfinished
  | outside => exact hfresh hstarted hfinished
  | stored => exact hfresh hstarted hfinished
  | opened => simp at hstarted
  | published => simp at hfinished
  | strayed => simp [fail] at hfinished
  | misnamed => simp [fail] at hfinished
  | oversized => simp [fail] at hfinished
  | finFailed => simp [fail] at hfinished
  | openFailed => simp [fail] at hfinished
  | writeFailed => simp [fail] at hfinished

/-- **The destructor** takes the temporary name away. -/
lemma destroy_names (s : ReceiverSession) (fs : FileSystem)
    (hpath : ((s.destroy fs).names path).isSome = true) :
    (fs.names path).isSome = true ∧ ¬ s.Keeps path := by
  rw [destroy] at hpath
  split_ifs at hpath with hunlinks
  · have hne : path ≠ s.tempPath := by
      rintro rfl
      simp at hpath
    rw [fs.unlink_names_of_ne hne] at hpath
    exact ⟨hpath, fun hkeeps => hne hkeeps.2.1.symm⟩
  · refine ⟨hpath, fun hkeeps => hunlinks ⟨by simpa using hkeeps.1, ?_⟩⟩
    rw [hkeeps.2.1]
    exact hkeeps.2.2

end ReceiverSession

lemma Server.destroyAll_names {entries : List (SessionKey × Session)} {fs : FileSystem}
    {path : Path}
    (hpath : ((destroyAll entries fs).names path).isSome = true) :
    (fs.names path).isSome = true ∧ ∀ e ∈ entries, ¬ e.2.receiver.Keeps path := by
  induction entries generalizing fs with
  | nil => exact ⟨hpath, by simp⟩
  | cons e entries ih =>
      obtain ⟨hbefore, hrest⟩ := ih hpath
      obtain ⟨hlinked, hfirst⟩ := e.2.receiver.destroy_names fs hbefore
      exact ⟨hlinked, List.forall_mem_cons.mpr ⟨hfirst, hrest⟩⟩

/-- **Every name is accounted for**: it was there at the start, it has been published, or a session
of the table keeps it. -/
structure Tidy (fs₀ : FileSystem) (published : List Path) (t : Table SessionKey Session)
    (fs : FileSystem) : Prop where
  sessions : ∀ e ∈ t.entries, e.2.receiver.Verdict ∧ e.2.receiver.Fresh
  names : ∀ path, (fs.names path).isSome = true → (fs₀.names path).isSome = true ∨
    path ∈ published ∨ ∃ e ∈ t.entries, e.2.receiver.Keeps path

namespace Tidy

variable {config : ServerConfig} {fs₀ fs : FileSystem} {published : List Path}
  {t : Table SessionKey Session}

lemma mono (h : Tidy fs₀ published t fs) {published' : List Path}
    (hsub : published ⊆ published') : Tidy fs₀ published' t fs where
  sessions := h.sessions
  names path hpath := (h.names path hpath).imp_right (Or.imp_left fun hmem => hsub hmem)

lemma eraseIf (h : Tidy fs₀ published t fs) (p : SessionKey × Session → Bool) :
    Tidy fs₀ published (t.eraseIf p) (Server.destroyAll (t.entries.filter p) fs) where
  sessions e he := h.sessions e (Table.mem_eraseIf.mp he).1
  names path hpath := by
    obtain ⟨hbefore, hgone⟩ := Server.destroyAll_names hpath
    rcases h.names path hbefore with hold | hpublished | ⟨e, he, hkeeps⟩
    · exact Or.inl hold
    · exact Or.inr (Or.inl hpublished)
    · refine Or.inr (Or.inr ⟨e, Table.mem_eraseIf.mpr ⟨he, ?_⟩, hkeeps⟩)
      by_contra herased
      exact hgone e (List.mem_filter.mpr ⟨he, by simpa using herased⟩) hkeeps

lemma place (h : Tidy fs₀ published t fs) {key : SessionKey} (habsent : t.find key = none)
    (now : TimePoint) :
    Tidy fs₀ published (t.emplace SessionKey.lt key (Session.init config key.peer now)) fs where
  sessions e he := by
    rcases (Table.mem_emplace habsent).mp he with rfl | hold
    · exact ⟨ReceiverSession.init_verdict _ _, fun _ _ => rfl⟩
    · exact h.sessions e hold
  names path hpath := by
    rcases h.names path hpath with hold | hpublished | ⟨e, he, hkeeps⟩
    · exact Or.inl hold
    · exact Or.inr (Or.inl hpublished)
    · exact Or.inr (Or.inr ⟨e, (Table.mem_emplace habsent).mpr (Or.inr he), hkeeps⟩)

lemma hand (h : Tidy fs₀ published t fs) {key : SessionKey} {session session' : Session}
    {packet : Packet} {io : IoEnv} (hmem : (key, session) ∈ t.entries)
    (hd : Server.Dispatched session (World.next ⟨session.receiver, fs⟩ (.packet packet io))
      session')
    (hpublishes : session'.receiver.published = true → session.receiver.published = false →
      session'.receiver.outputPath ∈ published) :
    Tidy fs₀ published (t.set key session')
      (World.next ⟨session.receiver, fs⟩ (.packet packet io)).fs := by
  have hstep := ReceiverSession.handlePacket_handles session.receiver fs packet io
  obtain ⟨hverdict, hfresh⟩ := h.sessions _ hmem
  have hself : (key, session') ∈ (t.set key session').entries :=
    (Table.mem_set hmem).mpr (Or.inl rfl)
  refine ⟨fun e he => ?_, fun path hpath => ?_⟩
  · rcases (Table.mem_set hmem).mp he with rfl | ⟨hold, -⟩
    · refine ⟨hd.verdict (hverdict.handles hstep), ?_⟩
      rw [hd.same]
      exact hstep.fresh hfresh
    · exact h.sessions e hold
  · rw [hd.same] at hpublishes
    rcases hstep.names hverdict hfresh hpath with ⟨hafter, hbefore, rfl⟩ | hkeeps | ⟨hlinked, hnot⟩
    · exact Or.inr (Or.inl (hpublishes hafter hbefore))
    · refine Or.inr (Or.inr ⟨_, hself, ?_⟩)
      dsimp only
      rw [hd.same]
      exact hkeeps
    · rcases h.names path hlinked with hold | hpublished | ⟨e, he, hkeeps⟩
      · exact Or.inl hold
      · exact Or.inr (Or.inl hpublished)
      · refine Or.inr (Or.inr ⟨e, (Table.mem_set hmem).mpr (Or.inr ⟨he, ?_⟩), hkeeps⟩)
        rintro hkey
        obtain ⟨k, session₀⟩ := e
        obtain rfl : k = key := hkey
        obtain rfl := Table.eq_of_mem he hmem
        exact hnot hkeeps

lemma run (config : ServerConfig) (fs : FileSystem) (events : List ServerEvent) :
    Tidy fs ((Server.init fs).publications config events)
      ((Server.init fs).run config events).sessions ((Server.init fs).run config events).fs := by
  induction events using List.reverseRecOn with
  | nil => exact ⟨fun e he => by simp [Server.run, Server.init, Table.empty] at he,
      fun path hpath => Or.inl hpath⟩
  | append_singleton events e ih =>
      rw [Server.run_concat, Server.publications_concat]
      refine Server.next_keeps (fun t fs p h => h.eraseIf p)
        (fun t fs key now habsent h => h.place habsent now) ?_
        (ih.mono (List.subset_append_left _ _))
      intro t fs key session session' packet io hown hmem hd hfind hbefore h
      refine h.hand hmem hd fun hafter hnot => List.mem_append_right _ ?_
      rw [Server.publishes_eq hown hfind, hbefore, hafter, hnot]
      exact List.mem_singleton_self _

/-- After shutdown no session keeps a name. -/
lemma shutdown (config : ServerConfig) (fs : FileSystem) (events : List ServerEvent) {path : Path}
    (hpath : ((((Server.init fs).run config events).shutdown.2).names path).isSome = true) :
    (fs.names path).isSome = true ∨ path ∈ (Server.init fs).publications config events := by
  obtain ⟨hbefore, hgone⟩ := Server.destroyAll_names hpath
  rcases (run config fs events).names path hbefore with hold | hpublished | ⟨e, he, hkeeps⟩
  · exact Or.inl hold
  · exact Or.inr hpublished
  · exact absurd hkeeps (hgone e he)

end Tidy

/-- **Nothing is left behind**, as long as `unlink` does its work.  Whatever arrives and whatever
else fails, every name in the directory was there at the start, is one that the run has published a
file under, or is the temporary name of a session that is still in the table and has not published.
After shutdown there are none of the last kind. -/
theorem nothing_left_behind (config : ServerConfig) (fs : FileSystem)
    (events : List ServerEvent) (path : Path) :
    let sv := (Server.init fs).run config events
    let published := (Server.init fs).publications config events
    ((sv.fs.names path).isSome = true → (fs.names path).isSome = true ∨ path ∈ published ∨
      ∃ key session, sv.sessions.find key = some session ∧
        session.receiver.published = false ∧ session.receiver.tempPath = path) ∧
    ((sv.shutdown.2.names path).isSome = true →
      (fs.names path).isSome = true ∨ path ∈ published) := by
  intro sv published
  have htidy := Tidy.run config fs events
  refine ⟨fun hpath => ?_, fun hpath => ?_⟩
  · rcases htidy.names path hpath with hold | hpublished | ⟨e, he, hkeeps⟩
    · exact Or.inl hold
    · exact Or.inr (Or.inl hpublished)
    · exact Or.inr (Or.inr ⟨e.1, e.2, Table.find_eq_some_iff.mpr he, hkeeps.1, hkeeps.2.1⟩)
  · exact Tidy.shutdown config fs events hpath

end SwiftLink
