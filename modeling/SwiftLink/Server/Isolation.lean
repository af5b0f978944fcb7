import SwiftLink.Server.Directory

/-!
# Sessions that do not interfere

The server keeps its sessions apart in memory, under address, port and session id.  On disk the
temporary name is made from the session id alone, so two clients who pick the same id share a file,
and so do a client and another who asks for a file of that name.  As long as no START of another key
does either, a session behaves as if it were alone: what it answers, what its temporary file holds
and what it publishes are those of `solo`, a session fed the same packets in an empty directory.
-/

namespace SwiftLink

/-! ## What can be seen of a session -/

/-- What one datagram of a session leads to: the reply, and the file if it publishes one. -/
structure Seen where
  reply : Option Outgoing
  published : Option Bytes
  deriving Repr, DecidableEq

namespace World

/-- A driver with one session: it closes the file once the session has settled. -/
def handle (w : World) (packet : Packet) (io : IoEnv) : World :=
  let w' := w.next (.packet packet io)
  if w'.session.finished then w'.next .closeFile else w'

def seen (w : World) (peer : Endpoint) (packet : Packet) (io : IoEnv) : Seen where
  reply := (w.answer packet io).map fun wire => ⟨peer, wire⟩
  published :=
    let w' := w.next (.packet packet io)
    if w'.session.published && !w.session.published then w'.fs.view w'.session.outputPath else none

end World

/-- The session under `key`, alone in an empty directory, and what was seen of it. -/
def solo (config : ServerConfig) (key : SessionKey) (handed : List (Packet × IoEnv)) :
    World × List Seen :=
  handed.foldl
    (fun state p => (state.1.handle p.1 p.2, state.2 ++ [state.1.seen key.peer p.1 p.2]))
    (World.init config.windowSize config.outputDirectory .empty, [])

lemma solo_concat (config : ServerConfig) (key : SessionKey) (handed : List (Packet × IoEnv))
    (packet : Packet) (io : IoEnv) :
    solo config key (handed ++ [(packet, io)]) =
      ((solo config key handed).1.handle packet io,
        (solo config key handed).2 ++ [(solo config key handed).1.seen key.peer packet io]) := by
  simp [solo]

/-- The packet an event hands to the session under `key`, if there is one. -/
def ServerEvent.packetFor (key : SessionKey) : ServerEvent → Option (Packet × IoEnv)
  | .datagram peer bytes _ _ io =>
      match deserialize bytes with
      | .ok packet => if SessionKey.ofPacket peer packet = key then some (packet, io) else none
      | .error _ => none
  | .sweep _ => none

namespace Server

/-- The temporary file of the session under `key`, from its START to its publication. -/
def tempFile (sv : Server) (key : SessionKey) : Option Bytes :=
  match sv.sessions.find key with
  | some session =>
      if session.receiver.started && !session.receiver.published then
        sv.fs.view session.receiver.tempPath
      else none
  | none => none

/-- Whether there is a session under `key` that has published. -/
def hasPublished (sv : Server) (key : SessionKey) : Bool :=
  match sv.sessions.find key with
  | some session => session.receiver.published
  | none => false

/-- What an event leads to for the session under `key`. -/
def seen (config : ServerConfig) (key : SessionKey) (sv : Server) (e : ServerEvent) : Seen where
  reply := sv.reply config e
  published :=
    match (sv.next config e).sessions.find key with
    | some session =>
        if session.receiver.published && !sv.hasPublished key then
          (sv.next config e).fs.view session.receiver.outputPath
        else none
    | none => none

end Server

/-- A server with an eye on one key: the packets its session has been handed since it was put in the
table, and what was seen of it. -/
structure Watched where
  server : Server
  handed : List (Packet × IoEnv)
  seen : List Seen

namespace Watched

def init (fs : FileSystem) : Watched := ⟨Server.init fs, [], []⟩

def next (config : ServerConfig) (key : SessionKey) (v : Watched) (e : ServerEvent) : Watched :=
  let server := v.server.next config e
  match server.sessions.find key with
  | none => ⟨server, [], []⟩
  | some _ =>
      match e.packetFor key with
      | none => { v with server := server }
      | some p => ⟨server, v.handed ++ [p], v.seen ++ [v.server.seen config key e]⟩

def run (config : ServerConfig) (key : SessionKey) (v : Watched) (events : List ServerEvent) :
    Watched :=
  events.foldl (next config key) v

lemma run_concat (config : ServerConfig) (key : SessionKey) (v : Watched)
    (events : List ServerEvent) (e : ServerEvent) :
    v.run config key (events ++ [e]) = (v.run config key events).next config key e := by
  simp [run]

end Watched

/-! ## The session that is watched -/

/-- The temporary path of the session under `key`. -/
def ServerConfig.tempPath (config : ServerConfig) (key : SessionKey) : Path :=
  joinPath config.outputDirectory (tempName key.sessionId)

/-- What the server keeps true of the session under `key`. -/
structure Own (config : ServerConfig) (key : SessionKey) (session : Session) : Prop where
  directory_eq : session.receiver.outputDirectory = config.outputDirectory
  peer_eq : session.peer = key.peer
  lingering_eq : session.lingering = session.receiver.finished
  verdict : session.receiver.Verdict
  /-- The file is open from the START until the session settles. -/
  file_open : ∀ fd, session.receiver.file = some fd →
    session.receiver.finished = false ∧ session.receiver.started = true
  temp_eq : session.receiver.started = true → session.receiver.tempPath = config.tempPath key

lemma Own.init (config : ServerConfig) (key : SessionKey) (now : TimePoint) :
    Own config key (Session.init config key.peer now) where
  directory_eq := rfl
  peer_eq := rfl
  lingering_eq := rfl
  verdict := ReceiverSession.init_verdict _ _
  file_open fd h := by simp [Session.init, ReceiverSession.init] at h
  temp_eq h := by simp [Session.init, ReceiverSession.init] at h

section Step

variable {config : ServerConfig} {key : SessionKey} {session session' : Session}
  {fs fs' : FileSystem} {packet : Packet} {io : IoEnv}

/-- Whatever leaves its temporary path alone does not show in the session. -/
lemma Own.mirrors_untouched (h : Own config key session) {w' : World}
    (hmirrors : Mirrors ⟨session.receiver, fs⟩ w')
    (huntouched : Untouched (config.tempPath key) fs fs') :
    Mirrors ⟨session.receiver, fs'⟩ w' := by
  refine hmirrors.untouched (fun hstarted => ?_) h.verdict h.file_open
  rw [h.temp_eq hstarted]
  exact huntouched

/-- The server does to a session's receiver what a driver with that session alone does. -/
lemma Own.dispatched_eq (h : Own config key session)
    (hd : Server.Dispatched session
      (World.next ⟨session.receiver, fs⟩ (.packet packet io)) session') :
    (⟨session'.receiver, (World.next ⟨session.receiver, fs⟩ (.packet packet io)).fs⟩ : World)
      = World.handle ⟨session.receiver, fs⟩ packet io := by
  rw [hd.receiver_eq, World.handle]
  cases hf : (World.next ⟨session.receiver, fs⟩ (.packet packet io)).session.finished with
  | false => simp
  | true =>
      cases hl : session.lingering with
      | false =>
          simp only [and_self, if_true]
          rfl
      | true =>
          -- it had settled before, so its file was closed already
          have hfinished : session.receiver.finished = true := h.lingering_eq ▸ hl
          obtain ⟨stats, heq⟩ :=
            World.next_of_finished (w := ⟨session.receiver, fs⟩) hfinished packet io
          have hclosed : session.receiver.file = none := by
            cases hfile : session.receiver.file with
            | none => rfl
            | some fd => simp [(h.file_open fd hfile).1] at hfinished
          simp only [heq, Bool.true_eq_false, and_false, if_false, if_true]
          simp [World.next, ReceiverSession.closeFile, hclosed]

lemma Own.named_tempPath (h : Own config key session)
    (hid : packet.header.sessionId = key.sessionId) (name : Bytes) :
    (session.receiver.named packet name).tempPath = config.tempPath key := by
  rw [ReceiverSession.named, h.directory_eq, hid]
  rfl

/-- **A packet of its own keeps the session as the server wants it.** -/
lemma Own.dispatched (h : Own config key session)
    (hid : packet.header.sessionId = key.sessionId)
    (hd : Server.Dispatched session
      (World.next ⟨session.receiver, fs⟩ (.packet packet io)) session') :
    Own config key session' := by
  have hstep := ReceiverSession.handlePacket_handles session.receiver fs packet io
  have heq := congrArg World.session (h.dispatched_eq hd)
  set w' := World.next ⟨session.receiver, fs⟩ (.packet packet io) with hw'
  have hdisk : OnDisk session.receiver fs packet w'.session w'.fs := hstep.onDisk
  have hverdict : w'.session.Verdict := h.verdict.handles hstep
  have hfinished : session'.receiver.finished = w'.session.finished := by rw [hd.same]
  have hstarted : session'.receiver.started = w'.session.started := by rw [hd.same]
  refine ⟨?_, hd.peer_eq.trans h.peer_eq, ?_, hd.verdict hverdict, fun fd hfile => ?_, fun hs => ?_⟩
  · rw [hd.same]
    exact hdisk.directory_eq.trans h.directory_eq
  · exact hd.lingering_finished h.lingering_eq
  · have hopen : w'.session.finished = false ∧ w'.session.file = some fd := by
      rw [show session'.receiver = _ from heq, World.handle] at hfile
      cases hf : w'.session.finished with
      | false =>
          simp only [← hw', hf, Bool.false_eq_true, if_false] at hfile
          exact ⟨rfl, hfile⟩
      | true =>
          simp only [← hw', hf, if_true] at hfile
          simp [World.next, ReceiverSession.closeFile] at hfile
    rw [hfinished, hstarted]
    exact ⟨hopen.1, hdisk.started_of_file (fun fd hfd => (h.file_open fd hfd).2) hopen.2⟩
  · rw [hd.same]
    exact hdisk.temp_eq h.temp_eq (fun _ name _ => h.named_tempPath hid name) (hstarted ▸ hs)

end Step

/-! ## Being alone and not being alone -/

namespace Mirrors

variable {w w' : World}

/-- **Two drivers of the same session** keep it alike. -/
lemma handle (h : Mirrors w w') (hverdict : w.session.Verdict) (packet : Packet) (io : IoEnv) :
    Mirrors (w.handle packet io) (w'.handle packet io) := by
  obtain ⟨hnext, -, -⟩ := h.next hverdict packet io
  simp only [World.handle, hnext.finished_eq]
  split_ifs
  · exact hnext.closeFile
  · exact hnext

/-- **And see the same of it.** -/
lemma seen_eq (h : Mirrors w w') (hverdict : w.session.Verdict) (peer : Endpoint)
    (packet : Packet) (io : IoEnv) : w.seen peer packet io = w'.seen peer packet io := by
  obtain ⟨hnext, hreply, hview⟩ := h.next hverdict packet io
  simp only [World.seen, World.answer, hreply, hnext.published_eq, h.published_eq,
    hnext.outputPath_eq, Seen.mk.injEq, true_and]
  split_ifs with hpublishes
  · simp only [Bool.and_eq_true, Bool.not_eq_true'] at hpublishes
    exact hview hpublishes.2 hpublishes.1
  · rfl

end Mirrors

/-! ## The whole server -/

/-- A START of another key asks neither for the session id of `key` nor for its temporary name. -/
def ServerEvent.separate (key : SessionKey) : ServerEvent → Bool
  | .datagram peer bytes _ _ _ =>
      match deserialize bytes with
      | .ok packet =>
          SessionKey.ofPacket peer packet == key || packet.header.packetType != .start ||
            (sanitizeFilename packet.payload).1 != .none ||
            (packet.header.sessionId != key.sessionId &&
              (sanitizeFilename packet.payload).2 != tempName key.sessionId)
      | .error _ => true
  | .sweep _ => true

namespace ServerEvent

variable {key : SessionKey} {peer : Endpoint} {bytes : Bytes} {now later : TimePoint} {io : IoEnv}
  {packet : Packet}

lemma packetFor_own (hpacket : deserialize bytes = .ok packet)
    (hkey : SessionKey.ofPacket peer packet = key) :
    packetFor key (.datagram peer bytes now later io) = some (packet, io) := by
  simp [packetFor, hpacket, hkey]

lemma packetFor_other (hpacket : deserialize bytes = .ok packet)
    (hkey : SessionKey.ofPacket peer packet ≠ key) :
    packetFor key (.datagram peer bytes now later io) = none := by
  simp [packetFor, hpacket, hkey]

/-- What the condition says about a START of another key that asks for an acceptable name. -/
lemma apart_of_separate (h : separate key (.datagram peer bytes now later io) = true)
    (hpacket : deserialize bytes = .ok packet) (hkey : SessionKey.ofPacket peer packet ≠ key)
    (htype : packet.header.packetType = .start) (name : Bytes)
    (hgood : sanitizeFilename packet.payload = (.none, name)) :
    packet.header.sessionId ≠ key.sessionId ∧ name ≠ tempName key.sessionId := by
  simpa [separate, hpacket, hkey, htype, hgood] using h

end ServerEvent

/-- **The invariant of a watched server**: every other session is a stranger to the temporary file
of `key`, and the session under `key` is as if it were alone. -/
structure Guarded (config : ServerConfig) (key : SessionKey) (sv : Server)
    (handed : List (Packet × IoEnv)) (seen : List Seen) : Prop where
  strangers : ∀ e ∈ sv.sessions.entries, e.1 ≠ key →
    Stranger config.outputDirectory (config.tempPath key) sv.fs e.2.receiver
  own : ∀ session, (key, session) ∈ sv.sessions.entries → Own config key session ∧
    Mirrors ⟨session.receiver, sv.fs⟩ (solo config key handed).1 ∧
      seen = (solo config key handed).2

lemma Server.destroyAll_grows (entries : List (SessionKey × Session)) (path : Path)
    (fs : FileSystem) : Grows path fs (destroyAll entries fs) := by
  induction entries generalizing fs with
  | nil => exact (Untouched.refl path fs).grows le_rfl
  | cons e entries ih => exact (e.2.receiver.destroy_grows path fs).trans (ih _)

lemma Server.destroyAll_untouched (directory : Path) {path : Path}
    {entries : List (SessionKey × Session)} {fs : FileSystem}
    (h : ∀ e ∈ entries, Stranger directory path fs e.2.receiver) :
    Untouched path fs (destroyAll entries fs) := by
  induction entries generalizing fs with
  | nil => exact Untouched.refl path fs
  | cons e entries ih =>
      refine (h e List.mem_cons_self).destroy.trans (ih fun d hd => ?_)
      exact (h d (List.mem_cons_of_mem e hd)).grow (e.2.receiver.destroy_grows path fs)

namespace Guarded

variable {config : ServerConfig} {key k : SessionKey} {sv sv' : Server}
  {handed : List (Packet × IoEnv)} {seen : List Seen} {session : Session}

lemma init (config : ServerConfig) (key : SessionKey) (fs : FileSystem) :
    Guarded config key (Server.init fs) [] [] :=
  ⟨fun e he => by simp [Server.init, Table.empty] at he,
    fun s hs => by simp [Server.init, Table.empty] at hs⟩

lemma congr (h : Guarded config key sv handed seen) (hsessions : sv'.sessions = sv.sessions)
    (hfs : sv'.fs = sv.fs) : Guarded config key sv' handed seen :=
  ⟨by rw [hsessions, hfs]; exact h.strangers, by rw [hsessions, hfs]; exact h.own⟩

/-- Without a session there is nothing to remember. -/
lemma of_absent (h : Guarded config key sv handed seen) (habsent : sv.sessions.find key = none)
    (handed' : List (Packet × IoEnv)) (seen' : List Seen) :
    Guarded config key sv handed' seen' :=
  ⟨h.strangers, fun _ hs => absurd rfl (Table.find_eq_none_iff.mp habsent _ hs)⟩

/-- **Erasing sessions**: their destructors unlink their own temporary files only. -/
lemma eraseIf (h : Guarded config key sv handed seen) (p : SessionKey × Session → Bool) :
    Guarded config key (sv.eraseIf p) handed seen := by
  refine ⟨fun e he hne => ?_, fun s hs => ?_⟩
  · exact (h.strangers e (Table.mem_eraseIf.mp he).1 hne).grow (Server.destroyAll_grows _ _ _)
  · obtain ⟨hmem, hkept⟩ := Table.mem_eraseIf.mp hs
    obtain ⟨hown, hmirrors, hseen⟩ := h.own s hmem
    have huntouched : Untouched (config.tempPath key) sv.fs (sv.eraseIf p).fs := by
      refine Server.destroyAll_untouched config.outputDirectory fun e he => ?_
      obtain ⟨hin, herased⟩ := List.mem_filter.mp he
      obtain ⟨k, t⟩ := e
      refine h.strangers _ hin ?_
      rintro rfl
      obtain rfl := Table.eq_of_mem hin hmem
      simp [hkept] at herased
    exact ⟨hown, hown.mirrors_untouched hmirrors huntouched, hseen⟩

lemma makeRoom (h : Guarded config key sv handed seen) :
    Guarded config key (sv.makeRoom config) handed seen := by
  rw [Server.makeRoom]
  split_ifs
  · exact h.eraseIf _
  · exact h

/-- **Putting a session of another key in the table.** -/
lemma emplaceOther (h : Guarded config key sv handed seen) (hk : k ≠ key)
    (habsent : sv.sessions.find k = none) (peer : Endpoint) (now : TimePoint) :
    Guarded config key { sv with
      sessions := sv.sessions.emplace SessionKey.lt k (Session.init config peer now) } handed
      seen := by
  refine ⟨fun e he hne => ?_, fun s hs => ?_⟩
  · rcases (Table.mem_emplace habsent).mp he with rfl | hold
    · have hpath : [] ≠ config.tempPath key := (joinPath_tempName_ne_nil _ _).symm
      refine ⟨rfl, hpath, hpath, ?_, ?_⟩
      · simp [Session.init, ReceiverSession.init]
      · simp [Session.init, ReceiverSession.init]
    · exact h.strangers e hold hne
  · rcases (Table.mem_emplace habsent).mp hs with heq | hold
    · exact absurd (Prod.mk.inj heq).1.symm hk
    · exact h.own s hold

/-- **Putting the session of `key` in the table.** -/
lemma emplaceOwn (h : Guarded config key sv handed seen) (habsent : sv.sessions.find key = none)
    (now : TimePoint) :
    Guarded config key { sv with
      sessions := sv.sessions.emplace SessionKey.lt key (Session.init config key.peer now) } []
      [] := by
  refine ⟨fun e he hne => ?_, fun s hs => ?_⟩
  · rcases (Table.mem_emplace habsent).mp he with rfl | hold
    · exact absurd rfl hne
    · exact h.strangers e hold hne
  · rcases (Table.mem_emplace habsent).mp hs with heq | hold
    · obtain rfl := (Prod.mk.inj heq).2
      exact ⟨Own.init config key now, Mirrors.init _ _ _ _, rfl⟩
    · exact absurd rfl (Table.find_eq_none_iff.mp habsent _ hold)

variable {packet : Packet} {now later : TimePoint} {io : IoEnv}

/-- **A packet for another session.** -/
lemma dispatchOther (h : Guarded config key sv handed seen) (hk : k ≠ key)
    (hmem : (k, session) ∈ sv.sessions.entries)
    (hseparate : packet.header.packetType = .start → ∀ name,
      sanitizeFilename packet.payload = (.none, name) →
        packet.header.sessionId ≠ key.sessionId ∧ name ≠ tempName key.sessionId) :
    Guarded config key (sv.dispatch k session packet now later io).1 handed seen := by
  obtain ⟨session', hd, hsessions, hfs, -⟩ :=
    sv.dispatch_spec k session packet now later io
  have hstep := ReceiverSession.handlePacket_handles session.receiver sv.fs packet io
  have hpaths : session.receiver.Opening packet → ∀ name,
      sanitizeFilename packet.payload = (.none, name) →
        joinPath config.outputDirectory (tempName packet.header.sessionId) ≠ config.tempPath key ∧
          joinPath config.outputDirectory name ≠ config.tempPath key := by
    intro hopen name hgood
    obtain ⟨hid, hname⟩ := hseparate hopen.packetType name hgood
    rw [ServerConfig.tempPath, ne_eq, ne_eq, joinPath_inj, joinPath_inj]
    exact ⟨fun heq => hid (tempName_inj heq), hname⟩
  obtain ⟨huntouched, hnext, hstranger⟩ :=
    (h.strangers _ hmem hk).onDisk hpaths hstep.onDisk
  refine ⟨fun e he hne => ?_, fun s hs => ?_⟩
  · rw [hsessions] at he
    rw [hfs]
    rcases (Table.mem_set hmem).mp he with rfl | ⟨hold, -⟩
    · dsimp only
      rw [hd.receiver_eq]
      split_ifs
      · exact hstranger.closeFile
      · exact hstranger
    · exact (h.strangers e hold hne).grow (huntouched.grows hnext)
  · rw [hsessions] at hs
    rw [hfs]
    rcases (Table.mem_set hmem).mp hs with heq | ⟨hold, -⟩
    · exact absurd (Prod.mk.inj heq).1.symm hk
    · obtain ⟨hown, hmirrors, hseen⟩ := h.own s hold
      exact ⟨hown, hown.mirrors_untouched hmirrors huntouched, hseen⟩

/-- **A packet for the session of `key`.** -/
lemma dispatchOwn (h : Guarded config key sv handed seen)
    (hmem : (key, session) ∈ sv.sessions.entries)
    (hid : packet.header.sessionId = key.sessionId) :
    Guarded config key (sv.dispatch key session packet now later io).1 (handed ++ [(packet, io)])
      (seen ++ [World.seen ⟨session.receiver, sv.fs⟩ key.peer packet io]) := by
  obtain ⟨session', hd, hsessions, hfs, -⟩ :=
    sv.dispatch_spec key session packet now later io
  have hstep := ReceiverSession.handlePacket_handles session.receiver sv.fs packet io
  obtain ⟨hown, hmirrors, hseen⟩ := h.own session hmem
  refine ⟨fun e he hne => ?_, fun s hs => ?_⟩
  · rw [hsessions] at he
    rw [hfs]
    rcases (Table.mem_set hmem).mp he with rfl | ⟨hold, -⟩
    · exact absurd rfl hne
    · exact (h.strangers e hold hne).grow
        (hstep.onDisk.grows hown.temp_eq fun _ name _ => hown.named_tempPath hid name)
  · rw [hsessions] at hs
    rw [hfs, solo_concat]
    rcases (Table.mem_set hmem).mp hs with heq | ⟨-, hne⟩
    · obtain rfl := (Prod.mk.inj heq).2
      refine ⟨hown.dispatched hid hd, ?_, ?_⟩
      · rw [hown.dispatched_eq hd]
        exact hmirrors.handle hown.verdict packet io
      · rw [hseen, hmirrors.seen_eq hown.verdict]
    · exact absurd rfl hne

end Guarded

/-- What a run keeps true of a watched server. -/
structure Kept (config : ServerConfig) (key : SessionKey) (v : Watched) : Prop where
  guarded : Guarded config key v.server v.handed v.seen
  absent : v.server.sessions.find key = none → v.handed = [] ∧ v.seen = []

namespace Kept

variable {config : ServerConfig} {key : SessionKey} {v : Watched} {e : ServerEvent}

/-- An event that hands nothing to the session of `key`. -/
lemma other (h : Guarded config key (v.server.next config e) v.handed v.seen)
    (hpacket : e.packetFor key = none ∨ (v.server.next config e).sessions.find key = none) :
    Kept config key (v.next config key e) := by
  rw [Watched.next]
  cases hfind : (v.server.next config e).sessions.find key with
  | none =>
      simp only
      exact ⟨h.of_absent hfind [] [], fun _ => ⟨rfl, rfl⟩⟩
  | some session =>
      have hnone : e.packetFor key = none := by
        rcases hpacket with hnone | habsent
        · exact hnone
        · simp [hfind] at habsent
      simp only [hnone]
      exact ⟨h, fun habsent => by simp [hfind] at habsent⟩

/-- An event that hands a packet to the session of `key`. -/
lemma own {handed : List (Packet × IoEnv)} {seen : List Seen} {p : Packet × IoEnv}
    {session : Session}
    (hfind : (v.server.next config e).sessions.find key = some session)
    (hpacket : e.packetFor key = some p) (hhanded : v.handed = handed) (hseen : v.seen = seen)
    (h : Guarded config key (v.server.next config e) (handed ++ [p])
      (seen ++ [v.server.seen config key e])) : Kept config key (v.next config key e) := by
  rw [Watched.next]
  simp only [hfind, hpacket, hhanded, hseen]
  exact ⟨h, fun habsent => by simp [hfind] at habsent⟩

/-- A packet that finds no session and opens none. -/
lemma dropped {peer : Endpoint} {bytes : Bytes} {now later : TimePoint} {io : IoEnv}
    {packet : Packet} (hpacket : deserialize bytes = .ok packet)
    (habsent : (v.server.next config (.datagram peer bytes now later io)).sessions.find
      (SessionKey.ofPacket peer packet) = none)
    (h : Guarded config key (v.server.next config (.datagram peer bytes now later io)) v.handed
      v.seen) :
    Kept config key (v.next config key (.datagram peer bytes now later io)) := by
  refine other h ?_
  by_cases hkey : SessionKey.ofPacket peer packet = key
  · exact Or.inr (hkey ▸ habsent)
  · exact Or.inl (ServerEvent.packetFor_other hpacket hkey)

end Kept

namespace Server

variable {config : ServerConfig} {key : SessionKey} {sv sv₀ : Server} {peer : Endpoint}
  {bytes : Bytes} {now later : TimePoint} {io : IoEnv} {packet : Packet} {session : Session}

/-- What is seen of a session when a packet is handed to it. -/
lemma seen_dispatch (hdatagram : sv.onDatagram config peer bytes now later io
      = sv₀.dispatch key session packet now later io)
    (hmem : (key, session) ∈ sv₀.sessions.entries) (hpeer : session.peer = key.peer)
    (hbefore : sv.hasPublished key = session.receiver.published) :
    (∃ session', (sv.next config (.datagram peer bytes now later io)).sessions.find key
        = some session') ∧
      sv.seen config key (.datagram peer bytes now later io)
        = World.seen ⟨session.receiver, sv₀.fs⟩ key.peer packet io := by
  obtain ⟨session', hd, hsessions, hfs, hreply⟩ :=
    sv₀.dispatch_spec key session packet now later io
  have hfind : (sv₀.dispatch key session packet now later io).1.sessions.find key
      = some session' := by
    rw [hsessions]
    exact Table.find_set hmem
  have hsame : session'.receiver.published
        = (World.next ⟨session.receiver, sv₀.fs⟩ (.packet packet io)).session.published ∧
      session'.receiver.outputPath
        = (World.next ⟨session.receiver, sv₀.fs⟩ (.packet packet io)).session.outputPath := by
    rw [hd.same]
    exact ⟨rfl, rfl⟩
  have hnext : sv.next config (.datagram peer bytes now later io)
      = (sv₀.dispatch key session packet now later io).1 := by rw [next, hdatagram]
  refine ⟨⟨session', by rw [hnext, hfind]⟩, ?_⟩
  simp only [seen, hnext, hfind, hbefore, hsame.1, hsame.2, hfs, reply, hdatagram, hreply, hpeer,
    World.seen]

end Server

/-- **Every event keeps the invariant.** -/
theorem Kept.next {config : ServerConfig} {key : SessionKey} {v : Watched} {e : ServerEvent}
    (h : Kept config key v) (hseparate : e.separate key = true) :
    Kept config key (v.next config key e) := by
  cases e with
  | sweep now => exact other ((h.guarded.eraseIf _).congr rfl rfl) (Or.inl rfl)
  | datagram peer bytes now later io =>
      have hreacts := Server.onDatagram_reacts config v.server peer bytes now later io
      have hnext : v.server.next config (.datagram peer bytes now later io)
          = (v.server.onDatagram config peer bytes now later io).1 := rfl
      generalize hresult : v.server.onDatagram config peer bytes now later io = result
        at hreacts hnext
      cases hreacts with
      | malformed reason hbad =>
          exact other (hnext ▸ h.guarded) (Or.inl (by simp [ServerEvent.packetFor, hbad]))
      | unknown packet hpacket habsent htype =>
          exact dropped hpacket (hnext ▸ habsent) (hnext ▸ h.guarded)
      | refused packet hpacket habsent htype hfull =>
          exact dropped hpacket (hnext ▸ habsent) (hnext ▸ h.guarded.congr rfl rfl)
      | known packet hpacket session hpresent =>
          have hmem := Table.find_eq_some_iff.mp hpresent
          by_cases hkey : SessionKey.ofPacket peer packet = key
          · rw [hkey] at hmem hnext hresult hpresent
            obtain ⟨⟨session', hfind⟩, hseen⟩ := Server.seen_dispatch hresult hmem
              (h.guarded.own session hmem).1.peer_eq (by simp [Server.hasPublished, hpresent])
            refine own hfind (ServerEvent.packetFor_own hpacket hkey) rfl rfl ?_
            rw [hseen, hnext]
            exact h.guarded.dispatchOwn hmem (by rw [← hkey]; rfl)
          · refine other ?_ (Or.inl (ServerEvent.packetFor_other hpacket hkey))
            rw [hnext]
            exact h.guarded.dispatchOther hkey hmem
              (ServerEvent.apart_of_separate hseparate hpacket hkey)
      | opened packet hpacket habsent htype hroom =>
          have habsent' := Server.makeRoom_find_none config habsent
          by_cases hkey : SessionKey.ofPacket peer packet = key
          · obtain rfl : peer = key.peer := by rw [← hkey]; rfl
            rw [hkey] at habsent habsent' hnext hresult
            have hmem := Table.mem_emplace_self SessionKey.lt habsent'
              (Session.init config key.peer now)
            obtain ⟨⟨session', hfind⟩, hseen⟩ := Server.seen_dispatch hresult hmem rfl
              (by simp [Server.hasPublished, habsent, Session.init, ReceiverSession.init])
            obtain ⟨hhanded, hnone⟩ := h.absent habsent
            refine own hfind (ServerEvent.packetFor_own hpacket hkey) hhanded hnone ?_
            rw [hseen, hnext]
            have hplaced := h.guarded.makeRoom.emplaceOwn habsent' now
            exact hplaced.dispatchOwn hmem (by rw [← hkey]; rfl)
          · have hmem := Table.mem_emplace_self SessionKey.lt habsent'
              (Session.init config peer now)
            have hplaced := h.guarded.makeRoom.emplaceOther hkey habsent' peer now
            refine other ?_ (Or.inl (ServerEvent.packetFor_other hpacket hkey))
            rw [hnext]
            exact hplaced.dispatchOther hkey hmem
              (ServerEvent.apart_of_separate hseparate hpacket hkey)

/-- **The invariant holds throughout a run.** -/
lemma Watched.run_kept (config : ServerConfig) (key : SessionKey) (fs : FileSystem)
    {events : List ServerEvent} (h : ∀ e ∈ events, e.separate key = true) :
    Kept config key ((Watched.init fs).run config key events) := by
  induction events using List.reverseRecOn with
  | nil => exact ⟨Guarded.init config key fs, fun _ => ⟨rfl, rfl⟩⟩
  | append_singleton events e ih =>
      rw [Watched.run_concat]
      exact (ih fun d hd => h d (List.mem_append_left _ hd)).next (h e (by simp))

/-- **A kept session looks as if it were alone.** -/
lemma Kept.alone {config : ServerConfig} {key : SessionKey} {v : Watched} (h : Kept config key v)
    (hpresent : (v.server.sessions.find key).isSome = true) :
    v.seen = (solo config key v.handed).2 ∧
      v.server.tempFile key =
        let w := (solo config key v.handed).1
        if w.session.started && !w.session.published then w.fs.view w.session.tempPath
        else none := by
  obtain ⟨session, hfind⟩ := Option.isSome_iff_exists.mp hpresent
  obtain ⟨-, hmirrors, hseen⟩ := h.guarded.own session (Table.find_eq_some_iff.mp hfind)
  refine ⟨hseen, ?_⟩
  have hstarted : (solo config key v.handed).1.session.started = session.receiver.started := by
    rw [hmirrors.same]
  have htemp : (solo config key v.handed).1.session.tempPath = session.receiver.tempPath := by
    rw [hmirrors.same]
  simp only [Server.tempFile, hfind, hstarted, htemp, hmirrors.published_eq]
  split_ifs with htemporary
  · simp only [Bool.and_eq_true, Bool.not_eq_true'] at htemporary
    exact hmirrors.temp htemporary.1 htemporary.2
  · rfl

/-- What the server does for a session depends on its own datagrams only: two runs in which the
session is in the table and has been handed the same packets show the same replies and the same
published file, and leave the same temporary file. -/
def Determined (config : ServerConfig) (key : SessionKey) (fs₁ : FileSystem)
    (events₁ : List ServerEvent) (fs₂ : FileSystem) (events₂ : List ServerEvent) : Prop :=
  let v₁ := (Watched.init fs₁).run config key events₁
  let v₂ := (Watched.init fs₂).run config key events₂
  (v₁.server.sessions.find key).isSome = true → (v₂.server.sessions.find key).isSome = true →
    v₁.handed = v₂.handed →
      v₁.seen = v₂.seen ∧ v₁.server.tempFile key = v₂.server.tempFile key

/-- An event for somebody else leaves the packets of a session as they are. -/
lemma Watched.handed_of_other {config : ServerConfig} {key : SessionKey} {v : Watched}
    {e : ServerEvent} (hother : e.packetFor key = none)
    (hpresent : ((v.server.next config e).sessions.find key).isSome = true) :
    v.next config key e = { v with server := v.server.next config e } := by
  obtain ⟨session, hfind⟩ := Option.isSome_iff_exists.mp hpresent
  simp only [Watched.next, hfind, hother]

/-- **Sessions do not interfere**, in any two runs in which no START of another key asks for the
session id of `key` or for its temporary name; in particular an event for somebody else leaves the
temporary file of `key` alone. -/
theorem sessions_do_not_interfere (config : ServerConfig) (key : SessionKey)
    (fs₁ fs₂ : FileSystem) (events₁ events₂ : List ServerEvent)
    (h₁ : ∀ e ∈ events₁, e.separate key = true) (h₂ : ∀ e ∈ events₂, e.separate key = true) :
    Determined config key fs₁ events₁ fs₂ events₂ ∧
      ∀ e : ServerEvent, e.separate key = true → e.packetFor key = none →
        let sv := ((Watched.init fs₁).run config key events₁).server
        (sv.sessions.find key).isSome = true →
          ((sv.next config e).sessions.find key).isSome = true →
            (sv.next config e).tempFile key = sv.tempFile key := by
  have hkept₁ := Watched.run_kept config key fs₁ h₁
  have hkept₂ := Watched.run_kept config key fs₂ h₂
  constructor
  · intro hpresent₁ hpresent₂ hhanded
    obtain ⟨hseen₁, htemp₁⟩ := hkept₁.alone hpresent₁
    obtain ⟨hseen₂, htemp₂⟩ := hkept₂.alone hpresent₂
    rw [hseen₁, htemp₁, hseen₂, htemp₂, hhanded]
    exact ⟨rfl, rfl⟩
  · intro e hseparate hother sv hbefore hafter
    have hnext := hkept₁.next hseparate
    rw [Watched.handed_of_other hother hafter] at hnext
    rw [(hnext.alone hafter).2, (hkept₁.alone hbefore).2]

/-! ### Two clients

One client opens session 7 and sends a byte; then another client opens a session of its own. -/

def sampleConfig : ServerConfig := { outputDirectory := asciiBytes "out" }

def sampleKey : SessionKey := ⟨asciiBytes "10.0.0.1", 5000, 7⟩

/-- A START for the name `f`. -/
def sampleOpening (peer : Endpoint) (sessionId : BitVec 64) : ServerEvent :=
  .datagram peer
    (serialize { packetType := .start, sessionId := sessionId, byteOffset := 1 } (asciiBytes "f"))
    0 0 {}

def sampleFeeding : List ServerEvent :=
  [sampleOpening sampleKey.peer 7,
    .datagram sampleKey.peer
      (serialize { packetType := .data, sessionId := 7 } (asciiBytes "x")) 0 0 {}]

/-- The second client's START. -/
def sampleIntruder (sessionId : BitVec 64) : ServerEvent :=
  sampleOpening ⟨asciiBytes "10.0.0.2", 5000⟩ sessionId

/-- The first session has been handed the same packets, whether or not the second client comes. -/
lemma sampleIntruder_handed {sessionId : BitVec 64}
    (hother : ((sampleIntruder sessionId).packetFor sampleKey).isNone = true)
    (hpresent : (((((Watched.init .empty).run sampleConfig sampleKey sampleFeeding).server.next
      sampleConfig (sampleIntruder sessionId)).sessions.find sampleKey).isSome) = true) :
    ((Watched.init .empty).run sampleConfig sampleKey
        (sampleFeeding ++ [sampleIntruder sessionId])).handed
      = ((Watched.init .empty).run sampleConfig sampleKey sampleFeeding).handed := by
  rw [Watched.run_concat, Watched.handed_of_other (Option.isNone_iff_eq_none.mp hother) hpresent]

/-- A second client with an id of its own does not disturb the first. -/
theorem sessions_do_not_interfere_two_clients :
    let v := (Watched.init .empty).run sampleConfig sampleKey (sampleFeeding ++ [sampleIntruder 8])
    v.server.tempFile sampleKey = some (asciiBytes "x") ∧ v.server.sessions.entries.length = 2 := by
  intro v
  have hdetermined := (sessions_do_not_interfere sampleConfig sampleKey .empty .empty
    (sampleFeeding ++ [sampleIntruder 8]) sampleFeeding (by decide +kernel) (by decide +kernel)).1
  have hsame := hdetermined (by decide +kernel) (by decide +kernel)
    (sampleIntruder_handed (by decide +kernel) (by decide +kernel))
  rw [hsame.2]
  exact ⟨by decide +kernel, by decide +kernel⟩

/-- A second client with the same id empties the first one's temporary file. -/
theorem shared_id_truncates :
    ¬ ∀ (config : ServerConfig) (key : SessionKey) (fs₁ fs₂ : FileSystem)
      (events₁ events₂ : List ServerEvent), Determined config key fs₁ events₁ fs₂ events₂ := by
  intro h
  have hsame := (h sampleConfig sampleKey .empty .empty (sampleFeeding ++ [sampleIntruder 7])
    sampleFeeding (by decide +kernel) (by decide +kernel)
    (sampleIntruder_handed (by decide +kernel) (by decide +kernel))).2
  have hdiffer : ¬ ((Watched.init .empty).run sampleConfig sampleKey
        (sampleFeeding ++ [sampleIntruder 7])).server.tempFile sampleKey
      = ((Watched.init .empty).run sampleConfig sampleKey sampleFeeding).server.tempFile
        sampleKey := by
    decide +kernel
  exact hdiffer hsame

end SwiftLink
