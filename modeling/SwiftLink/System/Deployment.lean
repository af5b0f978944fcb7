import SwiftLink.Server.Isolation
import SwiftLink.Server.SharedDirectory
import SwiftLink.System.OneJob

/-!
# A client and the epoll server

`send_file` at one end and the server's loop at the other.  The server does what it does for
everybody: it turns clients away, throws sessions out, sweeps, and works for others in the same
directory; its system calls may fail.  The network loses, repeats and reorders, and the client may
receive anything that does not carry its session id.

What the client is told is nevertheless true and stays true: once `send_file` has returned `kNone`
the directory holds the client's file, in every later state of the run.  Nobody else may ask for the
same names: a second client with the same session id would empty the first one's temporary file.
-/

namespace SwiftLink

variable {Q : TimerQueue}

/-- One client of the server, and every datagram either has sent the other. -/
structure Deployment (Q : TimerQueue) where
  client : Sender Q
  server : Server
  toServer : List Bytes
  toClient : List Bytes

/-- Where the client runs, and what it is sending where. -/
structure Site where
  job : Job
  peer : Endpoint
  config : ServerConfig

namespace Site

/-- The key of the client's session. -/
def key (site : Site) : SessionKey := ⟨site.peer.address, site.peer.port, site.job.config.sessionId⟩

/-- The name the file is published under. -/
def name (site : Site) : Bytes := (sanitizeFilename site.job.config.remoteName).2

def outputPath (site : Site) : Path := joinPath site.config.outputDirectory site.name

/-- The name is acceptable, and not one of a temporary file of this session. -/
structure Named (site : Site) : Prop where
  accepted : (sanitizeFilename site.job.config.remoteName).1 = .none
  ne_temp : site.name ≠ tempName site.job.config.sessionId

end Site

inductive DeployEvent
  | client (env : SenderEnv)
  | server (e : ServerEvent)

/-- The datagram does not carry the session id of the job. -/
def Job.foreign (job : Job) (bytes : Bytes) : Bool :=
  match deserialize bytes with
  | .ok packet => packet.header.sessionId != job.config.sessionId
  | .error _ => true

/-- A START of another key asks for none of the names the session of `key` uses for a file
`name`. -/
def ServerEvent.apart (key : SessionKey) (name : Bytes) : ServerEvent → Bool
  | .datagram peer bytes _ _ _ =>
      match deserialize bytes with
      | .ok packet =>
          SessionKey.ofPacket peer packet == key || packet.header.packetType != .start ||
            (sanitizeFilename packet.payload).1 != .none ||
            (packet.header.sessionId != key.sessionId && tempName packet.header.sessionId != name &&
              (sanitizeFilename packet.payload).2 != tempName key.sessionId &&
              (sanitizeFilename packet.payload).2 != name)
      | .error _ => true
  | .sweep _ => true

def DeployEvent.apart (site : Site) : DeployEvent → Bool
  | .client _ => true
  | .server e => e.apart site.key site.name

namespace Deployment

def init (Q : TimerQueue) (site : Site) (fs : FileSystem) : Deployment Q where
  client := Sender.init Q site.job
  server := Server.init fs
  toServer := []
  toClient := []

def next (site : Site) (d : Deployment Q) : DeployEvent → Deployment Q
  | .client env =>
      let stepped := d.client.step site.job env
      { d with
        client := stepped.1
        toServer := d.toServer ++ stepped.2.toList }
  | .server e =>
      { d with
        server := d.server.next site.config e
        toClient := d.toClient ++
          (((d.server.reply site.config e).filter (·.peer = site.peer)).map (·.wire)).toList }

/-- What may happen: nobody else sends from the client's address under its session id, and to the
client under its session id only the server does. -/
def Enabled (site : Site) (d : Deployment Q) : DeployEvent → Prop
  | .client env =>
      match env.recv with
      | .datagram bytes => bytes ∈ d.toClient ∨ site.job.foreign bytes = true
      | _ => True
  | .server e =>
      match e with
      | .datagram _ bytes _ _ _ => (e.packetFor site.key).isSome = true → bytes ∈ d.toServer
      | .sweep _ => True

instance (site : Site) (d : Deployment Q) (e : DeployEvent) : Decidable (d.Enabled site e) :=
  match e with
  | .client env =>
      match h : env.recv with
      | .datagram bytes =>
          decidable_of_iff (d.toClient.contains bytes || site.job.foreign bytes)
            (by simp [Enabled, h])
      | .wouldBlock => isTrue (by simp [Enabled, h])
      | .interrupted => isTrue (by simp [Enabled, h])
      | .failed => isTrue (by simp [Enabled, h])
  | .server (.datagram peer bytes now later io) =>
      decidable_of_iff
        (((ServerEvent.datagram peer bytes now later io).packetFor site.key).isNone
          || d.toServer.contains bytes)
        (by cases h : (ServerEvent.datagram peer bytes now later io).packetFor site.key <;>
          simp [Enabled, h])
  | .server (.sweep _) => isTrue trivial

def run (site : Site) (d : Deployment Q) (events : List DeployEvent) : Deployment Q :=
  events.foldl (next site) d

lemma run_concat (site : Site) (d : Deployment Q) (events : List DeployEvent) (e : DeployEvent) :
    d.run site (events ++ [e]) = (d.run site events).next site e := by
  simp [run]

/-- Each event of the list may happen when its turn comes. -/
def Runs (site : Site) (d : Deployment Q) : List DeployEvent → Prop
  | [] => True
  | e :: events => d.Enabled site e ∧ (d.next site e).Runs site events

instance instDecidableRuns (site : Site) (d : Deployment Q) (events : List DeployEvent) :
    Decidable (d.Runs site events) :=
  match events with
  | [] => isTrue trivial
  | e :: events =>
      have : Decidable ((d.next site e).Runs site events) := instDecidableRuns site _ events
      inferInstanceAs (Decidable (_ ∧ _))

lemma runs_concat {site : Site} {d : Deployment Q} {events : List DeployEvent} {e : DeployEvent} :
    d.Runs site (events ++ [e]) ↔ d.Runs site events ∧ (d.run site events).Enabled site e := by
  induction events generalizing d with
  | nil => simp [Runs, run]
  | cons e' events ih =>
      rw [List.cons_append, Runs, ih, Runs, and_assoc]
      rfl

end Deployment

namespace ServerEvent

variable {key : SessionKey} {name : Bytes} {peer : Endpoint} {bytes : Bytes}
  {now later : TimePoint} {io : IoEnv} {packet : Packet}

/-- What `apart` says about a START of another key that asks for an acceptable name. -/
lemma names_of_apart (h : apart key name (.datagram peer bytes now later io) = true)
    (hpacket : deserialize bytes = .ok packet) (hkey : SessionKey.ofPacket peer packet ≠ key)
    (htype : packet.header.packetType = .start) (asked : Bytes)
    (hgood : sanitizeFilename packet.payload = (.none, asked)) :
    (packet.header.sessionId ≠ key.sessionId ∧ tempName packet.header.sessionId ≠ name) ∧
      asked ≠ tempName key.sessionId ∧ asked ≠ name := by
  simpa [apart, hpacket, hkey, htype, hgood, and_assoc] using h

end ServerEvent

/-! ## The server's side -/

section Hosting

variable (site : Site)

/-- **What the server keeps true for the client**, whatever it has handed the client's session so
far: the session is as if it were alone, alone it is fed the client's packets only, and the other
sessions are strangers to the client's file. -/
structure Hosting (sv : Server) (handed : List (Packet × IoEnv)) (seen : List Seen) : Prop where
  guarded : Guarded site.config site.key sv handed seen
  fed : Fed site.job site.config.outputDirectory (solo site.config site.key handed).1
  strangers : ∀ e ∈ sv.sessions.entries, e.1 ≠ site.key →
    Stranger site.config.outputDirectory site.outputPath sv.fs e.2.receiver
  peers : ∀ e ∈ sv.sessions.entries, e.2.peer = e.1.peer

end Hosting

lemma Server.destroyAll_untouched_of_temp {path : Path} {entries : List (SessionKey × Session)}
    (h : ∀ e ∈ entries, e.2.receiver.tempPath ≠ path) (fs : FileSystem) :
    Untouched path fs (destroyAll entries fs) := by
  induction entries generalizing fs with
  | nil => exact Untouched.refl path fs
  | cons e entries ih =>
      have hfirst : Untouched path fs (e.2.receiver.destroy fs) := by
        rw [ReceiverSession.destroy]
        split_ifs
        · exact ⟨fs.unlink_names_of_ne (h e List.mem_cons_self).symm, fun _ _ => rfl⟩
        · exact Untouched.refl path fs
      exact hfirst.trans (ih (fun d hd => h d (List.mem_cons_of_mem e hd)) _)

/-- A driver with one session feeds it. -/
lemma Fed.handle {job : Job} {directory : Path} {w : World} {packet : Packet}
    (h : Fed job directory w) (hrange : job.InRange) (hsends : job.Sends packet) (io : IoEnv) :
    Fed job directory (w.handle packet io) := by
  rw [World.handle]
  split_ifs
  · exact (h.next hrange hsends io).closeFile
  · exact h.next hrange hsends io

lemma Site.Named.outputPath_ne_nil {site : Site} (h : site.Named) : site.outputPath ≠ [] := by
  have hne := (sanitizeFilename_accepted (Prod.ext h.accepted rfl)).2
  simp only [Site.outputPath, Site.name, joinPath]
  intro hnil
  exact hne (List.append_eq_nil_iff.mp hnil).2

lemma Site.Named.tempPath_ne {site : Site} (h : site.Named) :
    site.config.tempPath site.key ≠ site.outputPath := by
  rw [ServerConfig.tempPath, Site.outputPath, ne_eq, joinPath_inj]
  exact h.ne_temp.symm

namespace Hosting

variable {site : Site} {sv : Server} {handed : List (Packet × IoEnv)} {seen : List Seen}
  {session : Session} {k : SessionKey}

lemma init (site : Site) (fs : FileSystem) : Hosting site (Server.init fs) [] [] where
  guarded := Guarded.init _ _ fs
  fed := Fed.init _ _ _ _
  strangers e he := by simp [Server.init, Table.empty] at he
  peers e he := by simp [Server.init, Table.empty] at he

lemma congr {sv' : Server} (h : Hosting site sv handed seen)
    (hsessions : sv'.sessions = sv.sessions) (hfs : sv'.fs = sv.fs) :
    Hosting site sv' handed seen where
  guarded := h.guarded.congr hsessions hfs
  fed := h.fed
  strangers := by rw [hsessions, hfs]; exact h.strangers
  peers := by rw [hsessions]; exact h.peers

/-- The paths of the client's session, as far as it has any. -/
lemma paths (h : Hosting site sv handed seen)
    (hmem : (site.key, session) ∈ sv.sessions.entries) :
    session.receiver.tempPath = [] ∨
      session.receiver.tempPath = site.config.tempPath site.key ∧
        session.receiver.outputPath = site.outputPath := by
  obtain ⟨-, hmirrors, -⟩ := h.guarded.own session hmem
  have hsame := hmirrors.same
  have hpaths := h.fed.paths
  rw [hsame] at hpaths
  rcases hpaths with ⟨hnone, -⟩ | ⟨htemp, name, hname, houtput⟩
  · exact Or.inl hnone
  · refine Or.inr ⟨htemp, houtput.trans ?_⟩
    rw [Site.outputPath, Site.name, hname]

/-- No session of the table has its temporary file at the client's path. -/
lemma temp_ne (h : Hosting site sv handed seen) (hnamed : site.Named)
    {e : SessionKey × Session} (he : e ∈ sv.sessions.entries) :
    e.2.receiver.tempPath ≠ site.outputPath := by
  by_cases hkey : e.1 = site.key
  · obtain ⟨k, session⟩ := e
    subst hkey
    rcases h.paths he with hnone | ⟨htemp, -⟩
    · dsimp only
      rw [hnone]
      exact hnamed.outputPath_ne_nil.symm
    · dsimp only
      rw [htemp]
      exact hnamed.tempPath_ne
  · exact (h.strangers e he hkey).temp_ne

/-- **Erasing sessions** does not touch the client's file. -/
lemma eraseIf (h : Hosting site sv handed seen) (hnamed : site.Named)
    (p : SessionKey × Session → Bool) :
    Hosting site (sv.eraseIf p) handed seen ∧
      Untouched site.outputPath sv.fs (sv.eraseIf p).fs := by
  refine ⟨⟨h.guarded.eraseIf p, h.fed, fun e he hne => ?_, fun e he => ?_⟩, ?_⟩
  · exact (h.strangers e (Table.mem_eraseIf.mp he).1 hne).grow (Server.destroyAll_grows _ _ _)
  · exact h.peers e (Table.mem_eraseIf.mp he).1
  · exact Server.destroyAll_untouched_of_temp
      (fun e he => h.temp_ne hnamed (List.mem_filter.mp he).1) sv.fs

lemma makeRoom (h : Hosting site sv handed seen) (hnamed : site.Named) :
    Hosting site (sv.makeRoom site.config) handed seen ∧
      Untouched site.outputPath sv.fs (sv.makeRoom site.config).fs := by
  rw [Server.makeRoom]
  split_ifs
  · exact h.eraseIf hnamed _
  · exact ⟨h, .refl _ _⟩

/-- **Putting a session of another key in the table.** -/
lemma emplaceOther (h : Hosting site sv handed seen) (hnamed : site.Named) (hk : k ≠ site.key)
    (habsent : sv.sessions.find k = none) (now : TimePoint) :
    Hosting site { sv with
      sessions := sv.sessions.emplace SessionKey.lt k (Session.init site.config k.peer now) } handed
      seen := by
  refine ⟨h.guarded.emplaceOther hk habsent k.peer now, h.fed, fun e he hne => ?_, fun e he => ?_⟩
  · rcases (Table.mem_emplace habsent).mp he with rfl | hold
    · refine ⟨rfl, hnamed.outputPath_ne_nil.symm, hnamed.outputPath_ne_nil.symm, ?_, ?_⟩
      · simp [Session.init, ReceiverSession.init]
      · simp [Session.init, ReceiverSession.init]
    · exact h.strangers e hold hne
  · rcases (Table.mem_emplace habsent).mp he with rfl | hold
    · rfl
    · exact h.peers e hold

/-- **Putting the client's session in the table.**  It starts from nothing. -/
lemma emplaceOwn (h : Hosting site sv handed seen)
    (habsent : sv.sessions.find site.key = none) (now : TimePoint) :
    Hosting site { sv with
      sessions := sv.sessions.emplace SessionKey.lt site.key
        (Session.init site.config site.key.peer now) } [] [] := by
  refine ⟨h.guarded.emplaceOwn habsent now, Fed.init _ _ _ _, fun e he hne => ?_, fun e he => ?_⟩
  · rcases (Table.mem_emplace habsent).mp he with rfl | hold
    · exact absurd rfl hne
    · exact h.strangers e hold hne
  · rcases (Table.mem_emplace habsent).mp he with rfl | hold
    · rfl
    · exact h.peers e hold

variable {packet : Packet} {now later : TimePoint} {io : IoEnv}

lemma dispatch_peers (h : Hosting site sv handed seen) (hmem : (k, session) ∈ sv.sessions.entries) :
    ∀ e ∈ (sv.dispatch k session packet now later io).1.sessions.entries, e.2.peer = e.1.peer := by
  obtain ⟨session', hd, hsessions, -, -⟩ := sv.dispatch_spec k session packet now later io
  intro e he
  rw [hsessions] at he
  rcases (Table.mem_set hmem).mp he with rfl | ⟨hold, -⟩
  · exact hd.peer_eq.trans (h.peers _ hmem)
  · exact h.peers e hold

/-- **A packet for another session** does not touch the client's file. -/
lemma dispatchOther (h : Hosting site sv handed seen) (now later : TimePoint) (io : IoEnv)
    (hk : k ≠ site.key)
    (hmem : (k, session) ∈ sv.sessions.entries)
    (hapart : packet.header.packetType = .start → ∀ asked,
      sanitizeFilename packet.payload = (.none, asked) →
        (packet.header.sessionId ≠ site.key.sessionId ∧
          tempName packet.header.sessionId ≠ site.name) ∧
        asked ≠ tempName site.key.sessionId ∧ asked ≠ site.name) :
    Hosting site (sv.dispatch k session packet now later io).1 handed seen ∧
      Untouched site.outputPath sv.fs (sv.dispatch k session packet now later io).1.fs := by
  obtain ⟨session', hd, hsessions, hfs, -⟩ := sv.dispatch_spec k session packet now later io
  have hstep := ReceiverSession.handlePacket_handles session.receiver sv.fs packet io
  have hpaths : session.receiver.Opening packet → ∀ asked,
      sanitizeFilename packet.payload = (.none, asked) →
        joinPath site.config.outputDirectory (tempName packet.header.sessionId)
          ≠ site.outputPath ∧
        joinPath site.config.outputDirectory asked ≠ site.outputPath := by
    intro hopen asked hgood
    obtain ⟨⟨-, htemp⟩, -, hname⟩ := hapart hopen.packetType asked hgood
    rw [Site.outputPath, ne_eq, ne_eq, joinPath_inj, joinPath_inj]
    exact ⟨htemp, hname⟩
  obtain ⟨huntouched, hnext, hstranger⟩ := (h.strangers _ hmem hk).onDisk hpaths hstep.onDisk
  refine ⟨⟨h.guarded.dispatchOther hk hmem fun htype asked hgood => ?_, h.fed,
    fun e he hne => ?_, h.dispatch_peers hmem⟩, hfs ▸ huntouched⟩
  · obtain ⟨⟨hid, -⟩, hname, -⟩ := hapart htype asked hgood
    exact ⟨hid, hname⟩
  · rw [hsessions] at he
    rw [hfs]
    rcases (Table.mem_set hmem).mp he with rfl | ⟨hold, -⟩
    · dsimp only
      rw [hd.receiver_eq]
      split_ifs
      · exact hstranger.closeFile
      · exact hstranger
    · exact (h.strangers e hold hne).grow (huntouched.grows hnext)

/-- The file the client's session has open is not at the client's path. -/
lemma file_ne (h : Hosting site sv handed seen) (hnamed : site.Named)
    (hmem : (site.key, session) ∈ sv.sessions.entries) {fd : ℕ}
    (hfile : session.receiver.file = some fd) : sv.fs.names site.outputPath ≠ some fd := by
  obtain ⟨hown, hmirrors, -⟩ := h.guarded.own session hmem
  obtain ⟨hfinished, hstarted⟩ := hown.file_open fd hfile
  have hlink := hmirrors.linked (hown.verdict.of_unfinished hfinished).2 hfile
  intro hname
  have hsame := sv.fs.names_inj _ _ _ hlink hname
  exact hnamed.tempPath_ne ((hown.temp_eq hstarted).symm.trans hsame)

/-- **The packet with which the client's session publishes** puts the client's file in place. -/
lemma publishOwn (h : Hosting site sv handed seen) (hrange : site.job.InRange)
    (hmem : (site.key, session) ∈ sv.sessions.entries) (hsends : site.job.Sends packet)
    (hpub : (World.mk session.receiver sv.fs).Publishes packet io) :
    ((World.mk session.receiver sv.fs).next (.packet packet io)).fs.view site.outputPath
        = some site.job.data ∧
      ∀ i, ((World.mk session.receiver sv.fs).next (.packet packet io)).fs.names site.outputPath
        = some i → sv.fs.names (site.config.tempPath site.key) = some i := by
  obtain ⟨hown, hmirrors, -⟩ := h.guarded.own session hmem
  obtain ⟨hnext, -, hview⟩ := hmirrors.next hown.verdict packet io
  have hstep := ReceiverSession.handlePacket_handles session.receiver sv.fs packet io
  obtain ⟨hlive, -, -, hrename, houtput, -⟩ := hstep.of_published hpub.1 hpub.2
  have htemp := hown.temp_eq hlive.started
  have hpath : session.receiver.outputPath = site.outputPath := by
    rcases h.paths hmem with hnone | ⟨-, hpath⟩
    · exact absurd (htemp.symm.trans hnone) (joinPath_tempName_ne_nil _ _)
    · exact hpath
  have halone : (solo site.config site.key handed).1.Publishes packet io :=
    ⟨hmirrors.published_eq.trans hpub.1, hnext.published_eq.trans hpub.2⟩
  obtain ⟨hfile, -, -⟩ := h.fed.publishes hrange hsends halone
  have hafter : ((World.mk session.receiver sv.fs).next (.packet packet io)).session.outputPath
      = site.outputPath := houtput.trans hpath
  constructor
  · have hsame := hview hpub.1 hpub.2
    rw [World.publishedFile, hnext.outputPath_eq, ← hsame, hafter] at hfile
    exact hfile
  · intro i hi
    obtain ⟨j, hsrc, hdst, -⟩ := FileSystem.rename_true hrename
    rw [hpath] at hdst
    obtain rfl : j = i := Option.some.inj (hdst.symm.trans hi)
    rw [← htemp]
    exact hsrc

/-- **A packet of the client's** leaves the client's file alone, or puts it in place. -/
lemma dispatchOwn (h : Hosting site sv handed seen) (now later : TimePoint) (io : IoEnv)
    (hrange : site.job.InRange) (hnamed : site.Named)
    (hmem : (site.key, session) ∈ sv.sessions.entries) (hsends : site.job.Sends packet) :
    Hosting site (sv.dispatch site.key session packet now later io).1 (handed ++ [(packet, io)])
        (seen ++ [World.seen ⟨session.receiver, sv.fs⟩ site.key.peer packet io]) ∧
      (Untouched site.outputPath sv.fs (sv.dispatch site.key session packet now later io).1.fs ∧
          ((World.mk session.receiver sv.fs).next (.packet packet io)).session.published
            = session.receiver.published ∨
        (sv.dispatch site.key session packet now later io).1.fs.view site.outputPath
          = some site.job.data) := by
  have hid : packet.header.sessionId = site.key.sessionId := hsends.sessionId hrange
  have hguarded : Guarded site.config site.key (sv.dispatch site.key session packet now later io).1
      (handed ++ [(packet, io)])
      (seen ++ [World.seen ⟨session.receiver, sv.fs⟩ site.key.peer packet io]) :=
    h.guarded.dispatchOwn hmem hid
  have hfed : Fed site.job site.config.outputDirectory
      (solo site.config site.key (handed ++ [(packet, io)])).1 := by
    rw [solo_concat]
    exact h.fed.handle hrange hsends io
  obtain ⟨hown, hmirrors, -⟩ := h.guarded.own session hmem
  obtain ⟨session', hd, hsessions, hfs, -⟩ :=
    sv.dispatch_spec site.key session packet now later io
  have hstep := ReceiverSession.handlePacket_handles session.receiver sv.fs packet io
  have hnext : sv.fs.next ≤ ((World.mk session.receiver sv.fs).next (.packet packet io)).fs.next :=
    (hstep.onDisk.grows hown.temp_eq fun _ name _ => hown.named_tempPath hid name).next_le
  have hstrangers (hother : ∀ e ∈ sv.sessions.entries, e.1 ≠ site.key →
      Stranger site.config.outputDirectory site.outputPath
        ((World.mk session.receiver sv.fs).next (.packet packet io)).fs e.2.receiver) :
      Hosting site (sv.dispatch site.key session packet now later io).1 (handed ++ [(packet, io)])
        (seen ++ [World.seen ⟨session.receiver, sv.fs⟩ site.key.peer packet io]) := by
    refine ⟨hguarded, hfed, fun e he hne => ?_, h.dispatch_peers hmem⟩
    rw [hsessions] at he
    rw [hfs]
    rcases (Table.mem_set hmem).mp he with rfl | ⟨hold, -⟩
    · exact absurd rfl hne
    · exact hother e hold hne
  have huntouched (hleft : Untouched site.outputPath sv.fs
      ((World.mk session.receiver sv.fs).next (.packet packet io)).fs) :=
    hstrangers fun e he hne => (h.strangers e he hne).grow (hleft.grows hnext)
  cases hbefore : session.receiver.published with
  | true =>
      obtain ⟨stats, hsame⟩ := World.next_of_finished (w := ⟨session.receiver, sv.fs⟩)
        (hown.verdict.finished_of_published hbefore) packet io
      have hleft : Untouched site.outputPath sv.fs
          ((World.mk session.receiver sv.fs).next (.packet packet io)).fs := by
        rw [hsame]
        exact .refl _ _
      refine ⟨huntouched hleft, Or.inl ⟨hfs ▸ hleft, ?_⟩⟩
      rw [hsame]
      exact hbefore
  | false =>
      cases hafter : ((World.mk session.receiver sv.fs).next (.packet packet io)).session.published
        with
      | false =>
          have hleft : Untouched site.outputPath sv.fs
              ((World.mk session.receiver sv.fs).next (.packet packet io)).fs := by
            refine hstep.elsewhere (fun fd hfile => h.file_ne hnamed hmem hfile)
              (fun _ name _ => ?_) hafter
            rw [hown.named_tempPath hid name]
            exact hnamed.tempPath_ne
          exact ⟨huntouched hleft, Or.inl ⟨hfs ▸ hleft, rfl⟩⟩
      | true =>
          obtain ⟨hview, hnames⟩ := h.publishOwn hrange hmem hsends ⟨hbefore, hafter⟩
          refine ⟨hstrangers fun e he hne => ?_, Or.inr (hfs ▸ hview)⟩
          obtain ⟨hdirectory, htemp, houtput, -, hlt⟩ := h.strangers e he hne
          refine ⟨hdirectory, htemp, houtput, fun i hi => ?_, fun i hi => (hlt i hi).trans_le hnext⟩
          exact (h.guarded.strangers e he hne).file_ne i (hnames i hi)

end Hosting

/-- What `send_error` sends is an ERROR. -/
lemma Server.decoded_errorWire {request : PacketHeader} {code : StatusCode} {packet : Packet}
    (h : deserialize (errorWire request code) = .ok packet) :
    packet.header.packetType = .error := by
  rw [errorWire] at h
  rw [(decoded_of_serialize ⟨rfl, rfl, rfl⟩ h).1]
  rfl

/-- **The invariant of the server**: what a published session of the client's has published is
there. -/
structure Serving (site : Site) (sv : Server) : Prop where
  hosting : ∃ handed seen, Hosting site sv handed seen
  stored : ∀ session, (site.key, session) ∈ sv.sessions.entries →
    session.receiver.published = true → sv.fs.view site.outputPath = some site.job.data

/-- What holds of the server and its reply after an event: the client's file stays once it is there,
and it is there when the client is sent a FIN_ACK. -/
structure Serves (site : Site) (fs : FileSystem) (result : Server × Option Outgoing) : Prop where
  serving : Serving site result.1
  kept : fs.view site.outputPath = some site.job.data →
    result.1.fs.view site.outputPath = some site.job.data
  truthful : ∀ out, result.2 = some out → out.peer = site.peer → ∀ packet,
    deserialize out.wire = .ok packet → packet.header.sessionId = site.job.config.sessionId →
    packet.header.packetType = .finAck → result.1.fs.view site.outputPath = some site.job.data

namespace Serving

variable {site : Site} {sv : Server} {session : Session} {peer : Endpoint} {packet : Packet}
  {now later : TimePoint} {io : IoEnv} {handed : List (Packet × IoEnv)} {seen : List Seen}

lemma init (site : Site) (fs : FileSystem) : Serving site (Server.init fs) :=
  ⟨⟨[], [], Hosting.init site fs⟩, fun _ h => by simp [Server.init, Table.empty] at h⟩

/-- A server that has done nothing but count. -/
lemma quiet (h : Serving site sv) (sv' : Server) (hsessions : sv'.sessions = sv.sessions)
    (hfs : sv'.fs = sv.fs) {reply : Option Outgoing}
    (hreply : ∀ out, reply = some out → ∀ packet, deserialize out.wire = .ok packet →
      packet.header.packetType ≠ .finAck) : Serves site sv.fs (sv', reply) := by
  obtain ⟨handed, seen, hhosting⟩ := h.hosting
  refine ⟨⟨⟨handed, seen, hhosting.congr hsessions hfs⟩, fun session hmem => ?_⟩, fun hview => ?_,
    fun out hout _ packet hpacket _ hfin => absurd hfin (hreply out hout packet hpacket)⟩
  · dsimp only at hmem ⊢
    rw [hfs]
    exact h.stored session (hsessions ▸ hmem)
  · dsimp only
    rw [hfs]
    exact hview

/-- Whose the reply is can be told from where it goes and which id it carries. -/
lemma key_of_reply {k : SessionKey} (hkey : SessionKey.ofPacket peer packet = k)
    (hpeer : session.peer = k.peer) {out : Outgoing}
    (hout : (((World.mk session.receiver sv.fs).answer packet io).map fun wire =>
      (⟨session.peer, wire⟩ : Outgoing)) = some out) (hsite : out.peer = site.peer)
    {reply : Packet} (hreply : deserialize out.wire = .ok reply)
    (hid : reply.header.sessionId = site.job.config.sessionId) :
    k = site.key ∧ reply.header.packetType =
      ((World.mk session.receiver sv.fs).reply (.packet packet io)).type ∧
      ((World.mk session.receiver sv.fs).reply (.packet packet io)).send = true := by
  obtain ⟨wire, hanswer, rfl⟩ := Option.map_eq_some_iff.mp hout
  simp only [World.answer] at hanswer
  split_ifs at hanswer with hsend
  obtain rfl := Option.some.inj hanswer
  obtain ⟨htype, hsession, -⟩ := Reply.decoded_wire hreply
  refine ⟨?_, htype, hsend⟩
  subst hkey
  have hplace : peer = site.peer := hpeer.symm.trans hsite
  have hsame : packet.header.sessionId = site.job.config.sessionId := hsession.symm.trans hid
  rw [SessionKey.ofPacket, Site.key, hplace, hsame]

/-- **A packet for another session.** -/
lemma dispatchOther (h : Serving site sv) (now later : TimePoint) (io : IoEnv)
    (hk : SessionKey.ofPacket peer packet ≠ site.key)
    (hmem : (SessionKey.ofPacket peer packet, session) ∈ sv.sessions.entries)
    (hapart : packet.header.packetType = .start → ∀ asked,
      sanitizeFilename packet.payload = (.none, asked) →
        (packet.header.sessionId ≠ site.key.sessionId ∧
          tempName packet.header.sessionId ≠ site.name) ∧
        asked ≠ tempName site.key.sessionId ∧ asked ≠ site.name) :
    Serves site sv.fs (sv.dispatch (.ofPacket peer packet) session packet now later io) := by
  obtain ⟨handed, seen, hhosting⟩ := h.hosting
  obtain ⟨hafter, huntouched⟩ :=
    hhosting.dispatchOther now later io hk hmem hapart
  obtain ⟨session', -, hsessions, -, hreply⟩ :=
    sv.dispatch_spec (.ofPacket peer packet) session packet now later io
  refine ⟨⟨⟨handed, seen, hafter⟩, fun s hs hpublished => ?_⟩, fun hview => ?_,
    fun out hout hsite reply hdecoded hid hfin => ?_⟩
  · rw [hsessions] at hs
    rw [huntouched.view_eq]
    rcases (Table.mem_set hmem).mp hs with heq | ⟨hold, -⟩
    · exact absurd (Prod.mk.inj heq).1.symm hk
    · exact h.stored s hold hpublished
  · exact huntouched.view_eq.trans hview
  · rw [hreply] at hout
    exact absurd (key_of_reply rfl (hhosting.peers _ hmem) hout hsite hdecoded hid).1 hk

/-- **A packet of the client's.** -/
lemma dispatchOwn (hhosting : Hosting site sv handed seen) (now later : TimePoint) (io : IoEnv)
    (hstored : session.receiver.published = true →
      sv.fs.view site.outputPath = some site.job.data)
    (hrange : site.job.InRange) (hnamed : site.Named)
    (hmem : (site.key, session) ∈ sv.sessions.entries)
    (hkey : SessionKey.ofPacket peer packet = site.key) (hsends : site.job.Sends packet) :
    Serves site sv.fs (sv.dispatch site.key session packet now later io) := by
  obtain ⟨hafter, hleft⟩ :=
    hhosting.dispatchOwn now later io hrange hnamed hmem hsends
  obtain ⟨session', hd, hsessions, -, hreply⟩ :=
    sv.dispatch_spec site.key session packet now later io
  obtain ⟨hown, -, -⟩ := hhosting.guarded.own session hmem
  -- a session that has published by now had published before, or has done so just now
  have hpublished : ((World.mk session.receiver sv.fs).next (.packet packet io)).session.published
        = true →
      (sv.dispatch site.key session packet now later io).1.fs.view site.outputPath
        = some site.job.data := by
    intro hpub
    rcases hleft with ⟨huntouched, hsame⟩ | hview
    · exact huntouched.view_eq.trans (hstored (hsame ▸ hpub))
    · exact hview
  refine ⟨⟨⟨_, _, hafter⟩, fun s hs hpub => ?_⟩, fun hview => ?_,
    fun out hout hsite reply hdecoded hid hfin => ?_⟩
  · rw [hsessions] at hs
    rcases (Table.mem_set hmem).mp hs with heq | ⟨-, hne⟩
    · obtain rfl := (Prod.mk.inj heq).2
      refine hpublished ?_
      rw [hd.same] at hpub
      exact hpub
    · exact absurd rfl hne
  · rcases hleft with ⟨huntouched, -⟩ | hdone
    · exact huntouched.view_eq.trans hview
    · exact hdone
  · rw [hreply] at hout
    obtain ⟨-, htype, hsend⟩ := key_of_reply hkey hown.peer_eq hout hsite hdecoded hid
    exact hpublished (World.of_finAck hown.verdict ⟨hsend, htype.symm.trans hfin⟩)

/-- **Erasing sessions.** -/
lemma eraseIf (h : Serving site sv) (hnamed : site.Named) (p : SessionKey × Session → Bool) :
    Serving site (sv.eraseIf p) ∧ Untouched site.outputPath sv.fs (sv.eraseIf p).fs := by
  obtain ⟨handed, seen, hhosting⟩ := h.hosting
  obtain ⟨hafter, huntouched⟩ := hhosting.eraseIf hnamed p
  refine ⟨⟨⟨handed, seen, hafter⟩, fun session hmem hpublished => ?_⟩, huntouched⟩
  exact huntouched.view_eq.trans (h.stored session (Table.mem_eraseIf.mp hmem).1 hpublished)

lemma makeRoom (h : Serving site sv) (hnamed : site.Named) :
    Serving site (sv.makeRoom site.config) ∧
      Untouched site.outputPath sv.fs (sv.makeRoom site.config).fs := by
  rw [Server.makeRoom]
  split_ifs
  · exact h.eraseIf hnamed _
  · exact ⟨h, .refl _ _⟩

/-- **Every datagram keeps the invariant**, and a FIN_ACK for the client is truthful. -/
lemma onDatagram (h : Serving site sv) (hrange : site.job.InRange) (hnamed : site.Named)
    {bytes : Bytes} (hapart : ServerEvent.apart site.key site.name
      (.datagram peer bytes now later io) = true)
    (hsent : ∀ packet, deserialize bytes = .ok packet →
      SessionKey.ofPacket peer packet = site.key → site.job.Sends packet) :
    Serves site sv.fs (sv.onDatagram site.config peer bytes now later io) := by
  have hreacts := Server.onDatagram_reacts site.config sv peer bytes now later io
  generalize sv.onDatagram site.config peer bytes now later io = result at hreacts
  cases hreacts with
  | malformed => exact h.quiet sv rfl rfl (by simp)
  | unknown => exact h.quiet sv rfl rfl (by simp)
  | refused packet hpacket =>
      refine h.quiet { sv with refused := sv.refused + 1 } rfl rfl fun out hout reply hreply => ?_
      obtain rfl := Option.some.inj hout
      dsimp only at hreply
      rw [Server.decoded_errorWire hreply]
      decide
  | known packet hpacket session hpresent =>
      have hmem := Table.find_eq_some_iff.mp hpresent
      by_cases hkey : SessionKey.ofPacket peer packet = site.key
      · obtain ⟨handed, seen, hhosting⟩ := h.hosting
        rw [hkey] at hmem ⊢
        exact dispatchOwn hhosting now later io (h.stored session hmem) hrange hnamed hmem hkey
          (hsent packet hpacket hkey)
      · exact h.dispatchOther now later io hkey hmem
          (ServerEvent.names_of_apart hapart hpacket hkey)
  | opened packet hpacket habsent htype hroom =>
      obtain ⟨hroomy, huntouched⟩ := h.makeRoom hnamed
      obtain ⟨handed, seen, hhosting⟩ := hroomy.hosting
      have habsent' := Server.makeRoom_find_none site.config habsent
      have hmem := Table.mem_emplace_self SessionKey.lt habsent' (Session.init site.config peer now)
      by_cases hkey : SessionKey.ofPacket peer packet = site.key
      · obtain rfl : peer = site.key.peer := by rw [← hkey]; rfl
        rw [hkey] at habsent' hmem ⊢
        have hserves := dispatchOwn (hhosting.emplaceOwn habsent' now) now later io
          (fun hp => by simp [Session.init, ReceiverSession.init] at hp) hrange hnamed hmem hkey
          (hsent packet hpacket hkey)
        exact ⟨hserves.serving, fun hview => hserves.kept (huntouched.view_eq.trans hview),
          hserves.truthful⟩
      · have hplaced : Serving site { sv.makeRoom site.config with
            sessions := (sv.makeRoom site.config).sessions.emplace SessionKey.lt
              (.ofPacket peer packet) (Session.init site.config peer now) } := by
          refine ⟨⟨handed, seen, hhosting.emplaceOther hnamed hkey habsent' now⟩,
            fun s hs hpublished => ?_⟩
          rcases (Table.mem_emplace habsent').mp hs with heq | hold
          · exact absurd (Prod.mk.inj heq).1.symm hkey
          · exact hroomy.stored s hold hpublished
        have hserves := hplaced.dispatchOther now later io hkey hmem
          (ServerEvent.names_of_apart hapart hpacket hkey)
        exact ⟨hserves.serving, fun hview => hserves.kept (huntouched.view_eq.trans hview),
          hserves.truthful⟩

/-- **Every event keeps the invariant.** -/
lemma next (h : Serving site sv) (hrange : site.job.InRange) (hnamed : site.Named)
    {e : ServerEvent} (hapart : e.apart site.key site.name = true)
    (hsent : ∀ p, e.packetFor site.key = some p → site.job.Sends p.1) :
    Serves site sv.fs (sv.next site.config e, sv.reply site.config e) := by
  cases e with
  | sweep now =>
      obtain ⟨hafter, huntouched⟩ := h.eraseIf hnamed fun e => e.2.stale site.config now
      obtain ⟨handed, seen, hhosting⟩ := hafter.hosting
      refine ⟨⟨⟨handed, seen, hhosting.congr rfl rfl⟩, hafter.stored⟩,
        fun hview => huntouched.view_eq.trans hview, fun out hout => ?_⟩
      simp [Server.reply] at hout
  | datagram peer bytes now later io =>
      exact h.onDatagram hrange hnamed hapart fun packet hpacket hkey =>
        hsent _ (ServerEvent.packetFor_own hpacket hkey)

end Serving

/-! ## Both sides -/

/-- **The joint invariant.** -/
structure Delivering (site : Site) (d : Deployment Q) : Prop where
  client : d.client.Inv site.job
  sent : ∀ bytes ∈ d.toServer, ∃ p, bytes = site.job.wireOf p ∧
    ∀ t, p = .data t → t < site.job.totalChunks
  serving : Serving site d.server
  acknowledged : ∀ bytes ∈ d.toClient, ∀ packet, deserialize bytes = .ok packet →
    packet.header.sessionId = site.job.config.sessionId → packet.header.packetType = .finAck →
    d.server.fs.view site.outputPath = some site.job.data
  done : d.client.phase = .done .none →
    d.server.fs.view site.outputPath = some site.job.data

namespace Delivering

variable {site : Site} {d : Deployment Q}

lemma init (site : Site) (fs : FileSystem) : Delivering site (Deployment.init Q site fs) where
  client := Sender.init_inv Q site.job
  sent := by simp [Deployment.init]
  serving := Serving.init site fs
  acknowledged := by simp [Deployment.init]
  done h := by simp [Deployment.init, Sender.init] at h

/-- **A step of the client keeps the invariant.** -/
lemma clientStep (h : Delivering site d) {env : SenderEnv}
    (henabled : d.Enabled site (.client env)) : Delivering site (d.next site (.client env)) := by
  have hsteps : Sender.Steps site.job d.client env (d.client.step site.job env).1
      (d.client.step site.job env).2 := Sender.step_steps h.client
  refine ⟨hsteps.inv, fun bytes hbytes => ?_, h.serving, h.acknowledged, fun hdone => ?_⟩
  · rcases List.mem_append.mp hbytes with hold | hnew
    · exact h.sent bytes hold
    · exact (hsteps.emits bytes (Option.mem_toList.mp hnew)).wireOf hsteps.inv
  · rcases hsteps.finished hdone with hwas | ⟨packet, ⟨bytes, hrecv, hpacket⟩, htype, hid⟩
    · exact h.done hwas
    · -- the FIN_ACK carries the session id, so it came from the server
      simp only [Deployment.Enabled, hrecv] at henabled
      rcases henabled with hmem | hforeign
      · exact h.acknowledged bytes hmem packet hpacket hid htype
      · simp [Job.foreign, hpacket, hid] at hforeign

/-- A packet for the client's session is one the client has sent. -/
lemma sends_of_packetFor (h : Delivering site d) {e : ServerEvent}
    (henabled : d.Enabled site (.server e)) {p : Packet × IoEnv}
    (hpacket : e.packetFor site.key = some p) : site.job.Sends p.1 := by
  cases e with
  | sweep now => simp [ServerEvent.packetFor] at hpacket
  | datagram peer bytes now later io =>
      obtain ⟨own, rfl, hlt⟩ := h.sent bytes (henabled (by rw [hpacket]; rfl))
      simp only [ServerEvent.packetFor] at hpacket
      split at hpacket
      · next packet hdecoded =>
        split_ifs at hpacket
        obtain rfl := Option.some.inj hpacket
        exact ⟨own, hdecoded, hlt⟩
      · simp at hpacket

/-- **An event of the server keeps the invariant.** -/
lemma serverStep (h : Delivering site d) (hrange : site.job.InRange) (hnamed : site.Named)
    {e : ServerEvent} (henabled : d.Enabled site (.server e))
    (hapart : e.apart site.key site.name = true) :
    Delivering site (d.next site (.server e)) := by
  have hserves := h.serving.next hrange hnamed hapart fun p hp => h.sends_of_packetFor henabled hp
  refine ⟨h.client, h.sent, hserves.serving, fun bytes hbytes packet hpacket hid hfin => ?_,
    fun hdone => hserves.kept (h.done hdone)⟩
  rcases List.mem_append.mp hbytes with hold | hnew
  · exact hserves.kept (h.acknowledged bytes hold packet hpacket hid hfin)
  · obtain ⟨out, hout, rfl⟩ := Option.map_eq_some_iff.mp (Option.mem_toList.mp hnew)
    obtain ⟨hreply, hpeer⟩ := Option.filter_eq_some_iff.mp hout
    exact hserves.truthful out hreply (by simpa using hpeer) packet hpacket hid hfin

end Delivering

/-- **The joint invariant holds throughout a run.** -/
lemma Deployment.run_delivering {site : Site} (hrange : site.job.InRange) (hnamed : site.Named)
    (fs : FileSystem) {events : List DeployEvent}
    (hruns : (Deployment.init Q site fs).Runs site events)
    (hapart : ∀ e ∈ events, e.apart site = true) :
    Delivering site ((Deployment.init Q site fs).run site events) := by
  induction events using List.reverseRecOn with
  | nil => exact Delivering.init site fs
  | append_singleton events e ih =>
      obtain ⟨hbefore, henabled⟩ := runs_concat.mp hruns
      have hdelivering := ih hbefore fun d hd => hapart d (List.mem_append_left _ hd)
      rw [run_concat]
      cases e with
      | client env => exact hdelivering.clientStep henabled
      | server e =>
          exact hdelivering.serverStep hrange hnamed henabled (hapart (.server e) (by simp))

/-- **Success is durable.**  In every run of a client and the server, whatever else the server does
and however its system calls turn out: when `send_file` has returned `kNone`, the output directory
holds the client's file under the name it asked for.  No START of another client asks for one of the
names the session uses. -/
theorem success_is_durable (Q : TimerQueue) (site : Site) (fs : FileSystem)
    (events : List DeployEvent) (hrange : site.job.InRange) (hnamed : site.Named)
    (hruns : (Deployment.init Q site fs).Runs site events)
    (hapart : ∀ e ∈ events, e.apart site = true) :
    let d := (Deployment.init Q site fs).run site events
    d.client.phase = .done .none → d.server.fs.view site.outputPath = some site.job.data :=
  (Deployment.run_delivering hrange hnamed fs hruns hapart).done

/-! ### A client among others

The one-byte transfer; another client opens a session in between, the client's own session is swept
away while the chunk is on its way, a late START puts it back, and the chunk is sent again. -/

def sampleSite : Site where
  job := sampleJob
  peer := ⟨asciiBytes "10.0.0.1", 5000⟩
  config := { outputDirectory := asciiBytes "out" }

def sampleArrives (p : OwnPacket) (now : TimePoint) : DeployEvent :=
  .server (.datagram sampleSite.peer (sampleJob.wireOf p) now now {})

/-- A START for the name `g` from elsewhere. -/
def sampleStranger : DeployEvent :=
  .server (.datagram ⟨asciiBytes "10.0.0.2", 5000⟩
    (serialize { packetType := .start, sessionId := 8, byteOffset := 1 } (asciiBytes "g")) 0 0 {})

def sampleShared : List DeployEvent :=
  [.client {}, sampleArrives (.control .start) 0,
    .client { recv := .datagram (sampleAnswer .startAck 0) }, sampleStranger, .client {},
    .client {}, .server (.sweep 40000000000), sampleArrives (.control .start) 40000000000,
    .client {}, .client { later := 1 }, .client { now := 1 },
    sampleArrives (.data 0) 40000000000, .client {}, .client {}, .client {},
    .client { recv := .datagram (sampleAnswer .ack 0), now := 1, later := 1 }, .client {},
    .client {}, .client {}, sampleArrives (.control .fin) 40000000000,
    .client { recv := .datagram (sampleAnswer .finAck 1) }, .server (.sweep 90000000000)]

/-- The client has its file. -/
theorem success_is_durable_among_others :
    let d := (Deployment.init sortedTimers sampleSite .empty).run sampleSite sampleShared
    d.server.fs.view sampleSite.outputPath = some (asciiBytes "x") ∧ d.server.expired = 2 := by
  intro d
  refine ⟨?_, by decide +kernel⟩
  exact success_is_durable sortedTimers sampleSite .empty sampleShared ⟨by decide, by decide⟩
    ⟨by decide, by decide⟩ (by decide +kernel) (by decide +kernel) (by decide +kernel)

end SwiftLink
