import SwiftLink.Server.Lifetime
import SwiftLink.System.Deployment
import SwiftLink.System.Progress

/-!
# A transfer that gets through the server

`transfer_completes` gives the session a network of its own.  The server gives it an entry in a
table that others fill too, and a file in a directory that others write to.  What the client needs
of the server is that it keeps its place: no event retires its session while `send_file` runs, and
there is room for it when its START comes (`Admits`).

* `Server.reply_addressed` — a reply goes to where the datagram came from and carries its id.
* `Beside` — the client and the server, beside a `System` in which the session is alone.  An event
  for somebody else is no event there, and a packet of the client's is delivered (`System.trace`).
* `server_transfer_completes` — with a round trip for every packet whose budget is spent, the
  transfer ends, without error, and the directory holds the file.
-/

namespace SwiftLink

variable {Q : TimerQueue}

/-! ## What the server sends to whom -/

/-- An event with a packet for the session of `key`. -/
lemma ServerEvent.datagram_of_packetFor {key : SessionKey} {e : ServerEvent} {packet : Packet}
    {io : IoEnv} (h : e.packetFor key = some (packet, io)) :
    ∃ bytes now later, e = .datagram key.peer bytes now later io ∧
      deserialize bytes = .ok packet := by
  cases e with
  | sweep now => simp [packetFor] at h
  | datagram peer bytes now later io' =>
      rw [packetFor] at h
      split at h
      · next packet' hpacket =>
        split_ifs at h with hkey
        obtain ⟨rfl, rfl⟩ := Prod.mk.inj (Option.some.inj h)
        obtain rfl : peer = key.peer := by rw [← hkey]; rfl
        exact ⟨bytes, now, later, rfl, hpacket⟩
      · simp at h

namespace Server

variable {config : ServerConfig} {sv : Server} {key : SessionKey} {session : Session}
  {e : ServerEvent} {packet : Packet} {io : IoEnv}

lemma sessionId_errorWire {request : PacketHeader} {code : StatusCode} {reply : Packet}
    (h : deserialize (errorWire request code) = .ok reply) :
    reply.header.sessionId = request.sessionId := by
  rw [errorWire] at h
  rw [(decoded_of_serialize ⟨rfl, rfl, rfl⟩ h).1]
  rfl

/-- What a session sends when a packet is handed to it goes to its peer, with the packet's id. -/
lemma dispatch_addressed {now later : TimePoint} {out : Outgoing} {reply : Packet}
    (hout : (sv.dispatch key session packet now later io).2 = some out)
    (hreply : deserialize out.wire = .ok reply) :
    out.peer = session.peer ∧ reply.header.sessionId = packet.header.sessionId := by
  obtain ⟨session', -, -, -, hanswer⟩ := sv.dispatch_spec key session packet now later io
  rw [hanswer] at hout
  obtain ⟨wire, hwire, rfl⟩ := Option.map_eq_some_iff.mp hout
  simp only [World.answer] at hwire
  split_ifs at hwire
  obtain rfl := Option.some.inj hwire
  exact ⟨rfl, (Reply.decoded_wire hreply).2.1⟩

/-- **A reply is addressed**: the datagram it answers is a packet under the address it goes to and
the id it carries. -/
lemma reply_addressed (hpeers : ∀ d ∈ sv.sessions.entries, d.2.peer = d.1.peer) {out : Outgoing}
    (hout : sv.reply config e = some out) {reply : Packet}
    (hreply : deserialize out.wire = .ok reply) :
    (e.packetFor ⟨out.peer.address, out.peer.port, reply.header.sessionId⟩).isSome = true := by
  cases e with
  | sweep now => simp [Server.reply] at hout
  | datagram peer bytes now later io =>
      -- it is enough that the reply goes back with the packet's id
      have hback (packet : Packet) (hpacket : deserialize bytes = .ok packet)
          (h : out.peer = peer ∧ reply.header.sessionId = packet.header.sessionId) :
          ((ServerEvent.datagram peer bytes now later io).packetFor
            ⟨out.peer.address, out.peer.port, reply.header.sessionId⟩).isSome = true := by
        have hown : (ServerEvent.datagram peer bytes now later io).packetFor
            (SessionKey.ofPacket peer packet) = some (packet, io) :=
          ServerEvent.packetFor_own hpacket rfl
        rw [h.1, h.2]
        exact congrArg Option.isSome hown
      have hreacts := onDatagram_reacts config sv peer bytes now later io
      rw [Server.reply] at hout
      generalize sv.onDatagram config peer bytes now later io = result at hreacts hout
      cases hreacts with
      | malformed => simp at hout
      | unknown => simp at hout
      | refused packet hpacket =>
          obtain rfl := Option.some.inj hout
          dsimp only at hreply
          exact hback packet hpacket ⟨rfl, sessionId_errorWire hreply⟩
      | known packet hpacket session hpresent =>
          obtain ⟨hpeer, hid⟩ := dispatch_addressed hout hreply
          have hplace := hpeers _ (Table.find_eq_some_iff.mp hpresent)
          exact hback packet hpacket ⟨hpeer.trans hplace, hid⟩
      | opened packet hpacket =>
          exact hback packet hpacket (dispatch_addressed hout hreply)

/-- **A START that finds no session** opens one when there is room. -/
lemma next_opens (habsent : sv.sessions.find key = none)
    (hpacket : e.packetFor key = some (packet, io)) (htype : packet.header.packetType = .start)
    (hroom : sv.active < config.maxSessions) :
    ((sv.next config e).sessions.find key).isSome = true := by
  obtain ⟨bytes, now, later, rfl, hdecoded⟩ := ServerEvent.datagram_of_packetFor hpacket
  have hkey : SessionKey.ofPacket key.peer packet = key := by
    rw [SessionKey.ofPacket, ServerEvent.sessionId_of_packetFor hpacket]
    rfl
  let opened : Server := { sv.makeRoom config with
    sessions := (sv.makeRoom config).sessions.emplace SessionKey.lt key
      (Session.init config key.peer now) }
  have hmem : (key, Session.init config key.peer now) ∈ opened.sessions.entries :=
    Table.mem_emplace_self SessionKey.lt (makeRoom_find_none config habsent) _
  have hdatagram : sv.onDatagram config key.peer bytes now later io =
      opened.dispatch key (Session.init config key.peer now) packet now later io := by
    simp only [onDatagram, hdecoded, hkey, habsent, htype, ne_eq, not_true_eq_false, if_false,
      not_le.mpr hroom, opened]
  obtain ⟨session', hfind, -⟩ := dispatch_find hmem packet now later io
  rw [next, hdatagram, hfind]
  rfl

end Server

/-! ## What the transfer needs -/

/-- The client's part of a run. -/
def clientEnvs : List DeployEvent → List SenderEnv
  | [] => []
  | .client env :: events => env :: clientEnvs events
  | .server _ :: events => clientEnvs events

/-- `send_file` has returned. -/
def SenderPhase.returned : SenderPhase → Bool
  | .done _ => true
  | _ => false

lemma SenderPhase.returned_eq_false {phase : SenderPhase} (h : ∀ error, phase ≠ .done error) :
    phase.returned = false := by
  cases phase with
  | done error => exact absurd rfl (h error)
  | _ => rfl

/-- No call made for the client fails, and nobody but the server is heard. -/
def DeployEvent.Works (site : Site) : DeployEvent → Prop
  | .client env =>
      env.Works ∧ ∀ bytes, env.recv = .datagram bytes → site.job.foreign bytes = false
  | .server e => ∀ p, e.packetFor site.key = some p → p.2.Succeeds

namespace Deployment

variable {site : Site} {d : Deployment Q} {first second events : List DeployEvent}

/-- The event leaves the client its session, or finds room for it. -/
def hosts (site : Site) (d : Deployment Q) : DeployEvent → Bool
  | .client _ => true
  | .server e =>
      match d.server.sessions.find site.key with
      | some session => !d.server.retires site.config session e
      | none => (e.packetFor site.key).isNone || decide (d.server.active < site.config.maxSessions)

/-- **The server keeps the client's place** for as long as `send_file` runs. -/
def Admits (site : Site) (d : Deployment Q) : List DeployEvent → Prop
  | [] => True
  | e :: events =>
      (d.client.phase.returned || d.hosts site e) = true ∧ (d.next site e).Admits site events

instance instDecidableAdmits (site : Site) (d : Deployment Q) (events : List DeployEvent) :
    Decidable (d.Admits site events) :=
  match events with
  | [] => isTrue trivial
  | e :: events =>
      have : Decidable ((d.next site e).Admits site events) := instDecidableAdmits site _ events
      inferInstanceAs (Decidable (_ ∧ _))

/-- A copy of the packet gets to the server, and what the server answers to it, if anything, gets
back while the client waits. -/
def RoundTrip (site : Site) (d : Deployment Q) (events : List DeployEvent) (p : OwnPacket) :
    Prop :=
  ∃ before now later io during env after,
    let arrival : ServerEvent := .datagram site.peer (site.job.wireOf p) now later io
    let waiting := d.run site (before ++ .server arrival :: during)
    events = (before ++ .server arrival :: during) ++ .client env :: after ∧
    waiting.client.waits env = true ∧
    ∀ out, (d.run site before).server.reply site.config arrival = some out →
      waiting.client.Receives env out.wire

/-! ## Parts of a run -/

lemma run_append (site : Site) (d : Deployment Q) (first second : List DeployEvent) :
    d.run site (first ++ second) = (d.run site first).run site second :=
  List.foldl_append

lemma runs_append (h : d.Runs site (first ++ second)) :
    d.Runs site first ∧ (d.run site first).Runs site second := by
  induction first generalizing d with
  | nil => exact ⟨trivial, h⟩
  | cons e first ih =>
      obtain ⟨hfirst, hsecond⟩ := ih h.2
      exact ⟨⟨h.1, hfirst⟩, hsecond⟩

lemma admits_append (h : d.Admits site (first ++ second)) :
    d.Admits site first ∧ (d.run site first).Admits site second := by
  induction first generalizing d with
  | nil => exact ⟨trivial, h⟩
  | cons e first ih =>
      obtain ⟨hfirst, hsecond⟩ := ih h.2
      exact ⟨⟨h.1, hfirst⟩, hsecond⟩

lemma clientEnvs_append (first second : List DeployEvent) :
    clientEnvs (first ++ second) = clientEnvs first ++ clientEnvs second := by
  induction first with
  | nil => rfl
  | cons e first ih => cases e <;> simp [clientEnvs, ih]

lemma run_client (site : Site) (d : Deployment Q) (events : List DeployEvent) :
    (d.run site events).client = d.client.run site.job (clientEnvs events) := by
  induction events generalizing d with
  | nil => rfl
  | cons e events ih =>
      cases e with
      | client env => exact ih _
      | server e => exact ih _

/-- Nothing happens to a client that has returned. -/
lemma run_of_done {error : TransferError} (h : d.client.phase = .done error)
    (events : List DeployEvent) : (d.run site events).client = d.client := by
  induction events generalizing d with
  | nil => rfl
  | cons e events ih =>
      have hsame : (d.next site e).client = d.client := by
        cases e with
        | client env => simp [next, Sender.step, h]
        | server e => rfl
      exact (ih (hsame ▸ h)).trans hsame

/-- A client that has not returned had not returned before. -/
lemma alive_of_run (events : List DeployEvent)
    (halive : ∀ error, (d.run site events).client.phase ≠ .done error) (error : TransferError) :
    d.client.phase ≠ .done error := by
  intro hdone
  refine halive error ?_
  rw [run_of_done hdone]
  exact hdone

/-- The step at which `send_file` returns. -/
lemma returned_at {error : TransferError} (hstart : ∀ e, d.client.phase ≠ .done e)
    (hdone : (d.run site events).client.phase = .done error) :
    ∃ first env second, events = first ++ .client env :: second ∧
      (∀ e, (d.run site first).client.phase ≠ .done e) ∧
      ((d.run site first).client.step site.job env).1.phase = .done error := by
  induction events generalizing d with
  | nil => exact absurd hdone (hstart error)
  | cons e events ih =>
      by_cases hnow : ∃ error', (d.next site e).client.phase = .done error'
      · obtain ⟨error', hnow⟩ := hnow
        have hsame : ((d.next site e).run site events).client = (d.next site e).client :=
          run_of_done hnow events
        cases e with
        | server e => exact absurd hnow (hstart error')
        | client env =>
            exact ⟨[], env, events, rfl, hstart, (congrArg Sender.phase hsame).symm.trans hdone⟩
      · obtain ⟨first, env, second, rfl, hrest⟩ := ih (fun e' h => hnow ⟨e', h⟩) hdone
        exact ⟨e :: first, env, second, rfl, hrest⟩

end Deployment

/-! ## The same transfer alone -/

namespace System

variable {site : Site} {sys : System Q} {first second : List DeployEvent}

/-- What an event of the deployment is when the session has the server to itself. -/
def alone (site : Site) (sys : System Q) : DeployEvent → List NetEvent
  | .client env => [.sender env]
  | .server (.sweep _) => []
  | .server (.datagram peer bytes now later io) =>
      if ((ServerEvent.datagram peer bytes now later io).packetFor site.key).isSome then
        .deliver bytes io ::
          if (sys.next site.job (.deliver bytes io)).receiver.session.finished then [.closeFile]
          else []
      else []

def trace (site : Site) (sys : System Q) : List DeployEvent → List NetEvent
  | [] => []
  | e :: events => sys.alone site e ++ (sys.run site.job (sys.alone site e)).trace site events

lemma trace_append (first second : List DeployEvent) :
    sys.trace site (first ++ second) =
      sys.trace site first ++ (sys.run site.job (sys.trace site first)).trace site second := by
  induction first generalizing sys with
  | nil => rfl
  | cons e first ih => simp only [List.cons_append, trace, ih, List.append_assoc, run_append]

lemma runs_of_append {first second : List NetEvent} (hfirst : sys.Runs site.job first)
    (hsecond : (sys.run site.job first).Runs site.job second) :
    sys.Runs site.job (first ++ second) := by
  induction first generalizing sys with
  | nil => exact hsecond
  | cons e first ih => exact ⟨hfirst.1, ih hfirst.2 hsecond⟩

/-- A packet of the client's, delivered and the file closed when that settles the session. -/
lemma alone_own {peer : Endpoint} {bytes : Bytes} {now later : TimePoint} {io : IoEnv}
    {packet : Packet} (hdecoded : deserialize bytes = .ok packet)
    (hpacket : (ServerEvent.datagram peer bytes now later io).packetFor site.key =
      some (packet, io)) (hsent : bytes ∈ sys.toReceiver) :
    let events := sys.alone site (.server (.datagram peer bytes now later io))
    sys.Runs site.job events ∧
      sys.run site.job events =
        { sys with
          receiver := sys.receiver.handle packet io
          toSender := sys.toSender ++ (sys.receiver.answer packet io).toList } := by
  intro events
  have hnext : sys.next site.job (.deliver bytes io) =
      { sys with
        receiver := sys.receiver.next (.packet packet io)
        toSender := sys.toSender ++ (sys.receiver.answer packet io).toList } := by
    simp only [next, World.receive, hdecoded]
  have hevents : events = .deliver bytes io ::
      if (sys.receiver.next (.packet packet io)).session.finished then [.closeFile] else [] := by
    simp only [events, alone, hpacket, Option.isSome_some, if_true, hnext]
  rw [hevents, World.handle]
  split_ifs with hfinished
  · refine ⟨⟨hsent, ?_, trivial⟩, ?_⟩
    · rw [hnext]
      exact hfinished
    · show (sys.next site.job (.deliver bytes io)).next site.job .closeFile = _
      rw [hnext]
      rfl
  · exact ⟨⟨hsent, trivial⟩, hnext⟩

end System

/-- A datagram that is not foreign is a packet with the id of the job. -/
lemma Job.own_of_foreign {job : Job} {bytes : Bytes} (h : job.foreign bytes = false) :
    ∃ packet, deserialize bytes = .ok packet ∧
      packet.header.sessionId = job.config.sessionId := by
  rw [foreign] at h
  split at h
  · next packet hpacket => exact ⟨packet, hpacket, by simpa using h⟩
  · simp at h

/-- What is apart of the client's session is separate from it. -/
lemma ServerEvent.separate_of_apart {key : SessionKey} {name : Bytes} {e : ServerEvent}
    (h : e.apart key name = true) : e.separate key = true := by
  cases e with
  | sweep now => rfl
  | datagram peer bytes now later io =>
      rw [separate]
      cases hdecoded : deserialize bytes with
      | error reason => rfl
      | ok packet =>
          simp only [apart, hdecoded, Bool.or_eq_true, Bool.and_eq_true] at h ⊢
          rcases h with h | ⟨⟨⟨hid, -⟩, hasked⟩, -⟩
          · exact Or.inl h
          · exact Or.inr ⟨hid, hasked⟩

namespace Watched

variable {config : ServerConfig} {key : SessionKey} {v : Watched} {e : ServerEvent}

/-- A packet for a session that stays is handed to it. -/
lemma next_own {p : Packet × IoEnv}
    (hpresent : ((v.server.next config e).sessions.find key).isSome = true)
    (hpacket : e.packetFor key = some p) :
    v.next config key e = ⟨v.server.next config e, v.handed ++ [p],
      v.seen ++ [v.server.seen config key e]⟩ := by
  obtain ⟨session, hfind⟩ := Option.isSome_iff_exists.mp hpresent
  simp only [next, hfind, hpacket]

lemma next_server (v : Watched) (e : ServerEvent) :
    (v.next config key e).server = v.server.next config e := by
  simp only [next]
  split
  · rfl
  · split <;> rfl

end Watched

/-- **The server answers for the session** as the session would alone. -/
lemma Kept.reply_eq {config : ServerConfig} {key : SessionKey} {v : Watched} {e : ServerEvent}
    (h : Kept config key v) (hseparate : e.separate key = true) {packet : Packet} {io : IoEnv}
    (hpacket : e.packetFor key = some (packet, io))
    (hpresent : ((v.server.next config e).sessions.find key).isSome = true) :
    v.server.reply config e = ((solo config key v.handed).1.answer packet io).map
      fun wire => ⟨key.peer, wire⟩ := by
  have hnext := h.next hseparate
  rw [Watched.next_own hpresent hpacket] at hnext
  obtain ⟨hseen, -⟩ := hnext.alone hpresent
  rw [solo_concat] at hseen
  have hlast := (List.append_inj' hseen rfl).2
  exact congrArg Seen.reply (List.singleton_inj.mp hlast)

/-- The client and a session of its own, to begin with. -/
def Site.alone (Q : TimerQueue) (site : Site) : System Q :=
  System.init Q site.job site.config.windowSize site.config.outputDirectory .empty

/-- **The client and the server, beside the same transfer alone.** -/
structure Beside (site : Site) (d : Deployment Q) (sys : System Q) : Prop where
  client : d.client = sys.sender
  toServer : d.toServer = sys.toReceiver
  toClient : ∀ bytes ∈ d.toClient, site.job.foreign bytes = false → bytes ∈ sys.toSender
  watched : ∃ v : Watched, v.server = d.server ∧ Kept site.config site.key v ∧
    sys.receiver = (solo site.config site.key v.handed).1

namespace Beside

variable {site : Site} {d : Deployment Q} {sys : System Q}

lemma init (site : Site) (fs : FileSystem) :
    Beside site (Deployment.init Q site fs) (site.alone Q) where
  client := rfl
  toServer := rfl
  toClient := by simp [Deployment.init]
  watched := ⟨Watched.init fs, rfl, ⟨Guarded.init _ _ fs, fun _ => ⟨rfl, rfl⟩⟩, rfl⟩

/-- **A step of the client.** -/
lemma clientStep (h : Beside site d sys) {env : SenderEnv}
    (henabled : d.Enabled site (.client env))
    (hworks : (DeployEvent.client env).Works site) :
    sys.Enabled (.sender env) ∧
      Beside site (d.next site (.client env)) (sys.next site.job (.sender env)) := by
  constructor
  · cases hrecv : env.recv with
    | datagram bytes =>
        have hown := hworks.2 bytes hrecv
        simp only [Deployment.Enabled, hrecv, hown, Bool.false_eq_true, or_false] at henabled
        simp only [System.Enabled, hrecv]
        exact h.toClient bytes henabled hown
    | wouldBlock => simp [System.Enabled, hrecv]
    | interrupted => simp [System.Enabled, hrecv]
    | failed => simp [System.Enabled, hrecv]
  · refine ⟨?_, ?_, h.toClient, h.watched⟩
    · show (d.client.step site.job env).1 = (sys.sender.step site.job env).1
      rw [h.client]
    · show d.toServer ++ (d.client.step site.job env).2.toList =
        sys.toReceiver ++ (sys.sender.step site.job env).2.toList
      rw [h.client, h.toServer]

/-- **An event for somebody else** that leaves the client its session does nothing to it, and what
it sends the client, if anything, is foreign. -/
lemma otherStep (h : Beside site d sys) (hpeers : ∀ e ∈ d.server.sessions.entries,
      e.2.peer = e.1.peer) {e : ServerEvent} (hapart : e.apart site.key site.name = true)
    (hother : e.packetFor site.key = none) (hhosts : d.hosts site (.server e) = true) :
    Beside site (d.next site (.server e)) sys := by
  obtain ⟨v, hserver, hkept, hreceiver⟩ := h.watched
  refine ⟨h.client, h.toServer, fun bytes hbytes hown => ?_,
    ⟨v.next site.config site.key e, ?_, hkept.next (ServerEvent.separate_of_apart hapart), ?_⟩⟩
  · rcases List.mem_append.mp hbytes with hold | hnew
    · exact h.toClient bytes hold hown
    · obtain ⟨out, hout, rfl⟩ := Option.map_eq_some_iff.mp (Option.mem_toList.mp hnew)
      obtain ⟨hreply, hpeer⟩ := Option.filter_eq_some_iff.mp hout
      obtain ⟨packet, hpacket, hid⟩ := Job.own_of_foreign hown
      have haddressed := Server.reply_addressed hpeers hreply hpacket
      have hsite : out.peer = site.peer := by simpa using hpeer
      rw [hid, hsite] at haddressed
      rw [show e.packetFor ⟨site.peer.address, site.peer.port, site.job.config.sessionId⟩ = none
        from hother] at haddressed
      simp at haddressed
  · rw [Watched.next_server, hserver]
    rfl
  · rw [hreceiver, Watched.next, hserver, hother]
    rw [Deployment.hosts] at hhosts
    cases hfind : d.server.sessions.find site.key with
    | none =>
        rw [Server.next_find site.config d.server hother, hfind,
          (hkept.absent (hserver ▸ hfind)).1]
        rfl
    | some session =>
        rw [hfind] at hhosts
        have hspared : d.server.retires site.config session e = false := by simpa using hhosts
        rw [Server.next_find_some site.config hfind hother, hspared]
        rfl

/-- A packet of the client's finds its session, or opens one. -/
lemma present (h : Beside site d sys) (hjoint : Joint site.job sys) {e : ServerEvent}
    (henabled : d.Enabled site (.server e)) (hhosts : d.hosts site (.server e) = true)
    {packet : Packet} {io : IoEnv} (hpacket : e.packetFor site.key = some (packet, io)) :
    ((d.server.next site.config e).sessions.find site.key).isSome = true := by
  obtain ⟨v, hserver, hkept, hreceiver⟩ := h.watched
  cases hfind : d.server.sessions.find site.key with
  | some session =>
      obtain ⟨session', hfind', -⟩ := Server.next_own site.config hfind hpacket
      rw [hfind']
      rfl
  | none =>
      -- without a session nothing has been handed over, so nothing but a START has been sent
      obtain ⟨bytes, now, later, rfl, hdecoded⟩ := ServerEvent.datagram_of_packetFor hpacket
      have hsent : bytes ∈ sys.toReceiver := h.toServer ▸ henabled (by rw [hpacket]; rfl)
      obtain ⟨-, hfrom⟩ := hjoint.toReceiver bytes hsent packet hdecoded
      have hfresh : sys.receiver.session.started = false := by
        rw [hreceiver, (hkept.absent (hserver ▸ hfind)).1]
        rfl
      have htype : packet.header.packetType = .start := by
        by_contra hlater
        simp [hfrom.started hlater] at hfresh
      rw [Deployment.hosts, hfind, hpacket] at hhosts
      exact Server.next_opens hfind hpacket htype (by simpa using hhosts)

/-- **A packet of the client's** does what it does alone. -/
lemma ownStep (h : Beside site d sys) (hjoint : Joint site.job sys) {e : ServerEvent}
    (henabled : d.Enabled site (.server e)) (hapart : e.apart site.key site.name = true)
    (hhosts : d.hosts site (.server e) = true)
    {packet : Packet} {io : IoEnv} (hpacket : e.packetFor site.key = some (packet, io)) :
    d.server.reply site.config e =
        (sys.receiver.answer packet io).map (fun wire => ⟨site.peer, wire⟩) ∧
      sys.Runs site.job (sys.alone site (.server e)) ∧
      Beside site (d.next site (.server e)) (sys.run site.job (sys.alone site (.server e))) := by
  have hpresent := h.present hjoint henabled hhosts hpacket
  obtain ⟨v, hserver, hkept, hreceiver⟩ := h.watched
  have hseparate := ServerEvent.separate_of_apart hapart
  rw [← hserver] at hpresent
  have hreply : d.server.reply site.config e =
      (sys.receiver.answer packet io).map (fun wire => ⟨site.peer, wire⟩) := by
    rw [← hserver, hkept.reply_eq hseparate hpacket hpresent, hreceiver]
    rfl
  obtain ⟨bytes, now, later, rfl, hdecoded⟩ := ServerEvent.datagram_of_packetFor hpacket
  have hsent : bytes ∈ sys.toReceiver := h.toServer ▸ henabled (by rw [hpacket]; rfl)
  obtain ⟨hruns, hrun⟩ := System.alone_own hdecoded hpacket hsent
  refine ⟨hreply, hruns, ?_⟩
  rw [hrun]
  refine ⟨h.client, h.toServer, fun bytes' hbytes hown => ?_, ⟨v.next site.config site.key _, ?_,
    hkept.next hseparate, ?_⟩⟩
  · rcases List.mem_append.mp hbytes with hold | hnew
    · exact List.mem_append_left _ (h.toClient bytes' hold hown)
    · refine List.mem_append_right _ ?_
      rw [hreply] at hnew
      obtain ⟨out, hout, rfl⟩ := Option.map_eq_some_iff.mp (Option.mem_toList.mp hnew)
      obtain ⟨hanswer, -⟩ := Option.filter_eq_some_iff.mp hout
      obtain ⟨wire, hwire, rfl⟩ := Option.map_eq_some_iff.mp hanswer
      exact Option.mem_toList.mpr hwire
  · rw [Watched.next_server, hserver]
    rfl
  · rw [Watched.next_own hpresent hpacket, solo_concat, hreceiver]

end Beside

namespace System

variable {site : Site}

lemma alone_works {sys : System Q} {e : DeployEvent} (h : e.Works site) :
    ∀ e' ∈ sys.alone site e, e'.Works := by
  intro e' he'
  cases e with
  | client env =>
      obtain rfl := List.mem_singleton.mp he'
      exact h.1
  | server e =>
      cases e with
      | sweep now => simp [alone] at he'
      | datagram peer bytes now later io =>
          rw [alone] at he'
          cases hpacket : (ServerEvent.datagram peer bytes now later io).packetFor site.key with
          | none => simp [hpacket] at he'
          | some p =>
              obtain ⟨bytes', now', later', heq, -⟩ := ServerEvent.datagram_of_packetFor hpacket
              obtain ⟨-, -, -, -, rfl⟩ := ServerEvent.datagram.inj heq
              rw [hpacket, Option.isSome_some, if_pos rfl] at he'
              rcases List.mem_cons.mp he' with rfl | hclose
              · exact h p hpacket
              · split_ifs at hclose
                · obtain rfl := List.mem_singleton.mp hclose
                  trivial
                · simp at hclose

lemma senderEnvs_alone (sys : System Q) (e : DeployEvent) :
    senderEnvs (sys.alone site e) = clientEnvs [e] := by
  cases e with
  | client env => rfl
  | server e =>
      cases e with
      | sweep now => rfl
      | datagram peer bytes now later io =>
          rw [alone]
          split_ifs <;> rfl

end System

/-- A run in which the server does its part for the client. -/
structure Hosted (Q : TimerQueue) (site : Site) (fs : FileSystem) (events : List DeployEvent) :
    Prop where
  runs : (Deployment.init Q site fs).Runs site events
  apart : ∀ e ∈ events, e.apart site = true
  works : ∀ e ∈ events, e.Works site
  admits : (Deployment.init Q site fs).Admits site events

namespace Hosted

variable {site : Site} {fs : FileSystem} {first second : List DeployEvent} {e : DeployEvent}

lemma left (h : Hosted Q site fs (first ++ second)) : Hosted Q site fs first where
  runs := (Deployment.runs_append h.runs).1
  apart d hd := h.apart d (List.mem_append_left _ hd)
  works d hd := h.works d (List.mem_append_left _ hd)
  admits := (Deployment.admits_append h.admits).1

/-- It has done so before each event, and does so for that event. -/
lemma split (h : Hosted Q site fs (first ++ e :: second)) :
    Hosted Q site fs first ∧ ((Deployment.init Q site fs).run site first).Enabled site e ∧
      ((∀ error, ((Deployment.init Q site fs).run site first).client.phase ≠ .done error) →
        ((Deployment.init Q site fs).run site first).hosts site e = true) := by
  obtain ⟨-, henabled, -⟩ := Deployment.runs_append h.runs
  obtain ⟨-, hhosts, -⟩ := Deployment.admits_append h.admits
  refine ⟨h.left, henabled, fun halive => ?_⟩
  rwa [SenderPhase.returned_eq_false halive, Bool.false_or] at hhosts

end Hosted

/-- **A run of the deployment, beside its trace.** -/
structure Replayed (Q : TimerQueue) (site : Site) (fs : FileSystem) (events : List DeployEvent) :
    Prop where
  runs : (site.alone Q).Runs site.job ((site.alone Q).trace site events)
  works : ∀ e ∈ (site.alone Q).trace site events, e.Works
  envs : senderEnvs ((site.alone Q).trace site events) = clientEnvs events
  beside : Beside site ((Deployment.init Q site fs).run site events)
    ((site.alone Q).run site.job ((site.alone Q).trace site events))

namespace Replayed

variable {site : Site} {fs : FileSystem} {events : List DeployEvent} {e : DeployEvent}

lemma reachable (h : Replayed Q site fs events) :
    Reachable site.job IoEnv.Succeeds (site.alone Q)
      ((site.alone Q).run site.job ((site.alone Q).trace site events)) :=
  System.reachable_run .start h.runs fun e he => (h.works e he).calls

/-- The events that one more event adds. -/
lemma concat (h : Replayed Q site fs events) (hworks : e.Works site)
    (hstep : ∀ sys, Beside site ((Deployment.init Q site fs).run site events) sys →
      Reachable site.job IoEnv.Succeeds (site.alone Q) sys →
      sys.Runs site.job (sys.alone site e) ∧
        Beside site (((Deployment.init Q site fs).run site events).next site e)
          (sys.run site.job (sys.alone site e))) : Replayed Q site fs (events ++ [e]) := by
  obtain ⟨hruns, hbeside⟩ := hstep _ h.beside h.reachable
  have htrace : (site.alone Q).trace site (events ++ [e]) =
      (site.alone Q).trace site events ++
        ((site.alone Q).run site.job ((site.alone Q).trace site events)).alone site e := by
    rw [System.trace_append, System.trace, System.trace, List.append_nil]
  refine ⟨?_, ?_, ?_, ?_⟩
  · rw [htrace]
    exact System.runs_of_append h.runs hruns
  · rw [htrace]
    intro e' he'
    rcases List.mem_append.mp he' with hold | hnew
    · exact h.works e' hold
    · exact System.alone_works hworks e' hnew
  · rw [htrace, System.senderEnvs_append, h.envs, System.senderEnvs_alone,
      Deployment.clientEnvs_append]
  · rw [htrace, System.run_append, Deployment.run_concat]
    exact hbeside

/-- **While `send_file` runs, the server does for the client what the session would do alone.** -/
lemma run (hrange : site.job.InRange) (hnamed : site.Named) (h : Hosted Q site fs events)
    (halive : ∀ error, ((Deployment.init Q site fs).run site events).client.phase ≠ .done error) :
    Replayed Q site fs events := by
  induction events using List.reverseRecOn with
  | nil => exact ⟨trivial, by simp [System.trace], rfl, .init site fs⟩
  | append_singleton events e ih =>
      obtain ⟨hbefore, henabled, hhosts⟩ := h.split
      rw [Deployment.run_append] at halive
      have hwas := Deployment.alive_of_run [e] halive
      refine (ih hbefore hwas).concat (h.works e (by simp)) fun sys hbeside hreach => ?_
      have hmine := h.apart e (by simp)
      cases e with
      | client env =>
          obtain ⟨hstep, hnext⟩ := hbeside.clientStep henabled (h.works _ (by simp))
          exact ⟨⟨hstep, trivial⟩, hnext⟩
      | server e =>
          cases hpacket : e.packetFor site.key with
          | some p =>
              exact (hbeside.ownStep (hreach.joint hrange) henabled hmine (hhosts hwas) hpacket).2
          | none =>
              obtain ⟨handed, seen, hhosting⟩ := (Deployment.run_delivering hrange hnamed fs
                hbefore.runs hbefore.apart).serving.hosting
              have hnothing : sys.alone site (.server e) = [] := by
                cases e with
                | sweep now => rfl
                | datagram peer bytes now later io => simp [System.alone, hpacket]
              rw [hnothing]
              exact ⟨trivial, hbeside.otherStep hhosting.peers hmine hpacket (hhosts hwas)⟩

end Replayed

/-! ## The transfer completes -/

/-- A packet of the client's is one for its session. -/
lemma Site.packetFor_wireOf (site : Site) {p : OwnPacket} {packet : Packet}
    (h : deserialize (site.job.wireOf p) = .ok packet) (now later : TimePoint) (io : IoEnv) :
    (ServerEvent.datagram site.peer (site.job.wireOf p) now later io).packetFor site.key =
      some (packet, io) := by
  refine ServerEvent.packetFor_own h ?_
  rw [SessionKey.ofPacket, (Job.decoded_wireOf h).2.1]
  rfl

namespace Deployment

variable {site : Site} {fs : FileSystem} {events : List DeployEvent}

/-- A round trip in a run that ends with the step at which `send_file` returns. -/
lemma RoundTrip.before_return {first second : List DeployEvent} {env : SenderEnv}
    {p : OwnPacket} {d : Deployment Q} {error : TransferError}
    (hdone : ((d.run site first).client.step site.job env).1.phase = .done error)
    (h : d.RoundTrip site (first ++ .client env :: second) p) :
    d.RoundTrip site (first ++ [.client env]) p := by
  obtain ⟨before, now, later, io, during, env', after, hsplit, hwaits, hanswer⟩ := h
  rcases List.append_eq_append_iff.mp hsplit with ⟨between, hbefore, hrest⟩ | ⟨between, rfl, hrest⟩
  · rcases between with _ | ⟨e, between⟩
    · obtain ⟨hsame, -⟩ := List.cons.inj hrest
      rw [List.append_nil] at hbefore
      exact ⟨before, now, later, io, during, env', [], by rw [hbefore, hsame], hwaits, hanswer⟩
    · -- by then it would have returned
      obtain ⟨rfl, -⟩ := List.cons.inj hrest
      have hreturned : (d.run site (first ++ .client env :: between)).client.phase =
          .done error := by
        rw [run_append]
        have hnext : ((d.run site first).next site (.client env)).client.phase = .done error :=
          hdone
        exact (congrArg Sender.phase (run_of_done hnext between)).trans hdone
      rw [hbefore] at hwaits
      simp [Sender.waits, hreturned] at hwaits
  · rcases between with _ | ⟨e, between⟩
    · obtain ⟨hsame, -⟩ := List.cons.inj hrest
      refine ⟨before, now, later, io, during, env', [], ?_, hwaits, hanswer⟩
      rw [List.append_nil, hsame]
    · obtain ⟨rfl, -⟩ := List.cons.inj hrest
      exact ⟨before, now, later, io, during, env', between ++ [.client env], by simp, hwaits,
        hanswer⟩

/-- **A round trip through the server** is one of the transfer alone. -/
lemma RoundTrip.alone (hrange : site.job.InRange) (hnamed : site.Named)
    (hdecodes : ∀ p, ∃ packet, deserialize (site.job.wireOf p) = .ok packet)
    (hhosted : Hosted Q site fs events) {p : OwnPacket}
    (h : (Deployment.init Q site fs).RoundTrip site events p) :
    SwiftLink.RoundTrip site.job (site.alone Q) ((site.alone Q).trace site events) p := by
  obtain ⟨before, now, later, io, during, env, after, rfl, hwaits, hanswer⟩ := h
  obtain ⟨packet, hdecoded⟩ := hdecodes p
  have hpacket := site.packetFor_wireOf hdecoded now later io
  set arrival : DeployEvent :=
    .server (.datagram site.peer (site.job.wireOf p) now later io) with harrival
  set start := Deployment.init Q site fs with hstart
  -- the client waits, so the server has kept its place so far
  have halive : ∀ error, (start.run site (before ++ arrival :: during)).client.phase ≠
      .done error := by
    intro error hdone
    simp [Sender.waits, hdone] at hwaits
  have hhosted' := hhosted.left
  have hwaiting : Replayed Q site fs (before ++ arrival :: during) :=
    .run hrange hnamed hhosted' halive
  obtain ⟨hhosted₀, henabled, hhosts⟩ := hhosted'.split
  have halive₀ : ∀ error, (start.run site before).client.phase ≠ .done error := by
    rw [run_append] at halive
    exact alive_of_run _ halive
  have harriving : Replayed Q site fs before := .run hrange hnamed hhosted₀ halive₀
  obtain ⟨hreply, -⟩ := harriving.beside.ownStep (harriving.reachable.joint hrange) henabled
    (hhosted.apart arrival (by simp)) (hhosts halive₀) hpacket
  obtain ⟨closing, hclosing⟩ : ∃ closing,
      ((site.alone Q).run site.job ((site.alone Q).trace site before)).alone site arrival =
        .deliver (site.job.wireOf p) io :: closing := by
    rw [harrival, System.alone, hpacket]
    exact ⟨_, rfl⟩
  obtain ⟨between, hbetween⟩ : ∃ between,
      (site.alone Q).trace site (before ++ arrival :: during) =
        (site.alone Q).trace site before ++ .deliver (site.job.wireOf p) io :: between := by
    rw [System.trace_append, System.trace, hclosing]
    exact ⟨_, rfl⟩
  obtain ⟨rest, hrest⟩ : ∃ rest,
      (site.alone Q).trace site ((before ++ arrival :: during) ++ .client env :: after) =
        (site.alone Q).trace site (before ++ arrival :: during) ++ .sender env :: rest := by
    rw [System.trace_append, System.trace]
    exact ⟨_, rfl⟩
  have hclient := hwaiting.beside.client
  rw [hbetween] at hclient
  refine ⟨(site.alone Q).trace site before, io, between, env, rest, ?_, ?_,
    fun answer hreceived => ?_⟩
  · rw [hrest, hbetween]
  · rw [← hclient]
    exact hwaits
  · rw [← hclient]
    refine hanswer ⟨site.peer, answer⟩ (hreply.trans ?_)
    simp only [World.receive, hdecoded] at hreceived
    rw [hreceived]
    rfl

end Deployment

lemma Job.wireOf_decoded {job : Job} (hlength : job.config.remoteName.length ≤ kMaxPayloadSize)
    (hchunk : job.config.chunkSize ≤ kMaxPayloadSize) (p : OwnPacket) :
    ∃ packet, deserialize (job.wireOf p) = .ok packet := by
  cases p with
  | control which =>
      cases which with
      | start => exact ⟨_, deserialize_serialize ⟨rfl, rfl, rfl⟩ hlength⟩
      | fin =>
          have hdigest : job.digest.length ≤ kMaxPayloadSize := by
            rw [job.digest_eq, digestOf_length]
            decide
          exact ⟨_, deserialize_serialize ⟨rfl, rfl, rfl⟩ hdigest⟩
  | data t =>
      have hwant : job.chunkWant t ≤ job.config.chunkSize := by
        rw [chunkWant]
        split_ifs with hlast
        · exact hlast.le
        · exact le_rfl
      exact ⟨_, deserialize_serialize ⟨rfl, rfl, rfl⟩
        ((List.length_take_le _ _).trans (hwant.trans hchunk))⟩

/-- **A transfer that gets through the server completes.**  The server serves whom it likes besides,
and their calls may fail; it keeps the client's place as long as `send_file` runs, no call made for
the client fails, and nobody but the server is heard.  The network may lose, repeat and reorder what
it likes, but a packet whose retry budget is spent has had a round trip.  Once the run is longer
than `stepBound` and eight for every distraction, `send_file` has returned `kNone` and the directory
holds the file. -/
theorem server_transfer_completes (Q : TimerQueue) (site : Site) (fs : FileSystem)
    (events : List DeployEvent) (hnamed : site.Named)
    (hsize : site.job.data.length ≤ 2 ^ 63 - 1) (hchunk : site.job.config.chunkSize ≤ 65535)
    (hlength : site.job.config.remoteName.length ≤ kMaxPayloadSize)
    (hmax : 1 ≤ site.job.config.maxRetries)
    (hwindow : site.job.config.windowSize ≤ site.config.windowSize)
    (htop : site.job.totalChunks + max 1 site.config.windowSize.toNat ≤ 2 ^ 32) :
    let job := site.job
    let start := Deployment.init Q site fs
    let envs := clientEnvs events
    start.Runs site events → (∀ e ∈ events, e.apart site = true) →
    (∀ e ∈ events, e.Works site) → start.Admits site events →
    Sender.Forward envs → (Sender.init Q job).Patiently job envs →
    (∀ p, (Sender.calls ((Sender.init Q job).sendings job envs) p : ℤ) = job.budgetOf p →
      start.RoundTrip site events p) →
    Sender.stepBound job + 8 * (Sender.init Q job).distractions job envs < envs.length →
    (start.run site events).client.phase = .done .none ∧
      (start.run site events).server.fs.view site.outputPath = some job.data := by
  intro job start envs hruns hapart hworks hadmits hclock hpatient hfair hlong
  have hjob : site.job.Transferable := ⟨hsize, hchunk, hnamed.accepted⟩
  obtain ⟨error, hphase⟩ : ∃ error, (start.run site events).client.phase = .done error := by
    by_contra hnone
    rw [Deployment.run_client] at hnone
    have hshort : envs.length ≤
        Sender.stepBound job + 8 * (Sender.start Q job {}).distractions job envs :=
      Sender.length_le_of_alive hmax hclock hpatient fun error hdone => hnone ⟨error, hdone⟩
    exact absurd hlong (not_lt.mpr hshort)
  have hdelivered := (Deployment.run_delivering hjob.inRange hnamed fs hruns hapart).done
  suffices herror : error = .none by
    subst herror
    exact ⟨hphase, hdelivered hphase⟩
  -- the server keeps the client's place up to the step at which `send_file` returns
  obtain ⟨first, env, second, rfl, halive, hreturns⟩ :=
    Deployment.returned_at (by simp [start, Deployment.init, Sender.init]) hphase
  have hhosted : Hosted Q site fs (first ++ .client env :: second) :=
    ⟨hruns, hapart, hworks, hadmits⟩
  obtain ⟨hbefore, henabled, -⟩ := hhosted.split
  have henv : (DeployEvent.client env).Works site := hworks _ (by simp)
  have hreplayed : Replayed Q site fs (first ++ [.client env]) :=
    (Replayed.run hjob.inRange hnamed hbefore halive).concat henv fun sys hbeside _ =>
      ⟨⟨(hbeside.clientStep henabled henv).1, trivial⟩, (hbeside.clientStep henabled henv).2⟩
  have hhosted' : Hosted Q site fs (first ++ [.client env]) := by
    refine Hosted.left (?_ : Hosted Q site fs ((first ++ [.client env]) ++ second))
    rw [List.append_assoc]
    exact hhosted
  refine returns_without_error hjob hlength hmax hwindow htop hreplayed.runs hreplayed.works
    (fun p hspent => ?_) ?_
  · have hround : start.RoundTrip site (first ++ .client env :: second) p := by
      refine hfair p ?_
      rw [hreplayed.envs] at hspent
      have henvs : envs = clientEnvs (first ++ [.client env]) ++ clientEnvs second := by
        rw [← Deployment.clientEnvs_append, List.append_assoc]
        rfl
      rw [henvs]
      exact Sender.calls_append_of_spent hmax hspent (clientEnvs second)
    exact (hround.before_return hreturns).alone hjob.inRange hnamed
      (Job.wireOf_decoded hlength hchunk) hhosted'
  · have hclient := hreplayed.beside.client
    rw [Deployment.run_append] at hclient
    exact (congrArg Sender.phase hclient).symm.trans hreturns

/-! ### A client among others

The one-byte transfer with a budget of one, on a server that another client uses too and that
retires the session as soon as `send_file` is done with it. -/

def sampleHastySite : Site where
  job := sampleHasty
  peer := sampleSite.peer
  config := sampleSite.config

def sampleBusy : List DeployEvent :=
  [.client {}, sampleArrives (.control .start) 0,
    .client { recv := .datagram (sampleAnswer .startAck 0) }, sampleStranger, .client {},
    .client {}, sampleArrives (.data 0) 0, .client {},
    .client { recv := .datagram (sampleAnswer .ack 0) }, .client {}, .client {}, .client {},
    sampleArrives (.control .fin) 0,
    .client { recv := .datagram (sampleAnswer .finAck 1) }, .server (.sweep 90000000000)]
    ++ List.replicate 54 (.client {})

lemma sampleBusy_works : ∀ e ∈ sampleBusy, e.Works sampleHastySite := by
  have hquiet : (DeployEvent.client {}).Works sampleHastySite :=
    ⟨⟨rfl, rfl, by simp, by simp⟩, fun bytes h => by simp at h⟩
  have hheard (answer : Bytes) (hown : sampleHasty.foreign answer = false) :
      (DeployEvent.client { recv := .datagram answer }).Works sampleHastySite :=
    ⟨⟨rfl, rfl, by simp, by simp⟩, fun bytes h => by rw [← RecvOutcome.datagram.inj h]; exact hown⟩
  have hserved (peer : Endpoint) (bytes : Bytes) :
      (DeployEvent.server (.datagram peer bytes 0 0 {})).Works sampleHastySite := by
    intro p hpacket
    obtain ⟨_, _, _, heq, -⟩ := ServerEvent.datagram_of_packetFor hpacket
    obtain ⟨-, -, -, -, hio⟩ := ServerEvent.datagram.inj heq
    rw [← hio]
    exact ⟨rfl, by simp, rfl, by simp, rfl⟩
  have hswept (now : TimePoint) : (DeployEvent.server (.sweep now)).Works sampleHastySite :=
    fun p hpacket => by simp [ServerEvent.packetFor] at hpacket
  refine List.forall_mem_append.mpr ⟨?_, fun e he => ?_⟩
  · simp only [List.forall_mem_cons]
    exact ⟨hquiet, hserved _ _, hheard _ (by decide +kernel), hserved _ _, hquiet, hquiet,
      hserved _ _, hquiet, hheard _ (by decide +kernel), hquiet, hquiet, hquiet, hserved _ _,
      hheard _ (by decide +kernel), hswept _, by simp⟩
  · rw [List.eq_of_mem_replicate he]
    exact hquiet

/-- The file arrives, and the session is gone in the end. -/
theorem server_transfer_completes_among_others :
    let d := (Deployment.init sortedTimers sampleHastySite .empty).run sampleHastySite sampleBusy
    d.client.phase = .done .none ∧
      d.server.fs.view sampleHastySite.outputPath = some (asciiBytes "x") ∧
      d.server.sessions.entries = [] := by
  intro d
  have hcompletes := server_transfer_completes sortedTimers sampleHastySite .empty sampleBusy
    ⟨by decide, by decide⟩ (by decide) (by decide) (by decide) (by decide) (by decide) (by decide)
    (by decide +kernel) (by decide +kernel) sampleBusy_works (by decide +kernel)
    (by decide +kernel) (by decide +kernel) (fun p hp => ?_) (by decide +kernel)
  · exact ⟨hcompletes.1, hcompletes.2, by decide +kernel⟩
  · obtain rfl := sampleOnce_spent hp
    refine ⟨sampleBusy.take 6, 0, 0, {}, [.client {}], { recv := .datagram (sampleAnswer .ack 0) },
      sampleBusy.drop 9, rfl, by decide +kernel, fun out hout => ?_⟩
    have hack : ((Deployment.init sortedTimers sampleHastySite .empty).run sampleHastySite
        (sampleBusy.take 6)).server.reply sampleHastySite.config (.datagram sampleHastySite.peer
          (sampleHastySite.job.wireOf (.data 0)) 0 0 {})
            = some ⟨sampleHastySite.peer, sampleAnswer .ack 0⟩ := by
      decide +kernel
    obtain rfl := Option.some.inj (hack.symm.trans hout)
    exact ⟨by decide +kernel, rfl, rfl⟩

end SwiftLink
