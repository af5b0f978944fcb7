import SwiftLink.Server.Admission
import SwiftLink.Server.Isolation

/-!
# How long a session lasts

The server keeps a session until a sweep finds it out of date, or until the table is full and the
settled ones make room.  Both are decided from two clocks in its entry.

* **`active_session_survives`**: a session that has not settled is lost to a late sweep and to
  nothing else.  Other clients cannot drive it out, whatever they send.
* **`settled_session_answers`**: a settled session goes by the time it settled at, which its own
  packets do not move.  Until it is retired it repeats its outcome: FIN_ACK to each FIN, or its
  ERROR to each START and FIN.

In a session on its own the ERROR can miss the packet that provoked it, because the id recorded is
not the packet's.  In the server it cannot: the key has the id in it, and only a START opens.
-/

namespace SwiftLink

/-! ## The clocks -/

/-- The timeout a session is held to. -/
def Session.timeout (config : ServerConfig) (session : Session) : ℤ :=
  if session.lingering then config.sessionLinger else config.sessionIdleTimeout

/-- The clock the timeout is counted from. -/
def Session.since (session : Session) : TimePoint :=
  if session.lingering then session.completedAt else session.lastActivity

/-- The first instant at which a sweep retires the session.  The clocks are compared in whole
milliseconds, so it is one more than the timeout. -/
def Session.retiresAt (config : ServerConfig) (session : Session) : TimePoint :=
  session.since + (session.timeout config + 1) * 1000000

lemma lt_toMilliseconds_iff {timeout : ℤ} (h : 0 ≤ timeout) (duration : ℤ) :
    timeout < toMilliseconds duration ↔ (timeout + 1) * 1000000 ≤ duration := by
  rw [toMilliseconds]
  rcases le_or_gt 0 duration with hpos | hneg
  · rw [Int.tdiv_eq_ediv_of_nonneg hpos]
    omega
  · have hrounded : duration.tdiv 1000000 ≤ 0 := by
      have hflipped := Int.tdiv_nonneg (Int.neg_nonneg_of_nonpos hneg.le)
        (show (0 : ℤ) ≤ 1000000 by decide)
      rw [Int.neg_tdiv] at hflipped
      omega
    constructor
    · intro hlt
      omega
    · intro hle
      omega

/-- **When a sweep retires a session.** -/
lemma Session.stale_iff {config : ServerConfig} {session : Session}
    (h : 0 ≤ session.timeout config) (now : TimePoint) :
    session.stale config now = true ↔ session.retiresAt config ≤ now := by
  have hstale : session.stale config now =
      decide (session.timeout config < toMilliseconds (now - session.since)) := by
    rw [stale, timeout, since]
    split_ifs <;> rfl
  rw [hstale, decide_eq_true_eq, lt_toMilliseconds_iff h, retiresAt]
  exact le_sub_iff_add_le'

namespace Server

/-! ## Every session in the table -/

/-- **The induction rule for what every session of the table has.**  It suffices that a packet of
its own keeps it, and that a new session has it after its START. -/
lemma entries_next {P : SessionKey → Session → Prop} {config : ServerConfig}
    (hopen : ∀ key now fs packet io session', packet.header.packetType = .start →
      packet.header.sessionId = key.sessionId →
      Dispatched (Session.init config key.peer now)
        (World.next ⟨(Session.init config key.peer now).receiver, fs⟩ (.packet packet io))
        session' → P key session')
    (hstep : ∀ key session fs packet io session', P key session →
      packet.header.sessionId = key.sessionId →
      Dispatched session (World.next ⟨session.receiver, fs⟩ (.packet packet io)) session' →
        P key session')
    {sv : Server} (h : ∀ key session, sv.sessions.find key = some session → P key session)
    (e : ServerEvent) :
    ∀ key session, (sv.next config e).sessions.find key = some session → P key session := by
  simp only [Table.find_eq_some_iff] at h ⊢
  have herase : ∀ p key session, (key, session) ∈ (sv.eraseIf p).sessions.entries →
      P key session := fun p key session hmem => h key session (Table.mem_eraseIf.mp hmem).1
  have hroom : ∀ key session, (key, session) ∈ (sv.makeRoom config).sessions.entries →
      P key session := by
    rw [makeRoom]
    split_ifs
    · exact herase _
    · exact h
  cases e with
  | sweep now => exact herase fun e => e.2.stale config now
  | datagram peer bytes now later io =>
      have hreacts := onDatagram_reacts config sv peer bytes now later io
      rw [next]
      generalize sv.onDatagram config peer bytes now later io = result at hreacts
      cases hreacts with
      | malformed => exact h
      | unknown => exact h
      | refused => exact h
      | known packet _ session hpresent =>
          have hmem := Table.find_eq_some_iff.mp hpresent
          obtain ⟨session', hd, hsessions, -, -⟩ :=
            sv.dispatch_spec (.ofPacket peer packet) session packet now later io
          intro key s hs
          rw [hsessions] at hs
          rcases (Table.mem_set hmem).mp hs with heq | ⟨hold, -⟩
          · obtain ⟨rfl, rfl⟩ := Prod.mk.inj heq
            exact hstep _ _ _ _ _ _ (h _ _ hmem) rfl hd
          · exact h key s hold
      | opened packet _ habsent htype _ =>
          have habsent' := makeRoom_find_none config habsent
          have hmem := Table.mem_emplace_self SessionKey.lt habsent' (Session.init config peer now)
          obtain ⟨session', hd, hsessions, -, -⟩ :=
            dispatch_spec { sv.makeRoom config with
              sessions := (sv.makeRoom config).sessions.emplace SessionKey.lt
                (.ofPacket peer packet) (Session.init config peer now) }
              (.ofPacket peer packet) (Session.init config peer now) packet now later io
          intro key s hs
          rw [hsessions] at hs
          rcases (Table.mem_set hmem).mp hs with heq | ⟨hold, hne⟩
          · obtain ⟨rfl, rfl⟩ := Prod.mk.inj heq
            exact hopen _ _ _ _ _ _ htype rfl hd
          · rcases (Table.mem_emplace habsent').mp hold with hnew | hbefore
            · exact absurd (Prod.mk.inj hnew).1 hne
            · exact hroom key s hbefore

end Server

/-- A packet for a session carries its id. -/
lemma ServerEvent.sessionId_of_packetFor {key : SessionKey} {e : ServerEvent} {packet : Packet}
    {io : IoEnv} (h : e.packetFor key = some (packet, io)) :
    packet.header.sessionId = key.sessionId := by
  cases e with
  | sweep now => simp [packetFor] at h
  | datagram peer bytes now later io' =>
      rw [packetFor] at h
      split at h
      · split_ifs at h with hkey
        obtain ⟨rfl, rfl⟩ := Prod.mk.inj (Option.some.inj h)
        rw [← hkey]
        rfl
      · simp at h

/-- A session of the table knows its own packets by their id. -/
structure Housed (config : ServerConfig) (key : SessionKey) (session : Session) : Prop
    extends Own config key session where
  sessionId : session.receiver.sessionId = key.sessionId
  opened : session.receiver.started = true ∨ session.receiver.finished = true

namespace ReceiverSession

variable {s : ReceiverSession} {fs : FileSystem} {packet : Packet} {io : IoEnv} {handled : Handled}

/-- The START gives the session its id and opens it, for good or ill. -/
lemma Handles.takes_id (h : s.Handles fs packet io handled) (hopening : s.Opening packet) :
    handled.session.sessionId = packet.header.sessionId ∧
      (handled.session.started = true ∨ handled.session.finished = true) := by
  have hnotLive : ¬ s.Live packet := by
    intro hlive
    have hstarted := hlive.started
    simp [hopening.started] at hstarted
  cases h with
  | replayed _ hreplays => simp [replays, hopening.finished] at hreplays
  | ignored _ _ hwhy =>
      rcases hwhy with hfinished | ⟨hlive, -⟩
      · simp [hopening.finished] at hfinished
      · exact absurd hlive hnotLive
  | restarted _ hlive => exact absurd hlive hnotLive
  | duplicate _ hlive => exact absurd hlive hnotLive
  | outside _ hlive => exact absurd hlive hnotLive
  | strayed _ _ hwhy =>
      rw [if_pos hopening.packetType] at hwhy
      simp [hopening.started] at hwhy
  | misnamed => exact ⟨rfl, Or.inr rfl⟩
  | openFailed => exact ⟨rfl, Or.inr rfl⟩
  | opened => exact ⟨rfl, Or.inl rfl⟩
  | oversized _ hlive => exact absurd hlive hnotLive
  | writeFailed _ _ _ hfits => exact absurd hfits.toLive hnotLive
  | stored _ _ hfits => exact absurd hfits.toLive hnotLive
  | finFailed _ _ _ hlive => exact absurd hlive hnotLive
  | published _ _ hlive => exact absurd hlive hnotLive

/-- Once opened, a session keeps its id. -/
lemma Handles.keeps_id (h : s.Handles fs packet io handled)
    (hopened : s.started = true ∨ s.finished = true) :
    handled.session.sessionId = s.sessionId ∧
      (handled.session.started = true ∨ handled.session.finished = true) := by
  have hnotOpening : ¬ s.Opening packet := fun hopening => by
    simp [hopening.started, hopening.finished] at hopened
  cases h with
  | misnamed _ hopening => exact absurd hopening hnotOpening
  | openFailed _ _ hopening => exact absurd hopening hnotOpening
  | opened _ _ _ _ hopening => exact absurd hopening hnotOpening
  | replayed => exact ⟨rfl, hopened⟩
  | ignored => exact ⟨rfl, hopened⟩
  | restarted => exact ⟨rfl, hopened⟩
  | duplicate => exact ⟨rfl, hopened⟩
  | outside => exact ⟨rfl, hopened⟩
  | stored => exact ⟨rfl, hopened⟩
  | strayed => exact ⟨rfl, Or.inr rfl⟩
  | oversized => exact ⟨rfl, Or.inr rfl⟩
  | writeFailed => exact ⟨rfl, Or.inr rfl⟩
  | finFailed => exact ⟨rfl, Or.inr rfl⟩
  | published => exact ⟨rfl, Or.inr rfl⟩

end ReceiverSession

namespace Server

variable {config : ServerConfig} {sv : Server} {key : SessionKey} {session : Session}
  {e : ServerEvent}

lemma run_housed (config : ServerConfig) (fs : FileSystem) (events : List ServerEvent) :
    ∀ key session, ((init fs).run config events).sessions.find key = some session →
      Housed config key session := by
  induction events using List.reverseRecOn with
  | nil => simp [run, init, Table.find, Table.empty]
  | append_singleton events e ih =>
      rw [run_concat]
      refine entries_next ?_ ?_ ih e
      · intro key now fs packet io session' htype hid hd
        have hstep := ReceiverSession.handlePacket_handles
          (Session.init config key.peer now).receiver fs packet io
        obtain ⟨hsame, hopened⟩ := hstep.takes_id ⟨rfl, rfl, htype⟩
        refine ⟨(Own.init config key now).dispatched hid hd, ?_, ?_⟩
        · rw [hd.same]
          exact hsame.trans hid
        · rw [hd.same]
          exact hopened
      · intro key session fs packet io session' h hid hd
        have hstep := ReceiverSession.handlePacket_handles session.receiver fs packet io
        obtain ⟨hsame, hopened⟩ := hstep.keeps_id h.opened
        refine ⟨h.toOwn.dispatched hid hd, ?_, ?_⟩
        · rw [hd.same]
          exact hsame.trans h.sessionId
        · rw [hd.same]
          exact hopened

/-! ## What retires a session -/

/-- Whether an event throws the settled sessions out to make room for another. -/
def evicts (config : ServerConfig) (sv : Server) : ServerEvent → Bool
  | .datagram peer bytes _ _ _ =>
      match deserialize bytes with
      | .ok packet =>
          packet.header.packetType == .start &&
            (sv.sessions.find (.ofPacket peer packet)).isNone &&
            decide (sv.active < config.maxSessions) &&
            decide (config.maxSessions * 2 % 2 ^ 64 ≤ sv.sessions.entries.length)
      | .error _ => false
  | .sweep _ => false

/-- Whether an event retires a session of the table. -/
def retires (config : ServerConfig) (sv : Server) (session : Session) : ServerEvent → Bool
  | .sweep now => session.stale config now
  | .datagram peer bytes now later io =>
      session.lingering && sv.evicts config (.datagram peer bytes now later io)

lemma makeRoom_find (config : ServerConfig) (sv : Server) (key : SessionKey) :
    (sv.makeRoom config).sessions.find key =
      if config.maxSessions * 2 % 2 ^ 64 ≤ sv.sessions.entries.length then
        (sv.sessions.find key).filter fun session => !session.lingering
      else sv.sessions.find key := by
  rw [makeRoom]
  split_ifs
  · exact Table.find_eraseIf
  · rfl

/-- **An event for somebody else** leaves a session as it is, or retires it. -/
lemma next_find (config : ServerConfig) (sv : Server) (hother : e.packetFor key = none) :
    (sv.next config e).sessions.find key =
      (sv.sessions.find key).filter fun session => !sv.retires config session e := by
  cases e with
  | sweep now => exact Table.find_eraseIf
  | datagram peer bytes now later io =>
      have hreacts := onDatagram_reacts config sv peer bytes now later io
      -- what evicts nothing leaves the other sessions alone
      have hkept : ∀ {sv' : Server}, sv.evicts config (.datagram peer bytes now later io) = false →
          sv'.sessions.find key = sv.sessions.find key → sv'.sessions.find key =
            (sv.sessions.find key).filter fun session =>
              !sv.retires config session (.datagram peer bytes now later io) := by
        intro sv' hevicts hsame
        simp only [hsame, retires, hevicts, Bool.and_false, Bool.not_false]
        cases sv.sessions.find key <;> rfl
      rw [next]
      generalize sv.onDatagram config peer bytes now later io = result at hreacts
      cases hreacts with
      | malformed reason hbad => exact hkept (by simp [evicts, hbad]) rfl
      | unknown packet hpacket habsent htype => exact hkept (by simp [evicts, hpacket, htype]) rfl
      | refused packet hpacket habsent htype hfull =>
          exact hkept (by simp [evicts, hpacket, not_lt.mpr hfull]) rfl
      | known packet hpacket other hpresent =>
          have hne : key ≠ SessionKey.ofPacket peer packet := fun heq => by
            simp [ServerEvent.packetFor, hpacket, heq] at hother
          obtain ⟨session', -, hsessions, -, -⟩ :=
            sv.dispatch_spec (.ofPacket peer packet) other packet now later io
          refine hkept (by simp [evicts, hpacket, hpresent]) ?_
          rw [hsessions, Table.find_set_of_ne hne]
      | opened packet hpacket habsent htype hroom =>
          have hne : key ≠ SessionKey.ofPacket peer packet := fun heq => by
            simp [ServerEvent.packetFor, hpacket, heq] at hother
          have hevicts : sv.evicts config (.datagram peer bytes now later io) =
              decide (config.maxSessions * 2 % 2 ^ 64 ≤ sv.sessions.entries.length) := by
            simp [evicts, hpacket, htype, habsent, hroom]
          obtain ⟨session', -, hsessions, -, -⟩ :=
            dispatch_spec { sv.makeRoom config with
              sessions := (sv.makeRoom config).sessions.emplace SessionKey.lt
                (.ofPacket peer packet) (Session.init config peer now) }
              (.ofPacket peer packet) (Session.init config peer now) packet now later io
          have hfind := makeRoom_find config sv key
          rw [hsessions, Table.find_set_of_ne hne, Table.find_emplace_of_ne hne]
          split_ifs at hfind with hpressure
          · simp only [hfind, retires, hevicts, hpressure, decide_true, Bool.and_true]
          · exact hkept (by rw [hevicts, decide_eq_false hpressure]) hfind

lemma next_find_some (config : ServerConfig) (hfind : sv.sessions.find key = some session)
    (hother : e.packetFor key = none) :
    (sv.next config e).sessions.find key =
      if sv.retires config session e then none else some session := by
  rw [next_find config sv hother, hfind, Option.filter_some]
  cases sv.retires config session e <;> rfl

/-- **A packet of its own**: the session stays in the table, its activity clock is set, and once it
has settled the other clock stands still. -/
lemma dispatch_find (hmem : (key, session) ∈ sv.sessions.entries) (packet : Packet)
    (now later : TimePoint) (io : IoEnv) :
    ∃ session', (sv.dispatch key session packet now later io).1.sessions.find key = some session' ∧
      Dispatched session (World.next ⟨session.receiver, sv.fs⟩ (.packet packet io)) session' ∧
      session'.lastActivity = now ∧
      (session.lingering = true → session'.completedAt = session.completedAt) := by
  obtain ⟨session', hd, hsessions, -, -⟩ := sv.dispatch_spec key session packet now later io
  have hfind : (sv.dispatch key session packet now later io).1.sessions.find key
      = some session' := by
    rw [hsessions]
    exact Table.find_set hmem
  refine ⟨session', hfind, hd, ?_⟩
  simp only [dispatch] at hfind
  split_ifs at hfind with hsettled
  · rw [countSettled_sessions, Table.find_set hmem] at hfind
    obtain rfl := Option.some.inj hfind
    exact ⟨rfl, fun hlingering => by simp [hlingering] at hsettled⟩
  · rw [Table.find_set hmem] at hfind
    obtain rfl := Option.some.inj hfind
    exact ⟨rfl, fun _ => rfl⟩

/-- An event with a packet for a session of the table is handed to it. -/
lemma next_own (config : ServerConfig) (hfind : sv.sessions.find key = some session)
    {packet : Packet} {io : IoEnv}
    (hown : e.packetFor key = some (packet, io)) :
    ∃ session', (sv.next config e).sessions.find key = some session' ∧
      Dispatched session (World.next ⟨session.receiver, sv.fs⟩ (.packet packet io)) session' ∧
      (session.lingering = true → session'.completedAt = session.completedAt) ∧
      sv.reply config e = (World.answer ⟨session.receiver, sv.fs⟩ packet io).map
        fun wire => ⟨session.peer, wire⟩ := by
  cases e with
  | sweep now => simp [ServerEvent.packetFor] at hown
  | datagram peer bytes now later io' =>
      rw [ServerEvent.packetFor] at hown
      split at hown
      · next packet' hpacket =>
        split_ifs at hown with hkey
        obtain ⟨rfl, rfl⟩ := Prod.mk.inj (Option.some.inj hown)
        have hdatagram : sv.onDatagram config peer bytes now later io' =
            sv.dispatch key session packet' now later io' := by
          simp only [onDatagram, hpacket, hkey, hfind]
        have hmem := Table.find_eq_some_iff.mp hfind
        obtain ⟨session', hfind', hd, -, hclock⟩ := dispatch_find hmem packet' now later io'
        obtain ⟨-, -, -, -, hreply⟩ := sv.dispatch_spec key session packet' now later io'
        rw [next, reply, hdatagram]
        exact ⟨session', hfind', hd, hclock, hreply⟩
      · simp at hown

/-! ## A session that has not settled -/

lemma run_cons (config : ServerConfig) (sv : Server) (e : ServerEvent)
    (events : List ServerEvent) :
    sv.run config (e :: events) = (sv.next config e).run config events := rfl

lemma run_append (config : ServerConfig) (sv : Server) (events events' : List ServerEvent) :
    sv.run config (events ++ events') = (sv.run config events).run config events' :=
  List.foldl_append

/-- Without a packet of its own, a session that is gone stays gone. -/
lemma run_absent (hfind : sv.sessions.find key = none) {events : List ServerEvent}
    (hothers : ∀ e ∈ events, e.packetFor key = none) :
    (sv.run config events).sessions.find key = none := by
  induction events generalizing sv with
  | nil => exact hfind
  | cons e events ih =>
      rw [run_cons]
      refine ih ?_ fun d hd => hothers d (List.mem_cons_of_mem e hd)
      rw [next_find config sv (hothers e List.mem_cons_self), hfind]
      rfl

/-- While its client is silent, a session stays as it is or goes. -/
lemma run_quiet (config : ServerConfig) (hfind : sv.sessions.find key = some session)
    {events : List ServerEvent}
    (hothers : ∀ e ∈ events, e.packetFor key = none) :
    (sv.run config events).sessions.find key = some session ∨
      (sv.run config events).sessions.find key = none := by
  induction events generalizing sv with
  | nil => exact Or.inl hfind
  | cons e events ih =>
      have hrest : ∀ d ∈ events, d.packetFor key = none :=
        fun d hd => hothers d (List.mem_cons_of_mem e hd)
      have hnext := next_find_some config hfind (hothers e List.mem_cons_self)
      rw [run_cons]
      split_ifs at hnext with hretires
      · exact Or.inr (run_absent hnext hrest)
      · exact ih hnext hrest

lemma run_active (htimeout : 0 ≤ session.timeout config)
    (hfind : sv.sessions.find key = some session) (hactive : session.lingering = false)
    {events : List ServerEvent} (hothers : ∀ e ∈ events, e.packetFor key = none) :
    (sv.run config events).sessions.find key = some session ↔
      ∀ now, .sweep now ∈ events → now < session.retiresAt config := by
  induction events generalizing sv with
  | nil => simp [run, hfind]
  | cons e events ih =>
      have hrest : ∀ d ∈ events, d.packetFor key = none :=
        fun d hd => hothers d (List.mem_cons_of_mem e hd)
      have hnext := next_find_some config hfind (hothers e List.mem_cons_self)
      rw [run_cons]
      cases hretires : sv.retires config session e with
      | false =>
          rw [hretires] at hnext
          rw [ih hnext hrest]
          cases e with
          | datagram peer bytes now later io => simp
          | sweep now =>
              have hsooner : now < session.retiresAt config := by
                rw [← not_le, ← Session.stale_iff htimeout]
                simpa [retires] using hretires
              simp [hsooner]
      | true =>
          rw [hretires] at hnext
          rw [run_absent hnext hrest]
          cases e with
          | datagram peer bytes now later io => simp [retires, hactive] at hretires
          | sweep now =>
              have hlate := (Session.stale_iff htimeout now).mp hretires
              simp only [reduceCtorEq, false_iff, not_forall]
              exact ⟨now, List.mem_cons_self, not_lt.mpr hlate⟩

end Server

/-- **Only a late sweep takes a session that has not settled.**  While its client is silent,
whatever others send and however full the table gets, the session stays as it is; it is still there
exactly when no sweep has come later than the idle timeout after the client was last heard. -/
theorem active_session_survives (config : ServerConfig) (fs : FileSystem)
    (before later : List ServerEvent) (key : SessionKey) (session : Session)
    (hidle : 0 ≤ config.sessionIdleTimeout)
    (hfind : ((Server.init fs).run config before).sessions.find key = some session)
    (hactive : session.lingering = false) (hothers : ∀ e ∈ later, e.packetFor key = none) :
    let found := ((Server.init fs).run config (before ++ later)).sessions.find key
    (found = some session ↔ ∀ now, .sweep now ∈ later →
      now < session.lastActivity + (config.sessionIdleTimeout + 1) * 1000000) ∧
    (found = some session ∨ found = none) := by
  intro found
  have htimeout : session.timeout config = config.sessionIdleTimeout := by
    rw [Session.timeout, hactive]
    rfl
  have hretires : session.retiresAt config =
      session.lastActivity + (config.sessionIdleTimeout + 1) * 1000000 := by
    rw [Session.retiresAt, htimeout, Session.since, hactive]
    rfl
  have hsurvives := Server.run_active (htimeout ▸ hidle) hfind hactive hothers
  rw [hretires, ← Server.run_append] at hsurvives
  have hquiet := Server.run_quiet config hfind hothers
  rw [← Server.run_append] at hquiet
  exact ⟨hsurvives, hquiet⟩

/-- Another client opens a session and the sweep comes in time. -/
theorem active_session_survives_beside_another :
    (((Server.init .empty).run sampleConfig
      (sampleFeeding ++ [sampleIntruder 8, .sweep 30000000000])).sessions.find sampleKey).isSome
        = true := by
  have hbefore : (((Server.init .empty).run sampleConfig sampleFeeding).sessions.find
      sampleKey).map (fun session => (session.lingering, session.lastActivity))
        = some (false, 0) := by
    decide +kernel
  obtain ⟨session, hfind, hclocks⟩ := Option.map_eq_some_iff.mp hbefore
  obtain ⟨hactive, hheard⟩ := Prod.mk.inj hclocks
  obtain ⟨hsurvives, -⟩ := active_session_survives sampleConfig .empty sampleFeeding
    [sampleIntruder 8, .sweep 30000000000] sampleKey session (by decide) hfind hactive
    (by decide +kernel)
  rw [hsurvives.mpr]
  · rfl
  · intro now hnow
    have htime : now = 30000000000 := by simpa [sampleIntruder, sampleOpening] using hnow
    rw [htime, hheard]
    decide

/-! ## A session that has settled -/

/-- What its own packets leave of a settled session: all but its counters and the activity clock. -/
structure Session.Persists (session session' : Session) : Prop where
  lingering_eq : session'.lingering = session.lingering
  completedAt_eq : session'.completedAt = session.completedAt
  receiver_eq : ∃ stats file,
    session'.receiver = { session.receiver with stats := stats, file := file }

namespace Session.Persists

variable {config : ServerConfig} {session session' session'' : Session}

lemma refl (session : Session) : session.Persists session := ⟨rfl, rfl, _, _, rfl⟩

lemma trans (h : session.Persists session') (h' : session'.Persists session'') :
    session.Persists session'' := by
  obtain ⟨stats, file, hreceiver⟩ := h.receiver_eq
  obtain ⟨stats', file', hreceiver'⟩ := h'.receiver_eq
  refine ⟨h'.lingering_eq.trans h.lingering_eq, h'.completedAt_eq.trans h.completedAt_eq,
    stats', file', ?_⟩
  rw [hreceiver', hreceiver]

lemma retiresAt_eq (h : session.Persists session') (hsettled : session.lingering = true) :
    session'.retiresAt config = session.retiresAt config := by
  simp only [retiresAt, timeout, since, h.lingering_eq, hsettled, if_true, h.completedAt_eq]

end Session.Persists

namespace Server

variable {config : ServerConfig} {sv : Server} {key : SessionKey} {session : Session}
  {e : ServerEvent}

/-- **A settled session persists** through an event that does not retire it. -/
lemma next_settled (hhoused : Housed config key session)
    (hfind : sv.sessions.find key = some session) (hsettled : session.lingering = true)
    (hspared : sv.retires config session e = false) :
    ∃ session', (sv.next config e).sessions.find key = some session' ∧
      session.Persists session' := by
  cases hown : e.packetFor key with
  | none =>
      rw [next_find_some config hfind hown, hspared]
      exact ⟨session, rfl, .refl session⟩
  | some p =>
      obtain ⟨session', hfind', hd, hclock, -⟩ := next_own config hfind hown
      have hfinished : session.receiver.finished = true := hhoused.lingering_eq ▸ hsettled
      obtain ⟨stats, hsame⟩ :=
        World.next_of_finished (w := ⟨session.receiver, sv.fs⟩) hfinished p.1 p.2
      refine ⟨session', hfind', ?_, hclock hsettled, stats, session'.receiver.file, ?_⟩
      · simp [hd.lingering_eq, hsettled]
      · have hreceiver := hd.same
        rw [hsame] at hreceiver
        exact hreceiver

/-- No event of a run throws the settled sessions out. -/
def roomy (config : ServerConfig) (sv : Server) : List ServerEvent → Bool
  | [] => true
  | e :: events => !sv.evicts config e && (sv.next config e).roomy config events

lemma run_settled {fs : FileSystem} {before : List ServerEvent}
    (hfind : ((init fs).run config before).sessions.find key = some session)
    (hsettled : session.lingering = true) (htimeout : 0 ≤ config.sessionLinger)
    {later : List ServerEvent}
    (hsweeps : ∀ now, .sweep now ∈ later → now < session.retiresAt config)
    (hroom : ((init fs).run config before).roomy config later = true) :
    ∃ session', ((init fs).run config (before ++ later)).sessions.find key = some session' ∧
      session.Persists session' := by
  induction later generalizing before session with
  | nil =>
      rw [List.append_nil]
      exact ⟨session, hfind, .refl session⟩
  | cons e later ih =>
      rw [roomy, Bool.and_eq_true, Bool.not_eq_true'] at hroom
      have hheld : session.timeout config = config.sessionLinger := by
        rw [Session.timeout, hsettled]
        rfl
      have hspared : ((init fs).run config before).retires config session e = false := by
        cases e with
        | datagram peer bytes now later io => rw [retires, hroom.1, Bool.and_false]
        | sweep now =>
            have hsooner := hsweeps now List.mem_cons_self
            rw [← not_le, ← Session.stale_iff (hheld ▸ htimeout)] at hsooner
            simpa [retires] using hsooner
      obtain ⟨s, hs, hpersists⟩ :=
        next_settled (run_housed config fs before key session hfind) hfind hsettled hspared
      rw [← run_concat] at hs
      obtain ⟨session', hfind', hpersists'⟩ := ih hs (hpersists.lingering_eq.trans hsettled)
        (fun now hnow => by
          rw [hpersists.retiresAt_eq hsettled]
          exact hsweeps now (List.mem_cons_of_mem e hnow))
        (by rw [run_concat]; exact hroom.2)
      rw [List.append_assoc, List.singleton_append] at hfind'
      exact ⟨session', hfind', hpersists.trans hpersists'⟩

/-- Which packets a settled session answers. -/
lemma replays_settled (hhoused : Housed config key session) (hsettled : session.lingering = true)
    {packet : Packet} (hid : packet.header.sessionId = key.sessionId) :
    session.receiver.finalReply.send = true ∧
      (session.receiver.replays packet.header = true ↔ packet.header.packetType = .fin ∨
        packet.header.packetType = .start ∧ session.receiver.published = false) := by
  have hsame : packet.header.sessionId = session.receiver.sessionId :=
    hid.trans hhoused.sessionId.symm
  have hfinished : session.receiver.finished = true := hhoused.lingering_eq ▸ hsettled
  cases hhoused.verdict with
  | pending hpending => simp [hpending] at hfinished
  | failed _ hunpublished _ herror =>
      refine ⟨herror.1, ?_⟩
      simp [ReceiverSession.replays, hfinished, hsame, herror.1, herror.2.1, hunpublished]
  | published _ hpublished _ hack =>
      refine ⟨hack.1, ?_⟩
      simp [ReceiverSession.replays, hfinished, hsame, hack.1, hack.2, hpublished]

/-- **What a settled session answers**, to a packet of its own. -/
lemma reply_settled (hhoused : Housed config key session)
    (hfind : sv.sessions.find key = some session) (hsettled : session.lingering = true)
    {packet : Packet} {io : IoEnv} (hown : e.packetFor key = some (packet, io)) :
    sv.reply config e =
      if packet.header.packetType = .fin ∨
          packet.header.packetType = .start ∧ session.receiver.published = false then
        some ⟨key.peer, session.receiver.finalReply.wire key.sessionId⟩
      else none := by
  have hid : packet.header.sessionId = key.sessionId := ServerEvent.sessionId_of_packetFor hown
  have hfinished : session.receiver.finished = true := hhoused.lingering_eq ▸ hsettled
  obtain ⟨hsend, hreplays⟩ := replays_settled hhoused hsettled hid
  obtain ⟨-, -, -, -, hreply⟩ := next_own config hfind hown
  obtain ⟨stats, hanswer⟩ := ReceiverSession.handlePacket_of_finished hfinished packet
  rw [hreply, World.answer, World.reply, hanswer, hhoused.peer_eq, hid]
  by_cases hcontrol : packet.header.packetType = .fin ∨
      packet.header.packetType = .start ∧ session.receiver.published = false
  · simp [hreplays.mpr hcontrol, hcontrol, hsend]
  · have hsilent := mt hreplays.mp hcontrol
    simp [hsilent, hcontrol]

end Server

/-- **A settled session answers for its outcome until its time is up.**  Whatever else arrives, its
own packets included: while no sweep has come later than `session_linger` after it settled, and no
newcomer has found the table full, it answers every FIN with its FIN_ACK if it has published, and
every START and FIN with its ERROR if it has not; and it is the first later sweep that takes it. -/
theorem settled_session_answers (config : ServerConfig) (fs : FileSystem)
    (before later : List ServerEvent) (key : SessionKey) (session : Session)
    (hlinger : 0 ≤ config.sessionLinger)
    (hfind : ((Server.init fs).run config before).sessions.find key = some session)
    (hsettled : session.lingering = true)
    (hsweeps : ∀ now, .sweep now ∈ later →
      now < session.completedAt + (config.sessionLinger + 1) * 1000000)
    (hroom : ((Server.init fs).run config before).roomy config later = true) :
    let sv := (Server.init fs).run config (before ++ later)
    let outcome := session.receiver.finalReply
    (if session.receiver.published then outcome.IsFinAck else outcome.IsError) ∧
    (∀ e packet io, e.packetFor key = some (packet, io) →
      sv.reply config e =
        if packet.header.packetType = .fin ∨
            packet.header.packetType = .start ∧ session.receiver.published = false then
          some ⟨key.peer, outcome.wire key.sessionId⟩
        else none) ∧
    ∀ now, (sv.next config (.sweep now)).sessions.find key = none ↔
      session.completedAt + (config.sessionLinger + 1) * 1000000 ≤ now := by
  intro sv outcome
  have hheld : session.timeout config = config.sessionLinger := by
    rw [Session.timeout, hsettled]
    rfl
  have hretires : session.retiresAt config =
      session.completedAt + (config.sessionLinger + 1) * 1000000 := by
    rw [Session.retiresAt, hheld, Session.since, hsettled]
    rfl
  rw [← hretires] at hsweeps ⊢
  have hhoused := Server.run_housed config fs before key session hfind
  obtain ⟨session', hfind', hpersists⟩ :=
    Server.run_settled hfind hsettled hlinger hsweeps hroom
  have hhoused' := Server.run_housed config fs (before ++ later) key session' hfind'
  have hsettled' : session'.lingering = true := hpersists.lingering_eq.trans hsettled
  obtain ⟨stats, file, hreceiver⟩ := hpersists.receiver_eq
  refine ⟨?_, fun e packet io hown => ?_, fun now => ?_⟩
  · have hfinished : session.receiver.finished = true := hhoused.lingering_eq ▸ hsettled
    cases hhoused.verdict with
    | pending hpending => simp [hpending] at hfinished
    | failed _ hunpublished _ herror => simpa [hunpublished] using herror
    | published _ hpublished _ hack => simpa [hpublished] using hack
  · rw [Server.reply_settled hhoused' hfind' hsettled' hown, hreceiver]
  · have hheld' : session'.timeout config = config.sessionLinger := by
      rw [Session.timeout, hsettled']
      rfl
    rw [Server.next_find_some config hfind' rfl, ← hpersists.retiresAt_eq hsettled,
      ← Session.stale_iff (hheld' ▸ hlinger), Server.retires]
    split_ifs with hstale
    · simp [hstale]
    · simp [hstale]

/-- A START whose name is refused. -/
def sampleRefusedStart : ServerEvent :=
  .datagram sampleKey.peer
    (serialize { packetType := .start, sessionId := 7 } (asciiBytes "..")) 0 0 {}

/-- The refusal is repeated for twenty seconds. -/
theorem settled_session_answers_refusal :
    let sv := (Server.init .empty).run sampleConfig
      ([sampleRefusedStart] ++ [sampleIntruder 8, sampleRefusedStart, .sweep 20000000000])
    (sv.reply sampleConfig sampleRefusedStart).isSome = true ∧
      (sv.next sampleConfig (.sweep 20001000000)).sessions.find sampleKey = none := by
  intro sv
  have hbefore : (((Server.init .empty).run sampleConfig [sampleRefusedStart]).sessions.find
      sampleKey).map (fun session =>
        (session.lingering, session.completedAt, session.receiver.published))
          = some (true, 0, false) := by
    decide +kernel
  obtain ⟨session, hfind, hclocks⟩ := Option.map_eq_some_iff.mp hbefore
  obtain ⟨hsettled, hrest⟩ := Prod.mk.inj hclocks
  obtain ⟨hcompleted, hunpublished⟩ := Prod.mk.inj hrest
  obtain ⟨-, hanswers, hretires⟩ := settled_session_answers sampleConfig .empty [sampleRefusedStart]
    [sampleIntruder 8, sampleRefusedStart, .sweep 20000000000] sampleKey session (by decide) hfind
    hsettled (fun now hnow => by
      have htime : now = 20000000000 := by
        simpa [sampleIntruder, sampleOpening, sampleRefusedStart] using hnow
      rw [htime, hcompleted]
      decide) (by decide +kernel)
  have hown : (sampleRefusedStart.packetFor sampleKey).map (fun p => p.1.header.packetType)
      = some .start := by
    decide +kernel
  obtain ⟨p, hpacket, htype⟩ := Option.map_eq_some_iff.mp hown
  refine ⟨?_, (hretires _).mpr ?_⟩
  · rw [hanswers sampleRefusedStart p.1 p.2 hpacket, if_pos (Or.inr ⟨htype, hunpublished⟩)]
    rfl
  · rw [hcompleted]
    decide

end SwiftLink
