import SwiftLink.Server.EpollServer

/-!
# Admission control

Anybody can send the server datagrams, so what they can make it hold has a bound.  A START is
admitted when fewer than `max_sessions` sessions are active; settled sessions linger beside them and
are thrown out when the table holds twice that many.  Each START adds one entry, after the test, and
the table starts empty, so neither bound is ever passed.
-/

namespace SwiftLink

def ServerEvent.isDatagram : ServerEvent → Bool
  | .datagram .. => true
  | .sweep _ => false

namespace Server

lemma active_eq_countP (sv : Server) :
    sv.active = sv.sessions.entries.countP fun e => !e.2.lingering :=
  List.countP_eq_length_filter.symm

/-- **The bounds on the session table.** -/
structure Bounded (config : ServerConfig) (sv : Server) : Prop where
  active_le : sv.active ≤ config.maxSessions
  total_le : sv.sessions.entries.length ≤ 2 * config.maxSessions
  lingering_eq : ∀ e ∈ sv.sessions.entries, e.2.lingering = e.2.receiver.finished

namespace Bounded

variable {config : ServerConfig} {sv : Server} {key : SessionKey} {session : Session}

lemma init (config : ServerConfig) (fs : FileSystem) : Bounded config (Server.init fs) where
  active_le := Nat.zero_le _
  total_le := Nat.zero_le _
  lingering_eq e he := by simp [Server.init, Table.empty] at he

lemma eraseIf (h : Bounded config sv) (p : SessionKey × Session → Bool) :
    Bounded config (sv.eraseIf p) where
  active_le := by
    have hle := h.active_le
    rw [active_eq_countP] at hle ⊢
    exact ((sv.sessions.eraseIf_sublist p).countP_le).trans hle
  total_le := ((sv.sessions.eraseIf_sublist p).length_le).trans h.total_le
  lingering_eq e he := h.lingering_eq e (Table.mem_eraseIf.mp he).1

/-- **A packet for a session in the table** adds nothing to it. -/
lemma dispatch (h : Bounded config sv) (hmem : (key, session) ∈ sv.sessions.entries)
    (packet : Packet) (now later : TimePoint) (io : IoEnv) :
    Bounded config (sv.dispatch key session packet now later io).1 := by
  obtain ⟨session', hd, hsessions, -, -⟩ := sv.dispatch_spec key session packet now later io
  refine ⟨?_, ?_, fun e he => ?_⟩
  · refine le_trans ?_ h.active_le
    rw [active_eq_countP, active_eq_countP, hsessions]
    refine Table.countP_set_le fun s hs hactive => ?_
    obtain rfl := Table.eq_of_mem hs hmem
    simp only [hd.lingering_eq, Bool.not_or, Bool.and_eq_true] at hactive
    exact hactive.1
  · rw [hsessions, Table.length_set]
    exact h.total_le
  · rw [hsessions] at he
    rcases (Table.mem_set hmem).mp he with rfl | ⟨hold, -⟩
    · exact hd.lingering_finished (h.lingering_eq _ hmem)
    · exact h.lingering_eq e hold

lemma makeRoom (h : Bounded config sv) : Bounded config (sv.makeRoom config) := by
  rw [Server.makeRoom]
  split_ifs
  · exact h.eraseIf _
  · exact h

/-- **There is room for one more**: the test for pressure comes before the new entry. -/
lemma makeRoom_length_lt (hfit : 2 * config.maxSessions < 2 ^ 64)
    (hroom : sv.active < config.maxSessions) :
    (sv.makeRoom config).sessions.entries.length < 2 * config.maxSessions := by
  rw [Server.makeRoom, Nat.mod_eq_of_lt (by omega)]
  split_ifs with hpressure
  · have hleft : (sv.eraseIf fun e => e.2.lingering).sessions.entries.length = sv.active := rfl
    omega
  · omega

/-- Making room touches no active session. -/
lemma makeRoom_active (config : ServerConfig) (sv : Server) :
    (sv.makeRoom config).active = sv.active := by
  rw [Server.makeRoom]
  split_ifs
  · simp only [active, Server.eraseIf, Table.eraseIf, List.filter_filter, Bool.and_self]
  · rfl

/-- **A new session.** -/
lemma emplace (h : Bounded config sv) (hfit : 2 * config.maxSessions < 2 ^ 64)
    (hroom : sv.active < config.maxSessions) (habsent : sv.sessions.find key = none)
    (peer : Endpoint) (now : TimePoint) :
    Bounded config { sv.makeRoom config with
      sessions := (sv.makeRoom config).sessions.emplace SessionKey.lt key
        (Session.init config peer now) } := by
  have hperm := (sv.makeRoom config).sessions.perm_emplace SessionKey.lt
    (makeRoom_find_none config habsent) (Session.init config peer now)
  refine ⟨?_, ?_, fun e he => ?_⟩
  · have hactive := makeRoom_active config sv
    rw [active_eq_countP] at hactive ⊢
    rw [hperm.countP_eq, List.countP_cons, hactive]
    split_ifs <;> omega
  · rw [hperm.length_eq, List.length_cons]
    exact makeRoom_length_lt hfit hroom
  · rcases List.mem_cons.mp (hperm.mem_iff.mp he) with rfl | hold
    · rfl
    · exact h.makeRoom.lingering_eq e hold

/-- **Every event keeps the bounds.** -/
lemma next (h : Bounded config sv) (hfit : 2 * config.maxSessions < 2 ^ 64) (e : ServerEvent) :
    Bounded config (sv.next config e) := by
  cases e with
  | sweep now =>
      have herased := h.eraseIf fun e => e.2.stale config now
      exact ⟨herased.active_le, herased.total_le, herased.lingering_eq⟩
  | datagram peer bytes now later io =>
      have hreacts := onDatagram_reacts config sv peer bytes now later io
      rw [Server.next]
      generalize sv.onDatagram config peer bytes now later io = result at hreacts
      cases hreacts with
      | malformed => exact h
      | unknown => exact h
      | refused => exact ⟨h.active_le, h.total_le, h.lingering_eq⟩
      | known packet _ session hpresent =>
          exact h.dispatch (Table.find_eq_some_iff.mp hpresent) packet now later io
      | opened packet _ habsent _ hroom =>
          exact (h.emplace hfit hroom habsent peer now).dispatch
            (Table.mem_emplace_self _ (makeRoom_find_none config habsent) _) packet now later io

end Bounded

@[simp] lemma run_concat (config : ServerConfig) (sv : Server) (events : List ServerEvent)
    (e : ServerEvent) : sv.run config (events ++ [e]) = (sv.run config events).next config e := by
  simp [run]

lemma run_bounded (config : ServerConfig) (fs : FileSystem)
    (hfit : 2 * config.maxSessions < 2 ^ 64) (events : List ServerEvent) :
    Bounded config ((init fs).run config events) := by
  induction events using List.reverseRecOn with
  | nil => exact Bounded.init config fs
  | append_singleton events e ih =>
      rw [run_concat]
      exact ih.next hfit e

/-! ## What goes out -/

/-- Everything the server sends during a run. -/
def sent (config : ServerConfig) (sv : Server) : List ServerEvent → List Outgoing
  | [] => []
  | e :: events => (sv.reply config e).toList ++ (sv.next config e).sent config events

/-- **At most one reply to each datagram.** -/
lemma sent_length_le (config : ServerConfig) (sv : Server) (events : List ServerEvent) :
    (sv.sent config events).length ≤ events.countP ServerEvent.isDatagram := by
  induction events generalizing sv with
  | nil => exact le_rfl
  | cons e events ih =>
      have hrest := ih (sv.next config e)
      rw [sent, List.length_append, List.countP_cons]
      cases e with
      | sweep now => simpa [reply, ServerEvent.isDatagram] using hrest
      | datagram peer bytes now later io =>
          have hone : (sv.reply config (.datagram peer bytes now later io)).toList.length ≤ 1 := by
            cases sv.reply config (.datagram peer bytes now later io) <;> simp
          simp only [ServerEvent.isDatagram, if_true]
          omega

/-- The datagram does not decode, or is no START and belongs to no session. -/
def Stray (sv : Server) (peer : Endpoint) (bytes : Bytes) : Prop :=
  ∀ packet, deserialize bytes = .ok packet →
    packet.header.packetType ≠ .start ∧ sv.sessions.find (.ofPacket peer packet) = none

/-- **A stray datagram is ignored.** -/
lemma onDatagram_of_stray {sv : Server} {peer : Endpoint} {bytes : Bytes}
    (h : sv.Stray peer bytes) (config : ServerConfig) (now later : TimePoint) (io : IoEnv) :
    sv.onDatagram config peer bytes now later io = (sv, none) := by
  have hreacts := onDatagram_reacts config sv peer bytes now later io
  generalize sv.onDatagram config peer bytes now later io = result at hreacts
  cases hreacts with
  | malformed => rfl
  | unknown => rfl
  | refused packet hpacket _ htype => exact absurd htype (h packet hpacket).1
  | known packet hpacket session hpresent => simp [(h packet hpacket).2] at hpresent
  | opened packet hpacket _ htype => exact absurd htype (h packet hpacket).1

end Server

/-- **Bounded state under hostile input.**  Whatever datagrams arrive, from whomever, and whenever
the sweep runs: at most `max_sessions` sessions are active and at most twice that many are held, the
lingering ones are exactly the settled ones, no datagram is answered twice, and one that does not
decode, or is no START and belongs to no session, changes nothing and is not answered. -/
theorem bounded_state (config : ServerConfig) (fs : FileSystem)
    (hfit : 2 * config.maxSessions < 2 ^ 64) (events : List ServerEvent) :
    let sv := (Server.init fs).run config events
    sv.active ≤ config.maxSessions ∧
    sv.sessions.entries.length ≤ 2 * config.maxSessions ∧
    (∀ e ∈ sv.sessions.entries, e.2.lingering = e.2.receiver.finished) ∧
    ((Server.init fs).sent config events).length ≤ events.countP ServerEvent.isDatagram ∧
    ∀ peer bytes, sv.Stray peer bytes → ∀ now later io,
      sv.next config (.datagram peer bytes now later io) = sv ∧
        sv.reply config (.datagram peer bytes now later io) = none := by
  intro sv
  have hbounded := Server.run_bounded config fs hfit events
  refine ⟨hbounded.active_le, hbounded.total_le, hbounded.lingering_eq,
    Server.sent_length_le config _ events, fun peer bytes hstray now later io => ?_⟩
  rw [Server.next, Server.reply, Server.onDatagram_of_stray hstray]
  exact ⟨rfl, rfl⟩

def sampleSmall : ServerConfig := { outputDirectory := asciiBytes "out", maxSessions := 1 }

/-- A START of the given session. -/
def sampleKnock (sessionId : BitVec 64) : ServerEvent :=
  .datagram ⟨asciiBytes "10.0.0.1", 5000⟩
    (serialize { packetType := .start, sessionId := sessionId } (asciiBytes "f")) 0 0 {}

/-- A server for one session is asked for two and keeps the first. -/
theorem bounded_state_two_starts :
    let sv := (Server.init .empty).run sampleSmall [sampleKnock 7, sampleKnock 8]
    sv.refused = 1 ∧ sv.active ≤ 1 ∧ sv.sessions.entries.length ≤ 2 := by
  obtain ⟨hactive, htotal, -⟩ :=
    bounded_state sampleSmall .empty (by decide) [sampleKnock 7, sampleKnock 8]
  exact ⟨by decide +kernel, hactive, htotal⟩

end SwiftLink
