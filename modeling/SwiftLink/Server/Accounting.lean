import SwiftLink.Server.Admission

/-!
# Session accounting

At shutdown the server prints how many sessions it completed, failed, timed out and abandoned.  Here
every session gets a number when it is inserted, and a ledger beside the server writes down which
session each increment of a counter was for.  A session can leave the table by the linger sweep, by
eviction, by the idle sweep or by shutdown, and it can settle at any packet before; the books
balance because a session is in the ledger exactly when it lingers or is gone.
-/

namespace SwiftLink

/-- What a session is counted as. -/
inductive Fate
  | completed
  | failed
  | expired
  | abandoned
  deriving Repr, DecidableEq

/-- A FIN_ACK on its way out. -/
def Outgoing.isFinAck (out : Outgoing) : Bool :=
  match deserialize out.wire with
  | .ok packet => packet.header.packetType = .finAck
  | .error _ => false

/-- A server, and who was counted when. -/
structure Ledger where
  server : Server
  /-- How many sessions have been inserted; they are numbered from zero. -/
  born : ℕ := 0
  /-- The number of the session inserted last under a key. -/
  holder : SessionKey → ℕ := fun _ => 0
  counted : List (ℕ × Fate) := []
  /-- The sessions that have returned a FIN_ACK. -/
  acked : List ℕ := []
  /-- The STARTs answered `kServerBusy` that left no session behind. -/
  busy : ℕ := 0

namespace Ledger

def init (fs : FileSystem) : Ledger where
  server := Server.init fs

/-- Books a packet of the session under `key`: whether it was inserted, which counter moved, and
what was answered. -/
def book (l : Ledger) (server : Server) (reply : Option Outgoing) (peer : Endpoint)
    (packet : Packet) : Ledger :=
  let key := SessionKey.ofPacket peer packet
  let inserted := (l.server.sessions.find key).isNone && (server.sessions.find key).isSome
  let holder := if inserted then Function.update l.holder key l.born else l.holder
  { server := server
    born := if inserted then l.born + 1 else l.born
    holder := holder
    counted := l.counted ++
      (if server.completed ≠ l.server.completed then [(holder key, .completed)] else []) ++
      (if server.failed ≠ l.server.failed then [(holder key, .failed)] else [])
    acked := l.acked ++ if reply.any Outgoing.isFinAck then [holder key] else []
    busy := l.busy +
      if packet.header.packetType = .start ∧ (server.sessions.find key).isNone ∧
        reply = some ⟨peer, Server.errorWire packet.header .serverBusy⟩ then 1 else 0 }

/-- Books a sweep: the sessions it removed that were not lingering. -/
def bookSweep (l : Ledger) (server : Server) : Ledger :=
  let gone := l.server.sessions.entries.filter fun e =>
    !e.2.lingering && (server.sessions.find e.1).isNone
  { l with
    server := server
    counted := l.counted ++ gone.map fun e => (l.holder e.1, .expired) }

def next (config : ServerConfig) (l : Ledger) (e : ServerEvent) : Ledger :=
  let server := l.server.next config e
  match e with
  | .sweep _ => l.bookSweep server
  | .datagram peer bytes _ _ _ =>
      match deserialize bytes with
      | .error _ => { l with server := server }
      | .ok packet => l.book server (l.server.reply config e) peer packet

def run (config : ServerConfig) (l : Ledger) (events : List ServerEvent) : Ledger :=
  events.foldl (next config) l

/-- The books at shutdown: the sessions still active are abandoned. -/
def closed (l : Ledger) : List (ℕ × Fate) :=
  l.counted ++ (l.server.sessions.entries.filter fun e => !e.2.lingering).map
    fun e => (l.holder e.1, .abandoned)

/-- The number printed at shutdown. -/
def printed (l : Ledger) : Fate → ℕ
  | .completed => l.server.completed
  | .failed => l.server.failed
  | .expired => l.server.expired
  | .abandoned => l.server.shutdown.1

@[simp] lemma run_concat (config : ServerConfig) (l : Ledger) (events : List ServerEvent)
    (e : ServerEvent) : l.run config (events ++ [e]) = (l.run config events).next config e := by
  simp [run]

/-- The ledger changes nothing about the server. -/
lemma next_server (config : ServerConfig) (l : Ledger) (e : ServerEvent) :
    (l.next config e).server = l.server.next config e := by
  cases e with
  | sweep now => rfl
  | datagram peer bytes now later io =>
      simp only [next]
      split <;> rfl

end Ledger

/-! ## The books -/

/-- What the books say about the session numbered `id`. -/
structure Entry (counted : List (ℕ × Fate)) (born id : ℕ) (session : Session) : Prop where
  lingering_eq : session.lingering = session.receiver.finished
  verdict : session.receiver.Verdict
  lt : id < born
  counted_iff : id ∈ counted.map Prod.fst ↔ session.lingering = true
  completed_iff : (id, .completed) ∈ counted ↔ session.receiver.published = true

/-- **The books balance**: every session ever inserted is in the ledger, once, or in the table, and
in both exactly when it lingers. -/
structure Books (sessions : Table SessionKey Session) (born : ℕ) (holder : SessionKey → ℕ)
    (counted : List (ℕ × Fate)) : Prop where
  entry : ∀ e ∈ sessions.entries, Entry counted born (holder e.1) e.2
  holder_inj : ∀ e ∈ sessions.entries, ∀ d ∈ sessions.entries, holder e.1 = holder d.1 → e.1 = d.1
  nodup : (counted.map Prod.fst).Nodup
  lt : ∀ id ∈ counted.map Prod.fst, id < born
  cover : ∀ id < born, id ∈ counted.map Prod.fst ∨ ∃ e ∈ sessions.entries, holder e.1 = id

/-- Counting somebody else. -/
lemma Entry.append {counted new : List (ℕ × Fate)} {born id : ℕ} {session : Session}
    (h : Entry counted born id session) (hnew : id ∉ new.map Prod.fst) :
    Entry (counted ++ new) born id session where
  lingering_eq := h.lingering_eq
  verdict := h.verdict
  lt := h.lt
  counted_iff := by
    rw [List.map_append, List.mem_append, or_iff_left hnew]
    exact h.counted_iff
  completed_iff := by
    rw [List.mem_append, or_iff_left fun hmem => hnew (List.mem_map_of_mem hmem)]
    exact h.completed_iff

namespace Books

variable {sessions : Table SessionKey Session} {born : ℕ} {holder : SessionKey → ℕ}
  {counted : List (ℕ × Fate)} {key : SessionKey} {session session' : Session}

lemma init : Books Table.empty 0 (fun _ => 0) [] where
  entry e he := by simp [Table.empty] at he
  holder_inj e he := by simp [Table.empty] at he
  nodup := List.nodup_nil
  lt id hid := by simp at hid
  cover id hid := absurd hid (Nat.not_lt_zero id)

/-- **Erasing sessions**, and counting those of them that have not been counted yet. -/
lemma erase (h : Books sessions born holder counted) (p : SessionKey × Session → Bool)
    (fate : Fate) :
    Books (sessions.eraseIf p) born holder
      (counted ++ (sessions.entries.filter fun e => p e && !e.2.lingering).map
        fun e => (holder e.1, fate)) := by
  set gone := sessions.entries.filter fun e => p e && !e.2.lingering with hgone
  have hids : (gone.map fun e => (holder e.1, fate)).map Prod.fst = gone.map fun e => holder e.1 :=
    List.map_map
  have hmem : ∀ e ∈ gone, e ∈ sessions.entries ∧ p e = true ∧ e.2.lingering = false := by
    intro e he
    simpa [hgone] using he
  have hunique : ∀ e ∈ sessions.entries, ∀ d ∈ sessions.entries,
      holder e.1 = holder d.1 → e = d := by
    intro e he d hd hholder
    obtain ⟨k, s⟩ := e
    obtain ⟨k', s'⟩ := d
    obtain rfl : k = k' := h.holder_inj _ he _ hd hholder
    rw [Table.eq_of_mem he hd]
  refine ⟨fun e he => ?_, fun e he d hd => ?_, ?_, fun id hid => ?_, fun id hid => ?_⟩
  · obtain ⟨hold, hkept⟩ := Table.mem_eraseIf.mp he
    refine (h.entry e hold).append fun hcounted => ?_
    rw [hids] at hcounted
    obtain ⟨d, hd, hholder⟩ := List.mem_map.mp hcounted
    obtain ⟨hin, hp, -⟩ := hmem d hd
    rw [hunique d hin e hold hholder, hkept] at hp
    simp at hp
  · exact h.holder_inj e (Table.mem_eraseIf.mp he).1 d (Table.mem_eraseIf.mp hd).1
  · rw [List.map_append, hids]
    refine h.nodup.append ?_ fun id hid hid' => ?_
    · have hentries : sessions.entries.Nodup := sessions.keys_nodup.of_map _
      refine List.Nodup.map_on (fun e he d hd => hunique e (hmem e he).1 d (hmem d hd).1) ?_
      exact hentries.filter _
    · obtain ⟨e, he, rfl⟩ := List.mem_map.mp hid'
      obtain ⟨hin, -, hlinger⟩ := hmem e he
      have := (h.entry e hin).counted_iff.mp hid
      simp [hlinger] at this
  · rw [List.map_append, hids, List.mem_append] at hid
    rcases hid with hold | hnew
    · exact h.lt id hold
    · obtain ⟨e, he, rfl⟩ := List.mem_map.mp hnew
      exact (h.entry e (hmem e he).1).lt
  · rw [List.map_append, hids, List.mem_append]
    rcases h.cover id hid with hold | ⟨e, he, rfl⟩
    · exact Or.inl (Or.inl hold)
    · cases hp : p e with
      | false => exact Or.inr ⟨e, Table.mem_eraseIf.mpr ⟨he, hp⟩, rfl⟩
      | true =>
          cases hlinger : e.2.lingering with
          | true => exact Or.inl (Or.inl ((h.entry e he).counted_iff.mpr hlinger))
          | false =>
              have hin : e ∈ gone := by
                rw [hgone, List.mem_filter, hp, hlinger]
                exact ⟨he, rfl⟩
              exact Or.inl (Or.inr (List.mem_map.mpr ⟨e, hin, rfl⟩))

/-- **Eviction** takes only sessions that have been counted. -/
lemma evict (h : Books sessions born holder counted) :
    Books (sessions.eraseIf fun e => e.2.lingering) born holder counted := by
  have hnone : (sessions.entries.filter fun e => e.2.lingering && !e.2.lingering) = [] :=
    List.filter_eq_nil_iff.mpr fun e _ => by simp
  have herased := h.erase (fun e => e.2.lingering) .expired
  rwa [hnone, List.map_nil, List.append_nil] at herased

lemma makeRoom {sv : Server} (h : Books sv.sessions born holder counted)
    (config : ServerConfig) : Books (sv.makeRoom config).sessions born holder counted := by
  rw [Server.makeRoom]
  split_ifs
  · exact h.evict
  · exact h

/-- **Inserting a session.** -/
lemma insert (h : Books sessions born holder counted) (habsent : sessions.find key = none)
    (config : ServerConfig) (peer : Endpoint) (now : TimePoint) :
    Books (sessions.emplace SessionKey.lt key (Session.init config peer now)) (born + 1)
      (Function.update holder key born) counted := by
  have hother : ∀ e ∈ sessions.entries, Function.update holder key born e.1 = holder e.1 :=
    fun e he => Function.update_of_ne (Table.find_eq_none_iff.mp habsent e he) _ _
  have hnew : born ∉ counted.map Prod.fst := fun hmem => lt_irrefl _ (h.lt born hmem)
  refine ⟨fun e he => ?_, fun e he d hd hholder => ?_, h.nodup,
    fun id hid => (h.lt id hid).trans (Nat.lt_succ_self _), fun id hid => ?_⟩
  · rcases (Table.mem_emplace habsent).mp he with rfl | hold
    · simp only [Function.update_self]
      refine ⟨rfl, ReceiverSession.init_verdict _ _, Nat.lt_succ_self _, ?_, ?_⟩
      · simpa [Session.init] using hnew
      · simpa [Session.init, ReceiverSession.init] using
          fun hmem => hnew (List.mem_map_of_mem (f := Prod.fst) hmem)
    · rw [hother e hold]
      obtain ⟨hlinger, hverdict, hlt, hcounted, hcompleted⟩ := h.entry e hold
      exact ⟨hlinger, hverdict, hlt.trans (Nat.lt_succ_self _), hcounted, hcompleted⟩
  · rcases (Table.mem_emplace habsent).mp he with rfl | hold
    · rcases (Table.mem_emplace habsent).mp hd with rfl | hold'
      · rfl
      · rw [hother d hold', Function.update_self] at hholder
        exact absurd hholder (h.entry d hold').lt.ne'
    · rcases (Table.mem_emplace habsent).mp hd with rfl | hold'
      · rw [hother e hold, Function.update_self] at hholder
        exact absurd hholder (h.entry e hold).lt.ne
      · rw [hother e hold, hother d hold'] at hholder
        exact h.holder_inj e hold d hold' hholder
  · rcases Nat.lt_succ_iff_lt_or_eq.mp hid with hlt | rfl
    · rcases h.cover id hlt with hcounted | ⟨e, he, heq⟩
      · exact Or.inl hcounted
      · exact Or.inr ⟨e, (Table.mem_emplace habsent).mpr (Or.inr he), (hother e he).trans heq⟩
    · exact Or.inr ⟨_, Table.mem_emplace_self _ habsent _, Function.update_self _ _ _⟩

/-- **A packet of the session under `key`**, which may count it. -/
lemma set (h : Books sessions born holder counted) (hmem : (key, session) ∈ sessions.entries)
    {new : List (ℕ × Fate)} (hnew : ∀ c ∈ new, c.1 = holder key)
    (hnodup : (new.map Prod.fst).Nodup) (hfresh : new ≠ [] → session.lingering = false)
    (hentry : Entry (counted ++ new) born (holder key) session') :
    Books (sessions.set key session') born holder (counted ++ new) := by
  have hkeys : ∀ e ∈ (sessions.set key session').entries,
      ∃ d ∈ sessions.entries, d.1 = e.1 := by
    intro e he
    rcases (Table.mem_set hmem).mp he with rfl | ⟨hold, -⟩
    · exact ⟨_, hmem, rfl⟩
    · exact ⟨e, hold, rfl⟩
  have hids : ∀ id ∈ new.map Prod.fst, id = holder key := by
    intro id hid
    obtain ⟨c, hc, rfl⟩ := List.mem_map.mp hid
    exact hnew c hc
  refine ⟨fun e he => ?_, fun e he d hd hholder => ?_, ?_, fun id hid => ?_, fun id hid => ?_⟩
  · rcases (Table.mem_set hmem).mp he with rfl | ⟨hold, hne⟩
    · exact hentry
    · exact (h.entry e hold).append fun hid =>
        hne (h.holder_inj e hold _ hmem (hids _ hid))
  · obtain ⟨e', he', heq⟩ := hkeys e he
    obtain ⟨d', hd', hdeq⟩ := hkeys d hd
    rw [← heq, ← hdeq] at hholder ⊢
    exact h.holder_inj e' he' d' hd' hholder
  · rw [List.map_append]
    refine h.nodup.append hnodup fun id hid hid' => ?_
    have hopen : session.lingering = false := hfresh (by rintro rfl; simp at hid')
    rw [hids id hid'] at hid
    have := (h.entry _ hmem).counted_iff.mp hid
    simp [hopen] at this
  · rw [List.map_append, List.mem_append] at hid
    rcases hid with hold | hid
    · exact h.lt id hold
    · rw [hids id hid]
      exact (h.entry _ hmem).lt
  · rcases h.cover id hid with hcounted | ⟨e, he, rfl⟩
    · exact Or.inl (by rw [List.map_append]; exact List.mem_append_left _ hcounted)
    · by_cases hk : e.1 = key
      · exact Or.inr ⟨(key, session'), (Table.mem_set hmem).mpr (Or.inl rfl), by rw [hk]⟩
      · exact Or.inr ⟨e, (Table.mem_set hmem).mpr (Or.inr ⟨he, hk⟩), rfl⟩

end Books

/-! ## One packet -/

namespace World

variable {w : World} {packet : Packet} {io : IoEnv}

/-- A FIN_ACK on the wire is a published session's. -/
lemma published_of_isFinAck (hverdict : w.session.Verdict) {peer : Endpoint}
    (h : ((w.answer packet io).map fun wire => (⟨peer, wire⟩ : Outgoing)).any Outgoing.isFinAck
      = true) :
    (w.next (.packet packet io)).session.published = true := by
  simp only [answer] at h
  split_ifs at h with hsend
  · simp only [Option.map_some, Option.any_some, Outgoing.isFinAck] at h
    split at h
    · next decoded hdecoded =>
      refine of_finAck hverdict (e := .packet packet io) ⟨hsend, ?_⟩
      rw [← (Reply.decoded_wire hdecoded).1]
      simpa using h
    · simp at h
  · simp at h

/-- **A session publishes with a FIN_ACK.** -/
lemma isFinAck_of_publishes (h : w.Publishes packet io) (peer : Endpoint) :
    ((w.answer packet io).map fun wire => (⟨peer, wire⟩ : Outgoing)).any Outgoing.isFinAck
      = true := by
  simp only [answer, h.reply_eq, if_true, Option.map_some, Option.any_some, Outgoing.isFinAck,
    Reply.wire]
  rw [deserialize_serialize ⟨rfl, rfl, rfl⟩ (by simp)]
  simp [onWire, Reply.header]

lemma published_next_iff (hverdict : w.session.Verdict) (packet : Packet) (io : IoEnv)
    (peer : Endpoint) :
    (w.next (.packet packet io)).session.published = true ↔ w.session.published = true ∨
      ((w.answer packet io).map fun wire => (⟨peer, wire⟩ : Outgoing)).any Outgoing.isFinAck
        = true := by
  constructor
  · intro hafter
    cases hbefore : w.session.published with
    | true => exact Or.inl rfl
    | false => exact Or.inr (isFinAck_of_publishes ⟨hbefore, hafter⟩ peer)
  · rintro (hbefore | hack)
    · exact published_next hverdict hbefore
    · exact published_of_isFinAck hverdict hack

end World

namespace Server

variable (sv : Server) (key : SessionKey) (session : Session) (packet : Packet)
  (now later : TimePoint) (io : IoEnv)

lemma makeRoom_counters (config : ServerConfig) (sv : Server) :
    (sv.makeRoom config).completed = sv.completed ∧ (sv.makeRoom config).failed = sv.failed ∧
      (sv.makeRoom config).expired = sv.expired ∧ (sv.makeRoom config).refused = sv.refused := by
  rw [makeRoom]
  split_ifs <;> exact ⟨rfl, rfl, rfl, rfl⟩

/-- The session a packet is handed to is in the table afterwards. -/
lemma dispatch_present {sv : Server} {key : SessionKey} {session : Session}
    (hmem : (key, session) ∈ sv.sessions.entries) (packet : Packet) (now later : TimePoint)
    (io : IoEnv) :
    ∃ session', (sv.dispatch key session packet now later io).1.sessions.find key
      = some session' := by
  obtain ⟨session', -, hsessions, -, -⟩ := sv.dispatch_spec key session packet now later io
  refine ⟨session', ?_⟩
  rw [hsessions]
  exact Table.find_set hmem

lemma errorWire_not_finAck (peer : Endpoint) (request : PacketHeader) (code : StatusCode) :
    (some (⟨peer, errorWire request code⟩ : Outgoing)).any Outgoing.isFinAck = false := by
  simp only [Option.any_some, Outgoing.isFinAck]
  split
  · next packet hpacket =>
    rw [(decoded_of_serialize ⟨rfl, rfl, rfl⟩ hpacket).1]
    rfl
  · rfl

/-- The counter a packet moves, if it settles the session. -/
def settledAs (session : Session) (w' : World) : Option Fate :=
  if w'.session.finished ∧ session.lingering = false then
    if w'.session.error = .none then some .completed else some .failed
  else none

lemma settledAs_ne {session : Session} {w' : World} {fate : Fate} (hcompleted : fate ≠ .completed)
    (hfailed : fate ≠ .failed) : settledAs session w' ≠ some fate := by
  rw [settledAs]
  split_ifs
  · exact fun h => hcompleted (Option.some.inj h).symm
  · exact fun h => hfailed (Option.some.inj h).symm
  · simp

/-- **`dispatch` counts a session when it settles**, and no other. -/
lemma dispatch_counters :
    let sv' := (sv.dispatch key session packet now later io).1
    let fate := settledAs session (World.next ⟨session.receiver, sv.fs⟩ (.packet packet io))
    sv'.completed = sv.completed + (if fate = some .completed then 1 else 0) ∧
      sv'.failed = sv.failed + (if fate = some .failed then 1 else 0) ∧
      sv'.expired = sv.expired ∧ sv'.refused = sv.refused := by
  simp only [dispatch, settledAs, Bool.not_eq_true']
  split_ifs with hsettled herror <;> simp_all [countSettled]

/-- The counters that have moved tell the fate of the session. -/
lemma dispatch_news (id : ℕ) :
    let sv' := (sv.dispatch key session packet now later io).1
    (if sv'.completed ≠ sv.completed then [(id, Fate.completed)] else []) ++
        (if sv'.failed ≠ sv.failed then [(id, Fate.failed)] else [])
      = (settledAs session (World.next ⟨session.receiver, sv.fs⟩ (.packet packet io))).toList.map
          fun fate => (id, fate) := by
  intro sv'
  obtain ⟨hcompleted, hfailed, -, -⟩ := sv.dispatch_counters key session packet now later io
  rw [hcompleted, hfailed, settledAs]
  split_ifs <;> simp_all

end Server

/-- The session's entry in the books after a packet. -/
lemma Entry.dispatched {counted : List (ℕ × Fate)} {born id : ℕ} {session session' : Session}
    {fs : FileSystem} {packet : Packet} {io : IoEnv} (h : Entry counted born id session)
    (hd : Server.Dispatched session
      (World.next ⟨session.receiver, fs⟩ (.packet packet io)) session') :
    Entry (counted ++ ((Server.settledAs session
      (World.next ⟨session.receiver, fs⟩ (.packet packet io))).toList.map fun fate => (id, fate)))
      born id session' := by
  set w' := World.next ⟨session.receiver, fs⟩ (.packet packet io) with hw'
  have hverdict : w'.session.Verdict :=
    h.verdict.handles (ReceiverSession.handlePacket_handles session.receiver fs packet io)
  have hpublished : session'.receiver.published = w'.session.published := by rw [hd.same]
  refine ⟨hd.lingering_finished h.lingering_eq, hd.verdict hverdict, h.lt, ?_, ?_⟩
  · rw [List.map_append, List.mem_append, h.counted_iff, hd.lingering_eq, Server.settledAs]
    cases hl : session.lingering with
    | true => simp
    | false =>
        cases hf : w'.session.finished with
        | false => simp
        | true =>
            simp only [and_self, if_true, Bool.false_eq_true, false_or, Bool.or_true, iff_true]
            split_ifs <;> simp
  · rw [List.mem_append, h.completed_iff, hpublished, Server.settledAs]
    cases hl : session.lingering with
    | true =>
        have hfinished : session.receiver.finished = true := h.lingering_eq ▸ hl
        obtain ⟨stats, heq⟩ :=
          World.next_of_finished (w := ⟨session.receiver, fs⟩) hfinished packet io
        rw [hw', heq]
        simp
    | false =>
        have hpending : session.receiver.published = false :=
          (h.verdict.of_unfinished (h.lingering_eq ▸ hl)).2
        cases hverdict with
        | pending hf hp => simp [hpending, hf, hp]
        | failed hf hp he => simp [hpending, hf, hp, he]
        | published hf hp he => simp [hf, hp, he]

/-! ## Every run -/

/-- How many sessions are counted as `fate`. -/
def tally (counted : List (ℕ × Fate)) (fate : Fate) : ℕ := counted.countP fun c => c.2 = fate

lemma tally_append (counted new : List (ℕ × Fate)) (fate : Fate) :
    tally (counted ++ new) fate = tally counted fate + tally new fate :=
  List.countP_append

/-- Sessions counted together have one fate. -/
lemma tally_map_const {α : Type*} (entries : List α) (holder : α → ℕ) (fate f : Fate) :
    tally (entries.map fun e => (holder e, fate)) f
      = if f = fate then entries.length else 0 := by
  rw [tally, List.countP_map]
  split_ifs with hsame
  · rw [List.countP_eq_length.mpr fun e _ => by simp [hsame]]
  · rw [List.countP_eq_zero.mpr fun e _ => by simp [Ne.symm hsame]]

lemma tally_toList (fate : Option Fate) (id : ℕ) (f : Fate) :
    tally (fate.toList.map fun g => (id, g)) f = if fate = some f then 1 else 0 := by
  cases fate with
  | none => simp [tally]
  | some g => simp [tally, List.countP_cons]

/-- **What a run keeps true of the ledger.** -/
structure Balanced (l : Ledger) : Prop where
  books : Books l.server.sessions l.born l.holder l.counted
  completed : tally l.counted .completed = l.server.completed
  failed : tally l.counted .failed = l.server.failed
  expired : tally l.counted .expired = l.server.expired
  abandoned : tally l.counted .abandoned = 0
  acked_iff : ∀ id, id ∈ l.acked ↔ (id, .completed) ∈ l.counted
  refused : l.server.refused = l.busy

namespace Balanced

variable {config : ServerConfig} {l : Ledger}

lemma init (fs : FileSystem) : Balanced (Ledger.init fs) where
  books := Books.init
  completed := rfl
  failed := rfl
  expired := rfl
  abandoned := rfl
  acked_iff id := by simp [Ledger.init]
  refused := rfl

/-- A sweep removes the stale sessions from the table, and finds those keys gone. -/
lemma sweep_gone (sessions : Table SessionKey Session) (p : SessionKey × Session → Bool) :
    (sessions.entries.filter fun e => !e.2.lingering && ((sessions.eraseIf p).find e.1).isNone)
      = sessions.entries.filter fun e => p e && !e.2.lingering := by
  refine List.filter_congr fun e he => ?_
  have hgone : ((sessions.eraseIf p).find e.1).isNone = p e := by
    cases hp : p e with
    | true =>
        rw [Option.isNone_iff_eq_none, Table.find_eq_none_iff]
        intro d hd hkey
        obtain ⟨hin, hkept⟩ := Table.mem_eraseIf.mp hd
        obtain ⟨k, s⟩ := e
        obtain ⟨k', s'⟩ := d
        obtain rfl : k' = k := hkey
        rw [Table.eq_of_mem hin he, hp] at hkept
        simp at hkept
    | false =>
        rw [Table.find_eq_some_iff.mpr (Table.mem_eraseIf.mpr ⟨he, hp⟩)]
        rfl
  rw [hgone, Bool.and_comm]

/-- **The sweep.** -/
lemma sweep (h : Balanced l) (now : TimePoint) : Balanced (l.next config (.sweep now)) := by
  have hgone := sweep_gone l.server.sessions fun e => e.2.stale config now
  set gone := l.server.sessions.entries.filter fun e => e.2.stale config now && !e.2.lingering
    with hdef
  have hnext : l.next config (.sweep now) = { l with
      server := l.server.sweep config now
      counted := l.counted ++ gone.map fun e => (l.holder e.1, Fate.expired) } := by
    rw [← hgone]
    rfl
  rw [hnext]
  refine ⟨h.books.erase _ _, ?_, ?_, ?_, ?_, fun id => ?_, h.refused⟩
  · rw [tally_append, tally_map_const, h.completed]
    rfl
  · rw [tally_append, tally_map_const, h.failed]
    rfl
  · rw [tally_append, tally_map_const, h.expired]
    rfl
  · rw [tally_append, tally_map_const, h.abandoned]
    rfl
  · rw [h.acked_iff, List.mem_append, or_iff_left]
    intro hmem
    obtain ⟨e, -, heq⟩ := List.mem_map.mp hmem
    simp at heq

/-- **A packet handed to a session**, whether it was in the table or is new. -/
lemma dispatch (h : Balanced l) {sv : Server} {born : ℕ} {holder : SessionKey → ℕ}
    {key : SessionKey} {session : Session} (hmem : (key, session) ∈ sv.sessions.entries)
    (hbooks : Books sv.sessions born holder l.counted)
    (hcompleted : sv.completed = l.server.completed) (hfailed : sv.failed = l.server.failed)
    (hexpired : sv.expired = l.server.expired) (hrefused : sv.refused = l.server.refused)
    (packet : Packet) (now later : TimePoint) (io : IoEnv) :
    let result := sv.dispatch key session packet now later io
    Balanced
      { server := result.1
        born := born
        holder := holder
        counted := l.counted ++
          (if result.1.completed ≠ l.server.completed then [(holder key, .completed)] else []) ++
          (if result.1.failed ≠ l.server.failed then [(holder key, .failed)] else [])
        acked := l.acked ++ if result.2.any Outgoing.isFinAck then [holder key] else []
        busy := l.busy } := by
  intro result
  obtain ⟨session', hd, hsessions, -, hreply⟩ :=
    sv.dispatch_spec key session packet now later io
  obtain ⟨hcompleted', hfailed', hexpired', hrefused'⟩ :=
    sv.dispatch_counters key session packet now later io
  set w : World := ⟨session.receiver, sv.fs⟩ with hw
  have hold := hbooks.entry _ hmem
  have hentry := hold.dispatched hd
  set fate := Server.settledAs session (w.next (.packet packet io)) with hfate
  have hids : ∀ c ∈ fate.toList.map fun f => (holder key, f), c.1 = holder key := by
    intro c hc
    obtain ⟨f, -, rfl⟩ := List.mem_map.mp hc
    rfl
  have hpublished : session'.receiver.published
      = (w.next (.packet packet io)).session.published := by rw [hd.same]
  rw [List.append_assoc, ← hcompleted, ← hfailed, sv.dispatch_news, ← hfate]
  refine ⟨?_, ?_, ?_, ?_, ?_, fun id => ?_, ?_⟩
  · rw [hsessions]
    refine hbooks.set hmem hids ?_ ?_ hentry
    · cases fate <;> simp
    · intro hne
      by_contra hlinger
      rw [hfate, Server.settledAs, if_neg fun h => hlinger h.2] at hne
      simp at hne
  · rw [tally_append, tally_toList, h.completed, hcompleted', hcompleted]
  · rw [tally_append, tally_toList, h.failed, hfailed', hfailed]
  · rw [tally_append, tally_toList, h.expired, if_neg (Server.settledAs_ne (by decide) (by decide)),
      hexpired', hexpired]
    rfl
  · rw [tally_append, tally_toList, h.abandoned,
      if_neg (Server.settledAs_ne (by decide) (by decide))]
  · by_cases hid : id = holder key
    · subst hid
      rw [hentry.completed_iff, hpublished, List.mem_append, h.acked_iff, hold.completed_iff,
        hreply, World.published_next_iff hold.verdict packet io session.peer]
      refine or_congr_right ?_
      split_ifs with hfinAck
      · simp [hfinAck]
      · simp [hfinAck]
    · rw [List.mem_append, List.mem_append, h.acked_iff, or_iff_left, or_iff_left]
      · exact fun hmem => hid (hids _ hmem)
      · intro hmem
        split_ifs at hmem
        · exact hid (List.mem_singleton.mp hmem)
        · simp at hmem
  · exact hrefused'.trans (hrefused.trans h.refused)

/-- A packet that finds no session and opens none is not booked. -/
lemma dropped (h : Balanced l) {sv : Server} {reply : Option Outgoing} {peer : Endpoint}
    {packet : Packet} (hsessions : sv.sessions = l.server.sessions)
    (habsent : sv.sessions.find (.ofPacket peer packet) = none)
    (hcompleted : sv.completed = l.server.completed) (hfailed : sv.failed = l.server.failed)
    (hexpired : sv.expired = l.server.expired) (hreply : reply.any Outgoing.isFinAck = false)
    (hrefused : sv.refused = l.server.refused +
      if packet.header.packetType = .start ∧
        reply = some ⟨peer, Server.errorWire packet.header .serverBusy⟩ then 1 else 0) :
    Balanced (l.book sv reply peer packet) := by
  have hbook : l.book sv reply peer packet = { l with
      server := sv
      busy := l.busy + if packet.header.packetType = .start ∧
        reply = some ⟨peer, Server.errorWire packet.header .serverBusy⟩ then 1 else 0 } := by
    simp [Ledger.book, habsent, hcompleted, hfailed, hreply]
  rw [hbook]
  exact ⟨hsessions ▸ h.books, h.completed.trans hcompleted.symm, h.failed.trans hfailed.symm,
    h.expired.trans hexpired.symm, h.abandoned, h.acked_iff, by rw [hrefused, h.refused]⟩

/-- **Every event keeps the books balanced.** -/
lemma next (h : Balanced l) (e : ServerEvent) : Balanced (l.next config e) := by
  cases e with
  | sweep now => exact h.sweep now
  | datagram peer bytes now later io =>
      have hreacts := Server.onDatagram_reacts config l.server peer bytes now later io
      simp only [Ledger.next, Server.next, Server.reply]
      generalize l.server.onDatagram config peer bytes now later io = result at hreacts
      cases hreacts with
      | malformed reason hbad =>
          simp only [hbad]
          exact h
      | unknown packet hpacket habsent htype =>
          simp only [hpacket]
          exact h.dropped rfl habsent rfl rfl rfl rfl (by simp [htype])
      | refused packet hpacket habsent htype hfull =>
          simp only [hpacket]
          exact h.dropped rfl habsent rfl rfl rfl (Server.errorWire_not_finAck _ _ _)
            (by simp [htype])
      | known packet hpacket session hpresent =>
          have hmem := Table.find_eq_some_iff.mp hpresent
          have hbooked := h.dispatch hmem h.books rfl rfl rfl rfl packet now later io
          obtain ⟨session', hfind⟩ := Server.dispatch_present hmem packet now later io
          simp only [hpacket]
          simpa [Ledger.book, hpresent, hfind] using hbooked
      | opened packet hpacket habsent htype hroom =>
          have habsent' := Server.makeRoom_find_none config habsent
          have hmem := Table.mem_emplace_self SessionKey.lt habsent' (Session.init config peer now)
          have hbooks := (h.books.makeRoom config).insert habsent' config peer now
          obtain ⟨hcompleted, hfailed, hexpired, hrefused⟩ :=
            Server.makeRoom_counters config l.server
          generalize hplaced : (l.server.makeRoom config).sessions.emplace SessionKey.lt
            (.ofPacket peer packet) (Session.init config peer now) = sessions at *
          set sv : Server := { l.server.makeRoom config with sessions := sessions } with hsv
          have hmem' : (SessionKey.ofPacket peer packet, Session.init config peer now)
              ∈ sv.sessions.entries := hmem
          have hbooked :=
            h.dispatch hmem' hbooks hcompleted hfailed hexpired hrefused packet now later io
          obtain ⟨session', hfind⟩ := Server.dispatch_present hmem' packet now later io
          simp only [hpacket]
          simpa [Ledger.book, habsent, hfind] using hbooked

end Balanced

namespace Ledger

lemma run_balanced (config : ServerConfig) (fs : FileSystem) (events : List ServerEvent) :
    Balanced ((init fs).run config events) := by
  induction events using List.reverseRecOn with
  | nil => exact Balanced.init fs
  | append_singleton events e ih =>
      rw [run_concat]
      exact ih.next e

lemma run_server (config : ServerConfig) (fs : FileSystem) (events : List ServerEvent) :
    ((init fs).run config events).server = (Server.init fs).run config events := by
  induction events using List.reverseRecOn with
  | nil => rfl
  | append_singleton events e ih => rw [run_concat, next_server, ih, Server.run_concat]

end Ledger

namespace Balanced

variable {l : Ledger}

/-- **Shutdown closes the books**: what was neither counted nor gone is abandoned. -/
lemma closed_perm (h : Balanced l) : (l.closed.map Prod.fst).Perm (List.range l.born) := by
  have hclosed := h.books.erase (fun _ => true) .abandoned
  simp only [Bool.true_and] at hclosed
  refine (List.perm_ext_iff_of_nodup hclosed.nodup List.nodup_range).mpr fun id => ?_
  rw [List.mem_range]
  refine ⟨hclosed.lt id, fun hlt => ?_⟩
  rcases hclosed.cover id hlt with hcounted | ⟨e, he, -⟩
  · exact hcounted
  · simp [Table.eraseIf] at he

lemma tally_closed (h : Balanced l) (fate : Fate) : tally l.closed fate = l.printed fate := by
  rw [Ledger.closed, tally_append, tally_map_const]
  cases fate with
  | completed => exact h.completed
  | failed => exact h.failed
  | expired => exact h.expired
  | abandoned =>
      rw [h.abandoned]
      exact Nat.zero_add _

end Balanced

lemma length_eq_tallies (counted : List (ℕ × Fate)) :
    counted.length = tally counted .completed + tally counted .failed + tally counted .expired
      + tally counted .abandoned := by
  induction counted with
  | nil => rfl
  | cons c counted ih =>
      obtain ⟨id, fate⟩ := c
      simp only [tally, List.length_cons, List.countP_cons] at ih ⊢
      cases fate <;> simp <;> omega

/-- **Session accounting is exact.**  Number the sessions in the order in which they are inserted:
at shutdown every one of them is counted once, each printed number counts the sessions with that
fate, so the four add up to the sessions inserted; those counted as completed are exactly those
that returned a FIN_ACK; and `refused` counts the STARTs answered `kServerBusy` that left no session
behind. -/
theorem accounting_exact (config : ServerConfig) (fs : FileSystem) (events : List ServerEvent) :
    let l := (Ledger.init fs).run config events
    l.server = (Server.init fs).run config events ∧
    (l.closed.map Prod.fst).Perm (List.range l.born) ∧
    (∀ fate, tally l.closed fate = l.printed fate) ∧
    l.born = l.printed .completed + l.printed .failed + l.printed .expired
      + l.printed .abandoned ∧
    (∀ id, (id, .completed) ∈ l.closed ↔ id ∈ l.acked) ∧
    l.server.refused = l.busy := by
  intro l
  have hbalanced := Ledger.run_balanced config fs events
  refine ⟨Ledger.run_server config fs events, hbalanced.closed_perm, hbalanced.tally_closed, ?_,
    fun id => ?_, hbalanced.refused⟩
  · have hlength := hbalanced.closed_perm.length_eq
    rw [List.length_map, List.length_range, length_eq_tallies] at hlength
    simp only [hbalanced.tally_closed] at hlength
    exact hlength.symm
  · rw [hbalanced.acked_iff, Ledger.closed, List.mem_append, or_iff_left]
    intro hmem
    obtain ⟨e, -, heq⟩ := List.mem_map.mp hmem
    simp at heq

/-- A server for one session: the first START opens it, the second is refused, and the session is
abandoned. -/
example :
    let config : ServerConfig := { outputDirectory := asciiBytes "out", maxSessions := 1 }
    let opening (sessionId : BitVec 64) : ServerEvent :=
      .datagram ⟨asciiBytes "10.0.0.1", 5000⟩
        (serialize { packetType := .start, sessionId := sessionId } (asciiBytes "f")) 0 0 {}
    let l := (Ledger.init .empty).run config [opening 7, opening 8]
    l.closed = [(0, .abandoned)] ∧ l.busy = 1 := by
  decide +kernel

end SwiftLink
