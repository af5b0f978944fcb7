import SwiftLink.Server.Accounting
import SwiftLink.Server.Footprint
import SwiftLink.Server.Lifetime

/-!
# The event loop

`run` of `server/epoll_server.cpp` as a process: the setup, the loop round `epoll_wait`, the drain
of the socket, and the two ways out with the destructors that run on them.  What the kernel reports
is a parameter throughout: which descriptors are ready and in what order, what each `recv_from`
returns, and every failure.

* `loop_eq` — the loop hands the server exactly the datagrams and the ticks it is given, in order,
  up to the end of the batch with the signal.
* **`server_process`** — so whatever is proved of `Server.run` holds of the process: what it leaves
  in the directory on either way out, and what the numbers it prints at shutdown stand for.
-/

namespace SwiftLink

namespace EventLoop

/-! ## The implementation -/

/-- The size of the buffer; a longer datagram is cut to it. -/
def kReceiveBufferSize : ℕ := kHeaderWireSize + kMaxPayloadSize

/-- What one `recv_from` reports. -/
inductive Received
  | datagram (peer : Endpoint) (bytes : Bytes) (now later : TimePoint) (io : IoEnv)
  | interrupted
  | wouldBlock
  | failed

/-- One ready descriptor, with what is read from it. -/
inductive Ready
  | signal
  | timer (now : TimePoint)
  | socket (received : List Received)
  | other

/-- What one `epoll_wait` reports. -/
inductive Waited
  | ready (events : List Ready)
  | interrupted
  | failed

/-- The calls made before the loop. -/
structure Setup where
  openOk : Bool := true
  bindOk : Bool := true
  nonblockingOk : Bool := true
  epollFdOk : Bool := true
  signalFdOk : Bool := true
  timerFdOk : Bool := true
  addOk : Bool := true

def Setup.ok (setup : Setup) : Bool :=
  setup.openOk && setup.bindOk && setup.nonblockingOk &&
    (setup.epollFdOk && setup.signalFdOk && setup.timerFdOk) && setup.addOk

/-- The line printed at shutdown. -/
structure Summary where
  completed : ℕ
  failed : ℕ
  expired : ℕ
  abandoned : ℕ
  refused : ℕ
  deriving Repr, DecidableEq

/-- What the process leaves: its exit code, the line it has printed, and the directory. -/
structure Exit where
  code : ℕ
  summary : Option Summary
  fs : FileSystem

/-- Drains the socket. -/
def drain (config : ServerConfig) (sv : Server) : List Received → Server
  | [] => sv
  | .datagram peer bytes now later io :: received =>
      drain config (sv.onDatagram config peer (bytes.take kReceiveBufferSize) now later io).1
        received
  | .interrupted :: received => drain config sv received
  | .wouldBlock :: _ => sv
  | .failed :: _ => sv

/-- One ready descriptor; the flag is `running`. -/
def handle (config : ServerConfig) (state : Server × Bool) : Ready → Server × Bool
  | .signal => (state.1, false)
  | .timer now => (state.1.sweep config now, state.2)
  | .socket received => (drain config state.1 received, state.2)
  | .other => state

/-- The way out after a signal. -/
def stop (sv : Server) : Exit where
  code := 0
  summary := some ⟨sv.completed, sv.failed, sv.expired, sv.shutdown.1, sv.refused⟩
  fs := sv.shutdown.2

/-- `while (running)`; `none` stands for a server that is still waiting. -/
def loop (config : ServerConfig) (sv : Server) : List Waited → Option Exit
  | [] => none
  | .interrupted :: waits => loop config sv waits
  | .failed :: _ => some { code := 1, summary := none, fs := sv.shutdown.2 }
  | .ready events :: waits =>
      let state := events.foldl (handle config) (sv, true)
      if state.2 then loop config state.1 waits else some (stop state.1)

def run (config : ServerConfig) (setup : Setup) (fs : FileSystem) (waits : List Waited) :
    Option Exit :=
  if setup.ok then loop config (Server.init fs) waits
  else some { code := 1, summary := none, fs := fs }

/-! ## What is served -/

/-- The datagrams of a drain. -/
def Received.events : List Received → List ServerEvent
  | [] => []
  | .datagram peer bytes now later io :: received =>
      .datagram peer (bytes.take kReceiveBufferSize) now later io :: events received
  | .interrupted :: received => events received
  | .wouldBlock :: _ => []
  | .failed :: _ => []

def Ready.events : Ready → List ServerEvent
  | .signal => []
  | .timer now => [.sweep now]
  | .socket received => Received.events received
  | .other => []

def Ready.isSignal : Ready → Bool
  | .signal => true
  | _ => false

/-- Everything the loop hands to the server. -/
def served : List Waited → List ServerEvent
  | [] => []
  | .interrupted :: waits => served waits
  | .failed :: _ => []
  | .ready events :: waits =>
      events.flatMap Ready.events ++ if events.any Ready.isSignal then [] else served waits

/-- How the loop ends: on a signal, on a failed `epoll_wait`, or not yet. -/
def ending : List Waited → Option ℕ
  | [] => none
  | .interrupted :: waits => ending waits
  | .failed :: _ => some 1
  | .ready events :: waits => if events.any Ready.isSignal then some 0 else ending waits

lemma drain_eq (config : ServerConfig) (sv : Server) (received : List Received) :
    drain config sv received = sv.run config (Received.events received) := by
  induction received generalizing sv with
  | nil => rfl
  | cons r received ih =>
      cases r with
      | datagram peer bytes now later io => exact ih _
      | interrupted => exact ih sv
      | wouldBlock => rfl
      | failed => rfl

/-- **A batch is served to its end**, whether or not there is a signal in it. -/
lemma batch_eq (config : ServerConfig) (sv : Server) (running : Bool) (events : List Ready) :
    events.foldl (handle config) (sv, running) =
      (sv.run config (events.flatMap Ready.events), running && !events.any Ready.isSignal) := by
  induction events generalizing sv running with
  | nil => simp [Server.run]
  | cons ready events ih =>
      rw [List.foldl_cons, List.flatMap_cons, Server.run_append]
      cases ready with
      | signal =>
          rw [handle, ih]
          simp [Ready.events, Ready.isSignal, Server.run]
      | timer now =>
          rw [handle, ih]
          simp [Ready.events, Ready.isSignal, Server.run, Server.next]
      | socket received =>
          rw [handle, ih, drain_eq]
          simp [Ready.events, Ready.isSignal]
      | other =>
          rw [handle, ih]
          simp [Ready.events, Ready.isSignal, Server.run]

/-- **The loop is a run of the server.** -/
lemma loop_eq (config : ServerConfig) (sv : Server) (waits : List Waited) :
    loop config sv waits = (ending waits).map fun code =>
      if code = 0 then stop (sv.run config (served waits))
      else { code := 1, summary := none, fs := (sv.run config (served waits)).shutdown.2 } := by
  induction waits generalizing sv with
  | nil => rfl
  | cons waited waits ih =>
      cases waited with
      | interrupted => exact ih sv
      | failed => rfl
      | ready events =>
          rw [loop, batch_eq, Bool.true_and]
          cases hsignal : events.any Ready.isSignal with
          | true => simp [ending, served, hsignal]
          | false => simp [ending, served, hsignal, ih, Server.run_append]

lemma ending_le {waits : List Waited} {code : ℕ} (h : ending waits = some code) :
    code = 0 ∨ code = 1 := by
  induction waits with
  | nil => simp [ending] at h
  | cons waited waits ih =>
      cases waited with
      | interrupted => exact ih h
      | failed => exact Or.inr (Option.some.inj h).symm
      | ready events =>
          rw [ending] at h
          split_ifs at h
          · exact Or.inl (Option.some.inj h).symm
          · exact ih h

end EventLoop

/-! ## What the numbers stand for -/

/-- A packet completes a session when the session publishes on it, and not otherwise. -/
lemma Server.settledAs_completed_iff {session : Session} (fs : FileSystem) (packet : Packet)
    (io : IoEnv) (hverdict : session.receiver.Verdict)
    (hlingering : session.lingering = session.receiver.finished) :
    settledAs session (World.next ⟨session.receiver, fs⟩ (.packet packet io)) = some .completed ↔
      (World.next ⟨session.receiver, fs⟩ (.packet packet io)).session.published = true ∧
        session.receiver.published = false := by
  cases hsettled : session.lingering with
  | true =>
      have hfinished : session.receiver.finished = true := hlingering ▸ hsettled
      obtain ⟨stats, heq⟩ :=
        World.next_of_finished (w := ⟨session.receiver, fs⟩) hfinished packet io
      simp [settledAs, hsettled, heq]
  | false =>
      have hpending := (hverdict.of_unfinished (hlingering ▸ hsettled)).2
      have hafter := hverdict.handles
        (ReceiverSession.handlePacket_handles session.receiver fs packet io)
      rw [settledAs, World.next, hsettled, hpending]
      cases hafter with
      | pending hf hp => simp [hf, hp]
      | failed hf hp he => simp [hf, hp, he]
      | published hf hp he => simp [hf, hp, he]

/-- **The counter of completed sessions moves when a file is published.** -/
lemma Server.next_completed {config : ServerConfig} {sv : Server}
    (h : ∀ key session, sv.sessions.find key = some session → Housed config key session)
    (e : ServerEvent) :
    (sv.next config e).completed = sv.completed + (sv.publishes config e).toList.length := by
  have hhand : ∀ (sv₀ : Server) key session packet now later io,
      (key, session) ∈ sv₀.sessions.entries → e.packetFor key = some (packet, io) →
      sv.next config e = (sv₀.dispatch key session packet now later io).1 →
      sv₀.completed = sv.completed → sv.hasPublished key = session.receiver.published →
      session.receiver.Verdict → session.lingering = session.receiver.finished →
        (sv.next config e).completed = sv.completed + (sv.publishes config e).toList.length := by
    intro sv₀ key session packet now later io hmem hown hnext hbefore hpublished hverdict hlingering
    obtain ⟨session', hfind, hd, -, -⟩ := dispatch_find hmem packet now later io
    obtain ⟨hcompleted, -⟩ := sv₀.dispatch_counters key session packet now later io
    have hsame : session'.receiver.published =
        (World.next ⟨session.receiver, sv₀.fs⟩ (.packet packet io)).session.published := by
      rw [hd.same]
    rw [publishes_eq hown (hnext ▸ hfind), hnext, hcompleted, hbefore, hpublished, hsame]
    have hiff := settledAs_completed_iff sv₀.fs packet io hverdict hlingering
    by_cases hcompletes : settledAs session
        (World.next ⟨session.receiver, sv₀.fs⟩ (.packet packet io)) = some .completed
    · obtain ⟨hafter, hnot⟩ := hiff.mp hcompletes
      simp [hcompletes, hafter, hnot]
    · have hnone := mt hiff.mpr hcompletes
      rw [if_neg hcompletes, if_neg (by simpa using hnone)]
      rfl
  cases e with
  | sweep now => rfl
  | datagram peer bytes now later io =>
      have hreacts := onDatagram_reacts config sv peer bytes now later io
      have hnext : sv.next config (.datagram peer bytes now later io) =
          (sv.onDatagram config peer bytes now later io).1 := rfl
      generalize sv.onDatagram config peer bytes now later io = result at hreacts hnext
      cases hreacts with
      | malformed reason hbad => simp [hnext, publishes, hbad]
      | unknown packet hpacket habsent => simp [hnext, publishes, hpacket, habsent]
      | refused packet hpacket habsent => simp [hnext, publishes, hpacket, habsent]
      | known packet hpacket session hpresent =>
          have hhoused := h _ _ hpresent
          exact hhand sv _ _ packet now later io (Table.find_eq_some_iff.mp hpresent)
            (ServerEvent.packetFor_own hpacket rfl) hnext rfl
            (by simp [hasPublished, hpresent]) hhoused.verdict hhoused.lingering_eq
      | opened packet hpacket habsent =>
          have habsent' := makeRoom_find_none config habsent
          exact hhand _ _ _ packet now later io
            (Table.mem_emplace_self SessionKey.lt habsent' (Session.init config peer now))
            (ServerEvent.packetFor_own hpacket rfl) hnext (makeRoom_counters config sv).1
            (by simp [hasPublished, habsent, Session.init, ReceiverSession.init])
            (ReceiverSession.init_verdict _ _) rfl

lemma Server.run_completed (config : ServerConfig) (fs : FileSystem) (events : List ServerEvent) :
    ((init fs).run config events).completed =
      ((init fs).publications config events).length := by
  induction events using List.reverseRecOn with
  | nil => rfl
  | append_singleton events e ih =>
      rw [run_concat, publications_concat, List.length_append, ← ih]
      exact next_completed (run_housed config fs events) e

namespace EventLoop

/-- **When `run` returns, and with what**: 1 at once after a failed setup, and otherwise 0 after the
batch with the signal or 1 after a failed `epoll_wait`, whichever comes first. -/
lemma run_code (config : ServerConfig) (setup : Setup) (fs : FileSystem) (waits : List Waited) :
    (run config setup fs waits).map Exit.code = if setup.ok then ending waits else some 1 := by
  rw [run]
  split_ifs
  · rw [loop_eq, Option.map_map]
    cases hending : ending waits with
    | none => rfl
    | some code =>
        rcases ending_le hending with rfl | rfl
        · rfl
        · rfl
  · rfl

/-- What the process leaves is what the server does at shutdown, after what it was handed; a failed
setup leaves what a server with no events leaves. -/
lemma run_leaves {config : ServerConfig} {setup : Setup} {fs : FileSystem} {waits : List Waited}
    {exit : Exit} (h : run config setup fs waits = some exit) :
    let sv := (Server.init fs).run config (if setup.ok then served waits else [])
    exit.fs = sv.shutdown.2 ∧ (exit.code = 0 → exit = stop sv) := by
  rw [run] at h
  split_ifs at h ⊢
  · rw [loop_eq] at h
    obtain ⟨code, hending, rfl⟩ := Option.map_eq_some_iff.mp h
    split_ifs
    · exact ⟨rfl, fun _ => rfl⟩
    · exact ⟨rfl, by simp⟩
  · obtain rfl := Option.some.inj h
    exact ⟨rfl, by simp⟩

end EventLoop

open EventLoop in
/-- **The server process.**  Whatever the kernel reports, `unlink` apart: `run` returns 0 exactly
when a batch with a signal comes before a failed `epoll_wait`, 1 exactly when it is the other way
round or the setup fails, and otherwise it is still waiting.  When it has returned, every name in
the directory was there at the start or has had a file published under it, and a path no START has
asked for leads where it led.  After a signal the line says how many sessions have published; the
abandoned ones are those in the table that have not settled. -/
theorem server_process (config : ServerConfig) (setup : Setup) (fs : FileSystem)
    (waits : List Waited) :
    let events := if setup.ok then served waits else []
    let sv := (Server.init fs).run config events
    let published := (Server.init fs).publications config events
    (EventLoop.run config setup fs waits).map Exit.code =
        (if setup.ok then ending waits else some 1) ∧
      ∀ exit, EventLoop.run config setup fs waits = some exit →
        (∀ path, (exit.fs.names path).isSome = true →
          (fs.names path).isSome = true ∨ path ∈ published) ∧
        (∀ path, path ≠ [] → (∀ e ∈ events, e.asks config.outputDirectory path = false) →
          Untouched path fs exit.fs) ∧
        (exit.code = 0 → exit.summary = some ⟨published.length, sv.failed, sv.expired,
          (sv.sessions.entries.filter fun e => !e.2.receiver.finished).length, sv.refused⟩) := by
  intro events sv published
  refine ⟨run_code config setup fs waits, fun exit hrun => ?_⟩
  obtain ⟨hfs, hstop⟩ := run_leaves hrun
  refine ⟨fun path hpath => ?_, fun path hpath hasks => ?_, fun hzero => ?_⟩
  · rw [hfs] at hpath
    exact Tidy.shutdown config fs events hpath
  · rw [hfs]
    have hapart := OutOfReach.run config fs hpath hasks
    exact hapart.untouched.trans
      (Server.destroyAll_untouched config.outputDirectory hapart.strangers)
  · have hactive : sv.active =
        (sv.sessions.entries.filter fun e => !e.2.receiver.finished).length := by
      refine congrArg List.length (List.filter_congr fun e he => ?_)
      rw [(Server.run_housed config fs events e.1 e.2
        (Table.find_eq_some_iff.mpr he)).lingering_eq]
    rw [hstop hzero]
    simp only [stop, Server.shutdown, published, ← Server.run_completed]
    rw [← hactive]

/-- A client opens a session, and then the process is told to stop. -/
def sampleStopped : List EventLoop.Waited :=
  [.ready [.socket [.datagram sampleKey.peer
      (serialize { packetType := .start, sessionId := 7, byteOffset := 1 } (asciiBytes "f")) 0 0 {},
      .wouldBlock]],
    .interrupted, .ready [.signal, .timer 5]]

/-- The session is reported as abandoned and leaves nothing. -/
theorem server_process_stopped :
    ∃ exit, EventLoop.run sampleConfig {} .empty sampleStopped = some exit ∧ exit.code = 0 ∧
      exit.summary = some ⟨0, 0, 0, 1, 0⟩ ∧ ∀ path, exit.fs.names path = none := by
  have hreturns : ((EventLoop.run sampleConfig {} .empty sampleStopped).map EventLoop.Exit.code)
      = some 0 := by
    decide +kernel
  obtain ⟨exit, hrun, hcode⟩ := Option.map_eq_some_iff.mp hreturns
  obtain ⟨hnames, -, hsummary⟩ :=
    (server_process sampleConfig {} .empty sampleStopped).2 exit hrun
  have hpublished : (Server.init .empty).publications sampleConfig (EventLoop.served sampleStopped)
      = [] := by
    decide +kernel
  refine ⟨exit, hrun, hcode, ?_, fun path => ?_⟩
  · rw [hsummary hcode]
    decide +kernel
  · by_contra hlinked
    rcases hnames path (Option.isSome_iff_ne_none.mpr hlinked) with hold | hnew
    · simp [FileSystem.empty] at hold
    · rw [if_pos (by decide), hpublished] at hnew
      simp at hnew

end SwiftLink
