import SwiftLink.Protocol.ErrorDetection
import SwiftLink.System.OneJob
import SwiftLink.Tools.ProxyOrder

/-!
# A transfer through the impairment proxy

`System` assumes a network that loses, delays, repeats and reorders.  The project's own tests do not
run over such a network: they run through `tools/delay_proxy.cpp`, which in addition inverts bits.
Here the two parties talk through the proxy and through nothing else, and the network of `System`
is shown to cover everything it does.

* Whatever the proxy sends on is a datagram its side was given, or one bit apart from one
  (`Carried`).  One bit apart from a serialised packet nothing decodes (`OneBitApart.undecodable`).
* A datagram that does not decode changes nothing at the receiver, and nothing but the books at the
  sender (`Sender.step_unparsed`), which no step ever looks at (`Sender.step_alike`).

So every run through the proxy is a run of `System` in which some receives were interrupted.
-/

namespace SwiftLink

/-! ## The sender and its books -/

namespace Sender

variable {Q : TimerQueue}

/-- Two senders that differ in their books only. -/
structure Alike (s t : Sender Q) : Prop where
  phase : s.phase = t.phase
  window : s.window = t.window
  inFlight : s.inFlight = t.inFlight

lemma Alike.trans {s t u : Sender Q} (h : s.Alike t) (h' : t.Alike u) : s.Alike u :=
  ⟨h.phase.trans h'.phase, h.window.trans h'.window, h.inFlight.trans h'.inFlight⟩

/-- Two outcomes of a step that differ in the books only. -/
structure AlikeSteps (x y : Sender Q × Option Bytes) : Prop where
  sender : x.1.Alike y.1
  out : x.2 = y.2

lemma sendPacket_alike (env : SenderEnv) (wire : Bytes) (stats stats' : TransferStats) :
    (sendPacket env wire stats).ok = (sendPacket env wire stats').ok ∧
      (sendPacket env wire stats).datagram = (sendPacket env wire stats').datagram := by
  unfold sendPacket
  cases env.drop <;> exact ⟨rfl, rfl⟩

lemma AlikeSteps.sent {a a' b b' : Sender Q} (env : SenderEnv) (wire : Bytes)
    (stats stats' : TransferStats) (hsent : a.Alike a') (hfailed : b.Alike b') :
    AlikeSteps
      (if (sendPacket env wire stats).ok then (a, (sendPacket env wire stats).datagram)
        else (b, none))
      (if (sendPacket env wire stats').ok then (a', (sendPacket env wire stats').datagram)
        else (b', none)) := by
  obtain ⟨hok, hout⟩ := sendPacket_alike env wire stats stats'
  rw [hok, hout]
  split
  · exact ⟨hsent, rfl⟩
  · exact ⟨hfailed, rfl⟩

/-- **A step does not look at the books.** -/
lemma step_alike {s t : Sender Q} (h : s.Alike t) (job : Job) (env : SenderEnv) :
    AlikeSteps (s.step job env) (t.step job env) := by
  obtain ⟨phase, window, inFlight, stats⟩ := s
  obtain ⟨phase', window', inFlight', stats'⟩ := t
  obtain ⟨rfl, rfl, rfl⟩ := h
  cases phase with
  | control which attempt =>
      simp only [step, stepControl]
      split
      · exact .sent env _ _ _ ⟨rfl, rfl, rfl⟩ ⟨rfl, rfl, rfl⟩
      · exact ⟨⟨rfl, rfl, rfl⟩, rfl⟩
  | awaitReply which attempt deadline =>
      refine ⟨?_, rfl⟩
      simp only [step, stepAwaitReply]
      split
      · exact ⟨rfl, rfl, rfl⟩
      split
      · exact ⟨rfl, rfl, rfl⟩
      cases env.recv with
      | wouldBlock => exact ⟨rfl, rfl, rfl⟩
      | interrupted => exact ⟨rfl, rfl, rfl⟩
      | failed => exact ⟨rfl, rfl, rfl⟩
      | datagram bytes =>
          dsimp only
          cases deserialize bytes with
          | error error => exact ⟨rfl, rfl, rfl⟩
          | ok packet =>
              dsimp only [onControlReply]
              split
              · cases packet.payload.head?.bind StatusCode.ofByte? <;> exact ⟨rfl, rfl, rfl⟩
              split
              · exact ⟨rfl, rfl, rfl⟩
              split
              · cases which <;> exact ⟨rfl, rfl, rfl⟩
              · exact ⟨rfl, rfl, rfl⟩
  | loop =>
      simp only [step, stepLoop]
      split <;> exact ⟨⟨rfl, rfl, rfl⟩, rfl⟩
  | fill =>
      simp only [step, stepFill]
      split
      · cases readAt env.read job.data (job.chunkWant window.nextSequence)
            (job.chunkOffset window.nextSequence) with
        | none => exact ⟨⟨rfl, rfl, rfl⟩, rfl⟩
        | some chunk =>
            dsimp only
            split
            · exact ⟨⟨rfl, rfl, rfl⟩, rfl⟩
            · exact .sent env _ _ _ ⟨rfl, rfl, rfl⟩ ⟨rfl, rfl, rfl⟩
      · exact ⟨⟨rfl, rfl, rfl⟩, rfl⟩
  | sleep =>
      refine ⟨?_, rfl⟩
      simp only [step, stepSleep]
      cases window.earliestDeadline.2 with
      | none => exact ⟨rfl, rfl, rfl⟩
      | some deadline =>
          dsimp only
          split
          · exact ⟨rfl, rfl, rfl⟩
          cases env.recv with
          | wouldBlock => exact ⟨rfl, rfl, rfl⟩
          | interrupted => exact ⟨rfl, rfl, rfl⟩
          | failed => exact ⟨rfl, rfl, rfl⟩
          | datagram bytes =>
              simp only [onDatagram, reduceCtorEq, if_false]
              cases deserialize bytes with
              | error error => exact ⟨rfl, rfl, rfl⟩
              | ok packet =>
                  dsimp only
                  split
                  · split <;> exact ⟨rfl, rfl, rfl⟩
                  · exact ⟨rfl, rfl, rfl⟩
  | resend expired =>
      cases expired with
      | nil => exact ⟨⟨rfl, rfl, rfl⟩, rfl⟩
      | cons sequence rest =>
          simp only [step, stepResend]
          split
          · exact ⟨⟨rfl, rfl, rfl⟩, rfl⟩
          · exact .sent env _ _ _ ⟨rfl, rfl, rfl⟩ ⟨rfl, rfl, rfl⟩
  | done error => exact ⟨⟨rfl, rfl, rfl⟩, rfl⟩

/-- **A datagram that does not parse** is as good as an interrupted call, but for the books. -/
lemma step_unparsed (s : Sender Q) (job : Job) {env : SenderEnv} {bytes : Bytes}
    (hrecv : env.recv = .datagram bytes) {error : DecodeError}
    (h : deserialize bytes = .error error) :
    AlikeSteps (s.step job env) (s.step job { env with recv := .interrupted }) := by
  obtain ⟨phase, window, inFlight, stats⟩ := s
  cases phase with
  | control which attempt => exact ⟨⟨rfl, rfl, rfl⟩, rfl⟩
  | awaitReply which attempt deadline =>
      refine ⟨?_, rfl⟩
      simp only [step, stepAwaitReply, hrecv, h]
      split
      · exact ⟨rfl, rfl, rfl⟩
      · split <;> exact ⟨rfl, rfl, rfl⟩
  | loop => exact ⟨⟨rfl, rfl, rfl⟩, rfl⟩
  | fill => exact ⟨⟨rfl, rfl, rfl⟩, rfl⟩
  | sleep =>
      refine ⟨?_, rfl⟩
      simp only [step, stepSleep, hrecv, onDatagram, h, reduceCtorEq, if_false]
      cases window.earliestDeadline.2 with
      | none => exact ⟨rfl, rfl, rfl⟩
      | some deadline =>
          dsimp only
          split <;> exact ⟨rfl, rfl, rfl⟩
  | resend expired => cases expired <;> exact ⟨⟨rfl, rfl, rfl⟩, rfl⟩
  | done error => exact ⟨⟨rfl, rfl, rfl⟩, rfl⟩

end Sender

/-! ## What the proxy makes of a datagram -/

/-- One bit apart is one flip away. -/
lemma OneBitApart.eq_flipBit {sent received : Bytes} (h : OneBitApart sent received) :
    ∃ i < 8 * sent.length, received = BitString.flipBit sent i := by
  obtain ⟨hlength, i, ⟨hi, hbit⟩, honly⟩ := h
  refine ⟨i, hi, BitString.ext_bitAt (by rw [BitString.flipBit_length, hlength]) fun j hj => ?_⟩
  rw [BitString.bitAt_flipBit hi]
  by_cases hji : j = i
  · subst hji
    cases hsent : BitString.bitAt sent j <;> cases hgot : BitString.bitAt received j <;>
      simp [hsent, hgot] at hbit ⊢
  · rw [decide_eq_false hji, Bool.xor_false]
    by_contra hdiffer
    exact hji (honly j ⟨by rw [hlength]; exact hj, Ne.symm hdiffer⟩)

/-- **One bit apart from a packet nothing decodes.** -/
lemma OneBitApart.undecodable {header : PacketHeader} {payload got : Bytes}
    (h : OneBitApart (serialize header payload) got) {packet : Packet} :
    deserialize got ≠ .ok packet := by
  intro hgot
  have hdecoded := deserialize_decodes hgot
  have hlength := h.1
  by_cases hpayload : payload.length ≤ kMaxPayloadSize
  · have hne := h.ne
    obtain ⟨i, hi, rfl⟩ := h.eq_flipBit
    exact (SmallCorruption.flipBit hi).mismatch hlength.symm hne (serialize_checksum hpayload)
      hdecoded.checksum
  · -- nothing was serialised, and the decoder wants a header
    have hempty : serialize header payload = [] := by
      rw [serialize, if_pos (not_le.mp hpayload)]
    have hsize := hdecoded.size_le
    rw [← hlength, hempty, kHeaderWireSize] at hsize
    simp at hsize

/-- A datagram is in the log, or one bit apart from one that is. -/
def Passed (log : List Bytes) (bytes : Bytes) : Prop :=
  ∃ sent ∈ log, bytes = sent ∨ OneBitApart sent bytes

lemma Passed.mono {log log' : List Bytes} {bytes : Bytes} (h : Passed log bytes)
    (hmore : ∀ sent ∈ log, sent ∈ log') : Passed log' bytes := by
  obtain ⟨sent, hsent, hbytes⟩ := h
  exact ⟨sent, hmore sent hsent, hbytes⟩

/-- **What decodes was sent.** -/
lemma Passed.mem_of_ok {log : List Bytes} {bytes : Bytes} (h : Passed log bytes)
    (hlog : ∀ sent ∈ log, ∃ header payload, sent = serialize header payload) {packet : Packet}
    (hok : deserialize bytes = .ok packet) : bytes ∈ log := by
  obtain ⟨sent, hsent, rfl | hapart⟩ := h
  · exact hsent
  · obtain ⟨header, payload, rfl⟩ := hlog sent hsent
    exact absurd hok hapart.undecodable

/-! ## The parties and the proxy -/

/-- The two parties, and the proxy between them. -/
structure Relayed (Q : TimerQueue) (P : ProxyQueue) where
  parties : System Q
  relay : ProxyRun P

inductive RelayEvent
  | party (e : NetEvent)
  | relay (e : ProxyEvent)

/-- The event's system calls satisfy `C`. -/
def RelayEvent.Calls (C : IoEnv → Prop) : RelayEvent → Prop
  | .party e => e.Calls C
  | .relay _ => True

/-- What a party has handed to its socket. -/
def System.outgoing {Q : TimerQueue} (sys : System Q) : Way → List Bytes
  | .toServer => sys.toReceiver
  | .toClient => sys.toSender

namespace Relayed

variable {Q : TimerQueue} {P : ProxyQueue}

def init (Q : TimerQueue) (P : ProxyQueue) (job : Job) (windowCapacity : BitVec 32)
    (outputDirectory : Path) (fs : FileSystem) (started : ℤ) : Relayed Q P where
  parties := System.init Q job windowCapacity outputDirectory fs
  relay := { proxy := Proxy.init P started }

def next (job : Job) (config : ProxyConfig) (r : Relayed Q P) : RelayEvent → Relayed Q P
  | .party e => { r with parties := r.parties.next job e }
  | .relay e => { r with relay := r.relay.next config e }

/-- What may happen: a party receives only what the proxy has sent it, and the proxy only what a
party has sent. -/
def Enabled (r : Relayed Q P) : RelayEvent → Prop
  | .party (.sender env) =>
      match env.recv with
      | .datagram bytes => bytes ∈ r.relay.sent .toClient
      | _ => True
  | .party (.deliver bytes _) => bytes ∈ r.relay.sent .toServer
  | .party .closeFile => r.parties.receiver.session.finished = true
  | .relay e => ∀ a ∈ e.arrivals, a.2.bytes ∈ r.parties.outgoing a.1

instance (r : Relayed Q P) (e : RelayEvent) : Decidable (r.Enabled e) :=
  match e with
  | .party (.sender env) =>
      match h : env.recv with
      | .datagram bytes =>
          decidable_of_iff ((r.relay.sent .toClient).contains bytes) (by simp [Enabled, h])
      | .wouldBlock => isTrue (by simp [Enabled, h])
      | .interrupted => isTrue (by simp [Enabled, h])
      | .failed => isTrue (by simp [Enabled, h])
  | .party (.deliver bytes _) =>
      decidable_of_iff ((r.relay.sent .toServer).contains bytes) (by simp [Enabled])
  | .party .closeFile => instDecidableEqBool _ _
  | .relay e =>
      decidable_of_iff (e.arrivals.all fun a => (r.parties.outgoing a.1).contains a.2.bytes)
        (by simp [Enabled])

def run (job : Job) (config : ProxyConfig) (r : Relayed Q P) (events : List RelayEvent) :
    Relayed Q P :=
  events.foldl (next job config) r

lemma run_concat (job : Job) (config : ProxyConfig) (r : Relayed Q P) (events : List RelayEvent)
    (e : RelayEvent) :
    r.run job config (events ++ [e]) = (r.run job config events).next job config e := by
  simp [run]

/-- Each event of the list may happen when its turn comes. -/
def Runs (job : Job) (config : ProxyConfig) (r : Relayed Q P) : List RelayEvent → Prop
  | [] => True
  | e :: events => r.Enabled e ∧ (r.next job config e).Runs job config events

instance instDecidableRuns (job : Job) (config : ProxyConfig) (r : Relayed Q P)
    (events : List RelayEvent) : Decidable (r.Runs job config events) :=
  match events with
  | [] => isTrue trivial
  | e :: events =>
      have : Decidable ((r.next job config e).Runs job config events) :=
        instDecidableRuns job config _ events
      inferInstanceAs (Decidable (_ ∧ _))

lemma runs_concat {job : Job} {config : ProxyConfig} {r : Relayed Q P} {events : List RelayEvent}
    {e : RelayEvent} : r.Runs job config (events ++ [e]) ↔
      r.Runs job config events ∧ (r.run job config events).Enabled e := by
  induction events generalizing r with
  | nil => simp [Runs, run]
  | cons first events ih => simp only [List.cons_append, Runs, ih, and_assoc]; rfl

end Relayed

/-! ## The proxy forges nothing -/

/-- **What the proxy holds and what it has sent on** came from its side, whole or with one bit
inverted. -/
structure Carried {P : ProxyQueue} (outgoing : Way → List Bytes) (relay : ProxyRun P) : Prop where
  queued : ∀ item ∈ P.contents relay.proxy.queue, Passed (outgoing item.way) item.bytes
  forwarded : ∀ f ∈ relay.forwarded, Passed (outgoing f.way) f.bytes

namespace Carried

variable {P : ProxyQueue} {outgoing outgoing' : Way → List Bytes} {relay : ProxyRun P}

lemma init (P : ProxyQueue) (outgoing : Way → List Bytes) (started : ℤ) :
    Carried outgoing ({ proxy := Proxy.init P started } : ProxyRun P) := by
  refine ⟨fun item hitem => ?_, fun f hf => by simp at hf⟩
  rw [Proxy.init, P.contents_empty] at hitem
  simp at hitem

lemma mono (h : Carried outgoing relay)
    (hmore : ∀ way, ∀ bytes ∈ outgoing way, bytes ∈ outgoing' way) : Carried outgoing' relay :=
  ⟨fun item hitem => (h.queued item hitem).mono (hmore _),
    fun f hf => (h.forwarded f hf).mono (hmore _)⟩

lemma flags (h : Carried outgoing relay) (known running : Bool) :
    Carried outgoing (relay.flags known running) := ⟨h.queued, h.forwarded⟩

/-- What is queued for an arrival came with it. -/
lemma passed_of_sound {p : Passage} (h : p.Sound) {log : List Bytes} (hp : p.arrival.bytes ∈ log)
    {item : Pending} (hitem : item ∈ p.queued) : Passed log item.bytes := by
  cases h with
  | dropped way a => simp at hitem
  | queued way a release order bytes duplicated hbytes =>
      refine ⟨a.bytes, hp, ?_⟩
      cases duplicated <;> simp at hitem <;> rcases hitem with rfl | rfl <;> exact hbytes

lemma accept (h : Carried outgoing relay) (config : ProxyConfig) {way : Way} {a : ProxyArrival}
    (ha : a.bytes ∈ outgoing way) : Carried outgoing (relay.accept config way a) := by
  have hsound := accept_sound config way a relay.proxy
  refine ⟨fun item hitem => ?_, h.forwarded⟩
  have hcontents : P.contents (relay.accept config way a).proxy.queue =
      P.contents relay.proxy.queue +
        ((relay.proxy.accept config way a).2.queued : Multiset Pending) :=
    P.contents_foldl_push _ _
  rw [hcontents, Multiset.mem_add] at hitem
  rcases hitem with hold | hnew
  · exact h.queued item hold
  · have hnew := Multiset.mem_coe.mp hnew
    have hway : item.way = way := hsound.way_of_mem hnew
    rw [hway]
    exact passed_of_sound hsound ha hnew

lemma releaseItem (h : Carried outgoing relay) {item : Pending}
    (htop : P.top relay.proxy.queue = some item) : Carried outgoing (relay.releaseItem item) := by
  refine ⟨fun other hother => ?_, fun f hf => ?_⟩
  · rw [ProxyRun.queue_releaseItem] at hother
    exact h.queued other (Multiset.mem_of_le (P.contents_pop_le htop) hother)
  · have hf : f ∈ relay.forwarded ++ (relay.proxy.releaseItem item).2 := hf
    rcases List.mem_append.mp hf with hold | hnew
    · exact h.forwarded f hold
    · rw [Proxy.releaseItem] at hnew
      split at hnew
      · obtain rfl := List.mem_singleton.mp hnew
        exact h.queued item (P.top_mem htop)
      · simp at hnew

lemma release (h : Carried outgoing relay) (now : ℤ) : Carried outgoing (relay.release now) :=
  ProxyRun.release_invariant (fun _ _ htop hr => hr.releaseItem htop) now relay h

/-- **One turn of the proxy's loop.** -/
lemma next (h : Carried outgoing relay) (config : ProxyConfig) {e : ProxyEvent}
    (hin : ∀ a ∈ e.arrivals, a.2.bytes ∈ outgoing a.1) :
    Carried outgoing (relay.next config e) := by
  have hnext := ProxyRun.next_next config relay e
  generalize relay.next config e = relay' at hnext ⊢
  cases hnext with
  | idle event running => exact h.flags _ _
  | @ready front back now idle known running r₁ r₂ hfront hback hknown =>
      have h₁ : Carried outgoing r₁ := by
        cases front with
        | none =>
            obtain rfl := hfront
            exact h
        | some a =>
            obtain rfl := hfront
            exact (h.flags _ _).accept config (hin (.toServer, a) (by simp [ProxyEvent.arrivals]))
      have h₂ : Carried outgoing r₂ := by
        cases back with
        | none =>
            obtain rfl := hback
            exact h₁
        | some a =>
            obtain rfl := hback
            exact h₁.accept config (hin (.toClient, a) (by simp [ProxyEvent.arrivals]))
      exact (h₂.release now).flags _ _

/-- **What a party receives and can decode, the other has sent.** -/
lemma mem_of_ok (h : Carried outgoing relay) {way : Way}
    (hlog : ∀ sent ∈ outgoing way, ∃ header payload, sent = serialize header payload)
    {bytes : Bytes} (hbytes : bytes ∈ relay.sent way) {packet : Packet}
    (hok : deserialize bytes = .ok packet) : bytes ∈ outgoing way := by
  obtain ⟨f, hsent, rfl⟩ := List.mem_map.mp hbytes
  obtain ⟨hf, hway⟩ := List.mem_filter.mp hsent
  obtain rfl : f.way = way := by simpa using hway
  exact (h.forwarded f hf).mem_of_ok hlog hok

end Carried

/-! ## The proxy is a network -/

/-- The run of the two parties through the proxy, beside a run of `System`. -/
structure Shadows {Q : TimerQueue} {P : ProxyQueue} (job : Job) (r : Relayed Q P)
    (sys : System Q) : Prop where
  sender : r.parties.sender.Alike sys.sender
  receiver : r.parties.receiver = sys.receiver
  toReceiver : r.parties.toReceiver = sys.toReceiver
  toSender : r.parties.toSender = sys.toSender
  inv : sys.sender.Inv job
  written : ∀ way, ∀ bytes ∈ sys.outgoing way, ∃ header payload, bytes = serialize header payload
  carried : Carried sys.outgoing r.relay

namespace Shadows

variable {Q : TimerQueue} {P : ProxyQueue} {job : Job} {config : ProxyConfig} {r : Relayed Q P}
  {sys : System Q}

lemma init (job : Job) (windowCapacity : BitVec 32) (outputDirectory : Path) (fs : FileSystem)
    (started : ℤ) :
    Shadows job (Relayed.init Q P job windowCapacity outputDirectory fs started)
      (System.init Q job windowCapacity outputDirectory fs) where
  sender := ⟨rfl, rfl, rfl⟩
  receiver := rfl
  toReceiver := rfl
  toSender := rfl
  inv := Sender.init_inv Q job
  written way bytes hbytes := by cases way <;> simp [System.outgoing, System.init] at hbytes
  carried := Carried.init P _ started

lemma outgoing_eq (h : Shadows job r sys) (way : Way) :
    r.parties.outgoing way = sys.outgoing way := by
  cases way
  · exact h.toReceiver
  · exact h.toSender

/-- **A step of the sender**, matched by the step `env'` of the network's sender. -/
lemma sender_step (h : Shadows job r sys) {env env' : SenderEnv}
    (halike : Sender.AlikeSteps (r.parties.sender.step job env) (sys.sender.step job env')) :
    Shadows job { r with parties := r.parties.next job (.sender env) }
      (sys.next job (.sender env')) := by
  have hsteps : Sender.Steps job sys.sender env' (sys.sender.step job env').1
      (sys.sender.step job env').2 := Sender.step_steps h.inv
  have hemitted : ∀ bytes ∈ (sys.sender.step job env').2.toList,
      ∃ header payload, bytes = serialize header payload := by
    intro bytes hbytes
    cases hsteps.emits bytes (by simpa using hbytes) with
    | start => exact ⟨_, _, rfl⟩
    | data t => exact ⟨_, _, rfl⟩
    | fin => exact ⟨_, _, rfl⟩
  refine ⟨halike.sender, h.receiver, ?_, h.toSender, hsteps.inv, fun way bytes hbytes => ?_,
    h.carried.mono fun way bytes hbytes => ?_⟩
  · show r.parties.toReceiver ++ _ = sys.toReceiver ++ _
    rw [h.toReceiver, halike.out]
  · cases way with
    | toServer =>
        rcases List.mem_append.mp hbytes with hold | hnew
        · exact h.written .toServer bytes hold
        · exact hemitted bytes hnew
    | toClient => exact h.written .toClient bytes hbytes
  · cases way with
    | toServer => exact List.mem_append_left _ hbytes
    | toClient => exact hbytes

/-- **A delivery**: of nothing, if the datagram does not decode. -/
lemma deliver_step (h : Shadows job r sys) {bytes : Bytes} (io : IoEnv)
    (hbytes : bytes ∈ r.relay.sent .toServer) :
    Shadows job { r with parties := r.parties.next job (.deliver bytes io) } sys ∨
      sys.Enabled (.deliver bytes io) ∧
        Shadows job { r with parties := r.parties.next job (.deliver bytes io) }
          (sys.next job (.deliver bytes io)) := by
  cases hpacket : deserialize bytes with
  | error error =>
      left
      have hsame : r.parties.next job (.deliver bytes io) = r.parties := by
        simp [System.next, World.receive, hpacket]
      rw [hsame]
      exact h
  | ok packet =>
      right
      refine ⟨h.carried.mem_of_ok (h.written .toServer) hbytes hpacket, ?_⟩
      have hanswered : ∀ answer ∈ (sys.receiver.receive bytes io).2.toList,
          ∃ header payload, answer = serialize header payload := by
        intro answer hanswer
        simp only [World.receive, hpacket, World.answer] at hanswer
        split at hanswer
        · obtain rfl := List.mem_singleton.mp hanswer
          exact ⟨_, _, rfl⟩
        · simp at hanswer
      refine ⟨h.sender, ?_, h.toReceiver, ?_, h.inv, fun way answer hanswer => ?_,
        h.carried.mono fun way answer hanswer => ?_⟩
      · show (r.parties.receiver.receive bytes io).1 = (sys.receiver.receive bytes io).1
        rw [h.receiver]
      · show r.parties.toSender ++ (r.parties.receiver.receive bytes io).2.toList =
          sys.toSender ++ (sys.receiver.receive bytes io).2.toList
        rw [h.receiver, h.toSender]
      · cases way with
        | toServer => exact h.written .toServer answer hanswer
        | toClient =>
            rcases List.mem_append.mp hanswer with hold | hnew
            · exact h.written .toClient answer hold
            · exact hanswered answer hnew
      · cases way with
        | toServer => exact hanswer
        | toClient => exact List.mem_append_left _ hanswer

/-- **Every event is matched**, by an event of the network or by none. -/
lemma next (h : Shadows job r sys) {e : RelayEvent} (henabled : r.Enabled e) :
    Shadows job (r.next job config e) sys ∨
      ∃ e', sys.Enabled e' ∧ (∀ C, e.Calls C → e'.Calls C) ∧
        Shadows job (r.next job config e) (sys.next job e') := by
  cases e with
  | relay e =>
      left
      refine ⟨h.sender, h.receiver, h.toReceiver, h.toSender, h.inv, h.written, ?_⟩
      exact h.carried.next config fun a ha => h.outgoing_eq a.1 ▸ henabled a ha
  | party e =>
      cases e with
      | deliver bytes io =>
          rcases h.deliver_step io henabled with hsame | ⟨hmatched, hnext⟩
          · exact .inl hsame
          · exact .inr ⟨.deliver bytes io, hmatched, fun _ => id, hnext⟩
      | closeFile =>
          refine .inr ⟨.closeFile, ?_, fun _ => id, h.sender, ?_, h.toReceiver, h.toSender, h.inv,
            h.written, h.carried⟩
          · show sys.receiver.session.finished = true
            rw [← h.receiver]
            exact henabled
          · show r.parties.receiver.next .closeFile = sys.receiver.next .closeFile
            rw [h.receiver]
      | sender env =>
          right
          have hstep := Sender.step_alike h.sender job env
          cases hrecv : env.recv with
          | datagram bytes =>
              have hbytes : bytes ∈ r.relay.sent .toClient := by
                simpa only [Relayed.Enabled, hrecv] using henabled
              cases hpacket : deserialize bytes with
              | error error =>
                  refine ⟨.sender { env with recv := .interrupted }, trivial, fun _ => id, ?_⟩
                  have hunparsed := sys.sender.step_unparsed job hrecv hpacket
                  exact h.sender_step
                    ⟨hstep.sender.trans hunparsed.sender, hstep.out.trans hunparsed.out⟩
              | ok packet =>
                  refine ⟨.sender env, ?_, fun _ => id, h.sender_step hstep⟩
                  show match env.recv with
                    | .datagram bytes => bytes ∈ sys.toSender
                    | _ => True
                  rw [hrecv]
                  exact h.carried.mem_of_ok (h.written .toClient) hbytes hpacket
          | wouldBlock =>
              exact ⟨.sender env, by simp [System.Enabled, hrecv], fun _ => id,
                h.sender_step hstep⟩
          | interrupted =>
              exact ⟨.sender env, by simp [System.Enabled, hrecv], fun _ => id,
                h.sender_step hstep⟩
          | failed =>
              exact ⟨.sender env, by simp [System.Enabled, hrecv], fun _ => id,
                h.sender_step hstep⟩

/-- **Every run through the proxy is a run over the network.** -/
lemma run {windowCapacity : BitVec 32} {outputDirectory : Path} {fs : FileSystem} {started : ℤ}
    {C : IoEnv → Prop} {events : List RelayEvent}
    (hruns : (Relayed.init Q P job windowCapacity outputDirectory fs started).Runs job config
      events)
    (hcalls : ∀ e ∈ events, e.Calls C) :
    ∃ sys, Reachable job C (System.init Q job windowCapacity outputDirectory fs) sys ∧
      Shadows job ((Relayed.init Q P job windowCapacity outputDirectory fs started).run job config
        events) sys := by
  induction events using List.reverseRecOn with
  | nil => exact ⟨_, .start, init job windowCapacity outputDirectory fs started⟩
  | append_singleton events e ih =>
      obtain ⟨hbefore, henabled⟩ := Relayed.runs_concat.mp hruns
      obtain ⟨sys, hreach, hshadows⟩ :=
        ih hbefore fun d hd => hcalls d (List.mem_append_left _ hd)
      rw [Relayed.run_concat]
      rcases hshadows.next henabled with hsame | ⟨e', hmatched, hcarry, hnext⟩
      · exact ⟨sys, hreach, hsame⟩
      · exact ⟨_, .next hreach e' hmatched (hcarry C (hcalls e (by simp))), hnext⟩

end Shadows

/-- **The impairment proxy is a network.**  Every state the two parties can reach with the proxy
between them, whatever it is asked to do to the traffic, however its generators and its clock turn
out and however its heap orders equals, is a state of the network that loses, delays, repeats and
reorders but never damages, but for the sender's counters; and what the proxy has sent on and can
still be decoded is what was handed to it. -/
theorem proxy_is_a_network (Q : TimerQueue) (P : ProxyQueue) (job : Job) (config : ProxyConfig)
    (windowCapacity : BitVec 32) (outputDirectory : Path) (fs : FileSystem) (started : ℤ)
    (C : IoEnv → Prop) (events : List RelayEvent)
    (hruns : (Relayed.init Q P job windowCapacity outputDirectory fs started).Runs job config
      events)
    (hcalls : ∀ e ∈ events, e.Calls C) :
    let r := (Relayed.init Q P job windowCapacity outputDirectory fs started).run job config events
    (∃ sys, Reachable job C (System.init Q job windowCapacity outputDirectory fs) sys ∧
      (∃ stats, r.parties = { sys with sender := { sys.sender with stats := stats } })) ∧
    ∀ way, ∀ bytes ∈ r.relay.sent way, ∀ packet, deserialize bytes = .ok packet →
      bytes ∈ r.parties.outgoing way := by
  intro r
  obtain ⟨sys, hreach, hshadows⟩ := Shadows.run hruns hcalls
  refine ⟨⟨sys, hreach, r.parties.sender.stats, ?_⟩, fun way bytes hbytes packet hpacket => ?_⟩
  · have hsame : r.parties = ⟨⟨r.parties.sender.phase, r.parties.sender.window,
        r.parties.sender.inFlight, r.parties.sender.stats⟩, r.parties.receiver,
        r.parties.toReceiver, r.parties.toSender⟩ := rfl
    rw [hsame, hshadows.sender.phase, hshadows.sender.window, hshadows.sender.inFlight,
      hshadows.receiver, hshadows.toReceiver, hshadows.toSender]
  · rw [hshadows.outgoing_eq]
    exact hshadows.carried.mem_of_ok (hshadows.written way) hbytes hpacket

lemma RelayEvent.calls_true (e : RelayEvent) : e.Calls fun _ => True := by
  rcases e with e | e
  · cases e <;> trivial
  · trivial

/-- **A transfer through the impairment proxy is safe.**  Whatever the proxy does to the traffic and
whatever becomes of the receiver's system calls, the receiver publishes the sender's file or
nothing, and it has published before the sender returns without an error. -/
theorem proxied_transfer_is_safe (Q : TimerQueue) (P : ProxyQueue) (job : Job)
    (config : ProxyConfig) (windowCapacity : BitVec 32) (outputDirectory : Path) (fs : FileSystem)
    (started : ℤ) (events : List RelayEvent) (hrange : job.InRange)
    (hruns : (Relayed.init Q P job windowCapacity outputDirectory fs started).Runs job config
      events) :
    let r := (Relayed.init Q P job windowCapacity outputDirectory fs started).run job config events
    (r.parties.sender.phase = .done .none → r.parties.receiver.session.published = true) ∧
      (r.parties.receiver.session.published = true →
        ∃ name, sanitizeFilename job.config.remoteName = (.none, name) ∧
          r.parties.receiver.session.outputPath = joinPath outputDirectory name ∧
          r.parties.receiver.fs.view (joinPath outputDirectory name) = some job.data) := by
  intro r
  obtain ⟨sys, hreach, hshadows⟩ := Shadows.run hruns fun e _ => e.calls_true
  refine ⟨fun hdone => ?_, fun hpublished => ?_⟩
  · rw [hshadows.sender.phase] at hdone
    rw [hshadows.receiver]
    exact (hreach.joint hrange).done hdone
  · rw [hshadows.receiver] at hpublished ⊢
    exact (hreach.fed hrange).2.1 hpublished

/-! ### A damaged transfer

The one-byte transfer.  The first START and the first START_ACK lose a bit, the second START goes
out twice. -/

def sampleDamage : ProxyConfig where
  impairment := { duplicate := 1 / 2, corrupt := 1 / 2 }
  delayUs := 0

lemma sampleRelay_index_lt (bytes : Bytes) : bytes ≠ [] → 0 < bytes.length :=
  List.length_pos_iff.mpr

def sampleRelay (way : Way) (bytes : Bytes) (corruptDraw duplicateDraw : ℚ) : RelayEvent :=
  let a : ProxyArrival :=
    { bytes := bytes
      corruptDraw := corruptDraw
      duplicateDraw := duplicateDraw
      bit := Fin.last 7
      index_lt := sampleRelay_index_lt bytes }
  if way = .toServer then .relay (.ready (some a) none 0 0)
  else .relay (.ready none (some a) 0 0)

def sampleDamaged : List RelayEvent :=
  let start := sampleJob.controlWire .start
  let startAck := sampleAnswer .startAck 0
  [.party (.sender {}), sampleRelay .toServer start 0 1,
    .party (.deliver (BitString.flipBit start 7) {}), .party (.sender {}), .party (.sender {}),
    sampleRelay .toServer start 1 0, .party (.deliver start {}), .party (.deliver start {}),
    sampleRelay .toClient startAck 0 1,
    .party (.sender { recv := .datagram (BitString.flipBit startAck 7) }),
    sampleRelay .toClient startAck 1 1, .party (.sender { recv := .datagram startAck }),
    .party (.sender {}), .party (.sender {}), sampleRelay .toServer (sampleJob.dataWire 0) 1 1,
    .party (.deliver (sampleJob.dataWire 0) {}), sampleRelay .toClient (sampleAnswer .ack 0) 1 1,
    .party (.sender {}), .party (.sender { recv := .datagram (sampleAnswer .ack 0) }),
    .party (.sender {}), .party (.sender {}), .party (.sender {}),
    sampleRelay .toServer (sampleJob.controlWire .fin) 1 1,
    .party (.deliver (sampleJob.controlWire .fin) {}),
    sampleRelay .toClient (sampleAnswer .finAck 1) 1 1,
    .party (.sender { recv := .datagram (sampleAnswer .finAck 1) })]

lemma sampleDamaged_runs :
    (Relayed.init sortedTimers (orderedQueue Pending.Below) sampleJob 4 [] .empty 0).Runs sampleJob
      sampleDamage sampleDamaged := by
  decide +kernel

lemma sampleDamaged_done :
    ((Relayed.init sortedTimers (orderedQueue Pending.Below) sampleJob 4 [] .empty 0).run sampleJob
      sampleDamage sampleDamaged).parties.sender.phase = .done .none := by
  decide +kernel

/-- The network has a run that ends like it. -/
theorem proxy_is_a_network_damaged :
    ∃ sys, Reachable sampleJob (fun _ => True) (System.init sortedTimers sampleJob 4 [] .empty)
      sys ∧ sys.sender.phase = .done .none := by
  obtain ⟨⟨sys, hreach, stats, hparties⟩, -⟩ := proxy_is_a_network sortedTimers
    (orderedQueue Pending.Below) sampleJob sampleDamage 4 [] .empty 0 (fun _ => True) sampleDamaged
    sampleDamaged_runs fun e _ => e.calls_true
  exact ⟨sys, hreach,
    (congrArg (fun parties => parties.sender.phase) hparties).symm.trans sampleDamaged_done⟩

/-- The file arrives whole. -/
theorem proxied_transfer_is_safe_damaged :
    ∃ name, ((Relayed.init sortedTimers (orderedQueue Pending.Below) sampleJob 4 [] .empty 0).run
      sampleJob sampleDamage sampleDamaged).parties.receiver.fs.view (joinPath [] name)
        = some (asciiBytes "x") := by
  obtain ⟨hpublished, hfile⟩ := proxied_transfer_is_safe sortedTimers (orderedQueue Pending.Below)
    sampleJob sampleDamage 4 [] .empty 0 sampleDamaged ⟨by decide, by decide⟩ sampleDamaged_runs
  obtain ⟨name, -, -, hview⟩ := hfile (hpublished sampleDamaged_done)
  exact ⟨name, hview⟩

end SwiftLink
