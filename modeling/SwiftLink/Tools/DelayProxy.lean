import SwiftLink.Library.BitString
import SwiftLink.Library.PriorityQueue
import SwiftLink.Protocol.Packet
import Mathlib.Algebra.Order.Ring.Rat
import Mathlib.Logic.Function.Basic

/-!
# The impairment proxy

`tools/delay_proxy.cpp`, the relay every reliability figure of the project is measured through.  It
takes datagrams from both sides, drops, corrupts, delays, reorders or duplicates them as asked, and
forwards what comes due.  Both directions share one heap.

One turn of its main loop is one step: at most one datagram from each socket, then everything that
is due.  `accept` is split in two, `treat` that decides what becomes of a datagram and the pushes
that follow from it.

What the world decides is in the events: the datagrams, every clock reading, and every value the
random generators return.  The probabilities are `double`s in the source and are only ever compared
with such a value, so rational numbers do; how the generators correlate their values is left open,
and the burst generator, which keeps a state of its own, is modelled.  Time is in nanoseconds.  The
addresses are left out: there is one client, and one server.
-/

namespace SwiftLink

/-! ## Configuration -/

/-- The two directions. -/
inductive Way
  | toServer
  | toClient
  deriving Repr, DecidableEq

/-- `--impair`. -/
inductive Direction
  | both
  | toServer
  | toClient
  deriving Repr, DecidableEq

/-- Whether a direction of travel is impaired. -/
def Direction.covers : Direction → Way → Bool
  | .both, _ => true
  | .toServer, way => way = .toServer
  | .toClient, way => way = .toClient

structure Impairment where
  loss : ℚ := 0
  burstLoss : ℚ := 0
  burstLength : ℚ := 4
  duplicate : ℚ := 0
  reorder : ℚ := 0
  corrupt : ℚ := 0
  deriving Repr, DecidableEq

namespace Impairment

def gilbertToGood (impairment : Impairment) : ℚ := 1 / impairment.burstLength

def gilbertToBad (impairment : Impairment) : ℚ :=
  if 1 ≤ impairment.burstLoss then 1
  else impairment.burstLoss / (1 - impairment.burstLoss) * impairment.gilbertToGood

end Impairment

structure ProxyConfig where
  impairment : Impairment := {}
  direction : Direction := .both
  delayUs : ℕ
  idleExitMs : ℕ := 15000
  deriving Repr, DecidableEq

/-- The one-way delay, on the clock's scale. -/
def ProxyConfig.delay (config : ProxyConfig) : ℤ := 1000 * config.delayUs

/-! ## Datagrams -/

/-- A datagram taken from a socket, with what `accept` reads while it deals with it: the clock up to
three times, and a value from each generator.  The byte and the bit to corrupt are drawn from the
datagram's own range. -/
structure ProxyArrival where
  bytes : Bytes
  activity : ℤ := 0
  queuedAt : ℤ := 0
  skippedAt : ℤ := 0
  lossDraw : ℚ := 0
  burstDraw : ℚ := 0
  corruptDraw : ℚ := 0
  reorderDraw : ℚ := 0
  duplicateDraw : ℚ := 0
  index : ℕ := 0
  bit : Fin 8 := 0
  index_lt : bytes ≠ [] → index < bytes.length := by decide

structure DirectionStats where
  received : ℕ := 0
  forwarded : ℕ := 0
  dropped : ℕ := 0
  burstDropped : ℕ := 0
  duplicated : ℕ := 0
  reordered : ℕ := 0
  corrupted : ℕ := 0
  deriving Repr, DecidableEq

/-- A datagram waiting for its release time.  `order` is a 64-bit counter of datagrams in the
source, which no run of the program exhausts. -/
structure Pending where
  release : ℤ
  order : ℕ
  way : Way
  bytes : Bytes
  deriving Repr, DecidableEq

/-- `operator<`: inverted, so that the earliest release is on top, and the earliest arrival among
equals. -/
def Pending.Below (p q : Pending) : Prop :=
  if p.release ≠ q.release then q.release < p.release else q.order < p.order

instance (p q : Pending) : Decidable (p.Below q) :=
  inferInstanceAs (Decidable
    (if p.release ≠ q.release then q.release < p.release else q.order < p.order))

/-! ## What becomes of a datagram -/

/-- Whether an impairment strikes: it has to be asked for, and the generator decides. -/
def strikes (impaired : Bool) (probability draw : ℚ) : Bool :=
  impaired && decide (0 < probability) && decide (draw < probability)

/-- `GilbertElliott::lost`: the state afterwards, and whether the datagram is lost. -/
def burstLost (impairment : Impairment) (bad : Bool) (draw : ℚ) : Bool × Bool :=
  if bad then (!decide (draw < impairment.gilbertToGood), true)
  else (decide (draw < impairment.gilbertToBad), false)

/-- What `accept` makes of a datagram. -/
structure Treatment where
  bad : Bool
  stats : DirectionStats
  queued : List Pending

/-- The body of `accept`, from the state of the direction's burst generator, the arrival counter and
the direction's counters. -/
def treat (config : ProxyConfig) (way : Way) (a : ProxyArrival) (bad : Bool) (counter : ℕ)
    (stats : DirectionStats) : Treatment :=
  let impairment := config.impairment
  let stats := { stats with received := stats.received + 1 }
  let impaired := config.direction.covers way
  if strikes impaired impairment.loss a.lossDraw then
    { bad := bad, stats := { stats with dropped := stats.dropped + 1 }, queued := [] }
  else
    let burst := if impaired && decide (0 < impairment.burstLoss)
      then burstLost impairment bad a.burstDraw else (bad, false)
    if burst.2 then
      { bad := burst.1
        stats := { stats with
          dropped := stats.dropped + 1
          burstDropped := stats.burstDropped + 1 }
        queued := [] }
    else
      let corrupted := strikes impaired impairment.corrupt a.corruptDraw && !a.bytes.isEmpty
      let bytes := if corrupted then a.bytes.modify a.index (· ^^^ (1#8 <<< a.bit.val)) else a.bytes
      let stats := { stats with corrupted := stats.corrupted + corrupted.toNat }
      let reordered := strikes impaired impairment.reorder a.reorderDraw
      let release := if reordered then a.skippedAt else a.queuedAt + config.delay
      let stats := { stats with reordered := stats.reordered + reordered.toNat }
      let first : Pending := ⟨release, counter, way, bytes⟩
      if strikes impaired impairment.duplicate a.duplicateDraw then
        { bad := burst.1
          stats := { stats with duplicated := stats.duplicated + 1 }
          queued := [first, ⟨release, counter + 1, way, bytes⟩] }
      else { bad := burst.1, stats := stats, queued := [first] }

/-- **Everything `treat` can do**: drop the datagram, or queue it once or twice, whole or with one
bit inverted. -/
inductive Treated (config : ProxyConfig) (way : Way) (a : ProxyArrival) (counter : ℕ)
    (stats : DirectionStats) : Treatment → Prop
  | dropped (bad burst : Bool) : Treated config way a counter stats
      { bad := bad
        stats := { stats with
          received := stats.received + 1
          dropped := stats.dropped + 1
          burstDropped := stats.burstDropped + burst.toNat }
        queued := [] }
  | queued (bad corrupted reordered duplicated : Bool) (bytes : Bytes) (release : ℤ)
      (hbytes : corrupted = false → bytes = a.bytes)
      (hcorrupted : corrupted = true → ∃ i < 8 * a.bytes.length,
        bytes = BitString.flipBit a.bytes i)
      (hrelease : reordered = false → release = a.queuedAt + config.delay)
      (hreordered : reordered = true → 0 < config.impairment.reorder) :
      Treated config way a counter stats
        { bad := bad
          stats := { stats with
            received := stats.received + 1
            duplicated := stats.duplicated + duplicated.toNat
            reordered := stats.reordered + reordered.toNat
            corrupted := stats.corrupted + corrupted.toNat }
          queued := ⟨release, counter, way, bytes⟩ ::
            if duplicated then [⟨release, counter + 1, way, bytes⟩] else [] }

/-- What is done to a corrupted datagram is one flip. -/
lemma ProxyArrival.modify_eq_flipBit (a : ProxyArrival) :
    a.bytes.modify a.index (· ^^^ (1#8 <<< a.bit.val))
      = BitString.flipBit a.bytes (8 * a.index + a.bit) := by
  have hbit := a.bit.isLt
  rw [BitString.flipBit, show (8 * a.index + a.bit) / 8 = a.index by omega,
    show (8 * a.index + a.bit) % 8 = a.bit by omega]

lemma treat_treated (config : ProxyConfig) (way : Way) (a : ProxyArrival) (bad : Bool)
    (counter : ℕ) (stats : DirectionStats) :
    Treated config way a counter stats (treat config way a bad counter stats) := by
  simp only [treat]
  generalize (if (config.direction.covers way && decide (0 < config.impairment.burstLoss)) = true
    then burstLost config.impairment bad a.burstDraw else (bad, false)) = burst
  generalize hcorrupted : (strikes (config.direction.covers way) config.impairment.corrupt
    a.corruptDraw && !a.bytes.isEmpty) = corrupted
  generalize hreordered : strikes (config.direction.covers way) config.impairment.reorder
    a.reorderDraw = reordered
  generalize hbytes : (if corrupted = true then a.bytes.modify a.index (· ^^^ (1#8 <<< a.bit.val))
    else a.bytes) = bytes
  generalize hrelease : (if reordered = true then a.skippedAt else a.queuedAt + config.delay)
    = release
  have hkept : corrupted = false → bytes = a.bytes := by
    rintro rfl
    exact hbytes.symm
  have hflip : corrupted = true → ∃ i < 8 * a.bytes.length,
      bytes = BitString.flipBit a.bytes i := by
    rintro rfl
    simp only [Bool.and_eq_true, Bool.not_eq_true', List.isEmpty_eq_false_iff] at hcorrupted
    have hindex := a.index_lt hcorrupted.2
    have hbit := a.bit.isLt
    exact ⟨_, by omega, hbytes.symm.trans a.modify_eq_flipBit⟩
  have hdelayed : reordered = false → release = a.queuedAt + config.delay := by
    rintro rfl
    exact hrelease.symm
  have hasked : reordered = true → 0 < config.impairment.reorder := by
    rintro rfl
    simp only [strikes, Bool.and_eq_true, decide_eq_true_eq] at hreordered
    exact hreordered.1.2
  split
  · exact .dropped bad false
  split
  · exact .dropped burst.1 true
  split
  · exact .queued burst.1 corrupted reordered true bytes release hkept hflip hdelayed hasked
  · exact .queued burst.1 corrupted reordered false bytes release hkept hflip hdelayed hasked

/-! ## The machine -/

abbrev ProxyQueue := PriorityQueue Pending Pending.Below

structure Proxy (Q : ProxyQueue) where
  queue : Q.Carrier
  arrivalCounter : ℕ := 0
  stats : Way → DirectionStats := fun _ => {}
  bad : Way → Bool := fun _ => false
  clientKnown : Bool := false
  lastActivity : ℤ := 0
  running : Bool := true

/-- What the loop meets.  A signal, a failed `ppoll` and the idle deadline end it; an interrupted
`ppoll` starts it over. -/
inductive ProxyEvent
  | signalled
  | interrupted
  | pollFailed
  | ready (front back : Option ProxyArrival) (now idle : ℤ)

/-- A datagram that arrived, and the copies of it that were queued. -/
structure Passage where
  way : Way
  arrival : ProxyArrival
  queued : List Pending

/-- A datagram handed to `sendto`. -/
structure Forwarded where
  way : Way
  bytes : Bytes
  deriving Repr, DecidableEq

namespace Proxy

variable {Q : ProxyQueue}

def init (Q : ProxyQueue) (started : ℤ) : Proxy Q where
  queue := Q.empty
  lastActivity := started

def accept (config : ProxyConfig) (way : Way) (a : ProxyArrival) (s : Proxy Q) :
    Proxy Q × Passage :=
  let treatment := treat config way a (s.bad way) s.arrivalCounter (s.stats way)
  ({ s with
      queue := treatment.queued.foldl Q.push s.queue
      arrivalCounter := s.arrivalCounter + treatment.queued.length
      stats := Function.update s.stats way treatment.stats
      bad := Function.update s.bad way treatment.bad
      lastActivity := a.activity },
    { way := way, arrival := a, queued := treatment.queued })

/-- The body of the release loop.  Without a client its datagrams go nowhere. -/
def releaseItem (item : Pending) (s : Proxy Q) : Proxy Q × List Forwarded :=
  let s := { s with queue := Q.pop s.queue }
  if item.way = .toServer ∨ s.clientKnown then
    let stats := s.stats item.way
    let stats := { stats with forwarded := stats.forwarded + 1 }
    ({ s with stats := Function.update s.stats item.way stats }, [⟨item.way, item.bytes⟩])
  else (s, [])

/-- The release loop.  Every turn but the last pops an entry. -/
def releaseLoop (now : ℤ) : ℕ → Proxy Q → Proxy Q × List Forwarded
  | 0, s => (s, [])
  | fuel + 1, s =>
      match Q.top s.queue with
      | none => (s, [])
      | some item =>
          if item.release ≤ now then
            let released := s.releaseItem item
            let rest := releaseLoop now fuel released.1
            (rest.1, released.2 ++ rest.2)
          else (s, [])

def release (now : ℤ) (s : Proxy Q) : Proxy Q × List Forwarded :=
  releaseLoop now (Q.size s.queue) s

/-- What is read from the front socket, then what is read from the back socket. -/
def receive (config : ProxyConfig) (front back : Option ProxyArrival) (s : Proxy Q) :
    Proxy Q × List Passage :=
  let afterFront : Proxy Q × List Passage := match front with
    | none => (s, [])
    | some a =>
        let accepted := accept config .toServer a { s with clientKnown := true }
        (accepted.1, [accepted.2])
  match back with
  | none => afterFront
  | some a =>
      let accepted := accept config .toClient a afterFront.1
      (accepted.1, afterFront.2 ++ [accepted.2])

/-- One turn of the main loop: the state after it, the datagrams it took in and those it sent. -/
def step (config : ProxyConfig) (s : Proxy Q) (event : ProxyEvent) :
    Proxy Q × List Passage × List Forwarded :=
  if !s.running then (s, [], [])
  else
    match event with
    | .signalled => ({ s with running := false }, [], [])
    | .interrupted => (s, [], [])
    | .pollFailed => ({ s with running := false }, [], [])
    | .ready front back now idle =>
        let received := s.receive config front back
        let released := received.1.release now
        let s := released.1
        let stop := Q.size s.queue = 0 ∧ config.idleExitMs < (idle - s.lastActivity).tdiv 1000000
        ({ s with running := !decide stop }, received.2, released.2)

end Proxy

/-- The proxy with everything it has taken in and sent so far. -/
structure ProxyRun (Q : ProxyQueue) where
  proxy : Proxy Q
  passages : List Passage := []
  forwarded : List Forwarded := []

namespace ProxyRun

variable {Q : ProxyQueue}

def next (config : ProxyConfig) (r : ProxyRun Q) (event : ProxyEvent) : ProxyRun Q :=
  let stepped := r.proxy.step config event
  { proxy := stepped.1
    passages := r.passages ++ stepped.2.1
    forwarded := r.forwarded ++ stepped.2.2 }

/-- One datagram taken in. -/
def accept (config : ProxyConfig) (way : Way) (a : ProxyArrival) (r : ProxyRun Q) : ProxyRun Q :=
  let accepted := r.proxy.accept config way a
  { proxy := accepted.1, passages := r.passages ++ [accepted.2], forwarded := r.forwarded }

/-- One run of the release loop. -/
def release (now : ℤ) (r : ProxyRun Q) : ProxyRun Q :=
  let released := r.proxy.release now
  { proxy := released.1, passages := r.passages, forwarded := r.forwarded ++ released.2 }

/-- The two flags. -/
def flags (known running : Bool) (r : ProxyRun Q) : ProxyRun Q :=
  { r with proxy := { r.proxy with clientKnown := known, running := running } }

/-- A run of the proxy. -/
def after (Q : ProxyQueue) (config : ProxyConfig) (started : ℤ) (events : List ProxyEvent) :
    ProxyRun Q :=
  events.foldl (next config) { proxy := Proxy.init Q started }

lemma after_concat (config : ProxyConfig) (started : ℤ) (events : List ProxyEvent)
    (event : ProxyEvent) :
    after Q config started (events ++ [event])
      = (after Q config started events).next config event := by
  rw [after, after, List.foldl_append, List.foldl_cons, List.foldl_nil]

/-- **What one turn can do**: nothing but the flags, or take in what the sockets have and release
what is due. -/
inductive Next (config : ProxyConfig) (r : ProxyRun Q) : ProxyEvent → ProxyRun Q → Prop
  | idle (event : ProxyEvent) (running : Bool) :
      Next config r event (r.flags r.proxy.clientKnown running)
  | ready (front back : Option ProxyArrival) (now idle : ℤ) (known running : Bool)
      {r₁ r₂ : ProxyRun Q}
      (hfront : front.elim (r₁ = r) fun a =>
        r₁ = (r.flags true r.proxy.running).accept config .toServer a)
      (hback : back.elim (r₂ = r₁) fun a => r₂ = r₁.accept config .toClient a)
      (hknown : known = (r₂.release now).proxy.clientKnown) :
      Next config r (.ready front back now idle) ((r₂.release now).flags known running)

lemma next_next (config : ProxyConfig) (r : ProxyRun Q) (event : ProxyEvent) :
    Next config r event (r.next config event) := by
  have hstay : ∀ running, Next config r event
      { r with
        proxy := { r.proxy with running := running }
        passages := r.passages ++ []
        forwarded := r.forwarded ++ [] } := by
    intro running
    simp only [List.append_nil]
    exact .idle event running
  simp only [next, Proxy.step]
  by_cases hrunning : r.proxy.running = true
  · rw [hrunning]
    simp only [Bool.not_true, Bool.false_eq_true, if_false]
    cases event with
    | signalled => exact hstay false
    | interrupted => exact hstay r.proxy.running
    | pollFailed => exact hstay false
    | ready front back now idle =>
        have hready : ∀ {r₁ r₂ : ProxyRun Q} (running : Bool),
            front.elim (r₁ = r) (fun a =>
              r₁ = (r.flags true r.proxy.running).accept config .toServer a) →
            back.elim (r₂ = r₁) (fun a => r₂ = r₁.accept config .toClient a) →
            Next config r (.ready front back now idle)
              ((r₂.release now).flags (r₂.release now).proxy.clientKnown running) :=
          fun running hfront hback => .ready front back now idle _ running hfront hback rfl
        cases front with
        | none =>
            cases back with
            | none => simpa [Proxy.receive, flags, release] using hready _ rfl rfl
            | some b => simpa [Proxy.receive, flags, release, accept] using hready _ rfl rfl
        | some a =>
            cases back with
            | none => simpa [Proxy.receive, flags, release, accept] using hready _ rfl rfl
            | some b => simpa [Proxy.receive, flags, release, accept] using hready _ rfl rfl
  · simp only [hrunning, Bool.not_false, if_true]
    exact hstay r.proxy.running

end ProxyRun

end SwiftLink
