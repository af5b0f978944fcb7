import SwiftLink.Library.PriorityQueue
import SwiftLink.Library.Ring
import Mathlib.Data.Multiset.MapFold
import Mathlib.Data.Multiset.Dedup
import Mathlib.Logic.Function.Basic

/-!
# The sender's window

`SenderWindow` of `transfer/window.cpp`: a ring of slots for the unacknowledged packets and a heap
of retransmission deadlines with lazy deletion.  Cancelling a timer bumps its slot's generation; a
heap entry whose generation is behind its slot's is a ghost and is dropped when it surfaces.

Everything the callers need follows from one invariant, `Inv`, and from two relations read off the
implementation: `Unacked s`, the sequence numbers sent and not acknowledged, and `Armed s d`, the
live timers.  Each operation has one lemma saying what it does to the two.

Sequence numbers are 32-bit in the source and are reduced here wherever the source's arithmetic
can wrap.  Generations are unbounded: a slot's counter moves by at most two for every transmission
of a packet, so 64 bits outlast any transfer a 32-bit sequence number can address.
-/

namespace SwiftLink

/-- `steady_clock::time_point`. -/
abbrev TimePoint := ℤ

structure Slot where
  outstanding : Bool := false
  generation : ℕ := 0
  deriving Repr, DecidableEq, Inhabited

structure TimerEntry where
  deadline : TimePoint
  sequence : ℕ
  generation : ℕ
  deriving Repr, DecidableEq

/-- `std::priority_queue<Entry>` for the inverted `operator<`: the earliest deadline is on top. -/
abbrev TimerQueue := PriorityQueue TimerEntry fun a b => b.deadline < a.deadline

/-- One such queue, to run the model on. -/
def sortedTimers : TimerQueue := sortedQueue TimerEntry TimerEntry.deadline

structure SenderWindow (Q : TimerQueue) where
  capacity : ℕ
  base : ℕ
  nextSequence : ℕ
  slots : ℕ → Slot
  timers : Q.Carrier

namespace SenderWindow

variable {Q : TimerQueue}

/-! ## The implementation -/

/-- The constructor.  A zero capacity becomes one. -/
def init (Q : TimerQueue) (capacity : ℕ) : SenderWindow Q where
  capacity := if capacity = 0 then 1 else capacity
  base := 0
  nextSequence := 0
  slots _ := {}
  timers := Q.empty

/-- `next_sequence_ - base_`, in 32 bits. -/
def inFlight (w : SenderWindow Q) : ℕ := (w.nextSequence + 2 ^ 32 - w.base) % 2 ^ 32

def canSend (w : SenderWindow Q) : Bool := w.inFlight < w.capacity

/-- The slot a sequence number lives in. -/
def slotFor (w : SenderWindow Q) (sequence : ℕ) : Slot := w.slots (sequence % w.capacity)

/-- Overwrites the flag of a slot and bumps its generation, which orphans its heap entries. -/
def bump (w : SenderWindow Q) (sequence : ℕ) (outstanding : Bool) : SenderWindow Q :=
  let slot : Slot :=
    { outstanding := outstanding, generation := (w.slotFor sequence).generation + 1 }
  { w with slots := Function.update w.slots (sequence % w.capacity) slot }

/-- Arms a timer with the slot's current generation. -/
def arm (w : SenderWindow Q) (sequence : ℕ) (deadline : TimePoint) : SenderWindow Q :=
  let entry : TimerEntry :=
    { deadline := deadline, sequence := sequence, generation := (w.slotFor sequence).generation }
  { w with timers := Q.push w.timers entry }

def isLive (w : SenderWindow Q) (entry : TimerEntry) : Bool :=
  (w.slotFor entry.sequence).outstanding &&
    (w.slotFor entry.sequence).generation == entry.generation

/-- Discards ghosts from the top.  Each turn pops one entry, so as many turns as there are entries
are enough. -/
def pruneLoop : ℕ → SenderWindow Q → SenderWindow Q
  | 0, w => w
  | fuel + 1, w =>
      match Q.top w.timers with
      | none => w
      | some entry =>
          if w.isLive entry then w else pruneLoop fuel { w with timers := Q.pop w.timers }

def prune (w : SenderWindow Q) : SenderWindow Q := pruneLoop (Q.size w.timers) w

def onSent (w : SenderWindow Q) (deadline : TimePoint) : SenderWindow Q :=
  let sequence := w.nextSequence
  let w := (w.bump sequence true).arm sequence deadline
  { w with nextSequence := (w.nextSequence + 1) % 2 ^ 32 }

/-- The sliding loop of `on_ack`. -/
def slideBase : ℕ → SenderWindow Q → SenderWindow Q
  | 0, w => w
  | fuel + 1, w =>
      if w.base < w.nextSequence ∧ !(w.slotFor w.base).outstanding then
        slideBase fuel { w with base := (w.base + 1) % 2 ^ 32 }
      else w

def onAck (w : SenderWindow Q) (sequence : ℕ) : SenderWindow Q × Bool :=
  if sequence < w.base ∨ w.nextSequence ≤ sequence then (w, false)
  else if !(w.slotFor sequence).outstanding then (w, false)
  else (slideBase (w.nextSequence - w.base) (w.bump sequence false), true)

def earliestDeadline (w : SenderWindow Q) : SenderWindow Q × Option TimePoint :=
  let w := w.prune
  (w, (Q.top w.timers).map TimerEntry.deadline)

/-- The loop of `expire`.  Every turn but the last pops an entry. -/
def expireLoop (now : TimePoint) : ℕ → SenderWindow Q → List ℕ → SenderWindow Q × List ℕ
  | 0, w, expired => (w, expired)
  | fuel + 1, w, expired =>
      let w := w.prune
      match Q.top w.timers with
      | none => (w, expired)
      | some entry =>
          if now < entry.deadline then (w, expired)
          else
            let w := { w with timers := Q.pop w.timers }
            let w := w.bump entry.sequence (w.slotFor entry.sequence).outstanding
            expireLoop now fuel w (expired ++ [entry.sequence])

def expire (w : SenderWindow Q) (now : TimePoint) : SenderWindow Q × List ℕ :=
  expireLoop now (Q.size w.timers + 1) w []

def reschedule (w : SenderWindow Q) (sequence : ℕ) (deadline : TimePoint) : SenderWindow Q :=
  if sequence < w.base ∨ w.nextSequence ≤ sequence then w
  else if !(w.slotFor sequence).outstanding then w
  else (w.bump sequence (w.slotFor sequence).outstanding).arm sequence deadline

/-! ## Reading the state -/

/-- Sent and not acknowledged. -/
def Unacked (w : SenderWindow Q) (s : ℕ) : Prop :=
  w.base ≤ s ∧ s < w.nextSequence ∧ (w.slotFor s).outstanding = true

instance (w : SenderWindow Q) (s : ℕ) : Decidable (w.Unacked s) :=
  inferInstanceAs (Decidable (_ ∧ _ ∧ _))

/-- A live timer for `s`, due at `d`. -/
def Armed (w : SenderWindow Q) (s : ℕ) (d : TimePoint) : Prop :=
  ∃ e ∈ Q.contents w.timers, e.sequence = s ∧ e.deadline = d ∧ w.isLive e = true

/-- The cell and the generation of a heap entry; no two entries share both. -/
def stamp (w : SenderWindow Q) (e : TimerEntry) : ℕ × ℕ := (e.sequence % w.capacity, e.generation)

/-- The window invariant, all of it but the position of the base, which `on_ack` breaks and its
sliding loop restores. -/
structure Core (w : SenderWindow Q) : Prop where
  capacity_pos : 0 < w.capacity
  base_le : w.base ≤ w.nextSequence
  next_le : w.nextSequence ≤ w.base + w.capacity
  next_lt : w.nextSequence < 2 ^ 32
  /-- Only sequence numbers of the window occupy slots. -/
  occupied : ∀ i, (w.slots i).outstanding = true →
    ∃ s, w.base ≤ s ∧ s < w.nextSequence ∧ s % w.capacity = i
  entry_lt : ∀ e ∈ Q.contents w.timers, e.sequence < w.nextSequence
  /-- An entry was stamped with a generation its slot has since reached or passed. -/
  entry_le : ∀ e ∈ Q.contents w.timers, e.generation ≤ (w.slotFor e.sequence).generation
  /-- An entry whose slot has not moved on is about a packet still outstanding. -/
  entry_current : ∀ e ∈ Q.contents w.timers,
    e.generation = (w.slotFor e.sequence).generation → w.Unacked e.sequence
  stamps_nodup : ((Q.contents w.timers).map w.stamp).Nodup

/-- **The window invariant.** -/
structure Inv (w : SenderWindow Q) : Prop extends Core w where
  /-- The base is the oldest unacknowledged packet, if there is one. -/
  base_out : w.base < w.nextSequence → (w.slotFor w.base).outstanding = true

/-! ## Bumping a slot and arming a timer -/

@[simp] lemma bump_capacity (w : SenderWindow Q) (s : ℕ) (o : Bool) :
    (w.bump s o).capacity = w.capacity := rfl
@[simp] lemma bump_base (w : SenderWindow Q) (s : ℕ) (o : Bool) : (w.bump s o).base = w.base := rfl
@[simp] lemma bump_nextSequence (w : SenderWindow Q) (s : ℕ) (o : Bool) :
    (w.bump s o).nextSequence = w.nextSequence := rfl
@[simp] lemma bump_timers (w : SenderWindow Q) (s : ℕ) (o : Bool) :
    (w.bump s o).timers = w.timers := rfl
@[simp] lemma bump_stamp (w : SenderWindow Q) (s : ℕ) (o : Bool) :
    (w.bump s o).stamp = w.stamp := rfl

lemma bump_slotFor (w : SenderWindow Q) (s t : ℕ) (o : Bool) :
    (w.bump s o).slotFor t = if t % w.capacity = s % w.capacity
      then { outstanding := o, generation := (w.slotFor s).generation + 1 } else w.slotFor t := by
  simp only [slotFor, bump, Function.update_apply]

lemma slotFor_congr (w : SenderWindow Q) {s t : ℕ} (h : s % w.capacity = t % w.capacity) :
    w.slotFor s = w.slotFor t := by
  rw [slotFor, slotFor, h]

/-- Inside the window a bump is felt by its own sequence number only. -/
lemma Core.bump_slotFor_window {w : SenderWindow Q} (h : w.Core) {s t : ℕ} {o : Bool}
    (hs : w.base ≤ s) (hs' : s < w.nextSequence) (ht : w.base ≤ t) (ht' : t < w.nextSequence) :
    (w.bump s o).slotFor t = if t = s
      then { outstanding := o, generation := (w.slotFor s).generation + 1 } else w.slotFor t := by
  rw [bump_slotFor]
  by_cases hts : t = s
  · rw [if_pos (by rw [hts]), if_pos hts]
  · have hnext := h.next_le
    rw [if_neg hts, if_neg fun hmod => hts (Ring.eq_of_mod_eq ht (by omega) hs (by omega) hmod)]

/-- After a bump no entry of the bumped cell is current any more; the others are as they were. -/
lemma entry_after_bump {w : SenderWindow Q} {s : ℕ} {o : Bool} {e : TimerEntry}
    (hle : e.generation ≤ (w.slotFor e.sequence).generation) :
    e.generation ≤ ((w.bump s o).slotFor e.sequence).generation ∧
      (e.generation = ((w.bump s o).slotFor e.sequence).generation →
        e.sequence % w.capacity ≠ s % w.capacity ∧
          e.generation = (w.slotFor e.sequence).generation) := by
  rw [bump_slotFor]
  split_ifs with hcell
  · rw [slotFor_congr w hcell] at hle
    exact ⟨by simp only; omega, fun heq => by simp only at heq; omega⟩
  · exact ⟨hle, fun heq => ⟨hcell, heq⟩⟩

lemma Core.isLive_iff {w : SenderWindow Q} (h : w.Core) {e : TimerEntry}
    (he : e ∈ Q.contents w.timers) :
    w.isLive e = true ↔ e.generation = (w.slotFor e.sequence).generation := by
  simp only [isLive, Bool.and_eq_true, beq_iff_eq]
  exact ⟨fun hl => hl.2.symm, fun hg => ⟨(h.entry_current e he hg).2.2, hg.symm⟩⟩

lemma Core.armed_unacked {w : SenderWindow Q} (h : w.Core) {s : ℕ} {d : TimePoint}
    (ha : w.Armed s d) : w.Unacked s := by
  obtain ⟨e, he, rfl, -, hl⟩ := ha
  exact h.entry_current e he ((h.isLive_iff he).mp hl)

/-- Two current entries of one packet are the same entry. -/
lemma Core.entry_unique {w : SenderWindow Q} (h : w.Core) {e f : TimerEntry}
    (he : e ∈ Q.contents w.timers) (hf : f ∈ Q.contents w.timers)
    (hel : w.isLive e = true) (hfl : w.isLive f = true) (hs : e.sequence = f.sequence) :
    e = f := by
  refine Multiset.inj_on_of_nodup_map h.stamps_nodup e he f hf ?_
  rw [stamp, stamp, (h.isLive_iff he).mp hel, (h.isLive_iff hf).mp hfl, hs]

lemma Core.armed_unique {w : SenderWindow Q} (h : w.Core) {s : ℕ} {d d' : TimePoint}
    (ha : w.Armed s d) (ha' : w.Armed s d') : d = d' := by
  obtain ⟨e, he, hes, rfl, hel⟩ := ha
  obtain ⟨f, hf, hfs, rfl, hfl⟩ := ha'
  rw [h.entry_unique he hf hel hfl (hes.trans hfs.symm)]

/-- **Bumping the slot of an outstanding packet.**  Its timer is gone; the packet itself is
outstanding afterwards if the flag says so. -/
lemma Core.bump {w : SenderWindow Q} (h : w.Core) {s : ℕ} (hs : w.Unacked s) (o : Bool) :
    (w.bump s o).Core ∧
      (∀ t, (w.bump s o).Unacked t ↔ w.Unacked t ∧ (t = s → o = true)) ∧
      (∀ t d, (w.bump s o).Armed t d ↔ w.Armed t d ∧ t ≠ s) := by
  have hunacked : ∀ t, (w.bump s o).Unacked t ↔ w.Unacked t ∧ (t = s → o = true) := by
    intro t
    simp only [Unacked, bump_base, bump_nextSequence]
    constructor
    · rintro ⟨hb, hn, ho⟩
      rw [h.bump_slotFor_window hs.1 hs.2.1 hb hn] at ho
      by_cases hts : t = s
      · subst hts
        exact ⟨hs, fun _ => by simpa using ho⟩
      · rw [if_neg hts] at ho
        exact ⟨⟨hb, hn, ho⟩, fun hts' => absurd hts' hts⟩
    · rintro ⟨⟨hb, hn, ho⟩, himp⟩
      refine ⟨hb, hn, ?_⟩
      rw [h.bump_slotFor_window hs.1 hs.2.1 hb hn]
      by_cases hts : t = s
      · rw [if_pos hts]; exact himp hts
      · rw [if_neg hts]; exact ho
  have hcurrent : ∀ e ∈ Q.contents w.timers,
      e.generation = ((w.bump s o).slotFor e.sequence).generation →
        w.isLive e = true ∧ e.sequence ≠ s := by
    intro e he hg
    obtain ⟨hcell, hg'⟩ := (entry_after_bump (h.entry_le e he)).2 hg
    exact ⟨(h.isLive_iff he).mpr hg', fun hes => hcell (by rw [hes])⟩
  have hcore : (w.bump s o).Core :=
    { capacity_pos := h.capacity_pos
      base_le := h.base_le
      next_le := h.next_le
      next_lt := h.next_lt
      occupied := by
        intro i hi
        by_cases hcell : i = s % w.capacity
        · exact ⟨s, hs.1, hs.2.1, hcell.symm⟩
        · have hsame : (w.bump s o).slots i = w.slots i := Function.update_of_ne hcell _ _
          exact h.occupied i (hsame ▸ hi)
      entry_lt := h.entry_lt
      entry_le := fun e he => (entry_after_bump (h.entry_le e he)).1
      entry_current := by
        intro e he hg
        obtain ⟨hlive, hne⟩ := hcurrent e he hg
        exact (hunacked _).mpr ⟨h.armed_unacked ⟨e, he, rfl, rfl, hlive⟩, fun hes => absurd hes hne⟩
      stamps_nodup := h.stamps_nodup }
  refine ⟨hcore, hunacked, fun t d => ?_⟩
  constructor
  · rintro ⟨e, he, rfl, rfl, hl⟩
    obtain ⟨hlive, hne⟩ := hcurrent e he ((hcore.isLive_iff he).mp hl)
    exact ⟨⟨e, he, rfl, rfl, hlive⟩, hne⟩
  · rintro ⟨⟨e, he, rfl, rfl, hl⟩, hne⟩
    have hu := h.armed_unacked ⟨e, he, rfl, rfl, hl⟩
    refine ⟨e, he, rfl, rfl, (hcore.isLive_iff he).mpr ?_⟩
    rw [h.bump_slotFor_window hs.1 hs.2.1 hu.1 hu.2.1, if_neg hne]
    exact (h.isLive_iff he).mp hl

/-- **Arming an outstanding packet that has no timer.** -/
lemma Core.arm {w : SenderWindow Q} (h : w.Core) {s : ℕ} (hs : w.Unacked s)
    (hnone : ∀ e ∈ Q.contents w.timers, e.sequence % w.capacity = s % w.capacity →
      e.generation < (w.slotFor s).generation) (deadline : TimePoint) :
    (w.arm s deadline).Core ∧ (∀ t, (w.arm s deadline).Unacked t ↔ w.Unacked t) ∧
      (∀ t d, (w.arm s deadline).Armed t d ↔ w.Armed t d ∨ t = s ∧ d = deadline) := by
  set entry : TimerEntry :=
    { deadline := deadline, sequence := s, generation := (w.slotFor s).generation } with hentry
  have hcontents : Q.contents (w.arm s deadline).timers = entry ::ₘ Q.contents w.timers :=
    Q.contents_push _ _
  have hmem : ∀ {e}, e ∈ Q.contents (w.arm s deadline).timers ↔
      e = entry ∨ e ∈ Q.contents w.timers := by
    intro e
    rw [hcontents, Multiset.mem_cons]
  have hlive : ∀ e, (w.arm s deadline).isLive e = w.isLive e := fun _ => rfl
  refine ⟨?_, fun _ => Iff.rfl, fun t d => ?_⟩
  · exact
      { capacity_pos := h.capacity_pos
        base_le := h.base_le
        next_le := h.next_le
        next_lt := h.next_lt
        occupied := h.occupied
        entry_lt := by
          intro e he
          rcases hmem.mp he with rfl | he
          · exact hs.2.1
          · exact h.entry_lt e he
        entry_le := by
          intro e he
          rcases hmem.mp he with rfl | he
          · exact le_refl _
          · exact h.entry_le e he
        entry_current := by
          intro e he hg
          rcases hmem.mp he with rfl | he
          · exact hs
          · exact h.entry_current e he hg
        stamps_nodup := by
          rw [hcontents, Multiset.map_cons, Multiset.nodup_cons]
          refine ⟨fun hin => ?_, h.stamps_nodup⟩
          obtain ⟨e, he, hst⟩ := Multiset.mem_map.mp hin
          simp only [stamp, hentry, Prod.mk.injEq] at hst
          have := hnone e he hst.1
          omega }
  · constructor
    · rintro ⟨e, he, rfl, rfl, hl⟩
      rcases hmem.mp he with rfl | he
      · exact Or.inr ⟨rfl, rfl⟩
      · exact Or.inl ⟨e, he, rfl, rfl, hl⟩
    · rintro (⟨e, he, rfl, rfl, hl⟩ | ⟨rfl, rfl⟩)
      · exact ⟨e, hmem.mpr (Or.inr he), rfl, rfl, hl⟩
      · refine ⟨entry, hmem.mpr (Or.inl rfl), rfl, rfl, ?_⟩
        have hout : (w.slotFor t).outstanding = true := hs.2.2
        rw [hlive, isLive]
        simp [hentry, hout]

/-! ## What each operation does -/

/-- What an operation makes of `w`: the invariant holds again, and `next`, `U` and `A` are the new
`next_sequence_`, the new unacknowledged packets and the new live timers. -/
structure Effect (w w' : SenderWindow Q) (next : ℕ) (U : ℕ → Prop) (A : ℕ → TimePoint → Prop) :
    Prop where
  inv : w'.Inv
  capacity_eq : w'.capacity = w.capacity
  next_eq : w'.nextSequence = next
  unacked : ∀ t, w'.Unacked t ↔ U t
  armed : ∀ t d, w'.Armed t d ↔ A t d

lemma Inv.effect_self {w : SenderWindow Q} (h : w.Inv) :
    Effect w w w.nextSequence w.Unacked w.Armed where
  inv := h
  capacity_eq := rfl
  next_eq := rfl
  unacked _ := Iff.rfl
  armed _ _ := Iff.rfl

lemma init_inv (Q : TimerQueue) (capacity : ℕ) : (init Q capacity).Inv where
  capacity_pos := by
    simp only [init]
    split_ifs <;> omega
  base_le := le_refl _
  next_le := Nat.zero_le _
  next_lt := by simp [init]
  occupied _ h := by simp [init] at h
  entry_lt e he := by simp [init, Q.contents_empty] at he
  entry_le e he := by simp [init, Q.contents_empty] at he
  entry_current e he := by simp [init, Q.contents_empty] at he
  stamps_nodup := by simp [init, Q.contents_empty]
  base_out h := by simp [init] at h

lemma not_armed_init (Q : TimerQueue) (capacity s : ℕ) (d : TimePoint) :
    ¬ (init Q capacity).Armed s d := by
  rintro ⟨e, he, -⟩
  simp [init, Q.contents_empty] at he

lemma not_unacked_init (Q : TimerQueue) (capacity s : ℕ) : ¬ (init Q capacity).Unacked s := by
  simp [Unacked, init]

/-- `in_flight` counts without wrapping. -/
lemma Core.inFlight_eq {w : SenderWindow Q} (h : w.Core) :
    w.inFlight = w.nextSequence - w.base := by
  have hbase := h.base_le
  have hlt := h.next_lt
  rw [inFlight, show w.nextSequence + 2 ^ 32 - w.base = w.nextSequence - w.base + 2 ^ 32 by omega,
    Nat.add_mod_right, Nat.mod_eq_of_lt (by omega)]

lemma Core.canSend_iff {w : SenderWindow Q} (h : w.Core) :
    w.canSend = true ↔ w.nextSequence < w.base + w.capacity := by
  have hbase := h.base_le
  rw [canSend, h.inFlight_eq, decide_eq_true_eq]
  omega

/-- The base is the least unacknowledged packet; with none it is `next_sequence_`. -/
lemma Inv.base_spec {w : SenderWindow Q} (h : w.Inv) :
    (w.base < w.nextSequence ∧ w.Unacked w.base) ∨
      (w.base = w.nextSequence ∧ ∀ s, ¬ w.Unacked s) := by
  rcases Nat.lt_or_ge w.base w.nextSequence with hlt | hge
  · exact Or.inl ⟨hlt, le_refl _, hlt, h.base_out hlt⟩
  · exact Or.inr ⟨le_antisymm h.base_le hge, fun s hs => by have := hs.1; have := hs.2.1; omega⟩

/-- The base is determined by `next_sequence_` and by what is unacknowledged. -/
lemma base_eq_of_unacked {w w' : SenderWindow Q} (h' : w'.Inv) (h : w.Inv)
    (hnext : w'.nextSequence = w.nextSequence) (hunacked : ∀ t, w'.Unacked t ↔ w.Unacked t) :
    w'.base = w.base := by
  rcases h'.base_spec with ⟨-, hu'⟩ | ⟨heq', hnone'⟩
  · rcases h.base_spec with ⟨-, hu⟩ | ⟨-, hnone⟩
    · exact le_antisymm ((hunacked _).mpr hu).1 ((hunacked _).mp hu').1
    · exact absurd ((hunacked _).mp hu') (hnone _)
  · rcases h.base_spec with ⟨-, hu⟩ | ⟨heq, -⟩
    · exact absurd ((hunacked _).mpr hu) (hnone' _)
    · rw [heq', heq, hnext]

/-! ### Sending -/

/-- The window right after `on_sent` has taken the slot and before it pushes the timer. -/
def takeSlot (w : SenderWindow Q) : SenderWindow Q :=
  { w.bump w.nextSequence true with nextSequence := w.nextSequence + 1 }

lemma takeSlot_slotFor {w : SenderWindow Q} (hsend : w.nextSequence < w.base + w.capacity)
    {t : ℕ} (hb : w.base ≤ t) (hn : t < w.nextSequence) : w.takeSlot.slotFor t = w.slotFor t := by
  have hne : t % w.capacity ≠ w.nextSequence % w.capacity := Ring.mod_ne_of_lt hb hn hsend
  exact Function.update_of_ne hne _ _

lemma takeSlot_next (w : SenderWindow Q) : w.takeSlot.slotFor w.nextSequence =
    { outstanding := true, generation := (w.slotFor w.nextSequence).generation + 1 } :=
  Function.update_self _ _ _

lemma Core.takeSlot_unacked {w : SenderWindow Q} (h : w.Core)
    (hsend : w.nextSequence < w.base + w.capacity) (t : ℕ) :
    w.takeSlot.Unacked t ↔ w.Unacked t ∨ t = w.nextSequence := by
  have hbase := h.base_le
  have hnext : w.takeSlot.nextSequence = w.nextSequence + 1 := rfl
  have hbase' : w.takeSlot.base = w.base := rfl
  simp only [Unacked, hnext, hbase']
  constructor
  · rintro ⟨hb, hn, ho⟩
    rcases Nat.lt_or_ge t w.nextSequence with hlt | hge
    · rw [takeSlot_slotFor hsend hb hlt] at ho
      exact Or.inl ⟨hb, hlt, ho⟩
    · exact Or.inr (by omega)
  · rintro (⟨hb, hn, ho⟩ | rfl)
    · exact ⟨hb, by omega, by rw [takeSlot_slotFor hsend hb hn]; exact ho⟩
    · exact ⟨hbase, by omega, by rw [takeSlot_next]⟩

/-- The slot taken leaves the old timers alone: none of them was current in that cell. -/
lemma Core.takeSlot_current {w : SenderWindow Q} (h : w.Core)
    (hsend : w.nextSequence < w.base + w.capacity) {e : TimerEntry}
    (he : e ∈ Q.contents w.timers) :
    e.generation = (w.takeSlot.slotFor e.sequence).generation ↔
      e.generation = (w.slotFor e.sequence).generation := by
  constructor
  · exact fun hg => ((entry_after_bump (h.entry_le e he)).2 hg).2
  · intro hg
    have hu := h.entry_current e he hg
    rw [takeSlot_slotFor hsend hu.1 hu.2.1]
    exact hg

lemma Core.takeSlot {w : SenderWindow Q} (h : w.Core)
    (hsend : w.nextSequence < w.base + w.capacity) (hlt : w.nextSequence + 1 < 2 ^ 32) :
    w.takeSlot.Core where
  capacity_pos := h.capacity_pos
  base_le := Nat.le_succ_of_le h.base_le
  next_le := hsend
  next_lt := hlt
  occupied := by
    intro i hi
    by_cases hcell : i = w.nextSequence % w.capacity
    · exact ⟨w.nextSequence, h.base_le, Nat.lt_succ_self _, hcell.symm⟩
    · have hsame : w.takeSlot.slots i = w.slots i := Function.update_of_ne hcell _ _
      obtain ⟨s, hb, hn, hs⟩ := h.occupied i (hsame ▸ hi)
      exact ⟨s, hb, Nat.lt_succ_of_lt hn, hs⟩
  entry_lt e he := Nat.lt_succ_of_lt (h.entry_lt e he)
  entry_le e he := (entry_after_bump (h.entry_le e he)).1
  entry_current := by
    intro e he hg
    have hu := h.entry_current e he ((h.takeSlot_current hsend he).mp hg)
    exact (h.takeSlot_unacked hsend _).mpr (Or.inl hu)
  stamps_nodup := h.stamps_nodup

lemma onSent_eq {w : SenderWindow Q} (hlt : w.nextSequence + 1 < 2 ^ 32) (deadline : TimePoint) :
    w.onSent deadline = w.takeSlot.arm w.nextSequence deadline := by
  simp only [onSent, SenderWindow.arm, SenderWindow.takeSlot, bump_nextSequence,
    Nat.mod_eq_of_lt hlt]
  rfl

/-- **Sending.** -/
lemma Inv.onSent {w : SenderWindow Q} (h : w.Inv) (hsend : w.canSend = true)
    (hlt : w.nextSequence + 1 < 2 ^ 32) (deadline : TimePoint) :
    Effect w (w.onSent deadline) (w.nextSequence + 1)
      (fun t => w.Unacked t ∨ t = w.nextSequence)
      (fun t d => w.Armed t d ∨ t = w.nextSequence ∧ d = deadline) := by
  rw [h.canSend_iff] at hsend
  have hbase := h.base_le
  have hcore := h.toCore.takeSlot hsend hlt
  have hfresh : ∀ e ∈ Q.contents w.takeSlot.timers,
      e.sequence % w.takeSlot.capacity = w.nextSequence % w.takeSlot.capacity →
        e.generation < (w.takeSlot.slotFor w.nextSequence).generation := by
    intro e he hcell
    have hle := h.entry_le e he
    rw [slotFor_congr w hcell] at hle
    rw [takeSlot_next]
    exact Nat.lt_succ_of_le hle
  obtain ⟨harm, hunacked, harmed⟩ := hcore.arm
    ((h.toCore.takeSlot_unacked hsend _).mpr (Or.inr rfl)) hfresh deadline
  have hold : ∀ t d, w.takeSlot.Armed t d ↔ w.Armed t d := by
    intro t d
    refine exists_congr fun e => and_congr_right fun he => ?_
    rw [hcore.isLive_iff he, h.isLive_iff he, h.toCore.takeSlot_current hsend he]
  rw [onSent_eq hlt]
  refine ⟨⟨harm, fun hb => ?_⟩, rfl, rfl, fun t => ?_, fun t d => ?_⟩
  · -- the base was outstanding already, unless this is the packet it now points at
    have hu : (w.takeSlot.arm w.nextSequence deadline).Unacked w.base := by
      rw [hunacked, h.toCore.takeSlot_unacked hsend]
      rcases h.base_spec with ⟨-, hu⟩ | ⟨heq, -⟩
      · exact Or.inl hu
      · exact Or.inr heq
    exact hu.2.2
  · rw [hunacked, h.toCore.takeSlot_unacked hsend]
  · rw [harmed, hold]

/-! ### Acknowledging -/

/-- The window with its base one further on. -/
def stepBase (w : SenderWindow Q) : SenderWindow Q := { w with base := (w.base + 1) % 2 ^ 32 }

lemma Core.stepBase {w : SenderWindow Q} (h : w.Core) (hlt : w.base < w.nextSequence)
    (hfree : (w.slotFor w.base).outstanding = false) :
    w.stepBase.Core ∧ w.stepBase.base = w.base + 1 ∧
      (∀ t, w.stepBase.Unacked t ↔ w.Unacked t) ∧
      (∀ t d, w.stepBase.Armed t d ↔ w.Armed t d) := by
  have hnext := h.next_lt
  have hle := h.next_le
  have hbase : w.stepBase.base = w.base + 1 := Nat.mod_eq_of_lt (by omega)
  have hunacked : ∀ t, w.stepBase.Unacked t ↔ w.Unacked t := by
    intro t
    have hslot : w.stepBase.slotFor t = w.slotFor t := rfl
    have hnext' : w.stepBase.nextSequence = w.nextSequence := rfl
    simp only [Unacked, hbase, hslot, hnext']
    refine ⟨fun ⟨hb, hn, ho⟩ => ⟨by omega, hn, ho⟩, fun ⟨hb, hn, ho⟩ => ⟨?_, hn, ho⟩⟩
    rcases Nat.lt_or_ge w.base t with hlt | hge
    · exact hlt
    · obtain rfl : t = w.base := by omega
      simp [hfree] at ho
  refine ⟨?_, hbase, hunacked, fun _ _ => Iff.rfl⟩
  exact
    { capacity_pos := h.capacity_pos
      base_le := by rw [hbase]; exact hlt
      next_le := by rw [hbase]; exact (by omega : w.nextSequence ≤ w.base + 1 + w.capacity)
      next_lt := hnext
      occupied := by
        intro i hi
        obtain ⟨s, hb, hn, hs⟩ := h.occupied i hi
        have hu : w.stepBase.Unacked s :=
          (hunacked s).mpr ⟨hb, hn, by rw [slotFor, hs]; exact hi⟩
        exact ⟨s, hu.1, hu.2.1, hs⟩
      entry_lt := h.entry_lt
      entry_le := h.entry_le
      entry_current := fun e he hg => (hunacked _).mpr (h.entry_current e he hg)
      stamps_nodup := h.stamps_nodup }

/-- **Sliding the base.**  The loop restores the part of the invariant `on_ack` broke and moves
nothing else. -/
lemma Core.slideBase {w : SenderWindow Q} (h : w.Core) {fuel : ℕ}
    (hfuel : w.nextSequence - w.base ≤ fuel) :
    Effect w (slideBase fuel w) w.nextSequence w.Unacked w.Armed := by
  induction fuel generalizing w with
  | zero =>
      have hinv : w.Inv := ⟨h, fun hb => by omega⟩
      exact hinv.effect_self
  | succ fuel ih =>
      rw [SenderWindow.slideBase]
      split_ifs with hcond
      · obtain ⟨hlt, hfree⟩ := hcond
        obtain ⟨hcore, hbase, hunacked, harmed⟩ := h.stepBase hlt (by simpa using hfree)
        have heff := ih hcore (by
          rw [hbase]
          exact (by omega : w.nextSequence - (w.base + 1) ≤ fuel))
        exact ⟨heff.inv, heff.capacity_eq, heff.next_eq,
          fun t => (heff.unacked t).trans (hunacked t),
          fun t d => (heff.armed t d).trans (harmed t d)⟩
      · have hinv : w.Inv := ⟨h, fun hb => by
          by_contra hout
          exact hcond ⟨hb, by simpa using hout⟩⟩
        exact hinv.effect_self

/-- The two guards that `on_ack` and `reschedule` share ask whether the packet is unacknowledged. -/
lemma guards_iff (w : SenderWindow Q) (s : ℕ) :
    (s < w.base ∨ w.nextSequence ≤ s) ∨ (!(w.slotFor s).outstanding) = true ↔ ¬ w.Unacked s := by
  simp only [Unacked, Bool.not_eq_true', not_and, Bool.not_eq_true]
  constructor
  · rintro ((hlt | hge) | hfree) hb hn
    · omega
    · omega
    · exact hfree
  · intro h
    by_cases hin : w.base ≤ s ∧ s < w.nextSequence
    · exact Or.inr (h hin.1 hin.2)
    · exact Or.inl (by omega)

lemma onAck_of_not_unacked {w : SenderWindow Q} {s : ℕ} (hs : ¬ w.Unacked s) :
    w.onAck s = (w, false) := by
  rw [onAck]
  rcases (guards_iff w s).mpr hs with hout | hfree
  · rw [if_pos hout]
  · rw [if_pos hfree, ite_self]

lemma onAck_of_unacked {w : SenderWindow Q} {s : ℕ} (hs : w.Unacked s) :
    w.onAck s = (SenderWindow.slideBase (w.nextSequence - w.base) (w.bump s false), true) := by
  have hguards := (not_congr (guards_iff w s)).mpr (not_not.mpr hs)
  push Not at hguards
  rw [onAck, if_neg (by omega), if_neg hguards.2]

/-- **Acknowledging.** -/
lemma Inv.onAck {w : SenderWindow Q} (h : w.Inv) (s : ℕ) :
    Effect w (w.onAck s).1 w.nextSequence (fun t => w.Unacked t ∧ t ≠ s)
      (fun t d => w.Armed t d ∧ t ≠ s) ∧
    (w.onAck s).2 = decide (w.Unacked s) := by
  by_cases hs : w.Unacked s
  · rw [onAck_of_unacked hs]
    obtain ⟨hcore, hunacked, harmed⟩ := h.toCore.bump hs false
    have heff := hcore.slideBase (le_refl _)
    refine ⟨⟨heff.inv, heff.capacity_eq, heff.next_eq, fun t => ?_, fun t d => ?_⟩, by simp [hs]⟩
    · exact (heff.unacked t).trans ((hunacked t).trans (by simp))
    · exact (heff.armed t d).trans (harmed t d)
  · rw [onAck_of_not_unacked hs]
    refine ⟨⟨h, rfl, rfl, fun t => ?_, fun t d => ?_⟩, by simp [hs]⟩
    · exact ⟨fun ht => ⟨ht, fun heq => hs (heq ▸ ht)⟩, fun ht => ht.1⟩
    · exact ⟨fun ht => ⟨ht, fun heq => hs (heq ▸ h.toCore.armed_unacked ht)⟩, fun ht => ht.1⟩

/-- **Rescheduling.** -/
lemma Inv.reschedule {w : SenderWindow Q} (h : w.Inv) (s : ℕ) (deadline : TimePoint) :
    Effect w (w.reschedule s deadline) w.nextSequence w.Unacked
      (fun t d => w.Armed t d ∧ (w.Unacked s → t ≠ s) ∨ w.Unacked s ∧ t = s ∧ d = deadline) := by
  by_cases hs : w.Unacked s
  · have hguards := (not_congr (guards_iff w s)).mpr (not_not.mpr hs)
    push Not at hguards
    obtain ⟨hcore, hunacked, harmed⟩ := h.toCore.bump hs (w.slotFor s).outstanding
    have hself : (w.bump s (w.slotFor s).outstanding).Unacked s :=
      (hunacked s).mpr ⟨hs, fun _ => hs.2.2⟩
    have hfresh : ∀ e ∈ Q.contents w.timers, e.sequence % w.capacity = s % w.capacity →
        e.generation < ((w.bump s (w.slotFor s).outstanding).slotFor s).generation := by
      intro e he hcell
      have hle := h.entry_le e he
      rw [slotFor_congr w hcell] at hle
      rw [bump_slotFor, if_pos rfl]
      exact Nat.lt_succ_of_le hle
    obtain ⟨harm, hunacked', harmed'⟩ := hcore.arm hself hfresh deadline
    have hU : ∀ t, ((w.bump s (w.slotFor s).outstanding).arm s deadline).Unacked t ↔
        w.Unacked t := by
      intro t
      rw [hunacked', hunacked]
      exact ⟨fun ht => ht.1, fun ht => ⟨ht, fun _ => hs.2.2⟩⟩
    rw [SenderWindow.reschedule, if_neg (by omega), if_neg hguards.2]
    refine ⟨⟨harm, fun hb => ?_⟩, rfl, rfl, hU, fun t d => ?_⟩
    · exact ((hU w.base).mpr ⟨le_refl _, hb, h.base_out hb⟩).2.2
    · rw [harmed', harmed]
      simp only [hs, true_implies, true_and]
  · have hsame : w.reschedule s deadline = w := by
      rw [SenderWindow.reschedule]
      rcases (guards_iff w s).mpr hs with hout | hfree
      · rw [if_pos hout]
      · rw [if_pos hfree, ite_self]
    rw [hsame]
    refine ⟨h, rfl, rfl, fun _ => Iff.rfl, fun t d => ?_⟩
    simp [hs]

/-! ### Timers -/

/-- The window without the top of its heap. -/
def popTimer (w : SenderWindow Q) : SenderWindow Q := { w with timers := Q.pop w.timers }

lemma popTimer_mem {w : SenderWindow Q} {e : TimerEntry} (htop : Q.top w.timers = some e)
    {f : TimerEntry} (hf : f ∈ Q.contents w.popTimer.timers) : f ∈ Q.contents w.timers :=
  Multiset.mem_of_le (Q.contents_pop_le htop) hf

lemma Core.popTimer {w : SenderWindow Q} (h : w.Core) {e : TimerEntry}
    (htop : Q.top w.timers = some e) : w.popTimer.Core where
  capacity_pos := h.capacity_pos
  base_le := h.base_le
  next_le := h.next_le
  next_lt := h.next_lt
  occupied := h.occupied
  entry_lt f hf := h.entry_lt f (popTimer_mem htop hf)
  entry_le f hf := h.entry_le f (popTimer_mem htop hf)
  entry_current f hf := h.entry_current f (popTimer_mem htop hf)
  stamps_nodup := Multiset.nodup_of_le (Multiset.map_le_map (Q.contents_pop_le htop)) h.stamps_nodup

lemma Inv.popTimer {w : SenderWindow Q} (h : w.Inv) {e : TimerEntry}
    (htop : Q.top w.timers = some e) : w.popTimer.Inv :=
  ⟨h.toCore.popTimer htop, h.base_out⟩

/-- A popped entry takes at most its own packet's timer with it. -/
lemma popTimer_armed_iff {w : SenderWindow Q} {e : TimerEntry} (htop : Q.top w.timers = some e)
    {t : ℕ} {d : TimePoint} (hne : w.isLive e = true → t ≠ e.sequence) :
    w.popTimer.Armed t d ↔ w.Armed t d := by
  constructor
  · rintro ⟨f, hf, hs, hd, hl⟩
    exact ⟨f, popTimer_mem htop hf, hs, hd, hl⟩
  · rintro ⟨f, hf, hs, hd, hl⟩
    rw [Q.contents_pop _ _ htop, Multiset.mem_cons] at hf
    rcases hf with rfl | hf
    · exact absurd hs.symm (hne hl)
    · exact ⟨f, hf, hs, hd, hl⟩

/-- **Pruning** drops ghosts only, and stops at a live timer. -/
lemma Inv.pruneLoop {w : SenderWindow Q} (h : w.Inv) {fuel : ℕ} (hfuel : Q.size w.timers ≤ fuel) :
    Effect w (pruneLoop fuel w) w.nextSequence w.Unacked w.Armed ∧
      Q.size (pruneLoop fuel w).timers ≤ Q.size w.timers ∧
      ∀ e, Q.top (pruneLoop fuel w).timers = some e → (pruneLoop fuel w).isLive e = true := by
  induction fuel generalizing w with
  | zero =>
      refine ⟨h.effect_self, le_refl _, fun e htop => ?_⟩
      have hmem := Q.top_mem htop
      have hempty : Q.contents w.timers = 0 := Multiset.card_eq_zero.mp (Nat.le_zero.mp hfuel)
      rw [SenderWindow.pruneLoop, hempty] at hmem
      exact absurd hmem (Multiset.notMem_zero e)
  | succ fuel ih =>
      rw [SenderWindow.pruneLoop]
      cases htop : Q.top w.timers with
      | none => exact ⟨h.effect_self, le_refl _, fun e he => by simp [htop] at he⟩
      | some e =>
          simp only
          split_ifs with hlive
          · refine ⟨h.effect_self, le_refl _, fun f hf => ?_⟩
            obtain rfl : e = f := Option.some.inj (htop.symm.trans hf)
            exact hlive
          · have hsize := Q.size_pop htop
            obtain ⟨heff, hle, htop'⟩ := ih (h.popTimer htop)
              (by exact (by omega : Q.size (Q.pop w.timers) ≤ fuel))
            refine ⟨⟨heff.inv, heff.capacity_eq, heff.next_eq, heff.unacked, fun t d => ?_⟩, ?_,
              htop'⟩
            · exact (heff.armed t d).trans (popTimer_armed_iff htop fun hl => absurd hl hlive)
            · have hpop : Q.size w.popTimer.timers = Q.size (Q.pop w.timers) := rfl
              exact le_trans hle (by omega)

lemma Inv.prune {w : SenderWindow Q} (h : w.Inv) :
    Effect w w.prune w.nextSequence w.Unacked w.Armed ∧
      Q.size w.prune.timers ≤ Q.size w.timers ∧
      ∀ e, Q.top w.prune.timers = some e → w.prune.isLive e = true :=
  h.pruneLoop (le_refl _)

/-- A live entry on top is a timer no other timer precedes. -/
lemma top_earliest {w : SenderWindow Q} {e : TimerEntry} (htop : Q.top w.timers = some e)
    {t : ℕ} {d : TimePoint} (ha : w.Armed t d) : e.deadline ≤ d := by
  obtain ⟨f, hf, -, rfl, -⟩ := ha
  exact not_lt.mp (Q.top_max _ _ htop f hf)

lemma top_armed {w : SenderWindow Q} {e : TimerEntry} (htop : Q.top w.timers = some e)
    (hlive : w.isLive e = true) : w.Armed e.sequence e.deadline :=
  ⟨e, Q.top_mem htop, rfl, rfl, hlive⟩

lemma not_armed_of_top_none {w : SenderWindow Q} (htop : Q.top w.timers = none) (t : ℕ)
    (d : TimePoint) : ¬ w.Armed t d := by
  rintro ⟨e, he, -⟩
  rw [Q.top_none _ htop] at he
  exact Multiset.notMem_zero e he

/-- **The earliest deadline** is the least armed one, and there is none when nothing is armed. -/
lemma Inv.earliestDeadline {w : SenderWindow Q} (h : w.Inv) :
    Effect w w.earliestDeadline.1 w.nextSequence w.Unacked w.Armed ∧
      (w.earliestDeadline.2 = none ↔ ∀ t d, ¬ w.Armed t d) ∧
      (∀ d, w.earliestDeadline.2 = some d →
        (∃ t, w.Armed t d) ∧ ∀ t d', w.Armed t d' → d ≤ d') := by
  obtain ⟨heff, -, hlive⟩ := h.prune
  refine ⟨heff, ?_⟩
  simp only [SenderWindow.earliestDeadline]
  cases htop : Q.top w.prune.timers with
  | none =>
      refine ⟨⟨fun _ t d ha => ?_, fun _ => rfl⟩, fun d hd => by simp at hd⟩
      exact not_armed_of_top_none htop t d ((heff.armed t d).mpr ha)
  | some e =>
      have harmed := (heff.armed _ _).mp (top_armed htop (hlive e htop))
      refine ⟨⟨fun hnone => by simp at hnone, fun hnone => absurd harmed (hnone _ _)⟩, ?_⟩
      rintro d hd
      obtain rfl : e.deadline = d := by simpa using hd
      exact ⟨⟨_, harmed⟩, fun t d' ha => top_earliest htop ((heff.armed t d').mpr ha)⟩

/-- One turn of `expire`: the live timer on top is taken out and its packet disarmed. -/
lemma Inv.expireStep {w : SenderWindow Q} (h : w.Inv) {e : TimerEntry}
    (htop : Q.top w.timers = some e) (hlive : w.isLive e = true) :
    Effect w (w.popTimer.bump e.sequence (w.popTimer.slotFor e.sequence).outstanding)
      w.nextSequence w.Unacked (fun t d => w.Armed t d ∧ t ≠ e.sequence) := by
  have hu : w.Unacked e.sequence := h.toCore.armed_unacked (top_armed htop hlive)
  obtain ⟨hcore, hunacked, harmed⟩ :=
    (h.popTimer htop).toCore.bump hu (w.popTimer.slotFor e.sequence).outstanding
  have hU : ∀ t, (w.popTimer.bump e.sequence
      (w.popTimer.slotFor e.sequence).outstanding).Unacked t ↔ w.Unacked t := by
    intro t
    rw [hunacked]
    exact ⟨fun ht => ht.1, fun ht => ⟨ht, fun _ => hu.2.2⟩⟩
  refine ⟨⟨hcore, fun hb => ?_⟩, rfl, rfl, hU, fun t d => ?_⟩
  · exact ((hU w.base).mpr ⟨le_refl _, hb, h.base_out hb⟩).2.2
  · rw [harmed]
    exact and_congr_left fun hne => popTimer_armed_iff htop fun _ => hne

/-- What `expire now` hands back: the sequence numbers of `ds`, where `ds` lists the timers due,
each once, earliest first. -/
structure Expired (w : SenderWindow Q) (now : TimePoint) (ds : List (ℕ × TimePoint)) : Prop where
  mem_iff : ∀ p, p ∈ ds ↔ w.Armed p.1 p.2 ∧ p.2 ≤ now
  nodup : (ds.map Prod.fst).Nodup
  sorted : ds.Pairwise fun p q => p.2 ≤ q.2

/-- Nothing is due when the earliest timer is not. -/
lemma Inv.expired_nil {w : SenderWindow Q} (h : w.Inv) {now : TimePoint}
    (hnone : ∀ t d, w.Armed t d → now < d) :
    w.Expired now [] ∧ Effect w w w.nextSequence w.Unacked fun t d => w.Armed t d ∧ now < d := by
  refine ⟨⟨fun p => ?_, List.nodup_nil, List.Pairwise.nil⟩, h, rfl, rfl, fun _ => Iff.rfl,
    fun t d => ?_⟩
  · refine ⟨fun hp => absurd hp List.not_mem_nil, fun ⟨ha, hle⟩ => ?_⟩
    exact absurd (hnone _ _ ha) (not_lt.mpr hle)
  · exact ⟨fun ha => ⟨ha, hnone t d ha⟩, fun ha => ha.1⟩

/-- The timer on top goes first in the list of the due ones. -/
lemma Inv.expired_cons {w w' : SenderWindow Q} (h : w.Inv) {e : TimerEntry} {now : TimePoint}
    {ds : List (ℕ × TimePoint)} (htop : Q.top w.timers = some e) (hlive : w.isLive e = true)
    (hdue : e.deadline ≤ now) (harmed : ∀ t d, w'.Armed t d ↔ w.Armed t d ∧ t ≠ e.sequence)
    (hds : w'.Expired now ds) : w.Expired now ((e.sequence, e.deadline) :: ds) where
  mem_iff := by
    rintro ⟨t, d⟩
    rw [List.mem_cons, hds.mem_iff, harmed]
    constructor
    · rintro (heq | ⟨⟨ha, -⟩, hle⟩)
      · obtain ⟨rfl, rfl⟩ := Prod.mk.inj heq
        exact ⟨top_armed htop hlive, hdue⟩
      · exact ⟨ha, hle⟩
    · rintro ⟨ha, hle⟩
      by_cases hte : t = e.sequence
      · subst hte
        exact Or.inl (Prod.ext rfl (h.toCore.armed_unique ha (top_armed htop hlive)))
      · exact Or.inr ⟨⟨ha, hte⟩, hle⟩
  nodup := by
    rw [List.map_cons, List.nodup_cons]
    refine ⟨fun hin => ?_, hds.nodup⟩
    obtain ⟨p, hp, hfst⟩ := List.mem_map.mp hin
    exact ((harmed _ _).mp ((hds.mem_iff p).mp hp).1).2 hfst
  sorted := by
    rw [List.pairwise_cons]
    refine ⟨fun p hp => ?_, hds.sorted⟩
    exact top_earliest htop ((harmed _ _).mp ((hds.mem_iff p).mp hp).1).1

lemma Expired.congr {w w' : SenderWindow Q} {now : TimePoint} {ds : List (ℕ × TimePoint)}
    (h : w'.Expired now ds) (harmed : ∀ t d, w'.Armed t d ↔ w.Armed t d) : w.Expired now ds where
  mem_iff p := (h.mem_iff p).trans (and_congr_left fun _ => harmed _ _)
  nodup := h.nodup
  sorted := h.sorted

lemma Inv.expireLoop {w : SenderWindow Q} (h : w.Inv) (now : TimePoint) {fuel : ℕ}
    (hfuel : Q.size w.timers < fuel) (acc : List ℕ) :
    (∃ ds, (expireLoop now fuel w acc).2 = acc ++ ds.map Prod.fst ∧ w.Expired now ds) ∧
      Effect w (expireLoop now fuel w acc).1 w.nextSequence w.Unacked
        (fun t d => w.Armed t d ∧ now < d) := by
  -- Induction on the fuel; each turn prunes, and then either stops or takes the top timer.
  induction fuel generalizing w acc with
  | zero => exact absurd hfuel (Nat.not_lt_zero _)
  | succ fuel ih =>
      obtain ⟨hprune, hsize, hlive⟩ := h.prune
      have hstop : (∀ t d, w.prune.Armed t d → now < d) →
          (∃ ds, acc = acc ++ ds.map Prod.fst ∧ w.Expired now ds) ∧
            Effect w w.prune w.nextSequence w.Unacked (fun t d => w.Armed t d ∧ now < d) := by
        intro hnone
        obtain ⟨hexp, heff⟩ := hprune.inv.expired_nil hnone
        refine ⟨⟨[], (List.append_nil _).symm, hexp.congr hprune.armed⟩, heff.inv,
          hprune.capacity_eq, hprune.next_eq, hprune.unacked, fun t d => ?_⟩
        exact (heff.armed t d).trans (and_congr_left fun _ => hprune.armed t d)
      rw [SenderWindow.expireLoop]
      cases htop : Q.top w.prune.timers with
      | none =>
          exact hstop fun t d ha => absurd ha (not_armed_of_top_none htop t d)
      | some e =>
          simp only
          split_ifs with hlate
          · exact hstop fun t d ha => lt_of_lt_of_le hlate (top_earliest htop ha)
          · have hstep := hprune.inv.expireStep htop (hlive e htop)
            have hpop := Q.size_pop htop
            obtain ⟨⟨ds, hout, hexp⟩, heff⟩ := ih hstep.inv
              (by exact (by omega : Q.size (Q.pop w.prune.timers) < fuel)) (acc ++ [e.sequence])
            refine ⟨⟨(e.sequence, e.deadline) :: ds, ?_, ?_⟩, heff.inv,
              heff.capacity_eq.trans (hstep.capacity_eq.trans hprune.capacity_eq),
              heff.next_eq.trans (hstep.next_eq.trans hprune.next_eq),
              fun t => (heff.unacked t).trans ((hstep.unacked t).trans (hprune.unacked t)),
              fun t d => ?_⟩
            · exact hout.trans (by simp)
            · exact (hprune.inv.expired_cons htop (hlive e htop) (not_lt.mp hlate) hstep.armed
                hexp).congr hprune.armed
            · refine (heff.armed t d).trans ?_
              rw [hstep.armed, hprune.armed]
              refine ⟨fun ⟨⟨ha, _⟩, hlt⟩ => ⟨ha, hlt⟩, fun ⟨ha, hlt⟩ => ⟨⟨ha, ?_⟩, hlt⟩⟩
              -- a timer still in the future is not the one just taken
              rintro rfl
              have heq := hprune.inv.toCore.armed_unique ((hprune.armed _ _).mpr ha)
                (top_armed htop (hlive e htop))
              exact hlate (heq ▸ hlt)

/-- **Expiring.** -/
lemma Inv.expire {w : SenderWindow Q} (h : w.Inv) (now : TimePoint) :
    (∃ ds, (w.expire now).2 = ds.map Prod.fst ∧ w.Expired now ds) ∧
      Effect w (w.expire now).1 w.nextSequence w.Unacked
        (fun t d => w.Armed t d ∧ now < d) := by
  have hloop := h.expireLoop now (Nat.lt_succ_self (Q.size w.timers)) []
  simpa only [SenderWindow.expire, List.nil_append] using hloop

end SenderWindow

end SwiftLink
