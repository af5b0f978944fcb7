import SwiftLink.Tools.DelayProxy
import Mathlib.Data.List.Flatten
import Mathlib.Data.List.Induction
import Mathlib.Data.Multiset.Filter
import Mathlib.Algebra.Order.Group.Unbundled.Int

/-!
# Order and counters of the proxy

With `--reorder=0` the proxy keeps the order of arrival in each direction.  Every datagram waits for
the same delay, so with a clock that never goes back the heap's order is the order of arrival, and
the counter settles the datagrams of one tick.  A datagram and its duplicate are due together, so a
run of the release loop ends between two arrivals and never inside one.

The counters need none of that.  They agree with what went in and out under any impairment, and once
the heap is empty the client-to-server direction balances.
-/

namespace SwiftLink

/-! ## What a run shows -/

/-- The datagrams an arrival is to leave the proxy as. -/
def Passage.copies (p : Passage) : List Bytes := p.queued.map Pending.bytes

/-- The datagram itself, and where it came from. -/
def Passage.came (p : Passage) : Way × ProxyArrival := (p.way, p.arrival)

/-- The clock as `accept` reads it when nothing is reordered.  Where the source reads it less often,
for a datagram that is dropped, any value in between will do. -/
def ProxyArrival.readings (a : ProxyArrival) : List ℤ := [a.activity, a.queuedAt]

namespace ProxyEvent

/-- The datagrams a turn of the loop takes in. -/
def arrivals : ProxyEvent → List (Way × ProxyArrival)
  | .ready front back _ _ =>
      (front.map (Way.toServer, ·)).toList ++ (back.map (Way.toClient, ·)).toList
  | _ => []

/-- The clock as a turn of the loop reads it. -/
def readings : ProxyEvent → List ℤ
  | .ready front back now idle =>
      front.elim [] ProxyArrival.readings ++ back.elim [] ProxyArrival.readings ++ [now, idle]
  | _ => []

end ProxyEvent

/-- The two byte strings differ in exactly one bit. -/
def OneBitApart (sent received : Bytes) : Prop :=
  sent.length = received.length ∧
    ∃! i, i < 8 * sent.length ∧ BitString.bitAt sent i ≠ BitString.bitAt received i

namespace ProxyRun

variable {Q : ProxyQueue}

/-- The arrivals of one direction, in order. -/
def arrived (r : ProxyRun Q) (way : Way) : List Passage :=
  r.passages.filter (·.way = way)

/-- The datagrams sent on in one direction, in order. -/
def sent (r : ProxyRun Q) (way : Way) : List Bytes :=
  (r.forwarded.filter (·.way = way)).map Forwarded.bytes

end ProxyRun

/-! ## One arrival -/

variable {Q : ProxyQueue}

/-- What is queued for an arrival: nothing, one copy or two, on one schedule, as it came or with one
bit inverted. -/
inductive Passage.Sound : Passage → Prop
  | dropped (way : Way) (a : ProxyArrival) : Sound ⟨way, a, []⟩
  | queued (way : Way) (a : ProxyArrival) (release : ℤ) (order : ℕ) (bytes : Bytes)
      (duplicated : Bool) (hbytes : bytes = a.bytes ∨ OneBitApart a.bytes bytes) :
      Sound ⟨way, a, ⟨release, order, way, bytes⟩ ::
        if duplicated then [⟨release, order + 1, way, bytes⟩] else []⟩

/-- What is queued for an arrival goes its way. -/
lemma Passage.Sound.way_of_mem {p : Passage} (h : p.Sound) {item : Pending}
    (hitem : item ∈ p.queued) : item.way = p.way := by
  cases h with
  | dropped way a => simp at hitem
  | queued way a release order bytes duplicated hbytes =>
      cases duplicated <;> simp at hitem <;> rcases hitem with rfl | rfl <;> rfl

/-- Copies of one arrival are due together. -/
lemma Passage.Sound.due_together {p : Passage} (h : p.Sound) (now : ℤ) :
    (∀ item ∈ p.queued, decide (item.release ≤ now) = true) ∨
      ∀ item ∈ p.queued, ¬ decide (item.release ≤ now) = true := by
  cases h with
  | dropped way a => simp
  | queued way a release order bytes duplicated hbytes =>
      by_cases hdue : release ≤ now
      · left
        cases duplicated <;> simp [hdue]
      · right
        cases duplicated <;> simpa using hdue

/-- A flip leaves the string one bit apart from what it was. -/
lemma oneBitApart_flipBit {bytes : Bytes} {i : ℕ} (hi : i < 8 * bytes.length) :
    OneBitApart bytes (BitString.flipBit bytes i) := by
  refine ⟨(BitString.flipBit_length bytes i).symm, i, ⟨hi, ?_⟩, ?_⟩
  · show BitString.bitAt bytes i ≠ BitString.bitAt (BitString.flipBit bytes i) i
    rw [BitString.bitAt_flipBit hi]
    simp
  · rintro j ⟨-, hj⟩
    rw [BitString.bitAt_flipBit hi] at hj
    by_contra hne
    simp [hne] at hj

lemma OneBitApart.ne {sent received : Bytes} (h : OneBitApart sent received) : received ≠ sent := by
  rintro rfl
  obtain ⟨-, i, ⟨-, hi⟩, -⟩ := h
  exact hi rfl

/-- **What is queued for an arrival is sound**, with a schedule of its own. -/
lemma accept_sound (config : ProxyConfig) (way : Way) (a : ProxyArrival) (s : Proxy Q) :
    (s.accept config way a).2.Sound := by
  have htreated := treat_treated config way a (s.bad way) s.arrivalCounter (s.stats way)
  simp only [Proxy.accept]
  generalize treat config way a (s.bad way) s.arrivalCounter (s.stats way) = treatment at htreated
  cases htreated with
  | dropped bad burst => exact .dropped way a
  | queued bad corrupted reordered duplicated bytes release hbytes hcorrupted _ _ =>
      refine .queued way a release s.arrivalCounter bytes duplicated ?_
      cases corrupted with
      | false => exact .inl (hbytes rfl)
      | true =>
          obtain ⟨i, hi, rfl⟩ := hcorrupted rfl
          exact .inr (oneBitApart_flipBit hi)

/-! ## Runs -/

namespace ProxyRun

/-- One turn of the release loop. -/
def releaseItem (item : Pending) (r : ProxyRun Q) : ProxyRun Q :=
  let released := r.proxy.releaseItem item
  { proxy := released.1, passages := r.passages, forwarded := r.forwarded ++ released.2 }

/-- The release loop, with what it sends kept. -/
def releaseLoop (now : ℤ) (fuel : ℕ) (r : ProxyRun Q) : ProxyRun Q :=
  let released := r.proxy.releaseLoop now fuel
  { proxy := released.1, passages := r.passages, forwarded := r.forwarded ++ released.2 }

lemma releaseLoop_zero (now : ℤ) (r : ProxyRun Q) : r.releaseLoop now 0 = r := by
  simp [releaseLoop, Proxy.releaseLoop]

lemma releaseLoop_succ (now : ℤ) (fuel : ℕ) (r : ProxyRun Q) :
    r.releaseLoop now (fuel + 1) =
      match Q.top r.proxy.queue with
      | none => r
      | some item =>
          if item.release ≤ now then (r.releaseItem item).releaseLoop now fuel else r := by
  rw [releaseLoop, Proxy.releaseLoop]
  cases Q.top r.proxy.queue with
  | none => simp
  | some item =>
      by_cases hdue : item.release ≤ now
      · simp [hdue, releaseLoop, releaseItem]
      · simp [hdue]

/-- What every turn of the release loop preserves, the loop preserves. -/
lemma release_invariant {P : ProxyRun Q → Prop}
    (hitem : ∀ r item, Q.top r.proxy.queue = some item → P r → P (r.releaseItem item))
    (now : ℤ) (r : ProxyRun Q) (h : P r) : P (r.release now) := by
  have hloop : ∀ fuel (r : ProxyRun Q), P r → P (r.releaseLoop now fuel) := by
    intro fuel
    induction fuel with
    | zero =>
        intro r h
        rw [releaseLoop_zero]
        exact h
    | succ fuel ih =>
        intro r h
        rw [releaseLoop_succ]
        cases htop : Q.top r.proxy.queue with
        | none => exact h
        | some item =>
            show P (if item.release ≤ now then (r.releaseItem item).releaseLoop now fuel else r)
            split
            · exact ih _ (hitem r item htop h)
            · exact h
  exact hloop _ r h

/-- **The induction over a run**: a property of the run so far and of the clock readings so far
holds after every run, if taking in a datagram and releasing what is due preserve it.  `R` is what
is known of the clock. -/
lemma after_invariant {R : ℤ → ℤ → Prop} {P : List ℤ → ProxyRun Q → Prop} {config : ProxyConfig}
    {started : ℤ} (hinit : P [] { proxy := Proxy.init Q started })
    (hmore : ∀ past more r, P past r → P (past ++ more) r)
    (hflags : ∀ past r known running, P past r → P past (r.flags known running))
    (haccept : ∀ past r way a, (past ++ a.readings).Pairwise R → P past r →
      P (past ++ a.readings) (r.accept config way a))
    (hrelease : ∀ past r now, P past r → P past (r.release now))
    (events : List ProxyEvent) (hclock : (events.flatMap ProxyEvent.readings).Pairwise R) :
    P (events.flatMap ProxyEvent.readings) (after Q config started events) := by
  induction events using List.reverseRecOn with
  | nil => exact hinit
  | append_singleton events event ih =>
      rw [List.flatMap_append, List.flatMap_singleton] at hclock ⊢
      rw [after_concat]
      have hbefore := ih (List.pairwise_append.mp hclock).1
      generalize events.flatMap ProxyEvent.readings = past at hclock hbefore ⊢
      generalize after Q config started events = r at hbefore ⊢
      have hnext := next_next config r event
      generalize r.next config event = r' at hnext ⊢
      cases hnext with
      | idle event running => exact hmore _ _ _ (hflags _ _ _ _ hbefore)
      | @ready front back now idle known running r₁ r₂ hfront hback hknown =>
          simp only [ProxyEvent.readings, ← List.append_assoc] at hclock ⊢
          have hclock₂ := (List.pairwise_append.mp hclock).1
          have hclock₁ := (List.pairwise_append.mp hclock₂).1
          have h₁ : P (past ++ front.elim [] ProxyArrival.readings) r₁ := by
            cases front with
            | none =>
                obtain rfl := hfront
                exact hmore _ _ _ hbefore
            | some a =>
                obtain rfl := hfront
                exact haccept _ _ _ a hclock₁ (hflags _ _ _ _ hbefore)
          have h₂ : P (past ++ front.elim [] ProxyArrival.readings
              ++ back.elim [] ProxyArrival.readings) r₂ := by
            cases back with
            | none =>
                obtain rfl := hback
                exact hmore _ _ _ h₁
            | some a =>
                obtain rfl := hback
                exact haccept _ _ _ a hclock₂ h₁
          exact hmore _ _ _ (hflags _ _ _ _ (hrelease _ _ now h₂))

end ProxyRun

/-! ## The counters -/

/-- **What the counters of a direction say**, beside what came in and what went out. -/
structure DirectionStats.Reflects (stats : DirectionStats) (arrived : List Passage)
    (sent : List Bytes) : Prop where
  received : stats.received = arrived.length
  forwarded : stats.forwarded = sent.length
  dropped : stats.dropped = arrived.countP fun p => p.copies = []
  burstDropped : stats.burstDropped ≤ stats.dropped
  duplicated : stats.duplicated = arrived.countP fun p => p.copies.length = 2
  corrupted : stats.corrupted = arrived.countP fun p => ∃ b ∈ p.copies, b ≠ p.arrival.bytes

lemma DirectionStats.Reflects.treated {stats : DirectionStats} {arrived : List Passage}
    {sent : List Bytes} (h : stats.Reflects arrived sent) {config : ProxyConfig} {way : Way}
    {a : ProxyArrival} {counter : ℕ} {treatment : Treatment}
    (htreated : Treated config way a counter stats treatment) :
    treatment.stats.Reflects (arrived ++ [⟨way, a, treatment.queued⟩]) sent := by
  have hburst := h.burstDropped
  cases htreated with
  | dropped bad burst =>
      have hone := burst.toNat_le
      constructor
      · simp [h.received]
      · exact h.forwarded
      · simp [h.dropped, Passage.copies]
      · show stats.burstDropped + burst.toNat ≤ stats.dropped + 1
        omega
      · simp [h.duplicated, Passage.copies]
      · simp [h.corrupted, Passage.copies]
  | queued bad corrupted reordered duplicated bytes release hbytes hcorrupted _ _ =>
      have hchanged : bytes ≠ a.bytes ↔ corrupted = true := by
        cases corrupted with
        | false => simp [hbytes rfl]
        | true =>
            obtain ⟨i, hi, rfl⟩ := hcorrupted rfl
            simp [(oneBitApart_flipBit hi).ne]
      constructor
      · simp [h.received]
      · exact h.forwarded
      · simp [h.dropped, Passage.copies]
      · exact hburst
      · cases duplicated <;> simp [h.duplicated, Passage.copies]
      · cases duplicated <;> cases corrupted <;>
          simp_all [h.corrupted, Passage.copies]

/-- A run of the same datagram: none, one, or two in a row, whole or one bit apart. -/
lemma Passage.Sound.copies_eq {p : Passage} (h : p.Sound) :
    ∃ b, (b = p.arrival.bytes ∨ OneBitApart p.arrival.bytes b) ∧
      (p.copies = [] ∨ p.copies = [b] ∨ p.copies = [b, b]) := by
  cases h with
  | dropped way a => exact ⟨a.bytes, .inl rfl, .inl rfl⟩
  | queued way a release order bytes duplicated hbytes =>
      refine ⟨bytes, hbytes, .inr ?_⟩
      cases duplicated with
      | false => exact .inl rfl
      | true => exact .inr rfl

/-- An arrival leaves no copy, one, or two. -/
lemma Passage.Sound.length_copies {p : Passage} (h : p.Sound) :
    p.copies.length + (if p.copies = [] then 1 else 0)
      = 1 + if p.copies.length = 2 then 1 else 0 := by
  cases h with
  | dropped way a => rfl
  | queued way a release order bytes duplicated hbytes => cases duplicated <;> rfl

/-- **Arrivals, copies and drops balance.** -/
lemma length_copies_add_dropped {passages : List Passage} (h : ∀ p ∈ passages, p.Sound) :
    (passages.flatMap Passage.copies).length + passages.countP (fun p => p.copies = [])
      = passages.length + passages.countP fun p => p.copies.length = 2 := by
  induction passages with
  | nil => rfl
  | cons p passages ih =>
      have hrest := ih fun q hq => h q (List.mem_cons_of_mem p hq)
      have hone := (h p List.mem_cons_self).length_copies
      simp only [List.flatMap_cons, List.length_append, List.length_cons, List.countP_cons,
        decide_eq_true_eq]
      omega

/-- **Nothing is lost or made up towards the server**: what arrived and was kept has been sent on or
waits. -/
def ProxyRun.Balanced (r : ProxyRun Q) : Prop :=
  ((r.arrived .toServer).flatMap Passage.copies : Multiset Bytes)
    = (r.sent .toServer : Multiset Bytes)
      + ((Q.contents r.proxy.queue).filter (·.way = .toServer)).map Pending.bytes

/-- **The counters are honest.** -/
structure ProxyRun.Honest (r : ProxyRun Q) : Prop where
  sound : ∀ p ∈ r.passages, p.Sound
  counted : ∀ way, (r.proxy.stats way).Reflects (r.arrived way) (r.sent way)
  balanced : r.Balanced

namespace ProxyRun

lemma arrived_accept (config : ProxyConfig) (way : Way) (a : ProxyArrival) (r : ProxyRun Q)
    (of : Way) :
    (r.accept config way a).arrived of
      = r.arrived of ++ if way = of then [(r.proxy.accept config way a).2] else [] := by
  rw [arrived, accept, List.filter_append, List.filter_singleton]
  by_cases hway : way = of
  · simp [arrived, Proxy.accept, hway]
  · simp [arrived, Proxy.accept, hway]

/-- What goes towards the server of what is queued for an arrival. -/
lemma filter_queued (config : ProxyConfig) (way : Way) (a : ProxyArrival) (s : Proxy Q) :
    (s.accept config way a).2.queued.filter (·.way = .toServer)
      = if way = .toServer then (s.accept config way a).2.queued else [] := by
  have hways : ∀ item ∈ (s.accept config way a).2.queued, item.way = way :=
    fun item => (accept_sound config way a s).way_of_mem
  by_cases hway : way = .toServer
  · rw [if_pos hway, List.filter_eq_self]
    intro item hitem
    simpa [hway] using hways item hitem
  · rw [if_neg hway, List.filter_eq_nil_iff]
    intro item hitem
    simpa [hways item hitem] using hway

lemma Honest.accept {r : ProxyRun Q} (h : r.Honest) (config : ProxyConfig) (way : Way)
    (a : ProxyArrival) : (r.accept config way a).Honest := by
  constructor
  · intro p hp
    rcases List.mem_append.mp hp with hp | hp
    · exact h.sound p hp
    · obtain rfl := List.mem_singleton.mp hp
      exact accept_sound config way a r.proxy
  · intro of
    rw [arrived_accept]
    by_cases hway : way = of
    · subst hway
      rw [if_pos rfl]
      have htreated := (h.counted way).treated
        (treat_treated config way a (r.proxy.bad way) r.proxy.arrivalCounter (r.proxy.stats way))
      simpa [ProxyRun.accept, Proxy.accept, sent] using htreated
    · rw [if_neg hway, List.append_nil]
      simpa [ProxyRun.accept, Proxy.accept, sent, Function.update_of_ne (Ne.symm hway)]
        using h.counted of
  · have hbefore := h.balanced
    have hqueue : Q.contents (r.accept config way a).proxy.queue
        = Q.contents r.proxy.queue + ((r.proxy.accept config way a).2.queued : Multiset Pending) :=
      Q.contents_foldl_push _ _
    rw [Balanced] at hbefore ⊢
    rw [arrived_accept, hqueue, Multiset.filter_add, Multiset.filter_coe, filter_queued,
      Multiset.map_add, List.flatMap_append, ← Multiset.coe_add, hbefore, Multiset.add_assoc]
    congr 2
    split
    · simp [Passage.copies]
    · rfl

lemma sent_releaseItem (item : Pending) (r : ProxyRun Q) (of : Way) :
    (r.releaseItem item).sent of = r.sent of
      ++ if item.way = of ∧ (item.way = .toServer ∨ r.proxy.clientKnown) then [item.bytes]
        else [] := by
  by_cases hsent : item.way = .toServer ∨ r.proxy.clientKnown = true
  · by_cases hway : item.way = of
    · subst hway
      simp [sent, releaseItem, Proxy.releaseItem, hsent]
    · simp [sent, releaseItem, Proxy.releaseItem, hsent, hway]
  · simp [sent, releaseItem, Proxy.releaseItem, hsent]

lemma stats_releaseItem (item : Pending) (r : ProxyRun Q) (of : Way) :
    (r.releaseItem item).proxy.stats of =
      if item.way = of ∧ (item.way = .toServer ∨ r.proxy.clientKnown) then
        { r.proxy.stats of with forwarded := (r.proxy.stats of).forwarded + 1 }
      else r.proxy.stats of := by
  by_cases hsent : item.way = .toServer ∨ r.proxy.clientKnown = true
  · by_cases hway : item.way = of
    · subst hway
      simp [releaseItem, Proxy.releaseItem, hsent]
    · simp [releaseItem, Proxy.releaseItem, hsent, hway, Function.update_of_ne (Ne.symm hway)]
  · simp [releaseItem, Proxy.releaseItem, hsent]

lemma queue_releaseItem (item : Pending) (r : ProxyRun Q) :
    (r.releaseItem item).proxy.queue = Q.pop r.proxy.queue := by
  simp only [releaseItem, Proxy.releaseItem]
  split <;> rfl

lemma Honest.releaseItem {r : ProxyRun Q} (h : r.Honest) {item : Pending}
    (htop : Q.top r.proxy.queue = some item) : (r.releaseItem item).Honest := by
  constructor
  · exact h.sound
  · intro of
    have hbefore := h.counted of
    rw [stats_releaseItem, sent_releaseItem]
    split
    · exact { hbefore with forwarded := by simp [hbefore.forwarded] }
    · rw [List.append_nil]
      exact hbefore
  · have hbefore := h.balanced
    rw [Balanced, Q.contents_pop _ _ htop, Multiset.filter_cons] at hbefore
    rw [Balanced, queue_releaseItem, sent_releaseItem]
    refine hbefore.trans ?_
    by_cases hway : item.way = .toServer
    · simp [hway, ← Multiset.coe_add, Multiset.add_assoc]
    · simp [hway]

/-- Once the heap is empty everything that was kept has been sent on, in some order. -/
lemma Honest.sent_perm {r : ProxyRun Q} (h : r.Honest) (hempty : Q.size r.proxy.queue = 0) :
    ((r.arrived .toServer).flatMap Passage.copies).Perm (r.sent .toServer) := by
  have hbalanced := h.balanced
  rw [Balanced, Multiset.card_eq_zero.mp hempty, Multiset.filter_zero, Multiset.map_zero,
    Multiset.add_zero] at hbalanced
  exact Multiset.coe_eq_coe.mp hbalanced

/-- **The counters of every run are honest**, whatever the impairment and the clock. -/
lemma after_honest (config : ProxyConfig) (started : ℤ) (events : List ProxyEvent) :
    (after Q config started events).Honest := by
  refine after_invariant (R := fun _ _ => True) (P := fun _ r => r.Honest) ?_
    (fun _ _ _ h => h) (fun _ r known running h => ?_) (fun _ _ way a _ h => h.accept config way a)
    (fun _ r now h => release_invariant (fun _ _ htop h => h.releaseItem htop) now r h) events
    (List.pairwise_of_forall fun _ _ => trivial)
  · constructor
    · simp
    · intro way
      constructor <;> simp [Proxy.init, arrived, sent]
    · simp [Balanced, Proxy.init, arrived, sent, Q.contents_empty]
  · exact ⟨h.sound, h.counted, h.balanced⟩

end ProxyRun

/-! ## Order -/

/-- Due no earlier and arrived later is below in the heap. -/
lemma Pending.below_of_later {p q : Pending} (hrelease : p.release ≤ q.release)
    (horder : p.order < q.order) : q.Below p := by
  rw [Pending.Below]
  split
  · omega
  · exact horder

section Groups

variable {α β : Type} {f : α → List β} {p : β → Bool} {groups : List α}

/-- Where the members of a group agree, a list of groups is cut between two groups. -/
lemma takeWhile_flatMap (h : ∀ g ∈ groups, (∀ b ∈ f g, p b) ∨ ∀ b ∈ f g, ¬ p b) :
    (groups.flatMap f).takeWhile p = (groups.takeWhile fun g => (f g).all p).flatMap f := by
  induction groups with
  | nil => rfl
  | cons g groups ih =>
      have hrest := ih fun g' hg' => h g' (List.mem_cons_of_mem g hg')
      rw [List.flatMap_cons, List.takeWhile_cons]
      rcases h g List.mem_cons_self with hall | hnone
      · rw [List.takeWhile_append_of_pos hall, hrest, if_pos (List.all_eq_true.mpr hall),
          List.flatMap_cons]
      · cases hgroup : f g with
        | nil => simp [hgroup, hrest]
        | cons b bs =>
            have hb : ¬ p b := hnone b (hgroup ▸ List.mem_cons_self)
            rw [List.cons_append, List.takeWhile_cons_of_neg hb]
            simp [hb]

lemma dropWhile_flatMap (h : ∀ g ∈ groups, (∀ b ∈ f g, p b) ∨ ∀ b ∈ f g, ¬ p b) :
    (groups.flatMap f).dropWhile p = (groups.dropWhile fun g => (f g).all p).flatMap f := by
  have hwhole : (groups.flatMap f).takeWhile p ++ (groups.flatMap f).dropWhile p
      = (groups.takeWhile fun g => (f g).all p).flatMap f
        ++ (groups.dropWhile fun g => (f g).all p).flatMap f := by
    rw [List.takeWhile_append_dropWhile, ← List.flatMap_append, List.takeWhile_append_dropWhile]
  rw [takeWhile_flatMap h] at hwhole
  exact List.append_cancel_left hwhole

end Groups

namespace ProxyRun

lemma arrivalCounter_releaseItem (item : Pending) (r : ProxyRun Q) :
    (r.releaseItem item).proxy.arrivalCounter = r.proxy.arrivalCounter := by
  simp only [releaseItem, Proxy.releaseItem]
  split <;> rfl

lemma clientKnown_releaseItem (item : Pending) (r : ProxyRun Q) :
    (r.releaseItem item).proxy.clientKnown = r.proxy.clientKnown := by
  simp only [releaseItem, Proxy.releaseItem]
  split <;> rfl

/-- What one direction sees of the entries that are due. -/
def leaving (known : Bool) (of : Way) (items : List Pending) : List Bytes :=
  (items.filter fun p => p.way = of ∧ (p.way = .toServer ∨ known)).map Pending.bytes

lemma leaving_cons (known : Bool) (of : Way) (item : Pending) (items : List Pending) :
    leaving known of (item :: items)
      = (if item.way = of ∧ (item.way = .toServer ∨ known) then [item.bytes] else [])
        ++ leaving known of items := by
  rw [leaving, List.filter_cons]
  by_cases hgoes : item.way = of ∧ (item.way = .toServer ∨ known = true)
  · rw [if_pos hgoes, if_pos (decide_eq_true hgoes)]
    rfl
  · rw [if_neg hgoes, if_neg (by simpa using hgoes)]
    rfl

/-- What one direction sees of whole arrivals: their copies, in order, if it has a receiver. -/
lemma leaving_flatMap (known : Bool) (of : Way) {passages : List Passage}
    (h : ∀ p ∈ passages, p.Sound) :
    leaving known of (passages.flatMap Passage.queued)
      = if of = .toServer ∨ known then (passages.filter (·.way = of)).flatMap Passage.copies
        else [] := by
  have hone : ∀ p ∈ passages, leaving known of p.queued
      = if p.way = of ∧ (of = .toServer ∨ known) then p.copies else [] := by
    intro p hp
    have hways : ∀ item ∈ p.queued, item.way = p.way := fun item => (h p hp).way_of_mem
    by_cases hgoes : p.way = of ∧ (of = .toServer ∨ known = true)
    · rw [if_pos hgoes, leaving, List.filter_eq_self.mpr]
      · rfl
      · intro item hitem
        simpa [hways item hitem, hgoes.1] using hgoes.2
    · rw [if_neg hgoes, leaving, List.filter_eq_nil_iff.mpr]
      · rfl
      · intro item hitem
        rw [decide_eq_true_eq, hways item hitem]
        rintro ⟨rfl, hreceiver⟩
        exact hgoes ⟨rfl, hreceiver⟩
  induction passages with
  | nil => simp [leaving]
  | cons p passages ih =>
      have hrest := ih (fun q hq => h q (List.mem_cons_of_mem p hq))
        fun q hq => hone q (List.mem_cons_of_mem p hq)
      have happend : leaving known of (p.queued ++ passages.flatMap Passage.queued)
          = leaving known of p.queued ++ leaving known of (passages.flatMap Passage.queued) := by
        rw [leaving, List.filter_append, List.map_append]
        rfl
      rw [List.flatMap_cons, happend, hrest, hone p List.mem_cons_self, List.filter_cons]
      by_cases hgoes : of = .toServer ∨ known = true
      · by_cases hway : p.way = of
        · simp [hgoes, hway]
        · simp [hgoes, hway]
      · simp [hgoes]

/-- **The release loop over a heap in strict order** sends the entries that are due, in that order,
and leaves the rest. -/
lemma releaseLoop_sorted (now : ℤ) {fuel : ℕ} {items : List Pending} {r : ProxyRun Q}
    (hqueue : Q.contents r.proxy.queue = (items : Multiset Pending))
    (hsorted : items.Pairwise fun p q => q.Below p) (hfuel : items.length ≤ fuel) :
    Q.contents (r.releaseLoop now fuel).proxy.queue
        = (items.dropWhile (·.release ≤ now) : List Pending) ∧
      (r.releaseLoop now fuel).proxy.arrivalCounter = r.proxy.arrivalCounter ∧
      ∀ of, (r.releaseLoop now fuel).sent of
        = r.sent of ++ leaving r.proxy.clientKnown of (items.takeWhile (·.release ≤ now)) := by
  induction fuel generalizing items r with
  | zero =>
      obtain rfl := List.length_eq_zero_iff.mp (Nat.le_zero.mp hfuel)
      rw [releaseLoop_zero]
      exact ⟨hqueue, rfl, fun of => (List.append_nil _).symm⟩
  | succ fuel ih =>
      rw [releaseLoop_succ]
      cases items with
      | nil =>
          rw [Q.top_of_nil hqueue]
          exact ⟨hqueue, rfl, fun of => (List.append_nil _).symm⟩
      | cons item items =>
          obtain ⟨hhead, hrest⟩ := List.pairwise_cons.mp hsorted
          obtain ⟨htop, hpop⟩ := Q.top_of_sorted hqueue hhead
          rw [htop]
          by_cases hdue : item.release ≤ now
          · rw [← queue_releaseItem item r] at hpop
            obtain ⟨hcontents, hcounter, hsent⟩ := ih hpop hrest (Nat.le_of_succ_le_succ hfuel)
            simp only [hdue, if_true]
            refine ⟨?_, hcounter.trans (arrivalCounter_releaseItem item r), fun of => ?_⟩
            · rw [List.dropWhile_cons_of_pos (by simpa using hdue)]
              exact hcontents
            · rw [hsent, sent_releaseItem, clientKnown_releaseItem, List.append_assoc,
                List.takeWhile_cons_of_pos (by simpa using hdue)]
              rw [leaving_cons]
          · simp only [hdue, if_false]
            rw [List.takeWhile_cons_of_neg (by simpa using hdue),
              List.dropWhile_cons_of_neg (by simpa using hdue)]
            exact ⟨hqueue, trivial, fun of => (List.append_nil _).symm⟩

/-- What is queued for an arrival that is not reordered: due a delay after it, numbered from the
counter on. -/
lemma queued_of_not_reordered {config : ProxyConfig} (hreorder : config.impairment.reorder = 0)
    (way : Way) (a : ProxyArrival) (s : Proxy Q) :
    (s.accept config way a).2.queued.Pairwise (fun p q => q.Below p) ∧
      ∀ p ∈ (s.accept config way a).2.queued, p.release = a.queuedAt + config.delay ∧
        s.arrivalCounter ≤ p.order ∧ p.order < (s.accept config way a).1.arrivalCounter := by
  have htreated := treat_treated config way a (s.bad way) s.arrivalCounter (s.stats way)
  simp only [Proxy.accept]
  generalize treat config way a (s.bad way) s.arrivalCounter (s.stats way) = treatment at htreated
  cases htreated with
  | dropped bad burst => simp
  | queued bad corrupted reordered duplicated bytes release _ _ hrelease hreordered =>
      have hsame : release = a.queuedAt + config.delay := by
        cases reordered with
        | false => exact hrelease rfl
        | true => exact absurd (hreordered rfl) (by simp [hreorder])
      cases duplicated with
      | false => simp [hsame]
      | true =>
          refine ⟨?_, by simp [hsame]⟩
          simp only [if_true, List.pairwise_cons, List.mem_singleton, forall_eq]
          exact ⟨Pending.below_of_later le_rfl (Nat.lt_succ_self _), by simp, List.Pairwise.nil⟩

/-- **The run is in order**: the arrivals fall into those that are done and those that wait, the
heap holds the copies of the latter in strict order, and each direction has seen those of the
former. Arrivals for a client not yet known are done without being seen. -/
structure InOrder (delay : ℤ) (past : List ℤ) (r : ProxyRun Q)
    (done waiting served : List Passage) : Prop where
  passages : r.passages = done ++ waiting
  sound : ∀ p ∈ waiting, p.Sound
  queue : Q.contents r.proxy.queue = (waiting.flatMap Passage.queued : List Pending)
  sorted : (waiting.flatMap Passage.queued).Pairwise fun p q => q.Below p
  earlier : ∀ p ∈ waiting.flatMap Passage.queued,
    p.order < r.proxy.arrivalCounter ∧ ∃ t ∈ past, p.release = t + delay
  toServer : r.sent .toServer = (done.filter (·.way = .toServer)).flatMap Passage.copies
  served_sublist : served.Sublist (done.filter (·.way = .toClient))
  toClient : r.sent .toClient = served.flatMap Passage.copies

lemma InOrder.accept {config : ProxyConfig} (hreorder : config.impairment.reorder = 0)
    {past : List ℤ} {r : ProxyRun Q} {done waiting served : List Passage}
    (h : InOrder config.delay past r done waiting served) (way : Way) (a : ProxyArrival)
    (hclock : ∀ t ∈ past, t ≤ a.queuedAt) :
    InOrder config.delay (past ++ a.readings) (r.accept config way a) done
      (waiting ++ [(r.proxy.accept config way a).2]) served := by
  obtain ⟨hown, hqueued⟩ := queued_of_not_reordered hreorder way a r.proxy
  have hmore : r.proxy.arrivalCounter ≤ (r.proxy.accept config way a).1.arrivalCounter :=
    Nat.le_add_right _ _
  constructor
  · show r.passages ++ _ = _
    rw [h.passages, List.append_assoc]
  · intro p hp
    rcases List.mem_append.mp hp with hp | hp
    · exact h.sound p hp
    · obtain rfl := List.mem_singleton.mp hp
      exact accept_sound config way a r.proxy
  · rw [List.flatMap_append, List.flatMap_singleton, ← Multiset.coe_add, ← h.queue]
    exact Q.contents_foldl_push _ _
  · rw [List.flatMap_append, List.flatMap_singleton, List.pairwise_append]
    refine ⟨h.sorted, hown, fun p hp q hq => ?_⟩
    -- what waits was numbered before, and is due a delay after an earlier reading
    obtain ⟨hcounter, t, ht, hrelease⟩ := h.earlier p hp
    obtain ⟨hlater, horder, -⟩ := hqueued q hq
    have hforward := hclock t ht
    exact Pending.below_of_later (by omega) (by omega)
  · intro p hp
    rw [List.flatMap_append, List.flatMap_singleton, List.mem_append] at hp
    rcases hp with hp | hp
    · obtain ⟨hcounter, t, ht, hrelease⟩ := h.earlier p hp
      exact ⟨Nat.lt_of_lt_of_le hcounter hmore, t, List.mem_append_left _ ht, hrelease⟩
    · obtain ⟨hrelease, -, hcounter⟩ := hqueued p hp
      have hread : a.queuedAt ∈ past ++ a.readings := by simp [ProxyArrival.readings]
      exact ⟨hcounter, a.queuedAt, hread, hrelease⟩
  · exact h.toServer
  · exact h.served_sublist
  · exact h.toClient

lemma InOrder.release {delay : ℤ} {past : List ℤ} {r : ProxyRun Q}
    {done waiting served : List Passage} (h : InOrder delay past r done waiting served) (now : ℤ) :
    ∃ done waiting served, InOrder delay past (r.release now) done waiting served := by
  let due : Passage → Bool := fun p => p.queued.all (·.release ≤ now)
  have htogether := fun p hp => (h.sound p hp).due_together now
  have hfuel : (waiting.flatMap Passage.queued).length ≤ Q.size r.proxy.queue := by
    rw [PriorityQueue.size, h.queue, Multiset.coe_card]
  obtain ⟨hqueue, hcounter, hsent⟩ := releaseLoop_sorted now h.queue h.sorted hfuel
  rw [dropWhile_flatMap htogether] at hqueue
  rw [takeWhile_flatMap htogether] at hsent
  have hsplit : waiting.takeWhile due ++ waiting.dropWhile due = waiting :=
    List.takeWhile_append_dropWhile
  have hleft := List.dropWhile_sublist due (l := waiting)
  have hseen : ∀ of, (r.release now).sent of = r.sent of
      ++ if of = .toServer ∨ r.proxy.clientKnown then
          ((waiting.takeWhile due).filter (·.way = of)).flatMap Passage.copies
        else [] := by
    intro of
    refine (hsent of).trans (congrArg (r.sent of ++ ·) (leaving_flatMap _ of fun p hp => ?_))
    exact h.sound p ((List.takeWhile_sublist due).mem hp)
  refine ⟨done ++ waiting.takeWhile due, waiting.dropWhile due,
    served ++ if r.proxy.clientKnown then (waiting.takeWhile due).filter (·.way = .toClient)
      else [], ?_⟩
  constructor
  · show r.passages = _
    rw [h.passages, List.append_assoc, hsplit]
  · exact fun p hp => h.sound p (hleft.mem hp)
  · exact hqueue
  · exact h.sorted.sublist (hleft.flatMap _)
  · intro p hp
    have hp' := (hleft.flatMap Passage.queued).mem hp
    exact ⟨hcounter ▸ (h.earlier p hp').1, (h.earlier p hp').2⟩
  · rw [List.filter_append, List.flatMap_append, ← h.toServer]
    simpa using hseen .toServer
  · rw [List.filter_append]
    refine h.served_sublist.append ?_
    split
    · exact List.Sublist.refl _
    · exact List.nil_sublist _
  · rw [List.flatMap_append, ← h.toClient]
    refine (hseen .toClient).trans ?_
    cases r.proxy.clientKnown <;> simp

/-- **Without reordering every run is in order**, if the clock never goes back. -/
lemma after_inOrder {config : ProxyConfig} (hreorder : config.impairment.reorder = 0) (started : ℤ)
    {events : List ProxyEvent} (hclock : (events.flatMap ProxyEvent.readings).Pairwise (· ≤ ·)) :
    ∃ done waiting served, InOrder config.delay (events.flatMap ProxyEvent.readings)
      (after Q config started events) done waiting served := by
  refine after_invariant
    (P := fun past r => ∃ done waiting served, InOrder config.delay past r done waiting served)
    ⟨[], [], [], ?_⟩ ?_ ?_ ?_ ?_ events hclock
  · constructor <;> simp [Proxy.init, sent, Q.contents_empty]
  · rintro past more r ⟨done, waiting, served, h⟩
    refine ⟨done, waiting, served, { h with earlier := fun p hp => ?_ }⟩
    obtain ⟨hcounter, t, ht, hrelease⟩ := h.earlier p hp
    exact ⟨hcounter, t, List.mem_append_left _ ht, hrelease⟩
  · rintro past r known running ⟨done, waiting, served, h⟩
    exact ⟨done, waiting, served, h.passages, h.sound, h.queue, h.sorted, h.earlier, h.toServer,
      h.served_sublist, h.toClient⟩
  · rintro past r way a hpast ⟨done, waiting, served, h⟩
    have hbefore := (List.pairwise_append.mp hpast).2.2
    exact ⟨done, _, served, h.accept hreorder way a fun t ht =>
      hbefore t ht a.queuedAt (by simp [ProxyArrival.readings])⟩
  · rintro past r now ⟨done, waiting, served, h⟩
    exact h.release now

/-! ## What the run has taken in -/

/-- Once stopped the proxy does nothing. -/
lemma next_of_stopped (config : ProxyConfig) {r : ProxyRun Q} (h : r.proxy.running = false)
    (event : ProxyEvent) : r.next config event = r := by
  simp [next, Proxy.step, h]

lemma came_next (config : ProxyConfig) {r : ProxyRun Q} (h : r.proxy.running = true)
    (event : ProxyEvent) :
    (r.next config event).passages.map Passage.came
      = r.passages.map Passage.came ++ event.arrivals := by
  rw [next, List.map_append]
  simp only [Proxy.step, h]
  cases event with
  | signalled => rfl
  | interrupted => rfl
  | pollFailed => rfl
  | ready front back now idle => cases front <;> cases back <;> rfl

/-- The run has taken in what came until it stopped. -/
lemma came_after (config : ProxyConfig) (started : ℤ) (events : List ProxyEvent) :
    (after Q config started events).passages.map Passage.came
        <+: events.flatMap ProxyEvent.arrivals ∧
      ((after Q config started events).proxy.running = true →
        (after Q config started events).passages.map Passage.came
          = events.flatMap ProxyEvent.arrivals) := by
  induction events using List.reverseRecOn with
  | nil => exact ⟨List.prefix_rfl, fun _ => rfl⟩
  | append_singleton events event ih =>
      obtain ⟨hpart, hwhole⟩ := ih
      rw [after_concat, List.flatMap_append, List.flatMap_singleton]
      cases hrunning : (after Q config started events).proxy.running with
      | true =>
          have hcame := came_next config hrunning event
          rw [hwhole hrunning] at hcame
          exact ⟨hcame ▸ List.prefix_rfl, fun _ => hcame⟩
      | false =>
          rw [next_of_stopped config hrunning]
          refine ⟨hpart.trans (List.prefix_append _ _), fun h => ?_⟩
          rw [hrunning] at h
          cases h

end ProxyRun

/-! ## The relay -/

/-- **The proxy reorders only when asked, and counts honestly.**  Each arrival leaves as nothing,
once, or twice in a row, as it came or one bit apart.  Without reordering, and with a clock that
never goes back, what each direction has seen is in the order of arrival, and towards the server it
is at every moment a prefix of the arrivals that were kept.  The counters say what came in and went
out, and towards the server they balance whenever the heap is empty. -/
theorem proxy_keeps_order_and_counts (Q : ProxyQueue) (config : ProxyConfig) (started : ℤ)
    (events : List ProxyEvent) :
    let r := ProxyRun.after Q config started events
    (r.passages.map Passage.came <+: events.flatMap ProxyEvent.arrivals ∧
      (r.proxy.running = true →
        r.passages.map Passage.came = events.flatMap ProxyEvent.arrivals)) ∧
    (∀ p ∈ r.passages, ∃ b, (b = p.arrival.bytes ∨ OneBitApart p.arrival.bytes b) ∧
      (p.copies = [] ∨ p.copies = [b] ∨ p.copies = [b, b])) ∧
    (config.impairment.reorder = 0 → (events.flatMap ProxyEvent.readings).Pairwise (· ≤ ·) →
      (∀ way, ∃ seen : List Passage, seen.Sublist (r.arrived way) ∧
        r.sent way = seen.flatMap Passage.copies) ∧
      ∀ sofar, sofar <+: r.forwarded →
        (sofar.filter (·.way = .toServer)).map Forwarded.bytes
          <+: (r.arrived .toServer).flatMap Passage.copies) ∧
    (∀ way, (r.proxy.stats way).Reflects (r.arrived way) (r.sent way)) ∧
    (Q.size r.proxy.queue = 0 →
      let stats := r.proxy.stats .toServer
      stats.dropped ≤ stats.received ∧
        stats.forwarded = stats.received - stats.dropped + stats.duplicated ∧
        stats.burstDropped ≤ stats.dropped) := by
  intro r
  have hhonest : r.Honest := ProxyRun.after_honest config started events
  refine ⟨ProxyRun.came_after config started events, ?_, ?_, hhonest.counted, ?_⟩
  · exact fun p hp => (hhonest.sound p hp).copies_eq
  · intro hreorder hclock
    obtain ⟨done, waiting, served, horder⟩ :=
      ProxyRun.after_inOrder (Q := Q) hreorder started hclock
    have harrived : ∀ way, r.arrived way
        = done.filter (·.way = way) ++ waiting.filter (·.way = way) := by
      intro way
      rw [ProxyRun.arrived, horder.passages, List.filter_append]
    have htoServer : r.sent .toServer <+: (r.arrived .toServer).flatMap Passage.copies := by
      rw [horder.toServer, harrived, List.flatMap_append]
      exact List.prefix_append _ _
    refine ⟨fun way => ?_, fun sofar hsofar => ?_⟩
    · rw [harrived]
      cases way with
      | toServer => exact ⟨_, List.sublist_append_left _ _, horder.toServer⟩
      | toClient =>
          exact ⟨served, horder.served_sublist.trans (List.sublist_append_left _ _),
            horder.toClient⟩
    · exact ((hsofar.filter _).map _).trans htoServer
  · intro hempty stats
    have hcounted := hhonest.counted .toServer
    have hbalance := length_copies_add_dropped fun p (hp : p ∈ r.arrived .toServer) =>
      hhonest.sound p (List.mem_of_mem_filter hp)
    have hall := (hhonest.sent_perm hempty).length_eq
    have hdropped := List.countP_le_length (l := r.arrived .toServer)
      (p := fun p => decide (p.copies = []))
    rw [hall, ← hcounted.forwarded, ← hcounted.dropped, ← hcounted.duplicated,
      ← hcounted.received] at hbalance
    rw [← hcounted.dropped, ← hcounted.received] at hdropped
    have hstats : stats.forwarded + stats.dropped = stats.received + stats.duplicated := hbalance
    have hkept : stats.dropped ≤ stats.received := hdropped
    exact ⟨hkept, by omega, hcounted.burstDropped⟩

/-! ### A run -/

instance : Std.Total fun p q : Pending => ¬ p.Below q where
  total p q := by
    simp only [Pending.Below]
    split <;> split <;> omega

instance : IsTrans Pending fun p q => ¬ p.Below q where
  trans p q s hpq hqs := by
    simp only [Pending.Below] at hpq hqs ⊢
    split_ifs at hpq hqs ⊢ <;> omega

/-- Half of everything goes wrong towards the server. -/
def sampleProxyConfig : ProxyConfig where
  impairment := { loss := 1 / 2, duplicate := 1 / 2, corrupt := 1 / 2 }
  direction := .toServer
  delayUs := 1

/-- One datagram duplicated, one dropped, one corrupted, all of one tick, and one that answers. -/
def sampleProxyEvents : List ProxyEvent :=
  [.ready (some { bytes := [1, 2], lossDraw := 1, corruptDraw := 1 }) none 0 0,
    .ready (some { bytes := [3] }) none 0 0,
    .ready (some { bytes := [4], lossDraw := 1, duplicateDraw := 1, bit := 1 })
      (some { bytes := [5] }) 0 0,
    .ready none none 2000 2000]

lemma sample_forwarded :
    (ProxyRun.after (orderedQueue Pending.Below) sampleProxyConfig 0 sampleProxyEvents).forwarded
      = [⟨.toServer, [1, 2]⟩, ⟨.toServer, [1, 2]⟩, ⟨.toServer, [6]⟩, ⟨.toClient, [5]⟩] := by
  decide +kernel

/-- The sample run keeps the order and balances. -/
theorem proxy_keeps_order_and_counts_sample :
    let r := ProxyRun.after (orderedQueue Pending.Below) sampleProxyConfig 0 sampleProxyEvents
    [[1, 2], [1, 2]] <+: (r.arrived .toServer).flatMap Passage.copies ∧
      (r.proxy.stats .toServer).forwarded = 3 - 1 + 1 := by
  have hrun := proxy_keeps_order_and_counts (orderedQueue Pending.Below) sampleProxyConfig 0
    sampleProxyEvents
  refine ⟨?_, ?_⟩
  · have hmoment : [⟨.toServer, [1, 2]⟩, ⟨.toServer, [1, 2]⟩] <+: (ProxyRun.after
        (orderedQueue Pending.Below) sampleProxyConfig 0 sampleProxyEvents).forwarded :=
      sample_forwarded ▸ List.prefix_append _ _
    exact (hrun.2.2.1 (by decide) (by decide)).2 _ hmoment
  · exact (hrun.2.2.2.2 (by decide +kernel)).2.1.trans (by decide +kernel)

end SwiftLink
