import SwiftLink.Transfer.FirstWins

/-!
# Arrival order does not matter

A batch of DATA packets that all fit into the window from its first position on, and whose ranges do
not overlap, ends up in the file whatever the order it comes in and however often each packet is
repeated.  The two runs of the statement slide their windows at different moments; what they agree
on is the set of packets stored, and everything the session keeps is a function of that set.
-/

namespace SwiftLink

open ByteFile

/-- DATA packets of one session with numbers of their own below the window's capacity and ranges of
their own inside the declared size. -/
structure Batch (s : ReceiverSession) (S : Set Packet) : Prop where
  packetType : ∀ p ∈ S, p.header.packetType = .data
  sessionId : ∀ p ∈ S, p.header.sessionId = s.sessionId
  seq_lt : ∀ p ∈ S, p.seq < s.window.capacity
  inside : ∀ p ∈ S, p.toWrite.stop ≤ s.declaredSize
  seq_inj : ∀ p ∈ S, ∀ q ∈ S, p.seq = q.seq → p = q
  disjoint : ∀ p ∈ S, ∀ q ∈ S, p ≠ q → Disjoint p.toWrite.range q.toWrite.range

/-- The arrivals are of packets of the batch, and each of them occurs. -/
structure Covers (S : Set Packet) (arrivals : List Arrival) : Prop where
  mem : ∀ a ∈ arrivals, a.packet ∈ S
  occurs : ∀ p ∈ S, ∃ a ∈ arrivals, a.packet = p

/-- The ACK for a packet. -/
def Packet.ackReply (p : Packet) : Reply :=
  { send := true, type := .ack, sequence := p.header.sequenceNumber }

/-- Every arrival is acknowledged. -/
def World.AcksAll (w : World) (arrivals : List Arrival) : Prop :=
  ∀ before a after, arrivals = before ++ a :: after →
    (w.deliver before).replyTo a = a.packet.ackReply

/-! ## The window -/

namespace ReceiverWindow

/-- Numbers below the capacity are never turned away, as long as the capacity is below `2 ^ 31`:
once the upper end has wrapped, the base has passed them all. -/
lemma classify_ne_outside {w : ReceiverWindow} (hcapacity : w.capacity < 2 ^ 31) {s : ℕ}
    (hs : s < w.capacity) : w.classify s ≠ .outsideWindow := by
  by_cases hopen : w.Open
  · exact classify_of_open hopen (by omega)
  · have hbase : s < w.base := by
      rw [Open, not_lt] at hopen
      omega
    rw [classify, if_pos hbase]
    simp

/-- Two windows that have stored the same numbers have the same base. -/
lemma Inv.base_eq {w w' : ReceiverWindow} (h : w.Inv) (h' : w'.Inv)
    (hstored : ∀ t, w.Stored t ↔ w'.Stored t) : w.base = w'.base := by
  obtain ⟨hbelow, hmissing⟩ := h.base_spec
  obtain ⟨hbelow', hmissing'⟩ := h'.base_spec
  rcases Nat.lt_trichotomy w.base w'.base with hlt | heq | hgt
  · exact absurd ((hstored _).mpr (hbelow' _ hlt)) hmissing
  · exact heq
  · exact absurd ((hstored _).mp (hbelow _ hgt)) hmissing'

end ReceiverWindow

/-! ## One packet of the batch -/

namespace FileSystem

/-- The writes `ws` through a descriptor. -/
def fill (fs : FileSystem) (file : Option ℕ) (ws : List (Write Byte)) : FileSystem :=
  match file with
  | none => fs
  | some fd => fs.setData fd (writeOn 0 (fs.data fd) ws)

lemma fill_nil (fs : FileSystem) (file : Option ℕ) : fs.fill file [] = fs := by
  cases file with
  | none => rfl
  | some fd =>
      have hsame : Function.update fs.data fd (fs.data fd) = fs.data := Function.update_eq_self _ _
      simp only [fill, writeOn_nil, setData, hsame]

/-- A write that succeeds, after the writes of `ws`. -/
lemma writeFile_fill {fs : FileSystem} {file : Option ℕ} {ws : List (Write Byte)}
    {sched : List PwriteOutcome} {buf : Bytes} {off : ℕ}
    (h : ((fs.fill file ws).writeFile file sched buf off).2 = some buf.length) :
    ((fs.fill file ws).writeFile file sched buf off).1 = fs.fill file (ws ++ [⟨off, buf⟩]) := by
  cases file with
  | none => simp [writeFile] at h
  | some fd =>
      obtain ⟨-, hdata, -⟩ := writeAt_some (Prod.ext rfl h)
      have hagain : ((fs.fill (some fd) ws).writeFile (some fd) sched buf off).1 =
          (fs.fill (some fd) ws).setData fd
            (overwrite 0 ((fs.fill (some fd) ws).data fd) off buf) :=
        congrArg ((fs.fill (some fd) ws).setData fd) hdata
      rw [hagain]
      simp [fill, setData, writeOn_concat]

end FileSystem

namespace ReceiverSession

variable {s : ReceiverSession} {fs : FileSystem} {packet : Packet} {io : IoEnv} {handled : Handled}

/-- A DATA packet of the session's own that the window does not turn away and the size check lets
pass is a duplicate or is stored, and is acknowledged either way. -/
lemma Handles.own_data (h : Handles s fs packet io handled) (hlive : s.Live packet)
    (htype : packet.header.packetType = .data)
    (hclass : s.window.classify packet.header.sequenceNumber.toNat ≠ .outsideWindow)
    (hsize : (packet.header.byteOffset.toNat + packet.payload.length) % 2 ^ 64 ≤ s.declaredSize)
    (hwrite : s.Fits packet → (fs.writeFile s.file io.write packet.payload
      packet.header.byteOffset.toNat).2 = some packet.payload.length) :
    handled.reply = packet.ackReply ∧ ∃ stats,
      (s.window.classify packet.header.sequenceNumber.toNat = .duplicate ∧
        handled.session = { s with stats := stats } ∧ handled.fs = fs ∨
      s.Fits packet ∧
        handled.session = { s with
          window := s.window.markReceived packet.header.sequenceNumber.toNat
          bytesWritten := (s.bytesWritten + packet.payload.length) % 2 ^ 64
          stats := stats } ∧
        handled.fs = (fs.writeFile s.file io.write packet.payload
          packet.header.byteOffset.toNat).1) := by
  cases h with
  | replayed stats hreplay => simp [replays, hlive.finished] at hreplay
  | ignored stats _ hwhy =>
      rcases hwhy with hfinished | ⟨-, -, hdata, -⟩
      · simp [hlive.finished] at hfinished
      · exact absurd htype hdata
  | restarted stats _ hstart => simp [htype] at hstart
  | duplicate stats _ _ hdup => exact ⟨rfl, stats, Or.inl ⟨hdup, rfl, rfl⟩⟩
  | outside stats _ _ hout => exact absurd hout hclass
  | strayed stats _ hwhy =>
      rw [if_neg (by simp [htype])] at hwhy
      exact absurd hlive.sessionId (hwhy hlive.started)
  | misnamed stats hopen => exact absurd hlive.started (by simp [hopen.started])
  | openFailed stats name hopen => exact absurd hlive.started (by simp [hopen.started])
  | opened stats name fs' fd hopen => exact absurd hlive.started (by simp [hopen.started])
  | oversized stats _ _ _ hlarge => exact absurd hsize (not_le.mpr hlarge)
  | writeFailed stats fs' written hfits hwritten hshort =>
      have hfull := hwrite hfits
      rw [hwritten] at hfull
      exact absurd hfull hshort
  | stored stats fs' hfits hwritten =>
      exact ⟨rfl, stats, Or.inr ⟨hfits, rfl, by rw [hwritten]⟩⟩
  | finFailed stats code error _ hfin => simp [htype] at hfin
  | published stats fs' _ hfin => simp [htype] at hfin

end ReceiverSession

/-! ## A run over the batch -/

/-- **What has happened since `v`**: the packets `ps` of the batch have been stored, in this order,
and nothing else has changed but counters. -/
structure Filled (v : World) (S : Set Packet) (ps : List Packet) (w : World) : Prop where
  session : ∃ window stats, w.session = { v.session with
    window := window
    bytesWritten := (v.session.bytesWritten + total (ps.map Packet.toWrite)) % 2 ^ 64
    stats := stats }
  fs : w.fs = v.fs.fill v.session.file (ps.map Packet.toWrite)
  window_inv : w.session.window.Inv
  capacity : w.session.window.capacity = v.session.window.capacity
  stored_iff : ∀ t, w.session.window.Stored t ↔
    v.session.window.Stored t ∨ t ∈ ps.map Packet.seq
  mem : ∀ p ∈ ps, p ∈ S
  fresh : ∀ p ∈ ps, ¬ v.session.window.Stored p.seq
  nodup : (ps.map Packet.seq).Nodup

namespace Filled

variable {v w : World} {S : Set Packet} {ps : List Packet} {a : Arrival}

lemma refl (hinv : v.session.window.Inv) (hlt : v.session.bytesWritten < 2 ^ 64) :
    Filled v S [] v where
  session := by
    refine ⟨v.session.window, v.session.stats, ?_⟩
    rw [List.map_nil, total_nil, Nat.add_zero, Nat.mod_eq_of_lt hlt]
  fs := (FileSystem.fill_nil _ _).symm
  window_inv := hinv
  capacity := rfl
  stored_iff := by simp
  mem := by simp
  fresh := by simp
  nodup := List.nodup_nil

/-- A packet of the batch is one of the session's own. -/
lemma live (h : Filled v S ps w) (hbatch : Batch v.session S) (hstarted : v.session.started = true)
    (hunfinished : v.session.finished = false) {p : Packet} (hp : p ∈ S) : w.session.Live p := by
  obtain ⟨window, stats, hsession⟩ := h.session
  rw [hsession]
  exact ⟨hunfinished, hstarted, hbatch.sessionId p hp⟩

/-- Storing one more packet of the batch. -/
lemma store (h : Filled v S ps w) (ha : a.packet ∈ S) (hfits : w.session.Fits a.packet)
    (hwrite : w.WriteSucceeds a) {stats : TransferStats}
    (hsession : (w.arrive a).session = { w.session with
      window := w.session.window.markReceived a.packet.header.sequenceNumber.toNat
      bytesWritten := (w.session.bytesWritten + a.packet.payload.length) % 2 ^ 64
      stats := stats })
    (hfs : (w.arrive a).fs = (w.fs.writeFile w.session.file a.io.write a.packet.payload
      a.packet.header.byteOffset.toNat).1) : Filled v S (ps ++ [a.packet]) (w.arrive a) := by
  obtain ⟨hinv, hcapacity, -, hstored⟩ := h.window_inv.markReceived hfits.accepted
  have hnew := (h.window_inv.classify_accepted_iff.mp hfits.accepted).1
  obtain ⟨window, stats', hwas⟩ := h.session
  have hwindow : (w.arrive a).session.window =
      w.session.window.markReceived a.packet.header.sequenceNumber.toNat := by rw [hsession]
  have hfile : w.session.file = v.session.file := by rw [hwas]
  have hold : ¬ v.session.window.Stored a.packet.seq ∧ a.packet.seq ∉ ps.map Packet.seq := by
    rw [← not_or, ← h.stored_iff]
    exact hnew
  refine ⟨⟨w.session.window.markReceived a.packet.header.sequenceNumber.toNat, stats, ?_⟩, ?_, ?_,
    ?_, fun t => ?_, fun p hp => ?_, fun p hp => ?_, ?_⟩
  · rw [hsession, hwas]
    simp only [List.map_append, List.map_singleton, total_concat, Packet.toWrite]
    congr 1
    omega
  · have hfull := hwrite hfits
    rw [hfile, h.fs] at hfull
    rw [hfs, hfile, h.fs, FileSystem.writeFile_fill hfull, List.map_append, List.map_singleton]
    rfl
  · rw [hwindow]
    exact hinv
  · rw [hwindow, hcapacity]
    exact h.capacity
  · rw [hwindow, hstored, h.stored_iff, List.map_append, List.mem_append, List.map_singleton,
      List.mem_singleton, or_assoc]
    rfl
  · rcases List.mem_append.mp hp with hp | hp
    · exact h.mem p hp
    · rw [List.mem_singleton.mp hp]
      exact ha
  · rcases List.mem_append.mp hp with hp | hp
    · exact h.fresh p hp
    · rw [List.mem_singleton.mp hp]
      exact hold.1
  · rw [List.map_append, List.map_singleton, List.nodup_append_comm, List.singleton_append,
      List.nodup_cons]
    exact ⟨hold.2, h.nodup⟩

/-- **One packet of the batch** is acknowledged, and stored from then on. -/
lemma arrive (h : Filled v S ps w) (hbatch : Batch v.session S)
    (hstarted : v.session.started = true) (hunfinished : v.session.finished = false)
    (hcapacity : v.session.window.capacity < 2 ^ 31) (ha : a.packet ∈ S)
    (hwrite : w.WriteSucceeds a) :
    w.replyTo a = a.packet.ackReply ∧ ∃ ps', ps ⊆ ps' ∧ Filled v S ps' (w.arrive a) ∧
      (w.arrive a).session.window.Stored a.packet.seq := by
  have hlive := h.live hbatch hstarted hunfinished ha
  have hclass :
      w.session.window.classify a.packet.header.sequenceNumber.toNat ≠ .outsideWindow := by
    refine ReceiverWindow.classify_ne_outside ?_ ?_
    · rw [h.capacity]
      exact hcapacity
    · rw [h.capacity]
      exact hbatch.seq_lt _ ha
  have hsize : (a.packet.header.byteOffset.toNat + a.packet.payload.length) % 2 ^ 64 ≤
      w.session.declaredSize := by
    obtain ⟨window, stats, hsession⟩ := h.session
    rw [hsession]
    exact (Nat.mod_le _ _).trans (hbatch.inside _ ha)
  obtain ⟨hreply, stats, hcases⟩ :=
    (ReceiverSession.handlePacket_handles w.session w.fs a.packet a.io).own_data hlive
      (hbatch.packetType _ ha) hclass hsize hwrite
  refine ⟨hreply, ?_⟩
  rcases hcases with ⟨hdup, hsession, hfs⟩ | ⟨hfits, hsession, hfs⟩
  · obtain ⟨window, stats', hwas⟩ := h.session
    have hwindow : (w.arrive a).session.window = w.session.window := by
      rw [show (w.arrive a).session = _ from hsession]
    refine ⟨ps, List.Subset.refl _,
      ⟨⟨window, stats, ?_⟩, hfs.trans h.fs, ?_, ?_, ?_, h.mem, h.fresh, h.nodup⟩, ?_⟩
    · rw [show (w.arrive a).session = _ from hsession, hwas]
    · rw [hwindow]
      exact h.window_inv
    · rw [hwindow]
      exact h.capacity
    · rw [hwindow]
      exact h.stored_iff
    · rw [hwindow]
      exact ReceiverWindow.stored_of_duplicate hdup
  · have hnext := h.store ha hfits hwrite hsession hfs
    refine ⟨_, List.subset_append_left _ _, hnext, (hnext.stored_iff _).mpr (Or.inr ?_)⟩
    rw [List.map_append, List.map_singleton]
    exact List.mem_append_right _ (List.mem_singleton_self _)

/-- **A run over the batch** acknowledges every packet and has stored every one of them. -/
lemma deliver {arrivals : List Arrival} (hinv : v.session.window.Inv)
    (hlt : v.session.bytesWritten < 2 ^ 64) (hbatch : Batch v.session S)
    (hstarted : v.session.started = true) (hunfinished : v.session.finished = false)
    (hcapacity : v.session.window.capacity < 2 ^ 31) (hmem : ∀ a ∈ arrivals, a.packet ∈ S)
    (hwrites : v.WritesSucceed arrivals) :
    v.AcksAll arrivals ∧ ∃ ps, Filled v S ps (v.deliver arrivals) ∧
      ∀ a ∈ arrivals, (v.deliver arrivals).session.window.Stored a.packet.seq := by
  induction arrivals using List.reverseRecOn with
  | nil => exact ⟨fun before a after heq => by simp at heq, [], refl hinv hlt, by simp⟩
  | append_singleton arrivals a ih =>
      obtain ⟨hbefore, hlast⟩ := hwrites.concat
      obtain ⟨hacks, ps, hfilled, hall⟩ := ih (fun b hb => hmem b (by simp [hb])) hbefore
      obtain ⟨hreply, ps', hsub, hnext, hself⟩ :=
        hfilled.arrive hbatch hstarted hunfinished hcapacity
        (hmem a (by simp)) hlast
      rw [World.deliver_concat]
      refine ⟨?_, ps', hnext, fun b hb => ?_⟩
      · intro before b after heq
        rcases List.eq_nil_or_concat after with rfl | ⟨rest, last, rfl⟩
        · obtain ⟨rfl, hab⟩ := List.append_inj' heq rfl
          obtain rfl : a = b := by simpa using hab
          exact hreply
        · have hcut : arrivals ++ [a] = (before ++ b :: rest) ++ [last] := by simpa using heq
          exact hacks before b rest (List.append_inj_left' hcut rfl)
      · rcases List.mem_append.mp hb with hb | hb
        · rw [hnext.stored_iff]
          rcases (hfilled.stored_iff _).mp (hall b hb) with hold | hin
          · exact Or.inl hold
          · exact Or.inr (List.map_subset _ hsub hin)
        · rw [List.mem_singleton.mp hb]
          exact hself

/-- After the whole batch, the packets stored are the ones of it that were missing. -/
lemma mem_iff (h : Filled v S ps w) (hbatch : Batch v.session S)
    (hall : ∀ p ∈ S, w.session.window.Stored p.seq) (p : Packet) :
    p ∈ ps ↔ p ∈ S ∧ ¬ v.session.window.Stored p.seq := by
  refine ⟨fun hp => ⟨h.mem p hp, h.fresh p hp⟩, ?_⟩
  rintro ⟨hp, hmissing⟩
  rcases (h.stored_iff _).mp (hall p hp) with hold | hin
  · exact absurd hold hmissing
  · obtain ⟨q, hq, hseq⟩ := List.mem_map.mp hin
    rwa [← hbatch.seq_inj q (h.mem q hq) p hp hseq]

/-! ### Two runs -/

variable {w' : World} {qs : List Packet}

/-- **Two runs over the batch have stored the same packets.** -/
lemma perm (h : Filled v S ps w) (h' : Filled v S qs w') (hbatch : Batch v.session S)
    (hall : ∀ p ∈ S, w.session.window.Stored p.seq)
    (hall' : ∀ p ∈ S, w'.session.window.Stored p.seq) : ps.Perm qs := by
  refine (List.perm_ext_iff_of_nodup h.nodup.of_map h'.nodup.of_map).mpr fun p => ?_
  rw [h.mem_iff hbatch hall, h'.mem_iff hbatch hall']

lemma fs_eq (h : Filled v S ps w) (h' : Filled v S qs w') (hbatch : Batch v.session S)
    (hperm : ps.Perm qs) : w.fs = w'.fs := by
  have hwrites : ∀ data : Bytes, writeOn 0 data (ps.map Packet.toWrite) =
      writeOn 0 data (qs.map Packet.toWrite) := by
    refine writeOn_perm 0 (hperm.map Packet.toWrite) fun x hx y hy => ?_
    obtain ⟨p, hp, rfl⟩ := List.mem_map.mp hx
    obtain ⟨q, hq, rfl⟩ := List.mem_map.mp hy
    by_cases hpq : p = q
    · exact Or.inl (by rw [hpq])
    · exact Or.inr (hbatch.disjoint p (h.mem p hp) q (h.mem q hq) hpq)
  rw [h.fs, h'.fs]
  cases v.session.file with
  | none => rfl
  | some fd => simp only [FileSystem.fill, hwrites]

lemma base_eq (h : Filled v S ps w) (h' : Filled v S qs w') (hperm : ps.Perm qs) :
    w.session.window.base = w'.session.window.base := by
  refine h.window_inv.base_eq h'.window_inv fun t => ?_
  rw [h.stored_iff, h'.stored_iff, (hperm.map Packet.seq).mem_iff]

end Filled

/-! ## The reply to a FIN -/

namespace ReceiverSession

/-- `on_fin` reads neither the window nor the counters. -/
lemma onFin_reply_congr (s : ReceiverSession) (window : ReceiverWindow) (stats : TransferStats)
    (fs : FileSystem) (packet : Packet) (io : IoEnv) :
    ({ s with window := window, stats := stats }.onFin fs packet io).reply =
      (s.onFin fs packet io).reply := by
  rw [onFin_aside]

/-- The reply of a session under way to a FIN. -/
lemma fin_reply {s : ReceiverSession} (hfinished : s.finished = false) (hstarted : s.started = true)
    {packet : Packet} (htype : packet.header.packetType = .fin) (fs : FileSystem) (io : IoEnv) :
    (s.handlePacket fs packet io).reply = if packet.header.sessionId ≠ s.sessionId
      then errorReply .unknownSession packet.header.sequenceNumber
      else (s.onFin fs packet io).reply := by
  simp only [handlePacket]
  rw [if_neg (by simp [replays, hfinished]), if_neg (by simp [hfinished]), if_neg (by simp [htype]),
    if_neg (by simp [hstarted])]
  by_cases hid : packet.header.sessionId = s.sessionId
  · rw [if_neg (not_not.mpr hid), if_neg (not_not.mpr hid)]
    simp only [htype]
    exact onFin_reply_congr s s.window _ fs packet io
  · rw [if_pos hid, if_pos hid]
    rfl

lemma fin_reply_congr {s : ReceiverSession} (hfinished : s.finished = false)
    (hstarted : s.started = true) {packet : Packet} (htype : packet.header.packetType = .fin)
    (window : ReceiverWindow) (stats : TransferStats) (fs : FileSystem) (io : IoEnv) :
    ({ s with window := window, stats := stats }.handlePacket fs packet io).reply =
      (s.handlePacket fs packet io).reply := by
  rw [fin_reply (s := { s with window := window, stats := stats }) hfinished hstarted htype,
    fin_reply hfinished hstarted htype, onFin_reply_congr]

end ReceiverSession

/-- **Arrival order does not matter.**  From any state of a session under way, two sequences over a
batch of its DATA packets, each packet at least once and in any order, leave the same directory with
the same contents, the same running sum and the same base; every arrival is acknowledged, in both;
and any FIN gets the same reply after either. -/
theorem arrival_order_irrelevant (windowCapacity : BitVec 32) (outputDirectory : Path)
    (fs : FileSystem) (earlier : List SessionEvent) (S : Set Packet) (first second : List Arrival)
    (v : World) (hv : v = (World.init windowCapacity outputDirectory fs).run earlier)
    (hstarted : v.session.started = true) (hunfinished : v.session.finished = false)
    (hcapacity : v.session.window.capacity < 2 ^ 31) (hbatch : Batch v.session S)
    (hfirst : Covers S first) (hsecond : Covers S second) (hwrites : v.WritesSucceed first)
    (hwrites' : v.WritesSucceed second) :
    (v.deliver first).fs = (v.deliver second).fs ∧
    (v.deliver first).session.bytesWritten = (v.deliver second).session.bytesWritten ∧
    (v.deliver first).session.window.base = (v.deliver second).session.window.base ∧
    v.AcksAll first ∧ v.AcksAll second ∧
    ∀ fin io, fin.header.packetType = .fin →
      (v.deliver first).replyTo ⟨fin, io⟩ = (v.deliver second).replyTo ⟨fin, io⟩ := by
  have hrecord := World.run_record windowCapacity outputDirectory fs earlier
  simp only [← hv] at hrecord
  have hlt : v.session.bytesWritten < 2 ^ 64 := by
    rw [hrecord.bytes_eq]
    exact hrecord.total_lt ⟨{}, [], by simp⟩
  obtain ⟨hacks, ps, hps, hall⟩ := Filled.deliver hrecord.window_inv hlt hbatch hstarted hunfinished
    hcapacity hfirst.mem hwrites
  obtain ⟨hacks', qs, hqs, hall'⟩ :=
    Filled.deliver hrecord.window_inv hlt hbatch hstarted hunfinished hcapacity hsecond.mem
      hwrites'
  have hperm : ps.Perm qs := by
    refine hps.perm hqs hbatch (fun p hp => ?_) fun p hp => ?_
    · obtain ⟨a, ha, rfl⟩ := hfirst.occurs p hp
      exact hall a ha
    · obtain ⟨a, ha, rfl⟩ := hsecond.occurs p hp
      exact hall' a ha
  have hfs := hps.fs_eq hqs hbatch hperm
  have hbytes : total (ps.map Packet.toWrite) = total (qs.map Packet.toWrite) :=
    total_perm (hperm.map _)
  obtain ⟨window, stats, hsession⟩ := hps.session
  obtain ⟨window', stats', hsession'⟩ := hqs.session
  rw [hbytes] at hsession
  refine ⟨hfs, ?_, hps.base_eq hqs hperm, hacks, hacks', fun fin io htype => ?_⟩
  · rw [hsession, hsession']
  · -- the two sessions differ in window and counters only
    simp only [World.replyTo, World.reply]
    rw [hfs, hsession, hsession']
    set t : ReceiverSession := { v.session with bytesWritten :=
      (v.session.bytesWritten + total (qs.map Packet.toWrite)) % 2 ^ 64 } with ht
    have hreply := fun window stats =>
      ReceiverSession.fin_reply_congr (s := t) hunfinished hstarted htype window stats
        (v.deliver second).fs io
    exact (hreply window stats).trans (hreply window' stats').symm

/-! ### Two chunks -/

lemma sampleFirst_le : (asciiBytes "o").length ≤ kMaxPayloadSize := by decide

lemma sampleSecond_le : (asciiBytes "k").length ≤ kMaxPayloadSize := by decide

def sampleChunk0 : Packet := sampleData 0 0 "o" sampleFirst_le

def sampleChunk1 : Packet := sampleData 1 1 "k" sampleSecond_le

/-- A session that has been told to expect two bytes. -/
def sampleWaitingForTwo : World :=
  (World.init 4 [] FileSystem.empty).run [.packet (sampleStart 2) {}]

lemma sampleBatch : Batch sampleWaitingForTwo.session {sampleChunk0, sampleChunk1} where
  packetType p hp := by rcases hp with rfl | rfl <;> rfl
  sessionId p hp := by rcases hp with rfl | rfl <;> decide
  seq_lt p hp := by rcases hp with rfl | rfl <;> decide
  inside p hp := by rcases hp with rfl | rfl <;> decide
  seq_inj p hp q hq := by
    rcases hp with rfl | rfl <;> rcases hq with rfl | rfl <;> decide
  disjoint p hp q hq := by
    rcases hp with rfl | rfl <;> rcases hq with rfl | rfl <;> decide

/-- In order, and out of order with a repetition. -/
theorem arrival_order_irrelevant_two_chunks :
    (sampleWaitingForTwo.deliver [⟨sampleChunk0, {}⟩, ⟨sampleChunk1, {}⟩]).fs =
      (sampleWaitingForTwo.deliver
        [⟨sampleChunk1, {}⟩, ⟨sampleChunk1, {}⟩, ⟨sampleChunk0, {}⟩]).fs := by
  have hfirst : Covers {sampleChunk0, sampleChunk1}
      [⟨sampleChunk0, {}⟩, ⟨sampleChunk1, {}⟩] :=
    ⟨by simp, by rintro p (rfl | rfl) <;> simp⟩
  have hsecond : Covers {sampleChunk0, sampleChunk1}
      [⟨sampleChunk1, {}⟩, ⟨sampleChunk1, {}⟩, ⟨sampleChunk0, {}⟩] :=
    ⟨by simp, by rintro p (rfl | rfl) <;> simp⟩
  exact (arrival_order_irrelevant 4 [] FileSystem.empty [.packet (sampleStart 2) {}] _ _ _
    sampleWaitingForTwo rfl (by decide +kernel) (by decide +kernel) (by decide +kernel) sampleBatch
    hfirst hsecond
    (World.writesSucceed_cons (by decide +kernel) (World.writesSucceed_cons (by decide +kernel)
      (World.writesSucceed_nil _)))
    (World.writesSucceed_cons (by decide +kernel) (World.writesSucceed_cons (by decide +kernel)
      (World.writesSucceed_cons (by decide +kernel) (World.writesSucceed_nil _))))).1

end SwiftLink
