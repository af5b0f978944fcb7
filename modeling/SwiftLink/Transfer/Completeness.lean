import SwiftLink.Transfer.Record

/-!
# What a published file is

When `on_fin` publishes, three peer-controlled quantities have met: the size declared at START, the
sum of the accepted payload lengths, and the FIN's `byte_offset`.  The code compares the last two
and hashes that many bytes.  `published_content` collects everything publication establishes; the
two results say exactly when this makes the published file complete and when the digest has covered
all of it.
-/

namespace SwiftLink

open ByteFile

namespace World

/-- The file under the session's final name after the packet. -/
def publishedFile (w : World) (packet : Packet) (io : IoEnv) : Option Bytes :=
  let w' := w.next (.packet packet io)
  w'.fs.view w'.session.outputPath

/-- A FIN that passes every check, with a rename that succeeds, publishes. -/
lemma publishes_of_checks {w : World} {packet : Packet} {io : IoEnv}
    (hnew : w.session.published = false) (hlive : w.session.Live packet)
    (htype : packet.header.packetType = .fin) (hchecks : w.session.FinChecks w.fs packet io)
    (hrename : (w.fs.rename io.renameOk w.session.tempPath w.session.outputPath).2 = true) :
    w.Publishes packet io := by
  refine ⟨hnew, ?_⟩
  have hstep := ReceiverSession.handlePacket_handles w.session w.fs packet io
  rw [next]
  generalize w.session.handlePacket w.fs packet io = handled at hstep
  cases hstep with
  | published => rfl
  | finFailed stats code error _ _ _ hfailed => simp [hfailed hchecks] at hrename
  | replayed _ hr => simp [ReceiverSession.replays, hlive.finished] at hr
  | ignored _ _ hwhy => simp [hlive.finished, htype] at hwhy
  | restarted _ _ ht => simp [htype] at ht
  | duplicate _ _ ht => simp [htype] at ht
  | outside _ _ ht => simp [htype] at ht
  | strayed _ _ hwhy => simp [htype, hlive.started, hlive.sessionId] at hwhy
  | misnamed _ ho => have := ho.packetType; simp [htype] at this
  | openFailed _ _ ho => have := ho.packetType; simp [htype] at this
  | opened _ _ _ _ ho => have := ho.packetType; simp [htype] at this
  | oversized _ _ ht => simp [htype] at ht
  | writeFailed _ _ _ hf => have := hf.packetType; simp [htype] at this
  | stored _ _ hf => have := hf.packetType; simp [htype] at this

/-- **Everything publication establishes.** -/
lemma published_content {windowCapacity : BitVec 32} {outputDirectory : Path} {fs : FileSystem}
    {events : List SessionEvent} {packet : Packet} {io : IoEnv}
    (hpub : ((init windowCapacity outputDirectory fs).run events).Publishes packet io) :
    let w0 := init windowCapacity outputDirectory fs
    let w := w0.run events
    let ws := (w0.accepted events).map Packet.toWrite
    w.publishedFile packet io = some (writeAll 0 ws) ∧
      packet.header.byteOffset.toNat = total ws ∧ w.session.bytesWritten = total ws ∧
      packet.payload = digestOf (writeAll 0 ws) (total ws) ∧
      total ws ≤ (writeAll 0 ws).length ∧
      ∀ v ∈ ws, v.stop ≤ w.session.declaredSize := by
  intro w0 w ws
  have hrecord := run_record windowCapacity outputDirectory fs events
  have hverdict := run_verdict windowCapacity outputDirectory fs events
  have hstep := ReceiverSession.handlePacket_handles w.session w.fs packet io
  obtain ⟨hlive, -, hchecks, hrename, hpath, -⟩ := hstep.of_published hpub.1 hpub.2
  obtain ⟨herror, -⟩ := hverdict.of_unfinished hlive.finished
  obtain ⟨fd, hfile⟩ := Option.isSome_iff_exists.mp hchecks.synced.1
  have hcontent : w.fs.data fd = writeAll 0 ws := hrecord.content fd hfile herror
  have hbytes : w.session.bytesWritten = total ws := hrecord.bytes_eq
  have hread : ∀ k want off bytes, w.fs.readFile w.session.file (io.reads k) want off = some bytes →
      bytes = ((w.fs.data fd).drop off).take want := by
    intro k want off bytes hsome
    obtain ⟨i, hi, hbytes⟩ := FileSystem.readFile_some hsome
    obtain rfl : i = fd := Option.some.inj (hi.symm.trans hfile)
    exact hbytes
  obtain ⟨hdigest, hlength⟩ := hashFile_some hread hchecks.hashed
  rw [hcontent, hbytes] at hdigest hlength
  obtain ⟨i, hsrc, hdst, -, -, hdata, -⟩ := FileSystem.rename_true hrename
  obtain rfl : i = fd := Option.some.inj (hsrc.symm.trans (hrecord.named hpub.1 fd hfile))
  refine ⟨?_, hchecks.size.trans hbytes, hbytes, hdigest, hlength, fun v hv => ?_⟩
  · rw [publishedFile, FileSystem.view, next, hpath, hdst, Option.map_some, hdata, hcontent]
  · obtain ⟨p, hp, rfl⟩ := List.mem_map.mp hv
    exact hrecord.inside p hp

end World

/-- The file a FIN publishes has the declared size, and the accepted DATA packets cover it. -/
def PublishedComplete (w0 : World) (events : List SessionEvent) (packet : Packet) (io : IoEnv) :
    Prop :=
  ∃ content, (w0.run events).publishedFile packet io = some content ∧
    content.length = (w0.run events).session.declaredSize ∧
    ∀ i < (w0.run events).session.declaredSize, ∃ p ∈ w0.accepted events, i ∈ p.toWrite.range

/-- **When a published file is complete.**  Exactly when the FIN names the size the START declared
and no two accepted DATA packets overlap. -/
theorem published_complete_iff (windowCapacity : BitVec 32) (outputDirectory : Path)
    (fs : FileSystem) (events : List SessionEvent) (packet : Packet) (io : IoEnv)
    (hpub : ((World.init windowCapacity outputDirectory fs).run events).Publishes packet io) :
    let w0 := World.init windowCapacity outputDirectory fs
    PublishedComplete w0 events packet io ↔
      packet.header.byteOffset.toNat = (w0.run events).session.declaredSize ∧
        (w0.accepted events).Pairwise fun p q => Disjoint p.toWrite.range q.toWrite.range := by
  intro w0
  obtain ⟨hfile, hfin, -, -, hreach, hinside⟩ := World.published_content hpub
  set w := w0.run events with hw
  set ws := (w0.accepted events).map Packet.toWrite with hws
  have hbound : (writeAll 0 ws).length ≤ w.session.declaredSize :=
    writeAll_length_le 0 fun v hv _ => hinside v hv
  have hcover : (∀ i < w.session.declaredSize, ∃ p ∈ w0.accepted events, i ∈ p.toWrite.range) ↔
      ∀ i < w.session.declaredSize, ∃ v ∈ ws, i ∈ v.range := by
    simp [hws]
  have hdisjoint : ((w0.accepted events).Pairwise fun p q =>
      Disjoint p.toWrite.range q.toWrite.range) ↔ ws.Pairwise fun v v' =>
        Disjoint v.range v'.range := by
    rw [hws, List.pairwise_map]
  rw [PublishedComplete, ← hw, hcover, hdisjoint]
  constructor
  · rintro ⟨content, -, -, hcovers⟩
    have htotal : total ws = w.session.declaredSize :=
      le_antisymm (hreach.trans hbound) (le_total_of_covers hcovers)
    exact ⟨hfin.trans htotal,
      (covers_iff_pairwise_disjoint (fun v hv _ => hinside v hv) htotal).mp hcovers⟩
  · rintro ⟨hdeclared, hpairwise⟩
    have htotal : total ws = w.session.declaredSize := hfin.symm.trans hdeclared
    exact ⟨_, hfile, le_antisymm hbound (htotal ▸ hreach),
      (covers_iff_pairwise_disjoint (fun v hv _ => hinside v hv) htotal).mpr hpairwise⟩

/-! ### Sample transfers

A START for the name `f` that declares some size, DATA with an ASCII payload, and a FIN that carries
the digest of a given file's first bytes. -/

def sampleStart (size : BitVec 64) : Packet where
  header := { packetType := .start, sessionId := 7, byteOffset := size }
  payload := asciiBytes "f"
  payload_le := by decide

def sampleData (sequence : BitVec 32) (offset : BitVec 64) (text : String)
    (h : (asciiBytes text).length ≤ kMaxPayloadSize) : Packet where
  header :=
    { packetType := .data, sessionId := 7, sequenceNumber := sequence, byteOffset := offset }
  payload := asciiBytes text
  payload_le := h

def sampleFin (sequence : BitVec 32) (content : Bytes) (size : BitVec 64) : Packet where
  header :=
    { packetType := .fin, sessionId := 7, sequenceNumber := sequence, byteOffset := size }
  payload := digestOf content size.toNat
  payload_le := by
    rw [digestOf_length]
    decide

/-- Such a FIN publishes when the running sum agrees with it and the open file starts with the
content hashed. -/
lemma sampleFin_publishes {w : World} {fd : ℕ} {sequence : BitVec 32} {size : BitVec 64}
    (hflags : w.session.published = false ∧ w.session.finished = false ∧
      w.session.started = true ∧ w.session.sessionId = 7)
    (hfile : w.session.file = some fd) (hbytes : size.toNat = w.session.bytesWritten)
    (hsize : size.toNat ≤ (w.fs.data fd).length) (hmax : size.toNat ≤ kOffsetMax)
    (hname : w.fs.names w.session.tempPath = some fd) :
    w.Publishes (sampleFin sequence (w.fs.data fd) size) {} := by
  obtain ⟨hpublished, hfinished, hstarted, hid⟩ := hflags
  refine World.publishes_of_checks hpublished ⟨hfinished, hstarted, hid.symm⟩ rfl
    ⟨hbytes, by simp [hfile], ?_, digestOf_length _ _⟩ ?_
  · rw [← hbytes]
    refine hashFile_succeeds (fun k want off hle => ?_) hsize
    simp only [FileSystem.readFile, hfile]
    exact readAt_succeeds (by simp) (by omega)
  · simp only [FileSystem.rename, if_true]
    split
    · split_ifs <;> rfl
    · next hnone => simp [hname] at hnone

/-- Two bytes in two chunks, out of order. -/
theorem published_complete_two_chunks :
    let w0 := World.init 4 [] FileSystem.empty
    let events := [SessionEvent.packet (sampleStart 2) {},
      .packet (sampleData 1 1 "k" (by decide)) {}, .packet (sampleData 0 0 "o" (by decide)) {}]
    let fin := sampleFin 2 ((w0.run events).fs.data 0) 2
    (w0.run events).Publishes fin {} ∧ PublishedComplete w0 events fin {} := by
  intro w0 events fin
  have hpub : (w0.run events).Publishes fin {} :=
    sampleFin_publishes (by decide) (by decide) (by decide) (by decide) (by decide) (by decide)
  exact ⟨hpub, (published_complete_iff 4 [] FileSystem.empty events fin {} hpub).mpr
    ⟨by decide, by decide⟩⟩

/-- A START that declares one byte, and a FIN for none of it. -/
theorem early_fin_publishes :
    ¬ ∀ (windowCapacity : BitVec 32) (outputDirectory : Path) (fs : FileSystem)
      (events : List SessionEvent) (packet : Packet) (io : IoEnv),
      ((World.init windowCapacity outputDirectory fs).run events).Publishes packet io →
        PublishedComplete (World.init windowCapacity outputDirectory fs) events packet io := by
  intro h
  set events := [SessionEvent.packet (sampleStart 1) {}] with hevents
  have hpub : ((World.init 1 [] FileSystem.empty).run events).Publishes
      (sampleFin 1 (((World.init 1 [] FileSystem.empty).run events).fs.data 0) 0) {} :=
    sampleFin_publishes (by decide) (by decide) (by decide) (by decide) (by decide) (by decide)
  obtain ⟨content, hcontent, hlength, -⟩ := h 1 [] FileSystem.empty events _ _ hpub
  obtain ⟨hfile, -⟩ := World.published_content hpub
  have haccepted : (World.init 1 [] FileSystem.empty).accepted events = [] := by decide
  rw [haccepted, List.map_nil, writeAll_nil] at hfile
  obtain rfl := Option.some.inj (hcontent.symm.trans hfile)
  have hdeclared : ((World.init 1 [] FileSystem.empty).run events).session.declaredSize = 1 := by
    decide
  rw [hdeclared] at hlength
  simp at hlength

/-- The bytes whose SHA-256 was compared with the FIN's payload are the whole published file. -/
def PublishedVerified (w0 : World) (events : List SessionEvent) (packet : Packet) (io : IoEnv) :
    Prop :=
  ∃ content, (w0.run events).publishedFile packet io = some content ∧
    packet.payload = digestOf content (w0.run events).session.bytesWritten ∧
    hashedBytes content (w0.run events).session.bytesWritten = content

/-- **When a published file is verified as a whole.**  Exactly when no accepted DATA packet wrote
beyond the FIN's `byte_offset`. -/
theorem published_verified_iff (windowCapacity : BitVec 32) (outputDirectory : Path)
    (fs : FileSystem) (events : List SessionEvent) (packet : Packet) (io : IoEnv)
    (hpub : ((World.init windowCapacity outputDirectory fs).run events).Publishes packet io) :
    let w0 := World.init windowCapacity outputDirectory fs
    PublishedVerified w0 events packet io ↔
      ∀ p ∈ w0.accepted events, p.payload ≠ [] →
        p.header.byteOffset.toNat + p.payload.length ≤ packet.header.byteOffset.toNat := by
  intro w0
  obtain ⟨hfile, hfin, hbytes, hdigest, hreach, -⟩ := World.published_content hpub
  set ws := (w0.accepted events).map Packet.toWrite with hws
  have hwhole : PublishedVerified w0 events packet io ↔ (writeAll 0 ws).length ≤ total ws := by
    rw [PublishedVerified]
    constructor
    · rintro ⟨content, hcontent, -, hhashed⟩
      obtain rfl := Option.some.inj (hfile.symm.trans hcontent)
      rw [hbytes, hashedBytes_eq hreach] at hhashed
      exact List.take_eq_self_iff _ |>.mp hhashed
    · intro hle
      refine ⟨_, hfile, by rw [hbytes]; exact hdigest, ?_⟩
      rw [hbytes, hashedBytes_eq hreach]
      exact List.take_of_length_le hle
  rw [hwhole, hfin]
  constructor
  · intro hle p hp hne
    have hmem : p.toWrite ∈ ws := List.mem_map_of_mem hp
    exact le_trans (stop_le_writeAll_length 0 hmem hne) hle
  · intro hall
    refine writeAll_length_le 0 fun v hv hne => ?_
    obtain ⟨p, hp, rfl⟩ := List.mem_map.mp hv
    exact hall p hp hne

/-- One chunk at the front of the file. -/
theorem published_verified_one_chunk :
    let w0 := World.init 4 [] FileSystem.empty
    let events := [SessionEvent.packet (sampleStart 2) {},
      .packet (sampleData 0 0 "ok" (by decide)) {}]
    let fin := sampleFin 1 ((w0.run events).fs.data 0) 2
    (w0.run events).Publishes fin {} ∧ PublishedVerified w0 events fin {} := by
  intro w0 events fin
  have hpub : (w0.run events).Publishes fin {} :=
    sampleFin_publishes (by decide) (by decide) (by decide) (by decide) (by decide) (by decide)
  exact ⟨hpub, (published_verified_iff 4 [] FileSystem.empty events fin {} hpub).mpr (by decide)⟩

/-- Two bytes behind a gap of two: the FIN names two bytes, so only the gap is hashed. -/
theorem unverified_tail_published :
    ¬ ∀ (windowCapacity : BitVec 32) (outputDirectory : Path) (fs : FileSystem)
      (events : List SessionEvent) (packet : Packet) (io : IoEnv),
      ((World.init windowCapacity outputDirectory fs).run events).Publishes packet io →
        PublishedVerified (World.init windowCapacity outputDirectory fs) events packet io := by
  intro h
  set w0 := World.init 4 [] FileSystem.empty with hw0
  set events := [SessionEvent.packet (sampleStart 4) {},
    .packet (sampleData 0 2 "ok" (by decide)) {}] with hevents
  have hpub : (w0.run events).Publishes (sampleFin 1 ((w0.run events).fs.data 0) 2) {} :=
    sampleFin_publishes (by decide) (by decide) (by decide) (by decide) (by decide) (by decide)
  obtain ⟨content, hcontent, -, hhashed⟩ := h 4 [] FileSystem.empty events _ _ hpub
  obtain ⟨hfile, -, hbytes, -, hreach, -⟩ := World.published_content hpub
  obtain rfl := Option.some.inj (hfile.symm.trans hcontent)
  rw [hbytes, hashedBytes_eq hreach] at hhashed
  revert hhashed
  decide

end SwiftLink
