import SwiftLink.Transfer.Completeness

/-!
# The declared size

`on_data` refuses a chunk that would write past the size declared at START: without that, its
comment says, a peer could grow the file arbitrarily after the fact.  The end of the chunk is a
64-bit sum of two numbers the peer chooses, so an offset close enough to `2 ^ 64` makes it small
again and the check lets the chunk through.
-/

namespace SwiftLink

open ByteFile

namespace ReceiverSession

/-- The `write_at` call of `on_data`, if it comes to that. -/
def onDataWrite (s : ReceiverSession) (packet : Packet) : Option (Write Byte) :=
  match s.window.classify packet.seq with
  | .accepted =>
      if (packet.header.byteOffset.toNat + packet.payload.length) % 2 ^ 64 > s.declaredSize then
        none
      else some packet.toWrite
  | _ => none

/-- **`on_data` touches the file by that call only.** -/
lemma onData_fs (s : ReceiverSession) (fs : FileSystem) (packet : Packet) (io : IoEnv) :
    (s.onData fs packet io).fs =
      match s.onDataWrite packet with
      | some write => (fs.writeFile s.file io.write write.bytes write.off).1
      | none => fs := by
  rw [onData, onDataWrite, Packet.seq]
  cases s.window.classify packet.header.sequenceNumber.toNat with
  | duplicate => rfl
  | outsideWindow => rfl
  | accepted =>
      simp only
      split_ifs <;> rfl

/-- The size a session was told is a 64-bit number. -/
lemma Handles.declaredSize_lt {s : ReceiverSession} {fs : FileSystem} {packet : Packet} {io : IoEnv}
    {handled : Handled} (h : s.Handles fs packet io handled) (hs : s.declaredSize < 2 ^ 64) :
    handled.session.declaredSize < 2 ^ 64 := by
  cases h with
  | opened => exact packet.header.byteOffset.isLt
  | replayed => exact hs
  | ignored => exact hs
  | restarted => exact hs
  | duplicate => exact hs
  | outside => exact hs
  | strayed => exact hs
  | misnamed => exact hs
  | openFailed => exact hs
  | oversized => exact hs
  | writeFailed => exact hs
  | stored => exact hs
  | finFailed => exact hs
  | published => exact hs

end ReceiverSession

lemma World.run_declaredSize_lt (windowCapacity : BitVec 32) (outputDirectory : Path)
    (fs : FileSystem) (events : List SessionEvent) :
    ((World.init windowCapacity outputDirectory fs).run events).session.declaredSize < 2 ^ 64 := by
  refine World.run_induction (P := fun w => w.session.declaredSize < 2 ^ 64) ?_ ?_ events
  · simp [World.init, ReceiverSession.init]
  · intro w e hw
    cases e with
    | packet packet io => exact (ReceiverSession.handlePacket_handles _ _ _ _).declaredSize_lt hw
    | closeFile => exact hw

/-- A DATA packet of the live session is handed to `on_data`. -/
lemma ReceiverSession.handlePacket_data {s : ReceiverSession} {packet : Packet}
    (hlive : s.Live packet) (htype : packet.header.packetType = .data) (fs : FileSystem)
    (io : IoEnv) :
    (s.handlePacket fs packet io).fs =
      match s.onDataWrite packet with
      | some write => (fs.writeFile s.file io.write write.bytes write.off).1
      | none => fs := by
  have hdata : s.handlePacket fs packet io =
      { s with stats.packetsReceived := s.stats.packetsReceived + 1 }.onData fs packet io := by
    simp [handlePacket, replays, hlive.finished, hlive.started, hlive.sessionId, htype]
  rw [hdata]
  exact onData_fs _ fs packet io

/-- What the declared size is for: no write ends beyond it, and a new chunk that would is answered
with an ERROR and leaves no trace. -/
structure SizeBounded (w : World) (packet : Packet) : Prop where
  /-- The packet touches the directory by the call `onDataWrite` only. -/
  writes : w.session.Live packet → ∀ io, (w.session.handlePacket w.fs packet io).fs =
    match w.session.onDataWrite packet with
    | some write => (w.fs.writeFile w.session.file io.write write.bytes write.off).1
    | none => w.fs
  writes_inside : w.session.Live packet → w.session.onDataWrite packet ≠ none →
    packet.header.byteOffset.toNat + packet.payload.length ≤ w.session.declaredSize
  refuses : w.session.Live packet → w.session.window.classify packet.seq = .accepted →
    w.session.declaredSize < packet.header.byteOffset.toNat + packet.payload.length →
    ∀ io, let handled := w.session.handlePacket w.fs packet io
      handled.reply
          = ReceiverSession.errorReply .sizeMismatch packet.header.sequenceNumber ∧
        handled.fs = w.fs ∧ handled.session.window = w.session.window ∧
        handled.session.bytesWritten = w.session.bytesWritten

/-- A new chunk whose 64-bit end is beyond the declared size is refused. -/
lemma ReceiverSession.handlePacket_oversized {s : ReceiverSession} {fs : FileSystem}
    {packet : Packet} (hlive : s.Live packet) (htype : packet.header.packetType = .data)
    (hclass : s.window.classify packet.seq = .accepted)
    (hsize : s.declaredSize < (packet.header.byteOffset.toNat + packet.payload.length) % 2 ^ 64)
    (io : IoEnv) :
    let handled := s.handlePacket fs packet io
    handled.reply = errorReply .sizeMismatch packet.header.sequenceNumber ∧ handled.fs = fs ∧
      handled.session.window = s.window ∧ handled.session.bytesWritten = s.bytesWritten := by
  have hstep := handlePacket_handles s fs packet io
  generalize s.handlePacket fs packet io = handled at hstep ⊢
  have hfinished := hlive.finished
  have hstarted := hlive.started
  rw [Packet.seq] at hclass
  cases hstep with
  | oversized => exact ⟨rfl, rfl, rfl, rfl⟩
  | writeFailed _ _ _ hfits => exact absurd hfits.size_le (not_le.mpr hsize)
  | stored _ _ hfits => exact absurd hfits.size_le (not_le.mpr hsize)
  | duplicate _ _ _ hclass' => simp [hclass] at hclass'
  | outside _ _ _ hclass' => simp [hclass] at hclass'
  | replayed _ hreplay => simp [replays, hfinished] at hreplay
  | ignored _ _ hwhy => simp [hfinished, htype] at hwhy
  | restarted _ _ htype' => simp [htype] at htype'
  | strayed _ _ hwhy => simp [htype, hstarted, hlive.sessionId] at hwhy
  | misnamed _ hopen => simp [hopen.started] at hstarted
  | openFailed _ _ hopen => simp [hopen.started] at hstarted
  | opened _ _ _ _ hopen => simp [hopen.started] at hstarted
  | finFailed _ _ _ _ htype' => simp [htype] at htype'
  | published _ _ _ htype' => simp [htype] at htype'

/-- **When the declared size is a hard bound.**  Exactly when the end of a new chunk does not wrap,
or wraps to something that is still too large. -/
theorem declared_size_bounds_iff (windowCapacity : BitVec 32) (outputDirectory : Path)
    (fs : FileSystem) (events : List SessionEvent) (packet : Packet)
    (htype : packet.header.packetType = .data) :
    let w := (World.init windowCapacity outputDirectory fs).run events
    SizeBounded w packet ↔
      (w.session.Live packet → w.session.window.classify packet.seq = .accepted →
        packet.header.byteOffset.toNat + packet.payload.length < 2 ^ 64 ∨
          w.session.declaredSize <
            (packet.header.byteOffset.toNat + packet.payload.length) % 2 ^ 64) := by
  intro w
  have hdeclared : w.session.declaredSize < 2 ^ 64 :=
    World.run_declaredSize_lt windowCapacity outputDirectory fs events
  constructor
  · intro hbounded hlive hclass
    by_contra hnot
    obtain ⟨hwraps, hsmall⟩ := not_or.mp hnot
    have hwrites : w.session.onDataWrite packet ≠ none := by
      rw [ReceiverSession.onDataWrite, hclass]
      simp only
      rw [if_neg hsmall]
      simp
    have hinside := hbounded.writes_inside hlive hwrites
    omega
  · intro hcond
    refine ⟨fun hlive => ReceiverSession.handlePacket_data hlive htype w.fs,
      fun hlive hwrites => ?_, fun hlive hclass hbeyond io => ?_⟩
    · rw [ReceiverSession.onDataWrite] at hwrites
      split at hwrites
      · next hclass =>
        split_ifs at hwrites with hsize
        · simp at hwrites
        · rcases hcond hlive hclass with hsum | hlarge
          · rwa [Nat.mod_eq_of_lt hsum, not_lt] at hsize
          · exact absurd hlarge hsize
      · simp at hwrites
    · refine ReceiverSession.handlePacket_oversized hlive htype hclass ?_ io
      rcases hcond hlive hclass with hsum | hlarge
      · rwa [Nat.mod_eq_of_lt hsum]
      · exact hlarge

/-- A chunk of two bytes for a file of one. -/
theorem declared_size_bounds_one_byte :
    let w := (World.init 4 [] FileSystem.empty).run [.packet (sampleStart 1) {}]
    (w.session.handlePacket w.fs (sampleData 0 0 "ok" (by decide)) {}).reply
      = ReceiverSession.errorReply .sizeMismatch 0 := by
  intro w
  have hbounded := (declared_size_bounds_iff 4 [] FileSystem.empty [.packet (sampleStart 1) {}]
    (sampleData 0 0 "ok" (by decide)) rfl).mpr fun _ _ => Or.inl (by decide)
  exact (hbounded.refuses ⟨by decide, by decide, by decide⟩ (by decide) (by decide) {}).1

/-- Two bytes at the last 64-bit offset pass the check of a session that was told one byte. -/
theorem wrapped_end_is_written :
    ¬ ∀ (windowCapacity : BitVec 32) (outputDirectory : Path) (fs : FileSystem)
      (events : List SessionEvent) (packet : Packet),
      ((World.init windowCapacity outputDirectory fs).run events).session.started = true →
      packet.header.packetType = .data →
      SizeBounded ((World.init windowCapacity outputDirectory fs).run events) packet := by
  intro h
  have hbounded := h 4 [] FileSystem.empty [.packet (sampleStart 1) {}]
    (sampleData 0 0xFFFFFFFFFFFFFFFF "ok" (by decide)) (by decide) rfl
  have hinside := hbounded.writes_inside ⟨by decide, by decide, by decide⟩ (by decide)
  revert hinside
  decide

end SwiftLink
