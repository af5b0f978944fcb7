import SwiftLink.Transfer.ReceiverSession

/-!
# The verdict is final and truthful

A session settles once, on a FIN_ACK or on an ERROR, and keeps four flags and a stored reply to say
so.  `Verdict` ties them together in every reachable state; once `finished_` is set, a packet moves
nothing but counters.
-/

namespace SwiftLink

/-- A FIN_ACK that is to be sent. -/
def Reply.IsFinAck (r : Reply) : Prop := r.send = true ∧ r.type = .finAck

instance (r : Reply) : Decidable r.IsFinAck := inferInstanceAs (Decidable (_ ∧ _))

/-- An ERROR that is to be sent, with a valid status in its first payload byte. -/
def Reply.IsError (r : Reply) : Prop :=
  r.send = true ∧ r.type = .error ∧
    ∃ code, r.payload.head?.bind StatusCode.ofByte? = some code

namespace ReceiverSession

lemma errorReply_isError (code : StatusCode) (sequence : BitVec 32) :
    (errorReply code sequence).IsError :=
  ⟨rfl, rfl, code, by simp [errorReply, StatusCode.errorPayload]⟩

/-- What the flags and the stored reply say about each other. -/
inductive Verdict (s : ReceiverSession) : Prop
  | pending (hfinished : s.finished = false) (hpublished : s.published = false)
      (herror : s.error = .none) (hreply : s.finalReply = {})
  | failed (hfinished : s.finished = true) (hpublished : s.published = false)
      (herror : s.error ≠ .none) (hreply : s.finalReply.IsError)
  | published (hfinished : s.finished = true) (hpublished : s.published = true)
      (herror : s.error = .none) (hreply : s.finalReply.IsFinAck)

lemma init_verdict (windowCapacity : BitVec 32) (outputDirectory : Path) :
    (init windowCapacity outputDirectory).Verdict :=
  .pending rfl rfl rfl rfl

lemma Verdict.closeFile {s : ReceiverSession} (h : s.Verdict) : s.closeFile.Verdict := by
  cases h with
  | pending hf hp he hr => exact .pending hf hp he hr
  | failed hf hp he hr => exact .failed hf hp he hr
  | published hf hp he hr => exact .published hf hp he hr

lemma Verdict.finished_of_published {s : ReceiverSession} (h : s.Verdict)
    (hpublished : s.published = true) : s.finished = true := by
  cases h with
  | pending _ hp => simp [hp] at hpublished
  | failed hf => exact hf
  | published hf => exact hf

lemma Verdict.of_unfinished {s : ReceiverSession} (h : s.Verdict) (hfinished : s.finished = false) :
    s.error = .none ∧ s.published = false := by
  cases h with
  | pending _ hp he _ => exact ⟨he, hp⟩
  | failed hf => simp [hf] at hfinished
  | published hf => simp [hf] at hfinished

/-- Failing an undecided session settles it. -/
lemma Verdict.fail {s : ReceiverSession} (h : s.Verdict) (hfinished : s.finished = false)
    {t : ReceiverSession} (ht : t.published = s.published) (fs : FileSystem) (code : StatusCode)
    {error : TransferError} (herror : error ≠ .none) (sequence : BitVec 32) :
    (t.fail fs code error sequence).session.Verdict :=
  .failed rfl (ht.trans (h.of_unfinished hfinished).2) herror (errorReply_isError code sequence)

/-- Nothing but fields the verdict does not read has changed. -/
lemma Verdict.congr {s t : ReceiverSession} (h : s.Verdict) (hf : t.finished = s.finished)
    (hp : t.published = s.published) (he : t.error = s.error)
    (hr : t.finalReply = s.finalReply) : t.Verdict := by
  cases h with
  | pending hf' hp' he' hr' =>
      exact .pending (hf.trans hf') (hp.trans hp') (he.trans he') (hr.trans hr')
  | failed hf' hp' he' hr' =>
      exact .failed (hf.trans hf') (hp.trans hp') (he ▸ he') (hr.symm ▸ hr')
  | published hf' hp' he' hr' =>
      exact .published (hf.trans hf') (hp.trans hp') (he.trans he') (hr.symm ▸ hr')

/-- **One packet keeps the verdict consistent.** -/
lemma Verdict.handles {s : ReceiverSession} {fs : FileSystem} {packet : Packet} {io : IoEnv}
    {handled : Handled} (h : s.Verdict) (hstep : Handles s fs packet io handled) :
    handled.session.Verdict := by
  cases hstep with
  | replayed stats => exact h.congr rfl rfl rfl rfl
  | ignored stats => exact h.congr rfl rfl rfl rfl
  | restarted stats => exact h.congr rfl rfl rfl rfl
  | duplicate stats => exact h.congr rfl rfl rfl rfl
  | outside stats => exact h.congr rfl rfl rfl rfl
  | opened stats => exact h.congr rfl rfl rfl rfl
  | stored stats => exact h.congr rfl rfl rfl rfl
  | strayed stats hfinished => exact h.fail hfinished (by rfl) _ _ (by decide) _
  | misnamed stats hopen => exact h.fail hopen.finished (by rfl) _ _ (by decide) _
  | openFailed stats name hopen => exact h.fail hopen.finished (by rfl) _ _ (by decide) _
  | oversized stats hlive => exact h.fail hlive.finished (by rfl) _ _ (by decide) _
  | writeFailed stats fs' written hfits =>
      exact h.fail hfits.finished (by rfl) _ _ (by decide) _
  | finFailed stats code error hlive _ herror => exact h.fail hlive.finished (by rfl) _ _ herror _
  | published stats fs' hlive =>
      exact .published rfl rfl (h.of_unfinished hlive.finished).1 ⟨rfl, rfl⟩

/-- **A settled session** answers from its stored verdict, touches no file, and changes nothing but
its counters, whatever the file system and whatever its calls would do. -/
lemma handlePacket_of_finished {s : ReceiverSession} (h : s.finished = true) (packet : Packet) :
    ∃ stats, ∀ fs io, s.handlePacket fs packet io =
      ⟨{ s with stats := stats }, fs, if s.replays packet.header then s.finalReply else {}⟩ := by
  have hreplays : ∀ stats, { s with stats := stats }.replays packet.header
      = s.replays packet.header := fun _ => rfl
  cases hr : s.replays packet.header with
  | true =>
      refine ⟨{ s.stats with
        packetsReceived := s.stats.packetsReceived + 1
        duplicatesReceived := s.stats.duplicatesReceived + 1 }, fun fs io => ?_⟩
      simp only [handlePacket, hreplays, hr, if_true]
  | false =>
      refine ⟨{ s.stats with packetsReceived := s.stats.packetsReceived + 1 }, fun fs io => ?_⟩
      simp only [handlePacket, hreplays, hr, Bool.false_eq_true, if_false]
      rw [if_pos h]

/-- A published session answers every FIN of its own with its FIN_ACK. -/
lemma Verdict.replays_fin {s : ReceiverSession} (h : s.Verdict) (hpublished : s.published = true)
    {header : PacketHeader} (htype : header.packetType = .fin)
    (hid : header.sessionId = s.sessionId) : s.replays header = true := by
  cases h with
  | pending _ hp => simp [hp] at hpublished
  | failed _ hp => simp [hp] at hpublished
  | published hf _ _ hr =>
      rw [replays, hf, hr.1, hr.2, htype, hid]
      simp

/-- A FIN_ACK goes out only from a published session. -/
lemma Verdict.of_finAck {s : ReceiverSession} {fs : FileSystem} {packet : Packet} {io : IoEnv}
    {handled : Handled} (h : s.Verdict) (hstep : Handles s fs packet io handled)
    (hreply : handled.reply.IsFinAck) : handled.session.published = true := by
  cases hstep with
  | replayed stats hr =>
      cases h with
      | pending _ _ _ hfinal =>
          have hsend : s.finalReply.send = true := hreply.1
          simp [hfinal] at hsend
      | failed _ _ _ hfinal =>
          have htype : s.finalReply.type = .finAck := hreply.2
          simp [hfinal.2.1] at htype
      | published _ hp => exact hp
  | published => rfl
  | ignored => simp [Reply.IsFinAck] at hreply
  | restarted => simp [Reply.IsFinAck] at hreply
  | duplicate => simp [Reply.IsFinAck] at hreply
  | outside => simp [Reply.IsFinAck] at hreply
  | opened => simp [Reply.IsFinAck] at hreply
  | stored => simp [Reply.IsFinAck] at hreply
  | strayed => simp [Reply.IsFinAck, ReceiverSession.fail, errorReply] at hreply
  | misnamed => simp [Reply.IsFinAck, ReceiverSession.fail, errorReply] at hreply
  | openFailed => simp [Reply.IsFinAck, ReceiverSession.fail, errorReply] at hreply
  | oversized => simp [Reply.IsFinAck, ReceiverSession.fail, errorReply] at hreply
  | writeFailed => simp [Reply.IsFinAck, ReceiverSession.fail, errorReply] at hreply
  | finFailed => simp [Reply.IsFinAck, ReceiverSession.fail, errorReply] at hreply

/-- **Publication is one kind of step**: a FIN of a live session that passed every check and whose
rename succeeded. -/
lemma Handles.of_published {s : ReceiverSession} {fs : FileSystem} {packet : Packet} {io : IoEnv}
    {handled : Handled} (hstep : Handles s fs packet io handled)
    (hbefore : s.published = false) (hafter : handled.session.published = true) :
    s.Live packet ∧ packet.header.packetType = .fin ∧ s.FinChecks fs packet io ∧
      fs.rename io.renameOk s.tempPath s.outputPath = (handled.fs, true) ∧
      handled.session.outputPath = s.outputPath ∧ handled.session.tempPath = s.tempPath ∧
      handled.reply =
        { send := true, type := .finAck, sequence := packet.header.sequenceNumber } := by
  cases hstep with
  | published stats fs' hlive htype hchecks hrename =>
      exact ⟨hlive, htype, hchecks, hrename, rfl, rfl, rfl⟩
  | replayed => simp [hbefore] at hafter
  | ignored => simp [hbefore] at hafter
  | restarted => simp [hbefore] at hafter
  | duplicate => simp [hbefore] at hafter
  | outside => simp [hbefore] at hafter
  | opened => simp [named, hbefore] at hafter
  | stored => simp [hbefore] at hafter
  | strayed => simp [ReceiverSession.fail, hbefore] at hafter
  | misnamed => simp [ReceiverSession.fail, hbefore] at hafter
  | openFailed => simp [ReceiverSession.fail, named, hbefore] at hafter
  | oversized => simp [ReceiverSession.fail, hbefore] at hafter
  | writeFailed => simp [ReceiverSession.fail, hbefore] at hafter
  | finFailed => simp [ReceiverSession.fail, hbefore] at hafter

end ReceiverSession

namespace World

lemma run_verdict (windowCapacity : BitVec 32) (outputDirectory : Path) (fs : FileSystem)
    (events : List SessionEvent) :
    ((init windowCapacity outputDirectory fs).run events).session.Verdict := by
  refine run_induction (P := fun w => w.session.Verdict)
    (ReceiverSession.init_verdict windowCapacity outputDirectory) (fun w e h => ?_) events
  cases e with
  | packet packet io => exact h.handles (ReceiverSession.handlePacket_handles _ _ _ _)
  | closeFile => exact h.closeFile

lemma of_finAck {w : World} (h : w.session.Verdict) {e : SessionEvent}
    (he : (w.reply e).IsFinAck) : (w.next e).session.published = true := by
  cases e with
  | packet packet io => exact h.of_finAck (ReceiverSession.handlePacket_handles _ _ _ _) he
  | closeFile => simp [reply, Reply.IsFinAck] at he

/-- A settled session stays settled, with the file it has. -/
lemma next_of_finished {w : World} (h : w.session.finished = true) (packet : Packet)
    (io : IoEnv) :
    ∃ stats, w.next (.packet packet io) = ⟨{ w.session with stats := stats }, w.fs⟩ := by
  obtain ⟨stats, heq⟩ := ReceiverSession.handlePacket_of_finished h packet
  exact ⟨stats, by rw [next, heq]⟩

/-- What a settled session may still change: its counters, and the descriptor the driver closes. -/
def Settled (w v : World) : Prop :=
  v.fs = w.fs ∧ ∃ stats file, v.session = { w.session with stats := stats, file := file }

lemma Settled.refl (w : World) : w.Settled w := ⟨rfl, _, _, rfl⟩

lemma Settled.next {w v : World} (h : w.session.finished = true) (hv : Settled w v)
    (e : SessionEvent) : Settled w (v.next e) := by
  obtain ⟨hfs, stats, file, hsession⟩ := hv
  cases e with
  | packet packet io =>
      have hfinished : v.session.finished = true := by rw [hsession]; exact h
      obtain ⟨stats', hstep⟩ := next_of_finished hfinished packet io
      refine ⟨?_, stats', file, ?_⟩
      · rw [hstep]
        exact hfs
      · rw [hstep, hsession]
  | closeFile => exact ⟨hfs, stats, none, by rw [World.next, hsession, ReceiverSession.closeFile]⟩

lemma settled_run {w : World} (h : w.session.finished = true) (events : List SessionEvent) :
    Settled w (w.run events) :=
  run_induction (P := Settled w) (Settled.refl w) (fun _ e hv => hv.next h e) events

/-- What is published stays published. -/
lemma published_next {w : World} (h : w.session.Verdict) {e : SessionEvent}
    (hpublished : w.session.published = true) : (w.next e).session.published = true := by
  obtain ⟨-, stats, file, hsession⟩ := settled_run (h.finished_of_published hpublished) [e]
  rw [show (w.next e) = w.run [e] from rfl, hsession]
  exact hpublished

/-- The packet makes the session publish. -/
def Publishes (w : World) (packet : Packet) (io : IoEnv) : Prop :=
  w.session.published = false ∧ (w.next (.packet packet io)).session.published = true

lemma Publishes.rename {w : World} {packet : Packet} {io : IoEnv} (h : w.Publishes packet io) :
    w.fs.rename io.renameOk w.session.tempPath w.session.outputPath =
      ((w.next (.packet packet io)).fs, true) :=
  ((ReceiverSession.handlePacket_handles _ _ _ _).of_published h.1 h.2).2.2.2.1

lemma Publishes.reply_eq {w : World} {packet : Packet} {io : IoEnv} (h : w.Publishes packet io) :
    w.reply (.packet packet io) =
      { send := true, type := .finAck, sequence := packet.header.sequenceNumber } :=
  ((ReceiverSession.handlePacket_handles _ _ _ _).of_published h.1 h.2).2.2.2.2.2.2

lemma Publishes.isFinAck {w : World} {packet : Packet} {io : IoEnv} (h : w.Publishes packet io) :
    (w.reply (.packet packet io)).IsFinAck := by
  rw [h.reply_eq]
  exact ⟨rfl, rfl⟩

/-- A published session has published at some point of its run. -/
lemma exists_publishes {w0 : World} (h0 : w0.session.published = false)
    (events : List SessionEvent) (h : (w0.run events).session.published = true) :
    ∃ before packet io after, events = before ++ SessionEvent.packet packet io :: after ∧
      (w0.run before).Publishes packet io := by
  induction events using List.reverseRecOn with
  | nil => simp [h0] at h
  | append_singleton events e ih =>
      cases hp : (w0.run events).session.published with
      | true =>
          obtain ⟨before, packet, io, after, heq, hpub⟩ := ih hp
          exact ⟨before, packet, io, after ++ [e], by simp [heq], hpub⟩
      | false =>
          rw [run_concat] at h
          cases e with
          | closeFile => simp [next, ReceiverSession.closeFile, hp] at h
          | packet packet io => exact ⟨events, packet, io, [], rfl, hp, h⟩

end World

/-- **The verdict is final and truthful.**  In every state a session can reach, whatever it was
sent and however its system calls turned out: the flags, the error and the stored reply agree; a
FIN_ACK is returned only after a rename that succeeded; and once the session has finished, nothing
that happens later touches a file or changes its verdict, and a published session answers every FIN
of its own with that same FIN_ACK. -/
theorem verdict_final_and_truthful (windowCapacity : BitVec 32) (outputDirectory : Path)
    (fs : FileSystem) (events : List SessionEvent) :
    let w := (World.init windowCapacity outputDirectory fs).run events
    (w.session.finished = true ∧ w.session.error = .none ↔ w.session.published = true) ∧
    (w.session.published = true ↔ w.session.finalReply.IsFinAck) ∧
    (w.session.error ≠ .none → w.session.finished = true ∧ w.session.finalReply.IsError) ∧
    (∀ e, (w.reply e).IsFinAck →
      ∃ before packet io after, events ++ [e] = before ++ SessionEvent.packet packet io :: after ∧
        (let v := (World.init windowCapacity outputDirectory fs).run before
         v.fs.rename io.renameOk v.session.tempPath v.session.outputPath =
          ((v.next (.packet packet io)).fs, true))) ∧
    (w.session.finished = true → ∀ later : List SessionEvent,
      (w.run later).fs = w.fs ∧
      (∃ stats file, (w.run later).session = { w.session with stats := stats, file := file }) ∧
      ∀ packet, ∃ stats reply,
        (∀ fs' io, (w.run later).session.handlePacket fs' packet io =
          ⟨{ (w.run later).session with stats := stats }, fs', reply⟩) ∧
        (w.session.published = true → packet.header.packetType = .fin →
          packet.header.sessionId = w.session.sessionId → reply = w.session.finalReply)) := by
  intro w
  have hverdict := World.run_verdict windowCapacity outputDirectory fs events
  refine ⟨?_, ?_, ?_, fun e he => ?_, fun hfinished later => ?_⟩
  · cases hverdict with
    | pending hf hp => simp [w, hf, hp]
    | failed hf hp he => simp [w, hf, hp, he]
    | published hf hp he => simp [w, hf, hp, he]
  · cases hverdict with
    | pending hf hp he hr => simp [w, hp, hr, Reply.IsFinAck]
    | failed hf hp he hr => simp [w, hp, hr.2.1, Reply.IsFinAck]
    | published hf hp he hr => exact ⟨fun _ => hr, fun _ => hp⟩
  · intro herror
    cases hverdict with
    | pending _ _ he => exact absurd he herror
    | failed hf _ _ hr => exact ⟨hf, hr⟩
    | published _ _ he => exact absurd he herror
  · have hpublished : ((World.init windowCapacity outputDirectory fs).run
        (events ++ [e])).session.published = true := by
      rw [World.run_concat]
      exact World.of_finAck hverdict he
    obtain ⟨before, packet, io, after, heq, hpub⟩ :=
      World.exists_publishes rfl (events ++ [e]) hpublished
    exact ⟨before, packet, io, after, heq, hpub.rename⟩
  · obtain ⟨hfs, stats, file, hsession⟩ := World.settled_run hfinished later
    refine ⟨hfs, ⟨stats, file, hsession⟩, fun packet => ?_⟩
    have hfinished' : (w.run later).session.finished = true := by rw [hsession]; exact hfinished
    obtain ⟨stats', hstep⟩ := ReceiverSession.handlePacket_of_finished hfinished' packet
    refine ⟨stats', _, hstep, fun hpublished htype hid => ?_⟩
    have hreplays : (w.run later).session.replays packet.header = true := by
      rw [hsession]
      exact hverdict.replays_fin hpublished htype hid
    rw [if_pos hreplays, hsession]

end SwiftLink
