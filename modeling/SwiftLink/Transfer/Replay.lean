import SwiftLink.Transfer.Completeness

/-!
# Who hears an ERROR again

A settled session repeats its ERROR to "whichever control packet provoked it, since the peer retries
that same packet".  What it goes by is the packet type and `session_id_`, and `session_id_` is
recorded by the first START only.  A FIN that comes before any START, or a START or FIN of another
session, is answered with an ERROR once; retried, it meets silence.

`error_repeated_iff` says for which packets the ERROR is repeated as intended: the ones that carry
the session's id, and the START that opens a session.
-/

namespace SwiftLink

/-- START or FIN. -/
def PacketType.IsControl (t : PacketType) : Prop := t = .start ∨ t = .fin

/-- The packet carries the session's id, or is the START that the session takes its id from. -/
def ReceiverSession.Recognises (s : ReceiverSession) (packet : Packet) : Prop :=
  packet.header.sessionId = s.sessionId ∨ s.started = false ∧ packet.header.packetType = .start

/-- The packet makes the session settle on an ERROR. -/
structure World.SettlesOnError (w : World) (packet : Packet) (io : IoEnv) : Prop where
  control : packet.header.packetType.IsControl
  before : w.session.finished = false
  after : (w.next (.packet packet io)).session.finished = true
  error : (w.next (.packet packet io)).session.finalReply.type = .error

namespace ReceiverSession

variable {s : ReceiverSession} {fs : FileSystem} {packet : Packet} {io : IoEnv} {handled : Handled}

/-- **Every way to settle on an ERROR** stores the reply it returns, and the id by which the session
will know the packet again is the packet's own exactly when the session recognises it. -/
lemma Handles.settles (h : Handles s fs packet io handled)
    (hcontrol : packet.header.packetType.IsControl) (hbefore : s.finished = false)
    (hafter : handled.session.finished = true) (herror : handled.session.finalReply.type = .error) :
    handled.reply = handled.session.finalReply ∧ handled.session.finalReply.send = true ∧
      (packet.header.sessionId = handled.session.sessionId ↔ s.Recognises packet) := by
  have hdata : packet.header.packetType ≠ .data := by
    rintro heq
    rcases hcontrol with h | h <;> simp [h] at heq
  cases h with
  | replayed stats hreplay => simp [replays, hbefore] at hreplay
  | ignored => simp [hbefore] at hafter
  | restarted => simp [hbefore] at hafter
  | duplicate => simp [hbefore] at hafter
  | outside => simp [hbefore] at hafter
  | opened => simp [named, hbefore] at hafter
  | stored => simp [hbefore] at hafter
  | oversized stats _ htype => exact absurd htype hdata
  | writeFailed stats fs' written hfits => exact absurd hfits.packetType hdata
  | published => simp at herror
  | strayed stats _ hwhy =>
      refine ⟨rfl, rfl, ?_⟩
      -- a START strays only into a session that has its id already
      have hnot : ¬ (s.started = false ∧ packet.header.packetType = .start) := by
        rintro ⟨hstarted, htype⟩
        rw [if_pos htype] at hwhy
        simp [hstarted] at hwhy
      simp [ReceiverSession.fail, Recognises, hnot]
  | misnamed stats hopen =>
      refine ⟨rfl, rfl, ?_⟩
      simp [ReceiverSession.fail, Recognises, hopen.started, hopen.packetType]
  | openFailed stats name hopen =>
      refine ⟨rfl, rfl, ?_⟩
      simp [ReceiverSession.fail, named, Recognises, hopen.started, hopen.packetType]
  | finFailed stats code error hlive =>
      refine ⟨rfl, rfl, ?_⟩
      simp [ReceiverSession.fail, Recognises, hlive.sessionId]

end ReceiverSession

/-- What a session settled on an ERROR answers a control packet depends on its id alone. -/
lemma World.reply_of_settled {w : World} (hfinished : w.session.finished = true)
    (herror : w.session.finalReply.type = .error) (hsend : w.session.finalReply.send = true)
    {packet : Packet} (hcontrol : packet.header.packetType.IsControl) (later : List SessionEvent)
    (io : IoEnv) :
    (w.run later).reply (.packet packet io) =
      if packet.header.sessionId = w.session.sessionId then w.session.finalReply else {} := by
  obtain ⟨-, stats, file, hsession⟩ := World.settled_run hfinished later
  have hstill : (w.run later).session.finished = true := by
    rw [hsession]
    exact hfinished
  have hreplays : (w.run later).session.replays packet.header =
      decide (packet.header.sessionId = w.session.sessionId) := by
    rw [hsession]
    rcases hcontrol with htype | htype
    · simp [ReceiverSession.replays, hfinished, herror, hsend, htype, beq_eq_decide]
    · simp [ReceiverSession.replays, hfinished, herror, hsend, htype, beq_eq_decide]
  obtain ⟨stats', hstep⟩ := ReceiverSession.handlePacket_of_finished hstill packet
  rw [World.reply, hstep, hreplays, hsession]
  simp

/-- **The ERROR is repeated exactly to a packet the session recognises.**  In every reachable state,
for every START or FIN that makes the session settle on an ERROR: every later re-delivery of that
packet is answered with the same ERROR if and only if the packet carries the session's id or is the
START of a session that has none yet. -/
theorem error_repeated_iff (windowCapacity : BitVec 32) (outputDirectory : Path) (fs : FileSystem)
    (events : List SessionEvent) (packet : Packet) (io : IoEnv)
    (h : ((World.init windowCapacity outputDirectory fs).run events).SettlesOnError packet io) :
    let w := (World.init windowCapacity outputDirectory fs).run events
    (∀ (later : List SessionEvent) (io' : IoEnv),
      ((w.next (.packet packet io)).run later).reply (.packet packet io') =
        w.reply (.packet packet io)) ↔ w.session.Recognises packet := by
  intro w
  obtain ⟨hreply, hsend, hid⟩ := (ReceiverSession.handlePacket_handles w.session w.fs packet
    io).settles h.control h.before h.after h.error
  have hlater := World.reply_of_settled (w := w.next (.packet packet io)) h.after h.error hsend
    h.control
  have hr : w.reply (.packet packet io) = (w.next (.packet packet io)).session.finalReply := hreply
  have hknown : packet.header.sessionId = (w.next (.packet packet io)).session.sessionId ↔
      w.session.Recognises packet := hid
  rw [← hknown, hr]
  constructor
  · intro hall
    by_contra hne
    have hsilent := (hlater [] {}).symm.trans (hall [] {})
    rw [if_neg hne] at hsilent
    have hsent : (w.next (.packet packet io)).session.finalReply.send = true := hsend
    rw [← hsilent] at hsent
    simp at hsent
  · intro heq later io'
    rw [hlater, if_pos heq]

/-- A START of session 8. -/
def sampleForeignStart : Packet where
  header := { packetType := .start, sessionId := 8, byteOffset := 2 }
  payload := asciiBytes "g"
  payload_le := by decide

/-- A START whose name is refused. -/
def sampleBadStart : Packet where
  header := { packetType := .start, sessionId := 7, byteOffset := 2 }
  payload := asciiBytes ".."
  payload_le := by decide

/-- A refused START hears the refusal again. -/
theorem error_repeated_iff_refused :
    let w := (World.init 4 [] FileSystem.empty).run []
    ∀ (later : List SessionEvent) (io' : IoEnv),
      ((w.next (.packet sampleBadStart {})).run later).reply (.packet sampleBadStart io') =
        w.reply (.packet sampleBadStart {}) :=
  (error_repeated_iff 4 [] FileSystem.empty [] sampleBadStart {}
    ⟨Or.inl rfl, by decide, by decide, by decide⟩).mpr (Or.inr ⟨rfl, rfl⟩)

/-- A session under way refuses the START of another one, once. -/
theorem error_not_repeated :
    ¬ ∀ (windowCapacity : BitVec 32) (outputDirectory : Path) (fs : FileSystem)
      (events : List SessionEvent) (packet : Packet) (io : IoEnv),
      ((World.init windowCapacity outputDirectory fs).run events).SettlesOnError packet io →
      ∀ (later : List SessionEvent) (io' : IoEnv),
        ((((World.init windowCapacity outputDirectory fs).run events).next
          (.packet packet io)).run later).reply (.packet packet io') =
        ((World.init windowCapacity outputDirectory fs).run events).reply (.packet packet io) := by
  intro h
  have hsettles : ((World.init 4 [] FileSystem.empty).run
      [.packet (sampleStart 2) {}]).SettlesOnError sampleForeignStart {} :=
    ⟨Or.inl rfl, by decide, by decide, by decide⟩
  have hagain := h 4 [] FileSystem.empty [.packet (sampleStart 2) {}] sampleForeignStart {} hsettles
    [] {}
  have hsend := congrArg Reply.send hagain
  revert hsend
  decide +kernel

end SwiftLink
