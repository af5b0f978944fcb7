import SwiftLink.System.Delivery
import SwiftLink.System.EndToEnd
import SwiftLink.System.Errors
import SwiftLink.Transfer.Termination

/-!
# A transfer that gets through

The network owes the transfer nothing, so `send_file` may give up.  What it needs is little: of the
copies of a packet that the retry budget allows, one has to get there, and the answer to that one
copy has to get back while the sender still waits for it (`RoundTrip`).  The rest is the program's:
the session has an answer for every packet of its own sender, however late and in whatever order it
comes, and the answer is the one the sender waits for.

* `Smooth` — nothing the session sends is an ERROR, and what it has published it has published for a
  FIN of this job.
* `roundTrip_past` — after a round trip of a packet the sender never gives up on it.
* `transfer_completes` — with a round trip for every packet whose budget is spent, the transfer
  ends, without error, and the file is there.
-/

namespace SwiftLink

variable {Q : TimerQueue}

namespace Job

/-- The sequence number in the header of a packet. -/
def sequenceOf (job : Job) : OwnPacket → BitVec 32
  | .control .start => 0
  | .control .fin => job.finHeader.sequenceNumber
  | .data t => BitVec.ofNat 32 t

def typeOf : OwnPacket → PacketType
  | .control .start => .start
  | .control .fin => .fin
  | .data _ => .data

/-- How often the retry budget allows a packet to be sent. -/
def budgetOf (job : Job) : OwnPacket → ℤ
  | .control _ => job.config.maxRetries + 1
  | .data _ => job.config.maxRetries

/-- The answer a packet waits for. -/
def replyTo (job : Job) (p : OwnPacket) : Reply where
  send := true
  type := match p with
    | .control which => which.expectedReply
    | .data _ => .ack
  sequence := job.sequenceOf p

lemma decoded_wireOf {job : Job} {p : OwnPacket} {packet : Packet}
    (h : deserialize (job.wireOf p) = .ok packet) :
    packet.header.packetType = typeOf p ∧ packet.header.sessionId = job.config.sessionId ∧
      packet.header.sequenceNumber = job.sequenceOf p := by
  cases p with
  | control which =>
      cases which with
      | start =>
          rw [(decoded_of_serialize ⟨rfl, rfl, rfl⟩ h).1]
          exact ⟨rfl, rfl, rfl⟩
      | fin =>
          rw [(decoded_of_serialize ⟨rfl, rfl, rfl⟩ h).1]
          exact ⟨rfl, rfl, rfl⟩
  | data t =>
      rw [(decoded_of_serialize ⟨rfl, rfl, rfl⟩ h).1]
      exact ⟨rfl, rfl, rfl⟩

end Job

/-! ## What a sound session has sent -/

/-- A session that sends an ERROR has one. -/
lemma ReceiverSession.Handles.failed_of_error {s : ReceiverSession} {fs : FileSystem}
    {packet : Packet} {io : IoEnv} {handled : Handled} (h : s.Handles fs packet io handled)
    (hverdict : s.Verdict) (hreply : handled.reply.type = .error) :
    handled.session.error ≠ .none := by
  cases h with
  | replayed stats hreplays =>
      simp only [ReceiverSession.replays, Bool.and_eq_true] at hreplays
      cases hverdict with
      | pending hfinished => simp [hfinished] at hreplays
      | failed _ _ herror => exact herror
      | published _ _ _ hfinAck =>
          dsimp only at hreply
          simp [hfinAck.2] at hreply
  | ignored => simp at hreply
  | restarted => simp at hreply
  | duplicate => simp at hreply
  | outside => simp at hreply
  | opened => simp at hreply
  | stored => simp at hreply
  | published => simp at hreply
  | strayed => simp [ReceiverSession.fail]
  | misnamed => simp [ReceiverSession.fail]
  | openFailed => simp [ReceiverSession.fail]
  | oversized => simp [ReceiverSession.fail]
  | writeFailed => simp [ReceiverSession.fail]
  | finFailed stats code error hlive htype herror => exact herror

/-- The verdict a session publishes with echoes the FIN it publishes for. -/
lemma ReceiverSession.Handles.concludes {s : ReceiverSession} {fs : FileSystem}
    {packet : Packet} {io : IoEnv} {handled : Handled} (h : s.Handles fs packet io handled)
    (hverdict : s.Verdict) (hpublished : handled.session.published = true) :
    s.published = true ∧ handled.session.finalReply = s.finalReply ∨
      packet.header.packetType = .fin ∧ handled.session.finalReply =
        { send := true, type := .finAck, sequence := packet.header.sequenceNumber } := by
  -- a session that fails now had not settled, and so had not published
  have hunfinished (hfinished : s.finished = false) : s.published = true → False := by
    simp [(hverdict.of_unfinished hfinished).2]
  cases h with
  | replayed => exact Or.inl ⟨hpublished, rfl⟩
  | ignored => exact Or.inl ⟨hpublished, rfl⟩
  | restarted => exact Or.inl ⟨hpublished, rfl⟩
  | duplicate => exact Or.inl ⟨hpublished, rfl⟩
  | outside => exact Or.inl ⟨hpublished, rfl⟩
  | opened => exact Or.inl ⟨hpublished, rfl⟩
  | stored => exact Or.inl ⟨hpublished, rfl⟩
  | published stats fs' hlive htype => exact Or.inr ⟨htype, rfl⟩
  | strayed stats hfinished => exact (hunfinished hfinished hpublished).elim
  | misnamed stats hopen => exact (hunfinished hopen.finished hpublished).elim
  | openFailed stats name hopen => exact (hunfinished hopen.finished hpublished).elim
  | oversized stats hlive => exact (hunfinished hlive.finished hpublished).elim
  | writeFailed stats fs' written hfits => exact (hunfinished hfits.finished hpublished).elim
  | finFailed stats code error hlive => exact (hunfinished hlive.finished hpublished).elim

/-- A transfer in which nothing has gone wrong, as seen from the network. -/
structure Smooth (job : Job) (sys : System Q) : Prop where
  own : ∀ bytes ∈ sys.toReceiver, ∃ p, bytes = job.wireOf p ∧
    ∀ t, p = .data t → t < sys.sender.window.nextSequence
  quiet : ∀ bytes ∈ sys.toSender, ∀ packet, deserialize bytes = .ok packet →
    packet.header.packetType ≠ .error
  concluded : sys.receiver.session.published = true → 2 ≤ sys.sender.phase.stage ∧
    sys.receiver.session.finalReply = job.replyTo (.control .fin)

namespace Smooth

variable {job : Job} {sys : System Q}

lemma init (job : Job) (windowCapacity : BitVec 32) (outputDirectory : Path) (fs : FileSystem) :
    Smooth job (System.init Q job windowCapacity outputDirectory fs) where
  own := by simp [System.init]
  quiet := by simp [System.init]
  concluded h := by simp [System.init, World.init, ReceiverSession.init] at h

lemma senderStep (hjoint : Joint job sys) (h : Smooth job sys) (env : SenderEnv) :
    Smooth job (sys.next job (.sender env)) := by
  have hsteps : Sender.Steps job sys.sender env (sys.sender.step job env).1
      (sys.sender.step job env).2 := Sender.step_steps hjoint.sender
  have hnext : sys.sender.window.nextSequence ≤
      (sys.sender.step job env).1.window.nextSequence := by
    have := (Sender.step_turn hjoint.sender env).nextSequence hjoint.sender
    omega
  refine ⟨fun bytes hbytes => ?_, h.quiet, fun hpublished => ?_⟩
  · rcases List.mem_append.mp hbytes with hold | hnew
    · obtain ⟨p, hp, hlt⟩ := h.own bytes hold
      exact ⟨p, hp, fun t ht => (hlt t ht).trans_le hnext⟩
    · cases hsteps.emits bytes (Option.mem_toList.mp hnew) with
      | start => exact ⟨.control .start, rfl, by simp⟩
      | data t ht =>
          refine ⟨.data t, rfl, fun u hu => ?_⟩
          obtain rfl := OwnPacket.data.inj hu
          exact ht.2.1
      | fin => exact ⟨.control .fin, rfl, by simp⟩
  · obtain ⟨hstage, hreply⟩ := h.concluded hpublished
    exact ⟨hstage.trans (Sender.step_follows job sys.sender env).stage_le, hreply⟩

/-- What arrives is a packet of the job, and says so. -/
lemma arrives (h : Smooth job sys) {bytes : Bytes} {packet : Packet}
    (hmem : bytes ∈ sys.toReceiver) (hpacket : deserialize bytes = .ok packet) :
    ∃ p, packet.header.packetType = Job.typeOf p ∧
      packet.header.sequenceNumber = job.sequenceOf p := by
  obtain ⟨p, rfl, -⟩ := h.own bytes hmem
  obtain ⟨htype, -, hsequence⟩ := Job.decoded_wireOf hpacket
  exact ⟨p, htype, hsequence⟩

/-- A chunk on its way has been sent. -/
lemma sent_lt (hjoint : Joint job sys) (h : Smooth job sys) {t : ℕ} {packet : Packet}
    (hmem : job.dataWire t ∈ sys.toReceiver) (hpacket : deserialize (job.dataWire t) = .ok packet)
    (hlt : t < job.totalChunks) : t < sys.sender.window.nextSequence := by
  obtain ⟨htype, -, hsequence⟩ := @Job.decoded_wireOf job (.data t) packet hpacket
  obtain ⟨p, hsame, hnext⟩ := h.own _ hmem
  obtain ⟨htype', -, hsequence'⟩ := Job.decoded_wireOf (hsame ▸ hpacket)
  rw [htype] at htype'
  cases p with
  | control which => cases which <;> simp [Job.typeOf] at htype'
  | data u =>
      have hu := (hnext u rfl).trans hjoint.sender.window.next_lt
      have hnumber := congrArg BitVec.toNat (hsequence.symm.trans hsequence')
      simp only [Job.sequenceOf, BitVec.toNat_ofNat] at hnumber
      rw [Nat.mod_eq_of_lt (hlt.trans (Sender.totalChunks_lt job)), Nat.mod_eq_of_lt hu] at hnumber
      exact hnumber ▸ hnext u rfl

/-- **Delivering a datagram keeps the transfer smooth**, as long as the session stays sound. -/
lemma deliverStep (hjoint : Joint job sys) (horder : InOrder sys) (h : Smooth job sys)
    {bytes : Bytes} {io : IoEnv} (henabled : sys.Enabled (.deliver bytes io))
    (hsound : Sound job (sys.next job (.deliver bytes io)).receiver) :
    Smooth job (sys.next job (.deliver bytes io)) := by
  simp only [System.next, World.receive] at hsound ⊢
  split
  · simp only [Option.toList_none, List.append_nil]
    exact ⟨h.own, h.quiet, h.concluded⟩
  · next packet hpacket =>
    rw [hpacket] at hsound
    have hstep :=
      ReceiverSession.handlePacket_handles sys.receiver.session sys.receiver.fs packet io
    have hnoError : (sys.receiver.reply (.packet packet io)).type ≠ .error :=
      fun herror => hstep.failed_of_error hjoint.verdict herror hsound.error
    refine ⟨h.own, fun bytes' hbytes' packet' hpacket' => ?_, fun hpublished => ?_⟩
    · rcases List.mem_append.mp hbytes' with hold | hnew
      · exact h.quiet bytes' hold packet' hpacket'
      · simp only [World.answer, Option.mem_toList] at hnew
        split_ifs at hnew with hsend
        obtain rfl := Option.some.inj hnew
        rw [(Reply.decoded_wire hpacket').1]
        exact hnoError
    · rcases hstep.concludes hjoint.verdict hpublished with ⟨hwas, hsame⟩ | ⟨hfin, hreply⟩
      · obtain ⟨hstage, hreply⟩ := h.concluded hwas
        exact ⟨hstage, hsame.trans hreply⟩
      · obtain ⟨p, htype, hnumber⟩ := h.arrives henabled hpacket
        have hsent := horder.sent bytes henabled packet hpacket
        rw [hfin] at hsent htype
        refine ⟨hsent, hreply.trans ?_⟩
        cases p with
        | control which =>
            cases which with
            | start => simp [Job.typeOf] at htype
            | fin => rw [hnumber]; rfl
        | data t => simp [Job.typeOf] at htype

end Smooth

/-- **Every reachable state is smooth** when no call of the receiver fails. -/
lemma Reachable.smooth {job : Job} {windowCapacity : BitVec 32} {outputDirectory : Path}
    {fs : FileSystem} {sys : System Q} (hjob : job.Transferable)
    (h : Reachable job IoEnv.Succeeds (System.init Q job windowCapacity outputDirectory fs) sys) :
    Smooth job sys := by
  induction h with
  | start => exact Smooth.init job windowCapacity outputDirectory fs
  | next hreach e henabled hcalls ih =>
      have hjoint := hreach.joint hjob.inRange
      cases e with
      | sender env => exact ih.senderStep hjoint env
      | closeFile => exact ⟨ih.own, ih.quiet, ih.concluded⟩
      | deliver bytes io =>
          exact ih.deliverStep hjoint (hreach.inOrder hjob.inRange) henabled
            (Reachable.sound hjob (.next hreach _ henabled hcalls))

/-! ## The answer to a packet -/

/-- The sender is done with the packet. -/
def Sender.Past (s : Sender Q) : OwnPacket → Prop
  | .control .start => 1 ≤ s.phase.stage
  | .control .fin => s.phase.stage = 3
  | .data t => s.Retired t ∨ 2 ≤ s.phase.stage

/-- Once done with a packet, the sender stays so. -/
lemma Sender.Past.step {job : Job} {s : Sender Q} (hinv : s.Inv job) {p : OwnPacket}
    (h : s.Past p) (env : SenderEnv) : (s.step job env).1.Past p := by
  have hstage := (Sender.step_follows job s env).stage_le
  have hlast : ∀ phase : SenderPhase, phase.stage ≤ 3 := by
    intro phase
    cases phase with
    | control which => cases which <;> simp [SenderPhase.stage]
    | awaitReply which => cases which <;> simp [SenderPhase.stage]
    | _ => simp [SenderPhase.stage]
  cases p with
  | control which =>
      cases which with
      | start => exact le_trans (show 1 ≤ s.phase.stage from h) hstage
      | fin =>
          have hdone : s.phase.stage = 3 := h
          exact le_antisymm (hlast _) (hdone ▸ hstage)
  | data t =>
      rcases h with hretired | hlate
      · exact Or.inl (hretired.step hinv env)
      · exact Or.inr (hlate.trans hstage)

section Answers

variable {job : Job} {windowCapacity : BitVec 32} {outputDirectory : Path} {fs : FileSystem}
  {sys : System Q} {io : IoEnv}

/-- A run in which calls do not fail is a run. -/
lemma Reachable.mono {P P' : IoEnv → Prop} {start : System Q} (h : Reachable job P start sys)
    (hcalls : ∀ io, P io → P' io) : Reachable job P' start sys := by
  induction h with
  | start => exact .start
  | next hreach e henabled hP ih =>
      refine .next ih e henabled ?_
      cases e with
      | sender env => trivial
      | closeFile => trivial
      | deliver bytes io => exact hcalls io hP

/-- A sound session under way answers a START or a FIN of its job as it should. -/
lemma answers_control {s s' : ReceiverSession} {packet : Packet} {fs' : FileSystem}
    {reply : Reply} (hfinished : s.finished = false)
    (hstep : s.Handles fs packet io ⟨s', fs', reply⟩) (hsound : s'.error = .none)
    {which : Control} (htype : packet.header.packetType = Job.typeOf (.control which))
    (hsequence : packet.header.sequenceNumber = job.sequenceOf (.control which)) :
    reply = job.replyTo (.control which) := by
  have hdata : packet.header.packetType ≠ .data := by
    cases which <;> simp [htype, Job.typeOf]
  have hknown : packet.header.packetType ≠ .start → packet.header.packetType = .fin := by
    cases which <;> simp [htype, Job.typeOf]
  cases hstep with
  | replayed stats hreplays => simp [ReceiverSession.replays, hfinished] at hreplays
  | ignored stats hreplays hwhy =>
      rcases hwhy with hwas | ⟨-, hstart, -, hfin⟩
      · simp [hfinished] at hwas
      · exact absurd (hknown hstart) hfin
  | restarted stats hlive hstart =>
      cases which with
      | start => rw [hsequence]; rfl
      | fin => simp [htype, Job.typeOf] at hstart
  | opened stats name fs' fd hopen =>
      cases which with
      | start => rw [hsequence]; rfl
      | fin => exact absurd (htype.symm.trans hopen.packetType) (by decide)
  | published stats fs' hlive hfin =>
      cases which with
      | start => simp [htype, Job.typeOf] at hfin
      | fin => rw [hsequence]; rfl
  | duplicate stats hlive htype' => exact absurd htype' hdata
  | outside stats hlive htype' => exact absurd htype' hdata
  | oversized stats hlive htype' => exact absurd htype' hdata
  | writeFailed stats fs' written hfits => exact absurd hfits.packetType hdata
  | stored stats fs' hfits => exact absurd hfits.packetType hdata
  | strayed => simp at hsound
  | misnamed => simp at hsound
  | openFailed => simp at hsound
  | finFailed stats code error hlive hfin herror => exact absurd hsound herror

/-- **What a sound session does with a packet of its job**: it gives the answer the packet waits
for, or the sender is done with the packet. -/
lemma Reachable.answers (hjob : job.Transferable)
    (hwindow : job.config.windowSize ≤ windowCapacity)
    (htop : job.totalChunks + max 1 windowCapacity.toNat ≤ 2 ^ 32)
    (hreach : Reachable job IoEnv.Succeeds
      (System.init Q job windowCapacity outputDirectory fs) sys) (hio : io.Succeeds)
    {p : OwnPacket} {packet : Packet} (hsent : job.wireOf p ∈ sys.toReceiver)
    (hpacket : deserialize (job.wireOf p) = .ok packet)
    (hlt : ∀ t, p = .data t → t < job.totalChunks) :
    sys.receiver.reply (.packet packet io) = job.replyTo p ∨ sys.sender.Past p := by
  have hjoint := hreach.joint hjob.inRange
  have hsmooth := hreach.smooth hjob
  have hsound := hreach.sound hjob
  obtain ⟨htype, hid, hsequence⟩ := Job.decoded_wireOf hpacket
  obtain ⟨-, hfrom⟩ := hjoint.toReceiver _ hsent packet hpacket
  have hstep :=
    ReceiverSession.handlePacket_handles sys.receiver.session sys.receiver.fs packet io
  cases hfinished : sys.receiver.session.finished with
  | true =>
      have hpublished : sys.receiver.session.published = true := by
        cases hjoint.verdict with
        | pending hf => simp [hfinished] at hf
        | failed _ _ herror => exact absurd hsound.error herror
        | published _ hp => exact hp
      obtain ⟨hstage, hreply⟩ := hsmooth.concluded hpublished
      cases p with
      | data t => exact Or.inr (Or.inr hstage)
      | control which =>
          cases which with
          | start => exact Or.inr (show 1 ≤ sys.sender.phase.stage by omega)
          | fin =>
              left
              have hown := (hjoint.own (hfrom.started (by simp [htype, Job.typeOf]))).1
              have hreplays : sys.receiver.session.replays packet.header = true := by
                simp [ReceiverSession.replays, hfinished, hid, hown, hreply, Job.replyTo,
                  Control.expectedReply, htype, Job.typeOf]
              rw [← hreply]
              simp only [World.reply, ReceiverSession.handlePacket]
              split
              · rfl
              · next hnot => exact absurd hreplays hnot
  | false =>
      cases p with
      | control which =>
          left
          obtain ⟨ps, hrecord, hcarries⟩ := hjoint.record
          have hafter : Sound job ⟨_, _⟩ := hsound.handles hjob hjoint.verdict hrecord hcarries
            hjoint.own hid hfrom hio hstep
          exact answers_control hfinished hstep hafter.error htype hsequence
      | data t =>
          by_cases hu : sys.sender.window.Unacked t
          · left
            have hstarted := hfrom.started (by simp [htype, Job.typeOf])
            have hcapacity : sys.receiver.session.window.capacity = max 1 windowCapacity.toNat := by
              rw [hreach.capacity_eq hjob.inRange]
              exact ReceiverWindow.init_capacity windowCapacity
            obtain ⟨-, -, hseq, -⟩ := Job.decoded_dataWire (hlt t rfl) hpacket
            have hclass : sys.receiver.session.window.classify packet.seq ≠ .outsideWindow := by
              rw [hseq]
              exact hjoint.classify_of_unacked (hcapacity ▸ max_le_max_left 1 hwindow)
                (hcapacity ▸ htop) hu
            obtain ⟨fd, hfile⟩ := hsound.opened hstarted hfinished
            have hcarries := hfrom.of_data htype
            have hack := hjoint.acknowledges hjob.inRange hstarted hfinished htype hid hcarries
              hclass fun _ => Sound.writes hjob hfile hcarries hio
            rw [hack.reply_eq, hsequence]
            rfl
          · exact Or.inr (Or.inl ⟨hsmooth.sent_lt hjoint hsent hpacket (hlt t rfl), hu⟩)

end Answers

/-! ## A round trip -/

/-- A copy of the packet gets there, and what the session answers to it, if anything, gets back
while the sender waits. -/
def RoundTrip (job : Job) (sys : System Q) (events : List NetEvent) (p : OwnPacket) : Prop :=
  ∃ before io during env after,
    events = (before ++ .deliver (job.wireOf p) io :: during) ++ .sender env :: after ∧
    (sys.run job (before ++ .deliver (job.wireOf p) io :: during)).sender.waits env = true ∧
    ∀ answer, ((sys.run job before).receiver.receive (job.wireOf p) io).2 = some answer →
      (sys.run job (before ++ .deliver (job.wireOf p) io :: during)).sender.Receives env answer

namespace Sender

variable {job : Job} {s : Sender Q} {env : SenderEnv}

/-- A sender that waits is in an exchange or in its main loop. -/
lemma phase_of_waits (h : s.waits env = true) :
    (∃ which attempt deadline, s.phase = .awaitReply which attempt deadline) ∨
      s.phase = .sleep ∧ s.window.earliestDeadline.2 ≠ none := by
  simp only [waits] at h
  split at h
  · next which attempt deadline hphase => exact Or.inl ⟨which, attempt, deadline, hphase⟩
  · next hphase =>
    refine Or.inr ⟨hphase, fun hnone => ?_⟩
    simp [hnone] at h
  · simp at h

/-- The answer of an exchange ends it. -/
lemma step_of_answer {which : Control} {attempt : ℤ} {deadline : TimePoint}
    (hphase : s.phase = .awaitReply which attempt deadline)
    (hreceives : s.Receives env ((job.replyTo (.control which)).wire job.config.sessionId)) :
    (s.step job env).1.phase = (s.acknowledged which).phase := by
  obtain ⟨hwaits, htimeout, hrecv⟩ := hreceives
  simp only [waits, hphase, decide_eq_true_eq] at hwaits
  obtain ⟨packet, htakes, hheader, -⟩ :=
    takes_of_serialize hwaits htimeout hrecv ⟨rfl, rfl, rfl⟩ (Nat.zero_le _)
  rw [step_of_takes hphase htakes, onControlReply, hheader]
  cases which <;> simp [onWire, Reply.header, Job.replyTo, Control.expectedReply,
    Control.expectedAck, Job.sequenceOf, acknowledged, finish]

/-- **The answer a packet waits for is heard**: with it the sender is done with the packet. -/
lemma past_of_answer (hinv : s.Inv job) {p : OwnPacket}
    (hreceives : s.Receives env ((job.replyTo p).wire job.config.sessionId))
    (hstage : (Job.typeOf p).sentFrom ≤ s.phase.stage)
    (hsent : ∀ t, p = .data t → t < s.window.nextSequence ∧ t < 2 ^ 32) :
    (s.step job env).1.Past p := by
  rcases phase_of_waits hreceives.1 with ⟨which, attempt, deadline, hphase⟩ | ⟨hsleep, hwaiting⟩
  · rw [hphase] at hstage
    cases p with
    | data t =>
        have hpast : s.Past (.data t) := by
          right
          rw [hphase]
          cases which with
          | start => simp [Job.typeOf, PacketType.sentFrom, SenderPhase.stage] at hstage
          | fin => exact le_rfl
        exact hpast.step hinv env
    | control sent =>
        cases sent with
        | start =>
            cases which with
            | start =>
                show 1 ≤ _
                rw [step_of_answer hphase hreceives]
                exact le_rfl
            | fin =>
                have hpast : s.Past (.control .start) := by
                  show 1 ≤ _
                  rw [hphase]
                  exact one_le_two
                exact hpast.step hinv env
        | fin =>
            cases which with
            | start => simp [Job.typeOf, PacketType.sentFrom, SenderPhase.stage] at hstage
            | fin =>
                show _ = 3
                rw [step_of_answer hphase hreceives]
                rfl
  · rw [hsleep] at hstage
    cases p with
    | control sent =>
        cases sent with
        | start =>
            have hpast : s.Past (.control .start) := by
              show 1 ≤ _
              rw [hsleep]
              decide
            exact hpast.step hinv env
        | fin => simp [Job.typeOf, PacketType.sentFrom, SenderPhase.stage] at hstage
    | data t =>
        obtain ⟨-, htimeout, hrecv⟩ := hreceives
        obtain ⟨hlt, hsmall⟩ := hsent t rfl
        have hack : s.AckReceived env _ := ⟨hsleep, hwaiting, htimeout,
          ⟨_, hrecv, deserialize_serialize ⟨rfl, rfl, rfl⟩ (Nat.zero_le _)⟩, rfl⟩
        have hnumber : (BitVec.ofNat 32 t).toNat = t := by
          rw [BitVec.toNat_ofNat]
          exact Nat.mod_eq_of_lt hsmall
        have hretired := retired_of_ack hinv hack (hnumber.symm ▸ hlt)
        exact Or.inl (hnumber ▸ hretired)

end Sender

namespace System

variable {job : Job} {sys : System Q}

/-- What is on its way stays on its way. -/
lemma mem_toReceiver_run {bytes : Bytes} (h : bytes ∈ sys.toReceiver) (events : List NetEvent) :
    bytes ∈ (sys.run job events).toReceiver := by
  induction events generalizing sys with
  | nil => exact h
  | cons e events ih =>
      refine ih ?_
      cases e with
      | sender env => exact List.mem_append_left _ h
      | deliver => exact h
      | closeFile => exact h

/-- Once done with a packet, the sender stays so throughout. -/
lemma past_run (hinv : sys.sender.Inv job) {p : OwnPacket} (h : sys.sender.Past p)
    (events : List NetEvent) : (sys.run job events).sender.Past p := by
  induction events generalizing sys with
  | nil => exact h
  | cons e events ih =>
      cases e with
      | sender env => exact ih (Sender.step_steps hinv).inv (h.step hinv env)
      | deliver => exact ih hinv h
      | closeFile => exact ih hinv h

end System

section RoundTrip

variable {job : Job} {windowCapacity : BitVec 32} {outputDirectory : Path} {fs : FileSystem}

/-- **After a round trip the sender is done with the packet**, and it was not before it had
returned. -/
lemma roundTrip_past (hjob : job.Transferable)
    (hlength : job.config.remoteName.length ≤ kMaxPayloadSize)
    (hwindow : job.config.windowSize ≤ windowCapacity)
    (htop : job.totalChunks + max 1 windowCapacity.toNat ≤ 2 ^ 32) {events : List NetEvent}
    (hruns : (System.init Q job windowCapacity outputDirectory fs).Runs job events)
    (hcalls : ∀ e ∈ events, e.Calls IoEnv.Succeeds) {p : OwnPacket}
    (hlt : ∀ t, p = .data t → t < job.totalChunks)
    (h : RoundTrip job (System.init Q job windowCapacity outputDirectory fs) events p) :
    ∃ first env second, events = first ++ .sender env :: second ∧
      ((System.init Q job windowCapacity outputDirectory fs).run job first).sender.waits env
        = true ∧
      ((System.init Q job windowCapacity outputDirectory fs).run job
        (first ++ [.sender env])).sender.Past p := by
  obtain ⟨before, io, during, env, after, rfl, hwaits, hanswer⟩ := h
  refine ⟨_, env, after, rfl, hwaits, ?_⟩
  set start := System.init Q job windowCapacity outputDirectory fs with hstart
  obtain ⟨hfirst, -⟩ := System.runs_append hruns
  obtain ⟨hbefore, henabled, -⟩ := System.runs_append hfirst
  have hreach : Reachable job IoEnv.Succeeds start (start.run job before) :=
    System.reachable_run .start hbefore fun e he => hcalls e (by simp [he])
  have hreach' : Reachable job IoEnv.Succeeds start
      (start.run job (before ++ .deliver (job.wireOf p) io :: during)) :=
    System.reachable_run .start hfirst fun e he =>
      hcalls e (List.mem_append_left _ he)
  have hio : io.Succeeds := hcalls (.deliver (job.wireOf p) io) (by simp)
  have hsplit : start.run job (before ++ .deliver (job.wireOf p) io :: during) =
      (start.run job before).run job (.deliver (job.wireOf p) io :: during) :=
    System.run_append job start before _
  have hlast : start.run job ((before ++ .deliver (job.wireOf p) io :: during) ++ [.sender env]) =
      (start.run job (before ++ .deliver (job.wireOf p) io :: during)).next job (.sender env) :=
    System.run_append job start _ [.sender env]
  rw [hlast]
  have hjoint' := hreach'.joint hjob.inRange
  obtain ⟨packet, hpacket, -⟩ := Job.wireOf_decodes (show job.data.length < 2 ^ 64 from
    hjob.inRange.size_lt) ⟨hlength, (min_le_right _ _).trans hjob.chunk_le⟩ hlt
  rcases hreach.answers hjob hwindow htop hio henabled hpacket hlt with hreply | hpast
  · have hmem : job.wireOf p ∈
        (start.run job (before ++ .deliver (job.wireOf p) io :: during)).toReceiver := by
      rw [hsplit]
      exact System.mem_toReceiver_run henabled _
    have hid := (Job.decoded_wireOf hpacket).2.1
    refine Sender.past_of_answer hjoint'.sender (hanswer _ ?_) ?_ fun t ht => ?_
    · simp only [World.receive, hpacket, World.answer, hreply, hid]
      rfl
    · rw [← (Job.decoded_wireOf hpacket).1]
      exact (hreach'.inOrder hjob.inRange).sent _ hmem packet hpacket
    · subst ht
      exact ⟨(hreach'.smooth hjob).sent_lt hjoint' hmem hpacket (hlt t rfl),
        (hlt t rfl).trans (Sender.totalChunks_lt job)⟩
  · refine Sender.Past.step hjoint'.sender ?_ env
    rw [hsplit]
    exact System.past_run (hreach.joint hjob.inRange).sender hpast _

end RoundTrip

/-! ## Why a sender gives up -/

/-- No call of the sender's step fails. -/
structure SenderEnv.Works (env : SenderEnv) : Prop where
  sendOk : env.sendOk = true
  timeoutOk : env.timeoutOk = true
  received : env.recv ≠ .failed
  read : ∀ o ∈ env.read, o.Harmless

lemma SenderEnv.Works.sends {env : SenderEnv} (h : env.Works) (wire : Bytes)
    (stats : TransferStats) : (sendPacket env wire stats).ok = true := by
  cases hdrop : env.drop with
  | true => simp [sendPacket, hdrop]
  | false => simp [sendPacket, hdrop, h.sendOk]

/-- A chunk can be read when no read fails. -/
lemma SenderEnv.Works.reads {job : Job} {env : SenderEnv} (h : env.Works)
    (hjob : job.Transferable) {t : ℕ} (ht : t < job.totalChunks) :
    readAt env.read job.data (job.chunkWant t) (job.chunkOffset t) = some (job.chunk t) ∧
      (job.chunk t).length = job.chunkWant t := by
  obtain ⟨hlength, -, hinside⟩ := hjob.inRange.chunk_length ht
  have hwant : (job.chunk t).length = job.chunkWant t := by
    rw [hlength, hjob.inRange.chunkWant_eq ht]
  refine ⟨readAt_succeeds h.read ?_, hwant⟩
  rw [← hwant]
  exact hinside.trans hjob.size_le

/-- No call of either party fails. -/
def NetEvent.Works : NetEvent → Prop
  | .sender env => env.Works
  | .deliver _ io => io.Succeeds
  | .closeFile => True

namespace Sender

variable {job : Job} {s : Sender Q} {env : SenderEnv}

/-- The step finds the budget of a packet spent. -/
inductive Exhausts (job : Job) (s : Sender Q) : OwnPacket → Prop
  | control (which : Control) (attempt : ℤ) (hphase : s.phase = .control which attempt)
      (hspent : job.config.maxRetries < attempt) : Exhausts job s (.control which)
  | data (t : ℕ) (rest : List ℕ) (hphase : s.phase = .resend (t :: rest))
      (hspent : job.config.maxRetries ≤ (s.inFlight (t % s.window.capacity)).attempts) :
      Exhausts job s (.data t)

/-- **Without a failing call the sender returns an error for two reasons only**: a budget is spent,
or the receiver has sent an ERROR. -/
lemma returns_cases (hjob : job.Transferable) (hworks : env.Works)
    (halive : ∀ error, s.phase ≠ .done error) {error : TransferError}
    (hdone : (s.step job env).1.phase = .done error) (herror : error ≠ .none) :
    (∃ p, s.Exhausts job p) ∨ error = .remoteError := by
  cases hphase : s.phase with
  | control which attempt =>
      by_cases hbudget : attempt ≤ job.config.maxRetries
      · rw [step, hphase] at hdone
        simp [stepControl, hbudget, hworks.sends] at hdone
      · exact Or.inl ⟨_, .control which attempt hphase (not_le.mp hbudget)⟩
  | awaitReply which attempt deadline =>
      rw [step, hphase] at hdone
      simp only [stepAwaitReply, hworks.timeoutOk, Bool.not_true, Bool.false_eq_true,
        if_false] at hdone
      split_ifs at hdone
      · split at hdone
        · simp at hdone
        · simp [hphase] at hdone
        · next hfailed => exact absurd hfailed hworks.received
        · split at hdone
          · simp [hphase] at hdone
          · simp only [onControlReply] at hdone
            split_ifs at hdone
            · exact Or.inr (SenderPhase.done.inj hdone).symm
            · simp [hphase] at hdone
            · cases which with
              | start => simp [acknowledged] at hdone
              | fin => exact absurd (SenderPhase.done.inj hdone).symm herror
            · simp [hphase] at hdone
  | loop =>
      rw [step, hphase] at hdone
      simp only [stepLoop] at hdone
      split_ifs at hdone
      simp [finishData] at hdone
  | fill =>
      rw [step, hphase] at hdone
      simp only [stepFill] at hdone
      split_ifs at hdone with hcond
      obtain ⟨hread, hlength⟩ := hworks.reads hjob hcond.2
      simp [hread, hlength, hworks.sends] at hdone
      simp [hphase] at hdone
  | sleep =>
      rw [step, hphase] at hdone
      simp only [stepSleep, hworks.timeoutOk, Bool.not_true, Bool.false_eq_true, if_false,
        if_neg hworks.received] at hdone
      split at hdone
      · simp [finishData] at hdone
      · simp at hdone
  | resend expired =>
      cases expired with
      | nil => simp [step, hphase] at hdone
      | cons t rest =>
          by_cases hbudget :
              job.config.maxRetries ≤ (s.inFlight (t % s.window.capacity)).attempts
          · exact Or.inl ⟨_, .data t rest hphase hbudget⟩
          · rw [step, hphase] at hdone
            simp [stepResend, hbudget, hworks.sends] at hdone
  | done error' => exact absurd hphase (halive error')

/-- The sender is not done with a packet whose budget it finds spent. -/
lemma Exhausts.not_past {p : OwnPacket} (h : s.Exhausts job p) (hinv : s.Inv job) : ¬ s.Past p := by
  cases h with
  | control which attempt hphase =>
      intro hpast
      cases which with
      | start =>
          have hstage : 1 ≤ s.phase.stage := hpast
          simp [hphase, SenderPhase.stage] at hstage
      | fin =>
          have hstage : s.phase.stage = 3 := hpast
          simp [hphase, SenderPhase.stage] at hstage
  | data t rest hphase =>
      have hat := hinv.phase
      rw [hphase] at hat
      rintro (hretired | hlate)
      · exact hretired.2 (hat.2 t List.mem_cons_self)
      · simp [hphase, SenderPhase.stage] at hlate

/-- A sender that finds a budget spent is not waiting. -/
lemma Exhausts.not_waits {p : OwnPacket} (h : s.Exhausts job p) (env : SenderEnv) :
    s.waits env = false := by
  cases h with
  | control which attempt hphase => simp [waits, hphase]
  | data t rest hphase => simp [waits, hphase]

/-- **A spent budget has been spent**: on that many calls of `send_packet`. -/
lemma Exhausts.calls_eq {stats : TransferStats} (hmax : 1 ≤ job.config.maxRetries)
    {envs : List SenderEnv} {p : OwnPacket}
    (h : ((start Q job stats).run job envs).Exhausts job p) :
    (calls ((start Q job stats).sendings job envs) p : ℤ) = job.budgetOf p := by
  have hcounted : Counted job stats ((start Q job stats).sendings job envs)
      (fun t => (start Q job stats).timeoutsOf job t envs) ((start Q job stats).run job envs) :=
    run_counted hmax envs
  have hinv := start_run_inv Q job stats envs
  generalize (start Q job stats).run job envs = s at h hcounted hinv
  cases h with
  | control which attempt hphase hspent =>
      have hcontrol := hcounted.control (by simp [hphase])
      rw [hphase] at hcontrol
      cases which with
      | start =>
          obtain ⟨-, hle, hcount, -⟩ := hcontrol
          rw [hcount, Job.budgetOf]
          omega
      | fin =>
          obtain ⟨-, hle, hcount⟩ := hcontrol
          rw [hcount, Job.budgetOf]
          omega
  | data t rest hphase hspent =>
      have hdata := hcounted.data (by simp [hphase])
      have hat := hinv.phase
      rw [hphase] at hat
      have hcount := hdata.attempts t (hat.2 t List.mem_cons_self)
      have hle := hcounted.budget.data t
      rw [Job.budgetOf]
      omega

/-- A budget that has been spent stays spent. -/
lemma calls_append_of_spent {stats : TransferStats} (hmax : 1 ≤ job.config.maxRetries)
    {envs : List SenderEnv} {p : OwnPacket}
    (h : (calls ((start Q job stats).sendings job envs) p : ℤ) = job.budgetOf p)
    (envs' : List SenderEnv) :
    (calls ((start Q job stats).sendings job (envs ++ envs')) p : ℤ) = job.budgetOf p := by
  have hcounted : Counted job stats ((start Q job stats).sendings job (envs ++ envs'))
      (fun t => (start Q job stats).timeoutsOf job t (envs ++ envs'))
      ((start Q job stats).run job (envs ++ envs')) := run_counted hmax (envs ++ envs')
  have hbudget := hcounted.budget
  have hmore : calls ((start Q job stats).sendings job envs) p ≤
      calls ((start Q job stats).sendings job (envs ++ envs')) p := by
    rw [sendings_append, calls, calls, List.countP_append]
    exact Nat.le_add_right _ _
  have hle : (calls ((start Q job stats).sendings job (envs ++ envs')) p : ℤ) ≤ job.budgetOf p := by
    cases p with
    | control which => exact hbudget.control which
    | data t => exact hbudget.data t
  omega

lemma Exhausts.data_lt {t : ℕ} (h : s.Exhausts job (.data t)) (hinv : s.Inv job) :
    t < job.totalChunks := by
  cases h with
  | data _ rest hphase =>
      have hat := hinv.phase
      rw [hphase] at hat
      exact (hat.2 t List.mem_cons_self).2.1.trans_le hinv.next_le

end Sender

/-! ## Whole runs -/

/-- The sender's part of a run. -/
def senderEnvs : List NetEvent → List SenderEnv
  | [] => []
  | .sender env :: events => env :: senderEnvs events
  | .deliver _ _ :: events => senderEnvs events
  | .closeFile :: events => senderEnvs events

namespace System

variable {job : Job} {sys : System Q}

lemma run_sender (job : Job) (sys : System Q) (events : List NetEvent) :
    (sys.run job events).sender = sys.sender.run job (senderEnvs events) := by
  induction events generalizing sys with
  | nil => rfl
  | cons e events ih =>
      cases e with
      | sender env => exact ih _
      | deliver => exact ih _
      | closeFile => exact ih _

lemma senderEnvs_append (first second : List NetEvent) :
    senderEnvs (first ++ second) = senderEnvs first ++ senderEnvs second := by
  induction first with
  | nil => rfl
  | cons e first ih => cases e <;> simp [senderEnvs, ih]

/-- The step at which `send_file` returns. -/
lemma returned_at {error : TransferError} (hstart : ∀ e, sys.sender.phase ≠ .done e)
    {events : List NetEvent} (hdone : (sys.run job events).sender.phase = .done error) :
    ∃ first env second, events = first ++ .sender env :: second ∧
      (∀ e, (sys.run job first).sender.phase ≠ .done e) ∧
      ((sys.run job first).sender.step job env).1.phase = .done error := by
  induction events using List.reverseRecOn with
  | nil => exact absurd hdone (hstart error)
  | append_singleton events e ih =>
      by_cases hwas : ∃ error', (sys.run job events).sender.phase = .done error'
      · obtain ⟨error', hwas⟩ := hwas
        have hsame : (sys.run job (events ++ [e])).sender = (sys.run job events).sender := by
          rw [run_append]
          exact run_of_done hwas [e]
        obtain ⟨first, env, second, heq, hrest⟩ := ih (hsame ▸ hdone)
        exact ⟨first, env, second ++ [e], by simp [heq], hrest⟩
      · have halive : ∀ error', (sys.run job events).sender.phase ≠ .done error' :=
          fun error' h => hwas ⟨error', h⟩
        rw [run_append] at hdone
        cases e with
        | sender env => exact ⟨events, env, [], rfl, halive, hdone⟩
        | deliver => exact absurd hdone (halive error)
        | closeFile => exact absurd hdone (halive error)

end System

section Completion

variable {job : Job} {windowCapacity : BitVec 32} {outputDirectory : Path} {fs : FileSystem}

lemma NetEvent.Works.calls {e : NetEvent} (h : e.Works) : e.Calls IoEnv.Succeeds := by
  cases e with
  | sender env => trivial
  | deliver bytes io => exact h
  | closeFile => trivial

/-- **The sender does not give up on a packet that has its round trip**, be it before or after the
point at which it would. -/
lemma RoundTrip.not_exhausts (hjob : job.Transferable)
    (hlength : job.config.remoteName.length ≤ kMaxPayloadSize)
    (hwindow : job.config.windowSize ≤ windowCapacity)
    (htop : job.totalChunks + max 1 windowCapacity.toNat ≤ 2 ^ 32) {p : OwnPacket}
    {first second : List NetEvent} {env : SenderEnv} {error : TransferError}
    (hruns : (System.init Q job windowCapacity outputDirectory fs).Runs job
      (first ++ .sender env :: second))
    (hcalls : ∀ e ∈ first ++ .sender env :: second, e.Calls IoEnv.Succeeds)
    (hlt : ∀ t, p = .data t → t < job.totalChunks)
    (hdone : (((System.init Q job windowCapacity outputDirectory fs).run job first).sender.step
      job env).1.phase = .done error)
    (h : RoundTrip job (System.init Q job windowCapacity outputDirectory fs)
      (first ++ .sender env :: second) p) :
    ¬ ((System.init Q job windowCapacity outputDirectory fs).run job first).sender.Exhausts
      job p := by
  intro hexhausts
  obtain ⟨first', env', second', hsplit, hwaits, hpast⟩ :=
    roundTrip_past hjob hlength hwindow htop hruns hcalls hlt h
  set start := System.init Q job windowCapacity outputDirectory fs with hstart
  have hinv (events : List NetEvent) : (start.run job events).sender.Inv job := by
    rw [System.run_sender]
    exact Sender.start_run_inv Q job {} _
  rcases List.append_eq_append_iff.mp hsplit with ⟨between, rfl, hrest⟩ | ⟨between, rfl, hrest⟩
  · -- the answer comes after the sender has returned
    rcases between with _ | ⟨e, between⟩
    · rw [List.append_nil, hexhausts.not_waits] at hwaits
      simp at hwaits
    · obtain ⟨rfl, -⟩ := List.cons.inj hrest
      have hreturned : (start.run job (first ++ .sender env :: between)).sender.phase =
          .done error := by
        rw [System.run_append]
        have hnext : ((start.run job first).next job (.sender env)).sender.phase = .done error :=
          hdone
        exact (congrArg Sender.phase (System.run_of_done hnext between)).trans hdone
      simp [Sender.waits, hreturned] at hwaits
  · rcases between with _ | ⟨e, between⟩
    · rw [List.append_nil] at hexhausts
      rw [hexhausts.not_waits] at hwaits
      simp at hwaits
    · obtain ⟨rfl, -⟩ := List.cons.inj hrest
      refine hexhausts.not_past (hinv _) ?_
      have hlater := System.past_run (hinv _) hpast between
      rw [← System.run_append] at hlater
      simpa using hlater

/-- A run in which every packet that uses up its budget has its round trip returns no error. -/
lemma returns_without_error (hjob : job.Transferable)
    (hlength : job.config.remoteName.length ≤ kMaxPayloadSize) (hmax : 1 ≤ job.config.maxRetries)
    (hwindow : job.config.windowSize ≤ windowCapacity)
    (htop : job.totalChunks + max 1 windowCapacity.toNat ≤ 2 ^ 32) {events : List NetEvent}
    (hruns : (System.init Q job windowCapacity outputDirectory fs).Runs job events)
    (hworks : ∀ e ∈ events, e.Works)
    (hfair : ∀ p,
      (Sender.calls ((Sender.init Q job).sendings job (senderEnvs events)) p : ℤ) = job.budgetOf p →
      RoundTrip job (System.init Q job windowCapacity outputDirectory fs) events p)
    {error : TransferError}
    (hdone : ((System.init Q job windowCapacity outputDirectory fs).run job events).sender.phase =
      .done error) : error = .none := by
  by_contra herror
  set start := System.init Q job windowCapacity outputDirectory fs with hstart
  obtain ⟨first, env, second, rfl, halive, hreturns⟩ :=
    System.returned_at (by simp [hstart, System.init, Sender.init]) hdone
  have hreturned : (start.run job (first ++ .sender env :: second)).sender.phase =
      ((start.run job first).sender.step job env).1.phase := by
    rw [System.run_append]
    have hnext : ((start.run job first).next job (.sender env)).sender.phase = .done error :=
      hreturns
    exact congrArg Sender.phase (System.run_of_done hnext second)
  have hsender : (start.run job first).sender = (Sender.init Q job).run job (senderEnvs first) :=
    System.run_sender job start first
  obtain ⟨hbefore, henabled, -⟩ := System.runs_append hruns
  have hreach : Reachable job IoEnv.Succeeds start (start.run job first) :=
    System.reachable_run .start hbefore fun e he => (hworks e (List.mem_append_left _ he)).calls
  have henv : env.Works := hworks (.sender env) (by simp)
  rcases Sender.returns_cases hjob henv halive hreturns herror with ⟨p, hexhausts⟩ | rfl
  · have hlt (t : ℕ) (ht : p = .data t) : t < job.totalChunks :=
      (ht ▸ hexhausts).data_lt (hreach.joint hjob.inRange).sender
    refine RoundTrip.not_exhausts hjob hlength hwindow htop hruns
      (fun e he => (hworks e he).calls) hlt hreturns (hfair p ?_) hexhausts
    rw [System.senderEnvs_append]
    exact Sender.calls_append_of_spent hmax ((hsender ▸ hexhausts).calls_eq hmax)
      (senderEnvs (.sender env :: second))
  · -- an ERROR that the sender took had been sent by the session
    rcases Sender.takes_of_remoteError hreturns with hwas | ⟨_, _, _, packet, -, htakes, htype⟩
    · exact halive _ hwas
    · obtain ⟨bytes, hrecv, hpacket⟩ := htakes.received
      exact (hreach.smooth hjob).quiet bytes (System.mem_toSender_of_enabled henabled hrecv) packet
        hpacket htype

end Completion

/-- **A transfer that gets through completes.**  No system call fails, the clock does not go back
and no wait ends early; the network may lose, repeat and reorder what it likes, but a packet whose
retry budget is spent has had a round trip.  Once the run is longer than `stepBound` and eight for
every distraction, `send_file` has returned `kNone` and the file is there. -/
theorem transfer_completes (Q : TimerQueue) (job : Job) (windowCapacity : BitVec 32)
    (outputDirectory : Path) (fs : FileSystem) (events : List NetEvent)
    (hsize : job.data.length ≤ 2 ^ 63 - 1) (hchunk : job.config.chunkSize ≤ 65535)
    (hname : (sanitizeFilename job.config.remoteName).1 = .none)
    (hlength : job.config.remoteName.length ≤ kMaxPayloadSize)
    (hmax : 1 ≤ job.config.maxRetries) (hwindow : job.config.windowSize ≤ windowCapacity)
    (htop : job.totalChunks + max 1 windowCapacity.toNat ≤ 2 ^ 32) :
    let start := System.init Q job windowCapacity outputDirectory fs
    let envs := senderEnvs events
    start.Runs job events → (∀ e ∈ events, e.Works) → Sender.Forward envs →
    (Sender.init Q job).Patiently job envs →
    (∀ p, (Sender.calls ((Sender.init Q job).sendings job envs) p : ℤ) = job.budgetOf p →
      RoundTrip job start events p) →
    Sender.stepBound job + 8 * (Sender.init Q job).distractions job envs < envs.length →
    (start.run job events).sender.phase = .done .none ∧
      (start.run job events).receiver.fs.view
        (start.run job events).receiver.session.outputPath = some job.data := by
  intro start envs hruns hworks hclock hpatient hfair hlong
  have hjob : job.Transferable := ⟨hsize, hchunk, hname⟩
  obtain ⟨error, hphase⟩ : ∃ error, (start.run job events).sender.phase = .done error := by
    by_contra hnone
    rw [System.run_sender] at hnone
    have hshort : envs.length ≤
        Sender.stepBound job + 8 * (Sender.start Q job {}).distractions job envs :=
      Sender.length_le_of_alive hmax hclock hpatient fun error hdone => hnone ⟨error, hdone⟩
    exact absurd hlong (not_lt.mpr hshort)
  obtain rfl := returns_without_error hjob hlength hmax hwindow htop hruns hworks hfair hphase
  have hreach : Reachable job IoEnv.Succeeds start (start.run job events) :=
    System.reachable_run .start hruns fun e he => (hworks e he).calls
  have hpublished := (hreach.joint hjob.inRange).done hphase
  exact ⟨hphase, (hreach.sound hjob).published hpublished⟩

/-- The one-byte transfer with nothing to spare: no chunk is sent twice. -/
def sampleOnce : List NetEvent :=
  [.sender {}, .deliver (sampleHasty.controlWire .start) {},
    .sender { recv := .datagram (sampleAnswer .startAck 0) }, .sender {}, .sender {},
    .deliver (sampleHasty.dataWire 0) {}, .sender {},
    .sender { recv := .datagram (sampleAnswer .ack 0) }, .sender {}, .sender {}, .sender {},
    .deliver (sampleHasty.controlWire .fin) {},
    .sender { recv := .datagram (sampleAnswer .finAck 1) }] ++ List.replicate 54 (.sender {})

lemma sampleOnce_works : ∀ e ∈ sampleOnce, e.Works := by
  have hsender (recv : RecvOutcome) (h : recv ≠ .failed) : SenderEnv.Works { recv := recv } :=
    ⟨rfl, rfl, h, by simp⟩
  have hio : IoEnv.Succeeds {} := ⟨rfl, by simp, rfl, by simp, rfl⟩
  simp only [sampleOnce, List.mem_append, List.mem_cons, List.mem_replicate, List.not_mem_nil,
    or_false]
  rintro e (hfirst | ⟨-, rfl⟩)
  · obtain rfl | rfl | rfl | rfl | rfl | rfl | rfl | rfl | rfl | rfl | rfl | rfl | rfl := hfirst
    all_goals first | exact hsender _ (by simp) | exact hio
  · exact hsender _ (by simp)

/-- The only packet whose budget is spent is the chunk. -/
lemma sampleOnce_spent {p : OwnPacket}
    (h : (Sender.calls ((Sender.init sortedTimers sampleHasty).sendings sampleHasty
      (senderEnvs sampleOnce)) p : ℤ) = sampleHasty.budgetOf p) : p = .data 0 := by
  have hlog : ((Sender.init sortedTimers sampleHasty).sendings sampleHasty
      (senderEnvs sampleOnce)).map Sending.packet = [.control .start, .data 0, .control .fin] := by
    decide +kernel
  rw [Sender.calls_eq_count, hlog] at h
  cases p with
  | control which => cases which <;> exact absurd h (by decide)
  | data t =>
      by_contra hnot
      have hzero : List.count (OwnPacket.data t) [.control .start, .data 0, .control .fin] = 0 := by
        rw [List.count_eq_zero]
        simpa using hnot
      rw [hzero, Job.budgetOf] at h
      exact absurd h (by decide)

/-- The file arrives. -/
theorem transfer_completes_once :
    let sys := (System.init sortedTimers sampleHasty 4 [] .empty).run sampleHasty sampleOnce
    sys.sender.phase = .done .none ∧
      sys.receiver.fs.view sys.receiver.session.outputPath = some (asciiBytes "x") := by
  refine transfer_completes sortedTimers sampleHasty 4 [] .empty sampleOnce (by decide) (by decide)
    (by decide) (by decide) (by decide) (by decide) (by decide) (by decide +kernel) sampleOnce_works
    (by decide +kernel) (by decide +kernel) (fun p hp => ?_) (by decide +kernel)
  obtain rfl := sampleOnce_spent hp
  refine ⟨sampleOnce.take 5, {}, [.sender {}], { recv := .datagram (sampleAnswer .ack 0) },
    sampleOnce.drop 8, rfl, by decide +kernel, fun answer hanswer => ?_⟩
  have hack : (((System.init sortedTimers sampleHasty 4 [] .empty).run sampleHasty
      (sampleOnce.take 5)).receiver.receive (sampleHasty.wireOf (.data 0)) {}).2
        = some (sampleAnswer .ack 0) := by
    decide +kernel
  obtain rfl := Option.some.inj (hack.symm.trans hanswer)
  exact ⟨by decide +kernel, rfl, rfl⟩

end SwiftLink
