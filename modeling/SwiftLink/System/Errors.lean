import SwiftLink.System.Stages

/-!
# What becomes of the receiver's errors

A session that gives up answers with an ERROR, and `remote_status` is there for the caller to report
why.  `exchange_control` returns as soon as it sees one.  The main loop of `send_file` looks for
ACKs only: an ERROR in reply to a DATA packet is dropped, the settled session answers nothing more,
and the sender retransmits until its budget is used up.

Where the sender is follows from what it has sent, so whether the ERROR is heard depends on the
packet it answers and on nothing else.
-/

namespace SwiftLink

variable {Q : TimerQueue}

/-! ## The ERROR and its reader -/

namespace Sender

/-- The step waits for a datagram. -/
def waits (s : Sender Q) (env : SenderEnv) : Bool :=
  match s.phase with
  | .awaitReply _ _ deadline => 0 < deadline - env.now
  | .sleep => s.window.earliestDeadline.2.isSome
  | _ => false

/-- The step waits for a datagram and is given this one. -/
def Receives (s : Sender Q) (env : SenderEnv) (bytes : Bytes) : Prop :=
  s.waits env = true ∧ env.timeoutOk = true ∧ env.recv = .datagram bytes

instance (s : Sender Q) (env : SenderEnv) (bytes : Bytes) : Decidable (s.Receives env bytes) :=
  inferInstanceAs (Decidable (_ ∧ _ ∧ _))

end Sender

namespace System

/-- The session gives up: it answers `packet` with an ERROR of status `code`. -/
structure GivesUp (sys : System Q) (bytes : Bytes) (io : IoEnv) (packet : Packet)
    (code : StatusCode) : Prop where
  decodes : deserialize bytes = .ok packet
  pending : sys.receiver.session.finished = false
  reply_eq : sys.receiver.reply (.packet packet io) =
    ReceiverSession.errorReply code packet.header.sequenceNumber

/-- The ERROR as it goes out. -/
def errorWire (packet : Packet) (code : StatusCode) : Bytes :=
  (ReceiverSession.errorReply code packet.header.sequenceNumber).wire packet.header.sessionId

/-- The sender receives the datagram at some point of the run. -/
def Hears (job : Job) (bytes : Bytes) : System Q → List NetEvent → Prop
  | _, [] => False
  | sys, .sender env :: events =>
      sys.sender.Receives env bytes ∨ Hears job bytes (sys.next job (.sender env)) events
  | sys, .deliver bytes' io :: events =>
      Hears job bytes (sys.next job (.deliver bytes' io)) events
  | sys, .closeFile :: events => Hears job bytes (sys.next job .closeFile) events

variable {job : Job} {sys : System Q}

lemma run_append (job : Job) (sys : System Q) (first second : List NetEvent) :
    sys.run job (first ++ second) = (sys.run job first).run job second :=
  List.foldl_append

lemma runs_append {first second : List NetEvent} (h : sys.Runs job (first ++ second)) :
    sys.Runs job first ∧ (sys.run job first).Runs job second := by
  induction first generalizing sys with
  | nil => exact ⟨trivial, h⟩
  | cons e first ih =>
      obtain ⟨hfirst, hsecond⟩ := ih h.2
      exact ⟨⟨h.1, hfirst⟩, hsecond⟩

/-- The step at which it is received. -/
lemma Hears.split {bytes : Bytes} {events : List NetEvent} (h : Hears job bytes sys events) :
    ∃ first env second, events = first ++ .sender env :: second ∧
      (sys.run job first).sender.Receives env bytes := by
  induction events generalizing sys with
  | nil => exact h.elim
  | cons e events ih =>
      have hlater : Hears job bytes (sys.next job e) events →
          ∃ first env second, e :: events = first ++ .sender env :: second ∧
            (sys.run job first).sender.Receives env bytes := by
        intro hrest
        obtain ⟨first, env, second, heq, hreceives⟩ := ih hrest
        exact ⟨e :: first, env, second, by simp [heq], hreceives⟩
      cases e with
      | sender env =>
          rcases h with hnow | hrest
          · exact ⟨[], env, events, rfl, hnow⟩
          · exact hlater hrest
      | deliver bytes' io => exact hlater h
      | closeFile => exact hlater h

/-- Nothing happens to a sender that has returned. -/
lemma run_of_done {error : TransferError} (h : sys.sender.phase = .done error)
    (events : List NetEvent) : (sys.run job events).sender = sys.sender := by
  induction events generalizing sys with
  | nil => rfl
  | cons e events ih =>
      have hsame : (sys.next job e).sender = sys.sender := by
        cases e with
        | sender env => simp [next, Sender.step, h]
        | deliver => rfl
        | closeFile => rfl
      exact (ih (hsame ▸ h)).trans hsame

/-- **The exchange that hears the ERROR returns it.** -/
lemma returns_of_awaitReply (job : Job) {env : SenderEnv} {packet : Packet} {code : StatusCode}
    {which : Control} {attempt : ℤ} {deadline : TimePoint}
    (hphase : sys.sender.phase = .awaitReply which attempt deadline)
    (hreceives : sys.sender.Receives env (errorWire packet code)) :
    (sys.next job (.sender env)).sender.phase = .done .remoteError ∧
      (sys.next job (.sender env)).sender.stats.remoteStatus = code := by
  obtain ⟨hwaits, htimeout, hrecv⟩ := hreceives
  simp only [Sender.waits, hphase, decide_eq_true_eq] at hwaits
  obtain ⟨error, htakes, hheader, hpayload⟩ := Sender.takes_of_serialize hwaits htimeout hrecv
    ⟨rfl, rfl, rfl⟩ (StatusCode.errorPayload_length_le code)
  have herror : error.header.packetType = .error := by
    rw [hheader]
    rfl
  refine ⟨(Sender.step_of_error hphase htakes herror).1,
    (Sender.step_of_error hphase htakes herror).2 code ?_⟩
  rw [hpayload]
  simp [ReceiverSession.errorReply, StatusCode.errorPayload]

end System

/-- **Why a session gives up on its own sender**: the START was refused, a new chunk could not be
stored, or the FIN did not go through. -/
lemma ReceiverSession.Handles.settles_cases {s : ReceiverSession} {fs : FileSystem}
    {packet : Packet} {io : IoEnv} {handled : Handled} (h : s.Handles fs packet io handled)
    (hinv : s.window.Inv) (hpending : s.finished = false) (hreply : handled.reply.type = .error)
    (hstrayed : packet.header.packetType ≠ .start →
      s.started = true ∧ packet.header.sessionId = s.sessionId)
    (hstart : s.started = true → packet.header.sessionId = s.sessionId) :
    packet.header.packetType = .start ∧ handled.session.started = false ∨
      packet.header.packetType = .data ∧ ¬ handled.session.window.Stored packet.seq ∨
      packet.header.packetType = .fin := by
  have hnew : s.window.classify packet.header.sequenceNumber.toNat = .accepted →
      ¬ s.window.Stored packet.seq := fun hclass => (hinv.classify_accepted_iff.mp hclass).1
  cases h with
  | replayed stats hr => simp [replays, hpending] at hr
  | ignored => simp at hreply
  | restarted => simp at hreply
  | duplicate => simp at hreply
  | outside => simp at hreply
  | opened => simp at hreply
  | stored => simp at hreply
  | published => simp at hreply
  | strayed stats hfinished hwhy =>
      split_ifs at hwhy with htype
      · exact absurd (hstart hwhy.1) hwhy.2
      · exact absurd (hstrayed htype).2 (hwhy (hstrayed htype).1)
  | misnamed stats hopen => exact Or.inl ⟨hopen.packetType, hopen.started⟩
  | openFailed stats name hopen => exact Or.inl ⟨hopen.packetType, hopen.started⟩
  | oversized stats hlive htype hclass => exact Or.inr (Or.inl ⟨htype, hnew hclass⟩)
  | writeFailed stats fs' written hfits =>
      exact Or.inr (Or.inl ⟨hfits.packetType, hnew hfits.accepted⟩)
  | finFailed stats code error hlive htype => exact Or.inr (Or.inr htype)

/-- The session has settled without chunk `t`, and the sender is past the handshake. -/
structure Deaf (job : Job) (t : ℕ) (sys : System Q) : Prop where
  lt : t < job.totalChunks
  finished : sys.receiver.session.finished = true
  missing : ¬ sys.receiver.session.window.Stored t
  stage : 1 ≤ sys.sender.phase.stage
  unaware : sys.sender.phase ≠ .done .remoteError

/-- **A deaf sender stays deaf**: without the chunk it never gets to the FIN, and nothing else reads
an ERROR. -/
lemma Deaf.next {job : Job} {t : ℕ} {sys : System Q} (hjoint : Joint job sys) (h : Deaf job t sys)
    (e : NetEvent) : Deaf job t (sys.next job e) := by
  have hsettled : sys.receiver.Settled (sys.next job e).receiver :=
    System.settled_next h.finished (World.Settled.refl _) e
  obtain ⟨-, stats, file, hsession⟩ := hsettled
  have hreceiver : (sys.next job e).receiver.session.finished = true ∧
      ¬ (sys.next job e).receiver.session.window.Stored t := by
    rw [hsession]
    exact ⟨h.finished, h.missing⟩
  cases e with
  | deliver bytes io => exact ⟨h.lt, hreceiver.1, hreceiver.2, h.stage, h.unaware⟩
  | closeFile => exact ⟨h.lt, hreceiver.1, hreceiver.2, h.stage, h.unaware⟩
  | sender env =>
      refine ⟨h.lt, h.finished, h.missing,
        h.stage.trans (Sender.step_follows job sys.sender env).stage_le, fun hreturned => ?_⟩
      rcases Sender.takes_of_remoteError hreturned with hold | ⟨which, _, _, _, hphase, -, -⟩
      · exact h.unaware hold
      · have hat := hjoint.sender.phase
        have hstage := h.stage
        rw [hphase] at hat hstage
        cases which with
        | start => simp [SenderPhase.stage] at hstage
        | fin =>
            have hcomplete : sys.sender.Complete job := hat
            exact h.missing (hjoint.retired t ⟨hcomplete.1.symm ▸ h.lt, hcomplete.2 t⟩)

section Run

variable {job : Job} {windowCapacity : BitVec 32} {outputDirectory : Path} {fs : FileSystem}
  {sys : System Q}

lemma Reachable.deaf_run {t : ℕ} {events : List NetEvent}
    (hreach : Reachable job (fun _ => True)
      (System.init Q job windowCapacity outputDirectory fs) sys)
    (hrange : job.InRange) (hruns : sys.Runs job events) (h : Deaf job t sys) :
    Deaf job t (sys.run job events) := by
  induction events generalizing sys with
  | nil => exact h
  | cons e events ih =>
      exact ih (.next hreach e hruns.1 (by cases e <;> trivial)) hruns.2
        (h.next (hreach.joint hrange) e)

/-- **Giving up, as seen from both sides.** -/
lemma System.GivesUp.cases {bytes : Bytes} {io : IoEnv} {packet : Packet} {code : StatusCode}
    (h : sys.GivesUp bytes io packet code) (hjoint : Joint job sys) (horder : InOrder sys)
    (henabled : sys.Enabled (.deliver bytes io)) :
    let settled := sys.next job (.deliver bytes io)
    settled.receiver.session.finished = true ∧
      (packet.header.packetType = .start ∧ settled.receiver.session.started = false ∨
        packet.header.packetType = .data ∧ Deaf job packet.seq settled ∨
        packet.header.packetType = .fin ∧ 2 ≤ settled.sender.phase.stage) := by
  intro settled
  have hsettled : settled.receiver = sys.receiver.next (.packet packet io) := by
    simp only [settled, System.next, World.receive, h.decodes]
  obtain ⟨hid, hfrom⟩ := hjoint.toReceiver bytes henabled packet h.decodes
  obtain ⟨ps, hrecord, -⟩ := hjoint.record
  have hstep := ReceiverSession.handlePacket_handles sys.receiver.session sys.receiver.fs packet io
  have herror : (sys.receiver.session.handlePacket sys.receiver.fs packet io).reply.type = .error :=
    congrArg Reply.type h.reply_eq
  have hsent := horder.sent bytes henabled packet h.decodes
  have hfinished := hstep.finished_of_error herror
  have hown : sys.receiver.session.started = true →
      packet.header.sessionId = sys.receiver.session.sessionId :=
    fun hstarted => hid.trans (hjoint.own hstarted).1.symm
  rw [hsettled]
  refine ⟨hfinished, ?_⟩
  rcases hstep.settles_cases hrecord.window_inv h.pending herror
    (fun htype => ⟨hfrom.started htype, hown (hfrom.started htype)⟩) hown with
    ⟨htype, hstarted⟩ | ⟨htype, hmissing⟩ | htype
  · exact Or.inl ⟨htype, hstarted⟩
  · rw [htype] at hsent
    refine Or.inr (Or.inl ⟨htype, (hfrom.of_data htype).seq_lt, ?_, ?_, hsent, fun hreturned => ?_⟩)
    · rw [hsettled]
      exact hfinished
    · rw [hsettled]
      exact hmissing
    · have hearly := horder.returned hreturned
      rw [h.pending] at hearly
      simp at hearly
  · rw [htype] at hsent
    exact Or.inr (Or.inr ⟨htype, hsent⟩)

/-- A sender that waits is heard in the exchange, unless it is in its data phase. -/
lemma Sender.Receives.exchange {s : Sender Q} {env : SenderEnv} {bytes : Bytes}
    (h : s.Receives env bytes) (hphase : s.phase ≠ .sleep) :
    ∃ which attempt deadline, s.phase = .awaitReply which attempt deadline := by
  have hwaits := h.1
  simp only [Sender.waits] at hwaits
  split at hwaits
  · next which attempt deadline hawaits => exact ⟨which, attempt, deadline, hawaits⟩
  · next hsleep => exact absurd hsleep hphase
  · simp at hwaits

end Run

/-- **Errors in reply to a START or a FIN reach the caller**, errors in reply to a DATA packet do
not.  In every run of the two parties in which the session gives up and the sender, still running,
receives the ERROR, `send_file` returns `kRemoteError` with the status of the ERROR exactly when
the packet the session gave up on was not a DATA packet. -/
theorem error_propagates_iff (Q : TimerQueue) (job : Job) (windowCapacity : BitVec 32)
    (outputDirectory : Path) (fs : FileSystem) (hrange : job.InRange)
    (before after : List NetEvent) (bytes : Bytes) (io : IoEnv) (packet : Packet)
    (code : StatusCode) :
    let start := System.init Q job windowCapacity outputDirectory fs
    let events := before ++ .deliver bytes io :: after
    start.Runs job events → (start.run job before).GivesUp bytes io packet code →
    System.Hears job (System.errorWire packet code)
      (start.run job (before ++ [.deliver bytes io])) after →
    ((start.run job events).sender.phase = .done .remoteError ∧
        (start.run job events).sender.stats.remoteStatus = code ↔
      packet.header.packetType ≠ .data) := by
  intro start events hruns hgives hhears
  set sys := start.run job before with hsys
  set settled := sys.next job (.deliver bytes io) with hsettled
  have hprior : start.run job (before ++ [.deliver bytes io]) = settled :=
    System.run_append job start before [.deliver bytes io]
  have hfinal : start.run job events = settled.run job after :=
    System.run_append job start before (.deliver bytes io :: after)
  rw [hprior] at hhears
  rw [hfinal]
  obtain ⟨hbefore, henabled, hafter⟩ := System.runs_append hruns
  have hcalls : ∀ e : NetEvent, e.Calls fun _ => True := fun e => by cases e <;> trivial
  have hreach : Reachable job (fun _ => True) start sys :=
    System.reachable_run .start hbefore fun e _ => hcalls e
  have hreach' : Reachable job (fun _ => True) start settled :=
    .next hreach _ henabled (hcalls _)
  obtain ⟨hfinished, hcases⟩ :=
    hgives.cases (hreach.joint hrange) (hreach.inOrder hrange) henabled
  constructor
  · rintro ⟨hreturned, -⟩ hdata
    rcases hcases with ⟨htype, -⟩ | ⟨-, hdeaf⟩ | ⟨htype, -⟩
    · simp [hdata] at htype
    · exact (hreach'.deaf_run hrange hafter hdeaf).unaware hreturned
    · simp [hdata] at htype
  · intro hnot
    obtain ⟨first, env, second, rfl, hreceives⟩ := hhears.split
    set waiting := settled.run job first with hwaiting
    have hjoint : Joint job waiting :=
      (System.reachable_run hreach' (System.runs_append hafter).1 fun e _ => hcalls e).joint hrange
    -- in neither case can the sender be in its data phase
    have hphase : waiting.sender.phase ≠ .sleep := by
      intro hsleep
      rcases hcases with ⟨-, hstarted⟩ | ⟨hdata, -⟩ | ⟨-, hstage⟩
      · have hkept : settled.receiver.Settled (settled.run job first).receiver :=
          System.settled_run hfinished (World.Settled.refl _) first
        obtain ⟨-, stats, file, hsession⟩ := hkept
        have hpast := hjoint.started (by rw [hsleep]; rfl)
        rw [hwaiting, hsession] at hpast
        exact absurd (hstarted.symm.trans hpast) (by simp)
      · exact hnot hdata
      · have hlater := hstage.trans (System.stage_le_run job settled first)
        rw [← hwaiting, hsleep] at hlater
        simp [SenderPhase.stage] at hlater
    obtain ⟨which, attempt, deadline, hawaits⟩ := hreceives.exchange hphase
    obtain ⟨hdone, hstatus⟩ := System.returns_of_awaitReply job hawaits hreceives
    have hend : settled.run job (first ++ .sender env :: second) =
        (waiting.next job (.sender env)).run job second :=
      System.run_append job settled first (.sender env :: second)
    rw [hend, System.run_of_done hdone second]
    exact ⟨hdone, hstatus⟩

/-! ### Two runs in which nothing is lost -/

/-- The event hands the datagram to the session. -/
def NetEvent.Delivers (bytes : Bytes) : NetEvent → Prop
  | .deliver bytes' _ => bytes' = bytes
  | _ => False

instance (bytes : Bytes) (e : NetEvent) : Decidable (e.Delivers bytes) :=
  match e with
  | .deliver bytes' _ => inferInstanceAs (Decidable (bytes' = bytes))
  | .sender _ => isFalse id
  | .closeFile => isFalse id

namespace System

instance instDecidableHears (job : Job) (bytes : Bytes) (sys : System Q)
    (events : List NetEvent) : Decidable (Hears job bytes sys events) :=
  match events with
  | [] => isFalse id
  | .sender env :: events =>
      have : Decidable (Hears job bytes (sys.next job (.sender env)) events) :=
        instDecidableHears job bytes _ events
      inferInstanceAs (Decidable (_ ∨ _))
  | .deliver _ _ :: events => instDecidableHears job bytes _ events
  | .closeFile :: events => instDecidableHears job bytes _ events

/-- Every datagram of the run reaches the other party later in the run. -/
def AllDelivered (job : Job) : System Q → List NetEvent → Prop
  | _, [] => True
  | sys, .sender env :: events =>
      (∀ bytes ∈ (sys.sender.step job env).2.toList, ∃ e ∈ events, e.Delivers bytes) ∧
        AllDelivered job (sys.next job (.sender env)) events
  | sys, .deliver bytes io :: events =>
      (∀ reply ∈ (sys.receiver.receive bytes io).2.toList,
        Hears job reply (sys.next job (.deliver bytes io)) events) ∧
        AllDelivered job (sys.next job (.deliver bytes io)) events
  | sys, .closeFile :: events => AllDelivered job (sys.next job .closeFile) events

instance instDecidableAllDelivered (job : Job) (sys : System Q) (events : List NetEvent) :
    Decidable (AllDelivered job sys events) :=
  match events with
  | [] => isTrue trivial
  | .sender env :: events =>
      have : Decidable (AllDelivered job (sys.next job (.sender env)) events) :=
        instDecidableAllDelivered job _ events
      inferInstanceAs (Decidable (_ ∧ _))
  | .deliver bytes io :: events =>
      have : Decidable (AllDelivered job (sys.next job (.deliver bytes io)) events) :=
        instDecidableAllDelivered job _ events
      inferInstanceAs (Decidable (_ ∧ _))
  | .closeFile :: events => instDecidableAllDelivered job _ events

lemma AllDelivered.hears {job : Job} {sys : System Q} {before after : List NetEvent}
    {bytes : Bytes} {io : IoEnv} {packet : Packet} {code : StatusCode}
    (h : AllDelivered job sys (before ++ .deliver bytes io :: after))
    (hgives : (sys.run job before).GivesUp bytes io packet code) :
    Hears job (errorWire packet code) (sys.run job (before ++ [.deliver bytes io])) after := by
  induction before generalizing sys with
  | nil =>
      have hanswer : (sys.receiver.receive bytes io).2 = some (errorWire packet code) := by
        simp only [World.receive, hgives.decodes, World.answer,
          show sys.receiver.reply (.packet packet io) = _ from hgives.reply_eq]
        rfl
      exact h.1 _ (by rw [hanswer]; exact List.mem_singleton_self _)
  | cons e before ih =>
      cases e with
      | sender env => exact ih h.2 hgives
      | deliver bytes' io' => exact ih h.2 hgives
      | closeFile => exact ih h hgives

end System

/-- The one-byte transfer to an empty directory. -/
def sampleRun (events : List NetEvent) : System sortedTimers :=
  (System.init sortedTimers sampleJob 4 [] .empty).run sampleJob events

/-- What arrives of the START and of the only chunk. -/
def sampleStartArrival : Packet where
  header := onWire sampleJob.startHeader sampleJob.config.remoteName
  payload := sampleJob.config.remoteName
  payload_le := by decide

def sampleDataArrival : Packet where
  header := onWire (sampleJob.dataHeader 0) (sampleJob.chunk 0)
  payload := sampleJob.chunk 0
  payload_le := by decide

def sampleError (code : StatusCode) : Bytes := (ReceiverSession.errorReply code 0).wire 7

/-- The START arrives, but the temporary cannot be opened; the ERROR is received. -/
def sampleRefused : List NetEvent :=
  [.sender {}] ++ .deliver (sampleJob.controlWire .start) { openOk := false } ::
    [.sender { recv := .datagram (sampleError .fileOpenFailed) }]

/-- The sender says why the transfer failed. -/
theorem error_propagates_start :
    (sampleRun sampleRefused).sender.phase = .done .remoteError ∧
      (sampleRun sampleRefused).sender.stats.remoteStatus = .fileOpenFailed := by
  have hgives : (sampleRun [.sender {}]).GivesUp (sampleJob.controlWire .start)
      { openOk := false } sampleStartArrival .fileOpenFailed :=
    ⟨deserialize_serialize ⟨rfl, rfl, rfl⟩ (by decide), by decide +kernel, by decide +kernel⟩
  have hall : System.AllDelivered sampleJob (System.init sortedTimers sampleJob 4 [] .empty)
      sampleRefused := by decide +kernel
  rw [sampleRun] at hgives ⊢
  rw [sampleRefused] at hall ⊢
  exact (error_propagates_iff sortedTimers sampleJob 4 [] .empty ⟨by decide, by decide⟩ _ _ _ _
    sampleStartArrival .fileOpenFailed (by decide +kernel) hgives
    (hall.hears hgives)).mpr (by decide)

/-- The handshake, and the chunk on its way. -/
def sampleSent : List NetEvent :=
  [.sender {}, .deliver (sampleJob.controlWire .start) {},
    .sender { recv := .datagram (sampleAnswer .startAck 0) }, .sender {}, .sender {}]

/-- The chunk is due at time `k`, is sent again, arrives, and is not answered. -/
def sampleRetry (k : ℤ) : List NetEvent :=
  [.sender { later := k }, .sender { now := k }, .deliver (sampleJob.dataWire 0) {}, .sender {},
    .sender {}, .sender {}]

/-- The ERROR is received at once; four retransmissions later the budget is used up. -/
def sampleIgnored : List NetEvent :=
  [.sender {}, .sender { recv := .datagram (sampleError .internalError) }, .sender {}, .sender {},
    .sender {}] ++ sampleRetry 1 ++ sampleRetry 2 ++ sampleRetry 3 ++ sampleRetry 4 ++
    [.sender { later := 5 }, .sender { now := 5 }]

/-- The write of the only chunk fails.  Every datagram of the run is delivered, the ERROR too, and
`send_file` returns `kPeerUnresponsive`. -/
theorem data_error_dropped :
    ¬ ∀ (Q : TimerQueue) (job : Job) (windowCapacity : BitVec 32) (outputDirectory : Path)
      (fs : FileSystem) (before after : List NetEvent) (bytes : Bytes) (io : IoEnv)
      (packet : Packet) (code : StatusCode), job.InRange →
      let start := System.init Q job windowCapacity outputDirectory fs
      let events := before ++ .deliver bytes io :: after
      start.Runs job events → System.AllDelivered job start events →
      (start.run job before).GivesUp bytes io packet code →
      (start.run job events).sender.phase = .done .remoteError ∧
        (start.run job events).sender.stats.remoteStatus = code := by
  intro h
  have hgives : (sampleRun sampleSent).GivesUp (sampleJob.dataWire 0)
      { write := [.fail] } sampleDataArrival .internalError :=
    ⟨deserialize_serialize ⟨rfl, rfl, rfl⟩ (by decide), by decide +kernel, by decide +kernel⟩
  have hphase : (sampleRun (sampleSent ++
      .deliver (sampleJob.dataWire 0) { write := [.fail] } :: sampleIgnored)).sender.phase
        = .done .peerUnresponsive := by
    decide +kernel
  rw [sampleRun] at hgives hphase
  have hreturned := (h sortedTimers sampleJob 4 [] .empty sampleSent sampleIgnored _
    { write := [.fail] } sampleDataArrival .internalError ⟨by decide, by decide⟩ (by decide +kernel)
    (by decide +kernel) hgives).1
  rw [hphase] at hreturned
  simp at hreturned

end SwiftLink
