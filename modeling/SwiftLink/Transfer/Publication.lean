import SwiftLink.Transfer.Completeness

/-!
# Publication is atomic

However a session ends, its directory is either as it was or has one new file under the final name.
Until the rename the session works in one file it created itself, under the temporary name, so no
reader of another name can see anything; the rename moves that file into place in one step; after
it, nothing is touched.

`Confined` is the invariant of the time before the rename.
-/

namespace SwiftLink

namespace ReceiverSession

/-- A session still waiting for its START has no temporary name. -/
def Unnamed (s : ReceiverSession) : Prop :=
  s.started = false → s.finished = false → s.tempPath = []

/-- A temporary name, once chosen, stays. -/
lemma Unnamed.handles {s : ReceiverSession} {fs : FileSystem} {packet : Packet} {io : IoEnv}
    {handled : Handled} (h : s.Unnamed) (hstep : s.Handles fs packet io handled) :
    handled.session.Unnamed ∧
      (s.tempPath ≠ [] → handled.session.tempPath = s.tempPath) := by
  cases hstep with
  | replayed => exact ⟨h, fun _ => rfl⟩
  | ignored => exact ⟨h, fun _ => rfl⟩
  | restarted => exact ⟨h, fun _ => rfl⟩
  | duplicate => exact ⟨h, fun _ => rfl⟩
  | outside => exact ⟨h, fun _ => rfl⟩
  | stored => exact ⟨h, fun _ => rfl⟩
  | opened stats name fs' fd hopen =>
      exact ⟨fun hs => by simp at hs, fun ht => absurd (h hopen.started hopen.finished) ht⟩
  | openFailed stats name hopen =>
      exact ⟨fun _ hf => by simp [ReceiverSession.fail] at hf,
        fun ht => absurd (h hopen.started hopen.finished) ht⟩
  | strayed => exact ⟨fun _ hf => by simp [ReceiverSession.fail] at hf, fun _ => rfl⟩
  | misnamed => exact ⟨fun _ hf => by simp [ReceiverSession.fail] at hf, fun _ => rfl⟩
  | oversized => exact ⟨fun _ hf => by simp [ReceiverSession.fail] at hf, fun _ => rfl⟩
  | writeFailed => exact ⟨fun _ hf => by simp [ReceiverSession.fail] at hf, fun _ => rfl⟩
  | finFailed => exact ⟨fun _ hf => by simp [ReceiverSession.fail] at hf, fun _ => rfl⟩
  | published => exact ⟨fun _ hf => by simp at hf, fun _ => rfl⟩

end ReceiverSession

/-- Before publication: the session has touched nothing, or it has added the temporary name, for a
file of its own, and changed nothing else. -/
inductive Confined (fs0 : FileSystem) (s : ReceiverSession) (fs : FileSystem) : Prop
  | untouched (hfs : fs = fs0) (hstarted : s.started = false)
  | writing (hstarted : s.started = true) (htemp : s.tempPath ≠ [])
      (hnames : fs.names = Function.update fs0.names s.tempPath (some fs0.next))
      (hdata : ∀ i < fs0.next, fs.data i = fs0.data i)
      (hfile : ∀ i, s.file = some i → i = fs0.next)

/-- Nothing was under the temporary name. -/
def TempFree (fs0 : FileSystem) (s : ReceiverSession) : Prop :=
  s.tempPath ≠ [] → fs0.names s.tempPath = none

namespace Confined

variable {fs0 fs : FileSystem} {s : ReceiverSession}

lemma init (windowCapacity : BitVec 32) (outputDirectory : Path) (fs0 : FileSystem) :
    Confined fs0 (ReceiverSession.init windowCapacity outputDirectory) fs0 :=
  .untouched rfl rfl

lemma closeFile (h : Confined fs0 s fs) : Confined fs0 s.closeFile fs := by
  cases h with
  | untouched hfs hstarted => exact .untouched hfs hstarted
  | writing hstarted htemp hnames hdata hfile =>
      exact .writing hstarted htemp hnames hdata fun i hi => by
        simp [ReceiverSession.closeFile] at hi

lemma congr {t : ReceiverSession} (h : Confined fs0 s fs) (hstarted : t.started = s.started)
    (htemp : t.tempPath = s.tempPath) (hfile : t.file = s.file) : Confined fs0 t fs := by
  cases h with
  | untouched hfs hs => exact .untouched hfs (hstarted.trans hs)
  | writing hs ht hn hd hf =>
      exact .writing (hstarted.trans hs) (htemp ▸ ht) (htemp ▸ hn) hd
        fun i hi => hf i (hfile.symm.trans hi)

/-- Writing through the session's descriptor stays inside its own file. -/
lemma write {fs' : FileSystem} {sched : List PwriteOutcome} {buf : Bytes} {off : ℕ}
    {written : Option ℕ} (h : Confined fs0 s fs) (hstarted : s.started = true)
    (hwrite : fs.writeFile s.file sched buf off = (fs', written)) : Confined fs0 s fs' := by
  obtain ⟨hnames', -, hother, -⟩ := FileSystem.writeFile_spec hwrite
  cases h with
  | untouched _ hs => simp [hs] at hstarted
  | writing hs htemp hnames hdata hfile =>
      refine .writing hs htemp (hnames'.trans hnames) (fun i hi => ?_) hfile
      rw [hother i fun hfd => by have := hfile i hfd; omega]
      exact hdata i hi

/-- Opening a temporary name nothing had creates a file of the session's own. -/
lemma opened {t : ReceiverSession} {fs' : FileSystem} {ok : Bool} {fd : ℕ}
    (h : Confined fs0 s fs) (hstarted : s.started = false) (htempty : t.tempPath ≠ [])
    (hfree : TempFree fs0 t) (hopen : fs.openWrite ok t.tempPath = (fs', some fd))
    (ht : t.started = true) (hfd : t.file = some fd) : Confined fs0 t fs' := by
  cases h with
  | writing hs => simp [hs] at hstarted
  | untouched hfs _ =>
      subst hfs
      obtain ⟨hself, hother, -, hdata, hwhich, -⟩ := FileSystem.openWrite_some hopen
      obtain rfl : fd = fs.next := by
        rcases hwhich with hsome | ⟨-, hnext⟩
        · simp [hfree htempty] at hsome
        · exact hnext
      refine .writing ht htempty ?_ (fun i hi => hdata i (by omega)) fun i hi => ?_
      · funext p
        by_cases hp : p = t.tempPath
        · rw [hp, hself, Function.update_self]
        · rw [hother p hp, Function.update_of_ne hp]
      · exact Option.some.inj (hi.symm.trans hfd)

/-- **One packet short of publication keeps the session confined.** -/
lemma handles {packet : Packet} {io : IoEnv} {handled : Handled} (h : Confined fs0 s fs)
    (hstep : s.Handles fs packet io handled) (hfree : TempFree fs0 handled.session)
    (hpublished : handled.session.published = false) :
    Confined fs0 handled.session handled.fs := by
  cases hstep with
  | replayed => exact h.congr rfl rfl rfl
  | ignored => exact h.congr rfl rfl rfl
  | restarted => exact h.congr rfl rfl rfl
  | duplicate => exact h.congr rfl rfl rfl
  | outside => exact h.congr rfl rfl rfl
  | strayed => exact h.congr rfl rfl rfl
  | misnamed stats hopen =>
      exact h.congr rfl rfl rfl
  | openFailed stats name hopen =>
      cases h with
      | writing hs => simp [hopen.started] at hs
      | untouched hfs hs => exact .untouched hfs hs
  | opened stats name fs' fd hopen hname hio =>
      exact h.opened hopen.started (joinPath_tempName_ne_nil _ _) hfree hio rfl rfl
  | oversized => exact h.congr rfl rfl rfl
  | writeFailed stats fs' written hfits hwrite =>
      exact (h.write hfits.started hwrite).congr rfl rfl rfl
  | stored stats fs' hfits hwrite =>
      exact (h.write hfits.started hwrite).congr rfl rfl rfl
  | finFailed => exact h.congr rfl rfl rfl
  | published => simp at hpublished

end Confined

namespace World

variable {windowCapacity : BitVec 32} {outputDirectory : Path} {fs0 : FileSystem}

lemma run_unnamed (events : List SessionEvent) :
    ((init windowCapacity outputDirectory fs0).run events).session.Unnamed := by
  refine run_induction (P := fun w => w.session.Unnamed) (fun _ _ => rfl) (fun w e h => ?_) events
  cases e with
  | packet packet io => exact (h.handles (ReceiverSession.handlePacket_handles _ _ _ _)).1
  | closeFile => exact h

lemma tempFree_of_next {w : World} (h : w.session.Unnamed) {e : SessionEvent}
    (hfree : TempFree fs0 (w.next e).session) : TempFree fs0 w.session := by
  intro htemp
  have hsame : (w.next e).session.tempPath = w.session.tempPath := by
    cases e with
    | packet packet io =>
        exact (h.handles (ReceiverSession.handlePacket_handles _ _ _ _)).2 htemp
    | closeFile => rfl
  rw [← hsame]
  exact hfree (hsame ▸ htemp)

/-- **Before publication every run is confined.** -/
lemma run_confined (events : List SessionEvent)
    (hfree : TempFree fs0 ((init windowCapacity outputDirectory fs0).run events).session)
    (hpublished :
      ((init windowCapacity outputDirectory fs0).run events).session.published = false) :
    Confined fs0 ((init windowCapacity outputDirectory fs0).run events).session
      ((init windowCapacity outputDirectory fs0).run events).fs := by
  induction events using List.reverseRecOn with
  | nil => exact Confined.init windowCapacity outputDirectory fs0
  | append_singleton events e ih =>
      rw [run_concat] at hfree hpublished ⊢
      have hbefore : ((init windowCapacity outputDirectory fs0).run events).session.published
          = false := by
        by_contra htrue
        have := published_next (run_verdict windowCapacity outputDirectory fs0 events) (e := e)
          (by simpa using htrue)
        simp [this] at hpublished
      have hconf := ih (tempFree_of_next (run_unnamed events) hfree) hbefore
      cases e with
      | packet packet io =>
          exact hconf.handles (ReceiverSession.handlePacket_handles _ _ _ _) hfree hpublished
      | closeFile => exact hconf.closeFile

/-- Every reply of a run, in order. -/
def replies (w : World) : List SessionEvent → List Reply
  | [] => []
  | e :: events => w.reply e :: (w.next e).replies events

lemma replies_append (w : World) (first second : List SessionEvent) :
    w.replies (first ++ second) = w.replies first ++ (w.run first).replies second := by
  induction first generalizing w with
  | nil => rfl
  | cons e first ih =>
      rw [List.cons_append, replies, ih, replies, List.cons_append]
      rfl

/-- A FIN_ACK was returned over the run exactly if the session has published. -/
lemma finAck_returned_iff (events : List SessionEvent) :
    (∃ r ∈ (init windowCapacity outputDirectory fs0).replies events, r.IsFinAck) ↔
      ((init windowCapacity outputDirectory fs0).run events).session.published = true := by
  constructor
  · rintro ⟨r, hr, hfin⟩
    induction events using List.reverseRecOn with
    | nil => simp [replies] at hr
    | append_singleton events e ih =>
        have hverdict := run_verdict windowCapacity outputDirectory fs0 events
        rw [replies_append, List.mem_append] at hr
        rw [run_concat]
        rcases hr with hr | hr
        · exact published_next hverdict (ih hr)
        · obtain rfl : r = _ := by simpa [replies] using hr
          exact of_finAck hverdict hfin
  · intro hpublished
    obtain ⟨before, packet, io, after, rfl, hpub⟩ := exists_publishes rfl events hpublished
    refine ⟨_, ?_, hpub.isFinAck⟩
    rw [replies_append, List.mem_append]
    exact Or.inr (by simp [replies, reply])

end World

namespace Confined

variable {fs0 fs : FileSystem} {s : ReceiverSession}

/-- A confined session shows a reader no name but the temporary one. -/
lemma view_of_ne (h : Confined fs0 s fs) {p : Path} (hp : p ≠ s.tempPath) :
    fs.view p = fs0.view p := by
  cases h with
  | untouched hfs => rw [hfs]
  | writing _ _ hnames hdata _ =>
      rw [FileSystem.view, FileSystem.view, hnames, Function.update_of_ne hp]
      cases hname : fs0.names p with
      | none => rfl
      | some i => rw [Option.map_some, Option.map_some, hdata i (fs0.names_lt p i hname)]

/-- Destroying a session that has not published restores the directory. -/
lemma destroy_view (h : Confined fs0 s fs) (hfree : TempFree fs0 s)
    (hpublished : s.published = false) :
    (s.destroy fs).view = fs0.view := by
  funext p
  by_cases htemp : s.tempPath = []
  · have hsame : s.destroy fs = fs := by simp [ReceiverSession.destroy, htemp]
    cases h with
    | untouched hfs => rw [hsame, hfs]
    | writing _ hne => exact absurd htemp hne
  · have hunlink : s.destroy fs = fs.unlink s.tempPath := by
      simp [ReceiverSession.destroy, htemp, hpublished]
    rw [hunlink]
    by_cases hp : p = s.tempPath
    · rw [FileSystem.view, FileSystem.view, hp, FileSystem.unlink_names_self, hfree htemp]
      rfl
    · rw [← h.view_of_ne hp, FileSystem.view, FileSystem.unlink_names_of_ne _ hp]
      rfl

/-- **The rename.**  It puts the temporary file under the final name and shows nothing else. -/
lemma rename_view {fs' : FileSystem} {ok : Bool} (h : Confined fs0 s fs) (hfree : TempFree fs0 s)
    (htemp : s.tempPath ≠ []) (hrename : fs.rename ok s.tempPath s.outputPath = (fs', true)) :
    ∃ content, fs.view s.tempPath = some content ∧
      fs'.view = Function.update fs0.view s.outputPath (some content) := by
  obtain ⟨i, hsrc, hdst, hgone, hother, hdata, -⟩ := FileSystem.rename_true hrename
  refine ⟨fs.data i, by rw [FileSystem.view, hsrc, Option.map_some], ?_⟩
  funext p
  by_cases hout : p = s.outputPath
  · rw [hout, Function.update_self, FileSystem.view, hdst, hdata, Option.map_some]
  · rw [Function.update_of_ne hout]
    by_cases hp : p = s.tempPath
    · have hne : s.tempPath ≠ s.outputPath := fun heq => hout (hp.trans heq)
      rw [hp, FileSystem.view, FileSystem.view, hgone hne, hfree htemp]
      rfl
    · rw [← h.view_of_ne hp, FileSystem.view, FileSystem.view, hother p hp hout, hdata]

lemma tempPath_ne_nil (h : Confined fs0 s fs) (hstarted : s.started = true) : s.tempPath ≠ [] := by
  cases h with
  | untouched _ hs => simp [hs] at hstarted
  | writing _ htemp => exact htemp

end Confined

/-- **Publication is atomic.**  Take any run of a session over a directory that had nothing at its
temporary path.  Before the rename no name but the temporary one shows a change.  When the session
is destroyed the directory is as it was, if no FIN_ACK was returned; if one was, the directory is as
it was except that the final name holds what the temporary file held when that FIN arrived.  After
the rename nothing changes any more. -/
theorem publication_atomic (windowCapacity : BitVec 32) (outputDirectory : Path)
    (fs0 : FileSystem) (events : List SessionEvent)
    (hfree : TempFree fs0 ((World.init windowCapacity outputDirectory fs0).run events).session) :
    let w0 := World.init windowCapacity outputDirectory fs0
    let w := w0.run events
    let finAckReturned := ∃ r ∈ w0.replies events, r.IsFinAck
    (¬ finAckReturned →
      (∀ p, p ≠ w.session.tempPath → w.fs.view p = fs0.view p) ∧
        (w.session.destroy w.fs).view = fs0.view) ∧
    (finAckReturned →
      (∃ before fin io after content,
        events = before ++ SessionEvent.packet fin io :: after ∧
        ((w0.run before).reply (.packet fin io)).IsFinAck ∧
        (∀ p, p ≠ w.session.tempPath → (w0.run before).fs.view p = fs0.view p) ∧
        (w0.run before).fs.view w.session.tempPath = some content ∧
        (w0.run (before ++ [.packet fin io])).fs.view =
          Function.update fs0.view w.session.outputPath (some content) ∧
        (w.session.destroy w.fs).view =
          Function.update fs0.view w.session.outputPath (some content)) ∧
      ∀ later, (w.run later).fs = w.fs ∧
        (w.run later).session.destroy (w.run later).fs = w.fs) := by
  intro w0 w finAckReturned
  have hiff : finAckReturned ↔ w.session.published = true := World.finAck_returned_iff events
  refine ⟨fun hnot => ?_, fun hreturned => ?_⟩
  · have hpublished : w.session.published = false := by simpa [hiff] using hnot
    have hconf := World.run_confined events hfree hpublished
    exact ⟨fun p hp => hconf.view_of_ne hp, hconf.destroy_view hfree hpublished⟩
  · have hpublished := hiff.mp hreturned
    have hverdict := World.run_verdict windowCapacity outputDirectory fs0 events
    have hfinished := hverdict.finished_of_published hpublished
    refine ⟨?_, fun later => ?_⟩
    · obtain ⟨before, fin, io, after, hevents, hpub⟩ := World.exists_publishes rfl events hpublished
      set v := w0.run before with hv
      set v' := v.next (.packet fin io) with hv'
      have hstep := ReceiverSession.handlePacket_handles v.session v.fs fin io
      obtain ⟨hlive, -, -, hrename, hout, htemp, -⟩ := hstep.of_published hpub.1 hpub.2
      have hrun : w = v'.run after := by
        change w0.run events = v'.run after
        rw [hevents, World.run_append]
        rfl
      have hverdict' : v'.session.Verdict := by
        have := World.run_verdict windowCapacity outputDirectory fs0 (before ++ [.packet fin io])
        rwa [World.run_concat] at this
      obtain ⟨hfs, stats, file, hsession⟩ :=
        World.settled_run (hverdict'.finished_of_published hpub.2) after
      rw [← hrun] at hfs hsession
      have htemp' : w.session.tempPath = v.session.tempPath := by rw [hsession]; exact htemp
      have hout' : w.session.outputPath = v.session.outputPath := by rw [hsession]; exact hout
      have hfree' : TempFree fs0 v.session := by
        intro hne
        rw [← htemp']
        exact hfree (htemp' ▸ hne)
      have hconf := World.run_confined before hfree' hpub.1
      obtain ⟨content, hcontent, hview⟩ :=
        hconf.rename_view hfree' (hconf.tempPath_ne_nil hlive.started) hrename
      refine ⟨before, fin, io, after, content, hevents, hpub.isFinAck, fun p hp => ?_, ?_, ?_, ?_⟩
      · exact hconf.view_of_ne (htemp' ▸ hp)
      · rw [htemp']
        exact hcontent
      · rw [World.run_concat, hout']
        exact hview
      · rw [hout', show w.session.destroy w.fs = w.fs by
          simp [ReceiverSession.destroy, hpublished], hfs]
        exact hview
    · obtain ⟨hfs, stats, file, hsession⟩ := World.settled_run hfinished later
      have hpublished' : (w.run later).session.published = true := by
        rw [hsession]
        exact hpublished
      exact ⟨hfs, by simpa [ReceiverSession.destroy, hpublished'] using hfs⟩

/-- An abandoned transfer over a directory that already holds a file of the final name. -/
theorem publication_atomic_abandoned :
    let fs0 := (FileSystem.empty.create (asciiBytes "f")).setData 0 (asciiBytes "old")
    let w0 := World.init 4 [] fs0
    let events := [SessionEvent.packet (sampleStart 2) {},
      .packet (sampleData 0 0 "ok" (by decide)) {}]
    TempFree fs0 (w0.run events).session ∧ (¬ ∃ r ∈ w0.replies events, r.IsFinAck) ∧
      ((w0.run events).session.destroy (w0.run events).fs).view = fs0.view := by
  intro fs0 w0 events
  have hfree : TempFree fs0 (w0.run events).session := fun _ => by decide
  have hnot : ¬ ∃ r ∈ w0.replies events, r.IsFinAck := by decide
  exact ⟨hfree, hnot, ((publication_atomic 4 [] fs0 events hfree).1 hnot).2⟩

end SwiftLink
