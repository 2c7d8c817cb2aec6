import SysDetector.Proc.Lifetimes
import SysDetector.Proc.ShortLived

namespace SysDetector.Proc
open CLib Runs SlotTable SlotTable.View

/-! ## Programs -/

structure Image where
  filename : CharBuf TASK_NAME_MAX
  argv : CharBuf ARGV_MAX_LEN
deriving DecidableEq

def TrackedProcess.image (proc : TrackedProcess) : Image := ⟨proc.filename, proc.argv⟩

def ProcEvent.image (e : ProcEvent) : Image :=
  ⟨snprintf TASK_NAME_MAX e.filename.text, snprintf ARGV_MAX_LEN (joinEventArgv e ARGV_MAX_LEN)⟩

abbrev Images := UInt32 → Option Image

def Images.record (images : Images) (e : ProcEvent) : Images :=
  match e.type with
  | .exec => Function.update images e.pid (some e.image)
  | .fork => Function.update images e.pid (images e.ppid)
  | _ => images

def stepImages : ProcState × Images → ProcStep → ProcState × Images
  | (s, images), .event now e => (step s (.event now e), images.record e)
  | (s, images), input => (step s input, images)

def ImagesCurrent (si : ProcState × Images) : Prop :=
  Describes TrackedProcess.image si.2 (trackedMap si.1)

def KeepsMonitoring (si : ProcState × Images) (input : ProcStep) : Prop :=
  (step si.1 input).ebpfRunning = true

/-- An EXEC event that matches no enabled config names no tracked pid, or the program of its entry;
and a child that is tracked already has the program of its parent, if that is not tracked. -/
def ImageGuard (si : ProcState × Images) : ProcStep → Prop
  | .event _ e =>
      match e.type with
      | .exec => isEnabledConfiguredProcess si.1 e = true ∨
          ∀ proc, trackedMap si.1 e.pid = some proc → e.image = proc.image
      | .fork => trackedMap si.1 e.ppid ≠ none ∨
          ∀ proc, trackedMap si.1 e.pid = some proc → si.2 e.ppid = some proc.image
      | _ => True
  | _ => True

theorem event_imagesCurrent_iff {now : Time} {e : ProcEvent} {s : ProcState} {images : Images}
    (running : s.ebpfRunning = true) (unique : UniquePids s) (current : ImagesCurrent (s, images)) :
    ImagesCurrent (stepImages (s, images) (.event now e)) ↔
      ImageGuard (s, images) (.event now e) := by
  have acts := handleEvent_step now (e := e) unique running
  show Describes TrackedProcess.image (images.record e) (trackedMap (handleEvent now e s).2) ↔ _
  unfold ImageGuard Images.record
  generalize trackedMap (handleEvent now e s).2 = m' at acts ⊢
  cases acts with
  | exec type enabled insert =>
      simp only [type, enabled, true_or, iff_true]
      exact insert.describes current
  | fork type tracked insert =>
      have parent : images e.ppid = _ := current e.ppid _ tracked
      simp only [type, tracked, ne_eq, reduceCtorEq, not_false_eq_true, true_or, iff_true, parent]
      exact insert.describes current
  | exit type tracked =>
      simp only [type, iff_true]
      exact Describes.erase current e.pid
  | skip notExec notFork notExit =>
      cases type : e.type with
      | exec =>
          simp only [type, notExec type, false_or, ← Option.some.injEq e.image]
          exact Describes.update_iff current
      | fork =>
          simp only [type, notFork type, ne_eq, not_true, false_or]
          exact Describes.update_iff current
      | exit =>
          simp only [type, iff_true]
          exact current
      | other =>
          simp only [type, iff_true]
          exact current

theorem stepImages_current_iff {si : ProcState × Images} {input : ProcStep}
    (running : si.1.ebpfRunning = true) (unique : UniquePids si.1) (current : ImagesCurrent si) :
    ImagesCurrent (stepImages si input) ↔ ImageGuard si input := by
  obtain ⟨s, images⟩ := si
  cases input with
  | event now e => exact event_imagesCurrent_iff running unique current
  | message env message =>
      have same : trackedMap (handleMessage env message s) = trackedMap s := by
        simp only [trackedMap, handleMessage_trackedProcs]
      refine iff_of_true ?_ trivial
      show Describes _ images (trackedMap (handleMessage env message s))
      rw [same]
      exact current
  | monitor env =>
      have same : trackedMap (monitorStep env s) = trackedMap s := by
        simp only [trackedMap, monitorStep_trackedProcs]
      refine iff_of_true ?_ trivial
      show Describes _ images (trackedMap (monitorStep env s))
      rw [same]
      exact current

/-- While monitoring is on, the entries name the programs that their processes run, at every point,
exactly when no tracked process execs a program that is not configured and enabled, and no pid
becomes the child of an untracked process while it is still tracked. -/
theorem images_current_iff (configs : List ProcessConfig) (steps : List ProcStep)
    (on : Guarded stepImages KeepsMonitoring (.started configs, fun _ => none) steps) :
    Always stepImages ImagesCurrent (.started configs, fun _ => none) steps ↔
      Guarded stepImages ImageGuard (.started configs, fun _ => none) steps := by
  apply always_iff_guarded stepImages (L := KeepsMonitoring)
    (J := fun si => si.1.ebpfRunning = true ∧ UniquePids si.1 ∧ ImagesCurrent si)
  · exact fun si inv => inv.2.2
  · intro si input ⟨running, unique, current⟩ next guard
    have after := (stepImages_current_iff running unique current).mpr guard
    obtain ⟨s, images⟩ := si
    cases input <;> exact ⟨next, step_unique s _ unique, after⟩
  · exact fun si input inv _ after => (stepImages_current_iff inv.1 inv.2.1 inv.2.2).mp after
  · refine ⟨rfl, unique_of_free fun _ => rfl, ?_⟩
    intro pid proc tracked
    rw [start_untracked] at tracked
    cases tracked
  · exact on

def trueEvent : ProcEvent :=
  { shellEvent .exec 7 1 with
    comm := snprintf TASK_COMM_LEN (lit "true")
    filename := snprintf TASK_NAME_MAX (lit "/bin/true") }

def replacedSteps : List ProcStep :=
  [.event 0 (shellEvent .exec 7 1), .event 1 trueEvent]

theorem replacedSteps_on :
    Guarded stepImages KeepsMonitoring (.started [selftestConfig 1 true], fun _ => none)
      replacedSteps := by
  simp [replacedSteps, guarded_cons, KeepsMonitoring, stepImages, step, ProcState.started]

theorem images_current_iff_replaced :
    Always stepImages ImagesCurrent (.started [selftestConfig 1 true], fun _ => none)
        replacedSteps ↔
      Guarded stepImages ImageGuard (.started [selftestConfig 1 true], fun _ => none)
        replacedSteps :=
  images_current_iff _ replacedSteps replacedSteps_on

theorem replaced_program_listed : ¬ ∀ (configs : List ProcessConfig) (steps : List ProcStep),
    Guarded stepImages KeepsMonitoring (.started configs, fun _ => none) steps →
    ImagesCurrent (run stepImages (.started configs, fun _ => none) steps) := by
  intro current
  have loaded : selftestConfig 1 true ∈ (ProcState.started [selftestConfig 1 true]).configs :=
    List.mem_singleton_self _
  have unique : UniquePids (.started [selftestConfig 1 true]) := unique_of_free fun _ => rfl
  have handled : (handleEvent 0 (shellEvent .exec 7 1) (.started [selftestConfig 1 true])).2 =
      procEventExec 0 (shellEvent .exec 7 1) (.started [selftestConfig 1 true]) :=
    handleEvent_exec rfl rfl
  have tracked := (procEventExec_inserts 0 unique (shellEvent_enabled loaded .exec 7 1)).2.self
  rw [← handled] at tracked
  have before := current [selftestConfig 1 true] [.event 0 (shellEvent .exec 7 1)] (by
    simp [guarded_cons, KeepsMonitoring, stepImages, step, ProcState.started])
  have after := current [selftestConfig 1 true] replacedSteps replacedSteps_on
  have guard : ImageGuard _ (.event 1 trueEvent) :=
    (event_imagesCurrent_iff (by simp [ProcState.started]) (handleEvent_unique 0 unique)
      before).mp after
  have disabled : isEnabledConfiguredProcess
      (handleEvent 0 (shellEvent .exec 7 1) (.started [selftestConfig 1 true])).2 trueEvent =
        false := by
    unfold isEnabledConfiguredProcess
    rw [handleEvent_configs]
    decide
  rcases guard with enabled | same
  · exact absurd enabled (by simp [disabled])
  · have changed := same _ tracked
    revert changed
    decide

/-! ## Runtimes -/

/-- Beside the worker, the time at which each pid began, as far as the worker handled the events:
an EXEC begins it anew, and at a FORK `birth` says it from the clock and the parent's start. -/
abbrev Lives := UInt32 → Option Time

def Lives.record (birth : Time → Option Time → Option Time) (lives : Lives) (now : Time)
    (s : ProcState) (e : ProcEvent) : Lives :=
  if writesEntry s e then
    Function.update lives e.pid (if e.type = .exec then some now else birth now (lives e.ppid))
  else lives

def stepLives (birth : Time → Option Time → Option Time) :
    ProcState × Lives → ProcStep → ProcState × Lives
  | (s, lives), .event now e => (step s (.event now e), lives.record birth now s e)
  | (s, lives), input => (step s input, lives)

def ownBirth (now : Time) (_ : Option Time) : Option Time := some now

def inheritedBirth (_ : Time) (parent : Option Time) : Option Time := parent

def ExitTimed (start : Option Time) (now : Time) (e : ProcEvent) (before after : ProcState) :
    Prop :=
  ∃ began proc lines, start = some began ∧ trackedMap before e.pid = some proc ∧
    after.logFile = before.logFile ++
      .proc e.pid proc.comm proc.filename proc.argv (now - began) :: lines ∧
    ((∃ comm runtime, LogLine.shortLivedProcess e.pid comm runtime ∈ lines) ↔
      now - began ≤ SHORT_LIVED_PROC_SECONDS)

theorem exit_logs (now : Time) {e : ProcEvent} {s : ProcState} {proc : TrackedProcess}
    (running : s.ebpfRunning = true) (type : e.type = .exit)
    (tracked : trackedMap s e.pid = some proc) :
    ∃ lines, (step s (.event now e)).logFile = s.logFile ++
        .proc e.pid proc.comm proc.filename proc.argv (now - proc.firstSeen) :: lines ∧
      ((∃ comm runtime, LogLine.shortLivedProcess e.pid comm runtime ∈ lines) ↔
        now - proc.firstSeen ≤ SHORT_LIVED_PROC_SECONDS) := by
  obtain ⟨i, found, rfl⟩ := find_of_trackedMap tracked
  have pid : (s.trackedProcs i).pid = e.pid := key_of_find found
  rw [step, handleEvent_exit running type]
  by_cases short : now - (s.trackedProcs i).firstSeen ≤ SHORT_LIVED_PROC_SECONDS
  · rw [procEventExit_short found short, pid]
    refine ⟨_, rfl, iff_of_true ⟨(s.trackedProcs i).comm, now - (s.trackedProcs i).firstSeen,
      List.mem_append_left _ ?_⟩ short⟩
    rw [← pid]
    exact List.mem_cons_self
  · rw [procEventExit_long found short, pid]
    exact ⟨_, rfl, iff_of_false (by simp) short⟩

theorem exitTimed_iff {start : Option Time} {now : Time} {e : ProcEvent} {s : ProcState}
    {proc : TrackedProcess} (running : s.ebpfRunning = true) (type : e.type = .exit)
    (tracked : trackedMap s e.pid = some proc) :
    ExitTimed start now e s (step s (.event now e)) ↔ start = some proc.firstSeen := by
  obtain ⟨lines, log, short⟩ := exit_logs now running type tracked
  constructor
  · rintro ⟨began, proc', lines', rfl, -, log', -⟩
    rw [log, List.append_cancel_left_eq, List.cons.injEq] at log'
    have runtime : now - proc.firstSeen = now - began := by
      have line := log'.1
      injection line
    rw [sub_right_inj.mp runtime]
  · intro same
    exact ⟨_, proc, lines, same, tracked, log, short⟩

theorem event_livesDescribe {now : Time} {e : ProcEvent} {s : ProcState} {lives : Lives}
    (unique : UniquePids s)
    (describes : Describes TrackedProcess.firstSeen lives (trackedMap s)) :
    Describes TrackedProcess.firstSeen (lives.record inheritedBirth now s e)
      (trackedMap (handleEvent now e s).2) := by
  unfold Lives.record writesEntry
  cases running : s.ebpfRunning with
  | false =>
      rw [handleEvent_stopped running]
      cases type : e.type <;> simpa [type] using describes
  | true =>
      have acts := handleEvent_step now (e := e) unique running
      generalize trackedMap (handleEvent now e s).2 = m' at acts ⊢
      cases acts with
      | exec type enabled insert =>
          simp only [type, enabled, Bool.and_self, if_true]
          exact insert.describes describes
      | fork type tracked insert =>
          obtain ⟨i, found, rfl⟩ := find_of_trackedMap tracked
          have parent : lives e.ppid = _ := describes e.ppid _ tracked
          simp only [type, found, Option.isSome_some, Bool.and_self, if_true, reduceCtorEq,
            if_false, inheritedBirth, parent]
          exact insert.describes describes
      | exit type tracked =>
          simp only [type, Bool.false_eq_true, if_false]
          exact describes.erase e.pid
      | skip notExec notFork notExit =>
          cases type : e.type with
          | exec => simpa [notExec type] using describes
          | fork => simpa [findTrackedProcess_eq_none.mpr (notFork type)] using describes
          | exit => simpa using describes
          | other => simpa using describes

theorem stepLives_describe (sl : ProcState × Lives) (input : ProcStep)
    (inv : UniquePids sl.1 ∧ Describes TrackedProcess.firstSeen sl.2 (trackedMap sl.1)) :
    UniquePids (stepLives inheritedBirth sl input).1 ∧
      Describes TrackedProcess.firstSeen (stepLives inheritedBirth sl input).2
        (trackedMap (stepLives inheritedBirth sl input).1) := by
  obtain ⟨s, lives⟩ := sl
  cases input with
  | event now e => exact ⟨handleEvent_unique now inv.1, event_livesDescribe inv.1 inv.2⟩
  | message env message =>
      refine ⟨step_unique s _ inv.1, ?_⟩
      simpa only [stepLives, step, trackedMap, handleMessage_trackedProcs] using inv.2
  | monitor env =>
      refine ⟨step_unique s _ inv.1, ?_⟩
      simpa only [stepLives, step, trackedMap, monitorStep_trackedProcs] using inv.2

/-- The runtime logged at the exit of a tracked process is the time since its latest EXEC event, or
since its parent's start if it has had none since it was forked. -/
theorem exit_runtime (configs : List ProcessConfig) (past : List ProcStep) (now : Time)
    (e : ProcEvent) (type : e.type = .exit) :
    let sl := run (stepLives inheritedBirth) (.initial configs, fun _ => none) past
    sl.1.ebpfRunning = true → (trackedMap sl.1 e.pid).isSome = true →
      ExitTimed (sl.2 e.pid) now e sl.1 (step sl.1 (.event now e)) := by
  intro sl running tracked
  obtain ⟨proc, present⟩ := Option.isSome_iff_exists.mp tracked
  have start : UniquePids (.initial configs) ∧
      Describes TrackedProcess.firstSeen (fun _ => none) (trackedMap (.initial configs)) := by
    refine ⟨unique_of_free fun _ => rfl, ?_⟩
    intro pid proc tracked
    obtain ⟨i, rfl, -, active, -⟩ := of_lookup tracked
    cases active
  have inv : UniquePids sl.1 ∧ Describes TrackedProcess.firstSeen sl.2 (trackedMap sl.1) :=
    run_of_step (stepLives inheritedBirth)
      (J := fun sl => UniquePids sl.1 ∧ Describes TrackedProcess.firstSeen sl.2 (trackedMap sl.1))
      stepLives_describe start past
  exact (exitTimed_iff running type present).mpr (inv.2 e.pid proc present)

def daemonSteps : List ProcStep := trackedSteps ++ [.event 100 (shellEvent .fork 8 7)]

theorem daemonSteps_running :
    (run step (.initial [selftestConfig 1 false]) daemonSteps).ebpfRunning = true := by
  rw [daemonSteps, run_append]
  simp only [run_cons, run_nil, step, handleEvent_ebpfRunning, trackedSteps_running]

theorem daemonSteps_child : ∃ proc,
    trackedMap (run step (.initial [selftestConfig 1 false]) daemonSteps) 8 = some proc ∧
      proc.firstSeen = 0 := by
  have handled : run step (.initial [selftestConfig 1 false]) trackedSteps =
      procEventExec 0 (shellEvent .exec 7 1)
        (run step (.initial [selftestConfig 1 false]) startedSteps) := by
    rw [trackedSteps, run_append]
    exact handleEvent_exec startedSteps_running rfl
  have tracked := (procEventExec_inserts 0 (run_unique (fun _ => rfl) startedSteps)
    (shellEvent_enabled startedSteps_loaded .exec 7 1)).2.self
  rw [← handled] at tracked
  obtain ⟨i, found, parent⟩ := find_of_trackedMap tracked
  have forked := (procEventFork_inserts (e := shellEvent .fork 8 7) 100
    (run_unique (fun _ => rfl) trackedSteps) found).2.self
  rw [daemonSteps, run_fork _ trackedSteps_running rfl]
  exact ⟨_, forked, congrArg TrackedProcess.firstSeen parent⟩

theorem run_stepLives (birth : Time → Option Time → Option Time) (sl : ProcState × Lives)
    (steps : List ProcStep) : (run (stepLives birth) sl steps).1 = run step sl.1 steps := by
  induction steps generalizing sl with
  | nil => rfl
  | cons input steps ih =>
      obtain ⟨s, lives⟩ := sl
      rw [run_cons, run_cons, ih]
      cases input <;> rfl

theorem daemonSteps_tracked (birth : Time → Option Time → Option Time) :
    (trackedMap (run (stepLives birth) (.initial [selftestConfig 1 false], fun _ => none)
      daemonSteps).1 8).isSome = true := by
  obtain ⟨proc, child, -⟩ := daemonSteps_child
  rw [run_stepLives, child, Option.isSome_some]

theorem exit_runtime_daemon :
    let sl := run (stepLives inheritedBirth) (.initial [selftestConfig 1 false], fun _ => none)
      daemonSteps
    ExitTimed (sl.2 8) 101 (shellEvent .exit 8 7) sl.1
      (step sl.1 (.event 101 (shellEvent .exit 8 7))) :=
  exit_runtime _ daemonSteps 101 (shellEvent .exit 8 7) rfl
    (by rw [run_stepLives, daemonSteps_running]) (daemonSteps_tracked inheritedBirth)

theorem daemonSteps_own :
    (run (stepLives ownBirth) (.initial [selftestConfig 1 false], fun _ => none) daemonSteps).2 8 =
      some 100 := by
  have known : findTrackedProcess (run step (.initial [selftestConfig 1 false]) trackedSteps) 7 ≠
      none := by
    intro absent
    have tracked := trackedSteps_tracked
    rw [findTrackedProcess_eq_none.mp absent] at tracked
    cases tracked
  have writes : ∀ s, s = run step (.initial [selftestConfig 1 false]) trackedSteps →
      writesEntry s (shellEvent .fork 8 7) = true := by
    rintro s rfl
    exact Bool.and_eq_true_iff.mpr ⟨trackedSteps_running, Option.isSome_iff_ne_none.mpr known⟩
  have before := run_stepLives ownBirth (.initial [selftestConfig 1 false], fun _ => none)
    trackedSteps
  rw [daemonSteps, run_append]
  generalize run (stepLives ownBirth) (.initial [selftestConfig 1 false], fun _ => none)
    trackedSteps = sl at before ⊢
  show Lives.record ownBirth sl.2 100 sl.1 (shellEvent .fork 8 7) 8 = some 100
  rw [Lives.record, if_pos (writes sl.1 before)]
  rfl

theorem daemon_runtime_inherited : ¬ ∀ (configs : List ProcessConfig) (past : List ProcStep)
    (now : Time) (e : ProcEvent), ClockNondecreasing (past ++ [.event now e]) → e.type = .exit →
    let sl := run (stepLives ownBirth) (.initial configs, fun _ => none) past
    sl.1.ebpfRunning = true → (trackedMap sl.1 e.pid).isSome = true →
      ExitTimed (sl.2 e.pid) now e sl.1 (step sl.1 (.event now e)) := by
  intro timed
  have clock : ClockNondecreasing (daemonSteps ++ [.event 101 (shellEvent .exit 8 7)]) := by
    simp [ClockNondecreasing, daemonSteps, trackedSteps, startedSteps, List.filterMap_cons,
      eventClock]
  have running : (run (stepLives ownBirth) (.initial [selftestConfig 1 false], fun _ => none)
      daemonSteps).1.ebpfRunning = true := by
    rw [run_stepLives, daemonSteps_running]
  have own := timed [selftestConfig 1 false] daemonSteps 101 (shellEvent .exit 8 7) clock rfl running
    (daemonSteps_tracked ownBirth)
  obtain ⟨proc, child, inherited⟩ := daemonSteps_child
  rw [← run_stepLives ownBirth (_, fun _ => none)] at child
  have same := (exitTimed_iff running rfl child).mp own
  have began : (run (stepLives ownBirth) (.initial [selftestConfig 1 false], fun _ => none)
      daemonSteps).2 8 = some 100 := daemonSteps_own
  have differ := began.symm.trans same
  rw [inherited] at differ
  revert differ
  decide

end SysDetector.Proc
