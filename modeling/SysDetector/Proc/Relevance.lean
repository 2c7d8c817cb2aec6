import SysDetector.Proc.TrackedTable

namespace SysDetector.Proc
open CLib Runs SlotTable SlotTable.View

inductive StreamStep
  | input (input : ProcStep)
  | switch (i : Nat) (on : Bool)

structure Stream where
  worker : ProcState
  relevant : UInt32 → Bool

def switchConfig (s : ProcState) (i : Nat) (on : Bool) : ProcState :=
  { s with configs := s.configs.modify i fun config => { config with monitorSwitch := on } }

namespace Stream

def start (configs : List ProcessConfig) : Stream where
  worker := .started configs
  relevant := fun _ => false

def nextRelevant (str : Stream) (e : ProcEvent) : UInt32 → Bool :=
  match e.type with
  | .exec =>
      if isEnabledConfiguredProcess str.worker e then Function.update str.relevant e.pid true
      else str.relevant
  | .fork =>
      if str.relevant e.ppid then Function.update str.relevant e.pid true else str.relevant
  | .exit => Function.update str.relevant e.pid false
  | .other => str.relevant

def isRelevant (str : Stream) : StreamStep → Bool
  | .input (.event _ e) =>
      match e.type with
      | .exec => isEnabledConfiguredProcess str.worker e
      | .fork => str.relevant e.ppid
      | .exit => str.relevant e.pid
      | .other => true
  | _ => true

end Stream

def stepStream (str : Stream) : StreamStep → Stream
  | .input (.event now e) =>
      { worker := step str.worker (.event now e), relevant := str.nextRelevant e }
  | .input input => { str with worker := step str.worker input }
  | .switch i on => { str with worker := switchConfig str.worker i on }

def relevantSteps : Stream → List StreamStep → List StreamStep :=
  kept stepStream Stream.isRelevant

structure StreamInv (str : Stream) : Prop where
  unique : UniquePids str.worker
  relevant : ∀ pid, (trackedMap str.worker pid).isSome = true → str.relevant pid = true

theorem StreamInv.untracked {str : Stream} (inv : StreamInv str) {pid : UInt32}
    (irrelevant : str.relevant pid = false) : findTrackedProcess str.worker pid = none := by
  rw [findTrackedProcess_eq_none, ← Option.not_isSome_iff_eq_none]
  intro tracked
  rw [inv.relevant pid tracked] at irrelevant
  cases irrelevant

theorem StreamInv.of_inserts {str : Stream} {worker : ProcState} {pid : UInt32}
    {proc : TrackedProcess} (inv : StreamInv str) (unique : UniquePids worker)
    (insert : Inserts TrackedProcess.lastSeen (TableFull str.worker) (trackedMap str.worker) pid
      proc (trackedMap worker)) :
    StreamInv { worker := worker, relevant := Function.update str.relevant pid true } where
  unique := unique
  relevant := by
    intro other tracked
    show Function.update str.relevant pid true other = true
    rw [Function.update_apply]
    split_ifs with here
    · rfl
    · apply inv.relevant
      rcases insert.other here with kept | evicted
      · rwa [← kept]
      · simp [evicted] at tracked

theorem event_streamInv {str : Stream} {now : Time} {e : ProcEvent} (inv : StreamInv str)
    (running : str.worker.ebpfRunning = true) :
    StreamInv (stepStream str (.input (.event now e))) := by
  have unique := handleEvent_unique now (e := e) inv.unique
  have acts := handleEvent_step now (e := e) inv.unique running
  show StreamInv { worker := (handleEvent now e str.worker).2, relevant := str.nextRelevant e }
  generalize (handleEvent now e str.worker).2 = worker at unique acts ⊢
  unfold Stream.nextRelevant
  generalize after : trackedMap worker = m' at acts
  cases acts with
  | exec type enabled insert =>
      rw [← after] at insert
      simp only [type, enabled, if_true]
      exact inv.of_inserts unique insert
  | fork type tracked insert =>
      rw [← after] at insert
      simp only [type, inv.relevant e.ppid (by simp [tracked]), if_true]
      exact inv.of_inserts unique insert
  | exit type tracked =>
      simp only [type]
      refine ⟨unique, ?_⟩
      intro pid
      simp only [after, Function.update_apply]
      split_ifs
      · simp
      · exact inv.relevant pid
  | skip notExec notFork notExit =>
      refine ⟨unique, ?_⟩
      intro pid tracked
      rw [after] at tracked
      have known := inv.relevant pid tracked
      cases type : e.type with
      | exec => simpa [notExec type] using known
      | fork =>
          simp only
          split_ifs
          · rw [Function.update_apply, known, ite_self]
          · exact known
      | exit =>
          have other : pid ≠ e.pid := by
            rintro rfl
            simp [notExit type] at tracked
          simpa only [Function.update_of_ne other] using known
      | other => exact known

theorem stepStream_inv (str : Stream) (input : StreamStep) (inv : StreamInv str)
    (running : str.worker.ebpfRunning = true) : StreamInv (stepStream str input) := by
  cases input with
  | switch i on => exact ⟨inv.unique, inv.relevant⟩
  | input input =>
      cases input with
      | event now e => exact event_streamInv inv running
      | message env message =>
          have same := handleMessage_trackedProcs env message str.worker
          refine ⟨step_unique _ _ inv.unique, ?_⟩
          simpa only [stepStream, step, trackedMap, same] using inv.relevant
      | monitor env =>
          have same := monitorStep_trackedProcs env str.worker
          refine ⟨step_unique _ _ inv.unique, ?_⟩
          simpa only [stepStream, step, trackedMap, same] using inv.relevant

theorem stepStream_irrelevant (str : Stream) (input : StreamStep) (inv : StreamInv str)
    (running : str.worker.ebpfRunning = true) (irrelevant : str.isRelevant input = false) :
    stepStream str input = str := by
  obtain ⟨worker, relevant⟩ := str
  cases input with
  | switch i on => cases irrelevant
  | input input =>
      cases input with
      | message env message => cases irrelevant
      | monitor env => cases irrelevant
      | event now e =>
          simp only [stepStream, step, Stream.nextRelevant]
          cases type : e.type with
          | exec =>
              simp only [Stream.isRelevant, type] at irrelevant
              rw [handleEvent_exec running type, procEventExec_disabled irrelevant]
              simp [irrelevant]
          | fork =>
              simp only [Stream.isRelevant, type] at irrelevant
              rw [handleEvent_fork running type, procEventFork_untracked (inv.untracked irrelevant)]
              simp [irrelevant]
          | exit =>
              simp only [Stream.isRelevant, type] at irrelevant
              rw [handleEvent_exit running type, procEventExit_untracked (inv.untracked irrelevant)]
              simp [← irrelevant]
          | other => simp [Stream.isRelevant, type] at irrelevant

theorem start_streamInv (configs : List ProcessConfig) : StreamInv (.start configs) where
  unique := unique_of_free fun _ => rfl
  relevant := by
    intro pid tracked
    simp [Stream.start, start_untracked] at tracked

/-- While monitoring is on, the EXEC events that match no enabled config, the FORK events whose
parent is not relevant and the EXIT events of pids that are not relevant can be left out of a
stream: the worker ends in the same state. -/
theorem irrelevant_events_unseen (configs : List ProcessConfig) (steps : List StreamStep)
    (on : Always stepStream (fun str => str.worker.ebpfRunning = true) (.start configs) steps) :
    (run stepStream (.start configs) (relevantSteps (.start configs) steps)).worker =
      (run stepStream (.start configs) steps).worker := by
  rw [relevantSteps, run_kept stepStream stepStream_inv stepStream_irrelevant
    (start_streamInv configs) on]

def strangerSteps : List StreamStep :=
  [.input (.event 0 (shellEvent .exec 7 1)), .input (.event 1 (shellEvent .fork 9 4)),
   .switch 0 false, .input (.event 2 (shellEvent .exec 5 1)),
   .input (.event 3 (shellEvent .exit 7 1))]

theorem irrelevant_events_unseen_strangers :
    (run stepStream (.start [selftestConfig 1 true])
        (relevantSteps (.start [selftestConfig 1 true]) strangerSteps)).worker =
      (run stepStream (.start [selftestConfig 1 true]) strangerSteps).worker := by
  apply irrelevant_events_unseen
  simp only [strangerSteps, always_cons, always_nil, stepStream, step, switchConfig,
    handleEvent_ebpfRunning, Stream.start, ProcState.started, and_self]

end SysDetector.Proc
