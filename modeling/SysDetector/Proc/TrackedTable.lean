import SysDetector.Proc.Frames

namespace SysDetector.Proc
open CLib Runs SlotTable SlotTable.View

def trackedMap (s : ProcState) : UInt32 → Option TrackedProcess :=
  trackedView.lookup s.trackedProcs

def UniquePids (s : ProcState) : Prop := trackedView.UniqueKeys s.trackedProcs

def TableFull (s : ProcState) : Prop := trackedView.Full s.trackedProcs

inductive TrackStep (enabled full : Prop) (now : Time) (e : ProcEvent)
    (m : UInt32 → Option TrackedProcess) : (UInt32 → Option TrackedProcess) → Prop
  | exec (type : e.type = .exec) (matching : enabled) {m' : UInt32 → Option TrackedProcess}
      (insert : Inserts TrackedProcess.lastSeen full m e.pid (execRecord now e) m') :
      TrackStep enabled full now e m m'
  | fork (type : e.type = .fork) {parent : TrackedProcess} (tracked : m e.ppid = some parent)
      {m' : UInt32 → Option TrackedProcess}
      (insert : Inserts TrackedProcess.lastSeen full m e.pid (forkRecord now e parent) m') :
      TrackStep enabled full now e m m'
  | exit (type : e.type = .exit) {proc : TrackedProcess} (tracked : m e.pid = some proc) :
      TrackStep enabled full now e m (Function.update m e.pid none)
  | skip (notExec : e.type = .exec → ¬ enabled) (notFork : e.type = .fork → m e.ppid = none)
      (notExit : e.type = .exit → m e.pid = none) : TrackStep enabled full now e m m

theorem findTrackedProcess_eq_none {s : ProcState} {pid : UInt32} :
    findTrackedProcess s pid = none ↔ trackedMap s pid = none :=
  lookup_eq_none_iff.symm

theorem trackedMap_of_find {s : ProcState} {pid : UInt32} {i : Fin MAX_TRACKED_PROCS}
    (found : findTrackedProcess s pid = some i) : trackedMap s pid = some (s.trackedProcs i) :=
  lookup_of_find found

theorem find_of_trackedMap {s : ProcState} {pid : UInt32} {proc : TrackedProcess}
    (tracked : trackedMap s pid = some proc) :
    ∃ i, findTrackedProcess s pid = some i ∧ s.trackedProcs i = proc := by
  obtain ⟨i, slot, found, -⟩ := of_lookup tracked
  exact ⟨i, found, slot⟩

theorem start_untracked (configs : List ProcessConfig) (pid : UInt32) :
    trackedMap (.started configs) pid = none := by
  rw [← findTrackedProcess_eq_none]
  exact find_eq_none_iff.mpr fun i active => by cases active

section Event
variable (now : Time) {e : ProcEvent} {s : ProcState}

theorem procEventExec_inserts (unique : UniquePids s)
    (enabled : isEnabledConfiguredProcess s e = true) :
    UniquePids (procEventExec now e s) ∧
      Inserts TrackedProcess.lastSeen (TableFull s) (trackedMap s) e.pid (execRecord now e)
        (trackedMap (procEventExec now e s)) := by
  obtain ⟨log, frame⟩ := procEventExec_enabled now enabled
  rw [frame]
  exact ⟨unique_store unique rfl, store_inserts unique rfl rfl⟩

theorem procEventFork_inserts (unique : UniquePids s) {i : Fin MAX_TRACKED_PROCS}
    (found : findTrackedProcess s e.ppid = some i) :
    UniquePids (procEventFork now e s) ∧
      Inserts TrackedProcess.lastSeen (TableFull s) (trackedMap s) e.pid
        (forkRecord now e (s.trackedProcs i)) (trackedMap (procEventFork now e s)) := by
  obtain ⟨log, frame⟩ := procEventFork_tracked now found
  rw [frame]
  exact ⟨unique_store unique rfl, store_inserts unique rfl rfl⟩

theorem procEventExit_removes (unique : UniquePids s) {i : Fin MAX_TRACKED_PROCS}
    (found : findTrackedProcess s e.pid = some i) :
    UniquePids (procEventExit now e s) ∧
      trackedMap (procEventExit now e s) = Function.update (trackedMap s) e.pid none := by
  obtain ⟨counters, log, frame⟩ := procEventExit_tracked now found
  rw [frame]
  exact ⟨unique_release unique rfl, lookup_release unique found rfl⟩

theorem handleEvent_unique (unique : UniquePids s) : UniquePids (handleEvent now e s).2 := by
  unfold handleEvent
  split
  · cases e.type with
    | exec =>
        cases enabled : isEnabledConfiguredProcess s e with
        | false => rwa [procEventExec_disabled enabled]
        | true => exact (procEventExec_inserts now unique enabled).1
    | exit =>
        cases found : findTrackedProcess s e.pid with
        | none => rwa [procEventExit_untracked found]
        | some i => exact (procEventExit_removes now unique found).1
    | fork =>
        cases found : findTrackedProcess s e.ppid with
        | none => rwa [procEventFork_untracked found]
        | some i => exact (procEventFork_inserts now unique found).1
    | other => exact unique
  · exact unique

theorem handleEvent_step (unique : UniquePids s) (running : s.ebpfRunning = true) :
    TrackStep (isEnabledConfiguredProcess s e = true) (TableFull s) now e (trackedMap s)
      (trackedMap (handleEvent now e s).2) := by
  simp only [handleEvent, running, if_true]
  cases type : e.type with
  | exec =>
      cases enabled : isEnabledConfiguredProcess s e with
      | false =>
          rw [procEventExec_disabled enabled]
          exact .skip (by simp) (by simp [type]) (by simp [type])
      | true => exact .exec type rfl (procEventExec_inserts now unique enabled).2
  | exit =>
      cases found : findTrackedProcess s e.pid with
      | none =>
          rw [procEventExit_untracked found]
          exact .skip (by simp [type]) (by simp [type])
            fun _ => findTrackedProcess_eq_none.mp found
      | some i =>
          rw [(procEventExit_removes now unique found).2]
          exact .exit type (trackedMap_of_find found)
  | fork =>
      cases found : findTrackedProcess s e.ppid with
      | none =>
          rw [procEventFork_untracked found]
          exact .skip (by simp [type]) (fun _ => findTrackedProcess_eq_none.mp found)
            (by simp [type])
      | some i =>
          exact .fork type (trackedMap_of_find found) (procEventFork_inserts now unique found).2
  | other => exact .skip (by simp [type]) (by simp [type]) (by simp [type])

/-! Who is tracked after an event, while the table has room. -/

theorem handleEvent_exec_isSome (unique : UniquePids s) (running : s.ebpfRunning = true)
    (roomy : ¬ TableFull s) (type : e.type = .exec) (pid : UInt32) :
    (trackedMap (handleEvent now e s).2 pid).isSome = true ↔
      (trackedMap s pid).isSome = true ∨ (isEnabledConfiguredProcess s e = true ∧ pid = e.pid) := by
  have acts := handleEvent_step now (e := e) unique running
  generalize trackedMap (handleEvent now e s).2 = m' at acts ⊢
  cases acts with
  | exec _ enabled insert =>
      rw [insert.of_not_full roomy, Function.update_apply]
      split_ifs with here <;> simp [here, enabled]
  | fork other => simp [type] at other
  | exit other => simp [type] at other
  | skip notExec _ _ => simp [notExec type]

theorem handleEvent_fork_isSome (unique : UniquePids s) (running : s.ebpfRunning = true)
    (roomy : ¬ TableFull s) (type : e.type = .fork) (pid : UInt32) :
    (trackedMap (handleEvent now e s).2 pid).isSome = true ↔
      (trackedMap s pid).isSome = true ∨ ((trackedMap s e.ppid).isSome = true ∧ pid = e.pid) := by
  have acts := handleEvent_step now (e := e) unique running
  generalize trackedMap (handleEvent now e s).2 = m' at acts ⊢
  cases acts with
  | exec other => simp [type] at other
  | fork _ tracked insert =>
      rw [insert.of_not_full roomy, Function.update_apply, tracked]
      split_ifs with here <;> simp [here]
  | exit other => simp [type] at other
  | skip _ notFork _ => simp [notFork type]

theorem handleEvent_exit_isSome (unique : UniquePids s) (running : s.ebpfRunning = true)
    (type : e.type = .exit) (pid : UInt32) :
    (trackedMap (handleEvent now e s).2 pid).isSome = true ↔
      (trackedMap s pid).isSome = true ∧ pid ≠ e.pid := by
  have acts := handleEvent_step now (e := e) unique running
  generalize trackedMap (handleEvent now e s).2 = m' at acts ⊢
  cases acts with
  | exec other => simp [type] at other
  | fork other => simp [type] at other
  | exit _ tracked =>
      rw [Function.update_apply]
      split_ifs with here <;> simp [here]
  | skip _ _ notExit =>
      constructor
      · intro tracked
        refine ⟨tracked, ?_⟩
        rintro rfl
        simp [notExit type] at tracked
      · exact And.left

end Event

/-! ## Whole runs -/

theorem handleMessage_trackedProcs (env : CommandEnv) (message : Bytes) (s : ProcState) :
    (handleMessage env message s).trackedProcs = s.trackedProcs := by
  rcases handleMessage_switch env message s with
    ⟨status, i, log, responses, -, -, frame⟩ | ⟨-, log, responses, out, frame⟩
  · rw [frame]
    rfl
  · rw [frame]

theorem monitorStep_trackedProcs (env : MonitorEnv) (s : ProcState) :
    (monitorStep env s).trackedProcs = s.trackedProcs := by
  obtain ⟨pc, log, runs, frame⟩ := monitorStep_frame env s
  rw [frame]

theorem step_unique (s : ProcState) (input : ProcStep) (unique : UniquePids s) :
    UniquePids (step s input) := by
  cases input with
  | message env message =>
      simpa only [step, UniquePids, handleMessage_trackedProcs] using unique
  | event now e => exact handleEvent_unique now unique
  | monitor env => simpa only [step, UniquePids, monitorStep_trackedProcs] using unique

theorem run_unique {s : ProcState} (fresh : ∀ i, (s.trackedProcs i).active = false)
    (steps : List ProcStep) : UniquePids (run step s steps) :=
  run_of_step step step_unique (unique_of_free fresh) steps

/-- In every run from an empty table the pids of the active slots are distinct, and every event
handled while monitoring is on acts on the table as on a bounded map. -/
theorem tracked_table_is_map (s : ProcState) (fresh : ∀ i, (s.trackedProcs i).active = false)
    (past : List ProcStep) (running : (run step s past).ebpfRunning = true) (now : Time)
    (e : ProcEvent) :
    UniquePids (run step s past) ∧
      TrackStep (isEnabledConfiguredProcess (run step s past) e = true)
        (TableFull (run step s past)) now e (trackedMap (run step s past))
        (trackedMap (run step s (past ++ [.event now e]))) := by
  have unique := run_unique fresh past
  refine ⟨unique, ?_⟩
  simp only [run_append]
  exact handleEvent_step now unique running

theorem tracked_table_is_map_shell :
    let s := run step (.started [selftestConfig 1 true]) [.event 0 (shellEvent .exec 7 1)]
    UniquePids s ∧
      TrackStep (isEnabledConfiguredProcess s (shellEvent .fork 8 7) = true) (TableFull s) 5
        (shellEvent .fork 8 7) (trackedMap s)
        (trackedMap (run step (.started [selftestConfig 1 true])
          [.event 0 (shellEvent .exec 7 1), .event 5 (shellEvent .fork 8 7)])) :=
  tracked_table_is_map _ (fun _ => rfl) [.event 0 (shellEvent .exec 7 1)]
    (by simp [step, ProcState.started]) 5 (shellEvent .fork 8 7)

end SysDetector.Proc
