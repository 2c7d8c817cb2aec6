import SysDetector.Proc.TrackedTable

namespace SysDetector.Proc
open CLib Runs SlotTable SlotTable.View

def ForkInherits (before after : ProcState) (e : ProcEvent) : Prop :=
  ∃ parent child, trackedMap before e.ppid = some parent ∧
    trackedMap after e.ppid = some parent ∧ trackedMap after e.pid = some child ∧
    child.filename = parent.filename ∧ child.argv = parent.argv ∧
    child.firstSeen = parent.firstSeen

/-- The entry that has to make room for the child is the parent's: the first of the oldest in a
full table that does not know the child. -/
def EvictsParent (s : ProcState) (e : ProcEvent) : Prop :=
  TableFull s ∧ findTrackedProcess s e.pid = none ∧
    ∃ i, findTrackedProcess s e.ppid = some i ∧ trackedView.Oldest s.trackedProcs i

/-- The event makes the parent its own child, as the kernel never does, and changes its record. -/
def ChangesItself (now : Time) (s : ProcState) (e : ProcEvent) : Prop :=
  e.pid = e.ppid ∧ ∀ parent, trackedMap s e.ppid = some parent →
    ¬ (parent.ppid = e.ppid ∧ parent.comm = e.comm ∧ parent.lastSeen = now)

theorem forkRecord_eq_self (now : Time) {e : ProcEvent} {parent : TrackedProcess}
    (active : parent.active = true) (pid : parent.pid = e.pid) :
    forkRecord now e parent = parent ↔
      parent.ppid = e.ppid ∧ parent.comm = e.comm ∧ parent.lastSeen = now := by
  unfold forkRecord
  rw [snprintf_text]
  constructor
  · intro same
    rw [← same]
    exact ⟨rfl, rfl, rfl⟩
  · intro ⟨ppid, comm, lastSeen⟩
    rw [← pid, ← ppid, ← comm, ← lastSeen, ← active]

theorem procEventFork_itself_iff {now : Time} {e : ProcEvent} {s : ProcState}
    (unique : UniquePids s) (itself : e.pid = e.ppid) {i : Fin MAX_TRACKED_PROCS}
    (found : findTrackedProcess s e.ppid = some i) :
    ForkInherits s (procEventFork now e s) e ↔ ¬ ChangesItself now s e := by
  have before := trackedMap_of_find found
  have after : trackedMap (procEventFork now e s) e.pid =
      some (forkRecord now e (s.trackedProcs i)) :=
    (procEventFork_inserts now unique found).2.self
  have unchanged := forkRecord_eq_self now (active_of_find found)
    ((key_of_find found).trans itself.symm)
  simp only [ChangesItself, itself, before, true_and, Option.some.injEq, forall_eq', not_not]
  rw [← itself] at unchanged ⊢
  rw [← unchanged]
  constructor
  · intro ⟨parent, child, same, kept, _⟩
    rw [← itself, after] at kept
    rw [before] at same
    exact (Option.some.inj kept).trans (Option.some.inj same).symm
  · intro same
    rw [same] at after
    exact ⟨_, _, before, itself ▸ after, after, rfl, rfl, rfl⟩

theorem procEventFork_inherits_iff {now : Time} {e : ProcEvent} {s : ProcState}
    (unique : UniquePids s) (distinct : e.pid ≠ e.ppid) {i : Fin MAX_TRACKED_PROCS}
    (found : findTrackedProcess s e.ppid = some i) :
    ForkInherits s (procEventFork now e s) e ↔ ¬ EvictsParent s e := by
  obtain ⟨log, frame⟩ := procEventFork_tracked now found
  have child : trackedMap (procEventFork now e s) e.pid =
      some (forkRecord now e (s.trackedProcs i)) :=
    (procEventFork_inserts now unique found).2.self
  have parent : trackedMap (procEventFork now e s) e.ppid =
      if trackedView.slotFor s.trackedProcs e.pid = i then none else some (s.trackedProcs i) := by
    rw [frame]
    exact lookup_store_other unique found rfl distinct
  have evicts : EvictsParent s e ↔ trackedView.slotFor s.trackedProcs e.pid = i := by
    rw [slotFor_eq_iff found distinct]
    simp only [EvictsParent, found, Option.some.injEq, exists_eq_left']
    rfl
  rw [evicts]
  constructor
  · rintro ⟨proc, -, -, kept, -⟩ evicted
    rw [parent, if_pos evicted] at kept
    cases kept
  · intro spared
    rw [if_neg spared] at parent
    exact ⟨_, _, trackedMap_of_find found, parent, child, rfl, rfl, rfl⟩

def KnownHeir (s : ProcState) (e : ProcEvent) : Prop :=
  ∃ parent child, trackedMap s e.ppid = some parent ∧ trackedMap s e.pid = some child ∧
    child.filename = parent.filename ∧ child.argv = parent.argv ∧
    child.firstSeen = parent.firstSeen

/-- What a FORK event of a tracked parent needs for both to be tracked afterwards. While monitoring
is stopped the event changes nothing. -/
def ForkGuard (now : Time) (s : ProcState) (e : ProcEvent) : Prop :=
  if s.ebpfRunning then ¬ EvictsParent s e ∧ ¬ ChangesItself now s e else KnownHeir s e

theorem forkInherits_self_iff {s : ProcState} {e : ProcEvent} :
    ForkInherits s s e ↔ KnownHeir s e := by
  constructor
  · intro ⟨parent, child, present, _, known, inherited⟩
    exact ⟨parent, child, present, known, inherited⟩
  · intro ⟨parent, child, present, known, inherited⟩
    exact ⟨parent, child, present, present, known, inherited⟩

theorem handleEvent_inherits_iff {now : Time} {e : ProcEvent} {s : ProcState}
    (unique : UniquePids s) (isFork : e.type = .fork)
    (tracked : (trackedMap s e.ppid).isSome = true) :
    ForkInherits s (handleEvent now e s).2 e ↔ ForkGuard now s e := by
  obtain ⟨proc, present⟩ := Option.isSome_iff_exists.mp tracked
  obtain ⟨i, found, -⟩ := find_of_trackedMap present
  cases running : s.ebpfRunning with
  | false =>
      rw [handleEvent_stopped running, ForkGuard, if_neg (by simp [running])]
      exact forkInherits_self_iff
  | true =>
      rw [handleEvent_fork running isFork, ForkGuard, if_pos running]
      by_cases itself : e.pid = e.ppid
      · have known : ¬ EvictsParent s e := by
          intro ⟨_, absent, _⟩
          rw [itself, found] at absent
          cases absent
        rw [procEventFork_itself_iff unique itself found, and_iff_right known]
      · have other : ¬ ChangesItself now s e := fun changes => itself changes.1
        rw [procEventFork_inherits_iff unique itself found, and_iff_left other]

/-- In every reachable state a FORK event whose parent is tracked keeps the parent and lets the child
inherit exactly when the entry evicted for the child, if one is, is not the parent's (`ForkGuard`
says what else counts while monitoring is stopped, or in an event that names one process twice). -/
theorem fork_inherits_iff (configs : List ProcessConfig) (past : List ProcStep) (now : Time)
    (e : ProcEvent) (isFork : e.type = .fork)
    (tracked : (trackedMap (run step (.initial configs) past) e.ppid).isSome = true) :
    ForkInherits (run step (.initial configs) past)
        (run step (.initial configs) (past ++ [.event now e])) e ↔
      ForkGuard now (run step (.initial configs) past) e := by
  have unique := run_unique (s := .initial configs) (fun _ => rfl) past
  rw [run_append]
  exact handleEvent_inherits_iff unique isFork tracked

def startedSteps : List ProcStep := [.message ⟨0, true⟩ (lit "start 1")]

theorem run_startedSteps : ∃ log responses,
    run step (.initial [selftestConfig 1 false]) startedSteps =
      { ProcState.started [selftestConfig 1 true] with logFile := log, responses := responses } := by
  have command : switchCommand (.initial [selftestConfig 1 false]) (lit "start 1") =
      some (true, 0) := by decide
  obtain ⟨log, responses, frame⟩ := handleMessage_switched ⟨0, true⟩ command rfl
  exact ⟨log, responses, frame⟩

theorem startedSteps_running :
    (run step (.initial [selftestConfig 1 false]) startedSteps).ebpfRunning = true := by
  obtain ⟨log, responses, start⟩ := run_startedSteps
  rw [start]
  rfl

theorem startedSteps_configs :
    (run step (.initial [selftestConfig 1 false]) startedSteps).configs =
      [selftestConfig 1 true] := by
  obtain ⟨log, responses, start⟩ := run_startedSteps
  rw [start]
  rfl

theorem startedSteps_loaded :
    selftestConfig 1 true ∈ (run step (.initial [selftestConfig 1 false]) startedSteps).configs := by
  rw [startedSteps_configs]
  exact List.mem_singleton_self _

theorem startedSteps_fresh :
    (run step (.initial [selftestConfig 1 false]) startedSteps).trackedProcs = fun _ => .zero := by
  obtain ⟨log, responses, start⟩ := run_startedSteps
  rw [start]
  rfl

def trackedSteps : List ProcStep := startedSteps ++ [.event 0 (shellEvent .exec 7 1)]

theorem trackedSteps_running :
    (run step (.initial [selftestConfig 1 false]) trackedSteps).ebpfRunning = true := by
  simp only [trackedSteps, run_append, run_cons, run_nil, step, handleEvent_ebpfRunning,
    startedSteps_running]

theorem trackedSteps_configs :
    (run step (.initial [selftestConfig 1 false]) trackedSteps).configs =
      [selftestConfig 1 true] := by
  simp only [trackedSteps, run_append, run_cons, run_nil, step, handleEvent_configs,
    startedSteps_configs]

theorem trackedSteps_tracked :
    (trackedMap (run step (.initial [selftestConfig 1 false]) trackedSteps) 7).isSome = true := by
  have handled : run step (.initial [selftestConfig 1 false]) trackedSteps =
      procEventExec 0 (shellEvent .exec 7 1)
        (run step (.initial [selftestConfig 1 false]) startedSteps) := by
    rw [trackedSteps, run_append]
    exact handleEvent_exec startedSteps_running rfl
  have tracked := (procEventExec_inserts 0 (run_unique (fun _ => rfl) startedSteps)
    (shellEvent_enabled startedSteps_loaded .exec 7 1)).2.self
  rw [handled]
  exact Option.isSome_iff_exists.mpr ⟨_, tracked⟩

theorem fork_inherits_iff_shell :
    let s := run step (.initial [selftestConfig 1 false]) trackedSteps
    ForkInherits s (run step (.initial [selftestConfig 1 false])
        (trackedSteps ++ [.event 5 (shellEvent .fork 8 7)])) (shellEvent .fork 8 7) ↔
      ForkGuard 5 s (shellEvent .fork 8 7) :=
  fork_inherits_iff _ trackedSteps 5 (shellEvent .fork 8 7) rfl trackedSteps_tracked

/-! ## A full table -/

def execEvents (count : Nat) : List ProcStep :=
  (List.range count).map fun k => .event 0 (shellEvent .exec (UInt32.ofNat (k + 1)) 0)

def execTable (count : Nat) (i : Fin MAX_TRACKED_PROCS) : TrackedProcess :=
  if i.val < count then execRecord 0 (shellEvent .exec (UInt32.ofNat (i.val + 1)) 0) else .zero

theorem execTable_absent {count k : Nat} (beyond : count ≤ k) (k_le : k ≤ MAX_TRACKED_PROCS) :
    trackedView.find (execTable count) (UInt32.ofNat (k + 1)) = none := by
  rw [find_eq_none_iff]
  intro i active same
  unfold MAX_TRACKED_PROCS at k_le
  by_cases filled : i.val < count
  · simp only [trackedView, execTable, filled, if_true, execRecord, shellEvent] at same
    have values := congrArg UInt32.toNat same
    simp only [UInt32.toNat_ofNat'] at values
    omega
  · simp [trackedView, execTable, filled, TrackedProcess.zero] at active

theorem exec_fills {s : ProcState} (running : s.ebpfRunning = true)
    (loaded : selftestConfig 1 true ∈ s.configs) {count : Nat} (room : count < MAX_TRACKED_PROCS)
    (slots : s.trackedProcs = execTable count) :
    (handleEvent 0 (shellEvent .exec (UInt32.ofNat (count + 1)) 0) s).2.trackedProcs =
      execTable (count + 1) := by
  obtain ⟨log, frame⟩ := procEventExec_enabled 0
    (shellEvent_enabled loaded .exec (UInt32.ofNat (count + 1)) 0)
  have slot : trackedView.slotFor s.trackedProcs (UInt32.ofNat (count + 1)) = ⟨count, room⟩ := by
    rw [slots, slotFor_of_none (execTable_absent le_rfl room.le)]
    apply alloc_first_free
    · simp [trackedView, execTable, TrackedProcess.zero]
    · intro j before
      simp only [Fin.lt_def] at before
      simp [trackedView, execTable, before, execRecord]
  rw [handleEvent_exec running rfl, frame]
  funext i
  show Function.update s.trackedProcs (trackedView.slotFor s.trackedProcs
    (UInt32.ofNat (count + 1))) _ i = _
  rw [slot, slots]
  by_cases here : i = ⟨count, room⟩
  · subst here
    simp [execTable]
  · have elsewhere : i.val ≠ count := fun same => here (Fin.ext same)
    rw [Function.update_of_ne here]
    unfold execTable
    by_cases filled : i.val < count
    · rw [if_pos filled, if_pos (by omega)]
    · rw [if_neg filled, if_neg (by omega)]

theorem run_execEvents {s : ProcState} (running : s.ebpfRunning = true)
    (loaded : selftestConfig 1 true ∈ s.configs) (fresh : s.trackedProcs = fun _ => .zero)
    (count : Nat) (fits : count ≤ MAX_TRACKED_PROCS) :
    (run step s (execEvents count)).ebpfRunning = true ∧
      selftestConfig 1 true ∈ (run step s (execEvents count)).configs ∧
      (run step s (execEvents count)).trackedProcs = execTable count := by
  induction count with
  | zero =>
      refine ⟨running, loaded, fresh.trans ?_⟩
      funext i
      simp [execTable]
  | succ count ih =>
      obtain ⟨on, present, slots⟩ := ih (by omega)
      have split : execEvents (count + 1) = execEvents count ++
          [.event 0 (shellEvent .exec (UInt32.ofNat (count + 1)) 0)] := by
        simp [execEvents, List.range_succ]
      simp only [split, run_append, run_cons, run_nil, step,
        handleEvent_ebpfRunning, handleEvent_configs]
      exact ⟨on, present, exec_fills on present (by omega) slots⟩

theorem run_fork {s : ProcState} (past : List ProcStep) {now : Time} {e : ProcEvent}
    (running : (run step s past).ebpfRunning = true) (isFork : e.type = .fork) :
    run step s (past ++ [.event now e]) = procEventFork now e (run step s past) := by
  rw [run_append]
  exact handleEvent_fork running isFork

theorem full_table_loses_parent : ¬ ∀ (configs : List ProcessConfig) (past : List ProcStep)
    (now : Time) (e : ProcEvent), (run step (.initial configs) past).ebpfRunning = true →
    e.type = .fork → e.pid ≠ e.ppid →
    (trackedMap (run step (.initial configs) past) e.ppid).isSome = true →
    ForkInherits (run step (.initial configs) past)
      (run step (.initial configs) (past ++ [.event now e])) e := by
  intro inherits
  have room : 0 < MAX_TRACKED_PROCS := Nat.pos_of_neZero _
  obtain ⟨on, -, slots⟩ := run_execEvents startedSteps_running startedSteps_loaded
    startedSteps_fresh MAX_TRACKED_PROCS le_rfl
  rw [← run_append] at on slots
  have unique := run_unique (s := .initial [selftestConfig 1 false]) (fun _ => rfl)
    (startedSteps ++ execEvents MAX_TRACKED_PROCS)
  have active : ∀ i, (execTable MAX_TRACKED_PROCS i).active = true := by
    intro i
    simp [execTable, i.isLt, execRecord]
  have parent : findTrackedProcess (run step (.initial [selftestConfig 1 false])
      (startedSteps ++ execEvents MAX_TRACKED_PROCS)) 1 = some ⟨0, room⟩ := by
    apply find_eq_some unique
    · rw [slots]
      exact active _
    · rw [slots]
      simp [trackedView, execTable, room, execRecord, shellEvent]
  have inherited := inherits [selftestConfig 1 false] (startedSteps ++ execEvents MAX_TRACKED_PROCS)
    0 (shellEvent .fork 4097 1) on rfl (by decide)
    (Option.isSome_iff_exists.mpr ⟨_, trackedMap_of_find parent⟩)
  rw [run_fork _ on rfl] at inherited
  refine (procEventFork_inherits_iff unique (by decide) parent).mp inherited ⟨?_, ?_, _, parent, ?_⟩
  · intro i
    rw [slots]
    exact active i
  · have bound : MAX_TRACKED_PROCS = 4096 := by unfold MAX_TRACKED_PROCS; rfl
    have pid : (shellEvent .fork 4097 1).pid = UInt32.ofNat (4096 + 1) := by decide
    unfold findTrackedProcess
    rw [slots, pid]
    exact execTable_absent bound.le bound.ge
  · rw [slots]
    intro j
    refine ⟨?_, fun before => absurd before (Fin.not_lt_zero j)⟩
    simp [trackedView, execTable, room, execRecord]

end SysDetector.Proc
