import SysDetector.Proc.ForkInheritance

/-!
# Tracked processes that have exited

`proc list tracked` is to show processes that are still alive. Pids are reused, so a history kept
beside the worker tells the processes of a pid apart by the number of EXIT events before them.
`tracked_rows_alive_iff`: the table holds live processes only, as long as no tracked process exits
while monitoring is stopped.
-/

namespace SysDetector.Proc
open CLib Runs SlotTable SlotTable.View

/-- For each pid the EXIT events so far, and how many of them the process had seen that its entry
was last written for. -/
structure History where
  exits : UInt32 → Nat
  owner : UInt32 → Nat

def History.empty : History where
  exits := fun _ => 0
  owner := fun _ => 0

def writesEntry (s : ProcState) (e : ProcEvent) : Bool :=
  match e.type with
  | .exec => s.ebpfRunning && isEnabledConfiguredProcess s e
  | .fork => s.ebpfRunning && (findTrackedProcess s e.ppid).isSome
  | _ => false

def History.record (h : History) (s : ProcState) (e : ProcEvent) : History :=
  if writesEntry s e then { h with owner := Function.update h.owner e.pid (h.exits e.pid) }
  else if e.type = .exit then { h with exits := Function.update h.exits e.pid (h.exits e.pid + 1) }
  else h

def stepHistory : ProcState × History → ProcStep → ProcState × History
  | (s, h), .event now e => (step s (.event now e), h.record s e)
  | (s, h), input => (step s input, h)

def RowsAlive (sh : ProcState × History) : Prop :=
  ∀ now, ∀ row ∈ trackedRows now sh.1, sh.2.owner row.pid = sh.2.exits row.pid

def ExitGuard (sh : ProcState × History) : ProcStep → Prop
  | .event _ e => e.type = .exit → sh.1.ebpfRunning = false → findTrackedProcess sh.1 e.pid = none
  | _ => True

theorem rowsAlive_iff {s : ProcState} {h : History} : RowsAlive (s, h) ↔
    ∀ i, (s.trackedProcs i).active = true →
      h.owner (s.trackedProcs i).pid = h.exits (s.trackedProcs i).pid := by
  simp only [RowsAlive, trackedRows]
  constructor
  · intro alive i active
    refine alive 0 (trackedRow 0 (s.trackedProcs i)) (List.mem_map_of_mem ?_)
    exact List.mem_filter.mpr ⟨List.mem_ofFn.mpr ⟨i, rfl⟩, active⟩
  · intro alive now row member
    obtain ⟨proc, kept, rfl⟩ := List.mem_map.mp member
    obtain ⟨listed, active⟩ := List.mem_filter.mp kept
    obtain ⟨i, rfl⟩ := List.mem_ofFn.mp listed
    exact alive i active

theorem writesEntry_frame (now : Time) {e : ProcEvent} {s : ProcState}
    (writes : writesEntry s e = true) : ∃ slot record,
      record.pid = e.pid ∧ record.active = true ∧
        (handleEvent now e s).2.trackedProcs = Function.update s.trackedProcs slot record := by
  unfold writesEntry at writes
  cases type : e.type with
  | exec =>
      simp only [type, Bool.and_eq_true] at writes
      obtain ⟨log, frame⟩ := procEventExec_enabled now writes.2
      rw [handleEvent_exec writes.1 type, frame]
      exact ⟨_, _, rfl, rfl, rfl⟩
  | fork =>
      simp only [type, Bool.and_eq_true, Option.isSome_iff_exists] at writes
      obtain ⟨running, i, found⟩ := writes
      obtain ⟨log, frame⟩ := procEventFork_tracked now found
      rw [handleEvent_fork running type, frame]
      exact ⟨_, _, rfl, rfl, rfl⟩
  | exit => simp [type] at writes
  | other => simp [type] at writes

theorem not_writesEntry_frame {now : Time} {e : ProcEvent} {s : ProcState}
    (keeps : writesEntry s e = false) (notExit : e.type ≠ .exit) :
    (handleEvent now e s).2.trackedProcs = s.trackedProcs := by
  by_cases running : s.ebpfRunning = true
  · unfold writesEntry at keeps
    cases type : e.type with
    | exec =>
        simp only [type, running, Bool.true_and] at keeps
        rw [handleEvent_exec running type, procEventExec_disabled keeps]
    | fork =>
        simp only [type, running, Bool.true_and, Option.isSome_eq_false_iff,
          Option.isNone_iff_eq_none] at keeps
        rw [handleEvent_fork running type, procEventFork_untracked keeps]
    | exit => exact absurd type notExit
    | other => simp [handleEvent, running, type]
  · rw [handleEvent_stopped (Bool.eq_false_of_not_eq_true running)]

theorem rowsAlive_write {s s' : ProcState} {h : History} {slot : Fin MAX_TRACKED_PROCS}
    {record : TrackedProcess} (unique : UniquePids s') (active : record.active = true)
    (write : s'.trackedProcs = Function.update s.trackedProcs slot record)
    (alive : RowsAlive (s, h)) :
    RowsAlive (s', { h with owner := Function.update h.owner record.pid (h.exits record.pid) }) := by
  rw [rowsAlive_iff] at alive ⊢
  intro i activeHere
  by_cases here : i = slot
  · subst here
    simp [write]
  · have kept : s'.trackedProcs i = s.trackedProcs i := by rw [write, Function.update_of_ne here]
    have written : s'.trackedProcs slot = record := by rw [write, Function.update_self]
    have other : (s'.trackedProcs i).pid ≠ record.pid := by
      intro same
      apply here
      apply unique i slot activeHere
      · rw [written]
        exact active
      · rw [written]
        exact same
    rw [kept] at activeHere other ⊢
    simpa [Function.update_of_ne other] using alive i activeHere

theorem rowsAlive_exit {s : ProcState} {h : History} {pid : UInt32} (alive : RowsAlive (s, h)) :
    RowsAlive (s, { h with exits := Function.update h.exits pid (h.exits pid + 1) }) ↔
      findTrackedProcess s pid = none := by
  rw [rowsAlive_iff] at alive ⊢
  unfold findTrackedProcess
  rw [find_eq_none_iff]
  constructor
  · intro after i active same
    change (s.trackedProcs i).pid = pid at same
    have stale : h.owner (s.trackedProcs i).pid =
        Function.update h.exits pid (h.exits pid + 1) (s.trackedProcs i).pid := after i active
    have current := alive i active
    rw [same, Function.update_self] at stale
    rw [same] at current
    omega
  · intro absent i active
    have other : (s.trackedProcs i).pid ≠ pid := absent i active
    simpa [Function.update_of_ne other] using alive i active

theorem rowsAlive_release {s s' : ProcState} {h : History} {i : Fin MAX_TRACKED_PROCS}
    {record : TrackedProcess} (inactive : record.active = false)
    (release : s'.trackedProcs = Function.update s.trackedProcs i record)
    (alive : RowsAlive (s, h)) : RowsAlive (s', h) := by
  rw [rowsAlive_iff] at alive ⊢
  intro j active
  rw [release] at active ⊢
  by_cases here : j = i
  · subst here
    simp [inactive] at active
  · rw [Function.update_of_ne here] at active ⊢
    exact alive j active

theorem procEventExit_gone {now : Time} {e : ProcEvent} {s : ProcState} (unique : UniquePids s) :
    findTrackedProcess (procEventExit now e s) e.pid = none := by
  cases found : findTrackedProcess s e.pid with
  | none => rwa [procEventExit_untracked found]
  | some i =>
      rw [findTrackedProcess_eq_none, (procEventExit_removes now unique found).2,
        Function.update_self]

theorem event_rowsAlive_iff {now : Time} {e : ProcEvent} {s : ProcState} {h : History}
    (unique : UniquePids s) (alive : RowsAlive (s, h)) :
    RowsAlive (stepHistory (s, h) (.event now e)) ↔ ExitGuard (s, h) (.event now e) := by
  show RowsAlive ((handleEvent now e s).2, h.record s e) ↔ _
  unfold History.record
  cases writes : writesEntry s e with
  | true =>
      obtain ⟨slot, record, pid, active, write⟩ := writesEntry_frame now writes
      have notExit : e.type ≠ .exit := by
        intro type
        simp [writesEntry, type] at writes
      rw [if_pos rfl, ← pid]
      exact iff_of_true (rowsAlive_write (handleEvent_unique now unique) active write alive)
        fun type => absurd type notExit
  | false =>
      rw [if_neg Bool.false_ne_true]
      by_cases type : e.type = .exit
      · rw [if_pos type]
        cases running : s.ebpfRunning with
        | true =>
            rw [handleEvent_exit running type]
            refine iff_of_true ?_ (by simp [ExitGuard, running])
            have after : RowsAlive (procEventExit now e s, h) := by
              cases found : findTrackedProcess s e.pid with
              | none => rwa [procEventExit_untracked found]
              | some i =>
                  obtain ⟨counters, log, frame⟩ := procEventExit_tracked now found
                  rw [frame]
                  exact rowsAlive_release rfl rfl alive
            exact (rowsAlive_exit after).mpr (procEventExit_gone unique)
        | false =>
            rw [handleEvent_stopped running, rowsAlive_exit alive]
            simp [ExitGuard, running, type]
      · rw [if_neg type]
        refine iff_of_true ?_ fun exits => absurd exits type
        rw [rowsAlive_iff, not_writesEntry_frame writes type]
        exact rowsAlive_iff.mp alive

theorem stepHistory_rowsAlive_iff {sh : ProcState × History} {input : ProcStep}
    (unique : UniquePids sh.1) (alive : RowsAlive sh) :
    RowsAlive (stepHistory sh input) ↔ ExitGuard sh input := by
  obtain ⟨s, h⟩ := sh
  cases input with
  | event now e => exact event_rowsAlive_iff unique alive
  | message env message =>
      refine iff_of_true ?_ trivial
      show RowsAlive (handleMessage env message s, h)
      rw [rowsAlive_iff, handleMessage_trackedProcs]
      exact rowsAlive_iff.mp alive
  | monitor env =>
      refine iff_of_true ?_ trivial
      show RowsAlive (monitorStep env s, h)
      rw [rowsAlive_iff, monitorStep_trackedProcs]
      exact rowsAlive_iff.mp alive

/-- In a run of the worker all rows of `list tracked` are live processes, at every point, exactly
when no tracked process exits while monitoring is stopped. -/
theorem tracked_rows_alive_iff (configs : List ProcessConfig) (steps : List ProcStep) :
    Always stepHistory RowsAlive (.initial configs, .empty) steps ↔
      Guarded stepHistory ExitGuard (.initial configs, .empty) steps := by
  apply always_iff_guarded stepHistory (J := fun sh => UniquePids sh.1 ∧ RowsAlive sh)
    (L := fun _ _ => True)
  · exact fun sh inv => inv.2
  · intro ⟨s, h⟩ input ⟨unique, alive⟩ _ guard
    refine ⟨?_, (stepHistory_rowsAlive_iff unique alive).mpr guard⟩
    cases input <;> exact step_unique s _ unique
  · exact fun sh input inv _ after => (stepHistory_rowsAlive_iff inv.1 inv.2).mp after
  · refine ⟨unique_of_free fun _ => rfl, rowsAlive_iff.mpr ?_⟩
    intro i active
    cases active
  · exact fun _ _ _ _ => trivial

theorem run_stepHistory (s : ProcState) (h : History) (steps : List ProcStep) :
    (run stepHistory (s, h) steps).1 = run step s steps := by
  induction steps generalizing s h with
  | nil => rfl
  | cons input steps ih => cases input <;> exact ih _ _

def stoppedSteps : List ProcStep := trackedSteps ++ [.message ⟨1, true⟩ (lit "stop 1")]

theorem unseen_exit_listed : ¬ ∀ (configs : List ProcessConfig) (steps : List ProcStep),
    RowsAlive (run stepHistory (.initial configs, .empty) steps) := by
  intro alive
  have before := alive [selftestConfig 1 false] stoppedSteps
  have after := alive [selftestConfig 1 false]
    (stoppedSteps ++ [.event 2 (shellEvent .exit 7 1)])
  have unique := run_unique (s := .initial [selftestConfig 1 false]) (fun _ => rfl) stoppedSteps
  rw [← run_stepHistory _ .empty] at unique
  rw [run_append, run_cons, run_nil] at after
  have guard := (stepHistory_rowsAlive_iff unique before).mp after rfl
  unfold stoppedSteps at guard
  rw [run_stepHistory, run_append, run_cons, run_nil] at guard
  have running := trackedSteps_running
  have configs := trackedSteps_configs
  have tracked := trackedSteps_tracked
  generalize run step (.initial [selftestConfig 1 false]) trackedSteps = s at *
  have command : switchCommand s (lit "stop 1") = some (false, 0) := by
    unfold switchCommand configIndex
    rw [configs]
    decide
  obtain ⟨log, responses, frame⟩ := handleMessage_switched ⟨1, true⟩ command
    (by simpa using running)
  rw [step, frame] at guard
  have absent : findTrackedProcess s 7 = none := guard rfl
  rw [findTrackedProcess_eq_none] at absent
  simp [absent] at tracked

end SysDetector.Proc
