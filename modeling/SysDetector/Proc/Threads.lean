import SysDetector.Bpf.Events
import SysDetector.Proc.ForkInheritance

/-!
# Processes and threads

FORK events carry the ids of tasks, EXEC and EXIT events those of thread groups, and the table
takes both for pids. Beside the worker stand the kernel's tasks here, and the processes that ought
to be tracked. `tracked_are_processes_iff`: the table holds just these as long as no tracked
process creates a thread.
-/

namespace SysDetector.Proc
open CLib Runs Bpf

/-- The worker and the kernel: the thread group of every live task, and which processes exec'd an
enabled program or come from a tracked one. -/
structure System where
  worker : ProcState
  tasks : UInt32 → Option UInt32
  marked : UInt32 → Bool

inductive SystemStep
  | createProcess (now : Time) (ctx : ForkContext)
  | createThread (now : Time) (ctx : ForkContext)
  | exec (now : Time) (tid : UInt32) (ctx : ExecContext) (cache : ExecArgsCache)
  | exit (now : Time) (tid : UInt32) (ctx : ExitContext)
  | worker (input : ProcStep)

def System.markedTask (sys : System) (tid : UInt32) : Bool :=
  match sys.tasks tid with
  | some tgid => sys.marked tgid
  | none => false

def stepSystem (sys : System) : SystemStep → System
  | .createProcess now ctx =>
      { worker := step sys.worker (.event now (getForkInfo ctx))
        tasks := Function.update sys.tasks ctx.childPid (some ctx.childPid)
        marked := Function.update sys.marked ctx.childPid (sys.markedTask ctx.parentPid) }
  | .createThread now ctx =>
      { worker := step sys.worker (.event now (getForkInfo ctx))
        tasks := Function.update sys.tasks ctx.childPid (sys.tasks ctx.parentPid)
        marked := sys.marked }
  | .exec now tid ctx cache =>
      let e := (getExecInfo ctx cache).1
      { worker := step sys.worker (.event now e)
        tasks := Function.update (Function.update sys.tasks tid none) ctx.tgid (some ctx.tgid)
        marked := if isEnabledConfiguredProcess sys.worker e then
            Function.update sys.marked ctx.tgid true else sys.marked }
  | .exit now tid ctx =>
      { worker := step sys.worker (.event now (getExitInfo ctx))
        tasks := Function.update sys.tasks tid none
        marked := sys.marked }
  | .worker input => { sys with worker := step sys.worker input }

def Watching (s : ProcState) : Prop := s.ebpfRunning = true ∧ ¬ TableFull s

def Fresh (tasks : UInt32 → Option UInt32) (pid : UInt32) : Prop :=
  tasks pid = none ∧ ∀ tid, tasks tid ≠ some pid

/-- What the kernel does, and a worker that keeps monitoring. Exec ends the other threads of its
process first. -/
def LegalStep (sys : System) : SystemStep → Prop
  | .createProcess _ ctx | .createThread _ ctx =>
      Watching sys.worker ∧ sys.tasks ctx.parentPid ≠ none ∧ Fresh sys.tasks ctx.childPid
  | .exec _ tid ctx _ => Watching sys.worker ∧ sys.tasks tid = some ctx.tgid ∧
      ∀ other, sys.tasks other = some ctx.tgid → other = tid
  | .exit _ tid ctx => Watching sys.worker ∧ sys.tasks tid = some ctx.tgid
  | .worker input => (∀ now e, input ≠ .event now e) ∧ (step sys.worker input).ebpfRunning = true

def TrackedAreProcesses (sys : System) : Prop :=
  ∀ pid, (trackedMap sys.worker pid).isSome = true ↔
    (∃ tid, sys.tasks tid = some pid) ∧ sys.marked pid = true

def NoTrackedThreads (sys : System) : SystemStep → Prop
  | .createThread _ ctx => sys.markedTask ctx.parentPid = false
  | _ => True

structure SystemInv (sys : System) : Prop where
  unique : UniquePids sys.worker
  single : ∀ tid tgid, sys.tasks tid = some tgid → sys.marked tgid = true → tid = tgid
  tracked : ∀ pid, (trackedMap sys.worker pid).isSome = true ↔
    sys.tasks pid = some pid ∧ sys.marked pid = true

theorem SystemInv.trackedAreProcesses {sys : System} (inv : SystemInv sys) :
    TrackedAreProcesses sys := by
  intro pid
  rw [inv.tracked pid]
  constructor
  · intro ⟨leader, marked⟩
    exact ⟨⟨pid, leader⟩, marked⟩
  · intro ⟨⟨tid, task⟩, marked⟩
    have leads := inv.single tid pid task marked
    exact ⟨leads ▸ task, marked⟩

theorem SystemInv.tracked_task {sys : System} (inv : SystemInv sys) (tid : UInt32) :
    (trackedMap sys.worker tid).isSome = true ↔ sys.markedTask tid = true := by
  rw [inv.tracked tid, System.markedTask]
  cases task : sys.tasks tid with
  | none => simp
  | some tgid =>
      simp only [Option.some.injEq]
      constructor
      · rintro ⟨rfl, marked⟩
        exact marked
      · intro marked
        have leads := inv.single tid tgid task marked
        exact ⟨leads.symm, leads ▸ marked⟩

section Steps
variable {sys : System}

theorem createProcess_inv {now : Time} {ctx : ForkContext} (inv : SystemInv sys)
    (legal : LegalStep sys (.createProcess now ctx)) :
    SystemInv (stepSystem sys (.createProcess now ctx)) := by
  obtain ⟨⟨running, roomy⟩, -, free, unused⟩ := legal
  refine ⟨handleEvent_unique now inv.unique, ?_, ?_⟩
  · intro tid tgid task marked
    simp only [stepSystem, Function.update_apply] at task marked
    split_ifs at task with new
    · rw [new, Option.some.inj task]
    · have old : tgid ≠ ctx.childPid := fun same => unused tid (task.trans (congrArg some same))
      rw [if_neg old] at marked
      exact inv.single tid tgid task marked
  · intro pid
    have tracked := handleEvent_fork_isSome now (e := getForkInfo ctx) inv.unique running
      roomy rfl pid
    show (trackedMap (handleEvent now (getForkInfo ctx) sys.worker).2 pid).isSome = true ↔ _
    rw [tracked]
    simp only [stepSystem, Function.update_apply, getForkInfo, inv.tracked_task ctx.parentPid]
    by_cases new : pid = ctx.childPid
    · subst new
      simp [inv.tracked, free]
    · simp [new, inv.tracked]

theorem createThread_tracked {now : Time} {ctx : ForkContext} (inv : SystemInv sys)
    (legal : LegalStep sys (.createThread now ctx)) (pid : UInt32) :
    (trackedMap (stepSystem sys (.createThread now ctx)).worker pid).isSome = true ↔
      (trackedMap sys.worker pid).isSome = true ∨
        (sys.markedTask ctx.parentPid = true ∧ pid = ctx.childPid) := by
  rw [← inv.tracked_task ctx.parentPid]
  exact handleEvent_fork_isSome now inv.unique legal.1.1 legal.1.2 rfl pid

theorem createThread_inv {now : Time} {ctx : ForkContext} (inv : SystemInv sys)
    (legal : LegalStep sys (.createThread now ctx))
    (unmarked : sys.markedTask ctx.parentPid = false) :
    SystemInv (stepSystem sys (.createThread now ctx)) := by
  have tracked := createThread_tracked inv legal
  obtain ⟨-, -, free, unused⟩ := legal
  refine ⟨handleEvent_unique now inv.unique, ?_, ?_⟩
  · intro tid tgid task marked
    simp only [stepSystem, Function.update_apply] at task marked
    split_ifs at task with new
    · simp [System.markedTask, task, marked] at unmarked
    · exact inv.single tid tgid task marked
  · intro pid
    rw [tracked pid, unmarked, inv.tracked pid]
    simp only [stepSystem, Function.update_apply, Bool.false_eq_true, false_and, or_false]
    by_cases new : pid = ctx.childPid
    · subst new
      simp [free, unused ctx.parentPid]
    · simp [new]

theorem createThread_untracked {now : Time} {ctx : ForkContext} (inv : SystemInv sys)
    (legal : LegalStep sys (.createThread now ctx))
    (after : TrackedAreProcesses (stepSystem sys (.createThread now ctx))) :
    sys.markedTask ctx.parentPid = false := by
  have tracked := createThread_tracked inv legal ctx.childPid
  obtain ⟨-, -, -, unused⟩ := legal
  by_contra marked
  obtain ⟨⟨tid, task⟩, -⟩ := (after ctx.childPid).mp
    (tracked.mpr (.inr ⟨Bool.of_not_eq_false marked, rfl⟩))
  simp only [stepSystem, Function.update_apply] at task
  split_ifs at task
  · exact unused ctx.parentPid task
  · exact unused tid task

theorem exec_inv {now : Time} {tid : UInt32} {ctx : ExecContext} {cache : ExecArgsCache}
    (inv : SystemInv sys) (legal : LegalStep sys (.exec now tid ctx cache)) :
    SystemInv (stepSystem sys (.exec now tid ctx cache)) := by
  obtain ⟨⟨running, roomy⟩, task, only⟩ := legal
  refine ⟨handleEvent_unique now inv.unique, ?_, ?_⟩
  · intro other tgid there marked
    simp only [stepSystem, Function.update_apply] at there marked
    split_ifs at there with leader gone
    · rw [leader, Option.some.inj there]
    · have elsewhere : tgid ≠ ctx.tgid := fun same => gone (only other (same ▸ there))
      apply inv.single other tgid there
      split_ifs at marked
      · simpa [Function.update_of_ne elsewhere] using marked
      · exact marked
  · intro pid
    have tracked := handleEvent_exec_isSome now (e := (getExecInfo ctx cache).1) inv.unique
      running roomy rfl pid
    show (trackedMap (handleEvent now (getExecInfo ctx cache).1 sys.worker).2 pid).isSome = true ↔ _
    have event : (getExecInfo ctx cache).1.pid = ctx.tgid := rfl
    rw [tracked, inv.tracked pid, event]
    simp only [stepSystem]
    generalize isEnabledConfiguredProcess sys.worker (getExecInfo ctx cache).1 = enabled
    by_cases here : pid = ctx.tgid
    · subst here
      have leads : sys.marked ctx.tgid = true → sys.tasks ctx.tgid = some ctx.tgid :=
        fun marked => inv.single tid ctx.tgid task marked ▸ task
      rw [Function.update_self, and_iff_right_of_imp leads]
      cases enabled <;> simp
    · have another : sys.tasks pid = some pid → pid ≠ tid := by
        rintro leader rfl
        rw [leader] at task
        exact here (Option.some.inj task)
      have kept : Function.update sys.tasks tid none pid = some pid ↔ sys.tasks pid = some pid := by
        by_cases gone : pid = tid
        · subst gone
          simpa using fun leader => another leader rfl
        · rw [Function.update_of_ne gone]
      rw [Function.update_of_ne here, kept]
      cases enabled <;> simp [here]

theorem exit_inv {now : Time} {tid : UInt32} {ctx : ExitContext} (inv : SystemInv sys)
    (legal : LegalStep sys (.exit now tid ctx)) :
    SystemInv (stepSystem sys (.exit now tid ctx)) := by
  obtain ⟨⟨running, -⟩, task⟩ := legal
  refine ⟨handleEvent_unique now inv.unique, ?_, ?_⟩
  · intro other tgid there marked
    simp only [stepSystem, Function.update_apply] at there marked
    split_ifs at there
    exact inv.single other tgid there marked
  · intro pid
    have tracked := handleEvent_exit_isSome now (e := getExitInfo ctx) inv.unique running
      rfl pid
    show (trackedMap (handleEvent now (getExitInfo ctx) sys.worker).2 pid).isSome = true ↔ _
    rw [tracked, inv.tracked pid]
    simp only [stepSystem, getExitInfo, Function.update_apply]
    by_cases gone : pid = tid
    · subst gone
      simp only [task, Option.some.injEq, if_true, reduceCtorEq, false_and, iff_false]
      rintro ⟨⟨rfl, -⟩, different⟩
      exact different rfl
    · rw [if_neg gone]
      constructor
      · exact And.left
      · intro ⟨leader, marked⟩
        refine ⟨⟨leader, marked⟩, ?_⟩
        rintro rfl
        exact gone (inv.single tid ctx.tgid task marked).symm

theorem worker_inv {input : ProcStep} (inv : SystemInv sys)
    (legal : LegalStep sys (.worker input)) : SystemInv (stepSystem sys (.worker input)) := by
  have same : (step sys.worker input).trackedProcs = sys.worker.trackedProcs := by
    cases input with
    | message env message => exact handleMessage_trackedProcs env message sys.worker
    | event now e => exact absurd rfl (legal.1 now e)
    | monitor env => exact monitorStep_trackedProcs env sys.worker
  refine ⟨step_unique sys.worker input inv.unique, inv.single, ?_⟩
  intro pid
  show (trackedMap (step sys.worker input) pid).isSome = true ↔ _
  rw [trackedMap, same]
  exact inv.tracked pid

theorem stepSystem_inv {input : SystemStep} (inv : SystemInv sys) (legal : LegalStep sys input)
    (guard : NoTrackedThreads sys input) : SystemInv (stepSystem sys input) := by
  cases input with
  | createProcess now ctx => exact createProcess_inv inv legal
  | createThread now ctx => exact createThread_inv inv legal guard
  | exec now tid ctx cache => exact exec_inv inv legal
  | exit now tid ctx => exact exit_inv inv legal
  | worker input => exact worker_inv inv legal

end Steps

def System.start (configs : List ProcessConfig) (tasks : UInt32 → Option UInt32) : System where
  worker := .started configs
  tasks := tasks
  marked := fun _ => false

theorem start_inv (configs : List ProcessConfig) (tasks : UInt32 → Option UInt32) :
    SystemInv (.start configs tasks) where
  unique := SlotTable.View.unique_of_free fun _ => rfl
  single := by
    intro tid tgid task marked
    cases marked
  tracked := by
    intro pid
    simp [System.start, start_untracked]

/-- In every legal history the tracked pids are the live processes that ought to be tracked, at
every point, exactly when none of these creates a thread. -/
theorem tracked_are_processes_iff (configs : List ProcessConfig) (tasks : UInt32 → Option UInt32)
    (steps : List SystemStep) (legal : Guarded stepSystem LegalStep (.start configs tasks) steps) :
    Always stepSystem TrackedAreProcesses (.start configs tasks) steps ↔
      Guarded stepSystem NoTrackedThreads (.start configs tasks) steps := by
  apply always_iff_guarded stepSystem (J := SystemInv) (L := LegalStep)
  · exact fun sys inv => inv.trackedAreProcesses
  · exact fun sys input inv legal guard => stepSystem_inv inv legal guard
  · intro sys input inv legal after
    cases input with
    | createThread now ctx => exact createThread_untracked inv legal after
    | _ => trivial
  · exact start_inv configs tasks
  · exact legal

/-! ## A tracked shell -/

def shellExec : ExecContext where
  tgid := 7
  parentTgid := 1
  comm := snprintf TASK_COMM_LEN (lit "sh")
  filename := some (lit "/bin/sh")
  filenameLen := 8
  stackId := 0

theorem getExecInfo_shellExec : (getExecInfo shellExec .empty).1 = shellEvent .exec 7 1 := by
  rfl

def shellTasks (tid : UInt32) : Option UInt32 := if tid = 7 then some 7 else none

def shellStart : System := .start [selftestConfig 1 true] shellTasks

theorem shellExec_legal : LegalStep shellStart (.exec 0 7 shellExec .empty) := by
  refine ⟨⟨rfl, ?_⟩, rfl, ?_⟩
  · intro full
    cases full ⟨0, Nat.pos_of_neZero _⟩
  · intro other task
    by_contra different
    have absent : shellTasks other = none := if_neg different
    change shellTasks other = some 7 at task
    rw [absent] at task
    cases task

theorem tracked_are_processes_iff_shell :
    Always stepSystem TrackedAreProcesses (.start [selftestConfig 1 true] shellTasks)
        [.exec 0 7 shellExec .empty] ↔
      Guarded stepSystem NoTrackedThreads (.start [selftestConfig 1 true] shellTasks)
        [.exec 0 7 shellExec .empty] :=
  tracked_are_processes_iff _ shellTasks [.exec 0 7 shellExec .empty]
    ((guarded_cons _).mpr ⟨shellExec_legal, guarded_nil _⟩)

def shellThread : ForkContext where
  childPid := 8
  parentPid := 7
  childComm := snprintf TASK_COMM_LEN (lit "sh")
  stackId := 0

theorem shellExec_enabled :
    isEnabledConfiguredProcess shellStart.worker (getExecInfo shellExec .empty).1 = true := by
  rw [getExecInfo_shellExec]
  exact shellEvent_enabled (List.mem_singleton_self _) .exec 7 1

theorem shellThread_legal : LegalStep (stepSystem shellStart (.exec 0 7 shellExec .empty))
    (.createThread 0 shellThread) := by
  obtain ⟨log, frame⟩ := procEventExec_enabled 0 shellExec_enabled
  have worker : (stepSystem shellStart (.exec 0 7 shellExec .empty)).worker =
      procEventExec 0 (getExecInfo shellExec .empty).1 shellStart.worker :=
    handleEvent_exec rfl rfl
  have tasks : (stepSystem shellStart (.exec 0 7 shellExec .empty)).tasks =
      Function.update (Function.update shellTasks 7 none) 7 (some 7) := rfl
  refine ⟨?_, ?_, ?_, ?_⟩
  · rw [worker, frame]
    refine ⟨rfl, fun full => ?_⟩
    obtain ⟨i, other⟩ := exists_ne (SlotTable.View.slotFor trackedView
      shellStart.worker.trackedProcs (getExecInfo shellExec .empty).1.pid)
    have active := full i
    simp only [Function.update_of_ne other] at active
    cases active
  · rw [tasks]
    simp [shellThread]
  · rw [tasks]
    decide
  · intro tid task
    rw [tasks] at task
    simp only [Function.update_apply, shellThread, shellTasks] at task
    split_ifs at task
    exact absurd task (by decide)

theorem thread_tracked_as_process : ¬ ∀ (configs : List ProcessConfig)
    (tasks : UInt32 → Option UInt32) (steps : List SystemStep),
    Guarded stepSystem LegalStep (.start configs tasks) steps →
    TrackedAreProcesses (run stepSystem (.start configs tasks) steps) := by
  intro processes
  have legal : Guarded stepSystem LegalStep shellStart
      [.exec 0 7 shellExec .empty, .createThread 0 shellThread] :=
    (guarded_cons _).mpr ⟨shellExec_legal, (guarded_cons _).mpr ⟨shellThread_legal, guarded_nil _⟩⟩
  have inv := exec_inv (start_inv _ _) shellExec_legal
  have unmarked := createThread_untracked inv shellThread_legal (processes _ _ _ legal)
  have marked : (stepSystem shellStart (.exec 0 7 shellExec .empty)).markedTask 7 = true := by
    simp only [System.markedTask, stepSystem, shellExec_enabled]
    rfl
  exact Bool.false_ne_true (unmarked.symm.trans marked)

end SysDetector.Proc
