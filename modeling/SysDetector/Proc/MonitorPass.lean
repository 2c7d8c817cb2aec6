import SysDetector.Library.ListFacts
import SysDetector.Library.Ranking
import SysDetector.Proc.Alarms
import SysDetector.Proc.CheckSpacing

namespace SysDetector.Proc
open CLib ListFacts Runs

def isMonitorStep : ThreadStep → Bool
  | .monitor _ => true
  | _ => false

def stepsLeft (n : Nat) : MonitorPc → Nat
  | .sleeping => 0
  | .scanning _ i => 12 * (n - i) + 1
  | .checking _ i => 12 * (n - (i + 1)) + 12
  | .retrying _ i retryCount => 12 * (n - (i + 1)) + 2 * (MAX_RESTARTS - retryCount) + 5
  | .rechecking _ i retryCount => 12 * (n - (i + 1)) + 2 * (MAX_RESTARTS - (retryCount + 1)) + 6
  | .alarming _ i => 12 * (n - (i + 1)) + 4
  | .givingUp _ i => 12 * (n - (i + 1)) + 3
  | .stamping _ i => 12 * (n - (i + 1)) + 2

def shellsLeft (n : Nat) : MonitorPc → Nat
  | .sleeping => 0
  | .scanning _ i => 8 * (n - i)
  | .checking _ i => 8 * (n - (i + 1)) + 8
  | .retrying _ i retryCount => 8 * (n - (i + 1)) + 2 * (MAX_RESTARTS - retryCount) + 1
  | .rechecking _ i retryCount => 8 * (n - (i + 1)) + 2 * (MAX_RESTARTS - (retryCount + 1)) + 2
  | .alarming _ i => 8 * (n - (i + 1)) + 1
  | .givingUp _ i | .stamping _ i => 8 * (n - (i + 1))

inductive PassStep (n : Nat) : MonitorPc → Option Act → MonitorPc → Prop
  | wake {t : Time} : PassStep n .sleeping none (.scanning t 0)
  | rest {t : Time} {i : Nat} (behind : n ≤ i) : PassStep n (.scanning t i) none .sleeping
  | skip {t : Time} {i : Nat} (inside : i < n) :
      PassStep n (.scanning t i) none (.scanning t (i + 1))
  | begin {t : Time} {i : Nat} (inside : i < n) :
      PassStep n (.scanning t i) (some (.due i)) (.checking t i)
  | cycle {pc pc' : MonitorPc} {act : Option Act} {i : Nat} (at_ : atConfig pc = some i)
      (stays : atConfig pc' = some i) (move : MonitorMove pc act pc') : PassStep n pc act pc'
  | stamp {t : Time} {i : Nat} : PassStep n (.stamping t i) none (.scanning t (i + 1))

theorem cycle_step {n : Nat} {pc pc' : MonitorPc} {act : Option Act} {i : Nat}
    (at_ : atConfig pc = some i) (move : MonitorMove pc act pc') : PassStep n pc act pc' := by
  cases move with
  | wake | rest | skip | begin => cases at_
  | stamp => exact .stamp
  | passed => exact .cycle at_ at_ .passed
  | failed => exact .cycle at_ at_ .failed
  | recover left => exact .cycle at_ at_ (.recover left)
  | exhausted spent => exact .cycle at_ at_ (.exhausted spent)
  | repaired => exact .cycle at_ at_ .repaired
  | refailed => exact .cycle at_ at_ .refailed
  | alarm => exact .cycle at_ at_ .alarm
  | giveUp => exact .cycle at_ at_ .giveUp

theorem pass_step (env : MonitorEnv) (s : ProcState) :
    PassStep s.configs.length s.monitor (monitorAct env s) (monitorStep env s).monitor := by
  have move := monitor_move env s
  cases pc : s.monitor with
  | sleeping =>
      rw [monitorStep, monitorAct, pc]
      exact .wake
  | scanning t i =>
      cases found : s.configs[i]? with
      | none =>
          simp only [monitorStep, monitorAct, pc, found]
          exact .rest (List.getElem?_eq_none_iff.mp found)
      | some config =>
          have inside := (List.getElem?_eq_some_iff.mp found).1
          simp only [monitorStep, monitorAct, pc, found]
          split_ifs
          · exact .begin inside
          · exact .skip inside
  | _ =>
      rw [pc] at move
      exact cycle_step rfl move

theorem command_act {s : ThreadState} {input : ThreadStep} (command : ∀ env, input ≠ .monitor env) :
    ∃ act : Option Act,
      (threadStep s input).acts = s.acts ++ act.toList ∧ monitorActs act.toList = [] := by
  obtain ⟨act, done, acts⟩ := act_of_step s input
  refine ⟨act, acts, ?_⟩
  cases done with
  | monitor => exact absurd rfl (command _)
  | _ => rfl

theorem threadStep_length (s : ThreadState) (input : ThreadStep) :
    (threadStep s input).proc.configs.length = s.proc.configs.length := by
  by_cases command : ∀ env, input ≠ .monitor env
  · have periods := congrArg List.length (command_times s command).2.periods
    rwa [List.length_map, List.length_map] at periods
  · push Not at command
    obtain ⟨env, rfl⟩ := command
    exact monitorStep_length env s.proc

theorem run_length (configs : List ProcessConfig) (steps : List ThreadStep) :
    (run threadStep (.start configs) steps).proc.configs.length = configs.length :=
  run_of_step threadStep (J := fun s => s.proc.configs.length = configs.length)
    (fun s input same => (threadStep_length s input).trans same) rfl steps

/-! ## The end of a pass -/

section Steps
variable {n : Nat} {pc pc' : MonitorPc} {act : Option Act}

theorem PassStep.stepsLeft (step : PassStep n pc act pc') (awake : pc ≠ .sleeping) :
    1 + stepsLeft n pc' ≤ stepsLeft n pc := by
  cases step with
  | wake => exact absurd rfl awake
  | rest behind => exact Nat.le_add_left 1 _
  | skip inside | begin inside | stamp =>
      simp only [Proc.stepsLeft]
      omega
  | cycle at_ stays move =>
      cases move with
      | wake | rest | skip | begin | stamp => cases at_ <;> cases stays
      | _ =>
          simp only [Proc.stepsLeft, MAX_RESTARTS] at *
          omega

theorem PassStep.shellsLeft (step : PassStep n pc act pc') (awake : pc ≠ .sleeping) :
    (act.toList.filterMap shellOf).length + shellsLeft n pc' ≤ shellsLeft n pc := by
  cases step with
  | wake => exact absurd rfl awake
  | rest behind => exact Nat.zero_le _
  | skip inside | begin inside | stamp =>
      simp only [Proc.shellsLeft, Option.toList_none, Option.toList_some, List.filterMap_nil,
        List.filterMap_cons, shellOf, List.length_nil]
      omega
  | cycle at_ stays move =>
      cases move with
      | wake | rest | skip | begin | stamp => cases at_ <;> cases stays
      | _ =>
          simp only [Proc.shellsLeft, MAX_RESTARTS, Option.toList_none, Option.toList_some,
            List.filterMap_nil, List.filterMap_cons, shellOf, List.length_nil,
            List.length_cons] at *
          omega

theorem stepsLeft_le (inside : ∀ i, atConfig pc = some i → i < n) : stepsLeft n pc ≤ 12 * n + 1 := by
  cases pc with
  | sleeping => exact Nat.zero_le _
  | scanning t i =>
      simp only [Proc.stepsLeft]
      omega
  | _ =>
      have before := inside _ rfl
      simp only [Proc.stepsLeft, MAX_RESTARTS]
      omega

theorem shellsLeft_le (inside : ∀ i, atConfig pc = some i → i < n) : shellsLeft n pc ≤ 8 * n := by
  cases pc with
  | sleeping => exact Nat.zero_le _
  | scanning t i =>
      simp only [Proc.shellsLeft]
      omega
  | _ =>
      have before := inside _ rfl
      simp only [Proc.shellsLeft, MAX_RESTARTS]
      omega

end Steps

def Awake (s : ThreadState) : Prop := s.proc.monitor ≠ .sleeping

theorem threadStep_stepsLeft {s : ThreadState} (awake : Awake s) (input : ThreadStep) :
    (isMonitorStep input).toNat +
        stepsLeft (threadStep s input).proc.configs.length (threadStep s input).proc.monitor ≤
      stepsLeft s.proc.configs.length s.proc.monitor := by
  rw [threadStep_length]
  by_cases command : ∀ env, input ≠ .monitor env
  · rw [(command_times s command).1]
    cases input with
    | monitor env => exact absurd rfl (command env)
    | _ => exact (Nat.zero_add _).le
  · push Not at command
    obtain ⟨env, rfl⟩ := command
    exact (pass_step env s.proc).stepsLeft awake

theorem filterMap_shellOf {acts : List Act} (commands : monitorActs acts = []) :
    acts.filterMap shellOf = [] := by
  rw [monitorActs, List.filter_eq_nil_iff] at commands
  rw [List.filterMap_eq_nil_iff]
  intro act inside
  cases act with
  | switched i status | answered i status => rfl
  | _ => exact absurd rfl (commands _ inside)

theorem threadStep_shellsLeft {s : ThreadState} (awake : Awake s) (input : ThreadStep) :
    ((threadStep s input).acts.filterMap shellOf).length +
        shellsLeft (threadStep s input).proc.configs.length (threadStep s input).proc.monitor ≤
      (s.acts.filterMap shellOf).length + shellsLeft s.proc.configs.length s.proc.monitor := by
  rw [threadStep_length]
  by_cases command : ∀ env, input ≠ .monitor env
  · obtain ⟨act, acts, none⟩ := command_act (s := s) command
    rw [acts, (command_times s command).1, List.filterMap_append, filterMap_shellOf none,
      List.append_nil]
  · push Not at command
    obtain ⟨env, rfl⟩ := command
    have pays := (pass_step env s.proc).shellsLeft awake
    simp only [threadStep, List.filterMap_append, List.length_append]
    omega

/-- As long as it does not sleep, the monitor thread makes no more than twelve steps for each
config and one more, and runs no more than eight shell commands for each, whatever the main thread
does meanwhile. -/
theorem pass_bounded (configs : List ProcessConfig) (past steps : List ThreadStep)
    (awake : Guarded threadStep (fun s _ => Awake s) (run threadStep (.start configs) past) steps) :
    steps.countP isMonitorStep ≤ 12 * configs.length + 1 ∧
      (run threadStep (.start configs) (past ++ steps)).proc.shellRuns.length ≤
        (run threadStep (.start configs) past).proc.shellRuns.length + 8 * configs.length := by
  have before := acts_executed configs past
  have after := acts_executed configs (past ++ steps)
  have inside := before.inside
  rw [run_length] at inside
  constructor
  · have pays := total_le_rank threadStep (fun s => stepsLeft s.proc.configs.length s.proc.monitor)
      (fun _ input => (isMonitorStep input).toNat)
      (fun s input awake => threadStep_stepsLeft awake input) awake
    rw [total_count, run_length] at pays
    have most := stepsLeft_le inside
    omega
  · have pays := (always_of_guarded threadStep (J := fun s => (s.acts.filterMap shellOf).length +
        shellsLeft s.proc.configs.length s.proc.monitor ≤
          ((run threadStep (.start configs) past).acts.filterMap shellOf).length +
            shellsLeft configs.length (run threadStep (.start configs) past).proc.monitor)
      (fun s input spent awake => (threadStep_shellsLeft awake input).trans spent)
      (by rw [run_length]) awake).last
    have most := shellsLeft_le inside
    have ran := congrArg List.length before.shells
    have runs := congrArg List.length after.shells
    rw [List.length_map] at ran runs
    rw [run_append] at runs ⊢
    omega

def passSteps : List ThreadStep :=
  [.monitor ⟨100, true⟩, .event 100 (shellEvent .exec 7 1), .monitor ⟨101, true⟩,
    .monitor ⟨102, true⟩, .monitor ⟨103, true⟩]

def woken : ThreadState := run threadStep (.start [selftestConfig 7 true]) [.monitor ⟨100, true⟩]

theorem passSteps_awake : Guarded threadStep (fun s _ => Awake s) woken passSteps := by
  simp only [passSteps, guarded_cons, guarded_nil, Awake]
  decide

theorem pass_bounded_once :
    passSteps.countP isMonitorStep ≤ 12 * [selftestConfig 7 true].length + 1 ∧
      (run threadStep (.start [selftestConfig 7 true])
        ([.monitor ⟨100, true⟩] ++ passSteps)).proc.shellRuns.length ≤
          woken.proc.shellRuns.length + 8 * [selftestConfig 7 true].length :=
  pass_bounded [selftestConfig 7 true] [.monitor ⟨100, true⟩] passSteps passSteps_awake

/-! ## What a pass does -/

inductive CycleOf (i : Nat) : List Act → Prop
  | passed : CycleOf i [.due i, .checked i true]
  | repaired {n : Nat} (left : n < MAX_RESTARTS) :
      CycleOf i (failures i n ++ [.recovered i] ++ [.checked i true])
  | gaveUp : CycleOf i (failures i MAX_RESTARTS ++ [.alarmed i] ++ [.gaveUp i])

inductive Cycles : List Nat → List Act → Prop
  | nil : Cycles [] []
  | concat {indices : List Nat} {i : Nat} {acts cycle : List Act} (cycles : Cycles indices acts)
      (next : CycleOf i cycle) : Cycles (indices ++ [i]) (acts ++ cycle)

inductive Underway : MonitorPc → List Act → Prop
  | sleeping : Underway .sleeping []
  | scanning {t : Time} {i : Nat} : Underway (.scanning t i) []
  | checking {t : Time} {i : Nat} : Underway (.checking t i) [.due i]
  | retrying {t : Time} {i n : Nat} (tried : n ≤ MAX_RESTARTS) :
      Underway (.retrying t i n) (failures i n)
  | rechecking {t : Time} {i n : Nat} (left : n < MAX_RESTARTS) :
      Underway (.rechecking t i n) (failures i n ++ [.recovered i])
  | alarming {t : Time} {i : Nat} : Underway (.alarming t i) (failures i MAX_RESTARTS)
  | givingUp {t : Time} {i : Nat} :
      Underway (.givingUp t i) (failures i MAX_RESTARTS ++ [.alarmed i])
  | stamping {t : Time} {i : Nat} {cycle : List Act} (whole : CycleOf i cycle) :
      Underway (.stamping t i) cycle

def reached (n : Nat) : MonitorPc → Nat
  | .sleeping => n
  | .scanning _ i | .checking _ i | .retrying _ i _ | .rechecking _ i _ | .alarming _ i
  | .givingUp _ i | .stamping _ i => i

def Cycled (pc : MonitorPc) (indices : List Nat) (acts : List Act) : Prop :=
  ∃ done part, Cycles indices done ∧ Underway pc part ∧ acts = done ++ part

def finishing : MonitorPc → List Nat
  | .stamping _ i => [i]
  | _ => []

structure PassSoFar (n : Nat) (pc : MonitorPc) (acts : List Act) : Prop where
  inTable : reached n pc + (atConfig pc).toList.length ≤ n
  cycled : ∃ indices, indices.Sublist (List.range (reached n pc)) ∧ Cycled pc indices acts

/-- What the monitor thread did from its start: passes that are over, and the last one. -/
def PassAfterPass (n : Nat) (pc : MonitorPc) (acts : List Act) : Prop :=
  ∃ (passes : List (List Act)) (part : List Act), (∀ pass ∈ passes, PassSoFar n .sleeping pass) ∧
    PassSoFar n pc part ∧ acts = passes.flatten ++ part

section Steps
variable {n : Nat} {pc pc' : MonitorPc} {act : Option Act} {indices : List Nat} {acts : List Act}

theorem Underway.move {part : List Act} {i : Nat} (under : Underway pc part)
    (at_ : atConfig pc' = some i) (move : MonitorMove pc act pc') :
    Underway pc' (part ++ act.toList) := by
  cases move with
  | wake | rest | skip | stamp => cases at_
  | begin =>
      cases under
      exact .checking
  | passed =>
      cases under
      exact .stamping .passed
  | failed =>
      cases under
      exact .retrying (Nat.zero_le _)
  | recover left =>
      cases under
      exact .rechecking left
  | exhausted spent =>
      cases under with
      | retrying tried =>
          rw [Nat.le_antisymm tried spent]
          simpa using Underway.alarming
  | repaired =>
      cases under with
      | rechecking left => exact .stamping (.repaired left)
  | @refailed t i n =>
      cases under with
      | rechecking left =>
          have tried : Underway (.retrying t i (n + 1)) (failures i (n + 1)) := .retrying left
          simpa [failures] using tried
  | alarm =>
      cases under
      exact .givingUp
  | giveUp =>
      cases under
      exact .stamping .gaveUp

theorem reached_at {i : Nat} (at_ : atConfig pc = some i) : reached n pc = i := by
  cases pc <;> cases at_ <;> rfl

theorem finishing_of_stays {i : Nat} (stays : atConfig pc' = some i) (move : MonitorMove pc act pc') :
    finishing pc = [] := by
  cases move with
  | stamp => cases stays
  | _ => rfl

theorem MonitorMove.stays {i : Nat} (move : MonitorMove pc act pc') (at_ : atConfig pc = some i)
    (more : ∀ t j, pc ≠ .stamping t j) : atConfig pc' = some i ∧ passOf pc' = passOf pc := by
  cases move with
  | stamp => exact absurd rfl (more _ _)
  | wake | rest | skip | begin => cases at_
  | _ => exact ⟨at_, rfl⟩

theorem Cycled.step (so : Cycled pc indices acts) (step : PassStep n pc act pc')
    (awake : pc ≠ .sleeping) : Cycled pc' (indices ++ finishing pc) (acts ++ act.toList) := by
  obtain ⟨done, part, cycles, under, rfl⟩ := so
  have same : Cycles (indices ++ []) done := (List.append_nil indices).symm ▸ cycles
  rw [List.append_assoc]
  cases step with
  | wake => exact absurd rfl awake
  | rest behind =>
      cases under
      exact ⟨done, [], same, .sleeping, rfl⟩
  | skip inside =>
      cases under
      exact ⟨done, [], same, .scanning, rfl⟩
  | begin inside => exact ⟨done, _, same, under.move rfl .begin, rfl⟩
  | stamp =>
      cases under with
      | stamping whole =>
          exact ⟨done ++ part, [], cycles.concat whole, .scanning, (List.append_assoc _ _ _).symm⟩
  | cycle at_ stays move =>
      rw [finishing_of_stays stays move]
      exact ⟨done, _, same, under.move stays move, rfl⟩

theorem PassSoFar.step (so : PassSoFar n pc acts) (step : PassStep n pc act pc')
    (awake : pc ≠ .sleeping) : PassSoFar n pc' (acts ++ act.toList) := by
  obtain ⟨inTable, indices, inOrder, cycled⟩ := so
  have next := cycled.step step awake
  have grow : ∀ i, (List.range i).Sublist (List.range (i + 1)) := fun i => by
    rw [List.range_succ]
    exact List.sublist_append_left _ _
  have same : (indices ++ []).Sublist (List.range (reached n pc)) := by rwa [List.append_nil]
  cases step with
  | wake => exact absurd rfl awake
  | rest behind =>
      refine ⟨le_refl n, _, same.trans ?_, next⟩
      exact List.range_sublist.mpr inTable
  | skip inside => exact ⟨inside, _, same.trans (grow _), next⟩
  | begin inside => exact ⟨inside, _, same, next⟩
  | @stamp t i =>
      refine ⟨inTable, _, ?_, next⟩
      show (indices ++ [i]).Sublist (List.range (i + 1))
      rw [List.range_succ]
      exact inOrder.append (List.Sublist.refl [i])
  | cycle at_ stays move =>
      rw [finishing_of_stays stays move, List.append_nil] at next
      rw [at_, reached_at at_] at inTable
      refine ⟨?_, _, ?_, next⟩
      · rwa [stays, reached_at stays]
      · rwa [reached_at stays, ← reached_at at_]

theorem sleeping_nil (n : Nat) : PassSoFar n .sleeping [] :=
  ⟨le_refl n, [], List.nil_sublist _, [], [], .nil, .sleeping, rfl⟩

theorem PassAfterPass.step (so : PassAfterPass n pc acts) (step : PassStep n pc act pc') :
    PassAfterPass n pc' (acts ++ act.toList) := by
  obtain ⟨passes, part, whole, soFar, rfl⟩ := so
  by_cases awake : pc = .sleeping
  · subst awake
    cases step with
    | wake =>
        refine ⟨passes ++ [part], [], ?_, ?_, ?_⟩
        · intro pass inside
          rcases List.mem_append.mp inside with old | new
          · exact whole pass old
          · rwa [List.mem_singleton.mp new]
        · exact ⟨Nat.zero_le n, [], List.nil_sublist _, [], [], .nil, .scanning, rfl⟩
        · simp
    | cycle at_ => cases at_
  · exact ⟨passes, _, whole, soFar.step step awake, List.append_assoc _ _ _⟩

end Steps

/-- In every run, whatever the main thread does in between: what the monitor thread does is one
pass after the other, and each pass one whole cycle after the other, of configs in the order of the
table. -/
theorem monitor_passes (configs : List ProcessConfig) (steps : List ThreadStep) :
    let s := run threadStep (.start configs) steps
    PassAfterPass configs.length s.proc.monitor (monitorActs s.acts) := by
  have start : PassAfterPass configs.length .sleeping [] :=
    ⟨[], [], nofun, sleeping_nil _, rfl⟩
  refine (run_of_step threadStep (J := fun s => s.proc.configs.length = configs.length ∧
    PassAfterPass configs.length s.proc.monitor (monitorActs s.acts)) ?_ ⟨rfl, start⟩ steps).2
  rintro s input ⟨length, so⟩
  refine ⟨(threadStep_length s input).trans length, ?_⟩
  by_cases command : ∀ env, input ≠ .monitor env
  · obtain ⟨act, acts, none⟩ := command_act (s := s) command
    rw [monitorActs] at none
    rw [acts, (command_times s command).1, monitorActs, List.filter_append, none, List.append_nil]
    exact so
  · push Not at command
    obtain ⟨env, rfl⟩ := command
    have step := pass_step env s.proc
    rw [length] at step
    rw [threadStep]
    dsimp only
    rw [monitorActs_move (monitor_move env s.proc)]
    exact so.step step

/-! ## What a pass leaves -/

def LeavesConfigs (s : ThreadState) : ThreadStep → Prop
  | .main _ => ∀ i status, s.main ≠ .switching i status ∧ s.main ≠ .timing i status
  | _ => True

theorem command_configs {s : ThreadState} {input : ThreadStep}
    (command : ∀ env, input ≠ .monitor env) (leaves : LeavesConfigs s input) :
    (threadStep s input).proc.configs = s.proc.configs := by
  cases input with
  | monitor env => exact absurd rfl (command env)
  | message env message =>
      rw [threadStep]
      split_ifs
      · rcases takeMessage_cases env message s with ⟨status, i, frame⟩ | ⟨proc, frame, answers⟩
        · rw [frame]
          rfl
        · obtain ⟨log, responses, out, rfl⟩ := answers
          rw [frame]
      · rfl
  | event now e =>
      rw [threadStep]
      split_ifs
      · exact handleEvent_configs now e s.proc
      · rfl
  | main now =>
      rw [threadStep, mainStatement]
      cases main : s.main with
      | waiting => rfl
      | switching i status => exact absurd main (leaves i status).1
      | timing i status => exact absurd main (leaves i status).2
      | answering i status =>
          dsimp only
          unfold answerSwitch
          split <;> rfl
      | marking status => rfl

def dueConfigs (t : Time) (configs : List ProcessConfig) (k : Nat) : List Nat :=
  (List.range k).filter fun i => configs[i]?.any (isDue t)

def settled (t : Time) (acts : List Act) (i : Nat) (config : ProcessConfig) : ProcessConfig :=
  if isDue t config then
    { config with monitorSwitch := decide (.gaveUp i ∉ acts), lastMonitorTime := t }
  else config

def settledBelow (t : Time) (k : Nat) (acts : List Act) (i : Nat) (config : ProcessConfig) :
    ProcessConfig :=
  if isDue t config then
    { config with
      monitorSwitch := decide (.gaveUp i ∉ acts)
      lastMonitorTime := if i < k then t else config.lastMonitorTime }
  else config

structure Undergoing (t : Time) (before : List ProcessConfig) (s : ProcState) (acts : List Act) :
    Prop where
  time : ∀ t', passOf s.monitor = some t' → t' = t
  inTable : reached before.length s.monitor + (atConfig s.monitor).toList.length ≤ before.length
  cycled : Cycled s.monitor (dueConfigs t before (reached before.length s.monitor)) acts
  due : ∀ i, atConfig s.monitor = some i → before[i]?.any (isDue t) = true
  configs : s.configs = before.mapIdx (settledBelow t (reached before.length s.monitor) acts)

theorem gaveUp_notMem_failures (i j n : Nat) : .gaveUp j ∉ failures i n := by
  induction n with
  | zero => simp [failures]
  | succ n ih => simp [failures, ih]

theorem CycleOf.gaveUp_eq {i j : Nat} {cycle : List Act} (cycle_ : CycleOf i cycle)
    (inside : .gaveUp j ∈ cycle) : j = i := by
  have never := gaveUp_notMem_failures i j
  cases cycle_ with
  | passed => simp at inside
  | repaired left => simp [never] at inside
  | gaveUp => simpa [never] using inside

theorem Cycles.gaveUp_mem {indices : List Nat} {acts : List Act} (cycles : Cycles indices acts)
    {j : Nat} (inside : .gaveUp j ∈ acts) : j ∈ indices := by
  induction cycles with
  | nil => cases inside
  | concat cycles next ih =>
      rw [List.mem_append] at inside ⊢
      rcases inside with old | new
      · exact .inl (ih old)
      · exact .inr (List.mem_singleton.mpr (next.gaveUp_eq new))

theorem Cycled.gaveUp_lt {pc : MonitorPc} {t : Time} {before : List ProcessConfig} {k : Nat}
    {acts : List Act} (cycled : Cycled pc (dueConfigs t before k) acts)
    (more : ∀ t i, pc ≠ .stamping t i) {j : Nat} (inside : .gaveUp j ∈ acts) : j < k := by
  obtain ⟨done, part, cycles, under, rfl⟩ := cycled
  rcases List.mem_append.mp inside with old | new
  · have index := cycles.gaveUp_mem old
    rw [dueConfigs, List.mem_filter, List.mem_range] at index
    exact index.1
  · have never := gaveUp_notMem_failures
    cases under with
    | stamping whole => exact absurd rfl (more _ _)
    | _ => simp [never] at new

section Undergoing
variable {t : Time} {k i : Nat} {acts : List Act} {before : List ProcessConfig} {s : ProcState}

theorem settledBelow_unseen {config : ProcessConfig} (unseen : ¬ i < k) (kept : .gaveUp i ∉ acts) :
    settledBelow t k acts i config = config := by
  rw [settledBelow]
  split_ifs with due
  · rw [isDue, Bool.and_eq_true] at due
    rw [decide_eq_true kept, ← due.1]
  · rfl

theorem settledBelow_append {act : Option Act} (other : ∀ j, act ≠ some (.gaveUp j)) :
    settledBelow t k (acts ++ act.toList) = settledBelow t k acts := by
  have same : ∀ j, .gaveUp j ∈ acts ++ act.toList ↔ .gaveUp j ∈ acts := by
    intro j
    rw [List.mem_append, Option.mem_toList]
    exact or_iff_left fun new => other j new
  funext j config
  simp only [settledBelow, same]

theorem dueConfigs_succ (due : before[i]?.any (isDue t) = true) :
    dueConfigs t before (i + 1) = dueConfigs t before i ++ [i] := by
  rw [dueConfigs, List.range_succ, List.filter_append, List.filter_singleton, due]
  rfl

theorem dueConfigs_skip (early : before[i]?.any (isDue t) = false) :
    dueConfigs t before (i + 1) = dueConfigs t before i := by
  rw [dueConfigs, List.range_succ, List.filter_append, List.filter_singleton, early]
  exact List.append_nil _

theorem Undergoing.found (under : Undergoing t before s acts) {t' : Time}
    (pc : s.monitor = .scanning t' i) :
    s.configs[i]? = before[i]? := by
  have cycled := under.cycled
  rw [under.configs, List.getElem?_mapIdx]
  rw [pc] at cycled ⊢
  cases before[i]? with
  | none => rfl
  | some config =>
      have unseen : ¬ i < reached before.length (.scanning t' i) := Nat.lt_irrefl i
      exact congrArg some (settledBelow_unseen unseen fun given => unseen (cycled.gaveUp_lt nofun given))

theorem Undergoing.length (under : Undergoing t before s acts) : s.configs.length = before.length := by
  rw [under.configs, List.length_mapIdx]

theorem Undergoing.within (under : Undergoing t before s acts) {s' : ProcState} {act : Option Act}
    (at_ : atConfig s.monitor = some i) (stays : atConfig s'.monitor = some i)
    (time : passOf s'.monitor = passOf s.monitor) (move : MonitorMove s.monitor act s'.monitor)
    (configs : s'.configs = before.mapIdx (settledBelow t i (acts ++ act.toList))) :
    Undergoing t before s' (acts ++ act.toList) := by
  have next := under.cycled.step (.cycle at_ stays move) (n := before.length) (by
    rintro asleep
    rw [asleep] at at_
    cases at_)
  have inTable := under.inTable
  rw [finishing_of_stays stays move, List.append_nil] at next
  rw [at_, reached_at at_] at inTable
  refine ⟨fun t' pass => under.time t' (time ▸ pass), ?_, ?_, fun j there => ?_, ?_⟩
  · rwa [stays, reached_at stays]
  · rwa [reached_at stays, ← reached_at at_]
  · rw [stays] at there
    exact under.due j (at_.trans there)
  · rwa [reached_at stays]

theorem Undergoing.giveUp (under : Undergoing t before s acts) (env : MonitorEnv) {t' : Time}
    (pc : s.monitor = .givingUp t' i) :
    Undergoing t before (monitorStep env s) (acts ++ (monitorAct env s).toList) := by
  have act : monitorAct env s = some (.gaveUp i) := by rw [monitorAct, pc]
  have next : (monitorStep env s).monitor = .stamping t' i := by rw [monitorStep, pc]; rfl
  have configs : (monitorStep env s).configs = (disableConfig s i).configs := by
    rw [monitorStep, pc]
    rfl
  have due := under.due i (by rw [pc]; rfl)
  apply under.within (i := i) (by rw [pc]; rfl) (by rw [next]; rfl) (by rw [next, pc]; rfl)
    (monitor_move env s)
  rw [configs, disableConfig, act]
  dsimp only
  rw [under.configs, reached_at (i := i) (by rw [pc]; rfl)]
  apply modify_mapIdx
  · intro config found
    rw [found, Option.any_some] at due
    simp [settledBelow, due]
  · intro j config other
    simp [settledBelow, other]

theorem Undergoing.stamp (under : Undergoing t before s acts) (env : MonitorEnv) {t' : Time}
    (pc : s.monitor = .stamping t' i) :
    Undergoing t before (monitorStep env s) (acts ++ (monitorAct env s).toList) := by
  have act : monitorAct env s = none := by rw [monitorAct, pc]
  have next : (monitorStep env s).monitor = .scanning t' (i + 1) := by rw [monitorStep, pc]; rfl
  have configs : (monitorStep env s).configs = (stampConfig s i t').configs := by
    rw [monitorStep, pc]
    rfl
  obtain ⟨time, inTable, cycled, due, table⟩ := under
  have read : t' = t := time t' (by rw [pc]; rfl)
  have here := due i (by rw [pc]; rfl)
  rw [act, Option.toList_none, List.append_nil]
  rw [pc] at cycled inTable table
  have more := cycled.step (PassStep.stamp (n := before.length)) (by simp)
  refine ⟨?_, ?_, ?_, ?_, ?_⟩
  · rw [next]
    rintro t'' ⟨⟩
    exact read
  · rwa [next]
  · rw [next]
    show Cycled _ (dueConfigs t before (i + 1)) acts
    rw [dueConfigs_succ here]
    exact (List.append_nil acts) ▸ more
  · rw [next]
    intro j there
    cases there
  · rw [next, configs, stampConfig]
    dsimp only
    rw [table]
    apply modify_mapIdx
    · intro config found
      rw [found, Option.any_some] at here
      simp [settledBelow, here, reached, read]
    · intro j config other
      have below : (if j < i + 1 then t else config.lastMonitorTime) =
          if j < i then t else config.lastMonitorTime := if_congr (by omega) rfl rfl
      show settledBelow t i acts j config = settledBelow t (i + 1) acts j config
      rw [settledBelow, settledBelow, below]

theorem settledBelow_skip (early : before[i]?.any (isDue t) = false) :
    before.mapIdx (settledBelow t i acts) = before.mapIdx (settledBelow t (i + 1) acts) := by
  apply List.ext_getElem?
  intro j
  rw [List.getElem?_mapIdx, List.getElem?_mapIdx]
  cases found : before[j]? with
  | none => rfl
  | some config =>
      by_cases here : j = i
      · subst here
        rw [found, Option.any_some] at early
        simp [settledBelow, early]
      · have below : (if j < i + 1 then t else config.lastMonitorTime) =
            if j < i then t else config.lastMonitorTime := if_congr (by omega) rfl rfl
        simp only [Option.map_some, settledBelow, below]

theorem Undergoing.scan (under : Undergoing t before s acts) (env : MonitorEnv) {t' : Time}
    (pc : s.monitor = .scanning t' i) :
    Undergoing t before (monitorStep env s) (acts ++ (monitorAct env s).toList) := by
  have found := under.found pc
  have step := pass_step env s
  rw [under.length] at step
  have next := under.cycled.step step (by simp [pc])
  have configs : (monitorStep env s).configs = s.configs := by
    obtain ⟨pc', log, runs, frame⟩ := monitorStep_frame env s
    rw [frame]
    simp only [monitorConfigs, pc]
  obtain ⟨time, inTable, -, -, table⟩ := under
  have read : t' = t := time t' (by rw [pc]; rfl)
  subst read
  rw [pc] at inTable table next
  cases here : before[i]? with
  | none =>
      rw [here] at found
      have act : monitorAct env s = none := by simp only [monitorAct, pc, found]
      have asleep : (monitorStep env s).monitor = .sleeping := by
        simp only [monitorStep, pc, found]
        rfl
      have whole : before.length = i :=
        le_antisymm (List.getElem?_eq_none_iff.mp here) inTable
      rw [act, Option.toList_none, List.append_nil] at next ⊢
      refine ⟨?_, ?_, ?_, ?_, ?_⟩
      · rw [asleep]
        intro t'' pass
        cases pass
      · rw [asleep]
        exact le_refl _
      · rw [asleep] at next ⊢
        simpa [finishing, reached, whole] using next
      · rw [asleep]
        intro j there
        cases there
      · rw [asleep, configs, table]
        simp only [reached, whole]
  | some config =>
      rw [here] at found
      have inside := (List.getElem?_eq_some_iff.mp here).1
      cases due : isDue t' config with
      | true =>
          have isDue_ : before[i]?.any (isDue t') = true := by rw [here, Option.any_some, due]
          have act : monitorAct env s = some (.due i) := by simp [monitorAct, pc, found, due]
          have checking : (monitorStep env s).monitor = .checking t' i := by
            simp only [monitorStep, pc, found, due]
            rfl
          refine ⟨?_, ?_, ?_, ?_, ?_⟩
          · rw [checking]
            rintro t'' ⟨⟩
            rfl
          · rw [checking]
            exact inside
          · rw [checking] at next ⊢
            simpa [finishing, reached] using next
          · rw [checking]
            rintro j ⟨⟩
            exact isDue_
          · rw [checking, configs, table, act, settledBelow_append (by simp)]
            rfl
      | false =>
          have early : before[i]?.any (isDue t') = false := by rw [here, Option.any_some, due]
          have act : monitorAct env s = none := by simp [monitorAct, pc, found, due]
          have scanning : (monitorStep env s).monitor = .scanning t' (i + 1) := by
            simp only [monitorStep, pc, found, due]
            rfl
          rw [act, Option.toList_none, List.append_nil] at next ⊢
          refine ⟨?_, ?_, ?_, ?_, ?_⟩
          · rw [scanning]
            rintro t'' ⟨⟩
            rfl
          · rw [scanning]
            exact inside
          · rw [scanning] at next ⊢
            show Cycled _ (dueConfigs t' before (i + 1)) acts
            rw [dueConfigs_skip early]
            simpa [finishing, reached] using next
          · rw [scanning]
            intro j there
            cases there
          · rw [scanning, configs, table]
            exact settledBelow_skip early

theorem Undergoing.step (under : Undergoing t before s acts) (env : MonitorEnv)
    (awake : s.monitor ≠ .sleeping) :
    Undergoing t before (monitorStep env s) (acts ++ (monitorAct env s).toList) := by
  have move := monitor_move env s
  have configs : (monitorStep env s).configs = monitorConfigs s := by
    obtain ⟨pc', log, runs, frame⟩ := monitorStep_frame env s
    rw [frame]
  cases pc : s.monitor with
  | sleeping => exact absurd pc awake
  | scanning t' i => exact under.scan env pc
  | givingUp t' i => exact under.giveUp env pc
  | stamping t' i => exact under.stamp env pc
  | checking t' i | retrying t' i n | rechecking t' i n | alarming t' i =>
      have other : ∀ j, monitorAct env s ≠ some (.gaveUp j) := by
        intro j gave
        rw [gave] at move
        obtain ⟨t'', at_, -⟩ := move.gaveUp
        rw [pc] at at_
        cases at_
      have at_ : atConfig s.monitor = some i := by rw [pc]; rfl
      obtain ⟨stays, time⟩ := move.stays at_ (by simp [pc])
      apply under.within at_ stays time move
      simp only [monitorConfigs, pc] at configs
      rw [configs, under.configs, reached_at at_, settledBelow_append other]

end Undergoing

theorem undergoing_start {s : ProcState} {t : Time} (woken : s.monitor = .scanning t 0) :
    Undergoing t s.configs s [] := by
  refine ⟨?_, ?_, ?_, ?_, ?_⟩
  · rw [woken]
    rintro t' ⟨⟩
    rfl
  · rw [woken]
    exact Nat.zero_le _
  · rw [woken]
    exact ⟨[], [], .nil, .scanning, rfl⟩
  · rw [woken]
    exact nofun
  · rw [woken]
    apply List.ext_getElem?
    intro i
    rw [List.getElem?_mapIdx]
    cases s.configs[i]? with
    | none => rfl
    | some config => exact congrArg some (settledBelow_unseen (Nat.not_lt_zero i) List.not_mem_nil).symm

def PassFrom (t : Time) (s s' : ThreadState) : Prop :=
  ∃ acts, s'.acts = s.acts ++ acts ∧ Undergoing t s.proc.configs s'.proc (monitorActs acts)

theorem PassFrom.step {t : Time} {s s' : ThreadState} {input : ThreadStep} (so : PassFrom t s s')
    (awake : Awake s') (leaves : LeavesConfigs s' input) : PassFrom t s (threadStep s' input) := by
  obtain ⟨acts, recorded, under⟩ := so
  by_cases command : ∀ env, input ≠ .monitor env
  · obtain ⟨act, more, none⟩ := command_act (s := s') command
    refine ⟨acts ++ act.toList, by rw [more, recorded, List.append_assoc], ?_⟩
    have same : monitorActs (acts ++ act.toList) = monitorActs acts := by
      rw [monitorActs, List.filter_append, ← monitorActs, ← monitorActs, none, List.append_nil]
    have monitor := (command_times s' command).1
    have configs := command_configs command leaves
    obtain ⟨time, inTable, cycled, due, table⟩ := under
    rw [same]
    rw [← monitor] at time inTable cycled due table
    exact ⟨time, inTable, cycled, due, configs.trans table⟩
  · push Not at command
    obtain ⟨env, rfl⟩ := command
    refine ⟨acts ++ (monitorAct env s'.proc).toList, ?_, ?_⟩
    · rw [threadStep, ← List.append_assoc, ← recorded]
    · rw [monitorActs_move (monitor_move env s'.proc)]
      exact under.step env awake

/-- A pass during which the main thread writes to no config makes one cycle of each config that was
due when it woke, and leaves just these changed: with the time of the pass, and off if they were
given up. -/
theorem pass_outcome (s : ThreadState) (t : Time) (steps : List ThreadStep)
    (woken : s.proc.monitor = .scanning t 0)
    (awake : Guarded threadStep (fun s _ => Awake s) s steps)
    (leaves : Guarded threadStep LeavesConfigs s steps)
    (asleep : (run threadStep s steps).proc.monitor = .sleeping) :
    ∃ acts, (run threadStep s steps).acts = s.acts ++ acts ∧
      Cycles (dueConfigs t s.proc.configs s.proc.configs.length) (monitorActs acts) ∧
      (run threadStep s steps).proc.configs = s.proc.configs.mapIdx (settled t acts) := by
  have guard : Guarded threadStep (fun s input => Awake s ∧ LeavesConfigs s input) s steps :=
    fun past input rest split => ⟨awake past input rest split, leaves past input rest split⟩
  have start : PassFrom t s s := ⟨[], (List.append_nil _).symm, undergoing_start woken⟩
  obtain ⟨acts, recorded, under⟩ := (always_of_guarded threadStep
    (fun s' input so guard => so.step guard.1 guard.2) start guard).last
  have table := under.configs
  obtain ⟨done, part, cycles, idle, split⟩ := under.cycled
  rw [asleep] at table cycles idle
  cases idle
  rw [List.append_nil] at split
  refine ⟨acts, recorded, split ▸ cycles, ?_⟩
  rw [table]
  apply List.ext_getElem?
  intro i
  rw [List.getElem?_mapIdx, List.getElem?_mapIdx]
  cases found : s.proc.configs[i]? with
  | none => rfl
  | some config =>
      have inside := (List.getElem?_eq_some_iff.mp found).1
      have same : .gaveUp i ∈ monitorActs acts ↔ .gaveUp i ∈ acts := by simp [monitorActs, isMonitorAct]
      simp only [Option.map_some, settledBelow, settled, same, reached, if_pos inside]

theorem passSteps_leave : Guarded threadStep LeavesConfigs woken passSteps := by
  simp only [passSteps, guarded_cons, guarded_nil, LeavesConfigs, and_true]

theorem pass_outcome_once :
    ∃ acts, (run threadStep woken passSteps).acts = woken.acts ++ acts ∧
      Cycles (dueConfigs 100 woken.proc.configs woken.proc.configs.length) (monitorActs acts) ∧
      (run threadStep woken passSteps).proc.configs = woken.proc.configs.mapIdx (settled 100 acts) :=
  pass_outcome woken 100 passSteps rfl passSteps_awake passSteps_leave (by decide)

end SysDetector.Proc
