import Mathlib.Data.List.Chain
import SysDetector.Proc.Statements

namespace SysDetector.Proc
open CLib Runs

structure Check where
  index : Nat
  pass : Time
  start : Time
deriving DecidableEq

def Check.late (c : Check) : Time := c.start - c.pass

structure CheckHistory where
  threads : ThreadState
  checks : List Check
  clock : Time

def ThreadStep.now : ThreadStep → Time
  | .message env _ => env.now
  | .main now => now
  | .event now _ => now
  | .monitor env => env.now

def startedCheck (s : ProcState) : ThreadStep → Option Check
  | .monitor env =>
      match s.monitor with
      | .checking pass i => some ⟨i, pass, env.now⟩
      | _ => none
  | _ => none

def stepChecks (h : CheckHistory) (input : ThreadStep) : CheckHistory where
  threads := threadStep h.threads input
  checks := h.checks ++ (startedCheck h.threads.proc input).toList
  clock := input.now

def CheckHistory.start (configs : List ProcessConfig) (t : Time) : CheckHistory where
  threads := .start configs
  checks := []
  clock := t

def Clocked (t : Time) (steps : List ThreadStep) : Prop :=
  (t :: steps.map ThreadStep.now).IsChain (· ≤ ·)

instance (t : Time) (steps : List ThreadStep) : Decidable (Clocked t steps) :=
  inferInstanceAs (Decidable (List.IsChain _ _))

def checksOf (i : Nat) (checks : List Check) : List Check := checks.filter fun c => c.index = i

def period (configs : List ProcessConfig) (i : Nat) : Int :=
  (configs[i]?.map fun config => config.monitorPeriod.toInt).getD 0

def Chained (R : Nat → Check → Check → Prop) (checks : List Check) : Prop :=
  ∀ i, (checksOf i checks).IsChain (R i)

def PassesSpaced (configs : List ProcessConfig) (h : CheckHistory) : Prop :=
  Chained (fun i c d => c.pass + period configs i ≤ d.pass) h.checks

def ChecksSpaced (configs : List ProcessConfig) (h : CheckHistory) : Prop :=
  Chained (fun i c d => c.start + period configs i ≤ d.start) h.checks

/-- A config is checked no earlier in a pass than it was in the pass before. -/
def NoEarlier (h : CheckHistory) (input : ThreadStep) : Prop :=
  ∀ d, startedCheck h.threads.proc input = some d →
    ∀ c ∈ (checksOf d.index h.checks).getLast?, c.late ≤ d.late

instance (h : CheckHistory) (input : ThreadStep) : Decidable (NoEarlier h input) :=
  inferInstanceAs (Decidable (∀ d ∈ startedCheck h.threads.proc input,
    ∀ c ∈ (checksOf d.index h.checks).getLast?, c.late ≤ d.late))

theorem checksOf_own (checks : List Check) (d : Check) :
    checksOf d.index (checks ++ [d]) = checksOf d.index checks ++ [d] := by
  simp [checksOf]

theorem checksOf_other {i : Nat} {d : Check} (other : d.index ≠ i) (checks : List Check) :
    checksOf i (checks ++ [d]) = checksOf i checks := by
  simp [checksOf, other]

theorem chained_append {R : Nat → Check → Check → Prop} {checks : List Check} {d : Check} :
    Chained R (checks ++ [d]) ↔
      Chained R checks ∧ ∀ c ∈ (checksOf d.index checks).getLast?, R d.index c d := by
  constructor
  · intro chained
    have last := chained d.index
    rw [checksOf_own, List.isChain_append] at last
    refine ⟨fun i => ?_, fun c isLast => last.2.2 c isLast d (by simp)⟩
    by_cases here : d.index = i
    · subst here
      exact last.1
    · rw [← checksOf_other here checks]
      exact chained i
  · rintro ⟨chained, last⟩ i
    by_cases here : d.index = i
    · subst here
      rw [checksOf_own, List.isChain_append]
      refine ⟨chained d.index, List.isChain_singleton d, fun c isLast e isNext => ?_⟩
      obtain rfl : d = e := by simpa using isNext
      exact last c isLast
    · rw [checksOf_other here]
      exact chained i

theorem startedCheck_eq_some {s : ProcState} {input : ThreadStep} {d : Check} :
    startedCheck s input = some d ↔
      ∃ env, input = .monitor env ∧ s.monitor = .checking d.pass d.index ∧ d.start = env.now := by
  obtain ⟨i, pass, start⟩ := d
  cases input with
  | monitor env =>
      cases pc : s.monitor <;> simp [startedCheck, pc, eq_comm]
      rw [and_assoc]
      exact and_left_comm
  | _ => simp [startedCheck]

/-! ## What a step does -/

def passOf : MonitorPc → Option Time
  | .sleeping => none
  | .scanning t _ | .checking t _ | .retrying t _ _ | .rechecking t _ _ | .alarming t _
  | .givingUp t _ | .stamping t _ => some t

def unstamped : MonitorPc → Option (Time × Nat)
  | .retrying t i _ | .rechecking t i _ | .alarming t i | .givingUp t i | .stamping t i => some (t, i)
  | _ => none

theorem passOf_of_unstamped {pc : MonitorPc} {t : Time} {i : Nat}
    (pending : unstamped pc = some (t, i)) : passOf pc = some t := by
  cases pc <;> cases pending <;> rfl

theorem not_checking_of_unstamped {pc : MonitorPc} {pass : Time × Nat}
    (pending : unstamped pc = some pass) (t : Time) (i : Nat) : pc ≠ .checking t i := by
  rintro rfl
  cases pending

structure TimesKept (now : Time) (configs configs' : List ProcessConfig) : Prop where
  periods : configs'.map ProcessConfig.monitorPeriod = configs.map ProcessConfig.monitorPeriod
  times : ∀ (i : Nat) (config' : ProcessConfig), configs'[i]? = some config' →
    (∃ config, configs[i]? = some config ∧ config'.lastMonitorTime = config.lastMonitorTime) ∨
      now ≤ config'.lastMonitorTime

theorem timesKept_refl (now : Time) (configs : List ProcessConfig) : TimesKept now configs configs where
  periods := rfl
  times := fun _ config' found => .inl ⟨config', found, rfl⟩

theorem periods_modify (configs : List ProcessConfig) (i : Nat) {f : ProcessConfig → ProcessConfig}
    (period : ∀ config, (f config).monitorPeriod = config.monitorPeriod) :
    (configs.modify i f).map ProcessConfig.monitorPeriod =
      configs.map ProcessConfig.monitorPeriod := by
  apply List.ext_getElem?
  intro j
  rw [List.getElem?_map, List.getElem?_map, List.getElem?_modify]
  cases configs[j]? with
  | none => rfl
  | some config =>
      simp only [Option.map_eq_map, Option.map_some]
      split_ifs
      · rw [period]
      · rfl

theorem timesKept_modify {now : Time} (configs : List ProcessConfig) (i : Nat)
    {f : ProcessConfig → ProcessConfig}
    (period : ∀ config, (f config).monitorPeriod = config.monitorPeriod)
    (time : ∀ config, (f config).lastMonitorTime = config.lastMonitorTime ∨
      now ≤ (f config).lastMonitorTime) : TimesKept now configs (configs.modify i f) where
  periods := periods_modify configs i period
  times := by
    intro j config' found
    rw [List.getElem?_modify, Option.map_eq_map, Option.map_eq_some_iff] at found
    obtain ⟨config, isOld, rfl⟩ := found
    split_ifs
    · rcases time config with same | later
      · exact .inl ⟨config, isOld, same⟩
      · exact .inr later
    · exact .inl ⟨config, isOld, rfl⟩

theorem command_times (s : ThreadState) {input : ThreadStep} (command : ∀ env, input ≠ .monitor env) :
    (threadStep s input).proc.monitor = s.proc.monitor ∧
      TimesKept input.now s.proc.configs (threadStep s input).proc.configs := by
  cases input with
  | monitor env => exact absurd rfl (command env)
  | message env message =>
      rw [threadStep]
      split_ifs
      · rcases takeMessage_cases env message s with ⟨status, i, frame⟩ | ⟨proc, frame, answers⟩
        · rw [frame]
          exact ⟨rfl, timesKept_refl _ _⟩
        · obtain ⟨log, responses, out, rfl⟩ := answers
          rw [frame]
          exact ⟨rfl, timesKept_refl _ _⟩
      · exact ⟨rfl, timesKept_refl _ _⟩
  | event now e =>
      rw [threadStep]
      split_ifs
      · obtain ⟨tracked, counters, log, frame⟩ := handleEvent_frame now e s.proc
        rw [frame]
        exact ⟨rfl, timesKept_refl _ _⟩
      · exact ⟨rfl, timesKept_refl _ _⟩
  | main now =>
      rw [threadStep, mainStatement]
      cases s.main with
      | waiting => exact ⟨rfl, timesKept_refl _ _⟩
      | switching i status =>
          exact ⟨rfl, timesKept_modify _ i (fun _ => rfl) fun _ => .inl rfl⟩
      | timing i status =>
          exact ⟨rfl, timesKept_modify _ i (fun _ => rfl) fun _ => .inr (le_refl now)⟩
      | answering i status =>
          dsimp only
          unfold answerSwitch
          split <;> exact ⟨rfl, timesKept_refl _ _⟩
      | marking status => exact ⟨rfl, timesKept_refl _ _⟩

inductive PassMove (env : MonitorEnv) (s s' : ProcState) : Prop
  | wake (pc : s.monitor = .sleeping) (next : s'.monitor = .scanning env.now 0)
      (configs : s'.configs = s.configs)
  | rest {t : Time} {i : Nat} (pc : s.monitor = .scanning t i) (next : s'.monitor = .sleeping)
      (configs : s'.configs = s.configs)
  | skip {t : Time} {i : Nat} (pc : s.monitor = .scanning t i)
      (next : s'.monitor = .scanning t (i + 1)) (configs : s'.configs = s.configs)
  | begin {t : Time} {i : Nat} {config : ProcessConfig} (pc : s.monitor = .scanning t i)
      (next : s'.monitor = .checking t i) (configs : s'.configs = s.configs)
      (found : s.configs[i]? = some config) (due : isDue t config = true)
  | check {t : Time} {i : Nat} (pc : s.monitor = .checking t i)
      (next : unstamped s'.monitor = some (t, i)) (configs : s'.configs = s.configs)
  | cycle {t : Time} {i : Nat} (pc : unstamped s.monitor = some (t, i))
      (next : unstamped s'.monitor = some (t, i))
      (configs : TimesKept env.now s.configs s'.configs)
  | stamp {t : Time} {i : Nat} (pc : s.monitor = .stamping t i)
      (next : s'.monitor = .scanning t (i + 1)) (configs : s'.configs = (stampConfig s i t).configs)

theorem unstamped_checked {t : Time} {i : Nat} {act : Option Act} {pc' : MonitorPc}
    (move : MonitorMove (.checking t i) act pc') : unstamped pc' = some (t, i) := by
  cases move <;> rfl

theorem unstamped_move {pc pc' : MonitorPc} {act : Option Act} {pass : Time × Nat}
    (move : MonitorMove pc act pc') (pending : unstamped pc = some pass)
    (more : ∀ t i, pc ≠ .stamping t i) : unstamped pc' = some pass := by
  cases move with
  | stamp => exact absurd rfl (more _ _)
  | wake | rest | skip | begin | passed | failed => cases pending
  | _ => exact pending

theorem pass_move (env : MonitorEnv) (s : ProcState) : PassMove env s (monitorStep env s) := by
  obtain ⟨pc', log, runs, frame⟩ := monitorStep_frame env s
  have configs : (monitorStep env s).configs = monitorConfigs s := congrArg ProcState.configs frame
  have move := monitor_move env s
  cases pc : s.monitor with
  | sleeping =>
      simp only [monitorConfigs, pc] at configs
      apply PassMove.wake pc _ configs
      rw [monitorStep, pc]
      rfl
  | scanning t i =>
      simp only [monitorConfigs, pc] at configs
      cases found : s.configs[i]? with
      | none =>
          apply PassMove.rest pc _ configs
          simp only [monitorStep, pc, found]
          rfl
      | some config =>
          cases due : isDue t config with
          | false =>
              apply PassMove.skip pc _ configs
              simp only [monitorStep, pc, found, due]
              rfl
          | true =>
              apply PassMove.begin pc _ configs found due
              simp only [monitorStep, pc, found, due]
              rfl
  | checking t i =>
      simp only [monitorConfigs, pc] at configs
      rw [pc] at move
      exact .check pc (unstamped_checked move) configs
  | stamping t i =>
      simp only [monitorConfigs, pc] at configs
      apply PassMove.stamp pc _ configs
      rw [monitorStep, pc]
      rfl
  | givingUp t i =>
      simp only [monitorConfigs, pc] at configs
      rw [pc] at move
      apply PassMove.cycle (congrArg unstamped pc) (unstamped_move move rfl (by simp))
      rw [configs]
      exact timesKept_modify _ i (fun _ => rfl) fun _ => .inl rfl
  | retrying t i n | rechecking t i n | alarming t i =>
      simp only [monitorConfigs, pc] at configs
      rw [pc] at move
      apply PassMove.cycle (congrArg unstamped pc) (unstamped_move move rfl (by simp))
      rw [configs]
      exact timesKept_refl _ _

/-! ## The invariant -/

structure Timely (configs : List ProcessConfig) (h : CheckHistory) : Prop where
  periods : h.threads.proc.configs.map ProcessConfig.monitorPeriod =
    configs.map ProcessConfig.monitorPeriod
  past : ∀ c ∈ h.checks, c.pass ≤ h.clock
  passing : ∀ t, passOf h.threads.proc.monitor = some t →
    t ≤ h.clock ∧ ∀ c ∈ h.checks, c.pass ≤ t
  stamped : ∀ i, ∀ c ∈ (checksOf i h.checks).getLast?,
    unstamped h.threads.proc.monitor = some (c.pass, i) ∨
      ∀ config, h.threads.proc.configs[i]? = some config → c.pass ≤ config.lastMonitorTime
  due : ∀ t i, h.threads.proc.monitor = .checking t i →
    ∀ c ∈ (checksOf i h.checks).getLast?, c.pass + period configs i ≤ t
  spaced : PassesSpaced configs h

theorem period_eq {configs configs' : List ProcessConfig} {i : Nat} {config : ProcessConfig}
    (periods : configs'.map ProcessConfig.monitorPeriod = configs.map ProcessConfig.monitorPeriod)
    (found : configs'[i]? = some config) : period configs i = config.monitorPeriod.toInt := by
  have same : (configs'.map ProcessConfig.monitorPeriod)[i]? =
      (configs.map ProcessConfig.monitorPeriod)[i]? := by rw [periods]
  rw [List.getElem?_map, List.getElem?_map, found] at same
  cases own : configs[i]? with
  | none => simp [own] at same
  | some config' =>
      have equal : config.monitorPeriod = config'.monitorPeriod := by simpa [own] using same
      simp [period, own, equal]

theorem mem_of_last {i : Nat} {checks : List Check} {c : Check}
    (last : c ∈ (checksOf i checks).getLast?) : c ∈ checks :=
  List.mem_of_mem_filter (List.mem_of_getLast? last)

theorem start_timely (configs : List ProcessConfig) (t : Time) :
    Timely configs (.start configs t) where
  periods := rfl
  past := by simp [CheckHistory.start]
  passing := by
    intro t' pass
    cases pass
  stamped := by simp [CheckHistory.start, checksOf]
  due := by
    intro t' i checking
    cases checking
  spaced := by simp [PassesSpaced, Chained, CheckHistory.start, checksOf]

theorem Timely.unchecked {configs : List ProcessConfig} {h h' : CheckHistory}
    (timely : Timely configs h) (checks : h'.checks = h.checks) (clock : h.clock ≤ h'.clock)
    (kept : TimesKept h'.clock h.threads.proc.configs h'.threads.proc.configs)
    (pass : ∀ t, passOf h'.threads.proc.monitor = some t →
      passOf h.threads.proc.monitor = some t ∨ t = h'.clock)
    (pending : ∀ pass, unstamped h.threads.proc.monitor = some pass →
      unstamped h'.threads.proc.monitor = some pass)
    (due : ∀ t i, h'.threads.proc.monitor = .checking t i →
      ∀ c ∈ (checksOf i h.checks).getLast?, c.pass + period configs i ≤ t) :
    Timely configs h' where
  periods := kept.periods.trans timely.periods
  past := by
    rw [checks]
    exact fun c inside => (timely.past c inside).trans clock
  passing := by
    intro t at_
    rw [checks]
    rcases pass t at_ with same | rfl
    · obtain ⟨read, earlier⟩ := timely.passing t same
      exact ⟨read.trans clock, earlier⟩
    · exact ⟨le_refl _, fun c inside => (timely.past c inside).trans clock⟩
  stamped := by
    intro i c last
    rw [checks] at last
    rcases timely.stamped i c last with waits | done
    · exact .inl (pending _ waits)
    · right
      intro config' found
      rcases kept.times i config' found with ⟨config, old, same⟩ | fresh
      · rw [same]
        exact done config old
      · exact ((timely.past c (mem_of_last last)).trans clock).trans fresh
  due := by
    rw [checks]
    exact due
  spaced := by
    rw [PassesSpaced, checks]
    exact timely.spaced

theorem Timely.checked {configs : List ProcessConfig} {h h' : CheckHistory}
    (timely : Timely configs h) {t : Time} {i : Nat} (pc : h.threads.proc.monitor = .checking t i)
    (checks : h'.checks = h.checks ++ [⟨i, t, h'.clock⟩]) (clock : h.clock ≤ h'.clock)
    (next : unstamped h'.threads.proc.monitor = some (t, i))
    (kept : h'.threads.proc.configs = h.threads.proc.configs) : Timely configs h' where
  periods := by
    rw [kept]
    exact timely.periods
  past := by
    rw [checks]
    intro c inside
    rcases List.mem_append.mp inside with old | new
    · exact (timely.past c old).trans clock
    · rw [List.mem_singleton.mp new]
      exact (timely.passing t (by rw [pc]; rfl)).1.trans clock
  passing := by
    intro t' at_
    rw [passOf_of_unstamped next] at at_
    obtain ⟨read, earlier⟩ := timely.passing t (by rw [pc]; rfl)
    cases at_
    refine ⟨read.trans clock, ?_⟩
    rw [checks]
    intro c inside
    rcases List.mem_append.mp inside with old | new
    · exact earlier c old
    · rw [List.mem_singleton.mp new]
  stamped := by
    intro j c last
    rw [checks] at last
    by_cases here : i = j
    · subst here
      rw [checksOf_own h.checks ⟨i, t, h'.clock⟩, List.getLast?_concat] at last
      cases last
      exact .inl next
    · rw [checksOf_other (d := ⟨i, t, h'.clock⟩) here] at last
      rw [kept]
      rcases timely.stamped j c last with waits | done
      · rw [pc] at waits
        cases waits
      · exact .inr done
  due := fun t' j checking => absurd checking (not_checking_of_unstamped next t' j)
  spaced := by
    rw [PassesSpaced, checks, chained_append]
    exact ⟨timely.spaced, timely.due t i pc⟩

theorem Timely.stamp {configs : List ProcessConfig} {h h' : CheckHistory}
    (timely : Timely configs h) {t : Time} {i : Nat} (pc : h.threads.proc.monitor = .stamping t i)
    (checks : h'.checks = h.checks) (clock : h.clock ≤ h'.clock)
    (next : h'.threads.proc.monitor = .scanning t (i + 1))
    (stamped : h'.threads.proc.configs = (stampConfig h.threads.proc i t).configs) :
    Timely configs h' where
  periods := by
    rw [stamped, stampConfig, periods_modify]
    · exact timely.periods
    · exact fun _ => rfl
  past := by
    rw [checks]
    exact fun c inside => (timely.past c inside).trans clock
  passing := by
    intro t' at_
    rw [next] at at_
    cases at_
    obtain ⟨read, earlier⟩ := timely.passing t (by rw [pc]; rfl)
    rw [checks]
    exact ⟨read.trans clock, earlier⟩
  stamped := by
    intro j c last
    right
    intro config' found
    rw [checks] at last
    rw [stamped, stampConfig, List.getElem?_modify, Option.map_eq_map,
      Option.map_eq_some_iff] at found
    obtain ⟨config, old, rfl⟩ := found
    split_ifs with here
    · exact (timely.passing t (by rw [pc]; rfl)).2 c (mem_of_last last)
    · rcases timely.stamped j c last with waits | done
      · rw [pc] at waits
        cases waits
        exact absurd rfl here
      · exact done config old
  due := by
    intro t' j checking
    rw [next] at checking
    cases checking
  spaced := by
    rw [PassesSpaced, checks]
    exact timely.spaced

theorem checks_kept {h : CheckHistory} {input : ThreadStep}
    (none : startedCheck h.threads.proc input = none) : (stepChecks h input).checks = h.checks := by
  simp [stepChecks, none]

theorem startedCheck_eq_none {s : ProcState} {env : MonitorEnv}
    (other : ∀ t i, s.monitor ≠ .checking t i) : startedCheck s (.monitor env) = none := by
  cases pc : s.monitor with
  | checking t i => exact absurd pc (other t i)
  | _ => simp [startedCheck, pc]

theorem Timely.command {configs : List ProcessConfig} {h : CheckHistory} {input : ThreadStep}
    (timely : Timely configs h) (clock : h.clock ≤ input.now)
    (command : ∀ env, input ≠ .monitor env) : Timely configs (stepChecks h input) := by
  obtain ⟨monitor, kept⟩ := command_times h.threads command
  have same : (stepChecks h input).threads.proc.monitor = h.threads.proc.monitor := monitor
  have unstarted : startedCheck h.threads.proc input = none := by
    cases input with
    | monitor env => exact absurd rfl (command env)
    | _ => rfl
  apply timely.unchecked (checks_kept unstarted) clock kept
  · rw [same]
    exact fun t at_ => .inl at_
  · rw [same]
    exact fun pass at_ => at_
  · rw [same]
    exact timely.due

theorem Timely.scanned {configs : List ProcessConfig} {h : CheckHistory} {env : MonitorEnv}
    (timely : Timely configs h) (clock : h.clock ≤ env.now)
    (idle : unstamped h.threads.proc.monitor = none)
    (other : ∀ t i, h.threads.proc.monitor ≠ .checking t i)
    (same : (monitorStep env h.threads.proc).configs = h.threads.proc.configs)
    (pass : ∀ t, passOf (monitorStep env h.threads.proc).monitor = some t →
      passOf h.threads.proc.monitor = some t ∨ t = env.now)
    (due : ∀ t i, (monitorStep env h.threads.proc).monitor = .checking t i →
      ∀ c ∈ (checksOf i h.checks).getLast?, c.pass + period configs i ≤ t) :
    Timely configs (stepChecks h (.monitor env)) := by
  have kept : TimesKept env.now h.threads.proc.configs (monitorStep env h.threads.proc).configs := by
    rw [same]
    exact timesKept_refl _ _
  apply timely.unchecked (checks_kept (startedCheck_eq_none other)) clock kept pass _ due
  intro pending waits
  rw [idle] at waits
  cases waits

theorem Timely.due_of_isDue {configs : List ProcessConfig} {h : CheckHistory} {t : Time} {i : Nat}
    {config : ProcessConfig} (timely : Timely configs h)
    (idle : unstamped h.threads.proc.monitor = none)
    (found : h.threads.proc.configs[i]? = some config) (due : isDue t config = true) :
    ∀ c ∈ (checksOf i h.checks).getLast?, c.pass + period configs i ≤ t := by
  intro c last
  have stamp : c.pass ≤ config.lastMonitorTime := by
    rcases timely.stamped i c last with waits | done
    · rw [idle] at waits
      cases waits
    · exact done config found
  have after : config.monitorPeriod.toInt ≤ t - config.lastMonitorTime := by
    simp only [isDue, Bool.and_eq_true, decide_eq_true_eq] at due
    exact due.2
  rw [period_eq timely.periods found]
  calc c.pass + config.monitorPeriod.toInt
      ≤ config.lastMonitorTime + config.monitorPeriod.toInt := Int.add_le_add_right stamp _
    _ ≤ t := Int.add_le_of_le_sub_left after

theorem Timely.monitor {configs : List ProcessConfig} {h : CheckHistory} {env : MonitorEnv}
    (timely : Timely configs h) (clock : h.clock ≤ env.now) :
    Timely configs (stepChecks h (.monitor env)) := by
  cases pass_move env h.threads.proc with
  | wake pc next configs =>
      apply timely.scanned clock (by rw [pc]; rfl) (by simp [pc]) configs
      · rw [next]
        rintro t ⟨⟩
        exact .inr rfl
      · rw [next]
        rintro t i ⟨⟩
  | rest pc next configs =>
      apply timely.scanned clock (by rw [pc]; rfl) (by simp [pc]) configs
      · rw [next]
        rintro t ⟨⟩
      · rw [next]
        rintro t i ⟨⟩
  | skip pc next configs =>
      apply timely.scanned clock (by rw [pc]; rfl) (by simp [pc]) configs
      · rw [next, pc]
        exact fun t at_ => .inl at_
      · rw [next]
        rintro t i ⟨⟩
  | begin pc next configs found due =>
      have idle : unstamped h.threads.proc.monitor = none := by
        rw [pc]
        rfl
      apply timely.scanned clock idle (by simp [pc]) configs
      · rw [next, pc]
        exact fun t at_ => .inl at_
      · rw [next]
        rintro t i ⟨⟩
        exact timely.due_of_isDue idle found due
  | @check t i pc next configs =>
      have checks : (stepChecks h (.monitor env)).checks = h.checks ++ [⟨i, t, env.now⟩] := by
        simp [stepChecks, startedCheck, pc]
      exact timely.checked pc checks clock next configs
  | cycle pc next kept =>
      apply timely.unchecked (checks_kept (startedCheck_eq_none (not_checking_of_unstamped pc))) clock
        kept
      · intro t at_
        left
        rw [passOf_of_unstamped pc, ← passOf_of_unstamped next]
        exact at_
      · rw [pc]
        rintro pass ⟨⟩
        exact next
      · exact fun t i checking => absurd checking (not_checking_of_unstamped next t i)
  | stamp pc next configs =>
      exact timely.stamp pc (checks_kept (startedCheck_eq_none (by simp [pc]))) clock next configs

theorem Timely.step {configs : List ProcessConfig} {h : CheckHistory} {input : ThreadStep}
    (timely : Timely configs h) (clock : h.clock ≤ input.now) :
    Timely configs (stepChecks h input) := by
  cases input with
  | monitor env => exact timely.monitor clock
  | message env message => exact timely.command clock (by simp)
  | main now => exact timely.command clock (by simp)
  | event now e => exact timely.command clock (by simp)

/-! ## Runs -/

theorem legal_of_clocked {h : CheckHistory} {steps : List ThreadStep}
    (clocked : Clocked h.clock steps) :
    Guarded stepChecks (fun h input => h.clock ≤ input.now) h steps := by
  induction steps generalizing h with
  | nil => exact guarded_nil stepChecks
  | cons input steps ih =>
      rw [Clocked, List.map_cons, List.isChain_cons_cons] at clocked
      rw [guarded_cons]
      exact ⟨clocked.1, ih clocked.2⟩

theorem always_timely (configs : List ProcessConfig) {t : Time} {steps : List ThreadStep}
    (clocked : Clocked t steps) :
    Always stepChecks (Timely configs) (.start configs t) steps := by
  apply always_of_guarded stepChecks (J := Timely configs) (C := fun h input => h.clock ≤ input.now)
  · exact fun h input timely clock => timely.step clock
  · exact start_timely configs t
  · exact legal_of_clocked clocked

theorem spaced_of_noEarlier {configs : List ProcessConfig} {h : CheckHistory} {input : ThreadStep}
    (timely : Timely configs h) (spaced : ChecksSpaced configs h) (noEarlier : NoEarlier h input) :
    ChecksSpaced configs (stepChecks h input) := by
  cases started : startedCheck h.threads.proc input with
  | none =>
      rw [ChecksSpaced, checks_kept started]
      exact spaced
  | some d =>
      have checks : (stepChecks h input).checks = h.checks ++ [d] := by
        simp [stepChecks, started]
      rw [ChecksSpaced, checks, chained_append]
      refine ⟨spaced, fun c last => ?_⟩
      obtain ⟨env, -, pc, -⟩ := startedCheck_eq_some.mp started
      have passes : c.pass + period configs d.index ≤ d.pass := timely.due _ _ pc c last
      have late : c.late ≤ d.late := noEarlier d started c last
      calc c.start + period configs d.index
          = c.late + (c.pass + period configs d.index) := by
            rw [Check.late, ← Int.add_assoc, Int.sub_add_cancel]
        _ ≤ d.late + d.pass := Int.add_le_add late passes
        _ = d.start := Int.sub_add_cancel d.start d.pass

/-- The passes that check a config are always its period apart. Its checks are so as long as no
check is earlier in its pass than the one before was in its own. -/
theorem checks_spaced (configs : List ProcessConfig) (t : Time) (steps : List ThreadStep)
    (clocked : Clocked t steps) :
    Always stepChecks (PassesSpaced configs) (.start configs t) steps ∧
    (Guarded stepChecks NoEarlier (.start configs t) steps →
      Always stepChecks (ChecksSpaced configs) (.start configs t) steps) := by
  have timely := always_timely configs clocked
  refine ⟨timely.mono stepChecks fun h inv => inv.spaced, fun noEarlier => ?_⟩
  have both : Always stepChecks (fun h => Timely configs h ∧ ChecksSpaced configs h)
      (.start configs t) steps := by
    refine always_of_guarded stepChecks
      (C := fun h input => h.clock ≤ input.now ∧ NoEarlier h input) ?_ ?_ ?_
    · intro h input inv allowed
      exact ⟨inv.1.step allowed.1, spaced_of_noEarlier inv.1 inv.2 allowed.2⟩
    · exact ⟨start_timely configs t, fun i => List.isChain_nil⟩
    · intro past input rest split
      exact ⟨legal_of_clocked clocked past input rest split, noEarlier past input rest split⟩
  exact both.mono stepChecks fun h inv => inv.2

def twoChecks : List ThreadStep :=
  [.monitor ⟨100, true⟩, .monitor ⟨100, true⟩, .monitor ⟨100, true⟩, .monitor ⟨100, true⟩,
    .monitor ⟨100, true⟩, .monitor ⟨101, true⟩, .monitor ⟨101, true⟩, .monitor ⟨101, true⟩]

theorem checks_spaced_two :
    (run stepChecks (.start [selftestConfig 1 true] 100) twoChecks).checks =
        [⟨0, 100, 100⟩, ⟨0, 101, 101⟩] ∧
      Always stepChecks (PassesSpaced [selftestConfig 1 true])
        (.start [selftestConfig 1 true] 100) twoChecks ∧
      Always stepChecks (ChecksSpaced [selftestConfig 1 true])
        (.start [selftestConfig 1 true] 100) twoChecks := by
  obtain ⟨passes, checks⟩ := checks_spaced [selftestConfig 1 true] 100 twoChecks (by decide)
  refine ⟨by decide, passes, checks ?_⟩
  simp only [twoChecks, guarded_cons, guarded_nil]
  decide

def AttemptsLast (s : ProcState) : Prop :=
  s.shellRuns.IsChain fun a b => a.kind = .recover → a.start + 2 ≤ b.start

instance (s : ProcState) : Decidable (AttemptsLast s) :=
  inferInstanceAs (Decidable (List.IsChain _ _))

def lateCheck : List MonitorEnv :=
  [⟨100, true⟩, ⟨100, true⟩, ⟨100, false⟩, ⟨100, true⟩, ⟨102, false⟩, ⟨102, true⟩, ⟨104, false⟩,
    ⟨104, true⟩, ⟨106, false⟩, ⟨106, true⟩, ⟨106, true⟩, ⟨106, true⟩, ⟨106, true⟩, ⟨106, true⟩,
    ⟨106, true⟩, ⟨106, true⟩, ⟨106, true⟩, ⟨106, true⟩, ⟨106, true⟩, ⟨106, true⟩, ⟨106, true⟩]

theorem checked_twice_at_once :
    ¬ ∀ (configs : List ProcessConfig) (t : Time) (envs : List MonitorEnv),
      (∀ config ∈ configs, config.monitorSwitch = true) →
      Clocked t (envs.map .monitor) →
      AttemptsLast (run threadStep (.start configs) (envs.map .monitor)).proc →
        Always stepChecks (ChecksSpaced configs) (.start configs t) (envs.map .monitor) := by
  intro spaced
  have apart := (spaced [selftestConfig 1 true, selftestConfig 2 true] 100 lateCheck (by decide)
    (by decide) (by decide)).last stepChecks 1
  revert apart
  decide

end SysDetector.Proc
