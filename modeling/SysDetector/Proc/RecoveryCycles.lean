import Mathlib.Data.List.DropRight
import SysDetector.Proc.MonitorPass

/-!
# Commands in the middle of a recovery cycle

The monitor loop reads a switch once, at the start of a cycle. A stop that is answered later in the
cycle does not keep the cycle from its recover and alarm commands, and a start that comes later is
undone when the cycle gives up (`commands_obeyed`).
-/

namespace SysDetector.Proc
open CLib Runs Traces

/-- A start has succeeded once the switch is set: all that follows is its answer. -/
def StopKept (past : List Act) (i : Nat) : Prop :=
  ∀ earlier between, past = earlier ++ .answered i false :: between → .switched i true ∈ between

def isDueAct : Act → Bool
  | .due _ => true
  | _ => false

def sinceDue (acts : List Act) : List Act := acts.rtakeWhile fun act => !isDueAct act

def newShells (env : MonitorEnv) (s : ProcState) : List ShellRun :=
  (monitorStep env s).shellRuns.drop s.shellRuns.length

/-- No command of a stopped config is run, and no switch is cleared that a start set after the cycle
under way began. -/
structure Obeyed (s : ThreadState) (env : MonitorEnv) : Prop where
  stops : ∀ shell ∈ newShells env s.proc, shell.kind = .recover ∨ shell.kind = .alarm →
    StopKept s.acts shell.index
  starts : ∀ i, Since (.switched i true) (.switched i false) (sinceDue s.acts) →
    isOn s.proc i = true → isOn (monitorStep env s.proc) i = true

def CommandsObeyed (s : ThreadState) : ThreadStep → Prop
  | .monitor env => Obeyed s env
  | _ => True

def MayGiveUp (i : Nat) (pc : MonitorPc) : Prop := Attending i pc ∨ ∃ t, pc = .givingUp t i

/-- The main thread does not set the switch of a config whose cycle has yet to run its alarm or, for
a start, to give up. -/
def Undisturbed (s : ThreadState) : ThreadStep → Prop
  | .main _ => ∀ i status, s.main = .switching i status →
      ¬ Attending i s.proc.monitor ∧ (status = true → ¬ MayGiveUp i s.proc.monitor)
  | _ => True

/-! ## The acts of the cycle -/

theorem sinceDue_concat {act : Act} (other : ∀ i, act ≠ .due i) (acts : List Act) :
    sinceDue (acts ++ [act]) = sinceDue acts ++ [act] := by
  apply List.rtakeWhile_concat_pos
  cases act with
  | due i => exact absurd rfl (other i)
  | _ => rfl

theorem sinceDue_due (acts : List Act) (i : Nat) : sinceDue (acts ++ [.due i]) = [] :=
  List.rtakeWhile_concat_neg _ _ _ Bool.false_ne_true

theorem sinceDue_cycle {acts more : List Act} (cycle : ∀ act ∈ more, isDueAct act = false) :
    sinceDue (acts ++ more) = sinceDue acts ++ more := by
  induction more using List.reverseRecOn with
  | nil => simp
  | append_singleton more act ih =>
      have other : ∀ i, act ≠ .due i := by
        rintro i rfl
        have due := cycle (.due i) (by simp)
        cases due
      have earlier := ih fun act member => cycle act (List.mem_append_left _ member)
      rw [← List.append_assoc, sinceDue_concat other, earlier, List.append_assoc]

theorem newShells_acts (env : MonitorEnv) {s : ThreadState} (executed : Executed s) :
    ((newShells env s.proc).map fun shell => (shell.kind, shell.index)) =
      (monitorAct env s.proc).toList.filterMap shellOf := by
  have shells := monitorStep_shells env executed.inside
  have length : (s.proc.shellRuns.map fun shell => (shell.kind, shell.index)).length =
      s.proc.shellRuns.length := List.length_map _
  rw [newShells, List.map_drop, shells, ← length, List.drop_left]

theorem commandRun_iff {env : MonitorEnv} {s : ThreadState} (executed : Executed s) {i : Nat} :
    (∃ shell ∈ newShells env s.proc,
        (shell.kind = .recover ∨ shell.kind = .alarm) ∧ shell.index = i) ↔
      monitorAct env s.proc = some (.recovered i) ∨ monitorAct env s.proc = some (.alarmed i) := by
  have shells := newShells_acts env executed
  have keys : (∃ shell ∈ newShells env s.proc,
      (shell.kind = .recover ∨ shell.kind = .alarm) ∧ shell.index = i) ↔
        (ShellKind.recover, i) ∈ (monitorAct env s.proc).toList.filterMap shellOf ∨
        (ShellKind.alarm, i) ∈ (monitorAct env s.proc).toList.filterMap shellOf := by
    rw [← shells, List.mem_map, List.mem_map]
    constructor
    · rintro ⟨shell, member, recover | alarm, same⟩
      · exact .inl ⟨shell, member, by rw [recover, same]⟩
      · exact .inr ⟨shell, member, by rw [alarm, same]⟩
    · rintro (⟨shell, member, same⟩ | ⟨shell, member, same⟩)
      · exact ⟨shell, member, .inl (congrArg Prod.fst same), congrArg Prod.snd same⟩
      · exact ⟨shell, member, .inr (congrArg Prod.fst same), congrArg Prod.snd same⟩
  rw [keys]
  cases monitorAct env s.proc with
  | none => simp
  | some act => cases act <;> simp [shellOf, eq_comm]

/-! ## Undisturbed cycles -/

structure CycleInvariant (s : ThreadState) : Prop where
  executed : Executed s
  stopped : ∀ i, Settling i s.main ∨ Since (.answered i false) (.switched i true) s.acts →
    isOn s.proc i = false ∧ ¬ Attending i s.proc.monitor
  unstarted : ∀ i, MayGiveUp i s.proc.monitor → .switched i true ∉ sinceDue s.acts

theorem obeyed_of_invariant {s : ThreadState} (inv : CycleInvariant s) (env : MonitorEnv) :
    Obeyed s env where
  stops := by
    intro shell member command
    have ran := (commandRun_iff inv.executed).mp ⟨shell, member, command, rfl⟩
    have move := monitor_move env s.proc
    have attending : Attending shell.index s.proc.monitor := by
      rcases ran with recovered | alarmed
      · rw [recovered] at move
        obtain ⟨t, n, at_, -⟩ := move.recovered
        rw [at_]
        rfl
      · rw [alarmed] at move
        obtain ⟨t, at_, -⟩ := move.alarmed
        rw [at_]
        rfl
    rw [StopKept, ← not_since_iff]
    exact fun since => (inv.stopped shell.index (.inr since)).2 attending
  starts := by
    intro i since on
    rw [isOn_monitorStep, if_neg, on]
    intro gaveUp
    have move := monitor_move env s.proc
    rw [gaveUp] at move
    obtain ⟨t, at_, -⟩ := move.gaveUp
    obtain ⟨past, after, split, -⟩ := since
    exact inv.unstarted i (.inr ⟨t, at_⟩) (by simp [split])

theorem switching_of_step {s : ThreadState} {input : ThreadStep} {i : Nat} {status : Bool}
    (acts : (threadStep s input).acts = s.acts ++ [.switched i status]) :
    (∃ now, input = .main now) ∧ s.main = .switching i status := by
  obtain ⟨act, done, recorded⟩ := act_of_step s input
  have same := toList_of_acts recorded acts
  cases done with
  | idle command => cases same
  | switched main =>
      cases same
      exact ⟨⟨_, rfl⟩, main⟩
  | answered main => cases same
  | @monitor env =>
      have move := monitor_move env s.proc
      rw [same] at move
      cases move.isMonitorAct

theorem pending_of_move {pc pc' : MonitorPc} {act : Option Act} {i : Nat}
    (move : MonitorMove pc act pc') (pending : MayGiveUp i pc') :
    act = some (.due i) ∨ MayGiveUp i pc := by
  rcases pending with attends | ⟨t, rfl⟩
  · exact (attending_of_move move attends).imp id .inl
  · cases move
    exact .inr (.inl rfl)

theorem stopped_step {s : ThreadState} {input : ThreadStep} (inv : CycleInvariant s)
    (quiet : Undisturbed s input) (i : Nat) (stopped : Settling i (threadStep s input).main ∨
      Since (.answered i false) (.switched i true) (threadStep s input).acts) :
    isOn (threadStep s input).proc i = false ∧ ¬ Attending i (threadStep s input).proc.monitor := by
  have move := thread_move s input
  cases move with
  | quiet monitor on acts settling =>
      rw [acts] at stopped
      rw [monitor, on]
      exact inv.stopped i (stopped.imp (settling i) id)
  | switch j status monitor main off others acts =>
      rw [main, settling_timing, acts, since_concat] at stopped
      rw [monitor]
      rcases stopped with ⟨rfl, rfl⟩ | ⟨⟨⟩⟩ | ⟨since, noStart⟩
      · obtain ⟨⟨now, rfl⟩, switching⟩ := switching_of_step acts
        exact ⟨off rfl, (quiet j false switching).1⟩
      · obtain ⟨isOff, away⟩ := inv.stopped i (.inr since)
        refine ⟨?_, away⟩
        by_cases same : j = i
        · subst same
          cases status with
          | true => exact absurd rfl noStart
          | false => exact off rfl
        · rw [others i same, isOff]
  | answer j status monitor main main' on acts =>
      rw [main', acts, since_concat] at stopped
      rw [monitor, on]
      rcases stopped with settles | answered | ⟨since, -⟩
      · exact absurd settles not_settling_marking
      · cases answered
        exact inv.stopped i (.inl (.inr main))
      · exact inv.stopped i (.inr since)
  | monitor act step main on due acts =>
      rw [main, acts, since_toList] at stopped
      have earlier : Settling i s.main ∨ Since (.answered i false) (.switched i true) s.acts := by
        rcases stopped with settles | rfl | ⟨since, -⟩
        · exact .inl settles
        · cases step.isMonitorAct
        · exact .inr since
      obtain ⟨isOff, away⟩ := inv.stopped i earlier
      refine ⟨by rw [on i, isOff, ite_self], fun attends => ?_⟩
      rcases attending_of_move step attends with began | already
      · rw [due i began] at isOff
        cases isOff
      · exact away already

theorem unstarted_step {s : ThreadState} {input : ThreadStep} (inv : CycleInvariant s)
    (quiet : Undisturbed s input) (i : Nat) (pending : MayGiveUp i (threadStep s input).proc.monitor) :
    .switched i true ∉ sinceDue (threadStep s input).acts := by
  have move := thread_move s input
  cases move with
  | quiet monitor on acts settling =>
      rw [monitor] at pending
      rw [acts]
      exact inv.unstarted i pending
  | switch j status monitor main off others acts =>
      rw [monitor] at pending
      obtain ⟨⟨now, rfl⟩, switching⟩ := switching_of_step acts
      rw [acts, sinceDue_concat (by simp), List.mem_append, List.mem_singleton]
      rintro (before | now)
      · exact inv.unstarted i pending before
      · cases now
        exact (quiet i true switching).2 rfl pending
  | answer j status monitor main main' on acts =>
      rw [monitor] at pending
      rw [acts, sinceDue_concat (by simp), List.mem_append, List.mem_singleton]
      rintro (before | now)
      · exact inv.unstarted i pending before
      · cases now
  | monitor act step main on due acts =>
      rw [acts]
      rcases pending_of_move step pending with rfl | earlier
      · rw [Option.toList_some, sinceDue_due]
        exact List.not_mem_nil
      · by_cases begins : ∃ j, act = some (.due j)
        · obtain ⟨j, rfl⟩ := begins
          rw [Option.toList_some, sinceDue_due]
          exact List.not_mem_nil
        · cases act with
          | none =>
              rw [Option.toList_none, List.append_nil]
              exact inv.unstarted i earlier
          | some other =>
              rw [Option.toList_some, sinceDue_concat (by rintro j rfl; exact begins ⟨j, rfl⟩),
                List.mem_append, List.mem_singleton]
              rintro (before | rfl)
              · exact inv.unstarted i earlier before
              · cases step.isMonitorAct

theorem CycleInvariant.step {s : ThreadState} {input : ThreadStep} (inv : CycleInvariant s)
    (quiet : Undisturbed s input) : CycleInvariant (threadStep s input) where
  executed := inv.executed.step input
  stopped := stopped_step inv quiet
  unstarted := unstarted_step inv quiet

theorem cycleInvariant_start (configs : List ProcessConfig) : CycleInvariant (.start configs) where
  executed := acts_executed configs []
  stopped i stopped := by
    rcases stopped with settles | since
    · exact absurd settles not_settling_waiting
    · exact absurd since (not_since_nil _ _)
  unstarted i _ := List.not_mem_nil

/-! ## Disturbed cycles -/

def failing : ThreadStep := .monitor ⟨0, false⟩

structure Failing (s s' : ThreadState) : Prop where
  executed : Executed s → Executed s'
  on : isOn s'.proc = isOn s.proc
  acts : ∃ more, s'.acts = s.acts ++ more ∧
    ∀ act ∈ more, isMonitorAct act = true ∧ isDueAct act = false

theorem Failing.refl (s : ThreadState) : Failing s s :=
  ⟨id, rfl, [], (List.append_nil _).symm, nofun⟩

theorem Failing.trans {s s' s'' : ThreadState} (first : Failing s s') (second : Failing s' s'') :
    Failing s s'' := by
  obtain ⟨executed, on, acts, recorded, cycle⟩ := first
  obtain ⟨executed', on', acts', recorded', cycle'⟩ := second
  refine ⟨executed' ∘ executed, on'.trans on, acts ++ acts', ?_, ?_⟩
  · rw [recorded', recorded, List.append_assoc]
  · intro act member
    exact (List.mem_append.mp member).elim (cycle act) (cycle' act)

theorem failing_act (s : ProcState) (i : Nat) :
    monitorAct ⟨0, false⟩ s ≠ some (.checked i true) := by
  unfold monitorAct
  cases s.monitor with
  | scanning t j =>
      dsimp only
      cases s.configs[j]? with
      | none => simp
      | some config =>
          dsimp only
          split_ifs <;> simp
  | retrying t j n =>
      dsimp only
      split_ifs <;> simp
  | _ => simp

theorem failing_move {pc pc' : MonitorPc} {act : Option Act} {i : Nat}
    (move : MonitorMove pc act pc') (failed : ∀ j, act ≠ some (.checked j true))
    (attends : Attending i pc) :
    (∀ c, act = some c → isDueAct c = false ∧ ∀ j, c ≠ .gaveUp j) ∧
      ((∃ t, pc = .alarming t i ∧ pc' = .givingUp t i) ∨ Attending i pc') := by
  cases move with
  | passed => exact absurd rfl (failed _)
  | repaired => exact absurd rfl (failed _)
  | failed | recover | refailed =>
      refine ⟨?_, .inr attends⟩
      rintro c ⟨⟩
      exact ⟨rfl, by simp⟩
  | exhausted => exact ⟨nofun, .inr attends⟩
  | alarm =>
      cases attends
      refine ⟨?_, .inl ⟨_, rfl, rfl⟩⟩
      rintro c ⟨⟩
      exact ⟨rfl, by simp⟩
  | _ => cases attends

theorem failing_step {s : ThreadState} {i : Nat} (attends : Attending i s.proc.monitor) :
    Failing s (threadStep s failing) := by
  have move := monitor_move ⟨0, false⟩ s.proc
  have cycle := (failing_move move (failing_act s.proc) attends).1
  refine ⟨fun executed => executed.step failing, ?_, _, rfl, ?_⟩
  · funext j
    refine (isOn_monitorStep ⟨0, false⟩ s.proc j).trans (if_neg fun gaveUp => ?_)
    exact (cycle _ gaveUp).2 j rfl
  · intro act member
    rw [Option.mem_toList] at member
    rw [member] at move
    exact ⟨move.isMonitorAct, (cycle act member).1⟩

theorem failing_alarms {s : ThreadState} {i : Nat} (attends : Attending i s.proc.monitor) :
    ∃ steps t, (run threadStep s steps).proc.monitor = .alarming t i ∧
      Failing s (run threadStep s steps) := by
  induction left : stepsLeft s.proc.configs.length s.proc.monitor using Nat.strong_induction_on
    generalizing s with
  | _ n ih =>
      have move := monitor_move ⟨0, false⟩ s.proc
      rcases (failing_move move (failing_act s.proc) attends).2 with ⟨t, alarming, -⟩ | stays
      · exact ⟨[], t, alarming, .refl s⟩
      · have awake : Awake s := by
          intro asleep
          rw [asleep] at attends
          exact attends
        have paid := threadStep_stepsLeft awake failing
        rw [left, show (isMonitorStep failing).toNat = 1 from rfl] at paid
        have less : stepsLeft (threadStep s failing).proc.configs.length
            (threadStep s failing).proc.monitor < n := by omega
        obtain ⟨steps, t, alarming, fails⟩ := ih _ less stays rfl
        exact ⟨failing :: steps, t, alarming, (failing_step attends).trans fails⟩

theorem failing_givesUp {s : ThreadState} {i : Nat} (pending : MayGiveUp i s.proc.monitor) :
    ∃ steps t, (run threadStep s steps).proc.monitor = .givingUp t i ∧
      Failing s (run threadStep s steps) := by
  rcases pending with attends | ⟨t, giving⟩
  · obtain ⟨steps, t, alarming, fails⟩ := failing_alarms attends
    have armed : Attending i (run threadStep s steps).proc.monitor := by
      rw [alarming]
      rfl
    refine ⟨steps ++ [failing], t, ?_, ?_⟩
    · rw [run_append, run_cons, run_nil]
      show (monitorStep _ _).monitor = _
      rw [monitorStep, alarming]
      rfl
    · rw [run_append]
      exact fails.trans (failing_step armed)
  · exact ⟨[], t, giving, .refl s⟩

theorem Failing.since {s s' : ThreadState} (fails : Failing s s') {a b : Act}
    (command : isMonitorAct b = false) (since : Since a b s.acts) : Since a b s'.acts := by
  obtain ⟨more, recorded, cycle⟩ := fails.acts
  rw [recorded]
  refine since.append fun member => ?_
  rw [(cycle b member).1] at command
  cases command

theorem Failing.sinceDue {s s' : ThreadState} (fails : Failing s s') {a b : Act}
    (command : isMonitorAct b = false) (since : Since a b (sinceDue s.acts)) :
    Since a b (sinceDue s'.acts) := by
  obtain ⟨more, recorded, cycle⟩ := fails.acts
  rw [recorded, sinceDue_cycle fun act member => (cycle act member).2]
  refine since.append fun member => ?_
  rw [(cycle b member).1] at command
  cases command

theorem disobeyed (s : ThreadState) (steps : List ThreadStep) (env : MonitorEnv)
    (disobeys : ¬ Obeyed (run threadStep s steps) env) :
    ¬ Guarded threadStep CommandsObeyed s (steps ++ [.monitor env]) :=
  fun obeyed => disobeys (obeyed steps (.monitor env) [] rfl)

theorem atConfig_of_attending {pc : MonitorPc} {i : Nat} (attends : Attending i pc) :
    atConfig pc = some i := by
  cases pc with
  | checking | retrying | rechecking | alarming => exact congrArg some attends
  | _ => cases attends

theorem main_answers (now : Time) {s : ThreadState} {i : Nat} {status : Bool}
    (main : s.main = .switching i status) :
    (run threadStep s [.main now, .main now, .main now]).proc.monitor = s.proc.monitor ∧
      (run threadStep s [.main now, .main now, .main now]).acts =
        s.acts ++ [.switched i status, .answered i status] := by
  have answered : (answerSwitch (stampConfig (setSwitch s.proc i status) i now) i).monitor =
      s.proc.monitor := by
    unfold answerSwitch
    split <;> rfl
  simp only [run_cons, run_nil, threadStep, mainStatement, main]
  exact ⟨answered, List.append_assoc _ _ _⟩

theorem stop_disobeyed {s : ThreadState} {i : Nat} (now : Time) (executed : Executed s)
    (main : s.main = .switching i false) (attends : Attending i s.proc.monitor) :
    ∃ more, ¬ Guarded threadStep CommandsObeyed s (.main now :: more) := by
  obtain ⟨monitor, acts⟩ := main_answers now main
  rw [← monitor] at attends
  obtain ⟨steps, t, alarming, fails⟩ := failing_alarms attends
  refine ⟨.main now :: .main now :: (steps ++ [failing]), ?_⟩
  refine disobeyed s ([.main now, .main now, .main now] ++ steps) ⟨0, false⟩ ?_
  rw [run_append]
  have answered : Executed (run threadStep s [.main now, .main now, .main now]) :=
    run_of_step threadStep (fun _ input so => so.step input) executed _
  generalize run threadStep s [.main now, .main now, .main now] = s' at *
  intro obeyed
  have ran : monitorAct ⟨0, false⟩ (run threadStep s' steps).proc = some (.alarmed i) := by
    rw [monitorAct, alarming]
  obtain ⟨shell, member, command, rfl⟩ :=
    (commandRun_iff (fails.executed answered)).mpr (.inr ran)
  have since : Since (.answered shell.index false) (.switched shell.index true) s'.acts :=
    ⟨s.acts ++ [.switched shell.index false], [], by simp [acts], List.not_mem_nil⟩
  exact not_since_iff.mpr (obeyed.stops shell member command) (fails.since rfl since)

theorem start_disobeyed {s : ThreadState} {i : Nat} (now : Time) (executed : Executed s)
    (main : s.main = .switching i true) (pending : MayGiveUp i s.proc.monitor) :
    ∃ more, ¬ Guarded threadStep CommandsObeyed s (.main now :: more) := by
  have inside : i < s.proc.configs.length := by
    apply executed.inside
    rcases pending with attends | ⟨t, giving⟩
    · exact atConfig_of_attending attends
    · rw [giving]
      rfl
  have set : threadStep s (.main now) = { s with
      proc := setSwitch s.proc i true
      main := .timing i true
      acts := s.acts ++ [.switched i true] } := by
    rw [threadStep, mainStatement, main]
  have on : isOn (threadStep s (.main now)).proc i = true := by
    rw [set, isOn, switches]
    simp [setSwitch, inside]
  have since : Since (.switched i true) (.switched i false)
      (sinceDue (threadStep s (.main now)).acts) := by
    rw [set, sinceDue_concat (by simp)]
    exact ⟨sinceDue s.acts, [], rfl, List.not_mem_nil⟩
  have pending' : MayGiveUp i (threadStep s (.main now)).proc.monitor := by
    rw [set]
    exact pending
  obtain ⟨steps, t, giving, fails⟩ := failing_givesUp pending'
  refine ⟨steps ++ [failing], ?_⟩
  refine disobeyed s (.main now :: steps) ⟨0, false⟩ ?_
  rw [run_cons]
  intro obeyed
  have off := isOn_monitorStep ⟨0, false⟩ (run threadStep (threadStep s (.main now)) steps).proc i
  rw [if_pos (by rw [monitorAct, giving])] at off
  have still := obeyed.starts i (fails.sinceDue rfl since) (by rw [fails.on, on])
  rw [off] at still
  cases still

/-! ## Runs -/

/-- A start or stop that comes between the recovery cycles of its config is obeyed in the rest of
the run. After one that does not, the monitor thread can go on in such a way that it is not. -/
theorem commands_obeyed (configs : List ProcessConfig) (steps : List ThreadStep) :
    (Guarded threadStep Undisturbed (.start configs) steps →
      Guarded threadStep CommandsObeyed (.start configs) steps) ∧
    ∀ now, ¬ Undisturbed (run threadStep (.start configs) steps) (.main now) →
      ∃ more, ¬ Guarded threadStep CommandsObeyed (.start configs)
        (steps ++ .main now :: more) := by
  constructor
  · intro quiet
    have inv := always_of_guarded threadStep
      (fun _ _ inv undisturbed => CycleInvariant.step inv undisturbed)
      (cycleInvariant_start configs) quiet
    refine guarded_of_always threadStep (L := fun _ _ => True) ?_ inv fun _ _ _ _ => trivial
    intro s input inv _
    cases input with
    | monitor env => exact obeyed_of_invariant inv env
    | _ => trivial
  · intro now disturbed
    have executed := acts_executed configs steps
    have later : ∃ more, ¬ Guarded threadStep CommandsObeyed (run threadStep (.start configs) steps)
        (.main now :: more) := by
      rw [Undisturbed] at disturbed
      push Not at disturbed
      obtain ⟨i, status, main, disturbs⟩ := disturbed
      by_cases attends : Attending i (run threadStep (.start configs) steps).proc.monitor
      · cases status with
        | false => exact stop_disobeyed now executed main attends
        | true => exact start_disobeyed now executed main (.inl attends)
      · obtain ⟨rfl, pending⟩ := disturbs attends
        exact start_disobeyed now executed main pending
    obtain ⟨more, disobeys⟩ := later
    exact ⟨more, fun obeyed => disobeys ((guarded_append threadStep).mp obeyed).2⟩

theorem undisturbed_of_away {s : ThreadState} (away : atConfig s.proc.monitor = none)
    (input : ThreadStep) : Undisturbed s input := by
  cases input with
  | main now =>
      intro i status _
      have unattended : ¬ Attending i s.proc.monitor := by
        intro attends
        rw [atConfig_of_attending attends] at away
        cases away
      refine ⟨unattended, fun _ => ?_⟩
      rintro (attends | ⟨t, giving⟩)
      · exact unattended attends
      · rw [giving] at away
        cases away
  | _ => trivial

def startSeven : List ThreadStep :=
  [.message ⟨0, true⟩ (lit "start 7"), .main 0, .main 0, .main 0, .main 0]

def stopBetween : List ThreadStep :=
  startSeven ++ [.monitor ⟨100, true⟩, .monitor ⟨100, true⟩, .monitor ⟨100, true⟩,
    .monitor ⟨100, true⟩, .message ⟨101, true⟩ (lit "stop 7"), .main 101, .main 101, .main 101,
    .main 101, .monitor ⟨102, true⟩]

def stopTaken : List ThreadStep :=
  startSeven ++ [.monitor ⟨100, true⟩, .monitor ⟨100, true⟩, .monitor ⟨100, false⟩,
    .message ⟨101, true⟩ (lit "stop 7")]

def stopAnswered : List ThreadStep := stopTaken ++ [.main 101, .main 101, .main 101, .main 101]

theorem commands_obeyed_once :
    Guarded threadStep CommandsObeyed (.start [selftestConfig 7 false]) stopBetween ∧
      ∃ more, ¬ Guarded threadStep CommandsObeyed (.start [selftestConfig 7 false])
        (stopTaken ++ .main 101 :: more) := by
  refine ⟨(commands_obeyed _ stopBetween).1 ?_, (commands_obeyed _ stopTaken).2 101 ?_⟩
  · simp only [stopBetween, startSeven, List.cons_append, List.nil_append, guarded_cons,
      guarded_nil, and_true]
    refine ⟨trivial, ?_, ?_, ?_, ?_, trivial, trivial, trivial, trivial, trivial, ?_, ?_, ?_, ?_,
      trivial⟩ <;> exact undisturbed_of_away (by decide) _
  · intro quiet
    have cycle : (run threadStep (.start [selftestConfig 7 false]) stopTaken).proc.monitor =
        .retrying 100 0 0 := by decide
    have command := (quiet 0 false (by decide)).1
    rw [cycle] at command
    exact command rfl

theorem stop_ignored_by_cycle : ¬ ∀ (configs : List ProcessConfig) (steps : List ThreadStep),
    Guarded threadStep CommandsObeyed (.start configs) steps := by
  intro obeyed
  have acts : (run threadStep (.start [selftestConfig 7 false]) stopAnswered).acts =
      [.switched 0 true, .answered 0 true, .due 0, .checked 0 false, .switched 0 false] ++
        .answered 0 false :: [] := by
    decide
  have ran : ∃ shell ∈ newShells ⟨102, true⟩
      (run threadStep (.start [selftestConfig 7 false]) stopAnswered).proc,
      shell.kind = .recover ∧ shell.index = 0 := by
    decide
  obtain ⟨shell, member, recover, index⟩ := ran
  have last := obeyed [selftestConfig 7 false] (stopAnswered ++ [.monitor ⟨102, true⟩])
    stopAnswered (.monitor ⟨102, true⟩) [] rfl
  have started := last.stops shell member (.inl recover) _ _ (by rw [index]; exact acts)
  cases started

end SysDetector.Proc
