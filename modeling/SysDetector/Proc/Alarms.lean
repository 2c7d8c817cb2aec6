import SysDetector.Library.Traces
import SysDetector.Proc.Statements

namespace SysDetector.Proc
open Runs Traces

def monitorActs (acts : List Act) : List Act := acts.filter isMonitorAct

def fourFailures (i : Nat) : List Act :=
  [.due i, .checked i false,
    .recovered i, .checked i false,
    .recovered i, .checked i false,
    .recovered i, .checked i false]

def EarnedAlarm (past : List Act) : Act → Prop
  | .alarmed i => fourFailures i <:+ monitorActs past ∧
      ∀ earlier between, past = earlier ++ .alarmed i :: between → .switched i true ∈ between
  | _ => True

/-! ## The cycle that is under way -/

def failures (i : Nat) : Nat → List Act
  | 0 => [.due i, .checked i false]
  | n + 1 => failures i n ++ [.recovered i, .checked i false]

def CycleSo (pc : MonitorPc) (acts : List Act) : Prop :=
  match pc with
  | .checking _ i => [.due i] <:+ acts
  | .retrying _ i n => n ≤ MAX_RESTARTS ∧ failures i n <:+ acts
  | .rechecking _ i n => n < MAX_RESTARTS ∧ failures i n ++ [.recovered i] <:+ acts
  | .alarming _ i => failures i MAX_RESTARTS <:+ acts
  | _ => True

theorem CycleSo.move {pc pc' : MonitorPc} {act : Option Act} {acts : List Act}
    (cycle : CycleSo pc acts) (move : MonitorMove pc act pc') :
    CycleSo pc' (acts ++ act.toList) := by
  cases move with
  | begin => exact List.suffix_append _ _
  | failed => exact ⟨Nat.zero_le _, List.suffix_append_self_iff.mpr cycle⟩
  | recover left => exact ⟨left, List.suffix_append_self_iff.mpr cycle.2⟩
  | exhausted spent =>
      obtain ⟨bound, done⟩ := cycle
      rw [Nat.le_antisymm bound spent] at done
      simpa [CycleSo] using done
  | @refailed t i n =>
      obtain ⟨left, done⟩ := cycle
      have next : failures i n ++ [.recovered i] ++ [.checked i false] <:+
          acts ++ [.checked i false] := List.suffix_append_self_iff.mpr done
      rw [List.append_assoc] at next
      exact ⟨left, next⟩
  | _ => trivial

theorem monitorActs_move {pc pc' : MonitorPc} {act : Option Act} (move : MonitorMove pc act pc')
    (acts : List Act) : monitorActs (acts ++ act.toList) = monitorActs acts ++ act.toList := by
  rw [monitorActs, List.filter_append]
  cases act with
  | none => rfl
  | some c =>
      rw [Option.toList_some, List.filter_singleton, move.isMonitorAct]
      rfl

theorem cycle_move {s s' : ThreadState} (move : Move s s')
    (cycle : CycleSo s.proc.monitor (monitorActs s.acts)) :
    CycleSo s'.proc.monitor (monitorActs s'.acts) := by
  have command : ∀ act, isMonitorAct act = false →
      monitorActs (s.acts ++ [act]) = monitorActs s.acts := by
    intro act other
    rw [monitorActs, List.filter_append, List.filter_singleton, other]
    exact List.append_nil _
  cases move with
  | quiet monitor on acts => rwa [monitor, acts]
  | switch j status monitor main off others acts => rwa [monitor, acts, command _ rfl]
  | answer j status monitor main main' on acts => rwa [monitor, acts, command _ rfl]
  | monitor act step main on due acts =>
      rw [acts, monitorActs_move step]
      exact cycle.move step

/-! ## The switch after an alarm -/

/-- Whether the monitor thread has found config `i` due and can still come to its alarm. -/
def Attending (i : Nat) : MonitorPc → Prop
  | .checking _ j | .retrying _ j _ | .rechecking _ j _ | .alarming _ j => j = i
  | _ => False

def Disarmed (s : ThreadState) (i : Nat) : Prop :=
  (∃ t, s.proc.monitor = .givingUp t i) ∨
    isOn s.proc i = false ∧ ¬ Attending i s.proc.monitor

theorem attending_of_move {pc pc' : MonitorPc} {act : Option Act} {i : Nat}
    (move : MonitorMove pc act pc') (attends : Attending i pc') :
    act = some (.due i) ∨ Attending i pc := by
  cases move with
  | begin =>
      cases attends
      exact .inl rfl
  | failed | recover | exhausted | refailed => exact .inr attends
  | _ => cases attends

theorem off_move {s s' : ThreadState} {act : Option Act} (move : Move s s')
    (acts : s'.acts = s.acts ++ act.toList) {i : Nat} (noStart : act ≠ some (.switched i true))
    (isOff : isOn s.proc i = false) : isOn s'.proc i = false := by
  cases move with
  | quiet monitor on => rw [on, isOff]
  | switch j status monitor main off others switched =>
      by_cases same : j = i
      · subst same
        cases status with
        | true => exact absurd (toList_of_acts acts switched) noStart
        | false => exact off rfl
      · rw [others i same, isOff]
  | answer j status monitor main main' on => rw [on, isOff]
  | monitor done step main on => rw [on i, isOff, ite_self]

theorem disarmed_move {s s' : ThreadState} {act : Option Act} (move : Move s s')
    (acts : s'.acts = s.acts ++ act.toList) {i : Nat} (noStart : act ≠ some (.switched i true))
    (disarmed : Disarmed s i) : Disarmed s' i := by
  have stillOff := off_move move acts noStart
  cases move with
  | quiet monitor on => rwa [Disarmed, monitor, on]
  | switch j status monitor main off others switched =>
      rw [Disarmed, monitor]
      exact disarmed.imp id fun ⟨isOff, away⟩ => ⟨stillOff isOff, away⟩
  | answer j status monitor main main' on => rwa [Disarmed, monitor, on]
  | monitor done step main on due =>
      right
      rcases disarmed with ⟨t, giving⟩ | ⟨isOff, away⟩
      · rw [giving] at step
        rw [on i]
        generalize s'.proc.monitor = pc' at step ⊢
        cases step
        exact ⟨if_pos rfl, id⟩
      · refine ⟨stillOff isOff, fun attends => ?_⟩
        rcases attending_of_move step attends with began | already
        · rw [due i began] at isOff
          cases isOff
        · exact away already

/-! ## Runs -/

structure AlarmInvariant (s : ThreadState) : Prop where
  earned : Each EarnedAlarm s.acts
  cycle : CycleSo s.proc.monitor (monitorActs s.acts)
  disarmed : ∀ i, Since (.alarmed i) (.switched i true) s.acts → Disarmed s i

theorem earnedAlarm_of_invariant {s : ThreadState} (inv : AlarmInvariant s) {i : Nat} {t : Time}
    (pc : s.proc.monitor = .alarming t i) : EarnedAlarm s.acts (.alarmed i) := by
  obtain ⟨-, cycle, disarmed⟩ := inv
  rw [pc] at cycle
  refine ⟨cycle, not_since_iff.mp fun since => ?_⟩
  rcases disarmed i since with ⟨t', giving⟩ | ⟨-, away⟩
  · rw [pc] at giving
    cases giving
  · exact away (by rw [pc]; rfl)

theorem AlarmInvariant.move {s s' : ThreadState} (inv : AlarmInvariant s) (move : Move s s') :
    AlarmInvariant s' := by
  obtain ⟨act, acts⟩ := move.acts
  refine ⟨?_, cycle_move move inv.cycle, fun i since => ?_⟩
  · rw [acts, each_toList]
    refine ⟨inv.earned, ?_⟩
    rintro c rfl
    cases c with
    | alarmed i =>
        obtain ⟨t, pc, -⟩ := move.alarmed acts
        exact earnedAlarm_of_invariant inv pc
    | _ => trivial
  · rw [acts, since_toList] at since
    rcases since with rfl | ⟨since, noStart⟩
    · obtain ⟨t, -, giving⟩ := move.alarmed acts
      exact .inl ⟨t, giving⟩
    · exact disarmed_move move acts noStart (inv.disarmed i since)

theorem alarms_earned (configs : List ProcessConfig) (steps : List ThreadStep) :
    let s := run threadStep (.start configs) steps
    (s.proc.shellRuns.map fun shell => (shell.kind, shell.index)) = s.acts.filterMap shellOf ∧
      Each EarnedAlarm s.acts := by
  have inv : AlarmInvariant (run threadStep (.start configs) steps) := by
    refine run_of_step threadStep (fun s input inv => inv.move (thread_move s input)) ?_ steps
    exact ⟨each_nil _, trivial, fun i since => absurd since (not_since_nil _ _)⟩
  exact ⟨(acts_executed configs steps).shells, inv.earned⟩

end SysDetector.Proc
