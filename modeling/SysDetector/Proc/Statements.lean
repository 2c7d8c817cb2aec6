import SysDetector.Proc.EventGate

/-!
# The worker's two threads, statement by statement

A start or stop that names a config is several statements of the main thread, and the monitor
thread may go on between any two of them. What the threads do to configs is kept in a trace.
`statements_complete`: without the monitor in between, the statements do what `handleMessage` does.
-/

namespace SysDetector.Proc
open CLib Runs

/-- Where the main thread stands: waiting for a message, or in `handle_proc_status_command` behind
the loop's test, or back in `handle_command`. -/
inductive MainPc
  | waiting
  | switching (i : Nat) (status : Bool)
  | timing (i : Nat) (status : Bool)
  | answering (i : Nat) (status : Bool)
  | marking (status : Bool)
deriving DecidableEq

inductive Act
  | due (i : Nat)
  | checked (i : Nat) (passed : Bool)
  | recovered (i : Nat)
  | alarmed (i : Nat)
  | gaveUp (i : Nat)
  | switched (i : Nat) (status : Bool)
  | answered (i : Nat) (status : Bool)
deriving DecidableEq

structure ThreadState where
  proc : ProcState
  main : MainPc
  acts : List Act

inductive ThreadStep
  | message (env : CommandEnv) (message : Bytes)
  | main (now : Time)
  | event (now : Time) (e : ProcEvent)
  | monitor (env : MonitorEnv)

def ThreadState.start (configs : List ProcessConfig) : ThreadState where
  proc := .initial configs
  main := .waiting
  acts := []

def switchLine (status : Bool) : LogLine :=
  if status then .startingMonitoring else .stoppingMonitoring

def takeMessage (env : CommandEnv) (message : Bytes) (s : ThreadState) : ThreadState :=
  match switchCommand s.proc message with
  | some (status, i) =>
      if s.proc.ebpfRunning = !status then
        { s with proc := s.proc.writeLog (switchLine status), main := .switching i status }
      else { s with proc := handleMessage env message s.proc }
  | none => { s with proc := handleMessage env message s.proc }

def setSwitch (s : ProcState) (i : Nat) (status : Bool) : ProcState :=
  { s with configs := s.configs.modify i fun config => { config with monitorSwitch := status } }

def answerSwitch (s : ProcState) (i : Nat) : ProcState :=
  match s.configs[i]? with
  | some config => (s.writeLog (.startedMonitoring config.configId)).sendResponse .cmdSuccess
  | none => s

def mainStatement (now : Time) (s : ThreadState) : ThreadState :=
  match s.main with
  | .waiting => s
  | .switching i status =>
      { s with
        proc := setSwitch s.proc i status
        main := .timing i status
        acts := s.acts ++ [.switched i status] }
  | .timing i status => { s with proc := stampConfig s.proc i now, main := .answering i status }
  | .answering i status =>
      { s with
        proc := answerSwitch s.proc i
        main := .marking status
        acts := s.acts ++ [.answered i status] }
  | .marking status => { s with proc := { s.proc with ebpfRunning := status }, main := .waiting }

def monitorAct (env : MonitorEnv) (s : ProcState) : Option Act :=
  match s.monitor with
  | .scanning currentTime i =>
      match s.configs[i]? with
      | some config => if isDue currentTime config then some (.due i) else none
      | none => none
  | .checking _ i => some (.checked i env.checkStatus)
  | .retrying _ i retryCount => if retryCount < MAX_RESTARTS then some (.recovered i) else none
  | .rechecking _ i _ => some (.checked i env.checkStatus)
  | .alarming _ i => some (.alarmed i)
  | .givingUp _ i => some (.gaveUp i)
  | _ => none

def threadStep (s : ThreadState) : ThreadStep → ThreadState
  | .message env message => if s.main = .waiting then takeMessage env message s else s
  | .main now => mainStatement now s
  | .event now e =>
      if s.main = .waiting then { s with proc := (handleEvent now e s.proc).2 } else s
  | .monitor env =>
      { s with
        proc := monitorStep env s.proc
        acts := s.acts ++ (monitorAct env s.proc).toList }

/-! ## Without the monitor in between -/

theorem setMonitorSwitch_statements (s : ProcState) (i : Nat) (status : Bool) (now : Time) :
    stampConfig (setSwitch s i status) i now = setMonitorSwitch s i status now := by
  unfold stampConfig setSwitch setMonitorSwitch
  rw [List.modify_modify_eq]
  rfl

theorem answerSwitch_found {s : ProcState} {arg : Option Bytes} {i : Nat}
    (named : configIndex s arg = some i) (status : Bool) (now : Time) :
    ∃ text configId, arg = some text ∧ strtoul text = some configId ∧
      (s.configs.findIdx? fun config => config.configId == configId) = some i ∧
      answerSwitch (setMonitorSwitch s i status now) i =
        ((setMonitorSwitch s i status now).writeLog (.startedMonitoring configId)).sendResponse
          .cmdSuccess := by
  simp only [configIndex, Option.bind_eq_some_iff] at named
  obtain ⟨configId, ⟨text, rfl, parsed⟩, found⟩ := named
  refine ⟨text, configId, rfl, parsed, found, ?_⟩
  obtain ⟨inside, same, -⟩ := List.findIdx?_eq_some_iff_getElem.mp found
  have here : (setMonitorSwitch s i status now).configs[i]? =
      some { s.configs[i] with monitorSwitch := status, lastMonitorTime := now } := by
    simp [setMonitorSwitch, inside]
  unfold answerSwitch
  simp only [here]
  rw [(beq_iff_eq.mp same)]

theorem statements_complete (env : CommandEnv) {message : Bytes} {s : ThreadState} {status : Bool}
    {i : Nat} (waiting : s.main = .waiting)
    (command : switchCommand s.proc message = some (status, i))
    (openGate : s.proc.ebpfRunning = !status) :
    run threadStep s [.message env message, .main env.now, .main env.now, .main env.now,
        .main env.now] =
      { proc := handleMessage env message s.proc
        main := .waiting
        acts := s.acts ++ [.switched i status, .answered i status] } := by
  obtain ⟨args, tokens, named⟩ := switchCommand_eq_some command
  have logged : configIndex (s.proc.writeLog (switchLine status)) args.head? = some i := named
  obtain ⟨text, configId, arg, parsed, found, answered⟩ :=
    answerSwitch_found logged status env.now
  have handled : handleMessage env message s.proc =
      { answerSwitch (setMonitorSwitch (s.proc.writeLog (switchLine status)) i status env.now) i with
        ebpfRunning := status } := by
    rw [handleMessage_tokens tokens, if_pos (procIsValidOpt_switch status), arg, answered]
    cases status with
    | true =>
        rw [if_pos rfl, handleCommand_start, if_neg (by simp [openGate])]
        simp only [handleProcStatusCommand, parsed]
        rw [show switchLine true = .startingMonitoring from rfl] at found ⊢
        simp only [found, if_true]
    | false =>
        rw [if_neg Bool.false_ne_true, handleCommand_stop, if_pos (by simp [openGate])]
        simp only [handleProcStatusCommand, parsed]
        rw [show switchLine false = .stoppingMonitoring from rfl] at found ⊢
        simp only [found, if_true]
  rw [handled]
  simp only [run_cons, run_nil, threadStep, waiting, if_true, takeMessage, command, openGate,
    mainStatement, setMonitorSwitch_statements, List.append_assoc, List.cons_append, List.nil_append]

/-! ## What a step does -/

def atConfig : MonitorPc → Option Nat
  | .sleeping | .scanning _ _ => none
  | .checking _ i | .retrying _ i _ | .rechecking _ i _ | .alarming _ i | .givingUp _ i
  | .stamping _ i => some i

def isMonitorAct : Act → Bool
  | .switched _ _ | .answered _ _ => false
  | _ => true

inductive MonitorMove : MonitorPc → Option Act → MonitorPc → Prop
  | wake {t : Time} : MonitorMove .sleeping none (.scanning t 0)
  | rest {t : Time} {i : Nat} : MonitorMove (.scanning t i) none .sleeping
  | skip {t : Time} {i : Nat} : MonitorMove (.scanning t i) none (.scanning t (i + 1))
  | begin {t : Time} {i : Nat} : MonitorMove (.scanning t i) (some (.due i)) (.checking t i)
  | passed {t : Time} {i : Nat} :
      MonitorMove (.checking t i) (some (.checked i true)) (.stamping t i)
  | failed {t : Time} {i : Nat} :
      MonitorMove (.checking t i) (some (.checked i false)) (.retrying t i 0)
  | recover {t : Time} {i n : Nat} (left : n < MAX_RESTARTS) :
      MonitorMove (.retrying t i n) (some (.recovered i)) (.rechecking t i n)
  | exhausted {t : Time} {i n : Nat} (spent : MAX_RESTARTS ≤ n) :
      MonitorMove (.retrying t i n) none (.alarming t i)
  | repaired {t : Time} {i n : Nat} :
      MonitorMove (.rechecking t i n) (some (.checked i true)) (.stamping t i)
  | refailed {t : Time} {i n : Nat} :
      MonitorMove (.rechecking t i n) (some (.checked i false)) (.retrying t i (n + 1))
  | alarm {t : Time} {i : Nat} : MonitorMove (.alarming t i) (some (.alarmed i)) (.givingUp t i)
  | giveUp {t : Time} {i : Nat} : MonitorMove (.givingUp t i) (some (.gaveUp i)) (.stamping t i)
  | stamp {t : Time} {i : Nat} : MonitorMove (.stamping t i) none (.scanning t (i + 1))

theorem monitor_move (env : MonitorEnv) (s : ProcState) :
    MonitorMove s.monitor (monitorAct env s) (monitorStep env s).monitor := by
  unfold monitorAct monitorStep
  cases s.monitor with
  | sleeping => exact .wake
  | scanning t i =>
      dsimp only
      cases s.configs[i]? with
      | none => exact .rest
      | some config =>
          dsimp only
          split_ifs
          · exact .begin
          · exact .skip
  | checking t i =>
      dsimp only
      cases env.checkStatus with
      | true => exact .passed
      | false => exact .failed
  | retrying t i n =>
      dsimp only
      split_ifs with left
      · exact .recover left
      · exact .exhausted (Nat.le_of_not_lt left)
  | rechecking t i n =>
      dsimp only
      cases env.checkStatus with
      | true => exact .repaired
      | false => exact .refailed
  | alarming t i => exact .alarm
  | givingUp t i => exact .giveUp
  | stamping t i => exact .stamp

theorem MonitorMove.due {pc pc' : MonitorPc} {i : Nat} (move : MonitorMove pc (some (.due i)) pc') :
    ∃ t, pc = .scanning t i ∧ pc' = .checking t i := by
  cases move
  exact ⟨_, rfl, rfl⟩

theorem MonitorMove.gaveUp {pc pc' : MonitorPc} {i : Nat}
    (move : MonitorMove pc (some (.gaveUp i)) pc') :
    ∃ t, pc = .givingUp t i ∧ pc' = .stamping t i := by
  cases move
  exact ⟨_, rfl, rfl⟩

theorem MonitorMove.alarmed {pc pc' : MonitorPc} {i : Nat}
    (move : MonitorMove pc (some (.alarmed i)) pc') :
    ∃ t, pc = .alarming t i ∧ pc' = .givingUp t i := by
  cases move
  exact ⟨_, rfl, rfl⟩

theorem MonitorMove.recovered {pc pc' : MonitorPc} {i : Nat}
    (move : MonitorMove pc (some (.recovered i)) pc') :
    ∃ t n, pc = .retrying t i n ∧ pc' = .rechecking t i n := by
  cases move
  exact ⟨_, _, rfl, rfl⟩

theorem MonitorMove.isMonitorAct {pc pc' : MonitorPc} {c : Act}
    (move : MonitorMove pc (some c) pc') : isMonitorAct c = true := by
  cases move <;> rfl

def isOn (s : ProcState) (i : Nat) : Bool := (switches s)[i]?.getD false

theorem isOn_of_switches {s s' : ProcState} (same : switches s' = switches s) :
    isOn s' = isOn s := by
  unfold isOn
  rw [same]

theorem isOn_of_set_off {s s' : ProcState} {i : Nat} (set : switches s' = (switches s).set i false) :
    isOn s' i = false := by
  unfold isOn
  rw [set, List.getElem?_set, if_pos rfl]
  split_ifs <;> rfl

theorem isOn_of_set_ne {s s' : ProcState} {i j : Nat} {status : Bool}
    (set : switches s' = (switches s).set i status) (other : i ≠ j) : isOn s' j = isOn s j := by
  unfold isOn
  rw [set, List.getElem?_set_ne other]

theorem isOn_of_due {env : MonitorEnv} {s : ProcState} {i : Nat}
    (due : monitorAct env s = some (.due i)) : isOn s i = true := by
  have move := monitor_move env s
  rw [due] at move
  obtain ⟨t, pc, -⟩ := move.due
  unfold monitorAct at due
  rw [pc] at due
  dsimp only at due
  cases here : s.configs[i]? with
  | none =>
      rw [here] at due
      cases due
  | some config =>
      rw [here] at due
      dsimp only at due
      rw [Option.ite_none_right_eq_some, isDue, Bool.and_eq_true] at due
      rw [isOn, switches, List.getElem?_map, here, Option.map_some, Option.getD_some, due.1.1]

theorem isOn_monitorStep (env : MonitorEnv) (s : ProcState) (i : Nat) :
    isOn (monitorStep env s) i =
      if monitorAct env s = some (.gaveUp i) then false else isOn s i := by
  have set := switches_monitorStep env s
  split_ifs with gaveUp
  · have move := monitor_move env s
    rw [gaveUp] at move
    obtain ⟨t, pc, -⟩ := move.gaveUp
    rw [pc] at set
    exact isOn_of_set_off set
  · cases pc : s.monitor with
    | givingUp t j =>
        rw [pc] at set
        apply isOn_of_set_ne set
        rintro rfl
        exact gaveUp (by rw [monitorAct, pc])
    | _ =>
        rw [pc] at set
        rw [isOn_of_switches set]

def Settling (i : Nat) (main : MainPc) : Prop := main = .timing i false ∨ main = .answering i false

section Settling
variable {i j : Nat} {status : Bool}

@[simp] theorem settling_timing : Settling i (.timing j status) ↔ j = i ∧ status = false := by
  simp [Settling]

@[simp] theorem settling_answering :
    Settling i (.answering j status) ↔ j = i ∧ status = false := by
  simp [Settling]

@[simp] theorem not_settling_waiting : ¬ Settling i .waiting := by simp [Settling]

@[simp] theorem not_settling_switching : ¬ Settling i (.switching j status) := by simp [Settling]

@[simp] theorem not_settling_marking : ¬ Settling i (.marking status) := by simp [Settling]

end Settling

inductive Move (s s' : ThreadState) : Prop
  | quiet (monitor : s'.proc.monitor = s.proc.monitor) (on : isOn s'.proc = isOn s.proc)
      (acts : s'.acts = s.acts) (settling : ∀ i, Settling i s'.main → Settling i s.main)
  | switch (i : Nat) (status : Bool) (monitor : s'.proc.monitor = s.proc.monitor)
      (main : s'.main = .timing i status) (off : status = false → isOn s'.proc i = false)
      (others : ∀ j, i ≠ j → isOn s'.proc j = isOn s.proc j)
      (acts : s'.acts = s.acts ++ [.switched i status])
  | answer (i : Nat) (status : Bool) (monitor : s'.proc.monitor = s.proc.monitor)
      (main : s.main = .answering i status) (main' : s'.main = .marking status)
      (on : isOn s'.proc = isOn s.proc) (acts : s'.acts = s.acts ++ [.answered i status])
  | monitor (act : Option Act) (move : MonitorMove s.proc.monitor act s'.proc.monitor)
      (main : s'.main = s.main)
      (on : ∀ i, isOn s'.proc i = if act = some (.gaveUp i) then false else isOn s.proc i)
      (due : ∀ i, act = some (.due i) → isOn s.proc i = true)
      (acts : s'.acts = s.acts ++ act.toList)

theorem toList_of_acts {acts acts' : List Act} {act : Option Act} {c : Act}
    (done : acts' = acts ++ act.toList) (same : acts' = acts ++ [c]) : act = some c := by
  cases act with
  | none => simp [same] at done
  | some d => simpa [same, eq_comm] using done

theorem Move.acts {s s' : ThreadState} (move : Move s s') :
    ∃ act : Option Act, s'.acts = s.acts ++ act.toList := by
  cases move with
  | quiet monitor on acts => exact ⟨none, by rw [acts]; exact (List.append_nil _).symm⟩
  | switch i status monitor main off others acts => exact ⟨some (.switched i status), acts⟩
  | answer i status monitor main main' on acts => exact ⟨some (.answered i status), acts⟩
  | monitor act step main on due acts => exact ⟨act, acts⟩

theorem Move.single {s s' : ThreadState} (move : Move s s') {c : Act}
    (acts : s'.acts = s.acts ++ (some c).toList) :
    (∃ i status, c = .switched i status) ∨
    (∃ i status, c = .answered i status ∧ s.main = .answering i status ∧
      isOn s'.proc = isOn s.proc) ∨
    MonitorMove s.proc.monitor (some c) s'.proc.monitor ∧ s'.main = s.main ∧
      ∀ i, c = .due i → isOn s.proc i = true := by
  cases move with
  | quiet monitor on unchanged => simp [unchanged] at acts
  | switch i status monitor main off others switched =>
      obtain rfl := Option.some.inj (toList_of_acts acts switched)
      exact .inl ⟨i, status, rfl⟩
  | answer i status monitor main main' on answered =>
      obtain rfl := Option.some.inj (toList_of_acts acts answered)
      exact .inr (.inl ⟨i, status, rfl, main, on⟩)
  | monitor act step main on due recorded =>
      obtain rfl := toList_of_acts recorded acts
      exact .inr (.inr ⟨step, main, fun i same => due i (congrArg some same)⟩)

theorem Move.alarmed {s s' : ThreadState} (move : Move s s') {i : Nat}
    (alarm : s'.acts = s.acts ++ (some (Act.alarmed i)).toList) :
    ∃ t, s.proc.monitor = .alarming t i ∧ s'.proc.monitor = .givingUp t i := by
  rcases move.single alarm with ⟨_, _, ⟨⟩⟩ | ⟨_, _, ⟨⟩, _⟩ | ⟨step, -⟩
  exact step.alarmed

theorem Move.answered {s s' : ThreadState} (move : Move s s') {i : Nat} {status : Bool}
    (answer : s'.acts = s.acts ++ (some (Act.answered i status)).toList) :
    s.main = .answering i status ∧ isOn s'.proc = isOn s.proc := by
  rcases move.single answer with ⟨_, _, ⟨⟩⟩ | ⟨_, _, ⟨⟩, main, on⟩ | ⟨step, -⟩
  · exact ⟨main, on⟩
  · cases step.isMonitorAct

theorem Move.due {s s' : ThreadState} (move : Move s s') {i : Nat}
    (begun : s'.acts = s.acts ++ (some (Act.due i)).toList) :
    isOn s.proc i = true ∧ s'.main = s.main := by
  rcases move.single begun with ⟨_, _, ⟨⟩⟩ | ⟨_, _, ⟨⟩, _⟩ | ⟨-, main, on⟩
  exact ⟨on i rfl, main⟩

theorem onlyAnswers_quiet {s : ThreadState} {proc : ProcState}
    (frame : OnlyAnswers s.proc proc) : Move s { s with proc := proc } := by
  obtain ⟨log, responses, out, rfl⟩ := frame
  exact .quiet rfl rfl rfl fun i settling => settling

theorem onlyAnswers_of_refused (env : CommandEnv) {message : Bytes} {s : ProcState}
    (refused : ∀ status i, switchCommand s message = some (status, i) → s.ebpfRunning = status) :
    OnlyAnswers s (handleMessage env message s) := by
  rcases handleMessage_switch env message s with
    ⟨status, i, log, responses, command, openGate, -⟩ | ⟨-, frame⟩
  · have closed := refused status i command
    rw [closed] at openGate
    cases status <;> cases openGate
  · exact frame

theorem takeMessage_cases (env : CommandEnv) (message : Bytes) (s : ThreadState) :
    (∃ status i, takeMessage env message s =
      { s with proc := s.proc.writeLog (switchLine status), main := .switching i status }) ∨
    ∃ proc, takeMessage env message s = { s with proc := proc } ∧ OnlyAnswers s.proc proc := by
  unfold takeMessage
  cases command : switchCommand s.proc message with
  | none => exact .inr ⟨_, rfl, onlyAnswers_of_refused env (by simp [command])⟩
  | some target =>
      obtain ⟨status, i⟩ := target
      dsimp only
      split_ifs with openGate
      · exact .inl ⟨status, i, rfl⟩
      · refine .inr ⟨_, rfl, onlyAnswers_of_refused env ?_⟩
        intro status' i' same
        rw [command] at same
        cases same
        cases status <;> simpa using openGate

theorem takeMessage_move (env : CommandEnv) (message : Bytes) (s : ThreadState) :
    Move s (takeMessage env message s) := by
  rcases takeMessage_cases env message s with ⟨status, i, frame⟩ | ⟨proc, frame, answers⟩
  · rw [frame]
    exact .quiet rfl rfl rfl fun j settling => absurd settling not_settling_switching
  · rw [frame]
    exact onlyAnswers_quiet answers

theorem mainStatement_move (now : Time) (s : ThreadState) : Move s (mainStatement now s) := by
  unfold mainStatement
  cases main : s.main with
  | waiting => exact .quiet rfl rfl rfl fun i settling => settling
  | switching i status =>
      have set : switches (setSwitch s.proc i status) = (switches s.proc).set i status :=
        switches_modify _ _ _ _ fun _ => rfl
      refine .switch i status rfl rfl ?_ (fun j other => isOn_of_set_ne set other) rfl
      rintro rfl
      exact isOn_of_set_off set
  | timing i status =>
      refine .quiet rfl (isOn_of_switches (switches_stampConfig s.proc i now)) rfl ?_
      intro j settling
      rw [settling_answering] at settling
      rwa [main, settling_timing]
  | answering i status =>
      refine .answer i status ?_ main rfl ?_ rfl
      · dsimp only
        unfold answerSwitch
        split <;> rfl
      · dsimp only
        unfold answerSwitch
        split <;> rfl
  | marking status =>
      exact .quiet rfl rfl rfl fun j settling => absurd settling not_settling_waiting

theorem thread_move (s : ThreadState) (input : ThreadStep) : Move s (threadStep s input) := by
  cases input with
  | message env message =>
      rw [threadStep]
      split_ifs with waiting
      · exact takeMessage_move env message s
      · exact .quiet rfl rfl rfl fun i settling => settling
  | main now => exact mainStatement_move now s
  | event now e =>
      rw [threadStep]
      split_ifs with waiting
      · obtain ⟨tracked, counters, log, frame⟩ := handleEvent_frame now e s.proc
        rw [frame]
        exact .quiet rfl rfl rfl fun i settling => settling
      · exact .quiet rfl rfl rfl fun i settling => settling
  | monitor env =>
      exact .monitor (monitorAct env s.proc) (monitor_move env s.proc) rfl
        (isOn_monitorStep env s.proc) (fun i => isOn_of_due) rfl

inductive ActOf (s : ThreadState) : ThreadStep → Option Act → Prop
  | idle {input : ThreadStep} (command : ∀ env, input ≠ .monitor env) : ActOf s input none
  | switched {now : Time} {i : Nat} {status : Bool} (main : s.main = .switching i status) :
      ActOf s (.main now) (some (.switched i status))
  | answered {now : Time} {i : Nat} {status : Bool} (main : s.main = .answering i status) :
      ActOf s (.main now) (some (.answered i status))
  | monitor {env : MonitorEnv} : ActOf s (.monitor env) (monitorAct env s.proc)

theorem act_of_step (s : ThreadState) (input : ThreadStep) :
    ∃ act, ActOf s input act ∧ (threadStep s input).acts = s.acts ++ act.toList := by
  have unchanged : s.acts = s.acts ++ (none : Option Act).toList := (List.append_nil _).symm
  cases input with
  | message env message =>
      refine ⟨none, .idle nofun, ?_⟩
      rw [threadStep]
      split_ifs
      · rcases takeMessage_cases env message s with ⟨status, i, frame⟩ | ⟨proc, frame, -⟩
        · rwa [frame]
        · rwa [frame]
      · exact unchanged
  | main now =>
      rw [threadStep, mainStatement]
      cases main : s.main with
      | switching i status => exact ⟨_, .switched main, rfl⟩
      | answering i status => exact ⟨_, .answered main, rfl⟩
      | _ => exact ⟨none, .idle nofun, unchanged⟩
  | event now e =>
      refine ⟨none, .idle nofun, ?_⟩
      rw [threadStep]
      split_ifs <;> exact unchanged
  | monitor env => exact ⟨_, .monitor, rfl⟩

/-! ## The trace and the commands that were run -/

def shellOf : Act → Option (ShellKind × Nat)
  | .checked i _ => some (.monitor, i)
  | .recovered i => some (.recover, i)
  | .alarmed i => some (.alarm, i)
  | _ => none

structure Executed (s : ThreadState) : Prop where
  inside : ∀ i, atConfig s.proc.monitor = some i → i < s.proc.configs.length
  shells : (s.proc.shellRuns.map fun shell => (shell.kind, shell.index)) =
    s.acts.filterMap shellOf

theorem runShell_shells {s : ProcState} {i : Nat} (inside : i < s.configs.length)
    (kind : ShellKind) (command : ProcessConfig → CharBuf 256) (now : Time) :
    ((s.runShell kind i command now).shellRuns.map fun shell => (shell.kind, shell.index)) =
      (s.shellRuns.map fun shell => (shell.kind, shell.index)) ++ [(kind, i)] := by
  unfold ProcState.runShell
  rw [List.getElem?_eq_getElem inside]
  simp

theorem logFor_shellRuns (s : ProcState) (i : Nat) (line : CharBuf 64 → LogLine) :
    (s.logFor i line).shellRuns = s.shellRuns ∧ (s.logFor i line).configs = s.configs := by
  obtain ⟨log, frame⟩ := logFor_frame s i line
  rw [frame]
  exact ⟨rfl, rfl⟩

theorem monitorStep_length (env : MonitorEnv) (s : ProcState) :
    (monitorStep env s).configs.length = s.configs.length := by
  obtain ⟨pc, log, runs, frame⟩ := monitorStep_frame env s
  rw [frame]
  show (monitorConfigs s).length = _
  unfold monitorConfigs
  cases s.monitor <;> simp [disableConfig, stampConfig]

theorem monitorStep_inside {env : MonitorEnv} {s : ProcState}
    (inside : ∀ i, atConfig s.monitor = some i → i < s.configs.length) {i : Nat}
    (next : atConfig (monitorStep env s).monitor = some i) : i < s.configs.length := by
  have move := monitor_move env s
  generalize (monitorStep env s).monitor = pc' at move next
  cases due : monitorAct env s with
  | some act =>
      by_cases begins : ∃ j, act = .due j
      · obtain ⟨j, rfl⟩ := begins
        have on := isOn_of_due due
        rw [due] at move
        obtain ⟨t, -, rfl⟩ := move.due
        cases next
        by_contra outside
        rw [isOn, switches, List.getElem?_map, List.getElem?_eq_none (Nat.le_of_not_lt outside)] at on
        cases on
      · rw [due] at move
        generalize s.monitor = pc at move inside
        cases move with
        | begin => exact absurd ⟨_, rfl⟩ begins
        | _ => exact inside i next
  | none =>
      rw [due] at move
      generalize s.monitor = pc at move inside
      cases move with
      | exhausted => exact inside i next
      | _ => cases next

theorem monitorStep_shells (env : MonitorEnv) {s : ProcState}
    (inside : ∀ i, atConfig s.monitor = some i → i < s.configs.length) :
    ((monitorStep env s).shellRuns.map fun shell => (shell.kind, shell.index)) =
      (s.shellRuns.map fun shell => (shell.kind, shell.index)) ++
        ((monitorAct env s).toList.filterMap shellOf) := by
  unfold monitorStep monitorAct
  cases pc : s.monitor with
  | checking t i =>
      rw [pc] at inside
      have ran := runShell_shells (inside i rfl) .monitor ProcessConfig.monitorCmd env.now
      have logged := (logFor_shellRuns (s.runShell .monitor i ProcessConfig.monitorCmd env.now) i
        fun name => .processStatus name env.checkStatus).1
      dsimp only
      split_ifs <;> simpa [ProcState.goto, logged, shellOf] using ran
  | retrying t i n =>
      rw [pc] at inside
      dsimp only
      split_ifs with left
      · have frame := logFor_shellRuns s i fun name => .attemptingRestart name (n + 1)
        have ran := runShell_shells (by rw [frame.2]; exact inside i rfl) .recover
          ProcessConfig.recoverCmd env.now
        rw [frame.1] at ran
        simpa [ProcState.goto, shellOf] using ran
      · simp [ProcState.goto]
  | rechecking t i n =>
      rw [pc] at inside
      have ran := runShell_shells (inside i rfl) .monitor ProcessConfig.monitorCmd env.now
      have logged := (logFor_shellRuns (s.runShell .monitor i ProcessConfig.monitorCmd env.now) i
        .restarted).1
      dsimp only
      split_ifs <;> simpa [ProcState.goto, logged, shellOf] using ran
  | alarming t i =>
      rw [pc] at inside
      have frame := logFor_shellRuns s i .restartFailed
      have ran := runShell_shells (by rw [frame.2]; exact inside i rfl) .alarm
        ProcessConfig.alarmCmd env.now
      rw [frame.1] at ran
      simpa [ProcState.goto, shellOf] using ran
  | scanning t i =>
      dsimp only
      cases s.configs[i]? with
      | none => simp [ProcState.goto]
      | some config =>
          dsimp only
          split_ifs <;> simp [ProcState.goto, shellOf]
  | _ => simp [ProcState.goto, disableConfig, stampConfig, shellOf]

theorem Executed.step {s : ThreadState} (executed : Executed s) (input : ThreadStep) :
    Executed (threadStep s input) := by
  obtain ⟨inside, shells⟩ := executed
  cases input with
  | message env message =>
      rw [threadStep]
      split_ifs
      · rcases takeMessage_cases env message s with ⟨status, i, frame⟩ | ⟨proc, frame, answers⟩
        · rw [frame]
          exact ⟨inside, shells⟩
        · obtain ⟨log, responses, out, rfl⟩ := answers
          rw [frame]
          exact ⟨inside, shells⟩
      · exact ⟨inside, shells⟩
  | main now =>
      rw [threadStep, mainStatement]
      cases s.main with
      | waiting => exact ⟨inside, shells⟩
      | switching i status =>
          refine ⟨by simpa [setSwitch] using inside, ?_⟩
          rw [List.filterMap_append]
          exact shells.trans (List.append_nil _).symm
      | timing i status => exact ⟨by simpa [stampConfig] using inside, shells⟩
      | answering i status =>
          have same : (s.proc.shellRuns.map fun shell => (shell.kind, shell.index)) =
              (s.acts ++ [Act.answered i status]).filterMap shellOf := by
            rw [List.filterMap_append]
            exact shells.trans (List.append_nil _).symm
          dsimp only
          unfold answerSwitch
          split <;> exact ⟨inside, same⟩
      | marking status => exact ⟨inside, shells⟩
  | event now e =>
      rw [threadStep]
      obtain ⟨tracked, counters, log, frame⟩ := handleEvent_frame now e s.proc
      rw [frame]
      split_ifs <;> exact ⟨inside, shells⟩
  | monitor env =>
      refine ⟨fun i next => ?_, ?_⟩
      · rw [threadStep]
        dsimp only
        rw [monitorStep_length]
        exact monitorStep_inside inside next
      · rw [threadStep]
        dsimp only
        rw [monitorStep_shells env inside, shells, List.filterMap_append]

theorem acts_executed (configs : List ProcessConfig) (steps : List ThreadStep) :
    Executed (run threadStep (.start configs) steps) :=
  run_of_step threadStep (fun _ input executed => executed.step input) ⟨nofun, rfl⟩ steps

end SysDetector.Proc
