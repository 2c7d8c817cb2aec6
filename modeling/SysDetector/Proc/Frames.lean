import SysDetector.Proc.Worker

namespace SysDetector.Proc
open CLib SlotTable SlotTable.View

/-! ## Events -/

theorem detectSuspiciousExec_frame (e : ProcEvent) (argv : Bytes) (s : ProcState) :
    ∃ log, detectSuspiciousExec e argv s = { s with logFile := log } :=
  ⟨_, ProcState.foldl_writeLog (suspiciousLines e argv) s⟩

theorem recordShortLivedProcess_frame (proc : TrackedProcess) (runtime : Int) (now : Time)
    (s : ProcState) : ∃ counters log, recordShortLivedProcess proc runtime now s =
      { s with shortLivedCounters := counters, logFile := log } := by
  unfold recordShortLivedProcess ProcState.writeLog ProcState.setCounter
  dsimp only
  split <;> split <;> exact ⟨_, _, rfl⟩

theorem trackedSlotFor_slot (s : ProcState) (pid : UInt32) :
    (trackedSlotFor s pid).1 = trackedView.slotFor s.trackedProcs pid := by
  unfold trackedSlotFor findTrackedProcess
  cases found : trackedView.find s.trackedProcs pid with
  | none => exact (slotFor_of_none found).symm
  | some i => exact (slotFor_of_find found).symm

theorem trackedSlotFor_frame (s : ProcState) (pid : UInt32) :
    ∃ log, (trackedSlotFor s pid).2 = { s with logFile := log } := by
  unfold trackedSlotFor allocTrackedProcessSlot ProcState.writeLog
  split
  · exact ⟨_, rfl⟩
  · dsimp only
    split <;> exact ⟨_, rfl⟩

theorem procEventExec_enabled (now : Time) {e : ProcEvent} {s : ProcState}
    (enabled : isEnabledConfiguredProcess s e = true) : ∃ log, procEventExec now e s =
      { s with
        trackedProcs := Function.update s.trackedProcs (trackedView.slotFor s.trackedProcs e.pid)
          (execRecord now e)
        logFile := log } := by
  obtain ⟨log, slotFrame⟩ := trackedSlotFor_frame s e.pid
  obtain ⟨log', detectFrame⟩ := detectSuspiciousExec_frame e (joinEventArgv e ARGV_MAX_LEN)
    ((trackedSlotFor s e.pid).2.setTracked (trackedSlotFor s e.pid).1 (execRecord now e))
  refine ⟨log' ++ [.exec e.pid e.ppid e.comm e.filename (joinEventArgv e ARGV_MAX_LEN)
    e.stackId], ?_⟩
  simp only [procEventExec, trackProcExec, enabled, if_true]
  rw [detectFrame, slotFrame, trackedSlotFor_slot]
  rfl

theorem procEventExec_disabled {now : Time} {e : ProcEvent} {s : ProcState}
    (disabled : isEnabledConfiguredProcess s e = false) : procEventExec now e s = s := by
  simp [procEventExec, disabled]

theorem procEventExit_tracked (now : Time) {e : ProcEvent} {s : ProcState}
    {i : Fin MAX_TRACKED_PROCS} (found : findTrackedProcess s e.pid = some i) :
    ∃ counters log, procEventExit now e s =
      { s with
        trackedProcs := Function.update s.trackedProcs i
          { s.trackedProcs i with lastSeen := now, active := false }
        shortLivedCounters := counters
        logFile := log } := by
  simp only [procEventExit, trackProcExit, isTrackedOrEnabledConfiguredProcess, found,
    Option.isSome_some, Bool.true_or, if_true]
  split_ifs
  · obtain ⟨counters, log, frame⟩ := recordShortLivedProcess_frame
      { s.trackedProcs i with lastSeen := now } (now - (s.trackedProcs i).firstSeen) now
      ((s.setTracked i { s.trackedProcs i with lastSeen := now }).writeLog
        (.proc (s.trackedProcs i).pid (s.trackedProcs i).comm (s.trackedProcs i).filename
          (s.trackedProcs i).argv (now - (s.trackedProcs i).firstSeen)))
    refine ⟨counters, log ++ [.exit e.pid e.ppid e.comm e.stackId], ?_⟩
    rw [frame]
    simp [ProcState.setTracked, ProcState.writeLog]
  · exact ⟨_, _, by simp [ProcState.setTracked, ProcState.writeLog]; exact ⟨rfl, rfl⟩⟩

theorem procEventExit_untracked {now : Time} {e : ProcEvent} {s : ProcState}
    (absent : findTrackedProcess s e.pid = none) : procEventExit now e s = s := by
  cases known : isTrackedOrEnabledConfiguredProcess s e <;>
    simp [procEventExit, trackProcExit, absent, known]

theorem procEventFork_tracked (now : Time) {e : ProcEvent} {s : ProcState}
    {i : Fin MAX_TRACKED_PROCS} (found : findTrackedProcess s e.ppid = some i) :
    ∃ log, procEventFork now e s =
      { s with
        trackedProcs := Function.update s.trackedProcs (trackedView.slotFor s.trackedProcs e.pid)
          (forkRecord now e (s.trackedProcs i))
        logFile := log } := by
  obtain ⟨log, slotFrame⟩ := trackedSlotFor_frame s e.pid
  simp only [procEventFork, trackProcFork, found]
  rw [slotFrame, trackedSlotFor_slot]
  exact ⟨_, rfl⟩

theorem procEventFork_untracked {now : Time} {e : ProcEvent} {s : ProcState}
    (absent : findTrackedProcess s e.ppid = none) : procEventFork now e s = s := by
  simp [procEventFork, trackProcFork, absent]

section Dispatch
variable {now : Time} {e : ProcEvent} {s : ProcState}

theorem handleEvent_exec (running : s.ebpfRunning = true) (type : e.type = .exec) :
    (handleEvent now e s).2 = procEventExec now e s := by
  simp only [handleEvent, running, if_true, type]

theorem handleEvent_exit (running : s.ebpfRunning = true) (type : e.type = .exit) :
    (handleEvent now e s).2 = procEventExit now e s := by
  simp only [handleEvent, running, if_true, type]

theorem handleEvent_fork (running : s.ebpfRunning = true) (type : e.type = .fork) :
    (handleEvent now e s).2 = procEventFork now e s := by
  simp only [handleEvent, running, if_true, type]

theorem handleEvent_stopped (stopped : s.ebpfRunning = false) : (handleEvent now e s).2 = s := by
  simp [handleEvent, stopped]

end Dispatch

theorem handleEvent_frame (now : Time) (e : ProcEvent) (s : ProcState) :
    ∃ tracked counters log, (handleEvent now e s).2 =
      { s with trackedProcs := tracked, shortLivedCounters := counters, logFile := log } := by
  unfold handleEvent
  split_ifs
  · cases e.type with
    | exec =>
        cases enabled : isEnabledConfiguredProcess s e with
        | false => exact ⟨_, _, _, procEventExec_disabled enabled⟩
        | true =>
            obtain ⟨log, frame⟩ := procEventExec_enabled now enabled
            exact ⟨_, _, _, frame⟩
    | exit =>
        cases found : findTrackedProcess s e.pid with
        | none => exact ⟨_, _, _, procEventExit_untracked found⟩
        | some i =>
            obtain ⟨counters, log, frame⟩ := procEventExit_tracked now found
            exact ⟨_, _, _, frame⟩
    | fork =>
        cases found : findTrackedProcess s e.ppid with
        | none => exact ⟨_, _, _, procEventFork_untracked found⟩
        | some i =>
            obtain ⟨log, frame⟩ := procEventFork_tracked now found
            exact ⟨_, _, _, frame⟩
    | other => exact ⟨_, _, _, rfl⟩
  · exact ⟨_, _, _, rfl⟩

@[simp] theorem handleEvent_ebpfRunning (now : Time) (e : ProcEvent) (s : ProcState) :
    (handleEvent now e s).2.ebpfRunning = s.ebpfRunning := by
  obtain ⟨tracked, counters, log, frame⟩ := handleEvent_frame now e s
  rw [frame]

@[simp] theorem handleEvent_configs (now : Time) (e : ProcEvent) (s : ProcState) :
    (handleEvent now e s).2.configs = s.configs := by
  obtain ⟨tracked, counters, log, frame⟩ := handleEvent_frame now e s
  rw [frame]

/-! ## Messages -/

def configIndex (s : ProcState) (arg : Option Bytes) : Option Nat :=
  (arg.bind strtoul).bind fun configId =>
    s.configs.findIdx? fun config => config.configId == configId

def switchCommand (s : ProcState) (message : Bytes) : Option (Bool × Nat) :=
  match procSplitSpace (cstr message) with
  | [] => none
  | opt :: args =>
      if opt = PROC_START ∨ opt = PROC_STOP then
        (configIndex s args.head?).map fun i => (decide (opt = PROC_START), i)
      else none

def OnlyAnswers (s s' : ProcState) : Prop :=
  ∃ log responses out, s' = { s with logFile := log, responses := responses, outFile := out }

theorem handleListCommand_frame (env : CommandEnv) (scope : Option Bytes) (s : ProcState) :
    OnlyAnswers s (handleListCommand env scope s) := by
  unfold handleListCommand handleConfigListCommand handleTrackedListCommand openProcOutFile
    ProcState.sendResponse ProcState.writeLog
  cases env.outFileOpens <;> split_ifs <;> exact ⟨_, _, _, rfl⟩

theorem handleProcStatusCommand_found (env : CommandEnv) {arg : Option Bytes} (status : Bool)
    {s : ProcState} {i : Nat} (named : configIndex s arg = some i) :
    ∃ log, handleProcStatusCommand env arg status s =
      (true, { setMonitorSwitch s i status env.now with
        logFile := log, responses := s.responses ++ [.cmdSuccess] }) := by
  simp only [configIndex, Option.bind_eq_some_iff] at named
  obtain ⟨configId, ⟨text, rfl, parsed⟩, found⟩ := named
  unfold handleProcStatusCommand
  simp only [parsed, found]
  exact ⟨_, rfl⟩

theorem handleProcStatusCommand_missing (env : CommandEnv) {arg : Option Bytes} (status : Bool)
    {s : ProcState} (unnamed : configIndex s arg = none) :
    ∃ log, handleProcStatusCommand env arg status s =
      (false, { s with logFile := log, responses := s.responses ++ [.cmdInvalid] }) := by
  cases arg with
  | none => exact ⟨_, rfl⟩
  | some text =>
      simp only [handleProcStatusCommand]
      simp only [configIndex, Option.bind_some] at unnamed
      cases parsed : strtoul text with
      | none => exact ⟨_, rfl⟩
      | some configId =>
          simp only [parsed, Option.bind_some] at unnamed
          simp only [unnamed]
          exact ⟨_, rfl⟩

theorem handleCommand_start (env : CommandEnv) (arg : Option Bytes) (s : ProcState) :
    handleCommand env PROC_START arg s =
      if s.ebpfRunning then (s.writeLog .alreadyRunning).sendResponse .cmdEbpfErr
      else
        let (switched, s) := handleProcStatusCommand env arg true (s.writeLog .startingMonitoring)
        if switched then { s with ebpfRunning := true } else s := by
  have notList : startsWith PROC_START PROC_LIST = false := by decide
  have isStart : startsWith PROC_START PROC_START = true := by decide
  unfold handleCommand
  cases running : s.ebpfRunning <;> simp [notList, isStart]

theorem handleCommand_stop (env : CommandEnv) (arg : Option Bytes) (s : ProcState) :
    handleCommand env PROC_STOP arg s =
      if s.ebpfRunning then
        let (switched, s) := handleProcStatusCommand env arg false (s.writeLog .stoppingMonitoring)
        if switched then { s with ebpfRunning := false } else s
      else (s.writeLog .notRunning).sendResponse .cmdEbpfErr := by
  have notList : startsWith PROC_STOP PROC_LIST = false := by decide
  have notStart : startsWith PROC_STOP PROC_START = false := by decide
  have isStop : startsWith PROC_STOP PROC_STOP = true := by decide
  unfold handleCommand
  cases running : s.ebpfRunning <;> simp [notList, notStart, isStop]

theorem handleCommand_list (env : CommandEnv) (arg : Option Bytes) (s : ProcState) :
    handleCommand env PROC_LIST arg s = handleListCommand env arg s := by
  have isList : startsWith PROC_LIST PROC_LIST = true := by decide
  simp [handleCommand, isList]

theorem handleCommand_switched (env : CommandEnv) {opt : Bytes} {arg : Option Bytes}
    {s : ProcState} (status : Bool) {i : Nat}
    (spelled : opt = if status then PROC_START else PROC_STOP)
    (openGate : s.ebpfRunning = !status) (named : configIndex s arg = some i) :
    ∃ log, handleCommand env opt arg s =
      { setMonitorSwitch s i status env.now with
        ebpfRunning := status, logFile := log, responses := s.responses ++ [.cmdSuccess] } := by
  subst spelled
  cases status with
  | true =>
      obtain ⟨log, frame⟩ := handleProcStatusCommand_found env true
        (s := s.writeLog .startingMonitoring) named
      refine ⟨log, ?_⟩
      simp only [if_true, handleCommand_start, openGate, Bool.not_true, Bool.false_eq_true, if_false]
      rw [frame]
      rfl
  | false =>
      obtain ⟨log, frame⟩ := handleProcStatusCommand_found env false
        (s := s.writeLog .stoppingMonitoring) named
      refine ⟨log, ?_⟩
      simp only [Bool.false_eq_true, if_false, handleCommand_stop, openGate, Bool.not_false, if_true]
      rw [frame]
      rfl

theorem handleCommand_refused (env : CommandEnv) {opt : Bytes} (arg : Option Bytes)
    {s : ProcState} (status : Bool) (spelled : opt = if status then PROC_START else PROC_STOP)
    (refused : s.ebpfRunning = status ∨ configIndex s arg = none) :
    ∃ log code, handleCommand env opt arg s =
      { s with logFile := log, responses := s.responses ++ [code] } := by
  subst spelled
  cases status with
  | true =>
      simp only [if_true, handleCommand_start]
      by_cases running : s.ebpfRunning = true
      · rw [if_pos running]
        exact ⟨_, _, rfl⟩
      · obtain ⟨log, frame⟩ := handleProcStatusCommand_missing env true
          (s := s.writeLog .startingMonitoring) (refused.resolve_left running)
        rw [if_neg running, frame]
        exact ⟨_, _, rfl⟩
  | false =>
      simp only [Bool.false_eq_true, if_false, handleCommand_stop]
      by_cases running : s.ebpfRunning = true
      · obtain ⟨log, frame⟩ := handleProcStatusCommand_missing env false
          (s := s.writeLog .stoppingMonitoring) (refused.resolve_left (by simp [running]))
        rw [if_pos running, frame]
        exact ⟨_, _, rfl⟩
      · rw [if_neg running]
        exact ⟨_, _, rfl⟩

theorem switchCommand_eq_some {s : ProcState} {message : Bytes} {status : Bool} {i : Nat}
    (h : switchCommand s message = some (status, i)) : ∃ args,
      procSplitSpace (cstr message) = (if status then PROC_START else PROC_STOP) :: args ∧
        configIndex s args.head? = some i := by
  unfold switchCommand at h
  split at h
  · cases h
  · next opt args tokens =>
      split_ifs at h with spelled
      obtain ⟨j, named, same⟩ := Option.map_eq_some_iff.mp h
      obtain ⟨rfl, rfl⟩ := Prod.mk.inj same
      refine ⟨args, ?_, named⟩
      rcases spelled with rfl | rfl
      · simpa using tokens
      · have different : PROC_STOP ≠ PROC_START := by decide
        simpa [different] using tokens

theorem handleMessage_tokens {message opt : Bytes} {args : List Bytes}
    (tokens : procSplitSpace (cstr message) = opt :: args) (env : CommandEnv) (s : ProcState) :
    handleMessage env message s = if procIsValidOpt opt then handleCommand env opt args.head? s
      else s.sendResponse .cmdInvalid := by
  have nonempty : message ≠ [] := by
    rintro rfl
    cases tokens
  simp only [handleMessage, nonempty, if_false, tokens]

theorem procIsValidOpt_switch (status : Bool) :
    procIsValidOpt (if status then PROC_START else PROC_STOP) = true := by
  cases status <;> decide

theorem handleMessage_unswitched (env : CommandEnv) {message : Bytes} {s : ProcState}
    (command : switchCommand s message = none) : OnlyAnswers s (handleMessage env message s) := by
  cases tokens : procSplitSpace (cstr message) with
  | nil =>
      simp only [handleMessage, tokens]
      split_ifs <;> exact ⟨_, _, _, rfl⟩
  | cons opt args =>
      rw [handleMessage_tokens tokens]
      split_ifs with valid
      · simp only [procIsValidOpt, PROC_POSSIBLE_OPT_VALUES, List.mem_cons, List.not_mem_nil,
          or_false, decide_eq_true_eq] at valid
        have unnamed : opt = PROC_START ∨ opt = PROC_STOP → configIndex s args.head? = none := by
          intro spelled
          simpa [switchCommand, tokens, spelled] using command
        rcases valid with rfl | rfl | rfl
        · obtain ⟨log, code, frame⟩ := handleCommand_refused env args.head? true rfl
            (.inr (unnamed (.inl rfl)))
          exact ⟨log, _, s.outFile, frame⟩
        · obtain ⟨log, code, frame⟩ := handleCommand_refused env args.head? false rfl
            (.inr (unnamed (.inr rfl)))
          exact ⟨log, _, s.outFile, frame⟩
        · rw [handleCommand_list]
          exact handleListCommand_frame env args.head? s
      · exact ⟨_, _, _, rfl⟩

/-- What a message does: a switch command that passes the gate sets one config's switch and the
gate, everything else only answers. -/
theorem handleMessage_switch (env : CommandEnv) (message : Bytes) (s : ProcState) :
    (∃ status i log responses, switchCommand s message = some (status, i) ∧
      s.ebpfRunning = !status ∧
      handleMessage env message s = { setMonitorSwitch s i status env.now with
        ebpfRunning := status, logFile := log, responses := responses }) ∨
    ((∀ status i, switchCommand s message = some (status, i) → s.ebpfRunning = status) ∧
      OnlyAnswers s (handleMessage env message s)) := by
  cases command : switchCommand s message with
  | some target =>
      obtain ⟨status, i⟩ := target
      obtain ⟨args, tokens, named⟩ := switchCommand_eq_some command
      rw [handleMessage_tokens tokens, if_pos (procIsValidOpt_switch status)]
      by_cases refused : s.ebpfRunning = status
      · right
        obtain ⟨log, code, frame⟩ := handleCommand_refused env args.head? status rfl
          (.inl refused)
        refine ⟨?_, log, _, s.outFile, frame⟩
        intro status' i' same
        obtain ⟨rfl, rfl⟩ := Prod.mk.inj (Option.some.inj same)
        exact refused
      · left
        have openGate : s.ebpfRunning = !status := Bool.eq_not_of_ne refused
        obtain ⟨log, frame⟩ := handleCommand_switched env status rfl openGate named
        exact ⟨status, i, log, _, rfl, openGate, frame⟩
  | none =>
      right
      exact ⟨by simp, handleMessage_unswitched env command⟩

theorem handleMessage_switched (env : CommandEnv) {message : Bytes} {s : ProcState}
    {status : Bool} {i : Nat} (command : switchCommand s message = some (status, i))
    (openGate : s.ebpfRunning = !status) :
    ∃ log responses, handleMessage env message s = { setMonitorSwitch s i status env.now with
      ebpfRunning := status, logFile := log, responses := responses } := by
  rcases handleMessage_switch env message s with
    ⟨status', i', log, responses, command', -, frame⟩ | ⟨refused, -⟩
  · rw [command] at command'
    obtain ⟨rfl, rfl⟩ := Prod.mk.inj (Option.some.inj command')
    exact ⟨log, responses, frame⟩
  · have closed := refused status i command
    rw [closed] at openGate
    cases status <;> cases openGate

/-! ## The monitor thread -/

theorem runShell_frame (s : ProcState) (kind : ShellKind) (i : Nat)
    (command : ProcessConfig → CharBuf 256) (now : Time) :
    ∃ runs, s.runShell kind i command now = { s with shellRuns := runs } := by
  unfold ProcState.runShell
  split <;> exact ⟨_, rfl⟩

theorem logFor_frame (s : ProcState) (i : Nat) (line : CharBuf 64 → LogLine) :
    ∃ log, s.logFor i line = { s with logFile := log } := by
  unfold ProcState.logFor
  split <;> exact ⟨_, rfl⟩

def monitorConfigs (s : ProcState) : List ProcessConfig :=
  match s.monitor with
  | .givingUp _ i => (disableConfig s i).configs
  | .stamping currentTime i => (stampConfig s i currentTime).configs
  | _ => s.configs

theorem monitorStep_frame (env : MonitorEnv) (s : ProcState) : ∃ pc log runs, monitorStep env s =
    { s with configs := monitorConfigs s, monitor := pc, logFile := log, shellRuns := runs } := by
  unfold monitorStep monitorConfigs
  cases s.monitor with
  | sleeping => exact ⟨_, _, _, rfl⟩
  | scanning currentTime i =>
      dsimp only
      split
      · exact ⟨_, _, _, rfl⟩
      · split <;> exact ⟨_, _, _, rfl⟩
  | checking currentTime i =>
      dsimp only
      obtain ⟨runs, ran⟩ := runShell_frame s .monitor i ProcessConfig.monitorCmd env.now
      obtain ⟨log, logged⟩ := logFor_frame { s with shellRuns := runs } i
        fun name => .processStatus name env.checkStatus
      rw [ran, logged]
      split <;> exact ⟨_, _, _, rfl⟩
  | retrying currentTime i retryCount =>
      dsimp only
      obtain ⟨log, logged⟩ := logFor_frame s i
        fun name => .attemptingRestart name (retryCount + 1)
      obtain ⟨runs, ran⟩ := runShell_frame { s with logFile := log } .recover i
        ProcessConfig.recoverCmd env.now
      rw [logged, ran]
      split <;> exact ⟨_, _, _, rfl⟩
  | rechecking currentTime i retryCount =>
      dsimp only
      obtain ⟨runs, ran⟩ := runShell_frame s .monitor i ProcessConfig.monitorCmd env.now
      obtain ⟨log, logged⟩ := logFor_frame { s with shellRuns := runs } i .restarted
      rw [ran, logged]
      split <;> exact ⟨_, _, _, rfl⟩
  | alarming currentTime i =>
      dsimp only
      obtain ⟨log, logged⟩ := logFor_frame s i .restartFailed
      obtain ⟨runs, ran⟩ := runShell_frame { s with logFile := log } .alarm i
        ProcessConfig.alarmCmd env.now
      rw [logged, ran]
      exact ⟨_, _, _, rfl⟩
  | givingUp currentTime i => exact ⟨_, _, _, rfl⟩
  | stamping currentTime i => exact ⟨_, _, _, rfl⟩

end SysDetector.Proc
