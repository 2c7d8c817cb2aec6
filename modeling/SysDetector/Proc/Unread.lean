import SysDetector.Library.Refinement
import SysDetector.Proc.Statements

namespace SysDetector.Proc
open CLib Runs

structure Redress where
  lines : List LogLine
  user : CharBuf 32 → CharBuf 32
  stopCmd : CharBuf 256 → CharBuf 256

variable (d : Redress)

def Redress.config (config : ProcessConfig) : ProcessConfig :=
  { config with user := d.user config.user, stopCmd := d.stopCmd config.stopCmd }

def Redress.listing : Listing → Listing
  | .config rows => .config (rows.map fun row => ⟨row.num, d.config row.config⟩)
  | .tracked rows => .tracked rows

def Redress.state (s : ProcState) : ProcState :=
  { s with
    configs := s.configs.map d.config
    logFile := d.lines ++ s.logFile
    outFile := s.outFile.map d.listing }

variable {d}

@[simp] theorem writeLog_redress (s : ProcState) (line : LogLine) :
    (d.state s).writeLog line = d.state (s.writeLog line) := by
  simp [ProcState.writeLog, Redress.state]

@[simp] theorem sendResponse_redress (s : ProcState) (code : ResponseCode) :
    (d.state s).sendResponse code = d.state (s.sendResponse code) := rfl

theorem setTracked_redress (s : ProcState) (i : Fin MAX_TRACKED_PROCS) (proc : TrackedProcess) :
    (d.state s).setTracked i proc = d.state (s.setTracked i proc) := rfl

/-! ## Events -/

theorem isEnabledConfiguredProcess_redress (s : ProcState) (e : ProcEvent) :
    isEnabledConfiguredProcess (d.state s) e = isEnabledConfiguredProcess s e := by
  unfold isEnabledConfiguredProcess
  show (s.configs.map d.config).any _ = _
  rw [List.any_map]
  rfl

theorem trackedSlotFor_redress (s : ProcState) (pid : UInt32) :
    trackedSlotFor (d.state s) pid =
      ((trackedSlotFor s pid).1, d.state (trackedSlotFor s pid).2) := by
  have same : findTrackedProcess (d.state s) pid = findTrackedProcess s pid := rfl
  have table : (d.state s).trackedProcs = s.trackedProcs := rfl
  unfold trackedSlotFor allocTrackedProcessSlot
  rw [same, table]
  cases findTrackedProcess s pid with
  | some i => rfl
  | none =>
      dsimp only
      rw [writeLog_redress, apply_ite d.state]

theorem detectSuspiciousExec_redress (e : ProcEvent) (argv : Bytes) (s : ProcState) :
    detectSuspiciousExec e argv (d.state s) = d.state (detectSuspiciousExec e argv s) := by
  unfold detectSuspiciousExec
  rw [ProcState.foldl_writeLog, ProcState.foldl_writeLog]
  simp [Redress.state]

theorem trackProcExec_redress (now : Time) (e : ProcEvent) (s : ProcState) :
    trackProcExec now e (d.state s) =
      ((trackProcExec now e s).1, d.state (trackProcExec now e s).2) := by
  unfold trackProcExec
  rw [isEnabledConfiguredProcess_redress, trackedSlotFor_redress]
  dsimp only
  rw [setTracked_redress, detectSuspiciousExec_redress]
  split_ifs <;> rfl

theorem procEventExec_redress (now : Time) (e : ProcEvent) (s : ProcState) :
    procEventExec now e (d.state s) = d.state (procEventExec now e s) := by
  unfold procEventExec
  rw [isEnabledConfiguredProcess_redress, trackProcExec_redress]
  dsimp only
  rw [writeLog_redress]
  split_ifs <;> rfl

theorem recordShortLivedProcess_redress (proc : TrackedProcess) (runtime : Int) (now : Time)
    (s : ProcState) :
    recordShortLivedProcess proc runtime now (d.state s) =
      d.state (recordShortLivedProcess proc runtime now s) := by
  have same : shortLivedCounterFor (d.state s) proc.comm now =
      shortLivedCounterFor s proc.comm now := rfl
  have counter : ∀ i c, (d.state s).setCounter i c = d.state (s.setCounter i c) := fun _ _ => rfl
  unfold recordShortLivedProcess
  rw [same]
  dsimp only
  rw [counter, writeLog_redress, writeLog_redress, apply_ite d.state]

theorem trackProcExit_redress (now : Time) (e : ProcEvent) (s : ProcState) :
    trackProcExit now e (d.state s) =
      ((trackProcExit now e s).1, d.state (trackProcExit now e s).2) := by
  have tracked : isTrackedOrEnabledConfiguredProcess (d.state s) e =
      isTrackedOrEnabledConfiguredProcess s e := by
    unfold isTrackedOrEnabledConfiguredProcess
    rw [isEnabledConfiguredProcess_redress]
    rfl
  have same : findTrackedProcess (d.state s) e.pid = findTrackedProcess s e.pid := rfl
  have table : (d.state s).trackedProcs = s.trackedProcs := rfl
  unfold trackProcExit
  rw [tracked, same]
  split_ifs
  · cases findTrackedProcess s e.pid with
    | none => rfl
    | some slot =>
        dsimp only
        rw [table, setTracked_redress, writeLog_redress, recordShortLivedProcess_redress,
          ← apply_ite d.state, setTracked_redress]
  · rfl

theorem procEventExit_redress (now : Time) (e : ProcEvent) (s : ProcState) :
    procEventExit now e (d.state s) = d.state (procEventExit now e s) := by
  unfold procEventExit
  rw [trackProcExit_redress]
  dsimp only
  rw [writeLog_redress, apply_ite d.state]

theorem procEventFork_redress (now : Time) (e : ProcEvent) (s : ProcState) :
    procEventFork now e (d.state s) = d.state (procEventFork now e s) := by
  have same : findTrackedProcess (d.state s) e.ppid = findTrackedProcess s e.ppid := rfl
  unfold procEventFork trackProcFork
  rw [same, trackedSlotFor_redress]
  cases findTrackedProcess s e.ppid with
  | none => rfl
  | some parent =>
      have table : ∀ s : ProcState, (d.state s).trackedProcs = s.trackedProcs := fun _ => rfl
      dsimp only
      rw [table, setTracked_redress, table, writeLog_redress]

theorem handleEvent_redress (now : Time) (e : ProcEvent) (s : ProcState) :
    (handleEvent now e (d.state s)).2 = d.state (handleEvent now e s).2 := by
  have running : (d.state s).ebpfRunning = s.ebpfRunning := rfl
  unfold handleEvent
  rw [running]
  split_ifs
  · cases e.type with
    | exec => exact procEventExec_redress now e s
    | exit => exact procEventExit_redress now e s
    | fork => exact procEventFork_redress now e s
    | other => rfl
  · rfl

/-! ## Commands -/

theorem modify_redress (f : ProcessConfig → ProcessConfig)
    (own : ∀ config, f (d.config config) = d.config (f config)) (s : ProcState) (i : Nat) :
    { d.state s with configs := (d.state s).configs.modify i f } =
      d.state { s with configs := s.configs.modify i f } := by
  have same : (s.configs.map d.config).modify i f = (s.configs.modify i f).map d.config := by
    apply List.ext_getElem?
    intro j
    rw [List.getElem?_modify, List.getElem?_map, List.getElem?_map, List.getElem?_modify]
    cases s.configs[j]? with
    | none => rfl
    | some config =>
        simp only [Option.map_eq_map, Option.map_some]
        split_ifs
        · rw [own]
        · rfl
  show { d.state s with configs := (s.configs.map d.config).modify i f } = _
  rw [same]
  rfl

theorem findIdx?_redress (s : ProcState) (configId : UInt64) :
    ((d.state s).configs.findIdx? fun config => config.configId == configId) =
      s.configs.findIdx? fun config => config.configId == configId := by
  show (s.configs.map d.config).findIdx? _ = _
  rw [List.findIdx?_map]
  rfl

theorem setMonitorSwitch_redress (s : ProcState) (i : Nat) (status : Bool) (now : Time) :
    setMonitorSwitch (d.state s) i status now = d.state (setMonitorSwitch s i status now) :=
  modify_redress (fun config => { config with monitorSwitch := status, lastMonitorTime := now })
    (fun _ => rfl) s i

theorem handleProcStatusCommand_redress (env : CommandEnv) (arg : Option Bytes) (status : Bool)
    (s : ProcState) :
    handleProcStatusCommand env arg status (d.state s) =
      ((handleProcStatusCommand env arg status s).1,
        d.state (handleProcStatusCommand env arg status s).2) := by
  unfold handleProcStatusCommand
  cases arg with
  | none =>
      dsimp only
      rw [writeLog_redress, sendResponse_redress]
  | some text =>
      dsimp only
      cases strtoul text with
      | none =>
          dsimp only
          rw [writeLog_redress, sendResponse_redress]
      | some configId =>
          dsimp only
          rw [findIdx?_redress]
          cases s.configs.findIdx? fun config => config.configId == configId with
          | none =>
              dsimp only
              rw [writeLog_redress, sendResponse_redress]
          | some i =>
              dsimp only
              rw [setMonitorSwitch_redress, writeLog_redress, sendResponse_redress]

theorem openProcOutFile_redress (env : CommandEnv) (s : ProcState) :
    openProcOutFile env (d.state s) =
      ((openProcOutFile env s).1, d.state (openProcOutFile env s).2) := by
  unfold openProcOutFile
  rw [writeLog_redress, sendResponse_redress]
  split_ifs <;> rfl

theorem handleConfigListCommand_redress (env : CommandEnv) (s : ProcState) :
    handleConfigListCommand env (d.state s) = d.state (handleConfigListCommand env s) := by
  have rows : ∀ s, some (Listing.config (configRows (d.state s))) =
      (some (Listing.config (configRows s))).map d.listing := by
    intro s
    show some (Listing.config (((s.configs.map d.config).zipIdx.map _))) = _
    simp [configRows, Redress.listing, List.zipIdx_map]
  unfold handleConfigListCommand
  rw [openProcOutFile_redress]
  dsimp only
  rw [rows]
  split_ifs <;> rfl

theorem handleTrackedListCommand_redress (env : CommandEnv) (s : ProcState) :
    handleTrackedListCommand env (d.state s) = d.state (handleTrackedListCommand env s) := by
  unfold handleTrackedListCommand
  rw [openProcOutFile_redress]
  dsimp only
  split_ifs <;> rfl

theorem handleListCommand_redress (env : CommandEnv) (scope : Option Bytes) (s : ProcState) :
    handleListCommand env scope (d.state s) = d.state (handleListCommand env scope s) := by
  unfold handleListCommand
  rw [handleConfigListCommand_redress, handleTrackedListCommand_redress, writeLog_redress,
    sendResponse_redress, sendResponse_redress, sendResponse_redress]
  split_ifs <;> rfl

theorem handleCommand_redress (env : CommandEnv) (opt : Bytes) (arg : Option Bytes)
    (s : ProcState) : handleCommand env opt arg (d.state s) = d.state (handleCommand env opt arg s) := by
  have running : (d.state s).ebpfRunning = s.ebpfRunning := rfl
  unfold handleCommand
  simp only [running, handleListCommand_redress, writeLog_redress, sendResponse_redress,
    handleProcStatusCommand_redress]
  split_ifs <;> rfl

theorem handleMessage_redress (env : CommandEnv) (message : Bytes) (s : ProcState) :
    handleMessage env message (d.state s) = d.state (handleMessage env message s) := by
  unfold handleMessage
  split_ifs
  · rfl
  · cases procSplitSpace (cstr message) with
    | nil => rfl
    | cons opt args =>
        dsimp only
        rw [handleCommand_redress, sendResponse_redress, apply_ite d.state]

/-! ## The monitor thread -/

theorem runShell_redress (s : ProcState) (kind : ShellKind) (i : Nat)
    {command : ProcessConfig → CharBuf 256} (own : ∀ c, command (d.config c) = command c)
    (now : Time) :
    (d.state s).runShell kind i command now = d.state (s.runShell kind i command now) := by
  have config : (d.state s).configs[i]? = s.configs[i]?.map d.config := List.getElem?_map
  unfold ProcState.runShell
  rw [config]
  cases s.configs[i]? with
  | none => rfl
  | some config =>
      rw [Option.map_some]
      dsimp only
      rw [own]
      rfl

theorem logFor_redress (s : ProcState) (i : Nat) (line : CharBuf 64 → LogLine) :
    (d.state s).logFor i line = d.state (s.logFor i line) := by
  have config : (d.state s).configs[i]? = s.configs[i]?.map d.config := List.getElem?_map
  unfold ProcState.logFor
  rw [config]
  cases s.configs[i]? with
  | none => rfl
  | some config => exact writeLog_redress s _

theorem setSwitch_redress (s : ProcState) (i : Nat) (status : Bool) :
    setSwitch (d.state s) i status = d.state (setSwitch s i status) :=
  modify_redress (fun config => { config with monitorSwitch := status }) (fun _ => rfl) s i

theorem stampConfig_redress (s : ProcState) (i : Nat) (t : Time) :
    stampConfig (d.state s) i t = d.state (stampConfig s i t) :=
  modify_redress (fun config => { config with lastMonitorTime := t }) (fun _ => rfl) s i

theorem disableConfig_redress (s : ProcState) (i : Nat) :
    disableConfig (d.state s) i = d.state (disableConfig s i) :=
  modify_redress (fun config => { config with monitorSwitch := false }) (fun _ => rfl) s i

theorem monitorStep_redress (env : MonitorEnv) (s : ProcState) :
    monitorStep env (d.state s) = d.state (monitorStep env s) := by
  have pc : (d.state s).monitor = s.monitor := rfl
  unfold monitorStep
  rw [pc]
  cases s.monitor with
  | sleeping => rfl
  | scanning t i =>
      have config : (d.state s).configs[i]? = s.configs[i]?.map d.config := List.getElem?_map
      dsimp only
      rw [config]
      cases s.configs[i]? with
      | none => rfl
      | some config =>
          have due : isDue t (d.config config) = isDue t config := rfl
          rw [Option.map_some]
          dsimp only
          rw [due]
          split_ifs <;> rfl
  | checking t i =>
      dsimp only
      rw [runShell_redress s .monitor i (fun _ => rfl), logFor_redress]
      split_ifs <;> rfl
  | retrying t i n =>
      dsimp only
      rw [logFor_redress, runShell_redress _ .recover i (fun _ => rfl)]
      split_ifs <;> rfl
  | rechecking t i n =>
      dsimp only
      rw [runShell_redress s .monitor i (fun _ => rfl), logFor_redress]
      split_ifs <;> rfl
  | alarming t i =>
      dsimp only
      rw [logFor_redress, runShell_redress _ .alarm i (fun _ => rfl)]
      rfl
  | givingUp t i =>
      dsimp only
      rw [disableConfig_redress]
      rfl
  | stamping t i =>
      dsimp only
      rw [stampConfig_redress]
      rfl

/-! ## Runs -/

def Redress.threads (d : Redress) (s : ThreadState) : ThreadState := { s with proc := d.state s.proc }

theorem switchCommand_redress (s : ProcState) (message : Bytes) :
    switchCommand (d.state s) message = switchCommand s message := by
  have index : ∀ arg, configIndex (d.state s) arg = configIndex s arg := by
    intro arg
    unfold configIndex
    rw [funext (findIdx?_redress s)]
  unfold switchCommand
  split
  · rfl
  · rw [index]

theorem takeMessage_redress (env : CommandEnv) (message : Bytes) (s : ThreadState) :
    takeMessage env message (d.threads s) = d.threads (takeMessage env message s) := by
  have gate : (d.threads s).proc.ebpfRunning = s.proc.ebpfRunning := rfl
  have answered : handleMessage env message (d.threads s).proc =
      d.state (handleMessage env message s.proc) := handleMessage_redress env message s.proc
  have logged : ∀ line, (d.threads s).proc.writeLog line = d.state (s.proc.writeLog line) :=
    writeLog_redress s.proc
  unfold takeMessage
  rw [gate, answered, show switchCommand (d.threads s).proc message = switchCommand s.proc message
    from switchCommand_redress s.proc message]
  cases switchCommand s.proc message with
  | none => rfl
  | some target =>
      obtain ⟨status, i⟩ := target
      dsimp only
      rw [logged]
      split_ifs <;> rfl

theorem answerSwitch_redress (s : ProcState) (i : Nat) :
    answerSwitch (d.state s) i = d.state (answerSwitch s i) := by
  have config : (d.state s).configs[i]? = s.configs[i]?.map d.config := List.getElem?_map
  unfold answerSwitch
  rw [config]
  cases s.configs[i]? with
  | none => rfl
  | some config =>
      rw [Option.map_some]
      dsimp only
      rw [writeLog_redress, sendResponse_redress]
      rfl

theorem mainStatement_redress (now : Time) (s : ThreadState) :
    mainStatement now (d.threads s) = d.threads (mainStatement now s) := by
  have main : (d.threads s).main = s.main := rfl
  unfold mainStatement
  rw [main]
  cases s.main with
  | waiting => rfl
  | switching i status =>
      exact congrArg (fun proc => ThreadState.mk proc _ _) (setSwitch_redress s.proc i status)
  | timing i status =>
      exact congrArg (fun proc => ThreadState.mk proc _ _) (stampConfig_redress s.proc i now)
  | answering i status =>
      exact congrArg (fun proc => ThreadState.mk proc _ _) (answerSwitch_redress s.proc i)
  | marking status => rfl

theorem monitorAct_redress (env : MonitorEnv) (s : ProcState) :
    monitorAct env (d.state s) = monitorAct env s := by
  have pc : (d.state s).monitor = s.monitor := rfl
  unfold monitorAct
  rw [pc]
  cases s.monitor with
  | scanning t i =>
      have config : (d.state s).configs[i]? = s.configs[i]?.map d.config := List.getElem?_map
      dsimp only
      rw [config]
      cases s.configs[i]? <;> rfl
  | _ => rfl

theorem threadStep_redress (s : ThreadState) (input : ThreadStep) :
    threadStep (d.threads s) input = d.threads (threadStep s input) := by
  have main : (d.threads s).main = s.main := rfl
  cases input with
  | message env message =>
      rw [threadStep, threadStep, main, takeMessage_redress, apply_ite d.threads]
  | main now => exact mainStatement_redress now s
  | event now e =>
      rw [threadStep, threadStep, main, apply_ite d.threads]
      have handled : (handleEvent now e (d.threads s).proc).2 = d.state (handleEvent now e s.proc).2 :=
        handleEvent_redress now e s.proc
      rw [handled]
      rfl
  | monitor env =>
      have stepped : monitorStep env (d.threads s).proc = d.state (monitorStep env s.proc) :=
        monitorStep_redress env s.proc
      rw [threadStep, threadStep, stepped, show monitorAct env (d.threads s).proc =
        monitorAct env s.proc from monitorAct_redress env s.proc]
      rfl

def blank : Redress where
  lines := []
  user := fun _ => default
  stopCmd := fun _ => default

/-- Whatever the columns USER and STOP_COMMAND hold: with the same inputs, the worker takes the same
way, the responses, the log file, the commands that are run and the tables being the same but for
the two columns of the listed configs. -/
theorem unused_columns (configs configs' : List ProcessConfig) (steps : List ThreadStep)
    (same : configs.map blank.config = configs'.map blank.config) :
    blank.threads (run threadStep (.start configs) steps) =
      blank.threads (run threadStep (.start configs') steps) := by
  have start : blank.threads (.start configs) = blank.threads (.start configs') := by
    simp only [Redress.threads, Redress.state, ThreadState.start, ProcState.initial, same]
  have map := run_map (threadStep_redress (d := blank))
  rw [← map, ← map, start]

theorem unused_columns_user :
    blank.threads (run threadStep (.start [selftestConfig 7 true]) [.monitor ⟨100, true⟩]) =
      blank.threads (run threadStep
        (.start [{ selftestConfig 7 true with user := snprintf 32 (lit "nobody") }])
        [.monitor ⟨100, true⟩]) :=
  unused_columns _ _ _ rfl

end SysDetector.Proc
