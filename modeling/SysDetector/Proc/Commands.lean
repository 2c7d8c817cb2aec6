import SysDetector.Proc.State

namespace SysDetector.Proc
open CLib

def PROC_START : Bytes := lit "start"
def PROC_STOP : Bytes := lit "stop"
def PROC_LIST : Bytes := lit "list"
def PROC_POSSIBLE_OPT_VALUES : List Bytes := [PROC_START, PROC_STOP, PROC_LIST]

structure CommandEnv where
  now : Time
  outFileOpens : Bool
deriving DecidableEq

def setMonitorSwitch (s : ProcState) (i : Nat) (status : Bool) (now : Time) : ProcState :=
  { s with configs := s.configs.modify i fun config =>
      { config with monitorSwitch := status, lastMonitorTime := now } }

def handleProcStatusCommand (env : CommandEnv) (configIdStr : Option Bytes) (status : Bool)
    (s : ProcState) : Bool × ProcState :=
  match configIdStr with
  | none => (false, (s.writeLog (.missingConfigId status)).sendResponse .cmdInvalid)
  | some arg =>
      match strtoul arg with
      | none => (false, (s.writeLog (.invalidConfigId arg)).sendResponse .cmdInvalid)
      | some configId =>
          match s.configs.findIdx? fun config => config.configId == configId with
          | some i =>
              (true, ((setMonitorSwitch s i status env.now).writeLog
                (.startedMonitoring configId)).sendResponse .cmdSuccess)
          | none => (false, (s.writeLog (.configIdNotFound arg)).sendResponse .cmdInvalid)

/-- A failed open is logged and answered here; the callers answer once more. -/
def openProcOutFile (env : CommandEnv) (s : ProcState) : Bool × ProcState :=
  if env.outFileOpens then (true, s)
  else (false, (s.writeLog .openOutFileFailed).sendResponse .cmdEbpfErr)

def configRows (s : ProcState) : List ConfigRow :=
  s.configs.zipIdx.map fun (config, i) => ⟨i, config⟩

def trackedRow (now : Time) (proc : TrackedProcess) : TrackedRow where
  pid := proc.pid
  ppid := proc.ppid
  comm := proc.comm
  filename := proc.filename
  runtime := now - proc.firstSeen
  argv := proc.argv

def trackedRows (now : Time) (s : ProcState) : List TrackedRow :=
  ((List.ofFn s.trackedProcs).filter TrackedProcess.active).map (trackedRow now)

def handleConfigListCommand (env : CommandEnv) (s : ProcState) : ProcState :=
  let (opened, s) := openProcOutFile env s
  if opened then { s with outFile := some (.config (configRows s)) } else s

def handleTrackedListCommand (env : CommandEnv) (s : ProcState) : ProcState :=
  let (opened, s) := openProcOutFile env s
  if opened then { s with outFile := some (.tracked (trackedRows env.now s)) } else s

def handleListCommand (env : CommandEnv) (scope : Option Bytes) (s : ProcState) : ProcState :=
  if scope = none ∨ scope = some (lit "config") then
    (handleConfigListCommand env s).sendResponse .cmdSuccess
  else if scope = some (lit "tracked") then
    (handleTrackedListCommand env s).sendResponse .cmdSuccess
  else (s.writeLog (.invalidListScope (scope.getD []))).sendResponse .cmdInvalid

def handleCommand (env : CommandEnv) (opt : Bytes) (arg : Option Bytes) (s : ProcState) :
    ProcState :=
  if startsWith opt PROC_LIST then handleListCommand env arg s
  else if startsWith opt PROC_START then
    if !s.ebpfRunning then
      let (switched, s) := handleProcStatusCommand env arg true (s.writeLog .startingMonitoring)
      if switched then { s with ebpfRunning := true } else s
    else (s.writeLog .alreadyRunning).sendResponse .cmdEbpfErr
  else if startsWith opt PROC_STOP then
    if s.ebpfRunning then
      let (switched, s) := handleProcStatusCommand env arg false (s.writeLog .stoppingMonitoring)
      if switched then { s with ebpfRunning := false } else s
    else (s.writeLog .notRunning).sendResponse .cmdEbpfErr
  else s.sendResponse .cmdInvalid

def procSplitSpace (buffer : Bytes) : List Bytes := (strtok 32 buffer).take (MAX_MSG_SIZE - 1)

def procIsValidOpt (opt : Bytes) : Bool := opt ∈ PROC_POSSIBLE_OPT_VALUES

def handleMessage (env : CommandEnv) (message : Bytes) (s : ProcState) : ProcState :=
  -- Nothing is done on a message of no bytes, for which `bytes_read > 0` fails.
  if message = [] then s
  else
    match procSplitSpace (cstr message) with
    | [] => s.sendResponse .cmdInvalid
    | opt :: args =>
        if procIsValidOpt opt then handleCommand env opt args.head? s
        else s.sendResponse .cmdInvalid

end SysDetector.Proc
