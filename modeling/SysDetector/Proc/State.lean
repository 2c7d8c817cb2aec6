import SysDetector.Library.CLib
import SysDetector.Library.SlotTable

/-!
# The state of the proc worker

The globals of `proc.c`, together with what the worker has written so far: its log file, the
responses it sent and the table it left in the output file.
-/

namespace SysDetector.Proc
open CLib

abbrev TASK_NAME_MAX : Nat := 256
abbrev TASK_COMM_LEN : Nat := 16
abbrev ARGV_MAX_ARGS : Nat := 6
abbrev ARGV_ARG_LEN : Nat := 64
abbrev ARGV_MAX_LEN : Nat := 256
def MAX_MSG_SIZE : Nat := 1024

-- Not to be unfolded: the tables are reasoned about at any size, never slot by slot.
@[irreducible] def MAX_TRACKED_PROCS : Nat := 4096

instance : NeZero MAX_TRACKED_PROCS := ⟨by unfold MAX_TRACKED_PROCS; decide⟩

instance : Nontrivial (Fin MAX_TRACKED_PROCS) := by
  unfold MAX_TRACKED_PROCS
  infer_instance

abbrev Time := Int

structure ProcessConfig where
  name : CharBuf 64
  user : CharBuf 32
  recoverCmd : CharBuf 256
  monitorCmd : CharBuf 256
  stopCmd : CharBuf 256
  alarmCmd : CharBuf 256
  monitorPeriod : Int32
  monitorSwitch : Bool
  configId : UInt64
  lastMonitorTime : Time
deriving DecidableEq

inductive EventType
  | exec
  | exit
  | fork
  | other
deriving DecidableEq

structure ProcEvent where
  type : EventType
  pid : UInt32
  ppid : UInt32
  comm : CharBuf TASK_COMM_LEN
  filename : CharBuf TASK_NAME_MAX
  argv : Fin ARGV_MAX_ARGS → CharBuf ARGV_ARG_LEN
  -- `exit_code` is left out: nothing reads it.
  stackId : UInt32

structure TrackedProcess where
  pid : UInt32
  ppid : UInt32
  comm : CharBuf TASK_COMM_LEN
  filename : CharBuf TASK_NAME_MAX
  argv : CharBuf ARGV_MAX_LEN
  firstSeen : Time
  lastSeen : Time
  active : Bool
deriving DecidableEq

structure ShortLivedCounter where
  comm : CharBuf TASK_COMM_LEN
  windowStart : Time
  count : Int32
  active : Bool
deriving DecidableEq

inductive ResponseCode
  | cmdSuccess
  | cmdInvalid
  | cmdEbpfErr
deriving DecidableEq

def ResponseCode.value : ResponseCode → Int32
  | .cmdSuccess => 0
  | .cmdInvalid => -1
  | .cmdEbpfErr => -2

/-- The messages given to `WRITE_LOG`, with their arguments; the time stamp that the macro puts
before each is left out. -/
inductive LogLine
  | missingConfigId (status : Bool)
  | invalidConfigId (arg : Bytes)
  /-- "Started monitoring for config ID: %lu", also when monitoring is being stopped. -/
  | startedMonitoring (configId : UInt64)
  | configIdNotFound (arg : Bytes)
  | openOutFileFailed
  | invalidListScope (scope : Bytes)
  | droppingTracked (pid : UInt32) (comm : CharBuf TASK_COMM_LEN)
  | suspiciousShell (pid : UInt32) (comm : CharBuf TASK_COMM_LEN) (argv : Bytes)
  | downloadToShell (pid : UInt32) (comm : CharBuf TASK_COMM_LEN) (argv : Bytes)
  | reverseShell (pid : UInt32) (comm : CharBuf TASK_COMM_LEN) (argv : Bytes)
  | inlineInterpreter (pid : UInt32) (comm : CharBuf TASK_COMM_LEN) (argv : Bytes)
  | proc (pid : UInt32) (comm : CharBuf TASK_COMM_LEN) (filename : CharBuf TASK_NAME_MAX)
      (argv : CharBuf ARGV_MAX_LEN) (runtime : Int)
  | shortLivedProcess (pid : UInt32) (comm : CharBuf TASK_COMM_LEN) (runtime : Int)
  | shortLivedBurst (comm : CharBuf TASK_COMM_LEN) (count : Int32)
  | fork (pid ppid : UInt32) (comm parentComm : CharBuf TASK_COMM_LEN) (stackId : UInt32)
  | exec (pid ppid : UInt32) (comm : CharBuf TASK_COMM_LEN) (filename : CharBuf TASK_NAME_MAX)
      (argv : Bytes) (stackId : UInt32)
  | exit (pid ppid : UInt32) (comm : CharBuf TASK_COMM_LEN) (stackId : UInt32)
  | startingMonitoring
  | alreadyRunning
  | stoppingMonitoring
  | notRunning
  | processStatus (name : CharBuf 64) (running : Bool)
  | attemptingRestart (name : CharBuf 64) (attempt : Nat)
  | restarted (name : CharBuf 64)
  | restartFailed (name : CharBuf 64)
deriving DecidableEq

structure ConfigRow where
  num : Nat
  config : ProcessConfig
deriving DecidableEq

structure TrackedRow where
  pid : UInt32
  ppid : UInt32
  comm : CharBuf TASK_COMM_LEN
  filename : CharBuf TASK_NAME_MAX
  runtime : Int
  argv : CharBuf ARGV_MAX_LEN
deriving DecidableEq

inductive Listing
  | config (rows : List ConfigRow)
  | tracked (rows : List TrackedRow)
deriving DecidableEq

inductive ShellKind
  | monitor
  | recover
  | alarm
deriving DecidableEq

structure ShellRun where
  kind : ShellKind
  index : Nat
  command : CharBuf 256
  start : Time
deriving DecidableEq

/-- Where the monitor thread stands, with its locals: the clock read at the start of the pass, the
index of the config at hand and the number of restarts tried. -/
inductive MonitorPc
  | sleeping
  | scanning (currentTime : Time) (i : Nat)
  | checking (currentTime : Time) (i : Nat)
  | retrying (currentTime : Time) (i retryCount : Nat)
  | rechecking (currentTime : Time) (i retryCount : Nat)
  | alarming (currentTime : Time) (i : Nat)
  | givingUp (currentTime : Time) (i : Nat)
  | stamping (currentTime : Time) (i : Nat)
deriving DecidableEq

structure ProcState where
  configs : List ProcessConfig
  ebpfRunning : Bool
  trackedProcs : Fin MAX_TRACKED_PROCS → TrackedProcess
  shortLivedCounters : Fin MAX_TRACKED_PROCS → ShortLivedCounter
  monitor : MonitorPc
  logFile : List LogLine
  responses : List ResponseCode
  outFile : Option Listing
  shellRuns : List ShellRun

def TrackedProcess.zero : TrackedProcess where
  pid := 0
  ppid := 0
  comm := default
  filename := default
  argv := default
  firstSeen := 0
  lastSeen := 0
  active := false

def ShortLivedCounter.zero : ShortLivedCounter where
  comm := default
  windowStart := 0
  count := 0
  active := false

def ProcState.initial (configs : List ProcessConfig) : ProcState where
  configs := configs
  ebpfRunning := false
  trackedProcs := fun _ => .zero
  shortLivedCounters := fun _ => .zero
  monitor := .sleeping
  logFile := []
  responses := []
  outFile := none
  shellRuns := []

namespace ProcState

def writeLog (s : ProcState) (line : LogLine) : ProcState :=
  { s with logFile := s.logFile ++ [line] }

theorem foldl_writeLog (lines : List LogLine) (s : ProcState) :
    lines.foldl writeLog s = { s with logFile := s.logFile ++ lines } := by
  induction lines generalizing s with
  | nil => simp
  | cons line lines ih => simp [ih, writeLog]

/-- The response queue exists whenever a command arrives: the server creates it before sending. -/
def sendResponse (s : ProcState) (code : ResponseCode) : ProcState :=
  { s with responses := s.responses ++ [code] }

@[simp] theorem writeLog_responses (s : ProcState) (line : LogLine) :
    (s.writeLog line).responses = s.responses := rfl

@[simp] theorem sendResponse_responses (s : ProcState) (code : ResponseCode) :
    (s.sendResponse code).responses = s.responses ++ [code] := rfl

def setTracked (s : ProcState) (i : Fin MAX_TRACKED_PROCS) (proc : TrackedProcess) : ProcState :=
  { s with trackedProcs := Function.update s.trackedProcs i proc }

def setCounter (s : ProcState) (i : Fin MAX_TRACKED_PROCS) (counter : ShortLivedCounter) :
    ProcState :=
  { s with shortLivedCounters := Function.update s.shortLivedCounters i counter }

end ProcState

end SysDetector.Proc
