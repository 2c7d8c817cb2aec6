import SysDetector.Library.Runs
import SysDetector.Proc.Tracking
import SysDetector.Proc.Commands
import SysDetector.Proc.MonitorLoop

namespace SysDetector.Proc
open CLib

inductive ProcStep
  | message (env : CommandEnv) (message : Bytes)
  | event (now : Time) (e : ProcEvent)
  | monitor (env : MonitorEnv)

def step (s : ProcState) : ProcStep → ProcState
  | .message env message => handleMessage env message s
  | .event now e => (handleEvent now e s).2
  | .monitor env => monitorStep env s

def ProcState.started (configs : List ProcessConfig) : ProcState :=
  { ProcState.initial configs with ebpfRunning := true }

/-! ## The inputs of the selftest -/

def selftestConfig (configId : UInt64) (monitorSwitch : Bool) : ProcessConfig where
  name := snprintf 64 (lit "sh")
  user := snprintf 32 (lit "root")
  recoverCmd := snprintf 256 (lit "true")
  monitorCmd := snprintf 256 (lit "true")
  stopCmd := snprintf 256 (lit "true")
  alarmCmd := snprintf 256 (lit "true")
  monitorPeriod := 1
  monitorSwitch := monitorSwitch
  configId := configId
  lastMonitorTime := 0

def shellEvent (type : EventType) (pid ppid : UInt32) : ProcEvent where
  type := type
  pid := pid
  ppid := ppid
  comm := snprintf TASK_COMM_LEN (lit "sh")
  filename := snprintf TASK_NAME_MAX (lit "/bin/sh")
  argv := fun _ => default
  stackId := 0

theorem shellEvent_enabled {s : ProcState} {configId : UInt64}
    (loaded : selftestConfig configId true ∈ s.configs) (type : EventType) (pid ppid : UInt32) :
    isEnabledConfiguredProcess s (shellEvent type pid ppid) = true := by
  unfold isEnabledConfiguredProcess
  rw [List.any_eq_true]
  refine ⟨_, loaded, ?_⟩
  have named : (snprintf 64 (lit "sh")).text == (snprintf TASK_COMM_LEN (lit "sh")).text := by
    decide
  simp [selftestConfig, shellEvent, named]

end SysDetector.Proc
