import SysDetector.Proc.State

namespace SysDetector.Proc

structure MonitorEnv where
  now : Time
  checkStatus : Bool
deriving DecidableEq

def MAX_RESTARTS : Nat := 3

def ProcState.runShell (s : ProcState) (kind : ShellKind) (i : Nat)
    (command : ProcessConfig → CLib.CharBuf 256) (now : Time) : ProcState :=
  match s.configs[i]? with
  | some config =>
      { s with shellRuns := s.shellRuns ++ [⟨kind, i, command config, now⟩] }
  | none => s

def ProcState.logFor (s : ProcState) (i : Nat) (line : CLib.CharBuf 64 → LogLine) : ProcState :=
  match s.configs[i]? with
  | some config => s.writeLog (line config.name)
  | none => s

def ProcState.goto (s : ProcState) (pc : MonitorPc) : ProcState := { s with monitor := pc }

def isDue (currentTime : Time) (config : ProcessConfig) : Bool :=
  config.monitorSwitch && config.monitorPeriod.toInt ≤ currentTime - config.lastMonitorTime

def disableConfig (s : ProcState) (i : Nat) : ProcState :=
  { s with configs := s.configs.modify i fun config => { config with monitorSwitch := false } }

def stampConfig (s : ProcState) (i : Nat) (currentTime : Time) : ProcState :=
  { s with configs := s.configs.modify i fun config =>
      { config with lastMonitorTime := currentTime } }

def monitorStep (env : MonitorEnv) (s : ProcState) : ProcState :=
  match s.monitor with
  | .sleeping => s.goto (.scanning env.now 0)
  | .scanning currentTime i =>
      match s.configs[i]? with
      | none => s.goto .sleeping
      | some config =>
          if isDue currentTime config then s.goto (.checking currentTime i)
          else s.goto (.scanning currentTime (i + 1))
  | .checking currentTime i =>
      let s := s.runShell .monitor i ProcessConfig.monitorCmd env.now
      let s := s.logFor i fun name => .processStatus name env.checkStatus
      if env.checkStatus then s.goto (.stamping currentTime i)
      else s.goto (.retrying currentTime i 0)
  | .retrying currentTime i retryCount =>
      if retryCount < MAX_RESTARTS then
        let s := s.logFor i fun name => .attemptingRestart name (retryCount + 1)
        let s := s.runShell .recover i ProcessConfig.recoverCmd env.now
        s.goto (.rechecking currentTime i retryCount)
      else s.goto (.alarming currentTime i)
  | .rechecking currentTime i retryCount =>
      let s := s.runShell .monitor i ProcessConfig.monitorCmd env.now
      if env.checkStatus then (s.logFor i .restarted).goto (.stamping currentTime i)
      else s.goto (.retrying currentTime i (retryCount + 1))
  | .alarming currentTime i =>
      let s := s.logFor i .restartFailed
      let s := s.runShell .alarm i ProcessConfig.alarmCmd env.now
      s.goto (.givingUp currentTime i)
  | .givingUp currentTime i => (disableConfig s i).goto (.stamping currentTime i)
  | .stamping currentTime i =>
      (stampConfig s i currentTime).goto (.scanning currentTime (i + 1))

end SysDetector.Proc
