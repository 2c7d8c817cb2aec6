import SysDetector.Fs.ConfigFiles
import SysDetector.Fs.Watching

namespace SysDetector.Fs
open CLib

structure CommandEnv where
  watches : WatchEnv
  outFileOpens : Bool

def configRows (s : FsState) : List ConfigRow :=
  (List.range s.configCount).map fun i => ⟨i, s.configs i⟩

def eventRows (s : FsState) : List FsEventRecord :=
  (List.range s.eventCount).map fun i => s.events ((s.eventCursor + i) % MAX_EVENTS)

def listConfigs (env : CommandEnv) (s : FsState) : FsState :=
  if env.outFileOpens then { s with outFile := some (.config (configRows s)) } else s

def listEvents (env : CommandEnv) (s : FsState) : FsState :=
  if env.outFileOpens then { s with outFile := some (.events (eventRows s)) } else s

def switchTable (s : FsState) (i : Nat) (status : Bool) : FsState :=
  let s := s.setConfig i { s.configs i with monitorSwitch := status }
  loadConfigs (writeConfigFile (s.configs i) s)

/-- The branches for `start` and `stop`. The line logged at the end reads the place where the
config was before its file was rewritten and the configs loaded again. -/
def switchConfig (env : CommandEnv) (arg : Bytes) (status : Bool) (s : FsState) : FsState :=
  match findConfig s (atoi arg) with
  | none => s.sendResponse 1
  | some i =>
      let s := rebuildWatches env.watches (switchTable s i status)
      let s := s.logLine (if status then .startedMonitoring (s.configs i).id
        else .stoppedMonitoring (s.configs i).id)
      s.sendResponse 0

def listCommand (env : CommandEnv) (scope : Option Bytes) (s : FsState) : FsState :=
  if scope = none ∨ scope = some (lit "config") then (listConfigs env s).sendResponse 0
  else if scope = some (lit "events") then (listEvents env s).sendResponse 0
  else s.sendResponse 1

def splitCommand (cmd : Bytes) : List Bytes := (strtok 32 cmd).take 3

def handleCommand (env : CommandEnv) (cmd : Bytes) (s : FsState) : FsState :=
  match splitCommand cmd with
  | [] => s.sendResponse 1
  | opt :: args =>
      let s := loadConfigs s
      match args.head? with
      | some arg =>
          if opt = lit "start" then switchConfig env arg true s
          else if opt = lit "stop" then switchConfig env arg false s
          else if opt = lit "list" then listCommand env (some arg) s
          else s.sendResponse 1
      | none => if opt = lit "list" then listCommand env none s else s.sendResponse 1

def handleMessage (env : CommandEnv) (message : Bytes) (s : FsState) : FsState :=
  if message = [] then s else handleCommand env (cstr message) s

end SysDetector.Fs
