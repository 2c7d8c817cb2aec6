import SysDetector.Library.KeyLines
import SysDetector.Proc.State

namespace SysDetector.Proc
open CLib

def MAX_LINE_LENGTH : Nat := 1024

def ProcessConfig.defaults (configId : UInt64) : ProcessConfig where
  name := default
  user := default
  recoverCmd := default
  monitorCmd := default
  stopCmd := default
  alarmCmd := default
  monitorPeriod := 3
  monitorSwitch := false
  configId := configId
  lastMonitorTime := 0

/-! ## Values -/

def parseMonitorPeriod (value : Bytes) (config : ProcessConfig) : Option ProcessConfig :=
  if strtolRest value ≠ [] ∨ strtol value < 1 then none
  else some { config with monitorPeriod := Int32.ofInt (strtol value) }

def parseMonitorSwitch (value : Bytes) (config : ProcessConfig) : Option ProcessConfig :=
  if strcaseeq value (lit "on") then some { config with monitorSwitch := true }
  else if strcaseeq value (lit "off") then some { config with monitorSwitch := false }
  else none

def parseUser (value : Bytes) (config : ProcessConfig) : Option ProcessConfig :=
  some { config with user := snprintf 32 value }

def parseName (value : Bytes) (config : ProcessConfig) : Option ProcessConfig :=
  some { config with name := snprintf 64 value }

def parseRecoverCommand (value : Bytes) (config : ProcessConfig) : Option ProcessConfig :=
  some { config with recoverCmd := snprintf 256 value }

def parseMonitorCommand (value : Bytes) (config : ProcessConfig) : Option ProcessConfig :=
  some { config with monitorCmd := snprintf 256 value }

def parseStopCommand (value : Bytes) (config : ProcessConfig) : Option ProcessConfig :=
  some { config with stopCmd := snprintf 256 value }

def parseAlarmCommand (value : Bytes) (config : ProcessConfig) : Option ProcessConfig :=
  some { config with alarmCmd := snprintf 256 value }

inductive PsOpt
  | monitorPeriod
  | monitorSwitch
  | user
  | name
  | recoverCommand
  | monitorCommand
  | stopCommand
  | alarmCommand
deriving DecidableEq

structure ItemValueFunc where
  key : Bytes
  func : Bytes → ProcessConfig → Option ProcessConfig

def PsOpt.item : PsOpt → ItemValueFunc
  | .monitorPeriod => ⟨lit "MONITOR_PERIOD", parseMonitorPeriod⟩
  | .monitorSwitch => ⟨lit "MONITOR_SWITCH", parseMonitorSwitch⟩
  | .user => ⟨lit "USER", parseUser⟩
  | .name => ⟨lit "NAME", parseName⟩
  | .recoverCommand => ⟨lit "RECOVER_COMMAND", parseRecoverCommand⟩
  | .monitorCommand => ⟨lit "MONITOR_COMMAND", parseMonitorCommand⟩
  | .stopCommand => ⟨lit "STOP_COMMAND", parseStopCommand⟩
  | .alarmCommand => ⟨lit "ALARM_COMMAND", parseAlarmCommand⟩

def gPsOptArray : List PsOpt :=
  [.monitorPeriod, .monitorSwitch, .user, .name, .recoverCommand, .monitorCommand, .stopCommand,
    .alarmCommand]

def findOpt (key : Bytes) : Option PsOpt :=
  gPsOptArray.find? fun opt => strcaseeq key opt.item.key

/-! ## Lines -/

/-- The string that the caller of `trim_whitespace` goes on with: white space at its end is cut off,
but not in front, nor where there is nothing else. -/
def trimWhitespace (s : Bytes) : Bytes :=
  if s.dropWhile isspace = [] then s else trimEnd s

def isComment (key : Bytes) : Bool := key.head? = some 35 ∨ key = []

def assign (config : ProcessConfig) (key value : Bytes) : Option ProcessConfig :=
  if isComment key then some config
  else
    match findOpt key with
    | some opt => opt.item.func value config
    | none => none

def parseLine (config : ProcessConfig) (line : Bytes) : Option ProcessConfig :=
  match splitAt 61 (cstr line) with
  | none => some config
  | some (key, value) => assign config (trimWhitespace key) (trimWhitespace value)

def defaultMonitorCmd (name : CharBuf 64) : CharBuf 256 :=
  snprintf 256 (lit "pgrep -f $(which " ++ name.text ++ lit ")")

def finishConfig (config : ProcessConfig) : Option ProcessConfig :=
  if config.name.text = [] then none
  else if config.monitorCmd.text = [] then
    some { config with monitorCmd := defaultMonitorCmd config.name }
  else some config

def parseConfig (text : Bytes) (configId : UInt64) : Option ProcessConfig := do
  let config ← (fgets MAX_LINE_LENGTH text).foldlM parseLine (.defaults configId)
  finishConfig config

end SysDetector.Proc
