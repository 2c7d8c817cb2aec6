import SysDetector.Library.CLib

/-!
# The state of the fs worker

The globals of `fs.c`, the config directory it reads and rewrites, and what it has asked of the
system: the lines of its log, its responses, the table it left in the output file, the alarm
commands it ran and the calls on the inotify instance that made its present watches.
-/

namespace SysDetector.Fs
open CLib

def MAX_CONFIGS : Nat := 128
def MAX_EVENTS : Nat := 128
abbrev MAX_FIELD_LEN : Nat := 256

abbrev Time := Int

@[ext] structure FsConfig where
  id : Int32
  monitorSwitch : Bool
  name : CharBuf MAX_FIELD_LEN
  path : CharBuf MAX_FIELD_LEN
  operations : CharBuf MAX_FIELD_LEN
  alarmCmd : CharBuf MAX_FIELD_LEN
deriving DecidableEq

structure FsEventRecord where
  ts : Time
  configId : Int32
  name : CharBuf MAX_FIELD_LEN
  op : CharBuf 64
  path : CharBuf MAX_FIELD_LEN
deriving DecidableEq

structure FileStat where
  device : UInt64
  inode : UInt64
  regular : Bool
deriving DecidableEq

structure DirEntry where
  name : Bytes
  stat : Option FileStat
  readable : Bool
  writable : Bool
  content : Bytes
  /-- How many bytes a write to the file gets through before it fails, if it does. -/
  room : Option Nat := none
deriving DecidableEq

abbrev Directory := Option (List DirEntry)

inductive LogLine
  | startedMonitoring (configId : Int32)
  | stoppedMonitoring (configId : Int32)
  | watching (configId : Int32) (path : CharBuf MAX_FIELD_LEN)
  | watchFailed (configId : Int32) (path : CharBuf MAX_FIELD_LEN)
  | inotifyFailed
  | readFailed
  | event (configId : Int32) (name : CharBuf MAX_FIELD_LEN) (op : Bytes) (path : CharBuf 512)
  | startingMonitoring
deriving DecidableEq

structure ConfigRow where
  num : Nat
  config : FsConfig
deriving DecidableEq

inductive Listing
  | config (rows : List ConfigRow)
  | events (rows : List FsEventRecord)
deriving DecidableEq

/-- A call of the last rebuild on the inotify instance: a watch asked for the path of a config, with
the descriptor or error it returned, or a watch given up. -/
inductive InotifyCall
  | addWatch (config : FsConfig) (wd : Int32)
  | rmWatch (wd : Int32)
deriving DecidableEq

structure FsState where
  /-- The array; positions from `MAX_CONFIGS` on are not used. -/
  configs : Nat → FsConfig
  configCount : Nat
  events : Nat → FsEventRecord
  eventCount : Nat
  eventCursor : Nat
  inotifyOpen : Bool
  watchConfig : List Int32
  directory : Directory
  inotifyCalls : List InotifyCall
  logFile : List LogLine
  responses : List Int32
  outFile : Option Listing
  alarms : List (CharBuf MAX_FIELD_LEN)

def FsConfig.zero : FsConfig where
  id := 0
  monitorSwitch := false
  name := default
  path := default
  operations := default
  alarmCmd := default

def FsEventRecord.zero : FsEventRecord where
  ts := 0
  configId := 0
  name := default
  op := default
  path := default

def FsState.zero (directory : Directory) : FsState where
  configs := fun _ => .zero
  configCount := 0
  events := fun _ => .zero
  eventCount := 0
  eventCursor := 0
  inotifyOpen := false
  watchConfig := []
  directory := directory
  inotifyCalls := []
  logFile := []
  responses := []
  outFile := none
  alarms := []

namespace FsState

def logLine (s : FsState) (line : LogLine) : FsState := { s with logFile := s.logFile ++ [line] }

def sendResponse (s : FsState) (code : Int32) : FsState :=
  { s with responses := s.responses ++ [code] }

def setConfig (s : FsState) (i : Nat) (config : FsConfig) : FsState :=
  { s with configs := Function.update s.configs i config }

end FsState

end SysDetector.Fs
