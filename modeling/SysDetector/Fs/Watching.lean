import SysDetector.Fs.State

namespace SysDetector.Fs
open CLib

def IN_MODIFY : UInt32 := 0x2
def IN_ATTRIB : UInt32 := 0x4
def IN_CLOSE_WRITE : UInt32 := 0x8
def IN_MOVED_FROM : UInt32 := 0x40
def IN_MOVED_TO : UInt32 := 0x80
def IN_CREATE : UInt32 := 0x100
def IN_DELETE : UInt32 := 0x200
def IN_DELETE_SELF : UInt32 := 0x400
def IN_MOVE_SELF : UInt32 := 0x800

/-- What a rebuild asks of the system: whether `inotify_init1` succeeds, and what
`inotify_add_watch` returns for a path, which is the same each time the path is asked for. -/
structure WatchEnv where
  inotifyInit : Bool
  addWatch : CharBuf MAX_FIELD_LEN → Int32

/-! ## The words of `watch_config` -/

def watchWord (wd : Int32) (i : Nat) : Int32 := (wd <<< 16) ||| Int32.ofNat i

def watchWd (word : Int32) : Int32 := word >>> 16

def watchIndex (word : Int32) : Nat := (word &&& 0xffff).toUInt32.toNat

/-! ## Rebuilding -/

def ensureInotify (env : WatchEnv) (s : FsState) : FsState :=
  if s.inotifyOpen then s
  else if env.inotifyInit then { s with inotifyOpen := true }
  else s.logLine .inotifyFailed

def watchOne (env : WatchEnv) (s : FsState) (i : Nat) : FsState :=
  let config := s.configs i
  if config.monitorSwitch then
    let wd := env.addWatch config.path
    let s := { s with inotifyCalls := s.inotifyCalls ++ [.addWatch config wd] }
    if 0 ≤ wd ∧ s.watchConfig.length < MAX_CONFIGS then
      { s with watchConfig := s.watchConfig ++ [watchWord wd i] }.logLine
        (.watching config.id config.path)
    else if wd < 0 then s.logLine (.watchFailed config.id config.path)
    else s
  else s

def rebuildWatches (env : WatchEnv) (s : FsState) : FsState :=
  let s := ensureInotify env s
  if s.inotifyOpen then
    let s := { s with
      inotifyCalls := s.watchConfig.map fun word => .rmWatch (watchWd word)
      watchConfig := [] }
    (List.range s.configCount).foldl (watchOne env) s
  else s

/-! ## Events -/

structure InotifyEvent where
  wd : Int32
  mask : UInt32
  name : Option Bytes
deriving DecidableEq

def maskToOp (mask : UInt32) : Bytes :=
  if mask &&& (IN_CREATE ||| IN_CLOSE_WRITE ||| IN_MODIFY) ≠ 0 then lit "write"
  else if mask &&& (IN_DELETE ||| IN_DELETE_SELF) ≠ 0 then lit "delete"
  else if mask &&& (IN_MOVED_FROM ||| IN_MOVED_TO ||| IN_MOVE_SELF) ≠ 0 then lit "rename"
  else if mask &&& IN_ATTRIB ≠ 0 then lit "chmod"
  else lit "event"

def eventRecord (now : Time) (config : FsConfig) (op : Bytes) (path : CharBuf 512) :
    FsEventRecord where
  ts := now
  configId := config.id
  name := snprintf MAX_FIELD_LEN config.name.text
  op := snprintf 64 op
  path := snprintf MAX_FIELD_LEN path.text

def recordEvent (now : Time) (config : FsConfig) (op : Bytes) (path : CharBuf 512) (s : FsState) :
    FsState :=
  let idx := (s.eventCursor + s.eventCount) % MAX_EVENTS
  let (idx, s) := if s.eventCount = MAX_EVENTS then
      (s.eventCursor, { s with eventCursor := (s.eventCursor + 1) % MAX_EVENTS })
    else (idx, { s with eventCount := s.eventCount + 1 })
  let s := { s with events := Function.update s.events idx (eventRecord now config op path) }
  let s := s.logLine (.event config.id config.name op path)
  if config.alarmCmd.text ≠ [] ∧ config.alarmCmd.text ≠ lit "true" then
    { s with alarms := s.alarms ++ [config.alarmCmd] }
  else s

def eventPath (config : FsConfig) (name : Option Bytes) : CharBuf 512 :=
  match name with
  | some name => snprintf 512 (config.path.text ++ lit "/" ++ name)
  | none => snprintf 512 config.path.text

def eventConfig (s : FsState) (wd : Int32) : Option FsConfig :=
  (s.watchConfig.find? fun word => watchWd word = wd).map fun word => s.configs (watchIndex word)

def handleInotifyEvent (now : Time) (s : FsState) (ev : InotifyEvent) : FsState :=
  match eventConfig s ev.wd with
  | some config => recordEvent now config (maskToOp ev.mask) (eventPath config ev.name) s
  | none => s

/-- What `read` returns until the queue is drained, and whether the last read failed otherwise than
for want of events. -/
structure ReadEnv where
  now : Time
  reads : List (List InotifyEvent)
  readFails : Bool

def monitorOnce (env : ReadEnv) (s : FsState) : FsState :=
  if s.inotifyOpen then
    let s := env.reads.foldl (fun s events => events.foldl (handleInotifyEvent env.now) s) s
    if env.readFails then s.logLine .readFailed else s
  else s

end SysDetector.Fs
