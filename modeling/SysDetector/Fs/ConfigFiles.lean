import SysDetector.Fs.State

namespace SysDetector.Fs
open CLib

def assign (config : FsConfig) (key value : Bytes) : FsConfig :=
  if key = lit "NAME" then { config with name := snprintf MAX_FIELD_LEN value }
  else if key = lit "PATH" then { config with path := snprintf MAX_FIELD_LEN value }
  else if key = lit "OPERATIONS" then { config with operations := snprintf MAX_FIELD_LEN value }
  else if key = lit "ALARM_COMMAND" then { config with alarmCmd := snprintf MAX_FIELD_LEN value }
  else if key = lit "MONITOR_SWITCH" then
    { config with monitorSwitch := strcaseeq value (lit "on") }
  else config

def parseLine (config : FsConfig) (line : Bytes) : FsConfig :=
  let line := trim (cstr line)
  if line = [] ∨ line.head? = some 35 then config
  else
    match splitAt 61 line with
    | none => config
    | some (key, value) => assign config (trim key) (trim value)

def defaultOperations : Bytes := lit "write,delete,rename,chmod"

def parseConfig (text : Bytes) (id : Int32) : FsConfig :=
  (fgets 512 text).foldl parseLine
    { FsConfig.zero with id := id, operations := snprintf MAX_FIELD_LEN defaultOperations }

def parseConfigFile (file : DirEntry) (id : Int32) (s : FsState) : FsState :=
  if s.configCount ≥ MAX_CONFIGS then s
  else if file.readable then
    let config := parseConfig file.content id
    let s := s.setConfig s.configCount config
    if config.name.text ≠ [] ∧ config.path.text ≠ [] then
      { s with configCount := s.configCount + 1 }
    else s
  else s

def FileStat.id (st : FileStat) : Int32 := st.inode.toUInt32.toInt32

def isHidden (file : DirEntry) : Bool := file.name.head? = some 46

def loadEntry (s : FsState) (file : DirEntry) : FsState :=
  if isHidden file || !hasSuffix file.name (lit ".conf") then s
  else
    match file.stat with
    | some st => if st.regular then parseConfigFile file st.id s else s
    | none => s

def loadConfigs (s : FsState) : FsState :=
  let s := { s with configCount := 0 }
  match s.directory with
  | none => s
  | some files => files.foldl loadEntry s

def findConfig (s : FsState) (id : Int32) : Option Nat :=
  (List.range s.configCount).find? fun i => (s.configs i).id = id

def configText (config : FsConfig) : Bytes :=
  lit "MONITOR_SWITCH=" ++ (if config.monitorSwitch then lit "on" else lit "off") ++
  lit "\nNAME=" ++ config.name.text ++ lit "\nPATH=" ++ config.path.text ++
  lit "\nOPERATIONS=" ++ config.operations.text ++ lit "\nALARM_COMMAND=" ++
  (if config.alarmCmd.text = [] then lit "true" else config.alarmCmd.text) ++ lit "\n"

/-- The file that is rewritten for a config: the first with its id, whatever file that is. -/
def configTarget (config : FsConfig) (files : List DirEntry) : Option DirEntry :=
  files.find? fun file => !isHidden file && file.stat.map FileStat.id = some config.id

def DirEntry.stored (target : DirEntry) (text : Bytes) : Bytes :=
  match target.room with
  | none => text
  | some n => text.take n

/-- The entries are names of one file: an inode number is one file's on its device only. -/
def SameFile (f g : DirEntry) : Prop :=
  (f.stat.map fun st => (st.device, st.inode)) = g.stat.map fun st => (st.device, st.inode)

instance (f g : DirEntry) : Decidable (SameFile f g) :=
  inferInstanceAs (Decidable (_ = _))

def overwrite (target : DirEntry) (text : Bytes) (file : DirEntry) : DirEntry :=
  if SameFile file target then { file with content := text } else file

def writeConfigFile (config : FsConfig) (s : FsState) : FsState :=
  match s.directory with
  | none => s
  | some files =>
      match configTarget config files with
      | none => s
      | some target =>
          if target.writable then
            let text := target.stored (configText config)
            { s with directory := some (files.map (overwrite target text)) }
          else s

end SysDetector.Fs
