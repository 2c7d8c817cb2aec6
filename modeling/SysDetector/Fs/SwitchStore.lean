import SysDetector.Library.Refinement
import SysDetector.Library.Registers
import SysDetector.Fs.RoundTrip
import SysDetector.Fs.WatchTable

/-!
# The directory as a store of switches

The worker keeps no state of its own across restarts: what a start or stop leaves is in the file of
the config. `switches_durable`: a directory that nobody else writes to holds, after any messages,
passes and restarts, the configs it held before, each with the switch that was last asked for, and
the table of the worker never differs from it.
-/

namespace SysDetector.Fs
open CLib Runs Registers

inductive ServiceStep
  | message (env : CommandEnv) (message : Bytes)
  | monitor (env : ReadEnv)
  | restart (env : WatchEnv)

def serviceStep (s : FsState) : ServiceStep → FsState
  | .message env message => handleMessage env message s
  | .monitor env => monitorOnce env s
  | .restart env => .initial env s.directory

/-! ## Directories that keep what is written to them -/

/-- No two files share an id, and every config comes back from its file as it was written, whichever
switch is written with it. -/
structure Keeping (files : List DirEntry) : Prop where
  one : OneFilePerId files
  solid : ∀ config ∈ fileConfigs files, Solid config
  written : ∀ config ∈ fileConfigs files, ∀ target, configTarget config files = some target →
    target.writable = true ∧ ∀ status n, target.room = some n →
      (configText (switchedConfig config status)).length ≤ n + 1

def KeepingDirectory (directory : Directory) : Prop := Keeping (directory.getD [])

def switches (directory : Directory) : List (Int32 × Bool) :=
  (directoryConfigs directory).map fun config => (config.id, config.monitorSwitch)

def switchWrites : ServiceStep → List (Int32 × Bool)
  | .message _ message => (switchCommand message).toList
  | .monitor _ | .restart _ => []

/-! ## What a file is rewritten to -/

theorem configText_essentials {config config' : FsConfig} (same : essentials config = essentials config')
    (status : Bool) : configText (switchedConfig config status) =
      configText (switchedConfig config' status) := by
  simp only [essentials, Prod.mk.injEq] at same
  obtain ⟨-, name, path, operations, alarm⟩ := same
  have fields : ∀ c, configFields (switchedConfig c status) =
      [(lit "MONITOR_SWITCH", switchWord status), (lit "NAME", c.name.text),
        (lit "PATH", c.path.text), (lit "OPERATIONS", c.operations.text),
        (lit "ALARM_COMMAND", command c)] := fun _ => rfl
  rw [configText_eq, configText_eq, fields, fields, name, path, operations, alarm]

theorem solid_essentials {config config' : FsConfig} (same : essentials config = essentials config')
    (solid : Solid config) : Solid config' := by
  simp only [essentials, Prod.mk.injEq] at same
  obtain ⟨-, name, path, operations, alarm⟩ := same
  simp only [Solid, texts, List.forall_mem_cons] at solid ⊢
  obtain ⟨nameEnds, pathEnds, operationsEnds, alarmEnds, nothing⟩ := solid
  refine ⟨name ▸ nameEnds, path ▸ pathEnds, operations ▸ operationsEnds, ?_, nothing⟩
  by_cases empty : config'.alarmCmd.text = []
  · rw [empty]
    exact readValue_nil.ends
  · have shown : config'.alarmCmd.text = command config := by
      rw [alarm, command, if_neg empty]
    rw [shown, command]
    split_ifs
    · exact endsSolid_iff.mpr (by decide)
    · exact alarmEnds

section Write
variable {files : List DirEntry} {config : FsConfig} {target : DirEntry}

theorem configTarget_overwrite (other : FsConfig) (text : Bytes) :
    configTarget other (files.map (overwrite target text)) =
      (configTarget other files).map (overwrite target text) := by
  have same : ∀ file, isHidden (overwrite target text file) = isHidden file ∧
      (overwrite target text file).stat = file.stat := by
    intro file
    unfold overwrite isHidden
    split_ifs <;> exact ⟨rfl, rfl⟩
  unfold configTarget
  rw [List.find?_map]
  congr 2
  funext file
  rw [Function.comp_apply, (same file).1, (same file).2]

theorem overwrite_access (target : DirEntry) (text : Bytes) (file : DirEntry) :
    (overwrite target text file).writable = file.writable ∧
      (overwrite target text file).room = file.room := by
  unfold overwrite
  split_ifs <;> exact ⟨rfl, rfl⟩

theorem configTarget_exists (present : config ∈ fileConfigs files) :
    ∃ target, configTarget config files = some target := by
  obtain ⟨file, member, known⟩ := List.mem_filterMap.mp present
  obtain ⟨named, -⟩ := fileConfig_eq_some.mp known
  have visible : isHidden file = false := by
    rw [isConfFile, Bool.not_eq_true', Bool.or_eq_false_iff] at named
    exact named.1
  refine Option.isSome_iff_exists.mp (List.find?_isSome.mpr ⟨file, member, ?_⟩)
  rw [visible, fileConfig_id known]
  simp

theorem configTarget_id {config' : FsConfig} (same : config.id = config'.id) :
    configTarget config files = configTarget config' files := by
  unfold configTarget
  rw [same]

theorem Keeping.rewrite (keeping : Keeping files) (found : configTarget config files = some target)
    {text : Bytes} (before : ∀ now ∈ fileConfigs (files.map (overwrite target text)),
      ∃ config ∈ fileConfigs files, essentials config = essentials now) :
    Keeping (files.map (overwrite target text)) := by
  refine ⟨keeping.one.write found text, ?_, ?_⟩
  · intro now member
    obtain ⟨config, present, same⟩ := before now member
    exact solid_essentials same (keeping.solid config present)
  · intro now member shown written
    obtain ⟨config, present, same⟩ := before now member
    have id : now.id = config.id := congrArg Prod.fst same.symm
    rw [configTarget_overwrite, configTarget_id id, Option.map_eq_some_iff] at written
    obtain ⟨old, oldFound, rfl⟩ := written
    obtain ⟨writable, room⟩ := overwrite_access target text old
    obtain ⟨oldWritable, oldRoom⟩ := keeping.written config present old oldFound
    rw [writable, room]
    refine ⟨oldWritable, fun status n full => ?_⟩
    rw [← configText_essentials same]
    exact oldRoom status n full

theorem Keeping.write (keeping : Keeping files) (found : configTarget config files = some target)
    {text : Bytes} (same : (fileConfigs (files.map (overwrite target text))).map essentials =
      (fileConfigs files).map essentials) : Keeping (files.map (overwrite target text)) := by
  refine keeping.rewrite found fun now member => ?_
  have image := List.mem_map_of_mem (f := essentials) member
  rw [same] at image
  exact List.mem_map.mp image

theorem fileConfigs_switched (keeping : Keeping files) (present : config ∈ fileConfigs files)
    (status : Bool) (found : configTarget config files = some target) :
    ∃ read, RoundTrips config status read ∧ read.id = config.id ∧
      fileConfigs (files.map (overwrite target
        (target.stored (configText (switchedConfig config status))))) =
          (fileConfigs files).map fun other => if other.id = config.id then read else other := by
  obtain ⟨readConfig, named, located⟩ := fileConfigs_read present
  have whole : (configText (switchedConfig config status)).length ≤
      target.room.getD (configText (switchedConfig config status)).length + 1 := by
    cases full : target.room with
    | none => exact Nat.le_succ _
    | some n => exact (keeping.written config present target found).2 status n full
  have trip := (roundTrips_iff readConfig named located status whole config.id).mpr
    (keeping.solid config present)
  rw [← stored_room] at trip
  refine ⟨_, trip, parseConfig_id _ _, ?_⟩
  have kept := accepted_eq_some.mpr ⟨rfl, trip.named, trip.located⟩
  rw [fileConfigs_write keeping.one present rfl found, kept, ← List.filterMap_eq_map]
  refine List.filterMap_congr fun other _ => ?_
  rw [Function.comp_apply]
  split_ifs <;> rfl

theorem switches_write (keeping : Keeping files) (present : config ∈ fileConfigs files)
    {status : Bool} (found : configTarget config files = some target) :
    switches (some (files.map (overwrite target
      (target.stored (configText (switchedConfig config status)))))) =
        write (switches (some files)) (config.id, status) := by
  obtain ⟨read, trip, id, written⟩ := fileConfigs_switched keeping present status found
  have after : directoryConfigs (some (files.map (overwrite target
      (target.stored (configText (switchedConfig config status)))))) =
        (directoryConfigs (some files)).map fun other =>
          if other.id = config.id then read else other := by
    unfold directoryConfigs
    rw [List.map_take]
    exact congrArg (List.take MAX_CONFIGS) written
  rw [switches, after, switches, write, List.map_map, List.map_map]
  refine List.map_congr_left fun other _ => ?_
  rw [Function.comp_apply, Function.comp_apply]
  split_ifs
  · rw [id, trip.monitorSwitch]
  · rfl

end Write

/-! ## Messages -/

theorem loadedConfig_target {directory : Directory} {id : Int32} {config : FsConfig}
    (keeping : KeepingDirectory directory) (loaded : loadedConfig directory id = some config) :
    ∃ files target, directory = some files ∧ config ∈ fileConfigs files ∧ config.id = id ∧
      configTarget config files = some target ∧ target.writable = true := by
  cases directory with
  | none => cases loaded
  | some files =>
      obtain ⟨present, same⟩ := loadedConfig_some loaded
      obtain ⟨target, found⟩ := configTarget_exists present
      exact ⟨files, target, rfl, present, same, found, (keeping.written config present target found).1⟩

theorem message_idle (env : CommandEnv) {message : Bytes} {s : FsState}
    (idle : ∀ id status, switchCommand message = some (id, status) →
      loadedConfig s.directory id = none) : (handleMessage env message s).directory = s.directory := by
  rw [message_directory, switchedDirectory_command]
  cases command : switchCommand message with
  | none => rfl
  | some command' =>
      obtain ⟨id, status⟩ := command'
      rw [Option.bind_some, idle id status command]
      rfl

theorem message_written (env : CommandEnv) {message : Bytes} {s : FsState} {files : List DirEntry}
    {config : FsConfig} {target : DirEntry} {status : Bool}
    (command : switchCommand message = some (config.id, status))
    (loaded : loadedConfig s.directory config.id = some config) (listed : s.directory = some files)
    (found : configTarget config files = some target) (writable : target.writable = true) :
    (handleMessage env message s).directory = some (files.map (overwrite target
      (target.stored (configText (switchedConfig config status))))) := by
  have here : configTarget (switchedConfig config status) files = some target := found
  rw [message_directory, switchedDirectory_command, command, Option.bind_some, loaded,
    Option.map_some, Option.getD_some, writeConfigFile]
  simp only [listed, here, writable, if_true]

theorem message_store (env : CommandEnv) (message : Bytes) {s : FsState}
    (keeping : KeepingDirectory s.directory) :
    KeepingDirectory (handleMessage env message s).directory ∧
      essentialsOf (handleMessage env message s).directory = essentialsOf s.directory ∧
      switches (handleMessage env message s).directory =
        run write (switches s.directory) (switchCommand message).toList := by
  cases command : switchCommand message with
  | none =>
      rw [message_idle env (by simp [command])]
      exact ⟨keeping, rfl, rfl⟩
  | some command' =>
      obtain ⟨id, status⟩ := command'
      rw [Option.toList_some, run_cons, run_nil]
      cases loaded : loadedConfig s.directory id with
      | none =>
          rw [message_idle env (by simp [command, loaded])]
          refine ⟨keeping, rfl, (write_absent ?_).symm⟩
          intro register member
          obtain ⟨config, present, rfl⟩ := List.mem_map.mp member
          have other := List.find?_eq_none.mp loaded config present
          simpa using other
      | some config =>
          obtain ⟨files, target, listed, present, rfl, found, writable⟩ :=
            loadedConfig_target keeping loaded
          rw [message_written env command loaded listed found writable, listed]
          rw [KeepingDirectory, listed] at keeping
          have same := essentials_rewritten keeping.one.oneConfig present found
            (keeping.solid config present) ((keeping.written config present target found).2 status)
          exact ⟨keeping.write found same, same, switches_write keeping present found⟩

/-! ## Runs -/

def TableCurrent (s : FsState) : Prop := tableConfigs s = directoryConfigs s.directory

theorem restart_directory (env : WatchEnv) (directory : Directory) :
    (FsState.initial env directory).directory = directory ∧
      TableCurrent (.initial env directory) := by
  have loaded := loadConfigs_directory (.zero directory)
  have table := tableConfigs_loadConfigs (.zero directory)
  have fits : (loadConfigs (.zero directory)).configCount ≤ MAX_CONFIGS := by
    rw [← length_tableConfigs, table]
    exact List.length_take_le _ _
  obtain ⟨same, -, configs, count⟩ := rebuildWatches_keeps env fits
  have here : (FsState.initial env directory).directory = directory := same.trans loaded
  refine ⟨here, ?_⟩
  rw [TableCurrent, here]
  refine Eq.trans ?_ table
  show (List.range (rebuildWatches env (loadConfigs (.zero directory))).configCount).map
    (rebuildWatches env (loadConfigs (.zero directory))).configs = _
  rw [configs, count]
  rfl

theorem message_current {env : CommandEnv} {message : Bytes} {s : FsState} (current : TableCurrent s) :
    TableCurrent (handleMessage env message s) := by
  unfold TableCurrent at *
  cases handleMessage_acts env message s with
  | keeps _ _ directory same =>
      rw [directory, same.tableConfigs]
      split
      · exact tableConfigs_loadConfigs s
      · exact current
  | rebuilds table _ _ directory loaded fits _ after =>
      obtain ⟨-, -, configs, count⟩ := rebuildWatches_keeps env.watches fits
      rw [directory, after.tableConfigs, ← loaded, tableConfigs, configs, count]
      rfl

structure Stores (directory : Directory) (s : FsState) (store : List (Int32 × Bool)) : Prop where
  current : TableCurrent s
  keeping : KeepingDirectory s.directory
  essentials : essentialsOf s.directory = essentialsOf directory
  switches : switches s.directory = store

theorem serviceStep_stores {directory : Directory} {s : FsState} {store : List (Int32 × Bool)}
    (stores : Stores directory s store) (input : ServiceStep) :
    Stores directory (serviceStep s input) (run write store (switchWrites input)) := by
  obtain ⟨current, keeping, same, rfl⟩ := stores
  cases input with
  | message env message =>
      obtain ⟨kept, unchanged, written⟩ := message_store env message keeping
      exact ⟨message_current current, kept, unchanged.trans same, written⟩
  | monitor env =>
      obtain ⟨events, count, cursor, log, alarms, records⟩ := monitorOnce_records env s
      rw [serviceStep, records]
      exact ⟨current, keeping, same, rfl⟩
  | restart env =>
      obtain ⟨here, loaded⟩ := restart_directory env s.directory
      rw [serviceStep]
      have kept : KeepingDirectory (FsState.initial env s.directory).directory := by
        rw [here]
        exact keeping
      exact ⟨loaded, kept, (congrArg essentialsOf here).trans same, congrArg Fs.switches here⟩

def stoppedTwice : List ServiceStep :=
  [.message ⟨growingWatches 1, true⟩ (lit "stop 12"), .restart (growingWatches 2),
    .message ⟨growingWatches 3, true⟩ (lit "start 12"), .monitor ⟨100, [], false⟩,
    .message ⟨growingWatches 4, true⟩ (lit "stop 12")]

theorem web_keeping : KeepingDirectory webDirectory where
  one := by
    intro f fIn g gIn st su fStat gStat _
    obtain rfl := List.mem_singleton.mp fIn
    obtain rfl := List.mem_singleton.mp gIn
    rw [fStat, Option.some.injEq] at gStat
    exact ⟨gStat, rfl, rfl⟩
  solid := by decide
  written := by
    intro config _ target found
    obtain rfl := List.mem_singleton.mp (configTarget_some found).1
    exact ⟨rfl, fun _ _ full => by cases full⟩

example : (switches webDirectory).map (held (stoppedTwice.flatMap switchWrites)) = [(12, false)] := by
  decide

end SysDetector.Fs
