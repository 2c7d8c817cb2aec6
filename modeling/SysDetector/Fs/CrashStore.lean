import SysDetector.Fs.SwitchStore

namespace SysDetector.Fs
open CLib Runs Registers

def flushed (block printed : Nat) (text : Bytes) : Bytes :=
  text.take (min printed text.length / block * block)

/-- `write_config_file` that is killed between `fopen` and `fclose`. -/
def cutConfigFile (block printed : Nat) (config : FsConfig) (directory : Directory) : Directory :=
  match directory with
  | none => directory
  | some files =>
      match configTarget config files with
      | none => directory
      | some target =>
          if target.writable then
            let text := target.stored (flushed block printed (configText config))
            some (files.map (overwrite target text))
          else directory

def cutMessage (block printed : Nat) (message : Bytes) (directory : Directory) : Directory :=
  match switchCommand message with
  | none => directory
  | some (id, status) =>
      match loadedConfig directory id with
      | none => directory
      | some config => cutConfigFile block printed (switchedConfig config status) directory

inductive CrashStep
  | service (step : ServiceStep)
  | cut (printed : Nat) (message : Bytes) (env : WatchEnv)

def crashStep (block : Nat) (s : FsState) : CrashStep → FsState
  | .service step => serviceStep s step
  | .cut printed message env => .initial env (cutMessage block printed message s.directory)

def leftAfter (block : Nat) (env : WatchEnv) (directory : Directory) (steps : List CrashStep) :
    Directory :=
  (run (crashStep block) (.initial env directory) steps).directory

def fileSwitches (directory : Directory) : List (Int32 × Bool) :=
  (fileConfigs (directory.getD [])).map fun config => (config.id, config.monitorSwitch)

def storeOps : CrashStep → List (Op Int32 Bool)
  | .service (.message _ message) => (switchCommand message).toList.map .set
  | .service (.monitor _) | .service (.restart _) => []
  | .cut _ message _ => (switchCommand message).toList.map fun command => .lose command.1

/-! ## Cut writes -/

theorem length_configText_le (config : FsConfig) : (configText config).length ≤ 1078 := by
  have limit : MAX_FIELD_LEN = 256 := rfl
  have name := config.name.short
  have path := config.path.short
  have operations := config.operations.short
  have alarm : (command config).length ≤ 255 := by
    unfold command
    split_ifs
    · decide
    · exact config.alarmCmd.short
  have word : (if config.monitorSwitch then lit "on" else lit "off").length ≤ 3 := by
    split_ifs <;> decide
  have keys : (lit "MONITOR_SWITCH=").length = 15 ∧ (lit "\nNAME=").length = 6 ∧
      (lit "\nPATH=").length = 6 ∧ (lit "\nOPERATIONS=").length = 12 ∧
      (lit "\nALARM_COMMAND=").length = 15 ∧ (lit "\n").length = 1 := by decide
  obtain ⟨key1, key2, key3, key4, key5, key6⟩ := keys
  unfold command at alarm
  unfold configText
  simp only [List.length_append, key1, key2, key3, key4, key5, key6]
  omega

theorem flushed_configText {block : Nat} (large : 1078 < block) (printed : Nat) (config : FsConfig) :
    flushed block printed (configText config) = [] := by
  have bound := length_configText_le config
  have inside : min printed (configText config).length < block := by omega
  rw [flushed, Nat.div_eq_of_lt inside, Nat.zero_mul, List.take_zero]

theorem stored_nil (target : DirEntry) : target.stored [] = [] := by
  rw [stored_room, List.take_nil]

theorem parse_empty (id : Int32) : accepted (parseConfig [] id) = none := rfl

section Cut
variable {files : List DirEntry} {config : FsConfig} {target : DirEntry}

theorem fileConfigs_emptied (one : OneFilePerId files) (present : config ∈ fileConfigs files)
    (found : configTarget config files = some target) :
    fileConfigs (files.map (overwrite target [])) =
      (fileConfigs files).filter fun other => other.id ≠ config.id := by
  rw [fileConfigs_write one present rfl found, parse_empty, ← List.filterMap_eq_filter]
  refine List.filterMap_congr fun other _ => ?_
  by_cases same : other.id = config.id
  · simp [same, Option.guard]
  · simp [same, Option.guard]

theorem fileSwitches_write (keeping : Keeping files) (present : config ∈ fileConfigs files)
    {status : Bool} (found : configTarget config files = some target) :
    fileSwitches (some (files.map (overwrite target
      (target.stored (configText (switchedConfig config status)))))) =
        write (fileSwitches (some files)) (config.id, status) := by
  obtain ⟨read, trip, id, written⟩ := fileConfigs_switched keeping present status found
  rw [fileSwitches, Option.getD_some, written, fileSwitches, Option.getD_some, write, List.map_map,
    List.map_map]
  refine List.map_congr_left fun other _ => ?_
  rw [Function.comp_apply, Function.comp_apply]
  split_ifs
  · rw [id, trip.monitorSwitch]
  · rfl

end Cut

/-! ## Messages -/

theorem keys_fileSwitches (directory : Directory) : (fileSwitches directory).map Prod.fst =
    (fileConfigs (directory.getD [])).map FsConfig.id := by
  rw [fileSwitches, List.map_map]
  rfl

theorem loaded_keys (directory : Directory) :
    ((fileSwitches directory).take MAX_CONFIGS).map Prod.fst =
      (directoryConfigs directory).map FsConfig.id := by
  rw [List.map_take, keys_fileSwitches]
  cases directory with
  | none => rfl
  | some files => exact List.map_take.symm

theorem loadedConfig_none {directory : Directory} {id : Int32} :
    loadedConfig directory id = none ↔
      id ∉ ((fileSwitches directory).take MAX_CONFIGS).map Prod.fst := by
  rw [loaded_keys, loadedConfig, List.find?_eq_none]
  simp

theorem loaded_inReach {directory : Directory} {id : Int32} {config : FsConfig}
    (loaded : loadedConfig directory id = some config) :
    id ∈ ((fileSwitches directory).take MAX_CONFIGS).map Prod.fst := by
  by_contra out
  rw [loadedConfig_none.mpr out] at loaded
  cases loaded

structure Remains (first directory : Directory) (store : List (Int32 × Bool)) : Prop where
  keeping : KeepingDirectory directory
  switches : fileSwitches directory = store
  essentials : essentialsOf directory =
    (essentialsOf first).filter fun entry => entry.1 ∈ store.map Prod.fst

theorem remains_start {directory : Directory} (keeping : KeepingDirectory directory) :
    Remains directory directory (fileSwitches directory) where
  keeping := keeping
  switches := rfl
  essentials := by
    refine (List.filter_eq_self.mpr fun entry member => ?_).symm
    obtain ⟨config, present, rfl⟩ := List.mem_map.mp member
    rw [keys_fileSwitches]
    exact decide_eq_true (List.mem_map_of_mem present)

theorem message_remains {first : Directory} {s : FsState} {store : List (Int32 × Bool)}
    (remains : Remains first s.directory store) (env : CommandEnv) (message : Bytes) :
    Remains first (handleMessage env message s).directory
      (run (apply MAX_CONFIGS) store ((switchCommand message).toList.map .set)) := by
  obtain ⟨keeping, rfl, essentials⟩ := remains
  obtain ⟨kept, same, -⟩ := message_store env message keeping
  cases command : switchCommand message with
  | none =>
      rw [message_idle env (by simp [command])]
      exact ⟨keeping, rfl, essentials⟩
  | some command' =>
      obtain ⟨id, status⟩ := command'
      rw [Option.toList_some, List.map_singleton, run_cons, run_nil, apply]
      cases loaded : loadedConfig s.directory id with
      | none =>
          rw [message_idle env (by simp [command, loaded]), if_neg (loadedConfig_none.mp loaded)]
          exact ⟨keeping, rfl, essentials⟩
      | some config =>
          obtain ⟨files, target, listed, present, rfl, found, writable⟩ :=
            loadedConfig_target keeping loaded
          rw [if_pos (loaded_inReach loaded)]
          refine ⟨kept, ?_, ?_⟩
          · rw [message_written env command loaded listed found writable]
            rw [listed] at keeping ⊢
            exact fileSwitches_write keeping present found
          · rw [same, essentials, keys_write]

theorem cut_remains {first directory : Directory} {block : Nat} (large : 1078 < block)
    {store : List (Int32 × Bool)} (remains : Remains first directory store) (printed : Nat)
    (message : Bytes) : Remains first (cutMessage block printed message directory)
      (run (apply MAX_CONFIGS) store
        ((switchCommand message).toList.map fun command => .lose command.1)) := by
  obtain ⟨keeping, rfl, essentials⟩ := remains
  unfold cutMessage
  cases switchCommand message with
  | none => exact ⟨keeping, rfl, essentials⟩
  | some command =>
      obtain ⟨id, status⟩ := command
      rw [Option.toList_some, List.map_singleton, run_cons, run_nil, apply]
      dsimp only
      cases loaded : loadedConfig directory id with
      | none =>
          rw [if_neg (loadedConfig_none.mp loaded)]
          exact ⟨keeping, rfl, essentials⟩
      | some config =>
          obtain ⟨files, target, rfl, present, rfl, found, writable⟩ :=
            loadedConfig_target keeping loaded
          have here : configTarget (switchedConfig config status) files = some target := found
          have kept : Keeping files := keeping
          have emptied := fileConfigs_emptied kept.one present found
          have left : cutConfigFile block printed (switchedConfig config status) (some files) =
              some (files.map (overwrite target [])) := by
            unfold cutConfigFile
            simp only [here, writable, if_true, flushed_configText large, stored_nil]
          rw [if_pos (loaded_inReach loaded)]
          dsimp only
          rw [left]
          refine ⟨kept.rewrite found fun now member => ?_, ?_, ?_⟩
          · rw [emptied] at member
            exact ⟨now, List.mem_of_mem_filter member, rfl⟩
          · rw [fileSwitches, Option.getD_some, emptied, lose, fileSwitches, List.filter_map]
            rfl
          · have before : (fileConfigs files).map Fs.essentials = _ := essentials
            rw [essentialsOf, Option.getD_some, emptied]
            have filtered : ((fileConfigs files).filter fun other => other.id ≠ config.id).map
                Fs.essentials = ((fileConfigs files).map Fs.essentials).filter
                  fun entry => entry.1 ≠ config.id := by
              rw [List.filter_map]
              rfl
            rw [filtered, before, List.filter_filter]
            refine List.filter_congr fun entry _ => ?_
            rw [← Bool.decide_and, decide_eq_decide, mem_lose_iff, and_comm]

/-! ## Runs -/

theorem crashStep_remains {first : Directory} {block : Nat} (large : 1078 < block) {s : FsState}
    {store : List (Int32 × Bool)} (remains : Remains first s.directory store) (input : CrashStep) :
    Remains first (crashStep block s input).directory
      (run (apply MAX_CONFIGS) store (storeOps input)) := by
  cases input with
  | service step =>
      cases step with
      | message env message => exact message_remains remains env message
      | monitor env =>
          obtain ⟨events, count, cursor, log, alarms, records⟩ := monitorOnce_records env s
          rw [crashStep, serviceStep, records]
          exact remains
      | restart env =>
          rw [crashStep, serviceStep, (restart_directory env s.directory).1]
          exact remains
  | cut printed message env =>
      rw [crashStep, (restart_directory env _).1]
      exact cut_remains large remains printed message

theorem run_remains {first : Directory} {block : Nat} (large : 1078 < block) {s : FsState}
    {store : List (Int32 × Bool)} (remains : Remains first s.directory store)
    (steps : List CrashStep) : Remains first (run (crashStep block) s steps).directory
      (run (apply MAX_CONFIGS) store (steps.flatMap storeOps)) := by
  have free : Guarded (crashStep block) (fun _ _ => True) s steps := fun _ _ _ _ => trivial
  have kept := run_refines (apply MAX_CONFIGS) (fun _ => storeOps)
    (R := fun s store => Remains first s.directory store)
    (fun s store input remains _ => crashStep_remains large remains input) remains free
  rwa [translated_flatMap] at kept

theorem cut_loses {directory : Directory} {block : Nat} (large : 1078 < block)
    (keeping : KeepingDirectory directory) {id : Int32} {status : Bool} {config : FsConfig}
    {message : Bytes} (command : switchCommand message = some (id, status))
    (loaded : loadedConfig directory id = some config) (printed : Nat) :
    id ∉ (fileSwitches (cutMessage block printed message directory)).map Prod.fst := by
  have remains := cut_remains large (remains_start keeping) printed message
  rw [remains.switches, command, Option.toList_some, List.map_singleton, run_cons, run_nil, apply,
    if_pos (loaded_inReach loaded), mem_lose_iff]
  exact fun still => still.2 rfl

def cutWhileStarting : List CrashStep :=
  [.service (.message ⟨growingWatches 1, true⟩ (lit "stop 12")),
    .service (.restart (growingWatches 2)), .cut 40 (lit "start 12") (growingWatches 3),
    .service (.message ⟨growingWatches 4, true⟩ (lit "start 12"))]

example : run (apply MAX_CONFIGS) (fileSwitches webDirectory) (cutWhileStarting.flatMap storeOps) =
    [] := by decide

end SysDetector.Fs
