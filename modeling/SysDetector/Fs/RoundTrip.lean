import SysDetector.Fs.ConfigText
import SysDetector.Fs.Rewriting
import SysDetector.Fs.Descriptors

namespace SysDetector.Fs
open CLib Runs

/-! ## Round trips -/

/-- What is read is the config but for its switch, when an empty command and `true` count as one. -/
structure RoundTrips (config : FsConfig) (status : Bool) (read : FsConfig) : Prop where
  named : read.name.text ≠ []
  located : read.path.text ≠ []
  monitorSwitch : read.monitorSwitch = status
  name : read.name = config.name
  path : read.path = config.path
  operations : read.operations = config.operations
  command : command read = command config

theorem trim_field_iff {b : CharBuf MAX_FIELD_LEN} (starts : StartsSolid b.text) :
    snprintf MAX_FIELD_LEN (trim b.text) = b ↔ EndsSolid b.text := by
  rw [← trimEnd_eq_self_iff, ← trim_of_solid starts]
  constructor
  · intro same
    rw [← snprintf_trim, same]
  · intro same
    rw [same, snprintf_text]

theorem trim_ne_nil {s : Bytes} (starts : StartsSolid s) (nonempty : s ≠ []) : trim s ≠ [] := by
  cases s with
  | nil => exact absurd rfl nonempty
  | cons c s =>
      rw [trim_of_solid starts, trimEnd_cons (starts c rfl)]
      exact List.cons_ne_nil _ _

theorem command_written {config read : FsConfig} (starts : StartsSolid config.alarmCmd.text)
    (written : read.alarmCmd = snprintf MAX_FIELD_LEN (trim (command config))) :
    command read = command config ↔ EndsSolid config.alarmCmd.text := by
  by_cases empty : config.alarmCmd.text = []
  · refine iff_of_true ?_ (by rw [empty]; exact readValue_nil.ends)
    have shown : command config = lit "true" := if_pos empty
    rw [shown] at written ⊢
    rw [command, written]
    decide
  · have shown : command config = config.alarmCmd.text := if_neg empty
    rw [shown] at written ⊢
    rw [command, written, snprintf_trim, if_neg (trim_ne_nil starts empty), trim_of_solid starts,
      trimEnd_eq_self_iff]

theorem roundTrips_iff {config : FsConfig} (readConfig : ReadConfig config)
    (named : config.name.text ≠ []) (located : config.path.text ≠ []) (status : Bool) {n : Nat}
    (enough : (configText (switchedConfig config status)).length ≤ n + 1) (id : Int32) :
    RoundTrips config status
        (parseConfig ((configText (switchedConfig config status)).take n) id) ↔
      Solid config := by
  have readSwitched : ReadConfig (switchedConfig config status) := readConfig
  have written := parse_written readSwitched enough id
  simp only [ReadConfig, Solid, texts, List.forall_mem_cons] at readConfig ⊢
  obtain ⟨name, path, operations, alarm, -⟩ := readConfig
  rw [written]
  constructor
  · intro trip
    refine ⟨?_, ?_, ?_, ?_, fun _ member => absurd member List.not_mem_nil⟩
    · exact (trim_field_iff name.1).mp trip.name
    · exact (trim_field_iff path.1).mp trip.path
    · exact (trim_field_iff operations.1).mp trip.operations
    · exact (command_written alarm.1 rfl).mp trip.command
  · rintro ⟨nameEnds, pathEnds, operationsEnds, alarmEnds, -⟩
    have sameName := (trim_field_iff name.1).mpr nameEnds
    have samePath := (trim_field_iff path.1).mpr pathEnds
    constructor
    · rw [← sameName] at named
      exact named
    · rw [← samePath] at located
      exact located
    · rfl
    · exact sameName
    · exact samePath
    · exact (trim_field_iff operations.1).mpr operationsEnds
    · exact (command_written alarm.1 rfl).mpr alarmEnds

/-! ## Runs of commands -/

theorem writeConfigFile_cases (config : FsConfig) (s : FsState) :
    (writeConfigFile config s).directory = s.directory ∨ ∃ files target,
      s.directory = some files ∧ configTarget config files = some target ∧
      target.writable = true ∧ (writeConfigFile config s).directory =
        some (files.map (overwrite target (target.stored (configText config)))) := by
  unfold writeConfigFile
  split
  · exact .inl rfl
  · next files listed =>
      split
      · exact .inl rfl
      · next target found =>
          dsimp only
          split_ifs with writable
          · exact .inr ⟨files, target, listed, found, writable, rfl⟩
          · exact .inl rfl

def essentials (config : FsConfig) : Int32 × CharBuf MAX_FIELD_LEN × CharBuf MAX_FIELD_LEN ×
    CharBuf MAX_FIELD_LEN × Bytes :=
  (config.id, config.name, config.path, config.operations, command config)

def essentialsOf (directory : Directory) := (fileConfigs (directory.getD [])).map essentials

def commandStep (s : FsState) (command : CommandEnv × Bytes) : FsState :=
  handleMessage command.1 command.2 s

/-- The config that a start or stop writes has no field that ends in white space, and is written
whole, but perhaps for its last newline. -/
def RewriteGuard (s : FsState) (command : CommandEnv × Bytes) : Prop :=
  ∀ id status config files target, switchCommand command.2 = some (id, status) →
    loadedConfig s.directory id = some config → s.directory = some files →
      configTarget config files = some target → target.writable = true →
        Solid config ∧ ∀ n, target.room = some n →
          (configText (switchedConfig config status)).length ≤ n + 1

theorem loadedConfig_some {files : List DirEntry} {id : Int32} {config : FsConfig}
    (loaded : loadedConfig (some files) id = some config) :
    config ∈ fileConfigs files ∧ config.id = id :=
  ⟨List.mem_of_mem_take (List.mem_of_find?_eq_some loaded), by simpa using List.find?_some loaded⟩

theorem fileConfigs_read {files : List DirEntry} {config : FsConfig}
    (present : config ∈ fileConfigs files) :
    ReadConfig config ∧ config.name.text ≠ [] ∧ config.path.text ≠ [] := by
  obtain ⟨file, -, known⟩ := List.mem_filterMap.mp present
  obtain ⟨-, st, -, -, -, read⟩ := fileConfig_eq_some.mp known
  obtain ⟨rfl, fields⟩ := accepted_eq_some.mp read
  exact ⟨parse_readConfig _ _, fields⟩

theorem stored_room (target : DirEntry) (text : Bytes) :
    target.stored text = text.take (target.room.getD text.length) := by
  unfold DirEntry.stored
  cases target.room with
  | none => exact (List.take_length).symm
  | some n => rfl

structure ReadAs (file : DirEntry) (st : FileStat) : Prop where
  name : isConfFile file = true
  stat : file.stat = some st
  regular : st.regular = true
  readable : file.readable = true

/-- The files that are read as configs of one id give one config, but for its switch. -/
def OneConfigPerId (files : List DirEntry) : Prop :=
  ∀ f ∈ files, ∀ g ∈ files, ∀ st su, ReadAs f st → ReadAs g su → st.id = su.id →
    (accepted (parseConfig f.content st.id)).map essentials =
      (accepted (parseConfig g.content su.id)).map essentials

theorem OneFilePerId.oneConfig {files : List DirEntry} (one : OneFilePerId files) :
    OneConfigPerId files := by
  intro f fIn g gIn st su fRead gRead same
  obtain ⟨rfl, content, -⟩ := one f fIn g gIn st su fRead.stat gRead.stat same
  rw [content]

theorem fileConfig_iff_readAs {file : DirEntry} {config : FsConfig} :
    fileConfig file = some config ↔
      ∃ st, ReadAs file st ∧ accepted (parseConfig file.content st.id) = some config := by
  rw [fileConfig_eq_some]
  constructor
  · rintro ⟨name, st, stat, regular, readable, read⟩
    exact ⟨st, ⟨name, stat, regular, readable⟩, read⟩
  · rintro ⟨st, ⟨name, stat, regular, readable⟩, read⟩
    exact ⟨name, st, stat, regular, readable, read⟩

section Rewritten
variable {files : List DirEntry} {config : FsConfig} {status : Bool} {target : DirEntry}

theorem readAs_overwrite {text : Bytes} {file : DirEntry} {st : FileStat} :
    ReadAs (overwrite target text file) st ↔ ReadAs file st := by
  unfold overwrite
  split_ifs
  · exact ⟨fun ⟨name, stat, regular, readable⟩ => ⟨name, stat, regular, readable⟩,
      fun ⟨name, stat, regular, readable⟩ => ⟨name, stat, regular, readable⟩⟩
  · exact Iff.rfl

theorem read_rewritten (one : OneConfigPerId files) (present : config ∈ fileConfigs files)
    (found : configTarget config files = some target) (solid : Solid config)
    (enough : ∀ n, target.room = some n →
      (configText (switchedConfig config status)).length ≤ n + 1)
    {f : DirEntry} (member : f ∈ files) {st : FileStat} (read : ReadAs f st) :
    (accepted (parseConfig (overwrite target
      (target.stored (configText (switchedConfig config status))) f).content st.id)).map essentials =
        (accepted (parseConfig f.content st.id)).map essentials := by
  unfold overwrite
  split_ifs with shown
  · obtain ⟨-, su, targetStat, targetId⟩ := configTarget_some found
    obtain ⟨su', stat, sameId⟩ := shown.id targetStat
    rw [read.stat, Option.some.injEq] at stat
    have id : st.id = config.id := by rw [stat, sameId, targetId]
    obtain ⟨g, gIn, known⟩ := List.mem_filterMap.mp present
    obtain ⟨sv, gRead, gText⟩ := fileConfig_iff_readAs.mp known
    have gId : sv.id = config.id := by
      obtain ⟨rfl, -⟩ := accepted_eq_some.mp gText
      exact (parseConfig_id _ _).symm
    rw [one f member g gIn st sv read gRead (id.trans gId.symm), gText, id]
    obtain ⟨readConfig, named, located⟩ := fileConfigs_read present
    have whole : (configText (switchedConfig config status)).length ≤
        target.room.getD (configText (switchedConfig config status)).length + 1 := by
      cases full : target.room with
      | none => exact Nat.le_succ _
      | some n => exact enough n full
    have trip := (roundTrips_iff readConfig named located status whole config.id).mpr solid
    rw [← stored_room] at trip
    have kept := accepted_eq_some.mpr ⟨rfl, trip.named, trip.located⟩
    rw [kept, Option.map_some, Option.map_some, essentials, essentials, parseConfig_id, trip.name,
      trip.path, trip.operations, trip.command]
  · rfl

theorem essentials_rewritten (one : OneConfigPerId files) (present : config ∈ fileConfigs files)
    (found : configTarget config files = some target) (solid : Solid config)
    (enough : ∀ n, target.room = some n →
      (configText (switchedConfig config status)).length ≤ n + 1) :
    (fileConfigs (files.map (overwrite target
      (target.stored (configText (switchedConfig config status)))))).map essentials =
        (fileConfigs files).map essentials := by
  have configOf : ∀ file st, ReadAs file st →
      fileConfig file = accepted (parseConfig file.content st.id) := by
    intro file st read
    apply Option.ext
    intro other
    rw [fileConfig_iff_readAs]
    constructor
    · rintro ⟨su, again, text⟩
      rwa [Option.some.inj (read.stat.symm.trans again.stat)]
    · exact fun text => ⟨st, read, text⟩
  unfold fileConfigs
  rw [List.filterMap_map, List.map_filterMap, List.map_filterMap]
  refine List.filterMap_congr fun f member => ?_
  rw [Function.comp_apply]
  by_cases read : ∃ st, ReadAs f st
  · obtain ⟨st, read⟩ := read
    rw [configOf _ st (readAs_overwrite.mpr read), configOf f st read]
    exact read_rewritten one present found solid enough member read
  · have unread : ∀ file, (∀ st, ReadAs file st ↔ ReadAs f st) → fileConfig file = none := by
      intro file same
      by_contra isConfig
      obtain ⟨other, known⟩ := Option.ne_none_iff_exists'.mp isConfig
      obtain ⟨st, here, -⟩ := fileConfig_iff_readAs.mp known
      exact read ⟨st, (same st).mp here⟩
    rw [unread _ fun st => readAs_overwrite, unread f fun st => Iff.rfl]

theorem OneConfigPerId.write (one : OneConfigPerId files) (present : config ∈ fileConfigs files)
    (found : configTarget config files = some target) (solid : Solid config)
    (enough : ∀ n, target.room = some n →
      (configText (switchedConfig config status)).length ≤ n + 1) :
    OneConfigPerId (files.map (overwrite target
      (target.stored (configText (switchedConfig config status))))) := by
  intro f fIn g gIn st su fRead gRead same
  obtain ⟨f, fOld, rfl⟩ := List.mem_map.mp fIn
  obtain ⟨g, gOld, rfl⟩ := List.mem_map.mp gIn
  rw [readAs_overwrite] at fRead gRead
  rw [read_rewritten one present found solid enough fOld fRead,
    read_rewritten one present found solid enough gOld gRead]
  exact one f fOld g gOld st su fRead gRead same

end Rewritten

theorem commandStep_essentials {s : FsState} {command : CommandEnv × Bytes}
    (one : OneConfigPerId (s.directory.getD [])) (guard : RewriteGuard s command) :
    OneConfigPerId ((commandStep s command).directory.getD []) ∧
      essentialsOf (commandStep s command).directory = essentialsOf s.directory := by
  unfold commandStep
  rw [message_directory, switchedDirectory_command]
  cases isSwitch : switchCommand command.2 with
  | none => exact ⟨one, rfl⟩
  | some switch =>
      obtain ⟨id, status⟩ := switch
      rw [Option.bind_some]
      cases loaded : loadedConfig s.directory id with
      | none => exact ⟨one, rfl⟩
      | some config =>
          rw [Option.map_some, Option.getD_some]
          rcases writeConfigFile_cases (switchedConfig config status) s with
            same | ⟨files, target, listed, found, writable, written⟩
          · rw [same]
            exact ⟨one, rfl⟩
          · obtain ⟨solid, enough⟩ :=
              guard id status config files target isSwitch loaded listed found writable
            rw [listed] at loaded one
            obtain ⟨present, -⟩ := loadedConfig_some loaded
            rw [written, listed]
            exact ⟨one.write present found solid enough,
              essentials_rewritten one present found solid enough⟩

/-- A config that was read comes back from its own text exactly when no value in the text it was
read from was cut after white space. Commands that write only such configs, and write them whole,
change no config but for its switch. -/
theorem configs_rewritten (text : Bytes) (id : Int32) (status : Bool) (s : FsState)
    (commands : List (CommandEnv × Bytes)) :
    ((parseConfig text id).name.text ≠ [] → (parseConfig text id).path.text ≠ [] →
      (RoundTrips (parseConfig text id) status
          (parseConfig (configText (switchedConfig (parseConfig text id) status)) id) ↔
        ∀ key ∈ fieldKeys, ¬ CutAfterSpace text key)) ∧
    (OneConfigPerId (s.directory.getD []) → Guarded commandStep RewriteGuard s commands →
      essentialsOf (run commandStep s commands).directory = essentialsOf s.directory) := by
  constructor
  · intro named located
    have whole := roundTrips_iff (parse_readConfig text id) named located status (Nat.le_succ _) id
    rw [List.take_length] at whole
    rw [whole, parse_solid_iff]
  · intro one guard
    have always := always_of_guarded commandStep
      (J := fun t => OneConfigPerId (t.directory.getD []) ∧
        essentialsOf t.directory = essentialsOf s.directory)
      (fun t command inv guard => by
        obtain ⟨next, same⟩ := commandStep_essentials inv.1 guard
        exact ⟨next, same.trans inv.2⟩) ⟨one, rfl⟩ guard
    exact always.last.2

theorem configs_rewritten_web :
    (RoundTrips (parseConfig (lit "NAME=web\nPATH=/srv/www\n") 12) true
        (parseConfig (configText (switchedConfig
          (parseConfig (lit "NAME=web\nPATH=/srv/www\n") 12) true)) 12) ↔
      ∀ key ∈ fieldKeys, ¬ CutAfterSpace (lit "NAME=web\nPATH=/srv/www\n") key) ∧
    essentialsOf (run commandStep (.zero webDirectory)
        [(⟨growingWatches 1, true⟩, lit "stop 12")]).directory = essentialsOf webDirectory := by
  have one : OneConfigPerId ((FsState.zero webDirectory).directory.getD []) := by
    intro f fIn g gIn st su fRead gRead _
    obtain rfl := List.mem_singleton.mp fIn
    obtain rfl := List.mem_singleton.mp gIn
    rw [Option.some.inj (fRead.stat.symm.trans gRead.stat)]
  have guard : Guarded commandStep RewriteGuard (.zero webDirectory)
      [(⟨growingWatches 1, true⟩, lit "stop 12")] := by
    rw [guarded_cons]
    refine ⟨?_, guarded_nil _⟩
    intro id status config files target command loaded listed found writable
    have switch : switchCommand (lit "stop 12") = some (12, false) := by decide
    have solid : (loadedConfig webDirectory 12).all (fun c => Solid c) = true := by decide
    rw [switch, Option.some.injEq, Prod.mk.injEq] at command
    obtain ⟨rfl, rfl⟩ := command
    have named : loadedConfig webDirectory 12 = some config := loaded
    rw [named] at solid
    refine ⟨by simpa using solid, ?_⟩
    intro n full
    obtain rfl := Option.some.inj listed
    obtain rfl := List.mem_singleton.mp (configTarget_some found).1
    cases full
  have rewritten := configs_rewritten (lit "NAME=web\nPATH=/srv/www\n") 12 true (.zero webDirectory)
    [(⟨growingWatches 1, true⟩, lit "stop 12")]
  exact ⟨rewritten.1 (by decide) (by decide), rewritten.2 one guard⟩

def cutText : Bytes :=
  lit "NAME=" ++ List.replicate 254 120 ++ lit " x\nPATH=/srv/www\n"

theorem cut_name_altered : ¬ ∀ (text : Bytes) (id : Int32) (status : Bool),
    (parseConfig text id).name.text ≠ [] → (parseConfig text id).path.text ≠ [] →
    RoundTrips (parseConfig text id) status
      (parseConfig (configText (switchedConfig (parseConfig text id) status)) id) := by
  intro trips
  have trip := trips cutText 12 true (by decide +kernel) (by decide +kernel)
  have altered : (parseConfig (configText (switchedConfig (parseConfig cutText 12) true)) 12).name ≠
      (parseConfig cutText 12).name := by decide +kernel
  exact altered trip.name

end SysDetector.Fs
