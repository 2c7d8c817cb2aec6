import Mathlib.Data.List.Basic
import SysDetector.Fs.ConfigTable

namespace SysDetector.Fs
open CLib

def switchCommand (message : Bytes) : Option (Int32 × Bool) :=
  match splitCommand (cstr message) with
  | opt :: arg :: _ =>
      if opt = lit "start" ∨ opt = lit "stop" then some (atoi arg, decide (opt = lit "start"))
      else none
  | _ => none

def loadedConfig (directory : Directory) (id : Int32) : Option FsConfig :=
  (directoryConfigs directory).find? fun config => config.id = id

theorem switchedDirectory_command (s : FsState) (message : Bytes) : switchedDirectory s message =
    (switchCommand message).bind fun command => (loadedConfig s.directory command.1).map
      fun config => (writeConfigFile (switchedConfig config command.2) s).directory := by
  unfold switchedDirectory switchCommand
  rcases splitCommand (cstr message) with _ | ⟨opt, _ | ⟨arg, rest⟩⟩
  · rfl
  · rfl
  · dsimp only
    split_ifs <;> rfl

/-! ## The configs of all files -/

def fileConfigs (files : List DirEntry) : List FsConfig := files.filterMap fileConfig

def isConfFile (file : DirEntry) : Bool := !(isHidden file || !hasSuffix file.name (lit ".conf"))

def accepted (config : FsConfig) : Option FsConfig :=
  if config.name.text ≠ [] ∧ config.path.text ≠ [] then some config else none

theorem parseConfig_id (text : Bytes) (id : Int32) : (parseConfig text id).id = id := by
  unfold parseConfig
  generalize start : { FsConfig.zero with
    id := id, operations := snprintf MAX_FIELD_LEN defaultOperations } = config
  have same : config.id = id := by rw [← start]
  clear start
  induction fgets 512 text generalizing config with
  | nil => exact same
  | cons line lines ih =>
      apply ih
      unfold parseLine assign
      dsimp only
      split_ifs
      · exact same
      · split
        · exact same
        · split_ifs <;> exact same

theorem fileConfig_eq_some {file : DirEntry} {config : FsConfig} :
    fileConfig file = some config ↔ isConfFile file = true ∧ ∃ st, file.stat = some st ∧
      st.regular = true ∧ file.readable = true ∧
        accepted (parseConfig file.content st.id) = some config := by
  unfold fileConfig isConfFile textConfig accepted
  cases isHidden file || !hasSuffix file.name (lit ".conf") with
  | true => simp
  | false =>
      cases file.stat with
      | none => simp
      | some st => cases st.regular <;> cases file.readable <;> simp

theorem accepted_eq_some {config kept : FsConfig} : accepted config = some kept ↔
    config = kept ∧ kept.name.text ≠ [] ∧ kept.path.text ≠ [] := by
  unfold accepted
  rw [Option.ite_none_right_eq_some, Option.some.injEq]
  constructor
  · rintro ⟨fields, rfl⟩
    exact ⟨rfl, fields⟩
  · rintro ⟨rfl, fields⟩
    exact ⟨fields, rfl⟩

def OneFilePerId (files : List DirEntry) : Prop :=
  ∀ f ∈ files, ∀ g ∈ files, ∀ st su, f.stat = some st → g.stat = some su → st.id = su.id →
    st = su ∧ f.content = g.content ∧ f.readable = g.readable

section
variable {files : List DirEntry} {config : FsConfig}

theorem fileConfig_id {file : DirEntry} (known : fileConfig file = some config) :
    file.stat.map FileStat.id = some config.id := by
  obtain ⟨-, st, stat, -, -, read⟩ := fileConfig_eq_some.mp known
  obtain ⟨rfl, -⟩ := accepted_eq_some.mp read
  rw [stat, Option.map_some, parseConfig_id]

theorem fileConfig_content {file : DirEntry} {st : FileStat} (stat : file.stat = some st)
    (text : Bytes) : fileConfig { file with content := text } =
      if isConfFile file && file.readable && st.regular then accepted (parseConfig text st.id)
      else none := by
  have name : isConfFile { file with content := text } = isConfFile file := rfl
  apply Option.ext
  intro config
  rw [fileConfig_eq_some, name]
  cases isConfFile file <;> cases file.readable <;> cases regular : st.regular <;>
    simp [stat, regular]

theorem fileConfig_rewritten {f g : DirEntry} {st : FileStat} (known : fileConfig f = some config)
    (fStat : f.stat = some st) (gStat : g.stat = some st) (readable : f.readable = g.readable)
    (text : Bytes) : fileConfig { g with content := text } =
      if isConfFile g then accepted (parseConfig text st.id) else none := by
  obtain ⟨-, su, stat, regular, isReadable, -⟩ := fileConfig_eq_some.mp known
  rw [fStat, Option.some.injEq] at stat
  rw [← stat] at regular
  rw [fileConfig_content gStat, ← readable, isReadable, regular, Bool.and_true, Bool.and_true]

theorem configTarget_some {target : DirEntry} (found : configTarget config files = some target) :
    target ∈ files ∧ ∃ st, target.stat = some st ∧ st.id = config.id := by
  refine ⟨List.mem_of_find?_eq_some found, ?_⟩
  have isTarget := List.find?_some found
  simp only [Bool.and_eq_true, decide_eq_true_eq, Option.map_eq_some_iff] at isTarget
  exact isTarget.2

theorem SameFile.id {f target : DirEntry} (same : SameFile f target) {st : FileStat}
    (stat : target.stat = some st) : ∃ su, f.stat = some su ∧ su.id = st.id := by
  rw [SameFile, stat, Option.map_some, Option.map_eq_some_iff] at same
  obtain ⟨su, fStat, file⟩ := same
  refine ⟨su, fStat, ?_⟩
  rw [FileStat.id, (Prod.mk.inj file).2, FileStat.id]

theorem overwrite_eq (one : OneFilePerId files) {target f : DirEntry}
    (found : configTarget config files = some target) (member : f ∈ files) (text : Bytes) :
    overwrite target text f =
      if f.stat.map FileStat.id = some config.id then { f with content := text } else f := by
  obtain ⟨targetIn, st, stat, id⟩ := configTarget_some found
  unfold overwrite
  apply if_congr ?_ rfl rfl
  rw [← id]
  constructor
  · intro same
    obtain ⟨su, fStat, sameId⟩ := same.id stat
    rw [fStat, Option.map_some, sameId]
  · intro same
    obtain ⟨su, fStat, sameId⟩ := Option.map_eq_some_iff.mp same
    rw [SameFile, fStat, stat, (one f member target targetIn su st fStat stat sameId).1]

theorem OneFilePerId.write (one : OneFilePerId files) {target : DirEntry}
    (found : configTarget config files = some target) (text : Bytes) :
    OneFilePerId (files.map (overwrite target text)) := by
  intro f fIn g gIn st su fStat gStat same
  obtain ⟨f, fOld, rfl⟩ := List.mem_map.mp fIn
  obtain ⟨g, gOld, rfl⟩ := List.mem_map.mp gIn
  rw [overwrite_eq one found fOld] at fStat ⊢
  rw [overwrite_eq one found gOld] at gStat ⊢
  have fStatOld : f.stat = some st := by split_ifs at fStat <;> exact fStat
  have gStatOld : g.stat = some su := by split_ifs at gStat <;> exact gStat
  obtain ⟨rfl, content, readable⟩ := one f fOld g gOld st su fStatOld gStatOld same
  rw [fStatOld, gStatOld]
  split_ifs
  · exact ⟨rfl, rfl, readable⟩
  · exact ⟨rfl, content, readable⟩

theorem fileConfigs_write (one : OneFilePerId files) (present : config ∈ fileConfigs files)
    {written : FsConfig} (same : written.id = config.id) {target : DirEntry}
    (found : configTarget written files = some target) (text : Bytes) :
    fileConfigs (files.map (overwrite target text)) = (fileConfigs files).filterMap fun other =>
      if other.id = config.id then accepted (parseConfig text config.id) else some other := by
  obtain ⟨f, fIn, known⟩ := List.mem_filterMap.mp present
  obtain ⟨-, st, fStat, -, -, read⟩ := fileConfig_eq_some.mp known
  have fId := fileConfig_id known
  rw [fStat, Option.map_some, Option.some.injEq] at fId
  unfold fileConfigs
  rw [List.filterMap_map, List.filterMap_filterMap]
  refine List.filterMap_congr fun g gIn => ?_
  rw [Function.comp_apply, overwrite_eq one found gIn, same]
  split_ifs with here
  · obtain ⟨su, gStat, gId⟩ := Option.map_eq_some_iff.mp here
    obtain ⟨rfl, content, readable⟩ := one f fIn g gIn st su fStat gStat (fId.trans gId.symm)
    have now := fileConfig_rewritten known fStat gStat readable text
    have before : fileConfig g = if isConfFile g then some config else none := by
      rw [← read, content]
      exact fileConfig_rewritten known fStat gStat readable g.content
    rw [now, before, fId]
    cases isConfFile g with
    | false => rfl
    | true => simp
  · cases other : fileConfig g with
    | none => rfl
    | some c =>
        have elsewhere : c.id ≠ config.id := by
          intro sameId
          rw [fileConfig_id other, sameId] at here
          exact here rfl
        rw [Option.bind_some, if_neg elsewhere]

end

end SysDetector.Fs
