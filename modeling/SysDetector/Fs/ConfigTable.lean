import SysDetector.Fs.Frames

namespace SysDetector.Fs
open CLib

def tableConfigs (s : FsState) : List FsConfig := (List.range s.configCount).map s.configs

def textConfig (file : DirEntry) (id : Int32) : Option FsConfig :=
  let config := parseConfig file.content id
  if file.readable = true ∧ config.name.text ≠ [] ∧ config.path.text ≠ [] then some config
  else none

def fileConfig (file : DirEntry) : Option FsConfig :=
  if isHidden file || !hasSuffix file.name (lit ".conf") then none
  else file.stat.bind fun st => if st.regular then textConfig file st.id else none

def directoryConfigs (directory : Directory) : List FsConfig :=
  ((directory.getD []).filterMap fileConfig).take MAX_CONFIGS

theorem length_tableConfigs (s : FsState) : (tableConfigs s).length = s.configCount := by
  simp [tableConfigs]

theorem tableConfigs_getElem? {s : FsState} {i : Nat} {config : FsConfig} :
    (tableConfigs s)[i]? = some config ↔ i < s.configCount ∧ s.configs i = config := by
  by_cases inside : i < s.configCount <;> simp [tableConfigs, inside]

theorem mem_tableConfigs {s : FsState} {config : FsConfig} :
    config ∈ tableConfigs s ↔ ∃ i < s.configCount, s.configs i = config := by
  simp [tableConfigs]

theorem find?_tableConfigs (s : FsState) (id : Int32) :
    ((tableConfigs s).find? fun config => config.id = id) = (findConfig s id).map s.configs := by
  rw [tableConfigs, List.find?_map]
  rfl

/-! ## Loading -/

section Loading
variable {s : FsState}

theorem tableConfigs_setConfig (config : FsConfig) :
    tableConfigs (s.setConfig s.configCount config) = tableConfigs s := by
  refine List.map_congr_left fun i member => ?_
  exact Function.update_of_ne (List.mem_range.mp member).ne _ _

theorem tableConfigs_push (config : FsConfig) :
    tableConfigs { s.setConfig s.configCount config with configCount := s.configCount + 1 } =
      tableConfigs s ++ [config] := by
  have kept := tableConfigs_setConfig (s := s) config
  have last : (s.setConfig s.configCount config).configs s.configCount = config :=
    Function.update_self _ _ _
  unfold tableConfigs at kept ⊢
  rw [List.range_succ, List.map_append]
  exact congrArg₂ (· ++ ·) kept (congrArg (fun c => [c]) last)

theorem tableConfigs_parseConfigFile (fits : s.configCount ≤ MAX_CONFIGS) (file : DirEntry)
    (id : Int32) : tableConfigs (parseConfigFile file id s) =
      (tableConfigs s ++ (textConfig file id).toList).take MAX_CONFIGS := by
  have length := length_tableConfigs s
  unfold parseConfigFile textConfig
  by_cases full : s.configCount ≥ MAX_CONFIGS
  · rw [if_pos full, List.take_append_of_le_length (by omega), List.take_of_length_le (by omega)]
  · rw [if_neg full]
    cases file.readable with
    | false => simp [List.take_of_length_le (length.le.trans fits)]
    | true =>
        simp only [if_true, true_and]
        split_ifs
        · rw [Option.toList_some, List.take_of_length_le (by simp [length]; omega)]
          exact tableConfigs_push _
        · rw [Option.toList_none, List.append_nil, List.take_of_length_le (by omega)]
          exact tableConfigs_setConfig _

theorem tableConfigs_loadEntry (fits : s.configCount ≤ MAX_CONFIGS) (file : DirEntry) :
    tableConfigs (loadEntry s file) =
      (tableConfigs s ++ (fileConfig file).toList).take MAX_CONFIGS := by
  have unchanged : tableConfigs s = (tableConfigs s ++ []).take MAX_CONFIGS := by
    rw [List.append_nil, List.take_of_length_le (by rwa [length_tableConfigs])]
  unfold loadEntry fileConfig
  split_ifs
  · exact unchanged
  · cases file.stat with
    | none => exact unchanged
    | some st =>
        simp only [Option.bind_some]
        split_ifs
        · exact tableConfigs_parseConfigFile fits file st.id
        · exact unchanged

theorem tableConfigs_loadEntries (fits : s.configCount ≤ MAX_CONFIGS) (files : List DirEntry) :
    tableConfigs (files.foldl loadEntry s) =
      (tableConfigs s ++ files.filterMap fileConfig).take MAX_CONFIGS := by
  induction files generalizing s with
  | nil =>
      rw [List.filterMap_nil, List.append_nil,
        List.take_of_length_le (by rwa [length_tableConfigs])]
      rfl
  | cons file files ih =>
      have first := tableConfigs_loadEntry fits file
      have fitsNext : (loadEntry s file).configCount ≤ MAX_CONFIGS := by
        rw [← length_tableConfigs, first]
        exact List.length_take_le _ _
      have parts : (file :: files).filterMap fileConfig =
          (fileConfig file).toList ++ files.filterMap fileConfig := by
        cases found : fileConfig file <;> simp [found]
      have rejoined : ∀ front back : List FsConfig,
          (front.take MAX_CONFIGS ++ back).take MAX_CONFIGS = (front ++ back).take MAX_CONFIGS := by
        intro front back
        rw [List.take_append, List.take_append, List.take_take, min_self, List.length_take]
        congr 2
        omega
      rw [List.foldl_cons, ih fitsNext, first, parts, ← List.append_assoc, rejoined]

end Loading

theorem tableConfigs_loadConfigs (s : FsState) :
    tableConfigs (loadConfigs s) = directoryConfigs s.directory := by
  unfold loadConfigs directoryConfigs
  dsimp only
  split
  · next closed =>
      rw [closed]
      rfl
  · next files listed =>
      rw [listed, tableConfigs_loadEntries (Nat.zero_le _) files]
      rfl

/-! ## Switching -/

def switchedConfig (config : FsConfig) (status : Bool) : FsConfig :=
  { config with monitorSwitch := status }

def switchedDirectory (s : FsState) (message : Bytes) : Option Directory :=
  match splitCommand (cstr message) with
  | opt :: arg :: _ =>
      if opt = lit "start" ∨ opt = lit "stop" then
        ((directoryConfigs s.directory).find? fun config => config.id = atoi arg).map fun config =>
          (writeConfigFile (switchedConfig config (decide (opt = lit "start"))) s).directory
      else none
  | _ => none

theorem writeConfigFile_directory (config : FsConfig) {s s' : FsState}
    (same : s'.directory = s.directory) :
    (writeConfigFile config s').directory = (writeConfigFile config s).directory := by
  unfold writeConfigFile
  rw [same]
  split
  · exact same
  · split
    · exact same
    · split
      · rfl
      · exact same

theorem loadConfigs_directory (s : FsState) : (loadConfigs s).directory = s.directory := by
  obtain ⟨configs, count, -, loaded⟩ := loadConfigs_frame s
  rw [loaded]

theorem switchTable_directory (s : FsState) (i : Nat) (status : Bool) :
    (switchTable (loadConfigs s) i status).directory =
      (writeConfigFile (switchedConfig ((loadConfigs s).configs i) status) s).directory := by
  let config := switchedConfig ((loadConfigs s).configs i) status
  let switched := (loadConfigs s).setConfig i config
  have here : switched.configs i = config := Function.update_self _ _ _
  have same : switched.directory = s.directory := loadConfigs_directory s
  calc (switchTable (loadConfigs s) i status).directory
    _ = (writeConfigFile (switched.configs i) switched).directory := loadConfigs_directory _
    _ = (writeConfigFile config s).directory := by
        rw [here, writeConfigFile_directory config same]

theorem rebuildTable_directory (s : FsState) (message : Bytes) :
    (rebuildTable s message).map FsState.directory = switchedDirectory s message := by
  unfold switchedDirectory rebuildTable
  rcases splitCommand (cstr message) with _ | ⟨opt, _ | ⟨arg, rest⟩⟩
  · rfl
  · rfl
  · dsimp only
    split_ifs
    · rw [← tableConfigs_loadConfigs, find?_tableConfigs, Option.map_map, Option.map_map]
      apply congrArg (Option.map · _)
      funext i
      exact switchTable_directory s i _
    · rfl

theorem rebuildTable_loaded {s table : FsState} {message : Bytes}
    (rebuilt : rebuildTable s message = some table) :
    tableConfigs table = directoryConfigs table.directory := by
  unfold rebuildTable at rebuilt
  split at rebuilt
  · split_ifs at rebuilt
    obtain ⟨i, -, rfl⟩ := Option.map_eq_some_iff.mp rebuilt
    unfold switchTable
    rw [tableConfigs_loadConfigs, loadConfigs_directory]
  · cases rebuilt

end SysDetector.Fs
