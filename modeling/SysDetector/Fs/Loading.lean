import SysDetector.Fs.Rewriting

namespace SysDetector.Fs
open CLib

def clearPlace (id : Int32) (s : FsState) : FsState :=
  s.setConfig s.configCount
    { FsConfig.zero with id := id, operations := snprintf MAX_FIELD_LEN defaultOperations }

def readLine (s : FsState) (line : Bytes) : FsState :=
  s.setConfig s.configCount (parseLine (s.configs s.configCount) line)

def parseInPlace (file : DirEntry) (id : Int32) (s : FsState) : FsState :=
  if s.configCount ≥ MAX_CONFIGS then s
  else if file.readable then
    let s := (fgets 512 file.content).foldl readLine (clearPlace id s)
    if (s.configs s.configCount).name.text ≠ [] ∧ (s.configs s.configCount).path.text ≠ [] then
      { s with configCount := s.configCount + 1 }
    else s
  else s

def loadEntryInPlace (s : FsState) (file : DirEntry) : FsState :=
  if isHidden file || !hasSuffix file.name (lit ".conf") then s
  else
    match file.stat with
    | some st => if st.regular then parseInPlace file st.id s else s
    | none => s

def loadInPlace (s : FsState) : FsState :=
  let s := { s with configCount := 0 }
  match s.directory with
  | none => s
  | some files => files.foldl loadEntryInPlace s

theorem setConfig_setConfig (s : FsState) (i : Nat) (config config' : FsConfig) :
    (s.setConfig i config).setConfig i config' = s.setConfig i config' := by
  unfold FsState.setConfig
  dsimp only
  rw [Function.update_idem]

theorem setConfig_configs (s : FsState) (i : Nat) (config : FsConfig) :
    (s.setConfig i config).configs i = config :=
  Function.update_self _ _ _

theorem foldl_readLine (lines : List Bytes) (s : FsState) (config : FsConfig) :
    lines.foldl readLine (s.setConfig s.configCount config) =
      s.setConfig s.configCount (lines.foldl parseLine config) := by
  induction lines generalizing config with
  | nil => rfl
  | cons line lines ih =>
      have next : readLine (s.setConfig s.configCount config) line =
          s.setConfig s.configCount (parseLine config line) := by
        show (s.setConfig s.configCount config).setConfig s.configCount _ = _
        rw [setConfig_setConfig]
        exact congrArg (fun c => s.setConfig s.configCount (parseLine c line)) (setConfig_configs s _ _)
      rw [List.foldl_cons, next, ih, List.foldl_cons]

theorem parseInPlace_eq (file : DirEntry) (id : Int32) (s : FsState) :
    parseInPlace file id s = parseConfigFile file id s := by
  have read : (fgets 512 file.content).foldl readLine (clearPlace id s) =
      s.setConfig s.configCount (parseConfig file.content id) := foldl_readLine _ s _
  have here := setConfig_configs s s.configCount (parseConfig file.content id)
  unfold parseInPlace parseConfigFile
  rw [read]
  dsimp only
  rw [show (s.setConfig s.configCount (parseConfig file.content id)).configCount = s.configCount
    from rfl, here]

theorem loadEntryInPlace_eq (s : FsState) (file : DirEntry) :
    loadEntryInPlace s file = loadEntry s file := by
  unfold loadEntryInPlace loadEntry
  cases file.stat with
  | none => rfl
  | some st =>
      dsimp only
      rw [parseInPlace_eq]

theorem loadInPlace_eq (s : FsState) : loadInPlace s = loadConfigs s := by
  have each : loadEntryInPlace = loadEntry := by
    funext s file
    exact loadEntryInPlace_eq s file
  unfold loadInPlace loadConfigs
  cases s.directory with
  | none => rfl
  | some files =>
      dsimp only
      rw [each]

theorem fileConfig_own {file : DirEntry} {config : FsConfig} (own : fileConfig file = some config) :
    ∃ st, file.stat = some st ∧ config = parseConfig file.content st.id := by
  obtain ⟨-, st, stat, -, -, kept⟩ := fileConfig_eq_some.mp own
  exact ⟨st, stat, (accepted_eq_some.mp kept).1.symm⟩

/-- Whatever was in the table, a load leaves in it the first configs that the files of the directory
give, each from its own text and inode, and a second load the same. -/
theorem loaded_in_order (s : FsState) :
    tableConfigs (loadInPlace s) =
        ((s.directory.getD []).filterMap fileConfig).take MAX_CONFIGS ∧
      (∀ config ∈ tableConfigs (loadInPlace s), ∃ file ∈ s.directory.getD [], ∃ st,
        file.stat = some st ∧ config = parseConfig file.content st.id) ∧
      tableConfigs (loadInPlace (loadInPlace s)) = tableConfigs (loadInPlace s) := by
  have first := tableConfigs_loadConfigs s
  have second := tableConfigs_loadConfigs (loadConfigs s)
  rw [loadConfigs_directory, ← first] at second
  rw [loadInPlace_eq, loadInPlace_eq]
  refine ⟨first, fun config member => ?_, second⟩
  rw [first, directoryConfigs] at member
  obtain ⟨file, listed, own⟩ := List.mem_filterMap.mp (List.mem_of_mem_take member)
  exact ⟨file, listed, fileConfig_own own⟩

end SysDetector.Fs
