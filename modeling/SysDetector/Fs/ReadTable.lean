import SysDetector.Fs.ConfigText

namespace SysDetector.Fs
open CLib Runs

def ReadTable (s : FsState) : Prop := ∀ i, ReadConfig (s.configs i)

section
variable {s : FsState}

theorem ReadTable.of_configs {s' : FsState} (read : ReadTable s) (same : s'.configs = s.configs) :
    ReadTable s' := by
  intro i
  rw [same]
  exact read i

theorem ReadTable.setConfig (read : ReadTable s) (i : Nat) {config : FsConfig}
    (own : ReadConfig config) : ReadTable (s.setConfig i config) := by
  intro j
  by_cases here : j = i
  · subst here
    simpa [FsState.setConfig] using own
  · simpa [FsState.setConfig, here] using read j

theorem ReadTable.parseConfigFile (read : ReadTable s) (file : DirEntry) (id : Int32) :
    ReadTable (parseConfigFile file id s) := by
  have stored := read.setConfig s.configCount (parse_readConfig file.content id)
  unfold Fs.parseConfigFile
  dsimp only
  split_ifs
  · exact read
  · exact stored.of_configs rfl
  · exact stored
  · exact read

theorem ReadTable.loadEntry (read : ReadTable s) (file : DirEntry) :
    ReadTable (loadEntry s file) := by
  unfold Fs.loadEntry
  split
  · exact read
  · split
    · split
      · exact read.parseConfigFile file _
      · exact read
    · exact read

theorem ReadTable.loadEntries (read : ReadTable s) (files : List DirEntry) :
    ReadTable (files.foldl Fs.loadEntry s) := by
  induction files generalizing s with
  | nil => exact read
  | cons file files ih => exact ih (read.loadEntry file)

theorem ReadTable.loadConfigs (read : ReadTable s) : ReadTable (loadConfigs s) := by
  have cleared : ReadTable { s with configCount := 0 } := read
  unfold Fs.loadConfigs
  dsimp only
  split
  · exact cleared
  · exact cleared.loadEntries _

theorem ReadTable.writeConfigFile (read : ReadTable s) (config : FsConfig) :
    ReadTable (writeConfigFile config s) := by
  obtain ⟨directory, written⟩ := writeConfigFile_frame config s
  rw [written]
  exact read

theorem ReadTable.switchTable (read : ReadTable s) (i : Nat) (status : Bool) :
    ReadTable (switchTable s i status) := by
  have switched : ReadTable (s.setConfig i { s.configs i with monitorSwitch := status }) :=
    read.setConfig i (read i)
  exact (switched.writeConfigFile _).loadConfigs

/-! ## Messages -/

theorem rebuildTable_read (read : ReadTable s) {message : Bytes} {table : FsState}
    (rebuilt : rebuildTable s message = some table) :
    ReadTable table ∧ table.configCount ≤ MAX_CONFIGS := by
  unfold rebuildTable at rebuilt
  split at rebuilt
  · split_ifs at rebuilt
    obtain ⟨i, -, rfl⟩ := Option.map_eq_some_iff.mp rebuilt
    obtain ⟨_, _, _, bounded, frame⟩ := switchTable_frame (Fs.loadConfigs s) i _
    refine ⟨read.loadConfigs.switchTable i _, ?_⟩
    rw [frame]
    exact bounded
  · cases rebuilt

theorem ReadTable.handleMessage (read : ReadTable s) (env : CommandEnv) (message : Bytes) :
    ReadTable (handleMessage env message s) := by
  have kinds := handleMessage_cases env message s
  cases rebuilt : rebuildTable s message with
  | some table =>
      simp only [rebuilt] at kinds
      obtain ⟨log, responses, out, after⟩ := kinds
      obtain ⟨own, fits⟩ := rebuildTable_read read rebuilt
      obtain ⟨-, -, configs, -⟩ := rebuildWatches_keeps env.watches fits
      rw [after]
      exact own.of_configs configs
  | none =>
      simp only [rebuilt] at kinds
      obtain ⟨log, responses, out, after⟩ := kinds
      rw [after]
      split_ifs
      · exact read.loadConfigs
      · exact read

theorem ReadTable.monitorOnce (read : ReadTable s) (env : ReadEnv) :
    ReadTable (monitorOnce env s) := by
  obtain ⟨_, _, _, _, _, records⟩ := monitorOnce_records env s
  rw [records]
  exact read

theorem ReadTable.step (read : ReadTable s) (input : FsStep) : ReadTable (step s input) := by
  cases input with
  | message env message => exact read.handleMessage env message
  | monitor env => exact read.monitorOnce env
  | edit directory => exact read

end

theorem zero_readConfig : ReadConfig .zero := by
  have empty : texts .zero = List.replicate 4 [] := rfl
  intro t member
  rw [empty] at member
  rw [List.eq_of_mem_replicate member]
  exact ⟨by simp [StartsSolid], by simp⟩

theorem initial_readTable (env : WatchEnv) (directory : Directory) :
    ReadTable (.initial env directory) := by
  have zero : ReadTable (.zero directory) := fun _ => zero_readConfig
  obtain ⟨_, _, bounded, frame⟩ := loadConfigs_frame (.zero directory)
  have fits : (loadConfigs (.zero directory)).configCount ≤ MAX_CONFIGS := by
    rw [frame]
    exact bounded
  obtain ⟨-, -, configs, -⟩ := rebuildWatches_keeps env fits
  exact zero.loadConfigs.of_configs configs

end SysDetector.Fs
