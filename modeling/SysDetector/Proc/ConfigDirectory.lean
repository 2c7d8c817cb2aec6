import SysDetector.Library.ListFacts
import SysDetector.Proc.ConfigTable

namespace SysDetector.Proc
open CLib GrownTable ListFacts

def MAX_PATH_LEN : Nat := 100
def PROC_CONFIG_DIR : Bytes := lit "/etc/sysDetector/proc"

inductive DType
  | unknown
  | fifo
  | chr
  | dir
  | blk
  | reg
  | lnk
  | sock
deriving DecidableEq

structure FileId where
  device : UInt64
  inode : UInt64
deriving DecidableEq

/-- An entry of the directory: whether it is a regular file, what `readdir` says of that, and the
file and the text that are found under its path. -/
structure ConfEntry where
  name : Bytes
  regular : Bool
  dType : DType
  stat : Option FileId
  text : Option Bytes

structure ProcDirectory where
  entries : List ConfEntry
  distinct : (entries.map ConfEntry.name).Nodup
  typed : ∀ entry ∈ entries, entry.dType ≠ .unknown → (entry.regular = true ↔ entry.dType = .reg)
  noNul : ∀ entry ∈ entries, 0 ∉ entry.name
  short : ∀ entry ∈ entries, entry.name.length ≤ 255

def ProcDirectory.empty : ProcDirectory where
  entries := []
  distinct := List.nodup_nil
  typed := List.forall_mem_nil _
  noNul := List.forall_mem_nil _
  short := List.forall_mem_nil _

def ConfEntry.fullPath (entry : ConfEntry) : Bytes := PROC_CONFIG_DIR ++ 47 :: entry.name

def ConfEntry.path (entry : ConfEntry) : Bytes := (snprintf MAX_PATH_LEN entry.fullPath).text

def ConfEntry.isListed (entry : ConfEntry) : Bool :=
  entry.dType == .reg && hasSuffix entry.name (lit ".conf")

def ProcDirectory.lookup (dir : ProcDirectory) (path : Bytes) : Option ConfEntry :=
  dir.entries.find? fun entry => entry.fullPath = path

/-- The call of `parse_config_file` that is made for an entry, with memory for its config. -/
def ProcDirectory.loadCall (dir : ProcDirectory) (entry : ConfEntry) : Option LoadCall :=
  if !entry.isListed then none
  else
    match (dir.lookup entry.path).bind ConfEntry.stat with
    | none => none
    | some file => some
        { filename := entry.path
          configId := file.inode
          text := (dir.lookup entry.path).bind ConfEntry.text
          reallocates := true }

def ProcDirectory.loadEntry (dir : ProcDirectory) (t : ConfigTable) (entry : ConfEntry) :
    ConfigTable :=
  match dir.loadCall entry with
  | none => t
  | some call => (parseConfigFile call t).2

def ProcDirectory.load (dir : ProcDirectory) (t : ConfigTable) : ConfigTable :=
  dir.entries.foldl dir.loadEntry t

inductive OpenDir
  | opened (dir : ProcDirectory)
  | missing
  | failed

structure DirCalls where
  configPathOpens : Bool
  configPathMade : Bool
  first : OpenDir
  procDirMade : Bool
  second : Option ProcDirectory

def DirCalls.directory (calls : DirCalls) : Option ProcDirectory :=
  if !calls.configPathOpens && !calls.configPathMade then none
  else
    match calls.first with
    | .opened dir => some dir
    | .missing => if calls.procDirMade then calls.second else none
    | .failed => none

def DirCalls.listed (calls : DirCalls) : ProcDirectory := calls.directory.getD .empty

def procParseConfig (calls : DirCalls) (t : ConfigTable) : Int32 × ConfigTable :=
  match calls.directory with
  | none => (-1, t)
  | some dir => (0, dir.load t)

/-! ## What is loaded -/

def ConfEntry.config (entry : ConfEntry) : Option ProcessConfig :=
  entry.stat.bind fun file => entry.text.bind fun text => parseConfig text file.inode

structure Load where
  name : Bytes
  path : Bytes
  file : FileId
  config : ProcessConfig
deriving DecidableEq

def ConfEntry.loadBy (entry : ConfEntry) (path : Bytes) (found : ConfEntry) : Option Load :=
  found.stat.bind fun file => found.config.map fun config => ⟨entry.name, path, file, config⟩

def ProcDirectory.loadOf (dir : ProcDirectory) (entry : ConfEntry) : Option Load :=
  (dir.loadCall entry).bind fun call =>
    call.loaded.bind fun config =>
      ((dir.lookup call.filename).bind ConfEntry.stat).map fun file =>
        ⟨entry.name, call.filename, file, config⟩

def ProcDirectory.loads (dir : ProcDirectory) : List Load := dir.entries.filterMap dir.loadOf

def ConfEntry.isConf (entry : ConfEntry) : Bool :=
  entry.regular && hasSuffix entry.name (lit ".conf")

def ConfEntry.ownLoad (entry : ConfEntry) : Option Load :=
  if entry.isConf then entry.loadBy entry.fullPath entry else none

def ProcDirectory.ownLoads (dir : ProcDirectory) : List Load :=
  dir.entries.filterMap ConfEntry.ownLoad

def ConfEntry.Long (entry : ConfEntry) : Prop := MAX_PATH_LEN ≤ entry.fullPath.length

/-- No file whose type `readdir` does not tell gives a config, nor does one whose path does not fit,
nor one that the cut path leads to. -/
structure OwnFilesFound (dir : ProcDirectory) : Prop where
  told : ∀ entry ∈ dir.entries, entry.isConf → entry.dType = .unknown → entry.config = none
  short : ∀ entry ∈ dir.entries, entry.isListed → entry.Long →
    entry.config = none ∧
      ∀ other ∈ dir.entries, other.fullPath = entry.fullPath.take (MAX_PATH_LEN - 1) →
        other.config = none

theorem loadCall_eq_some {dir : ProcDirectory} {entry : ConfEntry} {call : LoadCall} :
    dir.loadCall entry = some call ↔
      entry.isListed = true ∧ ∃ file, (dir.lookup entry.path).bind ConfEntry.stat = some file ∧
        call = ⟨entry.path, file.inode, (dir.lookup entry.path).bind ConfEntry.text, true⟩ := by
  unfold ProcDirectory.loadCall
  cases entry.isListed with
  | false => simp
  | true => cases (dir.lookup entry.path).bind ConfEntry.stat <;> simp [eq_comm]

theorem loadBy_eq_none {entry found : ConfEntry} {path : Bytes} :
    entry.loadBy path found = none ↔ found.config = none := by
  unfold ConfEntry.loadBy ConfEntry.config
  cases found.stat <;> simp

theorem loadOf_eq (dir : ProcDirectory) (entry : ConfEntry) :
    dir.loadOf entry =
      if entry.isListed then (dir.lookup entry.path).bind (entry.loadBy entry.path) else none := by
  unfold ProcDirectory.loadOf ProcDirectory.loadCall
  cases entry.isListed with
  | false => rfl
  | true =>
      cases found : dir.lookup entry.path with
      | none => rfl
      | some other =>
          rw [Option.bind_some, Option.bind_some, Option.bind_some]
          unfold ConfEntry.loadBy ConfEntry.config
          cases file : other.stat with
          | none => rfl
          | some file =>
              cases text : other.text with
              | none => rfl
              | some text =>
                  simp only [Bool.not_true, Bool.false_eq_true, if_false, if_true, Option.bind_some,
                    found, file, Option.map_some]
                  exact Option.map_eq_bind.symm

theorem load_holds (dir : ProcDirectory) :
    Holds (dir.load .empty) (dir.loads.map Load.config) := by
  have table : dir.load .empty = loadAll (dir.entries.filterMap dir.loadCall) := by
    unfold ProcDirectory.load loadAll Runs.run
    rw [List.foldl_filterMap]
    congr 1
    funext t entry
    unfold ProcDirectory.loadEntry
    cases dir.loadCall entry <;> rfl
  have configs : dir.loads.map Load.config =
      (dir.entries.filterMap dir.loadCall).filterMap LoadCall.loaded := by
    rw [ProcDirectory.loads, List.map_filterMap, List.filterMap_filterMap]
    congr 1
    funext entry
    rw [ProcDirectory.loadOf]
    cases made : dir.loadCall entry with
    | none => rfl
    | some call =>
        obtain ⟨-, file, found, rfl⟩ := loadCall_eq_some.mp made
        simp only [Option.bind_some, found, Option.map_some]
        cases LoadCall.loaded _ <;> rfl
  rw [table, configs]
  apply loadAll_holds
  intro call member
  obtain ⟨entry, -, made⟩ := List.mem_filterMap.mp member
  obtain ⟨-, file, -, rfl⟩ := loadCall_eq_some.mp made
  rfl

/-! ## Paths -/

theorem fullPath_inj {entry other : ConfEntry} (same : entry.fullPath = other.fullPath) :
    entry.name = other.name :=
  (List.cons.inj (List.append_cancel_left same)).2

theorem path_eq {dir : ProcDirectory} {entry : ConfEntry} (listed : entry ∈ dir.entries) :
    entry.path = entry.fullPath.take (MAX_PATH_LEN - 1) := by
  have noNul : 0 ∉ entry.fullPath := by
    have plain : (0 : UInt8) ∉ PROC_CONFIG_DIR := by decide
    simp [ConfEntry.fullPath, plain, dir.noNul entry listed]
  show (cstr entry.fullPath).take (MAX_PATH_LEN - 1) = _
  rw [cstr_of_notMem noNul]

theorem length_path_lt {dir : ProcDirectory} {entry : ConfEntry} (listed : entry ∈ dir.entries) :
    entry.path.length < MAX_PATH_LEN := by
  rw [path_eq listed, List.length_take]
  exact Nat.lt_of_le_of_lt (Nat.min_le_left _ _) (by decide)

theorem lookup_iff {dir : ProcDirectory} {path : Bytes} {entry : ConfEntry} :
    dir.lookup path = some entry ↔ entry ∈ dir.entries ∧ entry.fullPath = path := by
  constructor
  · intro found
    exact ⟨List.mem_of_find?_eq_some found, by simpa using List.find?_some found⟩
  · rintro ⟨listed, rfl⟩
    cases found : dir.lookup entry.fullPath with
    | none =>
        have absent := List.find?_eq_none.mp found entry listed
        simp at absent
    | some other =>
        have member := List.mem_of_find?_eq_some found
        have same : other.fullPath = entry.fullPath := by simpa using List.find?_some found
        rw [List.inj_on_of_nodup_map dir.distinct member listed (fullPath_inj same)]

/-! ## Loads and own loads -/

theorem isListed_isConf {dir : ProcDirectory} {entry : ConfEntry} (listed : entry ∈ dir.entries)
    (isListed : entry.isListed = true) : entry.isConf = true := by
  rw [ConfEntry.isListed, Bool.and_eq_true, beq_iff_eq] at isListed
  have regular := (dir.typed entry listed (by simp [isListed.1])).mpr isListed.1
  rw [ConfEntry.isConf, regular, isListed.2, Bool.true_and]

theorem unknown_of_unlisted {dir : ProcDirectory} {entry : ConfEntry}
    (listed : entry ∈ dir.entries) (isConf : entry.isConf = true)
    (unlisted : entry.isListed = false) : entry.dType = .unknown := by
  rw [ConfEntry.isConf, Bool.and_eq_true] at isConf
  by_contra known
  have reg := (dir.typed entry listed known).mp isConf.1
  rw [ConfEntry.isListed, reg, isConf.2] at unlisted
  cases unlisted

theorem loadOf_short {dir : ProcDirectory} {entry : ConfEntry} (listed : entry ∈ dir.entries)
    (isListed : entry.isListed = true) (short : ¬ entry.Long) :
    dir.loadOf entry = entry.ownLoad := by
  have whole : entry.path = entry.fullPath := by
    rw [path_eq listed]
    exact List.take_of_length_le (Nat.le_pred_of_lt (Nat.lt_of_not_le short))
  have found : dir.lookup entry.path = some entry := lookup_iff.mpr ⟨listed, whole.symm⟩
  rw [loadOf_eq, found, whole, if_pos isListed, ConfEntry.ownLoad,
    if_pos (isListed_isConf listed isListed), Option.bind_some]

theorem loadOf_eq_none {dir : ProcDirectory} {entry : ConfEntry} (listed : entry ∈ dir.entries)
    (isListed : entry.isListed = true) :
    dir.loadOf entry = none ↔
      ∀ other ∈ dir.entries, other.fullPath = entry.fullPath.take (MAX_PATH_LEN - 1) →
        other.config = none := by
  rw [loadOf_eq, if_pos isListed, Option.bind_eq_none_iff, path_eq listed]
  constructor
  · intro nothing other member same
    exact loadBy_eq_none.mp (nothing other (lookup_iff.mpr ⟨member, same⟩))
  · intro nothing other found
    obtain ⟨member, same⟩ := lookup_iff.mp found
    exact loadBy_eq_none.mpr (nothing other member same)

theorem loadBy_tags {entry found : ConfEntry} {path : Bytes} {load : Load}
    (made : entry.loadBy path found = some load) : load.name = entry.name ∧ load.path = path := by
  obtain ⟨file, -, rest⟩ := Option.bind_eq_some_iff.mp made
  obtain ⟨config, -, rfl⟩ := Option.map_eq_some_iff.mp rest
  exact ⟨rfl, rfl⟩

theorem loadOf_tags {dir : ProcDirectory} {entry : ConfEntry} {load : Load}
    (made : dir.loadOf entry = some load) : load.name = entry.name ∧ load.path = entry.path := by
  rw [loadOf_eq, Option.ite_none_right_eq_some, Option.bind_eq_some_iff] at made
  obtain ⟨-, found, -, made⟩ := made
  exact loadBy_tags made

theorem ownLoad_tags {entry : ConfEntry} {load : Load} (made : entry.ownLoad = some load) :
    load.name = entry.name ∧ load.path = entry.fullPath := by
  rw [ConfEntry.ownLoad, Option.ite_none_right_eq_some] at made
  exact loadBy_tags made.2

theorem ownLoad_eq_none {entry : ConfEntry} (isConf : entry.isConf = true) :
    entry.ownLoad = none ↔ entry.config = none := by
  rw [ConfEntry.ownLoad, if_pos isConf, loadBy_eq_none]

theorem loads_own_iff (dir : ProcDirectory) :
    dir.loads = dir.ownLoads ↔ OwnFilesFound dir := by
  constructor
  · intro same
    have each : ∀ entry ∈ dir.entries, dir.loadOf entry = entry.ownLoad :=
      eq_of_filterMap_eq dir.distinct (fun _ _ made => (loadOf_tags made).1)
        (fun _ _ made => (ownLoad_tags made).1) same
    refine ⟨fun entry listed isConf unknown => ?_, fun entry listed isListed long => ?_⟩
    · have unlisted : entry.isListed = false := by
        rw [ConfEntry.isListed, unknown]
        rfl
      rw [← ownLoad_eq_none isConf, ← each entry listed, loadOf_eq, unlisted]
      rfl
    · have isConf := isListed_isConf listed isListed
      have nothing : entry.ownLoad = none := by
        by_contra made
        obtain ⟨load, own⟩ := Option.ne_none_iff_exists'.mp made
        have byPath := (loadOf_tags ((each entry listed).trans own)).2
        have shorter := length_path_lt listed
        rw [← byPath, (ownLoad_tags own).2] at shorter
        exact absurd long (Nat.not_le_of_lt shorter)
      rw [← ownLoad_eq_none isConf, ← loadOf_eq_none listed isListed, each entry listed]
      exact ⟨nothing, nothing⟩
  · intro found
    apply List.filterMap_congr
    intro entry listed
    cases isListed : entry.isListed with
    | true =>
        by_cases long : entry.Long
        · obtain ⟨nothing, others⟩ := found.short entry listed isListed long
          rw [(loadOf_eq_none listed isListed).mpr others,
            (ownLoad_eq_none (isListed_isConf listed isListed)).mpr nothing]
        · exact loadOf_short listed isListed long
    | false =>
        rw [loadOf_eq, isListed, if_neg Bool.false_ne_true]
        cases isConf : entry.isConf with
        | true =>
            have nothing := found.told entry listed isConf (unknown_of_unlisted listed isConf isListed)
            exact ((ownLoad_eq_none isConf).mpr nothing).symm
        | false => rw [ConfEntry.ownLoad, isConf, if_neg Bool.false_ne_true]

/-- From an empty table, the table holds what was loaded. That is one config for each regular
`.conf` file that is well formed, read from that file, exactly when `readdir` tells the type of each
such file and no path that is cut is of such a file or leads to one; and no file is read twice
besides exactly when none has two such names. -/
theorem own_files_loaded_iff (calls : DirCalls) :
    Holds (procParseConfig calls .empty).2 (calls.listed.loads.map Load.config) ∧
      (calls.listed.loads = calls.listed.ownLoads ↔ OwnFilesFound calls.listed) ∧
      (calls.listed.loads = calls.listed.ownLoads ∧ (calls.listed.loads.map Load.file).Nodup ↔
        OwnFilesFound calls.listed ∧ (calls.listed.ownLoads.map Load.file).Nodup) := by
  refine ⟨?_, loads_own_iff calls.listed, ?_⟩
  · unfold procParseConfig DirCalls.listed
    cases calls.directory with
    | none => exact holds_empty
    | some dir => exact load_holds dir
  · rw [loads_own_iff]
    apply and_congr_right
    intro found
    rw [(loads_own_iff calls.listed).mpr found]

def longNameDirectory : ProcDirectory where
  entries := [⟨List.replicate 75 120 ++ lit ".conf", true, .reg, some ⟨0, 7⟩, some (lit "NAME=sh\n")⟩]
  distinct := by decide
  typed := by decide
  noNul := by decide
  short := by decide

theorem long_name_not_loaded : ¬ ∀ dir : ProcDirectory, dir.loads = dir.ownLoads := by
  intro own
  exact absurd (own longNameDirectory) (by decide)

end SysDetector.Proc
