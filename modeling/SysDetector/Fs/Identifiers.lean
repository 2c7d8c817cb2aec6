import SysDetector.Library.Numerals
import SysDetector.Library.Tokens
import SysDetector.Fs.SwitchOutcome

namespace SysDetector.Fs
open CLib

def switchText (status : Bool) (text : Bytes) : Bytes :=
  (if status then lit "start " else lit "stop ") ++ text

def entryAt (directory : Directory) (k : Nat) : Option DirEntry := (directory.getD [])[k]?

/-- The message makes the worker switch a config and write a file: `own` is the file that the config
was loaded from and `target` the one that is opened. -/
structure Writes (directory : Directory) (message : Bytes) (status : Bool) (config : FsConfig)
    (own target : DirEntry) : Prop where
  command : switchCommand message = some (config.id, status)
  loaded : loadedConfig directory config.id = some config
  ownFile : (directory.getD []).find? (isFileOf config.id) = some own
  opened : configTarget config (directory.getD []) = some target
  writable : target.writable = true

/-- A file is written only for its inode in full, and no other file has other contents after. -/
structure OwnFileOnly (status : Bool) (text : Bytes) (s after : FsState) : Prop where
  named : ∀ config own target, Writes s.directory (switchText status text) status config own target →
    ∃ st, own.stat = some st ∧ text = decimal st.inode.toNat
  alone : ∀ k f g, entryAt s.directory k = some f → entryAt after.directory k = some g →
    g.content ≠ f.content → ∃ config own target,
      Writes s.directory (switchText status text) status config own target ∧ SameFile f own

def TakesOwnFile (status : Bool) (text : Bytes) (directory : Directory) : Prop :=
  ∀ config own target, Writes directory (switchText status text) status config own target →
    (∃ st, own.stat = some st ∧ text = decimal st.inode.toNat) ∧
      (SameFile target own ∨ ∀ f ∈ directory.getD [], SameFile f target →
        f.content = target.stored (configText (switchedConfig config status)))

/-! ## What a command writes -/

section
variable {message : Bytes} {status : Bool} {s : FsState} {config : FsConfig}
  {own target : DirEntry}

theorem Writes.unique {directory : Directory} {config' : FsConfig} {own' target' : DirEntry}
    (first : Writes directory message status config own target)
    (second : Writes directory message status config' own' target') :
    config = config' ∧ own = own' ∧ target = target' := by
  have command := second.command
  rw [first.command, Option.some.injEq, Prod.mk.injEq] at command
  have loaded := second.loaded
  rw [← command.1, first.loaded, Option.some.injEq] at loaded
  subst loaded
  refine ⟨rfl, ?_, ?_⟩
  · exact Option.some.inj (first.ownFile.symm.trans second.ownFile)
  · exact Option.some.inj (first.opened.symm.trans second.opened)

theorem splitCommand_switchText (status : Bool) (text : Bytes) :
    splitCommand (cstr (switchText status text)) =
      (if status then lit "start" else lit "stop") :: (strtok 32 (cstr text)).take 2 := by
  have word : IsWord 32 (if status then lit "start" else lit "stop") := by cases status <;> decide
  have noNul : 0 ∉ (if status then lit "start" else lit "stop") ++ [32] := by
    cases status <;> decide
  have parts : switchText status text =
      ((if status then lit "start" else lit "stop") ++ [32]) ++ text := by
    cases status <;> rfl
  rw [splitCommand, parts, cstr_append noNul, List.append_assoc, List.singleton_append,
    strtok_cons word]
  rfl

theorem switchCommand_switchText (status : Bool) (text : Bytes) :
    switchCommand (switchText status text) =
      (strtok 32 (cstr text)).head?.map fun arg => (atoi arg, status) := by
  rw [switchCommand, splitCommand_switchText]
  cases strtok 32 (cstr text) with
  | nil => rfl
  | cons arg rest => cases status <;> rfl

theorem Writes.directory (writes : Writes s.directory message status config own target)
    (env : CommandEnv) : (handleMessage env message s).directory = some ((s.directory.getD []).map
      (overwrite target (target.stored (configText (switchedConfig config status))))) := by
  obtain ⟨command, loaded, -, isTarget, writable⟩ := writes
  cases listed : s.directory with
  | none =>
      rw [listed] at loaded
      cases loaded
  | some files =>
      rw [listed] at isTarget
      have found : configTarget (switchedConfig config status) files = some target := isTarget
      have written : rewritten (switchedConfig config status) target =
          overwrite target (target.stored (configText (switchedConfig config status))) := by
        funext file
        rw [rewritten, if_pos writable]
      rw [message_directory, switchedDirectory_command, command, Option.bind_some, loaded,
        Option.map_some, Option.getD_some, writeConfigFile_rewritten listed found, written]
      rfl

theorem LoadedAt.writes {directory : Directory} {earlier rest : List DirEntry}
    (place : LoadedAt directory config earlier own rest target)
    (command : switchCommand message = some (config.id, status))
    (loaded : loadedConfig directory config.id = some config) (writable : target.writable = true) :
    Writes directory message status config own target where
  command := command
  loaded := loaded
  ownFile := by
    rw [place.listed]
    exact List.find?_eq_some_iff_append.mpr
      ⟨place.isFile, earlier, rest, rfl, by simpa using place.apart⟩
  opened := by
    rw [place.listed]
    exact place.found
  writable := writable

theorem directory_of_not_writes (env : CommandEnv) {text : Bytes}
    (idle : ∀ config own target,
      ¬ Writes s.directory (switchText status text) status config own target) :
    (handleMessage env (switchText status text) s).directory = s.directory := by
  have command := switchCommand_switchText status text
  cases named : (strtok 32 (cstr text)).head? with
  | none =>
      rw [named, Option.map_none] at command
      rw [message_directory, switchedDirectory_command, command]
      rfl
  | some arg =>
      rw [named, Option.map_some] at command
      rw [message_directory, switchedDirectory_command, command, Option.bind_some]
      cases loaded : loadedConfig s.directory (atoi arg) with
      | none => rfl
      | some config =>
          obtain ⟨sameId, earlier, file, rest, target, place⟩ := loadedAt_exists loaded
          rw [← sameId] at command loaded
          have refused : target.writable = false := by
            by_contra writable
            rw [Bool.not_eq_false] at writable
            exact idle config file target (place.writes command loaded writable)
          have unchanged : rewritten (switchedConfig config status) target = id := by
            funext f
            rw [rewritten, refused, if_neg Bool.false_ne_true, id]
          have found : configTarget (switchedConfig config status) (earlier ++ file :: rest) =
              some target := place.found
          rw [Option.map_some, Option.getD_some, writeConfigFile_rewritten place.listed found,
            unchanged, List.map_id, place.listed]

end

theorem takes_of_only {env : CommandEnv} {status : Bool} {text : Bytes} {s : FsState}
    (only : OwnFileOnly status text s (handleMessage env (switchText status text) s)) :
    TakesOwnFile status text s.directory := by
  intro config own target writes
  refine ⟨only.named config own target writes, ?_⟩
  by_contra other
  rw [not_or, not_forall] at other
  obtain ⟨otherFile, f, changes⟩ := other
  rw [Classical.not_imp, Classical.not_imp] at changes
  obtain ⟨member, shown, changes⟩ := changes
  obtain ⟨k, here⟩ := List.mem_iff_getElem?.mp member
  let stored := target.stored (configText (switchedConfig config status))
  have after : entryAt (handleMessage env (switchText status text) s).directory k =
      some { f with content := stored } := by
    rw [entryAt, writes.directory env, Option.getD_some, List.getElem?_map, here, Option.map_some]
    exact congrArg some (if_pos shown)
  obtain ⟨config', own', target', writes', same⟩ :=
    only.alone k f _ here after fun equal => changes equal.symm
  obtain ⟨-, rfl, -⟩ := writes.unique writes'
  exact otherFile (shown.symm.trans same)

theorem only_of_takes (env : CommandEnv) {status : Bool} {text : Bytes} {s : FsState}
    (takes : TakesOwnFile status text s.directory) :
    OwnFileOnly status text s (handleMessage env (switchText status text) s) := by
  refine ⟨fun config own target writes => (takes config own target writes).1, ?_⟩
  intro k f g before after changed
  by_cases written : ∃ config own target,
      Writes s.directory (switchText status text) status config own target
  · obtain ⟨config, own, target, writes⟩ := written
    refine ⟨config, own, target, writes, ?_⟩
    rw [entryAt] at before
    rw [entryAt, writes.directory env, Option.getD_some, List.getElem?_map, before, Option.map_some,
      Option.some.injEq, overwrite] at after
    split_ifs at after with shown
    · rcases (takes config own target writes).2 with same | held
      · exact Eq.trans shown same
      · rw [← after] at changed
        exact absurd (held f (List.mem_of_getElem? before) shown).symm changed
    · exact absurd (congrArg DirEntry.content after.symm) changed
  · simp only [not_exists] at written
    rw [directory_of_not_writes env written, before, Option.some.injEq] at after
    exact absurd (congrArg DirEntry.content after.symm) changed

theorem own_file_only_iff (env : CommandEnv) (status : Bool) (text : Bytes) (s : FsState) :
    OwnFileOnly status text s (handleMessage env (switchText status text) s) ↔
      TakesOwnFile status text s.directory :=
  ⟨takes_of_only, only_of_takes env⟩

def wideDirectory : Directory :=
  some [confFile "web.conf" 4294967308 "MONITOR_SWITCH=off\nNAME=web\nPATH=/srv/www\n"]

/-- The table keeps the low half of the inode only. -/
theorem low_half_suffices : ¬ ∀ (env : CommandEnv) (status : Bool) (text : Bytes) (s : FsState),
    OwnFileOnly status text s (handleMessage env (switchText status text) s) := by
  intro only
  have named := (only ⟨growingWatches 1, true⟩ true (lit "12") (.zero wideDirectory)).named
  obtain ⟨config, loaded⟩ : ∃ config, loadedConfig wideDirectory 12 = some config :=
    Option.isSome_iff_exists.mp (by decide)
  obtain ⟨id, earlier, file, rest, target, place⟩ := loadedAt_exists loaded
  have command : switchCommand (switchText true (lit "12")) = some (config.id, true) := by
    rw [id]
    decide
  have entries : ∀ f ∈ earlier ++ file :: rest, f.writable = true ∧
      f.stat = some ⟨0, 4294967308, true⟩ := by
    have files := place.listed
    rw [wideDirectory, Option.some.injEq] at files
    rw [← files]
    simp [confFile]
  have writes := place.writes command (id.symm ▸ loaded)
    (entries target (configTarget_some place.found).1).1
  obtain ⟨st, stat, same⟩ := named config file target writes
  rw [(entries file (by simp)).2, Option.some.injEq] at stat
  have twelve : lit "12" = decimal 12 := by decide
  rw [twelve, ← stat] at same
  have inode := decimal_injective same
  revert inode
  decide

/-! ## Inodes that fit an `int` -/

theorem fileStat_id (st : FileStat) : st.id = Int32.ofNat st.inode.toNat := by
  rw [FileStat.id, UInt64.toUInt32]
  rfl

theorem int32_ofNat_injective {m n : Nat} (mFits : m < 2 ^ 31) (nFits : n < 2 ^ 31)
    (same : Int32.ofNat m = Int32.ofNat n) : m = n := by
  rw [← Int32.toNatClampNeg_ofNat_of_lt mFits, same, Int32.toNatClampNeg_ofNat_of_lt nFits]

theorem switchCommand_decimal (status : Bool) {n : Nat} (fits : n < 2 ^ 31) :
    switchCommand (switchText status (decimal n)) = some (Int32.ofNat n, status) := by
  have plain : ∀ c ∈ decimal n, c ≠ 0 ∧ c ≠ 32 := by
    intro c member
    have digit := isdigit_of_mem_decimal member
    constructor <;>
      · rintro rfl
        cases digit
  have word : IsWord 32 (decimal n) :=
    ⟨decimal_ne_nil n, fun member => (plain 32 member).2 rfl⟩
  rw [switchCommand_switchText, cstr_of_notMem fun member => (plain 0 member).1 rfl,
    strtok_word word, List.head?_cons, Option.map_some, atoi_decimal fits]

theorem own_file_only_of_small (env : CommandEnv) (status : Bool) {n : Nat} (fits : n < 2 ^ 31)
    {s : FsState} {device : UInt64} (small : ∀ f ∈ s.directory.getD [], ∀ st, f.stat = some st →
      st.device = device ∧ st.inode.toNat < 2 ^ 31) :
    OwnFileOnly status (decimal n) s (handleMessage env (switchText status (decimal n)) s) := by
  refine only_of_takes env fun config own target writes => ?_
  have command := writes.command
  rw [switchCommand_decimal status fits, Option.some.injEq, Prod.mk.injEq] at command
  have inode {f : DirEntry} {st : FileStat} (member : f ∈ s.directory.getD [])
      (stat : f.stat = some st) (id : st.id = config.id) : st.inode.toNat = n := by
    rw [fileStat_id, ← command.1] at id
    exact int32_ofNat_injective (small f member st stat).2 fits id
  obtain ⟨other, known, id⟩ := isFileOf_eq_true.mp (List.find?_some writes.ownFile)
  obtain ⟨-, st, stat, -, -, read⟩ := fileConfig_eq_some.mp known
  have ownId := fileConfig_id known
  rw [stat, Option.map_some, Option.some.injEq, id] at ownId
  have ownMember := List.mem_of_find?_eq_some writes.ownFile
  have ownInode := inode ownMember stat ownId
  obtain ⟨member, su, targetStat, targetId⟩ := configTarget_some writes.opened
  have targetInode := inode member targetStat targetId
  refine ⟨⟨st, stat, by rw [ownInode]⟩, .inl ?_⟩
  have sameInode : su.inode = st.inode := UInt64.toNat_inj.mp (targetInode.trans ownInode.symm)
  rw [SameFile, stat, targetStat, Option.map_some, Option.map_some, sameInode,
    (small own ownMember st stat).1, (small target member su targetStat).1]

end SysDetector.Fs
