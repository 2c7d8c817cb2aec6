import SysDetector.Fs.RoundTrip

namespace SysDetector.Fs
open CLib Runs

/-! ## Outcomes -/

def switchOf (config : FsConfig) : Int32 × Bool := (config.id, config.monitorSwitch)

def isFileOf (id : Int32) (file : DirEntry) : Bool :=
  (fileConfig file).any fun config => config.id = id

def filePosition (directory : Directory) (id : Int32) : Option Nat :=
  (directory.getD []).findIdx? (isFileOf id)

def fileSwitch (directory : Directory) (position : Nat) : Option (Int32 × Bool) :=
  ((directory.getD [])[position]?.bind fileConfig).map switchOf

/-- The config's file and the table that was loaded from it have the switch as it was asked for, and
a config that was started is watched at its path. -/
structure Performed (config : FsConfig) (status : Bool) (s after : FsState) : Prop where
  file : (filePosition s.directory config.id).bind (fileSwitch after.directory) =
    some (config.id, status)
  table : ((tableConfigs after).find? fun c => c.id = config.id).map switchOf =
    some (config.id, status)
  watched : status = true → ∃ word ∈ after.watchConfig,
    findConfig after config.id = some (watchIndex word) ∧
      (after.configs (watchIndex word)).path = config.path

structure Untouched (s after : FsState) : Prop where
  directory : after.directory = s.directory
  switches : (tableConfigs after).map switchOf = (tableConfigs s).map switchOf
  watches : acceptedWatches after = acceptedWatches s

/-- There is one answer, 0 for a command that was performed and another for one that changed
nothing. -/
def SwitchOutcome (id : Int32) (status : Bool) (s after : FsState) : Prop :=
  ∃ code, after.responses = s.responses ++ [code] ∧
    (code = 0 → ∃ config, loadedConfig s.directory id = some config ∧
      Performed config status s after) ∧
    (code ≠ 0 → Untouched s after)

/-! ## What it takes -/

/-- The entry is read as a config file, and shows what is written to the target. -/
def shows (target file : DirEntry) : Bool :=
  target.writable && decide (SameFile file target) &&
    (isConfFile file && file.readable && file.stat.any FileStat.regular)

def Survives (config : FsConfig) (target : DirEntry) : Prop :=
  ∀ n, target.room = some n → pathStart config < n

def KeepsPath (config : FsConfig) (target : DirEntry) : Prop :=
  EndsSolid config.path.text ∧
    ∀ n, target.room = some n → pathStart config + config.path.text.length ≤ n

structure WriteSuffices (config : FsConfig) (status : Bool) (earlier : List DirEntry)
    (file target : DirEntry) : Prop where
  own : shows target file = true → Survives (switchedConfig config status) target
  other : shows target file = false → config.monitorSwitch = status
  path : status = true → (∃ f ∈ earlier ++ [file], shows target f = true) →
    Survives (switchedConfig config status) target → KeepsPath (switchedConfig config status) target

/-- The write does what was asked for, and for a start the path can be watched. Without a config of
the id, the configs that are loaded are switched as the table had them. -/
def SwitchGuard (env : WatchEnv) (id : Int32) (status : Bool) (s : FsState) : Prop :=
  match loadedConfig s.directory id with
  | none => (directoryConfigs s.directory).map switchOf = (tableConfigs s).map switchOf
  | some config =>
      (∀ files file target, s.directory = some files → files.find? (isFileOf id) = some file →
        configTarget config files = some target →
          WriteSuffices config status (files.takeWhile fun f => !isFileOf id f) file target) ∧
      (status = true → opens env s = true ∧ 0 ≤ env.addWatch config.path)

/-! ## The text that was written -/

theorem pathStart_le (config : FsConfig) :
    pathStart config + config.path.text.length < (configText config).length := by
  have parts : configText config = (lit "MONITOR_SWITCH=" ++ switchWord config.monitorSwitch ++
      lit "\nNAME=" ++ config.name.text ++ lit "\nPATH=") ++ config.path.text ++
        (lit "\nOPERATIONS=" ++ config.operations.text ++ lit "\nALARM_COMMAND=" ++
          command config ++ lit "\n") := by
    simp only [configText, switchWord, command, List.append_assoc]
  have last : (lit "\n").length = 1 := by decide
  rw [parts, List.length_append, List.length_append, pathStart]
  simp only [List.length_append, last]
  omega

theorem survives_iff {config : FsConfig} {target : DirEntry} : Survives config target ↔
    pathStart config < target.room.getD (configText config).length := by
  have inside := pathStart_le config
  unfold Survives
  cases target.room with
  | none => simpa using (Nat.le_add_right _ _).trans_lt inside
  | some n => simp

theorem keepsPath_iff {config : FsConfig} {target : DirEntry} : KeepsPath config target ↔
    EndsSolid config.path.text ∧
      pathStart config + config.path.text.length ≤ target.room.getD (configText config).length := by
  have inside := pathStart_le config
  unfold KeepsPath
  cases target.room with
  | none => simp [inside.le]
  | some n => simp

theorem trim_take_iff {path : Bytes} (starts : StartsSolid path) (n : Nat) :
    trim (path.take n) = path ↔ EndsSolid path ∧ path.length ≤ n := by
  constructor
  · intro same
    have short := (trim_sublist (path.take n)).length_le
    rw [same, List.length_take] at short
    refine ⟨?_, by omega⟩
    rw [← same]
    exact trim_endsSolid _
  · rintro ⟨ends, short⟩
    rw [List.take_of_length_le short, trim_of_solid starts, trimEnd_eq_self_iff.mpr ends]

theorem trim_take_ne_nil {path : Bytes} (starts : StartsSolid path) (nonempty : path ≠ []) {n : Nat}
    (positive : n ≠ 0) : trim (path.take n) ≠ [] := by
  apply trim_ne_nil
  · intro c first
    rw [List.head?_take, if_neg positive] at first
    exact starts c first
  · rw [ne_eq, List.take_eq_nil_iff, not_or]
    exact ⟨positive, nonempty⟩

section Kept
variable {config : FsConfig} {target : DirEntry}

def storedConfig (config : FsConfig) (target : DirEntry) : Option FsConfig :=
  accepted (parseConfig (target.stored (configText config)) config.id)

theorem stored_dies (read : ReadConfig config) (dies : ¬ Survives config target) :
    storedConfig config target = none := by
  rw [survives_iff, not_lt] at dies
  have path := parse_short read dies config.id
  rw [storedConfig, stored_room, accepted, if_neg]
  exact fun fields => fields.2 path

theorem stored_survives (read : ReadConfig config) (named : config.name.text ≠ [])
    (located : config.path.text ≠ []) (survives : Survives config target) :
    ∃ kept, storedConfig config target = some kept ∧ switchOf kept = switchOf config ∧
      (kept.path = config.path ↔ KeepsPath config target) := by
  rw [survives_iff] at survives
  obtain ⟨switch, name, path⟩ := parse_long read survives config.id
  have sameId := parseConfig_id ((configText config).take
    (target.room.getD (configText config).length)) config.id
  rw [storedConfig, stored_room, keepsPath_iff]
  generalize parseConfig ((configText config).take
    (target.room.getD (configText config).length)) config.id = kept at switch name path sameId ⊢
  simp only [ReadConfig, texts, List.forall_mem_cons] at read
  obtain ⟨nameRead, pathRead, -⟩ := read
  have nameText : kept.name.text = trim config.name.text := by
    rw [name, snprintf_trim]
  have pathText : kept.path.text = trim (config.path.text.take
      (target.room.getD (configText config).length - pathStart config)) := by
    rw [path]
    exact snprintf_sublist ((trim_sublist _).trans (List.take_sublist _ _))
  refine ⟨kept, ?_, ?_, ?_⟩
  · rw [accepted_eq_some]
    refine ⟨rfl, ?_, ?_⟩
    · rw [nameText]
      exact trim_ne_nil nameRead.1 named
    · rw [pathText]
      exact trim_take_ne_nil pathRead.1 located (by omega)
  · rw [switchOf, sameId, switch, switchOf]
  · rw [CharBuf.ext_iff, pathText, trim_take_iff pathRead.1]
    exact and_congr_right fun _ => by omega

end Kept

/-! ## The directory that was rewritten -/

def rewritten (config : FsConfig) (target file : DirEntry) : DirEntry :=
  if target.writable then overwrite target (target.stored (configText config)) file else file

section Rewritten
variable {config : FsConfig} {files : List DirEntry} {target : DirEntry}

theorem writeConfigFile_rewritten {s : FsState} (listed : s.directory = some files)
    (found : configTarget config files = some target) :
    (writeConfigFile config s).directory = some (files.map (rewritten config target)) := by
  have unchanged : target.writable = false → files.map (rewritten config target) = files := by
    intro refused
    rw [List.map_id'' fun file => by rw [rewritten, refused, if_neg Bool.false_ne_true]]
  have changed : target.writable = true → rewritten config target =
      overwrite target (target.stored (configText config)) := by
    intro writable
    funext file
    rw [rewritten, if_pos writable]
  unfold writeConfigFile
  simp only [listed, found]
  cases writable : target.writable with
  | false => rw [if_neg Bool.false_ne_true, listed, unchanged writable]
  | true => rw [if_pos rfl, changed writable]

theorem fileConfig_shown (found : configTarget config files = some target) (file : DirEntry) :
    fileConfig (rewritten config target file) =
      if shows target file then storedConfig config target else fileConfig file := by
  obtain ⟨-, st, stat, id⟩ := configTarget_some found
  unfold rewritten overwrite shows storedConfig
  cases target.writable with
  | false => simp
  | true =>
      by_cases same : SameFile file target
      · obtain ⟨su, fileStat, sameId⟩ := same.id stat
        rw [id] at sameId
        have before := fileConfig_content fileStat file.content
        have reads : (isConfFile file && file.readable && file.stat.any FileStat.regular) =
            (isConfFile file && file.readable && su.regular) := by
          rw [fileStat, Option.any_some]
        rw [if_pos rfl, if_pos same, fileConfig_content fileStat, decide_eq_true same,
          Bool.true_and, Bool.true_and, reads, sameId]
        split_ifs with read
        · rfl
        · rw [if_neg read] at before
          exact before.symm
      · simp [same]

end Rewritten

theorem isFileOf_eq_true {file : DirEntry} {id : Int32} : isFileOf id file = true ↔
    ∃ config, fileConfig file = some config ∧ config.id = id := by
  simp [isFileOf, Option.any_eq_true]

theorem find?_take_eq_some_iff {α : Type*} {p : α → Bool} {l : List α} {n : Nat} {a : α} :
    (l.take n).find? p = some a ↔
      p a = true ∧ ∃ as bs, l = as ++ a :: bs ∧ (∀ b ∈ as, p b = false) ∧ as.length < n := by
  rw [List.find?_eq_some_iff_append]
  apply and_congr_right
  intro _
  constructor
  · rintro ⟨as, bs, parts, others⟩
    have length := congrArg List.length parts
    rw [List.length_take, List.length_append, List.length_cons] at length
    refine ⟨as, bs ++ l.drop n, ?_, by simpa using others, by omega⟩
    rw [← List.cons_append, ← List.append_assoc, ← parts, List.take_append_drop]
  · rintro ⟨as, bs, rfl, others, inside⟩
    obtain ⟨m, rfl⟩ : ∃ m, n = as.length + (m + 1) := ⟨n - as.length - 1, by omega⟩
    exact ⟨as, bs.take m, by rw [List.take_length_add_append, List.take_succ_cons],
      by simpa using others⟩

theorem loadedConfig_eq_some {files : List DirEntry} {id : Int32} {config : FsConfig} :
    loadedConfig (some files) id = some config ↔ config.id = id ∧ ∃ earlier file rest,
      files = earlier ++ file :: rest ∧ fileConfig file = some config ∧
        (∀ f ∈ earlier, isFileOf id f = false) ∧ (fileConfigs earlier).length < MAX_CONFIGS := by
  have others : ∀ earlier : List DirEntry, (∀ c ∈ fileConfigs earlier, decide (c.id = id) = false) ↔
      ∀ f ∈ earlier, isFileOf id f = false := by
    intro earlier
    constructor
    · intro apart f member
      by_contra here
      obtain ⟨c, known, sameId⟩ := isFileOf_eq_true.mp (by simpa using here)
      simpa [sameId] using apart c (List.mem_filterMap.mpr ⟨f, member, known⟩)
    · intro apart c member
      obtain ⟨f, inside, known⟩ := List.mem_filterMap.mp member
      by_contra sameId
      have here := isFileOf_eq_true.mpr ⟨c, known, by simpa using sameId⟩
      rw [apart f inside] at here
      cases here
  unfold loadedConfig directoryConfigs
  rw [find?_take_eq_some_iff, decide_eq_true_eq]
  apply and_congr_right
  intro _
  constructor
  · rintro ⟨as, bs, parts, apart, inside⟩
    obtain ⟨front, back, rfl, rfl, second⟩ := List.filterMap_eq_append_iff.mp parts
    obtain ⟨unread, file, rest, rfl, nothing, known, -⟩ := List.filterMap_eq_cons_iff.mp second
    have same : fileConfigs (front ++ unread) = front.filterMap fileConfig := by
      rw [fileConfigs, List.filterMap_append, List.filterMap_eq_nil_iff.mpr nothing,
        List.append_nil]
    refine ⟨front ++ unread, file, rest, by simp, known, (others _).mp ?_, ?_⟩
    · rw [same]
      exact apart
    · rw [same]
      exact inside
  · rintro ⟨earlier, file, rest, rfl, known, apart, inside⟩
    refine ⟨fileConfigs earlier, fileConfigs rest, ?_, (others earlier).mpr apart, inside⟩
    show (earlier ++ file :: rest).filterMap fileConfig = _
    rw [List.filterMap_append, List.filterMap_cons_some known]
    rfl

section Write
variable {config : FsConfig} {earlier rest : List DirEntry} {file target : DirEntry}

theorem loadedConfig_rewritten (apart : ∀ f ∈ earlier, isFileOf config.id f = false)
    (room : (fileConfigs earlier).length < MAX_CONFIGS)
    (same : ∀ f ∈ earlier, fileConfig (rewritten config target f) = fileConfig f) {kept : FsConfig}
    (known : fileConfig (rewritten config target file) = some kept)
    (sameId : kept.id = config.id) :
    loadedConfig (some ((earlier ++ file :: rest).map (rewritten config target))) config.id =
      some kept := by
  have configs : fileConfigs (earlier.map (rewritten config target)) = fileConfigs earlier := by
    unfold fileConfigs
    rw [List.filterMap_map]
    exact List.filterMap_congr same
  refine loadedConfig_eq_some.mpr ⟨sameId, earlier.map (rewritten config target), _,
    rest.map (rewritten config target), by simp, known, ?_, by rwa [configs]⟩
  intro f member
  obtain ⟨old, before, rfl⟩ := List.mem_map.mp member
  rw [isFileOf, same old before]
  exact apart old before

theorem loadedConfig_shown
    (found : configTarget config (earlier ++ file :: rest) = some target)
    (apart : ∀ f ∈ earlier, isFileOf config.id f = false)
    (room : (fileConfigs earlier).length < MAX_CONFIGS)
    (seen : ∃ f ∈ earlier ++ [file], shows target f = true) {kept : FsConfig}
    (stored : storedConfig config target = some kept) (sameId : kept.id = config.id) :
    loadedConfig (some ((earlier ++ file :: rest).map (rewritten config target))) config.id =
      some kept := by
  obtain ⟨first, isFirst⟩ : ∃ first, (earlier ++ [file]).find? (shows target) = some first := by
    rw [← Option.isSome_iff_exists, List.find?_isSome]
    exact seen
  obtain ⟨shown, before, after, parts, unseen⟩ := List.find?_eq_some_iff_append.mp isFirst
  have whole : earlier ++ file :: rest = before ++ first :: (after ++ rest) := by
    rw [← List.cons_append, ← List.append_assoc, ← parts, List.append_assoc]
    rfl
  have length := congrArg List.length parts
  simp only [List.length_append, List.length_cons, List.length_nil] at length
  have front : before <+: earlier := List.prefix_of_prefix_length_le
    ⟨first :: after, parts.symm⟩ (List.prefix_append earlier [file]) (by omega)
  have fewer : (fileConfigs before).length ≤ (fileConfigs earlier).length :=
    (front.sublist.filterMap fileConfig).length_le
  rw [whole] at found ⊢
  apply loadedConfig_rewritten (fun f member => apart f (front.subset member))
    (fewer.trans_lt room)
  · intro f member
    have hidden : shows target f = false := by simpa using unseen f member
    rw [fileConfig_shown found, hidden, if_neg Bool.false_ne_true]
  · rw [fileConfig_shown found, if_pos shown, stored]
  · exact sameId

theorem shows_unread (found : configTarget config (earlier ++ file :: rest) = some target)
    {f : DirEntry} (apart : isFileOf config.id f = false) (shown : shows target f = true) :
    fileConfig f = none := by
  obtain ⟨-, st, stat, id⟩ := configTarget_some found
  by_contra read
  obtain ⟨other, known⟩ := Option.ne_none_iff_exists'.mp read
  simp only [shows, Bool.and_eq_true, decide_eq_true_eq] at shown
  have otherId := fileConfig_id known
  obtain ⟨su, fileStat, same⟩ := SameFile.id shown.1.2 stat
  rw [fileStat, Option.map_some, Option.some.injEq] at otherId
  have sameId : other.id = config.id := by rw [← otherId, same, id]
  rw [isFileOf_eq_true.mpr ⟨other, known, sameId⟩] at apart
  cases apart

structure LoadedAt (directory : Directory) (config : FsConfig) (earlier : List DirEntry)
    (file : DirEntry) (rest : List DirEntry) (target : DirEntry) : Prop where
  listed : directory = some (earlier ++ file :: rest)
  known : fileConfig file = some config
  found : configTarget config (earlier ++ file :: rest) = some target
  apart : ∀ f ∈ earlier, isFileOf config.id f = false
  room : (fileConfigs earlier).length < MAX_CONFIGS

theorem loadedAt_exists {directory : Directory} {id : Int32}
    (loaded : loadedConfig directory id = some config) : config.id = id ∧
      ∃ earlier file rest target, LoadedAt directory config earlier file rest target := by
  cases directory with
  | none => cases loaded
  | some files =>
      obtain ⟨sameId, earlier, file, rest, rfl, known, apart, room⟩ :=
        loadedConfig_eq_some.mp loaded
      have present : ∃ target, configTarget config (earlier ++ file :: rest) = some target := by
        rw [← Option.isSome_iff_exists, configTarget, List.find?_isSome]
        refine ⟨file, by simp, ?_⟩
        have visible := (fileConfig_eq_some.mp known).1
        simp only [isConfFile, Bool.not_or, Bool.and_eq_true] at visible
        rw [visible.1, fileConfig_id known, decide_eq_true rfl]
        rfl
      obtain ⟨target, found⟩ := present
      rw [← sameId] at apart
      exact ⟨sameId, earlier, file, rest, target, rfl, known, found, apart, room⟩

section LoadedAt
variable {directory : Directory} {status : Bool}
  (place : LoadedAt directory config earlier file rest target)
include place

theorem LoadedAt.isFile : isFileOf config.id file = true :=
  isFileOf_eq_true.mpr ⟨config, place.known, rfl⟩

theorem LoadedAt.filePosition : filePosition directory config.id = some earlier.length := by
  have none : earlier.findIdx? (isFileOf config.id) = none :=
    List.findIdx?_eq_none_iff.mpr place.apart
  rw [place.listed]
  simp [Fs.filePosition, none, List.findIdx?_cons, place.isFile]

theorem LoadedAt.fields : ReadConfig config ∧ config.name.text ≠ [] ∧ config.path.text ≠ [] :=
  fileConfigs_read (List.mem_filterMap.mpr ⟨file, List.mem_singleton_self file, place.known⟩)

theorem LoadedAt.replaced (seen : ∃ f ∈ earlier ++ [file], shows target f = true)
    (survives : Survives (switchedConfig config status) target) :
    ∃ kept, storedConfig (switchedConfig config status) target = some kept ∧
      loadedConfig (some ((earlier ++ file :: rest).map
        (rewritten (switchedConfig config status) target))) config.id = some kept ∧
      switchOf kept = (config.id, status) ∧
        (kept.path = config.path ↔ KeepsPath (switchedConfig config status) target) := by
  let written := switchedConfig config status
  have fields := place.fields
  obtain ⟨read, named, located⟩ : ReadConfig written ∧ written.name.text ≠ [] ∧
    written.path.text ≠ [] := fields
  have found : configTarget written (earlier ++ file :: rest) = some target := place.found
  have apart : ∀ f ∈ earlier, isFileOf written.id f = false := place.apart
  obtain ⟨kept, stored, switch, path⟩ := stored_survives read named located survives
  exact ⟨kept, stored, loadedConfig_shown found apart place.room seen stored
    (congrArg Prod.fst switch), switch, path⟩

theorem LoadedAt.dies (dies : ¬ Survives (switchedConfig config status) target) :
    storedConfig (switchedConfig config status) target = none :=
  have read : ReadConfig (switchedConfig config status) := place.fields.1
  stored_dies read dies

theorem LoadedAt.shown (f : DirEntry) :
    fileConfig (rewritten (switchedConfig config status) target f) =
      if shows target f then storedConfig (switchedConfig config status) target
      else fileConfig f :=
  have found : configTarget (switchedConfig config status) (earlier ++ file :: rest) =
    some target := place.found
  fileConfig_shown found f

theorem LoadedAt.unreplaced (hidden : shows target file = false)
    (unseen : (∃ f ∈ earlier ++ [file], shows target f = true) →
      ¬ Survives (switchedConfig config status) target) :
    loadedConfig (some ((earlier ++ file :: rest).map
      (rewritten (switchedConfig config status) target))) config.id = some config := by
  have apart : ∀ f ∈ earlier, isFileOf (switchedConfig config status).id f = false := place.apart
  have here : fileConfig (rewritten (switchedConfig config status) target file) = some config := by
    rw [place.shown, hidden, if_neg Bool.false_ne_true, place.known]
  refine loadedConfig_rewritten apart place.room ?_ here rfl
  intro f member
  rw [place.shown]
  split_ifs with seen
  · rw [shows_unread place.found (place.apart f member) seen]
    exact place.dies (unseen ⟨f, List.mem_append_left _ member, seen⟩)
  · rfl

theorem LoadedAt.writeSuffices_iff :
    ((fileConfig (rewritten (switchedConfig config status) target file)).map switchOf =
        some (config.id, status) ∧
      ∃ kept, loadedConfig (some ((earlier ++ file :: rest).map
          (rewritten (switchedConfig config status) target))) config.id = some kept ∧
        switchOf kept = (config.id, status) ∧ (status = true → kept.path = config.path)) ↔
      WriteSuffices config status earlier file target := by
  constructor
  · rintro ⟨inFile, kept, loaded, switch, path⟩
    rw [place.shown] at inFile
    constructor
    · intro own
      by_contra dies
      rw [if_pos own, place.dies dies] at inFile
      cases inFile
    · intro other
      rw [other, if_neg Bool.false_ne_true, place.known, Option.map_some,
        Option.some.injEq] at inFile
      exact congrArg Prod.snd inFile
    · intro started seen survives
      obtain ⟨_, _, again, _, pathIff⟩ := place.replaced seen survives
      rw [loaded, Option.some.injEq] at again
      exact pathIff.mp (again ▸ path started)
  · intro enough
    rw [place.shown]
    by_cases replaced : (∃ f ∈ earlier ++ [file], shows target f = true) ∧
        Survives (switchedConfig config status) target
    · obtain ⟨seen, survives⟩ := replaced
      obtain ⟨kept, stored, loaded, switch, pathIff⟩ := place.replaced seen survives
      refine ⟨?_, kept, loaded, switch,
        fun started => pathIff.mpr (enough.path started seen survives)⟩
      split_ifs with own
      · rw [stored, Option.map_some, switch]
      · rw [place.known, Option.map_some, switchOf, enough.other (by simpa using own)]
    · have other : shows target file = false := by
        by_contra own
        rw [Bool.not_eq_false] at own
        exact replaced ⟨⟨file, by simp, own⟩, enough.own own⟩
      have switch : switchOf config = (config.id, status) := by
        rw [switchOf, enough.other other]
      refine ⟨?_, config, place.unreplaced other (not_and.mp replaced), switch, fun _ => rfl⟩
      rw [other, if_neg Bool.false_ne_true, place.known, Option.map_some, switch]

theorem LoadedAt.writes_iff :
    (∀ files f t, directory = some files → files.find? (isFileOf config.id) = some f →
      configTarget config files = some t →
        WriteSuffices config status (files.takeWhile fun g => !isFileOf config.id g) f t) ↔
      WriteSuffices config status earlier file target := by
  have first : (earlier ++ file :: rest).find? (isFileOf config.id) = some file :=
    List.find?_eq_some_iff_append.mpr
      ⟨place.isFile, earlier, rest, rfl, by simpa using place.apart⟩
  have front : (earlier ++ file :: rest).takeWhile (fun g => !isFileOf config.id g) = earlier := by
    rw [List.takeWhile_append_of_pos (by simpa using place.apart)]
    simp [place.isFile]
  constructor
  · intro writes
    have here := writes _ file target place.listed first place.found
    rwa [front] at here
  · intro suffices' files f t listed isFirst isTarget
    rw [place.listed, Option.some.injEq] at listed
    subst listed
    rw [first, Option.some.injEq] at isFirst
    rw [place.found, Option.some.injEq] at isTarget
    rwa [front, ← isFirst, ← isTarget]

end LoadedAt

theorem fileSwitch_map (change : DirEntry → DirEntry) :
    fileSwitch (some ((earlier ++ file :: rest).map change)) earlier.length =
      (fileConfig (change file)).map switchOf := by
  simp [fileSwitch]

end Write

/-! ## Commands -/

section Command
variable {message : Bytes} {id : Int32} {status : Bool}

theorem handleMessage_switch (command : switchCommand message = some (id, status))
    (env : CommandEnv) (s : FsState) : reloads message = true ∧ ∃ arg, atoi arg = id ∧
      handleMessage env message s = switchConfig env arg status (loadConfigs s) := by
  have different : lit "stop" ≠ lit "start" := by decide
  unfold switchCommand at command
  rcases tokens : splitCommand (cstr message) with _ | ⟨opt, _ | ⟨arg, rest⟩⟩
  · rw [tokens] at command
    cases command
  · rw [tokens] at command
    cases command
  · simp only [tokens] at command
    split_ifs at command with named
    rw [Option.some.injEq, Prod.mk.injEq] at command
    obtain ⟨rfl, rfl⟩ := command
    refine ⟨by simp [reloads, tokens], arg, rfl, ?_⟩
    rw [handleMessage_tokens tokens]
    simp only [handleCommand, tokens, List.head?_cons]
    rcases named with rfl | rfl
    · simp
    · simp [different]

theorem switch_responses (command : switchCommand message = some (id, status)) (env : CommandEnv)
    (s : FsState) : (handleMessage env message s).responses =
      s.responses ++ [if (loadedConfig s.directory id).isSome then 0 else 1] := by
  obtain ⟨-, arg, rfl, handled⟩ := handleMessage_switch command env s
  have responses : (loadConfigs s).responses = s.responses := by
    obtain ⟨configs, count, -, frame⟩ := loadConfigs_frame s
    rw [frame]
  have found : (findConfig (loadConfigs s) (atoi arg)).isSome =
      (loadedConfig s.directory (atoi arg)).isSome := by
    rw [loadedConfig, ← tableConfigs_loadConfigs, find?_tableConfigs, Option.isSome_map]
  rw [handled, switchConfig_responses, responses, found]

theorem absent_untouched_iff (command : switchCommand message = some (id, status))
    {env : CommandEnv} {s : FsState} (absent : loadedConfig s.directory id = none) :
    Untouched s (handleMessage env message s) ↔
      (directoryConfigs s.directory).map switchOf = (tableConfigs s).map switchOf := by
  have reload := (handleMessage_switch command env s).1
  have nothing : switchedDirectory s message = none := by
    rw [switchedDirectory_command, command, Option.bind_some, absent, Option.map_none]
  cases handleMessage_acts env message s with
  | rebuilds table _ written _ _ _ _ _ =>
      rw [nothing] at written
      cases written
  | keeps _ _ directory same =>
      have watches := (MessageActs.unbuilt_same same).acceptedWatches
      rw [if_pos reload] at same
      have after : tableConfigs (handleMessage env message s) = directoryConfigs s.directory := by
        rw [same.tableConfigs, tableConfigs_loadConfigs]
      constructor
      · intro untouched
        rw [← after]
        exact untouched.switches
      · intro switches
        exact ⟨directory, by rw [after, switches], watches⟩

theorem watched_iff {env : WatchEnv} {table after : FsState} {kept : FsConfig}
    (fits : table.configCount ≤ MAX_CONFIGS) (sound : CallsSound table)
    (same : SameTable (rebuildWatches env table) after)
    (found : (tableConfigs table).find? (fun c => c.id = id) = some kept)
    (path : CharBuf MAX_FIELD_LEN) :
    (∃ word ∈ after.watchConfig, findConfig after id = some (watchIndex word) ∧
        (after.configs (watchIndex word)).path = path) ↔
      opens env table = true ∧ kept.monitorSwitch = true ∧ 0 ≤ env.addWatch kept.path ∧
        kept.path = path := by
  obtain ⟨-, -, configs, count⟩ := rebuildWatches_keeps env fits
  have sameFind : findConfig after id = findConfig table id := by
    rw [findConfig, same.configs, same.configCount, configs, count, findConfig]
  rw [find?_tableConfigs] at found
  obtain ⟨i, isThere, rfl⟩ := Option.map_eq_some_iff.mp found
  have inside : i < table.configCount := List.mem_range.mp (List.mem_of_find?_eq_some isThere)
  have words : (∃ word ∈ (rebuildWatches env table).watchConfig, watchIndex word = i) ↔ _ :=
    rebuild_watched_iff fits fun closed => (sound.closed closed).1
  rw [mem_watchedPositions] at words
  rw [sameFind, isThere, same.watchConfig, same.configs, configs]
  constructor
  · rintro ⟨word, member, here, located⟩
    rw [Option.some.injEq] at here
    obtain ⟨opened, -, on, nonneg⟩ := words.mp ⟨word, member, here.symm⟩
    rw [← here] at located
    exact ⟨opened, on, nonneg, located⟩
  · rintro ⟨opened, on, nonneg, located⟩
    obtain ⟨word, member, rfl⟩ := words.mpr ⟨opened, inside, on, nonneg⟩
    exact ⟨word, member, rfl, located⟩

theorem rebuilt_performed_iff {env : WatchEnv} {s table after : FsState} {config : FsConfig}
    (fits : table.configCount ≤ MAX_CONFIGS) (sound : CallsSound table)
    (same : SameTable (rebuildWatches env table) after) :
    Performed config status s after ↔
      ((filePosition s.directory config.id).bind (fileSwitch after.directory) =
          some (config.id, status) ∧
        ∃ kept, (tableConfigs table).find? (fun c => c.id = config.id) = some kept ∧
          switchOf kept = (config.id, status) ∧ (status = true → kept.path = config.path)) ∧
      (status = true → opens env table = true ∧ 0 ≤ env.addWatch config.path) := by
  have afterTable : tableConfigs after = tableConfigs table := by
    obtain ⟨-, -, configs, count⟩ := rebuildWatches_keeps env fits
    rw [same.tableConfigs, tableConfigs, configs, count, tableConfigs]
  have watch := fun kept (found : (tableConfigs table).find? (fun c => c.id = config.id) =
    some kept) => watched_iff fits sound same found config.path
  constructor
  · intro performed
    have ofTable := performed.table
    rw [afterTable] at ofTable
    obtain ⟨kept, found, switch⟩ := Option.map_eq_some_iff.mp ofTable
    refine ⟨⟨performed.file, kept, found, switch, ?_⟩, ?_⟩
    · intro started
      exact ((watch kept found).mp (performed.watched started)).2.2.2
    · intro started
      obtain ⟨opened, -, nonneg, path⟩ := (watch kept found).mp (performed.watched started)
      exact ⟨opened, path ▸ nonneg⟩
  · rintro ⟨⟨ofFile, kept, found, switch, path⟩, opened⟩
    refine ⟨ofFile, ?_, ?_⟩
    · rw [afterTable, found, Option.map_some, switch]
    · intro started
      rw [watch kept found, path started]
      have on : kept.monitorSwitch = status := congrArg Prod.snd switch
      exact ⟨(opened started).1, on.trans started, (opened started).2, rfl⟩

theorem performed_iff (command : switchCommand message = some (id, status)) {env : CommandEnv}
    {s : FsState} (sound : CallsSound s) {config : FsConfig}
    (loaded : loadedConfig s.directory id = some config) :
    Performed config status s (handleMessage env message s) ↔
      SwitchGuard env.watches id status s := by
  obtain ⟨rfl, earlier, file, rest, target, place⟩ := loadedAt_exists loaded
  have foundWritten : configTarget (switchedConfig config status) (earlier ++ file :: rest) =
      some target := place.found
  have written : switchedDirectory s message = some (some ((earlier ++ file :: rest).map
      (rewritten (switchedConfig config status) target))) := by
    rw [switchedDirectory_command, command, Option.bind_some, loaded, Option.map_some]
    exact congrArg some (writeConfigFile_rewritten place.listed foundWritten)
  cases handleMessage_acts env message s with
  | keeps _ unwritten _ _ =>
      rw [unwritten] at written
      cases written
  | rebuilds table _ intoTable directory described fits same after =>
      rw [written, Option.some.injEq] at intoTable
      rw [← intoTable] at directory described
      have inFile : (filePosition s.directory config.id).bind
          (fileSwitch (handleMessage env message s).directory) =
            (fileConfig (rewritten (switchedConfig config status) target file)).map switchOf := by
        rw [place.filePosition, Option.bind_some, directory, fileSwitch_map]
      have inTable : (tableConfigs table).find? (fun c => c.id = config.id) =
          loadedConfig (some ((earlier ++ file :: rest).map
            (rewritten (switchedConfig config status) target))) config.id := by
        rw [described]
        rfl
      rw [rebuilt_performed_iff fits (sound.of_same same) after, inFile, inTable,
        place.writeSuffices_iff, same.opens]
      simp only [SwitchGuard, loaded]
      rw [place.writes_iff]

end Command

/-- A start or stop is answered rightly exactly when the text it writes comes through as far as it
matters, and for a start the path can be watched; or, without a config of the id, when the configs
that are loaded again are switched as before. -/
theorem switch_outcome_iff (start : WatchEnv) (directory : Directory) (past : List FsStep)
    (env : CommandEnv) {message : Bytes} {id : Int32} {status : Bool}
    (command : switchCommand message = some (id, status)) :
    SwitchOutcome id status (run step (.initial start directory) past)
        (handleMessage env message (run step (.initial start directory) past)) ↔
      SwitchGuard env.watches id status (run step (.initial start directory) past) := by
  have sound := run_of_step step step_callsSound (initial_callsSound start directory) past
  generalize run step (.initial start directory) past = s at sound ⊢
  have answer := switch_responses command env s
  cases loaded : loadedConfig s.directory id with
  | none =>
      rw [loaded, Option.isSome_none, if_neg Bool.false_ne_true] at answer
      simp only [SwitchGuard, loaded]
      rw [← absent_untouched_iff command loaded]
      constructor
      · rintro ⟨code, sent, -, failed⟩
        rw [answer, List.append_cancel_left_eq, List.singleton_inj] at sent
        exact failed (by rw [← sent]; decide)
      · intro untouched
        exact ⟨1, answer, fun zero => absurd zero (by decide), fun _ => untouched⟩
  | some config =>
      rw [loaded, Option.isSome_some, if_pos rfl] at answer
      rw [← performed_iff command sound loaded]
      constructor
      · rintro ⟨code, sent, succeeded, -⟩
        rw [answer, List.append_cancel_left_eq, List.singleton_inj] at sent
        obtain ⟨other, same, performed⟩ := succeeded sent.symm
        rw [loaded, Option.some.injEq] at same
        rwa [same]
      · intro performed
        exact ⟨0, answer, fun _ => ⟨config, loaded, performed⟩, fun failed => absurd rfl failed⟩

theorem switch_outcome_iff_web :
    SwitchOutcome 12 false (run step (.initial (growingWatches 0) webDirectory) [])
        (handleMessage ⟨growingWatches 1, true⟩ (lit "stop 12")
          (run step (.initial (growingWatches 0) webDirectory) [])) ↔
      SwitchGuard (growingWatches 1) 12 false
        (run step (.initial (growingWatches 0) webDirectory) []) :=
  switch_outcome_iff _ _ [] ⟨growingWatches 1, true⟩ (by decide)

/-! ## A file that cannot be written -/

def lockedDirectory : Directory :=
  some [{ confFile "web.conf" 12 "MONITOR_SWITCH=off\nNAME=web\nPATH=/srv/www\n" with
    writable := false }]

theorem locked_start_answered : ¬ ∀ (start : WatchEnv) (directory : Directory)
    (past : List FsStep) (env : CommandEnv) (message : Bytes) (id : Int32) (status : Bool),
    switchCommand message = some (id, status) →
    loadedConfig (run step (.initial start directory) past).directory id ≠ none →
    SwitchOutcome id status (run step (.initial start directory) past)
      (handleMessage env message (run step (.initial start directory) past)) := by
  intro right
  have outcome := right (growingWatches 0) lockedDirectory [] ⟨growingWatches 1, true⟩
    (lit "start 12") 12 true (by decide) (by decide)
  obtain ⟨code, sent, succeeded, -⟩ := outcome
  have answer : (handleMessage ⟨growingWatches 1, true⟩ (lit "start 12")
      (.initial (growingWatches 0) lockedDirectory)).responses = [] ++ [0] := by decide
  have zero : code = 0 := by
    have same := sent.symm.trans answer
    rwa [show (run step (.initial (growingWatches 0) lockedDirectory) []).responses = [] by decide,
      List.append_cancel_left_eq, List.singleton_inj] at same
  obtain ⟨config, loaded, performed⟩ := succeeded zero
  have named := (loadedAt_exists loaded).1
  have switched := performed.table
  rw [named] at switched
  revert switched
  decide

end SysDetector.Fs
