import SysDetector.Fs.WatchTable

namespace SysDetector.Fs
open CLib Runs

/-! ## Messages -/

section Message
variable {env : CommandEnv} {message : Bytes} {s : FsState}

theorem message_directory :
    (handleMessage env message s).directory = (switchedDirectory s message).getD s.directory := by
  cases handleMessage_acts env message s with
  | keeps _ unwritten directory _ => rw [directory, unwritten, Option.getD_none]
  | rebuilds table _ written directory _ _ _ _ => rw [directory, written, Option.getD_some]

theorem switchedDirectory_congr {s' : FsState} (same : s'.directory = s.directory) :
    switchedDirectory s' message = switchedDirectory s message := by
  unfold switchedDirectory
  simp only [same, writeConfigFile_directory _ same]

end Message

/-! ## Pairs -/

abbrev WatchPairs := List (Int32 × Nat)

def acceptedPairs (env : WatchEnv) (s : FsState) : WatchPairs :=
  (watchedPositions env s).map fun i => (env.addWatch (s.configs i).path, i)

def WatchPairs.record (pairs : WatchPairs) (s : FsState) : FsStep → WatchPairs
  | .message env message =>
      match rebuildTable s message with
      | some table =>
          if opens env.watches table then acceptedPairs env.watches table else pairs
      | none => pairs
  | .monitor _ => pairs
  | .edit _ => pairs

def stepPairs (sp : FsState × WatchPairs) (input : FsStep) : FsState × WatchPairs :=
  (step sp.1 input, sp.2.record sp.1 input)

def startPairs (env : WatchEnv) (directory : Directory) : FsState × WatchPairs :=
  (.initial env directory,
    if env.inotifyInit then acceptedPairs env (loadConfigs (.zero directory)) else [])

def packed (pairs : WatchPairs) : List Int32 := pairs.map fun pair => watchWord pair.1 pair.2

structure PairsStored (sp : FsState × WatchPairs) : Prop where
  words : sp.1.watchConfig = packed sp.2
  valid : ∀ pair ∈ sp.2, 0 ≤ pair.1 ∧ pair.2 < MAX_CONFIGS

def removedWatch : InotifyCall → Option Int32
  | .rmWatch wd => some wd
  | .addWatch _ _ => none

/-- The words decode to the pairs, so an event of a descriptor reaches the config at its position,
and the next rebuild gives up those watches. -/
structure WordsDecode (sp : FsState × WatchPairs) : Prop where
  decoded : sp.1.watchConfig.map (fun word => (watchWd word, watchIndex word)) = sp.2
  reached : ∀ wd, eventConfig sp.1 wd =
    (sp.2.find? fun pair => pair.1 = wd).map fun pair => sp.1.configs pair.2
  removed : ∀ env message table, rebuildTable sp.1 message = some table →
    opens env.watches table = true →
    (handleMessage env message sp.1).inotifyCalls.filterMap removedWatch = sp.2.map Prod.fst

theorem removed_rebuild {env : WatchEnv} {s : FsState} (opened : opens env s = true)
    (fits : s.configCount ≤ MAX_CONFIGS) :
    (rebuildWatches env s).inotifyCalls.filterMap removedWatch = s.watchConfig.map watchWd := by
  obtain ⟨log, frame⟩ := rebuildWatches_open opened fits
  have asked : (askedWatches env s (List.range s.configCount)).filterMap removedWatch = [] := by
    simp [askedWatches, List.filterMap_eq_nil_iff, removedWatch]
  rw [frame]
  simp only [List.filterMap_append, asked, List.append_nil, List.filterMap_map]
  exact List.filterMap_eq_map_iff_forall_eq_some.mpr fun _ _ => rfl

theorem wordsDecode_iff_decoded {sp : FsState × WatchPairs} : WordsDecode sp ↔
    sp.1.watchConfig.map (fun word => (watchWd word, watchIndex word)) = sp.2 := by
  refine ⟨fun decode => decode.decoded, fun decoded => ⟨decoded, ?_, ?_⟩⟩
  · intro wd
    rw [← decoded, List.find?_map, Option.map_map]
    rfl
  · intro env message table rebuilt opened
    cases handleMessage_acts env message sp.1 with
    | keeps unbuilt _ _ _ =>
        rw [unbuilt] at rebuilt
        cases rebuilt
    | rebuilds table' rebuilt' _ _ _ fits same after =>
        rw [rebuilt', Option.some.injEq] at rebuilt
        subst rebuilt
        rw [after.inotifyCalls, removed_rebuild opened fits, same.watchConfig, ← decoded,
          List.map_map]
        rfl

theorem wordsDecode_iff {sp : FsState × WatchPairs} (stored : PairsStored sp) :
    WordsDecode sp ↔ ∀ pair ∈ sp.2, pair.1 < 2 ^ 15 := by
  have small : ∀ pair ∈ sp.2, pair.2 < 2 ^ 16 := by
    intro pair member
    have inside := (stored.valid pair member).2
    unfold MAX_CONFIGS at inside
    omega
  have each : (packed sp.2).map (fun word => (watchWd word, watchIndex word)) = sp.2 ↔
      ∀ pair ∈ sp.2, (watchWd (watchWord pair.1 pair.2), watchIndex (watchWord pair.1 pair.2)) =
        pair := by
    rw [packed, List.map_map]
    nth_rewrite 2 [← List.map_id sp.2]
    exact List.map_inj_left
  rw [wordsDecode_iff_decoded, stored.words, each]
  constructor
  · intro decoded pair member
    exact (watchWd_watchWord_iff (small pair member) (stored.valid pair member).1).mp
      (congrArg Prod.fst (decoded pair member))
  · intro fit pair member
    have wd := (watchWd_watchWord_iff (small pair member) (stored.valid pair member).1).mpr
      (fit pair member)
    exact Prod.ext wd (watchIndex_watchWord pair.1 (small pair member))

/-! ## Runs -/

theorem rebuild_pairsStored {env : WatchEnv} {s : FsState} (opened : opens env s = true)
    (fits : s.configCount ≤ MAX_CONFIGS) :
    PairsStored (rebuildWatches env s, acceptedPairs env s) := by
  obtain ⟨log, frame⟩ := rebuildWatches_open opened fits
  constructor
  · rw [frame, packed, acceptedPairs, List.map_map]
    rfl
  · intro pair member
    obtain ⟨i, watched, rfl⟩ := List.mem_map.mp member
    obtain ⟨inside, -, nonneg⟩ := mem_watchedPositions.mp watched
    exact ⟨nonneg, inside.trans_le fits⟩

theorem PairsStored.of_same {s s' : FsState} {pairs : WatchPairs} (stored : PairsStored (s, pairs))
    (same : SameWatches s s') : PairsStored (s', pairs) :=
  ⟨same.watchConfig.trans stored.words, stored.valid⟩

theorem stepPairs_stored (sp : FsState × WatchPairs) (input : FsStep) (stored : PairsStored sp) :
    PairsStored (stepPairs sp input) := by
  obtain ⟨s, pairs⟩ := sp
  cases input with
  | message env message =>
      show PairsStored (handleMessage env message s, pairs.record s (.message env message))
      cases handleMessage_acts env message s with
      | keeps unbuilt _ _ same =>
          simp only [WatchPairs.record, unbuilt]
          exact stored.of_same (MessageActs.unbuilt_same same)
      | rebuilds table rebuilt _ _ _ fits same after =>
          simp only [WatchPairs.record, rebuilt]
          cases opened : opens env.watches table with
          | true => exact (rebuild_pairsStored opened fits).of_same after.toSameWatches
          | false =>
              exact stored.of_same ((same.trans (closed_sameWatches opened)).trans
                after.toSameWatches)
  | monitor env => exact stored.of_same (monitorOnce_records env s).sameTable.toSameWatches
  | edit directory => exact stored.of_same ⟨rfl, rfl, rfl⟩

theorem startPairs_stored (env : WatchEnv) (directory : Directory) :
    PairsStored (startPairs env directory) := by
  obtain ⟨fits, sound, opened, logged⟩ := initial_loaded env directory
  unfold startPairs
  cases init : env.inotifyInit with
  | true => exact (rebuild_pairsStored (opened.trans init) fits).of_same logged.toSameWatches
  | false =>
      have empty : PairsStored (loadConfigs (.zero directory), []) :=
        ⟨(loadConfigs_sameWatches (.zero directory)).watchConfig, by simp⟩
      exact empty.of_same ((closed_sameWatches (opened.trans init)).trans logged.toSameWatches)

theorem acceptedPairs_fit_iff {env : WatchEnv} {s : FsState} :
    (∀ pair ∈ acceptedPairs env s, pair.1 < 2 ^ 15) ↔ DescriptorsFit env (tableConfigs s) := by
  constructor
  · intro fit config loaded on
    obtain ⟨i, inside, rfl⟩ := mem_tableConfigs.mp loaded
    by_cases accepted : 0 ≤ env.addWatch (s.configs i).path
    · have member : (env.addWatch (s.configs i).path, i) ∈ acceptedPairs env s :=
        List.mem_map_of_mem (mem_watchedPositions.mpr ⟨inside, on, accepted⟩)
      exact fit (env.addWatch (s.configs i).path, i) member
    · exact Int32.lt_trans (Int32.not_le.mp accepted) (by decide)
  · intro fit pair member
    obtain ⟨i, watched, rfl⟩ := List.mem_map.mp member
    obtain ⟨inside, on, -⟩ := mem_watchedPositions.mp watched
    exact fit (s.configs i) (mem_tableConfigs.mpr ⟨i, inside, rfl⟩) on

def FitGuard (s : FsState) : FsStep → Prop
  | .message env message => ∀ directory, switchedDirectory s message = some directory →
      opens env.watches s = true → DescriptorsFit env.watches (directoryConfigs directory)
  | .monitor _ => True
  | .edit _ => True

theorem stepPairs_fit_iff {sp : FsState × WatchPairs} {input : FsStep}
    (fit : ∀ pair ∈ sp.2, pair.1 < 2 ^ 15) :
    (∀ pair ∈ (stepPairs sp input).2, pair.1 < 2 ^ 15) ↔ FitGuard sp.1 input := by
  cases input with
  | message env message =>
      simp only [stepPairs, WatchPairs.record, FitGuard]
      cases handleMessage_acts env message sp.1 with
      | keeps unbuilt unwritten _ _ => simpa [unbuilt, unwritten] using fit
      | rebuilds table rebuilt written _ loaded _ same _ =>
          simp only [rebuilt, written, Option.some.injEq, forall_eq', same.opens, ← loaded]
          cases opens env.watches sp.1 with
          | true => simpa using acceptedPairs_fit_iff
          | false => simpa using fit
  | monitor env => exact iff_of_true fit trivial
  | edit directory => exact iff_of_true fit trivial

/-- Every word decodes to the descriptor and position it was made of, throughout a run, exactly
when every descriptor handed out at a rebuild is below 2^15. -/
theorem words_decode_iff (env : WatchEnv) (directory : Directory) (steps : List FsStep) :
    Always stepPairs PairsStored (startPairs env directory) steps ∧
      (Always stepPairs WordsDecode (startPairs env directory) steps ↔
        (env.inotifyInit = true → DescriptorsFit env (directoryConfigs directory)) ∧
          Guarded stepPairs (fun sp => FitGuard sp.1) (startPairs env directory) steps) := by
  have stored := startPairs_stored env directory
  refine ⟨always_of_step stepPairs stepPairs_stored stored steps, ?_⟩
  have start : (∀ pair ∈ (startPairs env directory).2, pair.1 < 2 ^ 15) ↔
      (env.inotifyInit = true → DescriptorsFit env (directoryConfigs directory)) := by
    have loaded : tableConfigs (loadConfigs (.zero directory)) = directoryConfigs directory :=
      tableConfigs_loadConfigs _
    unfold startPairs
    cases env.inotifyInit with
    | true => simpa [← loaded] using acceptedPairs_fit_iff
    | false => simp
  have guarded : (∀ pair ∈ (startPairs env directory).2, pair.1 < 2 ^ 15) →
      (Always stepPairs WordsDecode (startPairs env directory) steps ↔
        Guarded stepPairs (fun sp => FitGuard sp.1) (startPairs env directory) steps) := by
    intro first
    apply always_iff_guarded stepPairs
      (J := fun sp => PairsStored sp ∧ ∀ pair ∈ sp.2, pair.1 < 2 ^ 15) (L := fun _ _ => True)
    · exact fun sp inv => (wordsDecode_iff inv.1).mpr inv.2
    · exact fun sp input inv _ guard =>
        ⟨stepPairs_stored sp input inv.1, (stepPairs_fit_iff inv.2).mpr guard⟩
    · intro sp input inv _ after
      rw [wordsDecode_iff (stepPairs_stored sp input inv.1)] at after
      exact (stepPairs_fit_iff inv.2).mp after
    · exact ⟨stored, first⟩
    · exact fun _ _ _ _ => trivial
  constructor
  · intro always
    have first := (wordsDecode_iff stored).mp (always [] List.nil_prefix)
    exact ⟨start.mp first, (guarded first).mp always⟩
  · intro ⟨fit, guard⟩
    exact (guarded (start.mpr fit)).mpr guard

/-! ## Descriptors that grow -/

def webDirectory : Directory :=
  some [confFile "web.conf" 12 ("MONITOR_SWITCH=on\nNAME=web\nPATH=/srv/www\n" ++
    "OPERATIONS=write,delete,rename,chmod\nALARM_COMMAND=true\n")]

def growingWatches (k : Nat) : WatchEnv := ⟨true, fun _ => Int32.ofNat (k + 1)⟩

def restartSteps (count : Nat) : List FsStep :=
  (List.range count).map fun k => .message ⟨growingWatches (k + 1), true⟩ (lit "start 12")

theorem restart_switched {s : FsState} (same : s.directory = webDirectory) :
    switchedDirectory s (lit "start 12") = some webDirectory := by
  rw [switchedDirectory_congr (s := .zero webDirectory) same]
  decide

theorem restartSteps_succ (count : Nat) : restartSteps (count + 1) = restartSteps count ++
    [.message ⟨growingWatches (count + 1), true⟩ (lit "start 12")] := by
  simp [restartSteps, List.range_succ]

theorem run_restartSteps (sp : FsState × WatchPairs) (same : sp.1.directory = webDirectory)
    (count : Nat) : (run stepPairs sp (restartSteps count)).1.directory = webDirectory := by
  induction count with
  | zero => exact same
  | succ count ih =>
      rw [restartSteps_succ, run_append]
      apply message_directory.trans
      rw [restart_switched ih]
      rfl

theorem restarted_descriptor {sp : FsState × WatchPairs} (same : sp.1.directory = webDirectory)
    (env : CommandEnv) (init : env.watches.inotifyInit = true)
    (fit : ∀ pair ∈ (stepPairs sp (.message env (lit "start 12"))).2, pair.1 < 2 ^ 15) :
    env.watches.addWatch (snprintf MAX_FIELD_LEN (lit "/srv/www")) < 2 ^ 15 := by
  have written := rebuildTable_directory sp.1 (lit "start 12")
  rw [restart_switched same] at written
  obtain ⟨table, rebuilt, described⟩ := Option.map_eq_some_iff.mp written
  have opened : opens env.watches table = true := by
    rw [opens, init, Bool.or_true]
  simp only [stepPairs, WatchPairs.record, rebuilt, opened, if_true] at fit
  have fits := acceptedPairs_fit_iff.mp fit
  rw [rebuildTable_loaded rebuilt, described] at fits
  have loaded : ∃ config ∈ directoryConfigs webDirectory, config.monitorSwitch = true ∧
      config.path = snprintf MAX_FIELD_LEN (lit "/srv/www") := by decide
  obtain ⟨config, member, on, path⟩ := loaded
  rw [← path]
  exact fits config member on

theorem grown_descriptor_wraps : ¬ WordsDecode
    (run stepPairs (startPairs (growingWatches 0) webDirectory) (restartSteps 32767)) := by
  intro decode
  have started : (startPairs (growingWatches 0) webDirectory).1.directory = webDirectory := by
    have fits := (initial_loaded (growingWatches 0) webDirectory).1
    exact (rebuildWatches_keeps _ fits).1.trans (loadConfigs_directory _)
  have stored := run_of_step stepPairs stepPairs_stored
    (startPairs_stored (growingWatches 0) webDirectory) (restartSteps 32767)
  have fit := (wordsDecode_iff stored).mp decode
  rw [restartSteps_succ 32766, run_append] at fit
  have same := run_restartSteps _ started 32766
  have small := restarted_descriptor same ⟨growingWatches (32766 + 1), true⟩ rfl fit
  revert small
  decide

end SysDetector.Fs
