import Mathlib.Data.List.Find
import SysDetector.Fs.WatchTable

namespace SysDetector.Fs
open CLib

def recordFor (now : Time) (ev : InotifyEvent) (config : FsConfig) (s : FsState) : FsState :=
  recordEvent now config (maskToOp ev.mask) (eventPath config ev.name) s

def recordedPositions (s : FsState) (wd : Int32) : List Nat :=
  ((s.watchConfig.find? fun word => watchWd word = wd).map watchIndex).toList

theorem handleInotifyEvent_eq (now : Time) (s : FsState) (ev : InotifyEvent) :
    handleInotifyEvent now s ev =
      (recordedPositions s ev.wd).foldl (fun t i => recordFor now ev (s.configs i) t) s := by
  unfold handleInotifyEvent eventConfig recordedPositions
  cases s.watchConfig.find? fun word => watchWd word = ev.wd <;> rfl

def owners (env : WatchEnv) (s : FsState) (wd : Int32) : List Nat :=
  (watchedPositions env s).filter fun i => env.addWatch (s.configs i).path = wd

def storedHalf (env : WatchEnv) (s : FsState) (i : Nat) : Int :=
  (env.addWatch (s.configs i).path).toInt.bmod (2 ^ 16)

/-- At most one config is watched under the descriptor, which fits then, and no config before it has
a descriptor that reads back as it. -/
structure SingleOwner (env : WatchEnv) (s : FsState) (wd : Int32) : Prop where
  single : ∀ i ∈ owners env s wd, ∀ j ∈ owners env s wd, i = j
  fits : ∀ i ∈ owners env s wd, wd < 2 ^ 15
  first : ∀ i ∈ watchedPositions env s, env.addWatch (s.configs i).path ≠ wd →
    storedHalf env s i = wd.toInt → ∃ j ∈ owners env s wd, j < i

section
variable {env : WatchEnv} {s : FsState} {wd : Int32}

theorem mem_owners {i : Nat} : i ∈ owners env s wd ↔
    i ∈ watchedPositions env s ∧ env.addWatch (s.configs i).path = wd := by
  simp [owners]

theorem owners_nodup : (owners env s wd).Nodup :=
  (List.nodup_range.filter _).filter _

theorem watched_sorted : (watchedPositions env s).Pairwise (· < ·) :=
  List.pairwise_lt_range.filter _

theorem recordedPositions_rebuild {s' : FsState} (opened : opens env s = true)
    (fits : s.configCount ≤ MAX_CONFIGS) (same : SameTable (rebuildWatches env s) s') :
    recordedPositions s' wd = ((watchedPositions env s).find? fun i =>
      storedHalf env s i = wd.toInt).toList := by
  obtain ⟨log, frame⟩ := rebuildWatches_open opened fits
  have small : ∀ i ∈ watchedPositions env s, i < 2 ^ 16 := by
    intro i member
    have inside := (mem_watchedPositions.mp member).1
    unfold MAX_CONFIGS at fits
    omega
  have words : s'.watchConfig = (watchedPositions env s).map fun i =>
      watchWord (env.addWatch (s.configs i).path) i := by
    rw [same.watchConfig, frame]
    rfl
  have found : (s'.watchConfig.find? fun word => watchWd word = wd) =
      ((watchedPositions env s).find? fun i =>
        storedHalf env s i = wd.toInt).map fun i =>
          watchWord (env.addWatch (s.configs i).path) i := by
    rw [words, List.find?_map]
    apply congrArg
    apply List.find?_congr
    intro i member
    have stored : watchWd (watchWord (env.addWatch (s.configs i).path) i) = wd ↔
        storedHalf env s i = wd.toInt := by
      rw [storedHalf, ← watchWd_watchWord _ (small i member), Int32.toInt_inj]
    simp only [Function.comp_apply, stored]
  rw [recordedPositions, found, Option.map_map]
  cases first : (watchedPositions env s).find? fun i =>
      storedHalf env s i = wd.toInt with
  | none => rfl
  | some i =>
      have index := watchIndex_watchWord (env.addWatch (s.configs i).path)
        (small i (List.mem_of_find?_eq_some first))
      simp only [Option.map_some, Function.comp_apply, index]

theorem mem_recordedPositions {s' : FsState} (opened : opens env s = true)
    (fits : s.configCount ≤ MAX_CONFIGS) (same : SameTable (rebuildWatches env s) s')
    (wd : Int32) (i : Nat) : i ∈ recordedPositions s' wd ↔
      i ∈ watchedPositions env s ∧ storedHalf env s i = wd.toInt ∧
        ∀ j ∈ watchedPositions env s, j < i → storedHalf env s j ≠ wd.toInt := by
  rw [recordedPositions_rebuild opened fits same, Option.mem_toList, List.find?_eq_some_iff_append]
  have sorted : (watchedPositions env s).Pairwise (· < ·) := watched_sorted
  simp only [decide_eq_true_eq, Bool.not_eq_eq_eq_not, Bool.not_true, decide_eq_false_iff_not]
  constructor
  · intro ⟨half, before, after, split, noEarlier⟩
    rw [split] at sorted ⊢
    refine ⟨List.mem_append_right _ List.mem_cons_self, half, ?_⟩
    intro j member earlier
    rcases List.mem_append.mp member with early | late
    · exact noEarlier j early
    · rcases List.mem_cons.mp late with rfl | later
      · exact absurd earlier (Nat.lt_irrefl _)
      · have after := List.rel_of_pairwise_cons (List.pairwise_append.mp sorted).2.1 later
        exact absurd earlier after.le.not_gt
  · intro ⟨member, half, noEarlier⟩
    obtain ⟨before, after, split⟩ := List.append_of_mem member
    refine ⟨half, before, after, split, ?_⟩
    intro j early
    rw [split] at sorted noEarlier
    apply noEarlier j (List.mem_append_left _ early)
    exact (List.pairwise_append.mp sorted).2.2 j early i List.mem_cons_self

theorem owner_fields {i : Nat} (owner : i ∈ owners env s wd) :
    i ∈ watchedPositions env s ∧ env.addWatch (s.configs i).path = wd ∧ 0 ≤ wd := by
  obtain ⟨watched, descriptor⟩ := mem_owners.mp owner
  refine ⟨watched, descriptor, ?_⟩
  rw [← descriptor]
  exact (mem_watchedPositions.mp watched).2.2

theorem owner_half_iff {i : Nat} (owner : i ∈ owners env s wd) :
    storedHalf env s i = wd.toInt ↔ wd < 2 ^ 15 := by
  obtain ⟨-, descriptor, nonneg⟩ := owner_fields owner
  rw [storedHalf, descriptor, ← watchWd_watchWord wd (i := 0) (by decide), Int32.toInt_inj]
  exact watchWd_watchWord_iff (by decide) nonneg

theorem recordedPositions_nodup (s' : FsState) (wd : Int32) : (recordedPositions s' wd).Nodup := by
  unfold recordedPositions
  cases (s'.watchConfig.find? fun word => watchWd word = wd).map watchIndex <;> simp

theorem recorded_of_half {s' : FsState} (opened : opens env s = true)
    (fits : s.configCount ≤ MAX_CONFIGS) (same : SameTable (rebuildWatches env s) s') {i : Nat}
    (watched : i ∈ watchedPositions env s) (half : storedHalf env s i = wd.toInt) :
    ∃ k ∈ recordedPositions s' wd, k ≤ i := by
  have found : ((watchedPositions env s).find? fun i =>
      storedHalf env s i = wd.toInt).isSome = true := by
    rw [List.find?_isSome]
    exact ⟨i, watched, by simpa using half⟩
  obtain ⟨k, isFirst⟩ := Option.isSome_iff_exists.mp found
  have member : k ∈ recordedPositions s' wd := by
    rw [recordedPositions_rebuild opened fits same, isFirst]
    exact List.mem_singleton_self k
  refine ⟨k, member, Nat.le_of_not_lt fun later => ?_⟩
  exact ((mem_recordedPositions opened fits same wd k).mp member).2.2 i watched later half

theorem singleOwner_of_recorded {s' : FsState} (opened : opens env s = true)
    (fits : s.configCount ≤ MAX_CONFIGS) (same : SameTable (rebuildWatches env s) s')
    (agree : ∀ i, i ∈ recordedPositions s' wd ↔ i ∈ owners env s wd) : SingleOwner env s wd := by
  have recorded := mem_recordedPositions opened fits same wd
  have half : ∀ i ∈ owners env s wd, storedHalf env s i = wd.toInt :=
    fun i owner => ((recorded i).mp ((agree i).mpr owner)).2.1
  have first : ∀ i ∈ owners env s wd, ∀ j ∈ watchedPositions env s, j < i →
      storedHalf env s j ≠ wd.toInt :=
    fun i owner => ((recorded i).mp ((agree i).mpr owner)).2.2
  constructor
  · intro i owner j other
    rcases Nat.lt_trichotomy i j with earlier | same | later
    · exact absurd (half i owner) (first j other i (owner_fields owner).1 earlier)
    · exact same
    · exact absurd (half j other) (first i owner j (owner_fields other).1 later)
  · intro i owner
    exact (owner_half_iff owner).mp (half i owner)
  · intro i watched foreign aliased
    obtain ⟨k, member, notLater⟩ := recorded_of_half opened fits same watched aliased
    have owner := (agree k).mp member
    refine ⟨k, owner, Nat.lt_of_le_of_ne notLater ?_⟩
    rintro rfl
    exact foreign (owner_fields owner).2.1

theorem SingleOwner.recorded {s' : FsState} (guard : SingleOwner env s wd)
    (opened : opens env s = true) (fits : s.configCount ≤ MAX_CONFIGS)
    (same : SameTable (rebuildWatches env s) s') (i : Nat) :
    i ∈ recordedPositions s' wd ↔ i ∈ owners env s wd := by
  have half : ∀ j ∈ owners env s wd, storedHalf env s j = wd.toInt :=
    fun j owner => (owner_half_iff owner).mpr (guard.fits j owner)
  rw [mem_recordedPositions opened fits same]
  constructor
  · intro ⟨watched, aliased, first⟩
    by_contra notOwner
    have foreign : env.addWatch (s.configs i).path ≠ wd :=
      fun descriptor => notOwner (mem_owners.mpr ⟨watched, descriptor⟩)
    obtain ⟨j, owner, earlier⟩ := guard.first i watched foreign aliased
    exact first j (owner_fields owner).1 earlier (half j owner)
  · intro owner
    refine ⟨(owner_fields owner).1, half i owner, ?_⟩
    intro j watched earlier aliased
    by_cases descriptor : env.addWatch (s.configs j).path = wd
    · have same := guard.single i owner j (mem_owners.mpr ⟨watched, descriptor⟩)
      exact absurd same earlier.ne'
    · obtain ⟨k, other, before⟩ := guard.first j watched descriptor aliased
      have same := guard.single i owner k other
      exact absurd same (before.trans earlier).ne'

end

/-- After a rebuild an event is recorded once for each enabled config that is watched under its
descriptor, and for no other, exactly when there is at most one and no config before it has a
descriptor with the same lower half. -/
theorem owners_recorded_iff {env : WatchEnv} {s s' : FsState} (opened : opens env s = true)
    (fits : s.configCount ≤ MAX_CONFIGS) (same : SameTable (rebuildWatches env s) s') (now : Time)
    (ev : InotifyEvent) :
    handleInotifyEvent now s' ev =
        (recordedPositions s' ev.wd).foldl (fun t i => recordFor now ev (s'.configs i) t) s' ∧
      ((recordedPositions s' ev.wd).Perm (owners env s ev.wd) ↔ SingleOwner env s ev.wd) := by
  refine ⟨handleInotifyEvent_eq now s' ev, ?_⟩
  rw [List.perm_ext_iff_of_nodup (recordedPositions_nodup s' ev.wd) owners_nodup]
  constructor
  · exact singleOwner_of_recorded opened fits same
  · intro guard
    exact guard.recorded opened fits same

/-! ## Two configs on one directory -/

def sharedDirectory : Directory :=
  some [confFile "a.conf" 11 "MONITOR_SWITCH=on\nNAME=a\nPATH=/srv\n",
    confFile "b.conf" 12 "MONITOR_SWITCH=on\nNAME=b\nPATH=/srv\n"]

def sharedWatch : WatchEnv := ⟨true, fun _ => 1⟩

theorem owners_recorded_iff_shared :
    let s := loadConfigs (.zero sharedDirectory)
    let s' := rebuildWatches sharedWatch s
    let ev : InotifyEvent := ⟨1, IN_CREATE, some (lit "x")⟩
    handleInotifyEvent 0 s' ev =
        (recordedPositions s' ev.wd).foldl (fun t i => recordFor 0 ev (s'.configs i) t) s' ∧
      ((recordedPositions s' ev.wd).Perm (owners sharedWatch s ev.wd) ↔
        SingleOwner sharedWatch s ev.wd) :=
  owners_recorded_iff rfl (by decide) ⟨⟨rfl, rfl, rfl⟩, rfl, rfl⟩ 0 ⟨1, IN_CREATE, some (lit "x")⟩

theorem second_owner_missed : ¬ ∀ (env : WatchEnv) (s : FsState), opens env s = true →
    s.configCount ≤ MAX_CONFIGS → ∀ wd,
      (recordedPositions (rebuildWatches env s) wd).Perm (owners env s wd) := by
  intro delivered
  have shared := delivered sharedWatch (loadConfigs (.zero sharedDirectory)) rfl (by decide) 1
  have first : recordedPositions (rebuildWatches sharedWatch
      (loadConfigs (.zero sharedDirectory))) 1 = [0] := by decide
  have both : owners sharedWatch (loadConfigs (.zero sharedDirectory)) 1 = [0, 1] := by decide
  rw [first, both] at shared
  exact absurd shared.length_eq (by decide)

end SysDetector.Fs
