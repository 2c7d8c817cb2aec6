import SysDetector.Fs.ConfigTable

/-!
# The watch table

`watch_config` holds positions of the config table, which every command loads again but only a
start or stop of a loaded config rebuilds the watches for. `watches_consistent_iff` says in which
runs the two stay together: a reload may not move, change or switch a config that is watched, and
the descriptors have to fit the upper half of a word.
-/

namespace SysDetector.Fs
open CLib Runs

/-! ## Words -/

theorem watchWord_toBitVec (wd : Int32) (i : Nat) :
    (watchWord wd i).toBitVec = wd.toBitVec <<< 16 ||| BitVec.ofNat 32 i := by
  simp [watchWord, Int32.toBitVec_or, Int32.toBitVec_shiftLeft]

theorem watchWord_toNat (wd : Int32) {i : Nat} (small : i < 2 ^ 16) :
    (watchWord wd i).toBitVec.toNat = 2 ^ 16 * (wd.toBitVec.toNat % 2 ^ 16) + i := by
  have high : wd.toBitVec.toNat <<< 16 % 2 ^ 32 = 2 ^ 16 * (wd.toBitVec.toNat % 2 ^ 16) := by
    rw [Nat.shiftLeft_eq]
    omega
  have low : i % 2 ^ 32 = i := by omega
  rw [watchWord_toBitVec, BitVec.toNat_or, BitVec.toNat_shiftLeft, BitVec.toNat_ofNat, high, low,
    Nat.two_pow_add_eq_or_of_lt small]

theorem watchIndex_watchWord (wd : Int32) {i : Nat} (small : i < 2 ^ 16) :
    watchIndex (watchWord wd i) = i := by
  have mask : watchIndex (watchWord wd i) = (watchWord wd i).toBitVec.toNat &&& (2 ^ 16 - 1) := rfl
  rw [mask, Nat.and_two_pow_sub_one_eq_mod, watchWord_toNat wd small]
  omega

theorem watchWd_watchWord (wd : Int32) {i : Nat} (small : i < 2 ^ 16) :
    (watchWd (watchWord wd i)).toInt = wd.toInt.bmod (2 ^ 16) := by
  have shift : (watchWd (watchWord wd i)).toInt = (watchWord wd i).toBitVec.toInt / 2 ^ 16 := by
    have bits : (watchWd (watchWord wd i)).toBitVec = (watchWord wd i).toBitVec.sshiftRight 16 := by
      simp [watchWd]
    rw [← Int32.toInt_toBitVec, bits, BitVec.toInt_sshiftRight, Int.shiftRight_eq_div_pow]
    rfl
  have word := watchWord_toNat wd small
  have value := BitVec.toInt_eq_toNat_cond (watchWord wd i).toBitVec
  have wdValue := BitVec.toInt_eq_toNat_cond wd.toBitVec
  have wdInt : wd.toBitVec.toInt = wd.toInt := rfl
  rw [shift, Int.bmod_def]
  rw [wdInt] at wdValue
  split_ifs at value wdValue ⊢ <;> omega

theorem watchWd_watchWord_iff {wd : Int32} {i : Nat} (small : i < 2 ^ 16) (nonneg : 0 ≤ wd) :
    watchWd (watchWord wd i) = wd ↔ wd < 2 ^ 15 := by
  have nonneg' : 0 ≤ wd.toInt := by simpa [Int32.le_iff_toInt_le] using nonneg
  have bound := wd.toInt_lt
  have limit : (2 ^ 15 : Int32).toInt = 2 ^ 15 := by decide
  rw [← Int32.toInt_inj, watchWd_watchWord wd small, Int32.lt_iff_toInt_lt, limit, Int.bmod_def]
  split_ifs <;> omega

/-! ## Consistency -/

def target (config : FsConfig) : Int32 × CharBuf MAX_FIELD_LEN := (config.id, config.path)

def acceptedWatch : InotifyCall → Option (Int32 × Int32 × CharBuf MAX_FIELD_LEN)
  | .addWatch config wd => if 0 ≤ wd then some (wd, target config) else none
  | .rmWatch _ => none

def acceptedWatches (s : FsState) : List (Int32 × Int32 × CharBuf MAX_FIELD_LEN) :=
  s.inotifyCalls.filterMap acceptedWatch

def Refused (s : FsState) (t : Int32 × CharBuf MAX_FIELD_LEN) : Prop :=
  s.inotifyOpen = false ∨
    ∃ config wd, InotifyCall.addWatch config wd ∈ s.inotifyCalls ∧ wd < 0 ∧ target config = t

def decodeWord (s : FsState) (word : Int32) : Int32 × Int32 × CharBuf MAX_FIELD_LEN :=
  (watchWd word, target (s.configs (watchIndex word)))

/-- Every word decodes to a watch and the loaded config it was added for, the configs that are on
are those with a word, and an event is recorded for the config its watch was added for. -/
structure WatchesConsistent (s : FsState) : Prop where
  inside : ∀ word ∈ s.watchConfig, watchIndex word < s.configCount
  entries : s.watchConfig.map (decodeWord s) = acceptedWatches s
  switched : ∀ word ∈ s.watchConfig, (s.configs (watchIndex word)).monitorSwitch = true
  watched : ∀ i < s.configCount, (s.configs i).monitorSwitch = true →
    ¬ Refused s (target (s.configs i)) → ∃ word ∈ s.watchConfig, watchIndex word = i
  recorded : ∀ now ev, handleInotifyEvent now s ev = s ∨ ∃ i < s.configCount,
    (ev.wd, target (s.configs i)) ∈ acceptedWatches s ∧ handleInotifyEvent now s ev =
      recordEvent now (s.configs i) (maskToOp ev.mask) (eventPath (s.configs i) ev.name) s

theorem eventConfig_accepted {s : FsState}
    (inside : ∀ word ∈ s.watchConfig, watchIndex word < s.configCount)
    (entries : s.watchConfig.map (decodeWord s) = acceptedWatches s) {wd : Int32}
    {config : FsConfig} (found : eventConfig s wd = some config) :
    ∃ i < s.configCount, s.configs i = config ∧ (wd, target config) ∈ acceptedWatches s := by
  obtain ⟨word, first, rfl⟩ := Option.map_eq_some_iff.mp found
  have member := List.mem_of_find?_eq_some first
  have descriptor : watchWd word = wd := by simpa using List.find?_some first
  refine ⟨watchIndex word, inside word member, rfl, ?_⟩
  rw [← entries, ← descriptor]
  exact List.mem_map_of_mem (f := decodeWord s) member

theorem consistent_of_entries {s : FsState}
    (inside : ∀ word ∈ s.watchConfig, watchIndex word < s.configCount)
    (entries : s.watchConfig.map (decodeWord s) = acceptedWatches s)
    (switched : ∀ word ∈ s.watchConfig, (s.configs (watchIndex word)).monitorSwitch = true)
    (watched : ∀ i < s.configCount, (s.configs i).monitorSwitch = true →
      ¬ Refused s (target (s.configs i)) → ∃ word ∈ s.watchConfig, watchIndex word = i) :
    WatchesConsistent s where
  inside := inside
  entries := entries
  switched := switched
  watched := watched
  recorded := by
    intro now ev
    unfold handleInotifyEvent
    cases found : eventConfig s ev.wd with
    | none => exact .inl rfl
    | some config =>
        obtain ⟨i, loaded, rfl, accepted⟩ := eventConfig_accepted inside entries found
        exact .inr ⟨i, loaded, accepted, rfl⟩

/-! ## Reloading -/

def EnabledAt (configs : List FsConfig) (i : Nat) (t : Int32 × CharBuf MAX_FIELD_LEN) : Prop :=
  ∃ config, configs[i]? = some config ∧ config.monitorSwitch = true ∧ target config = t

def KeepsEnabled (s : FsState) (configs : List FsConfig) : Prop :=
  ∀ i t, ¬ Refused s t → (EnabledAt configs i t ↔ EnabledAt (tableConfigs s) i t)

theorem enabledAt_table {s : FsState} {i : Nat} {t : Int32 × CharBuf MAX_FIELD_LEN} :
    EnabledAt (tableConfigs s) i t ↔
      i < s.configCount ∧ (s.configs i).monitorSwitch = true ∧ target (s.configs i) = t := by
  simp only [EnabledAt, tableConfigs_getElem?]
  constructor
  · intro ⟨config, ⟨inside, here⟩, on, same⟩
    rw [here]
    exact ⟨inside, on, same⟩
  · intro ⟨inside, on, same⟩
    exact ⟨s.configs i, ⟨inside, rfl⟩, on, same⟩

structure SameWatches (s s' : FsState) : Prop where
  inotifyOpen : s'.inotifyOpen = s.inotifyOpen
  watchConfig : s'.watchConfig = s.watchConfig
  inotifyCalls : s'.inotifyCalls = s.inotifyCalls

theorem SameWatches.symm {s s' : FsState} (same : SameWatches s s') : SameWatches s' s :=
  ⟨same.inotifyOpen.symm, same.watchConfig.symm, same.inotifyCalls.symm⟩

theorem SameWatches.acceptedWatches {s s' : FsState} (same : SameWatches s s') :
    acceptedWatches s' = acceptedWatches s := by
  simp only [Fs.acceptedWatches, same.inotifyCalls]

theorem SameWatches.refused {s s' : FsState} (same : SameWatches s s')
    (t : Int32 × CharBuf MAX_FIELD_LEN) : Refused s' t ↔ Refused s t := by
  simp only [Refused, same.inotifyOpen, same.inotifyCalls]

structure CallsSound (s : FsState) : Prop where
  closed : s.inotifyOpen = false → s.watchConfig = [] ∧ s.inotifyCalls = []
  answers : ∀ c d v w, InotifyCall.addWatch c v ∈ s.inotifyCalls →
    InotifyCall.addWatch d w ∈ s.inotifyCalls → c.path = d.path → v = w

theorem CallsSound.of_same {s s' : FsState} (sound : CallsSound s) (same : SameWatches s s') :
    CallsSound s' where
  closed := by
    rw [same.inotifyOpen, same.watchConfig, same.inotifyCalls]
    exact sound.closed
  answers := by
    rw [same.inotifyCalls]
    exact sound.answers

theorem mem_acceptedWatches {s : FsState} {wd : Int32} {t : Int32 × CharBuf MAX_FIELD_LEN} :
    (wd, t) ∈ acceptedWatches s ↔ 0 ≤ wd ∧
      ∃ config, InotifyCall.addWatch config wd ∈ s.inotifyCalls ∧ target config = t := by
  simp only [acceptedWatches, List.mem_filterMap]
  constructor
  · intro ⟨call, member, kept⟩
    cases call with
    | rmWatch _ => cases kept
    | addWatch config wd' =>
        simp only [acceptedWatch, Option.ite_none_right_eq_some, Option.some.injEq,
          Prod.mk.injEq] at kept
        obtain ⟨nonneg, rfl, rfl⟩ := kept
        exact ⟨nonneg, config, member, rfl⟩
  · rintro ⟨nonneg, config, member, rfl⟩
    exact ⟨.addWatch config wd, member, if_pos nonneg⟩

theorem CallsSound.not_refused {s : FsState} (sound : CallsSound s) {wd : Int32}
    {t : Int32 × CharBuf MAX_FIELD_LEN} (accepted : (wd, t) ∈ acceptedWatches s) :
    ¬ Refused s t := by
  obtain ⟨nonneg, config, member, rfl⟩ := mem_acceptedWatches.mp accepted
  rintro (closed | ⟨other, wd', refusal, negative, same⟩)
  · simp [(sound.closed closed).2] at member
  · have answer := sound.answers _ _ _ _ member refusal (congrArg Prod.snd same).symm
    rw [← answer] at negative
    exact absurd negative (Int32.not_lt.mpr nonneg)

theorem WatchesConsistent.enabledAt {s s' : FsState} (before : WatchesConsistent s)
    (after : WatchesConsistent s') (same : SameWatches s s') {i : Nat}
    {t : Int32 × CharBuf MAX_FIELD_LEN} (allowed : ¬ Refused s t)
    (enabled : EnabledAt (tableConfigs s') i t) : EnabledAt (tableConfigs s) i t := by
  rw [enabledAt_table] at enabled ⊢
  obtain ⟨inside, on, rfl⟩ := enabled
  rw [← same.refused] at allowed
  obtain ⟨word, member, rfl⟩ := after.watched i inside on allowed
  have entries : s'.watchConfig.map (decodeWord s') = s'.watchConfig.map (decodeWord s) := by
    rw [after.entries, same.acceptedWatches, ← before.entries, same.watchConfig]
  have decoded := congrArg Prod.snd (List.map_inj_left.mp entries word member)
  rw [same.watchConfig] at member
  exact ⟨before.inside word member, before.switched word member, decoded.symm⟩

theorem reload_consistent_iff {s s' : FsState} (sound : CallsSound s)
    (before : WatchesConsistent s) (same : SameWatches s s') :
    WatchesConsistent s' ↔ KeepsEnabled s (tableConfigs s') := by
  constructor
  · intro after i t allowed
    exact ⟨before.enabledAt after same allowed,
      after.enabledAt before same.symm ((same.refused t).not.mpr allowed)⟩
  · intro keeps
    simp only [KeepsEnabled, enabledAt_table] at keeps
    have kept : ∀ word ∈ s.watchConfig, watchIndex word < s'.configCount ∧
        (s'.configs (watchIndex word)).monitorSwitch = true ∧
          target (s'.configs (watchIndex word)) = target (s.configs (watchIndex word)) := by
      intro word member
      have accepted : decodeWord s word ∈ acceptedWatches s := by
        rw [← before.entries]
        exact List.mem_map_of_mem member
      exact (keeps _ _ (sound.not_refused accepted)).mpr
        ⟨before.inside word member, before.switched word member, rfl⟩
    apply consistent_of_entries
    · rw [same.watchConfig]
      exact fun word member => (kept word member).1
    · rw [same.acceptedWatches, ← before.entries, same.watchConfig]
      refine List.map_congr_left fun word member => ?_
      simp only [decodeWord, (kept word member).2.2]
    · rw [same.watchConfig]
      exact fun word member => (kept word member).2.1
    · intro i inside on allowed
      rw [same.refused] at allowed
      obtain ⟨insideOld, onOld, sameTarget⟩ := (keeps i _ allowed).mp ⟨inside, on, rfl⟩
      rw [← sameTarget] at allowed
      rw [same.watchConfig]
      exact before.watched i insideOld onOld allowed

/-! ## Rebuilding -/

def DescriptorsFit (env : WatchEnv) (configs : List FsConfig) : Prop :=
  ∀ config ∈ configs, config.monitorSwitch = true → env.addWatch config.path < 2 ^ 15

section Rebuild
variable {env : WatchEnv} {s : FsState}

def watchedPositions (env : WatchEnv) (s : FsState) : List Nat :=
  (List.range s.configCount).filter (accepts env s)

theorem mem_watchedPositions {i : Nat} : i ∈ watchedPositions env s ↔
    i < s.configCount ∧ (s.configs i).monitorSwitch = true ∧
      0 ≤ env.addWatch (s.configs i).path := by
  simp [watchedPositions, accepts]

theorem accepted_asked (positions : List Nat) :
    (askedWatches env s positions).filterMap acceptedWatch =
      (positions.filter (accepts env s)).map fun i =>
        (env.addWatch (s.configs i).path, target (s.configs i)) := by
  induction positions with
  | nil => rfl
  | cons i rest ih =>
      unfold askedWatches at ih ⊢
      cases on : (s.configs i).monitorSwitch with
      | false => simpa [on, accepts] using ih
      | true =>
          by_cases accepted : 0 ≤ env.addWatch (s.configs i).path
          · simpa [on, accepts, accepted, acceptedWatch] using ih
          · simpa [on, accepts, accepted, acceptedWatch] using ih

theorem acceptedWatches_rebuild (opened : opens env s = true)
    (fits : s.configCount ≤ MAX_CONFIGS) : acceptedWatches (rebuildWatches env s) =
      (watchedPositions env s).map fun i =>
        (env.addWatch (s.configs i).path, target (s.configs i)) := by
  obtain ⟨log, frame⟩ := rebuildWatches_open opened fits
  have gone : (s.watchConfig.map fun word => InotifyCall.rmWatch (watchWd word)).filterMap
      acceptedWatch = [] := by
    simp [acceptedWatch]
  rw [acceptedWatches, frame, List.filterMap_append, gone, List.nil_append, accepted_asked]
  rfl

theorem decoded_rebuild (opened : opens env s = true) (fits : s.configCount ≤ MAX_CONFIGS) :
    (rebuildWatches env s).watchConfig.map (decodeWord (rebuildWatches env s)) =
      (watchedPositions env s).map fun i =>
        (watchWd (watchWord (env.addWatch (s.configs i).path) i), target (s.configs i)) := by
  obtain ⟨log, frame⟩ := rebuildWatches_open opened fits
  rw [frame]
  simp only [storedWords, List.map_map]
  refine List.map_congr_left fun i member => ?_
  have inside := List.mem_range.mp (List.mem_filter.mp member).1
  unfold MAX_CONFIGS at fits
  simp only [Function.comp_apply, decodeWord]
  rw [watchIndex_watchWord _ (by omega)]

theorem watchWd_rebuild_iff (fits : s.configCount ≤ MAX_CONFIGS) {i : Nat}
    (member : i ∈ watchedPositions env s) :
    watchWd (watchWord (env.addWatch (s.configs i).path) i) = env.addWatch (s.configs i).path ↔
      env.addWatch (s.configs i).path < 2 ^ 15 := by
  obtain ⟨inside, -, nonneg⟩ := mem_watchedPositions.mp member
  unfold MAX_CONFIGS at fits
  exact watchWd_watchWord_iff (by omega) nonneg

theorem rebuild_entries_iff (opened : opens env s = true) (fits : s.configCount ≤ MAX_CONFIGS) :
    (rebuildWatches env s).watchConfig.map (decodeWord (rebuildWatches env s)) =
        acceptedWatches (rebuildWatches env s) ↔ DescriptorsFit env (tableConfigs s) := by
  rw [decoded_rebuild opened fits, acceptedWatches_rebuild opened fits, List.map_inj_left]
  constructor
  · intro same config loaded on
    obtain ⟨i, inside, rfl⟩ := mem_tableConfigs.mp loaded
    by_cases accepted : 0 ≤ env.addWatch (s.configs i).path
    · have member := mem_watchedPositions.mpr ⟨inside, on, accepted⟩
      exact (watchWd_rebuild_iff fits member).mp (congrArg Prod.fst (same i member))
    · exact Int32.lt_trans (Int32.not_le.mp accepted) (by decide)
  · intro fit i member
    obtain ⟨inside, on, -⟩ := mem_watchedPositions.mp member
    have loaded : s.configs i ∈ tableConfigs s := mem_tableConfigs.mpr ⟨i, inside, rfl⟩
    rw [(watchWd_rebuild_iff fits member).mpr (fit _ loaded on)]

theorem rebuild_watched_iff (fits : s.configCount ≤ MAX_CONFIGS)
    (closed : s.inotifyOpen = false → s.watchConfig = []) {i : Nat} :
    (∃ word ∈ (rebuildWatches env s).watchConfig, watchIndex word = i) ↔
      opens env s = true ∧ i ∈ watchedPositions env s := by
  cases opened : opens env s with
  | false =>
      have words := closed (Bool.or_eq_false_iff.mp opened).1
      rw [rebuildWatches_closed opened]
      simp [FsState.logLine, words]
  | true =>
      obtain ⟨log, frame⟩ := rebuildWatches_open opened fits
      have index : ∀ j ∈ watchedPositions env s,
          watchIndex (watchWord (env.addWatch (s.configs j).path) j) = j := by
        intro j member
        obtain ⟨inside, -⟩ := mem_watchedPositions.mp member
        unfold MAX_CONFIGS at fits
        exact watchIndex_watchWord _ (by omega)
      rw [frame]
      constructor
      · rintro ⟨word, stored, rfl⟩
        obtain ⟨j, member, rfl⟩ := List.mem_map.mp stored
        rw [index j member]
        exact ⟨rfl, member⟩
      · rintro ⟨-, member⟩
        exact ⟨_, List.mem_map_of_mem member, index i member⟩

theorem rebuild_consistent_iff (fits : s.configCount ≤ MAX_CONFIGS) (sound : CallsSound s) :
    WatchesConsistent (rebuildWatches env s) ↔
      (opens env s = true → DescriptorsFit env (tableConfigs s)) := by
  cases opened : opens env s with
  | false =>
      have closed : s.inotifyOpen = false := (Bool.or_eq_false_iff.mp opened).1
      obtain ⟨words, calls⟩ := sound.closed closed
      rw [rebuildWatches_closed opened]
      refine iff_of_true ?_ fun impossible => absurd impossible Bool.false_ne_true
      apply consistent_of_entries
      · simp [FsState.logLine, words]
      · simp [FsState.logLine, words, acceptedWatches, calls]
      · simp [FsState.logLine, words]
      · intro i _ _ allowed
        exact absurd (.inl closed) allowed
  | true =>
      rw [← rebuild_entries_iff opened fits]
      refine ⟨fun consistent _ => consistent.entries, fun fit => ?_⟩
      have entries := fit rfl
      have positions : ∀ i, (∃ word ∈ (rebuildWatches env s).watchConfig, watchIndex word = i) ↔
          i ∈ watchedPositions env s := by
        intro i
        rw [rebuild_watched_iff fits fun closed => (sound.closed closed).1, opened]
        exact and_iff_right rfl
      have words : ∀ word ∈ (rebuildWatches env s).watchConfig,
          watchIndex word ∈ watchedPositions env s :=
        fun word stored => (positions _).mp ⟨word, stored, rfl⟩
      obtain ⟨log, frame⟩ := rebuildWatches_open opened fits
      apply consistent_of_entries _ entries
      · intro word stored
        rw [frame]
        exact (mem_watchedPositions.mp (words word stored)).2.1
      · intro i inside on allowed
        rw [positions, mem_watchedPositions]
        rw [frame] at inside on allowed
        refine ⟨inside, on, ?_⟩
        by_contra negative
        refine allowed (.inr ⟨s.configs i, _, List.mem_append_right _ ?_,
          Int32.not_le.mp negative, rfl⟩)
        exact List.mem_map.mpr ⟨i, List.mem_filter.mpr ⟨List.mem_range.mpr inside, on⟩, rfl⟩
      · intro word stored
        rw [frame]
        exact (mem_watchedPositions.mp (words word stored)).1

theorem rebuild_callsSound (fits : s.configCount ≤ MAX_CONFIGS) (sound : CallsSound s) :
    CallsSound (rebuildWatches env s) := by
  cases opened : opens env s with
  | false =>
      rw [rebuildWatches_closed opened]
      exact sound.of_same ⟨rfl, rfl, rfl⟩
  | true =>
      obtain ⟨log, frame⟩ := rebuildWatches_open opened fits
      rw [frame]
      have answered : ∀ c v, InotifyCall.addWatch c v ∈
          (s.watchConfig.map fun word => InotifyCall.rmWatch (watchWd word)) ++
            askedWatches env s (List.range s.configCount) → v = env.addWatch c.path := by
        intro c v member
        rcases List.mem_append.mp member with gone | asked
        · simp at gone
        · obtain ⟨i, -, call⟩ := List.mem_map.mp asked
          cases call
          rfl
      refine ⟨fun closed => absurd closed Bool.true_eq_false.mp, ?_⟩
      intro c d v w first second samePath
      rw [answered c v first, answered d w second, samePath]

end Rebuild

/-! ## Runs -/

structure SameTable (s s' : FsState) : Prop extends SameWatches s s' where
  configs : s'.configs = s.configs
  configCount : s'.configCount = s.configCount

theorem SameTable.consistent {s s' : FsState} (same : SameTable s s')
    (consistent : WatchesConsistent s) : WatchesConsistent s' := by
  apply consistent_of_entries
  · rw [same.watchConfig, same.configCount]
    exact consistent.inside
  · rw [same.toSameWatches.acceptedWatches, ← consistent.entries, same.watchConfig]
    refine List.map_congr_left fun word _ => ?_
    simp only [decodeWord, same.configs]
  · rw [same.watchConfig, same.configs]
    exact consistent.switched
  · rw [same.watchConfig, same.configs, same.configCount]
    intro i inside on allowed
    rw [same.toSameWatches.refused] at allowed
    exact consistent.watched i inside on allowed

theorem SameTable.tableConfigs {s s' : FsState} (same : SameTable s s') :
    tableConfigs s' = tableConfigs s := by
  simp only [Fs.tableConfigs, same.configs, same.configCount]

theorem SameTable.symm {s s' : FsState} (same : SameTable s s') : SameTable s' s where
  toSameWatches := same.toSameWatches.symm
  configs := same.configs.symm
  configCount := same.configCount.symm

theorem SameTable.consistent_iff {s s' : FsState} (same : SameTable s s') :
    WatchesConsistent s' ↔ WatchesConsistent s :=
  ⟨same.symm.consistent, same.consistent⟩

theorem OnlyAnswers.sameTable {s s' : FsState} (answers : OnlyAnswers s s') : SameTable s s' := by
  obtain ⟨log, responses, out, rfl⟩ := answers
  exact ⟨⟨rfl, rfl, rfl⟩, rfl, rfl⟩

theorem OnlyRecords.sameTable {s s' : FsState} (records : OnlyRecords s s') : SameTable s s' := by
  obtain ⟨events, count, cursor, log, alarms, rfl⟩ := records
  exact ⟨⟨rfl, rfl, rfl⟩, rfl, rfl⟩

theorem loadConfigs_sameWatches (s : FsState) : SameWatches s (loadConfigs s) := by
  obtain ⟨configs, count, -, loaded⟩ := loadConfigs_frame s
  rw [loaded]
  exact ⟨rfl, rfl, rfl⟩

theorem rebuildTable_some {s table : FsState} {message : Bytes}
    (rebuilt : rebuildTable s message = some table) :
    table.configCount ≤ MAX_CONFIGS ∧ SameWatches s table := by
  unfold rebuildTable at rebuilt
  split at rebuilt
  · split_ifs at rebuilt
    obtain ⟨i, -, rfl⟩ := Option.map_eq_some_iff.mp rebuilt
    obtain ⟨configs, count, directory, bounded, switched⟩ := switchTable_frame (loadConfigs s) i _
    rw [switched]
    have loaded := loadConfigs_sameWatches s
    exact ⟨bounded, loaded.inotifyOpen, loaded.watchConfig, loaded.inotifyCalls⟩
  · cases rebuilt

theorem SameWatches.trans {s t u : FsState} (first : SameWatches s t) (second : SameWatches t u) :
    SameWatches s u :=
  ⟨second.inotifyOpen.trans first.inotifyOpen, second.watchConfig.trans first.watchConfig,
    second.inotifyCalls.trans first.inotifyCalls⟩

theorem SameWatches.opens {s s' : FsState} (same : SameWatches s s') (env : WatchEnv) :
    opens env s' = opens env s := by
  rw [Fs.opens, same.inotifyOpen, Fs.opens]

theorem closed_sameWatches {env : WatchEnv} {s : FsState} (closed : opens env s = false) :
    SameWatches s (rebuildWatches env s) := by
  rw [rebuildWatches_closed closed]
  exact ⟨rfl, rfl, rfl⟩

inductive MessageActs (env : CommandEnv) (message : Bytes) (s s' : FsState) : Prop
  | keeps (unbuilt : rebuildTable s message = none)
      (unwritten : switchedDirectory s message = none)
      (directory : s'.directory = s.directory)
      (same : SameTable (if reloads message then loadConfigs s else s) s')
  | rebuilds (table : FsState) (rebuilt : rebuildTable s message = some table)
      (written : switchedDirectory s message = some table.directory)
      (directory : s'.directory = table.directory)
      (loaded : tableConfigs table = directoryConfigs table.directory)
      (fits : table.configCount ≤ MAX_CONFIGS) (same : SameWatches s table)
      (after : SameTable (rebuildWatches env.watches table) s')

theorem handleMessage_acts (env : CommandEnv) (message : Bytes) (s : FsState) :
    MessageActs env message s (handleMessage env message s) := by
  have kinds := handleMessage_cases env message s
  have switched := rebuildTable_directory s message
  cases rebuilt : rebuildTable s message with
  | some table =>
      simp only [rebuilt] at kinds
      rw [rebuilt] at switched
      obtain ⟨fits, same⟩ := rebuildTable_some rebuilt
      have directory := kinds.directory.trans (rebuildWatches_keeps env.watches fits).1
      exact .rebuilds table rebuilt switched.symm directory (rebuildTable_loaded rebuilt) fits same
        kinds.sameTable
  | none =>
      simp only [rebuilt] at kinds
      rw [rebuilt] at switched
      refine .keeps rebuilt switched.symm (kinds.directory.trans ?_) kinds.sameTable
      split
      · exact loadConfigs_directory s
      · rfl

theorem MessageActs.unbuilt_same {message : Bytes} {s s' : FsState}
    (same : SameTable (if reloads message then loadConfigs s else s) s') : SameWatches s s' := by
  refine SameWatches.trans ?_ same.toSameWatches
  split
  · exact loadConfigs_sameWatches s
  · exact ⟨rfl, rfl, rfl⟩

theorem step_callsSound (s : FsState) (input : FsStep) (sound : CallsSound s) :
    CallsSound (step s input) := by
  cases input with
  | message env message =>
      cases handleMessage_acts env message s with
      | keeps _ _ _ same => exact sound.of_same (MessageActs.unbuilt_same same)
      | rebuilds table _ _ _ _ fits same after =>
          exact (rebuild_callsSound fits (sound.of_same same)).of_same after.toSameWatches
  | monitor env => exact sound.of_same (monitorOnce_records env s).sameTable.toSameWatches
  | edit directory => exact sound.of_same ⟨rfl, rfl, rfl⟩

/-- What a step may not do: load the configs again over watches that are for other configs, or get
a descriptor that does not fit. -/
def WatchGuard (s : FsState) : FsStep → Prop
  | .message env message =>
      match switchedDirectory s message with
      | some directory => opens env.watches s = true →
          DescriptorsFit env.watches (directoryConfigs directory)
      | none => reloads message = true → KeepsEnabled s (directoryConfigs s.directory)
  | .monitor _ => True
  | .edit _ => True

theorem handleMessage_consistent_iff {env : CommandEnv} {message : Bytes} {s : FsState}
    (sound : CallsSound s) (before : WatchesConsistent s) :
    WatchesConsistent (handleMessage env message s) ↔ WatchGuard s (.message env message) := by
  cases handleMessage_acts env message s with
  | rebuilds table _ written _ loaded fits same after =>
      rw [after.consistent_iff, rebuild_consistent_iff fits (sound.of_same same), same.opens]
      simp only [WatchGuard, written, loaded]
  | keeps _ unwritten _ same =>
      rw [same.consistent_iff]
      cases reloaded : reloads message with
      | true =>
          simp only [if_true, WatchGuard, unwritten, reloaded, forall_const]
          rw [reload_consistent_iff sound before (loadConfigs_sameWatches s),
            tableConfigs_loadConfigs]
      | false => simp [WatchGuard, unwritten, reloaded, before]

theorem step_consistent_iff {s : FsState} (input : FsStep) (sound : CallsSound s)
    (before : WatchesConsistent s) : WatchesConsistent (step s input) ↔ WatchGuard s input := by
  cases input with
  | message env message => exact handleMessage_consistent_iff sound before
  | monitor env =>
      exact iff_of_true ((monitorOnce_records env s).sameTable.consistent before) trivial
  | edit directory =>
      have same : SameTable s { s with directory := directory } := ⟨⟨rfl, rfl, rfl⟩, rfl, rfl⟩
      exact iff_of_true (same.consistent before) trivial

theorem initial_loaded (env : WatchEnv) (directory : Directory) :
    (loadConfigs (.zero directory)).configCount ≤ MAX_CONFIGS ∧
      CallsSound (loadConfigs (.zero directory)) ∧
      opens env (loadConfigs (.zero directory)) = env.inotifyInit ∧
      SameTable (rebuildWatches env (loadConfigs (.zero directory))) (.initial env directory) := by
  obtain ⟨configs, count, bounded, loaded⟩ := loadConfigs_frame (.zero directory)
  refine ⟨?_, ?_, ?_, ⟨⟨rfl, rfl, rfl⟩, rfl, rfl⟩⟩
  · rw [loaded]
    exact bounded
  · rw [loaded]
    refine ⟨fun _ => ⟨rfl, rfl⟩, ?_⟩
    intro c d v w first
    cases first
  · rw [loaded]
    exact Bool.false_or _

theorem initial_callsSound (env : WatchEnv) (directory : Directory) :
    CallsSound (.initial env directory) := by
  obtain ⟨fits, sound, -, logged⟩ := initial_loaded env directory
  exact (rebuild_callsSound fits sound).of_same logged.toSameWatches

/-- The watch table stays consistent throughout a run exactly when every descriptor handed out at
a rebuild fits half a word, and every command that loads the configs again without a rebuild finds
the same configs on, at the same positions and with the same paths. -/
theorem watches_consistent_iff (env : WatchEnv) (directory : Directory) (steps : List FsStep) :
    Always step WatchesConsistent (.initial env directory) steps ↔
      (env.inotifyInit = true → DescriptorsFit env (directoryConfigs directory)) ∧
        Guarded step WatchGuard (.initial env directory) steps := by
  have sound := initial_callsSound env directory
  have start : WatchesConsistent (.initial env directory) ↔
      (env.inotifyInit = true → DescriptorsFit env (directoryConfigs directory)) := by
    obtain ⟨fits, soundLoaded, opened, logged⟩ := initial_loaded env directory
    rw [logged.consistent_iff, rebuild_consistent_iff fits soundLoaded, opened,
      tableConfigs_loadConfigs]
    rfl
  have guarded : WatchesConsistent (.initial env directory) →
      (Always step WatchesConsistent (.initial env directory) steps ↔
        Guarded step WatchGuard (.initial env directory) steps) := by
    intro first
    apply always_iff_guarded step (J := fun s => CallsSound s ∧ WatchesConsistent s)
      (L := fun _ _ => True)
    · exact fun s inv => inv.2
    · exact fun s input inv _ guard =>
        ⟨step_callsSound s input inv.1, (step_consistent_iff input inv.1 inv.2).mpr guard⟩
    · exact fun s input inv _ after => (step_consistent_iff input inv.1 inv.2).mp after
    · exact ⟨sound, first⟩
    · exact fun _ _ _ _ => trivial
  constructor
  · intro always
    have first := always [] List.nil_prefix
    exact ⟨start.mp first, (guarded first).mp always⟩
  · intro ⟨fit, guard⟩
    exact (guarded (start.mpr fit)).mpr guard

/-! ## A config file that comes first -/

def confFile (name : String) (inode : UInt64) (content : String) : DirEntry where
  name := lit name
  stat := some ⟨0, inode, true⟩
  readable := true
  writable := true
  content := lit content

def listedSteps : List FsStep :=
  [.edit (some [confFile "a.conf" 11 "NAME=a\nPATH=/a\n",
     confFile "b.conf" 12 "MONITOR_SWITCH=on\nNAME=b\nPATH=/b\n"]),
   .message ⟨⟨true, fun _ => 1⟩, true⟩ (lit "list")]

theorem listing_moves_configs : ¬ ∀ (env : WatchEnv) (directory : Directory) (steps : List FsStep),
    WatchesConsistent (run step (.initial env directory) steps) := by
  intro consistent
  have on := (consistent ⟨true, fun _ => 1⟩
    (some [confFile "b.conf" 12 "MONITOR_SWITCH=on\nNAME=b\nPATH=/b\n"]) listedSteps).switched
    (watchWord 1 0) (by decide)
  revert on
  decide

end SysDetector.Fs
