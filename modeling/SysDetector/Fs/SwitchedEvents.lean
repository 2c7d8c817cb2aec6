import SysDetector.Fs.SwitchOutcome
import SysDetector.Fs.SwitchStore

namespace SysDetector.Fs
open CLib Runs Registers

/-! ## Consistency of the running service -/

def ShortDescriptors (env : WatchEnv) : Prop := ∀ path, env.addWatch path < 2 ^ 15

def StepShort : ServiceStep → Prop
  | .message env _ => ShortDescriptors env.watches
  | .monitor _ => True
  | .restart env => ShortDescriptors env

theorem ShortDescriptors.fit {env : WatchEnv} (short : ShortDescriptors env)
    (configs : List FsConfig) : DescriptorsFit env configs :=
  fun config _ _ => short config.path

theorem initial_consistent {env : WatchEnv} (short : ShortDescriptors env) (directory : Directory) :
    WatchesConsistent (.initial env directory) := by
  obtain ⟨fits, sound, -, logged⟩ := initial_loaded env directory
  exact logged.consistent ((rebuild_consistent_iff fits sound).mpr fun _ => short.fit _)

theorem keepsEnabled_current {s : FsState} (current : TableCurrent s) :
    KeepsEnabled s (directoryConfigs s.directory) := by
  intro i t _
  rw [current]

structure Serving (directory : Directory) (s : FsState) (store : List (Int32 × Bool)) : Prop where
  stores : Stores directory s store
  sound : CallsSound s
  consistent : WatchesConsistent s

theorem serviceStep_serving {directory : Directory} {s : FsState} {store : List (Int32 × Bool)}
    (serving : Serving directory s store) {input : ServiceStep} (short : StepShort input) :
    Serving directory (serviceStep s input) (run write store (switchWrites input)) := by
  refine ⟨serviceStep_stores serving.stores input, ?_, ?_⟩
  · cases input with
    | message env message => exact step_callsSound s (.message env message) serving.sound
    | monitor env => exact step_callsSound s (.monitor env) serving.sound
    | restart env => exact initial_callsSound env s.directory
  · cases input with
    | message env message =>
        refine (step_consistent_iff (.message env message) serving.sound serving.consistent).mpr ?_
        unfold WatchGuard
        dsimp only
        split
        · exact fun _ => short.fit _
        · exact fun _ => keepsEnabled_current serving.stores.current
    | monitor env =>
        exact (step_consistent_iff (.monitor env) serving.sound serving.consistent).mpr trivial
    | restart env => exact initial_consistent short s.directory

/-! ## What a pass records -/

/-- Nothing but events of configs that are on is logged, and no other alarm is raised. -/
structure RecordsOn (s s' : FsState) : Prop where
  log : ∃ lines, s'.logFile = s.logFile ++ lines ∧ ∀ id name op path,
    LogLine.event id name op path ∈ lines →
      ∃ config ∈ tableConfigs s, config.monitorSwitch = true ∧ config.id = id
  alarms : ∃ commands, s'.alarms = s.alarms ++ commands ∧ ∀ command ∈ commands,
    ∃ config ∈ tableConfigs s, config.monitorSwitch = true ∧ config.alarmCmd = command

theorem eventConfig_on {s : FsState} (consistent : WatchesConsistent s) {wd : Int32}
    {config : FsConfig} (found : eventConfig s wd = some config) :
    config ∈ tableConfigs s ∧ config.monitorSwitch = true := by
  obtain ⟨word, first, rfl⟩ := Option.map_eq_some_iff.mp found
  have member := List.mem_of_find?_eq_some first
  exact ⟨mem_tableConfigs.mpr ⟨_, consistent.inside word member, rfl⟩,
    consistent.switched word member⟩

theorem recordEvent_adds (now : Time) (config : FsConfig) (op : Bytes) (path : CharBuf 512)
    (s : FsState) :
    (recordEvent now config op path s).logFile =
        s.logFile ++ [.event config.id config.name op path] ∧
      ((recordEvent now config op path s).alarms = s.alarms ∨
        (recordEvent now config op path s).alarms = s.alarms ++ [config.alarmCmd]) := by
  unfold recordEvent FsState.logLine
  dsimp only
  by_cases raised : config.alarmCmd.text ≠ [] ∧ config.alarmCmd.text ≠ lit "true"
  · rw [if_pos raised]
    split <;> exact ⟨rfl, .inr rfl⟩
  · rw [if_neg raised]
    split <;> exact ⟨rfl, .inl rfl⟩

theorem RecordsOn.refl (s : FsState) : RecordsOn s s where
  log := ⟨[], (List.append_nil _).symm, by simp⟩
  alarms := ⟨[], (List.append_nil _).symm, by simp⟩

theorem RecordsOn.event {s t : FsState} (records : RecordsOn s t) (only : OnlyRecords s t)
    (consistent : WatchesConsistent s) (now : Time) (ev : InotifyEvent) :
    RecordsOn s (handleInotifyEvent now t ev) := by
  unfold handleInotifyEvent
  cases found : eventConfig t ev.wd with
  | none => exact records
  | some config =>
      obtain ⟨loaded, on⟩ := eventConfig_on (only.sameTable.consistent consistent) found
      rw [only.sameTable.tableConfigs] at loaded
      obtain ⟨logged, alarmed⟩ := recordEvent_adds now config (maskToOp ev.mask)
        (eventPath config ev.name) t
      obtain ⟨lines, log, each⟩ := records.log
      obtain ⟨commands, alarms, own⟩ := records.alarms
      constructor
      · refine ⟨lines ++ [.event config.id config.name (maskToOp ev.mask) (eventPath config ev.name)],
          ?_, ?_⟩
        · rw [← List.append_assoc, ← log]
          exact logged
        · intro id name op path member
          rcases List.mem_append.mp member with before | last
          · exact each id name op path before
          · cases List.mem_singleton.mp last
            exact ⟨config, loaded, on, rfl⟩
      · rcases alarmed with quiet | raised
        · exact ⟨commands, quiet.trans alarms, own⟩
        · refine ⟨commands ++ [config.alarmCmd], ?_, ?_⟩
          · rw [← List.append_assoc, ← alarms]
            exact raised
          · intro command member
            rcases List.mem_append.mp member with before | last
            · exact own command before
            · rw [List.mem_singleton.mp last]
              exact ⟨config, loaded, on, rfl⟩

theorem RecordsOn.events {s t : FsState} (records : RecordsOn s t) (only : OnlyRecords s t)
    (consistent : WatchesConsistent s) (now : Time) (events : List InotifyEvent) :
    RecordsOn s (events.foldl (handleInotifyEvent now) t) ∧
      OnlyRecords s (events.foldl (handleInotifyEvent now) t) := by
  induction events generalizing t with
  | nil => exact ⟨records, only⟩
  | cons ev rest ih =>
      exact ih (records.event only consistent now ev)
        (only.trans (handleInotifyEvent_records now t ev))

theorem monitorOnce_recordsOn {s : FsState} (consistent : WatchesConsistent s) (env : ReadEnv) :
    RecordsOn s (monitorOnce env s) := by
  have reads : ∀ (reads : List (List InotifyEvent)) {t : FsState}, RecordsOn s t → OnlyRecords s t →
      RecordsOn s (reads.foldl (fun t events => events.foldl (handleInotifyEvent env.now) t) t) := by
    intro reads
    induction reads with
    | nil => exact fun records _ => records
    | cons events rest ih =>
        intro t records only
        obtain ⟨recordsAfter, onlyAfter⟩ := records.events only consistent env.now events
        exact ih recordsAfter onlyAfter
  have all := reads env.reads (.refl s) (.refl s)
  unfold monitorOnce
  split_ifs
  · obtain ⟨lines, log, each⟩ := all.log
    refine ⟨⟨lines ++ [.readFailed], ?_, ?_⟩, all.alarms⟩
    · rw [← List.append_assoc, ← log]
      rfl
    · intro id name op path member
      rcases List.mem_append.mp member with before | last
      · exact each id name op path before
      · cases List.mem_singleton.mp last
  · exact all
  · exact .refl s

/-! ## Runs -/

theorem on_iff {directory : Directory} {s : FsState} {store : List (Int32 × Bool)}
    (stores : Stores directory s store) (id : Int32) :
    (∃ config ∈ tableConfigs s, config.monitorSwitch = true ∧ config.id = id) ↔
      (id, true) ∈ store := by
  rw [← stores.switches, switches, ← stores.current, List.mem_map]
  simp only [Prod.mk.injEq]
  exact exists_congr fun config => and_congr_right fun _ => and_comm

theorem accepted_recorded {s : FsState} (consistent : WatchesConsistent s) {ev : InotifyEvent}
    {t : Int32 × CharBuf MAX_FIELD_LEN} (accepted : (ev.wd, t) ∈ acceptedWatches s) (now : Time) :
    ∃ owner ∈ tableConfigs s, owner.monitorSwitch = true ∧ handleInotifyEvent now s ev =
      recordEvent now owner (maskToOp ev.mask) (eventPath owner ev.name) s := by
  rw [← consistent.entries] at accepted
  obtain ⟨word, member, same⟩ := List.mem_map.mp accepted
  have descriptor : watchWd word = ev.wd := congrArg Prod.fst same
  have found : (s.watchConfig.find? fun word => watchWd word = ev.wd).isSome = true :=
    List.find?_isSome.mpr ⟨word, member, by simpa using descriptor⟩
  cases owner : eventConfig s ev.wd with
  | none =>
      rw [eventConfig, Option.map_eq_none_iff] at owner
      rw [owner] at found
      cases found
  | some config =>
      obtain ⟨loaded, on⟩ := eventConfig_on consistent owner
      refine ⟨config, loaded, on, ?_⟩
      rw [handleInotifyEvent, owner]

def attributes (wd : Int32) : ReadEnv := ⟨200, [[⟨wd, IN_ATTRIB, none⟩]], false⟩

theorem growingWatches_short {k : Nat} (small : Int32.ofNat (k + 1) < 2 ^ 15) :
    ShortDescriptors (growingWatches k) := fun _ => small

theorem stoppedTwice_short : ∀ input ∈ stoppedTwice, StepShort input := by
  simp only [stoppedTwice, List.forall_mem_cons, StepShort]
  refine ⟨growingWatches_short ?_, growingWatches_short ?_, growingWatches_short ?_, trivial,
    growingWatches_short ?_, by simp⟩ <;> decide

/-- The watch of the last start is gone with the stop after it. -/
example : (eventRows (run serviceStep (.initial (growingWatches 0) webDirectory)
      (stoppedTwice ++ [.monitor (attributes 4)])),
    eventRows (run serviceStep (.initial (growingWatches 0) webDirectory)
      (stoppedTwice.take 3 ++ [.monitor (attributes 4)])) |>.map (·.configId)) = ([], [12]) := by
  decide

end SysDetector.Fs
