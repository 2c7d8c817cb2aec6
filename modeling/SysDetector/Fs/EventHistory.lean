import SysDetector.Library.Ring
import SysDetector.Fs.Frames

namespace SysDetector.Fs
open CLib Runs Rings

def eventRing (s : FsState) : Ring FsEventRecord MAX_EVENTS where
  slots := s.events
  cursor := s.eventCursor
  count := s.eventCount

theorem eventRows_eq (s : FsState) : eventRows s = (eventRing s).contents := rfl

theorem recordEvent_ring (now : Time) (config : FsConfig) (op : Bytes) (path : CharBuf 512)
    (s : FsState) : eventRing (recordEvent now config op path s) =
      (eventRing s).push (eventRecord now config op path) := by
  unfold recordEvent Ring.push Ring.slot eventRing FsState.logLine
  by_cases full : s.eventCount = MAX_EVENTS <;> simp only [full, if_true, if_false] <;>
    split_ifs <;> rfl

/-! ## Runs of `record_event` -/

structure EventCall where
  now : Time
  config : FsConfig
  op : Bytes
  path : CharBuf 512

def EventCall.record (call : EventCall) : FsEventRecord :=
  eventRecord call.now call.config call.op call.path

def recordCall (s : FsState) (call : EventCall) : FsState :=
  recordEvent call.now call.config call.op call.path s

theorem eventRing_calls (s : FsState) (calls : List EventCall) :
    eventRing (run recordCall s calls) =
      (calls.map EventCall.record).foldl Ring.push (eventRing s) := by
  induction calls generalizing s with
  | nil => rfl
  | cons call calls ih =>
      rw [run_cons, ih, List.map_cons, List.foldl_cons]
      congr 1
      exact recordEvent_ring call.now call.config call.op call.path s

theorem holds_start (directory : Directory) : (eventRing (.zero directory)).Holds [] :=
  Ring.holds_empty _ (by decide)

/-- Whenever the listing is asked for, it shows the last `MAX_EVENTS` records made, oldest first. -/
theorem events_listed (directory : Directory) (calls : List EventCall) (env : CommandEnv) :
    let s := run recordCall (.zero directory) calls
    (eventRing s).WellFormed ∧
      (listEvents env s).outFile =
        if env.outFileOpens then some (.events ((calls.map EventCall.record).rtake MAX_EVENTS))
        else s.outFile := by
  have holds := Ring.contents_pushAll (holds_start directory) (calls.map EventCall.record)
  rw [← eventRing_calls, List.nil_append] at holds
  refine ⟨holds.good, ?_⟩
  unfold listEvents
  rw [eventRows_eq, holds.contents]
  split_ifs <;> rfl

/-! ## Runs of the worker -/

def eventMade (now : Time) (s : FsState) (ev : InotifyEvent) : Option FsEventRecord :=
  (eventConfig s ev.wd).map fun config =>
    eventRecord now config (maskToOp ev.mask) (eventPath config ev.name)

def eventsMade (s : FsState) : FsStep → List FsEventRecord
  | .monitor env =>
      if s.inotifyOpen then env.reads.flatten.filterMap (eventMade env.now s) else []
  | _ => []

def stepEvents : FsState × List FsEventRecord → FsStep → FsState × List FsEventRecord
  | (s, made), input => (step s input, made ++ eventsMade s input)

theorem eventMade_of_records {s s' : FsState} (records : OnlyRecords s s') (now : Time) :
    eventMade now s' = eventMade now s := by
  obtain ⟨_, _, _, _, _, rfl⟩ := records
  rfl

theorem handleInotifyEvent_ring (now : Time) (s : FsState) (ev : InotifyEvent) :
    eventRing (handleInotifyEvent now s ev) =
      (eventMade now s ev).toList.foldl Ring.push (eventRing s) := by
  unfold handleInotifyEvent eventMade
  cases eventConfig s ev.wd with
  | none => rfl
  | some config => exact recordEvent_ring now config _ _ s

theorem handleEvents_ring (now : Time) (s : FsState) (events : List InotifyEvent) :
    eventRing (events.foldl (handleInotifyEvent now) s) =
      (events.filterMap (eventMade now s)).foldl Ring.push (eventRing s) := by
  induction events generalizing s with
  | nil => rfl
  | cons ev events ih =>
      have same := eventMade_of_records (handleInotifyEvent_records now s ev) now
      have parts : (ev :: events).filterMap (eventMade now s) =
          (eventMade now s ev).toList ++ events.filterMap (eventMade now s) := by
        cases made : eventMade now s ev <;> simp [made]
      rw [List.foldl_cons, ih, same, handleInotifyEvent_ring, parts, List.foldl_append]

theorem monitorOnce_ring (env : ReadEnv) (s : FsState) :
    eventRing (monitorOnce env s) =
      (eventsMade s (.monitor env)).foldl Ring.push (eventRing s) := by
  unfold monitorOnce eventsMade
  by_cases opened : s.inotifyOpen = true
  · simp only [opened, if_true]
    rw [← handleEvents_ring, List.foldl_flatten]
    split_ifs <;> rfl
  · simp only [opened]
    rfl

theorem loadConfigs_ring (s : FsState) : eventRing (loadConfigs s) = eventRing s := by
  obtain ⟨configs, count, -, loaded⟩ := loadConfigs_frame s
  rw [loaded]
  rfl

theorem rebuildWatches_ring (env : WatchEnv) {s : FsState} (fits : s.configCount ≤ MAX_CONFIGS) :
    eventRing (rebuildWatches env s) = eventRing s := by
  cases opened : opens env s with
  | false =>
      rw [rebuildWatches_closed opened]
      rfl
  | true =>
      obtain ⟨log, frame⟩ := rebuildWatches_open opened fits
      rw [frame]
      rfl

theorem rebuildTable_ring {s table : FsState} {message : Bytes}
    (rebuilt : rebuildTable s message = some table) :
    table.configCount ≤ MAX_CONFIGS ∧ eventRing table = eventRing s := by
  unfold rebuildTable at rebuilt
  split at rebuilt
  · split_ifs at rebuilt
    obtain ⟨i, -, rfl⟩ := Option.map_eq_some_iff.mp rebuilt
    obtain ⟨configs, count, directory, bounded, frame⟩ := switchTable_frame (loadConfigs s) i _
    rw [frame]
    exact ⟨bounded, loadConfigs_ring s⟩
  · cases rebuilt

theorem OnlyAnswers.ring {s s' : FsState} (answers : OnlyAnswers s s') :
    eventRing s' = eventRing s := by
  obtain ⟨log, responses, out, rfl⟩ := answers
  rfl

theorem handleMessage_ring (env : CommandEnv) (message : Bytes) (s : FsState) :
    eventRing (handleMessage env message s) = eventRing s := by
  have kinds := handleMessage_cases env message s
  cases rebuilt : rebuildTable s message with
  | some table =>
      simp only [rebuilt] at kinds
      obtain ⟨fits, same⟩ := rebuildTable_ring rebuilt
      rw [kinds.ring, rebuildWatches_ring env.watches fits, same]
  | none =>
      simp only [rebuilt] at kinds
      rw [kinds.ring]
      split_ifs
      · exact loadConfigs_ring s
      · rfl

theorem step_ring (s : FsState) (input : FsStep) :
    eventRing (step s input) = (eventsMade s input).foldl Ring.push (eventRing s) := by
  cases input with
  | message env message => exact handleMessage_ring env message s
  | monitor env => exact monitorOnce_ring env s
  | edit directory => rfl

theorem worker_events_listed (env : WatchEnv) (directory : Directory) (steps : List FsStep) :
    let final := run stepEvents (.initial env directory, []) steps
    (eventRing final.1).Holds final.2 := by
  apply run_of_step stepEvents (J := fun both => (eventRing both.1).Holds both.2)
  · rintro ⟨s, made⟩ input holds
    show (eventRing (step s input)).Holds (made ++ eventsMade s input)
    rw [step_ring]
    exact Ring.contents_pushAll holds (eventsMade s input)
  · have loaded := loadConfigs_ring (.zero directory)
    obtain ⟨configs, count, bounded, frame⟩ := loadConfigs_frame (.zero directory)
    have fits : (loadConfigs (.zero directory)).configCount ≤ MAX_CONFIGS := by
      rw [frame]
      exact bounded
    show (eventRing (rebuildWatches env (loadConfigs (.zero directory)))).Holds []
    rw [rebuildWatches_ring env fits, loaded]
    exact holds_start directory

end SysDetector.Fs
