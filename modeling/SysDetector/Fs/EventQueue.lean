import SysDetector.Fs.Descriptors

/-!
# File events that wait for the worker

The kernel queues the events of the watches; the worker reads them after the command it handles, so
a command finds the events that came since the last read. `queued_events_kept_iff` says when none of
them is lost by the rebuild, after which no word has their descriptors.
-/

namespace SysDetector.Fs
open CLib Runs

/-- A queued event, the id and path it was watched for, and whether that config has stayed on, at
that path, over every start and stop of another one since. -/
structure Pending where
  event : InotifyEvent
  target : Int32 × CharBuf MAX_FIELD_LEN
  kept : Bool

structure QueueState where
  worker : FsState
  queue : List Pending
  discarded : List Pending

inductive QueueStep
  | fileEvent (event : InotifyEvent) (target : Int32 × CharBuf MAX_FIELD_LEN)
  | worker (input : FsStep)

def onIn (configs : List FsConfig) (t : Int32 × CharBuf MAX_FIELD_LEN) : Bool :=
  configs.any fun config => config.monitorSwitch && decide (target config = t)

def commandId (message : Bytes) : Option Int32 :=
  match splitCommand (cstr message) with
  | _ :: arg :: _ => some (atoi arg)
  | _ => none

def Pending.after (p : Pending) (s : FsState) (message : Bytes) : Pending :=
  match switchedDirectory s message with
  | some directory =>
      let staysOn := onIn (tableConfigs s) p.target && onIn (directoryConfigs directory) p.target
      { p with kept := p.kept && decide (commandId message ≠ some p.target.1) && staysOn }
  | none => p

def isDiscarded (s : FsState) (p : Pending) : Bool := (eventConfig s p.event.wd).isNone

/-- The words and the table do not change during a pass of `monitor_once`, so that which events it
discards can be told from the state before. -/
def stepQueue (q : QueueState) : QueueStep → QueueState
  | .fileEvent event t => { q with queue := q.queue ++ [⟨event, t, true⟩] }
  | .worker input =>
      let worker := step q.worker input
      match input with
      | .message _ message =>
          { q with worker := worker, queue := q.queue.map (·.after q.worker message) }
      | .monitor env =>
          { worker := worker
            queue := q.queue.drop env.reads.flatten.length
            discarded := q.discarded ++
              (q.queue.take env.reads.flatten.length).filter (isDiscarded q.worker) }
      | .edit _ => { q with worker := worker }

def startQueue (env : WatchEnv) (directory : Directory) : QueueState :=
  ⟨.initial env directory, [], []⟩

/-- The kernel queues events of the present watches, a read returns them in order until there are
none or it fails, and a new watch gets a descriptor that no queued event has. -/
def Legal (q : QueueState) : QueueStep → Prop
  | .fileEvent event t => (event.wd, t) ∈ acceptedWatches q.worker
  | .worker (.message env message) => ∀ directory,
      switchedDirectory q.worker message = some directory →
        ∀ config ∈ directoryConfigs directory, config.monitorSwitch = true →
          ∀ p ∈ q.queue, env.watches.addWatch config.path ≠ p.event.wd
  | .worker (.monitor env) => env.reads.flatten <+: q.queue.map Pending.event ∧
      (env.readFails = false → env.reads.flatten = q.queue.map Pending.event)
  | .worker (.edit _) => True

def QueueFits (q : QueueState) : QueueStep → Prop
  | .fileEvent _ _ => True
  | .worker input => FitGuard q.worker input

/-- No event of a config that stays on is discarded, or would be if the queue were read now. -/
structure EventsKept (q : QueueState) : Prop where
  read : ∀ p ∈ q.discarded, p.kept = false
  queued : ∀ p ∈ q.queue, p.kept = true → eventConfig q.worker p.event.wd ≠ none

def NonePending (q : QueueState) : QueueStep → Prop
  | .worker (.message env message) => (switchedDirectory q.worker message).isSome = true →
      opens env.watches q.worker = true →
        ∀ p ∈ q.queue, (p.after q.worker message).kept = false
  | _ => True

/-! ## Descriptors -/

def WdsDecode (s : FsState) : Prop := s.watchConfig.map watchWd = (acceptedWatches s).map Prod.fst

theorem eventConfig_ne_none {s : FsState} {wd : Int32} :
    eventConfig s wd ≠ none ↔ wd ∈ s.watchConfig.map watchWd := by
  simp [eventConfig, List.find?_eq_none]

theorem SameWatches.eventConfig {s s' : FsState} (same : SameWatches s s') (wd : Int32) :
    eventConfig s' wd ≠ none ↔ eventConfig s wd ≠ none := by
  rw [eventConfig_ne_none, eventConfig_ne_none, same.watchConfig]

theorem WdsDecode.of_same {s s' : FsState} (decode : WdsDecode s) (same : SameWatches s s') :
    WdsDecode s' := by
  unfold WdsDecode
  rw [same.watchConfig, same.acceptedWatches]
  exact decode

theorem rebuild_wdsDecode {env : WatchEnv} {s : FsState} (opened : opens env s = true)
    (fits : s.configCount ≤ MAX_CONFIGS) (fit : DescriptorsFit env (tableConfigs s)) :
    WdsDecode (rebuildWatches env s) := by
  have entries := congrArg (List.map Prod.fst) ((rebuild_entries_iff opened fits).mpr fit)
  rw [List.map_map] at entries
  exact entries

theorem rebuild_eventConfig {env : WatchEnv} {s : FsState} (opened : opens env s = true)
    (fits : s.configCount ≤ MAX_CONFIGS) (fit : DescriptorsFit env (tableConfigs s)) {wd : Int32}
    (fresh : ∀ config ∈ tableConfigs s, config.monitorSwitch = true →
      env.addWatch config.path ≠ wd) : eventConfig (rebuildWatches env s) wd = none := by
  by_contra found
  rw [← ne_eq, eventConfig_ne_none, rebuild_wdsDecode opened fits fit,
    acceptedWatches_rebuild opened fits, List.map_map] at found
  obtain ⟨i, watched, rfl⟩ := List.mem_map.mp found
  obtain ⟨inside, on, -⟩ := mem_watchedPositions.mp watched
  exact fresh (s.configs i) (mem_tableConfigs.mpr ⟨i, inside, rfl⟩) on rfl

/-! ## Runs -/

theorem Pending.after_event (p : Pending) (s : FsState) (message : Bytes) :
    (p.after s message).event = p.event := by
  unfold Pending.after
  cases switchedDirectory s message <;> rfl

theorem Pending.after_kept {p : Pending} {s : FsState} {message : Bytes}
    (kept : (p.after s message).kept = true) : p.kept = true := by
  unfold Pending.after at kept
  cases switched : switchedDirectory s message with
  | none => simpa only [switched] using kept
  | some directory =>
      simp only [switched, Bool.and_eq_true] at kept
      exact kept.1.1

theorem eventsKept_of_same {q : QueueState} {worker : FsState} (same : SameWatches q.worker worker)
    (kept : EventsKept q) : EventsKept { q with worker := worker } where
  read := kept.read
  queued := fun p waiting alive =>
    (same.eventConfig p.event.wd).mpr (kept.queued p waiting alive)

theorem monitor_eventsKept {env : ReadEnv} {q : QueueState} (kept : EventsKept q) :
    EventsKept (stepQueue q (.worker (.monitor env))) where
  read := by
    intro p member
    rcases List.mem_append.mp member with earlier | now
    · exact kept.read p earlier
    · obtain ⟨taken, unmatched⟩ := List.mem_filter.mp now
      by_contra alive
      have found := kept.queued p (List.mem_of_mem_take taken) (by simpa using alive)
      exact found (by simpa [isDiscarded] using unmatched)
  queued := by
    intro p waiting alive
    have same := (monitorOnce_records env q.worker).sameTable.toSameWatches
    exact (same.eventConfig p.event.wd).mpr (kept.queued p (List.mem_of_mem_drop waiting) alive)

theorem message_eventsKept {env : CommandEnv} {message : Bytes} {q : QueueState}
    (same : SameWatches q.worker (handleMessage env message q.worker)) (kept : EventsKept q) :
    EventsKept (stepQueue q (.worker (.message env message))) where
  read := kept.read
  queued := by
    intro p waiting alive
    obtain ⟨old, before, rfl⟩ := List.mem_map.mp waiting
    rw [Pending.after_event]
    exact (same.eventConfig old.event.wd).mpr (kept.queued old before (Pending.after_kept alive))

theorem rebuilt_queue_gone {env : CommandEnv} {message : Bytes} {q : QueueState} {table s' : FsState}
    (legal : Legal q (.worker (.message env message)))
    (written : switchedDirectory q.worker message = some table.directory)
    (described : tableConfigs table = directoryConfigs table.directory)
    (opened : opens env.watches table = true) (fits : table.configCount ≤ MAX_CONFIGS)
    (fit : DescriptorsFit env.watches (tableConfigs table))
    (after : SameWatches (rebuildWatches env.watches table) s') :
    ∀ p ∈ q.queue, eventConfig s' p.event.wd = none := by
  intro p waiting
  have fresh : ∀ config ∈ tableConfigs table, config.monitorSwitch = true →
      env.watches.addWatch config.path ≠ p.event.wd := by
    rw [described]
    exact fun config member on => legal table.directory written config member on p waiting
  have unmatched := rebuild_eventConfig opened fits fit fresh
  by_contra found
  exact (after.eventConfig p.event.wd).mp found unmatched

theorem eventsKept_iff_of_gone {env : CommandEnv} {message : Bytes} {q : QueueState}
    (kept : EventsKept q) (isSwitched : (switchedDirectory q.worker message).isSome = true)
    (isOpen : opens env.watches q.worker = true)
    (gone : ∀ p ∈ q.queue, eventConfig (handleMessage env message q.worker) p.event.wd = none) :
    EventsKept (stepQueue q (.worker (.message env message))) ↔
      NonePending q (.worker (.message env message)) := by
  constructor
  · intro eventsKept _ _ p waiting
    by_contra alive
    have found := eventsKept.queued _ (List.mem_map_of_mem waiting) (by simpa using alive)
    rw [Pending.after_event] at found
    exact found (gone p waiting)
  · intro nonePending
    refine ⟨kept.read, ?_⟩
    intro p waiting alive
    obtain ⟨old, before, rfl⟩ := List.mem_map.mp waiting
    rw [nonePending isSwitched isOpen old before] at alive
    cases alive

theorem message_eventsKept_iff {env : CommandEnv} {message : Bytes} {q : QueueState}
    (legal : Legal q (.worker (.message env message)))
    (fit : FitGuard q.worker (.message env message)) (decode : WdsDecode q.worker)
    (kept : EventsKept q) : WdsDecode (handleMessage env message q.worker) ∧
      (EventsKept (stepQueue q (.worker (.message env message))) ↔
        NonePending q (.worker (.message env message))) := by
  cases handleMessage_acts env message q.worker with
  | keeps _ unwritten _ table =>
      have same := MessageActs.unbuilt_same table
      refine ⟨decode.of_same same, iff_of_true (message_eventsKept same kept) ?_⟩
      intro isSwitched
      rw [unwritten] at isSwitched
      cases isSwitched
  | rebuilds table _ written _ described fits loaded rebuilt =>
      have after := rebuilt.toSameWatches
      cases isOpen : opens env.watches q.worker with
      | false =>
          have closed := closed_sameWatches ((loaded.opens env.watches).trans isOpen)
          have same := (loaded.trans closed).trans after
          refine ⟨decode.of_same same, iff_of_true (message_eventsKept same kept) ?_⟩
          intro _ opensNow
          rw [isOpen] at opensNow
          cases opensNow
      | true =>
          have opened := (loaded.opens env.watches).trans isOpen
          have tableFit : DescriptorsFit env.watches (tableConfigs table) := by
            rw [described]
            exact fit table.directory written isOpen
          have isSwitched : (switchedDirectory q.worker message).isSome = true := by
            rw [written, Option.isSome_some]
          have gone := rebuilt_queue_gone legal written described opened fits tableFit after
          exact ⟨(rebuild_wdsDecode opened fits tableFit).of_same after,
            eventsKept_iff_of_gone kept isSwitched isOpen gone⟩

theorem fileEvent_eventsKept {event : InotifyEvent} {t : Int32 × CharBuf MAX_FIELD_LEN}
    {q : QueueState} (legal : Legal q (.fileEvent event t)) (decode : WdsDecode q.worker)
    (kept : EventsKept q) : EventsKept (stepQueue q (.fileEvent event t)) where
  read := kept.read
  queued := by
    intro p waiting alive
    rcases List.mem_append.mp waiting with earlier | now
    · exact kept.queued p earlier alive
    · obtain rfl := List.mem_singleton.mp now
      rw [eventConfig_ne_none]
      show event.wd ∈ q.worker.watchConfig.map watchWd
      rw [decode]
      exact List.mem_map_of_mem (f := Prod.fst) legal

theorem stepQueue_kept_iff {q : QueueState} {input : QueueStep} (legal : Legal q input)
    (fit : QueueFits q input) (decode : WdsDecode q.worker) (kept : EventsKept q) :
    WdsDecode (stepQueue q input).worker ∧
      (EventsKept (stepQueue q input) ↔ NonePending q input) := by
  cases input with
  | fileEvent event t => exact ⟨decode, iff_of_true (fileEvent_eventsKept legal decode kept) trivial⟩
  | worker input =>
      cases input with
      | message env message => exact message_eventsKept_iff legal fit decode kept
      | monitor env =>
          have same := (monitorOnce_records env q.worker).sameTable.toSameWatches
          exact ⟨decode.of_same same, iff_of_true (monitor_eventsKept kept) trivial⟩
      | edit directory =>
          have same : SameWatches q.worker { q.worker with directory := directory } :=
            ⟨rfl, rfl, rfl⟩
          exact ⟨decode.of_same same, iff_of_true (eventsKept_of_same same kept) trivial⟩

theorem initial_wdsDecode (env : WatchEnv) (directory : Directory)
    (fit : env.inotifyInit = true → DescriptorsFit env (directoryConfigs directory)) :
    WdsDecode (.initial env directory) := by
  obtain ⟨fits, sound, opened, logged⟩ := initial_loaded env directory
  refine WdsDecode.of_same ?_ logged.toSameWatches
  cases init : env.inotifyInit with
  | true =>
      apply rebuild_wdsDecode (opened.trans init) fits
      rw [tableConfigs_loadConfigs]
      exact fit init
  | false =>
      have empty : WdsDecode (.zero directory) := rfl
      have loaded := loadConfigs_sameWatches (.zero directory)
      exact empty.of_same (loaded.trans (closed_sameWatches (opened.trans init)))

def pairDirectory : Directory :=
  some [confFile "a.conf" 11 "MONITOR_SWITCH=on\nNAME=a\nPATH=/srv/a\n",
    confFile "b.conf" 12 "MONITOR_SWITCH=off\nNAME=b\nPATH=/srv/b\n"]

def createdEvent : InotifyEvent := ⟨1, IN_CREATE, some (lit "x")⟩

def restartWatches : WatchEnv :=
  ⟨true, fun path => if path = snprintf MAX_FIELD_LEN (lit "/srv/a") then 2 else 3⟩

def waitingSteps : List QueueStep :=
  [.fileEvent createdEvent (11, snprintf MAX_FIELD_LEN (lit "/srv/a")),
    .worker (.message ⟨restartWatches, true⟩ (lit "start 12")),
    .worker (.monitor ⟨0, [[createdEvent]], false⟩)]

theorem waitingSteps_legal :
    Guarded stepQueue Legal (startQueue ⟨true, fun _ => 1⟩ pairDirectory) waitingSteps := by
  simp only [waitingSteps, guarded_cons, guarded_nil, and_true]
  refine ⟨?_, ?_, ?_⟩
  · show (createdEvent.wd, _) ∈ acceptedWatches _
    decide
  · intro directory _ config _ _ p waiting
    obtain rfl := List.mem_singleton.mp waiting
    show restartWatches.addWatch config.path ≠ 1
    unfold restartWatches
    dsimp only
    split <;> decide
  · show [createdEvent] <+: _ ∧ (_ → [createdEvent] = _)
    decide

theorem waitingSteps_fit :
    Guarded stepQueue QueueFits (startQueue ⟨true, fun _ => 1⟩ pairDirectory) waitingSteps := by
  simp only [waitingSteps, guarded_cons, guarded_nil, and_true]
  refine ⟨trivial, ?_, trivial⟩
  intro directory _ _ config _ _
  show restartWatches.addWatch config.path < 2 ^ 15
  unfold restartWatches
  dsimp only
  split <;> decide

end SysDetector.Fs
