import SysDetector.Library.Draining
import SysDetector.Fs.EventQueue

namespace SysDetector.Fs
open CLib Draining

/-- An event as it waits in the queue: a file name has at most 255 bytes. -/
abbrev KernelEvent := { ev : InotifyEvent // ∀ name ∈ ev.name, name.length ≤ 255 }

def EVENT_BUF_LEN : Nat := 32 * (16 + MAX_FIELD_LEN)

def eventSize (ev : InotifyEvent) : Nat :=
  16 + match ev.name with
    | some name => (name.length + 16) / 16 * 16
    | none => 0

def readCount : Nat → List KernelEvent → Nat
  | _, [] => 0
  | room, ev :: rest =>
      if eventSize ev.val ≤ room then readCount (room - eventSize ev.val) rest + 1 else 0

/-- The log of the worker: whether it opens and is missing at first, and which paths lead to its
directory and to the file. -/
structure LogPlace where
  opens : Bool
  missing : Bool
  isDirectory : CharBuf MAX_FIELD_LEN → Bool
  isFile : CharBuf MAX_FIELD_LEN → Bool

def watchAt (leads : CharBuf MAX_FIELD_LEN → Bool) (s : FsState) : Option Int32 :=
  ((acceptedWatches s).find? fun watch => leads watch.2.2).map Prod.fst

def LogPlace.directoryWatch (place : LogPlace) (s : FsState) : Option Int32 :=
  watchAt place.isDirectory s

def LogPlace.fileWatch (place : LogPlace) (s : FsState) : Option Int32 :=
  if place.missing then none else watchAt place.isFile s

def inDirectory (mask : UInt32) (wd : Int32) : KernelEvent :=
  ⟨⟨wd, mask, some (lit "fs.log")⟩, fun name isName => by
    rw [← Option.some.inj isName]
    decide⟩

def onFile (mask : UInt32) (wd : Int32) : KernelEvent :=
  ⟨⟨wd, mask, none⟩, fun name isName => by cases isName⟩

def logEvents (place : LogPlace) (s : FsState) (missing : Bool) : List KernelEvent :=
  let directory := (place.directoryWatch s).toList
  let file := (place.fileWatch s).toList
  if place.opens then
    (if missing then directory.map (inDirectory IN_CREATE) else []) ++
      directory.map (inDirectory IN_MODIFY) ++ file.map (onFile IN_MODIFY) ++
      directory.map (inDirectory IN_CLOSE_WRITE) ++ file.map (onFile IN_CLOSE_WRITE)
  else []

abbrev Monitor := FsState × Bool

def handleQueued (now : Time) (place : LogPlace) (m : Monitor) (ev : KernelEvent) :
    Monitor × List KernelEvent :=
  match eventConfig m.1 ev.val.wd with
  | some config =>
      ((recordEvent now config (maskToOp ev.val.mask) (eventPath config ev.val.name) m.1,
        m.2 && !place.opens), logEvents place m.1 m.2)
  | none => (m, [])

def readAll (queue : List KernelEvent) : Nat := readCount EVENT_BUF_LEN queue

def Ends (now : Time) (place : LogPlace) (s : FsState) (queue : List KernelEvent) : Prop :=
  s.inotifyOpen = true → Drains readAll (handleQueued now place) ((s, place.missing), queue)

def Matched (s : FsState) (wd : Int32) : Prop := eventConfig s wd ≠ none

instance (s : FsState) (wd : Int32) : Decidable (Matched s wd) := inferInstanceAs (Decidable (_ ≠ _))

/-- The log can be written, and an event of its directory or its file has a watch. -/
def FeedsBack (place : LogPlace) (s : FsState) : Prop :=
  place.opens = true ∧ ∃ wd, (place.directoryWatch s = some wd ∨ place.fileWatch s = some wd) ∧
    Matched s wd

/-! ## Reading -/

theorem eventSize_le (ev : KernelEvent) : eventSize ev.val ≤ EVENT_BUF_LEN := by
  have large : 16 + 256 ≤ EVENT_BUF_LEN := by decide
  unfold eventSize
  cases named : ev.val.name with
  | none => exact Nat.le_trans (by decide) large
  | some name =>
      have short := ev.property name named
      dsimp only
      omega

theorem readAll_pos {queue : List KernelEvent} (some : queue ≠ []) : 0 < readAll queue := by
  obtain ⟨ev, rest, rfl⟩ := List.exists_cons_of_ne_nil some
  rw [readAll, readCount, if_pos (eventSize_le ev)]
  exact Nat.succ_pos _

/-! ## What the events of the log do -/

section
variable {now : Time} {place : LogPlace} {s : FsState}

theorem handleQueued_worker (m : Monitor) (ev : KernelEvent) :
    (handleQueued now place m ev).1.1 = handleInotifyEvent now m.1 ev.val := by
  unfold handleQueued handleInotifyEvent
  cases eventConfig m.1 ev.val.wd <;> rfl

def readEvents (now : Time) (place : LogPlace) : Nat → Monitor × List KernelEvent →
    List (List InotifyEvent)
  | 0, _ => []
  | n + 1, d => (d.2.take (readAll d.2)).map Subtype.val ::
      readEvents now place n (pass readAll (handleQueued now place) d)

theorem pass_worker (d : Monitor × List KernelEvent) :
    (pass readAll (handleQueued now place) d).1.1 =
      ((d.2.take (readAll d.2)).map Subtype.val).foldl (handleInotifyEvent now) d.1.1 := by
  have each : ∀ (items : List KernelEvent) (e : Monitor × List KernelEvent),
      (items.foldl (handleItem (handleQueued now place)) e).1.1 =
        (items.map Subtype.val).foldl (handleInotifyEvent now) e.1.1 := by
    intro items
    induction items with
    | nil => exact fun _ => rfl
    | cons ev items ih =>
        intro e
        rw [List.foldl_cons, ih, List.map_cons, List.foldl_cons, ← handleQueued_worker e.1 ev]
        rfl
  exact each _ _

theorem drained_monitorOnce (queue : List KernelEvent) (isOpen : s.inotifyOpen = true) (n : Nat) :
    ((pass readAll (handleQueued now place))^[n] ((s, place.missing), queue)).1.1 =
      monitorOnce ⟨now, readEvents now place n ((s, place.missing), queue), false⟩ s := by
  have drained : ∀ d : Monitor × List KernelEvent,
      ((pass readAll (handleQueued now place))^[n] d).1.1 =
        (readEvents now place n d).foldl (fun s events => events.foldl (handleInotifyEvent now) s)
          d.1.1 := by
    induction n with
    | zero => exact fun _ => rfl
    | succ n ih =>
        intro d
        rw [Function.iterate_succ_apply, ih, readEvents, List.foldl_cons, pass_worker]
  rw [drained, monitorOnce, if_pos isOpen]
  rfl

theorem handleQueued_keeps (m : Monitor) (ev : KernelEvent) (same : SameWatches s m.1) :
    SameWatches s (handleQueued now place m ev).1.1 := by
  rw [handleQueued_worker]
  exact same.trans (handleInotifyEvent_records now m.1 ev.val).sameTable.toSameWatches

theorem logEvents_same {s' : FsState} (same : SameWatches s s') (missing : Bool) :
    logEvents place s' missing = logEvents place s missing := by
  unfold logEvents LogPlace.directoryWatch LogPlace.fileWatch watchAt
  rw [same.acceptedWatches]

theorem handleQueued_light (m : Monitor) (ev : KernelEvent) (same : SameWatches s m.1)
    (unmatched : ¬ Matched s ev.val.wd) : (handleQueued now place m ev).2 = [] := by
  have none : eventConfig m.1 ev.val.wd = none := by
    by_contra found
    exact unmatched ((same.eventConfig ev.val.wd).mp found)
  rw [handleQueued, none]

theorem handleQueued_matched (m : Monitor) (ev : KernelEvent) (same : SameWatches s m.1)
    (matched : Matched s ev.val.wd) :
    (handleQueued now place m ev).2 = logEvents place s m.2 := by
  obtain ⟨config, found⟩ := Option.ne_none_iff_exists'.mp ((same.eventConfig ev.val.wd).mpr matched)
  rw [handleQueued, found, ← logEvents_same same]

theorem mem_logEvents_wd {missing : Bool} {ev : KernelEvent}
    (member : ev ∈ logEvents place s missing) :
    place.opens = true ∧
      (place.directoryWatch s = some ev.val.wd ∨ place.fileWatch s = some ev.val.wd) := by
  unfold logEvents at member
  dsimp only at member
  split_ifs at member with opens create
  all_goals
    simp only [List.mem_append, List.mem_map, Option.mem_toList, List.not_mem_nil, false_or] at member
  · refine ⟨opens, ?_⟩
    rcases member with (((h | h) | h) | h) | h <;> obtain ⟨wd, watch, rfl⟩ := h
    · exact .inl watch
    · exact .inl watch
    · exact .inr watch
    · exact .inl watch
    · exact .inr watch
  · refine ⟨opens, ?_⟩
    rcases member with ((h | h) | h) | h <;> obtain ⟨wd, watch, rfl⟩ := h
    · exact .inl watch
    · exact .inr watch
    · exact .inl watch
    · exact .inr watch

theorem logEvents_feeds (feeds : FeedsBack place s) (missing : Bool) :
    ∃ ev ∈ logEvents place s missing, Matched s ev.val.wd := by
  obtain ⟨opens, wd, watch, matched⟩ := feeds
  unfold logEvents
  rw [if_pos opens]
  rcases watch with directory | file
  · refine ⟨inDirectory IN_MODIFY wd, ?_, matched⟩
    simp [directory]
  · refine ⟨onFile IN_MODIFY wd, ?_, matched⟩
    simp [file]

theorem logEvents_dies (starves : ¬ FeedsBack place s) {missing : Bool} {ev : KernelEvent}
    (member : ev ∈ logEvents place s missing) : ¬ Matched s ev.val.wd := by
  intro matched
  obtain ⟨opens, watch⟩ := mem_logEvents_wd member
  exact starves ⟨opens, ev.val.wd, watch, matched⟩

/-! ## The end of a pass -/

theorem ends_of_starves (queue : List KernelEvent) (starves : ¬ FeedsBack place s) :
    Ends now place s queue := by
  intro _
  apply drains (fun ev => decide (Matched s ev.val.wd)) (fun m => SameWatches s m.1)
    (fun _ => readAll_pos) handleQueued_keeps
  · intro m ev same light
    exact handleQueued_light m ev same (by simpa using light)
  · intro m ev same posted member
    rw [decide_eq_false_iff_not]
    by_cases matched : Matched s ev.val.wd
    · rw [handleQueued_matched m ev same matched] at member
      exact logEvents_dies starves member
    · rw [handleQueued_light m ev same matched] at member
      cases member
  · exact ⟨rfl, rfl, rfl⟩

theorem ends_of_unmatched {queue : List KernelEvent}
    (unmatched : ∀ ev ∈ queue, ¬ Matched s ev.val.wd) : Ends now place s queue := by
  intro _
  apply drains_light (fun ev => decide (Matched s ev.val.wd)) (fun m => SameWatches s m.1)
    (fun _ => readAll_pos) handleQueued_keeps
  · intro m ev same light
    exact handleQueued_light m ev same (by simpa using light)
  · exact ⟨rfl, rfl, rfl⟩
  · intro ev member
    simpa using unmatched ev member

theorem not_drains_of_feeds {queue : List KernelEvent} (feeds : FeedsBack place s)
    (matched : ∃ ev ∈ queue, Matched s ev.val.wd) :
    ¬ Drains readAll (handleQueued now place) ((s, place.missing), queue) := by
  apply never_drains (fun ev => decide (Matched s ev.val.wd)) (fun m => SameWatches s m.1)
    handleQueued_keeps
  · intro m ev same heavy
    rw [handleQueued_matched m ev same (by simpa using heavy)]
    obtain ⟨posted, member, again⟩ := logEvents_feeds feeds m.2
    exact ⟨posted, member, by simpa using again⟩
  · exact ⟨rfl, rfl, rfl⟩
  · obtain ⟨ev, member, isMatched⟩ := matched
    exact ⟨ev, member, by simpa using isMatched⟩

end

/-- A pass of `monitor_once` ends exactly when, if a queued event has a watch, no event of the log
has one or the log cannot be written. -/
theorem drains_iff (now : Time) (place : LogPlace) (s : FsState) (queue : List KernelEvent) :
    Ends now place s queue ↔
      (s.inotifyOpen = true → (∃ ev ∈ queue, Matched s ev.val.wd) → ¬ FeedsBack place s) := by
  constructor
  · intro ends isOpen matched feeds
    exact not_drains_of_feeds feeds matched (ends isOpen)
  · intro starves isOpen
    by_cases matched : ∃ ev ∈ queue, Matched s ev.val.wd
    · exact ends_of_starves queue (starves isOpen matched) isOpen
    · push Not at matched
      exact ends_of_unmatched matched isOpen

def logWatcher : FsConfig :=
  { FsConfig.zero with
    id := 7
    monitorSwitch := true
    name := snprintf MAX_FIELD_LEN (lit "log")
    path := snprintf MAX_FIELD_LEN (lit "/var/log/sysDetector") }

def watchingLog : FsState :=
  rebuildWatches ⟨true, fun _ => 1⟩
    { FsState.zero none with configs := fun _ => logWatcher, configCount := 1 }

theorem log_watch_never_ends :
    ¬ ∀ (now : Time) (place : LogPlace) (s : FsState) (queue : List KernelEvent),
      Ends now place s queue := by
  intro ends
  let place : LogPlace :=
    ⟨true, false, fun path => path.text = lit "/var/log/sysDetector", fun _ => false⟩
  have feeds : FeedsBack place watchingLog := ⟨rfl, 1, .inl (by decide), by decide⟩
  have matched : ∃ ev ∈ [inDirectory IN_MODIFY 1], Matched watchingLog ev.val.wd :=
    ⟨_, List.mem_singleton_self _, by decide⟩
  exact not_drains_of_feeds feeds matched (ends 0 place watchingLog _ rfl)

end SysDetector.Fs
