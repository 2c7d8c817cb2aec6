import SysDetector.Library.Records
import SysDetector.Library.Wire
import SysDetector.Fs.Draining
import SysDetector.Fs.EventHistory

namespace SysDetector.Fs
open CLib Runs Records

/-! ## `struct inotify_event` -/

/-- An event as the kernel puts it into the buffer. The name field is of any length and has a
terminator somewhere, unless it is empty. -/
structure EventRecord where
  wd : Int32
  mask : UInt32
  cookie : UInt32
  field : Bytes
  short : field.length < 2 ^ 32
  terminated : field ≠ [] → 0 ∈ field

def EventRecord.encode (r : EventRecord) : Bytes :=
  leBytes 4 r.wd.toUInt32.toNat ++ (leBytes 4 r.mask.toNat ++ (leBytes 4 r.cookie.toNat ++
    (leBytes 4 r.field.length ++ r.field)))

def EventRecord.event (r : EventRecord) : InotifyEvent where
  wd := r.wd
  mask := r.mask
  name := if r.field = [] then none else some (cstr r.field)

def wordAt (ptr : Bytes) (offset : Nat) : UInt32 :=
  UInt32.ofNat (leNat ((ptr.drop offset).take 4))

def HEADER_LEN : Nat := 16

def evWd (ev : Bytes) : Int32 := (wordAt ev 0).toInt32
def evMask (ev : Bytes) : UInt32 := wordAt ev 4
def evLen (ev : Bytes) : UInt32 := wordAt ev 12
def evName (ev : Bytes) : Bytes := cstr (ev.drop HEADER_LEN)

def readEvent (ev : Bytes) : InotifyEvent where
  wd := evWd ev
  mask := evMask ev
  name := if evLen ev = 0 then none else some (evName ev)

theorem wordAt_append (front : Bytes) {offset : Nat} (place : front.length = offset) (word : UInt32)
    (rest : Bytes) : wordAt (front ++ (leBytes 4 word.toNat ++ rest)) offset = word := by
  rw [wordAt, List.drop_left' place, List.take_left' (length_leBytes 4 _),
    leNat_leBytes_of_lt word.toNat_lt, UInt32.ofNat_toNat]

section
variable (r : EventRecord) (rest : Bytes)

theorem encode_split : ∃ front, front.length = 12 ∧
    r.encode ++ rest = front ++ (leBytes 4 (UInt32.ofNat r.field.length).toNat ++
      (r.field ++ rest)) := by
  refine ⟨leBytes 4 r.wd.toUInt32.toNat ++ (leBytes 4 r.mask.toNat ++ leBytes 4 r.cookie.toNat),
    by simp only [List.length_append, length_leBytes], ?_⟩
  rw [UInt32.toNat_ofNat_of_lt' r.short]
  simp only [EventRecord.encode, List.append_assoc]

theorem length_encode : r.encode.length = HEADER_LEN + r.field.length := by
  simp only [EventRecord.encode, List.length_append, length_leBytes, HEADER_LEN]
  omega

theorem evWd_encode : evWd (r.encode ++ rest) = r.wd := by
  rw [evWd, EventRecord.encode, List.append_assoc]
  exact congrArg UInt32.toInt32 (wordAt_append [] rfl r.wd.toUInt32 _)

theorem evMask_encode : evMask (r.encode ++ rest) = r.mask := by
  rw [evMask, EventRecord.encode, List.append_assoc, List.append_assoc]
  exact wordAt_append _ (length_leBytes 4 _) r.mask _

theorem evLen_encode : (evLen (r.encode ++ rest)).toNat = r.field.length := by
  obtain ⟨front, place, split⟩ := encode_split r rest
  rw [evLen, split, wordAt_append front place]
  exact UInt32.toNat_ofNat_of_lt' r.short

theorem evName_encode (named : r.field ≠ []) : evName (r.encode ++ rest) = cstr r.field := by
  obtain ⟨front, place, split⟩ := encode_split r rest
  rw [evName, split, ← List.append_assoc, List.drop_left', cstr_append_of_mem (r.terminated named)]
  rw [List.length_append, place, length_leBytes]
  rfl

theorem evNamed_encode :
    (if evLen (r.encode ++ rest) = 0 then none else some (evName (r.encode ++ rest))) =
      r.event.name := by
  have length := evLen_encode r rest
  unfold EventRecord.event
  by_cases unnamed : r.field = []
  · have none : evLen (r.encode ++ rest) = 0 := by
      rw [← UInt32.toNat_inj, length, unnamed]
      rfl
    rw [if_pos none, if_pos unnamed]
  · have some : evLen (r.encode ++ rest) ≠ 0 := by
      rw [ne_eq, ← UInt32.toNat_inj, length]
      exact mt List.length_eq_zero_iff.mp unnamed
    rw [if_neg some, if_neg unnamed, evName_encode r rest unnamed]

theorem readEvent_encode : readEvent (r.encode ++ rest) = r.event := by
  rw [readEvent, evWd_encode, evMask_encode, evNamed_encode]
  rfl

end

def inotifyFormat : Format EventRecord InotifyEvent where
  encode := EventRecord.encode
  value := EventRecord.event
  size ev := HEADER_LEN + (evLen ev).toNat
  decode := readEvent
  size_pos ev := Nat.lt_of_lt_of_le (by decide) (Nat.le_add_right HEADER_LEN _)
  size_encode r rest := by rw [evLen_encode, length_encode]
  decode_encode := readEvent_encode

/-! ## Reads of the kernel -/

def nameField : Option Bytes → Bytes
  | none => []
  | some name => name ++ List.replicate ((name.length + 16) / 16 * 16 - name.length) 0

theorem length_nameField (name : Option Bytes) : (nameField name).length =
    match name with
    | some name => (name.length + 16) / 16 * 16
    | none => 0 := by
  cases name with
  | none => rfl
  | some name =>
      rw [nameField, List.length_append, List.length_replicate]
      dsimp only
      omega

def kernelRecord (ev : KernelEvent) (cookie : UInt32) : EventRecord where
  wd := ev.val.wd
  mask := ev.val.mask
  cookie := cookie
  field := nameField ev.val.name
  short := by
    have short := ev.property
    rw [length_nameField]
    cases named : ev.val.name with
    | none => decide
    | some name =>
        have le : name.length ≤ 255 := short name named
        dsimp only
        omega
  terminated := by
    cases ev.val.name with
    | none => exact fun named => absurd rfl named
    | some name =>
        intro _
        apply List.mem_append_right
        exact List.mem_replicate.mpr ⟨by omega, rfl⟩

theorem length_kernelRecord (ev : KernelEvent) (cookie : UInt32) :
    (kernelRecord ev cookie).encode.length = eventSize ev.val := by
  rw [length_encode, kernelRecord, length_nameField]
  rfl

theorem event_kernelRecord {ev : KernelEvent} (plain : ∀ name ∈ ev.val.name, 0 ∉ name)
    (cookie : UInt32) : (kernelRecord ev cookie).event = ev.val := by
  obtain ⟨⟨wd, mask, name⟩, short⟩ := ev
  cases name with
  | none => rfl
  | some name =>
      have noNul : 0 ∉ name := plain name rfl
      obtain ⟨room, filled⟩ : ∃ room, (name.length + 16) / 16 * 16 - name.length = room + 1 :=
        ⟨(name.length + 16) / 16 * 16 - name.length - 1, by omega⟩
      have field : nameField (some name) = name ++ 0 :: List.replicate room 0 := by
        rw [nameField, filled, List.replicate_succ]
      simp only [kernelRecord, EventRecord.event, field, cstr_append_nul, cstr_of_notMem noNul]
      rw [if_neg (by simp)]

def kernelRead (queue : List KernelEvent) : List EventRecord :=
  (queue.take (readAll queue)).map fun ev => kernelRecord ev 0

theorem length_readCount_le (room : Nat) (queue : List KernelEvent) :
    (inotifyFormat.encodeAll ((queue.take (readCount room queue)).map fun ev =>
      kernelRecord ev 0)).length ≤ room := by
  induction queue generalizing room with
  | nil => exact Nat.zero_le room
  | cons ev queue ih =>
      unfold readCount
      split_ifs with fits
      · have rest := ih (room - eventSize ev.val)
        have first : (inotifyFormat.encode (kernelRecord ev 0)).length = eventSize ev.val :=
          length_kernelRecord ev 0
        rw [List.take_succ_cons, List.map_cons, Format.encodeAll_cons, List.length_append, first]
        omega
      · exact Nat.zero_le room

theorem kernelRead_nonempty {queue : List KernelEvent} (waiting : queue ≠ []) :
    inotifyFormat.encodeAll (kernelRead queue) ≠ [] := by
  obtain ⟨ev, rest, rfl⟩ := List.exists_cons_of_ne_nil waiting
  obtain ⟨count, more⟩ := Nat.exists_eq_add_of_lt (readAll_pos waiting)
  have some := inotifyFormat.encode_pos (kernelRecord ev 0)
  rw [kernelRead, more, Nat.zero_add, List.take_succ_cons, List.map_cons, Format.encodeAll_cons]
  intro none
  rw [(List.append_eq_nil_iff.mp none).1] at some
  exact absurd some (Nat.lt_irrefl 0)

/-! ## Reading -/

structure Walk where
  worker : FsState
  visited : List (Nat × InotifyEvent)

def Walk.visit (now : Time) (w : Walk) (at_ : Nat × InotifyEvent) : Walk where
  worker := handleInotifyEvent now w.worker at_.2
  visited := w.visited ++ [at_]

def walkEvents (now : Time) (buf : Bytes) (len : Nat) (w : Walk) : Nat × Walk :=
  inotifyFormat.walk (Walk.visit now) buf len 0 w

structure RawReads where
  now : Time
  chunks : List Bytes
  nonempty : ∀ chunk ∈ chunks, chunk ≠ []
  fits : ∀ chunk ∈ chunks, chunk.length ≤ EVENT_BUF_LEN
  readFails : Bool

/-- The outer loop. A read leaves alone what stands in the buffer behind the bytes it returns. -/
def readLoop (now : Time) : List Bytes → Bytes → Walk → Walk
  | [], _, w => w
  | chunk :: rest, buf, w =>
      let buf := chunk ++ buf.drop chunk.length
      readLoop now rest buf (walkEvents now buf chunk.length w).2

def monitorOnceRaw (env : RawReads) (buf : Bytes) (s : FsState) : Walk :=
  if s.inotifyOpen then
    let w := readLoop env.now env.chunks buf ⟨s, []⟩
    if env.readFails then { w with worker := w.worker.logLine .readFailed } else w
  else ⟨s, []⟩

/-! ## What is recorded -/

def eventCall (now : Time) (s : FsState) (ev : InotifyEvent) : Option EventCall :=
  (eventConfig s ev.wd).map fun config =>
    { now := now, config := config, op := maskToOp ev.mask, path := eventPath config ev.name }

def recordedPath (config : FsConfig) (r : EventRecord) : Bytes :=
  (config.path.text ++ if r.field = [] then [] else lit "/" ++ cstr r.field).take (MAX_FIELD_LEN - 1)

theorem eventCall_of_records {s s' : FsState} (records : OnlyRecords s s') (now : Time) :
    eventCall now s' = eventCall now s := by
  obtain ⟨_, _, _, _, _, rfl⟩ := records
  rfl

theorem handleInotifyEvent_calls (now : Time) (s : FsState) (ev : InotifyEvent) :
    handleInotifyEvent now s ev = run recordCall s (eventCall now s ev).toList := by
  unfold handleInotifyEvent eventCall
  cases eventConfig s ev.wd <;> rfl

theorem handleEvents_calls (now : Time) (s : FsState) (events : List InotifyEvent) :
    events.foldl (handleInotifyEvent now) s =
      run recordCall s (events.filterMap (eventCall now s)) := by
  induction events generalizing s with
  | nil => rfl
  | cons ev events ih =>
      have same := eventCall_of_records (handleInotifyEvent_records now s ev) now
      have parts : (ev :: events).filterMap (eventCall now s) =
          (eventCall now s ev).toList ++ events.filterMap (eventCall now s) := by
        cases made : eventCall now s ev <;> simp [made]
      rw [List.foldl_cons, ih, same, parts, run_append, ← handleInotifyEvent_calls]

theorem snprintf_twice {s : Bytes} (noNul : 0 ∉ s) :
    (snprintf MAX_FIELD_LEN (snprintf 512 s).text).text = s.take (MAX_FIELD_LEN - 1) := by
  have cut : 0 ∉ s.take 511 := fun member => noNul (List.mem_of_mem_take member)
  show (cstr ((cstr s).take 511)).take 255 = s.take 255
  rw [cstr_of_notMem noNul, cstr_of_notMem cut, List.take_take]
  rfl

theorem eventPath_text (config : FsConfig) (r : EventRecord) :
    (snprintf MAX_FIELD_LEN (eventPath config r.event.name).text).text = recordedPath config r := by
  unfold recordedPath EventRecord.event
  by_cases unnamed : r.field = []
  · rw [if_pos unnamed, if_pos unnamed, List.append_nil]
    exact snprintf_twice config.path.noNul
  · have noNul : 0 ∉ config.path.text ++ (lit "/" ++ cstr r.field) := by
      simp only [List.mem_append, not_or]
      exact ⟨config.path.noNul, by decide, zero_notMem_cstr r.field⟩
    rw [if_neg unnamed, if_neg unnamed, eventPath, List.append_assoc]
    exact snprintf_twice noNul

/-! ## Walking -/

theorem foldl_visit (now : Time) (events : List (Nat × InotifyEvent)) (w : Walk) :
    events.foldl (Walk.visit now) w =
      ⟨(events.map Prod.snd).foldl (handleInotifyEvent now) w.worker, w.visited ++ events⟩ := by
  induction events generalizing w with
  | nil => rw [List.append_nil]; rfl
  | cons ev events ih =>
      rw [List.foldl_cons, ih, Walk.visit, List.append_assoc]
      rfl

theorem walkEvents_encoded (now : Time) (events : List EventRecord) (beyond : Bytes) (w : Walk) :
    walkEvents now (inotifyFormat.encodeAll events ++ beyond)
        (inotifyFormat.encodeAll events).length w =
      ((inotifyFormat.encodeAll events).length,
        ⟨(events.map EventRecord.event).foldl (handleInotifyEvent now) w.worker,
          w.visited ++ inotifyFormat.placed 0 events⟩) := by
  rw [walkEvents, Format.walk_encoded, foldl_visit, Format.placed_values]
  rfl

theorem readLoop_encoded (now : Time) (reads : List (List EventRecord)) (buf : Bytes) (w : Walk) :
    readLoop now (reads.map inotifyFormat.encodeAll) buf w =
      ⟨(reads.flatten.map EventRecord.event).foldl (handleInotifyEvent now) w.worker,
        w.visited ++ reads.flatMap (inotifyFormat.placed 0)⟩ := by
  induction reads generalizing buf w with
  | nil => rw [List.flatMap_nil, List.append_nil]; rfl
  | cons events reads ih =>
      rw [List.map_cons, readLoop, walkEvents_encoded, ih, List.flatten_cons,
        List.map_append, List.foldl_append, List.flatMap_cons, List.append_assoc]

structure Processed (now : Time) (s : FsState) (w : Walk) (records : List EventRecord) : Prop where
  visited : w.visited.map Prod.snd = records.map EventRecord.event
  worker : w.worker =
    run recordCall s ((records.map EventRecord.event).filterMap (eventCall now s))

theorem walkEvents_processed (now : Time) (events : List EventRecord) (beyond : Bytes)
    (s : FsState) :
    Processed now s (walkEvents now (inotifyFormat.encodeAll events ++ beyond)
      (inotifyFormat.encodeAll events).length ⟨s, []⟩).2 events := by
  rw [walkEvents_encoded]
  constructor
  · exact inotifyFormat.placed_values 0 events
  · exact handleEvents_calls now s _

theorem placed_reads (reads : List (List EventRecord)) :
    (reads.flatMap (inotifyFormat.placed 0)).map Prod.snd =
      reads.flatten.map EventRecord.event := by
  have each : ∀ events, (inotifyFormat.placed 0 events).map Prod.snd =
      events.map EventRecord.event := inotifyFormat.placed_values 0
  rw [List.map_flatMap, List.map_flatten, List.flatMap_def]
  simp only [each]

theorem readLoop_processed (now : Time) (reads : List (List EventRecord)) (buf : Bytes)
    (s : FsState) :
    Processed now s (readLoop now (reads.map inotifyFormat.encodeAll) buf ⟨s, []⟩)
      reads.flatten := by
  rw [readLoop_encoded]
  constructor
  · exact placed_reads reads
  · exact handleEvents_calls now s _

theorem monitorOnceRaw_encoded {env : RawReads} {reads : List (List EventRecord)}
    (encoded : env.chunks = reads.map inotifyFormat.encodeAll) (buf : Bytes) (s : FsState) :
    (monitorOnceRaw env buf s).worker =
      monitorOnce ⟨env.now, reads.map (List.map EventRecord.event), env.readFails⟩ s := by
  have drained := readLoop_encoded env.now reads buf ⟨s, []⟩
  rw [List.map_flatten, List.foldl_flatten] at drained
  unfold monitorOnceRaw monitorOnce
  rw [encoded, drained]
  cases s.inotifyOpen with
  | false => rfl
  | true => cases env.readFails <;> rfl

theorem eventCall_path (now : Time) (s : FsState) (r : EventRecord) :
    (eventCall now s r.event).map (fun call => (call.config, call.record.path.text)) =
      (eventConfig s r.wd).map fun config => (config, recordedPath config r) := by
  rw [eventCall, Option.map_map]
  apply Option.map_congr
  intro config _
  exact congrArg (Prod.mk config) (eventPath_text config r)

def oneRead (now : Time) (queue : List KernelEvent) (waiting : queue ≠ []) : RawReads where
  now := now
  chunks := [inotifyFormat.encodeAll (kernelRead queue)]
  nonempty := by
    rw [List.forall_mem_singleton]
    exact kernelRead_nonempty waiting
  fits := by
    rw [List.forall_mem_singleton]
    exact length_readCount_le EVENT_BUF_LEN queue
  readFails := false

theorem kernelRead_events {queue : List KernelEvent}
    (plain : ∀ ev ∈ queue, ∀ name ∈ ev.val.name, 0 ∉ name) :
    (kernelRead queue).map EventRecord.event = (queue.take (readAll queue)).map Subtype.val := by
  rw [kernelRead, List.map_map]
  apply List.map_congr_left
  intro ev member
  exact event_kernelRecord (plain ev (List.mem_of_mem_take member)) 0

theorem oneRead_pass (now : Time) (place : LogPlace) {s : FsState} {queue : List KernelEvent}
    (waiting : queue ≠ []) (plain : ∀ ev ∈ queue, ∀ name ∈ ev.val.name, 0 ∉ name)
    (isOpen : s.inotifyOpen = true) (buf : Bytes) :
    (monitorOnceRaw (oneRead now queue waiting) buf s).worker =
      (Draining.pass readAll (handleQueued now place) ((s, place.missing), queue)).1.1 := by
  have encoded : (oneRead now queue waiting).chunks =
      [kernelRead queue].map inotifyFormat.encodeAll := rfl
  have drained : ((Draining.pass readAll (handleQueued now place))^[1]
      ((s, place.missing), queue)).1.1 =
      monitorOnce ⟨now, readEvents now place 1 ((s, place.missing), queue), false⟩ s :=
    drained_monitorOnce queue isOpen 1
  rw [Function.iterate_one] at drained
  rw [monitorOnceRaw_encoded encoded, drained, List.map_singleton, kernelRead_events plain]
  rfl

/-- Over encoded events the inner loop comes to each of them once, in order, and ends behind the
last. An event with a watch is recorded with the path of its config and the name, cut to the size of
the field. The reads of a pass are handled like their concatenation, and that as `monitorOnce` has
it. -/
theorem events_visited_once (now : Time) (events : List EventRecord) (beyond : Bytes) (s : FsState)
    (env : RawReads) (reads : List (List EventRecord))
    (encoded : env.chunks = reads.map inotifyFormat.encodeAll) (buf : Bytes) :
    (let len := (inotifyFormat.encodeAll events).length
      let walked := walkEvents now (inotifyFormat.encodeAll events ++ beyond) len ⟨s, []⟩
      walked.1 = len ∧ walked.2.visited = inotifyFormat.placed 0 events ∧
        Processed now s walked.2 events) ∧
    (∀ r : EventRecord,
      (eventCall now s r.event).map (fun call => (call.config, call.record.path.text)) =
        (eventConfig s r.wd).map fun config => (config, recordedPath config r)) ∧
    Processed env.now s (readLoop env.now env.chunks buf ⟨s, []⟩) reads.flatten ∧
    (monitorOnceRaw env buf s).worker =
      monitorOnce ⟨env.now, reads.map (List.map EventRecord.event), env.readFails⟩ s := by
  have walked := walkEvents_encoded now events beyond ⟨s, []⟩
  refine ⟨⟨?_, ?_, walkEvents_processed now events beyond s⟩, eventCall_path now s, ?_,
    monitorOnceRaw_encoded encoded buf s⟩
  · exact congrArg Prod.fst walked
  · exact congrArg (fun w => w.2.visited) walked
  · rw [encoded]
    exact readLoop_processed env.now reads buf s

def logQueue : List KernelEvent := [inDirectory IN_CREATE 1, onFile IN_MODIFY 1]

theorem events_visited_once_log :
    let reads := oneRead 0 logQueue (by decide)
    (walkEvents 0 (inotifyFormat.encodeAll (kernelRead logQueue) ++ [7])
        (inotifyFormat.encodeAll (kernelRead logQueue)).length ⟨watchingLog, []⟩).2.visited =
      [(0, ⟨1, IN_CREATE, some (lit "fs.log")⟩), (32, ⟨1, IN_MODIFY, none⟩)] ∧
    Processed 0 watchingLog (readLoop 0 reads.chunks [] ⟨watchingLog, []⟩) (kernelRead logQueue) := by
  obtain ⟨⟨-, visited, -⟩, -, processed, -⟩ := events_visited_once 0 (kernelRead logQueue) [7]
    watchingLog (oneRead 0 logQueue (by decide)) [kernelRead logQueue] rfl []
  rw [List.flatten_singleton] at processed
  exact ⟨visited.trans (by decide), processed⟩

end SysDetector.Fs
