import SysDetector.Library.Windows
import SysDetector.Proc.TrackedTable

namespace SysDetector.Proc
open CLib Runs SlotTable SlotTable.View

/-! ## One exit -/

def counterMap (s : ProcState) : CharBuf TASK_COMM_LEN → Option ShortLivedCounter :=
  counterView.lookup s.shortLivedCounters

def UniqueComms (s : ProcState) : Prop := counterView.UniqueKeys s.shortLivedCounters

def openCounter (s : ProcState) (comm : CharBuf TASK_COMM_LEN) (now : Time) : ShortLivedCounter :=
  (counterMap s comm).getD { comm := comm, windowStart := now, count := 0, active := true }

def countExit (now : Time) (counter : ShortLivedCounter) : ShortLivedCounter :=
  if now - counter.windowStart > SHORT_LIVED_BURST_WINDOW_SECONDS then
    { counter with windowStart := now, count := 1 }
  else { counter with count := counter.count + 1 }

def shortLivedLines (proc : TrackedProcess) (runtime : Int) (counter : ShortLivedCounter) :
    List LogLine :=
  .shortLivedProcess proc.pid proc.comm runtime ::
    if counter.count ≥ SHORT_LIVED_BURST_THRESHOLD then [.shortLivedBurst counter.comm counter.count]
    else []

theorem openCounter_active {s : ProcState} {comm : CharBuf TASK_COMM_LEN} {now : Time} :
    (openCounter s comm now).active = true ∧ (openCounter s comm now).comm = comm := by
  unfold openCounter
  cases found : counterMap s comm with
  | none => exact ⟨rfl, rfl⟩
  | some counter =>
      obtain ⟨-, -, -, active, key⟩ := of_lookup found
      exact ⟨active, key⟩

theorem countExit_active {now : Time} {counter : ShortLivedCounter} :
    (countExit now counter).active = counter.active ∧
      (countExit now counter).comm = counter.comm := by
  unfold countExit
  split_ifs <;> exact ⟨rfl, rfl⟩

theorem shortLivedCounterFor_eq (s : ProcState) (comm : CharBuf TASK_COMM_LEN) (now : Time) :
    shortLivedCounterFor s comm now =
      (counterView.slotFor s.shortLivedCounters comm, openCounter s comm now) := by
  unfold shortLivedCounterFor openCounter counterMap lookup
  cases found : counterView.find s.shortLivedCounters comm with
  | none => rw [slotFor_of_none found]; rfl
  | some i => rw [slotFor_of_find found]; rfl

theorem recordShortLivedProcess_eq (proc : TrackedProcess) (runtime : Int) (now : Time)
    (s : ProcState) : recordShortLivedProcess proc runtime now s =
      { s with
        shortLivedCounters := Function.update s.shortLivedCounters
          (counterView.slotFor s.shortLivedCounters proc.comm)
          (countExit now (openCounter s proc.comm now))
        logFile := s.logFile ++
          shortLivedLines proc runtime (countExit now (openCounter s proc.comm now)) } := by
  unfold recordShortLivedProcess shortLivedLines countExit ProcState.setCounter ProcState.writeLog
  rw [shortLivedCounterFor_eq]
  dsimp only
  split_ifs <;> simp_all

theorem procEventExit_short {now : Time} {e : ProcEvent} {s : ProcState}
    {i : Fin MAX_TRACKED_PROCS} (found : findTrackedProcess s e.pid = some i)
    (short : now - (s.trackedProcs i).firstSeen ≤ SHORT_LIVED_PROC_SECONDS) :
    procEventExit now e s =
      { s with
        trackedProcs := Function.update s.trackedProcs i
          { s.trackedProcs i with lastSeen := now, active := false }
        shortLivedCounters := Function.update s.shortLivedCounters
          (counterView.slotFor s.shortLivedCounters (s.trackedProcs i).comm)
          (countExit now (openCounter s (s.trackedProcs i).comm now))
        logFile := s.logFile ++
          .proc (s.trackedProcs i).pid (s.trackedProcs i).comm (s.trackedProcs i).filename
            (s.trackedProcs i).argv (now - (s.trackedProcs i).firstSeen) ::
          (shortLivedLines (s.trackedProcs i) (now - (s.trackedProcs i).firstSeen)
            (countExit now (openCounter s (s.trackedProcs i).comm now)) ++
          [.exit e.pid e.ppid e.comm e.stackId]) } := by
  simp only [procEventExit, trackProcExit, isTrackedOrEnabledConfiguredProcess, found,
    Option.isSome_some, Bool.true_or, if_true, short, recordShortLivedProcess_eq]
  simp [ProcState.setTracked, ProcState.writeLog, shortLivedLines, openCounter, counterMap]

theorem procEventExit_long {now : Time} {e : ProcEvent} {s : ProcState}
    {i : Fin MAX_TRACKED_PROCS} (found : findTrackedProcess s e.pid = some i)
    (long : ¬ now - (s.trackedProcs i).firstSeen ≤ SHORT_LIVED_PROC_SECONDS) :
    procEventExit now e s =
      { s with
        trackedProcs := Function.update s.trackedProcs i
          { s.trackedProcs i with lastSeen := now, active := false }
        logFile := s.logFile ++
          [.proc (s.trackedProcs i).pid (s.trackedProcs i).comm (s.trackedProcs i).filename
            (s.trackedProcs i).argv (now - (s.trackedProcs i).firstSeen),
          .exit e.pid e.ppid e.comm e.stackId] } := by
  simp only [procEventExit, trackProcExit, isTrackedOrEnabledConfiguredProcess, found,
    Option.isSome_some, Bool.true_or, if_true, long, if_false]
  simp [ProcState.setTracked, ProcState.writeLog]

/-! ## The exits so far -/

/-- A tracked process that exited after at most two seconds, and what was logged then. -/
structure ShortExit where
  pid : UInt32
  comm : CharBuf TASK_COMM_LEN
  time : Time
  lines : List LogLine

def newLines (s : ProcState) (input : ProcStep) : List LogLine :=
  (step s input).logFile.drop s.logFile.length

def shortExits (s : ProcState) : ProcStep → List ShortExit
  | .event now e =>
      if s.ebpfRunning = true ∧ e.type = .exit then
        match trackedMap s e.pid with
        | some proc =>
            if now - proc.firstSeen ≤ SHORT_LIVED_PROC_SECONDS then
              [⟨e.pid, proc.comm, now, newLines s (.event now e)⟩]
            else []
        | none => []
      else []
  | _ => []

theorem shortExits_short {now : Time} {e : ProcEvent} {s : ProcState} {proc : TrackedProcess}
    (running : s.ebpfRunning = true) (type : e.type = .exit)
    (tracked : trackedMap s e.pid = some proc)
    (short : now - proc.firstSeen ≤ SHORT_LIVED_PROC_SECONDS) : shortExits s (.event now e) =
      [⟨e.pid, proc.comm, now, newLines s (.event now e)⟩] := by
  simp [shortExits, running, type, tracked, short]

def stepExits (sh : ProcState × List ShortExit) (input : ProcStep) : ProcState × List ShortExit :=
  (step sh.1 input, sh.2 ++ shortExits sh.1 input)

def eventClock : ProcStep → Option Time
  | .event now _ => some now
  | _ => none

def ClockNondecreasing (steps : List ProcStep) : Prop :=
  (steps.filterMap eventClock).Pairwise (· ≤ ·)

def NoBurst (lines : List LogLine) : Prop :=
  ∀ comm count, LogLine.shortLivedBurst comm count ∉ lines

theorem noBurst_append {front back : List LogLine} (first : NoBurst front) (second : NoBurst back) :
    NoBurst (front ++ back) := by
  intro comm count member
  rcases List.mem_append.mp member with member | member
  · exact first comm count member
  · exact second comm count member

theorem suspiciousLines_noBurst (e : ProcEvent) (argv : Bytes) :
    NoBurst (suspiciousLines e argv) := by
  intro comm count
  unfold suspiciousLines
  simp only [List.mem_append, not_or]
  refine ⟨⟨⟨?_, ?_⟩, ?_⟩, ?_⟩ <;> split_ifs <;> simp

theorem trackedSlotFor_noBurst (s : ProcState) (pid : UInt32) :
    ∃ lines, (trackedSlotFor s pid).2.logFile = s.logFile ++ lines ∧ NoBurst lines := by
  unfold trackedSlotFor allocTrackedProcessSlot ProcState.writeLog
  split
  · exact ⟨[], by simp, by simp [NoBurst]⟩
  · dsimp only
    split
    · exact ⟨[_], rfl, by simp [NoBurst]⟩
    · exact ⟨[], by simp, by simp [NoBurst]⟩

theorem procEventExec_noBurst (now : Time) (e : ProcEvent) (s : ProcState) :
    ∃ lines, (procEventExec now e s).logFile = s.logFile ++ lines ∧ NoBurst lines := by
  cases enabled : isEnabledConfiguredProcess s e with
  | false => exact ⟨[], by simp [procEventExec_disabled enabled], by simp [NoBurst]⟩
  | true =>
      obtain ⟨dropped, slot, noBurst⟩ := trackedSlotFor_noBurst s e.pid
      let argv := joinEventArgv e ARGV_MAX_LEN
      refine ⟨dropped ++ suspiciousLines e argv ++
        [.exec e.pid e.ppid e.comm e.filename argv e.stackId], ?_, ?_⟩
      · simp only [procEventExec, trackProcExec, enabled, if_true, detectSuspiciousExec,
          ProcState.foldl_writeLog]
        simp only [ProcState.writeLog, ProcState.setTracked, slot, List.append_assoc, argv]
      · exact noBurst_append (noBurst_append noBurst (suspiciousLines_noBurst e argv))
          (by simp [NoBurst])

theorem procEventFork_noBurst (now : Time) (e : ProcEvent) (s : ProcState) :
    ∃ lines, (procEventFork now e s).logFile = s.logFile ++ lines ∧ NoBurst lines := by
  cases found : findTrackedProcess s e.ppid with
  | none => exact ⟨[], by simp [procEventFork_untracked found], by simp [NoBurst]⟩
  | some i =>
      obtain ⟨dropped, slot, noBurst⟩ := trackedSlotFor_noBurst s e.pid
      simp only [procEventFork, trackProcFork, found, ProcState.writeLog, ProcState.setTracked,
        slot, List.append_assoc]
      exact ⟨_, rfl, noBurst_append noBurst (by simp [NoBurst])⟩

theorem newLines_of_append {s : ProcState} {input : ProcStep} {lines : List LogLine}
    (log : (step s input).logFile = s.logFile ++ lines) : newLines s input = lines := by
  rw [newLines, log, List.drop_left]

theorem mem_shortLivedLines {proc : TrackedProcess} {runtime : Int} {counter : ShortLivedCounter}
    {comm : CharBuf TASK_COMM_LEN} {count : Int32} :
    LogLine.shortLivedBurst comm count ∈ shortLivedLines proc runtime counter ↔
      SHORT_LIVED_BURST_THRESHOLD ≤ counter.count ∧ comm = counter.comm ∧
        count = counter.count := by
  unfold shortLivedLines
  split_ifs with full <;> simp [full]

inductive CountStep (s : ProcState) : ProcStep → Prop
  | short {now : Time} {e : ProcEvent} (proc : TrackedProcess)
      (exits : shortExits s (.event now e) =
        [⟨e.pid, proc.comm, now, newLines s (.event now e)⟩])
      (counters : (step s (.event now e)).shortLivedCounters =
        Function.update s.shortLivedCounters (counterView.slotFor s.shortLivedCounters proc.comm)
          (countExit now (openCounter s proc.comm now)))
      (bursts : ∀ comm count, LogLine.shortLivedBurst comm count ∈ newLines s (.event now e) ↔
        SHORT_LIVED_BURST_THRESHOLD ≤ (countExit now (openCounter s proc.comm now)).count ∧
          comm = proc.comm ∧ count = (countExit now (openCounter s proc.comm now)).count) :
      CountStep s (.event now e)
  | skip {input : ProcStep} (exits : shortExits s input = [])
      (counters : (step s input).shortLivedCounters = s.shortLivedCounters)
      (noBurst : ∀ now e, input = .event now e → NoBurst (newLines s input)) :
      CountStep s input

theorem event_skip {now : Time} {e : ProcEvent} {s : ProcState}
    (exits : shortExits s (.event now e) = [])
    (counters : (handleEvent now e s).2.shortLivedCounters = s.shortLivedCounters)
    (lines : ∃ lines, (handleEvent now e s).2.logFile = s.logFile ++ lines ∧ NoBurst lines) :
    CountStep s (.event now e) := by
  obtain ⟨lines, log, noBurst⟩ := lines
  have added : newLines s (.event now e) = lines := newLines_of_append log
  apply CountStep.skip exits counters
  intro _ _ _
  rwa [added]

theorem exit_countStep {now : Time} {e : ProcEvent} {s : ProcState} (running : s.ebpfRunning = true)
    (type : e.type = .exit) : CountStep s (.event now e) := by
  have handled : (handleEvent now e s).2 = procEventExit now e s := handleEvent_exit running type
  cases found : findTrackedProcess s e.pid with
  | none =>
      rw [procEventExit_untracked found] at handled
      apply event_skip
      · simp [shortExits, findTrackedProcess_eq_none.mp found]
      · rw [handled]
      · exact ⟨[], by simp [handled], by simp [NoBurst]⟩
  | some i =>
      have tracked := trackedMap_of_find found
      by_cases short : now - (s.trackedProcs i).firstSeen ≤ SHORT_LIVED_PROC_SECONDS
      · rw [procEventExit_short found short] at handled
        apply CountStep.short (s.trackedProcs i)
        · exact shortExits_short running type tracked short
        · simp only [step, handled]
        · intro comm count
          have log : (step s (.event now e)).logFile = _ := congrArg ProcState.logFile handled
          rw [newLines_of_append log]
          simp [mem_shortLivedLines, countExit_active.2, openCounter_active.2]
      · rw [procEventExit_long found short] at handled
        apply event_skip
        · simp [shortExits, tracked, short]
        · rw [handled]
        · exact ⟨_, by rw [handled], by simp [NoBurst]⟩

theorem event_countStep (now : Time) (e : ProcEvent) (s : ProcState) :
    CountStep s (.event now e) := by
  cases running : s.ebpfRunning with
  | false =>
      apply event_skip
      · simp [shortExits, running]
      · rw [handleEvent_stopped running]
      · exact ⟨[], by simp [handleEvent_stopped running], by simp [NoBurst]⟩
  | true =>
      cases type : e.type with
      | exec =>
          apply event_skip
          · simp [shortExits, type]
          · rw [handleEvent_exec running type]
            cases enabled : isEnabledConfiguredProcess s e with
            | false => rw [procEventExec_disabled enabled]
            | true =>
                obtain ⟨log, frame⟩ := procEventExec_enabled now enabled
                rw [frame]
          · rw [handleEvent_exec running type]
            exact procEventExec_noBurst now e s
      | fork =>
          apply event_skip
          · simp [shortExits, type]
          · rw [handleEvent_fork running type]
            cases found : findTrackedProcess s e.ppid with
            | none => rw [procEventFork_untracked found]
            | some i =>
                obtain ⟨log, frame⟩ := procEventFork_tracked now found
                rw [frame]
          · rw [handleEvent_fork running type]
            exact procEventFork_noBurst now e s
      | other =>
          have same : (handleEvent now e s).2 = s := by simp [handleEvent, running, type]
          apply event_skip
          · simp [shortExits, type]
          · rw [same]
          · exact ⟨[], by simp [same], by simp [NoBurst]⟩
      | exit => exact exit_countStep running type

theorem step_countStep (s : ProcState) (input : ProcStep) : CountStep s input := by
  cases input with
  | event now e => exact event_countStep now e s
  | message env message =>
      refine .skip rfl ?_ (fun _ _ other => by cases other)
      rcases handleMessage_switch env message s with
        ⟨status, i, log, responses, -, -, frame⟩ | ⟨-, log, responses, out, frame⟩
      · rw [step, frame]
        rfl
      · rw [step, frame]
  | monitor env =>
      refine .skip rfl ?_ (fun _ _ other => by cases other)
      obtain ⟨pc, log, runs, frame⟩ := monitorStep_frame env s
      rw [step, frame]

/-! ## What the counters count -/

def CountsExits (exits : List ShortExit) (comm : CharBuf TASK_COMM_LEN) (first last : Time)
    (count : Nat) : Prop :=
  ∃ counted, List.Sublist counted exits ∧ counted.length = count ∧
    ∀ x ∈ counted, x.comm = comm ∧ first ≤ x.time ∧ x.time ≤ last

abbrev CountsWindow (exits : List ShortExit) (comm : CharBuf TASK_COMM_LEN) (start : Time)
    (count : Nat) : Prop :=
  CountsExits exits comm start (start + SHORT_LIVED_BURST_WINDOW_SECONDS) count

structure CountersSound (sh : ProcState × List ShortExit) : Prop where
  unique : UniqueComms sh.1
  counted : ∀ i, (sh.1.shortLivedCounters i).active = true → ∃ n : Nat, 0 < n ∧
    (sh.1.shortLivedCounters i).count.toInt = n ∧
    CountsWindow sh.2 (sh.1.shortLivedCounters i).comm (sh.1.shortLivedCounters i).windowStart n

def BurstsCounted (sh : ProcState × List ShortExit) (input : ProcStep) : Prop :=
  ∀ now, eventClock input = some now →
    ∀ comm count, LogLine.shortLivedBurst comm count ∈ newLines sh.1 input → ∃ n : Nat,
      count.toInt = n ∧ 5 ≤ n ∧ CountsExits (stepExits sh input).2 comm (now - 10) now n

/-- No exit is counted by a counter that stands at the greatest `int`. -/
def CountFits (sh : ProcState × List ShortExit) (input : ProcStep) : Prop :=
  ∀ x ∈ shortExits sh.1 input, ∀ counter, counterMap sh.1 x.comm = some counter →
    x.time - counter.windowStart ≤ SHORT_LIVED_BURST_WINDOW_SECONDS →
      counter.count ≠ Int32.maxValue

structure CountersWrap (sh : ProcState × List ShortExit) : Prop where
  unique : UniqueComms sh.1
  counted : ∀ i, (sh.1.shortLivedCounters i).active = true → ∃ n : Nat, 0 < n ∧
    (sh.1.shortLivedCounters i).count = Int32.ofNat n ∧
    CountsWindow sh.2 (sh.1.shortLivedCounters i).comm (sh.1.shortLivedCounters i).windowStart n

def ExitsPast (sh : ProcState × List ShortExit) (input : ProcStep) : Prop :=
  ∀ now, eventClock input = some now → ∀ x ∈ sh.2, x.time ≤ now

theorem CountsExits.mono {exits exits' : List ShortExit} {comm : CharBuf TASK_COMM_LEN}
    {first last : Time} {count : Nat} (counts : CountsExits exits comm first last count)
    (longer : List.Sublist exits exits') : CountsExits exits' comm first last count := by
  obtain ⟨counted, sub, length, inside⟩ := counts
  exact ⟨counted, sub.trans longer, length, inside⟩

theorem CountsExits.fewer {exits : List ShortExit} {comm : CharBuf TASK_COMM_LEN}
    {first last : Time} {count m : Nat} (counts : CountsExits exits comm first last count)
    (le : m ≤ count) : CountsExits exits comm first last m := by
  obtain ⟨counted, sub, rfl, inside⟩ := counts
  refine ⟨counted.take m, (List.take_sublist m counted).trans sub, List.length_take_of_le le, ?_⟩
  intro x member
  exact inside x (List.mem_of_mem_take member)

theorem toInt_ofNat_le (n : Nat) : (Int32.ofNat n).toInt ≤ n := by
  rw [Int32.toInt_ofNat', Int.bmod_def]
  unfold Int32.size
  split_ifs <;> omega

theorem sound_iff {sh : ProcState × List ShortExit} (wrap : CountersWrap sh) :
    CountersSound sh ↔ ∀ i, (sh.1.shortLivedCounters i).active = true →
      0 < (sh.1.shortLivedCounters i).count.toInt := by
  constructor
  · intro sound i active
    obtain ⟨n, positive, count, -⟩ := sound.counted i active
    omega
  · intro positive
    refine ⟨wrap.unique, fun i active => ?_⟩
    obtain ⟨n, -, count, counted⟩ := wrap.counted i active
    have above := positive i active
    have le := toInt_ofNat_le n
    rw [← count] at le
    exact ⟨(sh.1.shortLivedCounters i).count.toInt.toNat, by omega, by omega,
      counted.fewer (by omega)⟩

section Counting
variable {s : ProcState} {exits : List ShortExit} {x : ShortExit}

theorem countsExits_one {first last : Time} (after : first ≤ x.time) (before : x.time ≤ last) :
    CountsExits (exits ++ [x]) x.comm first last 1 := by
  refine ⟨[x], List.sublist_append_right exits [x], rfl, ?_⟩
  simp [after, before]

theorem CountsExits.add {first last : Time} {count : Nat}
    (counts : CountsExits exits x.comm first last count) (after : first ≤ x.time)
    (before : x.time ≤ last) : CountsExits (exits ++ [x]) x.comm first last (count + 1) := by
  obtain ⟨counted, sub, length, inside⟩ := counts
  refine ⟨counted ++ [x], sub.append (List.Sublist.refl [x]), by simp [length], ?_⟩
  intro y member
  rcases List.mem_append.mp member with member | member
  · exact inside y member
  · rw [List.mem_singleton.mp member]
    exact ⟨rfl, after, before⟩

theorem countExit_counts (wrap : CountersWrap (s, exits)) (past : ∀ y ∈ exits, y.time ≤ x.time) :
    x.time - 10 ≤ (countExit x.time (openCounter s x.comm x.time)).windowStart ∧
      ∃ n : Nat, 0 < n ∧ (countExit x.time (openCounter s x.comm x.time)).count = Int32.ofNat n ∧
        CountsWindow (exits ++ [x]) x.comm
          (countExit x.time (openCounter s x.comm x.time)).windowStart n := by
  have fresh : CountsExits (exits ++ [x]) x.comm x.time (x.time + 10) 1 :=
    countsExits_one le_rfl (by simp)
  have alone : x.time - 10 ≤ x.time ∧ ∃ n : Nat, 0 < n ∧ (1 : Int32) = Int32.ofNat n ∧
      CountsExits (exits ++ [x]) x.comm x.time (x.time + 10) n :=
    ⟨by simp, 1, Nat.one_pos, rfl, fresh⟩
  unfold countExit openCounter CountsWindow SHORT_LIVED_BURST_WINDOW_SECONDS
  cases found : counterMap s x.comm with
  | none => simpa using alone
  | some counter =>
      obtain ⟨i, rfl, -, active, comm⟩ := of_lookup found
      obtain ⟨n, positive, count, counted⟩ := wrap.counted i active
      change (s.shortLivedCounters i).count = Int32.ofNat n at count
      change CountsWindow exits (s.shortLivedCounters i).comm _ n at counted
      change (s.shortLivedCounters i).comm = x.comm at comm
      rw [comm] at counted
      simp only [Option.getD_some]
      split_ifs with late
      · exact alone
      · have near := not_lt.mp late
        -- The window holds an exit already, so it was not opened after this one.
        have opened : (s.shortLivedCounters i).windowStart ≤ x.time := by
          obtain ⟨ys, sub, length, inside⟩ := counted
          obtain ⟨y, member⟩ := List.exists_mem_of_length_pos (length ▸ positive)
          exact (inside y member).2.1.trans (past y (sub.subset member))
        refine ⟨sub_le_comm.mp near, n + 1, Nat.succ_pos _, ?_, ?_⟩
        · rw [Int32.ofNat_add, count]
          rfl
        · exact counted.add opened (sub_le_iff_le_add'.mp near)

end Counting

theorem stepExits_wrap (sh : ProcState × List ShortExit) (input : ProcStep)
    (wrap : CountersWrap sh) (past : ExitsPast sh input) : CountersWrap (stepExits sh input) := by
  obtain ⟨s, exits⟩ := sh
  have acts := step_countStep s input
  cases acts with
  | skip none counters noBurst =>
      refine ⟨?_, ?_⟩ <;> simp only [stepExits, UniqueComms, counters, none, List.append_nil]
      · exact wrap.unique
      · exact wrap.counted
  | @short now e proc one counters bursts =>
      let x : ShortExit := ⟨e.pid, proc.comm, now, newLines s (.event now e)⟩
      obtain ⟨-, counted⟩ := countExit_counts (x := x) wrap (past now rfl)
      refine ⟨?_, ?_⟩ <;> simp only [stepExits, UniqueComms, counters, one]
      · exact unique_store wrap.unique (countExit_active.2.trans openCounter_active.2)
      · intro i active
        by_cases here : i = counterView.slotFor s.shortLivedCounters proc.comm
        · rw [here, Function.update_self, countExit_active.2, openCounter_active.2]
          exact counted
        · rw [Function.update_of_ne here] at active ⊢
          obtain ⟨n, positive, count, counted⟩ := wrap.counted i active
          exact ⟨n, positive, count, counted.mono (List.sublist_append_left exits [x])⟩

theorem bursts_of_wrap (sh : ProcState × List ShortExit) (input : ProcStep)
    (wrap : CountersWrap sh) (past : ExitsPast sh input) : BurstsCounted sh input := by
  obtain ⟨s, exits⟩ := sh
  intro now clock comm count logged
  have acts := step_countStep s input
  cases acts with
  | skip _ _ noBurst =>
      cases input with
      | event now e => exact absurd logged (noBurst now e rfl comm count)
      | message env message => cases clock
      | monitor env => cases clock
  | @short now' e proc one counters bursts =>
      cases clock
      let x : ShortExit := ⟨e.pid, proc.comm, now, newLines s (.event now e)⟩
      obtain ⟨recent, n, -, exact_, counted⟩ := countExit_counts (x := x) wrap (past now rfl)
      obtain ⟨enough, rfl, rfl⟩ := (bursts comm count).mp logged
      rw [SHORT_LIVED_BURST_THRESHOLD, Int32.le_iff_toInt_le, exact_] at enough
      have five : (5 : Int) ≤ (Int32.ofNat n).toInt := enough
      have le := toInt_ofNat_le n
      obtain ⟨kept, sub, length, inside⟩ :=
        counted.fewer (show (Int32.ofNat n).toInt.toNat ≤ n by omega)
      refine ⟨(Int32.ofNat n).toInt.toNat, ?_, by omega, kept, ?_, length, ?_⟩
      · rw [exact_]
        omega
      · simpa only [stepExits, one] using sub
      · intro y member
        obtain ⟨same, after, -⟩ := inside y member
        refine ⟨same, recent.trans after, ?_⟩
        rcases List.mem_append.mp (sub.subset member) with earlier | last
        · exact past now rfl y earlier
        · rw [List.mem_singleton.mp last]

/-! ## Counters that wrap around -/

theorem toInt_succ (count : Int32) (positive : 0 < count.toInt) :
    0 < (count + 1).toInt ↔ count ≠ Int32.maxValue := by
  have top : count = Int32.maxValue ↔ count.toInt = 2 ^ 31 - 1 := by
    rw [← Int32.toInt_inj]
    rfl
  have below := count.toInt_lt
  have one : (1 : Int32).toInt = 1 := rfl
  rw [ne_eq, top, Int32.toInt_add, one, Int.bmod_def]
  split_ifs <;> omega

theorem countExit_positive {s : ProcState} {x : ShortExit} (open_ : ∀ counter,
      counterMap s x.comm = some counter → 0 < counter.count.toInt) :
    0 < (countExit x.time (openCounter s x.comm x.time)).count.toInt ↔
      ∀ counter, counterMap s x.comm = some counter →
        x.time - counter.windowStart ≤ SHORT_LIVED_BURST_WINDOW_SECONDS →
          counter.count ≠ Int32.maxValue := by
  unfold countExit openCounter
  cases found : counterMap s x.comm with
  | none =>
      refine iff_of_true ?_ (fun counter known => by cases known)
      rw [Option.getD_none, if_neg (by simp [SHORT_LIVED_BURST_WINDOW_SECONDS])]
      show 0 < ((0 : Int32) + 1).toInt
      decide
  | some counter =>
      rw [Option.getD_some]
      split_ifs with late
      · refine iff_of_true (show 0 < (1 : Int32).toInt by decide) fun other known near => ?_
        cases known
        exact absurd near (not_le.mpr late)
      · rw [toInt_succ _ (open_ counter found)]
        constructor
        · rintro fits _ ⟨⟩ _
          exact fits
        · exact fun fits => fits counter rfl (not_lt.mp late)

theorem stepExits_sound_iff (sh : ProcState × List ShortExit) (input : ProcStep)
    (wrap : CountersWrap sh) (sound : CountersSound sh) (past : ExitsPast sh input) :
    CountersSound (stepExits sh input) ↔ CountFits sh input := by
  rw [sound_iff (stepExits_wrap sh input wrap past)]
  have positive := (sound_iff wrap).mp sound
  obtain ⟨s, exits⟩ := sh
  have acts := step_countStep s input
  cases acts with
  | skip none counters noBurst =>
      simp only [stepExits, counters, CountFits, none]
      exact iff_of_true positive (by simp)
  | @short now e proc one counters bursts =>
      let x : ShortExit := ⟨e.pid, proc.comm, now, newLines s (.event now e)⟩
      have open_ : ∀ counter, counterMap s x.comm = some counter → 0 < counter.count.toInt := by
        intro counter known
        obtain ⟨i, rfl, -, active, -⟩ := of_lookup known
        exact positive i active
      have fits : CountFits (s, exits) (.event now e) ↔ ∀ counter,
          counterMap s x.comm = some counter →
            x.time - counter.windowStart ≤ SHORT_LIVED_BURST_WINDOW_SECONDS →
              counter.count ≠ Int32.maxValue := by
        simp only [CountFits, one, List.forall_mem_singleton]
        rfl
      rw [fits, ← countExit_positive open_]
      simp only [stepExits, counters]
      constructor
      · intro every
        have here := every (counterView.slotFor s.shortLivedCounters proc.comm)
        rw [Function.update_self] at here
        exact here (countExit_active.1.trans openCounter_active.1)
      · intro counts i active
        by_cases here : i = counterView.slotFor s.shortLivedCounters proc.comm
        · rw [here, Function.update_self]
          exact counts
        · rw [Function.update_of_ne here] at active ⊢
          exact positive i active

theorem exits_clock {sh : ProcState × List ShortExit} (input : ProcStep) {x : ShortExit}
    (member : x ∈ shortExits sh.1 input) : eventClock input = some x.time := by
  cases input with
  | event now e =>
      simp only [shortExits] at member
      split_ifs at member
      · split at member
        · split_ifs at member
          · rw [List.mem_singleton.mp member]
            rfl
          · cases member
        · cases member
      · cases member
  | message env message => cases member
  | monitor env => cases member

theorem run_exits_clock {sh : ProcState × List ShortExit} (steps : List ProcStep) {x : ShortExit}
    (member : x ∈ (run stepExits sh steps).2) :
    x ∈ sh.2 ∨ x.time ∈ steps.filterMap eventClock := by
  induction steps generalizing sh with
  | nil => exact .inl member
  | cons input steps ih =>
      rcases ih member with early | late
      · rcases List.mem_append.mp early with before | here
        · exact .inl before
        · exact .inr (List.mem_filterMap.mpr ⟨input, by simp, exits_clock input here⟩)
      · right
        rw [List.mem_filterMap] at late ⊢
        obtain ⟨later, inside, clock⟩ := late
        exact ⟨later, List.mem_cons_of_mem _ inside, clock⟩

theorem exitsPast_of_clock {s : ProcState} {steps : List ProcStep}
    (clock : ClockNondecreasing steps) : Guarded stepExits ExitsPast (s, []) steps := by
  intro past input rest split now reads x member
  rcases run_exits_clock past member with none | earlier
  · cases none
  · rw [ClockNondecreasing, split, List.filterMap_append, List.pairwise_append] at clock
    exact clock.2.2 x.time earlier now (List.mem_filterMap.mpr ⟨input, by simp, reads⟩)

/-- Under a clock that does not go back, every burst that is logged counts at least five exits of
the last ten seconds. The counters, one for each comm, count exits within ten seconds of the starts
of their windows exactly as long as none of them overflows. -/
theorem bursts_counted_iff (configs : List ProcessConfig) (steps : List ProcStep)
    (clock : ClockNondecreasing steps) :
    Guarded stepExits BurstsCounted (.initial configs, []) steps ∧
      (Always stepExits CountersSound (.initial configs, []) steps ↔
        Guarded stepExits CountFits (.initial configs, []) steps) := by
  have past := exitsPast_of_clock (s := .initial configs) clock
  have start : CountersWrap (.initial configs, []) :=
    ⟨unique_of_free fun _ => rfl, fun i active => by cases active⟩
  have wrap := always_of_guarded stepExits stepExits_wrap start past
  refine ⟨guarded_of_always stepExits bursts_of_wrap wrap past, ?_⟩
  refine always_iff_guarded stepExits
    (J := fun sh => CountersWrap sh ∧ CountersSound sh) (fun _ both => both.2) ?_ ?_ ?_ past
  · intro sh input both past fits
    exact ⟨stepExits_wrap sh input both.1 past, (stepExits_sound_iff sh input both.1 both.2 past).mpr fits⟩
  · intro sh input both past sound
    exact (stepExits_sound_iff sh input both.1 both.2 past).mp sound
  · exact ⟨start, (sound_iff start).mpr fun i active => by cases active⟩

theorem bursts_counted_iff_shell :
    Guarded stepExits BurstsCounted (.initial [selftestConfig 1 false], [])
        [.message ⟨0, true⟩ (lit "start 1"), .event 3 (shellEvent .exec 7 1),
          .event 4 (shellEvent .exit 7 1)] ∧
      (Always stepExits CountersSound (.initial [selftestConfig 1 false], [])
        [.message ⟨0, true⟩ (lit "start 1"), .event 3 (shellEvent .exec 7 1),
          .event 4 (shellEvent .exit 7 1)] ↔
      Guarded stepExits CountFits (.initial [selftestConfig 1 false], [])
        [.message ⟨0, true⟩ (lit "start 1"), .event 3 (shellEvent .exec 7 1),
          .event 4 (shellEvent .exit 7 1)]) :=
  bursts_counted_iff _ _ (by simp [ClockNondecreasing, List.filterMap_cons, eventClock])

end SysDetector.Proc
