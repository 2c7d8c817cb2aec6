import Mathlib.Algebra.Order.Group.Int
import Mathlib.Data.List.Dedup
import SysDetector.Proc.ForkInheritance
import SysDetector.Proc.ShortLived

namespace SysDetector.Proc
open CLib Runs Windows SlotTable SlotTable.View

def ownExits (comm : CharBuf TASK_COMM_LEN) (exits : List ShortExit) : List ShortExit :=
  exits.filter fun x => x.comm = comm

def exitTime (exits : List ShortExit) (k : Nat) : Time := (exits[k]?.map ShortExit.time).getD 0

def BurstLogged (x : ShortExit) : Prop := ∃ count, LogLine.shortLivedBurst x.comm count ∈ x.lines

def exitsHeld (exits : List ShortExit) (k : Nat) : Nat :=
  held SHORT_LIVED_BURST_WINDOW_SECONDS (exitTime exits) k

def exitsOpening (exits : List ShortExit) (k : Nat) : Nat :=
  opening SHORT_LIVED_BURST_WINDOW_SECONDS (exitTime exits) k

def exitsCounted (exits : List ShortExit) (k : Nat) : Int32 := Int32.ofNat (exitsHeld exits k)

def windowCounter (comm : CharBuf TASK_COMM_LEN) (own : List ShortExit) :
    Option ShortLivedCounter :=
  match own.length with
  | 0 => none
  | k + 1 => some
      { comm := comm
        windowStart := exitTime own (exitsOpening own k)
        count := exitsCounted own k
        active := true }

structure WindowsKept (sh : ProcState × List ShortExit) : Prop where
  unique : UniqueComms sh.1
  sorted : (sh.2.map ShortExit.time).Pairwise (· ≤ ·)
  counters : ∀ comm, counterMap sh.1 comm = windowCounter comm (ownExits comm sh.2)
  bursts : ∀ comm k x, (ownExits comm sh.2)[k]? = some x →
    (BurstLogged x ↔ SHORT_LIVED_BURST_THRESHOLD ≤ exitsCounted (ownExits comm sh.2) k)

def Roomy (exits : List ShortExit) : Prop :=
  (exits.map ShortExit.comm).dedup.length < MAX_TRACKED_PROCS

section Exits
variable {own : List ShortExit} {x : ShortExit}

theorem exitTime_append {k : Nat} (before : k < own.length) :
    exitTime (own ++ [x]) k = exitTime own k := by
  rw [exitTime, exitTime, List.getElem?_append_left before]

theorem exitTime_last : exitTime (own ++ [x]) own.length = x.time := by
  simp [exitTime]

theorem exitsHeld_append {k : Nat} (before : k < own.length) :
    exitsHeld (own ++ [x]) k = exitsHeld own k :=
  held_congr fun _ le => exitTime_append (by omega)

theorem exitsOpening_append {k : Nat} (before : k < own.length) :
    exitsOpening (own ++ [x]) k = exitsOpening own k :=
  opening_congr fun _ le => exitTime_append (by omega)

theorem exitsCounted_few {k : Nat} (few : exitsHeld own k < 2 ^ 31) :
    SHORT_LIVED_BURST_THRESHOLD ≤ exitsCounted own k ↔ 5 ≤ exitsHeld own k := by
  have five : SHORT_LIVED_BURST_THRESHOLD.toInt = 5 := rfl
  rw [exitsCounted, Int32.le_iff_toInt_le, Int32.toInt_ofNat_of_lt few, five]
  omega

theorem windowCounter_append {s : ProcState}
    (counter : counterMap s x.comm = windowCounter x.comm own) :
    some (countExit x.time (openCounter s x.comm x.time)) =
      windowCounter x.comm (own ++ [x]) := by
  have last : exitTime (own ++ [x]) own.length = x.time := exitTime_last
  rw [openCounter, counter]
  unfold windowCounter
  cases length : own.length with
  | zero =>
      rw [length] at last
      simp [countExit, SHORT_LIVED_BURST_WINDOW_SECONDS, exitsCounted, exitsHeld, exitsOpening, held,
        opening, length, last]
  | succ k =>
      rw [length] at last
      have le : exitsOpening own k ≤ k := opening_le _ _ k
      have next : exitsOpening (own ++ [x]) (k + 1) =
          if x.time - exitTime own (exitsOpening own k) > SHORT_LIVED_BURST_WINDOW_SECONDS
          then k + 1 else exitsOpening own k := by
        have same := exitsOpening_append (x := x) (show k < own.length by omega)
        unfold exitsOpening at same le ⊢
        rw [opening, same, last, exitTime_append (by omega)]
      have heldNow : exitsCounted own k = Int32.ofNat (k + 1 - exitsOpening own k) := rfl
      have heldNext : exitsCounted (own ++ [x]) (k + 1) =
          Int32.ofNat (k + 2 - exitsOpening (own ++ [x]) (k + 1)) := rfl
      simp only [List.length_append, length, List.length_singleton, Option.getD_some, countExit]
      rw [heldNext, next, heldNow]
      split_ifs with late
      · rw [last]
        simp
      · have grown : k + 2 - exitsOpening own k = k + 1 - exitsOpening own k + 1 := by omega
        rw [exitTime_append (by omega), grown, Int32.ofNat_add]
        rfl

end Exits

theorem ownExits_append_self {exits : List ShortExit} {x : ShortExit} :
    ownExits x.comm (exits ++ [x]) = ownExits x.comm exits ++ [x] := by
  simp [ownExits]

theorem ownExits_append_other {exits : List ShortExit} {x : ShortExit}
    {comm : CharBuf TASK_COMM_LEN} (other : comm ≠ x.comm) :
    ownExits comm (exits ++ [x]) = ownExits comm exits := by
  simp [ownExits, Ne.symm other]

theorem sorted_append {exits : List ShortExit} {x : ShortExit}
    (sorted : (exits.map ShortExit.time).Pairwise (· ≤ ·)) (past : ∀ y ∈ exits, y.time ≤ x.time) :
    ((exits ++ [x]).map ShortExit.time).Pairwise (· ≤ ·) := by
  rw [List.map_append, List.pairwise_append]
  refine ⟨sorted, List.pairwise_singleton _ _, ?_⟩
  intro time member last here
  obtain ⟨y, earlier, rfl⟩ := List.mem_map.mp member
  rw [List.mem_singleton.mp here]
  exact past y earlier

theorem bursts_append {exits : List ShortExit} {x : ShortExit}
    (bursts : ∀ comm k y, (ownExits comm exits)[k]? = some y →
      (BurstLogged y ↔ SHORT_LIVED_BURST_THRESHOLD ≤ exitsCounted (ownExits comm exits) k))
    (last : BurstLogged x ↔ SHORT_LIVED_BURST_THRESHOLD ≤
      exitsCounted (ownExits x.comm exits ++ [x]) (ownExits x.comm exits).length)
    (comm : CharBuf TASK_COMM_LEN) (k : Nat) (y : ShortExit)
    (member : (ownExits comm (exits ++ [x]))[k]? = some y) :
    BurstLogged y ↔ SHORT_LIVED_BURST_THRESHOLD ≤ exitsCounted (ownExits comm (exits ++ [x])) k := by
  by_cases own : comm = x.comm
  · subst own
    rw [ownExits_append_self] at member ⊢
    by_cases before : k < (ownExits x.comm exits).length
    · rw [List.getElem?_append_left before] at member
      rw [exitsCounted, exitsHeld_append before]
      exact bursts x.comm k y member
    · have bound := (List.getElem?_eq_some_iff.mp member).1
      rw [List.length_append, List.length_singleton] at bound
      obtain rfl : k = (ownExits x.comm exits).length := by omega
      rw [List.getElem?_concat_length] at member
      obtain rfl := Option.some.inj member
      exact last
  · rw [ownExits_append_other own] at member ⊢
    exact bursts comm k y member

theorem roomy_not_full {s : ProcState} {exits : List ShortExit} (unique : UniqueComms s)
    (counters : ∀ comm, counterMap s comm = windowCounter comm (ownExits comm exits))
    (roomy : Roomy exits) : ¬ counterView.Full s.shortLivedCounters := by
  intro full
  have known : ∀ i, (s.shortLivedCounters i).comm ∈ exits.map ShortExit.comm := by
    intro i
    have present : counterMap s (s.shortLivedCounters i).comm = some (s.shortLivedCounters i) :=
      lookup_of_find (find_eq_some unique (full i) rfl)
    have counter := present.symm.trans (counters (s.shortLivedCounters i).comm)
    cases own : ownExits (s.shortLivedCounters i).comm exits with
    | nil =>
        rw [own] at counter
        cases counter
    | cons x rest =>
        have member : x ∈ ownExits (s.shortLivedCounters i).comm exits := own ▸ List.mem_cons_self
        simp only [ownExits, List.mem_filter, decide_eq_true_eq] at member
        exact List.mem_map.mpr ⟨x, member⟩
  have distinct : ((List.finRange MAX_TRACKED_PROCS).map fun i =>
      (s.shortLivedCounters i).comm).Nodup :=
    (List.nodup_finRange _).map fun i j same => unique i j (full i) (full j) same
  have le : _ ≤ (exits.map ShortExit.comm).dedup.length := distinct.length_le_of_subset (by
    intro comm member
    obtain ⟨i, -, rfl⟩ := List.mem_map.mp member
    exact List.mem_dedup.mpr (known i))
  simp only [List.length_map, List.length_finRange] at le
  exact absurd roomy (not_lt.mpr le)

def ExitsFit (sh : ProcState × List ShortExit) (input : ProcStep) : Prop :=
  ExitsPast sh input ∧ Roomy sh.2

theorem stepExits_kept (sh : ProcState × List ShortExit) (input : ProcStep) (kept : WindowsKept sh)
    (fit : ExitsFit sh input) : WindowsKept (stepExits sh input) := by
  obtain ⟨s, exits⟩ := sh
  have acts := step_countStep s input
  cases acts with
  | skip none counters noBurst =>
      refine ⟨?_, ?_, ?_, ?_⟩ <;>
        simp only [stepExits, UniqueComms, counterMap, counters, none, List.append_nil]
      · exact kept.unique
      · exact kept.sorted
      · exact kept.counters
      · exact kept.bursts
  | @short now e proc one counters bursts =>
      let x : ShortExit := ⟨e.pid, proc.comm, now, newLines s (.event now e)⟩
      have key : (countExit x.time (openCounter s x.comm x.time)).comm = x.comm :=
        countExit_active.2.trans openCounter_active.2
      have active : (countExit x.time (openCounter s x.comm x.time)).active = true :=
        countExit_active.1.trans openCounter_active.1
      have insert := store_inserts (v := counterView) kept.unique active key
      have full := roomy_not_full kept.unique kept.counters fit.2
      have counter := windowCounter_append (kept.counters x.comm)
      refine ⟨?_, ?_, ?_, ?_⟩ <;> simp only [stepExits, UniqueComms, counterMap, counters, one]
      · exact unique_store kept.unique key
      · exact sorted_append kept.sorted (fit.1 now rfl)
      · intro comm
        apply (congrFun (insert.of_not_full full) comm).trans
        rw [Function.update_apply]
        split_ifs with here
        · rw [here]
          show _ = windowCounter x.comm (ownExits x.comm (exits ++ [x]))
          rw [ownExits_append_self]
          exact counter
        · show _ = windowCounter comm (ownExits comm (exits ++ [x]))
          rw [ownExits_append_other here]
          exact kept.counters comm
      · have held : (countExit x.time (openCounter s x.comm x.time)).count =
            exitsCounted (ownExits x.comm exits ++ [x]) (ownExits x.comm exits).length := by
          have some := counter
          simp only [windowCounter, List.length_append, List.length_singleton] at some
          exact congrArg ShortLivedCounter.count (Option.some.inj some)
        apply bursts_append kept.bursts
        rw [← held]
        constructor
        · rintro ⟨count, logged⟩
          exact ((bursts x.comm count).mp logged).1
        · intro full
          exact ⟨_, (bursts x.comm _).mpr ⟨full, rfl, rfl⟩⟩

theorem run_exits_prefix (sh : ProcState × List ShortExit) (steps : List ProcStep) :
    sh.2 <+: (run stepExits sh steps).2 := by
  induction steps generalizing sh with
  | nil => exact List.prefix_rfl
  | cons input steps ih => exact (List.prefix_append sh.2 _).trans (ih (stepExits sh input))

theorem Roomy.of_prefix {exits exits' : List ShortExit} (roomy : Roomy exits')
    (before : exits <+: exits') : Roomy exits := by
  have sub : (exits.map ShortExit.comm).dedup ⊆ (exits'.map ShortExit.comm).dedup := by
    intro comm member
    rw [List.mem_dedup] at member ⊢
    exact (before.map ShortExit.comm).subset member
  exact ((List.nodup_dedup _).length_le_of_subset sub).trans_lt roomy

theorem run_windowsKept (configs : List ProcessConfig) {steps : List ProcStep}
    (clock : ClockNondecreasing steps)
    (roomy : Roomy (run stepExits (.initial configs, []) steps).2) :
    WindowsKept (run stepExits (.initial configs, []) steps) := by
  have past := exitsPast_of_clock (s := .initial configs) clock
  have fit : Guarded stepExits ExitsFit (.initial configs, []) steps := by
    intro before input rest split
    refine ⟨past before input rest split, roomy.of_prefix ?_⟩
    rw [split, run_append]
    exact run_exits_prefix _ _
  have start : WindowsKept (.initial configs, []) := by
    refine ⟨unique_of_free fun _ => rfl, List.Pairwise.nil, fun comm => ?_, ?_⟩
    · exact lookup_eq_none_iff.mpr (find_eq_none_iff.mpr fun i active => by cases active)
    · intro comm k x member
      cases member
  exact (always_of_guarded stepExits stepExits_kept start fit).last

theorem exitTime_mono {exits : List ShortExit} (comm : CharBuf TASK_COMM_LEN)
    (sorted : (exits.map ShortExit.time).Pairwise (· ≤ ·)) {last : Nat}
    (inside : last < (ownExits comm exits).length) (j k : Nat) (le : j ≤ k) (before : k ≤ last) :
    exitTime (ownExits comm exits) j ≤ exitTime (ownExits comm exits) k := by
  have own : ((ownExits comm exits).map ShortExit.time).Pairwise (· ≤ ·) :=
    sorted.sublist (List.filter_sublist.map _)
  rcases le.eq_or_lt with rfl | lt
  · exact le_rfl
  · have pair := List.pairwise_iff_getElem.mp own j k (by simp; omega) (by simp; omega) lt
    simpa [exitTime, List.getElem?_eq_getElem (show j < (ownExits comm exits).length by omega),
      List.getElem?_eq_getElem (show k < (ownExits comm exits).length by omega)] using pair

/-- Of five exits of one comm within ten seconds a burst is logged at one from the first to the
fifth exactly when the window of the fifth holds five exits by then, or was opened after the first
and the window before it held five. -/
theorem burst_logged_iff (configs : List ProcessConfig) (steps : List ProcStep)
    (clock : ClockNondecreasing steps)
    (roomy : Roomy (run stepExits (.initial configs, []) steps).2)
    (comm : CharBuf TASK_COMM_LEN) (first fifth : Nat) (five : first + 4 ≤ fifth)
    (few : ∀ k ≤ fifth,
      exitsHeld (ownExits comm (run stepExits (.initial configs, []) steps).2) k < 2 ^ 31)
    (inside : fifth < (ownExits comm (run stepExits (.initial configs, []) steps).2).length)
    (near : exitTime (ownExits comm (run stepExits (.initial configs, []) steps).2) fifth -
      exitTime (ownExits comm (run stepExits (.initial configs, []) steps).2) first ≤ 10) :
    let own := ownExits comm (run stepExits (.initial configs, []) steps).2
    (∃ k x, first ≤ k ∧ k ≤ fifth ∧ own[k]? = some x ∧ BurstLogged x) ↔
      5 ≤ exitsHeld own fifth ∨
        (first < exitsOpening own fifth ∧ 5 ≤ exitsHeld own (exitsOpening own fifth - 1)) := by
  intro own
  have kept := run_windowsKept configs clock roomy
  have logged : (∃ k x, first ≤ k ∧ k ≤ fifth ∧ own[k]? = some x ∧ BurstLogged x) ↔
      ∃ k, first ≤ k ∧ k ≤ fifth ∧ 5 ≤ exitsHeld own k := by
    constructor
    · intro ⟨k, x, after, before, member, burst⟩
      refine ⟨k, after, before, (exitsCounted_few (few k before)).mp ?_⟩
      exact (kept.bursts comm k x member).mp burst
    · intro ⟨k, after, before, full⟩
      have member := List.getElem?_eq_getElem (before.trans_lt inside)
      refine ⟨k, _, after, before, member, (kept.bursts comm k _ member).mpr ?_⟩
      exact (exitsCounted_few (few k before)).mpr full
  have crowded : (∃ k, first ≤ k ∧ k ≤ fifth ∧ 5 ≤ exitsHeld own k) ↔
      (first ≤ fifth ∧ 5 ≤ exitsHeld own fifth) ∨
        (first < exitsOpening own fifth ∧ 5 ≤ exitsHeld own (exitsOpening own fifth - 1)) :=
    crowded_iff SHORT_LIVED_BURST_WINDOW_SECONDS (exitTime own)
      (exitTime_mono comm kept.sorted inside) near
  rw [logged, crowded, and_iff_right (show first ≤ fifth by omega)]

/-! ## Shells that come and go -/

def visits (times : List Time) : List ProcStep :=
  times.flatMap fun t => [.event t (shellEvent .exec 7 1), .event t (shellEvent .exit 7 1)]

theorem visit_exits {sh : ProcState × List ShortExit} (unique : UniquePids sh.1)
    (running : sh.1.ebpfRunning = true) (loaded : selftestConfig 1 true ∈ sh.1.configs) (t : Time) :
    ∃ lines, (run stepExits sh (visits [t])).2 =
      sh.2 ++ [⟨7, snprintf TASK_COMM_LEN (lit "sh"), t, lines⟩] := by
  obtain ⟨s, exits⟩ := sh
  have handled : (handleEvent t (shellEvent .exec 7 1) s).2 =
      procEventExec t (shellEvent .exec 7 1) s := handleEvent_exec running rfl
  have inserted := (procEventExec_inserts t unique (shellEvent_enabled loaded .exec 7 1)).2.self
  rw [← handled] at inserted
  have on := (handleEvent_ebpfRunning t (shellEvent .exec 7 1) s).trans running
  have noExit : shortExits s (.event t (shellEvent .exec 7 1)) = [] := by
    simp [shortExits, shellEvent]
  have anExit := shortExits_short (e := shellEvent .exit 7 1) on rfl inserted
    (show t - t ≤ SHORT_LIVED_PROC_SECONDS by simp [SHORT_LIVED_PROC_SECONDS])
  have comm : (execRecord t (shellEvent .exec 7 1)).comm = snprintf TASK_COMM_LEN (lit "sh") :=
    snprintf_text _
  rw [comm] at anExit
  have both : (run stepExits (s, exits) (visits [t])).2 =
      (exits ++ shortExits s (.event t (shellEvent .exec 7 1))) ++
        shortExits (handleEvent t (shellEvent .exec 7 1) s).2 (.event t (shellEvent .exit 7 1)) :=
    rfl
  rw [both, noExit, anExit, List.append_nil]
  exact ⟨_, rfl⟩

def visited (times : List Time) : ProcState × List ShortExit :=
  run stepExits (.initial [selftestConfig 1 false], []) (startedSteps ++ visits times)

theorem visited_append (times : List Time) (t : Time) :
    visited (times ++ [t]) = run stepExits (visited times) (visits [t]) := by
  simp only [visited, visits, List.flatMap_append, ← List.append_assoc, run_append]

theorem visited_inv (times : List Time) : UniquePids (visited times).1 ∧
    (visited times).1.ebpfRunning = true ∧ selftestConfig 1 true ∈ (visited times).1.configs ∧
    (visited times).2.map (fun x => (x.comm, x.time)) =
      times.map fun t => (snprintf TASK_COMM_LEN (lit "sh"), t) := by
  induction times using List.reverseRecOn with
  | nil =>
      have start : (visited []).1 = run step (.initial [selftestConfig 1 false]) startedSteps := rfl
      rw [start]
      exact ⟨run_unique (fun _ => rfl) startedSteps, startedSteps_running, startedSteps_loaded, rfl⟩
  | append_singleton times t ih =>
      obtain ⟨unique, running, loaded, exits⟩ := ih
      obtain ⟨lines, exit⟩ := visit_exits unique running loaded t
      rw [visited_append]
      refine ⟨handleEvent_unique t (handleEvent_unique t unique), ?_, ?_, ?_⟩
      · simpa [visits, stepExits, step] using running
      · simpa [visits, stepExits, step] using loaded
      · rw [exit, List.map_append, exits, List.map_append]
        rfl

theorem visited_own (times : List Time) :
    ownExits (snprintf TASK_COMM_LEN (lit "sh")) (visited times).2 = (visited times).2 := by
  obtain ⟨-, -, -, exits⟩ := visited_inv times
  unfold ownExits
  rw [List.filter_eq_self]
  intro x member
  have pair := List.mem_map_of_mem (f := fun x : ShortExit => (x.comm, x.time)) member
  rw [exits] at pair
  obtain ⟨t, -, same⟩ := List.mem_map.mp pair
  simpa using (congrArg Prod.fst same).symm

theorem visited_time (times : List Time) :
    exitTime (visited times).2 = fun k => (times[k]?).getD 0 := by
  obtain ⟨-, -, -, exits⟩ := visited_inv times
  have clock : (visited times).2.map ShortExit.time = times := by
    simpa [Function.comp_def] using congrArg (List.map Prod.snd) exits
  funext k
  rw [exitTime, ← List.getElem?_map, clock]

theorem visited_roomy (times : List Time) : Roomy (visited times).2 := by
  obtain ⟨-, -, -, exits⟩ := visited_inv times
  have comms : (visited times).2.map ShortExit.comm =
      times.map fun _ => snprintf TASK_COMM_LEN (lit "sh") := by
    simpa [Function.comp_def] using congrArg (List.map Prod.fst) exits
  have one : ((visited times).2.map ShortExit.comm).dedup ⊆
      [snprintf TASK_COMM_LEN (lit "sh")] := by
    intro comm member
    rw [List.mem_dedup, comms] at member
    obtain ⟨t, -, rfl⟩ := List.mem_map.mp member
    exact List.mem_singleton_self _
  have two : 1 < MAX_TRACKED_PROCS := by
    unfold MAX_TRACKED_PROCS
    decide
  exact ((List.nodup_dedup _).length_le_of_subset one).trans_lt two

def straddlingTimes : List Time := [0, 8, 8, 8, 11, 11]

theorem straddling_clock : ClockNondecreasing (startedSteps ++ visits straddlingTimes) := by
  simp [ClockNondecreasing, startedSteps, visits, straddlingTimes, List.filterMap_cons, eventClock]

theorem straddling_inside :
    5 < (ownExits (snprintf TASK_COMM_LEN (lit "sh")) (visited straddlingTimes).2).length := by
  obtain ⟨-, -, -, exits⟩ := visited_inv straddlingTimes
  have length : (visited straddlingTimes).2.length = 6 := by
    simpa [straddlingTimes] using congrArg List.length exits
  rw [visited_own, length]
  decide

theorem straddling_near :
    exitTime (ownExits (snprintf TASK_COMM_LEN (lit "sh")) (visited straddlingTimes).2) 5 -
      exitTime (ownExits (snprintf TASK_COMM_LEN (lit "sh")) (visited straddlingTimes).2) 1 ≤
        10 := by
  rw [visited_own, visited_time]
  decide

theorem straddling_held (k : Nat) (le : k ≤ 5) :
    exitsHeld (ownExits (snprintf TASK_COMM_LEN (lit "sh")) (visited straddlingTimes).2) k < 5 := by
  have small : ∀ k ≤ 5, held SHORT_LIVED_BURST_WINDOW_SECONDS
      (fun k => (straddlingTimes[k]?).getD 0) k < 5 := by
    decide
  rw [visited_own, exitsHeld, visited_time]
  exact small k le

theorem straddling_few (k : Nat) (le : k ≤ 5) :
    exitsHeld (ownExits (snprintf TASK_COMM_LEN (lit "sh")) (visited straddlingTimes).2) k <
      2 ^ 31 :=
  (straddling_held k le).trans (by decide)

theorem burst_logged_iff_shell :
    let own := ownExits (snprintf TASK_COMM_LEN (lit "sh"))
      (run stepExits (.initial [selftestConfig 1 false], [])
        (startedSteps ++ visits straddlingTimes)).2
    (∃ k x, 1 ≤ k ∧ k ≤ 5 ∧ own[k]? = some x ∧ BurstLogged x) ↔
      5 ≤ exitsHeld own 5 ∨
        (1 < exitsOpening own 5 ∧ 5 ≤ exitsHeld own (exitsOpening own 5 - 1)) :=
  burst_logged_iff _ _ straddling_clock (visited_roomy straddlingTimes) _ 1 5 le_rfl
    straddling_few straddling_inside straddling_near

theorem straddling_burst_missed : ¬ ∀ (configs : List ProcessConfig) (steps : List ProcStep),
    ClockNondecreasing steps → Roomy (run stepExits (.initial configs, []) steps).2 →
    ∀ comm first fifth, first + 4 ≤ fifth →
      let own := ownExits comm (run stepExits (.initial configs, []) steps).2
      fifth < own.length → exitTime own fifth - exitTime own first ≤ 10 →
        ∃ k x, k ≤ fifth ∧ own[k]? = some x ∧ BurstLogged x := by
  intro noticed
  have roomy := visited_roomy straddlingTimes
  obtain ⟨k, x, before, member, burst⟩ := noticed [selftestConfig 1 false] _ straddling_clock roomy
    _ 1 5 le_rfl straddling_inside straddling_near
  have full := ((run_windowsKept _ straddling_clock roomy).bursts _ k x member).mp burst
  have five := (exitsCounted_few (straddling_few k before)).mp full
  exact absurd five (not_le.mpr (straddling_held k before))

/-! ## A counter that overflows -/

theorem visits_clock {times : List Time} (sorted : times.Pairwise (· ≤ ·)) :
    ClockNondecreasing (startedSteps ++ visits times) := by
  have read : (startedSteps ++ visits times).filterMap eventClock =
      times.flatMap fun t => [t, t] := by
    rw [List.filterMap_append, visits, List.filterMap_flatMap]
    rfl
  rw [ClockNondecreasing, read]
  clear read
  induction sorted with
  | nil => exact List.Pairwise.nil
  | @cons t times before _ ih =>
      rw [List.flatMap_cons, List.pairwise_append]
      refine ⟨by simp, ih, fun a aIn b bIn => ?_⟩
      obtain rfl : a = t := by simpa using aIn
      obtain ⟨u, later, here⟩ := List.mem_flatMap.mp bIn
      obtain rfl : b = u := by simpa using here
      exact before b later

theorem crowd_counter (k : Nat) :
    counterMap (visited (List.replicate (k + 1) 0)).1 (snprintf TASK_COMM_LEN (lit "sh")) =
      some ⟨snprintf TASK_COMM_LEN (lit "sh"), 0, Int32.ofNat (k + 1), true⟩ := by
  have sorted : (List.replicate (k + 1) (0 : Time)).Pairwise (· ≤ ·) :=
    List.pairwise_replicate.mpr (.inr le_rfl)
  have kept := run_windowsKept _ (visits_clock sorted) (visited_roomy (List.replicate (k + 1) 0))
  have counter := kept.counters (snprintf TASK_COMM_LEN (lit "sh"))
  obtain ⟨-, -, -, exits⟩ := visited_inv (List.replicate (k + 1) 0)
  have length : (visited (List.replicate (k + 1) 0)).2.length = k + 1 := by
    simpa using congrArg List.length exits
  have noon : exitTime (visited (List.replicate (k + 1) 0)).2 = fun _ => 0 := by
    rw [visited_time]
    funext j
    rw [List.getElem?_replicate]
    split_ifs <;> rfl
  have first : exitsOpening (visited (List.replicate (k + 1) 0)).2 k = 0 := by
    rw [exitsOpening, noon]
    exact opening_near fun _ _ => by simp [SHORT_LIVED_BURST_WINDOW_SECONDS]
  have all : exitsCounted (visited (List.replicate (k + 1) 0)).2 k = Int32.ofNat (k + 1) := by
    rw [exitsCounted, exitsHeld, held]
    exact congrArg Int32.ofNat (by rw [show opening _ _ k = 0 from first, Nat.sub_zero])
  refine counter.trans ?_
  show windowCounter _ (ownExits _ (visited (List.replicate (k + 1) 0)).2) = _
  rw [visited_own, windowCounter, length]
  dsimp only
  rw [first, noon, all]

/-- 2^31 shells that come and go within one second. -/
theorem counter_overflows : ¬ ∀ (configs : List ProcessConfig) (steps : List ProcStep),
    ClockNondecreasing steps → Always stepExits CountersSound (.initial configs, []) steps ∧
      Guarded stepExits BurstsCounted (.initial configs, []) steps := by
  intro counted
  obtain ⟨k, overflow⟩ : ∃ k, k + 1 = 2 ^ 31 := ⟨2 ^ 31 - 1, rfl⟩
  have sorted : (List.replicate (k + 1) (0 : Time)).Pairwise (· ≤ ·) :=
    List.pairwise_replicate.mpr (.inr le_rfl)
  have sound := (counted [selftestConfig 1 false] _ (visits_clock sorted)).1.last
  obtain ⟨i, counter, -⟩ := of_lookup (crowd_counter k)
  obtain ⟨n, -, shown, -⟩ := sound.counted i (congrArg ShortLivedCounter.active counter)
  have wrapped : (Int32.ofNat (k + 1)).toInt = n :=
    (congrArg (fun c => c.count.toInt) counter).symm.trans shown
  have below : (Int32.ofNat (2 ^ 31)).toInt = -2 ^ 31 := by decide
  rw [overflow, below] at wrapped
  omega

end SysDetector.Proc
