import Mathlib.Data.List.Dedup
import SysDetector.Library.Runs
import SysDetector.Bpf.ExecCapture

/-!
# Calls of exec and the cache between them

The kernel's side of `proc.bpf.c`: threads enter `execve`, fail or succeed, or succeed in `execveat`
without passing the entry hook, and processes exit. `linked_run`: the cache holds the arguments of
the calls that no EXEC event has taken. From it follows in which histories every event has the
arguments of its own call or none (`own_args_iff`), and in which none is refused by the cache
(`never_refused_iff`).
-/

namespace SysDetector.Bpf
open CLib BpfHelpers Proc Runs

structure ExecCall where
  id : Nat
  tid : UInt32
  tgid : UInt32
  args : ExecArgs

/-- An EXEC event that was submitted, with the call that succeeded, if that came by the hook. -/
structure ExecEvent where
  call : Option ExecCall
  event : ProcEvent

structure ExecState where
  cache : ExecArgsCache
  calls : Nat
  inside : List ExecCall
  /-- The calls whose arguments were stored last for their process and are not taken yet. -/
  untaken : List ExecCall
  refused : List ExecCall
  events : List ExecEvent

inductive ExecStep
  | enter (tid : UInt32) (ctx : ExecveContext)
  | fail (tid : UInt32)
  /-- The context is that of the task; `reserved` says whether the ring buffer has room. -/
  | succeed (tid : UInt32) (ctx : ExecContext) (reserved : Bool)
  | execveat (tid : UInt32) (ctx : ExecContext) (reserved : Bool)
  | exit (tgid : UInt32)

def ExecState.initial : ExecState where
  cache := .empty
  calls := 0
  inside := []
  untaken := []
  refused := []
  events := []

def otherPids (tgid : UInt32) (calls : List ExecCall) : List ExecCall :=
  calls.filter fun call => call.tgid ≠ tgid

def callOf (tid : UInt32) (s : ExecState) : Option ExecCall :=
  s.inside.find? fun call => call.tid = tid

def entered (tid : UInt32) (ctx : ExecveContext) (s : ExecState) : ExecCall where
  id := s.calls
  tid := tid
  tgid := ctx.tgid
  args := fun i => captureArg ctx.memory ctx.argv i

def enterStep (tid : UInt32) (ctx : ExecveContext) (s : ExecState) : ExecState :=
  let call := entered tid ctx s
  { s with
    cache := handleExecve ctx s.cache
    calls := s.calls + 1
    inside := call :: s.inside
    untaken := if s.cache.HasRoom ctx.tgid then call :: otherPids ctx.tgid s.untaken else s.untaken
    refused := if s.cache.HasRoom ctx.tgid then s.refused else s.refused ++ [call] }

/-- `handle_exec`, which leaves the cache alone when the ring buffer is full. The other threads of the
process are gone by now. -/
def execStep (call : Option ExecCall) (ctx : ExecContext) (reserved : Bool) (s : ExecState) :
    ExecState :=
  let s := { s with inside := otherPids ctx.tgid s.inside }
  if reserved then
    { s with
      cache := (getExecInfo ctx s.cache).2
      untaken := otherPids ctx.tgid s.untaken
      events := s.events ++ [⟨call, (getExecInfo ctx s.cache).1⟩] }
  else s

def step (s : ExecState) : ExecStep → ExecState
  | .enter tid ctx => if callOf tid s = none then enterStep tid ctx s else s
  | .fail tid => { s with inside := s.inside.filter fun call => call.tid ≠ tid }
  | .succeed tid ctx reserved =>
      match callOf tid s with
      | some call => execStep (some call) { ctx with tgid := call.tgid } reserved s
      | none => s
  | .execveat tid ctx reserved =>
      if callOf tid s = none then execStep none ctx reserved s else s
  | .exit tgid => { s with inside := otherPids tgid s.inside }

/-! ## What the cache holds -/

def entryOf (call : ExecCall) : UInt32 × ExecArgs := (call.tgid, call.args)

def Linked (s : ExecState) : Prop := s.cache.entries = s.untaken.map entryOf

theorem entries_delete {cache : ExecArgsCache} {calls : List ExecCall}
    (linked : cache.entries = calls.map entryOf) (tgid : UInt32) :
    (cache.delete tgid).entries = (otherPids tgid calls).map entryOf := by
  show cache.entries.filter (fun entry => entry.1 ≠ tgid) = _
  rw [linked, List.filter_map]
  rfl

theorem hasRoom_iff {s : ExecState} (linked : Linked s) (tgid : UInt32) :
    s.cache.HasRoom tgid ↔ (otherPids tgid s.untaken).length < EXEC_ARGS_MAX_ENTRIES := by
  rw [HashMap.HasRoom, entries_delete linked, List.length_map]

theorem linked_step (s : ExecState) (input : ExecStep) (linked : Linked s) :
    Linked (step s input) := by
  have exec : ∀ call ctx reserved, Linked (execStep call ctx reserved s) := by
    intro call ctx reserved
    cases reserved with
    | true => exact entries_delete linked ctx.tgid
    | false => exact linked
  cases input with
  | enter tid ctx =>
      rw [step]
      split_ifs
      · by_cases room : s.cache.HasRoom ctx.tgid
        · rw [Linked, enterStep, if_pos room, handleExecve]
          dsimp only
          rw [HashMap.entries_update room, entries_delete linked]
          rfl
        · rw [Linked, enterStep, if_neg room, handleExecve]
          dsimp only
          rw [HashMap.update_of_full room]
          exact linked
      · exact linked
  | fail tid => exact linked
  | succeed tid ctx reserved =>
      rw [step]
      split
      · exact exec _ _ reserved
      · exact linked
  | execveat tid ctx reserved =>
      rw [step]
      split_ifs
      · exact exec none ctx reserved
      · exact linked
  | exit tgid => exact linked

theorem linked_initial : Linked .initial := rfl

theorem linked_run (steps : List ExecStep) : Always step Linked .initial steps :=
  always_of_step step linked_step linked_initial steps

def untakenOf (tgid : UInt32) (s : ExecState) : Option ExecCall :=
  s.untaken.find? fun call => call.tgid = tgid

theorem getExecInfo_argv {s : ExecState} (linked : Linked s) (ctx : ExecContext) :
    (getExecInfo ctx s.cache).1.argv = ((untakenOf ctx.tgid s).map ExecCall.args).getD noArgs := by
  unfold getExecInfo HashMap.lookup untakenOf
  rw [linked, List.find?_map, Option.map_map]
  rfl

def reported (s : ExecState) : ExecStep → Option (Option ExecCall × ExecContext)
  | .succeed tid ctx true => (callOf tid s).map fun call => (some call, { ctx with tgid := call.tgid })
  | .execveat tid ctx true => if callOf tid s = none then some (none, ctx) else none
  | _ => none

def eventOf (s : ExecState) (exec : Option ExecCall × ExecContext) : ExecEvent :=
  ⟨exec.1, (getExecInfo exec.2 s.cache).1⟩

theorem events_step (s : ExecState) (input : ExecStep) :
    (step s input).events = s.events ++ ((reported s input).map (eventOf s)).toList := by
  have unreported : ∀ call ctx, (execStep call ctx false s).events = s.events := fun _ _ => rfl
  cases input with
  | enter tid ctx =>
      rw [step]
      split_ifs <;> simp [enterStep, reported]
  | fail tid => simp [step, reported]
  | succeed tid ctx reserved =>
      rw [step]
      cases found : callOf tid s with
      | none => cases reserved <;> simp [reported, found]
      | some call =>
          cases reserved with
          | true => simp [reported, found, execStep, eventOf]
          | false => simp [reported, unreported]
  | execveat tid ctx reserved =>
      rw [step]
      cases reserved with
      | true => split_ifs with free <;> simp [reported, free, execStep, eventOf]
      | false => split_ifs <;> simp [reported, unreported]
  | exit tgid => simp [step, reported]

theorem forall_events_step {s : ExecState} {Q : ExecEvent → Prop} (before : ∀ exec ∈ s.events, Q exec)
    (input : ExecStep) : (∀ exec ∈ (step s input).events, Q exec) ↔
      ∀ exec, reported s input = some exec → Q (eventOf s exec) := by
  rw [events_step]
  simp only [List.mem_append, or_imp, forall_and, Option.mem_toList,
    Option.map_eq_some_iff]
  constructor
  · intro all exec isReported
    exact all.2 _ ⟨exec, isReported, rfl⟩
  · rintro all
    refine ⟨before, ?_⟩
    rintro _ ⟨exec, isReported, rfl⟩
    exact all exec isReported

/-! ## Events with the arguments of their own call -/

def OwnArgs (exec : ExecEvent) : Prop :=
  exec.event.argv = noArgs ∨ ∃ call, exec.call = some call ∧ exec.event.argv = call.args

def AllOwn (s : ExecState) : Prop := ∀ exec ∈ s.events, OwnArgs exec

/-- When an exec is reported, the call whose arguments were stored last for the process, and taken by
no event, is the one that succeeds, or has the same vector or an empty one. -/
def LastIsOwn (s : ExecState) (input : ExecStep) : Prop :=
  ∀ call ctx, reported s input = some (call, ctx) → ∀ last, untakenOf ctx.tgid s = some last →
    last.args = noArgs ∨ ∃ own, call = some own ∧ last.args = own.args

theorem ownArgs_iff {s : ExecState} (linked : Linked s) (call : Option ExecCall)
    (ctx : ExecContext) : OwnArgs (eventOf s (call, ctx)) ↔
      ∀ last, untakenOf ctx.tgid s = some last →
        last.args = noArgs ∨ ∃ own, call = some own ∧ last.args = own.args := by
  unfold OwnArgs eventOf
  rw [getExecInfo_argv linked]
  cases untakenOf ctx.tgid s with
  | none => simp
  | some last => simp

theorem allOwn_step_iff {s : ExecState} (linked : Linked s) (own : AllOwn s) (input : ExecStep) :
    AllOwn (step s input) ↔ LastIsOwn s input := by
  unfold AllOwn LastIsOwn
  rw [forall_events_step own, Prod.forall]
  refine forall₃_congr fun call ctx _ => ?_
  exact ownArgs_iff linked call ctx

/-- The histories in which every EXEC event has the arguments of the very call that succeeded, or
none. -/
theorem own_args_iff (steps : List ExecStep) :
    Always step AllOwn .initial steps ↔ Guarded step LastIsOwn .initial steps := by
  have start : Linked .initial ∧ AllOwn .initial := by
    refine ⟨linked_initial, ?_⟩
    intro exec member
    cases member
  have legal : Guarded step (fun _ _ => True) .initial steps := fun _ _ _ _ => trivial
  have strong : ∀ s, Linked s ∧ AllOwn s → AllOwn s := fun s inv => inv.2
  refine always_iff_guarded step strong ?_ ?_ start legal
  · intro s input inv _ last
    exact ⟨linked_step s input inv.1, (allOwn_step_iff inv.1 inv.2 input).mpr last⟩
  · intro s input inv _ own
    exact (allOwn_step_iff inv.1 inv.2 input).mp own

/-! A call that fails, and then an `execveat` of the same process. -/

def execveatContext : ExecContext where
  tgid := 7
  parentTgid := 1
  comm := snprintf TASK_COMM_LEN (lit "sh")
  filename := none
  filenameLen := 0
  stackId := 0

theorem stale_args_reported : ¬ ∀ steps : List ExecStep, Always step AllOwn .initial steps := by
  intro own
  let failed := run step .initial [.enter 7 shellContext, .fail 7]
  have stale := (own [.enter 7 shellContext, .fail 7, .execveat 7 execveatContext true]).last step
    (eventOf failed (none, execveatContext)) List.mem_cons_self
  rcases stale with empty | ⟨call, byHook, -⟩
  · have text := congrArg (fun args : ExecArgs => (args 0).text) empty
    revert text
    decide
  · cases byHook

/-! ## No call refused -/

def AllCarried (s : ExecState) : Prop :=
  s.refused = [] ∧ ∀ exec ∈ s.events, ∀ call, exec.call = some call → exec.event.argv = call.args

/-- When a process enters, fewer than the cache's size of others have arguments stored that no event
has taken; and the call that is reported is the last of its process, or has the same vector. -/
structure RoomAndLast (s : ExecState) (input : ExecStep) : Prop where
  room : ∀ tid ctx, input = .enter tid ctx → callOf tid s = none →
    (otherPids ctx.tgid s.untaken).length < EXEC_ARGS_MAX_ENTRIES
  last : ∀ call ctx, reported s input = some (some call, ctx) →
    ∀ last, untakenOf ctx.tgid s = some last → last.args = call.args

def InsideStored (s : ExecState) : Prop :=
  ∀ call ∈ s.inside, ∃ last, untakenOf call.tgid s = some last

theorem reported_inside {s : ExecState} {input : ExecStep} {call : ExecCall} {ctx : ExecContext}
    (isReported : reported s input = some (some call, ctx)) :
    call ∈ s.inside ∧ ctx.tgid = call.tgid := by
  unfold reported at isReported
  split at isReported
  · obtain ⟨found, isFound, same⟩ := Option.map_eq_some_iff.mp isReported
    cases same
    exact ⟨List.mem_of_find?_eq_some isFound, rfl⟩
  · rw [Option.ite_none_right_eq_some] at isReported
    cases isReported.2
  · cases isReported

theorem find_otherPids {tgid other : UInt32} (different : other ≠ tgid) (calls : List ExecCall) :
    (otherPids tgid calls).find? (fun call => call.tgid = other) =
      calls.find? fun call => call.tgid = other := by
  unfold otherPids
  rw [List.find?_filter]
  congr 1
  funext call
  by_cases same : call.tgid = other
  · simp [same, different]
  · simp [same]

theorem mem_otherPids {tgid : UInt32} {calls : List ExecCall} {call : ExecCall}
    (member : call ∈ otherPids tgid calls) : call ∈ calls ∧ call.tgid ≠ tgid := by
  simpa [otherPids] using member

theorem refused_step_iff {s : ExecState} (linked : Linked s) (none : s.refused = [])
    (input : ExecStep) : (step s input).refused = [] ↔
      ∀ tid ctx, input = .enter tid ctx → callOf tid s = .none →
        (otherPids ctx.tgid s.untaken).length < EXEC_ARGS_MAX_ENTRIES := by
  have exec : ∀ call ctx reserved, (execStep call ctx reserved s).refused = [] := by
    intro call ctx reserved
    cases reserved <;> exact none
  cases input with
  | enter tid ctx =>
      rw [step]
      simp only [← hasRoom_iff linked, ExecStep.enter.injEq, and_imp]
      split_ifs with free
      · simp only [enterStep, none]
        split_ifs with room
        · apply iff_of_true rfl
          rintro _ _ rfl rfl _
          exact room
        · refine iff_of_false (by simp) fun allowed => room (allowed tid ctx rfl rfl free)
      · apply iff_of_true none
        rintro _ _ rfl rfl isFree
        exact absurd isFree free
  | fail tid => simp [step, none]
  | succeed tid ctx reserved =>
      rw [step]
      split <;> simp [exec, none]
  | execveat tid ctx reserved =>
      rw [step]
      split_ifs <;> simp [exec, none]
  | exit tgid => simp [step, none]

theorem insideStored_exec {s : ExecState} (stored : InsideStored s) (call : Option ExecCall)
    (ctx : ExecContext) (reserved : Bool) : InsideStored (execStep call ctx reserved s) := by
  intro other member
  have inside : other ∈ otherPids ctx.tgid s.inside := by
    cases reserved <;> exact member
  obtain ⟨isInside, different⟩ := mem_otherPids inside
  obtain ⟨last, found⟩ := stored other isInside
  refine ⟨last, ?_⟩
  cases reserved with
  | true => exact (find_otherPids different s.untaken).trans found
  | false => exact found

theorem insideStored_step {s : ExecState} (stored : InsideStored s) (input : ExecStep)
    (room : ∀ tid ctx, input = .enter tid ctx → callOf tid s = none →
      s.cache.HasRoom ctx.tgid) : InsideStored (step s input) := by
  cases input with
  | enter tid ctx =>
      rw [step]
      split_ifs with free
      · intro call member
        have hasRoom := room tid ctx rfl free
        have untaken : (enterStep tid ctx s).untaken =
            entered tid ctx s :: otherPids ctx.tgid s.untaken := if_pos hasRoom
        rw [untakenOf, untaken, List.find?_cons]
        by_cases own : ctx.tgid = call.tgid
        · exact ⟨entered tid ctx s, by simp [entered, own]⟩
        · rcases List.mem_cons.mp member with rfl | earlier
          · exact absurd rfl own
          · obtain ⟨last, found⟩ := stored call earlier
            refine ⟨last, ?_⟩
            rw [untakenOf] at found
            rw [find_otherPids (Ne.symm own)]
            simpa [entered, own] using found
      · exact stored
  | fail tid => exact fun call member => stored call (List.mem_of_mem_filter member)
  | succeed tid ctx reserved =>
      rw [step]
      split
      · exact insideStored_exec stored _ _ reserved
      · exact stored
  | execveat tid ctx reserved =>
      rw [step]
      split_ifs
      · exact insideStored_exec stored none ctx reserved
      · exact stored
  | exit tgid => exact fun call member => stored call (List.mem_of_mem_filter member)

theorem carried_iff {s : ExecState} (linked : Linked s) (stored : InsideStored s)
    {input : ExecStep} {call : ExecCall} {ctx : ExecContext}
    (isReported : reported s input = some (some call, ctx)) :
    (eventOf s (some call, ctx)).event.argv = call.args ↔
      ∀ last, untakenOf ctx.tgid s = some last → last.args = call.args := by
  obtain ⟨inside, tgid⟩ := reported_inside isReported
  obtain ⟨last, found⟩ := stored call inside
  rw [← tgid] at found
  show (getExecInfo ctx s.cache).1.argv = call.args ↔ _
  rw [getExecInfo_argv linked, found]
  simp

theorem allCarried_step_iff {s : ExecState} (linked : Linked s) (stored : InsideStored s)
    (carried : AllCarried s) (input : ExecStep) :
    AllCarried (step s input) ↔ RoomAndLast s input := by
  unfold AllCarried
  rw [refused_step_iff linked carried.1, forall_events_step carried.2]
  constructor
  · rintro ⟨room, events⟩
    refine ⟨room, fun call ctx isReported => ?_⟩
    exact (carried_iff linked stored isReported).mp (events _ isReported call rfl)
  · rintro ⟨room, last⟩
    refine ⟨room, ?_⟩
    rintro ⟨_, ctx⟩ isReported call rfl
    exact (carried_iff linked stored isReported).mpr (last call ctx isReported)

/-- The histories in which the cache refuses no call and every event of a call that came by the
hook has its arguments. -/
theorem never_refused_iff (steps : List ExecStep) :
    Always step AllCarried .initial steps ↔ Guarded step RoomAndLast .initial steps := by
  have start : Linked .initial ∧ InsideStored .initial ∧ AllCarried .initial := by
    refine ⟨linked_initial, ?_, rfl, ?_⟩
    · intro call member
      cases member
    · intro exec member
      cases member
  have legal : Guarded step (fun _ _ => True) .initial steps := fun _ _ _ _ => trivial
  have strong : ∀ s, Linked s ∧ InsideStored s ∧ AllCarried s → AllCarried s :=
    fun s inv => inv.2.2
  refine always_iff_guarded step strong ?_ ?_ start legal
  · rintro s input ⟨linked, stored, carried⟩ _ allowed
    refine ⟨linked_step s input linked, ?_, (allCarried_step_iff linked stored carried input).mpr
      allowed⟩
    apply insideStored_step stored
    intro tid ctx isEnter free
    exact (hasRoom_iff linked ctx.tgid).mpr (allowed.room tid ctx isEnter free)
  · rintro s input ⟨linked, stored, carried⟩ _ next
    exact (allCarried_step_iff linked stored carried input).mp next

/-! ## Failed calls fill the cache -/

def InsideBound (s : ExecState) : Prop :=
  (s.inside.map ExecCall.tgid).dedup.length ≤ EXEC_ARGS_MAX_ENTRIES

def unreadable (tgid : UInt32) : ExecveContext := ⟨tgid, 0, fun _ => none⟩

def failedCall (n : Nat) : List ExecStep :=
  [.enter (UInt32.ofNat n) (unreadable (UInt32.ofNat n)), .fail (UInt32.ofNat n)]

structure Leaked (n : Nat) (s : ExecState) : Prop where
  linked : Linked s
  inside : s.inside = []
  refused : s.refused = []
  length : s.untaken.length = n
  below : ∀ call ∈ s.untaken, call.tgid.toNat < n

theorem insideBound_of_length {s : ExecState} (short : s.inside.length ≤ 1) : InsideBound s := by
  have dedup := (List.dedup_sublist (s.inside.map ExecCall.tgid)).length_le
  rw [List.length_map] at dedup
  exact (dedup.trans short).trans (by decide)

theorem Leaked.otherPids {n : Nat} {s : ExecState} (leaked : Leaked n s)
    (small : n ≤ EXEC_ARGS_MAX_ENTRIES) : otherPids (UInt32.ofNat n) s.untaken = s.untaken := by
  apply List.filter_eq_self.mpr
  intro call member
  have below := leaked.below call member
  rw [decide_eq_true_eq]
  rintro same
  rw [same, UInt32.toNat_ofNat_of_lt' (small.trans_lt (by decide))] at below
  exact lt_irrefl n below

theorem Leaked.next {n : Nat} {s : ExecState} (leaked : Leaked n s)
    (small : n < EXEC_ARGS_MAX_ENTRIES) :
    Leaked (n + 1) (run step s (failedCall n)) ∧ Always step InsideBound s (failedCall n) := by
  let tid := UInt32.ofNat n
  have others := leaked.otherPids small.le
  have free : callOf tid s = none := by rw [callOf, leaked.inside]; rfl
  have room : s.cache.HasRoom tid := by
    rw [hasRoom_iff leaked.linked, others, leaked.length]
    exact small
  have entering : step s (.enter tid (unreadable tid)) = enterStep tid (unreadable tid) s :=
    if_pos free
  have inside : (enterStep tid (unreadable tid) s).inside = [entered tid (unreadable tid) s] := by
    rw [enterStep, leaked.inside]
  have untaken : (enterStep tid (unreadable tid) s).untaken =
      entered tid (unreadable tid) s :: s.untaken := by
    rw [← others]
    exact if_pos room
  have value : tid.toNat = n := UInt32.toNat_ofNat_of_lt' (small.trans (by decide))
  have failed : (step (enterStep tid (unreadable tid) s) (.fail tid)).inside = [] := by
    rw [step]
    dsimp only
    rw [inside]
    simp [entered]
  constructor
  · rw [failedCall, run_cons, run_cons, run_nil, entering]
    refine ⟨linked_step _ _ (entering ▸ linked_step s _ leaked.linked), failed, ?_, ?_, ?_⟩
    · exact (if_pos room).trans leaked.refused
    · show (enterStep tid (unreadable tid) s).untaken.length = n + 1
      rw [untaken, List.length_cons, leaked.length]
    · show ∀ call ∈ (enterStep tid (unreadable tid) s).untaken, call.tgid.toNat < n + 1
      rw [untaken, List.forall_mem_cons]
      refine ⟨value.trans_lt n.lt_succ_self, fun call member => ?_⟩
      exact (leaked.below call member).trans n.lt_succ_self
  · rw [failedCall, always_cons, always_cons, always_nil, entering]
    refine ⟨insideBound_of_length ?_, insideBound_of_length ?_, insideBound_of_length ?_⟩
    · rw [leaked.inside]
      exact Nat.zero_le 1
    · rw [inside]
      exact le_rfl
    · rw [failed]
      exact Nat.zero_le 1

theorem leaked_run (n : Nat) (small : n ≤ EXEC_ARGS_MAX_ENTRIES) :
    Leaked n (run step .initial ((List.range n).flatMap failedCall)) ∧
      Always step InsideBound .initial ((List.range n).flatMap failedCall) := by
  induction n with
  | zero =>
      refine ⟨⟨linked_initial, rfl, rfl, rfl, fun call member => by cases member⟩, ?_⟩
      rw [List.range_zero, List.flatMap_nil, always_nil]
      exact insideBound_of_length (Nat.zero_le 1)
  | succ n ih =>
      obtain ⟨leaked, bounded⟩ := ih (Nat.le_of_succ_le small)
      obtain ⟨next, boundedNext⟩ := leaked.next small
      rw [List.range_succ, List.flatMap_append, List.flatMap_singleton, run_append, always_append]
      exact ⟨next, bounded, boundedNext⟩

theorem Leaked.refuses {n : Nat} {s : ExecState} (leaked : Leaked n s)
    (full : n = EXEC_ARGS_MAX_ENTRIES) :
    let entering := step s (.enter (UInt32.ofNat n) (unreadable (UInt32.ofNat n)))
    entering.refused ≠ [] ∧ InsideBound entering := by
  have free : callOf (UInt32.ofNat n) s = none := by rw [callOf, leaked.inside]; rfl
  constructor
  · intro none
    have room := (refused_step_iff leaked.linked leaked.refused _).mp none _ _ rfl free
    rw [unreadable, leaked.otherPids full.le, leaked.length, full] at room
    exact lt_irrefl _ room
  · apply insideBound_of_length
    rw [step, if_pos free, enterStep, leaked.inside]
    exact le_rfl

theorem failed_calls_fill_cache : ¬ ∀ steps : List ExecStep,
    Always step InsideBound .initial steps → Always step AllCarried .initial steps := by
  intro carried
  obtain ⟨n, full⟩ : ∃ n, n = EXEC_ARGS_MAX_ENTRIES := ⟨_, rfl⟩
  obtain ⟨leaked, bounded⟩ := leaked_run n full.le
  obtain ⟨refused, boundedLast⟩ := leaked.refuses full
  have all := carried ((List.range n).flatMap failedCall ++
    [.enter (UInt32.ofNat n) (unreadable (UInt32.ofNat n))])
  rw [always_append, always_append, always_cons, always_cons, always_nil, always_nil] at all
  obtain ⟨-, -, none, -⟩ := all ⟨bounded, bounded.last step, boundedLast⟩
  exact refused none

end SysDetector.Bpf
