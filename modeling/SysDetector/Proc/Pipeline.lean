import SysDetector.Library.Ranking
import SysDetector.Library.Refinement
import SysDetector.Bpf.ProgramRuns
import SysDetector.Proc.Frames
import SysDetector.Proc.Worker

/-!
# From the tracepoints to the worker

The programs of `proc.bpf.c` write their events in place into the ring buffer, on several cpus at
once, and the main loop of the worker hands them over between its commands. The ring buffer is the
kernel's: a reservation fails when it is full, and the reader gets the records in the order of their
reservation, up to the first that is not submitted.
-/

namespace SysDetector.Proc
open CLib Runs Bpf Reservations

/-! ## The programs and the main loop -/

inductive LoopPlace
  | receiving
  | polling
deriving DecidableEq

/-- The programs are at their cpus. -/
structure Pipeline where
  cache : ExecArgsCache
  events : Buffer Nat Handler ProcEvent
  place : LoopPlace
  worker : ProcState

def Pipeline.start (configs : List ProcessConfig) : Pipeline where
  cache := .empty
  events := .empty
  place := .receiving
  worker := .initial configs

inductive PipelineStep
  | execve (ctx : ExecveContext)
  | enter (cpu : Nat) (handler : Handler)
  | leave (cpu : Nat)
  | receive (env : CommandEnv) (message : Option Bytes)
  | poll (now : Time)
  | monitor (env : MonitorEnv)

/-- The `continue` of the loop is for commands without a known option. -/
def refused (message : Bytes) : Bool :=
  message ≠ [] && match procSplitSpace (cstr message) with
    | [] => true
    | opt :: _ => !procIsValidOpt opt

def leaveProgram (cpu : Nat) (s : Pipeline) (program : Claim Handler) : Pipeline :=
  { s with
    cache := (program.producer.info s.cache).2
    events := s.events.submit cpu program.position (program.producer.info s.cache).1 }

/-- One turn of `ring_buffer__poll`, which ends where nothing is submitted or `handle_event` fails. -/
def pollEvent (now : Time) (s : Pipeline) : Pipeline :=
  match s.events.take with
  | some (e, events) =>
      { s with
        events := events
        place := if (handleEvent now e s.worker).1 < 0 then .receiving else .polling
        worker := (handleEvent now e s.worker).2 }
  | none => { s with place := .receiving }

def pipelineStep (capacity : Nat) (s : Pipeline) : PipelineStep → Pipeline
  | .execve ctx => { s with cache := handleExecve ctx s.cache }
  | .enter cpu handler =>
      if (s.events.writing cpu).isNone then
        { s with events := s.events.reserve capacity cpu handler }
      else s
  | .leave cpu => (s.events.writing cpu).elim s (leaveProgram cpu s)
  | .receive env message =>
      if s.place = .receiving then
        match message with
        | some text =>
            { s with
              place := if refused text then .receiving else .polling
              worker := handleMessage env text s.worker }
        | none => { s with place := .polling }
      else s
  | .poll now => if s.place = .polling then pollEvent now s else s
  | .monitor env => { s with worker := monitorStep env s.worker }

/-! ## Order -/

section Steps
variable {capacity : Nat} {s : Pipeline}

def programRuns (s : Pipeline) : PipelineStep → List ProgramRun
  | .execve ctx => [.execve ctx]
  | .leave cpu => ((s.events.writing cpu).map ProgramRun.event).toList
  | .enter _ _ | .receive _ _ | .poll _ | .monitor _ => []

def Wrote (programs : List ProgramRun) (program : Claim Handler) (e : ProcEvent) : Prop :=
  ∃ past later, programs = past ++ .event program :: later ∧
    e = (program.producer.info (run runProgram .empty past)).1

theorem Wrote.append {programs : List ProgramRun} {program : Claim Handler} {e : ProcEvent}
    (wrote : Wrote programs program e) (more : List ProgramRun) :
    Wrote (programs ++ more) program e := by
  obtain ⟨past, later, rfl, same⟩ := wrote
  exact ⟨past, later ++ more, by simp, same⟩

structure Written (s : Pipeline) (past : List ProgramRun) : Prop where
  cache : s.cache = run runProgram .empty past
  orderly : Orderly (Wrote past) s.events

theorem Written.leave {past : List ProgramRun} (written : Written s past) {cpu : Nat}
    {program : Claim Handler} (own : s.events.writing cpu = some program) :
    Written (leaveProgram cpu s program) (past ++ [.event program]) := by
  refine ⟨?_, ?_⟩
  · rw [run_append, ← written.cache]
    rfl
  · have before := written.orderly.mono fun _ _ wrote => wrote.append [.event program]
    refine before.submit own ⟨past, [], rfl, ?_⟩
    rw [← written.cache]

theorem written_step (past : List ProgramRun) (input : PipelineStep) (written : Written s past) :
    Written (pipelineStep capacity s input) (past ++ programRuns s input) := by
  have unchanged : ∀ t : Pipeline, t.cache = s.cache → Orderly (Wrote past) t.events →
      Written t (past ++ []) := by
    intro t cache orderly
    rw [List.append_nil]
    exact ⟨cache.trans written.cache, orderly⟩
  unfold pipelineStep
  cases input with
  | execve ctx =>
      refine ⟨?_, written.orderly.mono fun _ _ wrote => wrote.append _⟩
      rw [programRuns, run_append, ← written.cache]
      rfl
  | enter cpu handler =>
      dsimp only
      split_ifs with free
      · exact unchanged _ rfl
          (written.orderly.reserve (Option.isNone_iff_eq_none.mp free) capacity handler)
      · exact unchanged s rfl written.orderly
  | leave cpu =>
      dsimp only [programRuns]
      cases own : s.events.writing cpu with
      | none => exact unchanged s rfl written.orderly
      | some program => exact written.leave own
  | receive env message =>
      dsimp only
      split_ifs
      · cases message <;> exact unchanged _ rfl written.orderly
      · exact unchanged s rfl written.orderly
  | poll now =>
      dsimp only
      split_ifs
      · unfold pollEvent
        cases taken : s.events.take with
        | none => exact unchanged _ rfl written.orderly
        | some head => exact unchanged _ rfl (written.orderly.take taken)
      · exact unchanged s rfl written.orderly
  | monitor env => exact unchanged _ rfl written.orderly

def workerSteps (s : Pipeline) : PipelineStep → List ProcStep
  | .receive env message =>
      if s.place = .receiving then (message.map (ProcStep.message env)).toList else []
  | .poll now =>
      if s.place = .polling then
        (s.events.take.map fun head => ProcStep.event now head.1).toList
      else []
  | .monitor env => [.monitor env]
  | .execve _ | .enter _ _ | .leave _ => []

theorem pipelineStep_worker (input : PipelineStep) :
    (pipelineStep capacity s input).worker = run step s.worker (workerSteps s input) := by
  unfold pipelineStep workerSteps
  cases input with
  | execve ctx => rfl
  | enter cpu handler =>
      dsimp only
      split_ifs <;> rfl
  | leave cpu =>
      dsimp only
      cases s.events.writing cpu <;> rfl
  | receive env message =>
      dsimp only
      split_ifs
      · cases message <;> rfl
      · rfl
  | poll now =>
      dsimp only
      split_ifs
      · unfold pollEvent
        cases s.events.take <;> rfl
      · rfl
  | monitor env => rfl

def eventOf : ProcStep → Option ProcEvent
  | .event _ e => some e
  | .message _ _ | .monitor _ => none

theorem pipelineStep_handled (input : PipelineStep) :
    (pipelineStep capacity s input).events.handled =
      s.events.handled ++ (workerSteps s input).filterMap eventOf := by
  have none : ∀ events : Buffer Nat Handler ProcEvent, events.handled = s.events.handled →
      events.handled = s.events.handled ++ ([] : List ProcStep).filterMap eventOf :=
    fun _ same => by rw [same, List.filterMap_nil, List.append_nil]
  unfold pipelineStep workerSteps
  cases input with
  | execve ctx => exact none _ rfl
  | enter cpu handler =>
      dsimp only
      split_ifs
      · exact none _ (reserve_handled _ _ _ _)
      · exact none _ rfl
  | leave cpu =>
      dsimp only
      cases s.events.writing cpu <;> exact none _ rfl
  | receive env message =>
      dsimp only
      split_ifs
      · cases message <;> exact none _ rfl
      · exact none _ rfl
  | poll now =>
      dsimp only
      split_ifs
      · unfold pollEvent
        cases taken : s.events.take with
        | none => exact none _ rfl
        | some head => exact take_handled taken
      · exact none _ rfl
  | monitor env => exact none _ rfl

theorem run_handled (s : Pipeline) (steps : List PipelineStep) :
    (run (pipelineStep capacity) s steps).events.handled = s.events.handled ++
      (translated (pipelineStep capacity) workerSteps s steps).filterMap eventOf := by
  induction steps generalizing s with
  | nil => exact (List.append_nil _).symm
  | cons input rest ih =>
      rw [run_cons, ih, pipelineStep_handled, translated, List.filterMap_append, List.append_assoc]

theorem handleEvent_result (handler : Handler) (cache : ExecArgsCache) (now : Time)
    (worker : ProcState) : (handleEvent now (handler.info cache).1 worker).1 = 0 := by
  cases handler <;> (unfold handleEvent; split_ifs <;> rfl)

theorem poll_ends {programs : List ProgramRun} (orderly : Orderly (Wrote programs) s.events)
    (polling : s.place = .polling) {now : Time}
    (ended : (pipelineStep capacity s (.poll now)).place = .receiving) :
    s.events.slots = [] ∨ ∃ cpu program, s.events.writing cpu = some program ∧
      program.position = s.events.taken := by
  apply orderly.take_eq_none
  cases taken : s.events.take with
  | none => rfl
  | some head =>
      have last : head.2.handled[s.events.handled.length]? = some head.1 := by
        rw [take_handled taken, List.getElem?_concat_length]
      obtain ⟨handler, -, past, -, -, wrote⟩ := (orderly.take taken).handled_made last
      have result := handleEvent_result handler (run runProgram .empty past) now s.worker
      rw [← wrote] at result
      simp [pipelineStep, polling, pollEvent, taken, result] at ended

end Steps

def Refuses : PipelineStep → Prop
  | .receive _ message => ∃ text, message = some text ∧ refused text = true
  | _ => True

def entered (s : Pipeline) : PipelineStep → Nat
  | .enter cpu _ => (s.events.writing cpu).isNone.toNat
  | _ => 0

structure Starved (capacity entered : Nat) (s t : Pipeline) : Prop where
  place : t.place = .receiving
  handled : t.events.handled = s.events.handled
  slots : t.events.slots.length = min capacity (s.events.slots.length + entered)
  lost : t.events.lost.length =
    s.events.lost.length + (s.events.slots.length + entered - capacity)

theorem starved_step {capacity : Nat} {s : Pipeline} (receiving : s.place = .receiving)
    (fits : s.events.slots.length ≤ capacity) {input : PipelineStep} (refuses : Refuses input) :
    Starved capacity (entered s input) s (pipelineStep capacity s input) := by
  have kept : ∀ t : Pipeline, t.place = .receiving → t.events.handled = s.events.handled →
      t.events.slots.length = s.events.slots.length → t.events.lost = s.events.lost →
        Starved capacity 0 s t := by
    intro t place handled slots lost
    refine ⟨place, handled, ?_, ?_⟩
    · omega
    · rw [lost]
      omega
  cases input with
  | execve ctx => exact kept _ receiving rfl rfl rfl
  | enter cpu handler =>
      unfold pipelineStep entered
      dsimp only
      cases (s.events.writing cpu).isNone with
      | false => exact kept s receiving rfl rfl rfl
      | true =>
          obtain ⟨slots, lost⟩ := reserve_lengths fits cpu handler
          exact ⟨receiving, reserve_handled _ _ _ _, slots, lost⟩
  | leave cpu =>
      unfold pipelineStep entered
      dsimp only
      cases s.events.writing cpu with
      | none => exact kept s receiving rfl rfl rfl
      | some program =>
          refine kept _ receiving rfl ?_ rfl
          exact List.length_set
  | receive env message =>
      obtain ⟨text, rfl, refused⟩ := refuses
      unfold pipelineStep
      dsimp only
      rw [if_pos receiving, if_pos refused]
      exact kept _ rfl rfl rfl rfl
  | poll now =>
      unfold pipelineStep
      have idle : s.place ≠ .polling := by simp [receiving]
      dsimp only
      rw [if_neg idle]
      exact kept s receiving rfl rfl rfl
  | monitor env => exact kept _ receiving rfl rfl rfl

theorem pipelineStep_fits {capacity : Nat} {s : Pipeline} (fits : s.events.slots.length ≤ capacity)
    (input : PipelineStep) : (pipelineStep capacity s input).events.slots.length ≤ capacity := by
  unfold pipelineStep
  cases input with
  | enter cpu handler =>
      dsimp only
      split_ifs
      · exact (reserve_lengths fits cpu handler).1.le.trans (Nat.min_le_left _ _)
      · exact fits
  | leave cpu =>
      dsimp only
      cases s.events.writing cpu with
      | none => exact fits
      | some program => exact (List.length_set).le.trans fits
  | receive env message =>
      dsimp only
      split_ifs
      · cases message <;> exact fits
      · exact fits
  | poll now =>
      dsimp only
      split_ifs
      · unfold pollEvent
        cases taken : s.events.take with
        | none => exact fits
        | some head =>
            have slots := take_slots taken
            dsimp only
            omega
      · exact fits
  | _ => exact fits

theorem starved_run {capacity : Nat} (steps : List PipelineStep) {s : Pipeline}
    (receiving : s.place = .receiving) (fits : s.events.slots.length ≤ capacity)
    (refuses : ∀ input ∈ steps, Refuses input) :
    Starved capacity (total (pipelineStep capacity) entered s steps) s
      (run (pipelineStep capacity) s steps) := by
  induction steps generalizing s with
  | nil =>
      refine ⟨receiving, rfl, ?_, ?_⟩
      · rw [total, run_nil]
        omega
      · rw [total, run_nil]
        omega
  | cons input rest ih =>
      have first := starved_step receiving fits (refuses input List.mem_cons_self)
      have small : (pipelineStep capacity s input).events.slots.length ≤ capacity := by
        rw [first.slots]
        exact Nat.min_le_left _ _
      have later := ih first.place small fun other member => refuses other (List.mem_cons_of_mem _ member)
      rw [run_cons]
      refine ⟨later.place, later.handled.trans first.handled, ?_, ?_⟩
      · rw [later.slots, first.slots, total]
        omega
      · rw [later.lost, first.lost, first.slots, total]
        omega

/-- As long as the commands that are received are refused, no event is handled, and of the programs
that run meanwhile just as many get a slot as were free. -/
theorem refused_commands_starve (capacity : Nat) (configs : List ProcessConfig)
    (past steps : List PipelineStep)
    (receiving : (run (pipelineStep capacity) (.start configs) past).place = .receiving)
    (refuses : ∀ input ∈ steps, Refuses input) :
    let s := run (pipelineStep capacity) (.start configs) past
    let t := run (pipelineStep capacity) s steps
    let entered := total (pipelineStep capacity) entered s steps
    t.place = .receiving ∧ t.events.handled = s.events.handled ∧
      t.events.slots.length = min capacity (s.events.slots.length + entered) ∧
      t.events.lost.length =
        s.events.lost.length + (s.events.slots.length + entered - capacity) := by
  intro s t entered
  have fits : s.events.slots.length ≤ capacity :=
    run_of_step (pipelineStep capacity) (J := fun s => s.events.slots.length ≤ capacity)
      (fun _ input fits => pipelineStep_fits fits input) (Nat.zero_le _) past
  have starved := starved_run steps receiving fits refuses
  exact ⟨starved.place, starved.handled, starved.slots, starved.lost⟩

def shellFork (childPid : UInt32) : Handler :=
  .fork ⟨childPid, 1, snprintf TASK_COMM_LEN (lit "sh"), 0⟩

def refusedSteps : List PipelineStep :=
  [.enter 0 (shellFork 10), .receive ⟨100, true⟩ (some (lit "status")), .enter 1 (shellFork 11),
    .leave 1, .enter 1 (shellFork 12), .receive ⟨100, true⟩ (some (lit " ")), .leave 0]

theorem refusedSteps_refuse : ∀ input ∈ refusedSteps, Refuses input := by
  simp only [refusedSteps, List.forall_mem_cons, Refuses]
  refine ⟨trivial, ⟨_, rfl, ?_⟩, trivial, trivial, trivial, ⟨_, rfl, ?_⟩, trivial, by simp⟩ <;> decide

theorem refused_commands_starve_status :
    let s := run (pipelineStep 2) (.start []) []
    let t := run (pipelineStep 2) s refusedSteps
    let entered := total (pipelineStep 2) entered s refusedSteps
    t.place = .receiving ∧ t.events.handled = s.events.handled ∧
      t.events.slots.length = min 2 (s.events.slots.length + entered) ∧
      t.events.lost.length = s.events.lost.length + (s.events.slots.length + entered - 2) :=
  refused_commands_starve 2 [] [] refusedSteps rfl refusedSteps_refuse

/-- The slot that was reserved first is handed over first, though it was submitted last. -/
example : (run (pipelineStep 2) (.start []) (refusedSteps ++
    [.receive ⟨100, true⟩ none, .poll 101, .poll 101])).events.handled.map (·.pid) = [10, 11] := by
  decide

end SysDetector.Proc
