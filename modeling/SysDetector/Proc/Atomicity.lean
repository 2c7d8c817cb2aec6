import SysDetector.Proc.Unread

namespace SysDetector.Proc
open CLib Runs

/-- Equal but for the order of the lines in the log file. -/
structure Alike (s a : ProcState) : Prop where
  lines : s.logFile.Perm a.logFile
  others : { s with logFile := [] } = { a with logFile := [] }

def prefixed (lines : List LogLine) : Redress where
  lines := lines
  user := id
  stopCmd := id

section Alike
variable {s a b : ProcState}

theorem Alike.refl (s : ProcState) : Alike s s := ⟨.refl _, rfl⟩

theorem Alike.trans (first : Alike s a) (second : Alike a b) : Alike s b :=
  ⟨first.lines.trans second.lines, first.others.trans second.others⟩

theorem Alike.symm (alike : Alike s a) : Alike a s := ⟨alike.lines.symm, alike.others.symm⟩

theorem prefixed_state (lines : List LogLine) (s : ProcState) :
    (prefixed lines).state s = { s with logFile := lines ++ s.logFile } := by
  have config : (prefixed lines).config = id := rfl
  have listing : (prefixed lines).listing = id := by
    funext listed
    cases listed with
    | config rows => exact congrArg Listing.config (List.map_id rows)
    | tracked rows => rfl
  rw [Redress.state, config, listing, List.map_id, Option.map_id]
  rfl

def Oblivious (f : ProcState → ProcState) : Prop :=
  ∀ (d : Redress) (s : ProcState), f (d.state s) = d.state (f s)

theorem Oblivious.split {f : ProcState → ProcState} (own : Oblivious f) (s : ProcState) :
    f s = { f { s with logFile := [] } with
      logFile := s.logFile ++ (f { s with logFile := [] }).logFile } := by
  rw [← prefixed_state, ← own, prefixed_state]
  simp

theorem Alike.map {f : ProcState → ProcState} (own : Oblivious f) (alike : Alike s a) :
    Alike (f s) (f a) := by
  rw [own.split s, own.split a, alike.others]
  exact ⟨alike.lines.append_right _, rfl⟩

theorem oblivious_writeLog (line : LogLine) : Oblivious fun s => s.writeLog line :=
  fun _ s => writeLog_redress s line

theorem oblivious_setSwitch (i : Nat) (status : Bool) : Oblivious fun s => setSwitch s i status :=
  fun _ s => setSwitch_redress s i status

theorem oblivious_stampConfig (i : Nat) (t : Time) : Oblivious fun s => stampConfig s i t :=
  fun _ s => stampConfig_redress s i t

theorem oblivious_monitorStep (env : MonitorEnv) : Oblivious (monitorStep env) :=
  fun _ s => monitorStep_redress env s

theorem oblivious_handleMessage (env : CommandEnv) (message : Bytes) :
    Oblivious (handleMessage env message) :=
  fun _ s => handleMessage_redress env message s

theorem oblivious_handleEvent (now : Time) (e : ProcEvent) :
    Oblivious fun s => (handleEvent now e s).2 :=
  fun _ s => handleEvent_redress now e s

theorem alike_writeLog {f : ProcState → ProcState} (own : Oblivious f) (s : ProcState)
    (line : LogLine) : Alike (f (s.writeLog line)) ((f s).writeLog line) := by
  rw [own.split (s.writeLog line), own.split s]
  refine ⟨?_, rfl⟩
  simp only [ProcState.writeLog, List.append_assoc]
  exact (List.perm_append_comm).append_left _

end Alike

/-! ## What the monitor thread leaves to the main thread -/

def withAnswer (responses : List ResponseCode) (running : Bool) (s : ProcState) : ProcState :=
  { s with responses := responses, ebpfRunning := running }

theorem monitorStep_withAnswer (responses : List ResponseCode) (running : Bool) (env : MonitorEnv)
    (s : ProcState) :
    monitorStep env (withAnswer responses running s) =
      withAnswer responses running (monitorStep env s) := by
  have config : ∀ (s : ProcState) (i : Nat),
      (withAnswer responses running s).configs[i]? = s.configs[i]? := fun _ _ => rfl
  have ran : ∀ s kind i command now,
      (withAnswer responses running s).runShell kind i command now =
        withAnswer responses running (s.runShell kind i command now) := by
    intro s kind i command now
    unfold ProcState.runShell
    rw [config]
    cases s.configs[i]? <;> rfl
  have logged : ∀ s i line, (withAnswer responses running s).logFor i line =
      withAnswer responses running (s.logFor i line) := by
    intro s i line
    unfold ProcState.logFor
    rw [config]
    cases s.configs[i]? <;> rfl
  have pc : (withAnswer responses running s).monitor = s.monitor := rfl
  unfold monitorStep
  rw [pc]
  cases s.monitor with
  | scanning t i =>
      dsimp only
      rw [config]
      cases s.configs[i]? with
      | none => rfl
      | some config =>
          dsimp only
          split_ifs <;> rfl
  | checking t i | retrying t i n | rechecking t i n =>
      simp only [ran, logged]
      split_ifs <;> rfl
  | alarming t i =>
      simp only [ran, logged]
      rfl
  | _ => rfl

theorem configIds_modify (configs : List ProcessConfig) (i : Nat)
    {f : ProcessConfig → ProcessConfig} (same : ∀ config, (f config).configId = config.configId) :
    (configs.modify i f).map ProcessConfig.configId = configs.map ProcessConfig.configId := by
  apply List.ext_getElem?
  intro j
  rw [List.getElem?_map, List.getElem?_map, List.getElem?_modify]
  cases configs[j]? with
  | none => rfl
  | some config =>
      simp only [Option.map_eq_map, Option.map_some]
      split_ifs
      · rw [same]
      · rfl

theorem configIds_monitorStep (env : MonitorEnv) (s : ProcState) :
    (monitorStep env s).configs.map ProcessConfig.configId =
      s.configs.map ProcessConfig.configId := by
  obtain ⟨pc', log, runs, frame⟩ := monitorStep_frame env s
  rw [frame]
  show (monitorConfigs s).map ProcessConfig.configId = _
  unfold monitorConfigs
  cases s.monitor with
  | givingUp t i => exact configIds_modify _ i fun _ => rfl
  | stamping t i => exact configIds_modify _ i fun _ => rfl
  | _ => rfl

theorem switchCommand_of_ids {s s' : ProcState}
    (ids : s'.configs.map ProcessConfig.configId = s.configs.map ProcessConfig.configId)
    (message : Bytes) : switchCommand s' message = switchCommand s message := by
  have index : ∀ arg, configIndex s' arg = configIndex s arg := by
    intro arg
    have found : ∀ (configs : List ProcessConfig) (configId : UInt64),
        (configs.findIdx? fun config => config.configId == configId) =
          (configs.map ProcessConfig.configId).findIdx? (· == configId) := by
      intro configs configId
      rw [List.findIdx?_map]
      rfl
    unfold configIndex
    simp only [found, ids]
  unfold switchCommand
  simp only [index]

/-- The monitor thread neither looks at the config nor gives it up. -/
def Aloof (s : ProcState) (i : Nat) (status : Bool) : Prop :=
  ∀ t, s.monitor ≠ .scanning t i ∧ (status = true → s.monitor ≠ .givingUp t i)

theorem modify_comm (configs : List ProcessConfig) {f g : ProcessConfig → ProcessConfig} (i j : Nat)
    (own : i = j → ∀ config, f (g config) = g (f config)) :
    (configs.modify i f).modify j g = (configs.modify j g).modify i f := by
  by_cases same : i = j
  · subst same
    rw [List.modify_modify_eq, List.modify_modify_eq]
    exact congrArg _ (funext fun config => (own rfl config).symm)
  · exact List.modify_modify_ne f g configs same

theorem stampConfig_setSwitch (s : ProcState) (i j : Nat) (status : Bool) (t : Time) :
    stampConfig (setSwitch s i status) j t = setSwitch (stampConfig s j t) i status := by
  have table := modify_comm s.configs
    (f := fun config => { config with monitorSwitch := status })
    (g := fun config => { config with lastMonitorTime := t }) i j fun _ _ => rfl
  unfold stampConfig setSwitch
  dsimp only
  rw [table]

theorem disableConfig_setSwitch (s : ProcState) {i j : Nat} {status : Bool}
    (off : i = j → status = false) :
    disableConfig (setSwitch s i status) j = setSwitch (disableConfig s j) i status := by
  have table := modify_comm s.configs
    (f := fun config => { config with monitorSwitch := status })
    (g := fun config => { config with monitorSwitch := false }) i j fun same _ => by rw [off same]
  unfold disableConfig setSwitch
  dsimp only
  rw [table]

theorem monitorStep_setSwitch (env : MonitorEnv) {s : ProcState} {i : Nat} {status : Bool}
    (aloof : Aloof s i status) :
    monitorStep env (setSwitch s i status) = setSwitch (monitorStep env s) i status := by
  have config : ∀ s j, (setSwitch s i status).configs[j]? =
      s.configs[j]?.map fun config => if i = j then { config with monitorSwitch := status } else config := by
    intro s j
    show (s.configs.modify i _)[j]? = _
    rw [List.getElem?_modify, Option.map_eq_map]
  have ran : ∀ (s : ProcState) kind j (command : ProcessConfig → CharBuf 256) now,
      (∀ (c : ProcessConfig) status, command { c with monitorSwitch := status } = command c) →
      (setSwitch s i status).runShell kind j command now =
        setSwitch (s.runShell kind j command now) i status := by
    intro s kind j command now own
    unfold ProcState.runShell
    rw [config]
    cases s.configs[j]? with
    | none => rfl
    | some c =>
        dsimp only [Option.map_some]
        split_ifs
        · rw [own]
          rfl
        · rfl
  have logged : ∀ s j line, (setSwitch s i status).logFor j line =
      setSwitch (s.logFor j line) i status := by
    intro s j line
    unfold ProcState.logFor
    rw [config]
    cases s.configs[j]? with
    | none => rfl
    | some c =>
        dsimp only [Option.map_some]
        split_ifs <;> rfl
  have pc : (setSwitch s i status).monitor = s.monitor := rfl
  unfold monitorStep
  rw [pc]
  cases here : s.monitor with
  | sleeping => rfl
  | scanning t j =>
      have other : i ≠ j := by
        rintro rfl
        exact (aloof t).1 here
      dsimp only
      rw [config]
      cases s.configs[j]? with
      | none => rfl
      | some c =>
          dsimp only [Option.map_some]
          rw [if_neg other]
          split_ifs <;> rfl
  | checking t j =>
      dsimp only
      rw [ran _ _ _ _ _ fun _ _ => rfl, logged]
      split_ifs <;> rfl
  | retrying t j n =>
      dsimp only
      rw [logged, ran _ _ _ _ _ fun _ _ => rfl]
      split_ifs <;> rfl
  | rechecking t j n =>
      dsimp only
      rw [ran _ _ _ _ _ fun _ _ => rfl, logged]
      split_ifs <;> rfl
  | alarming t j =>
      dsimp only
      rw [logged, ran _ _ _ _ _ fun _ _ => rfl]
      rfl
  | givingUp t j =>
      have off : i = j → status = false := by
        rintro rfl
        exact Bool.of_not_eq_true fun on => (aloof t).2 on here
      dsimp only
      rw [disableConfig_setSwitch s off]
      rfl
  | stamping t j =>
      dsimp only
      rw [stampConfig_setSwitch]
      rfl

/-! ## The simulation -/

def splits (s : ProcState) (message : Bytes) : Bool :=
  match switchCommand s message with
  | some (status, _) => s.ebpfRunning == !status
  | none => false

def stepTaken (sm : ThreadState × Bytes) (input : ThreadStep) : ThreadState × Bytes :=
  (threadStep sm.1 input,
    match input with
    | .message _ message => if sm.1.main = .waiting then message else sm.2
    | _ => sm.2)

/-- A command counts as one step made when the time of its config is written. -/
def atomicSteps (sm : ThreadState × Bytes) : ThreadStep → List ProcStep
  | .message env message =>
      if sm.1.main = .waiting ∧ splits sm.1.proc message = false then [.message env message] else []
  | .main now =>
      match sm.1.main with
      | .timing _ _ => [.message ⟨now, true⟩ sm.2]
      | _ => []
  | .event now e => if sm.1.main = .waiting then [.event now e] else []
  | .monitor env => [.monitor env]

def NoRace (s : ThreadState) : ThreadStep → Prop
  | .monitor _ => ∀ i status, s.main = .timing i status → Aloof s.proc i status
  | _ => True

structure Pending (a : ProcState) (message : Bytes) (i : Nat) (status : Bool) : Prop where
  command : switchCommand a message = some (status, i)
  gate : a.ebpfRunning = !status

def answered (i : Nat) (status : Bool) (s : ProcState) : ProcState :=
  { answerSwitch s i with ebpfRunning := status }

def StandsFor (sm : ThreadState × Bytes) (a : ProcState) : Prop :=
  match sm.1.main with
  | .waiting => Alike sm.1.proc a
  | .switching i status =>
      Alike sm.1.proc (a.writeLog (switchLine status)) ∧ Pending a sm.2 i status
  | .timing i status =>
      Alike sm.1.proc (setSwitch (a.writeLog (switchLine status)) i status) ∧
        Pending a sm.2 i status
  | .answering i status => Alike (answered i status sm.1.proc) a
  | .marking status => Alike { sm.1.proc with ebpfRunning := status } a

section Simulation
variable {s a : ProcState} {message : Bytes} {i : Nat} {status : Bool}

theorem Alike.switchCommand (alike : Alike s a) (message : Bytes) :
    switchCommand s message = switchCommand a message := by
  have same := congrArg ProcState.configs alike.others
  exact switchCommand_of_ids (congrArg (List.map ProcessConfig.configId) same) message

theorem Alike.splits (alike : Alike s a) (message : Bytes) :
    splits s message = splits a message := by
  have gate := congrArg ProcState.ebpfRunning alike.others
  dsimp only at gate
  unfold Proc.splits
  rw [alike.switchCommand, gate]

theorem takeMessage_split {threads : ThreadState} (env : CommandEnv)
    (split : splits threads.proc message = true) :
    ∃ i status, Pending threads.proc message i status ∧ takeMessage env message threads =
      { threads with
        proc := threads.proc.writeLog (switchLine status)
        main := .switching i status } := by
  unfold splits at split
  unfold takeMessage
  cases command : switchCommand threads.proc message with
  | none =>
      rw [command] at split
      cases split
  | some target =>
      obtain ⟨status, i⟩ := target
      rw [command] at split
      have gate := beq_iff_eq.mp split
      exact ⟨i, status, ⟨command, gate⟩, if_pos gate⟩

theorem takeMessage_whole {threads : ThreadState} {env : CommandEnv}
    (whole : splits threads.proc message = false) :
    takeMessage env message threads =
      { threads with proc := handleMessage env message threads.proc } := by
  unfold splits at whole
  unfold takeMessage
  cases command : switchCommand threads.proc message with
  | none => rfl
  | some target =>
      obtain ⟨status, i⟩ := target
      rw [command] at whole
      exact if_neg (beq_eq_false_iff_ne.mp whole)

theorem Pending.handled (pending : Pending a message i status) (env : CommandEnv) :
    handleMessage env message a =
      answered i status
        (stampConfig (setSwitch (a.writeLog (switchLine status)) i status) i env.now) := by
  have complete := statements_complete env (s := ⟨a, .waiting, []⟩) rfl pending.command pending.gate
  have proc := congrArg ThreadState.proc complete
  simp only [run_cons, run_nil, threadStep, if_true, takeMessage, pending.command, pending.gate,
    mainStatement] at proc
  exact proc.symm

theorem oblivious_answered : Oblivious (answered i status) := fun _ s =>
  congrArg (fun s => { s with ebpfRunning := status }) (answerSwitch_redress s i)

theorem Pending.monitor (pending : Pending a message i status) (env : MonitorEnv) :
    Pending (monitorStep env a) message i status where
  command := (switchCommand_of_ids (configIds_monitorStep env a) message).trans pending.command
  gate := by
    obtain ⟨pc, log, runs, frame⟩ := monitorStep_frame env a
    rw [frame]
    exact pending.gate

theorem responses_monitorStep (env : MonitorEnv) (s : ProcState) :
    (monitorStep env s).responses = s.responses := by
  obtain ⟨pc, log, runs, frame⟩ := monitorStep_frame env s
  rw [frame]

theorem answered_eq (s : ProcState) (i : Nat) (status : Bool) :
    answered i status s =
      match (s.configs.map ProcessConfig.configId)[i]? with
      | some configId => withAnswer (s.responses ++ [.cmdSuccess]) status
          (s.writeLog (.startedMonitoring configId))
      | none => withAnswer s.responses status s := by
  unfold answered answerSwitch
  rw [List.getElem?_map]
  cases s.configs[i]? <;> rfl

theorem monitorStep_answered (env : MonitorEnv) (s : ProcState) :
    Alike (answered i status (monitorStep env s)) (monitorStep env (answered i status s)) := by
  rw [answered_eq, answered_eq, configIds_monitorStep, responses_monitorStep]
  cases (s.configs.map ProcessConfig.configId)[i]? with
  | none =>
      dsimp only
      rw [monitorStep_withAnswer]
      exact .refl _
  | some configId =>
      dsimp only
      rw [monitorStep_withAnswer]
      exact (alike_writeLog (oblivious_monitorStep env) s _).symm.map fun _ _ => rfl

theorem standsFor_message {threads : ThreadState} {last : Bytes} (stands : StandsFor (threads, last) a)
    (env : CommandEnv) (message : Bytes) :
    StandsFor (stepTaken (threads, last) (.message env message))
      (run step a (atomicSteps (threads, last) (.message env message))) := by
  unfold stepTaken atomicSteps threadStep
  dsimp only
  by_cases waiting : threads.main = .waiting
  · rw [if_pos waiting, if_pos waiting]
    rw [StandsFor, waiting] at stands
    have alike : Alike threads.proc a := stands
    cases whole : splits threads.proc message with
    | true =>
        rw [if_neg (by simp)]
        obtain ⟨i, status, ⟨command, gate⟩, taken⟩ := takeMessage_split env whole
        rw [taken]
        refine ⟨alike.map (oblivious_writeLog _), ?_, ?_⟩
        · exact (alike.switchCommand message).symm.trans command
        · exact (congrArg ProcState.ebpfRunning alike.others).symm.trans gate
    | false =>
        rw [if_pos ⟨waiting, rfl⟩, takeMessage_whole whole, StandsFor, waiting]
        exact alike.map (oblivious_handleMessage env message)
  · rw [if_neg waiting, if_neg waiting, if_neg fun both => waiting both.1]
    exact stands

theorem standsFor_main {threads : ThreadState} (stands : StandsFor (threads, message) a) (now : Time) :
    StandsFor (stepTaken (threads, message) (.main now))
      (run step a (atomicSteps (threads, message) (.main now))) := by
  unfold stepTaken atomicSteps threadStep mainStatement
  dsimp only
  rw [StandsFor] at stands
  dsimp only at stands
  cases main : threads.main with
  | waiting =>
      rw [main] at stands
      rw [StandsFor, main]
      exact stands
  | switching i status =>
      rw [main] at stands
      exact ⟨stands.1.map (oblivious_setSwitch i status), stands.2⟩
  | timing i status =>
      rw [main] at stands
      obtain ⟨alike, pending⟩ := stands
      show Alike (answered i status (stampConfig threads.proc i now))
        (handleMessage ⟨now, true⟩ message a)
      rw [pending.handled]
      exact (alike.map (oblivious_stampConfig i now)).map oblivious_answered
  | answering i status =>
      rw [main] at stands
      exact stands
  | marking status =>
      rw [main] at stands
      exact stands

theorem standsFor_event {threads : ThreadState} (stands : StandsFor (threads, message) a)
    (now : Time) (e : ProcEvent) :
    StandsFor (stepTaken (threads, message) (.event now e))
      (run step a (atomicSteps (threads, message) (.event now e))) := by
  unfold stepTaken atomicSteps threadStep
  dsimp only
  split_ifs with waiting
  · rw [StandsFor, waiting] at stands ⊢
    exact Alike.map (oblivious_handleEvent now e) stands
  · exact stands

theorem standsFor_monitor {threads : ThreadState} (stands : StandsFor (threads, message) a)
    (env : MonitorEnv) (noRace : NoRace threads (.monitor env)) :
    StandsFor (stepTaken (threads, message) (.monitor env))
      (run step a (atomicSteps (threads, message) (.monitor env))) := by
  have own := oblivious_monitorStep env
  rw [StandsFor] at stands
  dsimp only at stands
  show StandsFor (threadStep threads (.monitor env), message) (monitorStep env a)
  rw [StandsFor]
  dsimp only [threadStep]
  cases main : threads.main with
  | waiting =>
      rw [main] at stands
      exact stands.map own
  | switching i status =>
      rw [main] at stands
      exact ⟨(stands.1.map own).trans (alike_writeLog own a _), stands.2.monitor env⟩
  | timing i status =>
      rw [main] at stands
      obtain ⟨alike, pending⟩ := stands
      have aloof : Aloof (a.writeLog (switchLine status)) i status := by
        have same := congrArg ProcState.monitor alike.others
        intro t
        exact same ▸ noRace i status main t
      refine ⟨(alike.map own).trans ?_, pending.monitor env⟩
      rw [monitorStep_setSwitch env aloof]
      exact (alike_writeLog own a _).map (oblivious_setSwitch i status)
  | answering i status =>
      rw [main] at stands
      exact (monitorStep_answered env threads.proc).trans (stands.map own)
  | marking status =>
      rw [main] at stands
      show Alike (withAnswer (monitorStep env threads.proc).responses status
        (monitorStep env threads.proc)) (monitorStep env a)
      rw [responses_monitorStep, ← monitorStep_withAnswer]
      exact Alike.map own stands

theorem standsFor_step {sm : ThreadState × Bytes} {input : ThreadStep} (stands : StandsFor sm a)
    (noRace : NoRace sm.1 input) : StandsFor (stepTaken sm input) (run step a (atomicSteps sm input)) := by
  cases input with
  | message env message => exact standsFor_message stands env message
  | main now => exact standsFor_main stands now
  | event now e => exact standsFor_event stands now e
  | monitor env => exact standsFor_monitor stands env noRace

end Simulation

def atomicRun (configs : List ProcessConfig) (steps : List ThreadStep) : List ProcStep :=
  translated stepTaken atomicSteps (.start configs, []) steps

theorem run_stepTaken (sm : ThreadState × Bytes) (steps : List ThreadStep) :
    (run stepTaken sm steps).1 = run threadStep sm.1 steps := by
  induction steps generalizing sm with
  | nil => rfl
  | cons input steps ih => exact ih (stepTaken sm input)

/-- Whenever the main thread is not in the middle of a command, the two threads are where the
single steps lead, as long as the monitor thread keeps away from a config whose switch was just
set and whose time was not. -/
theorem threads_atomic (configs : List ProcessConfig) (steps : List ThreadStep)
    (noRace : Guarded threadStep NoRace (.start configs) steps)
    (idle : (run threadStep (.start configs) steps).main = .waiting) :
    Alike (run threadStep (.start configs) steps).proc
      (run step (.initial configs) (atomicRun configs steps)) := by
  have start : StandsFor (.start configs, []) (.initial configs) := Alike.refl _
  have guard : Guarded stepTaken (fun sm input => NoRace sm.1 input) (.start configs, []) steps := by
    intro past input rest split
    rw [run_stepTaken]
    exact noRace past input rest split
  have stands := run_refines step atomicSteps
    (fun sm a input stands noRace => standsFor_step stands noRace) start guard
  rw [StandsFor, run_stepTaken, idle] at stands
  exact stands

def interleavedStart : List ThreadStep :=
  [.message ⟨90, true⟩ (lit "start 7"), .monitor ⟨100, true⟩, .main 100, .main 100, .main 100,
    .main 100]

theorem interleavedStart_noRace :
    Guarded threadStep NoRace (.start [selftestConfig 7 false]) interleavedStart := by
  simp only [interleavedStart, guarded_cons, guarded_nil, NoRace, true_and, and_true]
  intro i status timing
  cases timing

theorem threads_atomic_start :
    Alike (run threadStep (.start [selftestConfig 7 false]) interleavedStart).proc
      (run step (.initial [selftestConfig 7 false])
        (atomicRun [selftestConfig 7 false] interleavedStart)) :=
  threads_atomic [selftestConfig 7 false] interleavedStart interleavedStart_noRace (by decide)

def racingStart : List ThreadStep :=
  [.monitor ⟨100, true⟩, .message ⟨100, true⟩ (lit "start 7"), .main 100, .monitor ⟨100, true⟩,
    .main 100, .main 100, .main 100]

theorem racing_not_atomic : ¬ ∀ (configs : List ProcessConfig) (steps : List ThreadStep),
    (run threadStep (.start configs) steps).main = .waiting →
      Alike (run threadStep (.start configs) steps).proc
        (run step (.initial configs) (atomicRun configs steps)) := by
  intro atomic
  have alike := atomic [selftestConfig 7 false] racingStart (by decide)
  have pc := congrArg ProcState.monitor alike.others
  have different : (run threadStep (.start [selftestConfig 7 false]) racingStart).proc.monitor ≠
      (run step (.initial [selftestConfig 7 false])
        (atomicRun [selftestConfig 7 false] racingStart)).monitor := by
    decide
  exact different pc

end SysDetector.Proc
