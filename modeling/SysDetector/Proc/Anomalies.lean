import SysDetector.Proc.Arguments
import SysDetector.Proc.ConfigFiles

namespace SysDetector.Proc
open CLib

inductive Anomaly
  | shellCommand
  | downloadToShell
  | reverseShell
  | inlineInterpreter
deriving DecidableEq

def Anomaly.patterns : Anomaly → List (List String)
  | .shellCommand => [shellInterpreters]
  | .downloadToShell => [["curl ", "wget "], ["| sh", "|sh", "| bash", "|bash"]]
  | .reverseShell => [reverseShellFlags]
  | .inlineInterpreter => [inlineInterpreters]

def Anomaly.line : Anomaly → ProcEvent → Bytes → LogLine
  | .shellCommand, e, argv => .suspiciousShell e.pid e.comm argv
  | .downloadToShell, e, argv => .downloadToShell e.pid e.comm argv
  | .reverseShell, e, argv => .reverseShell e.pid e.comm argv
  | .inlineInterpreter, e, argv => .inlineInterpreter e.pid e.comm argv

def Anomaly.Found (anomaly : Anomaly) (argv : Bytes) : Prop :=
  ∀ group ∈ anomaly.patterns, ∃ pattern ∈ group, lit pattern <:+: argv

instance (anomaly : Anomaly) (argv : Bytes) : Decidable (anomaly.Found argv) :=
  inferInstanceAs (Decidable (∀ group ∈ anomaly.patterns, ∃ pattern ∈ group, lit pattern <:+: argv))

def newLog (now : Time) (e : ProcEvent) (s : ProcState) : List LogLine :=
  (handleEvent now e s).2.logFile.drop s.logFile.length

def Anomaly.Logged (anomaly : Anomaly) (now : Time) (e : ProcEvent) (s : ProcState) : Prop :=
  ∃ argv, anomaly.line e argv ∈ newLog now e s

def StandsWithin (n : Nat) (s pattern : Bytes) : Prop :=
  ∃ front back, s = front ++ pattern ++ back ∧ (front ++ pattern).length ≤ n

def Anomaly.FoundWithin (anomaly : Anomaly) (n : Nat) (argv : Bytes) : Prop :=
  ∀ group ∈ anomaly.patterns, ∃ pattern ∈ group, StandsWithin n argv (lit pattern)

theorem infix_take_iff (n : Nat) (s pattern : Bytes) :
    pattern <:+: s.take n ↔ StandsWithin n s pattern := by
  constructor
  · rintro ⟨front, back, split⟩
    refine ⟨front, back ++ s.drop n, ?_, ?_⟩
    · rw [← List.append_assoc, split, List.take_append_drop]
    · have lengths := congrArg List.length split
      rw [List.length_append, List.length_take] at lengths
      omega
  · rintro ⟨front, back, rfl, short⟩
    refine ⟨front, back.take (n - (front ++ pattern).length), ?_⟩
    rw [List.take_append, List.take_of_length_le short]

theorem found_take_iff (anomaly : Anomaly) (n : Nat) (argv : Bytes) :
    anomaly.Found (argv.take n) ↔ anomaly.FoundWithin n argv := by
  unfold Anomaly.Found Anomaly.FoundWithin
  simp only [infix_take_iff]

theorem Anomaly.FoundWithin.found {anomaly : Anomaly} {n : Nat} {argv : Bytes}
    (within : anomaly.FoundWithin n argv) : anomaly.Found argv := by
  intro group member
  obtain ⟨pattern, isPattern, front, back, split, -⟩ := within group member
  exact ⟨pattern, isPattern, front, back, split.symm⟩

theorem containsAny_iff (s : Bytes) (group : List String) :
    containsAny s group = true ↔ ∃ pattern ∈ group, lit pattern <:+: s := by
  simp [containsAny, contains]

theorem line_mem_suspiciousLines (anomaly : Anomaly) (e : ProcEvent) (argv argv' : Bytes) :
    anomaly.line e argv' ∈ suspiciousLines e argv ↔ argv' = argv ∧ anomaly.Found argv := by
  unfold suspiciousLines Anomaly.Found
  simp only [List.mem_append, Bool.and_eq_true, containsAny_iff, List.mem_ite_nil_right,
    List.mem_singleton]
  cases anomaly with
  | shellCommand =>
      simp only [Anomaly.line, Anomaly.patterns, List.forall_mem_singleton]
      simp [and_comm]
  | downloadToShell =>
      simp only [Anomaly.line, Anomaly.patterns, List.forall_mem_cons]
      simp [and_comm]
  | reverseShell =>
      simp only [Anomaly.line, Anomaly.patterns, List.forall_mem_singleton]
      simp [and_comm]
  | inlineInterpreter =>
      simp only [Anomaly.line, Anomaly.patterns, List.forall_mem_singleton]
      simp [and_comm]

theorem trackedSlotFor_log (s : ProcState) (pid : UInt32) :
    ∃ dropped, (trackedSlotFor s pid).2.logFile = s.logFile ++ dropped ∧
      ∀ line ∈ dropped, ∃ pid comm, line = .droppingTracked pid comm := by
  unfold trackedSlotFor allocTrackedProcessSlot ProcState.writeLog
  split
  · exact ⟨[], by simp, List.forall_mem_nil _⟩
  · dsimp only
    split
    · exact ⟨[_], rfl, List.forall_mem_singleton.mpr ⟨_, _, rfl⟩⟩
    · exact ⟨[], by simp, List.forall_mem_nil _⟩

section
variable {now : Time} {e : ProcEvent} {s : ProcState}

theorem newLog_exec (now : Time) (exec : e.type = .exec) (running : s.ebpfRunning = true)
    (enabled : isEnabledConfiguredProcess s e = true) :
    ∃ dropped, (∀ line ∈ dropped, ∃ pid comm, line = LogLine.droppingTracked pid comm) ∧
      newLog now e s = dropped ++ suspiciousLines e (joinEventArgv e ARGV_MAX_LEN) ++
        [.exec e.pid e.ppid e.comm e.filename (joinEventArgv e ARGV_MAX_LEN) e.stackId] := by
  obtain ⟨dropped, slot, onlyDropped⟩ := trackedSlotFor_log s e.pid
  refine ⟨dropped, onlyDropped, ?_⟩
  have written : (handleEvent now e s).2.logFile = s.logFile ++ (dropped ++
      suspiciousLines e (joinEventArgv e ARGV_MAX_LEN) ++
        [.exec e.pid e.ppid e.comm e.filename (joinEventArgv e ARGV_MAX_LEN) e.stackId]) := by
    simp only [handleEvent, running, if_true, exec, procEventExec, trackProcExec, enabled,
      detectSuspiciousExec, ProcState.foldl_writeLog]
    simp only [ProcState.writeLog, ProcState.setTracked, slot, List.append_assoc]
  rw [newLog, written, List.drop_left]

theorem logged_iff_found (anomaly : Anomaly) (exec : e.type = .exec)
    (running : s.ebpfRunning = true) (enabled : isEnabledConfiguredProcess s e = true) :
    anomaly.Logged now e s ↔ anomaly.FoundWithin (ARGV_MAX_LEN - 1) (fullArgv e) := by
  obtain ⟨dropped, onlyDropped, written⟩ := newLog_exec now exec running enabled
  have notDropped : ∀ argv, anomaly.line e argv ∉ dropped := by
    intro argv member
    obtain ⟨pid, comm, same⟩ := onlyDropped _ member
    cases anomaly <;> cases same
  have notExec : ∀ argv argv', anomaly.line e argv ≠
      .exec e.pid e.ppid e.comm e.filename argv' e.stackId := by
    intro argv argv' same
    cases anomaly <;> cases same
  have joined := joinEventArgv_eq e (n := ARGV_MAX_LEN) (by decide)
  rw [← found_take_iff, ← joined, Anomaly.Logged, written]
  simp [notDropped, notExec, line_mem_suspiciousLines]

theorem not_logged_of_stopped (anomaly : Anomaly) (now : Time) (e : ProcEvent)
    (stopped : s.ebpfRunning = false) : ¬ anomaly.Logged now e s := by
  have unchanged : newLog now e s = [] := by
    rw [newLog, handleEvent, if_neg (by simp [stopped])]
    exact List.drop_length
  rw [Anomaly.Logged, unchanged]
  simp

/-- A class of anomalies is logged just when its patterns are among the arguments, exactly when
events are handled if they are, and they are then among the first 255 bytes. -/
theorem anomaly_logged_iff (anomaly : Anomaly) (now : Time) (e : ProcEvent) (s : ProcState)
    (exec : e.type = .exec) (enabled : isEnabledConfiguredProcess s e = true) :
    (anomaly.Logged now e s ↔ anomaly.Found (fullArgv e)) ↔
      (anomaly.Found (fullArgv e) →
        s.ebpfRunning = true ∧ anomaly.FoundWithin (ARGV_MAX_LEN - 1) (fullArgv e)) := by
  cases running : s.ebpfRunning with
  | false =>
      have silent := not_logged_of_stopped anomaly now e running
      simp [silent]
  | true =>
      rw [logged_iff_found anomaly exec running enabled]
      constructor
      · intro same found
        exact ⟨rfl, same.mpr found⟩
      · intro shown
        exact ⟨Anomaly.FoundWithin.found, fun found => (shown found).2⟩

end

def watchedSh : ProcessConfig :=
  { ProcessConfig.defaults 7 with name := snprintf 64 (lit "sh"), monitorSwitch := true }

def watchingSh : ProcState := { ProcState.initial [watchedSh] with ebpfRunning := true }

def execSh (argv : List Bytes) : ProcEvent where
  type := .exec
  pid := 42
  ppid := 1
  comm := snprintf TASK_COMM_LEN (lit "sh")
  filename := snprintf TASK_NAME_MAX (lit "/bin/sh")
  argv i := snprintf ARGV_ARG_LEN (argv.getD i [])
  stackId := 0

theorem anomaly_logged_iff_sh :
    (Anomaly.shellCommand.Logged 0 (execSh [lit "sh", lit "-c"]) watchingSh ↔
        Anomaly.shellCommand.Found (fullArgv (execSh [lit "sh", lit "-c"]))) ↔
      (Anomaly.shellCommand.Found (fullArgv (execSh [lit "sh", lit "-c"])) →
        watchingSh.ebpfRunning = true ∧ Anomaly.shellCommand.FoundWithin (ARGV_MAX_LEN - 1)
          (fullArgv (execSh [lit "sh", lit "-c"]))) :=
  anomaly_logged_iff .shellCommand 0 _ watchingSh rfl (by decide)

set_option maxRecDepth 8000 in
/-- Four arguments of 63 bytes in front of `sh -c` fill the buffer. -/
theorem shell_hidden :
    ¬ ∀ (anomaly : Anomaly) (now : Time) (e : ProcEvent) (s : ProcState), e.type = .exec →
      s.ebpfRunning = true → isEnabledConfiguredProcess s e = true →
        (anomaly.Logged now e s ↔ anomaly.Found (fullArgv e)) := by
  intro logged
  let e := execSh (List.replicate 4 (List.replicate 63 120) ++ [lit "sh", lit "-c"])
  have enabled : isEnabledConfiguredProcess watchingSh e = true := by decide
  have same := logged .shellCommand 0 e watchingSh rfl rfl enabled
  rw [logged_iff_found .shellCommand rfl rfl enabled, ← found_take_iff] at same
  have found : Anomaly.shellCommand.Found (fullArgv e) := by decide
  have missed : ¬ Anomaly.shellCommand.Found ((fullArgv e).take (ARGV_MAX_LEN - 1)) := by decide
  exact missed (same.mpr found)

end SysDetector.Proc
