import SysDetector.Fs.Worker

namespace SysDetector.Fs
open CLib

/-! ## Loading -/

theorem parseConfigFile_frame (file : DirEntry) (id : Int32) (s : FsState)
    (fits : s.configCount ≤ MAX_CONFIGS) : ∃ configs count, count ≤ MAX_CONFIGS ∧
      parseConfigFile file id s = { s with configs := configs, configCount := count } := by
  unfold parseConfigFile
  by_cases full : s.configCount ≥ MAX_CONFIGS
  · rw [if_pos full]
    exact ⟨_, _, fits, rfl⟩
  · rw [if_neg full]
    split
    · dsimp only
      split
      · exact ⟨_, s.configCount + 1, by omega, rfl⟩
      · exact ⟨_, _, fits, rfl⟩
    · exact ⟨_, _, fits, rfl⟩

theorem loadEntry_frame (s : FsState) (file : DirEntry) (fits : s.configCount ≤ MAX_CONFIGS) :
    ∃ configs count, count ≤ MAX_CONFIGS ∧
      loadEntry s file = { s with configs := configs, configCount := count } := by
  unfold loadEntry
  split
  · exact ⟨_, _, fits, rfl⟩
  · split
    · split
      · exact parseConfigFile_frame file _ s fits
      · exact ⟨_, _, fits, rfl⟩
    · exact ⟨_, _, fits, rfl⟩

theorem loadEntries_frame (files : List DirEntry) (s : FsState)
    (fits : s.configCount ≤ MAX_CONFIGS) : ∃ configs count, count ≤ MAX_CONFIGS ∧
      files.foldl loadEntry s = { s with configs := configs, configCount := count } := by
  induction files generalizing s with
  | nil => exact ⟨_, _, fits, rfl⟩
  | cons file files ih =>
      obtain ⟨configs, count, bounded, loaded⟩ := loadEntry_frame s file fits
      rw [List.foldl_cons, loaded]
      obtain ⟨configs', count', bounded', rest⟩ :=
        ih { s with configs := configs, configCount := count } bounded
      exact ⟨configs', count', bounded', rest⟩

theorem loadConfigs_frame (s : FsState) : ∃ configs count, count ≤ MAX_CONFIGS ∧
    loadConfigs s = { s with configs := configs, configCount := count } := by
  unfold loadConfigs
  dsimp only
  split
  · exact ⟨_, 0, Nat.zero_le _, rfl⟩
  · next files _ =>
      obtain ⟨configs, count, bounded, loaded⟩ :=
        loadEntries_frame files { s with configCount := 0 } (Nat.zero_le _)
      exact ⟨configs, count, bounded, loaded⟩

theorem writeConfigFile_frame (config : FsConfig) (s : FsState) :
    ∃ directory, writeConfigFile config s = { s with directory := directory } := by
  unfold writeConfigFile
  split
  · exact ⟨_, rfl⟩
  · split
    · exact ⟨_, rfl⟩
    · split <;> exact ⟨_, rfl⟩

theorem switchTable_frame (s : FsState) (i : Nat) (status : Bool) :
    ∃ configs count directory, count ≤ MAX_CONFIGS ∧ switchTable s i status =
      { s with configs := configs, configCount := count, directory := directory } := by
  unfold switchTable FsState.setConfig
  dsimp only
  obtain ⟨directory, written⟩ := writeConfigFile_frame
    (Function.update s.configs i { s.configs i with monitorSwitch := status } i)
    { s with configs := Function.update s.configs i { s.configs i with monitorSwitch := status } }
  rw [written]
  obtain ⟨configs, count, bounded, loaded⟩ := loadConfigs_frame
    { s with
      configs := Function.update s.configs i { s.configs i with monitorSwitch := status }
      directory := directory }
  exact ⟨configs, count, directory, bounded, loaded⟩

/-! ## Rebuilding -/

def accepts (env : WatchEnv) (s : FsState) (i : Nat) : Bool :=
  (s.configs i).monitorSwitch && decide (0 ≤ env.addWatch (s.configs i).path)

def askedWatches (env : WatchEnv) (s : FsState) (positions : List Nat) : List InotifyCall :=
  (positions.filter fun i => (s.configs i).monitorSwitch).map fun i =>
    .addWatch (s.configs i) (env.addWatch (s.configs i).path)

def storedWords (env : WatchEnv) (s : FsState) (positions : List Nat) : List Int32 :=
  (positions.filter (accepts env s)).map fun i => watchWord (env.addWatch (s.configs i).path) i

theorem watchOne_frame (env : WatchEnv) (s : FsState) (i : Nat)
    (room : s.watchConfig.length < MAX_CONFIGS) : ∃ log, watchOne env s i =
      { s with
        watchConfig := s.watchConfig ++ storedWords env s [i]
        inotifyCalls := s.inotifyCalls ++ askedWatches env s [i]
        logFile := log } := by
  unfold watchOne storedWords askedWatches accepts FsState.logLine
  cases on : (s.configs i).monitorSwitch with
  | false => exact ⟨s.logFile, by simp [on]⟩
  | true =>
      by_cases accepted : 0 ≤ env.addWatch (s.configs i).path
      · exact ⟨_, by simp [on, accepted, room]; rfl⟩
      · have refused : env.addWatch (s.configs i).path < 0 := Int32.not_le.mp accepted
        exact ⟨_, by simp [on, accepted, refused]; rfl⟩

theorem watchAll_frame (env : WatchEnv) (s : FsState) (positions : List Nat)
    (room : s.watchConfig.length + positions.length ≤ MAX_CONFIGS) :
    ∃ log, positions.foldl (watchOne env) s =
      { s with
        watchConfig := s.watchConfig ++ storedWords env s positions
        inotifyCalls := s.inotifyCalls ++ askedWatches env s positions
        logFile := log } := by
  induction positions generalizing s with
  | nil => exact ⟨s.logFile, by simp [storedWords, askedWatches]⟩
  | cons i rest ih =>
      rw [List.length_cons] at room
      obtain ⟨log, first⟩ := watchOne_frame env s i (by omega)
      have one : (storedWords env s [i]).length ≤ 1 := by
        simpa [storedWords] using List.length_filter_le (accepts env s) [i]
      obtain ⟨log', others⟩ := ih
        { s with
          watchConfig := s.watchConfig ++ storedWords env s [i]
          inotifyCalls := s.inotifyCalls ++ askedWatches env s [i]
          logFile := log } (by rw [List.length_append]; omega)
      refine ⟨log', ?_⟩
      rw [List.foldl_cons, first, others]
      have words : storedWords env s (i :: rest) =
          storedWords env s [i] ++ storedWords env s rest := by
        unfold storedWords
        rw [← List.map_append, ← List.filter_append]
        rfl
      have calls : askedWatches env s (i :: rest) =
          askedWatches env s [i] ++ askedWatches env s rest := by
        unfold askedWatches
        rw [← List.map_append, ← List.filter_append]
        rfl
      simp only [words, calls, ← List.append_assoc]
      rfl

def opens (env : WatchEnv) (s : FsState) : Bool := s.inotifyOpen || env.inotifyInit

theorem rebuildWatches_closed {env : WatchEnv} {s : FsState} (closed : opens env s = false) :
    rebuildWatches env s = s.logLine .inotifyFailed := by
  simp only [opens, Bool.or_eq_false_iff] at closed
  simp [rebuildWatches, ensureInotify, closed.1, closed.2, FsState.logLine]

theorem rebuildWatches_open {env : WatchEnv} {s : FsState} (opened : opens env s = true)
    (fits : s.configCount ≤ MAX_CONFIGS) : ∃ log, rebuildWatches env s =
      { s with
        inotifyOpen := true
        watchConfig := storedWords env s (List.range s.configCount)
        inotifyCalls := (s.watchConfig.map fun word => .rmWatch (watchWd word)) ++
          askedWatches env s (List.range s.configCount)
        logFile := log } := by
  have ensured : ensureInotify env s = { s with inotifyOpen := true } := by
    unfold ensureInotify
    by_cases already : s.inotifyOpen = true
    · rw [if_pos already, ← already]
    · have init : env.inotifyInit = true := by simpa [opens, already] using opened
      rw [if_neg already, if_pos init]
  obtain ⟨log, all⟩ := watchAll_frame env
    { s with
      inotifyOpen := true
      inotifyCalls := s.watchConfig.map fun word => .rmWatch (watchWd word)
      watchConfig := [] } (List.range s.configCount) (by simpa using fits)
  refine ⟨log, ?_⟩
  simp only [rebuildWatches, ensured, if_true]
  rw [all]
  rfl

theorem rebuildWatches_keeps (env : WatchEnv) {s : FsState} (fits : s.configCount ≤ MAX_CONFIGS) :
    (rebuildWatches env s).directory = s.directory ∧
      (rebuildWatches env s).responses = s.responses ∧
      (rebuildWatches env s).configs = s.configs ∧
      (rebuildWatches env s).configCount = s.configCount := by
  cases opened : opens env s with
  | false =>
      rw [rebuildWatches_closed opened]
      exact ⟨rfl, rfl, rfl, rfl⟩
  | true =>
      obtain ⟨log, frame⟩ := rebuildWatches_open opened fits
      rw [frame]
      exact ⟨rfl, rfl, rfl, rfl⟩

/-! ## Messages -/

def rebuildTable (s : FsState) (message : Bytes) : Option FsState :=
  match splitCommand (cstr message) with
  | opt :: arg :: _ =>
      if opt = lit "start" ∨ opt = lit "stop" then
        (findConfig (loadConfigs s) (atoi arg)).map fun i =>
          switchTable (loadConfigs s) i (decide (opt = lit "start"))
      else none
  | _ => none

def reloads (message : Bytes) : Bool := splitCommand (cstr message) ≠ []

def OnlyAnswers (s s' : FsState) : Prop :=
  ∃ log responses out, s' = { s with logFile := log, responses := responses, outFile := out }

theorem OnlyAnswers.directory {s s' : FsState} (answers : OnlyAnswers s s') :
    s'.directory = s.directory := by
  obtain ⟨log, responses, out, rfl⟩ := answers
  rfl

theorem sendResponse_answers (s : FsState) (code : Int32) : OnlyAnswers s (s.sendResponse code) :=
  ⟨_, _, _, rfl⟩

theorem listCommand_answers (env : CommandEnv) (scope : Option Bytes) (s : FsState) :
    OnlyAnswers s (listCommand env scope s) := by
  unfold listCommand listConfigs listEvents FsState.sendResponse
  cases env.outFileOpens <;> split_ifs <;> exact ⟨_, _, _, rfl⟩

theorem switchConfig_none {env : CommandEnv} {arg : Bytes} {status : Bool} {s : FsState}
    (absent : findConfig s (atoi arg) = none) :
    switchConfig env arg status s = s.sendResponse 1 := by
  simp only [switchConfig, absent]

theorem switchConfig_some {env : CommandEnv} {arg : Bytes} {status : Bool} {s : FsState} {i : Nat}
    (found : findConfig s (atoi arg) = some i) :
    OnlyAnswers (rebuildWatches env.watches (switchTable s i status))
      (switchConfig env arg status s) := by
  simp only [switchConfig, found]
  exact ⟨_, _, _, rfl⟩

theorem switchConfig_responses (env : CommandEnv) (arg : Bytes) (status : Bool) (s : FsState) :
    (switchConfig env arg status s).responses =
      s.responses ++ [if (findConfig s (atoi arg)).isSome then 0 else 1] := by
  cases found : findConfig s (atoi arg) with
  | none =>
      rw [switchConfig_none found]
      rfl
  | some i =>
      obtain ⟨configs, count, directory, bounded, table⟩ := switchTable_frame s i status
      have fits : (switchTable s i status).configCount ≤ MAX_CONFIGS := by
        rw [table]
        exact bounded
      have same := (rebuildWatches_keeps env.watches fits).2.1
      simp only [switchConfig, found, FsState.sendResponse, FsState.logLine]
      rw [same, table]
      rfl

theorem handleMessage_tokens {message opt : Bytes} {args : List Bytes}
    (tokens : splitCommand (cstr message) = opt :: args) (env : CommandEnv) (s : FsState) :
    handleMessage env message s = handleCommand env (cstr message) s := by
  have nonempty : message ≠ [] := by
    rintro rfl
    cases tokens
  rw [handleMessage, if_neg nonempty]

theorem handleMessage_cases (env : CommandEnv) (message : Bytes) (s : FsState) :
    match rebuildTable s message with
    | some table => OnlyAnswers (rebuildWatches env.watches table) (handleMessage env message s)
    | none => OnlyAnswers (if reloads message then loadConfigs s else s)
        (handleMessage env message s) := by
  unfold rebuildTable reloads
  cases tokens : splitCommand (cstr message) with
  | nil =>
      simp only [handleMessage, handleCommand, tokens, ne_eq, not_true, decide_false,
        Bool.false_eq_true, if_false]
      split_ifs <;> exact ⟨_, _, _, rfl⟩
  | cons opt args =>
      have different : lit "stop" ≠ lit "start" := by decide
      simp only [handleMessage_tokens tokens, handleCommand, tokens]
      cases args with
      | nil =>
          simp only [List.head?_nil, ne_eq, reduceCtorEq, not_false_eq_true, decide_true, if_true]
          split_ifs
          · exact listCommand_answers env none _
          · exact sendResponse_answers _ 1
      | cons arg rest =>
          simp only [List.head?_cons, ne_eq, reduceCtorEq, not_false_eq_true, decide_true, if_true]
          by_cases start : opt = lit "start"
          · simp only [start, true_or, if_true, decide_true]
            cases found : findConfig (loadConfigs s) (atoi arg) with
            | none =>
                rw [switchConfig_none found]
                exact sendResponse_answers _ 1
            | some i => exact switchConfig_some found
          · by_cases stop : opt = lit "stop"
            · simp only [stop, different, or_true, if_true, if_false, decide_false]
              cases found : findConfig (loadConfigs s) (atoi arg) with
              | none =>
                  rw [switchConfig_none found]
                  exact sendResponse_answers _ 1
              | some i => exact switchConfig_some found
            · simp only [start, stop, or_self, if_false]
              split_ifs
              · exact listCommand_answers env (some arg) _
              · exact sendResponse_answers _ 1

/-! ## Events -/

def OnlyRecords (s s' : FsState) : Prop :=
  ∃ events count cursor log alarms, s' =
    { s with
      events := events
      eventCount := count
      eventCursor := cursor
      logFile := log
      alarms := alarms }

theorem OnlyRecords.refl (s : FsState) : OnlyRecords s s := ⟨_, _, _, _, _, rfl⟩

theorem OnlyRecords.trans {s t u : FsState} (first : OnlyRecords s t) (second : OnlyRecords t u) :
    OnlyRecords s u := by
  obtain ⟨_, _, _, _, _, rfl⟩ := first
  obtain ⟨_, _, _, _, _, rfl⟩ := second
  exact ⟨_, _, _, _, _, rfl⟩

theorem foldl_onlyRecords {α : Type} {f : FsState → α → FsState}
    (each : ∀ s a, OnlyRecords s (f s a)) (l : List α) (s : FsState) :
    OnlyRecords s (l.foldl f s) := by
  induction l generalizing s with
  | nil => exact .refl s
  | cons a l ih => exact (each s a).trans (ih (f s a))

theorem recordEvent_records (now : Time) (config : FsConfig) (op : Bytes) (path : CharBuf 512)
    (s : FsState) : OnlyRecords s (recordEvent now config op path s) := by
  unfold recordEvent FsState.logLine
  by_cases full : s.eventCount = MAX_EVENTS <;> simp only [full, if_true, if_false] <;>
    split <;> exact ⟨_, _, _, _, _, rfl⟩

theorem handleInotifyEvent_records (now : Time) (s : FsState) (ev : InotifyEvent) :
    OnlyRecords s (handleInotifyEvent now s ev) := by
  unfold handleInotifyEvent
  split
  · exact recordEvent_records _ _ _ _ s
  · exact .refl s

theorem monitorOnce_records (env : ReadEnv) (s : FsState) : OnlyRecords s (monitorOnce env s) := by
  unfold monitorOnce
  split
  · have drained := foldl_onlyRecords (fun s events =>
      foldl_onlyRecords (handleInotifyEvent_records env.now) events s) env.reads s
    dsimp only
    split
    · exact drained.trans ⟨_, _, _, _, _, rfl⟩
    · exact drained
  · exact .refl s

end SysDetector.Fs
