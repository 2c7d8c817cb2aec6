import SysDetector.Library.ListFacts
import SysDetector.Library.TextLines
import SysDetector.Proc.ConfigDirectory
import SysDetector.Proc.Frames

namespace SysDetector.Proc
open CLib ListFacts Runs

def columns (config : ProcessConfig) : List Bytes :=
  [config.name.text, config.user.text, config.recoverCmd.text, config.monitorCmd.text,
    config.stopCmd.text, config.alarmCmd.text]

def IsBlank (text : Bytes) : Prop := text ≠ [] ∧ ∀ c ∈ text, isspace c = true

def LinesOrBlank (config : ProcessConfig) : Prop :=
  (∃ text ∈ columns config, 10 ∈ text) → ∃ text ∈ columns config, IsBlank text

/-! ## Values -/

theorem oneLine_infix {part line : Bytes} (inside : part <:+: line) (one : OneLine line) :
    OneLine part := by
  obtain ⟨front, back, rfl⟩ := inside
  rcases List.eq_nil_or_concat' part with rfl | ⟨body, c, rfl⟩
  · exact List.not_mem_nil
  · intro newline
    rw [List.dropLast_concat] at newline
    apply one
    have shape : front ++ (body ++ [c]) ++ back = (front ++ body) ++ c :: back := by simp
    rw [shape, List.dropLast_append_of_ne_nil (List.cons_ne_nil _ _)]
    exact List.mem_append_left _ (List.mem_append_right _ newline)

theorem oneLine_of_fgets {size : Nat} {text line : Bytes} (member : line ∈ fgets size text) :
    OneLine line := by
  obtain ⟨body, clean, rfl | rfl⟩ := fgetsFrom_lines List.not_mem_nil member
  · exact fun newline => clean (List.mem_of_mem_dropLast newline)
  · rw [OneLine, List.dropLast_concat]
    exact clean

theorem newline_notMem_trimEnd {line : Bytes} (one : OneLine line) : 10 ∉ trimEnd line := by
  have kept := oneLine_infix (List.rdropWhile_prefix isspace line).isInfix one
  have solid := trimEnd_endsSolid line
  rw [← trimEnd] at kept
  intro newline
  rcases List.eq_nil_or_concat' (trimEnd line) with empty | ⟨body, c, whole⟩
  · rw [empty] at newline
    cases newline
  · rw [whole] at kept solid newline
    rw [OneLine, List.dropLast_concat] at kept
    rcases List.mem_append.mp newline with inside | last
    · exact kept inside
    · rw [List.mem_singleton] at last
      subst last
      exact absurd (solid 10 List.getLast?_concat) (by decide)

theorem trimWhitespace_lines {value : Bytes} (one : OneLine value)
    (newline : 10 ∈ trimWhitespace value) : ∀ c ∈ trimWhitespace value, isspace c = true := by
  unfold trimWhitespace at newline ⊢
  split_ifs at newline ⊢ with blank
  · exact List.dropWhile_eq_nil_iff.mp blank
  · exact absurd newline (newline_notMem_trimEnd one)

theorem stored_lines {value : Bytes} (one : OneLine value) (size : Nat)
    (newline : 10 ∈ (snprintf size (trimWhitespace value)).text) :
    IsBlank (snprintf size (trimWhitespace value)).text := by
  have part : (snprintf size (trimWhitespace value)).text <+: trimWhitespace value :=
    (List.take_prefix _ _).trans (List.takeWhile_prefix _)
  have blank := trimWhitespace_lines one (part.subset newline)
  exact ⟨List.ne_nil_of_mem newline, fun c inside => blank c (part.subset inside)⟩

theorem value_oneLine {line key value : Bytes} (one : OneLine line)
    (split : splitAt 61 (cstr line) = some (key, value)) : OneLine value := by
  unfold splitAt at split
  split_ifs at split
  obtain ⟨-, rfl⟩ := Prod.mk.inj (Option.some.inj split)
  have cut : cstr line <:+: line := (List.takeWhile_prefix _).isInfix
  have rest : ((cstr line).dropWhile (· ≠ 61)).tail <:+ cstr line :=
    (List.tail_suffix _).trans (List.dropWhile_suffix _)
  exact oneLine_infix (rest.isInfix.trans cut) one

/-! ## Files -/

def Lines (config : ProcessConfig) : Prop := ∀ text ∈ columns config, 10 ∈ text → IsBlank text

theorem lines_iff {config : ProcessConfig} : Lines config ↔
    (10 ∈ config.name.text → IsBlank config.name.text) ∧
      (10 ∈ config.user.text → IsBlank config.user.text) ∧
      (10 ∈ config.recoverCmd.text → IsBlank config.recoverCmd.text) ∧
      (10 ∈ config.monitorCmd.text → IsBlank config.monitorCmd.text) ∧
      (10 ∈ config.stopCmd.text → IsBlank config.stopCmd.text) ∧
      (10 ∈ config.alarmCmd.text → IsBlank config.alarmCmd.text) := by
  simp [Lines, columns]

theorem func_lines (opt : PsOpt) {value : Bytes} {config config' : ProcessConfig}
    (own : ∀ size, 10 ∈ (snprintf size value).text → IsBlank (snprintf size value).text)
    (lines : Lines config) (set : opt.item.func value config = some config') : Lines config' := by
  rw [lines_iff] at lines ⊢
  obtain ⟨name, user, recover, monitor, stop, alarm⟩ := lines
  cases opt with
  | monitorPeriod =>
      simp only [PsOpt.item, parseMonitorPeriod] at set
      split_ifs at set
      cases set
      exact ⟨name, user, recover, monitor, stop, alarm⟩
  | monitorSwitch =>
      simp only [PsOpt.item, parseMonitorSwitch] at set
      split_ifs at set <;> cases set <;> exact ⟨name, user, recover, monitor, stop, alarm⟩
  | user =>
      cases set
      exact ⟨name, own 32, recover, monitor, stop, alarm⟩
  | name =>
      cases set
      exact ⟨own 64, user, recover, monitor, stop, alarm⟩
  | recoverCommand =>
      cases set
      exact ⟨name, user, own 256, monitor, stop, alarm⟩
  | monitorCommand =>
      cases set
      exact ⟨name, user, recover, own 256, stop, alarm⟩
  | stopCommand =>
      cases set
      exact ⟨name, user, recover, monitor, own 256, alarm⟩
  | alarmCommand =>
      cases set
      exact ⟨name, user, recover, monitor, stop, own 256⟩

theorem parseLine_lines {line : Bytes} (one : OneLine line) {config config' : ProcessConfig}
    (lines : Lines config) (parsed : parseLine config line = some config') : Lines config' := by
  unfold parseLine at parsed
  cases split : splitAt 61 (cstr line) with
  | none =>
      rw [split] at parsed
      cases parsed
      exact lines
  | some pair =>
      obtain ⟨key, value⟩ := pair
      rw [split] at parsed
      dsimp only [assign] at parsed
      split_ifs at parsed
      · cases parsed
        exact lines
      · split at parsed
        · exact func_lines _ (stored_lines (value_oneLine one split)) lines parsed
        · cases parsed

theorem defaults_lines (configId : UInt64) : Lines (.defaults configId) := by
  have none : ∀ {size : Nat}, (default : CharBuf size).text = [] := List.take_nil
  simp [lines_iff, ProcessConfig.defaults, none]

theorem parseLines_lines {lines : List Bytes} (one : ∀ line ∈ lines, OneLine line)
    {config config' : ProcessConfig} (start : Lines config)
    (parsed : lines.foldlM parseLine config = some config') : Lines config' := by
  induction lines generalizing config with
  | nil =>
      cases parsed
      exact start
  | cons line lines ih =>
      rw [List.forall_mem_cons] at one
      rw [List.foldlM_cons, Option.bind_eq_bind, Option.bind_eq_some_iff] at parsed
      obtain ⟨next, first, rest⟩ := parsed
      exact ih one.2 (parseLine_lines one.1 start first) rest

theorem finishConfig_lines {config config' : ProcessConfig} (lines : Lines config)
    (finished : finishConfig config = some config') : LinesOrBlank config' := by
  unfold finishConfig at finished
  split_ifs at finished
  · cases finished
    have name : 10 ∈ (defaultMonitorCmd config.name).text → 10 ∈ config.name.text := by
      intro newline
      have whole := ((List.take_prefix _ _).trans (List.takeWhile_prefix _)).subset newline
      have front : 10 ∉ lit "pgrep -f $(which " := by decide
      have back : 10 ∉ lit ")" := by decide
      simpa [front, back] using whole
    rw [lines_iff] at lines
    obtain ⟨own, user, recover, -, stop, alarm⟩ := lines
    simp only [LinesOrBlank, columns, List.mem_cons, List.not_mem_nil, or_false, exists_eq_or_imp,
      exists_eq_left]
    rintro (newline | newline | newline | newline | newline | newline)
    · exact .inl (own newline)
    · exact .inr (.inl (user newline))
    · exact .inr (.inr (.inl (recover newline)))
    · exact .inl (own (name newline))
    · exact .inr (.inr (.inr (.inr (.inl (stop newline)))))
    · exact .inr (.inr (.inr (.inr (.inr (alarm newline)))))
  · cases finished
    rintro ⟨text, member, newline⟩
    exact ⟨text, member, lines text member newline⟩

theorem parseConfig_lines {text : Bytes} {configId : UInt64} {config : ProcessConfig}
    (parsed : parseConfig text configId = some config) : LinesOrBlank config := by
  rw [parseConfig, Option.bind_eq_bind, Option.bind_eq_some_iff] at parsed
  obtain ⟨last, read, finished⟩ := parsed
  exact finishConfig_lines (parseLines_lines (fun _ member => oneLine_of_fgets member)
    (defaults_lines configId) read) finished

theorem loads_lines (dir : ProcDirectory) : ∀ load ∈ dir.loads, LinesOrBlank load.config := by
  intro load member
  obtain ⟨entry, -, loaded⟩ := List.mem_filterMap.mp member
  rw [loadOf_eq, Option.ite_none_right_eq_some, Option.bind_eq_some_iff] at loaded
  obtain ⟨-, other, -, made⟩ := loaded
  obtain ⟨file, -, rest⟩ := Option.bind_eq_some_iff.mp made
  obtain ⟨config, read, rfl⟩ := Option.map_eq_some_iff.mp rest
  obtain ⟨file', -, readText⟩ := Option.bind_eq_some_iff.mp read
  obtain ⟨text, -, parsed⟩ := Option.bind_eq_some_iff.mp readText
  exact parseConfig_lines parsed

/-! ## Runs -/

theorem modify_lines {f : ProcessConfig → ProcessConfig}
    (same : ∀ config, columns (f config) = columns config) {configs : List ProcessConfig}
    (lines : ∀ config ∈ configs, LinesOrBlank config) (i : Nat) :
    ∀ config ∈ configs.modify i f, LinesOrBlank config := by
  refine forall_mem_modify (fun config own => ?_) lines i
  unfold LinesOrBlank
  rw [same]
  exact own

def Listing.Lines : Listing → Prop
  | .config rows => ∀ row ∈ rows, LinesOrBlank row.config
  | .tracked _ => True

structure ColumnLines (s : ProcState) : Prop where
  configs : ∀ config ∈ s.configs, LinesOrBlank config
  outFile : ∀ listing, s.outFile = some listing → listing.Lines

theorem handleProcStatusCommand_outFile (env : CommandEnv) (arg : Option Bytes) (status : Bool)
    (s : ProcState) : (handleProcStatusCommand env arg status s).2.outFile = s.outFile := by
  unfold handleProcStatusCommand
  split
  · rfl
  · split
    · rfl
    · split <;> rfl

theorem handleListCommand_outFile (env : CommandEnv) (scope : Option Bytes) (s : ProcState) :
    (handleListCommand env scope s).outFile = s.outFile ∨
      (handleListCommand env scope s).outFile = some (.config (configRows s)) ∨
      (handleListCommand env scope s).outFile = some (.tracked (trackedRows env.now s)) := by
  unfold handleListCommand handleConfigListCommand handleTrackedListCommand openProcOutFile
  by_cases config : scope = none ∨ scope = some (lit "config")
  · rw [if_pos config]
    cases env.outFileOpens with
    | true => exact .inr (.inl rfl)
    | false => exact .inl rfl
  · rw [if_neg config]
    by_cases tracked : scope = some (lit "tracked")
    · rw [if_pos tracked]
      cases env.outFileOpens with
      | true => exact .inr (.inr rfl)
      | false => exact .inl rfl
    · rw [if_neg tracked]
      exact .inl rfl

theorem handleCommand_outFile (env : CommandEnv) (opt : Bytes) (arg : Option Bytes) (s : ProcState) :
    (handleCommand env opt arg s).outFile = s.outFile ∨
      (handleCommand env opt arg s).outFile = some (.config (configRows s)) ∨
      (handleCommand env opt arg s).outFile = some (.tracked (trackedRows env.now s)) := by
  unfold handleCommand
  split_ifs
  · exact handleListCommand_outFile env arg s
  · left
    dsimp only
    split_ifs <;> exact handleProcStatusCommand_outFile env arg true _
  · exact .inl rfl
  · left
    dsimp only
    split_ifs <;> exact handleProcStatusCommand_outFile env arg false _
  · exact .inl rfl
  · exact .inl rfl

theorem handleMessage_outFile (env : CommandEnv) (message : Bytes) (s : ProcState) :
    (handleMessage env message s).outFile = s.outFile ∨
      (handleMessage env message s).outFile = some (.config (configRows s)) ∨
      (handleMessage env message s).outFile = some (.tracked (trackedRows env.now s)) := by
  unfold handleMessage
  split_ifs
  · exact .inl rfl
  · split
    · exact .inl rfl
    · split_ifs
      · exact handleCommand_outFile env _ _ s
      · exact .inl rfl

theorem ColumnLines.message {s : ProcState} (kept : ColumnLines s) (env : CommandEnv)
    (message : Bytes) : ColumnLines (handleMessage env message s) := by
  constructor
  · rcases handleMessage_switch env message s with ⟨status, i, log, responses, -, -, frame⟩ |
      ⟨-, log, responses, out, frame⟩
    · have switched : ∀ config ∈ (setMonitorSwitch s i status env.now).configs,
          LinesOrBlank config := by
        unfold setMonitorSwitch
        refine modify_lines ?_ kept.configs i
        exact fun _ => rfl
      rw [frame]
      exact switched
    · rw [frame]
      exact kept.configs
  · intro listing left
    rcases handleMessage_outFile env message s with same | rows | rows
    · rw [same] at left
      exact kept.outFile listing left
    · rw [rows, Option.some.injEq] at left
      subst left
      intro row member
      obtain ⟨⟨config, i⟩, inside, rfl⟩ := List.mem_map.mp member
      exact kept.configs config (List.fst_mem_of_mem_zipIdx inside)
    · rw [rows, Option.some.injEq] at left
      subst left
      trivial

theorem ColumnLines.monitor {s : ProcState} (kept : ColumnLines s) (env : MonitorEnv) :
    ColumnLines (monitorStep env s) := by
  obtain ⟨pc, log, runs, frame⟩ := monitorStep_frame env s
  rw [frame]
  refine ⟨?_, kept.outFile⟩
  show ∀ config ∈ monitorConfigs s, LinesOrBlank config
  unfold monitorConfigs disableConfig stampConfig
  cases s.monitor with
  | givingUp t i =>
      refine modify_lines ?_ kept.configs i
      exact fun _ => rfl
  | stamping t i =>
      refine modify_lines ?_ kept.configs i
      exact fun _ => rfl
  | _ => exact kept.configs

theorem ColumnLines.step {s : ProcState} (kept : ColumnLines s) (input : ProcStep) :
    ColumnLines (step s input) := by
  cases input with
  | message env message => exact kept.message env message
  | event now e =>
      obtain ⟨tracked, counters, log, frame⟩ := handleEvent_frame now e s
      rw [Proc.step, frame]
      exact ⟨kept.configs, kept.outFile⟩
  | monitor env => exact kept.monitor env

theorem columns_kept (dir : ProcDirectory) (steps : List ProcStep) :
    ColumnLines (run step (.initial (dir.loads.map Load.config)) steps) := by
  refine run_of_step step (J := ColumnLines) (fun s input kept => kept.step input) ?_ steps
  constructor
  · intro config member
    obtain ⟨load, loaded, rfl⟩ := List.mem_map.mp member
    exact loads_lines dir load loaded
  · intro listing left
    cases left

end SysDetector.Proc
