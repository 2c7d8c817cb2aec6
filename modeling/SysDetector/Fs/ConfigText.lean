import SysDetector.Library.KeyLines
import SysDetector.Fs.ConfigTable

namespace SysDetector.Fs
open CLib

/-! ## Keys and values -/

def entries (text : Bytes) : List (Bytes × Bytes) := (fgets 512 text).filterMap keyValue

def assignAll (config : FsConfig) (entries : List (Bytes × Bytes)) : FsConfig :=
  entries.foldl (fun config entry => assign config entry.1 entry.2) config

def blankConfig (id : Int32) : FsConfig :=
  { FsConfig.zero with id := id, operations := snprintf MAX_FIELD_LEN defaultOperations }

theorem parseLine_eq (config : FsConfig) (line : Bytes) :
    parseLine config line = (keyValue line).elim config fun entry => assign config entry.1 entry.2 := by
  unfold parseLine keyValue
  dsimp only
  split_ifs
  · rfl
  · cases splitAt 61 (trim (cstr line)) <;> rfl

theorem parseConfig_eq (text : Bytes) (id : Int32) :
    parseConfig text id = assignAll (blankConfig id) (entries text) := by
  unfold parseConfig assignAll entries
  show (fgets 512 text).foldl parseLine (blankConfig id) = _
  generalize blankConfig id = config
  induction fgets 512 text generalizing config with
  | nil => rfl
  | cons line lines ih =>
      rw [List.foldl_cons, ih, parseLine_eq]
      cases read : keyValue line with
      | none => rw [List.filterMap_cons_none read, Option.elim_none]
      | some entry => rw [List.filterMap_cons_some read, List.foldl_cons, Option.elim_some]

def lastValue (key : Bytes) (entries : List (Bytes × Bytes)) : Option Bytes :=
  entries.foldl (fun last entry => if entry.1 = key then some entry.2 else last) none

theorem lastValue_append (key : Bytes) (entries : List (Bytes × Bytes)) (entry : Bytes × Bytes) :
    lastValue key (entries ++ [entry]) =
      if entry.1 = key then some entry.2 else lastValue key entries := by
  simp [lastValue]

theorem mem_of_lastValue {key value : Bytes} {entries : List (Bytes × Bytes)}
    (last : lastValue key entries = some value) : (key, value) ∈ entries := by
  induction entries using List.reverseRecOn with
  | nil => cases last
  | append_singleton entries entry ih =>
      rw [lastValue_append] at last
      split_ifs at last with here
      · rw [Option.some.injEq] at last
        exact List.mem_append_right _ (List.mem_singleton.mpr (Prod.ext here last).symm)
      · exact List.mem_append_left _ (ih last)

theorem assignAll_field {α : Type} {field : FsConfig → α} {key : Bytes} {read : Bytes → α}
    (each : ∀ config k v, field (assign config k v) = if k = key then read v else field config)
    (config : FsConfig) (entries : List (Bytes × Bytes)) :
    field (assignAll config entries) = ((lastValue key entries).map read).getD (field config) := by
  induction entries using List.reverseRecOn with
  | nil => rfl
  | append_singleton entries entry ih =>
      have step : assignAll config (entries ++ [entry]) =
          assign (assignAll config entries) entry.1 entry.2 := by
        simp [assignAll]
      rw [step, each, ih, lastValue_append]
      split_ifs <;> rfl

theorem assign_switchKey (config : FsConfig) (v : Bytes) :
    assign config (lit "MONITOR_SWITCH") v =
      { config with monitorSwitch := strcaseeq v (lit "on") } := by
  rw [assign, if_neg (by decide), if_neg (by decide), if_neg (by decide), if_neg (by decide),
    if_pos rfl]

theorem assign_nameKey (config : FsConfig) (v : Bytes) :
    assign config (lit "NAME") v = { config with name := snprintf MAX_FIELD_LEN v } := by
  rw [assign, if_pos rfl]

theorem assign_pathKey (config : FsConfig) (v : Bytes) :
    assign config (lit "PATH") v = { config with path := snprintf MAX_FIELD_LEN v } := by
  rw [assign, if_neg (by decide), if_pos rfl]

theorem assign_operationsKey (config : FsConfig) (v : Bytes) :
    assign config (lit "OPERATIONS") v =
      { config with operations := snprintf MAX_FIELD_LEN v } := by
  rw [assign, if_neg (by decide), if_neg (by decide), if_pos rfl]

theorem assign_alarmKey (config : FsConfig) (v : Bytes) :
    assign config (lit "ALARM_COMMAND") v =
      { config with alarmCmd := snprintf MAX_FIELD_LEN v } := by
  rw [assign, if_neg (by decide), if_neg (by decide), if_neg (by decide), if_pos rfl]

theorem assign_name (config : FsConfig) (k v : Bytes) : (assign config k v).name =
    if k = lit "NAME" then snprintf MAX_FIELD_LEN v else config.name := by
  by_cases here : k = lit "NAME"
  · subst here
    rw [assign_nameKey, if_pos rfl]
  · rw [if_neg here]
    unfold assign
    split_ifs <;> rfl

theorem assign_path (config : FsConfig) (k v : Bytes) : (assign config k v).path =
    if k = lit "PATH" then snprintf MAX_FIELD_LEN v else config.path := by
  by_cases here : k = lit "PATH"
  · subst here
    rw [assign_pathKey, if_pos rfl]
  · rw [if_neg here]
    unfold assign
    split_ifs <;> rfl

theorem assign_operations (config : FsConfig) (k v : Bytes) : (assign config k v).operations =
    if k = lit "OPERATIONS" then snprintf MAX_FIELD_LEN v else config.operations := by
  by_cases here : k = lit "OPERATIONS"
  · subst here
    rw [assign_operationsKey, if_pos rfl]
  · rw [if_neg here]
    unfold assign
    split_ifs <;> rfl

theorem assign_alarmCmd (config : FsConfig) (k v : Bytes) : (assign config k v).alarmCmd =
    if k = lit "ALARM_COMMAND" then snprintf MAX_FIELD_LEN v else config.alarmCmd := by
  by_cases here : k = lit "ALARM_COMMAND"
  · subst here
    rw [assign_alarmKey, if_pos rfl]
  · rw [if_neg here]
    unfold assign
    split_ifs <;> rfl

/-! ## What is written -/

def switchWord (status : Bool) : Bytes := if status then lit "on" else lit "off"

def command (config : FsConfig) : Bytes :=
  if config.alarmCmd.text = [] then lit "true" else config.alarmCmd.text

def configFields (config : FsConfig) : List (Bytes × Bytes) :=
  [(lit "MONITOR_SWITCH", switchWord config.monitorSwitch), (lit "NAME", config.name.text),
    (lit "PATH", config.path.text), (lit "OPERATIONS", config.operations.text),
    (lit "ALARM_COMMAND", command config)]

theorem configText_eq (config : FsConfig) : configText config = fieldsText (configFields config) := by
  have switchKey : lit "MONITOR_SWITCH=" = lit "MONITOR_SWITCH" ++ [61] := by decide
  have nameKey : lit "\nNAME=" = [10] ++ lit "NAME" ++ [61] := by decide
  have pathKey : lit "\nPATH=" = [10] ++ lit "PATH" ++ [61] := by decide
  have operationsKey : lit "\nOPERATIONS=" = [10] ++ lit "OPERATIONS" ++ [61] := by decide
  have commandKey : lit "\nALARM_COMMAND=" = [10] ++ lit "ALARM_COMMAND" ++ [61] := by decide
  have newline : lit "\n" = [10] := by decide
  unfold configText fieldsText configFields switchWord command
  simp only [switchKey, nameKey, pathKey, operationsKey, commandKey, newline, List.flatMap_cons,
    List.flatMap_nil, List.append_assoc, List.cons_append, List.nil_append, List.append_nil]

def texts (config : FsConfig) : List Bytes :=
  [config.name.text, config.path.text, config.operations.text, config.alarmCmd.text]

def ReadConfig (config : FsConfig) : Prop := ∀ t ∈ texts config, StartsSolid t ∧ 10 ∉ t

theorem plainKeys (config : FsConfig) : ∀ field ∈ configFields config,
    PlainKey field.1 ∧ field.1.length ≤ 14 := by
  simp only [configFields, List.forall_mem_cons, List.not_mem_nil, false_implies, implies_true,
    and_true]
  exact ⟨⟨plainKey_of_all (by decide) (by decide), by decide⟩,
    ⟨plainKey_of_all (by decide) (by decide), by decide⟩,
    ⟨plainKey_of_all (by decide) (by decide), by decide⟩,
    ⟨plainKey_of_all (by decide) (by decide), by decide⟩,
    plainKey_of_all (by decide) (by decide), by decide⟩

theorem CharBuf.plain {b : CharBuf MAX_FIELD_LEN} (oneLine : 10 ∉ b.text) :
    0 ∉ b.text ∧ 10 ∉ b.text ∧ b.text.length ≤ 255 :=
  ⟨b.noNul, oneLine, b.short⟩

theorem plainValues {config : FsConfig} (read : ReadConfig config) :
    ∀ field ∈ configFields config, 0 ∉ field.2 ∧ 10 ∉ field.2 ∧ field.2.length ≤ 255 := by
  simp only [ReadConfig, texts, List.forall_mem_cons] at read
  obtain ⟨name, path, operations, alarm, -⟩ := read
  have switch : 0 ∉ switchWord config.monitorSwitch ∧ 10 ∉ switchWord config.monitorSwitch ∧
      (switchWord config.monitorSwitch).length ≤ 255 := by
    cases config.monitorSwitch <;> decide
  have shown : 0 ∉ command config ∧ 10 ∉ command config ∧ (command config).length ≤ 255 := by
    unfold command
    split_ifs
    · decide
    · exact CharBuf.plain alarm.2
  simp only [configFields, List.forall_mem_cons, List.not_mem_nil, false_implies, implies_true,
    and_true]
  exact ⟨switch, CharBuf.plain name.2, CharBuf.plain path.2, CharBuf.plain operations.2, shown⟩

theorem plainFields {config : FsConfig} (read : ReadConfig config) :
    ∀ field ∈ configFields config, PlainField 512 field := by
  intro field member
  obtain ⟨key, keyLength⟩ := plainKeys config field member
  obtain ⟨noNul, oneLine, valueLength⟩ := plainValues read field member
  exact ⟨key, noNul, oneLine, by omega⟩

theorem entries_written {config : FsConfig} (read : ReadConfig config) (n : Nat) :
    entries ((configText config).take n) = readFields n (configFields config) := by
  rw [configText_eq]
  exact read_fields (plainFields read) n

theorem snprintf_sublist {b : CharBuf MAX_FIELD_LEN} {s : Bytes} (part : s.Sublist b.text) :
    (snprintf MAX_FIELD_LEN s).text = s := by
  have noNul : 0 ∉ s := fun member => b.noNul (part.mem member)
  have short := part.length_le.trans b.short
  show (cstr s).take (MAX_FIELD_LEN - 1) = s
  rw [cstr_of_notMem noNul, List.take_of_length_le short]

theorem snprintf_trim (b : CharBuf MAX_FIELD_LEN) :
    (snprintf MAX_FIELD_LEN (trim b.text)).text = trim b.text :=
  snprintf_sublist (trim_sublist b.text)

theorem switchWord_read (status : Bool) :
    strcaseeq (trim (switchWord status)) (lit "on") = status := by
  cases status <;> decide

theorem parse_written {config : FsConfig} (read : ReadConfig config) {n : Nat}
    (enough : (configText config).length ≤ n + 1) (id : Int32) :
    parseConfig ((configText config).take n) id =
      { id := id
        monitorSwitch := config.monitorSwitch
        name := snprintf MAX_FIELD_LEN (trim config.name.text)
        path := snprintf MAX_FIELD_LEN (trim config.path.text)
        operations := snprintf MAX_FIELD_LEN (trim config.operations.text)
        alarmCmd := snprintf MAX_FIELD_LEN (trim (command config)) } := by
  rw [configText_eq] at enough
  rw [parseConfig_eq, entries_written read, readFields_all enough]
  simp only [configFields, assignAll, List.map_cons, List.map_nil, List.foldl_cons, List.foldl_nil,
    assign_switchKey, assign_nameKey, assign_pathKey, assign_operationsKey, assign_alarmKey,
    switchWord_read]
  rfl

/-! ## A text that was cut off -/

def pathStart (config : FsConfig) : Nat :=
  (lit "MONITOR_SWITCH=" ++ switchWord config.monitorSwitch ++ lit "\nNAME=" ++ config.name.text ++
    lit "\nPATH=").length

theorem pathStart_eq (config : FsConfig) : pathStart config =
    (switchWord config.monitorSwitch).length + config.name.text.length + 27 := by
  have switchKey : (lit "MONITOR_SWITCH=").length = 15 := by decide
  have nameKey : (lit "\nNAME=").length = 6 := by decide
  have pathKey : (lit "\nPATH=").length = 6 := by decide
  simp only [pathStart, List.length_append, switchKey, nameKey, pathKey]
  omega

theorem assignAll_cons (config : FsConfig) (entry : Bytes × Bytes) (rest : List (Bytes × Bytes)) :
    assignAll config (entry :: rest) = assignAll (assign config entry.1 entry.2) rest := rfl

theorem keyLengths : (lit "MONITOR_SWITCH").length = 14 ∧ (lit "NAME").length = 4 ∧
    (lit "PATH").length = 4 := by
  decide

theorem parse_short {config : FsConfig} (read : ReadConfig config) {n : Nat}
    (short : n ≤ pathStart config) (id : Int32) :
    (parseConfig ((configText config).take n) id).path.text = [] := by
  obtain ⟨switchKey, nameKey, pathKey⟩ := keyLengths
  rw [pathStart_eq] at short
  rw [parseConfig_eq, entries_written read, configFields]
  rw [readFields, readFields, readFields, switchKey, nameKey, pathKey]
  split_ifs with inSwitch inName inPath
  · rfl
  · rw [assignAll_cons, assign_switchKey]
    rfl
  · rw [assignAll_cons, assign_switchKey, assignAll_cons, assign_nameKey]
    rfl
  · have nothing : n - (14 + (switchWord config.monitorSwitch).length + 2) -
        (4 + config.name.text.length + 2) - (4 + 1) = 0 := by omega
    have passed : n - (14 + (switchWord config.monitorSwitch).length + 2) -
        (4 + config.name.text.length + 2) - (4 + config.path.text.length + 2) = 0 := by omega
    rw [nothing, passed, readFields_zero, assignAll_cons, assign_switchKey, assignAll_cons,
      assign_nameKey, assignAll_cons, assign_pathKey]
    rfl

theorem assignAll_rest (config : FsConfig) (n : Nat) (operations alarm : Bytes) :
    let read := assignAll config
      (readFields n [(lit "OPERATIONS", operations), (lit "ALARM_COMMAND", alarm)])
    read.monitorSwitch = config.monitorSwitch ∧ read.name = config.name ∧
      read.path = config.path := by
  rw [readFields, readFields, readFields]
  split_ifs
  · exact ⟨rfl, rfl, rfl⟩
  · rw [assignAll_cons, assign_operationsKey]
    exact ⟨rfl, rfl, rfl⟩
  · rw [assignAll_cons, assign_operationsKey, assignAll_cons, assign_alarmKey]
    exact ⟨rfl, rfl, rfl⟩

theorem parse_long {config : FsConfig} (read : ReadConfig config) {n : Nat}
    (long : pathStart config < n) (id : Int32) :
    (parseConfig ((configText config).take n) id).monitorSwitch = config.monitorSwitch ∧
      (parseConfig ((configText config).take n) id).name =
        snprintf MAX_FIELD_LEN (trim config.name.text) ∧
      (parseConfig ((configText config).take n) id).path =
        snprintf MAX_FIELD_LEN (trim (config.path.text.take (n - pathStart config))) := by
  obtain ⟨switchKey, nameKey, pathKey⟩ := keyLengths
  rw [pathStart_eq] at long ⊢
  have wholeSwitch : (switchWord config.monitorSwitch).take (n - (14 + 1)) =
      switchWord config.monitorSwitch := List.take_of_length_le (by omega)
  have wholeName : config.name.text.take
      (n - (14 + (switchWord config.monitorSwitch).length + 2) - (4 + 1)) = config.name.text :=
    List.take_of_length_le (by omega)
  have inPath : n - (14 + (switchWord config.monitorSwitch).length + 2) -
      (4 + config.name.text.length + 2) - (4 + 1) =
        n - ((switchWord config.monitorSwitch).length + config.name.text.length + 27) := by omega
  rw [parseConfig_eq, entries_written read, configFields]
  rw [readFields, readFields, readFields, switchKey, nameKey, pathKey, if_neg (by omega),
    if_neg (by omega), if_neg (by omega), wholeSwitch, wholeName, inPath, assignAll_cons,
    assign_switchKey, assignAll_cons, assign_nameKey, assignAll_cons, assign_pathKey,
    switchWord_read]
  exact assignAll_rest _ _ _ _

/-! ## What was read -/

/-- The last value of the key goes on beyond the 255 bytes that are kept, of which the last is
white space. -/
def CutAfterSpace (text key : Bytes) : Prop :=
  ∃ value c, lastValue key (entries text) = some value ∧ value[254]? = some c ∧ isspace c = true

theorem entries_readValue {text key value : Bytes} (member : (key, value) ∈ entries text) :
    ReadValue value := by
  obtain ⟨line, fromFile, read⟩ := List.mem_filterMap.mp member
  exact keyValue_readValue fromFile read

theorem readValue_field {value : Bytes} (read : ReadValue value) :
    (snprintf MAX_FIELD_LEN value).text = value.take 255 := by
  show (cstr value).take 255 = _
  rw [cstr_of_notMem read.noNul]

theorem readValue_ends_iff {value : Bytes} (read : ReadValue value) :
    EndsSolid (value.take 255) ↔ ¬ ∃ c, value[254]? = some c ∧ isspace c = true := by
  unfold EndsSolid
  rw [List.getLast?_take, if_neg (by decide)]
  cases kept : value[254]? with
  | none =>
      simp only [Option.none_or, reduceCtorEq, false_and, exists_false, not_false_eq_true,
        iff_true]
      exact read.ends
  | some c => simp

structure ReadField (text key t : Bytes) : Prop where
  starts : StartsSolid t
  oneLine : 10 ∉ t
  ends : EndsSolid t ↔ ¬ CutAfterSpace text key

theorem readField {text key : Bytes} {field : CharBuf MAX_FIELD_LEN} (blank : CharBuf MAX_FIELD_LEN)
    (plain : ReadValue blank.text)
    (last : field = ((lastValue key (entries text)).map (snprintf MAX_FIELD_LEN)).getD blank) :
    ReadField text key field.text := by
  cases found : lastValue key (entries text) with
  | none =>
      rw [found] at last
      rw [show field = blank from last]
      exact ⟨plain.starts, plain.oneLine, iff_of_true plain.ends (by simp [CutAfterSpace, found])⟩
  | some value =>
      rw [found] at last
      have read := entries_readValue (mem_of_lastValue found)
      have text : field.text = value.take 255 := by
        rw [show field = snprintf MAX_FIELD_LEN value from last, readValue_field read]
      rw [text]
      refine ⟨?_, fun member => read.oneLine (List.mem_of_mem_take member), ?_⟩
      · intro c first
        rw [List.head?_take, if_neg (by decide)] at first
        exact read.starts c first
      · rw [readValue_ends_iff read]
        simp [CutAfterSpace, found]

theorem readValue_nil : ReadValue [] := ⟨by decide, by decide, by decide, by decide⟩

theorem readValue_default : ReadValue (snprintf MAX_FIELD_LEN defaultOperations).text :=
  ⟨by decide, by decide, by decide, by decide⟩

section Parsed
variable (text : Bytes) (id : Int32)

theorem parse_name : ReadField text (lit "NAME") (parseConfig text id).name.text := by
  refine readField (snprintf MAX_FIELD_LEN []) readValue_nil ?_
  rw [parseConfig_eq, assignAll_field assign_name]
  rfl

theorem parse_path : ReadField text (lit "PATH") (parseConfig text id).path.text := by
  refine readField (snprintf MAX_FIELD_LEN []) readValue_nil ?_
  rw [parseConfig_eq, assignAll_field assign_path]
  rfl

theorem parse_operations :
    ReadField text (lit "OPERATIONS") (parseConfig text id).operations.text := by
  refine readField (snprintf MAX_FIELD_LEN defaultOperations) readValue_default ?_
  rw [parseConfig_eq, assignAll_field assign_operations]
  rfl

theorem parse_alarmCmd :
    ReadField text (lit "ALARM_COMMAND") (parseConfig text id).alarmCmd.text := by
  refine readField (snprintf MAX_FIELD_LEN []) readValue_nil ?_
  rw [parseConfig_eq, assignAll_field assign_alarmCmd]
  rfl

theorem parse_readConfig : ReadConfig (parseConfig text id) := by
  have name := parse_name text id
  have path := parse_path text id
  have operations := parse_operations text id
  have alarmCmd := parse_alarmCmd text id
  simp only [ReadConfig, texts, List.forall_mem_cons, List.not_mem_nil, false_implies, implies_true,
    and_true]
  exact ⟨⟨name.starts, name.oneLine⟩, ⟨path.starts, path.oneLine⟩,
    ⟨operations.starts, operations.oneLine⟩, alarmCmd.starts, alarmCmd.oneLine⟩

def Solid (config : FsConfig) : Prop := ∀ t ∈ texts config, EndsSolid t

instance (config : FsConfig) : Decidable (Solid config) :=
  inferInstanceAs (Decidable (∀ t ∈ texts config, EndsSolid t))

def fieldKeys : List Bytes := [lit "NAME", lit "PATH", lit "OPERATIONS", lit "ALARM_COMMAND"]

theorem parse_solid_iff :
    Solid (parseConfig text id) ↔ ∀ key ∈ fieldKeys, ¬ CutAfterSpace text key := by
  simp only [Solid, texts, fieldKeys, List.forall_mem_cons, (parse_name text id).ends,
    (parse_path text id).ends, (parse_operations text id).ends, (parse_alarmCmd text id).ends,
    List.not_mem_nil, false_implies, implies_true]

end Parsed

end SysDetector.Fs
