import SysDetector.Proc.ConfigFiles

namespace SysDetector.Proc
open CLib

/-! ## Keys and values -/

def readField (line : Bytes) : Option (Bytes × Bytes) :=
  (splitAt 61 (cstr line)).map fun (key, value) => (trimWhitespace key, trimWhitespace value)

def readFields (text : Bytes) : List (Bytes × Bytes) :=
  (fgets MAX_LINE_LENGTH text).filterMap readField

def PsOpt.Accepts : PsOpt → Bytes → Prop
  | .monitorPeriod, value => strtolRest value = [] ∧ 1 ≤ strtol value
  | .monitorSwitch, value => strcaseeq value (lit "on") ∨ strcaseeq value (lit "off")
  | _, _ => True

/-! Each key sets one field of the config: `read` is what it makes of a value. -/

def PsOpt.Value : PsOpt → Type
  | .monitorPeriod => Int32
  | .monitorSwitch => Bool
  | .user => CharBuf 32
  | .name => CharBuf 64
  | _ => CharBuf 256

def PsOpt.read : (opt : PsOpt) → Bytes → opt.Value
  | .monitorPeriod, value => Int32.ofInt (strtol value)
  | .monitorSwitch, value => strcaseeq value (lit "on")
  | .user, value => snprintf 32 value
  | .name, value => snprintf 64 value
  | .recoverCommand, value => snprintf 256 value
  | .monitorCommand, value => snprintf 256 value
  | .stopCommand, value => snprintf 256 value
  | .alarmCommand, value => snprintf 256 value

def PsOpt.get : (opt : PsOpt) → ProcessConfig → opt.Value
  | .monitorPeriod, config => config.monitorPeriod
  | .monitorSwitch, config => config.monitorSwitch
  | .user, config => config.user
  | .name, config => config.name
  | .recoverCommand, config => config.recoverCmd
  | .monitorCommand, config => config.monitorCmd
  | .stopCommand, config => config.stopCmd
  | .alarmCommand, config => config.alarmCmd

def PsOpt.put : (opt : PsOpt) → opt.Value → ProcessConfig → ProcessConfig
  | .monitorPeriod, period, config => { config with monitorPeriod := period }
  | .monitorSwitch, on, config => { config with monitorSwitch := on }
  | .user, text, config => { config with user := text }
  | .name, text, config => { config with name := text }
  | .recoverCommand, text, config => { config with recoverCmd := text }
  | .monitorCommand, text, config => { config with monitorCmd := text }
  | .stopCommand, text, config => { config with stopCmd := text }
  | .alarmCommand, text, config => { config with alarmCmd := text }

theorem PsOpt.get_put (opt : PsOpt) (value : opt.Value) (config : ProcessConfig) :
    opt.get (opt.put value config) = value := by
  cases opt <;> rfl

theorem PsOpt.get_put_of_ne {opt other : PsOpt} (different : other ≠ opt) (value : other.Value)
    (config : ProcessConfig) : opt.get (other.put value config) = opt.get config := by
  cases opt <;> cases other <;> first | rfl | exact absurd rfl different

theorem config_eq_of_get {config config' : ProcessConfig}
    (fields : ∀ opt : PsOpt, opt.get config = opt.get config')
    (configId : config.configId = config'.configId)
    (lastMonitorTime : config.lastMonitorTime = config'.lastMonitorTime) : config = config' := by
  cases config
  cases config'
  cases configId
  cases lastMonitorTime
  cases fields .monitorPeriod
  cases fields .monitorSwitch
  cases fields .user
  cases fields .name
  cases fields .recoverCommand
  cases fields .monitorCommand
  cases fields .stopCommand
  cases fields .alarmCommand
  rfl

def PsOpt.store (opt : PsOpt) (value : Bytes) (config : ProcessConfig) : ProcessConfig :=
  opt.put (opt.read value) config

theorem item_func_eq_some_iff (opt : PsOpt) (value : Bytes) (config config' : ProcessConfig) :
    opt.item.func value config = some config' ↔
      opt.Accepts value ∧ opt.store value config = config' := by
  cases opt with
  | monitorPeriod =>
      simp only [PsOpt.item, parseMonitorPeriod, PsOpt.Accepts, PsOpt.store, PsOpt.put, PsOpt.read,
        Option.ite_none_left_eq_some, Option.some.injEq, not_or, not_not, not_lt]
  | monitorSwitch =>
      simp only [PsOpt.item, parseMonitorSwitch, PsOpt.Accepts, PsOpt.store, PsOpt.put, PsOpt.read]
      by_cases on : strcaseeq value (lit "on") = true
      · simp [on]
      · simp [on, Option.ite_none_right_eq_some]
  | _ => simp [PsOpt.item, PsOpt.Accepts, PsOpt.store, PsOpt.put, PsOpt.read, parseUser, parseName,
      parseRecoverCommand, parseMonitorCommand, parseStopCommand, parseAlarmCommand]

def ValidField (field : Bytes × Bytes) : Prop :=
  isComment field.1 = true ∨ ∃ opt, findOpt field.1 = some opt ∧ opt.Accepts field.2

def setting (field : Bytes × Bytes) : Option (PsOpt × Bytes) :=
  if isComment field.1 then none else (findOpt field.1).map fun opt => (opt, field.2)

def settings (text : Bytes) : List (PsOpt × Bytes) := (readFields text).filterMap setting

def storeAll (config : ProcessConfig) (settings : List (PsOpt × Bytes)) : ProcessConfig :=
  settings.foldl (fun config setting => setting.1.store setting.2 config) config

theorem foldlM_parseLine (lines : List Bytes) (config : ProcessConfig) :
    lines.foldlM parseLine config =
      (lines.filterMap readField).foldlM (fun config field => assign config field.1 field.2)
        config := by
  induction lines generalizing config with
  | nil => rfl
  | cons line lines ih =>
      rw [List.foldlM_cons, List.filterMap_cons]
      unfold parseLine readField at ih ⊢
      cases split : splitAt 61 (cstr line) with
      | none => exact ih config
      | some parts =>
          rw [Option.map_some, List.foldlM_cons]
          exact congrArg _ (funext ih)

theorem assign_eq_some_iff (config config' : ProcessConfig) (field : Bytes × Bytes) :
    assign config field.1 field.2 = some config' ↔
      ValidField field ∧ storeAll config (setting field).toList = config' := by
  unfold assign ValidField setting
  cases comment : isComment field.1 with
  | true => simp [storeAll]
  | false =>
      cases found : findOpt field.1 with
      | none => simp
      | some opt => simp [item_func_eq_some_iff, storeAll]

theorem foldlM_assign_eq_some_iff (fields : List (Bytes × Bytes))
    (config config' : ProcessConfig) :
    fields.foldlM (fun config field => assign config field.1 field.2) config = some config' ↔
      (∀ field ∈ fields, ValidField field) ∧
        storeAll config (fields.filterMap setting) = config' := by
  induction fields generalizing config with
  | nil => simp [storeAll, eq_comm]
  | cons field fields ih =>
      have next : ∀ middle, storeAll config (setting field).toList = middle →
          storeAll middle (fields.filterMap setting) =
            storeAll config ((field :: fields).filterMap setting) := by
        rintro middle rfl
        rw [List.filterMap_cons]
        cases setting field <;> rfl
      rw [List.foldlM_cons, Option.bind_eq_bind, Option.bind_eq_some_iff, List.forall_mem_cons]
      constructor
      · rintro ⟨middle, first, rest⟩
        obtain ⟨valid, stored⟩ := (assign_eq_some_iff config middle field).mp first
        obtain ⟨others, last⟩ := (ih middle).mp rest
        exact ⟨⟨valid, others⟩, (next middle stored).symm.trans last⟩
      · rintro ⟨⟨valid, others⟩, last⟩
        refine ⟨_, (assign_eq_some_iff config _ field).mpr ⟨valid, rfl⟩, ?_⟩
        exact (ih _).mpr ⟨others, (next _ rfl).trans last⟩

def storedConfig (text : Bytes) (configId : UInt64) : ProcessConfig :=
  storeAll (.defaults configId) (settings text)

theorem parseConfig_eq_some_iff (text : Bytes) (configId : UInt64) (config : ProcessConfig) :
    parseConfig text configId = some config ↔
      (∀ field ∈ readFields text, ValidField field) ∧
        finishConfig (storedConfig text configId) = some config := by
  unfold parseConfig
  rw [foldlM_parseLine, Option.bind_eq_bind, Option.bind_eq_some_iff]
  constructor
  · rintro ⟨stored, read, finished⟩
    obtain ⟨valid, rfl⟩ := (foldlM_assign_eq_some_iff _ _ _).mp read
    exact ⟨valid, finished⟩
  · rintro ⟨valid, finished⟩
    exact ⟨_, (foldlM_assign_eq_some_iff _ _ _).mpr ⟨valid, rfl⟩, finished⟩

/-! ## The last value of a key -/

def lastValue (opt : PsOpt) (settings : List (PsOpt × Bytes)) : Option Bytes :=
  (settings.reverse.find? fun setting => setting.1 = opt).map Prod.snd

theorem mem_of_lastValue {opt : PsOpt} {settings : List (PsOpt × Bytes)} {value : Bytes}
    (last : lastValue opt settings = some value) : (opt, value) ∈ settings := by
  obtain ⟨⟨found, text⟩, isLast, rfl⟩ := Option.map_eq_some_iff.mp last
  have same : found = opt := by simpa using List.find?_some isLast
  have member := List.mem_of_find?_eq_some isLast
  rw [same, List.mem_reverse] at member
  exact member

theorem lastValue_concat (opt : PsOpt) (settings : List (PsOpt × Bytes)) (set : PsOpt × Bytes) :
    lastValue opt (settings ++ [set]) =
      if set.1 = opt then some set.2 else lastValue opt settings := by
  unfold lastValue
  rw [List.reverse_append, List.reverse_singleton, List.singleton_append, List.find?_cons]
  split_ifs with same <;> simp [same]

theorem storeAll_concat (config : ProcessConfig) (settings : List (PsOpt × Bytes))
    (set : PsOpt × Bytes) :
    storeAll config (settings ++ [set]) = set.1.store set.2 (storeAll config settings) := by
  simp [storeAll]

theorem stored_field (opt : PsOpt) (config : ProcessConfig) (settings : List (PsOpt × Bytes)) :
    opt.get (storeAll config settings) =
      ((lastValue opt settings).map opt.read).getD (opt.get config) := by
  induction settings using List.reverseRecOn with
  | nil => rfl
  | append_singleton settings set ih =>
      obtain ⟨key, value⟩ := set
      rw [storeAll_concat, lastValue_concat, PsOpt.store]
      split_ifs with same
      · cases same
        rw [PsOpt.get_put, Option.map_some, Option.getD_some]
      · rw [PsOpt.get_put_of_ne same, ih]

theorem storeAll_kept {β : Type} (get : ProcessConfig → β)
    (kept : ∀ (opt : PsOpt) value config, get (opt.put value config) = get config)
    (config : ProcessConfig) (settings : List (PsOpt × Bytes)) :
    get (storeAll config settings) = get config := by
  induction settings using List.reverseRecOn with
  | nil => rfl
  | append_singleton settings set ih => rw [storeAll_concat, PsOpt.store, kept, ih]

theorem storedConfig_monitorPeriod (text : Bytes) (configId : UInt64) :
    (storedConfig text configId).monitorPeriod =
      ((lastValue .monitorPeriod (settings text)).map (PsOpt.read .monitorPeriod)).getD (3 : Int32) :=
  stored_field .monitorPeriod _ _

theorem accepts_of_mem {text : Bytes} (valid : ∀ field ∈ readFields text, ValidField field)
    {opt : PsOpt} {value : Bytes} (member : (opt, value) ∈ settings text) : opt.Accepts value := by
  obtain ⟨field, isField, set⟩ := List.mem_filterMap.mp member
  unfold setting at set
  rw [Option.ite_none_left_eq_some, Option.map_eq_some_iff] at set
  obtain ⟨notComment, found, isOpt, same⟩ := set
  cases same
  rcases valid field isField with comment | ⟨other, isOther, accepts⟩
  · exact absurd comment notComment
  · rw [isOpt] at isOther
    cases isOther
    exact accepts

theorem finishConfig_monitorPeriod {config config' : ProcessConfig}
    (finished : finishConfig config = some config') :
    config'.monitorPeriod = config.monitorPeriod := by
  unfold finishConfig at finished
  split_ifs at finished <;> cases finished <;> rfl

end SysDetector.Proc
