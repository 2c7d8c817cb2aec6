import SysDetector.Proc.WholeLines

namespace SysDetector.Proc
open CLib

def number (value : Bytes) : Option Int :=
  match scanInteger value with
  | some (negative, n, []) => some (if negative then -(n : Int) else n)
  | _ => none

def lastPeriod (settings : List (PsOpt × Bytes)) : Option Int :=
  ((lastValue .monitorPeriod settings).map number).getD (some 3)

def WritesPeriod (line value : Bytes) : Prop := lineSetting line = some (.monitorPeriod, value)

structure PeriodKept (text : Bytes) (config : ProcessConfig) : Prop where
  positive : 1 ≤ config.monitorPeriod.toInt
  written : lastPeriod (writtenSettings text) = some config.monitorPeriod.toInt
  inRange : ∀ line ∈ textLines text, ∀ value, WritesPeriod line value →
    ∃ n, number value = some n ∧ 1 ≤ n ∧ n < 2 ^ 31

/-- The last piece for the period has the number of the last line for it, which fits an `int`, or one
that wraps to it. -/
def LastPeriodRead (text : Bytes) : Prop :=
  ∃ m n, lastPeriod (writtenSettings text) = some m ∧ lastPeriod (settings text) = some n ∧
    1 ≤ m ∧ m < 2 ^ 31 ∧ n < 2 ^ 63 ∧ (n - m) % 2 ^ 32 = 0

structure PeriodsRead (text : Bytes) : Prop where
  last : LastPeriodRead text
  small : ∀ line ∈ textLines text, ∀ value, WritesPeriod line value →
    ∀ n, number value = some n → n < 2 ^ 31
  cut : ∀ line ∈ textLines text, ¬ FitsLine line → ∀ value, WritesPeriod line value →
    ∃ n, number value = some n ∧ 1 ≤ n

/-! ## Numbers -/

theorem number_of_accepts {value : Bytes} (accepted : PsOpt.Accepts .monitorPeriod value) :
    ∃ n, number value = some n ∧ 1 ≤ n ∧ strtol value = min (2 ^ 63 - 1) n := by
  obtain ⟨rest, positive⟩ := accepted
  unfold strtolRest at rest
  unfold strtol at positive ⊢
  unfold number
  cases scanned : scanInteger value with
  | none =>
      rw [scanned] at positive
      exact absurd positive (by decide)
  | some parts =>
      obtain ⟨negative, n, more⟩ := parts
      rw [scanned] at rest positive
      dsimp only at rest positive ⊢
      subst rest
      refine ⟨_, rfl, ?_, ?_⟩
      · omega
      · omega

theorem ofInt_wraps {n m : Int} (positive : 1 ≤ n) (atLeastOne : 1 ≤ m) (small : m < 2 ^ 31) :
    (Int32.ofInt (min (2 ^ 63 - 1) n)).toInt = m ↔ n < 2 ^ 63 ∧ (n - m) % 2 ^ 32 = 0 := by
  have size : (Int32.size : Int) = 2 ^ 32 := rfl
  rw [Int32.toInt_ofInt, Int.bmod_def, size]
  split_ifs <;> omega

theorem trimEnd_of_accepts {text value : Bytes}
    (member : (PsOpt.monitorPeriod, value) ∈ settings text)
    (accepted : PsOpt.Accepts .monitorPeriod value) : trimEnd value = value := by
  rcases trimmed_of_mem_settings member with spaces | ends
  · obtain ⟨n, isNumber, -⟩ := number_of_accepts accepted
    simp [number, scanInteger, spaces] at isNumber
  · exact trimEnd_eq_self_iff.mpr ends

theorem lastPeriod_of_value {settings : List (PsOpt × Bytes)} {value : Bytes}
    (last : lastValue .monitorPeriod settings = some value) : lastPeriod settings = number value := by
  rw [lastPeriod, last]
  rfl

theorem lastPeriod_of_none {settings : List (PsOpt × Bytes)}
    (last : lastValue .monitorPeriod settings = none) : lastPeriod settings = some 3 := by
  rw [lastPeriod, last]
  rfl

theorem fits_of_short {line : Bytes} (short : line.length ≤ MAX_LINE_LENGTH - 1)
    (noNul : 0 ∉ line) : FitsLine line := by
  refine ⟨fun c member => ?_, fun set isSet nul => ?_⟩
  · rw [List.drop_of_length_le short] at member
    cases member
  · by_cases inside : 61 ∈ line
    · obtain ⟨key, value, noEquals, rfl⟩ := split_of_mem inside
      rw [lineSetting_field noEquals, Option.map_eq_some_iff] at isSet
      obtain ⟨opt, -, rfl⟩ := isSet
      have inValue : 0 ∈ value := (List.rdropWhile_prefix isspace value).mem nul
      exact noNul (List.mem_append_right _ (List.mem_cons_of_mem _ inValue))
    · rw [lineSetting_of_notMem inside] at isSet
      cases isSet

/-! ## Accepted texts -/

section
variable {text : Bytes} {configId : UInt64} {config : ProcessConfig}
  (accepted : parseConfig text configId = some config)
include accepted

theorem period_accepts {value : Bytes} (member : (PsOpt.monitorPeriod, value) ∈ settings text) :
    PsOpt.Accepts .monitorPeriod value :=
  accepts_of_mem ((parseConfig_eq_some_iff text configId config).mp accepted).1 member

theorem stored_period : ∃ n, lastPeriod (settings text) = some n ∧ 1 ≤ n ∧
    config.monitorPeriod = Int32.ofInt (min (2 ^ 63 - 1) n) := by
  obtain ⟨-, finished⟩ := (parseConfig_eq_some_iff text configId config).mp accepted
  have stored := (finishConfig_monitorPeriod finished).trans
    (storedConfig_monitorPeriod text configId)
  cases last : lastValue .monitorPeriod (settings text) with
  | none =>
      rw [last] at stored
      refine ⟨3, lastPeriod_of_none last, by decide, stored.trans ?_⟩
      show (3 : Int32) = _
      decide
  | some value =>
      obtain ⟨n, isNumber, positive, read⟩ :=
        number_of_accepts (period_accepts accepted (mem_of_lastValue last))
      rw [last] at stored
      refine ⟨n, (lastPeriod_of_value last).trans isNumber, positive, stored.trans ?_⟩
      exact congrArg Int32.ofInt read

theorem fitting_period {line value : Bytes} (member : line ∈ textLines text) (fits : FitsLine line)
    (writes : WritesPeriod line value) : ∃ n, number value = some n ∧ 1 ≤ n := by
  have applied := applied_of_fits (oneLine_of_mem member) fits
  rw [writes, Option.toList_some] at applied
  have isApplied : (PsOpt.monitorPeriod, value) ∈ appliedSettings line := by simp [applied]
  obtain ⟨⟨opt, read⟩, isSet, same⟩ := List.mem_map.mp isApplied
  rw [trimmedSetting, Prod.mk.injEq] at same
  obtain ⟨rfl, rfl⟩ := same
  have inText : (PsOpt.monitorPeriod, read) ∈ settings text := by
    rw [settings_lines]
    exact List.mem_flatMap_of_mem member isSet
  have accepts := period_accepts accepted inText
  obtain ⟨n, isNumber, positive, -⟩ := number_of_accepts accepts
  exact ⟨n, by rw [trimEnd_of_accepts inText accepts, isNumber], positive⟩

theorem lastPeriod_whole (whole : ∀ line ∈ textLines text, FitsLine line ∨ AssignsNothing line) :
    lastPeriod (writtenSettings text) = lastPeriod (settings text) := by
  have applied := applied_of_lines fun line member =>
    (applied_line_iff (oneLine_of_mem member)).mpr (whole line member)
  have trimmed : lastValue .monitorPeriod (writtenSettings text) =
      (lastValue .monitorPeriod (settings text)).map trimEnd := by
    rw [← applied]
    exact lastValue_trimmed .monitorPeriod _
  cases last : lastValue .monitorPeriod (settings text) with
  | none =>
      rw [last, Option.map_none] at trimmed
      rw [lastPeriod_of_none last, lastPeriod_of_none trimmed]
  | some value =>
      have member := mem_of_lastValue last
      rw [last, Option.map_some, trimEnd_of_accepts member (period_accepts accepted member)] at trimmed
      rw [lastPeriod_of_value last, lastPeriod_of_value trimmed]

theorem last_kept_iff : 1 ≤ config.monitorPeriod.toInt ∧
    lastPeriod (writtenSettings text) = some config.monitorPeriod.toInt ↔ LastPeriodRead text := by
  obtain ⟨n, isLast, positive, stored⟩ := stored_period accepted
  constructor
  · rintro ⟨atLeastOne, written⟩
    have small := config.monitorPeriod.toInt_lt
    have wraps := (ofInt_wraps positive atLeastOne small).mp (by rw [stored])
    exact ⟨_, n, written, isLast, atLeastOne, small, wraps⟩
  · rintro ⟨m, n', written, again, atLeastOne, small, wraps⟩
    rw [isLast, Option.some.injEq] at again
    subst again
    have same := (ofInt_wraps positive atLeastOne small).mpr wraps
    rw [← stored] at same
    rw [same]
    exact ⟨atLeastOne, written⟩

theorem period_kept_iff : PeriodKept text config ↔ PeriodsRead text := by
  constructor
  · intro kept
    refine ⟨(last_kept_iff accepted).mp ⟨kept.positive, kept.written⟩, ?_, ?_⟩
    · intro line member value writes n isNumber
      obtain ⟨m, again, -, small⟩ := kept.inRange line member value writes
      rw [isNumber, Option.some.injEq] at again
      rwa [again]
    · intro line member _ value writes
      obtain ⟨n, isNumber, positive, -⟩ := kept.inRange line member value writes
      exact ⟨n, isNumber, positive⟩
  · intro read
    obtain ⟨positive, written⟩ := (last_kept_iff accepted).mpr read.last
    refine ⟨positive, written, fun line member value writes => ?_⟩
    obtain ⟨n, isNumber, atLeastOne⟩ : ∃ n, number value = some n ∧ 1 ≤ n := by
      by_cases fits : FitsLine line
      · exact fitting_period accepted member fits writes
      · exact read.cut line member fits value writes
    exact ⟨n, isNumber, atLeastOne, read.small line member value writes n isNumber⟩

theorem periodsRead_of_whole
    (whole : ∀ line ∈ textLines text, FitsLine line ∨ AssignsNothing line)
    (small : ∀ line ∈ textLines text, ∀ value, WritesPeriod line value →
      ∀ n, number value = some n → n < 2 ^ 31) : PeriodsRead text := by
  refine ⟨?_, small, fun line member cut value writes => ?_⟩
  · obtain ⟨n, isLast, positive, -⟩ := stored_period accepted
    have written := (lastPeriod_whole accepted whole).trans isLast
    have fits : n < 2 ^ 31 := by
      cases last : lastValue .monitorPeriod (writtenSettings text) with
      | none =>
          rw [lastPeriod_of_none last, Option.some.injEq] at written
          rw [← written]
          decide
      | some value =>
          rw [lastPeriod_of_value last] at written
          obtain ⟨line, member, writes⟩ := List.mem_filterMap.mp (mem_of_lastValue last)
          exact small line member value writes n written
    exact ⟨n, n, written, isLast, positive, fits, by omega, by omega⟩
  · rcases whole line member with fits | ⟨unset, -⟩
    · exact absurd fits cut
    · rw [WritesPeriod, unset] at writes
      cases writes

end

/-- The stored period is the number of the last line for it exactly when that number fits an `int`
and the last piece for it says the same; and all that is out of range is rejected exactly when,
moreover, no line says more than an `int` holds, and no line that is cut less than one. In texts of
whole lines it is only the large numbers that matter. -/
theorem stored_period_iff (text : Bytes) (configId : UInt64) (config : ProcessConfig)
    (accepted : parseConfig text configId = some config) :
    (1 ≤ config.monitorPeriod.toInt ∧
        lastPeriod (writtenSettings text) = some config.monitorPeriod.toInt ↔
      LastPeriodRead text) ∧
    (PeriodKept text config ↔ PeriodsRead text) ∧
    ((∀ line ∈ textLines text, FitsLine line ∨ AssignsNothing line) →
      (PeriodKept text config ↔ ∀ line ∈ textLines text, ∀ value, WritesPeriod line value →
        ∀ n, number value = some n → n < 2 ^ 31)) := by
  refine ⟨last_kept_iff accepted, period_kept_iff accepted, fun whole => ?_⟩
  rw [period_kept_iff accepted]
  exact ⟨fun read => read.small, periodsRead_of_whole accepted whole⟩

def fiftyConfig : ProcessConfig :=
  { ProcessConfig.defaults 7 with
    name := snprintf 64 (lit "sh")
    monitorPeriod := 50
    monitorCmd := defaultMonitorCmd (snprintf 64 (lit "sh")) }

theorem stored_period_iff_sh :
    let text := lit "NAME=sh\nMONITOR_PERIOD = 50\n"
    (1 ≤ fiftyConfig.monitorPeriod.toInt ∧
        lastPeriod (writtenSettings text) = some fiftyConfig.monitorPeriod.toInt ↔
      LastPeriodRead text) ∧
    (PeriodKept text fiftyConfig ↔ ∀ line ∈ textLines text, ∀ value, WritesPeriod line value →
      ∀ n, number value = some n → n < 2 ^ 31) := by
  intro text
  obtain ⟨last, -, all⟩ := stored_period_iff text 7 fiftyConfig (by decide)
  refine ⟨last, all fun line member => .inl ?_⟩
  have plain : ∀ line ∈ textLines text, line.length ≤ MAX_LINE_LENGTH - 1 ∧ 0 ∉ line := by decide
  exact fits_of_short (plain line member).1 (plain line member).2

theorem wrapped_period : ¬ ∀ (text : Bytes) (configId : UInt64) (config : ProcessConfig),
    parseConfig text configId = some config → PeriodKept text config := by
  intro keeps
  have accepted : parseConfig (lit "NAME=sh\nMONITOR_PERIOD=4294967296\n") 7 =
      some { ProcessConfig.defaults 7 with
        name := snprintf 64 (lit "sh"), monitorPeriod := 0,
        monitorCmd := defaultMonitorCmd (snprintf 64 (lit "sh")) } := by decide
  exact absurd (keeps _ _ _ accepted).positive (by decide)

end SysDetector.Proc
