import SysDetector.Library.TextLines
import SysDetector.Proc.ConfigBlanks

namespace SysDetector.Proc
open CLib

/-! ## Lines as they are written -/

def trimmedSetting (set : PsOpt × Bytes) : PsOpt × Bytes := (set.1, trimEnd set.2)

def lineSetting (line : Bytes) : Option (PsOpt × Bytes) :=
  (splitAt 61 line).bind fun (key, value) =>
    (setting (trimWhitespace key, value)).map trimmedSetting

def writtenSettings (text : Bytes) : List (PsOpt × Bytes) := (textLines text).filterMap lineSetting

def appliedSettings (text : Bytes) : List (PsOpt × Bytes) := (settings text).map trimmedSetting

def PsOpt.fieldSize : PsOpt → Nat
  | .user => 32
  | .name => 64
  | _ => 256

def PsOpt.storedText : PsOpt → ProcessConfig → Bytes
  | .user, config => config.user.text
  | .name, config => config.name.text
  | .recoverCommand, config => config.recoverCmd.text
  | .monitorCommand, config => config.monitorCmd.text
  | .stopCommand, config => config.stopCmd.text
  | .alarmCommand, config => config.alarmCmd.text
  | _, _ => []

def PsOpt.expectedText (opt : PsOpt) (value : Bytes) (config : ProcessConfig) : Bytes :=
  if opt = .monitorCommand ∧ value = [] then (defaultMonitorCmd config.name).text else value

structure ReadWhole (text : Bytes) (config : ProcessConfig) : Prop where
  lines : ∀ line ∈ textLines text, appliedSettings line = (lineSetting line).toList
  values : ∀ opt : PsOpt, opt.IsText → ∀ value,
    lastValue opt (writtenSettings text) = some value →
      opt.storedText config = opt.expectedText value config

/-! ## Pieces -/

def pieceSetting (piece : Bytes) : Option (PsOpt × Bytes) := (readField piece).bind setting

/-- Only white space stands behind what the buffer takes, and no NUL in the value. -/
def FitsLine (line : Bytes) : Prop :=
  (∀ c ∈ line.drop (MAX_LINE_LENGTH - 1), isspace c = true) ∧
    ∀ set, lineSetting line = some set → 0 ∉ set.2

def AssignsNothing (line : Bytes) : Prop :=
  lineSetting line = none ∧ ∀ piece ∈ fgets MAX_LINE_LENGTH line, pieceSetting piece = none

structure WholeText (text : Bytes) : Prop where
  lines : ∀ line ∈ textLines text, FitsLine line ∨ AssignsNothing line
  values : ∀ opt : PsOpt, opt.IsText → ∀ value, lastValue opt (settings text) = some value →
    (trimEnd value).length < opt.fieldSize ∧ (trimEnd value = [] → value = [])

theorem settings_pieces (text : Bytes) :
    settings text = (fgets MAX_LINE_LENGTH text).filterMap pieceSetting := by
  rw [settings, readFields, List.filterMap_filterMap]
  rfl

theorem settings_lines (text : Bytes) : settings text = (textLines text).flatMap settings := by
  have each : settings = fun line => (fgets MAX_LINE_LENGTH line).filterMap pieceSetting :=
    funext settings_pieces
  rw [settings_pieces, fgets_lines, List.filterMap_flatMap, each]

theorem settings_chunk {line : Bytes} (one : OneLine line) :
    settings line = (pieceSetting (line.take (MAX_LINE_LENGTH - 1))).toList ++
      settings (line.drop (MAX_LINE_LENGTH - 1)) := by
  by_cases nonempty : line = []
  · subst nonempty
    rfl
  · have chunk : fgets MAX_LINE_LENGTH line = line.take (MAX_LINE_LENGTH - 1) ::
        fgets MAX_LINE_LENGTH (line.drop (MAX_LINE_LENGTH - 1)) := fgets_chunk one nonempty
    rw [settings_pieces, settings_pieces, chunk, List.filterMap_cons]
    cases pieceSetting (line.take (MAX_LINE_LENGTH - 1)) <;> rfl

theorem pieceSetting_of_notMem {piece : Bytes} (absent : 61 ∉ piece) : pieceSetting piece = none := by
  rw [pieceSetting, readField_of_notMem fun member => absent (mem_of_mem_cstr member)]
  rfl

theorem settings_of_notMem {text : Bytes} (absent : 61 ∉ text) : settings text = [] := by
  rw [settings_pieces, List.filterMap_eq_nil_iff]
  intro piece member
  exact pieceSetting_of_notMem fun inside => absent (mem_of_mem_fgets member inside)

/-! ## Keys -/

def keyOpt (key : Bytes) : Option PsOpt := if isComment key then none else findOpt key

theorem setting_eq (key value : Bytes) :
    setting (key, value) = (keyOpt key).map fun opt => (opt, value) := by
  unfold setting keyOpt
  split_ifs <;> rfl

theorem opt_key_plain (opt : PsOpt) :
    opt.item.key.length < 16 ∧ 0 ∉ opt.item.key.map tolower := by
  cases opt <;> decide

structure OptKey (key : Bytes) : Prop where
  nonempty : key ≠ []
  starts : StartsSolid key
  short : key.length < 16
  noNul : 0 ∉ key

theorem optKey_of_keyOpt {key : Bytes} {opt : PsOpt} (known : keyOpt key = some opt) :
    OptKey key := by
  rw [keyOpt, Option.ite_none_left_eq_some] at known
  obtain ⟨notComment, found⟩ := known
  have matched := List.find?_some found
  have same : strcaseeq key opt.item.key = true := matched
  have lowered : key.map tolower = opt.item.key.map tolower := by
    rwa [strcaseeq, decide_eq_true_eq] at same
  have lengths := congrArg List.length lowered
  rw [List.length_map, List.length_map] at lengths
  obtain ⟨short, noNul⟩ := opt_key_plain opt
  refine ⟨?_, strcaseeq_startsSolid same (opt_key_solid opt), lengths ▸ short, fun nul => ?_⟩
  · rintro rfl
    exact notComment rfl
  · have inside : tolower 0 ∈ key.map tolower := List.mem_map_of_mem nul
    rw [lowered] at inside
    exact noNul inside

theorem keyOpt_of_blank {key : Bytes} (blank : ∀ c ∈ key, isspace c = true) :
    keyOpt key = none := by
  cases known : keyOpt key with
  | none => rfl
  | some opt =>
      obtain ⟨nonempty, starts, -, -⟩ := optKey_of_keyOpt known
      obtain ⟨c, rest, rfl⟩ := List.exists_cons_of_ne_nil nonempty
      have solid := starts c rfl
      rw [blank c List.mem_cons_self] at solid
      cases solid

theorem trimWhitespace_of_blank {s : Bytes} (blank : ∀ c ∈ s, isspace c = true) :
    trimWhitespace s = s := by
  rw [trimWhitespace, if_pos (List.dropWhile_eq_nil_iff.mpr blank)]

theorem trimEnd_trimWhitespace (s : Bytes) : trimEnd (trimWhitespace s) = trimEnd s := by
  unfold trimWhitespace
  split_ifs
  · rfl
  · exact List.rdropWhile_idempotent isspace s

theorem key_of_trimmed {key : Bytes} {opt : PsOpt} (known : keyOpt (trimWhitespace key) = some opt) :
    (trimEnd key).length < 16 ∧ 0 ∉ key := by
  obtain ⟨-, -, short, noNul⟩ := optKey_of_keyOpt known
  have trimmed : (trimEnd key).length ≤ (trimWhitespace key).length := by
    rw [← trimEnd_trimWhitespace]
    exact length_trimEnd_le _
  refine ⟨Nat.lt_of_le_of_lt trimmed short, fun nul => noNul ?_⟩
  have inside := mem_trimEnd nul (by decide)
  rw [← trimEnd_trimWhitespace] at inside
  exact (List.rdropWhile_prefix isspace _).mem inside

theorem lineSetting_field {key : Bytes} (noEquals : 61 ∉ key) (value : Bytes) :
    lineSetting (key ++ 61 :: value) =
      (keyOpt (trimWhitespace key)).map fun opt => (opt, trimEnd value) := by
  rw [lineSetting, splitAt_of_notMem noEquals, Option.bind_some]
  dsimp only
  rw [setting_eq, Option.map_map]
  rfl

theorem lineSetting_of_notMem {line : Bytes} (absent : 61 ∉ line) : lineSetting line = none := by
  rw [lineSetting, splitAt, if_neg absent]
  rfl

theorem pieceSetting_field {key : Bytes} (noEquals : 61 ∉ key) (value : Bytes) :
    pieceSetting (key ++ 61 :: value) =
      (keyOpt (trimWhitespace key)).map fun opt => (opt, trimWhitespace (cstr value)) := by
  have read := @readField_blanked key value [] [] [] [] noEquals (by decide) (by decide)
  simp only [List.nil_append, List.append_nil] at read
  rw [pieceSetting, read]
  split_ifs with nul
  · cases known : keyOpt (trimWhitespace key) with
    | none => rfl
    | some opt => exact absurd nul (key_of_trimmed known).2
  · rw [Option.bind_some, setting_eq]

/-! ## What a line sets when it is read in pieces -/

theorem split_of_mem {line : Bytes} (inside : 61 ∈ line) :
    ∃ key value, 61 ∉ key ∧ line = key ++ 61 :: value := by
  obtain ⟨key, value, rfl, noEquals⟩ := List.eq_append_cons_of_mem inside
  exact ⟨key, value, noEquals, rfl⟩

theorem length_of_pieceSetting {piece value : Bytes} {opt : PsOpt}
    (set : pieceSetting piece = some (opt, value)) :
    (trimEnd value).length < (trimEnd piece).length := by
  by_cases inside : 61 ∈ piece
  · obtain ⟨key, rest, noEquals, rfl⟩ := split_of_mem inside
    rw [pieceSetting_field noEquals, Option.map_eq_some_iff] at set
    obtain ⟨found, -, same⟩ := set
    cases same
    obtain ⟨back, split⟩ := List.takeWhile_prefix (p := fun c => decide (c ≠ 0)) (l := rest)
    have inValue : (trimEnd (cstr rest)).length ≤ (trimEnd rest).length := by
      nth_rewrite 2 [← split]
      exact length_trimEnd_append_left _ back
    rw [trimEnd_trimWhitespace, trimEnd_append (by decide), List.length_append, List.length_cons]
    omega
  · rw [pieceSetting_of_notMem inside] at set
    cases set

theorem length_of_mem_settings {text value : Bytes} {opt : PsOpt} (one : OneLine text)
    (member : (opt, value) ∈ settings text) : (trimEnd value).length < (trimEnd text).length := by
  induction n : text.length using Nat.strong_induction_on generalizing text with
  | _ n ih =>
      subst n
      have whole := List.take_append_drop (MAX_LINE_LENGTH - 1) text
      rw [settings_chunk one, List.mem_append, Option.mem_toList] at member
      rcases member with first | later
      · have inFirst := length_of_pieceSetting first
        have longer := length_trimEnd_append_left (text.take (MAX_LINE_LENGTH - 1))
          (text.drop (MAX_LINE_LENGTH - 1))
        rw [whole] at longer
        omega
      · have nonempty : 0 < text.length := by
          rw [List.length_pos_iff]
          rintro rfl
          cases later
        have shorter : (text.drop (MAX_LINE_LENGTH - 1)).length < text.length := by
          rw [List.length_drop]
          exact Nat.sub_lt nonempty (by decide)
        have inLater := ih _ shorter (one.drop _) later rfl
        have longer := length_trimEnd_append_right (text.take (MAX_LINE_LENGTH - 1))
          (text.drop (MAX_LINE_LENGTH - 1))
        rw [whole] at longer
        omega

theorem length_of_mem_settings_blank {key rest value : Bytes} {opt : PsOpt}
    (blank : ∀ c ∈ key, isspace c = true) (one : OneLine (key ++ 61 :: rest))
    (member : (opt, value) ∈ settings (key ++ 61 :: rest)) :
    (trimEnd value).length < (trimEnd rest).length := by
  induction n : key.length using Nat.strong_induction_on generalizing key with
  | _ n ih =>
      subst n
      have noEquals : ∀ front : Bytes, (∀ c ∈ front, c ∈ key) → 61 ∉ front := by
        intro front part inside
        have space := blank 61 (part 61 inside)
        cases space
      rw [settings_chunk one, List.mem_append, Option.mem_toList] at member
      by_cases long : MAX_LINE_LENGTH - 1 ≤ key.length
      · have positive : 0 < MAX_LINE_LENGTH - 1 := by decide
        rw [List.take_append_of_le_length long, List.drop_append_of_le_length long] at member
        rcases member with first | later
        · rw [pieceSetting_of_notMem (noEquals _ fun c => List.mem_of_mem_take)] at first
          cases first
        · have cut := one.drop (MAX_LINE_LENGTH - 1)
          rw [List.drop_append_of_le_length long] at cut
          refine ih (key.drop (MAX_LINE_LENGTH - 1)).length ?_
            (fun c inside => blank c (List.mem_of_mem_drop inside)) cut later rfl
          rw [List.length_drop]
          omega
      · obtain ⟨n, split⟩ : ∃ n, MAX_LINE_LENGTH - 1 = key.length + (n + 1) :=
          ⟨MAX_LINE_LENGTH - 2 - key.length, by omega⟩
        have cut := one.drop (MAX_LINE_LENGTH - 1)
        rw [split, List.drop_length_add_append, List.drop_succ_cons] at cut
        rw [split, List.take_length_add_append, List.take_succ_cons, List.drop_length_add_append,
          List.drop_succ_cons] at member
        rcases member with first | later
        · rw [pieceSetting_field (noEquals key fun c => id), trimWhitespace_of_blank blank,
            keyOpt_of_blank blank] at first
          cases first
        · have inLater := length_of_mem_settings cut later
          have longer := length_trimEnd_append_right (rest.take n) (rest.drop n)
          rw [List.take_append_drop] at longer
          omega

theorem applied_of_fits {line : Bytes} (one : OneLine line) (fits : FitsLine line) :
    appliedSettings line = (lineSetting line).toList := by
  obtain ⟨blank, noNul⟩ := fits
  have whole := List.take_append_drop (MAX_LINE_LENGTH - 1) line
  have absent : 61 ∉ line.drop (MAX_LINE_LENGTH - 1) := by
    intro member
    have space := blank 61 member
    cases space
  rw [appliedSettings, settings_chunk one, settings_of_notMem absent, List.append_nil]
  generalize line.take (MAX_LINE_LENGTH - 1) = piece at whole
  generalize line.drop (MAX_LINE_LENGTH - 1) = more at whole blank absent
  subst whole
  by_cases inside : 61 ∈ piece
  · obtain ⟨key, value, noEquals, rfl⟩ := split_of_mem inside
    rw [List.append_assoc, List.cons_append, lineSetting_field noEquals] at noNul ⊢
    rw [pieceSetting_field noEquals]
    cases known : keyOpt (trimWhitespace key) with
    | none => rfl
    | some opt =>
        rw [known, trimEnd_append_spaces value blank] at noNul
        have plain : 0 ∉ value := fun nul =>
          noNul (opt, trimEnd value) rfl (mem_trimEnd nul (by decide))
        simp [trimmedSetting, trimEnd_trimWhitespace, cstr_of_notMem plain,
          trimEnd_append_spaces value blank]
  · have nowhere : 61 ∉ piece ++ more := by simp [inside, absent]
    rw [pieceSetting_of_notMem inside, lineSetting_of_notMem nowhere]
    rfl

theorem key_inside_buffer {key rest w : Bytes} {opt found : PsOpt}
    (one : OneLine (key ++ 61 :: rest)) (noEquals : 61 ∉ key)
    (known : keyOpt (trimWhitespace key) = some opt)
    (member : (found, w) ∈ settings (key ++ 61 :: rest)) (whole : trimEnd w = trimEnd rest) :
    key.length < MAX_LINE_LENGTH - 1 := by
  by_contra long
  rw [not_lt] at long
  obtain ⟨keyShort, -⟩ := key_of_trimmed known
  have blank : ∀ c ∈ key.drop (MAX_LINE_LENGTH - 1), isspace c = true := by
    rw [← length_trimEnd_append_le_iff (key.take (MAX_LINE_LENGTH - 1)), List.take_append_drop,
      List.length_take_of_le long]
    exact keyShort.le.trans (by decide)
  have cut := one.drop (MAX_LINE_LENGTH - 1)
  rw [List.drop_append_of_le_length long] at cut
  rw [settings_chunk one, List.take_append_of_le_length long, List.drop_append_of_le_length long,
    pieceSetting_of_notMem fun inside => noEquals (List.mem_of_mem_take inside)] at member
  have shorter := length_of_mem_settings_blank blank cut member
  rw [whole] at shorter
  exact lt_irrefl _ shorter

theorem fits_of_applied {line : Bytes} {set : PsOpt × Bytes} (one : OneLine line)
    (isSet : lineSetting line = some set) (applied : appliedSettings line = [set]) :
    FitsLine line := by
  have inside : 61 ∈ line := by
    by_contra absent
    rw [lineSetting_of_notMem absent] at isSet
    cases isSet
  obtain ⟨key, rest, noEquals, rfl⟩ := split_of_mem inside
  have written := isSet
  rw [lineSetting_field noEquals, Option.map_eq_some_iff] at written
  obtain ⟨opt, known, rfl⟩ := written
  have isApplied : (opt, trimEnd rest) ∈ appliedSettings (key ++ 61 :: rest) := by simp [applied]
  obtain ⟨⟨found, w⟩, member, same⟩ := List.mem_map.mp isApplied
  rw [trimmedSetting, Prod.mk.injEq] at same
  obtain ⟨-, whole⟩ := same
  dsimp only at whole
  refine ⟨?_, fun set isSet' nul => ?_⟩
  · have inFirst := key_inside_buffer one noEquals known member whole
    obtain ⟨n, split⟩ : ∃ n, MAX_LINE_LENGTH - 1 = key.length + (n + 1) :=
      ⟨MAX_LINE_LENGTH - 2 - key.length, by omega⟩
    rw [appliedSettings, settings_chunk one, split, List.take_length_add_append,
      List.take_succ_cons, pieceSetting_field noEquals, known] at applied
    have first : trimEnd (cstr (rest.take n)) = trimEnd rest := by
      have heads := (List.cons.inj applied).1
      rw [trimmedSetting, trimEnd_trimWhitespace, Prod.mk.injEq] at heads
      exact heads.2
    rw [split, List.drop_length_add_append, List.drop_succ_cons,
      ← length_trimEnd_append_le_iff (rest.take n), List.take_append_drop, ← first]
    exact (length_trimEnd_le _).trans (List.takeWhile_prefix _).length_le
  · rw [isSet, Option.some.injEq] at isSet'
    subst isSet'
    have plain := noNul_of_mem_settings member
    rw [← whole] at nul
    exact plain ((List.rdropWhile_prefix isspace w).mem nul)

theorem applied_line_iff {line : Bytes} (one : OneLine line) :
    appliedSettings line = (lineSetting line).toList ↔ FitsLine line ∨ AssignsNothing line := by
  constructor
  · intro applied
    cases set : lineSetting line with
    | none =>
        right
        rw [set, Option.toList_none, appliedSettings, List.map_eq_nil_iff, settings_pieces,
          List.filterMap_eq_nil_iff] at applied
        exact ⟨set, applied⟩
    | some set' =>
        left
        rw [set] at applied
        exact fits_of_applied one set applied
  · rintro (fits | ⟨unset, pieces⟩)
    · exact applied_of_fits one fits
    · rw [unset, appliedSettings, settings_pieces, List.filterMap_eq_nil_iff.mpr pieces]
      rfl

/-! ## What a text comes to -/

theorem applied_of_lines {text : Bytes}
    (lines : ∀ line ∈ textLines text, appliedSettings line = (lineSetting line).toList) :
    appliedSettings text = writtenSettings text := by
  rw [appliedSettings, settings_lines, List.map_flatMap, writtenSettings,
    List.filterMap_eq_flatMap_toList]
  exact List.flatMap_congr lines

theorem lastValue_trimmed (opt : PsOpt) (set : List (PsOpt × Bytes)) :
    lastValue opt (set.map trimmedSetting) = (lastValue opt set).map trimEnd := by
  unfold lastValue
  rw [← List.map_reverse, List.find?_map, Option.map_map, Option.map_map]
  rfl

theorem trimmed_of_mem_settings {text value : Bytes} {opt : PsOpt}
    (member : (opt, value) ∈ settings text) : Trimmed value := by
  rw [settings_pieces] at member
  obtain ⟨piece, -, set⟩ := List.mem_filterMap.mp member
  by_cases inside : 61 ∈ piece
  · obtain ⟨key, rest, noEquals, rfl⟩ := split_of_mem inside
    rw [pieceSetting_field noEquals, Option.map_eq_some_iff] at set
    obtain ⟨found, -, same⟩ := set
    cases same
    exact trimWhitespace_trimmed _
  · rw [pieceSetting_of_notMem inside] at set
    cases set

theorem storedText_of_get {opt : PsOpt} (isText : opt.IsText) {config : ProcessConfig}
    {value : Bytes} (noNul : 0 ∉ value) (stored : opt.get config = opt.read value) :
    opt.storedText config = value.take (opt.fieldSize - 1) := by
  have text : ∀ size, (snprintf size value).text = value.take (size - 1) := by
    intro size
    show (cstr value).take (size - 1) = value.take (size - 1)
    rw [cstr_of_notMem noNul]
  cases opt with
  | monitorPeriod => exact absurd rfl isText.1
  | monitorSwitch => exact absurd rfl isText.2
  | user =>
      have field : config.user = snprintf 32 value := stored
      rw [PsOpt.storedText, field]
      exact text 32
  | name =>
      have field : config.name = snprintf 64 value := stored
      rw [PsOpt.storedText, field]
      exact text 64
  | recoverCommand =>
      have field : config.recoverCmd = snprintf 256 value := stored
      rw [PsOpt.storedText, field]
      exact text 256
  | monitorCommand =>
      have field : config.monitorCmd = snprintf 256 value := stored
      rw [PsOpt.storedText, field]
      exact text 256
  | stopCommand =>
      have field : config.stopCmd = snprintf 256 value := stored
      rw [PsOpt.storedText, field]
      exact text 256
  | alarmCommand =>
      have field : config.alarmCmd = snprintf 256 value := stored
      rw [PsOpt.storedText, field]
      exact text 256

theorem fieldSize_ge (opt : PsOpt) : 32 ≤ opt.fieldSize := by
  cases opt <;> decide

theorem trim_of_trimEnd {value : Bytes} (blank : trimEnd value = []) : trim value = [] := by
  rw [← trim_trimEnd, blank]
  rfl

theorem get_of_lastValue {text : Bytes} {configId : UInt64} {config : ProcessConfig}
    (accepted : parseConfig text configId = some config) {opt : PsOpt} {value : Bytes}
    (last : lastValue opt (settings text) = some value)
    (noDefault : opt = .monitorCommand → value ≠ []) : opt.get config = opt.read value := by
  obtain ⟨-, finished⟩ := (parseConfig_eq_some_iff text configId config).mp accepted
  obtain ⟨-, done⟩ := finishConfig_eq_some_iff.mp finished
  have stored := storedConfig_get opt text configId
  rw [last, Option.map_some, Option.getD_some] at stored
  rw [← done]
  by_cases command : opt = .monitorCommand
  · subst command
    have noNul := noNul_of_mem_settings (mem_of_lastValue last)
    have isRead : (storedConfig text configId).monitorCmd = snprintf 256 value := stored
    have nonempty := noDefault rfl
    show (withDefaultCmd (storedConfig text configId)).monitorCmd = snprintf 256 value
    rw [withDefaultCmd_monitorCmd, isRead,
      if_neg fun empty => nonempty ((snprintf_text_eq_nil noNul).mp empty)]
  · rw [get_withDefaultCmd command, stored]

theorem monitorCmd_of_empty {text : Bytes} {configId : UInt64} {config : ProcessConfig}
    (accepted : parseConfig text configId = some config)
    (last : lastValue .monitorCommand (settings text) = some []) :
    config.monitorCmd = defaultMonitorCmd config.name := by
  obtain ⟨-, finished⟩ := (parseConfig_eq_some_iff text configId config).mp accepted
  obtain ⟨-, done⟩ := finishConfig_eq_some_iff.mp finished
  have stored := storedConfig_get .monitorCommand text configId
  rw [last, Option.map_some, Option.getD_some] at stored
  have isRead : (storedConfig text configId).monitorCmd = snprintf 256 [] := stored
  have other : PsOpt.name ≠ .monitorCommand := by decide
  have sameName : (withDefaultCmd (storedConfig text configId)).name =
      (storedConfig text configId).name := get_withDefaultCmd other _
  rw [← done, sameName, withDefaultCmd_monitorCmd, isRead]
  rfl

theorem storedText_iff {text : Bytes} {configId : UInt64} {config : ProcessConfig}
    (accepted : parseConfig text configId = some config) {opt : PsOpt} (isText : opt.IsText)
    {value : Bytes} (last : lastValue opt (settings text) = some value) :
    opt.storedText config = opt.expectedText (trimEnd value) config ↔
      (trimEnd value).length < opt.fieldSize ∧ (trimEnd value = [] → value = []) := by
  have noNul := noNul_of_mem_settings (mem_of_lastValue last)
  have trimmed := trimmed_of_mem_settings (mem_of_lastValue last)
  have stored : (opt = .monitorCommand → value ≠ []) →
      opt.storedText config = value.take (opt.fieldSize - 1) := fun noDefault =>
    storedText_of_get isText noNul (get_of_lastValue accepted last noDefault)
  have room := fieldSize_ge opt
  rw [PsOpt.expectedText]
  by_cases blank : trimEnd value = []
  · have fits : 0 < opt.fieldSize := by omega
    simp only [fits, blank, List.length_nil, true_and, true_implies, and_true]
    by_cases nothing : value = []
    · subst nothing
      simp only [iff_true]
      split_ifs with command
      · subst command
        have isDefault := monitorCmd_of_empty accepted last
        rw [PsOpt.storedText, isDefault]
      · rw [stored fun isCommand => absurd isCommand command, List.take_nil]
    · simp only [nothing, iff_false]
      split_ifs with command
      · subst command
        intro same
        have isRead : config.monitorCmd = snprintf 256 value :=
          get_of_lastValue accepted last fun _ => nothing
        apply blank_ne_default (trim_of_trimEnd blank) config.name
        rw [← isRead]
        exact CharBuf.ext same
      · rw [stored fun _ => nothing, List.take_eq_nil_iff]
        rintro (tiny | empty)
        · omega
        · exact nothing empty
  · have solid : trimEnd value = value := by
      rcases trimmed with spaces | ends
      · exact absurd (trimEnd_append_spaces [] (List.dropWhile_eq_nil_iff.mp spaces)) blank
      · exact trimEnd_eq_self_iff.mpr ends
    rw [solid] at blank ⊢
    rw [if_neg fun command => blank command.2, stored fun _ => blank, List.take_eq_self_iff]
    constructor
    · intro short
      exact ⟨by omega, id⟩
    · rintro ⟨short, -⟩
      omega

/-- A line is read as a whole, and as one assignment, exactly when only white space stands behind
what the buffer takes of it, or it assigns nothing in whole or in pieces; and the values are stored
as a whole exactly when they are shorter than their fields and empty if they are blank. -/
theorem read_whole_iff (text : Bytes) (configId : UInt64) (config : ProcessConfig)
    (accepted : parseConfig text configId = some config) :
    ReadWhole text config ↔ WholeText text := by
  have lines : (∀ line ∈ textLines text, appliedSettings line = (lineSetting line).toList) ↔
      ∀ line ∈ textLines text, FitsLine line ∨ AssignsNothing line :=
    forall₂_congr fun line member => applied_line_iff (oneLine_of_mem member)
  have values : appliedSettings text = writtenSettings text → ∀ opt : PsOpt,
      lastValue opt (writtenSettings text) = (lastValue opt (settings text)).map trimEnd := by
    intro same opt
    rw [← same]
    exact lastValue_trimmed opt _
  constructor
  · rintro ⟨whole, stored⟩
    refine ⟨lines.mp whole, fun opt isText value last => ?_⟩
    rw [← storedText_iff accepted isText last]
    apply stored opt isText
    rw [values (applied_of_lines whole), last]
    rfl
  · rintro ⟨whole, short⟩
    refine ⟨lines.mpr whole, fun opt isText value last => ?_⟩
    rw [values (applied_of_lines (lines.mpr whole)), Option.map_eq_some_iff] at last
    obtain ⟨w, isLast, rfl⟩ := last
    exact (storedText_iff accepted isText isLast).mpr (short opt isText w isLast)

theorem read_whole_iff_sh :
    ReadWhole (textOf [lit "NAME=sh"] []) shConfig ↔ WholeText (textOf [lit "NAME=sh"] []) :=
  read_whole_iff _ 7 shConfig parseConfig_sh

theorem long_name_cut :
    ¬ ∀ (text : Bytes) (configId : UInt64) (config : ProcessConfig),
      parseConfig text configId = some config → ReadWhole text config := by
  intro whole
  let text := lit "NAME=" ++ List.replicate 70 120 ++ [10]
  have accepted : (parseConfig text 7).isSome = true := by decide
  obtain ⟨config, parsed⟩ := Option.isSome_iff_exists.mp accepted
  have kept := (whole text 7 config parsed).values .name ⟨by decide, by decide⟩
    (List.replicate 70 120) (by decide)
  have stored : config.name.text = List.replicate 63 120 := by
    have name : (parseConfig text 7).map (fun config => config.name.text) =
        some (List.replicate 63 120) := by decide
    rw [parsed] at name
    exact Option.some.inj name
  rw [PsOpt.storedText, stored, PsOpt.expectedText, if_neg (by decide)] at kept
  exact absurd kept (by decide)

end SysDetector.Proc
