import SysDetector.Library.ListFacts
import SysDetector.Proc.ConfigReading

namespace SysDetector.Proc
open CLib ListFacts

def Blanks (s : Bytes) : Prop := ∀ c ∈ s, c = 32 ∨ c = 9

instance (s : Bytes) : Decidable (Blanks s) := List.decidableBAll _ s

inductive Reblanked : Bytes → Bytes → Prop
  | same {line : Bytes} (noField : 61 ∉ line) : Reblanked line line
  | field {key value before after front back before' after' front' back' : Bytes}
      (noEquals : 61 ∉ key) (blanks : Blanks (before ++ after ++ front ++ back))
      (blanks' : Blanks (before' ++ after' ++ front' ++ back')) :
      Reblanked (before ++ key ++ after ++ 61 :: (front ++ value ++ back))
        (before' ++ key ++ after' ++ 61 :: (front' ++ value ++ back'))

def WholeLine (line : Bytes) : Prop := 10 ∉ line ∧ line.length + 2 ≤ MAX_LINE_LENGTH

instance (line : Bytes) : Decidable (WholeLine line) := inferInstanceAs (Decidable (_ ∧ _))

def textOf (lines : List Bytes) (last : Bytes) : Bytes := lines.flatMap (· ++ [10]) ++ last

inductive ReblankedText : Bytes → Bytes → Prop
  | intro {lines lines' : List Bytes} {last last' : Bytes}
      (each : List.Forall₂ Reblanked lines lines') (final : Reblanked last last')
      (whole : ∀ line ∈ last :: lines, WholeLine line)
      (whole' : ∀ line ∈ last' :: lines', WholeLine line) :
      ReblankedText (textOf lines last) (textOf lines' last')

/-! ## Trimmed strings -/

theorem trim_trimWhitespace (s : Bytes) : trim (trimWhitespace s) = trim s := by
  unfold trimWhitespace
  split_ifs
  · rfl
  · exact trim_trimEnd s

def Trimmed (s : Bytes) : Prop := s.dropWhile isspace = [] ∨ EndsSolid s

theorem trimWhitespace_trimmed (s : Bytes) : Trimmed (trimWhitespace s) := by
  unfold trimWhitespace
  split_ifs with blank
  · exact .inl blank
  · exact .inr (trimEnd_endsSolid s)

theorem endsSolid_of_suffix {s t : Bytes} (suffix : t <:+ s) (solid : EndsSolid s) :
    EndsSolid t := by
  intro c last
  obtain ⟨front, rfl⟩ := suffix
  cases t with
  | nil => cases last
  | cons d t =>
      apply solid c
      rw [List.getLast?_append, last, Option.some_or]

theorem Trimmed.dropWhile_eq {s : Bytes} (trimmed : Trimmed s) : s.dropWhile isspace = trim s := by
  rcases trimmed with blank | solid
  · rw [blank, trim_eq_nil_iff.mpr blank]
  · rw [trim_eq, trimEnd_eq_self_iff.mpr (endsSolid_of_suffix (List.dropWhile_suffix isspace) solid)]

theorem Trimmed.eq_trim {s : Bytes} (trimmed : Trimmed s) (solid : StartsSolid s) : s = trim s := by
  rw [← trimmed.dropWhile_eq, dropWhile_solid solid]

structure SameInside (s s' : Bytes) : Prop where
  trimmed : Trimmed s
  trimmed' : Trimmed s'
  inside : trim s = trim s'

theorem SameInside.eq {s s' : Bytes} (same : SameInside s s') (solid : StartsSolid s)
    (solid' : StartsSolid s') : s' = s := by
  rw [same.trimmed.eq_trim solid, same.trimmed'.eq_trim solid', same.inside]

structure SameValue (value value' : Bytes) : Prop where
  same : SameInside value value'
  noNul : 0 ∉ value
  noNul' : 0 ∉ value'

structure SameField (field field' : Bytes × Bytes) : Prop where
  key : SameInside field.1 field'.1
  value : SameValue field.2 field'.2

/-! ## Reading a line -/

theorem Blanks.spaces {s : Bytes} (blanks : Blanks s) : ∀ c ∈ s, isspace c = true := by
  intro c member
  rcases blanks c member with rfl | rfl <;> decide

theorem Blanks.absent {s : Bytes} (blanks : Blanks s) {c : UInt8} (other : c ≠ 32 ∧ c ≠ 9) :
    c ∉ s := by
  intro member
  rcases blanks c member with rfl | rfl
  · exact other.1 rfl
  · exact other.2 rfl

theorem Blanks.append_iff {s t : Bytes} : Blanks (s ++ t) ↔ Blanks s ∧ Blanks t := by
  unfold Blanks
  simp only [List.mem_append, or_imp, forall_and]

theorem trim_cstr_around {front value back : Bytes} (blankFront : Blanks front)
    (blankBack : ∀ c ∈ back, isspace c = true) :
    trim (cstr (front ++ value ++ back)) = trim (cstr value) := by
  rw [List.append_assoc, cstr_append (blankFront.absent (by decide)),
    trim_spaces_append blankFront.spaces]
  by_cases nul : 0 ∈ value
  · rw [cstr_append_of_mem nul]
  · have plain : 0 ∉ back := by
      intro member
      cases blankBack 0 member
    rw [cstr_append nul, cstr_of_notMem plain, cstr_of_notMem nul, trim_append_spaces value blankBack]

theorem readField_of_notMem {line : Bytes} (absent : 61 ∉ cstr line) : readField line = none := by
  rw [readField, splitAt, if_neg absent]
  rfl

theorem readField_blanked {key value before after front back : Bytes} (noEquals : 61 ∉ key)
    (blankBefore : Blanks before) (blankAfter : Blanks after) :
    readField (before ++ key ++ after ++ 61 :: (front ++ value ++ back)) =
      if 0 ∈ key then none
      else some (trimWhitespace (before ++ key ++ after),
        trimWhitespace (cstr (front ++ value ++ back))) := by
  have noEqualsAround : 61 ∉ before ++ key ++ after := by
    have absentBefore : (61 : UInt8) ∉ before := blankBefore.absent (by decide)
    have absentAfter : (61 : UInt8) ∉ after := blankAfter.absent (by decide)
    simp [absentBefore, noEquals, absentAfter]
  split_ifs with nul
  · have inside : 0 ∈ before ++ key ++ after := by simp [nul]
    apply readField_of_notMem
    rw [cstr_append_of_mem inside]
    exact fun member => noEqualsAround (mem_of_mem_cstr member)
  · have plain : 0 ∉ before ++ key ++ after ++ [61] := by
      have absentBefore : (0 : UInt8) ∉ before := blankBefore.absent (by decide)
      have absentAfter : (0 : UInt8) ∉ after := blankAfter.absent (by decide)
      simp [absentBefore, nul, absentAfter]
    have whole := cstr_append plain (front ++ value ++ back)
    rw [List.append_assoc (before ++ key ++ after), List.append_assoc (before ++ key ++ after),
      List.singleton_append, List.singleton_append] at whole
    rw [readField, whole, splitAt_of_notMem noEqualsAround, Option.map_some]

theorem sameInside_trimWhitespace {s s' : Bytes} (inside : trim s = trim s') :
    SameInside (trimWhitespace s) (trimWhitespace s') where
  trimmed := trimWhitespace_trimmed s
  trimmed' := trimWhitespace_trimmed s'
  inside := by rw [trim_trimWhitespace, trim_trimWhitespace, inside]

theorem zero_notMem_trimWhitespace {s : Bytes} (plain : 0 ∉ s) : 0 ∉ trimWhitespace s := by
  unfold trimWhitespace
  split_ifs
  · exact plain
  · exact fun member => plain ((List.rdropWhile_prefix isspace s).mem member)

theorem readField_reblanked {line line' : Bytes} (reblanked : Reblanked line line') {newline : Bytes}
    (ended : ∀ c ∈ newline, isspace c = true) :
    Option.Rel SameField (readField (line ++ newline)) (readField (line' ++ newline)) := by
  cases reblanked with
  | same noField =>
      have absent : 61 ∉ cstr (line ++ newline) := by
        intro member
        rcases List.mem_append.mp (mem_of_mem_cstr member) with inLine | inEnd
        · exact noField inLine
        · cases ended 61 inEnd
      rw [readField_of_notMem absent]
      exact .none
  | @field key value before after front back before' after' front' back' noEquals blanks blanks' =>
      simp only [Blanks.append_iff] at blanks blanks'
      obtain ⟨⟨⟨blankBefore, blankAfter⟩, blankFront⟩, blankBack⟩ := blanks
      obtain ⟨⟨⟨blankBefore', blankAfter'⟩, blankFront'⟩, blankBack'⟩ := blanks'
      have around : ∀ {left right : Bytes}, Blanks left → Blanks right →
          trim (left ++ key ++ right) = trim key := by
        intro left right blankLeft blankRight
        rw [List.append_assoc, trim_spaces_append blankLeft.spaces,
          trim_append_spaces key blankRight.spaces]
      have spaces : ∀ {right : Bytes}, Blanks right → ∀ c ∈ right ++ newline, isspace c = true := by
        intro right blankRight c member
        rcases List.mem_append.mp member with inBlanks | inEnd
        · exact blankRight.spaces c inBlanks
        · exact ended c inEnd
      have shape : ∀ left front right : Bytes,
          left ++ 61 :: (front ++ value ++ right) ++ newline =
            left ++ 61 :: (front ++ value ++ (right ++ newline)) := by
        intro left front right
        simp
      rw [shape, shape, readField_blanked noEquals blankBefore blankAfter,
        readField_blanked noEquals blankBefore' blankAfter']
      split_ifs
      · exact .none
      · refine .some ⟨sameInside_trimWhitespace ?_, sameInside_trimWhitespace ?_, ?_, ?_⟩
        · rw [around blankBefore blankAfter, around blankBefore' blankAfter']
        · rw [trim_cstr_around blankFront (spaces blankBack),
            trim_cstr_around blankFront' (spaces blankBack')]
        · exact zero_notMem_trimWhitespace (zero_notMem_cstr _)
        · exact zero_notMem_trimWhitespace (zero_notMem_cstr _)

/-! ## Reading a text -/

theorem fgets_textOf {lines : List Bytes} {last : Bytes}
    (whole : ∀ line ∈ last :: lines, WholeLine line) :
    fgets MAX_LINE_LENGTH (textOf lines last) =
      lines.map (· ++ [10]) ++ if last = [] then [] else [last] := by
  rw [List.forall_mem_cons] at whole
  obtain ⟨wholeLast, wholeLines⟩ := whole
  unfold textOf fgets
  induction lines with
  | nil =>
      rw [List.flatMap_nil, List.nil_append, fgetsFrom_rest wholeLast.1 (by simpa using wholeLast.2)]
      rfl
  | cons line lines ih =>
      rw [List.forall_mem_cons] at wholeLines
      obtain ⟨wholeLine, others⟩ := wholeLines
      rw [List.flatMap_cons, List.append_assoc, List.append_assoc, List.singleton_append,
        fgetsFrom_line wholeLine.1 (by simpa using wholeLine.2), ih others]
      rfl

theorem readFields_textOf {lines : List Bytes} {last : Bytes}
    (whole : ∀ line ∈ last :: lines, WholeLine line) :
    readFields (textOf lines last) =
      lines.filterMap (fun line => readField (line ++ [10])) ++ (readField (last ++ [])).toList := by
  rw [readFields, fgets_textOf whole, List.filterMap_append, List.filterMap_map, List.append_nil]
  congr 1
  split_ifs with nothing
  · rw [nothing]
    rfl
  · rw [List.filterMap_cons]
    cases readField last <;> rfl

theorem readFields_reblanked {text text' : Bytes} (reblanked : ReblankedText text text') :
    List.Forall₂ SameField (readFields text) (readFields text') := by
  cases reblanked with
  | intro each final whole whole' =>
      rw [readFields_textOf whole, readFields_textOf whole']
      apply List.rel_append
      · refine List.rel_filterMap (fun line line' pair => ?_) each
        exact readField_reblanked pair (List.forall_mem_singleton.mpr rfl)
      · exact rel_toList (readField_reblanked final (List.forall_mem_nil _))

/-! ## Valid fields -/

theorem opt_key_solid (opt : PsOpt) : StartsSolid opt.item.key := by
  cases opt <;> decide

theorem startsSolid_of_valid {field : Bytes × Bytes} (valid : ValidField field) :
    StartsSolid field.1 := by
  rcases valid with comment | ⟨opt, found, -⟩
  · rw [isComment, decide_eq_true_eq] at comment
    intro c first
    rcases comment with hash | nothing
    · rw [hash] at first
      cases first
      decide
    · rw [nothing] at first
      cases first
  · have same := List.find?_some found
    exact strcaseeq_startsSolid same (opt_key_solid opt)

theorem switch_solid {value : Bytes} (accepted : PsOpt.Accepts .monitorSwitch value) :
    StartsSolid value := by
  rcases accepted with on | off
  · exact strcaseeq_startsSolid on (by decide)
  · exact strcaseeq_startsSolid off (by decide)

theorem scanInteger_inside {value : Bytes} (trimmed : Trimmed value) :
    scanInteger value = scanInteger (trim value) := by
  unfold scanInteger
  rw [trimmed.dropWhile_eq, dropWhile_solid (trim_startsSolid value)]

theorem scanInteger_same {value value' : Bytes} (same : SameInside value value') :
    scanInteger value' = scanInteger value := by
  rw [scanInteger_inside same.trimmed, scanInteger_inside same.trimmed', same.inside]

theorem accepts_period_iff {value : Bytes} : PsOpt.Accepts .monitorPeriod value ↔
    ∃ negative n, scanInteger value = some (negative, n, []) ∧ 1 ≤ strtol value := by
  unfold PsOpt.Accepts strtolRest
  cases scanned : scanInteger value with
  | none =>
      have zero : strtol value = 0 := by
        unfold strtol
        rw [scanned]
      simp [zero]
  | some read =>
      obtain ⟨negative, n, rest⟩ := read
      simp [scanned]

theorem accepts_of_sameInside {opt : PsOpt} {value value' : Bytes} (same : SameInside value value')
    (accepted : opt.Accepts value) (front : opt = .monitorSwitch → StartsSolid value') :
    opt.Accepts value' := by
  cases opt with
  | monitorPeriod =>
      obtain ⟨negative, n, scanned, positive⟩ := accepts_period_iff.mp accepted
      have scans := scanInteger_same same
      refine accepts_period_iff.mpr ⟨negative, n, scans.trans scanned, ?_⟩
      unfold strtol at positive ⊢
      rwa [scans]
  | monitorSwitch =>
      have equal := same.eq (switch_solid accepted) (front rfl)
      rwa [equal]
  | _ => trivial

/-! ## Both texts accepted -/

def PsOpt.IsText (opt : PsOpt) : Prop := opt ≠ .monitorPeriod ∧ opt ≠ .monitorSwitch

/-- No blanks in front of a key or of a switch, and in front of the last value of each other field
the same ones, as far as the field holds them; a blank value is the same as a whole. -/
structure FrontsKept (text text' : Bytes) : Prop where
  keys : ∀ field ∈ readFields text', StartsSolid field.1
  switches : ∀ value, (PsOpt.monitorSwitch, value) ∈ settings text' → StartsSolid value
  texts : ∀ opt : PsOpt, opt.IsText →
    (lastValue opt (settings text')).map opt.read = (lastValue opt (settings text)).map opt.read

theorem validField_of_same {field field' : Bytes × Bytes} (same : SameField field field')
    (valid : ValidField field) (solid : StartsSolid field'.1)
    (switch : ∀ value, setting field' = some (PsOpt.monitorSwitch, value) → StartsSolid value) :
    ValidField field' ∧ field'.1 = field.1 := by
  have sameKey := same.key.eq (startsSolid_of_valid valid) solid
  refine ⟨?_, sameKey⟩
  unfold ValidField setting at *
  rw [sameKey] at switch ⊢
  by_cases comment : isComment field.1 = true
  · exact .inl comment
  · rcases valid with isComment | ⟨opt, found, accepts⟩
    · exact absurd isComment comment
    · refine .inr ⟨opt, found, accepts_of_sameInside same.value.same accepts ?_⟩
      rintro rfl
      exact switch field'.2 (by simp [comment, found])

theorem validFields_of_same {fields fields' : List (Bytes × Bytes)}
    (same : List.Forall₂ SameField fields fields') (valid : ∀ field ∈ fields, ValidField field)
    (solid : ∀ field ∈ fields', StartsSolid field.1)
    (switches : ∀ value, (PsOpt.monitorSwitch, value) ∈ fields'.filterMap setting →
      StartsSolid value) : ∀ field ∈ fields', ValidField field := by
  induction same with
  | nil => exact List.forall_mem_nil _
  | @cons field field' fields fields' first rest ih =>
      rw [List.forall_mem_cons] at valid solid ⊢
      have later : ∀ value, (PsOpt.monitorSwitch, value) ∈ fields'.filterMap setting →
          StartsSolid value := by
        intro value member
        apply switches value
        obtain ⟨found, isField, set⟩ := List.mem_filterMap.mp member
        exact List.mem_filterMap.mpr ⟨found, List.mem_cons_of_mem _ isField, set⟩
      refine ⟨(validField_of_same first valid.1 solid.1 fun value set => ?_).1,
        ih valid.2 solid.2 later⟩
      exact switches value (List.mem_filterMap.mpr ⟨field', List.mem_cons_self, set⟩)

def SameSetting (set set' : PsOpt × Bytes) : Prop := set.1 = set'.1 ∧ SameValue set.2 set'.2

theorem setting_same {field field' : Bytes × Bytes} (same : SameField field field')
    (valid : ValidField field) (valid' : ValidField field') :
    Option.Rel SameSetting (setting field) (setting field') := by
  have sameKey := same.key.eq (startsSolid_of_valid valid) (startsSolid_of_valid valid')
  unfold setting
  rw [sameKey]
  split_ifs
  · exact .none
  · cases findOpt field.1 with
    | none => exact .none
    | some opt => exact .some ⟨rfl, same.value⟩

theorem settings_same {fields fields' : List (Bytes × Bytes)}
    (same : List.Forall₂ SameField fields fields') (valid : ∀ field ∈ fields, ValidField field)
    (valid' : ∀ field ∈ fields', ValidField field) :
    List.Forall₂ SameSetting (fields.filterMap setting) (fields'.filterMap setting) := by
  have aligned : List.Forall₂ (fun field field' =>
      Option.Rel SameSetting (setting field) (setting field')) fields fields' := by
    induction same with
    | nil => exact .nil
    | cons first rest ih =>
        rw [List.forall_mem_cons] at valid valid'
        exact .cons (setting_same first valid.1 valid'.1) (ih valid.2 valid'.2)
  exact List.rel_filterMap (fun _ _ related => related) aligned

theorem find_same {set set' : List (PsOpt × Bytes)} (same : List.Forall₂ SameSetting set set')
    (opt : PsOpt) :
    Option.Rel SameValue ((set.find? fun setting => setting.1 = opt).map Prod.snd)
      ((set'.find? fun setting => setting.1 = opt).map Prod.snd) := by
  induction same with
  | nil => exact .none
  | cons related _ ih =>
      rw [List.find?_cons, List.find?_cons, ← related.1]
      split
      · exact .some related.2
      · exact ih

theorem lastValue_same {text text' : Bytes}
    (same : List.Forall₂ SameField (readFields text) (readFields text'))
    (valid : ∀ field ∈ readFields text, ValidField field)
    (valid' : ∀ field ∈ readFields text', ValidField field) (opt : PsOpt) :
    Option.Rel SameValue (lastValue opt (settings text)) (lastValue opt (settings text')) :=
  find_same (List.forall₂_reverse_iff.mpr (settings_same same valid valid')) opt

/-! ## The config that is stored -/

theorem storedConfig_get (opt : PsOpt) (text : Bytes) (configId : UInt64) :
    opt.get (storedConfig text configId) =
      ((lastValue opt (settings text)).map opt.read).getD (opt.get (.defaults configId)) :=
  stored_field opt _ _

theorem stored_get_eq_iff {text text' : Bytes} {opt : PsOpt}
    (same : Option.Rel SameValue (lastValue opt (settings text)) (lastValue opt (settings text')))
    (configId : UInt64) :
    opt.get (storedConfig text' configId) = opt.get (storedConfig text configId) ↔
      (lastValue opt (settings text')).map opt.read =
        (lastValue opt (settings text)).map opt.read := by
  rw [storedConfig_get, storedConfig_get]
  rcases rel_cases same with ⟨none, none'⟩ | ⟨value, value', last, last', -⟩
  · simp [none, none']
  · simp [last, last']

theorem storedConfig_eq {text text' : Bytes} {configId : UInt64}
    (fields : ∀ opt : PsOpt,
      opt.get (storedConfig text' configId) = opt.get (storedConfig text configId)) :
    storedConfig text' configId = storedConfig text configId := by
  apply config_eq_of_get fields
  · rw [storedConfig, storedConfig, storeAll_kept ProcessConfig.configId, storeAll_kept
      ProcessConfig.configId]
    all_goals
      intro opt value config
      cases opt <;> rfl
  · rw [storedConfig, storedConfig, storeAll_kept ProcessConfig.lastMonitorTime, storeAll_kept
      ProcessConfig.lastMonitorTime]
    all_goals
      intro opt value config
      cases opt <;> rfl

def withDefaultCmd (config : ProcessConfig) : ProcessConfig :=
  if config.monitorCmd.text = [] then
    { config with monitorCmd := defaultMonitorCmd config.name }
  else config

theorem finishConfig_eq_some_iff {config config' : ProcessConfig} :
    finishConfig config = some config' ↔
      config.name.text ≠ [] ∧ withDefaultCmd config = config' := by
  unfold finishConfig withDefaultCmd
  split_ifs with noName noCommand <;> simp [noName]

theorem get_withDefaultCmd {opt : PsOpt} (other : opt ≠ .monitorCommand) (config : ProcessConfig) :
    opt.get (withDefaultCmd config) = opt.get config := by
  unfold withDefaultCmd
  split_ifs
  · have different : PsOpt.monitorCommand ≠ opt := other.symm
    exact PsOpt.get_put_of_ne different (defaultMonitorCmd config.name) config
  · rfl

theorem space_of_blank {value : Bytes} (blank : trim value = []) :
    ∀ c ∈ value, isspace c = true :=
  List.dropWhile_eq_nil_iff.mp (trim_eq_nil_iff.mp blank)

theorem defaultMonitorCmd_solid (name : CharBuf 64) : 112 ∈ (defaultMonitorCmd name).text := by
  have first : lit "pgrep -f $(which " ++ name.text ++ lit ")" =
      [112] ++ (lit "grep -f $(which " ++ name.text ++ lit ")") := rfl
  have text : (defaultMonitorCmd name).text =
      (cstr ([112] ++ (lit "grep -f $(which " ++ name.text ++ lit ")"))).take 255 := by
    rw [← first]
    rfl
  rw [text, cstr_append (by decide), List.singleton_append, List.take_succ_cons]
  exact List.mem_cons_self

theorem blank_ne_default {value : Bytes} (blank : trim value = []) (name : CharBuf 64) :
    snprintf 256 value ≠ defaultMonitorCmd name := by
  intro same
  have member := defaultMonitorCmd_solid name
  rw [← same] at member
  have space := space_of_blank blank 112 (mem_of_mem_cstr (List.mem_of_mem_take member))
  cases space

theorem snprintf_text_eq_nil {value : Bytes} (noNul : 0 ∉ value) :
    (snprintf 256 value).text = [] ↔ value = [] := by
  show (cstr value).take 255 = [] ↔ value = []
  rw [cstr_of_notMem noNul]
  simp

theorem withDefaultCmd_monitorCmd (config : ProcessConfig) :
    (withDefaultCmd config).monitorCmd =
      if config.monitorCmd.text = [] then defaultMonitorCmd config.name
      else config.monitorCmd := by
  unfold withDefaultCmd
  split_ifs <;> rfl

theorem command_read_eq {value value' : Bytes} (same : SameValue value value')
    {config config' : ProcessConfig} (isRead : config.monitorCmd = snprintf 256 value)
    (isRead' : config'.monitorCmd = snprintf 256 value')
    (finished : withDefaultCmd config' = withDefaultCmd config) :
    snprintf 256 value' = snprintf 256 value := by
  have commands := congrArg ProcessConfig.monitorCmd finished
  rw [withDefaultCmd_monitorCmd, withDefaultCmd_monitorCmd, isRead, isRead'] at commands
  have inside := same.same.inside
  by_cases nothing : value = []
  · by_cases nothing' : value' = []
    · rw [nothing, nothing']
    · rw [if_pos ((snprintf_text_eq_nil same.noNul).mpr nothing),
        if_neg fun empty => nothing' ((snprintf_text_eq_nil same.noNul').mp empty)] at commands
      rw [nothing] at inside
      exact absurd commands (blank_ne_default inside.symm _)
  · rw [if_neg fun empty => nothing ((snprintf_text_eq_nil same.noNul).mp empty)] at commands
    by_cases nothing' : value' = []
    · rw [if_pos ((snprintf_text_eq_nil same.noNul').mpr nothing')] at commands
      rw [nothing'] at inside
      exact absurd commands.symm (blank_ne_default inside _)
    · rwa [if_neg fun empty => nothing' ((snprintf_text_eq_nil same.noNul').mp empty)] at commands

theorem stored_texts_same {text text' : Bytes} {configId : UInt64}
    (same : ∀ opt, Option.Rel SameValue (lastValue opt (settings text))
      (lastValue opt (settings text')))
    (finished : withDefaultCmd (storedConfig text' configId) =
      withDefaultCmd (storedConfig text configId)) (opt : PsOpt) :
    opt.get (storedConfig text' configId) = opt.get (storedConfig text configId) := by
  by_cases command : opt = .monitorCommand
  · subst command
    rw [stored_get_eq_iff (same .monitorCommand)]
    have stored := storedConfig_get .monitorCommand text configId
    have stored' := storedConfig_get .monitorCommand text' configId
    rcases rel_cases (same .monitorCommand) with
      ⟨none, none'⟩ | ⟨value, value', last, last', related⟩
    · rw [none, none']
    · rw [last] at stored ⊢
      rw [last'] at stored' ⊢
      exact congrArg some (command_read_eq related stored stored' finished)
  · rw [← get_withDefaultCmd command, finished, get_withDefaultCmd command]

theorem read_period_same {value value' : Bytes} (same : SameInside value value') :
    PsOpt.read .monitorPeriod value' = PsOpt.read .monitorPeriod value := by
  have numbers : strtol value' = strtol value := by
    unfold strtol
    rw [scanInteger_same same]
  exact congrArg Int32.ofInt numbers

theorem parseConfig_same_iff {text text' : Bytes} {configId : UInt64} {config : ProcessConfig}
    (reblanked : ReblankedText text text') (accepted : parseConfig text configId = some config) :
    parseConfig text' configId = some config ↔ FrontsKept text text' := by
  obtain ⟨valid, finished⟩ := (parseConfig_eq_some_iff text configId config).mp accepted
  obtain ⟨named, done⟩ := finishConfig_eq_some_iff.mp finished
  have fields := readFields_reblanked reblanked
  constructor
  · intro accepted'
    obtain ⟨valid', finished'⟩ := (parseConfig_eq_some_iff text' configId config).mp accepted'
    obtain ⟨-, done'⟩ := finishConfig_eq_some_iff.mp finished'
    have same := lastValue_same fields valid valid'
    refine ⟨fun field member => startsSolid_of_valid (valid' field member), ?_, ?_⟩
    · intro value member
      exact switch_solid (accepts_of_mem valid' member)
    · intro opt _
      rw [← stored_get_eq_iff (same opt) configId]
      exact stored_texts_same same (done'.trans done.symm) opt
  · intro kept
    have valid' := validFields_of_same fields valid kept.keys kept.switches
    have same := lastValue_same fields valid valid'
    have stored : storedConfig text' configId = storedConfig text configId := by
      apply storedConfig_eq
      intro opt
      rw [stored_get_eq_iff (same opt)]
      by_cases isText : opt.IsText
      · exact kept.texts opt isText
      · rcases rel_cases (same opt) with ⟨none, none'⟩ | ⟨value, value', last, last', related⟩
        · rw [none, none']
        · rw [last, last', Option.map_some, Option.map_some, Option.some.injEq]
          by_cases period : opt = .monitorPeriod
          · subst period
            exact read_period_same related.same
          · have switch : opt = .monitorSwitch := by
              by_contra other
              exact isText ⟨period, other⟩
            subst switch
            have solid := switch_solid (accepts_of_mem valid (mem_of_lastValue last))
            have solid' := kept.switches value' (mem_of_lastValue last')
            rw [related.same.eq solid solid']
    rw [parseConfig_eq_some_iff, stored]
    exact ⟨valid', finished⟩

/-! ## Blank values -/

structure BlankAsEmpty (text : Bytes) (configId : UInt64) : Prop where
  name : ∀ value, lastValue .name (settings text) = some value → trim value = [] →
    parseConfig text configId = none
  command : ∀ value, lastValue .monitorCommand (settings text) = some value → trim value = [] →
    ∀ config, parseConfig text configId = some config →
      config.monitorCmd = defaultMonitorCmd config.name

theorem noNul_of_mem_settings {text value : Bytes} {opt : PsOpt}
    (member : (opt, value) ∈ settings text) : 0 ∉ value := by
  obtain ⟨field, isField, set⟩ := List.mem_filterMap.mp member
  obtain ⟨line, -, read⟩ := List.mem_filterMap.mp isField
  unfold setting at set
  rw [Option.ite_none_left_eq_some, Option.map_eq_some_iff] at set
  obtain ⟨-, found, -, same⟩ := set
  cases same
  unfold readField splitAt at read
  rw [Option.map_eq_some_iff] at read
  obtain ⟨parts, split, rfl⟩ := read
  rw [Option.ite_none_right_eq_some, Option.some.injEq] at split
  rw [← split.2]
  apply zero_notMem_trimWhitespace
  intro inTail
  exact zero_notMem_cstr line ((List.dropWhile_sublist _).mem (List.mem_of_mem_tail inTail))

theorem blankAsEmpty_iff {text : Bytes} {configId : UInt64} {config : ProcessConfig}
    (accepted : parseConfig text configId = some config) :
    BlankAsEmpty text configId ↔
      (∀ value, lastValue .name (settings text) = some value → trim value ≠ []) ∧
      (∀ value, lastValue .monitorCommand (settings text) = some value → trim value = [] →
        value = []) := by
  obtain ⟨-, finished⟩ := (parseConfig_eq_some_iff text configId config).mp accepted
  obtain ⟨-, done⟩ := finishConfig_eq_some_iff.mp finished
  have stored := storedConfig_get .monitorCommand text configId
  have command : config.monitorCmd = _ :=
    (congrArg ProcessConfig.monitorCmd done).symm.trans (withDefaultCmd_monitorCmd _)
  constructor
  · rintro ⟨name, blankCommand⟩
    refine ⟨fun value last blank => ?_, fun value last blank => ?_⟩
    · rw [name value last blank] at accepted
      cases accepted
    · by_contra nonempty
      have isDefault := blankCommand value last blank config accepted
      rw [last] at stored
      have isRead : (storedConfig text configId).monitorCmd = snprintf 256 value := stored
      have noNul := noNul_of_mem_settings (mem_of_lastValue last)
      rw [isRead, if_neg fun empty => nonempty ((snprintf_text_eq_nil noNul).mp empty)] at command
      exact blank_ne_default blank config.name (command.symm.trans isDefault)
  · rintro ⟨name, blankCommand⟩
    refine ⟨fun value last blank => absurd blank (name value last), ?_⟩
    intro value last blank other acceptedOther
    rw [accepted] at acceptedOther
    cases acceptedOther
    rw [last, blankCommand value last blank] at stored
    have isRead : (storedConfig text configId).monitorCmd = snprintf 256 [] := stored
    have sameName : config.name = (storedConfig text configId).name := by
      rw [← done]
      have other : PsOpt.name ≠ .monitorCommand := by decide
      exact get_withDefaultCmd other _
    rw [command, isRead, sameName]
    rfl

/-- Blanks make no difference to an accepted text exactly when none are put in front of a key or a
switch and those in front of the other values stay; and blank values are as good as empty in it
exactly when its name is not blank and its monitor command is empty if it is blank. -/
theorem blanks_ignored_iff (text text' : Bytes) (configId : UInt64) (config : ProcessConfig)
    (reblanked : ReblankedText text text') (accepted : parseConfig text configId = some config) :
    (parseConfig text' configId = some config ↔ FrontsKept text text') ∧
    (BlankAsEmpty text configId ↔
      (∀ value, lastValue .name (settings text) = some value → trim value ≠ []) ∧
      (∀ value, lastValue .monitorCommand (settings text) = some value → trim value = [] →
        value = [])) :=
  ⟨parseConfig_same_iff reblanked accepted, blankAsEmpty_iff accepted⟩

def shConfig : ProcessConfig :=
  { ProcessConfig.defaults 7 with
    name := snprintf 64 (lit "sh"), monitorCmd := defaultMonitorCmd (snprintf 64 (lit "sh")) }

theorem parseConfig_sh : parseConfig (textOf [lit "NAME=sh"] []) 7 = some shConfig := by decide

theorem reblanked_sh (before after : Bytes) (blanks : Blanks (before ++ after))
    (whole : WholeLine (before ++ lit "NAME" ++ after ++ lit "=sh")) :
    ReblankedText (textOf [lit "NAME=sh"] [])
      (textOf [before ++ lit "NAME" ++ after ++ lit "=sh"] []) := by
  have line : Reblanked ([] ++ lit "NAME" ++ [] ++ 61 :: ([] ++ lit "sh" ++ []))
      (before ++ lit "NAME" ++ after ++ 61 :: ([] ++ lit "sh" ++ [])) :=
    .field (by decide) (by decide) (by simpa using blanks)
  refine .intro (.cons line .nil) (.same List.not_mem_nil) (by decide) ?_
  rw [List.forall_mem_cons, List.forall_mem_singleton]
  exact ⟨by decide, whole⟩

theorem blanks_ignored_iff_sh :
    (parseConfig (textOf [lit "NAME \t=sh"] []) 7 = some shConfig ↔
      FrontsKept (textOf [lit "NAME=sh"] []) (textOf [lit "NAME \t=sh"] [])) ∧
    (BlankAsEmpty (textOf [lit "NAME=sh"] []) 7 ↔
      (∀ value, lastValue .name (settings (textOf [lit "NAME=sh"] [])) = some value →
        trim value ≠ []) ∧
      (∀ value, lastValue .monitorCommand (settings (textOf [lit "NAME=sh"] [])) = some value →
        trim value = [] → value = [])) :=
  blanks_ignored_iff _ _ 7 shConfig (reblanked_sh [] [32, 9] (by decide) (by decide)) parseConfig_sh

theorem blanks_matter :
    (¬ ∀ (text text' : Bytes) (configId : UInt64), ReblankedText text text' →
      parseConfig text' configId = parseConfig text configId) ∧
    ¬ ∀ (text : Bytes) (configId : UInt64), BlankAsEmpty text configId := by
  constructor
  · intro ignored
    have same := ignored _ _ 7 (reblanked_sh [32] [] (by decide) (by decide))
    rw [parseConfig_sh] at same
    exact absurd same (by decide)
  · intro asEmpty
    have rejected := (asEmpty (lit "NAME= \n") 7).name (lit " \n") (by decide) (by decide)
    exact absurd rejected (by decide)

end SysDetector.Proc
