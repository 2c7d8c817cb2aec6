import Mathlib.Data.List.DropRight
import SysDetector.Library.CLib

namespace CLib

/-! ## Trimming -/

def trimEnd (s : Bytes) : Bytes := s.rdropWhile isspace

def StartsSolid (s : Bytes) : Prop := ∀ c, s.head? = some c → isspace c = false

def EndsSolid (s : Bytes) : Prop := ∀ c, s.getLast? = some c → isspace c = false

theorem startsSolid_iff {s : Bytes} :
    StartsSolid s ↔ (s.head?.all fun c => !isspace c) = true := by
  unfold StartsSolid
  cases s.head? <;> simp

theorem endsSolid_iff {s : Bytes} : EndsSolid s ↔ (s.getLast?.all fun c => !isspace c) = true := by
  unfold EndsSolid
  cases s.getLast? <;> simp

instance (s : Bytes) : Decidable (StartsSolid s) := decidable_of_iff' _ startsSolid_iff

instance (s : Bytes) : Decidable (EndsSolid s) := decidable_of_iff' _ endsSolid_iff

theorem trim_eq (s : Bytes) : trim s = trimEnd (s.dropWhile isspace) := rfl

theorem dropWhile_solid {s : Bytes} (solid : StartsSolid s) : s.dropWhile isspace = s := by
  cases s with
  | nil => rfl
  | cons c s => rw [List.dropWhile_cons_of_neg (by simp [solid c rfl])]

theorem trim_of_solid {s : Bytes} (solid : StartsSolid s) : trim s = trimEnd s := by
  rw [trim_eq, dropWhile_solid solid]

theorem trimEnd_append {a b : Bytes} {c : UInt8} (solid : isspace c = false) :
    trimEnd (a ++ c :: b) = a ++ c :: trimEnd b := by
  have reversed : (a ++ c :: b).reverse = b.reverse ++ c :: a.reverse := by simp
  have stops : (c :: a.reverse).dropWhile isspace = c :: a.reverse :=
    List.dropWhile_cons_of_neg (by simp [solid])
  unfold trimEnd List.rdropWhile
  rw [reversed, List.dropWhile_append, stops]
  split_ifs with empty
  · rw [List.isEmpty_iff.mp empty]
    simp
  · simp

theorem trimEnd_concat_space (s : Bytes) {c : UInt8} (space : isspace c = true) :
    trimEnd (s ++ [c]) = trimEnd s :=
  List.rdropWhile_concat_pos isspace s c space

theorem trim_concat_space (s : Bytes) {c : UInt8} (space : isspace c = true) :
    trim (s ++ [c]) = trim s := by
  rw [trim_eq, trim_eq, List.dropWhile_append]
  split_ifs with empty
  · rw [List.isEmpty_iff.mp empty]
    simp [space]
  · exact trimEnd_concat_space _ space

theorem trim_trimEnd (s : Bytes) : trim (trimEnd s) = trim s := by
  induction s using List.reverseRecOn with
  | nil => rfl
  | append_singleton s c ih =>
      cases space : isspace c with
      | true => rw [trimEnd_concat_space s space, trim_concat_space s space, ih]
      | false => rw [trimEnd, List.rdropWhile_concat_neg isspace s c (by simp [space])]

theorem trim_append_spaces (s : Bytes) {spaces : Bytes}
    (blank : ∀ c ∈ spaces, isspace c = true) : trim (s ++ spaces) = trim s := by
  induction spaces using List.reverseRecOn with
  | nil => rw [List.append_nil]
  | append_singleton spaces c ih =>
      rw [← List.append_assoc, trim_concat_space _ (blank c (by simp))]
      exact ih fun d member => blank d (List.mem_append_left _ member)

theorem trim_spaces_append {spaces : Bytes} (blank : ∀ c ∈ spaces, isspace c = true) (s : Bytes) :
    trim (spaces ++ s) = trim s := by
  rw [trim_eq, trim_eq, List.dropWhile_append_of_pos blank]

theorem trimEnd_eq_self_iff {s : Bytes} : trimEnd s = s ↔ EndsSolid s := by
  rw [trimEnd, List.rdropWhile_eq_self_iff]
  constructor
  · intro solid c last
    obtain ⟨nonempty, rfl⟩ := List.mem_getLast?_eq_getLast last
    simpa using solid nonempty
  · intro solid nonempty
    simp [solid _ (List.getLast?_eq_some_getLast nonempty)]

theorem trimEnd_endsSolid (s : Bytes) : EndsSolid (trimEnd s) :=
  trimEnd_eq_self_iff.mp (List.rdropWhile_idempotent isspace s)

theorem trim_eq_nil_iff {s : Bytes} : trim s = [] ↔ s.dropWhile isspace = [] := by
  rw [trim_eq]
  constructor
  · intro nothing
    have stopped := List.head?_dropWhile_not isspace s
    cases rest : s.dropWhile isspace with
    | nil => rfl
    | cons c t =>
        rw [rest] at stopped nothing
        rw [← List.nil_append (c :: t), trimEnd_append (by simpa using stopped)] at nothing
        cases nothing
  · intro blank
    rw [blank]
    rfl

theorem trim_endsSolid (s : Bytes) : EndsSolid (trim s) := trimEnd_endsSolid _

theorem trimEnd_cons {c : UInt8} (solid : isspace c = false) (s : Bytes) :
    trimEnd (c :: s) = c :: trimEnd s :=
  trimEnd_append (a := []) solid

theorem isspace_tolower (c : UInt8) : isspace (tolower c) = isspace c := by
  unfold isspace tolower
  split_ifs with upper
  · have low := UInt8.le_iff_toNat_le.mp upper.1
    have high := UInt8.le_iff_toNat_le.mp upper.2
    simp only [decide_eq_decide]
    grind
  · rfl

theorem trim_startsSolid (s : Bytes) : StartsSolid (trim s) := by
  rw [trim_eq]
  cases rest : s.dropWhile isspace with
  | nil =>
      intro c first
      cases first
  | cons c t =>
      have solid : isspace c = false := by
        have stopped := List.head?_dropWhile_not isspace s
        rw [rest] at stopped
        simpa using stopped
      rw [trimEnd_cons solid]
      intro d first
      rw [List.head?_cons, Option.some.injEq] at first
      rw [← first, solid]

/-! ## One line -/

def keyValue (line : Bytes) : Option (Bytes × Bytes) :=
  let line := trim (cstr line)
  if line = [] ∨ line.head? = some 35 then none
  else (splitAt 61 line).map fun (key, value) => (trim key, trim value)

structure PlainKey (key : Bytes) : Prop where
  nonempty : key ≠ []
  plain : ∀ c ∈ key, isspace c = false ∧ c ≠ 61 ∧ c ≠ 35 ∧ c ≠ 0

theorem plainKey_of_all {key : Bytes} (nonempty : key ≠ [])
    (plain : (key.all fun c => !isspace c && c != 61 && c != 35 && c != 0) = true) :
    PlainKey key where
  nonempty := nonempty
  plain := by simpa [and_assoc] using plain

theorem trim_sublist (s : Bytes) : (trim s).Sublist s :=
  (List.rdropWhile_prefix isspace _).sublist.trans (List.dropWhile_sublist isspace)

theorem splitAt_of_notMem {c : UInt8} {key : Bytes} (absent : c ∉ key) (rest : Bytes) :
    splitAt c (key ++ c :: rest) = some (key, rest) := by
  have plain : ∀ d ∈ key, decide (d ≠ c) = true := by
    intro d member
    rw [decide_eq_true_eq]
    rintro rfl
    exact absent member
  rw [splitAt, if_pos (by simp), List.takeWhile_append_of_pos plain,
    List.dropWhile_append_of_pos plain]
  simp

theorem strcaseeq_startsSolid {a b : Bytes} (same : strcaseeq a b = true) (solid : StartsSolid b) :
    StartsSolid a := by
  have heads : (a.map tolower).head? = (b.map tolower).head? := by
    rw [strcaseeq, decide_eq_true_eq] at same
    rw [same]
  rw [List.head?_map, List.head?_map] at heads
  intro c first
  rw [first, Option.map_some, eq_comm, Option.map_eq_some_iff] at heads
  obtain ⟨d, start, lower⟩ := heads
  rw [← isspace_tolower c, ← lower, isspace_tolower d]
  exact solid d start

theorem mem_of_mem_trim {c : UInt8} {s : Bytes} (member : c ∈ trim s) : c ∈ s :=
  (trim_sublist s).mem member

theorem mem_of_mem_cstr {c : UInt8} {s : Bytes} (member : c ∈ cstr s) : c ∈ s :=
  (List.takeWhile_prefix _).mem member

theorem keyValue_of_notMem {line : Bytes} (absent : 61 ∉ line) : keyValue line = none := by
  have trimmed : 61 ∉ trim (cstr line) :=
    fun member => absent (mem_of_mem_cstr (mem_of_mem_trim member))
  unfold keyValue splitAt
  simp [trimmed]

section Field
variable {key value : Bytes}

theorem PlainKey.trim (plain : PlainKey key) : CLib.trim key = key := by
  have solid : StartsSolid key := by
    intro c first
    exact (plain.plain c (List.mem_of_mem_head? first)).1
  rw [trim_of_solid solid, trimEnd_eq_self_iff]
  intro c last
  exact (plain.plain c (List.mem_of_getLast? last)).1

theorem keyValue_field (plain : PlainKey key) (noNul : 0 ∉ value) :
    keyValue (key ++ 61 :: value) = some (key, trim value) := by
  have whole : cstr (key ++ 61 :: value) = key ++ 61 :: value := by
    apply cstr_of_notMem
    intro member
    rcases List.mem_append.mp member with inKey | inValue
    · exact (plain.plain 0 inKey).2.2.2 rfl
    · rcases List.mem_cons.mp inValue with equals | inValue
      · cases equals
      · exact noNul inValue
  have solid : StartsSolid (key ++ 61 :: value) := by
    intro c first
    rw [List.head?_append_of_ne_nil _ plain.nonempty] at first
    exact (plain.plain c (List.mem_of_mem_head? first)).1
  have trimmed : CLib.trim (key ++ 61 :: value) = key ++ 61 :: trimEnd value := by
    rw [trim_of_solid solid, trimEnd_append (by decide)]
  have notComment : (key ++ 61 :: trimEnd value).head? ≠ some 35 := by
    rw [List.head?_append_of_ne_nil _ plain.nonempty]
    intro first
    exact (plain.plain 35 (List.mem_of_mem_head? first)).2.2.1 rfl
  have noEquals : 61 ∉ key := fun member => (plain.plain 61 member).2.1 rfl
  unfold keyValue
  simp only [whole, trimmed, notComment, List.append_eq_nil_iff, reduceCtorEq, and_false, or_self,
    if_false, splitAt_of_notMem noEquals, Option.map_some, plain.trim, trim_trimEnd]

end Field

/-! ## Whole files -/

theorem fgetsFrom_lines {size : Nat} {start file line : Bytes} (clean : 10 ∉ start)
    (member : line ∈ fgetsFrom size start file) :
    ∃ body, 10 ∉ body ∧ (line = body ∨ line = body ++ [10]) := by
  induction file generalizing start with
  | nil =>
      unfold fgetsFrom at member
      split_ifs at member
      · cases member
      · exact ⟨start, clean, .inl (List.mem_singleton.mp member)⟩
  | cons c file ih =>
      have extended : c ≠ 10 → 10 ∉ start ++ [c] := by
        intro other member
        rcases List.mem_append.mp member with earlier | last
        · exact clean earlier
        · exact other (List.mem_singleton.mp last).symm
      unfold fgetsFrom at member
      split_ifs at member with stop
      · rcases List.mem_cons.mp member with rfl | later
        · by_cases newline : c = 10
          · exact ⟨start, clean, .inr (by rw [newline])⟩
          · exact ⟨start ++ [c], extended newline, .inl rfl⟩
        · exact ih List.not_mem_nil later
      · exact ih (extended fun newline => stop (.inl newline)) member

structure ReadValue (value : Bytes) : Prop where
  starts : StartsSolid value
  ends : EndsSolid value
  noNul : 0 ∉ value
  oneLine : 10 ∉ value

theorem newline_notMem_trim {body line : Bytes} (clean : 10 ∉ body)
    (ended : line = body ∨ line = body ++ [10]) : 10 ∉ trim (cstr line) := by
  intro member
  rcases ended with rfl | rfl
  · exact clean (mem_of_mem_cstr (mem_of_mem_trim member))
  · by_cases nul : 0 ∈ body
    · rw [cstr_append_of_mem nul] at member
      exact clean (mem_of_mem_cstr (mem_of_mem_trim member))
    · have whole : cstr (body ++ [10]) = body ++ [10] := cstr_of_notMem (by simpa using nul)
      rw [whole, trim_concat_space body (by decide)] at member
      exact clean (mem_of_mem_trim member)

theorem keyValue_readValue {size : Nat} {file line key value : Bytes}
    (member : line ∈ fgets size file) (read : keyValue line = some (key, value)) :
    ReadValue value := by
  obtain ⟨body, clean, ended⟩ := fgetsFrom_lines List.not_mem_nil member
  unfold keyValue splitAt at read
  dsimp only at read
  rw [Option.ite_none_left_eq_some, Option.map_eq_some_iff] at read
  obtain ⟨-, pair, split, trimmed⟩ := read
  rw [Option.ite_none_right_eq_some, Option.some.injEq] at split
  rw [← split.2, Prod.mk.injEq] at trimmed
  obtain ⟨-, rfl⟩ := trimmed
  have inside : ∀ c, c ∈ trim (((trim (cstr line)).dropWhile (· ≠ 61)).tail) →
      c ∈ trim (cstr line) := by
    intro c part
    exact (List.dropWhile_sublist _).mem (List.mem_of_mem_tail (mem_of_mem_trim part))
  refine ⟨trim_startsSolid _, trim_endsSolid _, ?_, ?_⟩
  · intro nul
    exact zero_notMem_cstr line (mem_of_mem_trim (inside 0 nul))
  · intro newline
    exact newline_notMem_trim clean ended (inside 10 newline)

theorem fgetsFrom_line {size : Nat} {start line : Bytes} (oneLine : 10 ∉ line)
    (short : start.length + line.length + 2 ≤ size) (rest : Bytes) :
    fgetsFrom size start (line ++ 10 :: rest) = (start ++ line ++ [10]) :: fgetsFrom size [] rest := by
  induction line generalizing start with
  | nil => simp [fgetsFrom]
  | cons c line ih =>
      rw [List.length_cons] at short
      have goesOn : ¬ (c = 10 ∨ start.length + 2 = size) := by
        rintro (rfl | full)
        · exact oneLine List.mem_cons_self
        · omega
      have longer : (start ++ [c]).length + line.length + 2 ≤ size := by
        rw [List.length_append, List.length_singleton]
        omega
      have next := ih (fun member => oneLine (List.mem_cons_of_mem _ member)) longer
      rw [List.cons_append, fgetsFrom, if_neg goesOn, next]
      simp

theorem fgetsFrom_rest {size : Nat} {start line : Bytes} (oneLine : 10 ∉ line)
    (short : start.length + line.length + 2 ≤ size) :
    fgetsFrom size start line = if start ++ line = [] then [] else [start ++ line] := by
  induction line generalizing start with
  | nil => simp [fgetsFrom]
  | cons c line ih =>
      rw [List.length_cons] at short
      have goesOn : ¬ (c = 10 ∨ start.length + 2 = size) := by
        rintro (rfl | full)
        · exact oneLine List.mem_cons_self
        · omega
      have longer : (start ++ [c]).length + line.length + 2 ≤ size := by
        rw [List.length_append, List.length_singleton]
        omega
      have next := ih (fun member => oneLine (List.mem_cons_of_mem _ member)) longer
      rw [fgetsFrom, if_neg goesOn, next]
      simp

def fieldsText (fields : List (Bytes × Bytes)) : Bytes :=
  fields.flatMap fun field => field.1 ++ 61 :: (field.2 ++ [10])

structure PlainField (size : Nat) (field : Bytes × Bytes) : Prop where
  key : PlainKey field.1
  noNul : 0 ∉ field.2
  oneLine : 10 ∉ field.2
  short : field.1.length + field.2.length + 3 ≤ size

def readFields : Nat → List (Bytes × Bytes) → List (Bytes × Bytes)
  | _, [] => []
  | n, (key, value) :: rest =>
      if n ≤ key.length then []
      else (key, trim (value.take (n - (key.length + 1)))) ::
        readFields (n - (key.length + value.length + 2)) rest

theorem readFields_zero (fields : List (Bytes × Bytes)) : readFields 0 fields = [] := by
  cases fields with
  | nil => rfl
  | cons field rest => rw [readFields, if_pos (Nat.zero_le _)]

theorem PlainField.line {size : Nat} {key value : Bytes} (plain : PlainField size (key, value)) :
    10 ∉ key ++ 61 :: value := by
  intro member
  rcases List.mem_append.mp member with inKey | inValue
  · have solid := (plain.key.plain 10 inKey).1
    cases solid
  · rcases List.mem_cons.mp inValue with equals | inValue
    · cases equals
    · exact plain.oneLine inValue

theorem keyValue_take {size : Nat} {key value : Bytes} (plain : PlainField size (key, value))
    (n : Nat) : keyValue ((key ++ 61 :: value).take n) =
      if n ≤ key.length then none else some (key, trim (value.take (n - (key.length + 1)))) := by
  split_ifs with inKey
  · rw [List.take_append_of_le_length inKey]
    apply keyValue_of_notMem
    intro member
    exact (plain.key.plain 61 (List.mem_of_mem_take member)).2.1 rfl
  · obtain ⟨m, rfl⟩ : ∃ m, n = key.length + (m + 1) := ⟨n - key.length - 1, by omega⟩
    have rest : key.length + (m + 1) - (key.length + 1) = m := by omega
    rw [List.take_length_add_append, List.take_succ_cons, rest]
    exact keyValue_field plain.key fun member => plain.noNul (List.mem_of_mem_take member)

theorem fieldsText_cons (key value : Bytes) (rest : List (Bytes × Bytes)) :
    fieldsText ((key, value) :: rest) = (key ++ 61 :: value) ++ 10 :: fieldsText rest := by
  simp [fieldsText]

section
variable {size : Nat} {key value : Bytes} (plain : PlainField size (key, value))
include plain

theorem field_bound : ([] : Bytes).length + (key ++ 61 :: value).length + 2 ≤ size := by
  have short : key.length + value.length + 3 ≤ size := plain.short
  rw [List.length_nil, List.length_append, List.length_cons]
  omega

theorem read_cut_field {n : Nat} (within : n ≤ (key ++ 61 :: value).length)
    (rest : List (Bytes × Bytes)) :
    (fgets size ((fieldsText ((key, value) :: rest)).take n)).filterMap keyValue =
      readFields n ((key, value) :: rest) := by
  have oneLine : 10 ∉ (key ++ 61 :: value).take n :=
    fun member => plain.line (List.mem_of_mem_take member)
  have bound : ([] : Bytes).length + ((key ++ 61 :: value).take n).length + 2 ≤ size := by
    have whole := field_bound plain
    rw [List.length_take]
    omega
  have passed : n - (key.length + value.length + 2) = 0 := by
    rw [List.length_append, List.length_cons] at within
    omega
  rw [fieldsText_cons, readFields, List.take_append_of_le_length within, fgets,
    fgetsFrom_rest oneLine bound, passed, readFields_zero, List.nil_append]
  have read := keyValue_take plain n
  split_ifs at read ⊢ with empty inKey inKey
  · rfl
  · rw [empty] at read
    cases read
  · simp [read]
  · simp [read]

theorem read_whole_field (m : Nat) (rest : List (Bytes × Bytes)) :
    (fgets size ((fieldsText ((key, value) :: rest)).take
        ((key ++ 61 :: value).length + (m + 1)))).filterMap keyValue =
      (key, trim value) :: (fgets size ((fieldsText rest).take m)).filterMap keyValue := by
  have ended : keyValue (key ++ 61 :: value ++ [10]) = some (key, trim value) := by
    have noNul : 0 ∉ value ++ [10] := by simpa using plain.noNul
    rw [List.append_assoc, List.cons_append, keyValue_field plain.key noNul,
      trim_concat_space value (by decide)]
  rw [fieldsText_cons, List.take_length_add_append, List.take_succ_cons, fgets,
    fgetsFrom_line plain.line (field_bound plain), List.nil_append, List.filterMap_cons_some ended]
  rfl

end

theorem read_fields {size : Nat} {fields : List (Bytes × Bytes)}
    (plain : ∀ field ∈ fields, PlainField size field) (n : Nat) :
    (fgets size ((fieldsText fields).take n)).filterMap keyValue = readFields n fields := by
  induction fields generalizing n with
  | nil => simp [fieldsText, fgets, fgetsFrom, readFields]
  | cons field rest ih =>
      obtain ⟨key, value⟩ := field
      have first := plain (key, value) List.mem_cons_self
      have others := ih fun field member => plain field (List.mem_cons_of_mem _ member)
      have length : (key ++ 61 :: value).length = key.length + value.length + 1 := by
        rw [List.length_append, List.length_cons]
        omega
      by_cases within : n ≤ (key ++ 61 :: value).length
      · exact read_cut_field first within rest
      · obtain ⟨m, rfl⟩ : ∃ m, n = (key ++ 61 :: value).length + (m + 1) :=
          ⟨n - (key ++ 61 :: value).length - 1, by omega⟩
        have whole : value.take ((key ++ 61 :: value).length + (m + 1) - (key.length + 1)) =
            value := List.take_of_length_le (by omega)
        have later : (key ++ 61 :: value).length + (m + 1) - (key.length + value.length + 2) = m := by
          omega
        rw [read_whole_field first, readFields, if_neg (by omega), whole, later, others]

theorem readFields_all {fields : List (Bytes × Bytes)} {n : Nat}
    (long : (fieldsText fields).length ≤ n + 1) :
    readFields n fields = fields.map fun field => (field.1, trim field.2) := by
  induction fields generalizing n with
  | nil => rfl
  | cons field rest ih =>
      obtain ⟨key, value⟩ := field
      have length : (fieldsText ((key, value) :: rest)).length =
          key.length + value.length + 2 + (fieldsText rest).length := by
        simp [fieldsText]
        omega
      have whole : value.take (n - (key.length + 1)) = value := List.take_of_length_le (by omega)
      rw [readFields, if_neg (by omega), whole, ih (by omega), List.map_cons]

end CLib
