import Mathlib.Data.List.TakeDrop
import SysDetector.Library.KeyLines

namespace CLib

def linesFrom : Bytes → Bytes → List Bytes
  | line, [] => if line = [] then [] else [line]
  | line, c :: rest =>
      if c = 10 then (line ++ [c]) :: linesFrom [] rest else linesFrom (line ++ [c]) rest

def textLines (text : Bytes) : List Bytes := linesFrom [] text

def OneLine (line : Bytes) : Prop := 10 ∉ line.dropLast

instance (line : Bytes) : Decidable (OneLine line) := inferInstanceAs (Decidable (_ ∉ _))

theorem OneLine.drop {line : Bytes} (one : OneLine line) (n : Nat) : OneLine (line.drop n) := by
  unfold OneLine at one ⊢
  rw [List.dropLast_drop_eq_drop_dropLast]
  exact fun member => one (List.mem_of_mem_drop member)

theorem oneLine_of_mem_linesFrom {start text line : Bytes} (clean : 10 ∉ start)
    (member : line ∈ linesFrom start text) : OneLine line := by
  induction text generalizing start with
  | nil =>
      unfold linesFrom at member
      split_ifs at member
      · cases member
      · rw [List.mem_singleton.mp member]
        exact fun inside => clean (List.mem_of_mem_dropLast inside)
  | cons c text ih =>
      unfold linesFrom at member
      split_ifs at member with newline
      · rcases List.mem_cons.mp member with rfl | later
        · rw [OneLine, List.dropLast_concat]
          exact clean
        · exact ih List.not_mem_nil later
      · refine ih ?_ member
        simp [clean, Ne.symm newline]

theorem oneLine_of_mem {text line : Bytes} (member : line ∈ textLines text) : OneLine line :=
  oneLine_of_mem_linesFrom List.not_mem_nil member

theorem fgetsFrom_split (size : Nat) (start front back : Bytes) :
    fgetsFrom size start (front ++ 10 :: back) =
      fgetsFrom size start (front ++ [10]) ++ fgets size back := by
  induction front generalizing start with
  | nil => simp [fgetsFrom, fgets]
  | cons c front ih =>
      rw [List.cons_append, List.cons_append, fgetsFrom, fgetsFrom]
      split_ifs
      · rw [ih, List.cons_append]
      · exact ih _

theorem fgets_linesFrom {size : Nat} {start : Bytes} (clean : 10 ∉ start) (text : Bytes) :
    (linesFrom start text).flatMap (fgets size) = fgets size (start ++ text) := by
  induction text generalizing start with
  | nil =>
      unfold linesFrom
      split_ifs with nothing
      · rw [nothing]
        rfl
      · simp
  | cons c text ih =>
      unfold linesFrom
      split_ifs with newline
      · subst newline
        rw [List.flatMap_cons, ih List.not_mem_nil, List.nil_append]
        exact (fgetsFrom_split size [] start text).symm
      · have extended : 10 ∉ start ++ [c] := by simp [clean, Ne.symm newline]
        rw [ih extended, List.append_assoc, List.singleton_append]

theorem fgets_lines (size : Nat) (text : Bytes) :
    fgets size text = (textLines text).flatMap (fgets size) :=
  (fgets_linesFrom List.not_mem_nil text).symm

theorem fgetsFrom_fill {size : Nat} {start front : Bytes} {c : UInt8} (clean : 10 ∉ front)
    (length : start.length + front.length + 2 = size) (rest : Bytes) :
    fgetsFrom size start (front ++ c :: rest) = (start ++ front ++ [c]) :: fgets size rest := by
  induction front generalizing start with
  | nil =>
      have full : c = 10 ∨ start.length + 2 = size := .inr (by simpa using length)
      rw [List.nil_append, fgetsFrom, if_pos full, List.append_nil]
      rfl
  | cons d front ih =>
      rw [List.length_cons] at length
      have goesOn : ¬ (d = 10 ∨ start.length + 2 = size) := by
        rintro (rfl | full)
        · exact clean List.mem_cons_self
        · omega
      have longer : (start ++ [d]).length + front.length + 2 = size := by
        rw [List.length_append, List.length_singleton]
        omega
      rw [List.cons_append, fgetsFrom, if_neg goesOn,
        ih (fun member => clean (List.mem_cons_of_mem _ member)) longer]
      simp

theorem fgets_chunk {n : Nat} {line : Bytes} (one : OneLine line) (nonempty : line ≠ []) :
    fgets (n + 2) line = line.take (n + 1) :: fgets (n + 2) (line.drop (n + 1)) := by
  obtain ⟨front, c, rfl⟩ := (List.eq_nil_or_concat' line).resolve_left nonempty
  rw [OneLine, List.dropLast_concat] at one
  by_cases long : n ≤ front.length
  · have inside : n < (front ++ [c]).length := by simpa using Nat.lt_succ_of_le long
    have clean : 10 ∉ (front ++ [c]).take n := by
      rw [List.take_append_of_le_length long]
      exact fun member => one (List.mem_of_mem_take member)
    have length : ([] : Bytes).length + ((front ++ [c]).take n).length + 2 = n + 2 := by
      rw [List.length_take_of_le inside.le, List.length_nil, Nat.zero_add]
    have filled := @fgetsFrom_fill (n + 2) [] _ (front ++ [c])[n] clean length
      ((front ++ [c]).drop (n + 1))
    rw [← List.drop_eq_getElem_cons inside, List.take_append_drop, List.nil_append,
      List.take_append_getElem inside] at filled
    exact filled
  · have whole : (front ++ [c]).length ≤ n + 1 := by
      rw [List.length_append, List.length_singleton]
      omega
    rw [List.take_of_length_le whole, List.drop_of_length_le whole]
    by_cases newline : c = 10
    · subst newline
      exact fgetsFrom_line one (by rw [List.length_nil]; omega) []
    · have clean : 10 ∉ front ++ [c] := by simp [one, Ne.symm newline]
      have short : ([] : Bytes).length + (front ++ [c]).length + 2 ≤ n + 2 := by
        rw [List.length_nil, List.length_append, List.length_singleton]
        omega
      have rest := fgetsFrom_rest clean short
      rw [List.nil_append, if_neg nonempty] at rest
      exact rest

theorem mem_of_mem_fgetsFrom {size : Nat} {start text piece : Bytes} {c : UInt8}
    (member : piece ∈ fgetsFrom size start text) (inside : c ∈ piece) : c ∈ start ++ text := by
  induction text generalizing start with
  | nil =>
      unfold fgetsFrom at member
      split_ifs at member
      · cases member
      · rwa [List.mem_singleton.mp member, ← List.append_nil start] at inside
  | cons d text ih =>
      have shape : start ++ d :: text = (start ++ [d]) ++ text := by simp
      rw [shape]
      unfold fgetsFrom at member
      split_ifs at member
      · rcases List.mem_cons.mp member with rfl | later
        · exact List.mem_append_left _ inside
        · exact List.mem_append_right _ (ih later)
      · exact ih member

theorem mem_of_mem_fgets {size : Nat} {text piece : Bytes} {c : UInt8}
    (member : piece ∈ fgets size text) (inside : c ∈ piece) : c ∈ text :=
  mem_of_mem_fgetsFrom member inside

/-! ## How long trimmed strings are -/

theorem length_trimEnd_append_left (a b : Bytes) :
    (trimEnd a).length ≤ (trimEnd (a ++ b)).length := by
  induction b using List.reverseRecOn with
  | nil => rw [List.append_nil]
  | append_singleton b c ih =>
      rw [← List.append_assoc]
      cases space : isspace c with
      | true => rwa [trimEnd_concat_space _ space]
      | false =>
          have whole : trimEnd (a ++ b ++ [c]) = a ++ b ++ [c] :=
            List.rdropWhile_concat_neg isspace _ c (by simp [space])
          have shorter : (trimEnd a).length ≤ a.length :=
            (List.rdropWhile_prefix isspace a).length_le
          rw [whole, List.append_assoc, List.length_append]
          exact Nat.le_add_right_of_le shorter

theorem length_trimEnd_append_right (a b : Bytes) :
    (trimEnd b).length ≤ (trimEnd (a ++ b)).length := by
  induction b using List.reverseRecOn with
  | nil => exact Nat.zero_le _
  | append_singleton b c ih =>
      rw [← List.append_assoc]
      cases space : isspace c with
      | true => rwa [trimEnd_concat_space _ space, trimEnd_concat_space _ space]
      | false =>
          have solid : ∀ s : Bytes, trimEnd (s ++ [c]) = s ++ [c] :=
            fun s => List.rdropWhile_concat_neg isspace s c (by simp [space])
          rw [solid, solid, List.append_assoc]
          exact (List.suffix_append a (b ++ [c])).length_le

theorem trimEnd_append_spaces (a : Bytes) {spaces : Bytes}
    (blank : ∀ c ∈ spaces, isspace c = true) : trimEnd (a ++ spaces) = trimEnd a := by
  induction spaces using List.reverseRecOn with
  | nil => rw [List.append_nil]
  | append_singleton spaces c ih =>
      rw [← List.append_assoc, trimEnd_concat_space _ (blank c (by simp))]
      exact ih fun d inside => blank d (List.mem_append_left _ inside)

theorem length_trimEnd_le (a : Bytes) : (trimEnd a).length ≤ a.length :=
  (List.rdropWhile_prefix isspace a).length_le

theorem mem_trimEnd {s : Bytes} {c : UInt8} (member : c ∈ s) (solid : isspace c = false) :
    c ∈ trimEnd s := by
  obtain ⟨front, back, rfl⟩ := List.append_of_mem member
  rw [trimEnd_append solid]
  simp

theorem length_trimEnd_append_le_iff (a b : Bytes) :
    (trimEnd (a ++ b)).length ≤ a.length ↔ ∀ c ∈ b, isspace c = true := by
  constructor
  · intro short
    by_contra solid
    push Not at solid
    obtain ⟨c, member, notSpace⟩ := solid
    obtain ⟨front, back, rfl⟩ := List.append_of_mem member
    rw [← List.append_assoc, trimEnd_append (by simpa using notSpace)] at short
    have longer : a.length < ((a ++ front) ++ c :: trimEnd back).length := by
      rw [List.length_append, List.length_append, List.length_cons]
      omega
    exact absurd short (Nat.not_le.mpr longer)
  · intro blank
    rw [trimEnd_append_spaces a blank]
    exact length_trimEnd_le a

end CLib
