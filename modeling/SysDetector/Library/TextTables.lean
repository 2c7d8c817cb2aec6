import Mathlib.Data.List.Basic

namespace TextTables

section Print
variable {α : Type*}

def printLine (between behind : α) (cells : List (List α)) : List α :=
  [between].intercalate cells ++ [behind]

def printTable (between behind : α) (lines : List (List (List α))) : List α :=
  (lines.map (printLine between behind)).flatten

structure PlainLine (between behind : α) (cells : List (List α)) : Prop where
  nonempty : cells ≠ []
  between : ∀ cell ∈ cells, between ∉ cell
  behind : ∀ cell ∈ cells, behind ∉ cell

theorem mem_intercalate {marks : List α} {pieces : List (List α)} {c : α}
    (member : c ∈ marks.intercalate pieces) : c ∈ marks ∨ ∃ piece ∈ pieces, c ∈ piece := by
  induction pieces with
  | nil => cases member
  | cons first rest ih =>
      cases rest with
      | nil =>
          rw [List.intercalate_singleton] at member
          exact .inr ⟨first, List.mem_cons_self, member⟩
      | cons second rest =>
          rw [List.intercalate_cons_cons, List.mem_append, List.mem_append] at member
          rcases member with (here | mark) | later
          · exact .inr ⟨first, List.mem_cons_self, here⟩
          · exact .inl mark
          · rcases ih later with mark | ⟨piece, member, inside⟩
            · exact .inl mark
            · exact .inr ⟨piece, List.mem_cons_of_mem first member, inside⟩

theorem subset_intercalate {marks : List α} {pieces : List (List α)} {piece : List α}
    (member : piece ∈ pieces) : piece ⊆ marks.intercalate pieces := by
  induction pieces with
  | nil => cases member
  | cons first rest ih =>
      cases rest with
      | nil =>
          rw [List.intercalate_singleton, List.mem_singleton.mp member]
          exact List.Subset.refl first
      | cons second rest =>
          rw [List.intercalate_cons_cons]
          rcases List.mem_cons.mp member with rfl | later
          · exact List.subset_append_of_subset_left _ (List.subset_append_left piece marks)
          · exact List.subset_append_of_subset_right _ (ih later)

theorem printTable_eq (between behind : α) (lines : List (List (List α))) :
    printTable between behind lines =
      ((lines.map [between].intercalate).map (· ++ [behind])).flatten := by
  rw [printTable, List.map_map]
  rfl

end Print

section Read
variable {α : Type*} [BEq α] {between behind : α}

def readTable (between behind : α) (text : List α) : List (List (List α)) :=
  (text.splitOn behind).dropLast.map (List.splitOn between)

variable [LawfulBEq α]

theorem notMem_of_mem_splitOn {mark : α} {text piece : List α} (member : piece ∈ text.splitOn mark) :
    mark ∉ piece := by
  induction text generalizing piece with
  | nil =>
      rw [List.splitOn_nil, List.mem_singleton] at member
      rw [member]
      exact List.not_mem_nil
  | cons c text ih =>
      rw [List.splitOn_cons_eq_if_modifyHead] at member
      split_ifs at member with isMark
      · rcases List.mem_cons.mp member with rfl | later
        · exact List.not_mem_nil
        · exact ih later
      · cases pieces : text.splitOn mark with
        | nil => exact absurd pieces (List.splitOn_ne_nil mark text)
        | cons first rest =>
            rw [pieces] at ih member
            rw [List.modifyHead_cons] at member
            rcases List.mem_cons.mp member with rfl | later
            · have other : mark ≠ c := fun same => isMark (beq_iff_eq.mpr same.symm)
              rw [List.mem_cons, not_or]
              exact ⟨other, ih List.mem_cons_self⟩
            · exact ih (List.mem_cons_of_mem first later)

theorem subset_of_mem_splitOn {mark : α} {text piece : List α} (member : piece ∈ text.splitOn mark) :
    piece ⊆ text := by
  have inside : piece ⊆ [mark].intercalate (text.splitOn mark) := subset_intercalate member
  rwa [List.intercalate_splitOn] at inside

theorem splitOn_ended {mark : α} {lines : List (List α)} (plain : ∀ line ∈ lines, mark ∉ line) :
    (lines.map (· ++ [mark])).flatten.splitOn mark = lines ++ [[]] := by
  induction lines with
  | nil => exact List.splitOn_nil mark
  | cons line lines ih =>
      rw [List.forall_mem_cons] at plain
      rw [List.map_cons, List.flatten_cons, List.append_assoc, List.singleton_append,
        List.splitOn_append_cons_self_of_not_mem plain.1, ih plain.2, List.cons_append]

theorem readTable_lines (different : behind ≠ between) {lines : List (List (List α))}
    (plain : ∀ cells ∈ lines, ∀ cell ∈ cells, behind ∉ cell) :
    readTable between behind (printTable between behind lines) =
      lines.map fun cells => ([between].intercalate cells).splitOn between := by
  have whole : ∀ line ∈ lines.map [between].intercalate, behind ∉ line := by
    intro line member hidden
    obtain ⟨cells, inside, rfl⟩ := List.mem_map.mp member
    rcases mem_intercalate hidden with mark | ⟨cell, part, hidden⟩
    · exact different (List.mem_singleton.mp mark)
    · exact plain cells inside cell part hidden
  rw [readTable, printTable_eq, splitOn_ended whole, List.dropLast_concat, List.map_map]
  rfl

theorem plainLine_of_mem_readTable {text : List α} {cells : List (List α)}
    (member : cells ∈ readTable between behind text) : PlainLine between behind cells := by
  obtain ⟨line, inside, rfl⟩ := List.mem_map.mp member
  have whole := notMem_of_mem_splitOn ((List.dropLast_sublist _).mem inside)
  exact ⟨List.splitOn_ne_nil between line, fun cell part => notMem_of_mem_splitOn part,
    fun cell part hidden => whole (subset_of_mem_splitOn part hidden)⟩

theorem readTable_printTable_iff (different : behind ≠ between) {lines : List (List (List α))} :
    readTable between behind (printTable between behind lines) = lines ↔
      ∀ cells ∈ lines, PlainLine between behind cells := by
  constructor
  · intro same cells member
    rw [← same] at member
    exact plainLine_of_mem_readTable member
  · intro plain
    have each : ∀ cells ∈ lines, ([between].intercalate cells).splitOn between = cells :=
      fun cells member => List.splitOn_intercalate between (plain cells member).between
        (plain cells member).nonempty
    rw [readTable_lines different fun cells member => (plain cells member).behind,
      List.map_congr_left each, List.map_id']

end Read

end TextTables
