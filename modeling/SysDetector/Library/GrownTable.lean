import SysDetector.Library.Runs
import Mathlib.Data.List.Basic

/-!
# Tables that grow by `realloc`

A table is a block that is made larger by one cell for each element, and a count. When `realloc`
fails and its result is stored all the same, the block is lost while the count stays.
`loads_hold_iff`: a sequence of loads leaves in the table what was loaded exactly when `realloc`
fails on no element behind another one.
-/

namespace GrownTable
open Runs

/-- The null pointer is `none`, and so is a cell that nothing was written to. -/
structure Table (α : Type*) where
  cells : Option (List (Option α))
  count : Nat

variable {α ι : Type*}

def Table.empty : Table α := ⟨none, 0⟩

def cellAt (cells : Option (List (Option α))) (i : Nat) : Option α := (cells.bind (·[i]?)).join

def realloc (succeeds : Bool) (cells : Option (List (Option α))) (n : Nat) :
    Option (List (Option α)) :=
  if succeeds then some ((List.range n).map (cellAt cells)) else none

def Table.append (succeeds : Bool) (a : α) (t : Table α) : Bool × Table α :=
  match realloc succeeds t.cells (t.count + 1) with
  | none => (false, { t with cells := none })
  | some cells => (true, { cells := some (cells.set t.count (some a)), count := t.count + 1 })

def Table.contents (t : Table α) : List (Option α) := (List.range t.count).map (cellAt t.cells)

def Holds (t : Table α) (elements : List α) : Prop := t.contents = elements.map some

instance [DecidableEq α] (t : Table α) (elements : List α) : Decidable (Holds t elements) :=
  inferInstanceAs (Decidable (_ = _))

def Lost (t : Table α) : Prop := 0 < t.count ∧ cellAt t.cells 0 = none

theorem holds_empty : Holds (Table.empty : Table α) [] := rfl

theorem Holds.count_eq {t : Table α} {elements : List α} (holds : Holds t elements) :
    t.count = elements.length := by
  have lengths := congrArg List.length holds
  rwa [Table.contents, List.length_map, List.length_map, List.length_range] at lengths

theorem not_holds_of_lost {t : Table α} (lost : Lost t) (elements : List α) :
    ¬ Holds t elements := by
  intro holds
  obtain ⟨n, count⟩ := Nat.exists_eq_add_of_lt lost.1
  rw [Holds, Table.contents, count, Nat.zero_add, List.range_succ_eq_map, List.map_cons, lost.2]
    at holds
  cases elements <;> cases holds

theorem contents_append (a : α) (t : Table α) :
    (t.append true a).2.contents = t.contents ++ [some a] := by
  have cells : (t.append true a).2.cells =
      some (((List.range (t.count + 1)).map (cellAt t.cells)).set t.count (some a)) := rfl
  have kept : ∀ i ∈ List.range t.count,
      cellAt (t.append true a).2.cells i = cellAt t.cells i := by
    intro i inside
    have below := List.mem_range.mp inside
    have inRange : (List.range (t.count + 1))[i]? = some i :=
      List.getElem?_range (Nat.lt_succ_of_lt below)
    rw [cells, cellAt, Option.bind_some, List.getElem?_set_ne below.ne', List.getElem?_map, inRange]
    rfl
  have added : cellAt (t.append true a).2.cells t.count = some a := by
    rw [cells, cellAt, Option.bind_some, List.getElem?_set_self (by simp)]
    rfl
  show (List.range (t.count + 1)).map _ = _
  rw [List.range_succ, List.map_append, List.map_singleton, List.map_congr_left kept, added]
  rfl

theorem holds_append {t : Table α} {elements : List α} (holds : Holds t elements) (a : α) :
    Holds (t.append true a).2 (elements ++ [a]) := by
  rw [Holds, contents_append, List.map_append, holds]
  rfl

theorem holds_of_failure {t : Table α} (holds : Holds t []) (a : α) :
    Holds (t.append false a).2 [] := by
  have count : t.count = 0 := holds.count_eq
  show (List.range t.count).map _ = []
  rw [count]
  rfl

theorem lost_of_failure {t : Table α} {elements : List α} (holds : Holds t elements)
    (some : elements ≠ []) (a : α) : Lost (t.append false a).2 := by
  refine ⟨?_, rfl⟩
  show 0 < t.count
  rw [holds.count_eq]
  exact List.length_pos_iff.mpr some

theorem lost_append {t : Table α} (lost : Lost t) (succeeds : Bool) (a : α) :
    Lost (t.append succeeds a).2 := by
  obtain ⟨positive, unread⟩ := lost
  cases succeeds with
  | false => exact ⟨positive, rfl⟩
  | true =>
      have grown := contents_append a t
      obtain ⟨n, count⟩ := Nat.exists_eq_add_of_lt positive
      refine ⟨Nat.succ_pos _, ?_⟩
      rw [Table.contents, Table.contents, count, Nat.zero_add, List.range_succ_eq_map,
        List.map_cons, List.cons_append, unread] at grown
      have counted : (t.append true a).2.count = n + 2 := by
        show t.count + 1 = n + 2
        omega
      rw [counted, List.range_succ_eq_map, List.map_cons] at grown
      exact (List.cons.inj grown).1

/-! ## Loads -/

variable (value : ι → Option α) (succeeds : ι → Bool)

def load (t : Table α) (i : ι) : Table α :=
  match value i with
  | none => t
  | some a => (t.append (succeeds i) a).2

def loaded (i : ι) : Option α := if succeeds i then value i else none

def FailsOnEmpty (elements : List α) (inputs : List ι) : Prop :=
  ∀ past i rest, inputs = past ++ i :: rest → (value i).isSome → succeeds i = false →
    elements ++ past.filterMap (loaded value succeeds) = []

theorem failsOnEmpty_cons {elements : List α} {i : ι} {is : List ι} :
    FailsOnEmpty value succeeds elements (i :: is) ↔
      ((value i).isSome → succeeds i = false → elements = []) ∧
        FailsOnEmpty value succeeds (elements ++ (loaded value succeeds i).toList) is := by
  have split : ∀ past : List ι, elements ++ (i :: past).filterMap (loaded value succeeds) =
      elements ++ (loaded value succeeds i).toList ++ past.filterMap (loaded value succeeds) := by
    intro past
    rw [List.filterMap_cons, List.append_assoc]
    cases loaded value succeeds i <;> rfl
  constructor
  · intro empty
    refine ⟨fun isValue fails => ?_, fun past j rest same isValue fails => ?_⟩
    · have before := empty [] i is rfl isValue fails
      rwa [List.filterMap_nil, List.append_nil] at before
    · rw [← split]
      apply empty (i :: past) j rest _ isValue fails
      rw [same]
      rfl
  · intro ⟨now, later⟩ past j rest same isValue fails
    cases past with
    | nil =>
        obtain ⟨rfl, rfl⟩ := List.cons.inj same
        rw [List.filterMap_nil, List.append_nil]
        exact now isValue fails
    | cons k past =>
        obtain ⟨rfl, inside⟩ := List.cons.inj same
        rw [split]
        exact later past j rest inside isValue fails

theorem FailsOnEmpty.before {elements : List α} {past inputs : List ι}
    (empty : FailsOnEmpty value succeeds elements inputs) (before : past <+: inputs) :
    FailsOnEmpty value succeeds elements past := by
  obtain ⟨more, rfl⟩ := before
  intro front i rest same
  apply empty front i (rest ++ more)
  rw [same, List.append_assoc]
  rfl

theorem lost_loads {t : Table α} (lost : Lost t) (inputs : List ι) :
    Lost (run (load value succeeds) t inputs) := by
  apply run_of_step (load value succeeds) (J := Lost) _ lost
  intro t i lost
  unfold load
  cases value i with
  | none => exact lost
  | some a => exact lost_append lost _ a

theorem holds_loads_iff {t : Table α} {elements : List α} (holds : Holds t elements)
    (inputs : List ι) :
    Holds (run (load value succeeds) t inputs)
        (elements ++ inputs.filterMap (loaded value succeeds)) ↔
      FailsOnEmpty value succeeds elements inputs := by
  induction inputs generalizing t elements with
  | nil => simpa [FailsOnEmpty] using holds
  | cons i is ih =>
      have split : elements ++ (i :: is).filterMap (loaded value succeeds) =
          elements ++ (loaded value succeeds i).toList ++ is.filterMap (loaded value succeeds) := by
        rw [List.filterMap_cons, List.append_assoc]
        cases loaded value succeeds i <;> rfl
      rw [run_cons, split, failsOnEmpty_cons]
      cases read : value i with
      | none =>
          have unchanged : load value succeeds t i = t := by
            rw [load, read]
          have nothing : loaded value succeeds i = none := by
            rw [loaded, read, ite_self]
          rw [unchanged, nothing, Option.toList_none, List.append_nil, ih holds]
          simp
      | some a =>
          have grown : load value succeeds t i = (t.append (succeeds i) a).2 := by
            rw [load, read]
          rw [grown, loaded, read]
          cases succeeds i with
          | true =>
              rw [if_pos rfl, Option.toList_some, ih (holds_append holds a)]
              simp
          | false =>
              rw [if_neg Bool.false_ne_true, Option.toList_none, List.append_nil]
              by_cases nothing : elements = []
              · subst nothing
                rw [ih (holds_of_failure holds a)]
                simp
              · have lost := lost_loads value succeeds (lost_of_failure holds nothing a) is
                simp [nothing, not_holds_of_lost lost]

/-- From an empty table the loads are kept, at the end and at every point before, exactly when no
call of `realloc` fails on an element behind another one. -/
theorem loads_hold_iff (inputs : List ι) :
    (Holds (run (load value succeeds) .empty inputs) (inputs.filterMap (loaded value succeeds)) ↔
        FailsOnEmpty value succeeds [] inputs) ∧
      ((∀ past, past <+: inputs →
          Holds (run (load value succeeds) .empty past) (past.filterMap (loaded value succeeds))) ↔
        FailsOnEmpty value succeeds [] inputs) := by
  have atEnd := fun inputs => holds_loads_iff value succeeds (holds_empty (α := α)) inputs
  simp only [List.nil_append] at atEnd
  refine ⟨atEnd inputs, ?_⟩
  constructor
  · intro all
    exact (atEnd inputs).mp (all inputs List.prefix_rfl)
  · intro empty past before
    exact (atEnd past).mpr (empty.before value succeeds before)

end GrownTable
