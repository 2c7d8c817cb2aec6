import Mathlib.Data.List.DropRight
import Mathlib.Logic.Function.Basic

namespace Rings

variable {α : Type*} {size : Nat}

/-- Positions of `slots` from `size` on are not used. -/
structure Ring (α : Type*) (size : Nat) where
  slots : Nat → α
  cursor : Nat
  count : Nat

namespace Ring

def slot (r : Ring α size) (i : Nat) : Nat := (r.cursor + i) % size

def contents (r : Ring α size) : List α := (List.range r.count).map fun i => r.slots (r.slot i)

def push (r : Ring α size) (x : α) : Ring α size :=
  if r.count = size then
    { r with
      slots := Function.update r.slots r.cursor x
      cursor := (r.cursor + 1) % size }
  else
    { r with
      slots := Function.update r.slots (r.slot r.count) x
      count := r.count + 1 }

theorem forall_slots_push {P : α → Prop} {r : Ring α size} (all : ∀ i, P (r.slots i)) {x : α}
    (new : P x) (i : Nat) : P ((r.push x).slots i) := by
  have slots : ∃ j, (r.push x).slots = Function.update r.slots j x := by
    unfold push
    split_ifs <;> exact ⟨_, rfl⟩
  obtain ⟨j, updated⟩ := slots
  rw [updated]
  by_cases here : i = j
  · rw [here, Function.update_self]
    exact new
  · rw [Function.update_of_ne here]
    exact all i

theorem forall_slots_pushAll {P : α → Prop} {r : Ring α size} (all : ∀ i, P (r.slots i))
    {xs : List α} (new : ∀ x ∈ xs, P x) (i : Nat) : P ((xs.foldl push r).slots i) := by
  induction xs generalizing r with
  | nil => exact all i
  | cons x xs ih =>
      rw [List.forall_mem_cons] at new
      exact ih (forall_slots_push all new.1) new.2

structure WellFormed (r : Ring α size) : Prop where
  cursor : r.cursor < size
  count : r.count ≤ size
  filling : r.count < size → r.cursor = 0

theorem length_contents (r : Ring α size) : r.contents.length = r.count := by
  simp [contents]

theorem WellFormed.push {r : Ring α size} (good : r.WellFormed) (x : α) :
    (r.push x).WellFormed := by
  obtain ⟨cursor, count, filling⟩ := good
  unfold Ring.push
  split_ifs with full
  · exact ⟨Nat.mod_lt _ (by omega), count, fun short => absurd full (Nat.ne_of_lt short)⟩
  · exact ⟨cursor, by dsimp only; omega, fun short => filling (by dsimp only at short; omega)⟩

theorem contents_push_filling {r : Ring α size} (good : r.WellFormed) (room : r.count < size)
    (x : α) : (r.push x).contents = r.contents ++ [x] := by
  have start := good.filling room
  have slots : ∀ i ≤ r.count, r.slot i = i := by
    intro i within
    rw [slot, start, Nat.zero_add, Nat.mod_eq_of_lt (Nat.lt_of_le_of_lt within room)]
  have pushed : r.push x =
      { r with slots := Function.update r.slots r.count x, count := r.count + 1 } := by
    rw [push, if_neg room.ne, slots r.count le_rfl]
  rw [pushed, contents, List.range_succ, List.map_append]
  congr 1
  · apply List.map_congr_left
    intro i member
    have before := List.mem_range.mp member
    have here : r.slot i = i := slots i before.le
    show Function.update r.slots r.count x (r.slot i) = r.slots (r.slot i)
    rw [here, Function.update_of_ne before.ne]
  · show [Function.update r.slots r.count x (r.slot r.count)] = [x]
    rw [slots r.count le_rfl, Function.update_self]

theorem contents_push_full {r : Ring α size} (good : r.WellFormed) (full : r.count = size) (x : α) :
    (r.push x).contents = r.contents.tail ++ [x] := by
  obtain ⟨cursor, -, -⟩ := good
  obtain ⟨n, rfl⟩ : ∃ n, size = n + 1 := Nat.exists_eq_succ_of_ne_zero (by omega)
  have pushed : r.push x =
      { r with
        slots := Function.update r.slots r.cursor x
        cursor := (r.cursor + 1) % (n + 1) } := by
    rw [push, if_pos full]
  have turned : ∀ i, ((r.cursor + 1) % (n + 1) + i) % (n + 1) = r.slot (i + 1) := by
    intro i
    rw [slot, Nat.mod_add_mod, Nat.add_right_comm, Nat.add_assoc]
  have rest : r.contents.tail = (List.range n).map fun i => r.slots (r.slot (i + 1)) := by
    rw [contents, full, List.range_succ_eq_map, List.map_cons, List.tail_cons, List.map_map]
    rfl
  rw [pushed, contents, rest]
  dsimp only
  rw [full, List.range_succ, List.map_append]
  congr 1
  · apply List.map_congr_left
    intro i member
    have before := List.mem_range.mp member
    have other : r.slot (i + 1) ≠ r.cursor := by
      unfold slot
      by_cases wraps : r.cursor + (i + 1) < n + 1
      · rw [Nat.mod_eq_of_lt wraps]
        omega
      · rw [Nat.mod_eq_sub_mod (by omega), Nat.mod_eq_of_lt (by omega)]
        omega
    show Function.update r.slots r.cursor x (((r.cursor + 1) % (n + 1) + i) % (n + 1)) = _
    rw [turned, Function.update_of_ne other]
  · show [Function.update r.slots r.cursor x (((r.cursor + 1) % (n + 1) + n) % (n + 1))] = [x]
    have around : r.slot (n + 1) = r.cursor := by
      rw [slot, Nat.add_mod_right, Nat.mod_eq_of_lt cursor]
    rw [turned, around, Function.update_self]

structure Holds (r : Ring α size) (pushed : List α) : Prop where
  good : r.WellFormed
  contents : r.contents = pushed.rtake size

theorem Holds.push {r : Ring α size} {pushed : List α} (holds : r.Holds pushed) (x : α) :
    (r.push x).Holds (pushed ++ [x]) := by
  obtain ⟨good, contents⟩ := holds
  have length : r.count = min size pushed.length := by
    rw [← length_contents, contents, List.rtake, List.length_drop]
    omega
  obtain ⟨n, rfl⟩ : ∃ n, size = n + 1 :=
    Nat.exists_eq_succ_of_ne_zero (Nat.ne_of_gt (Nat.zero_lt_of_lt good.cursor))
  refine ⟨good.push x, ?_⟩
  rw [List.rtake_concat_succ]
  by_cases full : r.count = n + 1
  · rw [contents_push_full good full, contents, List.rtake, List.rtake, List.tail_drop]
    congr 2
    omega
  · have room : r.count < n + 1 := Nat.lt_of_le_of_ne good.count full
    have whole : ∀ m, pushed.length ≤ m → pushed.rtake m = pushed := by
      intro m enough
      rw [List.rtake, Nat.sub_eq_zero_of_le enough, List.drop_zero]
    rw [contents_push_filling good room, contents, whole n (by omega), whole (n + 1) (by omega)]

theorem contents_pushAll {r : Ring α size} {pushed : List α} (holds : r.Holds pushed)
    (values : List α) : (values.foldl push r).Holds (pushed ++ values) := by
  induction values generalizing r pushed with
  | nil => rwa [List.append_nil]
  | cons x values ih =>
      have next := ih (holds.push x)
      rwa [List.append_assoc] at next

theorem holds_empty (slots : Nat → α) (positive : 0 < size) :
    (⟨slots, 0, 0⟩ : Ring α size).Holds [] where
  good := ⟨positive, Nat.zero_le _, fun _ => rfl⟩
  contents := (List.rtake_nil size).symm

end Ring

end Rings
