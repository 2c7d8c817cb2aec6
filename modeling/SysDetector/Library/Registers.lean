import SysDetector.Library.Runs

namespace Registers
open Runs

variable {κ ν : Type*} [DecidableEq κ]

def write (store : List (κ × ν)) (entry : κ × ν) : List (κ × ν) :=
  store.map fun register => if register.1 = entry.1 then entry else register

def lastWrite (writes : List (κ × ν)) (key : κ) : Option ν :=
  (writes.filter fun entry => entry.1 = key).getLast?.map Prod.snd

def held (writes : List (κ × ν)) (register : κ × ν) : κ × ν :=
  (register.1, (lastWrite writes register.1).getD register.2)

theorem held_concat (writes : List (κ × ν)) (entry register : κ × ν) :
    held (writes ++ [entry]) register =
      if (held writes register).1 = entry.1 then entry else held writes register := by
  unfold held lastWrite
  dsimp only
  rw [List.filter_append, List.filter_singleton]
  by_cases same : register.1 = entry.1
  · simp [same]
  · simp [same, Ne.symm same]

theorem run_write (store writes : List (κ × ν)) : run write store writes = store.map (held writes) := by
  induction writes using List.reverseRecOn with
  | nil => exact (List.map_id'' (fun _ => rfl) store).symm
  | append_singleton writes entry ih =>
      rw [run_append, ih, run_cons, run_nil, write, List.map_map]
      refine List.map_congr_left fun register _ => ?_
      exact (held_concat writes entry register).symm

theorem write_absent {store : List (κ × ν)} {entry : κ × ν}
    (absent : ∀ register ∈ store, register.1 ≠ entry.1) : write store entry = store := by
  rw [write, List.map_congr_left fun register member => if_neg (absent register member), List.map_id']

/-! ## Registers that may be lost -/

theorem keys_write (store : List (κ × ν)) (entry : κ × ν) :
    (write store entry).map Prod.fst = store.map Prod.fst := by
  unfold write
  rw [List.map_map]
  refine List.map_congr_left fun register _ => ?_
  rw [Function.comp_apply]
  split_ifs with same
  · exact same.symm
  · rfl

def lose (store : List (κ × ν)) (key : κ) : List (κ × ν) :=
  store.filter fun register => register.1 ≠ key

theorem mem_lose_iff {store : List (κ × ν)} {key other : κ} :
    other ∈ (lose store key).map Prod.fst ↔ other ∈ store.map Prod.fst ∧ other ≠ key := by
  unfold lose
  simp only [List.mem_map, List.mem_filter, decide_eq_true_eq]
  constructor
  · rintro ⟨register, ⟨member, differs⟩, rfl⟩
    exact ⟨⟨register, member, rfl⟩, differs⟩
  · rintro ⟨⟨register, member, rfl⟩, differs⟩
    exact ⟨register, ⟨member, differs⟩, rfl⟩

inductive Op (κ ν : Type*)
  | set (entry : κ × ν)
  | lose (key : κ)

def apply (reach : Nat) (store : List (κ × ν)) : Op κ ν → List (κ × ν)
  | .set entry => if entry.1 ∈ (store.take reach).map Prod.fst then write store entry else store
  | .lose key => if key ∈ (store.take reach).map Prod.fst then lose store key else store

theorem apply_keys (reach : Nat) (store : List (κ × ν)) (op : Op κ ν) :
    ((apply reach store op).map Prod.fst).Sublist (store.map Prod.fst) := by
  cases op with
  | set entry =>
      unfold apply
      dsimp only
      split_ifs
      · rw [keys_write]
      · exact .refl _
  | lose key =>
      unfold apply
      dsimp only
      split_ifs
      · exact List.filter_sublist.map _
      · exact .refl _

theorem run_keys (reach : Nat) (store : List (κ × ν)) (ops : List (Op κ ν)) :
    ((run (apply reach) store ops).map Prod.fst).Sublist (store.map Prod.fst) := by
  induction ops generalizing store with
  | nil => exact .refl _
  | cons op ops ih =>
      rw [run_cons]
      exact (ih _).trans (apply_keys reach store op)

end Registers
