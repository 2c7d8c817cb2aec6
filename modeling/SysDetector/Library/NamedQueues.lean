import Mathlib.Data.List.Basic

/-!
# Message queues with names

A name leads to at most one queue. Who opened a queue keeps it, whatever becomes of the name; once
the name is unlinked, the next one to create it gets another queue.
-/

namespace NamedQueues

/-- All queues that were ever created under one name, and the one that it leads to. -/
structure Named (α : Type*) where
  queues : List (List α)
  linked : Option Nat
  valid : ∀ i ∈ linked, i < queues.length

namespace Named
variable {α : Type*}

def empty : Named α where
  queues := []
  linked := none
  valid := by simp

def contents (q : Named α) (i : Nat) : List α := q.queues[i]?.getD []

def held (q : Named α) (o : Option Nat) : List α := o.elim [] q.contents

def create (q : Named α) : Nat × Named α :=
  match q.linked with
  | some i => (i, q)
  | none =>
      (q.queues.length,
        { queues := q.queues ++ [[]]
          linked := some q.queues.length
          valid := by simp })

def unlink (q : Named α) : Named α where
  queues := q.queues
  linked := none
  valid := by simp

def put (q : Named α) (i : Nat) (a : α) : Named α where
  queues := q.queues.modify i (· ++ [a])
  linked := q.linked
  valid := by simpa using q.valid

def drop (q : Named α) (i : Nat) : Named α where
  queues := q.queues.modify i List.tail
  linked := q.linked
  valid := by simpa using q.valid

@[simp] theorem held_none (q : Named α) : q.held none = [] := rfl
@[simp] theorem held_some (q : Named α) (i : Nat) : q.held (some i) = q.contents i := rfl
@[simp] theorem linked_unlink (q : Named α) : q.unlink.linked = none := rfl
@[simp] theorem linked_drop (q : Named α) (i : Nat) : (q.drop i).linked = q.linked := rfl
@[simp] theorem length_unlink (q : Named α) : q.unlink.queues.length = q.queues.length := rfl

@[simp] theorem length_put (q : Named α) (i : Nat) (a : α) :
    (q.put i a).queues.length = q.queues.length := List.length_modify ..

@[simp] theorem length_drop (q : Named α) (i : Nat) :
    (q.drop i).queues.length = q.queues.length := List.length_modify ..

theorem contents_put (q : Named α) {i : Nat} (known : i < q.queues.length) (a : α) (j : Nat) :
    (q.put i a).contents j = if i = j then q.contents j ++ [a] else q.contents j := by
  unfold contents put
  rw [List.getElem?_modify]
  by_cases same : i = j
  · subst same
    simp [known]
  · simp [same]

theorem contents_drop (q : Named α) (i j : Nat) :
    (q.drop i).contents j = if i = j then (q.contents j).tail else q.contents j := by
  unfold contents drop
  rw [List.getElem?_modify]
  by_cases same : i = j
  · subst same
    cases q.queues[i]? <;> simp
  · simp [same]

@[simp] theorem contents_drop_self (q : Named α) (i : Nat) :
    (q.drop i).contents i = (q.contents i).tail := by rw [contents_drop, if_pos rfl]

theorem contents_fresh (q : Named α) {i : Nat} (fresh : q.queues.length ≤ i) : q.contents i = [] := by
  rw [contents, List.getElem?_eq_none fresh, Option.getD_none]

/-! ## Creating a queue -/

theorem create_linked (q : Named α) {i : Nat} (linked : q.linked = some i) : q.create = (i, q) := by
  unfold create
  split
  · next j found =>
      rw [linked, Option.some.injEq] at found
      rw [found]
  · next none =>
      rw [linked] at none
      cases none

theorem create_unlinked (q : Named α) (unlinked : q.linked = none) :
    q.create.1 = q.queues.length ∧ q.create.2.queues = q.queues ++ [[]] ∧
      q.create.2.linked = some q.queues.length := by
  unfold create
  split
  · next i found =>
      rw [unlinked] at found
      cases found
  · exact ⟨rfl, rfl, rfl⟩

@[simp] theorem linked_create (q : Named α) : q.create.2.linked = some q.create.1 := by
  cases linked : q.linked with
  | some i => rw [create_linked q linked, linked]
  | none =>
      obtain ⟨index, -, now⟩ := create_unlinked q linked
      rw [now, index]

theorem create_valid (q : Named α) : q.create.1 < q.create.2.queues.length :=
  q.create.2.valid _ q.linked_create

theorem length_create (q : Named α) : q.queues.length ≤ q.create.2.queues.length := by
  cases linked : q.linked with
  | some i => exact Nat.le_of_eq (by rw [create_linked q linked])
  | none =>
      obtain ⟨-, queues, -⟩ := create_unlinked q linked
      rw [queues, List.length_append]
      exact Nat.le_add_right _ _

@[simp] theorem contents_create (q : Named α) (i : Nat) : q.create.2.contents i = q.contents i := by
  cases linked : q.linked with
  | some j => rw [create_linked q linked]
  | none =>
      obtain ⟨-, queues, -⟩ := create_unlinked q linked
      unfold contents
      rw [queues, List.getElem?_append]
      split
      · rfl
      · next beyond =>
          rw [List.getElem?_eq_none (Nat.le_of_not_lt beyond)]
          cases i - q.queues.length <;> rfl

theorem contents_created (q : Named α) : q.create.2.contents q.create.1 = q.held q.linked := by
  rw [contents_create]
  cases linked : q.linked with
  | some i => rw [create_linked q linked, held_some]
  | none =>
      obtain ⟨index, -, -⟩ := create_unlinked q linked
      rw [index, contents_fresh q (Nat.le_refl _), held_none]

end Named

end NamedQueues
