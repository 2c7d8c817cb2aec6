import Mathlib.Data.List.Forall2
import Mathlib.Data.List.Nodup
import Mathlib.Data.Option.Basic

namespace ListFacts

variable {α β κ : Type*}

/-! ## Related options and lists -/

section
variable {R : α → β → Prop}

theorem rel_cases {a : Option α} {b : Option β} (rel : Option.Rel R a b) :
    (a = none ∧ b = none) ∨ ∃ x y, a = some x ∧ b = some y ∧ R x y := by
  cases rel with
  | none => exact .inl ⟨rfl, rfl⟩
  | some related => exact .inr ⟨_, _, rfl, rfl, related⟩

theorem rel_toList {a : Option α} {b : Option β} (rel : Option.Rel R a b) :
    List.Forall₂ R a.toList b.toList := by
  cases rel with
  | none => exact .nil
  | some related => exact .cons related .nil

theorem rel_find {p : α → Bool} {q : β → Bool} {as : List α} {bs : List β}
    (each : List.Forall₂ R as bs) (same : ∀ a b, R a b → p a = q b) :
    Option.Rel R (as.find? p) (bs.find? q) := by
  induction each with
  | nil => exact .none
  | @cons a b as bs related _ ih =>
      rw [List.find?_cons, List.find?_cons, same a b related]
      cases q b with
      | true => exact .some related
      | false => exact ih

end

/-! ## Modified lists -/

theorem forall_mem_modify_at {P : α → Prop} {f : α → α} {l : List α} (all : ∀ a ∈ l, P a) {i : Nat}
    (here : ∀ a, l[i]? = some a → P (f a)) : ∀ a ∈ l.modify i f, P a := by
  intro a member
  obtain ⟨j, at_⟩ := List.mem_iff_getElem?.mp member
  rw [List.getElem?_modify, Option.map_eq_map, Option.map_eq_some_iff] at at_
  obtain ⟨b, before, rfl⟩ := at_
  split_ifs with same
  · subst same
    exact here b before
  · exact all b (List.mem_of_getElem? before)

theorem forall_mem_modify {P : α → Prop} {f : α → α} (keeps : ∀ a, P a → P (f a)) {l : List α}
    (all : ∀ a ∈ l, P a) (i : Nat) : ∀ a ∈ l.modify i f, P a :=
  forall_mem_modify_at all fun a at_ => keeps a (all a (List.mem_of_getElem? at_))

theorem modify_mapIdx {l : List α} {i : Nat} {f : α → α} {g g' : Nat → α → α}
    (here : ∀ a, l[i]? = some a → f (g i a) = g' i a) (others : ∀ j a, j ≠ i → g j a = g' j a) :
    (l.mapIdx g).modify i f = l.mapIdx g' := by
  apply List.ext_getElem?
  intro j
  rw [List.getElem?_modify, List.getElem?_mapIdx, List.getElem?_mapIdx]
  cases found : l[j]? with
  | none => rfl
  | some a =>
      by_cases same : i = j
      · subst same
        simp [here a found]
      · simp [same, others j a (Ne.symm same)]

/-! ## Results that tell what they come from -/

theorem eq_of_filterMap_eq {f g : α → Option β} {as : List α} {key : α → κ} {tag : β → κ}
    (distinct : (as.map key).Nodup) (fTag : ∀ a b, f a = some b → tag b = key a)
    (gTag : ∀ a b, g a = some b → tag b = key a) (same : as.filterMap f = as.filterMap g) :
    ∀ a ∈ as, f a = g a := by
  have back : ∀ {f g : α → Option β}, (∀ a b, f a = some b → tag b = key a) →
      (∀ a b, g a = some b → tag b = key a) → as.filterMap f = as.filterMap g →
      ∀ a ∈ as, ∀ b, f a = some b → g a = some b := by
    intro f g fTag gTag same a member b found
    have inside : b ∈ as.filterMap g := same ▸ List.mem_filterMap.mpr ⟨a, member, found⟩
    obtain ⟨a', member', found'⟩ := List.mem_filterMap.mp inside
    have sameKey : key a' = key a := (gTag a' b found').symm.trans (fTag a b found)
    rwa [← List.inj_on_of_nodup_map distinct member' member sameKey]
  intro a member
  apply Option.ext
  intro b
  exact ⟨back fTag gTag same a member b, back gTag fTag same.symm a member b⟩

end ListFacts
