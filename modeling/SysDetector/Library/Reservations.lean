import Mathlib.Data.List.Basic
import Mathlib.Logic.Function.Basic
import Mathlib.Tactic.SplitIfs

/-!
# A queue whose producers write in place

A producer reserves a slot of a bounded first-in first-out queue and submits it once it has written
there; others may reserve and submit behind it meanwhile. The consumer takes the oldest slot, if that
is submitted. Whatever the order of the submissions, what was taken and what is in the queue are the
slots in the order in which they were reserved, each as its producer wrote it (`Orderly`).
-/

namespace Reservations

variable {κ π ε : Type*}

structure Claim (π : Type*) where
  position : Nat
  producer : π

/-- The slots in use, oldest first, how many were taken before them, and which are being written at
which place `κ`. The other fields are the history: whose slots were reserved, what they hold, what was
taken, and whose reservation failed. -/
structure Buffer (κ π ε : Type*) where
  slots : List (Option ε)
  taken : Nat
  writing : κ → Option (Claim π)
  reserved : List π
  contents : List (Option ε)
  handled : List ε
  lost : List π

namespace Buffer

def empty : Buffer κ π ε where
  slots := []
  taken := 0
  writing _ := none
  reserved := []
  contents := []
  handled := []
  lost := []

def take (b : Buffer κ π ε) : Option (ε × Buffer κ π ε) :=
  match b.slots with
  | some e :: rest =>
      some (e, { b with slots := rest, taken := b.taken + 1, handled := b.handled ++ [e] })
  | _ => none

variable [DecidableEq κ]

def reserve (capacity : Nat) (b : Buffer κ π ε) (k : κ) (producer : π) : Buffer κ π ε :=
  if b.slots.length < capacity then
    { b with
      slots := b.slots ++ [none]
      writing := Function.update b.writing k (some ⟨b.taken + b.slots.length, producer⟩)
      reserved := b.reserved ++ [producer]
      contents := b.contents ++ [none] }
  else { b with lost := b.lost ++ [producer] }

def submit (b : Buffer κ π ε) (k : κ) (position : Nat) (e : ε) : Buffer κ π ε :=
  { b with
    slots := b.slots.set (position - b.taken) (some e)
    writing := Function.update b.writing k none
    contents := b.contents.set position (some e) }

end Buffer

structure Orderly (wrote : Claim π → ε → Prop) (b : Buffer κ π ε) : Prop where
  order : b.contents = b.handled.map some ++ b.slots
  count : b.taken = b.handled.length
  reserved : b.contents.length = b.reserved.length
  busy : ∀ k claim, b.writing k = some claim →
    b.contents[claim.position]? = some none ∧ b.reserved[claim.position]? = some claim.producer
  apart : ∀ k k' claim claim', b.writing k = some claim → b.writing k' = some claim' →
    claim.position = claim'.position → k = k'
  held : ∀ i : Nat, b.contents[i]? = some none → ∃ k claim, b.writing k = some claim ∧ claim.position = i
  made : ∀ (i : Nat) (e : ε), b.contents[i]? = some (some e) → ∃ producer, b.reserved[i]? = some producer ∧
    wrote ⟨i, producer⟩ e

section Orderly
variable {wrote : Claim π → ε → Prop} {b : Buffer κ π ε}

theorem orderly_empty : Orderly wrote (.empty : Buffer κ π ε) := by
  refine ⟨rfl, rfl, rfl, ?_, ?_, ?_, ?_⟩
  · intro k claim at_
    cases at_
  · intro k k' claim claim' at_
    cases at_
  · intro i at_
    cases at_
  · intro i e at_
    cases at_

theorem Orderly.mono (orderly : Orderly wrote b) {wrote' : Claim π → ε → Prop}
    (more : ∀ claim e, wrote claim e → wrote' claim e) : Orderly wrote' b where
  order := orderly.order
  count := orderly.count
  reserved := orderly.reserved
  busy := orderly.busy
  apart := orderly.apart
  held := orderly.held
  made i e at_ := by
    obtain ⟨producer, known, writes⟩ := orderly.made i e at_
    exact ⟨producer, known, more _ e writes⟩

theorem Orderly.next (orderly : Orderly wrote b) :
    b.taken + b.slots.length = b.contents.length := by
  rw [orderly.order, orderly.count, List.length_append, List.length_map]

theorem Orderly.untaken (orderly : Orderly wrote b) {position : Nat}
    (busy : b.contents[position]? = some none) : b.handled.length ≤ position := by
  by_contra late
  have early := Nat.lt_of_not_le late
  rw [orderly.order, List.getElem?_append_left (by rwa [List.length_map]), List.getElem?_map,
    List.getElem?_eq_getElem early] at busy
  cases busy

theorem getElem?_concat {α : Type*} {l : List α} {a b : α} {i : Nat}
    (at_ : (l ++ [a])[i]? = some b) : l[i]? = some b ∨ i = l.length ∧ b = a := by
  have inside := (List.getElem?_eq_some_iff.mp at_).1
  rw [List.length_append, List.length_singleton] at inside
  rcases Nat.lt_succ_iff_lt_or_eq.mp inside with earlier | rfl
  · rw [List.getElem?_append_left earlier] at at_
    exact .inl at_
  · rw [List.getElem?_concat_length, Option.some.injEq] at at_
    exact .inr ⟨rfl, at_.symm⟩

theorem getElem?_kept {α : Type*} {l : List α} {a b : α} {i : Nat} (at_ : l[i]? = some b) :
    (l ++ [a])[i]? = some b := by
  rw [List.getElem?_append_left (List.getElem?_eq_some_iff.mp at_).1, at_]

theorem take_handled {b' : Buffer κ π ε} {e : ε} (taken : b.take = some (e, b')) :
    b'.handled = b.handled ++ [e] := by
  unfold Buffer.take at taken
  split at taken
  · cases taken
    rfl
  · cases taken

theorem take_slots {b' : Buffer κ π ε} {e : ε} (taken : b.take = some (e, b')) :
    b.slots.length = b'.slots.length + 1 := by
  unfold Buffer.take at taken
  split at taken
  · next slots =>
      cases taken
      rw [slots, List.length_cons]
  · cases taken

theorem Orderly.take (orderly : Orderly wrote b) {b' : Buffer κ π ε} {e : ε}
    (taken : b.take = some (e, b')) : Orderly wrote b' := by
  unfold Buffer.take at taken
  split at taken
  · next slots =>
      rw [Option.some.injEq, Prod.mk.injEq] at taken
      obtain ⟨rfl, rfl⟩ := taken
      refine ⟨?_, ?_, orderly.reserved, orderly.busy, orderly.apart, orderly.held, orderly.made⟩
      · dsimp only
        rw [orderly.order, slots, List.map_append, List.append_assoc]
        rfl
      · dsimp only
        rw [orderly.count, List.length_append, List.length_singleton]
  · cases taken

theorem Orderly.handled_made (orderly : Orderly wrote b) {i : Nat} {e : ε}
    (at_ : b.handled[i]? = some e) :
    ∃ producer, b.reserved[i]? = some producer ∧ wrote ⟨i, producer⟩ e := by
  have inside := (List.getElem?_eq_some_iff.mp at_).1
  refine orderly.made i e ?_
  rw [orderly.order, List.getElem?_append_left (by rwa [List.length_map]), List.getElem?_map, at_]
  rfl

theorem Orderly.take_eq_none (orderly : Orderly wrote b) (nothing : b.take = none) :
    b.slots = [] ∨ ∃ k claim, b.writing k = some claim ∧ claim.position = b.taken := by
  unfold Buffer.take at nothing
  match slots : b.slots with
  | [] => exact .inl rfl
  | none :: rest =>
      refine .inr (orderly.held b.taken ?_)
      rw [orderly.order, slots, orderly.count, ← List.length_map (f := some),
        List.getElem?_append_right (Nat.le_refl _), Nat.sub_self]
      rfl
  | some e :: rest =>
      rw [slots] at nothing
      cases nothing

variable [DecidableEq κ]

theorem reserve_handled (b : Buffer κ π ε) (capacity : Nat) (k : κ) (producer : π) :
    (b.reserve capacity k producer).handled = b.handled := by
  unfold Buffer.reserve
  split_ifs <;> rfl

theorem reserve_lengths {capacity : Nat} (fits : b.slots.length ≤ capacity) (k : κ) (producer : π) :
    (b.reserve capacity k producer).slots.length = min capacity (b.slots.length + 1) ∧
      (b.reserve capacity k producer).lost.length =
        b.lost.length + (b.slots.length + 1 - capacity) := by
  unfold Buffer.reserve
  split_ifs with room
  · dsimp only
    rw [List.length_append, List.length_singleton]
    omega
  · dsimp only
    rw [List.length_append, List.length_singleton]
    omega

theorem Orderly.reserve (orderly : Orderly wrote b) {k : κ} (free : b.writing k = none)
    (capacity : Nat) (producer : π) : Orderly wrote (b.reserve capacity k producer) := by
  unfold Buffer.reserve
  split_ifs
  · have next := orderly.next
    have earlier : ∀ {k' claim}, b.writing k' = some claim →
        claim.position ≠ b.taken + b.slots.length := by
      intro k' claim at_ same
      have inside := (List.getElem?_eq_some_iff.mp (orderly.busy k' claim at_).1).1
      rw [same, next] at inside
      exact absurd inside (Nat.lt_irrefl _)
    have writing : ∀ {k' claim}, Function.update b.writing k
        (some ⟨b.taken + b.slots.length, producer⟩) k' = some claim →
          k' = k ∧ claim = ⟨b.taken + b.slots.length, producer⟩ ∨ b.writing k' = some claim := by
      intro k' claim at_
      by_cases same : k' = k
      · subst same
        rw [Function.update_self, Option.some.injEq] at at_
        exact .inl ⟨rfl, at_.symm⟩
      · rw [Function.update_of_ne same] at at_
        exact .inr at_
    refine ⟨?_, orderly.count, by simp [orderly.reserved], ?_, ?_, ?_, ?_⟩
    · dsimp only
      rw [orderly.order, List.append_assoc]
    · intro k' claim at_
      rcases writing at_ with ⟨-, rfl⟩ | before
      · dsimp only
        rw [next, List.getElem?_concat_length, orderly.reserved, List.getElem?_concat_length]
        exact ⟨rfl, rfl⟩
      · obtain ⟨contents, reserved⟩ := orderly.busy k' claim before
        exact ⟨getElem?_kept contents, getElem?_kept reserved⟩
    · intro k₁ k₂ claim₁ claim₂ at₁ at₂ same
      rcases writing at₁ with ⟨rfl, rfl⟩ | before₁
      · rcases writing at₂ with ⟨rfl, -⟩ | before₂
        · rfl
        · exact absurd same.symm (earlier before₂)
      · rcases writing at₂ with ⟨rfl, rfl⟩ | before₂
        · exact absurd same (earlier before₁)
        · exact orderly.apart k₁ k₂ claim₁ claim₂ before₁ before₂ same
    · intro i at_
      rcases getElem?_concat at_ with before | ⟨rfl, -⟩
      · obtain ⟨k', claim, there, own⟩ := orderly.held i before
        refine ⟨k', claim, ?_, own⟩
        dsimp only
        rw [Function.update_of_ne, there]
        rintro rfl
        rw [free] at there
        cases there
      · exact ⟨k, _, Function.update_self _ _ _, next⟩
    · intro i e at_
      rcases getElem?_concat at_ with before | ⟨-, none⟩
      · obtain ⟨own, known, made⟩ := orderly.made i e before
        exact ⟨own, getElem?_kept known, made⟩
      · cases none
  · exact ⟨orderly.order, orderly.count, orderly.reserved, orderly.busy, orderly.apart, orderly.held,
      orderly.made⟩

theorem Orderly.submit (orderly : Orderly wrote b) {k : κ} {claim : Claim π}
    (own : b.writing k = some claim) {e : ε} (writes : wrote claim e) :
    Orderly wrote (b.submit k claim.position e) := by
  obtain ⟨busy, producer⟩ := orderly.busy k claim own
  have inside := (List.getElem?_eq_some_iff.mp busy).1
  have others : ∀ {k' claim'}, Function.update b.writing k none k' = some claim' →
      k' ≠ k ∧ b.writing k' = some claim' := by
    intro k' claim' at_
    by_cases same : k' = k
    · subst same
      rw [Function.update_self] at at_
      cases at_
    · rw [Function.update_of_ne same] at at_
      exact ⟨same, at_⟩
  refine ⟨?_, orderly.count, by simp [Buffer.submit, orderly.reserved], ?_, ?_, ?_, ?_⟩
  · have late := orderly.untaken busy
    rw [← List.length_map (f := some)] at late
    show b.contents.set claim.position (some e) =
      b.handled.map some ++ b.slots.set (claim.position - b.taken) (some e)
    rw [orderly.count, orderly.order, List.set_append_right _ _ late, List.length_map]
  · intro k' claim' at_
    obtain ⟨other, before⟩ := others at_
    obtain ⟨contents, reserved⟩ := orderly.busy k' claim' before
    refine ⟨?_, reserved⟩
    show (b.contents.set claim.position (some e))[claim'.position]? = some none
    rw [List.getElem?_set_ne, contents]
    exact fun same => other (orderly.apart k' k claim' claim before own same.symm)
  · intro k₁ k₂ claim₁ claim₂ at₁ at₂ same
    exact orderly.apart k₁ k₂ claim₁ claim₂ (others at₁).2 (others at₂).2 same
  · intro i at_
    have at' : (b.contents.set claim.position (some e))[i]? = some none := at_
    have other : claim.position ≠ i := by
      rintro rfl
      rw [List.getElem?_set_self inside] at at'
      cases at'
    rw [List.getElem?_set_ne other] at at'
    obtain ⟨k', claim', there, same⟩ := orderly.held i at'
    refine ⟨k', claim', ?_, same⟩
    show Function.update b.writing k none k' = some claim'
    rw [Function.update_of_ne, there]
    rintro rfl
    rw [own, Option.some.injEq] at there
    exact other (there ▸ same)
  · intro i e' at_
    have at' : (b.contents.set claim.position (some e))[i]? = some (some e') := at_
    by_cases same : claim.position = i
    · subst same
      rw [List.getElem?_set_self inside, Option.some.injEq, Option.some.injEq] at at'
      exact ⟨claim.producer, producer, at' ▸ writes⟩
    · rw [List.getElem?_set_ne same] at at'
      exact orderly.made i e' at'

end Orderly

end Reservations
