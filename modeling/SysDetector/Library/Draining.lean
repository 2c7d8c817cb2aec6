import Mathlib.Algebra.Order.Group.Nat
import Mathlib.Data.List.Basic
import Mathlib.Logic.Function.Iterate

/-!
# Draining a queue that the reader adds to

A reader takes items off the front of a queue, in batches, until it finds the queue empty; handling
an item can put further items at the end. An item is heavy if it makes the reader do so.
`drains` and `never_drains`: whether the reader comes to an end depends on whether what is put there
is heavy again.
-/

namespace Draining

variable {α σ : Type*}

def post [DecidableEq α] (queue : List α) (a : α) : List α :=
  if queue.getLast? = some a then queue else queue ++ [a]

section
variable [DecidableEq α] (batch : List α → Nat) (handle : σ → α → σ × List α)

def handleItem (d : σ × List α) (a : α) : σ × List α :=
  let (state, posted) := handle d.1 a
  (state, posted.foldl post d.2)

def pass (d : σ × List α) : σ × List α :=
  (d.2.take (batch d.2)).foldl (handleItem handle) (d.1, d.2.drop (batch d.2))

def Drains (d : σ × List α) : Prop := ∃ n, ((pass batch handle)^[n] d).2 = []

variable {batch handle}

theorem post_eq (queue : List α) (a : α) :
    ∃ extra, post queue a = queue ++ extra ∧ (∀ b ∈ extra, b = a) ∧ a ∈ post queue a := by
  unfold post
  split_ifs with last
  · exact ⟨[], by simp, List.forall_mem_nil _, List.mem_of_getLast? last⟩
  · exact ⟨[a], rfl, List.forall_mem_singleton.mpr rfl, by simp⟩

theorem posted_eq (queue posted : List α) :
    ∃ extra, posted.foldl post queue = queue ++ extra ∧ (∀ b ∈ extra, b ∈ posted) ∧
      ∀ b ∈ posted, b ∈ posted.foldl post queue := by
  induction posted generalizing queue with
  | nil => exact ⟨[], by simp, List.forall_mem_nil _, List.forall_mem_nil _⟩
  | cons a posted ih =>
      obtain ⟨first, added, same, isIn⟩ := post_eq queue a
      obtain ⟨rest, addedRest, fromRest, allIn⟩ := ih (post queue a)
      rw [List.foldl_cons]
      refine ⟨first ++ rest, ?_, ?_, ?_⟩
      · rw [addedRest, added, List.append_assoc]
      · intro b member
        rcases List.mem_append.mp member with now | later
        · rw [same b now]
          exact List.mem_cons_self
        · exact List.mem_cons_of_mem _ (fromRest b later)
      · rw [List.forall_mem_cons]
        refine ⟨?_, allIn⟩
        rw [addedRest]
        exact List.mem_append_left _ isIn

variable {heavy : α → Bool} {inv : σ → Prop}

theorem handled_light (keeps : ∀ state a, inv state → inv (handle state a).1)
    (light : ∀ state a, inv state → heavy a = false → (handle state a).2 = [])
    (dies : ∀ state a, inv state → ∀ b ∈ (handle state a).2, heavy b = false)
    (items : List α) {d : σ × List α} (holds : inv d.1) :
    inv (items.foldl (handleItem handle) d).1 ∧
      ∃ extra, (items.foldl (handleItem handle) d).2 = d.2 ++ extra ∧
        (∀ b ∈ extra, heavy b = false) ∧ ((∀ a ∈ items, heavy a = false) → extra = []) := by
  induction items generalizing d with
  | nil => exact ⟨holds, [], by simp, List.forall_mem_nil _, fun _ => rfl⟩
  | cons a items ih =>
      obtain ⟨first, added, fromFirst, -⟩ := posted_eq d.2 (handle d.1 a).2
      obtain ⟨still, rest, addedRest, lightRest, nothing⟩ :=
        ih (d := handleItem handle d a) (keeps d.1 a holds)
      rw [List.foldl_cons]
      refine ⟨still, first ++ rest, ?_, ?_, ?_⟩
      · rw [addedRest, ← List.append_assoc, ← added]
        rfl
      · intro b member
        rcases List.mem_append.mp member with now | later
        · exact dies d.1 a holds b (fromFirst b now)
        · exact lightRest b later
      · rw [List.forall_mem_cons]
        rintro ⟨lightNow, lightLater⟩
        have noneNow : first = [] := by
          rw [light d.1 a holds lightNow] at fromFirst
          exact List.eq_nil_iff_forall_not_mem.mpr fun b member => by cases fromFirst b member
        rw [noneNow, nothing lightLater]
        rfl

theorem handled_nothing (keeps : ∀ state a, inv state → inv (handle state a).1)
    (light : ∀ state a, inv state → heavy a = false → (handle state a).2 = [])
    (items : List α) {d : σ × List α} (holds : inv d.1) (allLight : ∀ a ∈ items, heavy a = false) :
    inv (items.foldl (handleItem handle) d).1 ∧ (items.foldl (handleItem handle) d).2 = d.2 := by
  induction items generalizing d with
  | nil => exact ⟨holds, rfl⟩
  | cons a items ih =>
      rw [List.forall_mem_cons] at allLight
      have unchanged : (handleItem handle d a).2 = d.2 := by
        show (handle d.1 a).2.foldl post d.2 = d.2
        rw [light d.1 a holds allLight.1]
        rfl
      rw [List.foldl_cons, ← unchanged]
      exact ih (keeps d.1 a holds) allLight.2

theorem drains_light (heavy : α → Bool) (inv : σ → Prop)
    (reads : ∀ queue, queue ≠ [] → 0 < batch queue)
    (keeps : ∀ state a, inv state → inv (handle state a).1)
    (light : ∀ state a, inv state → heavy a = false → (handle state a).2 = [])
    {d : σ × List α} (holds : inv d.1) (allLight : ∀ a ∈ d.2, heavy a = false) :
    Drains batch handle d := by
  induction length : d.2.length using Nat.strong_induction_on generalizing d with
  | _ m shorter =>
    by_cases empty : d.2 = []
    · exact ⟨0, empty⟩
    · obtain ⟨still, after⟩ : inv (pass batch handle d).1 ∧
          (pass batch handle d).2 = d.2.drop (batch d.2) :=
        handled_nothing keeps light (d.2.take (batch d.2)) (d := (d.1, d.2.drop (batch d.2))) holds
          fun a member => allLight a (List.mem_of_mem_take member)
      have taken := reads d.2 empty
      have positive := List.length_pos_iff.mpr empty
      have less : (pass batch handle d).2.length < m := by
        rw [after, List.length_drop]
        omega
      have stillLight : ∀ a ∈ (pass batch handle d).2, heavy a = false := by
        rw [after]
        exact fun a member => allLight a (List.mem_of_mem_drop member)
      obtain ⟨n, ends⟩ := shorter _ less still stillLight rfl
      exact ⟨n + 1, by rwa [Function.iterate_succ_apply]⟩

/-- When heavy items put only light ones into the queue, which put nothing there, it gets empty. -/
theorem drains (heavy : α → Bool) (inv : σ → Prop)
    (reads : ∀ queue, queue ≠ [] → 0 < batch queue)
    (keeps : ∀ state a, inv state → inv (handle state a).1)
    (light : ∀ state a, inv state → heavy a = false → (handle state a).2 = [])
    (dies : ∀ state a, inv state → ∀ b ∈ (handle state a).2, heavy b = false)
    {d : σ × List α} (holds : inv d.1) : Drains batch handle d := by
  -- A batch with a heavy item leaves fewer of them, and another one a shorter queue.
  induction heavies : d.2.countP heavy using Nat.strong_induction_on generalizing d with
  | _ k fewer =>
    induction length : d.2.length using Nat.strong_induction_on generalizing d with
    | _ m shorter =>
      by_cases empty : d.2 = []
      · exact ⟨0, empty⟩
      · obtain ⟨still, extra, left, lightExtra, nothing⟩ := handled_light keeps light dies
          (d.2.take (batch d.2)) (d := (d.1, d.2.drop (batch d.2))) holds
        have taken := reads d.2 empty
        have positive := List.length_pos_iff.mpr empty
        have parts : (d.2.take (batch d.2)).countP heavy + (d.2.drop (batch d.2)).countP heavy = k := by
          rw [← List.countP_append, List.take_append_drop, heavies]
        have noneAdded : extra.countP heavy = 0 := by
          rw [List.countP_eq_zero]
          intro b member
          simp [lightExtra b member]
        have after : (pass batch handle d).2 = d.2.drop (batch d.2) ++ extra := left
        have count : (pass batch handle d).2.countP heavy = (d.2.drop (batch d.2)).countP heavy := by
          rw [after, List.countP_append, noneAdded, Nat.add_zero]
        have drained : Drains batch handle (pass batch handle d) := by
          by_cases anyHeavy : (d.2.take (batch d.2)).countP heavy = 0
          · have allLight : ∀ a ∈ d.2.take (batch d.2), heavy a = false := by
              intro a member
              simpa using List.countP_eq_zero.mp anyHeavy a member
            have sameCount : (pass batch handle d).2.countP heavy = k := by omega
            apply shorter (pass batch handle d).2.length _ still sameCount rfl
            rw [after, nothing allLight, List.append_nil, List.length_drop]
            omega
          · have lessCount : (pass batch handle d).2.countP heavy < k := by omega
            exact fewer _ lessCount still rfl
        obtain ⟨n, ends⟩ := drained
        exact ⟨n + 1, by rwa [Function.iterate_succ_apply]⟩

theorem mem_handled {items : List α} {d : σ × List α} {b : α} (member : b ∈ d.2) :
    b ∈ (items.foldl (handleItem handle) d).2 := by
  induction items generalizing d with
  | nil => exact member
  | cons a items ih =>
      obtain ⟨extra, added, -, -⟩ := posted_eq d.2 (handle d.1 a).2
      rw [List.foldl_cons]
      apply ih
      show b ∈ (handle d.1 a).2.foldl post d.2
      rw [added]
      exact List.mem_append_left _ member

theorem handled_heavy (keeps : ∀ state a, inv state → inv (handle state a).1)
    (feeds : ∀ state a, inv state → heavy a = true → ∃ b ∈ (handle state a).2, heavy b = true)
    (items : List α) {d : σ × List α} (holds : inv d.1) :
    inv (items.foldl (handleItem handle) d).1 ∧ ((∃ a ∈ items, heavy a = true) →
      ∃ b ∈ (items.foldl (handleItem handle) d).2, heavy b = true) := by
  induction items generalizing d with
  | nil => exact ⟨holds, by simp⟩
  | cons a items ih =>
      obtain ⟨still, later⟩ := ih (d := handleItem handle d a) (keeps d.1 a holds)
      rw [List.foldl_cons]
      refine ⟨still, ?_⟩
      rintro ⟨c, member, isHeavy⟩
      rcases List.mem_cons.mp member with rfl | inRest
      · obtain ⟨b, posted, heavyToo⟩ := feeds d.1 c holds isHeavy
        obtain ⟨extra, -, -, allIn⟩ := posted_eq d.2 (handle d.1 c).2
        exact ⟨b, mem_handled (allIn b posted), heavyToo⟩
      · exact later ⟨c, inRest, isHeavy⟩

/-- When every heavy item puts another one into the queue, it is never empty. -/
theorem never_drains (heavy : α → Bool) (inv : σ → Prop)
    (keeps : ∀ state a, inv state → inv (handle state a).1)
    (feeds : ∀ state a, inv state → heavy a = true → ∃ b ∈ (handle state a).2, heavy b = true)
    {d : σ × List α} (holds : inv d.1) (start : ∃ a ∈ d.2, heavy a = true) :
    ¬ Drains batch handle d := by
  rintro ⟨n, ends⟩
  induction n generalizing d with
  | zero =>
      obtain ⟨a, member, -⟩ := start
      rw [Function.iterate_zero, id] at ends
      rw [ends] at member
      cases member
  | succ n ih =>
      rw [Function.iterate_succ_apply] at ends
      obtain ⟨still, fed⟩ := handled_heavy keeps feeds (d.2.take (batch d.2))
        (d := (d.1, d.2.drop (batch d.2))) holds
      apply ih still _ ends
      obtain ⟨a, member, isHeavy⟩ := start
      rw [← List.take_append_drop (batch d.2) d.2, List.mem_append] at member
      rcases member with now | later
      · exact fed ⟨a, now, isHeavy⟩
      · exact ⟨a, mem_handled later, isHeavy⟩
end

end Draining
