import Mathlib.Algebra.Order.Group.Defs

namespace Windows

variable {τ : Type*} [AddCommGroup τ] [LinearOrder τ] (width : τ) (times : Nat → τ)

def opening : Nat → Nat
  | 0 => 0
  | k + 1 => if width < times (k + 1) - times (opening k) then k + 1 else opening k

def held (k : Nat) : Nat := k + 1 - opening width times k

theorem opening_le (k : Nat) : opening width times k ≤ k := by
  induction k with
  | zero => exact le_rfl
  | succ k ih =>
      unfold opening
      split_ifs
      · exact le_rfl
      · omega

section Openings
variable {width times}

theorem opening_congr {times' : Nat → τ} {k : Nat} (same : ∀ j ≤ k, times j = times' j) :
    opening width times k = opening width times' k := by
  induction k with
  | zero => rfl
  | succ k ih =>
      have earlier : opening width times k = opening width times' k :=
        ih fun j le => same j (by omega)
      have le := opening_le width times' k
      unfold opening
      rw [earlier, same (k + 1) le_rfl, same (opening width times' k) (by omega)]

theorem held_congr {times' : Nat → τ} {k : Nat} (same : ∀ j ≤ k, times j = times' j) :
    held width times k = held width times' k := by
  rw [held, held, opening_congr same]

theorem opening_of_between {j k : Nat} (after : opening width times k ≤ j) (before : j ≤ k) :
    opening width times j = opening width times k := by
  induction k with
  | zero => rw [Nat.le_zero.mp before]
  | succ k ih =>
      unfold opening at after
      by_cases here : j = k + 1
      · rw [here]
      · rw [opening]
        split_ifs at after ⊢
        · omega
        · exact ih after (by omega)

theorem opening_late {k : Nat} (opened : opening width times (k + 1) = k + 1) :
    width < times (k + 1) - times (opening width times k) := by
  unfold opening at opened
  split_ifs at opened with late
  · exact late
  · have le := opening_le width times k
    omega

theorem opening_near {k : Nat} (near : ∀ j ≤ k, times j - times 0 ≤ width) :
    opening width times k = 0 := by
  induction k with
  | zero => rfl
  | succ k ih =>
      have earlier : opening width times k = 0 := ih fun j le => near j (by omega)
      rw [opening, earlier, if_neg (not_lt.mpr (near (k + 1) le_rfl))]

end Openings

theorem crowded_iff [IsOrderedAddMonoid τ] {first last count : Nat}
    (sorted : ∀ j k, j ≤ k → k ≤ last → times j ≤ times k)
    (near : times last - times first ≤ width) :
    (∃ k, first ≤ k ∧ k ≤ last ∧ count ≤ held width times k) ↔
      (first ≤ last ∧ count ≤ held width times last) ∨
      (first < opening width times last ∧
        count ≤ held width times (opening width times last - 1)) := by
  have bound := opening_le width times last
  constructor
  · intro ⟨k, after, before, full⟩
    by_cases current : opening width times last ≤ k
    · have same := opening_of_between current before
      left
      unfold held at full ⊢
      omega
    · right
      -- There is no window between the one of event `k` and the last one: both would have opened
      -- within the stretch.
      obtain ⟨o, opened⟩ : ∃ o, opening width times last = o + 1 :=
        Nat.exists_eq_succ_of_ne_zero (by omega)
      have reopened : opening width times (o + 1) = o + 1 :=
        (opening_of_between opened.le (by omega)).trans opened
      have late := opening_late reopened
      have older : opening width times o ≤ k := by
        by_contra newer
        have early := sorted first (opening width times o) (by omega)
          ((opening_le width times o).trans (by omega))
        have latest := sorted (o + 1) last (by omega) le_rfl
        exact absurd near (not_le.mpr (late.trans_le (sub_le_sub latest early)))
      have same := opening_of_between older (by omega)
      rw [opened, Nat.add_sub_cancel]
      unfold held at full ⊢
      omega
  · rintro (⟨le, full⟩ | ⟨opened, full⟩)
    · exact ⟨last, le, le_rfl, full⟩
    · exact ⟨opening width times last - 1, by omega, by omega, full⟩

end Windows
