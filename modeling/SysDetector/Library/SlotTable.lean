import Mathlib.Algebra.GroupWithZero.Nat
import Mathlib.Data.Fin.Tuple.Basic
import Mathlib.Order.Fin.Basic
import Mathlib.Logic.Function.Basic

namespace SlotTable

/-- The indices from `i` on, in order. Unlike `List.finRange` it gives its head without computing
its tail. -/
def indicesFrom (n : Nat) : Nat → Nat → List (Fin n)
  | 0, _ => []
  | count + 1, i => if h : i < n then ⟨i, h⟩ :: indicesFrom n count (i + 1) else []

def indices (n : Nat) : List (Fin n) := indicesFrom n n 0

theorem indicesFrom_eq_drop (n count i : Nat) (enough : n ≤ count + i) :
    indicesFrom n count i = (List.finRange n).drop i := by
  induction count generalizing i with
  | zero => rw [indicesFrom, List.drop_eq_nil_of_le (by simpa using enough)]
  | succ count ih =>
      rw [indicesFrom]
      split
      · next inside =>
          have head := List.drop_eq_getElem_cons (l := List.finRange n) (i := i)
            (by simpa using inside)
          rw [ih (i + 1) (by omega), head, List.getElem_finRange]
          rfl
      · next outside => rw [List.drop_eq_nil_of_le (by simpa using outside)]

theorem indices_eq_finRange (n : Nat) : indices n = List.finRange n :=
  indicesFrom_eq_drop n n 0 (Nat.le_refl n)

theorem mem_indices {n : Nat} (i : Fin n) : i ∈ indices n :=
  indices_eq_finRange n ▸ List.mem_finRange i

theorem indices_sorted (n : Nat) : (indices n).Pairwise (· < ·) :=
  indices_eq_finRange n ▸ List.pairwise_lt_finRange n

structure View (α κ τ : Type*) where
  active : α → Bool
  key : α → κ
  stamp : α → τ

namespace View

variable {α κ τ : Type*} {n : Nat}

section Definitions
variable [DecidableEq κ] [LinearOrder τ]

def find (v : View α κ τ) (t : Fin n → α) (k : κ) : Option (Fin n) :=
  (indices n).find? fun i => v.active (t i) && decide (v.key (t i) = k)

def scan (v : View α κ τ) (t : Fin n → α) : Fin n → List (Fin n) → Fin n
  | oldest, [] => oldest
  | oldest, i :: rest =>
      if v.active (t i) then
        v.scan t (if v.stamp (t i) < v.stamp (t oldest) then i else oldest) rest
      else i

def alloc [NeZero n] (v : View α κ τ) (t : Fin n → α) : Fin n :=
  v.scan t 0 (indices n)

def slotFor [NeZero n] (v : View α κ τ) (t : Fin n → α) (k : κ) : Fin n :=
  (v.find t k).getD (v.alloc t)

def lookup (v : View α κ τ) (t : Fin n → α) (k : κ) : Option α := (v.find t k).map t

def Full (v : View α κ τ) (t : Fin n → α) : Prop := ∀ i, v.active (t i) = true

def UniqueKeys (v : View α κ τ) (t : Fin n → α) : Prop :=
  ∀ i j, v.active (t i) = true → v.active (t j) = true → v.key (t i) = v.key (t j) → i = j

def Oldest (v : View α κ τ) (t : Fin n → α) (i : Fin n) : Prop :=
  ∀ j, v.stamp (t i) ≤ v.stamp (t j) ∧ (j < i → v.stamp (t i) < v.stamp (t j))

inductive Inserts (stamp : α → τ) (full : Prop) (m : κ → Option α) (k : κ) (r : α) :
    (κ → Option α) → Prop
  | room (fits : ¬ (full ∧ m k = none)) : Inserts stamp full m k r (Function.update m k (some r))
  | evict (noRoom : full) (absent : m k = none) (k₀ : κ) (r₀ : α) (present : m k₀ = some r₀)
      (oldest : ∀ k₁ r₁, m k₁ = some r₁ → stamp r₀ ≤ stamp r₁) :
      Inserts stamp full m k r (Function.update (Function.update m k₀ none) k (some r))

end Definitions

variable {v : View α κ τ} {t : Fin n → α} {k : κ} {i : Fin n} {r : α}

/-! ## Finding a key -/

section Finding
variable [DecidableEq κ]

theorem active_of_find (h : v.find t k = some i) : v.active (t i) = true := by
  have found := List.find?_some h
  simp only [Bool.and_eq_true] at found
  exact found.1

theorem key_of_find (h : v.find t k = some i) : v.key (t i) = k := by
  have found := List.find?_some h
  simp only [Bool.and_eq_true, decide_eq_true_eq] at found
  exact found.2

theorem find_eq_none_iff : v.find t k = none ↔ ∀ i, v.active (t i) = true → v.key (t i) ≠ k := by
  unfold find
  rw [List.find?_eq_none]
  simp only [mem_indices, forall_true_left, Bool.and_eq_true, decide_eq_true_eq, not_and, ne_eq]

theorem find_eq_some (unique : v.UniqueKeys t) (active : v.active (t i) = true)
    (key : v.key (t i) = k) : v.find t k = some i := by
  cases found : v.find t k with
  | none => exact absurd key (find_eq_none_iff.mp found i active)
  | some j =>
      rw [unique j i (active_of_find found) active ((key_of_find found).trans key.symm)]

theorem lookup_of_find (h : v.find t k = some i) : v.lookup t k = some (t i) := by
  simp [lookup, h]

@[simp] theorem lookup_eq_none_iff : v.lookup t k = none ↔ v.find t k = none := by
  simp [lookup]

theorem of_lookup (h : v.lookup t k = some r) :
    ∃ i, t i = r ∧ v.find t k = some i ∧ v.active r = true ∧ v.key r = k := by
  obtain ⟨i, found, rfl⟩ := Option.map_eq_some_iff.mp h
  exact ⟨i, rfl, found, active_of_find found, key_of_find found⟩

theorem lookup_eq_some_iff (unique : v.UniqueKeys t) :
    v.lookup t k = some r ↔ ∃ i, t i = r ∧ v.active r = true ∧ v.key r = k := by
  constructor
  · intro h
    obtain ⟨i, slot, -, active, key⟩ := of_lookup h
    exact ⟨i, slot, active, key⟩
  · rintro ⟨i, rfl, active, key⟩
    exact lookup_of_find (find_eq_some unique active key)

end Finding

/-! ## Choosing a slot -/

section Choosing
variable [LinearOrder τ]

theorem scan_free (oldest : Fin n) (slots : List (Fin n))
    (free : ∃ i ∈ slots, v.active (t i) = false) : v.active (t (v.scan t oldest slots)) = false := by
  induction slots generalizing oldest with
  | nil => simp at free
  | cons i rest ih =>
      cases active : v.active (t i) with
      | false => simp [scan, active]
      | true =>
          simp only [scan, active, if_true]
          apply ih
          obtain ⟨j, member, unused⟩ := free
          rcases List.mem_cons.mp member with rfl | member
          · rw [active] at unused
            cases unused
          · exact ⟨j, member, unused⟩

theorem scan_first_free (oldest : Fin n) (front back : List (Fin n))
    (used : ∀ j ∈ front, v.active (t j) = true) (free : v.active (t i) = false) :
    v.scan t oldest (front ++ i :: back) = i := by
  induction front generalizing oldest with
  | nil => simp [scan, free]
  | cons j front ih =>
      simp only [List.cons_append, scan, used j (by simp), if_true]
      exact ih _ fun l hl => used l (by simp [hl])

theorem scan_oldest (oldest : Fin n) (slots : List (Fin n))
    (used : ∀ i ∈ slots, v.active (t i) = true) (sorted : slots.Pairwise (· < ·))
    (first : ∀ i ∈ slots, oldest ≤ i) :
    v.scan t oldest slots ∈ oldest :: slots ∧
      ∀ j ∈ oldest :: slots, v.stamp (t (v.scan t oldest slots)) ≤ v.stamp (t j) ∧
        (j < v.scan t oldest slots → v.stamp (t (v.scan t oldest slots)) < v.stamp (t j)) := by
  induction slots generalizing oldest with
  | nil => simp [scan]
  | cons i rest ih =>
      have usedRest : ∀ j ∈ rest, v.active (t j) = true := fun j hj => used j (by simp [hj])
      obtain ⟨later, sortedRest⟩ := List.pairwise_cons.mp sorted
      have behind : oldest ≤ i := first i (by simp)
      simp only [scan, used i (by simp), if_true]
      by_cases younger : v.stamp (t i) < v.stamp (t oldest)
      · rw [if_pos younger]
        obtain ⟨member, least⟩ := ih i usedRest sortedRest (fun j hj => (later j hj).le)
        refine ⟨List.mem_cons_of_mem _ member, ?_⟩
        intro j hj
        rcases List.mem_cons.mp hj with rfl | hj
        · have below := ((least i (by simp)).1).trans_lt younger
          exact ⟨below.le, fun _ => below⟩
        · exact least j hj
      · rw [if_neg younger]
        obtain ⟨member, least⟩ :=
          ih oldest usedRest sortedRest (fun j hj => behind.trans (later j hj).le)
        refine ⟨?_, ?_⟩
        · rcases List.mem_cons.mp member with same | member
          · simp [same]
          · simp [member]
        · intro j hj
          have atOldest := least oldest (by simp)
          rcases List.mem_cons.mp hj with rfl | hj
          · exact atOldest
          · rcases List.mem_cons.mp hj with rfl | hj
            · have le := le_of_not_gt younger
              exact ⟨atOldest.1.trans le,
                fun before => (atOldest.2 (behind.trans_lt before)).trans_le le⟩
            · exact least j (by simp [hj])

theorem Oldest.unique {j : Fin n} (hi : v.Oldest t i) (hj : v.Oldest t j) : i = j := by
  rcases lt_trichotomy i j with before | same | after
  · exact absurd ((hj i).2 before) (not_lt.mpr (hi j).1)
  · exact same
  · exact absurd ((hi j).2 after) (not_lt.mpr (hj i).1)

variable [NeZero n]

theorem alloc_free (h : ¬ v.Full t) : v.active (t (v.alloc t)) = false := by
  apply scan_free
  simp only [Full, not_forall, Bool.not_eq_true] at h
  obtain ⟨i, free⟩ := h
  exact ⟨i, mem_indices i, free⟩

theorem alloc_first_free (free : v.active (t i) = false)
    (used : ∀ j, j < i → v.active (t j) = true) : v.alloc t = i := by
  obtain ⟨earlier, later, split⟩ := List.append_of_mem (mem_indices i)
  have sorted := indices_sorted n
  unfold alloc
  rw [split] at sorted ⊢
  apply scan_first_free _ _ _ _ free
  intro j member
  exact used j ((List.pairwise_append.mp sorted).2.2 j member i (by simp))

theorem alloc_oldest (h : v.Full t) : v.Oldest t (v.alloc t) := by
  have scanned := scan_oldest 0 (indices n) (fun i _ => h i) (indices_sorted n)
    (fun i _ => Fin.zero_le i)
  intro j
  exact scanned.2 j (List.mem_cons_of_mem _ (mem_indices j))

theorem alloc_eq_iff (h : v.Full t) : v.alloc t = i ↔ v.Oldest t i :=
  ⟨fun same => same ▸ alloc_oldest h, fun oldest => (alloc_oldest h).unique oldest⟩

end Choosing

/-! ## Writing a slot -/

def Fits (v : View α κ τ) (t : Fin n → α) (i : Fin n) (r : α) : Prop :=
  v.active r = true → ∀ j, j ≠ i → v.active (t j) = true → v.key (t j) ≠ v.key r

theorem unique_update (unique : v.UniqueKeys t) (fits : v.Fits t i r) :
    v.UniqueKeys (Function.update t i r) := by
  intro j l activeJ activeL same
  by_cases hj : j = i <;> by_cases hl : l = i
  · rw [hj, hl]
  · subst hj
    rw [Function.update_self] at activeJ same
    rw [Function.update_of_ne hl] at activeL same
    exact absurd same.symm (fits activeJ l hl activeL)
  · subst hl
    rw [Function.update_self] at activeL same
    rw [Function.update_of_ne hj] at activeJ same
    exact absurd same (fits activeL j hj activeJ)
  · rw [Function.update_of_ne hj] at activeJ same
    rw [Function.update_of_ne hl] at activeL same
    exact unique j l activeJ activeL same

theorem unique_release (unique : v.UniqueKeys t) (inactive : v.active r = false) :
    v.UniqueKeys (Function.update t i r) :=
  unique_update unique fun active => by simp [inactive] at active

theorem unique_of_free (free : ∀ i, v.active (t i) = false) : v.UniqueKeys t := by
  intro i _ active
  rw [free i] at active
  cases active

section Writing
variable [DecidableEq κ]

theorem fits_of_find (unique : v.UniqueKeys t) (found : v.find t k = some i) (key : v.key r = k) :
    v.Fits t i r := by
  intro _ j hj active same
  apply hj
  exact unique j i active (active_of_find found) (by rw [same, key, key_of_find found])

theorem fits_of_none (absent : v.find t k = none) (key : v.key r = k) : v.Fits t i r := by
  intro _ j _ active same
  exact find_eq_none_iff.mp absent j active (same.trans key)

theorem lookup_update (unique : v.UniqueKeys t) (fits : v.Fits t i r) (k : κ) :
    v.lookup (Function.update t i r) k =
      if v.active r = true ∧ v.key r = k then some r
      else if v.active (t i) = true ∧ v.key (t i) = k then none
      else v.lookup t k := by
  have unique' := unique_update unique fits
  split
  · next new =>
      exact (lookup_eq_some_iff unique').mpr ⟨i, Function.update_self i r t, new⟩
  · next new =>
      have slots : ∀ s, v.lookup (Function.update t i r) k = some s ↔
          ∃ j, j ≠ i ∧ t j = s ∧ v.active s = true ∧ v.key s = k := by
        intro s
        rw [lookup_eq_some_iff unique']
        constructor
        · intro ⟨j, slot, active, key⟩
          by_cases hj : j = i
          · subst hj
            rw [Function.update_self] at slot
            subst slot
            exact absurd ⟨active, key⟩ new
          · rw [Function.update_of_ne hj] at slot
            exact ⟨j, hj, slot, active, key⟩
        · intro ⟨j, hj, slot, active, key⟩
          exact ⟨j, by rwa [Function.update_of_ne hj], active, key⟩
      split
      · next old =>
          rw [Option.eq_none_iff_forall_ne_some]
          intro s found
          obtain ⟨j, hj, rfl, active, key⟩ := (slots s).mp found
          exact hj (unique j i active old.1 (key.trans old.2.symm))
      · next old =>
          apply Option.ext
          intro s
          rw [slots s, lookup_eq_some_iff unique]
          constructor
          · intro ⟨j, _, slot, active, key⟩
            exact ⟨j, slot, active, key⟩
          · rintro ⟨j, rfl, active, key⟩
            refine ⟨j, ?_, rfl, active, key⟩
            rintro rfl
            exact old ⟨active, key⟩

theorem lookup_store (unique : v.UniqueKeys t) (fits : v.Fits t i r) (active : v.active r = true)
    (key : v.key r = k) (own : v.active (t i) = true → v.key (t i) = k) :
    v.lookup (Function.update t i r) = Function.update (v.lookup t) k (some r) := by
  funext k'
  rw [lookup_update unique fits, key]
  by_cases same : k = k'
  · subst same
    simp [active]
  · have kept : ¬ (v.active (t i) = true ∧ v.key (t i) = k') :=
      fun ⟨taken, other⟩ => same ((own taken).symm.trans other)
    rw [if_neg fun new => same new.2, if_neg kept, Function.update_of_ne (Ne.symm same)]

theorem lookup_evict (unique : v.UniqueKeys t) (fits : v.Fits t i r) (active : v.active r = true)
    (key : v.key r = k) (taken : v.active (t i) = true) :
    v.lookup (Function.update t i r) =
      Function.update (Function.update (v.lookup t) (v.key (t i)) none) k (some r) := by
  funext k'
  rw [lookup_update unique fits, key]
  by_cases same : k = k'
  · subst same
    simp [active]
  · rw [Function.update_of_ne (Ne.symm same), if_neg fun new => same new.2]
    by_cases old : v.key (t i) = k'
    · subst old
      simp [taken]
    · rw [Function.update_of_ne (Ne.symm old), if_neg fun here => old here.2]

theorem lookup_release (unique : v.UniqueKeys t) (found : v.find t k = some i)
    (inactive : v.active r = false) :
    v.lookup (Function.update t i r) = Function.update (v.lookup t) k none := by
  funext k'
  rw [lookup_update unique (fun active => by simp [inactive] at active) k', inactive,
    active_of_find found, key_of_find found]
  by_cases same : k = k'
  · subst same
    simp
  · simp [same, Function.update_of_ne (Ne.symm same)]

variable [LinearOrder τ] [NeZero n]

theorem slotFor_of_find (h : v.find t k = some i) : v.slotFor t k = i := by
  simp [slotFor, h]

theorem slotFor_of_none (h : v.find t k = none) : v.slotFor t k = v.alloc t := by
  simp [slotFor, h]

theorem fits_slotFor (unique : v.UniqueKeys t) (key : v.key r = k) :
    v.Fits t (v.slotFor t k) r := by
  cases found : v.find t k with
  | none => exact fits_of_none found key
  | some i => exact slotFor_of_find found ▸ fits_of_find unique found key

theorem store_inserts (unique : v.UniqueKeys t) (active : v.active r = true)
    (key : v.key r = k) :
    Inserts v.stamp (v.Full t) (v.lookup t) k r
      (v.lookup (Function.update t (v.slotFor t k) r)) := by
  have fits := fits_slotFor unique key
  cases found : v.find t k with
  | some i =>
      rw [slotFor_of_find found] at fits ⊢
      rw [lookup_store unique fits active key fun _ => key_of_find found]
      apply Inserts.room
      intro ⟨_, absent⟩
      rw [lookup_of_find found] at absent
      cases absent
  | none =>
      have absent : v.lookup t k = none := lookup_eq_none_iff.mpr found
      rw [slotFor_of_none found] at fits ⊢
      by_cases full : v.Full t
      · have evicted : v.find t (v.key (t (v.alloc t))) = some (v.alloc t) :=
          find_eq_some unique (full _) rfl
        rw [lookup_evict unique fits active key (full (v.alloc t))]
        apply Inserts.evict full absent _ (t (v.alloc t)) (lookup_of_find evicted)
        intro k₁ r₁ present
        obtain ⟨j, rfl, -⟩ := of_lookup present
        exact (alloc_oldest full j).1
      · have free : v.active (t (v.alloc t)) = true → v.key (t (v.alloc t)) = k := by
          rw [alloc_free full]
          exact fun taken => absurd taken Bool.false_ne_true
        rw [lookup_store unique fits active key free]
        exact Inserts.room fun h => full h.1

theorem slotFor_eq_iff {k₀ : κ} (found : v.find t k₀ = some i) (other : k ≠ k₀) :
    v.slotFor t k = i ↔ v.Full t ∧ v.find t k = none ∧ v.Oldest t i := by
  cases present : v.find t k with
  | some j =>
      rw [slotFor_of_find present]
      constructor
      · rintro rfl
        exact absurd ((key_of_find present).symm.trans (key_of_find found)) other
      · intro ⟨_, absent, _⟩
        cases absent
  | none =>
      rw [slotFor_of_none present]
      constructor
      · intro same
        have full : v.Full t := by
          by_contra roomy
          have free := alloc_free roomy
          rw [same, active_of_find found] at free
          cases free
        exact ⟨full, rfl, (alloc_eq_iff full).mp same⟩
      · intro ⟨full, _, oldest⟩
        exact (alloc_eq_iff full).mpr oldest

theorem lookup_store_other {k₀ : κ} (unique : v.UniqueKeys t) (found : v.find t k₀ = some i)
    (key : v.key r = k) (other : k ≠ k₀) :
    v.lookup (Function.update t (v.slotFor t k) r) k₀ =
      if v.slotFor t k = i then none else some (t i) := by
  rw [lookup_update unique (fits_slotFor unique key), key, if_neg (fun new => other new.2)]
  by_cases same : v.slotFor t k = i
  · rw [same, if_pos rfl, if_pos ⟨active_of_find found, key_of_find found⟩]
  · rw [if_neg same, lookup_of_find found, if_neg]
    intro ⟨active, sameKey⟩
    exact same (unique _ _ active (active_of_find found) (sameKey.trans (key_of_find found).symm))

theorem unique_store (unique : v.UniqueKeys t) (key : v.key r = k) :
    v.UniqueKeys (Function.update t (v.slotFor t k) r) :=
  unique_update unique (fits_slotFor unique key)

end Writing

/-! ## Inserting, seen at one key -/

section Inserting
variable [DecidableEq κ] [LinearOrder τ]

theorem Inserts.self {stamp : α → τ} {full : Prop} {m m' : κ → Option α}
    (h : Inserts stamp full m k r m') : m' k = some r := by
  cases h <;> simp

theorem Inserts.of_not_full {stamp : α → τ} {full : Prop} {m m' : κ → Option α}
    (h : Inserts stamp full m k r m') (roomy : ¬ full) : m' = Function.update m k (some r) := by
  cases h with
  | room => rfl
  | evict noRoom => exact absurd noRoom roomy

theorem Inserts.other {stamp : α → τ} {full : Prop} {m m' : κ → Option α}
    (h : Inserts stamp full m k r m') {k' : κ} (other : k' ≠ k) :
    m' k' = m k' ∨ m' k' = none := by
  cases h with
  | room => exact .inl (Function.update_of_ne other _ _)
  | evict _ _ k₀ =>
      rw [Function.update_of_ne other]
      by_cases evicted : k' = k₀
      · exact .inr (by rw [evicted, Function.update_self])
      · exact .inl (Function.update_of_ne evicted _ _)

end Inserting

/-! ## What is known of the records -/

def Describes {β : Type*} (attr : α → β) (known : κ → Option β) (m : κ → Option α) : Prop :=
  ∀ k r, m k = some r → known k = some (attr r)

section Describing
variable [DecidableEq κ] {β : Type*} {attr : α → β} {known : κ → Option β} {m : κ → Option α}

theorem Inserts.describes [LinearOrder τ] {stamp : α → τ} {full : Prop} {m' : κ → Option α}
    (h : Inserts stamp full m k r m') (describes : Describes attr known m) :
    Describes attr (Function.update known k (some (attr r))) m' := by
  intro k' r' present
  by_cases here : k' = k
  · subst here
    rw [h.self] at present
    rw [Option.some.inj present, Function.update_self]
  · rw [Function.update_of_ne here]
    rcases h.other here with kept | evicted
    · exact describes k' r' (kept ▸ present)
    · rw [evicted] at present
      cases present

theorem Describes.erase (describes : Describes attr known m) (k : κ) :
    Describes attr known (Function.update m k none) := by
  intro k' r' present
  by_cases here : k' = k
  · subst here
    rw [Function.update_self] at present
    cases present
  · rw [Function.update_of_ne here] at present
    exact describes k' r' present

theorem Describes.update_iff (describes : Describes attr known m) {k : κ} {v : Option β} :
    Describes attr (Function.update known k v) m ↔ ∀ r, m k = some r → v = some (attr r) := by
  constructor
  · intro after r present
    simpa using after k r present
  · intro fits k' r' present
    by_cases here : k' = k
    · subst here
      rw [Function.update_self]
      exact fits r' present
    · rw [Function.update_of_ne here]
      exact describes k' r' present

end Describing

end View

end SlotTable
