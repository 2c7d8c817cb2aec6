import Mathlib.Data.List.Infix

namespace Runs

variable {σ ι : Type*} (step : σ → ι → σ)

def run (s : σ) (inputs : List ι) : σ := inputs.foldl step s

def Always (P : σ → Prop) (s : σ) (inputs : List ι) : Prop :=
  ∀ past, past <+: inputs → P (run step s past)

def Guarded (C : σ → ι → Prop) (s : σ) (inputs : List ι) : Prop :=
  ∀ past input rest, inputs = past ++ input :: rest → C (run step s past) input

@[simp] theorem run_nil (s : σ) : run step s [] = s := rfl

@[simp] theorem run_cons (s : σ) (i : ι) (is : List ι) :
    run step s (i :: is) = run step (step s i) is := rfl

@[simp] theorem run_append (s : σ) (is js : List ι) :
    run step s (is ++ js) = run step (run step s is) js := by
  simp [run]

@[simp] theorem always_nil {P : σ → Prop} {s : σ} : Always step P s [] ↔ P s := by
  simp [Always]

theorem always_cons {P : σ → Prop} {s : σ} {i : ι} {is : List ι} :
    Always step P s (i :: is) ↔ P s ∧ Always step P (step s i) is := by
  constructor
  · intro h
    refine ⟨h [] List.nil_prefix, ?_⟩
    intro past before
    exact h (i :: past) (List.cons_prefix_cons.mpr ⟨rfl, before⟩)
  · intro ⟨now, later⟩ past before
    cases past with
    | nil => exact now
    | cons j past =>
        obtain ⟨rfl, inside⟩ := List.cons_prefix_cons.mp before
        exact later past inside

theorem always_append {P : σ → Prop} {s : σ} {is js : List ι} :
    Always step P s (is ++ js) ↔ Always step P s is ∧ Always step P (run step s is) js := by
  induction is generalizing s with
  | nil =>
      rw [List.nil_append, always_nil, run_nil]
      exact ⟨fun all => ⟨all [] List.nil_prefix, all⟩, fun both => both.2⟩
  | cons i is ih => rw [List.cons_append, always_cons, always_cons, ih, run_cons, and_assoc]

@[simp] theorem guarded_nil {C : σ → ι → Prop} {s : σ} : Guarded step C s [] := by
  intro past input rest h
  simp at h

theorem guarded_cons {C : σ → ι → Prop} {s : σ} {i : ι} {is : List ι} :
    Guarded step C s (i :: is) ↔ C s i ∧ Guarded step C (step s i) is := by
  constructor
  · intro h
    refine ⟨h [] i is rfl, ?_⟩
    intro past input rest split
    exact h (i :: past) input rest (by rw [split]; rfl)
  · intro ⟨now, later⟩ past input rest split
    cases past with
    | nil =>
        obtain ⟨rfl, rfl⟩ := List.cons.inj split
        exact now
    | cons j past =>
        obtain ⟨rfl, inside⟩ := List.cons.inj split
        exact later past input rest inside

theorem guarded_append {C : σ → ι → Prop} {s : σ} {is js : List ι} :
    Guarded step C s (is ++ js) ↔ Guarded step C s is ∧ Guarded step C (run step s is) js := by
  induction is generalizing s with
  | nil => simp
  | cons i is ih => rw [List.cons_append, guarded_cons, guarded_cons, ih, run_cons, and_assoc]

theorem Always.last {P : σ → Prop} {s : σ} {is : List ι} (h : Always step P s is) :
    P (run step s is) :=
  h is List.prefix_rfl

theorem Always.mono {P Q : σ → Prop} {s : σ} {is : List ι} (h : Always step P s is)
    (weaken : ∀ s, P s → Q s) : Always step Q s is :=
  fun past before => weaken _ (h past before)

theorem guarded_of_always {J : σ → Prop} {L C : σ → ι → Prop}
    (each : ∀ s i, J s → L s i → C s i) {s : σ} {is : List ι} (always : Always step J s is)
    (legal : Guarded step L s is) : Guarded step C s is :=
  fun past input rest split =>
    each _ _ (always past ⟨input :: rest, split.symm⟩) (legal past input rest split)

theorem always_of_guarded {J : σ → Prop} {C : σ → ι → Prop}
    (keep : ∀ s i, J s → C s i → J (step s i)) {s : σ} {is : List ι}
    (start : J s) (guard : Guarded step C s is) : Always step J s is := by
  induction is generalizing s with
  | nil => simpa using start
  | cons i is ih =>
      rw [guarded_cons] at guard
      rw [always_cons]
      exact ⟨start, ih (keep s i start guard.1) guard.2⟩

theorem always_of_step {J : σ → Prop} (keep : ∀ s i, J s → J (step s i)) {s : σ}
    (start : J s) (is : List ι) : Always step J s is :=
  always_of_guarded step (C := fun _ _ => True) (fun s i h _ => keep s i h) start
    (fun _ _ _ _ => trivial)

theorem run_of_step {J : σ → Prop} (keep : ∀ s i, J s → J (step s i)) {s : σ}
    (start : J s) (is : List ι) : J (run step s is) :=
  (always_of_step step keep start is).last

/-- Among the legal runs, those that keep `P` are those whose every step meets `C`, when `C`
is what a step needs to keep the invariant `J` behind `P`. -/
theorem always_iff_guarded {P J : σ → Prop} {L C : σ → ι → Prop}
    (strong : ∀ s, J s → P s)
    (keep : ∀ s i, J s → L s i → C s i → J (step s i))
    (only : ∀ s i, J s → L s i → P (step s i) → C s i)
    {s : σ} {is : List ι} (start : J s) (legal : Guarded step L s is) :
    Always step P s is ↔ Guarded step C s is := by
  induction is generalizing s with
  | nil => simpa using strong s start
  | cons i is ih =>
      rw [guarded_cons] at legal
      rw [always_cons, guarded_cons]
      constructor
      · intro ⟨_, later⟩
        have allowed : C s i := only s i start legal.1 (later [] List.nil_prefix)
        exact ⟨allowed, (ih (keep s i start legal.1 allowed) legal.2).mp later⟩
      · intro ⟨allowed, later⟩
        exact ⟨strong s start, (ih (keep s i start legal.1 allowed) legal.2).mpr later⟩

/-! ## Leaving inputs out -/

def kept (keep : σ → ι → Bool) : σ → List ι → List ι
  | _, [] => []
  | s, i :: is => if keep s i then i :: kept keep (step s i) is else kept keep (step s i) is

theorem run_kept {P J : σ → Prop} {keep : σ → ι → Bool}
    (inv : ∀ s i, J s → P s → J (step s i))
    (skip : ∀ s i, J s → P s → keep s i = false → step s i = s)
    {s : σ} {is : List ι} (start : J s) (always : Always step P s is) :
    run step s (kept step keep s is) = run step s is := by
  induction is generalizing s with
  | nil => rfl
  | cons i is ih =>
      rw [always_cons] at always
      have rest := ih (inv s i start always.1) always.2
      unfold kept
      split
      · rw [run_cons, run_cons, rest]
      · next dropped =>
          have same : step s i = s := skip s i start always.1 (by simpa using dropped)
          rw [run_cons]
          rwa [same] at rest ⊢

end Runs
