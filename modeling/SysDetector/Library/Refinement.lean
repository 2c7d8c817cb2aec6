import SysDetector.Library.Runs

namespace Runs

variable {σ ι τ κ : Type*}

def translated (step : σ → ι → σ) (translate : σ → ι → List κ) : σ → List ι → List κ
  | _, [] => []
  | s, i :: is => translate s i ++ translated step translate (step s i) is

theorem translated_flatMap (step : σ → ι → σ) (translate : ι → List κ) (s : σ) (is : List ι) :
    translated step (fun _ => translate) s is = is.flatMap translate := by
  induction is generalizing s with
  | nil => rfl
  | cons i is ih => rw [translated, ih, List.flatMap_cons]

theorem run_recorded {step : σ → ι → σ} {translate : σ → ι → List κ} {J : σ → List κ → Prop}
    (keep : ∀ s past i, J s past → J (step s i) (past ++ translate s i)) (s : σ) (past : List κ)
    (is : List ι) (start : J s past) : J (run step s is) (past ++ translated step translate s is) := by
  induction is generalizing s past with
  | nil =>
      rw [translated, List.append_nil]
      exact start
  | cons i is ih =>
      rw [translated, run_cons, ← List.append_assoc]
      exact ih (step s i) (past ++ translate s i) (keep s past i start)

theorem run_refines {step : σ → ι → σ} (other : τ → κ → τ) (translate : σ → ι → List κ)
    {R : σ → τ → Prop} {C : σ → ι → Prop}
    (each : ∀ s t i, R s t → C s i → R (step s i) (run other t (translate s i)))
    {s : σ} {t : τ} {is : List ι} (start : R s t) (guard : Guarded step C s is) :
    R (run step s is) (run other t (translated step translate s is)) := by
  induction is generalizing s t with
  | nil => exact start
  | cons i is ih =>
      rw [guarded_cons] at guard
      rw [translated, run_append, run_cons]
      exact ih (each s t i start guard.1) guard.2

theorem run_map {step : σ → ι → σ} {f : σ → σ} (each : ∀ s i, step (f s) i = f (step s i)) (s : σ)
    (is : List ι) : run step (f s) is = f (run step s is) := by
  induction is generalizing s with
  | nil => rfl
  | cons i is ih => rw [run_cons, run_cons, each, ih]

end Runs
