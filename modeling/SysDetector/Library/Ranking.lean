import SysDetector.Library.Runs

namespace Runs

variable {σ ι : Type*} (step : σ → ι → σ)

def total (cost : σ → ι → Nat) : σ → List ι → Nat
  | _, [] => 0
  | s, i :: is => cost s i + total cost (step s i) is

theorem total_count (counts : ι → Bool) (s : σ) (is : List ι) :
    total step (fun _ i => (counts i).toNat) s is = is.countP counts := by
  induction is generalizing s with
  | nil => rfl
  | cons i is ih =>
      rw [total, ih, List.countP_cons, Nat.add_comm]
      cases counts i <;> rfl

theorem total_le_rank (rank : σ → Nat) (cost : σ → ι → Nat) {C : σ → ι → Prop}
    (pays : ∀ s i, C s i → cost s i + rank (step s i) ≤ rank s) {s : σ} {is : List ι}
    (guard : Guarded step C s is) :
    total step cost s is + rank (run step s is) ≤ rank s := by
  induction is generalizing s with
  | nil => exact (Nat.zero_add _).le
  | cons i is ih =>
      rw [guarded_cons] at guard
      have now := pays s i guard.1
      have later := ih guard.2
      rw [total, run_cons]
      omega

end Runs
