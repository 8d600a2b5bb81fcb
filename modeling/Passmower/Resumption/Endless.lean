import Mathlib.Order.Basic

/-! Runs without an end: what holds in each of their states, and what comes about in time. -/
namespace Resumption
variable {σ μ : Type} {step : σ → μ → σ} {start : σ} {moves : Nat → μ}

def stateAt (step : σ → μ → σ) (start : σ) (moves : Nat → μ) : Nat → σ
  | 0 => start
  | n + 1 => step (stateAt step start moves n) (moves n)

theorem stateAtKeeps {P : σ → Prop} (begins : P start) (keeps : ∀ s m, P s → P (step s m)) (n : Nat) :
    P (stateAt step start moves n) := by
  induction n with
  | zero => exact begins
  | succ n ih => exact keeps _ _ ih

theorem untilDone {P Q : Nat → Prop} {i : Nat} (holds : P i) (stays : ∀ j, P j → ¬ Q j → P (j + 1)) (done : ∃ j, i ≤ j ∧ Q j) :
    ∃ j, i ≤ j ∧ P j ∧ Q j := by
  obtain ⟨j,later,here⟩ := done
  obtain ⟨n,rfl⟩ := Nat.exists_eq_add_of_le later
  clear later
  induction n generalizing i with
  | zero => exact ⟨i,Nat.le_refl i,holds,here⟩
  | succ n ih =>
      rcases Classical.em (Q i) with now | no
      · exact ⟨i,Nat.le_refl i,holds,now⟩
      · have next : i + (n + 1) = i + 1 + n := by omega
        rw [next] at here
        obtain ⟨j,later,found⟩ := ih (stays i holds no) here
        exact ⟨j,by omega,found⟩

end Resumption
