import Mathlib.Data.List.Basic

/-! Runs of a system that takes one move after another: conditions on each move, in the state it is made
in, and the invariants that such a condition describes exactly. -/
namespace Resumption

section Stepping
variable {σ μ : Type} (step : σ → μ → σ)

/- `ok` holds of each move of a run in the state the move is made in. -/
def EachStep (ok : σ → μ → Prop) : List μ → σ → Prop
  | [],_ => True
  | move :: rest,s => ok s move ∧ EachStep ok rest (step s move)

variable {step} {Inv : σ → Prop} {ok : σ → μ → Prop}

instance decideEachStep [∀ s move, Decidable (ok s move)] : (moves : List μ) → (s : σ) → Decidable (EachStep step ok moves s)
  | [],_ => .isTrue trivial
  | move :: rest,s => @instDecidableAnd _ _ _ (decideEachStep rest (step s move))

theorem eachStepAppend {before after : List μ} {s : σ} : EachStep step ok (before ++ after) s ↔
    EachStep step ok before s ∧ EachStep step ok after (before.foldl step s) := by
  induction before generalizing s with
  | nil => simp [EachStep]
  | cons move rest ih => simp [EachStep,ih,and_assoc]

theorem eachStepKeeps (Inv : σ → Prop) (kept : ∀ s move, Inv s → ok s move → Inv (step s move)) {s : σ} (start : Inv s)
    {moves : List μ} (each : EachStep step ok moves s) : Inv (moves.foldl step s) := by
  induction moves generalizing s with
  | nil => exact start
  | cons move rest ih => exact ih (kept s move start each.1) each.2

theorem everyRunKeeps (Inv : σ → Prop) (kept : ∀ s move, Inv s → Inv (step s move)) {s : σ} (start : Inv s) (moves : List μ) :
    Inv (moves.foldl step s) := by
  induction moves generalizing s with
  | nil => exact start
  | cons move rest ih => exact ih (kept s move start)

theorem eachStepOfMem {moves : List μ} {s : σ} (each : ∀ move ∈ moves, ∀ s, ok s move) : EachStep step ok moves s := by
  induction moves generalizing s with
  | nil => trivial
  | cons move rest ih =>
      exact ⟨each move List.mem_cons_self s,ih fun other inside => each other (List.mem_cons_of_mem _ inside)⟩

theorem eachStepBoth {ok' : σ → μ → Prop} {moves : List μ} {s : σ} (each : EachStep step ok moves s)
    (also : EachStep step ok' moves s) : EachStep step (fun s move => ok s move ∧ ok' s move) moves s := by
  induction moves generalizing s with
  | nil => trivial
  | cons move rest ih => exact ⟨⟨each.1,also.1⟩,ih each.2 also.2⟩

theorem eachStepIff {ok' : σ → μ → Prop} (kept : ∀ s move, Inv s → Inv (step s move))
    (agree : ∀ s move, Inv s → (ok s move ↔ ok' s move)) {s : σ} (start : Inv s) (moves : List μ) :
    EachStep step ok moves s ↔ EachStep step ok' moves s := by
  induction moves generalizing s with
  | nil => rfl
  | cons move rest ih => exact and_congr (agree s move start) (ih (kept s move start))

end Stepping
end Resumption
