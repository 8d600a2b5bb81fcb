import Mathlib.Data.List.Sort
import Mathlib.Data.List.Perm.Subperm
import Mathlib.Order.Defs.LinearOrder

/-! The most recent entries of a list, one a key at most. A bounded list loses entries, and an entry that
was dropped may come again later: what is kept all along is that each use is either in the list, as recent
or more, or outdone by a list that is full. -/
namespace Recency

section Entries
variable {α κ τ : Type} [LinearOrder τ] (key : α → κ) (time : α → τ) (n : Nat)

def latestFirst (entries : List α) : List α := entries.insertionSort (fun a b => time b ≤ time a)

def latest (entries : List α) : List α := (latestFirst time entries).take n

def Covers (kept : List α) (k : κ) (t : τ) : Prop :=
  (∃ a ∈ kept, key a = k ∧ t ≤ time a) ∨ (kept.length = n ∧ ∀ a ∈ kept, t ≤ time a)

structure Tidy (kept : List α) : Prop where
  ordered : kept.Pairwise fun a b => time b ≤ time a
  distinct : (kept.map key).Nodup
  bounded : kept.length ≤ n

variable {key time n}

instance latestTotal : Std.Total (fun a b : α => time b ≤ time a) := ⟨fun a b => le_total (time b) (time a)⟩

instance latestTrans : IsTrans α (fun a b => time b ≤ time a) := ⟨fun _ _ _ first second => second.trans first⟩

section Unique
variable {used : κ → τ → Prop} {kept kept' : List α}

def use (key : α → κ) (time : α → τ) (a : α) : κ × τ := (key a,time a)

end Unique
end Entries
end Recency
