import Passmower.Resumption.Pool

/-! An object with versions. Each change of it gets a version that none had before, so an object of a version that was read
is what was read. -/
namespace Resumption

structure Versioned (ρ : Type) where
  content : ρ
  version : Nat

/- The object, if there is one, and the version of the next change. -/
structure Register (ρ : Type) where
  object : Option (Versioned ρ)
  next : Nat
  earlier : ∀ o, object = some o → o.version < next

namespace Register
variable {ρ : Type} {a b c : Register ρ} {o : Versioned ρ}

def content? (r : Register ρ) : Option ρ := r.object.map Versioned.content

def put (content : ρ) (r : Register ρ) : Register ρ where
  object := some ⟨content,r.next⟩
  next := r.next + 1
  earlier o there := by
    cases Option.some.inj there
    exact Nat.lt_succ_self r.next

def remove (r : Register ρ) : Register ρ where
  object := none
  next := r.next
  earlier o there := by cases there

structure Evolves (a b : Register ρ) : Prop where
  next : a.next ≤ b.next
  same : ∀ o, b.object = some o → o.version < a.next → a.object = some o

theorem evolvesRefl (r : Register ρ) : Evolves r r := ⟨Nat.le_refl _,fun _ there _ => there⟩

theorem evolvesTrans (first : Evolves a b) (second : Evolves b c) : Evolves a c where
  next := Nat.le_trans first.next second.next
  same o there old := first.same o (second.same o there (Nat.lt_of_lt_of_le old first.next)) old

theorem putEvolves (content : ρ) (r : Register ρ) : Evolves r (r.put content) where
  next := Nat.le_succ r.next
  same o there old := by
    cases Option.some.inj there
    exact absurd old (Nat.lt_irrefl _)

theorem removeEvolves (r : Register ρ) : Evolves r r.remove where
  next := Nat.le_refl _
  same o there old := by cases there

theorem readStill (read : a.object = some o) (evolves : Evolves a b) {later : Versioned ρ}
    (there : b.object = some later) (same : later.version = o.version) : later = o := by
  have old : later.version < a.next := by
    rw [same]
    exact a.earlier o read
  exact Option.some.inj ((evolves.same later there old).symm.trans read)

end Register
end Resumption
