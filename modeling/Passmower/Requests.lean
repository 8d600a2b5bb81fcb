import Passmower.Resumption.Pool

/-! Requests to the API server and to Redis that may fail on their way there or back. -/
namespace Passmower

/- An error with its `error.code ?? error.statusCode`, if it has any. -/
structure Failure where
  code : Option Nat := none
  deriving DecidableEq, Repr

namespace Failure

def notFound : Failure := ⟨some 404⟩

def conflict : Failure := ⟨some 409⟩

def refused (error : Failure) : Bool := error.code = some 403 || error.code = some 401

end Failure

inductive Outcome where
  | served
  | failed (error : Failure)
  deriving DecidableEq, Repr

def Outcome.onto {α : Type} (outcome : Outcome) (answer : Except Failure α) : Except Failure α :=
  match outcome with
  | .served => answer
  | .failed error => .error error

end Passmower
