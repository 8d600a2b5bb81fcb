import Passmower.Passkeys

/-! Writes to the spec of one OIDCUser: `updateUserSpecs` with a body, and approval, which submits all it has read.
Each patches the difference to what it read last, and nothing keeps others from writing in between. -/
namespace Passmower
open Resumption Program ObjectPatch

inductive SpecPart where
  | passmower
  | slack
  | github
  | identities
  | webauthn
  deriving DecidableEq, Repr

instance : Fintype SpecPart where
  elems := {.passmower,.slack,.github,.identities,.webauthn}
  complete := by
    intro part
    cases part <;> decide

/- What `getSpecs` returns: the parts the resource has with their members, identities being the members of theirs. -/
abbrev SpecObject (α : Type) := Parts SpecPart String α

structure SpecValues (α : Type) where
  /- `mergeWith(…, mergeReplacingArrays)` -/
  overlay : Option α → α → α
  delta : Delta α
  approved : α
  push : Option α → α
  /- `REQUIRED_GROUP` is a group under `GROUP_PREFIX` -/
  requiredLocal : Bool
  overlaySelf : ∀ value, overlay (some value) value = value
  overlayApproved : ∀ existing, overlay existing approved = approved
  overlayPush : ∀ existing groups, overlay existing (push groups) = push groups

inductive SpecOp (α : Type) where
  | update (body : SpecObject α)
  | approve

/- `begin` and `succeed` only leave a note of the operation and of its end. -/
inductive SpecCall (α : Type) where
  | begin (op : SpecOp α)
  | getUser
  | patchUser (existing values : SpecObject α)
  | reconcileUserStatus
  | succeed

abbrev SpecAnswer (α : Type) : SpecCall α → Type
  | .getUser => Option (SpecObject α)
  | .patchUser _ _ => Bool
  | .begin _ | .reconcileUserStatus | .succeed => Unit

abbrev specWrites (α : Type) : Interface := ⟨SpecCall α,SpecAnswer α⟩

def SpecCall.awaits {α : Type} : SpecCall α → Bool
  | .begin _ | .succeed => false
  | _ => true

abbrev SpecWriting (α β : Type) := Program (specWrites α) JsError β

namespace SpecWriting
variable {α : Type} (V : SpecValues α) (accountId : String)

def updateUserSpecs (body : SpecObject α) : SpecWriting α Unit := do
  match ← ask (I := specWrites α) .getUser with
  | none => .throw (.other s!"updateUserSpecs: user \"{accountId}\" not found")
  | some specs =>
      let updated ← ask (I := specWrites α) (.patchUser specs (merge V.overlay specs body))
      if updated then ask (I := specWrites α) .reconcileUserStatus
      else .throw (.other s!"updateUserSpecs: Kubernetes rejected the spec patch for user \"{accountId}\"")

def setMember (part : SpecPart) (name : String) (value : Option α → α) (specs : SpecObject α) : SpecObject α := fun p =>
  if p = part then
    let members := (specs part).getD ∅
    some (members.insert name (value (members.lookup name)))
  else specs p

def setApproved : SpecObject α → SpecObject α := setMember .passmower "approved" fun _ => V.approved

def pushCustomGroup : SpecObject α → SpecObject α := setMember .passmower "groups" V.push

def addApproval (specs : SpecObject α) : SpecObject α :=
  if V.requiredLocal then pushCustomGroup V (setApproved V specs) else setApproved V specs

def approve : SpecWriting α Unit := do
  match ← ask (I := specWrites α) .getUser with
  | none => .throw .typeError
  | some specs => updateUserSpecs V accountId (addApproval V specs)

end SpecWriting

namespace SpecOp
variable {α : Type} (V : SpecValues α) (accountId : String)

def program : SpecOp α → SpecWriting α Unit
  | .update body => SpecWriting.updateUserSpecs V accountId body
  | .approve => SpecWriting.approve V accountId

def thread (op : SpecOp α) : SpecWriting α Unit := do
  ask (I := specWrites α) (.begin op)
  op.program V accountId
  ask (I := specWrites α) .succeed

end SpecOp

/- The resource's spec, and notes: whose patches were applied, what each operation has read, and which operations ended
without an error. -/
structure SpecWorld (α : Type) where
  object : SpecObject α
  found : Bool := true
  outcome : PatchOutcome := .applied
  applied : List (Nat × SpecOp α) := []
  begun : Nat → Option (SpecOp α) := fun _ => none
  reads : Nat → List (SpecObject α) := fun _ => []
  succeeded : List (Nat × SpecOp α) := []

namespace SpecWorld
variable {α : Type} (s : SpecWorld α)

def begin (n : Nat) (op : SpecOp α) : SpecWorld α :=
  {s with begun := fun m => if m = n then some op else s.begun m, reads := fun m => if m = n then [] else s.reads m}

def read (n : Nat) : SpecWorld α := {s with reads := fun m => if m = n then s.reads m ++ [s.object] else s.reads m}

def write (n : Nat) (object : SpecObject α) : SpecWorld α :=
  {s with object := object, applied := s.applied ++ ((s.begun n).map fun op => (n,op)).toList}

def succeed (n : Nat) : SpecWorld α := {s with succeeded := s.succeeded ++ ((s.begun n).map fun op => (n,op)).toList}

end SpecWorld

section Serving
variable {α : Type} [DecidableEq α] (V : SpecValues α)

def answerSpecs (n : Nat) : Handler (specWrites α) Unit (SpecWorld α) := fun _ c s => match c with
  | .begin op => ((),s.begin n op)
  | .getUser => if s.found then (some s.object,s.read n) else (none,s)
  | .patchUser existing values => match s.outcome, patch V.delta existing values s.object with
      | .applied, some object => (true,s.write n object)
      | .unanswered, some object => (false,s.write n object)
      | _, _ => (false,s)
  | .reconcileUserStatus => ((),s)
  | .succeed => ((),s.succeed n)

inductive SpecMove (α : Type) where
  | start (op : SpecOp α)
  /- the call an operation awaits is answered: whether a read finds the account, what becomes of a patch -/
  | proceed (n : Nat) (found : Bool) (outcome : PatchOutcome)

abbrev SpecPool (α : Type) := Pool (specWrites α) JsError (SpecWorld α)

namespace SpecPool
variable (accountId : String)

def facing {α : Type} (found : Bool) (outcome : PatchOutcome) (pool : SpecPool α) : SpecPool α :=
  pool.edit fun s => {s with found := found, outcome := outcome}

def step (pool : SpecPool α) : SpecMove α → SpecPool α
  | .start op => pool.spawn (answerSpecs V) SpecCall.awaits (op.thread V accountId)
  | .proceed n found outcome => (facing found outcome pool).proceed (answerSpecs V) SpecCall.awaits n ()

def run (moves : List (SpecMove α)) (pool : SpecPool α) : SpecPool α := moves.foldl (step V accountId) pool

def begin {α : Type} (object : SpecObject α) : SpecPool α := ⟨[],{object := object}⟩

end SpecPool
end Serving
end Passmower
