import Passmower.IdentityIntegrity
import Passmower.ObjectPatch
import Passmower.Resumption.Pool
import Passmower.Resumption.Stepping

/-! The passkeys of one account: adding, removing and renaming them and keeping their counters, in any number
of operations on any number of replicas. Each reads the list, edits it, and patches it against a second read. -/
namespace Passmower
open Resumption Program
open ObjectPatch (Delta)

structure Passkey where
  id : String
  name : Option String := none
  counter : Nat
  deriving DecidableEq, Repr

abbrev Webauthn := Option (List Passkey)

inductive PasskeyOp where
  | add (credential : Passkey)
  | remove (credentialId : String)
  | rename (credentialId newName : String)
  | updateCounter (credentialId : String) (newCounter : Nat)
  deriving DecidableEq, Repr

inductive PasskeyCall where
  | begin (op : PasskeyOp)
  | getUser
  | patchUser (existing values : Webauthn)
  | reconcileUserStatus
  | succeed

abbrev PasskeyAnswer : PasskeyCall → Type
  | .getUser => Option Webauthn
  | .patchUser _ _ => Bool
  | .begin _ | .reconcileUserStatus | .succeed => Unit

abbrev passkeys : Interface := ⟨PasskeyCall,PasskeyAnswer⟩

def PasskeyCall.awaits : PasskeyCall → Bool
  | .begin _ | .succeed => false
  | _ => true

abbrev Passkeys (α : Type) := Program passkeys JsError α

namespace Passkeys
variable (accountId : String)

def updateUserSpecs (credentials : List Passkey) : Passkeys Unit := do
  match ← ask (I := passkeys) .getUser with
  | none => .throw (.other s!"updateUserSpecs: user \"{accountId}\" not found")
  | some existing =>
      let updated ← ask (I := passkeys) (.patchUser existing (some credentials))
      if updated then ask (I := passkeys) .reconcileUserStatus
      else .throw (.other s!"updateUserSpecs: Kubernetes rejected the spec patch for user \"{accountId}\"")

def editCredentials (edit : List Passkey → Except JsError (List Passkey)) : Passkeys Unit := do
  match ← ask (I := passkeys) .getUser with
  | none => .throw .typeError
  | some webauthn =>
      let updatedCredentials ← orThrow (edit (webauthn.getD []))
      updateUserSpecs accountId updatedCredentials

def withAdded (credential : Passkey) (existing : List Passkey) : Except JsError (List Passkey) :=
  if existing.any (·.id = credential.id) then .error (.other "Credential already exists")
  else .ok (existing ++ [credential])

def withRemoved (credentialId : String) (existing : List Passkey) : Except JsError (List Passkey) :=
  let updatedCredentials := existing.filter (·.id ≠ credentialId)
  if updatedCredentials.length = existing.length then .error (.other "Credential not found")
  else .ok updatedCredentials

def withEdited (credentialId : String) (edit : Passkey → Passkey) (existing : List Passkey) :
    Except JsError (List Passkey) :=
  match existing.findIdx? (·.id = credentialId) with
  | none => .error (.other "Credential not found")
  | some credIndex => .ok (existing.modify credIndex edit)

def addPasskey (credential : Passkey) : Passkeys Unit := editCredentials accountId (withAdded credential)

def removePasskey (credentialId : String) : Passkeys Unit := editCredentials accountId (withRemoved credentialId)

def renamePasskey (credentialId newName : String) : Passkeys Unit :=
  editCredentials accountId (withEdited credentialId fun credential => {credential with name := some newName})

def updatePasskeyCounter (credentialId : String) (newCounter : Nat) : Passkeys Unit :=
  editCredentials accountId (withEdited credentialId fun credential => {credential with counter := newCounter})

end Passkeys

namespace PasskeyOp

def edit : PasskeyOp → List Passkey → Except JsError (List Passkey)
  | .add credential => Passkeys.withAdded credential
  | .remove credentialId => Passkeys.withRemoved credentialId
  | .rename credentialId newName =>
      Passkeys.withEdited credentialId fun credential => {credential with name := some newName}
  | .updateCounter credentialId newCounter =>
      Passkeys.withEdited credentialId fun credential => {credential with counter := newCounter}

def program (accountId : String) : PasskeyOp → Passkeys Unit
  | .add credential => Passkeys.addPasskey accountId credential
  | .remove credentialId => Passkeys.removePasskey accountId credentialId
  | .rename credentialId newName => Passkeys.renamePasskey accountId credentialId newName
  | .updateCounter credentialId newCounter => Passkeys.updatePasskeyCounter accountId credentialId newCounter

theorem programEdits (accountId : String) (op : PasskeyOp) :
    op.program accountId = Passkeys.editCredentials accountId op.edit := by
  cases op <;> rfl

def thread (accountId : String) (op : PasskeyOp) : Passkeys Unit := do
  ask (I := passkeys) (.begin op)
  op.program accountId
  ask (I := passkeys) .succeed

end PasskeyOp

inductive PatchOutcome where
  | applied
  | refused
  /- applied, and answered with an error -/
  | unanswered
  deriving DecidableEq, Repr

/- The account's passkeys, and notes: the patches applied and the operations they are of, how many there were
at each operation's first read, and the operations that ended without an error. -/
structure PasskeyWorld where
  webauthn : Webauthn
  found : Bool := true
  outcome : PatchOutcome := .applied
  applied : List (Nat × PasskeyOp) := []
  begun : Nat → Option PasskeyOp := fun _ => none
  readAt : Nat → Option Nat := fun _ => none
  succeeded : List (Nat × PasskeyOp) := []

namespace PasskeyWorld
variable (s : PasskeyWorld)

def credentials : List Passkey := s.webauthn.getD []

def begin (n : Nat) (op : PasskeyOp) : PasskeyWorld :=
  {s with begun := fun m => if m = n then some op else s.begun m
          readAt := fun m => if m = n then none else s.readAt m}

def read (n : Nat) : PasskeyWorld :=
  {s with readAt := fun m => if m = n then s.readAt m <|> some s.applied.length else s.readAt m}

def write (n : Nat) (webauthn : Webauthn) : PasskeyWorld :=
  {s with webauthn := webauthn, applied := s.applied ++ ((s.begun n).map fun op => (n,op)).toList}

def succeed (n : Nat) : PasskeyWorld :=
  {s with succeeded := s.succeeded ++ ((s.begun n).map fun op => (n,op)).toList}

end PasskeyWorld

def answerPasskeys (delta : Delta Webauthn) (n : Nat) : Handler passkeys Unit PasskeyWorld := fun _ c s => match c with
  | .begin op => ((),s.begin n op)
  | .getUser => if s.found then (some s.webauthn,s.read n) else (none,s)
  | .patchUser existing values => match s.outcome with
      | .applied => (true,s.write n (delta.apply existing values s.webauthn))
      | .refused => (false,s)
      | .unanswered => (false,s.write n (delta.apply existing values s.webauthn))
  | .reconcileUserStatus => ((),s)
  | .succeed => ((),s.succeed n)

inductive PasskeyMove where
  | start (op : PasskeyOp)
  /- the call an operation awaits is answered: whether a read finds the account, what becomes of a patch -/
  | proceed (n : Nat) (found : Bool) (outcome : PatchOutcome)
  deriving DecidableEq, Repr

abbrev PasskeyPool := Pool passkeys JsError PasskeyWorld

namespace PasskeyPool
variable (accountId : String) (delta : Delta Webauthn)

def facing (found : Bool) (outcome : PatchOutcome) (pool : PasskeyPool) : PasskeyPool :=
  pool.edit fun s => {s with found := found, outcome := outcome}

def step (pool : PasskeyPool) : PasskeyMove → PasskeyPool
  | .start op => pool.spawn (answerPasskeys delta) PasskeyCall.awaits (op.thread accountId)
  | .proceed n found outcome => (facing found outcome pool).proceed (answerPasskeys delta) PasskeyCall.awaits n ()

def run (moves : List PasskeyMove) (pool : PasskeyPool) : PasskeyPool := moves.foldl (step accountId delta) pool

def begin (webauthn : Webauthn) : PasskeyPool := ⟨[],{webauthn := webauthn}⟩

end PasskeyPool
end Passmower
