import Passmower.Configuration
import Passmower.Recency
import Passmower.Requests

/-! `ActivityTracker`: the sign-ins a pod has served, and their projection onto the status of clients
and users, which every pod writes to. -/
namespace Passmower
open JavaScript Resumption Program Recency

inductive ClientKind where
  | oidcClient
  | oidcMiddlewareClient
  deriving DecidableEq, Repr

structure Reference where
  clientNamespace : String
  clientName : String
  clientKind : ClientKind
  deriving DecidableEq, Repr

def Reference.clientId (reference : Reference) : String := match reference.clientKind with
  | .oidcClient => reference.clientNamespace ++ "." ++ reference.clientName
  | .oidcMiddlewareClient => "middleware-" ++ reference.clientNamespace ++ "." ++ reference.clientName

/- Times are instants in milliseconds, as `new Date(…).getTime()` gives them. -/
structure Application where
  clientId : String
  clientNamespace : String
  clientName : String
  clientKind : Option ClientKind
  lastAuthenticatedAt : Int
  deriving DecidableEq, Repr

def Application.reference (application : Application) : Reference where
  clientNamespace := application.clientNamespace
  clientName := application.clientName
  clientKind := application.clientKind.getD .oidcClient

def newer (a : Option Int) (b : Int) : Int := match a with
  | none => b
  | some a => if b ≤ a then a else b

def newestActivity (a : Option Application) (b : Application) : Application := match a with
  | none => b
  | some a => if newer (some a.lastAuthenticatedAt) b.lastAuthenticatedAt = a.lastAuthenticatedAt then a else b

structure Activity where
  accountId : Option String := none
  clientId : Option String := none
  clientNamespace : Option String := none
  clientName : Option String := none
  clientKind : Option ClientKind := none
  userAuthenticated : Bool := true
  timestamp : Int
  deriving DecidableEq, Repr

def Activity.client (activity : Activity) : Option Application := do
  let clientId ← truthy activity.clientId
  let clientNamespace ← truthy activity.clientNamespace
  let clientName ← truthy activity.clientName
  some ⟨clientId,clientNamespace,clientName,some (activity.clientKind.getD .oidcClient),activity.timestamp⟩

def Activity.user (activity : Activity) : Option String :=
  if activity.userAuthenticated then truthy activity.accountId else none

abbrev Applications := List (String × Application)

structure Tracker where
  pendingUsers : List (String × Applications) := []
  pendingClients : Applications := []
  knownClients : List (String × Reference) := []
  deriving DecidableEq, Repr

def mergeApplication (applications : Applications) (clientId : String) (client : Application) : Applications :=
  mapSet clientId {client with
    lastAuthenticatedAt := newer ((mapGet clientId applications).map Application.lastAuthenticatedAt) client.lastAuthenticatedAt}
    applications

def requeued (pending : Applications) (entry : String × Application) : Applications :=
  mapSet entry.1 (newestActivity (mapGet entry.1 pending) entry.2) pending

namespace Tracker
variable (tracker : Tracker)

def applicationsOf (accountId : String) : Applications := (mapGet accountId tracker.pendingUsers).getD []

def record (activity : Activity) : Tracker := match activity.client with
  | none => tracker
  | some client =>
      let recorded := {tracker with pendingClients := mergeApplication tracker.pendingClients client.clientId client}
      match activity.user with
      | none => recorded
      | some accountId =>
          let applications := mergeApplication (tracker.applicationsOf accountId) client.clientId client
          {recorded with pendingUsers := mapSet accountId applications tracker.pendingUsers}

def requeueUser (accountId : String) (applications : Applications) : Tracker :=
  let pending := applications.foldl requeued (tracker.applicationsOf accountId)
  {tracker with pendingUsers := mapSet accountId pending tracker.pendingUsers}

def requeueClient (clientId : String) (activity : Application) : Tracker :=
  {tracker with
    pendingClients := requeued tracker.pendingClients (clientId,activity)}

end Tracker

structure ActivityStatus where
  recentApplications : List Application := []
  lastUsedAt : Option Int := none
  deriving DecidableEq, Repr

def byClient (start : Applications) (recent : List Application) : Applications :=
  recent.foldl (fun merged application => mapSet application.clientId application merged) start

def mergeAll (start applications : Applications) : Applications :=
  applications.foldl (fun merged entry => mergeApplication merged entry.1 entry.2) start

def mergedApplications (recent : List Application) (applications : Applications) : Applications :=
  mergeAll (byClient [] recent) applications

def projectUser (limit : Nat) (applications : Applications) (status : ActivityStatus) : ActivityStatus :=
  {status with
    recentApplications := latest Application.lastAuthenticatedAt limit
      ((mergedApplications status.recentApplications applications).map Prod.snd)}

def projectClient (activity : Option Application) (status : ActivityStatus) : ActivityStatus := match activity with
  | some activity => {status with lastUsedAt := some (newer status.lastUsedAt activity.lastAuthenticatedAt)}
  | none => status

inductive Target where
  | user (accountId : String)
  | client (reference : Reference)
  deriving DecidableEq, Repr

structure ActivityObject where
  status : ActivityStatus := {}
  resourceVersion : Nat := 0
  deriving DecidableEq, Repr

/- A resource as it is read; `intact` says that the rest of its status would be written as it is. -/
structure Current extends ActivityObject where
  intact : Bool
  deriving DecidableEq, Repr

inductive StatusRequest where
  | get (target : Target)
  | replace (target : Target) (status : ActivityStatus) (resourceVersion : Nat)
  deriving DecidableEq, Repr

abbrev StatusRequest.Reply : StatusRequest → Type
  | .get _ => Current
  | .replace _ _ _ => Unit

inductive ProjectingCall where
  | drain (pod : Nat)
  | knownClients (pod : Nat)
  | requeueUser (pod : Nat) (accountId : String) (applications : Applications)
  | requeueClient (pod : Nat) (clientId : String) (activity : Application)
  | send (request : StatusRequest)
  | receive (request : StatusRequest) (answer : Except Failure request.Reply)

abbrev projecting : Interface where
  Call := ProjectingCall
  Answer
    | .drain _ => List (String × Applications) × Applications
    | .knownClients _ => List (String × Reference)
    | .requeueUser _ _ _ | .requeueClient _ _ _ => Unit
    | .send request | .receive request _ => Except Failure request.Reply

def ProjectingCall.awaits : ProjectingCall → Bool
  | .send _ | .receive _ _ => true
  | _ => false

abbrev Projecting (α : Type) := Program projecting Failure α

def statusRequest (request : StatusRequest) : Projecting request.Reply := do
  let answer ← (ask (I := projecting) (.send request) : Projecting (Except Failure request.Reply))
  let answer ← (ask (I := projecting) (.receive request answer) : Projecting (Except Failure request.Reply))
  orThrow answer

def mutateOnce (target : Target) (statusFunction : ActivityStatus → ActivityStatus) : Projecting Unit := do
  let current ← statusRequest (.get target)
  if current.intact && statusFunction current.status = current.status then .pure ()
  else statusRequest (.replace target (statusFunction current.status) current.resourceVersion)

inductive Mutated where
  | missing
  | failed
  | updated
  deriving DecidableEq, Repr

/- `mutateNamespacedCustomObjectStatus` with so many attempts left; it begins with three. -/
def mutateNamespacedCustomObjectStatus (target : Target) (statusFunction : ActivityStatus → ActivityStatus) :
    Nat → Projecting Mutated
  | 0 => .pure .failed
  | left + 1 => do
      let attempted ← (mutateOnce target statusFunction).attempt
      match attempted with
      | .ok _ => .pure .updated
      | .error error =>
          if error.code = some 404 then .pure .missing
          else if error.code = some 409 ∧ left ≠ 0 then
            mutateNamespacedCustomObjectStatus target statusFunction left
          else .pure .failed

def mutateOrThrow (target : Target) (statusFunction : ActivityStatus → ActivityStatus) : Projecting Unit := do
  let mutated ← mutateNamespacedCustomObjectStatus target statusFunction 3
  match mutated with
  | .failed => .throw {}
  | _ => .pure ()

section Flush
variable (limit pod : Nat)

def flushUser (accountId : String) (applications : Applications) : Projecting Unit :=
  mutateOrThrow (.user accountId) (projectUser limit applications)

def flushClient (clientId : String) (activity : Option Application) : Projecting Unit := do
  let knownClients ← (ask (I := projecting) (.knownClients pod) : Projecting (List (String × Reference)))
  match (activity.map Application.reference).or (mapGet clientId knownClients) with
  | none => .pure ()
  | some reference => mutateOrThrow (.client reference) (projectClient activity)

def flushUsers : List (String × Applications) → Projecting Nat
  | [] => .pure 0
  | (accountId,applications) :: rest => do
      let flushed ← (flushUser limit accountId applications).attempt
      match flushed with
      | .ok _ => flushUsers rest
      | .error _ => do
          let _ ← (ask (I := projecting) (.requeueUser pod accountId applications) : Projecting Unit)
          let errors ← flushUsers rest
          .pure (errors + 1)

def flushClients (clients : Applications) : List String → Projecting Nat
  | [] => .pure 0
  | clientId :: rest => do
      let flushed ← (flushClient pod clientId (mapGet clientId clients)).attempt
      match flushed with
      | .ok _ => flushClients clients rest
      | .error _ => do
          match mapGet clientId clients with
          | some activity => ask (I := projecting) (.requeueClient pod clientId activity)
          | none => .pure ()
          let errors ← flushClients clients rest
          .pure (errors + 1)

def flush : Projecting Unit := do
  let (users,clients) ← (ask (I := projecting) (.drain pod) : Projecting (List (String × Applications) × Applications))
  let userErrors ← flushUsers limit pod users
  let knownClients ← (ask (I := projecting) (.knownClients pod) : Projecting (List (String × Reference)))
  let clientIds := (knownClients.map Prod.fst ++ clients.map Prod.fst).eraseDups
  let clientErrors ← flushClients pod clients clientIds
  if userErrors + clientErrors = 0 then .pure () else .throw {}

end Flush
section Data
variable {a : Option Int} {b : Int} {c clientId : String} {client application : Application}
  {applications pending : Applications} {recent : List Application} {entry : String × Application}

def Sourced (known : String → Int → Prop) (applications : Applications) : Prop :=
  ∀ entry ∈ applications, entry.2.clientId = entry.1 ∧ known entry.1 entry.2.lastAuthenticatedAt

/- The applications of a user after a flush, from the list as it was and what was flushed. -/
section Projected
variable {limit : Nat} {known : String → Int → Prop} {status : ActivityStatus}
  (times : ∀ application ∈ status.recentApplications, known application.clientId application.lastAuthenticatedAt)
  (sourced : Sourced known applications)

include times sourced

end Projected
end Data
end Passmower
