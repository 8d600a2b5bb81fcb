import Passmower.JavaScript
import Passmower.Resumption.Pool
import Passmower.Resumption.Stepping

/-! The OIDCUser event hooks: which hooks match an event and which Job they get for it, and the
operator that remembers the generation each user was last dispatched at. Its handlers are not awaited
by the watch, so they overlap. -/
namespace Passmower
open JavaScript Resumption Program

inductive EventType where
  | added
  | modified
  | deleted
  deriving DecidableEq, Repr

def EventType.text : EventType → String
  | .added => "Added"
  | .modified => "Modified"
  | .deleted => "Deleted"

structure UserResource where
  name : String
  namespace_ : String := "default"
  uid : String
  generation : Option Nat := none
  labels : List (String × String) := []
  deriving DecidableEq, Repr

def UserResource.at (user : UserResource) : Nat := user.generation.getD 1

structure UserEvent where
  type : EventType
  user : UserResource
  deriving DecidableEq, Repr

structure MatchExpression where
  key : String
  operator : String
  values : List String := []
  deriving DecidableEq, Repr

structure LabelSelector where
  matchLabels : List (String × String) := []
  matchExpressions : List MatchExpression := []
  deriving DecidableEq, Repr

def matchesExpression (labels : List (String × String)) (expression : MatchExpression) : Bool :=
  let value := mapGet expression.key labels
  match expression.operator with
  | "In" => value.any (· ∈ expression.values)
  | "NotIn" => !value.any (· ∈ expression.values)
  | "Exists" => value.isSome
  | "DoesNotExist" => value.isNone
  | _ => false

def matchesSelector (labels : List (String × String)) (selector : LabelSelector) : Bool :=
  selector.matchLabels.all (fun entry => mapGet entry.1 labels = some entry.2) &&
    selector.matchExpressions.all (matchesExpression labels)

structure Container where
  name : String
  env : List (String × String) := []
  deriving DecidableEq, Repr

structure JobSpec where
  restartPolicy : Option String := none
  ttlSecondsAfterFinished : Option Nat := none
  initContainers : List Container := []
  containers : List Container := []
  deriving DecidableEq, Repr

structure OidcUserEventHook where
  name : String
  namespace_ : String := "default"
  uid : Option String := none
  events : List EventType := []
  selector : LabelSelector := {}
  jobSpec : JobSpec := {}
  deriving DecidableEq, Repr

structure HookJob where
  name : String
  namespace_ : String
  owner : String
  event : String
  spec : JobSpec
  deriving DecidableEq, Repr

def injectedEnvironment (event : UserEvent) : List (String × String) :=
  [("PASSMOWER_EVENT_TYPE",event.type.text),("PASSMOWER_RESOURCE_KIND","OIDCUser"),
   ("PASSMOWER_RESOURCE_NAMESPACE",event.user.namespace_),("PASSMOWER_RESOURCE_NAME",event.user.name),
   ("PASSMOWER_RESOURCE_UID",event.user.uid),("PASSMOWER_RESOURCE_GENERATION",toString event.user.at)]

def injectEnvironment (event : UserEvent) (container : Container) : Container :=
  let injected := injectedEnvironment event
  {container with env := container.env.filter (fun item => item.1 ∉ injected.map Prod.fst) ++ injected}

namespace OidcUserEventHook

def isMatch (hook : OidcUserEventHook) (event : UserEvent) : Bool :=
  event.type ∈ hook.events && matchesSelector event.user.labels hook.selector

def jobPrefix (hook : OidcUserEventHook) : String :=
  let plain := hook.name.toList.map fun c =>
    let c := c.toLower
    if c.isLower || c.isDigit || c = '-' then c else '-'
  let inner := ((plain.dropWhile (· = '-')).reverse.dropWhile (· = '-')).reverse
  String.ofList (inner.take 35)

def getJob (digest : String → String) (hook : OidcUserEventHook) (event : UserEvent) : HookJob :=
  let identity := "\x00".intercalate
    [hook.uid.getD hook.name,event.user.uid,toString event.user.at,event.type.text]
  let kind := event.type.text.toLower
  { name := s!"{hook.jobPrefix}-{kind}-{digest identity}"
    namespace_ := hook.namespace_
    owner := hook.name
    event := kind
    spec := {hook.jobSpec with
      restartPolicy := some (hook.jobSpec.restartPolicy.getD "OnFailure")
      ttlSecondsAfterFinished := some (hook.jobSpec.ttlSecondsAfterFinished.getD 3600)
      initContainers := hook.jobSpec.initContainers.map (injectEnvironment event)
      containers := hook.jobSpec.containers.map (injectEnvironment event)} }

end OidcUserEventHook

inductive JobResult where
  | created
  | alreadyExists
  | failed
  deriving DecidableEq, Repr

/- A call that stops its handler answers nothing. `hear` and `dispatch` only leave a note of the event
that is handled and of the event that is dispatched. -/
inductive HookCall where
  | hear (user : UserResource)
  | isInitialized
  | markInitialized
  | listUsers
  | find (uid : String)
  | upsert (uid : String) (generation : Nat)
  | destroy (uid : String)
  | dispatch (event : UserEvent)
  | listHooks (namespace_ : String)
  | createJob (hook : OidcUserEventHook) (job : HookJob)
  | recordAttempt (hook : OidcUserEventHook) (event : UserEvent) (job : String) (ready : Bool) (reason message : String)
  | createEvent (hook : OidcUserEventHook) (reason message : String)

abbrev HookAnswer : HookCall → Type
  | .hear _ | .dispatch _ => Unit
  | .isInitialized => Except Unit Bool
  | .listUsers => Except Unit (Option (List UserResource))
  | .find _ => Except Unit (Option Nat)
  | .listHooks _ => Except Unit (Option (List OidcUserEventHook))
  | .createJob _ _ => Except Unit JobResult
  | .markInitialized | .upsert _ _ | .destroy _ | .recordAttempt _ _ _ _ _ _ | .createEvent _ _ _ => Except Unit Unit

abbrev eventHooks : Interface := ⟨HookCall,HookAnswer⟩

def HookCall.awaits : HookCall → Bool
  | .hear _ | .dispatch _ => false
  | _ => true

abbrev EventHooks (α : Type) := Program eventHooks Unit α

namespace EventHooks
variable (digest : String → String)

def runHook (event : UserEvent) (hook : OidcUserEventHook) : EventHooks Unit := do
  let job := hook.getJob digest event
  let result ← orThrow (← ask (I := eventHooks) (.createJob hook job))
  let ready := decide (result ≠ .failed)
  let reason := match result with
    | .alreadyExists => "JobAlreadyExists"
    | .created => "JobCreated"
    | .failed => "JobCreationFailed"
  let message := match result with
    | .alreadyExists => s!"{event.type.text} hook Job {job.name} already exists"
    | .created => s!"{event.type.text} hook Job {job.name} was created"
    | .failed => s!"Failed to create {event.type.text} hook Job {job.name}"
  orThrow (← ask (I := eventHooks) (.recordAttempt hook event job.name ready reason message))
  if ready then .pure ()
  else orThrow (← ask (I := eventHooks) (.createEvent hook reason message))

def runHooks (event : UserEvent) : List OidcUserEventHook → EventHooks Unit
  | [] => .pure ()
  | hook :: rest => do
      runHook digest event hook
      runHooks event rest

def dispatch (event : UserEvent) : EventHooks Unit := do
  ask (I := eventHooks) (.dispatch event)
  let hooks ← orThrow (← ask (I := eventHooks) (.listHooks event.user.namespace_))
  runHooks digest event ((hooks.getD []).filter (·.isMatch event))

def lastGeneration (uid : String) : EventHooks (Option Nat) := do
  orThrow (← ask (I := eventHooks) (.find uid))

def remember (uid : String) (generation : Nat) : EventHooks Unit := do
  orThrow (← ask (I := eventHooks) (.upsert uid generation))

def rememberAll : List UserResource → EventHooks Unit
  | [] => .pure ()
  | user :: rest => do
      remember user.uid user.at
      rememberAll rest

/- What exists on the first run is recorded and not dispatched; a listing that fails is tried again. -/
def seedOnFirstRun : EventHooks Unit := do
  let initialized ← orThrow (← ask (I := eventHooks) .isInitialized)
  if initialized then .pure ()
  else match ← orThrow (← ask (I := eventHooks) .listUsers) with
    | none => .pure ()
    | some users => do
        rememberAll users
        orThrow (← ask (I := eventHooks) .markInitialized)

def edge (type : Option Nat → EventType) (user : UserResource) : EventHooks Unit := do
  ask (I := eventHooks) (.hear user)
  let previousGeneration ← lastGeneration user.uid
  if previousGeneration = some user.at then .pure ()
  else do
    remember user.uid user.at
    dispatch digest ⟨type previousGeneration,user⟩

def added (user : UserResource) : EventHooks Unit :=
  edge digest (fun previousGeneration => if previousGeneration = none then .added else .modified) user

def modified (user : UserResource) : EventHooks Unit := edge digest (fun _ => .modified) user

def deleted (user : UserResource) : EventHooks Unit := do
  orThrow (← ask (I := eventHooks) (.destroy user.uid))
  dispatch digest ⟨.deleted,user⟩

end EventHooks

/- How far a handler has got: it has yet to read the remembered generation, or has read another one than
its own and has yet to remember its own, or has done either. -/
inductive HandlerPhase where
  | reading
  | remembering
  | past
  deriving DecidableEq, Repr

/- What a call comes to: `failed` is a failure the API adapter reports, `stopped` ends the handler. -/
inductive HookOutcome where
  | answered
  | failed
  | stopped
  deriving DecidableEq, Repr

/- The state store, the users, hooks and Jobs there are, and the outcome the next call meets with. The rest
are notes: of each handler the user, its phase and whether it was stopped before it remembered, the handler that wrote
what is remembered, the dispatches, the hooks of each handler's listing and the creations attempted. -/
structure EventHookWorld where
  initialized : Bool := false
  store : String → Option Nat := fun _ => none
  users : List UserResource := []
  hooks : List OidcUserEventHook := []
  jobs : List (String × String) := []
  outcome : HookOutcome := .answered
  heard : Nat → Option UserResource := fun _ => none
  phase : Nat → HandlerPhase := fun _ => .reading
  stopped : Nat → Bool := fun _ => false
  writer : String → Option Nat := fun _ => none
  dispatches : List (Nat × UserEvent) := []
  listed : Nat → List OidcUserEventHook := fun _ => []
  attempts : List (Nat × OidcUserEventHook) := []

namespace EventHookWorld
variable (s : EventHookWorld) (n : Nat)

def hear (user : UserResource) : EventHookWorld :=
  {s with
    heard := fun m => if m = n then some user else s.heard m
    phase := fun m => if m = n then .reading else s.phase m}

def setPhase (phase : HandlerPhase) : EventHookWorld :=
  {s with phase := fun m => if m = n then phase else s.phase m}

def read (uid : String) : EventHookWorld :=
  s.setPhase n (if s.store uid = (s.heard n).map UserResource.at then .past else .remembering)

def stop : EventHookWorld :=
  {s.setPhase n .past with stopped := fun m => if m = n then true else s.stopped m}

def write (uid : String) (generation : Option Nat) : EventHookWorld :=
  {s.setPhase n .past with
    store := fun u => if u = uid then generation else s.store u
    writer := fun u => if u = uid then (s.heard n).map (fun _ => n) else s.writer u}

def list : EventHookWorld := {s with listed := fun m => if m = n then s.hooks else s.listed m}

def attempt (hook : OidcUserEventHook) : EventHookWorld := {s with attempts := s.attempts ++ [(n,hook)]}

def addJob (job : HookJob) : EventHookWorld := {s with jobs := s.jobs ++ [(job.namespace_,job.name)]}

end EventHookWorld

def answerHooks (n : Nat) : Handler eventHooks Unit EventHookWorld := fun _ c s => match c with
  | .hear user => ((),s.hear n user)
  | .isInitialized => if s.outcome = .answered then (.ok s.initialized,s) else (.error (),s)
  | .markInitialized => if s.outcome = .answered then (.ok (),{s with initialized := true}) else (.error (),s)
  | .listUsers => match s.outcome with
      | .answered => (.ok (some s.users),s)
      | .failed => (.ok none,s)
      | .stopped => (.error (),s)
  | .find uid => if s.outcome = .answered then (.ok (s.store uid),s.read n uid) else (.error (),s.stop n)
  | .upsert uid generation =>
      if s.outcome = .answered then (.ok (),s.write n uid (some generation)) else (.error (),s.stop n)
  | .destroy uid => if s.outcome = .answered then (.ok (),s.write n uid none) else (.error (),s.stop n)
  | .dispatch event => ((),{s with dispatches := s.dispatches ++ [(n,event)]})
  | .listHooks _ => match s.outcome with
      | .answered => (.ok (some s.hooks),s.list n)
      | .failed => (.ok none,s.list n)
      | .stopped => (.error (),s.list n)
  | .createJob hook job => match s.outcome with
      | .answered => if (job.namespace_,job.name) ∈ s.jobs then (.ok .alreadyExists,s.attempt n hook)
          else (.ok .created,(s.attempt n hook).addJob job)
      | .failed => (.ok .failed,s.attempt n hook)
      | .stopped => (.error (),s)
  | .recordAttempt _ _ _ _ _ _ | .createEvent _ _ _ => if s.outcome = .stopped then (.error (),s) else (.ok (),s)

abbrev EventHookPool := Pool eventHooks Unit EventHookWorld

end Passmower
