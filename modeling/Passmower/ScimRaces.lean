import Passmower.ObjectPatch
import Passmower.Passkeys
import Passmower.ScimUniqueness
import Passmower.ScimScope
import Passmower.Resumption.Pool

/-! SCIM requests at the same time. Each reads whole records, computes whole identities of them, and has the
difference to a second read of the record patched; nothing keeps others from writing between these. -/
namespace Passmower
open JavaScript Resumption Program ObjectPatch ScimService

inductive ScimField where
  | externalId
  | userName
  | displayName
  | active
  | emails
  | createdAt
  deriving DecidableEq, Repr

def ScimField.Same : ScimField → ScimIdentity → ScimIdentity → Prop
  | .externalId, a, b => a.externalId = b.externalId
  | .userName, a, b => a.userName = b.userName
  | .displayName, a, b => a.displayName = b.displayName
  | .active, a, b => a.active = b.active
  | .emails, a, b => a.emails = b.emails
  | .createdAt, a, b => a.createdAt = b.createdAt

/- What the difference of two values that are not of one piece does to a third. -/
structure ScimDeltas where
  externalId : Patching (Option Json)
  emails : Patching (List ScimEmail)
  sourceGroups : Patching (List String)
  groups : Patching (List Group)
  sourceGroupsExact : sourceGroups.Exact
  groupsExact : groups.Exact

/- The patch from one identity to another, put on the one there is by then; none where it is rejected. -/
def patchedIdentity (D : ScimDeltas) (existing values current : ScimIdentity) : Option ScimIdentity := do
  let resourceType ← Patching.whole.apply existing.resourceType values.resourceType current.resourceType
  let externalId ← D.externalId.apply existing.externalId values.externalId current.externalId
  let userName ← Patching.optional.apply existing.userName values.userName current.userName
  let displayName ← Patching.optional.apply existing.displayName values.displayName current.displayName
  let active ← Patching.optional.apply existing.active values.active current.active
  let emails ← D.emails.apply existing.emails values.emails current.emails
  let sourceGroups ← D.sourceGroups.apply existing.sourceGroups values.sourceGroups current.sourceGroups
  let groups ← D.groups.apply existing.groups values.groups current.groups
  let createdAt ← Patching.whole.apply existing.createdAt values.createdAt current.createdAt
  let lastModified ← Patching.whole.apply existing.lastModified values.lastModified current.lastModified
  some {
    resourceType := resourceType, externalId := externalId, userName := userName, displayName := displayName,
    active := active, emails := emails, sourceGroups := sourceGroups, groups := groups,
    createdAt := createdAt, lastModified := lastModified}

def pathField (path : String) : Option ScimField :=
  if path = "active" then some .active
  else if path = "username" then some .userName
  else if path = "displayname" then some .displayName
  else if path = "externalid" then some .externalId
  else if path.startsWith "emails" then some .emails
  else none

def valueFields (value : Object) : List ScimField :=
  [("userName",.userName),("displayName",.displayName),("externalId",.externalId),("active",.active),
    ("emails",.emails)].filterMap fun (key,field) => (value.get key).map fun _ => field

def operationFields (operation : Json) : List ScimField := match properties operation with
  | .error _ => []
  | .ok operation => match pathText operation with
    | .error _ => []
    | .ok path => match (path.map String.toLower).filter (· ≠ ""), objectValue operation with
      | none, some value => valueFields value
      | path, _ => (path.bind pathField).toList

def namesGroup (operation : Json) : Bool := match properties operation with
  | .error _ => false
  | .ok operation => match isTruthyOr (operation.get "path"), objectValue operation with
    | false, some value => (value.get "displayName").isSome
    | _, _ => match pathText operation with
      | .error _ => false
      | .ok path => path.map String.toLower = some "displayname"

def movesMembers (operation : Json) : Bool := match properties operation with
  | .error _ => false
  | .ok operation => match isTruthyOr (operation.get "path"), objectValue operation with
    | false, some value => (value.get "members").isSome
    | _, _ => match pathText operation with
      | .error _ => false
      | .ok path => path.map String.toLower = some "members" || (path.bind memberFilter).isSome

def operationsOf (operations : Option Json) : List Json := match iterated operations with
  | .ok operations => operations
  | .error _ => []

def givenExternalId (resource : Json) : List ScimField := match resource with
  | .object fields => ((given (Object.get fields "externalId")).map fun _ => .externalId).toList
  | _ => []

namespace ScimCommand
variable (digest : String → String) (connection : ScimConnection)

def groupName (resource : Json) : Option String := match required "displayName" resource with
  | .ok (fields,displayName) => some (resourceId digest "g" connection.uid (externalIdOf fields displayName))
  | .error _ => none

def fields : ScimCommand → ScimKind → String → List ScimField
  | .putUser id resource, .subject, name =>
      if name = id then [.userName,.displayName,.active,.emails] ++ givenExternalId resource else []
  | .patchUser id operations, .subject, name => if name = id then (operationsOf operations).flatMap operationFields else []
  | .deleteUser id, .subject, name => if name = id then [.active] else []
  | .postGroup resource, .group, name =>
      if groupName digest connection resource = some name then [.externalId,.userName,.displayName,.active,.emails] else []
  | .putGroup id resource, .group, name => if name = id then .displayName :: givenExternalId resource else []
  | .patchGroup id operations, .group, name =>
      if name = id ∧ (operationsOf operations).any namesGroup then [.displayName] else []
  | .deleteGroup id, .group, name => if name = id then [.active] else []
  | _, _, _ => []

def group : ScimCommand → Option String
  | .postGroup resource => groupName digest connection resource
  | .putGroup id _ | .deleteGroup id => some id
  | .patchGroup id operations => if (operationsOf operations).any movesMembers then some id else none
  | _ => none

end ScimCommand

/- The directory, how the next call fares and what the clock shows; and what each request has read of the records, the
last first. No identity of a group is computed from a listing, so those of the groups do not count. -/
structure ScimRace where
  directory : ScimDirectory
  outcome : PatchOutcome := .applied
  time : String := ""
  reads : Nat → ScimKind → String → List ScimIdentity := fun _ _ _ => []

namespace ScimRace
variable (s : ScimRace)

def noted (n : Nat) (found : ScimKind → String → Option ScimIdentity) : ScimRace :=
  {s with reads := fun m kind name => if m = n then (found kind name).toList ++ s.reads m kind name else s.reads m kind name}

def shown (kind : ScimKind) (name : String) : Option ScimIdentity := (s.directory.find kind name).map (·.identity)

def gotten (n : Nat) (kind : ScimKind) (name : String) : ScimRace :=
  s.noted n fun k other => if k = kind ∧ other = name then s.shown kind name else none

def listed (n : Nat) : ScimKind → ScimRace
  | .subject => s.noted n fun k other => if k = .subject then s.shown .subject other else none
  | .group => s

def written (kind : ScimKind) (name : String) (record : ScimRecord) : ScimRace :=
  {s with directory := s.directory.put kind name record}

end ScimRace

/- Every call is awaited, reading the clock as well, which makes for more interleavings only. -/
def scimAwaits : ScimCall → Bool := fun _ => true

def answerRace (D : ScimDeltas) (n : Nat) : Handler scim Unit ScimRace := fun _ c s => match c with
  | .list kind => match s.outcome with
      | .applied => (some (s.directory.resources kind),s.listed n kind)
      | _ => (none,s)
  | .get kind name => match s.outcome with
      | .applied => (s.directory.resource kind name,s.gotten n kind name)
      | _ => (none,s)
  | .create kind name record => match s.outcome, s.directory.find kind name with
      | .applied, none => (some (ScimDirectory.mapped kind (name,record)),s.written kind name record)
      | .unanswered, none => (none,s.written kind name record)
      | _, _ => (none,s)
  | .patch kind name identity => match s.directory.find kind name, s.reads n kind name with
      | some record, existing :: _ => match s.outcome, patchedIdentity D existing identity record.identity with
          | .applied, some patched =>
              let after := s.written kind name {record with identity := patched}
              (after.directory.resource kind name,after.gotten n kind name)
          | .unanswered, some patched => (none,s.written kind name {record with identity := patched})
          | _, _ => (none,s)
      | _, _ => (none,s)
  | .project _ => (s.outcome = .applied,s)
  | .now => (s.time,s)

/- Requests are started in the order of their numbers; what a request awaits is answered, at a time. -/
inductive RaceMove where
  | start
  | proceed (n : Nat) (outcome : PatchOutcome) (time : String)

abbrev RacePool := Pool scim ScimFailure ScimRace

def ScimCommand.thread (digest : String → String) (connection : ScimConnection) (command : ScimCommand) : Scim Unit := do
  let _ ← command.respond digest connection
  .pure ()

namespace RacePool
variable (D : ScimDeltas) (digest : String → String) (connection : ScimConnection) (commands : Nat → ScimCommand)

def facing (outcome : PatchOutcome) (time : String) (pool : RacePool) : RacePool :=
  pool.edit fun s => {s with outcome := outcome, time := time}

def step (pool : RacePool) : RaceMove → RacePool
  | .start => pool.spawn (answerRace D) scimAwaits ((commands pool.threads.length).thread digest connection)
  | .proceed n outcome time => (facing outcome time pool).proceed (answerRace D) scimAwaits n ()

def run (moves : List RaceMove) (pool : RacePool) : RacePool := moves.foldl (step D digest connection commands) pool

def begin (directory : ScimDirectory) : RacePool := ⟨[],{directory := directory}⟩

end RacePool

def Derived (connection : ScimConnection) (identity : ScimIdentity) : Prop :=
  (projectGroups connection identity).groups = identity.groups

structure SameGrant (a b : ScimIdentity) : Prop where
  active : a.active = b.active
  sourceGroups : a.sourceGroups = b.sourceGroups
  groups : a.groups = b.groups

section Conditions
variable (digest : String → String) (connection : ScimConnection) (command : ScimCommand) (kind : ScimKind) (name : String)

def otherGroups (identity : ScimIdentity) : List String :=
  identity.sourceGroups.filter fun group => some group ≠ command.group digest connection

structure Concurs (a b : ScimIdentity) : Prop where
  fields : ∀ field, field ∉ command.fields digest connection kind name → field.Same a b
  others : kind = .subject → otherGroups digest connection command a = otherGroups digest connection command b

structure Spares (a b : ScimIdentity) : Prop where
  fields : ∀ field, field ∉ command.fields digest connection kind name → field.Same a b
  members : kind = .subject → ∀ group, some group ≠ command.group digest connection →
    (group ∈ a.sourceGroups ↔ group ∈ b.sourceGroups)
  derived : kind = .subject → Derived connection a → Derived connection b

def Regrants (existing : ScimIdentity) : Prop := kind = .subject ∧
  (.active ∈ command.fields digest connection kind name ∨ command.group digest connection ≠ none ∨
    ¬ Derived connection existing)

end Conditions

def Unraced (digest : String → String) (connection : ScimConnection) (commands : Nat → ScimCommand) (n : Nat)
    (s : ScimRace) : ScimCall → Prop
  | .patch kind name _ => s.outcome = .refused ∨ ∀ existing source rest, s.reads n kind name = existing :: source :: rest →
      Concurs digest connection (commands n) kind name source existing ∧
        (Regrants digest connection (commands n) kind name existing → ∀ current, s.shown kind name = some current →
          SameGrant existing current)
  | _ => True

namespace RacePool

def Current (digest : String → String) (connection : ScimConnection) (commands : Nat → ScimCommand) (pool : RacePool) :
    RaceMove → Prop
  | .start => True
  | .proceed n outcome time => (facing outcome time pool).Ready (Unraced digest connection commands) n

end RacePool

end Passmower
