import Passmower.ScimIsolation
import Passmower.ScimRaces
import Passmower.Resumption.History

/-! Linking the subjects of SCIM connections to accounts: logins that link, SCIM requests that change what is provisioned, the
operator's revocations, and approvals of accounts by an administrator, in any interleaving. What a connection grants reaches an
account as one of its identities. -/
namespace JavaScript

mutual

def Json.decEq : (a b : Json) → Decidable (a = b)
  | .null, .null => .isTrue rfl
  | .bool a, .bool b => decidable_of_iff (a = b) (by simp)
  | .number a, .number b => decidable_of_iff (a = b) (by simp)
  | .string a, .string b => decidable_of_iff (a = b) (by simp)
  | .array a, .array b => have := Json.decEqItems a b; decidable_of_iff (a = b) (by simp)
  | .object a, .object b => have := Json.decEqFields a b; decidable_of_iff (a = b) (by simp)
  | .null, .bool _ | .null, .number _ | .null, .string _ | .null, .array _ | .null, .object _
  | .bool _, .null | .bool _, .number _ | .bool _, .string _ | .bool _, .array _ | .bool _, .object _
  | .number _, .null | .number _, .bool _ | .number _, .string _ | .number _, .array _ | .number _, .object _
  | .string _, .null | .string _, .bool _ | .string _, .number _ | .string _, .array _ | .string _, .object _
  | .array _, .null | .array _, .bool _ | .array _, .number _ | .array _, .string _ | .array _, .object _
  | .object _, .null | .object _, .bool _ | .object _, .number _ | .object _, .string _ | .object _, .array _ => .isFalse nofun

def Json.decEqItems : (a b : List Json) → Decidable (a = b)
  | [], [] => .isTrue rfl
  | a :: as, b :: bs =>
      have := Json.decEq a b
      have := Json.decEqItems as bs
      decidable_of_iff (a = b ∧ as = bs) (by simp)
  | [], _ :: _ | _ :: _, [] => .isFalse nofun

def Json.decEqFields : (a b : List (String × Json)) → Decidable (a = b)
  | [], [] => .isTrue rfl
  | (k,a) :: as, (l,b) :: bs =>
      have := Json.decEq a b
      have := Json.decEqFields as bs
      decidable_of_iff ((k = l ∧ a = b) ∧ as = bs) (by simp)
  | [], _ :: _ | _ :: _, [] => .isFalse nofun

end

instance : DecidableEq Json := Json.decEq

end JavaScript

namespace Passmower
open JavaScript Resumption Program

deriving instance DecidableEq for ScimIdentity
deriving instance DecidableEq for ScimRecord
deriving instance DecidableEq for ScimProjection
deriving instance DecidableEq for ScimConnection

structure LinkingRule where
  provider : String
  tenantClaim : String
  tenantValue : String
  subjectClaim : String
  deriving DecidableEq

structure ScimConnectionObject extends ScimConnection where
  tokenHashes : List String := []
  disabled : Bool := false
  linking : Option LinkingRule := none
  deriving DecidableEq

/- A resource of the directory with what its status adds. `linkedAccountId` is only ever tested for being truthy, so an empty
one is none. -/
structure LinkedResource extends ScimResource where
  resourceVersion : Nat
  linkedAccountId : Option String

abbrev Identities := Option (List (String × ScimProjection))

namespace ScimConnectionService

def hexValue (c : Char) : Option Nat :=
  if '0' ≤ c ∧ c ≤ '9' then some (c.toNat - '0'.toNat)
  else if 'a' ≤ c ∧ c ≤ 'f' then some (c.toNat - 'a'.toNat + 10)
  else if 'A' ≤ c ∧ c ≤ 'F' then some (c.toNat - 'A'.toNat + 10)
  else none

/- `Buffer.from(…, 'hex')`, which ends before the first two that are not digits. -/
def hexBytes : List Char → List Nat
  | a :: b :: rest => match hexValue a, hexValue b with
      | some high, some low => (16 * high + low) :: hexBytes rest
      | _, _ => []
  | _ => []

def equalHash (left right : String) : Bool :=
  let a := hexBytes left.toList
  let b := hexBytes right.toList
  a.length = 32 && b.length = 32 && a = b

def authenticate (hashScimToken : String → String) (connection : ScimConnectionObject) (token : Option String) : Bool :=
  match truthy token with
  | none => false
  | some token => connection.tokenHashes.any (equalHash (hashScimToken token))

end ScimConnectionService

/- `returned` is no call: it only leaves a note that the operation has ended without an error. -/
inductive LinkCall where
  | connection (id : String)
  | connections
  | list (kind : ScimKind)
  | get (kind : ScimKind) (name : String)
  | create (kind : ScimKind) (name : String) (record : ScimRecord)
  | patch (kind : ScimKind) (name : String) (existing identity : ScimIdentity)
  | linkSubject (name : String) (resourceVersion : Nat) (accountId : String)
  | findUser (accountId : String)
  | patchUser (accountId : String) (existing : Identities) (key : String) (values : ScimProjection)
  | resubmit (accountId : String) (existing specs : Identities)
  | reconcileUserStatus (accountId : String)
  | now
  | returned

abbrev LinkAnswer : LinkCall → Type
  | .connection _ => Option ScimConnectionObject
  | .connections => Option (List ScimConnectionObject)
  | .list _ => Option (List LinkedResource)
  | .get _ _ | .create _ _ _ | .patch _ _ _ _ | .linkSubject _ _ _ => Option LinkedResource
  | .findUser _ => Option Identities
  | .patchUser _ _ _ _ | .resubmit _ _ _ => Option Unit
  | .now => String
  | .reconcileUserStatus _ | .returned => Unit

abbrev linkCalls : Interface := ⟨LinkCall,LinkAnswer⟩

def LinkCall.awaits : LinkCall → Bool := fun _ => true

abbrev LinkProgram (α : Type) := Program linkCalls ScimFailure α

/- `updateUserSpecs` with the identity of a connection. The merge keeps a `sub` that the body has no other for. -/
def updateIdentity (accountId key : String) (body : ScimProjection) : LinkProgram Unit := do
  match ← ask (I := linkCalls) (.findUser accountId) with
  | none => .throw (.other s!"updateUserSpecs: user \"{accountId}\" not found")
  | some existing => do
      let values := {body with sub := body.sub <|> (existing.bind (mapGet key)).bind (·.sub)}
      match ← ask (I := linkCalls) (.patchUser accountId existing key values) with
      | none => .throw (.other s!"updateUserSpecs: Kubernetes rejected the spec patch for user \"{accountId}\"")
      | some () => ask (I := linkCalls) (.reconcileUserStatus accountId)

/- `Account.approve`: the identities it submits are those of an earlier read. -/
def Account.approve (accountId : String) : LinkProgram Unit := do
  match ← ask (I := linkCalls) (.findUser accountId) with
  | none => .throw (.other "Cannot read properties of undefined (reading 'setApproved')")
  | some specs => match ← ask (I := linkCalls) (.findUser accountId) with
      | none => .throw (.other s!"updateUserSpecs: user \"{accountId}\" not found")
      | some existing => match ← ask (I := linkCalls) (.resubmit accountId existing specs) with
          | none => .throw (.other s!"updateUserSpecs: Kubernetes rejected the spec patch for user \"{accountId}\"")
          | some () => ask (I := linkCalls) (.reconcileUserStatus accountId)

def ScimConnectionService.find (id : String) : LinkProgram ScimConnectionObject := do
  match Option.filter (fun connection => !connection.disabled) (← ask (I := linkCalls) (.connection id)) with
  | none => .throw (.scim 404 "SCIM connection was not found" none)
  | some connection => .pure connection

def ScimConnectionService.list : LinkProgram (List ScimConnectionObject) := do
  let connections ← ask (I := linkCalls) .connections
  .pure ((connections.getD []).filter fun connection => !connection.disabled)

namespace ScimLinkService

def projection (identity : ScimIdentity) : ScimProjection where
  sub := identity.externalId
  active := identity.isActive
  groups := identity.groups

def revoked (identity : ScimIdentity) : ScimProjection where
  sub := identity.externalId
  active := false
  groups := []

def project (connection : ScimConnection) (identity : ScimIdentity) : Option String → LinkProgram Unit
  | none => .pure ()
  | some accountId => do
      match ← ask (I := linkCalls) (.findUser accountId) with
      | none => .throw (.other s!"Linked OIDCUser {accountId} was not found")
      | some _ => updateIdentity accountId connection.sourceKey (projection identity)

def listSubjects (connection : ScimConnection) : LinkProgram (List LinkedResource) := do
  let resources ← ask (I := linkCalls) (.list .subject)
  .pure ((resources.getD []).filter (·.connectionUid = connection.uid))

def linkSubject (subject : LinkedResource) (accountId : String) : LinkProgram LinkedResource := do
  match ← ask (I := linkCalls) (.linkSubject subject.accountId subject.resourceVersion accountId) with
  | none => .throw (.other s!"Failed to link SCIM subject {subject.accountId}")
  | some updated => .pure updated

def claimText (linkClaims : Object) (claim : String) : String := match given (linkClaims.get claim) with
  | none => ""
  | some value => textOf (some value)

def matched (providerKey : String) (linkClaims : Object) (connection : ScimConnectionObject) : Option String := do
  let rule ← connection.linking
  if rule.provider ≠ providerKey then none
  else if claimText linkClaims rule.tenantClaim ≠ rule.tenantValue then none
  else truthy (some (claimText linkClaims rule.subjectClaim))

def linkUnlessLinked (subject : LinkedResource) (accountId : String) : LinkProgram LinkedResource :=
  match subject.linkedAccountId with
  | none => linkSubject subject accountId
  | some other =>
      if other ≠ accountId then .throw (.other s!"SCIM subject {subject.accountId} is already linked to another account")
      else .pure subject

def linkMatched (connection : ScimConnectionObject) (accountId externalId : String) : LinkProgram (Option String) := do
  let subjects ← listSubjects connection.toScimConnection
  match subjects.find? (·.identity.externalId = some (.string externalId)) with
  | none => .pure none
  | some subject => do
      let updated ← linkUnlessLinked subject accountId
      project connection.toScimConnection updated.identity updated.linkedAccountId
      .pure (some updated.accountId)

def linkConnection (providerKey accountId : String) (linkClaims : Object) (connection : ScimConnectionObject) :
    LinkProgram (Option String) :=
  match matched providerKey linkClaims connection with
  | none => .pure none
  | some externalId => linkMatched connection accountId externalId

def linkEach (providerKey accountId : String) (linkClaims : Object) : List ScimConnectionObject → LinkProgram (List String)
  | [] => .pure []
  | connection :: rest => do
      let linked ← linkConnection providerKey accountId linkClaims connection
      let others ← linkEach providerKey accountId linkClaims rest
      .pure (linked.toList ++ others)

def linkAccount (providerKey accountId : String) (linkClaims : Object) : LinkProgram (List String) :=
  if linkClaims.isEmpty then .pure []
  else do
    let connections ← ScimConnectionService.list
    linkEach providerKey accountId linkClaims connections

def revokeSubjects (connection : ScimConnection) : List LinkedResource → LinkProgram Unit
  | [] => .pure ()
  | subject :: rest => match subject.linkedAccountId with
      | none => revokeSubjects connection rest
      | some accountId => do
          match ← ask (I := linkCalls) (.findUser accountId) with
          | none => revokeSubjects connection rest
          | some _ => do
              updateIdentity accountId connection.sourceKey (revoked subject.identity)
              revokeSubjects connection rest

def revokeConnection (connection : ScimConnection) : LinkProgram Unit := do
  let subjects ← listSubjects connection
  revokeSubjects connection subjects

end ScimLinkService

structure Remembered where
  found : Option ScimResource := none
  linked : Option String := none

/- The calls of a SCIM request where subjects are linked: `onChange` projects what was written, as the answer to the write has
it, onto the account of that answer. -/
def carry {α : Type} (connection : ScimConnection) : Remembered → Scim α → LinkProgram (α × Remembered)
  | memory, .pure a => .pure (a,memory)
  | _, .throw e => .throw e
  | memory, .call (.list kind) next =>
      .call (.list kind) fun listed => carry connection memory (next (listed.map fun resources => resources.map (·.toScimResource)))
  | memory, .call (.get kind name) next => .call (.get kind name) fun found =>
      carry connection {memory with found := (found.map (·.toScimResource)).or memory.found} (next (found.map (·.toScimResource)))
  | memory, .call (.create kind name record) next => .call (.create kind name record) fun created =>
      carry connection {memory with linked := created.bind (·.linkedAccountId)} (next (created.map (·.toScimResource)))
  | memory, .call (.patch kind name identity) next => match memory.found with
      | none => carry connection memory (next none)
      | some existing => .call (.patch kind name existing.identity identity) fun updated =>
          carry connection {memory with linked := updated.bind (·.linkedAccountId)} (next (updated.map (·.toScimResource)))
  | memory, .call (.project resource) next => do
      ScimLinkService.project connection resource.identity memory.linked
      carry connection memory (next true)
  | memory, .call .now next => .call .now fun time => carry connection memory (next time)

def bearerToken (authorization : String) : Option String :=
  if authorization.startsWith "Bearer " then some ((authorization.drop "Bearer ".length).toString) else none

section Routes
variable (hashScimToken digest : String → String)

def scimRoute (connectionId authorization : String) (command : ScimCommand) : LinkProgram (Option ScimResponse) := do
  let found ← (do
    let connection ← ScimConnectionService.find connectionId
    .pure (some connection) : LinkProgram (Option ScimConnectionObject)).tryCatch fun e => match e with
      | .scim 404 _ _ => .pure none
      | e => .throw e
  match found.filter fun connection => ScimConnectionService.authenticate hashScimToken connection (bearerToken authorization) with
  | none => .pure none
  | some connection => do
      let out ← carry connection.toScimConnection {} (command.respond digest connection.toScimConnection)
      .pure (some out.1)

/- `reconcile` and `deleted` are the operator's, with the connection of the watch event. A login links where it has found an
account, and an administrator approves one. -/
inductive LinkOperation where
  | login (providerKey accountId : String) (linkClaims : Object)
  | scim (connectionId authorization : String) (command : ScimCommand)
  | reconcile (connection : ScimConnectionObject)
  | deleted (connection : ScimConnectionObject)
  | approve (accountId : String)

def LinkOperation.program : LinkOperation → LinkProgram Unit
  | .login providerKey accountId linkClaims =>
      if accountId = "" then .pure ()
      else do
        let _ ← ScimLinkService.linkAccount providerKey accountId linkClaims
        .pure ()
  | .scim connectionId authorization command => do
      let _ ← scimRoute hashScimToken digest connectionId authorization command
      .pure ()
  | .reconcile connection =>
      if connection.disabled then ScimLinkService.revokeConnection connection.toScimConnection else .pure ()
  | .deleted connection => ScimLinkService.revokeConnection connection.toScimConnection
  | .approve accountId => Account.approve accountId

def LinkOperation.thread (operation : LinkOperation) : LinkProgram Unit := do
  operation.program hashScimToken digest
  ask (I := linkCalls) .returned

end Routes

inductive LinkEvent where
  | configured (id : String) (connection : ScimConnectionObject)
  | found (n : Nat) (connection : ScimConnectionObject)
  | listed (n : Nat) (connections : List ScimConnectionObject)
  | stored (n : Nat) (name : String) (record : ScimRecord)
  | linked (n : Nat) (name accountId : String) (record : ScimRecord)
  | projected (n : Nat) (accountId key : String) (values : ScimProjection)
  | resubmitted (n : Nat) (accountId : String) (specs : Identities)
  | returned (n : Nat)
  deriving DecidableEq

/- The connections and the directory, with the versions of its resources and the accounts its subjects are linked to; the
accounts, as far as their identities of connections go; how the next call fares and what the clock shows. -/
structure LinkWorld where
  connections : List (String × ScimConnectionObject) := []
  directory : ScimDirectory := ⟨fun _ => [],fun _ => List.nodup_nil⟩
  versions : ScimKind → String → Nat := fun _ _ => 0
  links : String → Option String := fun _ => none
  users : String → Option Identities := fun _ => none
  outcome : PatchOutcome := .applied
  time : String := ""
  operations : List LinkOperation := []
  log : List LinkEvent := []

section Patches
variable (D : ScimDeltas)

def patchedProjection (existing values current : ScimProjection) : Option ScimProjection := do
  let sub ← D.externalId.apply existing.sub values.sub current.sub
  let active ← ObjectPatch.Patching.whole.apply existing.active values.active current.active
  let groups ← D.groups.apply existing.groups values.groups current.groups
  some ⟨sub,active,groups⟩

/- Identities that were missing are added whole; one that was is to be there still, if anything in it is to be replaced. -/
def patchedIdentities (existing : Identities) (key : String) (values : ScimProjection) (current : Identities) :
    Option Identities :=
  match existing with
  | none => some (some [(key,values)])
  | some entries => match mapGet key entries with
      | none => current.map fun present => some (mapSet key values present)
      | some old =>
          if old = values then some current
          else do
            let present ← current
            let entry ← mapGet key present
            let patched ← patchedProjection D old values entry
            some (some (mapSet key patched present))

/- `mergeWith` keeps a `sub` that the source has no other for, and replaces the groups. -/
def mergedIdentity (existing : Option ScimProjection) (body : ScimProjection) : ScimProjection :=
  {body with sub := body.sub <|> existing.bind (·.sub)}

/- The patch of the identities that `mergeWith` gives: each by its own operations, and all or none. -/
def patchedSpecs (existing specs current : Identities) : Option Identities := match specs, existing with
  | none, _ => some current
  | some specs, none => some (some specs)
  | some specs, some entries => (specs.map Prod.fst).foldlM (fun current key => match mapGet key specs with
      | none => some current
      | some body => patchedIdentities D (some entries) key (mergedIdentity (mapGet key entries) body) current) current

end Patches

namespace LinkWorld
variable (s : LinkWorld)

def resource (kind : ScimKind) (name : String) : Option LinkedResource := (s.directory.resource kind name).map fun resource =>
  ⟨resource,s.versions kind name,if kind = .subject then s.links name else none⟩

def resources (kind : ScimKind) : List LinkedResource := (s.directory.resources kind).map fun resource =>
  ⟨resource,s.versions kind resource.accountId,if kind = .subject then s.links resource.accountId else none⟩

def noting (event : LinkEvent) : LinkWorld := {s with log := event :: s.log}

def bumped (kind : ScimKind) (name : String) : ScimKind → String → Nat :=
  fun k other => if k = kind ∧ other = name then s.versions k other + 1 else s.versions k other

def written (n : Nat) (kind : ScimKind) (name : String) (record : ScimRecord) : LinkWorld where
  connections := s.connections
  directory := s.directory.put kind name record
  versions := if s.directory.find kind name = some record then s.versions else s.bumped kind name
  links := s.links
  users := s.users
  outcome := s.outcome
  time := s.time
  operations := s.operations
  log := if kind = .subject then .stored n name record :: s.log else s.log

def created (n : Nat) (kind : ScimKind) (name : String) (record : ScimRecord) : LinkWorld :=
  {s.written n kind name record with links := fun other => if kind = .subject ∧ other = name then none else s.links other}

def linking (n : Nat) (name accountId : String) (record : ScimRecord) : LinkWorld where
  connections := s.connections
  directory := s.directory
  versions := s.bumped .subject name
  links other := if other = name then some accountId else s.links other
  users := s.users
  outcome := s.outcome
  time := s.time
  operations := s.operations
  log := .linked n name accountId record :: s.log

def projecting (n : Nat) (accountId key : String) (values : ScimProjection) (identities : Identities) : LinkWorld where
  connections := s.connections
  directory := s.directory
  versions := s.versions
  links := s.links
  users other := if other = accountId then some identities else s.users other
  outcome := s.outcome
  time := s.time
  operations := s.operations
  log := .projected n accountId key values :: s.log

def resubmitting (n : Nat) (accountId : String) (specs identities : Identities) : LinkWorld where
  connections := s.connections
  directory := s.directory
  versions := s.versions
  links := s.links
  users other := if other = accountId then some identities else s.users other
  outcome := s.outcome
  time := s.time
  operations := s.operations
  log := .resubmitted n accountId specs :: s.log

def entry (accountId key : String) : Option ScimProjection :=
  (s.users accountId).bind fun identities => identities.bind (mapGet key)

def read {β : Type} (answer : Option β) : Option β := if s.outcome = .applied then answer else none

/- A write that can be carried out is, and answered; or only the first, or neither. -/
def serve {β : Type} (after : Option LinkWorld) (answer : LinkWorld → Option β) : Option β × LinkWorld :=
  match s.outcome, after with
  | .applied, some t => (answer t,t)
  | .unanswered, some t => (none,t)
  | .refused, _ | _, none => (none,s)

end LinkWorld

def answerLinks (D : ScimDeltas) (n : Nat) : Handler linkCalls Unit LinkWorld := fun _ c s => match c with
  | .connection id => match s.read (mapGet id s.connections) with
      | some connection => (some connection,s.noting (.found n connection))
      | none => (none,s)
  | .connections => match s.read (some (s.connections.map Prod.snd)) with
      | some connections => (some connections,s.noting (.listed n connections))
      | none => (none,s)
  | .list kind => (s.read (some (s.resources kind)),s)
  | .get kind name => (s.read (s.resource kind name),s)
  | .create kind name record => s.serve
      (if (s.directory.find kind name).isNone then some (s.created n kind name record) else none) (·.resource kind name)
  | .patch kind name existing identity => s.serve
      ((s.directory.find kind name).bind fun record => (patchedIdentity D existing identity record.identity).map fun patched =>
        s.written n kind name {record with identity := patched}) (·.resource kind name)
  | .linkSubject name resourceVersion accountId => s.serve
      ((s.directory.find .subject name).bind fun record =>
        if s.versions .subject name = resourceVersion then some (s.linking n name accountId record) else none)
      (·.resource .subject name)
  | .findUser accountId => (s.read (s.users accountId),s)
  | .patchUser accountId existing key values => s.serve
      ((s.users accountId).bind fun current => (patchedIdentities D existing key values current).map
        (s.projecting n accountId key values)) fun _ => some ()
  | .resubmit accountId existing specs => s.serve
      ((s.users accountId).bind fun current => (patchedSpecs D existing specs current).map
        (s.resubmitting n accountId specs)) fun _ => some ()
  | .reconcileUserStatus _ => ((),s)
  | .now => (s.time,s)
  | .returned => ((),s.noting (.returned n))

def SparesConnections (edit : Option Identities → Option Identities) : Prop :=
  ∀ (user : Option Identities) (uid : String),
    (edit user).bind (fun identities => identities.bind (mapGet ("scim-" ++ uid))) =
        user.bind (fun identities => identities.bind (mapGet ("scim-" ++ uid))) ∨
      (edit user).bind (fun identities => identities.bind (mapGet ("scim-" ++ uid))) = none

inductive LinkMove where
  | start (operation : LinkOperation)
  | proceed (n : Nat) (outcome : PatchOutcome) (time : String)
  /- A connection is created, edited or deleted. -/
  | configure (id : String) (connection : Option ScimConnectionObject)
  | editUser (accountId : String) (edit : Option Identities → Option Identities)

def LinkMove.Spares : LinkMove → Prop
  | .editUser _ edit => SparesConnections edit
  | .start _ | .proceed _ _ _ | .configure _ _ => True

abbrev LinkPool := Pool linkCalls ScimFailure LinkWorld

namespace LinkWorld
variable (s : LinkWorld)

def configure (id : String) : Option ScimConnectionObject → LinkWorld
  | some connection =>
      {s with connections := mapSet id connection s.connections, log := .configured id connection :: s.log}
  | none => {s with connections := s.connections.filter (·.1 ≠ id)}

def editUser (accountId : String) (edit : Option Identities → Option Identities) : LinkWorld :=
  {s with users := fun other => if other = accountId then edit (s.users accountId) else s.users other}

end LinkWorld

namespace LinkPool
variable (D : ScimDeltas) (hashScimToken digest : String → String)

def facing (outcome : PatchOutcome) (time : String) (pool : LinkPool) : LinkPool :=
  pool.edit fun s => {s with outcome := outcome, time := time}

def step (pool : LinkPool) : LinkMove → LinkPool
  | .start operation => (pool.edit fun s => {s with operations := s.operations ++ [operation]}).spawn (answerLinks D)
      LinkCall.awaits (operation.thread hashScimToken digest)
  | .proceed n outcome time => (facing outcome time pool).proceed (answerLinks D) LinkCall.awaits n ()
  | .configure id connection => pool.edit fun s => s.configure id connection
  | .editUser accountId edit => pool.edit fun s => s.editUser accountId edit

def run (moves : List LinkMove) (pool : LinkPool) : LinkPool := moves.foldl (step D hashScimToken digest) pool

def begin : LinkPool := ⟨[],{}⟩

end LinkPool

end Passmower
