import Passmower.ActivityTracker
import Passmower.Passkeys
import Passmower.Resumption.Pool

/-! The Redis records of clients: the operators that write them after the resources of clients, and the sweep that removes
those whose resource is gone. Reads, writes and the changes of the resources come in any order. -/
namespace Passmower
open JavaScript Resumption Program

structure ClientResource where
  fingerprint : String
  boundTo : Option String := none
  valid : Bool := true
  enabledSince : Option Nat
  version : Nat := 0
  deriving DecidableEq, Repr

structure ClientSnapshot where
  reference : Reference
  resource : ClientResource
  seen : Nat
  deriving DecidableEq, Repr

def ClientSnapshot.isDisabled (client : ClientSnapshot) : Bool := client.resource.enabledSince.isNone

def ClientSnapshot.clientId (client : ClientSnapshot) : String := client.reference.clientId

structure ClientRecord where
  reference : Option Reference
  written : Nat := 0
  deriving DecidableEq, Repr

inductive ClientReading where
  | failed
  /- `undefined`, and when there was none -/
  | absent (seen : Nat)
  | found (client : ClientSnapshot)

inductive Deletion where
  | unrecorded
  | unconfirmed (reference : Reference) (seen : Nat)
  | handled (reference : Reference) (seen : Nat)

inductive RedisWrite where
  | set (client : ClientSnapshot)
  | sadd (id : String)
  | del (id : String) (deletion : Deletion)
  | srem (id : String)

inductive Preparation where
  | resolveIngressRef
  | reconcileClientSecret
  | createOrReplaceClientMiddleware
  | delay

inductive ClientCall where
  | list (kind : ClientKind)
  | get (reference : Reference)
  | replaceClientStatus (client : ClientSnapshot)
  | prepare (preparation : Preparation) (client : ClientSnapshot)
  | getSetMembers
  | find (id : String)
  | write (write : RedisWrite)
  | isCurrent (client : ClientSnapshot)
  | register (client : ClientSnapshot)
  | shouldReconcile (client : ClientSnapshot)
  | unregister (client : ClientSnapshot)

abbrev ClientAnswer : ClientCall → Type
  | .list _ => Option (List Reference)
  | .get _ => ClientReading
  | .replaceClientStatus _ => Option ClientSnapshot
  | .prepare _ _ => Option Bool
  | .getSetMembers => Option (List String)
  | .find _ => Option (Option ClientRecord)
  | .write _ | .isCurrent _ | .shouldReconcile _ => Bool
  | .register _ | .unregister _ => Unit

abbrev clientCalls : Interface := ⟨ClientCall,ClientAnswer⟩

def ClientCall.awaits : ClientCall → Bool
  | .isCurrent _ | .register _ | .shouldReconcile _ | .unregister _ => false
  | _ => true

abbrev Clients := Program clientCalls JsError

structure NamespaceFilter where
  inside : Option String
  matching : String → Bool

namespace ClientRedis

def orClosed {α : Type} : Option α → Clients α
  | some a => .pure a
  | none => .throw (.other "Connection is closed.")

def find (id : String) : Clients (Option ClientRecord) := do
  let answer : Option (Option ClientRecord) ← ask (I := clientCalls) (.find id)
  orClosed answer

def write (write : RedisWrite) : Clients Unit := do
  let done : Bool ← ask (I := clientCalls) (.write write)
  if done then .pure () else .throw (.other "Connection is closed.")

def upsert (client : ClientSnapshot) : Clients Unit := do
  write (.set client)
  write (.sadd client.clientId)

/- The record that is found tells nothing more: clients have one owner. -/
def destroy (id : String) (deletion : Deletion) : Clients Unit := do
  let _ ← find id
  write (.del id deletion)
  write (.srem id)

end ClientRedis

namespace ClientRedisReconciler
open ClientRedis
variable (filter : NamespaceFilter)

def sweptKinds : List ClientKind := [.oidcClient,.oidcMiddlewareClient]

def listLiveClientIds : List ClientKind → Clients (Option (List String))
  | [] => .pure (some [])
  | kind :: rest => do
      match ← ask (I := clientCalls) (.list kind) with
      | none => .pure none
      | some clients => do
          let more ← listLiveClientIds rest
          .pure (more.map fun live =>
            ((clients.filter fun client => filter.matching client.clientNamespace).map Reference.clientId) ++ live)

def removeOrphan (live : List String) (id : String) : Clients Bool :=
  if live.contains id then .pure false
  else do
    match ← find id with
    | none => do
        destroy id .unrecorded
        .pure true
    | some record => match record.reference with
      -- some other kind's record
      | none => .pure false
      | some reference =>
          if !filter.matching reference.clientNamespace then .pure false
          else do
            match ← ask (I := clientCalls) (.get reference) with
            | .absent seen => do
                destroy id (.unconfirmed reference seen)
                .pure true
            | _ => .pure false

def removeOrphans (live : List String) : List String → Clients (List String)
  | [] => .pure []
  | id :: rest => do
      let removed ← removeOrphan filter live id
      let more ← removeOrphans live rest
      .pure (if removed then id :: more else more)

def sweep : Clients (List String) := do
  match ← listLiveClientIds filter sweptKinds with
  | none => .pure []
  | some live => do
      let members : Option (List String) ← ask (I := clientCalls) .getSetMembers
      let ids ← orClosed members
      removeOrphans filter live ids

end ClientRedisReconciler

namespace ClientOperator
open ClientRedis
variable (own : String)

def prepare (preparation : Preparation) (client : ClientSnapshot) : Clients Bool := do
  let prepared : Option Bool ← ask (I := clientCalls) (.prepare preparation client)
  match prepared with
  | some hasSecret => .pure hasSecret
  | none => .throw (.other "Client reconciliation failed")

def report (client : ClientSnapshot) : Clients Unit := do
  let _ ← ask (I := clientCalls) (.replaceClientStatus client)
  .pure ()

def reporting (client : ClientSnapshot) (body : Clients Unit) : Clients Unit := body.tryCatch fun _ => report client

def whenOurs (client : ClientSnapshot) (next : ClientSnapshot → Clients Unit) : Clients Unit :=
  if client.resource.boundTo = some own then next client
  else match client.resource.boundTo with
    | some _ => .pure ()
    | none => do
        let claimed : Option ClientSnapshot ← ask (I := clientCalls) (.replaceClientStatus client)
        match claimed.filter (·.resource.boundTo = some own) with
        | some claimed => next claimed
        | none => .pure ()

def disable (client : ClientSnapshot) : Clients Unit := do
  destroy client.clientId (.handled client.reference client.seen)
  report client

def store (client : ClientSnapshot) : Clients Unit := do
  upsert client
  report client

def assertValidClaimMappings (client : ClientSnapshot) : Clients Unit :=
  if client.resource.valid then .pure () else .throw (.other "Invalid spec.claimMappings")

def settleCreated (client : ClientSnapshot) (hasSecret : Bool) : Clients Unit :=
  if client.isDisabled then disable client
  else if hasSecret then store client
  else report client

def createOIDCClient (client : ClientSnapshot) : Clients Unit := do
  let replayed : Bool ← ask (I := clientCalls) (.isCurrent client)
  ask (I := clientCalls) (.register client)
  if !client.resource.valid then report client
  else if client.resource.boundTo = some own then reporting client do
    let _ ← prepare .resolveIngressRef client
    let known : Option ClientRecord ← if replayed then find client.clientId else .pure none
    if known.isSome then settleCreated client false
    else do
      let hasSecret ← prepare .reconcileClientSecret client
      settleCreated client hasSecret
  else whenOurs own client fun claimed => reporting claimed do
    let _ ← prepare .resolveIngressRef claimed
    let hasSecret ← prepare .reconcileClientSecret claimed
    settleCreated claimed hasSecret

def updateOIDCClient (forced : Bool) (client : ClientSnapshot) : Clients Unit := do
  let changed : Bool ← ask (I := clientCalls) (.shouldReconcile client)
  if !changed && !forced then .pure ()
  else whenOurs own client fun client => reporting client do
    assertValidClaimMappings client
    let _ ← prepare .resolveIngressRef client
    if client.isDisabled then disable client
    else do
      let _ ← prepare .delay client
      let _ ← prepare .reconcileClientSecret client
      store client

def createOIDCMiddlewareClient (client : ClientSnapshot) : Clients Unit := do
  ask (I := clientCalls) (.register client)
  whenOurs own client fun client => reporting client do
    let _ ← prepare .createOrReplaceClientMiddleware client
    if client.isDisabled then disable client else store client

def updateOIDCMiddlewareClient (client : ClientSnapshot) : Clients Unit := do
  let changed : Bool ← ask (I := clientCalls) (.shouldReconcile client)
  if !changed then .pure ()
  else whenOurs own client fun client => reporting client do
    if client.isDisabled then disable client
    else do
      let _ ← prepare .delay client
      let _ ← prepare .createOrReplaceClientMiddleware client
      store client

def deleteOIDCClient (client : ClientSnapshot) : Clients Unit := do
  ask (I := clientCalls) (.unregister client)
  if client.resource.boundTo ≠ some own then .pure ()
  else (destroy client.clientId (.handled client.reference client.seen)).tryCatch fun _ => .pure ()

def reconcileClientByName (reference : Reference) : Clients Unit := do
  match ← ask (I := clientCalls) (.get reference) with
  | .found client => updateOIDCClient own true client
  | _ => .pure ()

end ClientOperator

inductive WatchEvent where
  | added (client : ClientSnapshot)
  | modified (client : ClientSnapshot)
  | deleted (client : ClientSnapshot)

def WatchEvent.handler (own : String) : WatchEvent → Clients Unit
  | .added client => match client.reference.clientKind with
      | .oidcClient => ClientOperator.createOIDCClient own client
      | .oidcMiddlewareClient => ClientOperator.createOIDCMiddlewareClient own client
  | .modified client => match client.reference.clientKind with
      | .oidcClient => ClientOperator.updateOIDCClient own false client
      | .oidcMiddlewareClient => ClientOperator.updateOIDCMiddlewareClient own client
  | .deleted client => ClientOperator.deleteOIDCClient own client

structure Removal where
  record : ClientRecord
  listed : ClientKind → Option (List Reference)
  confirmed : List Reference

def WatchEvent.client : WatchEvent → ClientSnapshot
  | .added client | .modified client | .deleted client => client

/- The records and the set of their ids; the resources, and what has been told of them; the memory of the operators; how
the next call fares. And, for each thread, what its sweep has been shown; what the handlers have written, for which time
of being enabled; and what sweeps have removed. -/
structure ClientWorld where
  records : String → Option ClientRecord
  clients : List String := []
  resources : List (Reference × ClientResource) := []
  events : List WatchEvent := []
  clock : Nat := 0
  fingerprints : ClientKind → String → Option String := fun _ _ => none
  outcome : PatchOutcome := .applied
  hasSecret : Bool := true
  listed : Nat → ClientKind → Option (List Reference) := fun _ _ => none
  confirmed : Nat → List Reference := fun _ => []
  wrote : List (Reference × Nat) := []
  removals : List Removal := []

namespace ClientWorld
variable (s : ClientWorld)

def resource (reference : Reference) : Option ClientResource := s.resources.lookup reference

def enabledSince (reference : Reference) : Option Nat := (s.resource reference).bind (·.enabledSince)

def store (event : ClientSnapshot → WatchEvent) (client : ClientSnapshot) : ClientWorld :=
  {s with
    resources := (client.reference,client.resource) :: s.resources.filter fun entry => entry.1 ≠ client.reference
    events := s.events ++ [event client]
    clock := client.seen}

def record (id : String) (entry : Option ClientRecord) : ClientWorld :=
  {s with records := fun other => if other = id then entry else s.records other}

def remember (client : ClientSnapshot) (fingerprint : Option String) : ClientWorld :=
  {s with fingerprints := fun kind id =>
    if kind = client.reference.clientKind ∧ id = client.clientId then fingerprint else s.fingerprints kind id}

def isCurrent (client : ClientSnapshot) : Bool :=
  s.fingerprints client.reference.clientKind client.clientId = some client.resource.fingerprint

def shown (n : Nat) (kind : ClientKind) (references : Option (List Reference)) : ClientWorld :=
  {s with listed := fun m k => if m = n ∧ k = kind then references else s.listed m k}

def missed (n : Nat) (reference : Reference) : ClientWorld :=
  {s with confirmed := fun m => if m = n then reference :: s.confirmed m else s.confirmed m}

def listing (inside : Option String) (kind : ClientKind) : List Reference :=
  (s.resources.map Prod.fst).filter fun reference =>
    reference.clientKind = kind && inside.all (· = reference.clientNamespace)

end ClientWorld

def Deletion.basis : Deletion → Option (Reference × Nat)
  | .unrecorded => none
  | .unconfirmed reference seen | .handled reference seen => some (reference,seen)

def Deletion.isSweep : Deletion → Bool
  | .unrecorded | .unconfirmed _ _ => true
  | .handled _ _ => false

def ClientWorld.written (n : Nat) (s : ClientWorld) : RedisWrite → ClientWorld
  | .set client =>
      {s.record client.clientId (some ⟨some client.reference,s.clock + 1⟩) with
        clock := s.clock + 1
        wrote := (client.resource.enabledSince.map fun since => (client.reference,since)).toList ++ s.wrote}
  | .sadd id => {s with clients := if id ∈ s.clients then s.clients else s.clients ++ [id]}
  | .del id deletion => match s.records id with
      | some record =>
          {s.record id none with
            removals := if deletion.isSweep then ⟨record,s.listed n,s.confirmed n⟩ :: s.removals else s.removals}
      | none => s
  | .srem id => {s with clients := s.clients.filter (· ≠ id)}

def answerClients (own : String) (inside : Option String) (n : Nat) : Handler clientCalls Unit ClientWorld := fun _ c s =>
  match c with
  | .list kind =>
      let references := if s.outcome = .applied then some (s.listing inside kind) else none
      (references,s.shown n kind references)
  | .get reference => match s.outcome, s.resource reference with
      | .applied, some resource => (.found ⟨reference,resource,s.clock⟩,s)
      | .applied, none => (.absent s.clock,s.missed n reference)
      | _, _ => (.failed,s)
  | .replaceClientStatus client => match s.outcome, s.resource client.reference with
      | .refused, _ | _, none => (none,s)
      | outcome, some resource =>
          if resource.version = client.resource.version then
            let claimed : ClientSnapshot :=
              ⟨client.reference,{resource with boundTo := some own, version := s.clock + 1},s.clock + 1⟩
            (if outcome = .applied then some claimed else none,s.store .modified claimed)
          else (none,s)
  | .prepare .delay _ => (some true,s)
  | .prepare _ _ => (if s.outcome = .applied then some s.hasSecret else none,s)
  | .getSetMembers => (if s.outcome = .applied then some s.clients else none,s)
  | .find id => (if s.outcome = .applied then some (s.records id) else none,s)
  | .write write => match s.outcome with
      | .applied => (true,s.written n write)
      | .refused => (false,s)
      | .unanswered => (false,s.written n write)
  | .isCurrent client => (s.isCurrent client,s)
  | .register client => ((),s.remember client (some client.resource.fingerprint))
  | .shouldReconcile client => (!s.isCurrent client,s.remember client (some client.resource.fingerprint))
  | .unregister client => ((),s.remember client none)

/- A resource is created or changed, or deleted; it is told of again, as when a watch reconnects; an operator handles one of
the events, reconciles a client by its name, or a sweep begins; what a thread awaits is answered. An event may be
handled late, again or never. -/
inductive ClientMove where
  | apply (reference : Reference) (fingerprint : String) (valid disabled : Bool)
  | remove (reference : Reference)
  | replay (reference : Reference)
  | handle (event : Nat)
  | reconcile (reference : Reference)
  | sweep
  | proceed (n : Nat) (outcome : PatchOutcome) (hasSecret : Bool)

namespace ClientWorld
variable (s : ClientWorld)

def applied (reference : Reference) (fingerprint : String) (valid disabled : Bool) : ClientWorld :=
  let since := if disabled then none else some ((s.enabledSince reference).getD (s.clock + 1))
  match s.resource reference with
  | some resource => s.store .modified ⟨reference,
      {resource with fingerprint := fingerprint, valid := valid, enabledSince := since, version := s.clock + 1},s.clock + 1⟩
  | none => s.store .added ⟨reference,
      {fingerprint := fingerprint, valid := valid, enabledSince := since, version := s.clock + 1},s.clock + 1⟩

def removed (reference : Reference) : ClientWorld := match s.resource reference with
  | some resource =>
      {s with
        resources := s.resources.filter fun entry => entry.1 ≠ reference
        events := s.events ++ [.deleted ⟨reference,resource,s.clock + 1⟩]
        clock := s.clock + 1}
  | none => s

def replayed (reference : Reference) : ClientWorld := match s.resource reference with
  | some resource => {s with events := s.events ++ [.added ⟨reference,resource,s.clock⟩]}
  | none => s

end ClientWorld

abbrev ClientPool := Pool clientCalls JsError ClientWorld

namespace ClientPool
variable (own : String) (filter : NamespaceFilter)

def facing (outcome : PatchOutcome) (hasSecret : Bool) (pool : ClientPool) : ClientPool :=
  pool.edit fun s => {s with outcome := outcome, hasSecret := hasSecret}

def start (thread : Clients Unit) (pool : ClientPool) : ClientPool :=
  pool.spawn (answerClients own filter.inside) ClientCall.awaits thread

def sweeping : Clients Unit := do
  let _ ← ClientRedisReconciler.sweep filter
  .pure ()

def step (pool : ClientPool) : ClientMove → ClientPool
  | .apply reference fingerprint valid disabled => pool.edit (·.applied reference fingerprint valid disabled)
  | .remove reference => pool.edit (·.removed reference)
  | .replay reference => pool.edit (·.replayed reference)
  | .handle event => match pool.state.events[event]? with
      | some event =>
          if filter.matching event.client.reference.clientNamespace then start own filter (event.handler own) pool else pool
      | none => pool
  | .reconcile reference => start own filter (ClientOperator.reconcileClientByName own reference) pool
  | .sweep => start own filter (sweeping filter) pool
  | .proceed n outcome hasSecret =>
      (facing outcome hasSecret pool).proceed (answerClients own filter.inside) ClientCall.awaits n ()

def run (moves : List ClientMove) (pool : ClientPool) : ClientPool := moves.foldl (step own filter) pool

end ClientPool

def Removal.Justified (filter : NamespaceFilter) (removal : Removal) : Prop := ∃ reference,
  removal.record.reference = some reference ∧ filter.matching reference.clientNamespace = true ∧
    (∀ kind, ∃ references, removal.listed kind = some references ∧ reference ∉ references) ∧ reference ∈ removal.confirmed

def ClientWorld.Served (s : ClientWorld) : Prop := ∀ reference since, s.enabledSince reference = some since →
  (reference,since) ∈ s.wrote → ∃ record, s.records reference.clientId = some record ∧ record.reference = some reference

structure Deletion.Founded (s : ClientWorld) (deletion : Deletion) (record : ClientRecord) : Prop where
  swept : deletion.isSweep = true → ∃ reference seen, deletion.basis = some (reference,seen) ∧ record.reference = some reference
  enabled : ∀ reference since, record.reference = some reference → s.enabledSince reference = some since →
    ∃ seen, deletion.basis = some (reference,seen) ∧ record.written ≤ seen

def Timely (s : ClientWorld) : ClientCall → Prop
  | .write (.del id deletion) => s.outcome = .refused ∨ ∀ record, s.records id = some record → deletion.Founded s record
  | .write (.set client) => s.outcome = .refused ∨ ∀ record reference, s.records client.clientId = some record →
      record.reference = some reference → reference = client.reference ∨ s.enabledSince reference = none
  | _ => True

namespace ClientPool

def InTime (pool : ClientPool) : ClientMove → Prop
  | .proceed n outcome hasSecret => (facing outcome hasSecret pool).Ready (fun _ => Timely) n
  | _ => True

end ClientPool

/- A state to start from: nothing has been swept or told of; records are under the ids of their clients, and those that
handlers have written are there. -/
structure ClientWorld.Begins (s : ClientWorld) : Prop where
  unswept : s.removals = []
  untold : s.events = []
  filed : ∀ id record reference, s.records id = some record → record.reference = some reference → id = reference.clientId
  since : ∀ reference since, s.enabledSince reference = some since → since ≤ s.clock
  wrote : ∀ entry ∈ s.wrote, entry.2 ≤ s.clock
  served : ∀ reference since, s.enabledSince reference = some since → (reference,since) ∈ s.wrote →
    ∃ record, s.records reference.clientId = some record ∧ record.reference = some reference ∧ since < record.written

end Passmower
