import Passmower.ReadyHonesty

/-! The ADDED events that operators are told first: what they make of the Redis records, whatever Redis has lost. The handlers
of different clients overlap. -/
namespace Passmower.ClientHandlers
open Resumption Program Encoding SecretData

/- The Secrets and the Middlewares of the clients, their records, and the Ingresses; the UUIDs that are still to be drawn. -/
structure ReplayWorld where
  secrets : Reference → Option SecretBytes
  records : String → Option ClientRecord
  ingresses : String → String → Option Ingress
  middlewares : Reference → Bool
  uuids : Nat → Uuid
  issued : Nat := 0

namespace ReplayWorld
variable (s : ReplayWorld)

def setSecret (reference : Reference) (secret : SecretBytes) : ReplayWorld :=
  {s with secrets := fun other => if other = reference then some secret else s.secrets other}

def setRecord (id : String) (record : Option ClientRecord) : ReplayWorld :=
  {s with records := fun other => if other = id then record else s.records other}

/- An effect, carried out; a Secret that is not there cannot be patched. -/
def carried : Effect → Bool × ReplayWorld
  | .createMiddleware client | .patchMiddleware client =>
      (true,{s with middlewares := fun other => other = client.reference || s.middlewares other})
  | .patchSecret reference existing data => match s.secrets reference with
      | some current => (true,s.setSecret reference (patched existing data current))
      | none => (false,s)
  | .set id record => (true,s.setRecord id (some record))
  | .del id => (true,s.setRecord id none)
  | .createJob _ _ | .sadd _ | .srem _ => (true,s)

end ReplayWorld

def answerReplay (own : String) : Handler operatorCalls Unit ReplayWorld := fun _ c s => match c with
  | .getIngress clientNamespace name => (s.ingresses clientNamespace name,s)
  | .getMiddleware reference => (s.middlewares reference,s)
  | .getSecret reference => ((s.secrets reference).bind readable?,s)
  | .createSecret reference data => match s.secrets reference with
      | some _ => (.alreadyExists,s)
      | none => (.created,s.setSecret reference (kept data))
  | .attempt effect => s.carried effect
  | .replaceClientStatus client _ => (some (client.claimed own),s)
  | .find id => (some (s.records id),s)
  | .randomUUID => (s.uuids s.issued,{s with issued := s.issued + 1})
  | .isCurrent _ => (false,s)
  | .shouldReconcile _ => (true,s)
  | .createEvent _ _ _ | .delay | .register _ | .unregister _ => ((),s)

structure Resource (own : String) where
  client : Client
  ours : client.boundTo = some own ∨ client.boundTo = none

inductive ReplayMove where
  /- the next resource is told of -/
  | tell
  | proceed (n : Nat)

abbrev ReplayPool := Pool operatorCalls HandlerError ReplayWorld

section Replays
variable (settings : OperatorSettings)

def addedHandler (client : Client) : Handling Unit := match client.reference.clientKind with
  | .oidcClient => createOIDCClient settings client
  | .oidcMiddlewareClient => createOIDCMiddlewareClient settings client

namespace ReplayPool

def step (resources : List (Resource settings.own)) (pool : ReplayPool) : ReplayMove → ReplayPool
  | .tell => match resources[pool.threads.length]? with
      | some resource =>
          pool.spawn (fun _ => answerReplay settings.own) OperatorCall.awaits (addedHandler settings resource.client)
      | none => pool
  | .proceed n => pool.proceed (fun _ => answerReplay settings.own) OperatorCall.awaits n ()

def run (resources : List (Resource settings.own)) (moves : List ReplayMove) (start : ReplayWorld) : ReplayPool :=
  moves.foldl (step settings resources) ⟨[],start⟩

end ReplayPool

def ReplayWorld.ingress (s : ReplayWorld) (client : Client) : Option Ingress :=
  s.ingresses client.reference.clientNamespace (client.spec.ingressRef.getD "")

def held? (secret : Option SecretBytes) : Option JsonValue :=
  secret.bind fun stored => ((readBack stored).lookup clientSecretKey).filter isTruthy

def IsRecord (s : ReplayWorld) (client : Client) (record : ClientRecord) : Prop := match client.reference.clientKind with
  | .oidcClient => ∃ resolved secret, resolved? settings (s.ingress client) client = some resolved ∧
      (∀ value, held? (s.secrets client.reference) = some value → secret = some value) ∧
      (held? (s.secrets client.reference) = none → ∃ uuid : Uuid, secret = some (.string uuid.text)) ∧
      record = (resolved.setSecret secret).toRedis settings none
  | .oidcMiddlewareClient => ∃ uuid, record = client.toRedis settings (some uuid)

def IsRestored (s : ReplayWorld) (client : Client) (record : Option ClientRecord) : Prop :=
  if client.isDisabled then record = none else ∃ its, record = some its ∧ IsRecord settings s client its

def Adoptable (secret : Option SecretBytes) (client : Client) : Prop := ∀ stored, secret = some stored → stored ≠ [] ∧
  (client.usesClientSecret = true → ∀ value, held? (some stored) = some value → (field? settings.buffered (some value)).isSome)

/- The ADDED of a client sees to its record: an OIDCClient's, if its claim mappings are valid, its Ingress can be resolved and
its Secret adopted; and unless it is enabled and public, and its Secret is there and has no `client_secret`. -/
def SeenTo (s : ReplayWorld) (client : Client) : Prop := match client.reference.clientKind with
  | .oidcClient => validateClaimMappings client.spec.claimMappings = [] ∧
      (resolved? settings (s.ingress client) client).isSome ∧ Adoptable settings (s.secrets client.reference) client ∧
      (client.isDisabled = true ∨ ¬ Secretless (s.secrets client.reference) client)
  | .oidcMiddlewareClient => True

structure Outcome (start : ReplayWorld) (client : Client) (record : Option ClientRecord) : Prop where
  restored : SeenTo settings start client → IsRestored settings start client record
  left : ¬ SeenTo settings start client → record = start.records client.clientId

end Replays

section Views
variable {settings : OperatorSettings} {client : Client} {reference : Reference} {a b c s t u v start : ReplayWorld}

structure Beside (reference : Reference) (a b : ReplayWorld) : Prop where
  record : b.records reference.clientId = a.records reference.clientId
  secret : b.secrets reference = a.secrets reference
  ingresses : b.ingresses = a.ingresses

structure Within (reference : Reference) (a b : ReplayWorld) : Prop where
  records : ∀ id, id ≠ reference.clientId → b.records id = a.records id
  secrets : ∀ other, other ≠ reference → b.secrets other = a.secrets other
  ingresses : b.ingresses = a.ingresses

theorem besideTrans (first : Beside reference a b) (second : Beside reference b c) : Beside reference a c :=
  ⟨second.record.trans first.record,second.secret.trans first.secret,second.ingresses.trans first.ingresses⟩

end Views

section Data
variable {settings : OperatorSettings} {client : Client}

end Data

section Threads
variable {settings : OperatorSettings} {client : Client} {own : String} {existing : Parsed} {refreshOnlyIfChanged : Bool}
  {record : Option ClientRecord} {t u v start : ReplayWorld}

def Leaves (client : Client) (record : Option ClientRecord) (t u : ReplayWorld) : Prop :=
  Within client.reference t u ∧ u.records client.clientId = record

structure Supplied (start : ReplayWorld) (client : Client) (secret : Option JsonValue) : Prop where
  held : ∀ value, held? (start.secrets client.reference) = some value → secret = some value
  drawn : held? (start.secrets client.reference) = none → secret.any isTruthy = true →
    ∃ uuid : Uuid, secret = some (.string uuid.text)
  truthy : secret.any isTruthy = true ↔ ¬ Secretless (start.secrets client.reference) client

def Taken (settings : OperatorSettings) (start : ReplayWorld) (client : Client) (r : Except HandlerError Client)
    (t u : ReplayWorld) : Prop :=
  Leaves client (start.records client.clientId) t u ∧ match r with
    | .ok taken => Adoptable settings (start.secrets client.reference) client ∧ ∃ secret,
        taken = client.setSecret secret ∧ Supplied start client secret
    | .error _ => ¬ Adoptable settings (start.secrets client.reference) client

end Threads
section Pools
variable (settings : OperatorSettings) (resources : List (Resource settings.own))

variable {settings resources} {n m : Nat} {a b c start : ReplayWorld} {pool : ReplayPool}
  {resource other : Resource settings.own}

end Pools

namespace Grafana

def confidentialSecret : Option SecretBytes := (generateSecretData settings.buffered
  (((client "client_secret_basic").setSecret (some (.string (uuids 7).text))).toClientSecret settings)).map kept

def wiped : ReplayWorld where
  secrets other := if other = reference then confidentialSecret else none
  records _ := none
  ingresses _ _ := none
  middlewares _ := false
  uuids := uuids

def replayed : List (Resource settings.own) := [
  ⟨client "client_secret_basic",.inl rfl⟩,
  ⟨{client "none" with reference := ⟨"apps","traefik",.oidcMiddlewareClient⟩, boundTo := none},.inr rfl⟩]

end Grafana

end Passmower.ClientHandlers
