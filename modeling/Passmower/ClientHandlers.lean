import Passmower.ActivityTracker
import Passmower.Claims
import Passmower.IngressRedirects
import Passmower.Encoding.Uuid
import Passmower.Resumption.Pool
import Passmower.SecretData

/-! The handlers of the operators of clients, call by call: what they read and write of a client's Secret, its Traefik
Middleware, its Redis record and its status. `ClientSweep` has the same handlers as far as a record's being there goes. -/
namespace Passmower.ClientHandlers
open JavaScript Resumption Program Encoding SecretData

structure ClientSpec where
  grantTypes : List String := []
  responseTypes : List String := []
  tokenEndpointAuthMethod : String := "client_secret_basic"
  idTokenSignedResponseAlg : String := "RS256"
  applicationType : String := "web"
  redirectUris : List String := []
  ingressRef : Option String := none
  redirectPaths : List String := []
  allowedGroups : List String := []
  allowedUsers : List String := []
  claimMappings : Option Json := none
  overrideIncomingScopes : Option Bool := none
  availableScopes : List String := []
  availableScopesDelimiter : String := ","
  allowedResources : Option (List String) := none
  uri : Option String := none
  displayName : Option String := none
  pkce : Bool := true
  allowedCORSOrigins : Option (List String) := none
  displayOrder : Int := 0
  headerMapping : List (String × String) := []
  secretRefreshJobSpec : Bool := false
  disabled : Bool := false

structure ReadyCondition where
  status : Bool
  reason : String
  message : String
  deriving DecidableEq, Repr

structure Client where
  reference : Reference
  generation : Nat := 1
  description : Option String := none
  resourceVersion : Nat := 1
  boundTo : Option String := none
  ready : Option ReadyCondition := none
  spec : ClientSpec
  clientSecret : Option JsonValue := none

structure ClientRecord where
  kind : ClientKind
  clientId : String
  clientName : String
  clientNamespace : String
  clientSecret : Option JsonValue
  grantTypes : List String
  tokenEndpointAuthMethod : Option String := none
  idTokenSignedResponseAlg : Option String := none
  applicationType : Option String := none
  responseTypes : List String
  redirectUris : List String
  allowedGroups : List String
  allowedUsers : List String
  claimMappings : Option Json := none
  availableScopes : List String
  allowedResources : Option (List String) := none
  instanceUri : Option String := none
  uri : Option String
  displayName : Option String
  pkce : Option Bool := none
  overrideIncomingScopes : Option Bool := none
  allowedCORSOrigins : Option (List String) := none
  headerMapping : Option (List (String × String)) := none
  displayOrder : Int
  description : Option String

/- What a process is configured with: `urlFor` is the provider's, `resolve` is `new URL(path, base).href`, `origin` that of a
URL, unless it is opaque, and `buffered` what `Buffer.from` makes of a value that is neither a text nor an array, if it takes
it. -/
structure OperatorSettings where
  own : String
  issuerUrl : String
  wellKnownUri : String
  idpDisplayName : String
  forwardAuthRedirectUri : String
  ingressDiscoveryEnabled : Bool
  urlFor : String → String
  resolve : String → String → Option String
  origin : String → Option String
  buffered : JsonValue → Option Bytes

def clientSecretKey : Utf16 := units "OIDC_CLIENT_SECRET"

def clientUri (uri : Option String) : String :=
  String.ofList ((trim (uri.getD "")).toList.reverse.dropWhile (· = '/')).reverse

def clientOrigin (origin : String → Option String) (uri : Option String) : String :=
  if clientUri uri = "" then "" else (origin (clientUri uri)).getD ""

def isTruthy : JsonValue → Bool
  | .null => false
  | .bool value => value
  | .number (.finite value) => value ≠ 0
  | .string text => text ≠ []
  | .number (.infinite _) | .array _ | .object _ => true

namespace Client
variable (settings : OperatorSettings) (client : Client)

def clientId : String := client.reference.clientId

def isDisabled : Bool := client.spec.disabled

def hasSecret : Bool := client.clientSecret.any isTruthy

def usesClientSecret : Bool := client.spec.tokenEndpointAuthMethod ≠ "none"

def setSecret (secret : Option JsonValue) : Client := {client with clientSecret := secret}

def setResolvedIngress (resolved : ResolvedIngress) : Client :=
  {client with spec := {client.spec with uri := some resolved.uri, redirectUris := resolved.redirectUris}}

/- The record of a client; that of a middleware client has a `client_secret` of its own. -/
def toRedis (middlewareSecret : Option Uuid) : ClientRecord := match client.reference.clientKind with
  | .oidcClient => {
      kind := .oidcClient, clientId := client.clientId, clientName := client.reference.clientName,
      clientNamespace := client.reference.clientNamespace, clientSecret := client.clientSecret,
      grantTypes := client.spec.grantTypes, tokenEndpointAuthMethod := some client.spec.tokenEndpointAuthMethod,
      idTokenSignedResponseAlg := some client.spec.idTokenSignedResponseAlg,
      applicationType := some client.spec.applicationType, responseTypes := client.spec.responseTypes,
      redirectUris := client.spec.redirectUris, allowedGroups := client.spec.allowedGroups,
      allowedUsers := client.spec.allowedUsers, claimMappings := client.spec.claimMappings,
      availableScopes := client.spec.availableScopes, allowedResources := client.spec.allowedResources,
      instanceUri := some settings.issuerUrl, uri := client.spec.uri, displayName := client.spec.displayName,
      pkce := some client.spec.pkce, overrideIncomingScopes := client.spec.overrideIncomingScopes,
      allowedCORSOrigins := client.spec.allowedCORSOrigins, displayOrder := client.spec.displayOrder,
      description := client.description}
  | .oidcMiddlewareClient => {
      kind := .oidcMiddlewareClient, clientId := client.clientId, clientName := client.reference.clientName,
      clientNamespace := client.reference.clientNamespace
      clientSecret := middlewareSecret.map fun uuid => .string uuid.text
      grantTypes := ["implicit"], responseTypes := ["id_token"], redirectUris := [settings.forwardAuthRedirectUri],
      availableScopes := ["openid"], allowedGroups := client.spec.allowedGroups, allowedUsers := client.spec.allowedUsers,
      headerMapping := some client.spec.headerMapping, uri := client.spec.uri, displayName := client.spec.displayName,
      displayOrder := client.spec.displayOrder, description := client.description}

def describedInSecret : List (String × String) := [
  ("OIDC_CLIENT_ID",client.clientId),
  ("OIDC_GRANT_TYPES",",".intercalate client.spec.grantTypes),
  ("OIDC_RESPONSE_TYPES",",".intercalate client.spec.responseTypes),
  ("OIDC_TOKEN_ENDPOINT_AUTH_METHOD",client.spec.tokenEndpointAuthMethod),
  ("OIDC_ID_TOKEN_SIGNED_RESPONSE_ALG",client.spec.idTokenSignedResponseAlg),
  ("OIDC_REDIRECT_URIS",",".intercalate client.spec.redirectUris),
  ("OIDC_CLIENT_URI",clientUri client.spec.uri),
  ("OIDC_CLIENT_ORIGIN",clientOrigin settings.origin client.spec.uri),
  ("OIDC_IDP_URI",settings.issuerUrl),
  ("OIDC_IDP_DISPLAY_NAME",settings.idpDisplayName),
  ("OIDC_IDP_WELL_KNOWN_URI",settings.wellKnownUri),
  ("OIDC_AVAILABLE_SCOPES",client.spec.availableScopesDelimiter.intercalate client.spec.availableScopes),
  ("OIDC_IDP_AUTH_URI",settings.urlFor "authorization"),
  ("OIDC_IDP_TOKEN_URI",settings.urlFor "token"),
  ("OIDC_IDP_USERINFO_URI",settings.urlFor "userinfo"),
  ("OIDC_ALLOWED_GROUPS",",".intercalate client.spec.allowedGroups),
  ("OIDC_ALLOWED_USERS",",".intercalate client.spec.allowedUsers)]

def toClientSecret : List (Utf16 × Option JsonValue) :=
  (client.describedInSecret settings).map (fun field => (units field.1,some (.string (units field.2)))) ++
    if client.usesClientSecret then [(clientSecretKey,client.clientSecret)] else []

def getReconcileFingerprint : Nat × Option String := (client.generation,client.description)

def updateReadyCondition (condition : ReadyCondition) : Bool × Client :=
  (client.ready ≠ some condition,{client with ready := some condition})

end Client

/- The field a value is sent as, if `Buffer.from` takes it; no value that is neither a text nor truthy gets here. -/
def field? (buffered : JsonValue → Option Bytes) : Option JsonValue → Option (Option Utf16)
  | none => some none
  | some (.string text) => some (SecretValue.text text).field?
  | some (.array items) => some (some (base64 (utf8 (stringify (.array items)))))
  | some value => (buffered value).map fun bytes => some (base64 bytes)

abbrev SecretBytes := SecretData.Stored

abbrev Sent := List (Utf16 × Option Utf16)

abbrev Parsed := List (Utf16 × JsonValue)

def generateSecretData (buffered : JsonValue → Option Bytes) (model : List (Utf16 × Option JsonValue)) : Option Sent :=
  model.mapM fun field => (field? buffered field.2).map fun sent => (field.1,sent)

def secretDataChanged (existing : Parsed) (desired : List (Utf16 × Option JsonValue)) : Bool :=
  (existing.map Prod.fst ++ desired.map Prod.fst).eraseDups.any fun key =>
    asString (existing.lookup key) ≠ asString (desired.lookup key).join

def changesKey (existing : Parsed) (data : Sent) (key : Utf16) : Bool :=
  match (data.lookup key).join, existing.lookup key with
  | some text, some (.string value) => value ≠ text
  | some _, _ | none, some _ => true
  | none, none => false

def patched (existing : Parsed) (data : Sent) (current : SecretBytes) : SecretBytes :=
  kept (data.filter fun field => changesKey existing data field.1) ++
    current.filter fun field => !changesKey existing data field.1

structure HandlerError where
  reason : Option String := none
  message : String
  deriving DecidableEq, Repr

inductive Creation where
  | created
  | alreadyExists
  | failed

/- The calls that answer only whether they went through. -/
inductive Effect where
  | createMiddleware (client : Client)
  | patchMiddleware (client : Client)
  | patchSecret (reference : Reference) (existing : Parsed) (data : Sent)
  /- one that exists is as good as one that is created -/
  | createJob (reference : Reference) (resourceVersion : Nat)
  | set (id : String) (record : ClientRecord)
  | sadd (id : String)
  | del (id : String)
  | srem (id : String)

inductive OperatorCall where
  | getIngress (clientNamespace name : String)
  | getMiddleware (reference : Reference)
  | getSecret (reference : Reference)
  | createSecret (reference : Reference) (data : Sent)
  /- with the readiness that is reported, if any -/
  | replaceClientStatus (client : Client) (reported : Option ReadyCondition)
  | createEvent (client : Client) (reason message : String)
  | delay
  | find (id : String)
  | attempt (effect : Effect)
  | randomUUID
  | isCurrent (client : Client)
  | register (client : Client)
  | shouldReconcile (client : Client)
  | unregister (client : Client)

abbrev OperatorAnswer : OperatorCall → Type
  | .getIngress _ _ => Option Ingress
  | .getSecret _ => Option Parsed
  | .createSecret _ _ => Creation
  | .replaceClientStatus _ _ => Option Client
  | .createEvent _ _ _ | .delay | .register _ | .unregister _ => Unit
  | .find _ => Option (Option ClientRecord)
  | .getMiddleware _ | .attempt _ | .isCurrent _ | .shouldReconcile _ => Bool
  | .randomUUID => Uuid

abbrev operatorCalls : Interface := ⟨OperatorCall,OperatorAnswer⟩

/- The fingerprints are kept in memory. -/
def OperatorCall.awaits : OperatorCall → Bool
  | .randomUUID | .isCurrent _ | .register _ | .shouldReconcile _ | .unregister _ => false
  | _ => true

abbrev Handling := Program operatorCalls HandlerError

def must (effect : Effect) (error : HandlerError) : Handling Unit := do
  let done : Bool ← ask (I := operatorCalls) (.attempt effect)
  if done then .pure () else .throw error

def closed : HandlerError := ⟨none,"Connection is closed."⟩

namespace ClientRedis

def find (id : String) : Handling (Option ClientRecord) := do
  let answer : Option (Option ClientRecord) ← ask (I := operatorCalls) (.find id)
  match answer with
  | some record => .pure record
  | none => .throw closed

def upsert (id : String) (record : ClientRecord) : Handling Unit := do
  must (.set id record) closed
  must (.sadd id) closed

def destroy (id : String) : Handling Unit := do
  let _ ← find id
  must (.del id) closed
  must (.srem id) closed

end ClientRedis

section Operators
variable (settings : OperatorSettings)

def reconcileError (reason message : String) : HandlerError := ⟨some reason,message⟩

def generateSecret (client : Client) : Handling Client := do
  let uuid : Uuid ← ask (I := operatorCalls) .randomUUID
  .pure (client.setSecret (some (.string uuid.text)))

def reconcileRefreshJob (client : Client) : Handling Unit :=
  if !client.spec.secretRefreshJobSpec then .pure ()
  else must (.createJob client.reference client.resourceVersion)
    (reconcileError "RefreshJobReconcileFailed" "Failed to create secret-refresh Job")

def secretData (client : Client) : Handling Sent :=
  match generateSecretData settings.buffered (client.toClientSecret settings) with
  | some data => .pure data
  | none => .throw ⟨none,"The first argument must be of type string or an instance of Buffer"⟩

def patchKubeSecret (client : Client) (existing : Parsed) (refreshOnlyIfChanged : Bool) : Handling Client := do
  let data ← secretData settings client
  must (.patchSecret client.reference existing data)
    (reconcileError "SecretReconcileFailed" "Failed to update client Secret")
  if !refreshOnlyIfChanged || secretDataChanged existing (client.toClientSecret settings) then do
    reconcileRefreshJob client
    .pure client
  else .pure client

def adoptKubeSecret (client : Client) (existing : Parsed) (refreshOnlyIfChanged : Bool) : Handling Client := do
  let existingClientSecret := existing.lookup clientSecretKey
  let client ← if existingClientSecret.any isTruthy || !client.usesClientSecret then
      .pure (client.setSecret existingClientSecret)
    -- a public client's Secret has none to adopt
    else generateSecret client
  patchKubeSecret settings client existing refreshOnlyIfChanged

/- Whoever creates the Secret first wins, everyone else adopts it. -/
def reconcileClientSecret (client : Client) (refreshOnlyIfChanged : Bool) : Handling Client := do
  let existing : Option Parsed ← ask (I := operatorCalls) (.getSecret client.reference)
  match existing with
  | some existing => adoptKubeSecret settings client existing refreshOnlyIfChanged
  | none => do
      let client ← generateSecret client
      let data ← secretData settings client
      let creation : Creation ← ask (I := operatorCalls) (.createSecret client.reference data)
      match creation with
      | .created => do
          reconcileRefreshJob client
          .pure client
      | .failed => .throw (reconcileError "SecretReconcileFailed" "Failed to create client Secret")
      | .alreadyExists => do
          let secret : Option Parsed ← ask (I := operatorCalls) (.getSecret client.reference)
          match secret with
          | some secret => adoptKubeSecret settings client secret false
          | none => .throw (reconcileError "SecretReconcileFailed" "Client Secret exists but could not be read")

def assertValidClaimMappings (client : Client) : Handling Unit :=
  let problems := validateClaimMappings client.spec.claimMappings
  if problems = [] then .pure ()
  else .throw (reconcileError "InvalidClaimMappings" ("Invalid spec.claimMappings: " ++ "; ".intercalate problems))

def resolveIngress (client : Client) : Handling Client := match client.spec.ingressRef.filter (· ≠ "") with
  | none => .pure client
  | some name =>
      if !settings.ingressDiscoveryEnabled then .throw (reconcileError "IngressRefUnresolved"
        "spec.ingressRef needs Ingress access: set passmower.ingressDiscovery.enabled")
      else do
        let ingress : Option Ingress ← ask (I := operatorCalls) (.getIngress client.reference.clientNamespace name)
        match resolveIngressRef settings.resolve ingress client.spec.redirectPaths with
        | some (.ok resolved) => .pure (client.setResolvedIngress resolved)
        | some (.error problems) => .throw (reconcileError "IngressRefUnresolved"
            (s!"Cannot resolve spec.ingressRef {name}: " ++ "; ".intercalate problems))
        | none => .throw ⟨none,"Invalid URL"⟩

def replaceClientStatus (client : Client) (reported : Option ReadyCondition) : Handling (Option Client) :=
  ask (I := operatorCalls) (.replaceClientStatus client reported)

def reportReady (client : Client) (reason message : String) : Handling Unit := do
  let (changed,client) := client.updateReadyCondition ⟨true,reason,message⟩
  let updated ← replaceClientStatus client (some ⟨true,reason,message⟩)
  if changed && updated.isSome then ask (I := operatorCalls) (.createEvent client reason message) else .pure ()

def reportFailure (client : Client) (error : HandlerError) : Handling Unit := do
  let reason := error.reason.getD "ReconcileFailed"
  let (changed,client) := client.updateReadyCondition ⟨false,reason,error.message⟩
  let _ ← replaceClientStatus client (some ⟨false,reason,error.message⟩)
  if changed then ask (I := operatorCalls) (.createEvent client reason error.message) else .pure ()

def reporting (client : Client) (body : Handling Unit) : Handling Unit := body.tryCatch (reportFailure client)

def disable (client : Client) : Handling Unit := do
  ClientRedis.destroy client.clientId
  reportReady client "Disabled" "Client is disabled and absent from Redis"

def reconciled (kind : ClientKind) : String := match kind with
  | .oidcClient => "Client reconciliation completed successfully"
  | .oidcMiddlewareClient => "Traefik Middleware and Redis record are up to date"

def store (client : Client) (middlewareSecret : Option Uuid) : Handling Unit := do
  ClientRedis.upsert client.clientId (client.toRedis settings middlewareSecret)
  reportReady client "Reconciled" (reconciled client.reference.clientKind)

def settleCreated (client : Client) : Handling Unit :=
  if client.isDisabled then disable client
  else if client.hasSecret then store settings client none
  else reportReady client "Reconciled" (reconciled client.reference.clientKind)

def reconcileAdded (client : Client) (refreshOnlyIfChanged : Bool) : Handling Unit := do
  let client ← reconcileClientSecret settings client refreshOnlyIfChanged
  settleCreated settings client

def reconcileModified (client : Client) : Handling Unit := do
  ask (I := operatorCalls) .delay
  let client ← reconcileClientSecret settings client false
  store settings client none

def whenOurs (client : Client) (next : Client → Handling Unit) : Handling Unit :=
  if client.boundTo = some settings.own then next client
  else match client.boundTo with
    | some _ => .pure ()
    | none => do
        let claimed ← replaceClientStatus client none
        match claimed.filter (·.boundTo = some settings.own) with
        | some claimed => next claimed
        | none => .pure ()

def createOIDCClient (client : Client) : Handling Unit := do
  let replayed : Bool ← ask (I := operatorCalls) (.isCurrent client)
  ask (I := operatorCalls) (.register client)
  -- the mappings are looked at before the claim, and what fails after it is reported on the claimed client
  match validateClaimMappings client.spec.claimMappings with
  | _ :: _ => reporting client (assertValidClaimMappings client)
  | [] =>
      if client.boundTo = some settings.own then reporting client do
        let client ← resolveIngress settings client
        let known ← if replayed then ClientRedis.find client.clientId else .pure none
        if known.isSome then settleCreated settings client else reconcileAdded settings client true
      else whenOurs settings client fun client => reporting client do
        let client ← resolveIngress settings client
        reconcileAdded settings client false

def updateOIDCClient (forced : Bool) (client : Client) : Handling Unit := do
  let changed : Bool ← ask (I := operatorCalls) (.shouldReconcile client)
  if !changed && !forced then .pure ()
  else whenOurs settings client fun client => reporting client do
    assertValidClaimMappings client
    let client ← resolveIngress settings client
    if client.isDisabled then disable client else reconcileModified settings client

def createOrReplaceClientMiddleware (client : Client) : Handling Unit := do
  let existing : Bool ← ask (I := operatorCalls) (.getMiddleware client.reference)
  if existing then
    must (.patchMiddleware client) (reconcileError "MiddlewareReconcileFailed" "Failed to update Traefik Middleware")
  else must (.createMiddleware client) (reconcileError "MiddlewareReconcileFailed" "Failed to create Traefik Middleware")

def storeMiddlewareClient (client : Client) : Handling Unit := do
  let uuid : Uuid ← ask (I := operatorCalls) .randomUUID
  store settings client (some uuid)

def createOIDCMiddlewareClient (client : Client) : Handling Unit := do
  ask (I := operatorCalls) (.register client)
  whenOurs settings client fun client => reporting client do
    createOrReplaceClientMiddleware client
    if client.isDisabled then disable client else storeMiddlewareClient settings client

def updateOIDCMiddlewareClient (client : Client) : Handling Unit := do
  let changed : Bool ← ask (I := operatorCalls) (.shouldReconcile client)
  if !changed then .pure ()
  else whenOurs settings client fun client => reporting client do
    if client.isDisabled then disable client
    else do
      ask (I := operatorCalls) .delay
      createOrReplaceClientMiddleware client
      storeMiddlewareClient settings client

/- A failure is only logged, with either kind of client. -/
def deleteOIDCClient (client : Client) : Handling Unit := do
  ask (I := operatorCalls) (.unregister client)
  if client.boundTo ≠ some settings.own then .pure ()
  else (ClientRedis.destroy client.clientId).tryCatch fun _ => .pure ()

end Operators

inductive EventType where
  | added
  | modified
  | deleted
  deriving DecidableEq, Repr

structure WatchEvent where
  type : EventType
  client : Client

def WatchEvent.handler (settings : OperatorSettings) (event : WatchEvent) : Handling Unit :=
  match event.type, event.client.reference.clientKind with
  | .added, .oidcClient => createOIDCClient settings event.client
  | .added, .oidcMiddlewareClient => createOIDCMiddlewareClient settings event.client
  | .modified, .oidcClient => updateOIDCClient settings false event.client
  | .modified, .oidcMiddlewareClient => updateOIDCMiddlewareClient settings event.client
  | .deleted, _ => deleteOIDCClient settings event.client

end Passmower.ClientHandlers
