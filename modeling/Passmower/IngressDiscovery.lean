import Passmower.JavaScript
import Passmower.Resumption.Stepping

/-! Ingress discovery: an annotated Ingress is materialised as an OIDCClient that it owns. A
client that exists is merged with what the annotations describe now, so a list the annotations
no longer give stays on the client. -/
namespace Passmower
open JavaScript Resumption

structure Ingress where
  name : String
  uid : String
  annotations : List (String × String) := []
  rules : List (Option String) := []
  deriving DecidableEq, Repr

structure OidcClientSpec where
  displayName : Option String := none
  uri : Option String := none
  redirectUris : Option (List String) := none
  grantTypes : Option (List String) := none
  responseTypes : Option (List String) := none
  availableScopes : Option (List String) := none
  allowedGroups : Option (List String) := none
  allowedUsers : Option (List String) := none
  deriving DecidableEq, Repr

structure OidcClient where
  discoveredFrom : Option String
  owner : Option String := none
  spec : OidcClientSpec
  others : List (String × String) := []
  deriving DecidableEq, Repr

structure DiscoveryEvent where
  reason : String
  message : String
  kind : String := "Warning"
  deriving DecidableEq, Repr

structure Discovery where
  client : Option OidcClient := none
  events : List DiscoveryEvent := []
  deriving DecidableEq, Repr

structure ClientApi where
  reads : Bool := true
  writes : Bool := true
  defaults : List (String × String) := []

def annotationPrefix : String := "codemowers.io/oidc-"

def annotationKey (suffix : String) : String := annotationPrefix ++ suffix

def Ingress.annotated (ingress : Ingress) (suffix : String) : Option String :=
  (ingress.annotations.find? (fun entry => entry.1 == annotationKey suffix)).map Prod.snd

def Ingress.listed (ingress : Ingress) (suffix : String) : List String :=
  ((split ',' ((ingress.annotated suffix).getD "")).map trim).filter (· ≠ "")

def requestsDiscovery (ingress : Ingress) : Bool :=
  ingress.annotations.any (fun entry => annotationPrefix.toList.isPrefixOf entry.1.toList)

def hostsOf (ingress : Ingress) : List String := (ingress.rules.filterMap id).filter (· ≠ "")

def discoveryProblems (ingress : Ingress) : List String :=
  let hosts := hostsOf ingress
  let listing := ", ".intercalate hosts
  (if hosts = [] then ["no host in spec.rules to build a redirect URI from"]
    else if hosts.length > 1 then
      [s!"{hosts.length} hosts in spec.rules; discovery supports one ({listing})"]
    else []) ++
  (if ingress.listed "redirect-path" = [] then [annotationKey "redirect-path" ++ " is required"] else [])

def orDefault (values fallback : List String) : List String := if values = [] then fallback else values

def nonempty (values : List String) : Option (List String) := if values = [] then none else some values

/- The spec an annotated Ingress describes; a path that is no URL makes it throw. `resolve` is
`new URL(path, base).href`. -/
def oidcClientSpecFor (resolve : String → String → Option String) (ingress : Ingress) : Option OidcClientSpec := do
  let host := ((hostsOf ingress)[0]?).getD "undefined"
  let redirectUris ← (ingress.listed "redirect-path").mapM (fun path => resolve path s!"https://{host}")
  some {
    displayName := some ((ingress.annotated "display-name").getD ingress.name)
    uri := some s!"https://{host}/"
    redirectUris := some redirectUris
    grantTypes := some (orDefault (ingress.listed "grant-types") ["authorization_code"])
    responseTypes := some (orDefault (ingress.listed "response-types") ["code"])
    availableScopes := some (orDefault (ingress.listed "available-scopes") ["openid"])
    allowedGroups := nonempty (ingress.listed "allowed-groups")
    allowedUsers := nonempty (ingress.listed "allowed-users") }

def isDiscoveredFrom (client : OidcClient) (ingress : Ingress) : Bool :=
  client.discoveredFrom = some s!"Ingress.{ingress.name}"

def OidcClientSpec.spread (existing spec : OidcClientSpec) : OidcClientSpec where
  displayName := spec.displayName <|> existing.displayName
  uri := spec.uri <|> existing.uri
  redirectUris := spec.redirectUris <|> existing.redirectUris
  grantTypes := spec.grantTypes <|> existing.grantTypes
  responseTypes := spec.responseTypes <|> existing.responseTypes
  availableScopes := spec.availableScopes <|> existing.availableScopes
  allowedGroups := spec.allowedGroups <|> existing.allowedGroups
  allowedUsers := spec.allowedUsers <|> existing.allowedUsers

def OidcClientSpec.address (spec : OidcClientSpec) : String := spec.uri.getD "undefined"

def Discovery.event (s : Discovery) (reason message : String) (kind : String := "Warning") : Discovery :=
  {s with events := s.events ++ [⟨reason,message,kind⟩]}

def createClient (api : ClientApi) (ingress : Ingress) (spec : OidcClientSpec) (s : Discovery) : Discovery :=
  -- A name that is taken refuses the creation as well.
  if api.writes && s.client.isNone then
    {s with client := some ⟨some s!"Ingress.{ingress.name}",some ingress.uid,spec,api.defaults⟩}.event
      "OIDCClientDiscovered" s!"Created OIDCClient {ingress.name} for {spec.address}" "Normal"
  else s.event "IngressDiscoveryFailed" s!"Failed to create OIDCClient {ingress.name}"

def patchClient (api : ClientApi) (ingress : Ingress) (existing : OidcClient) (spec : OidcClientSpec)
    (s : Discovery) : Discovery :=
  let desired := existing.spec.spread spec
  if desired = existing.spec then s
  else if api.writes then
    {s with client := some {existing with spec := desired}}.event
      "OIDCClientDiscovered" s!"Updated OIDCClient {ingress.name} for {spec.address}" "Normal"
  else s.event "IngressDiscoveryFailed" s!"Failed to update OIDCClient {ingress.name}"

def withdrawClient (api : ClientApi) (ingress : Ingress) (s : Discovery) : Discovery :=
  (if api.writes then {s with client := none} else s).event
    "OIDCClientRemoved" s!"Removed generated OIDCClient {ingress.name}: no {annotationPrefix}* annotations remain" "Normal"

namespace IngressDiscovery

/- One version of the Ingress is reconciled. A read that fails finds no client. -/
def reconcile (api : ClientApi) (resolve : String → String → Option String) (ingress : Ingress)
    (s : Discovery) : Discovery :=
  let existing := if api.reads then s.client else none
  if !requestsDiscovery ingress then
    match existing with
    | some client => if isDiscoveredFrom client ingress then withdrawClient api ingress s else s
    | none => s
  else match existing.filter (fun client => !isDiscoveredFrom client ingress) with
    | some _ => s.event "OIDCClientConflict"
        s!"OIDCClient {ingress.name} already exists and was not discovered from this Ingress; not modifying it"
    | none =>
      let problems := discoveryProblems ingress
      if problems ≠ [] then
        s.event "IngressDiscoveryFailed" ("Cannot derive an OIDCClient: " ++ "; ".intercalate problems)
      else match oidcClientSpecFor resolve ingress, existing with
        | none, _ => s
        | some spec, some client => patchClient api ingress client spec s
        | some spec, none => createClient api ingress spec s

section Convergence
variable {defaults : List (String × String)} {resolve : String → String → Option String}
  {ingress : Ingress} {spec : OidcClientSpec} {s : Discovery}

def answering (defaults : List (String × String)) : ClientApi := ⟨true,true,defaults⟩

def Derives (resolve : String → String → Option String) (ingress : Ingress) (spec : OidcClientSpec) : Prop :=
  discoveryProblems ingress = [] ∧ oidcClientSpecFor resolve ingress = some spec

def Converged (resolve : String → String → Option String) (ingress : Ingress) (s : Discovery) : Prop :=
  ∀ spec, Derives resolve ingress spec → ∃ client ∈ s.client, client.spec = spec

def Relists (resolve : String → String → Option String) (ingress : Ingress) (s : Discovery) : Prop :=
  ∀ spec, Derives resolve ingress spec → ∀ client ∈ s.client,
    (client.spec.allowedGroups ≠ none → ingress.listed "allowed-groups" ≠ []) ∧
    (client.spec.allowedUsers ≠ none → ingress.listed "allowed-users" ≠ [])

def Ours (name : String) (s : Discovery) : Prop :=
  ∀ client ∈ s.client, client.discoveredFrom = some s!"Ingress.{name}"

theorem derivedFields (derived : oidcClientSpecFor resolve ingress = some spec) :
    spec.displayName ≠ none ∧ spec.uri ≠ none ∧ spec.redirectUris ≠ none ∧ spec.grantTypes ≠ none ∧
      spec.responseTypes ≠ none ∧ spec.availableScopes ≠ none ∧
      spec.allowedGroups = nonempty (ingress.listed "allowed-groups") ∧
      spec.allowedUsers = nonempty (ingress.listed "allowed-users") := by
  simp only [oidcClientSpecFor,bind,Option.bind_eq_some_iff] at derived
  obtain ⟨uris,_,last⟩ := derived
  cases Option.some.inj last
  simp

theorem derivesRequests (sound : discoveryProblems ingress = []) : requestsDiscovery ingress = true := by
  have paths : ingress.listed "redirect-path" ≠ [] := by
    intro empty
    simp [discoveryProblems,empty] at sound
  cases annotated : ingress.annotated "redirect-path" with
  | none =>
      exfalso
      apply paths
      rw [Ingress.listed,annotated]
      decide +kernel
  | some value =>
      obtain ⟨entry,found,_⟩ := Option.map_eq_some_iff.mp annotated
      apply List.any_eq_true.mpr
      refine ⟨entry,List.mem_of_find?_eq_some found,?_⟩
      have key : entry.1 = annotationKey "redirect-path" := by simpa using List.find?_some found
      rw [key]
      decide +kernel

variable (defaults) in
theorem createdClient (empty : s.client = none) : (createClient (answering defaults) ingress spec s).client =
    some ⟨some s!"Ingress.{ingress.name}",some ingress.uid,spec,defaults⟩ := by
  simp [createClient,answering,empty,Discovery.event]

variable (defaults) in
theorem patchedClient {existing : OidcClient} (held : s.client = some existing) :
    (patchClient (answering defaults) ingress existing spec s).client =
      some {existing with spec := existing.spec.spread spec} := by
  unfold patchClient
  simp only
  split
  · rename_i same
    rw [same]
    exact held
  · rfl

theorem notForeign (ours : Ours ingress.name s) :
    s.client.filter (fun client => !isDiscoveredFrom client ingress) = none := by
  apply Option.filter_eq_none_iff.mpr
  intro client held
  simp [isDiscoveredFrom,ours client held]

variable (defaults) in
theorem reconcileDerived (ours : Ours ingress.name s) (derives : Derives resolve ingress spec) :
    (reconcile (answering defaults) resolve ingress s).client = match s.client with
      | some existing => some {existing with spec := existing.spec.spread spec}
      | none => some ⟨some s!"Ingress.{ingress.name}",some ingress.uid,spec,defaults⟩ := by
  obtain ⟨sound,derived⟩ := derives
  have requested := derivesRequests sound
  have ownership := notForeign ours
  cases held : s.client with
  | none =>
      rw [held] at ownership
      simpa [reconcile,answering,requested,held,sound,derived] using createdClient defaults held
  | some existing =>
      rw [held] at ownership
      simpa [reconcile,answering,requested,held,ownership,sound,derived] using patchedClient defaults held

theorem reconcileOther (ours : Ours ingress.name s) (underived : ∀ spec, ¬ Derives resolve ingress spec) :
    (reconcile (answering defaults) resolve ingress s).client = s.client ∨
      (reconcile (answering defaults) resolve ingress s).client = none := by
  have ownership := notForeign ours
  unfold reconcile
  simp only [answering,if_true]
  split
  · cases held : s.client with
    | none => exact .inl held
    | some client =>
        simp only
        split
        · exact .inr rfl
        · exact .inl held
  · rw [ownership]
    simp only
    split
    · exact .inl rfl
    · rename_i sound
      have undefined : oidcClientSpecFor resolve ingress = none := by
        cases derived : oidcClientSpecFor resolve ingress with
        | none => rfl
        | some spec => exact absurd ⟨not_not.mp sound,derived⟩ (underived spec)
      rw [undefined]
      exact .inl rfl

theorem reconcileOurs (ours : Ours ingress.name s) : Ours ingress.name (reconcile (answering defaults) resolve ingress s) := by
  by_cases derivable : ∃ spec, Derives resolve ingress spec
  · obtain ⟨spec,derives⟩ := derivable
    intro client held
    rw [Option.mem_def,reconcileDerived defaults ours derives] at held
    cases before : s.client with
    | none =>
        rw [before] at held
        cases held
        rfl
    | some existing =>
        rw [before] at held
        cases held
        exact ours existing before
  · rcases reconcileOther ours (not_exists.mp derivable) with same | gone
    · intro client held
      exact ours client (same ▸ held)
    · intro client held
      rw [gone] at held
      cases held

theorem spreadExactly (derived : oidcClientSpecFor resolve ingress = some spec) (existing : OidcClientSpec) :
    existing.spread spec = spec ↔
      (existing.allowedGroups ≠ none → ingress.listed "allowed-groups" ≠ []) ∧
      (existing.allowedUsers ≠ none → ingress.listed "allowed-users" ≠ []) := by
  obtain ⟨named,addressed,redirects,grants,responses,scopes,groups,users⟩ := derivedFields derived
  have kept {α : Type} {new old : Option α} (given : new ≠ none) : (new <|> old) = new := by
    cases new with
    | none => exact absurd rfl given
    | some value => rfl
  have optional {values : List String} {old : Option (List String)} :
      (nonempty values <|> old) = nonempty values ↔ (old ≠ none → values ≠ []) := by
    by_cases empty : values = []
    · simp [nonempty,empty]
    · simp [nonempty,empty]
  rw [← optional,← optional,← groups,← users]
  constructor
  · intro same
    exact ⟨congrArg OidcClientSpec.allowedGroups same,congrArg OidcClientSpec.allowedUsers same⟩
  · rintro ⟨sameGroups,sameUsers⟩
    rw [OidcClientSpec.spread,kept named,kept addressed,kept redirects,kept grants,kept responses,kept scopes,
      sameGroups,sameUsers]

theorem convergesExactly (ours : Ours ingress.name s) :
    Converged resolve ingress (reconcile (answering defaults) resolve ingress s) ↔ Relists resolve ingress s := by
  constructor
  · intro converged spec derives client held
    obtain ⟨after,stored,same⟩ := converged spec derives
    rw [Option.mem_def,reconcileDerived defaults ours derives,Option.mem_def.mp held] at stored
    cases stored
    exact (spreadExactly derives.2 client.spec).mp same
  · intro relists spec derives
    have after := reconcileDerived defaults ours derives
    cases held : s.client with
    | none =>
        rw [held] at after
        exact ⟨_,after,rfl⟩
    | some client =>
        rw [held] at after
        exact ⟨_,after,(spreadExactly derives.2 client.spec).mpr (relists spec derives client held)⟩

end Convergence

structure Version where
  annotations : List (String × String) := []
  rules : List (Option String) := []

def Version.of (name uid : String) (version : Version) : Ingress := ⟨name,uid,version.annotations,version.rules⟩

end IngressDiscovery

open IngressDiscovery in
/- In every history of an Ingress, each version is converged upon exactly in the histories in which
each version relists the groups and users that the client it meets has. -/
theorem ingressDiscoveryConverges (defaults : List (String × String)) (resolve : String → String → Option String)
    (name uid : String) (versions : List Version) :
    EachStep (fun s version => reconcile (answering defaults) resolve (version.of name uid) s)
      (fun s version => Converged resolve (version.of name uid)
        (reconcile (answering defaults) resolve (version.of name uid) s)) versions {} ↔
    EachStep (fun s version => reconcile (answering defaults) resolve (version.of name uid) s)
      (fun s version => Relists resolve (version.of name uid) s) versions {} := by
  have kept (s : Discovery) (version : Version) (ours : Ours name s) :
      Ours name (reconcile (answering defaults) resolve (version.of name uid) s) := reconcileOurs ours
  have agree (s : Discovery) (version : Version) (ours : Ours name s) :
      Converged resolve (version.of name uid) (reconcile (answering defaults) resolve (version.of name uid) s) ↔
        Relists resolve (version.of name uid) s := convergesExactly ours
  have start : Ours name {} := by
    intro client held
    cases held
  exact eachStepIff kept agree start versions

namespace IngressDiscovery

def resolve (path base : String) : Option String := some (base ++ path)

def restricted : Version where
  annotations := [("codemowers.io/oidc-redirect-path","/cb"),("codemowers.io/oidc-allowed-groups","k-space:floor")]
  rules := [some "grafana.example.com"]

def opened : Version where
  annotations := [("codemowers.io/oidc-redirect-path","/cb")]
  rules := [some "grafana.example.com"]

end IngressDiscovery

open IngressDiscovery in
/- The client keeps the groups that no annotation gives any more. -/
theorem ingressDiscoveryKeepsGroups : ¬ EachStep (fun s version => reconcile (answering []) resolve (version.of "grafana" "uid") s)
    (fun s version => Converged resolve (version.of "grafana" "uid")
      (reconcile (answering []) resolve (version.of "grafana" "uid") s)) [restricted,opened] {} := by
  rintro ⟨_,converged,_⟩
  obtain ⟨client,stored,same⟩ := converged _ ⟨by decide +kernel,rfl⟩
  have groups := congrArg OidcClientSpec.allowedGroups same
  revert groups
  cases stored
  decide +kernel

end Passmower
