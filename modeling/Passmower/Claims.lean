import Passmower.Account
import Passmower.Tokens

/-! The claims of an account: what `Account.claims` and `extraTokenClaims` assemble from the account, the
enrichment webhook and the client's claim mappings, and the live `claims` configuration mappings register in. -/
namespace Passmower
open JavaScript

def scopeTokens (scope : String) : List String := (scope.toList.splitOn ' ').map String.ofList

def includes (scope part : String) : Bool := part.toList <:+: scope.toList

def protectedClaims : List String :=
  ["sub","iss","aud","exp","iat","nbf","jti","auth_time","nonce","sid","azp","at_hash","c_hash","scope","client_id",
   "email","email_verified","emails","groups","username","name"]

def namespacesClaim : String := "codemowers.io/namespaces"

def reservedClaims : List String := protectedClaims ++ ["applications",namespacesClaim]

/- `CLAIM_NAME`: a letter, then up to 63 letters, digits, dots, underscores, colons, slashes and hyphens. -/
def isClaimName (claim : String) : Bool := match claim.toList with
  | [] => false
  | first :: rest => first.isAlpha && rest.length ≤ 63 &&
      rest.all fun c => c.isAlphanum || ['.','_',':','-','/'].contains c

def ruleProblems (claim : String) (rule : Json) (index : Nat) : List String :=
  let about := "claim \"" ++ claim ++ "\" rule " ++ toString index
  ((member (some rule) "value").bind Json.string?).elim [about ++ " has a non-string value"] (fun _ => []) ++
    match member (some rule) "groups" with
    | none | some (.array _) => []
    | some _ => [about ++ " has a non-list groups"]

def mappingProblems (claim : String) (mapping : Json) : List String :=
  let about := "claim \"" ++ claim ++ "\""
  if claim ∈ reservedClaims then [about ++ " is reserved by Passmower"]
  else if !isClaimName claim then [about ++ " is not a valid claim name"]
  else match (given (member (some mapping) "rules")).getD (.array []) with
    | .array rules =>
        let fallback := member (some mapping) "default"
        (match fallback with
          | none | some (.string _) => []
          | some _ => [about ++ " has a non-string default"]) ++
        rules.zipIdx.flatMap (fun rule => ruleProblems claim rule.1 rule.2) ++
        if rules.isEmpty && fallback.isNone then [about ++ " has neither rules nor a default"] else []
    | _ => [about ++ " has a non-list rules"]

def validateClaimMappings (claimMappings : Option Json) : List String := match given claimMappings with
  | none => []
  | some (.object fields) => fields.flatMap fun entry => mappingProblems entry.1 entry.2
  | some _ => ["claimMappings must be an object keyed by claim name"]

/- A client's `claimMappings`, which the operator has accepted. -/
structure ClaimMappings where
  claimMappings : Option Json
  accepted : validateClaimMappings claimMappings = []

namespace ClaimMappings
variable (mappings : ClaimMappings)

def entries : Object := match mappings.claimMappings with
  | some (.object fields) => fields
  | _ => []

def ruleMatches (groups : List String) (rule : Json) : Bool :=
  (((member (some rule) "groups").map items).getD []).any fun group => match group with
    | .string name => groups.contains name
    | _ => false

def evaluate (groups : List String) (mapping : Json) : Option String :=
  let rules := ((member (some mapping) "rules").map items).getD []
  let value := given (member (rules.find? (ruleMatches groups)) "value")
  (value <|> member (some mapping) "default").bind Json.string?

def evaluateClaimMappings (groups : List String) : Object := mappings.entries.filterMap fun entry =>
  if entry.1 ∈ reservedClaims then none
  else (evaluate groups entry.2).map fun value => (entry.1,.string value)

end ClaimMappings

structure ClaimsClient where
  clientId : String
  allowedGroups : List String := []
  mappings : ClaimMappings := ⟨none,rfl⟩

structure ClaimsConfiguration where
  declared : String → List String
  supported : List String

def ClaimsConfiguration.registerMappedClaims (configuration : ClaimsConfiguration) (mappings : ClaimMappings) :
    ClaimsConfiguration :=
  let names := (mappings.entries.map Prod.fst).filter (· ∉ reservedClaims)
  let registered := names.filter (· ∉ configuration.supported)
  { declared := fun scope =>
      if scope = "openid" then configuration.declared scope ++ registered else configuration.declared scope
    supported := configuration.supported ++ registered }

/- `fetchExtraClaims`: the webhook's answer, if there is a webhook and it gives one, less the protected claims. -/
def fetchExtraClaims (answer : Option Json) : Object := match answer with
  | some (.object claims) => claims.filter (·.1 ∉ protectedClaims)
  | _ => []

def strings (texts : List String) : Json := .array (texts.map .string)

/- What a call of `claims` or `extraTokenClaims` finds outside the account. -/
structure ClaimsContext where
  env : Env := {}
  client : ClaimsClient
  webhook : Option Json := none
  applications : Json := .array []

inductive ClaimsUse where
  | idToken
  | userinfo
  deriving DecidableEq, Repr

namespace OidcUser
variable (account : OidcUser) (ctx : ClaimsContext)

def groupTexts : List String := account.status.groups.map fun group => group.groupPrefix ++ ":" ++ group.name

def profileClaims : Object :=
  (account.status.profile.name.map fun name => ("name",.string name)).toList ++
    (account.status.profile.company.map fun company => ("company",.string company)).toList ++
    (account.status.profile.phones.map fun phones => ("phones",strings phones)).toList

def emailClaims (tokens : List String) : Object := match truthy account.status.primaryEmail with
  | some email =>
      if tokens.contains "email" then
        [("email",.string email),("email_verified",.bool (account.isPrimaryEmailVerified ctx.env))]
      else []
  | none => []

def ownClaims (use : ClaimsUse) (scope : String) : Object :=
  let username := Json.string account.accountId
  let groups := account.groupTexts
  let response : Object := [("sub",username),("username",username),("nickname",username)]
  let response := response.spread (account.emailClaims ctx (scopeTokens scope))
  let response := if includes scope "profile" then
    (response.spread account.profileClaims).spread [("emails",strings account.status.emails)] else response
  let response := if includes scope "allowed_groups" then
    response.spread [("groups",strings (if ctx.client.allowedGroups.isEmpty then []
      else groups.filter (· ∈ ctx.client.allowedGroups)))] else response
  let response := if includes scope " groups" then response.spread [("groups",strings groups)] else response
  if use = .userinfo ∧ "applications" ∈ scopeTokens scope then response.spread [("applications",ctx.applications)]
  else response

def extraClaims (tokens : List String) : Object :=
  if tokens.contains "namespaces" then fetchExtraClaims ctx.webhook else []

def mappedClaims : Object := ctx.client.mappings.evaluateClaimMappings account.groupTexts

def claims (use : ClaimsUse) (scope : String) : Object :=
  ((account.ownClaims ctx use scope).spread (extraClaims ctx (scopeTokens scope))).spread (account.mappedClaims ctx)

end OidcUser

structure AccessToken where
  kind : String := "AccessToken"
  scope : Option String

/- `extraTokenClaims`; `account` is what `findAccount` gives for the token's account. -/
def extraTokenClaims (ctx : ClaimsContext) (token : AccessToken) (account : Option OidcUser) : Option Object :=
  if token.kind ≠ "AccessToken" then none
  else
    let scopes := ((truthy token.scope).map scopeTokens).getD []
    if !scopes.contains "email" && !scopes.contains "groups" && !scopes.contains "namespaces" &&
        ctx.client.mappings.entries.isEmpty then none
    else match account with
      | none => none
      | some account =>
          let claims := account.emailClaims ctx scopes
          let claims := if scopes.contains "groups" then claims.spread [("groups",strings account.groupTexts)] else claims
          let claims := claims.spread (OidcUser.extraClaims ctx scopes)
          let claims := claims.spread (account.mappedClaims ctx)
          if claims.isEmpty then none else some claims

end Passmower
