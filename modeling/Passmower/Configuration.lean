import Passmower.JavaScript

/-! The configuration a process reads from its environment, as far as the login and
account code depends on it. Text functions that are not the repository's own
(`toLowerCase`, `localeCompare`, the validator package's `isEmail` and `normalizeEmail`) are fields. -/
namespace Passmower

inductive EmailVerification where
  | trusted
  | oidcClaim
  | none
  deriving DecidableEq, Repr

structure ProviderConfig where
  key : String
  displayName : String
  emailVerification : EmailVerification
  groupsClaim : Option String := none
  groupPrefix : String := ""
  linkingClaims : List String := []
  deriving DecidableEq, Repr

inductive UsernameSource where
  | generated
  | prompt
  | upstream
  deriving DecidableEq, Repr

structure Env where
  toLowerCase : String → String := fun text => String.ofList (text.toList.map Char.toLower)
  isEmail : String → Bool := fun _ => true
  normalizeEmail : String → Option String := some
  /- `a.localeCompare(b) <= 0` -/
  localeLe : String → String → Bool := fun a b => decide (a ≤ b)
  normalizeEmailAddresses : Bool := false
  /- `ENROLL_USERS !== 'false'` -/
  enrollUsers : Bool := true
  usernameSource : UsernameSource := .generated
  outboundEmailEnabled : Bool := true
  githubEnabled : Bool := true
  githubOrganization : Option String := none
  preferredEmailDomain : Option String := none
  verifiedEmailOverride : Bool := false
  providers : List ProviderConfig := []
  /- `contentHash` of the configured Terms of Service document -/
  termsOfService : Option String := none
  /- Whether oidc-provider merges an error result with the carried submission as well -/
  mergeErrorResults : Bool := false

def getOidcProvider (env : Env) (key : String) : Option ProviderConfig :=
  env.providers.find? (fun p => p.key == key)

def truthy (text : Option String) : Option String := text.filter (· ≠ "")

def canonicalizeEmail (env : Env) (email : Option String) : Option String := do
  let trimmed := env.toLowerCase (JavaScript.trim (← email))
  if trimmed = "" then none
  else if env.normalizeEmailAddresses then truthy (env.normalizeEmail trimmed)
  else some trimmed

/- `canonicalizeEmail` as `.map` calls it: the index stands in for `env`, so that nothing is normalised. -/
def mappedEmail (env : Env) (email : Option String) : Option String :=
  canonicalizeEmail {env with normalizeEmailAddresses := false} email

end Passmower
