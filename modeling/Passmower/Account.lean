import Passmower.Configuration

/-! The OIDCUser resource and the methods of the Account model over it. A JavaScript
`undefined` or `null` field is `none`. -/
namespace Passmower
open JavaScript

structure Group where
  groupPrefix : String
  name : String
  deriving DecidableEq, Repr

def Group.displayName (group : Group) : String := group.groupPrefix ++ ":" ++ group.name

structure DisplayedGroup extends Group where
  displayName : String
  editable : Bool

/- An entry of `github.emails` or of an identity's `emails`; `trusted` only occurs in the latter. -/
structure EmailItem where
  email : Option String
  primary : Option Bool := none
  verified : Option Bool := none
  trusted : Bool := false
  observedAt : Option String := none
  deriving DecidableEq, Repr

structure UpstreamIdentity where
  sub : Option String := none
  name : Option String := none
  company : Option String := none
  emails : Option (List EmailItem) := none
  groups : Option (List Group) := none
  linkClaims : List (String × String) := []
  active : Option Bool := none
  deriving DecidableEq, Repr

structure AdminSpec where
  type : Option String := none
  email : Option String := none
  companyEmail : Option String := none
  name : Option String := none
  company : Option String := none
  phones : Option (List String) := none
  groups : Option (List Group) := none
  deriving DecidableEq, Repr

structure PassmowerSpec where
  email : Option String := none
  name : Option String := none
  company : Option String := none
  groups : Option (List Group) := none
  deriving DecidableEq, Repr

structure GithubSpec where
  id : Option Nat := none
  login : Option String := none
  name : Option String := none
  company : Option String := none
  emails : Option (List EmailItem) := none
  groups : Option (List Group) := none
  deriving DecidableEq, Repr

inductive VerificationStatus where
  | verified
  | unverified
  | unknown
  deriving DecidableEq, Repr

inductive VerificationMethod where
  | magicLink
  | githubApi
  | operatorTrust
  | oidcClaim
  deriving DecidableEq, Repr

structure EmailEvidence where
  email : Option String
  status : VerificationStatus
  method : VerificationMethod
  provider : String
  verifiedAt : Option String := none
  observedAt : Option String := none
  deriving DecidableEq, Repr

def VerificationMethod.text : VerificationMethod → String
  | .magicLink => "magic-link"
  | .githubApi => "github-api"
  | .operatorTrust => "operator-trust"
  | .oidcClaim => "oidc-claim"

def evidenceKey (email method provider : String) : String := "\x00".intercalate [email,method,provider]

def EmailEvidence.key (item : EmailEvidence) : String :=
  evidenceKey (item.email.getD "undefined") item.method.text item.provider

structure Condition where
  type : String
  status : String
  lastTransitionTime : Option String := none
  deriving DecidableEq, Repr

structure Acceptance where
  acceptedAt : Option String
  contentHash : Option String
  deriving DecidableEq, Repr

structure Profile where
  name : Option String := none
  company : Option String := none
  phones : Option (List String) := none
  deriving DecidableEq, Repr

structure RecentApplication where
  clientId : String
  lastAuthenticatedAt : String
  deriving DecidableEq, Repr

structure Status where
  primaryEmail : Option String := none
  emails : List String := []
  groups : List Group := []
  profile : Profile := {}
  slackId : Option String := none
  passkeyCount : Nat := 0
  conditions : List Condition := []
  termsOfService : Option Acceptance := none
  recentApplications : List RecentApplication := []
  emailVerifications : List EmailEvidence := []
  deriving DecidableEq, Repr

/- What `getSpecs` returns and a spec patch is computed over. -/
structure Specs where
  passmower : PassmowerSpec := {}
  slackId : Option String := none
  github : GithubSpec := {}
  identities : Option (List (String × UpstreamIdentity)) := none
  passkeys : List String := []
  deriving DecidableEq, Repr

structure OidcUser extends Specs where
  accountId : String
  creationTimestamp : Option Nat := none
  spec : AdminSpec := {}
  status : Status := {}
  deriving DecidableEq, Repr

namespace OidcUser
variable (env : Env) (user : OidcUser)

def identityEntries : List (String × UpstreamIdentity) := user.identities.getD []

def identityEmails : List EmailItem :=
  user.identityEntries.flatMap (fun entry => entry.2.emails.getD [])

def githubEmails : List EmailItem := user.github.emails.getD []

def getIdentity (providerKey : String) : Option UpstreamIdentity := mapGet providerKey user.identityEntries

def getGithubId : Option Nat := user.github.id

def claimedAddresses : List (Option String) :=
  [user.spec.email,user.spec.companyEmail,user.passmower.email] ++
    user.githubEmails.map (·.email) ++ user.identityEmails.map (·.email)

def getClaimedEmails : List String :=
  ((user.claimedAddresses.map (mappedEmail env)).filterMap id).eraseDups

def statusOf (verified : Option Bool) : VerificationStatus := match verified with
  | some true => .verified
  | some false => .unverified
  | none => .unknown

def magicLinkEvidence : List EmailEvidence :=
  (user.status.emailVerifications.filter (fun item => item.method = .magicLink)).map
    (fun item => {item with email := canonicalizeEmail env item.email})

def githubEvidence : List EmailEvidence := user.githubEmails.filterMap fun item => do
  let email ← canonicalizeEmail env item.email
  some {email := some email, status := statusOf item.verified, method := .githubApi,
        provider := "github", observedAt := item.observedAt}

def observedVerified (provider : String) (item : EmailItem) : Option Bool :=
  if item.trusted ∧ (getOidcProvider env provider).map (·.emailVerification) ≠ some .trusted then none
  else item.verified

def identityEvidence (provider : String) (identity : UpstreamIdentity) : List EmailEvidence :=
  if identity.active = some false then []
  else (identity.emails.getD []).filterMap fun item => do
    let email ← canonicalizeEmail env item.email
    some {email := some email, status := statusOf (observedVerified env provider item),
          method := if item.trusted then .operatorTrust else .oidcClaim,
          provider := provider, observedAt := item.observedAt}

def getEmailVerifications : List EmailEvidence :=
  uniqueBy EmailEvidence.key
    (user.magicLinkEvidence env ++ user.githubEvidence env ++
      user.identityEntries.flatMap (fun entry => identityEvidence env entry.1 entry.2))

def verifiedFor (email : String) : Bool :=
  (user.getEmailVerifications env).any (fun item => item.email = some email ∧ item.status = .verified)

def isEmailLinkable (address : Option String) : Bool := match canonicalizeEmail env address with
  | none => false
  | some email =>
      if email ∉ user.getClaimedEmails env then false
      else if user.verifiedFor env email then true
      else if some email ∈ [user.spec.email,user.spec.companyEmail].map (mappedEmail env) then true
      else !user.identityEmails.any (fun item => canonicalizeEmail env item.email = some email)

def isPrimaryEmailVerified : Bool := match canonicalizeEmail env user.status.primaryEmail with
  | none => false
  | some primaryEmail => user.verifiedFor env primaryEmail

def verifyEmail (address : Option String) (method : VerificationMethod) (provider : String)
    (verifiedAt : Option String) : OidcUser := match canonicalizeEmail env address with
  | none => user
  | some email =>
      if email ∉ user.getClaimedEmails env then user
      else {user with status := {user.status with
        emailVerifications := user.status.emailVerifications.filter (fun item =>
            ¬ (canonicalizeEmail env item.email = some email ∧ item.method = method ∧
               item.provider = provider)) ++
          [{email := some email, status := .verified, method := method, provider := provider,
            verifiedAt := verifiedAt}]}}

def addCondition (condition : Condition) : OidcUser :=
  {user with status := {user.status with conditions := user.status.conditions ++ [condition]}}

def getTermsOfServiceAcceptance : Option Acceptance := match user.status.termsOfService with
  | some acceptance => some acceptance
  | none => (user.status.conditions.find? (fun c => c.type = "ToSv1" ∧ c.status = "True")).map
      (fun legacy => ⟨legacy.lastTransitionTime,none⟩)

def getIntendedTermsOfServiceAcceptance : Option Acceptance := do
  let acceptance ← user.getTermsOfServiceAcceptance
  match acceptance.contentHash, env.termsOfService with
  | none, some contentHash => some {acceptance with contentHash := some contentHash}
  | _, _ => some acceptance

/- `#mapGroups` under `GROUP_PREFIX`; the order, which its one-sided comparison leaves to the engine, is the
one of the status. -/
def mapGroups (groupPrefix : String) (disableFrontendEdit : Bool) : List DisplayedGroup :=
  user.status.groups.map fun g =>
    {g with displayName := g.displayName, editable := g.groupPrefix = groupPrefix && !disableFrontendEdit}

/- `adminGroup` is `process.env.ADMIN_GROUP`. -/
def isAdmin (adminGroup : Option String) : Bool :=
  user.status.groups.any fun group => some group.displayName = adminGroup

def intendedEmails : List String := user.getClaimedEmails env

def fallbackEmail : Option String :=
  truthy user.spec.email <|> truthy user.spec.companyEmail <|> truthy user.passmower.email <|>
  truthy ((user.githubEmails.find? (fun item => item.primary = some true)).bind (·.email)) <|>
  (user.githubEmails.find? (fun item => (truthy item.email).isSome)).bind (·.email) <|>
  truthy ((user.identityEmails.find? (fun item => item.primary = some true)).bind (·.email)) <|>
  (user.identityEmails.find? (fun item => (truthy item.email).isSome)).bind (·.email)

def intendedPrimaryEmail : Option String :=
  (do let preferred ← truthy env.preferredEmailDomain
      (user.intendedEmails env).find? (fun e => (e.splitOn "@")[1]? = some (env.toLowerCase preferred))) <|>
  canonicalizeEmail env user.fallbackEmail

def intendedGroups : List Group :=
  uniqueBy (fun g => g.groupPrefix ++ ":" ++ g.name)
    (user.spec.groups.getD [] ++ user.passmower.groups.getD [] ++ user.github.groups.getD [] ++
      (user.identityEntries.filter (fun entry => entry.2.active ≠ some false)).flatMap
        (fun entry => entry.2.groups.getD []))

def intendedProfile : Profile where
  name := user.spec.name <|> user.passmower.name <|> user.github.name <|>
    (user.identityEntries.find? (fun entry => (truthy entry.2.name).isSome)).bind (·.2.name)
  company := user.spec.company <|> user.passmower.company <|> user.github.company <|>
    (user.identityEntries.find? (fun entry => (truthy entry.2.company).isSome)).bind (·.2.company)
  phones := user.spec.phones

def getIntendedStatus : Status where
  primaryEmail := user.intendedPrimaryEmail env
  emails := user.intendedEmails env
  groups := user.intendedGroups
  profile := user.intendedProfile
  slackId := user.slackId
  passkeyCount := user.passkeys.length
  conditions := user.status.conditions.filter (fun c => c.type ≠ "ToSv1")
  termsOfService := user.getIntendedTermsOfServiceAcceptance env
  recentApplications := user.status.recentApplications
  emailVerifications := user.getEmailVerifications env

end OidcUser
end Passmower
