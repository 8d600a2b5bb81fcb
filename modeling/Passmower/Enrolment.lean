import Passmower.KubeOidcUserService

/-! `Account.createOrUpdateByEmails`: resolve a login to an account, refuse it, ask for a
username, or enrol a new account. -/
namespace Passmower
open JavaScript Resumption Program

def record (uid : Nat) (what : Happening) : Web Unit := ask (I := web) (.record uid what)

def interactionDetails (uid : Nat) : Web Interaction := do
  match ← ask (I := web) (.interactionDetails uid) with
  | some details => .pure details
  | none => raise .sessionNotFound

def interactionResult (uid : Nat) (literal : Literal) (merge : Bool := true) : Web Unit :=
  ask (I := web) (.interactionResult uid literal merge)

def accessDenied (uid : Nat) (description : String) : Web Unit :=
  interactionResult uid (.error "access_denied" (some description)) false

def requireCustomUsername (uid : Nat) (email : Option String) (githubEmails : Option (List EmailItem))
    (preferredUsername : Option String) (identity : StableIdentity) : Web (Option OidcUser) := do
  let details ← interactionDetails uid
  interactionResult uid (.usernameRequest details.result email githubEmails preferredUsername identity)
  .pure none

def getSlackId (user : OidcUser) : Web (Option String) :=
  match truthy user.status.slackId with
  | some slackId => .pure (some slackId)
  | none => ask (I := web) .getSlackUserId

def isUsernameAvailable (username : String) : Web Bool := do
  if username = "" then .pure false
  else
    let user ← findUser username
    .pure user.isNone

def normalizeEmails (env : Env) (emails : List EmailItem) : List EmailItem :=
  uniqueBy (·.email) (emails.map fun e =>
    {email := canonicalizeEmail env e.email, primary := e.primary, verified := e.verified,
     observedAt := e.observedAt})

/- The addresses whose control the login proves: only these may link an existing account. -/
def linkableEmails (env : Env) (email : Option String) (githubEmails : List EmailItem)
    (identity : StableIdentity) : List (Option String) :=
  ((if (truthy identity.providerKey).isSome then none else canonicalizeEmail env email) ::
    (githubEmails.filter (fun e => e.verified = some true)).map (·.email)).filter (truthy · |>.isSome)

def bareEmail (email : Option String) (identity : StableIdentity) : Option String :=
  if identity = {} then email else none

def linkRefusal : String :=
  "This email belongs to an existing account that this sign-in cannot be " ++
  "linked to, because the address is not verified. Sign in with a method already " ++
  "linked to that account, or contact an administrator."

def findByStableIdentity (env : Env) (identity : StableIdentity) (users : Option (List OidcUser)) :
    Web (Option OidcUser) :=
  match truthy identity.providerKey, truthy identity.subject, identity.githubId with
  | some key, some subject, _ => do
      let users ← allUsers users
      lift (findUserByIdentity env key subject users)
  | _, _, some githubId => do
      let users ← allUsers users
      lift (findUserByGithubId env githubId users)
  | _, _, none => .pure none

/- The body of the `try`: `none` ends the login without an account, otherwise the account the
login resolves to, if there is one. -/
def resolveUser (env : Env) (uid : Nat) (emails linkable : List (Option String))
    (identity : StableIdentity) : Web (Option (Option OidcUser)) := do
  let users ← listUsers
  let user ← findByStableIdentity env identity users
  let listed ← allUsers users
  let emailUser ← lift (findUserByEmails env emails listed)
  match user, emailUser with
  | some byIdentity, some byEmail =>
      if byIdentity.accountId ≠ byEmail.accountId then
        raise (.identityIntegrity "Stable upstream identity and email resolve to different OIDC users")
      else .pure (some (some byIdentity))
  | some byIdentity, none => .pure (some (some byIdentity))
  | none, some byEmail =>
      if linkable.any (byEmail.isEmailLinkable env) then .pure (some (some byEmail))
      else do
        interactionResult uid (.error "access_denied" (some linkRefusal))
        .pure none
  | none, none => .pure (some none)

def heedIntegrity : JsError → Web (Option (Option OidcUser))
  | .identityIntegrity _ => .pure none
  | error => raise error

def updateSlack (user : OidcUser) : Web (Option OidcUser) := do
  let slackId ← getSlackId user
  updateUserSpecs user.accountId (mergeSlackId slackId)

def enrol (uid : Nat) (username : String) (email : Option String)
    (githubEmails : Option (List EmailItem)) (identity : StableIdentity) : Web (Option OidcUser) := do
  match ← createUser uid username email githubEmails identity with
  | some user => updateSlack user
  | none => .pure none

def randomText : Web String := ask (I := web) .randomText

def getUid : Web String := do
  let text ← randomText
  .pure ("u" ++ text)

def enrolUnknown (env : Env) (uid : Nat) (email : Option String) (githubEmails : Option (List EmailItem))
    (username preferredUsername : Option String) (identity : StableIdentity) : Web (Option OidcUser) :=
  match truthy username with
  | some username => enrol uid username email githubEmails identity
  | none =>
      if !env.enrollUsers then .pure none
      else
        let candidate := sanitizeUsername env preferredUsername
        let prompt := requireCustomUsername uid email githubEmails (candidate <|> preferredUsername) identity
        match env.usernameSource with
        | .prompt => prompt
        | .upstream => match candidate with
            | none => prompt
            | some name =>
                if isUsernameValid env name then do
                  let available ← isUsernameAvailable name
                  if available then enrol uid name email githubEmails identity else prompt
                else prompt
        | .generated => do
            let username ← getUid
            enrol uid username email githubEmails identity

def createOrUpdateByEmails (env : Env) (uid : Nat) (email : Option String)
    (githubEmails : Option (List EmailItem)) (username preferredUsername : Option String)
    (identity : StableIdentity) : Web (Option OidcUser) := do
  let githubEmails := githubEmails.map (normalizeEmails env)
  let emails := (canonicalizeEmail env email :: (githubEmails.getD []).map (·.email)).filter (truthy · |>.isSome)
  let resolved ← (resolveUser env uid emails (linkableEmails env email (githubEmails.getD []) identity)
    identity).tryCatch heedIntegrity
  match resolved with
  | none => .pure none
  | some (some user) => do
      record uid (.entered user.accountId (bareEmail email identity))
      updateSlack user
  | some none => enrolUnknown env uid email githubEmails username preferredUsername identity

end Passmower
