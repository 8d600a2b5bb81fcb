import Passmower.EmailLogin

/-! Login through an upstream OpenID Connect provider: the claims of its responses, the
identity extracted from them, and the three phases of the login. -/
namespace Passmower
open JavaScript Resumption Program

structure Callback where
  state : Option String := none
  code : Option String := none
  deriving DecidableEq, Repr

def claimText (profile : Object) (claim : String) : Option String := (profile.get claim).bind Json.string?

inductive OidcEmailError where
  | missing
  | unverified
  deriving DecidableEq, Repr

def claimFlag (profile : Object) (claim : String) : Option Bool := (profile.get claim).bind Json.bool?

def getOidcEmailError (env : Env) (profile : Object) : Option OidcEmailError :=
  match truthy (claimText profile "email") with
  | none => if env.outboundEmailEnabled then some .missing else none
  | some _ => if claimFlag profile "email_verified" = some false then some .unverified else none

def emailVerified (capability : EmailVerification) (claim : Option Bool) : Option Bool :=
  if claim = some false then (if capability = .none then none else some false)
  else if capability = .trusted then some true
  else if capability = .oidcClaim ∧ claim = some true then some true
  else none

def identityEmails (config : ProviderConfig) (profile : Object) (observedAt : String) : List EmailItem :=
  match truthy (claimText profile "email") with
  | none => []
  | some email =>
      [{email := some email, primary := some true,
        verified := emailVerified config.emailVerification (claimFlag profile "email_verified"),
        trusted := decide (config.emailVerification = .trusted), observedAt := some observedAt}]

def identityGroups (config : ProviderConfig) (profile : Object) : List Group :=
  match config.groupsClaim.bind profile.get with
  | some (.array names) => names.map (fun name => ⟨config.groupPrefix,name.toText⟩)
  | _ => []

def linkClaims (config : ProviderConfig) (profile : Object) : List (String × String) :=
  config.linkingClaims.filterMap fun claim => match profile.get claim with
    | some (.string text) => some (claim,text)
    | some (.number text) => some (claim,text)
    | _ => none

def extractIdentity (config : ProviderConfig) (profile : Object) (observedAt : String) : OidcIdentity where
  sub := (claimText profile "sub").getD ""
  name := claimText profile "name"
  company := none
  primaryEmail := claimText profile "email"
  emails := identityEmails config profile observedAt
  groups := identityGroups config profile
  preferredUsername := claimText profile "preferred_username" <|> claimText profile "nickname"
  linkClaims := linkClaims config profile

/- UserInfo may replace the ID-token email; a verification signal only counts from a response
that names the selected address, and disagreement fails closed. -/
def mergeOidcProfile (env : Env) (claims userinfo : Object) : Object :=
  let profile := Object.spread claims userinfo
  let selectedEmail := canonicalizeEmail env (claimText profile "email")
  let matchingSignals := ([claims,userinfo].filter (fun source =>
    canonicalizeEmail env (claimText source "email") = selectedEmail)).filterMap (claimFlag · "email_verified")
  if false ∈ matchingSignals then profile.set "email_verified" (.bool false)
  else if true ∈ matchingSignals then profile.set "email_verified" (.bool true)
  else profile.delete "email_verified"

def shouldOverrideUnverifiedEmail (env : Env) (providerKey : String) (sub email : Option String) :
    Web Bool :=
  if !env.verifiedEmailOverride then .pure false
  else match canonicalizeEmail env email, truthy sub with
    | some address, some sub => do
        let found ← (do let users ← allUsers none
                        lift (findUserByIdentity env providerKey sub users) : Web (Option OidcUser)).attempt
        match found with
        | .ok (some account) => .pure ((account.getEmailVerifications env).any (fun item =>
            item.email = some address ∧ item.method = .magicLink ∧ item.status = .verified))
        | _ => .pure false
    | _, _ => .pure false

def authorizationCodeGrant (uid : Nat) (config : ProviderConfig) : Web (Option Object) :=
  ask (I := web) (.authorizationCodeGrant uid config)

def fetchUserInfo (uid : Nat) (config : ProviderConfig) : Web (Option Object) :=
  ask (I := web) (.fetchUserInfo uid config)

def linkAccount : Web Bool := ask (I := web) .linkAccount

namespace OidcLogin

def start (uid : Nat) (config : ProviderConfig) : Web Unit := do
  let codeVerifier ← randomText
  let nonce ← randomText
  let state ← randomText
  interactionResult uid (.oidcFlow ⟨config.key,s!"{uid}|{state}",codeVerifier,nonce⟩)

def refuseEmail (env : Env) (uid : Nat) (config : ProviderConfig) (profile : Object) : Web Bool :=
  match getOidcEmailError env profile with
  | none => .pure false
  | some .missing => do
      accessDenied uid s!"No email returned from {config.displayName}"
      .pure true
  | some .unverified => do
      let overridden ← shouldOverrideUnverifiedEmail env config.key (claimText profile "sub")
        (claimText profile "email")
      if overridden then .pure false
      else do
        let email := (claimText profile "email").getD ""
        let remediation := if env.outboundEmailEnabled
          then s!"Verify {email} at {config.displayName} and sign in again, or use email login to verify it with Passmower."
          else s!"Verify {email} at {config.displayName} and sign in again."
        accessDenied uid s!"Email not verified by {config.displayName}. {remediation}"
        .pure true

def receive (env : Env) (uid : Nat) (config : ProviderConfig) (details : Interaction)
    (callback : Callback) : Web (Option OidcIdentity) := do
  match (details.result.bind (·.oidcFlow) <|> details.carried.oidcFlow).filter
      (fun flow => flow.provider = config.key ∧ some flow.state = callback.state) with
  | none =>
      accessDenied uid "State does not match"
      .pure none
  | some _ => match ← authorizationCodeGrant uid config with
      | none =>
          accessDenied uid "User aborted login"
          .pure none
      | some claims => do
          let userinfo ← fetchUserInfo uid config
          let profile := mergeOidcProfile env claims (userinfo.getD [])
          let refused ← refuseEmail env uid config profile
          if refused then .pure none
          else do
            let observedAt ← now
            let identity := extractIdentity config profile observedAt
            interactionResult uid (.oidc config.key identity)
            .pure (some identity)

def persist (key : String) (identity : OidcIdentity) : Option OidcUser → Web Unit
  | none => .pure ()
  | some account => do
      let _ ← updateUserSpecs account.accountId (mergeIdentity key identity)
      let _ ← linkAccount
      .pure ()

def link (env : Env) (uid : Nat) (config : ProviderConfig) (identity : OidcIdentity) : Web Unit := do
  record uid (.identify config.key identity)
  let account ← createOrUpdateByEmails env uid identity.primaryEmail (some identity.emails) none
    identity.preferredUsername {providerKey := some config.key, subject := some identity.sub}
  persist config.key identity account
  let result ← getLoginResult uid account
  interactionResult uid result false

end OidcLogin

def oidcLogin (env : Env) (uid : Nat) (config : ProviderConfig) (callback : Option Callback) : Web Unit := do
  let details ← interactionDetails uid
  -- Resumed after the username form, the stashed identity stands in for the first two phases.
  match details.carried.oidc, callback with
  | some (_,identity), _ => OidcLogin.link env uid config identity
  | none, none => OidcLogin.start uid config
  | none, some callback => do
      match ← OidcLogin.receive env uid config details callback with
      | none => .pure ()
      | some identity => OidcLogin.link env uid config identity

end Passmower
