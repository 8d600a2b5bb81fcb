import Passmower.Web

/-! KubeOIDCUserService: creating, patching and restating OIDCUser resources. A body given
to `updateUserSpecs` is the merge it makes into the account's specs. -/
namespace Passmower
open JavaScript Resumption Program

def raise {α : Type} (error : JsError) : Web α := .throw error

def lift {α : Type} : Except JsError α → Web α
  | .ok value => .pure value
  | .error error => .throw error

def listUsers : Web (Option (List OidcUser)) := ask (I := web) .listUsers

/- `users ?? await this.listUsers()`; a second failure leaves `null` to iterate over. -/
def allUsers : Option (List OidcUser) → Web (List OidcUser)
  | some users => .pure users
  | none => do
      match ← listUsers with
      | some users => .pure users
      | none => raise .typeError

def findUser (accountId : String) : Web (Option OidcUser) := ask (I := web) (.getUser accountId)

def mutateUserStatus (accountId : String) (mutation : StatusMutation) : Web (Option OidcUser) :=
  ask (I := web) (.mutateUserStatus accountId mutation)

def reconcileUserStatus (accountId : String) : Web (Option OidcUser) := mutateUserStatus accountId .none

def recordEmailVerification (accountId : String) (email verifiedAt : Option String) :
    Web (Option OidcUser) := mutateUserStatus accountId (.verifyEmail email verifiedAt)

def StableIdentity.entries (identity : StableIdentity) : Option (List (String × UpstreamIdentity)) := do
  let key ← truthy identity.providerKey
  let subject ← truthy identity.subject
  some [(key,{sub := some subject})]

def createUser (uid : Nat) (accountId : String) (email : Option String)
    (githubEmails : Option (List EmailItem)) (identity : StableIdentity) : Web (Option OidcUser) := do
  let body : NewUser := ⟨email,githubEmails,identity.githubId,identity.entries⟩
  match ← ask (I := web) (.createUser uid accountId body) with
  | none => .pure none
  | some user => reconcileUserStatus user.accountId

def updateUserSpecs (accountId : String) (merge : Specs → Specs) : Web (Option OidcUser) := do
  match ← findUser accountId with
  | none => raise (.other s!"updateUserSpecs: user \"{accountId}\" not found")
  | some account =>
      match ← ask (I := web) (.patchUser accountId (merge account.toSpecs) account.toSpecs) with
      | none => raise (.other
          s!"updateUserSpecs: Kubernetes rejected the spec patch for user \"{accountId}\"")
      | some updated => reconcileUserStatus updated.accountId

def mergeSlackId (slackId : Option String) (specs : Specs) : Specs :=
  {specs with slackId := slackId <|> specs.slackId}

/- `{identities: {[key]: {...}}}`: arrays are replaced, link claims merged, `active` is kept. -/
def mergeIdentity (key : String) (identity : OidcIdentity) (specs : Specs) : Specs :=
  let entries := specs.identities.getD []
  let old := (mapGet key entries).getD {}
  {specs with identities := some (mapSet key
    {old with
      sub := some identity.sub, name := identity.name, company := identity.company
      emails := some identity.emails, groups := some identity.groups
      linkClaims := identity.linkClaims.foldl (fun claims c => mapSet c.1 c.2 claims) old.linkClaims}
    entries)}

def mergeGithub (user : GithubUser) (groups : List Group) (emails : List EmailItem) (specs : Specs) : Specs :=
  {specs with
    github := {id := user.id <|> specs.github.id, login := user.login <|> specs.github.login,
               name := user.name, company := user.company,
               groups := some groups, emails := some emails}}

end Passmower
