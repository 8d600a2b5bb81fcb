import Passmower.Interaction
import Passmower.Username
import Passmower.Resumption.Reasoning

/-! The outside world of the login endpoints: the authorization server's interactions, the
OIDCUser resources in Kubernetes, and the mail, GitHub and upstream services. Each call is
one await point. The journal records what the environment saw and which login functions
ran; nothing in the code reads it. -/
namespace Passmower
open JavaScript Resumption

structure Choice where
  fails : Bool := false
  text : String := ""
  time : Nat := 0
  claims : Object := []
  emails : List EmailItem := []
  githubId : Option Nat := none
  name : Option String := none
  company : Option String := none
  groups : List String := []
  deriving Repr

instance : Inhabited Choice := ⟨{}⟩

structure GithubUser where
  id : Option Nat
  login : Option String
  name : Option String
  company : Option String
  deriving DecidableEq, Repr

inductive Happening where
  /- the link of `token` went to the mail adapter for `address` -/
  | mailed (token address : String)
  /- a link's token was presented and accepted -/
  | presented (token : String)
  /- GitHub exchanged a code for an access token -/
  | githubToken (token : String)
  /- the code exchange with a provider, as configured then, gave these validated ID-token claims -/
  | granted (config : ProviderConfig) (claims : Object)
  | userInfo (config : ProviderConfig) (claims : Object)
  /- `EmailLogin.completeLogin` is invoked -/
  | completeLogin (email : Option String)
  /- GithubLogin looks the account up by what GitHub reported -/
  | githubLogin (user : GithubUser) (emails : List EmailItem)
  /- the last phase of OidcLogin is entered under provider `key` -/
  | identify (key : String) (identity : OidcIdentity)
  | usernameRequested
  /- enter-username is about to create the account -/
  | enterUsername (username : String)
  /- a login resolved to an existing account; `email` if it had nothing but that address -/
  | entered (accountId : String) (email : Option String)
  | created (accountId : String) (email : Option String)
  /- a result with a login was stored -/
  | loggedIn (accountId : String)

def Literal.mark (literal : Literal) : Option Happening := match literal with
  | .usernameRequest _ _ _ _ _ => some .usernameRequested
  | written => (written.onto {}).login.map .loggedIn

theorem markSource {literal : Literal} {what : Happening} (marked : literal.mark = some what) :
    (what = .usernameRequested ∧ ∃ own email githubEmails preferredUsername identity,
      literal = .usernameRequest own email githubEmails preferredUsername identity) ∨
    ∃ accountId, what = .loggedIn accountId := by
  cases literal with
  | usernameRequest own email githubEmails preferredUsername identity =>
      cases Option.some.inj marked
      exact .inl ⟨rfl,own,email,githubEmails,preferredUsername,identity,rfl⟩
  | _ =>
      simp only [Literal.mark,Option.map_eq_some_iff] at marked
      obtain ⟨accountId,_,same⟩ := marked
      exact .inr ⟨accountId,same.symm⟩

structure Event where
  chain : Nat
  uid : Nat
  what : Happening

/- `administered` lists the addresses administrators put on accounts. -/
structure World where
  env : Env := {}
  interactions : List Interaction := []
  users : List OidcUser := []
  administered : List (String × String) := []
  journal : List Event := []

structure NewUser where
  email : Option String
  githubEmails : Option (List EmailItem)
  githubId : Option Nat
  identities : Option (List (String × UpstreamIdentity))
  deriving DecidableEq, Repr

inductive StatusMutation where
  | none
  | verifyEmail (email verifiedAt : Option String)
  | addCondition (condition : Condition)
  deriving DecidableEq, Repr

def StatusMutation.apply (env : Env) : StatusMutation → OidcUser → OidcUser
  | .none, user => user
  | .verifyEmail email verifiedAt, user => user.verifyEmail env email .magicLink "passmower" verifiedAt
  | .addCondition condition, user => user.addCondition condition

inductive Call where
  | interactionDetails (uid : Nat)
  | findInteraction (uid : Nat)
  | saveInteraction (uid : Nat) (result : Submission)
  | interactionResult (uid : Nat) (literal : Literal) (merge : Bool)
  | randomText
  | now
  | sendMail (uid : Nat) (token address : String)
  | sendSlackMessage (slackId : String)
  | authorizationCodeGrant (uid : Nat) (config : ProviderConfig)
  | fetchUserInfo (uid : Nat) (config : ProviderConfig)
  | getOAuthAccessToken (uid : Nat)
  | getGitHubEmails
  | getGitHubUser
  | getOrganizationTeams
  | getSlackUserId
  | linkAccount
  | listUsers
  | getUser (accountId : String)
  | createUser (uid : Nat) (accountId : String) (body : NewUser)
  | patchUser (accountId : String) (values existing : Specs)
  | mutateUserStatus (accountId : String) (mutation : StatusMutation)
  | record (uid : Nat) (what : Happening)

def Answer : Call → Type
  | .interactionDetails _ | .findInteraction _ => Option Interaction
  | .saveInteraction _ _ | .interactionResult _ _ _ | .record _ _ => Unit
  | .randomText | .now => String
  | .sendMail _ _ _ | .sendSlackMessage _ | .linkAccount => Bool
  | .authorizationCodeGrant _ _ | .fetchUserInfo _ _ => Option Object
  | .getOAuthAccessToken _ | .getSlackUserId => Option String
  | .getGitHubEmails => Option (List EmailItem)
  | .getGitHubUser => Option GithubUser
  | .getOrganizationTeams => Option (List String)
  | .listUsers => Option (List OidcUser)
  | .getUser _ | .createUser _ _ _ | .patchUser _ _ _ | .mutateUserStatus _ _ => Option OidcUser

abbrev web : Interface := ⟨Call,Answer⟩

namespace World
variable (world : World)

def interaction (uid : Nat) : Option Interaction := world.interactions[uid]?

/- What happens in an interaction is put down to its chain. -/
def log (uid : Nat) (what : Happening) : World := match world.interaction uid with
  | some i => {world with journal := world.journal ++ [⟨i.chain,uid,what⟩]}
  | none => world

def happened (chain : Nat) (what : Happening) : Prop := ∃ uid, ⟨chain,uid,what⟩ ∈ world.journal

def updateInteraction (uid : Nat) (f : Interaction → Interaction) : World :=
  {world with interactions := world.interactions.modify uid f}

def user (accountId : String) : Option OidcUser := world.users.find? (fun u => u.accountId = accountId)

def updateUser (accountId : String) (f : OidcUser → OidcUser) : World :=
  {world with users := updateFirst (fun u => u.accountId = accountId) f world.users}

end World

def NewUser.resource (accountId : String) (created : Nat) (body : NewUser) : OidcUser where
  accountId := accountId
  creationTimestamp := some created
  passmower := {email := body.email}
  github := {id := body.githubId, emails := body.githubEmails}
  identities := body.identities

def patched {α : Type} [DecidableEq α] (existing value current : α) : α :=
  if existing = value then current else value

theorem patchedSelf {α : Type} [DecidableEq α] (existing value : α) :
    patched existing value existing = value := by
  unfold patched; split
  · assumption
  · rfl

def patchGithub (existing value current : GithubSpec) : GithubSpec where
  id := patched existing.id value.id current.id
  login := patched existing.login value.login current.login
  name := patched existing.name value.name current.name
  company := patched existing.company value.company current.company
  emails := patched existing.emails value.emails current.emails
  groups := patched existing.groups value.groups current.groups

def patchPassmower (existing value current : PassmowerSpec) : PassmowerSpec where
  email := patched existing.email value.email current.email
  name := patched existing.name value.name current.name
  company := patched existing.company value.company current.company
  groups := patched existing.groups value.groups current.groups

def patchIdentity (existing value current : UpstreamIdentity) : UpstreamIdentity where
  sub := patched existing.sub value.sub current.sub
  name := patched existing.name value.name current.name
  company := patched existing.company value.company current.company
  emails := patched existing.emails value.emails current.emails
  groups := patched existing.groups value.groups current.groups
  linkClaims := patched existing.linkClaims value.linkClaims current.linkClaims
  active := patched existing.active value.active current.active

/- A member whose parent the patch was computed without is added whole. -/
def patchIdentityEntry (existing : List (String × UpstreamIdentity))
    (entries : List (String × UpstreamIdentity)) (entry : String × UpstreamIdentity) :
    List (String × UpstreamIdentity) :=
  match mapGet entry.1 existing, mapGet entry.1 entries with
  | some old, some current => mapSet entry.1 (patchIdentity old entry.2 current) entries
  | some old, none => if old = entry.2 then entries else mapSet entry.1 entry.2 entries
  | none, _ => mapSet entry.1 entry.2 entries

def patchIdentities (existing values current : Option (List (String × UpstreamIdentity))) :
    Option (List (String × UpstreamIdentity)) :=
  match existing, values with
  | none, none => current
  | none, some entries => some entries
  | some _, none => none
  | some old, some entries => some (entries.foldl (patchIdentityEntry old) (current.getD []))

/- Applying the delta from `existing` to `values` to the resource as it is now. -/
def Specs.patch (existing values : Specs) (user : OidcUser) : OidcUser :=
  {user with
    passmower := patchPassmower existing.passmower values.passmower user.passmower
    slackId := patched existing.slackId values.slackId user.slackId
    github := patchGithub existing.github values.github user.github
    identities := patchIdentities existing.identities values.identities user.identities
    passkeys := patched existing.passkeys values.passkeys user.passkeys}

/- `mutateNamespacedCustomObjectStatus`: the mutation and the recomputed status take effect
together, under the resource version they were computed from. -/
def OidcUser.restated (env : Env) (mutation : StatusMutation) (user : OidcUser) : OidcUser :=
  {user with status := (mutation.apply env user).getIntendedStatus env}

def serve (choice : Choice) : (call : web.Call) → World → web.Answer call × World
  | .interactionDetails uid, world => (world.interaction uid,world)
  | .findInteraction uid, world => (world.interaction uid,world)
  | .saveInteraction uid result, world =>
      ((),world.updateInteraction uid (fun i => {i with result := some result}))
  | .interactionResult uid literal merge, world =>
      let stored := world.updateInteraction uid (fun i => i.store world.env.mergeErrorResults literal merge)
      ((),match literal.mark with
        | some what => stored.log uid what
        | none => stored)
  | .randomText, world => (choice.text,world)
  | .now, world => (choice.text,world)
  | .sendMail uid token address, world =>
      (!choice.fails,world.log uid (.mailed token address))
  | .sendSlackMessage _, world => (!choice.fails,world)
  | .authorizationCodeGrant uid config, world =>
      if choice.fails then (none,world)
      else (some choice.claims,world.log uid (.granted config choice.claims))
  | .fetchUserInfo uid config, world =>
      if choice.fails then (none,world)
      else (some choice.claims,world.log uid (.userInfo config choice.claims))
  | .getOAuthAccessToken uid, world =>
      if choice.fails then (none,world)
      else (some choice.text,world.log uid (.githubToken choice.text))
  | .getGitHubEmails, world => (if choice.fails then none else some choice.emails,world)
  | .getGitHubUser, world =>
      (if choice.fails then none else some ⟨choice.githubId,some choice.text,choice.name,choice.company⟩,world)
  | .getOrganizationTeams, world => (if choice.fails then none else some choice.groups,world)
  | .getSlackUserId, world => (if choice.fails then none else some choice.text,world)
  | .linkAccount, world => (!choice.fails,world)
  | .listUsers, world => (if choice.fails then none else some world.users,world)
  | .getUser accountId, world => (if choice.fails then none else world.user accountId,world)
  | .createUser uid accountId body, world =>
      if choice.fails ∨ (world.user accountId).isSome then (none,world)
      else
        let user := body.resource accountId choice.time
        (some user,{world with users := world.users ++ [user]}.log uid (.created accountId body.email))
  | .patchUser accountId values existing, world =>
      if choice.fails then (none,world)
      else
        let next := world.updateUser accountId (existing.patch values)
        (next.user accountId,next)
  | .mutateUserStatus accountId mutation, world =>
      if choice.fails then (none,world)
      else
        let next := world.updateUser accountId (fun u => u.restated world.env mutation)
        (next.user accountId,next)
  | .record uid what, world => ((),world.log uid what)

abbrev Web := Program web JsError

end Passmower
