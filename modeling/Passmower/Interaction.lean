import Passmower.IdentityIntegrity

/-! Interactions of the authorization server: the submission object the login endpoints
write into one, how a write merges over the submission carried over from the interaction
before, and what an enrolment leaves in it for the username form. -/
namespace Passmower

structure StableIdentity where
  providerKey : Option String := none
  subject : Option String := none
  githubId : Option Nat := none
  deriving DecidableEq, Repr

structure OidcIdentity where
  sub : String
  name : Option String := none
  company : Option String := none
  primaryEmail : Option String := none
  emails : List EmailItem := []
  groups : List Group := []
  preferredUsername : Option String := none
  linkClaims : List (String × String) := []
  deriving DecidableEq, Repr

structure OidcFlow where
  provider : String
  state : String
  codeVerifier : String
  nonce : String
  deriving DecidableEq, Repr

structure Submission where
  email : Option String := none
  token : Option String := none
  emailVerified : Bool := false
  emailVerifiedAt : Option String := none
  requireCustomUsername : Bool := false
  githubEmails : Option (List EmailItem) := none
  preferredUsername : Option String := none
  stableIdentity : Option StableIdentity := none
  state : Option String := none
  oauth : Option String := none          -- `{provider: 'GitHub', token}`
  oidcFlow : Option OidcFlow := none
  oidc : Option (String × OidcIdentity) := none   -- `{provider, identity}`
  login : Option String := none          -- `{accountId}`
  error : Option (String × Option String) := none
  deriving DecidableEq, Repr

def Submission.onto (extra base : Submission) : Submission where
  email := extra.email <|> base.email
  token := extra.token <|> base.token
  emailVerified := extra.emailVerified || base.emailVerified
  emailVerifiedAt := extra.emailVerifiedAt <|> base.emailVerifiedAt
  requireCustomUsername := extra.requireCustomUsername || base.requireCustomUsername
  githubEmails := extra.githubEmails <|> base.githubEmails
  preferredUsername := extra.preferredUsername <|> base.preferredUsername
  stableIdentity := extra.stableIdentity <|> base.stableIdentity
  state := extra.state <|> base.state
  oauth := extra.oauth <|> base.oauth
  oidcFlow := extra.oidcFlow <|> base.oidcFlow
  oidc := extra.oidc <|> base.oidc
  login := extra.login <|> base.login
  error := extra.error <|> base.error

inductive Literal where
  | link (email token : String)
  | error (error : String) (description : Option String)
  | state (state : String)
  | oauth (token : String)
  | oidcFlow (flow : OidcFlow)
  | oidc (provider : String) (identity : OidcIdentity)
  /- the request of `requireCustomUsername`, with the interaction's own `result` spread over it -/
  | usernameRequest (result : Option Submission) (email : Option String)
      (githubEmails : Option (List EmailItem)) (preferredUsername : Option String)
      (identity : StableIdentity)
  | result (result : Submission)
  | login (accountId : String)
  deriving DecidableEq, Repr

def Literal.onto (literal : Literal) (base : Submission) : Submission := match literal with
  | .link email token => {base with email := some email, token := some token}
  | .error kind description => {base with error := some (kind,description)}
  | .state text => {base with state := some text}
  | .oauth token => {base with oauth := some token}
  | .oidcFlow flow => {base with oidcFlow := some flow}
  | .oidc provider identity => {base with oidc := some (provider,identity)}
  | .usernameRequest own email githubEmails preferredUsername identity =>
      (own.getD {}).onto {base with
        requireCustomUsername := true, email := email, githubEmails := githubEmails,
        preferredUsername := preferredUsername, stableIdentity := some identity}
  | .result own => own.onto base
  | .login accountId => {base with login := some accountId}

inductive Prompt where
  | login
  | other (name : String)
  deriving DecidableEq, Repr

/- The chain of an interaction is the fresh interaction it was resumed from. -/
structure Interaction where
  chain : Nat
  prompt : Prompt
  lastSubmission : Option Submission := none
  result : Option Submission := none
  deriving DecidableEq, Repr

def Interaction.carried (i : Interaction) : Submission := i.lastSubmission.getD {}

/- What `interactionResult` writes a literal over: with `mergeWithLastSubmission` (the default) the
carried submission. Whether that includes an error result is oidc-provider's own matter. -/
def Interaction.base (mergeErrors : Bool) (i : Interaction) (literal : Literal) (merge : Bool) : Submission :=
  if merge && (mergeErrors || (literal.onto {}).error.isNone) then i.carried else {}

def Interaction.store (mergeErrors : Bool) (i : Interaction) (literal : Literal) (merge : Bool) :
    Interaction := {i with result := some (literal.onto (i.base mergeErrors literal merge))}

def Interaction.resume (i : Interaction) (prompt : Prompt) : Interaction :=
  ⟨i.chain,prompt,i.result,none⟩

@[simp] theorem storeChain (e : Bool) (i : Interaction) (literal : Literal) (merge : Bool) :
    (i.store e literal merge).chain = i.chain := rfl

@[simp] theorem storeLastSubmission (e : Bool) (i : Interaction) (literal : Literal) (merge : Bool) :
    (i.store e literal merge).lastSubmission = i.lastSubmission := rfl

end Passmower
