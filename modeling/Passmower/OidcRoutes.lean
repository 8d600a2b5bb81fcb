import Passmower.GithubLogin

/-! The interaction routes, and the runs they take part in: a browser opens an interaction,
sends requests to it in any order, and resumes with its result in the next one, while
administrators edit accounts and the operator reconfigures the upstream providers. -/
namespace Passmower
open JavaScript Resumption Program

inductive Request where
  | email (uid : Nat) (address : String)
  | verifyEmail (uid : Nat) (token : String) (cookie : Option Nat)
  | emailComplete (uid : Nat)
  | federated (uid : Nat) (upstream : String) (callback : Option Callback)
  | enterUsername (uid : Nat) (username : String)
  | abort (uid : Nat)
  deriving DecidableEq, Repr

def usernameCommitted : Condition := {type := "UsernameCommitted", status := "True"}

namespace OidcRoutes

def email (env : Env) (uid : Nat) (address : String) : Web Unit :=
  if !env.outboundEmailEnabled then raise (.http 404 "Email login is disabled")
  else if !env.isEmail address then .pure ()
  else EmailLogin.sendLink env uid address

def emailComplete (env : Env) (uid : Nat) : Web Unit := do
  let details ← interactionDetails uid
  match details.result.filter (·.emailVerified) with
  | none => .pure ()
  | some result => EmailLogin.completeLogin env uid result.email result.emailVerifiedAt

def federated (env : Env) (uid : Nat) (upstream : String) (callback : Option Callback) : Web Unit := do
  let details ← interactionDetails uid
  if details.prompt ≠ .login then raise .assertion
  else if upstream = "gh" then
    if !env.githubEnabled then raise (.http 404 "GitHub login is disabled")
    else githubLogin env uid callback
  else match getOidcProvider env upstream with
    | none => raise (.http 404 "Unknown or disabled login provider")
    | some config => oidcLogin env uid config callback

def usernameExists (username : String) : Web Bool :=
  if username = "" then .pure false
  else do
    let user ← findUser username
    .pure user.isSome

def enterUsername (env : Env) (uid : Nat) (username : String) : Web Unit := do
  let details ← interactionDetails uid
  if details.prompt ≠ .login then raise .assertion
  else do
    let taken ← usernameExists username
    if usernameErrors env username ≠ [] ∨ taken then .pure ()
    else do
      record uid (.enterUsername username)
      let submission := details.carried
      match ← createUser uid username submission.email submission.githubEmails
          (submission.stableIdentity.getD {}) with
      | none => .pure ()
      | some account => do
          let _ ← mutateUserStatus account.accountId (.addCondition usernameCommitted)
          let account ← recordSubmittedMagicLinkVerification account submission
          match submission.oauth, submission.oidc with
          | some _, _ => githubLogin env uid (some {})
          | none, some (provider,_) => match getOidcProvider env provider with
              | none => raise (.other "not implemented")
              | some config => oidcLogin env uid config (some {})
          | none, none => interactionResult uid (.login account.accountId)

def abort (uid : Nat) : Web Unit := do
  let _ ← interactionDetails uid
  accessDenied uid "End-User aborted interaction"

end OidcRoutes

def Request.program (env : Env) : Request → Web Unit
  | .email uid address => OidcRoutes.email env uid address
  | .verifyEmail uid token cookie => EmailLogin.verifyLink env uid token cookie
  | .emailComplete uid => OidcRoutes.emailComplete env uid
  | .federated uid upstream callback => OidcRoutes.federated env uid upstream callback
  | .enterUsername uid username => OidcRoutes.enterUsername env uid username
  | .abort uid => OidcRoutes.abort uid

end Passmower
