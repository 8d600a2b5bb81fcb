import Passmower.Enrolment

/-! Magic-link login: `getLoginResult`, and the `EmailLogin` service with its token and the
server-side `emailVerified` flag. -/
namespace Passmower
open JavaScript Resumption Program

def now : Web String := ask (I := web) .now

def findInteraction (uid : Nat) : Web (Option Interaction) := ask (I := web) (.findInteraction uid)

def saveInteraction (uid : Nat) (result : Submission) : Web Unit :=
  ask (I := web) (.saveInteraction uid result)

def sendMail (uid : Nat) (token address : String) : Web Bool :=
  ask (I := web) (.sendMail uid token address)

def sendSlackMessage (slackId : String) : Web Bool := ask (I := web) (.sendSlackMessage slackId)

inductive AccessFailure where
  | accountBanned
  | accountTypeNotLoginCapable
  deriving DecidableEq, Repr

def getAccountTypeAccessFailure (account : OidcUser) : Option AccessFailure :=
  if account.spec.type = some "banned" then some .accountBanned
  else if account.spec.type = none ∨ account.spec.type = some "person" then none
  else some .accountTypeNotLoginCapable

def getLoginResult (uid : Nat) (account : Option OidcUser) : Web Literal := do
  let details ← interactionDetails uid
  match account with
  | none =>
      -- A refusal outranks a username prompt stashed earlier in the interaction.
      match details.result.bind (·.error) with
      | some (error,description) => .pure (.error error description)
      | none => match details.result.filter (·.requireCustomUsername) with
          | some result => .pure (.result result)
          | none => .pure (.error "access_denied" (some "Account doesn't exist"))
  | some account => match getAccountTypeAccessFailure account with
      | some _ => .pure (.error "access_denied" (some "This account cannot sign in"))
      | none => .pure (.login account.accountId)

def recordMagicLinkVerification (account : OidcUser) (email verifiedAt : Option String) :
    Web OidcUser := do
  let updated ← recordEmailVerification account.accountId email verifiedAt
  .pure (updated.getD account)

def recordSubmittedMagicLinkVerification (account : OidcUser) (submission : Submission) :
    Web OidcUser :=
  if !submission.emailVerified ∨ truthy submission.email = none then .pure account
  else recordMagicLinkVerification account submission.email submission.emailVerifiedAt

def findByEmail (env : Env) (email : String) : Web (Option OidcUser) := do
  let users ← allUsers none
  lift (findUserByEmails env [canonicalizeEmail env (some email)] users)

namespace EmailLogin

def sendSlack (account : Option OidcUser) : Web Bool :=
  match account.bind (fun user => truthy user.status.slackId) with
  | some slackId => sendSlackMessage slackId
  | none => .pure false

def sendLink (env : Env) (uid : Nat) (address : String) : Web Unit := do
  let _ ← interactionDetails uid
  let email := env.toLowerCase address
  let found ← (findByEmail env email).attempt
  match found with
  | .error (.identityIntegrity _) =>
      accessDenied uid "This email is attached to a conflicted account. Contact an administrator."
  | .error error => raise error
  | .ok account =>
      if !env.enrollUsers ∧ account = none then accessDenied uid "Account doesn't exist"
      else do
        let token ← randomText
        interactionResult uid (.link email token)
        let sentEmail ← sendMail uid token email
        let sentSlack ← sendSlack account
        if sentEmail || sentSlack then .pure ()
        else raise (.other "email_sending_failed")

def recordLogin (email verifiedAt : Option String) : Option OidcUser → Web (Option OidcUser)
  | none => .pure none
  | some user => do
      let user ← recordMagicLinkVerification user email verifiedAt
      .pure (some user)

/- Relies on the server-side `emailVerified` flag, which only a valid token could have set. -/
def completeLogin (env : Env) (uid : Nat) (email verifiedAt : Option String) : Web Unit := do
  record uid (.completeLogin email)
  let found ← createOrUpdateByEmails env uid email none none none {}
  let account ← recordLogin email verifiedAt found
  let result ← getLoginResult uid account
  interactionResult uid result

def verified (result : Submission) (verifiedAt : String) : Submission :=
  {result with emailVerified := true, emailVerifiedAt := some verifiedAt}

def verifyLink (env : Env) (uid : Nat) (token : String) (cookie : Option Nat) : Web Unit := do
  let interaction ← findInteraction uid
  match (interaction.bind (·.result)).filter (fun result => result.token = some token) with
  | none => .pure ()
  | some result => do
      let verifiedAt ← now
      record uid (.presented token)
      saveInteraction uid (verified result verifiedAt)
      -- Opened in the original browser it finishes right away.
      if cookie = some uid then completeLogin env uid result.email (some verifiedAt)
      else .pure ()

end EmailLogin
end Passmower
