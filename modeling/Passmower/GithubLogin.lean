import Passmower.OidcLogin

/-! Login through GitHub: its three phases, which keep verified addresses only. -/
namespace Passmower
open JavaScript Resumption Program

def getOAuthAccessToken (uid : Nat) : Web (Option String) := ask (I := web) (.getOAuthAccessToken uid)

def gitHubGroupPrefix : String := "github.com"

def getGitHubEmails : Web (Option (List EmailItem)) := do
  let observedAt ← now
  let body : Option (List EmailItem) ← ask (I := web) .getGitHubEmails
  .pure (body.map fun emails => (emails.filter (fun email => email.verified = some true)).map
    (fun email => {email with observedAt := some observedAt}))

def getGitHubUser : Web (Option GithubUser) := ask (I := web) .getGitHubUser

def getOrganizationTeams : Web (Option (List String)) := ask (I := web) .getOrganizationTeams

def githubGroups (env : Env) : Web (List Group) := match env.githubOrganization with
  | none => .pure []
  | some _ => do
      let teams ← getOrganizationTeams
      .pure ((teams.getD []).map (fun team => ⟨gitHubGroupPrefix,team⟩))

namespace GithubLogin

def start (uid : Nat) : Web Unit := do
  let state ← randomText
  interactionResult uid (.state s!"{uid}|{state}")

def receive (uid : Nat) (details : Interaction) (callback : Callback) : Web (Option String) := do
  match details.result.filter (fun result => result.state = callback.state) with
  | none =>
      accessDenied uid "State does not match"
      .pure none
  | some _ => match ← getOAuthAccessToken uid with
      | none => raise .typeError
      | some text => match truthy (some text) with
          | none =>
              accessDenied uid "User aborted login"
              .pure none
          | some token => do
              interactionResult uid (.oauth token)
              .pure (some token)

def persist (env : Env) (user : GithubUser) (emails : List EmailItem) : Option OidcUser → Web Unit
  | none => .pure ()
  | some account => do
      let groups ← githubGroups env
      let _ ← updateUserSpecs account.accountId (mergeGithub user groups emails)
      .pure ()

def link (env : Env) (uid : Nat) : Web Unit := do
  match ← getGitHubEmails with
  | none => accessDenied uid "Error getting emails from GitHub"
  | some emails => match ← getGitHubUser with
      | none => accessDenied uid "Error getting profile from GitHub"
      | some user => do
          record uid (.githubLogin user emails)
          let account ← createOrUpdateByEmails env uid none (some emails) none user.login
            {githubId := user.id}
          persist env user emails account
          let result ← getLoginResult uid account
          interactionResult uid result false

end GithubLogin

def githubLogin (env : Env) (uid : Nat) (callback : Option Callback) : Web Unit := do
  let details ← interactionDetails uid
  match truthy details.carried.oauth, callback with
  | some _, _ => GithubLogin.link env uid
  | none, none => GithubLogin.start uid
  | none, some callback => do
      match ← GithubLogin.receive uid details callback with
      | none => .pure ()
      | some _ => GithubLogin.link env uid

end Passmower
