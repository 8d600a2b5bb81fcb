import Passmower.KubeOidcUserService
import Passmower.Resumption.Stepping

/-! The groups of an account by source: logins, SCIM projections and approvals write them, the admin UI shows them
merged, and a profile save splits them again. -/
namespace Passmower
open JavaScript Resumption

def GitHubGroupPrefix : String := "github.com"

structure GroupSettings where
  env : Env := {}
  /- `GROUP_PREFIX`, empty where it is not set -/
  groupPrefix : String := ""
  requiredGroup : Option String := none
  disableFrontendEdit : Bool := false

structure GroupEntry where
  groupPrefix : String
  name : Option String

def GroupEntry.group (entry : GroupEntry) : Option Group := (truthy entry.name).map fun name => ⟨entry.groupPrefix,name⟩

/- The groups `POST /admin/api/accounts` stores of those submitted: the first of each, and none of GitHub's. -/
def savedGroups (entries : List GroupEntry) : List Group :=
  ((entries.filterMap GroupEntry.group).filter (·.groupPrefix ≠ GitHubGroupPrefix)).eraseDups

def mergeAccount (name company : Option String) (groups : List Group) (specs : Specs) : Specs :=
  {specs with passmower := {specs.passmower with
    name := name <|> specs.passmower.name, company := company <|> specs.passmower.company, groups := some groups}}

def mergeProfile (name company : Option String) (specs : Specs) : Specs :=
  {specs with passmower := {specs.passmower with
    name := name <|> specs.passmower.name, company := company <|> specs.passmower.company}}

/- `{identities: {[sourceKey]: {sub, active, groups}}}`, from a SCIM subject that is linked to the account -/
def mergeProjection (sourceKey externalId : String) (active : Bool) (groups : List Group) (specs : Specs) : Specs :=
  let entries := specs.identities.getD []
  let old := (mapGet sourceKey entries).getD {}
  {specs with identities := some (mapSet sourceKey
    {old with sub := some externalId, active := some active, groups := some groups} entries)}

def GroupSettings.approvedGroup (settings : GroupSettings) : Option Group := do
  let localPrefix ← (truthy (some settings.groupPrefix)).map (· ++ ":")
  let required ← settings.requiredGroup
  if localPrefix.toList <+: required.toList then
    some ⟨settings.groupPrefix,String.ofList (required.toList.drop localPrefix.toList.length)⟩
  else none

/- `Approved.add`; `pushCustomGroup` does not look whether the account has the group already. -/
def mergeApproval (settings : GroupSettings) (specs : Specs) : Specs := match settings.approvedGroup with
  | some group => {specs with passmower := {specs.passmower with groups := some (specs.passmower.groups.getD [] ++ [group])}}
  | none => specs

/- `updateUserSpecs` with no other request in between: the patch, and the status reconciled. -/
def OidcUser.updateUserSpecs (env : Env) (merge : Specs → Specs) (user : OidcUser) : OidcUser :=
  (user.toSpecs.patch (merge user.toSpecs) user).restated env .none

inductive GroupMove where
  | oidcLogin (key : String) (identity : OidcIdentity)
  | githubLogin (user : GithubUser) (groups : List Group) (emails : List EmailItem)
  | project (sourceKey externalId : String) (active : Bool) (groups : List Group)
  | approve
  | saveProfile (name company : Option String)
  | reconcile
  /- the admin UI loads the accounts -/
  | load
  /- the form of an earlier load is submitted, with local groups taken out and others added -/
  | save (form : Nat) (removed : List Group) (added : List (Option String)) (name company : Option String)

/- An account, the lists of its groups the admin UI has loaded, and the groups added to it locally so far. -/
structure GroupSite where
  user : OidcUser
  loaded : List (List DisplayedGroup) := []
  granted : List Group := []

namespace GroupSite
variable (settings : GroupSettings) (site : GroupSite)

def kept (form : Nat) (removed : List Group) : List Group :=
  ((site.loaded.getD form []).filter fun g => !(g.editable && removed.contains g.toGroup)).map (·.toGroup)

def addedEntries (added : List (Option String)) : List GroupEntry := added.map fun name => ⟨settings.groupPrefix,name⟩

def submitted (form : Nat) (removed : List Group) (added : List (Option String)) : List GroupEntry :=
  (site.kept form removed).map (fun g => ⟨g.groupPrefix,some g.name⟩) ++ addedEntries settings added

def addedGroups (added : List (Option String)) : List Group := (addedEntries settings added).filterMap GroupEntry.group

def update (merge : Specs → Specs) : GroupSite := {site with user := site.user.updateUserSpecs settings.env merge}

/- With frontend edits disabled a save is answered with a validation error. -/
def step : GroupMove → GroupSite
  | .oidcLogin key identity => site.update settings (mergeIdentity key identity)
  | .githubLogin user groups emails => site.update settings (mergeGithub user groups emails)
  | .project sourceKey externalId active groups => site.update settings (mergeProjection sourceKey externalId active groups)
  | .approve => {site.update settings (mergeApproval settings) with
      granted := site.granted ++ settings.approvedGroup.toList}
  | .saveProfile name company =>
      if settings.disableFrontendEdit then site else site.update settings (mergeProfile name company)
  | .reconcile => {site with user := site.user.restated settings.env .none}
  | .load => {site with loaded := site.loaded ++ [site.user.mapGroups settings.groupPrefix settings.disableFrontendEdit]}
  | .save form removed added name company =>
      if settings.disableFrontendEdit then site
      else {site.update settings (mergeAccount name company (savedGroups (site.submitted settings form removed added))) with
        granted := site.granted ++ addedGroups settings added}

def moves (run : List GroupMove) : GroupSite := run.foldl (step settings) site

def Splits : GroupMove → Prop
  | .save form removed added _ _ => settings.disableFrontendEdit = false → ∀ g ∈ site.kept form removed,
      g.name ≠ "" → g.groupPrefix ≠ GitHubGroupPrefix → g ∈ site.granted ∨ g ∈ addedGroups settings added
  | _ => True

section Sources
variable {settings : GroupSettings} {site : GroupSite} {g : Group} {merge : Specs → Specs} {move : GroupMove}

end Sources

def begin (user : OidcUser) (granted : List Group) : GroupSite where
  user := user
  granted := user.passmower.groups.getD [] ++ granted

end GroupSite

def staff : Group := ⟨"entra","staff"⟩

end Passmower
