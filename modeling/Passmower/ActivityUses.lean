import Passmower.ActivityTracker

/-! Uses of clients, and what a tracker knows of them: which it holds until they are flushed, and that it
holds no other than those that were recorded. -/
namespace Passmower
open JavaScript

inductive Use where
  | client (reference : Reference) (time : Int)
  | user (accountId clientId : String) (time : Int)
  deriving DecidableEq, Repr

def Activity.uses (activity : Activity) : List Use := match activity.client with
  | none => []
  | some client => .client client.reference client.lastAuthenticatedAt :: match activity.user with
      | none => []
      | some accountId => [.user accountId client.clientId client.lastAuthenticatedAt]

inductive Use.Within : Use → Use → Prop where
  | client {reference : Reference} {t t' : Int} (later : t ≤ t') : Within (.client reference t) (.client reference t')
  | user {accountId clientId : String} {t t' : Int} (later : t ≤ t') :
      Within (.user accountId clientId t) (.user accountId clientId t')

def ofUser (accountId : String) (applications : Applications) (use : Use) : Prop :=
  ∃ entry ∈ applications, use = .user accountId entry.1 entry.2.lastAuthenticatedAt

def ofUsers (users : List (String × Applications)) (use : Use) : Prop := ∃ user ∈ users, ofUser user.1 user.2 use

def ofClient (activity : Option Application) (use : Use) : Prop :=
  ∃ application, activity = some application ∧ use = .client application.reference application.lastAuthenticatedAt

def ofClients (clientIds : List String) (clients : Applications) (use : Use) : Prop :=
  ∃ clientId ∈ clientIds, ofClient (mapGet clientId clients) use

/- Which resource a client id stands for. Both `x/web` as an `OIDCMiddlewareClient` and `middleware-x/web` as an
`OIDCClient` have the id `middleware-x.web`. -/
abbrev Directory := String → Option Reference

def Activity.Fits (directory : Directory) (activity : Activity) : Prop :=
  ∀ client, activity.client = some client → directory client.clientId = some client.reference

namespace Tracker
variable (tracker : Tracker)

def Holds : Use → Prop
  | .client reference t => ∃ clientId activity, mapGet clientId tracker.pendingClients = some activity ∧
      activity.reference = reference ∧ t ≤ activity.lastAuthenticatedAt
  | .user accountId clientId t => ∃ activity, mapGet clientId (tracker.applicationsOf accountId) = some activity ∧
      t ≤ activity.lastAuthenticatedAt

abbrev Targeted (directory : Directory) (applications : Applications) : Prop :=
  ∀ entry ∈ applications, directory entry.1 = some entry.2.reference

structure Told (directory : Directory) (recorded : List Use) (tracker : Tracker) : Prop where
  users : ∀ user ∈ tracker.pendingUsers, Sourced (fun c t => Use.user user.1 c t ∈ recorded) user.2
  clients : Sourced (fun c t => ∃ reference, directory c = some reference ∧ Use.client reference t ∈ recorded) tracker.pendingClients
  targets : Targeted directory tracker.pendingClients

end Tracker

section Telling
variable {directory : Directory} {recorded recorded' : List Use} {tracker : Tracker} {activity : Activity}
  {accountId clientId : String} {applications : Applications} {application : Application}

theorem sourcedLater {known known' : String → Int → Prop} (sourced : Sourced known applications)
    (later : ∀ c t, known c t → known' c t) : Sourced known' applications :=
  fun entry member => ⟨(sourced entry member).1,later _ _ (sourced entry member).2⟩

theorem toldLater (told : tracker.Told directory recorded) (grown : ∀ use ∈ recorded, use ∈ recorded') :
    tracker.Told directory recorded' where
  users user member := sourcedLater (told.users user member) fun _ _ => grown _
  clients := sourcedLater told.clients fun _ _ ⟨reference,known,used⟩ => ⟨reference,known,grown _ used⟩
  targets := told.targets

theorem Tracker.Told.used (told : tracker.Told directory recorded) {entry : String × Application}
    (member : entry ∈ tracker.pendingClients) : Use.client entry.2.reference entry.2.lastAuthenticatedAt ∈ recorded := by
  obtain ⟨reference,known,used⟩ := (told.clients entry member).2
  cases Option.some.inj (known.symm.trans (told.targets entry member))
  exact used

end Telling

section Holding
variable {tracker : Tracker} {use : Use} {activity : Activity} {accountId clientId : String}
  {applications : Applications} {application : Application} {directory : Directory} {recorded recorded' : List Use}

theorem holdsWithin {a b : Use} (within : a.Within b) (holds : tracker.Holds b) : tracker.Holds a := by
  cases within with
  | client later =>
      obtain ⟨clientId,activity,held,same,newer⟩ := holds
      exact ⟨clientId,activity,held,same,later.trans newer⟩
  | user later =>
      obtain ⟨activity,held,newer⟩ := holds
      exact ⟨activity,held,later.trans newer⟩

end Holding
end Passmower
