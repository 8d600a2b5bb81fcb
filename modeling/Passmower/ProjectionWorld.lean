import Passmower.ActivityUses

/-! The world that the activity trackers of any number of pods project onto, and what holds of it all
along: every use that was recorded is shown in a status, waits to be flushed, or is in a flush. -/
namespace Passmower
open JavaScript Resumption Program Recency

structure ProjectionWorld where
  trackers : Nat → Tracker := fun _ => {}
  objects : Target → ActivityObject
  next : Outcome := .served
  intact : Bool := false
  recorded : List Use := []
  owed : Nat → Use → Prop := fun _ _ => False

namespace ProjectionWorld
variable (s : ProjectionWorld)

def setTracker (pod : Nat) (tracker : Tracker) : ProjectionWorld :=
  {s with trackers := fun p => if p = pod then tracker else s.trackers p}

def setOwed (n : Nat) (owed : Use → Prop) : ProjectionWorld :=
  {s with owed := fun m => if m = n then owed else s.owed m}

def write (target : Target) (status : ActivityStatus) : ProjectionWorld :=
  {s with objects := fun t => if t = target then ⟨status,(s.objects target).resourceVersion + 1⟩ else s.objects t}

def record (pod : Nat) (activity : Activity) : ProjectionWorld :=
  {s.setTracker pod ((s.trackers pod).record activity) with recorded := activity.uses ++ s.recorded}

def drain (n pod : Nat) : ProjectionWorld :=
  (s.setTracker pod {s.trackers pod with pendingUsers := [], pendingClients := []}).setOwed n fun use =>
    ofUsers (s.trackers pod).pendingUsers use ∨
      ofClients ((s.trackers pod).pendingClients.map Prod.fst) (s.trackers pod).pendingClients use

def requeueUser (n pod : Nat) (accountId : String) (applications : Applications) : ProjectionWorld :=
  (s.setTracker pod ((s.trackers pod).requeueUser accountId applications)).setOwed n fun use =>
    s.owed n use ∧ ¬ ofUser accountId applications use

def requeueClient (n pod : Nat) (clientId : String) (activity : Application) : ProjectionWorld :=
  (s.setTracker pod ((s.trackers pod).requeueClient clientId activity)).setOwed n fun use =>
    s.owed n use ∧ ¬ ofClient (some activity) use

def replace (target : Target) (status : ActivityStatus) (resourceVersion : Nat) : Except Failure Unit × ProjectionWorld :=
  if (s.objects target).resourceVersion = resourceVersion then (.ok (),s.write target status)
  else (.error .conflict,s)

end ProjectionWorld

def answerProjecting (n : Nat) : Handler projecting Unit ProjectionWorld := fun _ c s => match c with
  | .drain pod => (((s.trackers pod).pendingUsers,(s.trackers pod).pendingClients),s.drain n pod)
  | .knownClients pod => ((s.trackers pod).knownClients,s)
  | .requeueUser pod accountId applications => ((),s.requeueUser n pod accountId applications)
  | .requeueClient pod clientId activity => ((),s.requeueClient n pod clientId activity)
  | .send (.get target) => (s.next.onto (.ok ⟨s.objects target,s.intact⟩),s)
  | .send (.replace target status resourceVersion) => match s.next with
      | .served => s.replace target status resourceVersion
      | .failed error => (.error error,s)
  | .receive _ answer => (s.next.onto answer,s)

inductive ProjectionMove where
  | record (pod : Nat) (activity : Activity)
  | register (pod : Nat) (reference : Reference)
  | unregister (pod : Nat) (clientId : String)
  | flush (pod : Nat)
  | proceed (n : Nat) (outcome : Outcome) (intact : Bool)
  /- somebody writes another part of the resource -/
  | touch (target : Target)
  deriving DecidableEq, Repr

def ProjectionMove.Fits (directory : Nat → Directory) : ProjectionMove → Prop
  | .record pod activity => activity.Fits (directory pod)
  | .proceed _ outcome _ => ∀ error, outcome = .failed error → error.code ≠ some 404
  | _ => True

namespace ProjectionWorld
variable (s : ProjectionWorld)

def recent (accountId : String) : List Application := (s.objects (.user accountId)).status.recentApplications

def lastUsedAt (reference : Reference) : Option Int := (s.objects (.client reference)).status.lastUsedAt

end ProjectionWorld

/- `objects` are the resources as they were in the beginning. -/
section Accounts
variable (directory : Nat → Directory) (limit : Nat) (objects : Target → ActivityObject)

def UsedBy (recorded : List Use) (accountId clientId : String) (t : Int) : Prop :=
  (∃ application ∈ (objects (.user accountId)).status.recentApplications,
    application.clientId = clientId ∧ application.lastAuthenticatedAt = t) ∨ Use.user accountId clientId t ∈ recorded

abbrev CoversUse (recent : List Application) (clientId : String) (t : Int) : Prop :=
  Covers Application.clientId Application.lastAuthenticatedAt limit recent clientId t

abbrev TidyList (recent : List Application) : Prop :=
  Tidy Application.clientId Application.lastAuthenticatedAt limit recent

def Delivered (s : ProjectionWorld) : Use → Prop
  | .client reference t => ∃ last, s.lastUsedAt reference = some last ∧ t ≤ last
  | .user accountId clientId t => TidyList limit (s.recent accountId) ∧ CoversUse limit (s.recent accountId) clientId t

def PendingUse (s : ProjectionWorld) (use : Use) : Prop := ∃ pod, (s.trackers pod).Holds use

def Accounted (s : ProjectionWorld) (use : Use) : Prop :=
  Delivered limit s use ∨ PendingUse s use ∨ ∃ n use', s.owed n use' ∧ use.Within use'

structure Displayed (s : ProjectionWorld) : Prop where
  shown : ∀ accountId, ∀ application ∈ s.recent accountId,
    UsedBy objects s.recorded accountId application.clientId application.lastAuthenticatedAt
  distinct : ∀ accountId, ((s.recent accountId).map Application.clientId).Nodup
  kept : ∀ accountId, ∀ application ∈ (objects (.user accountId)).status.recentApplications,
    CoversUse limit (s.recent accountId) application.clientId application.lastAuthenticatedAt
  last : ∀ reference t, s.lastUsedAt reference = some t →
    (objects (.client reference)).status.lastUsedAt = some t ∨ Use.client reference t ∈ s.recorded
  later : ∀ reference t, (objects (.client reference)).status.lastUsedAt = some t →
    ∃ t', s.lastUsedAt reference = some t' ∧ t ≤ t'

structure Accounting (s : ProjectionWorld) : Prop where
  queued : ∀ pod, (s.trackers pod).Told (directory pod) s.recorded
  displayed : Displayed limit objects s
  accounted : ∀ use ∈ s.recorded, Accounted limit s use

structure Advance (s t : ProjectionWorld) : Prop where
  recorded : ∀ use ∈ s.recorded, use ∈ t.recorded
  delivered : ∀ use, Delivered limit s use → Delivered limit t use
  versions : ∀ target, (s.objects target).resourceVersion ≤ (t.objects target).resourceVersion ∧
    ((s.objects target).resourceVersion = (t.objects target).resourceVersion → s.objects target = t.objects target)

end Accounts

section Changes
variable {directory : Nat → Directory} {limit : Nat} {objects : Target → ActivityObject} {s t u : ProjectionWorld}
  {status : ActivityStatus} {applications : Applications} {accountId clientId : String} {activity : Application}

theorem advanceSelf : Advance limit s s := ⟨fun _ => id,fun _ => id,fun _ => ⟨Nat.le_refl _,fun _ => rfl⟩⟩

theorem advanceTrans (first : Advance limit s t) (second : Advance limit t u) : Advance limit s u where
  recorded use member := second.recorded use (first.recorded use member)
  delivered use delivered := second.delivered use (first.delivered use delivered)
  versions target := by
    obtain ⟨before,same⟩ := first.versions target
    obtain ⟨after,same'⟩ := second.versions target
    refine ⟨before.trans after,fun equal => ?_⟩
    have first : (s.objects target).resourceVersion = (t.objects target).resourceVersion := by omega
    have second : (t.objects target).resourceVersion = (u.objects target).resourceVersion := by omega
    exact (same first).trans (same' second)

theorem trackersSet (P : Nat → Tracker → Prop) {pod : Nat} {tracker : Tracker} (changed : P pod tracker)
    (others : ∀ p, P p (s.trackers p)) (p : Nat) : P p ((s.setTracker pod tracker).trackers p) := by
  simp only [ProjectionWorld.setTracker]
  split
  · rename_i same
    exact same ▸ changed
  · exact others p

theorem pendingSet {pod : Nat} {tracker : Tracker} {use : Use}
    (holds : (s.trackers pod).Holds use → tracker.Holds use) (pending : PendingUse s use) :
    PendingUse (s.setTracker pod tracker) use := by
  obtain ⟨p,held⟩ := pending
  exact ⟨p,trackersSet (fun p tracker => (s.trackers p).Holds use → tracker.Holds use) holds (fun _ => id) p held⟩

theorem pendingOf {pod : Nat} {tracker : Tracker} {use : Use} (holds : tracker.Holds use) :
    PendingUse (s.setTracker pod tracker) use := ⟨pod,by simpa [ProjectionWorld.setTracker] using holds⟩

theorem usedLater {recorded recorded' : List Use} {t : Int} (grown : ∀ use ∈ recorded, use ∈ recorded')
    (used : UsedBy objects recorded accountId clientId t) : UsedBy objects recorded' accountId clientId t :=
  used.imp id (grown _)

theorem deliveredSame (same : ∀ target, (t.objects target).status = (s.objects target).status) (use : Use) :
    Delivered limit t use ↔ Delivered limit s use := by
  cases use with
  | client reference time => simp only [Delivered,ProjectionWorld.lastUsedAt,same]
  | user accountId clientId time => simp only [Delivered,ProjectionWorld.recent,same]

theorem displayedLater (same : ∀ target, (t.objects target).status = (s.objects target).status)
    (grown : ∀ use ∈ s.recorded, use ∈ t.recorded) (displayed : Displayed limit objects s) :
    Displayed limit objects t where
  shown accountId application member := by
    rw [ProjectionWorld.recent,same] at member
    exact usedLater grown (displayed.shown accountId application member)
  distinct accountId := by
    rw [ProjectionWorld.recent,same]
    exact displayed.distinct accountId
  kept accountId application member := by
    rw [ProjectionWorld.recent,same]
    exact displayed.kept accountId application member
  last reference time shown := by
    rw [ProjectionWorld.lastUsedAt,same] at shown
    exact (displayed.last reference time shown).imp id (grown _)
  later reference time before := by
    rw [ProjectionWorld.lastUsedAt,same]
    exact displayed.later reference time before

theorem accountedAfter {use : Use} (accounted : Accounted limit s use) (same : t.objects = s.objects)
    (pending : ∀ use, PendingUse s use → Accounted limit t use)
    (owed : ∀ m taken, s.owed m taken → (∃ m, t.owed m taken) ∨ PendingUse t taken) : Accounted limit t use := by
  rcases accounted with told | waiting | ⟨m,taken,before,within⟩
  · exact .inl ((deliveredSame (fun target => by rw [same]) use).mpr told)
  · exact pending use waiting
  · rcases owed m taken before with ⟨m,still⟩ | back
    · exact .inr (.inr ⟨m,taken,still,within⟩)
    · exact .inr (.inl (back.imp fun pod => holdsWithin within))

theorem trackedAccounting (accounting : Accounting directory limit objects s) (same : t.objects = s.objects)
    (grown : ∀ use ∈ s.recorded, use ∈ t.recorded) (queued : ∀ pod, (t.trackers pod).Told (directory pod) t.recorded)
    (accounted : ∀ use ∈ t.recorded, Accounted limit t use) :
    Accounting directory limit objects t ∧ Advance limit s t := by
  have statuses : ∀ target, (t.objects target).status = (s.objects target).status := fun target => by rw [same]
  exact ⟨⟨queued,displayedLater statuses grown accounting.displayed,accounted⟩,
    grown,fun use => (deliveredSame statuses use).mpr,fun target => by simp [same]⟩

end Changes

structure Projected (limit : Nat) (objects : Target → ActivityObject) (target : Target)
    (statusFunction : ActivityStatus → ActivityStatus) (uses : Use → Prop) (s : ProjectionWorld) : Prop where
  displayed : Displayed limit objects (s.write target (statusFunction (s.objects target).status))
  still : ∀ use, Delivered limit s use →
    Delivered limit (s.write target (statusFunction (s.objects target).status)) use
  told : ∀ use, uses use → Delivered limit (s.write target (statusFunction (s.objects target).status)) use

section Writes
variable {directory : Nat → Directory} {limit : Nat} {objects : Target → ActivityObject} {s : ProjectionWorld}
  {target : Target} {status : ActivityStatus} {statusFunction : ActivityStatus → ActivityStatus} {uses : Use → Prop}
  {applications : Applications} {accountId clientId : String} {reference : Reference} {activity : Application}

theorem writeVersions (target target' : Target) :
    (s.objects target').resourceVersion ≤ ((s.write target status).objects target').resourceVersion ∧
      ((s.objects target').resourceVersion = ((s.write target status).objects target').resourceVersion →
        s.objects target' = (s.write target status).objects target') := by
  simp only [ProjectionWorld.write]
  split
  · rename_i same
    subst same
    exact ⟨Nat.le_succ _,fun equal => absurd equal (Nat.ne_of_lt (Nat.lt_succ_self _))⟩
  · exact ⟨Nat.le_refl _,fun _ => rfl⟩

theorem writeAccounting (accounting : Accounting directory limit objects s)
    (projected : Projected limit objects target statusFunction uses s) :
    Accounting directory limit objects (s.write target (statusFunction (s.objects target).status)) ∧
      Advance limit s (s.write target (statusFunction (s.objects target).status)) := by
  refine ⟨⟨accounting.queued,projected.displayed,?_⟩,
    fun _ => id,projected.still,writeVersions target⟩
  intro use member
  rcases accounting.accounted use member with told | waiting
  · exact .inl (projected.still use told)
  · exact .inr waiting

theorem writeSame (unchanged : status = (s.objects target).status) (target' : Target) :
    ((s.write target status).objects target').status = (s.objects target').status := by
  simp only [ProjectionWorld.write]
  split
  · rename_i same
    rw [unchanged,same]
  · rfl

theorem toldBefore (projected : Projected limit objects target statusFunction uses s)
    (unchanged : statusFunction (s.objects target).status = (s.objects target).status) {use : Use} (member : uses use) :
    Delivered limit s use := (deliveredSame (writeSame unchanged) use).mp (projected.told use member)

section User
variable (accounting : Accounting directory limit objects s)
  (sourced : Sourced (fun c t => Use.user accountId c t ∈ s.recorded) applications)

include sourced

include accounting

end User

section Client
variable (accounting : Accounting directory limit objects s)

include accounting

end Client
end Writes
end Passmower
