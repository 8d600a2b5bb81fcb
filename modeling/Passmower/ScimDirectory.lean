import Passmower.Account
import Passmower.Resumption.Reasoning

/-! The SCIM directory of a connection: subjects and groups as resources of the API server, which
may leave any call unanswered, and the repository through which the SCIM service reads and writes them. -/
namespace Passmower
open JavaScript Resumption Program

inductive GrantMode where
  | allUsers
  | mappedGroups
  deriving DecidableEq, Repr

structure ScimConnection where
  uid : String
  group : Group
  grantMode : GrantMode := .allUsers

inductive ScimKind where
  | subject
  | group
  deriving DecidableEq, Repr

structure ScimEmail where
  email : String
  primary : Bool
  deriving DecidableEq, Repr

structure ScimIdentity where
  resourceType : String
  externalId : Option Json := none
  userName : Option String := none
  displayName : Option String := none
  active : Option Bool := none
  emails : List ScimEmail := []
  sourceGroups : List String := []
  groups : List Group := []
  createdAt : String := ""
  lastModified : String := ""
  deriving Repr

def ScimIdentity.isActive (identity : ScimIdentity) : Bool := identity.active != some false

structure ScimRecord where
  connectionUid : String
  identity : ScimIdentity

structure ScimResource where
  accountId : String
  kind : ScimKind
  connectionUid : String
  identity : ScimIdentity

structure ScimDirectory where
  records : ScimKind → List (String × ScimRecord)
  unique : ∀ kind, ((records kind).map Prod.fst).Nodup

namespace ScimDirectory
variable (directory : ScimDirectory)

def find (kind : ScimKind) (name : String) : Option ScimRecord := mapGet name (directory.records kind)

def mapped (kind : ScimKind) (entry : String × ScimRecord) : ScimResource :=
  ⟨entry.1,kind,entry.2.connectionUid,entry.2.identity⟩

def resource (kind : ScimKind) (name : String) : Option ScimResource :=
  (directory.find kind name).map fun record => mapped kind (name,record)

def resources (kind : ScimKind) : List ScimResource := (directory.records kind).map (mapped kind)

def put (kind : ScimKind) (name : String) (record : ScimRecord) : ScimDirectory where
  records k := if k = kind then mapSet name record (directory.records k) else directory.records k
  unique k := by
    split
    · exact mapSetUnique (directory.unique k)
    · exact directory.unique k

def held (uid : String) (kind : ScimKind) (name : String) : Option ScimIdentity :=
  ((directory.find kind name).filter (·.connectionUid = uid)).map (·.identity)

end ScimDirectory

/- `upcoming` says of the calls to come which are answered; those beyond it are. `unlisted` counts the
listings of the subjects that were not, each an error in the adapter's log. -/
structure ScimServer where
  directory : ScimDirectory
  upcoming : List Bool := []
  unlisted : Nat := 0

namespace ScimServer
variable (server : ScimServer)

def answers : Bool := server.upcoming.headD true

def next : ScimServer := {server with upcoming := server.upcoming.tail}

def fail (kind : ScimKind) : ScimServer :=
  {server.next with unlisted := if kind = .subject then server.unlisted + 1 else server.unlisted}

end ScimServer

inductive ScimCall where
  | list (kind : ScimKind)
  | get (kind : ScimKind) (name : String)
  | create (kind : ScimKind) (name : String) (record : ScimRecord)
  | patch (kind : ScimKind) (name : String) (identity : ScimIdentity)
  | project (resource : ScimResource)
  | now

abbrev ScimAnswer : ScimCall → Type
  | .list _ => Option (List ScimResource)
  | .get _ _ | .create _ _ _ | .patch _ _ _ => Option ScimResource
  | .project _ => Bool
  | .now => String

abbrev scim : Interface := ⟨ScimCall,ScimAnswer⟩

def answerScim (time : String) : (call : scim.Call) → ScimServer → scim.Answer call × ScimServer
  | .list kind, server =>
      if server.answers then (some (server.directory.resources kind),server.next) else (none,server.fail kind)
  | .get kind name, server => (if server.answers then server.directory.resource kind name else none,server.next)
  | .create kind name record, server =>
      if server.answers && (server.directory.find kind name).isNone then
        (some (ScimDirectory.mapped kind (name,record)),
          {server.next with directory := server.directory.put kind name record})
      else (none,server.next)
  | .patch kind name identity, server => match server.directory.find kind name with
      | some record =>
          let record := {record with identity := identity}
          if server.answers then
            (some (ScimDirectory.mapped kind (name,record)),
              {server.next with directory := server.directory.put kind name record})
          else (none,server.next)
      | none => (none,server.next)
  | .project _, server => (server.answers,server.next)
  | .now, server => (time,server)

inductive ScimFailure where
  | scim (status : Nat) (detail : String) (scimType : Option String)
  | typeError
  | other (message : String)
  deriving DecidableEq, Repr

abbrev Scim := Program scim ScimFailure

namespace ScimDirectoryService
variable (connection : ScimConnection)

def listKind (kind : ScimKind) : Scim (List ScimResource) := do
  let resources ← ask (I := scim) (.list kind)
  .pure ((resources.getD []).filter (·.connectionUid = connection.uid))

def listUsers : Scim (List ScimResource) := do
  let subjects ← listKind connection .subject
  let groups ← listKind connection .group
  .pure (subjects ++ groups)

def findUser (id : String) : Scim (Option ScimResource) := do
  let subject ← ask (I := scim) (.get .subject id)
  match subject.filter (·.connectionUid = connection.uid) with
  | some found => .pure (some found)
  | none => do
      let group ← ask (I := scim) (.get .group id)
      .pure (group.filter (·.connectionUid = connection.uid))

def onChange (resource : ScimResource) : Scim Unit := do
  let projected : Bool ← ask (I := scim) (.project resource)
  if projected then .pure () else .throw (.other "Linked OIDCUser was not found")

def createProvisionedUser (id : String) (kind : ScimKind) (identity : ScimIdentity) :
    Scim (Option ScimResource) := do
  match ← ask (I := scim) (.create kind id ⟨connection.uid,identity⟩) with
  | none => .pure none
  | some created => do
      onChange created
      .pure (some created)

def updateUserSpecs (id : String) (identity : ScimIdentity) : Scim ScimResource := do
  match ← findUser connection id with
  | none => .throw (.other s!"SCIM directory resource {id} was not found")
  | some resource => do
      match ← ask (I := scim) (.patch resource.kind id identity) with
      | none => .throw (.other s!"Failed to update SCIM directory resource {id}")
      | some updated => do
          onChange updated
          .pure updated

end ScimDirectoryService

section Storage
variable {directory : ScimDirectory} {connection : ScimConnection} {kind kind' : ScimKind} {name name' uid : String}
  {record : ScimRecord} {identity : ScimIdentity} {resource : ScimResource}

@[simp] theorem findPut : (directory.put kind name record).find kind' name' =
    if kind' = kind ∧ name = name' then some record else directory.find kind' name' := by
  unfold ScimDirectory.find ScimDirectory.put
  by_cases same : kind' = kind
  · simp [same]
  · simp [same]

@[simp] theorem heldPut : (directory.put kind name ⟨uid,identity⟩).held uid kind' name' =
    if kind' = kind ∧ name = name' then some identity else directory.held uid kind' name' := by
  unfold ScimDirectory.held
  rw [findPut]
  split <;> simp

theorem heldRecord : directory.held uid kind name = some identity ↔ directory.find kind name = some ⟨uid,identity⟩ := by
  unfold ScimDirectory.held
  cases directory.find kind name with
  | none => simp
  | some record =>
      obtain ⟨owner,stored⟩ := record
      by_cases own : owner = uid
      · simp [own]
      · simp [own]

theorem ownResource : (directory.resource kind name).filter (·.connectionUid = uid) = some resource ↔
    ∃ identity, directory.held uid kind name = some identity ∧ resource = ⟨name,kind,uid,identity⟩ := by
  unfold ScimDirectory.resource ScimDirectory.held
  cases directory.find kind name with
  | none => simp
  | some record =>
      obtain ⟨owner,stored⟩ := record
      by_cases own : owner = uid
      · subst own
        simp only [ScimDirectory.mapped,Option.map_some,Option.filter_some,decide_true,if_true,Option.some.injEq,
          exists_eq_left']
        exact eq_comm
      · simp only [ScimDirectory.mapped,Option.map_some,Option.filter_some,own,decide_false,Bool.false_eq_true,if_false]
        simp

theorem listedResource : resource ∈ (directory.resources kind).filter (·.connectionUid = uid) ↔
    resource.kind = kind ∧ resource.connectionUid = uid ∧
      directory.held uid kind resource.accountId = some resource.identity := by
  obtain ⟨accountId,itsKind,owner,stored⟩ := resource
  simp only [ScimDirectory.resources,ScimDirectory.mapped,List.mem_filter,List.mem_map,decide_eq_true_eq,heldRecord,
    ScimDirectory.find]
  constructor
  · rintro ⟨⟨entry,inside,same⟩,own⟩
    obtain ⟨rfl,rfl,rfl,rfl⟩ := ScimResource.mk.inj same
    subst own
    exact ⟨rfl,rfl,mapGetOf (directory.unique _) inside⟩
  · rintro ⟨rfl,rfl,stored⟩
    exact ⟨⟨(accountId,⟨owner,_⟩),mapGetMember stored,rfl⟩,rfl⟩

theorem listedNames : (((directory.resources kind).filter (·.connectionUid = uid)).map (·.accountId)).Nodup := by
  have names : (directory.resources kind).map (·.accountId) = (directory.records kind).map Prod.fst := by
    simp [ScimDirectory.resources,ScimDirectory.mapped]
  exact (List.filter_sublist.map _).nodup (names ▸ directory.unique kind)

end Storage

section Calls
variable {connection : ScimConnection} {server : ScimServer} {id : String}
  {kind : ScimKind} {identity : ScimIdentity}

abbrev Served {α : Type} (p : Scim α) (Q : Except ScimFailure α → ScimServer → Prop) (server : ScimServer) : Prop :=
  Alone answerScim (fun _ _ => True) (fun _ _ => True) p Q server

section Rules
variable {α β : Type} {Q : Except ScimFailure α → ScimServer → Prop} {R : Except ScimFailure β → ScimServer → Prop}

theorem servedPure {a : α} : Served (.pure a) Q server ↔ Q (.ok a) server := alonePure a Q server

theorem servedThrow {e : ScimFailure} : Served (.throw e) Q server ↔ Q (.error e) server := aloneThrow e Q server

theorem servedAsk {c : ScimCall} {f : ScimAnswer c → Scim α} : Served (ask (I := scim) c >>= f) Q server ↔
    ∀ time, Served (f (answerScim time c server).1) Q (answerScim time c server).2 := by
  rw [Served,aloneAsk]
  simp only [true_implies,true_and]

theorem servedBind {p : Scim α} {f : α → Scim β}
    (first : Served p (fun r after => match r with
      | .ok a => Served (f a) R after
      | .error e => R (.error e) after) server) : Served (p >>= f) R server := by
  apply aloneBind
  refine soundMono first fun r after rest => ?_
  cases r with
  | ok a => exact rest
  | error e => exact rest

theorem servedIf {c : Prop} [Decidable c] {p q : Scim α} (yes : c → Served p Q server)
    (no : ¬ c → Served q Q server) : Served (if c then p else q) Q server := by
  split
  · exact yes (by assumption)
  · exact no (by assumption)

end Rules

structure Holds (connection : ScimConnection) (directory : ScimDirectory) (resource : ScimResource) : Prop where
  owner : resource.connectionUid = connection.uid
  stored : directory.held connection.uid resource.kind resource.accountId = some resource.identity

structure Unchanged (server after : ScimServer) : Prop where
  directory : after.directory = server.directory
  unlisted : after.unlisted = server.unlisted

theorem findUserReads {Q : Except ScimFailure (Option ScimResource) → ScimServer → Prop}
    (reads : ∀ found after, Unchanged server after →
      (∀ resource, found = some resource → resource.accountId = id ∧ Holds connection server.directory resource) →
      Q (.ok found) after) :
    Served (ScimDirectoryService.findUser connection id) Q server := by
  have own : ∀ (server : ScimServer) (kind : ScimKind) (resource : ScimResource),
      ((if server.answers then server.directory.resource kind id else none).filter
        (·.connectionUid = connection.uid)) = some resource →
      resource.accountId = id ∧ Holds connection server.directory resource := by
    intro server kind resource found
    split at found
    · obtain ⟨identity,stored,rfl⟩ := ownResource.mp found
      exact ⟨rfl,rfl,stored⟩
    · cases found
  unfold ScimDirectoryService.findUser
  rw [servedAsk]
  intro time
  simp only [answerScim]
  cases first : (if server.answers then server.directory.resource .subject id else none).filter
      (·.connectionUid = connection.uid) with
  | some found =>
      rw [servedPure]
      exact reads _ _ ⟨rfl,rfl⟩ fun resource same => by
        cases same
        exact own server .subject found first
  | none =>
      simp only
      rw [servedAsk]
      intro time'
      rw [servedPure]
      exact reads _ _ ⟨rfl,rfl⟩ fun resource same => own server.next .group resource same

theorem onChangeReads {resource : ScimResource} {Q : Except ScimFailure Unit → ScimServer → Prop}
    (reads : ∀ after, Unchanged server after → Q (.ok ()) after ∧ ∀ e, Q (.error e) after) :
    Served (ScimDirectoryService.onChange resource) Q server := by
  unfold ScimDirectoryService.onChange
  rw [servedAsk]
  intro time
  obtain ⟨done,failed⟩ := reads server.next ⟨rfl,rfl⟩
  apply servedIf
  · intro
    exact servedPure.mpr done
  · intro
    exact servedThrow.mpr (failed _)

theorem updateUserSpecsWrites {Q : Except ScimFailure ScimResource → ScimServer → Prop}
    (kept : ∀ e after, Unchanged server after → Q (.error e) after)
    (written : ∀ kind after, (server.directory.held connection.uid kind id).isSome → after.unlisted = server.unlisted →
      after.directory = server.directory.put kind id ⟨connection.uid,identity⟩ →
      Q (.ok ⟨id,kind,connection.uid,identity⟩) after ∧ ∀ e, Q (.error e) after) :
    Served (ScimDirectoryService.updateUserSpecs connection id identity) Q server := by
  unfold ScimDirectoryService.updateUserSpecs
  apply servedBind
  apply findUserReads
  intro found after same own
  cases found with
  | none => exact servedThrow.mpr (kept _ _ same)
  | some resource =>
      obtain ⟨rfl,mine⟩ := own resource rfl
      have stored := heldRecord.mp mine.stored
      simp only
      rw [servedAsk]
      intro time
      simp only [answerScim,same.directory,stored]
      by_cases answered : after.answers = true
      · simp only [answered,if_true]
        apply servedBind
        apply onChangeReads
        intro last unchanged
        obtain ⟨done,failed⟩ := written resource.kind last (by simp [mine.stored])
          (unchanged.unlisted.trans same.unlisted) unchanged.directory
        exact ⟨servedPure.mpr done,failed⟩
      · simp only [answered,if_false,Bool.false_eq_true]
        exact servedThrow.mpr (kept _ _ ⟨same.directory,same.unlisted⟩)

theorem createProvisionedUserWrites {Q : Except ScimFailure (Option ScimResource) → ScimServer → Prop}
    (kept : ∀ after, Unchanged server after → Q (.ok none) after)
    (written : ∀ after, server.directory.find kind id = none → after.unlisted = server.unlisted →
      after.directory = server.directory.put kind id ⟨connection.uid,identity⟩ →
      Q (.ok (some ⟨id,kind,connection.uid,identity⟩)) after ∧ ∀ e, Q (.error e) after) :
    Served (ScimDirectoryService.createProvisionedUser connection id kind identity) Q server := by
  unfold ScimDirectoryService.createProvisionedUser
  rw [servedAsk]
  intro time
  simp only [answerScim]
  by_cases fresh : (server.answers && (server.directory.find kind id).isNone) = true
  · simp only [fresh,if_true]
    simp only [Bool.and_eq_true,Option.isNone_iff_eq_none] at fresh
    apply servedBind
    apply onChangeReads
    intro last unchanged
    obtain ⟨done,failed⟩ := written last fresh.2 unchanged.unlisted unchanged.directory
    exact ⟨servedPure.mpr done,failed⟩
  · simp only [fresh,if_false,Bool.false_eq_true]
    exact servedPure.mpr (kept _ ⟨rfl,rfl⟩)

end Calls

end Passmower
