import Passmower.ScimMembership

/-! The groups a connection grants its subjects, over every sequence of requests: whom it grants the group,
and what the memberships it goes by may name. -/
namespace Passmower
open JavaScript Resumption Program ScimService

inductive ScimRequest where
  | createUser (resource : Json)
  | replaceUser (id : String) (resource : Json)
  | patchUser (id : String) (operations : Option Json)
  | deactivateUser (id : String)
  | createGroup (resource : Json)
  | replaceGroup (id : String) (resource : Json)
  | patchGroup (id : String) (operations : Option Json)
  | deleteGroup (id : String)

def ScimRequest.program (digest : String → String) (connection : ScimConnection) : ScimRequest → Scim Unit
  | .createUser resource => do let _ ← ScimService.createUser digest connection resource
  | .replaceUser id resource => do let _ ← ScimService.replaceUser connection id resource
  | .patchUser id operations => do let _ ← ScimService.patchUser connection id operations
  | .deactivateUser id => do let _ ← ScimService.deactivateUser connection id
  | .createGroup resource => do let _ ← ScimService.createGroup digest connection resource
  | .replaceGroup id resource => do let _ ← ScimService.replaceGroup connection id resource
  | .patchGroup id operations => do let _ ← ScimService.patchGroup connection id operations
  | .deleteGroup id => ScimService.deleteGroup connection id

structure ScimEvent where
  request : ScimRequest
  answered : List Bool := []
  times : List String := []

section Runs
variable (digest : String → String) (connection : ScimConnection)

def ScimServer.handle (server : ScimServer) (event : ScimEvent) : Except ScimFailure Unit × ScimServer :=
  let out := run answerScim (event.request.program digest connection) event.times
    {server with upcoming := event.answered}
  (out.1,out.2.2)

def ScimServer.events (server : ScimServer) (events : List ScimEvent) : ScimServer :=
  events.foldl (fun server event => (server.handle digest connection event).2) server

def Successful : List ScimEvent → ScimServer → Prop
  | [], _ => True
  | event :: rest, server => (server.handle digest connection event).1 = .ok () ∧
      Successful rest (server.handle digest connection event).2

end Runs

def Granted (connection : ScimConnection) (identity : ScimIdentity) : Prop :=
  identity.isActive = true ∧ (connection.grantMode = .allUsers ∨ identity.sourceGroups ≠ [])

structure SubjectOk (connection : ScimConnection) (live : String → Prop) (identity : ScimIdentity) : Prop where
  granted : Granted connection identity → identity.groups = [connection.group]
  denied : ¬ Granted connection identity → identity.groups = []
  distinct : identity.sourceGroups.Nodup
  live : ∀ group ∈ identity.sourceGroups, live group

def ActiveGroup (connection : ScimConnection) (directory : ScimDirectory) (name : String) : Prop :=
  ∃ identity, directory.held connection.uid .group name = some identity ∧ identity.isActive = true

def ScimProjected (connection : ScimConnection) (directory : ScimDirectory) : Prop :=
  ∀ name identity, directory.held connection.uid .subject name = some identity →
    SubjectOk connection (ActiveGroup connection directory) identity

structure Named (connection : ScimConnection) (directory : ScimDirectory) : Prop where
  subjects : ∀ name, (directory.held connection.uid .subject name).isSome → ∃ rest, name = "scim-u-" ++ rest
  groups : ∀ name, (directory.held connection.uid .group name).isSome → ∃ rest, name = "scim-g-" ++ rest

structure Kept (connection : ScimConnection) (directory : ScimDirectory) : Prop where
  named : Named connection directory
  projected : ScimProjected connection directory

section Invariant
variable {connection : ScimConnection} {directory before after : ScimDirectory} {identity edited : ScimIdentity}
  {live : String → Prop} {name group : String}

theorem namedApart (named : Named connection directory) : Apart connection directory := by
  intro name subject
  obtain ⟨rest,rfl⟩ := named.subjects name subject
  refine Option.not_isSome_iff_eq_none.mp fun group => ?_
  obtain ⟨other,same⟩ := named.groups _ group
  have texts := congrArg String.toList same
  simp at texts

theorem projectedOk (distinct : identity.sourceGroups.Nodup) (lives : ∀ group ∈ identity.sourceGroups, live group) :
    SubjectOk connection live (projectGroups connection identity) where
  granted given := by
    obtain ⟨active,mode⟩ := given
    have active : identity.isActive = true := active
    have mode : connection.grantMode = .allUsers ∨ identity.sourceGroups ≠ [] := mode
    unfold projectGroups
    simp only [active,Bool.true_and]
    rw [if_pos]
    simpa using mode
  denied refused := by
    unfold projectGroups
    simp only
    rw [if_neg]
    intro granted
    simp only [Bool.and_eq_true,Bool.or_eq_true,decide_eq_true_eq,Bool.not_eq_true',List.isEmpty_eq_false_iff] at granted
    exact refused granted
  distinct := distinct
  live := lives

theorem stampedOk {time : String} (ok : SubjectOk connection live identity) :
    SubjectOk connection live {identity with lastModified := time} :=
  ⟨ok.granted,ok.denied,ok.distinct,ok.live⟩

theorem shiftedOk {wants : Bool} (ok : SubjectOk connection live identity) (here : live group)
    (shifted : Shifted connection group wants identity edited) : SubjectOk connection live edited := by
  cases shifted with
  | stays none => exact ok
  | moves time some =>
      apply stampedOk
      unfold moved at some
      simp only [Bool.and_eq_true,Bool.not_eq_true',List.contains_eq_mem,decide_eq_true_eq,decide_eq_false_iff_not] at some
      split at some
      · rename_i joins
        cases Option.some.inj some
        apply projectedOk
        · exact List.Nodup.append ok.distinct (List.nodup_singleton group) (by simpa using joins.2)
        · intro other inside
          rcases List.mem_append.mp inside with old | new
          · exact ok.live other old
          · exact List.mem_singleton.mp new ▸ here
      · split at some
        · cases Option.some.inj some
          exact projectedOk (ok.distinct.filter _) fun other inside => ok.live other (List.mem_filter.mp inside).1
        · cases some

theorem editsKept {how : String → ScimIdentity → ScimIdentity → Prop} (kept : Kept connection before)
    (edits : Edits connection how before after)
    (each : ∀ name identity edited, how name identity edited →
      SubjectOk connection (ActiveGroup connection before) identity →
      SubjectOk connection (ActiveGroup connection before) edited) : Kept connection after := by
  have active : ActiveGroup connection after = ActiveGroup connection before := by
    funext name
    simp only [ActiveGroup,edits.groups]
  have old : ∀ name, (after.held connection.uid .subject name).isSome →
      ∃ identity, before.held connection.uid .subject name = some identity := by
    intro name present
    refine Option.ne_none_iff_exists'.mp fun none => ?_
    simp [edits.others name none] at present
  constructor
  · constructor
    · intro name present
      obtain ⟨identity,stored⟩ := old name present
      exact kept.named.subjects name (by simp [stored])
    · intro name present
      exact kept.named.groups name (edits.groups name ▸ present)
  · intro name last stored
    obtain ⟨identity,first⟩ := old name (by simp [stored])
    obtain ⟨edited,now,what⟩ := edits.edited name identity first
    cases Option.some.inj (now.symm.trans stored)
    rw [active]
    exact each name identity last what (kept.projected name identity first)

theorem editsActive {how : String → ScimIdentity → ScimIdentity → Prop} (edits : Edits connection how before after)
    (here : ActiveGroup connection before name) : ActiveGroup connection after name := by
  obtain ⟨identity,stored,active⟩ := here
  exact ⟨identity,(edits.groups name).trans stored,active⟩

theorem looselyKept (kept : Kept connection before) (here : ActiveGroup connection before group)
    (edits : Loosely connection group before after) : Kept connection after := by
  apply editsKept kept edits
  rintro name identity edited (same | ⟨wants,shifted⟩) ok
  · exact same ▸ ok
  · exact shiftedOk ok here shifted

theorem assignedKept {wants : String → Bool} (kept : Kept connection before) (here : ActiveGroup connection before group)
    (edits : Assigned connection group wants before after) : Kept connection after :=
  looselyKept kept here (edits.mono fun _ _ _ shifted => .inr ⟨_,shifted⟩)

theorem putSubject (kept : Kept connection directory) (named : ∃ rest, name = "scim-u-" ++ rest)
    (ok : SubjectOk connection (ActiveGroup connection directory) identity) :
    Kept connection (directory.put .subject name ⟨connection.uid,identity⟩) := by
  have active : ActiveGroup connection (directory.put .subject name ⟨connection.uid,identity⟩) =
      ActiveGroup connection directory := by
    funext group
    simp [ActiveGroup]
  constructor
  · constructor
    · intro other present
      by_cases same : name = other
      · exact same ▸ named
      · exact kept.named.subjects other (by simpa [same] using present)
    · intro other present
      exact kept.named.groups other (by simpa using present)
  · intro other last stored
    rw [active]
    by_cases same : name = other
    · cases (show identity = last by simpa [same] using stored)
      exact ok
    · exact kept.projected other last (by simpa [same] using stored)

theorem putGroup (kept : Kept connection directory) (named : ∃ rest, name = "scim-g-" ++ rest)
    (empty : identity.isActive = true ∨ ∀ subject stored, directory.held connection.uid .subject subject = some stored →
      name ∉ stored.sourceGroups) :
    Kept connection (directory.put .group name ⟨connection.uid,identity⟩) := by
  constructor
  · constructor
    · intro other present
      exact kept.named.subjects other (by simpa using present)
    · intro other present
      by_cases same : name = other
      · exact same ▸ named
      · exact kept.named.groups other (by simpa [same] using present)
  · intro subject stored held
    have held : directory.held connection.uid .subject subject = some stored := by simpa using held
    obtain ⟨granted,denied,distinct,live⟩ := kept.projected subject stored held
    refine ⟨granted,denied,distinct,fun group inside => ?_⟩
    by_cases same : name = group
    · subst same
      rcases empty with active | nobody
      · exact ⟨identity,by simp,active⟩
      · exact absurd inside (nobody subject stored held)
    · obtain ⟨record,present,active⟩ := live group inside
      exact ⟨record,by simp [same,present],active⟩

end Invariant

def Memberless (connection : ScimConnection) (directory : ScimDirectory) (group : String) : Prop :=
  ∀ name identity, directory.held connection.uid .subject name = some identity → group ∉ identity.sourceGroups

theorem assignedNobody {connection : ScimConnection} {before after : ScimDirectory} {group : String}
    (edits : Assigned connection group [].contains before after) : Memberless connection after group := by
  intro name identity stored inside
  cases first : before.held connection.uid .subject name with
  | none => simp [edits.others name first] at stored
  | some old =>
      obtain ⟨edited,now,shifted⟩ := edits.edited name old first
      cases Option.some.inj (now.symm.trans stored)
      simpa using (shiftedMembers shifted group).mp inside

section Requests
variable {digest : String → String} {connection : ScimConnection} {server : ScimServer} {id : String}

abbrev Retains {α : Type} (connection : ScimConnection) (p : Scim α) (server : ScimServer) : Prop :=
  Served p (fun _ last => Kept connection last.directory) server

variable (kept : Kept connection server.directory)

include kept

theorem readKept {last : ScimServer} (same : last.directory = server.directory) : Kept connection last.directory :=
  same ▸ kept

theorem createUserKeeps (resource : Json) : Retains connection (createUser digest connection resource) server := by
  unfold createUser
  apply servedLift
  · exact fun _ _ => kept
  rintro ⟨fields,userName⟩ _
  apply servedBind
  apply listUsersReads
  intro users last listed
  have same := listedSame listed
  apply servedIf
  · exact fun _ => servedThrow.mpr (readKept kept same)
  intro _
  apply servedNow
  intro createdAt
  unfold userIdentity
  apply servedNow
  intro lastModified
  apply servedBind
  apply createProvisionedUserWrites
  · intro final unchanged
    exact servedThrow.mpr (readKept kept (unchanged.directory.trans same))
  · intro final fresh _ written
    have done : Kept connection final.directory := by
      rw [written,same]
      exact putSubject kept ⟨_,rfl⟩ (projectedOk List.nodup_nil fun group inside => absurd inside List.not_mem_nil)
    exact ⟨servedPure.mpr done,fun _ => done⟩

theorem updateSubjectKeeps {account : ScimResource} {identity : ScimIdentity} (kind : account.kind = .subject)
    (holds : Holds connection server.directory account) (memberships : identity.sourceGroups = account.identity.sourceGroups) :
    Retains connection (ScimDirectoryService.updateUserSpecs connection account.accountId
      (projectGroups connection identity)) server := by
  have stored := kind ▸ holds.stored
  obtain ⟨_,_,distinct,live⟩ := kept.projected _ _ stored
  have named := kept.named.subjects account.accountId (by simp [stored])
  apply updateUserSpecsWrites
  · exact fun e last unchanged => readKept kept unchanged.directory
  · intro kind' last held _ written
    have subject : kind' = .subject := by
      cases kind' with
      | subject => rfl
      | group => simp [namedApart kept.named account.accountId (by simp [stored])] at held
    subst subject
    have done : Kept connection last.directory := by
      rw [written]
      exact putSubject kept named (projectedOk (memberships ▸ distinct) (memberships ▸ live))
    exact ⟨done,fun _ => done⟩

theorem replaceUserKeeps (resource : Json) : Retains connection (replaceUser connection id resource) server := by
  unfold replaceUser
  apply servedBind
  apply serviceFindUserReads
  · exact fun e last unchanged => readKept kept unchanged.directory
  intro account last unchanged named kind holds
  subst named
  have kept := readKept kept unchanged.directory
  apply servedLift
  · exact fun _ _ => kept
  rintro ⟨fields,userName⟩ _
  unfold userIdentity
  apply servedNow
  intro lastModified
  rw [← unchanged.directory] at holds
  exact updateSubjectKeeps kept kind holds rfl

omit kept in
theorem boundOk {α β : Type} {e : Except ScimFailure α} {f : α → Except ScimFailure β} {b : β}
    (done : e >>= f = .ok b) : ∃ a, e = .ok a ∧ f a = .ok b := by
  cases e with
  | ok a => exact ⟨a,rfl,done⟩
  | error failure => cases done

omit kept in
theorem patchedPath {operation : Object} {op : String} {path : Option String} {identity edited : ScimIdentity}
    (patched : patchUserPath operation op path identity = .ok edited) :
    edited.sourceGroups = identity.sourceGroups := by
  unfold patchUserPath at patched
  simp only at patched
  split at patched
  · cases patched
    rfl
  · split at patched <;> cases patched
    rfl
  · cases patched
    rfl
  · cases patched
    rfl
  · split at patched
    · split at patched
      · cases patched
        rfl
      · split at patched
        · cases patched
          rfl
        · split at patched <;> cases patched
          rfl
    · cases patched
  · cases patched

omit kept in
theorem patchedMemberships {operation : Json} {identity edited : ScimIdentity}
    (patched : patchUserOperation operation identity = .ok edited) : edited.sourceGroups = identity.sourceGroups := by
  unfold patchUserOperation at patched
  obtain ⟨fields,_,patched⟩ := boundOk patched
  obtain ⟨op,_,patched⟩ := boundOk patched
  obtain ⟨path,_,patched⟩ := boundOk patched
  simp only at patched
  split at patched
  · cases patched
    rfl
  · exact patchedPath patched

omit kept in
theorem patchedAll {operations : List Json} {identity edited : ScimIdentity}
    (patched : operations.foldlM (fun identity operation => patchUserOperation operation identity) identity = .ok edited) :
    edited.sourceGroups = identity.sourceGroups := by
  induction operations generalizing identity with
  | nil =>
      cases patched
      rfl
  | cons operation rest ih =>
      rw [List.foldlM_cons] at patched
      obtain ⟨next,first,patched⟩ := boundOk patched
      exact (ih patched).trans (patchedMemberships first)

theorem patchUserKeeps (operations : Option Json) :
    Retains connection (ScimService.patchUser connection id operations) server := by
  unfold ScimService.patchUser
  apply servedBind
  apply serviceFindUserReads
  · exact fun e last unchanged => readKept kept unchanged.directory
  intro account last unchanged named kind holds
  subst named
  have kept := readKept kept unchanged.directory
  apply servedLift
  · exact fun _ _ => kept
  intro operations _
  apply servedLift
  · exact fun _ _ => kept
  intro identity patched
  apply servedNow
  intro lastModified
  rw [← unchanged.directory] at holds
  have memberships : identity.sourceGroups = account.identity.sourceGroups := patchedAll patched
  exact updateSubjectKeeps kept kind holds memberships

theorem shownKeeps : Retains connection (findGroup connection id >>= groupResource connection) server := by
  apply servedBind
  apply findGroupReads
  · exact fun e last unchanged => readKept kept unchanged.directory
  intro account last unchanged _ _
  apply groupResourceReads
  exact fun shown final same => readKept kept (same.trans unchanged.directory)

omit kept in
theorem liveActive {account : ScimResource} (live : Live connection server.directory account) :
    ActiveGroup connection server.directory account.accountId :=
  ⟨_,live.kind ▸ live.holds.stored,live.active⟩

theorem updateGroupWrites {identity : ScimIdentity} {Q : Except ScimFailure ScimResource → ScimServer → Prop}
    (present : (server.directory.held connection.uid .group id).isSome)
    (failed : ∀ e last, Kept connection last.directory → Q (.error e) last)
    (done : ∀ last, last.unlisted = server.unlisted →
      last.directory = server.directory.put .group id ⟨connection.uid,identity⟩ →
      Kept connection last.directory → Q (.ok ⟨id,.group,connection.uid,identity⟩) last)
    (empty : identity.isActive = true ∨ ∀ subject stored,
      server.directory.held connection.uid .subject subject = some stored → id ∉ stored.sourceGroups) :
    Served (ScimDirectoryService.updateUserSpecs connection id identity) Q server := by
  have named := kept.named.groups id present
  apply updateUserSpecsWrites
  · exact fun e last unchanged => failed e last (readKept kept unchanged.directory)
  · intro kind last held counted written
    have group : kind = .group := by
      cases kind with
      | group => rfl
      | subject => simp [namedApart kept.named id held] at present
    subst group
    have after : Kept connection last.directory := by
      rw [written]
      exact putGroup kept named empty
    exact ⟨done last counted written after,fun e => failed e last after⟩

theorem replaceMembersKeeps {account : ScimResource} (here : ActiveGroup connection server.directory account.accountId)
    (members : Json) : Served (replaceMembers connection account members) (fun _ last =>
      Kept connection last.directory ∧ ActiveGroup connection last.directory account.accountId) server := by
  apply replaceMembersEdits (namedApart kept.named)
  · exact fun e last edits => ⟨looselyKept kept here edits,editsActive edits here⟩
  · exact fun last desired _ _ _ edits => ⟨assignedKept kept here edits,editsActive edits here⟩
  · exact fun last _ _ same => ⟨readKept kept same,same ▸ here⟩

theorem updateLiveWrites {identity : ScimIdentity} {Q : Except ScimFailure ScimResource → ScimServer → Prop}
    (here : ActiveGroup connection server.directory id) (active : identity.isActive = true)
    (failed : ∀ e last, Kept connection last.directory → Q (.error e) last)
    (done : ∀ last, Kept connection last.directory → ActiveGroup connection last.directory id →
      Q (.ok ⟨id,.group,connection.uid,identity⟩) last) :
    Served (ScimDirectoryService.updateUserSpecs connection id identity) Q server := by
  obtain ⟨old,stored,_⟩ := here
  apply updateGroupWrites kept (by simp [stored]) failed _ (.inl active)
  intro last _ written after
  exact done last after ⟨identity,by simp [written],active⟩

theorem replaceMembersShown {account : ScimResource} (here : ActiveGroup connection server.directory account.accountId)
    (members : Json) : Retains connection (do
      replaceMembers connection account members
      groupResource connection (← findGroup connection id)) server := by
  apply servedBind
  refine soundMono (replaceMembersKeeps kept here members) fun r next both => ?_
  cases r with
  | ok done => exact shownKeeps both.1
  | error e => exact both.1

theorem replaceGroupKeeps (resource : Json) : Retains connection (replaceGroup connection id resource) server := by
  unfold replaceGroup
  apply servedBind
  apply findGroupReads
  · exact fun e last unchanged => readKept kept unchanged.directory
  intro account last unchanged named live
  subst named
  have kept := readKept kept unchanged.directory
  rw [← unchanged.directory] at live
  apply servedLift
  · exact fun _ _ => kept
  rintro ⟨fields,displayName⟩ _
  apply servedNow
  intro lastModified
  apply servedBind
  apply updateLiveWrites kept (liveActive live)
  · exact live.active
  · exact fun e final kept => kept
  · exact fun final kept here => replaceMembersShown kept here _

omit kept in
theorem groupName (uid externalId rest : String) : resourceId digest "g" uid externalId ≠ "scim-u-" ++ rest := by
  intro same
  have texts := congrArg String.toList same
  simp [resourceId] at texts

omit kept in
theorem knownMembersReads (fields : Object) :
    Served (knownMembers connection fields) (fun _ last => last.directory = server.directory) server := by
  unfold knownMembers
  split
  · apply servedBind
    apply listUsersReads
    intro users last listed
    have same := listedSame listed
    apply servedLift
    · exact fun _ _ => same
    intro unknown _
    cases unknown with
    | some unknown => exact servedThrow.mpr same
    | none => exact servedPure.mpr same
  · exact servedPure.mpr rfl

theorem groupFound {account : ScimResource} {externalId : String} (holds : Holds connection server.directory account)
    (named : account.accountId = resourceId digest "g" connection.uid externalId) : account.kind = .group := by
  cases kind : account.kind with
  | group => rfl
  | subject =>
      have stored := kind ▸ holds.stored
      obtain ⟨rest,same⟩ := kept.named.subjects account.accountId (by simp [stored])
      exact absurd (named.symm.trans same) (groupName _ _ rest)

theorem reviveGroupKeeps {tombstoned : ScimResource} {identity : ScimIdentity}
    (holds : Holds connection server.directory tombstoned) (group : tombstoned.kind = .group)
    (named : tombstoned.accountId = id) (active : identity.isActive = true) (members : Json) : Retains connection (do
      let _ ← ScimDirectoryService.updateUserSpecs connection id identity
      replaceMembers connection tombstoned members
      groupResource connection (← findGroup connection id)) server := by
  have stored := group ▸ holds.stored
  rw [named] at stored
  apply servedBind
  apply updateGroupWrites kept
  · simp [stored]
  · exact fun e last kept => kept
  · intro last _ written kept
    exact replaceMembersShown kept ⟨identity,by simp [written,named],active⟩ members
  · exact .inl active

theorem createGroupKeeps (resource : Json) : Retains connection (createGroup digest connection resource) server := by
  unfold createGroup
  apply servedLift
  · exact fun _ _ => kept
  rintro ⟨fields,displayName⟩ _
  apply servedBind
  refine soundMono (knownMembersReads fields) fun r first same => ?_
  have kept := readKept kept same
  cases r with
  | error e => exact kept
  | ok done =>
      apply servedBind
      apply listGroupsReads
      intro groups second same
      have kept := readKept kept same
      apply servedIf
      · exact fun _ => servedThrow.mpr kept
      intro _
      apply servedBind
      apply findUserReads
      intro found third unchanged own
      have kept := readKept kept unchanged.directory
      cases found with
      | some tombstoned =>
          obtain ⟨named,holds⟩ := own tombstoned rfl
          rw [← unchanged.directory] at holds
          apply servedNow
          intro lastModified
          exact reviveGroupKeeps kept holds (groupFound kept holds named) named rfl _
      | none =>
          simp only
          apply servedNow
          intro createdAt
          apply servedBind
          apply createProvisionedUserWrites
          · exact fun last unchanged => servedThrow.mpr (readKept kept unchanged.directory)
          · intro last fresh _ written
            have created : Kept connection last.directory := by
              rw [written]
              exact putGroup kept ⟨_,rfl⟩ (.inl rfl)
            refine ⟨servedIf (fun _ => shownKeeps created) fun _ => ?_,fun _ => created⟩
            exact replaceMembersShown created ⟨_,by simp [written]; rfl,rfl⟩ _

def Handed (connection : ScimConnection) (id : String) : Except ScimFailure ScimResource → ScimServer → Prop
  | .ok account, last => Kept connection last.directory ∧ account.accountId = id ∧ account.identity.isActive = true ∧
      ActiveGroup connection last.directory id
  | .error _, last => Kept connection last.directory

section Patch
variable {account : ScimResource} (named : account.accountId = id) (active : account.identity.isActive = true)
  (here : ActiveGroup connection server.directory id)

include named active here

omit named in
theorem renameGroupHands (displayName : String) :
    Served (renameGroup connection id account displayName) (Handed connection id) server := by
  unfold renameGroup
  apply servedNow
  intro lastModified
  apply updateLiveWrites kept here
  · exact active
  · exact fun e last kept => kept
  · exact fun last kept here => ⟨kept,rfl,active,here⟩

omit kept here in
theorem membersHand {p : Scim Unit} (keeps : Served p (fun _ last => Kept connection last.directory ∧
    ActiveGroup connection last.directory id) server) :
    Served (p >>= fun _ => Program.pure account) (Handed connection id) server := by
  apply servedBind
  refine soundMono keeps fun r last both => ?_
  cases r with
  | ok done => exact servedPure.mpr ⟨both.1,named,active,both.2⟩
  | error e => exact both.1

theorem patchGroupValueHands (value : Object) :
    Served (patchGroupValue connection id account value) (Handed connection id) server := by
  have renamed : Served (patchGroupName connection id account value) (Handed connection id) server := by
    unfold patchGroupName
    split
    · exact renameGroupHands kept active here _
    · exact servedPure.mpr ⟨kept,named,active,here⟩
  unfold patchGroupValue
  apply servedBind
  refine soundMono renamed fun r last handed => ?_
  cases r with
  | error e => exact handed
  | ok account =>
      obtain ⟨kept,rfl,active,here⟩ := handed
      cases value.get "members" with
      | some listed => exact membersHand rfl active (replaceMembersKeeps kept here _)
      | none => exact servedPure.mpr ⟨kept,rfl,active,here⟩

theorem patchGroupPathHands (operation : Object) (op : String) (path : Option String) :
    Served (patchGroupPath connection id account operation op path) (Handed connection id) server := by
  have refused : ∀ detail, Served (liftScim (refuse detail "invalidPath") : Scim ScimResource) (Handed connection id) server :=
    fun detail => servedThrow.mpr kept
  unfold patchGroupPath
  simp only
  split
  · apply servedIf
    · exact fun _ => servedThrow.mpr kept
    · exact fun _ => renameGroupHands kept active here _
  · apply membersHand named active
    subst named
    unfold patchMembers
    apply servedIf
    · exact fun _ => replaceMembersKeeps kept here _
    intro _
    apply servedIf
    · intro _
      apply addMembersEdits (namedApart kept.named)
      · exact fun e last edits => ⟨looselyKept kept here edits,editsActive edits here⟩
      · exact fun last listed ids desired _ _ _ _ _ edits => ⟨assignedKept kept here edits,editsActive edits here⟩
      · exact fun last _ _ same => ⟨readKept kept same,same ▸ here⟩
    · exact fun _ => replaceMembersKeeps kept here _
  · cases path.bind memberFilter with
    | none => exact refused _
    | some member =>
        apply servedIf
        · intro _
          apply membersHand named active
          subst named
          apply removeMembersEdits (namedApart kept.named)
          · exact fun e last edits => ⟨looselyKept kept here edits,editsActive edits here⟩
          · exact fun last desired _ _ edits => ⟨assignedKept kept here edits,editsActive edits here⟩
          · exact fun last _ same => ⟨readKept kept same,same ▸ here⟩
        · exact fun _ => refused _

theorem patchGroupOperationHands (operation : Json) :
    Served (patchGroupOperation connection id account operation) (Handed connection id) server := by
  unfold patchGroupOperation
  apply servedLift
  · exact fun _ _ => kept
  intro fields _
  apply servedLift
  · exact fun _ _ => kept
  intro op _
  split
  · apply servedIf
    · exact fun _ => servedThrow.mpr kept
    · exact fun _ => patchGroupValueHands kept named active here _
  · apply servedLift
    · exact fun _ _ => kept
    · exact fun path _ => patchGroupPathHands kept named active here _ _ _

end Patch

theorem patchGroupOperationsHand {account : ScimResource} (operations : List Json) (named : account.accountId = id)
    (active : account.identity.isActive = true) (here : ActiveGroup connection server.directory id) :
    Served (patchGroupOperations connection id account operations) (Handed connection id) server := by
  induction operations generalizing account server with
  | nil => exact servedPure.mpr ⟨kept,named,active,here⟩
  | cons operation rest ih =>
      unfold patchGroupOperations
      apply servedBind
      refine soundMono (patchGroupOperationHands kept named active here operation) fun r last handed => ?_
      cases r with
      | error e => exact handed
      | ok account => exact ih handed.1 handed.2.1 handed.2.2.1 handed.2.2.2

theorem patchGroupKeeps (operations : Option Json) : Retains connection (patchGroup connection id operations) server := by
  unfold patchGroup
  apply servedBind
  apply findGroupReads
  · exact fun e last unchanged => readKept kept unchanged.directory
  intro account last unchanged named live
  have kept := readKept kept unchanged.directory
  rw [← unchanged.directory] at live
  apply servedLift
  · exact fun _ _ => kept
  intro operations _
  apply servedBind
  refine soundMono (patchGroupOperationsHand kept operations named live.active (named ▸ liveActive live))
    fun r final handed => ?_
  cases r with
  | error e => exact handed
  | ok account => exact shownKeeps handed.1

theorem tombstoneKeeps {identity : String → ScimIdentity} (present : (server.directory.held connection.uid .group id).isSome) :
    Served (do
      let lastModified ← ScimService.now
      let _ ← ScimDirectoryService.updateUserSpecs connection id (identity lastModified)
      .pure ()) (fun _ last => last.unlisted = server.unlisted ∧
        (Memberless connection server.directory id → Kept connection last.directory)) server := by
  have named := kept.named.groups id present
  apply servedNow
  intro lastModified
  apply servedBind
  apply updateUserSpecsWrites
  · exact fun e last unchanged => ⟨unchanged.unlisted,fun _ => readKept kept unchanged.directory⟩
  · intro kind last held counted written
    have group : kind = .group := by
      cases kind with
      | group => rfl
      | subject => simp [namedApart kept.named id held] at present
    subst group
    have done : Memberless connection server.directory id → Kept connection last.directory := by
      intro nobody
      rw [written]
      exact putGroup kept named (.inr nobody)
    exact ⟨servedPure.mpr ⟨counted,done⟩,fun _ => ⟨counted,done⟩⟩

theorem deleteGroupKeeps : Served (deleteGroup connection id) (fun _ last =>
    last.unlisted = server.unlisted ∨ Memberless connection server.directory id → Kept connection last.directory)
    server := by
  unfold deleteGroup
  apply servedBind
  apply findGroupReads
  · exact fun e last unchanged _ => readKept kept unchanged.directory
  intro account first unchanged named live
  subst named
  have kept' := readKept kept unchanged.directory
  rw [← unchanged.directory] at live
  have here := liveActive live
  apply servedBind
  apply replaceMembersEdits (namedApart kept'.named)
  · exact fun e last edits _ => looselyKept kept' here edits
  · intro second desired none counted _ edits
    cases none
    obtain ⟨stored,present,_⟩ := editsActive edits here
    refine soundMono (tombstoneKeeps (assignedKept kept' here edits) (by simp [present])) fun r last done _ => ?_
    exact done.2 (assignedNobody edits)
  · intro second none counted same
    obtain ⟨stored,present,_⟩ := here
    rw [← same] at present
    refine soundMono (tombstoneKeeps (readKept kept' same) (by simp [present])) fun r last done told => ?_
    apply done.2
    rw [same,unchanged.directory]
    rcases told with all | nobody
    · have := unchanged.unlisted
      omega
    · exact nobody

theorem requestKeeps {r : ScimRequest} {times : List String} {answered : List Bool}
    (listed : ∀ id, r = .deleteGroup id →
      (after answerScim (r.program digest connection) times {server with upcoming := answered}).unlisted = server.unlisted ∨
        Memberless connection server.directory id) :
    Kept connection (after answerScim (r.program digest connection) times {server with upcoming := answered}).directory := by
  have opened : Kept connection ({server with upcoming := answered} : ScimServer).directory := kept
  have done : ∀ {α : Type} {p : Scim α}, Retains connection p {server with upcoming := answered} →
      Served (do let _ ← p) (fun _ last => Kept connection last.directory) {server with upcoming := answered} := by
    intro α p keeps
    apply servedBind
    refine soundMono keeps fun result last kept => ?_
    cases result with
    | ok value => exact servedPure.mpr kept
    | error e => exact kept
  have ends : ∀ {p : Scim Unit}, Retains connection p {server with upcoming := answered} →
      Kept connection (after answerScim p times {server with upcoming := answered}).directory :=
    fun keeps => aloneRun keeps (disciplinedTrivial _ _ _)
  have deactivated : ∀ id, Retains connection (ScimService.deactivateUser connection id) {server with upcoming := answered} :=
    fun id => patchUserKeeps opened _
  cases r with
  | createUser resource => exact ends (done (createUserKeeps opened resource))
  | replaceUser id resource => exact ends (done (replaceUserKeeps opened resource))
  | patchUser id operations => exact ends (done (patchUserKeeps opened operations))
  | deactivateUser id => exact ends (done (deactivated id))
  | createGroup resource => exact ends (done (createGroupKeeps opened resource))
  | replaceGroup id resource => exact ends (done (replaceGroupKeeps opened resource))
  | patchGroup id operations => exact ends (done (patchGroupKeeps opened operations))
  | deleteGroup id => exact aloneRun (deleteGroupKeeps opened) (disciplinedTrivial _ _ _) (listed id rfl)

end Requests

section Theorem
variable (digest : String → String) (connection : ScimConnection)

def ScimEvent.Listed (server : ScimServer) (event : ScimEvent) : Prop := match event.request with
  | .deleteGroup id => (server.handle digest connection event).2.unlisted = server.unlisted ∨
      Memberless connection server.directory id
  | _ => True

def EachListed : List ScimEvent → ScimServer → Prop
  | [], _ => True
  | event :: rest, server => event.Listed digest connection server ∧
      EachListed rest (server.handle digest connection event).2

def Unprovisioned (directory : ScimDirectory) : Prop :=
  ∀ kind name, directory.held connection.uid kind name = none

theorem unprovisionedKept {directory : ScimDirectory} (fresh : Unprovisioned connection directory) :
    Kept connection directory where
  named := ⟨fun name held => by simp [fresh .subject name] at held,fun name held => by simp [fresh .group name] at held⟩
  projected name identity stored := by simp [fresh .subject name] at stored

theorem eventsKept {digest : String → String} {connection : ScimConnection} {events : List ScimEvent} {server : ScimServer}
    (kept : Kept connection server.directory) (listed : EachListed digest connection events server) :
    Kept connection (server.events digest connection events).directory := by
  induction events generalizing server with
  | nil => exact kept
  | cons event rest ih =>
      obtain ⟨here,later⟩ := listed
      obtain ⟨request,answered,times⟩ := event
      refine ih (requestKeeps kept fun id deleted => ?_) later
      subst deleted
      exact here

/- In every state reached, with whatever calls left unanswered, the subjects have the connection's group that
are to have it, and their memberships are of active groups, if every group deleted had its members listed. -/
theorem scimProjection (server : ScimServer) (fresh : Unprovisioned connection server.directory) (events : List ScimEvent)
    (listed : EachListed digest connection events server) :
    ScimProjected connection (server.events digest connection events).directory :=
  (eventsKept (unprovisionedKept connection fresh) listed).projected

end Theorem

def mappedConnection : ScimConnection := ⟨"acme",⟨"codemowers","org-acme"⟩,.mappedGroups⟩

def emptyDirectory : ScimDirectory := ⟨fun _ => [],fun _ => List.nodup_nil⟩

def deprovisioning (answered : List Bool) : List ScimEvent :=
  [⟨.createUser (.object [("userName",.string "alice")]),[],[]⟩,
   ⟨.createGroup (.object [("displayName",.string "staff"),
     ("members",.array [.object [("value",.string "scim-u-acme\x00alice")]])]),[],[]⟩,
   ⟨.deleteGroup "scim-g-acme\x00staff",answered,[]⟩]

/- The listing of the subjects fails: every request succeeds, and the user keeps what the deleted group gave. -/
theorem deletedGroupGrants : ¬ ∀ (digest : String → String) (connection : ScimConnection) (server : ScimServer)
    (events : List ScimEvent), Unprovisioned connection server.directory → Successful digest connection events server →
    ScimProjected connection (server.events digest connection events).directory := by
  intro always
  have successful : Successful id mappedConnection (deprovisioning [true,true,false]) ⟨emptyDirectory,[],0⟩ :=
    ⟨by decide +kernel,by decide +kernel,by decide +kernel,trivial⟩
  have stored : (((ScimServer.events id mappedConnection ⟨emptyDirectory,[],0⟩ (deprovisioning [true,true,false])).directory.held
      "acme" .subject "scim-u-acme\x00alice").map (·.sourceGroups)) = some ["scim-g-acme\x00staff"] := by decide +kernel
  have deleted : (((ScimServer.events id mappedConnection ⟨emptyDirectory,[],0⟩ (deprovisioning [true,true,false])).directory.held
      "acme" .group "scim-g-acme\x00staff").map (·.isActive)) = some false := by decide +kernel
  have projected := always id mappedConnection ⟨emptyDirectory,[],0⟩ _ (fun _ _ => rfl) successful
  obtain ⟨identity,held,memberships⟩ := Option.map_eq_some_iff.mp stored
  obtain ⟨group,present,active⟩ := (projected _ identity held).live "scim-g-acme\x00staff" (by simp [memberships])
  rw [show ScimConnection.uid mappedConnection = "acme" from rfl] at present
  simp [present,active] at deleted

theorem deletedGroupTaken : ScimProjected mappedConnection
      (ScimServer.events id mappedConnection ⟨emptyDirectory,[],0⟩ (deprovisioning [])).directory ∧
    (((ScimServer.events id mappedConnection ⟨emptyDirectory,[],0⟩ (deprovisioning [])).directory.held
      "acme" .subject "scim-u-acme\x00alice").map (·.groups)) = some [] :=
  ⟨scimProjection id mappedConnection ⟨emptyDirectory,[],0⟩ (fun _ _ => rfl) (deprovisioning [])
    ⟨trivial,trivial,.inl (by decide +kernel),trivial⟩,by decide +kernel⟩

end Passmower
