import Passmower.ScimAtomicity

/-! What the creation of a group may touch. The group is looked for by its keys and taken up by its name, and
the keys of a group can be replaced while its name stays. -/
namespace Passmower
open JavaScript Resumption Program ScimService

section Frame
variable {connection : ScimConnection} {before after : ScimDirectory} {group : String} {identity : ScimIdentity}

def SparesActive (connection : ScimConnection) (before after : ScimDirectory) : Prop :=
  ∀ name, ActiveGroup connection before name →
    after.held connection.uid .group name = before.held connection.uid .group name ∧
      membersOfGroup connection after name = membersOfGroup connection before name

def GroupWritten (connection : ScimConnection) (id : String) (before after : ScimDirectory) : Prop :=
  ∃ identity : ScimIdentity, identity.isActive = true ∧
    Loosely connection id (before.put .group id ⟨connection.uid,identity⟩) after

inductive CreationOutcome (connection : ScimConnection) (before : ScimDirectory) (refused : Prop) (after : ScimDirectory) : Prop where
  | nothing (failed : refused) (same : after = before)
  | created {id : String} (new : before.find .group id = none) (alone : before.held connection.uid .subject id = none)
      (written : GroupWritten connection id before after)
  | revived {id : String} {tombstone : ScimIdentity} (stored : before.held connection.uid .group id = some tombstone)
      (deleted : tombstone.isActive = false) (written : GroupWritten connection id before after)

theorem looselyOthers (edits : Loosely connection group before after) {other : String} (apart : other ≠ group) :
    membersOfGroup connection after other = membersOfGroup connection before other := by
  ext user
  unfold membersOfGroup
  cases stored : before.held connection.uid .subject user with
  | none => simp [stored,edits.others user stored]
  | some identity =>
      obtain ⟨edited,now,same | ⟨wants,shifted⟩⟩ := edits.edited user identity stored
      · simp [stored,now,same]
      · have moved := shiftedMembers shifted other
        rw [if_neg apart] at moved
        simp [stored,now,moved]

theorem writtenOnly (active : identity.isActive = true) (here : after = before.put .group group ⟨connection.uid,identity⟩) :
    GroupWritten connection group before after := ⟨identity,active,here ▸ .same fun _ _ => .inl rfl⟩

theorem writtenOthers (written : GroupWritten connection group before after) {other : String} (apart : other ≠ group) :
    after.held connection.uid .group other = before.held connection.uid .group other ∧
      membersOfGroup connection after other = membersOfGroup connection before other := by
  obtain ⟨identity,-,edits⟩ := written
  constructor
  · rw [edits.groups,heldPut,if_neg fun same => apart same.2.symm]
  · rw [looselyOthers edits apart]
    simp [membersOfGroup]

theorem outcomeSpares {refused : Prop} (outcome : CreationOutcome connection before refused after) :
    SparesActive connection before after := by
  intro name active
  cases outcome with
  | nothing failed same => exact same ▸ ⟨rfl,rfl⟩
  | created new alone written =>
      refine writtenOthers written ?_
      rintro rfl
      obtain ⟨identity,stored,-⟩ := active
      rw [heldRecord,new] at stored
      cases stored
  | revived stored deleted written =>
      refine writtenOthers written ?_
      rintro rfl
      obtain ⟨identity,stored',active⟩ := active
      cases Option.some.inj (stored.symm.trans stored')
      rw [deleted] at active
      cases active

end Frame

section Creation
variable {digest : String → String} {connection : ScimConnection} {server : ScimServer} {directory : ScimDirectory}

structure Passes (connection : ScimConnection) (directory : ScimDirectory) (answered : List Bool) (fields : Object)
    (displayName : String) : Prop where
  members : ∀ listed, fields.get "members" = some (.array listed) →
    unknownMember (if answered.headD true then subjectsOf connection directory else []) listed = .ok none
  free : (answered.drop (memberCalls fields + 1)).headD true = true →
    ¬ Taken connection directory .group none ⟨some displayName,some (.string (externalIdOf fields displayName))⟩

def Overwrites (digest : String → String) (connection : ScimConnection) (directory : ScimDirectory) (answered : List Bool)
    (resource : Json) : Prop :=
  ∃ fields displayName, required "displayName" resource = .ok (fields,displayName) ∧
    ActiveGroup connection directory (resourceId digest "g" connection.uid (externalIdOf fields displayName)) ∧
    Passes connection directory answered fields displayName

theorem membersListed (fields : Object) : Served (knownMembers connection fields) (fun r last =>
    last.directory = server.directory ∧ (r = .ok () → last.upcoming = server.upcoming.drop (memberCalls fields) ∧
      ∀ listed, fields.get "members" = some (.array listed) → unknownMember
        (if server.upcoming.headD true then subjectsOf connection server.directory else []) listed = .ok none)) server := by
  unfold knownMembers memberCalls
  cases members : Object.get fields "members" with
  | none => exact servedPure.mpr ⟨rfl,fun _ => ⟨rfl,fun listed given => by cases given⟩⟩
  | some value =>
      cases value with
      | array listed =>
          simp only
          apply servedBind
          apply listUsersShows
          intro last same upcoming
          have shown : shownOf connection server .subject =
              if server.upcoming.headD true then subjectsOf connection server.directory else [] := rfl
          rw [shown]
          apply servedLift
          · exact fun failure _ => ⟨same,fun done => by cases done⟩
          intro unknown found
          cases unknown with
          | some unknown => exact servedThrow.mpr ⟨same,fun done => by cases done⟩
          | none =>
              refine servedPure.mpr ⟨same,fun _ => ⟨upcoming,fun listed' given => ?_⟩⟩
              cases given
              exact found
      | _ => exact servedPure.mpr ⟨rfl,fun _ => ⟨rfl,fun listed given => by cases given⟩⟩

theorem shownSame {id : String} {start : ScimDirectory} (same : server.directory = start) :
    Served (findGroup connection id >>= groupResource connection) (fun _ last => last.directory = start) server := by
  apply servedBind
  refine soundMono (findGroupSame same) fun r last same => ?_
  cases r with
  | error e => exact same
  | ok account => exact groupResourceReads fun _ _ unchanged => unchanged.trans same

theorem membersGiven {account : ScimResource} {id : String} (named : account.accountId = id)
    (apart : Apart connection server.directory) (members : Json) : Served (do
      replaceMembers connection account members
      groupResource connection (← findGroup connection id))
      (fun _ last => Loosely connection id server.directory last.directory) server := by
  apply servedBind
  refine soundMono (replaceLoosely apart members) fun r middle edits => ?_
  rw [named] at edits
  cases r with
  | error e => exact edits
  | ok done => exact soundMono (shownSame rfl) fun _ last same => same ▸ edits

theorem createGroupComes {resource : Json} (named : Named connection server.directory)
    (spared : ¬ Overwrites digest connection server.directory server.upcoming resource) :
    Served (createGroup digest connection resource) (fun r last =>
      CreationOutcome connection server.directory (∃ e, r = .error e) last.directory) server := by
  unfold createGroup
  apply servedLift
  · exact fun failure _ => .nothing ⟨failure,rfl⟩ rfl
  rintro ⟨fields,displayName⟩ read
  apply servedBind
  refine soundMono (membersListed fields) fun r first both => ?_
  obtain ⟨same,passed⟩ := both
  cases r with
  | error e => exact .nothing ⟨e,rfl⟩ same
  | ok done =>
      obtain ⟨upcoming,members⟩ := passed rfl
      apply servedBind
      apply listGroupsShows
      intro second same' _
      have same' : second.directory = server.directory := same'.trans same
      apply servedIf
      · exact fun _ => servedThrow.mpr (.nothing ⟨_,rfl⟩ same')
      intro alone
      have passes : Passes connection server.directory server.upcoming fields displayName := by
        refine ⟨members,fun listed taken => alone ?_⟩
        have answers : first.next.answers = true := by
          simp only [ScimServer.answers,ScimServer.next,upcoming]
          rw [← List.drop_one,List.drop_drop]
          exact listed
        have shown : shownOf connection first.next .group =
            (server.directory.resources .group).filter (·.connectionUid = connection.uid) := by
          simp only [shownOf,answers,if_true]
          rw [← same]
          rfl
        rw [shown]
        exact takenListed.mpr taken
      have dead : ¬ ActiveGroup connection server.directory (resourceId digest "g" connection.uid (externalIdOf fields displayName)) :=
        fun active => spared ⟨fields,displayName,read,active,passes⟩
      apply servedBind
      apply findUserReads
      intro found third unchanged own
      have same := unchanged.directory.trans same'
      cases found with
      | some tombstoned =>
          obtain ⟨name,holds⟩ := own tombstoned rfl
          rw [same'] at holds
          have stored := groupKind named holds name ▸ holds.stored
          rw [name] at stored
          have deleted : tombstoned.identity.isActive = false :=
            Bool.eq_false_iff.mpr fun active => dead ⟨tombstoned.identity,stored,active⟩
          apply servedNow
          intro lastModified
          apply servedBind
          apply updateUserSpecsWrites
          · exact fun e after unchanged => .nothing ⟨e,rfl⟩ (unchanged.directory.trans same)
          intro kind after held _ written
          rw [same] at held written
          have group : kind = .group := by
            cases kind with
            | group => rfl
            | subject =>
                obtain ⟨rest,text⟩ := named.subjects _ held
                exact absurd text (groupName _ _ rest)
          subst group
          refine ⟨?_,fun e => .revived stored deleted (writtenOnly rfl written)⟩
          refine soundMono (membersGiven name (written ▸ namedApart (namedPut named ⟨_,rfl⟩)) (membersOf fields))
            fun r last edits => .revived stored deleted ⟨_,rfl,written ▸ edits⟩
      | none =>
          apply servedNow
          intro createdAt
          apply servedBind
          apply createProvisionedUserWrites
          · exact fun after unchanged => servedThrow.mpr (.nothing ⟨_,rfl⟩ (unchanged.directory.trans same))
          intro after new _ written
          rw [same] at new written
          have alone : server.directory.held connection.uid .subject
              (resourceId digest "g" connection.uid (externalIdOf fields displayName)) = none := by
            refine Option.not_isSome_iff_eq_none.mp fun held => ?_
            obtain ⟨rest,text⟩ := named.subjects _ held
            exact groupName _ _ rest text
          have apart : Apart connection after.directory := written ▸ namedApart (namedPut named ⟨_,rfl⟩)
          refine ⟨servedIf (fun _ => ?_) fun _ => ?_,fun e => .created new alone (writtenOnly rfl written)⟩
          · exact soundMono (shownSame written) fun _ last same => .created new alone (writtenOnly rfl same)
          · exact soundMono (membersGiven rfl apart (membersOf fields)) fun r last edits =>
              .created new alone ⟨_,rfl,written ▸ edits⟩

theorem createGroupOverwrites {ω : Type} {f : ω → String} {resource : Json} (named : Named connection server.directory)
    (calm : server.upcoming = []) (overwrites : Overwrites digest connection server.directory [] resource) :
    Carried f (createGroup digest connection resource)
      (fun _ last => ¬ SparesActive connection server.directory last.directory) server := by
  obtain ⟨fields,displayName,read,⟨old,stored,active⟩,passes⟩ := overwrites
  have known : KnownMembers connection server.directory fields := passes.members
  have free : ¬ Taken connection server.directory .group none
      ⟨some displayName,some (.string (externalIdOf fields displayName))⟩ := passes.free (by simp)
  unfold createGroup
  simp only [read,liftScim,pureBind]
  apply carriedBind
  refine soundMono (carriedKnownMembers fields) fun r first both => ?_
  obtain ⟨same,still,checked⟩ := both
  cases checked.mp known
  apply carriedBind
  apply carriedListGroups
  intro second same' still'
  rw [same] at same'
  replace still := calmTrans still still'
  dsimp only
  split
  · rename_i borne
    rw [same] at borne
    exact absurd (takenListed.mp borne) free
  apply carriedBind
  apply carriedFind
  intro third unchanged still'
  have unchanged : third.directory = server.directory := unchanged.trans same'
  replace still := calmTrans still still'
  rw [← same'] at stored named
  rw [holdingStored (namedApart named) stored]
  rw [same',← unchanged] at stored named
  dsimp only
  apply carriedNow
  intro w
  apply carriedBind
  refine soundMono (carriedUpdate (namedApart named) (by simp [stored] : (third.directory.held connection.uid .group _).isSome))
    fun r written ends => ?_
  cases r with
  | error e => exact absurd (still calm) ends.1
  | ok updated =>
      obtain ⟨-,here,-⟩ := ends
      have apart : Apart connection written.directory := here ▸ namedApart (namedPut named ⟨_,rfl⟩)
      refine soundMono (carriedServed (membersGiven rfl apart (membersOf fields))) fun r last edits spares => free ?_
      rw [unchanged] at stored here
      have kept := (spares _ ⟨old,stored,active⟩).1
      rw [edits.groups,here,heldPut,if_pos ⟨rfl,rfl⟩,stored] at kept
      refine ⟨_,_,by simp,borneHeld stored active,.inl ⟨displayName,rfl,?_⟩⟩
      rw [← Option.some.inj kept]
      rfl

end Creation

structure CreationFrame (digest : String → String) (connection : ScimConnection) (server : ScimServer)
    (event : TenantEvent) : Prop where
  outcome : CreationOutcome connection server.directory (∃ e, (server.serve digest connection event).1 = .error e)
    (server.serve digest connection event).2.directory
  spared : SparesActive connection server.directory (server.serve digest connection event).2.directory

section Theorem
variable {digest : String → String} {connection : ScimConnection} {server : ScimServer} {answered : List Bool}
  {times : List String} {resource : Json}

theorem creationFramed (named : Named connection server.directory)
    (spared : ¬ Overwrites digest connection server.directory answered resource) :
    CreationFrame digest connection server ⟨.postGroup resource,answered,times⟩ := by
  have comes : Served (do
        let shown ← createGroup digest connection resource
        .pure (ScimResponse.group shown))
      (fun r last => CreationOutcome connection server.directory (∃ e, r = .error e) last.directory)
      (server.expecting ⟨.postGroup resource,answered,times⟩) := by
    apply servedBind
    have named : Named connection (server.expecting ⟨.postGroup resource,answered,times⟩).directory := named
    refine soundMono (createGroupComes named spared) fun r last outcome => ?_
    cases r with
    | ok shown =>
        refine servedPure.mpr ?_
        cases outcome with
        | nothing failed same =>
            obtain ⟨e,failed⟩ := failed
            cases failed
        | created new alone written => exact .created new alone written
        | revived stored deleted written => exact .revived stored deleted written
    | error e =>
        cases outcome with
        | nothing failed same => exact .nothing ⟨e,rfl⟩ same
        | created new alone written => exact .created new alone written
        | revived stored deleted written => exact .revived stored deleted written
  have outcome := aloneRun comes (disciplinedTrivial _ times _)
  exact ⟨outcome,outcomeSpares outcome⟩

theorem framedUnwritten (named : Named connection server.directory)
    (frame : CreationFrame digest connection server ⟨.postGroup resource,[],times⟩) :
    ¬ Overwrites digest connection server.directory [] resource := by
  intro overwrites
  have comes : Carried id (do
        let shown ← createGroup digest connection resource
        .pure (ScimResponse.group shown))
      (fun _ last => ¬ SparesActive connection server.directory last.directory)
      (server.expecting ⟨.postGroup resource,[],times⟩) := by
    apply carriedBind
    have named : Named connection (server.expecting ⟨.postGroup resource,[],times⟩).directory := named
    refine soundMono (createGroupOverwrites named rfl overwrites) fun r last spoiled => ?_
    cases r with
    | ok shown => exact carriedPure spoiled
    | error e => exact spoiled
  exact aloneRun comes (calmDisciplined _ times rfl) frame.spared

end Theorem

/- After any run, the creation of a group keeps to its frame if it does not come through its checks with the name of an
active group; with every call answered, only then. -/
theorem scimCreations (digest : String → String) (connection : ScimConnection) (start : ScimServer)
    (fresh : Unprovisioned connection start.directory) (events : List TenantEvent) (resource : Json) :
    let server := start.served digest connection events
    (∀ answered times, ¬ Overwrites digest connection server.directory answered resource →
      CreationFrame digest connection server ⟨.postGroup resource,answered,times⟩) ∧
    ∀ times, CreationFrame digest connection server ⟨.postGroup resource,[],times⟩ ↔
      ¬ Overwrites digest connection server.directory [] resource := by
  intro server
  have named : Named connection server.directory := runNamed (unprovisionedKept connection fresh).named events
  exact ⟨fun answered times => creationFramed named,fun times => ⟨framedUnwritten named,creationFramed named⟩⟩

def renamedCrew : List TenantEvent := [
  ⟨.postGroup (.object [("displayName",.string "staff"),("externalId",.string "x")]),[],[]⟩,
  ⟨.putGroup "scim-g-acme\x00x" (.object [("displayName",.string "crew"),("externalId",.string "y")]),[],[]⟩]

def newcomers : Json := .object [("displayName",.string "newcomers"),("externalId",.string "x")]

/- The group's name is replaced a second time, by a creation. -/
theorem crewOverwritten : ¬ ∀ (digest : String → String) (connection : ScimConnection) (start : ScimServer),
    Unprovisioned connection start.directory → ∀ events resource answered times,
      CreationFrame digest connection (start.served digest connection events) ⟨.postGroup resource,answered,times⟩ := by
  intro always
  let server : ScimServer := (⟨emptyDirectory,[],0⟩ : ScimServer).served id mappedConnection renamedCrew
  let last : ScimServer := (server.serve id mappedConnection ⟨.postGroup newcomers,[],[]⟩).2
  have frame : CreationFrame id mappedConnection server ⟨.postGroup newcomers,[],[]⟩ :=
    always id mappedConnection ⟨emptyDirectory,[],0⟩ (fun kind name => by cases kind <;> rfl) renamedCrew newcomers [] []
  have before : (server.directory.held "acme" .group "scim-g-acme\x00x").map (fun identity => (identity.isActive,
      identity.displayName)) = some (true,some "crew") := by decide +kernel
  have after : (last.directory.held "acme" .group "scim-g-acme\x00x").bind (·.displayName) = some "newcomers" := by
    decide +kernel
  obtain ⟨identity,stored,shape⟩ := Option.map_eq_some_iff.mp before
  have kept : last.directory.held "acme" .group "scim-g-acme\x00x" = server.directory.held "acme" .group "scim-g-acme\x00x" :=
    (frame.spared _ ⟨identity,stored,congrArg Prod.fst shape⟩).1
  rw [kept,stored] at after
  have named : identity.displayName = some "crew" := congrArg Prod.snd shape
  exact absurd (named.symm.trans after) (by decide)

def staffGroup : Json := .object [("displayName",.string "staff")]

theorem staffRevived : CreationFrame id mappedConnection ((⟨emptyDirectory,[],0⟩ : ScimServer).served id mappedConnection
    [⟨.postGroup staffGroup,[],[]⟩,⟨.deleteGroup "scim-g-acme\x00staff",[],[]⟩]) ⟨.postGroup staffGroup,[],[]⟩ := by
  refine (scimCreations id mappedConnection ⟨emptyDirectory,[],0⟩ (fun kind name => by cases kind <;> rfl) _ staffGroup).1 [] [] ?_
  rintro ⟨fields,displayName,read,⟨identity,stored,active⟩,-⟩
  cases Except.ok.inj (show Except.ok _ = Except.ok _ from read)
  have deleted : ((((⟨emptyDirectory,[],0⟩ : ScimServer).served id mappedConnection
      [⟨.postGroup staffGroup,[],[]⟩,⟨.deleteGroup "scim-g-acme\x00staff",[],[]⟩]).directory.held "acme" .group
        "scim-g-acme\x00staff").map (·.isActive)) = some false := by decide +kernel
  have same : resourceId id "g" mappedConnection.uid (externalIdOf [("displayName",.string "staff")] "staff") =
      "scim-g-acme\x00staff" := by decide +kernel
  rw [same,show ScimConnection.uid mappedConnection = "acme" from rfl] at stored
  simp [stored,active] at deleted

end Passmower
