import Passmower.ScimAlgebra
import Passmower.Resumption.Stepping

/-! The keys of users and groups: what a user or a group goes by, and its external identifier. Each belongs to
one user, and to one active group, of the connection, as long as the requests that do not look for the other
bearers of a key are not given a borne one. -/
namespace Passmower
open JavaScript Resumption Program ScimService

structure ScimKeys where
  name : Option String
  externalId : Option Json

def ScimKeys.Clash (keys other : ScimKeys) : Prop :=
  (∃ name, keys.name = some name ∧ other.name = some name) ∨
    ∃ externalId, keys.externalId = some externalId ∧ other.externalId = some externalId

def ScimIdentity.keys (kind : ScimKind) (identity : ScimIdentity) : ScimKeys :=
  ⟨match kind with
    | .subject => identity.userName
    | .group => identity.displayName,identity.externalId⟩

def ScimIdentity.counts (kind : ScimKind) (identity : ScimIdentity) : Bool := kind = .subject || identity.isActive

def borne (connection : ScimConnection) (directory : ScimDirectory) (kind : ScimKind) (name : String) : Option ScimKeys :=
  ((directory.held connection.uid kind name).filter (·.counts kind)).map (·.keys kind)

def KeysUnique (connection : ScimConnection) (directory : ScimDirectory) : Prop := ∀ kind name other keys others,
  borne connection directory kind name = some keys → borne connection directory kind other = some others →
    keys.Clash others → name = other

def Taken (connection : ScimConnection) (directory : ScimDirectory) (kind : ScimKind) (but : Option String)
    (keys : ScimKeys) : Prop :=
  ∃ other others, some other ≠ but ∧ borne connection directory kind other = some others ∧ keys.Clash others

section Keys
variable {connection : ScimConnection} {directory before after : ScimDirectory} {kind kind' : ScimKind}
  {name other : String} {identity edited : ScimIdentity} {keys others : ScimKeys}

theorem clashComm (clash : keys.Clash others) : others.Clash keys :=
  clash.imp (fun ⟨name,mine,theirs⟩ => ⟨name,theirs,mine⟩) (fun ⟨id,mine,theirs⟩ => ⟨id,theirs,mine⟩)

theorem borneHeld (held : directory.held connection.uid kind name = some identity) (counts : identity.counts kind = true) :
    borne connection directory kind name = some (identity.keys kind) := by
  simp [borne,held,counts]

theorem bornePut : borne connection (directory.put kind name ⟨connection.uid,identity⟩) kind' other =
    if kind' = kind ∧ name = other then (if identity.counts kind then some (identity.keys kind) else none)
    else borne connection directory kind' other := by
  unfold borne
  rw [heldPut]
  split
  · rename_i same
    obtain ⟨rfl,rfl⟩ := same
    by_cases counts : identity.counts kind' = true
    · simp [counts]
    · simp [counts]
  · rfl

theorem uniquePut (unique : KeysUnique connection directory)
    (free : identity.counts kind = true → ¬ Taken connection directory kind (some name) (identity.keys kind)) :
    KeysUnique connection (directory.put kind name ⟨connection.uid,identity⟩) := by
  have apart {other : String} {others : ScimKeys} (counts : identity.counts kind = true)
      (there : borne connection directory kind other = some others)
      (clash : (identity.keys kind).Clash others) : name = other := by
    by_contra different
    exact free counts ⟨other,others,fun same => different (Option.some.inj same).symm,there,clash⟩
  intro kind' first second keys others here there clash
  rw [bornePut] at here there
  split at here
  · rename_i same
    obtain ⟨rfl,rfl⟩ := same
    split at here
    · cases Option.some.inj here
      split at there
      · exact (by assumption : _ ∧ _).2
      · exact apart (by assumption) there clash
    · cases here
  · split at there
    · rename_i different same
      obtain ⟨rfl,rfl⟩ := same
      split at there
      · cases Option.some.inj there
        exact (apart (by assumption) here (clashComm clash)).symm
      · cases there
    · exact unique kind' first second keys others here there clash

theorem ownFree (unique : KeysUnique connection directory) (held : directory.held connection.uid kind name = some identity)
    (counts : identity.counts kind = true) : ¬ Taken connection directory kind (some name) (identity.keys kind) := by
  rintro ⟨other,others,different,there,clash⟩
  exact different (congrArg some (unique kind name other _ _ (borneHeld held counts) there clash).symm)

theorem takenSame (same : ∀ other, some other ≠ some name →
    borne connection after kind other = borne connection before kind other) :
    Taken connection after kind (some name) keys ↔ Taken connection before kind (some name) keys := by
  unfold Taken
  refine exists_congr fun other => exists_congr fun others => and_congr_right fun different => ?_
  rw [same other different]

theorem editsBorne {how : String → ScimIdentity → ScimIdentity → Prop} (edits : Edits connection how before after)
    (keeps : ∀ name identity edited, how name identity edited → edited.keys .subject = identity.keys .subject)
    (kind : ScimKind) (name : String) : borne connection after kind name = borne connection before kind name := by
  unfold borne
  cases kind with
  | group => rw [edits.groups]
  | subject =>
      cases stored : before.held connection.uid .subject name with
      | none => simp [edits.others name stored]
      | some identity =>
          obtain ⟨edited,now,what⟩ := edits.edited name identity stored
          simp only [now,Option.filter_some,ScimIdentity.counts,decide_true,Bool.true_or,if_true,Option.map_some,
            keeps name identity edited what]

theorem shiftedKeys {group : String} {wants : Bool} (shifted : Shifted connection group wants identity edited) :
    edited.keys .subject = identity.keys .subject := by
  cases shifted with
  | stays none => rfl
  | moves time some =>
      unfold moved at some
      simp only at some
      split at some
      · cases Option.some.inj some
        rfl
      · split at some
        · cases Option.some.inj some
          rfl
        · cases some

theorem looselyBorne {group : String} (edits : Loosely connection group before after) (kind : ScimKind) (name : String) :
    borne connection after kind name = borne connection before kind name := by
  refine editsBorne edits (fun name identity edited what => ?_) kind name
  rcases what with rfl | ⟨wants,shifted⟩
  · rfl
  · exact shiftedKeys shifted

theorem takenListed {userName externalId : String} :
    (((directory.resources kind).filter (·.connectionUid = connection.uid)).filter (·.identity.counts kind)).any
      (fun account => account.identity.externalId.bind Json.string? = some externalId ||
        (account.identity.keys kind).name = some userName) = true ↔
      Taken connection directory kind none ⟨some userName,some (.string externalId)⟩ := by
  have text (id : Option Json) : id.bind Json.string? = some externalId ↔ id = some (.string externalId) := by
    rcases id with _ | _ | _ | _ | _ | _ | _ <;> simp [Json.string?]
  simp only [List.any_eq_true,List.mem_filter,Bool.or_eq_true,decide_eq_true_eq,text]
  constructor
  · rintro ⟨account,⟨listed,counts⟩,same⟩
    obtain ⟨rfl,-,held⟩ := listedResource.mp (List.mem_filter.mpr (by simpa using listed))
    refine ⟨account.accountId,_,by simp,borneHeld held counts,?_⟩
    rcases same with same | same
    · exact .inr ⟨_,rfl,same⟩
    · exact .inl ⟨_,rfl,same⟩
  · rintro ⟨other,others,-,there,clash⟩
    unfold borne at there
    obtain ⟨identity,present,rfl⟩ := Option.map_eq_some_iff.mp there
    obtain ⟨held,counts⟩ := Option.filter_eq_some_iff.mp present
    refine ⟨⟨other,kind,connection.uid,identity⟩,⟨?_,counts⟩,?_⟩
    · simpa using listedResource.mpr ⟨rfl,rfl,held⟩
    · rcases clash with ⟨name,mine,theirs⟩ | ⟨id,mine,theirs⟩
      · cases mine
        exact .inr theirs
      · cases mine
        exact .inl theirs

end Keys

def Provisioned (kind : ScimKind) (name : String) : Prop := match kind with
  | .subject => ∃ rest, name = "scim-u-" ++ rest
  | .group => ∃ rest, name = "scim-g-" ++ rest

structure Unshared (connection : ScimConnection) (directory : ScimDirectory) : Prop where
  named : Named connection directory
  unique : KeysUnique connection directory

section Programs
variable {digest : String → String} {connection : ScimConnection} {server : ScimServer} {id group : String} {kind : ScimKind}
  {directory before after : ScimDirectory} {identity : ScimIdentity}

theorem namedPut (named : Named connection directory) {name : String} (shape : Provisioned kind name) :
    Named connection (directory.put kind name ⟨connection.uid,identity⟩) where
  subjects other present := by
    rw [heldPut] at present
    split at present
    · rename_i same
      obtain ⟨rfl,rfl⟩ := same
      exact shape
    · exact named.subjects other present
  groups other present := by
    rw [heldPut] at present
    split at present
    · rename_i same
      obtain ⟨rfl,rfl⟩ := same
      exact shape
    · exact named.groups other present

theorem namedHeld (named : Named connection directory) {name : String}
    (present : (directory.held connection.uid kind name).isSome) : Provisioned kind name := by
  cases kind with
  | subject => exact named.subjects name present
  | group => exact named.groups name present

theorem looselyUnshared (unshared : Unshared connection before) (edits : Loosely connection group before after) :
    Unshared connection after where
  named := by
    refine ⟨fun name present => unshared.named.subjects name (Option.isSome_iff_ne_none.mpr fun absent => ?_),
      fun name present => unshared.named.groups name (edits.groups name ▸ present)⟩
    simp [edits.others name absent] at present
  unique kind name other keys others here there clash := by
    rw [looselyBorne edits] at here there
    exact unshared.unique kind name other keys others here there clash

theorem assignedLoosely {wants : String → Bool} (edits : Assigned connection group wants before after) :
    Loosely connection group before after := edits.mono fun _ _ _ shifted => .inr ⟨_,shifted⟩

variable (unshared : Unshared connection server.directory)
include unshared

theorem updateUnshared (kind : ScimKind) (present : (server.directory.held connection.uid kind id).isSome)
    (free : identity.counts kind = true → ¬ Taken connection server.directory kind (some id) (identity.keys kind)) :
    Served (ScimDirectoryService.updateUserSpecs connection id identity) (fun r last =>
      Unshared connection last.directory ∧ (∀ account, r = .ok account → account = ⟨id,kind,connection.uid,identity⟩ ∧
        last.directory = server.directory.put kind id ⟨connection.uid,identity⟩)) server := by
  apply updateUserSpecsWrites
  · exact fun e last unchanged => ⟨unchanged.directory ▸ unshared,fun account failed => by cases failed⟩
  · intro kind' last held _ written
    have same : kind' = kind := by
      cases kind <;> cases kind'
      · rfl
      · simp [namedApart unshared.named id present] at held
      · simp [namedApart unshared.named id held] at present
      · rfl
    subst same
    have done : Unshared connection last.directory := by
      rw [written]
      exact ⟨namedPut unshared.named (namedHeld unshared.named held),uniquePut unshared.unique free⟩
    refine ⟨⟨done,fun account same => ?_⟩,fun e => ⟨done,fun account failed => by cases failed⟩⟩
    cases same
    exact ⟨rfl,written⟩

theorem replaceUserUnshared {resource : Json} (free : ∀ fields userName previous,
    required "userName" resource = .ok (fields,userName) → server.directory.held connection.uid .subject id = some previous →
      ¬ Taken connection server.directory .subject (some id)
        ⟨some userName,given (Object.get fields "externalId") <|> previous.externalId⟩) :
    Served (replaceUser connection id resource) (fun _ last => Unshared connection last.directory) server := by
  unfold replaceUser
  apply servedBind
  apply serviceFindUserReads
  · exact fun e last unchanged => unchanged.directory ▸ unshared
  intro account last unchanged named kind holds
  subst named
  have stored := kind ▸ holds.stored
  rw [← unchanged.directory] at unshared stored free
  apply servedLift
  · exact fun _ _ => unshared
  rintro ⟨fields,userName⟩ read
  unfold userIdentity
  apply servedNow
  intro lastModified
  refine soundMono (updateUnshared unshared .subject (by simp [stored]) fun _ => ?_) fun _ _ both => both.1
  exact free fields userName _ read stored

theorem patchUserUnshared {operations : Option Json} (free : ∀ listed previous identity,
    iterated operations = .ok listed → server.directory.held connection.uid .subject id = some previous →
    listed.foldlM (fun identity operation => patchUserOperation operation identity) previous = .ok identity →
      ¬ Taken connection server.directory .subject (some id) (identity.keys .subject)) :
    Served (ScimService.patchUser connection id operations) (fun _ last => Unshared connection last.directory) server := by
  unfold ScimService.patchUser
  apply servedBind
  apply serviceFindUserReads
  · exact fun e last unchanged => unchanged.directory ▸ unshared
  intro account last unchanged named kind holds
  subst named
  have stored := kind ▸ holds.stored
  rw [← unchanged.directory] at unshared stored free
  apply servedLift
  · exact fun _ _ => unshared
  intro listed read
  apply servedLift
  · exact fun _ _ => unshared
  intro identity patched
  apply servedNow
  intro lastModified
  refine soundMono (updateUnshared unshared .subject (by simp [stored]) fun _ => ?_) fun _ _ both => both.1
  exact free listed _ identity read stored patched

omit unshared in
theorem deactivationPatched : patchUserOperation
    (.object [("op",.string "replace"),("path",.string "active"),("value",.bool false)]) identity =
      .ok {identity with active := some false} := by
  have op : operator [("op",.string "replace"),("path",.string "active"),("value",.bool false)] = .ok "replace" := by
    decide +kernel
  have path : "active".toLower = "active" := by decide +kernel
  unfold patchUserOperation
  simp only [properties]
  show (operator _ >>= _) = _
  rw [op]
  have text : pathText [("op",.string "replace"),("path",.string "active"),("value",.bool false)] = .ok (some "active") := rfl
  have value : objectValue [("op",.string "replace"),("path",.string "active"),("value",.bool false)] = none := rfl
  have step {α β : Type} (a : α) (f : α → Except ScimFailure β) : (Except.ok a >>= f) = f a := rfl
  simp only [step,text,value,Option.map_some,path]
  simp [patchUserPath,notFalse,Object.get]

theorem deactivateUserUnshared :
    Served (deactivateUser connection id) (fun _ last => Unshared connection last.directory) server := by
  refine patchUserUnshared unshared fun listed previous identity read stored patched => ?_
  cases Except.ok.inj read
  rw [List.foldlM_cons,deactivationPatched] at patched
  cases Except.ok.inj patched
  have kept : previous.keys .subject = ({previous with active := some false} : ScimIdentity).keys .subject := rfl
  rw [← kept]
  exact ownFree unshared.unique stored rfl

theorem readUnshared {last : ScimServer} (same : last.directory = server.directory) : Unshared connection last.directory :=
  same ▸ unshared

theorem replaceMembersUnshared (account : ScimResource) (members : Json) :
    Served (replaceMembers connection account members) (fun _ last => Unshared connection last.directory ∧
      ∀ name, last.directory.held connection.uid .group name = server.directory.held connection.uid .group name) server := by
  apply replaceMembersEdits (namedApart unshared.named)
  · exact fun e last edits => ⟨looselyUnshared unshared edits,edits.groups⟩
  · exact fun last desired _ _ _ edits => ⟨looselyUnshared unshared (assignedLoosely edits),edits.groups⟩
  · exact fun last _ _ same => ⟨same ▸ unshared,fun _ => by rw [same]⟩

theorem shownUnshared : Served (findGroup connection id >>= groupResource connection)
    (fun _ last => Unshared connection last.directory) server := by
  apply servedBind
  apply findGroupReads
  · exact fun e last unchanged => readUnshared unshared unchanged.directory
  intro account last unchanged _ _
  apply groupResourceReads
  exact fun shown final same => readUnshared unshared (same.trans unchanged.directory)

theorem replaceMembersShownUnshared (account : ScimResource) (members : Json) : Served (do
    replaceMembers connection account members
    groupResource connection (← findGroup connection id)) (fun _ last => Unshared connection last.directory) server := by
  apply servedBind
  refine soundMono (replaceMembersUnshared unshared account members) fun r last both => ?_
  cases r with
  | ok done => exact shownUnshared both.1
  | error e => exact both.1

theorem replaceGroupUnshared {resource : Json} (free : ∀ fields displayName previous,
    required "displayName" resource = .ok (fields,displayName) →
    server.directory.held connection.uid .group id = some previous → previous.isActive = true →
      ¬ Taken connection server.directory .group (some id)
        ⟨some displayName,given (Object.get fields "externalId") <|> previous.externalId⟩) :
    Served (replaceGroup connection id resource) (fun _ last => Unshared connection last.directory) server := by
  unfold replaceGroup
  apply servedBind
  apply findGroupReads
  · exact fun e last unchanged => readUnshared unshared unchanged.directory
  intro account last unchanged named live
  subst named
  have stored := live.kind ▸ live.holds.stored
  rw [← unchanged.directory] at unshared stored free
  apply servedLift
  · exact fun _ _ => unshared
  rintro ⟨fields,displayName⟩ read
  apply servedNow
  intro lastModified
  apply servedBind
  refine soundMono (updateUnshared unshared .group (by simp [stored]) fun _ => ?_) fun r final both => ?_
  · exact free fields displayName _ read stored live.active
  · cases r with
    | ok updated => exact replaceMembersShownUnshared both.1 _ _
    | error e => exact both.1

theorem deleteGroupUnshared : Served (deleteGroup connection id) (fun _ last => Unshared connection last.directory) server := by
  unfold deleteGroup
  apply servedBind
  apply findGroupReads
  · exact fun e last unchanged => readUnshared unshared unchanged.directory
  intro account last unchanged named live
  subst named
  have stored := live.kind ▸ live.holds.stored
  rw [← unchanged.directory] at unshared stored
  apply servedBind
  refine soundMono (replaceMembersUnshared unshared account _) fun r middle both => ?_
  obtain ⟨unshared,groups⟩ := both
  cases r with
  | error e => exact unshared
  | ok done =>
      apply servedNow
      intro lastModified
      apply servedBind
      refine soundMono (updateUnshared unshared .group (by simp [groups,stored]) fun counts => ?_) fun r final both => ?_
      · simp [ScimIdentity.counts,ScimIdentity.isActive] at counts
      · cases r with
        | ok updated => exact servedPure.mpr both.1
        | error e => exact both.1

end Programs

def namesGiven : Json → List String
  | .object operation => match operator operation with
      | .error _ => []
      | .ok op => match isTruthyOr (Object.get operation "path"), objectValue operation with
          | false, some value => match value.get "displayName" with
              | some displayName => [textOf (some displayName)]
              | none => []
          | _, _ => match pathText operation with
              | .error _ => []
              | .ok path => if path.map String.toLower = some "displayname" ∧ op ≠ "remove" then
                  [textOf (Object.get operation "value")] else []
  | _ => []

def Renamed (connection : ScimConnection) (id : String) (server : ScimServer) :
    Except ScimFailure ScimResource → ScimServer → Prop
  | .ok account, last => Unshared connection last.directory ∧ account.accountId = id ∧
      Live connection last.directory account ∧ ∀ other, other ≠ id →
        last.directory.held connection.uid .group other = server.directory.held connection.uid .group other
  | .error _, last => Unshared connection last.directory

section Patch
variable {connection : ScimConnection} {server : ScimServer} {id : String} {account : ScimResource}
  (unshared : Unshared connection server.directory) (named : account.accountId = id)
  (live : Live connection server.directory account)

include named live

theorem liveStored : server.directory.held connection.uid .group id = some account.identity :=
  named ▸ live.kind ▸ live.holds.stored

include unshared

theorem renameGroupRenames {displayName : String}
    (free : ¬ Taken connection server.directory .group (some id) ⟨some displayName,none⟩) :
    Served (renameGroup connection id account displayName) (Renamed connection id server) server := by
  have stored := liveStored named live
  have counts : account.identity.counts .group = true := by simp [ScimIdentity.counts,live.active]
  unfold renameGroup
  apply servedNow
  intro lastModified
  refine soundMono (updateUnshared unshared .group (by simp [stored]) fun _ => ?_) fun r last both => ?_
  · rintro ⟨other,others,different,there,clash⟩
    rcases clash with ⟨name,mine,theirs⟩ | ⟨externalId,mine,theirs⟩
    · exact free ⟨other,others,different,there,.inl ⟨name,mine,theirs⟩⟩
    · exact ownFree unshared.unique stored counts ⟨other,others,different,there,.inr ⟨externalId,mine,theirs⟩⟩
  · cases r with
    | error e => exact both.1
    | ok updated =>
        obtain ⟨rfl,written⟩ := both.2 updated rfl
        refine ⟨both.1,rfl,⟨rfl,live.active,rfl,by simp [written]⟩,fun other different => ?_⟩
        rw [written,heldPut,if_neg fun same => different same.2.symm]

theorem keptRenames : Renamed connection id server (.ok account) server := ⟨unshared,named,live,fun _ _ => rfl⟩

omit unshared in
theorem membersRename {p : Scim Unit} (moves : Served p (fun _ last => Unshared connection last.directory ∧
    ∀ name, last.directory.held connection.uid .group name = server.directory.held connection.uid .group name) server) :
    Served (p >>= fun _ => Program.pure account) (Renamed connection id server) server := by
  apply servedBind
  refine soundMono moves fun r last both => ?_
  obtain ⟨after,groups⟩ := both
  cases r with
  | ok done =>
      refine servedPure.mpr ⟨after,named,⟨live.kind,live.active,live.holds.owner,?_⟩,fun other _ => groups other⟩
      rw [live.kind,groups,named]
      exact liveStored named live
  | error e => exact after

theorem patchMembersRename (op : String) (value : Json) :
    Served (patchMembers connection account op value >>= fun _ => Program.pure account) (Renamed connection id server)
      server := by
  apply membersRename named live
  unfold patchMembers
  apply servedIf
  · exact fun _ => replaceMembersUnshared unshared account _
  intro _
  apply servedIf
  · intro _
    apply addMembersEdits (namedApart unshared.named)
    · exact fun e last edits => ⟨looselyUnshared unshared edits,edits.groups⟩
    · exact fun last _ _ _ _ _ _ _ _ edits => ⟨looselyUnshared unshared (assignedLoosely edits),edits.groups⟩
    · exact fun last _ _ same => ⟨same ▸ unshared,fun _ => by rw [same]⟩
  · exact fun _ => replaceMembersUnshared unshared account _

theorem removeMembersRename (ids : List String) :
    Served (removeMembers connection account ids >>= fun _ => Program.pure account) (Renamed connection id server)
      server := by
  apply membersRename named live
  apply removeMembersEdits (namedApart unshared.named)
  · exact fun e last edits => ⟨looselyUnshared unshared edits,edits.groups⟩
  · exact fun last _ _ _ edits => ⟨looselyUnshared unshared (assignedLoosely edits),edits.groups⟩
  · exact fun last _ same => ⟨same ▸ unshared,fun _ => by rw [same]⟩

theorem patchGroupValueRenames {value : Object} (free : ∀ displayName, value.get "displayName" = some displayName →
    ¬ Taken connection server.directory .group (some id) ⟨some (textOf (some displayName)),none⟩) :
    Served (patchGroupValue connection id account value) (Renamed connection id server) server := by
  have renamed : Served (patchGroupName connection id account value) (Renamed connection id server) server := by
    unfold patchGroupName
    split
    · rename_i displayName given
      exact renameGroupRenames unshared named live (free displayName given)
    · exact servedPure.mpr (keptRenames unshared named live)
  unfold patchGroupValue
  apply servedBind
  refine soundMono renamed fun r last renamed => ?_
  cases r with
  | error e => exact renamed
  | ok account =>
      obtain ⟨after,named,live,others⟩ := renamed
      cases value.get "members" with
      | some listed =>
          refine soundMono (membersRename named live (replaceMembersUnshared after account _)) fun r final ends => ?_
          cases r with
          | error e => exact ends
          | ok account =>
              obtain ⟨final,named,live,rest⟩ := ends
              exact ⟨final,named,live,fun other different => (rest other different).trans (others other different)⟩
      | none => exact servedPure.mpr ⟨after,named,live,others⟩

theorem patchGroupPathRenames {operation : Object} {op : String} {path : Option String}
    (free : path.map String.toLower = some "displayname" → op ≠ "remove" →
      ¬ Taken connection server.directory .group (some id) ⟨some (textOf (operation.get "value")),none⟩) :
    Served (patchGroupPath connection id account operation op path) (Renamed connection id server) server := by
  have refused : ∀ detail, Served (liftScim (refuse detail "invalidPath") : Scim ScimResource)
      (Renamed connection id server) server := fun detail => servedThrow.mpr unshared
  unfold patchGroupPath
  simp only
  split
  · rename_i lower
    apply servedIf
    · exact fun _ => servedThrow.mpr unshared
    · exact fun kept => renameGroupRenames unshared named live (free lower kept)
  · exact patchMembersRename unshared named live _ _
  · cases path.bind memberFilter with
    | none => exact refused _
    | some member =>
        apply servedIf
        · exact fun _ => removeMembersRename unshared named live _
        · exact fun _ => refused _

theorem patchGroupOperationRenames {operation : Json} (free : ∀ displayName ∈ namesGiven operation,
    ¬ Taken connection server.directory .group (some id) ⟨some displayName,none⟩) :
    Served (patchGroupOperation connection id account operation) (Renamed connection id server) server := by
  obtain ⟨missing,operatorless⟩ := operatorMissing
  unfold patchGroupOperation
  cases operation with
  | object operation =>
      apply servedLift
      · exact fun _ _ => unshared
      intro fields same
      cases Except.ok.inj same
      apply servedLift
      · exact fun _ _ => unshared
      intro op read
      simp only [namesGiven,read] at free
      split
      · rename_i pathless value
        simp only [pathless,value] at free
        apply servedIf
        · exact fun _ => servedThrow.mpr unshared
        · intro _
          refine patchGroupValueRenames unshared named live fun displayName given => free _ ?_
          simp [given]
      · rename_i shape
        apply servedLift
        · exact fun _ _ => unshared
        · intro path text
          refine patchGroupPathRenames unshared named live fun lower kept => free _ ?_
          split
          · exact absurd (by assumption) (shape _ (by assumption))
          · simp [text,lower,kept]
  | null => exact servedThrow.mpr unshared
  | _ =>
      apply servedLift
      · exact fun _ _ => unshared
      intro fields same
      cases Except.ok.inj same
      rw [operatorless]
      exact servedThrow.mpr unshared

theorem patchGroupOperationsRename {operations : List Json} (free : ∀ operation ∈ operations,
    ∀ displayName ∈ namesGiven operation, ¬ Taken connection server.directory .group (some id) ⟨some displayName,none⟩) :
    Served (patchGroupOperations connection id account operations) (Renamed connection id server) server := by
  induction operations generalizing account server with
  | nil => exact servedPure.mpr (keptRenames unshared named live)
  | cons operation rest ih =>
      unfold patchGroupOperations
      apply servedBind
      refine soundMono (patchGroupOperationRenames unshared named live (free operation List.mem_cons_self))
        fun r middle renamed => ?_
      cases r with
      | error e => exact renamed
      | ok account =>
          obtain ⟨after,named,live,others⟩ := renamed
          have free : ∀ operation ∈ rest, ∀ displayName ∈ namesGiven operation,
              ¬ Taken connection middle.directory .group (some id) ⟨some displayName,none⟩ := by
            intro operation inside displayName given
            have same : ∀ other, some other ≠ some id → borne connection middle.directory .group other =
                borne connection server.directory .group other := by
              intro other different
              simp only [borne,others other fun same => different (congrArg some same)]
            rw [takenSame same]
            exact free operation (List.mem_cons_of_mem _ inside) displayName given
          refine soundMono (ih after named live free) fun r last ends => ?_
          cases r with
          | error e => exact ends
          | ok account =>
              obtain ⟨final,named,live,rest⟩ := ends
              exact ⟨final,named,live,fun other different => (rest other different).trans (others other different)⟩

end Patch

section Requests
variable {digest : String → String} {connection : ScimConnection} {server : ScimServer} {id : String}
  (unshared : Unshared connection server.directory)
include unshared

theorem patchGroupUnshared {operations : Option Json} (free : ∀ listed previous, iterated operations = .ok listed →
    server.directory.held connection.uid .group id = some previous → previous.isActive = true →
      ∀ operation ∈ listed, ∀ displayName ∈ namesGiven operation,
        ¬ Taken connection server.directory .group (some id) ⟨some displayName,none⟩) :
    Served (patchGroup connection id operations) (fun _ last => Unshared connection last.directory) server := by
  unfold patchGroup
  apply servedBind
  apply findGroupReads
  · exact fun e last unchanged => readUnshared unshared unchanged.directory
  intro account last unchanged named live
  rw [← unchanged.directory] at unshared live free
  apply servedLift
  · exact fun _ _ => unshared
  intro listed read
  apply servedBind
  have stored := liveStored named live
  refine soundMono (patchGroupOperationsRename unshared named live (free listed _ read stored live.active))
    fun r final renamed => ?_
  cases r with
  | error e => exact renamed
  | ok account => exact shownUnshared renamed.1

def shownOf (connection : ScimConnection) (server : ScimServer) (kind : ScimKind) : List ScimResource :=
  if server.answers then (server.directory.resources kind).filter (·.connectionUid = connection.uid) else []

omit unshared in
theorem listKindShows {kind : ScimKind} {Q : Except ScimFailure (List ScimResource) → ScimServer → Prop}
    (shows : ∀ last, last.directory = server.directory → last.upcoming = server.upcoming.tail →
      Q (.ok (shownOf connection server kind)) last) :
    Served (ScimDirectoryService.listKind connection kind) Q server := by
  unfold ScimDirectoryService.listKind
  rw [servedAsk]
  intro time
  unfold shownOf at shows
  simp only [answerScim]
  by_cases answers : server.answers = true
  · rw [if_pos answers] at shows ⊢
    exact servedPure.mpr (shows _ rfl rfl)
  · rw [if_neg answers] at shows ⊢
    exact servedPure.mpr (shows _ rfl rfl)

omit unshared in
theorem directoryListShows {Q : Except ScimFailure (List ScimResource) → ScimServer → Prop}
    (shows : ∀ last, last.directory = server.directory → last.upcoming = server.upcoming.drop 2 →
      Q (.ok (shownOf connection server .subject ++ shownOf connection server.next .group)) last) :
    Served (ScimDirectoryService.listUsers connection) Q server := by
  unfold ScimDirectoryService.listUsers
  apply servedBind
  apply listKindShows
  intro middle same upcoming
  apply servedBind
  apply listKindShows
  intro last same' upcoming'
  have groups : shownOf connection middle .group = shownOf connection server.next .group := by
    simp only [shownOf,ScimServer.answers,same,upcoming,ScimServer.next]
    rfl
  rw [groups]
  refine servedPure.mpr (shows last (same'.trans same) ?_)
  rw [upcoming',upcoming,← List.drop_one,← List.drop_one,List.drop_drop]

omit unshared in
theorem shownKind {kind : ScimKind} {account : ScimResource} (shown : account ∈ shownOf connection server kind) :
    account.kind = kind := by
  unfold shownOf at shown
  split at shown
  · exact (listedResource.mp shown).1
  · cases shown

omit unshared in
theorem listUsersShows {Q : Except ScimFailure (List ScimResource) → ScimServer → Prop}
    (shows : ∀ last, last.directory = server.directory → last.upcoming = server.upcoming.drop 2 →
      Q (.ok (shownOf connection server .subject)) last) : Served (listUsers connection) Q server := by
  unfold listUsers
  apply servedBind
  apply directoryListShows
  intro last same upcoming
  have kept : (shownOf connection server .subject ++ shownOf connection server.next .group).filter (·.kind ≠ .group) =
      shownOf connection server .subject := by
    rw [List.filter_append,List.filter_eq_self.mpr,List.filter_eq_nil_iff.mpr,List.append_nil]
    · intro account shown
      simp [shownKind shown]
    · intro account shown
      simp [shownKind shown]
  exact servedPure.mpr (kept.symm ▸ shows last same upcoming)

omit unshared in
theorem listGroupsShows {Q : Except ScimFailure (List ScimResource) → ScimServer → Prop}
    (shows : ∀ last, last.directory = server.directory → last.upcoming = server.upcoming.drop 2 →
      Q (.ok ((shownOf connection server.next .group).filter (·.identity.counts .group))) last) :
    Served (listGroups connection) Q server := by
  unfold listGroups
  apply servedBind
  apply directoryListShows
  intro last same upcoming
  have kept : (shownOf connection server .subject ++ shownOf connection server.next .group).filter
      (fun resource => resource.kind = .group && resource.identity.isActive) =
        (shownOf connection server.next .group).filter (·.identity.counts .group) := by
    rw [List.filter_append,List.filter_eq_nil_iff.mpr,List.nil_append]
    · refine List.filter_congr fun account shown => ?_
      simp [shownKind shown,ScimIdentity.counts]
    · intro account shown
      simp [shownKind shown]
  exact servedPure.mpr (kept.symm ▸ shows last same upcoming)

def Conflicts (server : ScimServer) {α : Type} (r : Except ScimFailure α) (last : ScimServer) : Prop :=
  (∃ detail, r = .error (.scim 409 detail (some "uniqueness"))) ∧ last.directory = server.directory

theorem createUserUnshared {resource : Json} (checked : ∀ fields userName, required "userName" resource = .ok (fields,userName) →
    Taken connection server.directory .subject none ⟨some userName,some (.string (externalIdOf fields userName))⟩ →
      server.answers = true) :
    Served (createUser digest connection resource) (fun r last => Unshared connection last.directory ∧
      ∀ fields userName, required "userName" resource = .ok (fields,userName) →
        Taken connection server.directory .subject none ⟨some userName,some (.string (externalIdOf fields userName))⟩ →
          Conflicts server r last) server := by
  unfold createUser
  apply servedLift
  · intro failure failed
    exact ⟨unshared,fun fields userName read => by simp [failed] at read⟩
  rintro ⟨fields,userName⟩ read
  have only {P : Object → String → Prop} (here : P fields userName) : ∀ fields userName,
      required "userName" resource = .ok (fields,userName) → P fields userName := by
    intro fields' userName' same
    cases Except.ok.inj (read.symm.trans same)
    exact here
  replace checked := checked fields userName read
  apply servedBind
  apply listUsersShows
  intro last same _
  have unshared := readUnshared unshared same
  have shown : (shownOf connection server .subject).filter (·.identity.counts .subject) =
      shownOf connection server .subject := List.filter_eq_self.mpr fun account _ => rfl
  apply servedIf
  · intro _
    exact servedThrow.mpr ⟨unshared,only fun _ => ⟨⟨_,rfl⟩,same⟩⟩
  intro alone
  have free : ¬ Taken connection server.directory .subject none
      ⟨some userName,some (.string (externalIdOf fields userName))⟩ := by
    intro taken
    apply alone
    have listed := takenListed.mpr taken
    simp only [shownOf,checked taken,if_true] at shown ⊢
    rw [shown] at listed
    exact listed
  unfold userIdentity
  apply servedNow
  intro createdAt
  apply servedNow
  intro lastModified
  apply servedBind
  apply createProvisionedUserWrites
  · intro final unchanged
    have final : Unshared connection final.directory := readUnshared unshared unchanged.directory
    exact servedThrow.mpr ⟨final,only fun taken => absurd taken free⟩
  · intro final fresh _ written
    have done : Unshared connection final.directory := by
      rw [written]
      refine ⟨namedPut unshared.named ⟨_,rfl⟩,uniquePut unshared.unique fun _ taken => free ?_⟩
      obtain ⟨other,others,_,there,clash⟩ := taken
      exact ⟨other,others,by simp,same ▸ there,clash⟩
    exact ⟨servedPure.mpr ⟨done,only fun taken => absurd taken free⟩,fun _ => ⟨done,only fun taken => absurd taken free⟩⟩

def KnownMembers (connection : ScimConnection) (directory : ScimDirectory) (fields : Object) : Prop :=
  ∀ listed, fields.get "members" = some (.array listed) → unknownMember (subjectsOf connection directory) listed = .ok none

def Overlooked (fields : Object) : Prop :=
  ∃ member rest, fields.get "members" = some (.array (member :: rest)) ∧ member.isTruthy = false

def memberCalls (fields : Object) : Nat := match fields.get "members" with
  | some (.array _) => 2
  | _ => 0

def GroupsListed (answered : List Bool) (fields : Object) : Prop :=
  (memberCalls fields = 2 → answered.headD true = true) ∧ (answered.drop (memberCalls fields + 1)).headD true = true

omit unshared in
theorem knownMembersShows (fields : Object) : Served (knownMembers connection fields) (fun r last =>
    last.directory = server.directory ∧ match r with
      | .ok _ => (KnownMembers connection server.directory fields ∨ Overlooked fields) ∧
          last.upcoming = server.upcoming.drop (memberCalls fields)
      | .error _ => (memberCalls fields = 2 → server.answers = true) → ¬ KnownMembers connection server.directory fields)
    server := by
  unfold knownMembers KnownMembers Overlooked memberCalls
  cases members : Object.get fields "members" with
  | none => exact servedPure.mpr ⟨rfl,.inl fun listed given => by simp at given,rfl⟩
  | some value =>
      cases value with
      | array listed =>
          have only {P : List Json → Prop} (here : P listed) : ∀ listed', some (Json.array listed) = some (.array listed') →
              P listed' := by
            intro listed' same
            cases same
            exact here
          simp only
          apply servedBind
          apply listUsersShows
          intro last same upcoming
          have shown : server.answers = true → shownOf connection server .subject =
              subjectsOf connection server.directory := fun answers => by simp [shownOf,answers,subjectsOf]
          apply servedLift
          · intro failure failed
            refine ⟨same,fun answers known => ?_⟩
            rw [shown (answers trivial),known listed rfl] at failed
            cases failed
          intro unknown found
          cases unknown with
          | some unknown =>
              refine servedThrow.mpr ⟨same,fun answers known => ?_⟩
              rw [shown (answers trivial),known listed rfl] at found
              cases found
          | none =>
              refine servedPure.mpr ⟨same,?_,upcoming⟩
              by_cases answers : server.answers = true
              · refine .inl (only ?_)
                rw [← shown answers]
                exact found
              · cases listed with
                | nil => exact .inl (only rfl)
                | cons member rest =>
                    -- without users, the first member is unknown
                    refine .inr ⟨member,rest,rfl,?_⟩
                    simp only [shownOf,answers,Bool.false_eq_true,if_false,unknownMember] at found
                    split at found
                    · rename_i falsy
                      simpa using falsy
                    · obtain ⟨id,_,found⟩ := boundOk found
                      simpa using found
      | _ => exact servedPure.mpr ⟨rfl,.inl fun listed given => by simp at given,rfl⟩

theorem createGroupUnshared {resource : Json} (checked : ∀ fields displayName,
    required "displayName" resource = .ok (fields,displayName) →
    KnownMembers connection server.directory fields ∨ Overlooked fields →
    Taken connection server.directory .group none ⟨some displayName,some (.string (externalIdOf fields displayName))⟩ →
      GroupsListed server.upcoming fields) :
    Served (createGroup digest connection resource) (fun r last => Unshared connection last.directory ∧
      ∀ fields displayName, required "displayName" resource = .ok (fields,displayName) →
        KnownMembers connection server.directory fields →
        Taken connection server.directory .group none ⟨some displayName,some (.string (externalIdOf fields displayName))⟩ →
          Conflicts server r last) server := by
  unfold createGroup
  apply servedLift
  · intro failure failed
    exact ⟨unshared,fun fields userName read => by simp [failed] at read⟩
  rintro ⟨fields,displayName⟩ read
  have only {P : Object → String → Prop} (here : P fields displayName) : ∀ fields displayName,
      required "displayName" resource = .ok (fields,displayName) → P fields displayName := by
    intro fields' displayName' same
    cases Except.ok.inj (read.symm.trans same)
    exact here
  replace checked := checked fields displayName read
  apply servedBind
  refine soundMono (knownMembersShows fields) fun r first both => ?_
  obtain ⟨same,both⟩ := both
  have unshared := readUnshared unshared same
  cases r with
  | error e => exact ⟨unshared,only fun known taken => absurd known (both (checked (.inl known) taken).1)⟩
  | ok done =>
      obtain ⟨known,upcoming⟩ := both
      apply servedBind
      apply listGroupsShows
      intro second same' _
      have unshared := readUnshared unshared same'
      have same' := same'.trans same
      apply servedIf
      · intro _
        exact servedThrow.mpr ⟨unshared,only fun _ _ => ⟨⟨_,rfl⟩,same'⟩⟩
      intro alone
      have free : ¬ Taken connection second.directory .group none
          ⟨some displayName,some (.string (externalIdOf fields displayName))⟩ := by
        intro taken
        rw [same'] at taken
        have answers : first.next.answers = true := by
          have listed := (checked known taken).2
          simp only [ScimServer.answers,ScimServer.next,upcoming]
          rw [← List.drop_one,List.drop_drop]
          exact listed
        have shown : shownOf connection first.next .group =
            (server.directory.resources .group).filter (·.connectionUid = connection.uid) := by
          simp only [shownOf,answers,if_true]
          rw [← same]
          rfl
        apply alone
        rw [shown]
        exact takenListed.mpr taken
      have untaken {α : Type} {r : Except ScimFailure α} {last : ScimServer} (final : Unshared connection last.directory) :
          Unshared connection last.directory ∧ ∀ fields displayName, required "displayName" resource = .ok (fields,displayName) →
            KnownMembers connection server.directory fields →
            Taken connection server.directory .group none ⟨some displayName,some (.string (externalIdOf fields displayName))⟩ →
              Conflicts server r last := ⟨final,only fun _ taken => absurd (same' ▸ taken) free⟩
      have ends {α : Type} {p : Scim α} {server : ScimServer}
          (keeps : Served p (fun _ last => Unshared connection last.directory) server) :=
        soundMono keeps fun r last final => untaken (r := r) final
      apply servedBind
      apply findUserReads
      intro found third unchanged own
      rw [← unchanged.directory] at free unshared
      cases found with
      | some tombstoned =>
          obtain ⟨named,holds⟩ := own tombstoned rfl
          rw [← unchanged.directory] at holds
          have kind : tombstoned.kind = .group := by
            cases kind : tombstoned.kind with
            | group => rfl
            | subject =>
                have stored := kind ▸ holds.stored
                obtain ⟨rest,text⟩ := unshared.named.subjects tombstoned.accountId (by simp [stored])
                exact absurd (named.symm.trans text) (groupName _ _ rest)
          have stored := kind ▸ holds.stored
          rw [named] at stored
          apply servedNow
          intro lastModified
          apply servedBind
          refine soundMono (updateUnshared unshared .group (by simp [stored]) fun _ taken => free ?_) fun r final both => ?_
          · obtain ⟨other,others,_,there,clash⟩ := taken
            exact ⟨other,others,by simp,there,clash⟩
          · cases r with
            | error e => exact untaken both.1
            | ok updated => exact ends (replaceMembersShownUnshared both.1 _ _)
      | none =>
          simp only
          apply servedNow
          intro createdAt
          apply servedBind
          apply createProvisionedUserWrites
          · exact fun last unchanged => servedThrow.mpr (untaken (readUnshared unshared unchanged.directory))
          · intro last fresh _ written
            have created : Unshared connection last.directory := by
              rw [written]
              refine ⟨namedPut unshared.named ⟨_,rfl⟩,uniquePut unshared.unique fun _ taken => free ?_⟩
              obtain ⟨other,others,_,there,clash⟩ := taken
              exact ⟨other,others,by simp,there,clash⟩
            refine ⟨servedIf (fun _ => ends (shownUnshared created)) fun _ => ?_,fun _ => untaken created⟩
            exact ends (replaceMembersShownUnshared created _ _)

end Requests

namespace ScimRequest
variable (connection : ScimConnection) (directory : ScimDirectory)

inductive Asks : ScimRequest → ScimKind → Option String → ScimKeys → Prop where
  | createUser {resource : Json} {fields : Object} {userName : String}
      (read : required "userName" resource = .ok (fields,userName)) :
      Asks (.createUser resource) .subject none ⟨some userName,some (.string (externalIdOf fields userName))⟩
  | replaceUser {id userName : String} {resource : Json} {fields : Object} {previous : ScimIdentity}
      (stored : directory.held connection.uid .subject id = some previous)
      (read : required "userName" resource = .ok (fields,userName)) :
      Asks (.replaceUser id resource) .subject (some id)
        ⟨some userName,given (fields.get "externalId") <|> previous.externalId⟩
  | patchUser {id : String} {operations : Option Json} {listed : List Json} {previous identity : ScimIdentity}
      (stored : directory.held connection.uid .subject id = some previous) (read : iterated operations = .ok listed)
      (patched : listed.foldlM (fun identity operation => patchUserOperation operation identity) previous = .ok identity) :
      Asks (.patchUser id operations) .subject (some id) (identity.keys .subject)
  | createGroup {resource : Json} {fields : Object} {displayName : String}
      (read : required "displayName" resource = .ok (fields,displayName))
      (known : KnownMembers connection directory fields) :
      Asks (.createGroup resource) .group none ⟨some displayName,some (.string (externalIdOf fields displayName))⟩
  | replaceGroup {id displayName : String} {resource : Json} {fields : Object} {previous : ScimIdentity}
      (stored : directory.held connection.uid .group id = some previous) (active : previous.isActive = true)
      (read : required "displayName" resource = .ok (fields,displayName)) :
      Asks (.replaceGroup id resource) .group (some id)
        ⟨some displayName,given (fields.get "externalId") <|> previous.externalId⟩
  | patchGroup {id displayName : String} {operations : Option Json} {listed : List Json} {operation : Json}
      {previous : ScimIdentity} (stored : directory.held connection.uid .group id = some previous)
      (active : previous.isActive = true) (read : iterated operations = .ok listed) (inside : operation ∈ listed)
      (named : displayName ∈ namesGiven operation) :
      Asks (.patchGroup id operations) .group (some id) ⟨some displayName,none⟩

def Collides (request : ScimRequest) : Prop :=
  ∃ kind but keys, request.Asks connection directory kind but keys ∧ Taken connection directory kind but keys

end ScimRequest

/- A request that would produce two bearers of a key creates, and what it is checked against is listed; so it is for a
group whose members pass the check unlisted. -/
def ScimEvent.Checked (connection : ScimConnection) (server : ScimServer) (event : ScimEvent) : Prop :=
  (event.request.Collides connection server.directory → match event.request with
    | .createUser _ => event.answered.headD true = true
    | .createGroup resource => ∀ fields displayName, required "displayName" resource = .ok (fields,displayName) →
        GroupsListed event.answered fields
    | _ => False) ∧
  ∀ resource fields displayName, event.request = .createGroup resource →
    required "displayName" resource = .ok (fields,displayName) → Overlooked fields →
    Taken connection server.directory .group none ⟨some displayName,some (.string (externalIdOf fields displayName))⟩ →
      GroupsListed event.answered fields

def UniqueAfter (digest : String → String) (connection : ScimConnection) (server : ScimServer) (event : ScimEvent) : Prop :=
  KeysUnique connection (server.handle digest connection event).2.directory ∧
    (event.request.Collides connection server.directory →
      Conflicts server (server.handle digest connection event).1 (server.handle digest connection event).2)

section Theorem
variable {connection : ScimConnection} {server : ScimServer}

theorem resultDropped {α : Type} {p : Scim α} {opened : ScimServer} {refused : Prop} {times : List String}
    (ends : Served p (fun r last => Unshared connection last.directory ∧ (refused → Conflicts server r last)) opened) :
    let out := run answerScim (do let _ ← p) times opened
    Unshared connection out.2.2.directory ∧ (refused → Conflicts server out.1 out.2.2) := by
  have dropped : Served (do let _ ← p : Scim Unit) (fun r last => Unshared connection last.directory ∧
      (refused → Conflicts server r last)) opened := by
    apply servedBind
    refine soundMono ends fun r last both => ?_
    cases r with
    | error e =>
        refine ⟨both.1,fun asked => ?_⟩
        obtain ⟨⟨detail,same⟩,unchanged⟩ := both.2 asked
        cases same
        exact ⟨⟨detail,rfl⟩,unchanged⟩
    | ok value =>
        refine servedPure.mpr ⟨both.1,fun asked => ?_⟩
        obtain ⟨⟨detail,same⟩,_⟩ := both.2 asked
        cases same
  exact aloneRun dropped (disciplinedTrivial _ times opened)

theorem requestUnshared (digest : String → String) (event : ScimEvent) (unshared : Unshared connection server.directory)
    (checked : event.Checked connection server) :
    Unshared connection (server.handle digest connection event).2.directory ∧ UniqueAfter digest connection server event := by
  obtain ⟨request,answered,times⟩ := event
  obtain ⟨checked,overlooked⟩ := checked
  have opened : Unshared connection ({server with upcoming := answered} : ScimServer).directory := unshared
  have plain {α : Type} {p : Scim α} (free : ¬ request.Collides connection server.directory)
      (ends : Served p (fun _ last => Unshared connection last.directory) {server with upcoming := answered}) :
      Served p (fun r last => Unshared connection last.directory ∧
        (request.Collides connection server.directory → Conflicts server r last)) {server with upcoming := answered} :=
    soundMono ends fun r last unshared => ⟨unshared,fun collides => absurd collides free⟩
  have done (ends : let out := run answerScim (request.program digest connection) times {server with upcoming := answered}
      Unshared connection out.2.2.directory ∧
        (request.Collides connection server.directory → Conflicts server out.1 out.2.2)) :
      Unshared connection (server.handle digest connection ⟨request,answered,times⟩).2.directory ∧
        UniqueAfter digest connection server ⟨request,answered,times⟩ := ⟨ends.1,ends.1.unique,ends.2⟩
  apply done
  cases request with
  | createUser resource =>
      refine resultDropped (soundMono (createUserUnshared opened fun fields userName read taken => ?_) fun r last both => ?_)
      · exact checked ⟨_,_,_,.createUser read,taken⟩
      · refine ⟨both.1,fun ⟨_,_,_,asks,taken⟩ => ?_⟩
        cases asks with
        | createUser read => exact both.2 _ _ read taken
  | createGroup resource =>
      refine resultDropped (soundMono (createGroupUnshared opened fun fields displayName read known taken => ?_)
        fun r last both => ?_)
      · rcases known with known | passes
        · exact checked ⟨_,_,_,.createGroup read known,taken⟩ fields displayName read
        · exact overlooked resource fields displayName rfl read passes taken
      · refine ⟨both.1,fun ⟨_,_,_,asks,taken⟩ => ?_⟩
        cases asks with
        | createGroup read known => exact both.2 _ _ read known taken
  | replaceUser id resource =>
      refine resultDropped (plain checked (replaceUserUnshared opened fun fields userName previous read stored taken => ?_))
      exact checked ⟨_,_,_,.replaceUser stored read,taken⟩
  | patchUser id operations =>
      refine resultDropped (plain checked (patchUserUnshared opened fun listed previous identity read stored patched taken => ?_))
      exact checked ⟨_,_,_,.patchUser stored read patched,taken⟩
  | deactivateUser id => exact resultDropped (plain checked (deactivateUserUnshared opened))
  | replaceGroup id resource =>
      refine resultDropped (plain checked
        (replaceGroupUnshared opened fun fields displayName previous read stored active taken => ?_))
      exact checked ⟨_,_,_,.replaceGroup stored active read,taken⟩
  | patchGroup id operations =>
      refine resultDropped (plain checked (patchGroupUnshared opened
        fun listed previous read stored active operation inside displayName named taken => ?_))
      exact checked ⟨_,_,_,.patchGroup stored active read inside named,taken⟩
  | deleteGroup id => exact aloneRun (plain checked (deleteGroupUnshared opened)) (disciplinedTrivial _ times _)

end Theorem

/- The requests of a run whose collisions are all checked leave the keys unique, one after another, and what
collides is refused. -/
theorem scimUniqueness (digest : String → String) (connection : ScimConnection) (server : ScimServer)
    (fresh : Unprovisioned connection server.directory) (events : List ScimEvent)
    (checked : EachStep (fun server event => (server.handle digest connection event).2)
      (fun server event => event.Checked connection server) events server) :
    EachStep (fun server event => (server.handle digest connection event).2) (UniqueAfter digest connection) events server := by
  have start : Unshared connection server.directory := by
    refine ⟨(unprovisionedKept connection fresh).named,fun kind name other keys others here => ?_⟩
    simp [borne,fresh kind name] at here
  clear fresh
  induction events generalizing server with
  | nil => trivial
  | cons event rest ih =>
      obtain ⟨here,later⟩ := checked
      obtain ⟨unshared,unique⟩ := requestUnshared digest event start here
      exact ⟨unique,ih _ later unshared⟩

theorem scimUniquenessApplied : let twice : ScimEvent := {request := .createUser (.object [("userName",.string "alice")])}
    EachStep (fun server event => (ScimServer.handle id mappedConnection server event).2)
      (UniqueAfter id mappedConnection) [twice,twice] ⟨emptyDirectory,[],0⟩ :=
  scimUniqueness id mappedConnection ⟨emptyDirectory,[],0⟩ (fun kind name => by cases kind <;> rfl) _
    ⟨⟨fun _ => rfl,nofun⟩,⟨fun _ => rfl,nofun⟩,trivial⟩

theorem uniqueAtLast {digest : String → String} {connection : ScimConnection} {server : ScimServer}
    {events : List ScimEvent} (start : KeysUnique connection server.directory)
    (each : EachStep (fun server event => (server.handle digest connection event).2) (UniqueAfter digest connection) events
      server) : KeysUnique connection (server.events digest connection events).directory := by
  induction events generalizing server with
  | nil => exact start
  | cons event rest ih => exact ih each.1.1 each.2

def renamedToAlice : List ScimEvent := [
  {request := .createUser (.object [("userName",.string "alice")])},
  {request := .createUser (.object [("userName",.string "bob")])},
  {request := .replaceUser "scim-u-acme\x00bob" (.object [("userName",.string "alice")])}]

/- A full replacement is not checked: it is accepted, and two users go by one name. -/
theorem replacementShares : ¬ ∀ (digest : String → String) (connection : ScimConnection) (server : ScimServer)
    (events : List ScimEvent), Unprovisioned connection server.directory →
      EachStep (fun server event => (server.handle digest connection event).2) (UniqueAfter digest connection) events server := by
  intro always
  have nobody : Unprovisioned mappedConnection emptyDirectory := fun kind name => by cases kind <;> rfl
  have unique := uniqueAtLast (fun kind name other keys others here => by simp [borne,nobody kind name] at here)
    (always id mappedConnection ⟨emptyDirectory,[],0⟩ renamedToAlice nobody)
  have alice : (borne mappedConnection (ScimServer.events id mappedConnection ⟨emptyDirectory,[],0⟩ renamedToAlice).directory
      .subject "scim-u-acme\x00alice").map (·.name) = some (some "alice") := by decide +kernel
  have bob : (borne mappedConnection (ScimServer.events id mappedConnection ⟨emptyDirectory,[],0⟩ renamedToAlice).directory
      .subject "scim-u-acme\x00bob").map (·.name) = some (some "alice") := by decide +kernel
  obtain ⟨keys,here,name⟩ := Option.map_eq_some_iff.mp alice
  obtain ⟨others,there,other⟩ := Option.map_eq_some_iff.mp bob
  have same := unique .subject _ _ keys others here there (.inl ⟨"alice",name,other⟩)
  exact absurd same (by decide +kernel)

end Passmower
