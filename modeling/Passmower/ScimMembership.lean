import Passmower.ScimService

/-! What the membership operations of the SCIM service come to: the subjects as the API server lists
them, and what each of them is afterwards, whichever calls are answered. -/
namespace Passmower
open JavaScript Resumption Program ScimService

variable {connection : ScimConnection} {directory before middle after : ScimDirectory} {server : ScimServer}
  {name group : String} {identity edited : ScimIdentity}

def Apart (connection : ScimConnection) (directory : ScimDirectory) : Prop :=
  ∀ name, (directory.held connection.uid .subject name).isSome → directory.held connection.uid .group name = none

def subjectsOf (connection : ScimConnection) (directory : ScimDirectory) : List ScimResource :=
  (directory.resources .subject).filter (·.connectionUid = connection.uid)

theorem subjectListed {resource : ScimResource} : resource ∈ subjectsOf connection directory ↔
    resource.kind = .subject ∧ Holds connection directory resource := by
  unfold subjectsOf
  rw [listedResource]
  constructor
  · rintro ⟨kind,owner,stored⟩
    exact ⟨kind,owner,kind ▸ stored⟩
  · rintro ⟨kind,owner,stored⟩
    exact ⟨kind,owner,kind ▸ stored⟩

theorem subjectHeld (stored : directory.held connection.uid .subject name = some identity) :
    ⟨name,.subject,connection.uid,identity⟩ ∈ subjectsOf connection directory :=
  subjectListed.mpr ⟨rfl,rfl,stored⟩

inductive Listed (connection : ScimConnection) (server : ScimServer) : List ScimResource → ScimServer → Prop where
  | answered {after : ScimServer} (same : Unchanged server after) :
      Listed connection server (subjectsOf connection server.directory) after
  | failed {after : ScimServer} (directory : after.directory = server.directory)
      (counted : after.unlisted = server.unlisted + 1) : Listed connection server [] after

theorem listedSame {users : List ScimResource} {after : ScimServer} (listed : Listed connection server users after) :
    after.directory = server.directory := by
  cases listed with
  | answered same => exact same.directory
  | failed same counted => exact same

theorem listKindReads {kind : ScimKind} {Q : Except ScimFailure (List ScimResource) → ScimServer → Prop}
    (answered : Q (.ok ((server.directory.resources kind).filter (·.connectionUid = connection.uid))) server.next)
    (failed : Q (.ok []) (server.fail kind)) :
    Served (ScimDirectoryService.listKind connection kind) Q server := by
  unfold ScimDirectoryService.listKind
  rw [servedAsk]
  intro time
  simp only [answerScim]
  by_cases answers : server.answers = true
  · rw [if_pos answers]
    exact servedPure.mpr answered
  · rw [if_neg answers]
    exact servedPure.mpr failed

theorem directoryListReads {Q : Except ScimFailure (List ScimResource) → ScimServer → Prop}
    (reads : ∀ users groups after, (∀ resource ∈ groups, resource.kind = .group) → Listed connection server users after →
      Q (.ok (users ++ groups)) after) :
    Served (ScimDirectoryService.listUsers connection) Q server := by
  have groups : ∀ resource ∈ (server.directory.resources .group).filter (·.connectionUid = connection.uid),
      resource.kind = .group := fun resource inside => (listedResource.mp inside).1
  unfold ScimDirectoryService.listUsers
  apply servedBind
  apply listKindReads
  · apply servedBind
    apply listKindReads
    · exact servedPure.mpr (reads _ _ _ groups (.answered ⟨rfl,rfl⟩))
    · exact servedPure.mpr (reads _ _ _ (by simp) (.answered ⟨rfl,rfl⟩))
  · apply servedBind
    apply listKindReads
    · exact servedPure.mpr (reads _ _ _ groups (.failed rfl rfl))
    · exact servedPure.mpr (reads _ _ _ (by simp) (.failed rfl rfl))

theorem listedSubjects {users : List ScimResource} {last : ScimServer} (listed : Listed connection server users last) :
    ∀ user ∈ users, user.kind = .subject ∧ Holds connection server.directory user := by
  cases listed with
  | answered => exact fun user inside => subjectListed.mp inside
  | failed => exact fun user inside => absurd inside (List.not_mem_nil)

theorem listUsersReads {Q : Except ScimFailure (List ScimResource) → ScimServer → Prop}
    (reads : ∀ users after, Listed connection server users after → Q (.ok users) after) :
    Served (ScimService.listUsers connection) Q server := by
  unfold ScimService.listUsers
  apply servedBind
  apply directoryListReads
  intro users groups last apart listed
  have kept : (users ++ groups).filter (·.kind ≠ .group) = users := by
    rw [List.filter_append,List.filter_eq_self.mpr,List.filter_eq_nil_iff.mpr,List.append_nil]
    · intro resource inside
      simp [apart resource inside]
    · intro user inside
      simp [(listedSubjects listed user inside).1]
  exact servedPure.mpr (kept.symm ▸ reads users last listed)

theorem listGroupsReads {Q : Except ScimFailure (List ScimResource) → ScimServer → Prop}
    (reads : ∀ groups after, after.directory = server.directory → Q (.ok groups) after) :
    Served (listGroups connection) Q server := by
  unfold listGroups
  apply servedBind
  apply directoryListReads
  intro users groups last apart listed
  exact servedPure.mpr (reads _ _ (listedSame listed))

structure Edits (connection : ScimConnection) (how : String → ScimIdentity → ScimIdentity → Prop)
    (before after : ScimDirectory) : Prop where
  groups : ∀ name, after.held connection.uid .group name = before.held connection.uid .group name
  others : ∀ name, before.held connection.uid .subject name = none → after.held connection.uid .subject name = none
  edited : ∀ name identity, before.held connection.uid .subject name = some identity →
    ∃ edited, after.held connection.uid .subject name = some edited ∧ how name identity edited

namespace Edits
variable {how further total : String → ScimIdentity → ScimIdentity → Prop}

theorem same (refl : ∀ name identity, how name identity identity) : Edits connection how directory directory where
  groups _ := rfl
  others _ none := none
  edited name identity stored := ⟨identity,stored,refl name identity⟩

theorem mono (edits : Edits connection how before after)
    (weaker : ∀ name identity edited, how name identity edited → further name identity edited) :
    Edits connection further before after where
  groups := edits.groups
  others := edits.others
  edited name identity stored := by
    obtain ⟨edited,now,done⟩ := edits.edited name identity stored
    exact ⟨edited,now,weaker name identity edited done⟩

theorem trans (first : Edits connection how before middle) (second : Edits connection further middle after)
    (join : ∀ name a b c, how name a b → further name b c → total name a c) :
    Edits connection total before after where
  groups name := (second.groups name).trans (first.groups name)
  others name none := second.others name (first.others name none)
  edited name identity stored := by
    obtain ⟨between,now,done⟩ := first.edited name identity stored
    obtain ⟨edited,last,rest⟩ := second.edited name between now
    exact ⟨edited,last,join name identity between edited done rest⟩

theorem put (stored : directory.held connection.uid .subject name = some identity) :
    Edits connection (fun other a b => if other = name then a = identity ∧ b = edited else b = a) directory
      (directory.put .subject name ⟨connection.uid,edited⟩) where
  groups other := by simp
  others other none := by
    rw [heldPut,if_neg]
    · exact none
    · rintro ⟨_,rfl⟩
      simp [stored] at none
  edited other a held := by
    rw [heldPut]
    by_cases same : name = other
    · subst same
      rw [stored] at held
      exact ⟨edited,by simp,by simp [Option.some.inj held]⟩
    · exact ⟨a,by simp [same,held],by simp [Ne.symm same]⟩

theorem apart (edits : Edits connection how before after) (apart : Apart connection before) :
    Apart connection after := by
  intro name held
  rw [edits.groups]
  refine apart name (Option.isSome_iff_ne_none.mpr fun none => ?_)
  simp [edits.others name none] at held

end Edits

inductive Shifted (connection : ScimConnection) (group : String) (wants : Bool) (identity : ScimIdentity) :
    ScimIdentity → Prop where
  | stays (none : moved connection group wants identity = none) : Shifted connection group wants identity identity
  | moves {new : ScimIdentity} (time : String) (some : moved connection group wants identity = some new) :
      Shifted connection group wants identity {new with lastModified := time}

theorem shiftedMembers {wants : Bool} (shifted : Shifted connection group wants identity edited) (other : String) :
    other ∈ edited.sourceGroups ↔ if other = group then wants = true else other ∈ identity.sourceGroups := by
  cases shifted with
  | stays none =>
      unfold moved at none
      by_cases same : other = group
      · subst same
        cases wants <;> simp_all
      · simp [same]
  | moves time some =>
      unfold moved at some
      simp only [Bool.and_eq_true,Bool.not_eq_true',List.contains_eq_mem,decide_eq_true_eq,decide_eq_false_iff_not] at some
      split at some
      · cases Option.some.inj some
        by_cases same : other = group
        · simp_all [projectGroups]
        · simp [projectGroups,same]
      · split at some
        · cases Option.some.inj some
          by_cases same : other = group
          · simp_all [projectGroups]
          · simp [projectGroups,same]
        · cases some

section Loop
variable {desired : List String} {users : List ScimResource}

def finished (connection : ScimConnection) (group : String) (desired : List String) (users : List ScimResource)
    (name : String) (identity edited : ScimIdentity) : Prop :=
  if name ∈ users.map (·.accountId) then Shifted connection group (desired.contains name) identity edited
  else edited = identity

def brokenOff (connection : ScimConnection) (group : String) (desired : List String) (users : List ScimResource)
    (name : String) (identity edited : ScimIdentity) : Prop :=
  edited = identity ∨
    (name ∈ users.map (·.accountId) ∧ Shifted connection group (desired.contains name) identity edited)

theorem finishedHead (user : ScimResource) :
    finished connection group desired (user :: users) user.accountId identity edited ↔
      Shifted connection group (desired.contains user.accountId) identity edited := by
  simp [finished]

theorem finishedTail {user : ScimResource} (other : name ≠ user.accountId) :
    finished connection group desired (user :: users) name identity edited ↔
      finished connection group desired users name identity edited := by
  simp [finished,other]

section Head
variable {user : ScimResource} {new first second : ScimIdentity} (fresh : user.accountId ∉ users.map (·.accountId))

theorem brokenTail (what : brokenOff connection group desired users name identity edited) :
    brokenOff connection group desired (user :: users) name identity edited :=
  what.imp id fun ⟨inside,shifted⟩ => ⟨List.mem_cons_of_mem _ inside,shifted⟩

include fresh

theorem finishedStays (stays : moved connection group (desired.contains user.accountId) user.identity = none)
    (same : name = user.accountId → identity = user.identity)
    (what : finished connection group desired users name identity edited) :
    finished connection group desired (user :: users) name identity edited := by
  by_cases head : name = user.accountId
  · subst head
    simp only [finished,if_neg fresh] at what
    subst what
    exact (finishedHead _).mpr (same rfl ▸ .stays stays)
  · exact (finishedTail head).mpr what

variable (shifted : Shifted connection group (desired.contains user.accountId) user.identity new)
  (written : if name = user.accountId then first = user.identity ∧ second = new else second = first)

include shifted written

theorem finishedMoves (rest : finished connection group desired users name second edited) :
    finished connection group desired (user :: users) name first edited := by
  by_cases head : name = user.accountId
  · rw [if_pos head] at written
    obtain ⟨rfl,rfl⟩ := written
    subst head
    simp only [finished,if_neg fresh] at rest
    subst rest
    exact (finishedHead _).mpr shifted
  · rw [if_neg head] at written
    subst written
    exact (finishedTail head).mpr rest

theorem brokenMoves (rest : brokenOff connection group desired users name second edited) :
    brokenOff connection group desired (user :: users) name first edited := by
  by_cases head : name = user.accountId
  · rw [if_pos head] at written
    obtain ⟨rfl,rfl⟩ := written
    subst head
    rcases rest with rfl | ⟨inside,_⟩
    · exact .inr ⟨List.mem_cons_self,shifted⟩
    · exact absurd inside fresh
  · rw [if_neg head] at written
    subst written
    exact brokenTail rest

end Head

theorem moveMembersEdits {Q : Except ScimFailure Unit → ScimServer → Prop} (apart : Apart connection server.directory)
    (distinct : (users.map (·.accountId)).Nodup)
    (subjects : ∀ user ∈ users, user.kind = .subject ∧ Holds connection server.directory user)
    (failed : ∀ e last, last.unlisted = server.unlisted →
      Edits connection (brokenOff connection group desired users) server.directory last.directory → Q (.error e) last)
    (done : ∀ last, last.unlisted = server.unlisted →
      Edits connection (finished connection group desired users) server.directory last.directory → Q (.ok ()) last) :
    Served (moveMembers connection group desired users) Q server := by
  induction users generalizing server with
  | nil => exact servedPure.mpr (done server rfl (.same fun name identity => by simp [finished]))
  | cons user rest ih =>
      obtain ⟨fresh,distinct⟩ := List.nodup_cons.mp distinct
      obtain ⟨kind,held⟩ := subjects user List.mem_cons_self
      have stored := kind ▸ held.stored
      have remaining : ∀ other ∈ rest, other.kind = .subject ∧ Holds connection server.directory other :=
        fun other inside => subjects other (List.mem_cons_of_mem _ inside)
      unfold moveMembers
      cases move : moved connection group (desired.contains user.accountId) user.identity with
      | none =>
          apply ih apart distinct remaining
          · exact fun e last counted edits => failed e last counted (edits.mono fun _ _ _ => brokenTail)
          · intro last counted edits
            refine done last counted ⟨edits.groups,edits.others,fun name identity here => ?_⟩
            obtain ⟨edited,now,what⟩ := edits.edited name identity here
            refine ⟨edited,now,finishedStays fresh move ?_ what⟩
            rintro rfl
            exact Option.some.inj (here.symm.trans stored)
      | some identity =>
          simp only [ScimService.now]
          rw [servedAsk]
          intro time
          simp only [answerScim]
          apply servedBind
          apply updateUserSpecsWrites
          · intro e last unchanged
            exact failed e last unchanged.unlisted (unchanged.directory ▸ .same fun name identity => .inl rfl)
          · intro kind last held counted written
            have subject : kind = .subject := by
              cases kind with
              | subject => rfl
              | group => simp [apart user.accountId (by simp [stored])] at held
            subst subject
            have shifted := Shifted.moves time move
            have step := @Edits.put _ _ _ _ {identity with lastModified := time} stored
            rw [← written] at step
            constructor
            · apply ih (step.apart apart) distinct
              · intro other inside
                obtain ⟨otherKind,otherHeld⟩ := remaining other inside
                have different : user.accountId ≠ other.accountId := fun same =>
                  fresh (List.mem_map.mpr ⟨other,inside,same.symm⟩)
                refine ⟨otherKind,otherHeld.owner,?_⟩
                rw [written,otherKind,heldPut,if_neg fun same => different same.2]
                exact otherKind ▸ otherHeld.stored
              · exact fun e end' counted' edits => failed e end' (counted'.trans counted)
                  (step.trans edits fun _ _ _ _ => brokenMoves fresh shifted)
              · exact fun end' counted' edits => done end' (counted'.trans counted)
                  (step.trans edits fun _ _ _ _ => finishedMoves fresh shifted)
            · exact fun e => failed e last counted (step.mono fun _ _ _ first => brokenMoves fresh shifted first (.inl rfl))

end Loop

section Operations
variable {desired : List String} {users : List ScimResource} {listed : ScimServer} {account : ScimResource}

abbrev Assigned (connection : ScimConnection) (group : String) (wants : String → Bool) :=
  Edits connection (fun name => Shifted connection group (wants name))

abbrev Loosely (connection : ScimConnection) (group : String) :=
  Edits connection (fun _ a b => b = a ∨ ∃ wants, Shifted connection group wants a b)

theorem replaceMembersOfEdits {Q : Except ScimFailure Unit → ScimServer → Prop} (apart : Apart connection server.directory)
    (found : Listed connection server users listed)
    (failed : ∀ e last, Loosely connection group server.directory last.directory → Q (.error e) last)
    (done : ∀ last, users = subjectsOf connection server.directory → last.unlisted = server.unlisted →
      (∀ id ∈ desired, (server.directory.held connection.uid .subject id).isSome) →
      Assigned connection group desired.contains server.directory last.directory → Q (.ok ()) last)
    (missed : ∀ last, users = [] → desired = [] → last.unlisted = server.unlisted + 1 →
      last.directory = server.directory → Q (.ok ()) last) :
    Served (replaceMembersOf connection group desired users) Q listed := by
  unfold replaceMembersOf
  cases found with
  | answered same =>
      cases sought : desired.find? (fun id => !(subjectsOf connection server.directory).any (·.accountId = id)) with
      | some unknown =>
          exact servedThrow.mpr (failed _ _ (same.directory ▸ .same fun name identity => .inl rfl))
      | none =>
          have known : ∀ id ∈ desired, (server.directory.held connection.uid .subject id).isSome := by
            intro id inside
            have present := List.find?_eq_none.mp sought id inside
            simp only [Bool.not_eq_true,Bool.not_eq_false',List.any_eq_true,decide_eq_true_eq] at present
            obtain ⟨user,listed,rfl⟩ := present
            obtain ⟨kind,held⟩ := subjectListed.mp listed
            exact kind ▸ held.stored ▸ rfl
          apply moveMembersEdits (same.directory ▸ apart) listedNames
          · rw [same.directory]
            exact fun user inside => subjectListed.mp inside
          · intro e last counted edits
            rw [same.directory] at edits
            exact failed e last (edits.mono fun name a b what => what.imp id fun shifted => ⟨_,shifted.2⟩)
          · intro last counted edits
            rw [same.directory] at edits
            refine done last rfl (counted.trans same.unlisted) known ⟨edits.groups,edits.others,?_⟩
            intro name identity stored
            obtain ⟨edited,now,what⟩ := edits.edited name identity stored
            have inside : name ∈ (subjectsOf connection server.directory).map (·.accountId) :=
              List.mem_map.mpr ⟨_,subjectHeld stored,rfl⟩
            exact ⟨edited,now,(if_pos inside).mp what⟩
  | failed same counted =>
      cases desired with
      | nil => exact servedPure.mpr (missed _ rfl rfl counted same)
      | cons id rest => exact servedThrow.mpr (failed _ _ (same ▸ .same fun name identity => .inl rfl))

theorem servedLift {α β : Type} {e : Except ScimFailure α} {f : α → Scim β} {Q : Except ScimFailure β → ScimServer → Prop}
    (failed : ∀ failure, e = .error failure → Q (.error failure) server)
    (value : ∀ a, e = .ok a → Served (f a) Q server) : Served (liftScim e >>= f) Q server := by
  cases e with
  | ok a => exact value a rfl
  | error failure => exact servedThrow.mpr (failed failure rfl)

theorem replaceMembersEdits {members : Json} {Q : Except ScimFailure Unit → ScimServer → Prop}
    (apart : Apart connection server.directory)
    (failed : ∀ e last, Loosely connection account.accountId server.directory last.directory → Q (.error e) last)
    (done : ∀ last desired, memberIds (items members) = .ok desired → last.unlisted = server.unlisted →
      (∀ id ∈ desired, (server.directory.held connection.uid .subject id).isSome) →
      Assigned connection account.accountId desired.contains server.directory last.directory → Q (.ok ()) last)
    (missed : ∀ last, memberIds (items members) = .ok [] → last.unlisted = server.unlisted + 1 →
      last.directory = server.directory → Q (.ok ()) last) :
    Served (replaceMembers connection account members) Q server := by
  unfold replaceMembers
  apply servedLift
  · intro failure _
    exact failed failure server (.same fun name identity => .inl rfl)
  intro desired ids
  apply servedBind
  apply listUsersReads
  intro users listed found
  apply replaceMembersOfEdits apart found failed
  · intro last _ counted known edits
    exact done last desired ids counted known edits
  · intro last _ empty counted same
    exact missed last (empty ▸ ids) counted same

theorem memberListed : name ∈ (ScimService.members account (subjectsOf connection directory)).map (·.accountId) ↔
    ∃ identity, directory.held connection.uid .subject name = some identity ∧
      account.accountId ∈ identity.sourceGroups := by
  simp only [ScimService.members,List.mem_map,List.mem_filter,subjectListed,List.contains_eq_mem,decide_eq_true_eq]
  constructor
  · rintro ⟨user,⟨⟨kind,held⟩,inside⟩,rfl⟩
    exact ⟨_,kind ▸ held.stored,inside⟩
  · rintro ⟨identity,stored,inside⟩
    exact ⟨⟨name,.subject,connection.uid,identity⟩,⟨⟨rfl,⟨rfl,stored⟩⟩,inside⟩,rfl⟩

theorem addMembersEdits {added : Json} {Q : Except ScimFailure Unit → ScimServer → Prop}
    (apart : Apart connection server.directory)
    (failed : ∀ e last, Loosely connection account.accountId server.directory last.directory → Q (.error e) last)
    (done : ∀ last listed ids desired, added = .array listed → memberIds listed = .ok ids →
      (∀ name, desired name = true ↔ (∃ identity, server.directory.held connection.uid .subject name = some identity ∧
        account.accountId ∈ identity.sourceGroups) ∨ name ∈ ids) →
      last.unlisted = server.unlisted → (∀ id ∈ ids, (server.directory.held connection.uid .subject id).isSome) →
      Assigned connection account.accountId desired server.directory last.directory → Q (.ok ()) last)
    (missed : ∀ last, (∃ listed, added = .array listed ∧ memberIds listed = .ok []) →
      last.unlisted = server.unlisted + 1 → last.directory = server.directory → Q (.ok ()) last) :
    Served (addMembers connection account added) Q server := by
  unfold addMembers
  apply servedBind
  apply listUsersReads
  intro users mid found
  have unread := listedSame found
  apply servedLift
  · intro failure _
    exact failed failure mid (unread ▸ .same fun name identity => .inl rfl)
  intro ids read
  obtain ⟨listed,rfl,read⟩ : ∃ listed, added = .array listed ∧ memberIds listed = .ok ids := by
    cases added with
    | array listed => exact ⟨listed,rfl,read⟩
    | _ => cases read
  apply replaceMembersOfEdits apart found failed
  · intro last all counted known edits
    subst all
    refine done last listed ids _ rfl read (fun name => ?_) counted
      (fun id inside => known id (List.mem_append_right _ inside)) edits
    rw [List.contains_eq_mem,decide_eq_true_eq,List.mem_append,memberListed]
  · intro last none empty counted same
    subst none
    exact missed last ⟨listed,rfl,read.trans (congrArg _ (List.append_eq_nil_iff.mp empty).2)⟩ counted same

theorem removeMembersEdits {ids : List String} {Q : Except ScimFailure Unit → ScimServer → Prop}
    (apart : Apart connection server.directory)
    (failed : ∀ e last, Loosely connection account.accountId server.directory last.directory → Q (.error e) last)
    (done : ∀ last desired, (∀ name, desired name = true ↔
        (∃ identity, server.directory.held connection.uid .subject name = some identity ∧
          account.accountId ∈ identity.sourceGroups) ∧ name ∉ ids) →
      last.unlisted = server.unlisted →
      Assigned connection account.accountId desired server.directory last.directory → Q (.ok ()) last)
    (missed : ∀ last, last.unlisted = server.unlisted + 1 → last.directory = server.directory → Q (.ok ()) last) :
    Served (removeMembers connection account ids) Q server := by
  unfold removeMembers
  apply servedBind
  apply listUsersReads
  intro users mid found
  apply replaceMembersOfEdits apart found failed
  · intro last all counted known edits
    subst all
    refine done last _ (fun name => ?_) counted edits
    rw [List.contains_eq_mem,decide_eq_true_eq,List.mem_filter,memberListed,decide_eq_true_eq]
  · intro last _ _ counted same
    exact missed last counted same

end Operations

section Readers
variable {id : String}

structure Live (connection : ScimConnection) (directory : ScimDirectory) (account : ScimResource) : Prop where
  kind : account.kind = .group
  active : account.identity.isActive = true
  holds : Holds connection directory account

theorem findGroupReads {Q : Except ScimFailure ScimResource → ScimServer → Prop}
    (failed : ∀ e last, Unchanged server last → Q (.error e) last)
    (found : ∀ account last, Unchanged server last → account.accountId = id → Live connection server.directory account →
      Q (.ok account) last) : Served (findGroup connection id) Q server := by
  unfold findGroup
  apply servedBind
  apply findUserReads
  intro resource last same own
  simp only
  cases sought : resource.filter (fun account => account.kind = .group && account.identity.isActive) with
  | none => exact servedThrow.mpr (failed _ _ same)
  | some account =>
      obtain ⟨present,live⟩ := Option.filter_eq_some_iff.mp sought
      simp only [Bool.and_eq_true,decide_eq_true_eq] at live
      obtain ⟨named,holds⟩ := own account present
      exact servedPure.mpr (found account last same named ⟨live.1,live.2,holds⟩)

theorem serviceFindUserReads {Q : Except ScimFailure ScimResource → ScimServer → Prop}
    (failed : ∀ e last, Unchanged server last → Q (.error e) last)
    (found : ∀ account last, Unchanged server last → account.accountId = id → account.kind = .subject →
      Holds connection server.directory account → Q (.ok account) last) :
    Served (ScimService.findUser connection id) Q server := by
  unfold ScimService.findUser
  apply servedBind
  apply findUserReads
  intro resource last same own
  simp only
  cases sought : resource.filter (·.kind ≠ .group) with
  | none => exact servedThrow.mpr (failed _ _ same)
  | some account =>
      obtain ⟨present,kind⟩ := Option.filter_eq_some_iff.mp sought
      obtain ⟨named,holds⟩ := own account present
      refine servedPure.mpr (found account last same named ?_ holds)
      cases shape : account.kind with
      | subject => rfl
      | group => simp [shape] at kind

theorem groupResourceReads {account : ScimResource} {Q : Except ScimFailure ShownGroup → ScimServer → Prop}
    (reads : ∀ shown last, last.directory = server.directory → Q (.ok shown) last) :
    Served (groupResource connection account) Q server := by
  unfold groupResource
  apply servedBind
  apply listUsersReads
  intro users last listed
  exact servedPure.mpr (reads _ _ (listedSame listed))

theorem servedNow {α : Type} {f : String → Scim α} {Q : Except ScimFailure α → ScimServer → Prop}
    (all : ∀ time, Served (f time) Q server) : Served (ScimService.now >>= f) Q server := by
  unfold ScimService.now
  rw [servedAsk]
  exact all

end Readers

end Passmower
