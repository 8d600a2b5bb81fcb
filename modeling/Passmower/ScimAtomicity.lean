import Mathlib.Data.Fintype.EquivFin
import Passmower.ScimUniqueness
import Passmower.ScimIsolation
import Passmower.Resumption.Stepping

/-! What a refused request leaves behind. Requests on users, creations and deletions write once all is
checked; a group is renamed, or has its members moved, before the rest of a request is looked at. -/
namespace Passmower
open JavaScript Resumption Program ScimService

def ScimFailure.Client (failure : ScimFailure) : Prop :=
  ∃ status detail scimType, failure = .scim status detail scimType ∧ 400 ≤ status ∧ status < 500

section Carrying
variable {ω : Type} {f : ω → String} {connection : ScimConnection} {server : ScimServer} {id group : String}
  {kind : ScimKind} {directory before after : ScimDirectory} {identity : ScimIdentity}

def ReadAnswered (server : ScimServer) : ScimCall → Prop
  | .list _ | .get _ _ => server.answers = true
  | _ => True

abbrev Carried {α : Type} (f : ω → String) (p : Scim α) (Q : Except ScimFailure α → ScimServer → Prop)
    (server : ScimServer) : Prop :=
  Alone (fun w => answerScim (f w)) ReadAnswered (fun _ _ => True) p Q server

def Calm (server last : ScimServer) : Prop := server.upcoming = [] → last.upcoming = []

def Stamped (f : ω → String) (connection : ScimConnection) (directory : ScimDirectory) : Prop :=
  ∃ kind name identity w, directory.held connection.uid kind name = some identity ∧ identity.lastModified = f w

structure Effect (f : ω → String) (connection : ScimConnection) (writes : Prop) (before after : ScimDirectory) : Prop where
  written : writes → Stamped f connection after
  kept : ¬ writes → after = before

section Rules
variable {α β : Type} {Q : Except ScimFailure α → ScimServer → Prop} {R : Except ScimFailure β → ScimServer → Prop}

theorem carriedServed {p : Scim α} (served : Served p Q server) : Carried f p Q server :=
  soundNarrow f (fun _ _ _ => trivial) served

theorem carriedBind {p : Scim α} {next : α → Scim β}
    (first : Carried f p (fun r after => match r with
      | .ok a => Carried f (next a) R after
      | .error e => R (.error e) after) server) : Carried f (p >>= next) R server := by
  apply aloneBind
  refine soundMono first fun r after rest => ?_
  cases r with
  | ok a => exact rest
  | error e => exact rest

theorem carriedAsk {c : ScimCall} {next : ScimAnswer c → Scim α} (all : ReadAnswered server c → ∀ w,
    Carried f (next (answerScim (f w) c server).1) Q (answerScim (f w) c server).2) :
    Carried f (ask (I := scim) c >>= next) Q server := by
  rw [Carried,aloneAsk]
  exact fun read w => ⟨trivial,all read w⟩

theorem carriedNow {next : String → Scim α} (all : ∀ w, Carried f (next (f w)) Q server) :
    Carried f (ScimService.now >>= next) Q server := carriedAsk fun _ w => all w

theorem carriedPure {a : α} (ends : Q (.ok a) server) : Carried f (.pure a) Q server := (alonePure a Q server).mpr ends

theorem carriedThrow {e : ScimFailure} (ends : Q (.error e) server) : Carried f (.throw e) Q server :=
  (aloneThrow e Q server).mpr ends

end Rules

theorem calmNext : Calm server server.next := fun empty => by simp [ScimServer.next,empty]

theorem calmTrans {middle last : ScimServer} (first : Calm server middle) (second : Calm middle last) : Calm server last :=
  second ∘ first

def holding (connection : ScimConnection) (directory : ScimDirectory) (id : String) : Option ScimResource :=
  match (directory.resource .subject id).filter (·.connectionUid = connection.uid) with
  | some found => some found
  | none => (directory.resource .group id).filter (·.connectionUid = connection.uid)

theorem carriedFind {Q : Except ScimFailure (Option ScimResource) → ScimServer → Prop}
    (found : ∀ last, last.directory = server.directory → Calm server last →
      Q (.ok (holding connection server.directory id)) last) :
    Carried f (ScimDirectoryService.findUser connection id) Q server := by
  unfold ScimDirectoryService.findUser
  apply carriedAsk
  intro answers w
  have answers : server.answers = true := answers
  simp only [answerScim,answers,if_true]
  unfold holding at found
  cases subject : (server.directory.resource .subject id).filter (·.connectionUid = connection.uid) with
  | some resource =>
      rw [subject] at found
      exact carriedPure (found _ rfl calmNext)
  | none =>
      rw [subject] at found
      apply carriedAsk
      intro answers w
      have answers : server.next.answers = true := answers
      simp only [answerScim,answers,if_true]
      exact carriedPure (found _ rfl (calmTrans calmNext calmNext))

theorem holdingStored (apart : Apart connection directory) (stored : directory.held connection.uid kind id = some identity) :
    holding connection directory id = some ⟨id,kind,connection.uid,identity⟩ := by
  unfold holding
  rw [gottenOwn,gottenOwn]
  cases kind with
  | subject => simp [stored]
  | group =>
      have absent : directory.held connection.uid .subject id = none := by
        refine Option.not_isSome_iff_eq_none.mp fun subject => ?_
        simp [apart id subject] at stored
      simp [stored,absent]

theorem holdingOwn {account : ScimResource} (found : holding connection directory id = some account) :
    account.accountId = id ∧ Holds connection directory account := by
  have own {kind : ScimKind} (found : (directory.resource kind id).filter (·.connectionUid = connection.uid) = some account) :
      account.accountId = id ∧ Holds connection directory account := by
    obtain ⟨identity,stored,rfl⟩ := ownResource.mp found
    exact ⟨rfl,rfl,stored⟩
  unfold holding at found
  split at found
  · rename_i subject
    exact own (found ▸ subject)
  · exact own found

theorem putStamped {w : ω} (stamp : identity.lastModified = f w) :
    Stamped f connection (directory.put kind id ⟨connection.uid,identity⟩) := ⟨kind,id,identity,w,by simp,stamp⟩

theorem otherClient {message : String} : ¬ (ScimFailure.other message).Client := by
  rintro ⟨_,_,_,same,_⟩
  cases same

theorem carriedUpdate (apart : Apart connection server.directory)
    (present : (server.directory.held connection.uid kind id).isSome) :
    Carried f (ScimDirectoryService.updateUserSpecs connection id identity) (fun r last => match r with
      | .ok account => account = ⟨id,kind,connection.uid,identity⟩ ∧
          last.directory = server.directory.put kind id ⟨connection.uid,identity⟩ ∧ Calm server last
      | .error e => server.upcoming ≠ [] ∧ ¬ e.Client) server := by
  obtain ⟨old,stored⟩ := Option.isSome_iff_exists.mp present
  have record := heldRecord.mp stored
  unfold ScimDirectoryService.updateUserSpecs
  apply carriedBind
  apply carriedFind
  intro middle same calm
  rw [holdingStored apart stored]
  dsimp only
  apply carriedAsk
  intro _ w
  simp only [answerScim,same,record]
  by_cases answers : middle.answers = true
  · simp only [answers,if_true]
    apply carriedBind
    unfold ScimDirectoryService.onChange
    apply carriedAsk
    intro _ w
    simp only [answerScim]
    by_cases projected : ({middle.next with
        directory := server.directory.put kind id ⟨connection.uid,identity⟩} : ScimServer).answers = true
    · simp only [projected,if_true]
      refine carriedPure (carriedPure ⟨rfl,rfl,calmTrans calm fun empty => ?_⟩)
      simp [ScimServer.next,empty]
    · simp only [projected]
      refine carriedThrow ⟨fun empty => projected ?_,otherClient⟩
      simp [ScimServer.answers,ScimServer.next,calm empty]
  · simp only [answers]
    refine carriedThrow ⟨fun empty => answers ?_,otherClient⟩
    simp [ScimServer.answers,calm empty]

theorem carriedListKind {Q : Except ScimFailure (List ScimResource) → ScimServer → Prop}
    (shows : Q (.ok ((server.directory.resources kind).filter (·.connectionUid = connection.uid))) server.next) :
    Carried f (ScimDirectoryService.listKind connection kind) Q server := by
  unfold ScimDirectoryService.listKind
  apply carriedAsk
  intro answers w
  have answers : server.answers = true := answers
  simp only [answerScim,answers,if_true]
  exact carriedPure shows

theorem carriedList {Q : Except ScimFailure (List ScimResource) → ScimServer → Prop}
    (listed : ∀ last, last.directory = server.directory → Calm server last →
      Q (.ok (subjectsOf connection server.directory)) last) : Carried f (listUsers connection) Q server := by
  unfold listUsers ScimDirectoryService.listUsers
  apply carriedBind
  apply carriedBind
  apply carriedListKind
  apply carriedBind
  apply carriedListKind
  apply carriedPure
  have subjects : ((server.directory.resources .subject).filter (·.connectionUid = connection.uid)).filter (·.kind ≠ .group) =
      subjectsOf connection server.directory :=
    List.filter_eq_self.mpr fun resource inside => by simp [(listedResource.mp inside).1]
  have groups : ((server.next.directory.resources .group).filter (·.connectionUid = connection.uid)).filter
      (·.kind ≠ .group) = [] :=
    List.filter_eq_nil_iff.mpr fun resource inside => by simp [(listedResource.mp inside).1]
  dsimp only
  rw [List.filter_append,subjects,groups,List.append_nil]
  exact carriedPure (listed _ rfl (calmTrans calmNext calmNext))

theorem carriedListGroups {Q : Except ScimFailure (List ScimResource) → ScimServer → Prop}
    (listed : ∀ last, last.directory = server.directory → Calm server last →
      Q (.ok (((server.directory.resources .group).filter (·.connectionUid = connection.uid)).filter
        (·.identity.counts .group))) last) : Carried f (listGroups connection) Q server := by
  unfold listGroups ScimDirectoryService.listUsers
  apply carriedBind
  apply carriedBind
  apply carriedListKind
  apply carriedBind
  apply carriedListKind
  apply carriedPure
  have subjects : ((server.directory.resources .subject).filter (·.connectionUid = connection.uid)).filter
      (fun resource => resource.kind = .group && resource.identity.isActive) = [] :=
    List.filter_eq_nil_iff.mpr fun resource inside => by simp [(listedResource.mp inside).1]
  have groups : ((server.next.directory.resources .group).filter (·.connectionUid = connection.uid)).filter
      (fun resource => resource.kind = .group && resource.identity.isActive) =
        ((server.directory.resources .group).filter (·.connectionUid = connection.uid)).filter (·.identity.counts .group) :=
    List.filter_congr fun resource inside => by simp [(listedResource.mp inside).1,ScimIdentity.counts]
  dsimp only
  rw [List.filter_append,subjects,groups,List.nil_append]
  exact carriedPure (listed _ rfl (calmTrans calmNext calmNext))

def MembersEnd (f : ω → String) (connection : ScimConnection) (failure : Option ScimFailure) (writes : Prop)
    (server : ScimServer) : Except ScimFailure Unit → ScimServer → Prop
  | .ok _, last => failure = none ∧ Calm server last ∧ Effect f connection writes server.directory last.directory
  | .error e, last => (server.upcoming ≠ [] ∧ ¬ e.Client) ∨ (failure = some e ∧ last.directory = server.directory)

section Moving
variable {desired : List String} {users : List ScimResource} {account : ScimResource} {operation : MemberOperation}

theorem movedNone {wants : Bool} : moved connection group wants identity = none ↔
    (wants = true ↔ group ∈ identity.sourceGroups) := by
  unfold moved
  cases wants with
  | true => by_cases inside : group ∈ identity.sourceGroups <;> simp [inside]
  | false => by_cases inside : group ∈ identity.sourceGroups <;> simp [inside]

theorem carriedMove (apart : Apart connection server.directory) (distinct : (users.map (·.accountId)).Nodup)
    (subjects : ∀ user ∈ users, user.kind = .subject ∧ Holds connection server.directory user) :
    Carried f (moveMembers connection group desired users) (MembersEnd f connection none
      (∃ user ∈ users, moved connection group (desired.contains user.accountId) user.identity ≠ none) server) server := by
  induction users generalizing server with
  | nil =>
      refine carriedPure ⟨rfl,id,?_,fun _ => rfl⟩
      rintro ⟨user,inside,_⟩
      cases inside
  | cons user rest ih =>
      obtain ⟨fresh,distinct⟩ := List.nodup_cons.mp distinct
      obtain ⟨kind,held⟩ := subjects user List.mem_cons_self
      have stored := kind ▸ held.stored
      have remaining : ∀ other ∈ rest, other.kind = .subject ∧ Holds connection server.directory other :=
        fun other inside => subjects other (List.mem_cons_of_mem _ inside)
      unfold moveMembers
      cases move : moved connection group (desired.contains user.accountId) user.identity with
      | none =>
          have same : (∃ other ∈ user :: rest, moved connection group (desired.contains other.accountId) other.identity ≠ none) ↔
              ∃ other ∈ rest, moved connection group (desired.contains other.accountId) other.identity ≠ none := by
            constructor
            · rintro ⟨other,inside,moves⟩
              rcases List.mem_cons.mp inside with rfl | later
              · exact absurd move moves
              · exact ⟨other,later,moves⟩
            · rintro ⟨other,later,moves⟩
              exact ⟨other,List.mem_cons_of_mem _ later,moves⟩
          rw [same]
          exact ih apart distinct remaining
      | some identity =>
          have some' : ∃ other ∈ user :: rest, moved connection group (desired.contains other.accountId) other.identity ≠ none :=
            ⟨user,List.mem_cons_self,by rw [move]; exact Option.some_ne_none _⟩
          apply carriedNow
          intro w
          apply carriedBind
          refine soundMono (carriedUpdate apart (by simp [stored] : (server.directory.held connection.uid .subject _).isSome))
            fun r middle ends => ?_
          cases r with
          | error e => exact .inl ends
          | ok updated =>
              obtain ⟨-,written,calm⟩ := ends
              have step := @Edits.put connection server.directory user.accountId user.identity
                {identity with lastModified := f w} stored
              rw [← written] at step
              have stamped : Stamped f connection middle.directory := written ▸ putStamped (w := w) rfl
              refine soundMono (ih (step.apart apart) distinct fun other inside => ?_) fun r last ends => ?_
              · obtain ⟨otherKind,otherHeld⟩ := remaining other inside
                have different : user.accountId ≠ other.accountId := fun same =>
                  fresh (List.mem_map.mpr ⟨other,inside,same.symm⟩)
                refine ⟨otherKind,otherHeld.owner,?_⟩
                rw [written,otherKind,heldPut,if_neg fun same => different same.2]
                exact otherKind ▸ otherHeld.stored
              · cases r with
                | error e =>
                    refine .inl ⟨fun empty => ?_,?_⟩
                    · exact (ends.resolve_right fun failed => by cases failed.1).1 (calm empty)
                    · exact (ends.resolve_right fun failed => by cases failed.1).2
                | ok done =>
                    obtain ⟨-,calm',effect⟩ := ends
                    refine ⟨rfl,calmTrans calm calm',fun _ => ?_,fun idle => absurd some' idle⟩
                    by_cases more : ∃ other ∈ rest, moved connection group (desired.contains other.accountId) other.identity ≠ none
                    · exact effect.written more
                    · exact effect.kept more ▸ stamped

theorem movesSome {wants : String → Bool} :
    (∃ user ∈ subjectsOf connection directory, moved connection group (wants user.accountId) user.identity ≠ none) ↔
      {user | (directory.held connection.uid .subject user).isSome ∧ wants user = true} ≠
        membersOfGroup connection directory group := by
  rw [← not_iff_not]
  simp only [not_exists,not_and,ne_eq,not_not,movedNone]
  constructor
  · intro all
    ext user
    constructor
    · rintro ⟨present,wanted⟩
      obtain ⟨identity,stored⟩ := Option.isSome_iff_exists.mp present
      exact ⟨identity,stored,(all _ (subjectHeld stored)).mp wanted⟩
    · rintro ⟨identity,stored,inside⟩
      exact ⟨by simp [stored],(all _ (subjectHeld stored)).mpr inside⟩
  · intro same user inside
    obtain ⟨kind,held⟩ := subjectListed.mp inside
    have stored := kind ▸ held.stored
    have member : user.accountId ∈ membersOfGroup connection directory group ↔ group ∈ user.identity.sourceGroups := by
      simp [membersOfGroup,stored]
    rw [← member,← same]
    simp [stored]

def unknownFailure (connection : ScimConnection) (directory : ScimDirectory) :
    Except ScimFailure (List String) → Option ScimFailure
  | .error failure => some failure
  | .ok ids => (ids.find? fun id => (directory.held connection.uid .subject id).isNone).map fun unknown =>
      .scim 400 s!"Unknown member {unknown}" (some "invalidValue")

/- `members.map`, which only an array has. -/
def addedIds : Json → Except ScimFailure (List String)
  | .array added => memberIds added
  | _ => .error .typeError

theorem memberKnown : (subjectsOf connection directory).any (·.accountId = id) =
    (directory.held connection.uid .subject id).isSome := by
  rw [Bool.eq_iff_iff,List.any_eq_true]
  constructor
  · rintro ⟨user,inside,same⟩
    obtain ⟨kind,held⟩ := subjectListed.mp inside
    have stored := kind ▸ held.stored
    rw [decide_eq_true_eq] at same
    simp [← same,stored]
  · intro present
    obtain ⟨identity,stored⟩ := Option.isSome_iff_exists.mp present
    exact ⟨_,subjectHeld stored,by simp⟩

theorem carriedReplaceOf (apart : Apart connection server.directory)
    (comesTo : (∀ id ∈ desired, (server.directory.held connection.uid .subject id).isSome) →
      {user | (server.directory.held connection.uid .subject user).isSome ∧ desired.contains user = true} =
        operation.apply (membersOfGroup connection server.directory group)) :
    Carried f (replaceMembersOf connection group desired (subjectsOf connection server.directory))
      (MembersEnd f connection (unknownFailure connection server.directory (.ok desired))
        (operation.apply (membersOfGroup connection server.directory group) ≠
          membersOfGroup connection server.directory group) server) server := by
  unfold replaceMembersOf unknownFailure
  simp only [memberKnown,Option.not_isSome]
  cases sought : desired.find? (fun id => (server.directory.held connection.uid .subject id).isNone) with
  | some unknown => exact carriedThrow (.inr ⟨rfl,rfl⟩)
  | none =>
      have known : ∀ id ∈ desired, (server.directory.held connection.uid .subject id).isSome := by
        intro id inside
        exact Option.isSome_iff_ne_none.mpr (by simpa using List.find?_eq_none.mp sought id inside)
      rw [← comesTo known,← movesSome]
      exact carriedMove apart listedNames fun user inside => subjectListed.mp inside

theorem membersEndAfter {failure : Option ScimFailure} {writes : Prop} {middle last : ScimServer} {r : Except ScimFailure Unit}
    (same : middle.directory = server.directory) (calm : Calm server middle)
    (ends : MembersEnd f connection failure writes middle r last) : MembersEnd f connection failure writes server r last := by
  cases r with
  | ok done =>
      obtain ⟨none,calm',effect⟩ := ends
      exact ⟨none,calmTrans calm calm',same ▸ effect⟩
  | error e => exact ends.imp (fun both => ⟨fun empty => both.1 (calm empty),both.2⟩) fun both => ⟨both.1,both.2.trans same⟩

theorem carriedLift {α β : Type} {e : Except ScimFailure α} {next : α → Scim β} {Q : Except ScimFailure β → ScimServer → Prop}
    (failed : ∀ failure, e = .error failure → Q (.error failure) server)
    (value : ∀ a, e = .ok a → Carried f (next a) Q server) : Carried f (liftScim e >>= next) Q server := by
  cases e with
  | ok a => exact value a rfl
  | error failure => exact carriedThrow (failed failure rfl)

variable (apart : Apart connection server.directory)
include apart

theorem carriedReplace {members : Json} (assigns : ∀ desired, memberIds (items members) = .ok desired →
      operation.apply (membersOfGroup connection server.directory account.accountId) = {user | user ∈ desired}) :
    Carried f (replaceMembers connection account members) (MembersEnd f connection
      (unknownFailure connection server.directory (memberIds (items members)))
      (operation.apply (membersOfGroup connection server.directory account.accountId) ≠
        membersOfGroup connection server.directory account.accountId) server) server := by
  unfold replaceMembers
  apply carriedLift
  · intro failure failed
    exact .inr ⟨by simp [failed,unknownFailure],rfl⟩
  intro desired read
  apply carriedBind
  apply carriedList
  intro middle same calm
  rw [read,← same]
  refine soundMono (carriedReplaceOf (same ▸ apart) fun known => ?_) fun r last => membersEndAfter same calm
  rw [same] at known ⊢
  rw [assigns desired read]
  ext user
  simp only [List.contains_eq_mem,decide_eq_true_eq,Set.mem_ofPred_eq]
  exact ⟨And.right,fun inside => ⟨known user inside,inside⟩⟩

theorem carriedAdd {value : Option Json} : Carried f (addMembers connection account ((given value).getD (.array [])))
    (MembersEnd f connection
      (unknownFailure connection server.directory (addedIds ((given value).getD (.array []))))
      ((MemberOperation.union (listedIds value)).apply (membersOfGroup connection server.directory account.accountId) ≠
        membersOfGroup connection server.directory account.accountId) server) server := by
  unfold addMembers
  apply carriedBind
  apply carriedList
  intro middle same calm
  apply carriedLift
  · intro failure failed
    have failed : addedIds ((given value).getD (.array [])) = .error failure := failed
    exact .inr ⟨by rw [failed]; rfl,same⟩
  intro ids read
  have read : addedIds ((given value).getD (.array [])) = .ok ids := read
  rw [read,← same]
  have existing : ∀ user ∈ (ScimService.members account (subjectsOf connection middle.directory)).map (·.accountId),
      (middle.directory.held connection.uid .subject user).isSome := by
    intro user inside
    obtain ⟨identity,stored,_⟩ := memberListed.mp inside
    simp [stored]
  have sameFailure : unknownFailure connection middle.directory (.ok ids) = unknownFailure connection middle.directory
      (.ok ((ScimService.members account (subjectsOf connection middle.directory)).map (·.accountId) ++ ids)) := by
    have nobody : ((ScimService.members account (subjectsOf connection middle.directory)).map (·.accountId)).find?
        (fun id => (middle.directory.held connection.uid .subject id).isNone) = none := by
      refine List.find?_eq_none.mpr fun user inside => ?_
      simpa using Option.isSome_iff_ne_none.mp (existing user inside)
    simp only [unknownFailure,List.find?_append,nobody,Option.none_or]
  rw [sameFailure]
  refine soundMono (carriedReplaceOf (same ▸ apart) fun known => ?_) fun r last => membersEndAfter same calm
  have listed : listedIds value = ids := by
    cases shape : (given value).getD (.array []) with
    | array added =>
        rw [shape] at read
        exact idsGiven (by rw [shape]; exact read)
    | _ => simp [shape,addedIds] at read
  ext user
  rw [listed]
  simp only [List.contains_eq_mem,decide_eq_true_eq,Set.mem_ofPred_eq,List.mem_append,memberListed,MemberOperation.apply]
  constructor
  · exact And.right
  · rintro (member | inside)
    · exact ⟨memberHeld member,.inl member⟩
    · exact ⟨known user (List.mem_append_right _ inside),.inr inside⟩

theorem carriedRemove {ids : List String} : Carried f (removeMembers connection account ids)
    (MembersEnd f connection none
      ((MemberOperation.takeOut ids).apply (membersOfGroup connection server.directory account.accountId) ≠
        membersOfGroup connection server.directory account.accountId) server) server := by
  unfold removeMembers
  apply carriedBind
  apply carriedList
  intro middle same calm
  rw [← same]
  have noFailure : unknownFailure connection middle.directory (.ok
      (((ScimService.members account (subjectsOf connection middle.directory)).map (·.accountId)).filter (· ∉ ids))) = none := by
    simp only [unknownFailure,Option.map_eq_none_iff]
    refine List.find?_eq_none.mpr fun user inside => ?_
    obtain ⟨identity,stored,_⟩ := memberListed.mp (List.mem_filter.mp inside).1
    simp [stored]
  rw [← noFailure]
  refine soundMono (carriedReplaceOf (same ▸ apart) fun known => ?_) fun r last => membersEndAfter same calm
  ext user
  simp only [List.contains_eq_mem,decide_eq_true_eq,Set.mem_ofPred_eq,List.mem_filter,memberListed,MemberOperation.apply]
  exact ⟨And.right,fun member => ⟨memberHeld member.1,member⟩⟩

end Moving

structure Framed (connection : ScimConnection) (id : String) (before after : ScimDirectory) : Prop where
  apart : Apart connection after
  active : ActiveGroup connection after id
  users : ∀ name, (after.held connection.uid .subject name).isSome = (before.held connection.uid .subject name).isSome

theorem framedTrans {middle : ScimDirectory} (first : Framed connection id before middle)
    (second : Framed connection id middle after) : Framed connection id before after :=
  ⟨second.apart,second.active,fun name => (second.users name).trans (first.users name)⟩

theorem framedLoosely (apart : Apart connection before) (active : ActiveGroup connection before id)
    (edits : Loosely connection group before after) : Framed connection id before after where
  apart := edits.apart apart
  active := editsActive edits active
  users name := by
    cases stored : before.held connection.uid .subject name with
    | none => simp [edits.others name stored]
    | some identity =>
        obtain ⟨edited,now,_⟩ := edits.edited name identity stored
        simp [now]

def HandEnd (f : ω → String) (connection : ScimConnection) (id : String) (failure : Option ScimFailure)
    (names writes : Prop) (server : ScimServer) : Except ScimFailure ScimResource → ScimServer → Prop
  | .ok account, last => failure = none ∧ Calm server last ∧ Effect f connection writes server.directory last.directory ∧
      Framed connection id server.directory last.directory ∧ account.accountId = id ∧ account.identity.isActive = true
  | .error e, last => (server.upcoming ≠ [] ∧ ¬ e.Client) ∨
      (failure = some e ∧ Effect f connection names server.directory last.directory)

theorem putGroupApart (apart : Apart connection directory) (present : (directory.held connection.uid .group id).isSome) :
    Apart connection (directory.put .group id ⟨connection.uid,identity⟩) := by
  intro name subject
  rw [heldPut,if_neg (by simp)] at subject
  rw [heldPut,if_neg]
  · exact apart name subject
  · rintro ⟨_,rfl⟩
    simp [apart id subject] at present

section Handing
variable {account : ScimResource} {writes : Prop} (apart : Apart connection server.directory)
  (here : ActiveGroup connection server.directory id)
include apart here

theorem framedHere : Framed connection id server.directory server.directory := ⟨apart,here,fun _ => rfl⟩

theorem carriedRename (active : account.identity.isActive = true) (displayName : String) :
    Carried f (renameGroup connection id account displayName) (fun r last =>
      HandEnd f connection id none True True server r last ∧
        ∀ name, last.directory.held connection.uid .subject name = server.directory.held connection.uid .subject name ∨
          ∃ e, r = .error e) server := by
  obtain ⟨old,stored,_⟩ := here
  unfold renameGroup
  apply carriedNow
  intro w
  refine soundMono (carriedUpdate apart (by simp [stored] : (server.directory.held connection.uid .group id).isSome))
    fun r last ends => ?_
  cases r with
  | error e => exact ⟨.inl ends,fun _ => .inr ⟨e,rfl⟩⟩
  | ok account =>
      obtain ⟨rfl,written,calm⟩ := ends
      let renamed : ScimIdentity := {account.identity with displayName := some displayName, lastModified := f w}
      have written : last.directory = server.directory.put .group id ⟨connection.uid,renamed⟩ := written
      have framed : Framed connection id server.directory last.directory := by
        rw [written]
        exact ⟨putGroupApart apart (by simp [stored]),⟨renamed,by simp,active⟩,fun name => by simp⟩
      have effect : Effect f connection True server.directory last.directory := by
        rw [written]
        exact ⟨fun _ => putStamped (w := w) rfl,fun never => absurd trivial never⟩
      exact ⟨⟨rfl,calm,effect,framed,rfl,active⟩,fun name => .inl (by simp [written])⟩

theorem carriedHand {p : Scim Unit} {failure : Option ScimFailure} {names : Prop} (named : account.accountId = id)
    (active : account.identity.isActive = true) (unnamed : ¬ names)
    (moves : Carried f p (MembersEnd f connection failure writes server) server)
    (loosely : Served p (fun _ last => Loosely connection group server.directory last.directory) server) :
    Carried f (p >>= fun _ => Program.pure account) (HandEnd f connection id failure names writes server) server := by
  apply carriedBind
  refine soundMono (soundAnd moves (carriedServed loosely)) fun r last both => ?_
  obtain ⟨ends,edits⟩ := both
  cases r with
  | ok done =>
      obtain ⟨none,calm,effect⟩ := ends
      exact carriedPure ⟨none,calm,effect,framedLoosely apart here edits,named,active⟩
  | error e =>
      exact ends.imp (fun lost => lost) fun both => ⟨both.1,fun names => absurd names unnamed,fun _ => both.2⟩

omit here

theorem replaceLoosely (members : Json) : Served (replaceMembers connection account members)
    (fun _ last => Loosely connection account.accountId server.directory last.directory) server := by
  apply replaceMembersEdits apart
  · exact fun e last edits => edits
  · exact fun last desired _ _ _ edits => assignedLoosely edits
  · exact fun last _ _ same => same ▸ .same fun _ _ => .inl rfl

theorem addLoosely (added : Json) : Served (addMembers connection account added)
    (fun _ last => Loosely connection account.accountId server.directory last.directory) server := by
  apply addMembersEdits apart
  · exact fun e last edits => edits
  · exact fun last _ _ _ _ _ _ _ _ edits => assignedLoosely edits
  · exact fun last _ _ same => same ▸ .same fun _ _ => .inl rfl

theorem removeLoosely (ids : List String) : Served (removeMembers connection account ids)
    (fun _ last => Loosely connection account.accountId server.directory last.directory) server := by
  apply removeMembersEdits apart
  · exact fun e last edits => edits
  · exact fun last _ _ _ edits => assignedLoosely edits
  · exact fun last _ same => same ▸ .same fun _ _ => .inl rfl

end Handing

section Refusals
variable (connection : ScimConnection) (directory : ScimDirectory)

def valueRefusal (value : Object) : Option ScimFailure := match value.get "members" with
  | some listed => unknownFailure connection directory (memberIds (items ((given (some listed)).getD (.array []))))
  | none => none

def pathRefusal (operation : Object) (op : String) (path : Option String) : Option ScimFailure :=
  let value := (given (operation.get "value")).getD (.array [])
  let asked := textOf (operation.get "path")
  match path.map String.toLower with
  | some "displayname" =>
      if op = "remove" then some (.scim 400 "displayName cannot be removed" (some "mutability")) else none
  | some "members" =>
      if op = "replace" then unknownFailure connection directory (memberIds (items value))
      else if op = "add" then unknownFailure connection directory (addedIds value)
      else none
  | _ => if op = "remove" ∧ (path.bind memberFilter).isSome then none
      else some (.scim 400 s!"Unsupported Group PATCH path {asked}" (some "invalidPath"))

def refusal (operation : Json) : Option ScimFailure := match properties operation with
  | .error failure => some failure
  | .ok fields => match operator fields with
      | .error failure => some failure
      | .ok op => match isTruthyOr (Object.get fields "path"), objectValue fields with
          | false, some value =>
              if (value.get "displayName").isNone && (value.get "members").isNone then
                some (.scim 400 "Unsupported Group PATCH value" (some "invalidValue"))
              else valueRefusal connection directory value
          | _, _ => match pathText fields with
              | .error failure => some failure
              | .ok path => pathRefusal connection directory fields op path

def Changes (id : String) (operation : Json) : Prop :=
  namesGiven operation ≠ [] ∨ (memberPatch operation).performed.apply (membersOfGroup connection directory id) ≠
    membersOfGroup connection directory id

end Refusals

theorem unknownFramed (users : ∀ name, (after.held connection.uid .subject name).isSome =
    (before.held connection.uid .subject name).isSome) (ids : Except ScimFailure (List String)) :
    unknownFailure connection after ids = unknownFailure connection before ids := by
  cases ids with
  | error failure => rfl
  | ok ids =>
      have same (name : String) : (after.held connection.uid .subject name).isNone =
          (before.held connection.uid .subject name).isNone := by
        rw [← Option.not_isSome,← Option.not_isSome,users]
      simp only [unknownFailure,same]

theorem refusalFramed (users : ∀ name, (after.held connection.uid .subject name).isSome =
    (before.held connection.uid .subject name).isSome) (operation : Json) :
    refusal connection after operation = refusal connection before operation := by
  simp only [refusal,valueRefusal,pathRefusal,unknownFramed users]

section Operations
variable {account : ScimResource} {failure : Option ScimFailure} {names writes : Prop}
  (apart : Apart connection server.directory) (here : ActiveGroup connection server.directory id)
  (named : account.accountId = id) (active : account.identity.isActive = true)

theorem handAfter {middle last : ScimServer} {r : Except ScimFailure ScimResource}
    (first : HandEnd f connection id none True True server (.ok account) middle)
    (second : HandEnd f connection id failure names writes middle r last) :
    HandEnd f connection id failure True True server r last := by
  obtain ⟨-,calm,effect,framed,-,-⟩ := first
  have stamped := effect.written trivial
  have kept {changes : Prop} (effect : Effect f connection changes middle.directory last.directory) :
      Effect f connection True server.directory last.directory := by
    refine ⟨fun _ => ?_,fun never => absurd trivial never⟩
    by_cases changed : changes
    · exact effect.written changed
    · exact effect.kept changed ▸ stamped
  cases r with
  | ok account =>
      obtain ⟨none,calm',effect',framed',named,active⟩ := second
      exact ⟨none,calmTrans calm calm',kept effect',framedTrans framed framed',named,active⟩
  | error e => exact second.imp (fun lost => ⟨fun empty => lost.1 (calm empty),lost.2⟩) fun both => ⟨both.1,kept both.2⟩

theorem handWeaken {r : Except ScimFailure ScimResource} {last : ScimServer} (names' writes' : Prop)
    (ends : HandEnd f connection id failure names writes server r last) (name : names ↔ names') (write : writes ↔ writes') :
    HandEnd f connection id failure names' writes' server r last := by
  rw [← propext name,← propext write]
  exact ends

include apart here named active

theorem carriedValue (op : String) (value : Object) : Carried f (patchGroupValue connection id account value)
    (HandEnd f connection id (valueRefusal connection server.directory value) ((value.get "displayName").isSome = true)
      ((value.get "displayName").isSome = true ∨ (valuePatch op value).performed.apply
        (membersOfGroup connection server.directory id) ≠ membersOfGroup connection server.directory id) server) server := by
  -- the members of an account that stands for the group, from a directory with the same users and members
  have members {account : ScimResource} {server : ScimServer} (apart : Apart connection server.directory)
      (here : ActiveGroup connection server.directory id) (named : account.accountId = id)
      (active : account.identity.isActive = true) : Carried f (match value.get "members" with
        | some listed => do
            replaceMembers connection account ((given (some listed)).getD (.array []))
            .pure account
        | none => .pure account)
      (HandEnd f connection id (valueRefusal connection server.directory value) False
        ((valuePatch op value).performed.apply (membersOfGroup connection server.directory id) ≠
          membersOfGroup connection server.directory id) server) server := by
    subst named
    unfold valueRefusal valuePatch
    cases value.get "members" with
    | none => exact carriedPure ⟨rfl,id,⟨fun changes => absurd rfl changes,fun _ => rfl⟩,framedHere apart here,rfl,active⟩
    | some listed =>
        refine carriedHand apart here rfl active id (carriedReplace apart fun desired read => ?_)
          (replaceLoosely apart _)
        rw [← idsGiven read]
        rfl
  unfold patchGroupValue patchGroupName
  cases value.get "displayName" with
  | none =>
      refine soundMono (members apart here named active) fun r last ends => handWeaken _ _ ends ?_ ?_
      · simp
      · simp
  | some displayName =>
      apply carriedBind
      refine soundMono (carriedRename apart here active _) fun r middle both => ?_
      obtain ⟨first,subjects⟩ := both
      cases r with
      | error e => exact first.elim .inl fun failed => by cases failed.1
      | ok renamed =>
          have subjects : ∀ name, middle.directory.held connection.uid .subject name =
              server.directory.held connection.uid .subject name :=
            fun name => (subjects name).resolve_right fun ⟨e,failed⟩ => by cases failed
          have sameMembers : membersOfGroup connection middle.directory id = membersOfGroup connection server.directory id := by
            simp only [membersOfGroup,subjects]
          have sameRefusal : valueRefusal connection middle.directory value = valueRefusal connection server.directory value := by
            unfold valueRefusal
            split
            · exact unknownFramed (fun name => by rw [subjects]) _
            · rfl
          have renames := first
          obtain ⟨-,-,-,framed,named,active⟩ := first
          refine soundMono (members framed.apart framed.active named active) fun r last ends => ?_
          rw [sameMembers,sameRefusal] at ends
          exact handWeaken _ _ (handAfter renames ends) (by simp) (by simp)

theorem carriedPath (operation : Object) (op : String) (path : Option String) :
    Carried f (patchGroupPath connection id account operation op path)
      (HandEnd f connection id (pathRefusal connection server.directory operation op path)
        (path.map String.toLower = some "displayname" ∧ op ≠ "remove")
        ((path.map String.toLower = some "displayname" ∧ op ≠ "remove") ∨
          (pathPatch operation op path).performed.apply (membersOfGroup connection server.directory id) ≠
            membersOfGroup connection server.directory id) server) server := by
  unfold patchGroupPath pathRefusal
  simp only
  split
  · rename_i lower
    simp only [pathPatch,lower]
    by_cases removes : op = "remove"
    · simp only [removes,if_true]
      exact carriedThrow (.inr ⟨rfl,fun names => absurd rfl names.2,fun _ => rfl⟩)
    · simp only [removes,if_false]
      refine soundMono (carriedRename apart here active _) fun r last both => ?_
      exact handWeaken _ _ both.1 (by simp [removes]) (by simp [removes])
  · rename_i lower
    simp only [pathPatch,lower]
    subst named
    have unnamed : ¬ ((some "members" : Option String) = some "displayname" ∧ op ≠ "remove") := by
      rintro ⟨same,_⟩
      exact absurd (Option.some.inj same) (by decide)
    have weaken {failure : Option ScimFailure} {writes : Prop} {r : Except ScimFailure ScimResource} {last : ScimServer}
        (ends : HandEnd f connection account.accountId failure False writes server r last) :=
      handWeaken ((some "members" : Option String) = some "displayname" ∧ op ≠ "remove")
        (((some "members" : Option String) = some "displayname" ∧ op ≠ "remove") ∨ writes) ends
        (iff_of_false id unnamed) (or_iff_right unnamed).symm
    unfold patchMembers MemberPatch.performed
    by_cases replaces : op = "replace"
    · simp only [replaces,if_true]
      subst replaces
      refine soundMono (carriedHand apart here rfl active id (carriedReplace apart fun desired read => ?_)
        (replaceLoosely apart _)) fun r last => weaken
      rw [← idsGiven read]
      rfl
    · simp only [replaces,if_false]
      by_cases adds : op = "add"
      · simp only [adds,if_true]
        subst adds
        exact soundMono (carriedHand apart here rfl active id (carriedAdd apart) (addLoosely apart _)) fun r last => weaken
      · simp only [adds,if_false]
        have nobody : unknownFailure connection server.directory (memberIds (items (.array []))) = none := rfl
        rw [← nobody]
        refine soundMono (carriedHand apart here rfl active id (carriedReplace apart fun desired read => ?_)
          (replaceLoosely apart _)) fun r last => weaken
        cases read
        simp [MemberOperation.apply]
  · rename_i notName notMembers
    have shape : pathPatch operation op path = (path.bind memberFilter).elim .other .filtered := by
      unfold pathPatch
      split
      · exact absurd (by assumption) notName
      · exact absurd (by assumption) notMembers
      · cases path.bind memberFilter <;> rfl
    rw [shape]
    have unnamed : ¬ (path.map String.toLower = some "displayname" ∧ op ≠ "remove") := fun both => notName both.1
    cases filtered : path.bind memberFilter with
    | none =>
        simp only [Option.isSome_none,Bool.false_eq_true,and_false,if_false,Option.elim_none]
        exact carriedThrow (.inr ⟨rfl,fun names => absurd names unnamed,fun _ => rfl⟩)
    | some member =>
        by_cases removes : op = "remove"
        · simp only [removes,Option.isSome_some,and_self,if_true,Option.elim_some]
          subst named removes
          refine soundMono (carriedHand apart here rfl active id (carriedRemove apart) (removeLoosely apart _))
            fun r last ends => handWeaken _ _ ends (iff_of_false id unnamed) (or_iff_right unnamed).symm
        · simp only [removes,false_and,if_false,Option.elim_some]
          exact carriedThrow (.inr ⟨rfl,fun names => absurd names unnamed,fun _ => rfl⟩)

theorem carriedOperation (operation : Json) : Carried f (patchGroupOperation connection id account operation)
    (HandEnd f connection id (refusal connection server.directory operation) (namesGiven operation ≠ [])
      (Changes connection server.directory id operation) server) server := by
  obtain ⟨missing,operatorless⟩ := operatorMissing
  unfold patchGroupOperation refusal Changes
  have thrown {failure : ScimFailure} {writes : Prop} : Carried f (Program.throw failure : Scim ScimResource)
      (HandEnd f connection id (some failure) False writes server) server :=
    carriedThrow (.inr ⟨rfl,False.elim,fun _ => rfl⟩)
  cases operation with
  | object fields =>
      simp only [properties,liftScim,pureBind,memberPatch,namesGiven]
      cases operator fields with
      | error e => exact soundMono thrown fun r last ends => handWeaken _ _ ends (by simp) Iff.rfl
      | ok op =>
          simp only [pureBind]
          have byPath : Carried f (liftScim (pathText fields) >>= fun path => patchGroupPath connection id account fields op path)
              (HandEnd f connection id (match pathText fields with
                  | .error failure => some failure
                  | .ok path => pathRefusal connection server.directory fields op path)
                ((match pathText fields with
                  | .error _ => []
                  | .ok path => if path.map String.toLower = some "displayname" ∧ op ≠ "remove" then
                      [textOf (Object.get fields "value")] else []) ≠ [])
                ((match pathText fields with
                  | .error _ => []
                  | .ok path => if path.map String.toLower = some "displayname" ∧ op ≠ "remove" then
                      [textOf (Object.get fields "value")] else []) ≠ [] ∨
                  (match pathText fields with
                    | .error _ => MemberPatch.other
                    | .ok path => pathPatch fields op path).performed.apply (membersOfGroup connection server.directory id) ≠
                      membersOfGroup connection server.directory id) server) server := by
            cases pathText fields with
            | error e => exact soundMono thrown fun r last ends => handWeaken _ _ ends (by simp) Iff.rfl
            | ok path =>
                have given : (if path.map String.toLower = some "displayname" ∧ op ≠ "remove" then
                    [textOf (Object.get fields "value")] else []) ≠ [] ↔
                      (path.map String.toLower = some "displayname" ∧ op ≠ "remove") := by
                  split
                  · exact iff_of_true (by simp) (by assumption)
                  · exact iff_of_false (by simp) (by assumption)
                refine soundMono (carriedPath apart here named active fields op path) fun r last ends => ?_
                exact handWeaken _ _ ends given.symm (or_congr_left given).symm
          cases isTruthyOr (Object.get fields "path") with
          | true => exact byPath
          | false =>
              cases objectValue fields with
              | none => exact byPath
              | some value =>
                  have given : (match value.get "displayName" with
                      | some displayName => [textOf (some displayName)]
                      | none => []) ≠ [] ↔ (value.get "displayName").isSome = true := by
                    cases value.get "displayName" <;> simp
                  simp only
                  split
                  · rename_i nothing
                    simp only [Bool.and_eq_true,Option.isNone_iff_eq_none] at nothing
                    refine soundMono thrown fun r last ends => handWeaken _ _ ends ?_ Iff.rfl
                    simp [nothing.1]
                  · refine soundMono (carriedValue apart here named active op value) fun r last ends => ?_
                    exact handWeaken _ _ ends given.symm (or_congr_left given).symm
  | null => exact soundMono thrown fun r last ends => handWeaken _ _ ends (by simp [namesGiven]) Iff.rfl
  | _ =>
      simp only [properties,liftScim,pureBind,operatorless]
      exact soundMono thrown fun r last ends => handWeaken _ _ ends (by simp [namesGiven]) Iff.rfl

end Operations

def firstRefusal (connection : ScimConnection) (directory : ScimDirectory) : List Json → Option ScimFailure
  | [] => none
  | operation :: rest => match refusal connection directory operation with
      | some failure => some failure
      | none => firstRefusal connection directory rest

def ChangesFirst (connection : ScimConnection) (directory : ScimDirectory) (id : String) : List Json → Prop
  | [] => False
  | operation :: rest => match refusal connection directory operation with
      | some _ => namesGiven operation ≠ []
      | none => Changes connection directory id operation ∨ ChangesFirst connection directory id rest

theorem firstRefusalFramed (users : ∀ name, (after.held connection.uid .subject name).isSome =
    (before.held connection.uid .subject name).isSome) (operations : List Json) :
    firstRefusal connection after operations = firstRefusal connection before operations := by
  induction operations with
  | nil => rfl
  | cons operation rest ih => simp only [firstRefusal,refusalFramed users,ih]

theorem carriedOperations {account : ScimResource} {operations : List Json} (apart : Apart connection server.directory)
    (here : ActiveGroup connection server.directory id) (named : account.accountId = id)
    (active : account.identity.isActive = true) : Carried f (patchGroupOperations connection id account operations)
      (HandEnd f connection id (firstRefusal connection server.directory operations)
        (ChangesFirst connection server.directory id operations)
        (∃ operation ∈ operations, Changes connection server.directory id operation) server) server := by
  induction operations generalizing account server with
  | nil => exact carriedPure ⟨rfl,fun empty => empty,⟨fun ⟨_,inside,_⟩ => absurd inside List.not_mem_nil,fun _ => rfl⟩,
      framedHere apart here,named,active⟩
  | cons operation rest ih =>
      have later : (∃ other ∈ operation :: rest, Changes connection server.directory id other) ↔
          Changes connection server.directory id operation ∨ ∃ other ∈ rest, Changes connection server.directory id other := by
        simp
      rw [later]
      unfold patchGroupOperations firstRefusal ChangesFirst
      apply carriedBind
      refine soundMono (carriedOperation apart here named active operation) fun r middle ends => ?_
      cases r with
      | error e =>
          refine ends.imp (fun lost => lost) fun both => ?_
          rw [both.1]
          exact ⟨rfl,both.2⟩
      | ok account =>
          have first := ends
          obtain ⟨none,calm,effect,framed,named,active⟩ := ends
          rw [none]
          dsimp only
          by_cases changes : Changes connection server.directory id operation
          · have changed : HandEnd f connection id Option.none True True server (.ok account) middle :=
              ⟨rfl,calm,⟨fun _ => effect.written changes,fun never => absurd trivial never⟩,framed,named,active⟩
            refine soundMono (ih framed.apart framed.active named active) fun r last ends => ?_
            rw [firstRefusalFramed framed.users] at ends
            exact handWeaken _ _ (handAfter changed ends) (by simp [changes]) (by simp [changes])
          · have same := effect.kept changes
            refine soundMono (ih framed.apart framed.active named active) fun r last ends => ?_
            rw [same] at ends
            refine handWeaken _ _ (?_ : HandEnd f connection id _ _ _ server r last) (or_iff_right changes).symm
              (or_iff_right changes).symm
            cases r with
            | ok handed =>
                obtain ⟨failure,calm',effect',framed',named,active⟩ := ends
                exact ⟨failure,calmTrans calm calm',⟨effect'.written,fun kept => (effect'.kept kept).trans same⟩,
                  framedTrans framed framed',named,active⟩
            | error e =>
                exact ends.imp (fun lost => ⟨fun empty => lost.1 (calm empty),lost.2⟩) fun both =>
                  ⟨both.1,both.2.written,fun kept => (both.2.kept kept).trans same⟩

def RequestEnd (f : ω → String) (connection : ScimConnection) (failure : Option ScimFailure) (writes : Prop)
    (server : ScimServer) {α : Type} : Except ScimFailure α → ScimServer → Prop
  | .ok _, _ => failure = none
  | .error e, last => (server.upcoming ≠ [] ∧ ¬ e.Client) ∨
      (failure = some e ∧ Effect f connection writes server.directory last.directory)

section Groups
variable {fields : Object} {displayName : String} (apart : Apart connection server.directory)
include apart

theorem carriedFindGroup : Carried f (findGroup connection id) (fun r last => last.directory = server.directory ∧
    Calm server last ∧ match r with
      | .ok account => account.accountId = id ∧ Live connection server.directory account
      | .error _ => ¬ ActiveGroup connection server.directory id) server := by
  unfold findGroup
  apply carriedBind
  apply carriedFind
  intro last same calm
  dsimp only
  cases sought : (holding connection server.directory id).filter (fun account => account.kind = .group && account.identity.isActive) with
  | none =>
      refine carriedThrow ⟨same,calm,fun ⟨identity,stored,active⟩ => ?_⟩
      rw [holdingStored apart stored] at sought
      simp [active] at sought
  | some account =>
      obtain ⟨found,live⟩ := Option.filter_eq_some_iff.mp sought
      simp only [Bool.and_eq_true,decide_eq_true_eq] at live
      obtain ⟨named,holds⟩ := holdingOwn found
      exact carriedPure ⟨same,calm,named,live.1,live.2,holds⟩

theorem carriedShown (here : ActiveGroup connection server.directory id) :
    Carried f (findGroup connection id >>= groupResource connection) (fun r last =>
      last.directory = server.directory ∧ ∃ shown, r = .ok shown) server := by
  apply carriedBind
  refine soundMono (carriedFindGroup apart) fun r middle both => ?_
  obtain ⟨same,-,found⟩ := both
  cases r with
  | error e => exact absurd here found
  | ok account =>
      unfold groupResource
      apply carriedBind
      apply carriedList
      exact fun last same' _ => carriedPure ⟨same'.trans same,_,rfl⟩

theorem carriedPatchGroup {operations : Option Json} {listed : List Json} (here : ActiveGroup connection server.directory id)
    (read : iterated operations = .ok listed) : Carried f (patchGroup connection id operations)
      (RequestEnd f connection (firstRefusal connection server.directory listed)
        (ChangesFirst connection server.directory id listed) server) server := by
  unfold patchGroup
  apply carriedBind
  refine soundMono (carriedFindGroup apart) fun r middle both => ?_
  obtain ⟨same,calm,found⟩ := both
  cases r with
  | error e => exact absurd here found
  | ok account =>
      obtain ⟨named,live⟩ := found
      simp only [read,liftScim,pureBind]
      apply carriedBind
      rw [← same] at apart here ⊢
      refine soundMono (carriedOperations apart here named live.active) fun r last ends => ?_
      cases r with
      | error e =>
          refine ends.imp (fun lost => ⟨fun empty => lost.1 (calm empty),lost.2⟩) fun both => ⟨both.1,both.2.written,?_⟩
          exact fun kept => (both.2.kept kept).trans same
      | ok handed =>
          obtain ⟨none,-,-,framed,-,-⟩ := ends
          refine soundMono (carriedShown framed.apart framed.active) fun r final shown => ?_
          obtain ⟨-,_,rfl⟩ := shown
          exact none

theorem carriedMembersShown {account : ScimResource} {members : Json} (here : ActiveGroup connection server.directory id)
    {start : ScimServer} (stamped : Stamped f connection server.directory) (calm : Calm start server)
    (users : ∀ name, (server.directory.held connection.uid .subject name).isSome =
      (start.directory.held connection.uid .subject name).isSome) : Carried f (do
      replaceMembers connection account members
      groupResource connection (← findGroup connection id))
    (RequestEnd f connection (unknownFailure connection start.directory (memberIds (items members))) True start) server := by
  rw [← unknownFramed users]
  apply carriedBind
  cases ids : memberIds (items members) with
  | error failure =>
      unfold replaceMembers
      rw [ids]
      exact carriedThrow (.inr ⟨rfl,fun _ => stamped,fun never => absurd trivial never⟩)
  | ok desired =>
      have replaced : Carried f (replaceMembers connection account members) (MembersEnd f connection
          (unknownFailure connection server.directory (memberIds (items members)))
          ((MemberOperation.assign desired).apply (membersOfGroup connection server.directory account.accountId) ≠
            membersOfGroup connection server.directory account.accountId) server) server :=
        carriedReplace apart fun _ read => by
          cases Except.ok.inj (ids.symm.trans read)
          rfl
      refine soundMono (soundAnd replaced (carriedServed (replaceLoosely apart members))) fun r last both => ?_
      obtain ⟨ends,edits⟩ := both
      cases r with
      | error e =>
          refine ends.imp (fun lost => ⟨fun empty => lost.1 (calm empty),lost.2⟩) fun both => ⟨ids ▸ both.1,fun _ => ?_,
            fun never => absurd trivial never⟩
          exact both.2 ▸ stamped
      | ok done =>
          obtain ⟨none,-,-⟩ := ends
          have framed := framedLoosely apart here edits
          refine soundMono (carriedShown framed.apart framed.active) fun r final shown => ?_
          obtain ⟨-,_,rfl⟩ := shown
          exact ids ▸ none

theorem carriedReplaceGroup {resource : Json} (here : ActiveGroup connection server.directory id)
    (read : required "displayName" resource = .ok (fields,displayName)) :
    Carried f (replaceGroup connection id resource) (RequestEnd f connection
      (unknownFailure connection server.directory (memberIds (items (membersOf fields)))) True server) server := by
  unfold replaceGroup
  apply carriedBind
  refine soundMono (carriedFindGroup apart) fun r middle both => ?_
  obtain ⟨same,calm,found⟩ := both
  cases r with
  | error e => exact absurd here found
  | ok account =>
      obtain ⟨named,live⟩ := found
      simp only [read,liftScim,pureBind]
      rw [← same] at apart here
      apply carriedNow
      intro w
      apply carriedBind
      obtain ⟨old,stored,_⟩ := here
      refine soundMono (carriedUpdate apart (by simp [stored] : (middle.directory.held connection.uid .group id).isSome))
        fun r last ends => ?_
      cases r with
      | error e => exact .inl ⟨fun empty => ends.1 (calm empty),ends.2⟩
      | ok updated =>
          obtain ⟨-,written,calm'⟩ := ends
          let replaced : ScimIdentity := {account.identity with
            displayName := some displayName
            externalId := given (Object.get fields "externalId") <|> account.identity.externalId
            lastModified := f w}
          have written : last.directory = middle.directory.put .group id ⟨connection.uid,replaced⟩ := written
          have apart' : Apart connection last.directory := written ▸ putGroupApart apart (by simp [stored])
          have here' : ActiveGroup connection last.directory id := ⟨replaced,by simp [written],live.active⟩
          have stamped : Stamped f connection last.directory := written ▸ putStamped (w := w) rfl
          exact carriedMembersShown apart' here' stamped (calmTrans calm calm') fun name => by simp [written,same]

end Groups
end Carrying

def Mild {α : Type} (p : Scim α) : Prop := ∀ server, Served p (fun r _ => ∀ e, r = .error e → ¬ e.Client) server

section Mildness
variable {α β : Type} {connection : ScimConnection} {id group : String} {kind : ScimKind} {identity : ScimIdentity}

theorem mildPure {a : α} : Mild (.pure a : Scim α) := fun _ => servedPure.mpr fun _ failed => by cases failed

theorem mildOther {message : String} : Mild (.throw (.other message) : Scim α) := by
  refine fun server => servedThrow.mpr fun e same => ?_
  cases Except.error.inj same
  exact otherClient

theorem mildBind {p : Scim α} {next : α → Scim β} (first : Mild p) (rest : ∀ a, Mild (next a)) : Mild (p >>= next) := by
  intro server
  apply servedBind
  refine soundMono (first server) fun r after errors => ?_
  cases r with
  | ok a => exact rest a after
  | error e => exact fun e' same => errors e' (by rw [Except.error.inj same])

theorem mildAsk {c : ScimCall} : Mild (ask (I := scim) c) := by
  intro server
  have asked : Served (ask (I := scim) c >>= .pure) (fun r _ => ∀ e, r = .error e → ¬ e.Client) server :=
    servedAsk.mpr fun time => mildPure _
  exact asked

theorem mildFind : Mild (ScimDirectoryService.findUser connection id) := by
  refine mildBind mildAsk fun subject => ?_
  split
  · exact mildPure
  · exact mildBind mildAsk fun _ => mildPure

theorem mildOnChange {resource : ScimResource} : Mild (ScimDirectoryService.onChange resource) := by
  refine mildBind mildAsk fun projected => ?_
  cases projected with
  | true => exact mildPure
  | false => exact mildOther

theorem mildUpdate : Mild (ScimDirectoryService.updateUserSpecs connection id identity) := by
  refine mildBind mildFind fun found => ?_
  cases found with
  | none => exact mildOther
  | some resource =>
      refine mildBind mildAsk fun updated => ?_
      split
      · exact mildOther
      · exact mildBind mildOnChange fun _ => mildPure

theorem mildCreate : Mild (ScimDirectoryService.createProvisionedUser connection id kind identity) := by
  refine mildBind mildAsk fun created => ?_
  split
  · exact mildPure
  · exact mildBind mildOnChange fun _ => mildPure

theorem mildMove {desired : List String} {users : List ScimResource} : Mild (moveMembers connection group desired users) := by
  induction users with
  | nil => exact mildPure
  | cons user rest ih =>
      unfold moveMembers
      split
      · exact ih
      · exact mildBind mildAsk fun _ => mildBind mildUpdate fun _ => ih

theorem mildList : Mild (listUsers connection) :=
  mildBind (mildBind (mildBind mildAsk fun _ => mildPure) fun _ =>
    mildBind (mildBind mildAsk fun _ => mildPure) fun _ => mildPure) fun _ => mildPure

theorem mildClear {account : ScimResource} : Mild (replaceMembers connection account (.array [])) := by
  have same : replaceMembers connection account (.array []) = (listUsers connection >>= fun users =>
      moveMembers connection account.accountId [] users) := rfl
  rw [same]
  exact mildBind mildList fun _ => mildMove

end Mildness

section Requests
variable {digest : String → String} {connection : ScimConnection} {server : ScimServer} {id : String} {α β : Type}

abbrev Refuses (start : ScimDirectory) (p : Scim α) (server : ScimServer) : Prop :=
  Served p (fun r last => ∀ e, r = .error e → e.Client → last.directory = start) server

theorem refusesMild {start : ScimDirectory} {p : Scim α} (mild : Mild p) : Refuses start p server :=
  soundMono (mild server) fun _ _ errors e failed client => absurd client (errors e failed)

theorem refusesRead {start : ScimDirectory} {p : Scim α} {next : α → Scim β}
    (reads : Served p (fun _ last => last.directory = start) server)
    (rest : ∀ a after, after.directory = start → Refuses start (next a) after) : Refuses start (p >>= next) server := by
  apply servedBind
  refine soundMono reads fun r after same => ?_
  cases r with
  | ok a => exact rest a after same
  | error e => exact fun _ _ _ => same

theorem liftReads {start : ScimDirectory} {outcome : Except ScimFailure α} (same : server.directory = start) :
    Served (liftScim outcome) (fun _ last => last.directory = start) server := by
  cases outcome with
  | ok value => exact servedPure.mpr same
  | error failure => exact servedThrow.mpr same

theorem nowReads {start : ScimDirectory} (same : server.directory = start) :
    Served ScimService.now (fun _ last => last.directory = start) server := by
  have asked : Served (ScimService.now >>= .pure) (fun _ last => last.directory = start) server :=
    servedNow fun time => servedPure.mpr same
  exact asked

theorem findUserSame {start : ScimDirectory} (same : server.directory = start) :
    Served (ScimService.findUser connection id) (fun _ last => last.directory = start) server :=
  serviceFindUserReads (fun _ _ unchanged => unchanged.directory.trans same) fun _ _ unchanged _ _ _ =>
    unchanged.directory.trans same

theorem findGroupSame {start : ScimDirectory} (same : server.directory = start) :
    Served (findGroup connection id) (fun _ last => last.directory = start) server :=
  findGroupReads (fun _ _ unchanged => unchanged.directory.trans same) fun _ _ unchanged _ _ => unchanged.directory.trans same

theorem replaceUserRefuses (resource : Json) : Refuses server.directory (replaceUser connection id resource) server := by
  refine refusesRead (findUserSame rfl) fun account after same => ?_
  refine refusesRead (liftReads same) fun fields after same => ?_
  exact refusesMild (mildBind (mildBind mildAsk fun _ => mildPure) fun _ => mildUpdate)

theorem patchUserRefuses (operations : Option Json) :
    Refuses server.directory (ScimService.patchUser connection id operations) server := by
  refine refusesRead (findUserSame rfl) fun account after same => ?_
  refine refusesRead (liftReads same) fun listed after same => ?_
  refine refusesRead (liftReads same) fun identity after same => ?_
  exact refusesMild (mildBind mildAsk fun _ => mildUpdate)

theorem deleteGroupRefuses : Refuses server.directory (deleteGroup connection id) server := by
  refine refusesRead (findGroupSame rfl) fun account after same => ?_
  exact refusesMild (mildBind mildClear fun _ => mildBind mildAsk fun _ => mildBind mildUpdate fun _ => mildPure)

theorem createRefuses {name : String} {kind : ScimKind} {identity : ScimIdentity} {next : ScimResource → Scim β}
    {conflict : ScimFailure} {start : ScimDirectory} (same : server.directory = start)
    (rest : ∀ created, Mild (next created)) : Refuses start (do
      match ← ScimDirectoryService.createProvisionedUser connection name kind identity with
      | none => .throw conflict
      | some created => next created) server := by
  have kept : Served (ScimDirectoryService.createProvisionedUser connection name kind identity)
      (fun r last => r = .ok none → last.directory = start) server := by
    apply createProvisionedUserWrites
    · exact fun after unchanged _ => unchanged.directory.trans same
    · exact fun after _ _ _ => ⟨fun made => by simp at made,fun e made => by simp at made⟩
  apply servedBind
  refine soundMono (soundAnd kept (mildCreate server)) fun r after both => ?_
  cases r with
  | error e => exact fun e' failed client => absurd client (both.2 e' (by rw [Except.error.inj failed]))
  | ok made =>
      cases made with
      | none => exact servedThrow.mpr fun _ _ _ => both.1 rfl
      | some created => exact refusesMild (rest created)

theorem createUserRefuses (resource : Json) : Refuses server.directory (createUser digest connection resource) server := by
  refine refusesRead (liftReads rfl) fun fields after same => ?_
  have listed : Served (listUsers connection) (fun _ last => last.directory = server.directory) after :=
    listUsersReads fun users last listed => (listedSame listed).trans same
  refine refusesRead listed fun users after same => ?_
  apply servedIf
  · exact fun _ => servedThrow.mpr fun _ _ _ => same
  intro _
  refine refusesRead (nowReads same) fun createdAt after same => ?_
  have asked : Served (userIdentity fields.1 fields.2 (some (.string (externalIdOf fields.1 fields.2))) createdAt [])
      (fun _ last => last.directory = server.directory) after := servedNow fun time => servedPure.mpr same
  refine refusesRead asked fun identity after same => ?_
  exact createRefuses same fun created => mildPure

end Requests

section Creation
variable {ω : Type} {f : ω → String} {digest : String → String} {connection : ScimConnection} {server : ScimServer}
  {directory : ScimDirectory} {id : String}

structure Creates (digest : String → String) (connection : ScimConnection) (directory : ScimDirectory) (fields : Object)
    (displayName : String) : Prop where
  known : KnownMembers connection directory fields
  free : ¬ Taken connection directory .group none ⟨some displayName,some (.string (externalIdOf fields displayName))⟩
  available : directory.held connection.uid .group
      (resourceId digest "g" connection.uid (externalIdOf fields displayName)) = none →
    directory.find .group (resourceId digest "g" connection.uid (externalIdOf fields displayName)) = none

def CreateEnd (f : ω → String) (connection : ScimConnection) (creates : Prop) (failure : Option ScimFailure)
    (server : ScimServer) {α : Type} (r : Except ScimFailure α) (last : ScimServer) : Prop :=
  (last.directory = server.directory ∧ (∃ e, r = .error e) ∧ (creates → server.upcoming ≠ [])) ∨
    (creates ∧ RequestEnd f connection failure True server r last)

theorem carriedKnownMembers (fields : Object) : Carried f (knownMembers connection fields) (fun r last =>
    last.directory = server.directory ∧ Calm server last ∧
      (KnownMembers connection server.directory fields ↔ r = .ok ())) server := by
  unfold knownMembers KnownMembers
  cases members : Object.get fields "members" with
  | none => exact carriedPure ⟨rfl,id,by simp⟩
  | some value =>
      cases value with
      | array listed =>
          simp only
          apply carriedBind
          apply carriedList
          intro last same calm
          have only {r : Except ScimFailure Unit} (here : unknownMember (subjectsOf connection server.directory) listed =
              .ok none ↔ r = .ok ()) : (∀ listed', some (Json.array listed) = some (.array listed') →
                unknownMember (subjectsOf connection server.directory) listed' = .ok none) ↔ r = .ok () := by
            rw [← here]
            simp
          apply carriedLift
          · exact fun failure found => ⟨same,calm,only (by simp [found])⟩
          intro unknown found
          cases unknown with
          | some unknown => exact carriedThrow ⟨same,calm,only (by simp [found])⟩
          | none => exact carriedPure ⟨same,calm,only (by simp [found])⟩
      | _ => exact carriedPure ⟨rfl,id,by simp⟩

theorem carriedProvision {kind : ScimKind} {identity : ScimIdentity} :
    Carried f (ScimDirectoryService.createProvisionedUser connection id kind identity) (fun r last => match r with
      | .ok none => last.directory = server.directory ∧
          (server.directory.find kind id = none → server.upcoming ≠ [])
      | .ok (some _) => server.directory.find kind id = none ∧
          last.directory = server.directory.put kind id ⟨connection.uid,identity⟩ ∧ Calm server last
      | .error e => server.directory.find kind id = none ∧ server.upcoming ≠ [] ∧ ¬ e.Client) server := by
  unfold ScimDirectoryService.createProvisionedUser
  apply carriedAsk
  intro _ w
  simp only [answerScim]
  by_cases answers : (server.answers && (server.directory.find kind id).isNone) = true
  · obtain ⟨answered,absent⟩ := Bool.and_eq_true_iff.mp answers
    have absent : server.directory.find kind id = none := Option.isNone_iff_eq_none.mp absent
    simp only [answers,if_true]
    unfold ScimDirectoryService.onChange
    apply carriedBind
    apply carriedAsk
    intro _ w
    simp only [answerScim]
    by_cases projected : ({server.next with
        directory := server.directory.put kind id ⟨connection.uid,identity⟩} : ScimServer).answers = true
    · simp only [projected,if_true]
      exact carriedPure (carriedPure ⟨absent,rfl,fun empty => by simp [ScimServer.next,empty]⟩)
    · simp only [projected]
      refine carriedThrow ⟨absent,fun empty => projected ?_,otherClient⟩
      simp [ScimServer.answers,ScimServer.next,empty]
  · simp only [answers]
    refine carriedPure ⟨rfl,fun absent empty => answers ?_⟩
    simp [ScimServer.answers,empty,absent]

theorem groupKind {account : ScimResource} {externalId : String} (named : Named connection directory)
    (holds : Holds connection directory account)
    (name : account.accountId = resourceId digest "g" connection.uid externalId) : account.kind = .group := by
  cases kind : account.kind with
  | group => rfl
  | subject =>
      have stored := kind ▸ holds.stored
      obtain ⟨rest,text⟩ := named.subjects account.accountId (by simp [stored])
      exact absurd (name.symm.trans text) (groupName _ _ rest)

theorem carriedCreateGroup (named : Named connection server.directory) {resource : Json} {fields : Object} {displayName : String}
    (read : required "displayName" resource = .ok (fields,displayName)) :
    Carried f (createGroup digest connection resource) (CreateEnd f connection
      (Creates digest connection server.directory fields displayName)
      (unknownFailure connection server.directory (memberIds (items (membersOf fields)))) server) server := by
  unfold createGroup
  simp only [read,liftScim,pureBind]
  apply carriedBind
  refine soundMono (carriedKnownMembers fields) fun r first both => ?_
  obtain ⟨same,calm,known⟩ := both
  cases r with
  | error e => exact .inl ⟨same,⟨e,rfl⟩,fun creates => by simpa using known.mp creates.known⟩
  | ok done =>
      have known : KnownMembers connection server.directory fields := known.mpr rfl
      apply carriedBind
      apply carriedListGroups
      intro second same' calm'
      rw [same] at same'
      replace calm := calmTrans calm calm'
      dsimp only
      split
      · rename_i borne
        refine carriedThrow (.inl ⟨same',⟨_,rfl⟩,fun creates => absurd (takenListed.mp ?_) creates.free⟩)
        rw [same] at borne
        exact borne
      rename_i free
      have free : ¬ Taken connection server.directory .group none
          ⟨some displayName,some (.string (externalIdOf fields displayName))⟩ := by
        rw [same] at free
        exact fun taken => free (takenListed.mpr taken)
      rw [← same'] at named
      apply carriedBind
      apply carriedFind
      intro third unchanged calm'
      have unchanged : third.directory = server.directory := unchanged.trans same'
      rw [same'] at named
      replace calm := calmTrans calm calm'
      -- the group is there, and its members are looked at
      have shown {identity : ScimIdentity} {after : ScimServer} {account : ScimResource}
          (creates : Creates digest connection server.directory fields displayName)
          (written : after.directory = third.directory.put .group
            (resourceId digest "g" connection.uid (externalIdOf fields displayName)) ⟨connection.uid,identity⟩)
          (calm' : Calm third after) (active : identity.isActive = true) (stamp : ∃ w, identity.lastModified = f w) :
          Apart connection after.directory ∧
          ActiveGroup connection after.directory (resourceId digest "g" connection.uid (externalIdOf fields displayName)) ∧
          Carried f (do
              replaceMembers connection account (membersOf fields)
              groupResource connection
                (← findGroup connection (resourceId digest "g" connection.uid (externalIdOf fields displayName))))
            (CreateEnd f connection (Creates digest connection server.directory fields displayName)
              (unknownFailure connection server.directory (memberIds (items (membersOf fields)))) server) after := by
        obtain ⟨w,stamp⟩ := stamp
        rw [unchanged] at written
        have apart : Apart connection after.directory := written ▸ namedApart (namedPut named ⟨_,rfl⟩)
        have here : ActiveGroup connection after.directory (resourceId digest "g" connection.uid (externalIdOf fields displayName)) :=
          ⟨identity,by simp [written],active⟩
        have users (user : String) : (after.directory.held connection.uid .subject user).isSome =
            (server.directory.held connection.uid .subject user).isSome := by simp [written]
        refine ⟨apart,here,soundMono (carriedMembersShown apart here (written ▸ putStamped stamp) (calmTrans calm calm') users)
          fun r last ends => .inr ⟨creates,ends⟩⟩
      cases found : holding connection second.directory (resourceId digest "g" connection.uid (externalIdOf fields displayName)) with
      | some tombstoned =>
          rw [same',← unchanged] at found
          rw [← unchanged] at named
          obtain ⟨name,holds⟩ := holdingOwn found
          have stored := groupKind named holds name ▸ holds.stored
          rw [name] at stored
          have creates : Creates digest connection server.directory fields displayName :=
            ⟨known,free,fun absent => by rw [← unchanged,stored] at absent; cases absent⟩
          apply carriedNow
          intro w
          apply carriedBind
          refine soundMono (carriedUpdate (namedApart named)
            (by simp [stored] : (third.directory.held connection.uid .group _).isSome)) fun r last ends => ?_
          cases r with
          | error e => exact .inr ⟨creates,.inl ⟨fun empty => ends.1 (calm empty),ends.2⟩⟩
          | ok updated => exact (shown creates ends.2.1 ends.2.2 rfl ⟨w,rfl⟩).2.2
      | none =>
          have absent : server.directory.held connection.uid .group
              (resourceId digest "g" connection.uid (externalIdOf fields displayName)) = none := by
            cases stored : server.directory.held connection.uid .group
                (resourceId digest "g" connection.uid (externalIdOf fields displayName)) with
            | none => rfl
            | some identity =>
                rw [same',holdingStored (namedApart named) stored] at found
                cases found
          apply carriedNow
          intro w
          apply carriedBind
          refine soundMono carriedProvision fun r last ends => ?_
          rw [unchanged] at ends
          cases r with
          | error e => exact .inr ⟨⟨known,free,fun _ => ends.1⟩,.inl ⟨fun empty => ends.2.1 (calm empty),ends.2.2⟩⟩
          | ok created =>
              cases created with
              | none =>
                  refine carriedThrow (.inl ⟨ends.1,⟨_,rfl⟩,fun creates empty => ?_⟩)
                  exact ends.2 (creates.available absent) (calm empty)
              | some created =>
                  have creates : Creates digest connection server.directory fields displayName := ⟨known,free,fun _ => ends.1⟩
                  obtain ⟨apart,here,rest⟩ := shown creates (unchanged ▸ ends.2.1) ends.2.2 rfl ⟨w,rfl⟩
                  dsimp only
                  split
                  · rename_i nobody
                    have none : unknownFailure connection server.directory (memberIds (items (membersOf fields))) = none := by
                      rw [List.isEmpty_iff.mp nobody]
                      rfl
                    refine soundMono (carriedShown apart here) fun r final shown => ?_
                    obtain ⟨-,_,rfl⟩ := shown
                    exact .inr ⟨creates,none⟩
                  · exact rest

end Creation

section Serving
variable (digest : String → String) (connection : ScimConnection) (server : ScimServer) (event : TenantEvent)

def ScimServer.expecting : ScimServer := {server with upcoming := event.answered}

def ScimServer.serve : Except ScimFailure ScimResponse × ScimServer :=
  let out := run answerScim (event.command.respond digest connection) event.times (server.expecting event)
  (out.1,out.2.2)

def AtomicAt : Prop := ∀ failure, (server.serve digest connection event).1 = .error failure → failure.Client →
  (server.serve digest connection event).2.directory = server.directory

def ReadsAnswered : Prop :=
  Disciplined answerScim ReadAnswered (event.command.respond digest connection) event.times (server.expecting event)

end Serving

namespace ScimCommand

def WritesLast : ScimCommand → Prop
  | .postGroup _ | .putGroup _ _ | .patchGroup _ _ => False
  | _ => True

def RefusedUnwritten (digest : String → String) (connection : ScimConnection) (directory : ScimDirectory) : ScimCommand → Prop
  | .postGroup resource => ∀ fields displayName failure, required "displayName" resource = .ok (fields,displayName) →
      Creates digest connection directory fields displayName →
      unknownFailure connection directory (memberIds (items (membersOf fields))) = some failure → ¬ failure.Client
  | .putGroup id resource => ActiveGroup connection directory id → ∀ fields displayName failure,
      required "displayName" resource = .ok (fields,displayName) →
      unknownFailure connection directory (memberIds (items (membersOf fields))) = some failure → ¬ failure.Client
  | .patchGroup id operations => ActiveGroup connection directory id → ∀ listed failure,
      iterated operations = .ok listed → firstRefusal connection directory listed = some failure → failure.Client →
        ¬ ChangesFirst connection directory id listed
  | _ => True

end ScimCommand

section Theorem
variable {digest : String → String} {connection : ScimConnection} {server : ScimServer} {α β : Type}

theorem scopedNamed {p : Scim α} (inside : Scoped digest connection p) (named : Named connection server.directory) :
    Served p (fun _ last => Named connection last.directory) server := by
  induction inside generalizing server with
  | pure a => exact servedPure.mpr named
  | throw e => exact servedThrow.mpr named
  | bind first rest firstHolds restHolds =>
      apply servedBind
      refine soundMono (firstHolds named) fun r after named => ?_
      cases r with
      | ok a => exact restHolds a named
      | error e => exact named
  | now => exact soundMono (nowReads rfl) fun _ _ same => same ▸ named
  | list kind => exact listKindReads named named
  | find id => exact findUserReads fun _ _ unchanged _ => unchanged.directory ▸ named
  | create kind externalId identity =>
      have shape : Provisioned kind (resourceName digest kind connection.uid externalId) := by
        cases kind
        · exact ⟨_,rfl⟩
        · exact ⟨_,rfl⟩
      apply createProvisionedUserWrites
      · exact fun after unchanged => unchanged.directory ▸ named
      · intro after _ _ written
        have kept : Named connection after.directory := written ▸ namedPut named shape
        exact ⟨kept,fun _ => kept⟩
  | update id identity =>
      apply updateUserSpecsWrites
      · exact fun _ after unchanged => unchanged.directory ▸ named
      · intro kind after present _ written
        have kept : Named connection after.directory := written ▸ namedPut named (namedHeld named present)
        exact ⟨kept,fun _ => kept⟩

theorem servedNamed (named : Named connection server.directory) (event : TenantEvent) :
    Named connection (server.serve digest connection event).2.directory := by
  have opened : Named connection (server.expecting event).directory := named
  have inside : Scoped digest connection (event.command.respond digest connection) := event.command.respondScoped
  exact aloneRun (scopedNamed inside opened) (disciplinedTrivial _ event.times _)

theorem refusesShown {start : ScimDirectory} {p : Scim α} {shown : α → β} (refuses : Refuses start p server) :
    Refuses start (p >>= fun a => Program.pure (shown a)) server := by
  apply servedBind
  refine soundMono refuses fun r last kept => ?_
  cases r with
  | ok a => exact servedPure.mpr fun e failed => by cases failed
  | error e => exact fun e' failed => kept e' (by rw [Except.error.inj failed])

theorem listUsersSame {start : ScimDirectory} (same : server.directory = start) :
    Served (listUsers connection) (fun _ last => last.directory = start) server :=
  listUsersReads fun _ _ listed => (listedSame listed).trans same

theorem respondRefuses (command : ScimCommand) (once : command.WritesLast) :
    Refuses server.directory (command.respond digest connection) server := by
  cases command with
  | getUsers => exact refusesRead (listUsersSame rfl) fun _ _ same => servedPure.mpr fun _ _ _ => same
  | getUser id => exact refusesRead (findUserSame rfl) fun _ _ same => servedPure.mpr fun _ _ _ => same
  | postUser resource => exact refusesShown (createUserRefuses resource)
  | putUser id resource => exact refusesShown (replaceUserRefuses resource)
  | patchUser id operations => exact refusesShown (patchUserRefuses operations)
  | deleteUser id => exact refusesShown (patchUserRefuses _)
  | getGroups =>
      have groups : Served (listGroups connection) (fun _ last => last.directory = server.directory) server :=
        listGroupsReads fun _ _ same => same
      exact refusesRead groups fun _ _ same => refusesRead (listUsersSame same) fun _ _ same =>
        servedPure.mpr fun _ _ _ => same
  | getGroup id =>
      have shown : Refuses server.directory (findGroup connection id >>= groupResource connection) server :=
        refusesRead (findGroupSame rfl) fun _ _ same => refusesRead (listUsersSame same) fun _ _ same =>
          servedPure.mpr fun _ _ _ => same
      exact refusesShown shown
  | postGroup resource => exact absurd once id
  | putGroup id resource => cases once
  | patchGroup id operations => cases once
  | deleteGroup id => exact refusesShown deleteGroupRefuses

section Carried
variable {ω : Type} {f : ω → String}

theorem requestShown {failure : Option ScimFailure} {writes : Prop} {p : Scim α} {shown : α → β}
    (ends : Carried f p (RequestEnd f connection failure writes server) server) :
    Carried f (p >>= fun a => Program.pure (shown a)) (RequestEnd f connection failure writes server) server := by
  apply carriedBind
  refine soundMono ends fun r last ends => ?_
  cases r with
  | ok a => exact carriedPure ends
  | error e => exact ends

theorem requestKept {failure : Option ScimFailure} {writes : Prop} {p : Scim α}
    (ends : Carried f p (RequestEnd f connection failure writes server) server)
    (unwritten : ∀ e, failure = some e → e.Client → ¬ writes) :
    Carried f p (fun r last => ∀ e, r = .error e → e.Client → last.directory = server.directory) server := by
  refine soundMono ends fun r last ends => ?_
  rintro e rfl client
  rcases ends with lost | ⟨failed,effect⟩
  · exact absurd client lost.2
  · exact effect.kept (unwritten e failed client)

theorem missingGroup {id : String} {next : ScimResource → Scim β} (apart : Apart connection server.directory)
    (missing : ¬ ActiveGroup connection server.directory id) : Carried f (findGroup connection id >>= next)
      (fun r last => ∀ e, r = .error e → e.Client → last.directory = server.directory) server := by
  apply carriedBind
  refine soundMono (carriedFindGroup apart) fun r middle both => ?_
  obtain ⟨same,-,found⟩ := both
  cases r with
  | error e => exact fun _ _ _ => same
  | ok account => exact absurd ⟨_,found.1 ▸ found.2.kind ▸ found.2.holds.stored,found.2.active⟩ missing

theorem respondCarried (named : Named connection server.directory) (command : ScimCommand)
    (clean : command.RefusedUnwritten digest connection server.directory) :
    Carried f (command.respond digest connection)
      (fun r last => ∀ e, r = .error e → e.Client → last.directory = server.directory) server := by
  have apart := namedApart named
  have shown {α β : Type} {p : Scim α} {show' : α → β}
      (kept : Carried f p (fun r last => ∀ e, r = .error e → e.Client → last.directory = server.directory) server) :
      Carried f (p >>= fun a => Program.pure (show' a))
        (fun r last => ∀ e, r = .error e → e.Client → last.directory = server.directory) server := by
    apply carriedBind
    refine soundMono kept fun r last kept => ?_
    cases r with
    | ok a => exact carriedPure fun e failed => by cases failed
    | error e => exact fun e' failed => kept e' (by rw [Except.error.inj failed])
  cases command with
  | postGroup resource =>
      refine shown ?_
      cases read : required "displayName" resource with
      | error failure =>
          refine carriedServed ?_
          unfold createGroup
          rw [read]
          exact servedThrow.mpr fun _ _ _ => rfl
      | ok both =>
          refine soundMono (carriedCreateGroup named read) fun r last ends => ?_
          rintro e rfl client
          rcases ends with unwritten | ⟨creates,lost | ⟨failed,-⟩⟩
          · exact unwritten.1
          · exact absurd client lost.2
          · exact absurd client (clean _ _ e read creates failed)
  | putGroup id resource =>
      refine shown ?_
      by_cases here : ActiveGroup connection server.directory id
      · cases read : required "displayName" resource with
        | error failure =>
            refine carriedServed ?_
            refine refusesRead (findGroupSame rfl) fun account after same => ?_
            rw [read]
            exact servedThrow.mpr fun _ _ _ => same
        | ok both =>
            refine requestKept (carriedReplaceGroup apart here read) fun e failed client => ?_
            exact absurd client (clean here _ _ e read failed)
      · exact missingGroup apart here
  | patchGroup id operations =>
      refine shown ?_
      by_cases here : ActiveGroup connection server.directory id
      · cases read : iterated operations with
        | error failure =>
            refine carriedServed ?_
            refine refusesRead (findGroupSame rfl) fun account after same => ?_
            rw [read]
            exact servedThrow.mpr fun _ _ _ => same
        | ok listed => exact requestKept (carriedPatchGroup apart here read) fun e failed client => clean here listed e read failed client
      · exact missingGroup apart here
  | _ => exact carriedServed (respondRefuses _ trivial)

end Carried

theorem answerCalm {time : String} {call : ScimCall} (calm : server.upcoming = []) :
    (answerScim time call server).2.upcoming = [] := by
  cases call with
  | list kind => simp [answerScim,ScimServer.answers,ScimServer.next,calm]
  | get kind name => simp [answerScim,ScimServer.next,calm]
  | create kind name record =>
      simp only [answerScim]
      split
      · simp [ScimServer.next,calm]
      · simp [ScimServer.next,calm]
  | patch kind name identity =>
      simp only [answerScim]
      split
      · split
        · simp [ScimServer.next,calm]
        · simp [ScimServer.next,calm]
      · simp [ScimServer.next,calm]
  | project resource => simp [answerScim,ScimServer.next,calm]
  | now => exact calm

theorem calmDisciplined {ω : Type} [Inhabited ω] {f : ω → String} (p : Scim α) (ws : List ω) (calm : server.upcoming = []) :
    Disciplined (fun w => answerScim (f w)) ReadAnswered p ws server := by
  induction p generalizing ws server with
  | pure a => trivial
  | throw e => trivial
  | call c next ih =>
      have answered : server.answers = true := by simp [ScimServer.answers,calm]
      refine ⟨?_,ih _ _ (answerCalm calm)⟩
      cases c <;> first | exact answered | trivial

theorem freshTime (connection : ScimConnection) (directory : ScimDirectory) :
    ∃ time, ¬ Stamped (fun _ : Unit => time) connection directory := by
  obtain ⟨time,fresh⟩ := Infinite.exists_notMem_finset
    ((directory.records .subject ++ directory.records .group).map (·.2.identity.lastModified)).toFinset
  refine ⟨time,fun ⟨kind,name,identity,_,stored,stamp⟩ => fresh (List.mem_toFinset.mpr ?_)⟩
  have inside : (name,(⟨connection.uid,identity⟩ : ScimRecord)) ∈ directory.records kind := mapGetMember (heldRecord.mp stored)
  refine List.mem_map.mpr ⟨(name,⟨connection.uid,identity⟩),?_,stamp⟩
  cases kind with
  | subject => exact List.mem_append_left _ inside
  | group => exact List.mem_append_right _ inside

theorem refusedWritten {command : ScimCommand} {failure : ScimFailure} (client : failure.Client)
    (ends : ∀ time : String, Carried (fun _ : Unit => time) (command.respond digest connection)
      (RequestEnd (fun _ : Unit => time) connection (some failure) True {server with upcoming := []}) {server with upcoming := []}) :
    ¬ ∀ times, AtomicAt digest connection server ⟨command,[],times⟩ := by
  intro atomic
  obtain ⟨time,fresh⟩ := freshTime connection server.directory
  have ran := aloneRun (ends time) (calmDisciplined (command.respond digest connection) [] rfl)
  obtain ⟨n,result,state⟩ := runConstant answerScim time (command.respond digest connection) {server with upcoming := []}
  unfold after at ran
  rw [← result,← state] at ran
  have kept := atomic (List.replicate n time)
  unfold AtomicAt ScimServer.serve ScimServer.expecting at kept
  revert ran kept
  cases (run answerScim (command.respond digest connection) (List.replicate n time) {server with upcoming := []}).1 with
  | ok response =>
      intro ran
      cases ran
  | error e =>
      intro ran kept
      rcases ran with lost | ⟨same,effect⟩
      · exact absurd rfl lost.1
      · cases same
        exact fresh (kept failure rfl client ▸ effect.written trivial)

theorem atomicUnwritten (named : Named connection server.directory) (command : ScimCommand)
    (atomic : ∀ times, AtomicAt digest connection server ⟨command,[],times⟩) :
    command.RefusedUnwritten digest connection server.directory := by
  have apart : Apart connection ({server with upcoming := []} : ScimServer).directory := namedApart named
  cases command with
  | postGroup resource =>
      intro fields displayName failure read creates failed client
      have named : Named connection ({server with upcoming := []} : ScimServer).directory := named
      refine refusedWritten client (fun time => requestShown ?_) atomic
      refine soundMono (carriedCreateGroup named read) fun r last ends => ?_
      rw [← failed]
      rcases ends with ⟨-,-,unanswered⟩ | ⟨-,ends⟩
      · exact absurd rfl (unanswered creates)
      · exact ends
  | putGroup id resource =>
      intro here fields displayName failure read failed client
      have here : ActiveGroup connection ({server with upcoming := []} : ScimServer).directory id := here
      refine refusedWritten client (fun time => ?_) atomic
      have replaced : Carried (fun _ : Unit => time) (replaceGroup connection id resource) (RequestEnd (fun _ : Unit => time)
          connection (unknownFailure connection server.directory (memberIds (items (membersOf fields)))) True
          {server with upcoming := []}) {server with upcoming := []} := carriedReplaceGroup apart here read
      rw [failed] at replaced
      exact requestShown replaced
  | patchGroup id operations =>
      intro here listed failure read failed client changed
      have here : ActiveGroup connection ({server with upcoming := []} : ScimServer).directory id := here
      refine refusedWritten client (fun time => ?_) atomic
      have patched : Carried (fun _ : Unit => time) (ScimService.patchGroup connection id operations)
          (RequestEnd (fun _ : Unit => time) connection (firstRefusal connection server.directory listed)
            (ChangesFirst connection server.directory id listed) {server with upcoming := []}) {server with upcoming := []} :=
        carriedPatchGroup apart here read
      rw [failed,eq_true changed] at patched
      exact requestShown patched
  | _ => trivial

def ScimServer.served (digest : String → String) (connection : ScimConnection) (server : ScimServer)
    (events : List TenantEvent) : ScimServer :=
  events.foldl (fun server event => (server.serve digest connection event).2) server

theorem runNamed (start : Named connection server.directory) (events : List TenantEvent) :
    Named connection (server.served digest connection events).directory :=
  everyRunKeeps (fun server : ScimServer => Named connection server.directory) (fun _ event named => servedNamed named event)
    start events

end Theorem

/- After any run, a request that is refused leaves the directory as it was: always, where it writes once all is
checked; else if its reads are answered and no refusal comes after a write. With every call answered it does,
whatever the clock shows, exactly where none comes after one. -/
theorem scimAtomicity (digest : String → String) (connection : ScimConnection) (start : ScimServer)
    (fresh : Unprovisioned connection start.directory) (events : List TenantEvent) (command : ScimCommand) :
    let server := start.served digest connection events
    (∀ answered times, (command.WritesLast ∨
        (ReadsAnswered digest connection server ⟨command,answered,times⟩ ∧ command.RefusedUnwritten digest connection server.directory)) →
      AtomicAt digest connection server ⟨command,answered,times⟩) ∧
    ((∀ times, AtomicAt digest connection server ⟨command,[],times⟩) ↔ command.RefusedUnwritten digest connection server.directory) := by
  intro server
  have named : Named connection server.directory := runNamed (unprovisionedKept connection fresh).named events
  have enough : ∀ answered times, (command.WritesLast ∨ (ReadsAnswered digest connection server ⟨command,answered,times⟩ ∧
      command.RefusedUnwritten digest connection server.directory)) → AtomicAt digest connection server ⟨command,answered,times⟩ := by
    intro answered times met
    have opened : Named connection (server.expecting ⟨command,answered,times⟩).directory := named
    rcases met with once | ⟨reads,clean⟩
    · have refuses : Refuses (server.expecting ⟨command,answered,times⟩).directory (command.respond digest connection)
          (server.expecting ⟨command,answered,times⟩) := respondRefuses command once
      exact aloneRun refuses (disciplinedTrivial _ _ _)
    · exact aloneRun (respondCarried (f := id) opened command clean) reads
  refine ⟨enough,atomicUnwritten named command,fun clean times => enough [] times (.inr ⟨?_,clean⟩)⟩
  exact calmDisciplined (f := id) _ times rfl

def renamedStaff : TenantEvent := ⟨.patchGroup "scim-g-acme\x00staff" (some (.array [
  .object [("op",.string "replace"),("path",.string "displayName"),("value",.string "crew")],
  .object [("op",.string "add"),("path",.string "photo"),("value",.string "x")]])),[],[]⟩

def staffCreated : TenantEvent := ⟨.postGroup (.object [("displayName",.string "staff")]),[],[]⟩

def refusedWith {α : Type} : Except ScimFailure α → Option ScimFailure
  | .error failure => some failure
  | .ok _ => none

theorem refusedError {α : Type} {r : Except ScimFailure α} {failure : ScimFailure} (refused : refusedWith r = some failure) :
    r = .error failure := by
  cases r with
  | error e => rw [Option.some.inj refused]
  | ok value => cases refused

def staffServer : ScimServer := (⟨emptyDirectory,[],0⟩ : ScimServer).served id mappedConnection [staffCreated]

/- The answer is 400, and the group has its new name. -/
theorem renamedAndRefused : ¬ ∀ (digest : String → String) (connection : ScimConnection) (start : ScimServer),
    Unprovisioned connection start.directory → ∀ events event,
      AtomicAt digest connection (start.served digest connection events) event := by
  intro always
  have atomic : AtomicAt id mappedConnection staffServer renamedStaff :=
    always id mappedConnection ⟨emptyDirectory,[],0⟩ (fun kind name => by cases kind <;> rfl) [staffCreated] renamedStaff
  have refused : refusedWith (staffServer.serve id mappedConnection renamedStaff).1 =
      some (.scim 400 "Unsupported Group PATCH path photo" (some "invalidPath")) := by decide +kernel
  have name : ((staffServer.directory.held "acme" .group "scim-g-acme\x00staff").bind (·.displayName)) = some "staff" := by
    decide +kernel
  have renamed : (((staffServer.serve id mappedConnection renamedStaff).2.directory.held "acme" .group
      "scim-g-acme\x00staff").bind (·.displayName)) = some "crew" := by decide +kernel
  rw [atomic _ (refusedError refused) ⟨_,_,_,rfl,by decide,by decide⟩,name] at renamed
  exact absurd renamed (by decide)

def refusedStaff : ScimCommand := .patchGroup "scim-g-acme\x00staff" (some (.array [
  .object [("op",.string "add"),("path",.string "photo"),("value",.string "x")],
  .object [("op",.string "replace"),("path",.string "displayName"),("value",.string "crew")]]))

theorem refusedAtOnce : AtomicAt id mappedConnection staffServer ⟨refusedStaff,[],[]⟩ := by
  have clean : refusedStaff.RefusedUnwritten id mappedConnection staffServer.directory := by
    intro here listed failure read failed client changes
    cases Except.ok.inj read
    have refused : (refusal mappedConnection staffServer.directory
        (.object [("op",.string "add"),("path",.string "photo"),("value",.string "x")])).isSome = true := by decide +kernel
    have unnamed : namesGiven (.object [("op",.string "add"),("path",.string "photo"),("value",.string "x")]) = [] := by
      decide +kernel
    obtain ⟨first,same⟩ := Option.isSome_iff_exists.mp refused
    simp only [ChangesFirst,same,unnamed] at changes
    exact changes rfl
  exact (scimAtomicity id mappedConnection ⟨emptyDirectory,[],0⟩ (fun kind name => by cases kind <;> rfl) [staffCreated]
    refusedStaff).2.mpr clean []

end Passmower
