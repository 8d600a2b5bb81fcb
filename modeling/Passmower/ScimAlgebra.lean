import Mathlib.Data.List.Induction
import Mathlib.Data.Set.Basic
import Passmower.ScimProjection

/-! Group patches as operations on the set of a group's members: what an operation is to mean, what the
service makes of it, and when a list of operations comes to the set it means. -/
namespace Passmower
open JavaScript Resumption Program ScimService

inductive MemberOperation where
  | union (ids : List String)
  | assign (ids : List String)
  | takeOut (ids : List String)
  | clear
  | keep
  deriving DecidableEq, Repr

namespace MemberOperation

def apply : MemberOperation → Set String → Set String
  | .union ids, members => {user | user ∈ members ∨ user ∈ ids}
  | .assign ids, _ => {user | user ∈ ids}
  | .takeOut ids, members => {user | user ∈ members ∧ user ∉ ids}
  | .clear, _ => ∅
  | .keep, members => members

def decides (user : String) : MemberOperation → Option Bool
  | .union ids => if ids.contains user then some true else none
  | .assign ids => some (ids.contains user)
  | .takeOut ids => if ids.contains user then some false else none
  | .clear => some false
  | .keep => none

end MemberOperation

def folded (operations : List MemberOperation) (members : Set String) : Set String :=
  operations.foldl (fun members operation => operation.apply members) members

def settled (start : Prop) (writes : List (Option Bool)) : Prop :=
  writes.foldl (fun before write => match write with
    | some now => now = true
    | none => before) start

@[simp] theorem settledSnoc (start : Prop) (writes : List (Option Bool)) (write : Option Bool) :
    settled start (writes ++ [write]) = (match write with
      | some now => now = true
      | none => settled start writes) := by
  simp [settled]

theorem memberApply (operation : MemberOperation) (members : Set String) (user : String) :
    user ∈ operation.apply members ↔ (match operation.decides user with
      | some now => now = true
      | none => user ∈ members) := by
  cases operation with
  | union ids =>
      by_cases inside : user ∈ ids <;> simp [MemberOperation.apply,MemberOperation.decides,inside]
  | assign ids => simp [MemberOperation.apply,MemberOperation.decides]
  | takeOut ids =>
      by_cases inside : user ∈ ids <;> simp [MemberOperation.apply,MemberOperation.decides,inside]
  | clear => simp [MemberOperation.apply,MemberOperation.decides]
  | keep => simp [MemberOperation.apply,MemberOperation.decides]

theorem memberFolded (operations : List MemberOperation) (members : Set String) (user : String) :
    user ∈ folded operations members ↔ settled (user ∈ members) (operations.map (·.decides user)) := by
  induction operations generalizing members with
  | nil => rfl
  | cons operation rest ih =>
      have first := memberApply operation members user
      have later := ih (operation.apply members)
      simp only [folded,settled,List.foldl_cons,List.map_cons] at later ⊢
      rw [later,propext first]

section Writers
variable {γ : Type} (start : Prop) (done meant : γ → Option Bool)

def Agrees (before : List γ) (entry : γ) : Prop := match done entry, meant entry with
  | none, none => True
  | some now, some due => now = due
  | some now, none => settled start (before.map meant) ↔ now = true
  | none, some due => settled start (before.map done) ↔ due = true

def LastAgrees (entries : List γ) : Prop :=
  ∀ before entry later, entries = before ++ entry :: later → (∀ other ∈ later, done other = none ∧ meant other = none) →
    Agrees start done meant before entry

theorem splitSnoc {rest before later : List γ} {last entry : γ} (same : rest ++ [last] = before ++ entry :: later) :
    (later = [] ∧ before = rest ∧ entry = last) ∨ ∃ inner, later = inner ++ [last] ∧ rest = before ++ entry :: inner := by
  rcases List.eq_nil_or_concat later with rfl | ⟨inner,final,rfl⟩
  · obtain ⟨rfl,one⟩ := List.append_inj' same rfl
    exact .inl ⟨rfl,rfl,(List.singleton_inj.mp one).symm⟩
  · rw [List.concat_eq_append,← List.cons_append,← List.append_assoc] at same
    obtain ⟨rfl,one⟩ := List.append_inj' same rfl
    cases List.singleton_inj.mp one
    exact .inr ⟨inner,by simp,rfl⟩

theorem lastIdle {rest : List γ} {last : γ} (idle : done last = none ∧ meant last = none) :
    LastAgrees start done meant (rest ++ [last]) ↔ LastAgrees start done meant rest := by
  constructor
  · intro all before entry later same quiet
    refine all before entry (later ++ [last]) (by simp [same]) fun other inside => ?_
    rcases List.mem_append.mp inside with old | new
    · exact quiet other old
    · exact List.mem_singleton.mp new ▸ idle
  · intro all before entry later same quiet
    rcases splitSnoc same with ⟨_,_,rfl⟩ | ⟨inner,rfl,split⟩
    · simp [Agrees,idle]
    · exact all before entry inner split fun other inside => quiet other (List.mem_append_left _ inside)

theorem lastActive {rest : List γ} {last : γ} (active : ¬ (done last = none ∧ meant last = none)) :
    LastAgrees start done meant (rest ++ [last]) ↔ Agrees start done meant rest last := by
  constructor
  · exact fun all => all rest last [] rfl (by simp)
  · intro agrees before entry later same quiet
    rcases splitSnoc same with ⟨_,rfl,rfl⟩ | ⟨inner,rfl,_⟩
    · exact agrees
    · exact absurd (quiet last (by simp)) active

theorem settledAgree (entries : List γ) : (settled start (entries.map done) ↔ settled start (entries.map meant)) ↔
    LastAgrees start done meant entries := by
  induction entries using List.reverseRecOn with
  | nil =>
      refine iff_of_true Iff.rfl fun before entry later same => ?_
      simp at same
  | append_singleton rest last ih =>
      simp only [List.map_append,List.map_cons,List.map_nil,settledSnoc]
      by_cases idle : done last = none ∧ meant last = none
      · rw [lastIdle start done meant idle,idle.1,idle.2]
        exact ih
      · rw [lastActive start done meant idle,Agrees]
        cases written : done last with
        | none =>
            cases awaited : meant last with
            | none => exact absurd ⟨written,awaited⟩ idle
            | some due => exact Iff.rfl
        | some now =>
            cases meant last with
            | none => exact ⟨Iff.symm,Iff.symm⟩
            | some due => cases now <;> cases due <;> simp

end Writers

inductive MemberPatch where
  | inValue (op : String) (listed : Json)
  | atPath (op : String) (listed : Option Json)
  | filtered (member : String)
  | other

def valuePatch (op : String) (value : Object) : MemberPatch := match value.get "members" with
  | some listed => .inValue op listed
  | none => .other

def pathPatch (operation : Object) (op : String) (path : Option String) : MemberPatch :=
  match path.map String.toLower with
  | some "displayname" => .other
  | some "members" => .atPath op (operation.get "value")
  | _ => match path.bind memberFilter with
      | some member => .filtered member
      | none => .other

def memberPatch : Json → MemberPatch
  | .object operation => match operator operation with
      | .error _ => .other
      | .ok op => match isTruthyOr (Object.get operation "path"), objectValue operation with
          | false, some value => valuePatch op value
          | _, _ => match pathText operation with
              | .error _ => .other
              | .ok path => pathPatch operation op path
  | _ => .other

def listedIds (value : Option Json) : List String :=
  ((value.map items).getD []).filterMap fun member => (memberId member).toOption

def intended (op : String) (value : Option Json) : MemberOperation :=
  if op = "add" then .union (listedIds value)
  else if op = "replace" then .assign (listedIds value)
  else match value with
    | some (.array _) => .takeOut (listedIds value)
    | _ => .clear

def MemberPatch.meaning : MemberPatch → MemberOperation
  | .inValue op listed => intended op (some listed)
  | .atPath op value => intended op value
  | .filtered member => .takeOut [member]
  | .other => .keep

def MemberPatch.performed : MemberPatch → MemberOperation
  | .inValue _ listed => .assign (listedIds (some listed))
  | .atPath op value =>
      if op = "replace" then .assign (listedIds value)
      else if op = "add" then .union (listedIds value)
      else .clear
  | .filtered member => .takeOut [member]
  | .other => .keep

def membersOfGroup (connection : ScimConnection) (directory : ScimDirectory) (group : String) : Set String :=
  {user | ∃ identity, directory.held connection.uid .subject user = some identity ∧ group ∈ identity.sourceGroups}

section Effects
variable {connection : ScimConnection} {directory before after : ScimDirectory} {server last : ScimServer} {group id : String}

theorem assignedMember {wants : String → Bool} (edits : Assigned connection group wants before after) (user other : String) :
    user ∈ membersOfGroup connection after other ↔ if other = group then
      (before.held connection.uid .subject user).isSome ∧ wants user = true else user ∈ membersOfGroup connection before other := by
  cases stored : before.held connection.uid .subject user with
  | none =>
      have gone := edits.others user stored
      simp [membersOfGroup,stored,gone]
  | some identity =>
      obtain ⟨edited,now,shifted⟩ := edits.edited user identity stored
      have moved := shiftedMembers shifted other
      simp only [membersOfGroup,Set.mem_ofPred_eq,now,stored,Option.some.injEq,exists_eq_left',Option.isSome_some,true_and]
      exact moved

structure Members (connection : ScimConnection) (group : String) (operation : MemberOperation)
    (before after : ScimDirectory) : Prop where
  own : membersOfGroup connection after group = operation.apply (membersOfGroup connection before group)
  others : ∀ other, other ≠ group → membersOfGroup connection after other = membersOfGroup connection before other

theorem membersKept (same : ∀ user, after.held connection.uid .subject user = before.held connection.uid .subject user) :
    Members connection group .keep before after := by
  have all : ∀ other, membersOfGroup connection after other = membersOfGroup connection before other := fun other => by
    simp only [membersOfGroup,same]
  exact ⟨all group,fun other _ => all other⟩

theorem membersAssigned {wants : String → Bool} {operation : MemberOperation}
    (edits : Assigned connection group wants before after)
    (comesTo : ∀ user, ((before.held connection.uid .subject user).isSome ∧ wants user = true) ↔
      user ∈ operation.apply (membersOfGroup connection before group)) : Members connection group operation before after where
  own := by
    ext user
    rw [assignedMember edits,if_pos rfl,comesTo]
  others other different := by
    ext user
    rw [assignedMember edits,if_neg different]

theorem memberHeld {user : String} (member : user ∈ membersOfGroup connection directory group) :
    (directory.held connection.uid .subject user).isSome := by
  obtain ⟨identity,stored,_⟩ := member
  simp [stored]

theorem idsListed {listed : List Json} {ids : List String} (read : memberIds listed = .ok ids) :
    (listed.filterMap fun member => (memberId member).toOption) = ids := by
  induction listed generalizing ids with
  | nil =>
      cases read
      rfl
  | cons member rest ih =>
      unfold memberIds at read ih
      rw [List.mapM_cons] at read
      obtain ⟨id,first,read⟩ := boundOk read
      obtain ⟨others,later,read⟩ := boundOk read
      cases read
      rw [List.filterMap_cons,first,ih later]
      rfl

theorem idsGiven {value : Option Json} {ids : List String}
    (read : memberIds (items ((given value).getD (.array []))) = .ok ids) : listedIds value = ids := by
  have same : items ((given value).getD (.array [])) = (value.map items).getD [] := by
    cases value with
    | none => rfl
    | some value => cases value <;> rfl
  exact idsListed (same ▸ read)

def Done (connection : ScimConnection) (id : String) (operation : MemberOperation) (server last : ScimServer) : Prop :=
  Apart connection last.directory ∧ (last.directory.held connection.uid .group id).isSome ∧
    Members connection id (if last.unlisted = server.unlisted then operation else .keep) server.directory last.directory

variable (apart : Apart connection server.directory) (present : (server.directory.held connection.uid .group id).isSome)

include apart present

theorem assignedDone {wants : String → Bool} {operation : MemberOperation} (counted : last.unlisted = server.unlisted)
    (edits : Assigned connection id wants server.directory last.directory)
    (comesTo : ∀ user, ((server.directory.held connection.uid .subject user).isSome ∧ wants user = true) ↔
      user ∈ operation.apply (membersOfGroup connection server.directory id)) : Done connection id operation server last := by
  refine ⟨edits.apart apart,by rw [edits.groups]; exact present,?_⟩
  rw [if_pos counted]
  exact membersAssigned edits comesTo

theorem missedDone {operation : MemberOperation} (counted : last.unlisted = server.unlisted + 1)
    (same : last.directory = server.directory) : Done connection id operation server last := by
  refine ⟨same ▸ apart,same ▸ present,?_⟩
  rw [if_neg (by omega)]
  exact membersKept fun user => by rw [same]

theorem replaceMembersDone {account : ScimResource} (named : account.accountId = id) {members : Json}
    {operation : MemberOperation} (assigns : ∀ desired, memberIds (items members) = .ok desired →
      operation.apply (membersOfGroup connection server.directory id) = {user | user ∈ desired}) :
    Served (replaceMembers connection account members) (fun r last => r = .ok () → Done connection id operation server last)
      server := by
  subst named
  apply replaceMembersEdits apart
  · exact fun e last _ failed => by cases failed
  · intro last desired ids counted known edits _
    refine assignedDone apart present counted edits fun user => ?_
    rw [assigns desired ids]
    simp only [List.contains_eq_mem,decide_eq_true_eq]
    exact ⟨And.right,fun inside => ⟨known user inside,inside⟩⟩
  · exact fun last _ counted same _ => missedDone apart present counted same

theorem addMembersDone {account : ScimResource} (named : account.accountId = id) {value : Option Json} :
    Served (addMembers connection account ((given value).getD (.array [])))
      (fun r last => r = .ok () → Done connection id (.union (listedIds value)) server last) server := by
  subst named
  apply addMembersEdits apart
  · exact fun e last _ failed => by cases failed
  · intro last listed ids desired added read wants counted known edits _
    refine assignedDone apart present counted edits fun user => ?_
    have same : listedIds value = ids := idsGiven (by rw [added]; exact read)
    rw [wants user,same]
    constructor
    · exact And.right
    · rintro (member | inside)
      · exact ⟨memberHeld member,.inl member⟩
      · exact ⟨known user inside,.inr inside⟩
  · exact fun last _ counted same _ => missedDone apart present counted same

theorem removeMembersDone {account : ScimResource} (named : account.accountId = id) (ids : List String) :
    Served (removeMembers connection account ids)
      (fun r last => r = .ok () → Done connection id (.takeOut ids) server last) server := by
  subst named
  apply removeMembersEdits apart
  · exact fun e last _ failed => by cases failed
  · intro last desired wants counted edits _
    refine assignedDone apart present counted edits fun user => ?_
    rw [wants user]
    exact ⟨And.right,fun member => ⟨memberHeld member.1,member⟩⟩
  · exact fun last counted same _ => missedDone apart present counted same

end Effects

section Patches
variable {connection : ScimConnection} {server : ScimServer} {id : String} {account : ScimResource}

def Comes (connection : ScimConnection) (id : String) (operation : MemberOperation) (server : ScimServer)
    (r : Except ScimFailure ScimResource) (last : ScimServer) : Prop :=
  ∀ account, r = .ok account → account.accountId = id ∧ Done connection id operation server last

variable (apart : Apart connection server.directory) (present : (server.directory.held connection.uid .group id).isSome)
  (named : account.accountId = id)

include apart present

theorem renameGroupComes (displayName : String) :
    Served (renameGroup connection id account displayName) (fun r last => Comes connection id .keep server r last ∧
      last.unlisted = server.unlisted) server := by
  unfold renameGroup
  apply servedNow
  intro lastModified
  apply updateUserSpecsWrites
  · intro e last unchanged
    exact ⟨(by rintro account ⟨⟩),unchanged.unlisted⟩
  · intro kind last held counted written
    have group : kind = .group := by
      cases kind with
      | group => rfl
      | subject => simp [apart id held] at present
    subst group
    have done : Done connection id .keep server last := by
      refine ⟨?_,by simp [written],?_⟩
      · intro name subject
        have subject : (server.directory.held connection.uid .subject name).isSome := by simpa [written] using subject
        have different : id ≠ name := by
          rintro rfl
          simp [apart id subject] at present
        simpa [written,different] using apart name subject
      · rw [if_pos counted]
        exact membersKept fun user => by simp [written]
    constructor
    · exact ⟨by rintro account ⟨⟩; exact ⟨rfl,done⟩,counted⟩
    · exact fun e => ⟨by rintro account ⟨⟩,counted⟩

include named

theorem keptComes : Comes connection id .keep server (.ok account) server := by
  rintro _ ⟨⟩
  refine ⟨named,apart,present,?_⟩
  rw [if_pos rfl]
  exact membersKept fun user => rfl

omit apart present in
theorem membersCome {p : Scim Unit} {operation : MemberOperation}
    (done : Served p (fun r last => r = .ok () → Done connection id operation server last) server) :
    Served (p >>= fun _ => Program.pure account) (Comes connection id operation server) server := by
  apply servedBind
  refine soundMono done fun r last ends => ?_
  cases r with
  | ok value =>
      refine servedPure.mpr ?_
      rintro _ ⟨⟩
      exact ⟨named,ends rfl⟩
  | error e => rintro account ⟨⟩

omit apart present named in
theorem doneAfter {operation : MemberOperation} {middle last : ScimServer} (first : Done connection id .keep server middle)
    (counted : middle.unlisted = server.unlisted) (second : Done connection id operation middle last) :
    Done connection id operation server last := by
  obtain ⟨_,_,same⟩ := first
  obtain ⟨apart,present,moved⟩ := second
  rw [if_pos counted] at same
  rw [counted] at moved
  refine ⟨apart,present,?_,fun other different => ?_⟩
  · rw [moved.own,same.own]
    rfl
  · rw [moved.others other different,same.others other different]

theorem patchGroupValueComes (op : String) (value : Object) : Served (patchGroupValue connection id account value)
    (Comes connection id (valuePatch op value).performed server) server := by
  have renamed : Served (patchGroupName connection id account value) (fun r last => Comes connection id .keep server r last ∧
      last.unlisted = server.unlisted) server := by
    unfold patchGroupName
    split
    · exact renameGroupComes apart present _
    · exact servedPure.mpr ⟨keptComes apart present named,rfl⟩
  unfold patchGroupValue
  apply servedBind
  refine soundMono renamed fun r middle ends => ?_
  cases r with
  | error e => rintro account ⟨⟩
  | ok account =>
      obtain ⟨comes,counted⟩ := ends
      obtain ⟨rfl,first⟩ := comes account rfl
      simp only [valuePatch]
      cases value.get "members" with
      | none =>
          refine servedPure.mpr ?_
          rintro _ ⟨⟩
          exact ⟨rfl,first⟩
      | some listed =>
          have replaced : Served (replaceMembers connection account ((given (some listed)).getD (.array [])))
              (fun r last => r = .ok () →
                Done connection account.accountId (.assign (listedIds (some listed))) middle last) middle :=
            replaceMembersDone first.1 first.2.1 rfl fun desired read => by rw [← idsGiven read]; rfl
          refine soundMono (membersCome rfl replaced) fun r last ends => ?_
          intro handed ok
          obtain ⟨same,second⟩ := ends handed ok
          exact ⟨same,doneAfter first counted second⟩

theorem patchMembersDone (op : String) (value : Option Json) :
    Served (patchMembers connection account op ((given value).getD (.array [])))
      (fun r last => r = .ok () → Done connection id (MemberPatch.atPath op value).performed server last) server := by
  unfold patchMembers MemberPatch.performed
  by_cases replaces : op = "replace"
  · simp only [replaces,if_true]
    exact replaceMembersDone apart present named fun desired read => by rw [← idsGiven read]; rfl
  · simp only [replaces,if_false]
    by_cases adds : op = "add"
    · simp only [adds,if_true]
      exact addMembersDone apart present named
    · simp only [adds,if_false]
      refine replaceMembersDone apart present named fun desired read => ?_
      cases read
      simp [MemberOperation.apply]

omit apart present named in
theorem refusedComes (e : ScimFailure) (patch : MemberPatch) :
    Served (Program.throw e) (Comes connection id patch.performed server) server := by
  refine servedThrow.mpr ?_
  rintro account ⟨⟩

theorem patchGroupPathComes (operation : Object) (op : String) (path : Option String) :
    Served (patchGroupPath connection id account operation op path)
      (Comes connection id (pathPatch operation op path).performed server) server := by
  unfold patchGroupPath
  simp only
  split
  · rename_i lower
    simp only [pathPatch,lower]
    apply servedIf
    · exact fun _ => refusedComes _ .other
    · exact fun _ => soundMono (renameGroupComes apart present _) fun r last ends => ends.1
  · rename_i lower
    simp only [pathPatch,lower]
    exact membersCome named (patchMembersDone apart present named op _)
  · rename_i notName notMembers
    have shape : pathPatch operation op path = match path.bind memberFilter with
        | some member => .filtered member
        | none => .other := by
      unfold pathPatch
      split
      · exact absurd (by assumption) notName
      · exact absurd (by assumption) notMembers
      · rfl
    rw [shape]
    cases path.bind memberFilter with
    | none => exact refusedComes _ .other
    | some member =>
        apply servedIf
        · exact fun _ => membersCome named (removeMembersDone apart present named [member])
        · exact fun _ => refusedComes _ _

omit apart present named in
theorem operatorMissing : ∃ e, operator [] = .error e := by
  refine ⟨.scim 400 "Unsupported PATCH operation undefined" (some "invalidSyntax"),?_⟩
  decide +kernel

theorem patchGroupOperationComes (operation : Json) : Served (patchGroupOperation connection id account operation)
    (Comes connection id (memberPatch operation).performed server) server := by
  obtain ⟨missing,operatorless⟩ := operatorMissing
  unfold patchGroupOperation
  cases operation with
  | object fields =>
      simp only [properties,liftScim,pureBind,memberPatch]
      cases operator fields with
      | error e => exact refusedComes e .other
      | ok op =>
          simp only [pureBind]
          have byPath : Served (liftScim (pathText fields) >>= fun path => patchGroupPath connection id account fields op path)
              (Comes connection id (match pathText fields with
                | .error _ => MemberPatch.other
                | .ok path => pathPatch fields op path).performed server) server := by
            cases pathText fields with
            | error e => exact refusedComes e .other
            | ok path => exact patchGroupPathComes apart present named fields op path
          cases isTruthyOr (Object.get fields "path") with
          | true => exact byPath
          | false =>
              cases objectValue fields with
              | none => exact byPath
              | some value =>
                  apply servedIf
                  · exact fun _ => refusedComes _ _
                  · exact fun _ => patchGroupValueComes apart present named op value
  | null => exact refusedComes .typeError .other
  | _ =>
      simp only [properties,liftScim,pureBind,operatorless]
      exact refusedComes missing .other

end Patches

structure PatchEntry where
  operation : Json
  listed : Bool

namespace PatchEntry

def meaning (entry : PatchEntry) : MemberOperation := (memberPatch entry.operation).meaning

def performed (entry : PatchEntry) : MemberOperation :=
  if entry.listed then (memberPatch entry.operation).performed else .keep

end PatchEntry

section Requests
variable (connection : ScimConnection) (id : String)

def operationEntries : ScimResource → List Json → List String → ScimServer → List PatchEntry
  | _, [], _, _ => []
  | account, operation :: rest, times, server =>
      match run answerScim (patchGroupOperation connection id account operation) times server with
      | (.ok next,times',after) =>
          ⟨operation,after.unlisted == server.unlisted⟩ :: operationEntries next rest times' after
      | (.error _,_,_) => []

def patchEntries (operations : List Json) (times : List String) (server : ScimServer) : List PatchEntry :=
  match run answerScim (findGroup connection id) times server with
  | (.ok account,times',after) => operationEntries connection id account operations times' after
  | (.error _,_,_) => []

end Requests

section Runs
variable {connection : ScimConnection} {id : String}

theorem ranServed {α : Type} {p : Scim α} {Q : Except ScimFailure α → ScimServer → Prop} {times rest : List String}
    {server last : ScimServer} {r : Except ScimFailure α} (served : Served p Q server)
    (ends : run answerScim p times server = (r,rest,last)) : Q r last := by
  have result := aloneRun served (disciplinedTrivial p times server)
  simpa only [after,ends] using result

theorem operationsCome {operations : List Json} {account result : ScimResource} {times rest : List String}
    {server last : ScimServer} (apart : Apart connection server.directory)
    (present : (server.directory.held connection.uid .group id).isSome) (named : account.accountId = id)
    (ends : run answerScim (patchGroupOperations connection id account operations) times server = (.ok result,rest,last)) :
    (operationEntries connection id account operations times server).map PatchEntry.operation = operations ∧
      membersOfGroup connection last.directory id =
        folded ((operationEntries connection id account operations times server).map PatchEntry.performed)
          (membersOfGroup connection server.directory id) ∧
      ∀ other, other ≠ id →
        membersOfGroup connection last.directory other = membersOfGroup connection server.directory other := by
  induction operations generalizing account times server with
  | nil =>
      cases ends
      exact ⟨rfl,rfl,fun _ _ => rfl⟩
  | cons operation others ih =>
      unfold patchGroupOperations at ends
      obtain ⟨next,times',middle,first,ends⟩ := runBindOk ends
      obtain ⟨here,apart',present',moved⟩ := ranServed (patchGroupOperationComes apart present named operation) first next rfl
      obtain ⟨all,own,apart''⟩ := ih apart' present' here ends
      simp only [operationEntries,first]
      refine ⟨congrArg _ all,?_,fun other different => (apart'' other different).trans (moved.others other different)⟩
      rw [own,moved.own]
      simp only [folded,List.map_cons,List.foldl_cons,PatchEntry.performed,beq_iff_eq]

theorem patchGroupComes {operations : Option Json} {shown : ShownGroup} {times rest : List String}
    {server last : ScimServer} (apart : Apart connection server.directory)
    (accepted : run answerScim (patchGroup connection id operations) times server = (.ok shown,rest,last)) :
    ∃ listed, iterated operations = .ok listed ∧
      (patchEntries connection id listed times server).map PatchEntry.operation = listed ∧
      membersOfGroup connection last.directory id =
        folded ((patchEntries connection id listed times server).map PatchEntry.performed)
          (membersOfGroup connection server.directory id) ∧
      ∀ other, other ≠ id →
        membersOfGroup connection last.directory other = membersOfGroup connection server.directory other := by
  unfold patchGroup at accepted
  obtain ⟨account,times',first,found,accepted⟩ := runBindOk accepted
  have reads : Served (findGroup connection id) (fun r middle => middle.directory = server.directory ∧
      ∀ account, r = .ok account → account.accountId = id ∧ Live connection server.directory account) server := by
    apply findGroupReads
    · exact fun e middle same => ⟨same.directory,by rintro account ⟨⟩⟩
    · exact fun account middle same named live => ⟨same.directory,by rintro _ ⟨⟩; exact ⟨named,live⟩⟩
  obtain ⟨same,live⟩ := ranServed reads found
  obtain ⟨named,live⟩ := live account rfl
  obtain ⟨listed,times₁,_,read,accepted⟩ := runBindOk accepted
  cases shape : iterated operations with
  | error e =>
      rw [shape] at read
      cases read
  | ok listed' =>
      rw [shape] at read
      cases read
      obtain ⟨result,times₂,second,patched,accepted⟩ := runBindOk accepted
      have shows : Served (findGroup connection id >>= groupResource connection)
          (fun _ final => final.directory = second.directory) second := by
        apply servedBind
        apply findGroupReads
        · exact fun e middle same => same.directory
        intro account middle same _ _
        apply groupResourceReads
        exact fun shown final unchanged => unchanged.trans same.directory
      have unchanged := ranServed shows accepted
      have present : (first.directory.held connection.uid .group id).isSome := by
        have stored := live.kind ▸ live.holds.stored
        rw [same,← named]
        simp [stored]
      obtain ⟨all,own,others⟩ := operationsCome (same ▸ apart) present named patched
      rw [same] at own others
      refine ⟨listed,rfl,?_⟩
      simp only [patchEntries,found,unchanged]
      exact ⟨all,own,others⟩

end Runs

def MembershipAlgebra (connection : ScimConnection) (id : String) (operations : List Json)
    (before after : ScimDirectory) : Prop :=
  membersOfGroup connection after id =
      folded (operations.map fun operation => (memberPatch operation).meaning) (membersOfGroup connection before id) ∧
    ∀ other, other ≠ id → membersOfGroup connection after other = membersOfGroup connection before other

/- An accepted request comes to what its operations mean just when, for every user, the last operation that
decides about it, or is meant to, agrees with its meaning. -/
theorem scimMembershipAlgebra (connection : ScimConnection) (id : String) (operations : Option Json)
    (server last : ScimServer) (named : Named connection server.directory) (times rest : List String)
    (shown : ShownGroup)
    (accepted : run answerScim (patchGroup connection id operations) times server = (.ok shown,rest,last)) :
    ∃ listed, iterated operations = .ok listed ∧
      (MembershipAlgebra connection id listed server.directory last.directory ↔
        ∀ user, LastAgrees (user ∈ membersOfGroup connection server.directory id) (fun entry => entry.performed.decides user)
          (fun entry => entry.meaning.decides user) (patchEntries connection id listed times server)) := by
  obtain ⟨listed,read,all,own,others⟩ := patchGroupComes (namedApart named) accepted
  refine ⟨listed,read,?_⟩
  have meanings : listed.map (fun operation => (memberPatch operation).meaning) =
      (patchEntries connection id listed times server).map PatchEntry.meaning := by
    conv => lhs; rw [← all]
    simp [PatchEntry.meaning]
  have each : ∀ user, (user ∈ membersOfGroup connection last.directory id ↔
      user ∈ folded (listed.map fun operation => (memberPatch operation).meaning)
        (membersOfGroup connection server.directory id)) ↔
      LastAgrees (user ∈ membersOfGroup connection server.directory id) (fun entry => entry.performed.decides user)
        (fun entry => entry.meaning.decides user) (patchEntries connection id listed times server) := by
    intro user
    rw [own,meanings,memberFolded,memberFolded,List.map_map,List.map_map]
    exact settledAgree _ _ _ _
  constructor
  · rintro ⟨same,_⟩ user
    exact (each user).mp (by rw [same])
  · intro agree
    exact ⟨Set.ext fun user => (each user).mpr (agree user),others⟩

def provisioned (sourceGroups : List String) : ScimRecord := ⟨"acme",
  {resourceType := "User", active := some true, sourceGroups := sourceGroups, groups := [⟨"codemowers","org-acme"⟩]}⟩

def staffDirectory : ScimDirectory where
  records kind := match kind with
    | .subject => [("scim-u-alice",provisioned ["scim-g-staff"]),("scim-u-bob",provisioned [])]
    | .group => [("scim-g-staff",⟨"acme",{resourceType := "Group", displayName := some "staff"}⟩)]
  unique kind := by cases kind <;> decide

theorem staffNamed : Named mappedConnection staffDirectory where
  subjects name held := by
    simp only [ScimDirectory.held,ScimDirectory.find,staffDirectory,mapGet] at held
    split at held
    · rename_i same
      exact ⟨"alice",same.symm⟩
    · split at held
      · rename_i same
        exact ⟨"bob",same.symm⟩
      · simp at held
  groups name held := by
    simp only [ScimDirectory.held,ScimDirectory.find,staffDirectory,mapGet] at held
    split at held
    · rename_i same
      exact ⟨"staff",same.symm⟩
    · simp at held

def addBob : Json := .object [("op",.string "add"),
  ("value",.object [("members",.array [.object [("value",.string "scim-u-bob")]])])]

def addBobRun : Except ScimFailure ShownGroup × List String × ScimServer :=
  run answerScim (patchGroup mappedConnection "scim-g-staff" (some (.array [addBob]))) [] ⟨staffDirectory,[],0⟩

theorem addBobAccepted : ∃ shown, run answerScim (patchGroup mappedConnection "scim-g-staff" (some (.array [addBob]))) []
    ⟨staffDirectory,[],0⟩ = (.ok shown,addBobRun.2) := by
  have accepted : (addBobRun.1.toOption).isSome = true := by decide +kernel
  cases result : addBobRun.1 with
  | ok shown => exact ⟨shown,Prod.ext result rfl⟩
  | error e =>
      rw [result] at accepted
      cases accepted

/- The addition of bob takes alice out. -/
theorem additionTakesOut : ¬ ∀ (connection : ScimConnection) (id : String) (operations : Option Json) (listed : List Json)
    (server last : ScimServer) (times rest : List String) (shown : ShownGroup),
    Named connection server.directory → iterated operations = .ok listed →
    run answerScim (patchGroup connection id operations) times server = (.ok shown,rest,last) →
    MembershipAlgebra connection id listed server.directory last.directory := by
  intro always
  obtain ⟨shown,accepted⟩ := addBobAccepted
  obtain ⟨own,_⟩ := always mappedConnection "scim-g-staff" (some (.array [addBob])) [addBob] ⟨staffDirectory,[],0⟩
    addBobRun.2.2 [] addBobRun.2.1 shown staffNamed rfl accepted
  have meaning : (memberPatch addBob).meaning = .union ["scim-u-bob"] := by decide +kernel
  have left : ((addBobRun.2.2.directory.held "acme" .subject "scim-u-alice").map (·.sourceGroups)) = some [] := by
    decide +kernel
  have alice : "scim-u-alice" ∈ membersOfGroup mappedConnection addBobRun.2.2.directory "scim-g-staff" := by
    rw [own]
    simp only [List.map_cons,List.map_nil,folded,List.foldl_cons,List.foldl_nil,meaning]
    exact .inl ⟨_,rfl,List.mem_cons_self⟩
  obtain ⟨identity,stored,member⟩ := alice
  have stored : addBobRun.2.2.directory.held "acme" .subject "scim-u-alice" = some identity := stored
  rw [stored] at left
  simp only [Option.map_some,Option.some.injEq] at left
  simp [left] at member

theorem additionDecided : ∃ listed, iterated (some (.array [addBob])) = .ok listed ∧
    (MembershipAlgebra mappedConnection "scim-g-staff" listed staffDirectory addBobRun.2.2.directory ↔
      ∀ user, LastAgrees (user ∈ membersOfGroup mappedConnection staffDirectory "scim-g-staff")
        (fun entry => entry.performed.decides user) (fun entry => entry.meaning.decides user)
        (patchEntries mappedConnection "scim-g-staff" listed [] ⟨staffDirectory,[],0⟩)) := by
  obtain ⟨shown,accepted⟩ := addBobAccepted
  exact scimMembershipAlgebra mappedConnection "scim-g-staff" _ ⟨staffDirectory,[],0⟩ addBobRun.2.2 staffNamed []
    addBobRun.2.1 shown accepted

end Passmower
