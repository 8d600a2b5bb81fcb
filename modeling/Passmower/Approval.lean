import Passmower.LocalGroups
import Passmower.SpecIsolation

/-! Approving an account: what the check says of it afterwards, and what is stored. -/
namespace Passmower
open Resumption Program ObjectPatch

inductive StoredMember (α : Type) where
  | approval (value : Bool)
  | groups (items : List Group)
  | other (value : α)
  deriving DecidableEq

/- `mergeWith(…, mergeReplacingArrays)` and the difference that a patch is made of. -/
structure Merging (α : Type) where
  overlay : Option (StoredMember α) → StoredMember α → StoredMember α
  delta : Delta (StoredMember α)
  self : ∀ value, overlay (some value) value = value
  scalar : ∀ existing value, overlay existing (.approval value) = .approval value
  array : ∀ existing items, overlay existing (.groups items) = .groups items

def storedGroups {α : Type} : Option (StoredMember α) → List Group
  | some (.groups items) => items
  | _ => []

section Approving
variable {α : Type}

def GroupSettings.specValues (settings : GroupSettings) (M : Merging α) : SpecValues (StoredMember α) where
  overlay := M.overlay
  delta := M.delta
  approved := .approval true
  push existing := .groups (storedGroups existing ++ settings.approvedGroup.toList)
  requiredLocal := settings.approvedGroup.isSome
  overlaySelf := M.self
  overlayApproved existing := M.scalar existing true
  overlayPush existing _ := M.array existing _

def isApproved (specs : SpecObject (StoredMember α)) : Bool := match specs.get .passmower "approved" with
  | some (.approval value) => value
  | _ => false

def GroupSettings.checkApproved (settings : GroupSettings) (adminGroup : Option String) (specs : SpecObject (StoredMember α))
    (groups : List Group) : Bool := match truthy settings.requiredGroup with
  | none => true
  | some required =>
      isApproved specs || groups.any fun g => g.displayName = required || some g.displayName = adminGroup

variable [DecidableEq α]

/- `Account.approve`, with no other request in between. -/
def GroupSettings.approve (settings : GroupSettings) (M : Merging α) (accountId : String) (specs : SpecObject (StoredMember α)) :
    Except JsError Unit × SpecObject (StoredMember α) :=
  let ended := run (ω := Unit) (answerSpecs (settings.specValues M) 0) (SpecWriting.approve (settings.specValues M) accountId)
    [(),(),(),()] {object := specs}
  (ended.1,ended.2.2.object)

def GroupSettings.approveTimes (settings : GroupSettings) (M : Merging α) (accountId : String) :
    Nat → SpecObject (StoredMember α) → SpecObject (StoredMember α)
  | 0, specs => specs
  | n + 1, specs => (settings.approve M accountId (settings.approveTimes M accountId n specs)).2

def SameSpec (a b : SpecObject (StoredMember α)) : Prop := (∀ p k, a.get p k = b.get p k) ∧ ∀ p, a p = none ↔ b p = none

end Approving

section Addressed
variable {α : Type} {settings : GroupSettings} {M : Merging α}

theorem approveAddresses {p : SpecPart} {k : String} : SpecOp.approve.Addresses (settings.specValues M) p k ↔
    p = .passmower ∧ (k = "approved" ∨ (settings.approvedGroup ≠ none ∧ k = "groups")) := by
  simp [SpecOp.Addresses,GroupSettings.specValues,Option.isSome_iff_ne_none]

theorem sameSpecTrans {a b c : SpecObject (StoredMember α)} (first : SameSpec a b) (second : SameSpec b c) : SameSpec a c :=
  ⟨fun p k => (first.1 p k).trans (second.1 p k),fun p => (first.2 p).trans (second.2 p)⟩

theorem approvedPrefix {group : Group} (granted : settings.approvedGroup = some group) :
    group.groupPrefix = settings.groupPrefix := by
  unfold GroupSettings.approvedGroup at granted
  obtain ⟨localPrefix,-,granted⟩ := Option.bind_eq_some_iff.mp granted
  obtain ⟨required,-,granted⟩ := Option.bind_eq_some_iff.mp granted
  split at granted
  · cases granted
    rfl
  · cases granted

end Addressed

section Approved
variable {α : Type} [DecidableEq α] {settings : GroupSettings} {M : Merging α} {accountId : String}
  {specs : SpecObject (StoredMember α)}

theorem patchMissing {delta : Delta α} {existing values current after : SpecObject α}
    (patched : patch delta existing values current = some after) {p : SpecPart} (missing : values p = none) :
    after p = current p := by
  unfold patch at patched
  split at patched <;> try contradiction
  cases Option.some.inj patched
  simp only [missing]
  cases existing p <;> rfl

theorem submitStores {V : SpecValues α} {op : SpecOp α} {specs values : SpecObject α} (submits : Submits V op specs values) :
    ∃ after, patch V.delta specs values specs = some after ∧ (∀ p, specs p ≠ none → after p ≠ none) ∧
      ∀ p k, after.get p k = values.get p k := by
  have keeps (p : SpecPart) (k : String) (present : specs.get p k ≠ none) : values.get p k ≠ none := by
    by_cases mine : op.Addresses V p k
    · rw [submits.mine p k mine]
      exact writtenSome mine
    · rw [submits.rest p k mine]
      exact present
  obtain ⟨after,patched,parts,got⟩ := patchedObject V.delta keeps (fun p present => ⟨present,submits.parts p present⟩)
    (fun p missing _ => missing) (fun p k _ => rfl)
  refine ⟨after,patched,parts,fun p k => ?_⟩
  rw [got]
  split
  · rename_i alike
    exact alike.symm
  · rfl

theorem approveStores (settings : GroupSettings) (M : Merging α) (accountId : String) (specs : SpecObject (StoredMember α)) :
    (settings.approve M accountId specs).1 = .ok () ∧
    (∀ p k, SpecOp.approve.Addresses (settings.specValues M) p k →
      (settings.approve M accountId specs).2.get p k = SpecOp.approve.written (settings.specValues M) p k (specs.get p k)) ∧
    (∀ p k, ¬ SpecOp.approve.Addresses (settings.specValues M) p k →
      (settings.approve M accountId specs).2.get p k = specs.get p k) ∧
    ∀ p, p ≠ .passmower → ((settings.approve M accountId specs).2 p = none ↔ specs p = none) := by
  have submits : Submits (settings.specValues M) .approve specs
      (merge (settings.specValues M).overlay specs (SpecWriting.addApproval (settings.specValues M) specs)) :=
    approveSubmits (fun _ _ _ => id) fun _ _ _ => rfl
  obtain ⟨after,patched,parts,stored⟩ := submitStores submits
  let V := settings.specValues M
  let begun : SpecWorld (StoredMember α) := {object := specs}
  let read := (begun.read 0).read 0
  have answered : answerSpecs V 0 () (.patchUser specs (merge V.overlay specs (SpecWriting.addApproval V specs))) read =
      (true,read.write 0 after) := by
    have outcome : read.outcome = .applied := rfl
    have object : read.object = specs := rfl
    simp only [answerSpecs,outcome,object,V,patched]
  have first : answerSpecs V 0 () .getUser begun = (some specs,begun.read 0) := rfl
  have second : answerSpecs V 0 () .getUser (begun.read 0) = (some specs,read) := rfl
  have ended : run (answerSpecs V 0) (SpecWriting.approve V accountId) [(),(),(),()] begun =
      (.ok (),[],read.write 0 after) := by
    unfold SpecWriting.approve
    rw [runAsk]
    simp only [List.headD_cons,List.tail_cons,first]
    unfold SpecWriting.updateUserSpecs
    rw [runAsk]
    simp only [List.headD_cons,List.tail_cons,second]
    rw [runAsk]
    simp only [List.headD_cons,List.tail_cons,answered,if_true]
    rfl
  have whole : settings.approve M accountId specs = (.ok (),after) := by
    unfold GroupSettings.approve
    simp only [V,begun] at ended
    rw [ended]
    rfl
  rw [whole]
  refine ⟨rfl,fun p k mine => (stored p k).trans (submits.mine p k mine),fun p k rest => (stored p k).trans (submits.rest p k rest),
    fun p other => ?_⟩
  have body : SpecWriting.addApproval V specs p = specs p := by
    unfold SpecWriting.addApproval SpecWriting.pushCustomGroup SpecWriting.setApproved SpecWriting.setMember
    split <;> simp [other]
  constructor
  · exact fun missing => by_contra fun present => parts p present missing
  · intro missing
    have submitted : merge (settings.specValues M).overlay specs (SpecWriting.addApproval V specs) p = none := by
      simp [merge,body,missing]
    exact (patchMissing patched submitted).trans missing

theorem approvedMember : (settings.approve M accountId specs).2.get .passmower "approved" = some (.approval true) :=
  (approveStores settings M accountId specs).2.1 .passmower "approved" (approveAddresses.mpr ⟨rfl,.inl rfl⟩)

theorem approvedGroups : storedGroups ((settings.approve M accountId specs).2.get .passmower "groups") =
    storedGroups (specs.get .passmower "groups") ++ settings.approvedGroup.toList := by
  obtain ⟨-,mine,rest,-⟩ := approveStores settings M accountId specs
  cases granted : settings.approvedGroup with
  | none =>
      rw [rest .passmower "groups" fun addressed => by
        rcases (approveAddresses.mp addressed).2 with name | ⟨some,-⟩
        · exact absurd name (by decide)
        · exact some granted]
      simp
  | some group =>
      rw [mine .passmower "groups" (approveAddresses.mpr ⟨rfl,.inr ⟨by simp [granted],rfl⟩⟩)]
      simp [SpecOp.written,GroupSettings.specValues,storedGroups,granted]

theorem approvedChecks (adminGroup : Option String) (groups : List Group) :
    settings.checkApproved adminGroup (settings.approve M accountId specs).2 groups = true := by
  unfold GroupSettings.checkApproved
  cases truthy settings.requiredGroup with
  | none => rfl
  | some required => simp [isApproved,approvedMember]

theorem approvedSame (ungranted : settings.approvedGroup = none) (already : isApproved specs = true) :
    SameSpec (settings.approve M accountId specs).2 specs := by
  obtain ⟨-,mine,rest,parts⟩ := approveStores settings M accountId specs
  have before : specs.get .passmower "approved" = some (.approval true) := by
    unfold isApproved at already
    split at already <;> simp_all
  refine ⟨fun p k => ?_,fun p => ?_⟩
  · by_cases addressed : SpecOp.approve.Addresses (settings.specValues M) p k
    · obtain ⟨rfl,rfl | ⟨some,-⟩⟩ := approveAddresses.mp addressed
      · rw [approvedMember,before]
      · exact absurd ungranted some
    · exact rest p k addressed
  · by_cases here : p = .passmower
    · subst here
      have present {object : SpecObject (StoredMember α)} (there : object.get .passmower "approved" = some (.approval true)) :
          object .passmower ≠ none := by
        intro missing
        simp [Parts.get,missing] at there
      exact iff_of_false (present approvedMember) (present before)
    · exact parts p here

end Approved

/- After an approval the check passes, whatever the groups of the status; groups that are granted are under `GROUP_PREFIX`;
and only `approved` and `groups` change. It is idempotent if and only if the required group is not a local one. -/
theorem approvals {α : Type} [DecidableEq α] (settings : GroupSettings) (adminGroup : Option String) (M : Merging α)
    (accountId : String) (specs : SpecObject (StoredMember α)) :
    ((settings.approve M accountId specs).1 = .ok () ∧
      (∀ groups, settings.checkApproved adminGroup (settings.approve M accountId specs).2 groups = true) ∧
      (∀ g ∈ storedGroups ((settings.approve M accountId specs).2.get .passmower "groups"),
        g ∈ storedGroups (specs.get .passmower "groups") ∨ g.groupPrefix = settings.groupPrefix) ∧
      (∀ p k, ¬ (p = .passmower ∧ (k = "approved" ∨ k = "groups")) →
        (settings.approve M accountId specs).2.get p k = specs.get p k) ∧
      ∀ p, p ≠ .passmower → ((settings.approve M accountId specs).2 p = none ↔ specs p = none)) ∧
    (((isApproved specs = true → SameSpec (settings.approve M accountId specs).2 specs) ∧
      ∀ n, SameSpec (settings.approveTimes M accountId (n + 1) specs) (settings.approve M accountId specs).2) ↔
        settings.approvedGroup = none) := by
  obtain ⟨ended,-,rest,parts⟩ := approveStores settings M accountId specs
  refine ⟨⟨ended,approvedChecks adminGroup,fun g inside => ?_,fun p k other => ?_,parts⟩,⟨?_,?_⟩⟩
  · rw [approvedGroups] at inside
    rcases List.mem_append.mp inside with old | new
    · exact .inl old
    · exact .inr (approvedPrefix (Option.mem_toList.mp new))
  · apply rest p k
    intro addressed
    obtain ⟨here,named | ⟨-,named⟩⟩ := approveAddresses.mp addressed
    · exact other ⟨here,.inl named⟩
    · exact other ⟨here,.inr named⟩
  · intro ⟨_,repeated⟩
    by_contra granted
    obtain ⟨group,granted⟩ := Option.ne_none_iff_exists'.mp granted
    have twice := congrArg storedGroups ((repeated 1).1 .passmower "groups")
    have again : storedGroups ((settings.approveTimes M accountId 2 specs).get .passmower "groups") =
        storedGroups ((settings.approve M accountId specs).2.get .passmower "groups") ++ settings.approvedGroup.toList :=
      approvedGroups
    rw [again,granted] at twice
    simp at twice
  · intro ungranted
    refine ⟨approvedSame ungranted,fun n => ?_⟩
    induction n with
    | zero => exact ⟨fun _ _ => rfl,fun _ => Iff.rfl⟩
    | succ n ih =>
        have already : isApproved (settings.approveTimes M accountId (n + 1) specs) = true := by
          have member : (settings.approveTimes M accountId (n + 1) specs).get .passmower "approved" = some (.approval true) :=
            approvedMember
          simp [isApproved,member]
        exact sameSpecTrans (approvedSame ungranted already) ih

def replacingMembers : Merging Unit where
  overlay _ value := value
  delta := ⟨fun _ values _ => values,fun _ _ => rfl⟩
  self _ := rfl
  scalar _ _ := rfl
  array _ _ := rfl

theorem upstreamApproved : SameSpec
    (({groupPrefix := "passmower", requiredGroup := some "entra:staff"} : GroupSettings).approveTimes replacingMembers "alice" 2
      fun _ => none)
    (({groupPrefix := "passmower", requiredGroup := some "entra:staff"} : GroupSettings).approve replacingMembers "alice"
      fun _ => none).2 :=
  ((approvals {groupPrefix := "passmower", requiredGroup := some "entra:staff"} none replacingMembers "alice" fun _ => none).2.mpr
    (by decide +kernel)).2 1

/- `REQUIRED_GROUP=passmower:staff`: an account that has been approved gets the group once more. -/
theorem grantedTwice : ¬ ∀ (settings : GroupSettings) (M : Merging Unit) (accountId : String) (specs : SpecObject (StoredMember Unit)),
    isApproved specs = true → SameSpec (settings.approve M accountId specs).2 specs := by
  intro always
  let settings : GroupSettings := {groupPrefix := "passmower", requiredGroup := some "passmower:staff"}
  have same := (always settings replacingMembers "alice" (settings.approve replacingMembers "alice" fun _ => none).2 (by decide +kernel)).1
    .passmower "groups"
  exact absurd same (by decide +kernel)

end Passmower
