import Mathlib.Data.List.AList
import Mathlib.Data.Fintype.Basic

/-! Objects of two levels, parts with members, what merging a body into one does, and patches: the difference of
two objects, put on the object there is by then. A part that the first of them lacks is added whole. -/
namespace ObjectPatch

/- The difference of two values, put on the value there is by then; on the one it was computed from it gives the
desired one. -/
structure Delta (α : Type) where
  apply : (existing values current : α) → α
  exact : ∀ existing values, apply existing values existing = values

abbrev Members (κ α : Type) := AList fun _ : κ => α

inductive Change (α : Type) where
  | add (value : α)
  | replace (existing value : α)

def changeOf {α : Type} [DecidableEq α] : Option α → α → Option (Change α)
  | none, value => some (.add value)
  | some existing, value => if existing = value then none else some (.replace existing value)

def Change.apply {α : Type} (delta : Delta α) : Change α → Option α → Option α
  | .add value, _ => some value
  | .replace existing value, current => current.map (delta.apply existing value)

section Members
variable {κ α : Type} [DecidableEq κ]

def mergeMembers (overlay : Option α → α → α) (members body : Members κ α) : Members κ α :=
  body.entries.foldl (fun merged entry => merged.insert entry.1 (overlay (merged.lookup entry.1) entry.2)) members

def applyChange (delta : Delta α) (current : Members κ α) (entry : κ × Change α) : Option (Members κ α) :=
  (entry.2.apply delta (current.lookup entry.1)).map (current.insert entry.1)

def applyChanges (delta : Delta α) (changes : List (κ × Change α)) (current : Members κ α) : Option (Members κ α) :=
  changes.foldlM (applyChange delta) current

def diffMembers [DecidableEq α] (existing values : Members κ α) : List (κ × Change α) :=
  values.entries.filterMap fun entry => (changeOf (existing.lookup entry.1) entry.2).map fun change => (entry.1,change)

theorem mergedMember (overlay : Option α → α → α) (members body : Members κ α) (k : κ) :
    (mergeMembers overlay members body).lookup k = match body.lookup k with
      | some value => some (overlay (members.lookup k) value)
      | none => members.lookup k := by
  induction body using AList.insertRec generalizing members with
  | H0 => rfl
  | IH key value rest fresh ih =>
      have folded : mergeMembers overlay members (rest.insert key value) =
          mergeMembers overlay (members.insert key (overlay (members.lookup key) value)) rest := by
        unfold mergeMembers
        rw [AList.entries_insert_of_notMem fresh]
        rfl
      rw [folded,ih]
      by_cases same : k = key
      · subst same
        rw [AList.lookup_insert,AList.lookup_eq_none.mpr fresh,AList.lookup_insert]
      · rw [AList.lookup_insert_ne same,AList.lookup_insert_ne same]

theorem appliedChanges (delta : Delta α) (values : κ → Option α) {changes : List (κ × Change α)} {current : Members κ α}
    (unique : (changes.map Prod.fst).Nodup)
    (each : ∀ entry ∈ changes, ∃ value, values entry.1 = some value ∧
      entry.2.apply delta (current.lookup entry.1) = some value) :
    ∃ after, applyChanges delta changes current = some after ∧
      ∀ k, after.lookup k = if k ∈ changes.map Prod.fst then values k else current.lookup k := by
  induction changes generalizing current with
  | nil => exact ⟨current,rfl,fun k => by simp⟩
  | cons entry rest ih =>
      obtain ⟨value,wanted,first⟩ := each entry List.mem_cons_self
      obtain ⟨fresh,unique⟩ := List.nodup_cons.mp unique
      have step : applyChange delta current entry = some (current.insert entry.1 value) := by
        simp [applyChange,first]
      have each' : ∀ other ∈ rest, ∃ value', values other.1 = some value' ∧
          other.2.apply delta ((current.insert entry.1 value).lookup other.1) = some value' := by
        intro other inside
        have apart : other.1 ≠ entry.1 := fun same => fresh (same ▸ List.mem_map_of_mem inside)
        rw [AList.lookup_insert_ne apart]
        exact each other (List.mem_cons_of_mem _ inside)
      obtain ⟨after,applied,looked⟩ := ih unique each'
      refine ⟨after,?_,fun k => ?_⟩
      · rw [applyChanges,List.foldlM_cons,step]
        exact applied
      · rw [looked]
        by_cases later : k ∈ rest.map Prod.fst
        · simp [later]
        · by_cases same : k = entry.1
          · subst same
            simp [later,wanted]
          · simp [later,same,AList.lookup_insert_ne same]

variable [DecidableEq α]

theorem diffMember {existing values : Members κ α} {k : κ} {change : Change α} : (k,change) ∈ diffMembers existing values ↔
    ∃ value, values.lookup k = some value ∧ changeOf (existing.lookup k) value = some change := by
  simp only [diffMembers,List.mem_filterMap,Option.map_eq_some_iff,Prod.mk.injEq]
  constructor
  · intro ⟨entry,inside,found,changed,key,same⟩
    subst key same
    exact ⟨entry.2,AList.mem_lookup_iff.mpr inside,changed⟩
  · intro ⟨value,inside,changed⟩
    exact ⟨⟨k,value⟩,AList.mem_lookup_iff.mp inside,change,changed,rfl,rfl⟩

theorem diffUnique (existing values : Members κ α) : ((diffMembers existing values).map Prod.fst).Nodup := by
  have keys : ∀ entries : List (Sigma fun _ : κ => α),
      ((entries.filterMap fun entry => (changeOf (existing.lookup entry.1) entry.2).map fun change => (entry.1,change)).map
        Prod.fst).Sublist (entries.map Sigma.fst) := by
    intro entries
    induction entries with
    | nil => exact List.Sublist.slnil
    | cons entry rest ih =>
        cases changed : changeOf (existing.lookup entry.1) entry.2 with
        | none => simpa [changed] using ih.cons entry.1
        | some change => simpa [changed] using ih
  exact values.keys_nodup.sublist (keys values.entries)

theorem changed {existing : Option α} {value : α} : (∃ change, changeOf existing value = some change) ↔ existing ≠ some value := by
  cases existing with
  | none => simp [changeOf]
  | some old => by_cases same : old = value <;> simp [changeOf,same]

theorem changeExact {delta : Delta α} {existing : Option α} {value : α} {change : Change α}
    (made : changeOf existing value = some change) : change.apply delta existing = some value := by
  cases existing with
  | none =>
      cases made
      rfl
  | some old =>
      simp only [changeOf,Option.ite_none_left_eq_some,Option.some.injEq] at made
      obtain ⟨_,rfl⟩ := made
      simp [Change.apply,delta.exact]

theorem patchedMembers {existing values current : Members κ α} (delta : Delta α)
    (keeps : ∀ k, existing.lookup k ≠ none → values.lookup k ≠ none)
    (same : ∀ k, values.lookup k ≠ existing.lookup k → current.lookup k = existing.lookup k) :
    ∃ after, applyChanges delta (diffMembers existing values) current = some after ∧
      ∀ k, after.lookup k = if values.lookup k = existing.lookup k then current.lookup k else values.lookup k := by
  have each : ∀ entry ∈ diffMembers existing values, ∃ value, values.lookup entry.1 = some value ∧
      entry.2.apply delta (current.lookup entry.1) = some value := by
    intro entry inside
    obtain ⟨value,wanted,made⟩ := diffMember.mp inside
    have differs : existing.lookup entry.1 ≠ some value := changed.mp ⟨entry.2,made⟩
    rw [same entry.1 fun alike => differs (alike.symm.trans wanted)]
    exact ⟨value,wanted,changeExact made⟩
  obtain ⟨after,applied,looked⟩ := appliedChanges delta values.lookup (diffUnique existing values) each
  refine ⟨after,applied,fun k => ?_⟩
  rw [looked]
  have inside : k ∈ (diffMembers existing values).map Prod.fst ↔ values.lookup k ≠ existing.lookup k := by
    constructor
    · intro inside
      obtain ⟨entry,listed,rfl⟩ := List.mem_map.mp inside
      obtain ⟨value,wanted,made⟩ := diffMember.mp listed
      exact fun alike => changed.mp ⟨entry.2,made⟩ (alike.symm.trans wanted)
    · intro differs
      cases wanted : values.lookup k with
      | none =>
          cases there : existing.lookup k with
          | none => exact absurd (wanted.trans there.symm) differs
          | some old => exact absurd wanted (keeps k (by simp [there]))
      | some value =>
          obtain ⟨change,made⟩ := changed.mpr fun alike => differs (wanted.trans alike.symm)
          exact List.mem_map.mpr ⟨(k,change),diffMember.mpr ⟨value,wanted,made⟩,rfl⟩
  by_cases alike : values.lookup k = existing.lookup k
  · rw [if_neg fun member => inside.mp member alike,if_pos alike]
  · rw [if_pos (inside.mpr alike),if_neg alike]

end Members

section Parts
variable {ι κ α : Type} [DecidableEq κ]

abbrev Parts (ι κ α : Type) := ι → Option (Members κ α)

def Parts.get (object : Parts ι κ α) (p : ι) (k : κ) : Option α := (object p).bind (·.lookup k)

def merge (overlay : Option α → α → α) (object body : Parts ι κ α) : Parts ι κ α := fun p => match body p with
  | none => object p
  | some members => some (mergeMembers overlay ((object p).getD ∅) members)

theorem mergedGet (overlay : Option α → α → α) (object body : Parts ι κ α) (p : ι) (k : κ) :
    (merge overlay object body).get p k = match body.get p k with
      | some value => some (overlay (object.get p k) value)
      | none => object.get p k := by
  unfold Parts.get merge
  cases body p with
  | none => rfl
  | some members =>
      simp only [Option.bind_some,mergedMember]
      cases object p <;> rfl

variable [DecidableEq α]

/- One part of a patch: none where the patch is rejected. Objects are only ever merged into, so no part and no
member is removed. -/
def patchPart (delta : Delta α) (existing values current : Option (Members κ α)) : Option (Option (Members κ α)) :=
  match existing, values with
  | _, none => some current
  | none, some members => some (some members)
  | some old, some members => match diffMembers old members with
      | [] => some current
      | changes => (current.bind (applyChanges delta changes)).map some

def patch [Fintype ι] (delta : Delta α) (existing values current : Parts ι κ α) : Option (Parts ι κ α) :=
  if ∀ p, (patchPart delta (existing p) (values p) (current p)).isSome then
    some fun p => (patchPart delta (existing p) (values p) (current p)).join
  else none

theorem patchedBoth {delta : Delta α} {old members there : Members κ α}
    (keeps : ∀ k, old.lookup k ≠ none → members.lookup k ≠ none)
    (same : ∀ k, members.lookup k ≠ old.lookup k → there.lookup k = old.lookup k) :
    ∃ after, patchPart delta (some old) (some members) (some there) = some (some after) ∧
      ∀ k, after.lookup k = if members.lookup k = old.lookup k then there.lookup k else members.lookup k := by
  obtain ⟨after,applied,looked⟩ := patchedMembers delta keeps same
  refine ⟨after,?_,looked⟩
  simp only [patchPart]
  split
  · rename_i unchanged
    rw [unchanged] at applied
    cases applied
    rfl
  · simp [applied]

theorem patchedObject [Fintype ι] (delta : Delta α) {existing values current : Parts ι κ α}
    (keeps : ∀ p k, existing.get p k ≠ none → values.get p k ≠ none)
    (parts : ∀ p, existing p ≠ none → current p ≠ none ∧ values p ≠ none)
    (missing : ∀ p, existing p = none → values p ≠ none → current p = none)
    (same : ∀ p k, values.get p k ≠ existing.get p k → current.get p k = existing.get p k) :
    ∃ after, patch delta existing values current = some after ∧ (∀ p, current p ≠ none → after p ≠ none) ∧
      ∀ p k, after.get p k = if values.get p k = existing.get p k then current.get p k else values.get p k := by
  have each : ∀ p, ∃ part, patchPart delta (existing p) (values p) (current p) = some part ∧ (current p ≠ none → part ≠ none) ∧
      ∀ k, part.bind (·.lookup k) = if values.get p k = existing.get p k then current.get p k else values.get p k := by
    intro p
    have keeps := keeps p
    have parts := parts p
    have missing := missing p
    have same := same p
    unfold Parts.get at keeps same ⊢
    generalize existing p = old at *
    generalize values p = wanted at *
    generalize current p = there at *
    cases old with
    | none =>
        cases wanted with
        | none => exact ⟨there,rfl,id,fun k => by simp⟩
        | some members =>
            cases missing rfl (by simp)
            refine ⟨some members,rfl,fun never => absurd rfl never,fun k => ?_⟩
            simp only [Option.bind_some,Option.bind_none]
            by_cases absent : members.lookup k = none
            · rw [if_pos absent,absent]
            · rw [if_neg absent]
    | some old =>
        obtain ⟨present,covered⟩ := parts (by simp)
        obtain ⟨there,rfl⟩ := Option.ne_none_iff_exists'.mp present
        obtain ⟨members,rfl⟩ := Option.ne_none_iff_exists'.mp covered
        obtain ⟨after,patched,looked⟩ := @patchedBoth _ _ _ _ delta old members there keeps same
        exact ⟨some after,patched,fun _ => by simp,looked⟩
  have accepted : ∀ p, (patchPart delta (existing p) (values p) (current p)).isSome := by
    intro p
    obtain ⟨part,patched,_⟩ := each p
    simp [patched]
  refine ⟨_,if_pos accepted,fun p present => ?_,fun p k => ?_⟩
  · obtain ⟨part,patched,kept,_⟩ := each p
    simpa [patched] using kept present
  · obtain ⟨part,patched,_,looked⟩ := each p
    simpa [Parts.get,patched] using looked k

end Parts

structure Patching (α : Type) where
  apply : α → α → α → Option α
  unchanged : ∀ existing current, apply existing existing current = some current

namespace Patching
variable {α : Type}

def Exact (P : Patching α) : Prop := ∀ existing values, P.apply existing values existing = some values

theorem unchangedOf {P : Patching α} {existing values current patched : α}
    (done : P.apply existing values current = some patched) (same : existing = values) : current = patched := by
  rw [same,P.unchanged] at done
  exact Option.some.inj done

theorem exactOf {P : Patching α} (exact : P.Exact) {existing values current patched : α}
    (done : P.apply existing values current = some patched) (same : existing = current) : values = patched := by
  rw [same,exact] at done
  exact Option.some.inj done

variable [DecidableEq α]

def whole : Patching α where
  apply existing values current := some (if existing = values then current else values)
  unchanged existing current := by simp

def optional : Patching (Option α) where
  apply existing values current :=
    if existing = values then some current
    else match existing, current with
      | none, _ | some _, some _ => some values
      | some _, none => none
  unchanged existing current := by simp

theorem wholeExact : (whole : Patching α).Exact := by
  intro existing values
  by_cases same : existing = values <;> simp [whole,same]

theorem optionalExact : (optional : Patching (Option α)).Exact := by
  intro existing values
  by_cases same : existing = values
  · simp [optional,same]
  · cases existing <;> simp [optional,same]

end Patching
end ObjectPatch
