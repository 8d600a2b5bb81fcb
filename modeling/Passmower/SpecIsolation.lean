import Passmower.SpecWrites

/-! What concurrent writes to different fields of one spec leave behind, when no patch adds a part that somebody has
created since, and no approval submits a field that has changed since. -/
namespace Passmower
open Resumption Program ObjectPatch

namespace SpecOp
variable {α : Type} (V : SpecValues α)

def Addresses : SpecOp α → SpecPart → String → Prop
  | .update body, p, k => body.get p k ≠ none
  | .approve, p, k => p = .passmower ∧ (k = "approved" ∨ (V.requiredLocal = true ∧ k = "groups"))

def written : SpecOp α → SpecPart → String → Option α → Option α
  | .update body, p, k, old => (body.get p k).map (V.overlay old)
  | .approve, _, k, old => some (if k = "approved" then V.approved else V.push old)

def Apart (a b : SpecOp α) : Prop := ∀ p k, ¬ (a.Addresses V p k ∧ b.Addresses V p k)

end SpecOp

namespace SpecWorld
variable {α : Type} (V : SpecValues α) (start : SpecObject α)

structure Isolated (s : SpecWorld α) : Prop where
  written : ∀ n op, (n,op) ∈ s.applied → ∀ p k, op.Addresses V p k → s.object.get p k = op.written V p k (start.get p k)
  others : ∀ p k, (∀ n op, (n,op) ∈ s.applied → ¬ op.Addresses V p k) → s.object.get p k = start.get p k
  succeeded : ∀ entry ∈ s.succeeded, entry ∈ s.applied

structure Isolating (s : SpecWorld α) : Prop extends Isolated V start s where
  apart : ∀ n m a b, n ≠ m → s.begun n = some a → s.begun m = some b → a.Apart V b
  begun : ∀ n op, (n,op) ∈ s.applied → s.begun n = some op

/- A part that the patch is to add is still missing, and no field that the operation has read had changed by its last
read. -/
def Unspoiled (n : Nat) (s : SpecWorld α) : SpecCall α → Prop
  | .patchUser existing values => s.outcome = .refused ∨
      ((∀ p, existing p = none → values p ≠ none → s.object p = none) ∧
        ∀ read ∈ s.reads n, ∀ p k value, read.get p k = some value → existing.get p k = some value)
  | _ => True

structure Own (n : Nat) (a b : SpecWorld α) : Prop where
  isolating : b.Isolating V start
  parts : ∀ p, a.object p ≠ none → b.object p ≠ none
  notes : ∀ m, m ≠ n → b.begun m = a.begun m ∧ b.reads m = a.reads m ∧ ∀ op, (m,op) ∈ b.applied ↔ (m,op) ∈ a.applied
  fields : ∀ m op, m ≠ n → a.begun m = some op → ∀ p k, op.Addresses V p k → b.object.get p k = a.object.get p k

structure Foreign (n : Nat) (a b : SpecWorld α) : Prop where
  isolating : b.Isolating V start
  parts : ∀ p, a.object p ≠ none → b.object p ≠ none
  notes : b.begun n = a.begun n ∧ b.reads n = a.reads n ∧ ∀ op, (n,op) ∈ b.applied ↔ (n,op) ∈ a.applied
  fields : ∀ op, a.begun n = some op → ∀ p k, op.Addresses V p k → b.object.get p k = a.object.get p k

def writing (n : Nat) : Contract (specWrites α) (SpecWorld α) := ⟨Unspoiled n,Foreign V start n,Own V start n⟩

structure Pending (n : Nat) (op : SpecOp α) (s : SpecWorld α) : Prop where
  begun : s.begun n = some op
  unapplied : ∀ other, (n,other) ∉ s.applied
  parts : ∀ read ∈ s.reads n, ∀ p, read p ≠ none → s.object p ≠ none
  fields : ∀ read ∈ s.reads n, ∀ p k, op.Addresses V p k → s.object.get p k = read.get p k

section Steps
variable {V start} {n m : Nat} {op : SpecOp α} {a b c s : SpecWorld α}

theorem foreignTrans (first : Foreign V start n a b) (second : Foreign V start n b c) : Foreign V start n a c where
  isolating := second.isolating
  parts p present := second.parts p (first.parts p present)
  notes := ⟨second.notes.1.trans first.notes.1,second.notes.2.1.trans first.notes.2.1,
    fun op => (second.notes.2.2 op).trans (first.notes.2.2 op)⟩
  fields op begun p k mine :=
    (second.fields op (first.notes.1.trans begun) p k mine).trans (first.fields op begun p k mine)

theorem ownForeign (apart : n ≠ m) (own : Own V start n a b) : Foreign V start m a b :=
  ⟨own.isolating,own.parts,own.notes m apart.symm,fun op => own.fields m op apart.symm⟩

theorem ownTrans (first : Own V start n a b) (second : Own V start n b c) : Own V start n a c where
  isolating := second.isolating
  parts p present := second.parts p (first.parts p present)
  notes m other := ⟨(second.notes m other).1.trans (first.notes m other).1,
    (second.notes m other).2.1.trans (first.notes m other).2.1,
    fun op => ((second.notes m other).2.2 op).trans ((first.notes m other).2.2 op)⟩
  fields m op other begun p k addressed := (second.fields m op other ((first.notes m other).1.trans begun) p k addressed).trans
    (first.fields m op other begun p k addressed)

theorem pendingLater (pending : Pending V n op a) (moved : Foreign V start n a b) : Pending V n op b where
  begun := moved.notes.1.trans pending.begun
  unapplied other inside := pending.unapplied other ((moved.notes.2.2 other).mp inside)
  parts := by
    rw [moved.notes.2.1]
    exact fun read inside p present => moved.parts p (pending.parts read inside p present)
  fields := by
    rw [moved.notes.2.1]
    intro read inside p k mine
    exact (moved.fields op pending.begun p k mine).trans (pending.fields read inside p k mine)

theorem ownNote (isolating : b.Isolating V start) (object : b.object = a.object) (applied : b.applied = a.applied)
    (notes : ∀ m, m ≠ n → b.begun m = a.begun m ∧ b.reads m = a.reads m) : Own V start n a b where
  isolating := isolating
  parts p present := by
    rw [object]
    exact present
  notes m other := ⟨(notes m other).1,(notes m other).2,fun op => by rw [applied]⟩
  fields _ _ _ _ p k _ := by rw [object]

theorem ownSelf (isolating : s.Isolating V start) : Own V start n s s := ownNote isolating rfl rfl fun _ _ => ⟨rfl,rfl⟩

theorem readOwn (isolating : s.Isolating V start) : Own V start n s (s.read n) :=
  ownNote ⟨⟨isolating.written,isolating.others,isolating.succeeded⟩,isolating.apart,isolating.begun⟩ rfl rfl
    fun _ other => ⟨rfl,if_neg other⟩

theorem readsOwn (s : SpecWorld α) (n : Nat) : (s.read n).reads n = s.reads n ++ [s.object] := if_pos rfl

theorem readPending (pending : Pending V n op s) : Pending V n op (s.read n) where
  begun := pending.begun
  unapplied := pending.unapplied
  parts := by
    intro read inside p present
    rw [readsOwn] at inside
    rcases List.mem_append.mp inside with old | new
    · exact pending.parts read old p present
    · cases List.mem_singleton.mp new
      exact present
  fields := by
    intro read inside p k mine
    rw [readsOwn] at inside
    rcases List.mem_append.mp inside with old | new
    · exact pending.fields read old p k mine
    · cases List.mem_singleton.mp new
      rfl

end Steps
end SpecWorld

section Submitting
variable {α : Type} {V : SpecValues α} {op : SpecOp α} {specs first values : SpecObject α}

structure Submits (V : SpecValues α) (op : SpecOp α) (specs values : SpecObject α) : Prop where
  mine : ∀ p k, op.Addresses V p k → values.get p k = op.written V p k (specs.get p k)
  rest : ∀ p k, ¬ op.Addresses V p k → values.get p k = specs.get p k
  parts : ∀ p, specs p ≠ none → values p ≠ none

theorem mergedPart (overlay : Option α → α → α) (specs body : SpecObject α) (p : SpecPart) (present : specs p ≠ none) :
    merge overlay specs body p ≠ none := by
  unfold merge
  cases body p with
  | none => exact present
  | some members => simp

theorem updateSubmits (body : SpecObject α) : Submits V (.update body) specs (merge V.overlay specs body) where
  mine p k addressed := by
    obtain ⟨value,named⟩ := Option.ne_none_iff_exists'.mp addressed
    rw [mergedGet,named]
    simp [SpecOp.written,named]
  rest p k other := by
    rw [mergedGet,not_not.mp other]
  parts := mergedPart V.overlay specs body

theorem memberSet (part : SpecPart) (name : String) (value : Option α → α) (p : SpecPart) (k : String) :
    (SpecWriting.setMember part name value specs).get p k =
      if p = part ∧ k = name then some (value (specs.get p k)) else specs.get p k := by
  unfold SpecWriting.setMember Parts.get
  by_cases here : p = part
  · subst here
    have lookup : ∀ other, ((specs p).getD ∅).lookup other = (specs p).bind (·.lookup other) := by
      intro other
      cases specs p <;> rfl
    by_cases named : k = name
    · subst named
      simp [AList.lookup_insert,lookup]
    · simp [AList.lookup_insert_ne named,lookup,named]
  · simp [here]

theorem approvalMine (p : SpecPart) (k : String) (addressed : SpecOp.approve.Addresses V p k) :
    (SpecWriting.addApproval V first).get p k = SpecOp.approve.written V p k (first.get p k) := by
  obtain ⟨rfl,name⟩ := addressed
  unfold SpecWriting.addApproval SpecWriting.pushCustomGroup SpecWriting.setApproved SpecOp.written
  rcases name with rfl | ⟨granting,rfl⟩
  · cases V.requiredLocal <;> simp [memberSet]
  · simp [granting,memberSet]

theorem approvalRest (p : SpecPart) (k : String) (other : ¬ SpecOp.approve.Addresses V p k) :
    (SpecWriting.addApproval V first).get p k = first.get p k := by
  have apart : ¬ (p = .passmower ∧ (k = "approved" ∨ (V.requiredLocal = true ∧ k = "groups"))) := other
  unfold SpecWriting.addApproval SpecWriting.pushCustomGroup SpecWriting.setApproved
  by_cases granting : V.requiredLocal = true
  · rw [if_pos granting,memberSet,memberSet]
    grind
  · rw [if_neg granting,memberSet]
    grind

theorem approveSubmits (stale : ∀ p k value, first.get p k = some value → specs.get p k = some value)
    (mine : ∀ p k, SpecOp.approve.Addresses V p k → specs.get p k = first.get p k) :
    Submits V .approve specs (merge V.overlay specs (SpecWriting.addApproval V first)) where
  mine p k addressed := by
    rw [mergedGet,approvalMine p k addressed,mine p k addressed]
    simp only [SpecOp.written,Option.some.injEq]
    by_cases name : k = "approved"
    · rw [if_pos name,V.overlayApproved]
    · rw [if_neg name,V.overlayPush]
  rest p k other := by
    rw [mergedGet,approvalRest p k other]
    cases read : first.get p k with
    | none => rfl
    | some value =>
        rw [stale p k value read]
        exact congrArg some (V.overlaySelf value)
  parts := mergedPart V.overlay specs _

theorem writtenSome {p : SpecPart} {k : String} {old : Option α} (addressed : op.Addresses V p k) :
    op.written V p k old ≠ none := by
  cases op with
  | approve => simp [SpecOp.written]
  | update body => simpa [SpecOp.written,SpecOp.Addresses] using addressed

end Submitting

namespace SpecWorld
section Patching
variable {α : Type} {V : SpecValues α} {start specs values : SpecObject α} {n : Nat} {op : SpecOp α} {s : SpecWorld α}

theorem freshOwn {t : SpecWorld α} (own : Own V start n s t) {m : Nat} (other : m ≠ n)
    (fresh : s.begun m = none ∧ ∀ op, (m,op) ∉ s.applied) : t.begun m = none ∧ ∀ op, (m,op) ∉ t.applied :=
  ⟨(own.notes m other).1.trans fresh.1,fun op inside => fresh.2 op (((own.notes m other).2.2 op).mp inside)⟩

theorem unaddressed (isolating : s.Isolating V start) (pending : Pending V n op s) {p : SpecPart} {k : String}
    (mine : op.Addresses V p k) : s.object.get p k = start.get p k := by
  refine isolating.others p k fun m other applied theirs => ?_
  have apart : n ≠ m := fun same => pending.unapplied other (same ▸ applied)
  exact isolating.apart n m op other apart pending.begun (isolating.begun m other applied) p k ⟨mine,theirs⟩

structure Patched (V : SpecValues α) (start : SpecObject α) (op : SpecOp α) (object after : SpecObject α) : Prop where
  parts : ∀ p, object p ≠ none → after p ≠ none
  mine : ∀ p k, op.Addresses V p k → after.get p k = op.written V p k (start.get p k)
  rest : ∀ p k, ¬ op.Addresses V p k → after.get p k = object.get p k

theorem writtenApplied {after : SpecObject α} (begun : s.begun n = some op) (m : Nat) (other : SpecOp α) :
    (m,other) ∈ (s.write n after).applied ↔ (m,other) ∈ s.applied ∨ (m = n ∧ other = op) := by
  simp [write,begun]

theorem patchedOwn {after : SpecObject α} (isolating : s.Isolating V start) (pending : Pending V n op s)
    (patched : Patched V start op s.object after) : Own V start n s (s.write n after) := by
  have listed := @writtenApplied α n op s after pending.begun
  have others : ∀ m other, (m,other) ∈ s.applied → other.Apart V op := by
    intro m other inside
    have apart : m ≠ n := fun same => pending.unapplied other (same ▸ inside)
    exact isolating.apart m n other op apart (isolating.begun m other inside) pending.begun
  refine ⟨⟨⟨?_,?_,?_⟩,isolating.apart,?_⟩,patched.parts,?_,?_⟩
  · intro m other inside p k addressed
    rcases (listed m other).mp inside with old | ⟨_,rfl⟩
    · have untouched := patched.rest p k fun ours => others m other old p k ⟨addressed,ours⟩
      exact untouched.trans (isolating.written m other old p k addressed)
    · exact patched.mine p k addressed
  · intro p k nobody
    have untouched := patched.rest p k (nobody n op ((listed n op).mpr (.inr ⟨rfl,rfl⟩)))
    exact untouched.trans (isolating.others p k fun m other inside => nobody m other ((listed m other).mpr (.inl inside)))
  · intro entry inside
    exact (listed entry.1 entry.2).mpr (.inl (isolating.succeeded entry inside))
  · intro m other inside
    rcases (listed m other).mp inside with old | ⟨rfl,rfl⟩
    · exact isolating.begun m other old
    · exact pending.begun
  · intro m apart
    refine ⟨rfl,rfl,fun other => ?_⟩
    rw [listed]
    exact or_iff_left fun ours => apart ours.1
  · intro m other apart begun p k addressed
    exact patched.rest p k fun ours => isolating.apart m n other op apart begun pending.begun p k ⟨addressed,ours⟩

variable [DecidableEq α]

theorem patchPatches (isolating : s.Isolating V start) (pending : Pending V n op s) (read : specs ∈ s.reads n)
    (submits : Submits V op specs values) (missing : ∀ p, specs p = none → values p ≠ none → s.object p = none) :
    ∃ after, patch V.delta specs values s.object = some after ∧ Patched V start op s.object after := by
  have keeps : ∀ p k, specs.get p k ≠ none → values.get p k ≠ none := by
    intro p k present
    by_cases mine : op.Addresses V p k
    · rw [submits.mine p k mine]
      exact writtenSome mine
    · rw [submits.rest p k mine]
      exact present
  have same : ∀ p k, values.get p k ≠ specs.get p k → s.object.get p k = specs.get p k := by
    intro p k differs
    by_cases mine : op.Addresses V p k
    · exact pending.fields specs read p k mine
    · exact absurd (submits.rest p k mine) differs
  obtain ⟨after,patched,parts,got⟩ := patchedObject V.delta keeps
    (fun p present => ⟨pending.parts specs read p present,submits.parts p present⟩) missing same
  refine ⟨after,patched,parts,fun p k addressed => ?_,fun p k other => ?_⟩
  · have now := pending.fields specs read p k addressed
    rw [got,← unaddressed isolating pending addressed,now,submits.mine p k addressed]
    split
    · rename_i alike
      exact alike.symm
    · rfl
  · rw [got,if_pos (submits.rest p k other)]

theorem patchOwn (isolating : s.Isolating V start) (pending : Pending V n op s) (read : specs ∈ s.reads n)
    (submits : Submits V op specs values) (missing : ∀ p, specs p = none → values p ≠ none → s.object p = none) :
    ∃ after, patch V.delta specs values s.object = some after ∧ Own V start n s (s.write n after) ∧
      (n,op) ∈ (s.write n after).applied := by
  obtain ⟨after,result,patched⟩ := patchPatches isolating pending read submits missing
  exact ⟨after,result,patchedOwn isolating pending patched,(writtenApplied pending.begun n op).mpr (.inr ⟨rfl,rfl⟩)⟩

end Patching

section Threads
variable {α : Type} {V : SpecValues α} {accountId : String} {start body : SpecObject α} {n : Nat} {op : SpecOp α}
  {t u s : SpecWorld α}

def Ended (V : SpecValues α) (start : SpecObject α) (n : Nat) (op : SpecOp α) (r : Except JsError Unit) (t u : SpecWorld α) :
    Prop := Own V start n t u ∧ u.begun n = some op ∧ (r = .ok () → (n,op) ∈ u.applied)

theorem failedEnded {e : JsError} (own : Own V start n t u) (begun : u.begun n = some op) :
    Ended V start n op (.error e) t u := ⟨own,begun,fun never => by cases never⟩

theorem succeedOwn (isolating : s.Isolating V start) (begun : s.begun n = some op) (applied : (n,op) ∈ s.applied) :
    Own V start n s (s.succeed n) := by
  refine ownNote ⟨⟨isolating.written,isolating.others,fun entry inside => ?_⟩,isolating.apart,isolating.begun⟩ rfl rfl
    fun _ _ => ⟨rfl,rfl⟩
  simp only [succeed,begun,Option.map_some,Option.toList_some,List.mem_append,List.mem_singleton] at inside
  rcases inside with old | rfl
  · exact isolating.succeeded entry old
  · exact applied

theorem beginOwn (isolating : s.Isolating V start) (unapplied : ∀ other, (n,other) ∉ s.applied)
    (apart : ∀ m other, m ≠ n → s.begun m = some other → op.Apart V other) : Own V start n s (s.begin n op) := by
  refine ownNote ⟨⟨isolating.written,isolating.others,isolating.succeeded⟩,?_,?_⟩ rfl rfl
    fun _ other => ⟨if_neg other,if_neg other⟩
  · intro i j a b different first second
    simp only [begin] at first second
    by_cases left : i = n
    · rw [if_pos left] at first
      rw [if_neg fun right => different (left.trans right.symm)] at second
      cases first
      exact apart j b (fun right => different (left.trans right.symm)) second
    · rw [if_neg left] at first
      by_cases right : j = n
      · rw [if_pos right] at second
        cases second
        exact fun p k both => apart i a left first p k both.symm
      · rw [if_neg right] at second
        exact isolating.apart i j a b different first second
  · intro m other inside
    have different : m ≠ n := fun same => unapplied other (same ▸ inside)
    exact (if_neg different).trans (isolating.begun m other inside)

variable [DecidableEq α]

theorem reconciled (own : Own V start n t u) (begun : u.begun n = some op) (applied : (n,op) ∈ u.applied) :
    Keeps (answerSpecs V n) SpecCall.awaits (writing V start n) (ask (I := specWrites α) .reconcileUserStatus)
      (Ended V start n op) t u := by
  apply keepsAwait rfl own
  intro v moved _ _
  exact ⟨ownSelf moved.isolating,moved.notes.1.trans begun,fun _ => (moved.notes.2.2 op).mpr applied⟩

theorem updateWrites (own : Own V start n t u) (pending : Pending V n op u)
    (submits : ∀ specs, (∀ read ∈ u.reads n, ∀ p k value, read.get p k = some value → specs.get p k = some value) →
      (∀ read ∈ u.reads n, ∀ p k, op.Addresses V p k → specs.get p k = read.get p k) →
      Submits V op specs (merge V.overlay specs body)) :
    Keeps (answerSpecs V n) SpecCall.awaits (writing V start n) (SpecWriting.updateUserSpecs V accountId body)
      (Ended V start n op) t u := by
  apply keepsAskAwait rfl own
  intro v moved _ _
  have waiting := pendingLater pending moved
  cases found : v.found with
  | false =>
      simp only [answerSpecs,found,Bool.false_eq_true,if_false]
      exact failedEnded (ownSelf moved.isolating) waiting.begun
  | true =>
      simp only [answerSpecs,found,if_true]
      apply keepsAskAwait rfl (readOwn moved.isolating)
      intro s further unspoiled _
      have still := pendingLater (readPending waiting) further
      have reads : s.reads n = u.reads n ++ [v.object] := by
        rw [further.notes.2.1,readsOwn,moved.notes.2.1]
      have written : s.outcome ≠ .refused → ∃ after, patch V.delta v.object (merge V.overlay v.object body) s.object = some after ∧
          Own V start n s (s.write n after) ∧ (n,op) ∈ (s.write n after).applied := by
        intro accepted
        obtain ⟨missing,unchanged⟩ := unspoiled.resolve_left accepted
        rw [reads] at unchanged
        have submitted := submits v.object (fun read inside => unchanged read (List.mem_append_left _ inside))
          (fun read inside => waiting.fields read (moved.notes.2.1 ▸ inside))
        exact patchOwn further.isolating still (by simp [reads]) submitted missing
      cases outcome : s.outcome with
      | refused =>
          simp only [answerSpecs,outcome,Bool.false_eq_true,if_false]
          exact failedEnded (ownSelf further.isolating) still.begun
      | applied =>
          obtain ⟨after,patched,own,applied⟩ := written (by simp [outcome])
          simp only [answerSpecs,outcome,patched,if_true]
          exact reconciled own still.begun applied
      | unanswered =>
          obtain ⟨after,patched,own,applied⟩ := written (by simp [outcome])
          simp only [answerSpecs,outcome,patched,Bool.false_eq_true,if_false]
          exact failedEnded own still.begun

theorem approveWrites (own : Own V start n t u) (pending : Pending V n .approve u) :
    Keeps (answerSpecs V n) SpecCall.awaits (writing V start n) (SpecWriting.approve V accountId)
      (Ended V start n .approve) t u := by
  apply keepsAskAwait rfl own
  intro v moved _ _
  have waiting := pendingLater pending moved
  cases found : v.found with
  | false =>
      simp only [answerSpecs,found,Bool.false_eq_true,if_false]
      exact failedEnded (ownSelf moved.isolating) waiting.begun
  | true =>
      simp only [answerSpecs,found,if_true]
      refine updateWrites (readOwn moved.isolating) (readPending waiting) fun specs unchanged same => ?_
      have first : v.object ∈ (v.read n).reads n := by simp [readsOwn]
      exact approveSubmits (unchanged v.object first) (same v.object first)

theorem opWrites (own : Own V start n t u) (pending : Pending V n op u) :
    Keeps (answerSpecs V n) SpecCall.awaits (writing V start n) (op.program V accountId) (Ended V start n op) t u := by
  cases op with
  | approve => exact approveWrites own pending
  | update body => exact updateWrites own pending fun specs _ _ => updateSubmits body

theorem threadWrites (isolating : u.Isolating V start) (unapplied : ∀ other, (n,other) ∉ u.applied)
    (apart : ∀ m other, m ≠ n → u.begun m = some other → op.Apart V other) :
    Keeps (answerSpecs V n) SpecCall.awaits (writing V start n) (op.thread V accountId) (fun _ => Own V start n) u u := by
  have begun : (u.begin n op).begun n = some op := if_pos rfl
  have reads : (u.begin n op).reads n = [] := if_pos rfl
  have pending : Pending V n op (u.begin n op) := ⟨begun,unapplied,by simp [reads],by simp [reads]⟩
  apply keepsAskNow rfl
  apply keepsBind
  refine keepsMono (opWrites (beginOwn isolating unapplied apart) pending) fun r t u ended => ?_
  obtain ⟨own,begun,applied⟩ := ended
  cases r with
  | error e => exact own
  | ok value =>
      apply keepsNow rfl
      exact ownTrans own (succeedOwn own.isolating begun (applied rfl))

end Threads
end SpecWorld

namespace SpecPool
open SpecWorld
variable {α : Type} [DecidableEq α] (V : SpecValues α)

def Disjointly (pool : SpecPool α) : SpecMove α → Prop
  | .start op => ∀ n other, pool.state.begun n = some other → op.Apart V other
  | .proceed _ _ _ => True

def Unspoiled (pool : SpecPool α) : SpecMove α → Prop
  | .start _ => True
  | .proceed n found outcome => (facing found outcome pool).Ready SpecWorld.Unspoiled n

section Runs
variable {V} {accountId : String} {start : SpecObject α} {pool : SpecPool α} {move : SpecMove α}

structure Keeping (V : SpecValues α) (start : SpecObject α) (pool : SpecPool α) : Prop where
  steady : pool.Steady (answerSpecs V) SpecCall.awaits (writing V start)
  isolating : pool.state.Isolating V start
  fresh : ∀ n, pool.threads.length ≤ n → pool.state.begun n = none ∧ ∀ op, (n,op) ∉ pool.state.applied

theorem keepingStep (keeping : Keeping V start pool) (disjoint : pool.Disjointly V move) (unspoiled : pool.Unspoiled move) :
    Keeping V start (step V accountId pool move) := by
  cases move with
  | start op =>
      have keeps := @threadWrites _ V accountId start pool.threads.length op pool.state _ keeping.isolating
        (keeping.fresh _ (Nat.le_refl _)).2 fun m other _ begun => disjoint m other begun
      obtain ⟨steady,own⟩ := Pool.steadySpawn (fun _ _ _ _ => foreignTrans) ownForeign keeping.steady keeps
      refine ⟨steady,own.isolating,fun n beyond => ?_⟩
      have longer : pool.threads.length < n := by
        simp only [step,Pool.spawn,List.length_append,List.length_singleton] at beyond
        omega
      exact freshOwn own (by omega) (keeping.fresh n (by omega))
  | proceed n found outcome =>
      have isolating : (facing found outcome pool).state.Isolating V start :=
        ⟨⟨keeping.isolating.written,keeping.isolating.others,keeping.isolating.succeeded⟩,keeping.isolating.apart,
          keeping.isolating.begun⟩
      have idle := fun m => @ownSelf _ V start m _ isolating
      have faced : ∀ m, Foreign V start m pool.state (facing found outcome pool).state := fun m =>
        ⟨isolating,fun _ => id,⟨rfl,rfl,fun _ => Iff.rfl⟩,fun _ _ _ _ _ => rfl⟩
      have steady : (facing found outcome pool).Steady (answerSpecs V) SpecCall.awaits (writing V start) :=
        Pool.steadyEdit (fun _ _ _ _ => foreignTrans) keeping.steady faced
      have still : Foreign V start n (facing found outcome pool).state (facing found outcome pool).state :=
        ⟨isolating,fun _ => id,⟨rfl,rfl,fun _ => Iff.rfl⟩,fun _ _ _ _ _ => rfl⟩
      obtain ⟨steady,own⟩ := @Pool.steadyProceed _ _ _ _ _ _ _ _ _ (fun _ _ _ _ => foreignTrans) ownForeign n ()
        still (idle n) steady unspoiled
      refine ⟨steady,own.isolating,fun m beyond => ?_⟩
      simp only [step,Pool.proceedLength] at beyond
      by_cases same : m = n
      · subst same
        have unchanged : step V accountId pool (.proceed m found outcome) = facing found outcome pool :=
          Pool.proceedBeyond _ _ beyond
        rw [unchanged]
        exact keeping.fresh m beyond
      · exact freshOwn own same (keeping.fresh m beyond)

theorem keepingRun {moves : List (SpecMove α)} (keeping : Keeping V start pool)
    (disjoint : EachStep (step V accountId) (Disjointly V) moves pool)
    (unspoiled : EachStep (step V accountId) Unspoiled moves pool) :
    Keeping V start (run V accountId moves pool) :=
  eachStepKeeps (Keeping V start) (fun _ _ keeping ok => keepingStep keeping ok.1 ok.2) keeping (eachStepBoth disjoint unspoiled)

theorem beginKeeping (object : SpecObject α) : Keeping V object (begin object) where
  steady := Pool.steadyEmpty _
  isolating := ⟨⟨fun _ _ never => (by cases never),fun _ _ _ => rfl,fun _ never => (by cases never)⟩,
    fun _ _ _ _ _ never => (by cases never),fun _ _ never => (by cases never)⟩
  fresh _ _ := ⟨rfl,fun _ never => (by cases never)⟩

end Runs
end SpecPool

/- In every run of operations on disjoint fields whose patches are unspoiled, the object has every write that took effect,
and whatever none of them addressed is as it was. -/
theorem specWritesIsolated {α : Type} [DecidableEq α] (V : SpecValues α) (accountId : String) (object : SpecObject α)
    (moves : List (SpecMove α))
    (disjoint : EachStep (SpecPool.step V accountId) (SpecPool.Disjointly V) moves (SpecPool.begin object))
    (unspoiled : EachStep (SpecPool.step V accountId) SpecPool.Unspoiled moves (SpecPool.begin object)) :
    (SpecPool.run V accountId moves (SpecPool.begin object)).state.Isolated V object :=
  (SpecPool.keepingRun (SpecPool.beginKeeping object) disjoint unspoiled).isolating.toIsolated

def specTexts : SpecValues String where
  overlay _ value := value
  delta := ⟨fun _ values _ => values,fun _ _ => rfl⟩
  approved := "true"
  push groups := groups.getD "" ++ "staff;"
  requiredLocal := true
  overlaySelf _ := rfl
  overlayApproved _ := rfl
  overlayPush _ _ := rfl

def oneMember (part : SpecPart) (name value : String) : SpecObject String := fun p =>
  if p = part then some (AList.singleton name value) else none

def identityUpdate (provider sub : String) : SpecOp String := .update (oneMember .identities provider sub)

def goesThrough (n : Nat) : SpecMove String := .proceed n true .applied

theorem oneMemberGet (part : SpecPart) (name value : String) (p : SpecPart) (k : String) :
    (oneMember part name value).get p k = if p = part ∧ k = name then some value else none := by
  simp only [oneMember,Parts.get]
  by_cases here : p = part
  · rw [if_pos here,Option.bind_some,← AList.insert_empty]
    by_cases named : k = name
    · subst named
      rw [AList.lookup_insert,if_pos ⟨here,rfl⟩]
    · rw [AList.lookup_insert_ne named,AList.lookup_empty,if_neg fun both => named both.2]
  · rw [if_neg here,if_neg fun both => here both.1]
    rfl

theorem providersApart (V : SpecValues String) {a b : String} (different : a ≠ b) (x y : String) :
    (identityUpdate a x).Apart V (identityUpdate b y) := by
  intro p k both
  simp only [identityUpdate,SpecOp.Addresses,oneMemberGet,ne_eq,ite_eq_right_iff,reduceCtorEq,imp_false,not_not] at both
  exact different (both.1.2.symm.trans both.2.2)

def concurrentLogins : List (SpecMove String) :=
  [.start (identityUpdate "entra" "e"),.start (identityUpdate "google" "g"),
   goesThrough 0,goesThrough 1,goesThrough 0,goesThrough 0,goesThrough 1,goesThrough 1]

theorem loginsDisjoint (object : SpecObject String) : EachStep (SpecPool.step specTexts "alice") (SpecPool.Disjointly specTexts)
    concurrentLogins (SpecPool.begin object) := by
  refine ⟨?_,?_,trivial,trivial,trivial,trivial,trivial,trivial,trivial⟩
  · intro n other begun
    cases begun
  · intro n other begun
    change (if n = 0 then some (identityUpdate "entra" "e") else none) = some other at begun
    split at begun
    · cases begun
      exact providersApart specTexts (by decide) "g" "e"
    · cases begun

theorem laterLogins : (SpecPool.run specTexts "alice" concurrentLogins
    (SpecPool.begin (oneMember .identities "github" "1"))).state.Isolated specTexts (oneMember .identities "github" "1") := by
  refine specWritesIsolated specTexts "alice" _ _ (loginsDisjoint _)
    ⟨trivial,trivial,trivial,trivial,.inr ⟨?_,?_⟩,trivial,.inr ⟨?_,?_⟩,trivial,trivial⟩
  · intro p missing wanted
    cases p <;> first | exact absurd rfl wanted | cases missing
  · intro read inside p k value here
    cases List.mem_singleton.mp inside
    exact here
  · intro p missing wanted
    cases p <;> first | exact absurd rfl wanted | cases missing
  · intro read inside p k value here
    cases List.mem_singleton.mp inside
    exact here

/- Both succeed, and an account without identities keeps one of the two. -/
theorem identityLost : ¬ ∀ (V : SpecValues String) (accountId : String) (object : SpecObject String)
    (moves : List (SpecMove String)),
    EachStep (SpecPool.step V accountId) (SpecPool.Disjointly V) moves (SpecPool.begin object) →
    (SpecPool.run V accountId moves (SpecPool.begin object)).threads = [.pure (),.pure ()] →
    (SpecPool.run V accountId moves (SpecPool.begin object)).state.Isolated V object := by
  intro always
  have isolated := always specTexts "alice" (fun _ => none) concurrentLogins (loginsDisjoint _) rfl
  have applied : (0,identityUpdate "entra" "e") ∈
      (SpecPool.run specTexts "alice" concurrentLogins (SpecPool.begin fun _ => none)).state.applied :=
    List.mem_cons_self
  have written := isolated.written 0 _ applied .identities "entra" (by simp [identityUpdate,SpecOp.Addresses,oneMemberGet])
  have lost : (SpecPool.run specTexts "alice" concurrentLogins (SpecPool.begin fun _ => none)).state.object.get .identities
      "entra" = none := by decide +kernel
  rw [lost] at written
  simp [identityUpdate,SpecOp.written,oneMemberGet] at written

end Passmower
