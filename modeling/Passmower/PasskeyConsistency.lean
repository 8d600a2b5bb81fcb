import Passmower.Passkeys

/-! What concurrent passkey operations leave behind when no operation's patch is computed from a list that another
one has patched since. -/
namespace Passmower
open Resumption Program
open ObjectPatch (Delta)

namespace Passkeys

section Laws
variable (start : List Passkey) (ops : List PasskeyOp)

def Added (id : String) : Prop := (∃ c ∈ start, c.id = id) ∨ ∃ c, .add c ∈ ops ∧ c.id = id

def Removed (id : String) : Prop := .remove id ∈ ops

def Written (id : String) (counter : Nat) : Prop :=
  (∃ c ∈ start, c.id = id ∧ c.counter = counter) ∨ (∃ c, .add c ∈ ops ∧ c.id = id ∧ c.counter = counter) ∨
    .updateCounter id counter ∈ ops

structure Consistent (credentials : List Passkey) : Prop where
  unique : (credentials.map (·.id)).Nodup
  present : ∀ id, Added start ops id → ¬ Removed ops id → ∃ c ∈ credentials, c.id = id
  absent : ∀ c ∈ credentials, ¬ Removed ops c.id
  largest : ∀ c ∈ credentials, Written start ops c.id c.counter ∧ ∀ k, Written start ops c.id k → k ≤ c.counter

def CountersAdded (credentials : List Passkey) : Prop :=
  (∀ id counter, Written start ops id counter → Added start ops id) ∧ ∀ c ∈ credentials, Added start ops c.id

def Orderly (credentials : List Passkey) : PasskeyOp → Prop
  | .add credential => ¬ Removed ops credential.id
  | .updateCounter credentialId newCounter => ∀ c ∈ credentials, c.id = credentialId → c.counter ≤ newCounter
  | _ => True

end Laws

section Edits
variable {start : List Passkey} {ops : List PasskeyOp} {credentials updated : List Passkey} {id : String}

theorem addedSnoc (op : PasskeyOp) : Added start (ops ++ [op]) id ↔ Added start ops id ∨ ∃ c, op = .add c ∧ c.id = id := by
  simp only [Added,List.mem_append,List.mem_singleton,or_and_right,exists_or,or_assoc]
  grind

theorem removedSnoc (op : PasskeyOp) : Removed (ops ++ [op]) id ↔ Removed ops id ∨ op = .remove id := by
  simp [Removed,eq_comm]

theorem writtenSnoc (op : PasskeyOp) (k : Nat) : Written start (ops ++ [op]) id k ↔ Written start ops id k ∨
    (∃ c, op = .add c ∧ c.id = id ∧ c.counter = k) ∨ op = .updateCounter id k := by
  simp only [Written,List.mem_append,List.mem_singleton]
  grind

theorem modifiedFirst {edit : Passkey → Passkey} (unique : (credentials.map (·.id)).Nodup)
    (edited : Passkeys.withEdited id edit credentials = .ok updated) :
    updated = credentials.map (fun c => if c.id = id then edit c else c) ∧ ∃ c ∈ credentials, c.id = id := by
  unfold Passkeys.withEdited at edited
  split at edited
  · cases edited
  · rename_i credIndex first
    cases edited
    obtain ⟨within,found,_⟩ := List.findIdx?_eq_some_iff_getElem.mp first
    have named : credentials[credIndex].id = id := of_decide_eq_true found
    refine ⟨?_,_,List.getElem_mem within,named⟩
    apply List.ext_getElem (by simp)
    intro i here there
    rw [List.getElem_modify,List.getElem_map]
    have within' : i < credentials.length := by simpa using there
    by_cases same : credIndex = i
    · subst same
      rw [if_pos rfl,if_pos named]
    · have other : credentials[i].id ≠ id := by
        intro alike
        have equal : credentials[credIndex] = credentials[i] := List.inj_on_of_nodup_map unique
          (List.getElem_mem within) (List.getElem_mem within') (named.trans alike.symm)
        exact same ((List.Nodup.getElem_inj_iff (List.Nodup.of_map _ unique)).mp equal)
      rw [if_neg same,if_neg other]

section Addition
variable {c : Passkey}

theorem addedAdd : Added start (ops ++ [.add c]) id ↔ Added start ops id ∨ c.id = id := by
  simp [addedSnoc]

theorem removedAdd : Removed (ops ++ [.add c]) id ↔ Removed ops id := by
  simp [removedSnoc]

theorem writtenAdd (k : Nat) : Written start (ops ++ [.add c]) id k ↔
    Written start ops id k ∨ (c.id = id ∧ c.counter = k) := by
  simp [writtenSnoc]

theorem addUnique (unique : (credentials.map (·.id)).Nodup) (absent : ∀ x ∈ credentials, x.id ≠ c.id) :
    ((credentials ++ [c]).map (·.id)).Nodup := by
  rw [List.map_append,List.map_cons,List.map_nil]
  apply unique.append (List.nodup_singleton _)
  intro id old new
  obtain ⟨x,inside,same⟩ := List.mem_map.mp old
  exact absent x inside (same.trans (List.mem_singleton.mp new))

theorem addStep (consistent : Consistent start ops credentials) (known : CountersAdded start ops credentials)
    (orderly : Orderly ops credentials (.add c)) (edited : withAdded c credentials = .ok updated) :
    Consistent start (ops ++ [.add c]) updated ∧ CountersAdded start (ops ++ [.add c]) updated := by
  unfold withAdded at edited
  split at edited
  · cases edited
  · rename_i absent
    cases edited
    have absent : ∀ x ∈ credentials, x.id ≠ c.id := by simpa using absent
    have unadded : ¬ Added start ops c.id := by
      intro added
      obtain ⟨x,inside,same⟩ := consistent.present _ added orderly
      exact absent x inside same
    have unwritten : ∀ k, ¬ Written start ops c.id k := fun k written => unadded (known.1 _ _ written)
    have inside : ∀ x, x ∈ credentials ++ [c] ↔ x ∈ credentials ∨ x = c := by simp
    refine ⟨⟨addUnique consistent.unique absent,?_,?_,?_⟩,fun id k now => ?_,fun x now => ?_⟩
    · intro id added removed
      rcases addedAdd.mp added with before | rfl
      · obtain ⟨x,old,named⟩ := consistent.present id before fun gone => removed (removedAdd.mpr gone)
        exact ⟨x,(inside x).mpr (.inl old),named⟩
      · exact ⟨c,(inside c).mpr (.inr rfl),rfl⟩
    · intro x now removed
      rcases (inside x).mp now with old | rfl
      · exact consistent.absent x old (removedAdd.mp removed)
      · exact orderly (removedAdd.mp removed)
    · intro x now
      simp only [writtenAdd]
      rcases (inside x).mp now with old | rfl
      · obtain ⟨written,largest⟩ := consistent.largest x old
        exact ⟨.inl written,fun k now => now.elim (largest k) fun new => absurd new.1.symm (absent x old)⟩
      · exact ⟨.inr ⟨rfl,rfl⟩,fun k now => now.elim (fun before => absurd before (unwritten k)) fun new => new.2.ge⟩
    · exact addedAdd.mpr (((writtenAdd k).mp now).imp (known.1 id k) And.left)
    · rcases (inside x).mp now with old | rfl
      · exact addedAdd.mpr (.inl (known.2 x old))
      · exact addedAdd.mpr (.inr rfl)

end Addition

theorem removeStep (consistent : Consistent start ops credentials) (known : CountersAdded start ops credentials)
    (edited : withRemoved id credentials = .ok updated) :
    Consistent start (ops ++ [.remove id]) updated ∧ CountersAdded start (ops ++ [.remove id]) updated := by
  simp only [withRemoved] at edited
  split at edited
  · cases edited
  · cases edited
    have written : ∀ other k, Written start (ops ++ [.remove id]) other k ↔ Written start ops other k := by
      intro other k
      rw [writtenSnoc]
      simp
    have added : ∀ other, Added start (ops ++ [.remove id]) other ↔ Added start ops other := by
      intro other
      rw [addedSnoc]
      simp
    have kept : ∀ x, x ∈ credentials.filter (·.id ≠ id) ↔ x ∈ credentials ∧ x.id ≠ id := by simp
    refine ⟨⟨?_,?_,?_,?_⟩,fun other k now => ?_,fun x inside => ?_⟩
    · exact consistent.unique.sublist (List.filter_sublist.map _)
    · intro other was removed
      obtain ⟨x,inside,named⟩ := consistent.present other ((added other).mp was) fun gone => removed ((removedSnoc _).mpr (.inl gone))
      have different : x.id ≠ id := fun same => removed ((removedSnoc _).mpr (.inr (by rw [← named,same])))
      exact ⟨x,(kept x).mpr ⟨inside,different⟩,named⟩
    · intro x inside removed
      obtain ⟨old,different⟩ := (kept x).mp inside
      rcases (removedSnoc _).mp removed with gone | now
      · exact consistent.absent x old gone
      · injection now with same
        exact different same.symm
    · intro x inside
      simp only [written]
      exact consistent.largest x ((kept x).mp inside).1
    · exact (added other).mpr (known.1 other k ((written other k).mp now))
    · exact (added x.id).mpr (known.2 x ((kept x).mp inside).1)

theorem editStep {op : PasskeyOp} {edit : Passkey → Passkey} (consistent : Consistent start ops credentials)
    (known : CountersAdded start ops credentials) (edited : withEdited id edit credentials = .ok updated)
    (same : ∀ c, (edit c).id = c.id) (adds : ∀ c, op ≠ .add c) (keeps : ∀ other, op ≠ .remove other)
    (written : ∀ other k, Written start (ops ++ [op]) other k → Written start ops other k ∨ other = id)
    (largest : ∀ c ∈ credentials, c.id = id → Written start (ops ++ [op]) id (edit c).counter ∧
      ∀ k, Written start (ops ++ [op]) id k → k ≤ (edit c).counter) :
    Consistent start (ops ++ [op]) updated ∧ CountersAdded start (ops ++ [op]) updated := by
  obtain ⟨rfl,target,inside,named⟩ := modifiedFirst consistent.unique edited
  have added : ∀ other, Added start (ops ++ [op]) other ↔ Added start ops other := by
    intro other
    rw [addedSnoc]
    exact or_iff_left fun ⟨c,new,_⟩ => adds c new
  have removed : ∀ other, Removed (ops ++ [op]) other ↔ Removed ops other := by
    intro other
    rw [removedSnoc]
    exact or_iff_left (keeps other)
  have ids : ∀ c : Passkey, (if c.id = id then edit c else c).id = c.id := by
    intro c
    split
    · exact same c
    · rfl
  refine ⟨⟨?_,?_,?_,?_⟩,fun other k now => ?_,fun x inside => ?_⟩
  · have unchanged : (credentials.map fun c => if c.id = id then edit c else c).map (·.id) = credentials.map (·.id) := by
      rw [List.map_map]
      exact List.map_congr_left fun c _ => ids c
    rw [unchanged]
    exact consistent.unique
  · intro other was gone
    obtain ⟨c,inside,named⟩ := consistent.present other ((added other).mp was) fun before => gone ((removed other).mpr before)
    exact ⟨_,List.mem_map_of_mem inside,(ids c).trans named⟩
  · intro x inside gone
    obtain ⟨c,old,rfl⟩ := List.mem_map.mp inside
    exact consistent.absent c old ((ids c) ▸ (removed _).mp gone)
  · intro x inside
    obtain ⟨c,old,rfl⟩ := List.mem_map.mp inside
    by_cases target : c.id = id
    · rw [if_pos target,same,target]
      exact largest c old target
    · rw [if_neg target]
      obtain ⟨written',most⟩ := consistent.largest c old
      refine ⟨(writtenSnoc _ _).mpr (.inl written'),fun k now => ?_⟩
      exact most k ((written _ k now).resolve_right target)
  · rcases written other k now with before | rfl
    · exact (added other).mpr (known.1 other k before)
    · exact (added other).mpr (named ▸ known.2 target inside)
  · obtain ⟨c,old,rfl⟩ := List.mem_map.mp inside
    rw [ids]
    exact (added c.id).mpr (known.2 c old)

theorem renameStep {newName : String} (consistent : Consistent start ops credentials) (known : CountersAdded start ops credentials)
    (edited : withEdited id (fun c => {c with name := some newName}) credentials = .ok updated) :
    Consistent start (ops ++ [.rename id newName]) updated ∧ CountersAdded start (ops ++ [.rename id newName]) updated := by
  have written : ∀ other k, Written start (ops ++ [.rename id newName]) other k ↔ Written start ops other k := by
    intro other k
    rw [writtenSnoc]
    simp
  refine editStep consistent known edited (fun _ => rfl) (by simp) (by simp) (fun other k now => .inl ((written other k).mp now)) ?_
  intro c inside named
  obtain ⟨now,most⟩ := consistent.largest c inside
  subst named
  exact ⟨(written _ _).mpr now,fun k later => most k ((written _ k).mp later)⟩

theorem counterStep {newCounter : Nat} (consistent : Consistent start ops credentials) (known : CountersAdded start ops credentials)
    (orderly : Orderly ops credentials (.updateCounter id newCounter))
    (edited : withEdited id (fun c => {c with counter := newCounter}) credentials = .ok updated) :
    Consistent start (ops ++ [.updateCounter id newCounter]) updated ∧
      CountersAdded start (ops ++ [.updateCounter id newCounter]) updated := by
  have written : ∀ other k, Written start (ops ++ [.updateCounter id newCounter]) other k ↔
      Written start ops other k ∨ (id = other ∧ newCounter = k) := by
    intro other k
    rw [writtenSnoc]
    simp
  refine editStep consistent known edited (fun _ => rfl) (by simp) (by simp) ?_ ?_
  · intro other k now
    exact ((written other k).mp now).imp_right fun new => new.1.symm
  · intro c inside named
    refine ⟨(written _ _).mpr (.inr ⟨rfl,rfl⟩),fun k now => ?_⟩
    rcases (written _ k).mp now with before | ⟨_,new⟩
    · exact ((consistent.largest c inside).2 k (named ▸ before)).trans (orderly c inside named)
    · exact new.ge

theorem opStep {op : PasskeyOp} (consistent : Consistent start ops credentials) (known : CountersAdded start ops credentials)
    (orderly : Orderly ops credentials op) (edited : op.edit credentials = .ok updated) :
    Consistent start (ops ++ [op]) updated ∧ CountersAdded start (ops ++ [op]) updated := by
  cases op with
  | add credential => exact addStep consistent known orderly edited
  | remove credentialId => exact removeStep consistent known edited
  | rename credentialId newName => exact renameStep consistent known edited
  | updateCounter credentialId newCounter => exact counterStep consistent known orderly edited

theorem startConsistent (unique : (start.map (·.id)).Nodup) : Consistent start [] start ∧ CountersAdded start [] start := by
  have written : ∀ id k, Written start [] id k → ∃ c ∈ start, c.id = id ∧ c.counter = k := by simp [Written]
  refine ⟨⟨unique,fun id added _ => ?_,by simp [Removed],fun c inside => ⟨.inl ⟨c,inside,rfl,rfl⟩,fun k now => ?_⟩⟩,
    fun id k now => ?_,fun c inside => .inl ⟨c,inside,rfl⟩⟩
  · exact added.resolve_right (by simp)
  · obtain ⟨other,there,named,counted⟩ := written _ k now
    cases List.inj_on_of_nodup_map unique there inside named
    exact counted.ge
  · obtain ⟨c,inside,named,_⟩ := written id k now
    exact .inl ⟨c,inside,named⟩

end Edits
end Passkeys

namespace PasskeyWorld
open Passkeys
variable (start : List Passkey)

def ops (s : PasskeyWorld) : List PasskeyOp := s.applied.map Prod.snd

structure Lawful (s : PasskeyWorld) : Prop where
  consistent : Consistent start s.ops s.credentials
  applied : ∀ entry ∈ s.succeeded, entry ∈ s.applied

structure Holds (s : PasskeyWorld) : Prop extends Lawful start s where
  known : CountersAdded start s.ops s.credentials

def Undisturbed (n : Nat) (s : PasskeyWorld) : PasskeyCall → Prop
  | .patchUser _ _ => s.outcome = .refused ∨
      (s.readAt n = some s.applied.length ∧ ∀ op, s.begun n = some op → Orderly s.ops s.credentials op)
  | _ => True

structure Advances (a b : PasskeyWorld) : Prop where
  grows : a.applied <+: b.applied
  same : a.applied.length = b.applied.length → b.webauthn = a.webauthn
  holds : a.Holds start → b.Holds start

structure Mine (n : Nat) (a b : PasskeyWorld) : Prop extends Advances start a b where
  others : ∀ m, m ≠ n → b.begun m = a.begun m ∧ b.readAt m = a.readAt m

structure Theirs (n : Nat) (a b : PasskeyWorld) : Prop extends Advances start a b where
  own : b.begun n = a.begun n ∧ b.readAt n = a.readAt n

def contract (n : Nat) : Contract passkeys PasskeyWorld := ⟨Undisturbed n,Theirs start n,Mine start n⟩

structure Reading (n : Nat) (op : PasskeyOp) (version : Nat) (read : Webauthn) (s : PasskeyWorld) : Prop where
  begun : s.begun n = some op
  readAt : s.readAt n = some version
  later : version ≤ s.applied.length
  same : s.applied.length = version → s.webauthn = read

section Steps
variable {start : List Passkey} {n m version : Nat} {op : PasskeyOp} {read : Webauthn} {a b c s : PasskeyWorld}

theorem advancesNote (applied : b.applied = a.applied) (webauthn : b.webauthn = a.webauthn)
    (succeeded : b.succeeded = a.succeeded) : Advances start a b where
  grows := applied ▸ List.prefix_rfl
  same := fun _ => webauthn
  holds := by
    intro holds
    have credentials : b.credentials = a.credentials := congrArg (·.getD []) webauthn
    have ops : b.ops = a.ops := congrArg (·.map Prod.snd) applied
    refine ⟨⟨?_,?_⟩,?_⟩
    · rw [ops,credentials]
      exact holds.consistent
    · rw [succeeded,applied]
      exact holds.applied
    · rw [ops,credentials]
      exact holds.known

theorem advancesTrans (first : Advances start a b) (second : Advances start b c) : Advances start a c where
  grows := first.grows.trans second.grows
  same := by
    intro alike
    have middle : a.applied.length = b.applied.length :=
      Nat.le_antisymm first.grows.length_le (alike ▸ second.grows.length_le)
    exact (second.same (middle.symm.trans alike)).trans (first.same middle)
  holds := second.holds ∘ first.holds

theorem theirsTrans (first : Theirs start n a b) (second : Theirs start n b c) : Theirs start n a c :=
  ⟨advancesTrans first.toAdvances second.toAdvances,second.own.1.trans first.own.1,second.own.2.trans first.own.2⟩

theorem mineTheirs (apart : n ≠ m) (mine : Mine start n a b) : Theirs start m a b :=
  ⟨mine.toAdvances,mine.others m apart.symm⟩

theorem readingLater (reading : Reading n op version read a) (moved : Theirs start n a b) : Reading n op version read b where
  begun := moved.own.1.trans reading.begun
  readAt := moved.own.2.trans reading.readAt
  later := reading.later.trans moved.grows.length_le
  same := by
    intro alike
    have middle : a.applied.length = version := Nat.le_antisymm (alike ▸ moved.grows.length_le) reading.later
    exact (moved.same (middle.trans alike.symm)).trans (reading.same middle)

theorem firstRead (begun : s.begun n = some op) (unread : s.readAt n = none) :
    Reading n op s.applied.length s.webauthn (s.read n) where
  begun := begun
  readAt := by simp [PasskeyWorld.read,unread]
  later := Nat.le_refl _
  same := fun _ => rfl

theorem readAgain (reading : Reading n op version read s) : s.read n = s := by
  have kept : (fun m => if m = n then s.readAt m <|> some s.applied.length else s.readAt m) = s.readAt := by
    funext m
    split
    · rename_i same
      rw [same,reading.readAt]
      rfl
    · rfl
  unfold PasskeyWorld.read
  rw [kept]

theorem mineNote (applied : b.applied = a.applied) (webauthn : b.webauthn = a.webauthn) (succeeded : b.succeeded = a.succeeded)
    (others : ∀ m, m ≠ n → b.begun m = a.begun m ∧ b.readAt m = a.readAt m) : Mine start n a b :=
  ⟨advancesNote applied webauthn succeeded,others⟩

theorem mineSelf (s : PasskeyWorld) : Mine start n s s := mineNote rfl rfl rfl fun _ _ => ⟨rfl,rfl⟩

theorem mineTrans (first : Mine start n a b) (second : Mine start n b c) : Mine start n a c where
  toAdvances := advancesTrans first.toAdvances second.toAdvances
  others m other := ⟨(second.others m other).1.trans (first.others m other).1,
    (second.others m other).2.trans (first.others m other).2⟩

theorem readMine (s : PasskeyWorld) (n : Nat) : Mine start n s (s.read n) :=
  mineNote rfl rfl rfl fun _ other => ⟨rfl,if_neg other⟩

theorem writeMine {updated : List Passkey} (begun : s.begun n = some op) (edited : op.edit s.credentials = .ok updated)
    (orderly : Orderly s.ops s.credentials op) : Mine start n s (s.write n (some updated)) ∧
      (n,op) ∈ (s.write n (some updated)).applied := by
  have applied : (s.write n (some updated)).applied = s.applied ++ [(n,op)] := by simp [write,begun]
  have ops : (s.write n (some updated)).ops = s.ops ++ [op] := by simp [PasskeyWorld.ops,applied]
  refine ⟨⟨⟨?_,fun alike => ?_,fun holds => ?_⟩,fun _ _ => ⟨rfl,rfl⟩⟩,?_⟩
  · exact applied ▸ List.prefix_append _ _
  · rw [applied,List.length_append,List.length_singleton] at alike
    omega
  · obtain ⟨consistent,known⟩ := opStep holds.consistent holds.known orderly edited
    refine ⟨⟨?_,fun entry inside => ?_⟩,?_⟩
    · rw [ops]
      exact consistent
    · rw [applied]
      exact List.mem_append_left _ (holds.applied entry inside)
    · rw [ops]
      exact known
  · rw [applied]
    simp

theorem succeedMine (begun : s.begun n = some op) (applied : (n,op) ∈ s.applied) : Mine start n s (s.succeed n) := by
  refine ⟨⟨List.prefix_rfl,fun _ => rfl,fun holds => ⟨⟨holds.consistent,fun entry inside => ?_⟩,holds.known⟩⟩,
    fun _ _ => ⟨rfl,rfl⟩⟩
  simp only [succeed,begun,Option.map_some,Option.toList_some,List.mem_append,List.mem_singleton] at inside
  rcases inside with old | rfl
  · exact holds.applied entry old
  · exact applied

end Steps

section Threads
variable {start : List Passkey} {delta : Delta Webauthn} {accountId : String} {n version : Nat} {op : PasskeyOp}
  {read : Webauthn} {t u : PasskeyWorld}

def Done (start : List Passkey) (n : Nat) (op : PasskeyOp) (r : Except JsError Unit) (t u : PasskeyWorld) : Prop :=
  Mine start n t u ∧ u.begun n = some op ∧ (r = .ok () → (n,op) ∈ u.applied)

theorem failedDone {e : JsError} (mine : Mine start n t u) (begun : u.begun n = some op) : Done start n op (.error e) t u :=
  ⟨mine,begun,fun never => by cases never⟩

theorem reconcileKeeps (mine : Mine start n t u) (begun : u.begun n = some op) (applied : (n,op) ∈ u.applied) :
    Keeps (answerPasskeys delta n) PasskeyCall.awaits (contract start n) (ask (I := passkeys) .reconcileUserStatus)
      (Done start n op) t u := by
  apply keepsAwait rfl mine
  intro v moved _ _
  exact ⟨mineSelf v,moved.own.1.trans begun,fun _ => moved.grows.subset applied⟩

theorem updateKeeps {updated : List Passkey} (mine : Mine start n t u) (reading : Reading n op version read u)
    (edited : op.edit (read.getD []) = .ok updated) :
    Keeps (answerPasskeys delta n) PasskeyCall.awaits (contract start n) (Passkeys.updateUserSpecs accountId updated)
      (Done start n op) t u := by
  apply keepsAskAwait rfl mine
  intro v moved _ _
  have reading := readingLater reading moved
  cases found : v.found with
  | false =>
      simp only [answerPasskeys,found,Bool.false_eq_true,if_false]
      exact failedDone (mineSelf v) reading.begun
  | true =>
      simp only [answerPasskeys,found,if_true,readAgain reading]
      apply keepsAskAwait rfl (mineSelf v)
      intro s moved' undisturbed _
      have reading' := readingLater reading moved'
      have written : s.outcome ≠ .refused → delta.apply v.webauthn (some updated) s.webauthn = some updated ∧
          Mine start n s (s.write n (some updated)) ∧ (n,op) ∈ (s.write n (some updated)).applied := by
        intro accepted
        obtain ⟨first,orderly⟩ := undisturbed.resolve_left accepted
        have version : s.applied.length = version := Option.some.inj (first.symm.trans reading'.readAt)
        have now : s.webauthn = read := reading'.same version
        have before : v.webauthn = read :=
          reading.same (Nat.le_antisymm (version ▸ moved'.grows.length_le) reading.later)
        have edited : op.edit s.credentials = .ok updated := by
          rw [credentials,now]
          exact edited
        exact ⟨by rw [before,now,delta.exact],writeMine reading'.begun edited (orderly op reading'.begun)⟩
      cases outcome : s.outcome with
      | refused =>
          simp only [answerPasskeys,outcome,Bool.false_eq_true,if_false]
          exact failedDone (mineSelf s) reading'.begun
      | applied =>
          obtain ⟨values,mine,applied⟩ := written (by simp [outcome])
          simp only [answerPasskeys,outcome,values,if_true]
          exact reconcileKeeps mine reading'.begun applied
      | unanswered =>
          obtain ⟨values,mine,applied⟩ := written (by simp [outcome])
          simp only [answerPasskeys,outcome,values,Bool.false_eq_true,if_false]
          exact failedDone mine reading'.begun

theorem programKeeps (mine : Mine start n t u) (begun : u.begun n = some op) (unread : u.readAt n = none) :
    Keeps (answerPasskeys delta n) PasskeyCall.awaits (contract start n) (op.program accountId) (Done start n op) t u := by
  rw [op.programEdits]
  apply keepsAskAwait rfl mine
  intro v moved _ _
  have begun := moved.own.1.trans begun
  cases found : v.found with
  | false =>
      simp only [answerPasskeys,found,Bool.false_eq_true,if_false]
      exact failedDone (mineSelf v) begun
  | true =>
      simp only [answerPasskeys,found,if_true]
      cases edited : op.edit (v.webauthn.getD []) with
      | error e => exact failedDone (readMine v n) begun
      | ok updated => exact updateKeeps (readMine v n) (firstRead begun (moved.own.2.trans unread)) edited

theorem threadKeeps (u : PasskeyWorld) : Keeps (answerPasskeys delta n) PasskeyCall.awaits (contract start n)
    (op.thread accountId) (fun _ => Mine start n) u u := by
  apply keepsAskNow rfl
  have mine : Mine start n u (u.begin n op) :=
    mineNote rfl rfl rfl fun _ other => ⟨if_neg other,if_neg other⟩
  apply keepsBind
  have begun : (u.begin n op).begun n = some op := if_pos rfl
  have unread : (u.begin n op).readAt n = none := if_pos rfl
  refine keepsMono (programKeeps mine begun unread) fun r t u done => ?_
  obtain ⟨mine,begun,applied⟩ := done
  cases r with
  | error e => exact mine
  | ok value =>
      apply keepsNow rfl
      exact mineTrans mine (succeedMine begun (applied rfl))

end Threads
end PasskeyWorld

namespace PasskeyPool
open Passkeys PasskeyWorld

def Orderly (pool : PasskeyPool) : PasskeyMove → Prop
  | .start _ => True
  | .proceed n found outcome => (facing found outcome pool).Ready PasskeyWorld.Undisturbed n

section Runs
variable {accountId : String} {delta : Delta Webauthn} {start : List Passkey} {pool : PasskeyPool} {move : PasskeyMove}

structure Steadily (accountId : String) (delta : Delta Webauthn) (start : List Passkey) (pool : PasskeyPool) : Prop where
  steady : pool.Steady (answerPasskeys delta) PasskeyCall.awaits (contract start)
  holds : pool.state.Holds start

theorem steadilyStep (steadily : Steadily accountId delta start pool) (orderly : pool.Orderly move) :
    Steadily accountId delta start (step accountId delta pool move) := by
  cases move with
  | start op =>
      have keeps := @threadKeeps start delta accountId pool.threads.length op pool.state
      obtain ⟨steady,mine⟩ := Pool.steadySpawn (fun _ _ _ _ => theirsTrans) mineTheirs steadily.steady keeps
      exact ⟨steady,mine.holds steadily.holds⟩
  | proceed n found outcome =>
      have faced : PasskeyWorld.Advances start pool.state (facing found outcome pool).state := advancesNote rfl rfl rfl
      have steady : (facing found outcome pool).Steady (answerPasskeys delta) PasskeyCall.awaits (contract start) :=
        Pool.steadyEdit (fun _ _ _ _ => theirsTrans) steadily.steady fun n => ⟨faced,rfl,rfl⟩
      have idle := @mineSelf start n (facing found outcome pool).state
      obtain ⟨steady,mine⟩ := @Pool.steadyProceed _ _ _ _ _ _ _ _ _ (fun _ _ _ _ => theirsTrans) mineTheirs n ()
        (⟨idle.toAdvances,rfl,rfl⟩ : Theirs start n _ _) idle steady orderly
      exact ⟨steady,mine.holds (faced.holds steadily.holds)⟩

theorem steadilyRun {moves : List PasskeyMove} (steadily : Steadily accountId delta start pool)
    (orderly : EachStep (step accountId delta) Orderly moves pool) :
    Steadily accountId delta start (run accountId delta moves pool) :=
  eachStepKeeps (Steadily accountId delta start) (fun _ _ => steadilyStep) steadily orderly

end Runs

theorem beginSteadily {accountId : String} {delta : Delta Webauthn} {webauthn : Webauthn}
    (unique : ((webauthn.getD []).map (·.id)).Nodup) : Steadily accountId delta (webauthn.getD []) (begin webauthn) := by
  obtain ⟨consistent,known⟩ := startConsistent unique
  exact ⟨Pool.steadyEmpty _,⟨consistent,fun entry never => by cases never⟩,known⟩

end PasskeyPool

/- In every run whose patches are undisturbed the list is consistent with the operations that took effect, those
that succeeded among them. -/
theorem passkeysConsistent (accountId : String) (delta : Delta Webauthn) (webauthn : Webauthn) (moves : List PasskeyMove)
    (unique : ((webauthn.getD []).map (·.id)).Nodup)
    (orderly : EachStep (PasskeyPool.step accountId delta) PasskeyPool.Orderly moves (PasskeyPool.begin webauthn)) :
    (PasskeyPool.run accountId delta moves (PasskeyPool.begin webauthn)).state.Lawful (webauthn.getD []) :=
  (PasskeyPool.steadilyRun (PasskeyPool.beginSteadily unique) orderly).holds.toLawful

def replacing : Delta Webauthn := ⟨fun _ values _ => values,fun _ _ => rfl⟩

def goesOn (n : Nat) : PasskeyMove := .proceed n true .applied

def phoneKey : Passkey := {id := "phone", counter := 0}

def laptopKey : Passkey := {id := "laptop", counter := 0}

def overlappingOperations : List PasskeyMove :=
  [.start (.add phoneKey),.start (.add laptopKey),goesOn 0,goesOn 0,goesOn 0,goesOn 1,goesOn 0,goesOn 1,goesOn 1,goesOn 1,
   .start (.updateCounter "phone" 7),.start (.remove "laptop"),goesOn 2,goesOn 2,goesOn 2,goesOn 3,goesOn 2,goesOn 3,goesOn 3,goesOn 3]

theorem phoneKept : (PasskeyPool.run "alice" replacing overlappingOperations (PasskeyPool.begin none)).state.Lawful [] ∧
    (PasskeyPool.run "alice" replacing overlappingOperations (PasskeyPool.begin none)).state.credentials =
      [{phoneKey with counter := 7}] ∧
    (PasskeyPool.run "alice" replacing overlappingOperations (PasskeyPool.begin none)).state.succeeded.length = 4 := by
  refine ⟨passkeysConsistent "alice" replacing none _ List.nodup_nil ?_,rfl,rfl⟩
  refine ⟨trivial,trivial,trivial,trivial,.inr ⟨rfl,?phone⟩,trivial,trivial,trivial,.inr ⟨rfl,?laptop⟩,trivial,
    trivial,trivial,trivial,trivial,.inr ⟨rfl,?counter⟩,trivial,trivial,trivial,.inr ⟨rfl,?removal⟩,trivial,trivial⟩
  case phone =>
    intro op begun
    cases begun
    intro removed
    cases removed
  case laptop =>
    intro op begun
    cases begun
    intro removed
    rcases List.mem_singleton.mp removed with added
    cases added
  case counter =>
    intro op begun
    cases begun
    intro c inside named
    decide +revert
  case removal =>
    intro op begun
    cases begun
    trivial

def concurrentAdditions : List PasskeyMove :=
  [.start (.add phoneKey),.start (.add laptopKey),goesOn 0,goesOn 1,goesOn 0,goesOn 0,goesOn 0,goesOn 1,goesOn 1,goesOn 1]

/- Both operations succeed, and only one of the two passkeys is there. -/
theorem additionLost : ¬ ∀ (accountId : String) (delta : Delta Webauthn) (webauthn : Webauthn) (moves : List PasskeyMove),
    ((webauthn.getD []).map (·.id)).Nodup →
    (PasskeyPool.run accountId delta moves (PasskeyPool.begin webauthn)).threads = [.pure (),.pure ()] →
    (PasskeyPool.run accountId delta moves (PasskeyPool.begin webauthn)).state.Lawful (webauthn.getD []) := by
  intro always
  have lawful := always "alice" replacing none concurrentAdditions List.nodup_nil rfl
  have applied : (PasskeyPool.run "alice" replacing concurrentAdditions (PasskeyPool.begin none)).state.ops =
      [.add phoneKey,.add laptopKey] := rfl
  have credentials : (PasskeyPool.run "alice" replacing concurrentAdditions (PasskeyPool.begin none)).state.credentials =
      [laptopKey] := rfl
  have consistent := lawful.consistent
  rw [applied,credentials] at consistent
  obtain ⟨c,inside,named⟩ := consistent.present "phone" (.inr ⟨phoneKey,by simp,rfl⟩) (by simp [Passkeys.Removed])
  cases List.mem_singleton.mp inside
  exact absurd named (by decide)

end Passmower
