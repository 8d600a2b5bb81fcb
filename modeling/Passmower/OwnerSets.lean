import Passmower.RedisAdapter

/-! The sets of ids by owner, for the records whose membership does not expire: which sequences
of adapter calls leave every id in the set of its record's owner and in no other. -/
namespace Passmower
open JavaScript Resumption Program

structure Owned where
  model : Model
  referencing : Referencing
  referencable : model.referencable = some referencing
  lasting : referencing.expireKey = none

namespace Owned

def session : Owned := ⟨.session,_,rfl,rfl⟩
def siteSession : Owned := ⟨.siteSession,_,rfl,rfl⟩
def client : Owned := ⟨.client,_,rfl,rfl⟩

theorem cases (m : Owned) : m = session ∨ m = siteSession ∨ m = client := by
  obtain ⟨model,referencing,referencable,lasting⟩ := m
  cases model <;> simp only [Model.referencable,Option.some.injEq,reduceCtorEq] at referencable
  case session => subst referencable; exact .inl rfl
  case siteSession => subst referencable; exact .inr (.inl rfl)
  case client => subst referencable; exact .inr (.inr rfl)
  case sessionMetadata => subst referencable; cases lasting

theorem ungranted (m : Owned) (payload : Object) : RedisAdapter.grantOf m.model payload = none := by
  rcases m.cases with rfl | rfl | rfl <;> rfl

theorem plain (m : Owned) : m.model.consumable = false := by
  rcases m.cases with rfl | rfl | rfl <;> rfl

theorem listInjective {m m' : Owned} {owner owner' : String}
    (same : m.referencing.list owner = m'.referencing.list owner') : m = m' ∧ owner = owner' := by
  rcases m.cases with rfl | rfl | rfl <;> rcases m'.cases with rfl | rfl | rfl <;>
    first | exact ⟨rfl,by injection same⟩ | cases same

theorem listRecord (m : Owned) (owner : String) (model : Model) (id : String) :
    m.referencing.list owner ≠ .record model id := by
  rcases m.cases with rfl | rfl | rfl <;> exact nofun

theorem modelInjective {m m' : Owned} (same : m.model = m'.model) : m = m' := by
  rcases m.cases with rfl | rfl | rfl <;> rcases m'.cases with rfl | rfl | rfl <;>
    first | rfl | cases same

end Owned

inductive OwnedCall where
  | upsert (m : Owned) (id : String) (payload : Object) (expiresIn : Option Nat)
  | destroy (m : Owned) (id : String)

def OwnedCall.program : OwnedCall → Stored Unit
  | .upsert m id payload expiresIn => RedisAdapter.upsert m.model id payload expiresIn
  | .destroy m id => RedisAdapter.destroy m.model id

def Redis.step (r : Redis) (c : OwnedCall) : Redis := after answerRedis c.program [] r

def Redis.calls (calls : List OwnedCall) (r : Redis) : Redis := calls.foldl Redis.step r

def Redis.owner (r : Redis) (m : Owned) (id : String) : Option String :=
  (r.payload (.record m.model id)).map m.referencing.owner

def Indexed (r : Redis) : Prop :=
  ∀ (m : Owned) (id owner : String), id ∈ r.members (m.referencing.list owner) ↔ r.owner m id = some owner

def OwnedCall.KeepsOwner (r : Redis) : OwnedCall → Prop
  | .upsert m id payload _ => ∀ owner, r.owner m id = some owner → owner = m.referencing.owner payload
  | .destroy _ _ => True

def KeepOwners : List OwnedCall → Redis → Prop
  | [], _ => True
  | c :: rest, r => c.KeepsOwner r ∧ KeepOwners rest (r.step c)

theorem upsertStep (r : Redis) (m : Owned) (id : String) (payload : Object) (expiresIn : Option Nat) :
    r.step (.upsert m id payload expiresIn) = (r.exec (RedisAdapter.recordWrites m.model id payload expiresIn ++
      RedisAdapter.indexWrites id payload expiresIn)).exec [.sadd (m.referencing.ownerSet payload) id] := by
  simp only [Redis.step,OwnedCall.program,RedisAdapter.upsert,RedisAdapter.grantIndex,m.ungranted,
    m.referencable,RedisAdapter.reference,property,m.lasting,Option.bind_none,Option.filter_none]
  rw [pureBind,List.append_nil]
  rfl

theorem destroyStep (r : Redis) (m : Owned) (id : String) :
    r.step (.destroy m id) = (r.exec [.del (.record m.model id)]).exec
      [.srem (m.referencing.ownerSet ((r.payload (.record m.model id)).getD [])) id] := by
  simp only [Redis.step,OwnedCall.program,RedisAdapter.destroy,m.referencable]
  rfl

def Typed (r : Redis) : Prop := ∀ (m : Owned) (owner : String) (entry : Entry),
  r.find (m.referencing.list owner) = some entry → ∃ members, entry = ⟨.set members,none⟩

theorem membersSadd {r : Redis} {key k : Key} {member : String}
    (typed : ∀ entry, r.find key = some entry → ∃ members, entry = ⟨.set members,none⟩) (id : String) :
    id ∈ (r.exec [.sadd key member]).members k ↔ id ∈ r.members k ∨ (k = key ∧ id = member) := by
  simp only [Redis.exec,List.foldl_cons,List.foldl_nil,Write.apply]
  cases found : r.find key with
  | none =>
      by_cases same : k = key
      · subst same
        simp [Redis.members,Redis.findPut,found,Value.members,Option.filter]
      · simp [Redis.members,Redis.findPutOther same,same]
  | some entry =>
      obtain ⟨members,rfl⟩ := typed entry found
      by_cases same : k = key
      · subst same
        simp only
        split
        · rename_i present
          simp only [Redis.members,found,Value.members,Option.map_some,Option.getD_some,true_and]
          exact ⟨.inl,fun either => either.elim (fun inside => inside) (fun same => same ▸ present)⟩
        · simp [Redis.members,Redis.findPut,found,Value.members,Option.filter]
      · simp only
        split
        · simp [same]
        · simp [Redis.members,Redis.findPutOther same,same]

theorem membersSrem {r : Redis} {key k : Key} {member : String}
    (typed : ∀ entry, r.find key = some entry → ∃ members, entry = ⟨.set members,none⟩) (id : String) :
    id ∈ (r.exec [.srem key member]).members k ↔ id ∈ r.members k ∧ ¬ (k = key ∧ id = member) := by
  simp only [Redis.exec,List.foldl_cons,List.foldl_nil,Write.apply]
  cases found : r.find key with
  | none =>
      by_cases same : k = key
      · subst same
        simp [Redis.members,found]
      · simp [same]
  | some entry =>
      obtain ⟨members,rfl⟩ := typed entry found
      by_cases same : k = key
      · subst same
        simp [Redis.members,Redis.findPut,found,Value.members,Option.filter]
      · simp [Redis.members,Redis.findPutOther same,same]

section Steps
variable {r : Redis} {m m' : Owned} {id id' owner : String} {payload : Object} {expiresIn : Option Nat}

theorem writesKey {write : Write} (member : write ∈ RedisAdapter.recordWrites m.model id payload expiresIn ++
    RedisAdapter.indexWrites id payload expiresIn) : write.key = .record m.model id ∨
      (∃ code, write.key = .userCode code) ∨ ∃ uid, write.key = .uid uid := by
  rcases List.mem_append.mp member with stored | pointer
  · exact .inl (RedisAdapter.recordWritesKeys stored)
  · exact .inr (RedisAdapter.indexWritesKeys pointer)

theorem writesList : (r.exec (RedisAdapter.recordWrites m.model id payload expiresIn ++
    RedisAdapter.indexWrites id payload expiresIn)).find (m'.referencing.list owner) =
    r.find (m'.referencing.list owner) := by
  apply execOther
  intro write member same
  rcases m'.cases with rfl | rfl | rfl <;>
    rcases writesKey member with stored | ⟨code,pointer⟩ | ⟨uid,pointer⟩ <;> simp_all [Owned.session,
      Owned.siteSession,Owned.client]

theorem writesRecord : (r.exec (RedisAdapter.recordWrites m.model id payload expiresIn ++
    RedisAdapter.indexWrites id payload expiresIn)).payload (.record m'.model id') =
    if m'.model = m.model ∧ id' = id then some payload else r.payload (.record m'.model id') := by
  have pointers : ∀ r : Redis, (r.exec (RedisAdapter.indexWrites id payload expiresIn)).find
      (.record m'.model id') = r.find (.record m'.model id') := by
    intro r
    apply execOther
    intro write member same
    rcases RedisAdapter.indexWritesKeys member with ⟨code,pointer⟩ | ⟨uid,pointer⟩ <;> simp_all
  unfold Redis.payload
  rw [execAppend,pointers]
  by_cases same : m'.model = m.model ∧ id' = id
  · obtain ⟨models,rfl⟩ := same
    rw [models,RedisAdapter.recordStored,if_pos ⟨rfl,rfl⟩]
    exact RedisAdapter.storedPayload _ _
  · rw [if_neg same,execOther]
    intro write member other
    rw [RedisAdapter.recordWritesKeys member] at other
    injection other with models ids
    exact same ⟨models,ids⟩

theorem upsertOwner : (r.step (.upsert m id payload expiresIn)).owner m' id' =
    if m'.model = m.model ∧ id' = id then some (m.referencing.owner payload) else r.owner m' id' := by
  have apart : ∀ write ∈ [Write.sadd (m.referencing.ownerSet payload) id],
      Key.record m'.model id' ≠ write.key := by
    intro write member
    cases List.mem_singleton.mp member
    exact (m.listRecord _ _ _).symm
  have stored := @writesRecord r m m' id id' payload expiresIn
  unfold Redis.payload at stored
  unfold Redis.owner Redis.payload
  rw [upsertStep,execOther apart,stored]
  split
  · rename_i same
    rw [Owned.modelInjective same.1]
    rfl
  · rfl

theorem upsertMembers (typed : Typed r) :
    id' ∈ (r.step (.upsert m id payload expiresIn)).members (m'.referencing.list owner) ↔
      id' ∈ r.members (m'.referencing.list owner) ∨
        (m' = m ∧ owner = m.referencing.owner payload ∧ id' = id) := by
  have before := @writesList r m m' id owner payload expiresIn
  rw [upsertStep,membersSadd]
  · have kept : (r.exec (RedisAdapter.recordWrites m.model id payload expiresIn ++
        RedisAdapter.indexWrites id payload expiresIn)).members (m'.referencing.list owner) =
        r.members (m'.referencing.list owner) := by unfold Redis.members; rw [before]
    rw [kept]
    constructor
    · intro either
      rcases either with old | ⟨key,ids⟩
      · exact .inl old
      · obtain ⟨rfl,owners⟩ := Owned.listInjective key
        exact .inr ⟨rfl,owners,ids⟩
    · intro either
      rcases either with old | ⟨rfl,rfl,ids⟩
      · exact .inl old
      · exact .inr ⟨rfl,ids⟩
  · intro entry found
    rw [Referencing.ownerSet,writesList] at found
    exact typed m _ entry found

theorem deletedRecord : (r.exec [.del (.record m.model id)]).payload (.record m'.model id') =
    if m'.model = m.model ∧ id' = id then none else r.payload (.record m'.model id') := by
  unfold Redis.payload
  by_cases same : m'.model = m.model ∧ id' = id
  · obtain ⟨models,rfl⟩ := same
    simp [Redis.exec,Write.apply,Redis.findPut,models]
  · rw [if_neg same]
    simp only [Redis.exec,List.foldl_cons,List.foldl_nil,Write.apply]
    rw [Redis.findPutOther]
    intro other
    injection other with models ids
    exact same ⟨models,ids⟩

theorem deletedList : (r.exec [.del (.record m.model id)]).find (m'.referencing.list owner) =
    r.find (m'.referencing.list owner) := by
  apply execOther
  intro write member
  cases List.mem_singleton.mp member
  exact m'.listRecord _ _ _

theorem destroyOwner : (r.step (.destroy m id)).owner m' id' =
    if m'.model = m.model ∧ id' = id then none else r.owner m' id' := by
  have apart : ∀ write ∈ [Write.srem (m.referencing.ownerSet
      ((r.payload (.record m.model id)).getD [])) id], Key.record m'.model id' ≠ write.key := by
    intro write member
    cases List.mem_singleton.mp member
    exact (m.listRecord _ _ _).symm
  have deleted := @deletedRecord r m m' id id'
  unfold Redis.payload at deleted
  unfold Redis.owner
  rw [destroyStep]
  unfold Redis.payload at apart ⊢
  rw [execOther apart,deleted]
  split <;> rfl

theorem destroyMembers (typed : Typed r) :
    id' ∈ (r.step (.destroy m id)).members (m'.referencing.list owner) ↔
      id' ∈ r.members (m'.referencing.list owner) ∧
        ¬ (m' = m ∧ owner = m.referencing.owner ((r.payload (.record m.model id)).getD []) ∧ id' = id) := by
  rw [destroyStep,membersSrem]
  · have kept : (r.exec [.del (.record m.model id)]).members (m'.referencing.list owner) =
        r.members (m'.referencing.list owner) := by unfold Redis.members; rw [deletedList]
    rw [kept]
    constructor
    · intro both
      refine ⟨both.1,fun named => both.2 ?_⟩
      obtain ⟨rfl,rfl,ids⟩ := named
      exact ⟨rfl,ids⟩
    · intro both
      refine ⟨both.1,fun named => both.2 ?_⟩
      obtain ⟨rfl,owners⟩ := Owned.listInjective named.1
      exact ⟨rfl,owners,named.2⟩
  · intro entry found
    rw [Referencing.ownerSet,deletedList] at found
    exact typed m _ entry found

theorem saddTyped {key : Key} {member : String} (typed : Typed r) : Typed (r.exec [.sadd key member]) := by
  intro m owner entry found
  by_cases same : m.referencing.list owner = key
  · subst same
    simp only [Redis.exec,List.foldl_cons,List.foldl_nil,Write.apply] at found
    cases before : r.find (m.referencing.list owner) with
    | none =>
        simp [before,Redis.findPut,Option.filter] at found
        exact ⟨_,found.symm⟩
    | some old =>
        obtain ⟨members,rfl⟩ := typed m owner old before
        simp only [before] at found
        split at found
        · exact typed m owner entry found
        · simp [Redis.findPut,Option.filter] at found
          exact ⟨_,found.symm⟩
  · rw [execOther (by simpa [Write.key] using same)] at found
    exact typed m owner entry found

theorem sremTyped {key : Key} {member : String} (typed : Typed r) : Typed (r.exec [.srem key member]) := by
  intro m owner entry found
  by_cases same : m.referencing.list owner = key
  · subst same
    simp only [Redis.exec,List.foldl_cons,List.foldl_nil,Write.apply] at found
    cases before : r.find (m.referencing.list owner) with
    | none =>
        simp only [before] at found
        cases found
    | some old =>
        obtain ⟨members,rfl⟩ := typed m owner old before
        simp [before,Redis.findPut,Option.filter] at found
        exact ⟨_,found.symm⟩
  · rw [execOther (by simpa [Write.key] using same)] at found
    exact typed m owner entry found

theorem stepTyped (typed : Typed r) (c : OwnedCall) : Typed (r.step c) := by
  cases c with
  | upsert m id payload expiresIn =>
      rw [upsertStep]
      apply saddTyped
      intro m' owner entry found
      rw [writesList] at found
      exact typed m' owner entry found
  | destroy m id =>
      rw [destroyStep]
      apply sremTyped
      intro m' owner entry found
      rw [deletedList] at found
      exact typed m' owner entry found

theorem indexedStep (typed : Typed r) (indexed : Indexed r) {c : OwnedCall} (keeps : c.KeepsOwner r) :
    Indexed (r.step c) := by
  intro m' id' owner
  cases c with
  | upsert m id payload expiresIn =>
      rw [upsertMembers typed,upsertOwner,indexed m' id' owner]
      by_cases same : m'.model = m.model ∧ id' = id
      · obtain ⟨models,rfl⟩ := same
        cases Owned.modelInjective models
        rw [if_pos ⟨rfl,rfl⟩]
        constructor
        · intro either
          rcases either with old | ⟨_,owners,_⟩
          · rw [keeps owner old]
          · rw [owners]
        · intro owners
          exact .inr ⟨rfl,(Option.some.inj owners).symm,rfl⟩
      · rw [if_neg same]
        constructor
        · intro either
          rcases either with old | ⟨rfl,_,ids⟩
          · exact old
          · exact absurd ⟨rfl,ids⟩ same
        · exact .inl
  | destroy m id =>
      rw [destroyMembers typed,destroyOwner,indexed m' id' owner]
      by_cases same : m'.model = m.model ∧ id' = id
      · obtain ⟨models,rfl⟩ := same
        cases Owned.modelInjective models
        rw [if_pos ⟨rfl,rfl⟩]
        constructor
        · intro both
          refine absurd ⟨rfl,?_,rfl⟩ both.2
          obtain ⟨payload,stored,owners⟩ := Option.map_eq_some_iff.mp both.1
          rw [stored]
          exact owners.symm
        · intro none
          cases none
      · rw [if_neg same]
        constructor
        · exact fun both => both.1
        · exact fun owners => ⟨owners,fun named => same ⟨by rw [named.1],named.2.2⟩⟩

theorem strayStep (typed : Typed r) (indexed : Indexed r) {c : OwnedCall} (changes : ¬ c.KeepsOwner r) :
    ¬ Indexed (r.step c) := by
  cases c with
  | destroy m id => exact absurd trivial changes
  | upsert m id payload expiresIn =>
      simp only [OwnedCall.KeepsOwner,not_forall] at changes
      obtain ⟨owner,owned,other⟩ := changes
      intro after
      have stays : id ∈ (r.step (.upsert m id payload expiresIn)).members (m.referencing.list owner) :=
        (upsertMembers typed).mpr (.inl ((indexed m id owner).mpr owned))
      have now := (after m id owner).mp stays
      rw [upsertOwner,if_pos ⟨rfl,rfl⟩] at now
      exact other (Option.some.inj now).symm

end Steps

theorem typedEmpty : Typed {} := by
  intro m owner entry found
  cases found

theorem indexedEmpty : Indexed {} := by
  intro m id owner
  constructor
  · intro member
    cases member
  · intro owned
    cases owned

theorem indexedCalls {calls : List OwnedCall} {r : Redis} (typed : Typed r) (indexed : Indexed r) :
    (∀ n, Indexed (r.calls (calls.take n))) ↔ KeepOwners calls r := by
  induction calls generalizing r with
  | nil => simp [Redis.calls,KeepOwners,indexed]
  | cons c rest ih =>
      constructor
      · intro always
        have first : Indexed (r.step c) := always 1
        refine ⟨not_not.mp fun changes => strayStep typed indexed changes first,?_⟩
        exact (ih (stepTyped typed c) first).mp fun n => always (n + 1)
      · intro keeps n
        cases n with
        | zero => exact indexed
        | succ n => exact (ih (stepTyped typed c) (indexedStep typed indexed keeps.1)).mpr keeps.2 n

/- Every id is, after every call, in the set of its record's owner and in no other, exactly when no
call gave an existing record another owner. -/
theorem ownerSetsExact (calls : List OwnedCall) :
    (∀ n, Indexed (Redis.calls (calls.take n) {})) ↔ KeepOwners calls {} :=
  indexedCalls typedEmpty indexedEmpty

def signIn : List OwnedCall :=
  [.upsert .session "s" [] (some 60),.upsert .session "s" [("accountId",.string "anna")] (some 60)]

theorem signedInSession : "s" ∈ (Redis.calls signIn {}).members (.accountSession "1") ∧
    (Redis.calls signIn {}).owner .session "s" = some "anna" ∧ ¬ Indexed (Redis.calls signIn {}) := by
  have stray : "s" ∈ (Redis.calls signIn {}).members (Owned.session.referencing.list "1") :=
    (upsertMembers (stepTyped typedEmpty _)).mpr (.inl ((upsertMembers typedEmpty).mpr (.inr ⟨rfl,rfl,rfl⟩)))
  have owned : (Redis.calls signIn {}).owner .session "s" = some "anna" :=
    upsertOwner.trans (if_pos ⟨rfl,rfl⟩)
  refine ⟨stray,owned,fun indexed => ?_⟩
  have other := (indexed .session "s" "1").mp stray
  rw [owned] at other
  exact absurd other (by decide)

end Passmower
