import Passmower.RedisAdapter
import Passmower.Resumption.Stepping

/-! The index of a grant: the list of its tokens, which a revocation empties. Upserts of tokens
and revocations run interleaved at every Redis command, while time passes. -/
namespace Passmower
open JavaScript Resumption Program

structure Grantable where
  model : Model
  grantable : model.grantable = true

structure Lifetime where
  seconds : Nat
  positive : 0 < seconds

inductive TokenCall where
  | upsert (token : Grantable) (id : String) (payload : Object) (lifetime : Lifetime)
  | revokeByGrantId (grantId : String)

def TokenCall.program : TokenCall → Stored Unit
  | .upsert token id payload lifetime =>
      RedisAdapter.upsert token.model id payload (some lifetime.seconds)
  | .revokeByGrantId grantId => RedisAdapter.revokeByGrantId grantId

inductive TokenMove where
  | start (c : TokenCall)
  | proceed (n : Nat)
  | pass (ms : Nat)

abbrev TokenPool := Pool redis Empty Redis

def answerAny (_ : Nat) : Handler redis Unit Redis := answerRedis

def tokenStep (pool : TokenPool) : TokenMove → TokenPool
  | .start c => pool.spawn answerAny RedisCall.awaits c.program
  | .proceed n => pool.proceed answerAny RedisCall.awaits n ()
  | .pass ms => pool.edit (Redis.pass · ms)

def tokenRun (moves : List TokenMove) (pool : TokenPool) : TokenPool := moves.foldl tokenStep pool

def Redis.grant (r : Redis) (token : Grantable) (id : String) : Option String :=
  (r.payload (.record token.model id)).bind (RedisAdapter.grantOf token.model)

theorem grantEntry {r : Redis} {token : Grantable} {id grantId : String} (granted : r.grant token id = some grantId) :
    ∃ entry, r.find (.record token.model id) = some entry ∧
      entry.value.payload?.bind (RedisAdapter.grantOf token.model) = some grantId := by
  obtain ⟨payload,stored,named⟩ := Option.bind_eq_some_iff.mp granted
  obtain ⟨entry,found,same⟩ := Option.bind_eq_some_iff.mp stored
  exact ⟨entry,found,by rw [same]; exact named⟩

def Outlasts (longer shorter : Option Nat) : Prop :=
  ∀ deadline, longer = some deadline → ∃ earlier, shorter = some earlier ∧ earlier ≤ deadline

def Covered (r : Redis) : Prop := ∀ (token : Grantable) (id grantId : String) (entry : Entry),
  r.find (.record token.model id) = some entry →
  entry.value.payload?.bind (RedisAdapter.grantOf token.model) = some grantId →
  ∃ list, r.find (.grant grantId) = some list ∧ .record token.model id ∈ list.value.items ∧
    Outlasts list.expiresAt entry.expiresAt

def Redis.endsBefore (r : Redis) (key : Key) (seconds : Int) : Bool := match r.find key with
  | none => true
  | some entry => entry.expiresAt.any (fun deadline => (deadline : Int) < r.clock + 1000 * seconds)

def Write.resets (grantId : String) : Write → Bool
  | .expire (.grant other) _ => other = grantId
  | _ => false

def Write.deletes (key : Key) : Write → Bool
  | .del other => other = key
  | _ => false

def timely (r : Redis) (writes : List Write) : Bool := writes.all fun push => match push with
  | .rpush (.grant grantId) key => writes.all fun write => match write with
      | .expire other (some seconds) =>
          decide (other ≠ key) || writes.any (Write.resets grantId) == r.endsBefore (.grant grantId) seconds
      | _ => true
  | _ => true

def complete (r : Redis) (writes : List Write) : Bool := writes.all fun deletion => match deletion with
  | .del (.grant grantId) => (r.items (.grant grantId)).all fun key => writes.any (Write.deletes key)
  | _ => true

def undisturbed (r : Redis) : RedisCall → Bool
  | .exec writes => timely r writes && complete r writes
  | _ => true

def Undisturbed (_ : Nat) (r : Redis) (c : RedisCall) : Prop := undisturbed r c = true

def TokenMove.Disciplined (pool : TokenPool) : TokenMove → Prop
  | .proceed n => pool.Ready Undisturbed n
  | _ => True

def TokensDisciplined : List TokenMove → TokenPool → Prop := EachStep tokenStep fun pool move => move.Disciplined pool

def Lists (r : Redis) : Prop := ∀ (grantId : String) (entry : Entry), r.find (.grant grantId) = some entry →
  ∃ items deadline, entry = ⟨.list items,some deadline⟩ ∧ ∀ key ∈ items, ∃ model id, key = .record model id

structure Indexing (r : Redis) : Prop where
  covered : Covered r
  lists : Lists r

section Deletions
variable {r : Redis} {tokens : List Key} {grantId : String}

theorem deletedKeys (keys : List Key) (k : Key) :
    (r.exec (keys.map Write.del)).find k = if k ∈ keys then none else r.find k := by
  unfold Redis.exec
  induction keys generalizing r with
  | nil => simp
  | cons key rest ih =>
      rw [List.map_cons,List.foldl_cons,ih]
      by_cases later : k ∈ rest
      · simp [later]
      · by_cases here : k = key
        · simp [here,Write.apply,Redis.findPut]
        · simp [later,here,Write.apply]

theorem revocationKeys : RedisAdapter.revocation grantId tokens = (tokens ++ [Key.grant grantId]).map Write.del := by
  simp [RedisAdapter.revocation]

theorem revocationComplete
    (full : complete r (RedisAdapter.revocation grantId tokens) = true) {model : Model} {id : String}
    (listed : .record model id ∈ r.items (.grant grantId)) : .record model id ∈ tokens := by
  rw [revocationKeys] at full
  have last : Write.del (.grant grantId) ∈ (tokens ++ [Key.grant grantId]).map Write.del :=
    List.mem_map_of_mem (by simp)
  have deleted := List.all_eq_true.mp (List.all_eq_true.mp full _ last) _ listed
  obtain ⟨write,member,deletes⟩ := List.any_eq_true.mp deleted
  obtain ⟨key,inside,rfl⟩ := List.mem_map.mp member
  have same : key = .record model id := by simpa [Write.deletes] using deletes
  subst same
  simpa using inside

theorem revocationLeaves (indexing : Indexing r)
    (full : complete r (RedisAdapter.revocation grantId tokens) = true) {token : Grantable} {id : String} {entry : Entry}
    (found : (r.exec (RedisAdapter.revocation grantId tokens)).find (.record token.model id) = some entry) :
    r.find (.record token.model id) = some entry ∧
      entry.value.payload?.bind (RedisAdapter.grantOf token.model) ≠ some grantId := by
  rw [revocationKeys,deletedKeys] at found
  split at found
  · cases found
  · rename_i kept
    refine ⟨found,fun granted => ?_⟩
    obtain ⟨list,stored,listed,_⟩ := indexing.covered token id grantId entry found granted
    have inside : Key.record token.model id ∈ r.items (.grant grantId) := by
      simpa [Redis.items,stored] using listed
    exact kept (List.mem_append_left _ (revocationComplete full inside))

theorem revocationIndexing (indexing : Indexing r) (records : ∀ key ∈ tokens, ∃ model id, key = .record model id)
    (full : complete r (RedisAdapter.revocation grantId tokens) = true) :
    Indexing (r.exec (RedisAdapter.revocation grantId tokens)) := by
  have other : ∀ g, g ≠ grantId → (r.exec (RedisAdapter.revocation grantId tokens)).find (.grant g) =
      r.find (.grant g) := by
    intro g apart
    rw [revocationKeys,deletedKeys,if_neg]
    intro inside
    rcases List.mem_append.mp inside with token | last
    · obtain ⟨model,id,same⟩ := records _ token
      cases same
    · exact apart (by simpa using last)
  constructor
  · intro token id g entry found granted
    obtain ⟨before,elsewhere⟩ := revocationLeaves indexing full found
    have apart : g ≠ grantId := fun same => elsewhere (same ▸ granted)
    rw [other g apart]
    exact indexing.covered token id g entry before granted
  · intro g entry found
    by_cases same : g = grantId
    · subst same
      rw [revocationKeys,deletedKeys,if_pos (by simp)] at found
      cases found
    · rw [other g same] at found
      exact indexing.lists g entry found

end Deletions

section Upserts
variable {r : Redis} {token : Grantable} {id grantId : String} {payload : Object} {lifetime : Lifetime} {ttl : Int}

def tokenWrites (token : Grantable) (id : String) (payload : Object) (lifetime : Lifetime)
    (granted : List Write) : List Write :=
  RedisAdapter.recordWrites token.model id payload (some lifetime.seconds) ++ granted ++
    RedisAdapter.indexWrites id payload (some lifetime.seconds)

def pushWrites (token : Grantable) (id grantId : String) (lifetime : Lifetime) (ttl : Int) : List Write :=
  RedisAdapter.grantWrites (.record token.model id) grantId (some lifetime.seconds) ttl

theorem pushKeys {write : Write} (member : write ∈ pushWrites token id grantId lifetime ttl) :
    write.key = .grant grantId := by
  unfold pushWrites RedisAdapter.grantWrites at member
  rcases List.mem_cons.mp member with rfl | reset
  · rfl
  · split at reset
    · cases List.mem_singleton.mp reset
      rfl
    · cases reset

theorem tokenStored {granted : List Write} (apart : ∀ write ∈ granted, ∃ g, write.key = .grant g) :
    (r.exec (tokenWrites token id payload lifetime granted)).find (.record token.model id) =
      some ⟨RedisAdapter.storedValue token.model payload,some (r.clock + 1000 * lifetime.seconds)⟩ := by
  have positive := lifetime.positive
  unfold tokenWrites
  rw [List.append_assoc,execAppend,execOther,RedisAdapter.recordStored]
  · simp [RedisAdapter.deadline,Nat.pos_iff_ne_zero.mp positive]
  · intro write member
    rcases List.mem_append.mp member with push | pointer
    · obtain ⟨g,same⟩ := apart write push
      simp [same]
    · rcases RedisAdapter.indexWritesKeys pointer with ⟨code,same⟩ | ⟨uid,same⟩ <;> simp [same]

theorem tokenOther {granted : List Write} {k : Key} (apart : ∀ write ∈ granted, k ≠ write.key)
    (record : k ≠ .record token.model id) (pointers : (∀ code, k ≠ .userCode code) ∧ ∀ uid, k ≠ .uid uid) :
    (r.exec (tokenWrites token id payload lifetime granted)).find k = r.find k := by
  apply execOther
  intro write member
  unfold tokenWrites at member
  rcases List.mem_append.mp member with stored | pointer
  · rcases List.mem_append.mp stored with own | push
    · rw [RedisAdapter.recordWritesKeys own]
      exact record
    · exact apart write push
  · rcases RedisAdapter.indexWritesKeys pointer with ⟨code,same⟩ | ⟨uid,same⟩
    · rw [same]
      exact pointers.1 code
    · rw [same]
      exact pointers.2 uid

theorem pushed (lists : Lists r) : (r.exec (pushWrites token id grantId lifetime ttl)).find (.grant grantId) =
    some ⟨.list (r.items (.grant grantId) ++ [.record token.model id]),
      if ttl < lifetime.seconds then some (r.clock + 1000 * lifetime.seconds)
      else (r.find (.grant grantId)).bind (·.expiresAt)⟩ := by
  have push : ((Write.rpush (.grant grantId) (.record token.model id)).apply r).find (.grant grantId) =
      some ⟨.list (r.items (.grant grantId) ++ [.record token.model id]),
        (r.find (.grant grantId)).bind (·.expiresAt)⟩ := by
    simp only [Write.apply]
    cases found : r.find (.grant grantId) with
    | none => simp [Redis.findPut,Option.filter,Redis.items,found]
    | some entry =>
        obtain ⟨items,deadline,rfl,_⟩ := lists grantId entry found
        have live := Redis.findLive found
        simp only at live ⊢
        simp [Redis.findPut,Option.filter,Redis.items,found,Value.items,live]
  have reset : (Option.map Int.ofNat (some lifetime.seconds)).any (ttl < ·) = decide (ttl < lifetime.seconds) := rfl
  unfold pushWrites RedisAdapter.grantWrites Redis.exec
  rw [reset]
  by_cases due : ttl < lifetime.seconds
  · simp only [due,decide_true,if_true,List.foldl_cons,List.foldl_nil]
    rw [RedisAdapter.expiryFound push lifetime.positive]
    simp
  · simp only [due,decide_false,List.foldl_cons]
    simpa using push

theorem listStored (lists : Lists r) :
    (r.exec (tokenWrites token id payload lifetime (pushWrites token id grantId lifetime ttl))).find (.grant grantId) =
    some ⟨.list (r.items (.grant grantId) ++ [.record token.model id]),
      if ttl < lifetime.seconds then some (r.clock + 1000 * lifetime.seconds)
      else (r.find (.grant grantId)).bind (·.expiresAt)⟩ := by
  have own : ∀ k, (∀ m i, k ≠ .record m i) → (r.exec (RedisAdapter.recordWrites token.model id payload
      (some lifetime.seconds))).find k = r.find k := by
    intro k other
    apply execOther
    intro write member
    rw [RedisAdapter.recordWritesKeys member]
    exact other _ _
  have before : Lists (r.exec (RedisAdapter.recordWrites token.model id payload (some lifetime.seconds))) := by
    intro g entry found
    rw [own _ (by simp)] at found
    exact lists g entry found
  unfold tokenWrites
  rw [execAppend,execAppend,execOther,pushed before]
  · simp [Redis.items,own (.grant grantId) (by simp)]
  · intro write member
    rcases RedisAdapter.indexWritesKeys member with ⟨code,same⟩ | ⟨uid,same⟩ <;> simp [same]

theorem timelyChoice (right : timely r (tokenWrites token id payload lifetime
    (pushWrites token id grantId lifetime ttl)) = true) :
    decide (ttl < lifetime.seconds) = r.endsBefore (.grant grantId) lifetime.seconds := by
  have push : Write.rpush (.grant grantId) (.record token.model id) ∈ tokenWrites token id payload lifetime
      (pushWrites token id grantId lifetime ttl) := by
    simp [tokenWrites,pushWrites,RedisAdapter.grantWrites]
  have expires : Write.expire (.record token.model id) (some (lifetime.seconds : Int)) ∈ tokenWrites token id payload
      lifetime (pushWrites token id grantId lifetime ttl) := by
    simp [tokenWrites,RedisAdapter.recordWrites,RedisAdapter.expiry,Nat.pos_iff_ne_zero.mp lifetime.positive]
  have checked := List.all_eq_true.mp (List.all_eq_true.mp right _ push) _ expires
  have resets : (tokenWrites token id payload lifetime (pushWrites token id grantId lifetime ttl)).any
      (Write.resets grantId) = decide (ttl < lifetime.seconds) := by
    have pointers : ∀ key : Option Key, (∀ g, key ≠ some (.grant g)) →
        (RedisAdapter.pointerWrites key id (some lifetime.seconds)).any (Write.resets grantId) = false := by
      intro key other
      cases key with
      | none => rfl
      | some key => cases key with
          | grant g => exact absurd rfl (other g)
          | _ => rfl
    have indexed : (RedisAdapter.indexWrites id payload (some lifetime.seconds)).any (Write.resets grantId) = false := by
      unfold RedisAdapter.indexWrites
      rw [List.any_append,pointers _ (by simp),pointers _ (by simp)]
      rfl
    have own : (RedisAdapter.recordWrites token.model id payload (some lifetime.seconds)).any
        (Write.resets grantId) = false := by
      unfold RedisAdapter.recordWrites
      split <;> split <;> rfl
    unfold tokenWrites
    rw [List.any_append,List.any_append,own,indexed]
    unfold pushWrites RedisAdapter.grantWrites
    by_cases due : ttl < lifetime.seconds <;> simp [due,Write.resets,RedisAdapter.expiry]
  rw [resets] at checked
  simpa using checked

section Granted
variable (right : timely r (tokenWrites token id payload lifetime (pushWrites token id grantId lifetime ttl)) = true)

omit right in
theorem grantedElsewhere {g : String} (other : g ≠ grantId) : (r.exec (tokenWrites token id payload lifetime
    (pushWrites token id grantId lifetime ttl))).find (.grant g) = r.find (.grant g) := by
  apply tokenOther
  · intro write member
    simpa [pushKeys member] using other
  · simp
  · simp

include right

theorem grantedDeadline (lists : Lists r) : ∃ deadline, (if ttl < lifetime.seconds then
    some (r.clock + 1000 * lifetime.seconds) else (r.find (.grant grantId)).bind (·.expiresAt)) = some deadline ∧
    r.clock + 1000 * lifetime.seconds ≤ deadline ∧
    ∀ entry earlier, r.find (.grant grantId) = some entry → entry.expiresAt = some earlier → earlier ≤ deadline := by
  have choice := timelyChoice right
  cases found : r.find (.grant grantId) with
  | none =>
      have due : ttl < lifetime.seconds := by simpa [Redis.endsBefore,found] using choice
      exact ⟨_,if_pos due,Nat.le_refl _,nofun⟩
  | some entry =>
      obtain ⟨items,old,rfl,_⟩ := lists grantId entry found
      by_cases due : ttl < lifetime.seconds
      · have before : (old : Int) < r.clock + 1000 * lifetime.seconds := by
          simpa [Redis.endsBefore,found,due] using choice
        refine ⟨_,if_pos due,Nat.le_refl _,?_⟩
        intro entry earlier same dated
        cases Option.some.inj same
        cases Option.some.inj dated
        omega
      · have after : ¬ (old : Int) < r.clock + 1000 * lifetime.seconds := by
          simpa [Redis.endsBefore,found,due] using choice
        refine ⟨old,if_neg due,by omega,?_⟩
        intro entry earlier same dated
        cases Option.some.inj same
        cases Option.some.inj dated
        exact Nat.le_refl _

theorem grantedLists (lists : Lists r) :
    Lists (r.exec (tokenWrites token id payload lifetime (pushWrites token id grantId lifetime ttl))) := by
  obtain ⟨deadline,dated,_⟩ := grantedDeadline right lists
  intro g entry found
  by_cases here : g = grantId
  · subst here
    rw [listStored lists,dated] at found
    cases Option.some.inj found
    refine ⟨_,deadline,rfl,?_⟩
    intro key member
    rcases List.mem_append.mp member with old | new
    · cases before : r.find (.grant g) with
      | none => simp [Redis.items,before] at old
      | some entry =>
          obtain ⟨items,d,rfl,records⟩ := lists g entry before
          exact records key (by simpa [Redis.items,before,Value.items] using old)
    · exact ⟨_,_,List.mem_singleton.mp new⟩
  · rw [grantedElsewhere here] at found
    exact lists g entry found

theorem grantedIndexing (indexing : Indexing r) (granted : RedisAdapter.grantOf token.model payload = some grantId) :
    Indexing (r.exec (tokenWrites token id payload lifetime (pushWrites token id grantId lifetime ttl))) := by
  have pushes : ∀ write ∈ pushWrites token id grantId lifetime ttl, ∃ g, write.key = .grant g :=
    fun write member => ⟨grantId,pushKeys member⟩
  have stored := @listStored r token id grantId payload lifetime ttl indexing.lists
  obtain ⟨deadline,dated,covers,kept⟩ := grantedDeadline right indexing.lists
  rw [dated] at stored
  refine ⟨?_,grantedLists right indexing.lists⟩
  intro token' id' g entry found grantedTo
  by_cases same : Key.record token'.model id' = .record token.model id
  · rw [same] at found ⊢
    rw [tokenStored pushes] at found
    cases Option.some.inj found
    injection same with models ids
    rw [models,RedisAdapter.storedPayload,Option.bind_some,granted] at grantedTo
    cases Option.some.inj grantedTo
    refine ⟨_,stored,by simp [Value.items],?_⟩
    intro d now
    cases Option.some.inj now
    exact ⟨_,rfl,covers⟩
  · rw [tokenOther (fun write member => by simp [pushKeys member]) same (by simp)] at found
    obtain ⟨list,before,listed,lasting⟩ := indexing.covered token' id' g entry found grantedTo
    by_cases here : g = grantId
    · subst here
      refine ⟨_,stored,?_,?_⟩
      · have inside : Key.record token'.model id' ∈ r.items (.grant g) := by
          simpa [Redis.items,before] using listed
        simp [Value.items,inside]
      · intro d now
        cases Option.some.inj now
        obtain ⟨items,old,rfl,_⟩ := indexing.lists g list before
        obtain ⟨earlier,expires,within⟩ := lasting old rfl
        exact ⟨earlier,expires,Nat.le_trans within (kept _ old before rfl)⟩
    · rw [grantedElsewhere here]
      exact ⟨list,before,listed,lasting⟩

end Granted

theorem ungrantedIndexing (indexing : Indexing r) (granted : RedisAdapter.grantOf token.model payload = none) :
    Indexing (r.exec (tokenWrites token id payload lifetime [])) := by
  have kept : ∀ g, (r.exec (tokenWrites token id payload lifetime [])).find (.grant g) = r.find (.grant g) :=
    fun g => tokenOther (by simp) (by simp) (by simp)
  constructor
  · intro token' id' g entry found grantedTo
    by_cases same : Key.record token'.model id' = .record token.model id
    · rw [same,tokenStored (by simp)] at found
      cases Option.some.inj found
      injection same with models ids
      rw [models,RedisAdapter.storedPayload,Option.bind_some,granted] at grantedTo
      cases grantedTo
    · rw [tokenOther (by simp) same (by simp)] at found
      rw [kept]
      exact indexing.covered token' id' g entry found grantedTo
  · intro g entry found
    rw [kept] at found
    exact indexing.lists g entry found

end Upserts

theorem passIndexing {r : Redis} (indexing : Indexing r) (ms : Nat) : Indexing (r.pass ms) := by
  constructor
  · intro token id g entry found granted
    obtain ⟨list,stored,listed,lasting⟩ := indexing.covered token id g entry (Redis.passLive found) granted
    refine ⟨list,?_,listed,lasting⟩
    obtain ⟨raw,_⟩ := Option.filter_eq_some_iff.mp stored
    apply Option.filter_eq_some_iff.mpr
    refine ⟨raw,?_⟩
    cases expires : list.expiresAt with
    | none => rfl
    | some deadline =>
        obtain ⟨earlier,dated,within⟩ := lasting deadline expires
        have live := Redis.findLive found
        simp only [dated,Option.all_some] at live ⊢
        have later : r.clock + ms < earlier := of_decide_eq_true live
        exact decide_eq_true (Nat.lt_of_lt_of_le later within)
  · exact fun g entry found => indexing.lists g entry (Redis.passLive found)

def indexingContract : Contract redis Redis where
  ok r c := undisturbed r c = true
  rely _ r := Indexing r
  guarantee _ r := Indexing r

theorem execKeeps {writes : List Write} {r : Redis} (indexing : Indexing r)
    (kept : ∀ v, Indexing v → timely v writes = true ∧ complete v writes = true → Indexing (v.exec writes)) :
    Keeps answerRedis RedisCall.awaits indexingContract (RedisAdapter.exec writes)
      (fun _ => indexingContract.guarantee) r r := by
  apply keepsAwait rfl indexing
  intro v moved ok w
  have undisturbed : timely v writes = true ∧ complete v writes = true := Bool.and_eq_true_iff.mp ok
  exact kept v moved undisturbed

theorem callKeeps (c : TokenCall) {r : Redis} (indexing : Indexing r) :
    Keeps answerRedis RedisCall.awaits indexingContract c.program (fun _ => indexingContract.guarantee) r r := by
  cases c with
  | revokeByGrantId g =>
      apply keepsAwait rfl indexing
      intro v moved ok w
      apply execKeeps moved
      intro v' moved' undisturbed
      apply revocationIndexing moved' ?_ undisturbed.2
      intro key member
      cases found : v.find (.grant g) with
      | none => simp [answerRedis,Redis.items,found] at member
      | some entry =>
          obtain ⟨items,deadline,rfl,records⟩ := moved.lists g entry found
          exact records key (by simpa [answerRedis,Redis.items,found,Value.items] using member)
  | upsert token id payload lifetime =>
      have unreferenced : token.model.referencable = none := by
        obtain ⟨model,grantable⟩ := token
        cases model <;> first | rfl | cases grantable
      simp only [TokenCall.program,RedisAdapter.upsert,RedisAdapter.grantIndex,unreferenced]
      cases granted : RedisAdapter.grantOf token.model payload with
      | none =>
          rw [pureBind]
          exact keepsBind (keepsMono (execKeeps indexing fun v moved _ => ungrantedIndexing moved granted)
            fun r t u kept => by cases r <;> exact kept)
      | some g =>
          simp only [bindAssoc,pureBind]
          apply keepsBind
          apply keepsAwait rfl indexing
          intro v moved ok w
          exact keepsBind (keepsMono (execKeeps moved fun v' moved' undisturbed =>
            grantedIndexing undisturbed.1 moved' granted) fun r t u kept => by cases r <;> exact kept)

section Runs
variable {moves before after : List TokenMove} {pool : TokenPool} {n : Nat}

def TokensIndexed (pool : TokenPool) : Prop :=
  pool.Steady answerAny RedisCall.awaits (fun _ => indexingContract) ∧ Indexing pool.state

theorem stepHolds {move : TokenMove} (holds : TokensIndexed pool) (disciplined : move.Disciplined pool) :
    TokensIndexed (tokenStep pool move) := by
  obtain ⟨steady,indexing⟩ := holds
  have trans : ∀ (_ : Nat) {a b c : Redis}, indexingContract.rely a b → indexingContract.rely b c →
      indexingContract.rely a c := fun _ _ _ _ _ second => second
  cases move with
  | start c => exact Pool.steadySpawn trans (fun _ kept => kept) steady (callKeeps c indexing)
  | proceed n => exact Pool.steadyProceed trans (fun _ kept => kept) indexing indexing steady disciplined
  | pass ms => exact ⟨Pool.steadyEdit trans steady fun _ => passIndexing indexing ms,passIndexing indexing ms⟩

theorem runHolds (holds : TokensIndexed pool) (disciplined : TokensDisciplined moves pool) :
    TokensIndexed (tokenRun moves pool) :=
  eachStepKeeps TokensIndexed (fun _ _ => stepHolds) holds disciplined

theorem disciplinedSplit (disciplined : TokensDisciplined (before ++ after) pool) :
    TokensDisciplined before pool ∧ TokensDisciplined after (tokenRun before pool) :=
  eachStepAppend.mp disciplined

theorem tokenRunAppend : tokenRun (before ++ after) pool = tokenRun after (tokenRun before pool) :=
  List.foldl_append ..

theorem threadStays {p : Stored Unit} (stands : pool.threads[n]? = some p) (others : .proceed n ∉ moves) :
    (tokenRun moves pool).threads[n]? = some p := by
  induction moves generalizing pool with
  | nil => exact stands
  | cons move rest ih =>
      simp only [List.mem_cons,not_or] at others
      apply ih ?_ others.2
      have within : n < pool.threads.length := (List.getElem?_eq_some_iff.mp stands).1
      cases move with
      | start c => exact (List.getElem?_append_left within).trans stands
      | pass ms => exact stands
      | proceed m =>
          have apart : m ≠ n := fun same => others.1 (same ▸ rfl)
          simp only [tokenStep,Pool.proceed]
          split
          · exact (List.getElem?_set_ne apart).trans stands
          · exact stands

end Runs

def noTokens : TokenPool := ⟨[],{}⟩

theorem noTokensHold : TokensIndexed noTokens := ⟨Pool.steadyEmpty _,⟨nofun,nofun⟩⟩

/- In every run whose transactions find what was read for them undisturbed, every live token stands
in its grant's list for as long as it lives, and once a revocation has executed no token of its
grant is live. -/
theorem grantIndexCovers (moves : List TokenMove) (disciplined : TokensDisciplined moves noTokens) :
    Covered (tokenRun moves noTokens).state ∧
      ∀ before during n grantId, moves = before ++ .proceed n :: during ++ [.proceed n] →
        (tokenRun before noTokens).threads[n]? = some (RedisAdapter.revokeByGrantId grantId) →
        .proceed n ∉ during → ∀ token id, (tokenRun moves noTokens).state.grant token id ≠ some grantId := by
  refine ⟨(runHolds noTokensHold disciplined).2.covered,?_⟩
  intro before during n grantId whole revokes others token id granted
  subst whole
  obtain ⟨first,last⟩ := disciplinedSplit disciplined
  have holds := runHolds noTokensHold first
  -- After its LRANGE the revocation stands before its EXEC, until it is resumed.
  obtain ⟨tokens,stands⟩ : ∃ tokens, (tokenRun (before ++ .proceed n :: during) noTokens).threads[n]? =
      some (RedisAdapter.exec (RedisAdapter.revocation grantId tokens)) := by
    refine ⟨(tokenRun before noTokens).state.items (.grant grantId),?_⟩
    rw [tokenRunAppend]
    apply threadStays ?_ others
    have within := (List.getElem?_eq_some_iff.mp revokes).1
    simp only [tokenStep,Pool.proceed,revokes]
    exact List.getElem?_set_self within
  have ready := last.1
  simp only [TokenMove.Disciplined,Pool.Ready,stands] at ready
  have full := (Bool.and_eq_true_iff.mp ready).2
  rw [tokenRunAppend] at granted
  simp only [tokenRun,List.foldl_cons,List.foldl_nil] at granted
  rw [← tokenRun,tokenStep,Pool.proceed,stands] at granted
  obtain ⟨entry,found,named⟩ := grantEntry granted
  exact (revocationLeaves holds.2 full found).2 named

def refreshToken : Grantable := ⟨.refreshToken,rfl⟩

def storing (id : String) (seconds : Nat) (positive : 0 < seconds) : TokenCall :=
  .upsert refreshToken id [("grantId",.string "g")] ⟨seconds,positive⟩

def storeThenRevoke : List TokenMove :=
  [.start (storing "a" 60 (by decide)),.proceed 0,.proceed 0,.start (.revokeByGrantId "g"),.proceed 1,.proceed 1]

theorem storedThenRevoked : (tokenRun storeThenRevoke noTokens).state.grant refreshToken "a" ≠ some "g" :=
  (grantIndexCovers storeThenRevoke ⟨trivial,rfl,rfl,trivial,rfl,rfl,trivial⟩).2
    (storeThenRevoke.take 4) [] 1 "g" rfl rfl (by simp) refreshToken "a"

def storeWhileRevoking : List TokenMove :=
  [.start (storing "a" 60 (by decide)),.proceed 0,.proceed 0,.start (.revokeByGrantId "g"),.proceed 1,
   .start (storing "b" 60 (by decide)),.proceed 2,.proceed 2,.proceed 1]

/- Nothing is in flight, the token lives, and no list names it. -/
theorem storedWhileRevoking :
    (tokenRun storeWhileRevoking noTokens).threads = [.pure (),.pure (),.pure ()] ∧
    (tokenRun storeWhileRevoking noTokens).state.grant refreshToken "b" = some "g" ∧
    ¬ Covered (tokenRun storeWhileRevoking noTokens).state := by
  have gone : (tokenRun storeWhileRevoking noTokens).state.find (.grant "g") = none := by rfl
  have lives : (tokenRun storeWhileRevoking noTokens).state.grant refreshToken "b" = some "g" := by rfl
  refine ⟨by rfl,lives,fun covered => ?_⟩
  obtain ⟨entry,stored,named⟩ := grantEntry lives
  obtain ⟨list,found,_⟩ := covered refreshToken "b" "g" entry stored named
  rw [gone] at found
  cases found

end Passmower
