import Passmower.GrantIndex
import Passmower.IdentityIntegrity
import Passmower.Resumption.Stepping
import Passmower.Resumption.Triple

/-! The tokens that can be consumed: hashes in Redis with a payload and a mark, issued, consumed, destroyed and revoked in any
order of the commands, while time passes. -/
namespace Passmower
open JavaScript Resumption Program

structure Consumable where
  model : Model
  consumable : model.consumable = true

def Consumable.key (token : Consumable) (id : String) : Key := .record token.model id

def Key.consumable : Key → Bool
  | .record model _ => model.consumable
  | _ => false

structure TokenHash where
  payload : Option Object
  consumed : Option Nat
  expiresAt : Option Nat

/- What a token is meant to be, from its upsert to its end. -/
structure Issued where
  payload : Object
  consumed : Option Nat
  deadline : Option Nat

def Issued.hash (issued : Issued) : TokenHash := ⟨some issued.payload,issued.consumed,issued.deadline⟩

def marked (consumed : Option Nat) (payload : Object) : Object :=
  Object.spread (consumed.toList.map fun seconds => ("consumed",.string (toString seconds))) payload

/- The hashes, and everything else there is in Redis; and the tokens as they are meant to be. -/
structure TokenStore where
  redis : Redis
  hashes : Key → Option TokenHash := fun _ => none
  issued : Key → Option Issued := fun _ => none

namespace TokenStore
variable (s : TokenStore)

def hash (key : Key) : Option TokenHash := (s.hashes key).filter fun hash => hash.expiresAt.all (s.redis.clock < ·)

def live (key : Key) : Option Issued := (s.issued key).filter fun issued => issued.deadline.all (s.redis.clock < ·)

def put (key : Key) (hash : Option TokenHash) (issued : Option Issued) : TokenStore :=
  {s with
    hashes := fun other => if other = key then hash else s.hashes other
    issued := fun other => if other = key then issued else s.issued other}

def pass (ms : Nat) : TokenStore := {s with redis := s.redis.pass ms}

def onToken : Write → TokenStore
  | .hmset key payload => s.put key
      (some ⟨some payload,(s.hash key).bind (·.consumed),(s.hash key).bind (·.expiresAt)⟩)
      (some ⟨payload,(s.live key).bind (·.consumed),(s.live key).bind (·.deadline)⟩)
  | .expire key (some seconds) =>
      if 0 < seconds then s.put key
        ((s.hash key).map fun hash => {hash with expiresAt := some (s.redis.clock + 1000 * seconds.toNat)})
        ((s.live key).map fun issued => {issued with deadline := some (s.redis.clock + 1000 * seconds.toNat)})
      else s.put key none none
  | .del key => s.put key none none
  | _ => s

def apply (write : Write) : TokenStore :=
  if write.key.consumable then s.onToken write else {s with redis := write.apply s.redis}

def exec (writes : List Write) : TokenStore := writes.foldl apply s

/- `HSET` makes the hash where there is none. A token that is not there is not consumed. -/
def hset (key : Key) (seconds : Nat) : TokenStore := s.put key
  (some {(s.hash key).getD ⟨none,none,none⟩ with consumed := some seconds})
  ((s.live key).map fun issued => {issued with consumed := some seconds})

end TokenStore

inductive TokenCommand where
  | redis (c : RedisCall)
  | hgetall (key : Key)
  | hset (key : Key) (seconds : Nat)

abbrev TokenReply : TokenCommand → Type
  | .redis c => RedisAnswer c
  | .hgetall _ => Option TokenHash
  | .hset _ _ => Unit

abbrev tokens : Interface := ⟨TokenCommand,TokenReply⟩

def TokenCommand.awaits : TokenCommand → Bool
  | .redis c => c.awaits
  | _ => true

def answerTokens : Handler tokens Unit TokenStore
  | (), .redis (.exec writes), s => ((),s.exec writes)
  | (), .redis c, s => ((answerRedis () c s.redis).1,s)
  | (), .hgetall key, s => (s.hash key,s)
  | (), .hset key seconds, s => ((),s.hset key seconds)

abbrev Consuming (α : Type) := Program tokens JsError α

def stored {α : Type} : Stored α → Consuming α
  | .pure a => .pure a
  | .throw e => e.elim
  | .call c next => .call (.redis c) fun answer => stored (next answer)

namespace RedisAdapter
variable (token : Consumable) (id : String)

def findConsumable : Consuming (Option Object) := do
  match ← ask (I := tokens) (.hgetall (token.key id)) with
  | none => .pure none
  | some hash => match hash.payload with
      | some payload => .pure (some (marked hash.consumed payload))
      | none => .throw (.other "\"undefined\" is not valid JSON")

def upsertConsumable (payload : Object) (lifetime : Lifetime) : Consuming Unit :=
  stored (upsert token.model id payload (some lifetime.seconds))

def destroyConsumable : Consuming Unit := do
  let _ ← findConsumable token id
  ask (I := tokens) (.redis (.exec [.del (token.key id)]))

def consume : Consuming Unit := do
  let now : Nat ← ask (I := tokens) (.redis .now)
  ask (I := tokens) (.hset (token.key id) (now / 1000))

end RedisAdapter

inductive ConsumableCall where
  | upsert (token : Consumable) (id : String) (payload : Object) (lifetime : Lifetime)
  | find (token : Consumable) (id : String)
  | consume (token : Consumable) (id : String)
  | destroy (token : Consumable) (id : String)
  | revokeByGrantId (grantId : String)

def ConsumableCall.program : ConsumableCall → Consuming Unit
  | .upsert token id payload lifetime => RedisAdapter.upsertConsumable token id payload lifetime
  | .find token id => do
      let _ ← RedisAdapter.findConsumable token id
      .pure ()
  | .consume token id => RedisAdapter.consume token id
  | .destroy token id => RedisAdapter.destroyConsumable token id
  | .revokeByGrantId grantId => stored (RedisAdapter.revokeByGrantId grantId)

inductive ConsumableMove where
  | start (c : ConsumableCall)
  | proceed (n : Nat)
  | pass (ms : Nat)

abbrev ConsumablePool := Pool tokens JsError TokenStore

namespace ConsumablePool

def step (pool : ConsumablePool) : ConsumableMove → ConsumablePool
  | .start c => pool.spawn (fun _ => answerTokens) TokenCommand.awaits c.program
  | .proceed n => pool.proceed (fun _ => answerTokens) TokenCommand.awaits n ()
  | .pass ms => pool.edit (·.pass ms)

def run (moves : List ConsumableMove) (pool : ConsumablePool) : ConsumablePool := moves.foldl step pool

def begin (redis : Redis) : ConsumablePool := ⟨[],⟨redis,fun _ => none,fun _ => none⟩⟩

end ConsumablePool

def Marks (s : TokenStore) : TokenCommand → Prop
  | .hset key _ => (s.hash key).isSome = true
  | _ => True

def Issues (key : Key) : TokenCommand → Prop
  | .redis (.exec writes) => ∃ payload, .hmset key payload ∈ writes
  | _ => False

namespace ConsumablePool

def Marking (pool : ConsumablePool) : ConsumableMove → Prop
  | .proceed n => pool.Ready (fun _ => Marks) n
  | _ => True

def Idle (key : Key) (pool : ConsumablePool) : ConsumableMove → Prop
  | .proceed n => pool.Ready (fun _ _ c => ¬ Issues key c) n
  | _ => True

end ConsumablePool

structure Lifecycle (s : TokenStore) : Prop where
  same : ∀ key, s.hash key = (s.live key).map Issued.hash
  bounded : ∀ key issued, s.live key = some issued → issued.deadline ≠ none

section Stores
variable {s : TokenStore} {key other : Key}

theorem hashPut {hash : Option TokenHash} {issued : Option Issued} : (s.put key hash issued).hash other =
    if other = key then hash.filter fun hash => hash.expiresAt.all (s.redis.clock < ·) else s.hash other := by
  unfold TokenStore.hash TokenStore.put
  split <;> simp_all

theorem livePut {hash : Option TokenHash} {issued : Option Issued} : (s.put key hash issued).live other =
    if other = key then issued.filter fun issued => issued.deadline.all (s.redis.clock < ·) else s.live other := by
  unfold TokenStore.live TokenStore.put
  split <;> simp_all

theorem filterHash (issued : Option Issued) (clock : Nat) :
    (issued.map Issued.hash).filter (fun hash => hash.expiresAt.all (clock < ·)) =
      (issued.filter fun issued => issued.deadline.all (clock < ·)).map Issued.hash := by
  cases issued with
  | none => rfl
  | some issued =>
      simp only [Option.map_some,Option.filter,Issued.hash]
      split <;> rfl

theorem samePut (same : ∀ key, s.hash key = (s.live key).map Issued.hash) (issued : Option Issued) (k : Key) :
    (s.put key (issued.map Issued.hash) issued).hash k = ((s.put key (issued.map Issued.hash) issued).live k).map Issued.hash := by
  rw [hashPut,livePut]
  split
  · exact filterHash issued s.redis.clock
  · exact same k

theorem redisApply (write : Write) (key : Key) (others : write.key.consumable = false) :
    (s.apply write).hash key = s.hash key ∧ (s.apply write).live key = s.live key := by
  have clock : (write.apply s.redis).clock = s.redis.clock := applyClock s.redis write
  unfold TokenStore.apply
  rw [if_neg (by simp [others])]
  unfold TokenStore.hash TokenStore.live
  simp only [clock,and_self]

theorem lifecycleApply (write : Write) (lifecycle : Lifecycle s) (others : write.key.consumable = false) :
    Lifecycle (s.apply write) := by
  constructor
  · intro key
    rw [(redisApply write key others).1,(redisApply write key others).2]
    exact lifecycle.same key
  · intro key
    rw [(redisApply write key others).2]
    exact lifecycle.bounded key

theorem lifecycleExec {writes : List Write} (lifecycle : Lifecycle s) (others : ∀ write ∈ writes, write.key.consumable = false) :
    Lifecycle (s.exec writes) := by
  unfold TokenStore.exec
  induction writes generalizing s with
  | nil => exact lifecycle
  | cons write rest ih =>
      exact ih (lifecycleApply write lifecycle (others write List.mem_cons_self)) fun w inside => others w (List.mem_cons_of_mem _ inside)

theorem lifecyclePut (lifecycle : Lifecycle s) (issued : Option Issued)
    (bounded : ∀ token, issued = some token → token.deadline ≠ none) : Lifecycle (s.put key (issued.map Issued.hash) issued) := by
  refine ⟨samePut lifecycle.same issued,fun k token found => ?_⟩
  rw [livePut] at found
  split at found
  · exact bounded token (Option.filter_eq_some_iff.mp found).1
  · exact lifecycle.bounded k token found

theorem lifecycleDel (lifecycle : Lifecycle s) (key : Key) : Lifecycle (s.apply (.del key)) := by
  unfold TokenStore.apply
  split
  · exact lifecyclePut lifecycle none nofun
  · rename_i others
    have kept := lifecycleApply (.del key) lifecycle (by simpa [Write.key] using others)
    unfold TokenStore.apply at kept
    rwa [if_neg others] at kept

theorem lifecycleRevoked {keys : List Key} (lifecycle : Lifecycle s) : Lifecycle (s.exec (keys.map Write.del)) := by
  unfold TokenStore.exec
  induction keys generalizing s with
  | nil => exact lifecycle
  | cons key rest ih => exact ih (lifecycleDel lifecycle key)

theorem filterLater {α : Type} (entry : Option α) (deadline : α → Option Nat) (clock ms : Nat) :
    entry.filter (fun a => (deadline a).all (clock + ms < ·)) =
      (entry.filter fun a => (deadline a).all (clock < ·)).filter fun a => (deadline a).all (clock + ms < ·) := by
  cases entry with
  | none => rfl
  | some a =>
      cases ends : deadline a with
      | none => simp [Option.filter,ends]
      | some time =>
          by_cases later : clock + ms < time
          · have before : clock < time := by omega
            simp [Option.filter,ends,later,before]
          · by_cases before : clock < time <;> simp [Option.filter,ends,later,before]

theorem lifecyclePass (lifecycle : Lifecycle s) (ms : Nat) : Lifecycle (s.pass ms) := by
  have hash (key : Key) : (s.pass ms).hash key = (s.hash key).filter fun hash => hash.expiresAt.all (s.redis.clock + ms < ·) :=
    filterLater (s.hashes key) (·.expiresAt) s.redis.clock ms
  have live (key : Key) : (s.pass ms).live key = (s.live key).filter fun token => token.deadline.all (s.redis.clock + ms < ·) :=
    filterLater (s.issued key) (·.deadline) s.redis.clock ms
  constructor
  · intro key
    rw [hash,live,lifecycle.same key]
    exact filterHash (s.live key) (s.redis.clock + ms)
  · intro key token found
    rw [live] at found
    exact lifecycle.bounded key token (Option.filter_eq_some_iff.mp found).1

theorem lifecycleMark (lifecycle : Lifecycle s) (seconds : Nat) (there : (s.hash key).isSome = true) :
    Lifecycle (s.hset key seconds) := by
  have same := lifecycle.same key
  cases found : s.live key with
  | none => simp [same,found] at there
  | some token =>
      rw [found] at same
      unfold TokenStore.hset
      rw [found,same]
      exact lifecyclePut lifecycle (some {token with consumed := some seconds})
        (fun _ marked => by cases marked; exact lifecycle.bounded key token found)

theorem lifecycleIssue {payload : Object} {lifetime : Lifetime} (lifecycle : Lifecycle s) (own : key.consumable = true) :
    Lifecycle (s.exec [.hmset key payload,RedisAdapter.expiry key (some lifetime.seconds)]) := by
  generalize begun : s.apply (.hmset key payload) = t
  have first : t = s.put key ((some ⟨payload,(s.live key).bind (·.consumed),(s.live key).bind (·.deadline)⟩ : Option Issued).map
      Issued.hash) (some ⟨payload,(s.live key).bind (·.consumed),(s.live key).bind (·.deadline)⟩) := by
    subst begun
    have same := lifecycle.same key
    have applied : s.apply (.hmset key payload) = s.onToken (.hmset key payload) := if_pos own
    rw [applied]
    simp only [TokenStore.onToken,same,Option.map_some,Issued.hash]
    cases s.live key <;> rfl
  have same : ∀ k, t.hash k = (t.live k).map Issued.hash := by
    subst first
    exact samePut lifecycle.same _
  have second : s.exec [.hmset key payload,RedisAdapter.expiry key (some lifetime.seconds)] =
      t.put key (((t.live key).map fun token =>
          {token with deadline := some (t.redis.clock + 1000 * lifetime.seconds)}).map Issued.hash)
        ((t.live key).map fun token => {token with deadline := some (t.redis.clock + 1000 * lifetime.seconds)}) := by
    have positive : (0 : Int) < Int.ofNat lifetime.seconds := by simpa using lifetime.positive
    have applied : t.apply (.expire key (some (Int.ofNat lifetime.seconds))) =
        t.onToken (.expire key (some (Int.ofNat lifetime.seconds))) := if_pos own
    simp only [TokenStore.exec,List.foldl_cons,List.foldl_nil,begun,RedisAdapter.expiry,Option.map_some,applied]
    simp only [TokenStore.onToken,if_pos positive,same key]
    cases t.live key <;> rfl
  rw [second]
  refine ⟨samePut same _,fun k token found => ?_⟩
  rw [livePut] at found
  split at found
  · obtain ⟨before,_,rfl⟩ := Option.map_eq_some_iff.mp (Option.filter_eq_some_iff.mp found).1
    exact Option.some_ne_none _
  · rename_i other
    rw [first,livePut,if_neg other] at found
    exact lifecycle.bounded k token found

end Stores

def tokensContract : Contract tokens TokenStore :=
  ⟨Marks,fun s t => Lifecycle s → Lifecycle t,fun s t => Lifecycle s → Lifecycle t⟩

abbrev Lives {α : Type} (p : Consuming α) : Prop :=
  Triple answerTokens tokensContract Lifecycle p fun _ => Lifecycle

section Programs
variable {α β : Type} {token : Consumable} {id : String}

theorem lifecycleStable : Stable tokensContract Lifecycle := fun _ _ moved => moved

theorem movedSelf (s : TokenStore) : tokensContract.rely s s := fun lifecycle => lifecycle

theorem livesPure (a : α) : Lives (.pure a) := triplePure lifecycleStable fun _ lifecycle => lifecycle

theorem livesAsk {c : TokenCommand} {f : TokenReply c → Consuming α}
    (served : ∀ s, Lifecycle s → Marks s c → Lifecycle (answerTokens () c s).2) (next : ∀ a, Lives (f a)) :
    Lives (ask (I := tokens) c >>= f) := by
  apply tripleAsk (fun _ => Lifecycle) lifecycleStable
  · intro s _ lifecycle marks
    exact ⟨fun _ => served s lifecycle marks,served s lifecycle marks⟩
  · exact next

theorem livesBind {p : Consuming α} {f : α → Consuming β} (first : Lives p) (next : ∀ a, Lives (f a)) : Lives (p >>= f) := by
  apply tripleBind movedSelf (fun _ => Lifecycle)
  · apply tripleMono first (fun _ lifecycle => lifecycle)
    intro r s lifecycle
    cases r <;> exact lifecycle
  · exact next

theorem upsertWrites {payload : Object} {lifetime : Lifetime} {granted : List Write} {s : TokenStore}
    (apart : ∀ write ∈ granted, write.key.consumable = false) (lifecycle : Lifecycle s) :
    Lifecycle (s.exec (RedisAdapter.recordWrites token.model id payload (some lifetime.seconds) ++ granted ++
      RedisAdapter.indexWrites id payload (some lifetime.seconds))) := by
  have own : RedisAdapter.recordWrites token.model id payload (some lifetime.seconds) =
      [.hmset (token.key id) payload,RedisAdapter.expiry (token.key id) (some lifetime.seconds)] := by
    have ahead : lifetime.seconds ≠ 0 := Nat.pos_iff_ne_zero.mp lifetime.positive
    simp [RedisAdapter.recordWrites,token.consumable,ahead,Consumable.key]
  have issued : Lifecycle (s.exec [.hmset (token.key id) payload,RedisAdapter.expiry (token.key id) (some lifetime.seconds)]) :=
    lifecycleIssue lifecycle token.consumable
  rw [own,List.append_assoc]
  unfold TokenStore.exec at issued ⊢
  rw [List.foldl_append]
  apply lifecycleExec issued
  intro write inside
  rcases List.mem_append.mp inside with pushed | pointer
  · exact apart write pushed
  · rcases RedisAdapter.indexWritesKeys pointer with ⟨code,same⟩ | ⟨uid,same⟩
    · rw [same]
      rfl
    · rw [same]
      rfl

theorem upsertLives (payload : Object) (lifetime : Lifetime) : Lives (RedisAdapter.upsertConsumable token id payload lifetime) := by
  have unowned : token.model.referencable = none := by
    have consumable := token.consumable
    revert consumable
    generalize token.model = model
    intro consumable
    cases model <;> first | rfl | cases consumable
  unfold RedisAdapter.upsertConsumable RedisAdapter.upsert RedisAdapter.grantIndex
  rw [unowned]
  split
  · change Lives (ask (I := tokens) (.redis (.exec _)) >>= fun _ => Program.pure ())
    apply livesAsk
    · exact fun s lifecycle _ => upsertWrites nofun lifecycle
    · exact fun _ => livesPure ()
  · rename_i grantId _
    change Lives (ask (I := tokens) (.redis (.ttl _)) >>= fun _ => ask (I := tokens) (.redis (.exec _)) >>= fun _ => Program.pure ())
    apply livesAsk
    · exact fun s lifecycle _ => lifecycle
    · intro ttl
      apply livesAsk
      · intro s lifecycle _
        apply upsertWrites _ lifecycle
        intro write pushed
        unfold RedisAdapter.grantWrites at pushed
        rcases List.mem_cons.mp pushed with rfl | reset
        · rfl
        · split at reset
          · cases List.mem_singleton.mp reset
            rfl
          · cases reset
      · exact fun _ => livesPure ()

theorem findLives : Lives (RedisAdapter.findConsumable token id) := by
  unfold RedisAdapter.findConsumable
  apply livesAsk
  · exact fun s lifecycle _ => lifecycle
  · intro answer
    cases answer with
    | none => exact livesPure none
    | some hash => cases found : hash.payload with
        | none =>
            simp only [found]
            exact tripleThrow lifecycleStable fun _ lifecycle => lifecycle
        | some payload =>
            simp only [found]
            exact livesPure _

theorem programLives (c : ConsumableCall) : Lives c.program := by
  cases c with
  | upsert token id payload lifetime => exact upsertLives payload lifetime
  | find token id => exact livesBind findLives fun _ => livesPure ()
  | consume token id =>
      apply livesAsk
      · exact fun s lifecycle _ => lifecycle
      · intro now
        change Lives (ask (I := tokens) (.hset _ _) >>= Program.pure)
        apply livesAsk
        · exact fun s lifecycle there => lifecycleMark lifecycle _ there
        · exact fun _ => livesPure ()
  | destroy token id =>
      apply livesBind findLives
      intro _
      change Lives (ask (I := tokens) (.redis (.exec _)) >>= Program.pure)
      apply livesAsk
      · exact fun s lifecycle _ => lifecycleDel lifecycle _
      · exact fun _ => livesPure ()
  | revokeByGrantId grantId =>
      change Lives (ask (I := tokens) (.redis (.lrange (.grant grantId))) >>= fun keys =>
        ask (I := tokens) (.redis (.exec (RedisAdapter.revocation grantId keys))) >>= Program.pure)
      apply livesAsk
      · exact fun s lifecycle _ => lifecycle
      · intro keys
        apply livesAsk
        · intro s lifecycle _
          show Lifecycle (s.exec (RedisAdapter.revocation grantId keys))
          rw [revocationKeys]
          exact lifecycleRevoked lifecycle
        · exact fun _ => livesPure ()

end Programs

namespace ConsumablePool
variable {pool : ConsumablePool} {key : Key}

structure Keeping (pool : ConsumablePool) : Prop where
  steady : pool.Steady (fun _ => answerTokens) TokenCommand.awaits fun _ => tokensContract
  lifecycle : Lifecycle pool.state

theorem movedTrans {a b c : TokenStore} (first : tokensContract.rely a b) (second : tokensContract.rely b c) :
    tokensContract.rely a c := fun lifecycle => second (first lifecycle)

theorem stepKeeping {move : ConsumableMove} (keeping : Keeping pool) (marking : Marking pool move) : Keeping (step pool move) := by
  cases move with
  | start c =>
      have keeps : Keeps answerTokens TokenCommand.awaits tokensContract c.program (fun _ => tokensContract.guarantee)
          pool.state pool.state := by
        apply soundKeeps _ (movedSelf pool.state) (programLives c pool.state keeping.lifecycle)
        intro c instant s t moved
        refine ⟨movedSelf t,?_,fun u further => movedTrans moved further⟩
        cases c with
        | hset key seconds => cases instant
        | _ => trivial
      obtain ⟨steady,kept⟩ := Pool.steadySpawn (fun _ _ _ _ => movedTrans) (fun _ kept => kept) keeping.steady keeps
      exact ⟨steady,kept keeping.lifecycle⟩
  | proceed n =>
      obtain ⟨steady,kept⟩ := Pool.steadyProceed (fun _ _ _ _ => movedTrans) (fun _ kept => kept) (w := ()) (movedSelf _)
        (movedSelf _) keeping.steady marking
      exact ⟨steady,kept keeping.lifecycle⟩
  | pass ms =>
      have passed : tokensContract.rely pool.state (pool.state.pass ms) := fun lifecycle => lifecyclePass lifecycle ms
      exact ⟨Pool.steadyEdit (fun _ _ _ _ => movedTrans) keeping.steady fun _ => passed,passed keeping.lifecycle⟩

theorem runKeeping {moves : List ConsumableMove} (keeping : Keeping pool) (marking : EachStep step Marking moves pool) :
    Keeping (run moves pool) :=
  eachStepKeeps Keeping (fun _ _ => stepKeeping) keeping marking

theorem beginKeeping (redis : Redis) : Keeping (begin redis) := ⟨Pool.steadyEmpty _,fun _ => rfl,fun _ _ never => by cases never⟩

end ConsumablePool

section Ended
variable {s : TokenStore} {key : Key}

theorem endedApply {write : Write} (ended : s.live key = none) (idle : ∀ payload, write ≠ .hmset key payload) :
    (s.apply write).live key = none := by
  have put (other : Key) (hash : Option TokenHash) (issued : Option Issued) (none : key = other → issued = none) :
      (s.put other hash issued).live key = Option.none := by
    rw [livePut]
    split
    · rename_i same
      rw [none same]
      rfl
    · exact ended
  unfold TokenStore.apply
  split
  · cases write with
    | hmset other payload => exact put _ _ _ fun same => absurd rfl (same ▸ idle payload)
    | expire other seconds =>
        cases seconds with
        | none => exact ended
        | some seconds =>
            simp only [TokenStore.onToken]
            split
            · exact put _ _ _ fun same => by rw [← same,ended]; rfl
            · exact put _ _ _ fun _ => rfl
    | del other => exact put _ _ _ fun _ => rfl
    | _ => exact ended
  · rename_i others
    have kept : (s.apply write).live key = s.live key := (redisApply write key (by simpa using others)).2
    unfold TokenStore.apply at kept
    rw [if_neg others] at kept
    rw [kept,ended]

theorem endedExec {writes : List Write} (ended : s.live key = none) (idle : ∀ payload, .hmset key payload ∉ writes) :
    (s.exec writes).live key = none := by
  unfold TokenStore.exec
  induction writes generalizing s with
  | nil => exact ended
  | cons write rest ih =>
      apply ih (endedApply ended fun payload same => idle payload (same ▸ List.mem_cons_self))
      exact fun payload inside => idle payload (List.mem_cons_of_mem _ inside)

theorem endedServed {c : TokenCommand} (ended : s.live key = none) (idle : ¬ Issues key c) :
    (answerTokens () c s).2.live key = none := by
  cases c with
  | redis c =>
      cases c with
      | exec writes => exact endedExec ended fun payload inside => idle ⟨payload,inside⟩
      | _ => exact ended
  | hgetall other => exact ended
  | hset other seconds =>
      simp only [answerTokens,TokenStore.hset,livePut]
      split
      · rename_i same
        rw [← same,ended]
        rfl
      · exact ended

theorem endedPass (ended : s.live key = none) (ms : Nat) : (s.pass ms).live key = none := by
  have later := filterLater (s.issued key) (·.deadline) s.redis.clock ms
  unfold TokenStore.live at ended
  rw [ended] at later
  exact later

theorem settleTokens {α : Type} (p : Consuming α) (s : TokenStore) :
    (settle answerTokens TokenCommand.awaits p s).2 = s := by
  induction p generalizing s with
  | pure a => rfl
  | throw e => rfl
  | call c next ih =>
      simp only [settle]
      split
      · rfl
      · rename_i instant
        rw [ih]
        cases c with
        | redis c => cases c <;> first | rfl | exact absurd rfl instant
        | hgetall key => exact absurd rfl instant
        | hset key seconds => exact absurd rfl instant

end Ended

namespace ConsumablePool
variable {pool : ConsumablePool} {key : Key}

theorem stepEnded {move : ConsumableMove} (ended : pool.state.live key = none) (idle : Idle key pool move) :
    (step pool move).state.live key = none := by
  cases move with
  | start c =>
      simp only [step,Pool.spawn,settleTokens]
      exact ended
  | proceed n =>
      simp only [step,Pool.proceed]
      simp only [Idle,Pool.Ready] at idle
      split
      · rename_i p found
        rw [found] at idle
        cases p with
        | pure a => exact ended
        | throw e => exact ended
        | call c next =>
            simp only [turn,settleTokens]
            exact endedServed ended idle
      · exact ended
  | pass ms => exact endedPass ended ms

theorem runEnded {moves : List ConsumableMove} (ended : pool.state.live key = none) (idle : EachStep step (Idle key) moves pool) :
    (run moves pool).state.live key = none :=
  eachStepKeeps (fun pool : ConsumablePool => pool.state.live key = none) (fun _ _ => stepEnded) ended idle

end ConsumablePool

theorem findAnswers {s : TokenStore} {token : Consumable} {id : String} (lifecycle : Lifecycle s) :
    (run answerTokens (RedisAdapter.findConsumable token id) [] s).1 =
      .ok ((s.live (token.key id)).map fun issued => marked issued.consumed issued.payload) := by
  have same := lifecycle.same (token.key id)
  unfold RedisAdapter.findConsumable
  rw [runAsk]
  simp only [answerTokens,same]
  cases s.live (token.key id) <;> rfl

/- In every run in which only tokens that are there are consumed, a find answers with what was upserted, marked if it was
consumed, or nothing; a token that has ended stays so until it is issued again; and every hash has a deadline. -/
theorem tokensLive (redis : Redis) (moves : List ConsumableMove)
    (marking : EachStep ConsumablePool.step ConsumablePool.Marking moves (ConsumablePool.begin redis)) (token : Consumable)
    (id : String) :
    (run answerTokens (RedisAdapter.findConsumable token id) [] (ConsumablePool.run moves (ConsumablePool.begin redis)).state).1 =
        .ok (((ConsumablePool.run moves (ConsumablePool.begin redis)).state.live (token.key id)).map fun issued =>
          marked issued.consumed issued.payload) ∧
      (∀ hash, (ConsumablePool.run moves (ConsumablePool.begin redis)).state.hash (token.key id) = some hash →
        hash.expiresAt ≠ none) ∧
      ∀ before after, moves = before ++ after →
        (ConsumablePool.run before (ConsumablePool.begin redis)).state.live (token.key id) = none →
        EachStep ConsumablePool.step (ConsumablePool.Idle (token.key id)) after
          (ConsumablePool.run before (ConsumablePool.begin redis)) →
        (ConsumablePool.run moves (ConsumablePool.begin redis)).state.hash (token.key id) = none := by
  have lifecycle := (ConsumablePool.runKeeping (ConsumablePool.beginKeeping redis) marking).lifecycle
  refine ⟨findAnswers lifecycle,fun hash found => ?_,fun before after split ended idle => ?_⟩
  · rw [lifecycle.same] at found
    obtain ⟨issued,live,rfl⟩ := Option.map_eq_some_iff.mp found
    exact lifecycle.bounded _ issued live
  · have still := ConsumablePool.runEnded ended idle
    have joined : ConsumablePool.run after (ConsumablePool.run before (ConsumablePool.begin redis)) =
        ConsumablePool.run moves (ConsumablePool.begin redis) := by
      subst split
      exact List.foldl_append.symm
    rw [joined] at still
    rw [lifecycle.same,still]
    rfl

def rotatedToken : Consumable := ⟨.refreshToken,rfl⟩

def issueRefresh : ConsumableCall := .upsert rotatedToken "r1" [("kind",.string "RefreshToken")] ⟨1,by decide⟩

def consumeRefresh : ConsumableCall := .consume rotatedToken "r1"

def consumedLate : List ConsumableMove := [.start issueRefresh,.proceed 0,.pass 2000,.start consumeRefresh,.proceed 1]

def consumedInTime : List ConsumableMove := [.start issueRefresh,.proceed 0,.pass 500,.start consumeRefresh,.proceed 1]

/- The token has expired when it is consumed: it is there again, with the mark only and for good, and cannot be read. -/
theorem consumedForGood : ¬ ∀ (redis : Redis) (moves : List ConsumableMove) (token : Consumable) (id : String),
    (run answerTokens (RedisAdapter.findConsumable token id) [] (ConsumablePool.run moves (ConsumablePool.begin redis)).state).1 =
        .ok (((ConsumablePool.run moves (ConsumablePool.begin redis)).state.live (token.key id)).map fun issued =>
          marked issued.consumed issued.payload) ∧
      (∀ hash, (ConsumablePool.run moves (ConsumablePool.begin redis)).state.hash (token.key id) = some hash →
        hash.expiresAt ≠ none) ∧
      ∀ before after, moves = before ++ after →
        (ConsumablePool.run before (ConsumablePool.begin redis)).state.live (token.key id) = none →
        EachStep ConsumablePool.step (ConsumablePool.Idle (token.key id)) after
          (ConsumablePool.run before (ConsumablePool.begin redis)) →
        (ConsumablePool.run moves (ConsumablePool.begin redis)).state.hash (token.key id) = none := by
  intro always
  obtain ⟨answers,_⟩ := always {} consumedLate rotatedToken "r1"
  have thrown : (run answerTokens (RedisAdapter.findConsumable rotatedToken "r1") []
      (ConsumablePool.run consumedLate (ConsumablePool.begin {})).state).1 =
      .error (.other "\"undefined\" is not valid JSON") := rfl
  rw [thrown] at answers
  cases answers

theorem consumedOnce : (run answerTokens (RedisAdapter.findConsumable rotatedToken "r1") []
    (ConsumablePool.run consumedInTime (ConsumablePool.begin {})).state).1 =
      .ok (some [("kind",.string "RefreshToken"),("consumed",.string "0")]) := by
  have marking : EachStep ConsumablePool.step ConsumablePool.Marking consumedInTime (ConsumablePool.begin {}) :=
    ⟨trivial,trivial,trivial,trivial,rfl,trivial⟩
  have answers := (tokensLive {} consumedInTime marking rotatedToken "r1").1
  exact answers

end Passmower
