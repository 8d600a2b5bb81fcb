import Passmower.JavaScript
import Passmower.Resumption.Pool

/-! Redis as the session and client store: keys with a deadline of their own, the commands the
adapter issues, and MULTI/EXEC as one atomic list of writes. Time is counted in milliseconds. -/
namespace Passmower
open JavaScript Resumption Program

inductive Model where
  | accessToken
  | authorizationCode
  | refreshToken
  | deviceCode
  | backchannelAuthenticationRequest
  | session
  | siteSession
  | client
  | sessionMetadata
  | other (name : String)
  deriving DecidableEq, Repr

/- The text of a key is the name before its first colon, which no such name contains, and the rest. -/
inductive Key where
  | record (model : Model) (id : String)
  | grant (id : String)
  | userCode (userCode : String)
  | uid (uid : String)
  | accountSession (owner : String)
  | accountSiteSession (owner : String)
  | clients (owner : String)
  | uidSessions (owner : String)
  deriving DecidableEq, Repr

inductive Value where
  | text (payload : Object)
  | hash (payload : Object)
  | pointer (id : String)
  | list (items : List Key)
  | set (members : List String)

namespace Value

def payload? : Value → Option Object
  | .text payload | .hash payload => some payload
  | _ => none

def items : Value → List Key
  | .list items => items
  | _ => []

def members : Value → List String
  | .set members => members
  | _ => []

end Value

structure Entry where
  value : Value
  expiresAt : Option Nat := none

structure Redis where
  clock : Nat := 0
  entries : Key → Option Entry := fun _ => none

namespace Redis
variable (r : Redis)

def find (key : Key) : Option Entry :=
  (r.entries key).filter (fun entry => entry.expiresAt.all (r.clock < ·))

def put (key : Key) (entry : Option Entry) : Redis :=
  {r with entries := fun k => if k = key then entry else r.entries k}

def pass (ms : Nat) : Redis := {r with clock := r.clock + ms}

def payload (key : Key) : Option Object := (r.find key).bind (·.value.payload?)

def items (key : Key) : List Key := ((r.find key).map (·.value.items)).getD []

def members (key : Key) : List String := ((r.find key).map (·.value.members)).getD []

def ttl (key : Key) : Int := match r.find key with
  | none => -2
  | some entry => match entry.expiresAt with
      | none => -1
      | some deadline => ((deadline - r.clock + 500) / 1000 : Nat)

end Redis

/- One write command. An `expire` without a number is an error that changes nothing. -/
inductive Write where
  | set (key : Key) (value : Value)
  | hmset (key : Key) (payload : Object)
  | expire (key : Key) (seconds : Option Int)
  | rpush (key item : Key)
  | del (key : Key)
  | sadd (key : Key) (member : String)
  | srem (key : Key) (member : String)

def Write.apply (r : Redis) : Write → Redis
  | .set key value => r.put key (some {value := value})
  | .hmset key payload =>
      r.put key (some {value := .hash payload, expiresAt := (r.find key).bind (·.expiresAt)})
  | .expire key seconds => match r.find key, seconds with
      | some entry, some seconds =>
          if 0 < seconds then
            r.put key (some {entry with expiresAt := some (r.clock + 1000 * seconds.toNat)})
          else r.put key none
      | _, _ => r
  | .rpush key item => match r.find key with
      | some ⟨.list items,expiresAt⟩ =>
          r.put key (some {value := .list (items ++ [item]), expiresAt := expiresAt})
      | some _ => r
      | none => r.put key (some {value := .list [item]})
  | .del key => r.put key none
  | .sadd key member => match r.find key with
      | some ⟨.set members,expiresAt⟩ =>
          if member ∈ members then r
          else r.put key (some {value := .set (members ++ [member]), expiresAt := expiresAt})
      | some _ => r
      | none => r.put key (some {value := .set [member]})
  | .srem key member => match r.find key with
      | some ⟨.set members,expiresAt⟩ =>
          r.put key (some {value := .set (members.filter (· ≠ member)), expiresAt := expiresAt})
      | _ => r

def Redis.exec (writes : List Write) (r : Redis) : Redis := writes.foldl Write.apply r

/- The adapter's calls; `now` reads the process's own clock and awaits nothing. -/
inductive RedisCall where
  | exec (writes : List Write)
  | ttl (key : Key)
  | lrange (key : Key)
  | get (key : Key)
  | smembers (key : Key)
  | now

abbrev RedisAnswer : RedisCall → Type
  | .exec _ => Unit
  | .ttl _ => Int
  | .lrange _ => List Key
  | .get _ => Option Object
  | .smembers _ => List String
  | .now => Nat

abbrev redis : Interface := ⟨RedisCall,RedisAnswer⟩

def RedisCall.awaits : RedisCall → Bool
  | .now => false
  | _ => true

def answerRedis : Handler redis Unit Redis
  | (), .exec writes, r => ((),r.exec writes)
  | (), .ttl key, r => (r.ttl key,r)
  | (), .lrange key, r => (r.items key,r)
  | (), .get key, r => (r.payload key,r)
  | (), .smembers key, r => (r.members key,r)
  | (), .now, r => (r.clock,r)

abbrev Stored (α : Type) := Program redis Empty α

theorem runNil {α : Type} (p : Stored α) (r : Redis) : (run answerRedis p [] r).2.1 = [] := by
  induction p generalizing r with
  | pure a => rfl
  | throw e => rfl
  | call c next ih => exact ih _ _

theorem afterThen {α : Type} (p : Stored Unit) (q : Stored α) (r : Redis) :
    after answerRedis (p >>= fun _ => q) [] r = after answerRedis q [] (after answerRedis p [] r) := by
  have unlisted := runNil p r
  simp only [after,runBind]
  generalize run answerRedis p [] r = out at unlisted ⊢
  obtain ⟨result,rest,t⟩ := out
  cases unlisted
  cases result with
  | ok value => rfl
  | error e => exact e.elim

namespace Redis

@[simp] theorem putClock (r : Redis) (key : Key) (entry : Option Entry) : (r.put key entry).clock = r.clock := rfl

theorem findPut (r : Redis) (key k : Key) (entry : Option Entry) : (r.put key entry).find k =
    if k = key then entry.filter (fun e => e.expiresAt.all (r.clock < ·)) else r.find k := by
  unfold find put
  split <;> simp_all

@[simp] theorem findPutOther {r : Redis} {key k : Key} (other : k ≠ key) (entry : Option Entry) :
    (r.put key entry).find k = r.find k := by
  rw [findPut,if_neg other]

theorem findLive {r : Redis} {key : Key} {entry : Entry} (found : r.find key = some entry) :
    entry.expiresAt.all (r.clock < ·) = true := by
  unfold find at found
  exact (Option.filter_eq_some_iff.mp found).2

theorem passLive {r : Redis} {ms : Nat} {key : Key} {entry : Entry} (found : (r.pass ms).find key = some entry) :
    r.find key = some entry := by
  obtain ⟨stored,live⟩ := Option.filter_eq_some_iff.mp found
  apply Option.filter_eq_some_iff.mpr
  refine ⟨stored,?_⟩
  cases expires : entry.expiresAt with
  | none => rfl
  | some deadline =>
      simp only [expires,Option.all_some] at live ⊢
      have later : r.clock + ms < deadline := of_decide_eq_true live
      exact decide_eq_true (by omega)

end Redis

def Write.key : Write → Key
  | .set key _ | .hmset key _ | .expire key _ | .rpush key _ | .del key | .sadd key _ | .srem key _ => key

@[simp] theorem applyClock (r : Redis) (write : Write) : (write.apply r).clock = r.clock := by
  cases write <;> simp only [Write.apply] <;> (repeat' split) <;> rfl

@[simp] theorem execClock (r : Redis) (writes : List Write) : (r.exec writes).clock = r.clock := by
  unfold Redis.exec
  induction writes generalizing r with
  | nil => rfl
  | cons write rest ih => rw [List.foldl_cons,ih,applyClock]

theorem applyOther {r : Redis} {write : Write} {k : Key} (other : k ≠ write.key) :
    (write.apply r).find k = r.find k := by
  cases write <;> simp only [Write.apply,Write.key] at other ⊢ <;> (repeat' split) <;>
    simp [other]

theorem execOther {r : Redis} {writes : List Write} {k : Key} (others : ∀ write ∈ writes, k ≠ write.key) :
    (r.exec writes).find k = r.find k := by
  unfold Redis.exec
  induction writes generalizing r with
  | nil => rfl
  | cons write rest ih =>
      rw [List.foldl_cons,ih (fun w member => others w (List.mem_cons_of_mem _ member)),
        applyOther (others write List.mem_cons_self)]

def ran {α : Type} : Stored α → Redis → α × Redis
  | .pure value, r => (value,r)
  | .throw e, _ => e.elim
  | .call c next, r => ran (next (answerRedis () c r).1) (answerRedis () c r).2

def Leaves {α : Type} (key : Key) (p : Stored α) : Prop := ∀ r, (ran p r).2.find key = r.find key

section Leaving
variable {α β : Type} {key : Key} {p : Stored α} {f : α → Stored β}

theorem ranBind (p : Stored α) (f : α → Stored β) (r : Redis) :
    ran (p >>= f) r = ran (f (ran p r).1) (ran p r).2 := by
  induction p generalizing r with
  | pure value => rfl
  | throw e => exact e.elim
  | call c next ih => exact ih _ _

theorem leavesPure (value : α) : Leaves key (.pure value) := fun _ => rfl

theorem leavesBind (first : Leaves key p) (rest : ∀ value, Leaves key (f value)) : Leaves key (p >>= f) := by
  intro r
  rw [ranBind,rest,first]

theorem leavesExec {writes : List Write} (others : ∀ write ∈ writes, key ≠ write.key) :
    Leaves key (ask (I := redis) (.exec writes)) := fun _ => execOther others

end Leaving

end Passmower
