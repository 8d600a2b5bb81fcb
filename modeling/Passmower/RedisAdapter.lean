import Passmower.Redis

/-! `RedisAdapter`: records with their lifetime, the index of the tokens of a grant, and the
sets of ids by owner. -/
namespace Passmower
open JavaScript Resumption Program

namespace Model

def grantable : Model → Bool
  | .accessToken | .authorizationCode | .refreshToken | .deviceCode
  | .backchannelAuthenticationRequest => true
  | _ => false

def consumable : Model → Bool
  | .authorizationCode | .refreshToken | .deviceCode | .backchannelAuthenticationRequest => true
  | _ => false

end Model

structure Referencing where
  list : String → Key
  ownerKey : Option String := none
  expireKey : Option String := none

def Model.referencable : Model → Option Referencing
  | .session => some {list := .accountSession, ownerKey := some "accountId"}
  | .siteSession => some {list := .accountSiteSession, ownerKey := some "accountId"}
  | .client => some {list := .clients}
  | .sessionMetadata => some {list := .uidSessions, ownerKey := some "userId", expireKey := some "exp"}
  | _ => none

/- `payload[name]` for a name that may itself be undefined, which no payload has a property of. -/
def property (payload : Object) (name : Option String) : Option Json := name.bind payload.get

def keyText : Json → String
  | .string text => text
  | value => value.toText

def Referencing.owner (reference : Referencing) (payload : Object) : String :=
  match property payload reference.ownerKey with
  | none | some .null => "1"
  | some value => keyText value

def Referencing.ownerSet (reference : Referencing) (payload : Object) : Key :=
  reference.list (reference.owner payload)

def truthyText (payload : Object) (name : String) : Option String :=
  ((payload.get name).filter Json.isTruthy).map keyText

/- `Math.floor(payload[expireKey] - Date.now() / 1000)`, for whole numbers of seconds. -/
def remainingSeconds (expiry : Json) (now : Nat) : Option Int := match expiry with
  | .number text => text.toInt?.map (fun seconds => (1000 * seconds - now) / 1000)
  | _ => none

namespace RedisAdapter

def exec (writes : List Write) : Stored Unit := ask (I := redis) (.exec writes)

def find (model : Model) (id : String) : Stored (Option Object) := ask (I := redis) (.get (.record model id))

def expiry (key : Key) (expiresIn : Option Nat) : Write := .expire key (expiresIn.map Int.ofNat)

def recordWrites (model : Model) (id : String) (payload : Object) (expiresIn : Option Nat) : List Write :=
  (if model.consumable then Write.hmset (.record model id) payload
    else Write.set (.record model id) (.text payload)) ::
  (if (expiresIn.getD 0) = 0 then [] else [expiry (.record model id) expiresIn])

/- The push onto the list of the grant; the list's own deadline is only ever put off. -/
def grantWrites (key : Key) (grantId : String) (expiresIn : Option Nat) (ttl : Int) : List Write :=
  .rpush (.grant grantId) key ::
  (if (expiresIn.map Int.ofNat).any (ttl < ·) then [expiry (.grant grantId) expiresIn] else [])

def pointerWrites (key : Option Key) (id : String) (expiresIn : Option Nat) : List Write := match key with
  | some key => [.set key (.pointer id),expiry key expiresIn]
  | none => []

def indexWrites (id : String) (payload : Object) (expiresIn : Option Nat) : List Write :=
  pointerWrites ((truthyText payload "userCode").map .userCode) id expiresIn ++
  pointerWrites ((truthyText payload "uid").map .uid) id expiresIn

def grantOf (model : Model) (payload : Object) : Option String :=
  if model.grantable then truthyText payload "grantId" else none

def grantIndex (model : Model) (id : String) (payload : Object) (expiresIn : Option Nat) :
    Stored (List Write) :=
  match grantOf model payload with
  | none => .pure []
  | some grantId => do
      let ttl ← ask (I := redis) (.ttl (.grant grantId))
      .pure (grantWrites (.record model id) grantId expiresIn ttl)

def reference (id : String) (payload : Object) (reference : Referencing) : Stored Unit := do
  exec [.sadd (reference.ownerSet payload) id]
  match (property payload reference.expireKey).filter Json.isTruthy with
  | none => .pure ()
  | some expiry => do
      let now ← ask (I := redis) .now
      exec [.expire (reference.ownerSet payload) (remainingSeconds expiry now)]

def upsert (model : Model) (id : String) (payload : Object) (expiresIn : Option Nat) : Stored Unit := do
  let granted ← grantIndex model id payload expiresIn
  exec (recordWrites model id payload expiresIn ++ granted ++ indexWrites id payload expiresIn)
  match model.referencable with
  | some referencing => reference id payload referencing
  | none => .pure ()

def destroy (model : Model) (id : String) : Stored Unit := do
  let payload ← find model id
  exec [.del (.record model id)]
  match model.referencable with
  | some referencing => exec [.srem (referencing.ownerSet (payload.getD [])) id]
  | none => .pure ()

def getSetMembers (key : Key) : Stored (List String) := ask (I := redis) (.smembers key)

def revocation (grantId : String) (tokens : List Key) : List Write :=
  tokens.map Write.del ++ [.del (.grant grantId)]

/- The list is read before the transaction that empties it. -/
def revokeByGrantId (grantId : String) : Stored Unit := do
  let tokens ← ask (I := redis) (.lrange (.grant grantId))
  exec (revocation grantId tokens)

theorem indexWritesKeys {id : String} {payload : Object} {expiresIn : Option Nat} {write : Write}
    (member : write ∈ indexWrites id payload expiresIn) :
    (∃ code, write.key = .userCode code) ∨ ∃ uid, write.key = .uid uid := by
  have pointers : ∀ (key : Option Key), write ∈ pointerWrites key id expiresIn → some write.key = key := by
    intro key inside
    cases key with
    | none => cases inside
    | some key =>
        simp only [pointerWrites,List.mem_cons,List.not_mem_nil,or_false] at inside
        rcases inside with rfl | rfl <;> rfl
  rcases List.mem_append.mp member with code | uid
  · obtain ⟨text,_,same⟩ := Option.map_eq_some_iff.mp (pointers _ code).symm
    exact .inl ⟨text,same.symm⟩
  · obtain ⟨text,_,same⟩ := Option.map_eq_some_iff.mp (pointers _ uid).symm
    exact .inr ⟨text,same.symm⟩

theorem recordWritesKeys {model : Model} {id : String} {payload : Object} {expiresIn : Option Nat}
    {write : Write} (member : write ∈ recordWrites model id payload expiresIn) :
    write.key = .record model id := by
  unfold recordWrites at member
  split at member <;> split at member <;> simp_all [expiry,Write.key] <;>
    rcases member with rfl | rfl <;> rfl

def storedValue (model : Model) (payload : Object) : Value :=
  if model.consumable then .hash payload else .text payload

theorem storedPayload (model : Model) (payload : Object) :
    (storedValue model payload).payload? = some payload := by
  unfold storedValue
  split <;> rfl

def deadline (r : Redis) (model : Model) (id : String) (expiresIn : Option Nat) : Option Nat :=
  if expiresIn.getD 0 = 0 then
    (if model.consumable then (r.find (.record model id)).bind (·.expiresAt) else none)
  else some (r.clock + 1000 * expiresIn.getD 0)

theorem expiryFound {r : Redis} {key : Key} {entry : Entry} {n : Nat} (found : r.find key = some entry)
    (positive : 0 < n) : ((expiry key (some n)).apply r).find key =
      some {entry with expiresAt := some (r.clock + 1000 * n)} := by
  simp only [expiry,Option.map_some,Write.apply,found]
  rw [if_pos (by simpa using positive)]
  simp [Redis.findPut,positive]

theorem recordSet (r : Redis) (model : Model) (id : String) (payload : Object) :
    ((if model.consumable then Write.hmset (.record model id) payload
      else Write.set (.record model id) (.text payload)).apply r).find (.record model id) =
    some ⟨storedValue model payload,
      if model.consumable then (r.find (.record model id)).bind (·.expiresAt) else none⟩ := by
  unfold storedValue
  split
  · simp only [Write.apply,Redis.findPut,if_true]
    apply Option.filter_eq_some_iff.mpr
    cases found : r.find (.record model id) with
    | none => exact ⟨rfl,rfl⟩
    | some entry =>
        have live := Redis.findLive found
        exact ⟨rfl,live⟩
  · simp [Write.apply,Redis.findPut]

theorem recordStored (r : Redis) (model : Model) (id : String) (payload : Object) (expiresIn : Option Nat) :
    (r.exec (recordWrites model id payload expiresIn)).find (.record model id) =
      some ⟨storedValue model payload,deadline r model id expiresIn⟩ := by
  have stored := recordSet r model id payload
  unfold recordWrites deadline Redis.exec
  by_cases short : expiresIn.getD 0 = 0
  · simp only [if_pos short,List.foldl_cons,List.foldl_nil]
    exact stored
  · simp only [if_neg short,List.foldl_cons,List.foldl_nil]
    cases expiresIn with
    | none => simp at short
    | some n =>
        rw [expiryFound stored (by simpa [Nat.pos_iff_ne_zero] using short)]
        simp

end RedisAdapter

theorem execAppend (r : Redis) (first second : List Write) :
    r.exec (first ++ second) = (r.exec first).exec second := List.foldl_append ..

end Passmower
