import Passmower.OwnerSets

/-! Forward-auth site sessions: issued at consent, looked up by cookie, renewed, and pointed at
the main session's new id when that is rotated. -/
namespace Passmower
open JavaScript Resumption Program

def siteSessionTtl : Nat := 3600

structure SiteSessionRecord where
  jti : String
  sessionId : Option String
  accountId : Option String
  domain : String
  ip : Option String

/- The stored object; a field that is undefined is left out of the JSON. -/
def SiteSessionRecord.payload (record : SiteSessionRecord) : Object :=
  ("jti",.string record.jti) ::
  (record.sessionId.map (fun text => ("sessionId",Json.string text))).toList ++
  (record.accountId.map (fun text => ("accountId",Json.string text))).toList ++
  ("domain",.string record.domain) ::
  (record.ip.map (fun text => ("ip",Json.string text))).toList

def fieldText (payload : Object) (name : String) : Option String := (payload.get name).bind Json.string?

def addSiteSession (record : SiteSessionRecord) : Stored Unit :=
  RedisAdapter.upsert .siteSession record.jti record.payload (some siteSessionTtl)

def updateSiteSession (siteSession : Object) : Stored Unit :=
  RedisAdapter.upsert .siteSession ((fieldText siteSession "jti").getD "undefined") siteSession
    (some siteSessionTtl)

structure SiteRequest where
  cookie : Option String
  clientId : String
  ip : Option String
  /- `SITE_SESSION_IP_BINDING === 'true'` -/
  ipBinding : Bool := false
  /- `getSiteSessionScope(clientId)` -/
  scope : String

def siteSessionIpMismatch (request : SiteRequest) (siteSession : Object) : Bool :=
  request.ipBinding && decide (fieldText siteSession "ip" ≠ request.ip)

/- Whether the main session still authorizes the client; without a session id yet it does. -/
def baseSession (request : SiteRequest) (siteSession : Object) : Stored Bool :=
  match (siteSession.get "sessionId").filter Json.isTruthy with
  | none => .pure true
  | some sessionId => do
      let session ← RedisAdapter.find .session (keyText sessionId)
      .pure (match session with
        | none => false
        | some session => match (session.get "authorizations").filter Json.isTruthy with
            | some (.object authorizations) => (Object.get authorizations request.clientId).any Json.isTruthy
            | some _ => false
            | none => true)

def validateSiteSession (request : SiteRequest) : Stored (Option Object) := do
  match ← RedisAdapter.find .siteSession (request.cookie.getD "undefined") with
  | none => .pure none
  | some siteSession =>
      if siteSessionIpMismatch request siteSession then do
        RedisAdapter.destroy .siteSession ((fieldText siteSession "jti").getD "undefined")
        .pure none
      else do
        let base ← baseSession request siteSession
        .pure (if base ∧ fieldText siteSession "domain" = some request.scope then some siteSession else none)

def updateReference (sessionId oldSessionId id : String) : Stored Unit := do
  let found ← RedisAdapter.find .siteSession id
  match found.filter (fun siteSession => fieldText siteSession "sessionId" = some oldSessionId) with
  | some siteSession =>
      RedisAdapter.upsert .siteSession id (siteSession.set "sessionId" (.string sessionId)) none
  | none => .pure ()

def updateReferences (sessionId oldSessionId : String) : List String → Stored Unit
  | [] => .pure ()
  | id :: rest => do
      updateReference sessionId oldSessionId id
      updateReferences sessionId oldSessionId rest

def updateSessionReference (sessionId oldSessionId accountId : String) : Stored Unit := do
  let members ← RedisAdapter.getSetMembers (.accountSiteSession accountId)
  updateReferences sessionId oldSessionId members

inductive SiteMove where
  | issue (record : SiteSessionRecord)
  | lookUp (request : SiteRequest)
  | update (siteSession : Object)
  /- `session.saved` after the main session's id was rotated -/
  | rotate (sessionId oldSessionId accountId : String)
  | destroy (id : String)
  | saveSession (id : String) (payload : Object) (expiresIn : Option Nat)
  | pass (ms : Nat)

/- `written` notes when a record was last issued or updated. -/
structure SiteStore where
  redis : Redis := {}
  written : String → Option Nat := fun _ => none

namespace SiteStore
variable (store : SiteStore)

def perform {α : Type} (p : Stored α) : SiteStore := {store with redis := after answerRedis p [] store.redis}

def note (id : String) : SiteStore :=
  {store with written := fun other => if other = id then some store.redis.clock else store.written other}

def step : SiteMove → SiteStore
  | .issue record => (store.perform (addSiteSession record)).note record.jti
  | .lookUp request => store.perform (validateSiteSession request)
  | .update siteSession =>
      (store.perform (updateSiteSession siteSession)).note ((fieldText siteSession "jti").getD "undefined")
  | .rotate sessionId oldSessionId accountId =>
      store.perform (updateSessionReference sessionId oldSessionId accountId)
  | .destroy id => store.perform (RedisAdapter.destroy .siteSession id)
  | .saveSession id payload expiresIn => store.perform (RedisAdapter.upsert .session id payload expiresIn)
  | .pass ms => {store with redis := store.redis.pass ms}

def moves (moves : List SiteMove) (store : SiteStore) : SiteStore := moves.foldl step store

def Bounded : Prop := ∀ (id : String) (entry : Entry), store.redis.find (.record .siteSession id) = some entry →
  ∃ deadline written, entry.expiresAt = some deadline ∧ store.written id = some written ∧
    deadline ≤ written + 1000 * siteSessionTtl

end SiteStore

def Redis.refers (r : Redis) (oldSessionId accountId id : String) : Prop :=
  id ∈ r.members (.accountSiteSession accountId) ∧ ∃ siteSession,
    r.payload (.record .siteSession id) = some siteSession ∧ fieldText siteSession "sessionId" = some oldSessionId

def SiteMove.FindsNone (store : SiteStore) : SiteMove → Prop
  | .rotate _ oldSessionId accountId => ∀ id, ¬ store.redis.refers oldSessionId accountId id
  | _ => True

def FindNone : List SiteMove → SiteStore → Prop
  | [], _ => True
  | move :: rest, store => move.FindsNone store ∧ FindNone rest (store.step move)

section Effects
variable {r : Redis} {id id' : String} {payload : Object} {expiresIn : Option Nat}

theorem siteUpsert : after answerRedis (RedisAdapter.upsert .siteSession id payload expiresIn) [] r =
    r.step (.upsert .siteSession id payload expiresIn) := rfl

theorem siteStored : (r.step (.upsert .siteSession id payload expiresIn)).find (.record .siteSession id') =
    if id' = id then some ⟨.text payload,RedisAdapter.deadline r .siteSession id expiresIn⟩
    else r.find (.record .siteSession id') := by
  rw [upsertStep,execOther,execAppend,execOther]
  · split
    · rename_i same
      subst same
      exact RedisAdapter.recordStored r .siteSession id' payload expiresIn
    · rename_i other
      apply execOther
      intro write member
      rw [RedisAdapter.recordWritesKeys member]
      exact fun same => other (by injection same)
  · intro write member
    rcases RedisAdapter.indexWritesKeys member with ⟨code,same⟩ | ⟨uid,same⟩ <;> simp [same]
  · intro write member
    cases List.mem_singleton.mp member
    exact (Owned.siteSession.listRecord _ _ _).symm

theorem sessionStored : (r.step (.upsert .session id payload expiresIn)).find (.record .siteSession id') =
    r.find (.record .siteSession id') := by
  rw [upsertStep,execOther,execOther]
  · intro write member
    rcases writesKey member with same | ⟨code,same⟩ | ⟨uid,same⟩ <;> simp [same,Owned.session]
  · intro write member
    cases List.mem_singleton.mp member
    exact (Owned.session.listRecord _ _ _).symm

def Remain (r t : Redis) : Prop := ∀ (id : String) (entry : Entry),
  t.find (.record .siteSession id) = some entry → r.find (.record .siteSession id) = some entry

theorem siteDestroyed (r : Redis) (id : String) : Remain r (r.step (.destroy .siteSession id)) := by
  intro other entry found
  rw [destroyStep,execOther] at found
  · by_cases same : other = id
    · subst same
      simp [Redis.exec,Write.apply,Redis.findPut,Owned.siteSession] at found
    · rw [execOther] at found
      · exact found
      · intro write member
        cases List.mem_singleton.mp member
        simpa [Write.key,Owned.siteSession] using same
  · intro write member
    cases List.mem_singleton.mp member
    exact (Owned.siteSession.listRecord _ _ _).symm

theorem baseSessionReads (request : SiteRequest) (siteSession : Object) (r : Redis) :
    (run answerRedis (baseSession request siteSession) [] r).2 = ([],r) := by
  unfold baseSession
  split <;> rfl

theorem validateRemain (request : SiteRequest) (r : Redis) :
    Remain r (after answerRedis (validateSiteSession request) [] r) := by
  have read : run answerRedis (RedisAdapter.find .siteSession (request.cookie.getD "undefined")) [] r =
      (.ok (r.payload (.record .siteSession (request.cookie.getD "undefined"))),[],r) := rfl
  simp only [after,validateSiteSession,runBind,read]
  cases stored : r.payload (.record .siteSession (request.cookie.getD "undefined")) with
  | none => exact fun id entry found => found
  | some siteSession =>
    by_cases mismatch : siteSessionIpMismatch request siteSession = true
    · simp only [mismatch,if_true,runBind]
      have destroyed := siteDestroyed r ((fieldText siteSession "jti").getD "undefined")
      exact destroyed
    · have based := baseSessionReads request siteSession r
      simp only [mismatch,Bool.false_eq_true,if_false,runBind]
      generalize run answerRedis (baseSession request siteSession) [] r = out at based ⊢
      obtain ⟨result,rest,t⟩ := out
      cases based
      cases result with
      | ok base => exact fun id entry found => found
      | error e => exact fun id entry found => found

theorem referenceStep (sessionId oldSessionId id : String) (r : Redis) :
    after answerRedis (updateReference sessionId oldSessionId id) [] r =
    match (r.payload (.record .siteSession id)).filter
        (fun siteSession => fieldText siteSession "sessionId" = some oldSessionId) with
      | some siteSession =>
          r.step (.upsert .siteSession id (siteSession.set "sessionId" (.string sessionId)) none)
      | none => r := by
  have read : run answerRedis (RedisAdapter.find .siteSession id) [] r =
      (.ok (r.payload (.record .siteSession id)),[],r) := rfl
  simp only [after,updateReference,runBind,read]
  split <;> rfl

theorem referencesNone {sessionId oldSessionId : String} {ids : List String}
    (none : ∀ id ∈ ids, ∀ siteSession, r.payload (.record .siteSession id) = some siteSession →
      fieldText siteSession "sessionId" ≠ some oldSessionId) :
    after answerRedis (updateReferences sessionId oldSessionId ids) [] r = r := by
  induction ids with
  | nil => rfl
  | cons id rest ih =>
      have missing : (r.payload (.record .siteSession id)).filter
          (fun siteSession => fieldText siteSession "sessionId" = some oldSessionId) = Option.none := by
        cases stored : r.payload (.record .siteSession id) with
        | none => rfl
        | some siteSession => simp [none id List.mem_cons_self siteSession stored]
      rw [updateReferences,afterThen,referenceStep,missing]
      exact ih fun id member => none id (List.mem_cons_of_mem _ member)

def Stays (r : Redis) (id : String) : Prop :=
  ∃ entry, r.find (.record .siteSession id) = some entry ∧ entry.expiresAt = none

theorem rewriteStays (payload : Object) (stays : Stays r id) :
    Stays (r.step (.upsert .siteSession id' payload none)) id := by
  unfold Stays at stays ⊢
  rw [siteStored]
  split
  · exact ⟨_,rfl,rfl⟩
  · exact stays

theorem rewritten {sessionId oldSessionId : String} (ids : List String) {r : Redis} :
    (∀ id, Stays r id → Stays (after answerRedis (updateReferences sessionId oldSessionId ids) [] r) id) ∧
    ∀ id ∈ ids, ∀ siteSession, r.payload (.record .siteSession id) = some siteSession →
      fieldText siteSession "sessionId" = some oldSessionId →
      Stays (after answerRedis (updateReferences sessionId oldSessionId ids) [] r) id := by
  induction ids generalizing r with
  | nil => exact ⟨fun id stays => stays,nofun⟩
  | cons head rest ih =>
      rw [updateReferences,afterThen,referenceStep]
      cases matched : (r.payload (.record .siteSession head)).filter
          (fun siteSession => fieldText siteSession "sessionId" = some oldSessionId) with
      | none =>
          constructor
          · exact ih.1
          · intro id member siteSession stored refers
            rcases List.mem_cons.mp member with rfl | inside
            · rw [stored] at matched
              simp [refers] at matched
            · exact ih.2 id inside siteSession stored refers
      | some old =>
          have here : Stays (r.step (.upsert .siteSession head (old.set "sessionId" (.string sessionId)) none)) head := by
            unfold Stays
            rw [siteStored,if_pos rfl]
            exact ⟨_,rfl,rfl⟩
          constructor
          · exact fun id stays => ih.1 id (rewriteStays _ stays)
          · intro id member siteSession stored refers
            by_cases same : id = head
            · subst same
              exact ih.1 id here
            · have inside : id ∈ rest := (List.mem_cons.mp member).resolve_left same
              apply ih.2 id inside siteSession ?_ refers
              unfold Redis.payload at stored ⊢
              rw [siteStored,if_neg same]
              exact stored

end Effects

namespace SiteStore
variable {store : SiteStore} {move : SiteMove}

theorem boundedRemain {redis : Redis} (bounded : store.Bounded) (remain : Remain store.redis redis) :
    ({store with redis := redis} : SiteStore).Bounded :=
  fun id entry found => bounded id entry (remain id entry found)

theorem boundedWrite {id : String} {payload : Object} (bounded : store.Bounded) :
    ((store.perform (RedisAdapter.upsert .siteSession id payload (some siteSessionTtl))).note id).Bounded := by
  intro other entry found
  have clock : (store.redis.step (.upsert .siteSession id payload (some siteSessionTtl))).clock =
      store.redis.clock := by
    rw [upsertStep]
    simp
  have stored : (store.redis.step (.upsert .siteSession id payload (some siteSessionTtl))).find
      (.record .siteSession other) = some entry := found
  rw [siteStored] at stored
  unfold note perform
  simp only [siteUpsert,clock]
  split at stored
  · rename_i same
    cases Option.some.inj stored
    refine ⟨_,_,rfl,if_pos same,?_⟩
    exact Nat.le_refl _
  · rename_i apart
    rw [if_neg apart]
    exact bounded other entry stored

theorem boundedStep (bounded : store.Bounded) (none : move.FindsNone store) : (store.step move).Bounded := by
  cases move with
  | issue record => exact boundedWrite bounded
  | update siteSession => exact boundedWrite bounded
  | lookUp request => exact boundedRemain bounded (validateRemain request store.redis)
  | destroy id => exact boundedRemain bounded (siteDestroyed store.redis id)
  | saveSession id payload expiresIn =>
      apply boundedRemain bounded
      intro other entry found
      exact sessionStored.symm.trans found
  | pass ms => exact boundedRemain bounded fun id entry found => Redis.passLive found
  | rotate sessionId oldSessionId accountId =>
      have unchanged : after answerRedis (updateSessionReference sessionId oldSessionId accountId) [] store.redis =
          store.redis := referencesNone fun id member siteSession stored refers =>
            none id ⟨member,siteSession,stored,refers⟩
      simp only [step,perform,unchanged]
      exact bounded

theorem unboundedStep (finds : ¬ move.FindsNone store) : ¬ (store.step move).Bounded := by
  cases move with
  | rotate sessionId oldSessionId accountId =>
      simp only [SiteMove.FindsNone,not_forall,not_not] at finds
      obtain ⟨id,member,siteSession,stored,refers⟩ := finds
      obtain ⟨entry,found,none⟩ := (@rewritten sessionId oldSessionId
        (store.redis.members (.accountSiteSession accountId)) store.redis).2 id member siteSession stored refers
      intro bounded
      obtain ⟨deadline,written,expires,_⟩ := bounded id entry found
      rw [none] at expires
      cases expires
  | _ => exact absurd trivial finds

theorem boundedMoves {moves : List SiteMove} (bounded : store.Bounded) :
    (∀ n, (SiteStore.moves (moves.take n) store).Bounded) ↔ FindNone moves store := by
  induction moves generalizing store with
  | nil => simp [SiteStore.moves,FindNone,bounded]
  | cons move rest ih =>
      constructor
      · intro always
        have first : (store.step move).Bounded := always 1
        have none : move.FindsNone store := not_not.mp fun finds => unboundedStep finds first
        exact ⟨none,(ih first).mp fun n => always (n + 1)⟩
      · intro finds n
        cases n with
        | zero => exact bounded
        | succ n => exact (ih (boundedStep bounded finds.1)).mpr finds.2 n

end SiteStore

/- Every site session in Redis has a deadline, no later than its lifetime after it was last issued
or updated, in every state of exactly those runs in which no rotation of a main session finds a
record that refers to the old id. -/
theorem siteSessionsExpire (moves : List SiteMove) :
    (∀ n, (SiteStore.moves (moves.take n) {}).Bounded) ↔ FindNone moves {} :=
  SiteStore.boundedMoves nofun

def issued : SiteSessionRecord := ⟨"j",some "s",some "anna","example.com",none⟩

/- The main session of a forward-auth user is rotated. -/
theorem rotatedSessionStays :
    ((SiteStore.moves [.issue issued,.rotate "t" "s" "anna"] {}).redis.find (.record .siteSession "j")).map
      (·.expiresAt) = some none ∧
    ¬ (SiteStore.moves [.issue issued,.rotate "t" "s" "anna"] {}).Bounded := by
  have stays : ((SiteStore.moves [.issue issued,.rotate "t" "s" "anna"] {}).redis.find
      (.record .siteSession "j")).map (·.expiresAt) = some none := by rfl
  refine ⟨stays,fun bounded => ?_⟩
  obtain ⟨entry,found,none⟩ := Option.map_eq_some_iff.mp stays
  obtain ⟨deadline,written,expires,_⟩ := bounded "j" entry found
  rw [none] at expires
  cases expires

end Passmower
