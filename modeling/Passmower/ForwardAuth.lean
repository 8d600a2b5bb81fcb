import Passmower.ActivityTracker
import Passmower.RemoteHeaders
import Passmower.Resumption.Stepping
import Passmower.SiteSessions

/-! Forward authentication: whom a request to a protected application is let through as, over runs of consents, renewals,
rotations and ends of main sessions, of edits of accounts and clients, and of requests. -/
namespace Passmower
open JavaScript Resumption Program

namespace ForwardAuth

structure ForwardClient where
  kind : ClientKind
  allowedUsers : List String := []
  allowedGroups : List String := []
  headerMapping : RemoteHeaders.HeaderMapping := {}

structure Settings where
  env : Env
  order : RemoteHeaders.GroupOrder
  groupPrefix : String
  disableFrontendEdit : Bool
  requiredGroup : Option String
  adminGroup : Option String
  /- `SITE_SESSION_IP_BINDING === 'true'` -/
  ipBinding : Bool
  /- `getSiteSessionScope(clientId)` -/
  scope : String → String

/- A request of the proxy; `url` is what `requestedUrl` makes of its headers. -/
structure ForwardRequest where
  clientId : Option String
  url : Option String
  /- The site-session cookie of the client. -/
  cookie : Option String
  ip : Option String

inductive Answer where
  | clientMissing
  | unknownClient
  | foreignUrl
  | authorize (clientId url : String)
  | sessionError (error : Json)
  | denied (accountId : Option String) (failure : RemoteHeaders.PolicyFailure)
  | letThrough (account : OidcUser) (headers : List (String × String))

instance (answer : Answer) (account : OidcUser) (headers : List (String × String)) :
    Decidable (answer = .letThrough account headers) := match answer with
  | .letThrough account' headers' => decidable_of_iff (account' = account ∧ headers' = headers) (by simp)
  | .clientMissing | .unknownClient | .foreignUrl | .authorize _ _ | .sessionError _ | .denied _ _ => .isFalse nofun

structure ForwardWorld where
  redis : Redis := {}
  clients : String → Option ForwardClient := fun _ => none
  users : List OidcUser := []
  /- `account.isApproved()` -/
  approved : String → Bool := fun _ => false
  /- The site sessions issued so far. -/
  issued : List SiteSessionRecord := []

section Handler
variable (settings : Settings) (w : ForwardWorld)

def siteRequest (request : ForwardRequest) (clientId : String) : SiteRequest where
  cookie := request.cookie
  clientId := clientId
  ip := request.ip
  ipBinding := settings.ipBinding
  scope := settings.scope clientId

def findAccount (accountId : Option String) : Option OidcUser := accountId.bind fun accountId =>
  w.users.find? (·.accountId = accountId)

def accessPolicy (client : ForwardClient) : RemoteHeaders.AccessPolicy where
  allowedUsers := client.allowedUsers
  allowedGroups := client.allowedGroups
  requiredGroup := settings.requiredGroup
  adminGroup := settings.adminGroup
  termsOfService := settings.env.termsOfService

def getAccountAccessFailure (client : ForwardClient) : Option OidcUser → Option RemoteHeaders.PolicyFailure
  | none => some (.accountType .accountMissing)
  | some account => (accessPolicy settings client).getAccountAccessFailure (w.approved account.accountId) account

def answerSession (client : ForwardClient) (siteSession : Object) : Answer :=
  match (member (siteSession.get "result") "error").filter Json.isTruthy with
  | some error => .sessionError error
  | none =>
      let accountId := fieldText siteSession "accountId"
      let account := findAccount w accountId
      match getAccountAccessFailure settings w client account, account with
      | none, some account => .letThrough account (RemoteHeaders.getRemoteHeaders settings.env settings.order
          settings.groupPrefix settings.disableFrontendEdit account client.headerMapping)
      | some failure, _ => .denied accountId failure
      | none, none => .denied accountId (.accountType .accountMissing)

def forwardAuth (request : ForwardRequest) : Answer × Redis :=
  match truthy request.clientId with
  | none => (.clientMissing,w.redis)
  | some clientId => match (w.clients clientId).filter (·.kind = .oidcMiddlewareClient) with
      | none => (.unknownClient,w.redis)
      | some client => match request.url with
          | none => (.foreignUrl,w.redis)
          | some url =>
              let validated := ran (validateSiteSession (siteRequest settings request clientId)) w.redis
              (match validated.1 with
                | none => .authorize clientId url
                | some siteSession => answerSession settings w client siteSession,validated.2)

end Handler

inductive ForwardMove where
  /- `addSiteSession`, of a consent -/
  | consent (record : SiteSessionRecord)
  /- `updateSiteSession` of a session that was issued, with the id of the main session -/
  | renew (n : Nat) (sessionId : String)
  /- `session.saved` after the main session's id was rotated -/
  | rotate (sessionId oldSessionId accountId : String)
  | saveSession (id : String) (payload : Object) (expiresIn : Option Nat)
  | endSession (id : String)
  | pass (ms : Nat)
  | editUsers (users : List OidcUser) (approved : String → Bool)
  | setClient (id : String) (client : Option ForwardClient)
  | request (request : ForwardRequest)

namespace ForwardWorld
variable (settings : Settings) (w : ForwardWorld)

def perform {α : Type} (p : Stored α) : ForwardWorld := {w with redis := after answerRedis p [] w.redis}

def step : ForwardMove → ForwardWorld
  | .consent record => {w.perform (addSiteSession record) with issued := record :: w.issued}
  | .renew n sessionId => match w.issued[n]? with
      | some record => w.perform (updateSiteSession {record with sessionId := some sessionId}.payload)
      | none => w
  | .rotate sessionId oldSessionId accountId => w.perform (updateSessionReference sessionId oldSessionId accountId)
  | .saveSession id payload expiresIn => w.perform (RedisAdapter.upsert .session id payload expiresIn)
  | .endSession id => w.perform (RedisAdapter.destroy .session id)
  | .pass ms => {w with redis := w.redis.pass ms}
  | .editUsers users approved => {w with users := users, approved := approved}
  | .setClient id client => {w with clients := fun other => if other = id then client else w.clients other}
  | .request request => {w with redis := (forwardAuth settings w request).2}

def moves (moves : List ForwardMove) (start : ForwardWorld) : ForwardWorld := moves.foldl (step settings) start

end ForwardWorld

section Records
variable {r : Redis} {id id' : String} {payload siteSession : Object} {expiresIn : Option Nat} {record : SiteSessionRecord}

theorem ranAfter {α : Type} (p : Stored α) (r : Redis) : (ran p r).2 = after answerRedis p [] r := by
  induction p generalizing r with
  | pure value => rfl
  | throw e => exact e.elim
  | call c next ih => exact ih _ _

theorem payloadStored : (r.step (.upsert .siteSession id payload expiresIn)).payload (.record .siteSession id') =
    if id' = id then some payload else r.payload (.record .siteSession id') := by
  unfold Redis.payload
  rw [siteStored]
  split
  · rfl
  · rfl

theorem remainPayload {t : Redis} (remain : Remain r t) (found : t.payload (.record .siteSession id) = some payload) :
    r.payload (.record .siteSession id) = some payload := by
  obtain ⟨entry,there,value⟩ := Option.bind_eq_some_iff.mp found
  exact Option.bind_eq_some_iff.mpr ⟨entry,remain id entry there,value⟩

theorem sessionDestroyed : (r.step (.destroy .session id)).find (.record .siteSession id') = r.find (.record .siteSession id') := by
  rw [destroyStep,execOther,execOther]
  · intro write member
    cases List.mem_singleton.mp member
    simp [Write.key,Owned.session]
  · intro write member
    cases List.mem_singleton.mp member
    exact (Owned.session.listRecord _ _ _).symm

structure FromRecord (record : SiteSessionRecord) (siteSession : Object) : Prop where
  jti : fieldText siteSession "jti" = some record.jti
  accountId : fieldText siteSession "accountId" = record.accountId
  domain : fieldText siteSession "domain" = some record.domain
  ip : fieldText siteSession "ip" = record.ip

theorem recordPayload (record : SiteSessionRecord) (sessionId : Option String) :
    FromRecord record {record with sessionId := sessionId}.payload := by
  obtain ⟨jti,_,accountId,domain,ip⟩ := record
  cases sessionId <;> cases accountId <;> cases ip <;>
    exact ⟨by simp [fieldText,SiteSessionRecord.payload,Object.get,Json.string?],
      by simp [fieldText,SiteSessionRecord.payload,Object.get,Json.string?],
      by simp [fieldText,SiteSessionRecord.payload,Object.get,Json.string?],
      by simp [fieldText,SiteSessionRecord.payload,Object.get,Json.string?]⟩

theorem referredRecord (from_ : FromRecord record siteSession) (sessionId : String) :
    FromRecord record (siteSession.set "sessionId" (.string sessionId)) := by
  have kept (key : String) (other : "sessionId" ≠ key) :
      fieldText (siteSession.set "sessionId" (.string sessionId)) key = fieldText siteSession key := by
    have apart : ("sessionId" == key) = false := by simpa using other
    simp [fieldText,Object.set,Object.get,apart]
  exact ⟨(kept _ (by decide)).trans from_.jti,(kept _ (by decide)).trans from_.accountId,
    (kept _ (by decide)).trans from_.domain,(kept _ (by decide)).trans from_.ip⟩

theorem validated {request : SiteRequest} (accepted : (ran (validateSiteSession request) r).1 = some siteSession) :
    r.payload (.record .siteSession (request.cookie.getD "undefined")) = some siteSession ∧
      siteSessionIpMismatch request siteSession = false ∧ fieldText siteSession "domain" = some request.scope ∧
      (ran (baseSession request siteSession) r).1 = true := by
  unfold validateSiteSession at accepted
  have read : ran (RedisAdapter.find .siteSession (request.cookie.getD "undefined")) r =
      (r.payload (.record .siteSession (request.cookie.getD "undefined")),r) := rfl
  rw [ranBind,read] at accepted
  cases stored : r.payload (.record .siteSession (request.cookie.getD "undefined")) with
  | none =>
      rw [stored] at accepted
      cases accepted
  | some found =>
      rw [stored] at accepted
      dsimp only at accepted
      cases mismatch : siteSessionIpMismatch request found with
      | true =>
          rw [mismatch,if_pos rfl,ranBind] at accepted
          cases accepted
      | false =>
          rw [mismatch,if_neg Bool.false_ne_true,ranBind] at accepted
          change (if (ran (baseSession request found) r).1 = true ∧ fieldText found "domain" = some request.scope then
            some found else none) = some siteSession at accepted
          split at accepted
          · rename_i both
            cases Option.some.inj accepted
            exact ⟨rfl,mismatch,both.2,both.1⟩
          · cases accepted

end Records

section Worlds
variable {settings : Settings} {w : ForwardWorld} {move : ForwardMove} {record : SiteSessionRecord}

def Provenance (w : ForwardWorld) : Prop := ∀ id siteSession, w.redis.payload (.record .siteSession id) = some siteSession →
  ∃ record ∈ w.issued, record.jti = id ∧ FromRecord record siteSession

theorem remainProvenance {redis : Redis} {issued : List SiteSessionRecord} (provenance : Provenance w)
    (remain : Remain w.redis redis) (grown : w.issued ⊆ issued) : Provenance {w with redis := redis, issued := issued} := by
  intro id siteSession found
  obtain ⟨record,inside,own⟩ := provenance id siteSession (remainPayload remain found)
  exact ⟨record,grown inside,own⟩

theorem storeProvenance {id : String} {payload : Object} {expiresIn : Option Nat} {issued : List SiteSessionRecord}
    (provenance : Provenance w) (grown : w.issued ⊆ issued) (inside : record ∈ issued) (own : record.jti = id)
    (from_ : FromRecord record payload) :
    Provenance {w with redis := w.redis.step (.upsert .siteSession id payload expiresIn), issued := issued} := by
  intro other siteSession found
  have found : (w.redis.step (.upsert .siteSession id payload expiresIn)).payload (.record .siteSession other) =
      some siteSession := found
  rw [payloadStored] at found
  split at found
  · rename_i same
    cases Option.some.inj found
    exact ⟨record,inside,own.trans same.symm,from_⟩
  · obtain ⟨record,listed,own⟩ := provenance other siteSession found
    exact ⟨record,grown listed,own⟩

theorem rotateProvenance {sessionId oldSessionId : String} (ids : List String) (provenance : Provenance w) :
    Provenance (w.perform (updateReferences sessionId oldSessionId ids)) := by
  induction ids generalizing w with
  | nil => exact provenance
  | cons id rest ih =>
      unfold ForwardWorld.perform
      rw [updateReferences,afterThen,referenceStep]
      cases matched : (w.redis.payload (.record .siteSession id)).filter
          (fun siteSession => fieldText siteSession "sessionId" = some oldSessionId) with
      | none => exact ih provenance
      | some siteSession =>
          obtain ⟨record,inside,own,from_⟩ := provenance id siteSession (Option.eq_some_of_filter_eq_some matched)
          exact ih (w := {w with redis := _}) (storeProvenance provenance (List.Subset.refl _) inside own
            (referredRecord from_ sessionId))

theorem requestRemain (request : ForwardRequest) : Remain w.redis (forwardAuth settings w request).2 := by
  unfold forwardAuth
  split
  · exact fun id entry found => found
  · split
    · exact fun id entry found => found
    · split
      · exact fun id entry found => found
      · dsimp only
        rw [ranAfter]
        exact validateRemain _ _

theorem stepProvenance (provenance : Provenance w) : Provenance (w.step settings move) := by
  cases move with
  | consent record =>
      exact storeProvenance provenance (List.subset_cons_self record w.issued) (List.mem_cons_self ..) rfl
        (recordPayload record record.sessionId)
  | renew n sessionId =>
      unfold ForwardWorld.step
      dsimp only
      cases found : w.issued[n]? with
      | none => exact provenance
      | some record =>
          have from_ := recordPayload record (some sessionId)
          dsimp only
          unfold ForwardWorld.perform updateSiteSession
          rw [from_.jti]
          exact storeProvenance provenance (List.Subset.refl _) (List.mem_of_getElem? found) rfl from_
  | rotate sessionId oldSessionId accountId => exact rotateProvenance _ provenance
  | saveSession id payload expiresIn =>
      refine remainProvenance provenance ?_ (List.Subset.refl _)
      intro other entry found
      exact sessionStored.symm.trans found
  | endSession id =>
      refine remainProvenance provenance ?_ (List.Subset.refl _)
      intro other entry found
      exact sessionDestroyed.symm.trans found
  | pass ms => exact remainProvenance provenance (fun id entry found => Redis.passLive found) (List.Subset.refl _)
  | editUsers users approved => exact provenance
  | setClient id client => exact provenance
  | request request => exact remainProvenance provenance (requestRemain request) (List.Subset.refl _)

theorem movesProvenance (moves : List ForwardMove) (provenance : Provenance w) : Provenance (w.moves settings moves) :=
  everyRunKeeps Provenance (fun _ _ => stepProvenance) provenance moves

end Worlds

section Answers
variable {settings : Settings} {w : ForwardWorld} {request : ForwardRequest} {account : OidcUser}
  {headers : List (String × String)}

structure Admitted (settings : Settings) (w : ForwardWorld) (client : ForwardClient) (siteSession : Object) (account : OidcUser)
    (headers : List (String × String)) : Prop where
  accountId : fieldText siteSession "accountId" = some account.accountId
  present : account ∈ w.users
  policy : (accessPolicy settings client).getAccountAccessFailure (w.approved account.accountId) account = none
  headers : headers = RemoteHeaders.getRemoteHeaders settings.env settings.order settings.groupPrefix
    settings.disableFrontendEdit account client.headerMapping

theorem sessionAdmitted {client : ForwardClient} {siteSession : Object}
    (answered : answerSession settings w client siteSession = .letThrough account headers) :
    Admitted settings w client siteSession account headers := by
  unfold answerSession at answered
  split at answered
  · cases answered
  · dsimp only at answered
    cases found : findAccount w (fieldText siteSession "accountId") with
    | none =>
        rw [found] at answered
        cases answered
    | some user =>
        rw [found] at answered
        cases failed : getAccountAccessFailure settings w client (some user) with
        | some failure =>
            rw [failed] at answered
            cases answered
        | none =>
            rw [failed] at answered
            cases answered
            obtain ⟨accountId,named,looked⟩ := Option.bind_eq_some_iff.mp found
            have own : account.accountId = accountId := by simpa using List.find?_some looked
            exact ⟨own ▸ named,List.mem_of_find?_eq_some looked,failed,rfl⟩

theorem requestAdmitted (answered : (forwardAuth settings w request).1 = .letThrough account headers) :
    ∃ clientId client siteSession, truthy request.clientId = some clientId ∧ w.clients clientId = some client ∧
      client.kind = .oidcMiddlewareClient ∧
      (ran (validateSiteSession (siteRequest settings request clientId)) w.redis).1 = some siteSession ∧
      Admitted settings w client siteSession account headers := by
  unfold forwardAuth at answered
  cases named : truthy request.clientId with
  | none =>
      rw [named] at answered
      cases answered
  | some clientId =>
      rw [named] at answered
      dsimp only at answered
      cases known : (w.clients clientId).filter (·.kind = .oidcMiddlewareClient) with
      | none =>
          rw [known] at answered
          cases answered
      | some client =>
          rw [known] at answered
          obtain ⟨stored,kind⟩ := Option.filter_eq_some_iff.mp known
          cases own : request.url with
          | none =>
              rw [own] at answered
              cases answered
          | some url =>
              rw [own] at answered
              dsimp only at answered
              cases accepted : (ran (validateSiteSession (siteRequest settings request clientId)) w.redis).1 with
              | none =>
                  rw [accepted] at answered
                  cases answered
              | some siteSession =>
                  rw [accepted] at answered
                  exact ⟨clientId,client,siteSession,rfl,stored,of_decide_eq_true kind,accepted,sessionAdmitted answered⟩

def authorizes (clientId : String) (session : Object) : Bool :=
  match (session.get "authorizations").filter Json.isTruthy with
  | some (.object authorizations) => (Object.get authorizations clientId).any Json.isTruthy
  | some _ => false
  | none => true

def MainSessionAuthorizes (r : Redis) (clientId : String) (siteSession : Object) : Prop :=
  ∀ sessionId, fieldText siteSession "sessionId" = some sessionId → sessionId ≠ "" →
    ∃ session, r.payload (.record .session sessionId) = some session ∧ authorizes clientId session = true

theorem baseAuthorizes {request : SiteRequest} {siteSession : Object} {r : Redis}
    (based : (ran (baseSession request siteSession) r).1 = true) : MainSessionAuthorizes r request.clientId siteSession := by
  intro sessionId referred filled
  obtain ⟨value,stored,text⟩ := Option.bind_eq_some_iff.mp referred
  cases value with
  | string text' =>
      cases Option.some.inj text
      have truthy : (siteSession.get "sessionId").filter Json.isTruthy = some (.string sessionId) := by
        rw [stored]
        exact Option.filter_eq_some_iff.mpr ⟨rfl,by simpa [Json.isTruthy] using filled⟩
      unfold baseSession at based
      rw [truthy] at based
      dsimp only at based
      rw [ranBind] at based
      have read : ran (RedisAdapter.find .session (keyText (.string sessionId))) r =
          (r.payload (.record .session sessionId),r) := rfl
      rw [read] at based
      cases live : r.payload (.record .session sessionId) with
      | none =>
          rw [live] at based
          cases based
      | some session =>
          rw [live] at based
          exact ⟨session,rfl,based⟩
  | _ => cases text

structure Entitled (settings : Settings) (w : ForwardWorld) (request : ForwardRequest) (account : OidcUser)
    (headers : List (String × String)) (clientId : String) (client : ForwardClient) (record : SiteSessionRecord)
    (siteSession : Object) : Prop extends Admitted settings w client siteSession account headers where
  asked : truthy request.clientId = some clientId
  known : w.clients clientId = some client
  kind : client.kind = .oidcMiddlewareClient
  issued : record ∈ w.issued
  cookie : request.cookie.getD "undefined" = record.jti
  stored : w.redis.payload (.record .siteSession record.jti) = some siteSession
  own : record.accountId = some account.accountId
  scope : record.domain = settings.scope clientId
  address : settings.ipBinding = true → record.ip = request.ip
  mainSession : MainSessionAuthorizes w.redis clientId siteSession

theorem letThroughEntitled (settings : Settings) (moves : List ForwardMove) (request : ForwardRequest) (account : OidcUser)
    (headers : List (String × String))
    (answered : (forwardAuth settings (({} : ForwardWorld).moves settings moves) request).1 = .letThrough account headers) :
    ∃ clientId client record siteSession,
      Entitled settings (({} : ForwardWorld).moves settings moves) request account headers clientId client record siteSession := by
  have provenance : Provenance (({} : ForwardWorld).moves settings moves) :=
    movesProvenance moves fun id siteSession found => by cases found
  generalize ({} : ForwardWorld).moves settings moves = w at answered provenance ⊢
  obtain ⟨clientId,client,siteSession,asked,known,kind,accepted,admitted⟩ := requestAdmitted answered
  obtain ⟨stored,mismatch,domain,based⟩ := validated accepted
  obtain ⟨record,issued,cookie,from_⟩ := provenance _ _ stored
  refine ⟨clientId,client,record,siteSession,?_⟩
  exact {
    toAdmitted := admitted
    asked := asked
    known := known
    kind := kind
    issued := issued
    cookie := cookie.symm
    stored := by rw [cookie]; exact stored
    own := from_.accountId.symm.trans admitted.accountId
    scope := Option.some.inj (from_.domain.symm.trans domain)
    address := by
      intro bound
      have same : fieldText siteSession "ip" = request.ip := by
        simpa [siteSessionIpMismatch,siteRequest,bound] using mismatch
      exact from_.ip.symm.trans same
    mainSession := baseAuthorizes based }

def wikiSettings : Settings where
  env := {}
  order := RemoteHeaders.reversedOrder
  groupPrefix := "passmower"
  disableFrontendEdit := false
  requiredGroup := none
  adminGroup := none
  ipBinding := true
  scope := fun _ => "example.com"

def wiki : ForwardClient where
  kind := .oidcMiddlewareClient
  allowedGroups := ["entra:staff"]
  headerMapping := RemoteHeaders.groupsHeader

def alicesSession : SiteSessionRecord where
  jti := "cookie"
  sessionId := some "main"
  accountId := some "alice"
  domain := "example.com"
  ip := some "10.0.0.1"

def alice : OidcUser where
  accountId := "alice"
  status := {profile := {name := some "Alice"}, groups := [⟨"entra","staff"⟩]}

def consented : List ForwardMove := [
  .editUsers [alice] fun _ => false,
  .setClient "apps.wiki" (some wiki),
  .saveSession "main" [("authorizations",.object [("apps.wiki",.object [("sid",.string "1")])])] none,
  .consent alicesSession]

def alicesRequest : ForwardRequest where
  clientId := some "apps.wiki"
  url := some "https://wiki.example.com/"
  cookie := some "cookie"
  ip := some "10.0.0.1"

theorem aliceEntitled : ∃ clientId client record siteSession,
    Entitled wikiSettings (({} : ForwardWorld).moves wikiSettings consented) alicesRequest alice
      [("Remote-User","alice"),("Remote-Name","Alice"),("Remote-Groups","entra:staff")] clientId client record siteSession :=
  letThroughEntitled _ _ _ _ _ (by decide +kernel)

end Answers

section Ended
variable {settings : Settings} {w : ForwardWorld} {move : ForwardMove} {request : ForwardRequest} {r : Redis}
  {sessionId jti id : String} {payload : Object} {expiresIn : Option Nat}

def LeavesEnded (sessionId jti : String) (w : ForwardWorld) : ForwardMove → Prop
  | .consent record => record.jti ≠ jti
  | .renew n renewed => ∀ record, w.issued[n]? = some record → record.jti = jti → renewed = sessionId
  | .rotate _ oldSessionId _ => oldSessionId ≠ sessionId
  | .saveSession id _ _ => id ≠ sessionId
  | _ => True

structure EndedFor (sessionId jti : String) (r : Redis) : Prop where
  gone : r.find (.record .session sessionId) = none
  refers : ∀ siteSession, r.payload (.record .siteSession jti) = some siteSession →
    fieldText siteSession "sessionId" = some sessionId

theorem sessionSurvives : (r.step (.upsert .siteSession id payload expiresIn)).find (.record .session sessionId) =
    r.find (.record .session sessionId) := by
  rw [upsertStep,execOther,execOther]
  · intro write member
    rcases writesKey member with same | ⟨code,same⟩ | ⟨uid,same⟩ <;> simp [same,Owned.siteSession]
  · intro write member
    cases List.mem_singleton.mp member
    exact (Owned.siteSession.listRecord _ _ _).symm

theorem otherSession (other : id ≠ sessionId) :
    (r.step (.upsert .session id payload expiresIn)).find (.record .session sessionId) = r.find (.record .session sessionId) := by
  rw [upsertStep,execOther,execOther]
  · intro write member
    rcases writesKey member with same | ⟨code,same⟩ | ⟨uid,same⟩
    · rw [same]
      exact fun equal => other (by injection equal with _ own; exact own.symm)
    · simp [same]
    · simp [same]
  · intro write member
    cases List.mem_singleton.mp member
    exact (Owned.session.listRecord _ _ _).symm

theorem destroyedGone (gone : r.find (.record .session sessionId) = none) (m : Owned) :
    (r.step (.destroy m id)).find (.record .session sessionId) = none := by
  rw [destroyStep,execOther]
  · by_cases same : Key.record m.model id = .record .session sessionId
    · rw [same]
      simp [Redis.exec,Write.apply,Redis.findPut]
    · rw [execOther]
      · exact gone
      · intro write member
        cases List.mem_singleton.mp member
        exact fun equal => same equal.symm
  · intro write member
    cases List.mem_singleton.mp member
    exact (m.listRecord _ _ _).symm

theorem sessionGone : (r.step (.destroy .session sessionId)).find (.record .session sessionId) = none := by
  rw [destroyStep,execOther]
  · simp [Redis.exec,Write.apply,Redis.findPut,Owned.session]
  · intro write member
    cases List.mem_singleton.mp member
    exact (Owned.session.listRecord _ _ _).symm

theorem validateGone {asked : SiteRequest} (gone : r.find (.record .session sessionId) = none) :
    (after answerRedis (validateSiteSession asked) [] r).find (.record .session sessionId) = none := by
  have read : run answerRedis (RedisAdapter.find .siteSession (asked.cookie.getD "undefined")) [] r =
      (.ok (r.payload (.record .siteSession (asked.cookie.getD "undefined"))),[],r) := rfl
  simp only [after,validateSiteSession,runBind,read]
  cases stored : r.payload (.record .siteSession (asked.cookie.getD "undefined")) with
  | none => exact gone
  | some siteSession =>
      by_cases mismatch : siteSessionIpMismatch asked siteSession = true
      · simp only [mismatch,if_true,runBind]
        have destroyed : (r.step (.destroy .siteSession ((fieldText siteSession "jti").getD "undefined"))).find
            (.record .session sessionId) = none := destroyedGone gone .siteSession
        exact destroyed
      · have based := baseSessionReads asked siteSession r
        simp only [mismatch,Bool.false_eq_true,if_false,runBind]
        generalize run answerRedis (baseSession asked siteSession) [] r = out at based ⊢
        obtain ⟨result,rest,t⟩ := out
        cases based
        cases result with
        | ok base => exact gone
        | error e => exact gone

theorem recordRefers (record : SiteSessionRecord) (sessionId : String) :
    fieldText {record with sessionId := some sessionId}.payload "sessionId" = some sessionId := by
  simp [fieldText,SiteSessionRecord.payload,Object.get,Json.string?]

theorem endedStored (ended : EndedFor sessionId jti r)
    (refers : id = jti → fieldText payload "sessionId" = some sessionId) :
    EndedFor sessionId jti (r.step (.upsert .siteSession id payload expiresIn)) where
  gone := sessionSurvives.trans ended.gone
  refers := by
    intro siteSession found
    rw [payloadStored] at found
    split at found
    · rename_i same
      cases Option.some.inj found
      exact refers same.symm
    · exact ended.refers siteSession found

theorem endedReferences {renewed oldSessionId : String} (ids : List String) (other : oldSessionId ≠ sessionId)
    (ended : EndedFor sessionId jti r) :
    EndedFor sessionId jti (after answerRedis (updateReferences renewed oldSessionId ids) [] r) := by
  induction ids generalizing r with
  | nil => exact ended
  | cons id rest ih =>
      rw [updateReferences,afterThen,referenceStep]
      cases matched : (r.payload (.record .siteSession id)).filter
          (fun siteSession => fieldText siteSession "sessionId" = some oldSessionId) with
      | none => exact ih ended
      | some siteSession =>
          refine ih (endedStored ended ?_)
          rintro rfl
          obtain ⟨stored,old⟩ := Option.filter_eq_some_iff.mp matched
          have referred := (of_decide_eq_true old).symm.trans (ended.refers siteSession stored)
          exact absurd (Option.some.inj referred) other

theorem requestEnded (ended : EndedFor sessionId jti w.redis) :
    EndedFor sessionId jti (forwardAuth settings w request).2 := by
  have remain : Remain w.redis (forwardAuth settings w request).2 := requestRemain request
  refine ⟨?_,fun siteSession found => ended.refers siteSession (remainPayload remain found)⟩
  unfold forwardAuth
  split
  · exact ended.gone
  · split
    · exact ended.gone
    · split
      · exact ended.gone
      · dsimp only
        rw [ranAfter]
        exact validateGone ended.gone

theorem stepEnded (ended : EndedFor sessionId jti w.redis) (leaves : LeavesEnded sessionId jti w move) :
    EndedFor sessionId jti (w.step settings move).redis := by
  cases move with
  | consent record => exact endedStored ended fun same => absurd same leaves
  | renew n renewed =>
      unfold ForwardWorld.step
      dsimp only
      cases found : w.issued[n]? with
      | none => exact ended
      | some record =>
          have from_ := recordPayload record (some renewed)
          dsimp only
          unfold ForwardWorld.perform updateSiteSession
          rw [from_.jti]
          refine endedStored ended fun same => ?_
          rw [leaves record found same]
          exact recordRefers record sessionId
  | rotate renewed oldSessionId accountId => exact endedReferences _ leaves ended
  | saveSession id payload expiresIn =>
      refine ⟨(otherSession leaves).trans ended.gone,fun siteSession found => ended.refers siteSession ?_⟩
      exact (congrArg (·.bind (·.value.payload?)) sessionStored).symm.trans found
  | endSession id =>
      refine ⟨destroyedGone ended.gone .session,fun siteSession found => ended.refers siteSession ?_⟩
      exact (congrArg (·.bind (·.value.payload?)) sessionDestroyed).symm.trans found
  | pass ms =>
      refine ⟨Option.eq_none_iff_forall_not_mem.mpr fun entry live => ?_,fun siteSession found => ended.refers siteSession ?_⟩
      · have before := Redis.passLive live
        rw [ended.gone] at before
        cases before
      · exact remainPayload (fun id entry live => Redis.passLive live) found
  | editUsers users approved => exact ended
  | setClient id client => exact ended
  | request request => exact requestEnded ended

theorem movesEnded (moves : List ForwardMove) (ended : EndedFor sessionId jti w.redis)
    (leaves : EachStep (ForwardWorld.step settings) (LeavesEnded sessionId jti) moves w) :
    EndedFor sessionId jti (w.moves settings moves).redis :=
  eachStepKeeps (fun w : ForwardWorld => EndedFor sessionId jti w.redis) (fun _ _ => stepEnded) ended leaves

/- Once the main session has ended, nobody is let through for a site session that refers to it. -/
theorem endedLetsNobodyThrough (settings : Settings) (w : ForwardWorld) (sessionId jti : String) (siteSession : Object)
    (stored : w.redis.payload (.record .siteSession jti) = some siteSession)
    (refers : fieldText siteSession "sessionId" = some sessionId) (filled : sessionId ≠ "") (moves : List ForwardMove)
    (leaves : EachStep (ForwardWorld.step settings) (LeavesEnded sessionId jti) moves (w.step settings (.endSession sessionId)))
    (request : ForwardRequest) (presented : request.cookie = some jti) (account : OidcUser) (headers : List (String × String)) :
    (forwardAuth settings ((w.step settings (.endSession sessionId)).moves settings moves) request).1 ≠
      .letThrough account headers := by
  intro answered
  have started : EndedFor sessionId jti (w.step settings (.endSession sessionId)).redis := by
    refine ⟨?_,fun other found => ?_⟩
    · exact sessionGone
    · have same : w.redis.payload (.record .siteSession jti) = some other :=
        (congrArg (·.bind (·.value.payload?)) sessionDestroyed).symm.trans found
      rw [stored] at same
      cases same
      exact refers
  have ended := movesEnded moves started leaves
  obtain ⟨clientId,client,found,_,_,_,accepted,_⟩ := requestAdmitted answered
  obtain ⟨live,_,_,based⟩ := validated accepted
  have cookie : (siteRequest settings request clientId).cookie.getD "undefined" = jti := by
    simp [siteRequest,presented]
  rw [cookie] at live
  obtain ⟨session,present,_⟩ := baseAuthorizes based sessionId (ended.refers found live) filled
  have absent : ((w.step settings (.endSession sessionId)).moves settings moves).redis.payload (.record .session sessionId) =
      none := by
    unfold Redis.payload
    rw [ended.gone]
    rfl
  cases absent.symm.trans present

theorem aliceLoggedOut :
    (forwardAuth wikiSettings (((({} : ForwardWorld).moves wikiSettings consented).step wikiSettings (.endSession "main")).moves
      wikiSettings [.request alicesRequest,.consent {alicesSession with jti := "other", accountId := some "bob"}]) alicesRequest).1 ≠
      .letThrough alice [("Remote-User","alice"),("Remote-Name","Alice"),("Remote-Groups","entra:staff")] :=
  endedLetsNobodyThrough wikiSettings _ "main" "cookie" alicesSession.payload rfl (recordRefers alicesSession "main") (by decide)
    [.request alicesRequest,.consent {alicesSession with jti := "other", accountId := some "bob"}]
    ⟨trivial,(by decide : "other" ≠ "cookie"),trivial⟩ alicesRequest rfl alice _

end Ended

end ForwardAuth
end Passmower
