import Passmower.AccountType
import Passmower.SiteSessions

/-! The admin API: the middleware in front of its handlers, admin sessions in Redis, and runs of logins,
account edits and requests. -/
namespace Passmower
open JavaScript Resumption Program

abbrev Cluster := String → Option OidcUser

/- A request to the admin API, by its cookies; `site` presents the dashboard's own site session. -/
structure AdminRequest where
  session : Option String
  adminSession : Option String
  site : SiteRequest

namespace SessionService

def adminSessionTtl : Nat := 3600

def adminSessionModel : Model := .other "AdminSession"

def jti (session : Object) : String := (fieldText session "jti").getD "undefined"

def getAdminSession (request : AdminRequest) : Stored (Option Object) := match truthy request.adminSession with
  | some id => RedisAdapter.find adminSessionModel id
  | none => .pure none

def setAdminSession (session : Object) : Stored Unit :=
  RedisAdapter.upsert adminSessionModel (jti session) session (some adminSessionTtl)

def endAdminSession (session : Object) : Stored Unit := match truthy (fieldText session "jti") with
  | some id => RedisAdapter.destroy adminSessionModel id
  | none => .pure ()

def endOIDCSession (session : Object) : Stored Unit := RedisAdapter.destroy .session (jti session)

end SessionService

def sessionAccount (session : Object) : Option String := truthy (fieldText session "accountId")

def sessionGet (request : AdminRequest) : Stored (Option Object) := match truthy request.session with
  | some id => do
      let session ← RedisAdapter.find .session id
      .pure (session.filter fun session => (sessionAccount session).isSome)
  | none => .pure none

section Requests
variable (cluster : Cluster) (adminGroup : Option String)

/- The current-session middleware: `ctx.currentAccount`. -/
def currentSessionAccount (request : AdminRequest) : Stored (Option OidcUser) := do
  match ← sessionGet request with
  | none => .pure none
  | some session =>
      let account := (sessionAccount session).bind cluster
      match AccountType.getAccountTypeAccessFailure account false with
      | some _ => do
          SessionService.endOIDCSession session
          .pure none
      | none => .pure account

def signedInToSelf (request : AdminRequest) : Stored (Option Object) := do
  match ← validateSiteSession request.site with
  | some _ => sessionGet request
  | none => .pure none

def grantAdminSession (request : AdminRequest) (currentAccount : Option OidcUser) : Stored (Option Object) := do
  match ← signedInToSelf request with
  | none => .pure none
  | some session =>
      if currentAccount.any (·.isAdmin adminGroup) then do
        SessionService.setAdminSession session
        .pure (some session)
      else .pure none

def adminSessionMiddleware (request : AdminRequest) (currentAccount : Option OidcUser) : Stored (Option Object) := do
  match ← SessionService.getAdminSession request with
  | some session =>
      match AccountType.getAccountTypeAccessFailure ((fieldText session "accountId").bind cluster) false with
      | some _ => do
          SessionService.endAdminSession session
          .pure none
      | none => .pure (some session)
  | none => grantAdminSession adminGroup request currentAccount

def serveAdmin (request : AdminRequest) : Stored (Option Object) := do
  let currentAccount ← currentSessionAccount cluster request
  adminSessionMiddleware cluster adminGroup request currentAccount

def Authorized (session : Object) : Prop :=
  ∃ accountId user, fieldText session "accountId" = some accountId ∧ cluster accountId = some user ∧
    user.isAdmin adminGroup = true ∧ AccountType.Admits false user.spec.type

def Authorizes (request : AdminRequest) (r : Redis) : Prop :=
  ∀ session, (ran (serveAdmin cluster adminGroup request) r).1 = some session → Authorized cluster adminGroup session

def OutlivesGroup (request : AdminRequest) (r : Redis) : Prop :=
  ∃ id session accountId user, truthy request.adminSession = some id ∧
    r.payload (.record SessionService.adminSessionModel id) = some session ∧
    fieldText session "accountId" = some accountId ∧ cluster accountId = some user ∧
    AccountType.Admits false user.spec.type ∧ user.isAdmin adminGroup = false

end Requests

inductive AdminMove where
  /- a login, or any later save of its session -/
  | saveSession (id : String) (payload : Object) (expiresIn : Option Nat)
  | issueSite (record : SiteSessionRecord)
  | logOut (id : String)
  /- an OIDCUser is created, edited or deleted, its groups or its type among the rest -/
  | edit (accountId : String) (user : Option OidcUser)
  | request (request : AdminRequest)
  | pass (ms : Nat)

structure AdminSite where
  redis : Redis := {}
  cluster : Cluster := fun _ => none

namespace AdminSite
variable (adminGroup : Option String) (site : AdminSite)

def perform {α : Type} (p : Stored α) : AdminSite := {site with redis := (ran p site.redis).2}

def step : AdminMove → AdminSite
  | .saveSession id payload expiresIn => site.perform (RedisAdapter.upsert .session id payload expiresIn)
  | .issueSite record => site.perform (addSiteSession record)
  | .logOut id => site.perform (RedisAdapter.destroy .session id)
  | .edit accountId user => {site with cluster := fun other => if other = accountId then user else site.cluster other}
  | .request request => site.perform (serveAdmin site.cluster adminGroup request)
  | .pass ms => {site with redis := site.redis.pass ms}

def EachRequest (P : AdminSite → AdminRequest → Prop) : List AdminMove → AdminSite → Prop
  | [],_ => True
  | move :: rest,site => (∀ request, move = .request request → P site request) ∧ EachRequest P rest (site.step adminGroup move)

end AdminSite

section Served
variable {cluster : Cluster} {adminGroup : Option String} {request : AdminRequest} {r : Redis} {model : Model} {id : String}

theorem leavesFind (model : Model) (other : String) (key : Key) : Leaves key (RedisAdapter.find model other) := fun _ => rfl

theorem leavesDestroy {model' : Model} {id' : String} (other : model ≠ model') :
    Leaves (.record model id) (RedisAdapter.destroy model' id') := by
  have apart : (Key.record model id) ≠ .record model' id' := fun same => other (by injection same)
  refine leavesBind (leavesFind _ _ _) fun payload => leavesBind (leavesExec ?_) fun _ => ?_
  · intro write member
    cases List.mem_singleton.mp member
    exact apart
  · cases referenced : model'.referencable with
    | none => exact leavesPure ()
    | some referencing =>
        refine leavesExec fun write member => ?_
        cases List.mem_singleton.mp member
        cases model' <;> cases referenced <;> exact Key.noConfusion

theorem currentLeavesAdmin : Leaves (.record SessionService.adminSessionModel id) (currentSessionAccount cluster request) := by
  refine leavesBind ?_ fun session => ?_
  · unfold sessionGet
    cases truthy request.session with
    | none => exact leavesPure none
    | some other => exact leavesBind (leavesFind _ _ _) fun _ => leavesPure _
  · cases session with
    | none => exact leavesPure none
    | some session =>
        simp only []
        split
        · exact leavesBind (leavesDestroy Model.noConfusion) fun _ => leavesPure none
        · exact leavesPure _

theorem validateLeaves (site : SiteRequest) (other : model ≠ .siteSession) :
    Leaves (.record model id) (validateSiteSession site) := by
  refine leavesBind (leavesFind _ _ _) fun siteSession => ?_
  cases siteSession with
  | none => exact leavesPure none
  | some siteSession =>
      simp only []
      split
      · exact leavesBind (leavesDestroy other) fun _ => leavesPure none
      · refine leavesBind ?_ fun _ => leavesPure _
        unfold baseSession
        split
        · exact leavesPure true
        · exact leavesBind (leavesFind _ _ _) fun _ => leavesPure _

theorem sessionGetReads {t : Redis} (same : ∀ id, t.find (.record .session id) = r.find (.record .session id)) :
    (ran (sessionGet request) t).1 = (ran (sessionGet request) r).1 := by
  unfold sessionGet
  cases truthy request.session with
  | none => rfl
  | some id =>
      have stored : t.payload (.record .session id) = r.payload (.record .session id) := by
        unfold Redis.payload
        rw [same]
      change (t.payload _).filter _ = (r.payload _).filter _
      rw [stored]

theorem sessionGetUnchanged : (ran (sessionGet request) r).2 = r := by
  unfold sessionGet
  cases truthy request.session <;> rfl

theorem currentFound {account : OidcUser} (current : (ran (currentSessionAccount cluster request) r).1 = some account) :
    (ran (currentSessionAccount cluster request) r).2 = r ∧
    ∃ session accountId, (ran (sessionGet request) r).1 = some session ∧ sessionAccount session = some accountId ∧
      cluster accountId = some account ∧ AccountType.Admits false account.spec.type := by
  unfold currentSessionAccount at current ⊢
  rw [ranBind] at current ⊢
  rw [sessionGetUnchanged] at current ⊢
  cases got : (ran (sessionGet request) r).1 with
  | none =>
      rw [got] at current
      cases current
  | some session =>
      rw [got] at current
      simp only [] at current ⊢
      split at current
      · rw [ranBind] at current
        cases current
      · rename_i allowed
        have found : (sessionAccount session).bind cluster = some account := current
        rw [found] at allowed
        obtain ⟨accountId,named,stored⟩ := Option.bind_eq_some_iff.mp found
        exact ⟨rfl,session,accountId,rfl,named,stored,(AccountType.noFailure account false).mp allowed⟩

theorem adminSessionFound (request : AdminRequest) (r : Redis) : ran (SessionService.getAdminSession request) r =
    ((truthy request.adminSession).bind fun id => r.payload (.record SessionService.adminSessionModel id),r) := by
  unfold SessionService.getAdminSession
  cases truthy request.adminSession <;> rfl

theorem signedInLive {session : Object} (signedIn : (ran (signedInToSelf request) r).1 = some session) :
    (ran (sessionGet request) r).1 = some session := by
  unfold signedInToSelf at signedIn
  rw [ranBind] at signedIn
  cases valid : (ran (validateSiteSession request.site) r).1 with
  | none =>
      rw [valid] at signedIn
      cases signedIn
  | some siteSession =>
      rw [valid] at signedIn
      have kept : ∀ id, (ran (validateSiteSession request.site) r).2.find (.record .session id) = r.find (.record .session id) :=
        fun id => validateLeaves request.site Model.noConfusion r
      exact (sessionGetReads kept).symm.trans signedIn

theorem grantedAuthorized {session : Object}
    (granted : (ran (grantAdminSession adminGroup request (ran (currentSessionAccount cluster request) r).1)
      (ran (currentSessionAccount cluster request) r).2).1 = some session) : Authorized cluster adminGroup session := by
  unfold grantAdminSession at granted
  rw [ranBind] at granted
  cases signedIn : (ran (signedInToSelf request) (ran (currentSessionAccount cluster request) r).2).1 with
  | none =>
      rw [signedIn] at granted
      cases granted
  | some live =>
      rw [signedIn] at granted
      simp only [] at granted
      split at granted
      · rename_i admin
        rw [ranBind] at granted
        cases granted
        obtain ⟨account,current,isAdmin⟩ := (Option.any_eq_true _ _).mp admin
        obtain ⟨unchanged,other,accountId,got,named,stored,admitted⟩ := currentFound current
        rw [unchanged] at signedIn
        cases got.symm.trans (signedInLive signedIn)
        exact ⟨accountId,account,(Option.filter_eq_some_iff.mp named).1,stored,isAdmin,admitted⟩
      · cases granted

theorem authorizedAccount {session : Object} : Authorized cluster adminGroup session ↔
    ∃ user, (fieldText session "accountId").bind cluster = some user ∧ user.isAdmin adminGroup = true ∧
      AccountType.Admits false user.spec.type := by
  unfold Authorized
  simp only [Option.bind_eq_some_iff]
  constructor
  · intro ⟨accountId,user,named,stored,rest⟩
    exact ⟨user,⟨accountId,named,stored⟩,rest⟩
  · intro ⟨user,⟨accountId,named,stored⟩,rest⟩
    exact ⟨accountId,user,named,stored,rest⟩

theorem adminSessionGate (session served : Object) (r : Redis) :
    (ran (match AccountType.getAccountTypeAccessFailure ((fieldText session "accountId").bind cluster) false with
      | some _ => do
          SessionService.endAdminSession session
          .pure none
      | none => .pure (some session) : Stored (Option Object)) r).1 = some served ↔
    served = session ∧ ∃ user, (fieldText session "accountId").bind cluster = some user ∧ AccountType.Admits false user.spec.type := by
  cases account : (fieldText session "accountId").bind cluster with
  | none =>
      simp only [AccountType.getAccountTypeAccessFailure,ranBind]
      simp [ran]
  | some user =>
      cases failure : AccountType.getAccountTypeAccessFailure (some user) false with
      | none => simp [ran,(AccountType.noFailure user false).mp failure,eq_comm]
      | some text =>
          have denied : ¬ AccountType.Admits false user.spec.type := by
            intro admitted
            cases ((AccountType.noFailure user false).mpr admitted).symm.trans failure
          simp only [ranBind]
          simp [ran,denied]

theorem authorizesUnlessOutlived : Authorizes cluster adminGroup request r ↔ ¬ OutlivesGroup cluster adminGroup request r := by
  have served : (ran (serveAdmin cluster adminGroup request) r).1 =
      (ran (adminSessionMiddleware cluster adminGroup request (ran (currentSessionAccount cluster request) r).1)
        (ran (currentSessionAccount cluster request) r).2).1 := by
    unfold serveAdmin
    rw [ranBind]
  have kept : ∀ id, (ran (currentSessionAccount cluster request) r).2.payload (.record SessionService.adminSessionModel id) =
      r.payload (.record SessionService.adminSessionModel id) := by
    intro id
    unfold Redis.payload
    rw [currentLeavesAdmin r]
  have found := adminSessionFound request (ran (currentSessionAccount cluster request) r).2
  unfold Authorizes
  rw [served]
  unfold adminSessionMiddleware
  rw [ranBind,found]
  simp only [kept]
  cases presented : truthy request.adminSession with
  | none =>
      refine ⟨fun _ => ?_,fun _ session granted => grantedAuthorized granted⟩
      intro ⟨_,_,_,_,named,_⟩
      cases presented.symm.trans named
  | some id =>
      cases stored : r.payload (.record SessionService.adminSessionModel id) with
      | none =>
          refine ⟨fun _ => ?_,fun _ session granted => grantedAuthorized (by simpa [stored] using granted)⟩
          intro ⟨_,_,_,_,named,held,_⟩
          cases presented.symm.trans named
          cases stored.symm.trans held
      | some session =>
          simp only [Option.bind_some,stored]
          constructor
          · intro authorizes ⟨_,_,accountId,user,named,held,owner,known,admitted,lost⟩
            cases presented.symm.trans named
            cases stored.symm.trans held
            have account : (fieldText session "accountId").bind cluster = some user :=
              Option.bind_eq_some_iff.mpr ⟨accountId,owner,known⟩
            have authorized := authorizes session ((adminSessionGate session session _).mpr ⟨rfl,user,account,admitted⟩)
            obtain ⟨other,same,isAdmin,_⟩ := authorizedAccount.mp authorized
            cases account.symm.trans same
            cases lost.symm.trans isAdmin
          · intro current served reached
            obtain ⟨rfl,user,account,admitted⟩ := (adminSessionGate session served _).mp reached
            refine authorizedAccount.mpr ⟨user,account,?_,admitted⟩
            obtain ⟨accountId,owner,known⟩ := Option.bind_eq_some_iff.mp account
            cases isAdmin : user.isAdmin adminGroup with
            | true => rfl
            | false => exact absurd ⟨id,served,accountId,user,presented,stored,owner,known,admitted,isAdmin⟩ current

end Served

namespace AdminSite

/- In every run each request is authorized exactly when none comes with an admin session that has outlived its
account's admin group. -/
theorem adminAuthorization (adminGroup : Option String) (run : List AdminMove) (site : AdminSite) :
    EachRequest adminGroup (fun site request => Authorizes site.cluster adminGroup request site.redis) run site ↔
    EachRequest adminGroup (fun site request => ¬ OutlivesGroup site.cluster adminGroup request site.redis) run site := by
  simp only [authorizesUnlessOutlived]

end AdminSite

def admins : Group := ⟨"passmower","admins"⟩

def adminUser (groups : List Group) : OidcUser where
  accountId := "alice"
  status := {groups := groups}

def dashboardRequest (id : String) : AdminRequest where
  session := some id
  adminSession := some id
  site := {cookie := some "site", clientId := "passmower", ip := none, scope := "auth.example.com"}

def demotion : List AdminMove :=
  [.edit "alice" (some (adminUser [admins])),
   .saveSession "s" [("jti",.string "s"),("accountId",.string "alice")] (some 3600),
   .issueSite ⟨"site",some "s",some "alice","auth.example.com",none⟩,
   .request (dashboardRequest "s"),
   .edit "alice" (some (adminUser [])),
   .request (dashboardRequest "s")]

theorem demotedServed : ¬ ∀ (adminGroup : Option String) (run : List AdminMove) (site : AdminSite),
    AdminSite.EachRequest adminGroup (fun site request => Authorizes site.cluster adminGroup request site.redis) run site := by
  intro always
  have each := always (some "passmower:admins") demotion {}
  have last := each.2.2.2.2.2.1 (dashboardRequest "s") rfl
  obtain ⟨accountId,user,owner,known,isAdmin,_⟩ := last _ rfl
  have alice : accountId = "alice" := (Option.some.inj owner).symm
  subst alice
  cases known
  exact absurd isAdmin (by decide)

end Passmower
