import Passmower.EmailLogin

/-! Account types and the kinds of login they admit: the check at the end of a login, the one of
the current-session middleware, and runs of logins, impersonations, edits and page requests. -/
namespace Passmower
open JavaScript Resumption Program

namespace AccountType

inductive Failure where
  | accountMissing
  | denied (failure : AccessFailure)
  deriving DecidableEq, Repr

def ordinaryLoginTypes : List (Option String) := [none,some "person"]

def impersonationTypes : List (Option String) := [none,some "person",some "service"]

def getAccountTypeAccessFailure (account : Option OidcUser) (impersonation : Bool) : Option Failure :=
  match account with
  | none => some .accountMissing
  | some account =>
      if account.spec.type = some "banned" then some (.denied .accountBanned)
      else if (if impersonation then impersonationTypes else ordinaryLoginTypes).contains account.spec.type then none
      else some (.denied .accountTypeNotLoginCapable)

def canImpersonateAccount (account : Option OidcUser) : Bool :=
  (getAccountTypeAccessFailure account true).isNone

/- What `getLoginResult` gives for either kind of login; `result` is the interaction's own. -/
def getLoginResult (result : Option Submission) (account : Option OidcUser) (impersonation : Bool) : Literal :=
  match account with
  | none => match result.bind (·.error) with
      | some (error,description) => .error error description
      | none => match result.filter (·.requireCustomUsername) with
          | some result => .result result
          | none => .error "access_denied" (some "Account doesn't exist")
  | some account => match getAccountTypeAccessFailure (some account) impersonation with
      | some _ => .error "access_denied" (some "This account cannot sign in")
      | none => .login account.accountId

def Admits (impersonation : Bool) (type : Option String) : Prop :=
  type = none ∨ type = some "person" ∨ (impersonation = true ∧ type = some "service")

theorem ordinaryFailure (account : OidcUser) : getAccountTypeAccessFailure (some account) false =
    (Passmower.getAccountTypeAccessFailure account).map .denied := by
  unfold getAccountTypeAccessFailure Passmower.getAccountTypeAccessFailure
  by_cases banned : account.spec.type = some "banned"
  · simp [banned]
  · by_cases person : account.spec.type = none ∨ account.spec.type = some "person"
    · simp [banned,person,ordinaryLoginTypes]
    · simp [banned,person,ordinaryLoginTypes]

theorem ordinaryLoginResult (uid : Nat) (account : Option OidcUser) : Passmower.getLoginResult uid account =
    (do let details ← interactionDetails uid
        .pure (getLoginResult details.result account false)) := by
  unfold Passmower.getLoginResult getLoginResult
  congr 1
  funext details
  cases account with
  | none =>
      cases details.result.bind (·.error) with
      | some failure => rfl
      | none => cases details.result.filter (·.requireCustomUsername) <;> rfl
  | some account =>
      simp only [ordinaryFailure]
      cases Passmower.getAccountTypeAccessFailure account <;> rfl

theorem noFailure (account : OidcUser) (impersonation : Bool) :
    getAccountTypeAccessFailure (some account) impersonation = none ↔ Admits impersonation account.spec.type := by
  unfold getAccountTypeAccessFailure Admits
  by_cases banned : account.spec.type = some "banned"
  · simp [banned]
  · cases impersonation <;> simp [banned,ordinaryLoginTypes,impersonationTypes] <;> grind

theorem noAccountNoLogin (result : Option Submission) (impersonation : Bool) (accountId : String) :
    getLoginResult result none impersonation ≠ .login accountId := by
  intro login
  simp only [getLoginResult] at login
  split at login
  · cases login
  · split at login <;> cases login

theorem loginCompletes (result : Option Submission) (account : Option OidcUser) (impersonation : Bool) :
    (∃ accountId, getLoginResult result account impersonation = .login accountId) ↔
      ∃ user, account = some user ∧ Admits impersonation user.spec.type := by
  cases account with
  | none => simp [noAccountNoLogin]
  | some user =>
      simp only [Option.some.injEq,exists_eq_left',← noFailure,getLoginResult]
      cases getAccountTypeAccessFailure (some user) impersonation <;> simp

end AccountType

structure ImpersonationRecord where
  actor : String
  accountId : String
  activated : Bool
  deriving DecidableEq, Repr

/- A finished login waiting for its interaction to be resumed. The code keeps the account id
only; `impersonation` remembers which endpoint finished it. -/
structure FinishedLogin where
  accountId : String
  impersonation : Bool
  deriving DecidableEq, Repr

structure BrowserSession where
  accountId : Option String
  impersonation : Bool := false
  deriving DecidableEq, Repr

/- The records the gating reads; an OIDCUser is known by its name. -/
structure LoginSite where
  accounts : String → Option AdminSpec := fun _ => none
  impersonations : String → Option ImpersonationRecord := fun _ => none
  finished : Nat → Option FinishedLogin := fun _ => none
  sessions : String → Option BrowserSession := fun _ => none

inductive SiteRoute where
  | page
  /- any ordinary method that came to this account, or to none -/
  | login (uid : Nat) (result : Option Submission) (accountId : Option String)
  /- `POST /interaction/:uid/impersonate`, with the impersonation cookie -/
  | impersonate (uid : Nat) (result : Option Submission) (cookie : String)
  /- the authorization request goes on, in a session under this id -/
  | resume (uid : Nat) (id : String)
  | createImpersonation (jti actor accountId : String)
  | activateImpersonation (jti : String)
  deriving DecidableEq, Repr

inductive SiteEvent where
  | request (cookie : Option String) (route : SiteRoute)
  /- the OIDCUser is created, edited or deleted -/
  | edit (accountId : String) (spec : Option AdminSpec)
  | expireSession (id : String)
  | expireImpersonation (jti : String)

namespace LoginSite
variable (site : LoginSite)

def findAccount (accountId : String) : Option OidcUser :=
  (site.accounts accountId).map (fun spec => {accountId := accountId, spec := spec})

def setSession (id : String) (session : Option BrowserSession) : LoginSite :=
  {site with sessions := fun other => if other = id then session else site.sessions other}

def setImpersonation (jti : String) (record : Option ImpersonationRecord) : LoginSite :=
  {site with impersonations := fun other => if other = jti then record else site.impersonations other}

def endOIDCSession (id : String) : LoginSite := site.setSession id none

def currentSession (cookie : Option String) : Option (String × BrowserSession × String) := do
  let id ← cookie
  let session ← site.sessions id
  let accountId ← truthy session.accountId
  some (id,session,accountId)

def currentAccount (cookie : Option String) : Option OidcUser × LoginSite :=
  match site.currentSession cookie with
  | none => (none,site)
  | some (id,_,accountId) =>
      let account := site.findAccount accountId
      match AccountType.getAccountTypeAccessFailure account false with
      | some _ => (none,site.endOIDCSession id)
      | none => (account,site)

def interactionFinished (uid : Nat) (literal : Literal) (impersonation : Bool) : LoginSite :=
  match literal with
  | .login accountId =>
      {site with finished := fun other =>
        if other = uid then some ⟨accountId,impersonation⟩ else site.finished other}
  | _ => site

def resume (cookie : Option String) (uid : Nat) (id : String) : LoginSite :=
  match site.finished uid with
  | none => site
  | some login => match site.currentSession cookie with
      | some (old,_,accountId) =>
          if accountId = login.accountId then
            (site.setSession old none).setSession id (some ⟨some login.accountId,login.impersonation⟩)
          else site.setSession old none
      | none => site.setSession id (some ⟨some login.accountId,login.impersonation⟩)

def createImpersonation (jti actor accountId : String) : LoginSite :=
  match site.findAccount accountId with
  | none => site
  | some account =>
      if AccountType.canImpersonateAccount (some account) then
        site.setImpersonation jti (some ⟨actor,accountId,false⟩)
      else site

def activateImpersonation (jti : String) : LoginSite :=
  match site.impersonations jti with
  | none => site
  | some record => if record.activated then site
      else site.setImpersonation jti (some {record with activated := true})

def impersonate (uid : Nat) (result : Option Submission) (cookie : String) : LoginSite :=
  match site.impersonations cookie with
  | none => site
  | some record => site.interactionFinished uid
      (AccountType.getLoginResult result (site.findAccount record.accountId) true) true

def route (cookie : Option String) : SiteRoute → LoginSite
  | .page => site
  | .login uid result accountId => site.interactionFinished uid
      (AccountType.getLoginResult result (accountId.bind site.findAccount) false) false
  | .impersonate uid result jti => site.impersonate uid result jti
  | .resume uid id => site.resume cookie uid id
  | .createImpersonation jti actor accountId => site.createImpersonation jti actor accountId
  | .activateImpersonation jti => site.activateImpersonation jti

def step : SiteEvent → LoginSite
  | .request cookie route => (site.currentAccount cookie).2.route cookie route
  | .edit accountId spec => {site with accounts := fun other =>
      if other = accountId then spec else site.accounts other}
  | .expireSession id => site.setSession id none
  | .expireImpersonation jti => site.setImpersonation jti none

def MayServe (session : BrowserSession) (accountId : String) : Prop :=
  ∃ spec, site.accounts accountId = some spec ∧ AccountType.Admits session.impersonation spec.type

def Gates (cookie : Option String) : Prop :=
  ∀ id session accountId, site.currentSession cookie = some (id,session,accountId) →
    ((site.currentAccount cookie).1.map (·.accountId) = some accountId ↔ site.MayServe session accountId) ∧
    (site.MayServe session accountId → (site.currentAccount cookie).2.sessions id = some session) ∧
    (¬ site.MayServe session accountId →
      (site.currentAccount cookie).1 = none ∧ (site.currentAccount cookie).2.sessions id = none)

def ServiceImpersonated (cookie : Option String) : Prop :=
  ∃ id session accountId spec, site.currentSession cookie = some (id,session,accountId) ∧
    session.impersonation = true ∧ site.accounts accountId = some spec ∧ spec.type = some "service"

def EachRequest (P : LoginSite → Option String → Prop) : List SiteEvent → LoginSite → Prop
  | [],_ => True
  | event :: rest,site =>
      (∀ cookie route, event = .request cookie route → P site cookie) ∧ EachRequest P rest (site.step event)

section Gating
variable {site : LoginSite} {cookie : Option String} {id accountId : String} {session : BrowserSession}

theorem currentStored (live : site.currentSession cookie = some (id,session,accountId)) :
    site.sessions id = some session := by
  simp only [currentSession,Option.bind_eq_bind,Option.bind_eq_some_iff] at live
  obtain ⟨_,_,_,stored,_,_,same⟩ := live
  cases same
  exact stored

theorem servedOrdinary (live : site.currentSession cookie = some (id,session,accountId)) {spec : AdminSpec}
    (stored : site.accounts accountId = some spec) (admitted : AccountType.Admits false spec.type) :
    site.currentAccount cookie = (some {accountId := accountId, spec := spec},site) := by
  have noFailure := (AccountType.noFailure {accountId := accountId, spec := spec} false).mpr admitted
  simp [currentAccount,live,findAccount,stored,noFailure]

theorem terminatedOtherwise (live : site.currentSession cookie = some (id,session,accountId))
    (denied : ¬ ∃ spec, site.accounts accountId = some spec ∧ AccountType.Admits false spec.type) :
    site.currentAccount cookie = (none,site.endOIDCSession id) := by
  cases stored : site.accounts accountId with
  | none => simp [currentAccount,live,findAccount,stored,AccountType.getAccountTypeAccessFailure]
  | some spec =>
      have failure : AccountType.getAccountTypeAccessFailure (some {accountId := accountId, spec := spec}) false ≠ none := by
        intro allowed
        exact denied ⟨spec,stored,(AccountType.noFailure _ false).mp allowed⟩
      obtain ⟨text,failure⟩ := Option.ne_none_iff_exists'.mp failure
      simp [currentAccount,live,findAccount,stored,failure]

theorem admitsApart {impersonation : Bool} {type : Option String} (admitted : AccountType.Admits impersonation type) :
    AccountType.Admits false type ∨ (impersonation = true ∧ type = some "service") := by
  rcases admitted with unset | person | service
  · exact .inl (.inl unset)
  · exact .inl (.inr (.inl person))
  · exact .inr service

theorem gatesUnlessService : site.Gates cookie ↔ ¬ site.ServiceImpersonated cookie := by
  constructor
  · intro gates ⟨id,session,accountId,spec,live,impersonated,stored,service⟩
    have may : site.MayServe session accountId := ⟨spec,stored,.inr (.inr ⟨impersonated,service⟩)⟩
    have kept := (gates id session accountId live).2.1 may
    have denied : ¬ ∃ spec, site.accounts accountId = some spec ∧ AccountType.Admits false spec.type := by
      intro ⟨other,same,admitted⟩
      cases stored.symm.trans same
      simp [AccountType.Admits,service] at admitted
    rw [terminatedOtherwise live denied] at kept
    simp [endOIDCSession,setSession] at kept
  · intro ordinary id session accountId live
    by_cases admitted : ∃ spec, site.accounts accountId = some spec ∧ AccountType.Admits false spec.type
    · obtain ⟨spec,stored,admitted⟩ := admitted
      have may : site.MayServe session accountId := by
        refine ⟨spec,stored,?_⟩
        rcases admitted with unset | person | ⟨never,_⟩
        · exact .inl unset
        · exact .inr (.inl person)
        · cases never
      rw [servedOrdinary live stored admitted]
      exact ⟨by simp [may],fun _ => currentStored live,fun never => absurd may never⟩
    · have denied : ¬ site.MayServe session accountId := by
        intro ⟨spec,stored,may⟩
        rcases admitsApart may with ordinaryLogin | ⟨impersonated,service⟩
        · exact admitted ⟨spec,stored,ordinaryLogin⟩
        · exact ordinary ⟨id,session,accountId,spec,live,impersonated,stored,service⟩
      rw [terminatedOtherwise live admitted]
      exact ⟨by simp [denied],fun may => absurd may denied,fun _ => ⟨rfl,by simp [endOIDCSession,setSession]⟩⟩

theorem eachRequest {P Q : LoginSite → Option String → Prop} (same : ∀ site cookie, P site cookie ↔ Q site cookie)
    (run : List SiteEvent) (site : LoginSite) : EachRequest P run site ↔ EachRequest Q run site := by
  induction run generalizing site with
  | nil => exact Iff.rfl
  | cons event rest ih => simp only [EachRequest,same,ih]

end Gating

/- Logins complete by the account-type table, those of the login services among them, and in every run each request is gated
by it exactly when none comes with a session impersonating what is now a service account. -/
theorem accountTypeGating (run : List SiteEvent) (site : LoginSite) :
    (∀ (result : Option Submission) (account : Option OidcUser) (impersonation : Bool),
      (∃ accountId, AccountType.getLoginResult result account impersonation = .login accountId) ↔
        ∃ user, account = some user ∧ AccountType.Admits impersonation user.spec.type) ∧
    (EachRequest Gates run site ↔ EachRequest (fun site cookie => ¬ site.ServiceImpersonated cookie) run site) ∧
    ∀ (uid : Nat) (account : Option OidcUser), getLoginResult uid account =
      (do let details ← interactionDetails uid
          .pure (AccountType.getLoginResult details.result account false)) :=
  ⟨AccountType.loginCompletes,eachRequest (fun _ _ => gatesUnlessService) run site,AccountType.ordinaryLoginResult⟩

/- An administrator impersonates a service account and is signed out by the next page. -/
theorem serviceTerminated : ¬ ∀ (run : List SiteEvent) (site : LoginSite), EachRequest Gates run site := by
  intro always
  have gates := always
    [.edit "backup" (some {type := some "service"}),
     .request none (.createImpersonation "link" "admin" "backup"),
     .request none (.activateImpersonation "link"),
     .request none (.impersonate 0 none "link"),
     .request none (.resume 0 "session"),
     .request (some "session") .page] {}
  have last := gates.2.2.2.2.2.1 (some "session") .page rfl "session" ⟨some "backup",true⟩ "backup" rfl
  have may : AccountType.Admits true (some "service") := .inr (.inr ⟨rfl,rfl⟩)
  have kept := last.2.1 ⟨{type := some "service"},rfl,may⟩
  cases kept

end LoginSite
end Passmower
