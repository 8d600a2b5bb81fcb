import Passmower.Endpoints

/-! Which calls an endpoint can come to at all, whatever it is answered: all but the username form
create accounts while enrolment is on only, and only the last phase of an OIDC login says so. -/
namespace Passmower
open JavaScript Resumption Program

def Happening.identifies : Happening → Bool
  | .identify _ _ => true
  | _ => false

def Ordinary (env : Env) : Call → Prop
  | .record _ what => what.identifies = false
  | .createUser _ _ _ => env.enrollUsers = true
  | _ => True

section Programs
variable {env : Env} {uid : Nat} {α β : Type}

abbrev OrdinaryCalls (env : Env) (p : Web α) : Prop := CallsOnly (I := web) (Ordinary env) p

theorem readOrdinary {p : Web α} (reads : ReadOnly p) : OrdinaryCalls env p :=
  callsOnlyMono reads fun c reads => by cases c <;> trivial

theorem detailsOrdinary {f : Interaction → Web β} (rest : ∀ i, OrdinaryCalls env (f i)) :
    OrdinaryCalls env (interactionDetails uid >>= f) := by
  refine callsOnlyBind (callsOnlyAsk trivial fun found => ?_) rest
  cases found <;> trivial

theorem resultOrdinary (literal : Literal) (merge : Bool) : OrdinaryCalls env (interactionResult uid literal merge) :=
  ⟨trivial,fun _ => trivial⟩

theorem mutateOrdinary (accountId : String) (mutation : StatusMutation) :
    OrdinaryCalls env (mutateUserStatus accountId mutation) := ⟨trivial,fun _ => trivial⟩

theorem specsOrdinary (accountId : String) (merge : Specs → Specs) :
    OrdinaryCalls env (updateUserSpecs accountId merge) := by
  refine callsOnlyBind (readOrdinary (findUserReadOnly accountId)) fun account => ?_
  cases account with
  | none => trivial
  | some account =>
      refine callsOnlyAsk trivial fun updated => ?_
      cases updated with
      | none => trivial
      | some updated => exact mutateOrdinary _ _

theorem usernameRequestOrdinary (email : Option String) (githubEmails : Option (List EmailItem))
    (preferredUsername : Option String) (identity : StableIdentity) :
    OrdinaryCalls env (requireCustomUsername uid email githubEmails preferredUsername identity) :=
  detailsOrdinary fun _ => callsOnlyBind (resultOrdinary _ _) fun _ => trivial

theorem slackOrdinary (user : OidcUser) : OrdinaryCalls env (updateSlack user) :=
  callsOnlyBind (readOrdinary (getSlackIdReadOnly user)) fun _ => specsOrdinary _ _

theorem enrolOrdinary (on : env.enrollUsers = true) (username : String) (email : Option String)
    (githubEmails : Option (List EmailItem)) (identity : StableIdentity) :
    OrdinaryCalls env (enrol uid username email githubEmails identity) := by
  refine callsOnlyBind (callsOnlyAsk on fun created => ?_) fun user => ?_
  · cases created with
    | none => trivial
    | some user => exact mutateOrdinary _ _
  · cases user with
    | none => trivial
    | some user => exact slackOrdinary user

theorem enrolUnknownOrdinary (email : Option String) (githubEmails : Option (List EmailItem))
    (preferredUsername : Option String) (identity : StableIdentity) :
    OrdinaryCalls env (enrolUnknown env uid email githubEmails none preferredUsername identity) := by
  unfold enrolUnknown
  simp only [truthy,Option.filter]
  split
  · trivial
  · rename_i open_
    have on : env.enrollUsers = true := by simpa using open_
    have prompt : ∀ name, OrdinaryCalls env (requireCustomUsername uid email githubEmails name identity) :=
      fun name => usernameRequestOrdinary _ _ name _
    split
    · exact prompt _
    · split
      · exact prompt _
      · split
        · refine callsOnlyBind (readOrdinary (isUsernameAvailableReadOnly _)) fun available => ?_
          split
          · exact enrolOrdinary on _ _ _ _
          · exact prompt _
        · exact prompt _
    · exact callsOnlyBind (readOrdinary getUidReadOnly) fun _ => enrolOrdinary on _ _ _ _

theorem stableReadOnly (identity : StableIdentity) (users : Option (List OidcUser)) :
    ReadOnly (findByStableIdentity env identity users) := by
  unfold findByStableIdentity
  split
  · exact callsOnlyBind (allUsersReadOnly users) fun _ => liftReadOnly _
  · exact callsOnlyBind (allUsersReadOnly users) fun _ => liftReadOnly _
  · trivial

theorem resolveOrdinary (emails linkable : List (Option String)) (identity : StableIdentity) :
    OrdinaryCalls env (resolveUser env uid emails linkable identity) := by
  refine callsOnlyBind (readOrdinary listUsersReadOnly) fun users => ?_
  refine callsOnlyBind (readOrdinary (stableReadOnly identity users)) fun user => ?_
  refine callsOnlyBind (readOrdinary (allUsersReadOnly users)) fun listed => ?_
  refine callsOnlyBind (readOrdinary (liftReadOnly _)) fun emailUser => ?_
  split
  · split <;> trivial
  · trivial
  · split
    · trivial
    · exact callsOnlyBind (resultOrdinary _ _) fun _ => trivial
  · trivial

theorem createOrUpdateOrdinary (email : Option String) (githubEmails : Option (List EmailItem))
    (preferredUsername : Option String) (identity : StableIdentity) :
    OrdinaryCalls env (createOrUpdateByEmails env uid email githubEmails none preferredUsername identity) := by
  refine callsOnlyBind (callsOnlyTryCatch (resolveOrdinary _ _ _) fun error => ?_) fun resolved => ?_
  · cases error <;> trivial
  · match resolved with
    | none => trivial
    | some (some user) => exact callsOnlyAsk rfl fun _ => slackOrdinary user
    | some none => exact enrolUnknownOrdinary _ _ _ _

theorem finishOrdinary (account : Option OidcUser) (merge : Bool) :
    OrdinaryCalls env (getLoginResult uid account >>= fun result => interactionResult uid result merge) := by
  refine callsOnlyBind (detailsOrdinary fun details => ?_) fun result => resultOrdinary result merge
  cases account with
  | none =>
      simp only
      split
      · trivial
      · split <;> trivial
  | some account =>
      simp only
      split <;> trivial

theorem completeLoginOrdinary (email verifiedAt : Option String) :
    OrdinaryCalls env (EmailLogin.completeLogin env uid email verifiedAt) := by
  refine callsOnlyAsk rfl fun _ => callsOnlyBind (createOrUpdateOrdinary _ _ _ _) fun found => ?_
  refine callsOnlyBind ?_ fun account => finishOrdinary account true
  cases found with
  | none => trivial
  | some user => exact callsOnlyBind (callsOnlyBind (mutateOrdinary _ _) fun _ => trivial) fun _ => trivial

theorem verifyLinkOrdinary (token : String) (cookie : Option Nat) :
    OrdinaryCalls env (EmailLogin.verifyLink env uid token cookie) := by
  refine callsOnlyAsk trivial fun interaction => ?_
  split
  · trivial
  · refine callsOnlyBind (readOrdinary nowReadOnly) fun verifiedAt => callsOnlyAsk rfl fun _ => callsOnlyAsk trivial fun _ => ?_
    split
    · exact completeLoginOrdinary _ _
    · trivial

theorem sendLinkOrdinary (address : String) : OrdinaryCalls env (EmailLogin.sendLink env uid address) := by
  refine detailsOrdinary fun _ => callsOnlyBind (readOrdinary (callsOnlyAttempt (findByEmailReadOnly _ _))) fun found => ?_
  split
  · exact resultOrdinary _ _
  · trivial
  · split
    · exact resultOrdinary _ _
    · refine callsOnlyBind (readOrdinary randomTextReadOnly) fun token => callsOnlyAsk trivial fun _ => ?_
      refine callsOnlyAsk trivial fun sent => callsOnlyBind (readOrdinary (sendSlackReadOnly _)) fun slack => ?_
      split <;> trivial

theorem githubLinkOrdinary : OrdinaryCalls env (GithubLogin.link env uid) := by
  refine callsOnlyBind ?_ fun emails => ?_
  · exact callsOnlyBind (readOrdinary nowReadOnly) fun _ => callsOnlyAsk trivial fun _ => trivial
  cases emails with
  | none => exact resultOrdinary _ _
  | some emails =>
      refine callsOnlyAsk trivial fun user => ?_
      cases user with
      | none => exact resultOrdinary _ _
      | some user =>
          refine callsOnlyAsk rfl fun _ => callsOnlyBind (createOrUpdateOrdinary _ _ _ _) fun account => ?_
          refine callsOnlyBind ?_ fun _ => finishOrdinary account false
          cases account with
          | none => trivial
          | some account =>
              refine callsOnlyBind (readOrdinary (githubGroupsReadOnly env)) fun groups => ?_
              exact callsOnlyBind (specsOrdinary _ _) fun _ => trivial

theorem githubLoginOrdinary (callback : Option Callback) : OrdinaryCalls env (githubLogin env uid callback) := by
  refine detailsOrdinary fun details => ?_
  split
  · exact githubLinkOrdinary
  · exact callsOnlyBind (readOrdinary randomTextReadOnly) fun _ => resultOrdinary _ _
  · refine callsOnlyBind ?_ fun token => ?_
    · unfold GithubLogin.receive
      split
      · exact callsOnlyBind (resultOrdinary _ _) fun _ => trivial
      · refine callsOnlyAsk trivial fun text => ?_
        cases text with
        | none => trivial
        | some text =>
            simp only
            split <;> exact callsOnlyBind (resultOrdinary _ _) fun _ => trivial
    · split
      · trivial
      · exact githubLinkOrdinary

theorem refuseEmailOrdinary (config : ProviderConfig) (profile : Object) :
    OrdinaryCalls env (OidcLogin.refuseEmail env uid config profile) := by
  unfold OidcLogin.refuseEmail
  split
  · trivial
  · exact callsOnlyBind (resultOrdinary _ _) fun _ => trivial
  · refine callsOnlyBind (readOrdinary (shouldOverrideReadOnly _ _ _ _)) fun overridden => ?_
    split
    · trivial
    · exact callsOnlyBind (resultOrdinary _ _) fun _ => trivial

theorem oidcReceiveOrdinary (config : ProviderConfig) (details : Interaction) (callback : Callback) :
    OrdinaryCalls env (OidcLogin.receive env uid config details callback) := by
  unfold OidcLogin.receive
  split
  · exact callsOnlyBind (resultOrdinary _ _) fun _ => trivial
  · refine callsOnlyAsk trivial fun claims => ?_
    cases claims with
    | none => exact callsOnlyBind (resultOrdinary _ _) fun _ => trivial
    | some claims =>
        refine callsOnlyAsk trivial fun userinfo => callsOnlyBind (refuseEmailOrdinary _ _) fun refused => ?_
        split
        · trivial
        · exact callsOnlyBind (readOrdinary nowReadOnly) fun _ => callsOnlyBind (resultOrdinary _ _) fun _ => trivial

theorem oidcStartOrdinary (config : ProviderConfig) : OrdinaryCalls env (OidcLogin.start uid config) := by
  have random : OrdinaryCalls env randomText := readOrdinary randomTextReadOnly
  exact callsOnlyBind random fun _ => callsOnlyBind random fun _ => callsOnlyBind random fun _ => resultOrdinary _ _

theorem oidcLinkOrdinary (config : ProviderConfig) (identity : OidcIdentity) :
    OrdinaryCalls env (do
      let account ← createOrUpdateByEmails env uid identity.primaryEmail (some identity.emails) none
        identity.preferredUsername {providerKey := some config.key, subject := some identity.sub}
      OidcLogin.persist config.key identity account
      let result ← getLoginResult uid account
      interactionResult uid result false) := by
  refine callsOnlyBind (createOrUpdateOrdinary _ _ _ _) fun account => callsOnlyBind ?_ fun _ => finishOrdinary account false
  cases account with
  | none => trivial
  | some account => exact callsOnlyBind (specsOrdinary _ _) fun _ => callsOnlyAsk trivial fun _ => trivial

end Programs

def Uncreating (env : Env) : Call → Prop
  | .createUser _ _ _ => env.enrollUsers = true
  | _ => True

theorem ordinaryUncreating {env : Env} {α : Type} {p : Web α} (ordinary : OrdinaryCalls env p) :
    CallsOnly (I := web) (Uncreating env) p :=
  callsOnlyMono ordinary fun c holds => by cases c <;> trivial

def Request.isForm : Request → Bool
  | .enterUsername _ _ => true
  | _ => false

theorem oidcLoginUncreating {env : Env} {uid : Nat} (config : ProviderConfig) (callback : Option Callback) :
    CallsOnly (I := web) (Uncreating env) (oidcLogin env uid config callback) := by
  have links : ∀ identity, CallsOnly (I := web) (Uncreating env) (OidcLogin.link env uid config identity) :=
    fun identity => callsOnlyAsk trivial fun _ => ordinaryUncreating (oidcLinkOrdinary config identity)
  refine callsOnlyBind (callsOnlyAsk trivial fun found => by cases found <;> trivial) fun details => ?_
  split
  · exact links _
  · exact ordinaryUncreating (oidcStartOrdinary config)
  · refine callsOnlyBind (ordinaryUncreating (oidcReceiveOrdinary config _ _)) fun identity => ?_
    split
    · trivial
    · exact links _

theorem emailOrdinary {env : Env} (uid : Nat) (address : String) :
    OrdinaryCalls env (OidcRoutes.email env uid address) := by
  unfold OidcRoutes.email
  split
  · trivial
  · split
    · trivial
    · exact sendLinkOrdinary address

theorem emailCompleteOrdinary {env : Env} (uid : Nat) : OrdinaryCalls env (OidcRoutes.emailComplete env uid) := by
  refine detailsOrdinary fun details => ?_
  split
  · trivial
  · exact completeLoginOrdinary _ _

theorem abortOrdinary {env : Env} (uid : Nat) : OrdinaryCalls env (OidcRoutes.abort uid) :=
  detailsOrdinary fun _ => resultOrdinary _ _

theorem requestUncreating {env : Env} (request : Request) (other : request.isForm = false) :
    CallsOnly (I := web) (Uncreating env) (request.program env) := by
  cases request with
  | enterUsername uid username => cases other
  | verifyEmail uid token cookie => exact ordinaryUncreating (verifyLinkOrdinary token cookie)
  | abort uid => exact ordinaryUncreating (abortOrdinary uid)
  | email uid address => exact ordinaryUncreating (emailOrdinary uid address)
  | emailComplete uid => exact ordinaryUncreating (emailCompleteOrdinary uid)
  | federated uid upstream callback =>
      refine callsOnlyBind (callsOnlyAsk trivial fun found => by cases found <;> trivial) fun details => ?_
      split
      · trivial
      · split
        · split
          · trivial
          · exact ordinaryUncreating (githubLoginOrdinary callback)
        · split
          · trivial
          · exact oidcLoginUncreating _ callback

end Passmower
