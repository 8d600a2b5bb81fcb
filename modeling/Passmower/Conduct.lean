import Passmower.OidcRoutes

/-! What the endpoints do, call by call. `Lawful` lists every call an endpoint issues with
the provenance of its arguments in the state it is issued in; `requestConducted` derives it
from the programs once, and every law over runs is an induction over lawful calls. -/
namespace Passmower
open JavaScript Resumption Program

def Within (w : World) (uid chain : Nat) (carried : Submission) : Prop :=
  ∃ i, w.interaction uid = some i ∧ i.chain = chain ∧ i.carried = carried

structure Later (w w' : World) : Prop where
  env : w'.env = w.env
  administered : w'.administered = w.administered
  journal : w.journal <+: w'.journal
  within : ∀ uid chain carried, Within w uid chain carried → Within w' uid chain carried

theorem laterRefl (w : World) : Later w w := ⟨rfl,rfl,List.prefix_rfl,fun _ _ _ h => h⟩

theorem laterTrans {a b c : World} (first : Later a b) (second : Later b c) : Later a c :=
  ⟨second.env.trans first.env,second.administered.trans first.administered,first.journal.trans second.journal,
   fun u n s h => second.within u n s (first.within u n s h)⟩

theorem laterHappened {w w' : World} {chain what} (later : Later w w')
    (happened : w.happened chain what) : w'.happened chain what := by
  obtain ⟨uid,inside⟩ := happened
  exact ⟨uid,later.journal.subset inside⟩

theorem interactionUpdate (w : World) (uid uid' : Nat) (f : Interaction → Interaction) :
    (w.updateInteraction uid f).interaction uid' =
      if uid = uid' then (w.interaction uid').map f else w.interaction uid' := by
  simp only [World.updateInteraction,World.interaction,List.getElem?_modify]
  split <;> simp_all

theorem logLater (w : World) (uid : Nat) (what : Happening) : Later w (w.log uid what) := by
  unfold World.log
  split
  · exact ⟨rfl,rfl,List.prefix_append _ _,fun _ _ _ h => h⟩
  · exact laterRefl w

theorem updateInteractionLater (w : World) (uid : Nat) {f : Interaction → Interaction}
    (chain : ∀ i, (f i).chain = i.chain) (carried : ∀ i, (f i).carried = i.carried) :
    Later w (w.updateInteraction uid f) := by
  refine ⟨rfl,rfl,List.prefix_rfl,?_⟩
  rintro uid' n s ⟨i,found,sameChain,sameCarried⟩
  unfold Within
  rw [interactionUpdate,found]
  by_cases here : uid = uid'
  · exact ⟨f i,by simp [here],(chain i).trans sameChain,(carried i).trans sameCarried⟩
  · exact ⟨i,by simp [here],sameChain,sameCarried⟩

theorem serveLater (choice : Choice) (c : web.Call) (w : World) : Later w (serve choice c w).2 := by
  have users : ∀ (us : List OidcUser), Later w {w with users := us} :=
    fun us => ⟨rfl,rfl,List.prefix_rfl,fun _ _ _ h => h⟩
  cases c with
  | interactionResult uid literal merge =>
      have stored := updateInteractionLater w uid
        (f := fun i => i.store w.env.mergeErrorResults literal merge) (fun i => rfl) (fun i => rfl)
      simp only [serve]
      split
      · exact laterTrans stored (logLater _ _ _)
      · exact stored
  | saveInteraction uid result => exact updateInteractionLater w uid (fun i => rfl) (fun i => rfl)
  | createUser uid accountId body =>
      simp only [serve]
      split
      · exact laterRefl w
      · exact laterTrans (users _) (logLater _ _ _)
  | patchUser accountId values existing =>
      simp only [serve]
      split
      · exact laterRefl w
      · exact users _
  | mutateUserStatus accountId mutation =>
      simp only [serve]
      split
      · exact laterRefl w
      · exact users _
  | authorizationCodeGrant uid config =>
      simp only [serve]
      split
      · exact laterRefl w
      · exact logLater _ _ _
  | fetchUserInfo uid config =>
      simp only [serve]
      split
      · exact laterRefl w
      · exact logLater _ _ _
  | getOAuthAccessToken uid =>
      simp only [serve]
      split
      · exact laterRefl w
      · exact logLater _ _ _
  | sendMail uid token address => exact logLater _ _ _
  | record uid what => exact logLater _ _ _
  | _ => exact laterRefl w

inductive Attempt (w : World) (chain : Nat) :
    Option String → Option (List EmailItem) → StableIdentity → Prop
  | magicLink (email : Option String) (begun : w.happened chain (.completeLogin email)) :
      Attempt w chain email none {}
  | github (user : GithubUser) (emails : List EmailItem)
      (begun : w.happened chain (.githubLogin user emails)) :
      Attempt w chain none (some (normalizeEmails w.env emails)) {githubId := user.id}
  | oidc (key : String) (identity : OidcIdentity) (begun : w.happened chain (.identify key identity)) :
      Attempt w chain identity.primaryEmail (some (normalizeEmails w.env identity.emails))
        {providerKey := some key, subject := some identity.sub}

def Admitted (w : World) (chain : Nat) (email : Option String) (identity : StableIdentity)
    (accountId : String) : Prop :=
  w.happened chain (.entered accountId (bareEmail email identity)) ∨
    w.happened chain (.created accountId email)

def Resolved (w : World) (chain : Nat) (accountId : String) : Prop :=
  ∃ email, w.happened chain (.entered accountId email) ∨ w.happened chain (.created accountId email)

theorem laterAttempt {w w' : World} {chain email githubEmails identity} (later : Later w w')
    (attempt : Attempt w chain email githubEmails identity) :
    Attempt w' chain email githubEmails identity := by
  cases attempt with
  | magicLink email begun => exact .magicLink email (laterHappened later begun)
  | github user emails begun => rw [← later.env]; exact .github user emails (laterHappened later begun)
  | oidc key identity begun => rw [← later.env]; exact .oidc key identity (laterHappened later begun)

theorem laterResolved {w w' : World} {chain accountId} (later : Later w w')
    (resolved : Resolved w chain accountId) : Resolved w' chain accountId :=
  resolved.imp fun _ => Or.imp (laterHappened later) (laterHappened later)

theorem laterAdmitted {w w' : World} {chain email identity accountId} (later : Later w w')
    (admitted : Admitted w chain email identity accountId) :
    Admitted w' chain email identity accountId :=
  admitted.imp (laterHappened later) (laterHappened later)

theorem admittedResolved {w : World} {chain email identity accountId}
    (admitted : Admitted w chain email identity accountId) : Resolved w chain accountId :=
  admitted.elim (fun entered => ⟨_,.inl entered⟩) (fun created => ⟨_,.inr created⟩)

structure Asserted (env : Env) (log : List Event) (chain : Nat) (config : ProviderConfig)
    (profile : Object) : Prop where
  responses : ∃ claims userinfo, profile = mergeOidcProfile env claims userinfo ∧
    (∃ uid, ⟨chain,uid,.granted config claims⟩ ∈ log) ∧
    (userinfo = [] ∨ ∃ uid, ⟨chain,uid,.userInfo config userinfo⟩ ∈ log)

theorem assertedAppend {env env' : Env} {log log' : List Event} {chain config profile}
    (merges : mergeOidcProfile env' = mergeOidcProfile env) (onward : log <+: log')
    (asserted : Asserted env log chain config profile) : Asserted env' log' chain config profile := by
  obtain ⟨claims,userinfo,rfl,⟨uid,granted⟩,answered⟩ := asserted
  refine ⟨claims,userinfo,by rw [merges],⟨uid,onward.subset granted⟩,?_⟩
  exact answered.imp id fun ⟨uid',heard⟩ => ⟨uid',onward.subset heard⟩

inductive Writes (w : World) (i : Interaction) : Literal → Bool → Prop
  | link (email token : String) : Writes w i (.link email token) true
  | refuse (kind : String) (description : Option String) (merge : Bool) :
      Writes w i (.error kind description) merge
  | state (text : String) : Writes w i (.state text) true
  | oauth (token : String) (exchanged : w.happened i.chain (.githubToken token)) :
      Writes w i (.oauth token) true
  | oidcFlow (flow : OidcFlow) : Writes w i (.oidcFlow flow) true
  | oidc (config : ProviderConfig) (profile : Object) (observedAt : String)
      (asserted : Asserted w.env w.journal i.chain config profile) :
      Writes w i (.oidc config.key (extractIdentity config profile observedAt)) true
  | usernameRequest (email : Option String) (githubEmails : Option (List EmailItem))
      (preferredUsername : Option String) (identity : StableIdentity)
      (attempt : Attempt w i.chain email githubEmails identity) (enrols : w.env.enrollUsers = true) :
      Writes w i (.usernameRequest i.result email githubEmails preferredUsername identity) true
  | result (own : Submission) (merge : Bool) (stored : i.result = some own)
      (requested : own.requireCustomUsername = true) (accepted : own.error = none) :
      Writes w i (.result own) merge
  | login (accountId : String) (merge : Bool) (resolved : Resolved w i.chain accountId) :
      Writes w i (.login accountId) merge

inductive Records (w : World) (uid : Nat) (i : Interaction) : Happening → Prop
  | presented (own : Submission) (token : String) (stored : i.result = some own)
      (matched : own.token = some token) : Records w uid i (.presented token)
  | completeLogin (own : Submission) (stored : i.result = some own)
      (verified : own.emailVerified = true) : Records w uid i (.completeLogin own.email)
  | githubLogin (user : GithubUser) (emails : List EmailItem)
      (authorized : i.carried.oauth.isSome ∨ ∃ token, w.happened i.chain (.githubToken token))
      (verified : ∀ item ∈ emails, item.verified = some true) :
      Records w uid i (.githubLogin user emails)
  | identify (key : String) (identity : OidcIdentity)
      (stashed : (∃ provider, i.carried.oidc = some (provider,identity)) ∨
        ∃ own, i.result = some own ∧ own.oidc = some (key,identity)) :
      Records w uid i (.identify key identity)
  | enterUsername (username : String) : Records w uid i (.enterUsername username)
  | entered (email : Option String) (githubEmails : Option (List EmailItem)) (identity : StableIdentity)
      (user : OidcUser) (attempt : Attempt w i.chain email githubEmails identity)
      (listed : user ∈ w.users) (linked : identity = {} →
        (linkableEmails w.env email (githubEmails.getD []) identity).any (user.isEmailLinkable w.env) = true) :
      Records w uid i (.entered user.accountId (bareEmail email identity))

inductive Enrols (w : World) (uid : Nat) (i : Interaction) (accountId : String) : NewUser → Prop
  | login (email : Option String) (githubEmails : Option (List EmailItem)) (identity : StableIdentity)
      (attempt : Attempt w i.chain email githubEmails identity) (enrols : w.env.enrollUsers = true) :
      Enrols w uid i accountId ⟨email,githubEmails,identity.githubId,identity.entries⟩
  | form (entered : ⟨i.chain,uid,.enterUsername accountId⟩ ∈ w.journal) :
      Enrols w uid i accountId ⟨i.carried.email,i.carried.githubEmails,
        (i.carried.stableIdentity.getD {}).githubId,(i.carried.stableIdentity.getD {}).entries⟩

inductive Merges (w : World) (chain : Nat) : (Specs → Specs) → Prop
  | slackId (slackId : Option String) : Merges w chain (mergeSlackId slackId)
  | identity (key : String) (identity : OidcIdentity) (begun : w.happened chain (.identify key identity)) :
      Merges w chain (mergeIdentity key identity)
  | github (user : GithubUser) (groups : List Group) (emails : List EmailItem)
      (begun : w.happened chain (.githubLogin user emails)) :
      Merges w chain (mergeGithub user groups emails)

inductive Mutates (w : World) (uid chain : Nat) (carried : Submission) (accountId : String) :
    StatusMutation → Prop
  | none : Mutates w uid chain carried accountId .none
  | linkVerified (email verifiedAt : Option String) (begun : w.happened chain (.completeLogin email))
      (admitted : Admitted w chain email {} accountId) :
      Mutates w uid chain carried accountId (.verifyEmail email verifiedAt)
  | submitted (verified : carried.emailVerified = true)
      (entered : ⟨chain,uid,.enterUsername accountId⟩ ∈ w.journal)
      (created : w.happened chain (.created accountId carried.email)) :
      Mutates w uid chain carried accountId (.verifyEmail carried.email carried.emailVerifiedAt)
  | usernameCommitted : Mutates w uid chain carried accountId (.addCondition usernameCommitted)

def Call.isRead : Call → Bool
  | .interactionDetails _ | .findInteraction _ | .randomText | .now | .sendSlackMessage _
  | .getGitHubEmails | .getGitHubUser | .getOrganizationTeams | .getSlackUserId
  | .linkAccount | .listUsers | .getUser _ => true
  | _ => false

inductive Lawful (w : World) : Call → Prop
  | read (c : Call) (reads : c.isRead = true) : Lawful w c
  | authorizationCodeGrant (uid : Nat) (config : ProviderConfig) :
      Lawful w (.authorizationCodeGrant uid config)
  | fetchUserInfo (uid : Nat) (config : ProviderConfig) : Lawful w (.fetchUserInfo uid config)
  | getOAuthAccessToken (uid : Nat) : Lawful w (.getOAuthAccessToken uid)
  | sendMail (uid : Nat) (i : Interaction) (own : Submission) (token address : String)
      (found : w.interaction uid = some i) (stored : i.result = some own)
      (kept : own.token = some token ∧ own.email = some address) :
      Lawful w (.sendMail uid token address)
  | saveInteraction (uid : Nat) (i : Interaction) (own : Submission) (token verifiedAt : String)
      (found : w.interaction uid = some i) (stored : i.result = some own)
      (matched : own.token = some token)
      (last : w.journal.getLast? = some ⟨i.chain,uid,.presented token⟩) :
      Lawful w (.saveInteraction uid (EmailLogin.verified own verifiedAt))
  | interactionResult (uid : Nat) (i : Interaction) (literal : Literal) (merge : Bool)
      (found : w.interaction uid = some i) (writes : Writes w i literal merge) :
      Lawful w (.interactionResult uid literal merge)
  | record (uid : Nat) (i : Interaction) (what : Happening) (found : w.interaction uid = some i)
      (records : Records w uid i what) : Lawful w (.record uid what)
  | createUser (uid : Nat) (i : Interaction) (accountId : String) (body : NewUser)
      (found : w.interaction uid = some i) (enrols : Enrols w uid i accountId body) :
      Lawful w (.createUser uid accountId body)
  | patchUser (chain : Nat) (user : OidcUser) (merge : Specs → Specs) (merges : Merges w chain merge)
      (resolved : Resolved w chain user.accountId) (found : w.user user.accountId = some user) :
      Lawful w (.patchUser user.accountId (merge user.toSpecs) user.toSpecs)
  | mutateUserStatus (uid chain : Nat) (carried : Submission) (accountId : String)
      (mutation : StatusMutation) (within : Within w uid chain carried)
      (resolved : Resolved w chain accountId) (mutates : Mutates w uid chain carried accountId mutation) :
      Lawful w (.mutateUserStatus accountId mutation)

theorem serveRead {choice : Choice} {c : web.Call} {w : World} (reads : Call.isRead c = true) :
    (serve choice c w).2 = w := by
  cases c <;> first | rfl | cases reads

def Call.links : Call → Bool
  | .interactionResult _ (.link _ _) _ => true
  | _ => false

theorem readLinks {c : Call} (reads : c.isRead = true) : c.links = false := by
  cases c <;> first | rfl | cases reads

def Conduct (ok : World → Call → Prop) (w w' : World) : Prop :=
  ∃ c choice, ok w c ∧ Lawful w c ∧ w' = (serve choice c w).2

def Plain (ok : World → Call → Prop) (w w' : World) : Prop :=
  ∃ c choice, ok w c ∧ Lawful w c ∧ c.links = false ∧ w' = (serve choice c w).2

theorem plainConduct {ok w w'} (plain : Plain ok w w') : Conduct ok w w' := by
  obtain ⟨c,choice,good,lawful,_,same⟩ := plain
  exact ⟨c,choice,good,lawful,same⟩

theorem conductLater {ok w w'} (conduct : Conduct ok w w') : Later w w' := by
  obtain ⟨c,choice,_,_,rfl⟩ := conduct
  exact serveLater choice c w

end Passmower
