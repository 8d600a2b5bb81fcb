import Passmower.EndpointCalls
import Passmower.Identities

/-! What an OIDC login that finishes with a login leaves in the account: the identity of its provider,
as it was reported. A login that is refused, or that fails on its way, leaves the one of before. -/
namespace Passmower
open JavaScript Resumption Program

def World.keyed (w : World) : Prop := ∀ user ∈ w.users, Keyed user.identityEntries

def Persisted (w : World) (accountId key : String) (identity : OidcIdentity) : Prop :=
  ∃ user earlier : OidcUser, w.user accountId = some user ∧ user.getIdentity key = some (earlier.observed key identity)

/- The interaction's result is `{login: {accountId}}`. -/
def FinishedWith (w : World) (uid : Nat) (accountId : String) : Prop :=
  (w.interaction uid).bind (·.result) = some {login := some accountId}

instance (w uid accountId) : Decidable (FinishedWith w uid accountId) := by unfold FinishedWith; infer_instance

def Unidentified (w t : World) : Prop :=
  ∃ new, t.journal = w.journal ++ new ∧ ∀ event ∈ new, event.what.identifies = false

inductive Reports (w : World) (outcome : Except JsError Unit) (t : World) : Prop
  | unidentified (none : Unidentified w t)
  | identified (before after : List Event) (chain uid : Nat) (key : String) (identity : OidcIdentity)
      (journal : t.journal = w.journal ++ before ++ ⟨chain,uid,.identify key identity⟩ :: after)
      (first : ∀ event ∈ before, event.what.identifies = false)
      (last : ∀ event ∈ after, event.what.identifies = false)
      (persisted : outcome = .ok () → ∀ accountId, FinishedWith t uid accountId → Persisted t accountId key identity)

abbrev KeyedRun {α : Type} (p : Web α) (Q : Except JsError α → World → Prop) (w : World) : Prop :=
  Alone serve (fun s _ => s.keyed) (fun _ _ => True) p Q w

section Persisting
variable {w t : World} {uid : Nat} {key accountId : String} {identity : OidcIdentity} {α β : Type}

theorem keyedRunBind {p : Web α} {f : α → Web β} {P : α → World → Prop} {Q : Except JsError β → World → Prop}
    (first : KeyedRun p (onOk P) w) (errors : ∀ e t, Q (.error e) t) (rest : ∀ a t, P a t → KeyedRun (f a) Q t) :
    KeyedRun (p >>= f) Q w := by
  refine aloneBind (soundMono first ?_)
  intro r t post
  cases r with
  | ok a => exact rest a t post
  | error e => exact errors e t

theorem keyedRunAsk {c : Call} {f : Answer c → Web β} {Q : Except JsError β → World → Prop}
    (rest : w.keyed → ∀ choice, KeyedRun (f (serve choice c w).1) Q (serve choice c w).2) :
    KeyedRun (ask (I := web) c >>= f) Q w :=
  (aloneAsk (I := web) c f Q w).mpr fun keyed choice => ⟨trivial,rest keyed choice⟩

theorem keyedRunFindUser {f : Option OidcUser → Web β} {Q : Except JsError β → World → Prop}
    (rest : ∀ user, (∀ u, user = some u → w.user accountId = some u) → w.keyed → KeyedRun (f user) Q w) :
    KeyedRun (findUser accountId >>= f) Q w := by
  refine keyedRunAsk fun keyed choice => rest _ (fun u answer => ?_) keyed
  cases fails : choice.fails with
  | true => simp [serve,fails] at answer
  | false => simpa [serve,fails] using answer

theorem updateUserFound {f : OidcUser → OidcUser} {user : OidcUser} (named : ∀ u, (f u).accountId = u.accountId)
    (found : w.user accountId = some user) : (w.updateUser accountId f).user accountId = some (f user) := by
  have first : ∀ users : List OidcUser, users.find? (fun u => u.accountId = accountId) = some user →
      (updateFirst (fun u => u.accountId = accountId) f users).find? (fun u => u.accountId = accountId) = some (f user) := by
    intro users
    induction users with
    | nil => exact fun none => by cases none
    | cons head tail ih =>
        intro found
        by_cases here : head.accountId = accountId
        · obtain rfl : head = user := by simpa [here] using found
          simp [updateFirst,here,named]
        · simp only [updateFirst,here,decide_false,List.find?_cons] at found ⊢
          simpa [here] using ih found
  exact first w.users found

theorem persistedRestated (mutation : StatusMutation) (persisted : Persisted w accountId key identity) :
    Persisted (w.updateUser accountId fun u => u.restated w.env mutation) accountId key identity := by
  obtain ⟨user,earlier,found,stored⟩ := persisted
  exact ⟨_,earlier,updateUserFound (fun _ => rfl) found,stored⟩

theorem specsPersist : KeyedRun (updateUserSpecs accountId (mergeIdentity key identity))
    (onOk fun _ t => Persisted t accountId key identity) w := by
  refine keyedRunFindUser fun user found keyed => ?_
  cases user with
  | none => exact (aloneThrow _ _ w).mpr trivial
  | some user =>
      have found := found user rfl
      refine keyedRunAsk fun _ choice => ?_
      cases answer : (serve choice (.patchUser accountId (mergeIdentity key identity user.toSpecs) user.toSpecs) w).1 with
      | none => exact (aloneThrow _ _ _).mpr trivial
      | some updated =>
          have here := updateUserFound (f := user.toSpecs.patch (mergeIdentity key identity user.toSpecs))
            (fun _ => rfl) found
          have persisted : Persisted (serve choice (.patchUser accountId (mergeIdentity key identity user.toSpecs)
              user.toSpecs) w).2 accountId key identity := by
            simp only [serve] at answer ⊢
            split at answer
            · cases answer
            · rename_i answered
              rw [if_neg answered]
              exact ⟨_,user,here,persistedIdentity (keyed user (userMember found))⟩
          have named : updated.accountId = accountId := by
            simp only [serve] at answer
            split at answer
            · cases answer
            · exact userAccountId answer
          refine (aloneCall (I := web) _ _ _ _).mpr fun _ choice => ⟨trivial,(alonePure _ _ _).mpr ?_⟩
          show Persisted (serve choice (.mutateUserStatus updated.accountId .none) _).2 accountId key identity
          simp only [serve]
          split
          · exact persisted
          · rw [named]
            exact persistedRestated .none persisted

theorem writtenUsers (choice : Choice) (literal : Literal) (merge : Bool) :
    (serve choice (.interactionResult uid literal merge) w).2.users = w.users := by
  simp only [serve]
  split
  · rw [logUsers]; rfl
  · rfl

theorem writtenFinished {choice : Choice} {literal : Literal}
    (finished : FinishedWith (serve choice (.interactionResult uid literal false) w).2 uid accountId) :
    literal.onto {} = {login := some accountId} := by
  unfold FinishedWith at finished
  cases found : w.interaction uid with
  | some i =>
      rw [interactionWritten found] at finished
      exact Option.some.inj finished
  | none =>
      have missing : (w.updateInteraction uid fun i => i.store w.env.mergeErrorResults literal false).interaction uid = none := by
        rw [interactionUpdate,found]
        simp
      have none : (serve choice (.interactionResult uid literal false) w).2.interaction uid = none := by
        simp only [serve]
        split
        · rw [interactionLog]; exact missing
        · exact missing
      rw [none] at finished
      cases finished

theorem writePersisted {literal : Literal} (told : ∀ accountId, literal.onto {} = {login := some accountId} →
    Persisted w accountId key identity) : KeyedRun (interactionResult uid literal false)
      (onOk fun _ t => ∀ accountId, FinishedWith t uid accountId → Persisted t accountId key identity) w := by
  refine (aloneCall (I := web) _ _ _ _).mpr fun _ choice => ⟨trivial,(alonePure _ _ _).mpr fun accountId finished => ?_⟩
  obtain ⟨user,earlier,found,stored⟩ := told accountId (writtenFinished finished)
  refine ⟨user,earlier,?_,stored⟩
  unfold World.user
  rw [writtenUsers]
  exact found

theorem finishPersisted {account : Option OidcUser}
    (persisted : ∀ user, account = some user → Persisted w user.accountId key identity) :
    KeyedRun (getLoginResult uid account >>= fun result => interactionResult uid result false)
      (onOk fun _ t => ∀ accountId, FinishedWith t uid accountId → Persisted t accountId key identity) w := by
  have refusal : ∀ kind description, KeyedRun (interactionResult uid (.error kind description) false)
      (onOk fun _ t => ∀ accountId, FinishedWith t uid accountId → Persisted t accountId key identity) w := by
    intro kind description
    exact writePersisted fun accountId same => absurd (congrArg Submission.error same) (by simp [Literal.onto])
  unfold getLoginResult interactionDetails
  simp only [bindAssoc]
  refine keyedRunAsk fun _ choice => ?_
  simp only [serve]
  cases w.interaction uid with
  | none => exact (aloneThrow _ _ w).mpr trivial
  | some details => cases account with
      | some user =>
          simp only [pureBind]
          split
          · exact refusal _ _
          · refine writePersisted fun accountId same => ?_
            cases Option.some.inj (congrArg Submission.login same)
            exact persisted user rfl
      | none =>
          simp only [pureBind]
          split
          · exact refusal _ _
          · split
            · rename_i own requested
              have flag : own.requireCustomUsername = true := (Option.filter_eq_some_iff.mp requested).2
              refine writePersisted fun accountId same => ?_
              have none := congrArg Submission.requireCustomUsername same
              simp [Literal.onto,Submission.onto,flag] at none
            · exact refusal _ _

theorem keyedRunAny {p : Web α} {f : α → Web β} {Q : β → World → Prop} (rest : ∀ a t, KeyedRun (f a) (onOk Q) t) :
    KeyedRun (p >>= f) (onOk Q) w := by
  refine aloneBind (soundMono (aloneAny p w) fun r t _ => ?_)
  cases r with
  | ok a => exact rest a t
  | error e => trivial

theorem linkPersists (env : Env) (config : ProviderConfig) :
    KeyedRun (OidcLogin.link env uid config identity)
      (onOk fun _ t => ∀ accountId, FinishedWith t uid accountId → Persisted t accountId config.key identity) w := by
  refine keyedRunAsk fun _ _ => keyedRunAny fun account t => ?_
  cases account with
  | none => exact finishPersisted fun user (none : none = some user) => by cases none
  | some user =>
      show KeyedRun ((updateUserSpecs user.accountId (mergeIdentity config.key identity) >>= fun _ => _) >>= fun _ => _) _ t
      rw [bindAssoc]
      refine keyedRunBind specsPersist (fun _ _ => trivial) fun _ u persisted => keyedRunAsk fun _ _ => ?_
      exact finishPersisted fun other same => Option.some.inj same ▸ persisted

theorem unidentifiedSelf (w : World) : Unidentified w w := ⟨[],by simp,fun _ none => by cases none⟩

theorem unidentifiedTrans {u : World} (first : Unidentified w t) (next : Unidentified t u) : Unidentified w u := by
  obtain ⟨before,journal,silent⟩ := first
  obtain ⟨after,journal',silent'⟩ := next
  refine ⟨before ++ after,by rw [journal',journal,List.append_assoc],fun event inside => ?_⟩
  exact (List.mem_append.mp inside).elim (silent event) (silent' event)

theorem unidentifiedLog {what : Happening} (silent : what.identifies = false) : Unidentified w (w.log uid what) := by
  cases found : w.interaction uid with
  | none => rw [logMissing found]; exact unidentifiedSelf w
  | some i => exact ⟨_,logJournal found,fun event inside => by cases List.mem_singleton.mp inside; exact silent⟩

theorem unidentifiedSame (same : t.journal = w.journal) : Unidentified w t :=
  ⟨[],by simp [same],fun _ none => by cases none⟩

theorem ordinaryUnidentified {env : Env} (w : World) (c : Call) (choice : Choice) (ordinary : Ordinary env c) :
    Unidentified w (serve choice c w).2 := by
  cases c with
  | interactionResult uid literal merge =>
      simp only [serve]
      split
      · rename_i what marked
        have silent : what.identifies = false := by
          rcases markSource marked with ⟨rfl,_⟩ | ⟨accountId,rfl⟩ <;> rfl
        exact unidentifiedTrans (unidentifiedSame rfl) (unidentifiedLog silent)
      · exact unidentifiedSame rfl
  | createUser uid accountId body =>
      simp only [serve]
      split
      · exact unidentifiedSelf w
      · exact unidentifiedTrans (unidentifiedSame rfl) (unidentifiedLog rfl)
  | authorizationCodeGrant uid config =>
      simp only [serve]
      split
      · exact unidentifiedSelf w
      · exact unidentifiedLog rfl
  | fetchUserInfo uid config =>
      simp only [serve]
      split
      · exact unidentifiedSelf w
      · exact unidentifiedLog rfl
  | getOAuthAccessToken uid =>
      simp only [serve]
      split
      · exact unidentifiedSelf w
      · exact unidentifiedLog rfl
  | patchUser accountId values existing =>
      simp only [serve]
      split <;> exact unidentifiedSame rfl
  | mutateUserStatus accountId mutation =>
      simp only [serve]
      split <;> exact unidentifiedSame rfl
  | sendMail uid token address => exact unidentifiedLog rfl
  | record uid what => exact unidentifiedLog ordinary
  | _ => exact unidentifiedSame rfl

theorem ordinarySilent {env : Env} {p : Web α} (ordinary : OrdinaryCalls env p) :
    KeyedRun p (fun _ t => Unidentified w t) w :=
  callsOnlyAlone unidentifiedSelf unidentifiedTrans ordinaryUnidentified ordinary

theorem silentReports {u : World} {outcome : Except JsError Unit} (silent : Unidentified w t)
    (reports : Reports t outcome u) : Reports w outcome u := by
  cases reports with
  | unidentified none => exact .unidentified (unidentifiedTrans silent none)
  | identified before after chain uid key identity journal first last persisted =>
      obtain ⟨new,grown,none⟩ := silent
      refine .identified (new ++ before) after chain uid key identity (by simp [journal,grown]) ?_ last persisted
      exact fun event inside => (List.mem_append.mp inside).elim (none event) (first event)

theorem reportsBind {env : Env} {p : Web α} {f : α → Web Unit} (ordinary : OrdinaryCalls env p)
    (rest : ∀ a t, KeyedRun (f a) (Reports t) t) : KeyedRun (p >>= f) (Reports w) w := by
  refine aloneBind (soundMono (ordinarySilent ordinary) fun r t silent => ?_)
  cases r with
  | ok a => exact soundMono (rest a t) fun _ u reports => silentReports silent reports
  | error e => exact .unidentified silent

theorem ordinaryReports {env : Env} {p : Web Unit} (ordinary : OrdinaryCalls env p) : KeyedRun p (Reports w) w :=
  soundMono (ordinarySilent ordinary) fun _ _ silent => .unidentified silent

theorem linkReports (env : Env) (config : ProviderConfig) :
    KeyedRun (OidcLogin.link env uid config identity) (Reports w) w := by
  cases found : w.interaction uid with
  | none =>
      refine keyedRunAsk fun _ _ => ?_
      rw [show (serve _ (.record uid (.identify config.key identity)) w).2 = w from logMissing found]
      exact ordinaryReports (oidcLinkOrdinary config identity)
  | some i =>
      have persists : KeyedRun (OidcLogin.link env uid config identity) _ w := linkPersists env config
      have logged : KeyedRun (OidcLogin.link env uid config identity) (fun _ t => ∃ after,
          t.journal = w.journal ++ ⟨i.chain,uid,.identify config.key identity⟩ :: after ∧
          ∀ event ∈ after, event.what.identifies = false) w := by
        refine keyedRunAsk fun _ _ => soundMono (ordinarySilent (oidcLinkOrdinary config identity)) fun _ t silent => ?_
        obtain ⟨after,journal,none⟩ := silent
        exact ⟨after,by rw [journal]; simp [serve,logJournal found],none⟩
      refine soundMono (soundAnd persists logged) fun r t post => ?_
      obtain ⟨persisted,after,journal,none⟩ := post
      refine .identified [] after i.chain uid config.key identity (by simpa using journal) (fun _ none => by cases none) none ?_
      rintro rfl
      exact persisted

theorem detailsReports {f : Interaction → Web Unit} (rest : ∀ i t, KeyedRun (f i) (Reports t) t) :
    KeyedRun (interactionDetails uid >>= f) (Reports w) w := by
  have ordinary : OrdinaryCalls w.env (interactionDetails uid) := callsOnlyAsk trivial fun found => by cases found <;> trivial
  exact reportsBind ordinary rest

theorem oidcLoginReports (env : Env) (config : ProviderConfig) (callback : Option Callback) :
    KeyedRun (oidcLogin env uid config callback) (Reports w) w := by
  refine detailsReports fun details t => ?_
  split
  · exact linkReports env config
  · have start : OrdinaryCalls env (OidcLogin.start uid config) := oidcStartOrdinary config
    exact ordinaryReports start
  · refine reportsBind (oidcReceiveOrdinary config _ _) fun identity u => ?_
    split
    · exact (alonePure _ _ u).mpr (.unidentified (unidentifiedSelf u))
    · exact linkReports env config

theorem formReports (env : Env) (username : String) : KeyedRun (OidcRoutes.enterUsername env uid username) (Reports w) w := by
  have throws : ∀ {e : JsError} {t : World}, KeyedRun (raise e : Web Unit) (Reports t) t := fun {_ t} =>
    (aloneThrow _ _ t).mpr (.unidentified (unidentifiedSelf t))
  have ends : ∀ {t : World}, KeyedRun (.pure () : Web Unit) (Reports t) t := fun {t} =>
    (alonePure _ _ t).mpr (.unidentified (unidentifiedSelf t))
  refine detailsReports fun details t => ?_
  split
  · exact throws
  · have reads : OrdinaryCalls env (OidcRoutes.usernameExists username) := readOrdinary (usernameExistsReadOnly username)
    refine reportsBind reads fun taken t => ?_
    split
    · exact ends
    · have entered : OrdinaryCalls env (record uid (.enterUsername username)) := callsOnlyAsk rfl fun _ => trivial
      have created : OrdinaryCalls {env with enrollUsers := true} (createUser uid username details.carried.email
          details.carried.githubEmails (details.carried.stableIdentity.getD {})) := by
        refine callsOnlyAsk rfl fun user => ?_
        cases user with
        | none => trivial
        | some user => exact mutateOrdinary _ _
      refine reportsBind entered fun _ t => reportsBind created fun account t => ?_
      cases account with
      | none => exact ends
      | some account =>
          have committed : OrdinaryCalls env (mutateUserStatus account.accountId (.addCondition usernameCommitted)) :=
            mutateOrdinary _ _
          have verified : OrdinaryCalls env (recordSubmittedMagicLinkVerification account details.carried) := by
            unfold recordSubmittedMagicLinkVerification
            split
            · trivial
            · exact callsOnlyBind (mutateOrdinary _ _) fun _ => trivial
          refine reportsBind committed fun _ t => reportsBind verified fun account t => ?_
          split
          · exact ordinaryReports (githubLoginOrdinary _)
          · split
            · exact throws
            · exact oidcLoginReports env _ _
          · have written : OrdinaryCalls env (interactionResult uid (.login account.accountId)) := resultOrdinary _ _
            exact ordinaryReports written

theorem requestReports (env : Env) (request : Request) : KeyedRun (request.program env) (Reports w) w := by
  cases request with
  | enterUsername uid username => exact formReports env username
  | verifyEmail uid token cookie => exact ordinaryReports (verifyLinkOrdinary token cookie)
  | emailComplete uid => exact ordinaryReports (emailCompleteOrdinary uid)
  | email uid address => exact ordinaryReports (emailOrdinary uid address)
  | abort uid =>
      have ordinary : OrdinaryCalls env (OidcRoutes.abort uid) := abortOrdinary uid
      exact ordinaryReports ordinary
  | federated uid upstream callback =>
      refine detailsReports fun details t => ?_
      have throws : ∀ {e : JsError}, KeyedRun (raise e : Web Unit) (Reports t) t := fun {_} =>
        (aloneThrow _ _ t).mpr (.unidentified (unidentifiedSelf t))
      split
      · exact throws
      · split
        · split
          · exact throws
          · exact ordinaryReports (githubLoginOrdinary callback)
        · split
          · exact throws
          · exact oidcLoginReports env _ callback

end Persisting

/- The request took an OIDC login under the key into its last phase, with this identity, and finished it
with `{login: {accountId}}`. -/
def LoggedInBy (w : World) (request : Request) (choices : List Choice) (key : String) (identity : OidcIdentity)
    (accountId : String) : Prop :=
  (Resumption.run serve (request.program w.env) choices w).1 = .ok () ∧
    ∃ event ∈ (w.step (.request request choices)).journal.drop w.journal.length,
      event.what = .identify key identity ∧ FinishedWith (w.step (.request request choices)) event.uid accountId

theorem loggedInPersisted {w : World} (keyed : w.keyed) {request : Request} {choices : List Choice} {key accountId : String}
    {identity : OidcIdentity} (loggedIn : LoggedInBy w request choices key identity accountId) :
    Persisted (w.step (.request request choices)) accountId key identity := by
  obtain ⟨returned,⟨chain,uid,what⟩,noted,same,finished⟩ := loggedIn
  cases same
  have lawful : Alone serve (fun _ _ => True) (Conduct fun _ _ => True) (request.program w.env) (fun _ _ => True) w :=
    requestConducted request
  have keeps : ∀ {s t : World}, Conduct (fun _ _ => True) s t → s.keyed → t.keyed := by
    rintro s t ⟨c,choice,_,lawful,rfl⟩ keyed
    exact keyedCall lawful keyed
  have disciplined : Disciplined serve (fun s _ => s.keyed) (request.program w.env) choices w :=
    disciplinedInvariant World.keyed keeps lawful keyed (disciplinedTrivial _ _ _)
  have reports : Reports w (Resumption.run serve (request.program w.env) choices w).1 (w.step (.request request choices)) :=
    aloneRun (requestReports w.env request) disciplined
  have inside : ∀ {new}, (w.step (.request request choices)).journal = w.journal ++ new →
      ⟨chain,uid,.identify key identity⟩ ∈ new := fun {new} grown => by
    rwa [grown,List.drop_left] at noted
  cases reports with
  | unidentified none =>
      obtain ⟨new,grown,silent⟩ := none
      cases silent _ (inside grown)
  | identified before' after' chain' uid' key' identity' journal' first last persisted =>
      have same := inside (journal'.trans (List.append_assoc _ _ _))
      rcases List.mem_append.mp same with early | late
      · cases first _ early
      · rcases List.mem_cons.mp late with here | late
        · cases here
          exact persisted returned accountId finished
        · cases last _ late

end Passmower
