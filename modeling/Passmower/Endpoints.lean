import Passmower.Conducted

/-! Every endpoint conducts itself lawfully: one specification for each function of the
login code, and `requestConducted` for the requests. -/
namespace Passmower
open JavaScript Resumption Program

section Accounts
variable {ok : World → Call → Prop} {w : World} {uid chain : Nat} {carried : Submission}

theorem userAccountId {w : World} {accountId user} (found : w.user accountId = some user) :
    user.accountId = accountId := by simpa using List.find?_some found

theorem conductedFindUser {β : Type} {accountId : String} {f : Option OidcUser → Web β}
    {Q : β → World → Prop} (rest : ∀ user, (∀ u, user = some u → w.user accountId = some u) →
      Conducted ok (f user) (onOk Q) w) :
    Conducted ok (findUser accountId >>= f) (onOk Q) w := by
  refine conductedCall (.read (.getUser accountId) rfl) rfl fun _ choice => ?_
  refine rest _ fun u answer => ?_
  cases fails : choice.fails with
  | true => simp [serve,fails] at answer
  | false => simpa [serve,fails] using answer

theorem conductedListUsers {β : Type} {f : Option (List OidcUser) → Web β} {Q : β → World → Prop}
    (rest : ∀ users, (∀ us, users = some us → us = w.users) → Conducted ok (f users) (onOk Q) w) :
    Conducted ok (listUsers >>= f) (onOk Q) w := by
  refine conductedCall (.read .listUsers rfl) rfl fun _ choice => rest _ fun us answer => ?_
  cases fails : choice.fails with
  | true => simp [serve,fails] at answer
  | false =>
      simp only [serve,fails] at answer
      exact (Option.some.inj answer).symm

theorem conductedAllUsers {β : Type} {users : Option (List OidcUser)} {f : List OidcUser → Web β}
    {Q : β → World → Prop} (known : ∀ us, users = some us → us = w.users)
    (rest : Conducted ok (f w.users) (onOk Q) w) : Conducted ok (allUsers users >>= f) (onOk Q) w := by
  cases users with
  | some us => rw [known us rfl]; exact rest
  | none =>
      show Conducted ok ((listUsers >>= _) >>= f) (onOk Q) w
      rw [bindAssoc]
      apply conductedListUsers
      intro users known
      cases users with
      | none => exact conductedThrow _
      | some us => rw [known us rfl]; exact rest

theorem conductedLift {α β : Type} {found : Except JsError α} {f : α → Web β} {Q : β → World → Prop}
    (rest : ∀ a, found = .ok a → Conducted ok (f a) (onOk Q) w) :
    Conducted ok (lift found >>= f) (onOk Q) w := by
  cases found with
  | error e => exact conductedThrow _
  | ok a => exact rest a rfl

theorem conductedStable {β : Type} {identity : StableIdentity} {users : Option (List OidcUser)}
    {f : Option OidcUser → Web β} {Q : β → World → Prop} (known : ∀ us, users = some us → us = w.users)
    (rest : ∀ user, (∀ u, user = some u → u ∈ w.users ∧ identity ≠ {}) → Conducted ok (f user) (onOk Q) w) :
    Conducted ok (findByStableIdentity w.env identity users >>= f) (onOk Q) w := by
  unfold findByStableIdentity
  split
  · rename_i key subject held _
    rw [bindAssoc]
    refine conductedAllUsers known (conductedLift fun user found => rest user fun u same => ?_)
    subst same
    exact ⟨(findUniqueStableIdentityMember found).1,fun none => by subst none; cases held⟩
  · rename_i githubId held _
    rw [bindAssoc]
    refine conductedAllUsers known (conductedLift fun user found => rest user fun u same => ?_)
    subst same
    exact ⟨(findUniqueStableIdentityMember found).1,fun none => by subst none; cases held⟩
  · exact rest none fun u none => by cases none

theorem mutateConducted {accountId : String} {mutation : StatusMutation}
    (within : Within w uid chain carried) (resolved : Resolved w chain accountId)
    (mutates : Mutates w uid chain carried accountId mutation) :
    Conducted ok (mutateUserStatus accountId mutation)
      (onOk fun user _ => ∀ u, user = some u → u.accountId = accountId) w := by
  refine conductedCall (.mutateUserStatus uid chain carried _ _ within resolved mutates) rfl fun _ choice => ?_
  refine conductedPure fun u answer => ?_
  simp only [serve] at answer
  split at answer
  · cases answer
  · exact userAccountId answer

theorem createUserConducted {i : Interaction} {accountId : String} {email : Option String}
    {githubEmails : Option (List EmailItem)} {identity : StableIdentity}
    (found : w.interaction uid = some i)
    (enrols : Enrols w uid i accountId ⟨email,githubEmails,identity.githubId,identity.entries⟩) :
    Conducted ok (createUser uid accountId email githubEmails identity)
      (onOk fun user t => ∀ u, user = some u →
        u.accountId = accountId ∧ t.happened i.chain (.created accountId email)) w := by
  refine conductedCall (.createUser uid i accountId _ found enrols) rfl fun _ choice => ?_
  have later := serveLater choice (.createUser uid accountId
    ⟨email,githubEmails,identity.githubId,identity.entries⟩) w
  revert later
  simp only [serve]
  split
  · exact fun _ => conductedPure fun u none => by cases none
  · intro later
    have here : ⟨i.chain,uid,.created accountId email⟩ ∈ (World.log {w with users := w.users ++
        [NewUser.resource accountId choice.time ⟨email,githubEmails,identity.githubId,identity.entries⟩]}
        uid (.created accountId email)).journal := loggedHappened found
    refine conductedMono (conductedSince (mutateConducted
      (later.within _ _ _ (withinFound found)) ⟨email,.inr ⟨uid,here⟩⟩ .none)) ?_
    rintro a t ⟨same,since⟩ u answer
    exact ⟨same u answer,uid,since.journal.subset here⟩

theorem updateUserSpecsConducted {accountId : String} {merge : Specs → Specs}
    (within : Within w uid chain carried) (resolved : Resolved w chain accountId)
    (merges : Merges w chain merge) :
    Conducted ok (updateUserSpecs accountId merge)
      (onOk fun user _ => ∀ u, user = some u → u.accountId = accountId) w := by
  refine conductedFindUser fun user found => ?_
  cases user with
  | none => exact conductedThrow _
  | some account =>
      have stored := found account rfl
      obtain rfl := userAccountId stored
      refine conductedCall (.patchUser chain account merge merges resolved stored) rfl fun _ choice => ?_
      have later := serveLater choice
        (.patchUser account.accountId (merge account.toSpecs) account.toSpecs) w
      cases answer : (serve choice
          (.patchUser account.accountId (merge account.toSpecs) account.toSpecs) w).1 with
      | none => exact conductedThrow _
      | some updated =>
          have same : updated.accountId = account.accountId := by
            simp only [serve] at answer
            split at answer
            · cases answer
            · exact userAccountId answer
          have here : Resolved (serve choice (.patchUser account.accountId (merge account.toSpecs)
              account.toSpecs) w).2 chain updated.accountId := by rw [same]; exact laterResolved later resolved
          refine conductedMono (mutateConducted (later.within _ _ _ within) here .none) ?_
          exact fun a t restated u answer => (restated u answer).trans same

theorem updateSlackConducted {user : OidcUser} (within : Within w uid chain carried)
    (resolved : Resolved w chain user.accountId) :
    Conducted ok (updateSlack user)
      (onOk fun updated _ => ∀ u, updated = some u → u.accountId = user.accountId) w :=
  conductedRead (getSlackIdReadOnly user) fun _ =>
    updateUserSpecsConducted within resolved (.slackId _)

theorem verificationConducted {account : OidcUser} {email verifiedAt : Option String}
    (within : Within w uid chain carried) (resolved : Resolved w chain account.accountId)
    (mutates : Mutates w uid chain carried account.accountId (.verifyEmail email verifiedAt)) :
    Conducted ok (recordMagicLinkVerification account email verifiedAt)
      (onOk fun user _ => user.accountId = account.accountId) w := by
  refine conductedBind (mutateConducted within resolved mutates) fun updated t same _ => ?_
  refine conductedPure ?_
  cases updated with
  | none => rfl
  | some user => exact same user rfl

end Accounts

section Enrolment
variable {ok : World → Call → Prop} {w : World} {uid chain : Nat} {carried : Submission}
  {email : Option String} {githubEmails : Option (List EmailItem)} {identity : StableIdentity}

abbrev endsAdmitted (chain : Nat) (email : Option String) (identity : StableIdentity)
    (user : Option OidcUser) (t : World) : Prop :=
  ∀ u, user = some u → Admitted t chain email identity u.accountId

abbrev endsResolved (chain : Nat) (user : Option OidcUser) (t : World) : Prop :=
  ∀ u, user = some u → Resolved t chain u.accountId

theorem requireCustomUsernameConducted {preferredUsername : Option String}
    (within : Within w uid chain carried) (attempt : Attempt w chain email githubEmails identity)
    (enrols : w.env.enrollUsers = true) :
    Conducted ok (requireCustomUsername uid email githubEmails preferredUsername identity)
      (onOk (endsAdmitted chain email identity)) w := by
  obtain ⟨_,found,rfl,_⟩ := within
  refine conductedDetails fun i same => ?_
  cases found.symm.trans same
  refine conductedBind (conductedWrite found (.usernameRequest _ _ _ _ attempt enrols) rfl) fun _ _ _ _ => ?_
  exact conductedPure fun u none => by cases none

theorem enrolConducted {username : String} (within : Within w uid chain carried)
    (attempt : Attempt w chain email githubEmails identity) (enrols : w.env.enrollUsers = true) :
    Conducted ok (enrol uid username email githubEmails identity)
      (onOk (endsAdmitted chain email identity)) w := by
  obtain ⟨i,found,rfl,_⟩ := id within
  refine conductedBind (createUserConducted found (.login email githubEmails identity attempt enrols)) ?_
  intro user t created later
  cases user with
  | none => exact conductedPure fun u none => by cases none
  | some user =>
      obtain ⟨rfl,here⟩ := created user rfl
      refine conductedMono (conductedSince (updateSlackConducted (later.within _ _ _ within)
        ⟨email,.inr here⟩)) ?_
      rintro a t' ⟨same,since⟩ u answer
      rw [same u answer]
      exact .inr (laterHappened since here)

theorem enrolUnknownConducted {preferredUsername : Option String}
    (within : Within w uid chain carried) (attempt : Attempt w chain email githubEmails identity) :
    Conducted ok (enrolUnknown w.env uid email githubEmails none preferredUsername identity)
      (onOk (endsAdmitted chain email identity)) w := by
  unfold enrolUnknown
  simp only [truthy,Option.filter]
  split
  · exact conductedPure fun u none => by cases none
  · rename_i open_
    have enrols : w.env.enrollUsers = true := by simpa using open_
    split
    · exact requireCustomUsernameConducted within attempt enrols
    · split
      · exact requireCustomUsernameConducted within attempt enrols
      · split
        · refine conductedRead (isUsernameAvailableReadOnly _) fun available => ?_
          split
          · exact enrolConducted within attempt enrols
          · exact requireCustomUsernameConducted within attempt enrols
        · exact requireCustomUsernameConducted within attempt enrols
    · exact conductedRead getUidReadOnly fun _ => enrolConducted within attempt enrols

abbrev resolves (w : World) (linkable : List (Option String)) (identity : StableIdentity)
    (resolved : Option (Option OidcUser)) (t : World) : Prop :=
  ∀ user, resolved = some (some user) → t = w ∧ user ∈ w.users ∧
    (identity = {} → linkable.any (user.isEmailLinkable w.env) = true)

theorem resolveUserConducted {emails linkable : List (Option String)}
    (within : Within w uid chain carried) :
    Conducted ok (resolveUser w.env uid emails linkable identity)
      (onOk (resolves w linkable identity)) w := by
  obtain ⟨i,found,_⟩ := within
  refine conductedListUsers fun users known => conductedStable known fun user stable => ?_
  refine conductedAllUsers known (conductedLift fun emailUser matched => ?_)
  have byIdentity : ∀ {u}, user = some u → resolves w linkable identity (some (some u)) w := by
    rintro u same _ ⟨⟩
    obtain ⟨listed,upstream⟩ := stable u same
    exact ⟨rfl,listed,fun none => absurd none upstream⟩
  split
  · split
    · exact conductedThrow _
    · exact conductedPure (byIdentity rfl)
  · exact conductedPure (byIdentity rfl)
  · rename_i byEmail
    split
    · rename_i linked
      refine conductedPure ?_
      rintro _ ⟨⟩
      exact ⟨rfl,findUserByEmailsMember matched,fun _ => linked⟩
    · refine conductedBind (conductedWrite found (.refuse _ _ _) rfl) fun _ _ _ _ => conductedPure ?_
      exact fun user none => by cases none
  · exact conductedPure fun user none => by cases none

theorem heedIntegrityConducted {t : World} {linkable : List (Option String)} (error : JsError) :
    Conducted ok (heedIntegrity error) (onOk (resolves t linkable identity)) w := by
  cases error with
  | identityIntegrity message => exact conductedPure fun user none => by cases none
  | _ => exact conductedThrow _

theorem createOrUpdateConducted {preferredUsername : Option String}
    (within : Within w uid chain carried)
    (attempt : Attempt w chain email (githubEmails.map (normalizeEmails w.env)) identity) :
    Conducted ok (createOrUpdateByEmails w.env uid email githubEmails none preferredUsername identity)
      (onOk (endsAdmitted chain email identity)) w := by
  have resolving : Conducted ok ((resolveUser w.env uid
      ((canonicalizeEmail w.env email :: ((githubEmails.map (normalizeEmails w.env)).getD []).map
        (·.email)).filter (truthy · |>.isSome))
      (linkableEmails w.env email ((githubEmails.map (normalizeEmails w.env)).getD []) identity)
      identity).tryCatch heedIntegrity) (onOk (resolves w (linkableEmails w.env email
        ((githubEmails.map (normalizeEmails w.env)).getD []) identity) identity)) w := by
    refine aloneTryCatch (soundMono (resolveUserConducted within) ?_)
    intro r t post
    cases r with
    | ok a => exact post
    | error e => exact heedIntegrityConducted e
  refine conductedBind resolving fun resolved t resolves later => ?_
  have within' := later.within _ _ _ within
  have attempt' := laterAttempt later attempt
  cases resolved with
  | none => exact conductedPure fun u none => by cases none
  | some user => cases user with
      | none => rw [← later.env] at attempt' ⊢; exact enrolUnknownConducted within' attempt'
      | some user =>
          obtain ⟨i,found,sameChain,_⟩ := id within'
          subst sameChain
          obtain ⟨rfl,listed,linked⟩ := resolves user rfl
          refine conductedBind (conductedRecord found (.entered _ _ _ user attempt' listed linked))
            fun _ t' here since => ?_
          have admitted : Admitted t' i.chain email identity user.accountId := .inl ⟨uid,here.1⟩
          refine conductedMono (conductedSince (updateSlackConducted
            (since.within _ _ _ within') (admittedResolved admitted))) ?_
          rintro a t'' ⟨same,further⟩ u answer
          rw [same u answer]
          exact laterAdmitted further admitted

end Enrolment

section Logins
variable {ok : World → Call → Prop} {w : World} {uid chain : Nat} {carried : Submission}

abbrev anyEnd : Unit → World → Prop := fun _ _ => True

theorem denyConducted {description : String} (within : Within w uid chain carried) :
    Conducted ok (accessDenied uid description) (onOk anyEnd) w := by
  obtain ⟨i,found,_⟩ := within
  exact conductedMono (conductedWrite found (.refuse _ _ _) rfl) fun _ _ _ => trivial

theorem finishConducted {account : Option OidcUser} {merge : Bool}
    (within : Within w uid chain carried) (ends : endsResolved chain account w) :
    Conducted ok (getLoginResult uid account >>= fun result => interactionResult uid result merge)
      (onOk anyEnd) w := by
  obtain ⟨_,found,rfl,_⟩ := within
  have writing : ∀ {i literal}, w.interaction uid = some i → Writes w i literal merge →
      (Call.interactionResult uid literal merge).links = false →
      Conducted ok (interactionResult uid literal merge) (onOk anyEnd) w := fun found writes plain =>
    conductedMono (conductedWrite found writes plain) fun _ _ _ => trivial
  unfold getLoginResult
  rw [bindAssoc]
  refine conductedDetails fun i same => ?_
  cases found.symm.trans same
  cases account with
  | none =>
      simp only
      split
      · exact writing found (.refuse _ _ _) rfl
      · rename_i accepted
        split
        · rename_i own requested
          obtain ⟨stored,flag⟩ := Option.filter_eq_some_iff.mp requested
          have error : own.error = none := by simpa [stored] using accepted
          exact writing found (.result own _ stored flag error) rfl
        · exact writing found (.refuse _ _ _) rfl
  | some account =>
      simp only
      split
      · exact writing found (.refuse _ _ _) rfl
      · exact writing found (.login _ _ (ends account rfl)) rfl

theorem sendSlackReadOnly (account : Option OidcUser) : ReadOnly (EmailLogin.sendSlack account) := by
  unfold EmailLogin.sendSlack
  split
  · exact ⟨rfl,fun _ => trivial⟩
  · trivial

theorem recordLoginConducted {found : Option OidcUser} {email verifiedAt : Option String}
    (within : Within w uid chain carried) (ends : endsAdmitted chain email {} found w)
    (begun : w.happened chain (.completeLogin email)) :
    Conducted ok (EmailLogin.recordLogin email verifiedAt found) (onOk (endsResolved chain)) w := by
  cases found with
  | none => exact conductedPure fun u none => by cases none
  | some user =>
      have admitted := ends user rfl
      refine conductedBind (verificationConducted within (admittedResolved admitted)
        (.linkVerified _ _ begun admitted)) ?_
      intro updated t same later
      refine conductedPure fun u answer => ?_
      cases answer
      rw [same]
      exact laterResolved later (admittedResolved admitted)

inductive SendsLink (ok : World → Call → Prop) (uid : Nat) (w : World) : World → Prop
  | plain (t : World) (steps : Relation.ReflTransGen (Plain ok) w t) : SendsLink ok uid w t
  | sent (i : Interaction) (email token : String) (stored mailed : Choice)
      (found : w.interaction uid = some i)
      (good : ok w (.interactionResult uid (.link email token) true)) :
      SendsLink ok uid w (serve mailed (.sendMail uid token email)
        (serve stored (.interactionResult uid (.link email token) true) w).2).2

theorem conductedAnyway {α : Type} {p : Web α} {Q : Except JsError α → World → Prop}
    (first : Conducted ok p Q w) : Alone serve ok (Conduct ok) p Q w := soundWeaken first (plainConduct ·)

theorem readAnyway {α β : Type} {p : Web α} {f : α → Web β} {Q : Except JsError β → World → Prop}
    (reads : ReadOnly p) (errors : ∀ e, Q (.error e) w)
    (rest : ∀ a, Alone serve ok (Conduct ok) (f a) Q w) : Alone serve ok (Conduct ok) (p >>= f) Q w := by
  refine aloneBind (soundMono (conductedAnyway (readOnlyConducted reads)) ?_)
  rintro r t rfl
  cases r with
  | ok a => exact rest a
  | error e => exact errors e

theorem detailsAnyway {β : Type} {f : Interaction → Web β} {Q : Except JsError β → World → Prop}
    (errors : ∀ e, Q (.error e) w)
    (rest : ∀ i, w.interaction uid = some i → Alone serve ok (Conduct ok) (f i) Q w) :
    Alone serve ok (Conduct ok) (interactionDetails uid >>= f) Q w := by
  refine (aloneCall (I := web) (.interactionDetails uid) _ Q w).mpr fun good choice =>
    ⟨⟨_,choice,good,.read _ rfl,rfl⟩,?_⟩
  simp only [serve]
  cases found : w.interaction uid with
  | none => exact (aloneThrow _ Q w).mpr (errors _)
  | some i => exact rest i found

theorem sendLinkSends {address : String} : Alone serve ok (Conduct ok)
    (EmailLogin.sendLink w.env uid address) (fun _ t => SendsLink ok uid w t) w := by
  have idle : SendsLink ok uid w w := .plain w .refl
  have denied : ∀ {i description}, w.interaction uid = some i → Alone serve ok (Conduct ok)
      (accessDenied uid description) (fun _ t => SendsLink ok uid w t) w := fun found =>
    conductedAnyway (soundMono (conductedSteps (denyConducted (withinFound found))) fun _ t => .plain t)
  refine detailsAnyway (fun _ => idle) fun i found => ?_
  refine readAnyway (callsOnlyAttempt (findByEmailReadOnly _ _)) (fun _ => idle) fun outcome => ?_
  split
  · exact denied found
  · exact (aloneThrow _ _ w).mpr idle
  · rename_i account
    split
    · exact denied found
    · refine readAnyway randomTextReadOnly (fun _ => idle) fun token => ?_
      refine (aloneAsk (I := web) (.interactionResult uid (.link _ token) true) _ _ w).mpr
        fun good stored => ⟨⟨_,stored,good,.interactionResult uid i _ _ found (.link _ _),rfl⟩,?_⟩
      have there : (serve stored (.interactionResult uid (.link (w.env.toLowerCase address) token) true)
          w).2.interaction uid = some _ := interactionWritten found
      refine (aloneAsk (I := web) (.sendMail uid token _) _ _ _).mpr fun good' mailed =>
        ⟨⟨_,mailed,good',.sendMail uid _ _ token _ there rfl ⟨rfl,rfl⟩,rfl⟩,?_⟩
      have sent : SendsLink ok uid w _ := .sent i _ token stored mailed found good
      refine readAnyway (sendSlackReadOnly account) (fun _ => sent) fun slack => ?_
      split
      · exact (alonePure _ _ _).mpr sent
      · exact (aloneThrow _ _ _).mpr sent

theorem completeLoginConducted {i : Interaction} {own : Submission} {verifiedAt : Option String}
    (found : w.interaction uid = some i) (stored : i.result = some own)
    (verified : own.emailVerified = true) :
    Conducted ok (EmailLogin.completeLogin w.env uid own.email verifiedAt) (onOk anyEnd) w := by
  refine conductedBind (conductedRecord found (.completeLogin own stored verified)) fun _ t here later => ?_
  have begun : t.happened i.chain (.completeLogin own.email) := ⟨uid,here.1⟩
  have within : Within t uid i.chain i.carried := withinFound here.2
  rw [← later.env]
  refine conductedBind (createOrUpdateConducted within (.magicLink _ begun)) fun user u resolved since => ?_
  have within' := since.within _ _ _ within
  refine conductedBind (recordLoginConducted within' resolved (laterHappened since begun)) ?_
  exact fun account v ends further => finishConducted (further.within _ _ _ within') ends

theorem verifyLinkConducted {token : String} {cookie : Option Nat} :
    Conducted ok (EmailLogin.verifyLink w.env uid token cookie) (onOk anyEnd) w := by
  refine conductedAsk (.read (.findInteraction uid) rfl) rfl fun _ choice => ?_
  dsimp only [Program.bind]
  split
  · exact conductedPure trivial
  · rename_i own matched
    obtain ⟨stored,same⟩ := Option.filter_eq_some_iff.mp matched
    obtain ⟨i,found,result⟩ := Option.bind_eq_some_iff.mp stored
    have held : own.token = some token := by simpa using same
    refine conductedRead nowReadOnly fun verifiedAt => ?_
    refine conductedAsk (.record uid i _ found (.presented own token result held)) rfl fun _ _ => ?_
    show Conducted ok _ _ (w.log uid (.presented token))
    have there : (w.log uid (.presented token)).interaction uid = some i :=
      (interactionLog _ _ _ _).trans found
    have last : (w.log uid (.presented token)).journal.getLast? = some ⟨i.chain,uid,.presented token⟩ := by
      have found : w.interaction uid = some i := found
      simp [World.log,found]
    have env : (w.log uid (.presented token)).env = w.env := (logLater _ _ _).env
    rw [← env]
    generalize w.log uid (.presented token) = t at there last ⊢
    refine conductedAsk (.saveInteraction uid i own token verifiedAt there result held last) rfl fun _ _ => ?_
    have saved : (t.updateInteraction uid (fun i => {i with
        result := some (EmailLogin.verified own verifiedAt)})).interaction uid =
        some {i with result := some (EmailLogin.verified own verifiedAt)} := by
      rw [interactionUpdate,there]; simp
    have kept : {i with result := some (EmailLogin.verified own verifiedAt)}.result =
        some (EmailLogin.verified own verifiedAt) := rfl
    split
    · have done : Conducted ok (EmailLogin.completeLogin t.env uid (EmailLogin.verified own verifiedAt).email
          (some verifiedAt)) (onOk anyEnd) (t.updateInteraction uid (fun i => {i with
            result := some (EmailLogin.verified own verifiedAt)})) :=
        completeLoginConducted saved kept rfl
      exact done
    · exact conductedPure trivial

theorem refuseEmailConducted {config : ProviderConfig} {profile : Object}
    (within : Within w uid chain carried) :
    Conducted ok (OidcLogin.refuseEmail w.env uid config profile) (onOk fun _ _ => True) w := by
  unfold OidcLogin.refuseEmail
  split
  · exact conductedPure trivial
  · exact conductedBind (denyConducted within) fun _ _ _ _ => conductedPure trivial
  · refine conductedRead (shouldOverrideReadOnly _ _ _ _) fun overridden => ?_
    split
    · exact conductedPure trivial
    · exact conductedBind (denyConducted within) fun _ _ _ _ => conductedPure trivial

theorem userInfoConducted {config : ProviderConfig} {i : Interaction} (found : w.interaction uid = some i) :
    Conducted ok (fetchUserInfo uid config) (onOk fun answer t =>
      ∀ fields, answer = some fields → t.happened i.chain (.userInfo config fields)) w := by
  refine conductedCall (.fetchUserInfo uid config) rfl fun _ choice => conductedPure fun fields answer => ?_
  cases fails : choice.fails with
  | true => simp [serve,fails] at answer
  | false =>
      simp [serve,fails] at answer
      subst answer
      exact ⟨uid,by simp [serve,fails,World.log,found]⟩

abbrev stashed (uid : Nat) (key : String) (identity : OidcIdentity) (t : World) : Prop :=
  ∃ i own, t.interaction uid = some i ∧ i.result = some own ∧ own.oidc = some (key,identity)

theorem receiveConducted {config : ProviderConfig} {i : Interaction} {callback : Callback}
    (found : w.interaction uid = some i) :
    Conducted ok (OidcLogin.receive w.env uid config i callback)
      (onOk fun identity t => ∀ given, identity = some given → stashed uid config.key given t) w := by
  have within := withinFound found
  have denying : ∀ {t : World} {description : String}, Within t uid i.chain i.carried →
      Conducted ok (accessDenied uid description >>= fun _ => .pure none)
        (onOk fun identity t => ∀ given : OidcIdentity, identity = some given →
          stashed uid config.key given t) t := fun within =>
    conductedBind (denyConducted within) fun _ _ _ _ => conductedPure fun _ none => by cases none
  unfold OidcLogin.receive
  split
  · exact denying within
  · refine conductedAsk (.authorizationCodeGrant uid config) rfl fun _ choice => ?_
    have later := serveLater choice (.authorizationCodeGrant uid config) w
    cases answer : (serve choice (.authorizationCodeGrant uid config) w).1 with
    | none => exact denying (later.within _ _ _ within)
    | some claims =>
        have granted : (serve choice (.authorizationCodeGrant uid config) w).2.happened i.chain
            (.granted config claims) := by
          cases fails : choice.fails with
          | true => simp [serve,fails] at answer
          | false =>
              simp [serve,fails] at answer
              have same : choice.claims = claims := Option.some.inj answer
              subst same
              exact ⟨uid,by simp [serve,fails,World.log,found]⟩
        rw [← later.env]
        generalize (serve choice (.authorizationCodeGrant uid config) w).2 = t at later granted ⊢
        obtain ⟨j,there,chain',_⟩ := id (later.within _ _ _ within)
        refine conductedBind (userInfoConducted there) fun userinfo v answered further => ?_
        have asserted : Asserted v.env v.journal i.chain config
            (mergeOidcProfile v.env claims (userinfo.getD [])) := by
          refine ⟨claims,_,rfl,laterHappened further granted,?_⟩
          cases userinfo with
          | none => exact .inl rfl
          | some fields => exact .inr (chain' ▸ answered fields rfl)
        have within' := further.within _ _ _ (later.within _ _ _ within)
        rw [← further.env]
        refine conductedBind (refuseEmailConducted within') fun refused u _ since => ?_
        split
        · exact conductedPure fun _ none => by cases none
        · refine conductedRead nowReadOnly fun observedAt => ?_
          obtain ⟨k,here,chain'',_⟩ := since.within _ _ _ within'
          have asserted' : Asserted u.env u.journal k.chain config
              (mergeOidcProfile v.env claims (userinfo.getD [])) := by
            rw [chain'']
            exact assertedAppend (by rw [since.env]) since.journal asserted
          refine conductedBind (conductedWrite here (.oidc config _ observedAt asserted') rfl) ?_
          intro _ x stored _
          exact conductedPure fun given same => by cases same; exact ⟨_,_,stored,rfl,rfl⟩

theorem oidcPersistConducted {key : String} {identity : OidcIdentity} {account : Option OidcUser}
    (within : Within w uid chain carried) (ends : endsResolved chain account w)
    (begun : w.happened chain (.identify key identity)) :
    Conducted ok (OidcLogin.persist key identity account) (onOk anyEnd) w := by
  cases account with
  | none => exact conductedPure trivial
  | some user =>
      refine conductedBind (updateUserSpecsConducted within (ends user rfl)
        (.identity key identity begun)) fun _ _ _ _ => ?_
      exact conductedRead ⟨rfl,fun _ => trivial⟩ fun _ => conductedPure trivial

theorem endsLater {chain account} {w w' : World} (later : Later w w')
    (ends : endsResolved chain account w) : endsResolved chain account w' :=
  fun u same => laterResolved later (ends u same)

theorem oidcLinkConducted {config : ProviderConfig} {identity : OidcIdentity} {i : Interaction}
    (found : w.interaction uid = some i) (records : Records w uid i (.identify config.key identity)) :
    Conducted ok (OidcLogin.link w.env uid config identity) (onOk anyEnd) w := by
  refine conductedBind (conductedRecord found records) fun _ t here later => ?_
  have begun : t.happened i.chain (.identify config.key identity) := ⟨uid,here.1⟩
  have within : Within t uid i.chain i.carried := withinFound here.2
  rw [← later.env]
  refine conductedBind (createOrUpdateConducted within (.oidc _ _ begun)) fun account u admitted since => ?_
  have ends : endsResolved i.chain account u := fun a same => admittedResolved (admitted a same)
  have within' := since.within _ _ _ within
  refine conductedBind (oidcPersistConducted within' ends (laterHappened since begun)) ?_
  exact fun _ v _ further => finishConducted (further.within _ _ _ within') (endsLater further ends)

theorem oidcLoginConducted {config : ProviderConfig} {callback : Option Callback} :
    Conducted ok (oidcLogin w.env uid config callback) (onOk anyEnd) w := by
  refine conductedDetails fun i found => ?_
  split
  · rename_i provider identity carriedOidc
    exact oidcLinkConducted found (.identify _ _ (.inl ⟨provider,carriedOidc⟩))
  · refine conductedRead randomTextReadOnly fun _ => conductedRead randomTextReadOnly fun _ =>
      conductedRead randomTextReadOnly fun _ => ?_
    exact conductedMono (conductedWrite found (.oidcFlow _) rfl) fun _ _ _ => trivial
  · refine conductedBind (receiveConducted found) fun identity t stored later => ?_
    cases identity with
    | none => exact conductedPure trivial
    | some identity =>
        obtain ⟨j,own,there,result,oidc⟩ := stored identity rfl
        rw [← later.env]
        exact oidcLinkConducted there (.identify _ _ (.inr ⟨own,result,oidc⟩))

theorem githubReceiveConducted {i : Interaction} {callback : Callback}
    (found : w.interaction uid = some i) :
    Conducted ok (GithubLogin.receive uid i callback)
      (onOk fun token t => token.isSome → ∃ text, t.happened i.chain (.githubToken text)) w := by
  have within := withinFound found
  have denying : ∀ {t : World} {description : String}, Within t uid i.chain i.carried →
      Conducted ok (accessDenied uid description >>= fun _ => .pure none)
        (onOk fun (token : Option String) t => token.isSome →
          ∃ text, t.happened i.chain (.githubToken text)) t := fun within =>
    conductedBind (denyConducted within) fun _ _ _ _ => conductedPure fun none => by cases none
  unfold GithubLogin.receive
  split
  · exact denying within
  · refine conductedAsk (.getOAuthAccessToken uid) rfl fun _ choice => ?_
    have later := serveLater choice (.getOAuthAccessToken uid) w
    cases answer : (serve choice (.getOAuthAccessToken uid) w).1 with
    | none => exact conductedThrow _
    | some text =>
        have exchanged : (serve choice (.getOAuthAccessToken uid) w).2.happened i.chain
            (.githubToken text) := by
          cases fails : choice.fails with
          | true => simp [serve,fails] at answer
          | false =>
              simp [serve,fails] at answer
              have same : choice.text = text := Option.some.inj answer
              subst same
              exact ⟨uid,by simp [serve,fails,World.log,found]⟩
        simp only
        cases held : truthy (some text) with
        | none => exact denying (later.within _ _ _ within)
        | some token =>
            have same : token = text := by
              simp only [truthy,Option.filter_eq_some_iff] at held
              exact (Option.some.inj held.1).symm
            subst same
            obtain ⟨j,there,chain',_⟩ := later.within _ _ _ within
            refine conductedBind (conductedWrite there (.oauth token (by rw [chain']; exact exchanged)) rfl) ?_
            exact fun _ v _ since => conductedPure fun _ => ⟨token,laterHappened since exchanged⟩

theorem githubPersistConducted {user : GithubUser} {emails : List EmailItem} {account : Option OidcUser}
    (within : Within w uid chain carried) (ends : endsResolved chain account w)
    (begun : w.happened chain (.githubLogin user emails)) :
    Conducted ok (GithubLogin.persist w.env user emails account) (onOk anyEnd) w := by
  cases account with
  | none => exact conductedPure trivial
  | some found =>
      refine conductedRead (githubGroupsReadOnly _) fun groups => ?_
      refine conductedBind (updateUserSpecsConducted within (ends found rfl)
        (.github user groups emails begun)) fun _ _ _ _ => conductedPure trivial

theorem githubLinkConducted {i : Interaction} (found : w.interaction uid = some i)
    (authorized : i.carried.oauth.isSome ∨ ∃ token, w.happened i.chain (.githubToken token)) :
    Conducted ok (GithubLogin.link w.env uid) (onOk anyEnd) w := by
  have within := withinFound found
  have reading : Conducted ok getGitHubEmails (onOk fun emails t => t = w ∧
      ∀ items, emails = some items → ∀ item ∈ items, item.verified = some true) w := by
    refine conductedRead nowReadOnly fun observedAt => ?_
    refine conductedAsk (.read .getGitHubEmails rfl) rfl fun _ choice => ?_
    refine conductedPure ⟨rfl,fun items same item inside => ?_⟩
    obtain ⟨all,_,rfl⟩ := Option.map_eq_some_iff.mp same
    obtain ⟨source,kept,rfl⟩ := List.mem_map.mp inside
    simpa using (List.mem_filter.mp kept).2
  refine conductedBind reading fun emails t post _ => ?_
  obtain ⟨rfl,verified⟩ := post
  cases emails with
  | none => exact denyConducted within
  | some emails =>
      refine conductedRead ⟨rfl,fun _ => trivial⟩ fun user => ?_
      cases user with
      | none => exact denyConducted within
      | some user =>
          refine conductedBind (conductedRecord found
            (.githubLogin user emails authorized (verified emails rfl))) fun _ u here later => ?_
          have begun : u.happened i.chain (.githubLogin user emails) := ⟨uid,here.1⟩
          have within' : Within u uid i.chain i.carried := withinFound here.2
          rw [← later.env]
          refine conductedBind (createOrUpdateConducted within' (.github user emails begun)) ?_
          intro account v admitted since
          have ends : endsResolved i.chain account v := fun a same => admittedResolved (admitted a same)
          have further := since.within _ _ _ within'
          rw [← since.env]
          refine conductedBind (githubPersistConducted further ends (laterHappened since begun)) ?_
          exact fun _ x _ last => finishConducted (last.within _ _ _ further) (endsLater last ends)

theorem githubLoginConducted {callback : Option Callback} :
    Conducted ok (githubLogin w.env uid callback) (onOk anyEnd) w := by
  refine conductedDetails fun i found => ?_
  split
  · rename_i token held
    refine githubLinkConducted found (.inl ?_)
    simp only [truthy,Option.filter_eq_some_iff] at held
    rw [held.1]; rfl
  · refine conductedRead randomTextReadOnly fun _ => ?_
    exact conductedMono (conductedWrite found (.state _) rfl) fun _ _ _ => trivial
  · refine conductedBind (githubReceiveConducted found) fun token t exchanged later => ?_
    cases token with
    | none => exact conductedPure trivial
    | some token =>
        obtain ⟨j,there,chain',_⟩ := later.within _ _ _ (withinFound found)
        rw [← later.env]
        exact githubLinkConducted there (.inr (by rw [chain']; exact exchanged rfl))

end Logins

section Requests
variable {ok : World → Call → Prop} {w : World} {uid chain : Nat} {carried : Submission}

theorem emailSends {address : String} : Alone serve ok (Conduct ok)
    (OidcRoutes.email w.env uid address) (fun _ t => SendsLink ok uid w t) w := by
  unfold OidcRoutes.email
  split
  · exact (aloneThrow _ _ w).mpr (.plain w .refl)
  · split
    · exact (alonePure _ _ w).mpr (.plain w .refl)
    · exact sendLinkSends

theorem emailCompleteConducted : Conducted ok (OidcRoutes.emailComplete w.env uid) (onOk anyEnd) w := by
  refine conductedDetails fun i found => ?_
  split
  · exact conductedPure trivial
  · rename_i own matched
    obtain ⟨stored,verified⟩ := Option.filter_eq_some_iff.mp matched
    exact completeLoginConducted found stored verified

theorem federatedConducted {upstream : String} {callback : Option Callback} :
    Conducted ok (OidcRoutes.federated w.env uid upstream callback) (onOk anyEnd) w := by
  refine conductedDetails fun i found => ?_
  split
  · exact conductedThrow _
  · split
    · split
      · exact conductedThrow _
      · exact githubLoginConducted
    · split
      · exact conductedThrow _
      · exact oidcLoginConducted

theorem submittedConducted {account : OidcUser} (within : Within w uid chain carried)
    (entered : ⟨chain,uid,.enterUsername account.accountId⟩ ∈ w.journal)
    (created : w.happened chain (.created account.accountId carried.email)) :
    Conducted ok (recordSubmittedMagicLinkVerification account carried)
      (onOk fun user _ => user.accountId = account.accountId) w := by
  unfold recordSubmittedMagicLinkVerification
  split
  · exact conductedPure rfl
  · rename_i submitted
    have verified : carried.emailVerified = true := by
      by_contra unset
      exact submitted (.inl (by simp [unset]))
    exact verificationConducted within ⟨_,.inr created⟩ (.submitted verified entered created)

theorem enterUsernameConducted {username : String} :
    Conducted ok (OidcRoutes.enterUsername w.env uid username) (onOk anyEnd) w := by
  refine conductedDetails fun i found => ?_
  split
  · exact conductedThrow _
  · refine conductedRead (usernameExistsReadOnly _) fun taken => ?_
    split
    · exact conductedPure trivial
    · refine conductedBind (conductedRecord found (.enterUsername username)) fun _ t here later => ?_
      have within : Within t uid i.chain i.carried := withinFound here.2
      rw [← later.env]
      have entered := here.1
      refine conductedBind (createUserConducted here.2 (.form here.1)) fun account u created since => ?_
      have within' := since.within _ _ _ within
      rw [← since.env]
      cases account with
      | none => exact conductedPure trivial
      | some account =>
          obtain ⟨same,here⟩ := created account rfl
          subst same
          have resolved : Resolved u i.chain account.accountId := ⟨_,.inr here⟩
          refine conductedBind (mutateConducted within' resolved .usernameCommitted) fun _ v _ further => ?_
          have within'' := further.within _ _ _ within'
          rw [← further.env]
          refine conductedBind (submittedConducted within''
            (further.journal.subset (since.journal.subset entered)) (laterHappened further here)) ?_
          intro user x same last
          rw [← last.env]
          split
          · exact githubLoginConducted
          · split
            · exact conductedThrow _
            · exact oidcLoginConducted
          · obtain ⟨j,there,chain',_⟩ := last.within _ _ _ within''
            refine conductedMono (conductedWrite there (.login _ _ ?_) rfl) fun _ _ _ => trivial
            rw [same,chain']
            exact laterResolved last (laterResolved further resolved)

def Request.isEmail : Request → Bool
  | .email _ _ => true
  | _ => false

theorem requestPlain (request : Request) (other : request.isEmail = false) :
    Conducted ok (request.program w.env) (onOk anyEnd) w := by
  cases request with
  | email uid address => cases other
  | verifyEmail uid token cookie => exact verifyLinkConducted
  | emailComplete uid => exact emailCompleteConducted
  | federated uid upstream callback => exact federatedConducted
  | enterUsername uid username => exact enterUsernameConducted
  | abort uid => exact conductedDetails fun i found => denyConducted (withinFound found)

theorem requestConducted (request : Request) :
    Alone serve ok (Conduct ok) (request.program w.env) (fun _ _ => True) w := by
  cases email : request.isEmail with
  | false => exact soundMono (conductedAnyway (requestPlain request email)) fun _ _ _ => trivial
  | true =>
      cases request with
      | email uid address => exact soundMono emailSends fun _ _ _ => trivial
      | _ => cases email

end Requests
end Passmower
