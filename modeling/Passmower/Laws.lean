import Passmower.Runs

/-! What one lawful call or one edit does to the interactions, to the journal and to the
accounts: the case analysis every law over runs rests on. -/
namespace Passmower
open JavaScript Resumption Ledger

structure Onward (w w' : World) : Prop where
  env : ∃ providers enrollUsers, w'.env = {w.env with providers := providers, enrollUsers := enrollUsers}
  administered : ∀ entry ∈ w.administered, entry ∈ w'.administered
  journal : w.journal <+: w'.journal

theorem laterOnward {w w' : World} (later : Later w w') : Onward w w' :=
  ⟨⟨w.env.providers,w.env.enrollUsers,later.env⟩,fun _ inside => by rw [later.administered]; exact inside,later.journal⟩

theorem onwardHappened {w w' : World} {chain what} (onward : Onward w w')
    (happened : w.happened chain what) : w'.happened chain what := by
  obtain ⟨uid,inside⟩ := happened
  exact ⟨uid,onward.journal.subset inside⟩

theorem logUsers (w : World) (uid : Nat) (what : Happening) : (w.log uid what).users = w.users := by
  unfold World.log
  split <;> rfl

theorem logJournal {w : World} {uid : Nat} {i : Interaction} {what : Happening}
    (found : w.interaction uid = some i) :
    (w.log uid what).journal = w.journal ++ [⟨i.chain,uid,what⟩] := by simp [World.log,found]

theorem logMissing {w : World} {uid : Nat} {what : Happening} (found : w.interaction uid = none) :
    w.log uid what = w := by simp [World.log,found]

/- Most calls either fail or are answered and noted in the journal. -/
section Answered
variable {β : Type} {failed : Prop} [Decidable failed] {w : World} {uid : Nat} {what : Happening} {x y : β}

theorem answeredInteraction (uid' : Nat) :
    (if failed then (x,w) else (y,w.log uid what)).2.interaction uid' = w.interaction uid' := by
  split
  · rfl
  · exact interactionLog w uid uid' what

theorem answeredUser {user : OidcUser} :
    user ∈ (if failed then (x,w) else (y,w.log uid what)).2.users ↔ user ∈ w.users := by
  split
  · rfl
  · rw [logUsers]

theorem answeredJournal : (if failed then (x,w) else (y,w.log uid what)).2.journal = w.journal ∨
    ∃ i, w.interaction uid = some i ∧
      (if failed then (x,w) else (y,w.log uid what)).2.journal = w.journal ++ [⟨i.chain,uid,what⟩] := by
  split
  · exact .inl rfl
  · cases found : w.interaction uid with
    | none => exact .inl (congrArg World.journal (logMissing found))
    | some i => exact .inr ⟨i,rfl,logJournal found⟩

end Answered

section Interactions

def Everywhere (P : World → Interaction → Prop) (w : World) : Prop :=
  ∀ uid i, w.interaction uid = some i → P w i

inductive Touched (w w' : World) : Call → Interaction → Prop
  | kept (c : Call) (uid : Nat) (i : Interaction) (found : w.interaction uid = some i) : Touched w w' c i
  | stored (uid : Nat) (i : Interaction) (literal : Literal) (merge : Bool)
      (found : w.interaction uid = some i) (writes : Writes w i literal merge)
      (marked : ∀ what, literal.mark = some what → ⟨i.chain,uid,what⟩ ∈ w'.journal) :
      Touched w w' (.interactionResult uid literal merge) (i.store w.env.mergeErrorResults literal merge)
  | saved (uid : Nat) (i : Interaction) (own : Submission) (token verifiedAt : String)
      (found : w.interaction uid = some i) (result : i.result = some own)
      (matched : own.token = some token)
      (last : w.journal.getLast? = some ⟨i.chain,uid,.presented token⟩) :
      Touched w w' (.saveInteraction uid (EmailLogin.verified own verifiedAt))
        {i with result := some (EmailLogin.verified own verifiedAt)}

theorem lawfulTouched {w : World} {c : Call} {choice : Choice} (lawful : Lawful w c) {uid : Nat}
    {j : Interaction} (found : (serve choice c w).2.interaction uid = some j) :
    Touched w (serve choice c w).2 c j := by
  cases lawful with
  | read c reads => rw [serveRead reads] at found; exact .kept _ uid j found
  | authorizationCodeGrant uid' config => exact .kept _ uid j ((answeredInteraction uid).symm.trans found)
  | fetchUserInfo uid' config => exact .kept _ uid j ((answeredInteraction uid).symm.trans found)
  | getOAuthAccessToken uid' => exact .kept _ uid j ((answeredInteraction uid).symm.trans found)
  | sendMail uid' i own token address _ _ _ =>
      exact .kept _ uid j (by simpa only [serve,interactionLog] using found)
  | record uid' i what _ _ => exact .kept _ uid j (by simpa only [serve,interactionLog] using found)
  | createUser uid' i accountId body _ _ =>
      refine .kept _ uid j ?_
      simp only [serve] at found
      split at found
      · exact found
      · rwa [interactionLog] at found
  | patchUser chain user merge _ _ _ =>
      refine .kept _ uid j ?_
      simp only [serve] at found
      split at found <;> exact found
  | mutateUserStatus uid' chain carried accountId mutation _ _ _ =>
      refine .kept _ uid j ?_
      simp only [serve] at found
      split at found <;> exact found
  | saveInteraction uid' i own token verifiedAt there result matched last =>
      simp only [serve,interactionUpdate] at found
      split at found
      · rename_i here
        subst here
        rw [there] at found
        cases Option.some.inj found
        exact .saved _ i own token verifiedAt there result matched last
      · exact .kept _ uid j found
  | interactionResult uid' i literal merge there writes =>
      by_cases here : uid' = uid
      · subst here
        rw [interactionWritten there] at found
        cases Option.some.inj found
        refine .stored _ i literal merge there writes fun what marked => ?_
        simp only [serve,marked]
        have stored := storedInteraction literal merge there
        have noted : ⟨(i.store w.env.mergeErrorResults literal merge).chain,uid',what⟩ ∈ (World.log
            (w.updateInteraction uid' (fun i => i.store w.env.mergeErrorResults literal merge))
            uid' what).journal := loggedHappened stored
        exact noted
      · refine .kept _ uid j ?_
        have other : (w.updateInteraction uid' (fun i =>
            i.store w.env.mergeErrorResults literal merge)).interaction uid = w.interaction uid := by
          rw [interactionUpdate]; simp [here]
        simp only [serve] at found
        split at found
        · rwa [interactionLog,other] at found
        · rwa [other] at found

theorem everywhereCall {P : World → Interaction → Prop} {w : World} {c : Call} {choice : Choice}
    (inv : Everywhere P w) (lawful : Lawful w c)
    (mono : ∀ i, P w i → P (serve choice c w).2 i)
    (touched : ∀ i, Touched w (serve choice c w).2 c i → (∃ uid, w.interaction uid = some i) ∨
      P (serve choice c w).2 i) : Everywhere P (serve choice c w).2 := by
  intro uid j found
  rcases touched j (lawfulTouched lawful found) with ⟨uid',old⟩ | now
  · exact mono j (inv uid' j old)
  · exact now

def Holding (P : World → Nat → Submission → Prop) (w : World) (i : Interaction) : Prop :=
  P w i.chain i.carried ∧ ∀ own, i.result = some own → P w i.chain own

theorem holdingCall {P : World → Nat → Submission → Prop} {w : World} {c : Call} {choice : Choice}
    (inv : Everywhere (Holding P) w) (lawful : Lawful w c)
    (nothing : ∀ chain, P (serve choice c w).2 chain {})
    (mono : ∀ chain s, P w chain s → P (serve choice c w).2 chain s)
    (written : ∀ uid i literal merge base, w.interaction uid = some i → Writes w i literal merge →
      (∀ what, literal.mark = some what → ⟨i.chain,uid,what⟩ ∈ (serve choice c w).2.journal) →
      P (serve choice c w).2 i.chain base →
      (∀ own, i.result = some own → P (serve choice c w).2 i.chain own) →
      P (serve choice c w).2 i.chain (literal.onto base))
    (saved : ∀ uid (i : Interaction) (own : Submission) token verifiedAt, own.token = some token →
      w.journal.getLast? = some ⟨i.chain,uid,.presented token⟩ → P (serve choice c w).2 i.chain own →
      P (serve choice c w).2 i.chain (EmailLogin.verified own verifiedAt)) :
    Everywhere (Holding P) (serve choice c w).2 := by
  apply everywhereCall inv lawful
  · exact fun i held => ⟨mono _ _ held.1,fun own result => mono _ _ (held.2 own result)⟩
  · intro j touched
    cases touched with
    | kept c uid i found => exact .inl ⟨uid,found⟩
    | stored uid i literal merge found writes marked =>
        have held := inv uid i found
        have base : P (serve choice (.interactionResult uid literal merge) w).2 i.chain
            (i.base w.env.mergeErrorResults literal merge) := by
          unfold Interaction.base
          split
          · exact mono _ _ held.1
          · exact nothing _
        refine .inr ⟨mono _ _ held.1,fun own result => ?_⟩
        cases Option.some.inj result
        exact written uid i literal merge _ found writes marked base fun r same => mono _ _ (held.2 r same)
    | saved uid i own token verifiedAt found result matched last =>
        have held := inv uid i found
        refine .inr ⟨mono _ _ held.1,fun r same => ?_⟩
        cases Option.some.inj same
        exact saved uid i own token verifiedAt matched last (mono _ _ (held.2 own result))

end Interactions

section Journal

inductive Logs (w : World) (uid : Nat) (i : Interaction) : Call → Happening → Prop
  | mailed (token address : String) (own : Submission) (stored : i.result = some own)
      (kept : own.token = some token ∧ own.email = some address) :
      Logs w uid i (.sendMail uid token address) (.mailed token address)
  | granted (config : ProviderConfig) (claims : Object) :
      Logs w uid i (.authorizationCodeGrant uid config) (.granted config claims)
  | userInfo (config : ProviderConfig) (claims : Object) :
      Logs w uid i (.fetchUserInfo uid config) (.userInfo config claims)
  | githubToken (token : String) : Logs w uid i (.getOAuthAccessToken uid) (.githubToken token)
  | record (what : Happening) (records : Records w uid i what) : Logs w uid i (.record uid what) what
  | written (literal : Literal) (merge : Bool) (what : Happening) (writes : Writes w i literal merge)
      (marked : literal.mark = some what) : Logs w uid i (.interactionResult uid literal merge) what
  | created (accountId : String) (body : NewUser) (enrols : Enrols w uid i accountId body)
      (free : w.user accountId = none) :
      Logs w uid i (.createUser uid accountId body) (.created accountId body.email)

theorem lawfulLogs {w : World} {c : Call} (choice : Choice) (lawful : Lawful w c) :
    (serve choice c w).2.journal = w.journal ∨ ∃ uid i what, w.interaction uid = some i ∧
      Logs w uid i c what ∧ (serve choice c w).2.journal = w.journal ++ [⟨i.chain,uid,what⟩] := by
  cases lawful with
  | read c reads => rw [serveRead reads]; exact .inl rfl
  | authorizationCodeGrant uid config =>
      exact answeredJournal.imp_right fun ⟨i,found,noted⟩ => ⟨uid,i,_,found,.granted config _,noted⟩
  | fetchUserInfo uid config =>
      exact answeredJournal.imp_right fun ⟨i,found,noted⟩ => ⟨uid,i,_,found,.userInfo config _,noted⟩
  | getOAuthAccessToken uid =>
      exact answeredJournal.imp_right fun ⟨i,found,noted⟩ => ⟨uid,i,_,found,.githubToken _,noted⟩
  | sendMail uid i own token address found stored kept =>
      exact .inr ⟨uid,i,_,found,.mailed token address own stored kept,logJournal found⟩
  | record uid i what found records => exact .inr ⟨uid,i,what,found,.record what records,logJournal found⟩
  | saveInteraction uid i own token verifiedAt _ _ _ _ => exact .inl rfl
  | createUser uid i accountId body found enrols =>
      simp only [serve]
      split
      · exact .inl rfl
      · rename_i accepted
        have free : w.user accountId = none := by simpa using fun taken => accepted (.inr taken)
        exact .inr ⟨uid,i,_,found,.created accountId body enrols free,logJournal found⟩
  | patchUser chain user merge _ _ _ =>
      simp only [serve]
      split <;> exact .inl rfl
  | mutateUserStatus uid chain carried accountId mutation _ _ _ =>
      simp only [serve]
      split <;> exact .inl rfl
  | interactionResult uid i literal merge found writes =>
      have stored := storedInteraction literal merge found
      simp only [serve]
      cases marked : literal.mark with
      | none => exact .inl rfl
      | some what =>
          have noted : (World.log (w.updateInteraction uid (fun i =>
              i.store w.env.mergeErrorResults literal merge)) uid what).journal =
              w.journal ++ [⟨(i.store w.env.mergeErrorResults literal merge).chain,uid,what⟩] :=
            logJournal stored
          exact .inr ⟨uid,i,what,found,.written literal merge what writes marked,noted⟩

theorem justifiedCall {J : List Event → Event → Prop} {w : World} {c : Call} {choice : Choice}
    (inv : Justified J w.journal) (lawful : Lawful w c)
    (logs : ∀ uid i what, w.interaction uid = some i → Logs w uid i c what →
      J w.journal ⟨i.chain,uid,what⟩) : Justified J (serve choice c w).2.journal := by
  rcases lawfulLogs choice lawful with same | ⟨uid,i,what,found,logged,same⟩
  · rw [same]; exact inv
  · rw [same]; exact justifiedAppend inv (logs uid i what found logged)

end Journal

section Accounts

inductive Account (w w' : World) : Call → OidcUser → Prop
  | kept (c : Call) (user : OidcUser) (member : user ∈ w.users) : Account w w' c user
  | created (uid : Nat) (i : Interaction) (accountId : String) (body : NewUser) (time : Nat)
      (found : w.interaction uid = some i) (enrols : Enrols w uid i accountId body)
      (free : w.user accountId = none)
      (logged : ⟨i.chain,uid,.created accountId body.email⟩ ∈ w'.journal) :
      Account w w' (.createUser uid accountId body) (body.resource accountId time)
  | patched (chain : Nat) (user : OidcUser) (merge : Specs → Specs) (merges : Merges w chain merge)
      (resolved : Resolved w chain user.accountId) (found : w.user user.accountId = some user) :
      Account w w' (.patchUser user.accountId (merge user.toSpecs) user.toSpecs)
        (user.toSpecs.patch (merge user.toSpecs) user)
  | restated (uid chain : Nat) (carried : Submission) (user : OidcUser) (mutation : StatusMutation)
      (within : Within w uid chain carried) (resolved : Resolved w chain user.accountId)
      (found : w.user user.accountId = some user) (mutates : Mutates w uid chain carried user.accountId mutation) :
      Account w w' (.mutateUserStatus user.accountId mutation) (user.restated w.env mutation)

theorem userMember {w : World} {accountId user} (found : w.user accountId = some user) :
    user ∈ w.users := List.mem_of_find?_eq_some found

theorem updateUserMember {w : World} {accountId : String} {f : OidcUser → OidcUser} {user : OidcUser}
    (member : user ∈ (w.updateUser accountId f).users) :
    user ∈ w.users ∨ ∃ old, w.user accountId = some old ∧ user = f old := updateFirstMember member

theorem lawfulAccount {w : World} {c : Call} {choice : Choice} (lawful : Lawful w c) {user : OidcUser}
    (member : user ∈ (serve choice c w).2.users) : Account w (serve choice c w).2 c user := by
  cases lawful with
  | read c reads => rw [serveRead reads] at member; exact .kept _ user member
  | authorizationCodeGrant uid config => exact .kept _ user (answeredUser.mp member)
  | fetchUserInfo uid config => exact .kept _ user (answeredUser.mp member)
  | getOAuthAccessToken uid => exact .kept _ user (answeredUser.mp member)
  | sendMail uid i own token address _ _ _ => exact .kept _ user (by simpa only [serve,logUsers] using member)
  | record uid i what _ _ => exact .kept _ user (by simpa only [serve,logUsers] using member)
  | saveInteraction uid i own token verifiedAt _ _ _ _ => exact .kept _ user member
  | interactionResult uid i literal merge _ _ =>
      refine .kept _ user ?_
      simp only [serve] at member
      split at member
      · rwa [logUsers] at member
      · exact member
  | createUser uid i accountId body found enrols =>
      by_cases refused : choice.fails = true ∨ (w.user accountId).isSome
      · refine .kept _ user ?_
        simpa only [serve,if_pos refused] using member
      · have logged : ⟨i.chain,uid,.created accountId body.email⟩ ∈
            (serve choice (.createUser uid accountId body) w).2.journal := by
          simp only [serve,if_neg refused]
          exact loggedHappened found
        have free : w.user accountId = none := by
          simpa using fun taken => refused (.inr taken)
        simp only [serve,if_neg refused,logUsers] at member
        rcases List.mem_append.mp member with old | new
        · exact .kept _ user old
        · cases List.mem_singleton.mp new
          exact .created uid i accountId body choice.time found enrols free logged
  | patchUser chain account merge merges resolved found =>
      simp only [serve] at member
      split at member
      · exact .kept _ user member
      · rcases updateUserMember member with old | ⟨old,same,rfl⟩
        · exact .kept _ user old
        · cases found.symm.trans same
          exact .patched chain account merge merges resolved found
  | mutateUserStatus uid chain carried accountId mutation within resolved mutates =>
      simp only [serve] at member
      split at member
      · exact .kept _ user member
      · rcases updateUserMember member with old | ⟨old,same,rfl⟩
        · exact .kept _ user old
        · obtain rfl := userAccountId same
          exact .restated uid chain carried old mutation within resolved same mutates

end Accounts

section Edits

theorem editJournal {w : World} {m : Move} (edit : m.isRequest = false) :
    (w.step m).journal = w.journal := by
  cases m with
  | request request choices => cases edit
  | resume uid prompt => simp only [World.step,World.resume]; split <;> rfl
  | invite accountId address time => simp only [World.step,World.invite]; split <;> rfl
  | administer accountId spec => simp only [World.step,World.administer]; split <;> rfl
  | _ => rfl

theorem editEnv {w : World} {m : Move} (edit : m.isRequest = false) :
    ∃ providers enrollUsers,
      (w.step m).env = {w.env with providers := providers, enrollUsers := enrollUsers} := by
  cases m with
  | request request choices => cases edit
  | configure providers => exact ⟨providers,w.env.enrollUsers,rfl⟩
  | restart enrollUsers => exact ⟨w.env.providers,enrollUsers,rfl⟩
  | resume uid prompt =>
      exact ⟨w.env.providers,w.env.enrollUsers,by simp only [World.step,World.resume]; split <;> rfl⟩
  | invite accountId address time =>
      exact ⟨w.env.providers,w.env.enrollUsers,by simp only [World.step,World.invite]; split <;> rfl⟩
  | administer accountId spec =>
      exact ⟨w.env.providers,w.env.enrollUsers,by simp only [World.step,World.administer]; split <;> rfl⟩
  | _ => exact ⟨w.env.providers,w.env.enrollUsers,rfl⟩

theorem editAdministered {w : World} {m : Move} (edit : m.isRequest = false) {entry : String × String}
    (inside : entry ∈ w.administered) : entry ∈ (w.step m).administered := by
  cases m with
  | request request choices => cases edit
  | resume uid prompt => simp only [World.step,World.resume]; split <;> exact inside
  | invite accountId address time =>
      simp only [World.step,World.invite]
      split
      · exact inside
      · exact List.mem_append_left _ inside
  | administer accountId spec =>
      simp only [World.step,World.administer]
      split <;> exact List.mem_append_left _ inside
  | _ => exact inside

theorem editOnward {w : World} {m : Move} (edit : m.isRequest = false) : Onward w (w.step m) :=
  ⟨editEnv edit,fun _ => editAdministered edit,(editJournal edit).symm ▸ List.prefix_rfl⟩

inductive Edited (w w' : World) : OidcUser → Prop
  | kept (user : OidcUser) (member : user ∈ w.users) : Edited w w' user
  | active (user : OidcUser) (key : String) (active : Bool) (member : user ∈ w.users) :
      Edited w w' (user.withActive key active)
  | restated (user : OidcUser) (member : user ∈ w.users) : Edited w w' (user.restated w.env .none)
  | invited (accountId address : String) (time : Nat)
      (listed : (accountId,address) ∈ w'.administered) (env : w'.env = w.env) :
      Edited w w' (OidcUser.restated w.env .none
        (NewUser.resource accountId time ⟨some address,none,none,none⟩))
  | administered (user : OidcUser) (spec : AdminSpec) (member : user ∈ w.users)
      (listed : ∀ a ∈ spec.addresses, (user.accountId,a) ∈ w'.administered) :
      Edited w w' {user with spec := spec}
  | added (accountId : String) (spec : AdminSpec)
      (listed : ∀ a ∈ spec.addresses, (accountId,a) ∈ w'.administered) :
      Edited w w' {accountId := accountId, spec := spec}

theorem editAccount {w : World} {m : Move} (edit : m.isRequest = false) {user : OidcUser}
    (member : user ∈ (w.step m).users) : Edited w (w.step m) user := by
  cases m with
  | request request choices => cases edit
  | start prompt => exact .kept user member
  | configure providers => exact .kept user member
  | restart enrollUsers => exact .kept user member
  | resume uid prompt =>
      apply Edited.kept
      simp only [World.step,World.resume] at member
      split at member <;> exact member
  | setActive accountId key active =>
      rcases updateUserMember member with old | ⟨old,found,rfl⟩
      · exact .kept user old
      · exact .active old key active (userMember found)
  | reconcile accountId =>
      rcases updateUserMember member with old | ⟨old,found,rfl⟩
      · exact .kept user old
      · exact .restated old (userMember found)
  | invite accountId address time =>
      simp only [World.step,World.invite] at member ⊢
      split at member
      · exact .kept user member
      · rename_i free
        rw [if_neg free]
        rcases List.mem_append.mp member with old | new
        · exact .kept user old
        · cases List.mem_singleton.mp new
          exact .invited accountId address time (List.mem_append_right _ (List.mem_singleton_self _)) rfl
  | administer accountId spec =>
      have listed : ∀ a ∈ spec.addresses,
          (accountId,a) ∈ (w.step (.administer accountId spec)).administered := by
        intro a inside
        have named : (accountId,a) ∈ w.administered ++ spec.addresses.map (fun a => (accountId,a)) :=
          List.mem_append_right _ (List.mem_map_of_mem inside)
        simp only [World.step,World.administer]
        split <;> exact named
      generalize moved : w.step (.administer accountId spec) = w' at member listed ⊢
      simp only [World.step,World.administer] at moved
      split at moved
      · subst moved
        rcases updateUserMember member with old | ⟨old,found,rfl⟩
        · exact .kept user old
        · obtain rfl := userAccountId found
          exact .administered old spec (userMember found) listed
      · subst moved
        rcases List.mem_append.mp member with old | new
        · exact .kept user old
        · cases List.mem_singleton.mp new
          exact .added accountId spec listed

theorem appendedInteraction {items : List Interaction} {new j : Interaction} {uid : Nat}
    (found : (items ++ [new])[uid]? = some j) : items[uid]? = some j ∨ j = new := by
  rw [List.getElem?_append] at found
  split at found
  · exact .inl found
  · exact .inr (List.mem_singleton.mp (List.mem_of_getElem? found))

theorem editWithin {w : World} {m : Move} (edit : m.isRequest = false) {uid chain : Nat}
    {carried : Submission} (within : Within w uid chain carried) : Within (w.step m) uid chain carried := by
  obtain ⟨i,found,same,held⟩ := within
  have kept : ∀ new, (w.interactions ++ [new])[uid]? = some i := fun new => by
    obtain ⟨inside,_⟩ := List.getElem?_eq_some_iff.mp found
    rw [List.getElem?_append_left inside]
    exact found
  refine ⟨i,?_,same,held⟩
  cases m with
  | request request choices => cases edit
  | start prompt => exact kept _
  | resume uid' prompt =>
      simp only [World.step,World.resume]
      split
      · exact kept _
      · exact found
  | invite accountId address time =>
      simp only [World.step,World.invite]
      split <;> exact found
  | administer accountId spec =>
      simp only [World.step,World.administer]
      split <;> exact found
  | _ => exact found

theorem editInteraction {w : World} {m : Move} (edit : m.isRequest = false) {uid : Nat}
    {j : Interaction} (found : (w.step m).interaction uid = some j) :
    (∃ uid', w.interaction uid' = some j) ∨ (∃ chain prompt, j = ⟨chain,prompt,none,none⟩) ∨
      ∃ uid' i prompt, w.interaction uid' = some i ∧ j = i.resume prompt := by
  cases m with
  | request request choices => cases edit
  | start prompt =>
      rcases appendedInteraction found with old | rfl
      · exact .inl ⟨uid,old⟩
      · exact .inr (.inl ⟨_,prompt,rfl⟩)
  | resume uid' prompt =>
      simp only [World.step,World.resume] at found
      split at found
      · rename_i i there
        rcases appendedInteraction found with old | rfl
        · exact .inl ⟨uid,old⟩
        · exact .inr (.inr ⟨uid',i,prompt,there,rfl⟩)
      · exact .inl ⟨uid,found⟩
  | invite accountId address time =>
      refine .inl ⟨uid,?_⟩
      simp only [World.step,World.invite] at found
      split at found <;> exact found
  | administer accountId spec =>
      refine .inl ⟨uid,?_⟩
      simp only [World.step,World.administer] at found
      split at found <;> exact found
  | _ => exact .inl ⟨uid,found⟩

theorem everywhereEdit {P : World → Interaction → Prop} {w : World} {m : Move}
    (inv : Everywhere P w) (edit : m.isRequest = false) (mono : ∀ i, P w i → P (w.step m) i)
    (start : ∀ chain prompt, P (w.step m) ⟨chain,prompt,none,none⟩)
    (resume : ∀ i prompt, P (w.step m) i → P (w.step m) (i.resume prompt)) :
    Everywhere P (w.step m) := by
  intro uid j found
  rcases editInteraction edit found with ⟨uid',old⟩ | ⟨chain,prompt,rfl⟩ | ⟨uid',i,prompt,old,rfl⟩
  · exact mono j (inv uid' j old)
  · exact start chain prompt
  · exact resume i prompt (mono i (inv uid' i old))

theorem holdingEdit {P : World → Nat → Submission → Prop} {w : World} {m : Move}
    (inv : Everywhere (Holding P) w) (edit : m.isRequest = false)
    (nothing : ∀ chain, P (w.step m) chain {})
    (mono : ∀ chain s, P w chain s → P (w.step m) chain s) : Everywhere (Holding P) (w.step m) := by
  apply everywhereEdit inv edit
  · exact fun i held => ⟨mono _ _ held.1,fun own result => mono _ _ (held.2 own result)⟩
  · exact fun chain prompt => ⟨nothing chain,fun own none => by cases none⟩
  · intro i prompt held
    refine ⟨?_,fun own none => by cases none⟩
    cases result : i.result with
    | none => simpa [Interaction.resume,Interaction.carried,result] using nothing i.chain
    | some own => simpa [Interaction.resume,Interaction.carried,result] using held.2 own result

end Edits
end Passmower
