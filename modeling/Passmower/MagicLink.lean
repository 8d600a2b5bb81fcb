import Passmower.Provenance

/-! The binding of a magic link to its address. The proof of possession is a flag kept beside
an address in the submission; a write that keeps the flag, or the token, and replaces the
address breaks the binding. Where every write keeps them together, `completeLogin` is only
invoked with an address whose own link was presented. -/
namespace Passmower
open JavaScript Resumption Ledger

def Possessed (log : List Event) (chain : Nat) (address : String) : Prop :=
  ∃ token uid uid', Precedes log ⟨chain,uid,.mailed token address⟩ ⟨chain,uid',.presented token⟩

def Happening.mails (token address : String) : Happening → Bool
  | .mailed t a => t = token ∧ a = address
  | _ => false

def possessedBy (chain : Nat) (address : String) : List Event → List Event → Bool
  | _,[] => false
  | before,event :: rest =>
      (match event.what with
        | .presented token => event.chain = chain && before.any (fun mail =>
            mail.chain = chain && mail.what.mails token address)
        | _ => false) || possessedBy chain address (before ++ [event]) rest

theorem mailsSource {what : Happening} {token address : String} (mails : what.mails token address = true) :
    what = .mailed token address := by
  cases what with
  | mailed t a =>
      obtain ⟨rfl,rfl⟩ : t = token ∧ a = address := by simpa [Happening.mails] using mails
      rfl
  | _ => cases mails

theorem possessedByIff (chain : Nat) (address : String) (before rest : List Event) :
    possessedBy chain address before rest = true ↔ ∃ token uid uid' middle later,
      rest = middle ++ ⟨chain,uid',.presented token⟩ :: later ∧
      ⟨chain,uid,.mailed token address⟩ ∈ before ++ middle := by
  induction rest generalizing before with
  | nil => simp [possessedBy]
  | cons event rest ih =>
      simp only [possessedBy,Bool.or_eq_true,ih]
      constructor
      · rintro (here | ⟨token,uid,uid',middle,later,rfl,mailed⟩)
        · split at here
          · rename_i token presented
            simp only [Bool.and_eq_true,decide_eq_true_eq,List.any_eq_true] at here
            obtain ⟨rfl,⟨c,uid,what⟩,inside,same,mails⟩ := here
            obtain rfl : c = event.chain := same
            obtain rfl := mailsSource mails
            obtain ⟨c,uid',what⟩ := event
            obtain rfl : what = .presented token := presented
            exact ⟨token,uid,uid',[],rest,rfl,by simpa using inside⟩
          · cases here
        · exact ⟨token,uid,uid',event :: middle,later,rfl,by simpa using mailed⟩
      · rintro ⟨token,uid,uid',middle,later,same,mailed⟩
        cases middle with
        | nil =>
            obtain ⟨rfl,rfl⟩ := List.cons.inj same
            left
            simp only [Bool.and_eq_true,decide_eq_true_eq,List.any_eq_true,true_and]
            exact ⟨_,by simpa using mailed,rfl,by simp [Happening.mails]⟩
        | cons first middle =>
            obtain ⟨rfl,rfl⟩ := List.cons.inj same
            exact .inr ⟨token,uid,uid',middle,later,rfl,by simpa using mailed⟩

instance (log : List Event) (chain : Nat) (address : String) : Decidable (Possessed log chain address) := by
  apply decidable_of_iff (possessedBy chain address [] log = true)
  rw [possessedByIff]
  constructor
  · rintro ⟨token,uid,uid',middle,later,same,mailed⟩
    exact ⟨token,uid,uid',middle,later,same,mailed⟩
  · rintro ⟨token,uid,uid',before,later,same,mailed⟩
    exact ⟨token,uid,uid',before,later,same,mailed⟩

def Possession (log : List Event) (entry : Event) : Prop := match entry.what with
  | .completeLogin email => ∃ address, email = some address ∧ Possessed log entry.chain address
  | _ => True

structure Bound (w : World) (chain : Nat) (s : Submission) : Prop where
  token : ∀ token, s.token = some token →
    ∃ address, s.email = some address ∧ w.happened chain (.mailed token address)
  verified : s.emailVerified = true → ∃ address, s.email = some address ∧ Possessed w.journal chain address

structure Covers (s base : Submission) : Prop where
  token : base.token.isSome → s.token.isSome
  verified : base.emailVerified = true → s.emailVerified = true

structure MailBound (w : World) (i : Interaction) : Prop where
  carried : Bound w i.chain i.carried
  stored : ∀ own, i.result = some own → Bound w i.chain own
  covers : ∀ own, i.result = some own → (w.env.mergeErrorResults || own.error.isNone) = true →
    own.email.isSome ∨ own.requireCustomUsername = true → Covers own i.carried

def Literal.keepsProof (base : Submission) : Literal → Prop
  | .link email _ => base.emailVerified = true → base.email = some email
  | .usernameRequest own email _ _ _ => (own.bind (·.email)).isSome ∨
      (base.token.isSome ∨ base.emailVerified = true → base.email = email)
  | _ => True

instance (base literal) : Decidable (Literal.keepsProof base literal) := by
  unfold Literal.keepsProof; split <;> infer_instance

def proofKept (w : World) : Call → Prop
  | .interactionResult uid literal merge =>
      ∀ i ∈ w.interaction uid, literal.keepsProof (i.base w.env.mergeErrorResults literal merge)
  | _ => True

instance (w c) : Decidable (proofKept w c) := by unfold proofKept; split <;> infer_instance

section Bindings
variable {w w' : World} {chain : Nat}

theorem possessedLater {log log' : List Event} {address : String} (grown : log <+: log')
    (possessed : Possessed log chain address) : Possessed log' chain address := by
  obtain ⟨token,uid,uid',precedes⟩ := possessed
  exact ⟨token,uid,uid',precedesLater grown precedes⟩

theorem boundNothing (w : World) (chain : Nat) : Bound w chain {} where
  token token held := by cases held
  verified flag := by cases flag

theorem boundLater {s : Submission} (onward : Onward w w') (bound : Bound w chain s) :
    Bound w' chain s := by
  refine ⟨fun token held => ?_,fun flag => ?_⟩
  · obtain ⟨address,email,mailed⟩ := bound.token token held
    exact ⟨address,email,onwardHappened onward mailed⟩
  · obtain ⟨address,email,possessed⟩ := bound.verified flag
    exact ⟨address,email,possessedLater onward.journal possessed⟩

theorem mailBoundLater {i : Interaction} (onward : Onward w w') (bound : MailBound w i) :
    MailBound w' i := by
  obtain ⟨providers,enrollUsers,env⟩ := onward.env
  refine ⟨boundLater onward bound.carried,fun own result => boundLater onward (bound.stored own result),?_⟩
  intro own result merged
  rw [env] at merged
  exact bound.covers own result merged

theorem boundEmpty {s : Submission} (bound : Bound w chain s) (empty : s.email = none) :
    s.token = none ∧ s.emailVerified = false := by
  constructor
  · by_contra held
    obtain ⟨token,held⟩ := Option.ne_none_iff_exists'.mp held
    obtain ⟨address,email,_⟩ := bound.token token held
    rw [empty] at email; cases email
  · by_contra flag
    obtain ⟨address,email,_⟩ := bound.verified (by simpa using flag)
    rw [empty] at email; cases email

theorem boundOver {extra base : Submission} (own : Bound w chain extra)
    (covers : extra.email.isSome → Covers extra base)
    (rest : extra.email = none → Bound w chain base) : Bound w chain (extra.onto base) := by
  cases email : extra.email with
  | none =>
      have below := rest email
      obtain ⟨token,flag⟩ := boundEmpty own email
      refine ⟨fun t held => ?_,fun verified => ?_⟩
      · simpa [Submission.onto,email] using below.token t (by simpa [Submission.onto,token] using held)
      · simpa [Submission.onto,email] using below.verified (by simpa [Submission.onto,flag] using verified)
  | some address =>
      have covered := covers (by rw [email]; rfl)
      refine ⟨fun t held => ?_,fun verified => ?_⟩
      · have here : extra.token = some t := by
          cases token : extra.token with
          | some t' => simpa [Submission.onto,token] using held
          | none =>
              have below : base.token = some t := by simpa [Submission.onto,token] using held
              have there := covered.token (by rw [below]; rfl)
              rw [token] at there; cases there
        simpa [Submission.onto,email] using own.token t here
      · have here : extra.emailVerified = true := by
          rcases Bool.or_eq_true_iff.mp verified with own | carried
          · exact own
          · exact covered.verified carried
        simpa [Submission.onto,email] using own.verified here

theorem coversOnto (extra base : Submission) : Covers (extra.onto base) base where
  token held := by
    cases own : extra.token with
    | some token => simp [Submission.onto,own]
    | none => simpa [Submission.onto,own] using held
  verified flag := by simp [Submission.onto,flag]

end Bindings

section Writes
variable {w : World} {i : Interaction} {merge : Bool}

theorem coversUnproven {s base : Submission} (token : base.token = none)
    (flag : base.emailVerified = false) : Covers s base where
  token held := by rw [token] at held; cases held
  verified held := by rw [flag] at held; cases held

theorem baseCases (e : Bool) (i : Interaction) (literal : Literal) (merge : Bool) :
    i.base e literal merge = i.carried ∨ i.base e literal merge = {} := by
  unfold Interaction.base
  split
  · exact .inl rfl
  · exact .inr rfl

theorem baseBound (bound : MailBound w i) (e : Bool) (literal : Literal) (merge : Bool) :
    Bound w i.chain (i.base e literal merge) := by
  rcases baseCases e i literal merge with same | same
  · rw [same]; exact bound.carried
  · rw [same]; exact boundNothing _ _

structure Literal.Neutral (literal : Literal) : Prop where
  email : ∀ base, (literal.onto base).email = base.email
  token : ∀ base, (literal.onto base).token = base.token
  verified : ∀ base, (literal.onto base).emailVerified = base.emailVerified
  request : ∀ base, (literal.onto base).requireCustomUsername = base.requireCustomUsername

theorem neutralBound {literal : Literal} (neutral : literal.Neutral) (bound : MailBound w i) :
    MailBound w (i.store w.env.mergeErrorResults literal merge) := by
  have base := baseBound bound w.env.mergeErrorResults literal merge
  refine ⟨bound.carried,fun own result => ?_,fun own result _ present => ?_⟩
  · cases Option.some.inj result
    refine ⟨fun token held => ?_,fun flag => ?_⟩
    · rw [neutral.token] at held
      rw [neutral.email]
      exact base.token token held
    · rw [neutral.verified] at flag
      rw [neutral.email]
      exact base.verified flag
  · cases Option.some.inj result
    rw [neutral.email,neutral.request] at present
    rcases baseCases w.env.mergeErrorResults i literal merge with all | empty
    · rw [all]
      exact ⟨fun held => by rw [neutral.token]; exact held,fun held => by rw [neutral.verified]; exact held⟩
    · rw [empty] at present
      rcases present with none | none <;> cases none

theorem ownCovers (bound : MailBound w i) (literal : Literal)
    (error : (literal.onto {}).error = (i.result.getD {}).error)
    (present : (i.result.getD {}).email.isSome) :
    Covers (i.result.getD {}) (i.base w.env.mergeErrorResults literal true) := by
  cases held : i.result with
  | none => rw [held] at present; cases present
  | some own =>
      rw [held] at present error
      unfold Interaction.base
      split
      · rename_i merged
        rw [error] at merged
        exact bound.covers own held (by simpa using merged) (.inl present)
      · exact coversUnproven rfl rfl

theorem ownBound (bound : MailBound w i) : Bound w i.chain (i.result.getD {}) := by
  cases held : i.result with
  | none => exact boundNothing _ _
  | some own => exact bound.stored own held

theorem requestBound {email : Option String} {githubEmails : Option (List EmailItem)}
    {preferredUsername : Option String} {identity : StableIdentity} {literal : Literal}
    (request : literal = .usernameRequest i.result email githubEmails preferredUsername identity)
    (bound : MailBound w i)
    (kept : literal.keepsProof (i.base w.env.mergeErrorResults literal true)) :
    MailBound w (i.store w.env.mergeErrorResults literal true) := by
  have base := baseBound bound w.env.mergeErrorResults literal true
  have error : (literal.onto {}).error = (i.result.getD {}).error := by
    subst request; simp [Literal.onto,Submission.onto]
  have covers := ownCovers bound literal error
  have merged : (literal.onto (i.base w.env.mergeErrorResults literal true)).error.isNone = true →
      (i.result.getD {}).error.isNone = true := by
    subst request
    simp only [Literal.onto,Submission.onto]
    cases (i.result.getD {}).error <;> simp
  refine ⟨bound.carried,fun own result => ?_,fun own result all _ => ?_⟩
  · cases Option.some.inj result
    generalize i.base w.env.mergeErrorResults literal true = b at base covers kept ⊢
    subst request
    refine boundOver (ownBound bound) (fun present => ?_) (fun empty => ?_)
    · exact ⟨(covers present).token,(covers present).verified⟩
    · -- The own result holds no address, so the request keeps the proof for its own.
      have same : b.token.isSome ∨ b.emailVerified = true → b.email = email := by
        rcases kept with present | same
        · cases held : i.result with
          | none => rw [held] at present; cases present
          | some own => rw [held] at present empty; simp_all
        · exact same
      refine ⟨fun token held => ?_,fun flag => ?_⟩
      · have some : b.token.isSome := by rw [show b.token = some token from held]; rfl
        exact same (.inl some) ▸ base.token token held
      · exact same (.inr flag) ▸ base.verified flag
  · cases Option.some.inj result
    have carried : i.base w.env.mergeErrorResults literal true = i.carried := by
      unfold Interaction.base
      rw [error,if_pos]
      rcases Bool.or_eq_true_iff.mp all with on | off
      · simp [on]
      · simp [merged off]
    rw [carried]
    subst request
    have covers := coversOnto (i.result.getD {}) {i.carried with
      requireCustomUsername := true, email := email, githubEmails := githubEmails,
      preferredUsername := preferredUsername, stableIdentity := some identity}
    exact ⟨covers.token,covers.verified⟩

theorem resultBound {own : Submission} (bound : MailBound w i) (stored : i.result = some own)
    (requested : own.requireCustomUsername = true) (accepted : own.error = none) :
    MailBound w (i.store w.env.mergeErrorResults (.result own) merge) := by
  have covers := bound.covers own stored (by simp [accepted]) (.inr requested)
  have below : Covers own (i.base w.env.mergeErrorResults (.result own) merge) := by
    rcases baseCases w.env.mergeErrorResults i (.result own) merge with same | same
    · rw [same]; exact covers
    · rw [same]; exact coversUnproven rfl rfl
  refine ⟨bound.carried,fun r result => ?_,fun r result _ _ => ?_⟩
  · cases Option.some.inj result
    exact boundOver (bound.stored own stored) (fun _ => below) (fun _ => baseBound bound _ _ _)
  · cases Option.some.inj result
    refine ⟨fun held => ?_,fun held => ?_⟩
    · obtain ⟨token,own⟩ := Option.isSome_iff_exists.mp (covers.token held)
      simp [Literal.onto,Submission.onto,own]
    · simp [Literal.onto,Submission.onto,covers.verified held]

theorem writtenBound {literal : Literal} (bound : MailBound w i) {v : World}
    (writes : Writes v i literal merge) {uid : Nat}
    (plain : (Call.interactionResult uid literal merge).links = false)
    (kept : literal.keepsProof (i.base w.env.mergeErrorResults literal merge)) :
    MailBound w (i.store w.env.mergeErrorResults literal merge) := by
  cases writes with
  | link email token => cases plain
  | usernameRequest email githubEmails preferredUsername identity _ _ => exact requestBound rfl bound kept
  | result own _ stored requested accepted => exact resultBound bound stored requested accepted
  | _ => exact neutralBound ⟨fun _ => rfl,fun _ => rfl,fun _ => rfl,fun _ => rfl⟩ bound

theorem linkBound {email token : String} (bound : MailBound w i)
    (mailed : w.happened i.chain (.mailed token email))
    (kept : i.carried.emailVerified = true → i.carried.email = some email) :
    MailBound w (i.store w.env.mergeErrorResults (.link email token) true) := by
  have carried : i.base w.env.mergeErrorResults (.link email token) true = i.carried := by
    simp [Interaction.base,Literal.onto]
  refine ⟨bound.carried,fun own result => ?_,fun own result _ _ => ?_⟩
  · cases Option.some.inj result
    rw [carried]
    refine ⟨fun t held => ?_,fun flag => ?_⟩
    · cases Option.some.inj held
      exact ⟨email,rfl,mailed⟩
    · obtain ⟨address,same,possessed⟩ := bound.carried.verified flag
      cases (kept flag).symm.trans same
      exact ⟨email,rfl,possessed⟩
  · cases Option.some.inj result
    rw [carried]
    exact ⟨fun _ => rfl,id⟩

theorem savedBound {own : Submission} {token : String} {uid : Nat} (verifiedAt : String) (bound : MailBound w i)
    (stored : i.result = some own) (matched : own.token = some token)
    (last : w.journal.getLast? = some ⟨i.chain,uid,.presented token⟩) :
    MailBound w {i with result := some (EmailLogin.verified own verifiedAt)} := by
  refine ⟨bound.carried,fun r result => ?_,fun r result merged present => ?_⟩
  · cases Option.some.inj result
    refine ⟨(bound.stored own stored).token,fun _ => ?_⟩
    obtain ⟨address,email,uid',mailed⟩ := (bound.stored own stored).token token matched
    obtain ⟨log,journal⟩ := List.getLast?_eq_some_iff.mp last
    rw [journal] at mailed
    have before : ⟨i.chain,uid',.mailed token address⟩ ∈ log := by
      rcases List.mem_append.mp mailed with inside | new
      · exact inside
      · cases List.mem_singleton.mp new
    exact ⟨address,email,token,uid',uid,by rw [journal]; exact precedesLast before _⟩
  · cases Option.some.inj result
    have covers := bound.covers own stored merged present
    exact ⟨covers.token,fun _ => rfl⟩

end Writes

structure MailLaw (w : World) : Prop where
  bound : Everywhere MailBound w
  possession : Justified Possession w.journal

theorem mailLogged {w : World} (inv : MailLaw w) {uid : Nat} {i : Interaction} {c : Call}
    {what : Happening} (found : w.interaction uid = some i) (logs : Logs w uid i c what) :
    Possession w.journal ⟨i.chain,uid,what⟩ := by
  cases logs with
  | written literal merge what writes marked =>
      rcases markSource marked with ⟨rfl,_⟩ | ⟨accountId,rfl⟩ <;> trivial
  | record what records =>
      cases records with
      | completeLogin own stored verified =>
          exact ((inv.bound uid i found).stored own stored).verified verified
      | _ => trivial
  | _ => trivial

theorem mailCall {w : World} {c : Call} (choice : Choice) (inv : MailLaw w) (kept : proofKept w c)
    (lawful : Lawful w c) (plain : c.links = false) : MailLaw (serve choice c w).2 := by
  have later := serveLater choice c w
  have onward := laterOnward later
  refine ⟨everywhereCall inv.bound lawful (fun i => mailBoundLater onward) fun j touched => ?_,
    justifiedCall inv.possession lawful fun uid i what found logs => mailLogged inv found logs⟩
  cases touched with
  | kept c uid i found => exact .inl ⟨uid,found⟩
  | stored uid i literal merge found writes marked =>
      have bound := mailBoundLater onward (inv.bound uid i found)
      have kept := kept i found
      rw [← later.env] at kept ⊢
      exact .inr (writtenBound bound writes plain kept)
  | saved uid i own token verifiedAt found stored matched last =>
      have bound := savedBound verifiedAt (inv.bound uid i found) stored matched last
      exact .inr (mailBoundLater onward bound)

theorem mailSent {w : World} {uid : Nat} {i : Interaction} {email token : String}
    (stored mailed : Choice) (inv : MailLaw w) (found : w.interaction uid = some i)
    (kept : proofKept w (.interactionResult uid (.link email token) true)) :
    MailLaw (serve mailed (.sendMail uid token email)
      (serve stored (.interactionResult uid (.link email token) true) w).2).2 := by
  let j := i.store w.env.mergeErrorResults (.link email token) true
  let t := (serve stored (.interactionResult uid (.link email token) true) w).2
  have there : t.interaction uid = some j := interactionWritten found
  have journal : (t.log uid (.mailed token email)).journal =
      w.journal ++ [⟨j.chain,uid,.mailed token email⟩] := logJournal there
  have env : (t.log uid (.mailed token email)).env = w.env := (logLater t uid (.mailed token email)).env
  have onward : Onward w (t.log uid (.mailed token email)) :=
    ⟨⟨w.env.providers,w.env.enrollUsers,env⟩,fun e inside => by rw [(logLater t uid _).administered]; exact inside,⟨_,journal.symm⟩⟩
  refine ⟨fun uid' i' found' => ?_,by
    show Justified Possession (t.log uid (.mailed token email)).journal
    rw [journal]
    exact justifiedAppend inv.possession trivial⟩
  show MailBound (t.log uid (.mailed token email)) i'
  have held : t.interaction uid' = some i' := (interactionLog _ _ _ _).symm.trans found'
  by_cases same : uid = uid'
  · subst same
    cases there.symm.trans held
    have bound := mailBoundLater onward (inv.bound uid i found)
    have linked : (t.log uid (.mailed token email)).happened i.chain (.mailed token email) :=
      ⟨uid,by rw [journal]; exact List.mem_append_right _ (List.mem_singleton_self _)⟩
    have based : i.base w.env.mergeErrorResults (.link email token) true = i.carried := by
      simp [Interaction.base,Literal.onto]
    have kept : i.carried.emailVerified = true → i.carried.email = some email := by
      simpa [Literal.keepsProof,based] using kept i found
    have result := linkBound bound linked kept
    rw [env] at result
    exact result
  · refine mailBoundLater onward (inv.bound uid' i' ?_)
    have other : t.interaction uid' = (w.updateInteraction uid (fun i =>
        i.store w.env.mergeErrorResults (.link email token) true)).interaction uid' := rfl
    rw [other,interactionUpdate,if_neg same] at held
    exact held

theorem unsettledBound {w : World} {i : Interaction} (carried : Bound w i.chain i.carried)
    (unsettled : i.result = none) : MailBound w i where
  carried := carried
  stored own result := by rw [unsettled] at result; cases result
  covers own result := by rw [unsettled] at result; cases result

theorem mailEdit {w : World} {m : Move} (inv : MailLaw w) (edit : m.isRequest = false) :
    MailLaw (w.step m) := by
  have onward := editOnward edit (w := w)
  refine ⟨everywhereEdit inv.bound edit (fun i => mailBoundLater onward) ?_ ?_,
    by rw [editJournal edit]; exact inv.possession⟩
  · exact fun chain prompt => unsettledBound (boundNothing _ _) rfl
  · intro i prompt bound
    refine unsettledBound ?_ rfl
    cases held : i.result with
    | none => simpa [Interaction.resume,Interaction.carried,held] using boundNothing _ _
    | some own => simpa [Interaction.resume,Interaction.carried,held] using bound.stored own held

theorem mailLaw : BoundaryLaw proofKept MailLaw where
  call choice inv kept lawful plain := mailCall choice inv kept lawful plain
  sent stored mailed inv found kept := mailSent stored mailed inv found kept
  edit inv edit := mailEdit inv edit

/- In every run that keeps a proof for its own address only, a login by link is completed for
an address only after a link mailed to that address was presented in the same chain. -/
theorem magicLinkBinding (env : Env) (users : List OidcUser) (moves : List Move)
    (kept : RunDisciplined proofKept moves (opening env users)) (before later : List Event)
    (chain uid : Nat) (email : Option String)
    (invoked : (run moves (opening env users)).journal = before ++ ⟨chain,uid,.completeLogin email⟩ :: later) :
    ∃ address, email = some address ∧ Possessed before chain address := by
  have start : MailLaw (opening env users) :=
    ⟨fun uid i found => by simp [World.interaction,opening] at found,justifiedNil _⟩
  exact (runBoundary mailLaw start kept).possession before _ later invoked

/- A link for `a@x.org` is mailed, and opened in the browser that asked for it. -/
def linkedLogin : List Move :=
  [.start .login,.request (.email 0 "a@x.org") (List.replicate 8 {text := "t"}),
   .request (.verifyEmail 0 "t" (some 0)) (List.replicate 16 {text := "1"})]

theorem linkedLoginBound : ∃ address, some "a@x.org" = some address ∧
    Possessed [⟨0,0,.mailed "t" "a@x.org"⟩,⟨0,0,.presented "t"⟩] 0 address :=
  magicLinkBinding {usernameSource := .prompt} [] linkedLogin (by decide) _ [⟨0,0,.usernameRequested⟩] 0 0 _ rfl

def retargetedLogin : List Move :=
  linkedLogin ++ [.resume 0 .login,.request (.email 1 "b@x.org") (List.replicate 8 {text := "s"}),
    .request (.emailComplete 1) []]

theorem linkRetargeted : ¬ ∀ (env : Env) (users : List OidcUser) (moves : List Move)
    (before later : List Event) (chain uid : Nat) (email : Option String),
    (run moves (opening env users)).journal = before ++ ⟨chain,uid,.completeLogin email⟩ :: later →
    ∃ address, email = some address ∧ Possessed before chain address := by
  intro claim
  have journal : (run retargetedLogin (opening {usernameSource := .prompt} [])).journal =
      [⟨0,0,.mailed "t" "a@x.org"⟩,⟨0,0,.presented "t"⟩,⟨0,0,.completeLogin (some "a@x.org")⟩,
        ⟨0,0,.usernameRequested⟩,⟨0,1,.mailed "s" "b@x.org"⟩] ++
      ⟨0,1,.completeLogin (some "b@x.org")⟩ :: [⟨0,1,.usernameRequested⟩] := rfl
  obtain ⟨address,same,token,uid,uid',precedes⟩ := claim _ _ _ _ _ _ _ _ journal
  cases same
  have mailed := precedesFirst precedes
  have presented := precedesSecond precedes
  simp at mailed presented
  rw [mailed.2] at presented
  exact absurd presented.2 (by decide)

end Passmower
