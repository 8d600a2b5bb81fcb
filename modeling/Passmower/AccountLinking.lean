import Passmower.Addresses
import Passmower.MagicLink
import Passmower.UpstreamBinding

/-! Account linking. A login that proves control of an address is linked into the account that
holds it, so the account must hold it on better grounds than an upstream's word. Creating an
account copies the upstream's addresses to places that count as better grounds; where every
copied address is proven, an account is only ever a linking target for proven addresses. -/
namespace Passmower
open JavaScript Resumption Ledger

inductive Proven (w : World) (chain : Nat) : String → Prop
  | magicLink (address : String) (possessed : Possessed w.journal chain address) : Proven w chain address
  | github (gh : GithubUser) (emails : List EmailItem) (item : EmailItem) (address : String)
      (begun : w.happened chain (.githubLogin gh emails)) (reported : item ∈ emails)
      (verified : item.verified = some true) (named : item.email = some address) : Proven w chain address
  | upstream (config : ProviderConfig) (profile : Object) (observedAt : String) (item : EmailItem)
      (address : String) (asserted : Asserted w.env w.journal chain config profile)
      (trusts : config.emailVerification ≠ .none)
      (observed : item ∈ identityEmails config profile observedAt)
      (verified : item.verified = some true) (named : item.email = some address) : Proven w chain address

def Controlled (w : World) (accountId address : String) : Prop :=
  (∃ a, (accountId,a) ∈ w.administered ∧ Alias w.env a address) ∨
    ∃ chain a, Resolved w chain accountId ∧ Proven w chain a ∧ Alias w.env a address

abbrev Grounded : World → String → Option String → Prop := Rests Controlled

def Attested (w : World) (chain : Nat) : Happening → Prop
  | .identify _ identity => ∃ key, Extracted w.env w.journal chain key identity
  | .githubLogin _ emails => ∀ item ∈ emails, item.verified = some true
  | .entered accountId email | .created accountId email => Grounded w accountId email
  | _ => True

def Noted (w : World) (chain : Nat) (s : Submission) : Prop :=
  ∀ items, s.githubEmails = some items → ∀ item ∈ items, item.verified = some true →
    ∀ e, item.email = some e → ∃ a, Proven w chain a ∧ Alias w.env a e

def linkSupport : Support where
  admin := Grounded
  passmower := Grounded
  github w accountId item := Grounded w accountId item.email
  identity w accountId _ item := item.verified = some true → Grounded w accountId item.email
  magicLink := Grounded

structure Linking (w : World) : Prop where
  provenance : Provenance w
  noted : Everywhere (Holding Noted) w
  attested : ∀ chain what, w.happened chain what → Attested w chain what
  supported : ∀ user ∈ w.users, Supported linkSupport w user

def NewUser.addresses (body : NewUser) : List (Option String) :=
  body.email :: (body.githubEmails.getD []).map (·.email)

def NewUser.Shows (env : Env) (log : List Event) (chain : Nat) (body : NewUser) (address : Option String) :
    Prop :=
  (∃ item ∈ body.githubEmails.getD [], item.verified = some true ∧ item.email ≠ none ∧
    (item.email = address ∨ item.email = canonicalizeEmail env address)) ∨
  ∃ a ∈ address, Possessed log chain a

def OidcUser.Settled (env : Env) (user : OidcUser) (address : Option String) : Prop :=
  ∀ item ∈ user.identityEmails, mappedEmail env item.email = canonicalizeEmail env address →
    canonicalizeEmail env item.email = canonicalizeEmail env address

instance (env user address) : Decidable (OidcUser.Settled env user address) := by
  unfold OidcUser.Settled; infer_instance

def provenEnrolment (w : World) : Call → Prop
  | .createUser uid accountId body => w.user accountId = none → ∀ i ∈ w.interaction uid,
      ∀ address ∈ body.addresses, mappedEmail w.env address = none ∨
        body.Shows w.env w.journal i.chain address
  | .record _ (.entered accountId email) => ∀ user ∈ w.users, user.accountId = accountId →
      user.Settled w.env (canonicalizeEmail w.env email)
  | _ => True

instance (env log chain) (body : NewUser) (address) : Decidable (body.Shows env log chain address) := by
  unfold NewUser.Shows; infer_instance

instance (w c) : Decidable (provenEnrolment w c) := by unfold provenEnrolment; split <;> infer_instance

section Grounds
variable {w w' : World} {chain : Nat} {accountId : String}

theorem onwardProven (onward : Onward w w') {a : String} (proven : Proven w chain a) :
    Proven w' chain a := by
  cases proven with
  | magicLink address possessed => exact .magicLink a (possessedLater onward.journal possessed)
  | github gh emails item address begun reported verified named =>
      exact .github gh emails item a (onwardHappened onward begun) reported verified named
  | upstream config profile observedAt item address asserted trusts observed verified named =>
      exact .upstream config profile observedAt item a (onwardAsserted onward asserted) trusts observed
        verified named

theorem onwardControlled (onward : Onward w w') {a : String} (controlled : Controlled w accountId a) :
    Controlled w' accountId a := by
  rcases controlled with ⟨b,listed,same⟩ | ⟨chain,b,resolved,proven,same⟩
  · exact .inl ⟨b,onward.administered _ listed,onwardAlias onward same⟩
  · exact .inr ⟨chain,b,onwardResolved onward resolved,onwardProven onward proven,onwardAlias onward same⟩

theorem controlledAlias {a b : String} (controlled : Controlled w accountId a) (same : Alias w.env a b) :
    Controlled w accountId b := by
  rcases controlled with ⟨c,listed,first⟩ | ⟨chain,c,resolved,proven,first⟩
  · exact .inl ⟨c,listed,.trans _ _ _ first same⟩
  · exact .inr ⟨chain,c,resolved,proven,.trans _ _ _ first same⟩

theorem controlledLasting : Lasting Controlled := ⟨(onwardControlled · ·),controlledAlias⟩

theorem onwardGrounded (onward : Onward w w') {address : Option String}
    (grounded : Grounded w accountId address) : Grounded w' accountId address :=
  onwardRests controlledLasting onward grounded

theorem provenControlled {a : String} (resolved : Resolved w chain accountId) (proven : Proven w chain a) :
    Controlled w accountId a := .inr ⟨chain,a,resolved,proven,.refl a⟩

theorem linkableControlled {user : OidcUser} (supported : Supported linkSupport w user)
    {address : Option String} (settled : user.Settled w.env address)
    (linkable : user.isEmailLinkable w.env address = true) :
    ∃ e, canonicalizeEmail w.env address = some e ∧ Controlled w user.accountId e := by
  unfold OidcUser.isEmailLinkable at linkable
  split at linkable
  · cases linkable
  · rename_i email canonical
    refine ⟨email,canonical,?_⟩
    split at linkable
    · cases linkable
    · rename_i claimed
      have claimed : email ∈ user.getClaimedEmails w.env := by simpa using claimed
      split at linkable
      · rename_i verified
        rcases verifiedEvidence verified with ⟨item,stored,method,same⟩ | ⟨item,stored,_,same⟩ |
          ⟨entry,stored,_,item,held,flag,same,_⟩
        · exact supported.magicLink item stored method email (.inl same)
        · exact supported.github item stored email (.inl same)
        · exact supported.identity entry.1 item ⟨entry.2,stored,held⟩ flag email (.inl same)
      · split at linkable
        · rename_i listed
          simp only [List.map_cons,List.map_nil,List.mem_cons,List.not_mem_nil,or_false] at listed
          rcases listed with same | same
          · exact supported.email email (.inr same.symm)
          · exact supported.companyEmail email (.inr same.symm)
        · obtain ⟨source,held,same⟩ := claimedAddress claimed
          simp only [OidcUser.claimedAddresses,List.mem_append,List.mem_cons,List.not_mem_nil,or_false,
            List.mem_map] at held
          rcases held with ((rfl | rfl | rfl) | ⟨item,stored,rfl⟩) | ⟨item,stored,rfl⟩
          · exact supported.email email (.inr same)
          · exact supported.companyEmail email (.inr same)
          · exact supported.passmower email (.inr same)
          · exact supported.github item stored email (.inr same)
          · have settled := settled item stored (same.trans canonical.symm)
            have asserted : user.identityEmails.any
                (fun item => canonicalizeEmail w.env item.email = some email) = true :=
              List.any_eq_true.mpr ⟨item,stored,by simpa using settled.trans canonical⟩
            rw [asserted] at linkable
            cases linkable

end Grounds

section Logins
variable {w : World} {chain : Nat}

theorem trustedVerified {capability : EmailVerification} {claim : Option Bool}
    (verified : emailVerified capability claim = some true) : capability ≠ .none := by
  rintro rfl
  unfold emailVerified at verified
  split at verified
  · cases verified
  · cases verified

theorem extractedProven {key : String} {identity : OidcIdentity} {item : EmailItem} {address : String}
    (extracted : Extracted w.env w.journal chain key identity) (held : item ∈ identity.emails)
    (verified : item.verified = some true) (named : item.email = some address) : Proven w chain address := by
  obtain ⟨config,profile,observedAt,_,asserted,rfl⟩ := extracted
  have observed : item ∈ identityEmails config profile observedAt := held
  have trusts : config.emailVerification ≠ .none := by
    simp only [extractIdentity,identityEmails] at held
    split at held
    · cases held
    · cases List.mem_singleton.mp held
      exact trustedVerified verified
  exact .upstream config profile observedAt item address asserted trusts observed verified named

theorem normalizedSource {env : Env} {emails : List EmailItem} {item : EmailItem}
    (member : item ∈ normalizeEmails env emails) :
    ∃ source ∈ emails, item.email = canonicalizeEmail env source.email ∧ item.verified = source.verified := by
  obtain ⟨source,inside,rfl⟩ := List.mem_map.mp (uniqueByMember member)
  exact ⟨source,inside,rfl,rfl⟩

theorem attemptNoted (inv : Linking w) {email : Option String} {items : List EmailItem}
    {identity : StableIdentity} (attempt : Attempt w chain email (some items) identity) {item : EmailItem}
    (member : item ∈ items) (verified : item.verified = some true) {e : String} (named : item.email = some e) :
    ∃ a, Proven w chain a ∧ Alias w.env a e := by
  have spelled : ∀ {source : EmailItem}, item.email = canonicalizeEmail w.env source.email →
      ∃ a, source.email = some a ∧ Alias w.env a e := by
    intro source same
    cases raw : source.email with
    | none => rw [same,raw] at named; cases named
    | some a =>
        rw [same,raw] at named
        exact ⟨a,rfl,aliasCanonical named⟩
  cases attempt with
  | github gh emails begun =>
      obtain ⟨source,inside,same,flag⟩ := normalizedSource member
      obtain ⟨a,raw,spelling⟩ := spelled same
      exact ⟨a,.github gh emails source a begun inside (flag ▸ verified) raw,spelling⟩
  | oidc key identity begun =>
      obtain ⟨source,inside,same,flag⟩ := normalizedSource member
      obtain ⟨a,raw,spelling⟩ := spelled same
      obtain ⟨key',extracted⟩ := inv.attested chain _ begun
      exact ⟨a,extractedProven extracted inside (flag ▸ verified) raw,spelling⟩

theorem enrolsNoted (inv : Linking w) {uid : Nat} {i : Interaction} {accountId : String} {body : NewUser}
    (found : w.interaction uid = some i) (enrols : Enrols w uid i accountId body) {item : EmailItem}
    (member : item ∈ body.githubEmails.getD []) (verified : item.verified = some true) {e : String}
    (named : item.email = some e) : ∃ a, Proven w i.chain a ∧ Alias w.env a e := by
  cases enrols with
  | login email githubEmails identity attempt _ =>
      cases githubEmails with
      | none => cases member
      | some items => exact attemptNoted inv attempt member verified named
  | form _ =>
      have noted := (inv.noted uid i found).1
      cases kept : i.carried.githubEmails with
      | none =>
          rw [kept] at member
          cases member
      | some items =>
          rw [kept] at member
          exact noted items kept item member verified e named

theorem enrolledGrounded (inv : Linking w) {uid : Nat} {i : Interaction} {accountId : String}
    {body : NewUser} {w' : World} (proven : provenEnrolment w (.createUser uid accountId body))
    (free : w.user accountId = none) (found : w.interaction uid = some i)
    (enrols : Enrols w uid i accountId body) (onward : Onward w w')
    (resolved : Resolved w' i.chain accountId)
    {address : Option String} (copied : address ∈ body.addresses) : Grounded w' accountId address := by
  intro e spelled
  rw [onwardSpelled onward] at spelled
  rcases proven free i found address copied with blank | ⟨item,member,verified,named,same⟩ | ⟨a,raw,possessed⟩
  · rcases spelled with canonical | mapped
    · rw [canonicalBlank blank] at canonical; cases canonical
    · rw [blank] at mapped; cases mapped
  · cases address with
    | none => exact absurd spelled (spelledNone w.env e)
    | some b =>
        have spelling : ∃ c, item.email = some c ∧ Alias w.env c b := by
          rcases same with raw | cooked
          · exact ⟨b,raw,.refl b⟩
          · cases canonical : canonicalizeEmail w.env (some b) with
            | some c => exact ⟨c,cooked.trans canonical,.symm _ _ (aliasCanonical canonical)⟩
            | none => exact absurd (cooked.trans canonical) named
        obtain ⟨c,held,second⟩ := spelling
        obtain ⟨a,proven,first⟩ := enrolsNoted inv found enrols member verified held
        exact .inr ⟨i.chain,a,resolved,onwardProven onward proven,
          onwardAlias onward (.trans _ _ _ first (.trans _ _ _ second (aliasSpelled spelled)))⟩
  · subst raw
    exact .inr ⟨i.chain,a,resolved,onwardProven onward (.magicLink a possessed),
      onwardAlias onward (aliasSpelled spelled)⟩

end Logins

theorem linkLaw : SupportLaw linkSupport provenEnrolment Linking where
  mono onward held := ⟨onwardGrounded onward held.email,onwardGrounded onward held.companyEmail,
    onwardGrounded onward held.passmower,fun item inside => onwardGrounded onward (held.github item inside),
    fun key item asserts verified => onwardGrounded onward (held.identity key item asserts verified),
    fun item inside method => onwardGrounded onward (held.magicLink item inside method)⟩
  absent w accountId := ⟨restsNone Controlled w accountId,restsNone Controlled w accountId⟩
  canonical grounded := restsCanonical controlledLasting grounded
  enrolled {w w' uid i accountId body} inv proven free found enrols onward logged := by
    have resolved : Resolved w' i.chain accountId := ⟨body.email,.inr ⟨uid,logged⟩⟩
    have grounded : ∀ address ∈ body.addresses, Grounded w' accountId address := fun address copied =>
      enrolledGrounded inv proven free found enrols onward resolved copied
    exact ⟨grounded _ List.mem_cons_self,fun item inside =>
      grounded _ (List.mem_cons_of_mem _ (List.mem_map_of_mem inside))⟩
  githubLogin {w chain accountId gh emails item} inv resolved begun reported := by
    show Grounded w accountId item.email
    have verified := inv.attested chain _ begun item reported
    cases named : item.email with
    | none => exact restsNone Controlled w accountId
    | some a => exact restsOn controlledLasting (provenControlled resolved
        (.github gh emails item a begun reported verified named))
  identify {w chain accountId key identity item} inv resolved begun held := by
    show item.verified = some true → Grounded w accountId item.email
    intro verified
    obtain ⟨key',extracted⟩ := inv.attested chain _ begun
    cases named : item.email with
    | none => exact restsNone Controlled w accountId
    | some a => exact restsOn controlledLasting (provenControlled resolved
        (extractedProven extracted held verified named))
  verified {w uid chain carried accountId email verifiedAt} inv _ mutates := by
    show Grounded w accountId email
    have admitted : ∀ {email}, Admitted w chain email {} accountId → Grounded w accountId email := by
      rintro email (entered | created)
      · exact inv.attested chain _ entered
      · exact inv.attested chain _ created
    cases mutates with
    | linkVerified email verifiedAt _ entered => exact admitted entered
    | submitted _ _ created => exact admitted (.inr created)
  invited {w accountId address} listed := by
    intro e spelled
    exact .inl ⟨address,listed,aliasSpelled spelled⟩
  administered {w accountId address} listed := by
    intro e spelled
    exact .inl ⟨address,listed,aliasSpelled spelled⟩

theorem onwardAttested {w w' : World} {chain : Nat} {what : Happening} (onward : Onward w w')
    (attested : Attested w chain what) : Attested w' chain what := by
  cases what with
  | identify key identity => exact attested.imp fun _ => onwardExtracted onward
  | githubLogin gh emails => exact attested
  | entered accountId email => exact onwardGrounded onward attested
  | created accountId email => exact onwardGrounded onward attested
  | _ => trivial

theorem onwardNoted {w w' : World} {chain : Nat} {s : Submission} (onward : Onward w w')
    (noted : Noted w chain s) : Noted w' chain s := by
  intro items held item inside verified e named
  obtain ⟨a,proven,spelling⟩ := noted items held item inside verified e named
  exact ⟨a,onwardProven onward proven,onwardAlias onward spelling⟩

theorem notedNothing (w : World) (chain : Nat) : Noted w chain {} := by
  intro items held
  cases held

theorem notedOnto {w : World} {chain : Nat} {extra base : Submission} (first : Noted w chain extra)
    (second : Noted w chain base) : Noted w chain (extra.onto base) := by
  intro items held
  cases own : extra.githubEmails with
  | some kept => exact first items (by simpa [Submission.onto,own] using held)
  | none => exact second items (by simpa [Submission.onto,own] using held)

theorem enteredGrounded {w : World} (inv : Linking w) {chain : Nat} {email : Option String}
    {githubEmails : Option (List EmailItem)} {identity : StableIdentity} {user : OidcUser}
    (attempt : Attempt w chain email githubEmails identity) (listed : user ∈ w.users)
    (settled : user.Settled w.env (canonicalizeEmail w.env (bareEmail email identity)))
    (linked : identity = {} →
      (linkableEmails w.env email (githubEmails.getD []) identity).any (user.isEmailLinkable w.env) = true) :
    Grounded w user.accountId (bareEmail email identity) := by
  cases attempt with
  | github gh emails begun =>
      unfold bareEmail
      split <;> exact restsNone Controlled w user.accountId
  | oidc key identity begun => exact restsNone Controlled w user.accountId
  | magicLink email begun =>
      obtain ⟨address,among,linkable⟩ := List.any_eq_true.mp (linked rfl)
      have same : address = canonicalizeEmail w.env email := by
        have inside := (List.mem_filter.mp among).1
        simpa [truthy] using inside
      subst same
      obtain ⟨e,canonical,controlled⟩ := linkableControlled (inv.supported user listed) settled linkable
      exact restsSource controlledLasting canonical controlled

theorem loggedAttested {w w' : World} (inv : Linking w) {uid : Nat} {i : Interaction} {c : Call}
    {what : Happening} (good : provenEnrolment w c) (found : w.interaction uid = some i)
    (logs : Logs w uid i c what) (onward : Onward w w') (noted : ⟨i.chain,uid,what⟩ ∈ w'.journal) :
    Attested w' i.chain what := by
  have genuine := inv.provenance.genuine uid i found
  cases logs with
  | written literal merge what writes marked =>
      rcases markSource marked with ⟨rfl,_⟩ | ⟨accountId,rfl⟩ <;> trivial
  | created accountId body enrols free =>
      have resolved : Resolved w' i.chain accountId := ⟨body.email,.inr ⟨uid,noted⟩⟩
      exact enrolledGrounded inv good free found enrols onward resolved List.mem_cons_self
  | record what records =>
      cases records with
      | identify key identity stash =>
          rcases stash with ⟨provider,held⟩ | ⟨own,result,held⟩
          · exact ⟨provider,onwardExtracted onward (genuine.1.oidc provider identity held)⟩
          · exact ⟨key,onwardExtracted onward ((genuine.2 own result).oidc key identity held)⟩
      | githubLogin gh emails _ verified => exact verified
      | entered email githubEmails identity user attempt listed linked =>
          exact onwardGrounded onward (enteredGrounded inv attempt listed (good user listed rfl) linked)
      | _ => trivial
  | _ => trivial

theorem linkingCall {w : World} {c : Call} (choice : Choice) (inv : Linking w)
    (good : provenEnrolment w c) (lawful : Lawful w c) : Linking (serve choice c w).2 := by
  have onward := laterOnward (serveLater choice c w)
  constructor
  · exact provenanceCall choice inv.provenance lawful
  · apply holdingCall inv.noted lawful
    · exact notedNothing _
    · exact fun chain s => onwardNoted onward
    · intro uid i literal merge base found writes marked noted own
      cases writes with
      | usernameRequest email githubEmails preferredUsername identity attempt _ =>
          have result : Noted (serve choice c w).2 i.chain (i.result.getD {}) := by
            cases held : i.result with
            | none => exact notedNothing _ _
            | some r => exact own r held
          apply notedOnto result
          intro items held item inside verified e named
          cases held
          obtain ⟨a,proven,spelling⟩ := attemptNoted inv attempt inside verified named
          exact ⟨a,onwardProven onward proven,onwardAlias onward spelling⟩
      | result r _ stored _ _ => exact notedOnto (own r stored) noted
      | _ => exact noted
    · exact fun uid i own token verifiedAt _ _ noted => noted
  · rintro chain what ⟨uid,inside⟩
    rcases lawfulLogs choice lawful with same | ⟨uid',i,what',found,logs,same⟩
    · rw [same] at inside
      exact onwardAttested onward (inv.attested chain what ⟨uid,inside⟩)
    · have noted : ⟨i.chain,uid',what'⟩ ∈ (serve choice c w).2.journal := by rw [same]; simp
      rw [same] at inside
      rcases List.mem_append.mp inside with old | new
      · exact onwardAttested onward (inv.attested chain what ⟨uid,old⟩)
      · cases List.mem_singleton.mp new
        exact loggedAttested inv good found logs onward noted
  · exact supportedCall linkLaw inv good lawful inv.supported

theorem linkingEdit {w : World} {m : Move} (inv : Linking w) (edit : m.isRequest = false) :
    Linking (w.step m) := by
  have onward := editOnward edit (w := w)
  constructor
  · exact provenanceEdit inv.provenance edit
  · exact holdingEdit inv.noted edit (notedNothing _) fun chain s => onwardNoted onward
  · rintro chain what ⟨uid,inside⟩
    rw [editJournal edit] at inside
    exact onwardAttested onward (inv.attested chain what ⟨uid,inside⟩)
  · exact supportedEdit linkLaw edit inv.supported

theorem linkingLaw : Law provenEnrolment Linking :=
  ⟨fun choice inv good lawful => linkingCall choice inv good lawful,linkingEdit⟩

/- In every run that copies only proven addresses into new accounts, and at each of its await
points, an account is a linking target for a settled address only if a login into the account proved
control of it or an administrator put it there. -/
theorem accountLinkingSound (env : Env) (moves : List Move)
    (proven : RunDisciplined provenEnrolment moves (opening env [])) (t : World)
    (reached : t ∈ reaches moves (opening env [])) (user : OidcUser) (member : user ∈ t.users)
    (address : String) (settled : user.Settled t.env (some address))
    (linkable : user.isEmailLinkable t.env (some address) = true) :
    Controlled t user.accountId address := by
  have start : Linking (opening env []) := by
    constructor
    · exact provenanceOpening env []
    · exact fun uid i found => by simp [World.interaction,opening] at found
    · exact fun chain what happened => by simp [World.happened,opening] at happened
    · exact fun user none => by cases none
  have inv := reachesLaw linkingLaw start proven reached
  obtain ⟨e,canonical,controlled⟩ := linkableControlled (inv.supported user member) settled linkable
  exact controlledAlias controlled (.symm _ _ (aliasCanonical canonical))

def upstreamEnrolment (flag : Object) : List Move :=
  [.start .login,.request (.federated 0 "one" none) (List.replicate 5 {text := "r"}),
   .request (.federated 0 "one" (some {state := some "0|r"}))
     (List.replicate 30 {text := "1", claims := upstreamClaims ++ flag})]

def claimProvider : Env := {providers := [{providerOne with emailVerification := .oidcClaim}]}

theorem verifiedEnrolmentControlled : Controlled
    (run (upstreamEnrolment [("email_verified",.bool true)]) (opening claimProvider [])) "u1" "a@x.org" := by
  have shown : ∃ user ∈ (run (upstreamEnrolment [("email_verified",.bool true)])
      (opening claimProvider [])).users, user.accountId = "u1" ∧ user.Settled
        (run (upstreamEnrolment [("email_verified",.bool true)]) (opening claimProvider [])).env
        (some "a@x.org") ∧ user.isEmailLinkable
        (run (upstreamEnrolment [("email_verified",.bool true)]) (opening claimProvider [])).env
        (some "a@x.org") = true := by decide
  obtain ⟨user,member,named,settled,linkable⟩ := shown
  rw [← named]
  exact accountLinkingSound claimProvider _ (by decide) _ (runReached _ _) user member _ settled linkable

def unverifiedProvider : Env := {providers := [providerOne], outboundEmailEnabled := false}

def withdrawnAddress : List Move :=
  upstreamEnrolment [] ++ [.start .login,.request (.federated 1 "one" none) (List.replicate 5 {text := "r"}),
    .request (.federated 1 "one" (some {state := some "1|r"}))
      (List.replicate 30 {text := "1", claims := [("sub",.string "s")]})]

/- Enrolment copied the address to `passmower.email` and `github.emails`, and once the upstream
no longer asserts it nothing tells it from an address held on better grounds. -/
theorem unverifiedAddressLinkable : ¬ ∀ (env : Env) (moves : List Move) (t : World),
    t ∈ reaches moves (opening env []) → ∀ user ∈ t.users, ∀ address : String,
    user.isEmailLinkable t.env (some address) = true → Controlled t user.accountId address := by
  intro claim
  have shown : ∃ user ∈ (run withdrawnAddress (opening unverifiedProvider [])).users,
      user.isEmailLinkable (run withdrawnAddress (opening unverifiedProvider [])).env
        (some "a@x.org") = true := by decide
  obtain ⟨user,member,linkable⟩ := shown
  have controlled := claim _ _ _ (runReached _ _) user member _ linkable
  have journal : (run withdrawnAddress (opening unverifiedProvider [])).journal =
      [⟨0,0,.granted providerOne upstreamClaims⟩,⟨0,0,.userInfo providerOne upstreamClaims⟩,
        ⟨0,0,.identify "one" upstreamIdentity⟩,⟨0,0,.created "u1" (some "a@x.org")⟩,
        ⟨0,0,.loggedIn "u1"⟩,⟨1,1,.granted providerOne [("sub",.string "s")]⟩,
        ⟨1,1,.userInfo providerOne [("sub",.string "s")]⟩,⟨1,1,.identify "one" {sub := "s"}⟩,
        ⟨1,1,.entered "u1" none⟩,⟨1,1,.loggedIn "u1"⟩] := rfl
  rcases controlled with ⟨a,listed,_⟩ | ⟨chain,a,_,proven,_⟩
  · cases listed
  · cases proven with
    | magicLink address possessed =>
        obtain ⟨token,uid,uid',precedes⟩ := possessed
        have mailed := precedesFirst precedes
        rw [journal] at mailed
        simp at mailed
    | github gh emails item address begun _ _ _ =>
        obtain ⟨uid,begun⟩ := begun
        rw [journal] at begun
        simp at begun
    | upstream config profile observedAt item address asserted trusts _ _ _ =>
        obtain ⟨_,_,_,⟨uid,granted⟩,_⟩ := asserted
        rw [journal] at granted
        have one : config = providerOne := by
          simp at granted
          rcases granted with ⟨_,_,same,_⟩ | ⟨_,_,same,_⟩ <;> exact same
        rw [one] at trusts
        exact trusts rfl

end Passmower
