import Passmower.AccountLinking
import Passmower.PersistedLogins

/-! Verification evidence. Evidence is recomputed from what each login method stored; what an
upstream asserted counts under its own provider's identity, switch and configuration. Three
writes can store it as evidence of another kind: an enrolment that copies a verified upstream
address to `github.emails`, a magic-link record without a presented link, and an identity
stored under another provider's key. Without them the evidence follows its provider. -/
namespace Passmower
open JavaScript Resumption Ledger

def LinkSupport (w : World) (accountId address : String) : Prop :=
  ∃ chain a, Resolved w chain accountId ∧ Possessed w.journal chain a ∧ Alias w.env a address

def GithubSupport (w : World) (accountId address : String) : Prop :=
  ∃ chain gh emails item a, Resolved w chain accountId ∧ w.happened chain (.githubLogin gh emails) ∧
    item ∈ emails ∧ item.verified = some true ∧ item.email = some a ∧ Alias w.env a address

def AssertedSupport (key : String) (w : World) (accountId address : String) : Prop :=
  ∃ chain config profile observedAt item a, Resolved w chain accountId ∧ config.key = key ∧
    Asserted w.env w.journal chain config profile ∧ item ∈ identityEmails config profile observedAt ∧
    item.email = some a ∧ Alias w.env a address

structure OnlyAsserted (w : World) (accountId key address : String) : Prop where
  link : ¬ LinkSupport w accountId address
  github : ¬ GithubSupport w accountId address
  others : ∀ other, AssertedSupport other w accountId address → other = key

def Upheld (env : Env) (user : OidcUser) (key address : String) : Prop :=
  ∃ identity ∈ user.getIdentity key, identity.active ≠ some false ∧
    ∃ item ∈ identity.emails.getD [], item.verified = some true ∧
      canonicalizeEmail env item.email = some address ∧
      (item.trusted = true → (getOidcProvider env key).map (·.emailVerification) = some .trusted)

instance (env user key address) : Decidable (Upheld env user key address) := by
  unfold Upheld; infer_instance

def Counts (env : Env) (user : OidcUser) (address : String) : Prop :=
  user.verifiedFor env address = true ∨
    (canonicalizeEmail env user.status.primaryEmail = some address ∧ user.isPrimaryEmailVerified env = true)

def Happening.reports (env : Env) (address : Option String) : Happening → Bool
  | .githubLogin _ emails => emails.any (fun item =>
      item.verified = some true ∧ canonicalizeEmail env item.email = address)
  | _ => false

/- Evidence is stored as what it is: a magic link where one was presented, an identity under
the provider it is from, a verified entry of `github.emails` where GitHub reported it. -/
def keepsEvidence (w : World) : Call → Bool
  | .record uid (.completeLogin email) => decide <|
      ∀ i ∈ w.interaction uid, ∃ a ∈ email, Possessed w.journal i.chain a
  | .record uid (.enterUsername _) => decide <| ∀ i ∈ w.interaction uid, i.carried.emailVerified = true →
      ∃ a ∈ i.carried.email, Possessed w.journal i.chain a
  | .record uid (.identify key identity) => decide <|
      (∃ item ∈ identity.emails, item.verified = some true) →
        ∀ i ∈ w.interaction uid, ∀ stash ∈ i.carried.oidc, stash.1 = key
  | .createUser uid accountId body => decide <| w.user accountId = none → ∀ i ∈ w.interaction uid,
      ∀ item ∈ body.githubEmails.getD [], item.verified = some true →
        ∃ event ∈ w.journal, event.chain = i.chain ∧ event.what.reports w.env item.email = true
  | _ => true

def evidenceKept (w : World) (c : Call) : Prop := keepsEvidence w c = true

instance (w c) : Decidable (evidenceKept w c) := inferInstanceAs (Decidable (keepsEvidence w c = true))

def evidenceSupport : Support where
  admin _ _ _ := True
  passmower _ _ _ := True
  github w accountId item := item.verified = some true → Rests GithubSupport w accountId item.email
  identity w accountId key item := item.verified = some true → Rests (AssertedSupport key) w accountId item.email
  magicLink := Rests LinkSupport

def Witnessed (w : World) (event : Event) : Prop := match event.what with
  | .completeLogin email => ∃ a ∈ email, Possessed w.journal event.chain a
  | .enterUsername _ => ∃ carried, Within w event.uid event.chain carried ∧
      (carried.emailVerified = true → ∃ a ∈ carried.email, Possessed w.journal event.chain a)
  | .identify key identity => (∃ item ∈ identity.emails, item.verified = some true) →
      Extracted w.env w.journal event.chain key identity
  | _ => True

structure Evidenced (w : World) : Prop where
  provenance : Provenance w
  witnessed : ∀ event ∈ w.journal, Witnessed w event
  supported : ∀ user ∈ w.users, Supported evidenceSupport w user
  keyed : ∀ user ∈ w.users, Keyed user.identityEntries

section Supports
variable {w w' : World} {chain : Nat} {accountId : String}

theorem linkLasting : Lasting LinkSupport where
  onward onward holds := by
    obtain ⟨chain,a,resolved,possessed,same⟩ := holds
    exact ⟨chain,a,onwardResolved onward resolved,possessedLater onward.journal possessed,onwardAlias onward same⟩
  respelled holds same := by
    obtain ⟨chain,a,resolved,possessed,first⟩ := holds
    exact ⟨chain,a,resolved,possessed,.trans _ _ _ first same⟩

theorem githubLasting : Lasting GithubSupport where
  onward onward holds := by
    obtain ⟨chain,gh,emails,item,a,resolved,begun,reported,verified,named,same⟩ := holds
    exact ⟨chain,gh,emails,item,a,onwardResolved onward resolved,onwardHappened onward begun,reported,
      verified,named,onwardAlias onward same⟩
  respelled holds same := by
    obtain ⟨chain,gh,emails,item,a,resolved,begun,reported,verified,named,first⟩ := holds
    exact ⟨chain,gh,emails,item,a,resolved,begun,reported,verified,named,.trans _ _ _ first same⟩

theorem assertedLasting (key : String) : Lasting (AssertedSupport key) where
  onward onward holds := by
    obtain ⟨chain,config,profile,observedAt,item,a,resolved,keyed,asserted,observed,named,same⟩ := holds
    exact ⟨chain,config,profile,observedAt,item,a,onwardResolved onward resolved,keyed,
      onwardAsserted onward asserted,observed,named,onwardAlias onward same⟩
  respelled holds same := by
    obtain ⟨chain,config,profile,observedAt,item,a,resolved,keyed,asserted,observed,named,first⟩ := holds
    exact ⟨chain,config,profile,observedAt,item,a,resolved,keyed,asserted,observed,named,.trans _ _ _ first same⟩

theorem linkRests {a : String} (resolved : Resolved w chain accountId)
    (possessed : Possessed w.journal chain a) : Rests LinkSupport w accountId (some a) :=
  restsOn linkLasting ⟨chain,a,resolved,possessed,.refl a⟩

theorem githubRests {gh : GithubUser} {emails : List EmailItem} {item : EmailItem}
    (resolved : Resolved w chain accountId) (begun : w.happened chain (.githubLogin gh emails))
    (reported : item ∈ emails) (verified : item.verified = some true) :
    Rests GithubSupport w accountId item.email := by
  cases named : item.email with
  | none => exact restsNone _ w accountId
  | some a =>
      apply restsOn githubLasting
      exact ⟨chain,gh,emails,item,a,resolved,begun,reported,verified,named,.refl a⟩

theorem assertedRests {key : String} {identity : OidcIdentity} {item : EmailItem}
    (resolved : Resolved w chain accountId) (extracted : Extracted w.env w.journal chain key identity)
    (held : item ∈ identity.emails) : Rests (AssertedSupport key) w accountId item.email := by
  obtain ⟨config,profile,observedAt,keyed,asserted,rfl⟩ := extracted
  cases named : item.email with
  | none => exact restsNone _ w accountId
  | some a =>
      apply restsOn (assertedLasting key)
      exact ⟨chain,config,profile,observedAt,item,a,resolved,keyed,asserted,held,named,.refl a⟩

theorem reportedRests {event : Event} {address : Option String} (resolved : Resolved w event.chain accountId)
    (logged : event ∈ w.journal) (reports : event.what.reports w.env address = true) :
    Rests GithubSupport w accountId address := by
  obtain ⟨chain,uid,what⟩ := event
  cases what with
  | githubLogin gh emails =>
      obtain ⟨item,reported,holds⟩ := List.any_eq_true.mp reports
      obtain ⟨verified,same⟩ : item.verified = some true ∧ canonicalizeEmail w.env item.email = address := by
        simpa using holds
      rw [← same]
      exact restsCanonical githubLasting (githubRests resolved ⟨uid,logged⟩ reported verified)
  | _ => cases reports

theorem withinSame {uid : Nat} {a b : Submission} (first : Within w uid chain a) (second : Within w uid chain b) :
    a = b := by
  obtain ⟨i,found,_,rfl⟩ := first
  obtain ⟨j,same,_,rfl⟩ := second
  cases found.symm.trans same
  rfl

theorem witnessedLater {event : Event} (onward : Onward w w')
    (kept : ∀ uid chain carried, Within w uid chain carried → Within w' uid chain carried)
    (witnessed : Witnessed w event) : Witnessed w' event := by
  obtain ⟨chain,uid,what⟩ := event
  cases what with
  | completeLogin email =>
      obtain ⟨a,named,possessed⟩ := witnessed
      exact ⟨a,named,possessedLater onward.journal possessed⟩
  | enterUsername username =>
      obtain ⟨carried,within,proven⟩ := witnessed
      refine ⟨carried,kept _ _ _ within,fun flag => ?_⟩
      obtain ⟨a,named,possessed⟩ := proven flag
      exact ⟨a,named,possessedLater onward.journal possessed⟩
  | identify key identity => exact fun verified => onwardExtracted onward (witnessed verified)
  | _ => trivial

end Supports

theorem evidenceLaw : SupportLaw evidenceSupport evidenceKept Evidenced where
  mono onward held := ⟨trivial,trivial,trivial,
    fun item inside verified => onwardRests githubLasting onward (held.github item inside verified),
    fun key item asserts verified => onwardRests (assertedLasting key) onward (held.identity key item asserts verified),
    fun item inside method => onwardRests linkLasting onward (held.magicLink item inside method)⟩
  absent w accountId := ⟨trivial,trivial⟩
  canonical rests := restsCanonical linkLasting rests
  enrolled {w w' uid i accountId body} inv kept free found enrols onward logged := by
    refine ⟨trivial,fun item inside verified => ?_⟩
    obtain ⟨event,happened,same,reports⟩ := of_decide_eq_true kept free i found item inside verified
    have resolved : Resolved w' event.chain accountId := ⟨body.email,.inr ⟨uid,same ▸ logged⟩⟩
    have again : event.what.reports w'.env item.email = true := by
      obtain ⟨providers,enrollUsers,env⟩ := onward.env
      rw [env]
      exact reports
    exact reportedRests resolved (onward.journal.subset happened) again
  githubLogin inv resolved begun reported verified := githubRests resolved begun reported verified
  identify {w chain accountId key identity item} inv resolved begun held := by
    obtain ⟨uid,logged⟩ := begun
    have witnessed := inv.witnessed _ logged
    exact fun verified => assertedRests resolved (witnessed ⟨item,held,verified⟩) held
  verified {w uid chain carried accountId email verifiedAt} inv within mutates := by
    show Rests LinkSupport w accountId email
    cases mutates with
    | linkVerified email verifiedAt begun admitted =>
        obtain ⟨uid',logged⟩ := begun
        obtain ⟨a,named,possessed⟩ := inv.witnessed _ logged
        cases named
        exact linkRests (admittedResolved admitted) possessed
    | submitted flag entered created =>
        obtain ⟨carried',within',proven⟩ := inv.witnessed _ entered
        cases withinSame within within'
        obtain ⟨a,named,possessed⟩ := proven flag
        rw [Option.mem_def.mp named]
        exact linkRests ⟨_,.inr created⟩ possessed
  invited _ := trivial
  administered _ := trivial

theorem loggedWitnessed {w w' : World} (inv : Evidenced w) {uid : Nat} {i : Interaction} {c : Call}
    {what : Happening} (kept : evidenceKept w c) (found : w.interaction uid = some i)
    (logs : Logs w uid i c what) (later : Later w w') : Witnessed w' ⟨i.chain,uid,what⟩ := by
  have onward := laterOnward later
  have genuine := inv.provenance.genuine uid i found
  cases logs with
  | written literal merge what writes marked =>
      rcases markSource marked with ⟨rfl,_⟩ | ⟨accountId,rfl⟩ <;> trivial
  | record what records =>
      cases records with
      | completeLogin own stored verified =>
          obtain ⟨a,named,possessed⟩ := of_decide_eq_true kept i found
          exact ⟨a,named,possessedLater onward.journal possessed⟩
      | enterUsername username =>
          refine ⟨i.carried,later.within _ _ _ (withinFound found),fun flag => ?_⟩
          obtain ⟨a,named,possessed⟩ := of_decide_eq_true kept i found flag
          exact ⟨a,named,possessedLater onward.journal possessed⟩
      | identify key identity stash =>
          intro verified
          rcases stash with ⟨provider,held⟩ | ⟨own,result,held⟩
          · have same : provider = key := of_decide_eq_true kept verified i found _ held
            exact onwardExtracted onward (same ▸ genuine.1.oidc provider identity held)
          · exact onwardExtracted onward ((genuine.2 own result).oidc key identity held)
      | _ => trivial
  | _ => trivial

theorem evidencedCall {w : World} {c : Call} (choice : Choice) (inv : Evidenced w)
    (kept : evidenceKept w c) (lawful : Lawful w c) : Evidenced (serve choice c w).2 := by
  have later := serveLater choice c w
  constructor
  · exact provenanceCall choice inv.provenance lawful
  · intro event inside
    rcases lawfulLogs choice lawful with same | ⟨uid,i,what,found,logs,same⟩
    · rw [same] at inside
      exact witnessedLater (laterOnward later) later.within (inv.witnessed event inside)
    · rw [same] at inside
      rcases List.mem_append.mp inside with old | new
      · exact witnessedLater (laterOnward later) later.within (inv.witnessed event old)
      · cases List.mem_singleton.mp new
        exact loggedWitnessed inv kept found logs later
  · exact supportedCall evidenceLaw inv kept lawful inv.supported
  · exact keyedCall lawful inv.keyed

theorem evidencedEdit {w : World} {m : Move} (inv : Evidenced w) (edit : m.isRequest = false) :
    Evidenced (w.step m) := by
  constructor
  · exact provenanceEdit inv.provenance edit
  · intro event inside
    rw [editJournal edit] at inside
    exact witnessedLater (editOnward edit) (fun _ _ _ => editWithin edit) (inv.witnessed event inside)
  · exact supportedEdit evidenceLaw edit inv.supported
  · exact keyedEdit edit inv.keyed

theorem evidencedLaw : Law evidenceKept Evidenced :=
  ⟨fun choice inv kept lawful => evidencedCall choice inv kept lawful,evidencedEdit⟩

theorem verifiedRests {w : World} {user : OidcUser} {address : String}
    (supported : Supported evidenceSupport w user) (keyed : Keyed user.identityEntries)
    (verified : user.verifiedFor w.env address = true) :
    LinkSupport w user.accountId address ∨ GithubSupport w user.accountId address ∨
      ∃ key, Upheld w.env user key address ∧ AssertedSupport key w user.accountId address := by
  rcases verifiedEvidence verified with ⟨item,stored,method,same⟩ | ⟨item,stored,flag,same⟩ |
    ⟨⟨key,identity⟩,stored,active,item,held,flag,same,trusted⟩
  · exact .inl (supported.magicLink item stored method address (.inl same))
  · exact .inr (.inl (supported.github item stored flag address (.inl same)))
  · have upheld : Upheld w.env user key address :=
      ⟨identity,mapGetOf keyed stored,active,item,held,flag,same,trusted⟩
    exact .inr (.inr ⟨key,upheld,supported.identity key item ⟨identity,stored,held⟩ flag address (.inl same)⟩)

theorem countsVerified {env : Env} {user : OidcUser} {address : String} (counts : Counts env user address) :
    user.verifiedFor env address = true := by
  rcases counts with verified | ⟨primary,verified⟩
  · exact verified
  · simpa [OidcUser.isPrimaryEmailVerified,primary] using verified

theorem evidencedOpening (env : Env) : Evidenced (opening env []) where
  provenance := provenanceOpening env []
  witnessed event none := by cases none
  supported user none := by cases none
  keyed user none := by cases none

/- The account has the identity as the login reported it, and of the addresses that nobody but its provider
asserted only those count that it reports as verified. -/
structure ReportHeeded (t : World) (accountId key : String) (identity : OidcIdentity) : Prop where
  persisted : Persisted t accountId key identity
  reported : ∀ user, t.user accountId = some user → ∀ address, OnlyAsserted t accountId key address →
    Counts t.env user address → ∃ item ∈ identity.emails, item.verified = some true ∧
      canonicalizeEmail t.env item.email = some address

/- In every run that stores evidence as what it is, an address that only one provider asserted
counts as verified only while that provider's stored observation upholds it. A login through the provider
that finishes with a login replaces that observation: an address it no longer reports as verified stops
counting. -/
theorem verificationFollowsProvider (env : Env) (moves : List Move)
    (kept : RunDisciplined evidenceKept moves (opening env [])) :
    (∀ t ∈ reaches moves (opening env []), ∀ user ∈ t.users, ∀ key address,
      OnlyAsserted t user.accountId key address → Counts t.env user address → Upheld t.env user key address) ∧
    ∀ before request choices after, moves = before ++ .request request choices :: after →
      ∀ key identity accountId, LoggedInBy (run before (opening env [])) request choices key identity accountId →
        ReportHeeded (run (before ++ [.request request choices]) (opening env [])) accountId key identity := by
  have follows : ∀ t, Evidenced t → ∀ user ∈ t.users, ∀ key address,
      OnlyAsserted t user.accountId key address → Counts t.env user address → Upheld t.env user key address := by
    intro t inv user member key address only counts
    rcases verifiedRests (inv.supported user member) (inv.keyed user member) (countsVerified counts) with
      link | github | ⟨other,upheld,asserted⟩
    · exact absurd link only.link
    · exact absurd github only.github
    · rw [← only.others other asserted]
      exact upheld
  refine ⟨fun t reached => follows t (reachesLaw evidencedLaw (evidencedOpening env) kept reached),?_⟩
  rintro before request choices after rfl key identity accountId loggedIn
  obtain ⟨first,rest⟩ := runDisciplinedSplit kept
  have inv := runLaw evidencedLaw (evidencedOpening env) first
  have next := stepLaw evidencedLaw inv rest.1
  have persisted := loggedInPersisted inv.keyed loggedIn
  have moved : run (before ++ [.request request choices]) (opening env []) =
      (run before (opening env [])).step (.request request choices) := by simp [run]
  rw [moved]
  refine ⟨persisted,fun other same address only counts => ?_⟩
  obtain ⟨user,earlier,found,stored⟩ := persisted
  cases Option.some.inj (found.symm.trans same)
  obtain rfl := userAccountId found
  obtain ⟨held,inside,_,item,member,verified,spelled,_⟩ := follows _ next _ (userMember found) key address only counts
  cases Option.some.inj (stored.symm.trans inside)
  exact ⟨item,member,verified,spelled⟩

def Happening.isOf (key : String) : Happening → Bool
  | .mailed _ _ | .githubLogin _ _ => false
  | .granted config _ => config.key = key
  | _ => true

theorem onlyAsserted {w : World} {key : String} (seen : w.journal.all (·.what.isOf key) = true)
    (accountId address : String) : OnlyAsserted w accountId key address := by
  have of : ∀ event ∈ w.journal, event.what.isOf key = true := List.all_eq_true.mp seen
  constructor
  · rintro ⟨chain,a,_,⟨token,uid,uid',precedes⟩,_⟩
    cases of _ (precedesFirst precedes)
  · rintro ⟨chain,gh,emails,item,a,_,⟨uid,begun⟩,_⟩
    cases of _ begun
  · rintro other ⟨chain,config,profile,observedAt,item,a,_,keyed,⟨_,_,_,⟨uid,granted⟩,_⟩,_⟩
    have same := of _ granted
    rw [← keyed]
    simpa [Happening.isOf] using same

def loginAgain (uid : Nat) (flag : Object) : List Move :=
  [.start .login,.request (.federated uid "one" none) (List.replicate 5 {text := "r"}),
   .request (.federated uid "one" (some {state := some s!"{uid}|r"}))
     (List.replicate 30 {text := "1", claims := upstreamClaims ++ flag})]

def verifiedLater : List Move := upstreamEnrolment [] ++ loginAgain 1 [("email_verified",.bool true)]

def unverifiedAgain : List Move := verifiedLater ++ loginAgain 2 []

theorem laterVerificationUpheld :
    (∃ user ∈ (run verifiedLater (opening claimProvider [])).users,
      Upheld (run verifiedLater (opening claimProvider [])).env user "one" "a@x.org") ∧
    ∀ user, (run unverifiedAgain (opening claimProvider [])).user "u1" = some user →
      ¬ Counts (run unverifiedAgain (opening claimProvider [])).env user "a@x.org" := by
  constructor
  · have shown : ∃ user ∈ (run verifiedLater (opening claimProvider [])).users, user.verifiedFor
        (run verifiedLater (opening claimProvider [])).env "a@x.org" = true := by decide
    obtain ⟨user,member,verified⟩ := shown
    have follows := verificationFollowsProvider claimProvider verifiedLater (by decide)
    exact ⟨user,member,follows.1 _ (runReached _ _) user member "one" "a@x.org" (onlyAsserted rfl _ _) (.inl verified)⟩
  · intro user found counts
    have follows := verificationFollowsProvider claimProvider unverifiedAgain (by decide)
    let identity := extractIdentity {providerOne with emailVerification := .oidcClaim} upstreamClaims "1"
    have loggedIn : LoggedInBy (run (unverifiedAgain.take 8) (opening claimProvider []))
        (.federated 2 "one" (some {state := some "2|r"})) (List.replicate 30 {text := "1", claims := upstreamClaims})
        "one" identity "u1" := by
      refine ⟨rfl,⟨2,2,.identify "one" identity⟩,List.mem_of_getElem? (i := 2) ?_,rfl,by decide⟩
      rfl
    have withdraws := follows.2 (unverifiedAgain.take 8) _ _ [] rfl _ _ _ loggedIn
    obtain ⟨item,member,verified,_⟩ := withdraws.reported user found "a@x.org" (onlyAsserted rfl _ _) counts
    cases List.mem_singleton.mp member
    cases verified

def trustedProvider : Env := {providers := [{providerOne with emailVerification := .trusted}]}

def trustWithdrawn : List Move := upstreamEnrolment [] ++ [.configure [providerOne]]

/- Enrolment copied the trusted address to `github.emails`, where it stays verified as evidence of
GitHub, which never saw it. -/
theorem withdrawnTrustCounts : ¬ ∀ (env : Env) (moves : List Move) (t : World),
    t ∈ reaches moves (opening env []) → ∀ user ∈ t.users, ∀ key address : String,
    OnlyAsserted t user.accountId key address → Counts t.env user address →
    Upheld t.env user key address := by
  intro claim
  have shown : ∃ user ∈ (run trustWithdrawn (opening trustedProvider [])).users,
      user.verifiedFor (run trustWithdrawn (opening trustedProvider [])).env "a@x.org" = true ∧
      ¬ Upheld (run trustWithdrawn (opening trustedProvider [])).env user "one" "a@x.org" := by decide
  obtain ⟨user,member,verified,refuted⟩ := shown
  have upheld := claim _ _ _ (runReached _ _) user member "one" "a@x.org" (onlyAsserted rfl _ _) (.inl verified)
  exact refuted upheld

end Passmower
