import Passmower.Laws

/-! Where the addresses of an account come from. An account keeps addresses in five places;
a `Support` says what has to back an address in each, and a law for it covers every call and
every edit that puts one there. -/
namespace Passmower
open JavaScript Resumption

def Asserts (entries : List (String × UpstreamIdentity)) (key : String) (item : EmailItem) : Prop :=
  ∃ identity, (key,identity) ∈ entries ∧ item ∈ identity.emails.getD []

def Spelled (env : Env) (address : Option String) (e : String) : Prop :=
  canonicalizeEmail env address = some e ∨ mappedEmail env address = some e

def Alias (env : Env) : String → String → Prop := Relation.EqvGen fun a b => Spelled env (some a) b

section Patches

@[simp] theorem patchedSame {α : Type} [DecidableEq α] (existing current : α) :
    patched existing existing current = current := by simp [patched]

theorem patchedEither {α : Type} [DecidableEq α] (existing value current : α) :
    patched existing value current = current ∨ patched existing value current = value := by
  unfold patched
  split
  · exact .inl rfl
  · exact .inr rfl

variable {key key' : String} {item : EmailItem}

theorem assertsSet {identity : UpstreamIdentity} {entries : List (String × UpstreamIdentity)}
    (asserts : Asserts (mapSet key' identity entries) key item) :
    (key = key' ∧ item ∈ identity.emails.getD []) ∨ Asserts entries key item := by
  obtain ⟨found,inside,held⟩ := asserts
  rcases mapSetMember inside with new | old
  · cases new
    exact .inl ⟨rfl,held⟩
  · exact .inr ⟨found,old,held⟩

theorem patchEntryAsserts {existing entries : List (String × UpstreamIdentity)}
    {entry : String × UpstreamIdentity}
    (asserts : Asserts (patchIdentityEntry existing entries entry) key item) :
    (key = entry.1 ∧ item ∈ entry.2.emails.getD []) ∨ Asserts entries key item := by
  unfold patchIdentityEntry at asserts
  split at asserts
  · rename_i old current _ found
    rcases assertsSet asserts with ⟨rfl,new⟩ | kept
    · rcases patchedEither old.emails entry.2.emails current.emails with same | same
      · rw [patchIdentity,same] at new
        exact .inr ⟨current,mapGetMember found,new⟩
      · rw [patchIdentity,same] at new
        exact .inl ⟨rfl,new⟩
    · exact .inr kept
  · split at asserts
    · exact .inr asserts
    · exact assertsSet asserts
  · exact assertsSet asserts

theorem patchIdentitiesAsserts {existing values current : Option (List (String × UpstreamIdentity))}
    (asserts : Asserts ((patchIdentities existing values current).getD []) key item) :
    Asserts (values.getD []) key item ∨ Asserts (current.getD []) key item := by
  have folded : ∀ (old entries start : List (String × UpstreamIdentity)),
      Asserts (entries.foldl (patchIdentityEntry old) start) key item →
      Asserts entries key item ∨ Asserts start key item := by
    intro old entries
    induction entries with
    | nil => exact fun start inside => .inr inside
    | cons entry rest ih =>
        intro start inside
        rcases ih _ inside with ⟨identity,later,held⟩ | first
        · exact .inl ⟨identity,List.mem_cons_of_mem _ later,held⟩
        · rcases patchEntryAsserts first with ⟨rfl,new⟩ | kept
          · exact .inl ⟨entry.2,List.mem_cons_self,new⟩
          · exact .inr kept
  cases existing with
  | none => cases values with
      | none => exact .inr asserts
      | some entries => exact .inl asserts
  | some old => cases values with
      | none =>
          obtain ⟨identity,none,_⟩ := asserts
          cases none
      | some entries => exact folded old entries _ asserts

variable {w : World} {chain : Nat} {merge : Specs → Specs} {user : OidcUser}

theorem mergedAsserts (merges : Merges w chain merge)
    (asserts : Asserts ((merge user.toSpecs).identities.getD []) key item) :
    Asserts user.identityEntries key item ∨
      ∃ identity, w.happened chain (.identify key identity) ∧ item ∈ identity.emails := by
  cases merges with
  | slackId slackId => exact .inl asserts
  | github gh groups emails begun => exact .inl asserts
  | identity key' identity begun =>
      rcases assertsSet asserts with ⟨rfl,new⟩ | old
      · exact .inr ⟨identity,begun,new⟩
      · exact .inl old

theorem patchedAsserts (merges : Merges w chain merge)
    (asserts : Asserts (user.toSpecs.patch (merge user.toSpecs) user).identityEntries key item) :
    Asserts user.identityEntries key item ∨
      ∃ identity, w.happened chain (.identify key identity) ∧ item ∈ identity.emails := by
  rcases patchIdentitiesAsserts asserts with merged | old
  · exact mergedAsserts merges merged
  · exact .inl old

theorem patchedGithubEmails (merges : Merges w chain merge)
    (member : item ∈ (user.toSpecs.patch (merge user.toSpecs) user).githubEmails) :
    item ∈ user.githubEmails ∨
      ∃ gh emails, w.happened chain (.githubLogin gh emails) ∧ item ∈ emails := by
  cases merges with
  | slackId slackId => exact .inl (by simpa [OidcUser.githubEmails,Specs.patch,patchGithub,mergeSlackId] using member)
  | identity key identity begun =>
      exact .inl (by simpa [OidcUser.githubEmails,Specs.patch,patchGithub,mergeIdentity] using member)
  | github gh groups emails begun =>
      simp only [OidcUser.githubEmails,Specs.patch,patchGithub,mergeGithub] at member
      rcases patchedEither user.github.emails (some emails) user.github.emails with same | same
      · rw [same] at member; exact .inl member
      · rw [same] at member; exact .inr ⟨gh,emails,begun,member⟩

theorem patchedPassmower (merges : Merges w chain merge) :
    (user.toSpecs.patch (merge user.toSpecs) user).passmower = user.passmower := by
  cases merges <;> simp [Specs.patch,patchPassmower,mergeSlackId,mergeIdentity,mergeGithub]

end Patches

section Spellings

theorem aliasSpelled {env : Env} {a b : String} (spelled : Spelled env (some a) b) : Alias env a b :=
  .rel _ _ spelled

theorem aliasCanonical {env : Env} {a b : String} (canonical : canonicalizeEmail env (some a) = some b) :
    Alias env a b := aliasSpelled (.inl canonical)

theorem spelledNone (env : Env) (e : String) : ¬ Spelled env none e := by
  rintro (canonical | mapped)
  · cases canonical
  · cases mapped

theorem canonicalBlank {env : Env} {address : Option String} (blank : mappedEmail env address = none) :
    canonicalizeEmail env address = none := by
  cases address with
  | none => rfl
  | some a =>
      simp only [mappedEmail,canonicalizeEmail,Option.bind_eq_bind,Option.bind_some] at blank ⊢
      split at blank
      · rename_i empty
        simp [empty]
      · simp at blank

variable {w w' : World} {accountId : String} {address : Option String}

theorem onwardAlias (onward : Onward w w') {a b : String} (same : Alias w.env a b) : Alias w'.env a b := by
  obtain ⟨providers,enrollUsers,env⟩ := onward.env
  rw [env]
  exact same

theorem onwardSpelled (onward : Onward w w') {e : String} :
    Spelled w'.env address e ↔ Spelled w.env address e := by
  obtain ⟨providers,enrollUsers,env⟩ := onward.env
  rw [env]
  rfl

theorem onwardResolved {chain : Nat} (onward : Onward w w') (resolved : Resolved w chain accountId) :
    Resolved w' chain accountId :=
  resolved.imp fun _ => Or.imp (onwardHappened onward) (onwardHappened onward)

structure Lasting (P : World → String → String → Prop) : Prop where
  onward : ∀ {w w' accountId a}, Onward w w' → P w accountId a → P w' accountId a
  respelled : ∀ {w accountId a b}, P w accountId a → Alias w.env a b → P w accountId b

def Rests (P : World → String → String → Prop) (w : World) (accountId : String)
    (address : Option String) : Prop :=
  ∀ e, Spelled w.env address e → P w accountId e

variable {P : World → String → String → Prop}

theorem restsNone (P : World → String → String → Prop) (w : World) (accountId : String) :
    Rests P w accountId none := by
  intro e spelled
  exact absurd spelled (spelledNone w.env e)

theorem onwardRests (lasting : Lasting P) (onward : Onward w w') (rests : Rests P w accountId address) :
    Rests P w' accountId address := by
  intro e spelled
  exact lasting.onward onward (rests e ((onwardSpelled onward).mp spelled))

theorem restsOn (lasting : Lasting P) {a : String} (holds : P w accountId a) :
    Rests P w accountId (some a) := by
  intro e spelled
  exact lasting.respelled holds (aliasSpelled spelled)

theorem restsCanonical (lasting : Lasting P) (rests : Rests P w accountId address) :
    Rests P w accountId (canonicalizeEmail w.env address) := by
  intro e spelled
  cases once : canonicalizeEmail w.env address with
  | none => rw [once] at spelled; exact absurd spelled (spelledNone w.env e)
  | some c =>
      rw [once] at spelled
      exact lasting.respelled (rests c (.inl once)) (aliasSpelled spelled)

theorem restsSource (lasting : Lasting P) {e : String}
    (linked : canonicalizeEmail w.env (canonicalizeEmail w.env address) = some e)
    (holds : P w accountId e) : Rests P w accountId address := by
  intro c spelled
  cases address with
  | none => cases linked
  | some a =>
      cases once : canonicalizeEmail w.env (some a) with
      | none => rw [once] at linked; cases linked
      | some b =>
          rw [once] at linked
          have back : Alias w.env e a := .symm _ _ (.trans _ _ _ (aliasCanonical once) (aliasCanonical linked))
          exact lasting.respelled holds (.trans _ _ _ back (aliasSpelled spelled))

end Spellings

section Evidence

theorem claimedAddress {env : Env} {user : OidcUser} {email : String}
    (claimed : email ∈ user.getClaimedEmails env) :
    ∃ address ∈ user.claimedAddresses, mappedEmail env address = some email := by
  have listed := List.mem_eraseDups.mp claimed
  obtain ⟨canonical,inside,same⟩ := List.mem_filterMap.mp listed
  obtain ⟨address,member,shown⟩ := List.mem_map.mp inside
  exact ⟨address,member,shown.trans same⟩

theorem verifiedEvidence {env : Env} {user : OidcUser} {email : String}
    (verified : user.verifiedFor env email = true) :
    (∃ item ∈ user.status.emailVerifications, item.method = .magicLink ∧
      canonicalizeEmail env item.email = some email) ∨
    (∃ item ∈ user.githubEmails, item.verified = some true ∧
      canonicalizeEmail env item.email = some email) ∨
    ∃ entry ∈ user.identityEntries, entry.2.active ≠ some false ∧ ∃ item ∈ entry.2.emails.getD [],
      item.verified = some true ∧ canonicalizeEmail env item.email = some email ∧
      (item.trusted = true → (getOidcProvider env entry.1).map (·.emailVerification) = some .trusted) := by
  obtain ⟨evidence,member,holds⟩ := List.any_eq_true.mp verified
  simp only [Bool.decide_and,Bool.and_eq_true,decide_eq_true_eq] at holds
  obtain ⟨same,status⟩ := holds
  have inside := uniqueByMember member
  simp only [List.append_assoc,List.mem_append] at inside
  have flag : ∀ {value : Option Bool}, OidcUser.statusOf value = .verified → value = some true := by
    intro value shown
    cases value with
    | none => cases shown
    | some flag => cases flag with
        | true => rfl
        | false => cases shown
  rcases inside with link | github | upstream
  · obtain ⟨item,kept,rfl⟩ := List.mem_map.mp link
    obtain ⟨stored,method⟩ := List.mem_filter.mp kept
    exact .inl ⟨item,stored,by simpa using method,same⟩
  · obtain ⟨item,stored,shown⟩ := List.mem_filterMap.mp github
    obtain ⟨address,canonical,built⟩ := Option.bind_eq_some_iff.mp shown
    cases Option.some.inj built
    exact .inr (.inl ⟨item,stored,flag status,canonical.trans same⟩)
  · obtain ⟨entry,stored,shown⟩ := List.mem_flatMap.mp upstream
    unfold OidcUser.identityEvidence at shown
    split at shown
    · cases shown
    · rename_i active
      obtain ⟨item,held,shown⟩ := List.mem_filterMap.mp shown
      obtain ⟨address,canonical,built⟩ := Option.bind_eq_some_iff.mp shown
      cases Option.some.inj built
      have observed := flag status
      simp only [OidcUser.observedVerified] at observed
      split at observed
      · cases observed
      · rename_i trusts
        have trusted : item.trusted = true →
            (getOidcProvider env entry.1).map (·.emailVerification) = some .trusted := fun on => by
          by_contra other
          exact trusts ⟨on,other⟩
        exact .inr (.inr ⟨entry,stored,active,item,held,observed,canonical.trans same,trusted⟩)

end Evidence

structure Support where
  admin : World → String → Option String → Prop
  passmower : World → String → Option String → Prop
  github : World → String → EmailItem → Prop
  identity : World → String → String → EmailItem → Prop
  magicLink : World → String → Option String → Prop

structure Supported (S : Support) (w : World) (user : OidcUser) : Prop where
  email : S.admin w user.accountId user.spec.email
  companyEmail : S.admin w user.accountId user.spec.companyEmail
  passmower : S.passmower w user.accountId user.passmower.email
  github : ∀ item ∈ user.githubEmails, S.github w user.accountId item
  identity : ∀ key item, Asserts user.identityEntries key item → S.identity w user.accountId key item
  magicLink : ∀ item ∈ user.status.emailVerifications, item.method = .magicLink →
    S.magicLink w user.accountId item.email

structure SupportLaw (S : Support) (ok : World → Call → Prop) (Inv : World → Prop) : Prop where
  mono : ∀ {w w' user}, Onward w w' → Supported S w user → Supported S w' user
  absent : ∀ w accountId, S.admin w accountId none ∧ S.passmower w accountId none
  canonical : ∀ {w accountId email}, S.magicLink w accountId email →
    S.magicLink w accountId (canonicalizeEmail w.env email)
  enrolled : ∀ {w w' : World} {uid i accountId body}, Inv w → ok w (.createUser uid accountId body) →
    w.user accountId = none → w.interaction uid = some i → Enrols w uid i accountId body → Onward w w' →
    ⟨i.chain,uid,.created accountId body.email⟩ ∈ w'.journal →
    S.passmower w' accountId body.email ∧ ∀ item ∈ body.githubEmails.getD [], S.github w' accountId item
  githubLogin : ∀ {w : World} {chain accountId gh emails item}, Inv w → Resolved w chain accountId →
    w.happened chain (.githubLogin gh emails) → item ∈ emails → S.github w accountId item
  identify : ∀ {w : World} {chain accountId key identity item}, Inv w → Resolved w chain accountId →
    w.happened chain (.identify key identity) → item ∈ identity.emails → S.identity w accountId key item
  verified : ∀ {w : World} {uid chain carried accountId email verifiedAt}, Inv w →
    Within w uid chain carried → Mutates w uid chain carried accountId (.verifyEmail email verifiedAt) →
    S.magicLink w accountId email
  invited : ∀ {w : World} {accountId address}, (accountId,address) ∈ w.administered →
    S.passmower w accountId (some address)
  administered : ∀ {w : World} {accountId address}, (accountId,address) ∈ w.administered →
    S.admin w accountId (some address)

section Preservation
variable {S : Support} {ok : World → Call → Prop} {Inv : World → Prop} {w : World}

theorem restatedMagicLink {env : Env} {mutation : StatusMutation} {user : OidcUser} {item : EmailEvidence}
    (member : item ∈ (user.restated env mutation).status.emailVerifications)
    (method : item.method = .magicLink) :
    ∃ source ∈ (mutation.apply env user).status.emailVerifications, source.method = .magicLink ∧
      item.email = canonicalizeEmail env source.email := by
  have inside := uniqueByMember member
  simp only [List.append_assoc,List.mem_append] at inside
  rcases inside with link | github | upstream
  · obtain ⟨source,kept,rfl⟩ := List.mem_map.mp link
    obtain ⟨stored,same⟩ := List.mem_filter.mp kept
    exact ⟨source,stored,by simpa using same,rfl⟩
  · obtain ⟨source,_,shown⟩ := List.mem_filterMap.mp github
    obtain ⟨email,_,same⟩ := Option.bind_eq_some_iff.mp shown
    cases Option.some.inj same
    cases method
  · obtain ⟨entry,_,shown⟩ := List.mem_flatMap.mp upstream
    unfold OidcUser.identityEvidence at shown
    split at shown
    · cases shown
    · obtain ⟨source,_,shown⟩ := List.mem_filterMap.mp shown
      obtain ⟨email,_,same⟩ := Option.bind_eq_some_iff.mp shown
      cases Option.some.inj same
      revert method
      simp only
      split <;> exact fun none => by cases none

theorem verifiedSource {env : Env} {user : OidcUser} {email verifiedAt : Option String}
    {item : EmailEvidence}
    (member : item ∈ (user.verifyEmail env email .magicLink "passmower" verifiedAt).status.emailVerifications) :
    item ∈ user.status.emailVerifications ∨ item.email = canonicalizeEmail env email := by
  unfold OidcUser.verifyEmail at member
  split at member
  · exact .inl member
  · rename_i address canonical
    split at member
    · exact .inl member
    · rcases List.mem_append.mp member with old | new
      · exact .inl (List.mem_filter.mp old).1
      · cases List.mem_singleton.mp new
        exact .inr canonical.symm

theorem restatedSupported (law : SupportLaw S ok Inv) {user : OidcUser} {mutation : StatusMutation}
    (held : Supported S w user) (verified : ∀ email verifiedAt, mutation = .verifyEmail email verifiedAt →
      S.magicLink w user.accountId email) : Supported S w (user.restated w.env mutation) where
  email := held.email
  companyEmail := held.companyEmail
  passmower := held.passmower
  github := held.github
  identity := held.identity
  magicLink item member method := by
    obtain ⟨source,inside,same,shown⟩ := restatedMagicLink member method
    rw [shown]
    apply law.canonical
    cases mutation with
    | none => exact held.magicLink source inside same
    | addCondition condition => exact held.magicLink source inside same
    | verifyEmail email verifiedAt =>
        rcases verifiedSource inside with old | new
        · exact held.magicLink source old same
        · rw [new]
          exact law.canonical (verified email verifiedAt rfl)

theorem freshSupported (law : SupportLaw S ok Inv) {accountId : String} {time : Nat} {body : NewUser}
    (passmower : S.passmower w accountId body.email)
    (github : ∀ item ∈ body.githubEmails.getD [], S.github w accountId item)
    (bare : ∀ key item, ¬ Asserts (body.identities.getD []) key item) :
    Supported S w (body.resource accountId time) where
  email := (law.absent _ _).1
  companyEmail := (law.absent _ _).1
  passmower := passmower
  github := github
  identity key item asserts := absurd asserts (bare key item)
  magicLink item member := by cases member

theorem entriesBare (identity : StableIdentity) (key : String) (item : EmailItem) :
    ¬ Asserts (identity.entries.getD []) key item := by
  rintro ⟨found,inside,held⟩
  cases named : truthy identity.providerKey with
  | none => simp [StableIdentity.entries,named] at inside
  | some providerKey => cases subject : truthy identity.subject with
      | none => simp [StableIdentity.entries,named,subject] at inside
      | some sub =>
          simp [StableIdentity.entries,named,subject] at inside
          simp [inside.2] at held

theorem enrolsBare {uid : Nat} {i : Interaction} {accountId : String} {body : NewUser}
    (enrols : Enrols w uid i accountId body) (key : String) (item : EmailItem) :
    ¬ Asserts (body.identities.getD []) key item := by
  cases enrols with
  | login email githubEmails identity _ _ => exact entriesBare identity key item
  | form _ => exact entriesBare _ key item

theorem supportedCall (law : SupportLaw S ok Inv) {c : Call} {choice : Choice} (inv : Inv w)
    (good : ok w c) (lawful : Lawful w c) (all : ∀ user ∈ w.users, Supported S w user) :
    ∀ user ∈ (serve choice c w).2.users, Supported S (serve choice c w).2 user := by
  intro user member
  have onward := laterOnward (serveLater choice c w)
  have account := lawfulAccount lawful member
  generalize (serve choice c w).2 = w' at onward account
  cases account with
  | kept c user old => exact law.mono onward (all user old)
  | created uid i accountId body time found enrols free logged =>
      obtain ⟨passmower,github⟩ := law.enrolled inv good free found enrols onward logged
      exact freshSupported law passmower github (enrolsBare enrols)
  | patched chain user merge merges resolved found =>
      have held := all user (userMember found)
      apply law.mono onward
      constructor
      · exact held.email
      · exact held.companyEmail
      · rw [patchedPassmower merges]
        exact held.passmower
      · intro item inside
        rcases patchedGithubEmails merges inside with old | ⟨gh,emails,begun,new⟩
        · exact held.github item old
        · exact law.githubLogin inv resolved begun new
      · intro key item asserts
        rcases patchedAsserts merges asserts with old | ⟨identity,begun,new⟩
        · exact held.identity key item old
        · exact law.identify inv resolved begun new
      · exact held.magicLink
  | restated uid chain carried user mutation within resolved found mutates =>
      have held := all user (userMember found)
      apply law.mono onward
      apply restatedSupported law held
      intro email verifiedAt same
      subst same
      exact law.verified inv within mutates

theorem activeAsserts {key key' : String} {active : Bool} {user : OidcUser} {item : EmailItem}
    (asserts : Asserts (user.withActive key' active).identityEntries key item) :
    Asserts user.identityEntries key item := by
  unfold OidcUser.withActive at asserts
  split at asserts
  · rename_i identity found
    rcases assertsSet asserts with ⟨rfl,kept⟩ | old
    · exact ⟨identity,mapGetMember found,kept⟩
    · exact old
  · exact asserts

theorem activeSupported {user : OidcUser} (key : String) (active : Bool) (held : Supported S w user) :
    Supported S w (user.withActive key active) := by
  have emails : ∀ key' item, Asserts (user.withActive key active).identityEntries key' item →
      Asserts user.identityEntries key' item := fun key' item => activeAsserts
  have same : user.withActive key active =
      {user with identities := (user.withActive key active).identities} := by
    unfold OidcUser.withActive
    split <;> rfl
  rw [same] at emails ⊢
  exact ⟨held.email,held.companyEmail,held.passmower,held.github,
    fun key' item asserts => held.identity key' item (emails key' item asserts),held.magicLink⟩

theorem specSupported (law : SupportLaw S ok Inv) {accountId : String} {spec : AdminSpec}
    {address : Option String} (listed : ∀ a ∈ spec.addresses, (accountId,a) ∈ w.administered)
    (held : address = spec.email ∨ address = spec.companyEmail) : S.admin w accountId address := by
  cases address with
  | none => exact (law.absent _ _).1
  | some a =>
      apply law.administered
      apply listed
      rcases held with same | same <;> simp [AdminSpec.addresses,← same]

theorem supportedEdit (law : SupportLaw S ok Inv) {m : Move} (edit : m.isRequest = false)
    (all : ∀ user ∈ w.users, Supported S w user) :
    ∀ user ∈ (w.step m).users, Supported S (w.step m) user := by
  intro user member
  have onward := editOnward edit (w := w)
  have edited := editAccount edit member
  generalize w.step m = w' at onward edited
  cases edited with
  | kept user old => exact law.mono onward (all user old)
  | active user key active old => exact law.mono onward (activeSupported key active (all user old))
  | restated user old =>
      exact law.mono onward (restatedSupported law (all user old) fun _ _ none => by cases none)
  | invited accountId address time listed env =>
      rw [← env]
      apply restatedSupported law
      · apply freshSupported law (law.invited listed)
        · exact fun item none => by cases none
        · rintro key item ⟨identity,none,_⟩
          cases none
      · exact fun _ _ none => by cases none
  | administered user spec old listed =>
      have held := law.mono onward (all user old)
      constructor
      · exact specSupported law listed (.inl rfl)
      · exact specSupported law listed (.inr rfl)
      · exact held.passmower
      · exact held.github
      · exact held.identity
      · exact held.magicLink
  | added accountId spec listed =>
      constructor
      · exact specSupported law listed (.inl rfl)
      · exact specSupported law listed (.inr rfl)
      · exact (law.absent _ _).2
      · exact fun item empty => by cases empty
      · rintro key item ⟨identity,empty,_⟩
        cases empty
      · exact fun item empty => by cases empty

end Preservation
end Passmower
