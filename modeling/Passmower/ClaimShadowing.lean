import Passmower.GroupsClaim

/-! Claims Passmower computes against those of the webhook and of claim mappings: which of the computed names
nothing can take over, and what has to hold of the others. -/
namespace Passmower
open JavaScript

def computedClaims : List String := ["sub","username","nickname","email","email_verified","emails","name","company",
  "phones","groups","applications"]

def unprotectedClaims : List String := ["nickname","company","phones","applications"]

section Shadowing
variable (account : OidcUser) (ctx : ClaimsContext) (use : ClaimsUse) (scope : String)

def overriding (name : String) : Option Json :=
  ((account.mappedClaims ctx).get name).or ((OidcUser.extraClaims ctx (scopeTokens scope)).get name)

def Unshadowed : Prop :=
  (∀ name ∈ computedClaims, ∀ value, (account.ownClaims ctx use scope).get name = some value →
    (account.claims ctx use scope).get name = some value) ∧
  (account.claims ctx use scope).get namespacesClaim =
    ((account.ownClaims ctx use scope).spread (OidcUser.extraClaims ctx (scopeTokens scope))).get namespacesClaim

structure SaysTheSame : Prop where
  nickname : ∀ other, overriding account ctx scope "nickname" = some other → other = .string account.accountId
  company : includes scope "profile" = true → ∀ company, account.status.profile.company = some company →
    ∀ other, overriding account ctx scope "company" = some other → other = .string company
  phones : includes scope "profile" = true → ∀ phones, account.status.profile.phones = some phones →
    ∀ other, overriding account ctx scope "phones" = some other → other = strings phones
  applications : use = .userinfo → "applications" ∈ scopeTokens scope →
    ∀ other, (OidcUser.extraClaims ctx (scopeTokens scope)).get "applications" = some other → other = ctx.applications

variable {account ctx use scope} {name : String}

theorem mergedClaim (name : String) : (account.claims ctx use scope).get name =
    (overriding account ctx scope name).or ((account.ownClaims ctx use scope).get name) := by
  unfold OidcUser.claims overriding
  rw [getSpread,getSpread,Option.or_assoc]

theorem keptClaim {value : Json} (own : (account.ownClaims ctx use scope).get name = some value) :
    (account.claims ctx use scope).get name = some value ↔
      ∀ other, overriding account ctx scope name = some other → other = value := by
  rw [mergedClaim,own]
  cases overriding account ctx scope name with
  | none => simp
  | some other => simp

theorem nothingProtected (guarded : name ∈ protectedClaims) : overriding account ctx scope name = none := by
  unfold overriding OidcUser.mappedClaims
  rw [mappedReserved _ _ (protectedReserved guarded),extraProtected _ guarded]
  rfl

theorem overridingReserved (reserved : name ∈ reservedClaims) : overriding account ctx scope name =
    (OidcUser.extraClaims ctx (scopeTokens scope)).get name := by
  unfold overriding OidcUser.mappedClaims
  rw [mappedReserved _ _ reserved]
  rfl

theorem computedCovered (computed : name ∈ computedClaims) : name ∈ protectedClaims ∨ name ∈ unprotectedClaims := by
  revert name
  decide

section Computed

theorem profileCompany : account.profileClaims.get "company" = account.status.profile.company.map .string := by
  unfold OidcUser.profileClaims
  cases account.status.profile.name <;> cases account.status.profile.company <;>
    cases account.status.profile.phones <;> simp [Object.get]

theorem profilePhones : account.profileClaims.get "phones" = account.status.profile.phones.map strings := by
  unfold OidcUser.profileClaims
  cases account.status.profile.name <;> cases account.status.profile.company <;>
    cases account.status.profile.phones <;> simp [Object.get]

theorem ownNickname : (account.ownClaims ctx use scope).get "nickname" = some (.string account.accountId) := by
  rw [ownClaim,profileOther (by decide),emailOther (by decide)]
  simp [Object.get]

theorem ownCompany : (account.ownClaims ctx use scope).get "company" =
    if includes scope "profile" then account.status.profile.company.map .string else none := by
  rw [ownClaim,profileCompany,emailOther (by decide)]
  simp [Object.get]

theorem ownPhones : (account.ownClaims ctx use scope).get "phones" =
    if includes scope "profile" then account.status.profile.phones.map strings else none := by
  rw [ownClaim,profilePhones,emailOther (by decide)]
  simp [Object.get]

theorem ownApplications : (account.ownClaims ctx use scope).get "applications" =
    if use = .userinfo ∧ "applications" ∈ scopeTokens scope then some ctx.applications else none := by
  rw [ownClaim,profileOther (by decide),emailOther (by decide)]
  simp [Object.get]

end Computed

theorem keptUnprotected : (∀ name ∈ unprotectedClaims, ∀ value, (account.ownClaims ctx use scope).get name = some value →
    (account.claims ctx use scope).get name = some value) ↔ SaysTheSame account ctx use scope := by
  constructor
  · intro kept
    refine ⟨?_,fun profile company had => ?_,fun profile phones had => ?_,fun userinfo asked => ?_⟩
    · exact (keptClaim ownNickname).mp (kept "nickname" (by decide) _ ownNickname)
    · have own : (account.ownClaims ctx use scope).get "company" = some (.string company) := by
        rw [ownCompany,if_pos profile,had]
        rfl
      exact (keptClaim own).mp (kept "company" (by decide) _ own)
    · have own : (account.ownClaims ctx use scope).get "phones" = some (strings phones) := by
        rw [ownPhones,if_pos profile,had]
        rfl
      exact (keptClaim own).mp (kept "phones" (by decide) _ own)
    · have own : (account.ownClaims ctx use scope).get "applications" = some ctx.applications := by
        rw [ownApplications,if_pos ⟨userinfo,asked⟩]
      have said := (keptClaim own).mp (kept "applications" (by decide) _ own)
      rwa [overridingReserved (by decide)] at said
  · intro same name unguarded value own
    refine (keptClaim own).mpr fun other shadowing => ?_
    simp only [unprotectedClaims,List.mem_cons,List.not_mem_nil,or_false] at unguarded
    rcases unguarded with rfl | rfl | rfl | rfl
    · rw [ownNickname] at own
      exact (same.nickname other shadowing).trans (Option.some.inj own)
    · rw [ownCompany] at own
      split at own
      · rename_i profile
        obtain ⟨company,had,rfl⟩ := Option.map_eq_some_iff.mp own
        exact same.company profile company had other shadowing
      · cases own
    · rw [ownPhones] at own
      split at own
      · rename_i profile
        obtain ⟨phones,had,rfl⟩ := Option.map_eq_some_iff.mp own
        exact same.phones profile phones had other shadowing
      · cases own
    · rw [ownApplications] at own
      split at own
      · rename_i asked
        rw [overridingReserved (by decide)] at shadowing
        exact (same.applications asked.1 asked.2 other shadowing).trans (Option.some.inj own)
      · cases own

end Shadowing

/- The protected names and the namespaces are never taken over; the four others just when the mapping, or else
the webhook, says something else of them where Passmower has a value. -/
theorem claimShadowing (account : OidcUser) (ctx : ClaimsContext) (use : ClaimsUse) (scope : String) :
    Unshadowed account ctx use scope ↔ SaysTheSame account ctx use scope := by
  rw [← keptUnprotected]
  constructor
  · intro unshadowed name unguarded
    refine unshadowed.1 name ?_
    revert name
    decide
  · intro kept
    refine ⟨fun name computed value own => ?_,?_⟩
    · rcases computedCovered computed with guarded | unguarded
      · rw [mergedClaim,nothingProtected guarded,own]
        rfl
      · exact kept name unguarded value own
    · rw [mergedClaim,overridingReserved (by decide),getSpread]

def nicknameMapping : ClaimMappings where
  claimMappings := some (.object [("nickname",.object [("default",.string "root")])])
  accepted := by decide +kernel

/- A mapping names `nickname`, which is not reserved. -/
theorem nicknameTaken : ¬ ∀ (account : OidcUser) (ctx : ClaimsContext) (use : ClaimsUse) (scope : String),
    Unshadowed account ctx use scope := by
  intro always
  obtain ⟨kept,_⟩ := always groupAccount {client := ⟨"app",[],nicknameMapping⟩} .idToken "openid"
  have mapped : ((groupAccount.claims {client := ⟨"app",[],nicknameMapping⟩} .idToken "openid").get "nickname").bind
      Json.string? = some "root" := by decide +kernel
  rw [kept "nickname" (by decide) _ ownNickname] at mapped
  exact absurd mapped (by decide)

end Passmower
