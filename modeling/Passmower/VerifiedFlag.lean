import Passmower.OidcLogin

/-! The verified flag of an upstream address: what a provider's definition grants, and which of
the two responses the flag of the extracted address rests on. The merge compares canonical
addresses, and two addresses without a canonical form compare equal. -/
namespace Passmower
open JavaScript

structure Url where
  protocol : String
  host : String
  hostname : String
  pathname : String
  deriving DecidableEq, Repr

section Providers
variable (env : Env) (parseUrl : String → Option Url)

def defaultEmailVerification (issuer : Option Json) : EmailVerification :=
  match parseUrl (textOf issuer) with
  | none => .none
  | some url =>
      if url.protocol = "https:" ∧ url.hostname ∈ ["accounts.google.com","gitlab.com"] then .oidcClaim else .none

/- A multi-tenant Entra ID endpoint signs in users of every tenant, so it is never trusted. -/
def isMultiTenantEntra (issuer : Option Json) : Bool :=
  match parseUrl (textOf issuer) with
  | none => false
  | some url => url.hostname = "login.microsoftonline.com" ∧
      ∃ tenant ∈ (split '/' url.pathname)[1]?, env.toLowerCase tenant ∈ ["common","organizations","consumers"]

def emailVerification (definition : Object) : EmailVerification :=
  match definition.get "emailVerification" with
  | some (.string "trusted") => if isMultiTenantEntra env parseUrl (definition.get "issuer") then .none else .trusted
  | some (.string "oidc-claim") => .oidcClaim
  | some (.string "none") => .none
  | _ => defaultEmailVerification parseUrl (definition.get "issuer")

def isLinkingClaim (name : String) : Bool :=
  name ≠ "" && name.toList.all (fun c => c.isAlphanum || c ∈ ['_','.',':','-'])

def buildProvider (definition : Object) : Option ProviderConfig :=
  let key := definition.get "key"
  let issuer := definition.get "issuer"
  if !isTruthyOr key || !isTruthyOr issuer then none
  else
    let groupPrefix := definition.get "groupPrefix"
    some {
      key := textOf key
      displayName := textOf ((definition.get "displayName").filter Json.isTruthy <|> key)
      emailVerification := emailVerification env parseUrl definition
      groupsClaim := ((definition.get "groupsClaim").filter Json.isTruthy).map Json.toText
      groupPrefix := if isTruthyOr groupPrefix then textOf groupPrefix
        else ((parseUrl (textOf issuer)).map (·.host)).getD (textOf key)
      linkingClaims := match definition.get "linkingClaims" with
        | some (.array names) => uniqueBy id ((names.filterMap Json.string?).filter isLinkingClaim)
        | _ => [] }

end Providers

structure UpstreamEmail where
  email : Json
  primary : Bool
  verified : Option Bool
  trusted : Bool
  observedAt : String

def upstreamEmails (config : ProviderConfig) (profile : Object) (observedAt : String) : List UpstreamEmail :=
  match (profile.get "email").filter Json.isTruthy with
  | none => []
  | some email =>
      [{email, primary := true,
        verified := emailVerified config.emailVerification (claimFlag profile "email_verified"),
        trusted := decide (config.emailVerification = .trusted), observedAt}]

section Merging
variable {env : Env} {claims userinfo : Object}

theorem getSet {o : Object} {key : String} {value : Json} : (o.set key value).get key = some value := by
  simp [Object.set,Object.get]

theorem getSetOther {o : Object} {key other : String} {value : Json} (distinct : other ≠ key) :
    (o.set key value).get other = o.get other := by
  simp [Object.set,Object.get,Ne.symm distinct]

theorem getDelete {o : Object} {key : String} : (o.delete key).get key = none := by
  simp only [Object.get,Object.delete,Option.map_eq_none_iff,List.find?_eq_none,List.mem_filter]
  intro field inside
  simpa using inside.2

theorem getDeleteOther {o : Object} {key other : String} (distinct : other ≠ key) :
    (o.delete key).get other = o.get other := by
  simp only [Object.get,Object.delete,List.find?_filter]
  congr 2
  funext field
  by_cases same : field.1 = other
  · simp [same,distinct]
  · simp [same]

def sourceAddress (env : Env) (source : Object) : Option String := canonicalizeEmail env (claimText source "email")

def Signals (env : Env) (claims userinfo : Object) (address : Option String) (flag : Bool) : Prop :=
  ∃ source ∈ [claims,userinfo], sourceAddress env source = address ∧ claimFlag source "email_verified" = some flag

instance (env claims userinfo address flag) : Decidable (Signals env claims userinfo address flag) := by
  unfold Signals; infer_instance

theorem signalsMatching {address : Option String} {flag : Bool} :
    flag ∈ ([claims,userinfo].filter (fun source => sourceAddress env source = address)).filterMap
      (claimFlag · "email_verified") ↔ Signals env claims userinfo address flag := by
  simp only [List.mem_filterMap,List.mem_filter,decide_eq_true_eq,and_assoc,Signals]

theorem mergedEmail : (mergeOidcProfile env claims userinfo).get "email" = (Object.spread claims userinfo).get "email" := by
  unfold mergeOidcProfile
  simp only
  split
  · exact getSetOther (by decide)
  · split
    · exact getSetOther (by decide)
    · exact getDeleteOther (by decide)

theorem mergedFlag : claimFlag (mergeOidcProfile env claims userinfo) "email_verified" =
    if Signals env claims userinfo (sourceAddress env (Object.spread claims userinfo)) false then some false
    else if Signals env claims userinfo (sourceAddress env (Object.spread claims userinfo)) true then some true
    else none := by
  unfold mergeOidcProfile
  simp only [← sourceAddress.eq_1,signalsMatching]
  split
  · simp [claimFlag,getSet,Json.bool?]
  · split
    · simp [claimFlag,getSet,Json.bool?]
    · simp only [claimFlag,getDelete,Option.bind_none]

theorem emailVerifiedTrue {capability : EmailVerification} {claim : Option Bool} :
    emailVerified capability claim = some true ↔
      claim ≠ some false ∧ (capability = .trusted ∨ (capability = .oidcClaim ∧ claim = some true)) := by
  unfold emailVerified
  cases capability with
  | trusted => by_cases denied : claim = some false <;> simp [denied]
  | oidcClaim =>
      by_cases denied : claim = some false
      · simp [denied]
      · by_cases given : claim = some true <;> simp [denied,given]
  | none => by_cases denied : claim = some false <;> simp [denied]

end Merging

section Soundness
variable (env : Env) (parseUrl : String → Option Url) (definition claims userinfo : Object)

def Carries (source : Object) (email : Json) : Prop :=
  ∃ address, sourceAddress env source = some address ∧ canonicalizeEmail env email.string? = some address

structure FlagSound (email : Json) : Prop where
  undisputed : ∀ source ∈ [claims,userinfo], Carries env source email →
    claimFlag source "email_verified" ≠ some false
  granted : (emailVerification env parseUrl definition = .trusted ∧
      isMultiTenantEntra env parseUrl (definition.get "issuer") = false) ∨
    (emailVerification env parseUrl definition = .oidcClaim ∧
      ∃ source ∈ [claims,userinfo], Carries env source email ∧ claimFlag source "email_verified" = some true)

/- The selected address has no canonical form, and the flags of such addresses speak for it. -/
def StrayFlag : Prop :=
  emailVerification env parseUrl definition = .oidcClaim ∧
  (∃ email ∈ (Object.spread claims userinfo).get "email", email.isTruthy = true ∧
    canonicalizeEmail env email.string? = none) ∧
  Signals env claims userinfo none true ∧ ¬ Signals env claims userinfo none false

theorem trustedSingleTenant (trusted : emailVerification env parseUrl definition = .trusted) :
    isMultiTenantEntra env parseUrl (definition.get "issuer") = false := by
  unfold emailVerification at trusted
  split at trusted
  · split at trusted
    · cases trusted
    · simpa using ‹¬ isMultiTenantEntra env parseUrl (definition.get "issuer") = true›
  · cases trusted
  · cases trusted
  · unfold defaultEmailVerification at trusted
    split at trusted
    · cases trusted
    · split at trusted <;> cases trusted

theorem builtVerification {config : ProviderConfig} (built : config ∈ buildProvider env parseUrl definition) :
    config.emailVerification = emailVerification env parseUrl definition := by
  unfold buildProvider at built
  simp only at built
  split at built
  · cases built
  · cases built
    rfl

theorem upstreamVerified {config : ProviderConfig} {profile : Object} {observedAt : String} {item : UpstreamEmail}
    (inside : item ∈ upstreamEmails config profile observedAt) :
    profile.get "email" = some item.email ∧ item.email.isTruthy = true ∧
      (item.verified = some true ↔ claimFlag profile "email_verified" ≠ some false ∧
        (config.emailVerification = .trusted ∨
          (config.emailVerification = .oidcClaim ∧ claimFlag profile "email_verified" = some true))) := by
  unfold upstreamEmails at inside
  split at inside
  · cases inside
  · rename_i email found
    obtain ⟨held,full⟩ := Option.filter_eq_some_iff.mp found
    cases List.mem_singleton.mp inside
    exact ⟨held,full,emailVerifiedTrue⟩

variable {env parseUrl definition claims userinfo}

theorem carriesSelected {email : Json} {address : String} (held : (Object.spread claims userinfo).get "email" = some email)
    (canonical : canonicalizeEmail env email.string? = some address) (source : Object) :
    Carries env source email ↔ sourceAddress env source = sourceAddress env (Object.spread claims userinfo) := by
  have selected : sourceAddress env (Object.spread claims userinfo) = some address := by
    simpa [sourceAddress,claimText,held] using canonical
  rw [selected]
  constructor
  · rintro ⟨other,named,same⟩
    rw [named,← same,canonical]
  · intro named
    exact ⟨address,named,canonical⟩

theorem canonicalSound {config : ProviderConfig} {observedAt : String} {item : UpstreamEmail} {address : String}
    (built : config ∈ buildProvider env parseUrl definition)
    (inside : item ∈ upstreamEmails config (mergeOidcProfile env claims userinfo) observedAt)
    (verified : item.verified = some true) (canonical : canonicalizeEmail env item.email.string? = some address) :
    FlagSound env parseUrl definition claims userinfo item.email := by
  obtain ⟨held,_,exactly⟩ := upstreamVerified inside
  rw [mergedEmail] at held
  obtain ⟨undenied,capable⟩ := exactly.mp verified
  rw [builtVerification env parseUrl definition built] at capable
  have carries := carriesSelected held canonical
  rw [mergedFlag] at undenied
  have undisputed : ¬ Signals env claims userinfo (sourceAddress env (Object.spread claims userinfo)) false := by
    intro disputed
    exact undenied (if_pos disputed)
  refine ⟨?_,?_⟩
  · intro source listed same denied
    exact undisputed ⟨source,listed,(carries source).mp same,denied⟩
  · rcases capable with trusted | ⟨mode,flagged⟩
    · exact .inl ⟨trusted,trustedSingleTenant env parseUrl definition trusted⟩
    · rw [mergedFlag,if_neg undisputed] at flagged
      split at flagged
      · rename_i signals
        obtain ⟨source,listed,same,flag⟩ := signals
        exact .inr ⟨mode,source,listed,(carries source).mpr same,flag⟩
      · cases flagged

theorem trustedSound {email : Json} (blank : canonicalizeEmail env email.string? = none)
    (trusted : emailVerification env parseUrl definition = .trusted) :
    FlagSound env parseUrl definition claims userinfo email where
  undisputed source _ same := by
    obtain ⟨address,_,canonical⟩ := same
    simp [blank] at canonical
  granted := .inl ⟨trusted,trustedSingleTenant env parseUrl definition trusted⟩

end Soundness

/- The verified flag is sound exactly where no flag strays onto an address that has no
canonical form. -/
theorem verifiedFlagSoundness (env : Env) (parseUrl : String → Option Url) (definition claims userinfo : Object)
    (observedAt : String) : ∀ config ∈ buildProvider env parseUrl definition,
    ((∀ item ∈ upstreamEmails config (mergeOidcProfile env claims userinfo) observedAt,
      item.verified = some true → FlagSound env parseUrl definition claims userinfo item.email) ↔
      ¬ StrayFlag env parseUrl definition claims userinfo) := by
  intro config built
  constructor
  · rintro sound ⟨mode,⟨email,held,full,blank⟩,flagged,undenied⟩
    have selected : sourceAddress env (Object.spread claims userinfo) = none := by
      rw [← blank,sourceAddress,claimText,Option.mem_def.mp held]
      rfl
    have marked : claimFlag (mergeOidcProfile env claims userinfo) "email_verified" = some true := by
      rw [mergedFlag,selected,if_neg undenied,if_pos flagged]
    have extracted : (mergeOidcProfile env claims userinfo).get "email" = some email := by
      rw [mergedEmail]
      exact held
    have verified : emailVerified config.emailVerification (some true) = some true :=
      emailVerifiedTrue.mpr ⟨by simp,.inr ⟨by rw [builtVerification env parseUrl definition built,mode],rfl⟩⟩
    let item : UpstreamEmail := ⟨email,true,some true,decide (config.emailVerification = .trusted),observedAt⟩
    have inside : item ∈ upstreamEmails config (mergeOidcProfile env claims userinfo) observedAt := by
      simp [upstreamEmails,extracted,Option.filter_some,full,marked,verified,item]
    rcases (sound item inside rfl).granted with ⟨trusted,_⟩ | ⟨_,source,_,⟨address,_,canonical⟩,_⟩
    · rw [mode] at trusted
      cases trusted
    · rw [blank] at canonical
      cases canonical
  · intro unstrayed item inside verified
    cases canonical : canonicalizeEmail env item.email.string? with
    | some address => exact canonicalSound built inside verified canonical
    | none =>
        obtain ⟨held,full,exactly⟩ := upstreamVerified inside
        rw [mergedEmail] at held
        obtain ⟨undenied,capable⟩ := exactly.mp verified
        rw [builtVerification env parseUrl definition built] at capable
        rcases capable with trusted | ⟨mode,flagged⟩
        · exact trustedSound canonical trusted
        · have selected : sourceAddress env (Object.spread claims userinfo) = none := by
            simpa [sourceAddress,claimText,held] using canonical
          rw [mergedFlag,selected] at undenied flagged
          have undisputed : ¬ Signals env claims userinfo none false := by
            intro disputed
            exact undenied (if_pos disputed)
          rw [if_neg undisputed] at flagged
          have signalled : Signals env claims userinfo none true := by
            by_contra silent
            rw [if_neg silent] at flagged
            cases flagged
          exact absurd ⟨mode,⟨item.email,held,full,canonical⟩,signalled,undisputed⟩ unstrayed

namespace VerifiedFlag

def issuer : Url := ⟨"https:","accounts.google.com","accounts.google.com","/"⟩

def parse (text : String) : Option Url := if text = "https://accounts.google.com" then some issuer else none

def google : Object := [("key",.string "google"),("issuer",.string "https://accounts.google.com")]

def claims : Object := [("sub",.string "s"),("email",.array [.string "a@x.org"]),("email_verified",.bool true)]

def userinfo : Object := [("sub",.string "s"),("email",.array [.string "b@x.org"])]

end VerifiedFlag

theorem verifiedFlagSoundnessApplied :
    (buildProvider {} VerifiedFlag.parse VerifiedFlag.google).isSome = true ∧
    ∀ item ∈ upstreamEmails ⟨"google","google",.oidcClaim,none,"accounts.google.com",[]⟩
      (mergeOidcProfile {} [("email",.string "a@x.org"),("email_verified",.bool true)] []) "t",
      item.verified = some true → FlagSound {} VerifiedFlag.parse VerifiedFlag.google
        [("email",.string "a@x.org"),("email_verified",.bool true)] [] item.email := by
  refine ⟨rfl,?_⟩
  apply (verifiedFlagSoundness {} VerifiedFlag.parse VerifiedFlag.google _ _ "t" _ rfl).mpr
  rintro ⟨_,⟨email,held,_,blank⟩,_⟩
  cases held
  revert blank
  decide +kernel

/- The flag of the one address marks the other as verified. -/
theorem verifiedFlagUnsound : ∃ config ∈ buildProvider {} VerifiedFlag.parse VerifiedFlag.google,
    ¬ ∀ item ∈ upstreamEmails config (mergeOidcProfile {} VerifiedFlag.claims VerifiedFlag.userinfo) "t",
      item.verified = some true → FlagSound {} VerifiedFlag.parse VerifiedFlag.google
        VerifiedFlag.claims VerifiedFlag.userinfo item.email := by
  refine ⟨_,rfl,?_⟩
  intro sound
  rcases (sound _ (List.mem_singleton.mpr rfl) rfl).granted with ⟨trusted,_⟩ | ⟨_,_,_,⟨_,_,canonical⟩,_⟩
  · cases trusted
  · cases canonical

end Passmower
