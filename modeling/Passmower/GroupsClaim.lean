import Passmower.Claims

/-! The groups claim: what a scope string has to look like for `claims` to release the groups its tokens ask
for, as `extraTokenClaims` always does. -/
namespace Passmower
open JavaScript

section Names
variable {account : OidcUser} {ctx : ClaimsContext} {name : String}

theorem mappedReserved (mappings : ClaimMappings) (groups : List String) (reserved : name ∈ reservedClaims) :
    (mappings.evaluateClaimMappings groups).get name = none := by
  unfold Object.get
  rw [Option.map_eq_none_iff,List.find?_eq_none]
  intro entry inside same
  simp only [beq_iff_eq] at same
  obtain ⟨mapping,_,value⟩ := List.mem_filterMap.mp inside
  by_cases other : mapping.1 ∈ reservedClaims
  · simp [other] at value
  · rw [if_neg other,Option.map_eq_some_iff] at value
    obtain ⟨text,_,rfl⟩ := value
    exact other (same ▸ reserved)

theorem fetchedProtected (answer : Option Json) (guarded : name ∈ protectedClaims) :
    (fetchExtraClaims answer).get name = none := by
  unfold Object.get
  rw [Option.map_eq_none_iff,List.find?_eq_none]
  intro entry inside same
  simp only [beq_iff_eq] at same
  unfold fetchExtraClaims at inside
  split at inside
  · have kept := (List.mem_filter.mp inside).2
    simp [same,guarded] at kept
  · cases inside

theorem extraProtected (tokens : List String) (guarded : name ∈ protectedClaims) :
    (OidcUser.extraClaims ctx tokens).get name = none := by
  unfold OidcUser.extraClaims
  split
  · exact fetchedProtected _ guarded
  · rfl

theorem protectedReserved (guarded : name ∈ protectedClaims) : name ∈ reservedClaims :=
  List.mem_append_left _ guarded

theorem claimsProtected (use : ClaimsUse) (scope : String) (guarded : name ∈ protectedClaims) :
    (account.claims ctx use scope).get name = (account.ownClaims ctx use scope).get name := by
  simp [OidcUser.claims,OidcUser.mappedClaims,mappedReserved _ _ (protectedReserved guarded),extraProtected _ guarded]

end Names

section Scopes
variable {scope : String}

theorem includesToken {part : String} (plain : ' ' ∉ part.toList) :
    includes scope part = true ↔ ∃ token ∈ scopeTokens scope, part.toList <:+: token.toList := by
  unfold includes scopeTokens
  rw [decide_eq_true_eq,Tokens.infixSplit plain]
  simp

theorem includesAfter {text part : String} (shape : text.toList = ' ' :: part.toList) (plain : ' ' ∉ part.toList) :
    includes scope text = true ↔ ∃ token ∈ (scopeTokens scope).tail, part.toList <+: token.toList := by
  unfold includes scopeTokens
  rw [decide_eq_true_eq,shape,Tokens.afterSeparator plain,← List.map_tail]
  simp only [List.mem_map,exists_exists_and_eq_and,String.toList_ofList]

end Scopes

def requestedGroups (groups allowedGroups tokens : List String) : Option Json :=
  if "groups" ∈ tokens then some (strings groups)
  else if "allowed_groups" ∈ tokens then some (strings (groups.filter (· ∈ allowedGroups)))
  else none

def ReleasesAll (scope : String) : Prop := ∃ token ∈ (scopeTokens scope).tail, "groups".toList <+: token.toList

def ReleasesAllowed (scope : String) : Prop := ∃ token ∈ scopeTokens scope, "allowed_groups".toList <:+: token.toList

theorem stringsInjective {texts others : List String} (same : strings texts = strings others) : texts = others :=
  List.map_injective_iff.mpr (fun _ _ eq => Json.string.inj eq) (Json.array.inj same)

theorem filteredAll {groups allowedGroups : List String} :
    strings (groups.filter (· ∈ allowedGroups)) = strings groups ↔ ∀ group ∈ groups, group ∈ allowedGroups := by
  constructor
  · intro same group inside
    exact of_decide_eq_true (List.filter_eq_self.mp (stringsInjective same) group inside)
  · intro all
    rw [List.filter_eq_self.mpr fun group inside => decide_eq_true (all group inside)]

section Groups
variable {account : OidcUser} {ctx : ClaimsContext} {use : ClaimsUse} {scope name : String}

theorem profileOther (other : name ∉ ["name","company","phones"]) : account.profileClaims.get name = none := by
  simp only [List.mem_cons,List.not_mem_nil,or_false,not_or] at other
  obtain ⟨first,second,third⟩ := other
  unfold OidcUser.profileClaims
  cases account.status.profile.name <;> cases account.status.profile.company <;>
    cases account.status.profile.phones <;> simp [Object.get,Ne.symm first,Ne.symm second,Ne.symm third]

theorem emailOther (other : name ∉ ["email","email_verified"]) (tokens : List String) :
    (account.emailClaims ctx tokens).get name = none := by
  simp only [List.mem_cons,List.not_mem_nil,or_false,not_or] at other
  unfold OidcUser.emailClaims
  split
  · split
    · simp [Object.get,Ne.symm other.1,Ne.symm other.2]
    · rfl
  · rfl

theorem ownClaim (name : String) : (account.ownClaims ctx use scope).get name =
    (if use = .userinfo ∧ "applications" ∈ scopeTokens scope then Object.get [("applications",ctx.applications)] name
      else none).or
    ((if includes scope " groups" then Object.get [("groups",strings account.groupTexts)] name else none).or
    ((if includes scope "allowed_groups" then Object.get [("groups",strings (account.groupTexts.filter
      (· ∈ ctx.client.allowedGroups)))] name else none).or
    ((if includes scope "profile" then (Object.get [("emails",strings account.status.emails)] name).or
      (account.profileClaims.get name) else none).or
    (((account.emailClaims ctx (scopeTokens scope)).get name).or
      (Object.get [("sub",.string account.accountId),("username",.string account.accountId),
        ("nickname",.string account.accountId)] name))))) := by
  have allowed : (if ctx.client.allowedGroups.isEmpty then [] else account.groupTexts.filter (· ∈ ctx.client.allowedGroups)) =
      account.groupTexts.filter (· ∈ ctx.client.allowedGroups) := by
    cases ctx.client.allowedGroups <;> simp
  have added : ∀ (c : Prop) [Decidable c] (base extra : Object),
      Object.get (if c then base.spread extra else base) name = (if c then extra.get name else none).or (base.get name) := by
    intro c _ base extra
    split
    · rw [getSpread]
    · rfl
  have profiled : ∀ (c : Bool) (base first second : Object),
      Object.get (if c then (base.spread first).spread second else base) name =
        (if c then (second.get name).or (first.get name) else none).or (base.get name) := by
    intro c base first second
    cases c
    · rfl
    · simp only [if_true,getSpread,Option.or_assoc]
  unfold OidcUser.ownClaims
  simp only [allowed,added,profiled,getSpread]

theorem releasedGroups : (account.claims ctx use scope).get "groups" =
    if includes scope " groups" then some (strings account.groupTexts)
    else if includes scope "allowed_groups" then some (strings (account.groupTexts.filter (· ∈ ctx.client.allowedGroups)))
    else none := by
  rw [claimsProtected use scope (by decide),ownClaim,profileOther (by decide),emailOther (by decide)]
  simp only [Object.get]
  cases includes scope " groups" <;> cases includes scope "allowed_groups" <;> simp

theorem releasesAll : includes scope " groups" = true ↔ ReleasesAll scope := by
  unfold ReleasesAll
  exact includesAfter (by decide) (by decide)

theorem releasesAllowed : includes scope "allowed_groups" = true ↔ ReleasesAllowed scope := by
  unfold ReleasesAllowed
  exact includesToken (by decide)

theorem shownClaim (claims : Object) (name : String) :
    (if claims.isEmpty then none else some claims).bind (fun shown => Object.get shown name) = claims.get name := by
  cases claims <;> rfl

theorem grantedScopes (scope : String) {name : String} (named : name ≠ "") :
    name ∈ ((truthy (some scope)).map scopeTokens).getD [] ↔ name ∈ scopeTokens scope := by
  by_cases empty : scope = ""
  · subst empty
    have tokens : scopeTokens "" = [""] := by decide
    simp [truthy,Option.filter_some,tokens,named]
  · simp [truthy,Option.filter_some,empty]

theorem tokenGroups : (extraTokenClaims ctx {scope := some scope} (some account)).bind (fun claims => Object.get claims "groups") =
    if "groups" ∈ scopeTokens scope then some (strings account.groupTexts) else none := by
  have asked := grantedScopes scope (by decide : "groups" ≠ "")
  have assembled : ∀ (tokens : List String), Object.get (((if tokens.contains "groups" then
      (account.emailClaims ctx tokens).spread [("groups",strings account.groupTexts)]
      else account.emailClaims ctx tokens).spread (OidcUser.extraClaims ctx tokens)).spread (account.mappedClaims ctx)) "groups" =
      if "groups" ∈ tokens then some (strings account.groupTexts) else none := by
    intro tokens
    rw [getSpread,getSpread,extraProtected tokens (by decide),OidcUser.mappedClaims,
      mappedReserved _ _ (by decide)]
    by_cases wanted : "groups" ∈ tokens
    · rw [if_pos (by simpa using wanted),if_pos wanted,getSpread]
      rfl
    · rw [if_neg (by simpa using wanted),if_neg wanted,emailOther (by decide)]
      rfl
  unfold extraTokenClaims
  simp only [ne_eq,not_true_eq_false,if_false]
  by_cases wanted : "groups" ∈ scopeTokens scope
  · rw [if_neg (by simp [asked.mpr wanted]),shownClaim,assembled,if_pos (asked.mpr wanted),if_pos wanted]
  · rw [if_neg wanted]
    split
    · rfl
    · rw [shownClaim,assembled,if_neg fun inside => wanted (asked.mp inside)]

def GroupsClaimed (account : OidcUser) (ctx : ClaimsContext) (use : ClaimsUse) (scope : String) : Prop :=
  (account.claims ctx use scope).get "groups" =
      requestedGroups account.groupTexts ctx.client.allowedGroups (scopeTokens scope) ∧
    (extraTokenClaims ctx {scope := some scope} (some account)).bind (fun claims => Object.get claims "groups") =
      if "groups" ∈ scopeTokens scope then some (strings account.groupTexts) else none

/- The scope strings on which the tests of `claims` find what the tokens ask for, as far as it makes a difference. -/
structure ScopeRead (groups allowedGroups : List String) (scope : String) : Prop where
  all : "groups" ∈ scopeTokens scope →
    ReleasesAll scope ∨ (ReleasesAllowed scope ∧ ∀ group ∈ groups, group ∈ allowedGroups)
  allowed : "groups" ∉ scopeTokens scope → "allowed_groups" ∈ scopeTokens scope →
    ReleasesAll scope → ∀ group ∈ groups, group ∈ allowedGroups
  neither : "groups" ∉ scopeTokens scope → "allowed_groups" ∉ scopeTokens scope →
    ¬ ReleasesAll scope ∧ ¬ ReleasesAllowed scope

theorem allowedToken (inside : "allowed_groups" ∈ scopeTokens scope) : ReleasesAllowed scope :=
  ⟨_,inside,List.infix_refl _⟩

theorem groupsClaim (account : OidcUser) (ctx : ClaimsContext) (use : ClaimsUse) (scope : String) :
    GroupsClaimed account ctx use scope ↔ ScopeRead account.groupTexts ctx.client.allowedGroups scope := by
  have filtered := @filteredAll account.groupTexts ctx.client.allowedGroups
  have released := @releasedGroups account ctx use scope
  rw [GroupsClaimed,released,requestedGroups,and_iff_left tokenGroups]
  constructor
  · intro same
    refine ⟨fun asked => ?_,fun unasked allowed all => ?_,fun unasked unallowed => ?_⟩
    · rw [if_pos asked] at same
      by_cases all : includes scope " groups" = true
      · exact .inl (releasesAll.mp all)
      · rw [if_neg all] at same
        by_cases part : includes scope "allowed_groups" = true
        · rw [if_pos part] at same
          exact .inr ⟨releasesAllowed.mp part,filtered.mp (Option.some.inj same)⟩
        · rw [if_neg part] at same
          cases same
    · rw [if_neg unasked,if_pos allowed,if_pos (releasesAll.mpr all)] at same
      exact filtered.mp (Option.some.inj same).symm
    · rw [if_neg unasked,if_neg unallowed] at same
      by_cases all : includes scope " groups" = true
      · rw [if_pos all] at same
        cases same
      · rw [if_neg all] at same
        by_cases part : includes scope "allowed_groups" = true
        · rw [if_pos part] at same
          cases same
        · exact ⟨fun yes => all (releasesAll.mpr yes),fun yes => part (releasesAllowed.mpr yes)⟩
  · intro read
    by_cases asked : "groups" ∈ scopeTokens scope
    · rw [if_pos asked]
      by_cases all : includes scope " groups" = true
      · rw [if_pos all]
      · rw [if_neg all]
        rcases read.all asked with yes | ⟨part,every⟩
        · exact absurd (releasesAll.mpr yes) all
        · rw [if_pos (releasesAllowed.mpr part),filtered.mpr every]
    · rw [if_neg asked]
      by_cases allowed : "allowed_groups" ∈ scopeTokens scope
      · rw [if_pos allowed,if_pos (releasesAllowed.mpr (allowedToken allowed))]
        by_cases all : includes scope " groups" = true
        · rw [if_pos all,filtered.mpr (read.allowed asked allowed (releasesAll.mp all))]
        · rw [if_neg all]
      · obtain ⟨all,part⟩ := read.neither asked allowed
        rw [if_neg allowed,if_neg fun yes => all (releasesAll.mp yes),if_neg fun yes => part (releasesAllowed.mp yes)]

end Groups

def groupAccount : OidcUser where
  accountId := "alice"
  status := {groups := [⟨"github","staff"⟩]}

/- `groups` as the first token is not found. -/
theorem groupsFirst : ¬ ∀ (account : OidcUser) (ctx : ClaimsContext) (use : ClaimsUse) (scope : String),
    GroupsClaimed account ctx use scope := by
  intro always
  obtain ⟨released,_⟩ := always groupAccount {client := ⟨"app",[],⟨none,rfl⟩⟩} .userinfo "groups openid"
  have asked : "groups" ∈ scopeTokens "groups openid" := by decide
  have all : includes "groups openid" " groups" = false := by decide
  have allowed : includes "groups openid" "allowed_groups" = false := by decide
  rw [releasedGroups,requestedGroups,if_pos asked,all,allowed] at released
  cases released

end Passmower
