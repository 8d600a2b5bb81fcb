import Passmower.Laws

/-! The upstream identities of an account, one to a provider key, as the object of the resource
has them. What a patch makes of them, and what a login persists under its provider's key. -/
namespace Passmower
open JavaScript Resumption

def Keyed (entries : List (String × UpstreamIdentity)) : Prop := (entries.map Prod.fst).Nodup

section Patches
variable {old entries start : List (String × UpstreamIdentity)} {key : String}

theorem patchIdentitySelf (existing value : UpstreamIdentity) :
    patchIdentity existing value existing = value := by
  simp [patchIdentity,patchedSelf]

theorem patchEntryKeyed {entry : String × UpstreamIdentity} (keyed : Keyed entries) :
    Keyed (patchIdentityEntry old entries entry) := by
  unfold patchIdentityEntry
  split
  · exact mapSetUnique keyed
  · split
    · exact keyed
    · exact mapSetUnique keyed
  · exact mapSetUnique keyed

theorem patchIdentitiesKeyed {existing values current : Option (List (String × UpstreamIdentity))}
    (merged : Keyed (values.getD [])) (keyed : Keyed (current.getD [])) :
    Keyed ((patchIdentities existing values current).getD []) := by
  have folded : ∀ (old entries start : List (String × UpstreamIdentity)), Keyed start →
      Keyed (entries.foldl (patchIdentityEntry old) start) := by
    intro old entries
    induction entries with
    | nil => exact fun start keyed => keyed
    | cons entry rest ih => exact fun start keyed => ih _ (patchEntryKeyed keyed)
  cases existing with
  | none => cases values with
      | none => exact keyed
      | some entries => exact merged
  | some old => cases values with
      | none => exact List.nodup_nil
      | some entries => exact folded old entries _ keyed

theorem patchEntryOther {entry : String × UpstreamIdentity} (other : entry.1 ≠ key) :
    mapGet key (patchIdentityEntry old start entry) = mapGet key start := by
  unfold patchIdentityEntry
  split
  · simp [other]
  · split
    · rfl
    · simp [other]
  · simp [other]

theorem patchEntriesOther (missing : key ∉ entries.map Prod.fst) :
    mapGet key (entries.foldl (patchIdentityEntry old) start) = mapGet key start := by
  induction entries generalizing start with
  | nil => rfl
  | cons entry rest ih =>
      simp only [List.map_cons,List.mem_cons,not_or] at missing
      rw [List.foldl_cons,ih missing.2,patchEntryOther (Ne.symm missing.1)]

theorem patchEntryHere {identity : UpstreamIdentity} (fresh : mapGet key start = mapGet key old) :
    mapGet key (patchIdentityEntry old start (key,identity)) = some identity := by
  unfold patchIdentityEntry
  split
  · rename_i existing current before now
    simp only at before now
    rw [fresh,before] at now
    cases Option.some.inj now
    simp [patchIdentitySelf]
  · rename_i existing before now
    simp only at before now
    rw [fresh,before] at now
    cases now
  · simp

theorem patchEntriesHere {identity : UpstreamIdentity} (keyed : Keyed entries)
    (member : (key,identity) ∈ entries) (fresh : mapGet key start = mapGet key old) :
    mapGet key (entries.foldl (patchIdentityEntry old) start) = some identity := by
  induction entries generalizing start with
  | nil => cases member
  | cons entry rest ih =>
      obtain ⟨first,keyed⟩ := List.nodup_cons.mp keyed
      rw [List.foldl_cons]
      rcases List.mem_cons.mp member with rfl | later
      · rw [patchEntriesOther first,patchEntryHere fresh]
      · have other : entry.1 ≠ key := fun same => first (List.mem_map.mpr ⟨_,later,same.symm⟩)
        exact ih keyed later ((patchEntryOther other).trans fresh)

end Patches

namespace OidcUser
variable (user : OidcUser)

def observed (key : String) (identity : OidcIdentity) : UpstreamIdentity :=
  let old := (user.getIdentity key).getD {}
  {old with
    sub := some identity.sub, name := identity.name, company := identity.company
    emails := some identity.emails, groups := some identity.groups
    linkClaims := identity.linkClaims.foldl (fun claims c => mapSet c.1 c.2 claims) old.linkClaims}

end OidcUser

section Accounts
variable {user : OidcUser} {key : String} {identity : OidcIdentity}

theorem persistedIdentity (keyed : Keyed user.identityEntries) :
    (user.toSpecs.patch (mergeIdentity key identity user.toSpecs) user).getIdentity key =
      some (user.observed key identity) := by
  have merged : Keyed (mapSet key (user.observed key identity) user.identityEntries) := mapSetUnique keyed
  have inside : (key,user.observed key identity) ∈
      mapSet key (user.observed key identity) user.identityEntries := mapGetMember (by simp)
  show mapGet key ((patchIdentities user.identities
    (some (mapSet key (user.observed key identity) user.identityEntries)) user.identities).getD []) = _
  cases held : user.identities with
  | none => exact mapGetOf merged inside
  | some old =>
      have same : user.identityEntries = old := by simp [OidcUser.identityEntries,held]
      rw [same] at merged inside ⊢
      exact patchEntriesHere merged inside rfl

theorem patchedKeyed {w : World} {chain : Nat} {merge : Specs → Specs} (merges : Merges w chain merge)
    (keyed : Keyed user.identityEntries) :
    Keyed (user.toSpecs.patch (merge user.toSpecs) user).identityEntries := by
  apply patchIdentitiesKeyed ?_ keyed
  cases merges with
  | slackId slackId => exact keyed
  | github gh groups emails begun => exact keyed
  | identity key identity begun => exact mapSetUnique keyed

theorem entriesKeyed (identity : StableIdentity) : Keyed (identity.entries.getD []) := by
  cases named : truthy identity.providerKey with
  | none => simp [StableIdentity.entries,named,Keyed]
  | some providerKey => cases subject : truthy identity.subject with
      | none => simp [StableIdentity.entries,named,subject,Keyed]
      | some sub => simp [StableIdentity.entries,named,subject,Keyed]

theorem activeKeyed (key : String) (active : Bool) (keyed : Keyed user.identityEntries) :
    Keyed (user.withActive key active).identityEntries := by
  unfold OidcUser.withActive
  split
  · exact mapSetUnique keyed
  · exact keyed

theorem restatedKeyed (env : Env) (mutation : StatusMutation) (keyed : Keyed user.identityEntries) :
    Keyed (user.restated env mutation).identityEntries := by
  exact keyed

theorem keyedCall {w : World} {c : Call} {choice : Choice} (lawful : Lawful w c)
    (all : ∀ user ∈ w.users, Keyed user.identityEntries) :
    ∀ user ∈ (serve choice c w).2.users, Keyed user.identityEntries := by
  intro user member
  have account := lawfulAccount lawful member
  generalize (serve choice c w).2 = w' at account
  cases account with
  | kept c user old => exact all user old
  | created uid i accountId body time found enrols free logged =>
      cases enrols with
      | login email githubEmails identity _ _ => exact entriesKeyed identity
      | form _ => exact entriesKeyed _
  | patched chain user merge merges resolved found => exact patchedKeyed merges (all user (userMember found))
  | restated uid chain carried user mutation within resolved found mutates =>
      exact restatedKeyed _ mutation (all user (userMember found))

theorem keyedEdit {w : World} {m : Move} (edit : m.isRequest = false)
    (all : ∀ user ∈ w.users, Keyed user.identityEntries) :
    ∀ user ∈ (w.step m).users, Keyed user.identityEntries := by
  intro user member
  cases editAccount edit member with
  | kept user old => exact all user old
  | active user key active old => exact activeKeyed key active (all user old)
  | restated user old => exact restatedKeyed _ _ (all user old)
  | invited accountId address time listed env => exact List.nodup_nil
  | administered user spec old listed => exact all user old
  | added accountId spec listed => exact List.nodup_nil

end Accounts
end Passmower
