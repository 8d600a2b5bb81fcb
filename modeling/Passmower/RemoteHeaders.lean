import Passmower.AccountType
import Passmower.OidcLogin
import Passmower.Rounds
import Passmower.Tokens

/-! The headers a forward-auth request answers with: the names and groups of an account as the protected application gets
them. Nothing looks at what an upstream provider calls a group on its way there. -/
namespace Passmower
open JavaScript

namespace RemoteHeaders

inductive PolicyFailure where
  | accountType (failure : AccountType.Failure)
  | approvalRequired
  | nameRequired
  | tosRequired
  | clientAccessRequired
  deriving DecidableEq, Repr

structure AccessPolicy where
  allowedUsers : List String := []
  allowedGroups : List String := []
  requiredGroup : Option String := none
  adminGroup : Option String := none
  termsOfService : Option String := none

namespace AccessPolicy
variable (policy : AccessPolicy) (approved : Bool) (account : OidcUser)

def checkApproved : Bool := match truthy policy.requiredGroup with
  | none => true
  | some required => approved || account.status.groups.any fun group =>
      group.displayName = required || some group.displayName = policy.adminGroup

def tosRequired : Bool := match policy.termsOfService with
  | none => false
  | some contentHash =>
      if (truthy account.spec.type).any (· ≠ "person") then false
      else match account.getTermsOfServiceAcceptance with
        | none => true
        | some acceptance => acceptance.contentHash.any (· ≠ contentHash)

def checkAccountGroups : Bool :=
  (policy.allowedUsers = [] && policy.allowedGroups = []) || policy.allowedUsers.contains account.accountId ||
    policy.allowedGroups.any fun group => (account.status.groups.map Group.displayName).contains group

def getAccountAccessFailure : Option PolicyFailure :=
  match AccountType.getAccountTypeAccessFailure (some account) false with
  | some failure => some (.accountType failure)
  | none =>
      if !account.isAdmin policy.adminGroup && !policy.checkApproved approved account then some .approvalRequired
      else if (truthy account.status.profile.name).isNone then some .nameRequired
      else if policy.tosRequired account then some .tosRequired
      else if !policy.checkAccountGroups account then some .clientAccessRequired
      else none

end AccessPolicy

inductive HeaderField where
  | user
  | name
  | email
  | emailVerified
  | groups
  deriving DecidableEq, Repr

structure HeaderMapping where
  user : Option String := none
  name : Option String := none
  email : Option String := none
  emailVerified : Option String := none
  groups : Option String := none

def HeaderMapping.header (headerMapping : HeaderMapping) : HeaderField → Option String
  | .user => headerMapping.user
  | .name => headerMapping.name
  | .email => headerMapping.email
  | .emailVerified => headerMapping.emailVerified
  | .groups => headerMapping.groups

def headerFields : List HeaderField := [.user,.name,.email,.emailVerified,.groups]

/- How `#mapGroups` orders the groups: its comparison looks at one of two only, so the order is the engine's. -/
structure GroupOrder where
  sort : List DisplayedGroup → List DisplayedGroup
  permutes : ∀ groups, (sort groups).Perm groups

section Headers
variable (env : Env) (order : GroupOrder) (groupPrefix : String) (disableFrontendEdit : Bool) (account : OidcUser)
  (headerMapping : HeaderMapping)

def groupNames : List String := (order.sort (account.mapGroups groupPrefix disableFrontendEdit)).map (·.displayName)

def headerValue : HeaderField → Option String
  | .user => some account.accountId
  | .name => account.status.profile.name
  | .email => account.status.primaryEmail
  | .emailVerified => (truthy account.status.primaryEmail).map fun _ =>
      if account.isPrimaryEmailVerified env then "true" else "false"
  | .groups => some (",".intercalate (groupNames order groupPrefix disableFrontendEdit account))

def headerEntry (field : HeaderField) : Option (String × String) := do
  let header ← truthy (headerMapping.header field)
  let value ← headerValue env order groupPrefix disableFrontendEdit account field
  some (header,value)

def headerEntries : List (String × String) :=
  headerFields.filterMap (headerEntry env order groupPrefix disableFrontendEdit account headerMapping)

def getRemoteHeaders : List (String × String) :=
  uniqueBy Prod.fst (headerEntries env order groupPrefix disableFrontendEdit account headerMapping)

end Headers

/- `[\t\x20-\x7e\x80-\xff]`; `setHeader` throws at any other character. -/
def isHeaderChar (c : Char) : Bool :=
  c.toNat = 0x9 || (0x20 ≤ c.toNat && c.toNat ≤ 0x7e) || (0x80 ≤ c.toNat && c.toNat ≤ 0xff)

def Legal (value : String) : Prop := ∀ c ∈ value.toList, isHeaderChar c = true

instance (value : String) : Decidable (Legal value) := decidable_of_iff (value.toList.all isHeaderChar = true) List.all_eq_true

section Integrity
variable (env : Env) (order : GroupOrder) (groupPrefix : String) (disableFrontendEdit : Bool) (account : OidcUser)
  (headerMapping : HeaderMapping)

structure Integrity : Prop where
  legal : ∀ entry ∈ getRemoteHeaders env order groupPrefix disableFrontendEdit account headerMapping, Legal entry.2
  splits : ∀ header, truthy headerMapping.groups = some header → ∃ value,
    (header,value) ∈ getRemoteHeaders env order groupPrefix disableFrontendEdit account headerMapping ∧
      (split ',' value).Perm (account.status.groups.map Group.displayName)

def headerTexts : HeaderField → List String
  | .user => [account.accountId]
  | .name => account.status.profile.name.toList
  | .email => account.status.primaryEmail.toList
  | .emailVerified => []
  | .groups => account.status.groups.map Group.displayName

def Shown (field : HeaderField) : Prop := ∃ entry,
  headerEntry env order groupPrefix disableFrontendEdit account headerMapping field = some entry ∧
    lastUnder Prod.fst entry.1 (headerEntries env order groupPrefix disableFrontendEdit account headerMapping) = some entry

structure Plain : Prop where
  legal : ∀ field, Shown env order groupPrefix disableFrontendEdit account headerMapping field →
    ∀ text ∈ headerTexts account field, Legal text
  groups : truthy headerMapping.groups ≠ none → account.status.groups ≠ [] ∧
    ∀ group ∈ account.status.groups, ',' ∉ group.displayName.toList

end Integrity

section Joined
variable {texts : List String}

theorem legalJoined : Legal (",".intercalate texts) ↔ ∀ text ∈ texts, Legal text := by
  induction texts with
  | nil => simp [Legal]
  | cons text rest ih =>
      cases rest with
      | nil => simp
      | cons next rest =>
          have comma : Legal "," := by decide
          have joined : Legal (text ++ "," ++ ",".intercalate (next :: rest)) ↔
              Legal text ∧ Legal "," ∧ Legal (",".intercalate (next :: rest)) := by
            simp only [Legal,String.toList_append,List.mem_append,or_imp,forall_and,and_assoc]
          rw [String.intercalate_cons_cons,joined,ih]
          simp [comma]

theorem pieceUnseparated {α : Type} [DecidableEq α] {separator : α} {text piece : List α}
    (inside : piece ∈ text.splitOn separator) : separator ∉ piece := by
  induction text generalizing piece with
  | nil =>
      rw [List.splitOn_nil] at inside
      simp [List.mem_singleton.mp inside]
  | cons c rest ih =>
      obtain ⟨first,others,shape,split⟩ := Tokens.splitCons separator c rest
      rw [split] at inside
      split at inside
      · rcases List.mem_cons.mp inside with rfl | later
        · simp
        · exact ih (shape ▸ later)
      · rename_i other
        rcases List.mem_cons.mp inside with rfl | later
        · have here := ih (shape ▸ List.mem_cons_self : first ∈ rest.splitOn separator)
          simp [here,Ne.symm other]
        · exact ih (shape ▸ List.mem_cons_of_mem _ later)

theorem splitJoined (names : List String) (same : names.Perm texts) :
    (split ',' (",".intercalate names)).Perm texts ↔ texts ≠ [] ∧ ∀ text ∈ texts, ',' ∉ text.toList := by
  have joined : (",".intercalate names).toList = [','].intercalate (names.map String.toList) := by
    rw [String.toList_intercalate]
    rfl
  constructor
  · intro splits
    constructor
    · rintro rfl
      have none := splits.length_eq
      rw [split,List.length_map,List.length_nil] at none
      exact List.splitOn_ne_nil ',' _ (List.length_eq_zero_iff.mp none)
    · intro text inside
      obtain ⟨piece,cut,rfl⟩ := List.mem_map.mp (splits.mem_iff.mpr inside)
      rw [String.toList_ofList]
      exact pieceUnseparated cut
  · rintro ⟨some,plain⟩
    have unseparated : ∀ piece ∈ names.map String.toList, ',' ∉ piece := by
      intro piece inside
      obtain ⟨text,listed,rfl⟩ := List.mem_map.mp inside
      exact plain text (same.mem_iff.mp listed)
    have given : names.map String.toList ≠ [] := by
      intro none
      rw [List.map_eq_nil_iff.mp none] at same
      exact some same.symm.eq_nil
    rw [split,joined,List.splitOn_intercalate ',' unseparated given,List.map_map]
    simpa using same

end Joined

section Exact
variable {env : Env} {order : GroupOrder} {groupPrefix : String} {disableFrontendEdit : Bool} {account : OidcUser}
  {headerMapping : HeaderMapping}

theorem namesPerm : (groupNames order groupPrefix disableFrontendEdit account).Perm
    (account.status.groups.map Group.displayName) := by
  have sorted := (order.permutes (account.mapGroups groupPrefix disableFrontendEdit)).map (·.displayName)
  have shown : (account.mapGroups groupPrefix disableFrontendEdit).map (·.displayName) =
      account.status.groups.map Group.displayName := by
    rw [OidcUser.mapGroups,List.map_map]
    rfl
  rwa [shown] at sorted

theorem remoteEntry {entry : String × String} :
    entry ∈ getRemoteHeaders env order groupPrefix disableFrontendEdit account headerMapping ↔ ∃ field,
      headerEntry env order groupPrefix disableFrontendEdit account headerMapping field = some entry ∧
      lastUnder Prod.fst entry.1 (headerEntries env order groupPrefix disableFrontendEdit account headerMapping) =
        some entry := by
  constructor
  · intro inside
    have last := uniqueLast inside
    obtain ⟨field,-,here⟩ := List.mem_filterMap.mp (lastSome last).1
    exact ⟨field,here,last⟩
  · rintro ⟨field,here,last⟩
    rw [getRemoteHeaders,uniqueByKeys]
    exact List.mem_filterMap.mpr ⟨entry.1,keysMember.mpr (List.mem_map_of_mem (lastSome last).1),last⟩

theorem entryValue {field : HeaderField} {entry : String × String}
    (here : headerEntry env order groupPrefix disableFrontendEdit account headerMapping field = some entry) :
    truthy (headerMapping.header field) = some entry.1 ∧
      headerValue env order groupPrefix disableFrontendEdit account field = some entry.2 := by
  obtain ⟨header,given,here⟩ := Option.bind_eq_some_iff.mp here
  obtain ⟨value,has,here⟩ := Option.bind_eq_some_iff.mp here
  cases Option.some.inj here
  exact ⟨given,has⟩

theorem legalValue {field : HeaderField} {value : String}
    (has : headerValue env order groupPrefix disableFrontendEdit account field = some value) :
    Legal value ↔ ∀ text ∈ headerTexts account field, Legal text := by
  cases field with
  | user => simp [← Option.some.inj has,headerTexts]
  | name =>
      have named : account.status.profile.name = some value := has
      simp [headerTexts,named]
  | email =>
      have addressed : account.status.primaryEmail = some value := has
      simp [headerTexts,addressed]
  | emailVerified =>
      obtain ⟨email,-,same⟩ := Option.map_eq_some_iff.mp has
      have told : Legal value := by
        rw [← same]
        split <;> decide
      simp [headerTexts,told]
  | groups =>
      rw [← Option.some.inj has,legalJoined]
      exact ⟨fun legal text inside => legal text (namesPerm.mem_iff.mpr inside),
        fun legal text inside => legal text (namesPerm.mem_iff.mp inside)⟩

variable (env order groupPrefix disableFrontendEdit account) in
theorem groupsLast {header : String} (given : truthy headerMapping.groups = some header) :
    lastUnder Prod.fst header (headerEntries env order groupPrefix disableFrontendEdit account headerMapping) =
      some (header,",".intercalate (groupNames order groupPrefix disableFrontendEdit account)) := by
  have here : headerEntry env order groupPrefix disableFrontendEdit account headerMapping .groups =
      some (header,",".intercalate (groupNames order groupPrefix disableFrontendEdit account)) := by
    simp [headerEntry,HeaderMapping.header,given,headerValue]
  have entries : headerEntries env order groupPrefix disableFrontendEdit account headerMapping =
      [HeaderField.user,.name,.email,.emailVerified].filterMap
        (headerEntry env order groupPrefix disableFrontendEdit account headerMapping) ++
      [(header,",".intercalate (groupNames order groupPrefix disableFrontendEdit account))] := by
    have parted : headerFields = [HeaderField.user,.name,.email,.emailVerified] ++ [.groups] := rfl
    rw [headerEntries,parted,List.filterMap_append]
    simp [here]
  rw [entries,lastAppend]
  simp [lastUnder]

end Exact

/- The headers of an account keep its names apart and can be set if and only if these are plain. -/
theorem remoteHeaders (env : Env) (order : GroupOrder) (groupPrefix : String) (disableFrontendEdit : Bool)
    (account : OidcUser) (headerMapping : HeaderMapping) :
    Integrity env order groupPrefix disableFrontendEdit account headerMapping ↔
      Plain env order groupPrefix disableFrontendEdit account headerMapping := by
  have legal : (∀ entry ∈ getRemoteHeaders env order groupPrefix disableFrontendEdit account headerMapping, Legal entry.2) ↔
      ∀ field, Shown env order groupPrefix disableFrontendEdit account headerMapping field →
        ∀ text ∈ headerTexts account field, Legal text := by
    constructor
    · rintro legal field ⟨entry,here,last⟩
      exact (legalValue (entryValue here).2).mp (legal entry (remoteEntry.mpr ⟨field,here,last⟩))
    · intro legal entry inside
      obtain ⟨field,here,last⟩ := remoteEntry.mp inside
      exact (legalValue (entryValue here).2).mpr (legal field ⟨entry,here,last⟩)
  have splits {header : String} (given : truthy headerMapping.groups = some header) : (∃ value,
      (header,value) ∈ getRemoteHeaders env order groupPrefix disableFrontendEdit account headerMapping ∧
        (split ',' value).Perm (account.status.groups.map Group.displayName)) ↔
      account.status.groups ≠ [] ∧ ∀ group ∈ account.status.groups, ',' ∉ group.displayName.toList := by
    have joined := splitJoined (groupNames order groupPrefix disableFrontendEdit account) namesPerm
    simp only [List.forall_mem_map,ne_eq,List.map_eq_nil_iff] at joined
    have last := groupsLast env order groupPrefix disableFrontendEdit account given
    constructor
    · rintro ⟨value,inside,split⟩
      cases (uniqueLast inside).symm.trans last
      exact joined.mp split
    · intro plain
      obtain ⟨field,-,here⟩ := List.mem_filterMap.mp (lastSome last).1
      exact ⟨_,remoteEntry.mpr ⟨field,here,last⟩,joined.mpr plain⟩
  constructor
  · intro integrity
    refine ⟨legal.mp integrity.legal,fun mapped => ?_⟩
    obtain ⟨header,given⟩ := Option.ne_none_iff_exists'.mp mapped
    exact (splits given).mp (integrity.splits header given)
  · intro plain
    refine ⟨legal.mpr plain.legal,fun header given => ?_⟩
    exact (splits given).mpr (plain.groups (by simp [given]))

def reversedOrder : GroupOrder := ⟨List.reverse,List.reverse_perm⟩

def entra : ProviderConfig where
  key := "entra"
  displayName := "Entra"
  emailVerification := .trusted
  groupsClaim := some "groups"
  groupPrefix := "entra"

def signedIn (groups : List String) : OidcUser :=
  let identity := extractIdentity entra [("sub",.string "1"),("name",.string "Alice"),("groups",.array (groups.map .string))]
    "2026-01-01T00:00:00Z"
  OidcUser.restated {} .none {toSpecs := mergeIdentity "entra" identity {}, accountId := "alice"}

theorem signedGroups (groups : List String) : (signedIn groups).status.groups =
    uniqueBy (fun g : Group => g.groupPrefix ++ ":" ++ g.name) (groups.map fun name => ⟨"entra",name⟩) := by
  have named : identityGroups entra [("sub",.string "1"),("name",.string "Alice"),("groups",.array (groups.map .string))] =
      groups.map fun name => ⟨"entra",name⟩ := by
    have listed : entra.groupsClaim.bind (Object.get [("sub",.string "1"),("name",.string "Alice"),
        ("groups",.array (groups.map .string))]) = some (.array (groups.map .string)) := by
      simp [entra,Object.get]
    have text (name : String) : (Json.string name).toText = name := by simp [Json.toText]
    simp only [identityGroups,listed,List.map_map]
    exact List.map_congr_left fun name _ => congrArg (Group.mk "entra") (text name)
  simp [signedIn,OidcUser.restated,StatusMutation.apply,OidcUser.getIntendedStatus,OidcUser.intendedGroups,
    OidcUser.identityEntries,mergeIdentity,extractIdentity,mapSet,mapGet,named]

def groupsHeader : HeaderMapping := {user := some "Remote-User", name := some "Remote-Name", groups := some "Remote-Groups"}

theorem staffShown : Integrity {} reversedOrder "passmower" false (signedIn ["staff","R&D"]) groupsHeader := by
  have staff : (signedIn ["staff","R&D"]).status.groups = [⟨"entra","staff"⟩,⟨"entra","R&D"⟩] := signedGroups _
  apply (remoteHeaders _ _ _ _ _ _).mpr
  constructor
  · intro field _
    cases field with
    | groups =>
        rw [headerTexts,staff]
        decide +kernel
    | _ => decide +kernel
  · intro _
    rw [staff]
    decide +kernel

/- A group the provider calls `staff,passmower:admins` reaches the application as two. -/
theorem adminForged : ¬ ∀ (policy : AccessPolicy) (approved : Bool) (order : GroupOrder) (account : OidcUser)
    (headerMapping : HeaderMapping), policy.getAccountAccessFailure approved account = none →
      Integrity {} order "passmower" false account headerMapping := by
  intro always
  have forged : (signedIn ["staff,passmower:admins"]).status.groups = [⟨"entra","staff,passmower:admins"⟩] := signedGroups _
  have integrity := always {} false reversedOrder (signedIn ["staff,passmower:admins"]) groupsHeader (by decide +kernel)
  obtain ⟨value,inside,splits⟩ := integrity.splits "Remote-Groups" rfl
  cases (uniqueLast inside).symm.trans (groupsLast _ _ _ _ _ rfl)
  have plain := ((splitJoined _ namesPerm).mp splits).2
  rw [forged] at plain
  exact absurd plain (by decide +kernel)

end RemoteHeaders
end Passmower
