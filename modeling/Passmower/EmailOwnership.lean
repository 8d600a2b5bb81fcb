import Passmower.IdentityIntegrity
import Mathlib.Order.WithBot

/-! Ownership of email addresses: every claimed address has one owner, the oldest of those who claim it,
whatever the order the accounts are listed in, and a login is resolved to an owner of all it claims. -/
namespace Passmower
open JavaScript

/- `localeCompare` is a total order on the names. -/
structure NamesOrdered (env : Env) : Prop where
  total : ∀ a b, env.localeLe a b = true ∨ env.localeLe b a = true
  trans : ∀ a b c, env.localeLe a b = true → env.localeLe b c = true → env.localeLe a c = true
  antisymm : ∀ a b, env.localeLe a b = true → env.localeLe b a = true → a = b

def OidcUser.created (user : OidcUser) : WithTop Nat := match user.creationTimestamp with
  | some time => WithTop.some time
  | none => ⊤

def Older (env : Env) (a b : OidcUser) : Prop :=
  a.created < b.created ∨ (a.created = b.created ∧ env.localeLe a.accountId b.accountId = true)

structure Owns (env : Env) (accounts : List OidcUser) (email : String) (account : OidcUser) : Prop where
  listed : account ∈ accounts
  claims : email ∈ account.getClaimedEmails env
  oldest : ∀ other ∈ accounts, email ∈ other.getClaimedEmails env → Older env account other

section Order
variable {env : Env} {a b c : OidcUser}

theorem orderOlder : accountOrder env a b ↔ Older env a b := by
  unfold accountOrder Older OidcUser.created
  cases a.creationTimestamp <;> cases b.creationTimestamp <;> simp

variable (named : NamesOrdered env)

include named

theorem olderTotal (a b : OidcUser) : Older env a b ∨ Older env b a := by
  rcases lt_trichotomy a.created b.created with earlier | same | later
  · exact .inl (.inl earlier)
  · exact (named.total a.accountId b.accountId).imp (fun first => .inr ⟨same,first⟩) fun first => .inr ⟨same.symm,first⟩
  · exact .inr (.inl later)

theorem olderTrans (first : Older env a b) (second : Older env b c) : Older env a c := by
  rcases first with earlier | ⟨same,before⟩
  · rcases second with earlier' | ⟨same',_⟩
    · exact .inl (earlier.trans earlier')
    · exact .inl (same' ▸ earlier)
  · rcases second with earlier' | ⟨same',before'⟩
    · exact .inl (same ▸ earlier')
    · exact .inr ⟨same.trans same',named.trans _ _ _ before before'⟩

theorem olderSame (first : Older env a b) (second : Older env b a) : a.accountId = b.accountId := by
  rcases first with earlier | ⟨same,before⟩
  · rcases second with later | ⟨same,_⟩
    · exact absurd (earlier.trans later) (lt_irrefl _)
    · exact absurd earlier (same ▸ lt_irrefl _)
  · rcases second with later | ⟨_,after⟩
    · exact absurd later (same ▸ lt_irrefl _)
    · exact named.antisymm _ _ before after

end Order

section Lists
variable {env : Env} {accounts others : List OidcUser} {email : String} {account other : OidcUser}

theorem orderedPerm (env : Env) (accounts : List OidcUser) : (ordered env accounts).Perm accounts :=
  List.perm_insertionSort _ _

theorem claimantsMember : account ∈ claimants env accounts email ↔
    account ∈ accounts ∧ email ∈ account.getClaimedEmails env := by
  simp [claimants,(orderedPerm env accounts).mem_iff]

theorem eligibleOwns (member : account ∈ accounts) (eligible : isEligible env accounts account = true)
    (claimed : email ∈ account.getClaimedEmails env) : owner env accounts email = some account := by
  have inside : account ∈ claimants env accounts email := claimantsMember.mpr ⟨member,claimed⟩
  simp only [isEligible,List.all_eq_true] at eligible
  have apart := eligible account member email claimed
  unfold owner
  cases shape : claimants env accounts email with
  | nil => simp [shape] at inside
  | cons first rest =>
      rw [shape] at inside apart
      rcases List.mem_cons.mp inside with rfl | later
      · rfl
      · exact absurd rfl (of_decide_eq_true (apart account later))

variable (named : NamesOrdered env) (distinct : (accounts.map OidcUser.accountId).Nodup)

include named

theorem orderedSorted (accounts : List OidcUser) : (ordered env accounts).Pairwise (Older env) := by
  have total : Std.Total (accountOrder env) := ⟨fun a b => by simpa only [orderOlder] using olderTotal named a b⟩
  have trans : IsTrans OidcUser (accountOrder env) := ⟨fun a b c first second =>
    orderOlder.mpr (olderTrans named (orderOlder.mp first) (orderOlder.mp second))⟩
  exact (List.pairwise_insertionSort _ accounts).imp orderOlder.mp

theorem ownerOwns (owned : owner env accounts email = some account) : Owns env accounts email account := by
  have head := List.mem_of_mem_head? (Option.mem_def.mpr owned)
  obtain ⟨listed,claims⟩ := claimantsMember.mp head
  refine ⟨listed,claims,fun other member claimed => ?_⟩
  have sorted := (orderedSorted named accounts).filter (fun account => email ∈ account.getClaimedEmails env)
  have inside : other ∈ claimants env accounts email := claimantsMember.mpr ⟨member,claimed⟩
  unfold owner at owned
  unfold claimants at owned inside
  cases shape : (ordered env accounts).filter (fun account => email ∈ account.getClaimedEmails env) with
  | nil => simp [shape] at owned
  | cons first rest =>
      rw [shape] at owned inside sorted
      cases Option.some.inj owned
      rcases List.mem_cons.mp inside with rfl | later
      · exact (olderTotal named other other).elim id id
      · exact (List.pairwise_cons.mp sorted).1 other later

include distinct

theorem ownsUnique (first : Owns env accounts email account) (second : Owns env accounts email other) : account = other :=
  List.inj_on_of_nodup_map distinct first.listed second.listed
    (olderSame named (first.oldest other second.listed second.claims) (second.oldest account first.listed first.claims))

theorem orderedSame (perm : others.Perm accounts) : ordered env others = ordered env accounts := by
  have same : (ordered env others).Perm (ordered env accounts) :=
    (orderedPerm env others).trans (perm.trans (orderedPerm env accounts).symm)
  refine List.Perm.eq_of_pairwise ?_ (orderedSorted named others) (orderedSorted named accounts) same
  intro a b here there first second
  have here := perm.mem_iff.mp ((orderedPerm env others).mem_iff.mp here)
  have there := (orderedPerm env accounts).mem_iff.mp there
  exact List.inj_on_of_nodup_map distinct here there (olderSame named first second)

theorem eligibleSame (perm : others.Perm accounts) (account : OidcUser) :
    isEligible env others account = isEligible env accounts account := by
  have same : ∀ email, claimants env others email = claimants env accounts email := fun email => by
    rw [claimants,orderedSame named distinct perm,claimants]
  rw [Bool.eq_iff_iff]
  simp only [isEligible,List.all_eq_true,same,perm.mem_iff]

end Lists

theorem foundEligible {env : Env} {emails : List (Option String)} {accounts : List OidcUser} {account : OidcUser}
    (found : findUserByEmails env emails accounts = .ok (some account)) : isEligible env accounts account = true := by
  unfold findUserByEmails at found
  simp only at found
  split at found
  · cases found
  · split at found
    · cases found
      assumption
    · cases found
  · cases found

/- Owners and conflicts do not depend on the order of the list; every claimed address is owned by the oldest
account that claims it; accounts without a conflict share no address; and a look-up finds nobody but an
account that owns all it claims. -/
theorem emailOwnership (env : Env) (named : NamesOrdered env) (accounts : List OidcUser)
    (distinct : (accounts.map OidcUser.accountId).Nodup) :
    (∀ others : List OidcUser, others.Perm accounts →
      (∀ email, owner env others email = owner env accounts email) ∧
      ∀ account, isEligible env others account = isEligible env accounts account) ∧
    (∀ email account, owner env accounts email = some account ↔ Owns env accounts email account) ∧
    (∀ account ∈ accounts, ∀ email ∈ account.getClaimedEmails env,
      ∃ oldest, owner env accounts email = some oldest) ∧
    (∀ a ∈ accounts, ∀ b ∈ accounts, a ≠ b → isEligible env accounts a = true → isEligible env accounts b = true →
      List.Disjoint (a.getClaimedEmails env) (b.getClaimedEmails env)) ∧
    (∀ emails account, findUserByEmails env emails accounts = .ok (some account) →
      account ∈ accounts ∧ ∀ email ∈ account.getClaimedEmails env, owner env accounts email = some account) := by
  have claimed : ∀ account ∈ accounts, ∀ email ∈ account.getClaimedEmails env,
      ∃ oldest, owner env accounts email = some oldest := by
    intro account member email claims
    have inside : account ∈ claimants env accounts email := claimantsMember.mpr ⟨member,claims⟩
    exact Option.ne_none_iff_exists'.mp fun none => by simp [List.head?_eq_none_iff.mp none] at inside
  refine ⟨fun others perm => ⟨fun email => ?_,eligibleSame named distinct perm⟩,fun email account => ?_,claimed,?_,?_⟩
  · rw [owner,claimants,orderedSame named distinct perm,owner,claimants]
  · constructor
    · exact ownerOwns named
    · intro owns
      obtain ⟨oldest,owned⟩ := claimed account owns.listed email owns.claims
      rw [owned,ownsUnique named distinct owns (ownerOwns named owned)]
  · intro a here b there other first second email inA inB
    have ownA := eligibleOwns here first inA
    have ownB := eligibleOwns there second inB
    exact other (Option.some.inj (ownA.symm.trans ownB))
  · intro emails account found
    have member := findUserByEmailsMember found
    exact ⟨member,fun email claims => eligibleOwns member (foundEligible found) claims⟩

theorem namesOrdered : NamesOrdered {} where
  total a b := by simpa using String.le_total a b
  trans a b c first second := by
    simp only [decide_eq_true_eq] at first second ⊢
    exact String.le_trans first second
  antisymm a b first second := by
    simp only [decide_eq_true_eq] at first second
    exact String.le_antisymm first second

def sharedAddress : List OidcUser :=
  [{accountId := "bob", creationTimestamp := some 2, spec := {email := some "a@example.com"}},
   {accountId := "alice", creationTimestamp := some 1, spec := {email := some "A@example.com"}}]

theorem sharedAddressOwned : ∃ oldest, owner {} sharedAddress "a@example.com" = some oldest ∧
    Owns {} sharedAddress "a@example.com" oldest := by
  obtain ⟨_,owns,claimed,_⟩ := emailOwnership {} namesOrdered sharedAddress (by decide)
  obtain ⟨oldest,owned⟩ := claimed _ List.mem_cons_self "a@example.com" (by decide)
  exact ⟨oldest,owned,(owns _ _).mp owned⟩

end Passmower
