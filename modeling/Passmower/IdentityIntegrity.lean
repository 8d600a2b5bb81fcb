import Passmower.Account
import Mathlib.Data.List.Sort

/-! Ownership of email addresses over the list of OIDCUsers, and the look-ups of a login
in it. An account that claims an address owned by an older one is in conflict. -/
namespace Passmower
open JavaScript

inductive JsError where
  | identityIntegrity (message : String)
  | http (status : Nat) (message : String)
  | assertion
  | typeError
  | sessionNotFound
  | other (message : String)
  deriving DecidableEq, Repr

/- `accountOrder(a, b) <= 0`; a missing creation time sorts last. -/
def accountOrder (env : Env) (a b : OidcUser) : Prop :=
  match a.creationTimestamp, b.creationTimestamp with
  | some x, some y => x < y ∨ (x = y ∧ env.localeLe a.accountId b.accountId)
  | some _, none => True
  | none, some _ => False
  | none, none => env.localeLe a.accountId b.accountId

instance (env a b) : Decidable (accountOrder env a b) := by
  unfold accountOrder; split <;> infer_instance

def ordered (env : Env) (accounts : List OidcUser) : List OidcUser :=
  accounts.insertionSort (accountOrder env)

def claimants (env : Env) (accounts : List OidcUser) (email : String) : List OidcUser :=
  (ordered env accounts).filter (fun account => email ∈ account.getClaimedEmails env)

def owner (env : Env) (accounts : List OidcUser) (email : String) : Option OidcUser :=
  (claimants env accounts email).head?

/- `conflicts.has(account.accountId)` fails: nobody of this name loses an address to its owner. -/
def isEligible (env : Env) (accounts : List OidcUser) (account : OidcUser) : Bool :=
  accounts.all fun other => (other.getClaimedEmails env).all fun email =>
    (claimants env accounts email).tail.all fun duplicate => duplicate.accountId ≠ account.accountId

def conflictError (account : OidcUser) : JsError :=
  .identityIntegrity s!"OIDCUser {account.accountId} has conflicting email claims"

def findUserByEmails (env : Env) (emails : List (Option String)) (allUsers : List OidcUser) :
    Except JsError (Option OidcUser) :=
  let candidates := ((emails.map (mappedEmail env)).filterMap id).filterMap (owner env allUsers)
  match candidates.eraseDups with
  | [] => .ok none
  | [account] => if isEligible env allUsers account then .ok (some account)
      else .error (conflictError account)
  | _ => .error (.identityIntegrity "Incoming emails belong to different OIDC users")

def findUniqueStableIdentity (env : Env) (predicate : OidcUser → Bool) (description : String)
    (allUsers : List OidcUser) : Except JsError (Option OidcUser) :=
  match allUsers.filter predicate with
  | [] => .ok none
  | [account] => if isEligible env allUsers account then .ok (some account)
      else .error (conflictError account)
  | _ => .error (.identityIntegrity s!"{description} is attached to multiple OIDC users")

def holdsIdentity (providerKey subject : String) (account : OidcUser) : Bool :=
  (account.getIdentity providerKey).bind (·.sub) = some subject

def findUserByIdentity (env : Env) (providerKey subject : String) (allUsers : List OidcUser) :
    Except JsError (Option OidcUser) :=
  findUniqueStableIdentity env (holdsIdentity providerKey subject)
    s!"{providerKey} subject {subject}" allUsers

def holdsGithubId (githubId : Nat) (account : OidcUser) : Bool := account.getGithubId = some githubId

def findUserByGithubId (env : Env) (githubId : Nat) (allUsers : List OidcUser) :
    Except JsError (Option OidcUser) :=
  findUniqueStableIdentity env (holdsGithubId githubId) s!"GitHub id {githubId}" allUsers

theorem ownerMember {env accounts email account} (found : owner env accounts email = some account) :
    account ∈ accounts := by
  have listed := List.mem_of_mem_head? (Option.mem_def.mpr found)
  have sorted := (List.mem_filter.mp listed).1
  exact (List.mem_insertionSort _).mp sorted

theorem findUserByEmailsMember {env emails users account}
    (found : findUserByEmails env emails users = .ok (some account)) : account ∈ users := by
  unfold findUserByEmails at found
  simp only at found
  split at found
  · cases found
  · rename_i candidate one
    split at found
    · cases found
      have listed : account ∈ (((emails.map (mappedEmail env)).filterMap id).filterMap
          (owner env users)).eraseDups := by rw [one]; exact List.mem_singleton_self _
      obtain ⟨email,_,owned⟩ := List.mem_filterMap.mp (List.mem_eraseDups.mp listed)
      exact ownerMember owned
    · cases found
  · cases found

theorem findUniqueStableIdentityMember {env predicate description users account}
    (found : findUniqueStableIdentity env predicate description users = .ok (some account)) :
    account ∈ users ∧ predicate account := by
  unfold findUniqueStableIdentity at found
  split at found
  · cases found
  · rename_i candidate one
    split at found
    · cases found
      exact List.mem_filter.mp (by rw [one]; exact List.mem_singleton_self _)
    · cases found
  · cases found

end Passmower
