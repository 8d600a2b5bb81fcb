import Passmower.StatusReconcile

/-! The conditions on email addresses of all accounts, reconciled one account after the other. A run that ends without an
error leaves every condition as the next run would have it. -/
namespace Passmower
open JavaScript Resumption Program

structure EmailConflict where
  email : String
  ownerAccountId : String
  deriving DecidableEq, Repr

def claimedEmails (env : Env) (accounts : List OidcUser) : List String :=
  ((ordered env accounts).flatMap fun account => account.getClaimedEmails env).eraseDups

def conflicts (env : Env) (accounts : List OidcUser) (accountId : String) : List EmailConflict :=
  (claimedEmails env accounts).flatMap fun email => match claimants env accounts email with
    | [] => []
    | owner :: duplicates => (duplicates.filter (·.accountId = accountId)).map fun _ => ⟨email,owner.accountId⟩

structure EmailAssessment where
  status : String
  reason : String
  message : String
  deriving DecidableEq, Repr

def assess (conflicts : List EmailConflict) : EmailAssessment :=
  if conflicts.isEmpty then ⟨"True","Unique","All claimed email addresses are unique"⟩
  else ⟨"False","DuplicateEmail","; ".intercalate (conflicts.map fun conflict =>
    s!"{conflict.email} is owned by OIDCUser {conflict.ownerAccountId}")⟩

def isEmailUnique (condition : Object) : Bool := textAt "type" condition = some "EmailUnique"

namespace StoredUser
variable (user : StoredUser) (assessment : EmailAssessment)

def emailUnique : Option Object := user.getConditions.find? isEmailUnique

def upToDate : Bool := user.emailUnique.bind (textAt "status") = some assessment.status ∧
  user.emailUnique.bind (textAt "reason") = some assessment.reason ∧
  user.emailUnique.bind (textAt "message") = some assessment.message

def emailCondition (now : String) : Object := jsonObject [
  ("apiVersion",some (.string "v1")),
  ("kind",some (.string "Condition")),
  ("type",some (.string "EmailUnique")),
  ("status",some (.string assessment.status)),
  ("reason",some (.string assessment.reason)),
  ("message",some (.string assessment.message)),
  ("lastTransitionTime",if user.emailUnique.bind (textAt "status") = some assessment.status
    then user.emailUnique.bind (·.get "lastTransitionTime") else some (.string now))]

def withEmailCondition (now : String) : StoredUser := user.setConditions
  (user.getConditions.filter (fun condition => !isEmailUnique condition) ++ [user.emailCondition assessment now])

end StoredUser

inductive EmailCall where
  | listUsers
  | mutateUserStatus (accountId : String) (assessment : EmailAssessment)
  | createEvent (accountId reason message : String)

abbrev EmailAnswer : EmailCall → Type
  | .listUsers => Option (List StoredUser)
  | .mutateUserStatus _ _ => Option StoredUser
  | .createEvent _ _ _ => Unit

abbrev emailApi : Interface := ⟨EmailCall,EmailAnswer⟩

abbrev EmailReconcile := Program emailApi JsError

section Program
variable (env : Env) (accounts : List OidcUser)

/- The creation of an event catches failures of its own. -/
def updateCondition (account : StoredUser) (assessment : EmailAssessment) : EmailReconcile Unit := do
  let updated : Option StoredUser ← ask (I := emailApi) (.mutateUserStatus account.accountId assessment)
  match updated with
  | none => .throw (.other s!"Status update returned no OIDCUser for {account.accountId}")
  | some _ =>
      if assessment.status = "False" ∧ account.emailUnique.bind (textAt "status") ≠ some "False" then
        ask (I := emailApi) (.createEvent account.accountId "DuplicateEmail" assessment.message)
      else .pure ()

def reconcileCondition (account : StoredUser) : EmailReconcile (List JsError) :=
  let assessment := assess (conflicts env accounts account.accountId)
  if account.upToDate assessment then .pure []
  else do
    let outcome ← (updateCondition account assessment).attempt
    match outcome with
    | .ok _ => .pure []
    | .error error => .pure [error]

def reconcileConditions : List StoredUser → EmailReconcile (List JsError)
  | [] => .pure []
  | account :: rest => do
      let errors ← reconcileCondition env accounts account
      let more ← reconcileConditions rest
      .pure (errors ++ more)

def reconcileEmailUniqueness : EmailReconcile (List StoredUser × Nat) := do
  let listed : Option (List StoredUser) ← ask (I := emailApi) .listUsers
  match listed with
  | none => .throw .typeError
  | some users => do
      let accounts := users.map StoredUser.account
      let errors ← reconcileConditions env accounts users
      if errors.isEmpty then .pure (users,users.countP fun user => !(conflicts env accounts user.accountId).isEmpty)
      else .throw (.other s!"Failed to reconcile {errors.length} OIDCUser email condition(s)")

end Program

/- The accounts of the cluster, and what has been asked of the API server besides listing them. -/
structure EmailCluster where
  users : List StoredUser
  distinct : (users.map StoredUser.accountId).Nodup
  requests : List EmailCall := []

structure EmailTurn where
  outcome : PatchOutcome := .applied
  now : String := ""
  deriving Inhabited

namespace EmailCluster
variable (cluster : EmailCluster)

def request (call : EmailCall) : EmailCluster := {cluster with requests := cluster.requests ++ [call]}

def restate (env : Env) (accountId : String) (assessment : EmailAssessment) (now : String) : EmailCluster where
  users := cluster.users.map fun user =>
    if user.accountId = accountId then (user.withEmailCondition assessment now).restated env else user
  distinct := by
    have same : ∀ user ∈ cluster.users, (if user.accountId = accountId then
        (user.withEmailCondition assessment now).restated env else user).accountId = user.accountId := by
      intro user _
      split
      · rfl
      · rfl
    rw [List.map_map]
    exact (List.map_congr_left same : cluster.users.map _ = _) ▸ cluster.distinct
  requests := cluster.requests

def serve (env : Env) (turn : EmailTurn) : (call : emailApi.Call) → EmailCluster → emailApi.Answer call × EmailCluster
  | .listUsers,cluster => match turn.outcome with
      | .applied => (some cluster.users,cluster)
      | _ => (none,cluster)
  | .mutateUserStatus accountId assessment,cluster =>
      let asked := cluster.request (.mutateUserStatus accountId assessment)
      let done := asked.restate env accountId assessment turn.now
      match turn.outcome with
      | .applied => (done.users.find? (·.accountId = accountId),done)
      | .refused => (none,asked)
      | .unanswered => (none,done)
  | .createEvent accountId reason message,cluster => ((),cluster.request (.createEvent accountId reason message))

end EmailCluster

section Conflicts
variable {env : Env} {accounts : List OidcUser}

end Conflicts

section Conditions
variable {env : Env} {user : StoredUser} {assessment : EmailAssessment} {now : String}

theorem conditionType : isEmailUnique (user.emailCondition assessment now) = true := by
  simp [isEmailUnique,textAt,StoredUser.emailCondition,jsonObject,Object.get,Json.string?]

theorem restatedUnique : ((user.withEmailCondition assessment now).restated env).emailUnique =
    some (user.emailCondition assessment now) := by
  have others : ((user.getConditions.filter fun condition => !isEmailUnique condition).filter
      fun condition => textAt "type" condition ≠ some "ToSv1").find? isEmailUnique = none := by
    refine List.find?_eq_none.mpr fun condition inside unique => ?_
    have other := (List.mem_filter.mp (List.mem_filter.mp inside).1).2
    simp [unique] at other
  have kept : [user.emailCondition assessment now].filter (fun condition => textAt "type" condition ≠ some "ToSv1") =
      [user.emailCondition assessment now] := by
    have type : isEmailUnique (user.emailCondition assessment now) = true := conditionType
    simp only [isEmailUnique,decide_eq_true_eq] at type
    simp [type]
  show ((user.getConditions.filter (fun condition => !isEmailUnique condition) ++
    [user.emailCondition assessment now]).filter _).find? isEmailUnique = _
  rw [List.filter_append,kept,List.find?_append,others,Option.none_or,List.find?_cons,conditionType]

theorem restatedUpToDate : ((user.withEmailCondition assessment now).restated env).upToDate assessment = true := by
  simp only [StoredUser.upToDate,restatedUnique]
  simp [textAt,StoredUser.emailCondition,jsonObject,Object.get,Json.string?]

end Conditions

structure Conditioned (env : Env) (accounts : List OidcUser) (accountId : String) (before after : EmailCluster) : Prop where
  listing : after.users.map StoredUser.account = before.users.map StoredUser.account
  others : ∀ user, user.accountId ≠ accountId → (user ∈ after.users ↔ user ∈ before.users)
  settled : ∀ user ∈ after.users, user.accountId = accountId → user.upToDate (assess (conflicts env accounts accountId)) = true

section Runs
variable {env : Env} {accounts : List OidcUser} {s t : EmailCluster} {turns rest : List EmailTurn} {account : StoredUser}

theorem restateConditioned (accountId now : String) : Conditioned env accounts accountId s
    (s.restate env accountId (assess (conflicts env accounts accountId)) now) := by
  constructor
  · show List.map _ (List.map _ s.users) = _
    rw [List.map_map]
    refine List.map_congr_left fun user _ => ?_
    simp only [Function.comp_apply]
    split
    · rfl
    · rfl
  · intro user other
    constructor
    · intro inside
      obtain ⟨old,listed,same⟩ := List.mem_map.mp inside
      split at same
      · rename_i named
        exact absurd (same ▸ named) other
      · exact same ▸ listed
    · exact fun listed => List.mem_map.mpr ⟨user,listed,if_neg other⟩
  · intro user inside named
    obtain ⟨old,_,rfl⟩ := List.mem_map.mp inside
    split at named
    · rename_i here
      rw [if_pos here]
      exact restatedUpToDate
    · rename_i other
      exact absurd named other

theorem userUnique {user : StoredUser} (here : user ∈ s.users) (there : account ∈ s.users)
    (same : user.accountId = account.accountId) : user = account :=
  List.inj_on_of_nodup_map s.distinct here there same

theorem updateRun {assessment : EmailAssessment}
    (ends : run (EmailCluster.serve env) (updateCondition account assessment) turns s = (.ok (),rest,t)) :
    ∃ now, t.users = (s.restate env account.accountId assessment now).users := by
  refine ⟨(turns.headD default).now,?_⟩
  rw [updateCondition,runAsk] at ends
  cases outcome : (turns.headD default).outcome with
  | applied =>
      simp only [EmailCluster.serve,outcome] at ends
      split at ends
      · cases ends
      · split at ends
        · cases ends
          rfl
        · cases ends
          rfl
  | refused =>
      simp only [EmailCluster.serve,outcome] at ends
      cases ends
  | unanswered =>
      simp only [EmailCluster.serve,outcome] at ends
      cases ends

theorem conditionRun (listed : account ∈ s.users)
    (ends : run (EmailCluster.serve env) (reconcileCondition env accounts account) turns s = (.ok [],rest,t)) :
    Conditioned env accounts account.accountId s t := by
  unfold reconcileCondition at ends
  simp only at ends
  split at ends
  · rename_i settled
    cases ends
    refine ⟨rfl,fun user _ => Iff.rfl,fun user inside same => ?_⟩
    rw [userUnique inside listed same]
    exact settled
  · rcases first : run (EmailCluster.serve env) (updateCondition account (assess (conflicts env accounts account.accountId)))
      turns s with ⟨outcome,rest',t'⟩
    rw [runAttemptBind first] at ends
    cases outcome with
    | error error => cases ends
    | ok done =>
        cases ends
        obtain ⟨now,same⟩ := updateRun first
        have done : Conditioned env accounts account.accountId s _ := restateConditioned account.accountId now
        exact ⟨same ▸ done.listing,fun user other => same ▸ done.others user other,
          fun user inside => done.settled user (same ▸ inside)⟩

theorem conditionsRun {todo : List StoredUser} (listed : ∀ user ∈ todo, user ∈ s.users)
    (distinct : (todo.map StoredUser.accountId).Nodup)
    (ends : run (EmailCluster.serve env) (reconcileConditions env accounts todo) turns s = (.ok [],rest,t)) :
    t.users.map StoredUser.account = s.users.map StoredUser.account ∧
    (∀ user, user.accountId ∉ todo.map StoredUser.accountId → (user ∈ t.users ↔ user ∈ s.users)) ∧
    ∀ user ∈ t.users, user.accountId ∈ todo.map StoredUser.accountId →
      user.upToDate (assess (conflicts env accounts user.accountId)) = true := by
  induction todo generalizing s turns rest with
  | nil =>
      cases ends
      exact ⟨rfl,fun user _ => Iff.rfl,fun user _ none => by cases none⟩
  | cons account later ih =>
      obtain ⟨fresh,distinct⟩ := List.nodup_cons.mp distinct
      obtain ⟨errors,turns',middle,first,ends⟩ := runBindOk ends
      obtain ⟨more,turns'',last,second,ends⟩ := runBindOk ends
      obtain ⟨result,same⟩ := Prod.mk.inj ends
      obtain ⟨rfl,rfl⟩ := List.append_eq_nil_iff.mp (Except.ok.inj result)
      obtain ⟨_,rfl⟩ := Prod.mk.inj same
      have here := conditionRun (listed account List.mem_cons_self) first
      have still : ∀ user ∈ later, user ∈ middle.users := by
        intro user inside
        have other : user.accountId ≠ account.accountId := fun same => fresh (same ▸ List.mem_map_of_mem inside)
        exact (here.others user other).mpr (listed user (List.mem_cons_of_mem _ inside))
      obtain ⟨listing,others,settled⟩ := ih still distinct second
      refine ⟨listing.trans here.listing,fun user out => ?_,fun user inside named => ?_⟩
      · simp only [List.map_cons,List.mem_cons,not_or] at out
        exact (others user out.2).trans (here.others user out.1)
      · by_cases left : user.accountId ∈ later.map StoredUser.accountId
        · exact settled user inside left
        · rcases List.mem_cons.mp named with same | left'
          · rw [same]
            exact here.settled user ((others user left).mp inside) same
          · exact absurd left' left

theorem conditionsRest {todo : List StoredUser}
    (settled : ∀ user ∈ todo, user.upToDate (assess (conflicts env accounts user.accountId)) = true) :
    reconcileConditions env accounts todo = .pure [] := by
  induction todo with
  | nil => rfl
  | cons account later ih =>
      have first : reconcileCondition env accounts account = .pure [] := by
        simp [reconcileCondition,settled account List.mem_cons_self]
      rw [reconcileConditions,first,pureBind,ih fun user inside => settled user (List.mem_cons_of_mem _ inside)]
      rfl

theorem reconcileSettles {result : List StoredUser × Nat}
    (ends : run (EmailCluster.serve env) (reconcileEmailUniqueness env) turns s = (.ok result,rest,t)) :
    ∀ user ∈ t.users, user.upToDate (assess (conflicts env (t.users.map StoredUser.account) user.accountId)) = true := by
  rw [reconcileEmailUniqueness,runAsk] at ends
  cases outcome : (turns.headD default).outcome with
  | refused =>
      simp only [EmailCluster.serve,outcome] at ends
      cases ends
  | unanswered =>
      simp only [EmailCluster.serve,outcome] at ends
      cases ends
  | applied =>
      simp only [EmailCluster.serve,outcome] at ends
      obtain ⟨errors,turns',middle,loop,ends⟩ := runBindOk ends
      split at ends
      · rename_i empty
        obtain ⟨_,same⟩ := Prod.mk.inj ends
        obtain ⟨_,rfl⟩ := Prod.mk.inj same
        rw [List.isEmpty_iff.mp empty] at loop
        obtain ⟨listing,_,settled⟩ := conditionsRun (fun user inside => inside) s.distinct loop
        intro user inside
        rw [listing]
        refine settled user inside ?_
        have named : user.account ∈ s.users.map StoredUser.account := listing ▸ List.mem_map_of_mem inside
        obtain ⟨old,listed,same⟩ := List.mem_map.mp named
        exact List.mem_map.mpr ⟨old,listed,congrArg OidcUser.accountId same⟩
      · cases ends

theorem reconcileRests (settled : ∀ user ∈ s.users,
    user.upToDate (assess (conflicts env (s.users.map StoredUser.account) user.accountId)) = true) :
    (run (EmailCluster.serve env) (reconcileEmailUniqueness env) turns s).2.2 = s := by
  rw [reconcileEmailUniqueness,runAsk]
  cases outcome : (turns.headD default).outcome with
  | refused => simp only [EmailCluster.serve,outcome]; rfl
  | unanswered => simp only [EmailCluster.serve,outcome]; rfl
  | applied =>
      simp only [EmailCluster.serve,outcome]
      rw [conditionsRest settled]
      rfl

end Runs

/- The intended status of an account is the one of the account that has it, exactly where the keys which the evidence of
magic links shares with other evidence come last in the one and first in the other, so wherever no address has the separator
of the keys; the status after it always is; and a reconcile of the conditions on email addresses after one without errors
writes nothing. The account in memory intends what the stored one does. -/
theorem statusReconcile (env : Env) : (∀ user : StoredUser, StoredUser.Canonical env user →
    ((user.restated env).getIntendedStatus env = user.getIntendedStatus env ↔
      SharedLast (keysOf jsonEvidenceKey (user.magicLinkEvidence env)) (keysOf jsonEvidenceKey (user.providerEvidence env))) ∧
    ((user.restated env).restated env).getIntendedStatus env = (user.restated env).getIntendedStatus env ∧
    (StoredUser.Plain env user → (user.restated env).getIntendedStatus env = user.getIntendedStatus env)) ∧
    (∀ (s t : EmailCluster) (turns rest : List EmailTurn) (result : List StoredUser × Nat),
      run (EmailCluster.serve env) (reconcileEmailUniqueness env) turns s = (.ok result,rest,t) →
      ∀ turns', (run (EmailCluster.serve env) (reconcileEmailUniqueness env) turns' t).2.2 = t) ∧
    ∀ user : OidcUser, user.stored.getIntendedStatus env = (user.getIntendedStatus env).json := by
  refine ⟨fun user canonical => ?_,fun s t turns rest result ends turns' => ?_,fun user => storedIntended⟩
  · exact ⟨StoredUser.statusFixed canonical,StoredUser.secondFixed canonical,StoredUser.plainFixed canonical⟩
  · exact reconcileRests (reconcileSettles ends)

def magicLink (email provider : String) : Object := [("email",.string email),("status",.string "verified"),
  ("method",.string "magic-link"),("provider",.string provider),("verifiedAt",.string "2026-01-01T00:00:00.000Z")]

def documented : Env := {termsOfService := some "f00d"}

def legacyUser : StoredUser where
  accountId := "alice"
  github := {emails := some [{email := some "alice@x.org", verified := some true},{email := some "Alice@x.org"}]}
  identities := some [("one",{sub := some "1", emails := some [{email := some "alice@x.org", verified := some false}]})]
  status := {
    conditions := [[("type",.string "ToSv1"),("status",.string "True"),("lastTransitionTime",.string "2025-01-01T00:00:00Z")]]
    emailVerifications := [magicLink "alice@x.org" "passmower",magicLink "Alice@x.org " "passmower"]}

def doubledCluster : EmailCluster where
  users := [legacyUser,{accountId := "bob", spec := {email := some "ALICE@x.org"}}]
  distinct := by decide

theorem legacyFixed : (legacyUser.restated documented).getIntendedStatus documented = legacyUser.getIntendedStatus documented ∧
    ∀ turns, (run (EmailCluster.serve documented) (reconcileEmailUniqueness documented) turns
      (after (EmailCluster.serve documented) (reconcileEmailUniqueness documented) [] doubledCluster)).2.2 =
      after (EmailCluster.serve documented) (reconcileEmailUniqueness documented) [] doubledCluster := by
  obtain ⟨status,second,_⟩ := statusReconcile documented
  constructor
  · refine (status legacyUser ?_).1.mpr ⟨_,[],_,(List.append_nil _).symm,(List.nil_append _).symm,?_⟩
    · intro item inside _ email spelled
      have address : canonicalizeEmail documented (textAt "email" item) = some "alice@x.org" := by
        rcases List.mem_cons.mp inside with rfl | inside
        · decide +kernel
        · cases List.mem_singleton.mp inside
          decide +kernel
      cases address.symm.trans spelled
      decide +kernel
    · have apart : ∀ key ∈ keysOf jsonEvidenceKey (legacyUser.magicLinkEvidence documented),
        key ∉ keysOf jsonEvidenceKey (legacyUser.providerEvidence documented) := by decide +kernel
      exact fun key own other => apart key own other
  · have ended : (run (EmailCluster.serve documented) (reconcileEmailUniqueness documented) [] doubledCluster).1.isOk =
        true := by decide +kernel
    rcases ran : run (EmailCluster.serve documented) (reconcileEmailUniqueness documented) [] doubledCluster with
      ⟨outcome,rest,t⟩
    rw [ran] at ended
    simp only [after,ran]
    cases outcome with
    | ok result => exact second doubledCluster t [] rest result ran
    | error error => cases ended

def clashingUser : StoredUser where
  accountId := "alice"
  github := {emails := some [{email := some "a@x.org\x00magic-link\x00p", verified := some true}]}
  status := {emailVerifications := [magicLink "a@x.org" "p\x00github-api\x00github",magicLink "b@x.org" "passmower"]}

/- The evidence of GitHub has the key, and so the place, of one that was stored before another. -/
theorem evidenceMoves : ¬ ∀ (env : Env) (user : StoredUser), user.Canonical env →
    (user.restated env).getIntendedStatus env = user.getIntendedStatus env := by
  intro claim
  have canonical : clashingUser.Canonical {} := by
    intro item inside _ email spelled
    rcases List.mem_cons.mp inside with rfl | inside
    · have address : canonicalizeEmail {} (textAt "email" (magicLink "a@x.org" "p\x00github-api\x00github")) =
        some "a@x.org" := by decide +kernel
      cases address.symm.trans spelled
      decide +kernel
    · cases List.mem_singleton.mp inside
      have address : canonicalizeEmail {} (textAt "email" (magicLink "b@x.org" "passmower")) = some "b@x.org" := by
        decide +kernel
      cases address.symm.trans spelled
      decide +kernel
  have same := congrArg (fun status => status.emailVerifications.map (textAt "email")) (claim {} clashingUser canonical)
  have apart : ((clashingUser.restated {}).getIntendedStatus {}).emailVerifications.map (textAt "email") ≠
      (clashingUser.getIntendedStatus {}).emailVerifications.map (textAt "email") := by decide +kernel
  exact apart same

end Passmower
