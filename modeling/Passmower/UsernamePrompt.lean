import Passmower.EndpointCalls
import Passmower.Provenance

/-! The username form. It does not ask whether the interaction carries a username request, nor
whether enrolment is on, so a fresh interaction can be completed through it by anyone. Where
it is only submitted while enrolment is on, to interactions that carry the request, nobody logs in
unauthenticated. -/
namespace Passmower
open JavaScript Resumption Ledger

def Happening.isLogin : Happening → Bool
  | .loggedIn _ => true
  | _ => false

namespace World

def accounts (w : World) : List String := w.users.map (·.accountId)

def logins (w : World) : List Event := w.journal.filter (·.what.isLogin)

end World

def Prompted (w : World) (uid : Nat) : Prop :=
  ∃ i, w.interaction uid = some i ∧ i.carried.requireCustomUsername = true ∧ Requested w.journal i.chain

structure AuthenticatedStep (w : World) (m : Move) : Prop where
  form : ∀ uid username choices, m = .request (.enterUsername uid username) choices →
    (w.step m).accounts ≠ w.accounts ∨ (w.step m).logins ≠ w.logins → Prompted w uid
  disabled : m.isRequest = true → w.env.enrollUsers = false → (w.step m).accounts = w.accounts

def promptedOnly (w : World) : Call → Prop
  | .record uid (.enterUsername _) =>
      w.env.enrollUsers = true ∧ (w.interaction uid).any (·.carried.requireCustomUsername) = true
  | _ => True

instance (w c) : Decidable (promptedOnly w c) := by unfold promptedOnly; split <;> infer_instance

theorem refusedForm {w : World} {uid username choices}
    (refused : ¬ promptedOnly w (.record uid (.enterUsername username)))
    (disciplined : (Move.request (.enterUsername uid username) choices).Disciplined promptedOnly w) :
    w.step (.request (.enterUsername uid username) choices) = w := by
  have idle : Conducted promptedOnly (OidcRoutes.enterUsername w.env uid username) (fun _ t => t = w) w := by
    refine conductedCall (.read (.interactionDetails uid) rfl) rfl fun _ choice => ?_
    simp only [serve]
    cases found : w.interaction uid with
    | none => exact (aloneThrow _ _ w).mpr rfl
    | some i =>
        show Conducted promptedOnly (if i.prompt ≠ .login then raise .assertion else _) _ w
        split
        · exact (aloneThrow _ _ w).mpr rfl
        · refine conductedReading (usernameExistsReadOnly _) (fun _ => rfl) fun taken => ?_
          split
          · exact (alonePure _ _ w).mpr rfl
          · exact conductedAsk (.record uid i _ found (.enterUsername username)) rfl fun prompted _ =>
              absurd prompted refused
  exact aloneRun idle disciplined

theorem updateUserAccounts {w : World} {accountId : String} {f : OidcUser → OidcUser}
    (named : ∀ u, (f u).accountId = u.accountId) : (w.updateUser accountId f).accounts = w.accounts := by
  unfold World.accounts World.updateUser
  induction w.users with
  | nil => rfl
  | cons head tail ih =>
      simp only [updateFirst]
      split
      · simp [named head]
      · simpa using ih

theorem accountsKept {env : Env} (off : env.enrollUsers = false) (w : World) (c : Call) (choice : Choice)
    (uncreating : Uncreating env c) : (serve choice c w).2.accounts = w.accounts := by
  have logged : ∀ (w : World) (uid : Nat) (what : Happening), (w.log uid what).accounts = w.accounts :=
    fun w uid what => by unfold World.accounts; rw [logUsers]
  cases c with
  | createUser uid accountId body => exact absurd (off.symm.trans uncreating) Bool.false_ne_true
  | authorizationCodeGrant uid config =>
      simp only [serve]
      split
      · rfl
      · exact logged _ _ _
  | fetchUserInfo uid config =>
      simp only [serve]
      split
      · rfl
      · exact logged _ _ _
  | getOAuthAccessToken uid =>
      simp only [serve]
      split
      · rfl
      · exact logged _ _ _
  | interactionResult uid literal merge =>
      simp only [serve]
      split
      · exact logged _ _ _
      · rfl
  | patchUser accountId values existing =>
      simp only [serve]
      split
      · rfl
      · exact updateUserAccounts fun u => rfl
  | mutateUserStatus accountId mutation =>
      simp only [serve]
      split
      · rfl
      · exact updateUserAccounts fun u => rfl
  | sendMail uid token address => exact logged _ _ _
  | record uid what => exact logged _ _ _
  | _ => rfl

theorem disabledKept {w : World} {request : Request} (other : request.isForm = false)
    (off : w.env.enrollUsers = false) (choices : List Choice) :
    (w.step (.request request choices)).accounts = w.accounts := by
  have kept : Alone serve (fun _ _ => True) (fun _ _ => True) (request.program w.env)
      (fun _ t => t.accounts = w.accounts) w :=
    callsOnlyAlone (R := fun a b : World => b.accounts = a.accounts) (fun _ => rfl) (fun first next => next.trans first)
      (accountsKept off) (requestUncreating request other)
  exact aloneRun kept (disciplinedTrivial _ choices w)

theorem authenticatedStep {w : World} {m : Move} (inv : Provenance w)
    (disciplined : m.Disciplined promptedOnly w) : AuthenticatedStep w m where
  form uid username choices same changed := by
    subst same
    by_contra unprompted
    have refused : ¬ promptedOnly w (.record uid (.enterUsername username)) := by
      rintro ⟨_,flagged⟩
      obtain ⟨i,found,flag⟩ := (Option.any_eq_true _ _).mp flagged
      exact unprompted ⟨i,found,flag,(inv.genuine uid i found).1.requireCustomUsername flag⟩
    rw [refusedForm refused disciplined] at changed
    exact changed.elim (fun h => h rfl) (fun h => h rfl)
  disabled request off := by
    cases m with
    | request r choices =>
        cases form : r.isForm with
        | false => exact disabledKept form off choices
        | true =>
            cases r with
            | enterUsername uid username =>
                have refused : ¬ promptedOnly w (.record uid (.enterUsername username)) := fun prompted =>
                  absurd (off.symm.trans prompted.1) Bool.false_ne_true
                rw [refusedForm refused disciplined]
            | _ => cases form
    | _ => cases request

/- In every run whose form submissions are made while enrolment is on, in interactions with a username
request, the form serves authenticated logins only, and no request creates an account while enrolment is off. -/
theorem noLoginWithoutAuthentication (env : Env) (users : List OidcUser) (before after : List Move)
    (m : Move) (prompted : RunDisciplined promptedOnly (before ++ m :: after) (opening env users)) :
    AuthenticatedStep (run before (opening env users)) m := by
  obtain ⟨first,rest⟩ := runDisciplinedSplit prompted
  exact authenticatedStep (runLaw (provenanceLaw promptedOnly) (provenanceOpening env users) first) rest.1

def promptedEnrolment : List Move :=
  [.start .login,.request (.email 0 "a@x.org") (List.replicate 8 {text := "t"}),
   .request (.verifyEmail 0 "t" (some 0)) (List.replicate 16 {text := "1"}),.resume 0 .login]

theorem promptedEnrolmentAuthenticated :
    let opened := run promptedEnrolment (opening {usernameSource := .prompt} [])
    (opened.step (.request (.enterUsername 1 "alice") [])).accounts = ["alice"] ∧
      AuthenticatedStep opened (.request (.enterUsername 1 "alice") []) :=
  ⟨by decide,noLoginWithoutAuthentication {usernameSource := .prompt} [] promptedEnrolment []
    (.request (.enterUsername 1 "alice") []) (by decide)⟩

/- A browser that never authenticated names itself an account, with enrolment off. -/
theorem formWithoutLogin : ¬ ∀ (env : Env) (users : List OidcUser) (before : List Move) (m : Move),
    AuthenticatedStep (run before (opening env users)) m := by
  intro claim
  have step := claim {enrollUsers := false} [] [.start .login] (.request (.enterUsername 0 "alice") [])
  have created := step.disabled rfl rfl
  revert created
  decide

end Passmower
