import Passmower.Endpoints
import Passmower.Ledger
import Passmower.Resumption.Stepping

/-! Runs: a browser starts interactions, sends requests in any order and resumes with a
result in the next interaction; administrators edit accounts; identities are deactivated;
the operator reconfigures the upstream providers, or restarts the pods under another `ENROLL_USERS`,
which the stored interactions outlive. A law of lawful calls and of these edits holds in every state
a run passes through, the await points inside a request included. -/
namespace Passmower
open JavaScript Resumption

inductive Move where
  | start (prompt : Prompt)
  | resume (uid : Nat) (prompt : Prompt)
  | request (request : Request) (choices : List Choice)
  | invite (accountId address : String) (time : Nat)
  | administer (accountId : String) (spec : AdminSpec)
  | setActive (accountId key : String) (active : Bool)
  | reconcile (accountId : String)
  | configure (providers : List ProviderConfig)
  | restart (enrollUsers : Bool)

def Move.isRequest : Move → Bool
  | .request _ _ => true
  | _ => false

def AdminSpec.addresses (spec : AdminSpec) : List String := [spec.email,spec.companyEmail].filterMap id

def OidcUser.withActive (key : String) (active : Bool) (user : OidcUser) : OidcUser :=
  match user.getIdentity key with
  | some identity =>
      {user with identities := some (mapSet key {identity with active := some active} user.identityEntries)}
  | none => user

namespace World
variable (w : World)

def start (prompt : Prompt) : World :=
  {w with interactions := w.interactions ++ [⟨w.interactions.length,prompt,none,none⟩]}

def resume (uid : Nat) (prompt : Prompt) : World := match w.interaction uid with
  | some i => {w with interactions := w.interactions ++ [i.resume prompt]}
  | none => w

/- What an invitation leaves behind: an account whose `passmower.email` the administrator chose. -/
def invite (accountId address : String) (time : Nat) : World :=
  if (w.user accountId).isSome then w
  else {w with
    users := w.users ++ [OidcUser.restated w.env .none
      (NewUser.resource accountId time ⟨some address,none,none,none⟩)]
    administered := w.administered ++ [(accountId,address)]}

def administer (accountId : String) (spec : AdminSpec) : World :=
  let named := {w with administered := w.administered ++ spec.addresses.map (fun a => (accountId,a))}
  match w.user accountId with
  | some _ => named.updateUser accountId (fun u => {u with spec := spec})
  | none => {named with users := named.users ++ [{accountId := accountId, spec := spec}]}

def step : Move → World
  | .start prompt => w.start prompt
  | .resume uid prompt => w.resume uid prompt
  | .request request choices => after serve (request.program w.env) choices w
  | .invite accountId address time => w.invite accountId address time
  | .administer accountId spec => w.administer accountId spec
  | .setActive accountId key active => w.updateUser accountId (OidcUser.withActive key active)
  | .reconcile accountId => w.updateUser accountId (OidcUser.restated w.env .none)
  | .configure providers => {w with env := {w.env with providers := providers}}
  | .restart enrollUsers => {w with env := {w.env with enrollUsers := enrollUsers}}

/- The state after a move, and the states at await points before it. -/
def passes : Move → List World
  | .request request choices => visits serve (request.program w.env) choices w
  | m => [w.step m]

end World

def run (moves : List Move) (w : World) : World := moves.foldl World.step w

def reaches : List Move → World → List World
  | [], w => [w]
  | m :: ms, w => w.passes m ++ reaches ms (w.step m)

def Move.Disciplined (ok : World → Call → Prop) (w : World) : Move → Prop
  | .request r choices => Resumption.Disciplined serve ok (r.program w.env) choices w
  | _ => True

def RunDisciplined (ok : World → Call → Prop) : List Move → World → Prop := EachStep World.step fun w m => m.Disciplined ok w

instance decideMove {ok : World → Call → Prop} [∀ w c, Decidable (ok w c)] (w : World) (m : Move) :
    Decidable (m.Disciplined ok w) :=
  match m with
  | .request r choices =>
      inferInstanceAs (Decidable (Resumption.Disciplined serve ok (r.program w.env) choices w))
  | .start _ | .resume _ _ | .invite _ _ _ | .administer _ _ | .setActive _ _ _ | .reconcile _
  | .configure _ | .restart _ => .isTrue trivial

instance decideRun {ok : World → Call → Prop} [∀ w c, Decidable (ok w c)] (moves : List Move) (w : World) :
    Decidable (RunDisciplined ok moves w) :=
  inferInstanceAs (Decidable (EachStep World.step (fun w m => m.Disciplined ok w) moves w))

theorem runDisciplinedSplit {ok before after} {w : World}
    (disciplined : RunDisciplined ok (before ++ after) w) :
    RunDisciplined ok before w ∧ RunDisciplined ok after (run before w) :=
  eachStepAppend.mp disciplined

structure Law (ok : World → Call → Prop) (Inv : World → Prop) : Prop where
  call : ∀ {w : World} {c : Call} (choice : Choice), Inv w → ok w c → Lawful w c →
    Inv (serve choice c w).2
  edit : ∀ {w : World} {m : Move}, Inv w → m.isRequest = false → Inv (w.step m)

section Laws
variable {ok : World → Call → Prop} {Inv : World → Prop}

theorem conductLaw (law : Law ok Inv) {w t : World} (conduct : Relation.ReflTransGen (Conduct ok) w t)
    (inv : Inv w) : Inv t := by
  induction conduct with
  | refl => exact inv
  | tail _ step ih =>
      obtain ⟨c,choice,good,lawful,rfl⟩ := step
      exact law.call choice ih good lawful

theorem requestConducts {w t : World} {request choices}
    (disciplined : (Move.request request choices).Disciplined ok w)
    (visited : t ∈ w.passes (.request request choices)) : Relation.ReflTransGen (Conduct ok) w t :=
  aloneVisits (requestConducted request) disciplined visited

theorem passesLaw (law : Law ok Inv) {w t : World} {m : Move} (inv : Inv w)
    (disciplined : m.Disciplined ok w) (visited : t ∈ w.passes m) : Inv t := by
  cases m with
  | request request choices => exact conductLaw law (requestConducts disciplined visited) inv
  | _ =>
      cases List.mem_singleton.mp visited
      exact law.edit inv rfl

theorem stepPassed (w : World) (m : Move) : w.step m ∈ w.passes m := by
  cases m with
  | request request choices => exact afterVisited _ _ _ _
  | _ => exact List.mem_singleton.mpr rfl

theorem stepLaw (law : Law ok Inv) {w : World} {m : Move} (inv : Inv w)
    (disciplined : m.Disciplined ok w) : Inv (w.step m) :=
  passesLaw law inv disciplined (stepPassed w m)

theorem runLaw (law : Law ok Inv) {w : World} {moves : List Move} (inv : Inv w)
    (disciplined : RunDisciplined ok moves w) : Inv (run moves w) :=
  eachStepKeeps Inv (fun _ _ => stepLaw law) inv disciplined

theorem reachesLaw (law : Law ok Inv) {w t : World} {moves : List Move} (inv : Inv w)
    (disciplined : RunDisciplined ok moves w) (reached : t ∈ reaches moves w) : Inv t := by
  induction moves generalizing w with
  | nil => cases List.mem_singleton.mp reached; exact inv
  | cons m ms ih =>
      rcases List.mem_append.mp reached with here | later
      · exact passesLaw law inv disciplined.1 here
      · exact ih (stepLaw law inv disciplined.1) disciplined.2 later

theorem runReached (moves : List Move) (w : World) : run moves w ∈ reaches moves w := by
  induction moves generalizing w with
  | nil => exact List.mem_singleton_self _
  | cons m ms ih => exact List.mem_append_right _ (ih (w.step m))

structure BoundaryLaw (ok : World → Call → Prop) (Inv : World → Prop) : Prop where
  call : ∀ {w : World} {c : Call} (choice : Choice), Inv w → ok w c → Lawful w c → c.links = false →
    Inv (serve choice c w).2
  sent : ∀ {w : World} {uid : Nat} {i : Interaction} {email token : String} (stored mailed : Choice),
    Inv w → w.interaction uid = some i → ok w (.interactionResult uid (.link email token) true) →
    Inv (serve mailed (.sendMail uid token email)
      (serve stored (.interactionResult uid (.link email token) true) w).2).2
  edit : ∀ {w : World} {m : Move}, Inv w → m.isRequest = false → Inv (w.step m)

theorem plainLaw (law : BoundaryLaw ok Inv) {w t : World} (steps : Relation.ReflTransGen (Plain ok) w t)
    (inv : Inv w) : Inv t := by
  induction steps with
  | refl => exact inv
  | tail _ step ih =>
      obtain ⟨c,choice,good,lawful,plain,rfl⟩ := step
      exact law.call choice ih good lawful plain

theorem stepBoundary (law : BoundaryLaw ok Inv) {w : World} {m : Move} (inv : Inv w)
    (disciplined : m.Disciplined ok w) : Inv (w.step m) := by
  cases m with
  | request r choices =>
      cases email : r.isEmail with
      | false =>
          have plain : Relation.ReflTransGen (Plain ok) w (after serve (r.program w.env) choices w) :=
            aloneRun (conductedSteps (requestPlain r email)) disciplined
          exact plainLaw law plain inv
      | true =>
          cases r with
          | email uid address =>
              have sends : SendsLink ok uid w (after serve (OidcRoutes.email w.env uid address) choices w) :=
                aloneRun emailSends disciplined
              show Inv (after serve (OidcRoutes.email w.env uid address) choices w)
              generalize after serve (OidcRoutes.email w.env uid address) choices w = t at sends
              cases sends with
              | plain _ steps => exact plainLaw law steps inv
              | sent i email token stored mailed found good => exact law.sent stored mailed inv found good
          | _ => cases email
  | _ => exact law.edit inv rfl

theorem runBoundary (law : BoundaryLaw ok Inv) {w : World} {moves : List Move} (inv : Inv w)
    (disciplined : RunDisciplined ok moves w) : Inv (run moves w) :=
  eachStepKeeps Inv (fun _ _ => stepBoundary law) inv disciplined

end Laws
end Passmower
