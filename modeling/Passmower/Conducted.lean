import Passmower.Conduct

/-! Proof rules for lawful conduct: how the specification of a login function is put together
from those of the functions it calls, and which functions only read. -/
namespace Passmower
open JavaScript Resumption Program

section Rules
variable {ok : World → Call → Prop} {α β : Type} {w : World}

abbrev Conducted (ok : World → Call → Prop) (p : Web α) (Q : Except JsError α → World → Prop)
    (w : World) : Prop := Alone serve ok (Plain ok) p Q w

def onOk (P : α → World → Prop) : Except JsError α → World → Prop
  | .ok a, t => P a t
  | .error _, _ => True

theorem conductedPure {P : α → World → Prop} {a : α} (post : P a w) :
    Conducted ok (.pure a) (onOk P) w := (alonePure a _ w).mpr post

theorem conductedThrow {P : α → World → Prop} (e : JsError) :
    Conducted ok (.throw e : Web α) (onOk P) w := (aloneThrow e _ w).mpr trivial

theorem conductedCall {c : Call} {next : Answer c → Web α} {Q : Except JsError α → World → Prop}
    (lawful : Lawful w c) (plain : c.links = false)
    (rest : ok w c → ∀ choice, Conducted ok (next (serve choice c w).1) Q (serve choice c w).2) :
    Conducted ok (Program.call (I := web) c next) Q w :=
  (aloneCall (I := web) c next Q w).mpr fun good choice =>
    ⟨⟨c,choice,good,lawful,plain,rfl⟩,rest good choice⟩

theorem conductedAsk {c : Call} {f : Answer c → Web α} {Q : Except JsError α → World → Prop}
    (lawful : Lawful w c) (plain : c.links = false)
    (rest : ok w c → ∀ choice, Conducted ok (f (serve choice c w).1) Q (serve choice c w).2) :
    Conducted ok (ask (I := web) c >>= f) Q w := conductedCall lawful plain rest

theorem conductedMono {p : Web α} {P P' : α → World → Prop} (first : Conducted ok p (onOk P) w)
    (weaker : ∀ a t, P a t → P' a t) : Conducted ok p (onOk P') w :=
  soundMono first fun r t => match r with
    | .ok a => weaker a t
    | .error _ => id

theorem conductedSince {p : Web α} {P : α → World → Prop} (first : Conducted ok p (onOk P) w) :
    Conducted ok p (onOk fun a t => P a t ∧ Later w t) w := by
  have alone : ∀ {a b : World}, a = b → Later a b := fun {a b} same => same ▸ laterRefl a
  refine soundMono (soundSince (R := Later) laterTrans (alone ·) (conductLater <| plainConduct ·) first) ?_
  intro r t post
  cases r with
  | ok a => exact post
  | error e => trivial

theorem conductedSteps {p : Web α} {Q : Except JsError α → World → Prop} (first : Conducted ok p Q w) :
    Conducted ok p (fun _ t => Relation.ReflTransGen (Plain ok) w t) w := by
  have alone : ∀ {a b : World}, a = b → Relation.ReflTransGen (Plain ok) a b := fun {a b} same =>
    same ▸ .refl
  refine soundMono (soundSince (R := Relation.ReflTransGen (Plain ok)) (fun first next => first.trans next)
    (alone ·) (.single ·) first) ?_
  exact fun r t post => post.2

theorem conductedBind {p : Web α} {f : α → Web β} {P : α → World → Prop} {Q : β → World → Prop}
    (first : Conducted ok p (onOk P) w)
    (rest : ∀ a t, P a t → Later w t → Conducted ok (f a) (onOk Q) t) :
    Conducted ok (p >>= f) (onOk Q) w := by
  refine aloneBind (soundMono (conductedSince first) ?_)
  intro r t post
  cases r with
  | ok a => exact rest a t post.1 post.2
  | error e => trivial

abbrev ReadOnly : Web α → Prop := CallsOnly (I := web) fun c => Call.isRead c = true

theorem readOnlyConducted {p : Web α} (reads : ReadOnly p) :
    Conducted ok p (fun _ t => t = w) w := by
  induction p with
  | pure a => exact (alonePure a _ w).mpr rfl
  | throw e => exact (aloneThrow e _ w).mpr rfl
  | call c next ih =>
      refine conductedCall (.read c reads.1) (readLinks reads.1) fun _ choice => ?_
      rw [serveRead reads.1]
      exact ih _ (reads.2 _)

theorem conductedReading {p : Web α} {f : α → Web β} {Q : Except JsError β → World → Prop}
    (reads : ReadOnly p) (errors : ∀ e, Q (.error e) w) (rest : ∀ a, Conducted ok (f a) Q w) :
    Conducted ok (p >>= f) Q w := by
  refine aloneBind (soundMono (readOnlyConducted reads) ?_)
  rintro r t rfl
  cases r with
  | ok a => exact rest a
  | error e => exact errors e

theorem conductedRead {p : Web α} {f : α → Web β} {Q : β → World → Prop} (reads : ReadOnly p)
    (rest : ∀ a, Conducted ok (f a) (onOk Q) w) : Conducted ok (p >>= f) (onOk Q) w :=
  conductedReading reads (fun _ => trivial) rest

theorem conductedDetails {uid : Nat} {f : Interaction → Web β} {Q : β → World → Prop}
    (rest : ∀ i, w.interaction uid = some i → Conducted ok (f i) (onOk Q) w) :
    Conducted ok (interactionDetails uid >>= f) (onOk Q) w := by
  refine conductedCall (.read (.interactionDetails uid) rfl) rfl fun _ choice => ?_
  simp only [serve]
  cases found : w.interaction uid with
  | none => exact conductedThrow _
  | some i => exact rest i found

theorem interactionLog (w : World) (uid uid' : Nat) (what : Happening) :
    (w.log uid what).interaction uid' = w.interaction uid' := by
  unfold World.log
  split <;> rfl

theorem storedInteraction {uid : Nat} {i : Interaction} (literal : Literal) (merge : Bool)
    (found : w.interaction uid = some i) :
    (w.updateInteraction uid (fun i => i.store w.env.mergeErrorResults literal merge)).interaction uid =
      some (i.store w.env.mergeErrorResults literal merge) := by
  rw [interactionUpdate,found]
  simp

theorem interactionWritten {choice : Choice} {uid : Nat} {i : Interaction} {literal : Literal} {merge : Bool}
    (found : w.interaction uid = some i) :
    (serve choice (.interactionResult uid literal merge) w).2.interaction uid =
      some (i.store w.env.mergeErrorResults literal merge) := by
  have stored := storedInteraction literal merge found
  simp only [serve]
  split
  · rw [interactionLog]; exact stored
  · exact stored

theorem conductedWrite {uid : Nat} {i : Interaction} {literal : Literal} {merge : Bool}
    (found : w.interaction uid = some i) (writes : Writes w i literal merge)
    (plain : (Call.interactionResult uid literal merge).links = false) :
    Conducted ok (interactionResult uid literal merge)
      (onOk fun _ t => t.interaction uid = some (i.store w.env.mergeErrorResults literal merge)) w :=
  conductedCall (.interactionResult uid i literal merge found writes) plain fun _ _ =>
    conductedPure (interactionWritten found)

theorem loggedHappened {w : World} {uid : Nat} {i : Interaction} {what : Happening}
    (found : w.interaction uid = some i) : ⟨i.chain,uid,what⟩ ∈ (w.log uid what).journal := by
  simp [World.log,found]

theorem conductedRecord {uid : Nat} {i : Interaction} {what : Happening}
    (found : w.interaction uid = some i) (records : Records w uid i what) :
    Conducted ok (record uid what)
      (onOk fun _ t => ⟨i.chain,uid,what⟩ ∈ t.journal ∧ t.interaction uid = some i) w :=
  conductedCall (.record uid i what found records) rfl fun _ _ =>
    conductedPure ⟨loggedHappened found,(interactionLog _ _ _ _).trans found⟩

theorem withinFound {uid : Nat} {i : Interaction} (found : w.interaction uid = some i) :
    Within w uid i.chain i.carried := ⟨i,found,rfl,rfl⟩

end Rules

section Reads

theorem liftReadOnly {α : Type} (r : Except JsError α) : ReadOnly (lift r) := by cases r <;> trivial

theorem listUsersReadOnly : ReadOnly listUsers := ⟨rfl,fun _ => trivial⟩

theorem allUsersReadOnly (users : Option (List OidcUser)) : ReadOnly (allUsers users) := by
  cases users with
  | some users => trivial
  | none => exact callsOnlyBind listUsersReadOnly fun users => by cases users <;> trivial

theorem findUserReadOnly (accountId : String) : ReadOnly (findUser accountId) := ⟨rfl,fun _ => trivial⟩

theorem randomTextReadOnly : ReadOnly randomText := ⟨rfl,fun _ => trivial⟩

theorem nowReadOnly : ReadOnly now := ⟨rfl,fun _ => trivial⟩

theorem getUidReadOnly : ReadOnly getUid := callsOnlyBind randomTextReadOnly fun _ => trivial

theorem isUsernameAvailableReadOnly (username : String) : ReadOnly (isUsernameAvailable username) := by
  unfold isUsernameAvailable
  split
  · trivial
  · exact callsOnlyBind (findUserReadOnly _) fun _ => trivial

theorem usernameExistsReadOnly (username : String) : ReadOnly (OidcRoutes.usernameExists username) := by
  unfold OidcRoutes.usernameExists
  split
  · trivial
  · exact callsOnlyBind (findUserReadOnly _) fun _ => trivial

theorem getSlackIdReadOnly (user : OidcUser) : ReadOnly (getSlackId user) := by
  unfold getSlackId
  split
  · trivial
  · exact ⟨rfl,fun _ => trivial⟩

theorem findByEmailReadOnly (env : Env) (email : String) : ReadOnly (findByEmail env email) :=
  callsOnlyBind (allUsersReadOnly none) fun _ => liftReadOnly _

theorem shouldOverrideReadOnly (env : Env) (key : String) (sub email : Option String) :
    ReadOnly (shouldOverrideUnverifiedEmail env key sub email) := by
  unfold shouldOverrideUnverifiedEmail
  split
  · trivial
  · split
    · refine callsOnlyBind (callsOnlyAttempt ?_) fun found => ?_
      · exact callsOnlyBind (allUsersReadOnly none) fun _ => liftReadOnly _
      · split <;> trivial
    · trivial

theorem githubGroupsReadOnly (env : Env) : ReadOnly (githubGroups env) := by
  unfold githubGroups
  split
  · trivial
  · exact ⟨rfl,fun _ => trivial⟩

end Reads
end Passmower
