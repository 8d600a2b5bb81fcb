import Passmower.Resumption.Versions
import Passmower.Resumption.Stepping

/-! `mutateNamespacedCustomObjectStatus`: any number of mutations of the status of one resource at once, whatever becomes of
their requests, while others change the resource. What was written and what each call returned is told in the order in which
it happened: each status that was written is the one computed from what it replaced. -/
namespace Passmower.StatusMutation
open Resumption Program

/- A kind of resource: its status, what `isEqual` takes for the same, where the API server sees no change and keeps the
version, and what others may put in the place of a resource, or of none. -/
structure ResourceKind (ρ σ : Type) where
  status : ρ → σ
  withStatus : ρ → σ → ρ
  isEqual : σ → σ → Bool
  unchanged : ρ → ρ → Bool
  unchangedSame : ∀ a b, unchanged a b = true → a = b
  foreign : Option ρ → ρ → Prop

abbrev Code := Option Nat

abbrev StatusFunction (ρ σ : Type) := ρ → Except Code σ

inductive Outcome (ρ : Type) where
  | object (object : Versioned ρ)
  | null
  | undefined

inductive StatusCall (ρ σ : Type) where
  | getNamespacedCustomObject
  | replaceNamespacedCustomObjectStatus (resourceVersion : Nat) (status : σ)
  | returns (outcome : Outcome ρ)

abbrev statusCalls (ρ σ : Type) : Interface where
  Call := StatusCall ρ σ
  Answer
    | .getNamespacedCustomObject | .replaceNamespacedCustomObjectStatus _ _ => Except Code (Versioned ρ)
    | .returns _ => Unit

def StatusCall.awaits {ρ σ : Type} : StatusCall ρ σ → Bool
  | .returns _ => false
  | _ => true

abbrev Mutating (ρ σ α : Type) := Program (statusCalls ρ σ) Code α

section Source
variable {ρ σ : Type} (kind : ResourceKind ρ σ) (statusFunction : StatusFunction ρ σ)

def getNamespacedCustomObject : Mutating ρ σ (Versioned ρ) := do
  let answer ← (ask (I := statusCalls ρ σ) .getNamespacedCustomObject : Mutating ρ σ (Except Code (Versioned ρ)))
  orThrow answer

def replaceNamespacedCustomObjectStatus (resourceVersion : Nat) (status : σ) : Mutating ρ σ (Versioned ρ) := do
  let answer ← (ask (I := statusCalls ρ σ) (.replaceNamespacedCustomObjectStatus resourceVersion status) :
    Mutating ρ σ (Except Code (Versioned ρ)))
  orThrow answer

def mutateOnce : Mutating ρ σ (Versioned ρ) := do
  let current ← getNamespacedCustomObject
  let status ← orThrow (statusFunction current.content)
  if kind.isEqual (kind.status current.content) status then .pure current
  else replaceNamespacedCustomObjectStatus current.version status

def mutateNamespacedCustomObjectStatus : Nat → Mutating ρ σ (Outcome ρ)
  | 0 => .pure .undefined
  | left + 1 => do
      let attempted ← (mutateOnce kind statusFunction).attempt
      match attempted with
      | .ok object => .pure (.object object)
      | .error code =>
          if code = some 404 then .pure .null
          else if code = some 409 ∧ left ≠ 0 then mutateNamespacedCustomObjectStatus left
          else .pure .undefined

def mutation : Mutating ρ σ Unit := do
  let outcome ← mutateNamespacedCustomObjectStatus kind statusFunction 3
  ask (I := statusCalls ρ σ) (.returns outcome)

end Source

/- What becomes of a request: it is carried out and answered, it is not carried out, or it is carried out as far as it can be
and the answer is lost. The codes of a missing resource and of a conflict are the API server's. -/
inductive Fate where
  | carried
  | refused (code : Code)
  | unanswered (code : Code) (found : code ≠ some 404) (current : code ≠ some 409)

instance : Inhabited Fate := ⟨.carried⟩

/- What happened to the resource, and which call of `mutateNamespacedCustomObjectStatus` returned what. -/
inductive Event (ρ : Type) where
  | wrote (author : Nat) (before after : ρ)
  | returned (author : Nat) (outcome : Outcome ρ)
  | changed (after : Option ρ)

/- The last event is the first of the list. -/
structure StatusWorld (ρ : Type) where
  register : Register ρ
  events : List (Event ρ)

inductive StatusMove {ρ σ : Type} (kind : ResourceKind ρ σ) where
  | begin
  | proceed (n : Nat) (fate : Fate)
  | change (f : ρ → ρ) (allowed : ∀ resource, kind.foreign (some resource) (f resource))
  | remove
  | create (content : ρ) (allowed : kind.foreign none content)

section Service
variable {ρ σ : Type} (kind : ResourceKind ρ σ)

namespace StatusWorld

def replace (author resourceVersion : Nat) (status : σ) (s : StatusWorld ρ) : Except Code (Versioned ρ) × StatusWorld ρ :=
  match s.register.object with
  | none => (.error (some 404),s)
  | some current =>
      if current.version ≠ resourceVersion then (.error (some 409),s)
      else
        let after := kind.withStatus current.content status
        let events := .wrote author current.content after :: s.events
        if kind.unchanged current.content after then (.ok current,{s with events := events})
        else (.ok ⟨after,s.register.next⟩,⟨s.register.put after,events⟩)

def change (f : ρ → ρ) (s : StatusWorld ρ) : StatusWorld ρ := match s.register.object with
  | none => s
  | some current => ⟨s.register.put (f current.content),.changed (some (f current.content)) :: s.events⟩

def remove (s : StatusWorld ρ) : StatusWorld ρ := ⟨s.register.remove,.changed none :: s.events⟩

def create (content : ρ) (s : StatusWorld ρ) : StatusWorld ρ := match s.register.object with
  | none => ⟨s.register.put content,.changed (some content) :: s.events⟩
  | some _ => s

end StatusWorld

def answerStatus (author : Nat) : Handler (statusCalls ρ σ) Fate (StatusWorld ρ) := fun fate call s => match call with
  | .getNamespacedCustomObject => match fate with
      | .carried => (match s.register.object with
          | some current => .ok current
          | none => .error (some 404),s)
      | .refused code | .unanswered code _ _ => (.error code,s)
  | .replaceNamespacedCustomObjectStatus resourceVersion status => match fate with
      | .carried => s.replace kind author resourceVersion status
      | .refused code => (.error code,s)
      | .unanswered code _ _ => (.error code,(s.replace kind author resourceVersion status).2)
  | .returns outcome => ((),{s with events := .returned author outcome :: s.events})

abbrev StatusPool (ρ σ : Type) := Pool (statusCalls ρ σ) Code (StatusWorld ρ)

namespace StatusPool
variable (mutations : List (StatusFunction ρ σ))

def step (pool : StatusPool ρ σ) : StatusMove kind → StatusPool ρ σ
  | .begin => match mutations[pool.threads.length]? with
      | some statusFunction => pool.spawn (answerStatus kind) StatusCall.awaits (mutation kind statusFunction)
      | none => pool
  | .proceed n fate => pool.proceed (answerStatus kind) StatusCall.awaits n fate
  | .change f _ => pool.edit (StatusWorld.change f)
  | .remove => pool.edit StatusWorld.remove
  | .create content _ => pool.edit (StatusWorld.create content)

def run (moves : List (StatusMove kind)) (start : Register ρ) : StatusPool ρ σ :=
  moves.foldl (step kind mutations) ⟨[],⟨start,[]⟩⟩

end StatusPool

end Service

section Accounts
variable {ρ σ : Type} (kind : ResourceKind ρ σ) (mutations : List (StatusFunction ρ σ)) (start : Option ρ)

def present : List (Event ρ) → Option ρ
  | [] => start
  | .wrote _ _ after :: _ => some after
  | .returned _ _ :: earlier => present earlier
  | .changed after :: _ => after

def Event.author? : Event ρ → Option Nat
  | .wrote author _ _ | .returned author _ => some author
  | .changed _ => none

def eventsOf (author : Nat) (events : List (Event ρ)) : List (Event ρ) := events.filter (fun event => event.author? = some author)

def Computes (author : Nat) (resource : ρ) (status : σ) : Prop :=
  ∃ statusFunction, mutations[author]? = some statusFunction ∧ statusFunction resource = .ok status

def Settled (author : Nat) (resource : ρ) : Prop :=
  ∃ status, Computes mutations author resource status ∧ kind.isEqual (kind.status resource) status = true

def Accounted (earlier : List (Event ρ)) : Event ρ → Prop
  | .wrote author before after => eventsOf author earlier = [] ∧ present start earlier = some before ∧
      ∃ status, Computes mutations author before status ∧ kind.isEqual (kind.status before) status = false ∧
        after = kind.withStatus before status
  | .returned author (.object object) => (∃ before, eventsOf author earlier = [.wrote author before object.content]) ∨
      (eventsOf author earlier = [] ∧ present start earlier = some object.content ∧ Settled kind mutations author object.content)
  | .returned author .null => eventsOf author earlier = []
  | .returned author .undefined => eventsOf author earlier = [] ∨
      ∃ before after, eventsOf author earlier = [.wrote author before after]
  | .changed none => True
  | .changed (some after) => kind.foreign (present start earlier) after

def Explained : List (Event ρ) → Prop
  | [] => True
  | event :: earlier => Accounted kind mutations start earlier event ∧ Explained earlier

section Rules
variable {kind mutations start} {earlier later events : List (Event ρ)} {n : Nat} {object : Versioned ρ} {P C I : ρ → Prop}

theorem explainedEarlier (explained : Explained kind mutations start (later ++ earlier)) :
    Explained kind mutations start earlier := by
  induction later with
  | nil => exact explained
  | cons event rest ih => exact ih explained.2

theorem keptAlong (writes : ∀ m before status, Computes mutations m before status → P before → P (kind.withStatus before status))
    (foreign : ∀ before after, kind.foreign (some before) after → P before → P after)
    (explained : Explained kind mutations start (later ++ earlier)) (alive : .changed none ∉ later)
    (begun : ∃ resource, present start earlier = some resource ∧ P resource) :
    ∃ resource, present start (later ++ earlier) = some resource ∧ P resource := by
  induction later with
  | nil => exact begun
  | cons event rest ih =>
      obtain ⟨resource,there,kept⟩ := ih explained.2 fun gone => alive (List.mem_cons_of_mem event gone)
      have accounted := explained.1
      cases event with
      | wrote author before after =>
          obtain ⟨_,was,status,computes,_,rfl⟩ := accounted
          cases Option.some.inj (there.symm.trans was)
          exact ⟨_,rfl,writes author resource status computes kept⟩
      | returned author outcome => exact ⟨resource,there,kept⟩
      | changed after =>
          cases after with
          | none => exact absurd (List.mem_cons_self ..) alive
          | some after =>
              have made : kind.foreign (present start (rest ++ earlier)) after := accounted
              rw [there] at made
              exact ⟨after,rfl,foreign resource after made kept⟩

theorem keptThroughout (writes : ∀ m before status, Computes mutations m before status → P before → P (kind.withStatus before status))
    (foreign : ∀ before after, kind.foreign before after → (∀ resource, before = some resource → P resource) → P after)
    (explained : Explained kind mutations start events) (begun : ∀ resource, start = some resource → P resource) :
    ∀ resource, present start events = some resource → P resource := by
  induction events with
  | nil => exact begun
  | cons event rest ih =>
      have kept := ih explained.2
      have accounted := explained.1
      intro resource there
      cases event with
      | wrote author before after =>
          obtain ⟨_,was,status,computes,_,rfl⟩ := accounted
          cases Option.some.inj there
          exact writes author before status computes (kept before was)
      | returned author outcome => exact kept resource there
      | changed after =>
          cases after with
          | none => cases there
          | some after =>
              cases Option.some.inj there
              exact foreign _ _ accounted kept

theorem establishedBy (always : ∀ events, Explained kind mutations start events →
      ∀ resource, present start events = some resource → I resource)
    (writes : ∀ m before status, Computes mutations m before status → P before → P (kind.withStatus before status))
    (foreign : ∀ before after, kind.foreign (some before) after → P before → P after)
    (made : ∀ before status, Computes mutations n before status → I before → C (kind.withStatus before status) →
      P (kind.withStatus before status))
    (found : ∀ resource, Settled kind mutations n resource → I resource → C resource → P resource)
    (explained : Explained kind mutations start (later ++ earlier)) (alive : .changed none ∉ later)
    (silent : eventsOf n earlier = []) (returned : .returned n (.object object) ∈ later) (holds : C object.content) :
    ∃ resource, present start (later ++ earlier) = some resource ∧ P resource := by
  obtain ⟨last,first,rfl⟩ := List.append_of_mem returned
  have explainedHere : Explained kind mutations start (.returned n (.object object) :: (first ++ earlier)) := by
    rw [List.append_assoc] at explained
    exact explainedEarlier explained
  rcases explainedHere.1 with ⟨before,told⟩ | ⟨_,there,settled⟩
  · have own : eventsOf n first = [.wrote n before object.content] := by
      rw [← told,eventsOf,eventsOf,List.filter_append]
      simpa [eventsOf] using silent
    have inside : Event.wrote n before object.content ∈ first :=
      List.mem_of_mem_filter (own ▸ List.mem_singleton_self (Event.wrote n before object.content))
    obtain ⟨middle,front,rfl⟩ := List.append_of_mem inside
    have explainedWrite : Explained kind mutations start (.wrote n before object.content :: (front ++ earlier)) := by
      have rest := explainedHere.2
      rw [List.append_assoc] at rest
      exact explainedEarlier rest
    obtain ⟨_,was,status,computes,_,content⟩ := explainedWrite.1
    have established : P object.content := by
      rw [content] at holds ⊢
      exact made before status computes (always _ explainedWrite.2 before was) holds
    have joined : last ++ .returned n (.object object) :: (middle ++ .wrote n before object.content :: front) ++ earlier =
        (last ++ .returned n (.object object) :: middle) ++ (.wrote n before object.content :: (front ++ earlier)) := by simp
    rw [joined] at explained ⊢
    refine keptAlong writes foreign explained (fun gone => alive ?_) ⟨_,rfl,established⟩
    simp only [List.mem_append,List.mem_cons] at gone ⊢
    rcases gone with inLast | here | inMiddle
    · exact .inl inLast
    · exact .inr (.inl here)
    · exact .inr (.inr (.inl inMiddle))
  · have established := found _ settled (always _ explainedHere.2 _ there) holds
    have joined : last ++ .returned n (.object object) :: first ++ earlier =
        (last ++ [.returned n (.object object)]) ++ (first ++ earlier) := by simp
    rw [joined] at explained ⊢
    refine keptAlong writes foreign explained (fun gone => alive ?_) ⟨_,there,established⟩
    simp only [List.mem_append,List.mem_cons,List.not_mem_nil,or_false] at gone ⊢
    exact gone.imp_right .inl

end Rules

end Accounts

section Mutations
variable {ρ σ : Type} {kind : ResourceKind ρ σ} {mutations : List (StatusFunction ρ σ)} {start : Option ρ} {n m : Nat}
  {a b c s t u : StatusWorld ρ} {statusFunction : StatusFunction ρ σ}

structure Told (kind : ResourceKind ρ σ) (mutations : List (StatusFunction ρ σ)) (start : Option ρ) (s : StatusWorld ρ) :
    Prop where
  present : present start s.events = s.register.content?
  explained : Explained kind mutations start s.events

structure Advance (kind : ResourceKind ρ σ) (mutations : List (StatusFunction ρ σ)) (start : Option ρ) (quiet : Nat → Prop)
    (a b : StatusWorld ρ) : Prop where
  evolves : a.register.Evolves b.register
  told : Told kind mutations start a → Told kind mutations start b
  quiet : ∀ m, quiet m → eventsOf m b.events = eventsOf m a.events

theorem advanceRefl (quiet : Nat → Prop) (s : StatusWorld ρ) : Advance kind mutations start quiet s s :=
  ⟨Register.evolvesRefl _,id,fun _ _ => rfl⟩

theorem advanceTrans {quiet : Nat → Prop} (first : Advance kind mutations start quiet a b)
    (second : Advance kind mutations start quiet b c) : Advance kind mutations start quiet a c where
  evolves := Register.evolvesTrans first.evolves second.evolves
  told told := second.told (first.told told)
  quiet m still := (second.quiet m still).trans (first.quiet m still)

def mutating (kind : ResourceKind ρ σ) (mutations : List (StatusFunction ρ σ)) (start : Option ρ) (n : Nat) :
    Contract (statusCalls ρ σ) (StatusWorld ρ) where
  ok _ _ := True
  rely := Advance kind mutations start (fun m => m = n)
  guarantee := Advance kind mutations start (fun m => m ≠ n)

theorem eventsOther {event : Event ρ} (other : event.author? ≠ some m) (events : List (Event ρ)) :
    eventsOf m (event :: events) = eventsOf m events := List.filter_cons_of_neg (by simpa using other)

theorem eventsOwn {event : Event ρ} (own : event.author? = some m) (events : List (Event ρ)) :
    eventsOf m (event :: events) = event :: eventsOf m events := List.filter_cons_of_pos (by simpa using own)

theorem advanceEvent {event : Event ρ} (own : event.author? = some n) (evolves : a.register.Evolves b.register)
    (events : b.events = event :: a.events)
    (present : Told kind mutations start a → present start b.events = b.register.content?)
    (accounted : Told kind mutations start a → Accounted kind mutations start a.events event) :
    Advance kind mutations start (fun m => m ≠ n) a b where
  evolves := evolves
  told told := ⟨present told,by
    rw [events]
    exact ⟨accounted told,told.explained⟩⟩
  quiet m other := by
    rw [events]
    refine eventsOther ?_ a.events
    rw [own]
    exact fun same => other (Option.some.inj same).symm

theorem replaceCases (kind : ResourceKind ρ σ) (author resourceVersion : Nat) (status : σ) (s : StatusWorld ρ) :
    (∃ code, (code = some 404 ∨ code = some 409) ∧ s.replace kind author resourceVersion status = (.error code,s)) ∨
    ∃ current object next, s.register.object = some current ∧ current.version = resourceVersion ∧
      object.content = kind.withStatus current.content status ∧ s.replace kind author resourceVersion status = (.ok object,next) ∧
      next.events = .wrote author current.content object.content :: s.events ∧ next.register.object = some object ∧
      s.register.Evolves next.register := by
  unfold StatusWorld.replace
  cases there : s.register.object with
  | none => exact .inl ⟨some 404,.inl rfl,rfl⟩
  | some current =>
      dsimp only
      split
      · exact .inl ⟨some 409,.inr rfl,rfl⟩
      · rename_i same
        right
        split
        · rename_i unchanged
          have content := kind.unchangedSame _ _ unchanged
          refine ⟨current,current,_,rfl,Decidable.not_not.mp same,content,rfl,?_,there,Register.evolvesRefl _⟩
          rw [← content]
        · exact ⟨current,_,_,rfl,Decidable.not_not.mp same,rfl,rfl,rfl,rfl,Register.putEvolves _ _⟩

def Attempted (kind : ResourceKind ρ σ) (mutations : List (StatusFunction ρ σ)) (start : Option ρ) (n : Nat) (s : StatusWorld ρ) :
    Except Code (Versioned ρ) → Prop
  | .ok object => Accounted kind mutations start s.events (.returned n (.object object))
  | .error code => eventsOf n s.events = [] ∨
      ((∃ before after, eventsOf n s.events = [.wrote n before after]) ∧ code ≠ some 404 ∧ code ≠ some 409)

theorem replaceKeeps {current : Versioned ρ} {status : σ} (found : mutations[n]? = some statusFunction)
    (told : Told kind mutations start u) (silent : eventsOf n u.events = []) (read : u.register.object = some current)
    (computed : statusFunction current.content = .ok status)
    (differs : kind.isEqual (kind.status current.content) status = false)
    (mine : Advance kind mutations start (fun m => m ≠ n) t u) :
    Keeps (answerStatus kind n) StatusCall.awaits (mutating kind mutations start n)
      (replaceNamespacedCustomObjectStatus current.version status)
      (fun r t u => Advance kind mutations start (fun m => m ≠ n) t u ∧ Told kind mutations start u ∧
        Attempted kind mutations start n u r) t u := by
  apply keepsAskAwait rfl mine
  intro v moved _ fate
  have toldLater := moved.told told
  have silentLater := (moved.quiet n rfl).trans silent
  have idle : Advance kind mutations start (fun m => m ≠ n) v v := advanceRefl _ v
  have refused (code : Code) : Keeps (answerStatus kind n) StatusCall.awaits (mutating kind mutations start n)
      (orThrow (.error code)) (fun r t u => Advance kind mutations start (fun m => m ≠ n) t u ∧ Told kind mutations start u ∧
        Attempted kind mutations start n u r) v v := ⟨idle,toldLater,.inl silentLater⟩
  rcases replaceCases kind n current.version status v with
    ⟨code,_,same⟩ | ⟨later,object,next,there,version,content,same,events,written,evolves⟩
  · cases fate with
    | refused code => exact refused code
    | carried =>
        simp only [answerStatus,same]
        exact refused code
    | unanswered code _ _ =>
        simp only [answerStatus,same]
        exact refused code
  · have still : later = current := Register.readStill read moved.evolves there version
    subst still
    have presentHere : present start v.events = some later.content := by
      rw [toldLater.present,Register.content?,there]
      rfl
    have step : Advance kind mutations start (fun m => m ≠ n) v next := by
      refine advanceEvent rfl evolves events (fun _ => ?_) fun _ => ?_
      · rw [events,Register.content?,written]
        rfl
      · exact ⟨silentLater,presentHere,status,⟨statusFunction,found,computed⟩,differs,content⟩
    have own : eventsOf n next.events = [.wrote n later.content object.content] := by
      rw [events,eventsOwn rfl,silentLater]
    cases fate with
    | refused code => exact refused code
    | carried =>
        simp only [answerStatus,same]
        exact ⟨step,step.told toldLater,.inl ⟨later.content,own⟩⟩
    | unanswered code missing conflict =>
        simp only [answerStatus,same]
        exact ⟨step,step.told toldLater,.inr ⟨⟨later.content,object.content,own⟩,missing,conflict⟩⟩

theorem mutateOnceKeeps (found : mutations[n]? = some statusFunction) (told : Told kind mutations start u)
    (silent : eventsOf n u.events = []) (mine : Advance kind mutations start (fun m => m ≠ n) t u) :
    Keeps (answerStatus kind n) StatusCall.awaits (mutating kind mutations start n) (mutateOnce kind statusFunction)
      (fun r t u => Advance kind mutations start (fun m => m ≠ n) t u ∧ Told kind mutations start u ∧
        Attempted kind mutations start n u r) t u := by
  apply keepsBind
  apply keepsAskAwait rfl mine
  intro v moved _ fate
  have toldHere := moved.told told
  have silentHere := (moved.quiet n rfl).trans silent
  have idle : Advance kind mutations start (fun m => m ≠ n) v v := advanceRefl _ v
  cases fate with
  | refused code => exact ⟨idle,toldHere,.inl silentHere⟩
  | unanswered code _ _ => exact ⟨idle,toldHere,.inl silentHere⟩
  | carried =>
      cases there : v.register.object with
      | none =>
          simp only [answerStatus,there]
          exact ⟨idle,toldHere,.inl silentHere⟩
      | some current =>
          simp only [answerStatus,there]
          rw [orThrow,Keeps,ontoOk]
          cases computed : statusFunction current.content with
          | error code => exact ⟨idle,toldHere,.inl silentHere⟩
          | ok status =>
              have presentHere : present start v.events = some current.content := by
                rw [toldHere.present,Register.content?,there]
                rfl
              apply keepsIf
              · intro same
                exact ⟨idle,toldHere,.inr ⟨silentHere,presentHere,status,⟨statusFunction,found,computed⟩,same⟩⟩
              · intro differs
                exact replaceKeeps found toldHere silentHere there computed (Bool.eq_false_iff.mpr differs) idle

theorem mutateKeeps (left : Nat) (found : mutations[n]? = some statusFunction) (told : Told kind mutations start u)
    (silent : eventsOf n u.events = []) (mine : Advance kind mutations start (fun m => m ≠ n) t u) :
    Keeps (answerStatus kind n) StatusCall.awaits (mutating kind mutations start n)
      (mutateNamespacedCustomObjectStatus kind statusFunction left)
      (fun r t u => Advance kind mutations start (fun m => m ≠ n) t u ∧ Told kind mutations start u ∧
        ∃ outcome, r = .ok outcome ∧ Accounted kind mutations start u.events (.returned n outcome)) t u := by
  induction left generalizing t u with
  | zero => exact ⟨mine,told,.undefined,rfl,.inl silent⟩
  | succ left ih =>
      apply keepsBind
      apply keepsAttempt
      apply keepsMono (mutateOnceKeeps found told silent mine)
      rintro r t u ⟨mine,told,attempted⟩
      cases r with
      | ok object => exact ⟨mine,told,.object object,rfl,attempted⟩
      | error code =>
          rw [ontoOk]
          apply keepsIf
          · intro missing
            rcases attempted with silent | ⟨_,never,_⟩
            · exact ⟨mine,told,.null,rfl,silent⟩
            · exact absurd missing never
          · intro _
            apply keepsIf
            · intro conflict
              rcases attempted with silent | ⟨_,_,never⟩
              · exact ih told silent mine
              · exact absurd conflict.1 never
            · intro _
              exact ⟨mine,told,.undefined,rfl,attempted.imp_right And.left⟩

theorem mutationKeeps (found : mutations[n]? = some statusFunction) (told : Told kind mutations start u)
    (silent : eventsOf n u.events = []) :
    Keeps (answerStatus kind n) StatusCall.awaits (mutating kind mutations start n) (mutation kind statusFunction)
      (fun _ => (mutating kind mutations start n).guarantee) u u := by
  apply keepsBind
  apply keepsMono (mutateKeeps 3 found told silent (advanceRefl _ u))
  rintro _ t u ⟨mine,told,outcome,rfl,accounted⟩
  rw [ontoOk]
  refine keepsNow rfl (advanceTrans mine ?_)
  exact advanceEvent rfl (Register.evolvesRefl _) rfl (fun told => told.present) fun _ => accounted

theorem mutatingTrans (n : Nat) {a b c : StatusWorld ρ} (first : (mutating kind mutations start n).rely a b)
    (second : (mutating kind mutations start n).rely b c) : (mutating kind mutations start n).rely a c :=
  advanceTrans first second

theorem mutatingApart {a b : StatusWorld ρ} (apart : n ≠ m) (moved : (mutating kind mutations start n).guarantee a b) :
    (mutating kind mutations start m).rely a b where
  evolves := moved.evolves
  told := moved.told
  quiet k same := moved.quiet k (same ▸ apart.symm)

theorem advanceChanged {after : Option ρ} (evolves : a.register.Evolves b.register)
    (events : b.events = .changed after :: a.events) (there : b.register.content? = after)
    (allowed : ∀ content, after = some content → kind.foreign a.register.content? content)
    (quiet : Nat → Prop) : Advance kind mutations start quiet a b where
  evolves := evolves
  told told := by
    refine ⟨?_,?_⟩
    · rw [events,there]
      rfl
    · rw [events]
      refine ⟨?_,told.explained⟩
      cases after with
      | none => trivial
      | some content =>
          rw [Accounted,told.present]
          exact allowed content rfl
  quiet m _ := by
    rw [events]
    exact eventsOther (by simp [Event.author?]) a.events

theorem changeAdvance {f : ρ → ρ} (allowed : ∀ resource, kind.foreign (some resource) (f resource)) (quiet : Nat → Prop) :
    Advance kind mutations start quiet s (s.change f) := by
  unfold StatusWorld.change
  split
  · exact advanceRefl quiet s
  · rename_i current there
    refine advanceChanged (Register.putEvolves _ _) rfl rfl ?_ quiet
    intro content made
    cases Option.some.inj made
    rw [Register.content?,there]
    exact allowed current.content

theorem createAdvance {content : ρ} (allowed : kind.foreign none content) (quiet : Nat → Prop) :
    Advance kind mutations start quiet s (s.create content) := by
  unfold StatusWorld.create
  split
  · rename_i missing
    refine advanceChanged (Register.putEvolves _ _) rfl rfl ?_ quiet
    intro created made
    cases Option.some.inj made
    rw [Register.content?,missing]
    exact allowed
  · exact advanceRefl quiet s

theorem removeAdvance (quiet : Nat → Prop) : Advance kind mutations start quiet s s.remove :=
  advanceChanged (Register.removeEvolves _) rfl rfl nofun quiet

structure Going (kind : ResourceKind ρ σ) (mutations : List (StatusFunction ρ σ)) (start : Option ρ) (pool : StatusPool ρ σ) :
    Prop where
  steady : pool.Steady (answerStatus kind) StatusCall.awaits (mutating kind mutations start)
  told : Told kind mutations start pool.state
  ahead : ∀ m, pool.threads.length ≤ m → eventsOf m pool.state.events = []

section Pools
variable {pool : StatusPool ρ σ}

theorem editGoing {f : StatusWorld ρ → StatusWorld ρ} (going : Going kind mutations start pool)
    (moved : ∀ quiet, Advance kind mutations start quiet pool.state (f pool.state)) :
    Going kind mutations start (pool.edit f) where
  steady := Pool.steadyEdit mutatingTrans going.steady fun _ => moved _
  told := (moved (fun _ => True)).told going.told
  ahead m beyond := ((moved (fun _ => True)).quiet m trivial).trans (going.ahead m beyond)

theorem stepGoing (going : Going kind mutations start pool) (move : StatusMove kind) :
    Going kind mutations start (pool.step kind mutations move) := by
  cases move with
  | begin =>
      unfold StatusPool.step
      dsimp only
      cases found : mutations[pool.threads.length]? with
      | none => exact going
      | some statusFunction =>
          have keeps := mutationKeeps found going.told (going.ahead _ (Nat.le_refl _))
          obtain ⟨steady,moved⟩ := Pool.steadySpawn mutatingTrans mutatingApart going.steady keeps
          refine ⟨steady,moved.told going.told,fun m beyond => ?_⟩
          have length : (pool.spawn (answerStatus kind) StatusCall.awaits (mutation kind statusFunction)).threads.length =
              pool.threads.length + 1 := by simp [Pool.spawn]
          rw [length] at beyond
          have other : m ≠ pool.threads.length := by omega
          exact (moved.quiet m other).trans (going.ahead m (by omega))
  | proceed n fate =>
      unfold StatusPool.step
      dsimp only
      rcases Nat.lt_or_ge n pool.threads.length with within | beyond
      · have ready : pool.Ready (fun n => (mutating kind mutations start n).ok) n := by
          unfold Pool.Ready
          split
          · trivial
          · trivial
        obtain ⟨steady,moved⟩ := Pool.steadyProceed mutatingTrans mutatingApart (advanceRefl _ _) (advanceRefl _ _)
          going.steady ready
        refine ⟨steady,moved.told going.told,fun m later => ?_⟩
        rw [Pool.proceedLength] at later
        have other : m ≠ n := by omega
        exact (moved.quiet m other).trans (going.ahead m later)
      · rw [Pool.proceedBeyond _ _ beyond]
        exact going
  | change f allowed => exact editGoing going (changeAdvance allowed)
  | remove => exact editGoing going removeAdvance
  | create content allowed => exact editGoing going (createAdvance allowed)

theorem runGoing (going : Going kind mutations start pool) (moves : List (StatusMove kind)) :
    Going kind mutations start (moves.foldl (StatusPool.step kind mutations) pool) :=
  everyRunKeeps (Going kind mutations start) (fun _ move going => stepGoing going move) going moves

end Pools

end Mutations

/- However the mutations of one status overlap with one another and with what others do, and whatever becomes of their
requests: the resource is what the last event has left, each status that was written was computed from what it replaced, no
call wrote twice, and what each call has returned is true. -/
theorem mutationsExplained {ρ σ : Type} (kind : ResourceKind ρ σ) (mutations : List (StatusFunction ρ σ)) (start : Register ρ)
    (moves : List (StatusMove kind)) :
    Told kind mutations start.content? (StatusPool.run kind mutations moves start).state := by
  have going : Going kind mutations start.content? (⟨[],⟨start,[]⟩⟩ : StatusPool ρ σ) :=
    ⟨Pool.steadyEmpty _,⟨rfl,trivial⟩,fun _ _ => rfl⟩
  exact (runGoing going moves).told

end Passmower.StatusMutation
