import Passmower.HookDispatch

/-! A remembered generation has been dispatched to every hook that matched, where no handler is stopped
and no listing of the hooks fails while a Job is still owed. The generation is remembered first, so what
goes wrong afterwards is not made up for by a replay. -/
namespace Passmower
open Resumption Program

namespace HookDelivery
open HookDispatch (HookMove WatchEvent facing)

inductive DeliveryMove where
  | boot (users : List UserResource)
  | watch (move : HookMove)

def step (digest : String → String) (pool : EventHookPool) : DeliveryMove → EventHookPool
  | .boot users => (pool.edit fun s => {s with users := users}).spawn answerHooks HookCall.awaits EventHooks.seedOnFirstRun
  | .watch move => HookDispatch.step digest pool move

def run (digest : String → String) (moves : List DeliveryMove) (pool : EventHookPool) : EventHookPool :=
  moves.foldl (step digest) pool

def begin (hooks : List OidcUserEventHook) : EventHookPool := ⟨[],{hooks := hooks}⟩

def Paid (n : Nat) (s : EventHookWorld) : Prop :=
  ∀ event, (n,event) ∈ s.dispatches → ∀ hook ∈ s.listed n, hook.isMatch event = true → (n,hook) ∈ s.attempts

def Written (s : EventHookWorld) : Prop := ∀ uid n, s.writer uid = some n →
  ∃ event, (n,event) ∈ s.dispatches ∧ event.user.uid = uid ∧ s.store uid = some event.user.at

def Delivered (s : EventHookWorld) : Prop := ∀ uid n, s.writer uid = some n →
  ∃ event, (n,event) ∈ s.dispatches ∧ event.user.uid = uid ∧ s.store uid = some event.user.at ∧
    ∀ hook ∈ s.listed n, hook.isMatch event = true → (n,hook) ∈ s.attempts

def Idle (pool : EventHookPool) : Prop := ∀ p ∈ pool.threads, ∀ c next, p ≠ .call c next

def Lossless (n : Nat) (s : EventHookWorld) : HookCall → Prop
  | .listHooks _ => s.outcome ≠ .answered → ∀ event, (n,event) ∈ s.dispatches → ∀ hook ∈ s.hooks, hook.isMatch event = false
  | .createJob _ _ | .recordAttempt _ _ _ _ _ _ | .createEvent _ _ _ => s.outcome = .stopped → Paid n s
  | _ => True

def Orderly (pool : EventHookPool) : DeliveryMove → Prop
  | .watch (.proceed n outcome) => (facing outcome pool).Ready Lossless n
  | _ => True

structure SameNotes (n : Nat) (a b : EventHookWorld) : Prop where
  heard : b.heard n = a.heard n
  dispatches : ∀ event, (n,event) ∈ b.dispatches ↔ (n,event) ∈ a.dispatches
  listed : b.listed n = a.listed n
  attempts : ∀ hook, (n,hook) ∈ b.attempts ↔ (n,hook) ∈ a.attempts

structure Mine (n : Nat) (a b : EventHookWorld) : Prop where
  written : Written a → Written b
  others : ∀ m, m ≠ n → SameNotes m a b

structure Theirs (n : Nat) (a b : EventHookWorld) : Prop where
  written : Written a → Written b
  own : SameNotes n a b

def contract (n : Nat) : Contract eventHooks EventHookWorld := ⟨Lossless n,Theirs n,Mine n⟩

def Ended (n : Nat) (_ : Except Unit Unit) (t u : EventHookWorld) : Prop := Mine n t u ∧ Paid n u

section Notes
variable {a b s t u v : EventHookWorld} {n m : Nat} {user : UserResource} {event : UserEvent}

theorem notesSame (s : EventHookWorld) : SameNotes n s s := ⟨rfl,fun _ => Iff.rfl,rfl,fun _ => Iff.rfl⟩

theorem notesTrans (first : SameNotes n s t) (second : SameNotes n t u) : SameNotes n s u where
  heard := second.heard.trans first.heard
  dispatches event := (second.dispatches event).trans (first.dispatches event)
  listed := second.listed.trans first.listed
  attempts hook := (second.attempts hook).trans (first.attempts hook)

theorem theirsTrans (first : Theirs n s t) (second : Theirs n t u) : Theirs n s u :=
  ⟨second.written ∘ first.written,notesTrans first.own second.own⟩

theorem mineTheirs (apart : n ≠ m) (mine : Mine n s t) : Theirs m s t := ⟨mine.written,mine.others m apart.symm⟩

theorem mineSelf (s : EventHookWorld) : Mine n s s := ⟨id,fun _ _ => notesSame s⟩

theorem mineTrans (first : Mine n s t) (second : Mine n t u) : Mine n s u :=
  ⟨second.written ∘ first.written,fun m other => notesTrans (first.others m other) (second.others m other)⟩

theorem paidLater (same : SameNotes n s t) (paid : Paid n s) : Paid n t := by
  intro event dispatched hook listed matching
  rw [same.listed] at listed
  exact (same.attempts hook).mpr (paid event ((same.dispatches event).mp dispatched) hook listed matching)

theorem notesOf (heard : t.heard = s.heard) (dispatches : t.dispatches = s.dispatches) (listed : t.listed = s.listed)
    (attempts : t.attempts = s.attempts) : SameNotes n s t where
  heard := congrFun heard n
  dispatches event := by rw [dispatches]
  listed := congrFun listed n
  attempts hook := by rw [attempts]

theorem writtenOf (store : t.store = s.store) (writer : t.writer = s.writer) (dispatches : t.dispatches = s.dispatches)
    (written : Written s) : Written t := by
  simpa only [Written,store,writer,dispatches] using written

theorem mineOf (store : t.store = s.store) (writer : t.writer = s.writer) (dispatches : t.dispatches = s.dispatches)
    (others : ∀ m, m ≠ n → SameNotes m s t) : Mine n s t := ⟨writtenOf store writer dispatches,others⟩

theorem attemptMine (hook : OidcUserEventHook) (s : EventHookWorld) : Mine n s (s.attempt n hook) := by
  refine mineOf rfl rfl rfl fun m other => ⟨rfl,fun _ => Iff.rfl,rfl,fun other_ => ?_⟩
  simp [EventHookWorld.attempt,other]

theorem listMine (s : EventHookWorld) : Mine n s (s.list n) :=
  mineOf rfl rfl rfl fun _ other => ⟨rfl,fun _ => Iff.rfl,if_neg other,fun _ => Iff.rfl⟩

theorem hearMine (user : UserResource) (s : EventHookWorld) : Mine n s (s.hear n user) :=
  mineOf rfl rfl rfl fun _ other => ⟨if_neg other,fun _ => Iff.rfl,rfl,fun _ => Iff.rfl⟩

theorem readMine (uid : String) (s : EventHookWorld) : Mine n s (s.read n uid) :=
  mineOf rfl rfl rfl fun _ _ => notesOf rfl rfl rfl rfl

theorem stopMine (s : EventHookWorld) : Mine n s (s.stop n) :=
  mineOf rfl rfl rfl fun _ _ => notesOf rfl rfl rfl rfl

theorem seedMine {uid : String} {generation : Nat} (unheard : s.heard n = none) :
    Mine n s (s.write n uid (some generation)) := by
  refine ⟨fun written other m wrote => ?_,fun m _ => notesOf rfl rfl rfl rfl⟩
  by_cases same : other = uid
  · simp [EventHookWorld.write,same,unheard] at wrote
  · have wrote : s.writer other = some m := by simpa [EventHookWorld.write,same] using wrote
    obtain ⟨event,dispatched,named,held⟩ := written other m wrote
    exact ⟨event,dispatched,named,(if_neg same).trans held⟩

theorem dispatchMine (heard : s.heard n = some user) (type : EventType) :
    Mine n s {s.write n user.uid (some user.at) with dispatches := s.dispatches ++ [(n,⟨type,user⟩)]} := by
  refine ⟨fun written uid m wrote => ?_,fun m other => ⟨rfl,fun event => ?_,rfl,fun _ => Iff.rfl⟩⟩
  · by_cases same : uid = user.uid
    · have writer : n = m := by simpa [EventHookWorld.write,EventHookWorld.setPhase,same,heard] using wrote
      subst writer
      exact ⟨⟨type,user⟩,by simp,same.symm,if_pos same⟩
    · have wrote : s.writer uid = some m := by simpa [EventHookWorld.write,EventHookWorld.setPhase,same] using wrote
      obtain ⟨event,dispatched,named,held⟩ := written uid m wrote
      exact ⟨event,List.mem_append_left _ dispatched,named,(if_neg same).trans held⟩
  · simp [other]

end Notes

section Threads
variable {digest : String → String} {s t u v : EventHookWorld} {n : Nat} {user : UserResource} {event : UserEvent}
  {rest : List OidcUserEventHook}

structure Owing (n : Nat) (event : UserEvent) (rest : List OidcUserEventHook) (s : EventHookWorld) : Prop where
  alone : ∀ other, (n,other) ∈ s.dispatches → other = event
  owed : ∀ hook ∈ s.listed n, hook.isMatch event = true → (n,hook) ∈ s.attempts ∨ hook ∈ rest

theorem owingLater (same : SameNotes n s t) (owing : Owing n event rest s) : Owing n event rest t where
  alone other dispatched := owing.alone other ((same.dispatches other).mp dispatched)
  owed hook listed matching := by
    rw [same.listed] at listed
    exact (owing.owed hook listed matching).imp_left (same.attempts hook).mpr

theorem owingPaid (owing : Owing n event [] s) : Paid n s := by
  intro other dispatched hook listed matching
  cases owing.alone other dispatched
  exact (owing.owed hook listed matching).resolve_right List.not_mem_nil

theorem attemptOwing {hook : OidcUserEventHook} (owing : Owing n event (hook :: rest) s) :
    Owing n event rest (s.attempt n hook) where
  alone := owing.alone
  owed other listed matching := by
    rcases owing.owed other listed matching with made | owed
    · exact .inl (List.mem_append_left _ made)
    · rcases List.mem_cons.mp owed with rfl | later
      · exact .inl (by simp [EventHookWorld.attempt])
      · exact .inr later

def Served (n : Nat) (event : UserEvent) (rest : List OidcUserEventHook) (r : Except Unit Unit)
    (t u : EventHookWorld) : Prop :=
  Mine n t u ∧ match r with
    | .ok _ => Owing n event rest u
    | .error _ => Paid n u

theorem warnKeeps {hook : OidcUserEventHook} {reason message : String} (mine : Mine n t u) (owing : Owing n event rest u) :
    Keeps (answerHooks n) HookCall.awaits (contract n) (ask (I := eventHooks) (.createEvent hook reason message) >>= orThrow)
      (Served n event rest) t u := by
  apply keepsAskAwait rfl mine
  intro v moved lossless _
  have owing := owingLater moved.own owing
  by_cases stopped : v.outcome = .stopped
  · simp only [answerHooks,stopped,if_true]
    exact ⟨mineSelf v,lossless stopped⟩
  · simp only [answerHooks,stopped,if_false]
    exact ⟨mineSelf v,owing⟩

theorem recordKeeps {hook : OidcUserEventHook} {job reason message : String} {ready : Bool} (mine : Mine n t u)
    (owing : Owing n event rest u) :
    Keeps (answerHooks n) HookCall.awaits (contract n)
      (ask (I := eventHooks) (.recordAttempt hook event job ready reason message) >>= fun recorded => orThrow recorded >>=
        fun _ => if ready then .pure () else ask (I := eventHooks) (.createEvent hook reason message) >>= orThrow)
      (Served n event rest) t u := by
  apply keepsAskAwait rfl mine
  intro v moved lossless _
  have owing := owingLater moved.own owing
  by_cases stopped : v.outcome = .stopped
  · simp only [answerHooks,stopped,if_true]
    exact ⟨mineSelf v,lossless stopped⟩
  · simp only [answerHooks,stopped,if_false]
    exact keepsIf (fun _ => ⟨mineSelf v,owing⟩) fun _ => warnKeeps (mineSelf v) owing

theorem runHookKeeps {hook : OidcUserEventHook} (mine : Mine n t u) (owing : Owing n event (hook :: rest) u) :
    Keeps (answerHooks n) HookCall.awaits (contract n) (EventHooks.runHook digest event hook) (Served n event rest) t u := by
  apply keepsAskAwait rfl mine
  intro v moved lossless _
  have owing := owingLater moved.own owing
  have attempted : Owing n event rest (v.attempt n hook) := attemptOwing owing
  have own := attemptMine (n := n) hook v
  cases outcome : v.outcome with
  | answered =>
      simp only [answerHooks,outcome]
      by_cases exists_ : ((hook.getJob digest event).namespace_,(hook.getJob digest event).name) ∈ v.jobs
      · simp only [exists_,if_true]
        exact recordKeeps own attempted
      · simp only [exists_,if_false]
        have added : SameNotes n (v.attempt n hook) ((v.attempt n hook).addJob (hook.getJob digest event)) :=
          notesOf rfl rfl rfl rfl
        refine recordKeeps (mineTrans own ?_) (owingLater added attempted)
        exact mineOf rfl rfl rfl fun _ _ => notesOf rfl rfl rfl rfl
  | failed =>
      simp only [answerHooks,outcome]
      exact recordKeeps own attempted
  | stopped =>
      simp only [answerHooks,outcome]
      exact ⟨mineSelf v,lossless outcome⟩

theorem runHooksKeeps (mine : Mine n t u) (owing : Owing n event rest u) :
    Keeps (answerHooks n) HookCall.awaits (contract n) (EventHooks.runHooks digest event rest) (Ended n) t u := by
  induction rest generalizing t u with
  | nil => exact ⟨mine,owingPaid owing⟩
  | cons hook rest ih =>
      apply keepsBind
      refine keepsMono (runHookKeeps mine owing) fun r t u served => ?_
      obtain ⟨mine,left⟩ := served
      cases r with
      | ok value => exact ih mine left
      | error e => exact ⟨mine,left⟩

theorem listKeeps (mine : Mine n t u) (noted : ∀ other, (n,other) ∈ u.dispatches ↔ other = event) :
    Keeps (answerHooks n) HookCall.awaits (contract n)
      (ask (I := eventHooks) (.listHooks event.user.namespace_) >>= fun listing => orThrow listing >>= fun hooks =>
        EventHooks.runHooks digest event ((hooks.getD []).filter (·.isMatch event))) (Ended n) t u := by
  apply keepsAskAwait rfl mine
  intro v moved lossless _
  have noted : ∀ other, (n,other) ∈ v.dispatches ↔ other = event :=
    fun other => (moved.own.dispatches other).trans (noted other)
  have alone : ∀ other, (n,other) ∈ (v.list n).dispatches → other = event := fun other => (noted other).mp
  have listed : (v.list n).listed n = v.hooks := if_pos rfl
  have unmatched (unanswered : v.outcome ≠ .answered) : Owing n event [] (v.list n) := by
    refine ⟨alone,fun hook inside matching => ?_⟩
    have never := lossless unanswered event ((noted event).mpr rfl) hook (listed ▸ inside)
    rw [never] at matching
    cases matching
  cases outcome : v.outcome with
  | answered =>
      simp only [answerHooks,outcome]
      refine runHooksKeeps (listMine v) ⟨alone,fun hook inside matching => .inr ?_⟩
      exact List.mem_filter.mpr ⟨listed ▸ inside,matching⟩
  | failed =>
      simp only [answerHooks,outcome]
      exact ⟨listMine v,owingPaid (unmatched (by simp [outcome]))⟩
  | stopped =>
      simp only [answerHooks,outcome]
      exact ⟨listMine v,owingPaid (unmatched (by simp [outcome]))⟩

theorem unnotedPaid (unnoted : ∀ other, (n,other) ∉ s.dispatches) : Paid n s :=
  fun event dispatched => absurd dispatched (unnoted event)

theorem rememberKeeps {type : EventType} (mine : Mine n t u) (heard : u.heard n = some user)
    (unnoted : ∀ other, (n,other) ∉ u.dispatches) :
    Keeps (answerHooks n) HookCall.awaits (contract n)
      (EventHooks.remember user.uid user.at >>= fun _ => EventHooks.dispatch digest ⟨type,user⟩) (Ended n) t u := by
  apply keepsAskAwait rfl mine
  intro v moved _ _
  have heard := moved.own.heard.trans heard
  have unnoted : ∀ other, (n,other) ∉ v.dispatches :=
    fun other => mt (moved.own.dispatches other).mp (unnoted other)
  by_cases answered : v.outcome = .answered
  · simp only [answerHooks,answered,if_true]
    apply keepsAskNow rfl
    refine listKeeps (dispatchMine heard type) fun other => ?_
    simp [answerHooks,EventHookWorld.write,EventHookWorld.setPhase,unnoted]
  · simp only [answerHooks,answered,if_false]
    exact ⟨stopMine v,unnotedPaid unnoted⟩

theorem edgeKeeps {type : Option Nat → EventType} (unnoted : ∀ other, (n,other) ∉ u.dispatches) :
    Keeps (answerHooks n) HookCall.awaits (contract n) (EventHooks.edge digest type user) (Ended n) u u := by
  apply keepsAskNow rfl
  apply keepsAskAwait rfl (hearMine user u)
  intro v moved _ _
  have heard : v.heard n = some user := moved.own.heard.trans (if_pos rfl)
  have unnoted : ∀ other, (n,other) ∉ v.dispatches :=
    fun other => mt (moved.own.dispatches other).mp (unnoted other)
  by_cases answered : v.outcome = .answered
  · simp only [answerHooks,answered,if_true]
    exact keepsIf (fun _ => ⟨readMine _ v,unnotedPaid unnoted⟩) fun _ => rememberKeeps (readMine _ v) heard unnoted
  · simp only [answerHooks,answered,if_false]
    exact ⟨stopMine v,unnotedPaid unnoted⟩

theorem handlerKeeps {event : WatchEvent} (unnoted : ∀ other, (n,other) ∉ u.dispatches) :
    Keeps (answerHooks n) HookCall.awaits (contract n) (event.handler digest) (Ended n) u u := by
  cases event with
  | added user => exact edgeKeeps unnoted
  | modified user => exact edgeKeeps unnoted

structure Blank (n : Nat) (s : EventHookWorld) : Prop where
  unheard : s.heard n = none
  unnoted : ∀ other, (n,other) ∉ s.dispatches

theorem blankLater (same : SameNotes n s t) (blank : Blank n s) : Blank n t :=
  ⟨same.heard.trans blank.unheard,fun other => mt (same.dispatches other).mp (blank.unnoted other)⟩

theorem rememberAllKeeps {users : List UserResource} (mine : Mine n t u) (blank : Blank n u) :
    Keeps (answerHooks n) HookCall.awaits (contract n)
      (EventHooks.rememberAll users >>= fun _ => ask (I := eventHooks) .markInitialized >>= orThrow) (Ended n) t u := by
  induction users generalizing t u with
  | nil =>
      apply keepsAskAwait rfl mine
      intro v moved _ _
      have paid := unnotedPaid (blankLater moved.own blank).unnoted
      by_cases answered : v.outcome = .answered
      · simp only [answerHooks,answered,if_true]
        exact ⟨mineOf rfl rfl rfl fun _ _ => notesOf rfl rfl rfl rfl,paid⟩
      · simp only [answerHooks,answered,if_false]
        exact ⟨mineSelf v,paid⟩
  | cons user rest ih =>
      apply keepsAwait rfl mine
      intro v moved _ _
      have blank := blankLater moved.own blank
      by_cases answered : v.outcome = .answered
      · simp only [answerHooks,answered,if_true]
        exact ih (seedMine blank.unheard) ⟨blank.unheard,blank.unnoted⟩
      · simp only [answerHooks,answered,if_false]
        exact ⟨stopMine v,unnotedPaid blank.unnoted⟩

theorem seedKeeps (mine : Mine n t u) (blank : Blank n u) :
    Keeps (answerHooks n) HookCall.awaits (contract n) EventHooks.seedOnFirstRun (Ended n) t u := by
  apply keepsAskAwait rfl mine
  intro v moved _ _
  have blank := blankLater moved.own blank
  by_cases answered : v.outcome = .answered
  · simp only [answerHooks,answered,if_true]
    refine keepsIf (fun _ => ⟨mineSelf v,unnotedPaid blank.unnoted⟩) fun _ => ?_
    apply keepsAskAwait rfl (mineSelf v)
    intro w moved _ _
    have blank := blankLater moved.own blank
    cases outcome : w.outcome with
    | answered =>
        simp only [answerHooks,outcome]
        exact rememberAllKeeps (mineSelf w) blank
    | failed =>
        simp only [answerHooks,outcome]
        exact ⟨mineSelf w,unnotedPaid blank.unnoted⟩
    | stopped =>
        simp only [answerHooks,outcome]
        exact ⟨mineSelf w,unnotedPaid blank.unnoted⟩
  · simp only [answerHooks,answered,if_false]
    exact ⟨mineSelf v,unnotedPaid blank.unnoted⟩

end Threads

section Runs
variable {digest : String → String} {pool : EventHookPool} {move : DeliveryMove}

structure Steadily (pool : EventHookPool) : Prop where
  closing : pool.Closing answerHooks HookCall.awaits contract Paid
  written : Written pool.state
  fresh : ∀ n, pool.threads.length ≤ n → Blank n pool.state

theorem paidStable {n m : Nat} {a b : EventHookWorld} (apart : n ≠ m) (mine : Mine n a b) (paid : Paid m a) : Paid m b :=
  paidLater (mine.others m apart.symm) paid

theorem editSteadily {f : EventHookWorld → EventHookWorld} (steadily : Steadily pool)
    (same : ∀ n, SameNotes n pool.state (f pool.state)) (written : Written pool.state → Written (f pool.state)) :
    Steadily (pool.edit f) where
  closing := Pool.closingEdit (fun _ _ _ _ => theirsTrans) steadily.closing (fun n => ⟨written,same n⟩)
    fun n => paidLater (same n)
  written := written steadily.written
  fresh n beyond := blankLater (same n) (steadily.fresh n beyond)

theorem spawnSteadily {p : EventHooks Unit} (steadily : Steadily pool)
    (keeps : Keeps (answerHooks pool.threads.length) HookCall.awaits (contract pool.threads.length) p
      (Ended pool.threads.length) pool.state pool.state) :
    Steadily (pool.spawn answerHooks HookCall.awaits p) := by
  obtain ⟨closing,mine⟩ := Pool.closingSpawn (fun _ _ _ _ => theirsTrans) mineTheirs paidStable steadily.closing keeps
  refine ⟨closing,mine.written steadily.written,fun n beyond => ?_⟩
  have longer : pool.threads.length < n := by
    simp only [Pool.spawn,List.length_append,List.length_singleton] at beyond
    omega
  exact blankLater (mine.others n (Nat.ne_of_gt longer)) (steadily.fresh n (Nat.le_of_lt longer))

theorem steadilyStep (steadily : Steadily pool) (orderly : Orderly pool move) : Steadily (step digest pool move) := by
  cases move with
  | boot users =>
      have found : Steadily (pool.edit fun s => {s with users := users}) :=
        editSteadily steadily (fun _ => notesOf rfl rfl rfl rfl) id
      exact spawnSteadily found (seedKeeps (mineSelf _) (found.fresh _ (Nat.le_refl _)))
  | watch move => cases move with
      | deliver event => exact spawnSteadily steadily (handlerKeeps (steadily.fresh _ (Nat.le_refl _)).unnoted)
      | proceed n outcome =>
          have faced : Steadily (facing outcome pool) := editSteadily steadily (fun _ => notesOf rfl rfl rfl rfl) id
          have idle := @mineSelf n (facing outcome pool).state
          obtain ⟨closing,mine⟩ := @Pool.closingProceed _ _ _ _ _ _ _ _ _ Paid (fun _ _ _ _ => theirsTrans) mineTheirs
            paidStable n () (⟨id,notesSame _⟩ : Theirs n _ _) idle faced.closing orderly
          refine ⟨closing,mine.written faced.written,fun m beyond => ?_⟩
          have beyond : (facing outcome pool).threads.length ≤ m := by
            simpa only [step,HookDispatch.step,Pool.proceedLength] using beyond
          by_cases same : m = n
          · have out : (facing outcome pool).threads.length ≤ n := same ▸ beyond
            rw [step,HookDispatch.step,Pool.proceedBeyond answerHooks HookCall.awaits out]
            exact faced.fresh m beyond
          · exact blankLater (mine.others m same) (faced.fresh m beyond)
      | change hooks jobs =>
          exact editSteadily (f := fun s => {s with hooks := hooks, jobs := jobs}) steadily
            (fun _ => notesOf rfl rfl rfl rfl) id

theorem steadilyRun {moves : List DeliveryMove} (steadily : Steadily pool)
    (orderly : EachStep (step digest) Orderly moves pool) : Steadily (run digest moves pool) :=
  eachStepKeeps Steadily (fun _ _ => steadilyStep) steadily orderly

theorem beginSteadily (hooks : List OidcUserEventHook) : Steadily (begin hooks) where
  closing := Pool.closingEmpty _
  written := by
    intro uid n never
    cases never
  fresh _ _ := ⟨rfl,fun _ never => by cases never⟩

theorem steadilyDelivered (steadily : Steadily pool) (idle : Idle pool) : Delivered pool.state := by
  intro uid n wrote
  obtain ⟨event,dispatched,named,held⟩ := steadily.written uid n wrote
  have paid : Paid n pool.state := Pool.closingSettled steadily.closing idle
    (fun m beyond => unnotedPaid (steadily.fresh m beyond).unnoted) n
  exact ⟨event,dispatched,named,held,paid event dispatched⟩

end Runs
end HookDelivery

open HookDelivery in
/- In every run in which nothing is lost while a Job is owed, what is remembered when no handler is in
flight was delivered. -/
theorem hooksDelivered (digest : String → String) (hooks : List OidcUserEventHook) (moves : List DeliveryMove)
    (lossless : EachStep (HookDelivery.step digest) HookDelivery.Orderly moves (HookDelivery.begin hooks))
    (idle : HookDelivery.Idle (HookDelivery.run digest moves (HookDelivery.begin hooks))) :
    HookDelivery.Delivered (HookDelivery.run digest moves (HookDelivery.begin hooks)).state :=
  steadilyDelivered (HookDelivery.steadilyRun (HookDelivery.beginSteadily hooks) lossless) idle

namespace HookDelivery
open HookDispatch (alice)

def onboarding : OidcUserEventHook := {name := "onboarding", events := [.added]}

def welcome : OidcUserEventHook := {name := "welcome", events := [.added]}

def meets (n : Nat) (outcomes : List HookOutcome) : List DeliveryMove := outcomes.map fun outcome => .watch (.proceed n outcome)

def failedAndReplayed : List DeliveryMove :=
  .boot [] :: meets 0 [.answered,.answered,.answered] ++ .watch (.deliver (.added (alice 1))) :: meets 1 [.stopped] ++
    .watch (.deliver (.added (alice 1))) ::
      meets 2 [.answered,.answered,.answered,.failed,.answered,.answered,.answered,.answered] ++
    .watch (.deliver (.added (alice 1))) :: meets 3 [.answered]

def handled (listing : HookOutcome) : List DeliveryMove :=
  [.boot [],.watch (.proceed 0 .answered),.watch (.proceed 0 .answered),.watch (.proceed 0 .answered),
   .watch (.deliver (.added (alice 1))),.watch (.proceed 1 .answered),.watch (.proceed 1 .answered),
   .watch (.proceed 1 listing),.watch (.proceed 1 .answered),.watch (.proceed 1 .answered)]

end HookDelivery

open HookDelivery in
theorem bothAttempted : HookDelivery.Delivered
    (HookDelivery.run id failedAndReplayed (HookDelivery.begin [onboarding,welcome])).state ∧
    (HookDelivery.run id failedAndReplayed (HookDelivery.begin [onboarding,welcome])).state.attempts =
      [(2,onboarding),(2,welcome)] := by
  refine ⟨hooksDelivered id _ _ ?lossless ?idle,rfl⟩
  case lossless =>
    refine ⟨trivial,trivial,trivial,trivial,trivial,trivial,trivial,trivial,trivial,?_,?_,?_,?_,?_,?_,trivial,trivial,trivial⟩
    · intro failed
      cases failed rfl
    all_goals
      intro stopped
      cases stopped
  case idle =>
    intro p inside c next
    have ended : p = .pure () ∨ p = .throw () := by
      rcases List.mem_cons.mp inside with rfl | inside
      · exact .inl rfl
      rcases List.mem_cons.mp inside with rfl | inside
      · exact .inr rfl
      rcases List.mem_cons.mp inside with rfl | inside
      · exact .inl rfl
      cases List.mem_singleton.mp inside
      exact .inl rfl
    rcases ended with rfl | rfl <;> simp

open HookDelivery in
/- The listing fails, the generation stays remembered, and the replay of the event finds it there. -/
theorem listingLost : ¬ ∀ moves : List DeliveryMove,
    HookDelivery.Idle (HookDelivery.run id moves (HookDelivery.begin [onboarding])) →
    HookDelivery.Delivered (HookDelivery.run id moves (HookDelivery.begin [onboarding])).state := by
  intro always
  let moves := handled .failed ++ [.watch (.deliver (.added (HookDispatch.alice 1))),.watch (.proceed 2 .answered)]
  have threads : (HookDelivery.run id moves (HookDelivery.begin [onboarding])).threads =
      [.pure (),.pure (),.pure ()] := rfl
  have idle : HookDelivery.Idle (HookDelivery.run id moves (HookDelivery.begin [onboarding])) := by
    intro p inside c next
    rw [threads] at inside
    have ended : p = .pure () := by simpa using inside
    rw [ended]
    simp
  obtain ⟨event,dispatched,_,_,paid⟩ := always moves idle "u" 1 rfl
  have noted : (HookDelivery.run id moves (HookDelivery.begin [onboarding])).state.dispatches =
      [(1,⟨.added,HookDispatch.alice 1⟩)] := rfl
  rw [noted] at dispatched
  cases List.mem_singleton.mp dispatched
  have listed : onboarding ∈ (HookDelivery.run id moves (HookDelivery.begin [onboarding])).state.listed 1 :=
    List.mem_singleton.mpr rfl
  have attempted := paid onboarding listed (by decide +kernel)
  cases attempted

end Passmower
