import Passmower.LeaderElection

/-! The operators a pod runs while it reconciles: how `startWatches` starts them, how they are stopped,
and `restartOnRedisWipe`, which starts them afresh once Redis has lost its data. -/
namespace Passmower
open JavaScript Resumption Program

inductive Watcher where
  | clientOperator
  | middlewareClientOperator
  | userOperator
  | userEventHookOperator
  | scimConnectionOperator
  | ingressDiscoveryOperator
  | clientReconciler
  deriving DecidableEq, Repr

/- In the order they are started in; discovery only where `INGRESS_DISCOVERY_ENABLED` is set. -/
def operators (ingressDiscovery : Bool) : List Watcher :=
  [.clientOperator,.middlewareClientOperator,.userOperator,.userEventHookOperator,.scimConnectionOperator] ++
    if ingressDiscovery then [.ingressDiscoveryOperator] else []

def watchers (ingressDiscovery : Bool) : List Watcher := operators ingressDiscovery ++ [.clientReconciler]

/- The variables of one call of `restartOnRedisWipe` and of its `RedisWipeDetector`; `stop` is the set of
watchers that the variable of this name stops. -/
structure Arrangement where
  stop : Nat
  stopped : Bool := false
  timer : Bool := false
  running : Bool := false
  deriving DecidableEq, Repr

inductive ArrangementField where
  | stop (set : Nat)
  | stopped
  | timer (value : Bool)
  | running (value : Bool)
  deriving DecidableEq, Repr

def Arrangement.set (arrangement : Arrangement) : ArrangementField → Arrangement
  | .stop set => {arrangement with stop := set}
  | .stopped => {arrangement with stopped := true}
  | .timer value => {arrangement with timer := value}
  | .running value => {arrangement with running := value}

/- Who looks at the variable `stopReconcilers` of `startOperators`. -/
inductive Reader where
  | onStoppedLeading
  | shutdown
  deriving DecidableEq, Repr

inductive ReconcilingCall where
  | openSet
  | seed (set : Nat)
  | watch (set : Nat) (watcher : Watcher)
  | settle (set : Nat) (watcher : Watcher)
  | halt (set : Nat) (watcher : Watcher)
  | arrange (set : Nat)
  | arrangement (a : Nat)
  | change (a : Nat) (field : ArrangementField)
  | find
  | upsert
  | stopReconcilers (reader : Reader)
  | assign (arrangement : Option Nat)
  | pause (reader : Reader)
  deriving DecidableEq, Repr

abbrev reconciling : Interface where
  Call := ReconcilingCall
  Answer
    | .openSet => Nat
    | .seed _ | .watch _ _ | .settle _ _ | .upsert => Except Failure Unit
    | .halt _ _ | .arrange _ | .change _ _ | .assign _ | .pause _ => Unit
    | .arrangement _ => Arrangement
    | .find => Except Failure Bool
    | .stopReconcilers _ => Option Nat

def ReconcilingCall.awaits : ReconcilingCall → Bool
  | .seed _ | .settle _ _ | .find | .upsert | .pause _ => true
  | _ => false

abbrev Reconciling (α : Type) := Program reconciling Failure α

section Watches
variable (ingressDiscovery : Bool)

def seedOnFirstRun (set : Nat) : Reconciling Unit := do
  let seeded ← (ask (I := reconciling) (.seed set) : Reconciling (Except Failure Unit))
  orThrow seeded

def beginWatch (set : Nat) (watcher : Watcher) : Reconciling Unit := do
  let watched ← (ask (I := reconciling) (.watch set watcher) : Reconciling (Except Failure Unit))
  orThrow watched

def settleWatch (set : Nat) (watcher : Watcher) : Reconciling Unit := do
  let settled ← (ask (I := reconciling) (.settle set watcher) : Reconciling (Except Failure Unit))
  orThrow settled

def watchObjects (set : Nat) (watcher : Watcher) : Reconciling Unit := do
  beginWatch set watcher
  settleWatch set watcher

def startOperator (set : Nat) : Watcher → Reconciling Unit
  | .userEventHookOperator => do
      seedOnFirstRun set
      watchObjects set .userEventHookOperator
  | watcher => watchObjects set watcher

def startOperatorsOf (set : Nat) : List Watcher → Reconciling Unit
  | [] => .pure ()
  | watcher :: rest => do
      startOperator set watcher
      startOperatorsOf set rest

def startWatches : Reconciling Nat := do
  let set ← (ask (I := reconciling) .openSet : Reconciling Nat)
  startOperatorsOf set (operators ingressDiscovery)
  beginWatch set .clientReconciler
  .pure set

def haltWatchers (set : Nat) : List Watcher → Reconciling Unit
  | [] => .pure ()
  | watcher :: rest => do
      let _ ← (ask (I := reconciling) (.halt set watcher) : Reconciling Unit)
      haltWatchers set rest

def stopWatches (set : Nat) : Reconciling Unit := haltWatchers set (watchers ingressDiscovery)

end Watches

namespace RedisWipeDetector

def mark : Reconciling Unit := do
  let marked ← (ask (I := reconciling) .upsert : Reconciling (Except Failure Unit))
  orThrow marked

/- A marker that cannot be written is logged. -/
def start (a : Nat) : Reconciling Unit := do
  let arrangement ← (ask (I := reconciling) (.arrangement a) : Reconciling Arrangement)
  if arrangement.timer then .pure ()
  else do
    let _ ← (ask (I := reconciling) (.change a (.timer true)) : Reconciling Unit)
    let _ ← mark.attempt
    .pure ()

def body (onWipe : Reconciling Unit) : Reconciling Bool := do
  let found ← (ask (I := reconciling) .find : Reconciling (Except Failure Bool))
  let present ← orThrow found
  if present then .pure false
  else do
    mark
    onWipe
    .pure true

def check (a : Nat) (onWipe : Reconciling Unit) : Reconciling Bool := do
  let arrangement ← (ask (I := reconciling) (.arrangement a) : Reconciling Arrangement)
  if arrangement.running then .pure false
  else do
    let _ ← (ask (I := reconciling) (.change a (.running true)) : Reconciling Unit)
    let checked ← (body onWipe).attempt
    let _ ← (ask (I := reconciling) (.change a (.running false)) : Reconciling Unit)
    orThrow checked

def checkQuietly (a : Nat) (onWipe : Reconciling Unit) : Reconciling Unit := do
  let _ ← (check a onWipe).attempt
  .pure ()

end RedisWipeDetector

section Arrangements
variable (ingressDiscovery : Bool)

def onWipe (a : Nat) : Reconciling Unit := do
  let arrangement ← (ask (I := reconciling) (.arrangement a) : Reconciling Arrangement)
  stopWatches ingressDiscovery arrangement.stop
  let restarted ← startWatches ingressDiscovery
  let arrangement ← (ask (I := reconciling) (.arrangement a) : Reconciling Arrangement)
  if arrangement.stopped then stopWatches ingressDiscovery restarted
  else do
    let _ ← (ask (I := reconciling) (.change a (.stop restarted)) : Reconciling Unit)
    .pure ()

def restartOnRedisWipe : Reconciling Nat := do
  let set ← startWatches ingressDiscovery
  let _ ← (ask (I := reconciling) (.arrange set) : Reconciling Unit)
  RedisWipeDetector.start set
  .pure set

def stopArrangement (a : Nat) : Reconciling Unit := do
  let _ ← (ask (I := reconciling) (.change a .stopped) : Reconciling Unit)
  let _ ← (ask (I := reconciling) (.change a (.timer false)) : Reconciling Unit)
  let arrangement ← (ask (I := reconciling) (.arrangement a) : Reconciling Arrangement)
  stopWatches ingressDiscovery arrangement.stop

def onStartedLeading : Reconciling Unit := do
  let a ← restartOnRedisWipe ingressDiscovery
  let _ ← (ask (I := reconciling) (.assign (some a)) : Reconciling Unit)
  .pure ()

def stopReconcilers (reader : Reader) : Reconciling Unit := do
  let assigned ← (ask (I := reconciling) (.stopReconcilers reader) : Reconciling (Option Nat))
  match assigned with
  | some a => stopArrangement ingressDiscovery a
  | none => .pure ()

def onStoppedLeading : Reconciling Unit := do
  stopReconcilers ingressDiscovery .onStoppedLeading
  let _ ← (ask (I := reconciling) (.assign none) : Reconciling Unit)
  let _ ← (ask (I := reconciling) (.pause .onStoppedLeading) : Reconciling Unit)
  .pure ()

end Arrangements

structure Reconcilers where
  sets : Nat := 0
  running : Nat → Watcher → Bool := fun _ _ => false
  arrangements : Nat → Arrangement := fun _ => ⟨0,false,false,false⟩
  assigned : Option Nat := none
  marker : Bool := false
  next : Outcome := .served
  applied : Bool := true
  built : Outcome := .served

namespace Reconcilers
variable (r : Reconcilers)

def setRunning (set : Nat) (watcher : Watcher) (value : Bool) : Reconcilers :=
  {r with running := fun k w => if k = set ∧ w = watcher then value else r.running k w}

def setArrangement (a : Nat) (arrangement : Arrangement) : Reconcilers :=
  {r with arrangements := fun b => if b = a then arrangement else r.arrangements b}

def answer : (c : reconciling.Call) → reconciling.Answer c × Reconcilers
  | .openSet => (r.sets,{r with sets := r.sets + 1})
  | .seed _ => (r.next.onto (.ok ()),r)
  | .watch set watcher => match r.built with
      | .served => (.ok (),r.setRunning set watcher true)
      | .failed error => (.error error,r)
  | .settle _ _ => (r.next.onto (.ok ()),r)
  | .halt set watcher => ((),r.setRunning set watcher false)
  | .arrange set => ((),r.setArrangement set ⟨set,false,false,false⟩)
  | .arrangement a => (r.arrangements a,r)
  | .change a field => ((),r.setArrangement a ((r.arrangements a).set field))
  | .find => (r.next.onto (.ok r.marker),r)
  | .upsert => (r.next.onto (.ok ()),{r with marker := r.marker || r.next = .served || r.applied})
  | .stopReconcilers _ => (r.assigned,r)
  | .assign arrangement => ((),{r with assigned := arrangement})
  | .pause _ => ((),r)

def RunsOnly (ingressDiscovery : Bool) (set : Nat) : Prop :=
  ∀ k w, r.running k w = true ↔ k = set ∧ w ∈ watchers ingressDiscovery

def Quiet : Prop := ∀ k w, r.running k w = false

@[simp] theorem setArrangementSelf (a : Nat) (arrangement : Arrangement) :
    (r.setArrangement a arrangement).arrangements a = arrangement := if_pos rfl

theorem setArrangementOther {a b : Nat} (arrangement : Arrangement) (other : b ≠ a) :
    (r.setArrangement a arrangement).arrangements b = r.arrangements b := if_neg other

theorem setArrangementAgain (a : Nat) (first second : Arrangement) :
    (r.setArrangement a first).setArrangement a second = r.setArrangement a second := by
  simp only [setArrangement,mk.injEq,and_true,true_and]
  funext b
  split <;> rfl

def halted (set : Nat) (ws : List Watcher) : Reconcilers :=
  {r with running := fun k w => if k = set ∧ w ∈ ws then false else r.running k w}

theorem haltedCons (set : Nat) (watcher : Watcher) (ws : List Watcher) :
    (r.setRunning set watcher false).halted set ws = r.halted set (watcher :: ws) := by
  simp only [halted,setRunning,mk.injEq,and_true,true_and]
  funext k w
  by_cases same : k = set ∧ w = watcher
  · simp [same]
  · by_cases rest : k = set ∧ w ∈ ws
    · simp [rest]
    · simp only [if_neg rest,if_neg same]
      rw [if_neg]
      simp only [List.mem_cons]
      grind

end Reconcilers

section Rules
variable {ω σ : Type} [Inhabited ω] {h : Handler reconciling ω σ} {awaited : ReconcilingCall → Bool}
  {K : Contract reconciling σ} {t u : σ}

structure HoldsReconcilers (h : Handler reconciling ω σ) (get : σ → Reconcilers) (put : σ → Reconcilers → σ) : Prop where
  same : ∀ s, put s (get s) = s
  got : ∀ s r, get (put s r) = r
  again : ∀ s r r', put (put s r) r' = put s r'
  halt : ∀ s set w, h default (.halt set w) s = ((),put s ((get s).setRunning set w false))

theorem haltKeeps {get : σ → Reconcilers} {put : σ → Reconcilers → σ} (holding : HoldsReconcilers h get put) {set : Nat}
    {ws : List Watcher} {Q : Except Failure Unit → σ → σ → Prop}
    (stopped : Q (.ok ()) t (put u ((get u).halted set ws))) :
    Keeps h ReconcilingCall.awaits K (haltWatchers set ws) Q t u := by
  induction ws generalizing u with
  | nil =>
      have same : (get u).halted set [] = get u := by simp [Reconcilers.halted]
      rw [same,holding.same] at stopped
      exact stopped
  | cons watcher rest ih =>
      apply keepsAskNow rfl
      rw [holding.halt]
      apply ih
      rw [holding.got,holding.again,Reconcilers.haltedCons]
      exact stopped

def Reached {α : Type} (At Failed : σ → σ → Prop) : Except Failure α → σ → σ → Prop
  | .ok _, t, u => At t u
  | .error _, t, u => Failed t u

/- What has to be shown of the start of one set: `At ws` is a turn in which just `ws` of it run. -/
structure Starting (h : Handler reconciling ω σ) (K : Contract reconciling σ) (set : Nat)
    (At : List Watcher → σ → σ → Prop) (Failed : σ → σ → Prop) : Prop where
  seed : ∀ {ws t u}, At ws t u →
    Keeps h ReconcilingCall.awaits K (seedOnFirstRun set) (Reached (At ws) Failed) t u
  begins : ∀ {ws t u} w, At ws t u →
    Keeps h ReconcilingCall.awaits K (beginWatch set w) (Reached (At (ws ++ [w])) Failed) t u
  settles : ∀ {ws t u w}, At (ws ++ [w]) t u →
    Keeps h ReconcilingCall.awaits K (settleWatch set w) (Reached (At (ws ++ [w])) Failed) t u

namespace Starting
variable {set : Nat} {At : List Watcher → σ → σ → Prop} {Failed : σ → σ → Prop} {ws : List Watcher}
  (starting : Starting h K set At Failed)

theorem reachedBind {α β : Type} {p : Reconciling α} {f : α → Reconciling β} {A B : σ → σ → Prop}
    (first : Keeps h ReconcilingCall.awaits K p (Reached A Failed) t u)
    (rest : ∀ a t u, A t u → Keeps h ReconcilingCall.awaits K (f a) (Reached B Failed) t u) :
    Keeps h ReconcilingCall.awaits K (p >>= f) (Reached B Failed) t u := by
  apply keepsBind
  apply keepsMono first
  intro ended t u reached
  cases ended with
  | ok a => exact rest a t u reached
  | error e => exact reached

include starting

theorem watchKeeps (w : Watcher) (here : At ws t u) :
    Keeps h ReconcilingCall.awaits K (watchObjects set w) (Reached (At (ws ++ [w])) Failed) t u :=
  reachedBind (starting.begins w here) fun _ _ _ here => starting.settles here

theorem operatorKeeps (w : Watcher) (here : At ws t u) :
    Keeps h ReconcilingCall.awaits K (startOperator set w) (Reached (At (ws ++ [w])) Failed) t u := by
  cases w with
  | userEventHookOperator =>
      exact reachedBind (starting.seed here) fun _ _ _ here => starting.watchKeeps _ here
  | _ => exact starting.watchKeeps _ here

theorem operatorsKeep (rest : List Watcher) (here : At ws t u) :
    Keeps h ReconcilingCall.awaits K (startOperatorsOf set rest) (Reached (At (ws ++ rest)) Failed) t u := by
  induction rest generalizing ws t u with
  | nil =>
      rw [List.append_nil]
      exact here
  | cons w rest ih =>
      apply reachedBind (starting.operatorKeeps w here)
      intro _ t u here
      have further := ih here
      rw [List.append_assoc] at further
      exact further

end Starting

theorem startWatchesKeeps {ingressDiscovery : Bool} {set : Nat} {At : List Watcher → σ → σ → Prop} {Failed : σ → σ → Prop}
    (starting : Starting h K set At Failed) {Q : Except Failure Nat → σ → σ → Prop}
    (opened : (h default .openSet u).1 = set) (begun : At [] t (h default .openSet u).2)
    (full : ∀ t u, At (watchers ingressDiscovery) t u → Q (.ok set) t u)
    (failed : ∀ e t u, Failed t u → Q (.error e) t u) :
    Keeps h ReconcilingCall.awaits K (startWatches ingressDiscovery) Q t u := by
  apply keepsAskNow rfl
  rw [opened]
  apply keepsBind
  apply keepsMono (starting.operatorsKeep (operators ingressDiscovery) begun)
  intro ended t u reached
  cases ended with
  | error e => exact failed e t u reached
  | ok _ =>
      apply keepsBind
      apply keepsMono (starting.begins .clientReconciler reached)
      intro ended t u reached
      cases ended with
      | error e => exact failed e t u reached
      | ok _ => exact full t u reached

end Rules
end Passmower
