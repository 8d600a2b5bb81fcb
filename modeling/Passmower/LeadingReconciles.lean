import Passmower.ElectionStop
import Passmower.Reconcilers

/-! A leading pod reconciles: the election with the callbacks `startOperators` gives to it, run with
its shutdown hook at every await point, whatever the lease requests and the operators' starts come to. -/
namespace Passmower
open JavaScript Resumption Program

inductive HookPhase where
  | begun
  | standing
  | finishing
  deriving DecidableEq, Repr

/- Reads of the lease are answered with `lease`. `ticker` is the thread whose tick is under way, and
`starting` the set of watchers it is starting. -/
structure LeadingWorld extends Reconcilers where
  clock : Nat := 0
  lease : Option Lease := none
  candidate : Candidate := {}
  ticker : Option Nat := none
  starting : Option Nat := none
  hooks : Nat → Option HookPhase := fun _ => none

namespace LeadingWorld
variable (s : LeadingWorld)

def setHook (n : Nat) (phase : Option HookPhase) : LeadingWorld :=
  {s with hooks := fun m => if m = n then phase else s.hooks m}

def look (n : Nat) : LeadingWorld := match s.hooks n with
  | some .begun => s.setHook n (some (if s.candidate.leading then .standing else .finishing))
  | some .standing => s.setHook n (some .finishing)
  | _ => s

def setField (n : Nat) (field : CandidateField) : LeadingWorld := match field with
  | .stopped true => {s.setHook n (some .begun) with candidate := s.candidate.set (.stopped true)}
  | .ticking true => {s with candidate := s.candidate.set (.ticking true), ticker := some n}
  | .ticking false => {s with candidate := s.candidate.set (.ticking false), ticker := none, starting := none}
  | field => {s with candidate := s.candidate.set field}

def noticed (n : Nat) : reconciling.Call → LeadingWorld
  | .openSet => {s with starting := some s.sets}
  | .assign (some _) => {s with starting := none}
  | .stopReconcilers .shutdown => s.setHook n none
  | _ => s

def Doomed : Prop := s.candidate.leading = false ∨ ∃ m, s.hooks m = some .standing

end LeadingWorld

def answerLeading (n : Nat) : Handler (election reconciling) Unit LeadingWorld := fun _ c s => match c with
  | .now => (s.clock,s)
  | .fields _ => (s.candidate,s.look n)
  | .set _ field => ((),s.setField n field)
  | .send _ _ .read => (match s.lease with
      | some lease => .ok lease
      | none => .error .notFound,s)
  | .send _ _ (.create _) => (.ok (),s)
  | .send _ _ (.replace _) => (.ok (),s)
  | .receive _ _ _ answer => (s.next.onto answer,s)
  | .callback c => ((s.answer c).1,{s.noticed n c with toReconcilers := (s.answer c).2})

structure Circumstances where
  outcome : Outcome
  built : Outcome
  lease : Option Lease
  clock : Nat
  deriving DecidableEq, Repr

def LeadingWorld.facing (s : LeadingWorld) (c : Circumstances) : LeadingWorld :=
  {s with next := c.outcome, built := c.built, lease := c.lease, clock := c.clock}

inductive LeadingMove where
  | start
  | tick
  | shutdown
  | proceed (n : Nat) (circumstances : Circumstances)
  deriving DecidableEq, Repr

abbrev LeadingPool := Pool (election reconciling) Failure LeadingWorld

abbrev reconcilingAwaited : (election reconciling).Call → Bool := ElectionCall.awaits ReconcilingCall.awaits

/- The election as `startOperators` sets it up. -/
def Contender.operating (contender : Contender) (ingressDiscovery : Bool) : LeaderElection reconciling where
  pod := 0
  identity := contender.identity
  identified := contender.identified
  leaseDurationSeconds := contender.leaseDurationSeconds
  renewDeadlineSeconds := contender.renewDeadlineSeconds
  onStartedLeading := fromCallback (onStartedLeading ingressDiscovery)
  onStoppedLeading := fromCallback (onStoppedLeading ingressDiscovery)

section Moves
variable (contender : Contender) (ingressDiscovery : Bool)

/- The function `startOperators` returns. -/
def shutdownHook : Election reconciling Unit := do
  (contender.operating ingressDiscovery).stop
  let _ ← (ask (I := election reconciling) (.callback (.pause .shutdown)) : Election reconciling Unit)
  fromCallback (stopReconcilers ingressDiscovery .shutdown)

def leadingStep (pool : LeadingPool) : LeadingMove → LeadingPool
  | .start => pool.spawn answerLeading reconcilingAwaited (contender.operating ingressDiscovery).start
  | .tick => pool.spawn answerLeading reconcilingAwaited (contender.operating ingressDiscovery).tickQuietly
  | .shutdown => pool.spawn answerLeading reconcilingAwaited (shutdownHook contender ingressDiscovery)
  | .proceed n c => (pool.edit fun s => s.facing c).proceed answerLeading reconcilingAwaited n ()

def leadingRun (moves : List LeadingMove) (pool : LeadingPool) : LeadingPool :=
  moves.foldl (leadingStep contender ingressDiscovery) pool

end Moves

/- No operator's start fails once the first of its set runs, and that first one only where a hook is
about to stand the pod down. A start ends while the pod leads or some hook has yet to end, and no other set
is left to be stopped. A hook ends while the pod does not lead, is starting its watchers, or will be stood down. -/
def LeadingOk (n : Nat) (s : LeadingWorld) : (election reconciling).Call → Prop
  | .receive _ .tick .read answer => Leads (makesLead false (s.next.onto answer))
  | .receive _ .tick (.create _) answer => Leads (makesLead true (s.next.onto answer))
  | .receive _ .tick (.replace _) answer => Leads (makesLead true (s.next.onto answer))
  | .callback (.seed _) | .callback (.settle _ _) => s.next = .served ∧ s.built = .served
  | .callback .upsert => (s.candidate.leading = true ∨ ∃ m, s.hooks m ≠ none) ∧
      ∀ k w, s.assigned = some k → s.running k w = false
  | .callback (.pause .shutdown) => s.candidate.leading = true →
      s.starting ≠ none ∨ ∃ m, m ≠ n ∧ s.hooks m = some .standing
  | _ => True
where
  Leads (goesOn : Bool) : Prop := goesOn = true → s.candidate.leading = false →
    s.built = .served ∨ ∃ m, s.hooks m = some .standing

def LeadingMove.Disciplined (pool : LeadingPool) : LeadingMove → Prop
  | .proceed n c => Pool.Ready LeadingOk n (pool.edit fun s => s.facing c)
  | _ => True

def LeadingDisciplined (contender : Contender) (ingressDiscovery : Bool) : List LeadingMove → LeadingPool → Prop :=
  EachStep (leadingStep contender ingressDiscovery) fun pool move => move.Disciplined pool

structure LeadsReconciling (ingressDiscovery : Bool) (s : LeadingWorld) : Prop where
  leads : s.candidate.leading = true → ∃ set, s.RunsOnly ingressDiscovery set
  follows : s.candidate.leading = false → s.Quiet

structure LeadingBasic (ingressDiscovery : Bool) (s : LeadingWorld) : Prop where
  ticks : s.candidate.ticking = s.ticker.isSome
  started : ∀ k, s.starting = some k → s.ticker.isSome = true ∧ k < s.sets ∧ s.assigned ≠ some k
  known : ∀ k, s.assigned = some k → k < s.sets ∧ (s.arrangements k).stop = k
  owned : ∀ k w, s.running k w = true → s.assigned = some k ∨ s.starting = some k
  watched : ∀ k w, s.assigned = some k → s.running k w = true → w ∈ watchers ingressDiscovery

structure LeadingFine (ingressDiscovery : Bool) (s : LeadingWorld) : Prop extends LeadingBasic ingressDiscovery s where
  led : ∀ k w, s.assigned = some k → s.running k w = true → s.candidate.leading = true ∨ ∃ m, s.hooks m ≠ none
  full : s.candidate.leading = true → s.starting = none → (∃ m, s.hooks m = some .standing) ∨
    ∃ k, s.assigned = some k ∧ ∀ w, s.running k w = true ↔ w ∈ watchers ingressDiscovery

structure LeadingBeside (n : Nat) (s t : LeadingWorld) : Prop where
  hook : t.hooks n = s.hooks n
  ticker : t.ticker = some n ↔ s.ticker = some n
  starting : s.ticker = some n → t.starting = s.starting
  kept : s.ticker = some n → ∀ k, s.starting = some k →
    t.running k = s.running k ∧ t.arrangements k = s.arrangements k
  doomed : s.ticker = some n → s.Doomed → t.Doomed

def leadingContract (ingressDiscovery : Bool) (n : Nat) : Contract (election reconciling) LeadingWorld where
  ok := LeadingOk n
  rely s t := LeadingFine ingressDiscovery t ∧ LeadingBeside n s t
  guarantee s t := LeadingFine ingressDiscovery t ∧ ∀ m, m ≠ n → LeadingBeside m s t

section Beside
variable {ingressDiscovery : Bool} {n m : Nat} {s t u : LeadingWorld} {phase : Option HookPhase}

theorem leadingBesideTrans (first : LeadingBeside n s t) (second : LeadingBeside n t u) : LeadingBeside n s u where
  hook := second.hook.trans first.hook
  ticker := second.ticker.trans first.ticker
  starting ticks := (second.starting (first.ticker.mpr ticks)).trans (first.starting ticks)
  kept ticks k starts := by
    have before := first.kept ticks k starts
    have after := second.kept (first.ticker.mpr ticks) k ((first.starting ticks).trans starts)
    exact ⟨after.1.trans before.1,after.2.trans before.2⟩
  doomed ticks doomed := second.doomed (first.ticker.mpr ticks) (first.doomed ticks doomed)

theorem leadingBesideSelf : LeadingBeside n s s := ⟨rfl,Iff.rfl,fun _ => rfl,fun _ _ _ => ⟨rfl,rfl⟩,fun _ => id⟩

theorem besideTicker (other : m ≠ n) (hooks : t.hooks m = s.hooks m) (before : s.ticker = some n)
    (after : t.ticker = some n) : LeadingBeside m s t := by
  have idle : s.ticker ≠ some m := fun ticks => other (Option.some.inj (ticks.symm.trans before))
  have still : t.ticker ≠ some m := fun ticks => other (Option.some.inj (ticks.symm.trans after))
  exact ⟨hooks,⟨fun ticks => absurd ticks still,fun ticks => absurd ticks idle⟩,fun ticks => absurd ticks idle,
    fun ticks => absurd ticks idle,fun ticks => absurd ticks idle⟩

@[simp] theorem setHookSelf : (s.setHook n phase).hooks n = phase := if_pos rfl

theorem setHookOther (other : m ≠ n) : (s.setHook n phase).hooks m = s.hooks m := if_neg other

theorem besideHook (other : m ≠ n) (doomed : s.Doomed → (s.setHook n phase).Doomed) :
    LeadingBeside m s (s.setHook n phase) :=
  ⟨setHookOther other,Iff.rfl,fun _ => rfl,fun _ _ _ => ⟨rfl,rfl⟩,fun _ => doomed⟩

theorem doomedHook (idle : s.hooks n ≠ some .standing) (doomed : s.Doomed) : (s.setHook n phase).Doomed := by
  rcases doomed with resting | ⟨m,standing⟩
  · exact .inl resting
  · have other : m ≠ n := fun same => idle (same ▸ standing)
    exact .inr ⟨m,(setHookOther other).trans standing⟩

end Beside

section StandingDown
variable {ingressDiscovery : Bool} {n m : Nat} {s t u : LeadingWorld}

def LeadingWorld.stoppedReconcilers (ingressDiscovery : Bool) (s : LeadingWorld) : Reconcilers := match s.assigned with
  | some a => (s.setArrangement a {s.arrangements a with stopped := true, timer := false}).halted
      (s.arrangements a).stop (watchers ingressDiscovery)
  | none => s.toReconcilers

def LeadingWorld.standDown (ingressDiscovery : Bool) (s : LeadingWorld) : LeadingWorld :=
  {s with
    toReconcilers := {s.stoppedReconcilers ingressDiscovery with assigned := none}
    candidate := s.candidate.set (.leading false)}

theorem stoppedStop (a : Nat) : ((s.stoppedReconcilers ingressDiscovery).arrangements a).stop = (s.arrangements a).stop := by
  unfold LeadingWorld.stoppedReconcilers
  cases s.assigned with
  | none => rfl
  | some b =>
      rcases Decidable.em (a = b) with rfl | other
      · simp [Reconcilers.halted]
      · exact congrArg Arrangement.stop (Reconcilers.setArrangementOther _ _ other)

theorem stoppedSame : (s.stoppedReconcilers ingressDiscovery).sets = s.sets ∧
    (s.stoppedReconcilers ingressDiscovery).assigned = s.assigned := by
  unfold LeadingWorld.stoppedReconcilers
  cases assigned : s.assigned with
  | none => exact ⟨rfl,assigned⟩
  | some _ => exact ⟨rfl,assigned⟩

theorem stoppedOther (basic : LeadingBasic ingressDiscovery s) {a : Nat} (other : s.assigned ≠ some a) :
    (s.stoppedReconcilers ingressDiscovery).running a = s.running a ∧
      (s.stoppedReconcilers ingressDiscovery).arrangements a = s.arrangements a := by
  unfold LeadingWorld.stoppedReconcilers
  cases assigned : s.assigned with
  | none => exact ⟨rfl,rfl⟩
  | some b =>
      have apart : a ≠ b := fun same => other (same ▸ assigned)
      refine ⟨?_,Reconcilers.setArrangementOther _ _ apart⟩
      funext w
      simp only [Reconcilers.halted,Reconcilers.setArrangement]
      rw [if_neg]
      exact fun within => apart (within.1.trans (basic.known b assigned).2)

theorem stoppedAssigned (basic : LeadingBasic ingressDiscovery s) {a : Nat} (assigned : s.assigned = some a) (w : Watcher) :
    (s.stoppedReconcilers ingressDiscovery).running a w = false := by
  simp only [LeadingWorld.stoppedReconcilers,assigned,Reconcilers.halted,(basic.known a assigned).2,true_and]
  split
  · rfl
  · rename_i outside
    cases runs : s.running a w with
    | false => exact runs
    | true => exact absurd (basic.watched a w assigned runs) outside

theorem stoppedOwned (basic : LeadingBasic ingressDiscovery s) {a : Nat} {w : Watcher}
    (runs : (s.stoppedReconcilers ingressDiscovery).running a w = true) : s.starting = some a := by
  rcases Decidable.em (s.assigned = some a) with assigned | other
  · exact absurd ((stoppedAssigned basic assigned w).symm.trans runs) nofun
  · rw [(stoppedOther basic other).1] at runs
    rcases basic.owned a w runs with assigned | starts
    · exact absurd assigned other
    · exact starts

theorem standDownFine (basic : LeadingBasic ingressDiscovery s) : LeadingFine ingressDiscovery (s.standDown ingressDiscovery) where
  ticks := basic.ticks
  started k starts := by
    obtain ⟨ticks,below,_⟩ := basic.started k starts
    exact ⟨ticks,stoppedSame.1.symm ▸ below,nofun⟩
  known := nofun
  owned k w runs := .inr (stoppedOwned basic runs)
  watched := nofun
  led := nofun
  full := nofun

theorem standDownBeside (basic : LeadingBasic ingressDiscovery s) : LeadingBeside n s (s.standDown ingressDiscovery) where
  hook := rfl
  ticker := Iff.rfl
  starting _ := rfl
  kept _ k starts := stoppedOther basic (basic.started k starts).2.2
  doomed _ _ := .inl rfl

abbrev LeadingKeeps (ingressDiscovery : Bool) (n : Nat) {α : Type} (program : Election reconciling α)
    (Q : Except Failure α → LeadingWorld → LeadingWorld → Prop) (t u : LeadingWorld) : Prop :=
  Keeps (answerLeading n) reconcilingAwaited (leadingContract ingressDiscovery n) program Q t u

abbrev CallbackKeeps (ingressDiscovery : Bool) (n : Nat) {α : Type} (program : Reconciling α)
    (Q : Except Failure α → LeadingWorld → LeadingWorld → Prop) (t u : LeadingWorld) : Prop :=
  Keeps (callbackHandler (answerLeading n)) ReconcilingCall.awaits
    (callbackContract (leadingContract ingressDiscovery n)) program Q t u

theorem leadingHolds : HoldsReconcilers (callbackHandler (answerLeading n)) LeadingWorld.toReconcilers
    (fun s r => {s with toReconcilers := r}) where
  same _ := rfl
  got _ _ := rfl
  again _ _ _ := rfl
  halt _ _ _ := rfl

theorem stopReconcilersKeeps {reader : Reader} {Q : Except Failure Unit → LeadingWorld → LeadingWorld → Prop}
    (stopped : Q (.ok ()) t {u.noticed n (.stopReconcilers reader) with
      toReconcilers := u.stoppedReconcilers ingressDiscovery}) :
    CallbackKeeps ingressDiscovery n (stopReconcilers ingressDiscovery reader) Q t u := by
  apply keepsAskNow rfl
  have assigned : (callbackHandler (answerLeading n) default (.stopReconcilers reader) u).1 = u.assigned := rfl
  rw [assigned]
  unfold LeadingWorld.stoppedReconcilers at stopped
  cases a : u.assigned with
  | none =>
      simp only [a] at stopped
      exact stopped
  | some a =>
      simp only [a] at stopped
      apply keepsAskNow rfl
      apply keepsAskNow rfl
      apply keepsAskNow rfl
      apply haltKeeps leadingHolds
      cases reader with
      | onStoppedLeading =>
          simpa [callbackHandler,answerLeading,Reconcilers.answer,LeadingWorld.noticed,Reconcilers.setArrangementAgain,
            Arrangement.set] using stopped
      | shutdown =>
          simpa [callbackHandler,answerLeading,Reconcilers.answer,LeadingWorld.noticed,LeadingWorld.setHook,
            Reconcilers.setArrangementAgain,Arrangement.set] using stopped

end StandingDown
section Turns
variable {contender : Contender} {ingressDiscovery : Bool} {n k : Nat} {t u v : LeadingWorld} {ws : List Watcher}
  {phase : Option HookPhase}

structure TickTurn (ingressDiscovery : Bool) (n : Nat) (t u : LeadingWorld) : Prop where
  kept : (leadingContract ingressDiscovery n).guarantee t u
  hook : u.hooks n = none
  ticker : u.ticker = some n
  given : ∀ k, u.starting = some k → (∀ w, u.running k w = false) ∧ u.Doomed

structure OutTurn (ingressDiscovery : Bool) (n : Nat) (phase : Option HookPhase) (t u : LeadingWorld) : Prop where
  kept : (leadingContract ingressDiscovery n).guarantee t u
  hook : u.hooks n = phase
  free : u.ticker ≠ some n

structure OwnsTurn (ingressDiscovery : Bool) (n k : Nat) (ws : List Watcher) (t u : LeadingWorld) : Prop where
  kept : (leadingContract ingressDiscovery n).guarantee t u
  hook : u.hooks n = none
  ticker : u.ticker = some n
  starts : u.starting = some k
  only : ∀ w, u.running k w = true ↔ w ∈ ws

structure StartsTurn (ingressDiscovery : Bool) (n k : Nat) (ws : List Watcher) (t u : LeadingWorld) : Prop
    extends OwnsTurn ingressDiscovery n k ws t u where
  builds : u.built ≠ .served → ws = [] ∧ u.Doomed

theorem leadingNow (fine : LeadingFine ingressDiscovery u) : (leadingContract ingressDiscovery n).guarantee u u :=
  ⟨fine,fun _ _ => leadingBesideSelf⟩

theorem leadingThen (first : (leadingContract ingressDiscovery n).guarantee t u)
    (second : (leadingContract ingressDiscovery n).guarantee u v) : (leadingContract ingressDiscovery n).guarantee t v :=
  ⟨second.1,fun m other => leadingBesideTrans (first.2 m other) (second.2 m other)⟩

theorem tickLater (turn : TickTurn ingressDiscovery n t u) (moved : (leadingContract ingressDiscovery n).rely u v) :
    TickTurn ingressDiscovery n v v := by
  obtain ⟨fine,beside⟩ := moved
  refine ⟨leadingNow fine,beside.hook.trans turn.hook,beside.ticker.mpr turn.ticker,?_⟩
  intro k starts
  have before := (beside.starting turn.ticker).symm.trans starts
  obtain ⟨rests,doomed⟩ := turn.given k before
  exact ⟨fun w => (congrFun (beside.kept turn.ticker k before).1 w).trans (rests w),beside.doomed turn.ticker doomed⟩

theorem outLater (turn : OutTurn ingressDiscovery n phase t u) (moved : (leadingContract ingressDiscovery n).rely u v) :
    OutTurn ingressDiscovery n phase v v :=
  ⟨leadingNow moved.1,moved.2.hook.trans turn.hook,fun ticks => turn.free (moved.2.ticker.mp ticks)⟩

theorem ownsLater (turn : OwnsTurn ingressDiscovery n k ws t u) (moved : (leadingContract ingressDiscovery n).rely u v) :
    OwnsTurn ingressDiscovery n k ws v v := by
  obtain ⟨fine,beside⟩ := moved
  refine ⟨leadingNow fine,beside.hook.trans turn.hook,beside.ticker.mpr turn.ticker,
    (beside.starting turn.ticker).trans turn.starts,?_⟩
  intro w
  rw [(beside.kept turn.ticker k turn.starts).1]
  exact turn.only w

theorem startsLater (turn : StartsTurn ingressDiscovery n k ws t u) (moved : (leadingContract ingressDiscovery n).rely u v)
    (built : v.built = .served) : StartsTurn ingressDiscovery n k ws v v :=
  ⟨ownsLater turn.toOwnsTurn moved,fun fails => absurd built fails⟩

theorem onStoppedKeeps {Q : Except Failure Unit → LeadingWorld → LeadingWorld → Prop}
    (kept : (leadingContract ingressDiscovery n).guarantee t (u.standDown ingressDiscovery))
    (rest : ∀ v, (leadingContract ingressDiscovery n).rely (u.standDown ingressDiscovery) v → Q (.ok ()) v v) :
    LeadingKeeps ingressDiscovery n (fromCallback (onStoppedLeading ingressDiscovery)) Q t
      {u with candidate := u.candidate.set (.leading false)} := by
  apply callbackKeeps
  apply keepsBind
  apply stopReconcilersKeeps
  apply keepsAskNow rfl
  apply keepsAskAwait rfl
  · exact kept
  · exact fun v moved _ _ => rest v moved

theorem stopLeadingKeepsTick (turn : TickTurn ingressDiscovery n t u) :
    LeadingKeeps ingressDiscovery n (contender.operating ingressDiscovery).stopLeading
      (fun _ => TickTurn ingressDiscovery n) t u := by
  apply keepsAskNow rfl
  have looked : u.look n = u := by simp [LeadingWorld.look,turn.hook]
  change LeadingKeeps ingressDiscovery n (if u.candidate.leading then _ else _) _ t (u.look n)
  rw [looked]
  apply keepsIf
  · intro leading
    apply keepsAskNow rfl
    have basic := turn.kept.1.toLeadingBasic
    have down : TickTurn ingressDiscovery n t (u.standDown ingressDiscovery) := by
      refine ⟨leadingThen turn.kept ⟨standDownFine basic,fun _ _ => standDownBeside basic⟩,turn.hook,turn.ticker,?_⟩
      intro k starts
      refine ⟨fun w => ?_,.inl rfl⟩
      have same := (stoppedOther basic (basic.started k starts).2.2).1
      exact (congrFun same w).trans ((turn.given k starts).1 w)
    exact onStoppedKeeps down.kept fun v moved => tickLater down moved
  · exact fun _ => turn

theorem startsChange (turn : OwnsTurn ingressDiscovery n k ws t u) {r : Reconcilers} (sets : r.sets = u.sets)
    (assigned : r.assigned = u.assigned) (running : ∀ j, j ≠ k → r.running j = u.running j)
    (arrangements : ∀ j, j ≠ k → r.arrangements j = u.arrangements j) :
    (leadingContract ingressDiscovery n).guarantee t {u with toReconcilers := r} := by
  have fine := turn.kept.1
  have apart : ∀ j, r.assigned = some j → j ≠ k := by
    intro j same isNew
    rw [assigned,isNew] at same
    exact (fine.started k turn.starts).2.2 same
  have kept : (leadingContract ingressDiscovery n).guarantee u {u with toReconcilers := r} := by
    refine ⟨⟨⟨fine.ticks,?_,?_,?_,?_⟩,?_,?_⟩,fun m other => besideTicker other rfl turn.ticker turn.ticker⟩
    · intro j starts
      rw [sets,assigned]
      exact fine.started j starts
    · intro j same
      have other := apart j same
      rw [sets,arrangements j other]
      exact fine.known j (assigned ▸ same)
    · intro j w runs
      rcases Decidable.em (j = k) with rfl | other
      · exact .inr turn.starts
      · rw [assigned]
        exact fine.owned j w (congrFun (running j other) w ▸ runs)
    · intro j w same runs
      exact fine.watched j w (assigned ▸ same) (congrFun (running j (apart j same)) w ▸ runs)
    · intro j w same runs
      exact fine.led j w (assigned ▸ same) (congrFun (running j (apart j same)) w ▸ runs)
    · intro leading none
      exact absurd (none.symm.trans turn.starts) nofun
  exact leadingThen turn.kept kept

theorem startingLeading (k : Nat) : Starting (callbackHandler (answerLeading n))
    (callbackContract (leadingContract ingressDiscovery n)) k (StartsTurn ingressDiscovery n k)
    (TickTurn ingressDiscovery n) where
  seed turn := by
    apply keepsAskAwait rfl
    · exact turn.kept
    · intro v moved ok _
      have later := startsLater turn moved ok.2
      have answer : (callbackHandler (answerLeading n) () (.seed k) v).1 = v.next.onto (.ok ()) := rfl
      rw [answer,ok.1]
      exact later
  settles := by
    intro ws t u w turn
    apply keepsAskAwait rfl
    · exact turn.kept
    · intro v moved ok _
      have later := startsLater turn moved ok.2
      have answer : (callbackHandler (answerLeading n) () (.settle k w) v).1 = v.next.onto (.ok ()) := rfl
      rw [answer,ok.1]
      exact later
  begins := by
    intro ws t u w turn
    apply keepsAskNow rfl
    simp only [callbackHandler,answerLeading,Reconcilers.answer]
    cases built : u.built with
    | failed error =>
        obtain ⟨empty,doomed⟩ := turn.builds (by simp [built])
        refine ⟨turn.kept,turn.hook,turn.ticker,?_⟩
        intro k' starts
        have same : k = k' := Option.some.inj (turn.starts.symm.trans starts)
        subst same
        refine ⟨fun x => ?_,doomed⟩
        have only := turn.only x
        simpa [empty] using only
    | served =>
        have kept := startsChange turn.toOwnsTurn (r := u.setRunning k w true) rfl rfl
          (fun j other => by funext x; simp [Reconcilers.setRunning,other]) fun _ _ => rfl
        refine ⟨⟨kept,turn.hook,turn.ticker,turn.starts,?_⟩,fun fails => absurd built fails⟩
        intro x
        simp only [Reconcilers.setRunning,true_and,List.mem_append,List.mem_singleton]
        have only := turn.only x
        grind

theorem assignTurn {marker : Bool} (turn : OwnsTurn ingressDiscovery n k (watchers ingressDiscovery) v v)
    (stop : (v.arrangements k).stop = k) (ok : LeadingOk n v (.callback .upsert)) :
    TickTurn ingressDiscovery n v {v with marker := marker, assigned := some k, starting := none} := by
  obtain ⟨kept,hook,ticker,starts,only⟩ := turn
  have fine := kept.1
  refine ⟨⟨⟨⟨fine.ticks,nofun,?_,?_,?_⟩,?_,?_⟩,fun m other => besideTicker other rfl ticker ticker⟩,hook,ticker,nofun⟩
  · intro j same
    cases same
    exact ⟨(fine.started k starts).2.1,stop⟩
  · intro j w runs
    rcases fine.owned j w runs with assigned | starts'
    · exact absurd ((ok.2 j w assigned).symm.trans runs) nofun
    · exact .inl (starts.symm.trans starts')
  · intro j w same runs
    cases same
    exact (only w).mp runs
  · exact fun _ _ _ _ => ok.1
  · exact fun _ _ => .inr ⟨k,rfl,only⟩

theorem openTurn (turn : TickTurn ingressDiscovery n t u) (won : u.built = .served ∨ ∃ m, u.hooks m = some .standing) :
    StartsTurn ingressDiscovery n u.sets [] t
      {u with sets := u.sets + 1, candidate := u.candidate.set (.leading true), starting := some u.sets} := by
  have fine := turn.kept.1
  refine ⟨⟨leadingThen turn.kept ⟨⟨⟨fine.ticks,?_,?_,?_,fine.watched⟩,?_,nofun⟩,?_⟩,turn.hook,turn.ticker,rfl,?_⟩,?_⟩
  · intro k starts
    cases starts
    refine ⟨by simp [turn.ticker],Nat.lt_succ_self _,fun assigned => ?_⟩
    exact absurd (fine.known _ assigned).1 (Nat.lt_irrefl _)
  · exact fun k assigned => ⟨Nat.lt_succ_of_lt (fine.known k assigned).1,(fine.known k assigned).2⟩
  · intro k w runs
    rcases fine.owned k w runs with assigned | starts
    · exact .inl assigned
    · exact absurd (((turn.given k starts).1 w).symm.trans runs) nofun
  · exact fun _ _ _ _ => .inl rfl
  · exact fun m other => besideTicker other rfl turn.ticker turn.ticker
  · intro w
    simp only [List.not_mem_nil,iff_false]
    intro runs
    rcases fine.owned _ w runs with assigned | starts
    · exact absurd (fine.known _ assigned).1 (Nat.lt_irrefl _)
    · exact absurd (fine.started _ starts).2.1 (Nat.lt_irrefl _)
  · intro fails
    rcases won with served | standing
    · exact absurd served fails
    · exact ⟨rfl,.inr standing⟩

theorem arrangeKeeps {Q : Except Failure Nat → LeadingWorld → LeadingWorld → Prop}
    (turn : OwnsTurn ingressDiscovery n k (watchers ingressDiscovery) t u)
    (ended : ∀ v marker, OwnsTurn ingressDiscovery n k (watchers ingressDiscovery) v v → (v.arrangements k).stop = k →
      LeadingOk n v (.callback .upsert) → Q (.ok k) v {v with marker := marker}) :
    CallbackKeeps ingressDiscovery n (do
      let _ ← (ask (I := reconciling) (.arrange k) : Reconciling Unit)
      RedisWipeDetector.start k
      .pure k) Q t u := by
  apply keepsAskNow rfl
  apply keepsBind
  apply keepsAskNow rfl
  apply keepsIf
  · intro timed
    simp [callbackHandler,answerLeading,Reconcilers.answer] at timed
  · intro _
    apply keepsAskNow rfl
    apply keepsBind
    apply keepsAttempt
    have arranged : OwnsTurn ingressDiscovery n k (watchers ingressDiscovery) t {u with
        toReconcilers := (u.setArrangement k ⟨k,false,false,false⟩).setArrangement k
          (((u.setArrangement k ⟨k,false,false,false⟩).arrangements k).set (.timer true))} := by
      refine ⟨startsChange turn rfl rfl (fun _ _ => rfl) ?_,turn.hook,turn.ticker,turn.starts,turn.only⟩
      intro j other
      rw [Reconcilers.setArrangementOther _ _ other,Reconcilers.setArrangementOther _ _ other]
    apply keepsAskAwait rfl
    · exact arranged.kept
    · intro v moved ok _
      have later := ownsLater arranged moved
      have stop : (v.arrangements k).stop = k := by
        rw [(moved.2.kept arranged.ticker k arranged.starts).2]
        simp [callbackHandler,answerLeading,Reconcilers.answer,Arrangement.set]
      have finish := ended v (v.marker || v.next = .served || v.applied) later stop ok
      have answer : (callbackHandler (answerLeading n) () .upsert v).1 = v.next.onto (.ok ()) := rfl
      rw [answer]
      cases v.next with
      | served => exact finish
      | failed error => exact finish

theorem startLeadingKeepsTick (turn : TickTurn ingressDiscovery n t u)
    (won : u.candidate.leading = false → u.built = .served ∨ ∃ m, u.hooks m = some .standing) :
    LeadingKeeps ingressDiscovery n (contender.operating ingressDiscovery).startLeading
      (fun _ => TickTurn ingressDiscovery n) t u := by
  apply keepsAskNow rfl
  have looked : u.look n = u := by simp [LeadingWorld.look,turn.hook]
  change LeadingKeeps ingressDiscovery n (if u.candidate.leading then _ else _) _ t (u.look n)
  rw [looked]
  apply keepsIf
  · exact fun _ => turn
  · intro resting
    apply keepsAskNow rfl
    apply callbackKeeps
    apply keepsBind
    apply keepsBind
    apply startWatchesKeeps (startingLeading u.sets)
    · rfl
    · exact openTurn turn (won (Bool.eq_false_iff.mpr resting))
    · intro t u turn
      exact arrangeKeeps turn.toOwnsTurn fun v marker turn stop ok => assignTurn turn stop ok
    · exact fun _ _ _ turn => turn

def MayLead (u : LeadingWorld) : Prop :=
  u.candidate.leading = false → u.built = .served ∨ ∃ m, u.hooks m = some .standing

theorem minorTick (turn : TickTurn ingressDiscovery n t u) {field : CandidateField} (minor : field.Minor) :
    TickTurn ingressDiscovery n t (u.setField n field) := by
  obtain ⟨kept,hook,ticker,given⟩ := turn
  have fine := kept.1
  cases minor with
  | timer =>
      refine ⟨leadingThen kept ⟨⟨⟨fine.ticks,fine.started,fine.known,fine.owned,fine.watched⟩,fine.led,fine.full⟩,?_⟩,
        hook,ticker,given⟩
      exact fun m other => besideTicker other rfl ticker ticker
  | lastRenewedAt time =>
      refine ⟨leadingThen kept ⟨⟨⟨fine.ticks,fine.started,fine.known,fine.owned,fine.watched⟩,fine.led,fine.full⟩,?_⟩,
        hook,ticker,given⟩
      exact fun m other => besideTicker other rfl ticker ticker

theorem readTick (turn : TickTurn ingressDiscovery n t u) :
    LeadingKeeps ingressDiscovery n ((contender.operating ingressDiscovery).getLease .tick) (fun r t u =>
      TickTurn ingressDiscovery n t u ∧ match r with
        | .ok _ => True
        | .error error => error.refused = true → MayLead u) t u := by
  apply LeaderElection.getLeaseKeeps turn.kept
  intro v moved _ _
  have here := tickLater turn moved
  refine ⟨here.kept,fun x later ok _ => ⟨tickLater here later,?_⟩⟩
  change match leaseRead (x.next.onto (answerLeading n () (.send 0 .tick .read) v).1) with
    | .ok _ => True
    | .error error => error.refused = true → MayLead x
  have disciplined : makesLead false (x.next.onto (answerLeading n () (.send 0 .tick .read) v).1) = true → MayLead x := ok
  revert disciplined
  generalize x.next.onto (answerLeading n () (.send 0 .tick .read) v).1 = answer
  intro disciplined
  cases answer with
  | ok lease => trivial
  | error error =>
      by_cases missing : error.code = some 404
      · simp [leaseRead,missing]
      · simp only [leaseRead,missing,if_false]
        exact disciplined

theorem writeTick {spec : LeaseSpec} {r : LeaseRequest} (turn : TickTurn ingressDiscovery n t u)
    (writes : TickWrites spec r) :
    LeadingKeeps ingressDiscovery n ((contender.operating ingressDiscovery).request .tick r) (fun out t u =>
      TickTurn ingressDiscovery n t u ∧ (makesLead true out = true → MayLead u)) t u := by
  apply LeaderElection.requestKeeps turn.kept
  intro v moved _ _
  have here := tickLater turn moved
  have unchanged : (answerLeading n () (.send 0 .tick r) v).2 = v := by cases writes <;> rfl
  constructor
  · exact unchanged.symm ▸ here.kept
  · intro x later ok _
    have later : (leadingContract ingressDiscovery n).rely v x := unchanged ▸ later
    refine ⟨tickLater here later,?_⟩
    cases writes with
    | create => exact ok
    | replace lease => exact ok

theorem leadingOutline (contender : Contender) (ingressDiscovery : Bool) (n : Nat) :
    Outline (contender.operating ingressDiscovery) (answerLeading n) ReconcilingCall.awaits
      (leadingContract ingressDiscovery n) (TickTurn ingressDiscovery n) (fun _ _ => True) MayLead where
  now _ := rfl
  fields turn := by simp [answerLeading,LeadingWorld.look,turn.hook]
  set turn minor := minorTick turn minor
  won _ won minor := by
    cases minor <;> exact won
  read := readTick
  write := by
    intro t u seen spec turn _ _
    cases seen with
    | none => exact keepsMono (writeTick turn .create) fun _ _ _ => wonWrite
    | some lease => exact keepsMono (writeTick turn (.replace lease)) fun _ _ _ => wonWrite
  start := startLeadingKeepsTick
  stop := stopLeadingKeepsTick

theorem enterTick (turn : OutTurn ingressDiscovery n none t u) (idle : u.candidate.ticking = false) :
    TickTurn ingressDiscovery n t (u.setField n (.ticking true)) := by
  obtain ⟨kept,hook,free⟩ := turn
  have fine := kept.1
  have resting : u.ticker = none := by
    have none := fine.ticks.symm.trans idle
    simpa using none
  have nothing : u.starting = none := by
    cases starting : u.starting with
    | none => rfl
    | some k => simpa [resting] using (fine.started k starting).1
  refine ⟨leadingThen kept ⟨⟨⟨rfl,?_,fine.known,fine.owned,fine.watched⟩,fine.led,fine.full⟩,?_⟩,hook,rfl,?_⟩
  · exact fun k starts => absurd (nothing.symm.trans starts) nofun
  · intro m other
    have before : u.ticker ≠ some m := by simp [resting]
    have after : some n ≠ some m := fun same => other (Option.some.inj same).symm
    exact ⟨rfl,⟨fun ticks => absurd ticks after,fun ticks => absurd ticks before⟩,fun ticks => absurd ticks before,
      fun ticks => absurd ticks before,fun ticks => absurd ticks before⟩
  · exact fun k starts => absurd (nothing.symm.trans starts) nofun

theorem leaveTick (turn : TickTurn ingressDiscovery n t u) :
    OutTurn ingressDiscovery n none t (u.setField n (.ticking false)) := by
  obtain ⟨kept,hook,ticker,given⟩ := turn
  have fine := kept.1
  refine ⟨leadingThen kept ⟨⟨⟨rfl,nofun,fine.known,?_,fine.watched⟩,fine.led,?_⟩,?_⟩,hook,nofun⟩
  · intro k w runs
    rcases fine.owned k w runs with assigned | starts
    · exact .inl assigned
    · exact absurd (((given k starts).1 w).symm.trans runs) nofun
  · intro leading _
    cases starting : u.starting with
    | none => exact fine.full leading starting
    | some k =>
        rcases (given k starting).2 with resting | standing
        · exact absurd (resting.symm.trans leading) nofun
        · exact .inl standing
  · intro m other
    have before : u.ticker ≠ some m := fun ticks => other (Option.some.inj (ticks.symm.trans ticker))
    exact ⟨rfl,⟨nofun,fun ticks => absurd ticks before⟩,fun ticks => absurd ticks before,
      fun ticks => absurd ticks before,fun ticks => absurd ticks before⟩

theorem lookOut (turn : OutTurn ingressDiscovery n none t u) : (answerLeading n default (.fields 0) u).2 = u := by
  simp [answerLeading,LeadingWorld.look,turn.hook]

theorem tickQuietlyTurn (turn : OutTurn ingressDiscovery n none t u) :
    LeadingKeeps ingressDiscovery n (contender.operating ingressDiscovery).tickQuietly
      (fun _ => OutTurn ingressDiscovery n none) t u :=
  (leadingOutline contender ingressDiscovery n).tickQuietlyKeeps turn (lookOut turn) (enterTick turn) leaveTick

theorem startKeepsOut (turn : OutTurn ingressDiscovery n none t u) :
    LeadingKeeps ingressDiscovery n (contender.operating ingressDiscovery).start
      (fun _ => OutTurn ingressDiscovery n none) t u := by
  apply keepsAskNow rfl
  change LeadingKeeps ingressDiscovery n (if u.candidate.timer then _ else _) _ t (answerLeading n default (.fields 0) u).2
  rw [lookOut turn]
  apply keepsIf
  · exact fun _ => turn
  · intro idle
    apply keepsAskNow rfl
    apply keepsAskNow rfl
    apply tickQuietlyTurn
    have fine := turn.kept.1
    exact ⟨leadingThen turn.kept ⟨⟨⟨fine.ticks,fine.started,fine.known,fine.owned,fine.watched⟩,fine.led,fine.full⟩,
      fun m other => ⟨rfl,Iff.rfl,fun _ => rfl,fun _ _ _ => ⟨rfl,rfl⟩,fun _ => id⟩⟩,turn.hook,turn.free⟩

theorem hookFine {p : HookPhase} (fine : LeadingFine ingressDiscovery u)
    (idle : u.candidate.leading = true → u.hooks n ≠ some .standing) :
    LeadingFine ingressDiscovery (u.setHook n (some p)) := by
  refine ⟨⟨fine.ticks,fine.started,fine.known,fine.owned,fine.watched⟩,?_,?_⟩
  · exact fun _ _ _ _ => .inr ⟨n,by simp⟩
  · intro leading nothing
    rcases fine.full leading nothing with ⟨m,standing⟩ | full
    · have other : m ≠ n := fun same => idle leading (same ▸ standing)
      exact .inl ⟨m,(setHookOther other).trans standing⟩
    · exact .inr full

theorem begunOut (turn : OutTurn ingressDiscovery n none t u) :
    OutTurn ingressDiscovery n (some (if u.candidate.leading then .standing else .finishing)) t
      (((u.setField n (.stopped true)).setField n (.timer false)).look n) := by
  obtain ⟨kept,hook,free⟩ := turn
  have looked : ((u.setField n (.stopped true)).setField n (.timer false)).look n =
      {u.setHook n (some (if u.candidate.leading then .standing else .finishing)) with
        candidate := (u.candidate.set (.stopped true)).set (.timer false)} := by
    simp only [LeadingWorld.look,LeadingWorld.setField,LeadingWorld.setHook,Candidate.set,if_true]
    congr 1
    funext m
    split <;> rfl
  rw [looked]
  have notStanding : u.hooks n ≠ some .standing := by simp [hook]
  have fine := hookFine (p := if u.candidate.leading then .standing else .finishing) kept.1 fun _ => notStanding
  refine ⟨leadingThen kept ⟨⟨⟨fine.ticks,fine.started,fine.known,fine.owned,fine.watched⟩,fine.led,fine.full⟩,?_⟩,
    setHookSelf,free⟩
  intro m other
  exact ⟨setHookOther other,Iff.rfl,fun _ => rfl,fun _ _ _ => ⟨rfl,rfl⟩,fun _ => doomedHook notStanding⟩

theorem releaseOut (turn : OutTurn ingressDiscovery n phase t u) :
    LeadingKeeps ingressDiscovery n (contender.operating ingressDiscovery).release
      (fun _ => OutTurn ingressDiscovery n phase) t u := by
  apply keepsBind
  have read : LeadingKeeps ingressDiscovery n ((contender.operating ingressDiscovery).getLease .stop)
      (fun _ => OutTurn ingressDiscovery n phase) t u := by
    apply LeaderElection.getLeaseKeeps turn.kept
    intro v moved _ _
    have here := outLater turn moved
    exact ⟨here.kept,fun x later _ _ => outLater here later⟩
  apply keepsMono read
  intro read t u turn
  cases read with
  | error error => exact turn
  | ok seen =>
      simp only [ontoOk]
      split
      · apply LeaderElection.requestKeeps turn.kept
        intro v moved _ _
        have here := outLater turn moved
        exact ⟨here.kept,fun x later _ _ => outLater here later⟩
      · exact turn

theorem stopLeadingOut (turn : OutTurn ingressDiscovery n (some .standing) t u) :
    LeadingKeeps ingressDiscovery n (contender.operating ingressDiscovery).stopLeading
      (fun ended t u => ended = .ok () ∧ OutTurn ingressDiscovery n (some .finishing) t u) t u := by
  apply keepsAskNow rfl
  have looked : (answerLeading n default (.fields 0) u).2 = u.setHook n (some .finishing) := by
    simp [answerLeading,LeadingWorld.look,turn.hook]
  change LeadingKeeps ingressDiscovery n (if u.candidate.leading then _ else _) _ t (answerLeading n default (.fields 0) u).2
  rw [looked]
  apply keepsIf
  · intro leading
    apply keepsAskNow rfl
    have fine := turn.kept.1
    have basic : LeadingBasic ingressDiscovery (u.setHook n (some .finishing)) :=
      ⟨fine.ticks,fine.started,fine.known,fine.owned,fine.watched⟩
    have down : OutTurn ingressDiscovery n (some .finishing) t ((u.setHook n (some .finishing)).standDown ingressDiscovery) := by
      refine ⟨leadingThen turn.kept ⟨standDownFine basic,fun m other => ?_⟩,setHookSelf,turn.free⟩
      have beside : LeadingBeside m _ _ := standDownBeside basic
      exact ⟨beside.hook.trans (setHookOther other),beside.ticker,beside.starting,beside.kept,fun _ _ => .inl rfl⟩
    exact onStoppedKeeps down.kept fun v moved => ⟨rfl,outLater down moved⟩
  · intro resting
    have rests := Bool.eq_false_iff.mpr resting
    refine ⟨rfl,leadingThen turn.kept ⟨hookFine turn.kept.1 fun leading => absurd leading resting,?_⟩,setHookSelf,turn.free⟩
    exact fun m other => besideHook other fun _ => .inl rests

theorem stopOut (turn : OutTurn ingressDiscovery n none t u) :
    LeadingKeeps ingressDiscovery n (contender.operating ingressDiscovery).stop
      (fun ended t u => ended = .ok () ∧ OutTurn ingressDiscovery n (some .finishing) t u) t u := by
  have begun := begunOut turn
  apply keepsAskNow rfl
  apply keepsAskNow rfl
  apply keepsAskNow rfl
  apply keepsIf
  · intro leading
    have led : u.candidate.leading = true := leading
    rw [if_pos led] at begun
    apply keepsBind
    apply keepsAttempt
    apply keepsMono (releaseOut begun)
    intro released t u turn
    exact stopLeadingOut turn
  · intro standing
    have rests : ¬ u.candidate.leading = true := standing
    rw [if_neg rests] at begun
    exact ⟨rfl,begun⟩

theorem finishOut (turn : OutTurn ingressDiscovery n (some .finishing) v v) (ok : LeadingOk n v (.callback (.pause .shutdown))) :
    OutTurn ingressDiscovery n none v {v.setHook n none with toReconcilers := v.stoppedReconcilers ingressDiscovery} := by
  obtain ⟨⟨fine,_⟩,hook,free⟩ := turn
  have basic := fine.toLeadingBasic
  have notStanding : v.hooks n ≠ some .standing := by simp [hook]
  have still : ∀ k w, (v.stoppedReconcilers ingressDiscovery).assigned = some k →
      (v.stoppedReconcilers ingressDiscovery).running k w = false := by
    intro k w assigned
    exact stoppedAssigned basic (stoppedSame.2 ▸ assigned) w
  refine ⟨⟨⟨⟨fine.ticks,?_,?_,?_,?_⟩,?_,?_⟩,?_⟩,setHookSelf,free⟩
  · intro k starts
    obtain ⟨ticks,below,other⟩ := fine.started k starts
    exact ⟨ticks,stoppedSame.1.symm ▸ below,fun assigned => other (stoppedSame.2 ▸ assigned)⟩
  · intro k assigned
    obtain ⟨below,stop⟩ := fine.known k (stoppedSame.2 ▸ assigned)
    exact ⟨stoppedSame.1.symm ▸ below,(stoppedStop k).trans stop⟩
  · exact fun k w runs => .inr (stoppedOwned basic runs)
  · exact fun k w assigned runs => absurd ((still k w assigned).symm.trans runs) nofun
  · exact fun k w assigned runs => absurd ((still k w assigned).symm.trans runs) nofun
  · intro leading nothing
    rcases ok leading with starts | ⟨m,other,standing⟩
    · exact absurd nothing starts
    · exact .inl ⟨m,(setHookOther other).trans standing⟩
  · intro m other
    refine ⟨setHookOther other,Iff.rfl,fun _ => rfl,?_,fun _ => doomedHook notStanding⟩
    exact fun _ k starts => stoppedOther basic (fine.started k starts).2.2

theorem shutdownOut (turn : OutTurn ingressDiscovery n none t u) :
    LeadingKeeps ingressDiscovery n (shutdownHook contender ingressDiscovery)
      (fun _ => OutTurn ingressDiscovery n none) t u := by
  apply keepsBind
  apply keepsMono (stopOut turn)
  intro _ t u ⟨stopped,turn⟩
  subst stopped
  apply keepsAskAwait rfl turn.kept
  intro v moved ok _
  apply callbackKeeps
  apply stopReconcilersKeeps
  exact finishOut (outLater turn moved) ok

end Turns
section Runs
variable {contender : Contender} {ingressDiscovery : Bool} {pool : LeadingPool} {moves : List LeadingMove}

def Retired (n : Nat) (s : LeadingWorld) : Prop := s.hooks n = none ∧ s.ticker ≠ some n

structure LeadingHolds (ingressDiscovery : Bool) (pool : LeadingPool) : Prop where
  closing : pool.Closing answerLeading reconcilingAwaited (leadingContract ingressDiscovery) Retired
  fine : LeadingFine ingressDiscovery pool.state
  fresh : ∀ n, pool.threads.length ≤ n → Retired n pool.state

theorem leadingTrans (n : Nat) {a b c : LeadingWorld} (first : (leadingContract ingressDiscovery n).rely a b)
    (second : (leadingContract ingressDiscovery n).rely b c) : (leadingContract ingressDiscovery n).rely a c :=
  ⟨second.1,leadingBesideTrans first.2 second.2⟩

theorem leadingApart {n m : Nat} {a b : LeadingWorld} (other : n ≠ m)
    (kept : (leadingContract ingressDiscovery n).guarantee a b) : (leadingContract ingressDiscovery m).rely a b :=
  ⟨kept.1,kept.2 m (Ne.symm other)⟩

theorem retiredLater {m : Nat} {a b : LeadingWorld} (beside : LeadingBeside m a b) (retired : Retired m a) : Retired m b :=
  ⟨beside.hook.trans retired.1,fun ticks => retired.2 (beside.ticker.mp ticks)⟩

theorem leadingStable {n m : Nat} {a b : LeadingWorld} (other : n ≠ m)
    (kept : (leadingContract ingressDiscovery n).guarantee a b) (retired : Retired m a) : Retired m b :=
  retiredLater (kept.2 m (Ne.symm other)) retired

theorem leadingSpawn (holds : LeadingHolds ingressDiscovery pool) {p : Election reconciling Unit}
    (keeps : OutTurn ingressDiscovery pool.threads.length none pool.state pool.state →
      LeadingKeeps ingressDiscovery pool.threads.length p
        (fun _ => OutTurn ingressDiscovery pool.threads.length none) pool.state pool.state) :
    LeadingHolds ingressDiscovery (pool.spawn answerLeading reconcilingAwaited p) := by
  have fresh := holds.fresh pool.threads.length (Nat.le_refl _)
  have spawned := Pool.closingSpawn leadingTrans leadingApart leadingStable holds.closing
    (keepsMono (keeps ⟨leadingNow holds.fine,fresh.1,fresh.2⟩) fun r t u turn => ⟨turn.kept,turn.hook,turn.free⟩)
  refine ⟨spawned.1,spawned.2.1,?_⟩
  intro n beyond
  have longer : pool.threads.length < n := by
    simp only [Pool.spawn,List.length_append,List.length_singleton] at beyond
    omega
  exact retiredLater (spawned.2.2 n (by omega)) (holds.fresh n (by omega))

theorem leadingStepHolds {move : LeadingMove} (holds : LeadingHolds ingressDiscovery pool)
    (disciplined : move.Disciplined pool) :
    LeadingHolds ingressDiscovery (leadingStep contender ingressDiscovery pool move) := by
  cases move with
  | start => exact leadingSpawn holds startKeepsOut
  | tick => exact leadingSpawn holds tickQuietlyTurn
  | shutdown => exact leadingSpawn holds shutdownOut
  | proceed n c =>
      have fine := holds.fine
      have facing : LeadingFine ingressDiscovery (pool.state.facing c) :=
        ⟨⟨fine.ticks,fine.started,fine.known,fine.owned,fine.watched⟩,fine.led,fine.full⟩
      have beside : ∀ m, LeadingBeside m pool.state (pool.state.facing c) :=
        fun m => ⟨rfl,Iff.rfl,fun _ => rfl,fun _ _ _ => ⟨rfl,rfl⟩,fun _ => id⟩
      have faced := Pool.closingEdit (f := fun s => s.facing c) leadingTrans holds.closing (fun m => ⟨facing,beside m⟩)
        fun m retired => retiredLater (beside m) retired
      have proceeded := Pool.closingProceed (n := n) (w := ()) leadingTrans leadingApart leadingStable
        ⟨facing,leadingBesideSelf⟩ (leadingNow facing) faced disciplined
      refine ⟨proceeded.1,proceeded.2.1,?_⟩
      intro m beyond
      have before : Retired m (pool.state.facing c) := by
        simp only [leadingStep,Pool.proceedLength] at beyond
        exact retiredLater (beside m) (holds.fresh m beyond)
      simp only [leadingStep,Pool.proceedLength] at beyond ⊢
      rcases Decidable.em (n = m) with rfl | other
      · rw [Pool.proceedBeyond _ _ beyond]
        exact before
      · exact retiredLater (proceeded.2.2 m (Ne.symm other)) before

theorem leadingRunHolds (holds : LeadingHolds ingressDiscovery pool)
    (disciplined : LeadingDisciplined contender ingressDiscovery moves pool) :
    LeadingHolds ingressDiscovery (leadingRun contender ingressDiscovery moves pool) :=
  eachStepKeeps (LeadingHolds ingressDiscovery) (fun _ _ => leadingStepHolds) holds disciplined

def noOperators : LeadingPool := ⟨[],{}⟩

theorem noOperatorsHold : LeadingHolds ingressDiscovery noOperators :=
  ⟨Pool.closingEmpty _,⟨⟨rfl,nofun,nofun,nofun,nofun⟩,nofun,nofun⟩,fun _ _ => ⟨rfl,nofun⟩⟩

theorem retired (holds : LeadingHolds ingressDiscovery pool)
    (settled : ∀ p ∈ pool.threads, ∀ c next, p ≠ .call c next) (n : Nat) : Retired n pool.state :=
  Pool.closingSettled holds.closing settled holds.fresh n

theorem settledLeads (holds : LeadingHolds ingressDiscovery pool)
    (settled : ∀ p ∈ pool.threads, ∀ c next, p ≠ .call c next) : LeadsReconciling ingressDiscovery pool.state := by
  have fine := holds.fine
  have gone := retired holds settled
  have nothing : pool.state.starting = none := by
    cases starting : pool.state.starting with
    | none => rfl
    | some k =>
        obtain ⟨n,ticks⟩ := Option.isSome_iff_exists.mp (fine.started k starting).1
        exact absurd ticks (gone n).2
  have owned : ∀ k w, pool.state.running k w = true → pool.state.assigned = some k := by
    intro k w runs
    rcases fine.owned k w runs with assigned | starts
    · exact assigned
    · exact absurd (nothing.symm.trans starts) nofun
  constructor
  · intro leading
    rcases fine.full leading nothing with ⟨n,standing⟩ | ⟨k,assigned,full⟩
    · exact absurd ((gone n).1.symm.trans standing) nofun
    · refine ⟨k,fun j w => ⟨fun runs => ?_,fun ⟨same,watched⟩ => same ▸ (full w).mpr watched⟩⟩
      have same : k = j := Option.some.inj (assigned.symm.trans (owned j w runs))
      subst same
      exact ⟨rfl,(full w).mp runs⟩
  · intro resting k w
    cases runs : pool.state.running k w with
    | false => rfl
    | true =>
        rcases fine.led k w (owned k w runs) runs with leading | ⟨n,going⟩
        · exact absurd (resting.symm.trans leading) nofun
        · exact absurd (gone n).1 going

end Runs

/- In every disciplined run, whenever no tick and no stop is under way, the pod leads if and only if its
full set of reconcilers runs. -/
theorem leadsIffReconciles (contender : Contender) (ingressDiscovery : Bool) (moves : List LeadingMove)
    (disciplined : LeadingDisciplined contender ingressDiscovery moves noOperators)
    (settled : ∀ p ∈ (leadingRun contender ingressDiscovery moves noOperators).threads, ∀ c next, p ≠ .call c next) :
    LeadsReconciling ingressDiscovery (leadingRun contender ingressDiscovery moves noOperators).state :=
  settledLeads (leadingRunHolds noOperatorsHold disciplined) settled

def onward (n : Nat) : LeadingMove := .proceed n ⟨.served,.served,none,0⟩

def leadAndShutDown : List LeadingMove := .start :: List.replicate 11 (onward 0) ++ .shutdown :: List.replicate 4 (onward 1)

theorem ledAndShutDown : LeadingDisciplined passmowerPod false leadAndShutDown noOperators ∧
    LeadsReconciling false (leadingRun passmowerPod false leadAndShutDown noOperators).state := by
  have disciplined : LeadingDisciplined passmowerPod false leadAndShutDown noOperators := by
    exact ⟨trivial,trivial,nofun,trivial,fun _ _ => .inl rfl,⟨rfl,rfl⟩,⟨rfl,rfl⟩,⟨rfl,rfl⟩,⟨rfl,rfl⟩,⟨rfl,rfl⟩,⟨rfl,rfl⟩,
      ⟨.inl rfl,nofun⟩,trivial,trivial,trivial,trivial,nofun,trivial⟩
  have ended : (leadingRun passmowerPod false leadAndShutDown noOperators).threads = [.pure (),.pure ()] := by rfl
  refine ⟨disciplined,leadsIffReconciles passmowerPod false leadAndShutDown disciplined ?_⟩
  rw [ended]
  simp

def leadAndFail : List LeadingMove :=
  .start :: List.replicate 7 (onward 0) ++ .proceed 0 ⟨.failed {},.served,none,0⟩ ::
    .tick :: List.replicate 4 (.proceed 1 ⟨.served,.served,some ⟨{holderIdentity := some "passmower-0"},1⟩,0⟩)

/- It goes on leading, with three of its operators. -/
theorem ledHalfway :
    (leadingRun passmowerPod false leadAndFail noOperators).threads = [.pure (),.pure ()] ∧
    (leadingRun passmowerPod false leadAndFail noOperators).state.candidate.leading = true ∧
    (leadingRun passmowerPod false leadAndFail noOperators).state.assigned = none ∧
    ¬ LeadsReconciling false (leadingRun passmowerPod false leadAndFail noOperators).state := by
  refine ⟨by rfl,rfl,rfl,fun reconciling => ?_⟩
  obtain ⟨set,only⟩ := reconciling.leads rfl
  have first := (only 0 .clientOperator).mp rfl
  have missing := (only 0 .scimConnectionOperator).mpr ⟨first.1,by decide⟩
  cases missing

end Passmower
