import Passmower.Reconcilers
import Passmower.Resumption.Stepping

/-! `restartOnRedisWipe` over whole runs: wipes, checks whose steps may fail or take their time, and the
stop that may come at any point of a restart. -/
namespace Passmower
open JavaScript Resumption Program

/- `born` tells how many wipes there had been when a set was opened, `observed` how many the last check
that missed the marker knows of. `arranged` says that the first start has succeeded, and `busy` is the
thread in charge of the watchers: the first start, and after it a check that is under way. -/
structure WipedWorld extends Reconcilers where
  wipes : Nat := 0
  born : Nat → Nat := fun _ => 0
  observed : Nat := 0
  arranged : Bool := false
  busy : Option Nat := some 0

namespace WipedWorld
variable (s : WipedWorld)

def arrangement : Arrangement := s.arrangements 0

def wiped : WipedWorld := {s with wipes := s.wipes + 1, marker := false}

def noted (n : Nat) : reconciling.Call → WipedWorld
  | .openSet => {s with born := fun k => if k = s.sets then s.wipes else s.born k}
  | .find => if s.next = .served ∧ s.marker = false then {s with observed := s.wipes} else s
  | .arrange _ => {s with arranged := true, busy := none}
  | .change _ (.running true) => {s with busy := some n}
  | .change _ (.running false) => {s with busy := none}
  | _ => s

end WipedWorld

def answerWiped (n : Nat) : Handler reconciling Unit WipedWorld := fun _ c s =>
  ((s.answer c).1,{s.noted n c with toReconcilers := (s.answer c).2})

inductive WipedMove where
  | wipe
  | check
  | stop
  | proceed (n : Nat) (outcome : Outcome) (applied : Bool) (built : Outcome)
  deriving DecidableEq, Repr

abbrev WipedPool := Pool reconciling Failure WipedWorld

section Moves
variable (ingressDiscovery : Bool)

def arranging : Reconciling Unit := do
  let _ ← restartOnRedisWipe ingressDiscovery
  .pure ()

def beginArrangement (built : Outcome) : WipedPool :=
  (⟨[],{built := built}⟩ : WipedPool).spawn answerWiped ReconcilingCall.awaits (arranging ingressDiscovery)

/- Checks are made by the detector's timer; a stop is there once the arrangement is. -/
def wipedStep (pool : WipedPool) : WipedMove → WipedPool
  | .wipe => pool.edit WipedWorld.wiped
  | .check =>
      if pool.state.arrangement.timer then
        pool.spawn answerWiped ReconcilingCall.awaits (RedisWipeDetector.checkQuietly 0 (onWipe ingressDiscovery 0))
      else pool
  | .stop =>
      if pool.state.arranged then pool.spawn answerWiped ReconcilingCall.awaits (stopArrangement ingressDiscovery 0)
      else pool
  | .proceed n outcome applied built =>
      (pool.edit fun s => {s with next := outcome, applied := applied, built := built}).proceed answerWiped
        ReconcilingCall.awaits n ()

def wipedRun (moves : List WipedMove) (pool : WipedPool) : WipedPool := moves.foldl (wipedStep ingressDiscovery) pool

end Moves

/- In a restart no operator fails once the first of its set runs; that first one fails only after the
stop, and so does the write of the marker, unless the watchers were started after the wipe in question. -/
def WipedOk (n : Nat) (s : WipedWorld) : reconciling.Call → Prop
  | .seed _ | .settle _ _ => s.arranged = true → s.next = .served ∧ s.built = .served
  | .upsert => s.busy = some n → s.arrangement.stopped = true ∨
      if s.next = .served then s.built = .served else s.observed ≤ s.born s.arrangement.stop
  | _ => True

def WipedMove.Disciplined (pool : WipedPool) : WipedMove → Prop
  | .proceed n outcome applied built =>
      Pool.Ready WipedOk n (pool.edit fun s => {s with next := outcome, applied := applied, built := built})
  | _ => True

def WipedDisciplined (ingressDiscovery : Bool) : List WipedMove → WipedPool → Prop :=
  EachStep (wipedStep ingressDiscovery) fun pool move => move.Disciplined pool

section Watched
variable (ingressDiscovery : Bool)

structure Restarted (s : WipedWorld) : Prop where
  going : s.arrangement.stopped = false →
    ∃ set, s.RunsOnly ingressDiscovery set ∧ s.observed ≤ s.born set
  ended : s.arrangement.stopped = true → s.Quiet

structure Arranged (s : WipedWorld) : Prop where
  going : s.arrangement.stopped = false → s.RunsOnly ingressDiscovery s.arrangement.stop
  ended : s.arrangement.stopped = true → s.Quiet

def Recent (s : WipedWorld) : Prop := s.arrangement.stopped = false → s.observed ≤ s.born s.arrangement.stop

structure Opened (k : Nat) (ws : List Watcher) (s : WipedWorld) : Prop where
  only : ∀ j w, s.running j w = true ↔ j = k ∧ w ∈ ws
  young : s.observed ≤ s.born k
  below : k < s.sets
  other : s.arranged = true → s.arrangement.stop ≠ k

structure Beside (s t : WipedWorld) : Prop where
  stop : t.arrangement.stop = s.arrangement.stop
  observed : t.observed = s.observed
  born : t.born = s.born
  sets : t.sets = s.sets
  arranged : t.arranged = s.arranged
  running : (t.arrangement.stopped = s.arrangement.stopped ∧ t.running = s.running) ∨
    (s.arranged = true ∧ t.arrangement.stopped = true ∧
      t.running = (s.halted s.arrangement.stop (watchers ingressDiscovery)).running)

structure WipedFine (s : WipedWorld) : Prop where
  seen : s.observed ≤ s.wipes
  older : s.arranged = true → s.arrangement.stop < s.sets
  timed : s.arrangement.timer = true → s.arranged = true
  guarded : ∀ n, s.busy = some n → s.arranged = true → s.arrangement.running = true
  resting : s.busy = none → s.arrangement.running = false
  idle : s.busy = none → Arranged ingressDiscovery s ∧ Recent s

def wipedContract (n : Nat) : Contract reconciling WipedWorld where
  ok := WipedOk n
  rely s t := WipedFine ingressDiscovery t ∧ (t.busy = some n ↔ s.busy = some n) ∧
    (s.busy = some n → Beside ingressDiscovery s t)
  guarantee s t := WipedFine ingressDiscovery t ∧ ∀ m, m ≠ n → (t.busy = some m ↔ s.busy = some m) ∧
    (s.busy = some m → Beside ingressDiscovery s t)

end Watched

section Beside
variable {ingressDiscovery : Bool} {s t u : WipedWorld} {k : Nat} {ws : List Watcher}

theorem besideTrans (first : Beside ingressDiscovery s t) (second : Beside ingressDiscovery t u) :
    Beside ingressDiscovery s u where
  stop := second.stop.trans first.stop
  observed := second.observed.trans first.observed
  born := second.born.trans first.born
  sets := second.sets.trans first.sets
  arranged := second.arranged.trans first.arranged
  running := by
    rcases second.running with ⟨stopped,running⟩ | ⟨arranged,stopped,running⟩
    · rcases first.running with ⟨stopped',running'⟩ | ⟨arranged',stopped',running'⟩
      · exact .inl ⟨stopped.trans stopped',running.trans running'⟩
      · exact .inr ⟨arranged',stopped.trans stopped',running.trans running'⟩
    · refine .inr ⟨first.arranged ▸ arranged,stopped,running.trans ?_⟩
      simp only [Reconcilers.halted,first.stop]
      funext j w
      rcases first.running with ⟨_,running'⟩ | ⟨_,_,running'⟩
      · rw [running']
      · rw [running']
        simp only [Reconcilers.halted]
        split <;> rfl

theorem arrangedAs (arranged : Arranged ingressDiscovery s) (stop : t.arrangement.stop = s.arrangement.stop)
    (stopped : t.arrangement.stopped = s.arrangement.stopped) (running : t.running = s.running) :
    Arranged ingressDiscovery t := by
  constructor
  · intro going k w
    rw [running,stop]
    exact arranged.going (stopped ▸ going) k w
  · intro ended k w
    rw [running]
    exact arranged.ended (stopped ▸ ended) k w

theorem arrangedLater (arranged : Arranged ingressDiscovery s) (beside : Beside ingressDiscovery s t) :
    Arranged ingressDiscovery t := by
  rcases beside.running with ⟨stopped,running⟩ | ⟨_,stopped,running⟩
  · exact arrangedAs arranged beside.stop stopped running
  · constructor
    · intro going
      rw [stopped] at going
      cases going
    · intro _ k w
      rw [running]
      simp only [Reconcilers.halted]
      split
      · rfl
      · rename_i outside
        cases ended : s.arrangement.stopped with
        | true => exact arranged.ended ended k w
        | false =>
            cases runs : s.running k w with
            | false => rfl
            | true => exact absurd ((arranged.going ended k w).mp runs) outside

theorem recentLater (recent : Recent s) (beside : Beside ingressDiscovery s t) : Recent t := by
  intro going
  rw [beside.observed,beside.born,beside.stop]
  rcases beside.running with ⟨stopped,_⟩ | ⟨_,stopped,_⟩
  · exact recent (stopped ▸ going)
  · rw [stopped] at going
    cases going

theorem openedLater (opened : Opened k ws s) (beside : Beside ingressDiscovery s t) : Opened k ws t where
  young := by
    rw [beside.observed,beside.born]
    exact opened.young
  below := beside.sets ▸ opened.below
  other := by
    rw [beside.arranged,beside.stop]
    exact opened.other
  only := by
    intro j w
    rcases beside.running with ⟨_,running⟩ | ⟨arranged,_,running⟩
    · rw [running]
      exact opened.only j w
    · rw [running]
      simp only [Reconcilers.halted]
      split
      · rename_i within
        have other := opened.other arranged
        simp [within,other]
      · exact opened.only j w

end Beside
section Threads
variable {ingressDiscovery b : Bool} {n k : Nat} {t u v : WipedWorld} {ws : List Watcher} {P : WipedWorld → Prop}

abbrev WipedKeeps (ingressDiscovery : Bool) (n : Nat) {α : Type} (program : Reconciling α)
    (Q : Except Failure α → WipedWorld → WipedWorld → Prop) (t u : WipedWorld) : Prop :=
  Keeps (answerWiped n) ReconcilingCall.awaits (wipedContract ingressDiscovery n) program Q t u

structure BusyTurn (ingressDiscovery : Bool) (n : Nat) (P : WipedWorld → Prop) (t u : WipedWorld) : Prop where
  mine : ∀ m, m ≠ n → t.busy ≠ some m
  fine : WipedFine ingressDiscovery u
  busy : u.busy = some n
  here : P u

structure FreeTurn (ingressDiscovery : Bool) (n : Nat) (t u : WipedWorld) : Prop where
  kept : (wipedContract ingressDiscovery n).guarantee t u
  free : u.busy ≠ some n

theorem busyKept (turn : BusyTurn ingressDiscovery n P t u) : (wipedContract ingressDiscovery n).guarantee t u := by
  refine ⟨turn.fine,fun m other => ⟨?_,fun busy => absurd busy (turn.mine m other)⟩⟩
  constructor
  · intro busy
    rw [turn.busy] at busy
    exact absurd (Option.some.inj busy).symm other
  · intro busy
    exact absurd busy (turn.mine m other)

theorem busyLater (stable : ∀ {s s'}, P s → Beside ingressDiscovery s s' → P s')
    (turn : BusyTurn ingressDiscovery n P t u) (moved : (wipedContract ingressDiscovery n).rely u v) :
    BusyTurn ingressDiscovery n P v v := by
  have busy := moved.2.1.mpr turn.busy
  constructor
  · intro m other mine
    rw [busy] at mine
    exact other (Option.some.inj mine).symm
  · exact moved.1
  · exact busy
  · exact stable turn.here (moved.2.2 turn.busy)

theorem freeLater (turn : FreeTurn ingressDiscovery n t u) (moved : (wipedContract ingressDiscovery n).rely u v) :
    FreeTurn ingressDiscovery n v v := by
  have free : v.busy ≠ some n := fun busy => turn.free (moved.2.1.mp busy)
  refine ⟨⟨moved.1,fun m _ => ⟨Iff.rfl,fun _ => ?_⟩⟩,free⟩
  exact ⟨rfl,rfl,rfl,rfl,rfl,.inl ⟨rfl,rfl⟩⟩

def Builds (ws : List Watcher) (s : WipedWorld) : Prop :=
  s.arranged = true → s.built ≠ .served → ws = [] ∧ s.arrangement.stopped = true

def Given (s : WipedWorld) : Prop := s.arranged = true → s.arrangement.stopped = true ∧ s.Quiet

abbrev StartTurn (ingressDiscovery : Bool) (n k : Nat) (b : Bool) (ws : List Watcher) : WipedWorld → WipedWorld → Prop :=
  BusyTurn ingressDiscovery n fun s => (s.arranged = b ∧ Opened k ws s) ∧ Builds ws s

abbrev GivenTurn (ingressDiscovery : Bool) (n : Nat) (b : Bool) : WipedWorld → WipedWorld → Prop :=
  BusyTurn ingressDiscovery n fun s => s.arranged = b ∧ Given s

theorem wipedHolds : HoldsReconcilers (answerWiped n) WipedWorld.toReconcilers
    (fun s r => {s with toReconcilers := r}) where
  same _ := rfl
  got _ _ := rfl
  again _ _ _ := rfl
  halt _ _ _ := rfl

theorem startLater {ws' : List Watcher} (turn : StartTurn ingressDiscovery n k b ws' t u)
    (moved : (wipedContract ingressDiscovery n).rely u v) (builds : Builds ws v) (same : ws' = ws) :
    StartTurn ingressDiscovery n k b ws v v := by
  have here := busyLater (P := fun s => s.arranged = b ∧ Opened k ws' s)
    (fun here beside => ⟨beside.arranged.trans here.1,openedLater here.2 beside⟩)
    ⟨turn.mine,turn.fine,turn.busy,turn.here.1⟩ moved
  subst same
  exact ⟨here.mine,here.fine,here.busy,here.here,builds⟩

theorem answeredKeeps {c : reconciling.Call} {p : Reconciling Unit} (turn : StartTurn ingressDiscovery n k b ws t u)
    (ok : ∀ v, WipedOk n v c → v.arranged = true → v.next = .served ∧ v.built = .served)
    (asks : ∀ Q, (∀ v, (wipedContract ingressDiscovery n).rely u v → WipedOk n v c →
      Q (v.next.onto (.ok ())) v v) → (wipedContract ingressDiscovery n).guarantee t u →
      WipedKeeps ingressDiscovery n p Q t u) :
    WipedKeeps ingressDiscovery n p (Reached (StartTurn ingressDiscovery n k b ws)
      (GivenTurn ingressDiscovery n b)) t u := by
  apply asks
  · intro v moved ready
    have builds : Builds ws v := fun arranged fails => absurd (ok v ready arranged).2 fails
    have here := startLater turn moved builds rfl
    cases next : v.next with
    | served => exact here
    | failed error =>
        refine ⟨here.mine,here.fine,here.busy,here.here.1.1,?_⟩
        intro arranged
        have served := (ok v ready arranged).1
        rw [next] at served
        cases served
  · exact busyKept turn

theorem startingWiped (k : Nat) : Starting (answerWiped n) (wipedContract ingressDiscovery n) k
    (StartTurn ingressDiscovery n k b) (GivenTurn ingressDiscovery n b) where
  seed turn := by
    apply answeredKeeps (c := .seed k) turn (fun v ok => ok)
    intro Q owed kept
    apply keepsAskAwait rfl kept
    intro v moved ok _
    have answer := owed v moved ok
    simp only [answerWiped,Reconcilers.answer]
    revert answer
    cases v.next <;> exact id
  settles := by
    intro ws t u w turn
    apply answeredKeeps (c := .settle k w) turn (fun v ok => ok)
    intro Q owed kept
    apply keepsAskAwait rfl kept
    intro v moved ok _
    have answer := owed v moved ok
    simp only [answerWiped,Reconcilers.answer]
    revert answer
    cases v.next <;> exact id
  begins := by
    intro ws t u w turn
    apply keepsAskNow rfl
    simp only [answerWiped,Reconcilers.answer]
    cases built : u.built with
    | failed error =>
        refine ⟨turn.mine,turn.fine,turn.busy,turn.here.1.1,?_⟩
        intro arranged
        obtain ⟨empty,stopped⟩ := turn.here.2 arranged (by simp [built])
        refine ⟨stopped,fun j w => ?_⟩
        have only := turn.here.1.2.only j w
        simp only [empty,List.not_mem_nil,and_false] at only
        simpa using only
    | served =>
        have opened := turn.here.1.2
        refine ⟨turn.mine,?_,turn.busy,⟨turn.here.1.1,?_⟩,?_⟩
        · exact ⟨turn.fine.seen,turn.fine.older,turn.fine.timed,turn.fine.guarded,turn.fine.resting,
            fun idle => absurd (idle.symm.trans turn.busy) nofun⟩
        · refine ⟨?_,opened.young,opened.below,opened.other⟩
          intro j x
          simp only [Reconcilers.setRunning,List.mem_append,List.mem_singleton]
          have only := opened.only j x
          grind
        · exact fun _ fails => absurd built fails

abbrev RunningTurn (ingressDiscovery : Bool) (n : Nat) : WipedWorld → WipedWorld → Prop :=
  BusyTurn ingressDiscovery n fun s => s.arranged = true ∧ Arranged ingressDiscovery s ∧ Recent s

theorem quietHalted {s : WipedWorld} (arranged : Arranged ingressDiscovery s) (j : Nat) (w : Watcher) :
    (s.halted s.arrangement.stop (watchers ingressDiscovery)).running j w = false := by
  simp only [Reconcilers.halted]
  split
  · rfl
  · rename_i outside
    cases ended : s.arrangement.stopped with
    | true => exact arranged.ended ended j w
    | false =>
        cases runs : s.running j w with
        | false => rfl
        | true => exact absurd ((arranged.going ended j w).mp runs) outside

theorem givenRunning (turn : GivenTurn ingressDiscovery n true t u) : RunningTurn ingressDiscovery n t u := by
  obtain ⟨arranged,given⟩ := turn.here
  obtain ⟨stopped,quiet⟩ := given arranged
  refine ⟨turn.mine,turn.fine,turn.busy,arranged,⟨?_,fun _ => quiet⟩,?_⟩
  · intro going
    rw [stopped] at going
    cases going
  · intro going
    rw [stopped] at going
    cases going

theorem onWipeKeeps (turn : BusyTurn ingressDiscovery n (fun s => s.arranged = true ∧ Arranged ingressDiscovery s ∧
      (s.built ≠ .served → s.arrangement.stopped = true)) t u) :
    WipedKeeps ingressDiscovery n (onWipe ingressDiscovery 0) (fun _ => RunningTurn ingressDiscovery n) t u := by
  obtain ⟨arranged,running,builds⟩ := turn.here
  apply keepsAskNow rfl
  apply keepsBind
  apply haltKeeps wipedHolds
  apply keepsBind
  apply startWatchesKeeps (startingWiped (b := true) u.sets)
  · rfl
  · -- The new set is opened, and nothing runs.
    refine ⟨turn.mine,?_,turn.busy,⟨arranged,?_⟩,fun _ fails => ⟨rfl,builds fails⟩⟩
    · refine ⟨turn.fine.seen,fun arranged => Nat.lt_succ_of_lt (turn.fine.older arranged),turn.fine.timed,
        turn.fine.guarded,turn.fine.resting,fun idle => absurd (turn.busy.symm.trans idle) (Option.some_ne_none n)⟩
    · refine ⟨?_,?_,Nat.lt_succ_self _,fun arranged => Nat.ne_of_lt (turn.fine.older arranged)⟩
      · intro j w
        have quiet := quietHalted running j w
        simp only [List.not_mem_nil,and_false,iff_false,Bool.not_eq_true]
        exact quiet
      · have young : (if u.sets = u.sets then u.wipes else u.born u.sets) = u.wipes := if_pos rfl
        exact Nat.le_trans turn.fine.seen (Nat.le_of_eq young.symm)
  · intro t u turn
    obtain ⟨⟨arranged,opened⟩,_⟩ := turn.here
    apply keepsAskNow rfl
    apply keepsIf
    · intro stopped
      have ended : u.arrangement.stopped = true := stopped
      apply haltKeeps wipedHolds
      refine ⟨turn.mine,?_,turn.busy,arranged,⟨?_,?_⟩,?_⟩
      · exact ⟨turn.fine.seen,turn.fine.older,turn.fine.timed,turn.fine.guarded,turn.fine.resting,
          fun idle => absurd (turn.busy.symm.trans idle) (Option.some_ne_none n)⟩
      · exact fun going => Bool.noConfusion (ended.symm.trans going)
      · intro _ j w
        have only := opened.only j w
        simp only [answerWiped,WipedWorld.noted,Reconcilers.halted,Reconcilers.answer]
        split
        · rfl
        · rename_i outside
          cases runs : u.running j w with
          | false => rfl
          | true => exact absurd (only.mp runs) outside
      · exact fun going => Bool.noConfusion (ended.symm.trans going)
    · intro going
      have continues : u.arrangement.stopped = false := Bool.eq_false_iff.mpr going
      apply keepsAskNow rfl
      refine ⟨turn.mine,?_,turn.busy,arranged,⟨?_,?_⟩,?_⟩
      · refine ⟨turn.fine.seen,fun _ => opened.below,turn.fine.timed,turn.fine.guarded,turn.fine.resting,
          fun idle => absurd (turn.busy.symm.trans idle) (Option.some_ne_none n)⟩
      · exact fun _ j w => opened.only j w
      · exact fun ended => Bool.noConfusion (continues.symm.trans ended)
      · exact fun _ => opened.young
  · exact fun _ _ _ turn => givenRunning turn

theorem markKeeps (missed : BusyTurn ingressDiscovery n (fun s => s.arranged = true ∧ Arranged ingressDiscovery s) t u) :
    WipedKeeps ingressDiscovery n RedisWipeDetector.mark
      (Reached (BusyTurn ingressDiscovery n fun s => s.arranged = true ∧ Arranged ingressDiscovery s ∧
        (s.built ≠ .served → s.arrangement.stopped = true)) (RunningTurn ingressDiscovery n)) t u := by
  apply keepsAskAwait rfl (busyKept missed)
  intro v moved ok _
  have marking := busyLater (P := fun s => s.arranged = true ∧ Arranged ingressDiscovery s)
    (fun here beside => ⟨beside.arranged.trans here.1,arrangedLater here.2 beside⟩) missed moved
  have disciplined := ok marking.busy
  have fine : WipedFine ingressDiscovery (answerWiped n () .upsert v).2 :=
    ⟨marking.fine.seen,marking.fine.older,marking.fine.timed,marking.fine.guarded,marking.fine.resting,
      fun idle => absurd (idle.symm.trans marking.busy) nofun⟩
  have arranged : Arranged ingressDiscovery (answerWiped n () .upsert v).2 := arrangedAs marking.here.2 rfl rfl rfl
  have answer : (answerWiped n () .upsert v).1 = v.next.onto (.ok ()) := rfl
  rw [answer]
  cases next : v.next with
  | failed error =>
      refine ⟨marking.mine,fine,marking.busy,marking.here.1,arranged,?_⟩
      intro going
      rcases disciplined with stopped | young
      · exact absurd (stopped.symm.trans going) nofun
      · rw [if_neg (by simp [next])] at young
        exact young
  | served =>
      refine ⟨marking.mine,fine,marking.busy,marking.here.1,arranged,?_⟩
      intro fails
      rcases disciplined with stopped | built
      · exact stopped
      · rw [if_pos next] at built
        exact absurd built fails

theorem bodyKeeps (turn : RunningTurn ingressDiscovery n t u) :
    WipedKeeps ingressDiscovery n (RedisWipeDetector.body (onWipe ingressDiscovery 0))
      (fun _ => RunningTurn ingressDiscovery n) t u := by
  apply keepsAskAwait rfl (busyKept turn)
  intro v moved _ _
  have here : RunningTurn ingressDiscovery n v v := by
    apply busyLater _ turn moved
    intro s s' here beside
    exact ⟨beside.arranged.trans here.1,arrangedLater here.2.1 beside,recentLater here.2.2 beside⟩
  have answer : (answerWiped n () .find v).1 = v.next.onto (.ok v.marker) := rfl
  have unchanged : (v.next = .served → v.marker = true) → (answerWiped n () .find v).2 = v := by
    intro present
    simp only [answerWiped,Reconcilers.answer,WipedWorld.noted]
    rw [if_neg]
    intro missed
    exact absurd (missed.2.symm.trans (present missed.1)) nofun
  rw [answer]
  cases next : v.next with
  | failed error =>
      rw [unchanged (by simp [next])]
      exact here
  | served =>
      cases marker : v.marker with
      | true =>
          rw [unchanged fun _ => marker]
          exact here
      | false =>
          -- The wipe is known from here on.
          have observed : (answerWiped n () .find v).2 = {v with observed := v.wipes} := by
            simp only [answerWiped,Reconcilers.answer,WipedWorld.noted]
            rw [if_pos ⟨next,marker⟩]
          rw [observed]
          change WipedKeeps ingressDiscovery n (do
            RedisWipeDetector.mark
            onWipe ingressDiscovery 0
            .pure true) _ _ _
          apply keepsBind
          apply keepsMono (markKeeps ?_)
          · intro marked t u reached
            cases marked with
            | error _ => exact reached
            | ok _ =>
                apply keepsBind
                apply keepsMono (onWipeKeeps reached)
                intro ended t u turn
                cases ended with
                | ok _ => exact turn
                | error _ => exact turn
          · refine ⟨here.mine,?_,here.busy,here.here.1,arrangedAs here.here.2.1 rfl rfl rfl⟩
            exact ⟨Nat.le_refl _,here.fine.older,here.fine.timed,here.fine.guarded,here.fine.resting,
              fun idle => absurd (idle.symm.trans here.busy) nofun⟩

theorem checkKeeps (turn : FreeTurn ingressDiscovery n t u) (same : t = u) (timed : u.arrangement.timer = true) :
    WipedKeeps ingressDiscovery n (RedisWipeDetector.checkQuietly 0 (onWipe ingressDiscovery 0))
      (fun _ => FreeTurn ingressDiscovery n) t u := by
  subst same
  apply keepsBind
  apply keepsAttempt
  apply keepsAskNow rfl
  apply keepsIf
  · exact fun _ => turn
  · intro idle
    have arranged := turn.kept.1.timed timed
    have rests : t.busy = none := by
      cases busy : t.busy with
      | none => rfl
      | some m => exact absurd (turn.kept.1.guarded m busy arranged) idle
    have going := turn.kept.1.idle rests
    apply keepsAskNow rfl
    apply keepsBind
    apply keepsAttempt
    apply keepsMono (bodyKeeps ?_)
    · intro ended t u turn
      apply keepsAskNow rfl
      have free : FreeTurn ingressDiscovery n t (answerWiped n default (.change 0 (.running false)) u).2 := by
        refine ⟨⟨?_,fun m other => ⟨?_,fun busy => absurd busy (turn.mine m other)⟩⟩,nofun⟩
        · exact ⟨turn.fine.seen,turn.fine.older,turn.fine.timed,nofun,fun _ => rfl,
            fun _ => ⟨arrangedAs turn.here.2.1 rfl rfl rfl,turn.here.2.2⟩⟩
        · exact ⟨nofun,fun busy => absurd busy (turn.mine m other)⟩
      cases ended with
      | ok _ => exact free
      | error _ => exact free
    · refine ⟨fun m _ => by simp [rests],?_,rfl,arranged,?_,going.2⟩
      · exact ⟨turn.kept.1.seen,turn.kept.1.older,turn.kept.1.timed,fun _ _ _ => rfl,nofun,nofun⟩
      · exact arrangedAs going.1 rfl rfl rfl

theorem stopKeeps (turn : FreeTurn ingressDiscovery n t u) (arranged : u.arranged = true) :
    WipedKeeps ingressDiscovery n (stopArrangement ingressDiscovery 0) (fun _ => FreeTurn ingressDiscovery n) t u := by
  apply keepsAskNow rfl
  apply keepsAskNow rfl
  apply keepsAskNow rfl
  apply haltKeeps wipedHolds
  obtain ⟨⟨fine,others⟩,free⟩ := turn
  refine ⟨⟨?_,fun m other => ⟨(others m other).1,fun busy => ?_⟩⟩,free⟩
  · refine ⟨fine.seen,fine.older,nofun,fine.guarded,fine.resting,fun idle => ⟨⟨nofun,?_⟩,nofun⟩⟩
    intro _ j w
    exact quietHalted (fine.idle idle).1 j w
  · exact besideTrans ((others m other).2 busy) ⟨rfl,rfl,rfl,rfl,rfl,.inr ⟨arranged,rfl,rfl⟩⟩

def Resigned (n : Nat) (s : WipedWorld) : Prop := s.arranged = true → s.busy ≠ some n

theorem arrangingKeeps (built : Outcome) :
    WipedKeeps ingressDiscovery 0 (arranging ingressDiscovery) (fun _ t u =>
      (wipedContract ingressDiscovery 0).guarantee t u ∧ Resigned 0 u) {built := built} {built := built} := by
  apply keepsBind
  apply keepsBind
  apply startWatchesKeeps (startingWiped (b := false) 0)
  · rfl
  · refine ⟨fun m other same => other (Option.some.inj same).symm,?_,rfl,⟨rfl,?_⟩,nofun⟩
    · exact ⟨Nat.le_refl _,nofun,nofun,nofun,nofun,nofun⟩
    · refine ⟨fun j w => ?_,Nat.le_refl _,Nat.zero_lt_one,nofun⟩
      simp [answerWiped,Reconcilers.answer]
  · intro t u turn
    obtain ⟨⟨_,opened⟩,_⟩ := turn.here
    apply keepsAskNow rfl
    apply keepsBind
    apply keepsAskNow rfl
    apply keepsIf
    · exact nofun
    · intro _
      apply keepsAskNow rfl
      apply keepsBind
      apply keepsAttempt
      have free : FreeTurn ingressDiscovery 0 t (answerWiped 0 default (.change 0 (.timer true))
          (answerWiped 0 default (.arrange 0) u).2).2 := by
        refine ⟨⟨?_,fun m other => ⟨⟨nofun,fun busy => absurd busy (turn.mine m other)⟩,
          fun busy => absurd busy (turn.mine m other)⟩⟩,nofun⟩
        refine ⟨turn.fine.seen,fun _ => opened.below,fun _ => rfl,nofun,fun _ => rfl,fun _ => ⟨⟨?_,nofun⟩,?_⟩⟩
        · exact fun _ j w => opened.only j w
        · exact fun _ => opened.young
      apply keepsAskAwait rfl free.kept
      intro v moved _ _
      have later := freeLater free moved
      have ended : (wipedContract ingressDiscovery 0).guarantee v (answerWiped 0 () .upsert v).2 ∧
          Resigned 0 (answerWiped 0 () .upsert v).2 := by
        obtain ⟨⟨fine,others⟩,released⟩ := later
        refine ⟨⟨⟨fine.seen,fine.older,fine.timed,fine.guarded,fine.resting,?_⟩,fun m other => ⟨Iff.rfl,fun _ => ?_⟩⟩,
          fun _ => released⟩
        · exact fun idle => ⟨arrangedAs (fine.idle idle).1 rfl rfl rfl,(fine.idle idle).2⟩
        · exact ⟨rfl,rfl,rfl,rfl,rfl,.inl ⟨rfl,rfl⟩⟩
      have answer : (answerWiped 0 () .upsert v).1 = v.next.onto (.ok ()) := rfl
      rw [answer]
      cases v.next with
      | served => exact ended
      | failed error => exact ended
  · intro error t u turn
    exact ⟨busyKept turn,fun arranged => absurd (turn.here.1.symm.trans arranged) nofun⟩

end Threads

section Runs
variable {ingressDiscovery : Bool} {pool : WipedPool} {moves : List WipedMove}

structure WipedHolds (ingressDiscovery : Bool) (pool : WipedPool) : Prop where
  closing : pool.Closing answerWiped ReconcilingCall.awaits (wipedContract ingressDiscovery) Resigned
  fine : WipedFine ingressDiscovery pool.state
  fresh : ∀ n, pool.threads.length ≤ n → pool.state.busy ≠ some n

theorem wipedTrans (n : Nat) {a b c : WipedWorld} (first : (wipedContract ingressDiscovery n).rely a b)
    (second : (wipedContract ingressDiscovery n).rely b c) : (wipedContract ingressDiscovery n).rely a c :=
  ⟨second.1,second.2.1.trans first.2.1,fun busy =>
    besideTrans (first.2.2 busy) (second.2.2 (first.2.1.mpr busy))⟩

theorem wipedApart {n m : Nat} {a b : WipedWorld} (other : n ≠ m)
    (kept : (wipedContract ingressDiscovery n).guarantee a b) : (wipedContract ingressDiscovery m).rely a b :=
  ⟨kept.1,(kept.2 m (Ne.symm other)).1,(kept.2 m (Ne.symm other)).2⟩

theorem wipedStable {n m : Nat} {a b : WipedWorld} (other : n ≠ m)
    (kept : (wipedContract ingressDiscovery n).guarantee a b) (resigned : Resigned m a) : Resigned m b := by
  intro arranged busy
  have before := (kept.2 m (Ne.symm other)).1.mp busy
  have beside := (kept.2 m (Ne.symm other)).2 before
  exact resigned (beside.arranged ▸ arranged) before

theorem wipedEdit {f : WipedWorld → WipedWorld} (holds : WipedHolds ingressDiscovery pool)
    (fine : WipedFine ingressDiscovery (f pool.state)) (beside : Beside ingressDiscovery pool.state (f pool.state))
    (busy : (f pool.state).busy = pool.state.busy) : WipedHolds ingressDiscovery (pool.edit f) where
  closing := Pool.closingEdit wipedTrans holds.closing (fun n => ⟨fine,by rw [busy],fun _ => beside⟩) fun n resigned arranged => by
    rw [busy]
    exact resigned (beside.arranged ▸ arranged)
  fine := fine
  fresh n beyond := by
    change (f pool.state).busy ≠ some n
    rw [busy]
    exact holds.fresh n beyond

theorem wipedSpawn (holds : WipedHolds ingressDiscovery pool) {p : Reconciling Unit}
    (keeps : FreeTurn ingressDiscovery pool.threads.length pool.state pool.state →
      WipedKeeps ingressDiscovery pool.threads.length p (fun _ => FreeTurn ingressDiscovery pool.threads.length)
        pool.state pool.state) :
    WipedHolds ingressDiscovery (pool.spawn answerWiped ReconcilingCall.awaits p) := by
  have free : FreeTurn ingressDiscovery pool.threads.length pool.state pool.state :=
    ⟨⟨holds.fine,fun _ _ => ⟨Iff.rfl,fun _ => ⟨rfl,rfl,rfl,rfl,rfl,.inl ⟨rfl,rfl⟩⟩⟩⟩,
      holds.fresh pool.threads.length (Nat.le_refl _)⟩
  have spawned := Pool.closingSpawn wipedTrans wipedApart wipedStable holds.closing
    (keepsMono (keeps free) fun r t u turn => ⟨turn.kept,fun _ => turn.free⟩)
  refine ⟨spawned.1,spawned.2.1,?_⟩
  intro n beyond busy
  have longer : pool.threads.length < n := by
    simp only [Pool.spawn,List.length_append,List.length_singleton] at beyond
    omega
  exact holds.fresh n (by omega) ((spawned.2.2 n (by omega)).1.mp busy)

theorem wipedStepHolds {move : WipedMove} (holds : WipedHolds ingressDiscovery pool) (disciplined : move.Disciplined pool) :
    WipedHolds ingressDiscovery (wipedStep ingressDiscovery pool move) := by
  have fine := holds.fine
  cases move with
  | wipe =>
      apply wipedEdit holds _ ⟨rfl,rfl,rfl,rfl,rfl,.inl ⟨rfl,rfl⟩⟩ rfl
      exact ⟨Nat.le_succ_of_le fine.seen,fine.older,fine.timed,fine.guarded,fine.resting,
        fun idle => ⟨arrangedAs (fine.idle idle).1 rfl rfl rfl,(fine.idle idle).2⟩⟩
  | check =>
      simp only [wipedStep]
      split
      · rename_i timed
        exact wipedSpawn holds fun free => checkKeeps free rfl timed
      · exact holds
  | stop =>
      simp only [wipedStep]
      split
      · rename_i arranged
        exact wipedSpawn holds fun free => stopKeeps free arranged
      · exact holds
  | proceed n outcome applied built =>
      have faced := wipedEdit (f := fun s => {s with next := outcome, applied := applied, built := built}) holds
        ⟨fine.seen,fine.older,fine.timed,fine.guarded,fine.resting,
          fun idle => ⟨arrangedAs (fine.idle idle).1 rfl rfl rfl,(fine.idle idle).2⟩⟩
        ⟨rfl,rfl,rfl,rfl,rfl,.inl ⟨rfl,rfl⟩⟩ rfl
      have still := (⟨rfl,rfl,rfl,rfl,rfl,.inl ⟨rfl,rfl⟩⟩ : Beside ingressDiscovery
        {pool.state with next := outcome, applied := applied, built := built} _)
      have proceeded := Pool.closingProceed (n := n) (w := ()) wipedTrans wipedApart wipedStable
        ⟨faced.fine,Iff.rfl,fun _ => still⟩ ⟨faced.fine,fun _ _ => ⟨Iff.rfl,fun _ => still⟩⟩ faced.closing disciplined
      refine ⟨proceeded.1,proceeded.2.1,?_⟩
      intro m beyond
      simp only [wipedStep,Pool.proceedLength] at beyond ⊢
      rcases Decidable.em (n = m) with rfl | other
      · rw [Pool.proceedBeyond _ _ beyond]
        exact faced.fresh n beyond
      · exact fun busy => faced.fresh m beyond ((proceeded.2.2 m (Ne.symm other)).1.mp busy)

theorem wipedRunHolds (holds : WipedHolds ingressDiscovery pool) (disciplined : WipedDisciplined ingressDiscovery moves pool) :
    WipedHolds ingressDiscovery (wipedRun ingressDiscovery moves pool) :=
  eachStepKeeps (WipedHolds ingressDiscovery) (fun _ _ => wipedStepHolds) holds disciplined

theorem beginHolds (built : Outcome) : WipedHolds ingressDiscovery (beginArrangement ingressDiscovery built) := by
  have spawned := Pool.closingSpawn wipedTrans wipedApart wipedStable (Pool.closingEmpty _)
    (@arrangingKeeps ingressDiscovery built)
  refine ⟨spawned.1,spawned.2.1,?_⟩
  intro n beyond busy
  have before := (spawned.2.2 n (Nat.ne_of_gt beyond)).1.mp busy
  have first : 0 = n := Option.some.inj before
  exact absurd beyond (by simp [beginArrangement,Pool.spawn,← first])

end Runs

/- In every disciplined run, whenever no check is under way and the arrangement has been returned, one set of
watchers runs, started after the last wipe a check knows of, or the arrangement is stopped and none does. -/
theorem restartsAfterWipes (ingressDiscovery : Bool) (built : Outcome) (moves : List WipedMove)
    (disciplined : WipedDisciplined ingressDiscovery moves (beginArrangement ingressDiscovery built))
    (settled : ∀ p ∈ (wipedRun ingressDiscovery moves (beginArrangement ingressDiscovery built)).threads,
      ∀ c next, p ≠ .call c next)
    (arranged : (wipedRun ingressDiscovery moves (beginArrangement ingressDiscovery built)).state.arranged = true) :
    Restarted ingressDiscovery (wipedRun ingressDiscovery moves (beginArrangement ingressDiscovery built)).state := by
  have holds := wipedRunHolds (beginHolds built) disciplined
  revert holds settled arranged
  generalize wipedRun ingressDiscovery moves (beginArrangement ingressDiscovery built) = pool
  intro settled arranged holds
  have idle : pool.state.busy = none := by
    cases busy : pool.state.busy with
    | none => rfl
    | some n =>
        have resigned := Pool.closingSettled holds.closing settled (fun m beyond _ => holds.fresh m beyond) n
        exact absurd busy (resigned arranged)
  obtain ⟨running,recent⟩ := holds.fine.idle idle
  exact ⟨fun going => ⟨_,running.going going,recent going⟩,running.ended⟩

def served (n : Nat) : WipedMove := .proceed n .served true .served

def wipeAndRestart : List WipedMove :=
  List.replicate 7 (served 0) ++ .wipe :: .check :: List.replicate 8 (served 1)

theorem restartedOnce : WipedDisciplined false wipeAndRestart (beginArrangement false .served) ∧
    Restarted false (wipedRun false wipeAndRestart (beginArrangement false .served)).state := by
  have disciplined : WipedDisciplined false wipeAndRestart (beginArrangement false .served) := by
    exact ⟨fun _ => ⟨rfl,rfl⟩,fun _ => ⟨rfl,rfl⟩,fun _ => ⟨rfl,rfl⟩,fun _ => ⟨rfl,rfl⟩,fun _ => ⟨rfl,rfl⟩,
      fun _ => ⟨rfl,rfl⟩,nofun,trivial,trivial,trivial,fun _ => .inr rfl,fun _ => ⟨rfl,rfl⟩,fun _ => ⟨rfl,rfl⟩,
      fun _ => ⟨rfl,rfl⟩,fun _ => ⟨rfl,rfl⟩,fun _ => ⟨rfl,rfl⟩,fun _ => ⟨rfl,rfl⟩,trivial⟩
  have ended : (wipedRun false wipeAndRestart (beginArrangement false .served)).threads = [.pure (),.pure ()] := by rfl
  refine ⟨disciplined,restartsAfterWipes false .served wipeAndRestart disciplined ?_ rfl⟩
  rw [ended]
  simp

def wipeAndFail : List WipedMove :=
  List.replicate 7 (served 0) ++ .wipe :: .check :: List.replicate 5 (served 1) ++
    [.proceed 1 (.failed {}) true .served,.check,served 2]

/- Three operators run, and the marker says that all is well. -/
theorem restartAbandoned :
    (wipedRun false wipeAndFail (beginArrangement false .served)).threads = [.pure (),.pure (),.pure ()] ∧
    (wipedRun false wipeAndFail (beginArrangement false .served)).state.arranged = true ∧
    (wipedRun false wipeAndFail (beginArrangement false .served)).state.marker = true ∧
    ¬ Restarted false (wipedRun false wipeAndFail (beginArrangement false .served)).state := by
  refine ⟨by rfl,rfl,rfl,fun restarted => ?_⟩
  obtain ⟨set,only,_⟩ := restarted.going rfl
  have second := (only 1 .clientOperator).mp rfl
  have missing := (only 1 .scimConnectionOperator).mpr ⟨second.1,by decide⟩
  cases missing

end Passmower
