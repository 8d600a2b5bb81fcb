import Passmower.LeaderElection
import Passmower.Resumption.Stepping

/-! Stopping a pod's election: `stop` interleaved with its ticks at every request and every answer,
while others write the lease too and requests fail. -/
namespace Passmower
open JavaScript Resumption Program

inductive StopPhase where
  | begun
  | reading
  | releasing (version : Nat)
  | leaving
  deriving DecidableEq, Repr

/- `late` says that the lease is in the pod's name by a write that took effect after the stop; `calls`
are the callbacks called so far, the last one first. -/
structure StopWorld where
  clock : Nat := 0
  server : LeaseServer := {}
  candidate : Candidate := {}
  next : Outcome := .served
  late : Bool := false
  stops : Nat → Option StopPhase := fun _ => none
  calls : List LeaderCallback := []

namespace StopWorld
variable (s : StopWorld)

def setStop (n : Nat) (phase : Option StopPhase) : StopWorld :=
  {s with stops := fun m => if m = n then phase else s.stops m}

def look (n : Nat) : StopWorld := match s.stops n with
  | some .begun => s.setStop n (if s.candidate.leading then some .reading else none)
  | some .leaving => s.setStop n none
  | _ => s

def setField (n : Nat) (field : CandidateField) : StopWorld := match field with
  | .stopped true => {s.setStop n (some .begun) with candidate := s.candidate.set (.stopped true)}
  | .stopped false => {s with candidate := s.candidate.set (.stopped false), late := false}
  | field => {s with candidate := s.candidate.set field}

def tickWrite (spec : LeaseSpec) : StopWorld :=
  {s with server := s.server.write spec, late := s.candidate.stopped}

def tickSend : LeaseRequest → StopWorld
  | .read => s
  | .create spec => if s.server.accepts (.create spec) then s.tickWrite spec else s
  | .replace lease => if s.server.accepts (.replace lease) then s.tickWrite lease.spec else s

def phaseRead (identity : String) : Except Failure Lease → StopPhase
  | .ok lease => if lease.spec.holderIdentity = some identity then .releasing lease.resourceVersion else .leaving
  | .error _ => .leaving

def released (spec : LeaseSpec) : StopWorld := {s with server := s.server.write spec, late := false}

def stopSend (identity : String) (n : Nat) : LeaseRequest → StopWorld
  | .read => s.setStop n (some (phaseRead identity (s.server.reply .read)))
  | .create _ => s
  | .replace lease =>
      (if s.server.accepts (.replace lease) then s.released lease.spec else s).setStop n (some .leaving)

def foreign (spec : Option LeaseSpec) : StopWorld := match spec with
  | some spec => {s with server := s.server.write spec, late := false}
  | none => {s with server := {s.server with lease := none}, late := false}

end StopWorld

def answerStop (identity : String) (n : Nat) : Handler (election callbacks) Unit StopWorld := fun _ c s => match c with
  | .now => (s.clock,s)
  | .fields _ => (s.candidate,s.look n)
  | .set _ field => ((),s.setField n field)
  | .send _ .tick request => match s.next with
      | .served => (s.server.reply request,s.tickSend request)
      | .failed error => (.error error,s)
  | .send _ .stop request => match s.next with
      | .served => (s.server.reply request,s.stopSend identity n request)
      | .failed error => (.error error,s.setStop n (some .leaving))
  | .receive _ .stop .read answer => (s.next.onto answer,match s.next.onto answer with
      | .ok _ => s
      | .error _ => s.setStop n (some .leaving))
  | .receive _ _ _ answer => (s.next.onto answer,s)
  | .callback (.invoke _ callback) => ((),{s with calls := callback :: s.calls})
  | .callback (.settle _ _) => (s.next.onto (.ok ()),s)

inductive StopMove where
  | start
  | tick
  | stop
  | proceed (n : Nat) (outcome : Outcome)
  /- somebody else writes or deletes the lease -/
  | foreign (spec : Option LeaseSpec)
  | pass (ms : Nat)
  deriving DecidableEq, Repr

abbrev StopPool := Pool (election callbacks) Failure StopWorld

abbrev callsAwaited : (election callbacks).Call → Bool := ElectionCall.awaits CallbackCall.awaits

/- The only pod of this election; all others are foreign. -/
structure Contender where
  identity : String
  identified : identity ≠ ""
  leaseDurationSeconds : Nat
  renewDeadlineSeconds : Nat

def Contender.election (contender : Contender) : LeaderElection callbacks where
  pod := 0
  identity := contender.identity
  identified := contender.identified
  leaseDurationSeconds := contender.leaseDurationSeconds
  renewDeadlineSeconds := contender.renewDeadlineSeconds
  onStartedLeading := LeaderCallback.program 0 .onStartedLeading
  onStoppedLeading := LeaderCallback.program 0 .onStoppedLeading

section Moves
variable (contender : Contender)

def stopStep (pool : StopPool) : StopMove → StopPool
  | .start => pool.spawn (answerStop contender.identity) callsAwaited contender.election.start
  | .tick => pool.spawn (answerStop contender.identity) callsAwaited contender.election.tickQuietly
  | .stop => pool.spawn (answerStop contender.identity) callsAwaited contender.election.stop
  | .proceed n outcome =>
      (pool.edit fun s => {s with next := outcome}).proceed (answerStop contender.identity) callsAwaited n ()
  | .foreign spec => pool.edit fun s => s.foreign spec
  | .pass ms => pool.edit fun s => {s with clock := s.clock + ms}

def stopRun (moves : List StopMove) (pool : StopPool) : StopPool := moves.foldl (stopStep contender) pool

end Moves

namespace StopWorld
variable (s : StopWorld)

def Owes (n : Nat) : Prop := s.stops n = some .reading ∨
  ∃ lease, s.server.lease = some lease ∧ s.stops n = some (.releasing lease.resourceVersion)

end StopWorld

def makesLead {α : Type} (success : Bool) : Except Failure α → Bool
  | .ok _ => success
  | .error error => error.refused

/- After the stop a write of a tick takes effect only before some stop reads the lease, no request or
answer of such a stop then fails while it alone can give the lease back, and no answer makes a tick
lead that does not lead still. -/
def StopOk (n : Nat) (s : StopWorld) : (election callbacks).Call → Prop
  | .send _ .tick request => s.next = .served → s.server.accepts request = true → s.candidate.stopped = true →
      ∃ m, s.stops m = some .reading
  | .send _ .stop _ => s.next ≠ .served → s.late = true → ∃ m, m ≠ n ∧ s.Owes m
  | .receive _ .stop .read _ => s.next ≠ .served → s.late = true → ∃ m, m ≠ n ∧ s.Owes m
  | .receive _ .tick .read answer => makesLead false (s.next.onto answer) = true →
      s.candidate.stopped = true → s.candidate.leading = true
  | .receive _ .tick (.create _) answer => makesLead true (s.next.onto answer) = true →
      s.candidate.stopped = true → s.candidate.leading = true
  | .receive _ .tick (.replace _) answer => makesLead true (s.next.onto answer) = true →
      s.candidate.stopped = true → s.candidate.leading = true
  | _ => True

def StopMove.Disciplined (pool : StopPool) : StopMove → Prop
  | .proceed n outcome => Pool.Ready StopOk n (pool.edit fun s => {s with next := outcome})
  | _ => True

def StopDisciplined (contender : Contender) : List StopMove → StopPool → Prop :=
  EachStep (stopStep contender) fun pool move => move.Disciplined pool

def noElection (spec : Option LeaseSpec) (clock : Nat) : StopPool :=
  ⟨[],{clock := clock, server := ⟨spec.map fun spec => ⟨spec,0⟩,1⟩}⟩

structure Halting (identity : String) (s : StopWorld) : Prop where
  named : s.late = true → s.candidate.stopped = true ∧
    ∃ lease, s.server.lease = some lease ∧ lease.spec.holderIdentity = some identity
  owed : s.late = true → ∃ n, s.Owes n
  halted : s.candidate.stopped = true → s.candidate.leading = true → ∃ n phase, s.stops n = some phase
  paired : s.candidate.leading = false → s.calls = [] ∨ s.calls.head? = some .onStoppedLeading

def stopContract (identity : String) (n : Nat) : Contract (election callbacks) StopWorld where
  ok := StopOk n
  rely s t := Halting identity t ∧ t.stops n = s.stops n
  guarantee s t := Halting identity t ∧ ∀ m, m ≠ n → t.stops m = s.stops m

structure Final (s : StopWorld) : Prop where
  idle : s.candidate.leading = false
  released : s.late = false
  ended : ∀ later earlier, s.calls = later ++ LeaderCallback.onStartedLeading :: earlier →
    LeaderCallback.onStoppedLeading ∈ later

section Halts
variable {identity : String} {n m : Nat} {s t u v : StopWorld} {phase : Option StopPhase}

@[simp] theorem setStopSelf : (s.setStop n phase).stops n = phase := if_pos rfl

theorem setStopOther (other : m ≠ n) : (s.setStop n phase).stops m = s.stops m := if_neg other

@[simp] theorem setStopServer : (s.setStop n phase).server = s.server := rfl

@[simp] theorem setStopCandidate : (s.setStop n phase).candidate = s.candidate := rfl

@[simp] theorem setStopLate : (s.setStop n phase).late = s.late := rfl

theorem owesOther (other : m ≠ n) (owes : s.Owes m) : (s.setStop n phase).Owes m := by
  unfold StopWorld.Owes
  rw [setStopOther other]
  exact owes

theorem haltingStop (halting : Halting identity s)
    (owed : s.late = true → ∃ m, (s.setStop n phase).Owes m)
    (halted : s.candidate.stopped = true → s.candidate.leading = true → phase = none →
      ∃ m, m ≠ n ∧ ∃ phase, s.stops m = some phase) : Halting identity (s.setStop n phase) := by
  constructor
  · exact halting.named
  · exact owed
  · intro stopped leading
    cases phase with
    | some phase => exact ⟨n,phase,setStopSelf⟩
    | none =>
        obtain ⟨m,other,phase,going⟩ := halted stopped leading rfl
        exact ⟨m,phase,(setStopOther other).trans going⟩
  · exact halting.paired

theorem owedOthers (halting : Halting identity s) (free : ¬ s.Owes n) (late : s.late = true) :
    ∃ m, (s.setStop n phase).Owes m := by
  obtain ⟨m,owes⟩ := halting.owed late
  have other : m ≠ n := by
    intro same
    exact free (same ▸ owes)
  exact ⟨m,owesOther other owes⟩

theorem freeOf (none : s.stops n = none) : ¬ s.Owes n := by
  intro owes
  rcases owes with reading | ⟨lease,here,releasing⟩
  · simp [none] at reading
  · simp [none] at releasing

theorem freeLeaving (leaving : s.stops n = some .leaving) : ¬ s.Owes n := by
  intro owes
  rcases owes with reading | ⟨lease,here,releasing⟩
  · simp [leaving] at reading
  · simp [leaving] at releasing

theorem haltingWrite (halting : Halting identity s) {spec : LeaseSpec} (holder : spec.holderIdentity = some identity)
    (disciplined : s.candidate.stopped = true → ∃ m, s.stops m = some .reading) :
    Halting identity (s.tickWrite spec) := by
  constructor
  · intro late
    exact ⟨late,_,rfl,holder⟩
  · intro late
    obtain ⟨m,reading⟩ := disciplined late
    exact ⟨m,.inl reading⟩
  · exact halting.halted
  · exact halting.paired

theorem haltingForeign (halting : Halting identity s) (spec : Option LeaseSpec) : Halting identity (s.foreign spec) := by
  cases spec with
  | some spec => exact ⟨nofun,nofun,halting.halted,halting.paired⟩
  | none => exact ⟨nofun,nofun,halting.halted,halting.paired⟩

end Halts

section Threads
variable {contender : Contender} {n : Nat} {t u : StopWorld}

abbrev StopKeeps (contender : Contender) (n : Nat) {α : Type} (program : Election callbacks α)
    (Q : Except Failure α → StopWorld → StopWorld → Prop) (t u : StopWorld) : Prop :=
  Keeps (answerStop contender.identity n) callsAwaited (stopContract contender.identity n) program Q t u

structure Turn (contender : Contender) (n : Nat) (phase : Option StopPhase) (t u : StopWorld) : Prop where
  kept : (stopContract contender.identity n).guarantee t u
  phase : u.stops n = phase

theorem turnNow {phase : Option StopPhase} (halting : Halting contender.identity u) (at_n : u.stops n = phase) :
    Turn contender n phase u u := ⟨⟨halting,fun _ _ => rfl⟩,at_n⟩

theorem turnLater {phase : Option StopPhase} {v : StopWorld} (turn : Turn contender n phase t u)
    (moved : (stopContract contender.identity n).rely u v) : Turn contender n phase v v :=
  turnNow moved.1 (moved.2.trans turn.phase)

theorem settleKeepsTurn {phase : Option StopPhase} {callback : LeaderCallback}
    (turn : Turn contender n phase t {u with calls := callback :: u.calls}) :
    StopKeeps contender n (callback.program 0) (fun _ => Turn contender n phase) t u := by
  apply keepsAskNow rfl
  apply keepsAskAwait rfl turn.kept
  intro v moved _ _
  simp only [answerStop]
  cases v.next.onto (.ok ()) with
  | ok _ => exact turnLater turn moved
  | error _ => exact turnLater turn moved

def Idle (n : Nat) (s : StopWorld) : Prop := s.stops n = none ∨ s.stops n = some .leaving

theorem idleFree {s : StopWorld} (idle : Idle n s) : ¬ s.Owes n := by
  rcases idle with none | leaving
  · exact freeOf none
  · exact freeLeaving leaving

theorem lookIdle {s : StopWorld} (idle : Idle n s) : s.look n = s.setStop n none := by
  rcases idle with none | leaving
  · have same : (fun m => if m = n then Option.none else s.stops m) = s.stops := by
      funext m
      by_cases at_n : m = n
      · simp [at_n,none]
      · simp [at_n]
    simp only [StopWorld.look,none,StopWorld.setStop,same]
  · simp [StopWorld.look,leaving]

theorem standDown {s : StopWorld} (halting : Halting contender.identity s) (idle : Idle n s) :
    Halting contender.identity {s.setStop n none with
      candidate := s.candidate.set (.leading false), calls := .onStoppedLeading :: s.calls} := by
  constructor
  · exact halting.named
  · exact fun late => owedOthers halting (idleFree idle) late
  · exact fun _ leading => by cases leading
  · exact fun _ => .inr rfl

theorem stopLeadingTurn (kept : (stopContract contender.identity n).guarantee t u) (idle : Idle n u) :
    StopKeeps contender n contender.election.stopLeading (fun _ => Turn contender n none) t u := by
  apply keepsAskNow rfl
  have looked : (answerStop contender.identity n default (.fields 0) u).2 = u.setStop n none := lookIdle idle
  change StopKeeps contender n (if u.candidate.leading then _ else _) _ t (answerStop contender.identity n default (.fields 0) u).2
  rw [looked]
  apply keepsIf
  · intro leading
    apply keepsAskNow rfl
    apply settleKeepsTurn
    constructor
    · refine ⟨standDown kept.1 idle,?_⟩
      intro m other
      exact (setStopOther other).trans (kept.2 m other)
    · exact setStopSelf
  · intro standing
    constructor
    · refine ⟨haltingStop kept.1 (owedOthers kept.1 (idleFree idle)) (fun _ leading => absurd leading standing),?_⟩
      intro m other
      exact (setStopOther other).trans (kept.2 m other)
    · exact setStopSelf

def Won (u : StopWorld) : Prop := u.candidate.stopped = true → u.candidate.leading = true

theorem startLeadingTurn (turn : Turn contender n none t u) (won : Won u) :
    StopKeeps contender n contender.election.startLeading (fun _ => Turn contender n none) t u := by
  apply keepsAskNow rfl
  have looked : (answerStop contender.identity n default (.fields 0) u).2 = u := by
    simp [answerStop,StopWorld.look,turn.phase]
  change StopKeeps contender n (if u.candidate.leading then _ else _) _ t (answerStop contender.identity n default (.fields 0) u).2
  rw [looked]
  apply keepsIf
  · exact fun _ => turn
  · intro standing
    apply keepsAskNow rfl
    apply settleKeepsTurn
    constructor
    · refine ⟨⟨turn.kept.1.named,turn.kept.1.owed,?_,nofun⟩,turn.kept.2⟩
      intro stopped
      exact absurd (won stopped) standing
    · exact turn.phase

theorem minorTurn (turn : Turn contender n none t u) {field : CandidateField} (minor : field.Minor) :
    Turn contender n none t (u.setField n field) := by
  obtain ⟨⟨halting,others⟩,phase⟩ := turn
  cases minor with
  | timer => exact ⟨⟨⟨halting.named,halting.owed,halting.halted,halting.paired⟩,others⟩,phase⟩
  | lastRenewedAt time => exact ⟨⟨⟨halting.named,halting.owed,halting.halted,halting.paired⟩,others⟩,phase⟩

theorem readTurn (turn : Turn contender n none t u) :
    StopKeeps contender n (contender.election.getLease .tick) (fun r t u => Turn contender n none t u ∧
      match r with
      | .ok _ => True
      | .error error => error.refused = true → Won u) t u := by
  apply LeaderElection.getLeaseKeeps turn.kept
  intro v moved _ _
  have unchanged : (answerStop contender.identity n () (.send 0 .tick .read) v).2 = v := by
    simp only [answerStop]
    split <;> rfl
  have here := turnLater turn moved
  constructor
  · exact unchanged.symm ▸ here.kept
  · intro x later ok _
    have later : (stopContract contender.identity n).rely v x := unchanged ▸ later
    refine ⟨turnLater here later,?_⟩
    change match leaseRead (x.next.onto (answerStop contender.identity n () (.send 0 .tick .read) v).1) with
      | .ok _ => True
      | .error error => error.refused = true → Won x
    have disciplined : makesLead false (x.next.onto (answerStop contender.identity n () (.send 0 .tick .read) v).1) = true →
        Won x := ok
    revert disciplined
    generalize x.next.onto (answerStop contender.identity n () (.send 0 .tick .read) v).1 = answer
    intro disciplined
    cases answer with
    | ok lease => trivial
    | error error =>
        by_cases missing : error.code = some 404
        · simp [leaseRead,missing]
        · simp only [leaseRead,missing,if_false]
          exact disciplined

inductive TickWrites (spec : LeaseSpec) : LeaseRequest → Prop where
  | create : TickWrites spec (.create spec)
  | replace (lease : Lease) : TickWrites spec (.replace {lease with spec := spec})

theorem tickSendTurn {spec : LeaseSpec} {r : LeaseRequest} {v : StopWorld} (turn : Turn contender n none v v)
    (writes : TickWrites spec r) (holder : spec.holderIdentity = some contender.identity)
    (disciplined : StopOk n v (.send 0 .tick r)) :
    Turn contender n none v (answerStop contender.identity n () (.send 0 .tick r) v).2 := by
  cases next : v.next with
  | failed error =>
      simp only [answerStop,next]
      exact turn
  | served =>
      have sent : v.tickSend r = if v.server.accepts r then v.tickWrite spec else v := by
        cases writes <;> rfl
      simp only [answerStop,next,sent]
      split
      · rename_i accepts
        exact ⟨⟨haltingWrite turn.kept.1 holder (disciplined next accepts),turn.kept.2⟩,turn.phase⟩
      · exact turn

theorem writeTurn {spec : LeaseSpec} {r : LeaseRequest} (turn : Turn contender n none t u)
    (writes : TickWrites spec r) (holder : spec.holderIdentity = some contender.identity) :
    StopKeeps contender n (contender.election.request .tick r) (fun out t u => Turn contender n none t u ∧
      (makesLead true out = true → Won u)) t u := by
  apply LeaderElection.requestKeeps turn.kept
  intro v moved ok _
  have sent := tickSendTurn (turnLater turn moved) writes holder ok
  constructor
  · exact sent.kept
  · intro x later ok' _
    have owed : ∀ out : Except Failure r.Reply × StopWorld,
        out = (x.next.onto (answerStop contender.identity n () (.send 0 .tick r) v).1,x) →
        Turn contender n none x out.2 ∧ (makesLead true out.1 = true → Won out.2) := by
      intro out same
      rw [same]
      refine ⟨turnLater sent later,?_⟩
      cases writes with
      | create => exact ok'
      | replace lease => exact ok'
    apply owed
    cases writes <;> rfl

theorem wonWrite {P W : Prop} {out : Except Failure Unit} : (P ∧ (makesLead true out = true → W)) → P ∧ match out with
      | .ok () => W
      | .error error => error.refused = true → W := by
  rintro ⟨fine,won⟩
  cases out with
  | ok _ => exact ⟨fine,won rfl⟩
  | error error => exact ⟨fine,won⟩

theorem stopOutline (contender : Contender) (n : Nat) : Outline contender.election (answerStop contender.identity n)
    CallbackCall.awaits (stopContract contender.identity n) (Turn contender n none) (fun _ _ => True) Won where
  now _ := rfl
  fields turn := by simp [answerStop,StopWorld.look,turn.phase]
  set turn minor := minorTurn turn minor
  won turn won minor := by
    cases minor <;> exact won
  read := readTurn
  write := by
    intro t u seen spec turn _ writing
    have holder : spec.holderIdentity = some contender.identity := by
      rcases writing with ⟨rfl,_⟩ | ⟨lease,_,own,rfl⟩
      · rfl
      · exact own
    cases seen with
    | none => exact keepsMono (writeTurn turn .create holder) fun _ _ _ => wonWrite
    | some lease => exact keepsMono (writeTurn turn (.replace lease) holder) fun _ _ _ => wonWrite
  start := startLeadingTurn
  stop turn := stopLeadingTurn turn.kept (.inl turn.phase)

theorem tickTurn (turn : Turn contender n none t u) :
    StopKeeps contender n contender.election.tickQuietly (fun _ => Turn contender n none) t u := by
  have ticking : ∀ {t u : StopWorld} value, Turn contender n none t u →
      Turn contender n none t (u.setField n (.ticking value)) := by
    intro t u value ⟨⟨halting,others⟩,phase⟩
    exact ⟨⟨⟨halting.named,halting.owed,halting.halted,halting.paired⟩,others⟩,phase⟩
  exact (stopOutline contender n).tickQuietlyKeeps turn ((stopOutline contender n).fields turn)
    (fun _ => ticking true turn) (ticking false)

theorem startTurn (turn : Turn contender n none t u) :
    StopKeeps contender n contender.election.start (fun _ => Turn contender n none) t u := by
  apply keepsAskNow rfl
  rw [(stopOutline contender n).fields turn]
  apply keepsIf
  · exact fun _ => turn
  · intro idle
    apply keepsAskNow rfl
    apply keepsAskNow rfl
    apply tickTurn
    exact ⟨⟨⟨nofun,nofun,nofun,turn.kept.1.paired⟩,turn.kept.2⟩,turn.phase⟩

theorem leavingTurn {phase : Option StopPhase} {v : StopWorld} (turn : Turn contender n phase t v)
    (others : v.late = true → ∃ m, m ≠ n ∧ v.Owes m) :
    Turn contender n (some .leaving) t (v.setStop n (some .leaving)) := by
  constructor
  · refine ⟨haltingStop turn.kept.1 ?_ nofun,fun m other => (setStopOther other).trans (turn.kept.2 m other)⟩
    intro late
    obtain ⟨m,other,owes⟩ := others late
    exact ⟨m,owesOther other owes⟩
  · exact setStopSelf

theorem othersOwe {phase : StopPhase} {v : StopWorld} (turn : Turn contender n (some phase) t v)
    (free : ¬ v.Owes n) (late : v.late = true) : ∃ m, m ≠ n ∧ v.Owes m := by
  obtain ⟨m,owes⟩ := turn.kept.1.owed late
  exact ⟨m,fun same => free (same ▸ owes),owes⟩

theorem readingTurn {v : StopWorld} (turn : Turn contender n (some .reading) t v) :
    Turn contender n (some (StopWorld.phaseRead contender.identity (v.server.reply .read))) t
      (v.setStop n (some (StopWorld.phaseRead contender.identity (v.server.reply .read)))) := by
  constructor
  · refine ⟨haltingStop turn.kept.1 ?_ nofun,fun m other => (setStopOther other).trans (turn.kept.2 m other)⟩
    intro late
    obtain ⟨_,lease,here,holder⟩ := turn.kept.1.named late
    refine ⟨n,.inr ⟨lease,here,?_⟩⟩
    rw [setStopSelf]
    simp [LeaseServer.reply,here,StopWorld.phaseRead,holder]
  · exact setStopSelf

def leaseSeen (identity : String) : Except Failure (Option Lease) → StopPhase
  | .ok (some lease) => StopWorld.phaseRead identity (.ok lease)
  | _ => .leaving

theorem stopReadTurn (turn : Turn contender n (some .reading) t u) :
    StopKeeps contender n (contender.election.getLease .stop) (fun r =>
      Turn contender n (some (leaseSeen contender.identity r))) t u := by
  apply LeaderElection.getLeaseKeeps turn.kept
  intro v moved ok _
  have here := turnLater turn moved
  -- What was answered, and the phase it leaves.
  have sent : Turn contender n (some (StopWorld.phaseRead contender.identity
      (answerStop contender.identity n () (.send 0 .stop .read) v).1)) v
      (answerStop contender.identity n () (.send 0 .stop .read) v).2 := by
    cases next : v.next with
    | served =>
        simp only [answerStop,next]
        exact readingTurn here
    | failed error =>
        simp only [answerStop,next]
        apply leavingTurn here
        exact fun late => ok (by simp [next]) late
  constructor
  · exact sent.kept
  · intro x later ok' _
    have then_ := turnLater sent later
    change Turn contender n (some (leaseSeen contender.identity
      (leaseRead (x.next.onto (answerStop contender.identity n () (.send 0 .stop .read) v).1)))) x
      (match x.next.onto (answerStop contender.identity n () (.send 0 .stop .read) v).1 with
        | .ok _ => x
        | .error _ => x.setStop n (some .leaving))
    revert then_
    generalize (answerStop contender.identity n () (.send 0 .stop .read) v).1 = answer
    intro received
    have seenError : ∀ error, leaseSeen contender.identity (leaseRead (.error error)) = .leaving := by
      intro error
      by_cases missing : error.code = some 404 <;> simp [leaseRead,missing,leaseSeen]
    cases next : x.next with
    | failed error =>
        simp only [Outcome.onto,seenError]
        exact leavingTurn received fun late => ok' (by simp [next]) late
    | served => cases answer with
        | ok lease => exact received
        | error error =>
            simp only [Outcome.onto,seenError]
            exact leavingTurn received fun late => othersOwe received (freeLeaving received.phase) late

theorem releaseSendTurn {l : Lease} {v : StopWorld} (ok : StopOk n v (.send 0 .stop (.replace l)))
    (turn : Turn contender n (some (.releasing l.resourceVersion)) v v) :
    Turn contender n (some .leaving) v (answerStop contender.identity n () (.send 0 .stop (.replace l)) v).2 := by
  cases next : v.next with
  | failed error =>
      simp only [answerStop,next]
      exact leavingTurn turn fun late => ok (by simp [next]) late
  | served =>
      simp only [answerStop,next,StopWorld.stopSend]
      split
      · have released : Turn contender n (some (.releasing l.resourceVersion)) v (v.released l.spec) :=
          ⟨⟨⟨nofun,nofun,turn.kept.1.halted,turn.kept.1.paired⟩,turn.kept.2⟩,turn.phase⟩
        exact leavingTurn released nofun
      · rename_i rejects
        apply leavingTurn turn
        apply othersOwe turn
        intro owes
        rcases owes with reading | ⟨current,here,releasing⟩
        · simp [turn.phase] at reading
        · simp [turn.phase] at releasing
          simp [LeaseServer.accepts,here,releasing] at rejects

theorem releaseTurn (turn : Turn contender n (some .reading) t u) :
    StopKeeps contender n contender.election.release (fun _ => Turn contender n (some .leaving)) t u := by
  apply keepsBind
  apply keepsMono (stopReadTurn turn)
  intro read t u turn
  cases read with
  | error error => exact turn
  | ok seen => cases seen with
      | none => exact turn
      | some lease =>
          by_cases own : lease.spec.holderIdentity = some contender.identity
          · simp only [leaseSeen,StopWorld.phaseRead,own,if_true] at turn
            simp only [ontoOk,Option.filter,Contender.election,own,decide_true,if_true]
            apply LeaderElection.requestKeeps turn.kept
            intro v moved ok _
            have sent := releaseSendTurn (l := {lease with spec := {lease.spec with holderIdentity := none, renewTime := none}})
              ok (turnLater turn moved)
            exact ⟨sent.kept,fun x later _ _ => turnLater sent later⟩
          · simp only [leaseSeen,StopWorld.phaseRead,own,if_false] at turn
            simp only [ontoOk,Option.filter,Contender.election,own,decide_false]
            exact turn

theorem begunTurn (turn : Turn contender n none t u) :
    Turn contender n (if u.candidate.leading then some .reading else none) t
      (((u.setField n (.stopped true)).setField n (.timer false)).look n) := by
  have looked : ((u.setField n (.stopped true)).setField n (.timer false)).look n =
      ((u.setField n (.stopped true)).setField n (.timer false)).setStop n
        (if u.candidate.leading then some .reading else none) := by
    simp [StopWorld.look,StopWorld.setField,StopWorld.setStop,Candidate.set]
    rfl
  have others : ∀ m, m ≠ n → (((u.setField n (.stopped true)).setField n (.timer false)).setStop n
      (if u.candidate.leading then some .reading else none)).stops m = u.stops m := by
    intro m other
    rw [setStopOther other]
    exact setStopOther other
  rw [looked]
  constructor
  · refine ⟨⟨?_,?_,?_,turn.kept.1.paired⟩,fun m other => (others m other).trans (turn.kept.2 m other)⟩
    · exact fun late => ⟨rfl,(turn.kept.1.named late).2⟩
    · intro late
      obtain ⟨m,owes⟩ := turn.kept.1.owed late
      have other : m ≠ n := by
        intro same
        exact freeOf turn.phase (same ▸ owes)
      refine ⟨m,?_⟩
      unfold StopWorld.Owes
      rw [others m other]
      exact owes
    · intro _ leading
      have led : u.candidate.leading = true := leading
      exact ⟨n,.reading,by rw [setStopSelf,if_pos led]⟩
  · exact setStopSelf

theorem stopTurn (turn : Turn contender n none t u) :
    StopKeeps contender n contender.election.stop (fun _ => Turn contender n none) t u := by
  have begun := begunTurn turn
  apply keepsAskNow rfl
  apply keepsAskNow rfl
  apply keepsAskNow rfl
  apply keepsIf
  · intro leading
    have led : u.candidate.leading = true := leading
    rw [if_pos led] at begun
    apply keepsBind
    apply keepsAttempt
    apply keepsMono (releaseTurn begun)
    intro released t u turn
    exact stopLeadingTurn turn.kept (.inr turn.phase)
  · intro standing
    have stands : ¬ u.candidate.leading = true := standing
    rw [if_neg stands] at begun
    exact begun

end Threads

section Runs
variable {contender : Contender} {pool : StopPool} {moves : List StopMove}

structure StopHolds (contender : Contender) (pool : StopPool) : Prop where
  closing : pool.Closing (answerStop contender.identity) callsAwaited (stopContract contender.identity)
    (fun n s => s.stops n = none)
  halting : Halting contender.identity pool.state
  fresh : ∀ n, pool.threads.length ≤ n → pool.state.stops n = none

theorem stopTrans (n : Nat) {a b c : StopWorld} (first : (stopContract contender.identity n).rely a b)
    (second : (stopContract contender.identity n).rely b c) : (stopContract contender.identity n).rely a c :=
  ⟨second.1,second.2.trans first.2⟩

theorem stopApart {n m : Nat} {a b : StopWorld} (other : n ≠ m)
    (kept : (stopContract contender.identity n).guarantee a b) : (stopContract contender.identity m).rely a b :=
  ⟨kept.1,kept.2 m (Ne.symm other)⟩

theorem stopStable {n m : Nat} {a b : StopWorld} (other : n ≠ m)
    (kept : (stopContract contender.identity n).guarantee a b) (ended : a.stops m = none) : b.stops m = none :=
  (kept.2 m (Ne.symm other)).trans ended

theorem stopEdit {f : StopWorld → StopWorld} (holds : StopHolds contender pool)
    (halting : Halting contender.identity (f pool.state)) (stops : (f pool.state).stops = pool.state.stops) :
    StopHolds contender (pool.edit f) where
  closing := Pool.closingEdit stopTrans holds.closing (fun n => ⟨halting,congrFun stops n⟩)
    fun n ended => (congrFun stops n).trans ended
  halting := halting
  fresh n beyond := (congrFun stops n).trans (holds.fresh n beyond)

theorem stopSpawn (holds : StopHolds contender pool) {p : Election callbacks Unit}
    (keeps : ∀ {t u}, Turn contender pool.threads.length none t u →
      StopKeeps contender pool.threads.length p (fun _ => Turn contender pool.threads.length none) t u) :
    StopHolds contender (pool.spawn (answerStop contender.identity) callsAwaited p) := by
  have turn := turnNow holds.halting (holds.fresh pool.threads.length (Nat.le_refl _))
  have spawned := Pool.closingSpawn stopTrans stopApart stopStable holds.closing
    (keepsMono (keeps turn) fun r t u turn => ⟨turn.kept,turn.phase⟩)
  refine ⟨spawned.1,spawned.2.1,?_⟩
  intro n beyond
  have longer : pool.threads.length < n := by
    simp only [Pool.spawn,List.length_append,List.length_singleton] at beyond
    omega
  exact (spawned.2.2 n (by omega)).trans (holds.fresh n (by omega))

theorem stopStepHolds {move : StopMove} (holds : StopHolds contender pool) (disciplined : move.Disciplined pool) :
    StopHolds contender (stopStep contender pool move) := by
  cases move with
  | start => exact stopSpawn holds startTurn
  | tick => exact stopSpawn holds tickTurn
  | stop => exact stopSpawn holds stopTurn
  | foreign spec =>
      have stops : (pool.state.foreign spec).stops = pool.state.stops := by cases spec <;> rfl
      exact stopEdit (f := fun s => s.foreign spec) holds (haltingForeign holds.halting spec) stops
  | pass ms =>
      have halting := holds.halting
      exact stopEdit (f := fun s => {s with clock := s.clock + ms}) holds
        ⟨halting.named,halting.owed,halting.halted,halting.paired⟩ rfl
  | proceed n outcome =>
      have halting := holds.halting
      have faced := stopEdit (f := fun s => {s with next := outcome}) holds
        ⟨halting.named,halting.owed,halting.halted,halting.paired⟩ rfl
      have proceeded := Pool.closingProceed (w := ()) stopTrans stopApart stopStable ⟨faced.halting,rfl⟩
        ⟨faced.halting,fun _ _ => rfl⟩ faced.closing disciplined
      refine ⟨proceeded.1,proceeded.2.1,?_⟩
      intro m beyond
      simp only [stopStep,Pool.proceedLength] at beyond ⊢
      by_cases same : n = m
      · subst same
        rw [Pool.proceedBeyond _ _ beyond]
        exact faced.fresh n beyond
      · exact (proceeded.2.2 m (Ne.symm same)).trans (faced.fresh m beyond)

theorem stopRunHolds (holds : StopHolds contender pool) (disciplined : StopDisciplined contender moves pool) :
    StopHolds contender (stopRun contender moves pool) :=
  eachStepKeeps (StopHolds contender) (fun _ _ => stopStepHolds) holds disciplined

theorem noElectionHolds (spec : Option LeaseSpec) (clock : Nat) : StopHolds contender (noElection spec clock) :=
  ⟨Pool.closingEmpty _,⟨nofun,nofun,nofun,fun _ => .inl rfl⟩,fun _ _ => rfl⟩

theorem noStops (holds : StopHolds contender pool)
    (settled : ∀ p ∈ pool.threads, ∀ c next, p ≠ .call c next) (n : Nat) : pool.state.stops n = none :=
  Pool.closingSettled holds.closing settled holds.fresh n

theorem settledFinal (holds : StopHolds contender pool)
    (settled : ∀ p ∈ pool.threads, ∀ c next, p ≠ .call c next) (stopped : pool.state.candidate.stopped = true) :
    Final pool.state := by
  have none := noStops holds settled
  have idle : pool.state.candidate.leading = false := by
    cases leading : pool.state.candidate.leading with
    | false => rfl
    | true =>
        obtain ⟨n,phase,going⟩ := holds.halting.halted stopped leading
        simp [none] at going
  constructor
  · exact idle
  · cases late : pool.state.late with
    | false => rfl
    | true =>
        obtain ⟨n,owes⟩ := holds.halting.owed late
        exact absurd owes (freeOf (none n))
  · intro later earlier same
    rcases holds.halting.paired idle with nothing | ended
    · simp [nothing] at same
    · cases later with
      | nil => simp [same] at ended
      | cons callback rest =>
          have first : callback = .onStoppedLeading := by simpa [same] using ended
          simp [first]

end Runs

/- In every disciplined run, once all ticks and stops have settled and `start` has not been called since
the last stop, the stop is final. -/
theorem stopIsFinal (contender : Contender) (spec : Option LeaseSpec) (clock : Nat) (moves : List StopMove)
    (disciplined : StopDisciplined contender moves (noElection spec clock))
    (settled : ∀ p ∈ (stopRun contender moves (noElection spec clock)).threads, ∀ c next, p ≠ .call c next)
    (stopped : (stopRun contender moves (noElection spec clock)).state.candidate.stopped = true) :
    Final (stopRun contender moves (noElection spec clock)).state :=
  settledFinal (stopRunHolds (noElectionHolds spec clock) disciplined) settled stopped

def passmowerPod : Contender := ⟨"passmower-0",by decide,15,10⟩

def leadAndStop : List StopMove :=
  [.start,.proceed 0 .served,.proceed 0 .served,.proceed 0 .served,.proceed 0 .served,.proceed 0 .served,
   .stop,.proceed 1 .served,.proceed 1 .served,.proceed 1 .served,.proceed 1 .served,.proceed 1 .served]

theorem ledAndStopped : StopDisciplined passmowerPod leadAndStop (noElection none 0) ∧
    Final (stopRun passmowerPod leadAndStop (noElection none 0)).state := by
  have disciplined : StopDisciplined passmowerPod leadAndStop (noElection none 0) := by
    refine ⟨trivial,nofun,nofun,nofun,nofun,trivial,trivial,nofun,nofun,nofun,trivial,trivial,trivial⟩
  have ended : (stopRun passmowerPod leadAndStop (noElection none 0)).threads = [.pure (),.pure ()] := by rfl
  refine ⟨disciplined,stopIsFinal passmowerPod none 0 leadAndStop disciplined ?_ rfl⟩
  rw [ended]
  simp

def stopWhileAcquiring : List StopMove :=
  [.start,.proceed 0 .served,.proceed 0 .served,.stop,.proceed 0 .served,.proceed 0 .served,.proceed 0 .served]

/- Nothing is in flight any more, and the stopped pod leads. -/
theorem stoppedWhileAcquiring :
    (stopRun passmowerPod stopWhileAcquiring (noElection none 0)).threads = [.pure (),.pure ()] ∧
    (stopRun passmowerPod stopWhileAcquiring (noElection none 0)).state.candidate.stopped = true ∧
    ¬ Final (stopRun passmowerPod stopWhileAcquiring (noElection none 0)).state := by
  refine ⟨by rfl,rfl,fun final => ?_⟩
  have idle := final.idle
  cases idle

end Passmower
