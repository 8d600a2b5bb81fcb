import Passmower.Resumption.Endless

/-! The wake-ups of the email reconcile: the callbacks of the watch over the users, and the runs that they ask for. -/
namespace Passmower
open Resumption

inductive UserWatchEvent where
  | added
  /- Whether the pod itself has made the change. -/
  | modified (own : Bool)
  | deleted

/- What a callback waits for: `replaceUserLabels` or `reconcileUserStatus`. -/
inductive WatchCallback where
  | labelling
  | restating
  deriving DecidableEq

inductive ReconcileOutcome where
  | succeeded
  | failed (logged : Bool)

/- A `do … while`: in the middle of `reconcileEmailUniqueness`, or over but for its `finally`. -/
inductive EmailLoop where
  | reconciling
  | returned
  deriving DecidableEq

/- `called` and `started` count the calls of `#scheduleEmailReconcile` and the runs of `reconcileEmailUniqueness`. -/
structure EmailReconciles where
  reconcileEmailPromise : Bool := false
  reconcileEmailPending : Bool := false
  callbacks : List WatchCallback := []
  loops : List EmailLoop := []
  called : Nat := 0
  started : Nat := 0

inductive EmailMove where
  | watched (event : UserWatchEvent)
  | answered (n : Nat) (ok : Bool)
  | settled (n : Nat) (outcome : ReconcileOutcome)
  | finalized (n : Nat)

namespace EmailReconciles
variable (s : EmailReconciles)

def run : EmailReconciles := {s with reconcileEmailPending := false, started := s.started + 1}

def scheduleEmailReconcile : EmailReconciles :=
  let s := {s with called := s.called + 1}
  if s.reconcileEmailPromise then {s with reconcileEmailPending := true}
  else {s.run with loops := s.loops ++ [.reconciling], reconcileEmailPromise := true}

def watch : UserWatchEvent → EmailReconciles
  | .added => {s with callbacks := s.callbacks ++ [.labelling]}
  | .modified own => if own then s else {s with callbacks := s.callbacks ++ [.restating]}
  | .deleted => s.scheduleEmailReconcile

def answer (n : Nat) (ok : Bool) : EmailReconciles := match s.callbacks[n]? with
  | some .labelling =>
      if ok then {s with callbacks := s.callbacks.set n .restating} else {s with callbacks := s.callbacks.eraseIdx n}
  | some .restating =>
      let rest := {s with callbacks := s.callbacks.eraseIdx n}
      if ok then rest.scheduleEmailReconcile else rest
  | none => s

/- `while (this.reconcileEmailPending)`, unless the logger has thrown. -/
def settle (n : Nat) (outcome : ReconcileOutcome) : EmailReconciles := match s.loops[n]? with
  | some .reconciling =>
      let ended := {s with loops := s.loops.set n .returned}
      match outcome with
      | .failed false => ended
      | _ => if s.reconcileEmailPending then s.run else ended
  | _ => s

def finalize (n : Nat) : EmailReconciles := match s.loops[n]? with
  | some .returned =>
      let cleared := {s with loops := s.loops.eraseIdx n, reconcileEmailPromise := false}
      if cleared.reconcileEmailPending then cleared.scheduleEmailReconcile else cleared
  | _ => s

def step : EmailMove → EmailReconciles
  | .watched event => s.watch event
  | .answered n ok => s.answer n ok
  | .settled n outcome => s.settle n outcome
  | .finalized n => s.finalize n

inductive Single (s : EmailReconciles) : Prop where
  | idle (none : s.loops = []) (unpromised : s.reconcileEmailPromise = false) (served : s.reconcileEmailPending = false)
  | busy (loop : EmailLoop) (one : s.loops = [loop]) (promised : s.reconcileEmailPromise = true)

def running : Nat := (s.loops.filter (· = .reconciling)).length

end EmailReconciles

namespace EmailReconciles
variable {s : EmailReconciles} {n : Nat}

theorem singleRuns (single : Single s) : s.running ≤ 1 := by
  unfold running
  cases single with
  | idle none => simp [none]
  | busy loop one => cases loop <;> simp [one]

inductive Progress (s : EmailReconciles) (move : EmailMove) (t : EmailReconciles) : Prop where
  | quiet (loops : t.loops = s.loops) (promise : t.reconcileEmailPromise = s.reconcileEmailPromise)
      (pending : t.reconcileEmailPending = s.reconcileEmailPending) (called : t.called = s.called) (started : t.started = s.started)
  | wished (loops : t.loops = s.loops) (busy : s.loops ≠ []) (promise : t.reconcileEmailPromise = s.reconcileEmailPromise)
      (pending : t.reconcileEmailPending = true) (started : t.started = s.started)
  | began (loops : t.loops = [.reconciling]) (promise : t.reconcileEmailPromise = true) (started : t.started = s.started + 1)
  | ended {outcome : ReconcileOutcome} (settled : move = .settled 0 outcome) (loops : t.loops = [.returned])
      (promise : t.reconcileEmailPromise = s.reconcileEmailPromise) (pending : t.reconcileEmailPending = s.reconcileEmailPending)
      (busy : s.loops = [.reconciling]) (called : t.called = s.called) (started : t.started = s.started)
  | cleared (finalized : move = .finalized 0) (ended : s.loops = [.returned]) (loops : t.loops = [])
      (promise : t.reconcileEmailPromise = false)
      (served : s.reconcileEmailPending = false) (pending : t.reconcileEmailPending = false) (called : t.called = s.called)
      (started : t.started = s.started)

theorem scheduleProgress (single : Single s) (move : EmailMove) : Progress s move s.scheduleEmailReconcile := by
  cases single with
  | idle none unpromised served =>
      simp only [scheduleEmailReconcile,unpromised,none]
      exact .began rfl rfl rfl
  | busy loop one promised =>
      simp only [scheduleEmailReconcile,promised]
      exact .wished rfl (by rw [one]; exact nofun) promised.symm rfl rfl

theorem settleProgress (single : Single s) (n : Nat) (outcome : ReconcileOutcome) :
    Progress s (.settled n outcome) (s.settle n outcome) := by
  unfold settle
  split
  · rename_i here
    cases single with
    | idle none => simp [none] at here
    | busy loop one promised =>
        obtain ⟨rfl,rfl⟩ : n = 0 ∧ loop = .reconciling := by
          cases n <;> simp_all
        have ended : Progress s (.settled 0 outcome) {s with loops := s.loops.set 0 .returned} :=
          .ended rfl (by simp [one]) rfl rfl one rfl rfl
        cases outcome with
        | failed logged =>
            cases logged with
            | false => exact ended
            | true =>
                dsimp only
                split
                · exact .began one promised rfl
                · exact ended
        | succeeded =>
            dsimp only
            split
            · exact .began one promised rfl
            · exact ended
  · exact .quiet rfl rfl rfl rfl rfl

theorem finalizeProgress (single : Single s) (n : Nat) : Progress s (.finalized n) (s.finalize n) := by
  unfold finalize
  split
  · rename_i here
    cases single with
    | idle none => simp [none] at here
    | busy loop one promised =>
        obtain ⟨rfl,rfl⟩ : n = 0 ∧ loop = .returned := by
          cases n <;> simp_all
        simp only [one,List.eraseIdx_zero,List.tail_cons]
        split
        · exact .began rfl rfl rfl
        · rename_i served
          have served : s.reconcileEmailPending = false := by simpa using served
          exact .cleared rfl one rfl rfl served served rfl rfl
  · exact .quiet rfl rfl rfl rfl rfl

theorem stepProgress (single : Single s) (move : EmailMove) : Progress s move (s.step move) := by
  have same (callbacks : List WatchCallback) : Progress s move {s with callbacks := callbacks} := .quiet rfl rfl rfl rfl rfl
  cases move with
  | watched event =>
      cases event with
      | added => exact same _
      | modified own =>
          cases own with
          | true => exact .quiet rfl rfl rfl rfl rfl
          | false => exact same _
      | deleted => exact scheduleProgress single _
  | answered n ok =>
      simp only [step,answer]
      split
      · split <;> exact same _
      · split
        · have rest : Single {s with callbacks := s.callbacks.eraseIdx n} := by
            cases single with
            | idle none unpromised served => exact .idle none unpromised served
            | busy loop one promised => exact .busy loop one promised
          cases scheduleProgress rest (.answered n ok) with
          | quiet loops promise pending called started => exact .quiet loops promise pending called started
          | wished loops busy promise pending started => exact .wished loops busy promise pending started
          | began loops promise started => exact .began loops promise started
          | ended settled => cases settled
          | cleared finalized => cases finalized
        · exact same _
      · exact .quiet rfl rfl rfl rfl rfl
  | settled n outcome => exact settleProgress single n outcome
  | finalized n => exact finalizeProgress single n

theorem stepSingle (s : EmailReconciles) (move : EmailMove) (single : Single s) : Single (s.step move) := by
  cases stepProgress single move with
  | quiet loops promise pending =>
      cases single with
      | idle none unpromised served => exact .idle (loops.trans none) (promise.trans unpromised) (pending.trans served)
      | busy loop one promised => exact .busy loop (loops.trans one) (promise.trans promised)
  | wished loops busy promise =>
      cases single with
      | idle none => exact absurd none busy
      | busy loop one promised => exact .busy loop (loops.trans one) (promise.trans promised)
  | began loops promise => exact .busy .reconciling loops promise
  | ended settled loops promise pending busy =>
      cases single with
      | idle none => cases none.symm.trans busy
      | busy loop one promised => exact .busy .returned loops (promise.trans promised)
  | cleared finalized ended loops promise served pending => exact .idle loops promise pending

theorem calledPending (single : Single s) {move : EmailMove} (calls : s.called < (s.step move).called) :
    s.started < (s.step move).started ∨ (s.step move).reconcileEmailPending = true := by
  cases stepProgress single move with
  | quiet loops promise pending called => omega
  | wished loops busy promise pending => exact .inr pending
  | began loops promise started => exact .inl (by omega)
  | ended settled loops promise pending busy called => omega
  | cleared finalized ended loops promise served pending called => omega

theorem pendingStays (single : Single s) {move : EmailMove} (wish : s.reconcileEmailPending = true)
    (unstarted : ¬ s.started < (s.step move).started) : (s.step move).reconcileEmailPending = true := by
  cases stepProgress single move with
  | quiet loops promise pending => exact pending.trans wish
  | wished loops busy promise pending => exact pending
  | began loops promise started => omega
  | ended settled loops promise pending => exact pending.trans wish
  | cleared finalized ended loops promise served =>
      rw [served] at wish
      cases wish

theorem returnedStays (single : Single s) {move : EmailMove} (ended : s.loops = [.returned])
    (unstarted : ¬ s.started < (s.step move).started) (other : move ≠ .finalized 0) : (s.step move).loops = [.returned] := by
  cases stepProgress single move with
  | quiet loops => exact loops.trans ended
  | wished loops => exact loops.trans ended
  | began loops promise started => omega
  | ended settled loops promise pending busy => cases busy.symm.trans ended
  | cleared finalized => exact absurd finalized other

theorem reconcilingStays (single : Single s) {move : EmailMove} (busy : s.loops = [.reconciling])
    (_ : ¬ s.started < (s.step move).started) (other : ∀ outcome, move ≠ .settled 0 outcome) :
    (s.step move).loops = [.reconciling] := by
  cases stepProgress single move with
  | quiet loops => exact loops.trans busy
  | wished loops => exact loops.trans busy
  | began loops promise started => omega
  | ended settled => exact absurd settled (other _)
  | cleared finalized ended => cases busy.symm.trans ended

theorem settledWish (busy : s.loops = [.reconciling]) (wish : s.reconcileEmailPending = true) (outcome : ReconcileOutcome) :
    s.started < (s.step (.settled 0 outcome)).started ∨ (s.step (.settled 0 outcome)).loops = [.returned] := by
  cases outcome with
  | succeeded => simp [step,settle,busy,wish,run]
  | failed logged => cases logged <;> simp [step,settle,busy,wish,run]

theorem finalizedWish (ended : s.loops = [.returned]) (wish : s.reconcileEmailPending = true) :
    s.started < (s.step (.finalized 0)).started := by
  simp [step,finalize,ended,wish,scheduleEmailReconcile,run]

end EmailReconciles

/- Runs of `reconcileEmailUniqueness` come to an end, and the jobs that promises have queued are run. -/
structure EmailFair (moves : Nat → EmailMove) : Prop where
  settles : ∀ i n, (stateAt EmailReconciles.step {} moves i).loops[n]? = some .reconciling →
    ∃ j, i ≤ j ∧ ∃ outcome, moves j = .settled n outcome
  finalizes : ∀ i n, (stateAt EmailReconciles.step {} moves i).loops[n]? = some .returned →
    ∃ j, i ≤ j ∧ moves j = .finalized n

section Endless
variable {moves : Nat → EmailMove}

abbrev emailAt (moves : Nat → EmailMove) : Nat → EmailReconciles := stateAt EmailReconciles.step {} moves

def EmailStarts (moves : Nat → EmailMove) (j : Nat) : Prop := (emailAt moves j).started < (emailAt moves (j + 1)).started

theorem emailSingle (moves : Nat → EmailMove) (n : Nat) : EmailReconciles.Single (emailAt moves n) :=
  stateAtKeeps (.idle rfl rfl rfl) EmailReconciles.stepSingle n

def Wished (moves : Nat → EmailMove) (loop : EmailLoop) (i : Nat) : Prop :=
  (emailAt moves i).loops = [loop] ∧ (emailAt moves i).reconcileEmailPending = true

theorem returnedStarts (fair : EmailFair moves) {i : Nat} (wished : Wished moves .returned i) :
    ∃ j, i ≤ j ∧ EmailStarts moves j := by
  have stays (j : Nat) (wished : Wished moves .returned j) (undone : ¬ (moves j = .finalized 0 ∨ EmailStarts moves j)) :
      Wished moves .returned (j + 1) := by
    have single := emailSingle moves j
    have unstarted : ¬ EmailStarts moves j := fun starts => undone (.inr starts)
    exact ⟨EmailReconciles.returnedStays single wished.1 unstarted fun finalized => undone (.inl finalized),
      EmailReconciles.pendingStays single wished.2 unstarted⟩
  obtain ⟨j,later,finalized⟩ := fair.finalizes i 0 (by rw [wished.1]; rfl)
  obtain ⟨k,after,wished,finalized | starts⟩ := untilDone wished stays ⟨j,later,.inl finalized⟩
  · have starts := EmailReconciles.finalizedWish wished.1 wished.2
    rw [← finalized] at starts
    exact ⟨k,after,starts⟩
  · exact ⟨k,after,starts⟩

theorem reconcilingStarts (fair : EmailFair moves) {i : Nat} (wished : Wished moves .reconciling i) :
    ∃ j, i ≤ j ∧ EmailStarts moves j := by
  have stays (j : Nat) (wished : Wished moves .reconciling j)
      (undone : ¬ ((∃ outcome, moves j = .settled 0 outcome) ∨ EmailStarts moves j)) : Wished moves .reconciling (j + 1) := by
    have single := emailSingle moves j
    have unstarted : ¬ EmailStarts moves j := fun starts => undone (.inr starts)
    exact ⟨EmailReconciles.reconcilingStays single wished.1 unstarted fun outcome settled => undone (.inl ⟨outcome,settled⟩),
      EmailReconciles.pendingStays single wished.2 unstarted⟩
  obtain ⟨j,later,settled⟩ := fair.settles i 0 (by rw [wished.1]; rfl)
  obtain ⟨k,after,wished,settled | starts⟩ := untilDone wished stays ⟨j,later,.inl settled⟩
  · obtain ⟨outcome,settled⟩ := settled
    have next := EmailReconciles.settledWish wished.1 wished.2 outcome
    rw [← settled] at next
    rcases Classical.em (EmailStarts moves k) with starts | unstarted
    · exact ⟨k,after,starts⟩
    · have ended := next.resolve_left unstarted
      have pending := EmailReconciles.pendingStays (emailSingle moves k) wished.2 unstarted
      obtain ⟨j,later,starts⟩ := returnedStarts (i := k + 1) fair ⟨ended,pending⟩
      exact ⟨j,by omega,starts⟩
  · exact ⟨k,after,starts⟩

end Endless

/- No two runs overlap, and each call is followed by a run that starts with it or after it. -/
theorem wakeUpsKept (moves : Nat → EmailMove) : (∀ i, (emailAt moves i).running ≤ 1) ∧
    (EmailFair moves → ∀ i, (emailAt moves i).called < (emailAt moves (i + 1)).called →
      ∃ j, i ≤ j ∧ (emailAt moves j).started < (emailAt moves (j + 1)).started) := by
  refine ⟨fun i => EmailReconciles.singleRuns (emailSingle moves i),fun fair i calls => ?_⟩
  rcases EmailReconciles.calledPending (emailSingle moves i) calls with starts | pending
  · exact ⟨i,Nat.le_refl i,starts⟩
  · have wish : (emailAt moves (i + 1)).reconcileEmailPending = true := pending
    obtain ⟨j,later,starts⟩ : ∃ j, i + 1 ≤ j ∧ EmailStarts moves j := by
      cases emailSingle moves (i + 1) with
      | idle none unpromised served =>
          rw [served] at wish
          cases wish
      | busy loop one promised =>
          cases loop with
          | reconciling => exact reconcilingStarts fair ⟨one,wish⟩
          | returned => exact returnedStarts fair ⟨one,wish⟩
    exact ⟨j,by omega,starts⟩

def twoDeletions : Nat → EmailMove
  | 0 | 1 => .watched .deleted
  | 2 => .settled 0 (.failed false)
  | 3 => .finalized 0
  | 4 => .settled 0 .succeeded
  | _ => .finalized 0

theorem deletionsRest (n : Nat) : emailAt twoDeletions (n + 6) = {called := 3, started := 2} := by
  induction n with
  | zero => rfl
  | succ n ih =>
      have next : emailAt twoDeletions (n + 1 + 6) = (emailAt twoDeletions (n + 6)).step (twoDeletions (n + 6)) := rfl
      rw [next,ih]
      rfl

theorem deletionsFair : EmailFair twoDeletions := by
  constructor
  · intro i n here
    have first : n = 0 ∧ (i = 1 ∨ i = 2 ∨ i = 4) := by
      match i with
      | 0 | 3 | 5 => rcases n with _ | n <;> cases here
      | 1 | 2 | 4 => rcases n with _ | n <;> cases here; decide
      | i + 6 =>
          change (emailAt twoDeletions (i + 6)).loops[n]? = _ at here
          rw [deletionsRest i] at here
          cases here
    obtain ⟨rfl,rfl | rfl | rfl⟩ := first
    · exact ⟨2,by decide,_,rfl⟩
    · exact ⟨2,by decide,_,rfl⟩
    · exact ⟨4,by decide,_,rfl⟩
  · intro i n here
    have first : n = 0 ∧ (i = 3 ∨ i = 5) := by
      match i with
      | 0 | 1 | 2 | 4 => rcases n with _ | n <;> cases here
      | 3 | 5 => rcases n with _ | n <;> cases here; decide
      | i + 6 =>
          change (emailAt twoDeletions (i + 6)).loops[n]? = _ at here
          rw [deletionsRest i] at here
          cases here
    obtain ⟨rfl,rfl | rfl⟩ := first
    · exact ⟨3,by decide,rfl⟩
    · exact ⟨5,by decide,rfl⟩

theorem deletionsFollowed : (∃ j, 1 ≤ j ∧ (emailAt twoDeletions j).started < (emailAt twoDeletions (j + 1)).started) ∧
    ∀ i, (emailAt twoDeletions i).running ≤ 1 :=
  ⟨(wakeUpsKept twoDeletions).2 deletionsFair 1 (by decide),(wakeUpsKept twoDeletions).1⟩

end Passmower
