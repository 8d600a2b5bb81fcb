import Passmower.LeaderElection

/-! One tick of a pod, by whatever the API answers to its read and its write: when a leader whose
last renewal is overdue stands down or renews. -/
namespace Passmower
open JavaScript Resumption Program

structure TickOutcome where
  read : Except Failure Lease
  readTakes : Nat
  write : Except Failure Unit
  writeTakes : Nat
  callback : Except Failure Unit

/- `renewals` counts the writes answered with success. -/
structure TickWorld where
  clock : Nat
  candidate : Candidate
  renewals : Nat := 0

namespace TickOutcome
variable (outcome : TickOutcome)

structure Ordinary : Prop where
  read : ∀ error, outcome.read = .error error → error.refused = false
  write : ∀ error, outcome.write = .error error → error.refused = false

def answer : (r : LeaseRequest) → Except Failure r.Reply
  | .read => outcome.read
  | .create _ | .replace _ => outcome.write

def onward : LeaseRequest → TickWorld → TickWorld
  | .read, s => {s with clock := s.clock + outcome.readTakes}
  | .create _, s | .replace _, s =>
      {s with clock := s.clock + outcome.writeTakes
              renewals := if outcome.write.isOk then s.renewals + 1 else s.renewals}

def answerTick : Handler (election callbacks) Unit TickWorld := fun _ c s => match c with
  | .now => (s.clock,s)
  | .fields _ => (s.candidate,s)
  | .set _ field => ((),{s with candidate := s.candidate.set field})
  | .send _ _ request => (outcome.answer request,outcome.onward request s)
  | .receive _ _ _ answer => (answer,s)
  | .callback (.invoke _ _) => ((),s)
  | .callback (.settle _ _) => (outcome.callback,s)

def writeSettles : Prop := outcome.write = .ok () ∨ ∃ error, outcome.write = .error error ∧ error.code = some 409

end TickOutcome

namespace LeaderElection
variable (self : LeaderElection callbacks) (outcome : TickOutcome) (s : TickWorld)

def tickFrom : TickWorld := after outcome.answerTick self.tick [] s

def StandsDown : Prop := s.candidate.leading = true → self.overdue s.candidate s.clock = true →
  (self.tickFrom outcome s).candidate.leading = false ∨ s.renewals < (self.tickFrom outcome s).renewals

def Decides : Prop := s.candidate.stopped = false ∧ match outcome.read with
  | .error error => error.code = some 404 ∧ outcome.writeSettles
  | .ok lease => (lease.spec.holderIdentity = some self.identity ∨
      self.expired lease (s.clock + outcome.readTakes) = true) → outcome.writeSettles

section Tick
variable {self : LeaderElection callbacks} {outcome : TickOutcome} {s : TickWorld}

theorem requestRun (caller : Caller) (r : LeaseRequest) :
    run outcome.answerTick (self.request caller r) [] s = (outcome.answer r,[],outcome.onward r s) := by
  unfold request
  rw [runAsk,runAsk]
  simp only [TickOutcome.answerTick]
  cases outcome.answer r <;> rfl

theorem getLeaseRun (caller : Caller) : run outcome.answerTick (self.getLease caller) [] s =
    (match outcome.read with
      | .ok lease => .ok (some lease)
      | .error error => if error.code = some 404 then .ok none else .error error,
      [],outcome.onward .read s) := by
  unfold getLease
  rw [runTryCatch,runBind,requestRun]
  simp only [TickOutcome.answer]
  cases outcome.read with
  | ok lease => rfl
  | error error =>
      simp only
      split <;> rfl

theorem callbackAfter (p : Nat) (callback : LeaderCallback) :
    after outcome.answerTick (callback.program p) [] s = s := by
  unfold after LeaderCallback.program
  rw [runAsk,runAsk]
  simp only [TickOutcome.answerTick]
  cases outcome.callback <;> rfl

end Tick

def Calling (self : LeaderElection callbacks) : Prop :=
  self.onStartedLeading = LeaderCallback.program self.pod .onStartedLeading ∧
    self.onStoppedLeading = LeaderCallback.program self.pod .onStoppedLeading

section Ends
variable {self : LeaderElection callbacks} {outcome : TickOutcome} {s t : TickWorld}

def Settles (s t : TickWorld) : Prop := t.candidate.leading = false ∨ s.renewals < t.renewals

theorem stopLeadingAfter (calling : self.Calling) (leading : s.candidate.leading = true) :
    after outcome.answerTick self.stopLeading [] s = {s with candidate := s.candidate.set (.leading false)} := by
  unfold stopLeading after fields
  rw [runAsk]
  simp only [TickOutcome.answerTick,leading,if_true,calling.2]
  exact callbackAfter self.pod .onStoppedLeading

theorem startLeadingAfter (calling : self.Calling) : (after outcome.answerTick self.startLeading [] s).renewals = s.renewals := by
  unfold startLeading after fields
  rw [runAsk]
  by_cases leading : s.candidate.leading = true
  · simp only [TickOutcome.answerTick,leading,if_true]
    rfl
  · simp only [TickOutcome.answerTick,calling.1,List.tail_nil]
    rw [if_neg leading]
    have called : after outcome.answerTick (LeaderCallback.program self.pod .onStartedLeading) []
        {s with candidate := s.candidate.set (.leading true)} = _ := callbackAfter self.pod .onStartedLeading
    exact Eq.trans (congrArg TickWorld.renewals called) rfl

theorem renewedAfter (calling : self.Calling) : (after outcome.answerTick self.renewed [] s).renewals = s.renewals :=
  startLeadingAfter (s := {s with candidate := s.candidate.set (.lastRenewedAt s.clock)}) calling

theorem failRenewalAfter (calling : self.Calling) (leading : s.candidate.leading = true)
    (overdue : self.overdue s.candidate s.clock = true) :
    (after outcome.answerTick self.failRenewal [] s).candidate.leading = false := by
  unfold failRenewal after fields now
  rw [runAsk]
  simp only [TickOutcome.answerTick,leading,if_true]
  rw [runAsk]
  simp only [TickOutcome.answerTick,overdue,if_true]
  exact congrArg (fun t : TickWorld => t.candidate.leading) (stopLeadingAfter calling leading)

theorem overdueLater {candidate : Candidate} {time later : Nat} (overdue : self.overdue candidate time = true)
    (onward : time ≤ later) : self.overdue candidate later = true := by
  unfold LeaderElection.overdue at overdue ⊢
  split at overdue
  · rfl
  · simp only [decide_eq_true_eq] at overdue ⊢
    omega

theorem writeEnds {ending : Except Failure Unit → Election callbacks Unit} (calling : self.Calling)
    (success : ending (.ok ()) = self.renewed)
    (renewals : t.renewals = if outcome.write.isOk then s.renewals + 1 else s.renewals)
    (leading : t.candidate.leading = true)
    (conflict : ∀ error, outcome.write = .error error → error.code = some 409 →
      (after outcome.answerTick (ending (.error error)) [] t).candidate.leading = false)
    (other : ∀ error, outcome.write = .error error → error.code ≠ some 409 →
      after outcome.answerTick (ending (.error error)) [] t = t) :
    Settles s (after outcome.answerTick (ending outcome.write) [] t) ↔ outcome.writeSettles := by
  unfold TickOutcome.writeSettles
  cases write : outcome.write with
  | ok _ =>
      rw [write] at renewals
      have more : (after outcome.answerTick (ending (.ok ())) [] t).renewals = s.renewals + 1 := by
        rw [success,renewedAfter calling,renewals]
        rfl
      exact ⟨fun _ => .inl rfl,fun _ => .inr (by rw [more]; exact Nat.lt_succ_self _)⟩
  | error error =>
      rw [write] at renewals
      by_cases conflicts : error.code = some 409
      · exact ⟨fun _ => .inr ⟨error,rfl,conflicts⟩,fun _ => .inl (conflict error write conflicts)⟩
      · have unchanged := other error write conflicts
        constructor
        · intro settles
          simp [Settles,unchanged,leading,renewals,Except.isOk,Except.toBool] at settles
        · intro settles
          rcases settles with succeeded | ⟨failure,failed,conflicted⟩
          · cases succeeded
          · cases failed
            exact absurd conflicted conflicts

theorem refusalRun {error : Failure} (ordinary : error.refused = false) :
    run outcome.answerTick (self.handleApiError error) [] s = (.error error,[],s) := by
  unfold handleApiError
  rw [if_neg (by simp [ordinary])]
  rfl

theorem writeRun (existing : Option Lease) (spec : LeaseSpec) :
    run outcome.answerTick (self.writeLease existing spec) [] s =
      (outcome.write,[],outcome.onward (.create spec) s) := by
  cases existing with
  | none => exact requestRun .tick (.create spec)
  | some lease => exact requestRun .tick (.replace {lease with spec := spec})

theorem acquireSettles (calling : self.Calling) (ordinary : outcome.Ordinary) (leading : s.candidate.leading = true)
    (seen : Option Lease) :
    Settles s (after outcome.answerTick (self.acquire seen) [] s) ↔ outcome.writeSettles := by
  have ends : after outcome.answerTick (self.acquire seen) [] s = after outcome.answerTick
      (self.afterAcquire outcome.write) [] (outcome.onward (.create (self.acquiredSpec seen s.clock)) s) :=
    congrArg (fun out => out.2.2) (runAttemptBind (writeRun seen _) self.afterAcquire)
  rw [ends]
  apply writeEnds (s := s) (t := outcome.onward (.create _) s) calling rfl rfl leading
  · intro error failed conflicts
    rw [afterAcquire,if_pos conflicts,stopLeadingAfter (s := outcome.onward (.create _) s) calling leading]
    rfl
  · intro error failed other
    rw [afterAcquire,if_neg other]
    exact congrArg (fun out => out.2.2) (refusalRun (ordinary.write error failed))

theorem renewSettles (calling : self.Calling) (ordinary : outcome.Ordinary) (leading : s.candidate.leading = true)
    (overdue : self.overdue s.candidate s.clock = true) (lease : Lease) :
    Settles s (after outcome.answerTick (self.renew lease) [] s) ↔ outcome.writeSettles := by
  have ends : after outcome.answerTick (self.renew lease) [] s = after outcome.answerTick
      (self.afterRenew outcome.write) [] (outcome.onward (.create (self.renewedSpec lease.spec s.clock)) s) :=
    congrArg (fun out => out.2.2) (runAttemptBind (writeRun (some lease) _) self.afterRenew)
  rw [ends]
  apply writeEnds (s := s) (t := outcome.onward (.create _) s) calling rfl rfl leading
  · intro error failed conflicts
    rw [afterRenew,if_pos conflicts]
    exact failRenewalAfter calling leading (overdueLater overdue (Nat.le_add_right _ _))
  · intro error failed other
    rw [afterRenew,if_neg other]
    unfold after
    rw [runBind,refusalRun (ordinary.write error failed)]

theorem tickSettles (calling : self.Calling) (ordinary : outcome.Ordinary) (leading : s.candidate.leading = true)
    (overdue : self.overdue s.candidate s.clock = true) :
    Settles s (self.tickFrom outcome s) ↔ self.Decides outcome s := by
  unfold Decides tickFrom
  cases stopped : s.candidate.stopped with
  | true =>
      have same : after outcome.answerTick self.tick [] s = s := by
        unfold after tick fields
        rw [runAsk]
        simp only [TickOutcome.answerTick,stopped]
        rfl
      simp [same,Settles,leading]
  | false =>
      have read : run outcome.answerTick (self.getLease .tick) [] s = _ := getLeaseRun .tick
      have ends : after outcome.answerTick self.tick [] s = after outcome.answerTick (self.afterRead
          (run outcome.answerTick (self.getLease .tick) [] s).1) [] (outcome.onward .read s) := by
        unfold after tick fields
        rw [runAsk]
        simp only [TickOutcome.answerTick,List.tail_nil,stopped,Bool.false_eq_true,if_false]
        rw [runAttemptBind read,read]
      have waits : self.overdue s.candidate (s.clock + outcome.readTakes) = true :=
        overdueLater overdue (Nat.le_add_right _ _)
      rw [ends,read]
      cases answer : outcome.read with
      | error error =>
          by_cases missing : error.code = some 404
          · simp only [missing,if_true,true_and]
            exact acquireSettles (s := outcome.onward .read s) calling ordinary leading none
          · have failed : run outcome.answerTick (self.handleApiError error) [] (outcome.onward .read s) =
                (.error error,[],outcome.onward .read s) := refusalRun (ordinary.read error answer)
            simp only [missing,if_false,afterRead,after,failed,false_and,and_false,iff_false]
            simp [Settles,TickOutcome.onward,leading]
      | ok lease =>
          simp only [true_and,afterRead]
          by_cases own : lease.spec.holderIdentity = some self.identity
          · simp only [decideOn,own,if_true,true_or,true_implies]
            exact renewSettles (s := outcome.onward .read s) calling ordinary leading waits lease
          · simp only [decideOn,own,if_false,false_or]
            unfold after now
            rw [runAsk]
            simp only [TickOutcome.answerTick,List.tail_nil]
            by_cases expired : self.expired lease (s.clock + outcome.readTakes) = true
            · simp only [TickOutcome.onward,expired,if_true,true_implies]
              exact acquireSettles (s := outcome.onward .read s) calling ordinary leading (some lease)
            · have stands : after outcome.answerTick self.stopLeading [] (outcome.onward .read s) = _ :=
                stopLeadingAfter calling leading
              simp only [TickOutcome.onward,expired,Bool.false_eq_true,if_false,false_implies,iff_true]
              exact .inl (congrArg (fun t : TickWorld => t.candidate.leading) stands)

end Ends

def calling (pod : Nat) (identity : String) (identified : identity ≠ "")
    (leaseDurationSeconds renewDeadlineSeconds : Nat) : LeaderElection callbacks where
  pod := pod
  identity := identity
  identified := identified
  leaseDurationSeconds := leaseDurationSeconds
  renewDeadlineSeconds := renewDeadlineSeconds
  onStartedLeading := LeaderCallback.program pod .onStartedLeading
  onStoppedLeading := LeaderCallback.program pod .onStoppedLeading

/- Whatever the pod remembers and the API answers, 401 and 403 apart, a leader whose last renewal is
overdue stands down or renews exactly in a tick that gets to a decision. -/
theorem overdueStandsDown (pod : Nat) (identity : String) (identified : identity ≠ "")
    (leaseDurationSeconds renewDeadlineSeconds : Nat) (outcome : TickOutcome) (s : TickWorld)
    (ordinary : outcome.Ordinary) :
    (calling pod identity identified leaseDurationSeconds renewDeadlineSeconds).StandsDown outcome s ↔
      s.candidate.leading = false ∨
      (calling pod identity identified leaseDurationSeconds renewDeadlineSeconds).overdue s.candidate s.clock = false ∨
      (calling pod identity identified leaseDurationSeconds renewDeadlineSeconds).Decides outcome s := by
  generalize same : calling pod identity identified leaseDurationSeconds renewDeadlineSeconds = self
  have calls : self.Calling := same ▸ ⟨rfl,rfl⟩
  unfold StandsDown
  cases leading : s.candidate.leading with
  | false => simp
  | true => cases overdue : self.overdue s.candidate s.clock with
      | false => simp
      | true =>
          simp only [true_implies,Bool.true_eq_false,false_or]
          exact tickSettles calls ordinary leading overdue

theorem passmowerNamed : "passmower-0" ≠ "" := by decide

def onlyPod : LeaderElection callbacks := calling 0 "passmower-0" passmowerNamed 15 10

def longAgo : TickWorld := {clock := 60000, candidate := {leading := true, timer := true, lastRenewedAt := some 0}}

def ownLease : Lease := {spec := {holderIdentity := some "passmower-0", renewTime := some 0}, resourceVersion := 7}

def conflicting : TickOutcome := ⟨.ok ownLease,20,.error .conflict,20,.ok ()⟩

def unavailable : TickOutcome := ⟨.ok ownLease,20,.error ⟨some 503⟩,20,.ok ()⟩

theorem conflictStandsDown : conflicting.Ordinary ∧ onlyPod.StandsDown conflicting longAgo := by
  have ordinary : conflicting.Ordinary := ⟨nofun,fun error failed => by cases failed; rfl⟩
  have decides : onlyPod.Decides conflicting longAgo := ⟨rfl,fun _ => .inr ⟨_,rfl,rfl⟩⟩
  exact ⟨ordinary,(overdueStandsDown 0 "passmower-0" (by decide) 15 10 conflicting longAgo ordinary).mpr
    (.inr (.inr decides))⟩

/- With the API answering 503 to the renewal the pod goes on leading. -/
theorem unavailableLeadsOn : unavailable.Ordinary ∧ ¬ onlyPod.StandsDown unavailable longAgo := by
  have leads : (onlyPod.tickFrom unavailable longAgo).candidate.leading = true := rfl
  have same : (onlyPod.tickFrom unavailable longAgo).renewals = 0 := rfl
  have overdue : onlyPod.overdue longAgo.candidate longAgo.clock = true := by
    simp [overdue,longAgo,onlyPod,calling]
  refine ⟨⟨nofun,fun error failed => by cases failed; rfl⟩,fun stands => ?_⟩
  rcases stands rfl overdue with idle | renewed
  · rw [leads] at idle
    cases idle
  · rw [same] at renewed
    cases renewed

end LeaderElection
end Passmower
