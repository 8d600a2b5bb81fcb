import Passmower.RenewalDeadline

/-! A pod that may not touch leases: a tick in which a call is answered with 401 or 403, and what the pod does from then on
until it is stopped. -/
namespace Passmower
open JavaScript Resumption Program

structure DeniedTick extends TickOutcome where
  callbackTakes : Nat

/- `operating` says that the operators have been started and not been stopped since. -/
structure OperatingWorld where
  clock : Nat
  candidate : Candidate
  operating : Bool
  deriving DecidableEq, Repr

namespace OperatingWorld
variable (s : OperatingWorld)

def pass (ms : Nat) : OperatingWorld := {s with clock := s.clock + ms}

def set (field : CandidateField) : OperatingWorld := {s with candidate := s.candidate.set field}

def settled (callback : LeaderCallback) : Except Failure Unit → OperatingWorld
  | .ok () => {s with operating := callback = .onStartedLeading}
  | .error _ => s

def Leads : Prop := s.candidate.leading = true ∧ s.operating = true

end OperatingWorld

def DeniedTick.answerOperating (tick : DeniedTick) : Handler (election callbacks) Unit OperatingWorld := fun _ c s => match c with
  | .now => (s.clock,s)
  | .fields _ => (s.candidate,s)
  | .set _ field => ((),s.set field)
  | .send _ _ .read => (tick.read,s.pass tick.readTakes)
  | .send _ _ (.create _) | .send _ _ (.replace _) => (tick.write,s.pass tick.writeTakes)
  | .receive _ _ _ answer => (answer,s)
  | .callback (.invoke _ _) => ((),s)
  | .callback (.settle _ callback) => (tick.callback,(s.pass tick.callbackTakes).settled callback tick.callback)

inductive PodMove where
  | pass (ms : Nat)
  | fire (tick : DeniedTick)

namespace LeaderElection
variable (self : LeaderElection callbacks) (tick : DeniedTick) (s : OperatingWorld)

def ticked : OperatingWorld := after tick.answerOperating self.tick [] s

def podStep (s : OperatingWorld) : PodMove → OperatingWorld
  | .pass ms => s.pass ms
  | .fire tick => if s.candidate.timer then after tick.answerOperating self.tickQuietly [] s else s

def FallsBack (s : OperatingWorld) : Prop := ∀ moves : List PodMove, (moves.foldl self.podStep s).Leads

def deniedWrite : Prop := ∃ error, tick.write = .error error ∧ error.refused = true

def Denied : Prop := s.candidate.stopped = false ∧ match tick.read with
  | .error error => error.refused = true ∨ error.code = some 404 ∧ deniedWrite tick
  | .ok lease => (lease.spec.holderIdentity = some self.identity ∨
      self.expired lease (s.clock + tick.readTakes) = true) ∧ deniedWrite tick

def Operates : Prop := s.operating = true ∨ s.candidate.leading = false ∧ tick.callback = .ok ()

def Lapses : Prop :=
  if s.candidate.leading then self.overdue s.candidate s.clock = true
  else tick.callback = .ok () ∧ self.overdue s.candidate (s.clock + tick.callbackTakes) = true

def LapsedRenewal : Prop := ∃ lease, tick.read = .ok lease ∧ lease.spec.holderIdentity = some self.identity ∧
  self.Lapses tick ((s.pass tick.readTakes).pass tick.writeTakes)

section Ends
variable {self : LeaderElection callbacks} {tick : DeniedTick} {s : OperatingWorld}

theorem idleRun (moves : List PodMove) (idle : s.candidate.timer = false) :
    (moves.foldl self.podStep s).candidate = s.candidate ∧ (moves.foldl self.podStep s).operating = s.operating := by
  induction moves generalizing s with
  | nil => exact ⟨rfl,rfl⟩
  | cons move rest ih =>
      cases move with
      | pass ms => exact ih (s := s.pass ms) idle
      | fire tick =>
          have still : self.podStep s (.fire tick) = s := by simp [podStep,idle]
          rw [List.foldl_cons,still]
          exact ih idle

theorem leadsOn (idle : s.candidate.timer = false) : self.FallsBack s ↔ s.Leads := by
  constructor
  · exact fun falls => falls []
  · intro leads moves
    obtain ⟨candidate,operating⟩ := idleRun moves idle
    unfold OperatingWorld.Leads
    rw [candidate,operating]
    exact leads

theorem stoppedLeads (idle : s.candidate.leading = false) : ¬ self.FallsBack s := by
  intro falls
  have leads := (falls []).1
  rw [List.foldl_nil,idle] at leads
  cases leads

theorem callbackSettled (callback : LeaderCallback) :
    run tick.answerOperating (callback.program self.pod) [] s =
      (tick.callback,[],(s.pass tick.callbackTakes).settled callback tick.callback) := by
  unfold LeaderCallback.program
  rw [runAsk,runAsk]
  simp only [DeniedTick.answerOperating]
  cases tick.callback <;> rfl

theorem startedRun (calling : self.Calling) : run tick.answerOperating self.startLeading [] s =
    if s.candidate.leading then (.ok (),[],s)
    else (tick.callback,[],((s.set (.leading true)).pass tick.callbackTakes).settled .onStartedLeading tick.callback) := by
  unfold startLeading fields
  rw [runAsk]
  cases leading : s.candidate.leading with
  | true =>
      simp only [DeniedTick.answerOperating,leading]
      rfl
  | false =>
      simp only [DeniedTick.answerOperating,leading,calling.1]
      exact callbackSettled .onStartedLeading

theorem stoodDown (calling : self.Calling) : (after tick.answerOperating self.stopLeading [] s).candidate.leading = false := by
  unfold stopLeading fields after
  rw [runAsk]
  cases leading : s.candidate.leading with
  | true =>
      simp only [DeniedTick.answerOperating,leading,if_true,calling.2]
      have called : run tick.answerOperating (LeaderCallback.program self.pod .onStoppedLeading) [] (s.set (.leading false)) = _ :=
        callbackSettled .onStoppedLeading
      have ended := congrArg (fun out => out.2.2.candidate.leading) called
      simp only at ended
      refine Eq.trans ended ?_
      cases tick.callback <;> rfl
  | false =>
      simp only [DeniedTick.answerOperating,leading]
      exact leading

theorem failedRenewal (calling : self.Calling) (leading : s.candidate.leading = true) (overdue : Bool)
    (told : self.overdue s.candidate s.clock = overdue) :
    (overdue = true → (after tick.answerOperating self.failRenewal [] s).candidate.leading = false) ∧
      (overdue = false → after tick.answerOperating self.failRenewal [] s = s) := by
  unfold failRenewal fields now after
  rw [runAsk]
  simp only [DeniedTick.answerOperating,leading,if_true]
  rw [runAsk]
  simp only [DeniedTick.answerOperating,told]
  constructor
  · intro late
    rw [if_pos late]
    exact stoodDown calling
  · intro soon
    rw [if_neg (by simp [soon])]
    rfl

theorem handledRun {error : Failure} (refused : error.refused = true) :
    run tick.answerOperating (self.handleApiError error) [] s =
      run tick.answerOperating self.startLeading [] (s.set (.timer false)) := by
  unfold handleApiError
  rw [if_pos refused]
  exact runAsk _ _ _ _ _

theorem handledFallsBack (calling : self.Calling) {error : Failure} (refused : error.refused = true) :
    self.FallsBack (after tick.answerOperating (self.handleApiError error) [] s) ↔ Operates tick s := by
  unfold after Operates
  rw [handledRun refused,startedRun calling]
  cases leading : s.candidate.leading with
  | true =>
      have still : (s.set (.timer false)).candidate.leading = true := leading
      simp only [still,if_true,Bool.true_eq_false,false_and,or_false]
      rw [leadsOn rfl]
      exact ⟨fun leads => leads.2,fun operating => ⟨leading,operating⟩⟩
  | false =>
      have still : (s.set (.timer false)).candidate.leading = false := leading
      simp only [still,Bool.false_eq_true,if_false,true_and]
      cases settled : tick.callback with
      | ok _ => exact ⟨fun _ => .inr rfl,fun _ => (leadsOn rfl).mpr ⟨rfl,rfl⟩⟩
      | error error =>
          rw [leadsOn rfl]
          constructor
          · exact fun leads => .inl leads.2
          · intro operates
            rcases operates with operating | never
            · exact ⟨rfl,operating⟩
            · cases never

theorem renewalEnds (calling : self.Calling) (leads : s.candidate.leading = true) (idle : s.candidate.timer = false) :
    self.FallsBack (after tick.answerOperating self.failRenewal [] s) ↔
      s.operating = true ∧ ¬ self.overdue s.candidate s.clock = true := by
  cases overdue : self.overdue s.candidate s.clock with
  | true =>
      have down : (after tick.answerOperating self.failRenewal [] s).candidate.leading = false :=
        (failedRenewal calling leads true overdue).1 rfl
      exact ⟨fun falls => absurd falls (stoppedLeads down),fun never => absurd rfl never.2⟩
  | false =>
      have still : after tick.answerOperating self.failRenewal [] s = s := (failedRenewal calling leads false overdue).2 rfl
      rw [still,leadsOn idle]
      exact ⟨fun both => ⟨both.2,nofun⟩,fun both => ⟨leads,both.1⟩⟩

theorem renewalFallsBack (calling : self.Calling) {error : Failure} (refused : error.refused = true) :
    self.FallsBack (after tick.answerOperating (self.afterRenew (.error error)) [] s) ↔
      Operates tick s ∧ ¬ self.Lapses tick s := by
  have other : error.code ≠ some 409 := by
    intro conflict
    simp [Failure.refused,conflict] at refused
  unfold Operates Lapses after afterRenew
  simp only [if_neg other]
  rw [runBind,handledRun refused,startedRun calling]
  cases leading : s.candidate.leading with
  | true =>
      have still : (s.set (.timer false)).candidate.leading = true := leading
      simp only [still,if_true,Bool.true_eq_false,false_and,or_false]
      exact renewalEnds calling still rfl
  | false =>
      have still : (s.set (.timer false)).candidate.leading = false := leading
      simp only [still,Bool.false_eq_true,if_false,true_and]
      cases settled : tick.callback with
      | ok _ =>
          simp only [or_true,true_and]
          generalize begun : (((s.set (.timer false)).set (.leading true)).pass tick.callbackTakes).settled .onStartedLeading
            (.ok ()) = t
          have ends : self.FallsBack (after tick.answerOperating self.failRenewal [] t) ↔ _ :=
            renewalEnds calling (begun ▸ rfl) (begun ▸ rfl)
          subst begun
          exact Iff.trans ends ⟨fun both => both.2,fun soon => ⟨rfl,soon⟩⟩
      | error failure =>
          simp only
          rw [leadsOn rfl]
          constructor
          · exact fun leads => ⟨.inl leads.2,fun never => by cases never.1⟩
          · intro both
            rcases both.1 with operating | never
            · exact ⟨rfl,operating⟩
            · cases never

theorem askedRun (caller : Caller) (r : LeaseRequest) : run tick.answerOperating (self.request caller r) [] s =
    (tick.answer r,[],s.pass (if r = .read then tick.readTakes else tick.writeTakes)) := by
  unfold request
  rw [runAsk,runAsk]
  cases r with
  | read =>
      simp only [DeniedTick.answerOperating,TickOutcome.answer]
      cases tick.read <;> rfl
  | create spec =>
      simp only [DeniedTick.answerOperating,TickOutcome.answer]
      cases tick.write <;> rfl
  | replace lease =>
      simp only [DeniedTick.answerOperating,TickOutcome.answer]
      cases tick.write <;> rfl

theorem readRun (caller : Caller) : run tick.answerOperating (self.getLease caller) [] s =
    (leaseRead tick.read,[],s.pass tick.readTakes) := by
  unfold getLease
  rw [runTryCatch,runBind,askedRun]
  simp only [TickOutcome.answer,if_true]
  cases tick.read with
  | ok lease => rfl
  | error error =>
      simp only [leaseRead]
      split <;> rfl

theorem leaseWritten (existing : Option Lease) (spec : LeaseSpec) : run tick.answerOperating (self.writeLease existing spec) [] s =
    (tick.write,[],s.pass tick.writeTakes) := by
  cases existing with
  | none => exact askedRun .tick (.create spec)
  | some lease => exact askedRun .tick (.replace {lease with spec := spec})

theorem acquireDenied (calling : self.Calling) (denied : deniedWrite tick) (existing : Option Lease) :
    self.FallsBack (after tick.answerOperating (self.acquire existing) [] s) ↔ Operates tick s := by
  obtain ⟨error,failed,refused⟩ := denied
  have ends : after tick.answerOperating (self.acquire existing) [] s =
      after tick.answerOperating (self.afterAcquire tick.write) [] (s.pass tick.writeTakes) :=
    congrArg (fun out => out.2.2) (runAttemptBind (leaseWritten existing _) self.afterAcquire)
  have other : error.code ≠ some 409 := by
    intro conflict
    simp [Failure.refused,conflict] at refused
  rw [ends,failed,afterAcquire,if_neg other]
  exact handledFallsBack (s := s.pass tick.writeTakes) calling refused

theorem renewDenied (calling : self.Calling) (denied : deniedWrite tick) (lease : Lease) :
    self.FallsBack (after tick.answerOperating (self.renew lease) [] s) ↔
      Operates tick s ∧ ¬ self.Lapses tick (s.pass tick.writeTakes) := by
  obtain ⟨error,failed,refused⟩ := denied
  have ends : after tick.answerOperating (self.renew lease) [] s =
      after tick.answerOperating (self.afterRenew tick.write) [] (s.pass tick.writeTakes) :=
    congrArg (fun out => out.2.2) (runAttemptBind (leaseWritten (some lease) _) self.afterRenew)
  rw [ends,failed]
  exact renewalFallsBack (s := s.pass tick.writeTakes) calling refused

theorem lapsedUnread {error : Failure} (answer : tick.read = .error error) : ¬ self.LapsedRenewal tick s := by
  rintro ⟨lease,read,_⟩
  rw [answer] at read
  cases read

theorem lapsedRead {lease : Lease} (answer : tick.read = .ok lease) : self.LapsedRenewal tick s ↔
    lease.spec.holderIdentity = some self.identity ∧ self.Lapses tick ((s.pass tick.readTakes).pass tick.writeTakes) := by
  constructor
  · rintro ⟨other,read,own,lapses⟩
    cases Except.ok.inj (answer.symm.trans read)
    exact ⟨own,lapses⟩
  · exact fun ⟨own,lapses⟩ => ⟨lease,answer,own,lapses⟩

theorem tickDenied (calling : self.Calling) (denied : self.Denied tick s) :
    self.FallsBack (self.ticked tick s) ↔ Operates tick s ∧ ¬ self.LapsedRenewal tick s := by
  obtain ⟨going,denied⟩ := denied
  have ends : self.ticked tick s =
      after tick.answerOperating (self.afterRead (leaseRead tick.read)) [] (s.pass tick.readTakes) := by
    unfold ticked after LeaderElection.tick fields
    rw [runAsk]
    simp only [DeniedTick.answerOperating,List.tail_nil,going,Bool.false_eq_true,if_false]
    rw [runAttemptBind (readRun .tick)]
  rw [ends]
  cases answer : tick.read with
  | error error =>
      simp only [answer] at denied
      rw [and_iff_left (lapsedUnread answer),leaseRead]
      rcases denied with refused | ⟨missing,denied⟩
      · have found : error.code ≠ some 404 := by
          intro missing
          simp [Failure.refused,missing] at refused
        rw [if_neg found]
        exact handledFallsBack (s := s.pass tick.readTakes) calling refused
      · rw [if_pos missing]
        exact acquireDenied (s := s.pass tick.readTakes) calling denied none
  | ok lease =>
      simp only [answer] at denied
      obtain ⟨turn,denied⟩ := denied
      rw [lapsedRead answer]
      simp only [leaseRead,afterRead,decideOn]
      by_cases own : lease.spec.holderIdentity = some self.identity
      · rw [if_pos own,renewDenied calling denied lease]
        simp only [own,true_and]
        rfl
      · have expired := turn.resolve_left own
        rw [if_neg own,and_iff_left fun both => own both.1]
        unfold after now
        rw [runAsk]
        simp only [DeniedTick.answerOperating,List.tail_nil,OperatingWorld.pass,expired,if_true]
        exact acquireDenied (s := s.pass tick.readTakes) calling denied (some lease)

end Ends
/- Whichever call of a tick is denied, and whatever the pod remembers, it leads from then on exactly if its operators are
running or are started now, and the call is no renewal that has lapsed. -/
theorem deniedFallsBack (pod : Nat) (identity : String) (identified : identity ≠ "")
    (leaseDurationSeconds renewDeadlineSeconds : Nat) (tick : DeniedTick) (s : OperatingWorld)
    (denied : (calling pod identity identified leaseDurationSeconds renewDeadlineSeconds).Denied tick s) :
    (calling pod identity identified leaseDurationSeconds renewDeadlineSeconds).FallsBack
        ((calling pod identity identified leaseDurationSeconds renewDeadlineSeconds).ticked tick s) ↔
      Operates tick s ∧
        ¬ (calling pod identity identified leaseDurationSeconds renewDeadlineSeconds).LapsedRenewal tick s :=
  tickDenied ⟨rfl,rfl⟩ denied

def forbidden : Failure := ⟨some 403⟩

def restarted : OperatingWorld := {clock := 60000, candidate := {timer := true}, operating := false}

def renewalDenied : DeniedTick := {
  read := .ok ownLease, readTakes := 20, write := .error forbidden, writeTakes := 20, callback := .ok (), callbackTakes := 500}

def readDenied : DeniedTick := {renewalDenied with read := .error forbidden}

/- The operators are started and stopped at once, and no tick follows. -/
theorem restartedStandsDown : ¬ ∀ (pod : Nat) (identity : String) (identified : identity ≠ "")
    (leaseDurationSeconds renewDeadlineSeconds : Nat) (tick : DeniedTick) (s : OperatingWorld),
    (calling pod identity identified leaseDurationSeconds renewDeadlineSeconds).Denied tick s →
    (calling pod identity identified leaseDurationSeconds renewDeadlineSeconds).FallsBack
      ((calling pod identity identified leaseDurationSeconds renewDeadlineSeconds).ticked tick s) := by
  intro always
  have denied : onlyPod.Denied renewalDenied restarted := ⟨rfl,.inl rfl,_,rfl,rfl⟩
  have falls := always 0 "passmower-0" passmowerNamed 15 10 renewalDenied restarted denied
  have down : (onlyPod.ticked renewalDenied restarted).candidate.leading = false := rfl
  exact stoppedLeads down falls

theorem readFallsBack : onlyPod.FallsBack (onlyPod.ticked readDenied restarted) := by
  have denied : onlyPod.Denied readDenied restarted := ⟨rfl,.inl rfl⟩
  have operates : Operates readDenied restarted := .inr ⟨rfl,rfl⟩
  refine (deniedFallsBack 0 "passmower-0" passmowerNamed 15 10 readDenied restarted denied).mpr ⟨operates,?_⟩
  rintro ⟨lease,never,_⟩
  cases never

end LeaderElection
end Passmower
