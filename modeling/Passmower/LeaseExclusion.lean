import Passmower.LeaderElection
import Passmower.Resumption.Stepping

/-! Mutual exclusion by the lease: any number of pods tick against one API server, interleaved at
every request and every answer, while requests and answers fail. -/
namespace Passmower
open JavaScript Resumption Program

structure Fleet where
  identity : Nat → String
  distinct : ∀ {p q}, identity p = identity q → p = q
  identified : ∀ p, identity p ≠ ""
  leaseDurationSeconds : Nat
  renewDeadlineSeconds : Nat
  within : renewDeadlineSeconds < leaseDurationSeconds

def Fleet.election (fleet : Fleet) (p : Nat) : LeaderElection callbacks where
  pod := p
  identity := fleet.identity p
  identified := fleet.identified p
  leaseDurationSeconds := fleet.leaseDurationSeconds
  renewDeadlineSeconds := fleet.renewDeadlineSeconds
  onStartedLeading := LeaderCallback.program p .onStartedLeading
  onStoppedLeading := LeaderCallback.program p .onStoppedLeading

structure LeaseReading where
  lease : Option Lease
  time : Nat
  deriving DecidableEq, Repr

structure LeaseWrite where
  pod : Nat
  reading : Option LeaseReading
  overwritten : Option Lease
  time : Nat
  deriving DecidableEq, Repr

/- `wrote` is the renewTime a pod last wrote; `reading` is kept for each thread. -/
structure LeaseWorld where
  clock : Nat
  server : LeaseServer
  candidates : Nat → Candidate := fun _ => {}
  next : Outcome := .served
  wrote : Nat → Option Nat := fun _ => none
  reading : Nat → Option LeaseReading := fun _ => none
  writes : List LeaseWrite := []

namespace LeaseWorld
variable (s : LeaseWorld)

def setCandidate (p : Nat) (field : CandidateField) : LeaseWorld :=
  {s with candidates := fun q => if q = p then (s.candidates p).set field else s.candidates q}

def noteReading (n : Nat) : Except Failure Lease → LeaseWorld
  | .ok lease => {s with reading := fun m => if m = n then some ⟨some lease,s.clock⟩ else s.reading m}
  | .error error =>
      if error.code = some 404 then {s with reading := fun m => if m = n then some ⟨none,s.clock⟩ else s.reading m}
      else s

def land (n p : Nat) (spec : LeaseSpec) : LeaseWorld :=
  {s with
    server := s.server.write spec
    wrote := fun q => if q = p then spec.renewTime else s.wrote q
    writes := ⟨p,s.reading n,s.server.lease,s.clock⟩ :: s.writes}

def process (n p : Nat) : LeaseRequest → LeaseWorld
  | .read => s
  | .create spec => if s.server.accepts (.create spec) then s.land n p spec else s
  | .replace lease => if s.server.accepts (.replace lease) then s.land n p lease.spec else s

end LeaseWorld

def answerLease (n : Nat) : Handler (election callbacks) Unit LeaseWorld := fun _ c s => match c with
  | .now => (s.clock,s)
  | .fields p => (s.candidates p,s)
  | .set p field => ((),s.setCandidate p field)
  | .send p _ request => match s.next with
      | .served => (s.server.reply request,s.process n p request)
      | .failed error => (.error error,s)
  | .receive _ _ .read answer => (s.next.onto answer,s.noteReading n (s.next.onto answer))
  | .receive _ _ (.create _) answer => (s.next.onto answer,s)
  | .receive _ _ (.replace _) answer => (s.next.onto answer,s)
  | .callback (.invoke _ _) => ((),s)
  | .callback (.settle _ _) => (s.next.onto (.ok ()),s)

inductive LeaseMove where
  | start (p : Nat)
  | tick (p : Nat)
  | proceed (n : Nat) (outcome : Outcome)
  | pass (ms : Nat)
  deriving DecidableEq, Repr

abbrev LeasePool := Pool (election callbacks) Failure LeaseWorld

def electionAwaits : (election callbacks).Call → Bool := ElectionCall.awaits CallbackCall.awaits

def leaseStep (fleet : Fleet) (pool : LeasePool) : LeaseMove → LeasePool
  | .start p => pool.spawn answerLease electionAwaits (fleet.election p).start
  | .tick p => pool.spawn answerLease electionAwaits (fleet.election p).tickQuietly
  | .proceed n outcome =>
      (pool.edit fun s => {s with next := outcome}).proceed answerLease electionAwaits n ()
  | .pass ms => pool.edit fun s => {s with clock := s.clock + ms}

def leaseRun (fleet : Fleet) (moves : List LeaseMove) (pool : LeasePool) : LeasePool :=
  moves.foldl (leaseStep fleet) pool

def Outcome.ordinary : Outcome → Bool
  | .served => true
  | .failed error => !error.refused

def LeaseMove.ordinary : LeaseMove → Bool
  | .proceed _ outcome => outcome.ordinary
  | _ => true

def noPods (spec : Option LeaseSpec) (clock : Nat) : LeasePool :=
  ⟨[],{clock := clock, server := ⟨spec.map fun spec => ⟨spec,0⟩,1⟩}⟩

namespace Fleet
variable (fleet : Fleet)

def holds (p : Nat) (spec : LeaseSpec) : Prop := spec.holderIdentity = some (fleet.identity p)

structure Justified (write : LeaseWrite) (reading : LeaseReading) : Prop where
  read : write.reading = some reading
  same : write.overwritten = reading.lease
  before : reading.time ≤ write.time
  own : ∀ lease, reading.lease = some lease →
    fleet.holds write.pod lease.spec ∨ (fleet.election write.pod).expired lease reading.time = true

structure Leasing (s : LeaseWorld) : Prop where
  older : ∀ lease, s.server.lease = some lease → lease.resourceVersion < s.server.version
  held : ∀ p renewTime, s.wrote p = some renewTime → s.clock ≤ renewTime + fleet.leaseDurationSeconds * 1000 →
    ∃ lease, s.server.lease = some lease ∧ fleet.holds p lease.spec ∧ lease.spec.renewTime = some renewTime ∧
      lease.spec.leaseDurationSeconds = some fleet.leaseDurationSeconds
  leads : ∀ p, (s.candidates p).leading = true → ∃ renewTime, s.wrote p = some renewTime
  justified : ∀ write ∈ s.writes, ∃ reading, fleet.Justified write reading

def Leads (s : LeaseWorld) (p : Nat) : Prop := (s.candidates p).leading = true ∧
  ∃ renewTime, s.wrote p = some renewTime ∧ s.clock ≤ renewTime + fleet.leaseDurationSeconds * 1000

end Fleet

def Known (lease : Lease) (s : LeaseWorld) : Prop := lease.resourceVersion < s.server.version ∧
  ∃ current, s.server.lease = some current ∧ (current = lease ∨ lease.resourceVersion < current.resourceVersion)

structure Advances (s t : LeaseWorld) : Prop where
  clock : s.clock ≤ t.clock
  known : ∀ lease, Known lease s → Known lease t
  wrote : ∀ p, (∃ renewTime, s.wrote p = some renewTime) → ∃ renewTime, t.wrote p = some renewTime

theorem Advances.refl (s : LeaseWorld) : Advances s s := ⟨Nat.le_refl _,fun _ known => known,fun _ wrote => wrote⟩

theorem Advances.trans {s t u : LeaseWorld} (first : Advances s t) (second : Advances t u) : Advances s u :=
  ⟨Nat.le_trans first.clock second.clock,fun lease known => second.known lease (first.known lease known),
    fun p wrote => second.wrote p (first.wrote p wrote)⟩

def leaseContract (fleet : Fleet) (n : Nat) : Contract (election callbacks) LeaseWorld where
  ok s _ := s.next.ordinary = true
  rely s t := Advances s t ∧ fleet.Leasing t ∧ t.reading n = s.reading n
  guarantee s t := Advances s t ∧ fleet.Leasing t ∧ ∀ m, m ≠ n → t.reading m = s.reading m

section Steps
variable {fleet : Fleet} {n p : Nat} {s t u v : LeaseWorld} {spec : LeaseSpec} {reading : LeaseReading}

theorem leasingSame (leasing : fleet.Leasing s) (clock : t.clock = s.clock) (server : t.server = s.server)
    (wrote : t.wrote = s.wrote) (writes : t.writes = s.writes)
    (leads : ∀ p, (t.candidates p).leading = true →
      (s.candidates p).leading = true ∨ ∃ renewTime, s.wrote p = some renewTime) : fleet.Leasing t := by
  constructor
  · rw [server]
    exact leasing.older
  · rw [server,wrote,clock]
    exact leasing.held
  · intro p leading
    rw [wrote]
    rcases leads p leading with before | written
    · exact leasing.leads p before
    · exact written
  · rw [writes]
    exact leasing.justified

theorem advancesSame (clock : t.clock = s.clock) (server : t.server = s.server) (wrote : t.wrote = s.wrote) :
    Advances s t := by
  constructor
  · omega
  · intro lease known
    unfold Known at known ⊢
    rw [server]
    exact known
  · rw [wrote]
    exact fun _ written => written

theorem passLeasing (leasing : fleet.Leasing s) (ms : Nat) : fleet.Leasing {s with clock := s.clock + ms} := by
  constructor
  · exact leasing.older
  · intro p renewTime wrote within
    apply leasing.held p renewTime wrote
    simp only at within
    omega
  · exact leasing.leads
  · exact leasing.justified

theorem knownHere (leasing : fleet.Leasing s) {lease : Lease} (here : s.server.lease = some lease) :
    Known lease s := ⟨leasing.older lease here,lease,here,.inl rfl⟩

theorem knownSame {lease : Lease} (known : Known lease s)
    (accepts : s.server.accepts (.replace {lease with spec := spec}) = true) : s.server.lease = some lease := by
  obtain ⟨_,current,here,same | newer⟩ := known
  · rw [here,same]
  · simp [LeaseServer.accepts,here] at accepts
    omega

theorem landAdvances {renewTime : Nat} (renewed : spec.renewTime = some renewTime) :
    Advances v (v.land n p spec) := by
  constructor
  · exact Nat.le_refl _
  · intro lease ⟨older,_⟩
    exact ⟨Nat.lt_succ_of_lt older,_,rfl,.inr older⟩
  · intro q written
    by_cases same : q = p
    · exact ⟨renewTime,by simp [LeaseWorld.land,same,renewed]⟩
    · simpa [LeaseWorld.land,same] using written

structure Fleet.Writes (fleet : Fleet) (p : Nat) (spec : LeaseSpec) : Prop where
  holder : fleet.holds p spec
  renewed : ∃ renewTime, spec.renewTime = some renewTime
  lasting : spec.leaseDurationSeconds = some fleet.leaseDurationSeconds

theorem freshUntouched (leasing : fleet.Leasing v) (before : reading.time ≤ v.clock)
    (same : v.server.lease = reading.lease)
    (own : ∀ lease, reading.lease = some lease →
      fleet.holds p lease.spec ∨ (fleet.election p).expired lease reading.time = true)
    {q renewTime : Nat} (wrote : v.wrote q = some renewTime)
    (fresh : v.clock ≤ renewTime + fleet.leaseDurationSeconds * 1000) : q = p := by
  obtain ⟨lease,here,holder,renewed,lasting⟩ := leasing.held q renewTime wrote fresh
  rcases own lease (same.symm.trans here) with mine | expired
  · exact fleet.distinct (Option.some.inj (holder.symm.trans mine))
  · have named : truthy lease.spec.holderIdentity = some (fleet.identity q) := by
      rw [holder,truthy]
      simp [fleet.identified q]
    simp only [LeaderElection.expired,named,renewed,LeaderElection.duration,lasting,Option.getD_some,
      decide_eq_true_eq] at expired
    omega

theorem landLeasing (leasing : fleet.Leasing v) (read : v.reading n = some reading)
    (before : reading.time ≤ v.clock) (same : v.server.lease = reading.lease)
    (own : ∀ lease, reading.lease = some lease →
      fleet.holds p lease.spec ∨ (fleet.election p).expired lease reading.time = true)
    (writes : fleet.Writes p spec) : fleet.Leasing (v.land n p spec) := by
  constructor
  · intro lease here
    cases Option.some.inj here
    exact Nat.lt_succ_self _
  · intro q renewTime wrote fresh
    have mine : q = p := by
      by_cases other : q = p
      · exact other
      · simp only [LeaseWorld.land,other,if_false] at wrote
        exact freshUntouched leasing before same own wrote fresh
    subst mine
    simp only [LeaseWorld.land,if_true] at wrote
    exact ⟨_,rfl,writes.holder,wrote,writes.lasting⟩
  · intro q leading
    obtain ⟨renewTime,renewed⟩ := writes.renewed
    by_cases mine : q = p
    · exact ⟨renewTime,by simp [LeaseWorld.land,mine,renewed]⟩
    · simpa [LeaseWorld.land,mine] using leasing.leads q leading
  · intro write member
    rcases List.mem_cons.mp member with rfl | old
    · exact ⟨reading,read,same,before,own⟩
    · exact leasing.justified write old

end Steps

section Ticks
variable {fleet : Fleet} {n p : Nat} {t u : LeaseWorld}

abbrev LeaseKeeps (fleet : Fleet) (n : Nat) {α : Type} (program : Election callbacks α)
    (Q : Except Failure α → LeaseWorld → LeaseWorld → Prop) (t u : LeaseWorld) : Prop :=
  Keeps (answerLease n) electionAwaits (leaseContract fleet n) program Q t u

abbrev Fine (fleet : Fleet) (n : Nat) (t u : LeaseWorld) : Prop := (leaseContract fleet n).guarantee t u

theorem fineNow (leasing : fleet.Leasing u) : Fine fleet n u u := ⟨Advances.refl u,leasing,fun _ _ => rfl⟩

theorem fineSet (fine : Fine fleet n t u) {field : CandidateField}
    (leads : ((u.candidates p).set field).leading = true →
      (u.candidates p).leading = true ∨ ∃ renewTime, u.wrote p = some renewTime) :
    Fine fleet n t (u.setCandidate p field) := by
  obtain ⟨advances,leasing,readings⟩ := fine
  refine ⟨advances.trans (advancesSame rfl rfl rfl),leasingSame leasing rfl rfl rfl rfl ?_,readings⟩
  intro q leading
  by_cases same : q = p
  · subst same
    simp only [LeaseWorld.setCandidate,if_true] at leading
    exact leads leading
  · simp only [LeaseWorld.setCandidate,same,if_false] at leading
    exact .inl leading

theorem settledKeeps {callback : LeaderCallback} (fine : Fine fleet n t u) :
    LeaseKeeps fleet n (callback.program p) (fun _ => Fine fleet n) t u := by
  apply keepsAskNow rfl
  apply keepsAskAwait rfl fine
  intro v moved ordinary _
  simp only [answerLease]
  cases v.next.onto (.ok ()) with
  | ok _ => exact fineNow moved.2.1
  | error _ => exact fineNow moved.2.1

theorem stopLeadingKeeps (fine : Fine fleet n t u) :
    LeaseKeeps fleet n (fleet.election p).stopLeading (fun _ => Fine fleet n) t u := by
  apply keepsAskNow rfl
  apply keepsIf
  · intro leading
    apply keepsAskNow rfl
    exact settledKeeps (fineSet fine (fun still => by cases still))
  · exact fun _ => fine

theorem startLeadingKeeps (fine : Fine fleet n t u) (wrote : ∃ renewTime, u.wrote p = some renewTime) :
    LeaseKeeps fleet n (fleet.election p).startLeading (fun _ => Fine fleet n) t u := by
  apply keepsAskNow rfl
  apply keepsIf
  · exact fun _ => fine
  · intro idle
    apply keepsAskNow rfl
    exact settledKeeps (fineSet fine (fun _ => .inr wrote))

theorem ontoOrdinary {α : Type} {outcome : Outcome} {answer : Except Failure α} {error : Failure}
    (ordinary : outcome.ordinary = true) (answers : ∀ error, answer = .error error → error.refused = false)
    (failed : outcome.onto answer = .error error) : error.refused = false := by
  cases outcome with
  | served => exact answers error failed
  | failed other =>
      cases Except.error.inj failed
      simpa [Outcome.ordinary] using ordinary

theorem replyOrdinary {server : LeaseServer} {request : LeaseRequest} {error : Failure}
    (failed : server.reply request = .error error) : error.refused = false := by
  cases request with
  | read =>
      simp only [LeaseServer.reply] at failed
      split at failed
      · cases failed
      · cases failed
        rfl
  | create spec =>
      simp only [LeaseServer.reply] at failed
      split at failed
      · cases failed
      · cases failed
        rfl
  | replace lease =>
      simp only [LeaseServer.reply] at failed
      split at failed
      · cases failed
      · cases failed
        split <;> rfl

theorem sentOrdinary {v : LeaseWorld} {caller : Caller} {r : LeaseRequest} {error : Failure} (ordinary : v.next.ordinary = true)
    (failed : (answerLease n () (.send p caller r) v).1 = .error error) : error.refused = false := by
  cases next : v.next with
  | served =>
      simp only [answerLease,next] at failed
      exact replyOrdinary failed
  | failed other =>
      simp only [answerLease,next] at failed
      cases failed
      simpa [Outcome.ordinary,next] using ordinary

def Reads (n : Nat) (seen : Option Lease) (u : LeaseWorld) : Prop :=
  u.reading n = some ⟨seen,u.clock⟩ ∧ ∀ lease, seen = some lease → Known lease u

theorem noteFine (leasing : fleet.Leasing u) (answer : Except Failure Lease) :
    Fine fleet n u (u.noteReading n answer) := by
  have others : ∀ reading m, m ≠ n → (if m = n then some reading else u.reading m) = u.reading m :=
    fun reading m other => if_neg other
  cases answer with
  | ok lease => exact ⟨advancesSame rfl rfl rfl,leasingSame leasing rfl rfl rfl rfl (fun _ => .inl),others _⟩
  | error error =>
      by_cases missing : error.code = some 404
      · simp only [LeaseWorld.noteReading,missing,if_true]
        exact ⟨advancesSame rfl rfl rfl,leasingSame leasing rfl rfl rfl rfl (fun _ => .inl),others _⟩
      · simp only [LeaseWorld.noteReading,missing,if_false]
        exact fineNow leasing

theorem readUnchanged (v : LeaseWorld) (caller : Caller) : (answerLease n () (.send p caller .read) v).2 = v := by
  simp only [answerLease]
  split <;> rfl

theorem readAnswer {v : LeaseWorld} {caller : Caller} {lease : Lease}
    (answered : (answerLease n () (.send p caller .read) v).1 = .ok lease) : v.server.lease = some lease := by
  simp only [answerLease] at answered
  split at answered
  · simp only [LeaseServer.reply] at answered
    split at answered
    · cases answered
      assumption
    · cases answered
  · cases answered

theorem readKeeps (fine : Fine fleet n t u) :
    LeaseKeeps fleet n ((fleet.election p).getLease .tick) (fun r t u => Fine fleet n t u ∧ match r with
      | .ok seen => Reads n seen u
      | .error error => error.refused = false) t u := by
  apply LeaderElection.getLeaseKeeps fine
  intro v moved ordinary _
  constructor
  · exact (readUnchanged v .tick).symm ▸ fineNow moved.2.1
  · intro x later ordinary' _
    have later : (leaseContract fleet n).rely v x := readUnchanged (n := n) (p := p) v .tick ▸ later
    have answered : ∀ lease, (answerLease n () (.send p .tick .read) v).1 = .ok lease →
        v.server.lease = some lease := fun lease => readAnswer
    have refusals : ∀ error, (answerLease n () (.send p .tick .read) v).1 = .error error →
        error.refused = false := fun error => sentOrdinary ordinary
    change Fine fleet n x (x.noteReading n (x.next.onto (answerLease n () (.send p .tick .read) v).1)) ∧
      match leaseRead (x.next.onto (answerLease n () (.send p .tick .read) v).1) with
      | .ok seen => Reads n seen (x.noteReading n (x.next.onto (answerLease n () (.send p .tick .read) v).1))
      | .error error => error.refused = false
    generalize (answerLease n () (.send p .tick .read) v).1 = sent at answered refusals
    have noted := noteFine (n := n) later.2.1 (x.next.onto sent)
    refine ⟨noted,?_⟩
    cases outcome : x.next.onto sent with
    | ok lease =>
        rw [outcome] at noted
        have same : sent = .ok lease := by
          cases next : x.next with
          | served => rwa [next] at outcome
          | failed error =>
              rw [next] at outcome
              cases outcome
        have known := later.1.known lease (knownHere moved.2.1 (answered lease same))
        refine ⟨by simp [LeaseWorld.noteReading],?_⟩
        intro other equal
        cases equal
        exact noted.1.known lease known
    | error error =>
        by_cases missing : error.code = some 404
        · simp only [leaseRead,missing,if_true]
          exact ⟨by simp [LeaseWorld.noteReading,missing],fun _ same => absurd same.symm (Option.some_ne_none _)⟩
        · simp only [leaseRead,missing,if_false]
          exact ontoOrdinary ordinary' refusals outcome

structure Grounds (fleet : Fleet) (n p : Nat) (reading : LeaseReading) (u : LeaseWorld) : Prop where
  read : u.reading n = some reading
  before : reading.time ≤ u.clock
  known : ∀ lease, reading.lease = some lease → Known lease u
  own : ∀ lease, reading.lease = some lease →
    fleet.holds p lease.spec ∨ (fleet.election p).expired lease reading.time = true

theorem groundsLater {reading : LeaseReading} {v : LeaseWorld} (grounds : Grounds fleet n p reading u)
    (moved : (leaseContract fleet n).rely u v) : Grounds fleet n p reading v := by
  constructor
  · rw [moved.2.2]
    exact grounds.read
  · exact Nat.le_trans grounds.before moved.1.clock
  · exact fun lease same => moved.1.known lease (grounds.known lease same)
  · exact grounds.own

theorem landFine {reading : LeaseReading} {spec : LeaseSpec} (leasing : fleet.Leasing u)
    (grounds : Grounds fleet n p reading u) (same : u.server.lease = reading.lease) (writes : fleet.Writes p spec) :
    Fine fleet n u (u.land n p spec) := by
  obtain ⟨renewTime,renewed⟩ := writes.renewed
  exact ⟨landAdvances renewed,landLeasing leasing grounds.read grounds.before same grounds.own writes,fun _ _ => rfl⟩

inductive WritesOver : Option Lease → LeaseSpec → LeaseRequest → Prop where
  | create (spec : LeaseSpec) : WritesOver none spec (.create spec)
  | replace (lease : Lease) (spec : LeaseSpec) : WritesOver (some lease) spec (.replace {lease with spec := spec})

theorem processWrite {seen : Option Lease} {spec : LeaseSpec} {r : LeaseRequest} (asks : WritesOver seen spec r)
    (s : LeaseWorld) : s.process n p r = if s.server.accepts r then s.land n p spec else s := by
  cases asks <;> rfl

theorem receiveWrite {seen : Option Lease} {spec : LeaseSpec} {r : LeaseRequest} (asks : WritesOver seen spec r)
    (answer : Except Failure r.Reply) (s : LeaseWorld) :
    answerLease n () (.receive p .tick r answer) s = (s.next.onto answer,s) := by
  cases asks <;> rfl

theorem acceptedSame {reading : LeaseReading} {spec : LeaseSpec} {r : LeaseRequest}
    (grounds : Grounds fleet n p reading u) (asks : WritesOver reading.lease spec r)
    (accepts : u.server.accepts r = true) : u.server.lease = reading.lease := by
  have known := grounds.known
  revert known asks
  generalize reading.lease = seen
  intro asks known
  cases asks with
  | create => simpa [LeaseServer.accepts] using accepts
  | replace lease => exact knownSame (known lease rfl) accepts

theorem processFine {reading : LeaseReading} {spec : LeaseSpec} {r : LeaseRequest} (leasing : fleet.Leasing u)
    (grounds : Grounds fleet n p reading u) (asks : WritesOver reading.lease spec r) (writes : fleet.Writes p spec) :
    Fine fleet n u (u.process n p r) ∧
      (u.server.accepts r = true → ∃ renewTime, (u.process n p r).wrote p = some renewTime) := by
  have landed : u.server.accepts r = true → Fine fleet n u (u.land n p spec) :=
    fun accepts => landFine leasing grounds (acceptedSame grounds asks accepts) writes
  rw [processWrite asks]
  split
  · rename_i accepts
    obtain ⟨renewTime,renewed⟩ := writes.renewed
    exact ⟨landed accepts,fun _ => ⟨renewTime,by simp [LeaseWorld.land,renewed]⟩⟩
  · rename_i rejects
    exact ⟨fineNow leasing,fun accepts => absurd accepts rejects⟩

theorem replyAccepts {server : LeaseServer} {seen : Option Lease} {spec : LeaseSpec} {r : LeaseRequest}
    (asks : WritesOver seen spec r) (replied : (server.reply r).isOk = true) : server.accepts r = true := by
  cases asks with
  | create =>
      by_cases accepts : server.accepts (.create spec) = true
      · exact accepts
      · simp [LeaseServer.reply,accepts,Except.isOk,Except.toBool] at replied
  | replace lease =>
      by_cases accepts : server.accepts (.replace {lease with spec := spec}) = true
      · exact accepts
      · simp [LeaseServer.reply,accepts,Except.isOk,Except.toBool] at replied

theorem ontoServed {α : Type} {outcome : Outcome} {answer : Except Failure α} (succeeded : (outcome.onto answer).isOk = true) :
    answer.isOk = true := by
  cases outcome with
  | served => exact succeeded
  | failed error => cases succeeded

theorem writeKeeps {reading : LeaseReading} {spec : LeaseSpec} {r : LeaseRequest} (fine : Fine fleet n t u)
    (grounds : Grounds fleet n p reading u) (asks : WritesOver reading.lease spec r) (writes : fleet.Writes p spec) :
    LeaseKeeps fleet n ((fleet.election p).request .tick r) (fun out t u => Fine fleet n t u ∧
      (out.isOk = true → ∃ renewTime, u.wrote p = some renewTime) ∧
      ∀ error, out = .error error → error.refused = false) t u := by
  apply LeaderElection.requestKeeps fine
  intro v moved ordinary _
  constructor
  · cases next : v.next with
    | served =>
        simp only [answerLease,next]
        exact (processFine moved.2.1 (groundsLater grounds moved) asks writes).1
    | failed error =>
        simp only [answerLease,next]
        exact fineNow moved.2.1
  · intro x later ordinary' _
    have owed : ∀ out : Except Failure r.Reply × LeaseWorld,
        out = (x.next.onto (answerLease n () (.send p .tick r) v).1,x) → Fine fleet n x out.2 ∧
          (out.1.isOk = true → ∃ renewTime, out.2.wrote p = some renewTime) ∧
          ∀ error, out.1 = .error error → error.refused = false := by
      intro out same
      rw [same]
      refine ⟨fineNow later.2.1,?_,?_⟩
      · intro succeeded
        have sent := ontoServed succeeded
        apply later.1.wrote
        cases next : v.next with
        | served =>
            simp only [answerLease,next] at sent ⊢
            exact (processFine moved.2.1 (groundsLater grounds moved) asks writes).2 (replyAccepts asks sent)
        | failed error =>
            simp only [answerLease,next] at sent
            cases sent
      · intro error failed
        exact ontoOrdinary ordinary' (fun error => sentOrdinary ordinary) failed
    exact owed _ (receiveWrite asks _ x)

theorem minorSet (fine : Fine fleet n t u) {field : CandidateField} (minor : field.Minor) :
    Fine fleet n t (u.setCandidate p field) := by
  cases minor with
  | timer => exact fineSet fine fun leading => .inl leading
  | lastRenewedAt time => exact fineSet fine fun leading => .inl leading

theorem ordinaryWrite {P W : Prop} {out : Except Failure Unit} : (P ∧ (out.isOk = true → W) ∧
    ∀ error, out = .error error → error.refused = false) → P ∧ match out with
      | .ok () => W
      | .error error => error.refused = true → W := by
  rintro ⟨fine,wrote,ordinary⟩
  cases out with
  | ok _ => exact ⟨fine,wrote rfl⟩
  | error error => exact ⟨fine,fun refused => by simp [ordinary error rfl] at refused⟩

theorem leaseOutline (fleet : Fleet) (n p : Nat) : Outline (fleet.election p) (answerLease n) CallbackCall.awaits
    (leaseContract fleet n) (Fine fleet n) (Reads n) (fun u => ∃ renewTime, u.wrote p = some renewTime) where
  now _ := rfl
  fields _ := rfl
  set fine minor := minorSet fine minor
  won _ wrote _ := wrote
  read fine := by
    apply keepsMono (readKeeps fine)
    rintro read t u ⟨fine,facts⟩
    cases read with
    | ok seen => exact ⟨fine,facts⟩
    | error error => exact ⟨fine,fun refused => by simp [facts] at refused⟩
  write := by
    intro t u seen spec fine reads writing
    have grounds : Grounds fleet n p ⟨seen,u.clock⟩ u ∧ fleet.Writes p spec := by
      rcases writing with ⟨rfl,free⟩ | ⟨lease,rfl,own,rfl⟩
      · exact ⟨⟨reads.1,Nat.le_refl _,reads.2,fun lease same => .inr (free lease same)⟩,rfl,⟨_,rfl⟩,rfl⟩
      · refine ⟨⟨reads.1,Nat.le_refl _,reads.2,?_⟩,own,⟨_,rfl⟩,rfl⟩
        intro other same
        cases same
        exact .inl own
    cases seen with
    | none => exact keepsMono (writeKeeps fine grounds.1 (.create spec) grounds.2) fun _ _ _ => ordinaryWrite
    | some lease => exact keepsMono (writeKeeps fine grounds.1 (.replace lease spec) grounds.2) fun _ _ _ => ordinaryWrite
  start := startLeadingKeeps
  stop := stopLeadingKeeps

theorem tickQuietlyKeeps (fine : Fine fleet n t u) :
    LeaseKeeps fleet n (fleet.election p).tickQuietly (fun _ => Fine fleet n) t u :=
  (leaseOutline fleet n p).tickQuietlyKeeps fine rfl (fun _ => fineSet fine fun leading => .inl leading)
    fun fine => fineSet fine fun leading => .inl leading

theorem startKeeps (fine : Fine fleet n t u) :
    LeaseKeeps fleet n (fleet.election p).start (fun _ => Fine fleet n) t u := by
  apply keepsAskNow rfl
  apply keepsIf
  · exact fun _ => fine
  · intro idle
    apply keepsAskNow rfl
    apply keepsAskNow rfl
    have started : Fine fleet n t (u.setCandidate p (.stopped false)) := fineSet fine fun leading => .inl leading
    have timed : Fine fleet n t ((u.setCandidate p (.stopped false)).setCandidate p (.timer true)) :=
      fineSet started fun leading => .inl leading
    exact tickQuietlyKeeps timed

end Ticks

section Runs
variable {fleet : Fleet} {pool : LeasePool} {moves : List LeaseMove}

def LeaseHolds (fleet : Fleet) (pool : LeasePool) : Prop :=
  pool.Steady answerLease electionAwaits (leaseContract fleet) ∧ fleet.Leasing pool.state

theorem leaseTrans (n : Nat) {a b c : LeaseWorld} (first : (leaseContract fleet n).rely a b)
    (second : (leaseContract fleet n).rely b c) : (leaseContract fleet n).rely a c :=
  ⟨first.1.trans second.1,second.2.1,second.2.2.trans first.2.2⟩

theorem leaseApart {n m : Nat} {a b : LeaseWorld} (other : n ≠ m) (kept : (leaseContract fleet n).guarantee a b) :
    (leaseContract fleet m).rely a b := ⟨kept.1,kept.2.1,kept.2.2 m (Ne.symm other)⟩

theorem leaseEdit {f : LeaseWorld → LeaseWorld} (holds : LeaseHolds fleet pool)
    (advances : Advances pool.state (f pool.state)) (leasing : fleet.Leasing (f pool.state))
    (readings : (f pool.state).reading = pool.state.reading) : LeaseHolds fleet (pool.edit f) :=
  ⟨Pool.steadyEdit leaseTrans holds.1 fun _ => ⟨advances,leasing,congrFun readings _⟩,leasing⟩

theorem leaseStepHolds {move : LeaseMove} (holds : LeaseHolds fleet pool) (ordinary : move.ordinary = true) :
    LeaseHolds fleet (leaseStep fleet pool move) := by
  cases move with
  | start p =>
      have spawned := Pool.steadySpawn leaseTrans leaseApart holds.1 (startKeeps (p := p) (fineNow holds.2))
      exact ⟨spawned.1,spawned.2.2.1⟩
  | tick p =>
      have spawned := Pool.steadySpawn leaseTrans leaseApart holds.1 (tickQuietlyKeeps (p := p) (fineNow holds.2))
      exact ⟨spawned.1,spawned.2.2.1⟩
  | pass ms =>
      have advances : Advances pool.state {pool.state with clock := pool.state.clock + ms} :=
        ⟨Nat.le_add_right _ _,fun _ known => known,fun _ wrote => wrote⟩
      exact leaseEdit holds advances (passLeasing holds.2 ms) rfl
  | proceed n outcome =>
      have faced := leaseEdit (f := fun s => {s with next := outcome}) holds (advancesSame rfl rfl rfl)
        (leasingSame holds.2 rfl rfl rfl rfl fun _ => .inl) rfl
      have ready : Pool.Ready (fun n => (leaseContract fleet n).ok) n (pool.edit fun s => {s with next := outcome}) := by
        unfold Pool.Ready
        split
        · exact ordinary
        · trivial
      have proceeded := Pool.steadyProceed (w := ()) leaseTrans leaseApart ⟨Advances.refl _,faced.2,rfl⟩
        (fineNow faced.2) faced.1 ready
      exact ⟨proceeded.1,proceeded.2.2.1⟩

theorem leaseRunHolds (holds : LeaseHolds fleet pool) (ordinary : ∀ move ∈ moves, move.ordinary = true) :
    LeaseHolds fleet (leaseRun fleet moves pool) := by
  have each : EachStep (leaseStep fleet) (fun _ move => move.ordinary = true) moves pool :=
    eachStepOfMem fun move member _ => ordinary move member
  exact eachStepKeeps (LeaseHolds fleet) (fun _ _ => leaseStepHolds) holds each

theorem noPodsHold (spec : Option LeaseSpec) (clock : Nat) : LeaseHolds fleet (noPods spec clock) := by
  have older : ∀ lease, (noPods spec clock).state.server.lease = some lease →
      lease.resourceVersion < (noPods spec clock).state.server.version := by
    intro lease here
    cases spec with
    | none => cases here
    | some spec =>
        cases Option.some.inj here
        exact Nat.zero_lt_one
  have unwritten : ∀ p renewTime, (noPods spec clock).state.wrote p ≠ some renewTime := fun p renewTime wrote => by cases wrote
  exact ⟨Pool.steadyEmpty _,older,fun p renewTime wrote => absurd wrote (unwritten p renewTime),
    fun p leads => absurd leads Bool.false_ne_true,fun write written => absurd written (List.not_mem_nil)⟩

theorem leadsAlone {s : LeaseWorld} (leasing : fleet.Leasing s) {p q : Nat} (first : fleet.Leads s p)
    (second : fleet.Leads s q) : p = q := by
  obtain ⟨_,renewTime,wrote,fresh⟩ := first
  obtain ⟨_,renewTime',wrote',fresh'⟩ := second
  obtain ⟨lease,here,holder,_⟩ := leasing.held p renewTime wrote fresh
  obtain ⟨lease',here',holder',_⟩ := leasing.held q renewTime' wrote' fresh'
  cases Option.some.inj (here.symm.trans here')
  exact fleet.distinct (Option.some.inj (holder.symm.trans holder'))

end Runs

/- However the pods' ticks are interleaved and their requests fail: at most one pod leads while the
renewTime it last wrote is no older than the lease's duration, a leading pod has written the lease,
and every write was made on a reading of what it overwrote, which was no other pod's live lease. -/
theorem leaseExclusion (fleet : Fleet) (spec : Option LeaseSpec) (clock : Nat) (moves : List LeaseMove)
    (ordinary : ∀ move ∈ moves, move.ordinary = true) :
    (∀ p q, fleet.Leads (leaseRun fleet moves (noPods spec clock)).state p →
      fleet.Leads (leaseRun fleet moves (noPods spec clock)).state q → p = q) ∧
    (∀ p, ((leaseRun fleet moves (noPods spec clock)).state.candidates p).leading = true →
      ∃ renewTime, (leaseRun fleet moves (noPods spec clock)).state.wrote p = some renewTime) ∧
    ∀ write ∈ (leaseRun fleet moves (noPods spec clock)).state.writes, ∃ reading, fleet.Justified write reading := by
  have holds : LeaseHolds fleet _ := leaseRunHolds (noPodsHold spec clock) ordinary
  exact ⟨fun p q => leadsAlone holds.2,holds.2.leads,holds.2.justified⟩

def podNames : Fleet where
  identity p := String.ofList (List.replicate (p + 1) 'p')
  distinct := by
    intro p q same
    have lengths := congrArg (fun name => name.toList.length) same
    simpa using lengths
  identified := by
    intro p
    simp [List.replicate_succ]
  leaseDurationSeconds := 15
  renewDeadlineSeconds := 10
  within := by decide

def takeOver : List LeaseMove :=
  [.start 0,.proceed 0 .served,.proceed 0 .served,.proceed 0 .served,.proceed 0 .served,
   .pass 16000,.start 1,.proceed 1 .served,.proceed 1 .served,.proceed 1 .served,.proceed 1 .served]

theorem takenOver : (∀ move ∈ takeOver, move.ordinary = true) ∧
    ((leaseRun podNames takeOver (noPods none 0)).state.candidates 0).leading = true ∧
    podNames.Leads (leaseRun podNames takeOver (noPods none 0)).state 1 ∧
    ∀ p, podNames.Leads (leaseRun podNames takeOver (noPods none 0)).state p → p = 1 := by
  have second : podNames.Leads (leaseRun podNames takeOver (noPods none 0)).state 1 := ⟨rfl,16000,rfl,by decide⟩
  have ordinary : ∀ move ∈ takeOver, move.ordinary = true := by decide
  exact ⟨ordinary,rfl,second,fun p leads => (leaseExclusion podNames none 0 takeOver ordinary).1 p 1 leads second⟩

end Passmower
