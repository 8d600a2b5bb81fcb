import Passmower.Configuration
import Passmower.Requests

/-! The operator lease: `LeaderElection` with its ticks, `start` and `stop`. A request reaches the API
server at one await point and its answer reaches the pod at another. -/
namespace Passmower
open JavaScript Resumption Program

/- Times are in milliseconds, as `new Date(…).getTime()` gives them. -/
structure LeaseSpec where
  holderIdentity : Option String := none
  leaseDurationSeconds : Option Nat := none
  acquireTime : Option Nat := none
  renewTime : Option Nat := none
  leaseTransitions : Option Nat := none
  deriving DecidableEq, Repr

structure Lease where
  spec : LeaseSpec := {}
  resourceVersion : Nat
  deriving DecidableEq, Repr

inductive LeaseRequest where
  | read
  | create (spec : LeaseSpec)
  | replace (lease : Lease)
  deriving DecidableEq, Repr

abbrev LeaseRequest.Reply : LeaseRequest → Type
  | .read => Lease
  | .create _ | .replace _ => Unit

/- What a pod's `LeaderElection` object remembers. -/
structure Candidate where
  leading : Bool := false
  timer : Bool := false
  ticking : Bool := false
  lastRenewedAt : Option Nat := none
  stopped : Bool := false
  deriving DecidableEq, Repr

inductive CandidateField where
  | leading (value : Bool)
  | timer (value : Bool)
  | ticking (value : Bool)
  | lastRenewedAt (time : Nat)
  | stopped (value : Bool)
  deriving DecidableEq, Repr

def Candidate.set (candidate : Candidate) : CandidateField → Candidate
  | .leading value => {candidate with leading := value}
  | .timer value => {candidate with timer := value}
  | .ticking value => {candidate with ticking := value}
  | .lastRenewedAt time => {candidate with lastRenewedAt := some time}
  | .stopped value => {candidate with stopped := value}

inductive Caller where
  | tick
  | stop
  deriving DecidableEq, Repr

inductive ElectionCall (J : Interface) where
  | now
  | fields (pod : Nat)
  | set (pod : Nat) (field : CandidateField)
  | send (pod : Nat) (caller : Caller) (request : LeaseRequest)
  | receive (pod : Nat) (caller : Caller) (request : LeaseRequest) (answer : Except Failure request.Reply)
  | callback (c : J.Call)

abbrev election (J : Interface) : Interface where
  Call := ElectionCall J
  Answer
    | .now => Nat
    | .fields _ => Candidate
    | .set _ _ => Unit
    | .send _ _ request | .receive _ _ request _ => Except Failure request.Reply
    | .callback c => J.Answer c

def ElectionCall.awaits {J : Interface} (awaited : J.Call → Bool) : ElectionCall J → Bool
  | .send _ _ _ | .receive _ _ _ _ => true
  | .callback c => awaited c
  | _ => false

abbrev Election (J : Interface) (α : Type) := Program (election J) Failure α

structure LeaderElection (J : Interface) where
  pod : Nat
  identity : String
  identified : identity ≠ ""
  leaseDurationSeconds : Nat
  renewDeadlineSeconds : Nat
  onStartedLeading : Election J Unit
  onStoppedLeading : Election J Unit

namespace LeaderElection
variable {J : Interface} (self : LeaderElection J)

def now : Election J Nat := ask (I := election J) .now

def fields : Election J Candidate := ask (I := election J) (.fields self.pod)

def set (field : CandidateField) : Election J Unit := ask (I := election J) (.set self.pod field)

def request (caller : Caller) (r : LeaseRequest) : Election J r.Reply := do
  let answer ← (ask (I := election J) (.send self.pod caller r) : Election J (Except Failure r.Reply))
  let answer ← (ask (I := election J) (.receive self.pod caller r answer) : Election J (Except Failure r.Reply))
  match answer with
  | .ok reply => .pure reply
  | .error error => .throw error

/- `KubernetesAdapter.getLease`: a lease that does not exist is undefined. -/
def getLease (caller : Caller) : Election J (Option Lease) :=
  (do let lease ← self.request caller .read
      .pure (some lease)).tryCatch fun error =>
    if error.code = some 404 then .pure none else .throw error

def startLeading : Election J Unit := do
  let candidate ← self.fields
  if candidate.leading then .pure ()
  else do
    self.set (.leading true)
    self.onStartedLeading

def stopLeading : Election J Unit := do
  let candidate ← self.fields
  if candidate.leading then do
    self.set (.leading false)
    self.onStoppedLeading
  else .pure ()

/- Without the RBAC for leases the pod leads all the same. -/
def handleApiError (error : Failure) : Election J Unit :=
  if error.refused then do
    self.set (.timer false)
    self.startLeading
  else .throw error

def overdue (candidate : Candidate) (now : Nat) : Bool := match candidate.lastRenewedAt with
  | none => true
  | some renewed => renewed + self.renewDeadlineSeconds * 1000 < now

def failRenewal : Election J Unit := do
  let candidate ← self.fields
  if candidate.leading then do
    let time ← now
    if self.overdue candidate time then self.stopLeading else .pure ()
  else .pure ()

def duration (lease : Lease) : Nat := (lease.spec.leaseDurationSeconds.getD self.leaseDurationSeconds) * 1000

def expired (lease : Lease) (now : Nat) : Bool := match truthy lease.spec.holderIdentity, lease.spec.renewTime with
  | some _, some renewTime => renewTime + self.duration lease < now
  | _, _ => true

def acquiredSpec (existing : Option Lease) (timestamp : Nat) : LeaseSpec where
  holderIdentity := some self.identity
  leaseDurationSeconds := some self.leaseDurationSeconds
  acquireTime := some timestamp
  renewTime := some timestamp
  leaseTransitions := some ((existing.bind (·.spec.leaseTransitions)).getD 0 + 1)

def renewedSpec (spec : LeaseSpec) (timestamp : Nat) : LeaseSpec :=
  {spec with renewTime := some timestamp, leaseDurationSeconds := some self.leaseDurationSeconds}

def renewed : Election J Unit := do
  let time ← now
  self.set (.lastRenewedAt time)
  self.startLeading

def writeLease (existing : Option Lease) (spec : LeaseSpec) : Election J Unit := match existing with
  | some lease => self.request .tick (.replace {lease with spec := spec})
  | none => self.request .tick (.create spec)

def afterAcquire : Except Failure Unit → Election J Unit
  | .ok () => self.renewed
  | .error error => if error.code = some 409 then self.stopLeading else self.handleApiError error

def acquire (existing : Option Lease) : Election J Unit := do
  let timestamp ← now
  let written ← (self.writeLease existing (self.acquiredSpec existing timestamp)).attempt
  self.afterAcquire written

def afterRenew : Except Failure Unit → Election J Unit
  | .ok () => self.renewed
  | .error error =>
      if error.code = some 409 then self.failRenewal
      else do
        self.handleApiError error
        self.failRenewal

def renew (lease : Lease) : Election J Unit := do
  let timestamp ← now
  let written ← (self.writeLease (some lease) (self.renewedSpec lease.spec timestamp)).attempt
  self.afterRenew written

def decideOn (lease : Lease) : Election J Unit :=
  if lease.spec.holderIdentity = some self.identity then self.renew lease
  else do
    let time ← now
    if self.expired lease time then self.acquire (some lease) else self.stopLeading

def afterRead : Except Failure (Option Lease) → Election J Unit
  | .error error => self.handleApiError error
  | .ok none => self.acquire none
  | .ok (some lease) => self.decideOn lease

def tick : Election J Unit := do
  let candidate ← self.fields
  if candidate.stopped then .pure ()
  else do
    let read ← (self.getLease .tick).attempt
    self.afterRead read

/- A tick that fails is logged; while one is under way there is no other. -/
def tickQuietly : Election J Unit := do
  let candidate ← self.fields
  if candidate.ticking then .pure ()
  else do
    self.set (.ticking true)
    let _ ← self.tick.attempt
    self.set (.ticking false)

def start : Election J Unit := do
  let candidate ← self.fields
  if candidate.timer then .pure ()
  else do
    self.set (.stopped false)
    self.set (.timer true)
    self.tickQuietly

def release : Election J Unit := do
  let lease ← self.getLease .stop
  match lease.filter (fun lease => lease.spec.holderIdentity = some self.identity) with
  | some lease =>
      self.request .stop (.replace {lease with spec := {lease.spec with holderIdentity := none, renewTime := none}})
  | none => .pure ()

def stop : Election J Unit := do
  self.set (.stopped true)
  self.set (.timer false)
  let candidate ← self.fields
  if candidate.leading then do
    let _ ← self.release.attempt
    self.stopLeading
  else .pure ()

end LeaderElection

inductive LeaderCallback where
  | onStartedLeading
  | onStoppedLeading
  deriving DecidableEq, Repr

inductive CallbackCall where
  | invoke (pod : Nat) (callback : LeaderCallback)
  | settle (pod : Nat) (callback : LeaderCallback)
  deriving DecidableEq, Repr

abbrev callbacks : Interface where
  Call := CallbackCall
  Answer
    | .invoke _ _ => Unit
    | .settle _ _ => Except Failure Unit

def CallbackCall.awaits : CallbackCall → Bool
  | .invoke _ _ => false
  | .settle _ _ => true

def LeaderCallback.program (pod : Nat) (callback : LeaderCallback) : Election callbacks Unit := do
  let _ ← (ask (I := election callbacks) (.callback (.invoke pod callback)) : Election callbacks Unit)
  let settled ← (ask (I := election callbacks) (.callback (.settle pod callback)) :
    Election callbacks (Except Failure Unit))
  match settled with
  | .ok () => .pure ()
  | .error error => .throw error

section Callbacks
variable {J : Interface} {α ω σ : Type} [Inhabited ω]

def fromCallback : Program J Failure α → Election J α
  | .pure a => .pure a
  | .throw error => .throw error
  | .call c next => .call (.callback c) fun answer => fromCallback (next answer)

def callbackHandler (h : Handler (election J) ω σ) : Handler J ω σ := fun w c s => h w (.callback c) s

def callbackContract (K : Contract (election J) σ) : Contract J σ where
  ok s c := K.ok s (.callback c)
  rely := K.rely
  guarantee := K.guarantee

theorem callbackKeeps {h : Handler (election J) ω σ} {awaited : J.Call → Bool} {K : Contract (election J) σ}
    {p : Program J Failure α} {Q : Except Failure α → σ → σ → Prop} {t u : σ}
    (keeps : Keeps (callbackHandler h) awaited (callbackContract K) p Q t u) :
    Keeps h (ElectionCall.awaits awaited) K (fromCallback p) Q t u := by
  induction p generalizing t u with
  | pure a => exact keeps
  | throw error => exact keeps
  | call c next ih =>
      simp only [Keeps] at keeps
      split at keeps
      · rename_i awaits
        exact keepsAwait awaits keeps.1 fun v moved ok w => ih _ (keeps.2 v moved ok w)
      · rename_i instant
        exact keepsNow instant (ih _ keeps)

end Callbacks

section Outlines
variable {J : Interface} {ω σ : Type} [Inhabited ω] {h : Handler (election J) ω σ} {awaited : J.Call → Bool}
  {K : Contract (election J) σ} {elect : LeaderElection J} {t u : σ}

theorem LeaderElection.requestKeeps {caller : Caller} {r : LeaseRequest} {Q : Except Failure r.Reply → σ → σ → Prop}
    (fine : K.guarantee t u)
    (sent : ∀ v, K.rely u v → K.ok v (.send elect.pod caller r) → ∀ w,
      K.guarantee v (h w (.send elect.pod caller r) v).2 ∧
      ∀ x, K.rely (h w (.send elect.pod caller r) v).2 x →
        K.ok x (.receive elect.pod caller r (h w (.send elect.pod caller r) v).1) → ∀ w',
        Q (h w' (.receive elect.pod caller r (h w (.send elect.pod caller r) v).1) x).1 x
          (h w' (.receive elect.pod caller r (h w (.send elect.pod caller r) v).1) x).2) :
    Keeps h (ElectionCall.awaits awaited) K (elect.request caller r) Q t u := by
  apply keepsAskAwait rfl fine
  intro v moved ok w
  obtain ⟨kept,received⟩ := sent v moved ok w
  apply keepsAskAwait rfl kept
  intro x later ok' w'
  have owed := received x later ok' w'
  revert owed
  generalize (h w' (.receive elect.pod caller r (h w (.send elect.pod caller r) v).1) x).1 = answer
  intro owed
  cases answer with
  | ok reply => exact owed
  | error error => exact owed

def leaseRead : Except Failure Lease → Except Failure (Option Lease)
  | .ok lease => .ok (some lease)
  | .error error => if error.code = some 404 then .ok none else .error error

theorem LeaderElection.getLeaseKeeps {caller : Caller} {Q : Except Failure (Option Lease) → σ → σ → Prop}
    (fine : K.guarantee t u)
    (sent : ∀ v, K.rely u v → K.ok v (.send elect.pod caller .read) → ∀ w,
      K.guarantee v (h w (.send elect.pod caller .read) v).2 ∧
      ∀ x, K.rely (h w (.send elect.pod caller .read) v).2 x →
        K.ok x (.receive elect.pod caller .read (h w (.send elect.pod caller .read) v).1) → ∀ w',
        Q (leaseRead (h w' (.receive elect.pod caller .read (h w (.send elect.pod caller .read) v).1) x).1) x
          (h w' (.receive elect.pod caller .read (h w (.send elect.pod caller .read) v).1) x).2) :
    Keeps h (ElectionCall.awaits awaited) K (elect.getLease caller) Q t u := by
  apply keepsTryCatch
  apply keepsBind
  apply LeaderElection.requestKeeps fine
  intro v moved ok w
  obtain ⟨kept,received⟩ := sent v moved ok w
  refine ⟨kept,fun x later ok' w' => ?_⟩
  have owed := received x later ok' w'
  revert owed
  generalize (h w' (.receive elect.pod caller .read (h w (.send elect.pod caller .read) v).1) x).1 = answer
  intro owed
  cases answer with
  | ok lease => exact owed
  | error error =>
      simp only [leaseRead] at owed
      apply keepsIf
      · intro missing
        rw [if_pos missing] at owed
        exact owed
      · intro other
        rw [if_neg other] at owed
        exact owed

inductive CandidateField.Minor : CandidateField → Prop where
  | timer : Minor (.timer false)
  | lastRenewedAt (time : Nat) : Minor (.lastRenewedAt time)

structure Outline (elect : LeaderElection J) (h : Handler (election J) ω σ) (awaited : J.Call → Bool)
    (K : Contract (election J) σ) (F : σ → σ → Prop) (Read : Option Lease → σ → Prop) (Won : σ → Prop) : Prop where
  now : ∀ {t u}, F t u → (h default .now u).2 = u
  fields : ∀ {t u}, F t u → (h default (.fields elect.pod) u).2 = u
  set : ∀ {t u field}, F t u → CandidateField.Minor field → F t (h default (.set elect.pod field) u).2
  won : ∀ {t u field}, F t u → Won u → CandidateField.Minor field → Won (h default (.set elect.pod field) u).2
  read : ∀ {t u}, F t u → Keeps h (ElectionCall.awaits awaited) K (elect.getLease .tick) (fun r t u => F t u ∧
    match r with
    | .ok seen => Read seen u
    | .error error => error.refused = true → Won u) t u
  write : ∀ {t u seen spec}, F t u → Read seen u →
    (spec = elect.acquiredSpec seen (h default .now u).1 ∧
      (∀ lease, seen = some lease → elect.expired lease (h default .now u).1 = true)) ∨
    (∃ lease, seen = some lease ∧ lease.spec.holderIdentity = some elect.identity ∧
      spec = elect.renewedSpec lease.spec (h default .now u).1) →
    Keeps h (ElectionCall.awaits awaited) K (elect.writeLease seen spec) (fun r t u => F t u ∧
      match r with
      | .ok () => Won u
      | .error error => error.refused = true → Won u) t u
  start : ∀ {t u}, F t u → Won u → Keeps h (ElectionCall.awaits awaited) K elect.startLeading (fun _ => F) t u
  stop : ∀ {t u}, F t u → Keeps h (ElectionCall.awaits awaited) K elect.stopLeading (fun _ => F) t u

namespace Outline
variable {F : σ → σ → Prop} {Read : Option Lease → σ → Prop} {Won : σ → Prop}
  (outline : Outline elect h awaited K F Read Won)

include outline

theorem renewedKeeps (fine : F t u) (won : Won u) :
    Keeps h (ElectionCall.awaits awaited) K elect.renewed (fun _ => F) t u := by
  apply keepsAskNow rfl
  rw [outline.now fine]
  apply keepsAskNow rfl
  exact outline.start (outline.set fine (.lastRenewedAt _)) (outline.won fine won (.lastRenewedAt _))

theorem failRenewalKeeps (fine : F t u) :
    Keeps h (ElectionCall.awaits awaited) K elect.failRenewal (fun _ => F) t u := by
  apply keepsAskNow rfl
  rw [outline.fields fine]
  apply keepsIf
  · intro leading
    apply keepsAskNow rfl
    rw [outline.now fine]
    apply keepsIf
    · exact fun _ => outline.stop fine
    · exact fun _ => fine
  · exact fun _ => fine

theorem handleKeeps (fine : F t u) {error : Failure} (won : error.refused = true → Won u) :
    Keeps h (ElectionCall.awaits awaited) K (elect.handleApiError error) (fun _ => F) t u := by
  apply keepsIf
  · intro refused
    apply keepsAskNow rfl
    exact outline.start (outline.set fine .timer) (outline.won fine (won refused) .timer)
  · exact fun _ => fine

theorem acquireKeeps {seen : Option Lease} (fine : F t u) (read : Read seen u)
    (free : ∀ lease, seen = some lease → elect.expired lease (h default .now u).1 = true) :
    Keeps h (ElectionCall.awaits awaited) K (elect.acquire seen) (fun _ => F) t u := by
  apply keepsAskNow rfl
  rw [outline.now fine]
  apply keepsBind
  apply keepsAttempt
  apply keepsMono (outline.write fine read (.inl ⟨rfl,free⟩))
  intro written t u ⟨fine,won⟩
  cases written with
  | ok _ => exact outline.renewedKeeps fine won
  | error error =>
      apply keepsIf
      · exact fun _ => outline.stop fine
      · exact fun _ => outline.handleKeeps fine won

theorem renewKeeps {lease : Lease} (fine : F t u) (read : Read (some lease) u)
    (own : lease.spec.holderIdentity = some elect.identity) :
    Keeps h (ElectionCall.awaits awaited) K (elect.renew lease) (fun _ => F) t u := by
  apply keepsAskNow rfl
  rw [outline.now fine]
  apply keepsBind
  apply keepsAttempt
  apply keepsMono (outline.write fine read (.inr ⟨lease,rfl,own,rfl⟩))
  intro written t u ⟨fine,won⟩
  cases written with
  | ok _ => exact outline.renewedKeeps fine won
  | error error =>
      apply keepsIf
      · exact fun _ => outline.failRenewalKeeps fine
      · intro other
        apply keepsBind
        apply keepsMono (outline.handleKeeps fine won)
        intro handled t u fine
        cases handled with
        | ok _ => exact outline.failRenewalKeeps fine
        | error _ => exact fine

theorem decideKeeps {lease : Lease} (fine : F t u) (read : Read (some lease) u) :
    Keeps h (ElectionCall.awaits awaited) K (elect.decideOn lease) (fun _ => F) t u := by
  apply keepsIf
  · exact fun own => outline.renewKeeps fine read own
  · intro other
    apply keepsAskNow rfl
    rw [outline.now fine]
    apply keepsIf
    · intro expired
      apply outline.acquireKeeps fine read
      intro seen same
      cases same
      exact expired
    · exact fun _ => outline.stop fine

theorem tickKeeps (fine : F t u) :
    Keeps h (ElectionCall.awaits awaited) K elect.tick (fun _ => F) t u := by
  apply keepsAskNow rfl
  rw [outline.fields fine]
  apply keepsIf
  · exact fun _ => fine
  · intro going
    apply keepsBind
    apply keepsAttempt
    apply keepsMono (outline.read fine)
    intro read t u ⟨fine,known⟩
    cases read with
    | error error => exact outline.handleKeeps fine known
    | ok seen => cases seen with
        | none => exact outline.acquireKeeps fine known nofun
        | some lease => exact outline.decideKeeps fine known

theorem tickQuietlyKeeps {G : σ → σ → Prop} (fine : G t u) (fields : (h default (.fields elect.pod) u).2 = u)
    (enters : (h default (.fields elect.pod) u).1.ticking = false → F t (h default (.set elect.pod (.ticking true)) u).2)
    (leaves : ∀ {t u}, F t u → G t (h default (.set elect.pod (.ticking false)) u).2) :
    Keeps h (ElectionCall.awaits awaited) K elect.tickQuietly (fun _ => G) t u := by
  apply keepsAskNow rfl
  rw [fields]
  apply keepsIf
  · exact fun _ => fine
  · intro idle
    apply keepsAskNow rfl
    apply keepsBind
    apply keepsAttempt
    apply keepsMono (outline.tickKeeps (enters (Bool.eq_false_iff.mpr idle)))
    intro ended t u fine
    exact keepsNow rfl (leaves fine)

end Outline
end Outlines

structure LeaseServer where
  lease : Option Lease := none
  version : Nat := 0
  deriving DecidableEq, Repr

namespace LeaseServer
variable (server : LeaseServer)

def write (spec : LeaseSpec) : LeaseServer := ⟨some ⟨spec,server.version⟩,server.version + 1⟩

def accepts : LeaseRequest → Bool
  | .read => false
  | .create _ => server.lease.isNone
  | .replace lease => server.lease.any (fun current => current.resourceVersion = lease.resourceVersion)

def reply : (r : LeaseRequest) → Except Failure r.Reply
  | .read => match server.lease with
      | some lease => .ok lease
      | none => .error .notFound
  | .create spec => if server.accepts (.create spec) then .ok () else .error .conflict
  | .replace lease =>
      if server.accepts (.replace lease) then .ok ()
      else .error (if server.lease.isNone then .notFound else .conflict)

def process : LeaseRequest → LeaseServer
  | .read => server
  | .create spec => if server.accepts (.create spec) then server.write spec else server
  | .replace lease => if server.accepts (.replace lease) then server.write lease.spec else server

end LeaseServer
end Passmower
