import Passmower.JavaScript
import Passmower.Resumption.Stepping

/-! The watch of a `KubernetesAdapter`: its requests, the timers that restart it and the stops, with the callbacks of every
request at any time. -/
namespace Passmower
open JavaScript Resumption

namespace Watching

structure WatchError where
  name : String := "Error"
  message : Option String := none
  deriving DecidableEq, Repr

def isWordLetter (c : Char) : Bool := c.isAlphanum || c = '_'

/- Whether a word, or several, stand in a text that goes on from `before`: `/\b…\b/`. -/
def hasWord (word : List Char) : Char → List Char → Bool
  | _, [] => false
  | before, c :: rest =>
      (word.isPrefixOf (c :: rest) && !isWordLetter before &&
        !((((c :: rest).drop word.length).head?.map isWordLetter).getD false)) || hasWord word c rest

def watchRestartDelayMs : Option WatchError → Nat
  | none => 0
  | some err =>
      if err.name = "TimeoutError" || hasWord "stream timeout".toList ' ' (err.message.getD "").toList then 0 else 10 * 1000

structure WatchRequest where
  settled : Bool := false
  ended : Bool := false
  aborted : Bool := false
  deriving DecidableEq, Repr

structure RestartTimer where
  handle : Nat
  delay : Nat
  deriving DecidableEq, Repr

/- The adapter's fields; the requests that were made, and the timers that are pending. And whether the last explicit call
was `watchObjects`. -/
structure WatchState where
  watchStopped : Bool := false
  watchRestartTimer : Option Nat := none
  watchAbortController : Option Nat := none
  made : Nat := 0
  requests : Nat → WatchRequest := fun _ => {}
  timers : List RestartTimer := []
  handles : Nat := 0
  watching : Bool := false

namespace WatchState
variable (s : WatchState)

def updated (request : Nat) (f : WatchRequest → WatchRequest) : WatchState :=
  {s with requests := fun other => if other = request then f (s.requests other) else s.requests other}

def abort (request : Nat) : WatchState := s.updated request fun made => {made with aborted := true}

def watchObjects : WatchState :=
  {s with watchStopped := false, made := s.made + 1, requests := fun other => if other = s.made then {} else s.requests other}

def stopWatching : WatchState :=
  let stopped := {s with
    watchStopped := true
    timers := s.timers.filter fun timer => some timer.handle ≠ s.watchRestartTimer
    watchRestartTimer := none
    watchAbortController := none}
  match s.watchAbortController with
  | some request => stopped.abort request
  | none => stopped

/- The promise of `watch.watch` is fulfilled. -/
def established (request : Nat) : WatchState :=
  let settled := s.updated request fun made => {made with settled := true}
  if s.watchStopped then settled.abort request else {settled with watchAbortController := some request}

def done (request : Nat) (err : Option WatchError) : WatchState :=
  let ended := s.updated request fun made => {made with ended := true}
  if s.watchStopped then ended
  else {ended with
    timers := ⟨s.handles,watchRestartDelayMs err⟩ :: s.timers
    watchRestartTimer := some s.handles
    handles := s.handles + 1}

def fired (handle : Nat) : WatchState :=
  {s with timers := s.timers.filter fun timer => timer.handle ≠ handle}.watchObjects

end WatchState

inductive WatchMove where
  | call
  | establish (request : Nat)
  | done (request : Nat) (err : Option WatchError)
  | fire (handle : Nat)
  deriving DecidableEq, Repr

namespace WatchState
variable (s : WatchState)

/- A promise settles once, a done callback is called once, and only of requests that were made. -/
def step (s : WatchState) : WatchMove → WatchState
  | .call => if s.watching then {s.stopWatching with watching := false} else {s.watchObjects with watching := true}
  | .establish request => if request < s.made ∧ (s.requests request).settled = false then s.established request else s
  | .done request err => if request < s.made ∧ (s.requests request).ended = false then s.done request err else s
  | .fire handle => if s.timers.any (·.handle = handle) then s.fired handle else s

def run (moves : List WatchMove) : WatchState := moves.foldl step {}

def isLive (request : Nat) : Bool := !(s.requests request).ended && !(s.requests request).aborted

def liveRequests : List Nat := (List.range s.made).filter s.isLive

def Single : Prop := s.liveRequests.length + s.timers.length ≤ 1

def Stopped : Prop := (∀ request < s.made, (s.requests request).settled = true) → s.liveRequests = [] ∧ s.timers = []

/- No callback of a request meddles with a later one: when watching starts anew no earlier request is live any more; a done
callback is the newest request's, or comes while the watch is stopped; and a promise that settles late does not replace
the controller of a newer request. -/
def InTurn : WatchMove → Prop
  | .call => s.watching = true ∨ ∀ request < s.made, s.isLive request = false
  | .establish request => s.watchStopped = true ∨ request + 1 = s.made ∨ (s.requests (s.made - 1)).settled = false
  | .done request _ => s.watchStopped = true ∨ request + 1 = s.made
  | .fire _ => True

structure Ordered : Prop where
  newest : ∀ request < s.made, s.isLive request = true → request + 1 = s.made ∧ s.timers = []
  held : s.watchStopped = false → ∀ request < s.made, s.isLive request = true → (s.requests request).settled = true →
    s.watchAbortController = some request
  unaborted : s.watchStopped = false → ∀ request, request + 1 = s.made → (s.requests request).aborted = false
  pending : s.timers = [] ∨ ∃ timer, s.timers = [timer] ∧ s.watchRestartTimer = some timer.handle
  stopped : s.watchStopped = true → s.timers = [] ∧ ∀ request < s.made, s.isLive request = true →
    (s.requests request).settled = false
  idle : s.watching = false → (s.watchStopped = true ∨ s.made = 0) ∧ s.timers = []
  busy : s.watching = true → s.watchStopped = false

section Steps
variable {s : WatchState} {request : Nat}

theorem liveIff : s.isLive request = true ↔ (s.requests request).ended = false ∧ (s.requests request).aborted = false := by
  simp [isLive]

theorem updatedRequests (f : WatchRequest → WatchRequest) (other : Nat) :
    (s.updated request f).requests other = if other = request then f (s.requests other) else s.requests other := rfl

theorem watchObjectsRequests (other : Nat) :
    s.watchObjects.requests other = if other = s.made then {} else s.requests other := rfl

theorem watchObjectsLive (dead : ∀ request < s.made, s.isLive request = false) {other : Nat} (made : other < s.made + 1)
    (live : s.watchObjects.isLive other = true) : other = s.made := by
  by_contra older
  have same : s.watchObjects.isLive other = s.isLive other := by
    simp only [isLive,watchObjectsRequests,if_neg older]
  rw [same,dead other (by omega)] at live
  cases live

theorem startOrdered {watching : Bool} (dead : ∀ request < s.made, s.isLive request = false) (free : s.timers = [])
    (asked : watching = true) : Ordered {s.watchObjects with watching := watching} where
  newest other made live := ⟨congrArg (· + 1) (watchObjectsLive dead made live),free⟩
  held _ other made live settled := by
    have same := watchObjectsLive dead made live
    simp [watchObjects,same] at settled
  unaborted _ other newest := by
    have same : other = s.made := Nat.succ_injective newest
    simp [watchObjects,same]
  pending := .inl free
  stopped halted := by cases halted
  idle unasked := by simp [asked] at unasked
  busy _ := rfl

@[simp] theorem stopMade : s.stopWatching.made = s.made := by
  unfold stopWatching
  split <;> rfl

@[simp] theorem stopHalts : s.stopWatching.watchStopped = true := by
  unfold stopWatching
  split <;> rfl

theorem stopClears (ordered : s.Ordered) : s.stopWatching.timers = [] := by
  have cleared : (s.timers.filter fun timer => some timer.handle ≠ s.watchRestartTimer) = [] := by
    rcases ordered.pending with none | ⟨timer,one,handle⟩
    · rw [none,List.filter_nil]
    · simp [one,handle]
  unfold stopWatching
  split <;> exact cleared

theorem stopAborts (ordered : s.Ordered) (running : s.watchStopped = false) (made : request < s.made)
    (live : s.stopWatching.isLive request = true) :
    s.isLive request = true ∧ (s.stopWatching.requests request).settled = false := by
  have unheld (before : s.isLive request = true) (other : s.watchAbortController ≠ some request) :
      (s.requests request).settled = false := by
    by_contra settled
    exact other (ordered.held running request made before (Bool.not_eq_false _ ▸ settled))
  unfold stopWatching at live ⊢
  split at live
  · rename_i controlled holds
    rw [liveIff] at live
    simp only [abort,updatedRequests] at live ⊢
    by_cases same : request = controlled
    · simp [same] at live
    · simp only [if_neg same] at live ⊢
      have before : s.isLive request = true := liveIff.mpr live
      refine ⟨before,unheld before ?_⟩
      rw [holds]
      exact fun held => same (Option.some.inj held).symm
  · rename_i holds
    have before : s.isLive request = true := live
    refine ⟨before,unheld before ?_⟩
    rw [holds]
    intro held
    cases held

theorem callOrdered (ordered : s.Ordered) (inTurn : s.InTurn .call) : (s.step .call).Ordered := by
  simp only [step]
  split
  · rename_i watching
    have running := ordered.busy watching
    have timers := stopClears ordered
    constructor
    · intro request inside live
      rw [stopMade] at inside
      exact ⟨(ordered.newest request inside (stopAborts ordered running inside live).1).1.trans stopMade.symm,timers⟩
    · intro running
      exact absurd (stopHalts.symm.trans running) (by decide)
    · intro running
      exact absurd (stopHalts.symm.trans running) (by decide)
    · exact .inl timers
    · intro _
      exact ⟨timers,fun request inside live => (stopAborts ordered running (stopMade ▸ inside) live).2⟩
    · intro _
      exact ⟨.inl stopHalts,timers⟩
    · intro asked
      cases asked
  · rename_i unasked
    have idle := ordered.idle (Bool.eq_false_iff.mpr unasked)
    rcases inTurn with watching | dead
    · exact absurd watching unasked
    · exact startOrdered dead idle.2 rfl

theorem establishedOrdered (ordered : s.Ordered) (inTurn : s.InTurn (.establish request)) : (s.step (.establish request)).Ordered := by
  simp only [step]
  split
  · rename_i guarded
    obtain ⟨made,unsettled⟩ := guarded
    unfold established
    split
    · rename_i halted
      have fewer : ∀ other, ((s.updated request fun made => {made with settled := true}).abort request).isLive other = true →
          s.isLive other = true ∧ other ≠ request := by
        intro other live
        rw [liveIff] at live
        simp only [abort,updatedRequests] at live
        by_cases same : other = request
        · simp [same] at live
        · simp only [if_neg same] at live
          exact ⟨liveIff.mpr live,same⟩
      constructor
      · intro other inside live
        exact ordered.newest other inside (fewer other live).1
      · intro running
        exact absurd (halted.symm.trans running) (by decide)
      · intro running
        exact absurd (halted.symm.trans running) (by decide)
      · exact ordered.pending
      · intro _
        refine ⟨(ordered.stopped halted).1,fun other inside live => ?_⟩
        obtain ⟨before,different⟩ := fewer other live
        simp only [abort,updatedRequests,if_neg different]
        exact (ordered.stopped halted).2 other inside before
      · exact ordered.idle
      · exact ordered.busy
    · rename_i running
      have running : s.watchStopped = false := Bool.eq_false_iff.mpr running
      have same : ∀ other, (s.updated request fun made => {made with settled := true}).isLive other = s.isLive other := by
        intro other
        simp only [isLive,updatedRequests]
        split <;> rfl
      constructor
      · intro other inside live
        exact ordered.newest other inside ((same other).symm.trans live)
      · intro _ other inside live settled
        have before : s.isLive other = true := (same other).symm.trans live
        have newest := (ordered.newest other inside before).1
        by_cases mine : other = request
        · rw [mine]
        · -- the newest has settled before an older one
          have settled : (s.requests other).settled = true := by simpa only [updatedRequests,if_neg mine] using settled
          rcases inTurn with halted | here | late
          · exact absurd (running.symm.trans halted) (by decide)
          · omega
          · have last : s.made - 1 = other := by omega
            rw [last,settled] at late
            cases late
      · intro _ other newest
        have before := ordered.unaborted running other newest
        simp only [updatedRequests]
        split <;> exact before
      · exact ordered.pending
      · intro halted
        exact absurd (running.symm.trans halted) (by decide)
      · exact ordered.idle
      · exact ordered.busy
  · exact ordered

theorem doneOrdered {err : Option WatchError} (ordered : s.Ordered) (inTurn : s.InTurn (.done request err)) :
    (s.step (.done request err)).Ordered := by
  simp only [step]
  split
  · rename_i guarded
    obtain ⟨made,unended⟩ := guarded
    have fewer : ∀ other, (s.updated request fun made => {made with ended := true}).isLive other = true →
        s.isLive other = true ∧ other ≠ request := by
      intro other live
      rw [liveIff] at live
      simp only [updatedRequests] at live
      by_cases same : other = request
      · simp [same] at live
      · simp only [if_neg same] at live
        exact ⟨liveIff.mpr live,same⟩
    have kept : ∀ other, ((s.updated request fun made => {made with ended := true}).requests other).aborted =
        (s.requests other).aborted := by
      intro other
      simp only [updatedRequests]
      split <;> rfl
    unfold done
    split
    · rename_i halted
      constructor
      · intro other inside live
        exact ordered.newest other inside (fewer other live).1
      · intro running
        exact absurd (halted.symm.trans running) (by decide)
      · intro running
        exact absurd (halted.symm.trans running) (by decide)
      · exact ordered.pending
      · intro _
        refine ⟨(ordered.stopped halted).1,fun other inside live => ?_⟩
        obtain ⟨before,different⟩ := fewer other live
        simp only [updatedRequests,if_neg different]
        exact (ordered.stopped halted).2 other inside before
      · exact ordered.idle
      · exact ordered.busy
    · rename_i running
      have running : s.watchStopped = false := Bool.eq_false_iff.mpr running
      have newest : request + 1 = s.made := by
        rcases inTurn with halted | newest
        · exact absurd (running.symm.trans halted) (by decide)
        · exact newest
      have live : s.isLive request = true := liveIff.mpr ⟨unended,ordered.unaborted running request newest⟩
      have free := (ordered.newest request made live).2
      have dead : ∀ other < s.made, (s.updated request fun made => {made with ended := true}).isLive other = false := by
        intro other inside
        by_contra alive
        obtain ⟨before,different⟩ := fewer other (Bool.not_eq_false _ ▸ alive)
        exact different (by have := (ordered.newest other inside before).1; omega)
      constructor
      · intro other inside live
        exact absurd ((dead other inside).symm.trans live) (by decide)
      · intro _ other inside live
        exact absurd ((dead other inside).symm.trans live) (by decide)
      · intro _ other newest
        exact (kept other).trans (ordered.unaborted running other newest)
      · exact .inr ⟨_,by rw [free],rfl⟩
      · intro halted
        exact absurd (running.symm.trans halted) (by decide)
      · intro unasked
        rcases (ordered.idle unasked).1 with halted | none
        · exact absurd (running.symm.trans halted) (by decide)
        · omega
      · exact ordered.busy
  · exact ordered

theorem firedOrdered {handle : Nat} (ordered : s.Ordered) : (s.step (.fire handle)).Ordered := by
  simp only [step]
  split
  · rename_i due
    rcases ordered.pending with none | ⟨timer,one,-⟩
    · simp [none] at due
    · have handled : timer.handle = handle := by simpa [one] using due
      have free : (s.timers.filter fun timer => timer.handle ≠ handle) = [] := by simp [one,handled]
      have dead : ∀ request < s.made, s.isLive request = false := by
        intro request inside
        by_contra alive
        have none := (ordered.newest request inside (Bool.not_eq_false _ ▸ alive)).2
        rw [one] at none
        cases none
      have asked : s.watching = true := by
        by_contra unasked
        have none := (ordered.idle (Bool.eq_false_iff.mpr unasked)).2
        rw [one] at none
        cases none
      exact startOrdered (s := {s with timers := s.timers.filter fun timer => timer.handle ≠ handle}) dead free asked
  · exact ordered

theorem stepOrdered {move : WatchMove} (ordered : s.Ordered) (inTurn : s.InTurn move) : (s.step move).Ordered := by
  cases move with
  | call => exact callOrdered ordered inTurn
  | establish request => exact establishedOrdered ordered inTurn
  | done request err => exact doneOrdered ordered inTurn
  | fire handle => exact firedOrdered ordered

theorem beginsOrdered : Ordered {} where
  newest request inside := by cases inside
  held _ request inside := by cases inside
  unaborted _ request newest := by cases newest
  pending := .inl rfl
  stopped halted := by cases halted
  idle _ := ⟨.inr rfl,rfl⟩
  busy asked := by cases asked

theorem runOrdered {moves : List WatchMove} (ordered : s.Ordered) (inTurn : EachStep step InTurn moves s) :
    (moves.foldl step s).Ordered :=
  eachStepKeeps Ordered (fun _ _ => stepOrdered) ordered inTurn

theorem liveMade (member : request ∈ s.liveRequests) : request < s.made ∧ s.isLive request = true := by
  simpa [liveRequests] using member

theorem orderedSingle (ordered : s.Ordered) : s.Single := by
  unfold Single
  cases shape : s.liveRequests with
  | nil =>
      rcases ordered.pending with none | ⟨timer,one,-⟩
      · simp [none]
      · simp [one]
  | cons first rest =>
      obtain ⟨made,live⟩ := liveMade (shape ▸ List.mem_cons_self : first ∈ s.liveRequests)
      obtain ⟨newest,free⟩ := ordered.newest first made live
      have unique : (first :: rest).Nodup := shape ▸ List.Nodup.filter _ List.nodup_range
      have alone : rest = [] := by
        apply List.eq_nil_iff_forall_not_mem.mpr
        intro other inside
        obtain ⟨made',live'⟩ := liveMade (shape ▸ List.mem_cons_of_mem _ inside : other ∈ s.liveRequests)
        have newest' := (ordered.newest other made' live').1
        have same : other = first := by omega
        exact (List.nodup_cons.mp unique).1 (same ▸ inside)
      simp [alone,free]

theorem orderedStopped (ordered : s.Ordered) (unasked : s.watching = false) : s.Stopped := by
  intro settled
  obtain ⟨halted,free⟩ := ordered.idle unasked
  refine ⟨List.eq_nil_iff_forall_not_mem.mpr fun request member => ?_,free⟩
  obtain ⟨made,live⟩ := liveMade member
  rcases halted with halted | none
  · have unsettled := (ordered.stopped halted).2 request made live
    rw [settled request made] at unsettled
    cases unsettled
  · omega

end Steps

/- In runs in turn one request is live or one timer pends at most, at any time; and from a stop to the next call nothing is
live and nothing pends once the promises of all requests have settled. -/
theorem watchesSingle (moves : List WatchMove) (inTurn : EachStep step InTurn moves {}) :
    (run moves).Single ∧ ((run moves).watching = false → (run moves).Stopped) := by
  have ordered : (run moves).Ordered := runOrdered beginsOrdered inTurn
  exact ⟨orderedSingle ordered,orderedStopped ordered⟩

theorem expiredStopped : (run [.call,.establish 0,.done 0 none,.fire 0,.establish 1,.call]).Single ∧
    ((run [.call,.establish 0,.done 0 none,.fire 0,.establish 1,.call]).watching = false →
      (run [.call,.establish 0,.done 0 none,.fire 0,.establish 1,.call]).Stopped) := by
  apply watchesSingle
  refine ⟨.inr fun request made => absurd made (Nat.not_lt_zero request),.inr (.inl rfl),.inr rfl,trivial,.inr (.inl rfl),.inl rfl,trivial⟩

/- The request of before the stop ends once watching has started again. -/
theorem restartedTwice : ¬ ∀ moves, (run moves).Single ∧ ((run moves).watching = false → (run moves).Stopped) := by
  intro always
  have single := (always [.call,.establish 0,.call,.call,.done 0 none]).1
  exact absurd single (by unfold Single; decide)

end WatchState
end Watching
end Passmower
