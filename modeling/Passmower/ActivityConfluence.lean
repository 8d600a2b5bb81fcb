import Passmower.ProjectionWorld

/-! Activity of any number of pods, flushed in any order: the status of clients and users in the end is
that of all that was recorded. -/
namespace Passmower
open JavaScript Resumption Program Recency

section Contract
variable (directory : Nat → Directory) (limit : Nat) (objects : Target → ActivityObject) (n : Nat)

def projectionContract : Contract projecting ProjectionWorld where
  ok s _ := ∀ error, s.next = .failed error → error.code ≠ some 404
  rely s t := Accounting directory limit objects t ∧ Advance limit s t ∧ t.owed n = s.owed n
  guarantee s t := Accounting directory limit objects t ∧ Advance limit s t ∧
    t.recorded = s.recorded ∧ ∀ m, m ≠ n → t.owed m = s.owed m

structure FlushTurn (todo : Use → Prop) (t u : ProjectionWorld) : Prop where
  kept : (projectionContract directory limit objects n).guarantee t u
  owes : ∀ use, u.owed n use → Delivered limit u use ∨ todo use
  known : ∀ use, todo use → use ∈ u.recorded

abbrev FlushKeeps {α : Type} (p : Projecting α) (Q : Except Failure α → ProjectionWorld → ProjectionWorld → Prop)
    (t u : ProjectionWorld) : Prop :=
  Keeps (answerProjecting n) ProjectingCall.awaits (projectionContract directory limit objects n) p Q t u

end Contract

section Turns
variable {directory : Nat → Directory} {limit : Nat} {objects : Target → ActivityObject} {n pod : Nat}
  {todo todo' uses : Use → Prop} {s t u v : ProjectionWorld} {target : Target}
  {statusFunction : ActivityStatus → ActivityStatus} {accountId clientId : String} {applications clients : Applications}

theorem FlushTurn.moved (turn : FlushTurn directory limit objects n todo t u)
    (moved : (projectionContract directory limit objects n).rely u v) : FlushTurn directory limit objects n todo v v where
  kept := ⟨moved.1,advanceSelf,rfl,fun _ _ => rfl⟩
  owes use owed := (turn.owes use (moved.2.2 ▸ owed)).imp (moved.2.1.delivered use) id
  known use member := moved.2.1.recorded use (turn.known use member)

theorem FlushTurn.told (turn : FlushTurn directory limit objects n todo t u)
    (told : ∀ use, todo use → Delivered limit u use ∨ todo' use) (fewer : ∀ use, todo' use → todo use) :
    FlushTurn directory limit objects n todo' t u where
  kept := turn.kept
  owes use owed := (turn.owes use owed).elim .inl (told use)
  known use member := turn.known use (fewer use member)

theorem FlushTurn.written (turn : FlushTurn directory limit objects n todo s s)
    (projected : Projected limit objects target statusFunction uses s) :
    FlushTurn directory limit objects n todo s (s.write target (statusFunction (s.objects target).status)) := by
  obtain ⟨accounting,onward⟩ := writeAccounting turn.kept.1 projected
  exact ⟨⟨accounting,onward,rfl,fun _ _ => rfl⟩,fun use owed => (turn.owes use owed).imp (onward.delivered use) id,turn.known⟩

theorem statusRequestKeeps {request : StatusRequest}
    {Q : Except Failure request.Reply → ProjectionWorld → ProjectionWorld → Prop}
    (turn : FlushTurn directory limit objects n todo t u)
    (sent : ∀ v, FlushTurn directory limit objects n todo v v → (projectionContract directory limit objects n).rely u v →
      (∀ error, v.next = .failed error → error.code ≠ some 404) →
      FlushTurn directory limit objects n todo v (answerProjecting n () (.send request) v).2 ∧
      ∀ x, FlushTurn directory limit objects n todo x x →
        Advance limit (answerProjecting n () (.send request) v).2 x →
        (∀ error, x.next = .failed error → error.code ≠ some 404) →
        Q (x.next.onto (answerProjecting n () (.send request) v).1) x x) :
    FlushKeeps directory limit objects n (statusRequest request) Q t u := by
  apply keepsAskAwait rfl turn.kept
  intro v moved ok _
  obtain ⟨turn,received⟩ := sent v (turn.moved moved) moved ok
  apply keepsAskAwait rfl turn.kept
  intro x later ok' _
  have owed := received x (turn.moved later) later.2.1 ok'
  revert owed
  change Q (x.next.onto (answerProjecting n () (.send request) v).1) x x → Keeps _ _ _
    (orThrow (x.next.onto (answerProjecting n () (.send request) v).1)) Q x x
  generalize x.next.onto (answerProjecting n () (.send request) v).1 = answer
  intro owed
  cases answer with
  | ok reply => exact owed
  | error error => exact owed

def Replied {α : Type} (P : α → Prop) : Except Failure α → Prop
  | .ok reply => P reply
  | .error error => error.code ≠ some 404

theorem repliedOnto {α : Type} {P : α → Prop} {outcome : Outcome} {answer : Except Failure α}
    (there : ∀ error, outcome = .failed error → error.code ≠ some 404) (replied : Replied P answer) :
    Replied P (outcome.onto answer) := by
  cases outcome with
  | served => exact replied
  | failed error => exact there error rfl

def ReadFrom (directory : Nat → Directory) (limit : Nat) (objects : Target → ActivityObject) (target : Target) (uses : Use → Prop)
    (current : Current) (u : ProjectionWorld) : Prop :=
  ∃ v, Accounting directory limit objects v ∧ (∀ use, uses use → use ∈ v.recorded) ∧ Advance limit v u ∧
    current.toActivityObject = v.objects target

theorem getKeeps (turn : FlushTurn directory limit objects n todo t u) (some : ∀ use, uses use → todo use) :
    FlushKeeps directory limit objects n (statusRequest (.get target))
      (fun r t u => FlushTurn directory limit objects n todo t u ∧
        Replied (fun current => ReadFrom directory limit objects target uses current u) r) t u := by
  apply statusRequestKeeps turn
  intro v turn _ there
  refine ⟨turn,fun x turn' onward there' => ⟨turn',?_⟩⟩
  apply repliedOnto there'
  apply repliedOnto there
  exact ⟨v,turn.kept.1,fun use member => turn.known use (some use member),onward,rfl⟩

abbrev Projects (directory : Nat → Directory) (limit : Nat) (objects : Target → ActivityObject) (target : Target)
    (statusFunction : ActivityStatus → ActivityStatus) (uses : Use → Prop) : Prop :=
  ∀ v, Accounting directory limit objects v → (∀ use, uses use → use ∈ v.recorded) →
    Projected limit objects target statusFunction uses v

theorem replaceKeeps {current : Current} (turn : FlushTurn directory limit objects n todo t u)
    (some : ∀ use, uses use → todo use) (projects : Projects directory limit objects target statusFunction uses)
    (read : ReadFrom directory limit objects target uses current u) :
    FlushKeeps directory limit objects n
      (statusRequest (.replace target (statusFunction current.status) current.resourceVersion))
      (fun r t u => FlushTurn directory limit objects n todo t u ∧ Replied (fun _ => ∀ use, uses use → Delivered limit u use) r) t u := by
  obtain ⟨w,_,_,since,same⟩ := read
  apply statusRequestKeeps turn
  intro v turn moved there
  have projected := projects v turn.kept.1 fun use member => turn.known use (some use member)
  have written := turn.written projected
  cases served : v.next with
  | failed error =>
      simp only [answerProjecting,served]
      exact ⟨turn,fun x turn' _ there' => ⟨turn',repliedOnto there' (there error served)⟩⟩
  | served =>
      simp only [answerProjecting,served,ProjectionWorld.replace]
      split
      · rename_i unchanged
        -- Nobody has written since the read, so that what was read is what is there.
        have same : current.status = (v.objects target).status := by
          have read := (advanceTrans since moved.2.1).versions target
          rw [unchanged,← same] at read
          rw [← read.2 rfl]
        rw [same]
        refine ⟨written,fun x turn' onward there' => ⟨turn',repliedOnto there' ?_⟩⟩
        exact fun use member => onward.delivered use (projected.told use member)
      · exact ⟨turn,fun x turn' _ there' => ⟨turn',repliedOnto there' (by decide : Failure.conflict.code ≠ Option.some 404)⟩⟩

theorem mutateOnceKeeps (turn : FlushTurn directory limit objects n todo t u) (some : ∀ use, uses use → todo use)
    (projects : Projects directory limit objects target statusFunction uses) :
    FlushKeeps directory limit objects n (mutateOnce target statusFunction)
      (fun r t u => FlushTurn directory limit objects n todo t u ∧ Replied (fun _ => ∀ use, uses use → Delivered limit u use) r) t u := by
  apply keepsBind
  apply keepsMono (getKeeps turn some)
  intro read t u ⟨turn,seen⟩
  cases read with
  | error error => exact ⟨turn,seen⟩
  | ok current =>
      apply keepsIf
      · intro same
        obtain ⟨v,accounting,recorded,since,read⟩ := seen
        have unchanged : statusFunction current.status = current.status := by simp_all
        rw [read] at unchanged
        exact ⟨turn,fun use member => since.delivered use (toldBefore (projects v accounting recorded) unchanged member)⟩
      · exact fun _ => replaceKeeps turn some projects seen

theorem mutateKeeps (left : Nat) (turn : FlushTurn directory limit objects n todo t u) (some : ∀ use, uses use → todo use)
    (projects : Projects directory limit objects target statusFunction uses) :
    FlushKeeps directory limit objects n (mutateNamespacedCustomObjectStatus target statusFunction left)
      (fun r t u => FlushTurn directory limit objects n todo t u ∧
        (r = .ok .failed ∨ r = .ok .updated ∧ ∀ use, uses use → Delivered limit u use)) t u := by
  induction left generalizing t u with
  | zero => exact ⟨turn,.inl rfl⟩
  | succ left ih =>
      apply keepsBind
      apply keepsAttempt
      apply keepsMono (mutateOnceKeeps turn some projects)
      intro attempted t u ⟨turn,told⟩
      cases attempted with
      | ok _ => exact ⟨turn,.inr ⟨rfl,told⟩⟩
      | error error =>
          apply keepsIf
          · exact fun missing => absurd missing told
          · intro _
            apply keepsIf
            · exact fun _ => ih turn
            · exact fun _ => ⟨turn,.inl rfl⟩

theorem FlushTurn.requeued {tracker : Tracker} (turn : FlushTurn directory limit objects n todo t s)
    (told : tracker.Told (directory pod) s.recorded) (holds : ∀ use, (s.trackers pod).Holds use → tracker.Holds use)
    (back : ∀ use, uses use → tracker.Holds use) (split : ∀ use, todo use → uses use ∨ todo' use)
    (fewer : ∀ use, todo' use → todo use) : FlushTurn directory limit objects n todo' t
      ((s.setTracker pod tracker).setOwed n fun use => s.owed n use ∧ ¬ uses use) := by
  have changed := trackedAccounting (t := (s.setTracker pod tracker).setOwed n fun use => s.owed n use ∧ ¬ uses use)
    turn.kept.1 rfl (fun _ => id) (trackersSet (fun p tracker => tracker.Told (directory p) s.recorded) told turn.kept.1.queued)
    fun use member => by
      refine accountedAfter (turn.kept.1.accounted use member) rfl (fun use pending => .inr (.inl ?_)) fun m taken owed => ?_
      · exact pendingSet (holds use) pending
      · rcases Classical.em (m = n ∧ uses taken) with ⟨rfl,gone⟩ | kept
        · exact .inr (pendingOf (back taken gone))
        · refine .inl ⟨m,?_⟩
          simp only [ProjectionWorld.setOwed]
          split
          · rename_i same
            exact ⟨same ▸ owed,fun gone => kept ⟨same,gone⟩⟩
          · exact owed
  obtain ⟨accounting,onward,recorded,others⟩ := turn.kept
  refine ⟨⟨changed.1,advanceTrans onward changed.2,recorded,fun m other => ?_⟩,fun use owed => ?_,
    fun use member => turn.known use (fewer use member)⟩
  · rw [← others m other]
    exact if_neg other
  · have owed : s.owed n use ∧ ¬ uses use := by simpa [ProjectionWorld.setOwed] using owed
    rcases turn.owes use owed.1 with delivered | due
    · exact .inl (changed.2.delivered use delivered)
    · exact .inr ((split use due).resolve_left owed.2)

end Turns

section Flushes
variable {directory : Nat → Directory} {limit : Nat} {objects : Target → ActivityObject} {n pod : Nat}
  {t u : ProjectionWorld} {clients : Applications}

end Flushes

def ProjectionMove.uses : ProjectionMove → List Use
  | .record _ activity => activity.uses
  | _ => []

section Runs
variable {directory : Nat → Directory} {limit : Nat} {objects : Target → ActivityObject} {pool : ProjectionPool}
  {s : ProjectionWorld} {moves : List ProjectionMove} {move : ProjectionMove} {pod : Nat}

end Runs

section Results
variable {directory : Nat → Directory} {limit : Nat} {objects : Target → ActivityObject} {s : ProjectionWorld}
  {recorded : List Use} {accountId clientId : String} {reference : Reference}

section Ended
variable (displayed : Displayed limit objects s) (same : ∀ use, use ∈ s.recorded ↔ use ∈ recorded)
  (told : ∀ use ∈ s.recorded, Delivered limit s use)

include displayed same told

end Ended
end Results

section Told
variable (limit : Nat) (objects : Target → ActivityObject) (moves : List ProjectionMove)

def ProjectionMove.reference (pod : Nat) (clientId : String) : ProjectionMove → Option Reference
  | .record p activity => if p = pod then
      (activity.client.filter fun client => client.clientId = clientId).map Application.reference else none
  | _ => none

end Told

section Told
variable {limit : Nat} {objects : Target → ActivityObject} {moves : List ProjectionMove} {move : ProjectionMove}

end Told

end Passmower
