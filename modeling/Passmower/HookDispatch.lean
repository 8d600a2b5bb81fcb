import Passmower.EventHooks

/-! Each generation of a user is dispatched once, where no two handlers of one generation stand between
reading the remembered generation and remembering their own, and none remembers a generation that is
smaller than the remembered one. -/
namespace Passmower
open Resumption Program

namespace HookDispatch

inductive WatchEvent where
  | added (user : UserResource)
  | modified (user : UserResource)
  deriving DecidableEq, Repr

def WatchEvent.handler (digest : String → String) : WatchEvent → EventHooks Unit
  | .added user => EventHooks.added digest user
  | .modified user => EventHooks.modified digest user

/- Others change hooks and collect Jobs at any time. -/
inductive HookMove where
  | deliver (event : WatchEvent)
  | proceed (n : Nat) (outcome : HookOutcome)
  | change (hooks : List OidcUserEventHook) (jobs : List (String × String))
  deriving DecidableEq, Repr

def facing (outcome : HookOutcome) (pool : EventHookPool) : EventHookPool :=
  pool.edit fun s => {s with outcome := outcome}

def step (digest : String → String) (pool : EventHookPool) : HookMove → EventHookPool
  | .deliver event => pool.spawn answerHooks HookCall.awaits (event.handler digest)
  | .proceed n outcome => (facing outcome pool).proceed answerHooks HookCall.awaits n ()
  | .change hooks jobs => pool.edit fun s => {s with hooks := hooks, jobs := jobs}

def run (digest : String → String) (moves : List HookMove) (pool : EventHookPool) : EventHookPool :=
  moves.foldl (step digest) pool

def begin (seeded : String → Option Nat) (hooks : List OidcUserEventHook) : EventHookPool :=
  ⟨[],{store := seeded, hooks := hooks}⟩

def SameEdge (user other : UserResource) : Prop := other.uid = user.uid ∧ other.at = user.at

instance (user other) : Decidable (SameEdge user other) := by unfold SameEdge; infer_instance

def edgeOf (entry : Nat × UserEvent) : String × Nat := (entry.2.user.uid,entry.2.user.at)

def Reached (s : EventHookWorld) (user : UserResource) : Prop := ∃ g ∈ s.store user.uid, user.at ≤ g

/- What dispatching once per generation comes to. The last field is about the end of a run. -/
structure OncePerGeneration (seeded : String → Option Nat) (pool : EventHookPool) : Prop where
  once : (pool.state.dispatches.map edgeOf).Nodup
  statusOnly : ∀ n event, (n,event) ∈ pool.state.dispatches → seeded event.user.uid ≠ some event.user.at ∧
    ∀ m < n, ∀ user, pool.state.heard m = some user → SameEdge event.user user → pool.state.stopped m = true
  latest : (∀ p ∈ pool.threads, ∀ c next, p ≠ .call c next) → (∀ n, pool.state.stopped n = false) →
    ∀ n user, pool.state.heard n = some user → (∀ g ∈ seeded user.uid, g ≤ user.at) →
      (∀ m other, pool.state.heard m = some other → other.uid = user.uid → other.at ≤ user.at) →
      pool.state.store user.uid = some user.at

/- A handler that reads another generation than its own finds every earlier one of its generation past
remembering, and none remembers a generation that is smaller than the remembered one. -/
def Undisturbed (n : Nat) (s : EventHookWorld) : HookCall → Prop
  | .find _ => s.outcome = .answered → ∀ user, s.heard n = some user → s.store user.uid ≠ some user.at →
      ∀ m < n, ∀ other, s.heard m = some other → SameEdge user other → s.phase m = .past
  | .upsert uid generation => s.outcome = .answered → ∀ g ∈ s.store uid, g ≤ generation
  | _ => True

def Orderly (pool : EventHookPool) : HookMove → Prop
  | .proceed n outcome => (facing outcome pool).Ready Undisturbed n
  | _ => True

structure Accounts (seeded : String → Option Nat) (s : EventHookWorld) : Prop where
  once : (s.dispatches.map edgeOf).Nodup
  made : ∀ n event, (n,event) ∈ s.dispatches → s.heard n = some event.user ∧ Reached s event.user
  onward : ∀ uid, ∀ g ∈ seeded uid, ∃ r ∈ s.store uid, g ≤ r
  origin : ∀ uid, ∀ r ∈ s.store uid, seeded uid = some r ∨
    ∃ n user, s.heard n = some user ∧ user.uid = uid ∧ user.at = r
  statusOnly : ∀ n event, (n,event) ∈ s.dispatches → seeded event.user.uid ≠ some event.user.at ∧
    ∀ m < n, ∀ user, s.heard m = some user → SameEdge event.user user → s.stopped m = true
  passed : ∀ n user, s.heard n = some user → s.phase n = .past → s.stopped n = true ∨ Reached s user
  turns : ∀ n user, s.heard n = some user → s.phase n = .remembering → s.store user.uid ≠ some user.at ∧
    ∀ m < n, ∀ other, s.heard m = some other → SameEdge user other → s.phase m = .past

section States
variable {seeded : String → Option Nat} {s t : EventHookWorld} {n : Nat} {user : UserResource}

theorem accountsSame (accounts : Accounts seeded s) (store : t.store = s.store) (heard : t.heard = s.heard)
    (phase : t.phase = s.phase) (stopped : t.stopped = s.stopped) (dispatches : t.dispatches = s.dispatches) :
    Accounts seeded t := by
  obtain ⟨once,made,onward,origin,statusOnly,passed,turns⟩ := accounts
  refine ⟨?_,?_,?_,?_,?_,?_,?_⟩
  · simpa only [dispatches] using once
  · simpa only [Reached,store,heard,dispatches] using made
  · simpa only [store] using onward
  · simpa only [store,heard] using origin
  · simpa only [heard,stopped,dispatches] using statusOnly
  · simpa only [Reached,store,heard,phase,stopped] using passed
  · simpa only [store,heard,phase] using turns

theorem hearAccounts (accounts : Accounts seeded s) (fresh : ∀ m, n ≤ m → s.heard m = none) (user : UserResource) :
    Accounts seeded (s.hear n user) := by
  have before {m : Nat} {other : UserResource} (heard : s.heard m = some other) : m < n := by
    by_contra beyond
    rw [fresh m (Nat.le_of_not_lt beyond)] at heard
    cases heard
  have known {m : Nat} {other : UserResource} (heard : (s.hear n user).heard m = some other) :
      m = n ∨ s.heard m = some other := by
    by_cases same : m = n
    · exact .inl same
    · exact .inr (by simpa [EventHookWorld.hear,same] using heard)
  have kept {m : Nat} {other : UserResource} (heard : s.heard m = some other) :
      (s.hear n user).heard m = some other ∧ (s.hear n user).phase m = s.phase m := by
    have other : m ≠ n := Nat.ne_of_lt (before heard)
    simpa [EventHookWorld.hear,other] using heard
  have reading : (s.hear n user).phase n = .reading := if_pos rfl
  refine ⟨accounts.once,?_,accounts.onward,?_,?_,?_,?_⟩
  · intro m event dispatched
    obtain ⟨heard,reached⟩ := accounts.made m event dispatched
    exact ⟨(kept heard).1,reached⟩
  · intro uid r held
    rcases accounts.origin uid r held with start | ⟨m,other,heard,rest⟩
    · exact .inl start
    · exact .inr ⟨m,other,(kept heard).1,rest⟩
  · intro m event dispatched
    obtain ⟨unseeded,others⟩ := accounts.statusOnly m event dispatched
    refine ⟨unseeded,fun k earlier other heard same => ?_⟩
    have within := before (accounts.made m event dispatched).1
    exact others k earlier other ((known heard).resolve_left (by omega)) same
  · intro m other heard past
    rcases known heard with rfl | old
    · rw [reading] at past
      cases past
    · exact accounts.passed m other old ((kept old).2 ▸ past)
  · intro m other heard remembering
    rcases known heard with rfl | old
    · rw [reading] at remembering
      cases remembering
    · obtain ⟨differs,others⟩ := accounts.turns m other old ((kept old).2 ▸ remembering)
      refine ⟨differs,fun k earlier third heard same => ?_⟩
      have within := before old
      have third' := (known heard).resolve_left (by omega)
      rw [(kept third').2]
      exact others k earlier third third' same

theorem phaseAccounts (accounts : Accounts seeded s) (heard : s.heard n = some user) {phase : HandlerPhase}
    (unpast : s.phase n ≠ .past ∨ phase = .past)
    (passed : phase = .past → s.stopped n = true ∨ Reached s user)
    (turn : phase = .remembering → s.store user.uid ≠ some user.at ∧
      ∀ m < n, ∀ other, s.heard m = some other → SameEdge user other → s.phase m = .past) :
    Accounts seeded (s.setPhase n phase) := by
  have own : (s.setPhase n phase).phase n = phase := if_pos rfl
  have others {m : Nat} (other : m ≠ n) : (s.setPhase n phase).phase m = s.phase m := if_neg other
  have stays {m : Nat} (past : s.phase m = .past) : (s.setPhase n phase).phase m = .past := by
    by_cases same : m = n
    · subst same
      rw [own]
      exact unpast.resolve_left fun differs => differs past
    · rw [others same]
      exact past
  refine ⟨accounts.once,accounts.made,accounts.onward,accounts.origin,accounts.statusOnly,?_,?_⟩
  · intro m other known past
    by_cases same : m = n
    · subst same
      rw [own] at past
      cases heard.symm.trans known
      exact passed past
    · exact accounts.passed m other known (others same ▸ past)
  · intro m other known remembering
    by_cases same : m = n
    · subst same
      rw [own] at remembering
      cases heard.symm.trans known
      obtain ⟨differs,earlier⟩ := turn remembering
      exact ⟨differs,fun k before third heard same => stays (earlier k before third heard same)⟩
    · obtain ⟨differs,earlier⟩ := accounts.turns m other known (others same ▸ remembering)
      exact ⟨differs,fun k before third heard same => stays (earlier k before third heard same)⟩

theorem readAccounts (accounts : Accounts seeded s) (heard : s.heard n = some user) (reading : s.phase n = .reading)
    (undisturbed : s.store user.uid ≠ some user.at →
      ∀ m < n, ∀ other, s.heard m = some other → SameEdge user other → s.phase m = .past) :
    Accounts seeded (s.read n user.uid) := by
  unfold EventHookWorld.read
  rw [heard]
  apply phaseAccounts accounts heard (.inl (by simp [reading]))
  · intro past
    by_cases same : s.store user.uid = some user.at
    · exact .inr ⟨user.at,same,Nat.le_refl _⟩
    · simp [same] at past
  · intro remembering
    by_cases same : s.store user.uid = some user.at
    · simp [same] at remembering
    · exact ⟨same,undisturbed same⟩

theorem stopAccounts (accounts : Accounts seeded s) (heard : s.heard n = some user) : Accounts seeded (s.stop n) := by
  let marked : EventHookWorld := {s with stopped := fun m => if m = n then true else s.stopped m}
  have kept {m : Nat} (stopped : s.stopped m = true) : marked.stopped m = true := by
    by_cases same : m = n <;> simp [marked,same,stopped]
  have accounts' : Accounts seeded marked := by
    refine ⟨accounts.once,accounts.made,accounts.onward,accounts.origin,?_,?_,accounts.turns⟩
    · intro m event dispatched
      obtain ⟨unseeded,others⟩ := accounts.statusOnly m event dispatched
      exact ⟨unseeded,fun k earlier other heard same => kept (others k earlier other heard same)⟩
    · intro m other known past
      exact (accounts.passed m other known past).imp_left kept
  have own : marked.stopped n = true := if_pos rfl
  exact phaseAccounts accounts' heard (.inr rfl) (fun _ => .inl own) (fun never => by cases never)

theorem writeAccounts (accounts : Accounts seeded s) (heard : s.heard n = some user) (remembering : s.phase n = .remembering)
    (larger : ∀ g ∈ s.store user.uid, g ≤ user.at) (type : EventType) :
    Accounts seeded {s.write n user.uid (some user.at) with dispatches := s.dispatches ++ [(n,⟨type,user⟩)]} := by
  obtain ⟨differs,earlier⟩ := accounts.turns n user heard remembering
  have below : ∀ g ∈ s.store user.uid, g < user.at := by
    intro g held
    refine Nat.lt_of_le_of_ne (larger g held) ?_
    rintro rfl
    exact differs held
  have unreached {other : UserResource} (same : SameEdge user other) : ¬ Reached s other := by
    rintro ⟨g,held,most⟩
    rw [same.1] at held
    have := below g held
    have := same.2
    omega
  have grown : ∀ uid, ∀ g ∈ s.store uid, ∃ r ∈ (s.write n user.uid (some user.at)).store uid, g ≤ r := by
    intro uid g held
    by_cases same : uid = user.uid
    · subst same
      exact ⟨user.at,if_pos rfl,larger g held⟩
    · exact ⟨g,(if_neg same).trans held,Nat.le_refl _⟩
  have reaches {other : UserResource} (reached : Reached s other) :
      ∃ r ∈ (s.write n user.uid (some user.at)).store other.uid, other.at ≤ r := by
    obtain ⟨g,held,most⟩ := reached
    obtain ⟨r,now,more⟩ := grown other.uid g held
    exact ⟨r,now,Nat.le_trans most more⟩
  have own : user.at ∈ (s.write n user.uid (some user.at)).store user.uid := if_pos rfl
  have phases {m : Nat} (other : m ≠ n) : (s.write n user.uid (some user.at)).phase m = s.phase m := if_neg other
  refine ⟨?_,?_,?_,?_,?_,?_,?_⟩
  · rw [List.map_append]
    apply accounts.once.append (List.nodup_singleton _)
    intro key old new
    obtain ⟨⟨m,event⟩,dispatched,named⟩ := List.mem_map.mp old
    cases List.mem_singleton.mp new
    have reached := (accounts.made m event dispatched).2
    exact unreached ⟨congrArg Prod.fst named,congrArg Prod.snd named⟩ reached
  · intro m event dispatched
    rcases List.mem_append.mp dispatched with old | new
    · obtain ⟨known,reached⟩ := accounts.made m event old
      exact ⟨known,reaches reached⟩
    · cases List.mem_singleton.mp new
      exact ⟨heard,user.at,own,Nat.le_refl _⟩
  · intro uid g start
    obtain ⟨r,held,more⟩ := accounts.onward uid g start
    obtain ⟨r',now,more'⟩ := grown uid r held
    exact ⟨r',now,Nat.le_trans more more'⟩
  · intro uid r held
    by_cases same : uid = user.uid
    · subst same
      cases Option.some.inj ((if_pos rfl).symm.trans held)
      exact .inr ⟨n,user,heard,rfl,rfl⟩
    · exact accounts.origin uid r ((if_neg same).symm.trans held)
  · intro m event dispatched
    rcases List.mem_append.mp dispatched with old | new
    · exact accounts.statusOnly m event old
    · cases List.mem_singleton.mp new
      refine ⟨fun start => ?_,fun k before other known same => ?_⟩
      · obtain ⟨r,held,more⟩ := accounts.onward user.uid user.at start
        have := below r held
        omega
      · exact (accounts.passed k other known (earlier k before other known same)).resolve_right (unreached same)
  · intro m other known past
    by_cases same : m = n
    · subst same
      cases heard.symm.trans known
      exact .inr ⟨user.at,own,Nat.le_refl _⟩
    · exact (accounts.passed m other known ((phases same).symm.trans past)).imp_right reaches
  · intro m other known waiting
    have apart : m ≠ n := by
      rintro rfl
      have now : (s.write m user.uid (some user.at)).phase m = .past := if_pos rfl
      cases now.symm.trans waiting
    obtain ⟨distinct,before⟩ := accounts.turns m other known ((phases apart).symm.trans waiting)
    refine ⟨fun held => ?_,fun k first third heard same => ?_⟩
    · by_cases alike : other.uid = user.uid
      · -- The other one of this generation would have had to wait for this one, or this one for it.
        have equal : user.at = other.at := Option.some.inj ((if_pos alike).symm.trans held)
        rcases Nat.lt_or_gt_of_ne apart with first | second
        · have past := earlier m first other known ⟨alike,equal.symm⟩
          rw [(phases apart).symm.trans waiting] at past
          cases past
        · have past := before n second user heard ⟨alike.symm,equal⟩
          rw [remembering] at past
          cases past
      · exact distinct ((if_neg alike).symm.trans held)
    · by_cases same' : k = n
      · subst same'
        exact if_pos rfl
      · exact (phases same').trans (before k first third heard same)

end States

section Threads
variable (seeded : String → Option Nat)

structure Mine (n : Nat) (a b : EventHookWorld) : Prop where
  accounts : Accounts seeded a → Accounts seeded b
  others : ∀ m, m ≠ n → b.heard m = a.heard m ∧ b.phase m = a.phase m

structure Theirs (n : Nat) (a b : EventHookWorld) : Prop where
  accounts : Accounts seeded a → Accounts seeded b
  own : b.heard n = a.heard n ∧ b.phase n = a.phase n

def contract (n : Nat) : Contract eventHooks EventHookWorld := ⟨Undisturbed n,Theirs seeded n,Mine seeded n⟩

def Past (n : Nat) (s : EventHookWorld) : Prop := s.phase n = .past

def Ended (n : Nat) (_ : Except Unit Unit) (t u : EventHookWorld) : Prop := Mine seeded n t u ∧ Past n u

variable {seeded} {digest : String → String} {s t u v : EventHookWorld} {n m : Nat} {user : UserResource}
  {event : UserEvent}

theorem theirsTrans (first : Theirs seeded n s t) (second : Theirs seeded n t u) : Theirs seeded n s u :=
  ⟨second.accounts ∘ first.accounts,second.own.1.trans first.own.1,second.own.2.trans first.own.2⟩

theorem mineTheirs (apart : n ≠ m) (mine : Mine seeded n s t) : Theirs seeded m s t :=
  ⟨mine.accounts,mine.others m apart.symm⟩

theorem mineSelf (s : EventHookWorld) : Mine seeded n s s := ⟨id,fun _ _ => ⟨rfl,rfl⟩⟩

theorem mineSame (store : t.store = s.store) (heard : t.heard = s.heard) (phase : t.phase = s.phase)
    (stopped : t.stopped = s.stopped) (dispatches : t.dispatches = s.dispatches) : Mine seeded n s t :=
  ⟨fun accounts => accountsSame accounts store heard phase stopped dispatches,
    fun m _ => ⟨congrFun heard m,congrFun phase m⟩⟩

def QuietCall : HookCall → Prop
  | .listHooks _ | .createJob _ _ | .recordAttempt _ _ _ _ _ _ | .createEvent _ _ _ => True
  | _ => False

abbrev Quiet {α : Type} : EventHooks α → Prop := CallsOnly QuietCall

theorem quietRunHook (hook : OidcUserEventHook) : Quiet (EventHooks.runHook digest event hook) := by
  refine callsOnlyAsk ?_ fun created => callsOnlyBind (callsOnlyOrThrow created) fun result => ?_
  · trivial
  refine callsOnlyAsk ?_ fun recorded => callsOnlyBind (callsOnlyOrThrow recorded) fun _ => ?_
  · trivial
  split
  · trivial
  · exact ⟨trivial,callsOnlyOrThrow⟩

theorem quietRunHooks (hooks : List OidcUserEventHook) : Quiet (EventHooks.runHooks digest event hooks) := by
  induction hooks with
  | nil => trivial
  | cons hook rest ih => exact callsOnlyBind (quietRunHook hook) fun _ => ih

theorem quietAnswer {c : HookCall} (quiet : QuietCall c) (s : EventHookWorld) :
    Mine seeded n s (answerHooks n () c s).2 ∧ (answerHooks n () c s).2.phase = s.phase := by
  cases c with
  | listHooks namespace_ =>
      cases outcome : s.outcome <;> simp only [answerHooks,outcome] <;> exact ⟨mineSame rfl rfl rfl rfl rfl,rfl⟩
  | createJob hook job =>
      cases outcome : s.outcome with
      | answered =>
          simp only [answerHooks,outcome]
          split <;> exact ⟨mineSame rfl rfl rfl rfl rfl,rfl⟩
      | failed =>
          simp only [answerHooks,outcome]
          exact ⟨mineSame rfl rfl rfl rfl rfl,rfl⟩
      | stopped =>
          simp only [answerHooks,outcome,and_true]
          exact mineSelf s
  | recordAttempt hook event job ready reason message =>
      simp only [answerHooks]
      split
      · exact ⟨mineSelf s,rfl⟩
      · exact ⟨mineSelf s,rfl⟩
  | createEvent hook reason message =>
      simp only [answerHooks]
      split
      · exact ⟨mineSelf s,rfl⟩
      · exact ⟨mineSelf s,rfl⟩
  | _ => cases quiet

theorem quietKeeps {p : EventHooks Unit} (quiet : Quiet p) (mine : Mine seeded n t u) (past : Past n u) :
    Keeps (answerHooks n) HookCall.awaits (contract seeded n) p (Ended seeded n) t u := by
  induction p generalizing t u with
  | pure a => exact ⟨mine,past⟩
  | throw e => exact ⟨mine,past⟩
  | call c next ih =>
      obtain ⟨quiet,rest⟩ := quiet
      have awaited : HookCall.awaits c = true := by
        cases c with
        | hear user => cases quiet
        | dispatch event => cases quiet
        | _ => rfl
      apply keepsAwait awaited mine
      intro v moved _ _
      obtain ⟨own,same⟩ := @quietAnswer seeded n c quiet v
      have past : v.phase n = .past := moved.own.2.trans past
      exact ih _ (rest _) own ((congrFun same n).trans past)

theorem rememberKeeps {type : EventType} (mine : Mine seeded n t u) (accounts : Accounts seeded u)
    (heard : u.heard n = some user) (remembering : u.phase n = .remembering) :
    Keeps (answerHooks n) HookCall.awaits (contract seeded n)
      (EventHooks.remember user.uid user.at >>= fun _ => EventHooks.dispatch digest ⟨type,user⟩)
      (Ended seeded n) t u := by
  apply keepsAskAwait rfl mine
  intro v moved undisturbed _
  have accounts := moved.accounts accounts
  have heard := moved.own.1.trans heard
  have remembering := moved.own.2.trans remembering
  by_cases answered : v.outcome = .answered
  · have wrote := writeAccounts accounts heard remembering (undisturbed answered) type
    simp only [answerHooks,answered,if_true]
    apply keepsAskNow rfl
    have mine : Mine seeded n v {v.write n user.uid (some user.at) with dispatches := v.dispatches ++ [(n,⟨type,user⟩)]} :=
      ⟨fun _ => wrote,fun m other => ⟨rfl,if_neg other⟩⟩
    have past : Past n {v.write n user.uid (some user.at) with dispatches := v.dispatches ++ [(n,⟨type,user⟩)]} := if_pos rfl
    refine quietKeeps (callsOnlyAsk ?_ fun listing => ?_) mine past
    · trivial
    · exact callsOnlyBind (callsOnlyOrThrow listing) fun hooks => quietRunHooks _
  · simp only [answerHooks,answered,if_false]
    exact ⟨⟨fun accounts => stopAccounts accounts heard,fun m other => ⟨rfl,if_neg other⟩⟩,if_pos rfl⟩

theorem edgeKeeps {type : Option Nat → EventType} (fresh : ∀ m, n ≤ m → u.heard m = none) (accounts : Accounts seeded u) :
    Keeps (answerHooks n) HookCall.awaits (contract seeded n) (EventHooks.edge digest type user)
      (Ended seeded n) u u := by
  apply keepsAskNow rfl
  have heardMine : Mine seeded n u (u.hear n user) :=
    ⟨fun accounts => hearAccounts accounts fresh user,fun m other => ⟨if_neg other,if_neg other⟩⟩
  apply keepsAskAwait rfl heardMine
  intro v moved undisturbed _
  have accounts := moved.accounts (hearAccounts accounts fresh user)
  have heard : v.heard n = some user := moved.own.1.trans (if_pos rfl)
  have reading : v.phase n = .reading := moved.own.2.trans (if_pos rfl)
  by_cases answered : v.outcome = .answered
  · have read := readAccounts accounts heard reading (undisturbed answered user heard)
    have mine : Mine seeded n v (v.read n user.uid) := ⟨fun _ => read,fun m other => ⟨rfl,if_neg other⟩⟩
    have own : (v.read n user.uid).phase n = if v.store user.uid = some user.at then .past else .remembering := by
      simp [EventHookWorld.read,EventHookWorld.setPhase,heard]
    simp only [answerHooks,answered,if_true]
    apply keepsIf
    · intro same
      exact ⟨mine,own.trans (if_pos same)⟩
    · intro differs
      exact rememberKeeps mine read heard (own.trans (if_neg differs))
  · simp only [answerHooks,answered,if_false]
    exact ⟨⟨fun accounts => stopAccounts accounts heard,fun m other => ⟨rfl,if_neg other⟩⟩,if_pos rfl⟩

theorem handlerKeeps {event : WatchEvent} (fresh : ∀ m, n ≤ m → u.heard m = none) (accounts : Accounts seeded u) :
    Keeps (answerHooks n) HookCall.awaits (contract seeded n) (event.handler digest) (Ended seeded n) u u := by
  cases event with
  | added user => exact edgeKeeps fresh accounts
  | modified user => exact edgeKeeps fresh accounts

end Threads

section Runs
variable {digest : String → String} {seeded : String → Option Nat} {pool : EventHookPool} {move : HookMove}

structure Steadily (seeded : String → Option Nat) (pool : EventHookPool) : Prop where
  closing : pool.Closing answerHooks HookCall.awaits (contract seeded) Past
  accounts : Accounts seeded pool.state
  fresh : ∀ n, pool.threads.length ≤ n → pool.state.heard n = none

theorem pastStable {n m : Nat} {a b : EventHookWorld} (apart : n ≠ m) (mine : Mine seeded n a b) (past : Past m a) :
    Past m b := (mine.others m apart.symm).2.trans past

theorem editSteadily {f : EventHookWorld → EventHookWorld} (steadily : Steadily seeded pool)
    (same : Mine seeded 0 pool.state (f pool.state)) (heard : (f pool.state).heard = pool.state.heard)
    (phase : (f pool.state).phase = pool.state.phase) : Steadily seeded (pool.edit f) where
  closing := Pool.closingEdit (fun _ _ _ _ => theirsTrans) steadily.closing
    (fun n => ⟨same.accounts,congrFun heard n,congrFun phase n⟩) fun n past => (congrFun phase n).trans past
  accounts := same.accounts steadily.accounts
  fresh n beyond := (congrFun heard n).trans (steadily.fresh n beyond)

theorem steadilyStep (steadily : Steadily seeded pool) (orderly : Orderly pool move) :
    Steadily seeded (step digest pool move) := by
  cases move with
  | deliver event =>
      have keeps : Keeps (answerHooks pool.threads.length) HookCall.awaits (contract seeded pool.threads.length)
          (event.handler digest) (Ended seeded pool.threads.length) pool.state pool.state :=
        handlerKeeps steadily.fresh steadily.accounts
      obtain ⟨closing,mine⟩ := Pool.closingSpawn (fun _ _ _ _ => theirsTrans) mineTheirs pastStable steadily.closing keeps
      refine ⟨closing,mine.accounts steadily.accounts,fun n beyond => ?_⟩
      have longer : pool.threads.length < n := by
        simp only [step,Pool.spawn,List.length_append,List.length_singleton] at beyond
        omega
      exact (mine.others n (Nat.ne_of_gt longer)).1.trans (steadily.fresh n (Nat.le_of_lt longer))
  | proceed n outcome =>
      have faced : Steadily seeded (facing outcome pool) := editSteadily steadily (mineSame rfl rfl rfl rfl rfl) rfl rfl
      have idle := @mineSelf seeded n (facing outcome pool).state
      obtain ⟨closing,mine⟩ := @Pool.closingProceed _ _ _ _ _ _ _ _ _ Past (fun _ _ _ _ => theirsTrans) mineTheirs
        pastStable n () (⟨idle.accounts,rfl,rfl⟩ : Theirs seeded n _ _) idle faced.closing orderly
      refine ⟨closing,mine.accounts faced.accounts,fun m beyond => ?_⟩
      have beyond : (facing outcome pool).threads.length ≤ m := by
        simpa only [step,Pool.proceedLength] using beyond
      by_cases same : m = n
      · have out : (facing outcome pool).threads.length ≤ n := same ▸ beyond
        rw [step,Pool.proceedBeyond answerHooks HookCall.awaits out]
        exact faced.fresh m beyond
      · exact (mine.others m same).1.trans (faced.fresh m beyond)
  | change hooks jobs =>
      exact editSteadily (f := fun s => {s with hooks := hooks, jobs := jobs}) steadily
        (mineSame rfl rfl rfl rfl rfl) rfl rfl

theorem steadilyRun {moves : List HookMove} (steadily : Steadily seeded pool)
    (orderly : EachStep (step digest) Orderly moves pool) : Steadily seeded (run digest moves pool) :=
  eachStepKeeps (Steadily seeded) (fun _ _ => steadilyStep) steadily orderly

theorem beginSteadily (hooks : List OidcUserEventHook) : Steadily seeded (begin seeded hooks) where
  closing := Pool.closingEmpty _
  accounts := by
    refine ⟨List.nodup_nil,?_,fun uid g held => ⟨g,held,Nat.le_refl _⟩,fun uid r held => .inl held,?_,?_,?_⟩
    · intro n event never
      cases never
    · intro n event never
      cases never
    · intro n user never
      cases never
    · intro n user never
      cases never
  fresh _ _ := rfl

theorem steadilyOnce (steadily : Steadily seeded pool) : OncePerGeneration seeded pool where
  once := steadily.accounts.once
  statusOnly := steadily.accounts.statusOnly
  latest := by
    intro ended unstopped n user heard seeds largest
    have within : n < pool.threads.length := by
      by_contra beyond
      rw [steadily.fresh n (Nat.le_of_not_lt beyond)] at heard
      cases heard
    have past : pool.state.phase n = .past := Pool.closingEnded steadily.closing ended within
    obtain ⟨g,held,more⟩ := (steadily.accounts.passed n user heard past).resolve_left (by simp [unstopped n])
    have most : g ≤ user.at := by
      rcases steadily.accounts.origin user.uid g held with start | ⟨m,other,known,named,rfl⟩
      · exact seeds g start
      · exact largest m other known named
    rw [held,Nat.le_antisymm most more]

end Runs
end HookDispatch

open HookDispatch in
/- In every run whose handlers are undisturbed where they read and where they remember, each generation
is dispatched once. -/
theorem generationsDispatchedOnce (digest : String → String) (seeded : String → Option Nat)
    (hooks : List OidcUserEventHook) (moves : List HookMove)
    (orderly : EachStep (HookDispatch.step digest) Orderly moves (HookDispatch.begin seeded hooks)) :
    OncePerGeneration seeded (HookDispatch.run digest moves (HookDispatch.begin seeded hooks)) :=
  steadilyOnce (steadilyRun (beginSteadily hooks) orderly)

namespace HookDispatch

def alice (generation : Nat) : UserResource := {name := "alice", uid := "u", generation := some generation}

end HookDispatch

open HookDispatch in
theorem loneGeneration : OncePerGeneration (fun _ => none) (HookDispatch.run id [.deliver (.added (alice 1)),
    .proceed 0 .answered,.proceed 0 .answered,.deliver (.modified (alice 1)),.proceed 1 .answered,.proceed 0 .answered]
    (HookDispatch.begin (fun _ => none) [])) := by
  apply generationsDispatchedOnce
  refine ⟨trivial,?_,?_,trivial,?_,trivial,trivial⟩
  · intro _ user heard _ m earlier
    omega
  · intro _ g held
    cases held
  · intro _ user heard differs
    cases heard
    exact absurd rfl differs

open HookDispatch in
/- The handler of a status change reads before that of the new generation has remembered it. -/
theorem statusChangeDispatched : ¬ OncePerGeneration (fun _ => some 1) (HookDispatch.run id
    [.deliver (.modified (alice 2)),.deliver (.modified (alice 2)),.proceed 0 .answered,.proceed 1 .answered,
     .proceed 0 .answered,.proceed 1 .answered,.proceed 0 .answered,.proceed 1 .answered]
    (HookDispatch.begin (fun _ => some 1) [])) := by
  intro once
  have dispatches := once.once
  revert dispatches
  decide +kernel

end Passmower
