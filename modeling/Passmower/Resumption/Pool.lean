import Passmower.Resumption.Reasoning

/-! Threads over a shared state. A thread gives way to the others where it awaits a call, and
only there: a call that is not awaited takes effect at once, in the turn it is reached in.
`Keeps` is the obligation of one thread, turn by turn, and the pool keeps what its threads do. -/
namespace Resumption
open Program

section Turns
variable {I : Interface} {ε α β ω σ : Type} [Inhabited ω]

def settle (h : Handler I ω σ) (awaits : I.Call → Bool) : Program I ε α → σ → Program I ε α × σ
  | .pure a, s => (.pure a,s)
  | .throw e, s => (.throw e,s)
  | .call c next, s =>
      if awaits c then (.call c next,s)
      else settle h awaits (next (h default c s).1) (h default c s).2

def turn (h : Handler I ω σ) (awaits : I.Call → Bool) (w : ω) :
    Program I ε α → σ → Program I ε α × σ
  | .pure a, s => (.pure a,s)
  | .throw e, s => (.throw e,s)
  | .call c next, s => settle h awaits (next (h w c s).1) (h w c s).2

theorem settleAll (h : Handler I ω σ) {awaits : I.Call → Bool} (all : ∀ c, awaits c = true) (p : Program I ε α) (s : σ) :
    settle h awaits p s = (p,s) := by
  cases p with
  | pure a => rfl
  | throw e => rfl
  | call c next => simp [settle,all]

def Keeps (h : Handler I ω σ) (awaits : I.Call → Bool) (K : Contract I σ) :
    Program I ε α → (Except ε α → σ → σ → Prop) → σ → σ → Prop
  | .pure a, Q, t, u => Q (.ok a) t u
  | .throw e, Q, t, u => Q (.error e) t u
  | .call c next, Q, t, u => match awaits c with
      | true => K.guarantee t u ∧ ∀ v, K.rely u v → K.ok v c → ∀ w,
          Keeps h awaits K (next (h w c v).1) Q v (h w c v).2
      | false => Keeps h awaits K (next (h default c u).1) Q t (h default c u).2

variable {h : Handler I ω σ} {awaits : I.Call → Bool} {K : Contract I σ}

theorem keepsMono {p : Program I ε α} {Q Q' : Except ε α → σ → σ → Prop} {t u : σ}
    (keeps : Keeps h awaits K p Q t u) (weaker : ∀ r t u, Q r t u → Q' r t u) :
    Keeps h awaits K p Q' t u := by
  induction p generalizing t u with
  | pure a => exact weaker _ _ _ keeps
  | throw e => exact weaker _ _ _ keeps
  | call c next ih =>
      simp only [Keeps] at keeps ⊢
      split at keeps
      · obtain ⟨kept,rest⟩ := keeps
        exact ⟨kept,fun v moved ok w => ih _ (rest v moved ok w)⟩
      · exact ih _ keeps

def Onto (h : Handler I ω σ) (awaits : I.Call → Bool) (K : Contract I σ) (f : α → Program I ε β)
    (Q : Except ε β → σ → σ → Prop) : Except ε α → σ → σ → Prop
  | .ok a, t, u => Keeps h awaits K (f a) Q t u
  | .error e, t, u => Q (.error e) t u

@[simp] theorem ontoOk (f : α → Program I ε β) (Q : Except ε β → σ → σ → Prop) (a : α) (t u : σ) :
    Onto h awaits K f Q (.ok a) t u = Keeps h awaits K (f a) Q t u := rfl

@[simp] theorem ontoError (f : α → Program I ε β) (Q : Except ε β → σ → σ → Prop) (e : ε) (t u : σ) :
    Onto h awaits K f Q (.error e) t u = Q (.error e) t u := rfl

theorem keepsBind {p : Program I ε α} {f : α → Program I ε β} {Q : Except ε β → σ → σ → Prop}
    {t u : σ} (first : Keeps h awaits K p (Onto h awaits K f Q) t u) :
    Keeps h awaits K (p >>= f) Q t u := by
  induction p generalizing t u with
  | pure a => exact first
  | throw e => exact first
  | call c next ih =>
      simp only [callBind,Keeps] at first ⊢
      split at first
      · obtain ⟨kept,rest⟩ := first
        exact ⟨kept,fun v moved ok w => ih _ (rest v moved ok w)⟩
      · exact ih _ first

theorem keepsTryCatch {p : Program I ε α} {handle : ε → Program I ε α}
    {Q : Except ε α → σ → σ → Prop} {t u : σ}
    (first : Keeps h awaits K p (fun r t u => match r with
      | .ok a => Q (.ok a) t u
      | .error e => Keeps h awaits K (handle e) Q t u) t u) :
    Keeps h awaits K (p.tryCatch handle) Q t u := by
  induction p generalizing t u with
  | pure a => exact first
  | throw e => exact first
  | call c next ih =>
      simp only [Program.tryCatch,Keeps] at first ⊢
      split at first
      · obtain ⟨kept,rest⟩ := first
        exact ⟨kept,fun v moved ok w => ih _ (rest v moved ok w)⟩
      · exact ih _ first

theorem keepsAttempt {p : Program I ε α} {Q : Except ε (Except ε α) → σ → σ → Prop} {t u : σ}
    (inner : Keeps h awaits K p (fun r => Q (.ok r)) t u) : Keeps h awaits K p.attempt Q t u := by
  induction p generalizing t u with
  | pure a => exact inner
  | throw e => exact inner
  | call c next ih =>
      simp only [Program.attempt,Keeps] at inner ⊢
      split at inner
      · obtain ⟨kept,rest⟩ := inner
        exact ⟨kept,fun v moved ok w => ih _ (rest v moved ok w)⟩
      · exact ih _ inner

theorem keepsAwait {c : I.Call} {next : I.Answer c → Program I ε α} {Q : Except ε α → σ → σ → Prop}
    {t u : σ} (awaited : awaits c = true) (kept : K.guarantee t u)
    (rest : ∀ v, K.rely u v → K.ok v c → ∀ w, Keeps h awaits K (next (h w c v).1) Q v (h w c v).2) :
    Keeps h awaits K (.call c next) Q t u := by
  simp only [Keeps,awaited]
  exact ⟨kept,rest⟩

theorem keepsNow {c : I.Call} {next : I.Answer c → Program I ε α} {Q : Except ε α → σ → σ → Prop}
    {t u : σ} (instant : awaits c = false)
    (rest : Keeps h awaits K (next (h default c u).1) Q t (h default c u).2) :
    Keeps h awaits K (.call c next) Q t u := by
  simp only [Keeps,instant]
  exact rest

theorem keepsAskAwait {c : I.Call} {f : I.Answer c → Program I ε α} {Q : Except ε α → σ → σ → Prop}
    {t u : σ} (awaited : awaits c = true) (kept : K.guarantee t u)
    (rest : ∀ v, K.rely u v → K.ok v c → ∀ w, Keeps h awaits K (f (h w c v).1) Q v (h w c v).2) :
    Keeps h awaits K (ask c >>= f) Q t u := keepsAwait awaited kept rest

theorem keepsAskNow {c : I.Call} {f : I.Answer c → Program I ε α} {Q : Except ε α → σ → σ → Prop}
    {t u : σ} (instant : awaits c = false)
    (rest : Keeps h awaits K (f (h default c u).1) Q t (h default c u).2) :
    Keeps h awaits K (ask c >>= f) Q t u := keepsNow instant rest

theorem keepsIf {b : Prop} [Decidable b] {p q : Program I ε α} {Q : Except ε α → σ → σ → Prop} {t u : σ}
    (yes : b → Keeps h awaits K p Q t u) (no : ¬ b → Keeps h awaits K q Q t u) :
    Keeps h awaits K (if b then p else q) Q t u := by
  split
  · exact yes ‹_›
  · exact no ‹_›

def Stands (h : Handler I ω σ) (awaits : I.Call → Bool) (K : Contract I σ) (p : Program I ε α) (s : σ) :
    Prop :=
  ∀ c next, p = .call c next → ∀ v, K.rely s v → K.ok v c → ∀ w,
    Keeps h awaits K (next (h w c v).1) (fun _ => K.guarantee) v (h w c v).2

def Finishes (h : Handler I ω σ) (awaits : I.Call → Bool) (K : Contract I σ) (D : σ → Prop) :
    Program I ε α → σ → Prop
  | .call c next, s => ∀ v, K.rely s v → K.ok v c → ∀ w,
      Keeps h awaits K (next (h w c v).1) (fun _ t u => K.guarantee t u ∧ D u) v (h w c v).2
  | .pure _, s | .throw _, s => D s

theorem finishesStands {p : Program I ε α} {s : σ} :
    Finishes h awaits K (fun _ => True) p s ↔ Stands h awaits K p s := by
  cases p with
  | pure a => exact ⟨fun _ c next same => (by cases same),fun _ => trivial⟩
  | throw e => exact ⟨fun _ c next same => (by cases same),fun _ => trivial⟩
  | call c next =>
      constructor
      · intro finishes c' next' same v moved ok w
        cases same
        exact keepsMono (finishes v moved ok w) fun r t u kept => kept.1
      · intro stands v moved ok w
        exact keepsMono (stands c next rfl v moved ok w) fun r t u kept => ⟨kept,trivial⟩

theorem soundKeeps (instant : ∀ c, awaits c = false → ∀ t u, K.guarantee t u →
      K.rely u u ∧ K.ok u c ∧ ∀ v, K.guarantee u v → K.guarantee t v)
    {p : Program I ε α} {Q : Except ε α → σ → Prop} {t u : σ} (own : K.guarantee t u) (sound : Sound h K p Q u) :
    Keeps h awaits K p (fun _ => K.guarantee) t u := by
  induction p generalizing t u with
  | pure a => exact own
  | throw e => exact own
  | call c next ih =>
      cases awaited : awaits c with
      | true =>
          apply keepsAwait awaited own
          intro v moved ok w
          obtain ⟨step,rest⟩ := sound v moved ok w
          exact ih _ step rest
      | false =>
          obtain ⟨still,free,joined⟩ := instant c awaited t u own
          obtain ⟨step,rest⟩ := sound u still free default
          exact keepsNow awaited (ih _ (joined _ step) rest)

theorem finishesLater (trans : ∀ {a b c}, K.rely a b → K.rely b c → K.rely a c) {D : σ → Prop}
    {s t : σ} (stable : D s → D t) {p : Program I ε α} (finishes : Finishes h awaits K D p s)
    (moved : K.rely s t) : Finishes h awaits K D p t := by
  cases p with
  | pure a => exact stable finishes
  | throw e => exact stable finishes
  | call c next => exact fun v further ok w => finishes v (trans moved further) ok w

theorem settleFinishes {D : σ → Prop} {p : Program I ε α} {t u : σ}
    (keeps : Keeps h awaits K p (fun _ t u => K.guarantee t u ∧ D u) t u) :
    K.guarantee t (settle h awaits p u).2 ∧
      Finishes h awaits K D (settle h awaits p u).1 (settle h awaits p u).2 := by
  induction p generalizing u with
  | pure a => exact keeps
  | throw e => exact keeps
  | call c next ih =>
      simp only [settle]
      simp only [Keeps] at keeps
      split at keeps
      · rename_i awaited
        rw [if_pos awaited]
        exact keeps
      · rename_i instant
        rw [if_neg (by simp [instant])]
        exact ih _ keeps

end Turns

structure Pool (I : Interface) (ε σ : Type) where
  threads : List (Program I ε Unit) := []
  state : σ

namespace Pool
variable {I : Interface} {ε ω σ : Type} [Inhabited ω] (h : Nat → Handler I ω σ) (awaits : I.Call → Bool)

def spawn (p : Program I ε Unit) (pool : Pool I ε σ) : Pool I ε σ :=
  let out := settle (h pool.threads.length) awaits p pool.state
  ⟨pool.threads ++ [out.1],out.2⟩

def proceed (n : Nat) (w : ω) (pool : Pool I ε σ) : Pool I ε σ := match pool.threads[n]? with
  | some p =>
      let out := turn (h n) awaits w p pool.state
      ⟨pool.threads.set n out.1,out.2⟩
  | none => pool

def edit (f : σ → σ) (pool : Pool I ε σ) : Pool I ε σ := {pool with state := f pool.state}

theorem proceedLength (n : Nat) (w : ω) (pool : Pool I ε σ) :
    (pool.proceed h awaits n w).threads.length = pool.threads.length := by
  unfold proceed
  split
  · exact List.length_set
  · rfl

theorem proceedBeyond {n : Nat} {w : ω} {pool : Pool I ε σ} (beyond : pool.threads.length ≤ n) :
    pool.proceed h awaits n w = pool := by
  unfold proceed
  rw [List.getElem?_eq_none beyond]

def Ready (ok : Nat → σ → I.Call → Prop) (n : Nat) (pool : Pool I ε σ) : Prop :=
  match pool.threads[n]? with
  | some (.call c _) => ok n pool.state c
  | _ => True

instance decideReady {ok : Nat → σ → I.Call → Prop} [∀ n s c, Decidable (ok n s c)] (n : Nat) (pool : Pool I ε σ) :
    Decidable (pool.Ready ok n) :=
  match found : pool.threads[n]? with
  | some (.call c _) => decidable_of_iff (ok n pool.state c) (by simp only [Ready,found])
  | some (.pure _) | some (.throw _) | none => .isTrue (by simp only [Ready,found])

section Rule
variable {h awaits} {K : Nat → Contract I σ} {pool : Pool I ε σ}

def Closing (h : Nat → Handler I ω σ) (awaits : I.Call → Bool) (K : Nat → Contract I σ) (D : Nat → σ → Prop)
    (pool : Pool I ε σ) : Prop :=
  ∀ n p, pool.threads[n]? = some p → Finishes (h n) awaits (K n) (D n) p pool.state

def Steady (h : Nat → Handler I ω σ) (awaits : I.Call → Bool) (K : Nat → Contract I σ)
    (pool : Pool I ε σ) : Prop :=
  ∀ n p, pool.threads[n]? = some p → Stands (h n) awaits (K n) p pool.state

theorem closingSteady : Closing h awaits K (fun _ _ => True) pool ↔ Steady h awaits K pool :=
  ⟨fun closing n p found => finishesStands.mp (closing n p found),
    fun steady n p found => finishesStands.mpr (steady n p found)⟩

variable {D : Nat → σ → Prop}

theorem closingEmpty (s : σ) : Closing h awaits K D (⟨[],s⟩ : Pool I ε σ) := by
  intro n p found
  simp at found

def hasEnded : Program I ε Unit → Bool
  | .call _ _ => false
  | .pure _ | .throw _ => true

theorem endedThreads {threads : List (Program I ε Unit)} (all : threads.all hasEnded = true) :
    ∀ p ∈ threads, ∀ c next, p ≠ .call c next := by
  rintro _ inside c next rfl
  exact absurd (List.all_eq_true.mp all _ inside) Bool.false_ne_true

theorem closingEnded (closing : Closing h awaits K D pool) (ended : ∀ p ∈ pool.threads, ∀ c next, p ≠ .call c next)
    {n : Nat} (within : n < pool.threads.length) : D n pool.state := by
  have closed := closing n _ (List.getElem?_eq_getElem within)
  have ended := ended _ (List.getElem_mem within)
  revert closed ended
  generalize pool.threads[n] = p
  intro closed ended
  cases p with
  | pure a => exact closed
  | throw e => exact closed
  | call c next => exact absurd rfl (ended c next)

theorem closingSettled (closing : Closing h awaits K D pool) (ended : ∀ p ∈ pool.threads, ∀ c next, p ≠ .call c next)
    (fresh : ∀ n, pool.threads.length ≤ n → D n pool.state) (n : Nat) : D n pool.state := by
  rcases Nat.lt_or_ge n pool.threads.length with within | beyond
  · exact closingEnded closing ended within
  · exact fresh n beyond

theorem closingEdit (trans : ∀ n {a b c}, (K n).rely a b → (K n).rely b c → (K n).rely a c)
    {f : σ → σ} (closing : Closing h awaits K D pool) (moved : ∀ n, (K n).rely pool.state (f pool.state))
    (stable : ∀ n, D n pool.state → D n (f pool.state)) : Closing h awaits K D (pool.edit f) :=
  fun n p found => finishesLater (trans n) (stable n) (closing n p found) (moved n)

theorem closingSpawn (trans : ∀ n {a b c}, (K n).rely a b → (K n).rely b c → (K n).rely a c)
    (apart : ∀ {n m a b}, n ≠ m → (K n).guarantee a b → (K m).rely a b)
    (stable : ∀ {n m a b}, n ≠ m → (K n).guarantee a b → D m a → D m b) {p : Program I ε Unit}
    (closing : Closing h awaits K D pool)
    (keeps : Keeps (h pool.threads.length) awaits (K pool.threads.length) p
      (fun _ t u => (K pool.threads.length).guarantee t u ∧ D pool.threads.length u) pool.state pool.state) :
    Closing h awaits K D (pool.spawn h awaits p) ∧
      (K pool.threads.length).guarantee pool.state (pool.spawn h awaits p).state := by
  have settled := settleFinishes keeps
  refine ⟨?_,settled.1⟩
  intro n q found
  simp only [spawn] at found ⊢
  rcases Nat.lt_trichotomy n pool.threads.length with before | rfl | beyond
  · rw [List.getElem?_append_left before] at found
    have other : pool.threads.length ≠ n := by omega
    exact finishesLater (trans n) (stable other settled.1) (closing n q found) (apart other settled.1)
  · rw [List.getElem?_concat_length] at found
    cases Option.some.inj found
    exact settled.2
  · rw [List.getElem?_eq_none (by simp; omega)] at found
    cases found

theorem closingProceed (trans : ∀ n {a b c}, (K n).rely a b → (K n).rely b c → (K n).rely a c)
    (apart : ∀ {n m a b}, n ≠ m → (K n).guarantee a b → (K m).rely a b)
    (stable : ∀ {n m a b}, n ≠ m → (K n).guarantee a b → D m a → D m b) {n : Nat} {w : ω}
    (still : (K n).rely pool.state pool.state) (idle : (K n).guarantee pool.state pool.state)
    (closing : Closing h awaits K D pool) (ready : Ready (fun n => (K n).ok) n pool) :
    Closing h awaits K D (pool.proceed h awaits n w) ∧
      (K n).guarantee pool.state (pool.proceed h awaits n w).state := by
  unfold proceed
  split
  · rename_i p found
    have finishes := closing n p found
    have within : n < pool.threads.length := (List.getElem?_eq_some_iff.mp found).1
    have moved : (K n).guarantee pool.state (turn (h n) awaits w p pool.state).2 ∧
        Finishes (h n) awaits (K n) (D n) (turn (h n) awaits w p pool.state).1
          (turn (h n) awaits w p pool.state).2 := by
      cases p with
      | pure a => exact ⟨idle,finishes⟩
      | throw e => exact ⟨idle,finishes⟩
      | call c next =>
          simp only [Ready,found] at ready
          exact settleFinishes (finishes pool.state still ready w)
    refine ⟨?_,moved.1⟩
    intro m q at_m
    simp only at at_m ⊢
    by_cases same : n = m
    · subst same
      rw [List.getElem?_set_self within] at at_m
      cases Option.some.inj at_m
      exact moved.2
    · rw [List.getElem?_set_ne same] at at_m
      exact finishesLater (trans m) (stable same moved.1) (closing m q at_m) (apart same moved.1)
  · exact ⟨closing,idle⟩

theorem steadyEmpty (s : σ) : Steady h awaits K (⟨[],s⟩ : Pool I ε σ) := closingSteady.mp (closingEmpty s)

theorem steadyEdit (trans : ∀ n {a b c}, (K n).rely a b → (K n).rely b c → (K n).rely a c)
    {f : σ → σ} (steady : Steady h awaits K pool) (moved : ∀ n, (K n).rely pool.state (f pool.state)) :
    Steady h awaits K (pool.edit f) :=
  closingSteady.mp (closingEdit trans (closingSteady.mpr steady) moved fun _ _ => trivial)

theorem steadySpawn (trans : ∀ n {a b c}, (K n).rely a b → (K n).rely b c → (K n).rely a c)
    (apart : ∀ {n m a b}, n ≠ m → (K n).guarantee a b → (K m).rely a b) {p : Program I ε Unit}
    (steady : Steady h awaits K pool)
    (keeps : Keeps (h pool.threads.length) awaits (K pool.threads.length) p
      (fun _ => (K pool.threads.length).guarantee) pool.state pool.state) :
    Steady h awaits K (pool.spawn h awaits p) ∧
      (K pool.threads.length).guarantee pool.state (pool.spawn h awaits p).state := by
  have closed := closingSpawn trans apart (fun _ _ _ => trivial) (closingSteady.mpr steady)
    (keepsMono keeps fun r t u kept => ⟨kept,trivial⟩)
  exact ⟨closingSteady.mp closed.1,closed.2⟩

theorem steadyProceed (trans : ∀ n {a b c}, (K n).rely a b → (K n).rely b c → (K n).rely a c)
    (apart : ∀ {n m a b}, n ≠ m → (K n).guarantee a b → (K m).rely a b) {n : Nat} {w : ω}
    (still : (K n).rely pool.state pool.state) (idle : (K n).guarantee pool.state pool.state)
    (steady : Steady h awaits K pool) (ready : Ready (fun n => (K n).ok) n pool) :
    Steady h awaits K (pool.proceed h awaits n w) ∧
      (K n).guarantee pool.state (pool.proceed h awaits n w).state := by
  have closed := closingProceed (w := w) trans apart (fun _ _ _ => trivial) still idle (closingSteady.mpr steady) ready
  exact ⟨closingSteady.mp closed.1,closed.2⟩

end Rule
end Pool
end Resumption
