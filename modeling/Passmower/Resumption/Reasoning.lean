import Passmower.Resumption.Program

/-! Rely and guarantee for resumptions. `Sound` says of a program standing at an await
point: whatever its environment does (`rely`), each call that meets the discipline `ok`
changes the state within the guarantee, and the program ends with its postcondition.
With `rely` equality the program runs alone, and the same rules give its sequential
specification. -/
namespace Resumption
open Program

structure Contract (I : Interface) (σ : Type) where
  ok : σ → I.Call → Prop
  rely : σ → σ → Prop
  guarantee : σ → σ → Prop

def Contract.alone (I : Interface) (σ : Type) : Contract I σ := ⟨fun _ _ => True,Eq,fun _ _ => True⟩

def Contract.stepwise (I : Interface) {σ : Type} (ok : σ → I.Call → Prop)
    (guarantee : σ → σ → Prop) : Contract I σ := ⟨ok,Eq,guarantee⟩

section Rules
variable {I : Interface} {ε α β ω σ : Type} {h : Handler I ω σ} {K : Contract I σ}

def Sound (h : Handler I ω σ) (K : Contract I σ) :
    Program I ε α → (Except ε α → σ → Prop) → σ → Prop
  | .pure a, Q, s => ∀ t, K.rely s t → Q (.ok a) t
  | .throw e, Q, s => ∀ t, K.rely s t → Q (.error e) t
  | .call c next, Q, s => ∀ t, K.rely s t → K.ok t c → ∀ w,
      K.guarantee t (h w c t).2 ∧ Sound h K (next (h w c t).1) Q (h w c t).2

theorem soundMono {p : Program I ε α} {Q Q' : Except ε α → σ → Prop} {s : σ}
    (sound : Sound h K p Q s) (weaker : ∀ r t, Q r t → Q' r t) : Sound h K p Q' s := by
  induction p generalizing s with
  | pure a => exact fun t moved => weaker _ _ (sound t moved)
  | throw e => exact fun t moved => weaker _ _ (sound t moved)
  | call c next ih =>
      intro t moved ok w
      exact ⟨(sound t moved ok w).1,ih _ (sound t moved ok w).2⟩

def Then (h : Handler I ω σ) (K : Contract I σ) (f : α → Program I ε β)
    (Q : Except ε β → σ → Prop) : Except ε α → σ → Prop
  | .ok a, s => Sound h K (f a) Q s
  | .error e, s => Q (.error e) s

@[simp] theorem thenOk (f : α → Program I ε β) (Q : Except ε β → σ → Prop) (a : α) (s : σ) :
    Then h K f Q (.ok a) s = Sound h K (f a) Q s := rfl

@[simp] theorem thenError (f : α → Program I ε β) (Q : Except ε β → σ → Prop) (e : ε) (s : σ) :
    Then h K f Q (.error e) s = Q (.error e) s := rfl

theorem soundBind (refl : ∀ s, K.rely s s) {p : Program I ε α} {f : α → Program I ε β}
    {Q : Except ε β → σ → Prop} {s : σ} (first : Sound h K p (Then h K f Q) s) :
    Sound h K (p >>= f) Q s := by
  induction p generalizing s with
  | pure a => exact first s (refl s)
  | throw e => exact first
  | call c next ih =>
      intro t moved ok w
      exact ⟨(first t moved ok w).1,ih _ (first t moved ok w).2⟩

theorem soundTryCatch (refl : ∀ s, K.rely s s) {p : Program I ε α} {handle : ε → Program I ε α}
    {Q : Except ε α → σ → Prop} {s : σ}
    (first : Sound h K p (fun r t => match r with
      | .ok a => Q (.ok a) t
      | .error e => Sound h K (handle e) Q t) s) :
    Sound h K (p.tryCatch handle) Q s := by
  induction p generalizing s with
  | pure a => exact first
  | throw e => exact first s (refl s)
  | call c next ih =>
      intro t moved ok w
      exact ⟨(first t moved ok w).1,ih _ (first t moved ok w).2⟩

theorem soundAttempt {p : Program I ε α} {Q : Except ε (Except ε α) → σ → Prop} {s : σ}
    (inner : Sound h K p (fun r => Q (.ok r)) s) : Sound h K p.attempt Q s := by
  induction p generalizing s with
  | pure a => exact inner
  | throw e => exact inner
  | call c next ih =>
      intro t moved ok w
      exact ⟨(inner t moved ok w).1,ih _ (inner t moved ok w).2⟩

theorem soundWeaken {ok : σ → I.Call → Prop} {R G G' : σ → σ → Prop} {p : Program I ε α}
    {Q : Except ε α → σ → Prop} {s : σ} (sound : Sound h ⟨ok,R,G⟩ p Q s)
    (weaker : ∀ {a b}, G a b → G' a b) : Sound h ⟨ok,R,G'⟩ p Q s := by
  induction p generalizing s with
  | pure a => exact sound
  | throw e => exact sound
  | call c next ih =>
      intro t moved good w
      exact ⟨weaker (sound t moved good w).1,ih _ (sound t moved good w).2⟩

theorem soundLater (trans : ∀ {a b c}, K.rely a b → K.rely b c → K.rely a c) {p : Program I ε α}
    {Q : Except ε α → σ → Prop} {s t : σ} (sound : Sound h K p Q s) (moved : K.rely s t) : Sound h K p Q t := by
  cases p with
  | pure a => exact fun u further => sound u (trans moved further)
  | throw e => exact fun u further => sound u (trans moved further)
  | call c next => exact fun u further ok w => sound u (trans moved further) ok w

theorem soundAnd {p : Program I ε α} {Q Q' : Except ε α → σ → Prop} {s : σ} (first : Sound h K p Q s)
    (second : Sound h K p Q' s) : Sound h K p (fun r t => Q r t ∧ Q' r t) s := by
  induction p generalizing s with
  | pure a => exact fun t moved => ⟨first t moved,second t moved⟩
  | throw e => exact fun t moved => ⟨first t moved,second t moved⟩
  | call c next ih =>
      intro t moved ok w
      exact ⟨(first t moved ok w).1,ih _ (first t moved ok w).2 (second t moved ok w).2⟩

theorem soundNarrow {ω' : Type} (f : ω' → ω) {ok ok' : σ → I.Call → Prop} {R G : σ → σ → Prop} {p : Program I ε α}
    {Q : Except ε α → σ → Prop} {s : σ} (stricter : ∀ s c, ok' s c → ok s c) (sound : Sound h ⟨ok,R,G⟩ p Q s) :
    Sound (fun w => h (f w)) ⟨ok',R,G⟩ p Q s := by
  induction p generalizing s with
  | pure a => exact sound
  | throw e => exact sound
  | call c next ih =>
      intro t moved good w
      obtain ⟨step,rest⟩ := sound t moved (stricter t c good) (f w)
      exact ⟨step,ih _ rest⟩

theorem soundSince {R : σ → σ → Prop} (trans : ∀ {a b c}, R a b → R b c → R a c)
    (rely : ∀ {a b}, K.rely a b → R a b) (own : ∀ {a b}, K.guarantee a b → R a b) {p : Program I ε α}
    {Q : Except ε α → σ → Prop} {s : σ} (sound : Sound h K p Q s) :
    Sound h K p (fun r t => Q r t ∧ R s t) s := by
  induction p generalizing s with
  | pure a => exact fun t moved => ⟨sound t moved,rely moved⟩
  | throw e => exact fun t moved => ⟨sound t moved,rely moved⟩
  | call c next ih =>
      intro t moved ok w
      obtain ⟨step,rest⟩ := sound t moved ok w
      refine ⟨step,soundMono (ih _ rest) ?_⟩
      exact fun r u post => ⟨post.1,trans (trans (rely moved) (own step)) post.2⟩

end Rules

section Alone
variable {I : Interface} {ε α β ω σ : Type} {h : Handler I ω σ} {ok : σ → I.Call → Prop}
  {G : σ → σ → Prop}

abbrev Alone (h : Handler I ω σ) (ok : σ → I.Call → Prop) (G : σ → σ → Prop)
    (p : Program I ε α) (Q : Except ε α → σ → Prop) (s : σ) : Prop :=
  Sound h (Contract.stepwise I ok G) p Q s

@[simp] theorem alonePure (a : α) (Q : Except ε α → σ → Prop) (s : σ) :
    Alone h ok G (Program.pure a : Program I ε α) Q s ↔ Q (.ok a) s := by
  simp [Sound,Contract.stepwise]

@[simp] theorem aloneThrow (e : ε) (Q : Except ε α → σ → Prop) (s : σ) :
    Alone h ok G (Program.throw e : Program I ε α) Q s ↔ Q (.error e) s := by
  simp [Sound,Contract.stepwise]

@[simp] theorem aloneCall (c : I.Call) (next : I.Answer c → Program I ε α)
    (Q : Except ε α → σ → Prop) (s : σ) :
    Alone h ok G (Program.call c next) Q s ↔ (ok s c → ∀ w, G s (h w c s).2 ∧
      Alone h ok G (next (h w c s).1) Q (h w c s).2) := by
  constructor
  · intro sound good w
    exact sound s rfl good w
  · rintro sound t rfl good w
    exact sound good w

theorem aloneAsk (c : I.Call) (f : I.Answer c → Program I ε α) (Q : Except ε α → σ → Prop) (s : σ) :
    Alone h ok G (ask c >>= f) Q s ↔ (ok s c → ∀ w, G s (h w c s).2 ∧
      Alone h ok G (f (h w c s).1) Q (h w c s).2) := aloneCall c f Q s

theorem aloneBind {p : Program I ε α} {f : α → Program I ε β} {Q : Except ε β → σ → Prop} {s : σ}
    (first : Alone h ok G p (Then h (Contract.stepwise I ok G) f Q) s) :
    Alone h ok G (p >>= f) Q s := soundBind (fun _ => rfl) first

theorem aloneTryCatch {p : Program I ε α} {handle : ε → Program I ε α}
    {Q : Except ε α → σ → Prop} {s : σ}
    (first : Alone h ok G p (fun r t => match r with
      | .ok a => Q (.ok a) t
      | .error e => Alone h ok G (handle e) Q t) s) :
    Alone h ok G (p.tryCatch handle) Q s := soundTryCatch (fun _ => rfl) first

theorem aloneAny (p : Program I ε α) (s : σ) : Alone h ok (fun _ _ => True) p (fun _ _ => True) s := by
  induction p generalizing s with
  | pure a => exact (alonePure a _ s).mpr trivial
  | throw e => exact (aloneThrow e _ s).mpr trivial
  | call c next ih => exact (aloneCall c next _ s).mpr fun _ w => ⟨trivial,ih _ _⟩

variable [Inhabited ω]

def Disciplined (h : Handler I ω σ) (ok : σ → I.Call → Prop) : Program I ε α → List ω → σ → Prop
  | .pure _, _, _ => True
  | .throw _, _, _ => True
  | .call c next, ws, s => ok s c ∧
      Disciplined h ok (next (h (ws.headD default) c s).1) ws.tail (h (ws.headD default) c s).2

instance decideDisciplined [∀ s c, Decidable (ok s c)] : (p : Program I ε α) → (ws : List ω) → (s : σ) →
    Decidable (Disciplined h ok p ws s)
  | .pure _,_,_ => .isTrue trivial
  | .throw _,_,_ => .isTrue trivial
  | .call c next,ws,s =>
      have := decideDisciplined (next (h (ws.headD default) c s).1) ws.tail (h (ws.headD default) c s).2
      inferInstanceAs (Decidable (_ ∧ _))

theorem aloneRun {p : Program I ε α} {Q : Except ε α → σ → Prop} {ws : List ω} {s : σ}
    (sound : Alone h ok G p Q s) (disciplined : Disciplined h ok p ws s) :
    Q (run h p ws s).1 (after h p ws s) := by
  induction p generalizing ws s with
  | pure a => exact (alonePure a Q s).mp sound
  | throw e => exact (aloneThrow e Q s).mp sound
  | call c next ih => exact ih _ ((aloneCall c next Q s).mp sound disciplined.1 _).2 disciplined.2

theorem aloneVisits {p : Program I ε α} {Q : Except ε α → σ → Prop} {ws : List ω} {s t : σ}
    (sound : Alone h ok G p Q s) (disciplined : Disciplined h ok p ws s)
    (visited : t ∈ visits h p ws s) : Relation.ReflTransGen G s t := by
  induction p generalizing ws s with
  | pure a => cases List.mem_singleton.mp visited; exact .refl
  | throw e => cases List.mem_singleton.mp visited; exact .refl
  | call c next ih =>
      have step := (aloneCall c next Q s).mp sound disciplined.1 (ws.headD default)
      rcases List.mem_cons.mp visited with rfl | later
      · exact .refl
      · exact .head step.1 (ih _ step.2 disciplined.2 later)

theorem disciplinedInvariant (Inv : σ → Prop) (keeps : ∀ {s t}, G s t → Inv s → Inv t) {p : Program I ε α}
    {Q : Except ε α → σ → Prop} {ws : List ω} {s : σ} (sound : Alone h ok G p Q s) (start : Inv s)
    (disciplined : Disciplined h ok p ws s) : Disciplined h (fun s _ => Inv s) p ws s := by
  induction p generalizing ws s with
  | pure a => trivial
  | throw e => trivial
  | call c next ih =>
      have step := (aloneCall c next Q s).mp sound disciplined.1 (ws.headD default)
      exact ⟨start,ih _ step.2 (keeps step.1 start) disciplined.2⟩

theorem disciplinedTrivial (p : Program I ε α) (ws : List ω) (s : σ) :
    Disciplined h (fun _ _ => True) p ws s := by
  induction p generalizing ws s with
  | pure a => trivial
  | throw e => trivial
  | call c next ih => exact ⟨trivial,ih _ _ _⟩

end Alone

section Issuing
variable {I : Interface} {ε α β ω σ : Type} {P P' : I.Call → Prop}

def CallsOnly (P : I.Call → Prop) : Program I ε α → Prop
  | .pure _ | .throw _ => True
  | .call c next => P c ∧ ∀ answer, CallsOnly P (next answer)

theorem callsOnlyMono {p : Program I ε α} (issues : CallsOnly P p) (weaker : ∀ c, P c → P' c) : CallsOnly P' p := by
  induction p with
  | pure a => trivial
  | throw e => trivial
  | call c next ih => exact ⟨weaker c issues.1,fun answer => ih answer (issues.2 answer)⟩

theorem callsOnlyBind {p : Program I ε α} {f : α → Program I ε β} (first : CallsOnly P p) (rest : ∀ a, CallsOnly P (f a)) :
    CallsOnly P (p >>= f) := by
  induction p with
  | pure a => exact rest a
  | throw e => trivial
  | call c next ih => exact ⟨first.1,fun answer => ih answer (first.2 answer)⟩

theorem callsOnlyAsk {c : I.Call} {f : I.Answer c → Program I ε α} (here : P c) (rest : ∀ answer, CallsOnly P (f answer)) :
    CallsOnly P (ask c >>= f) := ⟨here,rest⟩

theorem callsOnlyTryCatch {p : Program I ε α} {handle : ε → Program I ε α} (first : CallsOnly P p)
    (errors : ∀ e, CallsOnly P (handle e)) : CallsOnly P (p.tryCatch handle) := by
  induction p with
  | pure a => trivial
  | throw e => exact errors e
  | call c next ih => exact ⟨first.1,fun answer => ih answer (first.2 answer)⟩

theorem callsOnlyAttempt {p : Program I ε α} (issues : CallsOnly P p) : CallsOnly P p.attempt := by
  induction p with
  | pure a => trivial
  | throw e => trivial
  | call c next ih => exact ⟨issues.1,fun answer => ih answer (issues.2 answer)⟩

theorem callsOnlyOrThrow (outcome : Except ε α) : CallsOnly P (orThrow outcome : Program I ε α) := by
  cases outcome <;> trivial

theorem callsOnlyAlone {h : Handler I ω σ} {ok : σ → I.Call → Prop} {R : σ → σ → Prop} (refl : ∀ s, R s s)
    (trans : ∀ {a b c}, R a b → R b c → R a c) (each : ∀ s c w, P c → R s (h w c s).2) {p : Program I ε α} {s : σ}
    (issues : CallsOnly P p) : Alone h ok (fun _ _ => True) p (fun _ t => R s t) s := by
  induction p generalizing s with
  | pure a => exact (alonePure a _ s).mpr (refl s)
  | throw e => exact (aloneThrow e _ s).mpr (refl s)
  | call c next ih =>
      refine (aloneCall c next _ s).mpr fun _ w => ⟨trivial,soundMono (ih _ (issues.2 _)) fun _ t later => ?_⟩
      exact trans (each s c w issues.1) later

end Issuing
end Resumption
