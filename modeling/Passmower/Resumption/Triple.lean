import Passmower.Resumption.Reasoning

/-! Triples over shared state. The assertions of a triple hold of the state as others leave it, so each is one that
their moves keep. -/
namespace Resumption
open Program

section Rules
variable {I : Interface} {ε α β ω σ : Type} {h : Handler I ω σ} {K K' : Contract I σ}

def Stable (K : Contract I σ) (P : σ → Prop) : Prop := ∀ s t, K.rely s t → P s → P t

def Triple (h : Handler I ω σ) (K : Contract I σ) (P : σ → Prop) (p : Program I ε α) (Q : Except ε α → σ → Prop) : Prop :=
  ∀ s, P s → Sound h K p Q s

variable {P P' : σ → Prop} {Q Q' : Except ε α → σ → Prop} {R : Except ε β → σ → Prop}

theorem tripleMono {p : Program I ε α} (triple : Triple h K P p Q) (before : ∀ s, P' s → P s)
    (after : ∀ r s, Q r s → Q' r s) : Triple h K P' p Q' :=
  fun s holds => soundMono (triple s (before s holds)) after

theorem triplePure {a : α} (stable : Stable K P) (ends : ∀ s, P s → Q (.ok a) s) : Triple h K P (.pure a) Q :=
  fun s holds t moved => ends t (stable s t moved holds)

theorem tripleThrow {e : ε} (stable : Stable K P) (ends : ∀ s, P s → Q (.error e) s) :
    Triple h K P (.throw e : Program I ε α) Q := fun s holds t moved => ends t (stable s t moved holds)

theorem tripleAsk {c : I.Call} {f : I.Answer c → Program I ε α} (answered : I.Answer c → σ → Prop) (stable : Stable K P)
    (call : ∀ s w, P s → K.ok s c → K.guarantee s (h w c s).2 ∧ answered (h w c s).1 (h w c s).2)
    (next : ∀ a, Triple h K (answered a) (f a) Q) : Triple h K P (ask c >>= f) Q := by
  intro s holds t moved ok w
  obtain ⟨kept,holds⟩ := call t w (stable s t moved holds) ok
  exact ⟨kept,next _ _ holds⟩

theorem tripleBind (refl : ∀ s, K.rely s s) {p : Program I ε α} {f : α → Program I ε β} (between : α → σ → Prop)
    (first : Triple h K P p fun r s => match r with
      | .ok a => between a s
      | .error e => R (.error e) s)
    (next : ∀ a, Triple h K (between a) (f a) R) : Triple h K P (p >>= f) R := by
  intro s holds
  apply soundBind refl
  apply soundMono (first s holds)
  intro r t ends
  cases r with
  | ok a => exact next a t ends
  | error e => exact ends

theorem tripleTryCatch (refl : ∀ s, K.rely s s) {p : Program I ε α} {handle : ε → Program I ε α} (failed : ε → σ → Prop)
    (body : Triple h K P p fun r s => match r with
      | .ok a => Q (.ok a) s
      | .error e => failed e s)
    (handler : ∀ e, Triple h K (failed e) (handle e) Q) : Triple h K P (p.tryCatch handle) Q := by
  intro s holds
  apply soundTryCatch refl
  apply soundMono (body s holds)
  intro r t ends
  cases r with
  | ok a => exact ends
  | error e => exact handler e t ends

theorem soundWith (stricter : ∀ s c, K'.ok s c → K.ok s c) (narrower : ∀ s t, K'.rely s t → K.rely s t) {p : Program I ε α}
    {s : σ} (one : Sound h K p Q s) (other : Sound h K' p Q' s) : Sound h K' p (fun r t => Q r t ∧ Q' r t) s := by
  induction p generalizing s with
  | pure a => exact fun t moved => ⟨one t (narrower s t moved),other t moved⟩
  | throw e => exact fun t moved => ⟨one t (narrower s t moved),other t moved⟩
  | call c next ih =>
      intro t moved ok w
      obtain ⟨kept,rest⟩ := other t moved ok w
      exact ⟨kept,ih _ (one t (narrower s t moved) (stricter t c ok) w).2 rest⟩

end Rules
end Resumption
