import Passmower.Resumption.Program

/-! Two runs from two states, side by side: they come to the same result and use up the same choices, and the
states they end in are related. -/
namespace Resumption
open Program

section Paired
variable {I : Interface} {ε α β ω σ : Type} [Inhabited ω] {h : Handler I ω σ} {s s' : σ}

def Paired (h : Handler I ω σ) (p p' : Program I ε α) (Q : Except ε α → σ → σ → Prop) (s s' : σ) : Prop :=
  ∀ ws, ∃ r rest t t', run h p ws s = (r,rest,t) ∧ run h p' ws s' = (r,rest,t') ∧ Q r t t'

theorem pairedPure {Q : Except ε α → σ → σ → Prop} {a : α} (ends : Q (.ok a) s s') :
    Paired h (.pure a) (.pure a) Q s s' := fun ws => ⟨.ok a,ws,s,s',rfl,rfl,ends⟩

theorem pairedThrow {Q : Except ε α → σ → σ → Prop} {e : ε} (ends : Q (.error e) s s') :
    Paired h (.throw e) (.throw e) Q s s' := fun ws => ⟨.error e,ws,s,s',rfl,rfl,ends⟩

theorem pairedMono {p p' : Program I ε α} {Q Q' : Except ε α → σ → σ → Prop} (holds : Paired h p p' Q s s')
    (weaker : ∀ r t t', Q r t t' → Q' r t t') : Paired h p p' Q' s s' := by
  intro ws
  obtain ⟨r,rest,t,t',first,second,ends⟩ := holds ws
  exact ⟨r,rest,t,t',first,second,weaker r t t' ends⟩

theorem pairedAsk {c : I.Call} {f : I.Answer c → Program I ε α} {Q : Except ε α → σ → σ → Prop}
    (rest : ∀ w, Paired h (f (h w c s).1) (f (h w c s').1) Q (h w c s).2 (h w c s').2) :
    Paired h (ask c >>= f) (ask c >>= f) Q s s' := fun ws => rest (ws.headD default) ws.tail

theorem pairedBind {p p' : Program I ε α} {f : α → Program I ε β} {Q : Except ε β → σ → σ → Prop}
    (first : Paired h p p' (fun r t t' => match r with
      | .ok a => Paired h (f a) (f a) Q t t'
      | .error e => Q (.error e) t t') s s') : Paired h (p >>= f) (p' >>= f) Q s s' := by
  intro ws
  obtain ⟨r,others,t,t',left,right,ends⟩ := first ws
  rw [runBind,runBind,left,right]
  cases r with
  | ok a => exact ends others
  | error e => exact ⟨.error e,others,t,t',rfl,rfl,ends⟩

end Paired
end Resumption
