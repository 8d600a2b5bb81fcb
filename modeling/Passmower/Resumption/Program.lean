import Mathlib.Logic.Relation
import Mathlib.Data.List.Basic

/-! Asynchronous programs as resumptions. A program is a finite tree of calls to an
outside service; between two calls it computes purely, so every call is an await point
and nothing else is. The service is a handler over a shared state; what the service
chooses by itself (an outcome, a random value) is an explicit input of each call. -/
namespace Resumption

structure Interface where
  Call : Type
  Answer : Call → Type

inductive Program (I : Interface) (ε α : Type) where
  | pure (value : α)
  | throw (error : ε)
  | call (c : I.Call) (next : I.Answer c → Program I ε α)

namespace Program
variable {I : Interface} {ε α β γ : Type}

def bind (p : Program I ε α) (f : α → Program I ε β) : Program I ε β := match p with
  | .pure a => f a
  | .throw e => .throw e
  | .call c next => .call c (fun answer => (next answer).bind f)

def tryCatch (p : Program I ε α) (handle : ε → Program I ε α) : Program I ε α := match p with
  | .pure a => .pure a
  | .throw e => handle e
  | .call c next => .call c (fun answer => (next answer).tryCatch handle)

def attempt (p : Program I ε α) : Program I ε (Except ε α) := match p with
  | .pure a => .pure (.ok a)
  | .throw e => .pure (.error e)
  | .call c next => .call c (fun answer => (next answer).attempt)

instance : Monad (Program I ε) where
  pure := .pure
  bind := .bind

def ask (c : I.Call) : Program I ε (I.Answer c) := .call c .pure

def orThrow : Except ε α → Program I ε α
  | .ok a => .pure a
  | .error e => .throw e

@[simp] theorem pureEq (a : α) : (Pure.pure a : Program I ε α) = .pure a := rfl

@[simp] theorem pureBind (a : α) (f : α → Program I ε β) : (Program.pure a >>= f) = f a := rfl

@[simp] theorem throwBind (e : ε) (f : α → Program I ε β) :
    ((Program.throw e : Program I ε α) >>= f) = .throw e := rfl

@[simp] theorem callBind (c : I.Call) (next : I.Answer c → Program I ε α) (f : α → Program I ε β) :
    (Program.call c next >>= f) = .call c (fun answer => next answer >>= f) := rfl

@[simp] theorem askBind (c : I.Call) (f : I.Answer c → Program I ε β) :
    (ask c >>= f) = .call c f := rfl

theorem bindAssoc (p : Program I ε α) (f : α → Program I ε β) (g : β → Program I ε γ) :
    (p >>= f) >>= g = p >>= fun a => f a >>= g := by
  induction p with
  | pure a => rfl
  | throw e => rfl
  | call c next ih => exact congrArg (Program.call c) (funext ih)

end Program

abbrev Handler (I : Interface) (ω σ : Type) := ω → (c : I.Call) → σ → I.Answer c × σ

section Running
variable {I : Interface} {ε α β ω σ : Type} [Inhabited ω]

/- Run to completion. A call beyond the listed choices is answered by the default choice. -/
def run (h : Handler I ω σ) : Program I ε α → List ω → σ → Except ε α × List ω × σ
  | .pure a, ws, s => (.ok a, ws, s)
  | .throw e, ws, s => (.error e, ws, s)
  | .call c next, ws, s =>
      let out := h (ws.headD default) c s
      run h (next out.1) ws.tail out.2

theorem runBind (h : Handler I ω σ) (p : Program I ε α) (f : α → Program I ε β) (ws : List ω) (s : σ) :
    run h (p >>= f) ws s = match run h p ws s with
      | (.ok a,rest,t) => run h (f a) rest t
      | (.error e,rest,t) => (.error e,rest,t) := by
  induction p generalizing ws s with
  | pure a => rfl
  | throw e => rfl
  | call c next ih => exact ih _ _ _

theorem runBindOk {h : Handler I ω σ} {p : Program I ε α} {f : α → Program I ε β} {ws rest : List ω} {s t : σ} {b : β}
    (ends : run h (p >>= f) ws s = (.ok b,rest,t)) : ∃ a ws' middle,
      run h p ws s = (.ok a,ws',middle) ∧ run h (f a) ws' middle = (.ok b,rest,t) := by
  rw [runBind] at ends
  rcases first : run h p ws s with ⟨r,ws',middle⟩
  rw [first] at ends
  cases r with
  | ok a => exact ⟨a,ws',middle,rfl,ends⟩
  | error e => cases ends

theorem runAsk (h : Handler I ω σ) (c : I.Call) (f : I.Answer c → Program I ε α) (ws : List ω) (s : σ) :
    run h (Program.ask c >>= f) ws s = run h (f (h (ws.headD default) c s).1) ws.tail (h (ws.headD default) c s).2 := rfl

theorem runAttempt (h : Handler I ω σ) (p : Program I ε α) (ws : List ω) (s : σ) :
    run h p.attempt ws s = (.ok (run h p ws s).1,(run h p ws s).2) := by
  induction p generalizing ws s with
  | pure a => rfl
  | throw e => rfl
  | call c next ih => exact ih _ _ _

theorem runAttemptBind {h : Handler I ω σ} {p : Program I ε α} {ws rest : List ω} {s t : σ} {r : Except ε α}
    (ends : run h p ws s = (r,rest,t)) (f : Except ε α → Program I ε β) :
    run h (p.attempt >>= f) ws s = run h (f r) rest t := by
  rw [runBind,runAttempt,ends]

theorem runTryCatch (h : Handler I ω σ) (p : Program I ε α) (handle : ε → Program I ε α) (ws : List ω) (s : σ) :
    run h (p.tryCatch handle) ws s = match run h p ws s with
      | (.ok a,rest,t) => (.ok a,rest,t)
      | (.error e,rest,t) => run h (handle e) rest t := by
  induction p generalizing ws s with
  | pure a => rfl
  | throw e => rfl
  | call c next ih => exact ih _ _ _

theorem runConstant (h : Handler I ω σ) (w : ω) (p : Program I ε α) (s : σ) : ∃ n,
    (run h p (List.replicate n w) s).1 = (run (fun _ : Unit => h w) p [] s).1 ∧
      (run h p (List.replicate n w) s).2.2 = (run (fun _ : Unit => h w) p [] s).2.2 := by
  induction p generalizing s with
  | pure a => exact ⟨0,rfl,rfl⟩
  | throw e => exact ⟨0,rfl,rfl⟩
  | call c next ih =>
      obtain ⟨n,same⟩ := ih (h w c s).1 (h w c s).2
      exact ⟨n + 1,same⟩

def after (h : Handler I ω σ) (p : Program I ε α) (ws : List ω) (s : σ) : σ := (run h p ws s).2.2

def visits (h : Handler I ω σ) : Program I ε α → List ω → σ → List σ
  | .pure _, _, s => [s]
  | .throw _, _, s => [s]
  | .call c next, ws, s =>
      let out := h (ws.headD default) c s
      s :: visits h (next out.1) ws.tail out.2

theorem afterVisited (h : Handler I ω σ) (p : Program I ε α) (ws : List ω) (s : σ) :
    after h p ws s ∈ visits h p ws s := by
  induction p generalizing ws s with
  | pure a => simp [after,run,visits]
  | throw e => simp [after,run,visits]
  | call c next ih => exact List.mem_cons_of_mem _ (ih _ _ _)

end Running
end Resumption
