import Mathlib.Logic.Relation

namespace RuleRaven.Framework

/-- A program as the tree of its calls: it returns, or issues one call and goes on with
the reply. Everything between two calls is pure, so a call is the unit of interleaving. -/
inductive Prog (Op : Type) (Reply : Op → Type) (α : Type) where
  | ret (a : α)
  | call (op : Op) (next : Reply op → Prog Op Reply α)

namespace Prog

variable {Op : Type} {Reply : Op → Type} {α β γ σ : Type}

def bind : Prog Op Reply α → (α → Prog Op Reply β) → Prog Op Reply β
  | ret a, f => f a
  | call op next, f => call op (fun r => (next r).bind f)

instance : Monad (Prog Op Reply) where
  pure := ret
  bind := bind

/-- A single call, returning its reply. -/
def perform (op : Op) : Prog Op Reply (Reply op) := call op ret

@[simp] theorem pure_eq_ret (a : α) : (pure a : Prog Op Reply α) = ret a := rfl

@[simp] theorem bind_eq_bind (p : Prog Op Reply α) (f : α → Prog Op Reply β) :
    p >>= f = p.bind f := rfl

@[simp] theorem ret_bind (a : α) (f : α → Prog Op Reply β) : (ret a).bind f = f a := rfl

@[simp] theorem call_bind (op : Op) (next : Reply op → Prog Op Reply α)
    (f : α → Prog Op Reply β) :
    (call op next).bind f = call op (fun r => (next r).bind f) := rfl

@[simp] theorem perform_bind (op : Op) (f : Reply op → Prog Op Reply β) :
    (perform op).bind f = call op f := rfl

/-- Running alone against a deterministic server `h`. -/
def run (h : (op : Op) → σ → Reply op × σ) : Prog Op Reply α → σ → α × σ
  | ret a, s => (a, s)
  | call op next, s => run h (next (h op s).1) (h op s).2

/-- The calls issued by that run, in order. -/
def calls (h : (op : Op) → σ → Reply op × σ) : Prog Op Reply α → σ → List Op
  | ret _, _ => []
  | call op next, s => op :: calls h (next (h op s).1) (h op s).2

/-- The first `n` calls of that run, if all of them are allowed: what is left of the program,
and the state. -/
def advance (allow : Op → σ → Bool) (h : (op : Op) → σ → Reply op × σ) :
    Nat → Prog Op Reply α → σ → Option (Prog Op Reply α × σ)
  | 0, p, s => some (p, s)
  | _ + 1, ret a, s => some (ret a, s)
  | n + 1, call op next, s =>
    if allow op s then advance allow h n (next (h op s).1) (h op s).2 else none

section Run

variable (h : (op : Op) → σ → Reply op × σ)

@[simp] theorem run_ret (a : α) (s : σ) : run h (ret a : Prog Op Reply α) s = (a, s) := rfl

@[simp] theorem run_call (op : Op) (next : Reply op → Prog Op Reply α) (s : σ) :
    run h (call op next) s = run h (next (h op s).1) (h op s).2 := rfl

@[simp] theorem calls_ret (a : α) (s : σ) : calls h (ret a : Prog Op Reply α) s = [] := rfl

@[simp] theorem calls_call (op : Op) (next : Reply op → Prog Op Reply α) (s : σ) :
    calls h (call op next) s = op :: calls h (next (h op s).1) (h op s).2 := rfl

@[simp] theorem run_bind (p : Prog Op Reply α) (f : α → Prog Op Reply β) (s : σ) :
    run h (p.bind f) s = run h (f (run h p s).1) (run h p s).2 := by
  induction p generalizing s with
  | ret a => rfl
  | call op next ih => exact ih (h op s).1 (h op s).2

@[simp] theorem calls_bind (p : Prog Op Reply α) (f : α → Prog Op Reply β) (s : σ) :
    calls h (p.bind f) s = calls h p s ++ calls h (f (run h p s).1) (run h p s).2 := by
  induction p generalizing s with
  | ret a => rfl
  | call op next ih => simp only [call_bind, calls_call, run_call, ih, List.cons_append]

/-- Every call the program can make, whatever the replies, satisfies `P`. -/
def Only (P : Op → Prop) : Prog Op Reply α → Prop
  | ret _ => True
  | call op next => P op ∧ ∀ reply, Only P (next reply)

theorem only_perform {P : Op → Prop} {op : Op} (hop : P op) :
    Only P (perform op : Prog Op Reply (Reply op)) :=
  ⟨hop, fun _ => trivial⟩

theorem only_bind {P : Op → Prop} {p : Prog Op Reply α} {f : α → Prog Op Reply β}
    (hp : Only P p) (hf : ∀ a, Only P (f a)) : Only P (p.bind f) := by
  induction p with
  | ret a => exact hf a
  | call op next ih => exact ⟨hp.1, fun reply => ih reply (hp.2 reply)⟩

theorem only_mono {P Q : Op → Prop} (hPQ : ∀ op, P op → Q op) {p : Prog Op Reply α}
    (hp : Only P p) : Only Q p := by
  induction p with
  | ret a => trivial
  | call op next ih => exact ⟨hPQ op hp.1, fun reply => ih reply (hp.2 reply)⟩

theorem only_calls {P : Op → Prop} {p : Prog Op Reply α} (hp : Only P p) (s : σ) :
    ∀ op ∈ calls h p s, P op := by
  induction p generalizing s with
  | ret a => simp
  | call op next ih =>
    intro o ho
    rcases List.mem_cons.mp ho with rfl | ho
    · exact hp.1
    · exact ih (h op s).1 (hp.2 _) (h op s).2 o ho

/-- A program that only makes calls which leave a part of the state alone leaves it alone. -/
theorem only_run_frame {τ : Type} (f : σ → τ) {P : Op → Prop}
    (hP : ∀ op s, P op → f (h op s).2 = f s) {p : Prog Op Reply α} (hp : Only P p) (s : σ) :
    f (run h p s).2 = f s := by
  induction p generalizing s with
  | ret a => rfl
  | call op next ih => rw [run_call, ih _ (hp.2 _), hP op s hp.1]

/-- A program whose calls are answered alike in two states returns alike in them. -/
theorem only_run_value {P : Op → Prop} (hstate : ∀ op s, P op → (h op s).2 = s)
    (hreply : ∀ op s t, P op → (h op s).1 = (h op t).1) {p : Prog Op Reply α} (hp : Only P p)
    (s t : σ) : (run h p s).1 = (run h p t).1 := by
  induction p with
  | ret a => rfl
  | call op next ih =>
    rw [run_call, run_call, hstate op s hp.1, hstate op t hp.1, hreply op s t hp.1]
    exact ih _ (hp.2 _)

end Run

section Outcomes

variable {α β : Type} {p : Prog Op Reply α}

/-- Some answers to its calls make the program return the value. -/
def Yields : Prog Op Reply α → α → Prop
  | ret a, b => b = a
  | call _ next, b => ∃ reply, Yields (next reply) b

theorem yields_run {σ : Type} (h : (op : Op) → σ → Reply op × σ) (p : Prog Op Reply α) (s : σ) :
    Yields p (run h p s).1 := by
  induction p generalizing s with
  | ret a => rfl
  | call op next ih => exact ⟨(h op s).1, ih (h op s).1 (h op s).2⟩

/-- Whatever its calls are answered, what the program returns satisfies `Q`. -/
def Returns (Q : α → Prop) : Prog Op Reply α → Prop
  | ret a => Q a
  | call _ next => ∀ reply, Returns Q (next reply)

theorem returns_of_forall {Q : α → Prop} (h : ∀ a, Q a) : Returns Q p := by
  induction p with
  | ret a => exact h a
  | call op next ih => exact fun reply => ih reply

theorem returns_bind {P : α → Prop} {Q : β → Prop} {f : α → Prog Op Reply β} (hp : Returns P p)
    (hf : ∀ a, P a → Returns Q (f a)) : Returns Q (p.bind f) := by
  induction p with
  | ret a => exact hf a hp
  | call op next ih => exact fun reply => ih reply (hp reply)

theorem Yields.returns {Q : α → Prop} {b : α} (h : Yields p b) (hp : Returns Q p) : Q b := by
  induction p with
  | ret a =>
    cases h
    exact hp
  | call op next ih =>
    obtain ⟨reply, hreply⟩ := h
    exact ih reply hreply (hp reply)

end Outcomes

end Prog

end RuleRaven.Framework
