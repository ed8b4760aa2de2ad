import RuleRaven.Framework.Pool

namespace RuleRaven.Framework.Prog

variable {Op Op' : Type} {Reply : Op → Type} {Reply' : Op' → Type} {α β σ : Type}

/-- Answered as in the trace, the program issues the calls of the trace and returns the value. -/
def Does : Prog Op Reply α → List (Sigma Reply) → α → Prop
  | ret a, t, b => t = [] ∧ b = a
  | call op next, t, b => ∃ reply rest, t = ⟨op, reply⟩ :: rest ∧ Does (next reply) rest b

/-- The calls of a run against a server, with what they were answered. -/
def trace (h : (op : Op) → σ → Reply op × σ) : Prog Op Reply α → σ → List (Sigma Reply)
  | ret _, _ => []
  | call op next, s => ⟨op, (h op s).1⟩ :: trace h (next (h op s).1) (h op s).2

/-- Every server, whatever it answers, leads to such a trace. -/
theorem does_trace (h : (op : Op) → σ → Reply op × σ) (p : Prog Op Reply α) (s : σ) :
    Does p (trace h p s) (run h p s).1 := by
  induction p generalizing s with
  | ret a => exact ⟨rfl, rfl⟩
  | call op next ih => exact ⟨(h op s).1, _, rfl, ih (h op s).1 (h op s).2⟩

theorem forall_mem_trace {h : (op : Op) → σ → Reply op × σ} {P : Sigma Reply → Prop}
    (hP : ∀ op s, P ⟨op, (h op s).1⟩) (p : Prog Op Reply α) (s : σ) :
    ∀ event ∈ trace h p s, P event := by
  induction p generalizing s with
  | ret a => exact List.forall_mem_nil _
  | call op next ih => exact List.forall_mem_cons.mpr ⟨hP op s, ih (h op s).1 (h op s).2⟩

theorem Does.yields {p : Prog Op Reply α} {t : List (Sigma Reply)} {a : α} (h : Does p t a) :
    Yields p a := by
  induction p generalizing t with
  | ret b => exact h.2
  | call op next ih =>
    obtain ⟨reply, rest, -, hrest⟩ := h
    exact ⟨reply, ih reply hrest⟩

theorem Does.only {P : Op → Prop} {p : Prog Op Reply α} {t : List (Sigma Reply)} {a : α}
    (h : Does p t a) (hp : Only P p) : ∀ event ∈ t, P event.1 := by
  induction p generalizing t with
  | ret b =>
    obtain ⟨rfl, -⟩ := h
    simp
  | call op next ih =>
    obtain ⟨reply, rest, rfl, hrest⟩ := h
    exact List.forall_mem_cons.mpr ⟨hp.1, ih reply hrest (hp.2 reply)⟩

@[simp] theorem does_ret {a b : α} {t : List (Sigma Reply)} :
    Does (ret a : Prog Op Reply α) t b ↔ t = [] ∧ b = a := Iff.rfl

@[simp] theorem does_call {op : Op} {next : Reply op → Prog Op Reply α} {b : α}
    {t : List (Sigma Reply)} :
    Does (call op next) t b ↔ ∃ reply rest, t = ⟨op, reply⟩ :: rest ∧ Does (next reply) rest b :=
  Iff.rfl

theorem does_perform {op : Op} {reply : Reply op} {t : List (Sigma Reply)} :
    Does (perform op : Prog Op Reply (Reply op)) t reply ↔ t = [⟨op, reply⟩] := by
  constructor
  · rintro ⟨answer, rest, rfl, rfl, rfl⟩
    rfl
  · rintro rfl
    exact ⟨reply, [], rfl, rfl, rfl⟩

/-- The trace of a sequence falls into the traces of its parts. -/
theorem does_bind {p : Prog Op Reply α} {f : α → Prog Op Reply β} {t : List (Sigma Reply)} {b : β} :
    Does (p.bind f) t b ↔
      ∃ front back a, t = front ++ back ∧ Does p front a ∧ Does (f a) back b := by
  induction p generalizing t with
  | ret a =>
    constructor
    · intro h
      exact ⟨[], t, a, rfl, ⟨rfl, rfl⟩, h⟩
    · rintro ⟨_, back, _, rfl, ⟨rfl, rfl⟩, h⟩
      exact h
  | call op next ih =>
    constructor
    · rintro ⟨reply, rest, rfl, h⟩
      obtain ⟨front, back, a, rfl, hp, hf⟩ := (ih reply).mp h
      exact ⟨⟨op, reply⟩ :: front, back, a, rfl, ⟨reply, front, rfl, hp⟩, hf⟩
    · rintro ⟨_, back, a, rfl, ⟨reply, rest, rfl, hp⟩, hf⟩
      exact ⟨reply, rest ++ back, rfl, (ih reply).mpr ⟨rest, back, a, rfl, hp, hf⟩⟩

theorem bind_assoc {γ : Type} (p : Prog Op Reply α) (f : α → Prog Op Reply β)
    (g : β → Prog Op Reply γ) : (p.bind f).bind g = p.bind fun a => (f a).bind g := by
  induction p with
  | ret a => rfl
  | call op next ih =>
    rw [call_bind, call_bind, call_bind]
    congr 1
    funext reply
    exact ih reply

/-- The program with every call replaced by a program of other calls. -/
def interpret (f : (op : Op) → Prog Op' Reply' (Reply op)) : Prog Op Reply α → Prog Op' Reply' α
  | ret a => ret a
  | call op next => (f op).bind fun reply => interpret f (next reply)

section Interpret

variable (f : (op : Op) → Prog Op' Reply' (Reply op))

@[simp] theorem interpret_ret (a : α) : interpret f (ret a) = ret a := rfl

@[simp] theorem interpret_call (op : Op) (next : Reply op → Prog Op Reply α) :
    interpret f (call op next) = (f op).bind fun reply => interpret f (next reply) := rfl

theorem interpret_bind (p : Prog Op Reply α) (g : α → Prog Op Reply β) :
    interpret f (p.bind g) = (interpret f p).bind fun a => interpret f (g a) := by
  induction p with
  | ret a => rfl
  | call op next ih =>
    rw [call_bind, interpret_call, interpret_call, bind_assoc]
    congr 1
    funext reply
    exact ih reply

theorem only_interpret {P : Op → Prop} {P' : Op' → Prop} {p : Prog Op Reply α} (hp : Only P p)
    (hf : ∀ op, P op → Only P' (f op)) : Only P' (interpret f p) := by
  induction p with
  | ret a => trivial
  | call op next ih => exact only_bind (hf op hp.1) fun reply => ih reply (hp.2 reply)

end Interpret

section Judged

/-- A machine that answers anything, and whose state tells whether all calls so far were
allowed. -/
def judging (P : Op → Prop) : Machine Unit Op Reply Prop where
  act _ op s _ s' := s' = (s ∧ P op)
  env s s' := s' = s
  halt _ s := s

/-- Its contract: they were, and nobody else calls. -/
def innocent : Contract Unit Prop where
  inv s := s
  rely _ s s' := s' = s
  refl _ _ := rfl
  trans _ _ _ _ h h' := h'.trans h

end Judged

end RuleRaven.Framework.Prog

namespace RuleRaven.Framework

variable {α : Type} {P : List α → α → List α → Prop}

/-- A property of every position of a list, with what is before and what comes after. -/
def AtEach (P : List α → α → List α → Prop) (items : List α) : Prop :=
  ∀ front item back, items = front ++ item :: back → P front item back

@[simp] theorem atEach_nil : AtEach P [] := by
  intro front item back h
  simp at h

/-- Position by position: the head, and the tail with the head before it. -/
@[simp] theorem atEach_cons {x : α} {items : List α} :
    AtEach P (x :: items) ↔ P [] x items ∧ AtEach (fun front => P (x :: front)) items := by
  constructor
  · intro h
    refine ⟨h [] x items rfl, ?_⟩
    rintro front item back rfl
    exact h (x :: front) item back rfl
  · rintro ⟨hhead, htail⟩ front item back h
    cases front with
    | nil =>
      obtain ⟨rfl, rfl⟩ := List.cons.inj h
      exact hhead
    | cons y front =>
      obtain ⟨rfl, rfl⟩ := List.cons.inj h
      exact htail front item back rfl

/-- In a list of two parts, for a property that what is before a position cannot spoil. -/
theorem AtEach.append {first rest : List α}
    (hcons : ∀ x front item back, P front item back → P (x :: front) item back)
    (hfirst : AtEach (fun front item back => P front item (back ++ rest)) first)
    (hrest : AtEach P rest) : AtEach P (first ++ rest) := by
  have hmono : ∀ more front item back, P front item back → P (more ++ front) item back := by
    intro more front item back h
    induction more with
    | nil => exact h
    | cons x more ih => exact hcons x _ item back ih
  intro front item back h
  rcases List.append_eq_append_iff.mp h with ⟨more, rfl, hback⟩ | ⟨more, rfl, hback⟩
  · exact hmono first more item back (hrest more item back hback)
  · cases more with
    | nil =>
      have hitem := hmono front [] item back (hrest [] item back hback.symm)
      rwa [List.append_nil] at hitem
    | cons x more =>
      obtain ⟨rfl, rfl⟩ := List.cons.inj hback
      exact hfirst front item more rfl

namespace Prog

variable {Op : Type} {Reply : Op → Type} {α β : Type}
  {P : List (Sigma Reply) → Op → Prop} {past : List (Sigma Reply)}

/-- Every call of the program is allowed by what was answered before it. -/
def Heeds (P : List (Sigma Reply) → Op → Prop) : List (Sigma Reply) → Prog Op Reply α → Prop
  | _, ret _ => True
  | past, call op next => P past op ∧ ∀ reply, Heeds P (past ++ [⟨op, reply⟩]) (next reply)

theorem heeds_ret {a : α} : Heeds P past (ret a : Prog Op Reply α) := trivial

theorem heeds_call {op : Op} {next : Reply op → Prog Op Reply α} (hop : P past op)
    (hnext : ∀ reply, Heeds P (past ++ [⟨op, reply⟩]) (next reply)) :
    Heeds P past (call op next) :=
  ⟨hop, hnext⟩

theorem heeds_bind {p : Prog Op Reply α} {f : α → Prog Op Reply β} (hp : Heeds P past p)
    (hf : ∀ t a, Does p t a → Heeds P (past ++ t) (f a)) : Heeds P past (p.bind f) := by
  induction p generalizing past with
  | ret a =>
    have hret := hf [] a ⟨rfl, rfl⟩
    rwa [List.append_nil] at hret
  | call op next ih =>
    refine ⟨hp.1, fun reply => ih reply (hp.2 reply) fun t a hdoes => ?_⟩
    have hrest := hf (⟨op, reply⟩ :: t) a ⟨reply, t, rfl, hdoes⟩
    rwa [List.append_assoc, List.singleton_append]

/-- So it is at every position of each of its traces. -/
theorem Heeds.atEach {p : Prog Op Reply α} (hp : Heeds P past p) {t : List (Sigma Reply)} {a : α}
    (h : Does p t a) : AtEach (fun front event _ => P (past ++ front) event.1) t := by
  induction p generalizing past t with
  | ret b =>
    obtain ⟨rfl, -⟩ := h
    exact atEach_nil
  | call op next ih =>
    obtain ⟨reply, rest, rfl, hrest⟩ := h
    rw [atEach_cons, List.append_nil]
    refine ⟨hp.1, ?_⟩
    have htail := ih reply (hp.2 reply) hrest
    simpa only [List.append_assoc, List.singleton_append] using htail

end Prog

end RuleRaven.Framework
