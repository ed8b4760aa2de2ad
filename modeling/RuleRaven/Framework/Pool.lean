import RuleRaven.Framework.Prog
import Mathlib.Data.List.Basic

namespace RuleRaven.Framework

/-- What calls do to the shared state. `act` is a relation, so a call may fail, lose its
answer or be answered by an arbitrary outsider; `env` is what changes on its own, and
`halt` is the bookkeeping when a thread is gone, crashed or finished alike. -/
structure Machine (ι Op : Type) (Reply : Op → Type) (σ : Type) where
  act : ι → (op : Op) → σ → Reply op → σ → Prop
  env : σ → σ → Prop
  halt : ι → σ → σ

/-- The same machine, its calls allowed only where `guard` holds of the state before. -/
def Machine.restrict {ι Op σ : Type} {Reply : Op → Type} (M : Machine ι Op Reply σ)
    (guard : ι → Op → σ → Prop) : Machine ι Op Reply σ :=
  { M with act := fun i op s r s' => guard i op s ∧ M.act i op s r s' }

theorem Machine.restrict_true {ι Op σ : Type} {Reply : Op → Type} (M : Machine ι Op Reply σ) :
    M.restrict (fun _ _ _ => True) = M := by
  simp [Machine.restrict]

/-- Shared state and the running threads. -/
structure Config (ι Op : Type) (Reply : Op → Type) (α σ : Type) where
  state : σ
  threads : List (ι × Prog Op Reply α)

variable {ι Op : Type} {Reply : Op → Type} {α β σ : Type}

/-- One step of any interleaving. A thread may stop after any call, which models a crash
between two calls as well as a return. -/
inductive Step (M : Machine ι Op Reply σ) (start : σ → ι → Prog Op Reply α → Prop) :
    Config ι Op Reply α σ → Config ι Op Reply α σ → Prop
  | env (s s' : σ) (ts : List (ι × Prog Op Reply α)) (h : M.env s s') :
      Step M start ⟨s, ts⟩ ⟨s', ts⟩
  | start (s : σ) (ts : List (ι × Prog Op Reply α)) (i : ι) (p : Prog Op Reply α)
      (h : start s i p) (hnew : i ∉ ts.map Prod.fst) :
      Step M start ⟨s, ts⟩ ⟨s, ts ++ [(i, p)]⟩
  | act (s s' : σ) (ts us : List (ι × Prog Op Reply α)) (i : ι) (op : Op)
      (next : Reply op → Prog Op Reply α) (r : Reply op) (h : M.act i op s r s') :
      Step M start ⟨s, ts ++ (i, .call op next) :: us⟩ ⟨s', ts ++ (i, next r) :: us⟩
  | stop (s : σ) (ts us : List (ι × Prog Op Reply α)) (i : ι) (p : Prog Op Reply α) :
      Step M start ⟨s, ts ++ (i, p) :: us⟩ ⟨M.halt i s, ts ++ us⟩

/-- Every finite interleaving. -/
def Steps (M : Machine ι Op Reply σ) (start : σ → ι → Prog Op Reply α → Prop) :
    Config ι Op Reply α σ → Config ι Op Reply α σ → Prop :=
  Relation.ReflTransGen (Step M start)

/-- An invariant of the shared state, and what each thread may rely on the others to
respect between its own calls. -/
structure Contract (ι σ : Type) where
  inv : σ → Prop
  rely : ι → σ → σ → Prop
  refl : ∀ i s, rely i s s
  trans : ∀ i s t u, rely i s t → rely i t u → rely i s u

/-- A fact that the others leave in place. -/
def Contract.Stable (C : Contract ι σ) (i : ι) (P : σ → Prop) : Prop :=
  ∀ s s', C.rely i s s' → P s → P s'

/-- From `s` on, whatever the others do within the contract, every call of the program
keeps the invariant and what the others rely on, and a return establishes `Q`. -/
def Safe (M : Machine ι Op Reply σ) (C : Contract ι σ) (i : ι) (Q : α → σ → Prop) :
    Prog Op Reply α → σ → Prop
  | .ret a, s => Q a s
  | .call op next, s => ∀ s₁, C.rely i s s₁ → C.inv s₁ → ∀ r s₂, M.act i op s₁ r s₂ →
      C.inv s₂ ∧ (∀ j, j ≠ i → C.rely j s₁ s₂) ∧ Safe M C i Q (next r) s₂

section Rules

variable {M : Machine ι Op Reply σ} {C : Contract ι σ} {i : ι}

theorem safe_mono {P Q : α → σ → Prop} (hPQ : ∀ a s, P a s → Q a s)
    (p : Prog Op Reply α) (s : σ) (h : Safe M C i P p s) : Safe M C i Q p s := by
  induction p generalizing s with
  | ret a => exact hPQ a s h
  | call op next ih =>
    intro s₁ hr hi r s₂ ha
    obtain ⟨hinv, hrely, hnext⟩ := h s₁ hr hi r s₂ ha
    exact ⟨hinv, hrely, ih r s₂ hnext⟩

/-- Sequencing: what the first program establishes is what the second one starts from. -/
theorem safe_bind {Q : β → σ → Prop} (p : Prog Op Reply α) (f : α → Prog Op Reply β)
    (s : σ) (h : Safe M C i (fun a s' => Safe M C i Q (f a) s') p s) :
    Safe M C i Q (p.bind f) s := by
  induction p generalizing s with
  | ret a => exact h
  | call op next ih =>
    intro s₁ hr hi r s₂ ha
    obtain ⟨hinv, hrely, hnext⟩ := h s₁ hr hi r s₂ ha
    exact ⟨hinv, hrely, ih r s₂ hnext⟩

theorem safe_then {P : α → σ → Prop} {Q : β → σ → Prop} {p : Prog Op Reply α}
    {f : α → Prog Op Reply β} {s : σ} (hp : Safe M C i P p s)
    (hf : ∀ a s', P a s' → Safe M C i Q (f a) s') : Safe M C i Q (p.bind f) s :=
  safe_bind p f s (safe_mono hf p s hp)

/-- Steps of the others within the contract do not disturb a safe thread. -/
theorem safe_stable {Q : α → σ → Prop} (hQ : ∀ a s s', C.rely i s s' → Q a s → Q a s')
    (p : Prog Op Reply α) (s s' : σ) (hr : C.rely i s s') (h : Safe M C i Q p s) :
    Safe M C i Q p s' := by
  cases p with
  | ret a => exact hQ a s s' hr h
  | call op next =>
    intro s₁ hr₁ hi r s₂ ha
    exact h s₁ (C.trans i s s' s₁ hr hr₁) hi r s₂ ha

/-- A single call, from what is known before it to what its reply tells. -/
theorem safe_perform {op : Op} {P : σ → Prop} {Q : Reply op → σ → Prop} (hP : C.Stable i P)
    (hact : ∀ s r s', C.inv s → P s → M.act i op s r s' →
      C.inv s' ∧ (∀ j, j ≠ i → C.rely j s s') ∧ Q r s')
    {s : σ} (hs : P s) : Safe M C i Q (Prog.perform op) s := by
  intro s₁ hr hi r s₂ ha
  exact hact s₁ r s₂ hi (hP s s₁ hr hs) ha

/-- A program all of whose possible calls keep a stable fact keeps it. -/
theorem safe_only {O : Op → Prop} {P : σ → Prop} (hP : C.Stable i P)
    (hact : ∀ op s r s', O op → C.inv s → P s → M.act i op s r s' →
      C.inv s' ∧ (∀ j, j ≠ i → C.rely j s s') ∧ P s')
    {p : Prog Op Reply α} (hp : p.Only O) {s : σ} (hs : P s) :
    Safe M C i (fun _ s' => P s') p s := by
  induction p generalizing s with
  | ret a => exact hs
  | call op next ih =>
    intro s₁ hr hi r s₂ ha
    obtain ⟨hinv, hrely, hnext⟩ := hact op s₁ r s₂ hp.1 hi (hP s s₁ hr hs) ha
    exact ⟨hinv, hrely, ih r (hp.2 r) hnext⟩

end Rules

/-- A configuration all of whose threads respect the contract, and have returned or will return
with `Q`. -/
structure Config.Holds (M : Machine ι Op Reply σ) (C : Contract ι σ) (Q : ι → α → σ → Prop)
    (c : Config ι Op Reply α σ) : Prop where
  inv : C.inv c.state
  distinct : (c.threads.map Prod.fst).Nodup
  safe : ∀ t ∈ c.threads, Safe M C t.1 (Q t.1) t.2 c.state

/-- A configuration all of whose threads respect the contract. -/
structure Config.Guarded (M : Machine ι Op Reply σ) (C : Contract ι σ)
    (c : Config ι Op Reply α σ) : Prop where
  inv : C.inv c.state
  distinct : (c.threads.map Prod.fst).Nodup
  safe : ∀ t ∈ c.threads, Safe M C t.1 (fun _ _ => True) t.2 c.state

section Invariant

variable {M : Machine ι Op Reply σ} {C : Contract ι σ}
  {start : σ → ι → Prog Op Reply α → Prop} {Q : ι → α → σ → Prop}

theorem step_holds
    (hQ : ∀ i a s s', C.rely i s s' → Q i a s → Q i a s')
    (henv : ∀ s s', C.inv s → M.env s s' → C.inv s' ∧ ∀ j, C.rely j s s')
    (hhalt : ∀ i s, C.inv s → C.inv (M.halt i s) ∧ ∀ j, j ≠ i → C.rely j s (M.halt i s))
    (hstart : ∀ s i p, C.inv s → start s i p → Safe M C i (Q i) p s)
    {c c' : Config ι Op Reply α σ} (hstep : Step M start c c') (hc : c.Holds M C Q) :
    c'.Holds M C Q := by
  have hkeep : ∀ (j : ι) (q : Prog Op Reply α) (s s' : σ), C.rely j s s' →
      Safe M C j (Q j) q s → Safe M C j (Q j) q s' :=
    fun j q s s' hr h => safe_stable (hQ j) q s s' hr h
  cases hstep with
  | env s s' ts h =>
    obtain ⟨hinv, hrely⟩ := henv s s' hc.inv h
    exact ⟨hinv, hc.distinct, fun t ht => hkeep t.1 t.2 s s' (hrely t.1) (hc.safe t ht)⟩
  | start s ts i p h hnew =>
    refine ⟨hc.inv, ?_, ?_⟩
    · have hd := hc.distinct
      simp only [List.map_append, List.map_cons, List.map_nil]
      exact List.nodup_append.mpr ⟨hd, by simp, by
        intro a ha b hb
        rw [List.mem_singleton] at hb
        subst hb
        exact fun he => hnew (he ▸ ha)⟩
    · intro t ht
      rcases List.mem_append.mp ht with ht | ht
      · exact hc.safe t ht
      · rw [List.mem_singleton.mp ht]
        exact hstart s i p hc.inv h
  | act s s' ts us i op next r h =>
    have hself := hc.safe (i, .call op next) (by simp)
    obtain ⟨hinv, hrely, hnext⟩ := hself s (C.refl i s) hc.inv r s' h
    have hd := hc.distinct
    simp only [List.map_append, List.map_cons, List.nodup_append, List.nodup_cons,
      List.mem_cons] at hd
    obtain ⟨_, ⟨hius, _⟩, hdis⟩ := hd
    refine ⟨hinv, by simpa only [List.map_append, List.map_cons] using hc.distinct, ?_⟩
    intro t ht
    rcases List.mem_append.mp ht with ht | ht
    · have hne : t.1 ≠ i := hdis t.1 (List.mem_map_of_mem ht) i (Or.inl rfl)
      exact hkeep t.1 t.2 s s' (hrely t.1 hne) (hc.safe t (by simp [ht]))
    rcases List.mem_cons.mp ht with rfl | ht
    · exact hnext
    · have hne : t.1 ≠ i := fun he => hius (he ▸ List.mem_map_of_mem ht)
      exact hkeep t.1 t.2 s s' (hrely t.1 hne) (hc.safe t (by simp [ht]))
  | stop s ts us i p =>
    obtain ⟨hinv, hrely⟩ := hhalt i s hc.inv
    have hd := hc.distinct
    simp only [List.map_append, List.map_cons, List.nodup_append, List.nodup_cons,
      List.mem_cons] at hd
    obtain ⟨hts, ⟨hius, hus⟩, hdis⟩ := hd
    refine ⟨hinv, ?_, ?_⟩
    · simp only [List.map_append]
      exact List.nodup_append.mpr ⟨hts, hus, fun a ha b hb => hdis a ha b (Or.inr hb)⟩
    · intro t ht
      rcases List.mem_append.mp ht with ht | ht
      · have hne : t.1 ≠ i := hdis t.1 (List.mem_map_of_mem ht) i (Or.inl rfl)
        exact hkeep t.1 t.2 s _ (hrely t.1 hne) (hc.safe t (by simp [ht]))
      · have hne : t.1 ≠ i := fun he => hius (he ▸ List.mem_map_of_mem ht)
        exact hkeep t.1 t.2 s _ (hrely t.1 hne) (hc.safe t (by simp [ht]))

/-- Threads that each respect the contract keep it together, in every interleaving, and each of
them returns with what it was to establish. -/
theorem steps_holds
    (hQ : ∀ i a s s', C.rely i s s' → Q i a s → Q i a s')
    (henv : ∀ s s', C.inv s → M.env s s' → C.inv s' ∧ ∀ j, C.rely j s s')
    (hhalt : ∀ i s, C.inv s → C.inv (M.halt i s) ∧ ∀ j, j ≠ i → C.rely j s (M.halt i s))
    (hstart : ∀ s i p, C.inv s → start s i p → Safe M C i (Q i) p s)
    {c c' : Config ι Op Reply α σ} (hsteps : Steps M start c c') (hc : c.Holds M C Q) :
    c'.Holds M C Q := by
  induction hsteps with
  | refl => exact hc
  | tail _ hstep ih => exact step_holds hQ henv hhalt hstart hstep ih

theorem steps_guarded
    (henv : ∀ s s', C.inv s → M.env s s' → C.inv s' ∧ ∀ j, C.rely j s s')
    (hhalt : ∀ i s, C.inv s → C.inv (M.halt i s) ∧ ∀ j, j ≠ i → C.rely j s (M.halt i s))
    (hstart : ∀ s i p, C.inv s → start s i p → Safe M C i (fun _ _ => True) p s)
    {c c' : Config ι Op Reply α σ} (hsteps : Steps M start c c') (hc : c.Guarded M C) :
    c'.Guarded M C := by
  have hholds : c'.Holds M C fun _ _ _ => True :=
    steps_holds (fun _ _ _ _ _ h => h) henv hhalt hstart hsteps ⟨hc.inv, hc.distinct, hc.safe⟩
  exact ⟨hholds.inv, hholds.distinct, hholds.safe⟩

end Invariant

/-- A weaker guard has the interleavings of a stronger one. -/
theorem steps_restrict_mono {M : Machine ι Op Reply σ} {start : σ → ι → Prog Op Reply α → Prop}
    {guard guard' : ι → Op → σ → Prop} (hguard : ∀ i op s, guard i op s → guard' i op s)
    {c c' : Config ι Op Reply α σ} (h : Steps (M.restrict guard) start c c') :
    Steps (M.restrict guard') start c c' := by
  refine Relation.ReflTransGen.mono (fun a b hstep => ?_) _ _ h
  cases hstep with
  | env s s' ts h => exact .env s s' ts h
  | start s ts i p h hnew => exact .start s ts i p h hnew
  | act s s' ts us i op next r h =>
    exact .act s s' ts us i op next r ⟨hguard i op s h.1, h.2⟩
  | stop s ts us i p => exact .stop s ts us i p

/-- What holds of every state that is reached may be assumed where a call is made. -/
theorem steps_assuming {M : Machine ι Op Reply σ} {start : σ → ι → Prog Op Reply α → Prop}
    {guard : ι → Op → σ → Prop} {I : σ → Prop} {c c' : Config ι Op Reply α σ}
    (hI : ∀ d, Steps (M.restrict guard) start c d → I d.state)
    (h : Steps (M.restrict guard) start c c') :
    Steps (M.restrict fun i op s => guard i op s ∧ I s) start c c' := by
  induction h with
  | refl => exact .refl
  | tail hsteps hstep ih =>
    refine ih.tail ?_
    cases hstep with
    | env s s' ts h => exact .env s s' ts h
    | start s ts i p h hnew => exact .start s ts i p h hnew
    | act s s' ts us i op next r h =>
      exact .act s s' ts us i op next r ⟨⟨h.1, hI _ hsteps⟩, h.2⟩
    | stop s ts us i p => exact .stop s ts us i p

/-- What is known of every call that the started programs can make may be assumed where a call
is made. -/
theorem steps_only {M : Machine ι Op Reply σ} {start : σ → ι → Prog Op Reply α → Prop}
    {guard : ι → Op → σ → Prop} {P : ι → Op → Prop}
    (hstart : ∀ s i p, start s i p → p.Only (P i)) {c c' : Config ι Op Reply α σ}
    (hc : ∀ t ∈ c.threads, t.2.Only (P t.1)) (h : Steps (M.restrict guard) start c c') :
    Steps (M.restrict fun i op s => guard i op s ∧ P i op) start c c' := by
  have hall : Steps (M.restrict fun i op s => guard i op s ∧ P i op) start c c' ∧
      ∀ t ∈ c'.threads, t.2.Only (P t.1) := by
    induction h with
    | refl => exact ⟨.refl, hc⟩
    | tail _ hstep ih =>
      obtain ⟨hsteps, honly⟩ := ih
      cases hstep with
      | env s s' ts h => exact ⟨hsteps.tail (.env s s' ts h), honly⟩
      | start s ts i p h hnew =>
        refine ⟨hsteps.tail (.start s ts i p h hnew), fun t ht => ?_⟩
        rcases List.mem_append.mp ht with ht | ht
        · exact honly t ht
        · rw [List.mem_singleton.mp ht]
          exact hstart s i p h
      | act s s' ts us i op next r h =>
        have hcall := honly (i, .call op next) (by simp)
        refine ⟨hsteps.tail (.act s s' ts us i op next r ⟨⟨h.1, hcall.1⟩, h.2⟩), fun t ht => ?_⟩
        rcases List.mem_append.mp ht with ht | ht
        · exact honly t (by simp [ht])
        · rcases List.mem_cons.mp ht with rfl | ht
          · exact hcall.2 r
          · exact honly t (by simp [ht])
      | stop s ts us i p =>
        refine ⟨hsteps.tail (.stop s ts us i p), fun t ht => honly t ?_⟩
        rcases List.mem_append.mp ht with ht | ht <;> simp [ht]
  exact hall.1

section Order

variable {M : Machine ι Op Reply σ} {start : σ → ι → Prog Op Reply α → Prop} {s s' : σ}
  {ts rest : List (ι × Prog Op Reply α)} {i : ι}

/-- The order in which the threads are listed does not matter. -/
theorem step_act_perm {op : Op} {next : Reply op → Prog Op Reply α} {r : Reply op}
    (hts : ts.Perm ((i, .call op next) :: rest)) (h : M.act i op s r s') :
    ∃ ts', ts'.Perm ((i, next r) :: rest) ∧ Step M start ⟨s, ts⟩ ⟨s', ts'⟩ := by
  obtain ⟨front, back, rfl⟩ := List.append_of_mem (hts.mem_iff.mpr List.mem_cons_self)
  have hrest : (front ++ back).Perm rest :=
    (List.perm_cons _).mp (List.perm_middle.symm.trans hts)
  exact ⟨front ++ (i, next r) :: back, List.perm_middle.trans (hrest.cons _),
    .act s s' front back i op next r h⟩

theorem step_stop_perm {p : Prog Op Reply α} (hts : ts.Perm ((i, p) :: rest)) :
    ∃ ts', ts'.Perm rest ∧ Step M start ⟨s, ts⟩ ⟨M.halt i s, ts'⟩ := by
  obtain ⟨front, back, rfl⟩ := List.append_of_mem (hts.mem_iff.mpr List.mem_cons_self)
  exact ⟨front ++ back, (List.perm_cons _).mp (List.perm_middle.symm.trans hts),
    .stop s front back i p⟩

/-- A step of some threads is one beside others, where the guard allows all calls of theirs. -/
theorem step_beside (start' : σ → ι → Prog Op Reply α → Prop) (guard : ι → Op → σ → Prop)
    {ts' us : List (ι × Prog Op Reply α)} (h : Step M start ⟨s, ts⟩ ⟨s', ts'⟩)
    (hguard : ∀ t ∈ ts, ∀ op, guard t.1 op s)
    (hstart : ∀ i p, start s i p → start' s i p ∧ i ∉ rest.map Prod.fst)
    (hus : us.Perm (rest ++ ts)) :
    ∃ us', us'.Perm (rest ++ ts') ∧ Step (M.restrict guard) start' ⟨s, us⟩ ⟨s', us'⟩ := by
  cases h with
  | env _ _ _ h => exact ⟨us, hus, .env _ _ us h⟩
  | start _ _ i p h hnew =>
    obtain ⟨hallowed, hfree⟩ := hstart i p h
    refine ⟨us ++ [(i, p)], by rw [← List.append_assoc]; exact hus.append_right _,
      .start _ us i p hallowed fun hi => ?_⟩
    rw [(hus.map Prod.fst).mem_iff, List.map_append, List.mem_append] at hi
    exact hi.elim hfree hnew
  | act _ _ front back i op next r h =>
    rw [← List.append_assoc] at hus
    obtain ⟨us', hus', hstep⟩ := step_act_perm (M := M.restrict guard)
      (hus.trans List.perm_middle) ⟨hguard (i, .call op next) (by simp) op, h⟩
    refine ⟨us', hus'.trans ?_, hstep⟩
    rw [← List.append_assoc]
    exact List.perm_middle.symm
  | stop _ front back i p =>
    rw [← List.append_assoc] at hus
    obtain ⟨us', hus', hstep⟩ := step_stop_perm (M := M.restrict guard) (s := s)
      (hus.trans List.perm_middle)
    refine ⟨us', hus'.trans ?_, hstep⟩
    rw [← List.append_assoc]

end Order

/-- A relation that every step respects relates the ends of every interleaving. -/
theorem steps_related {M : Machine ι Op Reply σ} {start : σ → ι → Prog Op Reply α → Prop}
    {R : σ → σ → Prop} (hrefl : ∀ s, R s s) (htrans : ∀ s t u, R s t → R t u → R s u)
    (hact : ∀ i op s r s', M.act i op s r s' → R s s') (henv : ∀ s s', M.env s s' → R s s')
    (hhalt : ∀ i s, R s (M.halt i s)) {c c' : Config ι Op Reply α σ}
    (h : Steps M start c c') : R c.state c'.state := by
  induction h with
  | refl => exact hrefl _
  | tail _ hstep ih =>
    refine htrans _ _ _ ih ?_
    cases hstep with
    | env s s' ts h => exact henv s s' h
    | start s ts i p h hnew => exact hrefl s
    | act s s' ts us i op next r h => exact hact i op s r s' h
    | stop s ts us i p => exact hhalt i s

/-- The first calls of one thread, run undisturbed, are an interleaving. -/
theorem steps_advance {M : Machine ι Op Reply σ} {start : σ → ι → Prog Op Reply α → Prop}
    {allow : Op → σ → Bool} {h : (op : Op) → σ → Reply op × σ} {i : ι}
    (hact : ∀ op s, allow op s = true → M.act i op s (h op s).1 (h op s).2) {n : Nat}
    {p p' : Prog Op Reply α} {s s' : σ} (hrun : p.advance allow h n s = some (p', s'))
    (ts us : List (ι × Prog Op Reply α)) :
    Steps M start ⟨s, ts ++ (i, p) :: us⟩ ⟨s', ts ++ (i, p') :: us⟩ := by
  induction n generalizing p s with
  | zero =>
    cases hrun
    exact .refl
  | succ n ih =>
    cases p with
    | ret a =>
      cases hrun
      exact .refl
    | call op next =>
      unfold Prog.advance at hrun
      split_ifs at hrun with hallow
      exact .head (.act s _ ts us i op next _ (hact op s hallow)) (ih hrun)

end RuleRaven.Framework
