import RuleRaven.Framework.Pool

namespace RuleRaven.Framework

variable {ι Op : Type} {Reply : Op → Type} {α ε σ : Type}

namespace Prog

/-- The items in order, up to the first that fails. -/
def untilError (f : α → Prog Op Reply (Except ε Unit)) : List α → Prog Op Reply (Except ε Unit)
  | [] => ret (.ok ())
  | x :: xs => (f x).bind fun
    | .error err => ret (.error err)
    | .ok () => untilError f xs

variable {f : α → Prog Op Reply (Except ε Unit)}

theorem only_untilError {P : Op → Prop} {xs : List α} (hf : ∀ x ∈ xs, (f x).Only P) :
    (untilError f xs).Only P := by
  induction xs with
  | nil => trivial
  | cons x xs ih =>
    refine only_bind (hf x List.mem_cons_self) fun result => ?_
    cases result with
    | error err => trivial
    | ok _ => exact ih fun y hy => hf y (List.mem_cons_of_mem _ hy)

/-- The items before one of a list without repetitions are other ones. -/
theorem fresh_of_nodup {κ : Type} {key : α → κ} {all done rest : List α} {x : α}
    (hall : all = done ++ x :: rest) (hnodup : (all.map key).Nodup) : key x ∉ done.map key := by
  rw [hall, List.map_append, List.map_cons] at hnodup
  exact fun hold => (List.nodup_append.mp hnodup).2.2 _ hold _ List.mem_cons_self rfl

/-- A loop whose every item succeeds, from what the items before it leave, succeeds. -/
theorem run_untilError (h : (op : Op) → σ → Reply op × σ)
    (f : α → Prog Op Reply (Except ε Unit)) (all : List α) (I : List α → σ → Prop)
    (hf : ∀ done x rest, all = done ++ x :: rest → ∀ s, I done s →
      (run h (f x) s).1 = .ok () ∧ I (done ++ [x]) (run h (f x) s).2)
    {s : σ} (hs : I [] s) :
    (run h (untilError f all) s).1 = .ok () ∧ I all (run h (untilError f all) s).2 := by
  have hloop : ∀ rest done s, all = done ++ rest → I done s →
      (run h (untilError f rest) s).1 = .ok () ∧ I all (run h (untilError f rest) s).2 := by
    intro rest
    induction rest with
    | nil =>
      intro done s hall hs
      rw [List.append_nil] at hall
      exact ⟨rfl, hall ▸ hs⟩
    | cons x rest ih =>
      intro done s hall hs
      obtain ⟨hok, hnext⟩ := hf done x rest hall s hs
      simp only [untilError, run_bind, hok]
      exact ih (done ++ [x]) _ (by simp [hall]) hnext
  exact hloop all [] s rfl hs

end Prog

/-- The contract of parties that only ever move the shared state up an order. -/
def rising (G : σ → σ → Prop) (hrefl : ∀ s, G s s) (htrans : ∀ s t u, G s t → G t u → G s u) :
    Contract ι σ where
  inv _ := True
  rely _ := G
  refl _ := hrefl
  trans _ := htrans

section Rising

variable {M : Machine ι Op Reply σ} {G : σ → σ → Prop} {hrefl : ∀ s, G s s}
  {htrans : ∀ s t u, G s t → G t u → G s u} {i : ι}

/-- A single call, by what is known before it and what its reply tells. -/
theorem safe_rising {op : Op} {K : σ → Prop} {Q : Reply op → σ → Prop}
    (hact : ∀ i op s r s', M.act i op s r s' → G s s')
    (hK : ∀ s s', G s s' → K s → K s')
    (hQ : ∀ s r s', K s → M.act i op s r s' → Q r s') {s : σ} (hs : K s) :
    Safe M (rising G hrefl htrans) i Q (Prog.perform op) s := by
  refine safe_perform (C := rising G hrefl htrans) (P := K) hK (fun s r s' _ hs h => ?_) hs
  exact ⟨trivial, fun _ _ => hact i op s r s' h, hQ s r s' hs h⟩

/-- What is up the order from the start of a program is so at its end. -/
theorem safe_framed {Q : α → σ → Prop} (hact : ∀ i op s r s', M.act i op s r s' → G s s')
    {p : Prog Op Reply α} {s₀ s : σ} (h₀ : G s₀ s)
    (h : Safe M (rising G hrefl htrans) i Q p s) :
    Safe M (rising G hrefl htrans) i (fun a s' => Q a s' ∧ G s₀ s') p s := by
  induction p generalizing s with
  | ret a => exact ⟨h, h₀⟩
  | call op next ih =>
    intro s₁ hr hi r s₂ ha
    obtain ⟨hinv, hrely, hnext⟩ := h s₁ hr hi r s₂ ha
    exact ⟨hinv, hrely, ih r (htrans _ _ _ h₀ (htrans _ _ _ hr (hact i op s₁ r s₂ ha))) hnext⟩

/-- A loop establishes what each of its items does, where none of it is lost on the way up. -/
theorem safe_untilError {f : α → Prog Op Reply (Except ε Unit)} {K : σ → Prop}
    {P : α → σ → Prop} (hact : ∀ i op s r s', M.act i op s r s' → G s s')
    (hK : ∀ s s', G s s' → K s → K s') (hP : ∀ x s s', G s s' → P x s → P x s') {xs : List α}
    (hf : ∀ x ∈ xs, ∀ s, K s →
      Safe M (rising G hrefl htrans) i (fun r s' => r = .ok () → P x s') (f x) s)
    {s : σ} (hs : K s) :
    Safe M (rising G hrefl htrans) i (fun r s' => r = .ok () → ∀ x ∈ xs, P x s')
      (Prog.untilError f xs) s := by
  induction xs generalizing s with
  | nil => exact fun _ x hx => absurd hx List.not_mem_nil
  | cons x xs ih =>
    refine safe_then (safe_framed hact (hrefl s) (hf x List.mem_cons_self s hs)) ?_
    rintro (err | _) s' ⟨hx, hup⟩
    · exact fun herr => by cases herr
    · refine safe_mono ?_ _ _ (safe_framed hact (hrefl s')
        (ih (fun y hy => hf y (List.mem_cons_of_mem _ hy)) (hK s s' hup hs)))
      rintro r t ⟨hxs, hup'⟩ hr y hy
      rcases List.mem_cons.mp hy with rfl | hy
      · exact hP y s' t hup' (hx rfl)
      · exact hxs hr y hy

variable (hrefl htrans) in
/-- Parties that all only move the state up each return with what they establish, in every
interleaving, and later states keep it. -/
theorem steps_rising {start : σ → ι → Prog Op Reply α → Prop} {Q : α → σ → Prop}
    (hact : ∀ i op s r s', M.act i op s r s' → G s s') (henv : ∀ s s', M.env s s' → G s s')
    (hhalt : ∀ i s, G s (M.halt i s)) (hQ : ∀ a s s', G s s' → Q a s → Q a s')
    (hstart : ∀ s i p, start s i p → Safe M (rising G hrefl htrans) i Q p s) {s : σ}
    {c c' : Config ι Op Reply α σ} (h : Steps M start ⟨s, []⟩ c) {i : ι} {a : α}
    (hret : (i, .ret a) ∈ c.threads) (h' : Steps M start c c') : Q a c'.state := by
  have hholds : c.Holds M (rising G hrefl htrans) fun _ => Q :=
    steps_holds (fun _ => hQ) (fun s s' _ he => ⟨trivial, fun _ => henv s s' he⟩)
      (fun i s _ => ⟨trivial, fun _ _ => hhalt i s⟩) (fun s i p _ => hstart s i p) h
      ⟨trivial, List.nodup_nil, fun t ht => absurd ht List.not_mem_nil⟩
  exact hQ a _ _ (steps_related hrefl htrans hact henv hhalt h') (hholds.safe _ hret)

end Rising

section Undisturbed

variable {M : Machine ι Op Reply σ} {h : (op : Op) → σ → Reply op × σ} {i : ι}

/-- A program run by itself is one of the interleavings. -/
theorem steps_run {start : σ → ι → Prog Op Reply α → Prop}
    (hact : ∀ op s, M.act i op s (h op s).1 (h op s).2) (p : Prog Op Reply α) (s : σ) :
    Steps M start ⟨s, [(i, p)]⟩ ⟨(p.run h s).2, [(i, .ret (p.run h s).1)]⟩ := by
  induction p generalizing s with
  | ret a => exact .refl
  | call op next ih => exact .head (.act s _ [] [] i op next _ (hact op s)) (ih _ _)

/-- What a program establishes among others it establishes by itself. -/
theorem safe_run {C : Contract ι σ} {Q : α → σ → Prop}
    (hact : ∀ op s, M.act i op s (h op s).1 (h op s).2) {p : Prog Op Reply α} {s : σ}
    (hs : C.inv s) (hsafe : Safe M C i Q p s) : Q (p.run h s).1 (p.run h s).2 := by
  induction p generalizing s with
  | ret a => exact hsafe
  | call op next ih =>
    obtain ⟨hinv, -, hnext⟩ := hsafe s (C.refl i s) hs _ _ (hact op s)
    exact ih _ hinv hnext

end Undisturbed

end RuleRaven.Framework
