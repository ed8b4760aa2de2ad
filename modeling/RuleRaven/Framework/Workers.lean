import RuleRaven.Framework.Prog
import Mathlib.Data.List.Chain
import Mathlib.Logic.Hydra

namespace RuleRaven.Framework

/-- A program that workers run again and again over a shared state, as long as what it returns
tells them to. -/
structure Service (Op : Type) (Reply : Op → Type) (α σ : Type) where
  body : Prog Op Reply α
  again : α → Bool
  act : (op : Op) → σ → Reply op → σ → Prop

inductive Worker (Op : Type) (Reply : Op → Type) (α : Type) where
  | running (rest : Prog Op Reply α)
  | stopped (result : α)

structure Staff (Op : Type) (Reply : Op → Type) (α σ : Type) where
  state : σ
  workers : List (Worker Op Reply α)

variable {Op : Type} {Reply : Op → Type} {α σ : Type}

/-- Nobody works any more. -/
def Staff.Finished (c : Staff Op Reply α σ) : Prop := ∀ w ∈ c.workers, ∃ result, w = .stopped result

namespace Service

variable (S : Service Op Reply α σ)

/-- A worker after the program has returned. -/
def resume (result : α) : Worker Op Reply α :=
  if S.again result then .running S.body else .stopped result

/-- What one worker does: the next call of its program, or the next turn of its loop. -/
inductive Moves : σ → Worker Op Reply α → σ → Worker Op Reply α → Prop
  | act {s s' : σ} {op : Op} {reply : Reply op} (next : Reply op → Prog Op Reply α)
      (h : S.act op s reply s') : Moves s (.running (.call op next)) s' (.running (next reply))
  | turn (s : σ) (result : α) : Moves s (.running (.ret result)) s (S.resume result)

/-- One step of any interleaving. -/
inductive Step : Staff Op Reply α σ → Staff Op Reply α σ → Prop
  | move {s s' : σ} {w w' : Worker Op Reply α} (ts us : List (Worker Op Reply α))
      (h : S.Moves s w s' w') : Step ⟨s, ts ++ w :: us⟩ ⟨s', ts ++ w' :: us⟩

/-- Some workers at the start of the program. -/
def launch (n : Nat) (s : σ) : Staff Op Reply α σ := ⟨s, List.replicate n (.running S.body)⟩

variable {S}

theorem Moves.call {s s' : σ} {op : Op} {next : Reply op → Prog Op Reply α} {w : Worker Op Reply α}
    (h : S.Moves s (.running (.call op next)) s' w) :
    ∃ reply, S.act op s reply s' ∧ w = .running (next reply) := by
  cases h with
  | act next h => exact ⟨_, h, rfl⟩

theorem Moves.ret {s s' : σ} {result : α} {w : Worker Op Reply α}
    (h : S.Moves s (.running (.ret result)) s' w) : s' = s ∧ w = S.resume result := by
  cases h with
  | turn => exact ⟨rfl, rfl⟩

/-- Where every call has an answer, only a finished staff is stuck. -/
theorem progress (hact : ∀ op s, ∃ reply s', S.act op s reply s') (c : Staff Op Reply α σ) :
    c.Finished ∨ ∃ c', S.Step c c' := by
  rw [or_iff_not_imp_left]
  intro hbusy
  simp only [Staff.Finished, not_forall] at hbusy
  obtain ⟨w, hw, hrunning⟩ := hbusy
  obtain ⟨ts, us, hworkers⟩ := List.append_of_mem hw
  obtain ⟨s, workers⟩ := c
  obtain rfl : workers = ts ++ w :: us := hworkers
  cases w with
  | stopped result => exact absurd ⟨result, rfl⟩ hrunning
  | running rest =>
    cases rest with
    | ret result => exact ⟨_, .move ts us (.turn s result)⟩
    | call op next =>
      obtain ⟨reply, s', h⟩ := hact op s
      exact ⟨_, .move ts us (.act next h)⟩

/-- A step of a staff that is seen through the phases of its workers. -/
theorem Step.viewed {Φ : Type} {view : Φ → Worker Op Reply α} {c c' : Staff Op Reply α σ}
    (h : S.Step c c') {phases : List Φ} (hc : c.workers = phases.map view) :
    ∃ ps φ qs w, phases = ps ++ φ :: qs ∧ S.Moves c.state (view φ) c'.state w ∧
      c'.workers = ps.map view ++ w :: qs.map view := by
  cases h with
  | @move s s' w w' ts us hmove =>
    obtain ⟨ps, rest, rfl, rfl, hrest⟩ := List.map_eq_append_iff.mp hc.symm
    obtain ⟨φ, qs, rfl, rfl, rfl⟩ := List.map_eq_cons_iff.mp hrest
    exact ⟨ps, φ, qs, w', rfl, hmove, rfl⟩

end Service

/-- A budget that every step lowers bounds the length of every run. -/
theorem chain_budget {step : σ → σ → Prop} {Inv : Nat → σ → Prop}
    (hstep : ∀ n s s', Inv n s → step s s' → ∃ m, m < n ∧ Inv m s') {n : Nat} {s : σ} {run : List σ}
    (hs : Inv n s) (hrun : (s :: run).IsChain step) :
    ∃ m, run.length + m ≤ n ∧ Inv m ((s :: run).getLast (List.cons_ne_nil s run)) := by
  induction run generalizing n s with
  | nil => exact ⟨n, by simp, hs⟩
  | cons t run ih =>
    obtain ⟨hfirst, hrest⟩ := List.isChain_cons_cons.mp hrun
    obtain ⟨m, hm, ht⟩ := hstep n s t hs hfirst
    obtain ⟨k, hk, hlast⟩ := ih ht hrest
    refine ⟨k, ?_, by rwa [List.getLast_cons (List.cons_ne_nil t run)]⟩
    rw [List.length_cons]
    omega

/-- Workers end, in whatever order they are served, if each step brings the worker closer to its
end or uses up some of what the shared state has left. -/
theorem crew_acc {Φ : Type} {step : σ → Φ → σ → Φ → Prop} (left : σ → Nat)
    {closer : Φ → Φ → Prop} (hcloser : WellFounded closer)
    (hstep : ∀ s φ s' φ', step s φ s' φ' → left s' < left s ∨ left s' = left s ∧ closer φ' φ)
    (c : σ × List Φ) : Acc (fun b a : σ × List Φ => ∃ ps φ φ' qs, a.2 = ps ++ φ :: qs ∧
      b.2 = ps ++ φ' :: qs ∧ step a.1 φ b.1 φ') c := by
  have hwf := InvImage.wf (fun a : σ × List Φ => (left a.1, (a.2 : Multiset Φ)))
    (wellFounded_lt.prod_lex hcloser.cutExpand)
  refine Subrelation.accessible ?_ (hwf.apply c)
  rintro ⟨s', crew'⟩ ⟨s, crew⟩ ⟨ps, φ, φ', qs, rfl, rfl, h⟩
  rcases hstep s φ s' φ' h with hlt | ⟨heq, hcloser⟩
  · exact Prod.Lex.left _ _ hlt
  · show Prod.Lex _ _ (left s', _) (left s, _)
    rw [heq]
    refine Prod.Lex.right _ ⟨{φ'}, φ, by simpa using hcloser, ?_⟩
    simp only [← Multiset.coe_add, ← Multiset.cons_coe, ← Multiset.singleton_add]
    ac_rfl

end RuleRaven.Framework
