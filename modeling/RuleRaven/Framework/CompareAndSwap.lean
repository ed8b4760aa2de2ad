import Mathlib.Data.List.Basic
import Mathlib.Data.Prod.Lex
import Mathlib.Logic.Relation
import Mathlib.Order.WellFounded

namespace RuleRaven.Framework

/-- A shared value, with the updates that were made on it. -/
structure Cell (σ υ : Type) where
  value : σ
  log : List υ := []

/-- A loop that loads the value and swaps it for the updated one, as long as another one was
faster. -/
inductive Updater (σ υ : Type) where
  | loading (u : υ)
  | swapping (u : υ) (seen : σ)
  | updated (u : υ)

namespace Updater

variable {σ υ : Type} (apply : υ → σ → σ)

/-- One turn of one updater. -/
inductive Moves : Cell σ υ → Updater σ υ → Cell σ υ → Updater σ υ → Prop
  | load (c : Cell σ υ) (u : υ) : Moves c (.loading u) c (.swapping u c.value)
  | swap (c : Cell σ υ) (u : υ) :
      Moves c (.swapping u c.value) ⟨apply u c.value, c.log ++ [u]⟩ (.updated u)
  | miss {c : Cell σ υ} {u : υ} {seen : σ} (h : seen ≠ c.value) :
      Moves c (.swapping u seen) c (.loading u)

/-- One step of any interleaving. -/
inductive Step : Cell σ υ × List (Updater σ υ) → Cell σ υ × List (Updater σ υ) → Prop
  | move {c c' : Cell σ υ} {φ φ' : Updater σ υ} (ps qs : List (Updater σ υ))
      (h : Moves apply c φ c' φ') : Step (c, ps ++ φ :: qs) (c', ps ++ φ' :: qs)

def done : Updater σ υ → Option υ
  | .updated u => some u
  | _ => none

def update : Updater σ υ → υ
  | .loading u | .swapping u _ | .updated u => u

/-- The value is what the finished updates make of it one after another. -/
structure Serial (v : σ) (s : Cell σ υ × List (Updater σ υ)) : Prop where
  value : s.1.value = s.1.log.foldl (fun w u => apply u w) v
  log : s.1.log.Perm (s.2.filterMap done)

variable {apply} {v : σ} {s s' : Cell σ υ × List (Updater σ υ)}

theorem Serial.step (hs : Serial apply v s) (h : Step apply s s') : Serial apply v s' := by
  cases h with
  | move ps qs h =>
    obtain ⟨hvalue, hlog⟩ := hs
    cases h with
    | load u =>
      refine ⟨hvalue, ?_⟩
      simp only [List.filterMap_append, List.filterMap_cons, done] at hlog ⊢
      exact hlog
    | swap u =>
      refine ⟨?_, ?_⟩
      · dsimp only at hvalue ⊢
        rw [List.foldl_append, ← hvalue]
        rfl
      · simp only [List.filterMap_append, List.filterMap_cons, done] at hlog ⊢
        exact (List.perm_append_comm.trans (hlog.cons u)).trans List.perm_middle.symm
    | miss h =>
      refine ⟨hvalue, ?_⟩
      simp only [List.filterMap_append, List.filterMap_cons, done] at hlog ⊢
      exact hlog

/-- No update is lost: in every interleaving the value holds each finished update once. -/
theorem serial {us : List υ} (hrun : Relation.ReflTransGen (Step apply)
    (⟨v, []⟩, us.map Updater.loading) s) : Serial apply v s := by
  induction hrun with
  | refl =>
    refine ⟨rfl, ?_⟩
    have hnone : (us.map Updater.loading).filterMap (done : Updater σ υ → Option υ) = [] :=
      List.filterMap_eq_nil_iff.mpr fun φ hφ => by
        obtain ⟨u, -, rfl⟩ := List.mem_map.mp hφ
        rfl
    rw [hnone]
  | tail _ h ih => exact ih.step h

/-- Every loop keeps to its update. -/
theorem updates {us : List υ} (hrun : Relation.ReflTransGen (Step apply)
    (⟨v, []⟩, us.map Updater.loading) s) : s.2.map update = us := by
  induction hrun with
  | refl =>
    rw [List.map_map]
    exact List.map_id us
  | tail _ h ih =>
    cases h with
    | move ps qs h =>
      rw [← ih]
      cases h <;> simp [update]

/-- Where no loop can go on, each has made its update. -/
theorem done_of_stuck {us : List υ} (hrun : Relation.ReflTransGen (Step apply)
    (⟨v, []⟩, us.map Updater.loading) s) (hstuck : ∀ s', ¬Step apply s s') :
    s.2.filterMap done = us := by
  have hdone : ∀ φ ∈ s.2, φ.done = some φ.update := by
    intro φ hφ
    obtain ⟨ps, qs, hsplit⟩ := List.append_of_mem hφ
    have hmoves : ∀ c' φ', ¬Moves apply s.1 φ c' φ' := by
      intro c' φ' hmoves
      have hstep : Step apply (s.1, ps ++ φ :: qs) (c', ps ++ φ' :: qs) := .move ps qs hmoves
      rw [← hsplit] at hstep
      exact hstuck _ hstep
    cases φ with
    | loading u => exact absurd (.load s.1 u) (hmoves _ _)
    | swapping u seen =>
      by_cases hseen : seen = s.1.value
      · subst hseen
        exact absurd (.swap s.1 u) (hmoves _ _)
      · exact absurd (.miss hseen) (hmoves _ _)
    | updated u => rfl
  rw [← updates hrun, List.filterMap_congr hdone]
  exact congrFun List.filterMap_eq_map s.2

section Ends

variable [DecidableEq σ]

/-- How many turns an updater takes at most until it swaps, if no other one does before. -/
def weight (current : σ) : Updater σ υ → Nat
  | .loading _ => 1
  | .swapping _ seen => if seen = current then 0 else 2
  | .updated _ => 0

/-- A failed swap means that another one has succeeded, so the loops come to an end. -/
theorem step_acc (s : Cell σ υ × List (Updater σ υ)) : Acc (fun b a => Step apply a b) s := by
  let measure (s : Cell σ υ × List (Updater σ υ)) : Nat ×ₗ Nat :=
    toLex ((s.2.filter fun φ => φ.done.isNone).length, (s.2.map (weight s.1.value)).sum)
  refine Subrelation.accessible ?_ (InvImage.accessible measure (wellFounded_lt.apply _))
  rintro b a h
  cases h with
  | move ps qs h =>
    refine Prod.Lex.toLex_lt_toLex.mpr ?_
    cases h with
    | load u =>
      right
      simp [done, weight]
    | swap u =>
      left
      simp [done]
    | miss h =>
      right
      simp [done, weight, h]

end Ends

end Updater

end RuleRaven.Framework
