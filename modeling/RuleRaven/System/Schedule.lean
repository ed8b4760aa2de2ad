import RuleRaven.Controller.Scenario
import RuleRaven.System.World

namespace RuleRaven

open Framework Controller Notify

/-- The executions at work, named by numbers. -/
abbrev Crew := Framework.Config Nat Op Op.Reply Unit (World Nat)

/-- What a world without faults answers, with `fate` for every delivery. -/
def World.reply (env : Env) (fate : Option DeliveryError) (w : World Nat) :
    (op : Op) → op.Reply × Store
  | .store op => w.store.apply op
  | .now => (w.clock, w.store)
  | .kubeGet kind ns name => (env.get kind ns name, w.store)
  | .evaluate slot request => (env.evaluate slot request, w.store)
  | .deliver _ _ => (fate, w.store)
  | .ctxErr => (none, w.store)

def World.serve (env : Env) (fate : Option DeliveryError) (i : Nat) (op : Op) (w : World Nat) :
    op.Reply × World Nat :=
  ((w.reply env fate op).1, w.extend i op (w.reply env fate op).1 (w.reply env fate op).2)

theorem act_serve (env : Env) (fate : Option DeliveryError) (i : Nat) (op : Op) (w : World Nat) :
    (machine Nat).act i op w (w.serve env fate i op).1 (w.serve env fate i op).2 := by
  refine ⟨_, ?_, rfl⟩
  cases op with
  | store op => exact StoreAnswer.done
  | now => exact ⟨rfl, rfl⟩
  | _ => rfl

/-- One entry of a schedule: time passes, an execution starts, makes its next calls, or is
over. -/
inductive Turn where
  | wait (nanoseconds : Nat)
  | start (i : Nat) (task : Task)
  | calls (i n : Nat) (env : Env) (fate : Option DeliveryError)
  | stop (i : Nat)

/-- The thread of an execution, with those before and after it. -/
def focus (i : Nat) : List (Nat × Eff Unit) →
    Option (List (Nat × Eff Unit) × Eff Unit × List (Nat × Eff Unit))
  | [] => none
  | (j, p) :: ts =>
    if j = i then some ([], p, ts)
    else (focus i ts).map fun parts => ((j, p) :: parts.1, parts.2)

theorem focus_eq_some {i : Nat} {ts before after : List (Nat × Eff Unit)} {p : Eff Unit}
    (h : focus i ts = some (before, p, after)) : ts = before ++ (i, p) :: after := by
  induction ts generalizing before with
  | nil => cases h
  | cons t ts ih =>
    obtain ⟨j, q⟩ := t
    unfold focus at h
    split_ifs at h with hj
    · cases h
      rw [hj, List.nil_append]
    · obtain ⟨⟨front, rest⟩, hparts, heq⟩ := Option.map_eq_some_iff.mp h
      cases heq
      rw [ih hparts, List.cons_append]

section Play

variable (H : Hasher) (tasks : Nat → Task → Prop) [∀ i task, Decidable (tasks i task)]
  (allow : Nat → Op → World Nat → Bool)

def Turn.play : Turn → Crew → Option Crew
  | .wait d, c => some ⟨{ c.state with clock := c.state.clock + d }, c.threads⟩
  | .start i task, c =>
    if tasks i task ∧ i ∉ c.threads.map Prod.fst ∧
        (∀ e ∈ c.state.trace, e.worker ≠ i) ∧ i ∉ c.state.gone then
      some ⟨c.state, c.threads ++ [(i, task.prog H)]⟩
    else none
  | .calls i n env fate, c =>
    match focus i c.threads with
    | none => none
    | some (before, p, after) =>
      match p.advance (allow i) (fun op w => w.serve env fate i op) n c.state with
      | none => none
      | some (q, w) => some ⟨w, before ++ (i, q) :: after⟩
  | .stop i, c =>
    match focus i c.threads with
    | none => none
    | some (before, _, after) =>
      some ⟨{ c.state with gone := c.state.gone ++ [i] }, before ++ after⟩

/-- A schedule played from a configuration, as long as the guard allows its calls. -/
def play : List Turn → Crew → Option Crew
  | [], c => some c
  | turn :: turns, c =>
    match turn.play H tasks allow c with
    | none => none
    | some next => play turns next

variable {H tasks allow}

theorem runs_of_turn {turn : Turn} {c c' : Crew} (h : turn.play H tasks allow c = some c') :
    Runs H tasks (fun i op w => allow i op w = true) c c' := by
  obtain ⟨w, ts⟩ := c
  cases turn with
  | wait d =>
    cases h
    exact .single (.env _ _ _ ⟨_, Int.le_add_of_nonneg_right (Int.natCast_nonneg d), rfl⟩)
  | start i task =>
    dsimp only [Turn.play] at h
    split_ifs at h with hfresh
    cases h
    obtain ⟨htask, hnew, hunused⟩ := hfresh
    exact .single (.start _ _ _ _ ⟨⟨task, htask, rfl⟩, hunused⟩ hnew)
  | calls i n env fate =>
    dsimp only [Turn.play] at h
    split at h
    · cases h
    · rename_i before p after hfocus
      split at h
      · cases h
      · rename_i q v hadvance
        cases h
        obtain rfl := focus_eq_some hfocus
        have hact : ∀ op v, allow i op v = true →
            ((machine Nat).restrict fun i op w => allow i op w = true).act i op v
              (v.serve env fate i op).1 (v.serve env fate i op).2 :=
          fun op v hallow => ⟨hallow, act_serve env fate i op v⟩
        exact steps_advance hact hadvance before after
  | stop i =>
    dsimp only [Turn.play] at h
    split at h
    · cases h
    · rename_i before p after hfocus
      cases h
      obtain rfl := focus_eq_some hfocus
      exact .single (.stop _ _ _ _ _)

/-- A schedule is a run. -/
theorem runs_of_play {turns : List Turn} {c c' : Crew} (h : play H tasks allow turns c = some c') :
    Runs H tasks (fun i op w => allow i op w = true) c c' := by
  induction turns generalizing c with
  | nil =>
    cases h
    exact .refl
  | cons turn turns ih =>
    unfold play at h
    split at h
    · cases h
    · rename_i next hnext
      exact (runs_of_turn hnext).trans (ih h)

end Play

end RuleRaven
