import RuleRaven.Controller.Reconciler
import RuleRaven.Framework.Pool
import RuleRaven.Notify.Dispatcher
import RuleRaven.Store.Growth

namespace RuleRaven

open Framework Kube Controller Notify

/-- A call that was answered, with the store on both sides of it. -/
structure Event (ι : Type) where
  worker : ι
  op : Op
  reply : op.Reply
  clock : Time
  before : Store
  after : Store

/-- What all executions share: the store and the clock. The trace and the list of executions
that are over are a record that no step reads. -/
structure World (ι : Type) where
  store : Store := {}
  clock : Time
  trace : List (Event ι) := []
  gone : List ι := []

/-- What may become of a store operation. It is done; or it fails without an effect; or it is
done and its answer is lost. The driver itself never reports the sentinel of a missing row. -/
inductive StoreAnswer (s : Store) (op : StoreOp) : Except Err op.Out → Store → Prop
  | done : StoreAnswer s op (s.apply op).1 (s.apply op).2
  | fault (err : Err) (h : err.is .storeNotFound = false) : StoreAnswer s op (.error err) s
  | lost (err : Err) (h : err.cause = none ∨ err.cause = some .deadlineExceeded) :
      StoreAnswer s op (.error err) (s.apply op).2

/-- What may be answered to a call. The API server, the providers and the destinations may
answer anything. -/
def Answers (clock : Time) (s : Store) : (op : Op) → op.Reply → Store → Prop
  | .store op, reply, s' => StoreAnswer s op reply s'
  | .now, reply, s' => reply = clock ∧ s' = s
  | .kubeGet .., _, s' | .evaluate .., _, s' | .deliver .., _, s' | .ctxErr, _, s' => s' = s

section Answers

variable {s s' : Store} {op : StoreOp} {clock : Time}

theorem StoreAnswer.state {reply : Except Err op.Out} (h : StoreAnswer s op reply s') :
    s' = s ∨ s' = (s.apply op).2 := by
  cases h with
  | done => exact Or.inr rfl
  | fault err h => exact Or.inl rfl
  | lost err h => exact Or.inr rfl

theorem StoreAnswer.wrote {reply : Except Err op.Out} (h : StoreAnswer s op reply s') :
    s.Wrote op s' := by
  rcases h.state with rfl | rfl
  · exact .nothing op
  · exact Store.wrote_apply s op

theorem StoreAnswer.ok {out : op.Out} (h : StoreAnswer s op (.ok out) s') :
    s.apply op = (.ok out, s') := by
  generalize hreply : Except.ok out = reply at h
  cases h with
  | done => rfl
  | fault err h => cases hreply
  | lost err h => cases hreply

theorem StoreAnswer.grows {reply : Except Err op.Out} (h : StoreAnswer s op reply s') :
    s.Grows s' := h.wrote.grows

/-- Only the store operations change the store. -/
def Op.outside : Op → Prop
  | .store _ => False
  | _ => True

theorem Answers.outside {op : Op} (hop : op.outside) {reply : op.Reply}
    (h : Answers clock s op reply s') : s' = s := by
  cases op with
  | store op => exact hop.elim
  | now => exact h.2
  | kubeGet kind ns name => exact h
  | evaluate slot request => exact h
  | deliver destination envelope => exact h
  | ctxErr => exact h

theorem Answers.grows {op : Op} {reply : op.Reply} (h : Answers clock s op reply s') :
    s.Grows s' := by
  by_cases hop : op.outside
  · rw [h.outside hop]
    exact Store.Grows.refl s
  · cases op with
    | store op => exact StoreAnswer.grows h
    | _ => exact absurd trivial hop

end Answers

variable {ι : Type}

namespace World

/-- The world after an answered call. -/
def extend (w : World ι) (i : ι) (op : Op) (reply : op.Reply) (s' : Store) : World ι :=
  { w with store := s', trace := w.trace ++ [⟨i, op, reply, w.clock, w.store, s'⟩] }

/-- A name that no execution has had. -/
def Unused (w : World ι) (i : ι) : Prop := (∀ e ∈ w.trace, e.worker ≠ i) ∧ i ∉ w.gone

/-- What an execution can rely on whatever the others do. -/
structure Rely (i : ι) (w w' : World ι) : Prop where
  store : w.store.Grows w'.store
  clock : w.clock ≤ w'.clock
  trace : ∃ others, w'.trace = w.trace ++ others ∧ ∀ e ∈ others, e.worker ≠ i
  gone : i ∈ w'.gone → i ∈ w.gone

theorem Rely.refl (i : ι) (w : World ι) : Rely i w w :=
  ⟨Store.Grows.refl _, le_rfl, ⟨[], by simp⟩, id⟩

theorem Rely.trans (i : ι) (u v w : World ι) (h : Rely i u v) (h' : Rely i v w) : Rely i u w := by
  obtain ⟨a, ha, hi⟩ := h.trace
  obtain ⟨b, hb, hi'⟩ := h'.trace
  refine ⟨h.store.trans h'.store, h.clock.trans h'.clock, ⟨a ++ b, ?_, ?_⟩, h.gone ∘ h'.gone⟩
  · rw [hb, ha, List.append_assoc]
  · intro e he
    exact (List.mem_append.mp he).elim (hi e) (hi' e)

end World

/-- The calls of all executions over the shared world, while the clock never goes back. -/
def machine (ι : Type) : Machine ι Op Op.Reply (World ι) where
  act i op w reply w' := ∃ s', Answers w.clock w.store op reply s' ∧ w' = w.extend i op reply s'
  env w w' := ∃ t, w.clock ≤ t ∧ w' = { w with clock := t }
  halt i w := { w with gone := w.gone ++ [i] }

theorem rely_act {i j : ι} (hne : j ≠ i) {op : Op} {w w' : World ι} {reply : op.Reply}
    (h : (machine ι).act i op w reply w') : World.Rely j w w' := by
  obtain ⟨s', hanswer, rfl⟩ := h
  refine ⟨hanswer.grows, le_rfl, ⟨_, rfl, ?_⟩, id⟩
  intro e he
  rw [List.mem_singleton] at he
  subst he
  exact Ne.symm hne

/-- An invariant of the world, with what holds of every step anyway. -/
def contract (inv : World ι → Prop) : Contract ι (World ι) where
  inv := inv
  rely := World.Rely
  refl := World.Rely.refl
  trans := World.Rely.trans

/-- A fact that survives whatever the other executions do. -/
def Stable (i : ι) (P : World ι → Prop) : Prop := ∀ w w', World.Rely i w w' → P w → P w'

theorem Stable.and {i : ι} {P Q : World ι → Prop} (hP : Stable i P) (hQ : Stable i Q) :
    Stable i (fun w => P w ∧ Q w) :=
  fun w w' hr h => ⟨hP w w' hr h.1, hQ w w' hr h.2⟩

theorem Stable.imp {i : ι} {P : World ι → Prop} (b : Prop) (hP : Stable i P) :
    Stable i fun w => b → P w :=
  fun w w' hr h hb => hP w w' hr (h hb)

theorem stable_const (i : ι) (P : Prop) : Stable i fun _ => P := fun _ _ _ h => h

section Keeps

variable (guard : ι → Op → World ι → Prop) (inv : World ι → Prop) (i : ι) {α β : Type}

/-- As execution `i` from `w` on, the program keeps the invariant by every call that the guard
allows, and returns with `Q`. -/
def Keeps (Q : α → World ι → Prop) (p : Eff α) (w : World ι) : Prop :=
  Safe ((machine ι).restrict guard) (contract inv) i Q p w

variable {guard inv i} {Q : α → World ι → Prop} {w : World ι}

theorem keeps_ret {a : α} (h : Q a w) : Keeps guard inv i Q (.ret a) w := h

theorem keeps_bind {R : β → World ι → Prop} {p : Eff α} {f : α → Eff β}
    (hp : Keeps guard inv i Q p w) (hf : ∀ a w', Q a w' → Keeps guard inv i R (f a) w') :
    Keeps guard inv i R (p.bind f) w :=
  safe_then hp hf

theorem keeps_mono {R : α → World ι → Prop} {p : Eff α} (hp : Keeps guard inv i Q p w)
    (hQR : ∀ a w', Q a w' → R a w') : Keeps guard inv i R p w :=
  safe_mono hQR p w hp

theorem keeps_perform {op : Op} {P : World ι → Prop} {Q : op.Reply → World ι → Prop}
    (hP : Stable i P)
    (hact : ∀ v reply s', inv v → P v → guard i op v → Answers v.clock v.store op reply s' →
      inv (v.extend i op reply s') ∧ Q reply (v.extend i op reply s'))
    (hw : P w) : Keeps guard inv i Q (Prog.perform op) w := by
  refine safe_perform (C := contract inv) hP (fun v reply v' hinv hv ha => ?_) hw
  have hrely : ∀ j, j ≠ i → World.Rely j v v' := fun j hne => rely_act hne ha.2
  obtain ⟨hguard, s', hanswer, rfl⟩ := ha
  obtain ⟨hinv', hQ⟩ := hact v reply s' hinv hv hguard hanswer
  exact ⟨hinv', hrely, hQ⟩

theorem keeps_only {O : Op → Prop} {P : World ι → Prop} (hP : Stable i P)
    (hact : ∀ op v reply s', O op → inv v → P v → guard i op v →
      Answers v.clock v.store op reply s' →
      inv (v.extend i op reply s') ∧ P (v.extend i op reply s'))
    {p : Eff α} (hp : p.Only O) (hw : P w) : Keeps guard inv i (fun _ w' => P w') p w := by
  refine safe_only (C := contract inv) hP (fun op v reply v' hop hinv hv ha => ?_) hp hw
  have hrely : ∀ j, j ≠ i → World.Rely j v v' := fun j hne => rely_act hne ha.2
  obtain ⟨hguard, s', hanswer, rfl⟩ := ha
  obtain ⟨hinv', hv'⟩ := hact op v reply s' hop hinv hv hguard hanswer
  exact ⟨hinv', hrely, hv'⟩

end Keeps

/-- What a worker does at a time: one reconciliation of a key, or one dispatch. -/
inductive Task where
  | reconcile (r : Reconciler) (key : ResourceKey)
  | dispatch (d : Dispatcher)

def Task.prog (H : Hasher) : Task → Eff Unit
  | .reconcile r key => (r.reconcile H key).bind fun _ => .ret ()
  | .dispatch d => d.dispatchOne.bind fun _ => .ret ()

/-- Every execution has a name of its own and does one of the tasks it may do. -/
def starts (H : Hasher) (tasks : ι → Task → Prop) (w : World ι) (i : ι) (p : Eff Unit) : Prop :=
  (∃ task, tasks i task ∧ p = task.prog H) ∧ w.Unused i

/-- Every interleaving of the calls of executions, each of which may end after any call, with
calls made only where the guard allows them. -/
def Runs (H : Hasher) (tasks : ι → Task → Prop) (guard : ι → Op → World ι → Prop) :
    Framework.Config ι Op Op.Reply Unit (World ι) →
      Framework.Config ι Op Op.Reply Unit (World ι) → Prop :=
  Steps ((machine ι).restrict guard) (starts H tasks)

/-- An empty store at some time, and nobody at work. -/
def initial (ι : Type) (t : Time) : Framework.Config ι Op Op.Reply Unit (World ι) :=
  ⟨{ clock := t }, []⟩

/-- An invariant that depends on neither clock nor departures holds along every run, if each
task keeps it. -/
theorem runs_keep {H : Hasher} {tasks : ι → Task → Prop} {guard : ι → Op → World ι → Prop}
    {inv : World ι → Prop} (hinit : ∀ t, inv { clock := t })
    (hclock : ∀ w t, w.clock ≤ t → inv w → inv { w with clock := t })
    (hgone : ∀ w gone, inv w → (∀ i ∈ w.gone, i ∈ gone) → inv { w with gone := gone })
    (htask : ∀ i task w, tasks i task → w.Unused i → inv w →
      Keeps guard inv i (fun _ _ => True) (task.prog H) w)
    {t : Time} {c : Framework.Config ι Op Op.Reply Unit (World ι)}
    (hrun : Runs H tasks guard (initial ι t) c) : inv c.state := by
  refine (steps_guarded (C := contract inv) ?_ ?_ ?_ hrun ⟨hinit t, by simp [initial], by
    simp [initial]⟩).inv
  · rintro w w' hinv ⟨u, hu, rfl⟩
    exact ⟨hclock w u hu hinv, fun j => ⟨Store.Grows.refl _, hu, ⟨[], by simp⟩, id⟩⟩
  · intro i w hinv
    refine ⟨hgone w _ hinv fun j hj => List.mem_append_left _ hj, fun j hne =>
      ⟨Store.Grows.refl _, le_rfl, ⟨[], by simp [machine, Machine.restrict]⟩, ?_⟩⟩
    intro hj
    rcases List.mem_append.mp hj with hj | hj
    · exact hj
    · exact absurd (List.mem_singleton.mp hj) hne
  · rintro w i p hinv ⟨⟨task, htasks, rfl⟩, hunused⟩
    exact htask i task w htasks hunused hinv

end RuleRaven
