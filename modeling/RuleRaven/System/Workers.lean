import RuleRaven.System.Recording
import RuleRaven.System.Schedule

namespace RuleRaven

open Framework Kube Controller Notify

section Runs

variable {ι : Type}

theorem runs_grow {H : Hasher} {tasks : ι → Task → Prop} {guard : ι → Op → World ι → Prop}
    {c c' : Framework.Config ι Op Op.Reply Unit (World ι)} (h : Runs H tasks guard c c') :
    c.state.store.Grows c'.state.store := by
  refine steps_related (R := fun w w' : World ι => w.store.Grows w'.store)
    (fun w => Store.Grows.refl _) (fun _ _ _ => Store.Grows.trans) ?_ ?_ ?_ h
  · rintro i op w reply w' ⟨-, s', hanswer, rfl⟩
    exact hanswer.grows
  · rintro w w' ⟨t, -, rfl⟩
    exact Store.Grows.refl _
  · exact fun i w => Store.Grows.refl _

/-- Whatever the workers do, whichever calls fail and whoever crashes, the collections agree
with each other, and from then on no incident changes its identity. -/
theorem store_integrity (H : Hasher) (tasks : ι → Task → Prop) (t : Time)
    (c c' : Framework.Config ι Op Op.Reply Unit (World ι))
    (hrun : Runs H tasks (fun _ _ _ => True) (initial ι t) c)
    (hrest : Runs H tasks (fun _ _ _ => True) c c') :
    c.state.store.Integral ∧ ∀ i ∈ c.state.store.incidents.rows,
      ∃ j ∈ c'.state.store.incidents.rows, j.id = i.id ∧ j.key = i.key ∧
        j.clusterID = i.clusterID ∧ j.openedAt = i.openedAt := by
  classical
  refine ⟨?_, (runs_grow hrest).incidents⟩
  exact (runs_recorded (g := False) (steps_restrict_mono (fun _ _ _ _ h => h.elim) hrun)).1

end Runs

namespace Scenario

open Controller.Scenario

/-- A reconciliation of the job in the state it has in a call. -/
def reconciles (i n : Nat) (c : Call) : List Turn :=
  [.start i (.reconcile notifying c.key), .calls i n c.env none]

/-- The first worker is gone once it has inserted the incident; the second one commits. -/
def interrupted : List Turn :=
  reconciles 0 5 (jobCall 0 1) ++ [.stop 0] ++ reconciles 1 20 (jobCall 0 1)

/-- One worker finds the failure and commits it, another one finds the job running again. -/
def recovering : List Turn :=
  reconciles 0 20 (jobCall 0 1) ++ [.wait 1000000000] ++ reconciles 1 20 (jobCall 1 0)

end Scenario

open Scenario Controller.Scenario

/-- After a crash between two writes and a retry, the incident counts one evaluation. -/
theorem interrupted_integrity :
    ∃ c, Runs checksumHasher (fun _ _ => True) (fun _ _ _ => True) (initial Nat noon) c ∧
      c.state.store.incidents.rows.map Incident.version = [2] ∧ c.state.store.Integral := by
  have hfacts : (play checksumHasher (fun _ _ => True) (fun _ _ _ => true) interrupted
      (initial Nat noon)).any (fun c =>
        decide (c.state.store.incidents.rows.map Incident.version = [2])) = true := by
    decide +kernel
  obtain ⟨c, hplay, hversions⟩ := (Option.any_eq_true _ _).mp hfacts
  have hrun := steps_restrict_mono (fun _ _ _ _ => trivial) (runs_of_play hplay)
  exact ⟨c, hrun, of_decide_eq_true hversions,
    (store_integrity checksumHasher (fun _ _ => True) noon c c hrun .refl).1⟩

section Opening

variable {ι : Type} [DecidableEq ι]

/-- In every run in which an incident is read only once it has an evaluation, or by the
execution that inserted it, the first thing told about an incident is that it opened. -/
theorem first_event_opened (H : Hasher) (tasks : ι → Task → Prop) (t : Time)
    (c : Framework.Config ι Op Op.Reply Unit (World ι))
    (hrun : Runs H tasks (fun i op w => readsIntroduced i op w = true) (initial ι t) c) :
    c.state.store.Opened :=
  (runs_recorded (g := True) (steps_restrict_mono (fun _ _ _ h _ => h) hrun)).2 trivial

end Opening

/-- A failure and its recovery, told in this order. -/
theorem recovering_opened :
    ∃ c, Runs checksumHasher (fun _ _ => True) (fun i op w => readsIntroduced i op w = true)
        (initial Nat noon) c ∧
      (c.state.store.outbox.rows.map fun d => d.eventType) = [.opened, .resolved] ∧
      c.state.store.Opened := by
  have hfacts : (play checksumHasher (fun _ _ => True) readsIntroduced recovering
      (initial Nat noon)).any (fun c =>
        decide ((c.state.store.outbox.rows.map fun d => d.eventType) = [.opened, .resolved])) =
      true := by
    decide +kernel
  obtain ⟨c, hplay, htypes⟩ := (Option.any_eq_true _ _).mp hfacts
  have hrun := runs_of_play hplay
  exact ⟨c, hrun, of_decide_eq_true htypes,
    first_event_opened checksumHasher (fun _ _ => True) noon c hrun⟩

/-- The worker that created the incident crashed before its commit. The retry commits the first
evaluation and tells an update. -/
theorem interrupted_told_updated :
    ∃ c, Runs checksumHasher (fun _ _ => True) (fun _ _ _ => True) (initial Nat noon) c ∧
      ∃ e d, (c.state.store.evaluationsOf e.incidentID).head? = some e ∧
        d ∈ c.state.store.outbox.rows ∧ d.evaluationID = e.id ∧ d.eventType = .updated := by
  have hfacts : (play checksumHasher (fun _ _ => True) (fun _ _ _ => true) interrupted
      (initial Nat noon)).any (fun c => c.state.store.evaluations.rows.any fun e =>
        c.state.store.outbox.rows.any fun d =>
          decide ((c.state.store.evaluationsOf e.incidentID).head? = some e ∧
            d.evaluationID = e.id ∧ d.eventType = .updated)) = true := by
    decide +kernel
  obtain ⟨c, hplay, hrows⟩ := (Option.any_eq_true _ _).mp hfacts
  obtain ⟨e, -, hrow⟩ := List.any_eq_true.mp hrows
  obtain ⟨d, hd, htold⟩ := List.any_eq_true.mp hrow
  obtain ⟨hfirst, hid, htype⟩ := of_decide_eq_true htold
  exact ⟨c, steps_restrict_mono (fun _ _ _ _ => trivial) (runs_of_play hplay),
    e, d, hfirst, hd, hid, htype⟩

end RuleRaven
