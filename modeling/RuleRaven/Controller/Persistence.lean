import RuleRaven.Controller.Scenario

namespace RuleRaven.Controller.Reconciler

open Framework Kube Rules

/-- The observation with which a call goes on to `persist`, if it does. -/
def persisting (H : Hasher) (r : Reconciler) (c : Call) (s : Store) : Option Pending :=
  match r.verdict H c s with
  | .ok (.persist p) => some p
  | _ => none

theorem persisting_eq_some {H : Hasher} {r : Reconciler} {c : Call} {s : Store} {p : Pending} :
    r.persisting H c s = some p ↔ r.verdict H c s = .ok (.persist p) := by
  unfold persisting
  split <;> simp_all

theorem persisting_isSome {H : Hasher} {r : Reconciler} {c : Call} {s : Store} :
    (r.persisting H c s).isSome = true ↔ ∃ p, r.verdict H c s = .ok (.persist p) := by
  simp only [Option.isSome_iff_exists, persisting_eq_some]

/-- An evaluation of the incident under the same snapshot hash, policy, rubric and provider
configuration is stored. -/
def known (H : Hasher) (r : Reconciler) (p : Pending) (s : Store) : Bool :=
  (s.findEvaluation (r.identity (r.targetID H p) p.snapshot p.result)).isSome

/-- The stored incident carries the status and the fingerprint of the observation. -/
def takesEffect (H : Hasher) (r : Reconciler) (p : Pending) (s : Store) : Bool :=
  (s.incident r.clusterID (incidentKey H p.snapshot.source)).any fun i =>
    i.status == statusFor p.result && i.contentHash == p.snapshot.contentHash

section Step

variable {H : Hasher} {r : Reconciler} {c : Call} {s : Store} {p : Pending}
  {result : Controller.Result}

theorem after_append (calls : List Call) (c : Call) :
    r.after H (calls ++ [c]) = (r.runCall H c (r.after H calls)).2 := by
  simp [after, List.foldl_append]

/-- A call that does not go on to `persist` leaves the store as it was. -/
theorem runCall_unpersisted (hp : r.persisting H c s = none) : (r.runCall H c s).2 = s := by
  unfold persisting at hp
  cases hv : r.verdict H c s with
  | error err => rw [runCall_error hv]
  | ok verdict =>
    cases verdict with
    | settled done => rw [runCall_settled hv]
    | persist p => simp [hv] at hp

theorem incident_modify {base done : Store} {incident changed : Incident} {clusterID key : String}
    (hfind : base.incident clusterID key = some incident)
    (hinc : done.incidents = base.incidents.modify incident.id (incidentChange changed)) :
    done.incident clusterID key = some ((incidentChange changed).apply incident) := by
  unfold Store.incident at hfind ⊢
  rw [hinc, Table.byKey_modify, hfind, Option.map_some, if_pos rfl]

/-- The row that a persisted observation leaves under its key: the incident it was recorded
on, changed unless the identity was known. -/
theorem persisted_row (hp : r.persisting H c s = some p)
    (hok : (r.runCall H c s).1 = .ok result) :
    ∃ incident, (p.previous = some incident ∨
        (p.previous = none ∧ incident = (r.placeholder H p.snapshot p.now).toDocument)) ∧
      isBlank incident.id = false ∧
      (r.runCall H c s).2.incident r.clusterID (incidentKey H p.snapshot.source) =
        some (if r.known H p s then incident else
          (incidentChange (transition incident p.snapshot p.result p.now)).apply incident) := by
  rw [persisting_eq_some] at hp
  obtain ⟨incident, created, base, hbase, hfind, hblank, hid, ht⟩ := persist_ok hp hok
  have hevals : base.evaluations = s.evaluations := by
    rcases hbase with ⟨-, -, rfl⟩ | ⟨-, -, -, incidents, -, rfl⟩ <;> rfl
  have hknown : r.known H p s = ((base.withSnapshot incident.id p.snapshot).findEvaluation
      (r.recordRequest H c.env incident created p).evaluation.identity).isSome := by
    simp only [known, Store.findEvaluation, Store.withSnapshot_evaluations, hevals, ← hid]
    rfl
  refine ⟨incident, ?_, hblank, ?_⟩
  · rcases hbase with ⟨hprev, -, -⟩ | ⟨hprev, -, hinc, -⟩
    · exact Or.inl hprev
    · exact Or.inr ⟨hprev, hinc⟩
  · rcases Store.transact_eq_ok ht with ⟨⟨e, he⟩, hdone⟩ | ⟨hnone, -, hinc, -, -, -⟩
    · rw [hknown, he, hdone]
      simpa only [Store.incident, Store.withSnapshot_incidents, Option.isSome_some, if_true]
        using hfind
    · rw [hknown, hnone]
      rw [Store.withSnapshot_incidents] at hinc
      exact incident_modify hfind hinc

/-- The incident a pending observation is recorded on does not carry its outcome yet. -/
theorem takesEffect_before (incident : Incident) (hj : Judged H p)
    (hprev : p.previous = some incident ∨ incident.contentHash = "") :
    (incident.status == statusFor p.result && incident.contentHash == p.snapshot.contentHash) =
      false := by
  by_contra hboth
  simp only [Bool.not_eq_false, Bool.and_eq_true, beq_iff_eq] at hboth
  rcases hprev with hprev | hempty
  · have hrec := hj.gate incident hprev hboth.2
    obtain ⟨i, hi, hne⟩ := hj.recovers hrec
    rw [hprev, Option.some.injEq] at hi
    rw [← hi, hboth.1, statusFor, if_pos hrec] at hne
    exact hne rfl
  · have hvisible := contentHash_visible H p.snapshot
    rw [← hj.hash, ← hboth.2, hempty] at hvisible
    revert hvisible
    decide

/-- One call: a persisted observation takes effect unless its identity is known. -/
theorem takesEffect_step (hp : r.persisting H c s = some p)
    (hok : (r.runCall H c s).1 = .ok result) :
    r.takesEffect H p (r.runCall H c s).2 = true ↔ r.known H p s = false := by
  obtain ⟨hj, -, -⟩ := verdict_persist (persisting_eq_some.mp hp)
  obtain ⟨incident, hprev, -, hrow⟩ := persisted_row hp hok
  cases hknown : r.known H p s with
  | true =>
    have hbefore := takesEffect_before incident hj (by
      rcases hprev with hprev | ⟨-, rfl⟩
      · exact Or.inl hprev
      · exact Or.inr rfl)
    simp [takesEffect, hrow, hknown, hbefore]
  | false => simp [takesEffect, hrow, hknown, incidentChange, transition]

end Step

/-- In every run, an observation that goes through `persist` without an error takes effect
exactly when no evaluation of its identity was stored before. -/
theorem persisted_takes_effect_iff (H : Hasher) (r : Reconciler) (calls : List Call) (c : Call)
    (p : Pending) (result : Controller.Result)
    (hp : r.persisting H c (r.after H calls) = some p)
    (hok : (r.runCall H c (r.after H calls)).1 = .ok result) :
    r.takesEffect H p (r.after H (calls ++ [c])) = true ↔
      r.known H p (r.after H calls) = false := by
  rw [after_append]
  exact takesEffect_step hp hok

open Scenario

/-- The first failure of a job is stored as it was observed. -/
theorem failed_job_takes_effect :
    ∃ p, notifying.persisting checksumHasher (jobCall 0 1) (notifying.after checksumHasher []) =
        some p ∧
      (notifying.runCall checksumHasher (jobCall 0 1) (notifying.after checksumHasher [])).1 =
        .ok {} ∧
      notifying.takesEffect checksumHasher p
        (notifying.after checksumHasher ([] ++ [jobCall 0 1])) = true := by
  have hfacts : (notifying.persisting checksumHasher (jobCall 0 1)
      (notifying.after checksumHasher [])).any (fun p =>
        !notifying.known checksumHasher p (notifying.after checksumHasher []) &&
          decide ((notifying.runCall checksumHasher (jobCall 0 1)
            (notifying.after checksumHasher [])).1 = .ok {})) = true := by decide +kernel
  obtain ⟨p, hp, hall⟩ := (Option.any_eq_true _ _).mp hfacts
  simp only [Bool.and_eq_true, Bool.not_eq_true', decide_eq_true_eq] at hall
  exact ⟨p, hp, hall.2, (persisted_takes_effect_iff checksumHasher notifying [] (jobCall 0 1) p {}
    hp hall.2).mpr hall.1⟩

/-- A job fails, is retried, and fails again in the same way. The second failure is reported
as persisted, and the incident stays resolved. -/
theorem flapping_job_stays_resolved :
    ∃ p, notifying.persisting checksumHasher (jobCall 2 1)
        (notifying.after checksumHasher [jobCall 0 1, jobCall 1 0]) = some p ∧
      (notifying.runCall checksumHasher (jobCall 2 1)
        (notifying.after checksumHasher [jobCall 0 1, jobCall 1 0])).1 = .ok {} ∧
      statusFor p.result = .open ∧
      (notifying.after checksumHasher [jobCall 0 1, jobCall 1 0, jobCall 2 1]).incidents.rows.map
        Incident.status = [.resolved] ∧
      notifying.takesEffect checksumHasher p
        (notifying.after checksumHasher [jobCall 0 1, jobCall 1 0, jobCall 2 1]) = false := by
  have hfacts : (notifying.persisting checksumHasher (jobCall 2 1)
      (notifying.after checksumHasher [jobCall 0 1, jobCall 1 0])).any (fun p =>
        decide ((notifying.runCall checksumHasher (jobCall 2 1)
          (notifying.after checksumHasher [jobCall 0 1, jobCall 1 0])).1 = .ok {} ∧
          statusFor p.result = .open ∧
          (notifying.after checksumHasher
            [jobCall 0 1, jobCall 1 0, jobCall 2 1]).incidents.rows.map Incident.status =
              [.resolved] ∧
          notifying.takesEffect checksumHasher p
            (notifying.after checksumHasher [jobCall 0 1, jobCall 1 0, jobCall 2 1]) = false)) =
      true := by decide +kernel
  obtain ⟨p, hp, hall⟩ := (Option.any_eq_true _ _).mp hfacts
  exact ⟨p, hp, of_decide_eq_true hall⟩

end RuleRaven.Controller.Reconciler
