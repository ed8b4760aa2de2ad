import RuleRaven.Controller.Scenario
import RuleRaven.Rules.Maturity

namespace RuleRaven.Controller

open Framework Kube Rules

/-- A rule result that reports a match: it is no recovery, and not the absence of one. -/
def reportsMatch (result : Rules.Result) : Bool :=
  result.disposition != .noMatch && !isRecovery result

theorem reportsMatch_evaluate {e : Engine} {now : Time} {s : Snapshot}
    {previous : Option Incident} :
    reportsMatch (e.evaluate now s previous) = true ↔
      e.ignoredReason s ≠ none ∨ e.ruleMatches now s ≠ [] := by
  simp only [reportsMatch, Bool.and_eq_true, bne_iff_ne, Bool.not_eq_true', ne_eq,
    noMatch_evaluate, Bool.eq_false_iff, isRecovery_evaluate]
  constructor
  · rintro ⟨hno, hrec⟩
    by_contra hquiet
    simp only [not_or, not_not] at hquiet
    obtain ⟨hign, hnil⟩ := hquiet
    refine hno ⟨hign, hnil, fun i hi hopen => hrec ⟨hign, hnil, i, hi, hopen⟩⟩
  · intro hspeaks
    refine ⟨fun h => ?_, fun h => ?_⟩
    · exact hspeaks.elim (absurd h.1) (absurd h.2.1)
    · exact hspeaks.elim (absurd h.1) (absurd h.2.1)

theorem reportsMatch_of_semantic {e : Engine} {now : Time} {s : Snapshot}
    {previous : Option Incident} (h : (e.evaluate now s previous).disposition = .semantic) :
    reportsMatch (e.evaluate now s previous) = true := by
  rw [reportsMatch_evaluate]
  rcases e.evaluate_cases now s previous with
    ⟨reason, hr, -⟩ | ⟨-, -, -, he⟩ | ⟨-, -, -, he⟩ | ⟨-, hm, -⟩
  · exact Or.inl (by simp [hr])
  · simp [he, Engine.recoveredResult] at h
  · simp [he] at h
  · exact Or.inr hm

/-- The status that a match leads to. -/
theorem statusFor_evaluate {e : Engine} {now : Time} {s : Snapshot} {previous : Option Incident}
    (h : reportsMatch (e.evaluate now s previous) = true) :
    statusFor (e.evaluate now s previous) =
      if e.ignoredReason s = none then .open else .suppressed := by
  rcases e.evaluate_cases now s previous with
    ⟨reason, hr, he⟩ | ⟨-, -, -, he⟩ | ⟨-, -, -, he⟩ | ⟨hr, -, first, rest, hperm, he⟩
  · rw [he, hr]
    rfl
  · simp [he, reportsMatch, isRecovery_recovered] at h
  · simp [he, reportsMatch] at h
  · have hrec := isRecovery_matched hperm
    rw [he, hr, if_pos rfl, statusFor, hrec]
    rcases Engine.matchedResult_disposition first rest with hd | hd <;> simp [hd]

/-- Only a result that goes to a provider asks for another look. -/
theorem eventRequeue_eq_zero {snapshot : Snapshot} {now : Time} {result : Rules.Result}
    {quietPeriod : Duration} (h : result.disposition ≠ .semantic) :
    eventRequeue snapshot now result quietPeriod = 0 := by
  unfold eventRequeue
  split
  · rfl
  · rw [if_pos (Or.inl h)]

namespace Reconciler

section Requeue

variable {H : Hasher} {r : Reconciler} {c : Call} {s : Store}

/-- The requeue of a judgement, settled or persisted, is that of its rule result or none. -/
theorem judge_requeue {snapshot : Snapshot} {previous : Option Incident} {engineNow : Time}
    (now : Time)
    (h : (r.rules.evaluate engineNow snapshot previous).disposition ≠ .semantic) :
    match r.judge H snapshot previous now engineNow with
    | .settled result => result.requeueAfter = 0
    | .persist p => p.requeue = 0 := by
  unfold judge
  dsimp only
  split_ifs <;> first | rfl | exact eventRequeue_eq_zero h

/-- Where no rule speaks, `Reconcile` returns no time for another look. -/
theorem requeueAfter_eq_zero {snapshot : Snapshot} {result : Controller.Result}
    (hsnap : r.observed H c = .ok snapshot) (hok : (r.runCall H c s).1 = .ok result)
    (hquiet : reportsMatch (r.rules.evaluate c.env.clock snapshot
      (s.incident r.clusterID (incidentKey H snapshot.source))) = false) :
    result.requeueAfter = 0 := by
  have hdisp : (r.rules.evaluate c.env.clock snapshot
      (s.incident r.clusterID (incidentKey H snapshot.source))).disposition ≠ .semantic := by
    intro hd
    rw [reportsMatch_of_semantic hd] at hquiet
    cases hquiet
  have hzero := judge_requeue (H := H) c.env.clock hdisp
  have hv := verdict_observed (s := s) hsnap
  cases hj : r.judge H snapshot (s.incident r.clusterID (incidentKey H snapshot.source))
      c.env.clock c.env.clock with
  | settled done =>
    rw [hj] at hzero hv
    rw [runCall_settled hv] at hok
    cases hok
    exact hzero
  | persist p =>
    rw [hj] at hzero hv
    rw [runCall_persist hv] at hok
    cases hrun : (r.runPersist H c.env p s).1 with
    | error err =>
      rw [hrun] at hok
      cases hok
    | ok _ =>
      rw [hrun] at hok
      cases hok
      exact hzero

end Requeue

/-- Whatever is stored: where `Reconcile` reports no match on a snapshot that will come to
match if left alone, it asks for another look. This is so exactly when no rule is waiting for
its condition to age. -/
theorem matures_seen_iff (H : Hasher) (r : Reconciler) (c : Call) (s : Store)
    (snapshot : Snapshot) (result : Controller.Result)
    (hsnap : r.observed H c = .ok snapshot) (hok : (r.runCall H c s).1 = .ok result) :
    (reportsMatch (r.rules.evaluate c.env.clock snapshot
        (s.incident r.clusterID (incidentKey H snapshot.source))) = false →
      (∃ t, c.env.clock < t ∧ reportsMatch (r.rules.evaluate t snapshot
        (s.incident r.clusterID (incidentKey H snapshot.source))) = true) →
      0 < result.requeueAfter) ↔
    ¬(r.rules.ignoredReason snapshot = none ∧ r.rules.ruleMatches c.env.clock snapshot = [] ∧
      r.rules.ripens snapshot = true) := by
  have hquiet : reportsMatch (r.rules.evaluate c.env.clock snapshot
      (s.incident r.clusterID (incidentKey H snapshot.source))) = false ↔
        r.rules.ignoredReason snapshot = none ∧
          r.rules.ruleMatches c.env.clock snapshot = [] := by
    rw [Bool.eq_false_iff, Ne, reportsMatch_evaluate, not_or, not_not, not_not]
  constructor
  · rintro hseen ⟨hign, hnil, hripe⟩
    have hno := hquiet.mpr ⟨hign, hnil⟩
    obtain ⟨t, hlt, hmatches⟩ := (Engine.matches_later_iff hnil).mpr hripe
    have hpos := hseen hno ⟨t, hlt, reportsMatch_evaluate.mpr (Or.inr hmatches)⟩
    rw [requeueAfter_eq_zero hsnap hok hno] at hpos
    exact absurd hpos (by decide)
  · rintro hripe hno ⟨t, hlt, hmatch⟩
    obtain ⟨hign, hnil⟩ := hquiet.mp hno
    have hlater := (reportsMatch_evaluate.mp hmatch).resolve_left (not_not.mpr hign)
    exact absurd ⟨hign, hnil, (Engine.matches_later_iff hnil).mp ⟨t, hlt, hlater⟩⟩ hripe

open Scenario

/-- A pod cannot be scheduled for a full minute. The rule of its condition speaks, so there is no
other look to ask for. -/
theorem unschedulable_pod_seen :
    ∃ snapshot, notifying.observed checksumHasher (podCall 60 [unschedulable] []) =
        .ok snapshot ∧
      (notifying.runCall checksumHasher (podCall 60 [unschedulable] []) {}).1 = .ok {} ∧
      notifying.rules.ripens snapshot = true ∧
      notifying.rules.ruleMatches (noon + 60 * 1000000000) snapshot ≠ [] ∧
      (reportsMatch (notifying.rules.evaluate (noon + 60 * 1000000000) snapshot none) = false →
        (∃ t, noon + 60 * 1000000000 < t ∧
          reportsMatch (notifying.rules.evaluate t snapshot none) = true) →
        0 < ({} : Controller.Result).requeueAfter) := by
  have hfacts : (notifying.observed checksumHasher
      (podCall 60 [unschedulable] [])).toOption.any (fun snapshot =>
        decide ((notifying.runCall checksumHasher (podCall 60 [unschedulable] []) {}).1 = .ok {} ∧
          notifying.rules.ripens snapshot = true ∧
          notifying.rules.ruleMatches (noon + 60 * 1000000000) snapshot ≠ [])) = true := by
    decide +kernel
  obtain ⟨snapshot, hsnap, hall⟩ := (Option.any_eq_true _ _).mp hfacts
  obtain ⟨hok, hripe, hmatches⟩ := of_decide_eq_true hall
  refine ⟨snapshot, ok_of_toOption hsnap, hok, hripe, hmatches, ?_⟩
  exact (matures_seen_iff checksumHasher notifying (podCall 60 [unschedulable] []) {} snapshot {}
    (ok_of_toOption hsnap) hok).mpr fun hunseen => hmatches hunseen.2.1

/-- A pod cannot be scheduled for half a minute. It will be reported after a full one, but
`Reconcile` asks for no further look at it. -/
theorem unschedulable_pod_unseen :
    ∃ snapshot, notifying.observed checksumHasher (podCall 30 [unschedulable] []) =
        .ok snapshot ∧
      (notifying.runCall checksumHasher (podCall 30 [unschedulable] []) {}).1 = .ok {} ∧
      reportsMatch (notifying.rules.evaluate (noon + 30 * 1000000000) snapshot none) = false ∧
      reportsMatch (notifying.rules.evaluate (noon + 60 * 1000000000) snapshot none) = true ∧
      ¬0 < ({} : Controller.Result).requeueAfter := by
  have hfacts : (notifying.observed checksumHasher
      (podCall 30 [unschedulable] [])).toOption.any (fun snapshot =>
        decide ((notifying.runCall checksumHasher (podCall 30 [unschedulable] []) {}).1 = .ok {} ∧
          reportsMatch (notifying.rules.evaluate (noon + 30 * 1000000000) snapshot none) = false ∧
          reportsMatch (notifying.rules.evaluate (noon + 60 * 1000000000) snapshot none) = true ∧
          ¬0 < ({} : Controller.Result).requeueAfter)) = true := by decide +kernel
  obtain ⟨snapshot, hsnap, hall⟩ := (Option.any_eq_true _ _).mp hfacts
  exact ⟨snapshot, ok_of_toOption hsnap, of_decide_eq_true hall⟩

end Reconciler

end RuleRaven.Controller
