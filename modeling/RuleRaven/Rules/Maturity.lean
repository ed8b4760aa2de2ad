import RuleRaven.Rules.Engine
import RuleRaven.Kube.Fingerprint

namespace RuleRaven.Rules

open Framework Kube

/-- A condition of this type and status, with this reason unless none is asked for, whatever
its transition time. -/
def hasCondition (conditions : List Condition) (conditionType status reason : String) : Bool :=
  conditions.any fun c =>
    c.type == conditionType && c.status == status && (reason == "" || c.reason == reason)

def hasUnavailable (conditions : List Condition) : Bool :=
  conditions.any fun c => c.status == "False" &&
    (c.type == "Available" || c.type == "Ready" || c.type == "Progressing")

/-- The conditions that carry a transition time. -/
def timed (conditions : List Condition) : List Condition :=
  conditions.filter fun c => !c.lastTransitionTime.isZero

theorem conditionTransition_isSome (conditions : List Condition)
    (conditionType status reason : String) :
    (conditionTransition conditions conditionType status reason).isSome =
      hasCondition (timed conditions) conditionType status reason := by
  rw [Bool.eq_iff_iff]
  simp only [conditionTransition, hasCondition, timed, Option.isSome_map, List.any_filter,
    List.find?_isSome, List.any_eq_true]
  grind

theorem unavailableTransition_isSome (conditions : List Condition) :
    (unavailableTransition conditions).isSome = hasUnavailable (timed conditions) := by
  rw [Bool.eq_iff_iff]
  simp only [unavailableTransition, tellsUnavailable, hasUnavailable, timed, Option.isSome_map,
    List.any_filter, List.find?_isSome, List.any_eq_true]
  grind

namespace Engine

variable (e : Engine)

/-- A container that counts as crash looping. -/
def crashLoops (c : ContainerState) : Bool :=
  c.state == "waiting" && c.reason == "CrashLoopBackOff" &&
    decide (e.options.crashLoopRestartThreshold ≤ c.restartCount.toInt)

/-- The same, restarted often enough to be critical. -/
def crashLoopsCritically (c : ContainerState) : Bool :=
  e.crashLoops c && decide (e.options.crashLoopCriticalThreshold ≤ c.restartCount.toInt)

/-- One container raises the severity to the one it calls for. -/
theorem crashLoopStep_eq (severity : Severity) (c : ContainerState) :
    e.crashLoopStep severity c =
      if e.crashLoopsCritically c then .critical
      else if e.crashLoops c && (severity == .unset || severity == .info) then .warning
      else severity := by
  unfold crashLoopStep crashLoopsCritically crashLoops
  cases severity <;> grind [severityRank]

/-- The loop over the containers finds the maximum. -/
theorem crashLoop_foldl (containers : List ContainerState) (severity : Severity)
    (hseverity : severity ≠ .info) :
    containers.foldl e.crashLoopStep severity =
      if containers.any e.crashLoopsCritically then .critical
      else if containers.any e.crashLoops && severity == .unset then .warning
      else severity := by
  induction containers generalizing severity with
  | nil => rfl
  | cons c containers ih =>
    rw [List.foldl_cons, crashLoopStep_eq, List.any_cons, List.any_cons]
    cases hcritical : e.crashLoopsCritically c with
    | true =>
      rw [if_pos rfl, ih .critical (by decide)]
      simp
    | false =>
      cases hloops : e.crashLoops c with
      | false => simp [ih severity hseverity]
      | true =>
        cases severity with
        | unset => simp [ih .warning]
        | info => exact absurd rfl hseverity
        | warning => simp [ih .warning]
        | critical => simp [ih .critical]

theorem crashLoopSeverity_eq (containers : List ContainerState) :
    e.crashLoopSeverity containers =
      if containers.any e.crashLoops then
        if containers.any e.crashLoopsCritically then .critical else .warning
      else .unset := by
  have hloops : containers.any e.crashLoopsCritically = true →
      containers.any e.crashLoops = true := by
    intro h
    obtain ⟨c, hc, hcritical⟩ := List.any_eq_true.mp h
    exact List.any_eq_true.mpr ⟨c, hc, (Bool.and_eq_true_iff.mp hcritical).1⟩
  rw [crashLoopSeverity, crashLoop_foldl e containers .unset (by decide)]
  cases h : containers.any e.crashLoopsCritically with
  | true => simp [hloops h]
  | false => cases containers.any e.crashLoops <;> rfl

theorem crashLoopSeverity_eq_unset (containers : List ContainerState) :
    e.crashLoopSeverity containers = .unset ↔ containers.any e.crashLoops = false := by
  rw [crashLoopSeverity_eq]
  cases containers.any e.crashLoops with
  | false => simp
  | true => cases containers.any e.crashLoopsCritically <;> simp

/-- Some rule gated by `MinimumAge` holds but for the age of its condition. -/
def ageGated (s : Snapshot) : Bool :=
  (equalFold s.source.kind "Pod" &&
    (hasCondition s.conditions "PodScheduled" "False" "Unschedulable" ||
      hasCondition s.conditions "Ready" "False" "" &&
        (s.containers.any e.crashLoops || s.containers.any pullFails))) ||
  (isWorkloadKind s.source.kind && s.workload.any lacksReplicas && hasUnavailable s.conditions)

/-- Such a rule holds but for age, and its condition says since when. -/
def ripens (s : Snapshot) : Bool := e.ageGated { s with conditions := timed s.conditions }

theorem ageGated_of_ripens {s : Snapshot} (h : e.ripens s = true) : e.ageGated s = true := by
  have hany : ∀ p : Condition → Bool, (timed s.conditions).any p = true →
      s.conditions.any p = true := by
    intro p hp
    simp only [timed, List.any_filter, List.any_eq_true, Bool.and_eq_true] at hp ⊢
    obtain ⟨c, hc, -, hpc⟩ := hp
    exact ⟨c, hc, hpc⟩
  simp only [ripens, ageGated, hasCondition, hasUnavailable, Bool.or_eq_true,
    Bool.and_eq_true] at h ⊢
  rcases h with ⟨hkind, hcond | ⟨hcond, hcontainers⟩⟩ | ⟨hkind, hcond⟩
  · exact Or.inl ⟨hkind, Or.inl (hany _ hcond)⟩
  · exact Or.inl ⟨hkind, Or.inr ⟨hany _ hcond, hcontainers⟩⟩
  · exact Or.inr ⟨hkind, hany _ hcond⟩

section Fingerprint

variable {s t : Snapshot} (h : canonical s = canonical t)

include h

theorem ageGated_congr : e.ageGated s = e.ageGated t := by
  have hcond : ∀ conditionType status reason,
      hasCondition s.conditions conditionType status reason =
        hasCondition t.conditions conditionType status reason := fun conditionType status reason =>
    canonical_conditions_any h fun c =>
      c.type == conditionType && c.status == status && (reason == "" || c.reason == reason)
  have hunavailable : hasUnavailable s.conditions = hasUnavailable t.conditions :=
    canonical_conditions_any h fun c => c.status == "False" &&
      (c.type == "Available" || c.type == "Ready" || c.type == "Progressing")
  simp only [ageGated, canonical_kind h, canonical_workload h, hcond, hunavailable,
    canonical_containers_any h]

theorem failedJob_congr : failedJob s = failedJob t := by
  have hfailed := canonical_conditions_any h fun c => c.type == "Failed" && c.status == "True"
  simp only [CanonicalCondition.ofCondition] at hfailed
  simp only [failedJob, canonical_kind h, canonical_job h, hfailed]

/-- The fingerprint leaves the namespace out, so it is asked for here. -/
theorem ignoredReason_congr (hns : s.source.namespace = t.source.namespace) :
    e.ignoredReason s = e.ignoredReason t := by
  simp only [ignoredReason, hns, canonical_labels h]

end Fingerprint

section Time

variable {e} {s : Snapshot} {now : Time}

theorem aged_of_saturated (transition t : Int) (h : transition + (2 ^ 63 - 1) ≤ t) :
    e.aged t transition = true := by
  have hsub : (Time.sub t transition).toInt = 2 ^ 63 - 1 := by
    rw [Time.sub_toInt]
    omega
  have hmin := Int64.toInt_lt e.options.minimumAge
  simp only [aged, Bool.not_eq_true', decide_eq_false_iff_not, Int64.lt_iff_toInt_lt]
  omega

theorem eventIsQuiet_mono {later : Time} (hle : now ≤ later) (h : e.eventIsQuiet now s = true) :
    e.eventIsQuiet later s = true := by
  unfold eventIsQuiet at h ⊢
  split at h
  · simp at h
  · split_ifs at h ⊢
    simp only [Bool.not_eq_true', decide_eq_false_iff_not] at h ⊢
    exact fun hlt => h (lt_of_le_of_lt hle hlt)

/-- A rule that holds is gated by age, or the job rule, or the event rule. -/
theorem ruleMatches_ne_nil (h : e.ruleMatches now s ≠ []) :
    e.ripens s = true ∨ failedJob s ≠ [] ∨ e.warningEvent now s ≠ [] := by
  obtain ⟨m, hm⟩ := List.exists_mem_of_ne_nil _ h
  have hready : (conditionTransition s.conditions "Ready" "False" "").any (e.aged now) = true →
      hasCondition (timed s.conditions) "Ready" "False" "" = true := by
    intro hany
    rw [← conditionTransition_isSome]
    exact Option.isSome_of_any hany
  rcases mem_ruleMatches.mp hm with hm | hm | hm | hm | hm | hm
  · obtain ⟨hkind, hany, hsev, -⟩ := mem_podCrashLoop.mp hm
    have hloops : s.containers.any e.crashLoops = true := by
      simpa [crashLoopSeverity_eq_unset] using hsev
    left
    simp [ripens, ageGated, hkind, hready hany, hloops]
  · obtain ⟨hkind, hany, -⟩ := mem_podUnschedulable.mp hm
    have hcond :
        hasCondition (timed s.conditions) "PodScheduled" "False" "Unschedulable" = true := by
      rw [← conditionTransition_isSome]
      exact Option.isSome_of_any hany
    left
    simp [ripens, ageGated, hkind, hcond]
  · obtain ⟨hkind, hany, hpull, -⟩ := mem_imagePullFailure.mp hm
    left
    simp [ripens, ageGated, hkind, hready hany, hpull]
  · exact Or.inr (Or.inl (List.ne_nil_of_mem hm))
  · obtain ⟨state, hw, hkind, hlacks, hany, -⟩ := mem_workloadUnavailable.mp hm
    have hcond : hasUnavailable (timed s.conditions) = true := by
      rw [← unavailableTransition_isSome]
      exact Option.isSome_of_any hany
    left
    simp [ripens, ageGated, hw, hkind, hlacks, hcond]
  · exact Or.inr (Or.inr (List.ne_nil_of_mem hm))

/-- Every transition has aged at some later time. -/
theorem aged_later (now : Time) (transition : Option Time) (h : transition.isSome = true) :
    ∃ t, now < t ∧ transition.any (e.aged t) = true := by
  obtain ⟨u, rfl⟩ := Option.isSome_iff_exists.mp h
  refine ⟨max (now + 1) (u + (2 ^ 63 - 1)), ?_, ?_⟩
  · exact lt_of_lt_of_le (Int.lt_succ now) (le_max_left _ _)
  · exact aged_of_saturated u _ (le_max_right _ _)

theorem ripens_matches (now : Time) (h : e.ripens s = true) :
    ∃ t, now < t ∧ e.ruleMatches t s ≠ [] := by
  simp only [ripens, ageGated, Bool.or_eq_true, Bool.and_eq_true] at h
  rcases h with ⟨hkind, hcond | ⟨hcond, hcontainers⟩⟩ | ⟨⟨hkind, hworkload⟩, hcond⟩
  · rw [← conditionTransition_isSome] at hcond
    obtain ⟨t, hlt, hany⟩ := aged_later (e := e) now _ hcond
    have hm := mem_podUnschedulable.mpr ⟨hkind, hany, rfl⟩
    exact ⟨t, hlt, List.ne_nil_of_mem (mem_ruleMatches.mpr (.inr (.inl hm)))⟩
  · rw [← conditionTransition_isSome] at hcond
    obtain ⟨t, hlt, hany⟩ := aged_later (e := e) now _ hcond
    refine ⟨t, hlt, ?_⟩
    rcases hcontainers with hloops | hpull
    · have hsev : e.crashLoopSeverity s.containers ≠ .unset := by
        rw [Ne, crashLoopSeverity_eq_unset, hloops]
        decide
      have hm := mem_podCrashLoop.mpr ⟨hkind, hany, hsev, rfl⟩
      exact List.ne_nil_of_mem (mem_ruleMatches.mpr (.inl hm))
    · have hm := mem_imagePullFailure.mpr ⟨hkind, hany, hpull, rfl⟩
      exact List.ne_nil_of_mem (mem_ruleMatches.mpr (.inr (.inr (.inl hm))))
  · rw [← unavailableTransition_isSome] at hcond
    obtain ⟨t, hlt, hany⟩ := aged_later (e := e) now _ hcond
    obtain ⟨state, hw, hlacks⟩ := (Option.any_eq_true _ _).mp hworkload
    have hm := mem_workloadUnavailable.mpr ⟨state, hw, hkind, hlacks, hany, rfl⟩
    exact ⟨t, hlt, List.ne_nil_of_mem
      (mem_ruleMatches.mpr (.inr (.inr (.inr (.inr (.inl hm))))))⟩

/-- Where no rule holds now, one will hold on the unchanged snapshot exactly when it is only
waiting for its condition to age: jobs do not depend on the clock and events only fall
silent. -/
theorem matches_later_iff (hnow : e.ruleMatches now s = []) :
    (∃ t, now < t ∧ e.ruleMatches t s ≠ []) ↔ e.ripens s = true := by
  refine ⟨?_, ripens_matches now⟩
  rintro ⟨t, hlt, hne⟩
  have hnone : ∀ m, m ∉ e.ruleMatches now s := by simp [hnow]
  rcases ruleMatches_ne_nil hne with hripe | hjob | hevent
  · exact hripe
  · obtain ⟨m, hm⟩ := List.exists_mem_of_ne_nil _ hjob
    exact absurd (mem_ruleMatches.mpr (.inr (.inr (.inr (.inl hm))))) (hnone m)
  · obtain ⟨m, hm⟩ := List.exists_mem_of_ne_nil _ hevent
    obtain ⟨event, hev, hkind, htype, hquiet, hreason, hm⟩ := mem_warningEvent.mp hm
    have hquiet' : e.eventIsQuiet now s = false := by
      by_contra hq
      rw [Bool.not_eq_false] at hq
      rw [eventIsQuiet_mono (le_of_lt hlt) hq] at hquiet
      exact Bool.noConfusion hquiet
    have hm' := mem_warningEvent.mpr ⟨event, hev, hkind, htype, hquiet', hreason, hm⟩
    exact absurd (mem_ruleMatches.mpr (.inr (.inr (.inr (.inr (.inr hm')))))) (hnone m)

end Time

end Engine

end RuleRaven.Rules
