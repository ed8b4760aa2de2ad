import RuleRaven.Rules.Engine

namespace RuleRaven.Rules

open Framework

section Lists

variable {α : Type} {p q : α → Bool} {l l' : List α}

/-- What a search finds is told by the whole list, where all that it could find is told alike. -/
theorem any_find?_eq (h : ∀ a ∈ l, ∀ b ∈ l, p a = true → p b = true → q a = q b) :
    (l.find? p).any q = l.any fun a => p a && q a := by
  cases hfind : l.find? p with
  | none =>
    have hnone := List.find?_eq_none.mp hfind
    symm
    rw [Option.any_none, List.any_eq_false]
    intro a ha hboth
    exact hnone a ha (Bool.and_eq_true_iff.mp hboth).1
  | some a =>
    have hmem := List.mem_of_find?_eq_some hfind
    have hpa : p a = true := List.find?_some hfind
    rw [Option.any_some]
    cases hqa : q a with
    | true =>
      symm
      exact List.any_eq_true.mpr ⟨a, hmem, by rw [hpa, hqa]; rfl⟩
    | false =>
      symm
      rw [List.any_eq_false]
      intro b hb hboth
      obtain ⟨hpb, hqb⟩ := Bool.and_eq_true_iff.mp hboth
      rw [h a hmem b hb hpa hpb, hqb] at hqa
      cases hqa

/-- A search for what is there only once finds it in every order. -/
theorem find?_eq_of_perm (hperm : l'.Perm l)
    (h : ∀ a ∈ l, ∀ b ∈ l, p a = true → p b = true → a = b) : l'.find? p = l.find? p := by
  cases hfind : l.find? p with
  | none =>
    have hnone := List.find?_eq_none.mp hfind
    exact List.find?_eq_none.mpr fun a ha => hnone a (hperm.mem_iff.mp ha)
  | some a =>
    have hmem := List.mem_of_find?_eq_some hfind
    have hpa : p a = true := List.find?_some hfind
    cases hfind' : l'.find? p with
    | none => exact absurd hpa (List.find?_eq_none.mp hfind' a (hperm.mem_iff.mpr hmem))
    | some b =>
      have hmem' := hperm.mem_iff.mp (List.mem_of_find?_eq_some hfind')
      rw [h b hmem' a hmem (List.find?_some hfind') hpa]

end Lists

/-- A workload whose rule comes to look at its conditions. -/
def lacking (s : Snapshot) : Bool :=
  isWorkloadKind s.source.kind && s.workload.any Engine.lacksReplicas

namespace Engine

variable (e : Engine) (now : Time)

/-- The conditions that tell since when a workload is unavailable have all reached the minimum
age, or none of them has. -/
def AgesAlike (conditions : List Condition) : Prop :=
  ∀ c ∈ conditions, ∀ d ∈ conditions, tellsUnavailable c = true → tellsUnavailable d = true →
    e.aged now c.lastTransitionTime = e.aged now d.lastTransitionTime

theorem unavailable_any (conditions : List Condition) :
    (unavailableTransition conditions).any (e.aged now) =
      (conditions.find? tellsUnavailable).any fun c => e.aged now c.lastTransitionTime := by
  rw [unavailableTransition, Option.any_map]

/-- The rule of a workload in one piece. -/
theorem workloadUnavailable_eq (s : Snapshot) : e.workloadUnavailable now s =
    if lacking s && (unavailableTransition s.conditions).any (e.aged now) then
      [⟨"workload-unavailable", "workload has unavailable replicas",
        if s.workload.any (fun state => decide (state.available = 0)) then .critical
        else .warning⟩]
    else [] := by
  unfold workloadUnavailable lacking
  cases s.workload with
  | none => simp
  | some state =>
    cases isWorkloadKind s.source.kind <;> cases hlacks : lacksReplicas state <;>
      cases unavailableTransition s.conditions with
      | none => simp [hlacks]
      | some t => cases haged : e.aged now t <;> simp [hlacks, haged]

section Permutations

variable {e now} {s : Snapshot} {conditions : List Condition} {containers : List ContainerState}

theorem conditionTransition_perm (hdistinct : (s.conditions.map Condition.type).Nodup)
    (hperm : conditions.Perm s.conditions) (conditionType status reason : String) :
    conditionTransition conditions conditionType status reason =
      conditionTransition s.conditions conditionType status reason := by
  unfold conditionTransition
  rw [find?_eq_of_perm hperm]
  intro a ha b hb hpa hpb
  simp only [Bool.and_eq_true, beq_iff_eq] at hpa hpb
  exact List.inj_on_of_nodup_map hdistinct ha hb (hpa.1.1.1.trans hpb.1.1.1.symm)

/-- Two containers raise the severity in either order to the same. -/
theorem crashLoopStep_comm (severity : Severity) (a b : ContainerState) :
    e.crashLoopStep (e.crashLoopStep severity a) b =
      e.crashLoopStep (e.crashLoopStep severity b) a := by
  unfold crashLoopStep
  dsimp only
  split_ifs <;> cases severity <;> simp_all [severityRank]

theorem crashLoopSeverity_perm (hperm : containers.Perm s.containers) :
    e.crashLoopSeverity containers = e.crashLoopSeverity s.containers :=
  hperm.foldl_eq' (fun a _ b _ severity => crashLoopStep_comm severity a b) _

theorem failedJob_perm (hperm : conditions.Perm s.conditions) :
    failedJob { s with conditions := conditions, containers := containers } = failedJob s := by
  unfold failedJob
  rw [hperm.any_eq]

theorem workloadUnavailable_perm (hages : lacking s = true → e.AgesAlike now s.conditions)
    (hperm : conditions.Perm s.conditions) :
    e.workloadUnavailable now { s with conditions := conditions, containers := containers } =
      e.workloadUnavailable now s := by
  rw [workloadUnavailable_eq, workloadUnavailable_eq]
  have hlacking : lacking { s with conditions := conditions, containers := containers } =
      lacking s := rfl
  rw [hlacking]
  cases hs : lacking s with
  | false => rfl
  | true =>
    have hages := hages hs
    have hages' : e.AgesAlike now conditions := fun c hc d hd =>
      hages c (hperm.mem_iff.mp hc) d (hperm.mem_iff.mp hd)
    have hany : (unavailableTransition conditions).any (e.aged now) =
        (unavailableTransition s.conditions).any (e.aged now) := by
      rw [unavailable_any, unavailable_any, any_find?_eq hages, any_find?_eq hages',
        hperm.any_eq]
    rw [hany]

/-- Every rule holds in every order of the lists. -/
theorem ruleMatches_perm (hdistinct : (s.conditions.map Condition.type).Nodup)
    (hages : lacking s = true → e.AgesAlike now s.conditions)
    (hconditions : conditions.Perm s.conditions) (hcontainers : containers.Perm s.containers) :
    e.ruleMatches now { s with conditions := conditions, containers := containers } =
      e.ruleMatches now s := by
  have htransition := conditionTransition_perm hdistinct hconditions
  have hcrash : e.podCrashLoop now { s with conditions := conditions, containers := containers } =
      e.podCrashLoop now s := by
    simp only [podCrashLoop, htransition, crashLoopSeverity_perm hcontainers]
  have hschedule :
      e.podUnschedulable now { s with conditions := conditions, containers := containers } =
        e.podUnschedulable now s := by
    simp only [podUnschedulable, htransition]
  have hpull :
      e.imagePullFailure now { s with conditions := conditions, containers := containers } =
        e.imagePullFailure now s := by
    simp only [imagePullFailure, htransition, hcontainers.any_eq]
  rw [ruleMatches, ruleMatches, hcrash, hschedule, hpull, failedJob_perm hconditions,
    workloadUnavailable_perm hages hconditions]
  rfl

end Permutations

/-- A rule that holds is in the result of a snapshot that is not ignored, and no other rule is. -/
theorem ruleID_matched_iff {s : Snapshot} (previous : Option Incident)
    (hignored : e.ignoredReason s = none) {ruleID : String} (hrule : ruleID ∈ ruleIDs) :
    ruleID ∈ (e.evaluate now s previous).matched.map Match.ruleID ↔
      ∃ m ∈ e.ruleMatches now s, m.ruleID = ruleID := by
  have hrecovered : ruleID ≠ "recovered" := by
    rintro rfl
    revert hrule
    decide
  rcases e.evaluate_cases now s previous with
    ⟨reason, hreason, -⟩ | ⟨-, hnil, -, he⟩ | ⟨-, hnil, -, he⟩ | ⟨-, -, first, rest, hperm, he⟩
  · rw [hreason] at hignored
    cases hignored
  · simp [he, hnil, recoveredResult, hrecovered]
  · simp [he, hnil]
  · rw [he, matchedResult_matched, List.mem_map]
    simp only [hperm.mem_iff]

/-- Of the rules only that of a workload reads the conditions in the order they stand. -/
theorem workload_matched_iff {s : Snapshot} :
    (∃ m ∈ e.ruleMatches now s, m.ruleID = "workload-unavailable") ↔
      lacking s = true ∧ (unavailableTransition s.conditions).any (e.aged now) = true := by
  constructor
  · rintro ⟨m, hm, hid⟩
    rcases mem_ruleMatches.mp hm with h | h | h | h | h | h
    · rw [(mem_podCrashLoop.mp h).2.2.2] at hid
      simp at hid
    · rw [(mem_podUnschedulable.mp h).2.2] at hid
      simp at hid
    · rw [(mem_imagePullFailure.mp h).2.2.2] at hid
      simp at hid
    · rw [mem_failedJob h] at hid
      simp at hid
    · obtain ⟨state, hstate, hkind, hlacks, haged, -⟩ := mem_workloadUnavailable.mp h
      exact ⟨by simp [lacking, hstate, hkind, hlacks], haged⟩
    · obtain ⟨_, _, _, _, _, _, rfl⟩ := mem_warningEvent.mp h
      simp at hid
  · rintro ⟨hlacking, haged⟩
    obtain ⟨hkind, hstate⟩ := Bool.and_eq_true_iff.mp hlacking
    obtain ⟨state, hstate, hlacks⟩ := (Option.any_eq_true _ _).mp hstate
    have hmem := mem_workloadUnavailable.mpr ⟨state, hstate, hkind, hlacks, haged, rfl⟩
    exact ⟨_, mem_ruleMatches.mpr (.inr (.inr (.inr (.inr (.inl hmem))))), rfl⟩

/-- A condition that is put first is the one that is found. -/
theorem unavailableTransition_first {c : Condition} (h : tellsUnavailable c = true)
    (rest : List Condition) :
    unavailableTransition (c :: rest) = some c.lastTransitionTime := by
  rw [unavailableTransition, List.find?_cons_of_pos h]
  rfl

/-- With a condition put first, the result names the rule of the workload exactly when that
condition has reached the minimum age. -/
theorem first_decides {s : Snapshot} (previous : Option Incident)
    (hignored : e.ignoredReason s = none) (hlacking : lacking s = true) {c : Condition}
    (hc : c ∈ s.conditions) (htells : tellsUnavailable c = true) :
    ∃ conditions, conditions.Perm s.conditions ∧
      ("workload-unavailable" ∈ (e.evaluate now { s with conditions := conditions } previous
        ).matched.map Match.ruleID ↔ e.aged now c.lastTransitionTime = true) := by
  obtain ⟨before, after, hsplit⟩ := List.append_of_mem hc
  refine ⟨c :: (before ++ after), ?_, ?_⟩
  · rw [hsplit]
    exact List.perm_middle.symm
  · have hignored' : e.ignoredReason { s with conditions := c :: (before ++ after) } = none :=
      hignored
    have hlacking' : lacking { s with conditions := c :: (before ++ after) } = true := hlacking
    rw [e.ruleID_matched_iff now previous hignored' (by decide), e.workload_matched_iff now,
      unavailableTransition_first htells]
    simp [hlacking']

/-- The result is the same in every order of conditions and containers exactly when the snapshot
is ignored, or lacks no replicas, or its conditions agree on their age. -/
theorem evaluate_order_iff (s : Snapshot) (previous : Option Incident)
    (hdistinct : (s.conditions.map Condition.type).Nodup) :
    (∀ conditions containers, conditions.Perm s.conditions → containers.Perm s.containers →
      e.evaluate now { s with conditions := conditions, containers := containers } previous =
        e.evaluate now s previous) ↔
      (e.ignoredReason s).isSome = true ∨ (lacking s = true → e.AgesAlike now s.conditions) := by
  constructor
  · intro hsame
    cases hignored : e.ignoredReason s with
    | some reason => exact Or.inl rfl
    | none =>
      refine Or.inr fun hlacking c hc d hd hct hdt => ?_
      obtain ⟨cs, hcs, hcm⟩ := e.first_decides now previous hignored hlacking hc hct
      obtain ⟨ds, hds, hdm⟩ := e.first_decides now previous hignored hlacking hd hdt
      have hc' := hsame cs s.containers hcs (List.Perm.refl _)
      have hd' := hsame ds s.containers hds (List.Perm.refl _)
      rw [hc'] at hcm
      rw [hd'] at hdm
      exact Bool.eq_iff_iff.mpr (hcm.symm.trans hdm)
  · intro hagree conditions containers hconditions hcontainers
    have hignored : e.ignoredReason { s with conditions := conditions, containers := containers } =
        e.ignoredReason s := rfl
    unfold evaluate
    rw [hignored]
    cases hreason : e.ignoredReason s with
    | some reason => rfl
    | none =>
      rw [hreason] at hagree
      have hages := hagree.resolve_left Bool.false_ne_true
      rw [ruleMatches_perm hdistinct hages hconditions hcontainers]

section Orders

/-- Rules that ask for a minute of age and three restarts. -/
def minuteOptions : Options where
  crashLoopRestartThreshold := 3
  crashLoopCriticalThreshold := 10
  minimumAge := 60000000000
  eventQuietPeriod := 0

def minuteEngine : Engine := newEngine minuteOptions

/-- A pod with a container that crashes and one that has no image, an hour after both began. -/
def troubledPod : Snapshot where
  source := { clusterID := "c", kind := "Pod", «namespace» := "n", name := "api", uid := "u" }
  observedAt := 7200000000000
  conditions := [
    { type := "Ready", status := "False", lastTransitionTime := 3600000000000 },
    { type := "PodScheduled", status := "False", reason := "Unschedulable",
      lastTransitionTime := 3600000000000 }]
  containers := [
    { name := "api", ready := false, restartCount := 10, state := "waiting",
      reason := "CrashLoopBackOff" },
    { name := "sidecar", ready := false, restartCount := 0, state := "waiting",
      reason := "ImagePullBackOff" }]

theorem troubledPod_reversed :
    (troubledPod.conditions.map Condition.type).Nodup ∧
      minuteEngine.evaluate 7200000000000 { troubledPod with
        conditions := troubledPod.conditions.reverse
        containers := troubledPod.containers.reverse } none =
      minuteEngine.evaluate 7200000000000 troubledPod none :=
  ⟨by decide, (evaluate_order_iff minuteEngine 7200000000000 troubledPod none (by decide)).mpr
    (Or.inr fun h => absurd h (by decide)) _ _ (List.reverse_perm _) (List.reverse_perm _)⟩

/-- A deployment that has been short of a replica for an hour and has stopped to progress a second
ago. -/
def stalledDeployment : Snapshot where
  source := {
    clusterID := "c", kind := "Deployment", «namespace» := "n", name := "api", uid := "u" }
  observedAt := 7200000000000
  conditions := [
    { type := "Available", status := "False", lastTransitionTime := 3600000000000 },
    { type := "Progressing", status := "False", lastTransitionTime := 7199000000000 }]
  workload := some {
    desired := 1, current := 1, ready := 0, available := 0, updated := 1, unavailable := 1 }

/-- With the recent condition first, the critical match of the workload is gone. -/
theorem stalledDeployment_order_matters :
    (stalledDeployment.conditions.map Condition.type).Nodup ∧
      minuteEngine.evaluate 7200000000000 stalledDeployment none = {
        matched := [⟨"workload-unavailable", "workload has unavailable replicas", .critical⟩]
        disposition := .terminal
        decision := some ⟨.critical, .page, "workload has unavailable replicas",
          ["workload-unavailable"], ["workload-unavailable"]⟩ } ∧
      minuteEngine.evaluate 7200000000000 { stalledDeployment with
        conditions := stalledDeployment.conditions.reverse } none =
          { disposition := .noMatch } :=
  ⟨by decide, by decide +kernel, by decide +kernel⟩

end Orders

end Engine

end RuleRaven.Rules
