import RuleRaven.Kube.Material

namespace RuleRaven.Kube

open Framework

/-- Every order that a sort by the comparison may leave, stable or not, is the given one. -/
def SoleOrder {α : Type} (less : α → α → Bool) (items result : List α) : Prop :=
  ∀ order : List α, order.Perm items → order.Pairwise (fun a b => less b a = false) →
    order = result

theorem conditionBefore_iff (a b : Condition) : conditionBefore a b = true ↔
    toLex (a.type, toLex (a.status, a.reason)) < toLex (b.type, toLex (b.status, b.reason)) :=
  lexLess_iff (lexLess_iff decide_eq_true_iff)

theorem containerBefore_iff (a b : ContainerState) :
    containerBefore a b = true ↔ a.name < b.name := decide_eq_true_iff

/-- Conditions of different types have one order. -/
theorem conditions_told {conditions : List Condition}
    (h : (conditions.map Condition.type).Nodup) : ∀ a ∈ conditions, ∀ b ∈ conditions,
      toLex (a.type, toLex (a.status, a.reason)) = toLex (b.type, toLex (b.status, b.reason)) →
        a = b := by
  intro a ha b hb hab
  have htype : a.type = b.type := congrArg (fun key => (ofLex key).1) hab
  exact List.inj_on_of_nodup_map h ha hb htype

/-- The conditions and container statuses of a typed object. -/
def Object.statusConditions : Object → List StatusCondition
  | .pod o => o.conditions
  | .deployment o => o.conditions
  | .statefulSet o => o.conditions
  | .daemonSet o => o.conditions
  | .job o => o.conditions
  | _ => []

def Object.containerStatuses : Object → List ContainerStatus
  | .pod o => o.containerStatuses
  | _ => []

/-- The same object, with its conditions and container statuses listed in another order. -/
inductive Object.Relists : Object → Object → Prop
  | pod (o : Pod) (conditions : List StatusCondition) (statuses : List ContainerStatus)
      (hconditions : conditions.Perm o.conditions) (hstatuses : statuses.Perm o.containerStatuses) :
      Relists (.pod { o with conditions := conditions, containerStatuses := statuses }) (.pod o)
  | deployment (o : Deployment) (conditions : List StatusCondition)
      (hconditions : conditions.Perm o.conditions) :
      Relists (.deployment { o with conditions := conditions }) (.deployment o)
  | statefulSet (o : StatefulSet) (conditions : List StatusCondition)
      (hconditions : conditions.Perm o.conditions) :
      Relists (.statefulSet { o with conditions := conditions }) (.statefulSet o)
  | daemonSet (o : DaemonSet) (conditions : List StatusCondition)
      (hconditions : conditions.Perm o.conditions) :
      Relists (.daemonSet { o with conditions := conditions }) (.daemonSet o)
  | job (o : Job) (conditions : List StatusCondition)
      (hconditions : conditions.Perm o.conditions) :
      Relists (.job { o with conditions := conditions }) (.job o)

/-- No condition type and no container name comes twice. -/
def Object.Distinct (object : Object) : Prop :=
  (object.statusConditions.map StatusCondition.type).Nodup ∧
    (object.containerStatuses.map ContainerStatus.name).Nodup

section Sorting

variable {conditions others : List StatusCondition} {statuses otherStatuses : List ContainerStatus}

theorem conditionTypes (conditions : List StatusCondition) :
    (conditions.map StatusCondition.toCondition).map Condition.type =
      conditions.map StatusCondition.type := by
  rw [List.map_map]
  rfl

theorem containerNames (statuses : List ContainerStatus) :
    (statuses.map ContainerStatus.toContainerState).map ContainerState.name =
      statuses.map ContainerStatus.name := by
  rw [List.map_map]
  rfl

theorem sortConditions_soleOrder (h : (conditions.map StatusCondition.type).Nodup) :
    SoleOrder conditionBefore (conditions.map StatusCondition.toCondition)
      (sortConditions (conditions.map StatusCondition.toCondition)) := by
  intro order hperm hsorted
  rw [← conditionTypes] at h
  exact eq_sortSlice _ conditionBefore_iff hperm hsorted (conditions_told h)

theorem sortContainers_soleOrder (h : (statuses.map ContainerStatus.name).Nodup) :
    SoleOrder containerBefore (statuses.map ContainerStatus.toContainerState)
      (sortSlice containerBefore (statuses.map ContainerStatus.toContainerState)) := by
  intro order hperm hsorted
  rw [← containerNames] at h
  exact eq_sortSlice _ containerBefore_iff hperm hsorted (List.inj_on_of_nodup_map h)

theorem sortConditions_perm (hperm : others.Perm conditions)
    (h : (conditions.map StatusCondition.type).Nodup) :
    sortConditions (others.map StatusCondition.toCondition) =
      sortConditions (conditions.map StatusCondition.toCondition) := by
  rw [← conditionTypes] at h
  exact (sortSlice_eq_of_perm _ conditionBefore_iff (hperm.symm.map _) (conditions_told h)).symm

theorem sortContainers_perm (hperm : otherStatuses.Perm statuses)
    (h : (statuses.map ContainerStatus.name).Nodup) :
    sortSlice containerBefore (otherStatuses.map ContainerStatus.toContainerState) =
      sortSlice containerBefore (statuses.map ContainerStatus.toContainerState) := by
  rw [← containerNames] at h
  exact (sortSlice_eq_of_perm _ containerBefore_iff (hperm.symm.map _)
    (List.inj_on_of_nodup_map h)).symm

end Sorting

namespace Normalizer

variable (n : Normalizer) {object relisted : Object} (observedAt : Time)

/-- The description of an object does not depend on how its parts are listed. -/
theorem describe_relists (h : relisted.Relists object) (hd : object.Distinct) :
    n.describe relisted observedAt = n.describe object observedAt := by
  obtain ⟨htypes, hnames⟩ := hd
  cases h with
  | pod o conditions statuses hconditions hstatuses =>
    have hc := sortConditions_perm hconditions htypes
    have hs := sortContainers_perm hstatuses hnames
    simp only [describe, normalizePod, hc, hs]
  | deployment o conditions hconditions =>
    simp only [describe, normalizeDeployment, sortConditions_perm hconditions htypes]
  | statefulSet o conditions hconditions =>
    simp only [describe, normalizeStatefulSet, sortConditions_perm hconditions htypes]
  | daemonSet o conditions hconditions =>
    simp only [describe, normalizeDaemonSet, sortConditions_perm hconditions htypes]
  | job o conditions hconditions =>
    simp only [describe, normalizeJob, sortConditions_perm hconditions htypes]

/-- Conditions and containers of a snapshot, for an object of the kinds that can be relisted. -/
theorem describe_lists (h : relisted.Relists object) {s : Snapshot}
    (hs : n.describe object observedAt = .ok s) :
    s.conditions = sortConditions (object.statusConditions.map StatusCondition.toCondition) ∧
      s.containers = sortSlice containerBefore
        (object.containerStatuses.map ContainerStatus.toContainerState) := by
  cases h with
  | pod => cases hs; exact ⟨rfl, rfl⟩
  | deployment => cases hs; exact ⟨rfl, rfl⟩
  | statefulSet => cases hs; exact ⟨rfl, rfl⟩
  | daemonSet => cases hs; exact ⟨rfl, rfl⟩
  | job => cases hs; exact ⟨rfl, rfl⟩

end Normalizer

/-- A snapshot and what the rules make of it do not depend on the order in which the conditions
and container statuses are listed. None of the four sorts on the way leaves a choice. -/
theorem observation_unordered (n : Normalizer) (H : Hasher) (e : Rules.Engine)
    {object relisted : Object} (h : relisted.Relists object) (hd : object.Distinct)
    (observedAt now : Time) (previous : Option Incident) :
    n.normalize H relisted observedAt = n.normalize H object observedAt ∧
    (n.normalize H relisted observedAt).map (e.evaluate now · previous) =
      (n.normalize H object observedAt).map (e.evaluate now · previous) ∧
    ∀ s, n.normalize H object observedAt = .ok s →
      SoleOrder conditionBefore (object.statusConditions.map StatusCondition.toCondition)
        s.conditions ∧
      SoleOrder containerBefore (object.containerStatuses.map ContainerStatus.toContainerState)
        s.containers ∧
      SoleOrder conditionLess (s.conditions.map CanonicalCondition.ofCondition)
        (canonical s).conditions ∧
      SoleOrder containerLess s.containers (canonical s).containers := by
  have hdescribe := n.describe_relists observedAt h hd
  have hnormalize : n.normalize H relisted observedAt = n.normalize H object observedAt := by
    unfold Normalizer.normalize
    rw [hdescribe]
  refine ⟨hnormalize, by rw [hnormalize], ?_⟩
  intro s hs
  obtain ⟨described, hdescribed, rfl, _⟩ := Normalizer.normalize_eq_ok hs
  obtain ⟨hconditions, hcontainers⟩ := n.describe_lists observedAt h hdescribed
  have hnames : DistinctContainers described := by
    unfold DistinctContainers
    rw [hcontainers, ((sortSlice_perm _ _).map _).nodup_iff, containerNames]
    exact hd.2
  refine ⟨?_, ?_, ?_, ?_⟩
  · dsimp only
    rw [hconditions]
    exact sortConditions_soleOrder hd.1
  · dsimp only
    rw [hcontainers]
    exact sortContainers_soleOrder hd.2
  · intro order hperm hsorted
    exact eq_sortSlice conditionKey conditionLess_iff hperm hsorted
      fun a _ b _ hab => conditionKey_injective hab
  · intro order hperm hsorted
    apply eq_sortSlice containerKey containerLess_iff hperm hsorted
    intro a ha b hb hab
    have hname : a.name = b.name := congrArg (fun key => (ofLex key).1) hab
    exact List.inj_on_of_nodup_map hnames ha hb hname

section Example

open Controller.Scenario

/-- A pod that waits for a node, with two containers that crash. -/
def pairedPod : Pod :=
  { metadata := metadata
    conditions := [unschedulable, notReady 95]
    containerStatuses := [crashing, { crashing with name := "sidecar" }] }

def smallNormalizer : Normalizer := { clusterID := "c", allowedLabels := [], maxBytes := 4096 }

theorem pairedPod_reversed :
    (Object.pod pairedPod).Distinct ∧
      (smallNormalizer.normalize checksumHasher (.pod pairedPod) noon).isOk = true ∧
      smallNormalizer.normalize checksumHasher (.pod { pairedPod with
        conditions := pairedPod.conditions.reverse
        containerStatuses := pairedPod.containerStatuses.reverse }) noon =
      smallNormalizer.normalize checksumHasher (.pod pairedPod) noon := by
  have hd : (Object.pod pairedPod).Distinct := by
    constructor <;> decide
  have hrelists := Object.Relists.pod pairedPod _ _ (List.reverse_perm _) (List.reverse_perm _)
  exact ⟨hd, by decide +kernel,
    (observation_unordered smallNormalizer checksumHasher engine hrelists hd noon noon none).1⟩

end Example

end RuleRaven.Kube
