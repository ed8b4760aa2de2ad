import RuleRaven.Kube.Relisting
import RuleRaven.Rules.Ordering
import RuleRaven.Rules.WellFormed

namespace RuleRaven.Kube

open Framework Rules

/-- Desired and available replicas of a workload. -/
def Object.replicas : Object → Option (Int32 × Int32)
  | .deployment o => some (o.replicas.getD 1, o.availableReplicas)
  | .statefulSet o => some (o.replicas.getD 1, o.availableReplicas)
  | .daemonSet o => some (o.desiredNumberScheduled, o.numberAvailable)
  | _ => none

/-- The status of a deployment or daemon set counts as unavailable what is not available. -/
def Object.Counted : Object → Prop
  | .deployment o =>
    o.unavailableReplicas.toInt = (o.replicas.getD 1).toInt - o.availableReplicas.toInt
  | .daemonSet o =>
    o.numberUnavailable.toInt = o.desiredNumberScheduled.toInt - o.numberAvailable.toInt
  | _ => True

/-- A condition that tells of unavailability, whatever its transition time. -/
def StatusCondition.unavailable (c : StatusCondition) : Bool :=
  c.status == "False" && (c.type == "Available" || c.type == "Ready" || c.type == "Progressing")

/-- A workload that has been short of available replicas for the minimum age, as its status and
its conditions tell. Its kind is its own, or left empty as typed clients do. -/
structure Object.Short (object : Object) (desired available : Int32) (minimumAge : Duration)
    (now : Time) : Prop where
  replicas_eq : object.replicas = some (desired, available)
  kind_eq : object.header.kind = "" ∨ object.header.kind = object.resource
  desired_pos : 0 < desired
  available_lt : available < desired
  counted : object.Counted
  told : ∃ c ∈ object.statusConditions, c.unavailable = true
  aged : ∀ c ∈ object.statusConditions, c.unavailable = true →
    c.lastTransitionTime ≠ 0 ∧ c.lastTransitionTime.add minimumAge ≤ now

/-- What the count of a stateful set depends on: its replicas that are not ready, and that their
number does not wrap. -/
def Object.CountsUnready : Object → Prop
  | .statefulSet o =>
    o.readyReplicas.toInt < (o.replicas.getD 1).toInt ∧
      (o.replicas.getD 1).toInt - o.readyReplicas.toInt < 2 ^ 31
  | _ => True

theorem nonnegativeDifference_pos (left right : Int32) :
    0 < nonnegativeDifference left right ↔
      right.toInt < left.toInt ∧ left.toInt - right.toInt < 2 ^ 31 := by
  have hzero : (0 : Int32).toInt = 0 := rfl
  have hleft := left.toInt_lt
  have hright := right.le_toInt
  unfold nonnegativeDifference
  rw [Int32.lt_iff_toInt_lt, hzero]
  split_ifs with hle
  · rw [Int32.le_iff_toInt_le] at hle
    rw [hzero]
    omega
  · rw [Int32.le_iff_toInt_le] at hle
    rw [Int32.toInt_sub]
    by_cases hfits : left.toInt - right.toInt < 2 ^ 31
    · rw [Int.bmod_eq_of_le (by omega) (by omega)]
      omega
    · -- the difference wraps to a negative number
      have hwrap : (left.toInt - right.toInt).bmod (2 ^ 32) =
          left.toInt - right.toInt - 2 ^ 32 := by
        unfold Int.bmod
        dsimp only
        rw [Int.emod_eq_of_lt (by omega) (by omega), if_neg (by omega)]
        rfl
      rw [hwrap]
      omega

theorem workload_kind {kind fallback : String} (h : kind = "" ∨ kind = fallback)
    (hfallback : isWorkloadKind fallback = true) :
    isWorkloadKind (defaultString kind fallback) = true := by
  unfold defaultString
  rcases h with rfl | rfl
  · exact hfallback
  · split_ifs <;> exact hfallback

/-- The facts that the rule reads, of a workload. -/
theorem describe_workload {n : Normalizer} {object : Object} {observedAt : Time} {s : Snapshot}
    {desired available : Int32} (hreplicas : object.replicas = some (desired, available))
    (hkind : object.header.kind = "" ∨ object.header.kind = object.resource)
    (hshort : available < desired) (hcounted : object.Counted)
    (h : n.describe object observedAt = .ok s) :
    isWorkloadKind s.source.kind = true ∧
      s.conditions.Perm (object.statusConditions.map StatusCondition.toCondition) ∧
      ∃ state, s.workload = some state ∧ state.desired = desired ∧
        state.available = available ∧ (0 < state.unavailable ↔ object.CountsUnready) := by
  have hzero : (0 : Int32).toInt = 0 := rfl
  rw [Int32.lt_iff_toInt_lt] at hshort
  cases object with
  | deployment o =>
    cases h
    cases hreplicas
    refine ⟨?_, sortSlice_perm _ _, _, rfl, rfl, rfl, ?_⟩
    · exact workload_kind hkind (by decide)
    · simp only [Object.CountsUnready, iff_true, Int32.lt_iff_toInt_lt]
      simp only [Object.Counted] at hcounted
      omega
  | statefulSet o =>
    cases h
    cases hreplicas
    exact ⟨workload_kind hkind (by decide), sortSlice_perm _ _, _, rfl, rfl, rfl,
      nonnegativeDifference_pos _ _⟩
  | daemonSet o =>
    cases h
    cases hreplicas
    refine ⟨?_, sortSlice_perm _ _, _, rfl, rfl, rfl, ?_⟩
    · exact workload_kind hkind (by decide)
    · simp only [Object.CountsUnready, iff_true, Int32.lt_iff_toInt_lt]
      simp only [Object.Counted] at hcounted
      omega
  | pod o | job o | event o | secret o | unstructured o | other t o => cases hreplicas

end RuleRaven.Kube

namespace RuleRaven.Rules

open Framework Kube

/-- Of conditions that all are old enough, the one that the rule finds is. -/
theorem unavailable_told {d : Duration} {now : Time} {told : List StatusCondition}
    {conditions : List Condition} (hperm : conditions.Perm (told.map StatusCondition.toCondition))
    (htold : ∃ c ∈ told, c.unavailable = true)
    (haged : ∀ c ∈ told, c.unavailable = true →
      c.lastTransitionTime ≠ 0 ∧ c.lastTransitionTime.add d ≤ now) :
    ToldFor TellsUnavailable d now conditions := by
  have htells : ∀ c ∈ told, c.unavailable = true → tellsUnavailable c.toCondition = true := by
    intro c hc hunavailable
    have hzero := (haged c hc hunavailable).1
    obtain ⟨hstatus, htype⟩ := Bool.and_eq_true_iff.mp hunavailable
    simp only [tellsUnavailable, StatusCondition.toCondition, Time.isZero]
    simp [beq_iff_eq.mp hstatus, htype, hzero]
  obtain ⟨c, hc, hunavailable⟩ := htold
  have hsome : (conditions.find? tellsUnavailable).isSome = true := by
    rw [List.find?_isSome]
    exact ⟨c.toCondition, hperm.mem_iff.mpr (List.mem_map_of_mem hc), htells c hc hunavailable⟩
  obtain ⟨found, hfound⟩ := Option.isSome_iff_exists.mp hsome
  obtain ⟨hfinds, before, after, hsplit, hbefore⟩ := List.find?_eq_some_iff_append.mp hfound
  obtain ⟨d, hd, rfl⟩ := List.mem_map.mp (hperm.mem_iff.mp (List.mem_of_find?_eq_some hfound))
  refine ⟨before, d.toCondition, after, hsplit, fun b hb => ?_,
    (Engine.tellsUnavailable_iff _).mp hfinds, .inl ?_⟩
  · rw [← Engine.tellsUnavailable_iff, Bool.not_eq_true]
    simpa using hbefore b hb
  · simp only [tellsUnavailable, Bool.and_eq_true] at hfinds
    exact (haged d hd (Bool.and_eq_true_iff.mpr ⟨hfinds.1.1, hfinds.2⟩)).2

/-- The result names the rule of workloads, as critical exactly if nothing is available. -/
def ReportsUnavailable (result : Result) (available : Int32) : Prop :=
  ∃ m ∈ result.matched, m.ruleID = "workload-unavailable" ∧
    (m.severity = .critical ↔ available = 0)

/-- A workload short of available replicas is reported, except a stateful set whose replicas are
all ready: of that one, the normalizer counts what is not ready. -/
theorem unavailable_reported_iff (options : Options) (n : Normalizer) (H : Hasher)
    {object : Object} {observedAt now : Time} {s : Snapshot} {desired available : Int32}
    (previous : Option Incident) (hs : n.normalize H object observedAt = .ok s)
    (hshort : object.Short desired available options.minimumAge now)
    (hseen : ¬options.Ignores s) :
    ReportsUnavailable ((newEngine options).evaluate now s previous) available ↔
      object.CountsUnready := by
  obtain ⟨described, hdescribed, rfl, _⟩ := Normalizer.normalize_eq_ok hs
  obtain ⟨hkind, hperm, state, hstate, hdesired, havailable, hcount⟩ :=
    describe_workload hshort.replicas_eq hshort.kind_eq hshort.available_lt hshort.counted
      hdescribed
  have haged : ToldFor TellsUnavailable (newEngine options).options.minimumAge now
      described.conditions := unavailable_told hperm hshort.told hshort.aged
  have hwell := (evaluate_wellFormed options now _ previous).2 hseen
  rw [← hcount]
  constructor
  · rintro ⟨m, hm, hid, -⟩
    rcases (hwell.matched_iff m).mp hm with hholds | ⟨rfl, -⟩
    · cases hholds with
      | workloadUnavailable state' hstate' _ _ _ hpos _ =>
        rw [hstate] at hstate'
        cases hstate'
        exact hpos
      | _ => simp at hid
    · simp [Engine.recovery] at hid
  · intro hpos
    have hwanted : 0 < state.desired := hdesired ▸ hshort.desired_pos
    have hlacks : state.available < state.desired := by
      rw [hdesired, havailable]
      exact hshort.available_lt
    refine ⟨_, (hwell.matched_iff _).mpr (.inl (.workloadUnavailable state hstate
      (of_decide_eq_true hkind) hwanted
      hlacks hpos haged)), rfl, ?_⟩
    dsimp only
    rw [havailable]
    split_ifs with hzero <;> simp [hzero]

section Example

open Controller.Scenario

/-- No replica is available, as a condition tells for an hour. -/
def unavailableCondition : StatusCondition :=
  { type := "Available", status := "False", lastTransitionTime := noon }

def downDeployment : Object := .deployment
  { metadata := metadata, replicas := some 3, statusReplicas := 3, unavailableReplicas := 3,
    conditions := [unavailableCondition] }

/-- All replicas of this one are ready, but none is available yet. -/
def downStatefulSet : Object := .statefulSet
  { metadata := metadata, replicas := some 3, currentReplicas := 3, readyReplicas := 3,
    updatedReplicas := 3, conditions := [unavailableCondition] }

/-- An hour after noon. -/
def oneOClock : Time := noon + 3600000000000

theorem minuteOptions_seen (s : Snapshot) : ¬Engine.minuteOptions.Ignores s := by
  simp [Options.Ignores, Engine.minuteOptions]

/-- The condition has told of it for the minimum age. -/
theorem unavailableCondition_told :
    (∃ c ∈ [unavailableCondition], c.unavailable = true) ∧
      ∀ c ∈ [unavailableCondition], c.unavailable = true → c.lastTransitionTime ≠ 0 ∧
        c.lastTransitionTime.add Engine.minuteOptions.minimumAge ≤ oneOClock := by
  refine ⟨⟨unavailableCondition, List.mem_singleton_self _, by decide⟩, ?_⟩
  intro c hc _
  rw [List.mem_singleton.mp hc]
  exact ⟨by decide, by decide⟩

theorem downDeployment_short :
    downDeployment.Short 3 0 Engine.minuteOptions.minimumAge oneOClock where
  replicas_eq := rfl
  kind_eq := .inl rfl
  desired_pos := by decide
  available_lt := by decide
  counted := by simp [downDeployment, Object.Counted]
  told := unavailableCondition_told.1
  aged := unavailableCondition_told.2

theorem downStatefulSet_short :
    downStatefulSet.Short 3 0 Engine.minuteOptions.minimumAge oneOClock where
  replicas_eq := rfl
  kind_eq := .inl rfl
  desired_pos := by decide
  available_lt := by decide
  counted := trivial
  told := unavailableCondition_told.1
  aged := unavailableCondition_told.2

theorem downDeployment_reported :
    downDeployment.Short 3 0 Engine.minuteOptions.minimumAge oneOClock ∧
      ∃ s, smallNormalizer.normalize checksumHasher downDeployment oneOClock = .ok s ∧
        ReportsUnavailable ((newEngine Engine.minuteOptions).evaluate oneOClock s none) 0 := by
  have hok : (smallNormalizer.normalize checksumHasher downDeployment oneOClock).toOption.isSome =
      true := by decide +kernel
  obtain ⟨s, hs⟩ := Option.isSome_iff_exists.mp hok
  have hs := ok_of_toOption hs
  exact ⟨downDeployment_short, s, hs, (unavailable_reported_iff Engine.minuteOptions smallNormalizer
    checksumHasher none hs downDeployment_short (minuteOptions_seen s)).mpr trivial⟩

theorem downStatefulSet_unreported :
    downStatefulSet.Short 3 0 Engine.minuteOptions.minimumAge oneOClock ∧
      ∃ s, smallNormalizer.normalize checksumHasher downStatefulSet oneOClock = .ok s ∧
        ¬Engine.minuteOptions.Ignores s ∧
        (newEngine Engine.minuteOptions).evaluate oneOClock s none = { disposition := .noMatch } ∧
        ¬ReportsUnavailable ((newEngine Engine.minuteOptions).evaluate oneOClock s none) 0 := by
  have hrun : (smallNormalizer.normalize checksumHasher downStatefulSet oneOClock).toOption.any
      (fun s => (newEngine Engine.minuteOptions).evaluate oneOClock s none ==
        { disposition := .noMatch }) = true := by decide +kernel
  obtain ⟨s, hs, hresult⟩ := (Option.any_eq_true _ _).mp hrun
  have hresult := beq_iff_eq.mp hresult
  refine ⟨downStatefulSet_short, s, ok_of_toOption hs, minuteOptions_seen s, hresult, ?_⟩
  rw [hresult]
  rintro ⟨m, hm, -⟩
  cases hm

end Example

end RuleRaven.Rules
