import RuleRaven.Domain
import Mathlib.Data.List.Sort
import Mathlib.Data.String.Basic

namespace RuleRaven.Rules

open Framework

def policyVersion : String := "deterministic-triage-v1"

inductive Disposition where
  | terminal
  | semantic
  | suppress
  | noMatch
  deriving DecidableEq, Repr

structure Match where
  ruleID : String
  reason : String
  severity : Severity
  deriving DecidableEq, Repr

structure Result where
  matched : List Match := []
  disposition : Disposition
  decision : Option Decision := none
  questionSet : String := ""
  policyVersion : String := Rules.policyVersion
  deriving DecidableEq, Repr

structure Options where
  crashLoopRestartThreshold : Int
  crashLoopCriticalThreshold : Int
  minimumAge : Duration
  eventQuietPeriod : Duration
  ignoredNamespaces : List String := []
  ignoredLabels : List String := []
  deriving DecidableEq, Repr

/-- The options as `NewEngine` keeps them, both ignore lists sorted. -/
structure Engine where
  options : Options
  deriving DecidableEq, Repr

def newEngine (options : Options) : Engine where
  options := { options with
    ignoredNamespaces := sortSlice (· < ·) options.ignoredNamespaces
    ignoredLabels := sortSlice (· < ·) options.ignoredLabels }

def severityRank : Severity → Nat
  | .critical => 3
  | .warning => 2
  | .info => 1
  | .unset => 0

/-- The first match of the highest severity. -/
def highestSeverity (first : Match) (rest : List Match) : Match :=
  rest.foldl (fun winning m =>
    if severityRank winning.severity < severityRank m.severity then m else winning) first

theorem highestSeverity_mem (first : Match) (rest : List Match) :
    highestSeverity first rest ∈ first :: rest := by
  induction rest generalizing first with
  | nil => exact List.mem_singleton_self first
  | cons m rest ih =>
    show highestSeverity (if severityRank first.severity < severityRank m.severity then m
      else first) rest ∈ first :: m :: rest
    split_ifs
    · exact List.mem_cons_of_mem first (ih m)
    · rcases List.mem_cons.mp (ih first) with h | h
      · rw [h]
        exact List.mem_cons_self
      · exact List.mem_cons_of_mem first (List.mem_cons_of_mem m h)

def decisionFor (first : Match) (rest : List Match) : Decision :=
  let winning := highestSeverity first rest
  let ruleIDs := (first :: rest).map Match.ruleID
  { severity := winning.severity
    action := if winning.severity = .critical then .page else .notify
    summary := winning.reason
    reasonCodes := ruleIDs
    ruleIDs := ruleIDs }

def conditionTransition (conditions : List Condition) (conditionType status reason : String) :
    Option Time :=
  (conditions.find? fun c => c.type == conditionType && c.status == status &&
    (reason == "" || c.reason == reason) && !c.lastTransitionTime.isZero).map
      Condition.lastTransitionTime

/-- A condition that tells since when a workload is unavailable. -/
def tellsUnavailable (c : Condition) : Bool :=
  c.status == "False" && !c.lastTransitionTime.isZero &&
    (c.type == "Available" || c.type == "Ready" || c.type == "Progressing")

def unavailableTransition (conditions : List Condition) : Option Time :=
  (conditions.find? tellsUnavailable).map Condition.lastTransitionTime

def isWorkloadKind (kind : String) : Bool :=
  toLower kind ∈ ["deployment", "statefulset", "daemonset"]

def semanticWarningReasons : List String :=
  ["FailedAttachVolume", "FailedCreate", "FailedDelete", "FailedMount", "FailedUpdate",
    "Unhealthy"]

namespace Engine

variable (e : Engine) (now : Time)

/-- `MinimumAge` has passed since the transition. -/
def aged (transition : Time) : Bool := !(Time.sub now transition < e.options.minimumAge)

/-- One container in the loop of `podCrashLoop`: the severity grows or stays. -/
def crashLoopStep (severity : Severity) (c : ContainerState) : Severity :=
  if c.state ≠ "waiting" ∨ c.reason ≠ "CrashLoopBackOff" ∨
      c.restartCount.toInt < e.options.crashLoopRestartThreshold then severity
  else
    let candidate : Severity :=
      if e.options.crashLoopCriticalThreshold ≤ c.restartCount.toInt then .critical else .warning
    if severityRank severity < severityRank candidate then candidate else severity

/-- The severity the crash-looping containers call for, unset when there are none. -/
def crashLoopSeverity (containers : List ContainerState) : Severity :=
  containers.foldl e.crashLoopStep .unset

def podCrashLoop (s : Snapshot) : List Match :=
  if !equalFold s.source.kind "Pod" then []
  else match conditionTransition s.conditions "Ready" "False" "" with
    | none => []
    | some transition =>
      if !e.aged now transition then []
      else
        let severity := e.crashLoopSeverity s.containers
        if severity = .unset then []
        else [⟨"pod-crash-loop", "one or more containers are crash looping", severity⟩]

def podUnschedulable (s : Snapshot) : List Match :=
  if !equalFold s.source.kind "Pod" then []
  else match conditionTransition s.conditions "PodScheduled" "False" "Unschedulable" with
    | none => []
    | some transition =>
      if !e.aged now transition then []
      else [⟨"pod-unschedulable", "pod has remained unschedulable", .warning⟩]

/-- A container waits on an image that cannot be pulled. -/
def pullFails (c : ContainerState) : Bool :=
  c.state == "waiting" && (c.reason == "ErrImagePull" || c.reason == "ImagePullBackOff")

def imagePullFailure (s : Snapshot) : List Match :=
  if !equalFold s.source.kind "Pod" then []
  else match conditionTransition s.conditions "Ready" "False" "" with
    | none => []
    | some transition =>
      if !e.aged now transition then []
      else if s.containers.any pullFails then
        [⟨"image-pull-failure", "one or more containers cannot pull their image", .warning⟩]
      else []

def failedJob (s : Snapshot) : List Match :=
  match s.job with
  | none => []
  | some job =>
    if !equalFold s.source.kind "Job" then []
    else
      let failedCondition := s.conditions.any fun c => c.type == "Failed" && c.status == "True"
      let threshold := if job.backoffLimit < 1 then 1 else job.backoffLimit
      if !failedCondition && decide (job.failed < threshold) then []
      else [⟨"job-failed", "job has failed", .critical⟩]

/-- Some wanted replica is missing. -/
def lacksReplicas (state : WorkloadState) : Bool :=
  !(state.desired ≤ 0 || state.desired ≤ state.available || state.unavailable ≤ 0)

def workloadUnavailable (s : Snapshot) : List Match :=
  match s.workload with
  | none => []
  | some state =>
    if !isWorkloadKind s.source.kind then []
    else if !lacksReplicas state then []
    else match unavailableTransition s.conditions with
      | none => []
      | some transition =>
        if !e.aged now transition then []
        else [⟨"workload-unavailable", "workload has unavailable replicas",
          if state.available = 0 then .critical else .warning⟩]

def eventIsQuiet (s : Snapshot) : Bool :=
  match s.event with
  | none => false
  | some event =>
    if e.options.eventQuietPeriod ≤ 0 || event.lastObserved.isZero then false
    else !(now < event.lastObserved.add e.options.eventQuietPeriod)

def warningEvent (s : Snapshot) : List Match :=
  match s.event with
  | none => []
  | some event =>
    if !equalFold s.source.kind "Event" || !equalFold event.type "Warning" ||
        e.eventIsQuiet now s then []
    else if !semanticWarningReasons.contains event.reason then []
    else [⟨"warning-event", "selected Warning Event requires semantic triage", .warning⟩]

/-- Every rule that holds, in the order the engine asks them. -/
def ruleMatches (s : Snapshot) : List Match :=
  e.podCrashLoop now s ++ e.podUnschedulable now s ++ e.imagePullFailure now s ++
    failedJob s ++ e.workloadUnavailable now s ++ e.warningEvent now s

def ignoredReason (s : Snapshot) : Option String :=
  match e.options.ignoredNamespaces.find? (s.source.namespace == ·) with
  | some ns => some ("ignored namespace " ++ ns)
  | none =>
    (e.options.ignoredLabels.find? fun selector =>
      let (key, value, hasValue) := cut selector '='
      match s.labels.lookup key with
      | none => false
      | some actual => !hasValue || actual == value).map ("ignored label " ++ ·)

def suppressed (reason : String) : Result where
  matched := [⟨"ignored", reason, .info⟩]
  disposition := .suppress
  decision := some ⟨.info, .suppress, reason, ["ignored"], ["ignored"]⟩

def recoveredResult : Result where
  matched := [⟨"recovered", "previously open incident no longer matches", .info⟩]
  disposition := .terminal
  decision := some ⟨.info, .record, "previously open incident no longer matches",
    ["recovered"], ["recovered"]⟩

/-- Only an open incident recovers. -/
def recovered (previous : Option Incident) : Option Result :=
  match previous with
  | none => none
  | some incident => if incident.status ≠ .open then none else some recoveredResult

/-- The result of a nonempty list of matches: a lone warning event goes to the provider. -/
def matchedResult (first : Match) (rest : List Match) : Result :=
  if rest = [] ∧ first.ruleID = "warning-event" then
    { matched := first :: rest, disposition := .semantic, questionSet := "operational-triage-v1" }
  else
    { matched := first :: rest, disposition := .terminal,
      decision := some (decisionFor first rest) }

def evaluate (s : Snapshot) (previous : Option Incident) : Result :=
  match e.ignoredReason s with
  | some reason => suppressed reason
  | none =>
    match sortSlice (fun a b => a.ruleID < b.ruleID) (e.ruleMatches now s) with
    | [] => (recovered previous).getD { disposition := .noMatch }
    | first :: rest => matchedResult first rest

/-- The IDs of the six rules. None of them is an ID of a recovery. -/
def ruleIDs : List String :=
  ["pod-crash-loop", "pod-unschedulable", "image-pull-failure", "job-failed",
    "workload-unavailable", "warning-event"]

/-- Their reasons, in the same order. -/
def ruleReasons : List String :=
  ["one or more containers are crash looping", "pod has remained unschedulable",
    "one or more containers cannot pull their image", "job has failed",
    "workload has unavailable replicas", "selected Warning Event requires semantic triage"]

@[simp] theorem matchedResult_matched (first : Match) (rest : List Match) :
    (matchedResult first rest).matched = first :: rest := by
  unfold matchedResult
  split_ifs <;> rfl

@[simp] theorem matchedResult_policyVersion (first : Match) (rest : List Match) :
    (matchedResult first rest).policyVersion = Rules.policyVersion := by
  unfold matchedResult
  split_ifs <;> rfl

theorem matchedResult_disposition (first : Match) (rest : List Match) :
    (matchedResult first rest).disposition = .semantic ∨
      (matchedResult first rest).disposition = .terminal := by
  unfold matchedResult
  split_ifs <;> simp

section Members

variable {e now} {s : Snapshot} {m : Match}

theorem mem_podCrashLoop : m ∈ e.podCrashLoop now s ↔
    equalFold s.source.kind "Pod" ∧
    (conditionTransition s.conditions "Ready" "False" "").any (e.aged now) ∧
    e.crashLoopSeverity s.containers ≠ .unset ∧
    m = ⟨"pod-crash-loop", "one or more containers are crash looping",
      e.crashLoopSeverity s.containers⟩ := by
  unfold podCrashLoop
  cases equalFold s.source.kind "Pod" <;>
    cases conditionTransition s.conditions "Ready" "False" "" with
    | none => simp
    | some t => cases e.aged now t <;> by_cases h : e.crashLoopSeverity s.containers = .unset <;>
        simp [h]

theorem mem_podUnschedulable : m ∈ e.podUnschedulable now s ↔
    equalFold s.source.kind "Pod" ∧
    (conditionTransition s.conditions "PodScheduled" "False" "Unschedulable").any (e.aged now) ∧
    m = ⟨"pod-unschedulable", "pod has remained unschedulable", .warning⟩ := by
  unfold podUnschedulable
  cases equalFold s.source.kind "Pod" <;>
    cases conditionTransition s.conditions "PodScheduled" "False" "Unschedulable" with
    | none => simp
    | some t => cases e.aged now t <;> simp

theorem mem_imagePullFailure : m ∈ e.imagePullFailure now s ↔
    equalFold s.source.kind "Pod" ∧
    (conditionTransition s.conditions "Ready" "False" "").any (e.aged now) ∧
    s.containers.any pullFails ∧
    m = ⟨"image-pull-failure", "one or more containers cannot pull their image", .warning⟩ := by
  unfold imagePullFailure
  cases equalFold s.source.kind "Pod" <;>
    cases conditionTransition s.conditions "Ready" "False" "" with
    | none => simp
    | some t => cases e.aged now t <;> cases s.containers.any pullFails <;> simp

theorem mem_failedJob (h : m ∈ failedJob s) : m = ⟨"job-failed", "job has failed", .critical⟩ := by
  unfold failedJob at h
  split at h
  · simp at h
  · dsimp only at h
    split_ifs at h <;> simp_all

theorem mem_workloadUnavailable : m ∈ e.workloadUnavailable now s ↔
    ∃ state, s.workload = some state ∧ isWorkloadKind s.source.kind ∧ lacksReplicas state ∧
      (unavailableTransition s.conditions).any (e.aged now) ∧
      m = ⟨"workload-unavailable", "workload has unavailable replicas",
        if state.available = 0 then .critical else .warning⟩ := by
  unfold workloadUnavailable
  cases s.workload with
  | none => simp
  | some state =>
    cases isWorkloadKind s.source.kind <;> cases lacksReplicas state <;>
      cases unavailableTransition s.conditions with
      | none => simp
      | some t => cases e.aged now t <;> simp

theorem mem_warningEvent : m ∈ e.warningEvent now s ↔
    ∃ event, s.event = some event ∧ equalFold s.source.kind "Event" ∧
      equalFold event.type "Warning" ∧ e.eventIsQuiet now s = false ∧
      semanticWarningReasons.contains event.reason ∧
      m = ⟨"warning-event", "selected Warning Event requires semantic triage", .warning⟩ := by
  unfold warningEvent
  cases s.event with
  | none => simp
  | some event =>
    cases equalFold s.source.kind "Event" <;> cases equalFold event.type "Warning" <;>
      cases e.eventIsQuiet now s <;> cases semanticWarningReasons.contains event.reason <;> simp

theorem mem_ruleMatches : m ∈ e.ruleMatches now s ↔
    m ∈ e.podCrashLoop now s ∨ m ∈ e.podUnschedulable now s ∨ m ∈ e.imagePullFailure now s ∨
      m ∈ failedJob s ∨ m ∈ e.workloadUnavailable now s ∨ m ∈ e.warningEvent now s := by
  simp only [ruleMatches, List.mem_append, or_assoc]

theorem reason_of_mem_ruleMatches (h : m ∈ e.ruleMatches now s) : m.reason ∈ ruleReasons := by
  rcases mem_ruleMatches.mp h with h | h | h | h | h | h
  · simp [(mem_podCrashLoop.mp h).2.2.2, ruleReasons]
  · simp [(mem_podUnschedulable.mp h).2.2, ruleReasons]
  · simp [(mem_imagePullFailure.mp h).2.2.2, ruleReasons]
  · simp [mem_failedJob h, ruleReasons]
  · obtain ⟨_, _, _, _, _, rfl⟩ := mem_workloadUnavailable.mp h; simp [ruleReasons]
  · obtain ⟨_, _, _, _, _, _, rfl⟩ := mem_warningEvent.mp h; simp [ruleReasons]

theorem ruleID_of_mem_ruleMatches (h : m ∈ e.ruleMatches now s) : m.ruleID ∈ ruleIDs := by
  rcases mem_ruleMatches.mp h with h | h | h | h | h | h
  · simp [(mem_podCrashLoop.mp h).2.2.2, ruleIDs]
  · simp [(mem_podUnschedulable.mp h).2.2, ruleIDs]
  · simp [(mem_imagePullFailure.mp h).2.2.2, ruleIDs]
  · simp [mem_failedJob h, ruleIDs]
  · obtain ⟨_, _, _, _, _, rfl⟩ := mem_workloadUnavailable.mp h; simp [ruleIDs]
  · obtain ⟨_, _, _, _, _, _, rfl⟩ := mem_warningEvent.mp h; simp [ruleIDs]

end Members

/-- Everything `evaluate` can return, with the conditions under which it does. -/
theorem evaluate_cases (s : Snapshot) (previous : Option Incident) :
    (∃ reason, e.ignoredReason s = some reason ∧
      e.evaluate now s previous = suppressed reason) ∨
    (e.ignoredReason s = none ∧ e.ruleMatches now s = [] ∧
      (∃ i, previous = some i ∧ i.status = .open) ∧
      e.evaluate now s previous = recoveredResult) ∨
    (e.ignoredReason s = none ∧ e.ruleMatches now s = [] ∧
      (∀ i, previous = some i → i.status ≠ .open) ∧
      e.evaluate now s previous = { disposition := .noMatch }) ∨
    (e.ignoredReason s = none ∧ e.ruleMatches now s ≠ [] ∧ ∃ first rest,
      (first :: rest).Perm (e.ruleMatches now s) ∧
      e.evaluate now s previous = matchedResult first rest) := by
  unfold evaluate
  cases hi : e.ignoredReason s with
  | some reason => exact Or.inl ⟨reason, rfl, rfl⟩
  | none =>
    refine Or.inr ?_
    have hperm := sortSlice_perm (fun a b : Match => a.ruleID < b.ruleID) (e.ruleMatches now s)
    cases hs : sortSlice (fun a b => a.ruleID < b.ruleID) (e.ruleMatches now s) with
    | cons first rest =>
      rw [hs] at hperm
      refine Or.inr (Or.inr ⟨rfl, ?_, first, rest, hperm, rfl⟩)
      intro hnil
      rw [hnil] at hperm
      exact List.cons_ne_nil _ _ hperm.eq_nil
    | nil =>
      rw [hs] at hperm
      have hnil : e.ruleMatches now s = [] := hperm.symm.eq_nil
      cases previous with
      | none => exact Or.inr (Or.inl ⟨rfl, hnil, by simp, rfl⟩)
      | some i =>
        by_cases hst : i.status = .open
        · exact Or.inl ⟨rfl, hnil, ⟨i, rfl, hst⟩, by simp [recovered, hst]⟩
        · exact Or.inr (Or.inl ⟨rfl, hnil, by simpa using hst, by simp [recovered, hst]⟩)

theorem suppress_iff (s : Snapshot) (previous : Option Incident) :
    (e.evaluate now s previous).disposition = .suppress ↔ (e.ignoredReason s).isSome = true := by
  rcases e.evaluate_cases now s previous with
    ⟨reason, hreason, he⟩ | ⟨hnone, -, -, he⟩ | ⟨hnone, -, -, he⟩ |
      ⟨hnone, -, first, rest, -, he⟩ <;>
    rw [he]
  · simp [hreason, suppressed]
  · simp [hnone, recoveredResult]
  · simp [hnone]
  · rcases matchedResult_disposition first rest with h | h <;> simp [h, hnone]

/-- A snapshot is ignored for its namespace, or for a label that a selector asks for. -/
theorem ignoredReason_isSome (s : Snapshot) :
    (e.ignoredReason s).isSome = true ↔ s.source.namespace ∈ e.options.ignoredNamespaces ∨
      ∃ selector ∈ e.options.ignoredLabels, ∃ actual,
        s.labels.lookup (cut selector '=').1 = some actual ∧
          ((cut selector '=').2.2 = true → actual = (cut selector '=').2.1) := by
  unfold ignoredReason
  cases hns : e.options.ignoredNamespaces.find? (s.source.namespace == ·) with
  | some ns =>
    have heq := List.find?_some hns
    have hmem := List.mem_of_find?_eq_some hns
    rw [← beq_iff_eq.mp heq] at hmem
    simp [hmem]
  | none =>
    have hout : s.source.namespace ∉ e.options.ignoredNamespaces := by
      intro hmem
      simpa using List.find?_eq_none.mp hns _ hmem
    simp only [Option.isSome_map, List.find?_isSome, hout, false_or]
    refine exists_congr fun selector => and_congr_right fun _ => ?_
    cases s.labels.lookup (cut selector '=').1 with
    | none => simp
    | some actual => cases (cut selector '=').2.2 <;> simp

/-- No result of the engine names the rule of a deletion. -/
theorem ruleID_of_evaluate {s : Snapshot} {previous : Option Incident} {x : String}
    (h : x ∈ (e.evaluate now s previous).matched.map Match.ruleID ∨
      ∃ decision, (e.evaluate now s previous).decision = some decision ∧ x ∈ decision.ruleIDs) :
    x ∈ "ignored" :: "recovered" :: ruleIDs := by
  rcases e.evaluate_cases now s previous with
    ⟨reason, -, he⟩ | ⟨-, -, -, he⟩ | ⟨-, -, -, he⟩ | ⟨-, -, first, rest, hperm, he⟩ <;>
    rw [he] at h
  · rcases h with h | ⟨decision, hd, h⟩
    · simp_all [suppressed]
    · cases hd
      simp_all
  · rcases h with h | ⟨decision, hd, h⟩
    · simp_all [recoveredResult]
    · cases hd
      simp_all
  · rcases h with h | ⟨decision, hd, h⟩ <;> simp_all
  · have hmatch : x ∈ (first :: rest).map Match.ruleID → x ∈ ruleIDs := by
      intro hx
      obtain ⟨m, hm, rfl⟩ := List.mem_map.mp hx
      exact ruleID_of_mem_ruleMatches (hperm.mem_iff.mp hm)
    refine List.mem_cons_of_mem _ (List.mem_cons_of_mem _ (hmatch ?_))
    rcases h with h | ⟨decision, hd, h⟩
    · simpa using h
    · unfold matchedResult at hd
      split_ifs at hd
      cases hd
      exact h

end Engine

end RuleRaven.Rules
