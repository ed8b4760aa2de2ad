import RuleRaven.Kube.Fingerprint
import RuleRaven.Kube.Redactor

namespace RuleRaven.Kube

open Framework

structure OwnerRef where
  apiVersion : String
  kind : String
  name : String
  uid : String
  controller : Option Bool := none
  deriving DecidableEq

/-- The metadata that the normalizer reads. -/
structure ObjectMeta where
  «namespace» : String
  name : String
  uid : String
  resourceVersion : String := ""
  generation : Int64 := 0
  labels : StrMap String := StrMap.empty
  ownerReferences : List OwnerRef := []
  deriving DecidableEq

/-- The type fields, which a typed client leaves empty, and the metadata of an object. -/
structure Header where
  apiVersion : String := ""
  kind : String := ""
  metadata : ObjectMeta
  deriving DecidableEq

structure StatusCondition where
  type : String
  status : String
  reason : String := ""
  lastTransitionTime : Time := 0
  deriving DecidableEq

/-- The three optional parts of a container's state: the reason it waits, the reason and exit
code with which it ended, and whether it runs. -/
structure ContainerStatusState where
  waiting : Option String := none
  terminated : Option (String × Int32) := none
  running : Bool := false
  deriving DecidableEq

structure ContainerStatus where
  name : String
  ready : Bool
  restartCount : Int32
  state : ContainerStatusState
  deriving DecidableEq

structure Pod extends Header where
  conditions : List StatusCondition := []
  containerStatuses : List ContainerStatus := []
  deriving DecidableEq

structure Deployment extends Header where
  replicas : Option Int32 := none
  statusReplicas : Int32 := 0
  readyReplicas : Int32 := 0
  availableReplicas : Int32 := 0
  updatedReplicas : Int32 := 0
  unavailableReplicas : Int32 := 0
  conditions : List StatusCondition := []
  deriving DecidableEq

structure StatefulSet extends Header where
  replicas : Option Int32 := none
  currentReplicas : Int32 := 0
  readyReplicas : Int32 := 0
  availableReplicas : Int32 := 0
  updatedReplicas : Int32 := 0
  conditions : List StatusCondition := []
  deriving DecidableEq

structure DaemonSet extends Header where
  desiredNumberScheduled : Int32 := 0
  currentNumberScheduled : Int32 := 0
  numberReady : Int32 := 0
  numberAvailable : Int32 := 0
  updatedNumberScheduled : Int32 := 0
  numberUnavailable : Int32 := 0
  conditions : List StatusCondition := []
  deriving DecidableEq

structure Job extends Header where
  backoffLimit : Option Int32 := none
  active : Int32 := 0
  succeeded : Int32 := 0
  failed : Int32 := 0
  conditions : List StatusCondition := []
  deriving DecidableEq

structure Event extends Header where
  type : String
  reason : String
  message : String := ""
  involvedUID : String := ""
  count : Int32 := 0
  eventTime : Time := 0
  lastTimestamp : Time := 0
  deriving DecidableEq

/-- An entry of `status.conditions` in an untyped object. The time is the one its text
denotes, absent when it does not parse. -/
structure RawCondition where
  type : String
  status : String
  reason : String
  lastTransitionTime : Option Time
  deriving DecidableEq

/-- `status.conditions` is malformed, absent, or a list with entries that may not be maps. -/
structure Unstructured extends Header where
  conditions : Except Unit (Option (List (Option RawCondition)))
  deriving DecidableEq

inductive Object where
  | pod (o : Pod)
  | deployment (o : Deployment)
  | statefulSet (o : StatefulSet)
  | daemonSet (o : DaemonSet)
  | job (o : Job)
  | event (o : Event)
  | secret (header : Header)
  | unstructured (o : Unstructured)
  | other (typeName : String) (header : Header)
  deriving DecidableEq

def Object.header : Object → Header
  | .pod o => o.toHeader
  | .deployment o => o.toHeader
  | .statefulSet o => o.toHeader
  | .daemonSet o => o.toHeader
  | .job o => o.toHeader
  | .event o => o.toHeader
  | .secret h => h
  | .unstructured o => o.toHeader
  | .other _ h => h

/-- The resource kind a typed client serves, empty for what none of them serves. -/
def Object.resource : Object → String
  | .pod _ => "Pod"
  | .deployment _ => "Deployment"
  | .statefulSet _ => "StatefulSet"
  | .daemonSet _ => "DaemonSet"
  | .job _ => "Job"
  | .event _ => "Event"
  | .secret _ | .unstructured _ | .other _ _ => ""

structure Normalizer where
  clusterID : String
  allowedLabels : List String
  maxBytes : Int
  deriving DecidableEq

def errSecretResource : Err := ⟨"Secret resources are not supported", none⟩

/-- `json.Marshal` on a time whose year has no four digits. -/
def errMarshalTime : Err :=
  ⟨"json: error calling MarshalJSON for type time.Time: " ++
    "Time.MarshalJSON: year outside of range [0,9999]", none⟩

def nonnegativeDifference (left right : Int32) : Int32 :=
  if left ≤ right then 0 else left - right

def defaultString (value fallback : String) : String := if value = "" then fallback else value

def conditionBefore (a b : Condition) : Bool :=
  if a.type ≠ b.type then a.type < b.type
  else if a.status ≠ b.status then a.status < b.status
  else a.reason < b.reason

def sortConditions (conditions : List Condition) : List Condition :=
  sortSlice conditionBefore conditions

/-- The order of container states. -/
def containerBefore (a b : ContainerState) : Bool := a.name < b.name

def StatusCondition.toCondition (c : StatusCondition) : Condition :=
  { type := c.type, status := c.status, reason := c.reason,
    lastTransitionTime := c.lastTransitionTime }

def RawCondition.toCondition (c : RawCondition) : Condition :=
  { type := c.type, status := c.status, reason := c.reason,
    lastTransitionTime := c.lastTransitionTime.getD 0 }

def containerState (state : ContainerStatusState) : String × String × Int32 :=
  match state.waiting, state.terminated with
  | some reason, _ => ("waiting", reason, 0)
  | none, some (reason, exitCode) => ("terminated", reason, exitCode)
  | none, none => if state.running then ("running", "", 0) else ("unknown", "", 0)

def ContainerStatus.toContainerState (status : ContainerStatus) : ContainerState :=
  let (state, reason, exitCode) := containerState status.state
  { name := status.name, ready := status.ready, restartCount := status.restartCount,
    state := state, reason := reason, exitCode := exitCode }

/-- The owner loop: the first owner stands until the first controller, which ends it. -/
def pickOwner : Option OwnerReference → List OwnerRef → Option OwnerReference
  | current, [] => current
  | current, o :: os =>
    let chosen : Option OwnerReference :=
      if current.isNone || o.controller == some true then
        some ⟨o.apiVersion, o.kind, o.name, o.uid⟩
      else current
    if o.controller == some true then chosen else pickOwner chosen os

namespace Normalizer

variable (n : Normalizer)

def source (apiVersion kind : String) (metadata : ObjectMeta) : Source where
  clusterID := n.clusterID
  apiVersion := apiVersion
  kind := kind
  «namespace» := metadata.namespace
  name := metadata.name
  uid := metadata.uid
  resourceVersion := metadata.resourceVersion
  generation := metadata.generation
  owner := pickOwner none metadata.ownerReferences

def labels (values : StrMap String) : StrMap String :=
  values.filterKeys fun key => n.allowedLabels.contains key && !isSensitiveKey key

def normalizeDeployment (deployment : Deployment) (observedAt : Time) : Snapshot where
  source := n.source (defaultString deployment.apiVersion "apps/v1")
    (defaultString deployment.kind "Deployment") deployment.metadata
  observedAt := observedAt
  labels := n.labels deployment.metadata.labels
  workload := some
    { desired := deployment.replicas.getD 1
      current := deployment.statusReplicas
      ready := deployment.readyReplicas
      available := deployment.availableReplicas
      updated := deployment.updatedReplicas
      unavailable := deployment.unavailableReplicas }
  conditions := sortConditions (deployment.conditions.map StatusCondition.toCondition)

/-- A stateful set reports no unavailable count; the one used counts replicas not ready. -/
def normalizeStatefulSet (statefulSet : StatefulSet) (observedAt : Time) : Snapshot where
  source := n.source (defaultString statefulSet.apiVersion "apps/v1")
    (defaultString statefulSet.kind "StatefulSet") statefulSet.metadata
  observedAt := observedAt
  labels := n.labels statefulSet.metadata.labels
  workload := some
    { desired := statefulSet.replicas.getD 1
      current := statefulSet.currentReplicas
      ready := statefulSet.readyReplicas
      available := statefulSet.availableReplicas
      updated := statefulSet.updatedReplicas
      unavailable :=
        nonnegativeDifference (statefulSet.replicas.getD 1) statefulSet.readyReplicas }
  conditions := sortConditions (statefulSet.conditions.map StatusCondition.toCondition)

def normalizeDaemonSet (daemonSet : DaemonSet) (observedAt : Time) : Snapshot where
  source := n.source (defaultString daemonSet.apiVersion "apps/v1")
    (defaultString daemonSet.kind "DaemonSet") daemonSet.metadata
  observedAt := observedAt
  labels := n.labels daemonSet.metadata.labels
  workload := some
    { desired := daemonSet.desiredNumberScheduled
      current := daemonSet.currentNumberScheduled
      ready := daemonSet.numberReady
      available := daemonSet.numberAvailable
      updated := daemonSet.updatedNumberScheduled
      unavailable := daemonSet.numberUnavailable }
  conditions := sortConditions (daemonSet.conditions.map StatusCondition.toCondition)

def normalizeJob (job : Job) (observedAt : Time) : Snapshot where
  source := n.source (defaultString job.apiVersion "batch/v1") (defaultString job.kind "Job")
    job.metadata
  observedAt := observedAt
  labels := n.labels job.metadata.labels
  job := some
    { active := job.active, succeeded := job.succeeded, failed := job.failed,
      backoffLimit := job.backoffLimit.getD 6 }
  conditions := sortConditions (job.conditions.map StatusCondition.toCondition)

def normalizeEvent (event : Event) (observedAt : Time) : Snapshot where
  source := n.source (defaultString event.apiVersion "v1") (defaultString event.kind "Event")
    event.metadata
  observedAt := observedAt
  labels := n.labels event.metadata.labels
  event := some
    { type := event.type, reason := event.reason, message := redactText event.message,
      regardingUID := event.involvedUID, count := event.count,
      lastObserved := if event.eventTime.isZero then event.lastTimestamp else event.eventTime }

def normalizePod (pod : Pod) (observedAt : Time) : Snapshot where
  source := n.source (defaultString pod.apiVersion "v1") (defaultString pod.kind "Pod")
    pod.metadata
  observedAt := observedAt
  labels := n.labels pod.metadata.labels
  conditions := sortConditions (pod.conditions.map StatusCondition.toCondition)
  containers := sortSlice containerBefore
    (pod.containerStatuses.map ContainerStatus.toContainerState)

def normalizeUnstructured (object : Unstructured) (observedAt : Time) : Except Err Snapshot :=
  match object.conditions with
  | .error _ => .error ⟨"read normalized resource conditions", none⟩
  | .ok conditions => .ok
    { source := n.source object.apiVersion object.kind object.metadata
      observedAt := observedAt
      labels := n.labels object.metadata.labels
      conditions := sortConditions
        (((conditions.getD []).filterMap id).map RawCondition.toCondition) }

/-- The snapshot of an object before it is fingerprinted and its size is checked. -/
def describe (object : Object) (observedAt : Time) : Except Err Snapshot :=
  match object with
  | .pod o => .ok (n.normalizePod o observedAt)
  | .deployment o => .ok (n.normalizeDeployment o observedAt)
  | .statefulSet o => .ok (n.normalizeStatefulSet o observedAt)
  | .daemonSet o => .ok (n.normalizeDaemonSet o observedAt)
  | .job o => .ok (n.normalizeJob o observedAt)
  | .event o => .ok (n.normalizeEvent o observedAt)
  | .secret _ => .error errSecretResource
  | .unstructured o =>
    if equalFold o.kind "Secret" then .error errSecretResource
    else n.normalizeUnstructured o observedAt
  | .other typeName _ => .error ⟨"unsupported Kubernetes resource type " ++ typeName, none⟩

theorem defaultString_ne {value fallback : String} (h : fallback ≠ "") :
    defaultString value fallback ≠ "" := by
  unfold defaultString
  split_ifs with hv
  · exact h
  · exact hv

/-- The snapshot of an object from a typed client: it names its namespace and its API, and
that of an event has no conditions. -/
theorem describe_typed {n : Normalizer} {object : Object} {observedAt : Time} {s : Snapshot}
    (hkind : object.resource ≠ "") (h : n.describe object observedAt = .ok s) :
    s.source.namespace = object.header.metadata.namespace ∧ s.source.apiVersion ≠ "" ∧
      (s.event.isSome = true → s.conditions = []) := by
  cases object with
  | secret header => exact absurd rfl hkind
  | unstructured o => exact absurd rfl hkind
  | other typeName header => exact absurd rfl hkind
  | event o =>
    cases h
    exact ⟨rfl, defaultString_ne (by decide), fun _ => rfl⟩
  | pod o | deployment o | statefulSet o | daemonSet o | job o =>
    cases h
    exact ⟨rfl, defaultString_ne (by decide), fun hevent => by cases hevent⟩

/-- Cluster and UID of a snapshot are those of the normalizer and of the object. -/
theorem describe_identity {n : Normalizer} {object : Object} {observedAt : Time} {s : Snapshot}
    (hkind : object.resource ≠ "") (h : n.describe object observedAt = .ok s) :
    s.source.clusterID = n.clusterID ∧ s.source.uid = object.header.metadata.uid := by
  cases object with
  | secret header => exact absurd rfl hkind
  | unstructured o => exact absurd rfl hkind
  | other typeName header => exact absurd rfl hkind
  | pod o | deployment o | statefulSet o | daemonSet o | job o | event o =>
    cases h
    exact ⟨rfl, rfl⟩

/-- The labels and the namespace of a snapshot, whatever the object. -/
theorem describe_labels {n : Normalizer} {object : Object} {observedAt : Time} {s : Snapshot}
    (h : n.describe object observedAt = .ok s) :
    s.labels = n.labels object.header.metadata.labels ∧
      s.source.namespace = object.header.metadata.namespace := by
  cases object with
  | secret header => cases h
  | other typeName header => cases h
  | unstructured o =>
    unfold describe normalizeUnstructured at h
    dsimp only at h
    split_ifs at h
    cases hconditions : o.conditions with
    | error err => simp [hconditions] at h
    | ok conditions =>
      simp only [hconditions] at h
      cases h
      exact ⟨rfl, rfl⟩
  | pod o | deployment o | statefulSet o | daemonSet o | job o | event o =>
    cases h
    exact ⟨rfl, rfl⟩

def normalize (H : Hasher) (object : Object) (observedAt : Time) : Except Err Snapshot :=
  match n.describe object observedAt with
  | .error err => .error err
  | .ok described =>
    let snapshot := { described with contentHash := contentHash H described }
    match snapshot.toJson with
    | none => .error (errMarshalTime.wrap "encode normalized resource")
    | some encoded =>
      if n.maxBytes ≤ 0 ∨ n.maxBytes < encoded.size then
        .error ⟨"normalized resource exceeds configured size limit", none⟩
      else .ok snapshot

/-- Everything a successful normalization says: the described snapshot, its own fingerprint
in place, within the size limit. -/
theorem normalize_eq_ok {n : Normalizer} {H : Hasher} {object : Object} {observedAt : Time}
    {s : Snapshot} (h : n.normalize H object observedAt = .ok s) :
    ∃ described, n.describe object observedAt = .ok described ∧
      s = { described with contentHash := contentHash H described } ∧
      ∃ encoded, s.toJson = some encoded ∧ 0 < n.maxBytes ∧ (encoded.size : Int) ≤ n.maxBytes := by
  unfold normalize at h
  split at h
  · cases h
  · rename_i described hd
    dsimp only at h
    split at h
    · cases h
    · rename_i encoded he
      split_ifs at h with hsize
      cases h
      exact ⟨described, hd, rfl, encoded, he, by omega, by omega⟩

end Normalizer

end RuleRaven.Kube
