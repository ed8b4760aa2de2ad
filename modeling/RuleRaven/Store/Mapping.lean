import RuleRaven.Framework.Bson
import RuleRaven.Store.Mongo

namespace RuleRaven.Mapping

open Framework BsonField

structure OwnerReferenceDocument where
  apiVersion : String := ""
  kind : String := ""
  name : String := ""
  uid : String := ""

structure SourceDocument where
  clusterID : String := ""
  apiVersion : String := ""
  kind : String := ""
  «namespace» : String := ""
  name : String := ""
  uid : String := ""
  resourceVersion : String := ""
  generation : Int64 := 0
  owner : Option OwnerReferenceDocument := none

structure ConditionDocument where
  type : String := ""
  status : String := ""
  reason : String := ""
  message : String := ""
  lastTransitionTime : Time := 0

structure ContainerDocument where
  name : String := ""
  ready : Bool := false
  restartCount : Int32 := 0
  state : String := ""
  reason : String := ""
  exitCode : Int32 := 0

structure WorkloadDocument where
  desired : Int32 := 0
  current : Int32 := 0
  ready : Int32 := 0
  available : Int32 := 0
  updated : Int32 := 0
  unavailable : Int32 := 0

structure JobDocument where
  active : Int32 := 0
  succeeded : Int32 := 0
  failed : Int32 := 0
  backoffLimit : Int32 := 0

structure EventDocument where
  type : String := ""
  reason : String := ""
  message : String := ""
  regardingUID : String := ""
  count : Int32 := 0
  lastObserved : Time := 0

structure SnapshotPayloadDocument where
  source : SourceDocument := {}
  observedAt : Time := 0
  labels : StrMap String := StrMap.empty
  conditions : List ConditionDocument := []
  containers : List ContainerDocument := []
  workload : Option WorkloadDocument := none
  job : Option JobDocument := none
  event : Option EventDocument := none
  contentHash : String := ""

/-- A row of the snapshot collection. Its object ID is never looked at. -/
structure SnapshotDocument where
  incidentID : String := ""
  contentHash : String := ""
  observedAt : Time := 0
  snapshot : SnapshotPayloadDocument := {}
  expiresAt : Option Time := none

def sourceToDocument (value : Source) : SourceDocument where
  clusterID := value.clusterID
  apiVersion := value.apiVersion
  kind := value.kind
  «namespace» := value.namespace
  name := value.name
  uid := value.uid
  resourceVersion := value.resourceVersion
  generation := value.generation
  owner := value.owner.map fun o => ⟨o.apiVersion, o.kind, o.name, o.uid⟩

def sourceFromDocument (value : SourceDocument) : Source where
  clusterID := value.clusterID
  apiVersion := value.apiVersion
  kind := value.kind
  «namespace» := value.namespace
  name := value.name
  uid := value.uid
  resourceVersion := value.resourceVersion
  generation := value.generation
  owner := value.owner.map fun o => ⟨o.apiVersion, o.kind, o.name, o.uid⟩

def snapshotToDocument (incidentID : String) (value : Snapshot) (expiresAt : Option Time) :
    SnapshotDocument where
  incidentID := incidentID
  contentHash := value.contentHash
  observedAt := value.observedAt
  snapshot :=
    { source := sourceToDocument value.source
      observedAt := value.observedAt
      labels := value.labels
      conditions := value.conditions.map fun c =>
        ⟨c.type, c.status, c.reason, c.message, c.lastTransitionTime⟩
      containers := value.containers.map fun c =>
        ⟨c.name, c.ready, c.restartCount, c.state, c.reason, c.exitCode⟩
      workload := value.workload.map fun w =>
        ⟨w.desired, w.current, w.ready, w.available, w.updated, w.unavailable⟩
      job := value.job.map fun j => ⟨j.active, j.succeeded, j.failed, j.backoffLimit⟩
      event := value.event.map fun e =>
        ⟨e.type, e.reason, e.message, e.regardingUID, e.count, e.lastObserved⟩
      contentHash := value.contentHash }
  expiresAt := expiresAt

def snapshotFromDocument (value : SnapshotDocument) : SnapshotRow where
  incidentID := value.incidentID
  snapshot :=
    { source := sourceFromDocument value.snapshot.source
      observedAt := value.snapshot.observedAt
      labels := value.snapshot.labels
      conditions := value.snapshot.conditions.map fun c =>
        ⟨c.type, c.status, c.reason, c.message, c.lastTransitionTime⟩
      containers := value.snapshot.containers.map fun c =>
        ⟨c.name, c.ready, c.restartCount, c.state, c.reason, c.exitCode⟩
      workload := value.snapshot.workload.map fun w =>
        ⟨w.desired, w.current, w.ready, w.available, w.updated, w.unavailable⟩
      job := value.snapshot.job.map fun j => ⟨j.active, j.succeeded, j.failed, j.backoffLimit⟩
      event := value.snapshot.event.map fun e =>
        ⟨e.type, e.reason, e.message, e.regardingUID, e.count, e.lastObserved⟩
      contentHash := value.snapshot.contentHash }

section Codecs

/-- What a date keeps of a time. -/
theorem date_eq (t : Time) : t / 1000000 * 1000000 = bsonTime t := by
  have hdiv : ∀ n : Int, n / 1000000 * 1000000 = n - n % 1000000 := by
    intro n
    omega
  exact hdiv t

def ownerReferenceFields : List (BsonField OwnerReferenceDocument) :=
  [omitEmpty "api_version" .string (·.apiVersion) fun d x => { d with apiVersion := x },
    required "kind" .string (·.kind) fun d x => { d with kind := x },
    required "name" .string (·.name) fun d x => { d with name := x },
    required "uid" .string (·.uid) fun d x => { d with uid := x }]

theorem ownerReference_keys : (ownerReferenceFields.map BsonField.key).Nodup := by decide

theorem ownerReference_restored (d : OwnerReferenceDocument) :
    restoreAll ownerReferenceFields d {} = some d := by
  simp [ownerReferenceFields]

def ownerReferenceCodec : Codec OwnerReferenceDocument :=
  .struct ownerReferenceFields {} id ownerReference_keys ownerReference_restored rfl

@[simp] theorem ownerReferenceCodec_clip : ownerReferenceCodec.clip = id := rfl

def sourceFields : List (BsonField SourceDocument) :=
  [required "cluster_id" .string (·.clusterID) fun d x => { d with clusterID := x },
    required "api_version" .string (·.apiVersion) fun d x => { d with apiVersion := x },
    required "kind" .string (·.kind) fun d x => { d with kind := x },
    omitEmpty "namespace" .string (·.namespace) fun d x => { d with «namespace» := x },
    required "name" .string (·.name) fun d x => { d with name := x },
    required "uid" .string (·.uid) fun d x => { d with uid := x },
    omitEmpty "resource_version" .string (·.resourceVersion)
      fun d x => { d with resourceVersion := x },
    omitEmpty "generation" .int64 (·.generation) fun d x => { d with generation := x },
    pointer "owner" ownerReferenceCodec (·.owner) fun d x => { d with owner := x }]

theorem source_keys : (sourceFields.map BsonField.key).Nodup := by decide

theorem source_restored (d : SourceDocument) : restoreAll sourceFields d {} = some d := by
  simp [sourceFields]

def sourceCodec : Codec SourceDocument :=
  .struct sourceFields {} id source_keys source_restored rfl

@[simp] theorem sourceCodec_clip : sourceCodec.clip = id := rfl

def conditionFields : List (BsonField ConditionDocument) :=
  [required "type" .string (·.type) fun d x => { d with type := x },
    required "status" .string (·.status) fun d x => { d with status := x },
    omitEmpty "reason" .string (·.reason) fun d x => { d with reason := x },
    omitEmpty "message" .string (·.message) fun d x => { d with message := x },
    omitEmpty "last_transition_time" .time (·.lastTransitionTime)
      fun d x => { d with lastTransitionTime := x }]

def ConditionDocument.clip (d : ConditionDocument) : ConditionDocument :=
  { d with lastTransitionTime := bsonTime d.lastTransitionTime }

theorem condition_keys : (conditionFields.map BsonField.key).Nodup := by decide

theorem condition_restored (d : ConditionDocument) :
    restoreAll conditionFields d {} = some d.clip := by
  simp [conditionFields, ConditionDocument.clip, date_eq]

def conditionCodec : Codec ConditionDocument :=
  .struct conditionFields {} ConditionDocument.clip condition_keys condition_restored rfl

@[simp] theorem conditionCodec_clip : conditionCodec.clip = ConditionDocument.clip := rfl

def containerFields : List (BsonField ContainerDocument) :=
  [required "name" .string (·.name) fun d x => { d with name := x },
    required "ready" .boolean (·.ready) fun d x => { d with ready := x },
    required "restart_count" .int32 (·.restartCount) fun d x => { d with restartCount := x },
    required "state" .string (·.state) fun d x => { d with state := x },
    omitEmpty "reason" .string (·.reason) fun d x => { d with reason := x },
    omitEmpty "exit_code" .int32 (·.exitCode) fun d x => { d with exitCode := x }]

theorem container_keys : (containerFields.map BsonField.key).Nodup := by decide

theorem container_restored (d : ContainerDocument) :
    restoreAll containerFields d {} = some d := by
  simp [containerFields]

def containerCodec : Codec ContainerDocument :=
  .struct containerFields {} id container_keys container_restored rfl

@[simp] theorem containerCodec_clip : containerCodec.clip = id := rfl

/-- Without tags, the keys are the names of the fields in lower case. -/
def workloadFields : List (BsonField WorkloadDocument) :=
  [required "desired" .int32 (·.desired) fun d x => { d with desired := x },
    required "current" .int32 (·.current) fun d x => { d with current := x },
    required "ready" .int32 (·.ready) fun d x => { d with ready := x },
    required "available" .int32 (·.available) fun d x => { d with available := x },
    required "updated" .int32 (·.updated) fun d x => { d with updated := x },
    required "unavailable" .int32 (·.unavailable) fun d x => { d with unavailable := x }]

theorem workload_keys : (workloadFields.map BsonField.key).Nodup := by decide

def workloadCodec : Codec WorkloadDocument :=
  .struct workloadFields {} id workload_keys (fun _ => rfl) rfl

@[simp] theorem workloadCodec_clip : workloadCodec.clip = id := rfl

def jobFields : List (BsonField JobDocument) :=
  [required "active" .int32 (·.active) fun d x => { d with active := x },
    required "succeeded" .int32 (·.succeeded) fun d x => { d with succeeded := x },
    required "failed" .int32 (·.failed) fun d x => { d with failed := x },
    required "backoff_limit" .int32 (·.backoffLimit) fun d x => { d with backoffLimit := x }]

theorem job_keys : (jobFields.map BsonField.key).Nodup := by decide

def jobCodec : Codec JobDocument := .struct jobFields {} id job_keys (fun _ => rfl) rfl

@[simp] theorem jobCodec_clip : jobCodec.clip = id := rfl

def eventFields : List (BsonField EventDocument) :=
  [required "type" .string (·.type) fun d x => { d with type := x },
    required "reason" .string (·.reason) fun d x => { d with reason := x },
    omitEmpty "message" .string (·.message) fun d x => { d with message := x },
    omitEmpty "regarding_uid" .string (·.regardingUID) fun d x => { d with regardingUID := x },
    required "count" .int32 (·.count) fun d x => { d with count := x },
    omitEmpty "last_observed" .time (·.lastObserved) fun d x => { d with lastObserved := x }]

def EventDocument.clip (d : EventDocument) : EventDocument :=
  { d with lastObserved := bsonTime d.lastObserved }

theorem event_keys : (eventFields.map BsonField.key).Nodup := by decide

theorem event_restored (d : EventDocument) : restoreAll eventFields d {} = some d.clip := by
  simp [eventFields, EventDocument.clip, date_eq]

def eventCodec : Codec EventDocument :=
  .struct eventFields {} EventDocument.clip event_keys event_restored rfl

@[simp] theorem eventCodec_clip : eventCodec.clip = EventDocument.clip := rfl

def payloadFields : List (BsonField SnapshotPayloadDocument) :=
  [required "source" sourceCodec (·.source) fun d x => { d with source := x },
    required "observed_at" .time (·.observedAt) fun d x => { d with observedAt := x },
    omitEmpty "labels" .strings (·.labels) fun d x => { d with labels := x },
    slice "conditions" conditionCodec (·.conditions) fun d x => { d with conditions := x },
    slice "containers" containerCodec (·.containers) fun d x => { d with containers := x },
    pointer "workload" workloadCodec (·.workload) fun d x => { d with workload := x },
    pointer "job" jobCodec (·.job) fun d x => { d with job := x },
    pointer "event" eventCodec (·.event) fun d x => { d with event := x },
    required "content_hash" .string (·.contentHash) fun d x => { d with contentHash := x }]

def SnapshotPayloadDocument.clip (d : SnapshotPayloadDocument) : SnapshotPayloadDocument :=
  { d with
    observedAt := bsonTime d.observedAt
    conditions := d.conditions.map ConditionDocument.clip
    event := d.event.map EventDocument.clip }

theorem payload_keys : (payloadFields.map BsonField.key).Nodup := by decide

theorem payload_restored (d : SnapshotPayloadDocument) :
    restoreAll payloadFields d {} = some d.clip := by
  simp [payloadFields, SnapshotPayloadDocument.clip, date_eq]

def payloadCodec : Codec SnapshotPayloadDocument :=
  .struct payloadFields {} SnapshotPayloadDocument.clip payload_keys payload_restored rfl

@[simp] theorem payloadCodec_clip : payloadCodec.clip = SnapshotPayloadDocument.clip := rfl

def snapshotFields : List (BsonField SnapshotDocument) :=
  [required "incident_id" .string (·.incidentID) fun d x => { d with incidentID := x },
    required "content_hash" .string (·.contentHash) fun d x => { d with contentHash := x },
    required "observed_at" .time (·.observedAt) fun d x => { d with observedAt := x },
    required "snapshot" payloadCodec (·.snapshot) fun d x => { d with snapshot := x },
    pointer "expires_at" .time (·.expiresAt) fun d x => { d with expiresAt := x }]

def SnapshotDocument.clip (d : SnapshotDocument) : SnapshotDocument :=
  { d with
    observedAt := bsonTime d.observedAt
    snapshot := d.snapshot.clip
    expiresAt := d.expiresAt.map bsonTime }

theorem snapshot_keys : (snapshotFields.map BsonField.key).Nodup := by decide

theorem snapshot_restored (d : SnapshotDocument) :
    restoreAll snapshotFields d {} = some d.clip := by
  simp [snapshotFields, SnapshotDocument.clip, date_eq]

def snapshotCodec : Codec SnapshotDocument :=
  .struct snapshotFields {} SnapshotDocument.clip snapshot_keys snapshot_restored rfl

end Codecs

/-- What is written for a snapshot and read back is the row that the store keeps for it. -/
theorem snapshot_read_back (incidentID : String) (s : Snapshot) (expiresAt : Option Time) :
    (snapshotCodec.read (snapshotCodec.write (snapshotToDocument incidentID s expiresAt))).map
      snapshotFromDocument = some ⟨incidentID, s.toDocument⟩ := by
  rw [snapshotCodec.read_write, Option.map_some]
  have hclip : snapshotCodec.clip = SnapshotDocument.clip := rfl
  simp [hclip, snapshotToDocument, snapshotFromDocument, sourceToDocument, sourceFromDocument,
    SnapshotDocument.clip, SnapshotPayloadDocument.clip, ConditionDocument.clip,
    EventDocument.clip, Snapshot.toDocument, Function.comp_def]

end RuleRaven.Mapping
