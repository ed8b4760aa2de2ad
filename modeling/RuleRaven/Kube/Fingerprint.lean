import RuleRaven.Encoding

namespace RuleRaven.Kube

open Framework

def contentHashSchema : String := "ruleraven.snapshot.v1\x00"

def incidentKeySchema : String := "ruleraven.incident.v1\x00"

structure CanonicalSource where
  clusterID : String
  apiVersion : String
  kind : String
  uid : String
  generation : Int64
  owner : Option OwnerReference
  deriving DecidableEq

/-- A condition once its transition time is zeroed. -/
structure CanonicalCondition where
  type : String
  status : String
  reason : String
  message : String
  deriving DecidableEq

structure CanonicalEvent where
  type : String
  reason : String
  message : String
  regardingUID : String
  deriving DecidableEq

/-- The material facts of a snapshot, in the order they are hashed. -/
structure CanonicalSnapshot where
  source : CanonicalSource
  labels : StrMap String
  conditions : List CanonicalCondition
  containers : List ContainerState
  workload : Option WorkloadState
  job : Option JobState
  event : Option CanonicalEvent
  deriving DecidableEq

def CanonicalCondition.ofCondition (c : Condition) : CanonicalCondition :=
  ⟨c.type, c.status, c.reason, c.message⟩

def conditionLess (a b : CanonicalCondition) : Bool :=
  if a.type ≠ b.type then a.type < b.type
  else if a.status ≠ b.status then a.status < b.status
  else if a.reason ≠ b.reason then a.reason < b.reason
  else a.message < b.message

def containerLess (a b : ContainerState) : Bool :=
  if a.name ≠ b.name then a.name < b.name
  else if a.state ≠ b.state then a.state < b.state
  else a.reason < b.reason

def canonical (s : Snapshot) : CanonicalSnapshot where
  source := ⟨s.source.clusterID, s.source.apiVersion, s.source.kind, s.source.uid,
    s.source.generation, s.source.owner⟩
  labels := s.labels
  conditions := sortSlice conditionLess (s.conditions.map CanonicalCondition.ofCondition)
  containers := sortSlice containerLess s.containers
  workload := s.workload
  job := s.job
  event := s.event.map fun e => ⟨e.type, e.reason, e.message, e.regardingUID⟩

def CanonicalSource.toJson (s : CanonicalSource) : Json :=
  .obj ([("clusterId", .str s.clusterID), ("apiVersion", .str s.apiVersion),
      ("kind", .str s.kind), ("uid", .str s.uid), ("generation", .num s.generation.toInt)] ++
    optField "owner" (s.owner.map OwnerReference.toJson))

def CanonicalEvent.toJson (e : CanonicalEvent) : Json :=
  .obj ([("type", .str e.type), ("reason", .str e.reason)] ++ strField "message" e.message ++
    strField "regardingUid" e.regardingUID)

/-- A zeroed time is still written out. -/
def CanonicalCondition.toJson (c : CanonicalCondition) : Json :=
  Condition.toJson ⟨c.type, c.status, c.reason, c.message, 0⟩ "0001-01-01T00:00:00Z"

def keyValueJson (e : String × String) : Json := .obj [("key", .str e.1), ("value", .str e.2)]

def CanonicalSnapshot.toJson (s : CanonicalSnapshot) : Json :=
  .obj ([("source", s.source.toJson)] ++
    listField "labels" (s.labels.entries.map keyValueJson) ++
    listField "conditions" (s.conditions.map CanonicalCondition.toJson) ++
    listField "containers" (s.containers.map ContainerState.toJson) ++
    optField "workload" (s.workload.map WorkloadState.toJson) ++
    optField "job" (s.job.map JobState.toJson) ++
    optField "event" (s.event.map CanonicalEvent.toJson))

/-- The encoding has no time left in it, so `json.Marshal` cannot fail on it. -/
def contentHash (H : Hasher) (s : Snapshot) : String :=
  "sha256:" ++ H.hex (contentHashSchema ++ (canonical s).toJson.marshal)

def incidentKey (H : Hasher) (source : Source) : String :=
  "incident:v1:" ++ H.hex (incidentKeySchema ++ source.clusterID ++ "\x00" ++ source.uid)

theorem contentHash_visible (H : Hasher) (s : Snapshot) : isBlank (contentHash H s) = false :=
  isBlank_append_hex H _ _

theorem incidentKey_visible (H : Hasher) (source : Source) :
    isBlank (incidentKey H source) = false :=
  isBlank_append_hex H _ _

theorem CanonicalSource.toJson_injective : Function.Injective CanonicalSource.toJson := by
  intro a b h
  have hc := congrArg (fieldOf · "clusterId") h
  have hv := congrArg (fieldOf · "apiVersion") h
  have hk := congrArg (fieldOf · "kind") h
  have hu := congrArg (fieldOf · "uid") h
  have hg := congrArg (fieldOf · "generation") h
  have ho := congrArg (fieldOf · "owner") h
  simp [fieldOf, toJson, lookup_optField, List.lookup_cons, Int64.toInt_inj] at hc hv hk hu hg ho
  have howner : a.owner = b.owner := Option.map_injective OwnerReference.toJson_injective ho
  cases a; cases b
  simp_all

theorem CanonicalEvent.toJson_injective : Function.Injective CanonicalEvent.toJson := by
  intro a b h
  have ht := congrArg (fieldOf · "type") h
  have hr := congrArg (fieldOf · "reason") h
  have hm := congrArg (fieldOf · "message") h
  have hu := congrArg (fieldOf · "regardingUid") h
  simp [fieldOf, toJson, List.lookup_append, lookup_strField, List.lookup_cons] at ht hr hm hu
  cases a; cases b
  simp_all

theorem CanonicalCondition.toJson_injective : Function.Injective CanonicalCondition.toJson := by
  intro a b h
  obtain ⟨ht, hs, hr, hm⟩ := Condition.toJson_inj _ _ _ _ h
  cases a; cases b
  simp_all

theorem keyValueJson_injective : Function.Injective keyValueJson := by
  rintro ⟨k, v⟩ ⟨k', v'⟩ h
  simpa [keyValueJson] using h

theorem CanonicalSnapshot.toJson_injective : Function.Injective CanonicalSnapshot.toJson := by
  intro a b h
  have hsource := congrArg (fieldOf · "source") h
  have hlabels := congrArg (fieldOf · "labels") h
  have hconditions := congrArg (fieldOf · "conditions") h
  have hcontainers := congrArg (fieldOf · "containers") h
  have hworkload := congrArg (fieldOf · "workload") h
  have hjob := congrArg (fieldOf · "job") h
  have hevent := congrArg (fieldOf · "event") h
  simp only [fieldOf, toJson, List.lookup_append, List.append_assoc, lookup_optField,
    lookup_listField, List.lookup_cons, List.cons_append, List.nil_append, String.reduceBEq,
    String.reduceEq, if_true, if_false, Option.none_or, Option.or_none, beq_self_eq_true,
    Option.some.injEq, optArr_inj] at hsource hlabels hconditions hcontainers hworkload hjob hevent
  have hs := CanonicalSource.toJson_injective hsource
  have hl := StrMap.ext (keyValueJson_injective.list_map hlabels)
  have hc := CanonicalCondition.toJson_injective.list_map hconditions
  have hk := ContainerState.toJson_injective.list_map hcontainers
  have hw := Option.map_injective WorkloadState.toJson_injective hworkload
  have hj := Option.map_injective JobState.toJson_injective hjob
  have he := Option.map_injective CanonicalEvent.toJson_injective hevent
  cases a; cases b
  simp_all

section Facts

variable {s t : Snapshot} (h : canonical s = canonical t)

include h

theorem canonical_kind : s.source.kind = t.source.kind := congrArg (·.source.kind) h

theorem canonical_labels : s.labels = t.labels := congrArg CanonicalSnapshot.labels h

theorem canonical_workload : s.workload = t.workload := congrArg CanonicalSnapshot.workload h

theorem canonical_job : s.job = t.job := congrArg CanonicalSnapshot.job h

theorem canonical_event_isSome : s.event.isSome = t.event.isSome := by
  have he := congrArg (fun c => c.event.isSome) h
  simpa [canonical] using he

/-- What is asked of any one condition, its time aside, has the same answer. -/
theorem canonical_conditions_any (p : CanonicalCondition → Bool) :
    s.conditions.any (fun c => p (.ofCondition c)) =
      t.conditions.any (fun c => p (.ofCondition c)) := by
  have hsorted : sortSlice conditionLess (s.conditions.map CanonicalCondition.ofCondition) =
      sortSlice conditionLess (t.conditions.map CanonicalCondition.ofCondition) :=
    congrArg CanonicalSnapshot.conditions h
  have hs := sortSlice_perm conditionLess (s.conditions.map CanonicalCondition.ofCondition)
  have ht := sortSlice_perm conditionLess (t.conditions.map CanonicalCondition.ofCondition)
  have hperm := hs.symm.trans (hsorted ▸ ht)
  simpa [List.any_map, Function.comp_def] using hperm.any_eq

theorem canonical_containers_any (p : ContainerState → Bool) :
    s.containers.any p = t.containers.any p := by
  have hsorted : sortSlice containerLess s.containers = sortSlice containerLess t.containers :=
    congrArg CanonicalSnapshot.containers h
  have hs := sortSlice_perm containerLess s.containers
  have ht := sortSlice_perm containerLess t.containers
  exact (hs.symm.trans (hsorted ▸ ht)).any_eq

end Facts

/-- Two snapshots share a fingerprint exactly when they agree on every material fact. -/
theorem contentHash_eq_iff {H : Hasher} (hH : H.CollisionFree) (s t : Snapshot) :
    contentHash H s = contentHash H t ↔ canonical s = canonical t := by
  constructor
  · intro h
    have hhex := String.append_right_inj _ |>.mp h
    have hjson := String.append_right_inj _ |>.mp (hH hhex)
    exact CanonicalSnapshot.toJson_injective (Json.marshal_injective hjson)
  · intro h
    rw [contentHash, contentHash, h]

end RuleRaven.Kube
