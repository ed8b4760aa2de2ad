import RuleRaven.Domain
import RuleRaven.Framework.Json

namespace RuleRaven

open Framework

/-- A number under `omitempty`. -/
def intField (name : String) (value : Int) : List (String × Json) :=
  optField name (if value = 0 then none else some (.num value))

theorem lookup_intField (name key : String) (value : Int) :
    (intField name value).lookup key =
      if key = name then (if value = 0 then none else some (.num value)) else none :=
  lookup_optField name key _

@[simp] theorem optNum_inj (m n : Int) :
    ((if m = 0 then none else some (Json.num m)) =
      if n = 0 then none else some (Json.num n)) ↔ m = n := by
  split_ifs with hm hn hn <;> simp_all [eq_comm]

/-- A list under `omitempty`. -/
def listField (name : String) (items : List Json) : List (String × Json) :=
  optField name (if items = [] then none else some (.arr items))

theorem lookup_listField (name key : String) (items : List Json) :
    (listField name items).lookup key =
      if key = name then (if items = [] then none else some (.arr items)) else none :=
  lookup_optField name key _

@[simp] theorem optArr_inj (xs ys : List Json) :
    ((if xs = [] then none else some (Json.arr xs)) =
      if ys = [] then none else some (Json.arr ys)) ↔ xs = ys := by
  split_ifs with hx hy hy <;> simp_all [eq_comm]

def OwnerReference.toJson (o : OwnerReference) : Json :=
  .obj (strField "apiVersion" o.apiVersion ++
    [("kind", .str o.kind), ("name", .str o.name), ("uid", .str o.uid)])

def Source.toJson (s : Source) : Json :=
  .obj ([("clusterId", .str s.clusterID), ("apiVersion", .str s.apiVersion),
      ("kind", .str s.kind)] ++ strField "namespace" s.namespace ++
    [("name", .str s.name), ("uid", .str s.uid)] ++
    strField "resourceVersion" s.resourceVersion ++ intField "generation" s.generation.toInt ++
    optField "owner" (s.owner.map OwnerReference.toJson))

/-- The transition time is a struct, which `omitempty` never leaves out. -/
def Condition.toJson (c : Condition) (transition : String) : Json :=
  .obj ([("type", .str c.type), ("status", .str c.status)] ++ strField "reason" c.reason ++
    strField "message" c.message ++ [("lastTransitionTime", .str transition)])

def ContainerState.toJson (c : ContainerState) : Json :=
  .obj ([("name", .str c.name), ("ready", .bool c.ready),
      ("restartCount", .num c.restartCount.toInt), ("state", .str c.state)] ++
    strField "reason" c.reason ++ intField "exitCode" c.exitCode.toInt)

def WorkloadState.toJson (w : WorkloadState) : Json :=
  .obj [("desired", .num w.desired.toInt), ("current", .num w.current.toInt),
    ("ready", .num w.ready.toInt), ("available", .num w.available.toInt),
    ("updated", .num w.updated.toInt), ("unavailable", .num w.unavailable.toInt)]

def JobState.toJson (j : JobState) : Json :=
  .obj [("active", .num j.active.toInt), ("succeeded", .num j.succeeded.toInt),
    ("failed", .num j.failed.toInt), ("backoffLimit", .num j.backoffLimit.toInt)]

def EventState.toJson (e : EventState) (lastObserved : String) : Json :=
  .obj ([("type", .str e.type), ("reason", .str e.reason)] ++ strField "message" e.message ++
    strField "regardingUid" e.regardingUID ++
    [("count", .num e.count.toInt), ("lastObserved", .str lastObserved)])

def labelsJson (labels : StrMap String) : Option Json :=
  if labels.entries = [] then none
  else some (.obj (labels.entries.map fun e => (e.1, .str e.2)))

/-- `json.Marshal(snapshot)`, without a value when a time has no RFC 3339 form. -/
def Snapshot.toJson (s : Snapshot) : Option Json := do
  let observedAt ← s.observedAt.format
  let conditions ← s.conditions.mapM fun c => do
    let transition ← c.lastTransitionTime.format
    pure (c.toJson transition)
  let event ← match s.event with
    | none => pure none
    | some e => do
      let lastObserved ← e.lastObserved.format
      pure (some (e.toJson lastObserved))
  pure (.obj ([("source", s.source.toJson), ("observedAt", .str observedAt)] ++
    optField "labels" (labelsJson s.labels) ++ listField "conditions" conditions ++
    listField "containers" (s.containers.map ContainerState.toJson) ++
    optField "workload" (s.workload.map WorkloadState.toJson) ++
    optField "job" (s.job.map JobState.toJson) ++ optField "event" event ++
    strField "contentHash" s.contentHash))

section Parts

/-- The fields of a snapshot before its conditions, and those between them and the fingerprint. -/
def Snapshot.leading (s : Snapshot) (observedAt : String) : List (String × Json) :=
  [("source", s.source.toJson), ("observedAt", .str observedAt)] ++
    optField "labels" (labelsJson s.labels)

def Snapshot.trailing (s : Snapshot) (event : Option Json) : List (String × Json) :=
  listField "containers" (s.containers.map ContainerState.toJson) ++
    optField "workload" (s.workload.map WorkloadState.toJson) ++
    optField "job" (s.job.map JobState.toJson) ++ optField "event" event

def conditionsJson (conditions : List Condition) : Option (List Json) :=
  conditions.mapM fun c => c.lastTransitionTime.format.map c.toJson

def eventJson : Option EventState → Option (Option Json)
  | none => some none
  | some e => e.lastObserved.format.map fun lastObserved => some (e.toJson lastObserved)

/-- An encoding by its parts. -/
theorem Snapshot.toJson_eq_some {s : Snapshot} {encoded : Json} : s.toJson = some encoded ↔
    ∃ observedAt conditions event, s.observedAt.format = some observedAt ∧
      conditionsJson s.conditions = some conditions ∧ eventJson s.event = some event ∧
      encoded = .obj (s.leading observedAt ++ listField "conditions" conditions ++
        s.trailing event ++ strField "contentHash" s.contentHash) := by
  have hconditions : (s.conditions.mapM fun c => do
      let transition ← c.lastTransitionTime.format
      pure (c.toJson transition)) = conditionsJson s.conditions := by
    unfold conditionsJson
    congr 1
    funext c
    cases c.lastTransitionTime.format <;> rfl
  unfold toJson leading trailing
  rw [hconditions]
  cases s.observedAt.format with
  | none => simp
  | some observedAt =>
    cases conditionsJson s.conditions with
    | none => simp
    | some conditions =>
      cases s.event with
      | none => simp [eventJson, eq_comm]
      | some e => cases hlast : e.lastObserved.format <;> simp [eventJson, hlast, eq_comm]

end Parts

theorem OwnerReference.toJson_injective : Function.Injective OwnerReference.toJson := by
  intro a b h
  have hv := congrArg (fieldOf · "apiVersion") h
  have hk := congrArg (fieldOf · "kind") h
  have hn := congrArg (fieldOf · "name") h
  have hu := congrArg (fieldOf · "uid") h
  simp [fieldOf, toJson, List.lookup_append, lookup_strField, List.lookup_cons] at hv hk hn hu
  cases a; cases b
  simp_all

/-- The encoding keeps everything of a condition but its time. -/
theorem Condition.toJson_inj (a b : Condition) (t u : String) (h : a.toJson t = b.toJson u) :
    a.type = b.type ∧ a.status = b.status ∧ a.reason = b.reason ∧ a.message = b.message := by
  have ht := congrArg (fieldOf · "type") h
  have hs := congrArg (fieldOf · "status") h
  have hr := congrArg (fieldOf · "reason") h
  have hm := congrArg (fieldOf · "message") h
  simp [fieldOf, toJson, List.lookup_append, lookup_strField, List.lookup_cons] at ht hs hr hm
  exact ⟨ht, hs, hr, hm⟩

theorem ContainerState.toJson_injective : Function.Injective ContainerState.toJson := by
  intro a b h
  have hn := congrArg (fieldOf · "name") h
  have hr := congrArg (fieldOf · "ready") h
  have hc := congrArg (fieldOf · "restartCount") h
  have hs := congrArg (fieldOf · "state") h
  have hw := congrArg (fieldOf · "reason") h
  have hx := congrArg (fieldOf · "exitCode") h
  simp [fieldOf, toJson, List.lookup_append, lookup_strField, lookup_intField, List.lookup_cons,
    Int32.toInt_inj] at hn hr hc hs hw hx
  cases a; cases b
  simp_all

theorem WorkloadState.toJson_injective : Function.Injective WorkloadState.toJson := by
  intro a b h
  simp only [toJson, Json.obj.injEq, List.cons.injEq, Prod.mk.injEq, Json.num.injEq,
    Int32.toInt_inj, true_and, and_true] at h
  cases a; cases b
  simp_all

theorem JobState.toJson_injective : Function.Injective JobState.toJson := by
  intro a b h
  simp only [toJson, Json.obj.injEq, List.cons.injEq, Prod.mk.injEq, Json.num.injEq,
    Int32.toInt_inj, true_and, and_true] at h
  cases a; cases b
  simp_all

end RuleRaven
