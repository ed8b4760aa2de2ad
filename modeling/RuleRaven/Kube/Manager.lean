import RuleRaven.Kube.Resolver
import Mathlib.Data.List.Dedup

namespace RuleRaven.Kube

open Framework

/-- The kind of an object: as it says itself, or by its Go type. -/
def objectKind (object : Object) : String :=
  if object.header.kind ≠ "" then object.header.kind else object.resource

/-- The namespaces to watch, all if there is none, and whether `Stop` was not called yet. -/
structure EventHandler where
  namespaces : List String
  accepting : Bool := true
  deriving DecidableEq

def newEventHandler (namespaces : List String) : EventHandler where
  namespaces := (namespaces.map trimSpace).filter (· ≠ "")

/-- The key that a callback adds to the queue. -/
def EventHandler.enqueue (handler : EventHandler) (object : Object) : Option ResourceKey :=
  let metadata := object.header.metadata
  if !handler.accepting then none
  else if metadata.name = "" ∨ metadata.uid = "" then none
  else if handler.namespaces ≠ [] ∧ metadata.namespace ∉ handler.namespaces then none
  else if objectKind object = "" then none
  else some ⟨objectKind object, metadata.namespace, metadata.name, metadata.uid⟩

def EventHandler.onAdd (handler : EventHandler) (object : Object) : Option ResourceKey :=
  handler.enqueue object

/-- The resources that have an informer, with the kind of their objects. -/
def supportedResources : List (String × String) :=
  [("pods", "Pod"), ("events", "Event"), ("deployments", "Deployment"),
    ("statefulsets", "StatefulSet"), ("daemonsets", "DaemonSet"), ("jobs", "Job")]

def resourceName (resource : String) : String := toLower (trimSpace resource)

/-- The loop of `normalizeResources`. -/
def selectResources (seen : List String) : List String → Except Err (List String)
  | [] => .ok []
  | resource :: resources =>
    let name := resourceName resource
    if supportedResources.lookup name = none then
      .error ⟨"unsupported Kubernetes resource \"" ++ name ++ "\"", none⟩
    else if name ∈ seen then
      .error ⟨"duplicate Kubernetes resource \"" ++ name ++ "\"", none⟩
    else (selectResources (name :: seen) resources).map (name :: ·)

def normalizeResources (resources : List String) : Except Err (List String) :=
  if resources = [] then .error ⟨"at least one Kubernetes resource must be configured", none⟩
  else (selectResources [] resources).map (sortSlice (· < ·))

def normalizeNamespaces (namespaces : List String) : List String :=
  sortSlice (· < ·) ((namespaces.map trimSpace).filter (· ≠ "")).dedup

/-- One informer per resource and namespace, or per resource if no namespace is given. -/
structure InformerFactory where
  namespaces : List String
  resources : List String
  deriving DecidableEq

def newInformerFactory (namespaces resources : List String) : Except Err InformerFactory :=
  (normalizeResources resources).map fun selected => ⟨normalizeNamespaces namespaces, selected⟩

/-- What the informers list when they start. -/
def InformerFactory.initialList (factory : InformerFactory) (cluster : List Object) :
    List Object :=
  (if factory.namespaces = [] then [none] else factory.namespaces.map some).flatMap fun ns =>
    factory.resources.flatMap fun resource => cluster.filter fun object =>
      supportedResources.lookup resource == some object.resource &&
        ns.all (· == object.header.metadata.namespace)

structure ManagerConfig where
  namespaces : List String := []
  resources : List String
  workers : Int

structure Manager where
  factory : InformerFactory
  handler : EventHandler
  workers : Int
  deriving DecidableEq

def newManager (config : ManagerConfig) : Except Err Manager :=
  if config.workers ≤ 0 then .error ⟨"manager workers must be positive", none⟩
  else (newInformerFactory config.namespaces config.resources).map fun factory =>
    ⟨factory, newEventHandler config.namespaces, config.workers⟩

/-- The keys that the informers enqueue when they start. -/
def Manager.listed (manager : Manager) (cluster : List Object) : List ResourceKey :=
  (manager.factory.initialList cluster).filterMap manager.handler.onAdd

/-- The key of an object, unless it lacks a part of one. -/
def Object.key (object : Object) : Option ResourceKey :=
  let metadata := object.header.metadata
  if metadata.name = "" ∨ metadata.uid = "" ∨ objectKind object = "" then none
  else some ⟨objectKind object, metadata.namespace, metadata.name, metadata.uid⟩

/-- The configuration asks for objects of this kind in this namespace. -/
def ManagerConfig.Watches (config : ManagerConfig) (object : Object) : Prop :=
  (∃ resource ∈ config.resources,
    supportedResources.lookup (resourceName resource) = some object.resource) ∧
  ((∀ ns ∈ config.namespaces, trimSpace ns = "") ∨
    ∃ ns ∈ config.namespaces, trimSpace ns ≠ "" ∧ trimSpace ns = object.header.metadata.namespace)

section Listed

variable {config : ManagerConfig} {manager : Manager} {object : Object}

theorem mem_selectResources {seen resources selected : List String}
    (h : selectResources seen resources = .ok selected) {name : String} :
    name ∈ selected ↔ ∃ resource ∈ resources, resourceName resource = name := by
  induction resources generalizing seen selected with
  | nil =>
    cases h
    simp
  | cons resource resources ih =>
    simp only [selectResources] at h
    split_ifs at h
    cases hrest : selectResources (resourceName resource :: seen) resources with
    | error err =>
      rw [hrest] at h
      cases h
    | ok rest =>
      rw [hrest] at h
      cases h
      rw [List.mem_cons, ih hrest, List.exists_mem_cons_iff, eq_comm]

/-- The handler keeps the namespaces that the informers watch. -/
theorem mem_watched {namespaces : List String} {ns : String} :
    ns ∈ (namespaces.map trimSpace).filter (· ≠ "") ↔
      ∃ n ∈ namespaces, trimSpace n ≠ "" ∧ trimSpace n = ns := by
  simp only [List.mem_filter, List.mem_map, decide_eq_true_eq]
  constructor
  · rintro ⟨⟨n, hn, rfl⟩, hne⟩
    exact ⟨n, hn, hne, rfl⟩
  · rintro ⟨n, hn, hne, rfl⟩
    exact ⟨⟨n, hn, rfl⟩, hne⟩

theorem watched_eq_nil {namespaces : List String} :
    (namespaces.map trimSpace).filter (· ≠ "") = [] ↔ ∀ ns ∈ namespaces, trimSpace ns = "" := by
  simp [List.filter_eq_nil_iff]

theorem mem_normalizeNamespaces {namespaces : List String} {ns : String} :
    ns ∈ normalizeNamespaces namespaces ↔ ns ∈ (namespaces.map trimSpace).filter (· ≠ "") := by
  rw [normalizeNamespaces, (sortSlice_perm _ _).mem_iff, List.mem_dedup]

theorem normalizeNamespaces_eq_nil {namespaces : List String} :
    normalizeNamespaces namespaces = [] ↔ ∀ ns ∈ namespaces, trimSpace ns = "" := by
  rw [← watched_eq_nil, List.eq_nil_iff_forall_not_mem, List.eq_nil_iff_forall_not_mem]
  simp only [mem_normalizeNamespaces]

/-- What `NewManager` returns. -/
theorem newManager_eq_ok (h : newManager config = .ok manager) :
    (∃ selected, selectResources [] config.resources = .ok selected ∧
      manager.factory = ⟨normalizeNamespaces config.namespaces, sortSlice (· < ·) selected⟩) ∧
    manager.handler = newEventHandler config.namespaces := by
  unfold newManager newInformerFactory normalizeResources at h
  split_ifs at h
  · cases h
  · cases hselected : selectResources [] config.resources with
    | error err =>
      rw [hselected] at h
      cases h
    | ok selected =>
      rw [hselected] at h
      cases h
      exact ⟨⟨selected, rfl, rfl⟩, rfl⟩

theorem mem_initialList (h : newManager config = .ok manager) {cluster : List Object} :
    object ∈ manager.factory.initialList cluster ↔ object ∈ cluster ∧ config.Watches object := by
  obtain ⟨⟨selected, hselected, hfactory⟩, -⟩ := newManager_eq_ok h
  simp only [InformerFactory.initialList, hfactory, List.mem_flatMap, List.mem_filter,
    (sortSlice_perm _ _).mem_iff, mem_selectResources hselected, Bool.and_eq_true, beq_iff_eq]
  constructor
  · rintro ⟨ns, hns, name, ⟨resource, hresource, rfl⟩, hmem, hkind, hmatch⟩
    refine ⟨hmem, ⟨resource, hresource, hkind⟩, ?_⟩
    split_ifs at hns with hall
    · exact Or.inl (normalizeNamespaces_eq_nil.mp hall)
    · obtain ⟨n, hn, rfl⟩ := List.mem_map.mp hns
      obtain ⟨m, hm, hne, rfl⟩ := mem_watched.mp (mem_normalizeNamespaces.mp hn)
      exact Or.inr ⟨m, hm, hne, by simpa using hmatch⟩
  · rintro ⟨hmem, ⟨resource, hresource, hkind⟩, hall | ⟨n, hn, hne, hmatch⟩⟩
    · refine ⟨none, ?_, _, ⟨resource, hresource, rfl⟩, hmem, hkind, rfl⟩
      rw [if_pos (normalizeNamespaces_eq_nil.mpr hall)]
      exact List.mem_singleton_self _
    · have hns := mem_normalizeNamespaces.mpr (mem_watched.mpr ⟨n, hn, hne, hmatch⟩)
      refine ⟨some object.header.metadata.namespace, ?_, _, ⟨resource, hresource, rfl⟩, hmem, hkind,
        by simp⟩
      rw [if_neg fun hnil => by rw [hnil] at hns; cases hns]
      exact List.mem_map_of_mem hns

/-- An object that is watched is enqueued under its key. -/
theorem onAdd_watched (h : newManager config = .ok manager) (hw : config.Watches object) :
    manager.handler.onAdd object = object.key := by
  obtain ⟨-, hhandler⟩ := newManager_eq_ok h
  have hns : ¬ ((newEventHandler config.namespaces).namespaces ≠ [] ∧
      object.header.metadata.namespace ∉ (newEventHandler config.namespaces).namespaces) := by
    rintro ⟨hne, hnot⟩
    rcases hw.2 with hall | hsome
    · exact hne (watched_eq_nil.mpr hall)
    · exact hnot (mem_watched.mpr hsome)
  simp only [EventHandler.onAdd, EventHandler.enqueue, hhandler, Object.key]
  rw [if_neg (by simp [newEventHandler]), if_neg hns]
  by_cases hname : object.header.metadata.name = "" <;>
    by_cases huid : object.header.metadata.uid = "" <;> simp [hname, huid]

/-- The informers enqueue the objects of the cluster that the configuration asks for. -/
theorem mem_listed (h : newManager config = .ok manager) {cluster : List Object}
    {key : ResourceKey} :
    key ∈ manager.listed cluster ↔
      ∃ object ∈ cluster, config.Watches object ∧ object.key = some key := by
  simp only [Manager.listed, List.mem_filterMap, mem_initialList h]
  constructor
  · rintro ⟨object, ⟨hmem, hw⟩, hkey⟩
    exact ⟨object, hmem, hw, (onAdd_watched h hw).symm.trans hkey⟩
  · rintro ⟨object, hmem, hw, hkey⟩
    exact ⟨object, ⟨hmem, hw⟩, (onAdd_watched h hw).trans hkey⟩

end Listed

end RuleRaven.Kube
