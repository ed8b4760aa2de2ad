import RuleRaven.Controller.Scenario
import RuleRaven.Kube.Manager

namespace RuleRaven

open Framework Kube

def Store.listOpenIncidents (s : Store) : List Incident :=
  s.incidents.rows.filter fun incident => incident.status == .open

/-- The queue key of the resource of an incident. `Reconcile` knows the kind of an event under
one spelling only. -/
def Incident.resourceKey (incident : Incident) : ResourceKey :=
  ⟨if equalFold incident.source.kind "Event" then "Event" else incident.source.kind,
    incident.source.namespace, incident.source.name, incident.source.uid⟩

namespace Controller

/-- A sweeper: `NewResolutionSweeper` accepts nothing else. -/
structure ResolutionSweeper where
  clusterID : String
  interval : Duration
  clusterID_visible : isBlank clusterID = false
  interval_pos : 0 < interval

def newResolutionSweeper (clusterID : String) (interval : Duration) :
    Except Err ResolutionSweeper :=
  if h : isBlank clusterID = true ∨ interval ≤ 0 then
    .error ⟨"resolution sweeper store, queue, cluster ID, and positive interval are required", none⟩
  else .ok
    { clusterID := clusterID
      interval := interval
      clusterID_visible := by simpa using (not_or.mp h).1
      interval_pos := Int64.not_le.mp (not_or.mp h).2 }

/-- The keys that a sweep adds to the queue, given what the store lists. -/
def ResolutionSweeper.sweepOnce (sweeper : ResolutionSweeper)
    (listed : Except Err (List Incident)) : Except Err (List ResourceKey) :=
  match listed with
  | .error err => .error (err.wrap "list incidents for resolution")
  | .ok incidents => .ok <| (incidents.filter fun incident =>
      incident.clusterID == sweeper.clusterID && equalFold incident.source.kind "Event").map
    fun incident =>
      ⟨"Event", incident.source.namespace, incident.source.name, incident.source.uid⟩

/-- What is in the queue once the informers have listed the cluster and the first sweep is done. -/
def startupKeys (manager : Manager) (sweeper : ResolutionSweeper) (s : Store)
    (cluster : List Object) : Except Err (List ResourceKey) :=
  (sweeper.sweepOnce (.ok s.listOpenIncidents)).map (manager.listed cluster ++ ·)

section Startup

variable {sweeper : ResolutionSweeper} {s : Store} {incident : Incident}

/-- The sweep adds the key of an open incident of its cluster if it is one of an event. -/
theorem mem_sweepOnce {keys : List ResourceKey}
    (h : sweeper.sweepOnce (.ok s.listOpenIncidents) = .ok keys)
    (hmem : incident ∈ s.incidents.rows) (hopen : incident.status = .open)
    (hcluster : incident.clusterID = sweeper.clusterID) :
    incident.resourceKey ∈ keys ↔ equalFold incident.source.kind "Event" = true := by
  cases h
  simp only [List.mem_map, List.mem_filter, Store.listOpenIncidents, Bool.and_eq_true, beq_iff_eq]
  constructor
  · rintro ⟨other, -, hkey⟩
    have hkind : "Event" = if equalFold incident.source.kind "Event" then "Event"
        else incident.source.kind := congrArg ResourceKey.kind hkey
    split_ifs at hkind with hevent
    · exact hevent
    · rw [← hkind]
      decide
  · intro hevent
    refine ⟨incident, ⟨⟨hmem, hopen⟩, hcluster, hevent⟩, ?_⟩
    rw [Incident.resourceKey, if_pos hevent]

/-- After a restart an open incident is looked at again exactly if it is one of an event, or if
its resource is still there and watched. -/
theorem startup_enqueues_iff (config : ManagerConfig) (manager : Manager)
    (hmanager : newManager config = .ok manager) (sweeper : ResolutionSweeper) (s : Store)
    (cluster : List Object) (incident : Incident) (hmem : incident ∈ s.incidents.rows)
    (hopen : incident.status = .open) (hcluster : incident.clusterID = sweeper.clusterID) :
    (∃ keys, startupKeys manager sweeper s cluster = .ok keys ∧ incident.resourceKey ∈ keys) ↔
      equalFold incident.source.kind "Event" = true ∨ ∃ object ∈ cluster,
        config.Watches object ∧ object.key = some incident.resourceKey := by
  obtain ⟨keys, hkeys⟩ : ∃ keys, sweeper.sweepOnce (.ok s.listOpenIncidents) = .ok keys := ⟨_, rfl⟩
  have hstartup : startupKeys manager sweeper s cluster = .ok (manager.listed cluster ++ keys) := by
    rw [startupKeys, hkeys]
    rfl
  rw [← mem_sweepOnce hkeys hmem hopen hcluster, ← mem_listed hmanager, or_comm, ← List.mem_append]
  constructor
  · rintro ⟨found, hfound, hkey⟩
    cases hstartup.symm.trans hfound
    exact hkey
  · exact fun hkey => ⟨_, hstartup, hkey⟩

end Startup

namespace Scenario

theorem sweeper_visible : isBlank "c" = false := by decide

theorem sweeper_interval_pos : (0 : Duration) < 60000000000 := by decide

def sweeper : ResolutionSweeper where
  clusterID := "c"
  interval := 60000000000
  clusterID_visible := sweeper_visible
  interval_pos := sweeper_interval_pos

/-- All resources of the namespace of the job. -/
def watching : ManagerConfig where
  namespaces := ["ns"]
  resources := ["pods", "events", "deployments", "statefulsets", "daemonsets", "jobs"]
  workers := 2

def watchingManager : Manager where
  factory := ⟨["ns"], ["daemonsets", "deployments", "events", "jobs", "pods", "statefulsets"]⟩
  handler := ⟨["ns"], true⟩
  workers := 2

theorem newManager_watching : newManager watching = .ok watchingManager := by
  decide +kernel

/-- What a failed job leaves in the store. -/
def failedJobStore : Store := notifying.after checksumHasher [jobCall 0 1]

end Scenario

open Scenario

/-- The failed job is still there after the restart. -/
theorem failed_job_enqueued :
    ∃ incident ∈ failedJobStore.incidents.rows, incident.status = .open ∧
      ∃ keys, startupKeys watchingManager sweeper failedJobStore [job 1 StrMap.empty] = .ok keys ∧
        incident.resourceKey ∈ keys := by
  have hfacts : failedJobStore.incidents.rows.any (fun incident => decide
      (incident.status = .open ∧ incident.clusterID = "c" ∧
        (job 1 StrMap.empty).key = some incident.resourceKey)) = true := by
    decide +kernel
  obtain ⟨incident, hmem, hfacts⟩ := List.any_eq_true.mp hfacts
  obtain ⟨hopen, hcluster, hkey⟩ := of_decide_eq_true hfacts
  have hwatched : watching.Watches (job 1 StrMap.empty) :=
    ⟨⟨"jobs", by decide, by decide⟩, Or.inr ⟨"ns", by decide, by decide, by decide⟩⟩
  refine ⟨incident, hmem, hopen, ?_⟩
  exact (startup_enqueues_iff watching watchingManager newManager_watching sweeper failedJobStore
    [job 1 StrMap.empty] incident hmem hopen hcluster).mpr
      (Or.inr ⟨_, List.mem_singleton_self _, hwatched, hkey⟩)

/-- The job was deleted while the controller was down: nothing looks at its open incident. -/
theorem deleted_job_orphaned :
    newManager watching = .ok watchingManager ∧
      ∃ incident ∈ failedJobStore.incidents.rows, incident.status = .open ∧
        incident.clusterID = sweeper.clusterID ∧
        ∀ keys, startupKeys watchingManager sweeper failedJobStore [] = .ok keys →
          incident.resourceKey ∉ keys := by
  have hfacts : failedJobStore.incidents.rows.any (fun incident => decide
      (incident.status = .open ∧ incident.clusterID = "c" ∧
        startupKeys watchingManager sweeper failedJobStore [] = .ok [])) = true := by
    decide +kernel
  obtain ⟨incident, hmem, hfacts⟩ := List.any_eq_true.mp hfacts
  obtain ⟨hopen, hcluster, hkeys⟩ := of_decide_eq_true hfacts
  refine ⟨newManager_watching, incident, hmem, hopen, hcluster, fun keys h => ?_⟩
  cases hkeys.symm.trans h
  exact List.not_mem_nil

end Controller

end RuleRaven
