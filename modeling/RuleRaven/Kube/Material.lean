import RuleRaven.Controller.Scenario
import Mathlib.Data.Prod.Lex

namespace RuleRaven.Kube

open Framework

/-- A condition without its transition time. -/
def erased (c : Condition) : Condition := { c with lastTransitionTime := 0 }

/-- Type, reason, message and regarding UID of an Event. -/
def eventFacts (e : EventState) : String × String × String × String :=
  (e.type, e.reason, e.message, e.regardingUID)

/-- What makes two snapshots tell the same. Namespace, name, resource version and the times are
not part of it, nor is an order of conditions or containers. -/
structure SameFacts (s t : Snapshot) : Prop where
  clusterID : s.source.clusterID = t.source.clusterID
  apiVersion : s.source.apiVersion = t.source.apiVersion
  kind : s.source.kind = t.source.kind
  uid : s.source.uid = t.source.uid
  generation : s.source.generation = t.source.generation
  owner : s.source.owner = t.source.owner
  labels : s.labels = t.labels
  conditions : (s.conditions.map erased).Perm (t.conditions.map erased)
  containers : ∀ c, c ∈ s.containers ↔ c ∈ t.containers
  workload : s.workload = t.workload
  job : s.job = t.job
  event : s.event.map eventFacts = t.event.map eventFacts

/-- No two containers of a snapshot share a name. -/
def DistinctContainers (s : Snapshot) : Prop := (s.containers.map ContainerState.name).Nodup

instance (s : Snapshot) : Decidable (DistinctContainers s) :=
  inferInstanceAs (Decidable (List.Nodup _))

section Order

/-- A comparison by one text, then by the rest. -/
theorem lexLess_iff {κ : Type} [LinearOrder κ] {a b : String} {x y : κ} {less : Bool}
    (h : less = true ↔ x < y) :
    (if a ≠ b then decide (a < b) else less) = true ↔ toLex (a, x) < toLex (b, y) := by
  rw [Prod.Lex.lt_iff]
  by_cases hab : a = b
  · simp [hab, h]
  · simp [hab]

/-- What conditions are sorted by, which is all of them. -/
def conditionKey (c : CanonicalCondition) : String ×ₗ String ×ₗ String ×ₗ String :=
  toLex (c.type, toLex (c.status, toLex (c.reason, c.message)))

theorem conditionLess_iff (a b : CanonicalCondition) :
    conditionLess a b = true ↔ conditionKey a < conditionKey b :=
  lexLess_iff (lexLess_iff (lexLess_iff decide_eq_true_iff))

theorem conditionKey_injective : Function.Injective conditionKey := by
  intro a b h
  cases a
  cases b
  simpa [conditionKey] using h

def containerKey (c : ContainerState) : String ×ₗ String ×ₗ String :=
  toLex (c.name, toLex (c.state, c.reason))

theorem containerLess_iff (a b : ContainerState) :
    containerLess a b = true ↔ containerKey a < containerKey b :=
  lexLess_iff (lexLess_iff decide_eq_true_iff)

end Order

section Canonical

variable {s t : Snapshot}

theorem erased_perm_iff {cs ds : List Condition} :
    (cs.map erased).Perm (ds.map erased) ↔
      (cs.map CanonicalCondition.ofCondition).Perm (ds.map CanonicalCondition.ofCondition) := by
  let restore : CanonicalCondition → Condition :=
    fun c => ⟨c.type, c.status, c.reason, c.message, 0⟩
  have herased : CanonicalCondition.ofCondition ∘ erased = CanonicalCondition.ofCondition := rfl
  have hrestore : restore ∘ CanonicalCondition.ofCondition = erased := rfl
  constructor
  · intro h
    have hmap := h.map CanonicalCondition.ofCondition
    rwa [List.map_map, List.map_map, herased] at hmap
  · intro h
    have hmap := h.map restore
    rwa [List.map_map, List.map_map, hrestore] at hmap

theorem sorted_conditions_eq_iff {cs ds : List Condition} :
    sortSlice conditionLess (cs.map CanonicalCondition.ofCondition) =
        sortSlice conditionLess (ds.map CanonicalCondition.ofCondition) ↔
      (cs.map erased).Perm (ds.map erased) := by
  rw [erased_perm_iff]
  constructor
  · intro h
    have hcs := sortSlice_perm conditionLess (cs.map CanonicalCondition.ofCondition)
    have hds := sortSlice_perm conditionLess (ds.map CanonicalCondition.ofCondition)
    exact hcs.symm.trans (h ▸ hds)
  · intro h
    exact sortSlice_eq_of_perm conditionKey conditionLess_iff h
      fun a _ b _ hab => conditionKey_injective hab

/-- Containers of different names are told apart by what they are sorted by. -/
theorem sorted_containers_eq_iff (hs : DistinctContainers s) (ht : DistinctContainers t) :
    sortSlice containerLess s.containers = sortSlice containerLess t.containers ↔
      ∀ c, c ∈ s.containers ↔ c ∈ t.containers := by
  have hsperm := sortSlice_perm containerLess s.containers
  have htperm := sortSlice_perm containerLess t.containers
  constructor
  · intro h c
    rw [← hsperm.mem_iff, h, htperm.mem_iff]
  · intro h
    have hperm : s.containers.Perm t.containers :=
      (List.perm_ext_iff_of_nodup hs.of_map ht.of_map).mpr h
    apply sortSlice_eq_of_perm containerKey containerLess_iff hperm
    intro a ha b hb hab
    have hname : a.name = b.name := congrArg (fun key => (ofLex key).1) hab
    exact List.inj_on_of_nodup_map hs ha hb hname

theorem canonical_eq_iff (hs : DistinctContainers s) (ht : DistinctContainers t) :
    canonical s = canonical t ↔ SameFacts s t := by
  have hevent : ∀ e f : Option EventState,
      (e.map fun e => (⟨e.type, e.reason, e.message, e.regardingUID⟩ : CanonicalEvent)) =
        (f.map fun e => ⟨e.type, e.reason, e.message, e.regardingUID⟩) ↔
      e.map eventFacts = f.map eventFacts := by
    intro e f
    cases e <;> cases f <;> simp [eventFacts]
  constructor
  · intro h
    simp only [canonical, CanonicalSnapshot.mk.injEq, CanonicalSource.mk.injEq, hevent,
      sorted_conditions_eq_iff, sorted_containers_eq_iff hs ht] at h
    obtain ⟨⟨hcluster, hversion, hkind, huid, hgeneration, howner⟩, hlabels, hconditions,
      hcontainers, hworkload, hjob, hfacts⟩ := h
    exact ⟨hcluster, hversion, hkind, huid, hgeneration, howner, hlabels, hconditions,
      hcontainers, hworkload, hjob, hfacts⟩
  · intro h
    simp only [canonical, CanonicalSnapshot.mk.injEq, CanonicalSource.mk.injEq, hevent,
      sorted_conditions_eq_iff, sorted_containers_eq_iff hs ht]
    exact ⟨⟨h.clusterID, h.apiVersion, h.kind, h.uid, h.generation, h.owner⟩, h.labels,
      h.conditions, h.containers, h.workload, h.job, h.event⟩

end Canonical

/-- What observing the same state again may change: the order of conditions and containers,
names and versions, and every count and time. -/
structure Restamp where
  conditions : List Condition
  containers : List ContainerState
  observedAt : Time
  resourceVersion : String
  «namespace» : String
  name : String
  count : Int32
  lastObserved : Time

def Restamp.apply (r : Restamp) (s : Snapshot) : Snapshot :=
  { s with
    source := { s.source with
      resourceVersion := r.resourceVersion, «namespace» := r.namespace, name := r.name }
    observedAt := r.observedAt
    conditions := r.conditions
    containers := r.containers
    event := s.event.map fun e => { e with count := r.count, lastObserved := r.lastObserved } }

/-- Two snapshots share a fingerprint exactly when they tell the same. In particular no reordering
and no change of a name, a version, a count or a time changes it. -/
theorem fingerprint_exact (H : Hasher) (hH : H.CollisionFree) (s t : Snapshot)
    (hs : DistinctContainers s) (ht : DistinctContainers t) :
    (contentHash H s = contentHash H t ↔ SameFacts s t) ∧
      ∀ r : Restamp, r.conditions.Perm s.conditions → r.containers.Perm s.containers →
        contentHash H (r.apply s) = contentHash H s := by
  have hiff : ∀ u, DistinctContainers u → (contentHash H u = contentHash H s ↔ SameFacts u s) :=
    fun u hu => (contentHash_eq_iff hH u s).trans (canonical_eq_iff hu hs)
  refine ⟨(contentHash_eq_iff hH s t).trans (canonical_eq_iff hs ht), ?_⟩
  intro r hconditions hcontainers
  have hdistinct : DistinctContainers (r.apply s) :=
    (hcontainers.map ContainerState.name).nodup_iff.mpr hs
  apply (hiff _ hdistinct).mpr
  have hevent : (r.apply s).event.map eventFacts = s.event.map eventFacts := by
    rw [Restamp.apply, Option.map_map]
    rfl
  exact ⟨rfl, rfl, rfl, rfl, rfl, rfl, rfl, hconditions.map erased,
    fun c => hcontainers.mem_iff, rfl, rfl, hevent⟩

namespace Scenario

open Controller.Scenario

/-- A pod of two containers, neither of them ready. -/
def crashedPod : Snapshot where
  source := { clusterID := "c", kind := "Pod", «namespace» := "ns", name := "n", uid := "u" }
  observedAt := noon
  conditions :=
    [{ type := "Ready", status := "False" }, { type := "PodScheduled", status := "True" }]
  containers := [⟨"app", false, 3, "waiting", "CrashLoopBackOff", 0⟩,
    ⟨"sidecar", false, 0, "waiting", "PodInitializing", 0⟩]

/-- The same pod seen later, listed the other way round. -/
def laterSight : Restamp where
  conditions := crashedPod.conditions.reverse
  containers := crashedPod.containers.reverse
  observedAt := noon + 60000000000
  resourceVersion := "2"
  «namespace» := "ns"
  name := "n"
  count := 0
  lastObserved := 0

end Scenario

open Kube.Scenario Controller.Scenario

/-- A pod that is seen again keeps its fingerprint, and one that restarts does not. -/
theorem crashedPod_fingerprint :
    contentHash keepingHasher (laterSight.apply crashedPod) =
        contentHash keepingHasher crashedPod ∧
      contentHash keepingHasher crashedPod ≠ contentHash keepingHasher
        { crashedPod with containers := [⟨"app", false, 4, "waiting", "CrashLoopBackOff", 0⟩,
          ⟨"sidecar", false, 0, "waiting", "PodInitializing", 0⟩] } := by
  have hexact := fingerprint_exact keepingHasher keepingHasher_collisionFree crashedPod
    { crashedPod with containers := [⟨"app", false, 4, "waiting", "CrashLoopBackOff", 0⟩,
      ⟨"sidecar", false, 0, "waiting", "PodInitializing", 0⟩] } (by decide) (by decide)
  refine ⟨hexact.2 laterSight (List.reverse_perm _) (List.reverse_perm _), fun hsame => ?_⟩
  have hcontainers := (hexact.1.mp hsame).containers
    ⟨"app", false, 3, "waiting", "CrashLoopBackOff", 0⟩
  have hgone := hcontainers.mp List.mem_cons_self
  revert hgone
  decide

end RuleRaven.Kube
