import RuleRaven.Controller.Sequential
import RuleRaven.Framework.Hex

namespace RuleRaven.Controller.Scenario

open Framework Kube Rules

/-- One byte in the checksum that stands for SHA-256 in concrete runs. -/
def checksumStep (h : Nat) (b : UInt8) : Nat := (h * 131 + b.toNat + 7) % 2305843009213693951

def checksum (s : String) : Nat := (utf8Bytes s).foldl checksumStep 1

def checksumHasher : Hasher where
  hex s := ofChars (Nat.toDigits 10 (checksum s))
  nonempty s := by
    rw [ofChars_eq, String.toList_ofList]
    exact Nat.toDigits_ne_nil
  digits s c hc := by
    rw [ofChars_eq, String.toList_ofList] at hc
    rw [isHexDigit, Nat.isDigit_of_mem_toDigits (by decide) (by decide) hc, Bool.true_or]

/-- A hasher without collisions: it keeps its input. -/
def keepingHasher : Hasher where
  hex s := ofChars ('0' :: hexChars (utf8Bytes s))
  nonempty s := by
    rw [ofChars_eq, String.toList_ofList]
    exact List.cons_ne_nil _ _
  digits s c hc := by
    rw [ofChars_eq, String.toList_ofList] at hc
    rcases List.mem_cons.mp hc with rfl | hc
    · rfl
    · exact isHexDigit_of_mem_hexChars hc

theorem keepingHasher_collisionFree : keepingHasher.CollisionFree := by
  intro s t h
  simp only [keepingHasher, ofChars_eq] at h
  have hbytes := hexChars_injective (List.cons.inj (String.ofList_injective h)).2
  exact utf8Bytes_inj.mp hbytes

def engine : Engine := newEngine
  { crashLoopRestartThreshold := 3
    crashLoopCriticalThreshold := 10
    minimumAge := 60000000000
    eventQuietPeriod := 600000000000
    ignoredLabels := ["mute"] }

/-- A reconciler of cluster `c` that notifies the given destinations. -/
def reconciler (destinations : List String) (hv : ∀ d ∈ destinations, isBlank d = false)
    (hs : destinations.Pairwise (· < ·)) : Reconciler where
  clusterID := "c"
  normalizer := ⟨"c", ["mute"], 65536⟩
  rules := engine
  primary := "p"
  fallback := none
  composer := Triage.newComposer
  providerConfigHash := ""
  destinations := destinations
  eventQuietPeriod := 600000000000
  clusterID_visible := by decide
  destinations_visible := hv
  destinations_increasing := hs
  eventQuietPeriod_pos := by decide

def notifying : Reconciler := reconciler ["hook"] (by decide) (by decide)

theorem nowhere_visible : ∀ d ∈ ([] : List String), isBlank d = false := List.forall_mem_nil _

theorem nowhere_increasing : ([] : List String).Pairwise (· < ·) := List.Pairwise.nil

/-- A reconciler that notifies nobody. -/
def recording : Reconciler := reconciler [] nowhere_visible nowhere_increasing

def metadata : ObjectMeta := { «namespace» := "ns", name := "n", uid := "u" }

/-- Some noon in the year 2024. -/
def noon : Time := 63844819200000000000

/-- A world that holds one object or none, its providers down, `seconds` after noon. -/
def world (seconds : Int) (object : Option Object) : Env where
  clock := noon + seconds * 1000000000
  get kind ns name :=
    match object with
    | none => .error .notFound
    | some o =>
      if h : o.resource = kind ∧ o.header.metadata.namespace = ns ∧
          o.header.metadata.name = name then .ok ⟨o, h⟩ else .error .notFound
  evaluate _ _ := .error ⟨"provider unavailable", none⟩

def job (failed : Int32) (labels : StrMap String) : Object :=
  .job { metadata := { metadata with labels := labels }, failed := failed, backoffLimit := some 1 }

def jobCall (seconds : Int) (failed : Int32) : Call :=
  ⟨⟨"Job", "ns", "n", "u"⟩, world seconds (some (job failed StrMap.empty))⟩

/-- The label that the engine ignores. -/
def muted : StrMap String := ⟨[("mute", "")], List.pairwise_singleton _ _⟩

/-- The same job under that label. -/
def mutedJobCall (seconds : Int) (failed : Int32) : Call :=
  ⟨⟨"Job", "ns", "n", "u"⟩, world seconds (some (job failed muted))⟩

/-- The job is gone. -/
def goneJobCall (seconds : Int) : Call := ⟨⟨"Job", "ns", "n", "u"⟩, world seconds none⟩

/-- A pod that waits for a node since noon. -/
def unschedulable : StatusCondition :=
  { type := "PodScheduled", status := "False", reason := "Unschedulable",
    lastTransitionTime := noon }

/-- A pod that has not been ready for some seconds after noon. -/
def notReady (since : Int) : StatusCondition :=
  { type := "Ready", status := "False", lastTransitionTime := noon + since * 1000000000 }

def crashing : ContainerStatus :=
  { name := "c", ready := false, restartCount := 5,
    state := { waiting := some "CrashLoopBackOff" } }

def podCall (seconds : Int) (conditions : List StatusCondition)
    (containers : List ContainerStatus) : Call :=
  ⟨⟨"Pod", "ns", "n", "u"⟩, world seconds (some (.pod
    { metadata := metadata, conditions := conditions, containerStatuses := containers }))⟩

/-- The pod still waits after a minute and a half. -/
def waitingPod : Call := podCall 90 [unschedulable] []

/-- The pod has a node, and crashes since a few seconds later. -/
def crashingPod (seconds : Int) : Call := podCall seconds [notReady 95] [crashing]

end RuleRaven.Controller.Scenario
