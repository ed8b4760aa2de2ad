import RuleRaven.Basic
import RuleRaven.Framework.StrMap

namespace RuleRaven

open Framework

inductive Severity where
  | unset
  | info
  | warning
  | critical
  deriving DecidableEq, Repr

inductive Action where
  | unset
  | suppress
  | record
  | notify
  | page
  deriving DecidableEq, Repr

def Severity.text : Severity → String
  | .unset => ""
  | .info => "info"
  | .warning => "warning"
  | .critical => "critical"

def Action.text : Action → String
  | .unset => ""
  | .suppress => "suppress"
  | .record => "record"
  | .notify => "notify"
  | .page => "page"

structure Decision where
  severity : Severity
  action : Action
  summary : String
  reasonCodes : List String := []
  ruleIDs : List String := []
  deriving DecidableEq, Repr

structure OwnerReference where
  apiVersion : String
  kind : String
  name : String
  uid : String
  deriving DecidableEq, Repr

/-- The observed Kubernetes object. Names are display metadata; cluster and UID are identity. -/
structure Source where
  clusterID : String
  apiVersion : String := ""
  kind : String
  «namespace» : String
  name : String
  uid : String
  resourceVersion : String := ""
  generation : Int64 := 0
  owner : Option OwnerReference := none
  deriving DecidableEq, Repr

structure Condition where
  type : String
  status : String
  reason : String := ""
  message : String := ""
  lastTransitionTime : Time := 0
  deriving DecidableEq, Repr

structure ContainerState where
  name : String
  ready : Bool
  restartCount : Int32
  state : String
  reason : String := ""
  exitCode : Int32 := 0
  deriving DecidableEq, Repr

structure WorkloadState where
  desired : Int32
  current : Int32
  ready : Int32
  available : Int32
  updated : Int32
  unavailable : Int32
  deriving DecidableEq, Repr

structure JobState where
  active : Int32
  succeeded : Int32
  failed : Int32
  backoffLimit : Int32
  deriving DecidableEq, Repr

structure EventState where
  type : String
  reason : String
  message : String
  regardingUID : String
  count : Int32
  lastObserved : Time
  deriving DecidableEq, Repr

/-- The bounded, allowlisted representation used by rules and providers. -/
structure Snapshot where
  source : Source
  observedAt : Time
  labels : StrMap String := StrMap.empty
  conditions : List Condition := []
  containers : List ContainerState := []
  workload : Option WorkloadState := none
  job : Option JobState := none
  event : Option EventState := none
  contentHash : String := ""
  deriving DecidableEq

inductive IncidentStatus where
  | open
  | resolved
  | suppressed
  deriving DecidableEq, Repr

def IncidentStatus.text : IncidentStatus → String
  | .open => "open"
  | .resolved => "resolved"
  | .suppressed => "suppressed"

structure Incident where
  id : String
  key : String
  clusterID : String
  source : Source
  status : IncidentStatus
  openedAt : Time
  updatedAt : Time
  resolvedAt : Option Time := none
  contentHash : String := ""
  version : Int
  deriving DecidableEq, Repr

end RuleRaven
