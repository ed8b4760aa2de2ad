import RuleRaven.Domain
import RuleRaven.Framework.Json
import RuleRaven.Provider.Validate

namespace RuleRaven

open Framework Provider

structure ProviderAudit where
  provider : String
  requestedModel : String
  resolvedModel : String
  resolvedModelHash : String
  providerRequestIDHash : String
  usage : Usage
  latency : Duration
  attempts : Int
  rawResponseHash : String
  deriving DecidableEq

structure Evaluation where
  id : String
  incidentID : String
  snapshotHash : String
  policyVersion : String
  rubricVersion : String
  providerConfigHash : String
  decision : Decision
  answers : Option (StrMap Answer) := none
  providerAudit : Option ProviderAudit := none
  createdAt : Time
  deriving DecidableEq

/-- What makes two evaluations the same one: the key of the index `ux_evaluations_identity`. -/
structure Identity where
  incidentID : String
  snapshotHash : String
  policyVersion : String
  rubricVersion : String
  providerConfigHash : String
  deriving DecidableEq

def Evaluation.identity (e : Evaluation) : Identity :=
  ⟨e.incidentID, e.snapshotHash, e.policyVersion, e.rubricVersion, e.providerConfigHash⟩

inductive EventType where
  | opened
  | updated
  | resolved
  deriving DecidableEq, Repr

def EventType.text : EventType → String
  | .opened => "io.ruleraven.incident.opened"
  | .updated => "io.ruleraven.incident.updated"
  | .resolved => "io.ruleraven.incident.resolved"

inductive NotificationStatus where
  | pending
  | delivering
  | delivered
  | failed
  deriving DecidableEq, Repr

structure Notification where
  id : String
  evaluationID : String
  destinationID : String
  eventType : EventType
  status : NotificationStatus := .pending
  attempts : Int := 0
  nextAttemptAt : Time
  payload : Option RawMessage
  deriving DecidableEq

inductive FailureClass where
  | retryable
  | permanent
  deriving DecidableEq, Repr

/-- A notification with its lease and its fate, as the outbox stores it. An absent owner is
the empty string. -/
structure Delivery extends Notification where
  leaseOwner : String := ""
  leaseUntil : Option Time := none
  lastFailure : Option FailureClass := none
  deliveredAt : Option Time := none
  updatedAt : Time
  expiresAt : Option Time := none
  deriving DecidableEq

structure SnapshotRow where
  incidentID : String
  snapshot : Snapshot
  deriving DecidableEq

structure CommitRequest where
  incident : Incident
  expectedVersion : Int
  evaluation : Evaluation
  deliveries : List Notification
  deriving DecidableEq

structure ClaimRequest where
  workerID : String
  now : Time
  leaseDuration : Duration
  deriving DecidableEq

structure CompleteRequest where
  id : String
  workerID : String
  completedAt : Time
  expiresAt : Option Time
  deriving DecidableEq

structure RescheduleRequest where
  id : String
  workerID : String
  now : Time
  nextAttemptAt : Time
  failure : FailureClass
  expiresAt : Option Time
  deriving DecidableEq

end RuleRaven
