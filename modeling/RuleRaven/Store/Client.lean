import RuleRaven.System.Effects

namespace RuleRaven.Mongo

open Framework

def errNoDocuments : Err := ⟨"mongo: no documents in result", none⟩

def validateIncident (incident : Incident) : Except Err Unit :=
  if isBlank incident.id ∨ isBlank incident.key ∨ isBlank incident.clusterID then
    .error ⟨"incident ID, key, and cluster ID are required", none⟩
  else if incident.version ≤ 0 then .error ⟨"incident version must be positive", none⟩
  else .ok ()

def getIncident (clusterID incidentKey : String) : Eff (Except Err Incident) :=
  if isBlank clusterID ∨ isBlank incidentKey then
    pure (.error ⟨"cluster ID and incident key are required", none⟩)
  else do
    match ← Eff.store (.incidentsFindOne clusterID incidentKey) with
    | .error err => pure (.error (err.wrap "get incident"))
    | .ok none => pure (.error errNotFound)
    | .ok (some incident) => pure (.ok incident)

/-- The write of `UpsertIncident`. A duplicate key means that another upsert won; the second
update then inserts nothing. -/
def insertIncident (incident : Incident) : Eff (Except Err Bool) := do
  match ← Eff.store (.incidentsUpsert incident) with
  | .ok created => pure (.ok created)
  | .error err =>
    if err.is .duplicateKey then do
      match ← Eff.store (.incidentsUpdate incident) with
      | .ok created => pure (.ok created)
      | .error err => pure (.error err)
    else pure (.error err)

def upsertIncident (incident : Incident) : Eff (Except Err (Incident × Bool)) :=
  match validateIncident incident with
  | .error err => pure (.error err)
  | .ok () => do
    match ← insertIncident incident with
    | .error err => pure (.error (err.wrap "upsert incident"))
    | .ok created =>
      match ← Eff.store (.incidentsFindOne incident.clusterID incident.key) with
      | .error err => pure (.error (err.wrap "read upserted incident"))
      | .ok none => pure (.error (errNoDocuments.wrap "read upserted incident"))
      | .ok (some persisted) => pure (.ok (persisted, created))

def upsertSnapshot (incidentID : String) (snapshot : Snapshot) :
    Eff (Except Err (SnapshotRow × Bool)) :=
  if isBlank incidentID ∨ isBlank snapshot.contentHash then
    pure (.error ⟨"incident ID and snapshot content hash are required", none⟩)
  else do
    match ← Eff.store (.snapshotsUpsert incidentID snapshot) with
    | .ok persisted => pure (.ok persisted)
    | .error err =>
      if err.is .duplicateKey then
        match ← Eff.store (.snapshotsFindOne incidentID snapshot.contentHash) with
        | .ok (some row) => pure (.ok (row, false))
        | .ok none => pure (.error (errNoDocuments.wrap "upsert immutable snapshot"))
        | .error err => pure (.error (err.wrap "upsert immutable snapshot"))
      else pure (.error (err.wrap "upsert immutable snapshot"))

/-- The checks of `Commit` before its transaction. -/
def validateCommit (request : CommitRequest) : Except Err Unit :=
  match validateIncident request.incident with
  | .error err => .error err
  | .ok () =>
    if request.expectedVersion ≤ 0 then
      .error ⟨"expected incident version must be positive", none⟩
    else if isBlank request.evaluation.id ∨
        request.evaluation.incidentID ≠ request.incident.id then
      .error ⟨"evaluation ID and matching incident ID are required", none⟩
    else if request.deliveries.any fun d =>
        isBlank d.id || d.evaluationID != request.evaluation.id then
      .error ⟨"delivery ID and matching evaluation ID are required", none⟩
    else .ok ()

def commit (request : CommitRequest) : Eff (Except Err Unit) :=
  match validateCommit request with
  | .error err => pure (.error err)
  | .ok () => do
    match ← Eff.store (.commit request) with
    | .error err => pure (.error (err.wrap "commit incident evaluation and outbox"))
    | .ok () => pure (.ok ())

def claimDelivery (request : ClaimRequest) : Eff (Except Err Delivery) :=
  if isBlank request.workerID ∨ request.now.isZero ∨ request.leaseDuration ≤ 0 then
    pure (.error ⟨"worker ID, current time, and positive lease duration are required", none⟩)
  else do
    match ← Eff.store (.outboxClaim request) with
    | .error err => pure (.error (err.wrap "claim outbox delivery"))
    | .ok none => pure (.error errNotFound)
    | .ok (some delivery) => pure (.ok delivery)

def completeDelivery (request : CompleteRequest) : Eff (Except Err Unit) :=
  if isBlank request.id ∨ isBlank request.workerID ∨ request.completedAt.isZero then
    pure (.error ⟨"delivery ID, worker ID, and completion time are required", none⟩)
  else do
    match ← Eff.store (.outboxComplete request) with
    | .error err => pure (.error (err.wrap "complete outbox delivery"))
    | .ok false => pure (.error errConflict)
    | .ok true => pure (.ok ())

def rescheduleDelivery (request : RescheduleRequest) : Eff (Except Err Unit) :=
  if isBlank request.id ∨ isBlank request.workerID ∨ request.now.isZero then
    pure (.error ⟨"delivery ID, worker ID, and current time are required", none⟩)
  else if request.failure = .retryable ∧ request.nextAttemptAt < request.now then
    pure (.error ⟨"next attempt time cannot be before current time", none⟩)
  else do
    match ← Eff.store (.outboxReschedule request) with
    | .error err => pure (.error (err.wrap "reschedule outbox delivery"))
    | .ok false => pure (.error errConflict)
    | .ok true => pure (.ok ())

section Only

variable {P : Op → Prop}

theorem upsertIncident_only (incident : Incident) (hupsert : P (.store (.incidentsUpsert incident)))
    (hupdate : P (.store (.incidentsUpdate incident)))
    (hfind : P (.store (.incidentsFindOne incident.clusterID incident.key))) :
    Prog.Only P (upsertIncident incident) := by
  have hinsert : Prog.Only P (insertIncident incident) := by
    refine Prog.only_bind (Eff.only_store hupsert) fun reply => ?_
    cases reply with
    | ok created => trivial
    | error err =>
      dsimp only
      split_ifs
      · refine Prog.only_bind (Eff.only_store hupdate) fun reply => ?_
        cases reply <;> trivial
      · trivial
  unfold upsertIncident
  split
  · trivial
  · refine Prog.only_bind hinsert fun reply => ?_
    cases reply with
    | error err => trivial
    | ok created =>
      refine Prog.only_bind (Eff.only_store hfind) fun reply => ?_
      rcases reply with err | _ | persisted <;> trivial

theorem upsertSnapshot_only (incidentID : String) (snapshot : Snapshot)
    (hupsert : P (.store (.snapshotsUpsert incidentID snapshot)))
    (hfind : P (.store (.snapshotsFindOne incidentID snapshot.contentHash))) :
    Prog.Only P (upsertSnapshot incidentID snapshot) := by
  unfold upsertSnapshot
  split_ifs
  · trivial
  · refine Prog.only_bind (Eff.only_store hupsert) fun reply => ?_
    cases reply with
    | ok persisted => trivial
    | error err =>
      dsimp only
      split_ifs
      · refine Prog.only_bind (Eff.only_store hfind) fun reply => ?_
        rcases reply with err | _ | row <;> trivial
      · trivial

theorem commit_only (request : CommitRequest) (h : P (.store (.commit request))) :
    Prog.Only P (commit request) := by
  unfold commit
  split
  · trivial
  · refine Prog.only_bind (Eff.only_store h) fun reply => ?_
    cases reply <;> trivial

theorem claimDelivery_only (request : ClaimRequest) (h : P (.store (.outboxClaim request))) :
    Prog.Only P (claimDelivery request) := by
  unfold claimDelivery
  split_ifs
  · trivial
  · refine Prog.only_bind (Eff.only_store h) fun reply => ?_
    rcases reply with err | _ | delivery <;> trivial

theorem completeDelivery_only (request : CompleteRequest)
    (h : P (.store (.outboxComplete request))) : Prog.Only P (completeDelivery request) := by
  unfold completeDelivery
  split_ifs
  · trivial
  · refine Prog.only_bind (Eff.only_store h) fun reply => ?_
    rcases reply with err | _ | _ <;> trivial

theorem rescheduleDelivery_only (request : RescheduleRequest)
    (h : P (.store (.outboxReschedule request))) : Prog.Only P (rescheduleDelivery request) := by
  unfold rescheduleDelivery
  split_ifs
  · trivial
  · trivial
  · refine Prog.only_bind (Eff.only_store h) fun reply => ?_
    rcases reply with err | _ | _ <;> trivial

end Only

end RuleRaven.Mongo
