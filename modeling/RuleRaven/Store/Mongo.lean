import RuleRaven.Store.Contract
import RuleRaven.Framework.Table

namespace RuleRaven

open Framework

/-- BSON keeps times in whole milliseconds. -/
def bsonTime (t : Time) : Time := t - t % 1000000

def Incident.toDocument (i : Incident) : Incident :=
  { i with openedAt := bsonTime i.openedAt, updatedAt := bsonTime i.updatedAt,
           resolvedAt := i.resolvedAt.map bsonTime }

def Snapshot.toDocument (s : Snapshot) : Snapshot :=
  { s with
    observedAt := bsonTime s.observedAt
    conditions := s.conditions.map fun c =>
      { c with lastTransitionTime := bsonTime c.lastTransitionTime }
    event := s.event.map fun e => { e with lastObserved := bsonTime e.lastObserved } }

def Evaluation.toDocument (e : Evaluation) : Evaluation :=
  { e with createdAt := bsonTime e.createdAt }

/-- `outboxToDocument`. -/
def Notification.toDocument (d : Notification) (now : Time) : Delivery :=
  { d with nextAttemptAt := bsonTime d.nextAttemptAt, updatedAt := bsonTime now }

def Incident.clusterKey (i : Incident) : String × String := (i.clusterID, i.key)

def SnapshotRow.hashKey (r : SnapshotRow) : String × String :=
  (r.incidentID, r.snapshot.contentHash)

def Delivery.eventKey (d : Delivery) : String × String × EventType :=
  (d.evaluationID, d.destinationID, d.eventType)

/-- The four collections under their unique indexes. A snapshot's own object ID is never
looked at, so its index on incident and hash stands for both. -/
structure Store where
  incidents : Table Incident.id Incident.clusterKey := Table.empty
  snapshots : Table SnapshotRow.hashKey SnapshotRow.hashKey := Table.empty
  evaluations : Table Evaluation.id Evaluation.identity := Table.empty
  outbox : Table (fun d : Delivery => d.id) Delivery.eventKey := Table.empty
  deriving DecidableEq

/-- The single-document operations of the driver, and the commit transaction. Each is atomic. -/
inductive StoreOp where
  | incidentsFindOne (clusterID key : String)
  | incidentsUpsert (incident : Incident)
  | incidentsUpdate (incident : Incident)
  | snapshotsUpsert (incidentID : String) (snapshot : Snapshot)
  | snapshotsFindOne (incidentID contentHash : String)
  | commit (request : CommitRequest)
  | outboxClaim (request : ClaimRequest)
  | outboxComplete (request : CompleteRequest)
  | outboxReschedule (request : RescheduleRequest)

/-- A row or none, the number of upserted documents as a flag, or whether a row matched. -/
def StoreOp.Out : StoreOp → Type
  | .incidentsFindOne .. => Option Incident
  | .incidentsUpsert .. | .incidentsUpdate .. => Bool
  | .snapshotsUpsert .. => SnapshotRow × Bool
  | .snapshotsFindOne .. => Option SnapshotRow
  | .commit .. => Unit
  | .outboxClaim .. => Option Delivery
  | .outboxComplete .. | .outboxReschedule .. => Bool

def errConflict : Err := ⟨"store: optimistic write conflict", some .storeConflict⟩

def errNotFound : Err := ⟨"store: not found", some .storeNotFound⟩

def errDuplicate : Err := ⟨"duplicate key", some .duplicateKey⟩

/-- The `$set` and `$inc` of `updateIncident`. -/
def incidentChange (incident : Incident) : Table.Change Incident.id Incident.clusterKey where
  apply row := { row with
    source := incident.source
    status := incident.status
    updatedAt := bsonTime incident.updatedAt
    resolvedAt := incident.resolvedAt.map bsonTime
    contentHash := incident.contentHash
    version := row.version + 1 }
  id_apply _ := rfl
  key_apply _ := rfl

section Precision

-- How exactly a store keeps a time: `bsonTime` is how MongoDB does, the identity is how a store
-- without rounding would.
variable (stored : Time → Time)

def claimChangeAt (request : ClaimRequest) :
    Table.Change (fun d : Delivery => d.id) Delivery.eventKey where
  apply row := { row with
    status := .delivering
    leaseOwner := request.workerID
    leaseUntil := some (stored (request.now.add request.leaseDuration))
    updatedAt := stored request.now
    attempts := row.attempts + 1 }
  id_apply _ := rfl
  key_apply _ := rfl

def completeChangeAt (request : CompleteRequest) :
    Table.Change (fun d : Delivery => d.id) Delivery.eventKey where
  apply row := { row with
    status := .delivered
    deliveredAt := some (stored request.completedAt)
    updatedAt := stored request.completedAt
    expiresAt := request.expiresAt.map stored
    leaseOwner := ""
    leaseUntil := none }
  id_apply _ := rfl
  key_apply _ := rfl

/-- A retryable failure goes back to pending at its next time, a permanent one is final. -/
def rescheduleChangeAt (request : RescheduleRequest) :
    Table.Change (fun d : Delivery => d.id) Delivery.eventKey where
  apply row := { row with
    status := match request.failure with
      | .retryable => .pending
      | .permanent => .failed
    nextAttemptAt := match request.failure with
      | .retryable => stored request.nextAttemptAt
      | .permanent => row.nextAttemptAt
    lastFailure := some request.failure
    updatedAt := stored request.now
    expiresAt := request.expiresAt.map stored
    leaseOwner := ""
    leaseUntil := none }
  id_apply _ := rfl
  key_apply _ := rfl

/-- Pending and due, or delivering under a lease that has run out. -/
def Delivery.eligibleAt (now : Time) (d : Delivery) : Bool :=
  match d.status with
  | .pending => decide (d.nextAttemptAt ≤ stored now)
  | .delivering => d.leaseUntil.any fun u => decide (u ≤ stored now)
  | .delivered | .failed => false

end Precision

def claimChange : ClaimRequest → Table.Change (fun d : Delivery => d.id) Delivery.eventKey :=
  claimChangeAt bsonTime

def completeChange : CompleteRequest → Table.Change (fun d : Delivery => d.id) Delivery.eventKey :=
  completeChangeAt bsonTime

def rescheduleChange :
    RescheduleRequest → Table.Change (fun d : Delivery => d.id) Delivery.eventKey :=
  rescheduleChangeAt bsonTime

def Delivery.eligible : Time → Delivery → Bool := Delivery.eligibleAt bsonTime

/-- The sort of the claim: next attempt first, then ID. -/
def Delivery.before (a b : Delivery) : Bool :=
  if a.nextAttemptAt ≠ b.nextAttemptAt then a.nextAttemptAt < b.nextAttemptAt else a.id < b.id

/-- The filter of both finalizing updates. -/
def Delivery.heldBy (id workerID : String) (d : Delivery) : Bool :=
  d.id == id && d.status == .delivering && d.leaseOwner == workerID

namespace Store

variable (s : Store)

/-- The incident stored under a cluster and an incident key. -/
def incident (clusterID key : String) : Option Incident := s.incidents.byKey (clusterID, key)

def findEvaluation (identity : Identity) : Option Evaluation := s.evaluations.byKey identity

/-- The delivery a claim takes. -/
def claimableAt (stored : Time → Time) (now : Time) : Option Delivery :=
  (sortSlice Delivery.before (s.outbox.rows.filter (Delivery.eligibleAt stored now))).head?

def claimable : Time → Option Delivery := s.claimableAt bsonTime

def insertDeliveries (now : Time) : List Notification → Store → Option Store
  | [], s => some s
  | d :: ds, s =>
    match s.outbox.insert (d.toDocument now) with
    | none => none
    | some outbox => insertDeliveries now ds { s with outbox := outbox }

/-- The body of the commit transaction, all or nothing. A known identity is success without
a write. -/
def transact (request : CommitRequest) : Except Err Store :=
  if (s.findEvaluation request.evaluation.identity).isSome then .ok s
  else if !(s.incidents.rows.any fun row =>
      row.id == request.incident.id && row.version == request.expectedVersion) then
    .error errConflict
  else match s.evaluations.insert request.evaluation.toDocument with
    | none => .error (errDuplicate.wrap "insert evaluation")
    | some evaluations =>
      let updated := { s with
        incidents := s.incidents.modify request.incident.id (incidentChange request.incident)
        evaluations := evaluations }
      match insertDeliveries request.incident.updatedAt request.deliveries updated with
      | none => .error (errDuplicate.wrap "insert outbox deliveries")
      | some done => .ok done

/-- An upsert under `$setOnInsert`: an existing row is left alone. -/
def upsertIncident (incident : Incident) : Except Err Bool × Store :=
  match s.incident incident.clusterID incident.key with
  | some _ => (.ok false, s)
  | none =>
    match s.incidents.insert incident.toDocument with
    | none => (.error errDuplicate, s)
    | some incidents => (.ok true, { s with incidents := incidents })

def upsertSnapshot (incidentID : String) (snapshot : Snapshot) :
    Except Err (SnapshotRow × Bool) × Store :=
  match s.snapshots.byKey (incidentID, snapshot.contentHash) with
  | some row => (.ok (row, false), s)
  | none =>
    match s.snapshots.insert ⟨incidentID, snapshot.toDocument⟩ with
    | none => (.error errDuplicate, s)
    | some snapshots =>
      (.ok (⟨incidentID, snapshot.toDocument⟩, true), { s with snapshots := snapshots })

def commit (request : CommitRequest) : Except Err Unit × Store :=
  match s.transact request with
  | .error err => (.error err, s)
  | .ok done => (.ok (), done)

/-- `FindOneAndUpdate` of the claim, answering the row after the update. -/
def claimAt (stored : Time → Time) (request : ClaimRequest) : Option Delivery × Store :=
  match s.claimableAt stored request.now with
  | none => (none, s)
  | some d => (some ((claimChangeAt stored request).apply d),
      { s with outbox := s.outbox.modify d.id (claimChangeAt stored request) })

def claim : ClaimRequest → Option Delivery × Store := s.claimAt bsonTime

/-- An update of the row that the worker holds, answering whether there was one. -/
def finalize (id workerID : String)
    (change : Table.Change (fun d : Delivery => d.id) Delivery.eventKey) : Bool × Store :=
  if s.outbox.rows.any (Delivery.heldBy id workerID) then
    (true, { s with outbox := s.outbox.modify id change })
  else (false, s)

/-- What an operation answers and does when nothing fails. -/
def apply : (op : StoreOp) → Except Err op.Out × Store
  | .incidentsFindOne clusterID key => (.ok (s.incident clusterID key), s)
  | .incidentsUpsert incident => s.upsertIncident incident
  | .incidentsUpdate _ => (.ok false, s)
  | .snapshotsUpsert incidentID snapshot => s.upsertSnapshot incidentID snapshot
  | .snapshotsFindOne incidentID contentHash =>
    (.ok (s.snapshots.byKey (incidentID, contentHash)), s)
  | .commit request => s.commit request
  | .outboxClaim request => (.ok (s.claim request).1, (s.claim request).2)
  | .outboxComplete request =>
    let done := s.finalize request.id request.workerID (completeChange request)
    (.ok done.1, done.2)
  | .outboxReschedule request =>
    let done := s.finalize request.id request.workerID (rescheduleChange request)
    (.ok done.1, done.2)

/-- The store once a snapshot is in it. -/
def withSnapshot (incidentID : String) (snapshot : Snapshot) : Store :=
  (s.upsertSnapshot incidentID snapshot).2

section Frames

variable {s} {incidentID : String} {snapshot : Snapshot}

/-- Upserting a snapshot cannot fail: its only index is the one it was looked up by. -/
theorem upsertSnapshot_ok (s : Store) (incidentID : String) (snapshot : Snapshot) :
    ∃ row created, s.upsertSnapshot incidentID snapshot =
      (.ok (row, created), s.withSnapshot incidentID snapshot) := by
  unfold withSnapshot upsertSnapshot
  cases hk : s.snapshots.byKey (incidentID, snapshot.contentHash) with
  | some row => exact ⟨row, false, rfl⟩
  | none =>
    have hfresh := Table.byKey_eq_none.mp hk
    obtain ⟨u, hu, -⟩ := Table.insert_isSome (t := s.snapshots)
      (a := ⟨incidentID, snapshot.toDocument⟩) hfresh hfresh
    exact ⟨⟨incidentID, snapshot.toDocument⟩, true, by simp only [hu]⟩

theorem withSnapshot_frame (s : Store) (incidentID : String) (snapshot : Snapshot) :
    (s.withSnapshot incidentID snapshot).incidents = s.incidents ∧
      (s.withSnapshot incidentID snapshot).evaluations = s.evaluations ∧
      (s.withSnapshot incidentID snapshot).outbox = s.outbox := by
  unfold withSnapshot upsertSnapshot
  split
  · exact ⟨rfl, rfl, rfl⟩
  · split <;> exact ⟨rfl, rfl, rfl⟩

@[simp] theorem withSnapshot_incidents :
    (s.withSnapshot incidentID snapshot).incidents = s.incidents :=
  (withSnapshot_frame s incidentID snapshot).1

@[simp] theorem withSnapshot_evaluations :
    (s.withSnapshot incidentID snapshot).evaluations = s.evaluations :=
  (withSnapshot_frame s incidentID snapshot).2.1

@[simp] theorem withSnapshot_outbox :
    (s.withSnapshot incidentID snapshot).outbox = s.outbox :=
  (withSnapshot_frame s incidentID snapshot).2.2

theorem insertDeliveries_eq_some {now : Time} {ds : List Notification} {s done : Store}
    (h : insertDeliveries now ds s = some done) :
    done.incidents = s.incidents ∧ done.snapshots = s.snapshots ∧
      done.evaluations = s.evaluations ∧
      done.outbox.rows = s.outbox.rows ++ ds.map (·.toDocument now) := by
  induction ds generalizing s with
  | nil =>
    cases h
    simp
  | cons d ds ih =>
    unfold insertDeliveries at h
    split at h
    · cases h
    · rename_i outbox ho
      obtain ⟨hi, hs, he, hrows⟩ := ih h
      obtain ⟨-, -, hinsert⟩ := Table.insert_eq_some.mp ho
      exact ⟨hi, hs, he, by simp [hrows, hinsert]⟩

/-- Deliveries go in where neither index holds any of them. -/
theorem insertDeliveries_isSome {now : Time} {ds : List Notification} {s : Store}
    (hid : (ds.map Notification.id).Nodup)
    (hfresh : ∀ d ∈ ds, ∀ o ∈ s.outbox.rows, o.id ≠ d.id)
    (hkey : ∀ d ∈ ds, ∀ o ∈ s.outbox.rows, o.eventKey ≠ (d.toDocument now).eventKey)
    (hkeys : (ds.map fun d => (d.toDocument now).eventKey).Nodup) :
    ∃ done, insertDeliveries now ds s = some done := by
  induction ds generalizing s with
  | nil => exact ⟨s, rfl⟩
  | cons d ds ih =>
    obtain ⟨outbox, hinsert, hrows⟩ := Table.insert_isSome (t := s.outbox) (a := d.toDocument now)
      (hfresh d List.mem_cons_self) (hkey d List.mem_cons_self)
    rw [List.map_cons, List.nodup_cons] at hid hkeys
    unfold insertDeliveries
    rw [hinsert]
    refine ih hid.2 ?_ ?_ hkeys.2
    · intro x hx o ho
      rw [hrows, List.mem_append, List.mem_singleton] at ho
      rcases ho with ho | rfl
      · exact hfresh x (List.mem_cons_of_mem _ hx) o ho
      · intro heq
        exact hid.1 (List.mem_map.mpr ⟨x, hx, heq.symm⟩)
    · intro x hx o ho
      rw [hrows, List.mem_append, List.mem_singleton] at ho
      rcases ho with ho | rfl
      · exact hkey x (List.mem_cons_of_mem _ hx) o ho
      · intro heq
        exact hkeys.1 (List.mem_map.mpr ⟨x, hx, heq.symm⟩)

/-- A transaction goes through where the version is current and the IDs it brings are new. -/
theorem transact_isOk {request : CommitRequest} {s : Store}
    (hrow : ∃ row ∈ s.incidents.rows,
      row.id = request.incident.id ∧ row.version = request.expectedVersion)
    (hevaluation : s.findEvaluation request.evaluation.identity = none →
      ∀ e ∈ s.evaluations.rows, e.id ≠ request.evaluation.id)
    (hdeliveries : s.findEvaluation request.evaluation.identity = none → ∀ u : Store,
      u.outbox = s.outbox →
        ∃ done, insertDeliveries request.incident.updatedAt request.deliveries u = some done) :
    ∃ done, s.transact request = .ok done := by
  unfold transact
  cases hf : s.findEvaluation request.evaluation.identity with
  | some e => exact ⟨s, rfl⟩
  | none =>
    have hany : (s.incidents.rows.any fun row =>
        row.id == request.incident.id && row.version == request.expectedVersion) = true := by
      simpa using hrow
    have hkey := Table.byKey_eq_none.mp hf
    obtain ⟨evaluations, hinsert, -⟩ := Table.insert_isSome (t := s.evaluations)
      (a := request.evaluation.toDocument) (hevaluation hf) hkey
    obtain ⟨done, hdone⟩ := hdeliveries hf
      { s with
        incidents := s.incidents.modify request.incident.id (incidentChange request.incident)
        evaluations := evaluations } rfl
    refine ⟨done, ?_⟩
    simp only [hany, hinsert, hdone]
    rfl

theorem transact_of_commit {request : CommitRequest} {s done : Store}
    (h : s.commit request = (.ok (), done)) : s.transact request = .ok done := by
  unfold commit at h
  split at h
  · cases h
  · rename_i heq
    cases h
    exact heq

/-- A committed transaction: the identity was known and nothing changed, or the incident, the
evaluation and the deliveries were written together. -/
theorem transact_eq_ok {request : CommitRequest} {s done : Store}
    (h : s.transact request = .ok done) :
    ((∃ e, s.findEvaluation request.evaluation.identity = some e) ∧ done = s) ∨
    (s.findEvaluation request.evaluation.identity = none ∧
      (∃ row ∈ s.incidents.rows,
        row.id = request.incident.id ∧ row.version = request.expectedVersion) ∧
      done.incidents = s.incidents.modify request.incident.id (incidentChange request.incident) ∧
      done.snapshots = s.snapshots ∧
      done.evaluations.rows = s.evaluations.rows ++ [request.evaluation.toDocument] ∧
      done.outbox.rows =
        s.outbox.rows ++ request.deliveries.map (·.toDocument request.incident.updatedAt)) := by
  unfold transact at h
  cases hf : s.findEvaluation request.evaluation.identity with
  | some e =>
    rw [hf] at h
    cases h
    exact Or.inl ⟨⟨e, rfl⟩, rfl⟩
  | none =>
    rw [hf] at h
    simp only [Option.isSome_none, Bool.false_eq_true, if_false] at h
    split_ifs at h with hrow
    simp only [Bool.not_eq_true, Bool.not_eq_false', List.any_eq_true, Bool.and_eq_true,
      beq_iff_eq] at hrow
    split at h
    · cases h
    · rename_i evaluations he
      split at h
      · cases h
      · rename_i d hd
        cases h
        obtain ⟨hi, hs, hev, hout⟩ := insertDeliveries_eq_some hd
        obtain ⟨-, -, hinsert⟩ := Table.insert_eq_some.mp he
        exact Or.inr ⟨rfl, hrow, hi, hs, by rw [hev, hinsert], hout⟩

/-- A claim takes a delivery of the outbox that is eligible. -/
theorem claimableAt_eq_some {stored : Time → Time} {s : Store} {now : Time} {d : Delivery}
    (h : s.claimableAt stored now = some d) :
    d ∈ s.outbox.rows ∧ d.eligibleAt stored now = true :=
  List.mem_filter.mp ((sortSlice_perm _ _).mem_iff.mp (List.mem_of_mem_head? h))

theorem claimable_eq_some {s : Store} {now : Time} {d : Delivery}
    (h : s.claimable now = some d) : d ∈ s.outbox.rows ∧ d.eligible now = true :=
  claimableAt_eq_some h

theorem claim_eq_none {s : Store} {request : ClaimRequest} (h : s.claimable request.now = none) :
    s.claim request = (none, s) := by
  rw [claim, claimAt, show s.claimableAt bsonTime request.now = none from h]

theorem claim_eq_some {s : Store} {request : ClaimRequest} {d : Delivery}
    (h : s.claimable request.now = some d) :
    s.claim request = (some ((claimChange request).apply d),
      { s with outbox := s.outbox.modify d.id (claimChange request) }) := by
  rw [claim, claimAt, show s.claimableAt bsonTime request.now = some d from h]
  rfl

/-- A change that is one can be told from the store. -/
theorem modifyOutbox_ne {s : Store} {d : Delivery} (hd : d ∈ s.outbox.rows)
    {change : Table.Change (fun d : Delivery => d.id) Delivery.eventKey}
    (h : change.apply d ≠ d) : { s with outbox := s.outbox.modify d.id change } ≠ s := by
  intro heq
  have hmem : change.apply d ∈ s.outbox.rows := by
    have hchanged : change.apply d ∈ (s.outbox.modify d.id change).rows :=
      Table.mem_modify.mpr (Or.inr ⟨d, hd, rfl, rfl⟩)
    have hout : s.outbox.modify d.id change = s.outbox := congrArg Store.outbox heq
    rwa [hout] at hchanged
  exact h (Table.eq_of_id hmem hd (change.id_apply d))

end Frames

end Store

end RuleRaven
