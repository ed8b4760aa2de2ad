import RuleRaven.Store.Mongo

namespace RuleRaven

open Framework

/-- A completion or a rescheduling: the row, the worker that has to hold it, and the change. -/
inductive StoreOp.Finalizes : StoreOp → String → String →
    Table.Change (fun d : Delivery => d.id) Delivery.eventKey → Prop
  | complete (request : CompleteRequest) :
      Finalizes (.outboxComplete request) request.id request.workerID (completeChange request)
  | reschedule (request : RescheduleRequest) :
      Finalizes (.outboxReschedule request) request.id request.workerID (rescheduleChange request)

namespace Store

/-- A commit that was written. -/
structure Committed (request : CommitRequest) (s t : Store) : Prop where
  unknown : s.findEvaluation request.evaluation.identity = none
  current : ∃ row ∈ s.incidents.rows,
    row.id = request.incident.id ∧ row.version = request.expectedVersion
  incidents : t.incidents =
    s.incidents.modify request.incident.id (incidentChange request.incident)
  snapshots : t.snapshots = s.snapshots
  evaluations : t.evaluations.rows = s.evaluations.rows ++ [request.evaluation.toDocument]
  outbox : t.outbox.rows =
    s.outbox.rows ++ request.deliveries.map (·.toDocument request.incident.updatedAt)

/-- Everything an operation can do to the store. -/
inductive Wrote (s : Store) : StoreOp → Store → Prop
  | nothing (op : StoreOp) : Wrote s op s
  | incident {incident : Incident} {incidents : Table Incident.id Incident.clusterKey}
      (h : s.incidents.insert incident.toDocument = some incidents) :
      Wrote s (.incidentsUpsert incident) { s with incidents := incidents }
  | snapshot {incidentID : String} {snapshot : Snapshot}
      {snapshots : Table SnapshotRow.hashKey SnapshotRow.hashKey}
      (h : s.snapshots.insert ⟨incidentID, snapshot.toDocument⟩ = some snapshots) :
      Wrote s (.snapshotsUpsert incidentID snapshot) { s with snapshots := snapshots }
  | commit {request : CommitRequest} {t : Store} (h : Committed request s t) :
      Wrote s (.commit request) t
  | claim {request : ClaimRequest} {d : Delivery} (h : s.claimable request.now = some d) :
      Wrote s (.outboxClaim request)
        { s with outbox := s.outbox.modify d.id (claimChange request) }
  | finalize {op : StoreOp} {id workerID : String}
      {change : Table.Change (fun d : Delivery => d.id) Delivery.eventKey} {d : Delivery}
      (hop : op.Finalizes id workerID change) (hd : d ∈ s.outbox.rows)
      (hheld : d.heldBy id workerID = true) :
      Wrote s op { s with outbox := s.outbox.modify id change }

section Wrote

variable {s t : Store}

theorem wrote_finalize {op : StoreOp} {id workerID : String}
    {change : Table.Change (fun d : Delivery => d.id) Delivery.eventKey}
    (hop : op.Finalizes id workerID change) : Wrote s op (s.finalize id workerID change).2 := by
  unfold finalize
  split_ifs with hany
  · obtain ⟨d, hd, hheld⟩ := List.any_eq_true.mp hany
    exact .finalize hop hd hheld
  · exact .nothing op

theorem wrote_transact {request : CommitRequest} (h : s.transact request = .ok t) :
    Wrote s (.commit request) t := by
  rcases transact_eq_ok h with ⟨-, rfl⟩ | ⟨hnone, hrow, hi, hs, he, ho⟩
  · exact .nothing _
  · exact .commit ⟨hnone, hrow, hi, hs, he, ho⟩

/-- What an operation does is one of these. -/
theorem wrote_apply (s : Store) (op : StoreOp) : Wrote s op (s.apply op).2 := by
  cases op with
  | incidentsFindOne clusterID key => exact .nothing _
  | incidentsUpsert incident =>
    show Wrote s _ (s.upsertIncident incident).2
    unfold upsertIncident
    split
    · exact .nothing _
    · split
      · exact .nothing _
      · rename_i incidents hinsert
        exact .incident hinsert
  | incidentsUpdate incident => exact .nothing _
  | snapshotsUpsert incidentID snapshot =>
    show Wrote s _ (s.upsertSnapshot incidentID snapshot).2
    unfold upsertSnapshot
    split
    · exact .nothing _
    · split
      · exact .nothing _
      · rename_i snapshots hinsert
        exact .snapshot hinsert
  | snapshotsFindOne incidentID hash => exact .nothing _
  | commit request =>
    show Wrote s _ (s.commit request).2
    unfold commit
    cases h : s.transact request with
    | error err => exact .nothing _
    | ok done => exact wrote_transact h
  | outboxClaim request =>
    show Wrote s _ (s.claim request).2
    cases hd : s.claimable request.now with
    | none =>
      rw [claim_eq_none hd]
      exact .nothing _
    | some d =>
      rw [claim_eq_some hd]
      exact .claim hd
  | outboxComplete request => exact wrote_finalize (.complete request)
  | outboxReschedule request => exact wrote_finalize (.reschedule request)

/-- Only a commit adds evaluations, and without one incidents stay as they are. -/
theorem Wrote.quiet {op : StoreOp} (h : Wrote s op t) (hop : ∀ request, op ≠ .commit request) :
    t.evaluations = s.evaluations ∧ ∀ i ∈ s.incidents.rows, i ∈ t.incidents.rows := by
  cases h with
  | incident h =>
    obtain ⟨-, -, hrows⟩ := Table.insert_eq_some.mp h
    refine ⟨rfl, fun i hi => ?_⟩
    show i ∈ Table.rows _
    rw [hrows]
    exact List.mem_append_left _ hi
  | commit h => exact absurd rfl (hop _)
  | _ => exact ⟨rfl, fun _ hi => hi⟩

/-- A commit brings an evaluation with an ID of its own. -/
theorem Committed.fresh {request : CommitRequest} (h : Committed request s t) :
    ∀ e ∈ s.evaluations.rows, e.id ≠ request.evaluation.id := by
  intro e he heq
  have hnodup := t.evaluations.id_unique
  rw [h.evaluations, List.map_append, List.nodup_append] at hnodup
  exact hnodup.2.2 e.id (List.mem_map_of_mem he) e.id
    (by rw [heq]; exact List.mem_singleton_self _) rfl

/-- An incident after a commit is one that was not meant, or the one that was, changed. -/
theorem Committed.mem_incidents {request : CommitRequest} (h : Committed request s t)
    {i : Incident} (hi : i ∈ t.incidents.rows) :
    (i ∈ s.incidents.rows ∧ i.id ≠ request.incident.id) ∨
      ∃ j ∈ s.incidents.rows, j.id = request.incident.id ∧
        i = (incidentChange request.incident).apply j := by
  rw [h.incidents] at hi
  exact Table.mem_modify.mp hi

end Wrote

end Store

end RuleRaven
