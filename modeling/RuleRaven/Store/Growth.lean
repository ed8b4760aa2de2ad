import RuleRaven.Store.Effect

namespace RuleRaven.Store

open Framework

/-- What no operation takes back: incidents keep their identity, snapshots and evaluations
stay as they were written, and a delivery keeps its indexes. -/
structure Grows (s t : Store) : Prop where
  incidents : ∀ i ∈ s.incidents.rows, ∃ j ∈ t.incidents.rows,
    j.id = i.id ∧ j.key = i.key ∧ j.clusterID = i.clusterID ∧ j.openedAt = i.openedAt
  snapshots : ∀ x ∈ s.snapshots.rows, x ∈ t.snapshots.rows
  evaluations : s.evaluations.rows <+: t.evaluations.rows
  outbox : ∀ d ∈ s.outbox.rows, ∃ e ∈ t.outbox.rows, e.id = d.id ∧ e.eventKey = d.eventKey

section Grows

variable {s t u : Store}

theorem Grows.refl (s : Store) : Grows s s where
  incidents := fun i hi => ⟨i, hi, rfl, rfl, rfl, rfl⟩
  snapshots := fun _ hx => hx
  evaluations := List.prefix_refl _
  outbox := fun d hd => ⟨d, hd, rfl, rfl⟩

theorem Grows.trans (h : Grows s t) (h' : Grows t u) : Grows s u where
  incidents := by
    intro i hi
    obtain ⟨j, hj, hid, hkey, hcluster, hopened⟩ := h.incidents i hi
    obtain ⟨k, hk, hid', hkey', hcluster', hopened'⟩ := h'.incidents j hj
    exact ⟨k, hk, hid'.trans hid, hkey'.trans hkey, hcluster'.trans hcluster,
      hopened'.trans hopened⟩
  snapshots := fun x hx => h'.snapshots x (h.snapshots x hx)
  evaluations := h.evaluations.trans h'.evaluations
  outbox := by
    intro d hd
    obtain ⟨e, he, hid, hkey⟩ := h.outbox d hd
    obtain ⟨f, hf, hid', hkey'⟩ := h'.outbox e he
    exact ⟨f, hf, hid'.trans hid, hkey'.trans hkey⟩

/-- A delivery that has a row keeps one. -/
theorem Grows.delivery (h : Grows s t) {id : String} (hrow : ∃ d ∈ s.outbox.rows, d.id = id) :
    ∃ d ∈ t.outbox.rows, d.id = id := by
  obtain ⟨d, hd, hid⟩ := hrow
  obtain ⟨e, he, hsame, -⟩ := h.outbox d hd
  exact ⟨e, he, hsame.trans hid⟩

theorem Grows.evaluation (h : Grows s t) {e : Evaluation} (he : e ∈ s.evaluations.rows) :
    e ∈ t.evaluations.rows := h.evaluations.subset he

theorem grows_insertIncident {incident : Incident}
    {incidents : Table Incident.id Incident.clusterKey}
    (h : s.incidents.insert incident = some incidents) :
    Grows s { s with incidents := incidents } := by
  obtain ⟨-, -, hrows⟩ := Table.insert_eq_some.mp h
  refine ⟨fun i hi => ⟨i, ?_, rfl, rfl, rfl, rfl⟩, fun _ hx => hx, List.prefix_refl _,
    fun d hd => ⟨d, hd, rfl, rfl⟩⟩
  rw [hrows]
  exact List.mem_append_left _ hi

theorem grows_insertSnapshot {row : SnapshotRow}
    {snapshots : Table SnapshotRow.hashKey SnapshotRow.hashKey}
    (h : s.snapshots.insert row = some snapshots) : Grows s { s with snapshots := snapshots } := by
  obtain ⟨-, -, hrows⟩ := Table.insert_eq_some.mp h
  refine ⟨fun i hi => ⟨i, hi, rfl, rfl, rfl, rfl⟩, fun x hx => ?_, List.prefix_refl _,
    fun d hd => ⟨d, hd, rfl, rfl⟩⟩
  rw [hrows]
  exact List.mem_append_left _ hx

theorem Committed.grows {request : CommitRequest} (h : Committed request s t) : Grows s t := by
  refine ⟨fun i hi => ?_, fun x hx => by rw [h.snapshots]; exact hx, ?_,
    fun d hd => ⟨d, ?_, rfl, rfl⟩⟩
  · rw [h.incidents]
    by_cases hid : i.id = request.incident.id
    · exact ⟨(incidentChange request.incident).apply i,
        Table.mem_modify.mpr (Or.inr ⟨i, hi, hid, rfl⟩), rfl, rfl, rfl, rfl⟩
    · exact ⟨i, Table.mem_modify.mpr (Or.inl ⟨hi, hid⟩), rfl, rfl, rfl, rfl⟩
  · rw [h.evaluations]
    exact List.prefix_append _ _
  · rw [h.outbox]
    exact List.mem_append_left _ hd

theorem grows_modifyOutbox (s : Store) (id : String)
    (change : Table.Change (fun d : Delivery => d.id) Delivery.eventKey) :
    Grows s { s with outbox := s.outbox.modify id change } := by
  refine ⟨fun i hi => ⟨i, hi, rfl, rfl, rfl, rfl⟩, fun _ hx => hx, List.prefix_refl _,
    fun d hd => ?_⟩
  by_cases hid : d.id = id
  · exact ⟨change.apply d, Table.mem_modify.mpr (Or.inr ⟨d, hd, hid, rfl⟩), change.id_apply d,
      change.key_apply d⟩
  · exact ⟨d, Table.mem_modify.mpr (Or.inl ⟨hd, hid⟩), rfl, rfl⟩

theorem Wrote.grows {op : StoreOp} (h : Wrote s op t) : Grows s t := by
  cases h with
  | nothing => exact Grows.refl s
  | incident h => exact grows_insertIncident h
  | snapshot h => exact grows_insertSnapshot h
  | commit h => exact h.grows
  | claim h => exact grows_modifyOutbox s _ _
  | finalize hop hd hheld => exact grows_modifyOutbox s _ _

/-- Every operation of the store grows it. -/
theorem grows_apply (s : Store) (op : StoreOp) : Grows s (s.apply op).2 := (wrote_apply s op).grows

theorem grows_claim (s : Store) (request : ClaimRequest) : Grows s (s.claim request).2 :=
  grows_apply s (.outboxClaim request)

end Grows

end RuleRaven.Store
