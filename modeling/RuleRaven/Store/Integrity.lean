import RuleRaven.Store.Growth

namespace RuleRaven

open Framework

/-- A row on which nothing was recorded yet. -/
def Incident.Unrecorded (i : Incident) : Prop :=
  i.version = 1 ∧ i.contentHash = "" ∧ i.status = .open ∧ i.resolvedAt = none

/-- The parts of a commit agree with each other. -/
structure CommitRequest.Shaped (request : CommitRequest) : Prop where
  incident : request.evaluation.incidentID = request.incident.id
  hash : request.incident.contentHash = request.evaluation.snapshotHash
  resolution : request.incident.status = .resolved ↔ request.incident.resolvedAt.isSome = true
  resolvedAt : ∀ t, request.incident.resolvedAt = some t → t = request.incident.updatedAt
  deliveries : ∀ d ∈ request.deliveries, d.evaluationID = request.evaluation.id

namespace Store

/-- The evaluations of an incident, in the order of their commits. -/
def evaluationsOf (s : Store) (incidentID : String) : List Evaluation :=
  s.evaluations.rows.filter fun e => e.incidentID == incidentID

/-- What the four collections say of each other. -/
structure Integral (s : Store) : Prop where
  /-- Every commit counts. -/
  version : ∀ i ∈ s.incidents.rows, i.version = 1 + ((s.evaluationsOf i.id).length : Int)
  /-- An incident shows its latest evaluation, or that it has none. -/
  latest : ∀ i ∈ s.incidents.rows,
    match (s.evaluationsOf i.id).getLast? with
    | some e => i.contentHash = e.snapshotHash
    | none => i.contentHash = "" ∧ i.status = .open
  resolution : ∀ i ∈ s.incidents.rows,
    (i.status = .resolved ↔ i.resolvedAt.isSome = true) ∧
      ∀ t, i.resolvedAt = some t → t = i.updatedAt
  snapshot : ∀ e ∈ s.evaluations.rows, ∃ x ∈ s.snapshots.rows,
    x.incidentID = e.incidentID ∧ x.snapshot.contentHash = e.snapshotHash
  delivery : ∀ d ∈ s.outbox.rows, ∃ e ∈ s.evaluations.rows, d.evaluationID = e.id
  /-- No evaluation is without its incident. -/
  owner : ∀ e ∈ s.evaluations.rows, ∃ i ∈ s.incidents.rows, i.id = e.incidentID

/-- What an operation has to bring for the collections to go on agreeing. -/
def Permitted (s : Store) : StoreOp → Prop
  | .incidentsUpsert incident => incident.Unrecorded
  | .commit request => request.Shaped ∧ ∃ x ∈ s.snapshots.rows,
      x.incidentID = request.incident.id ∧
        x.snapshot.contentHash = request.evaluation.snapshotHash
  | _ => True

section Integral

variable {s t : Store}

theorem integral_empty : Integral {} :=
  ⟨by simp, by simp, by simp, by simp, by simp, by simp⟩

theorem evaluationsOf_of_rows (h : t.evaluations.rows = s.evaluations.rows) (id : String) :
    t.evaluationsOf id = s.evaluationsOf id := by
  rw [evaluationsOf, h, evaluationsOf]

theorem evaluationsOf_append {e : Evaluation} (h : t.evaluations.rows = s.evaluations.rows ++ [e])
    (id : String) :
    t.evaluationsOf id = s.evaluationsOf id ++ if e.incidentID = id then [e] else [] := by
  rw [evaluationsOf, h, List.filter_append, evaluationsOf]
  by_cases hid : e.incidentID = id <;> simp [hid]

theorem Integral.insertIncident (hs : Integral s) {incident : Incident}
    {incidents : Table Incident.id Incident.clusterKey} (hfresh : incident.Unrecorded)
    (h : s.incidents.insert incident.toDocument = some incidents) :
    Integral { s with incidents := incidents } := by
  obtain ⟨hid, -, hrows⟩ := Table.insert_eq_some.mp h
  obtain ⟨hversion, hhash, hopen, hresolved⟩ := hfresh
  have hnone : s.evaluationsOf incident.id = [] := by
    rw [evaluationsOf, List.filter_eq_nil_iff]
    intro e he heq
    obtain ⟨i, hi, howner⟩ := hs.owner e he
    exact hid i hi (howner.trans (beq_iff_eq.mp heq))
  refine ⟨?_, ?_, ?_, hs.snapshot, hs.delivery, ?_⟩
  · intro i hi
    rw [hrows, List.mem_append, List.mem_singleton] at hi
    rcases hi with hi | rfl
    · exact hs.version i hi
    · show incident.version = 1 + ((s.evaluationsOf incident.id).length : Int)
      simp [hversion, hnone]
  · intro i hi
    rw [hrows, List.mem_append, List.mem_singleton] at hi
    rcases hi with hi | rfl
    · exact hs.latest i hi
    · show match (s.evaluationsOf incident.id).getLast? with
        | some e => incident.contentHash = e.snapshotHash
        | none => incident.contentHash = "" ∧ incident.status = .open
      rw [hnone]
      exact ⟨hhash, hopen⟩
  · intro i hi
    rw [hrows, List.mem_append, List.mem_singleton] at hi
    rcases hi with hi | rfl
    · exact hs.resolution i hi
    · simp [Incident.toDocument, hopen, hresolved]
  · intro e he
    obtain ⟨i, hi, howner⟩ := hs.owner e he
    refine ⟨i, ?_, howner⟩
    show i ∈ incidents.rows
    rw [hrows]
    exact List.mem_append_left _ hi

theorem Integral.insertSnapshot (hs : Integral s) {row : SnapshotRow}
    {snapshots : Table SnapshotRow.hashKey SnapshotRow.hashKey}
    (h : s.snapshots.insert row = some snapshots) : Integral { s with snapshots := snapshots } := by
  refine ⟨hs.version, hs.latest, hs.resolution, fun e he => ?_, hs.delivery, hs.owner⟩
  obtain ⟨x, hx, hmatch⟩ := hs.snapshot e he
  exact ⟨x, (grows_insertSnapshot h).snapshots x hx, hmatch⟩

/-- The row a commit writes accounts for one more evaluation, the others for none. -/
theorem Integral.commit (hs : Integral s) {request : CommitRequest} (hshape : request.Shaped)
    (hsaved : ∃ x ∈ s.snapshots.rows, x.incidentID = request.incident.id ∧
      x.snapshot.contentHash = request.evaluation.snapshotHash)
    (h : Committed request s t) : Integral t := by
  have hevals : ∀ id, t.evaluationsOf id = s.evaluationsOf id ++
      if request.incident.id = id then [request.evaluation.toDocument] else [] := by
    intro id
    rw [evaluationsOf_append h.evaluations, ← hshape.incident]
    rfl
  refine ⟨?_, ?_, ?_, ?_, ?_, ?_⟩
  · intro i hi
    rcases h.mem_incidents hi with ⟨hi, hne⟩ | ⟨j, hj, hjid, rfl⟩
    · rw [hevals, if_neg (Ne.symm hne), List.append_nil]
      exact hs.version i hi
    · show j.version + 1 = 1 + ((t.evaluationsOf j.id).length : Int)
      rw [hevals, if_pos hjid.symm, hs.version j hj, List.length_append, List.length_singleton]
      push_cast
      ring
  · intro i hi
    rcases h.mem_incidents hi with ⟨hi, hne⟩ | ⟨j, hj, hjid, rfl⟩
    · rw [hevals, if_neg (Ne.symm hne), List.append_nil]
      exact hs.latest i hi
    · show match (t.evaluationsOf j.id).getLast? with
        | some e => request.incident.contentHash = e.snapshotHash
        | none => request.incident.contentHash = "" ∧ request.incident.status = .open
      rw [hevals, if_pos hjid.symm, List.getLast?_concat]
      exact hshape.hash
  · intro i hi
    rcases h.mem_incidents hi with ⟨hi, -⟩ | ⟨j, hj, -, rfl⟩
    · exact hs.resolution i hi
    · show (request.incident.status = .resolved ↔
          (request.incident.resolvedAt.map bsonTime).isSome = true) ∧
        ∀ t, request.incident.resolvedAt.map bsonTime = some t →
          t = bsonTime request.incident.updatedAt
      refine ⟨by rw [Option.isSome_map]; exact hshape.resolution, ?_⟩
      rintro t ht
      obtain ⟨u, hu, rfl⟩ := Option.map_eq_some_iff.mp ht
      rw [hshape.resolvedAt u hu]
  · intro e he
    rw [h.evaluations, List.mem_append, List.mem_singleton] at he
    rw [h.snapshots]
    rcases he with he | rfl
    · exact hs.snapshot e he
    · obtain ⟨x, hx, hxid, hxhash⟩ := hsaved
      exact ⟨x, hx, hxid.trans hshape.incident.symm, hxhash⟩
  · intro d hd
    rw [h.outbox, List.mem_append, List.mem_map] at hd
    simp only [h.evaluations, List.mem_append, List.mem_singleton]
    rcases hd with hd | ⟨n, hn, rfl⟩
    · obtain ⟨e, he, heq⟩ := hs.delivery d hd
      exact ⟨e, Or.inl he, heq⟩
    · exact ⟨_, Or.inr rfl, hshape.deliveries n hn⟩
  · intro e he
    rw [h.evaluations, List.mem_append, List.mem_singleton] at he
    have hkept : ∀ j ∈ s.incidents.rows, ∃ i ∈ t.incidents.rows, i.id = j.id := by
      intro j hj
      obtain ⟨i, hi, hij, -⟩ := h.grows.incidents j hj
      exact ⟨i, hi, hij⟩
    rcases he with he | rfl
    · obtain ⟨j, hj, hje⟩ := hs.owner e he
      obtain ⟨i, hi, hij⟩ := hkept j hj
      exact ⟨i, hi, hij.trans hje⟩
    · obtain ⟨row, hrow, hid, -⟩ := h.current
      obtain ⟨i, hi, hij⟩ := hkept row hrow
      exact ⟨i, hi, (hij.trans hid).trans hshape.incident.symm⟩

theorem Integral.modifyOutbox (hs : Integral s) (id : String)
    (change : Table.Change (fun d : Delivery => d.id) Delivery.eventKey) :
    Integral { s with outbox := s.outbox.modify id change } := by
  refine ⟨hs.version, hs.latest, hs.resolution, hs.snapshot, ?_, hs.owner⟩
  intro d hd
  rcases Table.mem_modify.mp hd with ⟨hd, -⟩ | ⟨b, hb, -, rfl⟩
  · exact hs.delivery d hd
  · obtain ⟨e, he, heq⟩ := hs.delivery b hb
    have hkey : (change.apply b).evaluationID = b.evaluationID :=
      congrArg Prod.fst (change.key_apply b)
    exact ⟨e, he, hkey.trans heq⟩

/-- A permitted operation keeps the collections in agreement. -/
theorem Integral.wrote (hs : Integral s) {op : StoreOp} (hop : s.Permitted op)
    (h : s.Wrote op t) : Integral t := by
  cases h with
  | nothing => exact hs
  | incident h => exact hs.insertIncident hop h
  | snapshot h => exact hs.insertSnapshot h
  | commit h => exact hs.commit hop.1 hop.2 h
  | claim h => exact hs.modifyOutbox _ _
  | finalize _ _ _ => exact hs.modifyOutbox _ _

end Integral

/-- What was written to the outbox with the first evaluation of an incident tells that it
opened. -/
def Opened (s : Store) : Prop :=
  ∀ incidentID e, (s.evaluationsOf incidentID).head? = some e →
    ∀ d ∈ s.outbox.rows, d.evaluationID = e.id → d.eventType = .opened

/-- A commit that brings the first evaluation of its incident tells that it opened. -/
def Introduces (s : Store) : StoreOp → Prop
  | .commit request => s.evaluationsOf request.incident.id = [] →
      ∀ d ∈ request.deliveries, d.eventType = .opened
  | _ => True

section Opened

variable {s t : Store}

theorem opened_empty : Opened {} := by
  intro incidentID e he
  simp [evaluationsOf] at he

theorem Opened.frame (hs : Opened s) (hevals : t.evaluations.rows = s.evaluations.rows)
    (hout : ∀ d ∈ t.outbox.rows, ∃ b ∈ s.outbox.rows, d.eventKey = b.eventKey) : Opened t := by
  intro incidentID e he d hd heq
  rw [evaluationsOf_of_rows hevals] at he
  obtain ⟨b, hb, hkey⟩ := hout d hd
  simp only [Delivery.eventKey, Prod.mk.injEq] at hkey
  rw [hkey.2.2]
  exact hs incidentID e he b hb (hkey.1.symm.trans heq)

theorem Opened.modifyOutbox (hs : Opened s) (id : String)
    (change : Table.Change (fun d : Delivery => d.id) Delivery.eventKey) :
    Opened { s with outbox := s.outbox.modify id change } := by
  refine hs.frame rfl fun d hd => ?_
  rcases Table.mem_modify.mp hd with ⟨hd, -⟩ | ⟨b, hb, -, rfl⟩
  · exact ⟨d, hd, rfl⟩
  · exact ⟨b, hb, change.key_apply b⟩

theorem Opened.commit (hs : Opened s) (hint : Integral s) {request : CommitRequest}
    (hshape : request.Shaped) (hintro : s.Introduces (.commit request))
    (h : Committed request s t) : Opened t := by
  intro incidentID e he d hd heq
  rw [h.outbox, List.mem_append, List.mem_map] at hd
  rw [evaluationsOf_append h.evaluations] at he
  -- The new evaluation has an ID of its own, so old and new deliveries do not mix.
  cases hfirst : s.evaluationsOf incidentID with
  | cons first rest =>
    rw [hfirst, List.cons_append, List.head?_cons, Option.some.injEq] at he
    subst he
    have hmem : first ∈ s.evaluations.rows :=
      List.mem_of_mem_filter (hfirst ▸ List.mem_cons_self : first ∈ s.evaluationsOf incidentID)
    rcases hd with hd | ⟨n, hn, rfl⟩
    · exact hs incidentID first (by rw [hfirst, List.head?_cons]) d hd heq
    · exact absurd (heq.symm.trans (hshape.deliveries n hn)) (h.fresh first hmem)
  | nil =>
    rw [hfirst, List.nil_append] at he
    split_ifs at he with hid
    · rw [List.head?_cons, Option.some.injEq] at he
      subst he
      rcases hd with hd | ⟨n, hn, rfl⟩
      · obtain ⟨old, hold, holdeq⟩ := hint.delivery d hd
        exact absurd (holdeq.symm.trans heq) (h.fresh old hold)
      · refine hintro ?_ n hn
        rw [← hshape.incident, ← hfirst, ← hid]
        rfl
    · cases he

/-- An operation that introduces its incidents keeps it so. -/
theorem Opened.wrote (hs : Opened s) (hint : Integral s) {op : StoreOp} (hop : s.Permitted op)
    (hintro : s.Introduces op) (h : s.Wrote op t) : Opened t := by
  cases h with
  | nothing => exact hs
  | incident _ => exact hs.frame rfl fun d hd => ⟨d, hd, rfl⟩
  | snapshot _ => exact hs.frame rfl fun d hd => ⟨d, hd, rfl⟩
  | commit h => exact hs.commit hint hop.1 hintro h
  | claim h => exact hs.modifyOutbox _ _
  | finalize _ _ _ => exact hs.modifyOutbox _ _

end Opened

end Store

end RuleRaven
