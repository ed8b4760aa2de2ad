import RuleRaven.Store.Integrity
import RuleRaven.System.Walk

namespace RuleRaven

open Framework Controller

variable {ι : Type}

/-- The commit that an event is, unless it failed or found its identity known. -/
def Event.commit? (e : Event ι) : Option CommitRequest :=
  match e.op with
  | .store (.commit request) => if e.after = e.before then none else some request
  | _ => none

/-- All commits, in their order. -/
def commits (trace : List (Event ι)) : List CommitRequest := trace.filterMap Event.commit?

/-- The commits on one incident. -/
def commitsOn (trace : List (Event ι)) (incidentID : String) : List CommitRequest :=
  (commits trace).filter fun request => request.incident.id == incidentID

/-- The status that a sequence of commits leaves an incident in. -/
def statusAfter (log : List CommitRequest) : IncidentStatus :=
  (log.getLast?.map fun request => request.incident.status).getD .open

/-- What a delivery never changes. -/
def Delivery.slot (d : Delivery) : String × String × String × EventType := (d.id, d.eventKey)

/-- The rows that a commit adds to the outbox. -/
def CommitRequest.rows (request : CommitRequest) : List Delivery :=
  request.deliveries.map fun d => d.toDocument request.incident.updatedAt

section Commits

variable {trace : List (Event ι)} {e : Event ι} {request : CommitRequest} {incidentID : String}

theorem commits_append (trace others : List (Event ι)) :
    commits (trace ++ others) = commits trace ++ commits others :=
  List.filterMap_append

theorem commits_quiet (h : e.commit? = none) : commits (trace ++ [e]) = commits trace := by
  rw [commits_append]
  simp [commits, h]

theorem commits_commit (h : e.commit? = some request) :
    commits (trace ++ [e]) = commits trace ++ [request] := by
  rw [commits_append]
  simp [commits, h]

theorem commitsOn_append (trace others : List (Event ι)) (incidentID : String) :
    commitsOn (trace ++ others) incidentID =
      commitsOn trace incidentID ++ commitsOn others incidentID := by
  rw [commitsOn, commits_append, List.filter_append, commitsOn, commitsOn]

theorem commitsOn_quiet (h : e.commit? = none) :
    commitsOn (trace ++ [e]) incidentID = commitsOn trace incidentID := by
  rw [commitsOn, commits_quiet h, commitsOn]

theorem commitsOn_commit (h : e.commit? = some request) :
    commitsOn (trace ++ [e]) incidentID =
      commitsOn trace incidentID ++ if request.incident.id = incidentID then [request] else [] := by
  rw [commitsOn, commits_commit h, List.filter_append, commitsOn]
  by_cases hid : request.incident.id = incidentID <;> simp [hid]

theorem commitsOn_past {past : List (Event ι)} (h : past <+: trace) (incidentID : String) :
    commitsOn past incidentID <+: commitsOn trace incidentID := by
  obtain ⟨rest, rfl⟩ := h
  rw [commitsOn_append]
  exact List.prefix_append _ _

@[simp] theorem statusAfter_nil : statusAfter [] = .open := rfl

@[simp] theorem statusAfter_snoc (log : List CommitRequest) (request : CommitRequest) :
    statusAfter (log ++ [request]) = request.incident.status := by
  simp [statusAfter]

end Commits

theorem Event.commit?_unchanged {e : Event ι} (h : e.after = e.before) : e.commit? = none := by
  unfold commit?
  split
  · rw [if_pos h]
  · rfl

theorem Event.commit?_outside {op : Op} (hop : op.outside) (i : ι) (reply : op.Reply)
    (clock : Time) (s t : Store) : (⟨i, op, reply, clock, s, t⟩ : Event ι).commit? = none := by
  cases op with
  | store op => exact hop.elim
  | _ => rfl

/-- A commit that was written shows in the trace. -/
theorem Store.Committed.commit? {s t : Store} {request : CommitRequest}
    (h : s.Committed request t) (i : ι) (reply : (Op.store (.commit request)).Reply)
    (clock : Time) :
    (⟨i, .store (.commit request), reply, clock, s, t⟩ : Event ι).commit? = some request := by
  refine if_neg fun heq => ?_
  have hrows := h.evaluations
  rw [show t = s from heq] at hrows
  simpa using congrArg List.length hrows

/-- How the commits of a trace account for the store. -/
structure Chronicled (H : Hasher) (tasks : ι → Task → Prop) (w : World ι) : Prop where
  /-- Only reconciliations commit. -/
  issued : ∀ request ∈ commits w.trace, ∃ i r key, tasks i (.reconcile r key) ∧
    Reconciler.Issues H r key (.commit request)
  evaluations : w.store.evaluations.rows =
    (commits w.trace).map fun request => request.evaluation.toDocument
  outbox : w.store.outbox.rows.map Delivery.slot =
    (commits w.trace).flatMap fun request => request.rows.map Delivery.slot
  owner : ∀ request ∈ commits w.trace, ∃ i ∈ w.store.incidents.rows, i.id = request.incident.id
  incident : ∀ i ∈ w.store.incidents.rows,
    i.version = 1 + ((commitsOn w.trace i.id).length : Int) ∧
      i.status = statusAfter (commitsOn w.trace i.id)

section Chronicled

variable {H : Hasher} {tasks : ι → Task → Prop} {w : World ι} {i : ι}

theorem chronicled_empty (t : Time) : Chronicled H tasks ({ clock := t } : World ι) :=
  ⟨by simp [commits], by simp [commits], by simp [commits], by simp [commits], by simp⟩

/-- A call that commits nothing, where each incident is an old one or one that just opened. -/
theorem Chronicled.quiet (hw : Chronicled H tasks w) {op : Op} {reply : op.Reply} {s' : Store}
    (hquiet : (⟨i, op, reply, w.clock, w.store, s'⟩ : Event ι).commit? = none)
    (hevaluations : s'.evaluations = w.store.evaluations)
    (houtbox : s'.outbox.rows.map Delivery.slot = w.store.outbox.rows.map Delivery.slot)
    (hkept : ∀ j ∈ w.store.incidents.rows, j ∈ s'.incidents.rows)
    (hincidents : ∀ j ∈ s'.incidents.rows, j ∈ w.store.incidents.rows ∨
      (j.version = 1 ∧ j.status = .open ∧ ∀ k ∈ w.store.incidents.rows, k.id ≠ j.id)) :
    Chronicled H tasks (w.extend i op reply s') := by
  refine ⟨?_, ?_, ?_, ?_, fun j hj => ?_⟩ <;>
    simp only [World.extend, commits_quiet hquiet, commitsOn_quiet hquiet, hevaluations, houtbox]
  · exact hw.issued
  · exact hw.evaluations
  · exact hw.outbox
  · intro request hrequest
    obtain ⟨j, hj, hid⟩ := hw.owner request hrequest
    exact ⟨j, hkept j hj, hid⟩
  · rcases hincidents j hj with hj | ⟨hversion, hstatus, hfresh⟩
    · exact hw.incident j hj
    · have hnone : commitsOn w.trace j.id = [] := by
        rw [commitsOn, List.filter_eq_nil_iff]
        intro request hrequest heq
        obtain ⟨k, hk, hid⟩ := hw.owner request hrequest
        exact hfresh k hk (hid.trans (beq_iff_eq.mp heq))
      simp [hnone, hversion, hstatus]

theorem Chronicled.commit (hw : Chronicled H tasks w) {request : CommitRequest} {s' : Store}
    {reply : (Op.store (.commit request)).Reply} {j : ι} {r : Reconciler} {key : Kube.ResourceKey}
    (htask : tasks j (.reconcile r key)) (hissued : Reconciler.Issues H r key (.commit request))
    (h : w.store.Committed request s') :
    Chronicled H tasks (w.extend i (.store (.commit request)) reply s') := by
  have hcommit := h.commit? i reply w.clock
  refine ⟨?_, ?_, ?_, ?_, fun k hk => ?_⟩ <;>
    simp only [World.extend, commits_commit hcommit, commitsOn_commit hcommit]
  · intro x hx
    rcases List.mem_append.mp hx with hx | hx
    · exact hw.issued x hx
    · rw [List.mem_singleton.mp hx]
      exact ⟨j, r, key, htask, hissued⟩
  · rw [h.evaluations, hw.evaluations, List.map_append]
    rfl
  · rw [h.outbox, List.map_append, hw.outbox, List.flatMap_append, List.flatMap_singleton]
    rfl
  · intro x hx
    obtain ⟨k, hk, hid⟩ : ∃ k ∈ w.store.incidents.rows, k.id = x.incident.id := by
      rcases List.mem_append.mp hx with hx | hx
      · exact hw.owner x hx
      · rw [List.mem_singleton.mp hx]
        obtain ⟨row, hrow, hid, -⟩ := h.current
        exact ⟨row, hrow, hid⟩
    obtain ⟨k', hk', hid', -⟩ := h.grows.incidents k hk
    exact ⟨k', hk', hid'.trans hid⟩
  · rcases h.mem_incidents hk with ⟨hk, hne⟩ | ⟨row, hrow, hid, rfl⟩
    · rw [if_neg (Ne.symm hne), List.append_nil]
      exact hw.incident k hk
    · show row.version + 1 = 1 + ((commitsOn w.trace row.id ++
          if request.incident.id = row.id then [request] else []).length : Int) ∧
        request.incident.status = statusAfter (commitsOn w.trace row.id ++
          if request.incident.id = row.id then [request] else [])
      rw [if_pos hid.symm, (hw.incident row hrow).1, List.length_append, List.length_singleton,
        statusAfter_snoc]
      exact ⟨by push_cast; ring, rfl⟩

theorem map_slot_modify (s : Store) (id : String)
    (change : Table.Change (fun d : Delivery => d.id) Delivery.eventKey) :
    (s.outbox.modify id change).rows.map Delivery.slot = s.outbox.rows.map Delivery.slot :=
  Table.map_change s.outbox.rows id change.apply Delivery.slot fun d =>
    Prod.ext (change.id_apply d) (change.key_apply d)

theorem Chronicled.issues (hw : Chronicled H tasks w) {task : Task} (htask : tasks i task)
    {op : StoreOp} (hop : task.Issues H op) {reply : Except Err op.Out} {s' : Store}
    (h : w.store.Wrote op s') : Chronicled H tasks (w.extend i (.store op) reply s') := by
  cases h with
  | nothing =>
    exact hw.quiet (Event.commit?_unchanged rfl) rfl rfl (fun _ hj => hj) fun _ hj => Or.inl hj
  | incident h =>
    obtain ⟨hid, -, hrows⟩ := Table.insert_eq_some.mp h
    refine hw.quiet rfl rfl rfl (fun j hj => ?_) fun j hj => ?_
    · show j ∈ Table.rows _
      rw [hrows]
      exact List.mem_append_left _ hj
    · rcases List.mem_append.mp (hrows ▸ hj) with hj | hj
      · exact Or.inl hj
      · rw [List.mem_singleton.mp hj]
        cases hop with
        | reconcile hop =>
          cases hop
          exact Or.inr ⟨rfl, rfl, hid⟩
        | dispatch d hop => exact hop.elim
  | snapshot h => exact hw.quiet rfl rfl rfl (fun _ hj => hj) fun _ hj => Or.inl hj
  | commit h =>
    cases hop with
    | reconcile hop => exact hw.commit htask hop h
    | dispatch d hop => exact hop.elim
  | claim h =>
    exact hw.quiet rfl rfl (map_slot_modify _ _ _) (fun _ hj => hj) fun _ hj => Or.inl hj
  | finalize hop hd hheld =>
    refine hw.quiet ?_ rfl (map_slot_modify _ _ _) (fun _ hj => hj) fun _ hj => Or.inl hj
    cases hop <;> rfl

/-- The trace of every run accounts for its store. -/
theorem runs_chronicled {t : Time} {guard : ι → Op → World ι → Prop}
    {c : Framework.Config ι Op Op.Reply Unit (World ι)}
    (hrun : Runs H tasks guard (initial ι t) c) : Chronicled H tasks c.state := by
  refine runs_issued chronicled_empty (fun w t _ hw => ⟨hw.issued, hw.evaluations, hw.outbox,
    hw.owner, hw.incident⟩) (fun w gone hw _ => ⟨hw.issued, hw.evaluations, hw.outbox, hw.owner,
    hw.incident⟩) (fun i v op reply hout _ hv => ?_)
    (fun i task v op reply s' htask hop _ hv h => hv.issues htask hop h.wrote) hrun
  exact hv.quiet (Event.commit?_outside hout ..) rfl rfl (fun _ hj => hj) fun _ hj => Or.inl hj

theorem Chronicled.evaluationsOf (hw : Chronicled H tasks w) (incidentID : String) :
    w.store.evaluationsOf incidentID =
      (commitsOn w.trace incidentID).map fun request => request.evaluation.toDocument := by
  have hshaped : ∀ request ∈ commits w.trace,
      request.evaluation.toDocument.incidentID = request.incident.id := by
    intro request hrequest
    obtain ⟨-, r, key, -, hissued⟩ := hw.issued request hrequest
    cases hissued
    rfl
  rw [Store.evaluationsOf, hw.evaluations, List.filter_map, commitsOn]
  congr 1
  refine List.filter_congr fun request hrequest => ?_
  simp only [Function.comp_apply, hshaped request hrequest]

/-- Every row of the outbox was brought by a commit. -/
theorem Chronicled.row (hw : Chronicled H tasks w) {d : Delivery} (hd : d ∈ w.store.outbox.rows) :
    ∃ request ∈ commits w.trace, ∃ brought ∈ request.rows, brought.slot = d.slot := by
  have hslot := List.mem_map_of_mem (f := Delivery.slot) hd
  rw [hw.outbox, List.mem_flatMap] at hslot
  obtain ⟨request, hrequest, hslot⟩ := hslot
  obtain ⟨brought, hbrought, heq⟩ := List.mem_map.mp hslot
  exact ⟨request, hrequest, brought, hbrought, heq⟩

end Chronicled

end RuleRaven
