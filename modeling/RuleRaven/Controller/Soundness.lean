import RuleRaven.Controller.Persistence

namespace RuleRaven.Controller

open Framework Kube Rules

/-- A text without the separator of the seeds. -/
def Plain (s : String) : Prop := '\x00' ∉ s.toList

instance (s : String) : Decidable (Plain s) := inferInstanceAs (Decidable (_ ∉ _))

theorem plain_append_hex (H : Hasher) (front s : String) (h : Plain front) :
    Plain (front ++ H.hex s) := by
  simp only [Plain, String.toList_append, List.mem_append, not_or]
  exact ⟨h, H.plain s⟩

theorem plain_contentHash (H : Hasher) (s : Snapshot) : Plain (contentHash H s) :=
  plain_append_hex H _ _ (by decide)

/-- The first part of a seed can be read back from it. -/
theorem plain_cancel {a b x y : String} (ha : Plain a) (hb : Plain b)
    (h : a ++ "\x00" ++ x = b ++ "\x00" ++ y) : a = b ∧ x = y := by
  have hlist : a.toList ++ '\x00' :: x.toList = b.toList ++ '\x00' :: y.toList := by
    have := congrArg String.toList h
    simpa using this
  obtain ⟨hab, hxy⟩ := separated_cancel ha hb hlist
  exact ⟨String.toList_injective hab, String.toList_injective hxy⟩

/-- So can the last one. -/
theorem plain_cancel_last {a b x y : String} (hx : Plain x) (hy : Plain y)
    (h : a ++ "\x00" ++ x = b ++ "\x00" ++ y) : a = b ∧ x = y := by
  have hlist : a.toList ++ '\x00' :: x.toList = b.toList ++ '\x00' :: y.toList := by
    have := congrArg String.toList h
    simpa using this
  have hreverse := congrArg List.reverse hlist
  simp only [List.reverse_append, List.reverse_cons, List.append_assoc, List.singleton_append]
    at hreverse
  obtain ⟨hxy, hab⟩ := separated_cancel (List.mem_reverse.not.mpr hx) (List.mem_reverse.not.mpr hy)
    hreverse
  exact ⟨String.toList_injective (List.reverse_injective hab),
    String.toList_injective (List.reverse_injective hxy)⟩

namespace Reconciler

section Seeds

variable {H : Hasher} (hH : H.CollisionFree)

include hH

theorem incidentID_inj {key key' : String}
    (h : stableID H ("incident\x00" ++ key) = stableID H ("incident\x00" ++ key')) : key = key' :=
  (String.append_right_inj _).mp (hH h)

/-- Evaluations of one policy and one provider configuration have the ID of their identity. -/
theorem evaluationID_inj {a b : Identity} (hai : Plain a.incidentID) (hbi : Plain b.incidentID)
    (has : Plain a.snapshotHash) (hbs : Plain b.snapshotHash)
    (hpolicy : a.policyVersion = b.policyVersion)
    (hconfig : a.providerConfigHash = b.providerConfigHash)
    (h : evaluationID H a = evaluationID H b) : a = b := by
  have hseed := (String.append_right_inj _).mp (hH h)
  simp only [joinNul] at hseed
  obtain ⟨hid, hrest⟩ := plain_cancel hai hbi hseed
  obtain ⟨hhash, hrest⟩ := plain_cancel has hbs hrest
  rw [hpolicy] at hrest
  have hrubric := (String.append_right_inj _).mp hrest
  rw [hconfig] at hrubric
  rw [String.append_left_inj, String.append_left_inj] at hrubric
  cases a
  cases b
  simp_all

theorem deliveryID_inj {e e' d d' : String} {t t' : EventType} (he : Plain e) (he' : Plain e')
    (h : deliveryID H e d t = deliveryID H e' d' t') : e = e' ∧ d = d' ∧ t = t' := by
  have hseed := hH h
  simp only [joinNul] at hseed
  obtain ⟨-, hrest⟩ := plain_cancel (by decide : Plain "delivery") (by decide) hseed
  obtain ⟨heq, hrest⟩ := plain_cancel he he' hrest
  have hplain : ∀ t : EventType, Plain t.text := by
    intro t
    cases t <;> decide
  obtain ⟨hdestination, htext⟩ := plain_cancel_last (hplain t) (hplain t') hrest
  refine ⟨heq, hdestination, ?_⟩
  cases t <;> cases t' <;> first | rfl | exact absurd htext (by decide)

end Seeds

/-- What every store written by one reconciler satisfies: IDs are derived from what they
name, and a delivery belongs to a stored evaluation. -/
structure Sound (H : Hasher) (r : Reconciler) (s : Store) : Prop where
  incident : ∀ i ∈ s.incidents.rows, i.id = stableID H ("incident\x00" ++ i.key) ∧
    i.clusterID = r.clusterID ∧ isBlank i.key = false ∧ 0 < i.version
  evaluation : ∀ e ∈ s.evaluations.rows, e.id = evaluationID H e.identity ∧
    Plain e.incidentID ∧ Plain e.snapshotHash ∧
    e.policyVersion = Rules.policyVersion ++ "+" ++ r.composer.policyVersion ∧
    e.providerConfigHash = r.providerConfigHash
  delivery : ∀ d ∈ s.outbox.rows,
    d.id = deliveryID H d.evaluationID d.destinationID d.eventType ∧
    ∃ e ∈ s.evaluations.rows, d.evaluationID = e.id

section Success

variable {H : Hasher} {r : Reconciler} {s : Store} {incident : Incident} {p : Pending}

theorem sound_empty (H : Hasher) (r : Reconciler) : Sound H r {} :=
  ⟨by simp, by simp, by simp⟩

theorem Sound.of_eq {t : Store} (hs : Sound H r s) (hi : t.incidents = s.incidents)
    (he : t.evaluations = s.evaluations) (ho : t.outbox = s.outbox) : Sound H r t := by
  refine ⟨?_, ?_, ?_⟩
  · rw [hi]
    exact hs.incident
  · rw [he]
    exact hs.evaluation
  · rw [ho, he]
    exact hs.delivery

theorem Sound.withSnapshot (hs : Sound H r s) (incidentID : String) (snapshot : Snapshot) :
    Sound H r (s.withSnapshot incidentID snapshot) :=
  hs.of_eq Store.withSnapshot_incidents Store.withSnapshot_evaluations Store.withSnapshot_outbox

theorem Sound.id_visible (hs : Sound H r s) (hmem : incident ∈ s.incidents.rows) :
    isBlank incident.id = false := by
  rw [(hs.incident incident hmem).1]
  exact H.visible _

theorem validateCommit_recordRequest (env : Env) (created : Bool) (p : Pending)
    (hs : Sound H r s) (hmem : incident ∈ s.incidents.rows) :
    Mongo.validateCommit (r.recordRequest H env incident created p) = .ok () := by
  obtain ⟨-, hcluster, hkey, hversion⟩ := hs.incident incident hmem
  have hid := hs.id_visible hmem
  have hblank : isBlank incident.clusterID = false := by
    rw [hcluster]
    exact r.clusterID_visible
  have hincident : Mongo.validateIncident (r.recordRequest H env incident created p).incident =
      .ok () := by
    unfold Mongo.validateIncident
    rw [if_neg, if_neg]
    · exact not_le.mpr hversion
    · simpa [recordRequest, commitRequest, transition] using ⟨hid, hkey, hblank⟩
  have hdeliveries : ((r.recordRequest H env incident created p).deliveries.any fun d =>
      isBlank d.id || d.evaluationID != (r.recordRequest H env incident created p).evaluation.id) =
        false := by
    rw [List.any_eq_false]
    intro d hd
    obtain ⟨destination, -, rfl⟩ := mem_deliveries hd
    simp [recordRequest, commitRequest, deliveryID, stableID, H.visible]
  unfold Mongo.validateCommit
  rw [hincident]
  dsimp only
  rw [if_neg, if_neg, hdeliveries]
  · rfl
  · simp [recordRequest, commitRequest, evaluationID, stableID, H.visible, transition]
  · exact not_le.mpr hversion

theorem plain_incidentID (hs : Sound H r s) (hmem : incident ∈ s.incidents.rows) :
    Plain incident.id := by
  rw [(hs.incident incident hmem).1]
  exact H.plain _

/-- An evaluation whose identity is not stored brings an ID that is not stored. -/
theorem evaluationID_fresh (hH : H.CollisionFree) (hs : Sound H r s)
    (hmem : incident ∈ s.incidents.rows) (hj : Judged H p)
    (hnone : s.findEvaluation (r.identity incident.id p.snapshot p.result) = none) :
    ∀ e ∈ s.evaluations.rows,
      e.id ≠ evaluationID H (r.identity incident.id p.snapshot p.result) := by
  intro e he heq
  obtain ⟨hid, hplain, hhash, hpolicy, hconfig⟩ := hs.evaluation e he
  rw [hid] at heq
  have hsnap : Plain p.snapshot.contentHash := by
    rw [hj.hash]
    exact plain_contentHash H _
  have hsame : e.identity = r.identity incident.id p.snapshot p.result := by
    refine evaluationID_inj hH hplain (plain_incidentID hs hmem) hhash hsnap ?_ hconfig heq
    exact hpolicy.trans (by rw [identity, policyVersion, hj.policy])
  exact Table.byKey_eq_none.mp hnone e he hsame

theorem deliveries_fresh (hH : H.CollisionFree) (hs : Sound H r s) {id : String}
    (hid : Plain id) (hfresh : ∀ e ∈ s.evaluations.rows, e.id ≠ id) {i : Incident}
    {snapshot : Snapshot} {eventType : EventType} {decision : Decision}
    {status : IncidentStatus} {now written : Time} (u : Store) (hu : u.outbox = s.outbox) :
    ∃ done, Store.insertDeliveries written
      (r.deliveries H i snapshot id eventType decision status now) u = some done := by
  have hdistinct : r.destinations.Nodup :=
    r.destinations_increasing.imp fun h => ne_of_lt h
  have hother : ∀ o ∈ u.outbox.rows, o.evaluationID ≠ id := by
    intro o ho heq
    rw [hu] at ho
    obtain ⟨-, e, he, hoe⟩ := hs.delivery o ho
    exact hfresh e he (hoe.symm.trans heq)
  refine Store.insertDeliveries_isSome ?_ ?_ ?_ ?_
  · unfold deliveries
    split_ifs
    · exact List.nodup_nil
    · rw [List.map_map]
      refine hdistinct.map_on fun d _ d' _ heq => ?_
      exact (deliveryID_inj hH hid hid heq).2.1
  · intro d hd o ho heq
    obtain ⟨destination, -, rfl⟩ := mem_deliveries hd
    obtain ⟨hoid, e, he, hoe⟩ := hs.delivery o (hu ▸ ho)
    rw [hoid] at heq
    have hplain : Plain o.evaluationID := by
      rw [hoe, (hs.evaluation e he).1]
      exact H.plain _
    exact hother o ho (deliveryID_inj hH hplain hid heq).1
  · intro d hd o ho heq
    obtain ⟨destination, -, rfl⟩ := mem_deliveries hd
    exact hother o ho (congrArg Prod.fst heq)
  · unfold deliveries
    split_ifs
    · exact List.nodup_nil
    · rw [List.map_map]
      refine hdistinct.map_on fun d _ d' _ heq => ?_
      exact congrArg (fun k => k.2.1) heq

/-- On a sound store the transaction of `persist` goes through. -/
theorem transact_recordRequest (env : Env) (created : Bool) (hH : H.CollisionFree)
    (hs : Sound H r s) (hmem : incident ∈ s.incidents.rows) (hj : Judged H p) :
    ∃ done, s.transact (r.recordRequest H env incident created p) = .ok done := by
  refine Store.transact_isOk ⟨incident, hmem, rfl, rfl⟩ ?_ ?_
  · exact evaluationID_fresh hH hs hmem hj
  · intro hnone u hu
    exact deliveries_fresh hH hs (H.plain _) (evaluationID_fresh hH hs hmem hj hnone) u hu

theorem record_succeeds (env : Env) (created : Bool) (hH : H.CollisionFree) (hs : Sound H r s)
    (hmem : incident ∈ s.incidents.rows) (hj : Judged H p)
    (hgate : created = false → incident.contentHash = p.snapshot.contentHash →
      isRecovery p.result = true) :
    (Prog.run (serve env) (r.record H incident created p.snapshot p.result p.now) s).1 =
      .ok () := by
  have hnot : ¬(!created && incident.contentHash == p.snapshot.contentHash &&
      !isRecovery p.result) = true := by
    simp only [Bool.and_eq_true, Bool.not_eq_true', beq_iff_eq, not_and, and_imp]
    intro hc he
    simp [hgate hc he]
  have hhash : isBlank p.snapshot.contentHash = false := by
    rw [hj.hash]
    exact contentHash_visible H _
  obtain ⟨row, hrow⟩ := run_upsertSnapshot env s incident.id p.snapshot (hs.id_visible hmem) hhash
  have hs' := hs.withSnapshot incident.id p.snapshot
  have hmem' : incident ∈ (s.withSnapshot incident.id p.snapshot).incidents.rows := by
    rw [Store.withSnapshot_incidents]
    exact hmem
  obtain ⟨done, hdone⟩ := transact_recordRequest env created hH hs' hmem' hj
  have hvalid := validateCommit_recordRequest env created p hs' hmem'
  unfold record
  rw [if_neg hnot]
  simp only [Prog.bind_eq_bind, Prog.run_bind, hrow, run_decideResult]
  rw [← recordRequest, run_commit env _ _ hvalid, hdone]
  rfl

theorem Sound.insert_placeholder (hs : Sound H r s)
    {incidents : Table Incident.id Incident.clusterKey}
    (h : s.incidents.insert (r.placeholder H p.snapshot p.now).toDocument = some incidents) :
    Sound H r { s with incidents := incidents } := by
  refine ⟨?_, hs.evaluation, hs.delivery⟩
  intro i hi
  rw [(Table.insert_eq_some.mp h).2.2, List.mem_append, List.mem_singleton] at hi
  rcases hi with hi | rfl
  · exact hs.incident i hi
  · exact ⟨rfl, rfl, incidentKey_visible H _, Int.one_pos⟩

/-- Where the key has no row, its placeholder can be inserted. -/
theorem placeholder_insert (hH : H.CollisionFree) (hs : Sound H r s)
    (hnone : s.incident r.clusterID (incidentKey H p.snapshot.source) = none) :
    ∃ incidents, s.incidents.insert (r.placeholder H p.snapshot p.now).toDocument =
      some incidents := by
  have hkey := Table.byKey_eq_none.mp hnone
  obtain ⟨incidents, hinsert, -⟩ := Table.insert_isSome (t := s.incidents)
    (a := (r.placeholder H p.snapshot p.now).toDocument) (by
      intro b hb heq
      obtain ⟨hid, hcluster, -, -⟩ := hs.incident b hb
      rw [hid] at heq
      have hsame : b.key = incidentKey H p.snapshot.source := incidentID_inj hH heq
      exact hkey b hb (by rw [Incident.clusterKey, hcluster, hsame]))
    hkey
  exact ⟨incidents, hinsert⟩

theorem run_upsertIncident_new {incidents : Table Incident.id Incident.clusterKey} {new : Incident}
    (env : Env) (hvalid : Mongo.validateIncident new = .ok ())
    (hnone : s.incident new.clusterID new.key = none)
    (hinsert : s.incidents.insert new.toDocument = some incidents) :
    Prog.run (serve env) (Mongo.upsertIncident new) s =
      (.ok (new.toDocument, true), { s with incidents := incidents }) := by
  have hrows := (Table.insert_eq_some.mp hinsert).2.2
  have hfind : incidents.byKey (new.clusterID, new.key) = some new.toDocument :=
    Table.byKey_eq_some.mpr ⟨by simp [hrows], rfl⟩
  unfold Mongo.upsertIncident
  rw [hvalid]
  simp only [Prog.bind_eq_bind, Prog.run_bind, run_insertIncident env s new hnone, hinsert,
    run_store, Store.apply, Store.incident, hfind]
  rfl

/-- On a sound store, with the store doing what it is asked, `persist` does not fail. -/
theorem runPersist_succeeds (hH : H.CollisionFree) (hs : Sound H r s) {c : Call}
    (hp : r.verdict H c s = .ok (.persist p)) : (r.runPersist H c.env p s).1 = .ok () := by
  obtain ⟨hj, hprev, -⟩ := verdict_persist hp
  unfold runPersist persist
  cases hpr : p.previous with
  | some i =>
    rw [hpr] at hprev
    have hmem := (Table.byKey_eq_some.mp hprev.symm).1
    exact record_succeeds c.env false hH hs hmem hj fun _ => hj.gate i hpr
  | none =>
    rw [hpr] at hprev
    obtain ⟨incidents, hinsert⟩ := placeholder_insert hH hs hprev.symm
    simp only [Prog.bind_eq_bind, Prog.run_bind,
      run_upsertIncident_new c.env (validateIncident_placeholder _ _) hprev.symm hinsert]
    refine record_succeeds c.env true hH (hs.insert_placeholder hinsert) ?_ hj (by simp)
    rw [(Table.insert_eq_some.mp hinsert).2.2]
    exact List.mem_append_right _ (List.mem_singleton.mpr rfl)

theorem Sound.transact (hs : Sound H r s) (hmem : incident ∈ s.incidents.rows) (hj : Judged H p)
    {env : Env} {created : Bool} {done : Store}
    (ht : s.transact (r.recordRequest H env incident created p) = .ok done) :
    Sound H r done := by
  rcases Store.transact_eq_ok ht with ⟨-, rfl⟩ | ⟨-, -, hi, -, he, ho⟩
  · exact hs
  · refine ⟨?_, ?_, ?_⟩
    · intro i hmod
      rw [hi, Table.mem_modify] at hmod
      rcases hmod with ⟨hold, -⟩ | ⟨a, ha, -, rfl⟩
      · exact hs.incident i hold
      · obtain ⟨hid, hcluster, hkey, hversion⟩ := hs.incident a ha
        exact ⟨hid, hcluster, hkey, Int.lt_add_one_of_le hversion.le⟩
    · intro e hmod
      rw [he, List.mem_append, List.mem_singleton] at hmod
      rcases hmod with hold | rfl
      · exact hs.evaluation e hold
      · refine ⟨rfl, plain_incidentID hs hmem, ?_, ?_, rfl⟩
        · show Plain p.snapshot.contentHash
          rw [hj.hash]
          exact plain_contentHash H _
        · show r.policyVersion p.result = _
          rw [policyVersion, hj.policy]
    · intro d hmod
      rw [ho, List.mem_append, List.mem_map] at hmod
      rw [he]
      rcases hmod with hold | ⟨n, hn, rfl⟩
      · obtain ⟨hid, e, hmem, heq⟩ := hs.delivery d hold
        exact ⟨hid, e, List.mem_append_left _ hmem, heq⟩
      · obtain ⟨destination, -, rfl⟩ := mem_deliveries hn
        exact ⟨rfl, _, List.mem_append_right _ (List.mem_singleton.mpr rfl), rfl⟩

end Success

section Runs

variable {H : Hasher} {r : Reconciler} {c : Call} {s : Store} {p : Pending}

theorem runCall_succeeds (hH : H.CollisionFree) (hs : Sound H r s)
    (hp : r.persisting H c s = some p) : (r.runCall H c s).1 = .ok ⟨p.requeue⟩ := by
  have hv := persisting_eq_some.mp hp
  rw [runCall_persist hv, runPersist_succeeds hH hs hv]
  rfl

theorem Sound.runCall (hH : H.CollisionFree) (hs : Sound H r s) (c : Call) :
    Sound H r (r.runCall H c s).2 := by
  cases hp : r.persisting H c s with
  | none =>
    rw [runCall_unpersisted hp]
    exact hs
  | some p =>
    have hv := persisting_eq_some.mp hp
    obtain ⟨hj, -, -⟩ := verdict_persist hv
    obtain ⟨incident, created, base, hbase, hfind, -, -, ht⟩ :=
      persist_ok hv (runCall_succeeds hH hs hp)
    have hsound : Sound H r base := by
      rcases hbase with ⟨-, -, rfl⟩ | ⟨-, -, rfl, incidents, hinsert, rfl⟩
      · exact hs
      · exact hs.insert_placeholder hinsert
    refine (hsound.withSnapshot incident.id p.snapshot).transact ?_ hj ht
    rw [Store.withSnapshot_incidents]
    exact (Table.byKey_eq_some.mp hfind).1

/-- Every store that a sequence of calls leaves behind is sound. -/
theorem sound_after (hH : H.CollisionFree) (calls : List Call) : Sound H r (r.after H calls) := by
  induction calls using List.reverseRecOn with
  | nil => exact sound_empty H r
  | append_singleton calls c ih =>
    rw [after_append]
    exact ih.runCall hH c

end Runs

end Reconciler

end RuleRaven.Controller
