import RuleRaven.Controller.Sequential
import RuleRaven.Store.Integrity
import RuleRaven.System.Walk

namespace RuleRaven

open Framework Kube Controller Notify Rules

variable {ι : Type}

/-- The incident has an evaluation. -/
def Introduced (incidentID : String) (w : World ι) : Prop := w.store.evaluationsOf incidentID ≠ []

/-- A snapshot of the incident under this hash is stored. -/
def Saved (incidentID hash : String) (w : World ι) : Prop :=
  ∃ x ∈ w.store.snapshots.rows, x.incidentID = incidentID ∧ x.snapshot.contentHash = hash

theorem stable_introduced (i : ι) (incidentID : String) : Stable i (Introduced incidentID) := by
  intro w w' hr h hnil
  have hprefix := hr.store.evaluations.filter fun e => e.incidentID == incidentID
  exact h (List.prefix_nil.mp (hnil ▸ hprefix))

theorem stable_saved (i : ι) (incidentID hash : String) : Stable i (Saved incidentID hash) := by
  rintro w w' hr ⟨x, hx, hmatch⟩
  exact ⟨x, hr.store.snapshots x hx, hmatch⟩

/-- The invariant of the store; under `g`, which stands for the guard on reads, incidents are
introduced by their opening as well. -/
def Recorded (g : Prop) (w : World ι) : Prop := w.store.Integral ∧ (g → w.store.Opened)

theorem Recorded.apply {g : Prop} {i : ι} {w : World ι} (hw : Recorded g w) {op : StoreOp}
    (hop : w.store.Permitted op) (hintro : g → w.store.Introduces op)
    {reply : Except Err op.Out} {s' : Store} (h : StoreAnswer w.store op reply s') :
    Recorded g (w.extend i (.store op) reply s') :=
  ⟨hw.1.wrote hop h.wrote, fun hg => (hw.2 hg).wrote hw.1 hop (hintro hg) h.wrote⟩

variable [DecidableEq ι]

/-- The execution itself inserted the incident. -/
def World.inserted (w : World ι) (i : ι) (incidentID : String) : Bool :=
  w.trace.any fun e => e.worker == i && e.after.incidents.rows.any (·.id == incidentID) &&
    !e.before.incidents.rows.any (·.id == incidentID)

/-- Whoever reads an incident finds an evaluation of it, or has inserted it just now. -/
def readsIntroduced (i : ι) : Op → World ι → Bool
  | .store (.incidentsFindOne clusterID key), w =>
    (w.store.incident clusterID key).all fun incident =>
      !(w.store.evaluationsOf incident.id).isEmpty || w.inserted i incident.id
  | _, _ => true

/-- The execution has inserted nothing so far. -/
def Bare (i : ι) (w : World ι) : Prop := ∀ incidentID, w.inserted i incidentID = false

section Bare

variable {i : ι} {w : World ι}

theorem bare_of_unused (h : w.Unused i) : Bare i w := by
  intro incidentID
  simp only [World.inserted, List.any_eq_false, Bool.and_eq_true, beq_iff_eq]
  intro e he hall
  exact h.1 e he hall.1.1

theorem stable_bare (i : ι) : Stable i (Bare i) := by
  intro w w' hr hbare incidentID
  obtain ⟨others, htrace, hothers⟩ := hr.trace
  have hold := hbare incidentID
  unfold World.inserted at hold ⊢
  rw [htrace, List.any_append, hold, Bool.false_or, List.any_eq_false]
  intro e he
  simp [hothers e he]

/-- A call that inserts no incident leaves an execution as bare as it was. -/
theorem Bare.extend (hbare : Bare i w) {op : Op} {reply : op.Reply} {s' : Store}
    (hs : s'.incidents = w.store.incidents) : Bare i (w.extend i op reply s') := by
  intro incidentID
  have hold := hbare incidentID
  unfold World.inserted at hold ⊢
  simp only [World.extend, List.any_append, hold, hs, Bool.false_or, List.any_cons, List.any_nil,
    Bool.or_false]
  cases w.store.incidents.rows.any (·.id == incidentID) <;> simp

end Bare

section Calls

variable (g : Prop) (i : ι) {α : Type}

/-- The program keeps the store as recorded, as execution `i` from `w` on. -/
def Records (Q : α → World ι → Prop) (p : Eff α) (w : World ι) : Prop :=
  Keeps (fun i op w => g → readsIntroduced i op w = true) (Recorded g) i Q p w

variable {g i} {w : World ι}

theorem records_store {op : StoreOp} {P : World ι → Prop}
    {Q : Except Err op.Out → World ι → Prop} (hP : Stable i P)
    (hop : ∀ v, P v → v.store.Permitted op ∧ (g → v.store.Introduces op))
    (hQ : ∀ v reply s', P v → (g → readsIntroduced i (.store op) v = true) →
      StoreAnswer v.store op reply s' → Q reply (v.extend i (.store op) reply s'))
    (hw : P w) : Records g i Q (Eff.store op) w := by
  refine keeps_perform hP (fun v reply s' hinv hv hguard hanswer => ?_) hw
  obtain ⟨hpermitted, hintro⟩ := hop v hv
  exact ⟨hinv.apply hpermitted hintro hanswer, hQ v reply s' hv hguard hanswer⟩

/-- A program that leaves the store alone. -/
theorem records_outside {P : World ι → Prop} (hP : Stable i P)
    (hext : ∀ v op reply, P v → P (v.extend i op reply v.store)) {p : Eff α}
    (hp : p.Only Op.outside) (hw : P w) : Records g i (fun _ w' => P w') p w := by
  refine keeps_only hP (fun op v reply s' hop hinv hv _ hanswer => ?_) hp hw
  obtain rfl := hanswer.outside hop
  exact ⟨hinv, hext v op reply hv⟩

/-- A read under the condition `b` that nothing was inserted finds an introduced incident. -/
theorem records_findOne {b : Prop} (hw : b → Bare i w) (clusterID key : String) :
    Records g i (fun reply w' => (b → Bare i w') ∧ ∀ incident, reply = .ok (some incident) →
        b → g → Introduced incident.id w')
      (Eff.store (.incidentsFindOne clusterID key)) w := by
  refine records_store ((stable_bare i).imp b) (fun v _ => ⟨trivial, fun _ => trivial⟩)
    (fun v reply s' hv hguard hanswer => ?_) hw
  have hs : s' = v.store := hanswer.state.elim id id
  subst hs
  refine ⟨fun hb => (hv hb).extend rfl, ?_⟩
  rintro incident rfl hb hg hnil
  have hfound : v.store.incident clusterID key = some incident :=
    Except.ok.inj (congrArg Prod.fst hanswer.ok)
  have hread := hguard hg
  simp only [readsIntroduced, hfound, Option.all_some, hv hb incident.id, Bool.or_false,
    Bool.not_eq_true', List.isEmpty_eq_false_iff] at hread
  exact hread hnil

end Calls

section Clients

variable {g : Prop} {i : ι} {w : World ι}

/-- An incident that the upsert did not create was introduced before. -/
theorem records_upsertIncident (hw : Bare i w) {incident : Incident}
    (hfresh : incident.Unrecorded) :
    Records g i (fun reply w' => ∀ persisted created, reply = .ok (persisted, created) →
        created = false ∧ g → Introduced persisted.id w')
      (Mongo.upsertIncident incident) w := by
  refine Reconciler.safe_upsertIncident (Bare i) (fun created v => created = false → Bare i v)
    (fun persisted created v => created = false ∧ g → Introduced persisted.id v) ?_
    (fun v hv => ?_) (fun created v hv => ?_)
  · refine records_store (stable_bare i) (fun v _ => ⟨hfresh, fun _ => trivial⟩)
      (fun v reply s' hv _ hanswer => ?_) hw
    have hunchanged : (v.store.upsertIncident incident).1 = .ok false ∨
        (∃ err, (v.store.upsertIncident incident).1 = .error err) →
        (v.store.upsertIncident incident).2 = v.store := by
      unfold Store.upsertIncident
      split
      · exact fun _ => rfl
      · split
        · exact fun _ => rfl
        · rintro (h | ⟨err, h⟩) <;> cases h
    cases hreply : reply with
    | ok created =>
      subst hreply
      rintro rfl
      have happly : v.store.upsertIncident incident = (.ok false, s') := hanswer.ok
      have hs := hunchanged (Or.inl (congrArg Prod.fst happly))
      rw [happly] at hs
      exact hv.extend (congrArg _ hs)
    | error err =>
      intro hdup
      cases hanswer with
      | done => exact hv.extend (congrArg _ (hunchanged (Or.inr ⟨err, hreply⟩)))
      | fault _ _ => exact hv.extend rfl
      | lost lost hcause =>
        cases hreply
        rcases hcause with hcause | hcause <;> simp [Err.is, hcause] at hdup
  · refine records_store (stable_bare i) (fun v _ => ⟨trivial, fun _ => trivial⟩)
      (fun v reply s' hv _ hanswer _ _ _ => ?_) hv
    have hs : s' = v.store := hanswer.state.elim id id
    exact hv.extend (congrArg _ hs)
  · refine keeps_mono (records_findOne hv incident.clusterID incident.key) ?_
    rintro reply v' ⟨-, hfound⟩ persisted hreply ⟨hcreated, hg⟩
    exact hfound persisted hreply hcreated hg

theorem mem_upsertSnapshot (s : Store) (incidentID : String) (snapshot : Snapshot) :
    ∃ x ∈ (s.upsertSnapshot incidentID snapshot).2.snapshots.rows,
      x.incidentID = incidentID ∧ x.snapshot.contentHash = snapshot.contentHash := by
  unfold Store.upsertSnapshot
  split
  · rename_i row hrow
    obtain ⟨hmem, hkey⟩ := Table.byKey_eq_some.mp hrow
    exact ⟨row, hmem, congrArg Prod.fst hkey, congrArg Prod.snd hkey⟩
  · rename_i hnone
    have hfresh := Table.byKey_eq_none.mp hnone
    obtain ⟨u, hu, hrows⟩ := Table.insert_isSome (t := s.snapshots)
      (a := ⟨incidentID, snapshot.toDocument⟩) hfresh hfresh
    rw [hu]
    refine ⟨⟨incidentID, snapshot.toDocument⟩, ?_, rfl, rfl⟩
    rw [hrows]
    exact List.mem_append_right _ (List.mem_singleton_self _)

/-- An upserted snapshot is in the store, be it that another worker stored it. -/
theorem records_upsertSnapshot {b : Prop} {id : String} (hw : b → Introduced id w)
    (incidentID : String) (snapshot : Snapshot) :
    Records g i (fun reply w' => ∀ row, reply = .ok row → (b → Introduced id w') ∧
        Saved incidentID snapshot.contentHash w')
      (Mongo.upsertSnapshot incidentID snapshot) w := by
  have hstable := (stable_introduced i id).imp b
  have hkeep : ∀ (v : World ι) (op : StoreOp) (reply : Except Err op.Out) (s' : Store),
      StoreAnswer v.store op reply s' → (b → Introduced id v) →
        b → Introduced id (v.extend i (.store op) reply s') := by
    intro v op reply s' hanswer hv hb hnil
    have hprefix := hanswer.grows.evaluations.filter fun e => e.incidentID == id
    exact hv hb (List.prefix_nil.mp (hnil ▸ hprefix))
  refine Reconciler.safe_upsertSnapshot (fun v => b → Introduced id v)
    (fun v => (b → Introduced id v) ∧ Saved incidentID snapshot.contentHash v) ?_ fun v hv => ?_
  · refine records_store hstable (fun v _ => ⟨trivial, fun _ => trivial⟩)
      (fun v reply s' hv _ hanswer => ?_) hw
    have hintro := hkeep v _ reply s' hanswer hv
    cases reply with
    | error err => exact hintro
    | ok row =>
      have hs : s' = (v.store.upsertSnapshot incidentID snapshot).2 :=
        (congrArg Prod.snd hanswer.ok).symm
      subst hs
      exact ⟨hintro, mem_upsertSnapshot v.store incidentID snapshot⟩
  · refine records_store hstable (fun v _ => ⟨trivial, fun _ => trivial⟩)
      (fun v reply s' hv _ hanswer row hreply => ⟨hkeep v _ reply s' hanswer hv, ?_⟩) hv
    subst hreply
    have happly : ((.ok (v.store.snapshots.byKey (incidentID, snapshot.contentHash)) :
        Except Err (Option SnapshotRow)), v.store) = (.ok (some row), s') := hanswer.ok
    obtain ⟨hok, rfl⟩ := Prod.mk.inj happly
    obtain ⟨hmem, hkey⟩ := Table.byKey_eq_some.mp (Except.ok.inj hok)
    exact ⟨row, hmem, congrArg Prod.fst hkey, congrArg Prod.snd hkey⟩

end Clients

namespace Controller.Reconciler

variable {H : Hasher} {r : Reconciler} {g : Prop} {i : ι} {w : World ι}

theorem commitRequest_shaped (incident : Incident) (created : Bool) (snapshot : Snapshot)
    (result : Rules.Result) (decided : Decided) (now : Time) :
    (r.commitRequest H incident created snapshot result decided now).Shaped where
  incident := rfl
  hash := rfl
  resolution := by
    simp only [commitRequest, transition]
    split_ifs with hstatus <;> simp [hstatus]
  resolvedAt := by
    intro t ht
    simp only [commitRequest, transition] at ht ⊢
    split_ifs at ht
    exact (Option.some.inj ht).symm
  deliveries := by
    intro d hd
    obtain ⟨destination, -, rfl⟩ := mem_deliveries hd
    rfl

/-- From the row of an incident on: it was introduced before, or this very execution created it
and has seen no recovery. -/
theorem records_record {incident : Incident} {created : Bool} {snapshot : Snapshot}
    {result : Rules.Result} {now : Time}
    (hknown : created = false ∧ g → Introduced incident.id w)
    (hcreated : created = true → isRecovery result = false) :
    Records g i (fun _ _ => True) (r.record H incident created snapshot result now) w := by
  have hstable := ((stable_introduced i incident.id).imp (created = false ∧ g)).and
    (stable_saved i incident.id snapshot.contentHash)
  refine safe_record _ (fun _ v => (created = false ∧ g → Introduced incident.id v) ∧
    Saved incident.id snapshot.contentHash v) (fun _ _ => trivial) (fun _ _ _ => trivial)
    (records_upsertSnapshot hknown incident.id snapshot) (fun v hv => ?_) (fun decided v hv => ?_)
  · refine records_outside hstable (fun _ _ _ hv => hv)
      (Prog.only_mono (fun op hop => ?_) (decideResult_only H r snapshot result incident.id)) hv
    cases op <;> first | exact hop.elim | trivial
  · refine records_store hstable (fun v hv => ⟨⟨commitRequest_shaped incident created snapshot
      result decided now, hv.2⟩, fun hg hnone d hd => ?_⟩) (fun _ _ _ _ _ _ _ => trivial) hv
    obtain ⟨destination, -, rfl⟩ := mem_deliveries hd
    show eventTypeFor created result = .opened
    cases created with
    | false => exact absurd hnone (hv.1 ⟨rfl, hg⟩)
    | true =>
      have hstatus : statusFor result ≠ .resolved := by
        rw [Ne, statusFor_eq_resolved, hcreated rfl]
        decide
      rw [eventTypeFor, if_neg hstatus, if_pos rfl]

theorem records_persist {p : Pending} (hbare : Bare i w)
    (hknown : ∀ incident, p.previous = some incident → g → Introduced incident.id w)
    (hfresh : p.previous = none → isRecovery p.result = false) :
    Records g i (fun _ _ => True) (r.persist H p.snapshot p.previous p.result p.now) w := by
  refine safe_persist (fun incident created v =>
    (created = false ∧ g → Introduced incident.id v) ∧ (created = true → p.previous = none))
    (fun _ _ => trivial) (fun incident hi => ⟨fun h => hknown incident hi h.2, fun h => by cases h⟩)
    (fun hnone => keeps_mono (records_upsertIncident hbare ⟨rfl, rfl, rfl, rfl⟩)
      fun reply v hv incident created hreply => ⟨hv incident created hreply, fun _ => hnone⟩)
    (fun incident created v hv => records_record hv.1 fun h => hfresh (hv.2 h))

/-- Until it persists, a reconciliation inserts nothing and finds introduced incidents. -/
theorem looks_bare (key : ResourceKey) :
    Looks ((machine ι).restrict fun i op w => g → readsIntroduced i op w = true)
      (contract (Recorded g)) i H r key (fun _ => Bare i) fun _ previous v =>
        Bare i v ∧ ∀ incident, previous = some incident → g → Introduced incident.id v where
  get v hv := records_outside (stable_bare i) (fun _ _ _ hv => hv.extend rfl)
    (Eff.only_kubeGet trivial) hv
  wait _ v hv := records_outside (stable_bare i) (fun _ _ _ hv => hv.extend rfl)
    (Eff.only_now trivial) hv
  read _ clusterID incidentID v hv _ := by
    refine keeps_mono (records_findOne (b := True) (fun _ => hv) clusterID incidentID) ?_
    rintro (err | found) v' ⟨hbare, hfound⟩
    · exact fun _ => ⟨hbare trivial, fun _ h => by cases h⟩
    · exact ⟨hbare trivial, fun incident h => hfound incident (congrArg _ h) trivial⟩
  hold _ previous v hv := by
    have hstable : Stable i fun v : World ι =>
        ∀ incident, previous = some incident → g → Introduced incident.id v :=
      fun v v' hr hv incident hi =>
        ((stable_introduced i incident.id).imp g) v v' hr (hv incident hi)
    exact records_outside ((stable_bare i).and hstable) (fun _ _ _ hv => ⟨hv.1.extend rfl, hv.2⟩)
      (Eff.only_now trivial) hv

theorem records_reconcile (hw : Bare i w) (key : ResourceKey) :
    Records g i (fun _ _ => True) (r.reconcile H key) w :=
  safe_reconcile (looks_bare key)
    (fun _ _ _ hp hv => records_persist hv.1 hv.2 hp.fresh) hw

end Controller.Reconciler

section Runs

variable {H : Hasher} {g : Prop} {i : ι} {w : World ι}

theorem records_dispatchOne (d : Dispatcher) :
    Records g i (fun _ _ => True) d.dispatchOne w := by
  refine keeps_only (O := dispatches) (stable_const i True)
    (fun op v reply s' hop hinv _ _ hanswer => ⟨?_, trivial⟩) d.dispatchOne_only trivial
  by_cases hout : op.outside
  · obtain rfl := hanswer.outside hout
    exact hinv
  · cases op with
    | store op =>
      refine hinv.apply ?_ (fun _ => ?_) hanswer <;>
        cases op <;> first | exact hop.elim | trivial
    | _ => exact absurd trivial hout

theorem records_task (task : Task) (hw : w.Unused i) :
    Records g i (fun _ _ => True) (task.prog H) w := by
  cases task with
  | reconcile r key =>
    exact keeps_bind (r.records_reconcile (bare_of_unused hw) key) fun _ _ _ => keeps_ret trivial
  | dispatch d => exact keeps_bind (records_dispatchOne d) fun _ _ _ => keeps_ret trivial

theorem runs_recorded {tasks : ι → Task → Prop} {t : Time}
    {c : Framework.Config ι Op Op.Reply Unit (World ι)}
    (hrun : Runs H tasks (fun i op w => g → readsIntroduced i op w = true) (initial ι t) c) :
    Recorded g c.state :=
  runs_keep (fun _ => ⟨Store.integral_empty, fun _ => Store.opened_empty⟩) (fun _ _ _ h => h)
    (fun _ _ h _ => h) (fun _ task _ _ hunused _ => records_task task hunused) hrun

end Runs

end RuleRaven
