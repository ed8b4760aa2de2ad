import RuleRaven.Controller.Judgement

namespace RuleRaven.Controller

open Framework Kube Provider Rules

/-- The world around one call of `Reconcile` when nothing fails but the providers: what the
clock shows, what the API server holds, what the providers answer. -/
structure Env where
  clock : Time
  get : (kind «namespace» name : String) → Except KubeError (Served kind «namespace» name)
  evaluate : ProviderSlot → EvaluationRequest → Except Err EvaluationResponse

/-- The replies of that world. The store does every operation it is asked for. -/
def serve (env : Env) : (op : Op) → Store → op.Reply × Store
  | .store op, s => s.apply op
  | .now, s => (env.clock, s)
  | .kubeGet kind ns name, s => (env.get kind ns name, s)
  | .evaluate slot request, s => (env.evaluate slot request, s)
  | .deliver _ _, s => (none, s)
  | .ctxErr, s => (none, s)

section Serve

variable (env : Env) (s : Store)

@[simp] theorem run_store (op : StoreOp) : Prog.run (serve env) (Eff.store op) s = s.apply op := rfl

@[simp] theorem run_now : Prog.run (serve env) Eff.now s = (env.clock, s) := rfl

@[simp] theorem run_kubeGet (kind ns name : String) :
    Prog.run (serve env) (Eff.kubeGet kind ns name) s = (env.get kind ns name, s) := rfl

@[simp] theorem run_evaluate (slot : ProviderSlot) (request : EvaluationRequest) :
    Prog.run (serve env) (Eff.evaluate slot request) s = (env.evaluate slot request, s) := rfl

end Serve

/-- One call of `Reconcile` on a key. -/
structure Call where
  key : ResourceKey
  env : Env

/-- What `Resolve` returns in this world. -/
def Env.resolve (env : Env) (key : ResourceKey) : Except Err Object :=
  match key.validate with
  | .error err => .error err
  | .ok () =>
    if !resolvableKinds.contains key.kind then
      .error ⟨"unsupported Kubernetes resource kind \"" ++ key.kind ++ "\"", none⟩
    else match env.get key.kind key.namespace key.name with
      | .error .notFound => .error errKubeNotFound
      | .error (.other text) => .error ⟨"resolve " ++ key.kind ++ " " ++ key.namespace ++
          "/" ++ key.name ++ ": " ++ text, none⟩
      | .ok object =>
        if object.val.header.metadata.uid ≠ key.uid then .error errKubeNotFound
        else .ok object.val

theorem Env.resolve_ok {env : Env} {key : ResourceKey} {object : Object}
    (h : env.resolve key = .ok object) : Resolved key object := by
  unfold Env.resolve at h
  split at h
  · cases h
  · split_ifs at h with hkind
    split at h
    · cases h
    · cases h
    · rename_i served _
      split_ifs at h with huid
      cases h
      exact resolved_served (by simpa using hkind) served (not_not.mp huid)

/-- The API server no longer has the resource. -/
def Call.gone (c : Call) : Bool :=
  match c.env.resolve c.key with
  | .error err => err.is .kubeNotFound
  | .ok _ => false

namespace Reconciler

variable (H : Hasher) (r : Reconciler)

def runCall (c : Call) (s : Store) : Except Err Controller.Result × Store :=
  Prog.run (serve c.env) (r.reconcile H c.key) s

/-- The store that a sequence of calls leaves behind, from an empty one. -/
def after (calls : List Call) : Store := calls.foldl (fun s c => (r.runCall H c s).2) {}

/-- The observation of an existing resource: its normalized snapshot. -/
def observed (c : Call) : Except Err Snapshot :=
  match c.env.resolve c.key with
  | .error err => .error err
  | .ok object => r.normalizer.normalize H object c.env.clock

/-- The verdict on a call, as a function of the store it finds. -/
def verdict (c : Call) (s : Store) : Except Err Verdict :=
  match c.env.resolve c.key with
  | .error err =>
    if err.is .kubeNotFound then
      match s.incident r.clusterID (incidentKey H (c.key.source r.clusterID)) with
      | none => .ok (.settled {})
      | some previous =>
        if previous.status = .resolved then .ok (.settled {})
        else .ok (.persist ⟨r.deletionSnapshot H c.key c.env.clock, some previous,
          deletionResult, c.env.clock, 0⟩)
    else .error err
  | .ok object =>
    match r.normalizer.normalize H object c.env.clock with
    | .error err => .error (err.wrap "normalize Kubernetes resource")
    | .ok snapshot =>
      .ok (r.judge H snapshot (s.incident r.clusterID (incidentKey H snapshot.source))
        c.env.clock c.env.clock)

section Reads

variable (env : Env) (s : Store)

theorem run_getIncident (clusterID key : String) (hc : isBlank clusterID = false)
    (hk : isBlank key = false) :
    Prog.run (serve env) (Mongo.getIncident clusterID key) s =
      ((s.incident clusterID key).elim (.error errNotFound) .ok, s) := by
  unfold Mongo.getIncident
  rw [if_neg (by simp [hc, hk])]
  simp only [Prog.bind_eq_bind, Prog.run_bind, run_store, Store.apply]
  cases s.incident clusterID key <;> rfl

theorem run_resolve (key : ResourceKey) :
    Prog.run (serve env) (resolve key) s = (env.resolve key, s) := by
  unfold resolve Env.resolve
  cases key.validate with
  | error err => rfl
  | ok _ =>
    dsimp only
    split_ifs
    · rfl
    · simp only [Prog.bind_eq_bind, Prog.run_bind, run_kubeGet]
      cases env.get key.kind key.namespace key.name with
      | error err => cases err <;> rfl
      | ok object =>
        dsimp only
        split_ifs <;> rfl

theorem run_observeDeletion (key : ResourceKey) :
    Prog.run (serve env) (r.observeDeletion H key) s =
      (match s.incident r.clusterID (incidentKey H (key.source r.clusterID)) with
        | none => .ok (.settled {})
        | some previous =>
          if previous.status = .resolved then .ok (.settled {})
          else .ok (.persist ⟨r.deletionSnapshot H key env.clock, some previous,
            deletionResult, env.clock, 0⟩), s) := by
  unfold observeDeletion
  simp only [Prog.bind_eq_bind, Prog.run_bind,
    run_getIncident env s _ _ r.clusterID_visible (incidentKey_visible H _)]
  cases s.incident r.clusterID (incidentKey H (key.source r.clusterID)) with
  | none => rfl
  | some previous =>
    dsimp only [Option.elim]
    split_ifs <;> rfl

/-- Before `persist`, a call only looks. -/
theorem run_observe (c : Call) :
    Prog.run (serve c.env) (r.observe H c.key) s = (r.verdict H c s, s) := by
  unfold observe verdict
  cases hv : c.key.validate with
  | error err =>
    have hres : c.env.resolve c.key = .error err := by
      unfold Env.resolve
      rw [hv]
    have hcause : err.is .kubeNotFound = false := by
      unfold ResourceKey.validate at hv
      split_ifs at hv
      cases hv
      rfl
    rw [hres]
    simp [hcause]
  | ok _ =>
    simp only [Prog.bind_eq_bind, Prog.run_bind, run_resolve]
    cases c.env.resolve c.key with
    | error err =>
      dsimp only
      split_ifs
      · exact run_observeDeletion H r c.env s c.key
      · rfl
    | ok object =>
      simp only [Prog.run_bind, run_now]
      cases r.normalizer.normalize H object c.env.clock with
      | error err => rfl
      | ok snapshot =>
        simp only [Prog.run_bind, run_getIncident c.env s _ _ r.clusterID_visible
          (incidentKey_visible H snapshot.source)]
        cases s.incident r.clusterID (incidentKey H snapshot.source) <;> rfl

end Reads

/-- What `decide` comes to with these providers. -/
def decided (env : Env) (snapshot : Snapshot) (result : Rules.Result) (incidentID : String) :
    Decided :=
  (Prog.run (serve env) (r.decideResult H snapshot result incidentID) {}).1

section Writes

variable (env : Env) (s : Store)

theorem run_decideResult (snapshot : Snapshot) (result : Rules.Result) (incidentID : String) :
    Prog.run (serve env) (r.decideResult H snapshot result incidentID) s =
      (r.decided H env snapshot result incidentID, s) := by
  have honly := decideResult_only H r snapshot result incidentID
  have hstate : ∀ op s, asksProvider op → (serve env op s).2 = s := by
    intro op s h
    cases op <;> first | rfl | exact h.elim
  have hreply : ∀ op s t, asksProvider op → (serve env op s).1 = (serve env op t).1 := by
    intro op s t h
    cases op <;> first | rfl | exact h.elim
  exact Prod.ext (Prog.only_run_value _ hstate hreply honly s {})
    (Prog.only_run_frame _ id hstate honly s)

theorem run_upsertSnapshot (incidentID : String) (snapshot : Snapshot)
    (hid : isBlank incidentID = false) (hhash : isBlank snapshot.contentHash = false) :
    ∃ row, Prog.run (serve env) (Mongo.upsertSnapshot incidentID snapshot) s =
      (.ok row, s.withSnapshot incidentID snapshot) := by
  obtain ⟨row, created, h⟩ := s.upsertSnapshot_ok incidentID snapshot
  refine ⟨(row, created), ?_⟩
  unfold Mongo.upsertSnapshot
  rw [if_neg (by simp [hid, hhash])]
  simp only [Prog.bind_eq_bind, Prog.run_bind, run_store, Store.apply, h]
  rfl

theorem run_commit (request : CommitRequest) (hvalid : Mongo.validateCommit request = .ok ()) :
    Prog.run (serve env) (Mongo.commit request) s =
      match s.transact request with
      | .error err => (.error (err.wrap "commit incident evaluation and outbox"), s)
      | .ok done => (.ok (), done) := by
  unfold Mongo.commit
  rw [hvalid]
  simp only [Prog.bind_eq_bind, Prog.run_bind, run_store, Store.apply, Store.commit]
  cases s.transact request <;> rfl

variable {H r} in
theorem validateIncident_placeholder (snapshot : Snapshot) (now : Time) :
    Mongo.validateIncident (r.placeholder H snapshot now) = .ok () := by
  have hvisible := H.visible ("incident\x00" ++ incidentKey H snapshot.source)
  simp [Mongo.validateIncident, placeholder, stableID, hvisible, r.clusterID_visible,
    incidentKey_visible H snapshot.source]

theorem upsertSnapshot_ok_inv {incidentID : String} {snapshot : Snapshot}
    {reply : SnapshotRow × Bool}
    (hok : (Prog.run (serve env) (Mongo.upsertSnapshot incidentID snapshot) s).1 = .ok reply) :
    isBlank incidentID = false ∧
      (Prog.run (serve env) (Mongo.upsertSnapshot incidentID snapshot) s).2 =
        s.withSnapshot incidentID snapshot := by
  by_cases hblank : isBlank incidentID = true ∨ isBlank snapshot.contentHash = true
  · unfold Mongo.upsertSnapshot at hok
    rw [if_pos hblank] at hok
    cases hok
  · simp only [not_or, Bool.not_eq_true] at hblank
    obtain ⟨row, hrow⟩ := run_upsertSnapshot env s incidentID snapshot hblank.1 hblank.2
    exact ⟨hblank.1, by rw [hrow]⟩

theorem commit_ok_inv {request : CommitRequest}
    (hok : (Prog.run (serve env) (Mongo.commit request) s).1 = .ok ()) :
    s.transact request = .ok (Prog.run (serve env) (Mongo.commit request) s).2 := by
  cases hv : Mongo.validateCommit request with
  | error err =>
    unfold Mongo.commit at hok
    rw [hv] at hok
    cases hok
  | ok _ =>
    rw [run_commit env s request hv] at hok ⊢
    cases ht : s.transact request with
    | error err =>
      rw [ht] at hok
      cases hok
    | ok done => rfl

/-- The commit that `record` ends in. -/
def recordRequest (incident : Incident) (created : Bool) (p : Pending) : CommitRequest :=
  r.commitRequest H incident created p.snapshot p.result
    (r.decided H env p.snapshot p.result incident.id) p.now

/-- Where `record` does not stop at an unchanged fingerprint and succeeds, its transaction
did, on the store with the snapshot. -/
theorem record_ok {incident : Incident} {created : Bool} {p : Pending}
    (hgate : created = false → incident.contentHash = p.snapshot.contentHash →
      isRecovery p.result = true)
    (hok : (Prog.run (serve env) (r.record H incident created p.snapshot p.result p.now) s).1 =
      .ok ()) :
    isBlank incident.id = false ∧
      (s.withSnapshot incident.id p.snapshot).transact (r.recordRequest H env incident created p) =
        .ok (Prog.run (serve env) (r.record H incident created p.snapshot p.result p.now) s).2 := by
  have hnot : ¬(!created && incident.contentHash == p.snapshot.contentHash &&
      !isRecovery p.result) = true := by
    simp only [Bool.and_eq_true, Bool.not_eq_true', beq_iff_eq, not_and, and_imp]
    intro hc he
    simp [hgate hc he]
  unfold record at hok ⊢
  rw [if_neg hnot] at hok ⊢
  simp only [Prog.bind_eq_bind, Prog.run_bind] at hok ⊢
  cases hrow : (Prog.run (serve env) (Mongo.upsertSnapshot incident.id p.snapshot) s).1 with
  | error err =>
    rw [hrow] at hok
    cases hok
  | ok row =>
    obtain ⟨hid, hstore⟩ := upsertSnapshot_ok_inv env s hrow
    rw [hrow, hstore] at hok
    rw [hstore]
    simp only [Prog.run_bind, run_decideResult] at hok ⊢
    refine ⟨hid, ?_⟩
    rw [← recordRequest] at hok ⊢
    cases hcommit : (Prog.run (serve env) (Mongo.commit (r.recordRequest H env incident created p))
        (s.withSnapshot incident.id p.snapshot)).1 with
    | error err =>
      rw [hcommit] at hok
      cases hok
    | ok _ => exact commit_ok_inv env _ hcommit

theorem run_insertIncident (incident : Incident)
    (hnone : s.incident incident.clusterID incident.key = none) :
    Prog.run (serve env) (Mongo.insertIncident incident) s =
      match s.incidents.insert incident.toDocument with
      | none => (.ok false, s)
      | some incidents => (.ok true, { s with incidents := incidents }) := by
  unfold Mongo.insertIncident
  simp only [Prog.bind_eq_bind, Prog.run_bind, run_store, Store.apply, Store.upsertIncident, hnone]
  cases s.incidents.insert incident.toDocument <;> rfl

/-- An upsert that succeeds on a key without a row has inserted it. -/
theorem upsertIncident_ok_inv {incident persisted : Incident} {created : Bool}
    (hnone : s.incident incident.clusterID incident.key = none)
    (hok : (Prog.run (serve env) (Mongo.upsertIncident incident) s).1 =
      .ok (persisted, created)) :
    ∃ incidents, s.incidents.insert incident.toDocument = some incidents ∧
      persisted = incident.toDocument ∧ created = true ∧
      (Prog.run (serve env) (Mongo.upsertIncident incident) s).2 =
        { s with incidents := incidents } := by
  unfold Mongo.upsertIncident at hok ⊢
  cases hv : Mongo.validateIncident incident with
  | error err =>
    rw [hv] at hok
    cases hok
  | ok _ =>
    rw [hv] at hok
    simp only [Prog.bind_eq_bind, Prog.run_bind, run_insertIncident env s incident hnone] at hok ⊢
    cases hinsert : s.incidents.insert incident.toDocument with
    | none =>
      rw [hinsert] at hok
      simp [Store.apply, hnone] at hok
    | some incidents =>
      have hrows := (Table.insert_eq_some.mp hinsert).2.2
      have hfind : incidents.byKey (incident.clusterID, incident.key) =
          some incident.toDocument :=
        Table.byKey_eq_some.mpr ⟨by simp [hrows], rfl⟩
      rw [hinsert] at hok
      simp only [Prog.run_bind, run_store, Store.apply, Store.incident, hfind] at hok ⊢
      cases hok
      exact ⟨incidents, rfl, rfl, rfl, rfl⟩

end Writes

section Calls

variable {H r} {c : Call} {s : Store} {p : Pending}

theorem runCall_error {err : Err} (h : r.verdict H c s = .error err) :
    r.runCall H c s = (.error err, s) := by
  unfold runCall reconcile
  simp only [Prog.bind_eq_bind, Prog.run_bind, run_observe, h]
  rfl

theorem runCall_settled {result : Controller.Result} (h : r.verdict H c s = .ok (.settled result)) :
    r.runCall H c s = (.ok result, s) := by
  unfold runCall reconcile
  simp only [Prog.bind_eq_bind, Prog.run_bind, run_observe, h]
  rfl

/-- The run of `persist` in a call that goes on to it. -/
def runPersist (H : Hasher) (r : Reconciler) (env : Env) (p : Pending) (s : Store) :
    Except Err Unit × Store :=
  Prog.run (serve env) (r.persist H p.snapshot p.previous p.result p.now) s

theorem runCall_persist (h : r.verdict H c s = .ok (.persist p)) :
    r.runCall H c s = ((r.runPersist H c.env p s).1.map fun _ => ⟨p.requeue⟩,
      (r.runPersist H c.env p s).2) := by
  unfold runCall reconcile
  simp only [Prog.bind_eq_bind, Prog.run_bind, run_observe, h]
  rw [← runPersist]
  rcases r.runPersist H c.env p s with ⟨out, done⟩
  cases out <;> rfl

theorem verdict_gone (h : c.gone = true) :
    r.verdict H c s =
      match s.incident r.clusterID (incidentKey H (c.key.source r.clusterID)) with
      | none => .ok (.settled {})
      | some previous =>
        if previous.status = .resolved then .ok (.settled {})
        else .ok (.persist ⟨r.deletionSnapshot H c.key c.env.clock, some previous,
          deletionResult, c.env.clock, 0⟩) := by
  unfold Call.gone at h
  unfold verdict
  cases hres : c.env.resolve c.key with
  | ok object => simp [hres] at h
  | error err =>
    rw [hres] at h
    dsimp only at h ⊢
    rw [if_pos h]

theorem verdict_observed {snapshot : Snapshot} (h : r.observed H c = .ok snapshot) :
    r.verdict H c s = .ok (r.judge H snapshot
      (s.incident r.clusterID (incidentKey H snapshot.source)) c.env.clock c.env.clock) := by
  unfold observed at h
  unfold verdict
  cases hres : c.env.resolve c.key with
  | error err => simp [hres] at h
  | ok object =>
    rw [hres] at h
    dsimp only at h ⊢
    rw [h]

/-- A call finds its resource gone, or observes it, or fails whatever is stored. -/
theorem call_cases (H : Hasher) (r : Reconciler) (c : Call) :
    c.gone = true ∨ (∃ snapshot, r.observed H c = .ok snapshot) ∨
      ∃ err, ∀ s, r.verdict H c s = .error err := by
  unfold Call.gone observed verdict
  cases c.env.resolve c.key with
  | error err =>
    cases hgone : err.is .kubeNotFound with
    | true => exact Or.inl hgone
    | false => exact Or.inr (Or.inr ⟨err, fun s => by simp [hgone]⟩)
  | ok object =>
    refine Or.inr ?_
    cases hn : r.normalizer.normalize H object c.env.clock with
    | error err =>
      exact Or.inr ⟨err.wrap "normalize Kubernetes resource", fun s => by simp [hn]⟩
    | ok snapshot => exact Or.inl ⟨snapshot, hn⟩

theorem observed_contentHash {snapshot : Snapshot} (h : r.observed H c = .ok snapshot) :
    snapshot.contentHash = contentHash H snapshot := by
  unfold observed at h
  split at h
  · cases h
  · obtain ⟨described, -, hs, -⟩ := Normalizer.normalize_eq_ok h
    rw [hs]
    rfl

theorem observed_typed {snapshot : Snapshot} (h : r.observed H c = .ok snapshot) :
    snapshot.source.namespace = c.key.namespace ∧ snapshot.source.apiVersion ≠ "" ∧
      (snapshot.event.isSome = true → snapshot.conditions = []) := by
  unfold observed at h
  split at h
  · cases h
  · rename_i object hobject
    have hfound := Env.resolve_ok hobject
    obtain ⟨described, hd, hs, -⟩ := Normalizer.normalize_eq_ok h
    obtain ⟨hdns, hapi, hevent⟩ := Normalizer.describe_typed hfound.typed hd
    rw [hs]
    exact ⟨hdns.trans hfound.namespace, hapi, hevent⟩

/-- A call goes on to `persist` for a resource that is gone, or with what the rules made of
its snapshot. -/
theorem verdict_persist_cases (h : r.verdict H c s = .ok (.persist p)) :
    (c.gone = true ∧ ∃ previous,
      s.incident r.clusterID (incidentKey H (c.key.source r.clusterID)) = some previous ∧
      previous.status ≠ .resolved ∧
      p = ⟨r.deletionSnapshot H c.key c.env.clock, some previous, deletionResult,
        c.env.clock, 0⟩) ∨
    ∃ snapshot, r.observed H c = .ok snapshot ∧
      r.judge H snapshot (s.incident r.clusterID (incidentKey H snapshot.source))
        c.env.clock c.env.clock = .persist p := by
  rcases call_cases H r c with hgone | ⟨snapshot, hsnap⟩ | ⟨err, herr⟩
  · left
    rw [verdict_gone hgone] at h
    split at h
    · cases h
    · rename_i previous hprev
      split_ifs at h with hst
      · cases h
      · cases h
        exact ⟨hgone, previous, hprev, hst, rfl⟩
  · right
    rw [verdict_observed hsnap] at h
    exact ⟨snapshot, hsnap, Except.ok.inj h⟩
  · rw [herr s] at h
    cases h

/-- A call that goes on to `persist` has judged the incident it found under the key of its
snapshot. -/
theorem verdict_persist (h : r.verdict H c s = .ok (.persist p)) :
    Judged H p ∧ p.previous = s.incident r.clusterID (incidentKey H p.snapshot.source) ∧
      p.now = c.env.clock := by
  rcases verdict_persist_cases h with ⟨-, previous, hprev, hst, rfl⟩ | ⟨snapshot, hsnap, hj⟩
  · exact ⟨judged_deletion c.key c.env.clock previous hst, hprev.symm, rfl⟩
  · obtain ⟨-, hprev, hps, hnow, -⟩ := judge_eq_persist hj
    refine ⟨judged_of_judge (observed_contentHash hsnap) hj, ?_, hnow⟩
    rw [hprev, hps, resultSnapshot_source]

/-- The ID of the incident that a pending observation concerns, stored or about to be. -/
def targetID (H : Hasher) (r : Reconciler) (p : Pending) : String :=
  match p.previous with
  | some i => i.id
  | none => (r.placeholder H p.snapshot p.now).id

/-- A successful call through `persist` ends in one transaction, on the store with the
snapshot and, for a new incident, with its placeholder. -/
theorem persist_ok {result : Controller.Result} (hp : r.verdict H c s = .ok (.persist p))
    (hok : (r.runCall H c s).1 = .ok result) :
    ∃ incident created base,
      ((p.previous = some incident ∧ created = false ∧ base = s) ∨
        (p.previous = none ∧ created = true ∧
          incident = (r.placeholder H p.snapshot p.now).toDocument ∧
          ∃ incidents, s.incidents.insert incident = some incidents ∧
            base = { s with incidents := incidents })) ∧
      base.incident r.clusterID (incidentKey H p.snapshot.source) = some incident ∧
      isBlank incident.id = false ∧ incident.id = r.targetID H p ∧
      (base.withSnapshot incident.id p.snapshot).transact
        (r.recordRequest H c.env incident created p) = .ok (r.runCall H c s).2 := by
  obtain ⟨hj, hprev, -⟩ := verdict_persist hp
  rw [runCall_persist hp] at hok ⊢
  have hrun : (r.runPersist H c.env p s).1 = .ok () := by
    cases hr : (r.runPersist H c.env p s).1 with
    | error err =>
      rw [hr] at hok
      cases hok
    | ok _ => rfl
  unfold runPersist persist at hrun ⊢
  cases hpr : p.previous with
  | some i =>
    rw [hpr] at hrun
    obtain ⟨hid, ht⟩ := record_ok H r c.env s (fun _ he => hj.gate i hpr he) hrun
    exact ⟨i, false, s, Or.inl ⟨rfl, rfl, rfl⟩, by rw [← hprev, hpr], hid,
      by simp [targetID, hpr], ht⟩
  | none =>
    rw [hpr] at hrun hprev
    simp only [Prog.bind_eq_bind, Prog.run_bind] at hrun ⊢
    cases hup : (Prog.run (serve c.env) (Mongo.upsertIncident
        (r.placeholder H p.snapshot p.now)) s).1 with
    | error err =>
      rw [hup] at hrun
      cases hrun
    | ok reply =>
      obtain ⟨incident, created⟩ := reply
      obtain ⟨incidents, hinsert, rfl, rfl, hbase⟩ :=
        upsertIncident_ok_inv c.env s hprev.symm hup
      rw [hup, hbase] at hrun
      rw [hbase]
      obtain ⟨hid, ht⟩ := record_ok H r c.env _ (by simp) hrun
      refine ⟨_, true, _, Or.inr ⟨trivial, rfl, rfl, incidents, hinsert, rfl⟩, ?_, hid,
        by simp [targetID, hpr, Incident.toDocument], ht⟩
      have hrows := (Table.insert_eq_some.mp hinsert).2.2
      exact Table.byKey_eq_some.mpr ⟨by simp [hrows], rfl⟩

end Calls

end Reconciler

end RuleRaven.Controller
