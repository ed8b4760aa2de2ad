import RuleRaven.Controller.Idempotence
import RuleRaven.Controller.Soundness

namespace RuleRaven.Controller.Reconciler

open Framework Kube Rules

/-- Every incident keeps its status, none appears, and neither evaluations nor deliveries are
added. -/
def silent (s t : Store) : Bool :=
  t.incidents.rows.map (fun i => (i.id, i.status)) ==
      s.incidents.rows.map (fun i => (i.id, i.status)) &&
    t.evaluations.rows == s.evaluations.rows && t.outbox.rows == s.outbox.rows

/-- The incident found is suppressed and carries another fingerprint, and the absence of a
match has not been evaluated on this one. -/
def reopens (H : Hasher) (r : Reconciler) (snapshot : Snapshot) (s : Store) : Bool :=
  (s.incident r.clusterID (incidentKey H snapshot.source)).any fun i =>
    i.status == .suppressed && i.contentHash != snapshot.contentHash &&
      (s.findEvaluation (r.identity i.id snapshot { disposition := .noMatch })).isNone

section NoMatch

variable {H : Hasher} {r : Reconciler} {c : Call} {s : Store} {snapshot : Snapshot}

theorem evaluate_eq_noMatch {e : Engine} {now : Time} {previous : Option Incident}
    (h : (e.evaluate now snapshot previous).disposition = .noMatch) :
    e.evaluate now snapshot previous = { disposition := .noMatch } := by
  rcases e.evaluate_cases now snapshot previous with
    ⟨reason, -, he⟩ | ⟨-, -, -, he⟩ | ⟨-, -, -, he⟩ | ⟨-, -, first, rest, -, he⟩
  · simp [he, Engine.suppressed] at h
  · simp [he, Engine.recoveredResult] at h
  · exact he
  · rcases Engine.matchedResult_disposition first rest with hd | hd <;> simp [he, hd] at h

/-- The judgement without a match. -/
theorem judge_noMatch {previous : Option Incident} {engineNow : Time} (now : Time)
    (hno : (r.rules.evaluate engineNow snapshot previous).disposition = .noMatch) :
    ∃ requeue, r.judge H snapshot previous now engineNow =
      if previous.any (fun i => i.contentHash == snapshot.contentHash) then .settled ⟨requeue⟩
      else if previous = none then .settled ⟨requeue⟩
      else if previous.any (fun i => i.status == .resolved) then .settled ⟨0⟩
      else .persist ⟨snapshot, previous, { disposition := .noMatch }, now, requeue⟩ := by
  have hsnap : resultSnapshot H snapshot { disposition := .noMatch } = snapshot := rfl
  have hrec : isRecovery { disposition := .noMatch } = false := rfl
  refine ⟨eventRequeue snapshot now { disposition := .noMatch } r.eventQuietPeriod, ?_⟩
  unfold judge
  simp only [evaluate_eq_noMatch hno, hsnap, hrec, Bool.not_false, Bool.and_true, true_and,
    beq_self_eq_true]

/-- Without a match, only a suppressed incident with another fingerprint is persisted on. -/
theorem noMatch_persisting (hsnap : r.observed H c = .ok snapshot)
    (hno : (r.rules.evaluate c.env.clock snapshot
      (s.incident r.clusterID (incidentKey H snapshot.source))).disposition = .noMatch) :
    (∃ i, s.incident r.clusterID (incidentKey H snapshot.source) = some i ∧
      i.status = .suppressed ∧ i.contentHash ≠ snapshot.contentHash ∧
      ∃ requeue, r.persisting H c s = some ⟨snapshot, some i, { disposition := .noMatch },
        c.env.clock, requeue⟩) ∨
    (r.persisting H c s = none ∧ r.reopens H snapshot s = false) := by
  obtain ⟨requeue, hjudge⟩ := judge_noMatch (H := H) c.env.clock hno
  have hnotOpen := (noMatch_evaluate.mp hno).2.2
  unfold persisting reopens
  rw [verdict_observed hsnap, hjudge]
  cases hi : s.incident r.clusterID (incidentKey H snapshot.source) with
  | none => exact Or.inr ⟨by simp, rfl⟩
  | some i =>
    by_cases hhash : i.contentHash = snapshot.contentHash
    · exact Or.inr ⟨by simp [hhash], by simp [hhash]⟩
    · by_cases hresolved : i.status = .resolved
      · exact Or.inr ⟨by simp [hhash, hresolved], by simp [hresolved]⟩
      · have hst : i.status = .suppressed := by
          have hopen := hnotOpen i hi
          cases hst : i.status <;> simp_all
        exact Or.inl ⟨i, rfl, hst, hhash, requeue, by simp [hhash, hst]⟩

/-- One call without a match on a sound store. -/
theorem noMatch_step (hH : H.CollisionFree) (hs : Sound H r s)
    (hsnap : r.observed H c = .ok snapshot)
    (hno : (r.rules.evaluate c.env.clock snapshot
      (s.incident r.clusterID (incidentKey H snapshot.source))).disposition = .noMatch) :
    silent s (r.runCall H c s).2 = true ↔ r.reopens H snapshot s = false := by
  rcases noMatch_persisting hsnap hno with ⟨i, hi, hst, hhash, requeue, hp⟩ | ⟨hp, hreopens⟩
  · have hok := runCall_succeeds hH hs hp
    obtain ⟨incident, created, base, hbase, -, -, -, ht⟩ :=
      persist_ok (persisting_eq_some.mp hp) hok
    have hreopens : r.reopens H snapshot s =
        (s.findEvaluation (r.identity i.id snapshot { disposition := .noMatch })).isNone := by
      simp [reopens, hi, hst, hhash]
    rcases hbase with ⟨hprev, hcreated, hstore⟩ | ⟨hnone, -⟩
    · cases hprev
      rw [hstore] at ht
      rcases Store.transact_eq_ok ht with ⟨⟨e, he⟩, hdone⟩ | ⟨hnone, -, -, -, heval, -⟩
      · -- a known identity: only the snapshot can be new
        have hknown : s.findEvaluation (r.identity i.id snapshot { disposition := .noMatch }) =
            some e := by
          rw [← he]
          simp only [Store.findEvaluation, Store.withSnapshot_evaluations]
          rfl
        rw [hreopens, hknown, hdone]
        simp [silent]
      · have hunknown : s.findEvaluation (r.identity i.id snapshot { disposition := .noMatch }) =
            none := by
          rw [← hnone]
          simp only [Store.findEvaluation, Store.withSnapshot_evaluations]
          rfl
        rw [hreopens, hunknown]
        refine iff_of_false ?_ (by simp)
        rw [Store.withSnapshot_evaluations] at heval
        simp [silent, heval]
    · cases hnone
  · rw [runCall_unpersisted hp]
    exact iff_of_true (by simp [silent]) hreopens

end NoMatch

/-- In every run: a call whose rule result is no match changes no status and adds no
evaluation and no delivery, unless it finds its incident suppressed under another fingerprint
and this outcome not yet evaluated. -/
theorem noMatch_silent_iff (H : Hasher) (hH : H.CollisionFree) (r : Reconciler)
    (calls : List Call) (c : Call) (snapshot : Snapshot) (hsnap : r.observed H c = .ok snapshot)
    (hno : (r.rules.evaluate c.env.clock snapshot ((r.after H calls).incident r.clusterID
      (incidentKey H snapshot.source))).disposition = .noMatch) :
    silent (r.after H calls) (r.after H (calls ++ [c])) = true ↔
      r.reopens H snapshot (r.after H calls) = false := by
  rw [after_append]
  exact noMatch_step hH (sound_after hH calls) hsnap hno

open Scenario

/-- A job that never failed, seen for the first time. -/
theorem healthy_job_silent :
    ∃ snapshot, notifying.observed keepingHasher (jobCall 0 0) = .ok snapshot ∧
      (notifying.rules.evaluate noon snapshot none).disposition = .noMatch ∧
      silent (notifying.after keepingHasher [])
        (notifying.after keepingHasher ([] ++ [jobCall 0 0])) = true := by
  have hfacts : (notifying.observed keepingHasher (jobCall 0 0)).toOption.any (fun snapshot =>
      decide ((notifying.rules.evaluate noon snapshot none).disposition = .noMatch)) = true := by
    decide +kernel
  obtain ⟨snapshot, hsnap, hno⟩ := (Option.any_eq_true _ _).mp hfacts
  have hno := of_decide_eq_true hno
  exact ⟨snapshot, ok_of_toOption hsnap, hno,
    (noMatch_silent_iff keepingHasher keepingHasher_collisionFree notifying [] (jobCall 0 0)
      snapshot (ok_of_toOption hsnap) hno).mpr rfl⟩

/-- A muted job that never failed is unmuted. The call finds no match, yet opens the incident
and notifies. -/
theorem unmuted_job_notifies :
    ∃ snapshot, notifying.observed checksumHasher (jobCall 1 0) = .ok snapshot ∧
      (notifying.rules.evaluate (noon + 1000000000) snapshot
        ((notifying.after checksumHasher [mutedJobCall 0 0]).incident "c"
          (incidentKey checksumHasher snapshot.source))).disposition = .noMatch ∧
      (notifying.after checksumHasher [mutedJobCall 0 0]).incidents.rows.map Incident.status =
        [.suppressed] ∧
      (notifying.after checksumHasher [mutedJobCall 0 0, jobCall 1 0]).incidents.rows.map
        Incident.status = [.open] ∧
      (notifying.after checksumHasher [mutedJobCall 0 0, jobCall 1 0]).outbox.rows.map
        (fun d => d.eventType) = [.updated] ∧
      silent (notifying.after checksumHasher [mutedJobCall 0 0])
        (notifying.after checksumHasher [mutedJobCall 0 0, jobCall 1 0]) = false := by
  have hfacts : (notifying.observed checksumHasher (jobCall 1 0)).toOption.any (fun snapshot =>
      decide ((notifying.rules.evaluate (noon + 1000000000) snapshot
        ((notifying.after checksumHasher [mutedJobCall 0 0]).incident "c"
          (incidentKey checksumHasher snapshot.source))).disposition = .noMatch ∧
      (notifying.after checksumHasher [mutedJobCall 0 0]).incidents.rows.map Incident.status =
        [.suppressed] ∧
      (notifying.after checksumHasher [mutedJobCall 0 0, jobCall 1 0]).incidents.rows.map
        Incident.status = [.open] ∧
      (notifying.after checksumHasher [mutedJobCall 0 0, jobCall 1 0]).outbox.rows.map
        (fun d => d.eventType) = [.updated] ∧
      silent (notifying.after checksumHasher [mutedJobCall 0 0])
        (notifying.after checksumHasher [mutedJobCall 0 0, jobCall 1 0]) = false)) = true := by
    decide +kernel
  obtain ⟨snapshot, hsnap, hall⟩ := (Option.any_eq_true _ _).mp hfacts
  exact ⟨snapshot, ok_of_toOption hsnap, of_decide_eq_true hall⟩

/-- The calls that cannot add a delivery. -/
def keepsOutbox : Op → Prop
  | .store (.commit _) => False
  | .store (.outboxClaim _) => False
  | .store (.outboxComplete _) => False
  | .store (.outboxReschedule _) => False
  | _ => True

section Outbox

variable {H : Hasher} {r : Reconciler} {c : Call} {s : Store} {p : Pending}

theorem serve_keepsOutbox (env : Env) (op : Op) (s : Store) (h : keepsOutbox op) :
    (serve env op s).2.outbox = s.outbox := by
  cases op with
  | store op =>
    cases op with
    | incidentsFindOne clusterID key => rfl
    | incidentsUpsert incident =>
      show (s.upsertIncident incident).2.outbox = s.outbox
      unfold Store.upsertIncident
      split
      · rfl
      · split <;> rfl
    | incidentsUpdate incident => rfl
    | snapshotsUpsert incidentID snapshot => exact Store.withSnapshot_outbox
    | snapshotsFindOne incidentID hash => rfl
    | commit request => exact h.elim
    | outboxClaim request => exact h.elim
    | outboxComplete request => exact h.elim
    | outboxReschedule request => exact h.elim
  | now => rfl
  | kubeGet kind ns name => rfl
  | evaluate slot request => rfl
  | deliver destination envelope => rfl
  | ctxErr => rfl

/-- A commit that fails has written nothing. -/
theorem commit_error {env : Env} {request : CommitRequest} {err : Err}
    (h : (Prog.run (serve env) (Mongo.commit request) s).1 = .error err) :
    (Prog.run (serve env) (Mongo.commit request) s).2 = s := by
  cases hv : Mongo.validateCommit request with
  | error e =>
    unfold Mongo.commit
    rw [hv]
    rfl
  | ok _ =>
    rw [run_commit env s request hv] at h ⊢
    cases ht : s.transact request with
    | error e => rfl
    | ok done =>
      rw [ht] at h
      cases h

/-- A `record` that fails has added no delivery. -/
theorem record_error {env : Env} {incident : Incident} {created : Bool} {err : Err}
    (h : (Prog.run (serve env) (r.record H incident created p.snapshot p.result p.now) s).1 =
      .error err) :
    (Prog.run (serve env) (r.record H incident created p.snapshot p.result p.now) s).2.outbox =
      s.outbox := by
  have hframe := Prog.only_run_frame (serve env) Store.outbox (serve_keepsOutbox env)
    (Mongo.upsertSnapshot_only incident.id p.snapshot trivial trivial) s
  unfold record at h ⊢
  split_ifs at h ⊢
  · rfl
  · simp only [Prog.bind_eq_bind, Prog.run_bind] at h ⊢
    cases hrow : (Prog.run (serve env) (Mongo.upsertSnapshot incident.id p.snapshot) s).1 with
    | error e => exact hframe
    | ok row =>
      rw [hrow] at h
      simp only [Prog.run_bind, run_decideResult] at h ⊢
      cases hcommit : (Prog.run (serve env) (Mongo.commit (r.commitRequest H incident created
          p.snapshot p.result (r.decided H env p.snapshot p.result incident.id) p.now))
          (Prog.run (serve env) (Mongo.upsertSnapshot incident.id p.snapshot) s).2).1 with
      | error e =>
        dsimp only [Prog.run]
        rw [commit_error hcommit]
        exact hframe
      | ok _ =>
        rw [hcommit] at h
        cases h

theorem runPersist_error {env : Env} {err : Err} (h : (r.runPersist H env p s).1 = .error err) :
    (r.runPersist H env p s).2.outbox = s.outbox := by
  unfold runPersist persist at h ⊢
  cases hprev : p.previous with
  | some i =>
    rw [hprev] at h
    exact record_error h
  | none =>
    rw [hprev] at h
    have hframe := Prog.only_run_frame (serve env) Store.outbox (serve_keepsOutbox env)
      (Mongo.upsertIncident_only (r.placeholder H p.snapshot p.now) trivial trivial trivial) s
    simp only [Prog.bind_eq_bind, Prog.run_bind] at h ⊢
    cases hup : (Prog.run (serve env)
        (Mongo.upsertIncident (r.placeholder H p.snapshot p.now)) s).1 with
    | error e => exact hframe
    | ok reply =>
      rw [hup] at h
      exact (record_error h).trans hframe

/-- What a call adds to the outbox: the deliveries of its commit, or nothing. -/
theorem runCall_outbox (hp : r.persisting H c s = some p) :
    (r.runCall H c s).2.outbox.rows = s.outbox.rows ∨
      ∃ incident created, (r.runCall H c s).2.outbox.rows = s.outbox.rows ++
        (r.recordRequest H c.env incident created p).deliveries.map (·.toDocument p.now) := by
  have hv := persisting_eq_some.mp hp
  cases hrun : (r.runCall H c s).1 with
  | error err =>
    left
    rw [runCall_persist hv] at hrun ⊢
    cases hout : (r.runPersist H c.env p s).1 with
    | error e => exact congrArg Table.rows (runPersist_error hout)
    | ok _ =>
      rw [hout] at hrun
      cases hrun
  | ok result =>
    obtain ⟨incident, created, base, hbase, -, -, -, ht⟩ := persist_ok hv hrun
    have houtbox : base.outbox = s.outbox := by
      rcases hbase with ⟨-, -, rfl⟩ | ⟨-, -, -, incidents, -, rfl⟩ <;> rfl
    rcases Store.transact_eq_ok ht with ⟨-, hdone⟩ | ⟨-, -, -, -, -, ho⟩
    · left
      rw [hdone, Store.withSnapshot_outbox, houtbox]
    · right
      refine ⟨incident, created, ?_⟩
      rw [ho, Store.withSnapshot_outbox, houtbox]
      rfl

end Outbox

section Ignored

variable {H : Hasher} {r : Reconciler} {c : Call} {s : Store} {p : Pending}

theorem deliveries_suppressed (env : Env) (incident : Incident) (created : Bool) (reason : String)
    (h : p.result = Engine.suppressed reason) :
    (r.recordRequest H env incident created p).deliveries = [] := by
  have hstatus : statusFor (Engine.suppressed reason) = .suppressed := rfl
  have hdecided : (r.decided H env p.snapshot (Engine.suppressed reason) incident.id).decision =
      ⟨.info, .suppress, reason, ["ignored"], ["ignored"]⟩ := rfl
  simp [recordRequest, commitRequest, deliveries, h, hstatus, hdecided]

theorem deliveries_nowhere (env : Env) (incident : Incident) (created : Bool)
    (h : r.destinations = []) : (r.recordRequest H env incident created p).deliveries = [] := by
  simp [recordRequest, commitRequest, deliveries, h]

/-- The resource is gone, there is somewhere to notify, and its incident is not resolved. -/
def announces (H : Hasher) (r : Reconciler) (c : Call) (s : Store) : Bool :=
  c.gone && !r.destinations.isEmpty &&
    (s.incident r.clusterID (incidentKey H (c.key.source r.clusterID))).any
      fun i => i.status != .resolved

/-- One call on an ignored resource. -/
theorem ignored_step
    (hign : ∀ snapshot, r.observed H c = .ok snapshot → r.rules.ignoredReason snapshot ≠ none)
    (hdel : r.announces H c s = false) : (r.runCall H c s).2.outbox.rows = s.outbox.rows := by
  cases hp : r.persisting H c s with
  | none => rw [runCall_unpersisted hp]
  | some p =>
    have hnone : ∀ incident created,
        (r.recordRequest H c.env incident created p).deliveries = [] := by
      intro incident created
      rcases verdict_persist_cases (persisting_eq_some.mp hp) with
        ⟨hgone, previous, hprev, hst, -⟩ | ⟨snapshot, hsnap, hj⟩
      · refine deliveries_nowhere c.env incident created ?_
        simpa [announces, hgone, hprev, hst] using hdel
      · obtain ⟨hresult, -⟩ := judge_eq_persist hj
        obtain ⟨reason, hreason⟩ := Option.ne_none_iff_exists'.mp (hign snapshot hsnap)
        refine deliveries_suppressed c.env incident created reason ?_
        rw [hresult, Engine.evaluate, hreason]
    rcases runCall_outbox hp with hsame | ⟨incident, created, hadd⟩
    · exact hsame
    · rw [hadd, hnone]
      simp

end Ignored

/-- In every run in which every snapshot observed is ignored, and no call finds a resource
gone whose incident is not resolved while there is somewhere to notify, no delivery is ever
created. -/
theorem ignored_silent (H : Hasher) (r : Reconciler) (calls : List Call)
    (hign : ∀ c ∈ calls, ∀ snapshot, r.observed H c = .ok snapshot →
      r.rules.ignoredReason snapshot ≠ none)
    (hdel : ∀ before c rest, calls = before ++ c :: rest →
      r.announces H c (r.after H before) = false) :
    ∀ before, before <+: calls → (r.after H before).outbox.rows = [] := by
  intro before
  induction before using List.reverseRecOn with
  | nil =>
    intro _
    rfl
  | append_singleton before c ih =>
    rintro ⟨rest, hcalls⟩
    rw [List.append_assoc, List.singleton_append] at hcalls
    have hc : c ∈ calls := by
      rw [← hcalls]
      exact List.mem_append_right _ List.mem_cons_self
    rw [after_append, ignored_step (hign c hc) (hdel before c rest hcalls.symm)]
    exact ih ⟨c :: rest, hcalls⟩

theorem ignored_of_all {H : Hasher} {r : Reconciler} {calls : List Call}
    (h : (calls.all fun c => (r.observed H c).toOption.all fun snapshot =>
      (r.rules.ignoredReason snapshot).isSome) = true) :
    ∀ c ∈ calls, ∀ snapshot, r.observed H c = .ok snapshot →
      r.rules.ignoredReason snapshot ≠ none := by
  intro c hc snapshot hsnap
  have hall := List.all_eq_true.mp h c hc
  rw [hsnap] at hall
  exact Option.isSome_iff_ne_none.mp hall

/-- A job is gone before it was ever seen, then seen muted. -/
theorem muted_job_silent :
    (notifying.after checksumHasher [goneJobCall 0, mutedJobCall 1 1]).outbox.rows = [] := by
  have hfacts : ([goneJobCall 0, mutedJobCall 1 1].all fun c =>
      (notifying.observed checksumHasher c).toOption.all fun snapshot =>
        (notifying.rules.ignoredReason snapshot).isSome) = true ∧
      notifying.announces checksumHasher (goneJobCall 0) (notifying.after checksumHasher []) =
        false ∧
      notifying.announces checksumHasher (mutedJobCall 1 1)
        (notifying.after checksumHasher [goneJobCall 0]) = false := by decide +kernel
  obtain ⟨hign, hfirst, hsecond⟩ := hfacts
  refine ignored_silent checksumHasher notifying [goneJobCall 0, mutedJobCall 1 1]
    (ignored_of_all hign) ?_ _ (List.prefix_refl _)
  intro before c rest hcalls
  rcases before with _ | ⟨first, _ | ⟨second, more⟩⟩
  · cases hcalls
    exact hfirst
  · cases hcalls
    exact hsecond
  · simp at hcalls

/-- A muted job is deleted, and its deletion is announced. -/
theorem muted_job_announced :
    (∀ c ∈ [mutedJobCall 0 0, goneJobCall 1], ∀ snapshot,
      notifying.observed checksumHasher c = .ok snapshot →
        notifying.rules.ignoredReason snapshot ≠ none) ∧
    (notifying.after checksumHasher [mutedJobCall 0 0, goneJobCall 1]).outbox.rows.map
      (fun d => d.eventType) = [.resolved] := by
  have hfacts : ([mutedJobCall 0 0, goneJobCall 1].all fun c =>
      (notifying.observed checksumHasher c).toOption.all fun snapshot =>
        (notifying.rules.ignoredReason snapshot).isSome) = true ∧
      (notifying.after checksumHasher [mutedJobCall 0 0, goneJobCall 1]).outbox.rows.map
        (fun d => d.eventType) = [.resolved] := by decide +kernel
  exact ⟨ignored_of_all hfacts.1, hfacts.2⟩

end RuleRaven.Controller.Reconciler
