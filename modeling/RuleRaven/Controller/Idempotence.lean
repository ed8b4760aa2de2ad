import RuleRaven.Controller.Persistence

namespace RuleRaven.Controller

open Framework Kube Provider Rules

/-- The calls that cost or write: asking a provider, and the store operations by which
`UpsertIncident`, `UpsertSnapshot` and `Commit` begin. -/
def costly : Op → Bool
  | .evaluate _ _ => true
  | .store (.incidentsUpsert _) => true
  | .store (.snapshotsUpsert _ _) => true
  | .store (.commit _) => true
  | _ => false

namespace Reconciler

section Calls

variable {H : Hasher} {r : Reconciler} {c : Call} {s : Store} {p : Pending}

theorem not_costly_of_reads {op : Op} (h : reads op) : costly op = false := by
  cases op with
  | store op => cases op <;> first | exact h.elim | rfl
  | evaluate slot request => exact h.elim
  | _ => rfl

/-- `persist` begins with the upsert of the incident or of the snapshot. -/
theorem persist_costly (env : Env) (hj : Judged H p)
    (hid : ∀ i, p.previous = some i → isBlank i.id = false) :
    ∃ op ∈ Prog.calls (serve env) (r.persist H p.snapshot p.previous p.result p.now) s,
      costly op = true := by
  have hhash : isBlank p.snapshot.contentHash = false := by
    rw [hj.hash]
    exact contentHash_visible H p.snapshot
  unfold persist
  cases hprev : p.previous with
  | some i =>
    have hgate : ¬(!false && i.contentHash == p.snapshot.contentHash &&
        !isRecovery p.result) = true := by
      simp only [Bool.not_false, Bool.true_and, Bool.and_eq_true, beq_iff_eq, Bool.not_eq_true',
        not_and, Bool.not_eq_false]
      exact hj.gate i hprev
    refine ⟨.store (.snapshotsUpsert i.id p.snapshot), ?_, rfl⟩
    unfold record Mongo.upsertSnapshot
    dsimp only
    rw [if_neg hgate, if_neg (by simp [hid i hprev, hhash]), Prog.bind_eq_bind, Prog.calls_bind]
    exact List.mem_append_left _ List.mem_cons_self
  | none =>
    refine ⟨.store (.incidentsUpsert (r.placeholder H p.snapshot p.now)), ?_, rfl⟩
    unfold Mongo.upsertIncident
    rw [validateIncident_placeholder, Prog.bind_eq_bind, Prog.calls_bind]
    exact List.mem_append_left _ List.mem_cons_self

/-- The calls that a run of `Reconcile` makes. -/
def callsMade (H : Hasher) (r : Reconciler) (c : Call) (s : Store) : List Op :=
  Prog.calls (serve c.env) (r.reconcile H c.key) s

/-- A call of `Reconcile` is costly exactly when it goes on to `persist`. -/
theorem costly_iff_persisting
    (hid : ∀ q i, r.persisting H c s = some q → q.previous = some i → isBlank i.id = false) :
    (∃ op ∈ r.callsMade H c s, costly op = true) ↔ (r.persisting H c s).isSome = true := by
  have hobserve : ∀ op ∈ Prog.calls (serve c.env) (r.observe H c.key) s, costly op = false :=
    fun op hop => not_costly_of_reads (Prog.only_calls _ (observe_only H r c.key) s op hop)
  unfold callsMade reconcile
  rw [Prog.bind_eq_bind, Prog.calls_bind, run_observe]
  simp only [List.mem_append]
  constructor
  · rintro ⟨op, hop | hop, hcost⟩
    · rw [hobserve op hop] at hcost
      cases hcost
    · unfold persisting
      cases hv : r.verdict H c s with
      | error err => simp [hv] at hop
      | ok verdict =>
        cases verdict with
        | settled result => simp [hv] at hop
        | persist q => rfl
  · intro hsome
    obtain ⟨q, hq⟩ := Option.isSome_iff_exists.mp hsome
    have hv := persisting_eq_some.mp hq
    obtain ⟨hj, -, -⟩ := verdict_persist hv
    obtain ⟨op, hop, hcost⟩ := persist_costly (r := r) (s := s) c.env hj (hid q · hq)
    refine ⟨op, Or.inr ?_, hcost⟩
    rw [hv]
    dsimp only
    rw [Prog.bind_eq_bind, Prog.calls_bind]
    exact List.mem_append_left _ hop

end Calls

section Again

variable {H : Hasher} {r : Reconciler} {c : Call} {s : Store} {p : Pending}
  {result : Controller.Result}

/-- The incident is consulted only where no rule speaks. -/
theorem evaluate_previous {e : Engine} {now : Time} {snapshot : Snapshot}
    (h : ¬(e.ignoredReason snapshot = none ∧ e.ruleMatches now snapshot = []))
    (previous other : Option Incident) :
    e.evaluate now snapshot previous = e.evaluate now snapshot other := by
  unfold Engine.evaluate
  cases hi : e.ignoredReason snapshot with
  | some reason => rfl
  | none =>
    have hperm := sortSlice_perm (fun a b : Match => a.ruleID < b.ruleID)
      (e.ruleMatches now snapshot)
    cases hs : sortSlice (fun a b => a.ruleID < b.ruleID) (e.ruleMatches now snapshot) with
    | cons first rest => rfl
    | nil =>
      rw [hs] at hperm
      exact absurd ⟨hi, hperm.symm.eq_nil⟩ h

theorem judge_some_persists {snapshot : Snapshot} {i : Incident} {now engineNow : Time} :
    (∃ q, r.judge H snapshot (some i) now engineNow = .persist q) ↔
      (i.contentHash = (resultSnapshot H snapshot
          (r.rules.evaluate engineNow snapshot (some i))).contentHash →
        isRecovery (r.rules.evaluate engineNow snapshot (some i)) = true) ∧
      ((r.rules.evaluate engineNow snapshot (some i)).disposition = .noMatch →
        i.status ≠ .resolved) := by
  constructor
  · rintro ⟨q, hq⟩
    obtain ⟨hresult, -, hsnap, -, -, hgate, hno⟩ := judge_eq_persist hq
    rw [hsnap, hresult] at hgate
    rw [hresult] at hno
    refine ⟨hgate i rfl, fun hnm => ?_⟩
    obtain ⟨_, hi, hne⟩ := hno hnm
    cases hi
    exact hne
  · rintro ⟨hgate, hno⟩
    unfold judge
    dsimp only
    rw [if_neg, if_neg (by simp), if_neg]
    · exact ⟨_, rfl⟩
    · simp only [Option.any_some, Bool.and_eq_true, beq_iff_eq, not_and]
      exact fun hst hnm => hno hnm hst
    · simp only [Option.any_some, Bool.and_eq_true, beq_iff_eq, Bool.not_eq_true', not_and,
        Bool.not_eq_false]
      exact hgate

/-- Where no rule speaks, the outcome over the changed row hangs on the status it had: an
incident that was open is resolved by the first look, and one that was not is opened by it. -/
theorem judge_changed_quiet {snapshot : Snapshot} {incident : Incident} {now : Time}
    (hign : r.rules.ignoredReason snapshot = none) (hnil : r.rules.ruleMatches now snapshot = [])
    (hj : r.judge H snapshot (some incident) now now = .persist p) :
    (∃ q, r.judge H snapshot (some
        ((incidentChange (transition incident p.snapshot p.result p.now)).apply incident))
        now now = .persist q) ↔ p.result.disposition = .noMatch := by
  obtain ⟨hresult, -⟩ := judge_eq_persist hj
  rw [judge_some_persists]
  by_cases hopen : incident.status = .open
  · have hrec : isRecovery p.result = true := by
      rw [hresult]
      exact isRecovery_evaluate.mpr ⟨hign, hnil, incident, rfl, hopen⟩
    have hfirst : p.result.disposition ≠ .noMatch := by
      rw [hresult]
      exact fun hnm => (noMatch_evaluate.mp hnm).2.2 incident rfl hopen
    have hstatus : ((incidentChange (transition incident p.snapshot p.result p.now)).apply
        incident).status = .resolved := by
      simp [incidentChange, transition, statusFor, hrec]
    refine iff_of_false (fun h => h.2 ?_ hstatus) hfirst
    refine noMatch_evaluate.mpr ⟨hign, hnil, ?_⟩
    rintro _ ⟨⟩
    rw [hstatus]
    decide
  · have hfirst : p.result.disposition = .noMatch := by
      rw [hresult]
      exact noMatch_evaluate.mpr ⟨hign, hnil, by rintro _ ⟨⟩; exact hopen⟩
    have hrec : isRecovery p.result = false := by
      rw [hresult, Bool.eq_false_iff, Ne, isRecovery_evaluate]
      rintro ⟨-, -, _, ⟨⟩, ho⟩
      exact hopen ho
    have hstatus : ((incidentChange (transition incident p.snapshot p.result p.now)).apply
        incident).status = .open := by
      simp [incidentChange, transition, statusFor, hrec, hfirst]
    refine iff_of_true ⟨fun _ => ?_, fun _ => ?_⟩ hfirst
    · exact isRecovery_evaluate.mpr ⟨hign, hnil, _, rfl, hstatus⟩
    · rw [hstatus]
      decide

/-- Where a rule speaks, or the object is ignored, the result does not depend on the incident, so
that only the hash of the row matters. -/
theorem judge_again_spoken {snapshot : Snapshot} {previous : Option Incident}
    {incident : Incident} {now : Time} (known : Bool)
    (hspoken : ¬(r.rules.ignoredReason snapshot = none ∧ r.rules.ruleMatches now snapshot = []))
    (hhash : snapshot.contentHash = contentHash H snapshot)
    (hj : r.judge H snapshot previous now now = .persist p)
    (hprev : previous = some incident ∨
      (previous = none ∧ incident = (r.placeholder H p.snapshot p.now).toDocument)) :
    p.result.disposition ≠ .noMatch ∧
      ((∃ q, r.judge H snapshot (some (if known then incident else
          (incidentChange (transition incident p.snapshot p.result p.now)).apply incident))
          now now = .persist q) ↔ known = true) := by
  obtain ⟨hresult, -, hsnap, -, -, hgate, -⟩ := judge_eq_persist hj
  have hsame : ∀ other, r.rules.evaluate now snapshot other = p.result := by
    intro other
    rw [hresult]
    exact evaluate_previous hspoken _ _
  have hrec : isRecovery p.result = false := by
    rw [hresult, Bool.eq_false_iff, Ne, isRecovery_evaluate]
    exact fun h => hspoken ⟨h.1, h.2.1⟩
  have hfirst : p.result.disposition ≠ .noMatch := by
    rw [hresult]
    exact fun hnm => hspoken ⟨(noMatch_evaluate.mp hnm).1, (noMatch_evaluate.mp hnm).2.1⟩
  refine ⟨hfirst, ?_⟩
  rw [judge_some_persists, hsame, ← hsnap]
  cases known with
  | false =>
    refine iff_of_false (fun h => ?_) Bool.false_ne_true
    rw [h.1 rfl] at hrec
    cases hrec
  | true =>
    refine iff_of_true ⟨fun heq => ?_, fun hnm => absurd hnm hfirst⟩ rfl
    rcases hprev with rfl | ⟨-, rfl⟩
    · exact hgate incident rfl heq
    · -- the hash of a new row is empty
      have hempty : p.snapshot.contentHash = "" := heq.symm
      have hvisible := contentHash_visible H p.snapshot
      rw [← (judged_of_judge hhash hj).hash, hempty] at hvisible
      exact absurd hvisible (by decide)

/-- The second look at an unchanged object: over the row that the first look left behind, the
rules lead to `persist` again just where the first did not write, or opened an incident
without a match. -/
theorem judge_again {snapshot : Snapshot} {previous : Option Incident} {incident : Incident}
    {now : Time} (known : Bool) (hhash : snapshot.contentHash = contentHash H snapshot)
    (hj : r.judge H snapshot previous now now = .persist p)
    (hprev : previous = some incident ∨
      (previous = none ∧ incident = (r.placeholder H p.snapshot p.now).toDocument)) :
    (∃ q, r.judge H snapshot (some (if known then incident else
        (incidentChange (transition incident p.snapshot p.result p.now)).apply incident))
        now now = .persist q) ↔
      known = true ∨ p.result.disposition = .noMatch := by
  by_cases hquiet : r.rules.ignoredReason snapshot = none ∧ r.rules.ruleMatches now snapshot = []
  · obtain ⟨hign, hnil⟩ := hquiet
    rcases hprev with rfl | ⟨rfl, -⟩
    · cases known with
      | true => exact iff_of_true ⟨p, hj⟩ (Or.inl rfl)
      | false =>
        rw [if_neg Bool.false_ne_true, judge_changed_quiet hign hnil hj]
        exact (or_iff_right Bool.false_ne_true).symm
    · -- no rule speaks, so there was an incident
      obtain ⟨hresult, -, -, -, -, -, hno⟩ := judge_eq_persist hj
      have hnm : p.result.disposition = .noMatch := by
        rw [hresult]
        exact noMatch_evaluate.mpr ⟨hign, hnil, by simp⟩
      obtain ⟨i, hi, -⟩ := hno hnm
      cases hi
  · obtain ⟨hfirst, hagain⟩ := judge_again_spoken known hquiet hhash hj hprev
    rw [hagain, or_iff_left hfirst]

/-- The same call over the store that it left behind goes on to `persist` again just where
the first did, and its identity was known or no rule matched. -/
theorem persisting_again (hp : r.persisting H c s = some p)
    (hok : (r.runCall H c s).1 = .ok result) :
    (r.persisting H c (r.runCall H c s).2).isSome = true ↔
      r.known H p s = true ∨ p.result.disposition = .noMatch := by
  obtain ⟨incident, hprev, -, hrow⟩ := persisted_row hp hok
  have hv := persisting_eq_some.mp hp
  obtain ⟨-, hfound, -⟩ := verdict_persist hv
  rcases verdict_persist_cases hv with
    ⟨hgone, previous, hstored, hst, hpend⟩ | ⟨snapshot, hsnap, hj⟩
  · -- a deletion: its result is a recovery
    have hprevious : p.previous = some previous := by rw [hpend]
    have hresult : p.result = deletionResult := by rw [hpend]
    have hsource : p.snapshot.source = c.key.source r.clusterID := by rw [hpend]; rfl
    rcases hprev with hprev | ⟨hnone, -⟩
    · rw [hprevious, Option.some.injEq] at hprev
      subst hprev
      rw [hsource] at hrow
      unfold persisting
      rw [verdict_gone hgone, hrow, hresult]
      have hmatch : deletionResult.disposition ≠ .noMatch := by decide
      have hresolved : statusFor deletionResult = .resolved := by decide
      cases r.known H p s with
      | true => simp [hst]
      | false => simp [incidentChange, transition, hresolved, hmatch]
    · rw [hprevious] at hnone
      cases hnone
  · obtain ⟨-, hjudged, hresult, -⟩ := judge_eq_persist hj
    have hsource : p.snapshot.source = snapshot.source := by rw [hresult, resultSnapshot_source]
    rw [hjudged] at hprev
    rw [hsource] at hrow
    rw [persisting_isSome, verdict_observed hsnap, hrow]
    simp only [Except.ok.injEq]
    exact judge_again (r.known H p s) (observed_contentHash hsnap) hj hprev

theorem gone_not_observed (hgone : c.gone = true) (snapshot : Snapshot) :
    r.observed H c ≠ .ok snapshot := by
  unfold Call.gone at hgone
  unfold observed
  cases hres : c.env.resolve c.key with
  | error err => simp
  | ok object => simp [hres] at hgone

/-- What is stored has no say in the resource that a call persists. -/
theorem persisting_source {t : Store} {q : Pending} (hp : r.persisting H c s = some p)
    (hq : r.persisting H c t = some q) : q.snapshot.source = p.snapshot.source := by
  rcases verdict_persist_cases (persisting_eq_some.mp hp) with
    ⟨hgone, _, -, -, hpend⟩ | ⟨snapshot, hsnap, hj⟩ <;>
  rcases verdict_persist_cases (persisting_eq_some.mp hq) with
    ⟨hgone', _, -, -, hpend'⟩ | ⟨snapshot', hsnap', hj'⟩
  · rw [hpend, hpend']
  · exact absurd hsnap' (gone_not_observed hgone snapshot')
  · exact absurd hsnap (gone_not_observed hgone' snapshot)
  · rw [hsnap, Except.ok.injEq] at hsnap'
    subst hsnap'
    obtain ⟨-, -, hs, -⟩ := judge_eq_persist hj
    obtain ⟨-, -, hs', -⟩ := judge_eq_persist hj'
    rw [hs, hs', resultSnapshot_source, resultSnapshot_source]

/-- In the store that a call leaves behind, the incident that the same call would persist on
has an ID. -/
theorem persisting_again_id (hok : (r.runCall H c s).1 = .ok result) (q : Pending) (i : Incident)
    (hq : r.persisting H c (r.runCall H c s).2 = some q) (hi : q.previous = some i) :
    isBlank i.id = false := by
  cases hp : r.persisting H c s with
  | none =>
    rw [runCall_unpersisted hp, hp] at hq
    cases hq
  | some p =>
    obtain ⟨incident, -, hblank, hrow⟩ := persisted_row hp hok
    obtain ⟨-, hfound, -⟩ := verdict_persist (persisting_eq_some.mp hq)
    rw [persisting_source hp hq, hrow, hi, Option.some.injEq] at hfound
    rw [hfound]
    split_ifs
    · exact hblank
    · exact hblank

end Again

/-- The call persists an observation whose identity is known, or one without a rule match. -/
def repeats (H : Hasher) (r : Reconciler) (c : Call) (s : Store) : Bool :=
  (r.persisting H c s).any fun p => r.known H p s || p.result.disposition == .noMatch

/-- The same call with other providers. -/
def asking (c : Call)
    (evaluate : ProviderSlot → EvaluationRequest → Except Err EvaluationResponse) :
    Call :=
  ⟨c.key, { c.env with evaluate := evaluate }⟩

/-- The providers have no say in what is persisted, only in the decision. -/
theorem persisting_asking (H : Hasher) (r : Reconciler) (c : Call) (s : Store)
    (evaluate : ProviderSlot → EvaluationRequest → Except Err EvaluationResponse) :
    r.persisting H (asking c evaluate) s = r.persisting H c s := rfl

/-- In every run, a successful call can be repeated at once, with the same object and the same
clock but any providers, without a costly call, exactly when it did not persist an observation
of a known identity or one without a rule match. -/
theorem repeated_call_free_iff (H : Hasher) (r : Reconciler) (calls : List Call) (c : Call)
    (evaluate : ProviderSlot → EvaluationRequest → Except Err EvaluationResponse)
    (result : Controller.Result) (hok : (r.runCall H c (r.after H calls)).1 = .ok result) :
    (∀ op ∈ r.callsMade H (asking c evaluate) (r.after H (calls ++ [c])), costly op = false) ↔
      r.repeats H c (r.after H calls) = false := by
  rw [after_append]
  have hfree : (∀ op ∈ r.callsMade H (asking c evaluate) (r.runCall H c (r.after H calls)).2,
      costly op = false) ↔
        (r.persisting H c (r.runCall H c (r.after H calls)).2).isSome = false := by
    rw [← persisting_asking H r c _ evaluate, ← Bool.not_eq_true, ← costly_iff_persisting]
    · simp
    · rw [persisting_asking]
      exact persisting_again_id hok
  rw [hfree]
  unfold repeats
  cases hp : r.persisting H c (r.after H calls) with
  | none =>
    rw [runCall_unpersisted hp, hp]
    simp
  | some p =>
    rw [← Bool.not_eq_true, persisting_again hp hok]
    simp

open Scenario

/-- Once a job's failure is stored, the same call does nothing but look. -/
theorem failed_job_repeats_free :
    (notifying.runCall checksumHasher (jobCall 0 1) (notifying.after checksumHasher [])).1 =
        .ok {} ∧
      ∀ op ∈ notifying.callsMade checksumHasher
          (asking (jobCall 0 1) fun _ _ => .error ⟨"provider unavailable", none⟩)
          (notifying.after checksumHasher ([] ++ [jobCall 0 1])), costly op = false := by
  have hfacts : (notifying.runCall checksumHasher (jobCall 0 1)
      (notifying.after checksumHasher [])).1 = .ok {} ∧
      notifying.repeats checksumHasher (jobCall 0 1) (notifying.after checksumHasher []) =
        false := by decide +kernel
  exact ⟨hfacts.1, (repeated_call_free_iff checksumHasher notifying [] (jobCall 0 1) _ {}
    hfacts.1).mpr hfacts.2⟩

/-- The flapping job again: its third call succeeds, and each repetition of it writes and
commits once more. -/
theorem flapping_job_repeats_commit :
    (notifying.runCall checksumHasher (jobCall 2 1)
        (notifying.after checksumHasher [jobCall 0 1, jobCall 1 0])).1 = .ok {} ∧
      ¬∀ op ∈ notifying.callsMade checksumHasher (jobCall 2 1)
          (notifying.after checksumHasher [jobCall 0 1, jobCall 1 0, jobCall 2 1]),
        costly op = false := by
  decide +kernel

end Reconciler

end RuleRaven.Controller
