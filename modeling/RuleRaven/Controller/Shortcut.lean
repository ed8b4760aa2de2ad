import RuleRaven.Controller.Requeue
import RuleRaven.Controller.Soundness

namespace RuleRaven.Controller.Reconciler

open Framework Kube Rules

/-- A snapshot on which no rule will ever hold, whatever its times: that of a deletion, that
of a quiet event, or one where no rule waits for its condition to age. -/
def Dormant (e : Engine) (snapshot : Snapshot) : Prop :=
  snapshot.source.apiVersion = "" ∨
  (e.ignoredReason snapshot = none ∧ snapshot.event.isSome = true ∧ snapshot.conditions ≠ []) ∨
  (e.ignoredReason snapshot = none ∧ snapshot.event = none ∧ e.ageGated snapshot = false ∧
    Engine.failedJob snapshot = [])

/-- An observation in this namespace accounts for the fingerprint and status of an incident. -/
def Accounts (H : Hasher) (e : Engine) (ns : String) (i : Incident) (snapshot : Snapshot) : Prop :=
  i.contentHash = contentHash H snapshot ∧ snapshot.source.namespace = ns ∧
    match i.status with
    | .suppressed => e.ignoredReason snapshot ≠ none
    | .open => e.ignoredReason snapshot = none
    | .resolved => Dormant e snapshot

/-- Every incident is accounted for, unless nothing was recorded on it yet. -/
def Accounted (H : Hasher) (e : Engine) (ns : String) (s : Store) : Prop :=
  ∀ i ∈ s.incidents.rows, i.contentHash = "" ∨ ∃ snapshot, Accounts H e ns i snapshot

section Shortcut

variable {H : Hasher} {r : Reconciler} {e : Engine} {c : Call} {s : Store} {p : Pending}
  {ns : String}

/-- No rule holds on a snapshot from a typed client with the fingerprint of a dormant one. -/
theorem Dormant.quiet {snapshot dormant : Snapshot} (hd : Dormant e dormant)
    (h : canonical snapshot = canonical dormant)
    (hns : snapshot.source.namespace = dormant.source.namespace)
    (hapi : snapshot.source.apiVersion ≠ "")
    (hevent : snapshot.event.isSome = true → snapshot.conditions = []) (now : Time) :
    e.ignoredReason snapshot = none ∧ e.ruleMatches now snapshot = [] := by
  rw [e.ignoredReason_congr h hns]
  rcases hd with hgone | ⟨-, hsome, hne⟩ | ⟨hign, hnone, hgated, hjob⟩
  · have hversion : snapshot.source.apiVersion = dormant.source.apiVersion :=
      congrArg (·.source.apiVersion) h
    exact absurd (hversion.trans hgone) hapi
  · -- an event has no conditions, the quiet one has
    have hnil := hevent ((canonical_event_isSome h).trans hsome)
    have hany := canonical_conditions_any h fun _ => true
    obtain ⟨condition, hmem⟩ := List.exists_mem_of_ne_nil _ hne
    rw [hnil, List.any_nil] at hany
    have htrue : dormant.conditions.any (fun _ => true) = true :=
      List.any_eq_true.mpr ⟨condition, hmem, rfl⟩
    rw [htrue] at hany
    cases hany
  · refine ⟨hign, ?_⟩
    by_contra hmatches
    rcases Engine.ruleMatches_ne_nil hmatches with hripe | hfailed | hwarning
    · have hage := e.ageGated_of_ripens hripe
      rw [e.ageGated_congr h, hgated] at hage
      cases hage
    · rw [Engine.failedJob_congr h] at hfailed
      exact hfailed hjob
    · obtain ⟨m, hm⟩ := List.exists_mem_of_ne_nil _ hwarning
      obtain ⟨event, hev, -⟩ := Engine.mem_warningEvent.mp hm
      have hsome := canonical_event_isSome h
      rw [hev, hnone] at hsome
      cases hsome

/-- Where an incident is accounted for and carries the fingerprint of the snapshot observed,
a match would leave its status as it is. -/
theorem Accounts.status {snapshot recorded : Snapshot} {i : Incident} (hH : H.CollisionFree)
    (ha : Accounts H e ns i recorded) (hns : snapshot.source.namespace = ns)
    (hapi : snapshot.source.apiVersion ≠ "")
    (hevent : snapshot.event.isSome = true → snapshot.conditions = [])
    (hhash : i.contentHash = contentHash H snapshot) (now : Time)
    (hmatch : reportsMatch (e.evaluate now snapshot (some i)) = true) :
    i.status = statusFor (e.evaluate now snapshot (some i)) := by
  obtain ⟨hrecorded, hrns, hstatus⟩ := ha
  have hcanonical : canonical snapshot = canonical recorded :=
    (contentHash_eq_iff hH _ _).mp (hhash.symm.trans hrecorded)
  have hign := e.ignoredReason_congr hcanonical (hns.trans hrns.symm)
  rw [statusFor_evaluate hmatch, hign]
  cases hst : i.status with
  | suppressed =>
    rw [hst] at hstatus
    rw [if_neg hstatus]
  | «open» =>
    rw [hst] at hstatus
    rw [if_pos hstatus]
  | resolved =>
    rw [hst] at hstatus
    obtain ⟨hnone, hnil⟩ := hstatus.quiet hcanonical (hns.trans hrns.symm) hapi hevent now
    rcases reportsMatch_evaluate.mp hmatch with h | h
    · exact absurd hnone h
    · exact absurd hnil h

/-- The call resolves an open incident while a rule waits for a condition to age. -/
def recoversWaiting (H : Hasher) (r : Reconciler) (c : Call) (s : Store) : Bool :=
  (r.observed H c).toOption.any fun snapshot =>
    snapshot.event.isNone && r.rules.ageGated snapshot &&
      isRecovery (r.rules.evaluate c.env.clock snapshot
        (s.incident r.clusterID (incidentKey H snapshot.source)))

/-- What a recovery is persisted with: the snapshot of a quiet event, or one where no rule
waits. -/
theorem dormant_recovery {e : Engine} {snapshot : Snapshot} {now : Time} {result : Rules.Result}
    (hrec : isRecovery result = true) (hign : e.ignoredReason snapshot = none)
    (hnil : e.ruleMatches now snapshot = [])
    (hgated : snapshot.event = none → e.ageGated snapshot = false) :
    Dormant e (resultSnapshot H snapshot result) := by
  refine Or.inr ?_
  cases hevent : snapshot.event with
  | some event =>
    have hquiet : resultSnapshot H snapshot result = quietSnapshot H snapshot := by
      rw [resultSnapshot, hrec, hevent]
      rfl
    rw [hquiet]
    exact Or.inl ⟨hign, by simp [quietSnapshot, hevent], by simp [quietSnapshot]⟩
  | none =>
    have hplain : resultSnapshot H snapshot result = snapshot := by simp [resultSnapshot, hevent]
    have hjob : Engine.failedJob snapshot = [] := by
      simp only [Engine.ruleMatches, List.append_eq_nil_iff] at hnil
      exact hnil.1.1.2
    rw [hplain]
    exact Or.inr ⟨hign, hevent, hgated hevent, hjob⟩

/-- What a call persists accounts for the status and fingerprint that it writes. -/
theorem accounts_persisting {incident : Incident} (hp : r.persisting H c s = some p)
    (hwait : r.recoversWaiting H c s = false) :
    Accounts H r.rules c.key.namespace
      ((incidentChange (transition incident p.snapshot p.result p.now)).apply incident)
      p.snapshot := by
  have hv := persisting_eq_some.mp hp
  obtain ⟨hj, -, -⟩ := verdict_persist hv
  rcases verdict_persist_cases hv with ⟨-, previous, -, -, rfl⟩ | ⟨snapshot, hsnap, hjudge⟩
  · exact ⟨rfl, rfl, Or.inl rfl⟩
  · obtain ⟨hresult, -, hps, -⟩ := judge_eq_persist hjudge
    obtain ⟨hns, -, -⟩ := observed_typed hsnap
    refine ⟨hj.hash, by rw [hps, resultSnapshot_source, hns], ?_⟩
    show match statusFor p.result with
      | .suppressed => r.rules.ignoredReason p.snapshot ≠ none
      | .open => r.rules.ignoredReason p.snapshot = none
      | .resolved => Dormant r.rules p.snapshot
    have hign : r.rules.ignoredReason p.snapshot = r.rules.ignoredReason snapshot := by
      rw [hps]
      unfold resultSnapshot
      split_ifs <;> rfl
    rcases r.rules.evaluate_cases c.env.clock snapshot
      (s.incident r.clusterID (incidentKey H snapshot.source)) with
      ⟨reason, hr, he⟩ | ⟨hr, hm, hopen, he⟩ | ⟨hr, hm, hp, he⟩ | ⟨hr, hm, first, rest, hperm, he⟩
    · rw [hresult, he, hign, hr]
      exact Option.some_ne_none reason
    · -- a recovery: of a quiet event, or with no rule waiting
      have hrec : isRecovery p.result = true := by
        rw [hresult, he]
        exact isRecovery_recovered
      have hst : statusFor p.result = .resolved := by rw [statusFor, if_pos hrec]
      rw [hst, hps]
      refine dormant_recovery hrec hr hm fun hevent => ?_
      rw [hresult] at hrec
      simpa [recoversWaiting, hsnap, Except.toOption, hevent, hrec] using hwait
    · rw [hresult, he]
      exact hign.trans hr
    · have hrec := isRecovery_matched hperm
      have hst : statusFor p.result = .open := by
        rw [hresult, he, statusFor, hrec]
        rcases Engine.matchedResult_disposition first rest with hd | hd <;> simp [hd]
      rw [hst]
      exact hign.trans hr

theorem accounted_step (hH : H.CollisionFree) (hs : Sound H r s)
    (ha : Accounted H r.rules c.key.namespace s) (hwait : r.recoversWaiting H c s = false) :
    Accounted H r.rules c.key.namespace (r.runCall H c s).2 := by
  cases hp : r.persisting H c s with
  | none =>
    rw [runCall_unpersisted hp]
    exact ha
  | some p =>
    obtain ⟨incident, created, base, hbase, -, -, -, ht⟩ :=
      persist_ok (persisting_eq_some.mp hp) (runCall_succeeds hH hs hp)
    have hrows : Accounted H r.rules c.key.namespace base := by
      rcases hbase with ⟨-, -, rfl⟩ | ⟨-, -, rfl, incidents, hinsert, rfl⟩
      · exact ha
      · intro i hi
        rw [(Table.insert_eq_some.mp hinsert).2.2, List.mem_append, List.mem_singleton] at hi
        rcases hi with hi | rfl
        · exact ha i hi
        · exact Or.inl rfl
    rcases Store.transact_eq_ok ht with ⟨-, hdone⟩ | ⟨-, -, hinc, -, -, -⟩
    · rw [hdone, Accounted, Store.withSnapshot_incidents]
      exact hrows
    · intro i hi
      rw [hinc, Store.withSnapshot_incidents, Table.mem_modify] at hi
      rcases hi with ⟨hi, -⟩ | ⟨row, hrow, hid, rfl⟩
      · exact hrows i hi
      · exact Or.inr ⟨p.snapshot, accounts_persisting hp hwait⟩

end Shortcut

/-- In every run on one key in which no call resolves an open incident while a rule waits for
a condition to age: wherever the stored incident carries the fingerprint of the snapshot a
call observes, a match leaves its status as it is. -/
theorem shortcut_sound (H : Hasher) (hH : H.CollisionFree) (r : Reconciler) (key : ResourceKey)
    (calls : List Call) (hkey : ∀ c ∈ calls, c.key = key)
    (hwait : ∀ before c rest, calls = before ++ c :: rest →
      r.recoversWaiting H c (r.after H before) = false) :
    ∀ before c rest, calls = before ++ c :: rest → ∀ snapshot i,
      r.observed H c = .ok snapshot →
      (r.after H before).incident r.clusterID (incidentKey H snapshot.source) = some i →
      i.contentHash = snapshot.contentHash →
      reportsMatch (r.rules.evaluate c.env.clock snapshot (some i)) = true →
      i.status = statusFor (r.rules.evaluate c.env.clock snapshot (some i)) := by
  have hinv : ∀ before, before <+: calls →
      Accounted H r.rules key.namespace (r.after H before) := by
    intro before
    induction before using List.reverseRecOn with
    | nil =>
      intro _ i hi
      cases hi
    | append_singleton before c ih =>
      rintro ⟨rest, hcalls⟩
      rw [List.append_assoc, List.singleton_append] at hcalls
      have hc : c.key = key := hkey c (hcalls ▸ List.mem_append_right _ List.mem_cons_self)
      rw [after_append, ← hc]
      refine accounted_step hH (sound_after hH before) ?_ (hwait before c rest hcalls.symm)
      rw [hc]
      exact ih ⟨c :: rest, hcalls⟩
  intro before c rest hcalls snapshot i hsnap hi hhash hmatch
  have hc : c.key = key := hkey c (hcalls ▸ List.mem_append_right _ List.mem_cons_self)
  have hbefore : before <+: calls := ⟨c :: rest, hcalls.symm⟩
  obtain ⟨hns, hapi, hevent⟩ := observed_typed hsnap
  have hown := observed_contentHash hsnap
  rcases hinv before hbefore i (Table.byKey_eq_some.mp hi).1 with hempty | ⟨recorded, ha⟩
  · have hvisible := contentHash_visible H snapshot
    rw [← hown, ← hhash, hempty] at hvisible
    exact absurd hvisible (by decide)
  · rw [hc] at hns
    exact ha.status hH hns hapi hevent (hhash.trans hown) c.env.clock hmatch

open Scenario

/-- A failed job is seen twice. -/
theorem failed_job_shortcut :
    ∃ snapshot i, recording.observed keepingHasher (jobCall 5 1) = .ok snapshot ∧
      (recording.after keepingHasher [jobCall 0 1]).incident "c"
        (incidentKey keepingHasher snapshot.source) = some i ∧
      i.contentHash = snapshot.contentHash ∧
      i.status = statusFor (recording.rules.evaluate (noon + 5 * 1000000000) snapshot
        (some i)) := by
  have hfacts : (recording.observed keepingHasher (jobCall 5 1)).toOption.any (fun snapshot =>
      ((recording.after keepingHasher [jobCall 0 1]).incident "c"
          (incidentKey keepingHasher snapshot.source)).any fun i =>
        decide (i.contentHash = snapshot.contentHash ∧
          reportsMatch (recording.rules.evaluate (noon + 5 * 1000000000) snapshot
            (some i)) = true ∧
          recording.recoversWaiting keepingHasher (jobCall 0 1)
            (recording.after keepingHasher []) = false ∧
          recording.recoversWaiting keepingHasher (jobCall 5 1)
            (recording.after keepingHasher [jobCall 0 1]) = false)) = true := by decide +kernel
  obtain ⟨snapshot, hsnap, hinner⟩ := (Option.any_eq_true _ _).mp hfacts
  obtain ⟨i, hi, hall⟩ := (Option.any_eq_true _ _).mp hinner
  obtain ⟨hhash, hmatch, hfirst, hsecond⟩ := of_decide_eq_true hall
  refine ⟨snapshot, i, ok_of_toOption hsnap, hi, hhash, ?_⟩
  refine shortcut_sound keepingHasher keepingHasher_collisionFree recording
    ⟨"Job", "ns", "n", "u"⟩ [jobCall 0 1, jobCall 5 1] ?_ ?_ [jobCall 0 1] (jobCall 5 1) [] rfl
    snapshot i (ok_of_toOption hsnap) hi hhash hmatch
  · intro c hc
    rcases List.mem_pair.mp hc with rfl | rfl <;> rfl
  · intro before c rest hcalls
    rcases before with _ | ⟨first, _ | ⟨second, more⟩⟩
    · cases hcalls
      exact hfirst
    · cases hcalls
      exact hsecond
    · simp at hcalls

/-- A pod waits for a node, gets one and starts to crash, and goes on crashing. When the crash
loop is old enough to be reported, its fingerprint is that of the recovery, and the incident
stays resolved. -/
theorem crashing_pod_stays_resolved :
    ∃ snapshot i, recording.observed checksumHasher (crashingPod 200) = .ok snapshot ∧
      (recording.after checksumHasher [waitingPod, crashingPod 100]).incident "c"
        (incidentKey checksumHasher snapshot.source) = some i ∧
      i.contentHash = snapshot.contentHash ∧
      reportsMatch (recording.rules.evaluate (noon + 200 * 1000000000) snapshot (some i)) = true ∧
      i.status = .resolved ∧
      statusFor (recording.rules.evaluate (noon + 200 * 1000000000) snapshot (some i)) = .open ∧
      recording.runCall checksumHasher (crashingPod 200)
          (recording.after checksumHasher [waitingPod, crashingPod 100]) =
        (.ok {}, recording.after checksumHasher [waitingPod, crashingPod 100]) := by
  have hfacts : (recording.observed checksumHasher (crashingPod 200)).toOption.any (fun snapshot =>
      ((recording.after checksumHasher [waitingPod, crashingPod 100]).incident "c"
          (incidentKey checksumHasher snapshot.source)).any fun i =>
        decide (i.contentHash = snapshot.contentHash ∧
          reportsMatch (recording.rules.evaluate (noon + 200 * 1000000000) snapshot
            (some i)) = true ∧
          i.status = .resolved ∧
          statusFor (recording.rules.evaluate (noon + 200 * 1000000000) snapshot (some i)) =
            .open ∧
          recording.runCall checksumHasher (crashingPod 200)
              (recording.after checksumHasher [waitingPod, crashingPod 100]) =
            (.ok {}, recording.after checksumHasher [waitingPod, crashingPod 100]))) = true := by
    decide +kernel
  obtain ⟨snapshot, hsnap, hinner⟩ := (Option.any_eq_true _ _).mp hfacts
  obtain ⟨i, hi, hall⟩ := (Option.any_eq_true _ _).mp hinner
  exact ⟨snapshot, i, ok_of_toOption hsnap, hi, of_decide_eq_true hall⟩

end RuleRaven.Controller.Reconciler
