import RuleRaven.Controller.Calls

namespace RuleRaven.Controller

open Framework Kube Rules

theorem isRecovery_recovered : isRecovery Engine.recoveredResult = true := by
  decide

theorem isRecovery_deletion : isRecovery Reconciler.deletionResult = true := by
  decide

theorem statusFor_eq_resolved {result : Rules.Result} :
    statusFor result = .resolved ↔ isRecovery result = true := by
  unfold statusFor
  split_ifs <;> simp_all

/-- The matches of the six rules are no recovery. -/
theorem isRecovery_matched {e : Engine} {now : Time} {s : Snapshot} {first : Match}
    {rest : List Match} (hperm : (first :: rest).Perm (e.ruleMatches now s)) :
    isRecovery (Engine.matchedResult first rest) = false := by
  simp only [isRecovery, Engine.matchedResult_matched, List.any_eq_false]
  intro m hm
  have hid := Engine.ruleID_of_mem_ruleMatches (hperm.mem_iff.mp hm)
  simp only [Engine.ruleIDs, List.mem_cons, List.not_mem_nil, or_false] at hid
  rcases hid with h | h | h | h | h | h <;> simp [h]

theorem isRecovery_evaluate {e : Engine} {now : Time} {s : Snapshot} {previous : Option Incident} :
    isRecovery (e.evaluate now s previous) = true ↔
      e.ignoredReason s = none ∧ e.ruleMatches now s = [] ∧
        ∃ i, previous = some i ∧ i.status = .open := by
  rcases e.evaluate_cases now s previous with
    ⟨reason, hr, he⟩ | ⟨hr, hm, hp, he⟩ | ⟨hr, hm, hp, he⟩ | ⟨hr, hm, first, rest, hperm, he⟩
  · simp [he, isRecovery, Engine.suppressed, hr]
  · simp [he, isRecovery_recovered, hr, hm, hp]
  · simp only [he, hr, hm, true_and]
    refine iff_of_false (by simp [isRecovery]) ?_
    rintro ⟨i, hi, hopen⟩
    exact hp i hi hopen
  · simp [he, isRecovery_matched hperm, hm]

theorem noMatch_evaluate {e : Engine} {now : Time} {s : Snapshot} {previous : Option Incident} :
    (e.evaluate now s previous).disposition = .noMatch ↔
      e.ignoredReason s = none ∧ e.ruleMatches now s = [] ∧
        ∀ i, previous = some i → i.status ≠ .open := by
  rcases e.evaluate_cases now s previous with
    ⟨reason, hr, he⟩ | ⟨hr, hm, hp, he⟩ | ⟨hr, hm, hp, he⟩ | ⟨hr, hm, first, rest, hperm, he⟩
  · simp [he, Engine.suppressed, hr]
  · obtain ⟨i, rfl, hopen⟩ := hp
    simp [he, Engine.recoveredResult, hopen]
  · simp only [he, hr, hm, true_and]
    exact iff_of_true trivial hp
  · rcases Engine.matchedResult_disposition first rest with hd | hd <;> simp [he, hd, hm]

theorem policyVersion_evaluate (e : Engine) (now : Time) (s : Snapshot)
    (previous : Option Incident) :
    (e.evaluate now s previous).policyVersion = Rules.policyVersion := by
  rcases e.evaluate_cases now s previous with
    ⟨reason, hr, he⟩ | ⟨hr, hm, hp, he⟩ | ⟨hr, hm, hp, he⟩ | ⟨hr, hm, first, rest, hperm, he⟩ <;>
    simp [he, Engine.suppressed, Engine.recoveredResult]

namespace Reconciler

variable {H : Hasher} {r : Reconciler}

@[simp] theorem resultSnapshot_source (snapshot : Snapshot) (result : Rules.Result) :
    (resultSnapshot H snapshot result).source = snapshot.source := by
  unfold resultSnapshot
  split_ifs <;> rfl

theorem resultSnapshot_contentHash {snapshot : Snapshot} (result : Rules.Result)
    (h : snapshot.contentHash = contentHash H snapshot) :
    (resultSnapshot H snapshot result).contentHash =
      contentHash H (resultSnapshot H snapshot result) := by
  unfold resultSnapshot
  split_ifs
  · rfl
  · exact h

/-- What is known of an observation that goes on to `persist`. -/
structure Judged (H : Hasher) (p : Pending) : Prop where
  hash : p.snapshot.contentHash = contentHash H p.snapshot
  policy : p.result.policyVersion = Rules.policyVersion
  /-- An unchanged fingerprint is persisted only as a recovery. -/
  gate : ∀ i, p.previous = some i → i.contentHash = p.snapshot.contentHash →
    isRecovery p.result = true
  /-- Only an incident that is not resolved is resolved. -/
  recovers : isRecovery p.result = true → ∃ i, p.previous = some i ∧ i.status ≠ .resolved
  /-- A result without a match is persisted only over a suppressed incident. -/
  noMatch : p.result.disposition = .noMatch → ∃ i, p.previous = some i ∧ i.status = .suppressed

theorem judge_eq_persist {observed : Snapshot} {previous : Option Incident} {now engineNow : Time}
    {p : Pending} (h : r.judge H observed previous now engineNow = .persist p) :
    p.result = r.rules.evaluate engineNow observed previous ∧ p.previous = previous ∧
      p.snapshot = resultSnapshot H observed p.result ∧ p.now = now ∧
      p.requeue = eventRequeue p.snapshot now p.result r.eventQuietPeriod ∧
      (∀ i, previous = some i → i.contentHash = p.snapshot.contentHash →
        isRecovery p.result = true) ∧
      (p.result.disposition = .noMatch → ∃ i, previous = some i ∧ i.status ≠ .resolved) := by
  unfold judge at h
  dsimp only at h
  split_ifs at h with hgate hnone hresolved
  cases h
  refine ⟨rfl, rfl, rfl, rfl, rfl, ?_, ?_⟩
  · rintro i rfl heq
    simpa [heq] using hgate
  · intro hno
    cases previous with
    | none => exact absurd ⟨hno, rfl⟩ hnone
    | some i =>
      refine ⟨i, rfl, fun hst => hresolved ?_⟩
      simpa [hst] using hno

theorem judged_of_judge {observed : Snapshot} {previous : Option Incident} {now engineNow : Time}
    {p : Pending} (hhash : observed.contentHash = contentHash H observed)
    (h : r.judge H observed previous now engineNow = .persist p) : Judged H p := by
  obtain ⟨hresult, hprev, hsnap, -, -, hgate, hno⟩ := judge_eq_persist h
  refine ⟨?_, ?_, ?_, ?_, ?_⟩
  · rw [hsnap]
    exact resultSnapshot_contentHash _ hhash
  · rw [hresult]
    exact policyVersion_evaluate _ _ _ _
  · rw [hprev]
    exact hgate
  · rw [hresult, hprev]
    intro hrec
    obtain ⟨-, -, i, hi, hopen⟩ := isRecovery_evaluate.mp hrec
    exact ⟨i, hi, by simp [hopen]⟩
  · intro hnm
    obtain ⟨i, hi, hne⟩ := hno hnm
    rw [hresult] at hnm
    have hopen := (noMatch_evaluate.mp hnm).2.2 i hi
    refine ⟨i, hprev ▸ hi, ?_⟩
    cases hst : i.status <;> simp_all

/-- How an observation comes to `persist`: the rules judged the snapshot of a resource that was
found under the key, or the resource is gone and its incident is not resolved. -/
inductive Arises (H : Hasher) (r : Reconciler) (key : ResourceKey) : Pending → Prop
  | live {object : Object} {observed : Snapshot} {previous : Option Incident}
      {now engineNow : Time} {p : Pending} (hfound : Resolved key object)
      (hobserved : r.normalizer.normalize H object now = .ok observed)
      (hjudge : r.judge H observed previous now engineNow = .persist p) : Arises H r key p
  | gone (now : Time) {previous : Incident} (hstatus : previous.status ≠ .resolved) :
      Arises H r key ⟨r.deletionSnapshot H key now, some previous, deletionResult, now, 0⟩

theorem judged_deletion (key : ResourceKey) (now : Time) (previous : Incident)
    (h : previous.status ≠ .resolved) :
    Judged H ⟨r.deletionSnapshot H key now, some previous, deletionResult, now, 0⟩ where
  hash := rfl
  policy := rfl
  gate := fun _ _ _ => isRecovery_deletion
  recovers := fun _ => ⟨previous, rfl, h⟩
  noMatch := fun hd => by simp [deletionResult] at hd

theorem Arises.judged {key : ResourceKey} {p : Pending} (h : Arises H r key p) : Judged H p := by
  cases h with
  | live hfound hobserved hjudge =>
    obtain ⟨described, -, hs, -⟩ := Normalizer.normalize_eq_ok hobserved
    exact judged_of_judge (by rw [hs]; rfl) hjudge
  | gone now hstatus => exact judged_deletion key now _ hstatus

/-- Only an incident that was read can recover. -/
theorem Arises.fresh {key : ResourceKey} {p : Pending} (h : Arises H r key p)
    (hnone : p.previous = none) : isRecovery p.result = false := by
  rw [Bool.eq_false_iff]
  intro hrecovery
  obtain ⟨i, hi, -⟩ := h.judged.recovers hrecovery
  rw [hnone] at hi
  cases hi

end Reconciler

end RuleRaven.Controller
