import RuleRaven.Store.Integrity
import RuleRaven.System.Schedule
import RuleRaven.System.Walk

namespace RuleRaven

open Framework Kube Controller

variable {ι : Type}

/-- The executions before this one are over. -/
def alone (i : ι) (_ : Op) (w : World ι) : Prop := ∀ e ∈ w.trace, e.worker = i ∨ e.worker ∈ w.gone

/-- The execution is at work. -/
def World.Active (w : World ι) (i : ι) : Prop := (∃ e ∈ w.trace, e.worker = i) ∧ i ∉ w.gone

/-- Where executions go one after the other, nothing happens while one is at work. -/
def soloContract (inv : World ι → Prop) : Contract ι (World ι) where
  inv := inv
  rely i w w' := World.Rely i w w' ∧ (w.Active i → w'.store = w.store ∧ w'.trace = w.trace)
  refl i w := ⟨World.Rely.refl i w, fun _ => ⟨rfl, rfl⟩⟩
  trans i u v w h h' := by
    refine ⟨h.1.trans i u v w h'.1, fun hactive => ?_⟩
    obtain ⟨hstore, htrace⟩ := h.2 hactive
    have hstill : v.Active i := ⟨htrace ▸ hactive.1, fun hgone => hactive.2 (h.1.gone hgone)⟩
    obtain ⟨hstore', htrace'⟩ := h'.2 hstill
    exact ⟨hstore'.trans hstore, htrace'.trans htrace⟩

/-- The program keeps the invariant, as execution `i` from `w` on, with nobody in between. -/
def KeepsAlone {α : Type} (inv : World ι → Prop) (i : ι) (Q : α → World ι → Prop) (p : Eff α)
    (w : World ι) : Prop :=
  Safe ((machine ι).restrict alone) (soloContract inv) i Q p w

section Alone

variable {inv : World ι → Prop} {i : ι} {w : World ι}

theorem keepsAlone_perform {op : Op} {P : World ι → Prop} {Q : op.Reply → World ι → Prop}
    (hP : (soloContract inv).Stable i P)
    (hact : ∀ v reply s', inv v → P v → Answers v.clock v.store op reply s' →
      inv (v.extend i op reply s') ∧ Q reply (v.extend i op reply s'))
    (hw : P w) : KeepsAlone inv i Q (Prog.perform op) w := by
  refine safe_perform hP (fun v reply v' hinv hv ha => ?_) hw
  have hrely : ∀ j, j ≠ i → World.Rely j v v' := fun j hne => rely_act hne ha.2
  obtain ⟨halone, s', hanswer, rfl⟩ := ha
  obtain ⟨hinv', hQ⟩ := hact v reply s' hinv hv hanswer
  refine ⟨hinv', fun j hne => ⟨hrely j hne, ?_⟩, hQ⟩
  rintro ⟨⟨e, he, rfl⟩, hgone⟩
  rcases halone e he with hself | hover
  · exact absurd hself hne
  · exact absurd hover hgone

/-- A fact about the store and the trace that an execution at work has established. -/
theorem stable_active {F : Store → List (Event ι) → Prop} :
    (soloContract inv).Stable i fun v => v.Active i ∧ F v.store v.trace := by
  rintro v v' ⟨hrely, hsame⟩ ⟨hactive, hF⟩
  obtain ⟨hstore, htrace⟩ := hsame hactive
  refine ⟨⟨htrace ▸ hactive.1, fun hgone => hactive.2 (hrely.gone hgone)⟩, ?_⟩
  rw [hstore, htrace]
  exact hF

theorem active_extend (hgone : i ∉ w.gone) (op : Op) (reply : op.Reply) (s' : Store) :
    (w.extend i op reply s').Active i :=
  ⟨⟨_, List.mem_append_right _ (List.mem_singleton_self _), rfl⟩, hgone⟩

end Alone

namespace Controller.Reconciler

/-- As production builds a reconciler: its normalizer speaks for the same cluster, and its
composer is the one of `NewComposer`. -/
structure Wired (r : Reconciler) : Prop where
  cluster : r.normalizer.clusterID = r.clusterID
  composer : r.composer = Triage.newComposer

end Controller.Reconciler

open Controller.Reconciler

/-- What an event tells of the resource under a key. -/
def Event.saw (key : ResourceKey) : Event ι → Sight
  | ⟨_, .kubeGet kind ns name, reply, _, _, _⟩ =>
    if kind = key.kind ∧ ns = key.namespace ∧ name = key.name then sightOf key.uid reply
    else .unseen
  | _ => .unseen

/-- A resource that was once not found is never found again. -/
def NeverBack (key : ResourceKey) (trace : List (Event ι)) : Prop :=
  trace.Pairwise fun e e' => e.saw key = .gone → e'.saw key ≠ .found

/-- The fingerprint of every snapshot that stands for the deletion of a resource. -/
def deletionHash (H : Hasher) (clusterID : String) (key : ResourceKey) : String :=
  contentHash H
    { source := key.source clusterID, observedAt := 0
      conditions := [{ type := "Deleted", status := "True", reason := "ResourceDeleted" }] }

section Fingerprints

variable {H : Hasher} {r : Reconciler} {key : ResourceKey}

/-- A resource that is there has another fingerprint: its snapshot names an API version. -/
theorem live_contentHash (hH : H.CollisionFree) {clusterID : String} {object : Object}
    {observed : Snapshot} {previous : Option Incident} {now engineNow : Time} {p : Pending}
    (hfound : Resolved key object) (hobserved : r.normalizer.normalize H object now = .ok observed)
    (hjudge : r.judge H observed previous now engineNow = .persist p) :
    p.snapshot.contentHash ≠ deletionHash H clusterID key := by
  obtain ⟨described, hdescribed, hs, -⟩ := Normalizer.normalize_eq_ok hobserved
  have hapi : p.snapshot.source.apiVersion ≠ "" := by
    rw [(judge_eq_persist hjudge).2.2.1, resultSnapshot_source, hs]
    exact (Normalizer.describe_typed hfound.typed hdescribed).2.1
  intro heq
  rw [(Arises.live hfound hobserved hjudge).judged.hash] at heq
  have hcanonical := (contentHash_eq_iff hH _ _).mp heq
  exact hapi (congrArg (fun c => c.source.apiVersion) hcanonical)

/-- Every snapshot of a resource belongs to the incident of its key. -/
theorem live_incidentKey (hwired : r.Wired) {object : Object} {observed : Snapshot} {now : Time}
    (hfound : Resolved key object)
    (hobserved : r.normalizer.normalize H object now = .ok observed) :
    incidentKey H observed.source = incidentKey H (key.source r.clusterID) := by
  obtain ⟨described, hdescribed, hs, -⟩ := Normalizer.normalize_eq_ok hobserved
  obtain ⟨hcluster, huid⟩ := Normalizer.describe_identity hfound.typed hdescribed
  rw [hs]
  simp only [incidentKey, hcluster, huid, hwired.cluster, hfound.uid]
  rfl

/-- What the rules and the providers decide about a resource that is there is no deletion. -/
theorem live_ruleIDs (hwired : r.Wired) {observed : Snapshot} {previous : Option Incident}
    {now engineNow : Time} {p : Pending}
    (hjudge : r.judge H observed previous now engineNow = .persist p)
    {R : ProviderSlot → Provider.EvaluationResponse → Prop} {decided : Decided}
    (hdecided : Decides H r p.result R decided) :
    "resource-deleted" ∉ decided.decision.ruleIDs := by
  intro hmem
  have hcompose : ∃ answers failed,
      "resource-deleted" ∈ (r.composer.compose p.result answers failed).ruleIDs := by
    cases hdecided with
    | without failed => exact ⟨_, _, hmem⟩
    | answered hresponse hname hvalid => exact ⟨_, _, hmem⟩
  obtain ⟨answers, failed, hmem⟩ := hcompose
  rcases r.composer.mem_ruleIDs_compose hmem with hmem | hmem
  · rw [hwired.composer] at hmem
    cases hmem
  · rw [(judge_eq_persist hjudge).1] at hmem
    exact absurd (r.rules.ruleID_of_evaluate engineNow hmem) (by decide)

end Fingerprints

section Burial

variable (H : Hasher) (clusterID : String) (key : ResourceKey)

/-- What a deletion leaves behind: it was seen, its incident is resolved, and there was no other
one. -/
structure Buried (w : World ι) : Prop where
  resolved : ∀ e ∈ w.store.evaluations.rows, e.snapshotHash = deletionHash H clusterID key →
    (∃ x ∈ w.trace, x.saw key = .gone) ∧
      ∃ i ∈ w.store.incidents.rows, i.id = e.incidentID ∧ i.status = .resolved
  marked : ∀ e ∈ w.store.evaluations.rows, "resource-deleted" ∈ e.decision.ruleIDs →
    e.snapshotHash = deletionHash H clusterID key
  once : ∀ incidentID, (w.store.evaluationsOf incidentID).countP
    (fun e => e.snapshotHash == deletionHash H clusterID key) ≤ 1

variable {H clusterID key} {w : World ι} {i : ι}

theorem Buried.quiet (hw : Buried H clusterID key w) {op : Op} {reply : op.Reply} {s' : Store}
    (hevaluations : s'.evaluations = w.store.evaluations)
    (hincidents : ∀ j ∈ w.store.incidents.rows, j ∈ s'.incidents.rows) :
    Buried H clusterID key (w.extend i op reply s') := by
  refine ⟨fun e he hhash => ?_, fun e he => ?_, fun incidentID => ?_⟩
  · obtain ⟨⟨x, hx, hgone⟩, j, hj, hresolved⟩ := hw.resolved e (hevaluations ▸ he) hhash
    exact ⟨⟨x, List.mem_append_left _ hx, hgone⟩, j, hincidents j hj, hresolved⟩
  · exact hw.marked e (hevaluations ▸ he)
  · have hsame := Store.evaluationsOf_of_rows (congrArg Table.rows hevaluations) incidentID
    exact (congrArg (List.countP _) hsame).trans_le (hw.once incidentID)

variable {request : CommitRequest} {s' : Store}

theorem countP_evaluationsOf (h : w.store.Committed request s') (incidentID : String)
    (p : Evaluation → Bool) :
    (s'.evaluationsOf incidentID).countP p = (w.store.evaluationsOf incidentID).countP p +
      if request.evaluation.incidentID = incidentID ∧ p request.evaluation.toDocument = true
        then 1 else 0 := by
  rw [Store.evaluationsOf_append h.evaluations, List.countP_append]
  congr 1
  show List.countP p (if request.evaluation.incidentID = incidentID then _ else _) = _
  by_cases hid : request.evaluation.incidentID = incidentID <;> simp [hid, List.countP_cons]

/-- A commit about a resource that has never been missed. -/
theorem Buried.live (hw : Buried H clusterID key w) (h : w.store.Committed request s')
    {reply : (Op.store (.commit request)).Reply}
    (hseen : ∀ x ∈ w.trace, x.saw key ≠ .gone)
    (hhash : request.evaluation.snapshotHash ≠ deletionHash H clusterID key)
    (hrules : "resource-deleted" ∉ request.evaluation.decision.ruleIDs) :
    Buried H clusterID key (w.extend i (.store (.commit request)) reply s') := by
  have hrow : ∀ e ∈ s'.evaluations.rows,
      e ∈ w.store.evaluations.rows ∨ e = request.evaluation.toDocument := by
    intro e he
    simpa [h.evaluations] using he
  refine ⟨fun e he heq => ?_, fun e he hmem => ?_, fun incidentID => ?_⟩
  · rcases hrow e he with he | rfl
    · obtain ⟨⟨x, hx, hgone⟩, -⟩ := hw.resolved e he heq
      exact absurd hgone (hseen x hx)
    · exact absurd heq hhash
  · rcases hrow e he with he | rfl
    · exact hw.marked e he hmem
    · exact absurd hmem hrules
  · have hcount := countP_evaluationsOf h incidentID
      fun e => e.snapshotHash == deletionHash H clusterID key
    rw [if_neg fun hnew => hhash (beq_iff_eq.mp hnew.2)] at hcount
    exact hcount.trans_le (hw.once incidentID)

/-- No deletion has been recorded for an incident that is not resolved. -/
theorem Buried.unrecorded (hw : Buried H clusterID key w) {incident : Incident}
    (hmem : incident ∈ w.store.incidents.rows) (hopen : incident.status ≠ .resolved)
    {e : Evaluation} (he : e ∈ w.store.evaluations.rows) (hof : e.incidentID = incident.id) :
    e.snapshotHash ≠ deletionHash H clusterID key := by
  intro heq
  obtain ⟨-, j, hj, hjid, hresolved⟩ := hw.resolved e he heq
  have hsame := Table.eq_of_id hj hmem (hjid.trans hof)
  exact hopen (hsame ▸ hresolved)

/-- The commit of a deletion, for an incident that is not resolved. -/
theorem Buried.deletion (hw : Buried H clusterID key w) (h : w.store.Committed request s')
    {reply : (Op.store (.commit request)).Reply}
    (howner : request.evaluation.incidentID = request.incident.id)
    (hgone : ∃ x ∈ w.trace, x.saw key = .gone) {incident : Incident}
    (hmem : incident ∈ w.store.incidents.rows) (hid : incident.id = request.incident.id)
    (hopen : incident.status ≠ .resolved) (hresolves : request.incident.status = .resolved)
    (hhash : request.evaluation.snapshotHash = deletionHash H clusterID key) :
    Buried H clusterID key (w.extend i (.store (.commit request)) reply s') := by
  have hfirst : ∀ e ∈ w.store.evaluations.rows, e.incidentID = request.incident.id →
      e.snapshotHash ≠ deletionHash H clusterID key := by
    intro e he hof
    exact hw.unrecorded hmem hopen he (hof.trans hid.symm)
  have hgone' : ∃ x ∈ (w.extend i (.store (.commit request)) reply s').trace,
      x.saw key = .gone := by
    obtain ⟨x, hx, hx'⟩ := hgone
    exact ⟨x, List.mem_append_left _ hx, hx'⟩
  have hchanged : (incidentChange request.incident).apply incident ∈ s'.incidents.rows := by
    rw [h.incidents]
    exact Table.mem_modify.mpr (Or.inr ⟨incident, hmem, hid, rfl⟩)
  have hrow : ∀ e ∈ s'.evaluations.rows,
      e ∈ w.store.evaluations.rows ∨ e = request.evaluation.toDocument := by
    intro e he
    simpa [h.evaluations] using he
  refine ⟨fun e he heq => ⟨hgone', ?_⟩, fun e he hmarked => ?_, fun incidentID => ?_⟩
  · rcases hrow e he with he | rfl
    · obtain ⟨-, j, hj, hjid, hresolved⟩ := hw.resolved e he heq
      have hne : j.id ≠ request.incident.id :=
        fun heqid => hfirst e he (hjid.symm.trans heqid) heq
      refine ⟨j, ?_, hjid, hresolved⟩
      show j ∈ s'.incidents.rows
      rw [h.incidents]
      exact Table.mem_modify.mpr (Or.inl ⟨hj, hne⟩)
    · exact ⟨_, hchanged, hid.trans howner.symm, hresolves⟩
  · rcases hrow e he with he | rfl
    · exact hw.marked e he hmarked
    · exact hhash
  · have hcount := countP_evaluationsOf h incidentID
      fun e => e.snapshotHash == deletionHash H clusterID key
    by_cases hof : request.evaluation.incidentID = incidentID
    · have hnone : (w.store.evaluationsOf incidentID).countP
          (fun e => e.snapshotHash == deletionHash H clusterID key) = 0 := by
        rw [List.countP_eq_zero]
        intro e he heq
        obtain ⟨he, hid'⟩ := List.mem_filter.mp he
        exact hfirst e he ((beq_iff_eq.mp hid').trans (hof.symm.trans howner)) (beq_iff_eq.mp heq)
      refine hcount.trans_le ?_
      rw [hnone]
      split_ifs <;> omega
    · rw [if_neg fun hnew => hof hnew.1] at hcount
      exact hcount.trans_le (hw.once incidentID)

/-- Once it has succeeded, the incident is resolved. -/
theorem Buried.resolves (hw : Buried H clusterID key w)
    (h : w.store.commit request = (.ok (), s'))
    (howner : request.evaluation.incidentID = request.incident.id) {incident found : Incident}
    {index : String × String} (hrow : w.store.incidents.byKey index = some incident)
    (hid : incident.id = request.incident.id) (hopen : incident.status ≠ .resolved)
    (hresolves : request.incident.status = .resolved)
    (hhash : request.evaluation.snapshotHash = deletionHash H clusterID key)
    (hfound : s'.incidents.byKey index = some found) : found.status = .resolved := by
  rcases Store.transact_eq_ok (Store.transact_of_commit h) with
    ⟨⟨e, he⟩, -⟩ | ⟨-, -, hincidents, -⟩
  · -- the evaluation is not known already
    obtain ⟨hmem, hidentity⟩ := Table.byKey_eq_some.mp he
    have hsame : e.snapshotHash = request.evaluation.snapshotHash :=
      congrArg Identity.snapshotHash hidentity
    have hof : e.incidentID = request.evaluation.incidentID :=
      congrArg Identity.incidentID hidentity
    exact absurd (hsame.trans hhash) (hw.unrecorded (Table.byKey_eq_some.mp hrow).1 hopen hmem
      (hof.trans (howner.trans hid.symm)))
  · have hchanged : s'.incidents.byKey index =
        some ((incidentChange request.incident).apply incident) := by
      rw [hincidents, Table.byKey_modify, hrow, Option.map_some, if_pos hid]
    cases hfound.symm.trans hchanged
    exact hresolves

end Burial

section Walk

variable (H : Hasher) (clusterID : String) (key : ResourceKey)

/-- The invariant of the runs in which the resource does not come back. -/
def BuriedForGood (w : World ι) : Prop := NeverBack key w.trace → Buried H clusterID key w

/-- What an execution has learnt from the API server. -/
def Learnt (i : ι) : Sight → World ι → Prop
  | .unseen, w => i ∉ w.gone ∧ ∀ x ∈ w.trace, x.worker = i → x.saw key ≠ .gone
  | .found, w => w.Active i ∧ (NeverBack key w.trace → ∀ x ∈ w.trace, x.saw key ≠ .gone)
  | .gone, w => w.Active i ∧ ∃ x ∈ w.trace, x.saw key = .gone

/-- What it has learnt once it has read the incident; of a resource that is there, no more. -/
def LearntBoth (i : ι) (sight : Sight) (found : Option Incident) (w : World ι) : Prop :=
  Learnt key i sight w ∧
    (sight = .gone → w.store.incident clusterID (incidentKey H (key.source clusterID)) = found)

/-- What holds where a call has returned without an error. -/
def Laid (i : ι) (reply : Except Err Controller.Result) (w : World ι) : Prop :=
  ∀ result, reply = .ok result → i ∉ w.gone ∧ (NeverBack key w.trace →
    (∃ x ∈ w.trace, x.worker = i ∧ x.saw key = .gone) →
    ∀ incident, w.store.incident clusterID (incidentKey H (key.source clusterID)) = some incident →
      incident.status = .resolved)

variable {H clusterID key} {i : ι} {w : World ι} {inv : World ι → Prop}

theorem NeverBack.of_append {past later : List (Event ι)} (h : NeverBack key (past ++ later)) :
    NeverBack key past := (List.pairwise_append.mp h).1

theorem stable_learnt (sight : Sight) : (soloContract inv).Stable i (Learnt key i sight) := by
  cases sight with
  | unseen =>
    rintro v v' ⟨hrely, -⟩ ⟨hgone, hseen⟩
    obtain ⟨others, htrace, hothers⟩ := hrely.trace
    refine ⟨fun h => hgone (hrely.gone h), fun x hx hself => ?_⟩
    rw [htrace] at hx
    rcases List.mem_append.mp hx with hx | hx
    · exact hseen x hx hself
    · exact absurd hself (hothers x hx)
  | found => exact stable_active (F := fun _ trace => NeverBack key trace →
      ∀ x ∈ trace, x.saw key ≠ .gone)
  | gone => exact stable_active (F := fun _ trace => ∃ x ∈ trace, x.saw key = .gone)

theorem stable_learntBoth (sight : Sight) (found : Option Incident) :
    (soloContract inv).Stable i (LearntBoth H clusterID key i sight found) := by
  rintro v v' hrely ⟨hlearnt, hfound⟩
  refine ⟨stable_learnt sight v v' hrely hlearnt, ?_⟩
  rintro rfl
  rw [(hrely.2 hlearnt.1).1]
  exact hfound rfl

theorem stable_laid (i : ι) (reply : Except Err Controller.Result) :
    (soloContract inv).Stable i (Laid H clusterID key i reply) := by
  rintro v v' ⟨hrely, hsame⟩ hlaid result hreply
  obtain ⟨hgone, hresolved⟩ := hlaid result hreply
  refine ⟨fun h => hgone (hrely.gone h), fun hback hmissed => ?_⟩
  obtain ⟨others, htrace, hothers⟩ := hrely.trace
  obtain ⟨x, hx, hself, hsaw⟩ := hmissed
  have hmine : x ∈ v.trace := by
    rw [htrace] at hx
    exact (List.mem_append.mp hx).resolve_right fun hx => hothers x hx hself
  obtain ⟨hstore, hsameTrace⟩ := hsame ⟨⟨x, hmine, hself⟩, hgone⟩
  rw [hstore]
  rw [hsameTrace] at hback
  exact hresolved hback ⟨x, hmine, hself, hsaw⟩

/-- A call that does not ask the API server teaches nothing new. -/
theorem Learnt.extend {sight : Sight} (h : Learnt key i sight w) {op : Op} {reply : op.Reply}
    {s' : Store} (hquiet : (⟨i, op, reply, w.clock, w.store, s'⟩ : Event ι).saw key = .unseen) :
    Learnt key i sight (w.extend i op reply s') := by
  have hnot : ∀ x ∈ (w.extend i op reply s').trace, x ∈ w.trace ∨ x.saw key ≠ .gone := by
    intro x hx
    rcases List.mem_append.mp hx with hx | hx
    · exact Or.inl hx
    · rw [List.mem_singleton.mp hx, hquiet]
      exact Or.inr (by decide)
  cases sight with
  | unseen =>
    refine ⟨h.1, fun x hx hself => ?_⟩
    exact (hnot x hx).elim (fun hx => h.2 x hx hself) id
  | found =>
    refine ⟨active_extend h.1.2 op reply s', fun hback x hx => ?_⟩
    exact (hnot x hx).elim (h.2 hback.of_append x) id
  | gone =>
    obtain ⟨hactive, x, hx, hgone⟩ := h
    exact ⟨active_extend hactive.2 op reply s', x, List.mem_append_left _ hx, hgone⟩

theorem BuriedForGood.quiet (hw : BuriedForGood H clusterID key w) {op : Op} {reply : op.Reply}
    {s' : Store} (hevaluations : s'.evaluations = w.store.evaluations)
    (hincidents : ∀ j ∈ w.store.incidents.rows, j ∈ s'.incidents.rows) :
    BuriedForGood H clusterID key (w.extend i op reply s') :=
  fun hback => (hw hback.of_append).quiet hevaluations hincidents

theorem BuriedForGood.same (hw : BuriedForGood H clusterID key w) {w' : World ι}
    (hstore : w'.store = w.store) (htrace : w'.trace = w.trace) :
    BuriedForGood H clusterID key w' := by
  intro hback
  rw [htrace] at hback
  obtain ⟨hresolved, hmarked, honce⟩ := hw hback
  constructor <;> simpa only [hstore, htrace]

theorem buried_outside (op : Op) (hop : op.outside)
    (hquiet : ∀ (reply : op.Reply) clock s s',
      (⟨i, op, reply, clock, s, s'⟩ : Event ι).saw key = .unseen)
    {sight : Sight} (hw : Learnt key i sight w) :
    KeepsAlone (BuriedForGood H clusterID key) i (fun _ => Learnt key i sight)
      (Prog.perform op) w := by
  refine keepsAlone_perform (stable_learnt sight) (fun v reply s' hinv hv hanswer => ?_) hw
  obtain rfl := hanswer.outside hop
  exact ⟨hinv.quiet rfl fun _ h => h, hv.extend (hquiet reply _ _ _)⟩

/-- An operation of the store that is no commit. -/
theorem buried_store {op : StoreOp} (hop : ∀ request, op ≠ .commit request) {sight : Sight}
    (hw : Learnt key i sight w) :
    KeepsAlone (BuriedForGood H clusterID key) i (fun _ => Learnt key i sight)
      (Eff.store op) w := by
  refine keepsAlone_perform (stable_learnt sight) (fun v reply s' hinv hv hanswer => ?_) hw
  obtain ⟨hevaluations, hincidents⟩ := (StoreAnswer.wrote hanswer).quiet hop
  exact ⟨hinv.quiet hevaluations hincidents, hv.extend rfl⟩

theorem saw_get (reply : Except KubeError (Served key.kind key.namespace key.name)) (clock : Time)
    (s s' : Store) :
    (⟨i, .kubeGet key.kind key.namespace key.name, reply, clock, s, s'⟩ : Event ι).saw key =
      sightOf key.uid reply :=
  if_pos ⟨rfl, rfl, rfl⟩

theorem learnt_get (hw : Learnt key i .unseen w) :
    KeepsAlone (BuriedForGood H clusterID key) i (fun reply => Learnt key i (sightOf key.uid reply))
      (Eff.kubeGet key.kind key.namespace key.name) w := by
  refine keepsAlone_perform (stable_learnt .unseen) (fun v reply s' hinv hv hanswer => ?_) hw
  obtain rfl : s' = v.store := hanswer
  refine ⟨hinv.quiet rfl fun _ h => h, ?_⟩
  have hsaw := saw_get (i := i) reply v.clock v.store v.store
  cases hsight : sightOf key.uid reply with
  | unseen => exact hv.extend (hsaw.trans hsight)
  | found =>
    refine ⟨active_extend hv.1 _ _ _, fun hback x hx => ?_⟩
    have hpast := (List.pairwise_append.mp hback).2.2
    rcases List.mem_append.mp hx with hx | hx
    · exact fun hgone => hpast x hx _ (List.mem_singleton_self _) hgone (hsaw.trans hsight)
    · rw [List.mem_singleton.mp hx, hsaw, hsight]
      decide
  | gone =>
    exact ⟨active_extend hv.1 _ _ _, _, List.mem_append_right _ (List.mem_singleton_self _),
      hsaw.trans hsight⟩

/-- A call that leaves the incidents and the evaluations alone. -/
theorem learntBoth_call (op : Op) {sight : Sight} {found : Option Incident}
    (hquiet : ∀ (reply : op.Reply) clock s s',
      (⟨i, op, reply, clock, s, s'⟩ : Event ι).saw key = .unseen)
    (hframe : ∀ clock s reply s', Answers clock s op reply s' →
      s'.incidents = s.incidents ∧ s'.evaluations = s.evaluations)
    (hw : LearntBoth H clusterID key i sight found w) :
    KeepsAlone (BuriedForGood H clusterID key) i (fun _ => LearntBoth H clusterID key i sight found)
      (Prog.perform op) w := by
  refine keepsAlone_perform (stable_learntBoth sight found)
    (fun v reply s' hinv hv hanswer => ?_) hw
  obtain ⟨hincidents, hevaluations⟩ := hframe _ _ _ _ hanswer
  refine ⟨hinv.quiet hevaluations fun j hj => hincidents ▸ hj, hv.1.extend (hquiet reply _ _ _),
    fun hgone => ?_⟩
  rw [← hv.2 hgone]
  exact congrArg (fun t => Table.byKey t _) hincidents

variable {r : Reconciler}

theorem looks_learnt (hcluster : r.clusterID = clusterID) :
    Looks ((machine ι).restrict alone) (soloContract (BuriedForGood H clusterID key)) i H r key
      (Learnt key i) (LearntBoth H clusterID key i) where
  get v hv := learnt_get hv
  wait sight v hv := buried_outside .now trivial (fun _ _ _ _ => rfl) hv
  read sight cluster incidentID v hv hgone := by
    refine keepsAlone_perform (stable_learnt sight) (fun v reply s' hinv hv hanswer => ?_) hv
    obtain rfl : s' = v.store := (StoreAnswer.state hanswer).elim id id
    refine ⟨hinv.quiet rfl fun _ h => h, ?_⟩
    have hlearnt : Learnt key i sight
        (v.extend i (.store (.incidentsFindOne cluster incidentID)) reply v.store) := hv.extend rfl
    cases reply with
    | ok found =>
      refine ⟨hlearnt, fun hsight => ?_⟩
      obtain ⟨rfl, rfl⟩ := hgone hsight
      rw [← hcluster]
      exact Except.ok.inj (congrArg Prod.fst (StoreAnswer.ok hanswer))
    | error err =>
      intro hmissing
      generalize hreply : Except.error err = reply at hanswer
      cases hanswer with
      | done => cases hreply
      | fault err hfault =>
        cases hreply
        rw [hfault] at hmissing
        cases hmissing
      | lost err hlost =>
        cases hreply
        rcases hlost with hcause | hcause <;> simp [Err.is, hcause] at hmissing
  hold sight found v hv := by
    refine learntBoth_call .now (fun _ _ _ _ => rfl) (fun _ _ _ _ hanswer => ?_) hv
    rw [hanswer.2]
    exact ⟨rfl, rfl⟩

theorem laid_found (hw : Learnt key i .found w) (reply : Except Err Controller.Result) :
    Laid H clusterID key i reply w := by
  refine fun result _ => ⟨hw.1.2, fun hback hmissed => ?_⟩
  obtain ⟨x, hx, -, hgone⟩ := hmissed
  exact absurd hgone (hw.2 hback x hx)

theorem learnt_upsertIncident (incident : Incident) (hw : Learnt key i .found w) :
    KeepsAlone (BuriedForGood H clusterID key) i (fun reply v => ∀ persisted created,
      reply = .ok (persisted, created) → Learnt key i .found v)
      (Mongo.upsertIncident incident) w := by
  refine safe_upsertIncident (Learnt key i .found) (fun _ => Learnt key i .found)
    (fun _ _ => Learnt key i .found) ?_ (fun v hv => ?_) (fun _ v hv => ?_)
  · refine safe_mono ?_ _ _ (buried_store (fun _ h => by cases h) hw)
    rintro (err | created) v hv
    · exact fun _ => hv
    · exact hv
  · exact safe_mono (fun _ _ hv _ _ => hv) _ _ (buried_store (fun _ h => by cases h) hv)
  · exact safe_mono (fun _ _ hv _ _ => hv) _ _ (buried_store (fun _ h => by cases h) hv)

/-- The part of a call that persists what the rules say of a resource that is there. -/
theorem buried_live (hH : H.CollisionFree) (hwired : r.Wired) {object : Object}
    {observed : Snapshot} {previous : Option Incident} {now engineNow : Time} {p : Pending}
    (hfound : Resolved key object) (hobserved : r.normalizer.normalize H object now = .ok observed)
    (hjudge : r.judge H observed previous now engineNow = .persist p)
    (hw : Learnt key i .found w) :
    KeepsAlone (BuriedForGood H clusterID key) i (fun reply v => reply = .ok () →
      Learnt key i .found v) (r.persist H p.snapshot p.previous p.result p.now) w := by
  refine safe_persist (fun _ _ => Learnt key i .found) (fun _ _ h => by cases h) (fun _ _ => hw)
    (fun _ => learnt_upsertIncident _ hw) fun incident created v hv => ?_
  refine safe_record (Learnt key i .found) (fun decided v => Learnt key i .found v ∧
    "resource-deleted" ∉ decided.decision.ruleIDs) (fun _ _ h => by cases h) (fun _ _ _ _ => hv)
    (safe_upsertSnapshot (Learnt key i .found) (Learnt key i .found) ?_ fun v hv => ?_)
    (fun v hv => ?_) (fun decided v hv => ?_)
  · refine safe_mono ?_ _ _ (buried_store (fun _ h => by cases h) hv)
    rintro (err | row) v hv <;> exact hv
  · exact safe_mono (fun _ _ hv _ _ => hv) _ _ (buried_store (fun _ h => by cases h) hv)
  · refine safe_mono (fun decided v h => ⟨h.1, live_ruleIDs hwired hjudge h.2⟩) _ _
      (safe_decideResult (R := fun _ _ _ => True) (fun slot request v hv => ?_) hv)
    exact safe_mono (fun _ _ hv => ⟨hv, fun _ _ => trivial⟩) _ _
      (buried_outside (.evaluate slot request) trivial (fun _ _ _ _ => rfl) hv)
  · obtain ⟨hlearnt, hrules⟩ := hv
    refine keepsAlone_perform (stable_learnt .found) (fun v reply s' hinv hv hanswer =>
      ⟨fun hback => ?_, fun _ _ => hv.extend rfl⟩) hlearnt
    have hburied := hinv hback.of_append
    generalize hrequest : r.commitRequest H incident created p.snapshot p.result decided p.now =
      request at hanswer ⊢
    have hwrote := StoreAnswer.wrote hanswer
    cases hwrote with
    | nothing => exact hburied.quiet rfl fun _ h => h
    | commit hcommitted =>
      subst hrequest
      exact hburied.live hcommitted (hv.2 hback.of_append)
        (live_contentHash hH hfound hobserved hjudge) hrules
    | finalize hop => cases hop

/-- The part of a call that persists a deletion. It goes through only by resolving the incident:
were its identity known, the incident would have been resolved before. -/
theorem buried_deletion (hcluster : r.clusterID = clusterID) {incident : Incident} {now : Time}
    (hopen : incident.status ≠ .resolved)
    (hw : LearntBoth H clusterID key i .gone (some incident) w) :
    KeepsAlone (BuriedForGood H clusterID key) i (fun reply v => reply = .ok () →
      Laid H clusterID key i (.ok {}) v)
      (r.persist H (r.deletionSnapshot H key now) (some incident) deletionResult now) w := by
  let K : World ι → Prop := LearntBoth H clusterID key i .gone (some incident)
  refine safe_persist (p := ⟨r.deletionSnapshot H key now, some incident, deletionResult, now, 0⟩)
    (fun found created v => incident = found ∧ created = false ∧ K v) (fun _ _ h => by cases h)
    (fun found hfound => ⟨Option.some.inj hfound, rfl, hw⟩) (fun h => by cases h) ?_
  rintro _ _ v ⟨rfl, rfl, hv⟩
  refine safe_record K (fun _ => K) (fun _ _ h => by cases h) (fun _ _ hrecovery => ?_)
    (safe_upsertSnapshot K K ?_ fun v hv => ?_) (fun v hv => ?_) (fun decided v hv => ?_)
  · rw [isRecovery_deletion] at hrecovery
    cases hrecovery
  · refine safe_mono ?_ _ _ (learntBoth_call (.store (.snapshotsUpsert _ _)) (fun _ _ _ _ => rfl)
      (fun _ _ _ _ hanswer => ?_) hv)
    · rintro (err | row) v hv <;> exact hv
    · have hwrote := StoreAnswer.wrote hanswer
      cases hwrote with
      | nothing => exact ⟨rfl, rfl⟩
      | snapshot h => exact ⟨rfl, rfl⟩
      | finalize hop => cases hop
  · refine safe_mono (fun _ _ hv _ _ => hv) _ _ (learntBoth_call (.store (.snapshotsFindOne _ _))
      (fun _ _ _ _ => rfl) (fun _ _ _ _ hanswer => ?_) hv)
    rw [(StoreAnswer.state hanswer).elim id id]
    exact ⟨rfl, rfl⟩
  · refine safe_mono (fun _ _ h => h.1) _ _
      (safe_decideResult (R := fun _ _ _ => True) (fun slot request v hv => ?_) hv)
    refine safe_mono (fun _ _ hv => ⟨hv, fun _ _ => trivial⟩) _ _ (learntBoth_call
      (.evaluate slot request) (fun _ _ _ _ => rfl) (fun _ _ _ _ hanswer => ?_) hv)
    rw [show _ = _ from hanswer]
    exact ⟨rfl, rfl⟩
  · refine keepsAlone_perform (stable_learntBoth .gone (some incident))
      (fun v reply s' hinv hv hanswer => ?_) hv
    obtain ⟨⟨hactive, hgone⟩, hread⟩ := hv
    have hmem := Table.byKey_eq_some.mp (hread rfl)
    generalize hrequest : r.commitRequest H incident false (r.deletionSnapshot H key now)
      deletionResult decided now = request at hanswer
    have hid : incident.id = request.incident.id := by rw [← hrequest]; rfl
    have howner : request.evaluation.incidentID = request.incident.id := by rw [← hrequest]; rfl
    have hresolves : request.incident.status = .resolved := by rw [← hrequest]; rfl
    have hhash : request.evaluation.snapshotHash = deletionHash H clusterID key := by
      rw [← hrequest, ← hcluster]
      rfl
    refine ⟨fun hback => ?_, ?_⟩
    · have hburied := hinv hback.of_append
      have hwrote := StoreAnswer.wrote hanswer
      cases hwrote with
      | nothing => exact hburied.quiet rfl fun _ h => h
      | commit h => exact hburied.deletion h howner hgone hmem.1 hid hopen hresolves hhash
      | finalize hop => cases hop
    · rintro rfl _ result -
      refine ⟨hactive.2, fun hback _ found hfound => ?_⟩
      exact (hinv hback.of_append).resolves (StoreAnswer.ok hanswer) howner (hread rfl) hid hopen
        hresolves hhash hfound

end Walk

/-- Runs of calls on a key, one after the other, each of which may be cut off after any call of
its own. -/
def Sequence (H : Hasher) (key : ResourceKey) (reconcilers : Reconciler → Prop) :
    Framework.Config ι Op Op.Reply (Except Err Controller.Result) (World ι) →
      Framework.Config ι Op Op.Reply (Except Err Controller.Result) (World ι) → Prop :=
  Steps ((machine ι).restrict alone) fun w i p =>
    (∃ r, reconcilers r ∧ p = r.reconcile H key) ∧ w.Unused i

section Sequence

variable {H : Hasher} {key : ResourceKey} {reconcilers : Reconciler → Prop} {clusterID : String}

theorem laid_reconcile (hH : H.CollisionFree) {r : Reconciler} (hcluster : r.clusterID = clusterID)
    (hwired : r.Wired) {w : World ι} {i : ι} (hw : w.Unused i) :
    KeepsAlone (BuriedForGood H clusterID key) i (Laid H clusterID key i) (r.reconcile H key)
      w := by
  refine safe_reconcile_cases (looks_learnt hcluster) (fun _ _ _ h => by cases h)
    (fun _ result v hv => laid_found hv.1 _) (fun v hv result _ => ?_)
    (fun incident v hv hstatus result _ => ?_) ?_ ?_
    ⟨hw.2, fun x hx hself => absurd hself (hw.1 x hx)⟩
  · refine ⟨hv.1.1.2, fun _ _ incident hincident => ?_⟩
    rw [hv.2 rfl] at hincident
    cases hincident
  · refine ⟨hv.1.1.2, fun _ _ found hfound => ?_⟩
    rw [hv.2 rfl] at hfound
    cases hfound
    exact hstatus
  · intro object observed found now engineNow p v hfound hobserved hjudge hv
    exact safe_mono (fun reply v' hv' hreply => laid_found (hv' hreply) _) _ _
      (buried_live hH hwired hfound hobserved hjudge hv.1)
  · intro incident now v hv hopen
    exact buried_deletion hcluster hopen hv

theorem sequence_holds (hH : H.CollisionFree)
    (hbuilt : ∀ r, reconcilers r → r.clusterID = clusterID ∧ r.Wired) {t : Time}
    {c : Framework.Config ι Op Op.Reply (Except Err Controller.Result) (World ι)}
    (hrun : Sequence H key reconcilers ⟨{ clock := t }, []⟩ c) :
    c.Holds ((machine ι).restrict alone) (soloContract (BuriedForGood H clusterID key))
      (Laid H clusterID key) := by
  refine steps_holds (fun i reply => stable_laid i reply) ?_ ?_ ?_ hrun
    ⟨fun _ => ⟨by simp, by simp, by simp [Store.evaluationsOf]⟩, by simp, by simp⟩
  · rintro w w' (hinv : BuriedForGood H clusterID key w) ⟨u, hu, rfl⟩
    exact ⟨hinv.same rfl rfl, fun j =>
      ⟨⟨Store.Grows.refl _, hu, ⟨[], by simp⟩, id⟩, fun _ => ⟨rfl, rfl⟩⟩⟩
  · intro i w (hinv : BuriedForGood H clusterID key w)
    refine ⟨hinv.same rfl rfl, fun j hne => ⟨⟨Store.Grows.refl _, le_rfl, ⟨[], by
      simp [machine, Machine.restrict]⟩, fun hj => ?_⟩, fun _ => ⟨rfl, rfl⟩⟩⟩
    rcases List.mem_append.mp hj with hj | hj
    · exact hj
    · exact absurd (List.mem_singleton.mp hj) hne
  · rintro w i p - ⟨⟨r, hr, rfl⟩, hunused⟩
    obtain ⟨hcluster, hwired⟩ := hbuilt r hr
    exact laid_reconcile hH hcluster hwired hunused

/-- Once a resource is gone for good, every call that finds it missing and returns without an
error leaves its incident resolved, and no incident has two evaluations of a deletion. Calls may
fail, lose an answer or be cut off anywhere. -/
theorem deletion_resolves (H : Hasher) (hH : H.CollisionFree) (key : ResourceKey)
    (clusterID : String) (reconcilers : Reconciler → Prop)
    (hbuilt : ∀ r, reconcilers r → r.clusterID = clusterID ∧ r.Wired) (t : Time)
    (c : Framework.Config ι Op Op.Reply (Except Err Controller.Result) (World ι))
    (hrun : Sequence H key reconcilers ⟨{ clock := t }, []⟩ c)
    (hback : NeverBack key c.state.trace) :
    (∀ i result, (i, Prog.ret (.ok result)) ∈ c.threads →
      (∃ e ∈ c.state.trace, e.worker = i ∧ e.saw key = .gone) →
      ∀ r object now snapshot, reconcilers r → Resolved key object →
        r.normalizer.normalize H object now = .ok snapshot →
        ∀ incident, c.state.store.incident r.clusterID (incidentKey H snapshot.source) =
          some incident → incident.status = .resolved) ∧
      ∀ incidentID, (c.state.store.evaluationsOf incidentID).countP
        (fun e => e.decision.ruleIDs.contains "resource-deleted") ≤ 1 := by
  have hholds := sequence_holds hH hbuilt hrun
  have hburied : Buried H clusterID key c.state := hholds.inv hback
  refine ⟨?_, fun incidentID => ?_⟩
  · intro i result hthread hmissed r object now snapshot hr hfound hnormalized incident hincident
    obtain ⟨rfl, hwired⟩ := hbuilt r hr
    rw [live_incidentKey hwired hfound hnormalized] at hincident
    have hlaid := hholds.safe _ hthread result rfl
    exact hlaid.2 hback hmissed incident hincident
  · refine le_trans (List.countP_mono_left fun e he hmarked => ?_) (hburied.once incidentID)
    rw [List.contains_iff_mem] at hmarked
    exact beq_iff_eq.mpr (hburied.marked e (List.mem_filter.mp he).1 hmarked)

end Sequence

instance (key : ResourceKey) (trace : List (Event ι)) : Decidable (NeverBack key trace) :=
  inferInstanceAs (Decidable (List.Pairwise _ trace))

/-- A call whose first calls are answered, undisturbed, out of a world without faults. -/
theorem sequence_advance {H : Hasher} {key : ResourceKey} (reconcilers : Reconciler → Prop)
    {r : Reconciler} (hr : reconcilers r) {i n : Nat} {w v : World Nat} (hunused : w.Unused i)
    {env : Env} {q : Eff (Except Err Controller.Result)}
    (h : (r.reconcile H key).advance (fun _ w => w.trace.all fun e =>
        e.worker == i || w.gone.contains e.worker) (fun op w => w.serve env none i op) n w =
      some (q, v)) :
    Sequence H key reconcilers ⟨w, []⟩ ⟨v, [(i, q)]⟩ := by
  refine .head (.start w [] i _ ⟨⟨r, hr, rfl⟩, hunused⟩ (by simp)) (steps_advance ?_ h [] [])
  intro op w hallow
  refine ⟨fun e he => ?_, act_serve env none i op w⟩
  have hover := List.all_eq_true.mp hallow e he
  simpa using hover

namespace Scenario

open Controller.Scenario

/-- The calls of a worker on the job. -/
def jobCalls (i : Nat) (c : Call) (w : World Nat) :
    Option (Eff (Except Err Controller.Result) × World Nat) :=
  (notifying.reconcile keepingHasher c.key).advance (fun _ w => w.trace.all fun e =>
    e.worker == i || w.gone.contains e.worker) (fun op w => w.serve c.env none i op) 20 w

def returned : Eff (Except Err Controller.Result) → Bool
  | .ret (.ok _) => true
  | _ => false

theorem ret_of_returned {q : Eff (Except Err Controller.Result)} (h : returned q = true) :
    ∃ result, q = .ret (.ok result) := by
  unfold returned at h
  split at h
  · exact ⟨_, rfl⟩
  · cases h

end Scenario

open Scenario Controller.Scenario

/-- A failed job is deleted: the call that misses it resolves the incident of its snapshots. -/
theorem deleted_job_resolved :
    ∃ (c : Framework.Config Nat Op Op.Reply (Except Err Controller.Result) (World Nat))
      (snapshot : Snapshot) (incident : Incident),
      Sequence keepingHasher ⟨"Job", "ns", "n", "u"⟩ (· = notifying) ⟨{ clock := noon }, []⟩ c ∧
      notifying.normalizer.normalize keepingHasher (job 1 StrMap.empty) noon = .ok snapshot ∧
      c.state.store.incident "c" (incidentKey keepingHasher snapshot.source) = some incident ∧
      incident.status = .resolved := by
  have hfacts : (jobCalls 0 (jobCall 0 1) { clock := noon }).any (fun first =>
      decide (∀ e ∈ first.2.trace, e.worker ≠ 1) &&
        (jobCalls 1 (goneJobCall 1) { first.2 with gone := first.2.gone ++ [0] }).any (fun last =>
          returned last.1 && last.2.trace.any (fun e => e.worker == 1 &&
            e.saw ⟨"Job", "ns", "n", "u"⟩ == .gone) &&
          decide (first.2.gone = [] ∧ NeverBack ⟨"Job", "ns", "n", "u"⟩ last.2.trace) &&
          (notifying.normalizer.normalize keepingHasher (job 1 StrMap.empty) noon).toOption.any
            (fun snapshot => (last.2.store.incident "c"
              (incidentKey keepingHasher snapshot.source)).isSome))) = true := by
    decide +kernel
  obtain ⟨⟨p, w⟩, hfirst, hrest⟩ := (Option.any_eq_true _ _).mp hfacts
  simp only [Bool.and_eq_true, decide_eq_true_eq] at hrest
  obtain ⟨hunused, hlast⟩ := hrest
  obtain ⟨⟨q, v⟩, hsecond, hfacts⟩ := (Option.any_eq_true _ _).mp hlast
  simp only [Bool.and_eq_true, decide_eq_true_eq, List.any_eq_true, beq_iff_eq] at hfacts
  obtain ⟨⟨⟨hreturned, hmissed⟩, hgone, hback⟩, hsnapshot⟩ := hfacts
  obtain ⟨result, rfl⟩ := ret_of_returned hreturned
  obtain ⟨snapshot, hok, hincident⟩ := (Option.any_eq_true _ _).mp hsnapshot
  obtain ⟨incident, hincident⟩ := Option.isSome_iff_exists.mp hincident
  have hnormalized : notifying.normalizer.normalize keepingHasher (job 1 StrMap.empty) noon =
      .ok snapshot := by
    generalize notifying.normalizer.normalize keepingHasher (job 1 StrMap.empty) noon = found at hok
    cases found with
    | error err => cases hok
    | ok found => exact congrArg Except.ok (Option.some.inj hok)
  have hstart : World.Unused { w with gone := w.gone ++ [0] } 1 := ⟨hunused, by simp [hgone]⟩
  have hfinal : Sequence keepingHasher ⟨"Job", "ns", "n", "u"⟩ (· = notifying)
      ⟨{ w with gone := w.gone ++ [0] }, []⟩ ⟨v, [(1, .ret (.ok result))]⟩ :=
    sequence_advance (· = notifying) rfl hstart hsecond
  have hrun : Sequence keepingHasher ⟨"Job", "ns", "n", "u"⟩ (· = notifying)
      ⟨{ clock := noon }, []⟩ ⟨v, [(1, .ret (.ok result))]⟩ :=
    (sequence_advance (· = notifying) rfl ⟨by simp, by simp⟩ hfirst).trans
      (.head (.stop w [] [] 0 p) hfinal)
  have hresolves := deletion_resolves keepingHasher keepingHasher_collisionFree
    ⟨"Job", "ns", "n", "u"⟩ "c" (· = notifying) (by rintro r rfl; exact ⟨rfl, rfl, rfl⟩) noon _
    hrun hback
  exact ⟨_, snapshot, incident, hrun, hnormalized, hincident,
    hresolves.1 1 result (List.mem_singleton_self _) hmissed notifying (job 1 StrMap.empty) noon
      snapshot rfl ⟨by decide, rfl, rfl, rfl, rfl⟩ hnormalized incident hincident⟩

end RuleRaven
