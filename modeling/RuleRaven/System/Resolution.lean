import RuleRaven.System.Chronicle
import RuleRaven.System.Workers
import Mathlib.Data.List.Chain

namespace RuleRaven

open Framework Controller

variable {ι : Type}

/-- Between two elements with a property that no two neighbours share lies one without it. -/
theorem exists_between {α : Type} {p : α → Prop} {l front between rest : List α} {a b : α}
    (h : l.IsChain fun x y => p x → ¬ p y) (hl : l = front ++ a :: (between ++ b :: rest))
    (ha : p a) (hb : p b) : ∃ x ∈ between, ¬ p x := by
  subst hl
  have hsuffix := (List.isChain_append.mp h).2.1
  cases between with
  | nil => exact absurd hb ((List.isChain_cons_cons.mp hsuffix).1 ha)
  | cons x between => exact ⟨x, List.mem_cons_self, (List.isChain_cons_cons.mp hsuffix).1 ha⟩

def CommitRequest.Resolves (request : CommitRequest) : Prop := request.incident.status = .resolved

/-- No two neighbouring commits on an incident resolve it. -/
def ResolvesOnce (w : World ι) : Prop :=
  ∀ incidentID, (commitsOn w.trace incidentID).IsChain fun a b => a.Resolves → ¬ b.Resolves

/-- The incident is as some earlier commits had left it. -/
def ReadAt (incident : Incident) (w : World ι) : Prop :=
  ∃ past, past <+: w.trace ∧
    incident.version = 1 + ((commitsOn past incident.id).length : Int) ∧
    incident.status = statusAfter (commitsOn past incident.id)

section ReadAt

variable {H : Hasher} {tasks : ι → Task → Prop} {w : World ι} {incident : Incident} {i : ι}

theorem stable_readAt (i : ι) (incident : Incident) : Stable i (ReadAt incident) := by
  rintro w w' hr ⟨past, hpast, hread⟩
  obtain ⟨others, htrace, -⟩ := hr.trace
  exact ⟨past, htrace ▸ hpast.trans (List.prefix_append _ _), hread⟩

theorem ReadAt.extend (h : ReadAt incident w) (op : Op) (reply : op.Reply) (s' : Store) :
    ReadAt incident (w.extend i op reply s') := by
  obtain ⟨past, hpast, hread⟩ := h
  exact ⟨past, hpast.trans (List.prefix_append _ _), hread⟩

theorem Chronicled.readAt (hw : Chronicled H tasks w) (hmem : incident ∈ w.store.incidents.rows) :
    ReadAt incident w :=
  ⟨w.trace, List.prefix_refl _, hw.incident incident hmem⟩

/-- A commit under the version that was read finds the status that was read. -/
theorem ReadAt.current (h : ReadAt incident w) (hw : Chronicled H tasks w) {row : Incident}
    (hrow : row ∈ w.store.incidents.rows) (hid : row.id = incident.id)
    (hversion : row.version = incident.version) :
    incident.status = statusAfter (commitsOn w.trace incident.id) := by
  obtain ⟨past, hpast, hread, hstatus⟩ := h
  have hlength := (hw.incident row hrow).1
  rw [hid, hversion, hread] at hlength
  have hsame := (commitsOn_past hpast incident.id).eq_of_length (by omega)
  rw [hstatus, hsame]

end ReadAt

theorem ResolvesOnce.quiet {w : World ι} (hw : ResolvesOnce w) {i : ι} {op : Op}
    {reply : op.Reply} {s' : Store}
    (hquiet : (⟨i, op, reply, w.clock, w.store, s'⟩ : Event ι).commit? = none) :
    ResolvesOnce (w.extend i op reply s') := by
  intro incidentID
  rw [World.extend, commitsOn_quiet hquiet]
  exact hw incidentID

theorem statusAfter_of_getLast? {log : List CommitRequest} {last : CommitRequest}
    (h : last ∈ log.getLast?) : statusAfter log = last.incident.status := by
  rw [statusAfter, Option.mem_def.mp h]
  rfl

theorem ResolvesOnce.commit {w : World ι} (hw : ResolvesOnce w) {request : CommitRequest} {i : ι}
    {reply : (Op.store (.commit request)).Reply} {s' : Store}
    (h : w.store.Committed request s')
    (hopen : request.Resolves →
      statusAfter (commitsOn w.trace request.incident.id) ≠ .resolved) :
    ResolvesOnce (w.extend i (.store (.commit request)) reply s') := by
  intro incidentID
  rw [World.extend, commitsOn_commit (h.commit? i reply w.clock)]
  split_ifs with hid
  · subst hid
    refine List.isChain_append.mpr ⟨hw _, List.isChain_singleton _, ?_⟩
    intro last hlast x hx hlastResolves hresolves
    cases hx
    exact hopen hresolves ((statusAfter_of_getLast? hlast).trans hlastResolves)
  · rw [List.append_nil]
    exact hw incidentID

namespace Controller.Reconciler

variable {H : Hasher} {r : Reconciler} {tasks : ι → Task → Prop} {i : ι} {w : World ι} {α : Type}

/-- Where the trace accounts for the store, the program keeps resolutions apart. -/
def Resolves (H : Hasher) (tasks : ι → Task → Prop) (i : ι) (Q : α → World ι → Prop) (p : Eff α)
    (w : World ι) : Prop :=
  Keeps (fun _ _ w => True ∧ Chronicled H tasks w) ResolvesOnce i Q p w

theorem resolves_call {op : Op} {P : World ι → Prop} (hP : Stable i P)
    (hext : ∀ v reply s', P v → P (v.extend i op reply s'))
    (hquiet : ∀ reply clock s s', Answers clock s op reply s' →
      (⟨i, op, reply, clock, s, s'⟩ : Event ι).commit? = none) (hw : P w) :
    Resolves H tasks i (fun _ => P) (Prog.perform op) w :=
  keeps_perform hP (fun v reply s' hinv hv _ hanswer =>
    ⟨hinv.quiet (hquiet reply _ _ s' hanswer), hext v reply s' hv⟩) hw

theorem looks_readAt (key : Kube.ResourceKey) :
    Looks ((machine ι).restrict fun _ _ w => True ∧ Chronicled H tasks w) (contract ResolvesOnce)
      i H r key (fun _ _ => True) fun _ previous v =>
        ∀ incident, previous = some incident → ReadAt incident v where
  get v _ := resolves_call (stable_const i True) (fun _ _ _ h => h) (fun _ _ _ _ _ => rfl) trivial
  wait _ v _ :=
    resolves_call (stable_const i True) (fun _ _ _ h => h) (fun _ _ _ _ _ => rfl) trivial
  read _ clusterID incidentID v _ _ := by
    refine keeps_perform (stable_const i True) (fun v reply s' hinv _ hguard hanswer =>
      ⟨hinv.quiet rfl, ?_⟩) trivial
    have hs : s' = v.store := StoreAnswer.state hanswer |>.elim id id
    cases reply with
    | error err => exact fun _ _ h => by cases h
    | ok found =>
      rintro incident rfl
      have hfound : v.store.incident clusterID incidentID = some incident :=
        Except.ok.inj (congrArg Prod.fst (StoreAnswer.ok hanswer))
      exact (hguard.2.readAt (Table.byKey_eq_some.mp hfound).1).extend _ _ _
  hold _ previous v hv := by
    refine resolves_call (fun v v' hr hv incident hi => stable_readAt i incident v v' hr
      (hv incident hi)) (fun v reply s' hv incident hi => (hv incident hi).extend _ _ _)
      (fun _ _ _ _ _ => rfl) hv

/-- A recovery is of an incident that was read while it was not resolved. -/
def Recoverable (result : Rules.Result) (incident : Incident) (w : World ι) : Prop :=
  isRecovery result = true → incident.status ≠ .resolved ∧ ReadAt incident w

theorem stable_recoverable (i : ι) (result : Rules.Result) (incident : Incident) :
    Stable i (Recoverable result incident) :=
  Stable.imp _ ((stable_const i _).and (stable_readAt i incident))

theorem Recoverable.extend {result : Rules.Result} {incident : Incident}
    (h : Recoverable result incident w) (op : Op) (reply : op.Reply) (s' : Store) :
    Recoverable result incident (w.extend i op reply s') :=
  fun hrecovery => ⟨(h hrecovery).1, (h hrecovery).2.extend _ _ _⟩

theorem resolves_record {incident : Incident} {created : Bool} {snapshot : Snapshot}
    {result : Rules.Result} {now : Time}
    (hknown : Recoverable result incident w) :
    Resolves H tasks i (fun _ _ => True) (r.record H incident created snapshot result now) w := by
  have hstable := stable_recoverable i result incident
  refine safe_record (Recoverable result incident) (fun _ => Recoverable result incident)
    (fun _ _ => trivial) (fun _ _ _ => trivial) (safe_upsertSnapshot (Recoverable result incident)
      (Recoverable result incident) ?_ fun v hv => ?_) (fun v hv => ?_) (fun decided v hv => ?_)
  · refine keeps_mono
      (resolves_call hstable (fun _ _ _ hv => hv.extend _ _ _) (fun _ _ _ _ _ => rfl) hknown) ?_
    rintro (err | row) v hv <;> exact hv
  · exact keeps_mono
      (resolves_call hstable (fun _ _ _ hv => hv.extend _ _ _) (fun _ _ _ _ _ => rfl) hv)
      fun _ _ hv _ _ => hv
  · refine keeps_only hstable (fun op v reply s' hop hinv hv _ _ => ⟨hinv.quiet ?_,
      hv.extend op reply s'⟩) (decideResult_only H r snapshot result incident.id) hv
    cases op <;> first | exact hop.elim | rfl
  · refine keeps_perform hstable
      (fun v reply s' hinv hv hguard hanswer => ⟨?_, fun _ => trivial⟩) hv
    generalize hrequest : r.commitRequest H incident created snapshot result decided now = request
      at hanswer
    have hwrote := StoreAnswer.wrote hanswer
    cases hwrote with
    | nothing => exact hinv.quiet (Event.commit?_unchanged rfl)
    | commit hcommitted =>
      refine hinv.commit hcommitted fun hresolves => ?_
      subst hrequest
      obtain ⟨hopen, hread⟩ := hv (statusFor_eq_resolved.mp hresolves)
      obtain ⟨row, hrow, hid, hversion⟩ := hcommitted.current
      exact hread.current hguard.2 hrow hid hversion ▸ hopen
    | finalize hop => cases hop

theorem resolves_persist {key : Kube.ResourceKey} {p : Pending} (hp : Arises H r key p)
    (hknown : ∀ incident, p.previous = some incident → ReadAt incident w) :
    Resolves H tasks i (fun _ _ => True) (r.persist H p.snapshot p.previous p.result p.now) w := by
  refine safe_persist (fun incident _ => Recoverable p.result incident) (fun _ _ => trivial) ?_ ?_
    fun incident created v hv => resolves_record hv
  · intro incident hi hrecovery
    obtain ⟨j, hj, hstatus⟩ := hp.judged.recovers hrecovery
    obtain rfl := Option.some.inj (hi.symm.trans hj)
    exact ⟨hstatus, hknown incident hi⟩
  · intro hnone
    have hfresh := hp.fresh hnone
    refine safe_mono (fun _ _ h _ _ _ hrecovery => ?_) _ _ (safe_upsertIncident (fun _ => True)
      (fun _ _ => True) (fun _ _ _ => True) (keeps_mono (resolves_call (stable_const i True)
      (fun _ _ _ h => h) (fun _ _ _ _ _ => rfl) trivial) ?_) (fun v _ => keeps_mono
      (resolves_call (stable_const i True) (fun _ _ _ h => h) (fun _ _ _ _ _ => rfl) trivial)
      fun _ _ _ _ _ => trivial) fun _ v _ => keeps_mono (resolves_call (stable_const i True)
      (fun _ _ _ h => h) (fun _ _ _ _ _ => rfl) trivial) fun _ _ _ _ _ => trivial)
    · rw [hfresh] at hrecovery
      cases hrecovery
    · rintro (err | created) v hv
      · exact fun _ => trivial
      · trivial

end Controller.Reconciler

section Runs

variable {H : Hasher} {tasks : ι → Task → Prop} {t : Time}
  {c : Framework.Config ι Op Op.Reply Unit (World ι)}

theorem runs_resolvesOnce (hrun : Runs H tasks (fun _ _ _ => True) (initial ι t) c) :
    ResolvesOnce c.state := by
  have hassumed := steps_assuming (fun d => runs_chronicled) hrun
  refine runs_keep (fun _ _ => List.isChain_nil) (fun _ _ _ h => h) (fun _ _ h _ => h) ?_ hassumed
  intro i task w htask _ _
  cases task with
  | reconcile r key =>
    exact keeps_bind (Reconciler.safe_reconcile (Reconciler.looks_readAt key)
      (fun p _ v hp hknown => Reconciler.resolves_persist hp hknown) trivial)
      fun _ _ _ => keeps_ret trivial
  | dispatch d =>
    refine keeps_task (.dispatch d) (fun v op reply hout _ hv =>
      hv.quiet (Event.commit?_outside hout ..)) fun v op reply s' hop _ hv hanswer => hv.quiet ?_
    cases hop with
    | dispatch d hop => cases op <;> first | exact hop.elim | rfl

/-- A notification of a resolution comes with a commit that resolves. -/
theorem told_resolved {r : Reconciler} {key : Kube.ResourceKey} {request : CommitRequest}
    (h : Reconciler.Issues H r key (.commit request)) {d : Delivery} (hd : d ∈ request.rows)
    (htype : d.eventType = .resolved) :
    d.evaluationID = request.evaluation.id ∧ request.Resolves := by
  obtain ⟨n, hn, rfl⟩ := List.mem_map.mp hd
  cases h with
  | commit incident created decided hp =>
    obtain ⟨destination, -, rfl⟩ := Reconciler.mem_deliveries hn
    refine ⟨rfl, ?_⟩
    have htold : Reconciler.eventTypeFor created _ = .resolved := htype
    unfold Reconciler.eventTypeFor at htold
    split_ifs at htold with hstatus
    exact hstatus

/-- Whatever the workers do, whichever calls fail and whoever crashes: the evaluations of an
incident are those of the commits on it, between two commits that resolve it is one that does
not, and a resolution is told only by such a commit. -/
theorem resolves_once_per_open_period (H : Hasher) (tasks : ι → Task → Prop) (t : Time)
    (c : Framework.Config ι Op Op.Reply Unit (World ι))
    (hrun : Runs H tasks (fun _ _ _ => True) (initial ι t) c) (incidentID : String) :
    c.state.store.evaluationsOf incidentID =
        (commitsOn c.state.trace incidentID).map (fun request => request.evaluation.toDocument) ∧
      (∀ front first between second rest,
        commitsOn c.state.trace incidentID = front ++ first :: (between ++ second :: rest) →
        first.incident.status = .resolved → second.incident.status = .resolved →
        ∃ request ∈ between, request.incident.status ≠ .resolved) ∧
      ∀ d ∈ c.state.store.outbox.rows, d.eventType = .resolved →
        ∃ request ∈ commits c.state.trace, request.evaluation.id = d.evaluationID ∧
          request.incident.status = .resolved := by
  have hchronicled := runs_chronicled hrun
  refine ⟨hchronicled.evaluationsOf incidentID, fun front first between second rest hlog => ?_,
    fun d hd htype => ?_⟩
  · exact exists_between (runs_resolvesOnce hrun incidentID) hlog
  · obtain ⟨request, hrequest, brought, hbrought, hslot⟩ := hchronicled.row hd
    obtain ⟨-, r, key, -, hissued⟩ := hchronicled.issued request hrequest
    have hkey : brought.eventKey = d.eventKey := congrArg Prod.snd hslot
    have hevaluation : brought.evaluationID = d.evaluationID := congrArg Prod.fst hkey
    have heventType : brought.eventType = d.eventType := congrArg (fun k => k.2.2) hkey
    obtain ⟨hid, hresolves⟩ := told_resolved hissued hbrought (heventType.trans htype)
    exact ⟨request, hrequest, hid.symm.trans hevaluation, hresolves⟩

end Runs

namespace Scenario

open Controller.Scenario

/-- A job fails, recovers, fails once more and is deleted. -/
def resolvedTwice : List Turn :=
  reconciles 0 20 (jobCall 0 1) ++ reconciles 1 20 (jobCall 1 0) ++
    reconciles 2 20 (jobCall 2 2) ++ reconciles 3 20 (goneJobCall 3)

end Scenario

open Scenario Controller.Scenario

/-- Two resolutions with an opening between them. -/
theorem resolvedTwice_reopens :
    ∃ (c : Crew) (incidentID : String) (a b x y : CommitRequest),
      Runs checksumHasher (fun _ _ => True) (fun _ _ _ => True) (initial Nat noon) c ∧
      commitsOn c.state.trace incidentID = [x, a, y, b] ∧ a.incident.status = .resolved ∧
      b.incident.status = .resolved ∧ ∃ request ∈ [y], request.incident.status ≠ .resolved := by
  have hfacts : (play checksumHasher (fun _ _ => True) (fun _ _ _ => true) resolvedTwice
      (initial Nat noon)).any (fun c => c.state.store.incidents.rows.any fun i =>
        decide ((commitsOn c.state.trace i.id).map (fun request => request.incident.status) =
          [.open, .resolved, .open, .resolved])) = true := by
    decide +kernel
  obtain ⟨c, hplay, hstatuses⟩ := (Option.any_eq_true _ _).mp hfacts
  obtain ⟨i, -, hlog⟩ := List.any_eq_true.mp hstatuses
  have hrun := steps_restrict_mono (fun _ _ _ _ => trivial) (runs_of_play hplay)
  have hlog := of_decide_eq_true hlog
  simp only [List.map_eq_cons_iff, List.map_eq_nil_iff] at hlog
  obtain ⟨x, -, hcommits, -, a, -, rfl, ha, y, -, rfl, -, b, -, rfl, hb, rfl⟩ := hlog
  exact ⟨c, i.id, a, b, x, y, hrun, hcommits, ha, hb,
    (resolves_once_per_open_period checksumHasher (fun _ _ => True) noon c hrun i.id).2.1
      [x] a [y] b [] hcommits ha hb⟩

end RuleRaven
