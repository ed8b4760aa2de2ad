import RuleRaven.Controller.Judgement
import RuleRaven.System.World

namespace RuleRaven.Controller.Reconciler

open Framework Kube

variable {ι σ : Type} {M : Machine ι Op Op.Reply σ} {C : Contract ι σ} {i : ι} {w : σ}

/-- What a reconciliation knows of its resource. -/
inductive Sight where
  | unseen
  | found
  | gone
  deriving DecidableEq

/-- What the answer of the API server comes to. -/
def sightOf {kind ns name : String} (uid : String) :
    Except KubeError (Served kind ns name) → Sight
  | .ok object => if object.val.header.metadata.uid = uid then .found else .gone
  | .error .notFound => .gone
  | .error (.other _) => .unseen

/-- How a reconciliation looks before it writes: what it knows until it has read the incident,
what it knows from then on, and one condition for each call. -/
structure Looks (M : Machine ι Op Op.Reply σ) (C : Contract ι σ) (i : ι) (H : Hasher)
    (r : Reconciler) (key : ResourceKey) (Idle : Sight → σ → Prop)
    (Known : Sight → Option Incident → σ → Prop) : Prop where
  get : ∀ v, Idle .unseen v → Safe M C i (fun reply => Idle (sightOf key.uid reply))
    (Eff.kubeGet key.kind key.namespace key.name) v
  wait : ∀ sight v, Idle sight v → Safe M C i (fun _ => Idle sight) Eff.now v
  read : ∀ sight clusterID incidentID v, Idle sight v →
    (sight = .gone → clusterID = r.clusterID ∧
      incidentID = incidentKey H (key.source r.clusterID)) →
    Safe M C i (fun reply v' => match reply with
      | .ok found => Known sight found v'
      | .error err => err.is .storeNotFound = true → Known sight none v')
      (Eff.store (.incidentsFindOne clusterID incidentID)) v
  hold : ∀ sight found v, Known sight found v → Safe M C i (fun _ => Known sight found) Eff.now v

section Looks

variable {H : Hasher} {r : Reconciler} {key : ResourceKey} {Idle : Sight → σ → Prop}
  {Known : Sight → Option Incident → σ → Prop}

theorem safe_resolve (hl : Looks M C i H r key Idle Known) (hw : Idle .unseen w) :
    Safe M C i (fun reply v => match reply with
      | .ok object => Idle .found v ∧ Resolved key object
      | .error err => err.is .kubeNotFound = true → Idle .gone v) (resolve key) w := by
  unfold resolve
  cases hv : key.validate with
  | error err =>
    have hcause : err.is .kubeNotFound = false := by
      unfold ResourceKey.validate at hv
      split_ifs at hv
      cases hv
      rfl
    exact fun h => by rw [hcause] at h; cases h
  | ok _ =>
    dsimp only
    split_ifs with hkind
    · exact fun h => by cases h
    · refine safe_then (hl.get w hw) ?_
      rintro ((_ | text) | object) v hv
      · exact fun _ => hv
      · exact fun h => by cases h
      · simp only [sightOf] at hv
        dsimp only
        split_ifs with huid
        · rw [if_neg huid] at hv
          exact fun _ => hv
        · have hsame := not_not.mp huid
          rw [if_pos hsame] at hv
          exact ⟨hv, resolved_served (by simpa using hkind) object hsame⟩

theorem safe_getIncident (hl : Looks M C i H r key Idle Known) {sight : Sight}
    {clusterID incidentID : String} (hw : Idle sight w)
    (hgone : sight = .gone → clusterID = r.clusterID ∧
      incidentID = incidentKey H (key.source r.clusterID)) :
    Safe M C i (fun reply v => match reply with
      | .ok incident => Known sight (some incident) v
      | .error err => err.is .storeNotFound = true → Known sight none v)
      (Mongo.getIncident clusterID incidentID) w := by
  unfold Mongo.getIncident
  split_ifs
  · exact fun h => by cases h
  · refine safe_then (hl.read sight clusterID incidentID w hw hgone) ?_
    rintro (err | _ | incident) v hv
    · exact hv
    · exact fun _ => hv
    · exact hv

/-- The rule of `Reconcile` up to its call of `persist`: one condition for each verdict. -/
theorem safe_observe (hl : Looks M C i H r key Idle Known) {Q : Except Err Verdict → σ → Prop}
    (herror : ∀ err v, Q (.error err) v)
    (hlive : ∀ object observed found now engineNow v, Resolved key object →
      r.normalizer.normalize H object now = .ok observed → Known .found found v →
      Q (.ok (r.judge H observed found now engineNow)) v)
    (habsent : ∀ v, Known .gone none v → Q (.ok (.settled {})) v)
    (hresolved : ∀ incident v, Known .gone (some incident) v → incident.status = .resolved →
      Q (.ok (.settled {})) v)
    (hgone : ∀ incident now v, Known .gone (some incident) v → incident.status ≠ .resolved →
      Q (.ok (.persist ⟨r.deletionSnapshot H key now, some incident, deletionResult, now, 0⟩)) v)
    (hw : Idle .unseen w) : Safe M C i Q (r.observe H key) w := by
  unfold observe
  split
  · exact herror _ _
  refine safe_then (safe_resolve hl hw) ?_
  rintro (err | object) v hv
  · dsimp only
    split_ifs with hnotFound
    · refine safe_then (safe_getIncident hl (hv hnotFound) fun _ => ⟨rfl, rfl⟩) ?_
      rintro (err | previous) v' hknown
      · dsimp only
        split_ifs with hmissing
        · exact habsent v' (hknown hmissing)
        · exact herror _ _
      · dsimp only
        split_ifs with hstatus
        · exact hresolved previous v' hknown hstatus
        · exact safe_then (hl.hold .gone (some previous) v' hknown) fun now v'' hknown =>
            hgone previous now v'' hknown hstatus
    · exact herror _ _
  obtain ⟨hidle, hfound⟩ := hv
  refine safe_then (hl.wait .found v hidle) fun now v' hidle => ?_
  split
  · exact herror _ _
  rename_i observed hobserved
  refine safe_then (safe_getIncident hl hidle fun h => by cases h) ?_
  rintro (err | previous) v'' hknown
  · dsimp only
    split_ifs with hmissing
    · exact safe_then (hl.hold .found none v'' (hknown hmissing)) fun engineNow v hknown =>
        hlive object observed none now engineNow v hfound hobserved hknown
    · exact herror _ _
  · exact safe_then (hl.hold .found (some previous) v'' hknown) fun engineNow v hknown =>
      hlive object observed (some previous) now engineNow v hfound hobserved hknown

end Looks

section Writes

variable {H : Hasher} {r : Reconciler}

/-- The rule of `UpsertIncident`: what is known once the upsert is answered, and once the row
is read back. -/
theorem safe_upsertIncident {incident : Incident} (Contended : σ → Prop)
    (Inserted : Bool → σ → Prop) (Placed : Incident → Bool → σ → Prop)
    (hinsert : Safe M C i (fun reply v => match reply with
      | .ok created => Inserted created v
      | .error err => err.is .duplicateKey = true → Contended v)
      (Eff.store (.incidentsUpsert incident)) w)
    (hupdate : ∀ v, Contended v → Safe M C i (fun reply v' => ∀ created, reply = .ok created →
      Inserted created v') (Eff.store (.incidentsUpdate incident)) v)
    (hread : ∀ created v, Inserted created v → Safe M C i (fun reply v' =>
      ∀ persisted, reply = .ok (some persisted) → Placed persisted created v')
      (Eff.store (.incidentsFindOne incident.clusterID incident.key)) v) :
    Safe M C i (fun reply v => ∀ persisted created, reply = .ok (persisted, created) →
      Placed persisted created v) (Mongo.upsertIncident incident) w := by
  have hinserted : Safe M C i (fun reply v => ∀ created, reply = .ok created →
      Inserted created v) (Mongo.insertIncident incident) w := by
    refine safe_then hinsert ?_
    rintro (err | created) v hv
    · dsimp only
      split_ifs with hdup
      · refine safe_then (hupdate v (hv hdup)) ?_
        rintro (err | created) v' hv'
        · exact fun _ h => by cases h
        · intro _ h
          cases h
          exact hv' created rfl
      · exact fun _ h => by cases h
    · intro _ h
      cases h
      exact hv
  unfold Mongo.upsertIncident
  split
  · exact fun _ _ h => by cases h
  refine safe_then hinserted ?_
  rintro (err | created) v hv
  · exact fun _ _ h => by cases h
  refine safe_then (hread created v (hv created rfl)) ?_
  rintro (err | _ | persisted) v' hv'
  · exact fun _ _ h => by cases h
  · exact fun _ _ h => by cases h
  · intro _ _ h
    cases h
    exact hv' persisted rfl

theorem safe_upsertSnapshot {incidentID : String} {snapshot : Snapshot} (K Saved : σ → Prop)
    (hupsert : Safe M C i (fun reply v => match reply with
      | .ok _ => Saved v
      | .error _ => K v) (Eff.store (.snapshotsUpsert incidentID snapshot)) w)
    (hfind : ∀ v, K v → Safe M C i (fun reply v' => ∀ row, reply = .ok (some row) → Saved v')
      (Eff.store (.snapshotsFindOne incidentID snapshot.contentHash)) v) :
    Safe M C i (fun reply v => ∀ row, reply = .ok row → Saved v)
      (Mongo.upsertSnapshot incidentID snapshot) w := by
  unfold Mongo.upsertSnapshot
  split_ifs
  · exact fun _ h => by cases h
  refine safe_then hupsert ?_
  rintro (err | row) v hv
  · dsimp only
    split_ifs
    · refine safe_then (hfind v hv) ?_
      rintro (err | _ | row) v' hv'
      · exact fun _ h => by cases h
      · exact fun _ h => by cases h
      · exact fun _ _ => hv' row rfl
    · exact fun _ h => by cases h
  · exact fun _ _ => hv

/-- The provider that is asked in a slot. -/
def slotName (r : Reconciler) : ProviderSlot → Option String
  | .primary => some r.primary
  | .fallback => r.fallback

/-- Everything `decide` can return, where `R` holds of the responses of the providers. -/
inductive Decides (H : Hasher) (r : Reconciler) (result : Rules.Result)
    (R : ProviderSlot → Provider.EvaluationResponse → Prop) : Decided → Prop
  | without (failed : Bool) :
      Decides H r result R ⟨r.composer.compose result StrMap.empty failed, none, none⟩
  | answered {slot : ProviderSlot} {response : Provider.EvaluationResponse}
      (hresponse : R slot response) (hname : slotName r slot = some response.provider)
      (hvalid : Provider.validateAnswers Triage.operationalTriageV1 response.answers = .ok ()) :
      Decides H r result R (r.conclude H result (some response))

theorem Decides.mono {result : Rules.Result}
    {R R' : ProviderSlot → Provider.EvaluationResponse → Prop} {decided : Decided}
    (h : Decides H r result R decided) (hR : ∀ slot response, R slot response → R' slot response) :
    Decides H r result R' decided := by
  cases h with
  | without failed => exact .without failed
  | answered hresponse hname hvalid => exact .answered (hR _ _ hresponse) hname hvalid

/-- The rule of `decide`: `K` is known while providers are asked, `R` of their responses. -/
theorem safe_decideResult {K : σ → Prop}
    {R : ProviderSlot → Provider.EvaluationResponse → σ → Prop}
    {snapshot : Snapshot} {result : Rules.Result} {incidentID : String}
    (hask : ∀ slot request v, K v → Safe M C i (fun reply v' =>
      K v' ∧ ∀ response, reply = .ok response → R slot response v')
      (Eff.evaluate slot request) v)
    (hw : K w) : Safe M C i (fun decided v => K v ∧ Decides H r result (R · · v) decided)
      (r.decideResult H snapshot result incidentID) w := by
  have hprovider : ∀ slot name request v, request.questions = Triage.operationalTriageV1 → K v →
      Safe M C i (fun found v' => K v' ∧ ∀ response, found = some response →
        R slot response v' ∧ response.provider = name ∧
          Provider.validateAnswers Triage.operationalTriageV1 response.answers = .ok ())
        (evaluateProvider slot name request) v := by
    intro slot name request v hquestions hv
    refine safe_then (hask slot request v hv) ?_
    rintro (err | response) v' ⟨hv', hresponse⟩
    · exact ⟨hv', fun _ h => by cases h⟩
    · dsimp only
      split_ifs with hname
      · exact ⟨hv', fun _ h => by cases h⟩
      · split
        · exact ⟨hv', fun _ h => by cases h⟩
        · rename_i hvalid
          refine ⟨hv', fun _ h => ?_⟩
          cases h
          rw [hquestions] at hvalid
          exact ⟨hresponse response rfl, not_not.mp (not_or.mp hname).1, hvalid⟩
  unfold decideResult
  split_ifs
  · exact ⟨hw, .without false⟩
  split
  · exact ⟨hw, .without true⟩
  rename_i state _
  have hconsult : ∀ request, request.questions = Triage.operationalTriageV1 →
      Safe M C i (fun found v => K v ∧ Decides H r result (R · · v) (r.conclude H result found))
        (r.consult request) w := by
    intro request hquestions
    refine safe_then (hprovider .primary r.primary request w hquestions hw) ?_
    rintro (_ | response) v ⟨hv, hresponse⟩
    · dsimp only
      split
      · exact ⟨hv, .without true⟩
      · rename_i name hfallback
        refine safe_mono ?_ _ _ (hprovider .fallback name request v hquestions hv)
        rintro (_ | response) v' ⟨hv', hresponse⟩
        · exact ⟨hv', .without true⟩
        · obtain ⟨hR, hname, hvalid⟩ := hresponse response rfl
          exact ⟨hv', .answered hR (hname ▸ hfallback) hvalid⟩
    · obtain ⟨hR, hname, hvalid⟩ := hresponse response rfl
      exact ⟨hv, .answered hR (congrArg some hname.symm) hvalid⟩
  exact safe_then (hconsult _ rfl) fun found v hfound => hfound

/-- The rule of the part of `persist` after the incident row is at hand. -/
theorem safe_record {incident : Incident} {created : Bool} {snapshot : Snapshot}
    {result : Rules.Result} {now : Time} (Saved : σ → Prop) (Held : Decided → σ → Prop)
    {Q : Except Err Unit → σ → Prop} (herror : ∀ err v, Q (.error err) v)
    (hsame : created = false → incident.contentHash = snapshot.contentHash →
      isRecovery result = false → Q (.ok ()) w)
    (hsnapshot : Safe M C i (fun reply v => ∀ row, reply = .ok row → Saved v)
      (Mongo.upsertSnapshot incident.id snapshot) w)
    (hdecide : ∀ v, Saved v → Safe M C i Held (r.decideResult H snapshot result incident.id) v)
    (hcommit : ∀ decided v, Held decided v →
      Safe M C i (fun reply v' => reply = .ok () → Q (.ok ()) v')
        (Eff.store (.commit (r.commitRequest H incident created snapshot result decided now))) v) :
    Safe M C i Q (r.record H incident created snapshot result now) w := by
  unfold record
  split_ifs with hgate
  · simp only [Bool.and_eq_true, Bool.not_eq_true', beq_iff_eq] at hgate
    exact hsame hgate.1.1 hgate.1.2 hgate.2
  refine safe_then hsnapshot ?_
  rintro (err | row) v hv
  · exact herror _ _
  refine safe_then (hdecide v (hv row rfl)) fun decided v' hheld => ?_
  have hcommitted : Safe M C i (fun reply v => reply = .ok () → Q (.ok ()) v)
      (Mongo.commit (r.commitRequest H incident created snapshot result decided now)) v' := by
    unfold Mongo.commit
    split
    · exact fun h => by cases h
    · refine safe_then (hcommit decided v' hheld) ?_
      rintro (err | _) v'' hv''
      · exact fun h => by cases h
      · exact fun _ => hv'' rfl
  refine safe_then hcommitted ?_
  rintro (err | _) v'' hv''
  · exact herror _ _
  · exact hv'' rfl

theorem safe_persist {p : Pending} (Placed : Incident → Bool → σ → Prop)
    {Q : Except Err Unit → σ → Prop} (herror : ∀ err v, Q (.error err) v)
    (hknown : ∀ incident, p.previous = some incident → Placed incident false w)
    (hupsert : p.previous = none → Safe M C i (fun reply v => ∀ incident created,
      reply = .ok (incident, created) → Placed incident created v)
      (Mongo.upsertIncident (r.placeholder H p.snapshot p.now)) w)
    (hrecord : ∀ incident created v, Placed incident created v →
      Safe M C i Q (r.record H incident created p.snapshot p.result p.now) v) :
    Safe M C i Q (r.persist H p.snapshot p.previous p.result p.now) w := by
  unfold persist
  split
  · rename_i incident hprevious
    exact hrecord incident false w (hknown incident hprevious)
  · rename_i hprevious
    refine safe_then (hupsert hprevious) ?_
    rintro (err | ⟨incident, created⟩) v hv
    · exact herror _ _
    · exact hrecord incident created v (hv incident created rfl)

section Reconcile

variable {key : ResourceKey} {Idle : Sight → σ → Prop} {Known : Sight → Option Incident → σ → Prop}

/-- What is left to show once the verdict is known. -/
def Ends (M : Machine ι Op Op.Reply σ) (C : Contract ι σ) (i : ι) (H : Hasher) (r : Reconciler)
    (Q : Except Err Controller.Result → σ → Prop) : Except Err Verdict → σ → Prop
  | .error _, _ => True
  | .ok (.settled result), v => Q (.ok result) v
  | .ok (.persist p), v => Safe M C i (fun reply v' => reply = .ok () → Q (.ok ⟨p.requeue⟩) v')
      (r.persist H p.snapshot p.previous p.result p.now) v

/-- The rule of `Reconcile`: one condition for each way to its end. -/
theorem safe_reconcile_cases (hl : Looks M C i H r key Idle Known)
    {Q : Except Err Controller.Result → σ → Prop} (herror : ∀ err v, Q (.error err) v)
    (hsettled : ∀ found result v, Known .found found v → Q (.ok result) v)
    (habsent : ∀ v, Known .gone none v → Q (.ok {}) v)
    (hresolved : ∀ incident v, Known .gone (some incident) v → incident.status = .resolved →
      Q (.ok {}) v)
    (hlive : ∀ object observed found now engineNow p v, Resolved key object →
      r.normalizer.normalize H object now = .ok observed →
      r.judge H observed found now engineNow = .persist p → Known .found found v →
      Safe M C i (fun reply v' => reply = .ok () → Q (.ok ⟨p.requeue⟩) v')
        (r.persist H p.snapshot p.previous p.result p.now) v)
    (hgone : ∀ incident now v, Known .gone (some incident) v → incident.status ≠ .resolved →
      Safe M C i (fun reply v' => reply = .ok () → Q (.ok {}) v')
        (r.persist H (r.deletionSnapshot H key now) (some incident) deletionResult now) v)
    (hw : Idle .unseen w) : Safe M C i Q (r.reconcile H key) w := by
  have hobserve : Safe M C i (Ends M C i H r Q) (r.observe H key) w := by
    refine safe_observe hl (fun _ _ => trivial) ?_ habsent hresolved hgone hw
    intro object observed found now engineNow v hfound hobserved hknown
    cases hjudge : r.judge H observed found now engineNow with
    | settled result => exact hsettled found result v hknown
    | persist p =>
      exact hlive object observed found now engineNow p v hfound hobserved hjudge hknown
  refine safe_then hobserve ?_
  rintro (err | result | p) v hv
  · exact herror err v
  · exact hv
  · refine safe_then hv ?_
    rintro (err | _) v' hv'
    · exact herror err v'
    · exact hv' rfl

theorem safe_reconcile (hl : Looks M C i H r key Idle Known)
    (hpersist : ∀ p sight v, Arises H r key p → Known sight p.previous v →
      Safe M C i (fun _ _ => True) (r.persist H p.snapshot p.previous p.result p.now) v)
    (hw : Idle .unseen w) : Safe M C i (fun _ _ => True) (r.reconcile H key) w := by
  refine safe_reconcile_cases hl (fun _ _ => trivial) (fun _ _ _ _ => trivial)
    (fun _ _ => trivial) (fun _ _ _ _ => trivial) ?_ ?_ hw
  · intro object observed found now engineNow p v hfound hobserved hjudge hknown
    rw [← (judge_eq_persist hjudge).2.1] at hknown
    refine safe_mono ?_ _ _ (hpersist p .found v (.live hfound hobserved hjudge) hknown)
    exact fun _ _ _ _ => trivial
  · intro incident now v hknown hstatus
    refine safe_mono ?_ _ _ (hpersist _ .gone v (.gone now hstatus) hknown)
    exact fun _ _ _ _ => trivial

end Reconcile

/-- The store operations of `Reconcile`, whatever it is answered. -/
inductive Issues (H : Hasher) (r : Reconciler) (key : ResourceKey) : StoreOp → Prop
  | readIncident (clusterID incidentID : String) :
      Issues H r key (.incidentsFindOne clusterID incidentID)
  | insertIncident (snapshot : Snapshot) (now : Time) :
      Issues H r key (.incidentsUpsert (r.placeholder H snapshot now))
  | retryIncident (incident : Incident) : Issues H r key (.incidentsUpdate incident)
  | insertSnapshot (incidentID : String) {p : Pending} (hp : Arises H r key p) :
      Issues H r key (.snapshotsUpsert incidentID p.snapshot)
  | readSnapshot (incidentID hash : String) : Issues H r key (.snapshotsFindOne incidentID hash)
  | commit (incident : Incident) (created : Bool) (decided : Decided) {p : Pending}
      (hp : Arises H r key p) : Issues H r key
        (.commit (r.commitRequest H incident created p.snapshot p.result decided p.now))

/-- The store operations of `Reconcile`, where `R` holds of the responses of the providers. -/
inductive IssuesWith (H : Hasher) (r : Reconciler) (key : ResourceKey)
    (R : ProviderSlot → Provider.EvaluationResponse → Prop) : StoreOp → Prop
  | other {op : StoreOp} (h : Issues H r key op) (hop : ∀ request, op ≠ .commit request) :
      IssuesWith H r key R op
  | commit (incident : Incident) (created : Bool) {decided : Decided} {p : Pending}
      (hp : Arises H r key p) (hdecided : Decides H r p.result R decided) :
      IssuesWith H r key R
        (.commit (r.commitRequest H incident created p.snapshot p.result decided p.now))

theorem IssuesWith.issues {key : ResourceKey}
    {R : ProviderSlot → Provider.EvaluationResponse → Prop} {op : StoreOp}
    (h : IssuesWith H r key R op) : Issues H r key op := by
  cases h with
  | other h _ => exact h
  | commit incident created hp _ => exact .commit incident created _ hp

/-- An invariant that each of these operations keeps is kept by `Reconcile`. -/
theorem safe_issuesWith {key : ResourceKey}
    {R : ProviderSlot → Provider.EvaluationResponse → σ → Prop}
    (houtside : ∀ op v, op.outside → Safe M C i (fun _ _ => True) (Prog.perform op) v)
    (hask : ∀ slot request v, Safe M C i (fun reply v' => ∀ response, reply = .ok response →
      R slot response v') (Eff.evaluate slot request) v)
    (hissues : ∀ op v, IssuesWith H r key (R · · v) op →
      Safe M C i (fun _ _ => True) (Eff.store op) v) :
    Safe M C i (fun _ _ => True) (r.reconcile H key) w := by
  have hdrop : ∀ {op : StoreOp} {Q : Except Err op.Out → σ → Prop} {v : σ},
      Issues H r key op → (∀ request, op ≠ .commit request) → (∀ a v', Q a v') →
      Safe M C i Q (Eff.store op) v := by
    intro op Q v hop hne hQ
    exact safe_mono (fun a v' _ => hQ a v') _ _ (hissues op v (.other hop hne))
  have hl : Looks M C i H r key (fun _ _ => True) (fun _ _ _ => True) := by
    refine ⟨fun v _ => houtside _ v trivial, fun _ v _ => houtside .now v trivial,
      fun _ _ _ v _ _ => hdrop (.readIncident _ _) (fun _ h => by cases h) ?_,
      fun _ _ v _ => houtside .now v trivial⟩
    rintro (err | found) v'
    · exact fun _ => trivial
    · trivial
  refine safe_reconcile hl (fun p _ v hp _ => ?_) trivial
  refine safe_persist (fun _ _ _ => True) (fun _ _ => trivial) (fun _ _ => trivial)
    (fun _ => ?_) (fun incident created v _ => ?_)
  · refine safe_upsertIncident (fun _ => True) (fun _ _ => True) (fun _ _ _ => True)
      (hdrop (.insertIncident _ _) (fun _ h => by cases h) ?_)
      (fun v _ => hdrop (.retryIncident _) (fun _ h => by cases h) fun _ _ _ _ => trivial)
      (fun _ v _ => hdrop (.readIncident _ _) (fun _ h => by cases h) fun _ _ _ _ => trivial)
    rintro (err | created) v'
    · exact fun _ => trivial
    · trivial
  · refine safe_record (fun _ => True)
      (fun decided v => True ∧ Decides H r p.result (R · · v) decided) (fun _ _ => trivial)
      (fun _ _ _ => trivial) ?_ (fun v _ => ?_) (fun decided v hdecided => ?_)
    · refine safe_upsertSnapshot (fun _ => True) (fun _ => True)
        (hdrop (.insertSnapshot _ hp) (fun _ h => by cases h) ?_)
        (fun v _ => hdrop (.readSnapshot _ _) (fun _ h => by cases h) fun _ _ _ _ => trivial)
      rintro (err | row) v' <;> trivial
    · refine safe_decideResult (fun slot request v' _ => ?_) trivial
      exact safe_mono (fun _ _ h => ⟨trivial, h⟩) _ _ (hask slot request v')
    · refine safe_mono ?_ _ _ (hissues _ v (.commit incident created hp hdecided.2))
      exact fun _ _ _ _ => trivial

theorem safe_issues {key : ResourceKey}
    (houtside : ∀ op v, op.outside → Safe M C i (fun _ _ => True) (Prog.perform op) v)
    (hissues : ∀ op v, Issues H r key op → Safe M C i (fun _ _ => True) (Eff.store op) v) :
    Safe M C i (fun _ _ => True) (r.reconcile H key) w := by
  refine safe_issuesWith (R := fun _ _ _ => True) houtside (fun slot request v => ?_)
    fun op v hop => hissues op v hop.issues
  exact safe_mono (fun _ _ _ _ _ => trivial) _ _ (houtside (.evaluate slot request) v trivial)

end Writes

end RuleRaven.Controller.Reconciler

namespace RuleRaven

open Framework Controller Notify

variable {ι : Type} {H : Hasher}

/-- The store operations of a task. -/
inductive Task.Issues (H : Hasher) : Task → StoreOp → Prop
  | reconcile {r : Reconciler} {key : Kube.ResourceKey} {op : StoreOp}
      (h : Reconciler.Issues H r key op) : Issues H (.reconcile r key) op
  | dispatch (d : Dispatcher) {op : StoreOp} (h : dispatches (.store op)) :
      Issues H (.dispatch d) op

section Tasks

variable {guard : ι → Op → World ι → Prop} {inv : World ι → Prop} {i : ι} {w : World ι}

/-- A call of a task keeps an invariant that each of its store operations keeps. -/
theorem keeps_call {O : StoreOp → Prop}
    (houtside : ∀ v op reply, Op.outside op → guard i op v → inv v →
      inv (v.extend i op reply v.store))
    (hstore : ∀ v op reply s', O op → guard i (.store op) v → inv v →
      StoreAnswer v.store op reply s' → inv (v.extend i (.store op) reply s'))
    (op : Op) (v : World ι) (hop : ∀ o, op = .store o → O o) :
    Keeps guard inv i (fun _ _ => True) (Prog.perform op) v := by
  refine keeps_perform (stable_const i True)
    (fun v reply s' hinv _ hguard hanswer => ⟨?_, trivial⟩) trivial
  by_cases hout : op.outside
  · obtain rfl := hanswer.outside hout
    exact houtside v op reply hout hguard hinv
  · cases op with
    | store op => exact hstore v op reply s' (hop op rfl) hguard hinv hanswer
    | _ => exact absurd trivial hout

theorem keeps_reconcile (r : Reconciler) (key : Kube.ResourceKey)
    (houtside : ∀ v op reply, Op.outside op → guard i op v → inv v →
      inv (v.extend i op reply v.store))
    (hstore : ∀ v op reply s', Reconciler.Issues H r key op → guard i (.store op) v → inv v →
      StoreAnswer v.store op reply s' → inv (v.extend i (.store op) reply s')) :
    Keeps guard inv i (fun _ _ => True) (r.reconcile H key) w := by
  refine Reconciler.safe_issues (fun op v hout => keeps_call houtside hstore op v ?_)
    (fun op v hop => keeps_call houtside hstore (.store op) v ?_)
  · rintro o rfl
    exact hout.elim
  · rintro o ⟨⟩
    exact hop

/-- A task keeps an invariant that each of its store operations keeps. -/
theorem keeps_task (task : Task)
    (houtside : ∀ v op reply, Op.outside op → guard i op v → inv v →
      inv (v.extend i op reply v.store))
    (hstore : ∀ v op reply s', task.Issues H op → guard i (.store op) v → inv v →
      StoreAnswer v.store op reply s' → inv (v.extend i (.store op) reply s')) :
    Keeps guard inv i (fun _ _ => True) (task.prog H) w := by
  cases task with
  | reconcile r key =>
    exact keeps_bind (keeps_reconcile r key houtside fun v op reply s' hop =>
      hstore v op reply s' (.reconcile hop)) fun _ _ _ => keeps_ret trivial
  | dispatch d =>
    have hdispatches : ∀ {α : Type} (p : Eff α) (v : World ι), p.Only dispatches →
        Keeps guard inv i (fun _ _ => True) p v := by
      intro α p
      induction p with
      | ret a => exact fun _ _ => trivial
      | call op next ih =>
        intro v hp
        refine keeps_bind (keeps_call houtside hstore op v ?_) fun reply v' _ =>
          ih reply v' (hp.2 reply)
        rintro o rfl
        exact .dispatch d hp.1
    exact keeps_bind (hdispatches _ w d.dispatchOne_only) fun _ _ _ => keeps_ret trivial

end Tasks

/-- An invariant that every store operation of the tasks keeps holds along every run. -/
theorem runs_issued {tasks : ι → Task → Prop} {guard : ι → Op → World ι → Prop}
    {inv : World ι → Prop} (hinit : ∀ t, inv { clock := t })
    (hclock : ∀ w t, w.clock ≤ t → inv w → inv { w with clock := t })
    (hgone : ∀ w gone, inv w → (∀ i ∈ w.gone, i ∈ gone) → inv { w with gone := gone })
    (houtside : ∀ i v op reply, Op.outside op → guard i op v → inv v →
      inv (v.extend i op reply v.store))
    (hstore : ∀ i task v op reply s', tasks i task → task.Issues H op → guard i (.store op) v →
      inv v → StoreAnswer v.store op reply s' → inv (v.extend i (.store op) reply s'))
    {t : Time} {c : Framework.Config ι Op Op.Reply Unit (World ι)}
    (hrun : Runs H tasks guard (initial ι t) c) : inv c.state :=
  runs_keep hinit hclock hgone (fun i task _ htask _ _ => keeps_task task (houtside i)
    fun v op reply s' => hstore i task v op reply s' htask) hrun

end RuleRaven
