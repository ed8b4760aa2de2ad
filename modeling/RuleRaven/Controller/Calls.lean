import RuleRaven.Controller.Reconciler

namespace RuleRaven.Controller.Reconciler

open Framework Kube Provider Rules

/-- The calls by which `Reconcile` looks at the world. -/
def reads : Op → Prop
  | .kubeGet _ _ _ | .now | .store (.incidentsFindOne _ _) => True
  | _ => False

/-- The calls that only ask a provider. -/
def asksProvider : Op → Prop
  | .evaluate _ _ => True
  | _ => False

/-- All calls of `Reconcile`. The outbox gets pending deliveries by a commit, and the rest of it
is left to the dispatchers. -/
def records : Op → Prop
  | .store (.commit request) => ∀ d ∈ request.deliveries, d.status = .pending
  | .store (.outboxClaim _) | .store (.outboxComplete _) | .store (.outboxReschedule _) => False
  | .deliver _ _ => False
  | _ => True

/-- The same calls, told apart from those that would enter a delivery as tried. -/
def enlists : Op → Prop
  | .store (.commit request) => ∀ d ∈ request.deliveries, d.status = .pending ∧ d.attempts = 0
  | .store (.outboxClaim _) | .store (.outboxComplete _) | .store (.outboxReschedule _) => False
  | .deliver _ _ => False
  | _ => True

theorem records_of_enlists {op : Op} (h : enlists op) : records op := by
  cases op with
  | store op =>
    cases op with
    | commit request => exact fun d hd => (h d hd).1
    | _ => first | exact h.elim | trivial
  | deliver destination envelope => exact h.elim
  | _ => trivial

theorem enlists_of_reads {op : Op} (h : reads op) : enlists op := by
  cases op with
  | store op => cases op <;> first | exact h.elim | trivial
  | deliver destination envelope => exact h.elim
  | _ => trivial

theorem enlists_of_asksProvider {op : Op} (h : asksProvider op) : enlists op := by
  cases op <;> first | exact h.elim | trivial

variable (H : Hasher) (r : Reconciler)

section Reads

theorem getIncident_only (clusterID key : String) :
    Prog.Only reads (Mongo.getIncident clusterID key) := by
  unfold Mongo.getIncident
  split_ifs
  · trivial
  · refine Prog.only_bind (Eff.only_store trivial) fun reply => ?_
    rcases reply with err | _ | incident <;> trivial

theorem observeDeletion_only (key : ResourceKey) :
    Prog.Only reads (r.observeDeletion H key) := by
  refine Prog.only_bind (getIncident_only _ _) fun reply => ?_
  cases reply with
  | error err =>
    dsimp only
    split_ifs <;> trivial
  | ok previous =>
    dsimp only
    split_ifs
    · trivial
    · exact Prog.only_bind (Eff.only_now trivial) fun _ => trivial

/-- Up to `persist`, `Reconcile` only reads. -/
theorem observe_only (key : ResourceKey) : Prog.Only reads (r.observe H key) := by
  unfold observe
  split
  · trivial
  · refine Prog.only_bind (resolve_only (fun _ _ _ => trivial) key) fun resolved => ?_
    cases resolved with
    | error err =>
      dsimp only
      split_ifs
      · exact observeDeletion_only H r key
      · trivial
    | ok object =>
      refine Prog.only_bind (Eff.only_now trivial) fun now => ?_
      split
      · trivial
      · refine Prog.only_bind (getIncident_only _ _) fun reply => ?_
        cases reply with
        | ok previous => exact Prog.only_bind (Eff.only_now trivial) fun _ => trivial
        | error err =>
          dsimp only
          split_ifs
          · exact Prog.only_bind (Eff.only_now trivial) fun _ => trivial
          · trivial

end Reads

section Providers

theorem evaluateProvider_only (slot : ProviderSlot) (name : String)
    (request : EvaluationRequest) :
    Prog.Only asksProvider (evaluateProvider slot name request) := by
  refine Prog.only_bind (Eff.only_evaluate trivial) fun reply => ?_
  cases reply with
  | error err => trivial
  | ok response =>
    dsimp only
    split_ifs
    · trivial
    · split <;> trivial

theorem consult_only (request : EvaluationRequest) :
    Prog.Only asksProvider (r.consult request) := by
  refine Prog.only_bind (evaluateProvider_only _ _ _) fun first => ?_
  cases first with
  | some response => trivial
  | none =>
    dsimp only
    split
    · trivial
    · exact evaluateProvider_only _ _ _

theorem decideResult_only (snapshot : Snapshot) (result : Rules.Result) (incidentID : String) :
    Prog.Only asksProvider (r.decideResult H snapshot result incidentID) := by
  unfold decideResult
  split_ifs
  · trivial
  · split
    · trivial
    · exact Prog.only_bind (consult_only r _) fun _ => trivial

end Providers

section Writes

variable {H r}

theorem mem_deliveries {i : Incident} {snapshot : Snapshot} {evaluationID : String}
    {eventType : EventType} {decision : Decision} {status : IncidentStatus} {now : Time}
    {d : Notification}
    (h : d ∈ r.deliveries H i snapshot evaluationID eventType decision status now) :
    ∃ destination ∈ r.destinations, d =
      { id := deliveryID H evaluationID destination eventType
        evaluationID := evaluationID
        destinationID := destination
        eventType := eventType
        nextAttemptAt := now
        payload := payload i.id evaluationID status decision snapshot } := by
  unfold deliveries at h
  split_ifs at h
  · cases h
  · obtain ⟨destination, hd, rfl⟩ := List.mem_map.mp h
    exact ⟨destination, hd, rfl⟩

section Persist

variable {P : Op → Prop} {snapshot : Snapshot} {result : Rules.Result} {now : Time}

theorem record_only {incident : Incident} {created : Bool} (hask : ∀ op, asksProvider op → P op)
    (hupsert : P (.store (.snapshotsUpsert incident.id snapshot)))
    (hfind : P (.store (.snapshotsFindOne incident.id snapshot.contentHash)))
    (hcommit : ∀ decided,
      P (.store (.commit (r.commitRequest H incident created snapshot result decided now)))) :
    Prog.Only P (r.record H incident created snapshot result now) := by
  unfold record
  split_ifs
  · trivial
  refine Prog.only_bind (Mongo.upsertSnapshot_only _ _ hupsert hfind) fun reply => ?_
  cases reply with
  | error err => trivial
  | ok row =>
    refine Prog.only_bind (Prog.only_mono hask
      (decideResult_only H r snapshot result incident.id)) fun decided => ?_
    refine Prog.only_bind (Mongo.commit_only _ (hcommit decided)) fun reply => ?_
    cases reply <;> trivial

theorem persist_only {previous : Option Incident}
    (hopen : Prog.Only P (Mongo.upsertIncident (r.placeholder H snapshot now)))
    (hrecord : ∀ incident created, Prog.Only P (r.record H incident created snapshot result now)) :
    Prog.Only P (r.persist H snapshot previous result now) := by
  unfold persist
  split
  · exact hrecord _ _
  · refine Prog.only_bind hopen fun reply => ?_
    rcases reply with err | ⟨incident, created⟩
    · trivial
    · exact hrecord incident created

end Persist

theorem reconcile_enlists (key : ResourceKey) : Prog.Only enlists (r.reconcile H key) := by
  refine Prog.only_bind (Prog.only_mono (fun _ => enlists_of_reads) (observe_only H r key))
    fun verdict => ?_
  rcases verdict with err | result | p
  · trivial
  · trivial
  · refine Prog.only_bind (persist_only (Mongo.upsertIncident_only _ trivial trivial trivial)
      fun incident created => ?_) fun reply => by cases reply <;> trivial
    refine record_only (fun _ => enlists_of_asksProvider) trivial trivial fun decided => ?_
    intro d hd
    obtain ⟨destination, -, rfl⟩ := mem_deliveries hd
    exact ⟨rfl, rfl⟩

theorem reconcile_only (key : ResourceKey) : Prog.Only records (r.reconcile H key) :=
  Prog.only_mono (fun _ => records_of_enlists) (reconcile_enlists key)

end Writes

end RuleRaven.Controller.Reconciler
