import RuleRaven.Decision.Composer
import RuleRaven.Kube.Resolver
import RuleRaven.Store.Client

namespace RuleRaven.Controller

open Framework Kube Provider Rules Triage

/-- What `NewReconciler` is given. The resolver, the store, the clock and the ID generator are
the production ones; a missing primary provider is `none`. -/
structure Config where
  clusterID : String
  normalizer : Normalizer
  rules : Engine
  primary : Option String
  fallback : Option String := none
  composer : Composer := newComposer
  providerConfigHash : String := ""
  destinations : List String := []
  reconcileTimeout : Duration
  eventQuietPeriod : Duration

/-- A reconciler: `NewReconciler` accepts nothing else. -/
structure Reconciler where
  clusterID : String
  normalizer : Normalizer
  rules : Engine
  primary : String
  fallback : Option String
  composer : Composer
  providerConfigHash : String
  destinations : List String
  eventQuietPeriod : Duration
  clusterID_visible : isBlank clusterID = false
  destinations_visible : ∀ d ∈ destinations, isBlank d = false
  destinations_increasing : destinations.Pairwise (· < ·)
  eventQuietPeriod_pos : 0 < eventQuietPeriod

/-- The destination loop: none blank, none equal to the one before it. -/
def checkDestinations : List String → Bool
  | [] => true
  | [d] => !isBlank d
  | d :: e :: ds => !isBlank d && d != e && checkDestinations (e :: ds)

theorem checkDestinations_visible {ds : List String} (h : checkDestinations ds = true) :
    ∀ d ∈ ds, isBlank d = false := by
  induction ds using checkDestinations.induct with
  | case1 => simp
  | case2 d => simpa [checkDestinations] using h
  | case3 d e ds ih =>
    simp only [checkDestinations, Bool.and_eq_true, Bool.not_eq_true'] at h
    intro x hx
    rcases List.mem_cons.mp hx with rfl | hx
    · exact h.1.1
    · exact ih h.2 x hx

theorem checkDestinations_increasing {ds : List String} (hsorted : ds.Pairwise (· ≤ ·))
    (h : checkDestinations ds = true) : ds.Pairwise (· < ·) := by
  induction ds using checkDestinations.induct with
  | case1 => exact List.Pairwise.nil
  | case2 d => exact List.pairwise_singleton _ _
  | case3 d e ds ih =>
    simp only [checkDestinations, Bool.and_eq_true, bne_iff_ne] at h
    have hrest := ih (List.pairwise_cons.mp hsorted).2 h.2
    have hde : d < e :=
      lt_of_le_of_ne ((List.pairwise_cons.mp hsorted).1 e (List.mem_cons_self)) h.1.2
    refine List.pairwise_cons.mpr ⟨fun x hx => ?_, hrest⟩
    rcases List.mem_cons.mp hx with rfl | hx
    · exact hde
    · exact hde.trans ((List.pairwise_cons.mp hrest).1 x hx)

theorem sortSlice_strings_sorted (items : List String) :
    (sortSlice (fun a b => decide (a < b)) items).Pairwise (· ≤ ·) := by
  refine (sortSlice_sorted (fun a b : String => decide (a < b)) ?_ ?_ items).imp ?_ <;>
    simp only [decide_eq_false_iff_not, not_lt]
  · exact fun a b => le_total a b
  · exact fun a b c => le_trans
  · exact fun h => h

def newReconciler (config : Config) : Except Err Reconciler :=
  if hc : isBlank config.clusterID = true then
    .error ⟨"reconciler cluster, resolver, normalizer, rules, and store are required", none⟩
  else match config.primary with
    | none => .error ⟨"reconciler primary provider is required", none⟩
    | some primary =>
      if hq : config.reconcileTimeout ≤ 0 ∨ config.eventQuietPeriod ≤ 0 then
        .error ⟨"reconciler timeout, event quiet period, clock, and ID generator are required",
          none⟩
      else
        let destinations := sortSlice (· < ·) config.destinations
        if hd : checkDestinations destinations = true then .ok
          { clusterID := config.clusterID
            normalizer := config.normalizer
            rules := config.rules
            primary := primary
            fallback := config.fallback
            composer := config.composer
            providerConfigHash := config.providerConfigHash
            destinations := destinations
            eventQuietPeriod := config.eventQuietPeriod
            clusterID_visible := by simpa using hc
            destinations_visible := checkDestinations_visible hd
            destinations_increasing :=
              checkDestinations_increasing (sortSlice_strings_sorted _) hd
            eventQuietPeriod_pos := by
              simp only [not_or, Int64.not_le] at hq
              exact hq.2 }
        else .error ⟨"reconciler destinations must be non-empty and unique", none⟩

/-- What `NewReconciler` keeps of what it is given. -/
theorem newReconciler_eq_ok {config : Config} {r : Reconciler} (h : newReconciler config = .ok r) :
    r.clusterID = config.clusterID ∧ r.normalizer = config.normalizer ∧
      r.rules = config.rules ∧ r.composer = config.composer ∧
      r.destinations = sortSlice (· < ·) config.destinations := by
  unfold newReconciler at h
  split at h
  · cases h
  split at h
  · cases h
  split at h
  · cases h
  dsimp only at h
  split at h
  · cases h
    exact ⟨rfl, rfl, rfl, rfl, rfl⟩
  · cases h

structure Result where
  requeueAfter : Duration := 0
  deriving DecidableEq, Repr

def stableID (H : Hasher) (seed : String) : String := H.hex seed

/-- A recovery, be it of the condition or by deletion, is told by the ID of its match. -/
def isRecovery (result : Rules.Result) : Bool :=
  result.matched.any fun m => m.ruleID == "recovered" || m.ruleID == "resource-deleted"

def statusFor (result : Rules.Result) : IncidentStatus :=
  if isRecovery result then .resolved
  else if result.disposition = .suppress then .suppressed
  else .open

def eventRequeue (snapshot : Snapshot) (now : Time) (result : Rules.Result)
    (quietPeriod : Duration) : Duration :=
  match snapshot.event with
  | none => 0
  | some event =>
    if result.disposition ≠ .semantic ∨ event.lastObserved.isZero then 0
    else
      let remaining := Time.sub (event.lastObserved.add quietPeriod) now
      if remaining ≤ 0 then 1000000 else remaining

def auditHash (H : Hasher) (value : String) : String :=
  if value = "" then "" else "sha256:" ++ H.hex value

def isModelChar (c : Char) : Bool := c.isAlphanum || (chars "-._:/").contains c

/-- The resolved model where it is the requested one, possibly dated or qualified, in plain
characters. -/
def trustedResolvedModel (requested resolved : String) : String :=
  if resolved = "" ∨ 256 < resolved.utf8ByteSize then ""
  else if !(resolved == requested || ["-", ".", ":", "/"].any fun separator =>
      (chars (requested ++ separator)).isPrefixOf (chars resolved)) then ""
  else if (chars resolved).all isModelChar then resolved
  else ""

namespace Reconciler

variable (H : Hasher) (r : Reconciler)

/-- The error of a provider is only logged, so its absence stands for it. -/
def evaluateProvider (slot : ProviderSlot) (name : String) (request : EvaluationRequest) :
    Eff (Option EvaluationResponse) := do
  match ← Eff.evaluate slot request with
  | .error _ => pure none
  | .ok response =>
    if response.provider ≠ name ∨ isBlank response.requestedModel then pure none
    else match validateAnswers request.questions response.answers with
      | .error _ => pure none
      | .ok () => pure (some response)

def providerAudit (response : EvaluationResponse) : ProviderAudit where
  provider := response.provider
  requestedModel := response.requestedModel
  resolvedModel := trustedResolvedModel response.requestedModel response.resolvedModel
  resolvedModelHash := auditHash H response.resolvedModel
  providerRequestIDHash := auditHash H response.providerRequestID
  usage := response.usage
  latency := response.latency
  attempts := response.attempts
  rawResponseHash := response.rawResponseHash

/-- The decision, the answers and the audit record that an evaluation stores. -/
structure Decided where
  decision : Decision
  answers : Option (StrMap Answer) := none
  audit : Option ProviderAudit := none

/-- The fallback is asked only where there is one and the primary failed. -/
def consult (request : EvaluationRequest) : Eff (Option EvaluationResponse) := do
  match ← evaluateProvider .primary r.primary request with
  | some response => pure (some response)
  | none =>
    match r.fallback with
    | none => pure none
    | some name => evaluateProvider .fallback name request

/-- What a response, or the failure of every provider, comes to. -/
def conclude (result : Rules.Result) : Option EvaluationResponse → Decided
  | none => ⟨r.composer.compose result StrMap.empty true, none, none⟩
  | some response => ⟨r.composer.compose result response.answers false, some response.answers,
      some (providerAudit H response)⟩

/-- `decide`: only a semantic result asks a provider. -/
def decideResult (snapshot : Snapshot) (result : Rules.Result) (incidentID : String) :
    Eff Decided :=
  if result.disposition ≠ .semantic then
    pure ⟨r.composer.compose result StrMap.empty false, none, none⟩
  else match snapshot.toJson with
    | none => pure ⟨r.composer.compose result StrMap.empty true, none, none⟩
    | some state => do
      let response ← r.consult
        { state := state.marshal
          questions := operationalTriageV1
          rubricVersion := result.questionSet
          requestID := stableID H ("request\x00" ++ incidentID ++ "\x00" ++ snapshot.contentHash) }
      pure (r.conclude H result response)

def policyVersion (result : Rules.Result) : String :=
  result.policyVersion ++ "+" ++ r.composer.policyVersion

/-- The identity of the evaluation that a snapshot and a rule result lead to. -/
def identity (incidentID : String) (snapshot : Snapshot) (result : Rules.Result) : Identity :=
  ⟨incidentID, snapshot.contentHash, r.policyVersion result, result.questionSet,
    r.providerConfigHash⟩

/-- `strings.Join(parts, "\x00")`. -/
def joinNul : List String → String
  | [] => ""
  | [part] => part
  | part :: parts => part ++ "\x00" ++ joinNul parts

def evaluationID (identity : Identity) : String :=
  stableID H ("evaluation\x00" ++ joinNul [identity.incidentID, identity.snapshotHash,
    identity.policyVersion, identity.rubricVersion, identity.providerConfigHash])

def deliveryID (evaluationID destination : String) (eventType : EventType) : String :=
  stableID H (joinNul ["delivery", evaluationID, destination, eventType.text])

/-- The payload of a notification, absent when the time it reports has no RFC 3339 form. -/
def payload (incidentID evaluationID : String) (status : IncidentStatus) (decision : Decision)
    (snapshot : Snapshot) : Option RawMessage :=
  snapshot.observedAt.format.map fun observedAt => Json.raw <| .obj
    [("incident_id", .str incidentID), ("evaluation_id", .str evaluationID),
      ("status", .str status.text), ("severity", .str decision.severity.text),
      ("action", .str decision.action.text), ("summary", .str decision.summary),
      ("resource", snapshot.source.toJson), ("rule_ids", .arr (decision.ruleIDs.map .str)),
      ("reason_codes", .arr (decision.reasonCodes.map .str)), ("observed_at", .str observedAt)]

/-- One notification per destination, for a resolution or a decision to notify or page. -/
def deliveries (incident : Incident) (snapshot : Snapshot) (evaluationID : String)
    (eventType : EventType) (decision : Decision) (status : IncidentStatus) (now : Time) :
    List Notification :=
  if status ≠ .resolved ∧ decision.action ≠ .notify ∧ decision.action ≠ .page then []
  else r.destinations.map fun destination =>
    { id := deliveryID H evaluationID destination eventType
      evaluationID := evaluationID
      destinationID := destination
      eventType := eventType
      nextAttemptAt := now
      payload := payload incident.id evaluationID status decision snapshot }

/-- The incident as the commit writes it. -/
def transition (incident : Incident) (snapshot : Snapshot) (result : Rules.Result) (now : Time) :
    Incident :=
  { incident with
    source := snapshot.source
    status := statusFor result
    contentHash := snapshot.contentHash
    updatedAt := now
    resolvedAt := if statusFor result = .resolved then some now else none }

def eventTypeFor (created : Bool) (result : Rules.Result) : EventType :=
  if statusFor result = .resolved then .resolved else if created then .opened else .updated

/-- Everything that is committed for an incident as read, `created` by this very call or not. -/
def commitRequest (incident : Incident) (created : Bool) (snapshot : Snapshot)
    (result : Rules.Result) (decided : Decided) (now : Time) : CommitRequest :=
  let changed := transition incident snapshot result now
  let identity := r.identity incident.id snapshot result
  let id := evaluationID H identity
  { incident := changed
    expectedVersion := incident.version
    evaluation :=
      { id := id
        incidentID := incident.id
        snapshotHash := snapshot.contentHash
        policyVersion := identity.policyVersion
        rubricVersion := identity.rubricVersion
        providerConfigHash := identity.providerConfigHash
        decision := decided.decision
        answers := decided.answers
        providerAudit := decided.audit
        createdAt := now }
    deliveries := r.deliveries H changed snapshot id (eventTypeFor created result)
      decided.decision (statusFor result) now }

/-- The row that `persist` opens for a resource without an incident. -/
def placeholder (snapshot : Snapshot) (now : Time) : Incident :=
  let key := incidentKey H snapshot.source
  { id := stableID H ("incident\x00" ++ key), key := key, clusterID := r.clusterID,
    source := snapshot.source, status := .open, openedAt := now, updatedAt := now, version := 1 }

/-- The part of `persist` after the incident row is at hand. -/
def record (incident : Incident) (created : Bool) (snapshot : Snapshot) (result : Rules.Result)
    (now : Time) : Eff (Except Err Unit) :=
  if !created && incident.contentHash == snapshot.contentHash && !isRecovery result then
    pure (.ok ())
  else do
    match ← Mongo.upsertSnapshot incident.id snapshot with
    | .error err => pure (.error (err.wrap "upsert snapshot"))
    | .ok _ =>
      let decided ← r.decideResult H snapshot result incident.id
      match ← Mongo.commit (r.commitRequest H incident created snapshot result decided now) with
      | .error err => pure (.error (err.wrap "commit incident evaluation and outbox"))
      | .ok () => pure (.ok ())

def persist (snapshot : Snapshot) (previous : Option Incident) (result : Rules.Result)
    (now : Time) : Eff (Except Err Unit) :=
  match previous with
  | some incident => r.record H incident false snapshot result now
  | none => do
    match ← Mongo.upsertIncident (r.placeholder H snapshot now) with
    | .error err => pure (.error (err.wrap "upsert incident"))
    | .ok (incident, created) => r.record H incident created snapshot result now

/-- An observation that goes on to `persist`, with the requeue that follows success. -/
structure Pending where
  snapshot : Snapshot
  previous : Option Incident
  result : Rules.Result
  now : Time
  requeue : Duration
  deriving DecidableEq

/-- What `Reconcile` makes of an observation: there is nothing to do, or it is persisted. -/
inductive Verdict where
  | settled (result : Controller.Result)
  | persist (p : Pending)
  deriving DecidableEq

/-- The snapshot of an event that has been quiet for the quiet period. -/
def quietSnapshot (snapshot : Snapshot) : Snapshot :=
  let elapsed : Condition :=
    { type := "QuietPeriodElapsed", status := "True", reason := "EventQuietPeriod" }
  let quiet := { snapshot with conditions := snapshot.conditions ++ [elapsed] }
  { quiet with contentHash := contentHash H quiet }

/-- The snapshot that a rule result is persisted with. -/
def resultSnapshot (snapshot : Snapshot) (result : Rules.Result) : Snapshot :=
  if isRecovery result && snapshot.event.isSome then quietSnapshot H snapshot else snapshot

/-- `Reconcile` from the rule evaluation on, with the three early returns before `persist`.
The engine reads its clock after the reconciler has read its own. -/
def judge (observed : Snapshot) (previous : Option Incident) (now engineNow : Time) : Verdict :=
  let result := r.rules.evaluate engineNow observed previous
  let snapshot := resultSnapshot H observed result
  let requeue := eventRequeue snapshot now result r.eventQuietPeriod
  if previous.any (fun i => i.contentHash == snapshot.contentHash) && !isRecovery result then
    .settled ⟨requeue⟩
  else if result.disposition = .noMatch ∧ previous = none then .settled ⟨requeue⟩
  else if previous.any (fun i => i.status == .resolved) && result.disposition == .noMatch then
    .settled ⟨0⟩
  else .persist ⟨snapshot, previous, result, now, requeue⟩

/-- The snapshot of a resource that is gone. -/
def deletionSnapshot (key : ResourceKey) (now : Time) : Snapshot :=
  let deleted : Snapshot :=
    { source := key.source r.clusterID, observedAt := now,
      conditions := [{ type := "Deleted", status := "True", reason := "ResourceDeleted" }] }
  { deleted with contentHash := contentHash H deleted }

def deletionResult : Rules.Result where
  disposition := .terminal
  decision := some ⟨.info, .record, "observed resource was deleted", ["resource_deleted"],
    ["resource-deleted"]⟩
  matched := [⟨"resource-deleted", "observed resource was deleted", .info⟩]

/-- `resolveDeletion` up to its call of `persist`. -/
def observeDeletion (key : ResourceKey) : Eff (Except Err Verdict) := do
  match ← Mongo.getIncident r.clusterID (incidentKey H (key.source r.clusterID)) with
  | .error err =>
    if err.is .storeNotFound then pure (.ok (.settled {}))
    else pure (.error (err.wrap "get deleted resource incident"))
  | .ok previous =>
    if previous.status = .resolved then pure (.ok (.settled {}))
    else do
      let now ← Eff.now
      pure (.ok (.persist ⟨r.deletionSnapshot H key now, some previous, deletionResult, now, 0⟩))

/-- `Reconcile` up to its call of `persist`. -/
def observe (key : ResourceKey) : Eff (Except Err Verdict) :=
  match key.validate with
  | .error err => pure (.error err)
  | .ok () => do
    match ← resolve key with
    | .error err => if err.is .kubeNotFound then r.observeDeletion H key else pure (.error err)
    | .ok object =>
      let now ← Eff.now
      match r.normalizer.normalize H object now with
      | .error err => pure (.error (err.wrap "normalize Kubernetes resource"))
      | .ok snapshot =>
        let read ← Mongo.getIncident r.clusterID (incidentKey H snapshot.source)
        match read with
        | .ok previous =>
          let engineNow ← Eff.now
          pure (.ok (r.judge H snapshot (some previous) now engineNow))
        | .error err =>
          if err.is .storeNotFound then do
            let engineNow ← Eff.now
            pure (.ok (r.judge H snapshot none now engineNow))
          else pure (.error (err.wrap "get incident"))

/-- `Reconcile`. The result that comes with an error is the zero one. -/
def reconcile (key : ResourceKey) : Eff (Except Err Controller.Result) := do
  match ← r.observe H key with
  | .error err => pure (.error err)
  | .ok (.settled result) => pure (.ok result)
  | .ok (.persist p) =>
    match ← r.persist H p.snapshot p.previous p.result p.now with
    | .error err => pure (.error err)
    | .ok () => pure (.ok ⟨p.requeue⟩)

end Reconciler

end RuleRaven.Controller
