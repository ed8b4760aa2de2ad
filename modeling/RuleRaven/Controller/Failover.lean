import RuleRaven.Controller.Scenario
import RuleRaven.Decision.Evidence

namespace RuleRaven.Controller

open Framework

/-- A model that is the requested one or a dated or qualified name of it, in at most 256 plain
characters. -/
structure NamesModel (requested text : String) : Prop where
  short : text.utf8ByteSize ≤ 256
  plain : ∀ c ∈ text.toList, c.isAlphanum = true ∨ c ∈ ['-', '.', '_', ':', '/']
  named : text = requested ∨
    ∃ separator ∈ ["-", ".", ":", "/"], ∃ rest, text = requested ++ separator ++ rest

theorem isModelChar_iff (c : Char) :
    isModelChar c = true ↔ c.isAlphanum = true ∨ c ∈ ['-', '.', '_', ':', '/'] := by
  simp [isModelChar]

theorem related_iff (requested resolved : String) :
    (resolved == requested || ["-", ".", ":", "/"].any fun separator =>
      (chars (requested ++ separator)).isPrefixOf (chars resolved)) = true ↔
    resolved = requested ∨
      ∃ separator ∈ ["-", ".", ":", "/"], ∃ rest, resolved = requested ++ separator ++ rest := by
  simp only [Bool.or_eq_true, beq_iff_eq, List.any_eq_true, chars_eq, List.isPrefixOf_iff_prefix]
  refine or_congr_right (exists_congr fun separator => and_congr_right fun _ => ?_)
  constructor
  · rintro ⟨rest, hrest⟩
    refine ⟨String.ofList rest, ?_⟩
    rw [← String.toList_inj, ← hrest]
    simp
  · rintro ⟨rest, rfl⟩
    exact ⟨rest.toList, by simp⟩

theorem all_isModelChar_iff (text : String) : (chars text).all isModelChar = true ↔
    ∀ c ∈ text.toList, c.isAlphanum = true ∨ c ∈ ['-', '.', '_', ':', '/'] := by
  simp only [chars_eq, List.all_eq_true, isModelChar_iff]

/-- A resolved model that names the requested one is kept. -/
theorem trustedResolvedModel_of_names {requested resolved : String}
    (h : NamesModel requested resolved) : trustedResolvedModel requested resolved = resolved := by
  unfold trustedResolvedModel
  by_cases hempty : resolved = ""
  · rw [if_pos (Or.inl hempty), hempty]
  · rw [if_neg (not_or.mpr ⟨hempty, not_lt.mpr h.short⟩), (related_iff _ _).mpr h.named,
      (all_isModelChar_iff _).mpr h.plain]
    rfl

/-- What is kept of a resolved model is all of it, and names the requested one. -/
theorem names_of_trustedResolvedModel {requested resolved : String}
    (h : trustedResolvedModel requested resolved ≠ "") :
    trustedResolvedModel requested resolved = resolved ∧ NamesModel requested resolved := by
  unfold trustedResolvedModel at h ⊢
  split_ifs at h ⊢ with hsize hname hplain
  · exact absurd rfl h
  · exact absurd rfl h
  · rw [Bool.not_eq_true', Bool.not_eq_false, related_iff] at hname
    exact ⟨rfl, not_lt.mp (not_or.mp hsize).2, (all_isModelChar_iff _).mp hplain, hname⟩
  · exact absurd rfl h

end RuleRaven.Controller

namespace RuleRaven.Controller.Reconciler

open Framework Kube Provider Rules Triage Composer

variable (H : Hasher) (r : Reconciler)

section Authority

/-- A result that is not semantic is decided without a single call. -/
theorem decideResult_silent (snapshot : Snapshot) {result : Rules.Result} (incidentID : String)
    (h : result.disposition ≠ .semantic) :
    Prog.Only (fun _ => False) (r.decideResult H snapshot result incidentID) := by
  unfold decideResult
  rw [if_pos h]
  trivial

/-- A decision of the rules is kept whatever a provider says, and stands alone where the result is
not semantic. -/
theorem deterministic_authority (c : Composer) {result : Rules.Result} {decision : Decision}
    (h : result.decision = some decision) (answers : StrMap Answer) (failed : Bool) :
    severityRank decision.severity ≤ severityRank (c.compose result answers failed).severity ∧
      actionRank decision.action ≤ actionRank (c.compose result answers failed).action ∧
      (∀ id ∈ decision.ruleIDs, id ≠ "" → id ∈ (c.compose result answers failed).ruleIDs) ∧
      (result.disposition ≠ .semantic →
        c.compose result answers failed = decision ∧
        (∀ answers' failed', c.compose result answers' failed' =
          c.compose result answers failed) ∧
        ∀ (H : Hasher) (r : Reconciler) (snapshot : Snapshot) (incidentID : String),
          Prog.Only (fun _ => False) (r.decideResult H snapshot result incidentID)) := by
  obtain ⟨hseverity, haction, hrules⟩ := c.decision_le_compose h answers failed
  refine ⟨hseverity, haction, hrules, fun hterminal => ?_⟩
  have hstands : ∀ answers failed, c.compose result answers failed = decision := by
    intro answers failed
    simp [compose, h, hterminal]
  refine ⟨hstands answers failed, fun answers' failed' => ?_, fun H r snapshot incidentID =>
    decideResult_silent H r snapshot incidentID hterminal⟩
  rw [hstands, hstands]

theorem recovery_stands :
    (newComposer.compose Engine.recoveredResult (sureAnswers 3 (9 / 10) 0) false).severity
        = .info ∧
      newComposer.compose Engine.recoveredResult (sureAnswers 3 (9 / 10) 0) false =
        newComposer.compose Engine.recoveredResult StrMap.empty true := by
  have hdecision : Engine.recoveredResult.decision = some ⟨.info, .record,
      "previously open incident no longer matches", ["recovered"], ["recovered"]⟩ := rfl
  obtain ⟨-, -, -, hterminal⟩ := deterministic_authority newComposer hdecision StrMap.empty true
  obtain ⟨-, hsame, -⟩ := hterminal (by decide)
  exact ⟨by decide +kernel, hsame (sureAnswers 3 (9 / 10) 0) false⟩

end Authority

section Failover

/-- The response that `evaluateProvider` lets through: no error, the metadata of the provider that
was asked, and answers that pass the check. -/
structure Accepted (name : String) (reply : Except Err EvaluationResponse)
    (response : EvaluationResponse) : Prop where
  reply_eq : reply = .ok response
  provider : response.provider = name
  requestedModel : isBlank response.requestedModel = false
  answers : validateAnswers operationalTriageV1 response.answers = .ok ()

/-- A text that the provider chose is only kept as its hash. -/
structure HashOf (H : Hasher) (text hash : String) : Prop where
  absent : text = "" → hash = ""
  hashed : text ≠ "" → hash = "sha256:" ++ H.hex text

/-- An audit record that tells of a response, and of nothing else. -/
structure AuditOf (H : Hasher) (response : EvaluationResponse) (audit : ProviderAudit) : Prop where
  provider : audit.provider = response.provider
  requestedModel : audit.requestedModel = response.requestedModel
  resolvedModel : NamesModel response.requestedModel response.resolvedModel →
    audit.resolvedModel = response.resolvedModel
  unresolvedModel : ¬NamesModel response.requestedModel response.resolvedModel →
    audit.resolvedModel = ""
  resolvedModelHash : HashOf H response.resolvedModel audit.resolvedModelHash
  providerRequestIDHash : HashOf H response.providerRequestID audit.providerRequestIDHash
  usage : audit.usage = response.usage
  latency : audit.latency = response.latency
  attempts : audit.attempts = response.attempts
  rawResponseHash : audit.rawResponseHash = response.rawResponseHash

theorem hashOf_auditHash (text : String) : HashOf H text (auditHash H text) :=
  ⟨fun h => if_pos h, fun h => if_neg h⟩

theorem auditOf_providerAudit (response : EvaluationResponse) :
    AuditOf H response (providerAudit H response) where
  provider := rfl
  requestedModel := rfl
  resolvedModel h := trustedResolvedModel_of_names h
  unresolvedModel h := by
    by_contra hkept
    exact h (names_of_trustedResolvedModel hkept).2
  resolvedModelHash := hashOf_auditHash H _
  providerRequestIDHash := hashOf_auditHash H _
  usage := rfl
  latency := rfl
  attempts := rfl
  rawResponseHash := rfl

/-- What `evaluateProvider` makes of a reply. -/
def screened (name : String) (reply : Except Err EvaluationResponse) :
    Option EvaluationResponse :=
  match reply with
  | .error _ => none
  | .ok response =>
    if response.provider ≠ name ∨ isBlank response.requestedModel then none
    else match validateAnswers operationalTriageV1 response.answers with
      | .error _ => none
      | .ok () => some response

theorem screened_eq_some_iff {name : String} {reply : Except Err EvaluationResponse}
    {response : EvaluationResponse} :
    screened name reply = some response ↔ Accepted name reply response := by
  constructor
  · intro h
    unfold screened at h
    split at h
    · cases h
    · split_ifs at h with hmetadata
      split at h
      · cases h
      · rename_i hvalid
        cases h
        rw [not_or, not_not, Bool.not_eq_true] at hmetadata
        exact ⟨rfl, hmetadata.1, hmetadata.2, hvalid⟩
  · rintro ⟨rfl, hname, hmodel, hvalid⟩
    simp [screened, hname, hmodel, hvalid]

/-- `evaluateProvider` is one call. -/
theorem evaluateProvider_eq (slot : ProviderSlot) (name : String) {request : EvaluationRequest}
    (hquestions : request.questions = operationalTriageV1) :
    evaluateProvider slot name request =
      .call (.evaluate slot request) fun reply => .ret (screened name reply) := by
  refine congrArg (Prog.call (Op.evaluate slot request)) (funext fun reply => ?_)
  rcases reply with err | response
  · rfl
  · show (if response.provider ≠ name ∨ isBlank response.requestedModel then .ret none
      else match validateAnswers request.questions response.answers with
        | .error _ => .ret none
        | .ok () => .ret (some response) : Eff (Option EvaluationResponse)) =
      .ret (screened name (.ok response))
    unfold screened
    rw [hquestions]
    dsimp only
    split_ifs
    · rfl
    · split <;> rfl

variable {σ : Type} (h : (op : Op) → σ → op.Reply × σ) (s : σ)

/-- What the provider in a slot answers to a request. -/
def answered (slot : ProviderSlot) (request : EvaluationRequest) :
    Except Err EvaluationResponse := (h (.evaluate slot request) s).1

section Consult

variable {request : EvaluationRequest} (hquestions : request.questions = operationalTriageV1)

include hquestions

/-- With an accepted response of the primary, or without a fallback, nobody else is asked. -/
theorem consult_primary (hstop : screened r.primary (answered h s .primary request) ≠ none ∨
      r.fallback = none) :
    (Prog.run h (r.consult request) s).1 =
        screened r.primary (answered h s .primary request) ∧
      Prog.calls h (r.consult request) s = [.evaluate .primary request] := by
  unfold consult
  rw [evaluateProvider_eq .primary r.primary hquestions]
  simp only [Prog.bind_eq_bind, Prog.call_bind, Prog.ret_bind, Prog.run_call, Prog.calls_call]
  rw [← answered]
  cases hscreened : screened r.primary (answered h s .primary request) with
  | some response => exact ⟨rfl, rfl⟩
  | none =>
    rw [hstop.resolve_left (not_not.mpr hscreened)]
    exact ⟨rfl, rfl⟩

/-- Otherwise the fallback alone tells the outcome. -/
theorem consult_fallback {name : String} (hname : r.fallback = some name)
    (hrejected : screened r.primary (answered h s .primary request) = none) :
    (Prog.run h (r.consult request) s).1 = screened name
        (answered h (h (.evaluate .primary request) s).2 .fallback request) ∧
      Prog.calls h (r.consult request) s =
        [.evaluate .primary request, .evaluate .fallback request] := by
  unfold consult
  rw [evaluateProvider_eq .primary r.primary hquestions]
  simp only [Prog.bind_eq_bind, Prog.call_bind, Prog.ret_bind, Prog.run_call, Prog.calls_call,
    hname, evaluateProvider_eq .fallback name hquestions]
  rw [← answered, hrejected]
  exact ⟨rfl, rfl⟩

end Consult

/-- The decision without evidence says that there is none. -/
theorem unavailable_of_failed {result : Rules.Result} (hsemantic : result.disposition = .semantic) :
    "provider_unavailable" ∈ (newComposer.compose result StrMap.empty true).reasonCodes := by
  rcases newComposer.compose_cases result StrMap.empty true with ⟨_, _, hterminal, _⟩ | ⟨-, heq⟩
  · exact absurd hsemantic hterminal
  · rw [heq]
    cases result.decision with
    | none => exact List.mem_singleton_self _
    | some floor => exact mem_mergeStrings.mpr ⟨Or.inl (List.mem_singleton_self _), by decide⟩

/-- The primary is asked once, and the fallback once where there is one and the response of the
primary is not accepted. Answers, decision and every field of the audit record come from one
accepted response, or there are no answers and no audit. -/
theorem failover_all_or_nothing {n : Normalizer} {object : Object} {observedAt : Time}
    {snapshot : Snapshot} (hnormalized : n.normalize H object observedAt = .ok snapshot)
    {result : Rules.Result} (hsemantic : result.disposition = .semantic) (incidentID : String) :
    ∃ request : EvaluationRequest, request.questions = operationalTriageV1 ∧
      let primary := answered h s .primary request
      let fallback := answered h (h (.evaluate .primary request) s).2 .fallback request
      let calls := Prog.calls h (r.decideResult H snapshot result incidentID) s
      let decided := (Prog.run h (r.decideResult H snapshot result incidentID) s).1
      ((∃ response, Accepted r.primary primary response) ∨ r.fallback = none →
        calls = [.evaluate .primary request]) ∧
      ((¬∃ response, Accepted r.primary primary response) ∧ r.fallback ≠ none →
        calls = [.evaluate .primary request, .evaluate .fallback request]) ∧
      ((∃ response, (Accepted r.primary primary response ∨
            (¬∃ response, Accepted r.primary primary response) ∧
              ∃ name, r.fallback = some name ∧ Accepted name fallback response) ∧
          decided.decision = r.composer.compose result response.answers false ∧
          decided.answers = some response.answers ∧
          ∃ audit, decided.audit = some audit ∧ AuditOf H response audit) ∨
        ((¬∃ response, Accepted r.primary primary response) ∧
          (¬∃ name response, r.fallback = some name ∧ Accepted name fallback response) ∧
          decided = ⟨r.composer.compose result StrMap.empty true, none, none⟩ ∧
          (r.composer = newComposer →
            "provider_unavailable" ∈ decided.decision.reasonCodes))) := by
  obtain ⟨-, -, -, state, hstate, -⟩ := Normalizer.normalize_eq_ok hnormalized
  let request : EvaluationRequest :=
    { state := state.marshal
      questions := operationalTriageV1
      rubricVersion := result.questionSet
      requestID := stableID H ("request\x00" ++ incidentID ++ "\x00" ++ snapshot.contentHash) }
  have hdecide : r.decideResult H snapshot result incidentID =
      (r.consult request).bind fun response => .ret (r.conclude H result response) := by
    simp [decideResult, hsemantic, hstate, request]
  refine ⟨request, rfl, ?_⟩
  dsimp only
  simp only [hdecide, Prog.run_bind, Prog.calls_bind, Prog.run_ret, Prog.calls_ret, List.append_nil]
  generalize hrequest : request = q
  have hquestions : q.questions = operationalTriageV1 := by rw [← hrequest]
  have haccepted : ∀ {name reply}, (∃ response, Accepted name reply response) ↔
      screened name reply ≠ none := by
    intro name reply
    simp only [← screened_eq_some_iff, Option.ne_none_iff_exists']
  simp only [haccepted, not_not]
  refine ⟨fun hstop => (consult_primary r h s hquestions hstop).2, ?_, ?_⟩
  · rintro ⟨hrejected, hfallback⟩
    obtain ⟨name, hname⟩ := Option.ne_none_iff_exists'.mp hfallback
    exact (consult_fallback r h s hquestions hname hrejected).2
  · cases hprimary : screened r.primary (answered h s .primary q) with
    | some response =>
      obtain ⟨hrun, -⟩ := consult_primary r h s hquestions (Or.inl (by simp [hprimary]))
      rw [hrun, hprimary]
      exact Or.inl ⟨response, Or.inl (screened_eq_some_iff.mp hprimary), rfl, rfl, _, rfl,
        auditOf_providerAudit H response⟩
    | none =>
      cases hname : r.fallback with
      | none =>
        obtain ⟨hrun, -⟩ := consult_primary r h s hquestions (Or.inr hname)
        rw [hrun, hprimary]
        refine Or.inr ⟨rfl, by simp, rfl, fun hcomposer => ?_⟩
        simpa [conclude, hcomposer] using unavailable_of_failed hsemantic
      | some name =>
        obtain ⟨hrun, -⟩ := consult_fallback r h s hquestions hname hprimary
        rw [hrun]
        cases hsecond : screened name
            (answered h (h (.evaluate .primary q) s).2 .fallback q) with
        | some response =>
          have hscreened := screened_eq_some_iff.mp hsecond
          exact Or.inl ⟨response, Or.inr ⟨rfl, name, rfl, hscreened⟩, rfl, rfl,
            _, rfl, auditOf_providerAudit H response⟩
        | none =>
          refine Or.inr ⟨rfl, ?_, rfl, fun hcomposer => ?_⟩
          · rintro ⟨other, response, hother, hresponse⟩
            cases hother
            rw [screened_eq_some_iff.mpr hresponse] at hsecond
            cases hsecond
          · simpa [conclude, hcomposer] using unavailable_of_failed hsemantic

section Samples

open Scenario

/-- A reconciler with two providers. -/
def doubled : Reconciler := { notifying with fallback := some "f" }

/-- The first of them is down. -/
def lent : Env :=
  { world 0 none with
    evaluate := fun slot _ =>
      match slot with
      | .primary => .error ⟨"provider unavailable", none⟩
      | .fallback => .ok
        { provider := "f", requestedModel := "m", answers := sureAnswers 0 0 1 } }

def failedMount : Object := .event
  { metadata := metadata, type := "Warning", reason := "FailedMount", message := "no volume",
    involvedUID := "v", count := 1, eventTime := noon }

theorem fallback_asked_once :
    ∃ snapshot, doubled.normalizer.normalize checksumHasher failedMount noon = .ok snapshot ∧
      semanticResult.disposition = .semantic ∧
      ∃ request, Prog.calls (serve lent)
          (doubled.decideResult checksumHasher snapshot semanticResult "i") {} =
        [.evaluate .primary request, .evaluate .fallback request] := by
  have hsome : (doubled.normalizer.normalize checksumHasher failedMount noon).toOption.isSome =
      true := by
    decide +kernel
  obtain ⟨snapshot, hsnapshot⟩ := Option.isSome_iff_exists.mp hsome
  have hsnapshot := ok_of_toOption hsnapshot
  have hsemantic : semanticResult.disposition = .semantic := rfl
  obtain ⟨request, -, -, hboth, -⟩ :=
    failover_all_or_nothing checksumHasher doubled (serve lent) {} hsnapshot hsemantic "i"
  refine ⟨snapshot, hsnapshot, hsemantic, request, hboth ⟨?_, by decide⟩⟩
  rintro ⟨response, haccepted⟩
  cases haccepted.reply_eq

end Samples

end Failover

end RuleRaven.Controller.Reconciler
