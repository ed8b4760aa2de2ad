import RuleRaven.Controller.Failover
import RuleRaven.Controller.Judgement
import RuleRaven.Provider.Jev
import RuleRaven.Provider.Rubric
import RuleRaven.System.Walk

namespace RuleRaven

open Framework Provider

/-- Every text of a decision. -/
def Decision.texts (d : Decision) : List String :=
  [d.severity.text, d.action.text, d.summary] ++ d.reasonCodes ++ d.ruleIDs

def ProviderAudit.texts (a : ProviderAudit) : List String :=
  [a.provider, a.requestedModel, a.resolvedModel, a.resolvedModelHash, a.providerRequestIDHash,
    a.rawResponseHash]

/-- The texts of the decision, the answers and the audit record of an evaluation. -/
def Evaluation.texts (e : Evaluation) : List String :=
  e.decision.texts ++ (e.answers.map answerTexts).getD [] ++
    (e.providerAudit.map ProviderAudit.texts).getD []

theorem forall_decision_texts {P : String → Prop} {d : Decision} :
    (∀ text ∈ d.texts, P text) ↔ P d.severity.text ∧ P d.action.text ∧ P d.summary ∧
      (∀ code ∈ d.reasonCodes, P code) ∧ ∀ id ∈ d.ruleIDs, P id := by
  simp only [Decision.texts, List.cons_append, List.nil_append, List.forall_mem_cons,
    List.forall_mem_append]

namespace Controller

open Kube Rules Triage

namespace Reconciler

/-- The texts that are written in the code. -/
def codeTexts : List String :=
  ["", "info", "warning", "critical", "suppress", "record", "notify", "page", "ignored",
    "recovered", "previously open incident no longer matches", "resource-deleted",
    "resource_deleted", "observed resource was deleted", "provider_evidence",
    "semantic_critical", "semantic_warning", "semantic_low_impact"] ++
    Engine.ruleIDs ++ Engine.ruleReasons

/-- The texts that no response of a provider can add to: those of the code, of the
configuration and of the rubric, digests, and a name of the requested model. -/
inductive Trusted (H : Hasher) (L : Library) (r : Reconciler) (client : ProviderSlot → Client) :
    String → Prop
  | code {text : String} (h : text ∈ codeTexts) : Trusted H L r client text
  | fallback {text : String} (h : text ∈ r.composer.fallback.texts) : Trusted H L r client text
  | ignoredNamespace {ns : String} (h : ns ∈ r.rules.options.ignoredNamespaces) :
      Trusted H L r client ("ignored namespace " ++ ns)
  | ignoredLabel {selector : String} (h : selector ∈ r.rules.options.ignoredLabels) :
      Trusted H L r client ("ignored label " ++ selector)
  | rubric {text : String} (h : RubricText operationalTriageV1 text) : Trusted H L r client text
  | summary {family : String} (h : family ∈ incidentFamilies) :
      Trusted H L r client ("Provider evidence classifies the incident as " ++ family)
  | reasonCode {family : String} (h : family ∈ incidentFamilies) :
      Trusted H L r client ("incident_family_" ++ family)
  | provider {slot : ProviderSlot} {name : String} (h : slotName r slot = some name) :
      Trusted H L r client name
  | model (slot : ProviderSlot) : Trusted H L r client (client slot).endpoint.model
  | resolved {slot : ProviderSlot} {text : String}
      (h : NamesModel (client slot).endpoint.model text) : Trusted H L r client text
  | digest (body : ByteArray) : Trusted H L r client (L.digest body)
  | hashed (value : String) : Trusted H L r client ("sha256:" ++ H.hex value)

section Trusted

variable {H : Hasher} {L : Library} {r : Reconciler} {client : ProviderSlot → Client}

theorem trusted_severity (severity : Severity) : Trusted H L r client severity.text := by
  apply Trusted.code
  cases severity <;> simp [codeTexts, Severity.text]

theorem trusted_action (action : Action) : Trusted H L r client action.text := by
  apply Trusted.code
  cases action <;> simp [codeTexts, Action.text]

theorem trusted_codes {codes : List String} (h : ∀ code ∈ codes, code ∈ codeTexts) :
    ∀ code ∈ codes, Trusted H L r client code := fun code hcode => .code (h code hcode)

/-- The texts that a rule result hands to the composer. -/
def TrustsResult (H : Hasher) (L : Library) (r : Reconciler) (client : ProviderSlot → Client)
    (result : Rules.Result) : Prop :=
  (∀ m ∈ result.matched, Trusted H L r client m.ruleID) ∧
    ∀ decision, result.decision = some decision → ∀ text ∈ decision.texts, Trusted H L r client text

theorem trusted_ignoredReason {s : Snapshot} {reason : String}
    (h : r.rules.ignoredReason s = some reason) : Trusted H L r client reason := by
  unfold Engine.ignoredReason at h
  split at h
  · rename_i ns hns
    cases h
    exact .ignoredNamespace (List.mem_of_find?_eq_some hns)
  · obtain ⟨selector, hselector, rfl⟩ := Option.map_eq_some_iff.mp h
    exact .ignoredLabel (List.mem_of_find?_eq_some hselector)

theorem trusts_evaluate (now : Time) (s : Snapshot) (previous : Option Incident) :
    TrustsResult H L r client (r.rules.evaluate now s previous) := by
  have hrule : ∀ m ∈ r.rules.ruleMatches now s, m.ruleID ∈ codeTexts ∧ m.reason ∈ codeTexts := by
    intro m hm
    have hid := Engine.ruleID_of_mem_ruleMatches hm
    have hreason := Engine.reason_of_mem_ruleMatches hm
    constructor
    · exact List.mem_append_left _ (List.mem_append_right _ hid)
    · exact List.mem_append_right _ hreason
  rcases r.rules.evaluate_cases now s previous with
    ⟨reason, hreason, he⟩ | ⟨-, -, -, he⟩ | ⟨-, -, -, he⟩ | ⟨-, -, first, rest, hperm, he⟩ <;>
    rw [he]
  · refine ⟨fun m hm => .code ?_, fun decision hdecision => ?_⟩
    · simp_all [Engine.suppressed, codeTexts]
    · cases hdecision
      refine forall_decision_texts.mpr ⟨trusted_severity _, trusted_action _,
        trusted_ignoredReason hreason, trusted_codes ?_, trusted_codes ?_⟩ <;> simp [codeTexts]
  · refine ⟨fun m hm => .code ?_, fun decision hdecision => ?_⟩
    · simp_all [Engine.recoveredResult, codeTexts]
    · cases hdecision
      refine forall_decision_texts.mpr ⟨trusted_severity _, trusted_action _, .code ?_,
        trusted_codes ?_, trusted_codes ?_⟩ <;> simp [codeTexts]
  · exact ⟨fun m hm => by simp at hm, fun decision hdecision => by cases hdecision⟩
  · have hmatched : ∀ m ∈ first :: rest, m.ruleID ∈ codeTexts ∧ m.reason ∈ codeTexts :=
      fun m hm => hrule m (hperm.mem_iff.mp hm)
    have hids : ∀ id ∈ (first :: rest).map Match.ruleID, id ∈ codeTexts := by
      intro id hid
      obtain ⟨m, hm, rfl⟩ := List.mem_map.mp hid
      exact (hmatched m hm).1
    refine ⟨fun m hm => ?_, fun decision hdecision => ?_⟩
    · rw [Engine.matchedResult_matched] at hm
      exact .code (hmatched m hm).1
    · unfold Engine.matchedResult at hdecision
      split_ifs at hdecision
      cases hdecision
      exact forall_decision_texts.mpr ⟨trusted_severity _, trusted_action _,
        .code (hmatched _ (highestSeverity_mem first rest)).2, trusted_codes hids,
        trusted_codes hids⟩

theorem trusts_deletion : TrustsResult H L r client deletionResult := by
  refine ⟨fun m hm => .code ?_, fun decision hdecision => ?_⟩
  · simp_all [deletionResult, codeTexts]
  · cases hdecision
    refine forall_decision_texts.mpr ⟨trusted_severity _, trusted_action _, .code ?_,
      trusted_codes ?_, trusted_codes ?_⟩ <;> simp [codeTexts]

theorem Arises.trusts {key : ResourceKey} {p : Pending} (h : Arises H r key p) :
    TrustsResult H L r client p.result := by
  cases h with
  | live hfound hobserved hjudge =>
    rw [(judge_eq_persist hjudge).1]
    exact trusts_evaluate _ _ _
  | gone now hstatus => exact trusts_deletion

/-- Composition adds nothing but the family that was chosen. -/
theorem trusted_evidence (result : Rules.Result) (answers : StrMap Answer) (failed : Bool) :
    ∀ text ∈ (r.composer.evidence result answers failed).texts, Trusted H L r client text := by
  unfold Composer.evidence
  split_ifs
  · exact fun text htext => .fallback htext
  · split
    · exact fun text htext => .fallback htext
    · rename_i hvalid
      obtain ⟨answer, hanswer, hchoice⟩ := choice_of_validateAnswers hvalid
        (StrMap.mem_of_lookup (rfl : operationalTriageV1.lookup questionIncidentFamily = _)) rfl
      have hfamily : answer.choice ∈ incidentFamilies := hchoice
      have hcodes : ∀ last ∈ codeTexts, ∀ code ∈ ["provider_evidence",
          "incident_family_" ++ answer.choice] ++ [last], Trusted H L r client code := by
        intro last hlast code hcode
        simp only [List.cons_append, List.nil_append, List.mem_cons, List.not_mem_nil,
          or_false] at hcode
        rcases hcode with rfl | rfl | rfl
        · exact .code (by simp [codeTexts])
        · exact .reasonCode hfamily
        · exact .code hlast
      unfold Composer.composeOperationalTriage
      simp only [answerAt, hanswer, Option.getD_some]
      split_ifs <;> exact forall_decision_texts.mpr ⟨trusted_severity _, trusted_action _,
        .summary hfamily, hcodes _ (by simp [codeTexts]), by simp⟩

theorem trusted_merged {left right : List String} (hleft : ∀ text ∈ left, Trusted H L r client text)
    (hright : ∀ text ∈ right, Trusted H L r client text) :
    ∀ text ∈ mergeStrings left right, Trusted H L r client text := by
  intro text htext
  rcases (Composer.mem_mergeStrings.mp htext).1 with h | h
  · exact hleft text h
  · exact hright text h

theorem trusted_compose {result : Rules.Result} (hresult : TrustsResult H L r client result)
    (answers : StrMap Answer) (failed : Bool) :
    ∀ text ∈ (r.composer.compose result answers failed).texts, Trusted H L r client text := by
  have hevidence : ∀ text ∈ (r.composer.evidence result answers failed).texts,
      Trusted H L r client text := trusted_evidence result answers failed
  obtain ⟨hseverity, haction, hsummary, hcodes, hids⟩ := forall_decision_texts.mp hevidence
  have hmatched : ∀ id ∈ result.matched.map Match.ruleID, Trusted H L r client id := by
    intro id hid
    obtain ⟨m, hm, rfl⟩ := List.mem_map.mp hid
    exact hresult.1 m hm
  have hmerged := trusted_merged hids hmatched
  unfold Composer.compose
  cases hdecision : result.decision with
  | none => exact forall_decision_texts.mpr ⟨hseverity, haction, hsummary, hcodes, hmerged⟩
  | some floor =>
    have hfloor := hresult.2 floor hdecision
    dsimp only
    split_ifs
    · exact hfloor
    · obtain ⟨-, -, hfloorSummary, hfloorCodes, hfloorIDs⟩ := forall_decision_texts.mp hfloor
      refine forall_decision_texts.mpr ⟨trusted_severity _, trusted_action _, ?_,
        trusted_merged hcodes hfloorCodes, trusted_merged hmerged hfloorIDs⟩
      unfold applyDeterministicFloor
      dsimp only
      split_ifs
      · exact hfloorSummary
      · exact hsummary

theorem trusted_auditHash (value : String) : Trusted H L r client (auditHash H value) := by
  unfold auditHash
  split_ifs
  · exact .code (by simp [codeTexts])
  · exact .hashed value

/-- The audit record of a response that a client has reported. -/
theorem trusted_providerAudit {slot : ProviderSlot} {request : EvaluationRequest}
    {response : EvaluationResponse} (hname : slotName r slot = some response.provider)
    (hreports : (client slot).endpoint.Reports L request response) :
    ∀ text ∈ (providerAudit H response).texts, Trusted H L r client text := by
  obtain ⟨started, ended, attempts, received, parsed, hresponse, -⟩ := hreports
  have hmodel : response.requestedModel = (client slot).endpoint.model := by rw [hresponse]; rfl
  have hbody : response.rawResponseHash = L.digest received.body := by rw [hresponse]; rfl
  simp only [ProviderAudit.texts, providerAudit, List.forall_mem_cons, hmodel, hbody]
  refine ⟨.provider hname, .model slot, ?_, trusted_auditHash _, trusted_auditHash _, .digest _,
    by simp⟩
  by_cases hempty : trustedResolvedModel (client slot).endpoint.model response.resolvedModel = ""
  · rw [hempty]
    exact .code (by simp [codeTexts])
  · obtain ⟨hkept, hnames⟩ := names_of_trustedResolvedModel hempty
    rw [hkept]
    exact .resolved hnames

/-- What `decide` returns when every response it was given is one that a client reports. -/
theorem Decides.trusted {result : Rules.Result} (hresult : TrustsResult H L r client result)
    {decided : Decided} (h : Decides H r result (fun slot response =>
      ∃ request, (client slot).endpoint.Reports L request response) decided) :
    (∀ text ∈ decided.decision.texts, Trusted H L r client text) ∧
      (∀ answers, decided.answers = some answers →
        ∀ text ∈ answerTexts answers, Trusted H L r client text) ∧
      ∀ audit, decided.audit = some audit → ∀ text ∈ audit.texts, Trusted H L r client text := by
  cases h with
  | without failed =>
    refine ⟨trusted_compose hresult _ _, ?_, ?_⟩
    · intro answers h
      cases h
    · intro audit h
      cases h
  | answered hreported hname hvalid =>
    obtain ⟨request, hreports⟩ := hreported
    refine ⟨trusted_compose hresult _ _, fun answers hanswers text htext => ?_,
      fun audit haudit => ?_⟩
    · cases hanswers
      rcases texts_of_validateAnswers hvalid text htext with rfl | hrubric
      · exact .code (by simp [codeTexts])
      · exact .rubric hrubric
    · cases haudit
      exact trusted_providerAudit hname hreports

end Trusted

end Reconciler

end Controller

end RuleRaven
