import RuleRaven.Provider.Validate
import RuleRaven.Rules.Engine
import Mathlib.Data.List.Dedup

namespace RuleRaven.Triage

open Framework Provider Rules

def compositionPolicyVersion : String := "operational-composer-v1"

def operationalTriageV1Name : String := "operational-triage-v1"

def questionIncidentFamily : String := "incident_family"
def questionOperationalImpact : String := "operational_impact"
def questionRequiresImmediateAttention : String := "requires_immediate_attention"
def questionLikelyTransient : String := "likely_transient"

/-- The versioned rubric, its questions in key order. -/
def operationalTriageV1 : StrMap Question where
  entries := [
    (questionIncidentFamily,
      { type := .choice
        instructions := "Which incident family best explains the observed operational state?"
        criteria := ⟨[
          ("application", "Application process, runtime, or workload behavior"),
          ("configuration", "Invalid or incompatible workload or cluster configuration"),
          ("dependency", "A required internal or external dependency is failing"),
          ("infrastructure", "Cluster, node, storage, or networking infrastructure"),
          ("security", "A suspected security or access-control issue"),
          ("unknown", "The bounded evidence does not support another family")],
          by decide⟩ }),
    (questionLikelyTransient,
      { type := .noul
        instructions := "Is the observed condition likely to clear without intervention?"
        criteria := ⟨[
          ("false", "The condition is likely persistent or requires intervention"),
          ("true", "The evidence indicates a short-lived or self-healing condition")],
          by decide⟩ }),
    (questionOperationalImpact,
      { type := .score
        instructions := "Rate the current operational impact from the bounded evidence."
        levels := ["No current user-visible impact",
          "Limited degradation or a working workaround",
          "Material degradation affecting multiple users or a critical workload",
          "Broad outage, data-loss risk, or security impact"] }),
    (questionRequiresImmediateAttention,
      { type := .noul
        instructions := "Does the incident require immediate human attention?"
        criteria := ⟨[
          ("false", "The incident can safely wait for normal triage"),
          ("true", "Delay is likely to materially increase operational harm")],
          by decide⟩ })]
  sorted := by decide

structure Thresholds where
  policyVersion : String
  warningImpact : ℚ
  criticalImpact : ℚ
  warningImmediateAttention : ℚ
  criticalImmediateAttention : ℚ
  likelyTransientRecord : ℚ
  deriving DecidableEq

structure Composer where
  thresholds : Thresholds
  fallback : Decision
  deriving DecidableEq

def newComposer : Composer where
  thresholds :=
    { policyVersion := compositionPolicyVersion
      warningImpact := 1
      criticalImpact := 5 / 2
      warningImmediateAttention := 1 / 2
      criticalImmediateAttention := Binary64.rounded (85 / 100)
      likelyTransientRecord := Binary64.rounded (7 / 10) }
  fallback :=
    { severity := .warning
      action := .notify
      summary := "Provider evidence unavailable; manual triage required"
      reasonCodes := ["provider_unavailable"] }

def actionRank : Action → Nat
  | .page => 4
  | .notify => 3
  | .record => 2
  | .suppress => 1
  | .unset => 0

/-- The union of both lists without blanks or repetitions, sorted. -/
def mergeStrings (left right : List String) : List String :=
  sortSlice (· < ·) ((left ++ right).filter (· ≠ "")).dedup

def applyDeterministicFloor (decision : Decision) (floor : Option Decision) :
    Decision :=
  match floor with
  | none => decision
  | some floor =>
    let severityWon := severityRank decision.severity < severityRank floor.severity
    let actionWon := actionRank decision.action < actionRank floor.action
    { severity := if severityWon then floor.severity else decision.severity
      action := if actionWon then floor.action else decision.action
      summary := if (severityWon ∨ actionWon) ∧ floor.summary ≠ "" then floor.summary
        else decision.summary
      reasonCodes := mergeStrings decision.reasonCodes floor.reasonCodes
      ruleIDs := mergeStrings decision.ruleIDs floor.ruleIDs }

/-- The number behind an answer's pointer. Only asked for validated answers, where it is
there and finite. -/
def numberOf (value : Option Float64) : ℚ :=
  match value with
  | some (.finite q) => q
  | _ => 0

/-- The incident families that the rubric offers. -/
def incidentFamilies : List String :=
  ["application", "configuration", "dependency", "infrastructure", "security", "unknown"]

/-- `answers[id]`, the zero answer for an ID that is missing. -/
def answerAt (answers : StrMap Answer) (id : String) : Answer :=
  (answers.lookup id).getD { type := .unknown "" }

namespace Composer

variable (c : Composer)

def policyVersion : String := c.thresholds.policyVersion

def composeOperationalTriage (answers : StrMap Answer) : Decision :=
  let family := (answerAt answers questionIncidentFamily).choice
  let impact := numberOf (answerAt answers questionOperationalImpact).score
  let immediate := numberOf (answerAt answers questionRequiresImmediateAttention).noul
  let transient := numberOf (answerAt answers questionLikelyTransient).noul
  let summary := "Provider evidence classifies the incident as " ++ family
  let codes := ["provider_evidence", "incident_family_" ++ family]
  if c.thresholds.criticalImpact ≤ impact ∨
      c.thresholds.criticalImmediateAttention ≤ immediate then
    ⟨.critical, .page, summary, codes ++ ["semantic_critical"], []⟩
  else if c.thresholds.warningImpact ≤ impact ∨
      c.thresholds.warningImmediateAttention ≤ immediate ∨
      transient < c.thresholds.likelyTransientRecord then
    ⟨.warning, .notify, summary, codes ++ ["semantic_warning"], []⟩
  else ⟨.info, .record, summary, codes ++ ["semantic_low_impact"], []⟩

/-- What the answers come to, before the rule IDs and the floor: the evidence, or the fallback
on any provider error, unknown rubric or malformed answer. -/
def evidence (result : Rules.Result) (answers : StrMap Answer) (failed : Bool) :
    Decision :=
  if failed ∨ result.questionSet ≠ operationalTriageV1Name then c.fallback
  else match validateAnswers operationalTriageV1 answers with
    | .error _ => c.fallback
    | .ok () => c.composeOperationalTriage answers

/-- A decision that is not semantic is returned as it is; one of a semantic result is a
floor under the composed one. -/
def compose (result : Rules.Result) (answers : StrMap Answer) (failed : Bool) : Decision :=
  let evidence := c.evidence result answers failed
  let composed := { evidence with
    ruleIDs := mergeStrings evidence.ruleIDs (result.matched.map Match.ruleID) }
  match result.decision with
  | none => applyDeterministicFloor composed none
  | some decision =>
    if result.disposition ≠ .semantic then decision
    else applyDeterministicFloor composed (some decision)

theorem mem_mergeStrings {left right : List String} {x : String} :
    x ∈ mergeStrings left right ↔ (x ∈ left ∨ x ∈ right) ∧ x ≠ "" := by
  rw [mergeStrings, (sortSlice_perm _ _).mem_iff, List.mem_dedup, List.mem_filter, List.mem_append]
  simp

theorem evidence_ruleIDs (result : Rules.Result) (answers : StrMap Answer) (failed : Bool) :
    (c.evidence result answers failed).ruleIDs = c.fallback.ruleIDs ∨
      (c.evidence result answers failed).ruleIDs = [] := by
  unfold evidence
  split_ifs
  · exact Or.inl rfl
  · split
    · exact Or.inl rfl
    · right
      unfold composeOperationalTriage
      dsimp only
      split_ifs <;> rfl

/-- A decision names rules of the fallback, matches and rules of the result's own decision. -/
theorem mem_ruleIDs_compose {result : Rules.Result} {answers : StrMap Answer} {failed : Bool}
    {x : String} (h : x ∈ (c.compose result answers failed).ruleIDs) :
    x ∈ c.fallback.ruleIDs ∨ x ∈ result.matched.map Match.ruleID ∨
      ∃ decision, result.decision = some decision ∧ x ∈ decision.ruleIDs := by
  have hmerged : x ∈ mergeStrings (c.evidence result answers failed).ruleIDs
      (result.matched.map Match.ruleID) →
      x ∈ c.fallback.ruleIDs ∨ x ∈ result.matched.map Match.ruleID := by
    intro hx
    rcases (mem_mergeStrings.mp hx).1 with hx | hx
    · rcases c.evidence_ruleIDs result answers failed with heq | heq <;> rw [heq] at hx
      · exact Or.inl hx
      · cases hx
    · exact Or.inr hx
  unfold compose at h
  dsimp only at h
  split at h
  · exact (hmerged h).imp_right Or.inl
  · rename_i decision hdecision
    split_ifs at h
    · exact Or.inr (Or.inr ⟨decision, hdecision, h⟩)
    · rcases (mem_mergeStrings.mp h).1 with h | h
      · exact (hmerged h).imp_right Or.inl
      · exact Or.inr (Or.inr ⟨decision, hdecision, h⟩)

end Composer

end RuleRaven.Triage
