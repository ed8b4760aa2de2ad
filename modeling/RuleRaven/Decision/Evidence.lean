import RuleRaven.Decision.Composer
import RuleRaven.Provider.Acceptance

namespace RuleRaven.Triage

open Framework Provider Rules

/-- `>=` between a `float64` and a threshold, which NaN never passes. -/
def atLeast : Float64 → ℚ → Bool
  | .finite value, q => decide (q ≤ value)
  | .posInf, _ => true
  | _, _ => false

/-- `<` between a `float64` and a threshold. -/
def below : Float64 → ℚ → Bool
  | .finite value, q => decide (value < q)
  | .negInf, _ => true
  | _, _ => false

def impactOf (answers : StrMap Answer) : ℚ :=
  numberOf (answerAt answers questionOperationalImpact).score

def immediateOf (answers : StrMap Answer) : ℚ :=
  numberOf (answerAt answers questionRequiresImmediateAttention).noul

def transientOf (answers : StrMap Answer) : ℚ :=
  numberOf (answerAt answers questionLikelyTransient).noul

/-- Answers to exactly the questions of the rubric, their values where the rubric has them. -/
structure Covers (answers : StrMap Answer) : Prop where
  keys : answers.keys = [questionIncidentFamily, questionLikelyTransient,
    questionOperationalImpact, questionRequiresImmediateAttention]
  family : (answerAt answers questionIncidentFamily).choice ∈ incidentFamilies
  impact : (answerAt answers questionOperationalImpact).score =
      some (.finite (impactOf answers)) ∧ 0 ≤ impactOf answers ∧ impactOf answers ≤ 3
  immediate : (answerAt answers questionRequiresImmediateAttention).noul =
      some (.finite (immediateOf answers)) ∧ 0 ≤ immediateOf answers ∧ immediateOf answers ≤ 1
  transient : (answerAt answers questionLikelyTransient).noul =
      some (.finite (transientOf answers)) ∧ 0 ≤ transientOf answers ∧ transientOf answers ≤ 1

section Accepted

variable {answers : StrMap Answer}

theorem answerAt_of_lookup {id : String} {answer : Answer} (h : answers.lookup id = some answer) :
    answerAt answers id = answer := by
  rw [answerAt, h]
  rfl

/-- An accepted answer to a question that asks for a probability. -/
theorem noul_of_accepted (h : validateAnswers operationalTriageV1 answers = .ok ()) {id : String}
    {question : Question} (hquestion : (id, question) ∈ operationalTriageV1.entries)
    (htype : question.type = .noul) :
    ∃ q : ℚ, (answerAt answers id).noul = some (.finite q) ∧ 0 ≤ q ∧ q ≤ 1 := by
  obtain ⟨answer, hlookup, -, hnoul, -, -⟩ :=
    validateAnswer_ok_iff.mp ((validateAnswers_ok_iff.mp h).2.2 _ hquestion)
  obtain ⟨⟨value, hvalue, q, rfl, hlow, hhigh⟩, -⟩ := validateNoulAnswer_ok_iff.mp (hnoul htype)
  exact ⟨q, by rw [answerAt_of_lookup hlookup, hvalue], hlow, hhigh⟩

theorem keys_of_accepted {questions : StrMap Question}
    (h : validateAnswers questions answers = .ok ()) : answers.keys = questions.keys := by
  obtain ⟨-, hknown, hanswered⟩ := validateAnswers_ok_iff.mp h
  apply StrMap.keys_eq_of_mem_iff
  intro key
  constructor
  · intro hkey
    exact StrMap.mem_keys_of_contains (hknown key hkey)
  · intro hkey
    obtain ⟨e, he, rfl⟩ := List.mem_map.mp hkey
    obtain ⟨answer, hlookup, -⟩ := validateAnswer_ok_iff.mp (hanswered e he)
    exact List.mem_map_of_mem (StrMap.mem_of_lookup hlookup)

/-- What the check of the answers says about this rubric. -/
theorem covers_of_accepted (h : validateAnswers operationalTriageV1 answers = .ok ()) :
    Covers answers := by
  have hanswered := (validateAnswers_ok_iff.mp h).2.2
  have hfamily := hanswered (questionIncidentFamily, _) List.mem_cons_self
  have himpact := hanswered (questionOperationalImpact, _)
    (List.mem_cons_of_mem _ (List.mem_cons_of_mem _ List.mem_cons_self))
  obtain ⟨immediate, himmediate, himmediateUnit⟩ := noul_of_accepted h
    (List.mem_cons_of_mem _ (List.mem_cons_of_mem _ (List.mem_cons_of_mem _ List.mem_cons_self)))
    rfl
  obtain ⟨transient, htransient, htransientUnit⟩ := noul_of_accepted h
    (List.mem_cons_of_mem _ List.mem_cons_self) rfl
  refine ⟨keys_of_accepted h, ?_, ?_, ?_, ?_⟩
  · obtain ⟨answer, hlookup, -, -, hchoice, -⟩ := validateAnswer_ok_iff.mp hfamily
    obtain ⟨-, -, -, hknown, -⟩ := validateChoiceAnswer_ok_iff.mp (hchoice rfl)
    rw [answerAt_of_lookup hlookup]
    exact StrMap.mem_keys_of_contains hknown
  · obtain ⟨answer, hlookup, -, -, -, hscore⟩ := validateAnswer_ok_iff.mp himpact
    obtain ⟨-, -, ⟨score, hvalue, hlow, hhigh, -⟩, -⟩ :=
      validateScoreAnswer_ok_iff.mp (hscore rfl)
    rw [impactOf, answerAt_of_lookup hlookup, hvalue]
    refine ⟨rfl, hlow, hhigh.trans ?_⟩
    decide +kernel
  · rw [immediateOf, himmediate]
    exact ⟨rfl, himmediateUnit⟩
  · rw [transientOf, htransient]
    exact ⟨rfl, htransientUnit⟩

end Accepted

namespace Composer

variable (c : Composer)

/-- The rank that a deterministic decision asks for at least, if there is one. -/
def floorRank (rank : Decision → Nat) (floor : Option Decision) : Nat := floor.elim 0 rank

theorem severityRank_floor (decision : Decision) (floor : Option Decision) :
    severityRank (applyDeterministicFloor decision floor).severity =
      max (severityRank decision.severity) (floorRank (severityRank ·.severity) floor) := by
  cases floor with
  | none => simp [applyDeterministicFloor, floorRank]
  | some floor =>
    unfold applyDeterministicFloor floorRank
    dsimp only [Option.elim]
    split_ifs with h
    · exact (max_eq_right h.le).symm
    · exact (max_eq_left (not_lt.mp h)).symm

theorem actionRank_floor (decision : Decision) (floor : Option Decision) :
    actionRank (applyDeterministicFloor decision floor).action =
      max (actionRank decision.action) (floorRank (actionRank ·.action) floor) := by
  cases floor with
  | none => simp [applyDeterministicFloor, floorRank]
  | some floor =>
    unfold applyDeterministicFloor floorRank
    dsimp only [Option.elim]
    split_ifs with h
    · exact (max_eq_right h.le).symm
    · exact (max_eq_left (not_lt.mp h)).symm

/-- A decision of a result that is not semantic stands; under any other there is the floor. -/
theorem compose_cases (result : Rules.Result) (answers : StrMap Answer) (failed : Bool) :
    (∃ decision, result.decision = some decision ∧ result.disposition ≠ .semantic ∧
      c.compose result answers failed = decision) ∨
    ((result.decision = none ∨ result.disposition = .semantic) ∧
      c.compose result answers failed = applyDeterministicFloor
        { c.evidence result answers failed with
          ruleIDs := mergeStrings (c.evidence result answers failed).ruleIDs
            (result.matched.map Match.ruleID) } result.decision) := by
  unfold compose
  cases result.decision with
  | none => exact Or.inr ⟨Or.inl rfl, rfl⟩
  | some decision =>
    by_cases h : result.disposition = .semantic
    · exact Or.inr ⟨Or.inr h, by simp [h]⟩
    · exact Or.inl ⟨decision, rfl, h, by simp [h]⟩

/-- A decision of the rules is a floor under whatever is composed. -/
theorem decision_le_compose {result : Rules.Result} {decision : Decision}
    (h : result.decision = some decision) (answers : StrMap Answer) (failed : Bool) :
    severityRank decision.severity ≤
        severityRank (c.compose result answers failed).severity ∧
      actionRank decision.action ≤ actionRank (c.compose result answers failed).action ∧
      ∀ id ∈ decision.ruleIDs, id ≠ "" → id ∈ (c.compose result answers failed).ruleIDs := by
  rcases c.compose_cases result answers failed with ⟨found, hfound, -, heq⟩ | ⟨-, heq⟩
  · rw [h] at hfound
    cases hfound
    rw [heq]
    exact ⟨le_rfl, le_rfl, fun id hid _ => hid⟩
  · rw [heq, severityRank_floor, actionRank_floor, h]
    refine ⟨le_max_right _ _, le_max_right _ _, ?_⟩
    intro id hid hne
    exact mem_mergeStrings.mpr ⟨Or.inr hid, hne⟩

/-- Answers that call for a page. -/
def Critical (answers : StrMap Answer) : Prop :=
  c.thresholds.criticalImpact ≤ impactOf answers ∨
    c.thresholds.criticalImmediateAttention ≤ immediateOf answers

/-- Answers that call for a notification at least. -/
def Warns (answers : StrMap Answer) : Prop :=
  c.thresholds.warningImpact ≤ impactOf answers ∨
    c.thresholds.warningImmediateAttention ≤ immediateOf answers ∨
    transientOf answers < c.thresholds.likelyTransientRecord

theorem composeOperationalTriage_named (answers : StrMap Answer) :
    "provider_evidence" ∈ (c.composeOperationalTriage answers).reasonCodes ∧
      (c.composeOperationalTriage answers).ruleIDs = [] := by
  unfold composeOperationalTriage
  dsimp only
  split_ifs <;> exact ⟨List.mem_cons_self, rfl⟩

theorem composeOperationalTriage_cases (answers : StrMap Answer) :
    (c.Critical answers ∧ (c.composeOperationalTriage answers).severity = .critical ∧
      (c.composeOperationalTriage answers).action = .page) ∨
    (¬c.Critical answers ∧ c.Warns answers ∧
      (c.composeOperationalTriage answers).severity = .warning ∧
      (c.composeOperationalTriage answers).action = .notify) ∨
    (¬c.Critical answers ∧ ¬c.Warns answers ∧
      (c.composeOperationalTriage answers).severity = .info ∧
      (c.composeOperationalTriage answers).action = .record) := by
  unfold composeOperationalTriage
  dsimp only
  split_ifs with hcritical hwarns
  · exact Or.inl ⟨hcritical, rfl, rfl⟩
  · exact Or.inr (Or.inl ⟨hcritical, hwarns, rfl, rfl⟩)
  · exact Or.inr (Or.inr ⟨hcritical, hwarns, rfl, rfl⟩)

theorem composeOperationalTriage_mono {a b : StrMap Answer} (himpact : impactOf a ≤ impactOf b)
    (himmediate : immediateOf a ≤ immediateOf b) (htransient : transientOf b ≤ transientOf a) :
    severityRank (c.composeOperationalTriage a).severity ≤
        severityRank (c.composeOperationalTriage b).severity ∧
      actionRank (c.composeOperationalTriage a).action ≤
        actionRank (c.composeOperationalTriage b).action := by
  have hcritical : c.Critical a → c.Critical b :=
    Or.imp (fun h => h.trans himpact) (fun h => h.trans himmediate)
  have hwarns : c.Warns a → c.Warns b :=
    Or.imp (fun h => h.trans himpact) (Or.imp (fun h => h.trans himmediate) htransient.trans_lt)
  rcases c.composeOperationalTriage_cases a with
    ⟨hca, hsa, haa⟩ | ⟨-, hwa, hsa, haa⟩ | ⟨-, -, hsa, haa⟩ <;>
  rcases c.composeOperationalTriage_cases b with
    ⟨-, hsb, hab⟩ | ⟨hcb, -, hsb, hab⟩ | ⟨hcb, hwb, hsb, hab⟩ <;>
  rw [hsa, haa, hsb, hab]
  -- the pairs in which the first set would rank above the second are excluded
  · decide
  · exact absurd (hcritical hca) hcb
  · exact absurd (hcritical hca) hcb
  · decide
  · decide
  · exact absurd (hwarns hwa) hwb
  · decide
  · decide
  · decide

/-- `composeOperationalTriage` with the pointers it reads through. Where one is absent the program
stops, and this is `none`. -/
def derefOperationalTriage (answers : StrMap Answer) : Option Decision := do
  let family := (answerAt answers questionIncidentFamily).choice
  let impact ← (answerAt answers questionOperationalImpact).score
  let immediate ← (answerAt answers questionRequiresImmediateAttention).noul
  let transient ← (answerAt answers questionLikelyTransient).noul
  let summary := "Provider evidence classifies the incident as " ++ family
  let codes := ["provider_evidence", "incident_family_" ++ family]
  if atLeast impact c.thresholds.criticalImpact ||
      atLeast immediate c.thresholds.criticalImmediateAttention then
    some ⟨.critical, .page, summary, codes ++ ["semantic_critical"], []⟩
  else if atLeast impact c.thresholds.warningImpact ||
      atLeast immediate c.thresholds.warningImmediateAttention ||
      below transient c.thresholds.likelyTransientRecord then
    some ⟨.warning, .notify, summary, codes ++ ["semantic_warning"], []⟩
  else some ⟨.info, .record, summary, codes ++ ["semantic_low_impact"], []⟩

/-- `Compose` with those pointers. -/
def derefCompose (result : Rules.Result) (answers : StrMap Answer) (failed : Bool) :
    Option Decision :=
  match result.decision with
  | some decision =>
    if result.disposition ≠ .semantic then some decision
    else (derefEvidence result answers failed).map (floored result)
  | none => (derefEvidence result answers failed).map (floored result)
where
  derefEvidence (result : Rules.Result) (answers : StrMap Answer) (failed : Bool) :
      Option Decision :=
    if failed ∨ result.questionSet ≠ operationalTriageV1Name then some c.fallback
    else match validateAnswers operationalTriageV1 answers with
      | .error _ => some c.fallback
      | .ok () => c.derefOperationalTriage answers
  floored (result : Rules.Result) (composed : Decision) : Decision :=
    applyDeterministicFloor
      { composed with ruleIDs := mergeStrings composed.ruleIDs (result.matched.map Match.ruleID) }
      result.decision

theorem derefOperationalTriage_eq {answers : StrMap Answer} (h : Covers answers) :
    c.derefOperationalTriage answers = some (c.composeOperationalTriage answers) := by
  have himpact := h.impact.1
  have himmediate := h.immediate.1
  have htransient := h.transient.1
  simp only [derefOperationalTriage, himpact, himmediate, htransient, Option.bind_eq_bind,
    Option.bind_some, atLeast, below, Bool.or_eq_true, decide_eq_true_eq, or_assoc]
  unfold composeOperationalTriage
  simp only [← apply_ite some]
  rfl

theorem derefEvidence_eq (result : Rules.Result) (answers : StrMap Answer) (failed : Bool) :
    derefCompose.derefEvidence c result answers failed =
      some (c.evidence result answers failed) := by
  unfold derefCompose.derefEvidence evidence
  split_ifs
  · rfl
  · cases haccepted : validateAnswers operationalTriageV1 answers with
    | error err => rfl
    | ok _ => exact c.derefOperationalTriage_eq (covers_of_accepted haccepted)

/-- Whatever the answers, `Compose` reads through no absent pointer. -/
theorem derefCompose_eq (result : Rules.Result) (answers : StrMap Answer) (failed : Bool) :
    c.derefCompose result answers failed = some (c.compose result answers failed) := by
  unfold derefCompose compose
  rw [derefEvidence_eq]
  cases hdecision : result.decision with
  | none => simp [derefCompose.floored, hdecision]
  | some decision =>
    dsimp only
    split_ifs
    · rfl
    · simp [derefCompose.floored, hdecision]

/-- The evidence is that of the answers where it names them, and the fallback otherwise. -/
theorem evidence_cases (result : Rules.Result) (answers : StrMap Answer) (failed : Bool) :
    (failed = false ∧ result.questionSet = operationalTriageV1Name ∧
      validateAnswers operationalTriageV1 answers = .ok () ∧
      c.evidence result answers failed = c.composeOperationalTriage answers) ∨
    c.evidence result answers failed = c.fallback := by
  unfold evidence
  split_ifs with h
  · exact Or.inr rfl
  · cases haccepted : validateAnswers operationalTriageV1 answers with
    | error err => exact Or.inr rfl
    | ok _ =>
      rw [not_or, not_not, Bool.not_eq_true] at h
      exact Or.inl ⟨h.1, h.2, rfl, rfl⟩

section Samples

/-- Probabilities that are all on one of the levels. -/
def allOn (level : Nat) : StrMap Float64 where
  entries := [("0", .finite (if level = 0 then 1 else 0)),
    ("1", .finite (if level = 1 then 1 else 0)), ("2", .finite (if level = 2 then 1 else 0)),
    ("3", .finite (if level = 3 then 1 else 0))]
  sorted := show ["0", "1", "2", "3"].Pairwise (· < ·) by decide

/-- Answers that are sure of their family and of their level. -/
def sureAnswers (level : Nat) (immediate transient : ℚ) : StrMap Answer where
  entries := [
    (questionIncidentFamily, {
      type := .choice
      choice := "dependency"
      confidence := some (.finite 1)
      probabilities := ⟨[("application", .finite 0), ("configuration", .finite 0),
        ("dependency", .finite 1), ("infrastructure", .finite 0), ("security", .finite 0),
        ("unknown", .finite 0)],
        show incidentFamilies.Pairwise (· < ·) by decide⟩ }),
    (questionLikelyTransient, { type := .noul, noul := some (.finite transient) }),
    (questionOperationalImpact, {
      type := .score
      score := some (.finite level)
      legend := ⟨[("0", "No current user-visible impact"),
        ("1", "Limited degradation or a working workaround"),
        ("2", "Material degradation affecting multiple users or a critical workload"),
        ("3", "Broad outage, data-loss risk, or security impact")],
        show ["0", "1", "2", "3"].Pairwise (· < ·) by decide⟩
      confidence := some (.finite 1)
      probabilities := allOn level }),
    (questionRequiresImmediateAttention, { type := .noul, noul := some (.finite immediate) })]
  sorted := show [questionIncidentFamily, questionLikelyTransient, questionOperationalImpact,
    questionRequiresImmediateAttention].Pairwise (· < ·) by decide

/-- A selected warning event, as the rules hand it to the provider. -/
def semanticResult : Rules.Result where
  matched := [⟨"warning-event", "selected Warning Event requires semantic triage", .warning⟩]
  disposition := .semantic
  questionSet := operationalTriageV1Name

theorem sureAnswers_accepted :
    validateAnswers operationalTriageV1 (sureAnswers 0 0 1) = .ok () ∧
      validateAnswers operationalTriageV1 (sureAnswers 3 (9 / 10) 0) = .ok () :=
  ⟨ok_of_toOption (by decide +kernel), ok_of_toOption (by decide +kernel)⟩

end Samples

/-- Stronger evidence never lowers the decision. -/
theorem compose_mono (result : Rules.Result) {a b : StrMap Answer}
    (ha : validateAnswers operationalTriageV1 a = .ok ())
    (hb : validateAnswers operationalTriageV1 b = .ok ())
    (himpact : impactOf a ≤ impactOf b) (himmediate : immediateOf a ≤ immediateOf b)
    (htransient : transientOf b ≤ transientOf a) (failed : Bool) :
    severityRank (c.compose result a failed).severity ≤
        severityRank (c.compose result b failed).severity ∧
      actionRank (c.compose result a failed).action ≤
        actionRank (c.compose result b failed).action := by
  have hevidence : severityRank (c.evidence result a failed).severity ≤
        severityRank (c.evidence result b failed).severity ∧
      actionRank (c.evidence result a failed).action ≤
        actionRank (c.evidence result b failed).action := by
    unfold evidence
    rw [ha, hb]
    split_ifs
    · exact ⟨le_rfl, le_rfl⟩
    · exact c.composeOperationalTriage_mono himpact himmediate htransient
  rcases c.compose_cases result a failed with ⟨da, hda, hsa, heqa⟩ | ⟨hsa, heqa⟩ <;>
    rcases c.compose_cases result b failed with ⟨db, hdb, hsb, heqb⟩ | ⟨hsb, heqb⟩
  · rw [hda] at hdb
    cases hdb
    rw [heqa, heqb]
    exact ⟨le_rfl, le_rfl⟩
  · exact absurd hsb (by simp [hda, hsa])
  · exact absurd hsa (by simp [hdb, hsb])
  · rw [heqa, heqb, severityRank_floor, severityRank_floor, actionRank_floor, actionRank_floor]
    exact ⟨max_le_max_right _ hevidence.1, max_le_max_right _ hevidence.2⟩

theorem outage_outranks_calm :
    validateAnswers operationalTriageV1 (sureAnswers 0 0 1) = .ok () ∧
      validateAnswers operationalTriageV1 (sureAnswers 3 (9 / 10) 0) = .ok () ∧
      severityRank (newComposer.compose semanticResult (sureAnswers 0 0 1) false).severity ≤
        severityRank (newComposer.compose semanticResult (sureAnswers 3 (9 / 10) 0) false).severity ∧
      actionRank (newComposer.compose semanticResult (sureAnswers 0 0 1) false).action ≤
        actionRank (newComposer.compose semanticResult (sureAnswers 3 (9 / 10) 0) false).action :=
  ⟨sureAnswers_accepted.1, sureAnswers_accepted.2,
    newComposer.compose_mono semanticResult sureAnswers_accepted.1 sureAnswers_accepted.2
      (by decide +kernel) (by decide +kernel) (by decide +kernel) false⟩

/-- `Compose` never reads through an absent pointer; and where the rules leave the decision to the
provider, it uses evidence that the rubric allows and nothing else. -/
theorem compose_fails_closed (result : Rules.Result) (answers : StrMap Answer) (failed : Bool) :
    (∀ c : Composer, c.derefCompose result answers failed =
      some (c.compose result answers failed)) ∧
    (result.disposition = .semantic → result.decision = none →
      ("provider_evidence" ∈ (newComposer.compose result answers failed).reasonCodes →
        failed = false ∧ result.questionSet = operationalTriageV1Name ∧ Covers answers ∧
          newComposer.compose result answers failed =
            { newComposer.composeOperationalTriage answers with
              ruleIDs := mergeStrings [] (result.matched.map Match.ruleID) }) ∧
      ("provider_evidence" ∉ (newComposer.compose result answers failed).reasonCodes →
        (newComposer.compose result answers failed).severity = .warning ∧
        (newComposer.compose result answers failed).action = .notify ∧
        (newComposer.compose result answers failed).reasonCodes = ["provider_unavailable"])) := by
  refine ⟨fun c => c.derefCompose_eq result answers failed, fun _ hdecision => ?_⟩
  have hcompose : newComposer.compose result answers failed =
      { newComposer.evidence result answers failed with
        ruleIDs := mergeStrings (newComposer.evidence result answers failed).ruleIDs
          (result.matched.map Match.ruleID) } := by
    simp only [compose, hdecision, applyDeterministicFloor]
  rcases newComposer.evidence_cases result answers failed with
    ⟨hfailed, hset, haccepted, hevidence⟩ | hevidence <;> rw [hcompose, hevidence]
  · obtain ⟨hcode, hrules⟩ := newComposer.composeOperationalTriage_named answers
    rw [hrules]
    exact ⟨fun _ => ⟨hfailed, hset, covers_of_accepted haccepted, rfl⟩, fun hno => absurd hcode hno⟩
  · constructor
    · intro hcode
      exact absurd (List.mem_singleton.mp hcode) (by decide)
    · intro _
      exact ⟨rfl, rfl, rfl⟩

theorem outage_covers_rubric :
    "provider_evidence" ∈
        (newComposer.compose semanticResult (sureAnswers 3 (9 / 10) 0) false).reasonCodes ∧
      Covers (sureAnswers 3 (9 / 10) 0) ∧
      (newComposer.compose semanticResult StrMap.empty false).reasonCodes =
        ["provider_unavailable"] := by
  have hcode : "provider_evidence" ∈
      (newComposer.compose semanticResult (sureAnswers 3 (9 / 10) 0) false).reasonCodes := by
    decide +kernel
  have hnone : "provider_evidence" ∉
      (newComposer.compose semanticResult StrMap.empty false).reasonCodes := by
    decide +kernel
  obtain ⟨-, -, hcovers, -⟩ :=
    ((compose_fails_closed semanticResult (sureAnswers 3 (9 / 10) 0) false).2 rfl rfl).1 hcode
  obtain ⟨-, -, hfallback⟩ :=
    ((compose_fails_closed semanticResult StrMap.empty false).2 rfl rfl).2 hnone
  exact ⟨hcode, hcovers, hfallback⟩

end Composer

end RuleRaven.Triage
