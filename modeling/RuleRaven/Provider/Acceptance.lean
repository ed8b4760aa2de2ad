import RuleRaven.Provider.Schema
import Mathlib.Data.List.Perm.Subperm
import Mathlib.Tactic.Linarith

namespace RuleRaven.Provider

open Framework

/-- A finite value between 0 and 1. -/
def Float64.InUnit (value : Float64) : Prop := ∃ q : ℚ, value = .finite q ∧ 0 ≤ q ∧ q ≤ 1

section Checks

variable {β ε : Type} {check : String → β → Except ε Unit}

theorem guard_ok {p : Prop} [Decidable p] {err : ε} {rest : Except ε Unit} :
    (if p then .error err else rest) = .ok () ↔ ¬p ∧ rest = .ok () := by
  by_cases h : p <;> simp [h]

theorem checkEntries_ok_iff {entries : List (String × β)} :
    checkEntries check entries = .ok () ↔ ∀ e ∈ entries, check e.1 e.2 = .ok () := by
  induction entries with
  | nil => simp [checkEntries]
  | cons entry entries ih =>
    obtain ⟨key, value⟩ := entry
    rw [List.forall_mem_cons, ← ih]
    cases hcheck : check key value <;> simp [checkEntries, hcheck]

theorem validateUnitValue_ok_iff {name : String} {value : Float64} :
    validateUnitValue name value = .ok () ↔ value.InUnit := by
  cases value with
  | finite q =>
    unfold validateUnitValue
    rw [guard_ok]
    simp [Float64.InUnit, not_or, not_lt]
  | nan | posInf | negInf => simp [validateUnitValue, Float64.InUnit]

theorem validateConfidence_ok_iff {confidence : Option Float64} :
    validateConfidence confidence = .ok () ↔ ∃ value, confidence = some value ∧ value.InUnit := by
  cases confidence with
  | none => simp [validateConfidence]
  | some value => simp [validateConfidence, validateUnitValue_ok_iff]

/-- The number that a probability stands for. -/
def Float64.number : Float64 → ℚ
  | .finite q => q
  | _ => 0

theorem sumProbabilities_ok_iff {expected : List String} {sum total : ℚ}
    {probabilities : List (String × Float64)} :
    sumProbabilities expected sum probabilities = .ok total ↔
      (∀ e ∈ probabilities, e.1 ∈ expected ∧ e.2.InUnit) ∧
        total = Binary64.sum sum (probabilities.map fun e => e.2.number) := by
  induction probabilities generalizing sum with
  | nil => simp [sumProbabilities, Binary64.sum, eq_comm]
  | cons entry probabilities ih =>
    obtain ⟨key, probability⟩ := entry
    unfold sumProbabilities
    by_cases hkey : key ∈ expected
    · rw [if_neg (by simpa using hkey)]
      cases probability with
      | finite p =>
        dsimp only
        by_cases hp : p < 0 ∨ 1 < p
        · rw [if_pos hp]
          constructor
          · intro h
            cases h
          · intro h
            obtain ⟨-, q, hq, hlow, hhigh⟩ := h.1 _ List.mem_cons_self
            cases hq
            rcases hp with hp | hp <;> linarith
        · rw [if_neg hp, ih, List.forall_mem_cons]
          have hunit : (Float64.finite p).InUnit :=
            ⟨p, rfl, not_lt.mp fun h => hp (Or.inl h), not_lt.mp fun h => hp (Or.inr h)⟩
          simp [hkey, hunit, Float64.number, Binary64.sum]
      | nan | posInf | negInf => simp [Float64.InUnit]
    · rw [if_pos (by simpa using hkey)]
      simp [hkey]

theorem validateDistribution_ok_iff {leeway : Leeway} {expected : List String}
    {probabilities : StrMap Float64} :
    validateDistribution leeway expected probabilities = .ok () ↔
      probabilities.size = expected.length ∧
      (∀ e ∈ probabilities.entries, e.1 ∈ expected ∧ e.2.InUnit) ∧
      |Binary64.rounded (Binary64.sum 0
        ((leeway.range probabilities.entries).map fun e => e.2.number) - 1)| ≤
          probabilityTolerance := by
  have hmem : ∀ e, e ∈ leeway.range probabilities.entries ↔ e ∈ probabilities.entries :=
    fun e => (leeway.range_perm _).mem_iff
  unfold validateDistribution
  rw [guard_ok, not_not]
  refine and_congr_right fun _ => ?_
  simp only [← hmem]
  constructor
  · intro h
    cases hsum : sumProbabilities expected 0 (leeway.range probabilities.entries) with
    | error err => simp [hsum] at h
    | ok total =>
      obtain ⟨hentries, htotal⟩ := sumProbabilities_ok_iff.mp hsum
      simp only [hsum, guard_ok, not_lt, and_true] at h
      exact ⟨hentries, htotal ▸ h⟩
  · rintro ⟨hentries, hsum⟩
    have hok : sumProbabilities expected 0 (leeway.range probabilities.entries) = .ok _ :=
      sumProbabilities_ok_iff.mpr ⟨hentries, rfl⟩
    simp only [hok, guard_ok, not_lt, and_true]
    exact hsum

/-- The legend repeats each level under its index, each level once. -/
theorem validateLegend_ok_iff {legend : StrMap String} {index : Nat} {seen levels : List String} :
    validateLegend legend index seen levels = .ok () ↔
      (∀ k (hk : k < levels.length), legend.lookup (Nat.repr (index + k)) = some levels[k]) ∧
        levels.Nodup ∧ ∀ level ∈ levels, level ∉ seen := by
  induction levels generalizing index seen with
  | nil => simp [validateLegend]
  | cons level levels ih =>
    have hsplit : (∀ k (hk : k < (level :: levels).length),
        legend.lookup (Nat.repr (index + k)) = some (level :: levels)[k]) ↔
        legend.lookup (Nat.repr index) = some level ∧ ∀ k (hk : k < levels.length),
          legend.lookup (Nat.repr (index + 1 + k)) = some levels[k] := by
      constructor
      · intro h
        refine ⟨h 0 (Nat.zero_lt_succ _), fun k hk => ?_⟩
        have hnext := h (k + 1) (Nat.succ_lt_succ hk)
        rwa [show index + (k + 1) = index + 1 + k by omega] at hnext
      · rintro ⟨hfirst, hrest⟩ k hk
        cases k with
        | zero => exact hfirst
        | succ k =>
          have hnext := hrest k (Nat.lt_of_succ_lt_succ hk)
          rwa [show index + 1 + k = index + (k + 1) by omega] at hnext
    rw [hsplit]
    unfold validateLegend
    cases hlookup : legend.lookup (Nat.repr index) with
    | none => simp
    | some actual =>
      dsimp only
      rw [guard_ok, guard_ok, not_not, ih]
      by_cases hactual : actual = level
      · subst hactual
        rw [List.forall_mem_cons]
        simp only [List.contains_iff_mem, true_and, List.mem_cons, not_or, List.nodup_cons]
        constructor
        · rintro ⟨hseen, hlevels, hnodup, hfresh⟩
          exact ⟨hlevels, ⟨fun hmem => (hfresh _ hmem).1 rfl, hnodup⟩, hseen,
            fun level hlevel => (hfresh level hlevel).2⟩
        · rintro ⟨hlevels, ⟨hnew, hnodup⟩, hseen, hfresh⟩
          exact ⟨hseen, hlevels, hnodup, fun level hlevel =>
            ⟨fun heq => hnew (heq ▸ hlevel), hfresh level hlevel⟩⟩
      · simp [hactual]

end Checks

section Answers

variable {leeway : Leeway} {question : Question} {answer : Answer}

theorem validateNoulAnswer_ok_iff : validateNoulAnswer answer = .ok () ↔
    (∃ value, answer.noul = some value ∧ value.InUnit) ∧ answer.choice = "" ∧
      answer.score = none ∧ answer.legend.size = 0 ∧ answer.probabilities.size = 0 ∧
      answer.confidence = none := by
  unfold validateNoulAnswer
  cases answer.noul with
  | none => simp
  | some value =>
    have hunit : (∃ v, some value = some v ∧ v.InUnit) ↔
        validateUnitValue "noul" value = .ok () := by
      simp [validateUnitValue_ok_iff]
    rw [hunit]
    dsimp only
    cases validateUnitValue "noul" value with
    | error err => simp
    | ok _ => simp only [guard_ok, not_not, true_and, and_true]

theorem validateChoiceAnswer_ok_iff : validateChoiceAnswer leeway question answer = .ok () ↔
    answer.noul = none ∧ answer.score = none ∧ answer.legend.size = 0 ∧
      question.criteria.contains answer.choice = true ∧
      (∃ value, answer.confidence = some value ∧ value.InUnit) ∧
      validateDistribution leeway question.criteria.keys answer.probabilities = .ok () ∧
      ∀ key ∈ answer.probabilities.keys, probabilityOf answer.probabilities key ≤
        Binary64.rounded (probabilityOf answer.probabilities answer.choice +
          probabilityTolerance) := by
  unfold validateChoiceAnswer
  rw [guard_ok, guard_ok, ← validateConfidence_ok_iff]
  cases validateConfidence answer.confidence with
  | error err => simp
  | ok _ =>
    cases validateDistribution leeway question.criteria.keys answer.probabilities with
    | error err => simp
    | ok _ => simp [and_assoc]

theorem validateScoreAnswer_ok_iff : validateScoreAnswer leeway question answer = .ok () ↔
    answer.noul = none ∧ answer.choice = "" ∧
      (∃ score, answer.score = some (.finite score) ∧ 0 ≤ score ∧
        score ≤ Binary64.rounded ((question.levels.length : ℚ) - 1) ∧
        |Binary64.rounded (weightedScore leeway.fused answer.probabilities question.levels.length -
          score)| ≤ scoreTolerance) ∧
      (∃ value, answer.confidence = some value ∧ value.InUnit) ∧
      answer.legend.size = question.levels.length ∧
      validateLegend answer.legend 0 [] question.levels = .ok () ∧
      validateDistribution leeway (levelKeys question) answer.probabilities = .ok () := by
  unfold validateScoreAnswer levelKeys
  rw [guard_ok, ← validateConfidence_ok_iff]
  cases answer.score with
  | none => simp
  | some value =>
    cases value with
    | nan | posInf | negInf => simp
    | finite score =>
      dsimp only
      rw [guard_ok]
      cases validateConfidence answer.confidence with
      | error err => simp
      | ok _ =>
        dsimp only
        rw [guard_ok]
        cases validateLegend answer.legend 0 [] question.levels with
        | error err => simp
        | ok _ =>
          cases validateDistribution leeway ((List.range question.levels.length).map Nat.repr)
              answer.probabilities with
          | error err => simp
          | ok _ =>
            simp
            tauto

/-- What an accepted answer of each type is. -/
theorem validateAnswer_ok_iff {leeway : String → Leeway} {answers : StrMap Answer} {id : String} :
    validateAnswer leeway answers id question = .ok () ↔
      ∃ answer, answers.lookup id = some answer ∧ answer.type = question.type ∧
        (question.type = .noul → validateNoulAnswer answer = .ok ()) ∧
        (question.type = .choice → validateChoiceAnswer (leeway id) question answer = .ok ()) ∧
        (question.type = .score → validateScoreAnswer (leeway id) question answer = .ok ()) := by
  unfold validateAnswer
  cases answers.lookup id with
  | none => simp
  | some answer =>
    dsimp only
    rw [guard_ok, not_not]
    simp only [Option.some.injEq, exists_eq_left']
    refine and_congr_right fun _ => ?_
    cases question.type with
    | noul => cases validateNoulAnswer answer <;> simp
    | choice => cases validateChoiceAnswer (leeway id) question answer <;> simp
    | score => cases validateScoreAnswer (leeway id) question answer <;> simp
    | unknown text => simp

/-- A question that is accepted has one of the three types. -/
theorem type_of_validateQuestion {id : String} (h : validateQuestion id question = .ok ())
    (text : String) : question.type ≠ .unknown text := by
  intro htype
  unfold validateQuestion at h
  rw [guard_ok, guard_ok, htype] at h
  cases h.2.2

theorem validateQuestions_ok_iff {questions : StrMap Question} :
    validateQuestions questions = .ok () ↔
      questions.size ≠ 0 ∧ ∀ e ∈ questions.entries, validateQuestion e.1 e.2 = .ok () := by
  unfold validateQuestions
  rw [guard_ok, checkEntries_ok_iff]

theorem validateAnswers_ok_iff {leeway : String → Leeway} {questions : StrMap Question}
    {answers : StrMap Answer} :
    validateAnswersIn leeway questions answers = .ok () ↔
      validateQuestions questions = .ok () ∧
      (∀ id ∈ answers.keys, questions.contains id = true) ∧
      ∀ e ∈ questions.entries, validateAnswer leeway answers e.1 e.2 = .ok () := by
  unfold validateAnswersIn
  cases validateQuestions questions with
  | error err => simp
  | ok _ =>
    cases hunknown : answers.keys.find? (fun id => !questions.contains id) with
    | some id =>
      have hmem := List.mem_of_find?_eq_some hunknown
      have hcontains := List.find?_some hunknown
      constructor
      · intro h
        cases h
      · intro h
        have hknown := h.2.1 id hmem
        simp [hknown] at hcontains
    | none =>
      have hknown := List.find?_eq_none.mp hunknown
      simp only [Bool.not_eq_true', Bool.not_eq_false] at hknown
      simpa [checkEntries_ok_iff] using fun _ => hknown

end Answers

end RuleRaven.Provider
