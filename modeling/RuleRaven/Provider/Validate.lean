import RuleRaven.Framework.Binary64
import RuleRaven.Framework.StrMap
import RuleRaven.Framework.Text
import RuleRaven.Basic
import Mathlib.Algebra.Order.Field.Rat
import Mathlib.Data.Rat.Floor

namespace RuleRaven.Provider

open Framework

/-- `float64`. A finite value is the rational it stands for, so that both zeros are one. -/
inductive Float64 where
  | finite (value : ℚ)
  | nan
  | posInf
  | negInf
  deriving DecidableEq

inductive QuestionType where
  | noul
  | choice
  | score
  | unknown (text : String)
  deriving DecidableEq, Repr

structure Question where
  type : QuestionType
  instructions : String
  criteria : StrMap String := StrMap.empty
  levels : List String := []
  deriving DecidableEq

structure Answer where
  type : QuestionType
  noul : Option Float64 := none
  choice : String := ""
  score : Option Float64 := none
  legend : StrMap String := StrMap.empty
  probabilities : StrMap Float64 := StrMap.empty
  confidence : Option Float64 := none
  deriving DecidableEq

structure EvaluationRequest where
  state : String
  questions : StrMap Question
  rubricVersion : String
  requestID : String
  requestedModel : String := ""
  deriving DecidableEq

structure Usage where
  inputTokens : Int := 0
  outputTokens : Int := 0
  deriving DecidableEq, Repr

structure EvaluationResponse where
  answers : StrMap Answer := StrMap.empty
  provider : String := ""
  requestedModel : String := ""
  resolvedModel : String := ""
  requestID : String := ""
  providerRequestID : String := ""
  usage : Usage := {}
  latency : Duration := 0
  attempts : Int := 0
  rawResponseHash : String := ""
  deriving DecidableEq

/-- The messages of `ValidateQuestions`, each with the values it prints. -/
inductive QuestionError where
  | empty
  | blankID
  | blankInstructions (id : String)
  | noulLevels (id : String)
  | noulCriteria (id : String)
  | noulMissing (id criterion : String)
  | choiceLevels (id : String)
  | choiceTooFew (id : String)
  | choiceBlank (id : String)
  | scoreCriteria (id : String)
  | scoreTooFew (id : String)
  | scoreBlankLevel (id : String)
  | scoreDuplicateLevel (id level : String)
  | unknownType (id : String) (type : QuestionType)
  deriving DecidableEq, Repr

/-- The messages about the fields of one answer. -/
inductive FieldError where
  | required (name : String)
  | notFinite (name : String)
  | outOfUnit (name : String)
  | scoreRange (top : Nat)
  | notAllowed (name : String) (answer : QuestionType)
  | otherType (answer : QuestionType)
  | unknownChoice (choice : String)
  | notHighest (choice : String)
  | legendSize (expected : Nat)
  | legendMissing (key : String)
  | legendDuplicate (value : String)
  | legendMismatch (key actual expected : String)
  | probabilityCount (expected : Nat)
  | probabilityUnknown (key : String)
  | probabilitySum (sum : ℚ)
  | scoreMismatch (score weighted : ℚ)
  deriving DecidableEq

inductive AnswerError where
  | invalidQuestions (err : QuestionError)
  | unknown (id : String)
  | missing (id : String)
  | typeMismatch (id : String) (actual expected : QuestionType)
  | invalid (id : String) (err : FieldError)
  deriving DecidableEq

/-- What Go leaves open about a check: the order in which `range` visits the probabilities, and
whether a product is rounded before it is added, or fused with the sum. -/
structure Leeway where
  range : List (String × Float64) → List (String × Float64)
  range_perm : ∀ entries, (range entries).Perm entries
  fused : Bool

/-- By key, and with every product rounded. -/
def Leeway.plain : Leeway := ⟨id, List.Perm.refl, false⟩

def probabilityTolerance : ℚ := Binary64.rounded (1 / 1000000000)

/-- The loop over score levels: none blank, none seen before. -/
def validateLevels (id : String) : List String → List String → Except QuestionError Unit
  | _, [] => .ok ()
  | seen, level :: levels =>
    if isBlank level then .error (.scoreBlankLevel id)
    else if seen.contains level then .error (.scoreDuplicateLevel id level)
    else validateLevels id (level :: seen) levels

def validateQuestion (id : String) (question : Question) : Except QuestionError Unit :=
  if isBlank id then .error .blankID
  else if isBlank question.instructions then .error (.blankInstructions id)
  else match question.type with
    | .noul =>
      if question.levels ≠ [] then .error (.noulLevels id)
      else if question.criteria.size = 0 then .ok ()
      else if question.criteria.size ≠ 2 then .error (.noulCriteria id)
      else if !question.criteria.contains "true" then .error (.noulMissing id "true")
      else if !question.criteria.contains "false" then .error (.noulMissing id "false")
      else .ok ()
    | .choice =>
      if question.levels ≠ [] then .error (.choiceLevels id)
      else if question.criteria.size < 2 then .error (.choiceTooFew id)
      else if question.criteria.keys.any isBlank then .error (.choiceBlank id)
      else .ok ()
    | .score =>
      if question.criteria.size ≠ 0 then .error (.scoreCriteria id)
      else if question.levels.length < 2 then .error (.scoreTooFew id)
      else validateLevels id [] question.levels
    | .unknown text => .error (.unknownType id (.unknown text))

/-- A check of each entry of a map in key order, stopping at the first failure. -/
def checkEntries {β ε : Type} (check : String → β → Except ε Unit) :
    List (String × β) → Except ε Unit
  | [] => .ok ()
  | (key, value) :: rest =>
    match check key value with
    | .error err => .error err
    | .ok () => checkEntries check rest

def validateQuestions (questions : StrMap Question) : Except QuestionError Unit :=
  if questions.size = 0 then .error .empty
  else checkEntries validateQuestion questions.entries

def validateUnitValue (name : String) : Float64 → Except FieldError Unit
  | .finite value => if value < 0 ∨ 1 < value then .error (.outOfUnit name) else .ok ()
  | _ => .error (.notFinite name)

def validateNoulAnswer (answer : Answer) : Except FieldError Unit :=
  match answer.noul with
  | none => .error (.required "noul value")
  | some value =>
    match validateUnitValue "noul" value with
    | .error err => .error err
    | .ok () =>
      if answer.choice ≠ "" then .error (.notAllowed "choice" .noul)
      else if answer.score ≠ none then .error (.notAllowed "score" .noul)
      else if answer.legend.size ≠ 0 then .error (.notAllowed "legend" .noul)
      else if answer.probabilities.size ≠ 0 then .error (.notAllowed "probabilities" .noul)
      else if answer.confidence ≠ none then .error (.notAllowed "confidence" .noul)
      else .ok ()

def validateConfidence : Option Float64 → Except FieldError Unit
  | none => .error (.required "confidence")
  | some value => validateUnitValue "confidence" value

/-- The sum of the probabilities, once each belongs to an expected key and lies in [0, 1]. -/
def sumProbabilities (expected : List String) : ℚ → List (String × Float64) → Except FieldError ℚ
  | sum, [] => .ok sum
  | sum, (key, probability) :: rest =>
    if !expected.contains key then .error (.probabilityUnknown key)
    else match probability with
      | .finite p =>
        if p < 0 ∨ 1 < p then .error (.outOfUnit key)
        else sumProbabilities expected (Binary64.rounded (sum + p)) rest
      | _ => .error (.notFinite key)

def validateDistribution (leeway : Leeway) (expectedKeys : List String)
    (probabilities : StrMap Float64) : Except FieldError Unit :=
  if probabilities.size ≠ expectedKeys.length then
    .error (.probabilityCount expectedKeys.length)
  else match sumProbabilities expectedKeys 0 (leeway.range probabilities.entries) with
    | .error err => .error err
    | .ok sum =>
      if probabilityTolerance < |Binary64.rounded (sum - 1)| then .error (.probabilitySum sum)
      else .ok ()

/-- A missing key reads as zero, as in a Go map. -/
def probabilityOf (probabilities : StrMap Float64) (key : String) : ℚ :=
  match probabilities.lookup key with
  | some (.finite p) => p
  | _ => 0

def validateChoiceAnswer (leeway : Leeway) (question : Question) (answer : Answer) :
    Except FieldError Unit :=
  if answer.noul ≠ none ∨ answer.score ≠ none ∨ answer.legend.size ≠ 0 then
    .error (.otherType .choice)
  else if !question.criteria.contains answer.choice then .error (.unknownChoice answer.choice)
  else match validateConfidence answer.confidence with
    | .error err => .error err
    | .ok () =>
      match validateDistribution leeway question.criteria.keys answer.probabilities with
      | .error err => .error err
      | .ok () =>
        let selected := probabilityOf answer.probabilities answer.choice
        if answer.probabilities.keys.any fun key =>
            decide (Binary64.rounded (selected + probabilityTolerance) <
              probabilityOf answer.probabilities key) then
          .error (.notHighest answer.choice)
        else .ok ()

/-- The loop over the expected levels, from level `index` on. -/
def validateLegend (legend : StrMap String) : Nat → List String → List String →
    Except FieldError Unit
  | _, _, [] => .ok ()
  | index, seen, expected :: levels =>
    match legend.lookup (Nat.repr index) with
    | none => .error (.legendMissing (Nat.repr index))
    | some actual =>
      if seen.contains actual then .error (.legendDuplicate actual)
      else if actual ≠ expected then .error (.legendMismatch (Nat.repr index) actual expected)
      else validateLegend legend (index + 1) (actual :: seen) levels

/-- What a level adds to the score. A fused product is not rounded on its own. -/
def weightedTerm (fused : Bool) (probabilities : StrMap Float64) (i : Nat) : ℚ :=
  let product := Binary64.rounded i * probabilityOf probabilities (Nat.repr i)
  if fused then product else Binary64.rounded product

def weightedScore (fused : Bool) (probabilities : StrMap Float64) (levels : Nat) : ℚ :=
  Binary64.sum 0 ((List.range levels).map (weightedTerm fused probabilities))

def scoreTolerance : ℚ := Binary64.rounded (1 / 1000000)

def validateScoreAnswer (leeway : Leeway) (question : Question) (answer : Answer) :
    Except FieldError Unit :=
  if answer.noul ≠ none ∨ answer.choice ≠ "" then .error (.otherType .score)
  else match answer.score with
    | none => .error (.required "score")
    | some (.finite score) =>
      if score < 0 ∨ Binary64.rounded ((question.levels.length : ℚ) - 1) < score then
        .error (.scoreRange (question.levels.length - 1))
      else match validateConfidence answer.confidence with
        | .error err => .error err
        | .ok () =>
          if answer.legend.size ≠ question.levels.length then
            .error (.legendSize question.levels.length)
          else match validateLegend answer.legend 0 [] question.levels with
            | .error err => .error err
            | .ok () =>
              match validateDistribution leeway
                  ((List.range question.levels.length).map Nat.repr) answer.probabilities with
              | .error err => .error err
              | .ok () =>
                let weighted :=
                  weightedScore leeway.fused answer.probabilities question.levels.length
                if scoreTolerance < |Binary64.rounded (weighted - score)| then
                  .error (.scoreMismatch score weighted)
                else .ok ()
    | some _ => .error (.notFinite "score")

def validateAnswer (leeway : String → Leeway) (answers : StrMap Answer) (id : String)
    (question : Question) : Except AnswerError Unit :=
  match answers.lookup id with
  | none => .error (.missing id)
  | some answer =>
    if answer.type ≠ question.type then .error (.typeMismatch id answer.type question.type)
    else
      let checked := match question.type with
        | .noul => validateNoulAnswer answer
        | .choice => validateChoiceAnswer (leeway id) question answer
        | .score => validateScoreAnswer (leeway id) question answer
        | .unknown _ => .ok ()
      match checked with
      | .error err => .error (.invalid id err)
      | .ok () => .ok ()

/-- `ValidateAnswers`, whatever order it visits the probabilities of each question in. -/
def validateAnswersIn (leeway : String → Leeway) (questions : StrMap Question)
    (answers : StrMap Answer) : Except AnswerError Unit :=
  match validateQuestions questions with
  | .error err => .error (.invalidQuestions err)
  | .ok () =>
    match answers.keys.find? fun id => !questions.contains id with
    | some id => .error (.unknown id)
    | none => checkEntries (validateAnswer leeway answers) questions.entries

/-- `ValidateAnswers` as its callers use it here. -/
def validateAnswers (questions : StrMap Question) (answers : StrMap Answer) :
    Except AnswerError Unit :=
  validateAnswersIn (fun _ => .plain) questions answers

end RuleRaven.Provider
