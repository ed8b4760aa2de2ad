import RuleRaven.Framework.Json
import RuleRaven.Provider.Validate

namespace RuleRaven.Provider

open Framework

def QuestionType.text : QuestionType → String
  | .noul => "noul"
  | .choice => "choice"
  | .score => "score"
  | .unknown text => text

/-- The type that a text names. -/
def QuestionType.ofText (text : String) : QuestionType :=
  if text = "noul" then .noul
  else if text = "choice" then .choice
  else if text = "score" then .score
  else .unknown text

/-- A map as `json.Marshal` writes it, in key order. -/
def mapObject (entries : List (String × Json)) : Json :=
  .obj (sortSlice (fun a b => a.1 < b.1) entries)

/-- An object of exactly these properties. -/
def strictObject (required : List String) (properties : List (String × Json)) : Json :=
  mapObject [("type", .str "object"), ("additionalProperties", .bool false),
    ("required", .arr (required.map .str)), ("properties", mapObject properties)]

def unitNumber : Json :=
  mapObject [("type", .str "number"), ("minimum", .num 0), ("maximum", .num 1)]

def constString (value : String) : Json :=
  mapObject [("type", .str "string"), ("const", .str value)]

def probabilityObject (keys : List String) : Json :=
  strictObject keys (keys.map fun key => (key, unitNumber))

/-- The level indexes of a score question, as its answers spell them. -/
def levelKeys (question : Question) : List String :=
  (List.range question.levels.length).map Nat.repr

/-- The schema of one answer. There is none for an unknown type, which validation refuses. -/
def answerSchemaFor (question : Question) : Json :=
  match question.type with
  | .noul => strictObject ["type", "noul"]
      [("type", constString "noul"), ("noul", unitNumber)]
  | .choice =>
    let choices := question.criteria.keys
    strictObject ["type", "choice", "probabilities", "confidence"]
      [("type", constString "choice"),
        ("choice", mapObject [("type", .str "string"), ("enum", .arr (choices.map .str))]),
        ("probabilities", probabilityObject choices), ("confidence", unitNumber)]
  | .score =>
    let keys := levelKeys question
    strictObject ["type", "score", "legend", "probabilities", "confidence"]
      [("type", constString "score"),
        ("score", mapObject [("type", .str "number"), ("minimum", .num 0),
          ("maximum", .num (question.levels.length - 1))]),
        ("legend", strictObject keys (keys.zip (question.levels.map constString))),
        ("probabilities", probabilityObject keys), ("confidence", unitNumber)]
  | .unknown _ => .null

def answerJSONSchema (questions : StrMap Question) : Except QuestionError Json :=
  match validateQuestions questions with
  | .error err => .error err
  | .ok () => .ok <| mapObject
    [("$schema", .str "https://json-schema.org/draft/2020-12/schema"),
      ("title", .str "RuleRaven provider answers"), ("type", .str "object"),
      ("additionalProperties", .bool false), ("required", .arr [.str "answers"]),
      ("properties", mapObject [("answers", strictObject questions.keys
        (questions.entries.map fun entry => (entry.1, answerSchemaFor entry.2)))])]

end RuleRaven.Provider
