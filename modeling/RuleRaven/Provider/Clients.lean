import RuleRaven.Provider.Schema
import RuleRaven.Provider.Transport

namespace RuleRaven.Provider

open Framework

/-- A JSON number into a `float64`. -/
def intoFloat64 : Into Float64
  | .num n, _ => (intoFloat (.num n) 0).map .finite
  | .null, old => some old
  | _, _ => none

def intoQuestionType : Into QuestionType := fun document old =>
  (intoString document old.text).map QuestionType.ofText

def zeroAnswer : Answer := { type := .unknown "" }

def answerFields : List (StructField Answer) :=
  [.of "type" Answer.type (fun a x => { a with type := x }) intoQuestionType,
    .of "noul" Answer.noul (fun a x => { a with noul := x }) (intoPointer (.finite 0) intoFloat64),
    .of "choice" Answer.choice (fun a x => { a with choice := x }) intoString,
    .of "score" Answer.score (fun a x => { a with score := x })
      (intoPointer (.finite 0) intoFloat64),
    .of "legend" Answer.legend (fun a x => { a with legend := x }) (intoMap "" intoString),
    .of "probabilities" Answer.probabilities (fun a x => { a with probabilities := x })
      (intoMap (.finite 0) intoFloat64),
    .of "confidence" Answer.confidence (fun a x => { a with confidence := x })
      (intoPointer (.finite 0) intoFloat64)]

/-- The answers of a response, nil where there are none. -/
def intoAnswers : Into (Option (StrMap Answer)) :=
  intoPointer StrMap.empty (intoMap zeroAnswer (intoStruct true answerFields))

/-- A token count of either protocol, under the names that its pointer has there. -/
structure WireUsage where
  input : Option Int := none
  output : Option Int := none
  cost : Option Float64 := none
  deriving DecidableEq

def intoCount : Into (Option Int) := intoPointer 0 intoInt

def countFields (input output : String) : List (StructField WireUsage) :=
  [.of input WireUsage.input (fun u x => { u with input := x }) intoCount,
    .of output WireUsage.output (fun u x => { u with output := x }) intoCount]

/-- The usage, where it is complete. -/
def WireUsage.complete : Option WireUsage → Option Usage
  | some { input := some input, output := some output, .. } => some ⟨input, output⟩
  | _ => none

/-- What a client reads out of a response. -/
structure ParsedResponse where
  id : String := ""
  model : String
  answers : Option (StrMap Answer)
  usage : Usage
  deriving DecidableEq

structure FactoryConfig where
  endpoint : String
  model : String
  strictMode : String := ""
  credential : String
  retry : RetryPolicy
  maxRequestBytes : Int
  maxResponseBytes : Int

/-- What every client holds: its name and model, where it sends its requests, and how. -/
structure Endpoint where
  name : String
  url : String
  model : String
  credential : String
  retry : RetryPolicy
  limits : HTTPLimits

/-- `strings.TrimRight(s, "/")`. -/
def trimSlashes (s : String) : String :=
  ofChars ((chars s).reverse.dropWhile (· = '/')).reverse

/-- The checks that both kinds of client make, with the model to take where none is set. -/
def newEndpoint (L : Library) (factory : FactoryConfig)
    (name defaultURL endpointPath defaultModel : String) : Except ProviderError Endpoint :=
  let endpoint := if trimSpace factory.endpoint = "" then defaultURL else trimSpace factory.endpoint
  let model := if trimSpace factory.model = "" then defaultModel else trimSpace factory.model
  match L.parseURL endpoint with
  | none => .error (.other "provider endpoint must be an absolute HTTP URL")
  | some (scheme, host) =>
    if host = "" ∨ (scheme ≠ "http" ∧ scheme ≠ "https") then
      .error (.other "provider endpoint must be an absolute HTTP URL")
    else if model = "" then .error (.other "provider model is required")
    else if isBlank factory.credential then .error (.other "provider credential is required")
    else if factory.maxRequestBytes ≤ 0 ∨ factory.maxResponseBytes ≤ 0 then
      .error (.other "provider HTTP limits must be positive")
    else .ok
      { name := name
        url := trimSlashes endpoint ++ endpointPath
        model := model
        credential := factory.credential
        retry := factory.retry
        limits := ⟨factory.maxRequestBytes, factory.maxResponseBytes, factory.retry.maxRetryAfter⟩ }

/-- The state of a request, if it is one JSON string, object or array. -/
def decodeState (L : Library) (state : String) (invalid : JSONError → String) :
    Except ProviderError Document :=
  match L.parse state.toUTF8 with
  | .error err => .error (.other (invalid err))
  | .ok (.str s) => .ok (.str s)
  | .ok (.arr items) => .ok (.arr items)
  | .ok (.obj members) => .ok (.obj members)
  | .ok _ => .error (.other "provider state must be a JSON string, object, or array")

/-- The checks that both kinds of client make on a request, before they encode it. -/
def checkRequest (L : Library) (request : EvaluationRequest) (invalidState : JSONError → String) :
    Except ProviderError Document :=
  match validateQuestions request.questions with
  | .error err => .error (.questions err)
  | .ok () =>
    if isBlank request.requestID then .error (.other "provider request ID is required")
    else decodeState L request.state invalidState

/-- The one value in the bytes, decoded into a zero value. -/
def decodeOne {α : Type} (L : Library) (into : Into α) (zero : α) (raw : ByteArray) : Option α :=
  (L.parse raw).toOption.bind fun document => into document zero

namespace Endpoint

variable (L : Library) (e : Endpoint)

/-- What a client reports of a response that it has read. -/
def report (request : EvaluationRequest) (started ended : Time) (attempts : Int)
    (response : HTTPResponse) (parsed : ParsedResponse) : EvaluationResponse where
  answers := parsed.answers.getD StrMap.empty
  provider := e.name
  requestedModel := e.model
  resolvedModel := parsed.model
  requestID := request.requestID
  providerRequestID := if parsed.id = "" then response.header "X-Request-ID" else parsed.id
  usage := parsed.usage
  latency := Time.sub ended started
  attempts := attempts
  rawResponseHash := L.digest response.body

/-- The second half of `Evaluate`, alike in both kinds of client: the request is sent under the
retry policy, and what the response is decoded to is checked and reported. -/
def exchange (request : EvaluationRequest) (started : Time) (headers : List (String × String))
    (body : String) (decode : ByteArray → Except ProviderError ParsedResponse)
    (invalid : AnswerError → ProviderError) (missingModel negativeUsage : String) :
    Web (Except ProviderError EvaluationResponse) := do
  let sent ← e.retry.retry fun _ => doJSONResponse L e.limits "POST" e.url headers body
  match sent.2 with
  | .error err => pure (.error err)
  | .ok response =>
    match decode response.body with
    | .error err => pure (.error err)
    | .ok parsed =>
      match validateAnswers request.questions (parsed.answers.getD StrMap.empty) with
      | .error err => pure (.error (invalid err))
      | .ok () =>
        if parsed.model = "" then pure (.error (.other missingModel))
        else if parsed.usage.inputTokens < 0 ∨ parsed.usage.outputTokens < 0 then
          pure (.error (.other negativeUsage))
        else do
          let ended ← Web.now
          pure (.ok (e.report L request started ended sent.1 response parsed))

/-- A response that is a report on one whose answers were accepted. -/
def Reports (request : EvaluationRequest) (response : EvaluationResponse) : Prop :=
  ∃ started ended attempts received parsed,
    response = e.report L request started ended attempts received parsed ∧
      validateAnswers request.questions response.answers = .ok ()

theorem exchange_returns (request : EvaluationRequest) (started : Time)
    (headers : List (String × String)) (body : String)
    (decode : ByteArray → Except ProviderError ParsedResponse)
    (invalid : AnswerError → ProviderError) (missingModel negativeUsage : String) :
    (e.exchange L request started headers body decode invalid missingModel negativeUsage).Returns
      fun outcome => ∀ response, outcome = .ok response → e.Reports L request response := by
  have hfailed : ∀ err : ProviderError, ∀ response,
      (.error err : Except ProviderError EvaluationResponse) = .ok response →
        e.Reports L request response := fun _ _ h => by cases h
  apply Prog.returns_bind (Prog.returns_of_forall fun _ => trivial)
  intro sent _
  split
  · exact hfailed _
  · rename_i received _
    split
    · exact hfailed _
    · rename_i parsed _
      split
      · exact hfailed _
      · rename_i hvalid
        split_ifs
        · exact hfailed _
        · exact hfailed _
        · intro ended response hresponse
          cases hresponse
          exact ⟨started, ended, sent.1, received, parsed, rfl, hvalid⟩

end Endpoint

end RuleRaven.Provider
