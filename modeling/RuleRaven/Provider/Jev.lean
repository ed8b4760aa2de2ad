import RuleRaven.Provider.Structured

namespace RuleRaven.Provider

open Framework

/-- The two ways to the Jev decisions: straight, or through OpenRouter. -/
inductive Mode where
  | typeSafe
  | openRouter
  deriving DecidableEq, Repr

def Mode.text : Mode → String
  | .typeSafe => "typesafe"
  | .openRouter => "openrouter"

structure JevClient extends Endpoint where
  mode : Mode

structure JevConfig where
  mode : Mode
  endpointPath : String
  defaultURL : String
  defaultModel : String
  factory : FactoryConfig

/-- `jevclient.New`. -/
def newJevClient (L : Library) (config : JevConfig) : Except ProviderError JevClient :=
  match newEndpoint L config.factory config.mode.text config.defaultURL config.endpointPath
      config.defaultModel with
  | .error err => .error err
  | .ok endpoint => .ok { endpoint with mode := config.mode }

/-- The envelope of either mode. Only OpenRouter's has an ID and a provider. -/
structure JevEnvelope where
  id : String := ""
  model : String := ""
  provider : String := ""
  answers : Option (StrMap Answer) := none
  usage : Option WireUsage := none

def jevUsageFields : List (StructField WireUsage) :=
  countFields "input_tokens" "output_tokens" ++
    [.of "cost" WireUsage.cost (fun u x => { u with cost := x })
      (intoPointer (.finite 0) intoFloat64)]

def jevCommonFields : List (StructField JevEnvelope) :=
  [.of "model" JevEnvelope.model (fun e x => { e with model := x }) intoString,
    .of "answers" JevEnvelope.answers (fun e x => { e with answers := x }) intoAnswers,
    .of "usage" JevEnvelope.usage (fun e x => { e with usage := x })
      (intoPointer {} (intoStruct true jevUsageFields))]

def jevEnvelopeFields : Mode → List (StructField JevEnvelope)
  | .typeSafe => jevCommonFields
  | .openRouter => jevCommonFields ++
    [.of "id" JevEnvelope.id (fun e x => { e with id := x }) intoString,
      .of "provider" JevEnvelope.provider (fun e x => { e with provider := x }) intoString]

/-- The JSON form of a question on the wire, where the levels of a score are its criteria. -/
def Question.toWire (question : Question) : Json :=
  .obj ([("type", .str question.type.text), ("instructions", .str question.instructions)] ++
    match question.type with
    | .score => [("criteria", .arr (question.levels.map .str))]
    | .unknown _ => []
    | _ => if question.criteria.size = 0 then [] else
      [("criteria", .obj (question.criteria.entries.map fun e => (e.1, .str e.2)))])

namespace JevClient

variable (L : Library) (c : JevClient)

def decodeResponse (body : ByteArray) : Except ProviderError ParsedResponse :=
  match decodeOne L (intoStruct true (jevEnvelopeFields c.mode)) {} body with
  | none => .error (.other "decode provider response")
  | some envelope =>
    match WireUsage.complete envelope.usage with
    | none => .error (.other "decode provider response: complete usage is required")
    | some usage => .ok ⟨envelope.id, envelope.model, envelope.answers, usage⟩

/-- `json.Marshal` of the wire request, whose state is encoded again. -/
def requestBody (questions : StrMap Question) (state : Document) : String :=
  "\x7b\"model\":" ++ (Json.str c.model).marshal ++ ",\"state\":" ++ L.marshal state ++
    ",\"questions\":" ++
      (Json.obj (questions.entries.map fun entry => (entry.1, entry.2.toWire))).marshal ++ "\x7d"

/-- `Evaluate`. -/
def evaluate (request : EvaluationRequest) : Web (Except ProviderError EvaluationResponse) := do
  let started ← Web.now
  match checkRequest L request fun err => match err with
      | .malformed => "provider state must be valid JSON"
      | .trailing => "provider state must contain one JSON value" with
  | .error err => pure (.error err)
  | .ok state =>
    c.exchange L request started
      [("Authorization", "Bearer " ++ c.credential), ("X-Request-ID", request.requestID)]
      (c.requestBody L request.questions state) (c.decodeResponse L) .answers
      "decode provider response: model is required"
      "decode provider response: token usage must not be negative"

end JevClient

/-- What a registered factory builds. -/
inductive Client where
  | structured (c : StructuredClient)
  | jev (c : JevClient)

namespace Client

def endpoint : Client → Endpoint
  | structured c => c.toEndpoint
  | jev c => c.toEndpoint

def evaluate (L : Library) : Client → EvaluationRequest →
    Web (Except ProviderError EvaluationResponse)
  | structured c => c.evaluate L
  | jev c => c.evaluate L

/-- Whatever a provider sends, a client that succeeds reports on answers it has accepted. -/
theorem evaluate_returns (L : Library) (client : Client) (request : EvaluationRequest) :
    (client.evaluate L request).Returns fun outcome =>
      ∀ response, outcome = .ok response → client.endpoint.Reports L request response := by
  cases client with
  | structured c =>
    intro started
    dsimp only
    split
    · exact fun _ h => by cases h
    · split
      · exact fun _ h => by cases h
      · exact c.exchange_returns L request started _ _ _ _ _ _
  | jev c =>
    intro started
    dsimp only
    split
    · exact fun _ h => by cases h
    · exact c.exchange_returns L request started _ _ _ _ _ _

end Client

section Factories

variable (L : Library) (factory : FactoryConfig)

def newOpenAI : Except ProviderError Client :=
  (newStructuredClient L
    { name := "openai"
      defaultURL := "https://api.openai.com"
      endpointPath := "/v1/chat/completions"
      protocol := .openAIJSONSchema
      factory := factory }).map .structured

def newAnthropic : Except ProviderError Client :=
  (newStructuredClient L
    { name := "anthropic"
      defaultURL := "https://api.anthropic.com"
      endpointPath := "/v1/messages"
      protocol := .anthropicTool
      factory := factory }).map .structured

/-- The compatible adapter has no default: its mode has to be set. -/
def newOpenAICompatible : Except ProviderError Client :=
  let config (protocol : Protocol) : StructuredConfig :=
    { name := "openai-compatible"
      endpointPath := "/v1/chat/completions"
      protocol := protocol
      factory := factory }
  if factory.strictMode = "json_schema" then
    (newStructuredClient L (config .openAIJSONSchema)).map .structured
  else if factory.strictMode = "forced_tool" then
    (newStructuredClient L (config .openAIForcedTool)).map .structured
  else .error (.other
    "openai-compatible strict mode must be explicitly set to json_schema or forced_tool")

def newOpenRouter : Except ProviderError Client :=
  (newJevClient L
    { mode := .openRouter
      endpointPath := "/api/alpha/decisions"
      defaultURL := "https://openrouter.ai"
      defaultModel := "typesafe/jev-1.13"
      factory := factory }).map .jev

def newTypeSafe : Except ProviderError Client :=
  (newJevClient L
    { mode := .typeSafe
      endpointPath := "/v1/systemone"
      defaultURL := "https://api.typesafe.ai"
      defaultModel := "jev-latest"
      factory := factory }).map .jev

/-- `Registry.Create` over the registry of production. -/
def createProvider (providerType : String) : Except ProviderError Client :=
  if providerType = "openai" then newOpenAI L factory
  else if providerType = "openai-compatible" then newOpenAICompatible L factory
  else if providerType = "anthropic" then newAnthropic L factory
  else if providerType = "openrouter" then newOpenRouter L factory
  else if providerType = "typesafe" then newTypeSafe L factory
  else .error (.other ("provider type is not registered: \"" ++ providerType ++ "\""))

end Factories

end RuleRaven.Provider
