import RuleRaven.Provider.Clients

namespace RuleRaven.Provider

open Framework

def toolName : String := "submit_answers"

inductive Protocol where
  | openAIJSONSchema
  | openAIForcedTool
  | anthropicTool
  deriving DecidableEq, Repr

structure StructuredClient extends Endpoint where
  protocol : Protocol

structure StructuredConfig where
  name : String
  defaultURL : String := ""
  endpointPath : String
  protocol : Protocol
  factory : FactoryConfig

/-- `structuredclient.New`. -/
def newStructuredClient (L : Library) (config : StructuredConfig) :
    Except ProviderError StructuredClient :=
  match newEndpoint L config.factory config.name config.defaultURL config.endpointPath "" with
  | .error err => .error err
  | .ok endpoint =>
    if config.name = "" then .error (.other "provider name is required")
    else .ok { endpoint with protocol := config.protocol }

structure OpenAIFunction where
  name : String := ""
  arguments : String := ""

structure OpenAIToolCall where
  id : String := ""
  type : String := ""
  function : OpenAIFunction := {}

structure OpenAIMessage where
  role : String := ""
  content : String := ""
  toolCalls : List OpenAIToolCall := []

structure OpenAIChoice where
  message : OpenAIMessage := {}
  finishReason : String := ""

structure OpenAIEnvelope where
  id : String := ""
  model : String := ""
  choices : List OpenAIChoice := []
  usage : Option WireUsage := none

def openAIFunctionFields : List (StructField OpenAIFunction) :=
  [.of "name" OpenAIFunction.name (fun f x => { f with name := x }) intoString,
    .of "arguments" OpenAIFunction.arguments (fun f x => { f with arguments := x }) intoString]

def openAIToolCallFields : List (StructField OpenAIToolCall) :=
  [.of "id" OpenAIToolCall.id (fun c x => { c with id := x }) intoString,
    .of "type" OpenAIToolCall.type (fun c x => { c with type := x }) intoString,
    .of "function" OpenAIToolCall.function (fun c x => { c with function := x })
      (intoStruct false openAIFunctionFields)]

def openAIMessageFields : List (StructField OpenAIMessage) :=
  [.of "role" OpenAIMessage.role (fun m x => { m with role := x }) intoString,
    .of "content" OpenAIMessage.content (fun m x => { m with content := x }) intoString,
    .of "tool_calls" OpenAIMessage.toolCalls (fun m x => { m with toolCalls := x })
      (intoSlice {} (intoStruct false openAIToolCallFields))]

def openAIChoiceFields : List (StructField OpenAIChoice) :=
  [.of "message" OpenAIChoice.message (fun c x => { c with message := x })
      (intoStruct false openAIMessageFields),
    .of "finish_reason" OpenAIChoice.finishReason (fun c x => { c with finishReason := x })
      intoString]

def openAIEnvelopeFields : List (StructField OpenAIEnvelope) :=
  [.of "id" OpenAIEnvelope.id (fun e x => { e with id := x }) intoString,
    .of "model" OpenAIEnvelope.model (fun e x => { e with model := x }) intoString,
    .of "choices" OpenAIEnvelope.choices (fun e x => { e with choices := x })
      (intoSlice {} (intoStruct false openAIChoiceFields)),
    .of "usage" OpenAIEnvelope.usage (fun e x => { e with usage := x })
      (intoPointer {} (intoStruct false (countFields "prompt_tokens" "completion_tokens")))]

structure AnthropicBlock where
  type : String := ""
  id : String := ""
  name : String := ""
  input : Option Document := none
  text : String := ""

structure AnthropicEnvelope where
  id : String := ""
  type : String := ""
  role : String := ""
  model : String := ""
  stopReason : String := ""
  content : List AnthropicBlock := []
  usage : Option WireUsage := none

def anthropicBlockFields : List (StructField AnthropicBlock) :=
  [.of "type" AnthropicBlock.type (fun b x => { b with type := x }) intoString,
    .of "id" AnthropicBlock.id (fun b x => { b with id := x }) intoString,
    .of "name" AnthropicBlock.name (fun b x => { b with name := x }) intoString,
    .of "input" AnthropicBlock.input (fun b x => { b with input := x }) intoRaw,
    .of "text" AnthropicBlock.text (fun b x => { b with text := x }) intoString]

def anthropicEnvelopeFields : List (StructField AnthropicEnvelope) :=
  [.of "id" AnthropicEnvelope.id (fun e x => { e with id := x }) intoString,
    .of "type" AnthropicEnvelope.type (fun e x => { e with type := x }) intoString,
    .of "role" AnthropicEnvelope.role (fun e x => { e with role := x }) intoString,
    .of "model" AnthropicEnvelope.model (fun e x => { e with model := x }) intoString,
    .of "stop_reason" AnthropicEnvelope.stopReason (fun e x => { e with stopReason := x })
      intoString,
    .of "content" AnthropicEnvelope.content (fun e x => { e with content := x })
      (intoSlice {} (intoStruct false anthropicBlockFields)),
    .of "usage" AnthropicEnvelope.usage (fun e x => { e with usage := x })
      (intoPointer {} (intoStruct false (countFields "input_tokens" "output_tokens")))]

/-- `decodeAnswers`, of a document that was read from the raw bytes. -/
def decodeAnswers (raw : Option Document) : Except ProviderError (StrMap Answer) :=
  let answers := raw.bind fun document =>
    intoStruct true [.of "answers" id (fun _ x => x) intoAnswers] document none
  match answers with
  | some (some answers) => .ok answers
  | _ => .error (.other "decode provider structured answers")

/-- The answers and the usage of a response, once its envelope is opened. -/
def openedResponse (id model : String) (raw : Option Document) (usage : Option WireUsage) :
    Except ProviderError ParsedResponse :=
  match decodeAnswers raw with
  | .error err => .error err
  | .ok answers =>
    match WireUsage.complete usage with
    | none => .error (.other "decode provider response usage")
    | some usage => .ok ⟨id, model, some answers, usage⟩

def parseAnthropic (L : Library) (body : ByteArray) : Except ProviderError ParsedResponse :=
  match decodeOne L (intoStruct false anthropicEnvelopeFields) {} body with
  | none => .error (.other "decode provider response")
  | some envelope =>
    match envelope.content with
    | [block] =>
      if envelope.type ≠ "message" ∨ envelope.role ≠ "assistant" ∨
          envelope.stopReason ≠ "tool_use" then .error (.other "decode provider response")
      else if block.type ≠ "tool_use" ∨ block.name ≠ toolName ∨ block.input.isNone then
        .error (.other "provider response did not use required answer tool")
      else openedResponse envelope.id envelope.model block.input envelope.usage
    | _ => .error (.other "decode provider response")

/-- The text that holds the answers: the content of the message, or the arguments of its only
tool call. -/
def answerText (protocol : Protocol) (choice : OpenAIChoice) : Except ProviderError String :=
  let message := choice.message
  if protocol = .openAIJSONSchema then
    if message.toolCalls ≠ [] ∨ isBlank message.content ∨ choice.finishReason ≠ "stop" then
      .error (.other "decode provider structured response")
    else .ok message.content
  else match message.toolCalls with
    | [call] =>
      if message.content ≠ "" ∨ choice.finishReason ≠ "tool_calls" then
        .error (.other "provider response did not use exactly one required answer tool")
      else if call.type ≠ "function" ∨ call.function.name ≠ toolName ∨
          isBlank call.function.arguments then
        .error (.other "provider response used wrong answer tool")
      else .ok call.function.arguments
    | _ => .error (.other "provider response did not use exactly one required answer tool")

def parseOpenAI (L : Library) (protocol : Protocol) (body : ByteArray) :
    Except ProviderError ParsedResponse :=
  match decodeOne L (intoStruct false openAIEnvelopeFields) {} body with
  | none => .error (.other "decode provider response")
  | some envelope =>
    match envelope.choices with
    | [choice] =>
      if choice.message.role ≠ "assistant" then .error (.other "decode provider response role")
      else match answerText protocol choice with
        | .error err => .error err
        | .ok text =>
          openedResponse envelope.id envelope.model (L.parse text.toUTF8).toOption envelope.usage
    | _ => .error (.other "decode provider response")

/-- The JSON form of a question. -/
def Question.toJson (question : Question) : Json :=
  .obj ([("type", .str question.type.text), ("instructions", .str question.instructions)] ++
    (if question.criteria.size = 0 then [] else
      [("criteria", .obj (question.criteria.entries.map fun e => (e.1, .str e.2)))]) ++
    (if question.levels = [] then [] else [("levels", .arr (question.levels.map .str))]))

def questionsJson (questions : StrMap Question) : Json :=
  .obj (questions.entries.map fun entry => (entry.1, entry.2.toJson))

/-- `json.Marshal` of the request, whose state is JSON already. -/
def EvaluationRequest.prompt (request : EvaluationRequest) : String :=
  "\x7b\"state\":" ++ request.state ++ ",\"questions\":" ++
    (questionsJson request.questions).marshal ++
    ",\"rubricVersion\":" ++ (Json.str request.rubricVersion).marshal ++
    ",\"requestId\":" ++ (Json.str request.requestID).marshal ++
    (if request.requestedModel = "" then "" else
      ",\"requestedModel\":" ++ (Json.str request.requestedModel).marshal) ++ "\x7d"

def chatMessage (role content : String) : Json :=
  .obj [("content", .str content), ("role", .str role)]

namespace StructuredClient

variable (L : Library) (c : StructuredClient)

/-- The body of the request, in the order of a marshalled map. -/
def requestBody (prompt : String) (schema : Json) : Json :=
  match c.protocol with
  | .openAIJSONSchema => .obj
    [("messages", .arr [chatMessage "system" "Return only the requested structured answers.",
        chatMessage "user" prompt]),
      ("model", .str c.model),
      ("response_format", .obj
        [("json_schema",
            .obj [("name", .str toolName), ("schema", schema), ("strict", .bool true)]),
          ("type", .str "json_schema")])]
  | .openAIForcedTool => .obj
    [("messages", .arr [chatMessage "system" "Submit exactly one structured answer tool call.",
        chatMessage "user" prompt]),
      ("model", .str c.model), ("parallel_tool_calls", .bool false),
      ("tool_choice", .obj [("function", .obj [("name", .str toolName)]),
        ("type", .str "function")]),
      ("tools", .arr [.obj
        [("function", .obj [("description", .str "Submit all answers."), ("name", .str toolName),
            ("parameters", schema), ("strict", .bool true)]),
          ("type", .str "function")]])]
  | .anthropicTool => .obj
    [("max_tokens", .num 4096), ("messages", .arr [chatMessage "user" prompt]),
      ("model", .str c.model),
      ("tool_choice", .obj [("disable_parallel_tool_use", .bool true), ("name", .str toolName),
        ("type", .str "tool")]),
      ("tools", .arr [.obj [("description", .str "Submit all answers."), ("input_schema", schema),
        ("name", .str toolName)]])]

def headers (request : EvaluationRequest) : List (String × String) :=
  ("X-Request-ID", request.requestID) ::
    if c.protocol = .anthropicTool then
      [("X-Api-Key", c.credential), ("Anthropic-Version", "2023-06-01")]
    else [("Authorization", "Bearer " ++ c.credential)]

def parseResponse (body : ByteArray) : Except ProviderError ParsedResponse :=
  if c.protocol = .anthropicTool then parseAnthropic L body else parseOpenAI L c.protocol body

/-- `Evaluate`. What is wrong with an answer is not reported. -/
def evaluate (request : EvaluationRequest) : Web (Except ProviderError EvaluationResponse) := do
  let started ← Web.now
  match checkRequest L request fun _ => "provider state must contain one valid JSON value" with
  | .error err => pure (.error err)
  | .ok _ =>
    match answerJSONSchema request.questions with
    | .error _ => pure (.error (.other "build provider answer schema"))
    | .ok schema =>
      c.exchange L request started (c.headers request) (c.requestBody request.prompt schema).marshal
        (c.parseResponse L) (fun _ => .other "validate provider answers")
        "decode provider response metadata" "decode provider response metadata"

end StructuredClient

end RuleRaven.Provider
