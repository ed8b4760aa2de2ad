import RuleRaven.Framework.Document
import RuleRaven.Framework.Hex
import RuleRaven.Framework.Prog
import RuleRaven.Provider.Validate

namespace RuleRaven.Provider

open Framework

/-- Why bytes are not one JSON value: there is none at their start, or something follows it. -/
inductive JSONError where
  | malformed
  | trailing
  deriving DecidableEq, Repr

/-- What the standard library makes of bytes and texts, taken as given. -/
structure Library where
  /-- A `json.Decoder` over the bytes, asked for one value and then for the end. -/
  parse : ByteArray → Except JSONError Document
  /-- `json.Marshal` of a value that was decoded into an `any`. -/
  marshal : Document → String
  /-- `sha256.Sum256`. -/
  sum256 : ByteArray → Vector UInt8 32
  /-- `http.ParseTime`. -/
  parseTime : String → Option Time
  /-- Scheme and host of what `url.Parse` returns. -/
  parseURL : String → Option (String × String)

def Library.digest (L : Library) (body : ByteArray) : String :=
  ofChars (hexChars (L.sum256 body).toList)

inductive ErrorKind where
  | transport
  | timeout
  | rateLimited
  | server
  | malformedRequest
  | authentication
  | authorization
  | paymentRequired
  | payloadTooLarge
  | unsupportedModel
  | permanent
  deriving DecidableEq, Repr

def ErrorKind.text : ErrorKind → String
  | .transport => "transport"
  | .timeout => "timeout"
  | .rateLimited => "rate_limited"
  | .server => "server"
  | .malformedRequest => "malformed_request"
  | .authentication => "authentication"
  | .authorization => "authorization"
  | .paymentRequired => "payment_required"
  | .payloadTooLarge => "payload_too_large"
  | .unsupportedModel => "unsupported_model"
  | .permanent => "permanent"

structure HTTPError where
  operation : String
  statusCode : Int := 0
  kind : ErrorKind
  retryable : Bool
  retryAfterDelay : Duration := 0
  deriving DecidableEq, Repr

def HTTPError.text (e : HTTPError) : String :=
  if e.statusCode ≠ 0 then
    "provider " ++ e.operation ++ " failed: " ++ e.kind.text ++ " (HTTP " ++
      toString e.statusCode ++ ")"
  else "provider " ++ e.operation ++ " failed: " ++ e.kind.text

/-- The two ways in which a context ends. -/
inductive ContextError where
  | canceled
  | deadlineExceeded
  deriving DecidableEq, Repr

/-- The errors of a provider: classified ones, those of the context, what validation found, and
plain texts. -/
inductive ProviderError where
  | http (e : HTTPError)
  | context (e : ContextError)
  | questions (err : QuestionError)
  | answers (err : AnswerError)
  | other (text : String)
  deriving DecidableEq

/-- The error as the controller sees it. Of what validation found, only the text before it. -/
def ProviderError.toErr : ProviderError → Err
  | .http e => ⟨e.text, none⟩
  | .context .canceled => ⟨"context canceled", none⟩
  | .context .deadlineExceeded => ⟨"context deadline exceeded", some .deadlineExceeded⟩
  | .questions _ => ⟨"invalid provider questions", none⟩
  | .answers _ => ⟨"validate provider answers", none⟩
  | .other text => ⟨text, none⟩

def errRequestTooLarge : ProviderError := .other "provider request exceeds configured limit"

def errResponseTooLarge : ProviderError := .other "provider response exceeds configured limit"

def classifyHTTPStatus (status : Int) : ErrorKind × Bool :=
  if status = 408 then (.timeout, true)
  else if status = 429 then (.rateLimited, true)
  else if status ∈ [500, 502, 503, 524, 529] then (.server, true)
  else if status = 400 then (.malformedRequest, false)
  else if status = 401 then (.authentication, false)
  else if status = 403 then (.authorization, false)
  else if status = 402 then (.paymentRequired, false)
  else if status = 413 then (.payloadTooLarge, false)
  else if status = 422 then (.unsupportedModel, false)
  else (.permanent, false)

def newHTTPError (operation : String) (status : Int) (retryAfter : Duration) : ProviderError :=
  .http
    { operation := operation
      statusCode := status
      kind := (classifyHTTPStatus status).1
      retryable := (classifyHTTPStatus status).2
      retryAfterDelay := if retryAfter < 0 then 0 else retryAfter }

/-- The end of the context is kept. Of any other failure, only that there was one. -/
def newTransportError (operation : String) : Option ContextError → ProviderError
  | some err => .context err
  | none => .http { operation := operation, kind := .transport, retryable := true }

def isRetryable : ProviderError → Bool
  | .http e => e.retryable
  | _ => false

structure HTTPRequest where
  method : String
  url : String
  headers : List (String × String)
  body : String
  deriving DecidableEq, Repr

/-- A response with the first value of each header, and a body that can fail to arrive. A
failure is told by the context error that `errors.Is` finds in it, if any. -/
structure HTTPReply where
  statusCode : Int
  contentLength : Int
  header : String → String
  body : Except (Option ContextError) ByteArray

/-- The calls of a provider: its clock and context, its HTTP client, and its sleeper. -/
inductive WebOp where
  | now
  | ctxErr
  | send (request : HTTPRequest)
  | sleep (delay : Duration)

def WebOp.Reply : WebOp → Type
  | .now => Time
  | .ctxErr => Option ContextError
  | .send _ => Except (Option ContextError) HTTPReply
  | .sleep _ => Option ProviderError

abbrev Web := Prog WebOp WebOp.Reply

namespace Web

def now : Web Time := Prog.perform WebOp.now

def ctxErr : Web (Option ContextError) := Prog.perform WebOp.ctxErr

def send (request : HTTPRequest) : Web (Except (Option ContextError) HTTPReply) :=
  Prog.perform (WebOp.send request)

def sleep (delay : Duration) : Web (Option ProviderError) := Prog.perform (WebOp.sleep delay)

end Web

structure RetryPolicy where
  maxAttempts : Int
  initialBackoff : Duration
  maxBackoff : Duration
  maxRetryAfter : Duration
  totalTimeout : Duration
  jitter : Option (Duration → Duration) := none

namespace RetryPolicy

variable (p : RetryPolicy)

def validate : Except ProviderError Unit :=
  if p.maxAttempts ≤ 0 then .error (.other "retry max attempts must be positive")
  else if p.initialBackoff ≤ 0 then .error (.other "retry initial backoff must be positive")
  else if p.maxBackoff < p.initialBackoff then
    .error (.other "retry max backoff must be at least initial backoff")
  else if p.maxRetryAfter < 0 then .error (.other "retry max Retry-After must not be negative")
  else if p.totalTimeout < 0 then .error (.other "retry total timeout must not be negative")
  else .ok ()

/-- The doubling loop of `backoff`. -/
def backoffLoop : Nat → Duration → Duration
  | 0, delay => delay
  | n + 1, delay => if p.maxBackoff / 2 ≤ delay then p.maxBackoff else backoffLoop n (delay * 2)

def backoff (failedAttempt : Int) : Duration :=
  let doubled := p.backoffLoop (failedAttempt - 1).toNat p.initialBackoff
  let jittered := match p.jitter with
    | none => doubled
    | some jitter => jitter doubled
  let delay := if jittered < 0 then 0 else jittered
  if p.maxBackoff < delay then p.maxBackoff else delay

/-- The delay after a failed attempt: what the error asks for, up to the maximum, or the
backoff. -/
def requested (err : ProviderError) (backoff : Duration) : Duration :=
  match err with
  | .http e =>
    if 0 < e.retryAfterDelay then
      if 0 < p.maxRetryAfter ∧ p.maxRetryAfter < e.retryAfterDelay then p.maxRetryAfter
      else e.retryAfterDelay
    else backoff
  | _ => backoff

/-- How long `Retry` sleeps after a failed attempt. -/
def delayAfter (attempt : Int) (err : ProviderError) : Duration :=
  p.requested err (p.backoff attempt)

variable {α : Type}

/-- One attempt in the loop of `Retry`, between two looks at the context. -/
def attemptOnce (operation : Int → Web (Except ProviderError α)) (attempt : Int)
    (failed : ProviderError → Web (Int × Except ProviderError α)) :
    Web (Int × Except ProviderError α) := do
  match ← Web.ctxErr with
  | some err => pure (attempt - 1, .error (.context err))
  | none =>
    match ← operation attempt with
    | .ok value => pure (attempt, .ok value)
    | .error err =>
      match ← Web.ctxErr with
      | some contextErr => pure (attempt, .error (.context contextErr))
      | none => failed err

/-- The loop of `Retry`, with the number of attempts that are left after this one. -/
def retryLoop (operation : Int → Web (Except ProviderError α)) :
    Nat → Int → Web (Int × Except ProviderError α)
  | 0, attempt => attemptOnce operation attempt fun err => pure (attempt, .error err)
  | left + 1, attempt => attemptOnce operation attempt fun err =>
    if !isRetryable err then pure (attempt, .error err)
    else do
      match ← Web.sleep (p.delayAfter attempt err) with
      | some sleepErr => pure (attempt, .error sleepErr)
      | none => retryLoop operation left (attempt + 1)

/-- `Retry`: the number of attempts begun, and how the last one ended. The total timeout shows
in what the context answers. -/
def retry (operation : Int → Web (Except ProviderError α)) : Web (Int × Except ProviderError α) :=
  match p.validate with
  | .error err => pure (0, .error err)
  | .ok () => p.retryLoop operation (p.maxAttempts.toNat - 1) 1

end RetryPolicy

structure HTTPLimits where
  maxRequestBytes : Int
  maxResponseBytes : Int
  maxRetryAfter : Duration
  deriving DecidableEq, Repr

structure HTTPResponse where
  body : ByteArray
  header : String → String

section Decimal

/-- The sign of a decimal text, and its digits. -/
def splitSign : List Char → Bool × List Char
  | '-' :: rest => (true, rest)
  | '+' :: rest => (false, rest)
  | rest => (false, rest)

def signedValue (negative : Bool) (digits : List Char) : Option Int :=
  if digits = [] ∨ !digits.all Char.isDigit then none
  else
    let magnitude : Int := digits.foldl (fun n c => 10 * n + (c.toNat - 48 : Nat)) 0
    let n := if negative then -magnitude else magnitude
    if -2 ^ 63 ≤ n ∧ n < 2 ^ 63 then some n else none

/-- `strconv.ParseInt(value, 10, 64)`. -/
def parseInt64 (value : String) : Option Int :=
  signedValue (splitSign (chars value)).1 (splitSign (chars value)).2

example : parseInt64 "-120" = some (-120) ∧ parseInt64 "9223372036854775808" = none := by
  decide +kernel

theorem parseInt64_bounds {value : String} {n : Int} (h : parseInt64 value = some n) :
    -2 ^ 63 ≤ n ∧ n < 2 ^ 63 := by
  rw [parseInt64, signedValue, Option.ite_none_left_eq_some] at h
  obtain ⟨-, h⟩ := h
  rw [Option.ite_none_right_eq_some] at h
  obtain ⟨hrange, hn⟩ := h
  rwa [Option.some.inj hn] at hrange

theorem splitSign_digit {c : Char} (h : c.isDigit = true) (cs : List Char) :
    splitSign (c :: cs) = (false, c :: cs) := by
  unfold splitSign
  split
  · rename_i heq
    cases heq
    cases h
  · rename_i heq
    cases heq
    cases h
  · rfl

theorem foldl_digits (digits : List Char) (init : Nat) :
    digits.foldl (fun (n : Int) c => 10 * n + (c.toNat - 48 : Nat)) init =
      (Nat.ofDigitChars 10 digits init : Int) := by
  induction digits generalizing init with
  | nil => rfl
  | cons c digits ih =>
    rw [List.foldl_cons, Nat.ofDigitChars_cons, ← ih]
    push_cast
    rfl

theorem signedValue_digits {digits : List Char} (hne : digits ≠ [])
    (hdigits : ∀ c ∈ digits, c.isDigit = true) (negative : Bool) :
    signedValue negative digits =
      let m : Int := Nat.ofDigitChars 10 digits 0
      let n : Int := if negative then -m else m
      if -2 ^ 63 ≤ n ∧ n < 2 ^ 63 then some n else none := by
  have hvalid : ¬(digits = [] ∨ !digits.all Char.isDigit) := by
    rw [List.all_eq_true.mpr hdigits]
    simpa using hne
  have hvalue : digits.foldl (fun (n : Int) c => 10 * n + (c.toNat - 48 : Nat)) 0 =
      (Nat.ofDigitChars 10 digits 0 : Int) := foldl_digits digits 0
  unfold signedValue
  rw [if_neg hvalid, hvalue]

/-- A text of decimal digits, after a plus sign or none. -/
def Decimal (value : String) (n : Nat) : Prop :=
  ∃ digits : List Char, digits ≠ [] ∧ (∀ c ∈ digits, c.isDigit = true) ∧
    Nat.ofDigitChars 10 digits 0 = n ∧ (chars value = digits ∨ chars value = '+' :: digits)

theorem parseInt64_decimal {value : String} {n : Nat} (h : Decimal value n) (hn : n < 2 ^ 63) :
    parseInt64 value = some (n : Int) := by
  obtain ⟨digits, hne, hdigits, hvalue, htext⟩ := h
  have hsign : splitSign (chars value) = (false, digits) := by
    rcases htext with htext | htext
    · obtain ⟨c, cs, rfl⟩ := List.exists_cons_of_ne_nil hne
      rw [htext]
      exact splitSign_digit (hdigits c List.mem_cons_self) cs
    · rw [htext]
      rfl
  rw [parseInt64, hsign, signedValue_digits hne hdigits, hvalue]
  dsimp only
  rw [if_neg Bool.false_ne_true, if_pos (by omega)]

end Decimal

def parseRetryAfter (L : Library) (value : String) (now : Time) : Duration :=
  let trimmed := trimSpace value
  if trimmed = "" then 0
  else match parseInt64 trimmed with
    | some seconds =>
      if seconds ≤ 0 then 0
      else if 9223372036 < seconds then Int64.maxValue
      else Int64.ofInt (seconds * 1000000000)
    | none =>
      match L.parseTime trimmed with
      | none => 0
      | some time => if time ≤ now then 0 else Time.sub time now

/-- `DoJSONResponse`. The body of a failed response is never read, and at most one byte more
than the limit of a successful one. -/
def doJSONResponse (L : Library) (limits : HTTPLimits) (method url : String)
    (headers : List (String × String)) (body : String) :
    Web (Except ProviderError HTTPResponse) :=
  if limits.maxRequestBytes ≤ 0 ∨ limits.maxResponseBytes ≤ 0 then
    pure (.error (.other "provider HTTP limits must be positive"))
  else if limits.maxRetryAfter < 0 then
    pure (.error (.other "provider maximum Retry-After must not be negative"))
  else if limits.maxRequestBytes < body.utf8ByteSize then pure (.error errRequestTooLarge)
  else do
    match ← Web.send ⟨method, url, headers ++ [("Content-Type", "application/json")], body⟩ with
    | .error failure =>
      match ← Web.ctxErr with
      | some err => pure (.error (.context err))
      | none => pure (.error (newTransportError "request" failure))
    | .ok response =>
      if response.statusCode < 200 ∨ 300 ≤ response.statusCode then do
        let now ← Web.now
        let retryAfter := parseRetryAfter L (response.header "Retry-After") now
        let capped := if 0 < limits.maxRetryAfter ∧ limits.maxRetryAfter < retryAfter then
          limits.maxRetryAfter else retryAfter
        pure (.error (newHTTPError "request" response.statusCode capped))
      else if limits.maxResponseBytes < response.contentLength then
        pure (.error errResponseTooLarge)
      else match response.body with
        | .error failure => do
          match ← Web.ctxErr with
          | some err => pure (.error (.context err))
          | none => pure (.error (newTransportError "read response" failure))
        | .ok bytes =>
          if limits.maxResponseBytes < bytes.size then pure (.error errResponseTooLarge)
          else pure (.ok ⟨bytes, response.header⟩)

end RuleRaven.Provider
