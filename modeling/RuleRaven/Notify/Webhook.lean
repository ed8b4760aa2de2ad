import RuleRaven.Framework.Address
import RuleRaven.Framework.Trace
import RuleRaven.Notify.Envelope
import RuleRaven.Notify.Signing
import RuleRaven.Provider.Transport

namespace RuleRaven.Notify

open Framework

namespace Webhook

/-- The parts of a parsed URL that the notifier looks at, and its text. -/
structure URL where
  scheme : String
  host : String
  hostname : String
  hasUser : Bool
  fragment : String
  text : String
  deriving DecidableEq

/-- What the standard library makes of texts and values, taken as given. -/
structure Library where
  /-- HMAC-SHA256. -/
  mac : Bytes → Bytes → Vector UInt8 32
  /-- `json.Marshal` of an envelope. -/
  marshal : Envelope → Option Bytes
  parseURL : String → Option URL
  /-- Whether `http.NewRequestWithContext` takes the URL. -/
  requestable : String → Bool
  equalFold : List Char → List Char → Bool
  /-- `http.ParseTime`. -/
  parseTime : String → Option Time

structure Request where
  url : String
  headers : List (String × Bytes)
  body : Bytes

/-- A response. Reading its body may fail at its end, and a redirect names another URL. -/
structure Response where
  statusCode : Int
  retryAfter : String := ""
  body : Bytes := []
  bodyFails : Bool := false
  location : Option String := none

/-- What a notifier asks of its surroundings. The transport of an HTTP client has its own mind:
it asks for connections to any addresses, and gets a response from somewhere. -/
inductive NetOp where
  | ctxErr
  | now
  | lookup (host : String)
  | dials (url : String)
  | exchange (request : Request)
  /-- The resolver of the system, which a dialer asks for what is no address. -/
  | resolve (host : List Char)
  | connect (target : Bytes) (port : List Char)
  /-- A round trip of a client that is not of this package. -/
  | foreign (request : Request)

abbrev NetOp.Reply : NetOp → Type
  | .ctxErr => Option Provider.ContextError
  | .now => Time
  | .lookup _ => Option (List IP)
  | .dials _ => List String
  | .exchange _ => Option Response
  | .resolve _ => List Bytes
  | .connect _ _ => Bool
  | .foreign _ => Option Response

abbrev Net := Prog NetOp NetOp.Reply

abbrev NetEvent := Sigma NetOp.Reply

namespace Net

def ctxErr : Net (Option Provider.ContextError) := Prog.perform NetOp.ctxErr

def now : Net Time := Prog.perform NetOp.now

def lookup (host : String) : Net (Option (List IP)) := Prog.perform (NetOp.lookup host)

def dials (url : String) : Net (List String) := Prog.perform (NetOp.dials url)

def exchange (request : Request) : Net (Option Response) := Prog.perform (NetOp.exchange request)

def resolve (host : List Char) : Net (List Bytes) := Prog.perform (NetOp.resolve host)

def connect (target : Bytes) (port : List Char) : Net Bool :=
  Prog.perform (NetOp.connect target port)

def foreign (request : Request) : Net (Option Response) := Prog.perform (NetOp.foreign request)

end Net

def unsafeIP (ip : IP) : Bool :=
  ip.isNone || ip.isUnspecified || ip.isLoopback || ip.isPrivate || ip.isLinkLocalUnicast ||
    ip.isLinkLocalMulticast || ip.isMulticast

def validateHost (host : String) (allowPrivate : Bool) : Net (Except String Unit) :=
  if isBlank host then pure (.error "webhook destination host is required")
  else do
    match ← Net.lookup host with
    | none => pure (.error "webhook destination host cannot be resolved")
    | some addresses =>
      if addresses = [] then pure (.error "webhook destination host cannot be resolved")
      else if allowPrivate = false ∧ addresses.any unsafeIP then
        pure (.error "webhook destination resolves to a non-public address")
      else pure (.ok ())

section Dialing

def connectAny (port : List Char) : List Bytes → Net Bool
  | [] => pure false
  | target :: rest => do
    if ← Net.connect target port then pure true
    else connectAny port rest

/-- `DialContext` of a `net.Dialer`: the host is an address, or a name to resolve. Without a
host it is the machine itself. -/
def dialer (address : List Char) : Net Bool :=
  match splitHostPort address with
  | none => pure false
  | some (host, port) =>
    if host = [] then connectAny port [List.replicate 16 0]
    else match parseAddr host with
      | some target => connectAny port [target]
      | none =>
        if IP.nameable host then do
          let targets ← Net.resolve host
          connectAny port targets
        else pure false

/-- The loop over the addresses of a host. -/
def dialAny (allowPrivate : Bool) (port : List Char) : List IP → Net (Except String Unit)
  | [] => pure (.error "no safe destination address")
  | ip :: rest =>
    if allowPrivate = false ∧ unsafeIP ip then dialAny allowPrivate port rest
    else do
      if ← dialer (joinHostPort ip.text port) then pure (.ok ())
      else dialAny allowPrivate port rest

/-- `strings.TrimSuffix(host, ".")`. -/
def trimDot (host : List Char) : List Char :=
  if host.getLast? = some '.' then host.dropLast else host

variable (L : Library)

def sameHost (addressHost : List Char) (host : String) : Bool :=
  L.equalFold (trimDot addressHost) (trimDot (chars host))

/-- The `DialContext` of `safeHTTPClient`. -/
def dialContext (host : String) (allowPrivate : Bool) (address : String) :
    Net (Except String Unit) :=
  match splitHostPort (chars address) with
  | none => pure (.error "invalid destination address")
  | some (addressHost, port) =>
    if sameHost L addressHost host = false then pure (.error "unexpected destination host")
    else do
      match ← Net.lookup host with
      | none => pure (.error "destination resolution failed")
      | some addresses =>
        if addresses = [] then pure (.error "destination resolution failed")
        else dialAny allowPrivate port addresses

def dialEach (host : String) (allowPrivate : Bool) : List String → Net Unit
  | [] => pure ()
  | address :: rest => do
    let _ ← dialContext L host allowPrivate address
    dialEach host allowPrivate rest

end Dialing

section Client

/-- The transport of a client: that of `safeHTTPClient`, or another. -/
inductive Transport where
  | safe (host : String) (allowPrivate : Bool)
  | other
  deriving DecidableEq

/-- What a client does about a redirect: the default of the library, which stops after ten
requests, or `rejectRedirect`. -/
inductive CheckRedirect where
  | default
  | rejectRedirect
  deriving DecidableEq

/-- A client is an `http.Client` or something else with a method `Do`. -/
inductive HTTPClient where
  | concrete (transport : Transport) (checkRedirect : CheckRedirect)
  | custom
  deriving DecidableEq

def safeHTTPClient (host : String) (allowPrivate : Bool) : HTTPClient :=
  .concrete (.safe host allowPrivate) .rejectRedirect

variable (L : Library)

def roundTrip (request : Request) : Transport → Net (Option Response)
  | .safe host allowPrivate => do
    let addresses ← Net.dials request.url
    dialEach L host allowPrivate addresses
    Net.exchange request
  | .other => Net.foreign request

/-- Where a client goes after a response. -/
def nextURL (response : Response) : CheckRedirect → Option String
  | .default => response.location
  | .rejectRedirect => none

/-- The loop over redirects, with how many may still be followed. -/
def follow (transport : Transport) (checkRedirect : CheckRedirect) :
    Nat → Request → Net (Option Response)
  | 0, request => do
    match ← roundTrip L request transport with
    | none => pure none
    | some response => pure (if (nextURL response checkRedirect).isSome then none else response)
  | left + 1, request => do
    match ← roundTrip L request transport with
    | none => pure none
    | some response =>
      match nextURL response checkRedirect with
      | none => pure (some response)
      | some url => follow transport checkRedirect left { request with url := url }

def HTTPClient.send (request : Request) : HTTPClient → Net (Option Response)
  | .concrete transport checkRedirect => follow L transport checkRedirect 9 request
  | .custom => Net.foreign request

end Client

/-- The configuration of a notifier. Lookups and the clock are operations. -/
structure FactoryConfig where
  destinationID : String
  endpoint : String
  secret : Bytes
  timeout : Duration
  maxResponseBytes : Int64
  maxRetryAfter : Duration
  allowInsecureHTTP : Bool := false
  allowPrivateNetwork : Bool := false
  httpClient : Option HTTPClient := none

end Webhook

open Webhook in
structure Webhook where
  name : String
  endpoint : URL
  secret : Bytes
  timeout : Duration
  maxResponseBytes : Int64
  maxRetryAfter : Duration
  allowPrivate : Bool
  client : HTTPClient
  deriving DecidableEq

namespace Webhook

variable (L : Library)

/-- The checks of `New` before it looks up the host. -/
def checkConfig (config : FactoryConfig) : Except String URL :=
  if isBlank config.destinationID then .error "webhook destination ID is required"
  else if config.secret = [] then .error "webhook secret is required"
  else if config.timeout ≤ 0 then .error "webhook timeout must be positive"
  else if config.maxResponseBytes ≤ 0 then .error "webhook response limit must be positive"
  else if config.maxRetryAfter ≤ 0 then .error "webhook maximum Retry-After must be positive"
  else match L.parseURL config.endpoint with
    | none => .error "webhook endpoint is invalid"
    | some endpoint =>
      if endpoint.host = "" then .error "webhook endpoint is invalid"
      else if endpoint.hasUser ∨ endpoint.fragment ≠ "" then
        .error "webhook endpoint must not contain userinfo or a fragment"
      else if endpoint.scheme ≠ "https" ∧
          ¬(endpoint.scheme = "http" ∧ config.allowInsecureHTTP) then
        .error "webhook endpoint must use HTTPS"
      else if endpoint.scheme ≠ "http" ∧ endpoint.scheme ≠ "https" then
        .error "webhook endpoint scheme is unsupported"
      else .ok endpoint

/-- The client of a notifier: its own, or a given one that follows no redirects. -/
def chooseClient (endpoint : URL) (config : FactoryConfig) : Except String HTTPClient :=
  match config.httpClient with
  | none => .ok (safeHTTPClient endpoint.hostname config.allowPrivateNetwork)
  | some client =>
    if config.allowPrivateNetwork = false then
      .error "custom webhook HTTP client requires private-network test mode"
    else match client with
      | .concrete transport _ => .ok (.concrete transport .rejectRedirect)
      | .custom => .ok .custom

def new (config : FactoryConfig) : Net (Except String Webhook) :=
  match checkConfig L config with
  | .error err => pure (.error err)
  | .ok endpoint => do
    match ← validateHost endpoint.hostname config.allowPrivateNetwork with
    | .error err => pure (.error err)
    | .ok () =>
      match chooseClient endpoint config with
      | .error err => pure (.error err)
      | .ok client => pure (.ok
        { name := config.destinationID, endpoint := endpoint, secret := config.secret,
          timeout := config.timeout, maxResponseBytes := config.maxResponseBytes,
          maxRetryAfter := config.maxRetryAfter, allowPrivate := config.allowPrivateNetwork,
          client := client })

def retryableStatus (status : Int) : Bool :=
  status == 408 || status == 409 || status == 425 || status == 429 ||
    (500 ≤ status && status ≤ 599)

def parseRetryAfter (raw : String) (now : Time) (maximum : Duration) : Duration :=
  let capped (delay : Duration) : Duration :=
    if 0 < maximum ∧ maximum < delay then maximum else delay
  if raw = "" then 0
  else match (Provider.parseInt64 (trimSpace raw)).filter (0 < ·) with
    | some seconds =>
      if 0 < maximum ∧ maximum / 1000000000 < Int64.ofInt seconds then maximum
      else capped (Int64.ofInt seconds * 1000000000)
    | none =>
      match L.parseTime raw with
      | none => capped 0
      | some retryAt => if now < retryAt then capped (Time.sub retryAt now) else capped 0

/-- The headers of a delivery. -/
def deliveryHeaders (secret : Bytes) (event : Envelope) (timestamp : Time) (body : Bytes) :
    List (String × Bytes) :=
  let timestampValue := ascii (encodeInt timestamp.unix.toInt)
  let signature := sign L.mac secret timestamp body
  [("Content-Type", ascii "application/cloudevents+json".toList),
    ("X-RuleRaven-Event-ID", utf8Bytes event.id),
    ("X-RuleRaven-Timestamp", timestampValue),
    ("X-RuleRaven-Signature", ascii ['v', '1', '='] ++ signature),
    ("X-Webhook-Timestamp", timestampValue),
    ("X-Webhook-Signature-V2", signature)]

def failure (kind : String) (retryable : Bool) : DeliveryError :=
  { classified := some { kind := kind, retryable := retryable } }

def contextFailure (err : Provider.ContextError) : DeliveryError :=
  { deadlineExceeded := err = .deadlineExceeded }

/-- What a response comes to. The body is read up to one byte past the limit. -/
def concluded (w : Webhook) (timestamp : Time) (response : Response) :
    Except DeliveryError Unit :=
  let limit := (w.maxResponseBytes + 1).toInt.toNat
  let read := response.body.take limit
  let success := 200 ≤ response.statusCode ∧ response.statusCode ≤ 299
  let failed (kind : String) (delay : Duration) : Except DeliveryError Unit :=
    .error
      { classified := some
          { statusCode := response.statusCode, kind := kind,
            retryable := retryableStatus response.statusCode, retryDelay := delay } }
  let delay := parseRetryAfter L response.retryAfter timestamp w.maxRetryAfter
  if response.bodyFails ∧ response.body.length < limit then .error (failure "transport" true)
  else if w.maxResponseBytes.toInt < read.length then
    if success then .ok () else failed "response_too_large" delay
  else if success then .ok ()
  else if 300 ≤ response.statusCode ∧ response.statusCode ≤ 399 then
    .error { classified := some { statusCode := response.statusCode, kind := "redirect" } }
  else failed (if retryableStatus response.statusCode then "retryable" else "permanent") delay

/-- The request of a delivery and what comes of it. -/
def post (w : Webhook) (event : Envelope) (body : Bytes) : Net (Except DeliveryError Unit) := do
  let timestamp ← Net.now
  if L.requestable w.endpoint.text = false then pure (.error (failure "invalid_request" false))
  else do
    let headers := deliveryHeaders L w.secret event timestamp body
    match ← HTTPClient.send L ⟨w.endpoint.text, headers, body⟩ w.client with
    | some response => pure (concluded L w timestamp response)
    | none => do
      match ← Net.ctxErr with
      | some err => pure (.error (contextFailure err))
      | none => pure (.error (failure "transport" true))

/-- `Deliver`. -/
def deliver (w : Webhook) (event : Envelope) : Net (Except DeliveryError Unit) := do
  match ← Net.ctxErr with
  | some err => pure (.error (contextFailure err))
  | none =>
    if event.id = "" ∨ event.specVersion ≠ "1.0" ∨ event.schemaVersion ≠ "v1" then
      pure (.error (failure "invalid_envelope" false))
    else do
      match ← validateHost w.endpoint.hostname w.allowPrivate with
      | .error _ => pure (.error (failure "unsafe_destination" false))
      | .ok () =>
        match L.marshal event with
        | none => pure (.error (failure "invalid_envelope" false))
        | some body => post L w event body

end Webhook

end RuleRaven.Notify
