import RuleRaven.Store.Contract

namespace RuleRaven.Notify

open Framework

/-- A CloudEvents envelope. -/
structure Envelope where
  specVersion : String := "1.0"
  id : String
  source : String
  type : EventType
  time : Time
  dataContentType : String := "application/json"
  schemaVersion : String := "v1"
  data : RawMessage
  deriving DecidableEq

def upperHexDigit (n : Nat) : Char :=
  if n < 10 then Char.ofNat (48 + n) else Char.ofNat (55 + n)

/-- The bytes that `url.PathEscape` leaves alone. -/
def keptInPath (b : UInt8) : Bool :=
  let c := Char.ofNat b.toNat
  c.isAlphanum || (chars "-_.~$&+=:@").contains c

def pathEscape (s : String) : String :=
  ofChars <| (utf8Bytes s).flatMap fun b =>
    if keptInPath b then [Char.ofNat b.toNat]
    else ['%', upperHexDigit (b.toNat / 16), upperHexDigit (b.toNat % 16)]

/-- The envelope source that names a cluster. -/
def clusterSource (clusterID : String) : String := "urn:ruleraven:cluster:" ++ pathEscape clusterID

/-- Event types are never blank and the data is JSON by its type, so only the identifiers and
the time can be missing. -/
def newEnvelope (id : String) (eventType : EventType) (clusterID : String) (occurredAt : Time)
    (data : RawMessage) : Except Err Envelope :=
  if isBlank id ∨ isBlank clusterID ∨ occurredAt.isZero then
    .error ⟨"event ID, type, cluster ID, and time are required", none⟩
  else .ok
    { id := id, source := clusterSource clusterID, type := eventType, time := occurredAt,
      data := data }

theorem newEnvelope_ok {id clusterID : String} {eventType : EventType} {now : Time}
    {data : RawMessage} {event : Envelope}
    (h : newEnvelope id eventType clusterID now data = .ok event) :
    event.id = id ∧ event.source = clusterSource clusterID := by
  unfold newEnvelope at h
  split_ifs at h
  cases h
  exact ⟨rfl, rfl⟩

/-- `notify.Error`. -/
structure NotifyError where
  statusCode : Int := 0
  retryable : Bool := false
  retryDelay : Duration := 0
  kind : String
  deriving DecidableEq

/-- An error of a delivery: the `*Error` that `errors.As` finds in it, and whether it is a
`context.DeadlineExceeded`. -/
structure DeliveryError where
  classified : Option NotifyError := none
  deadlineExceeded : Bool := false
  deriving DecidableEq

example : clusterSource "eu/west 1" = "urn:ruleraven:cluster:eu%2Fwest%201" := by decide +kernel

end RuleRaven.Notify
