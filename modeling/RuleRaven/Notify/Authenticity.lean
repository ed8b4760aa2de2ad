import RuleRaven.Notify.Destination
import RuleRaven.Notify.Receiver

namespace RuleRaven.Notify

open Framework Prog

namespace Webhook

/-- The value of a header that is set once. -/
def Request.header (request : Request) (name : String) : Bytes :=
  (request.headers.lookup name).getD []

/-- A request that arrives at a receiver as it was sent. -/
def Request.received (request : Request) : Receiver.Request where
  method := "POST"
  contentType := request.header "Content-Type"
  timestamp := request.header "X-RuleRaven-Timestamp"
  signature := request.header "X-RuleRaven-Signature"
  eventID := request.header "X-RuleRaven-Event-ID"
  body := request.body

/-- The libraries of a notifier and of a receiver are one: what the one writes, the other
reads. -/
structure Agrees (L : Library) (R : Receiver.Library) : Prop where
  mac : R.mac = L.mac
  media : R.mediaType (ascii "application/cloudevents+json".toList) =
    some "application/cloudevents+json"
  unmarshal : ∀ event body, L.marshal event = some body →
    R.unmarshal body = some (event.specVersion, event.id)

variable {L : Library} {w : Webhook} {event : Envelope} {R : Receiver.Library} {r : Receiver}
  {now : Time}

section Example

end Example

end Webhook

end RuleRaven.Notify
