import RuleRaven.Store.Client

namespace RuleRaven.Notify

open Framework

/-- What `NewDispatcher` is given, its store and its clock apart. A notifier is known by its
name. -/
structure DispatcherConfig where
  notifiers : List String
  workerID : String
  workers : Int
  clusterID : String
  leaseDuration : Duration
  maxAttempts : Int
  initialBackoff : Duration
  maxBackoff : Duration
  deliveredExpiry : Duration := 0
  failedExpiry : Duration := 0

/-- A dispatcher: `NewDispatcher` accepts nothing else. -/
structure Dispatcher where
  notifiers : List String
  workerID : String
  workers : Int
  clusterID : String
  leaseDuration : Duration
  maxAttempts : Int
  initialBackoff : Duration
  maxBackoff : Duration
  deliveredExpiry : Duration
  failedExpiry : Duration
  notifiers_visible : ∀ n ∈ notifiers, isBlank n = false
  notifiers_nodup : notifiers.Nodup
  identified : isBlank workerID = false ∧ isBlank clusterID = false
  positive : 0 < workers ∧ 0 < leaseDuration ∧ 0 < maxAttempts ∧ 0 < initialBackoff
  initialBackoff_le : initialBackoff ≤ maxBackoff
  expiries_nonneg : 0 ≤ deliveredExpiry ∧ 0 ≤ failedExpiry

/-- The notifier loop: every one is named, and no name comes twice. -/
def checkNotifiers : List String → List String → Except Err Unit
  | _, [] => .ok ()
  | seen, n :: ns =>
    if isBlank n then .error ⟨"dispatcher notifier and name are required", none⟩
    else if n ∈ seen then .error ⟨"duplicate notifier destination \"" ++ n ++ "\"", none⟩
    else checkNotifiers (n :: seen) ns

theorem checkNotifiers_ok {seen ns : List String} (h : checkNotifiers seen ns = .ok ()) :
    (∀ n ∈ ns, isBlank n = false) ∧ ns.Nodup ∧ ∀ n ∈ ns, n ∉ seen := by
  induction ns generalizing seen with
  | nil => simp
  | cons n ns ih =>
    unfold checkNotifiers at h
    split_ifs at h with hblank hseen
    obtain ⟨hvisible, hnodup, hfresh⟩ := ih h
    simp only [List.mem_cons, not_or] at hfresh
    refine ⟨?_, List.nodup_cons.mpr ⟨fun hn => (hfresh n hn).1 rfl, hnodup⟩, ?_⟩
    · intro m hm
      rcases List.mem_cons.mp hm with rfl | hm
      · simpa using hblank
      · exact hvisible m hm
    · intro m hm
      rcases List.mem_cons.mp hm with rfl | hm
      · exact hseen
      · exact (hfresh m hm).2

def newDispatcher (config : DispatcherConfig) : Except Err Dispatcher :=
  if hid : isBlank config.workerID ∨ isBlank config.clusterID then
    .error ⟨"dispatcher worker and cluster IDs are required", none⟩
  else if hpos : config.workers ≤ 0 ∨ config.leaseDuration ≤ 0 ∨ config.maxAttempts ≤ 0 ∨
      config.initialBackoff ≤ 0 ∨ config.maxBackoff < config.initialBackoff then
    .error
      ⟨"dispatcher workers, lease, attempts, and backoff must be positive and consistent", none⟩
  else if hexp : config.deliveredExpiry < 0 ∨ config.failedExpiry < 0 then
    .error ⟨"dispatcher expiry durations must not be negative", none⟩
  else match hn : checkNotifiers [] config.notifiers with
    | .error err => .error err
    | .ok () => .ok
      { notifiers := config.notifiers
        workerID := config.workerID
        workers := config.workers
        clusterID := config.clusterID
        leaseDuration := config.leaseDuration
        maxAttempts := config.maxAttempts
        initialBackoff := config.initialBackoff
        maxBackoff := config.maxBackoff
        deliveredExpiry := config.deliveredExpiry
        failedExpiry := config.failedExpiry
        notifiers_visible := (checkNotifiers_ok hn).1
        notifiers_nodup := (checkNotifiers_ok hn).2.1
        identified := by simpa using hid
        positive := by
          simp only [not_or, not_le, Int64.not_le] at hpos
          exact ⟨hpos.1, hpos.2.1, hpos.2.2.1, hpos.2.2.2.1⟩
        initialBackoff_le := by
          simp only [not_or, Int64.not_lt] at hpos
          exact hpos.2.2.2.2
        expiries_nonneg := by simpa only [not_or, Int64.not_lt] using hexp }

def expiry (now : Time) (retention : Duration) : Option Time :=
  if retention ≤ 0 then none else some (now.add retention)

/-- An error that `DispatchOne` makes itself. -/
def refused (kind : String) : DeliveryError := { classified := some { kind := kind } }

/-- What is sent of a delivery: its payload, or its references where it has none. -/
def dataOf (delivery : Delivery) : RawMessage :=
  delivery.payload.getD <| Json.raw <| .obj
    [("evaluationId", .str delivery.evaluationID), ("destinationId", .str delivery.destinationID)]

/-- The calls of a dispatcher. -/
def dispatches : Op → Prop
  | .store (.outboxClaim _) | .store (.outboxComplete _) | .store (.outboxReschedule _) => True
  | .now | .deliver _ _ | .ctxErr => True
  | _ => False

namespace Dispatcher

variable (d : Dispatcher)

/-- The loop of `backoff`, which doubles until half of the maximum is passed. -/
def backoffLoop : Nat → Duration → Duration
  | 0, delay => if d.maxBackoff < delay then d.maxBackoff else delay
  | n + 1, delay => if d.maxBackoff / 2 ≤ delay then d.maxBackoff else backoffLoop n (delay * 2)

def backoff (attempt : Int) : Duration := d.backoffLoop (attempt - 1).toNat d.initialBackoff

/-- Whether a failed attempt is retried, and after which delay. -/
def classify (attempts : Int) (err : DeliveryError) : FailureClass × Duration :=
  if (err.classified.any (·.retryable) || err.deadlineExceeded) && attempts < d.maxAttempts then
    let delay := d.backoff attempts
    match err.classified with
    | none => (.retryable, delay)
    | some e =>
      if delay < e.retryDelay then
        (.retryable, if d.maxBackoff < e.retryDelay then d.maxBackoff else e.retryDelay)
      else (.retryable, delay)
  else (.permanent, 0)

/-- The delivery itself. Nothing is sent to an unknown destination. -/
def attempt (delivery : Delivery) (now : Time) : Eff (Option DeliveryError) :=
  if delivery.destinationID ∈ d.notifiers then
    match newEnvelope delivery.id delivery.eventType d.clusterID now (dataOf delivery) with
    | .error _ => pure (some (refused "invalid_delivery"))
    | .ok event => Eff.deliver delivery.destinationID event
  else pure (some (refused "unknown_destination"))

def completeRequest (delivery : Delivery) (now : Time) : CompleteRequest where
  id := delivery.id
  workerID := d.workerID
  completedAt := now
  expiresAt := expiry now d.deliveredExpiry

def rescheduleRequest (delivery : Delivery) (err : DeliveryError) (now : Time) :
    RescheduleRequest :=
  let (failure, delay) := d.classify delivery.attempts err
  { id := delivery.id
    workerID := d.workerID
    now := now
    nextAttemptAt := now.add delay
    failure := failure
    expiresAt := if failure = .permanent then expiry now d.failedExpiry else none }

def complete (delivery : Delivery) : Eff (Bool × Option Err) := do
  let now ← Eff.now
  match ← Mongo.completeDelivery (d.completeRequest delivery now) with
  | .error err => pure (true, some (err.wrap "complete notification delivery"))
  | .ok () => pure (true, none)

def reschedule (delivery : Delivery) (err : DeliveryError) : Eff (Bool × Option Err) := do
  match ← Eff.ctxErr with
  | some err => pure (true, some err)
  | none =>
    let now ← Eff.now
    match ← Mongo.rescheduleDelivery (d.rescheduleRequest delivery err now) with
    | .error err => pure (true, some (err.wrap "finalize failed notification delivery"))
    | .ok () => pure (true, none)

/-- `DispatchOne`: claims and finalizes at most one delivery. -/
def dispatchOne : Eff (Bool × Option Err) := do
  match ← Eff.ctxErr with
  | some err => pure (false, some err)
  | none =>
    let now ← Eff.now
    match ← Mongo.claimDelivery ⟨d.workerID, now, d.leaseDuration⟩ with
    | .error err =>
      if err.is .storeNotFound then pure (false, none)
      else pure (false, some (err.wrap "claim notification delivery"))
    | .ok delivery =>
      match ← d.attempt delivery now with
      | none => d.complete delivery
      | some err => d.reschedule delivery err

theorem attempt_only {P : Op → Prop} {delivery : Delivery} {now : Time}
    (hP : ∀ event, newEnvelope delivery.id delivery.eventType d.clusterID now (dataOf delivery) =
      .ok event → P (.deliver delivery.destinationID event)) :
    Prog.Only P (d.attempt delivery now) := by
  unfold attempt
  split_ifs
  · split
    · trivial
    · rename_i event hevent
      exact Eff.only_deliver (hP event hevent)
  · trivial

theorem complete_only (delivery : Delivery) : Prog.Only dispatches (d.complete delivery) := by
  refine Prog.only_bind (Eff.only_now trivial) fun now =>
    Prog.only_bind (Mongo.completeDelivery_only _ trivial) fun reply => ?_
  cases reply <;> trivial

theorem reschedule_only (delivery : Delivery) (err : DeliveryError) :
    Prog.Only dispatches (d.reschedule delivery err) := by
  refine Prog.only_bind (Eff.only_ctxErr trivial) fun reply => ?_
  cases reply with
  | some err => trivial
  | none =>
    refine Prog.only_bind (Eff.only_now trivial) fun now =>
      Prog.only_bind (Mongo.rescheduleDelivery_only _ trivial) fun reply => ?_
    cases reply <;> trivial

theorem dispatchOne_only : Prog.Only dispatches d.dispatchOne := by
  refine Prog.only_bind (Eff.only_ctxErr trivial) fun reply => ?_
  cases reply with
  | some err => trivial
  | none =>
    refine Prog.only_bind (Eff.only_now trivial) fun now =>
      Prog.only_bind (Mongo.claimDelivery_only _ trivial) fun reply => ?_
    cases reply with
    | error err =>
      dsimp only
      split_ifs <;> trivial
    | ok delivery =>
      refine Prog.only_bind (d.attempt_only fun _ _ => trivial) fun outcome => ?_
      cases outcome with
      | none => exact d.complete_only delivery
      | some err => exact d.reschedule_only delivery err

end Dispatcher

end RuleRaven.Notify
