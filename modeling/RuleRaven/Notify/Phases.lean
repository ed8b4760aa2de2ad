import RuleRaven.Framework.Workers
import RuleRaven.Notify.Backoff
import RuleRaven.Store.Precision

namespace RuleRaven.Notify

open Framework

/-- The store, and the rows that were claimed since the workers started, in order. -/
structure Floor where
  store : Store
  claimed : List String := []

def Floor.after (stored : Time → Time) (f : Floor) : StoreOp → Floor
  | .outboxClaim request =>
    { store := (f.store.claimAt stored request).2
      claimed := f.claimed ++ ((f.store.claimAt stored request).1.map fun d => d.id).toList }
  | op => { f with store := (f.store.applyAt stored op).2 }

/-- One row changed. -/
def Floor.alter (f : Floor) (id : String)
    (change : Table.Change (fun d : Delivery => d.id) Delivery.eventKey)
    (claimed : List String) : Floor where
  store := { f.store with outbox := f.store.outbox.modify id change }
  claimed := claimed

/-- What is answered while the clock stands still, the context is live and no store operation
fails. A destination may answer anything. -/
def Frozen (stored : Time → Time) (now : Time) : (op : Op) → Floor → op.Reply → Floor → Prop
  | .store op, f, reply, f' => reply = (f.store.applyAt stored op).1 ∧ f' = f.after stored op
  | .now, f, reply, f' => reply = now ∧ f' = f
  | .ctxErr, f, reply, f' => reply = none ∧ f' = f
  | .deliver .., f, _, f' | .kubeGet .., f, _, f' | .evaluate .., f, _, f' => f' = f

theorem frozen_answers (stored : Time → Time) (now : Time) (op : Op) (f : Floor) :
    ∃ reply f', Frozen stored now op f reply f' := by
  cases op with
  | store op => exact ⟨_, _, rfl, rfl⟩
  | now => exact ⟨now, f, rfl, rfl⟩
  | ctxErr => exact ⟨none, f, rfl, rfl⟩
  | deliver destination envelope => exact ⟨none, f, rfl⟩
  | kubeGet kind ns name => exact ⟨.error .notFound, f, rfl⟩
  | evaluate slot request => exact ⟨.error ⟨"", none⟩, f, rfl⟩

namespace Dispatcher

variable (d : Dispatcher) (stored : Time → Time) (now : Time)

/-- The workers of `Run`: each dispatches until there is nothing left or an error comes up. -/
def service : Service Op Op.Reply (Bool × Option Err) Floor where
  body := d.dispatchOne
  again result := result.1 && result.2.isNone
  act := Frozen stored now

/-- `Run`, with its workers at their start. -/
def start (s : Store) : Staff Op Op.Reply (Bool × Option Err) Floor :=
  (d.service stored now).launch d.workers.toNat { store := s }

section Phases

/-- What `DispatchOne` does with the answer to its claim. -/
def handle (now : Time) : Except Err Delivery → Eff (Bool × Option Err)
  | .error err =>
    if err.is .storeNotFound then pure (false, none)
    else pure (false, some (err.wrap "claim notification delivery"))
  | .ok delivery => do
    match ← d.attempt delivery now with
    | none => d.complete delivery
    | some err => d.reschedule delivery err

/-- What it returns once the row is finalized. -/
def concluded (message : String) : Except Err Unit → Eff (Bool × Option Err)
  | .error err => pure (true, some (err.wrap message))
  | .ok () => pure (true, none)

/-- The last call of a delivery. -/
def close (delivery : Delivery) (now : Time) : Option DeliveryError → Eff (Bool × Option Err)
  | none => (Mongo.completeDelivery (d.completeRequest delivery now)).bind
      (concluded "complete notification delivery")
  | some err => (Mongo.rescheduleDelivery (d.rescheduleRequest delivery err now)).bind
      (concluded "finalize failed notification delivery")

/-- Where a worker stands. -/
inductive Phase where
  | fresh
  | awake
  | claiming
  | missed
  | trying (delivery : Delivery) (event : Envelope)
  | failing (delivery : Delivery) (err : DeliveryError)
  | timing (delivery : Delivery) (outcome : Option DeliveryError)
  | closing (delivery : Delivery) (outcome : Option DeliveryError)
  | served
  | done

namespace Phase

/-- What is left of the program. -/
def rest : Phase → Eff (Bool × Option Err)
  | .fresh => d.dispatchOne
  | .awake => Eff.now.bind fun now =>
      (Mongo.claimDelivery ⟨d.workerID, now, d.leaseDuration⟩).bind (d.handle now)
  | .claiming => (Mongo.claimDelivery ⟨d.workerID, now, d.leaseDuration⟩).bind (d.handle now)
  | .missed | .done => .ret (false, none)
  | .trying delivery event => (Eff.deliver delivery.destinationID event).bind fun
      | none => d.complete delivery
      | some err => d.reschedule delivery err
  | .failing delivery err => d.reschedule delivery err
  | .timing delivery outcome => Eff.now.bind fun now => d.close delivery now outcome
  | .closing delivery outcome => d.close delivery now outcome
  | .served => .ret (true, none)

def view : Phase → Worker Op Op.Reply (Bool × Option Err)
  | .done => .stopped (false, none)
  | φ => .running (φ.rest d now)

/-- The row that is held. -/
def held : Phase → List String
  | .trying delivery _ | .failing delivery _ | .timing delivery _ | .closing delivery _ =>
    [delivery.id]
  | _ => []

/-- The steps that are left, without those of later deliveries. A row that is held stands for
another turn of the loop. -/
def weight : Phase → Nat
  | .done => 0
  | .missed => 1
  | .claiming => 2
  | .awake => 3
  | .fresh => 4
  | .served => 5
  | .closing .. => 6
  | .timing .. => 7
  | .failing .. => 8
  | .trying .. => 9

end Phase

/-- How an attempt goes on: it is sent, or has failed already. -/
inductive Attempts (delivery : Delivery) : Phase → Prop
  | trying (event : Envelope) : Attempts delivery (.trying delivery event)
  | failing (err : DeliveryError) : Attempts delivery (.failing delivery err)

/-- The change by which a delivery is finalized. -/
def closeChange (delivery : Delivery) :
    Option DeliveryError → Table.Change (fun d : Delivery => d.id) Delivery.eventKey
  | none => completeChangeAt stored (d.completeRequest delivery now)
  | some err => rescheduleChangeAt stored (d.rescheduleRequest delivery err now)

/-- The steps of one worker, by phases. -/
inductive Turns : Floor → Phase → Floor → Phase → Prop
  | wake (f : Floor) : Turns f .fresh f .awake
  | look (f : Floor) : Turns f .awake f .claiming
  | miss {f : Floor} (h : f.store.claimableAt stored now = none) : Turns f .claiming f .missed
  | take {f : Floor} {row : Delivery} {φ : Phase} {request : ClaimRequest}
      (h : f.store.claimableAt stored now = some row)
      (hrequest : request = ⟨d.workerID, now, d.leaseDuration⟩)
      (hφ : Attempts ((claimChangeAt stored request).apply row) φ) :
      Turns f .claiming
        (f.alter row.id (claimChangeAt stored request) (f.claimed ++ [row.id])) φ
  | leave (f : Floor) : Turns f .missed f .done
  | sent (f : Floor) (delivery : Delivery) (event : Envelope) :
      Turns f (.trying delivery event) f (.timing delivery none)
  | refused (f : Floor) (delivery : Delivery) (event : Envelope) (err : DeliveryError) :
      Turns f (.trying delivery event) f (.failing delivery err)
  | live (f : Floor) (delivery : Delivery) (err : DeliveryError) :
      Turns f (.failing delivery err) f (.timing delivery (some err))
  | time (f : Floor) (delivery : Delivery) (outcome : Option DeliveryError) :
      Turns f (.timing delivery outcome) f (.closing delivery outcome)
  | close (f : Floor) (delivery : Delivery) (outcome : Option DeliveryError) :
      Turns f (.closing delivery outcome)
        (f.alter delivery.id (d.closeChange stored now delivery outcome) f.claimed) .served
  | again (f : Floor) : Turns f .served f .fresh

variable {d stored now}

theorem moves_call {f f' : Floor} {op : Op} {next : op.Reply → Eff (Bool × Option Err)}
    {w : Worker Op Op.Reply (Bool × Option Err)}
    (h : (d.service stored now).Moves f (.running (.call op next)) f' w) :
    ∃ reply, Frozen stored now op f reply f' ∧ w = .running (next reply) := by
  cases h with
  | act next h => exact ⟨_, h, rfl⟩

theorem moves_ret {f f' : Floor} {result : Bool × Option Err}
    {w : Worker Op Op.Reply (Bool × Option Err)}
    (h : (d.service stored now).Moves f (.running (.ret result)) f' w) :
    f' = f ∧ w = (d.service stored now).resume result := by
  cases h with
  | turn => exact ⟨rfl, rfl⟩

/-- The claim of a dispatcher is never refused by its checks. -/
theorem rest_claiming (hnow : now.isZero = false) :
    ∃ next, Phase.claiming.rest d now =
        .call (.store (.outboxClaim ⟨d.workerID, now, d.leaseDuration⟩)) next ∧
      next (.ok none) = .ret (false, none) ∧
      ∀ delivery, next (.ok (some delivery)) = d.handle now (.ok delivery) := by
  have hlease : ¬d.leaseDuration ≤ 0 := Int64.not_le.mpr d.positive.2.1
  unfold Phase.rest Mongo.claimDelivery
  rw [if_neg (by simp [d.identified.1, hnow, hlease])]
  exact ⟨_, rfl, rfl, fun _ => rfl⟩

theorem rest_fresh (d : Dispatcher) (now : Time) :
    ∃ next, Phase.fresh.rest d now = .call .ctxErr next ∧
    next none = Phase.awake.rest d now := by
  refine ⟨_, rfl, ?_⟩
  show Prog.bind Eff.now _ = Prog.bind Eff.now _
  refine congrArg _ (funext fun t => congrArg _ (funext fun reply => ?_))
  cases reply <;> rfl

theorem rest_failing (d : Dispatcher) (now : Time) (delivery : Delivery) (err : DeliveryError) :
    ∃ next, (Phase.failing delivery err).rest d now = .call .ctxErr next ∧
      next none = (Phase.timing delivery (some err)).rest d now := by
  refine ⟨_, rfl, ?_⟩
  show Prog.bind Eff.now _ = Prog.bind Eff.now _
  refine congrArg _ (funext fun t => congrArg _ (funext fun reply => ?_))
  cases reply <;> rfl

theorem complete_eq (delivery : Delivery) :
    d.complete delivery = (Phase.timing delivery none).rest d now := by
  show Prog.bind Eff.now _ = Prog.bind Eff.now _
  refine congrArg _ (funext fun t => congrArg _ (funext fun reply => ?_))
  cases reply <;> rfl

theorem rest_trying (d : Dispatcher) (now : Time) (delivery : Delivery) (event : Envelope) :
    ∃ next, (Phase.trying delivery event).rest d now =
        .call (.deliver delivery.destinationID event) next ∧
      next none = (Phase.timing delivery none).rest d now ∧
      ∀ err, next (some err) = (Phase.failing delivery err).rest d now :=
  ⟨_, rfl, complete_eq delivery, fun _ => rfl⟩

/-- A delivery that was claimed is sent, or has failed. -/
theorem handle_attempts (now : Time) (delivery : Delivery) :
    ∃ φ, d.handle now (.ok delivery) = φ.rest d now ∧ Attempts delivery φ := by
  show ∃ φ, Prog.bind (d.attempt delivery now) _ = _ ∧ _
  unfold attempt
  split_ifs with hknown
  · split
    · exact ⟨.failing delivery _, rfl, .failing _⟩
    · rename_i event hevent
      refine ⟨.trying delivery event, ?_, .trying event⟩
      refine congrArg _ (funext fun reply => ?_)
      cases reply <;> rfl
  · exact ⟨.failing delivery _, rfl, .failing _⟩

/-- The row that a worker holds is finalized. -/
theorem finalize_held {s : Store} {id workerID : String}
    {change : Table.Change (fun d : Delivery => d.id) Delivery.eventKey}
    (h : s.outbox.rows.any (Delivery.heldBy id workerID) = true) :
    s.finalize id workerID change = (true, { s with outbox := s.outbox.modify id change }) :=
  if_pos h

/-- A retry is never asked for at an earlier time. -/
theorem reschedule_not_before (delivery : Delivery) (err : DeliveryError) :
    ¬((d.rescheduleRequest delivery err now).failure = .retryable ∧
      (d.rescheduleRequest delivery err now).nextAttemptAt < now) := by
  rintro ⟨hretry, hbefore⟩
  have hdelay : d.backoff delivery.attempts ≤ (d.classify delivery.attempts err).2 :=
    (d.classify_delay hretry).1
  have hpos := Int64.lt_of_lt_of_le d.initialBackoff_pos
    (Int64.le_trans (d.backoff_bounds delivery.attempts).1 hdelay)
  exact absurd hbefore (not_lt.mpr (le_of_lt (lt_add hpos)))

theorem completeDelivery_call (request : CompleteRequest) (hid : isBlank request.id = false)
    (hworker : isBlank request.workerID = false) (htime : request.completedAt.isZero = false) :
    ∃ next, Mongo.completeDelivery request = .call (.store (.outboxComplete request)) next ∧
      next (.ok true) = .ret (.ok ()) := by
  unfold Mongo.completeDelivery
  rw [if_neg (by simp [hid, hworker, htime])]
  exact ⟨_, rfl, rfl⟩

theorem rescheduleDelivery_call (request : RescheduleRequest) (hid : isBlank request.id = false)
    (hworker : isBlank request.workerID = false) (htime : request.now.isZero = false)
    (hlater : ¬(request.failure = .retryable ∧ request.nextAttemptAt < request.now)) :
    ∃ next, Mongo.rescheduleDelivery request = .call (.store (.outboxReschedule request)) next ∧
      next (.ok true) = .ret (.ok ()) := by
  unfold Mongo.rescheduleDelivery
  rw [if_neg (by simp [hid, hworker, htime]), if_neg hlater]
  exact ⟨_, rfl, rfl⟩

variable {f f' : Floor} {w : Worker Op Op.Reply (Bool × Option Err)}

/-- A store operation other than a claim, and what follows its answer. -/
theorem moves_store {β : Type} {op : StoreOp} {next : (Op.store op).Reply → Eff β}
    {rest : β → Eff (Bool × Option Err)} {reply : Except Err op.Out} {s' : Store} {b : β}
    (h : (d.service stored now).Moves f (.running (.bind (.call (.store op) next) rest)) f' w)
    (happly : f.store.applyAt stored op = (reply, s')) (hdone : next reply = .ret b)
    (hafter : f.after stored op = { f with store := (f.store.applyAt stored op).2 }) :
    w = .running (rest b) ∧ f' = { f with store := s' } := by
  obtain ⟨_, ⟨rfl, rfl⟩, rfl⟩ := moves_call h
  rw [hafter, happly]
  refine ⟨?_, rfl⟩
  rw [hdone]
  rfl

/-- A worker that holds its row finalizes it. -/
theorem moves_closing {delivery : Delivery} {outcome : Option DeliveryError}
    (hnow : now.isZero = false) (hid : isBlank delivery.id = false)
    (hheld : f.store.outbox.rows.any (Delivery.heldBy delivery.id d.workerID) = true)
    (h : (d.service stored now).Moves f (.running (d.close delivery now outcome)) f' w) :
    w = Phase.served.view d now ∧
      f' = f.alter delivery.id (d.closeChange stored now delivery outcome) f.claimed := by
  have hfinal (change : Table.Change (fun d : Delivery => d.id) Delivery.eventKey) :
      ((.ok (f.store.finalize delivery.id d.workerID change).1 : Except Err Bool),
        (f.store.finalize delivery.id d.workerID change).2) =
      (.ok true, { f.store with outbox := f.store.outbox.modify delivery.id change }) := by
    rw [finalize_held hheld]
  cases outcome with
  | none =>
    obtain ⟨next, hcall, hdone⟩ :=
      completeDelivery_call (d.completeRequest delivery now) hid d.identified.1 hnow
    rw [close, hcall] at h
    obtain ⟨rfl, rfl⟩ := moves_store h (hfinal _) hdone rfl
    exact ⟨rfl, rfl⟩
  | some err =>
    obtain ⟨next, hcall, hdone⟩ := rescheduleDelivery_call (d.rescheduleRequest delivery err now)
      hid d.identified.1 hnow (reschedule_not_before delivery err)
    rw [close, hcall] at h
    obtain ⟨rfl, rfl⟩ := moves_store h (hfinal _) hdone rfl
    exact ⟨rfl, rfl⟩

/-- A worker that asks for a row gets the first one that is eligible, if there is one. -/
theorem moves_claiming (hnow : now.isZero = false)
    (h : (d.service stored now).Moves f (.running (Phase.claiming.rest d now)) f' w) :
    ∃ φ, w = φ.view d now ∧ d.Turns stored now f .claiming f' φ := by
  obtain ⟨next, hrest, hnone, hsome⟩ := rest_claiming (d := d) hnow
  rw [hrest] at h
  obtain ⟨reply, ⟨hreply, rfl⟩, rfl⟩ := moves_call h
  have hclaim : f.store.applyAt stored (.outboxClaim ⟨d.workerID, now, d.leaseDuration⟩) =
      (.ok (f.store.claimAt stored ⟨d.workerID, now, d.leaseDuration⟩).1,
        (f.store.claimAt stored ⟨d.workerID, now, d.leaseDuration⟩).2) := rfl
  rw [hreply, hclaim, Floor.after, Store.claimAt]
  cases hrow : f.store.claimableAt stored now with
  | none =>
    dsimp only
    rw [hnone, Option.map_none, Option.toList_none, List.append_nil]
    exact ⟨.missed, rfl, .miss hrow⟩
  | some row =>
    dsimp only
    rw [hsome]
    obtain ⟨φ, hφ, hattempts⟩ := handle_attempts (d := d) now
      ((claimChangeAt stored ⟨d.workerID, now, d.leaseDuration⟩).apply row)
    refine ⟨φ, ?_, .take hrow rfl hattempts⟩
    rw [hφ]
    cases hattempts <;> rfl

/-- What a worker does is a turn of its phase. -/
theorem moves_turns {φ : Phase} (hnow : now.isZero = false)
    (hheld : ∀ id ∈ φ.held, isBlank id = false ∧
      f.store.outbox.rows.any (Delivery.heldBy id d.workerID) = true)
    (h : (d.service stored now).Moves f (φ.view d now) f' w) :
    ∃ φ', w = φ'.view d now ∧ d.Turns stored now f φ f' φ' := by
  cases φ with
  | fresh =>
    obtain ⟨next, hrest, hnext⟩ := rest_fresh d now
    change (d.service stored now).Moves f (.running (Phase.fresh.rest d now)) f' w at h
    rw [hrest] at h
    obtain ⟨reply, ⟨rfl, rfl⟩, rfl⟩ := moves_call h
    exact ⟨.awake, by rw [hnext]; rfl, .wake _⟩
  | awake =>
    obtain ⟨reply, ⟨rfl, rfl⟩, rfl⟩ := moves_call h
    exact ⟨.claiming, rfl, .look _⟩
  | claiming => exact moves_claiming hnow h
  | missed =>
    obtain ⟨rfl, rfl⟩ := moves_ret h
    exact ⟨.done, rfl, .leave _⟩
  | trying delivery event =>
    obtain ⟨next, hrest, hsent, hfailed⟩ := rest_trying d now delivery event
    change (d.service stored now).Moves f
      (.running ((Phase.trying delivery event).rest d now)) f' w at h
    rw [hrest] at h
    obtain ⟨reply, rfl, rfl⟩ := moves_call h
    cases reply with
    | none => exact ⟨.timing delivery none, by rw [hsent]; rfl, .sent _ delivery event⟩
    | some err => exact ⟨.failing delivery err, by rw [hfailed]; rfl, .refused _ delivery event err⟩
  | failing delivery err =>
    obtain ⟨next, hrest, hnext⟩ := rest_failing d now delivery err
    change (d.service stored now).Moves f
      (.running ((Phase.failing delivery err).rest d now)) f' w at h
    rw [hrest] at h
    obtain ⟨reply, ⟨rfl, rfl⟩, rfl⟩ := moves_call h
    exact ⟨.timing delivery (some err), by rw [hnext]; rfl, .live _ delivery err⟩
  | timing delivery outcome =>
    obtain ⟨reply, ⟨rfl, rfl⟩, rfl⟩ := moves_call h
    exact ⟨.closing delivery outcome, rfl, .time _ delivery outcome⟩
  | closing delivery outcome =>
    obtain ⟨hid, hrow⟩ := hheld delivery.id List.mem_cons_self
    obtain ⟨rfl, rfl⟩ := moves_closing hnow hid hrow h
    exact ⟨.served, rfl, .close _ delivery outcome⟩
  | served =>
    obtain ⟨rfl, rfl⟩ := moves_ret h
    exact ⟨.fresh, rfl, .again _⟩
  | done => cases h

end Phases

end Dispatcher

end RuleRaven.Notify
