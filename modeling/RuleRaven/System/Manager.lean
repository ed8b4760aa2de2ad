import RuleRaven.Framework.Queue
import RuleRaven.Framework.Trace
import RuleRaven.Framework.Workers
import RuleRaven.Kube.Manager
import RuleRaven.System.World

namespace RuleRaven.Kube

open Framework Controller Notify

/-- What an informer tells its handler. A tombstone stands for an object whose deletion was
missed, and may have lost the object. -/
inductive Callback where
  | added (object : Object)
  | updated (old current : Object)
  | deleted (object : Object)
  | tombstone (object : Option Object)

/-- `OnAdd`, `OnUpdate` and `OnDelete`: the key that is queued. -/
def EventHandler.on (handler : EventHandler) : Callback → Option ResourceKey
  | .added object | .updated _ object | .deleted object => handler.enqueue object
  | .tombstone object => object.bind handler.enqueue

def EventHandler.stop (handler : EventHandler) : EventHandler := { handler with accepting := false }

/-- Whose calls they are: the reconciliation after the n-th `Get` of a key, or a dispatch. -/
inductive Execution where
  | reconcile (key : ResourceKey) (n : Nat)
  | dispatch (n : Nat)
  deriving DecidableEq

/-- The calls of a worker: those on the queue, and those of a reconciliation. -/
inductive WorkerOp where
  | get
  | forget (key : ResourceKey)
  | addRateLimited (key : ResourceKey)
  | addAfter (key : ResourceKey) (delay : Duration)
  | done (key : ResourceKey)
  | ctxErr
  | effect (key : ResourceKey) (op : Op)

/-- `ctxErr` tells whether the context is over. -/
def WorkerOp.Reply : WorkerOp → Type
  | .get => Option ResourceKey
  | .ctxErr => Bool
  | .effect _ op => op.Reply
  | _ => Unit

abbrev WorkerProg := Prog WorkerOp WorkerOp.Reply

abbrev ReconcileFunc := ResourceKey → Eff (Except Err Controller.Result)

namespace WorkerProg

def get : WorkerProg (Option ResourceKey) := Prog.perform WorkerOp.get

def forget (key : ResourceKey) : WorkerProg Unit := Prog.perform (WorkerOp.forget key)

def addRateLimited (key : ResourceKey) : WorkerProg Unit :=
  Prog.perform (WorkerOp.addRateLimited key)

def addAfter (key : ResourceKey) (delay : Duration) : WorkerProg Unit :=
  Prog.perform (WorkerOp.addAfter key delay)

def done (key : ResourceKey) : WorkerProg Unit := Prog.perform (WorkerOp.done key)

def ctxErr : WorkerProg Bool := Prog.perform WorkerOp.ctxErr

end WorkerProg

/-- The calls of a reconciliation, made on account of its key. -/
def within {α : Type} (key : ResourceKey) (p : Eff α) : WorkerProg α :=
  p.interpret fun op => Prog.perform (WorkerOp.effect key op)

/-- What a worker does with the key after the reconciliation has returned. -/
def settle (key : ResourceKey) : Except Err Controller.Result → WorkerProg Unit
  | .error _ => do
    if ← WorkerProg.ctxErr then pure () else WorkerProg.addRateLimited key
  | .ok result => do
    WorkerProg.forget key
    if 0 < result.requeueAfter then
      if ← WorkerProg.ctxErr then pure () else WorkerProg.addAfter key result.requeueAfter

/-- One turn of the loop of `runWorker`, which is over once the queue is shut down. The queue
holds nothing but keys, so the assertion on the item never fails. -/
def runWorker (reconcile : ReconcileFunc) : WorkerProg Bool := do
  match ← WorkerProg.get with
  | none => pure false
  | some key =>
    let result ← within key (reconcile key)
    settle key result
    WorkerProg.done key
    pure true

/-- How far `Run` has come. The informers may fail to synchronize; it returns an error then,
unless its context is over. Once they have synchronized, `OnCacheSync` is called, and then the
workers are started. -/
inductive Stage where
  | syncing
  | synced
  | announced
  | serving
  | stopping
  | draining
  | joining
  | finished
  | failed (err : Option Err)
  deriving DecidableEq

def errSync : Err := ⟨"Kubernetes informer cache synchronization failed", none⟩

/-- Everything the workers share, and the dispatches that go on beside them. -/
structure Site (Q : Queue ResourceKey) where
  stage : Stage := .syncing
  handler : EventHandler
  cancelled : Bool := false
  queue : Tracked Q := {}
  world : World Execution
  dispatches : List (Execution × Eff Unit) := []

variable {Q : Queue ResourceKey}

/-- How often a key was started. -/
def started (queue : Tracked Q) (key : ResourceKey) : Nat :=
  queue.log.count (.got key)

/-- The name of the latest reconciliation of a key. -/
def Site.latest (s : Site Q) (key : ResourceKey) : Execution := .reconcile key (started s.queue key)

/-- What a call of a worker does. -/
def Site.acts : (op : WorkerOp) → Site Q → op.Reply → Site Q → Prop
  | .get, s, reply, s' =>
    ∃ queue, s.queue.get = some (reply, queue) ∧ s' = { s with queue := queue }
  | .forget key, s, _, s' => s' = { s with queue := s.queue.forget key }
  | .addRateLimited key, s, _, s' => s' = { s with queue := s.queue.addRateLimited key }
  | .addAfter key delay, s, _, s' => s' = { s with queue := s.queue.addAfter key delay.toInt }
  | .done key, s, _, s' => s' =
      { s with
        queue := s.queue.done key
        world := (machine Execution).halt (s.latest key) s.world }
  | .ctxErr, s, reply, s' => reply = s.cancelled ∧ s' = s
  | .effect key op, s, reply, s' => ∃ store, Answers s.world.clock s.world.store op reply store ∧
      s' = { s with world := s.world.extend (s.latest key) op reply store }

/-- The workers of `Run`. -/
def service (reconcile : ReconcileFunc) : Service WorkerOp WorkerOp.Reply Bool (Site Q) where
  body := runWorker reconcile
  again := id
  act := Site.acts

abbrev Plant (Q : Queue ResourceKey) := Staff WorkerOp WorkerOp.Reply Bool (Site Q)

/-- What dispatches may be started. -/
def dispatching (d : Dispatcher) (i : Execution) (task : Task) : Prop :=
  (∃ n, i = .dispatch n) ∧ task = .dispatch d

section Steps

variable (H : Hasher) (reconcile : ReconcileFunc) (d : Dispatcher) (known : ResourceKey → Prop)

/-- What happens beside the workers: callbacks and sweeps bring known keys, a waiting key is
due, dispatches go on while the clock runs, the context ends, and `Run` goes on. -/
inductive Passes : Site Q → Site Q → Prop
  | callback {s : Site Q} {told : Callback} {key : ResourceKey} (h : s.handler.on told = some key)
      (hknown : known key) : Passes s { s with queue := s.queue.add key }
  | sweep (s : Site Q) {key : ResourceKey} (hknown : known key) :
      Passes s { s with queue := s.queue.add key }
  | due {s : Site Q} {key : ResourceKey} (h : key ∈ s.queue.view.waiting) :
      Passes s { s with queue := s.queue.fire key }
  | dispatch {s : Site Q} {world : World Execution} {dispatches : List (Execution × Eff Unit)}
      (h : Step (machine Execution) (starts H (dispatching d)) ⟨s.world, s.dispatches⟩
        ⟨world, dispatches⟩) : Passes s { s with world := world, dispatches := dispatches }
  | cancel (s : Site Q) : Passes s { s with cancelled := true }
  | synced {s : Site Q} (h : s.stage = .syncing) : Passes s { s with stage := .synced }
  | onCacheSync {s : Site Q} (h : s.stage = .synced) : Passes s { s with stage := .announced }
  | unsynced {s : Site Q} (h : s.stage = .syncing) : Passes s
      { s with
        stage := .failed (if s.cancelled then none else some errSync)
        handler := s.handler.stop
        queue := s.queue.shutDown }
  | stop {s : Site Q} (h : s.stage = .serving) (hcancelled : s.cancelled = true) :
      Passes s { s with stage := .stopping, handler := s.handler.stop }
  | shut {s : Site Q} (h : s.stage = .stopping) :
      Passes s { s with stage := .draining, queue := s.queue.shutDown }
  | drained {s : Site Q} (h : s.stage = .draining) (hdrained : s.queue.drained = true) :
      Passes s { s with stage := .joining }

/-- One step of the manager and of what goes on around it. -/
inductive ManagerStep (workers : Nat) : Plant Q → Plant Q → Prop
  | work {c c' : Plant Q} (h : (service reconcile).Step c c') : ManagerStep workers c c'
  | pass {s s' : Site Q} (crew : List (Worker WorkerOp WorkerOp.Reply Bool))
      (h : Passes H d known s s') : ManagerStep workers ⟨s, crew⟩ ⟨s', crew⟩
  | launched {s : Site Q} (crew : List (Worker WorkerOp WorkerOp.Reply Bool))
      (h : s.stage = .announced) : ManagerStep workers ⟨s, crew⟩
        ((service reconcile).launch workers { s with stage := .serving })
  | joined {c : Plant Q} (h : c.state.stage = .joining) (hfinished : c.Finished) :
      ManagerStep workers c ⟨{ c.state with stage := .finished }, c.workers⟩

/-- Every run of the manager. -/
def ManagerRuns (workers : Nat) : Plant Q → Plant Q → Prop :=
  Relation.ReflTransGen (ManagerStep H reconcile d known workers)

end Steps

/-- `Run` at its start: the queue is new, and nobody works. -/
def Manager.begin (Q : Queue ResourceKey) (manager : Manager) (t : Time) : Plant Q :=
  ⟨{ handler := manager.handler, world := { clock := t } }, []⟩

/-- Where a worker stands, and with what its reconciliation returned. -/
inductive Phase where
  | idle
  | working (key : ResourceKey) (rest : Eff (Except Err Controller.Result))
  | retrying (key : ResourceKey) (err : Err)
  | checking (key : ResourceKey) (result : Controller.Result) (h : 0 < result.requeueAfter)
  | delaying (key : ResourceKey) (result : Controller.Result) (h : 0 < result.requeueAfter)
  | closing (key : ResourceKey) (result : Except Err Controller.Result)
  | looping
  | leaving
  | gone

namespace Phase

variable (reconcile : ReconcileFunc)

/-- The end of a turn. -/
def close (key : ResourceKey) : WorkerProg Bool := (WorkerProg.done key).bind fun _ => .ret true

/-- What is left of the turn. -/
def rest : Phase → WorkerProg Bool
  | .idle => runWorker reconcile
  | .working key p => (within key p).bind fun result => (settle key result).bind fun _ => close key
  | .retrying key _ => (WorkerProg.addRateLimited key).bind fun _ => close key
  | .checking key result _ => WorkerProg.ctxErr.bind fun ended => Prog.bind
      (if ended then pure () else WorkerProg.addAfter key result.requeueAfter) fun _ => close key
  | .delaying key result _ =>
      (WorkerProg.addAfter key result.requeueAfter).bind fun _ => close key
  | .closing key _ => close key
  | .looping => .ret true
  | .leaving | .gone => .ret false

def view : Phase → Worker WorkerOp WorkerOp.Reply Bool
  | .gone => .stopped false
  | φ => .running (φ.rest reconcile)

/-- The key that a worker works on. -/
def key : Phase → Option ResourceKey
  | .working key _ | .retrying key _ | .checking key _ _ | .delaying key _ _ | .closing key _ =>
    some key
  | _ => none

/-- The worker has found the queue shut down. -/
def ended : Phase → Bool
  | .leaving | .gone => true
  | _ => false

end Phase

/-- The steps of one worker, by phases. -/
inductive Turns (reconcile : ReconcileFunc) : Site Q → Phase → Site Q → Phase → Prop
  | got {s : Site Q} {key : ResourceKey} {queue : Tracked Q}
      (h : s.queue.get = some (some key, queue)) :
      Turns reconcile s .idle { s with queue := queue } (.working key (reconcile key))
  | shut {s : Site Q} {queue : Tracked Q} (h : s.queue.get = some (none, queue)) :
      Turns reconcile s .idle { s with queue := queue } .leaving
  | call {s : Site Q} {key : ResourceKey} {op : Op} {reply : op.Reply} {store : Store}
      (next : op.Reply → Eff (Except Err Controller.Result))
      (h : Answers s.world.clock s.world.store op reply store) :
      Turns reconcile s (.working key (.call op next))
        { s with world := s.world.extend (s.latest key) op reply store } (.working key (next reply))
  | failed {s : Site Q} (key : ResourceKey) (err : Err) (h : s.cancelled = false) :
      Turns reconcile s (.working key (.ret (.error err))) s (.retrying key err)
  | abandoned {s : Site Q} (key : ResourceKey) (err : Err) (h : s.cancelled = true) :
      Turns reconcile s (.working key (.ret (.error err))) s (.closing key (.error err))
  | retried (s : Site Q) (key : ResourceKey) (err : Err) : Turns reconcile s (.retrying key err)
        { s with queue := s.queue.addRateLimited key } (.closing key (.error err))
  | settled {s : Site Q} (key : ResourceKey) {result : Controller.Result}
      (h : ¬0 < result.requeueAfter) : Turns reconcile s (.working key (.ret (.ok result)))
        { s with queue := s.queue.forget key } (.closing key (.ok result))
  | succeeded {s : Site Q} (key : ResourceKey) {result : Controller.Result}
      (h : 0 < result.requeueAfter) : Turns reconcile s (.working key (.ret (.ok result)))
        { s with queue := s.queue.forget key } (.checking key result h)
  | dropped {s : Site Q} (key : ResourceKey) {result : Controller.Result}
      (hdelay : 0 < result.requeueAfter) (h : s.cancelled = true) :
      Turns reconcile s (.checking key result hdelay) s (.closing key (.ok result))
  | checked {s : Site Q} (key : ResourceKey) {result : Controller.Result}
      (hdelay : 0 < result.requeueAfter) (h : s.cancelled = false) :
      Turns reconcile s (.checking key result hdelay) s (.delaying key result hdelay)
  | delayed (s : Site Q) (key : ResourceKey) {result : Controller.Result}
      (h : 0 < result.requeueAfter) : Turns reconcile s (.delaying key result h)
        { s with queue := s.queue.addAfter key result.requeueAfter.toInt }
        (.closing key (.ok result))
  | closed (s : Site Q) (key : ResourceKey) (result : Except Err Controller.Result) :
      Turns reconcile s (.closing key result)
        { s with
          queue := s.queue.done key
          world := (machine Execution).halt (s.latest key) s.world } .looping
  | looped (s : Site Q) : Turns reconcile s .looping s .idle
  | left (s : Site Q) : Turns reconcile s .leaving s .gone

/-- What a worker does is a turn of its phase. -/
theorem moves_turns {reconcile : ReconcileFunc} {s s' : Site Q} {φ : Phase}
    {w : Worker WorkerOp WorkerOp.Reply Bool}
    (h : (service reconcile).Moves s (φ.view reconcile) s' w) :
    ∃ φ', w = φ'.view reconcile ∧ Turns reconcile s φ s' φ' := by
  cases φ with
  | idle =>
    obtain ⟨reply, ⟨queue, hget, rfl⟩, rfl⟩ := Service.Moves.call h
    cases reply with
    | none => exact ⟨.leaving, rfl, .shut hget⟩
    | some key => exact ⟨.working key (reconcile key), rfl, .got hget⟩
  | working key p =>
    cases p with
    | call op next =>
      obtain ⟨reply, ⟨store, hanswer, rfl⟩, rfl⟩ := Service.Moves.call h
      exact ⟨.working key (next reply), rfl, .call next hanswer⟩
    | ret result =>
      cases result with
      | error err =>
        obtain ⟨reply, ⟨hreply, rfl⟩, rfl⟩ := Service.Moves.call h
        cases hcancelled : s'.cancelled with
        | true =>
          rw [hcancelled] at hreply
          subst hreply
          exact ⟨.closing key (.error err), rfl, .abandoned key err hcancelled⟩
        | false =>
          rw [hcancelled] at hreply
          subst hreply
          exact ⟨.retrying key err, rfl, .failed key err hcancelled⟩
      | ok result =>
        obtain ⟨reply, rfl, rfl⟩ := Service.Moves.call h
        by_cases hdelay : 0 < result.requeueAfter
        · refine ⟨.checking key result hdelay, congrArg Worker.running ?_, .succeeded key hdelay⟩
          show Prog.bind (if 0 < result.requeueAfter then _ else _) _ = _
          rw [if_pos hdelay]
          rfl
        · refine ⟨.closing key (.ok result), congrArg Worker.running ?_, .settled key hdelay⟩
          show Prog.bind (if 0 < result.requeueAfter then _ else _) _ = _
          rw [if_neg hdelay]
          rfl
  | retrying key err =>
    obtain ⟨reply, rfl, rfl⟩ := Service.Moves.call h
    exact ⟨.closing key (.error err), rfl, .retried s key err⟩
  | checking key result hdelay =>
    obtain ⟨reply, ⟨hreply, rfl⟩, rfl⟩ := Service.Moves.call h
    cases hcancelled : s'.cancelled with
    | true =>
      rw [hcancelled] at hreply
      subst hreply
      exact ⟨.closing key (.ok result), rfl, .dropped key hdelay hcancelled⟩
    | false =>
      rw [hcancelled] at hreply
      subst hreply
      exact ⟨.delaying key result hdelay, rfl, .checked key hdelay hcancelled⟩
  | delaying key result hdelay =>
    obtain ⟨reply, rfl, rfl⟩ := Service.Moves.call h
    exact ⟨.closing key (.ok result), rfl, .delayed s key hdelay⟩
  | closing key result =>
    obtain ⟨reply, rfl, rfl⟩ := Service.Moves.call h
    exact ⟨.looping, rfl, .closed s key result⟩
  | looping =>
    obtain ⟨rfl, rfl⟩ := Service.Moves.ret h
    exact ⟨.idle, rfl, .looped s'⟩
  | leaving =>
    obtain ⟨rfl, rfl⟩ := Service.Moves.ret h
    exact ⟨.gone, rfl, .left s'⟩
  | gone => cases h

theorem moves_act {reconcile : ReconcileFunc} {s s' : Site Q} {op : WorkerOp}
    {next : op.Reply → WorkerProg Bool} {rest : WorkerProg Bool} (reply : op.Reply)
    (hact : Site.acts op s reply s') (hnext : next reply = rest) :
    (service reconcile).Moves s (.running (.call op next)) s' (.running rest) :=
  hnext ▸ .act next hact

/-- And every turn is something a worker can do. -/
theorem Turns.moves {reconcile : ReconcileFunc} {s s' : Site Q} {φ φ' : Phase}
    (h : Turns reconcile s φ s' φ') :
    (service reconcile).Moves s (φ.view reconcile) s' (φ'.view reconcile) := by
  cases h with
  | @got key queue h => exact moves_act (some key) ⟨queue, h, rfl⟩ rfl
  | shut h => exact moves_act none ⟨_, h, rfl⟩ rfl
  | @call key op reply store next h => exact moves_act reply ⟨store, h, rfl⟩ rfl
  | failed key err h => exact moves_act false ⟨h.symm, rfl⟩ rfl
  | abandoned key err h => exact moves_act true ⟨h.symm, rfl⟩ rfl
  | retried key err => exact moves_act () rfl rfl
  | @settled key result h =>
    refine moves_act () rfl ?_
    show Prog.bind (if 0 < result.requeueAfter then _ else _) _ = _
    rw [if_neg h]
    rfl
  | @succeeded key result h =>
    refine moves_act () rfl ?_
    show Prog.bind (if 0 < result.requeueAfter then _ else _) _ = _
    rw [if_pos h]
    rfl
  | dropped key hdelay h => exact moves_act true ⟨h.symm, rfl⟩ rfl
  | checked key hdelay h => exact moves_act false ⟨h.symm, rfl⟩ rfl
  | delayed key hdelay => exact moves_act () rfl rfl
  | closed key result => exact moves_act () rfl rfl
  | looped => exact .turn _ true
  | left => exact .turn _ false

end RuleRaven.Kube
