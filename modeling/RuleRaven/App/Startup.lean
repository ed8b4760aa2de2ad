import RuleRaven.App.Assembly
import RuleRaven.Notify.Destination
import RuleRaven.System.Exactness

namespace RuleRaven.App

open Framework Framework.Prog Kube Controller Provider Notify

namespace Scenario

def hook : DestinationConfig where
  id := "hook"
  type := "webhook"
  url := "https://hooks.example.com/in"
  credentialEnv := "HOOK_KEY"
  timeout := 10000000000
  maxResponseBytes := 4096
  maxRetryAfter := 60000000000

/-- A complete configuration with one destination. -/
def hooked : Config :=
  { settings "mute=on" with
    notifications := { destinations := [hook], retry := ⟨5, 1000000000, 60000000000⟩ } }

/-- An environment in which the variables have one value, but for that of the provider. -/
def envOf (credential name : String) : Option String :=
  some (if name = "JEV_KEY" then credential else "value")

/-- The scheme and the host that `url.Parse` finds, of texts with the scheme of HTTPS or none. -/
def splitURL (text : String) : Option (String × String) :=
  if ['h', 't', 't', 'p', 's', ':', '/', '/'].isPrefixOf (chars text) then
    some ("https", String.ofList (((chars text).drop 8).takeWhile (· ≠ '/')))
  else if ['/', '/'].isPrefixOf (chars text) then
    some ("", String.ofList (((chars text).drop 2).takeWhile (· ≠ '/')))
  else none

def parsedHook (text : String) : Option ParsedURL :=
  (splitURL text).map fun parts => { scheme := parts.1, host := parts.2 }

/-- `url.ParseRequestURI` finds a host only after a scheme. -/
def requestedHook (text : String) : Option ParsedURL :=
  (splitURL text).map fun parts =>
    { scheme := parts.1, host := if parts.1 = "" then "" else parts.2 }

def hookFormats : Formats := Selector.formats parsedHook requestedHook

def providers : Provider.Library where
  parse _ := .error .malformed
  marshal _ := ""
  sum256 _ := Vector.replicate 32 0
  parseTime _ := none
  parseURL := splitURL

def hooksLibrary : Webhook.Library :=
  { Webhook.plainLibrary with
    parseURL := fun text =>
      (splitURL text).map fun parts => ⟨parts.1, parts.2, parts.2, false, "", text⟩ }

/-- Surroundings in which nothing fails. -/
def answering : (op : SetupOp) → Unit → op.Reply × Unit
  | .mark _, _ => ((), ())
  | .loadRESTConfig, _ => (none, ())
  | .newForConfig, _ => (none, ())
  | .connect _ _ _, _ => (none, ())
  | .ping, _ => (none, ())
  | .ensureIndexes, _ => (.ok (), ())
  | .disconnect, _ => (none, ())
  | .hostname, _ => (.ok "node", ())
  | .net .ctxErr, _ => (none, ())
  | .net .now, _ => (0, ())
  | .net (.lookup _), _ => (some [Webhook.publicIP], ())
  | .net (.dials _), _ => ([], ())
  | .net (.exchange _), _ => (none, ())
  | .net (.resolve _), _ => ([], ())
  | .net (.connect _ _), _ => (false, ())
  | .net (.foreign _), _ => (none, ())

/-- The start of a process, with a credential for its provider. -/
def starting (credential : String) : Setup (Except AssemblyError Production) :=
  newProduction Controller.Scenario.checksumHasher providers hooksLibrary
    hookFormats (envOf credential) 7 hooked

def startingTrace (credential : String) : List SetupEvent :=
  Prog.trace answering (starting credential) ()

def started (credential : String) : Except AssemblyError Production :=
  (Prog.run answering (starting credential) ()).1

theorem starting_does (credential : String) :
    (starting credential).Does (startingTrace credential) (started credential) :=
  does_trace _ _ _

theorem started_some : (started "secret").toOption.isSome = true := by decide +kernel

/-- What the process has built where its provider has a credential. -/
def built : Production := (started "secret").toOption.get started_some

theorem started_eq : started "secret" = .ok built := ok_of_toOption (Option.some_get _).symm

theorem built_does :
    (newProduction Controller.Scenario.checksumHasher providers hooksLibrary
      hookFormats (envOf "secret") 7 hooked).Does (startingTrace "secret")
        (.ok built) := by
  rw [← started_eq]
  exact starting_does "secret"

end Scenario

/-! ### The store is not left open -/

section Closing

/-- The store was connected to. -/
def opened : SetupEvent → Bool
  | ⟨.connect _ _ _, none⟩ => true
  | _ => false

def closed : SetupEvent → Bool
  | ⟨.disconnect, _⟩ => true
  | _ => false

/-- The store is open, once. -/
def Open (trace : List SetupEvent) : Prop := trace.countP opened = 1 ∧ trace.countP closed = 0

/-- It was not opened, or the last call closed it. -/
def Released (trace : List SetupEvent) : Prop :=
  (trace.countP opened = 0 ∧ trace.countP closed = 0) ∨
    ∃ front reply, trace = front ++ [⟨.disconnect, reply⟩] ∧ Open front

/-- A result that is a value leaves the store open, an error does not. -/
def Accounted {ε α : Type} (trace : List SetupEvent) : Except ε α → Prop
  | .ok _ => Open trace
  | .error _ => Released trace

/-- A call that neither opens nor closes it. -/
def Leaves : SetupOp → Prop
  | .connect _ _ _ => False
  | .disconnect => False
  | _ => True

theorem countP_leaves {trace : List SetupEvent} (h : ∀ event ∈ trace, Leaves event.1) :
    trace.countP opened = 0 ∧ trace.countP closed = 0 := by
  simp only [List.countP_eq_zero]
  constructor <;> intro event hevent <;> have hleaves := h event hevent
  · obtain ⟨op, reply⟩ := event
    cases op <;> simp_all [Leaves, opened]
  · obtain ⟨op, reply⟩ := event
    cases op <;> simp_all [Leaves, closed]

theorem Released.of_leaves {trace : List SetupEvent} (h : ∀ event ∈ trace, Leaves event.1) :
    Released trace :=
  .inl (countP_leaves h)

theorem Open.append {front back : List SetupEvent} (hfront : ∀ event ∈ front, Leaves event.1)
    (h : Open back) : Open (front ++ back) := by
  obtain ⟨hopened, hclosed⟩ := countP_leaves hfront
  obtain ⟨hopened', hclosed'⟩ := h
  exact ⟨by rw [List.countP_append]; omega, by rw [List.countP_append]; omega⟩

theorem Open.after {front back : List SetupEvent} (h : Open front)
    (hback : ∀ event ∈ back, Leaves event.1) : Open (front ++ back) := by
  obtain ⟨hopened, hclosed⟩ := countP_leaves hback
  obtain ⟨hopened', hclosed'⟩ := h
  exact ⟨by rw [List.countP_append]; omega, by rw [List.countP_append]; omega⟩

theorem Released.append {front back : List SetupEvent}
    (hfront : ∀ event ∈ front, Leaves event.1) (h : Released back) : Released (front ++ back) := by
  rcases h with ⟨hopened, hclosed⟩ | ⟨rest, reply, rfl, hopen⟩
  · obtain ⟨hopened', hclosed'⟩ := countP_leaves hfront
    exact .inl ⟨by rw [List.countP_append]; omega, by rw [List.countP_append]; omega⟩
  · exact .inr ⟨front ++ rest, reply, by rw [List.append_assoc], hopen.append hfront⟩

variable {H : Hasher} {L : Provider.Library} {W : Webhook.Library}
  {F : Formats} {lookupEnv : String → Option String}
  {pid : Nat} {cfg : Config} {uri database : String} {timeout : Duration}
  {trace : List SetupEvent}

theorem storeReady_leaves : storeReady.Only Leaves := by
  refine only_bind (only_perform trivial) fun reply => ?_
  cases reply with
  | some err => trivial
  | none => exact only_bind (only_perform trivial) fun reply => by cases reply <;> trivial

theorem newStore_accounted {result : Except MongoError Unit}
    (h : (newStore uri database timeout).Does trace result) : Accounted trace result := by
  unfold newStore at h
  split at h
  · obtain ⟨rfl, rfl⟩ := h
    exact .of_leaves (by simp)
  by_cases hblank : isBlank uri = true
  · rw [if_pos hblank] at h
    obtain ⟨rfl, rfl⟩ := h
    exact .of_leaves (by simp)
  · rw [if_neg hblank] at h
    obtain ⟨reply, rest, rfl, hrest⟩ := h
    cases reply with
    | some err =>
      obtain ⟨rfl, rfl⟩ := hrest
      exact .inl ⟨rfl, rfl⟩
    | none =>
      obtain ⟨rfl, rfl⟩ := hrest
      exact ⟨rfl, rfl⟩

theorem openStore_accounted {result : Except MongoError Unit}
    (h : (openStore uri database timeout).Does trace result) : Accounted trace result := by
  obtain ⟨front, back, created, rfl, hcreated, h⟩ := does_bind.mp h
  have hcreated := newStore_accounted hcreated
  cases created with
  | error err =>
    obtain ⟨rfl, rfl⟩ := h
    rw [List.append_nil]
    exact hcreated
  | ok _ =>
    obtain ⟨middle, back, ready, rfl, hready, h⟩ := does_bind.mp h
    have hopen : Open (front ++ middle) := hcreated.after (hready.only storeReady_leaves)
    rw [← List.append_assoc]
    cases ready with
    | ok _ =>
      obtain ⟨reply, rest, rfl, rfl, rfl⟩ := h
      exact hopen.after (by simp [Leaves])
    | error err =>
      obtain ⟨reply, rest, rfl, rfl, rfl⟩ := h
      exact .inr ⟨_, reply, rfl, hopen⟩

theorem prepare_leaves : (prepare F lookupEnv cfg).Only Leaves := by
  refine only_bind (only_perform trivial) fun _ => ?_
  split
  · trivial
  split
  · trivial
  refine only_bind (only_perform trivial) fun reply => ?_
  cases reply with
  | some err => trivial
  | none => exact only_bind (only_perform trivial) fun reply => by cases reply <;> trivial

section Only

variable {P : SetupOp → Prop}

theorem net_only (hnet : ∀ op, P (.net op)) {α : Type} (p : Webhook.Net α) :
    (Setup.net p).Only P := by
  have hall : p.Only fun _ => True := by
    induction p with
    | ret a => trivial
    | call op next ih => exact ⟨trivial, ih⟩
  exact only_interpret _ hall fun op _ => only_perform (hnet op)

theorem buildNotifiers_only (hnet : ∀ op, P (.net op)) (destinations : List DestinationConfig) :
    (buildNotifiers W lookupEnv destinations).Only P := by
  induction destinations with
  | nil => trivial
  | cons destination rest ih =>
    refine only_bind ?_ fun built => ?_
    · unfold createNotifier
      split_ifs
      · exact net_only hnet _
      · trivial
    cases built with
    | error err => trivial
    | ok notifier => exact only_bind ih fun built => by cases built <;> trivial

theorem assembleDispatcher_only (hhostname : P .hostname) (notifiers : List Webhook) :
    (assembleDispatcher pid cfg notifiers).Only P := by
  refine only_bind (only_perform hhostname) fun reply => ?_
  cases reply with
  | error err => trivial
  | ok host =>
    dsimp only
    split_ifs
    · trivial
    split
    · trivial
    split <;> trivial

/-- Once the store is ready, the resolver is asked, and the name of the host. -/
theorem assemble_only (hnet : ∀ op, P (.net op)) (hhostname : P .hostname) :
    (assemble H L W lookupEnv pid cfg).Only P := by
  unfold assemble
  split
  · trivial
  refine only_bind (buildNotifiers_only hnet _) fun built => ?_
  cases built with
  | error err => trivial
  | ok notifiers =>
    dsimp only
    split
    · trivial
    split
    · trivial
    split
    · trivial
    exact only_bind (assembleDispatcher_only hhostname notifiers) fun built => by
      cases built <;> trivial

end Only

/-- Whatever the surroundings answer: production that is built has its store open, and where
building it fails the store was never opened or the last call has closed it. -/
theorem newProduction_accounted {result : Except AssemblyError Production}
    (h : (newProduction H L W F lookupEnv pid cfg).Does trace result) :
    Accounted trace result := by
  obtain ⟨front, back, prepared, rfl, hprepared, h⟩ := does_bind.mp h
  have hfront := hprepared.only prepare_leaves
  cases prepared with
  | error cause =>
    obtain ⟨rfl, rfl⟩ := h
    rw [List.append_nil]
    exact .of_leaves hfront
  | ok _ =>
    obtain ⟨middle, back, store, rfl, hstore, h⟩ := does_bind.mp h
    have hstore := openStore_accounted hstore
    cases store with
    | error err =>
      obtain ⟨rfl, rfl⟩ := h
      rw [List.append_nil]
      exact hstore.append hfront
    | ok _ =>
      obtain ⟨last, back, built, rfl, hbuilt, h⟩ := does_bind.mp h
      have hopen : Open (front ++ middle ++ last) :=
        (hstore.append hfront).after (hbuilt.only (assemble_only (fun _ => trivial) trivial))
      rw [← List.append_assoc, ← List.append_assoc]
      cases built with
      | ok production =>
        obtain ⟨rfl, rfl⟩ := h
        rw [List.append_nil]
        exact hopen
      | error cause =>
        obtain ⟨reply, rest, rfl, rfl, rfl⟩ := h
        exact .inr ⟨_, reply, rfl, hopen⟩

open App.Scenario in
/-- The provider has a blank credential, which `Validate` does not mind: the store was opened, and
it is closed. -/
theorem blankCredential_released :
    (started " ").toOption.isSome = false ∧ (startingTrace " ").countP opened = 1 ∧
      Released (startingTrace " ") := by
  have hfailed : (started " ").toOption.isSome = false := by decide +kernel
  have haccounted : Accounted (startingTrace " ") (started " ") :=
    newProduction_accounted (starting_does " ")
  refine ⟨hfailed, by decide +kernel, ?_⟩
  cases hstarted : started " " with
  | ok production =>
    rw [hstarted] at hfailed
    cases hfailed
  | error err =>
    rw [hstarted] at haccounted
    exact haccounted

end Closing

/-! ### What is built fits together -/

section Fitting

variable {H : Hasher} {L : Provider.Library} {W : Webhook.Library}
  {F : Formats} {lookupEnv : String → Option String}
  {pid : Nat} {cfg : Config} {trace : List SetupEvent}

theorem net_does {α : Type} {p : Webhook.Net α} {a : α} (h : (Setup.net p).Does trace a) :
    ∃ events : List Webhook.NetEvent, p.Does events a ∧
      trace = events.map fun event => ⟨.net event.1, event.2⟩ := by
  induction p generalizing trace with
  | ret b =>
    obtain ⟨rfl, rfl⟩ := h
    exact ⟨[], ⟨rfl, rfl⟩, rfl⟩
  | call op next ih =>
    obtain ⟨reply, rest, rfl, h⟩ := h
    obtain ⟨events, hdoes, rfl⟩ := ih reply h
    exact ⟨⟨op, reply⟩ :: events, ⟨reply, events, rfl, hdoes⟩, rfl⟩

/-- A notifier goes by the ID of its destination, and has the client of its package, which neither
follows a redirect nor connects to a private address. -/
def Guarded (destination : DestinationConfig) (notifier : Webhook) : Prop :=
  notifier.name = destination.id ∧ W.parseURL destination.url = some notifier.endpoint ∧
    notifier.allowPrivate = false ∧
    notifier.client = Webhook.safeHTTPClient notifier.endpoint.hostname false

theorem createNotifier_guarded {destination : DestinationConfig} {notifier : Webhook}
    (h : (createNotifier W lookupEnv destination).Does trace (.ok notifier)) :
    Guarded (W := W) destination notifier := by
  unfold createNotifier at h
  split_ifs at h
  · obtain ⟨events, hnew, -⟩ := net_does h
    obtain ⟨endpoint, client, -, -, hbuilt⟩ := Webhook.new_does hnew
    exact ⟨congrArg Webhook.name hbuilt, Webhook.new_guarded rfl hnew⟩
  · cases h.2

theorem buildNotifiers_guarded {destinations : List DestinationConfig} {notifiers : List Webhook}
    (h : (buildNotifiers W lookupEnv destinations).Does trace (.ok notifiers)) :
    List.Forall₂ (Guarded (W := W)) destinations notifiers := by
  induction destinations generalizing trace notifiers with
  | nil =>
    cases h.2
    exact .nil
  | cons destination rest ih =>
    obtain ⟨front, back, built, rfl, hbuilt, h⟩ := does_bind.mp h
    cases built with
    | error err => cases h.2
    | ok notifier =>
      obtain ⟨middle, back, built, rfl, hrest, h⟩ := does_bind.mp h
      cases built with
      | error err => cases h.2
      | ok notifiers =>
        cases h.2
        exact .cons (createNotifier_guarded hbuilt) (ih hrest)

theorem newDispatcher_eq_ok {config : DispatcherConfig} {d : Dispatcher}
    (h : newDispatcher config = .ok d) :
    d.notifiers = config.notifiers ∧ d.clusterID = config.clusterID := by
  unfold newDispatcher at h
  split at h
  · cases h
  split at h
  · cases h
  split at h
  · cases h
  split at h
  · cases h
  · cases h
    exact ⟨rfl, rfl⟩

theorem newResolutionSweeper_eq_ok {clusterID : String} {interval : Duration}
    {sweeper : ResolutionSweeper} (h : newResolutionSweeper clusterID interval = .ok sweeper) :
    sweeper.clusterID = clusterID ∧ sweeper.interval = interval := by
  unfold newResolutionSweeper at h
  split at h
  · cases h
  · cases h
    exact ⟨rfl, rfl⟩

theorem assembleDispatcher_does {notifiers : List Webhook} {dispatcher : Dispatcher}
    {app : RuleRaven.App}
    (h : (assembleDispatcher pid cfg notifiers).Does trace (.ok (dispatcher, app))) :
    ∃ host, newDispatcher (dispatcherConfig pid cfg notifiers host) = .ok dispatcher := by
  obtain ⟨reply, rest, rfl, h⟩ := h
  dsimp only [ret_bind] at h
  cases reply with
  | error err => cases h.2
  | ok host =>
    dsimp only at h
    split_ifs at h
    · cases h.2
    split at h
    · cases h.2
    · rename_i built hbuilt
      split at h
      · cases h.2
      · cases h.2
        exact ⟨host, hbuilt⟩

/-- The parts of what `assemble` returns. -/
theorem assemble_does {production : Production}
    (h : (assemble H L W lookupEnv pid cfg).Does trace (.ok production)) :
    (∃ events, (buildNotifiers W lookupEnv cfg.notifications.destinations).Does events
        (.ok production.notifiers)) ∧
      buildReconciler H L lookupEnv cfg =
        .ok (production.reconciler, production.primary, production.fallback) ∧
      newManager (managerConfig cfg) = .ok production.manager ∧
      newResolutionSweeper cfg.cluster.id (sweepInterval cfg.rules.eventQuietPeriod) =
        .ok production.sweeper ∧
      ∃ host, newDispatcher (dispatcherConfig pid cfg production.notifiers host) =
        .ok production.dispatcher := by
  unfold assemble at h
  split at h
  · cases h.2
  obtain ⟨front, back, built, rfl, hnotifiers, h⟩ := does_bind.mp h
  cases built with
  | error err => cases h.2
  | ok notifiers =>
    dsimp only at h
    split at h
    · cases h.2
    rename_i reconciler primary fallback hreconciler
    split at h
    · cases h.2
    rename_i manager hmanager
    split at h
    · cases h.2
    rename_i sweeper hsweeper
    obtain ⟨middle, back, built, rfl, hdispatcher, h⟩ := does_bind.mp h
    cases built with
    | error err => cases h.2
    | ok parts =>
      obtain ⟨dispatcher, app⟩ := parts
      cases h.2
      exact ⟨⟨front, hnotifiers⟩, hreconciler, hmanager, hsweeper,
        assembleDispatcher_does hdispatcher⟩

/-- Production that is built went through its three parts. -/
theorem newProduction_does {production : Production}
    (h : (newProduction H L W F lookupEnv pid cfg).Does trace (.ok production)) :
    ∃ front middle last, trace = front ++ (middle ++ last) ∧
      (prepare F lookupEnv cfg).Does front (.ok ()) ∧
      (openStore ((lookupEnv cfg.mongo.uriEnv).getD "") cfg.mongo.database
        cfg.mongo.timeout).Does middle (.ok ()) ∧
      (assemble H L W lookupEnv pid cfg).Does last (.ok production) := by
  obtain ⟨front, back, prepared, rfl, hprepared, h⟩ := does_bind.mp h
  cases prepared with
  | error cause => cases h.2
  | ok _ =>
    obtain ⟨middle, back, store, rfl, hstore, h⟩ := does_bind.mp h
    cases store with
    | error err => cases h.2
    | ok _ =>
      obtain ⟨last, back, built, rfl, hbuilt, h⟩ := does_bind.mp h
      cases built with
      | ok production =>
        obtain ⟨rfl, hsame⟩ := h
        cases hsame
        exact ⟨front, middle, last, by simp, hprepared, hstore, hbuilt⟩
      | error cause =>
        obtain ⟨reply, rest, -, -, hresult⟩ := h
        cases hresult

/-- A startup check that was marked. -/
def markOf : SetupEvent → Option Health.Check
  | ⟨.mark check, _⟩ => some check
  | _ => none

/-- The startup checks after what was done. -/
def startChecks (trace : List SetupEvent) : BitVec 32 :=
  (trace.filterMap markOf).foldl (fun checks check => Health.mark check checks) 0#32

/-- A call that marks nothing. -/
def Unmarked : SetupOp → Prop
  | .mark _ => False
  | _ => True

theorem filterMap_markOf_eq_nil (h : ∀ event ∈ trace, Unmarked event.1) :
    trace.filterMap markOf = [] := by
  rw [List.filterMap_eq_nil_iff]
  rintro ⟨op, reply⟩ hevent
  cases op with
  | mark check => exact absurd (h _ hevent) id
  | _ => rfl

theorem prepare_marks (h : (prepare F lookupEnv cfg).Does trace (.ok ())) :
    trace.filterMap markOf = [.configValidated] := by
  obtain ⟨reply, rest, rfl, h⟩ := h
  have hrest : rest.filterMap markOf = [] := by
    refine filterMap_markOf_eq_nil (h.only ?_)
    dsimp only [ret_bind]
    split
    · trivial
    split
    · trivial
    refine only_bind (only_perform trivial) fun reply => ?_
    cases reply with
    | some err => trivial
    | none => exact only_bind (only_perform trivial) fun reply => by cases reply <;> trivial
  rw [List.filterMap_cons, hrest]
  rfl

theorem newStore_unmarked {uri database : String} {timeout : Duration} :
    (newStore uri database timeout).Only Unmarked := by
  unfold newStore
  split
  · trivial
  split_ifs
  · trivial
  all_goals exact only_bind (only_perform trivial) fun reply => by cases reply <;> trivial

theorem storeReady_unmarked : storeReady.Only Unmarked := by
  refine only_bind (only_perform trivial) fun reply => ?_
  cases reply with
  | some err => trivial
  | none => exact only_bind (only_perform trivial) fun reply => by cases reply <;> trivial

theorem openStore_marks {uri database : String} {timeout : Duration}
    (h : (openStore uri database timeout).Does trace (.ok ())) :
    trace.filterMap markOf = [.mongoReady] := by
  obtain ⟨front, back, created, rfl, hcreated, h⟩ := does_bind.mp h
  rw [List.filterMap_append, filterMap_markOf_eq_nil (hcreated.only newStore_unmarked)]
  cases created with
  | error err => cases h.2
  | ok _ =>
    obtain ⟨middle, back, ready, rfl, hready, h⟩ := does_bind.mp h
    rw [List.filterMap_append, filterMap_markOf_eq_nil (hready.only storeReady_unmarked)]
    cases ready with
    | ok _ =>
      obtain ⟨reply, rest, rfl, rfl, -⟩ := h
      rfl
    | error err =>
      obtain ⟨reply, rest, -, -, hresult⟩ := h
      cases hresult

/-- Production that is built has marked what it could. -/
theorem newProduction_marks {production : Production}
    (h : (newProduction H L W F lookupEnv pid cfg).Does trace (.ok production)) :
    trace.filterMap markOf = [.configValidated, .mongoReady] := by
  obtain ⟨front, middle, last, rfl, hprepared, hstore, hbuilt⟩ := newProduction_does h
  rw [List.filterMap_append, List.filterMap_append, prepare_marks hprepared, openStore_marks hstore,
    filterMap_markOf_eq_nil (hbuilt.only (assemble_only (fun _ => trivial) trivial))]
  rfl

theorem buildReconciler_eq_ok {r : Reconciler} {clients : Client × Option Client}
    (h : buildReconciler H L lookupEnv cfg = .ok (r, clients)) :
    r.clusterID = cfg.cluster.id ∧ r.eventQuietPeriod = cfg.rules.eventQuietPeriod ∧
      ∀ id, id ∈ r.destinations ↔ id ∈ cfg.notifications.destinations.map DestinationConfig.id := by
  unfold buildReconciler at h
  split at h
  · cases h
  split at h
  · cases h
  rename_i built hbuilt
  cases h
  refine ⟨(newReconciler_eq_ok hbuilt).1, ?_, fun id => ?_⟩
  · unfold newReconciler at hbuilt
    simp only at hbuilt
    split_ifs at hbuilt
    cases hbuilt
    rfl
  · rw [newReconciler_destinations hbuilt]
    exact (sortSlice_perm _ _).mem_iff

theorem half_toInt {period : Duration} (h : 0 < period) :
    (period / 2).toInt = period.toInt / 2 := by
  rw [Int64.toInt_div_of_ne_right _ _ (by decide)]
  exact Int.tdiv_eq_ediv_of_nonneg (Int64.lt_iff_toInt_lt.mp h).le

/-- At least two sweeps fall into a quiet period. -/
theorem sweepInterval_le {period : Duration} (h : 0 < period) :
    2 * (sweepInterval period).toInt ≤ period.toInt := by
  have hhalf := half_toInt h
  unfold sweepInterval
  split_ifs with hlong
  · have hlong := Int64.lt_iff_toInt_lt.mp hlong
    rw [hhalf] at hlong
    omega
  · rw [hhalf]
    omega

/-- The reconciler addresses what the dispatcher can deliver to, and that is what is configured. -/
structure Equipped (W : Webhook.Library) (cfg : Config) (production : Production) : Prop where
  notifiers : production.dispatcher.notifiers = production.notifiers.map Webhook.name
  destinations : ∀ id, id ∈ production.reconciler.destinations ↔
    id ∈ production.dispatcher.notifiers
  guarded : List.Forall₂ (Guarded (W := W)) cfg.notifications.destinations production.notifiers

/-- The parts of a production agree with each other. -/
structure Fits (W : Webhook.Library) (cfg : Config) (production : Production) : Prop extends
    Equipped W cfg production where
  wired : production.reconciler.Wired
  manager : newManager (managerConfig cfg) = .ok production.manager
  cluster : production.reconciler.clusterID = cfg.cluster.id ∧
    production.sweeper.clusterID = cfg.cluster.id ∧
    production.dispatcher.clusterID = cfg.cluster.id
  interval : 2 * production.sweeper.interval.toInt ≤
    production.reconciler.eventQuietPeriod.toInt

theorem Guarded.names {destinations : List DestinationConfig} {notifiers : List Webhook}
    (h : List.Forall₂ (Guarded (W := W)) destinations notifiers) :
    notifiers.map Webhook.name = destinations.map DestinationConfig.id := by
  induction h with
  | nil => rfl
  | cons hguarded _ ih => rw [List.map_cons, List.map_cons, hguarded.1, ih]

theorem equipped_of_does {production : Production}
    (h : (newProduction H L W F lookupEnv pid cfg).Does trace (.ok production)) :
    Equipped W cfg production := by
  obtain ⟨_, _, _, -, -, -, hassemble⟩ := newProduction_does h
  obtain ⟨⟨_, hnotifiers⟩, hreconciler, -, -, host, hdispatcher⟩ := assemble_does hassemble
  have hnames := (newDispatcher_eq_ok hdispatcher).1
  have hguarded := buildNotifiers_guarded hnotifiers
  refine ⟨hnames, fun id => ?_, hguarded⟩
  rw [(buildReconciler_eq_ok hreconciler).2.2, hnames]
  exact (congrArg (id ∈ ·) (Guarded.names hguarded)).symm.to_iff

/-- Whatever the surroundings answer, the parts that `NewProduction` puts together fit. -/
theorem newProduction_fits {production : Production}
    (h : (newProduction H L W F lookupEnv pid cfg).Does trace (.ok production)) :
    Fits W cfg production := by
  obtain ⟨_, _, _, -, -, -, hassemble⟩ := newProduction_does h
  obtain ⟨-, hreconciler, hmanager, hsweeper, host, hdispatcher⟩ := assemble_does hassemble
  obtain ⟨hcluster, hperiod, -⟩ := buildReconciler_eq_ok hreconciler
  obtain ⟨hswept, hinterval⟩ := newResolutionSweeper_eq_ok hsweeper
  refine ⟨equipped_of_does h, (buildReconciler_wired hreconciler).1, hmanager,
    ⟨hcluster, hswept, (newDispatcher_eq_ok hdispatcher).2⟩, ?_⟩
  rw [hinterval, hperiod]
  exact sweepInterval_le (hperiod ▸ production.reconciler.eventQuietPeriod_pos)

open App.Scenario in
/-- A process with one destination, its notifier, and a sweep every minute. -/
theorem built_fits :
    Fits hooksLibrary hooked built ∧ built.dispatcher.notifiers = ["hook"] ∧
      built.sweeper.interval = 60000000000 := by
  have hfits := newProduction_fits built_does
  exact ⟨hfits, by decide +kernel, by decide +kernel⟩

end Fitting

/-! ### Replicas -/

section Replicas

variable (H : Hasher) (L : Provider.Library) (W : Webhook.Library)
  (F : Formats) (cfg : Config)

/-- What a process may have built from the configuration, whatever surrounds it. -/
def Replica (production : Production) : Prop :=
  ∃ lookupEnv pid trace, (newProduction H L W F lookupEnv pid cfg).Does
    trace (.ok production)

/-- The workers of any number of replicas. -/
def replicaTasks {ι : Type} (_ : ι) : Task → Prop
  | .reconcile r _ => ∃ production, Replica H L W F cfg production ∧
    production.reconciler = r
  | .dispatch d => ∃ production, Replica H L W F cfg production ∧
    production.dispatcher = d

variable {H L W F cfg}

theorem chronicled_addressed {ι : Type} {tasks : ι → Task → Prop} {w : World ι}
    (hw : Chronicled H tasks w) {delivery : Delivery} (hmem : delivery ∈ w.store.outbox.rows) :
    ∃ i r key, tasks i (.reconcile r key) ∧ delivery.destinationID ∈ r.destinations := by
  obtain ⟨request, hrequest, brought, hbrought, hslot⟩ := hw.row hmem
  obtain ⟨i, r, key, htask, hissued⟩ := hw.issued request hrequest
  obtain ⟨eventType, hrows⟩ := hissued.rows
  have hrow := List.mem_map_of_mem (f := Delivery.slot) hbrought
  rw [hrows, hslot] at hrow
  split_ifs at hrow
  · obtain ⟨destination, hdestination, heq⟩ := List.mem_map.mp hrow
    simp only [Delivery.slot, Delivery.eventKey, Prod.mk.injEq] at heq
    exact ⟨i, r, key, htask, heq.2.2.1 ▸ hdestination⟩
  · cases hrow

theorem Guarded.exists {destinations : List DestinationConfig} {notifiers : List Webhook}
    (h : List.Forall₂ (Guarded (W := W)) destinations notifiers) {destination : DestinationConfig}
    (hmem : destination ∈ destinations) :
    ∃ notifier ∈ notifiers, Guarded (W := W) destination notifier := by
  induction h with
  | nil => cases hmem
  | cons hguarded _ ih =>
    rcases List.mem_cons.mp hmem with rfl | hmem
    · exact ⟨_, List.mem_cons_self, hguarded⟩
    · obtain ⟨notifier, hin, hguarded⟩ := ih hmem
      exact ⟨notifier, List.mem_cons_of_mem _ hin, hguarded⟩

/-- A configured destination has one notifier, and no other goes by its name. -/
theorem Equipped.notifier {production : Production} (h : Equipped W cfg production) {id : String}
    (hid : id ∈ production.dispatcher.notifiers) :
    ∃ destination ∈ cfg.notifications.destinations, destination.id = id ∧
      ∃ notifier ∈ production.notifiers, Guarded (W := W) destination notifier ∧
        ∀ other ∈ production.notifiers, other.name = id → other = notifier := by
  have hnodup := production.dispatcher.notifiers_nodup
  rw [h.notifiers] at hnodup
  rw [h.notifiers, Guarded.names h.guarded] at hid
  obtain ⟨destination, hmem, rfl⟩ := List.mem_map.mp hid
  obtain ⟨notifier, hin, hguarded⟩ := Guarded.exists h.guarded hmem
  exact ⟨destination, hmem, rfl, notifier, hin, hguarded, fun other hother hname =>
    List.inj_on_of_nodup_map hnodup hother hin (hname.trans hguarded.1.symm)⟩

/-- Whichever replicas write and whichever deliver, whatever fails and whoever crashes: every
delivery is addressed to a configured destination, and every replica has exactly one notifier for
it, with the URL of that destination and a client that keeps to public addresses. -/
theorem deliveries_addressed {ι : Type} {t : Time}
    {c : Framework.Config ι Op Op.Reply Unit (World ι)}
    (hrun : Runs H (replicaTasks H L W F cfg) (fun _ _ _ => True)
      (initial ι t) c)
    {delivery : Delivery} (hmem : delivery ∈ c.state.store.outbox.rows)
    {production : Production} (hreplica : Replica H L W F cfg production) :
    delivery.destinationID ∈ production.dispatcher.notifiers ∧
      ∃ destination ∈ cfg.notifications.destinations,
        destination.id = delivery.destinationID ∧
        ∃ notifier ∈ production.notifiers, Guarded (W := W) destination notifier ∧
          ∀ other ∈ production.notifiers, other.name = delivery.destinationID →
            other = notifier := by
  obtain ⟨lookupEnv, pid, trace, hdoes⟩ := hreplica
  have hequipped := equipped_of_does hdoes
  obtain ⟨i, r, key, ⟨writer, ⟨_, _, _, hwriter⟩, rfl⟩, haddressed⟩ :=
    chronicled_addressed (runs_chronicled hrun) hmem
  -- both replicas take their destinations from the one configuration
  have hwritten := equipped_of_does hwriter
  have hid : delivery.destinationID ∈ production.dispatcher.notifiers := by
    rw [hwritten.destinations, hwritten.notifiers, Guarded.names hwritten.guarded] at haddressed
    rwa [hequipped.notifiers, Guarded.names hequipped.guarded]
  exact ⟨hid, hequipped.notifier hid⟩

end Replicas

section Example

open App.Scenario Controller.Scenario

/-- Any number of replicas of the process. -/
def hookTasks : Nat → Task → Prop :=
  replicaTasks checksumHasher providers hooksLibrary hookFormats hooked

/-- One of them reconciles the job. -/
def reconciling : Crew :=
  ⟨{ clock := noon }, [(0, (Task.reconcile built.reconciler (jobCall 0 1).key).prog
    checksumHasher)]⟩

theorem built_replica :
    Replica checksumHasher providers hooksLibrary hookFormats hooked built :=
  ⟨_, _, _, built_does⟩

theorem reconciling_runs :
    Runs checksumHasher hookTasks (fun _ _ _ => True) (initial Nat noon) reconciling := by
  have htask : hookTasks 0 (.reconcile built.reconciler (jobCall 0 1).key) :=
    ⟨built, built_replica, rfl⟩
  exact .single (.start _ _ _ _ ⟨⟨_, htask, rfl⟩, by simp, by simp⟩ (by simp))

open Classical in
/-- The failure of a job is told to the hook, for which every replica has its notifier. -/
theorem failure_addressed :
    ∃ (c : Crew) (delivery : Delivery),
      Runs checksumHasher hookTasks (fun _ _ _ => True) (initial Nat noon) c ∧
      delivery ∈ c.state.store.outbox.rows ∧ delivery.destinationID = "hook" ∧
      ∃ notifier ∈ built.notifiers, Guarded (W := hooksLibrary) hook notifier := by
  have hfacts : (Turn.play checksumHasher hookTasks (fun _ _ _ => true)
      (.calls 0 20 (jobCall 0 1).env none) reconciling).any (fun c =>
        c.state.store.outbox.rows.any fun delivery => delivery.destinationID == "hook") = true := by
    decide +kernel
  obtain ⟨c, hplay, hrows⟩ := (Option.any_eq_true _ _).mp hfacts
  obtain ⟨delivery, hmem, hhook⟩ := List.any_eq_true.mp hrows
  have hrun := reconciling_runs.trans
    (steps_restrict_mono (fun _ _ _ _ => trivial) (runs_of_turn hplay))
  obtain ⟨-, destination, hdestination, -, notifier, hin, hguarded, -⟩ :=
    deliveries_addressed hrun hmem built_replica
  cases List.mem_singleton.mp hdestination
  exact ⟨c, delivery, hrun, hmem, beq_iff_eq.mp hhook, notifier, hin, hguarded⟩

end Example

end RuleRaven.App
