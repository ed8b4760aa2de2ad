import RuleRaven.App.Lifecycle
import RuleRaven.App.Production
import RuleRaven.Controller.Sweeper
import RuleRaven.Health.Readiness
import RuleRaven.Notify.Dispatcher
import RuleRaven.Notify.Webhook
import RuleRaven.Store.Indexes

namespace RuleRaven.App

open Framework Kube Controller Provider Notify

/-- What `NewProduction` asks of its surroundings. -/
inductive SetupOp where
  /-- `MarkConfigValidated` and `MarkMongoReady`. -/
  | mark (check : Health.Check)
  | loadRESTConfig
  | newForConfig
  | connect (uri database : String) (timeout : Duration)
  | ping
  /-- `ensureIndexes`. -/
  | ensureIndexes
  | disconnect
  | net (op : Webhook.NetOp)
  | hostname

/-- An error, if there is one, of what returns nothing else that is looked at. -/
abbrev SetupOp.Reply : SetupOp → Type
  | .mark _ => Unit
  | .loadRESTConfig => Option Err
  | .newForConfig => Option Err
  | .connect _ _ _ => Option Err
  | .ping => Option Err
  | .ensureIndexes => Except Mongo.IndexError Unit
  | .disconnect => Option Err
  | .net op => op.Reply
  | .hostname => Except Err String

abbrev Setup := Prog SetupOp SetupOp.Reply

abbrev SetupEvent := Sigma SetupOp.Reply

namespace Setup

def mark (check : Health.Check) : Setup Unit := Prog.perform (SetupOp.mark check)

def loadRESTConfig : Setup (Option Err) := Prog.perform SetupOp.loadRESTConfig

def newForConfig : Setup (Option Err) := Prog.perform SetupOp.newForConfig

def connect (uri database : String) (timeout : Duration) : Setup (Option Err) :=
  Prog.perform (SetupOp.connect uri database timeout)

def ping : Setup (Option Err) := Prog.perform SetupOp.ping

def ensureIndexes : Setup (Except Mongo.IndexError Unit) := Prog.perform SetupOp.ensureIndexes

def disconnect : Setup (Option Err) := Prog.perform SetupOp.disconnect

def hostname : Setup (Except Err String) := Prog.perform SetupOp.hostname

/-- What a notifier asks while it is built. -/
def net {α : Type} (p : Webhook.Net α) : Setup α :=
  Prog.interpret (fun op => Prog.perform (SetupOp.net op)) p

end Setup

section Store

/-- Why the store could not be initialized. -/
inductive MongoError where
  | config (err : ConfigError)
  | connect (err : Err)
  | ping (err : Err)
  | indexes (err : Mongo.IndexError)

/-- The pattern `^[A-Za-z0-9_-]+$`. -/
def safeDatabaseName (database : String) : Bool :=
  !(chars database).isEmpty &&
    (chars database).all fun c => c.isAlphanum || c == '_' || c == '-'

def validateDatabase (database : String) : Except ConfigError Unit :=
  let trimmed := trimSpace database
  if trimmed = "" then .error (.text "MongoDB database is required")
  else if toLower trimmed ∈ administrativeDatabases then
    .error (.quoted "MongoDB database " database " is administrative")
  else if trimmed ≠ database ∨ safeDatabaseName database = false then
    .error (.quoted "MongoDB database " database " contains unsafe characters")
  else .ok ()

/-- `New` of the store. -/
def newStore (uri database : String) (connectTimeout : Duration) :
    Setup (Except MongoError Unit) :=
  match validateDatabase database with
  | .error err => pure (.error (.config err))
  | .ok () =>
    if isBlank uri then pure (.error (.config (.text "mongo URI is required")))
    else do
      match ← Setup.connect uri database
          (if connectTimeout ≤ 0 then 10000000000 else connectTimeout) with
      | some err => pure (.error (.connect err))
      | none => pure (.ok ())

/-- `Ready` of the store. -/
def storeReady : Setup (Except MongoError Unit) := do
  match ← Setup.ping with
  | some err => pure (.error (.ping err))
  | none =>
    match ← Setup.ensureIndexes with
    | .error err => pure (.error (.indexes err))
    | .ok () => pure (.ok ())

/-- The store is closed again if it is not ready; what closing it returns is dropped. That it is
ready is marked. -/
def openStore (uri database : String) (timeout : Duration) : Setup (Except MongoError Unit) := do
  match ← newStore uri database timeout with
  | .error err => pure (.error err)
  | .ok () =>
    match ← storeReady with
    | .ok () => do
      Setup.mark .mongoReady
      pure (.ok ())
    | .error err => do
      let _ ← Setup.disconnect
      pure (.error err)

end Store

/-- Why `NewProduction` fails. -/
inductive BuildError where
  | config (err : ConfigError)
  | kubernetes (err : Err)
  | store (err : MongoError)
  | component (err : Err)
  | destination (id err : String)
  | hostname (err : Err)

/-- With what closing the store returned, where it was closed on the way. -/
structure AssemblyError where
  cause : BuildError
  closing : Option Err := none

/-- What `NewProduction` puts together. -/
structure Production where
  reconciler : Reconciler
  primary : Client
  fallback : Option Client
  notifiers : List Webhook
  manager : Manager
  sweeper : ResolutionSweeper
  dispatcher : Dispatcher
  app : App

def newLogger (level : String) : Except ConfigError Unit :=
  if toLower (trimSpace level) ∈ ["debug", "info", "", "warn", "error"] then .ok ()
  else .error (.quoted "unsupported logging level " level "")

/-- The types of the registries of production. -/
def registeredProviders : List String :=
  ["anthropic", "openai", "openai-compatible", "openrouter", "typesafe"]

def registeredNotifiers : List String := ["webhook"]

def sweepInterval (eventQuietPeriod : Duration) : Duration :=
  if 60000000000 < eventQuietPeriod / 2 then 60000000000 else eventQuietPeriod / 2

section Assembly

variable (H : Hasher) (L : Provider.Library) (W : Webhook.Library)
  (F : Formats) (lookupEnv : String → Option String) (pid : Nat)

/-- What `Validate` is given by production. -/
def configOptions : Options where
  toFormats := F
  lookupEnv := some lookupEnv
  providerTypes := registeredProviders
  notifierTypes := registeredNotifiers

def notifierConfig (destination : DestinationConfig) : Webhook.FactoryConfig where
  destinationID := destination.id
  endpoint := destination.url
  secret := utf8Bytes ((lookupEnv destination.credentialEnv).getD "")
  timeout := destination.timeout
  maxResponseBytes := Int64.ofInt destination.maxResponseBytes
  maxRetryAfter := destination.maxRetryAfter
  allowInsecureHTTP := destination.allowInsecureHTTP

/-- `Create` of the notifier registry. -/
def createNotifier (destination : DestinationConfig) : Setup (Except String Webhook) :=
  if destination.type ∈ registeredNotifiers then
    Setup.net (Webhook.new W (notifierConfig lookupEnv destination))
  else pure (.error ("notifier type is not registered: \"" ++ destination.type ++ "\""))

def buildNotifiers : List DestinationConfig → Setup (Except BuildError (List Webhook))
  | [] => pure (.ok [])
  | destination :: rest => do
    match ← createNotifier W lookupEnv destination with
    | .error err => pure (.error (.destination destination.id err))
    | .ok notifier =>
      match ← buildNotifiers rest with
      | .error err => pure (.error err)
      | .ok notifiers => pure (.ok (notifier :: notifiers))

def managerConfig (cfg : Config) : ManagerConfig where
  namespaces := cfg.cluster.watchNamespaces
  resources := cfg.cluster.resources
  workers := cfg.controller.workers

def dispatcherConfig (cfg : Config) (notifiers : List Webhook) (host : String) :
    DispatcherConfig where
  notifiers := notifiers.map Webhook.name
  workerID := host ++ "-" ++ toString pid
  workers := cfg.controller.workers
  clusterID := cfg.cluster.id
  leaseDuration := 30000000000
  maxAttempts := cfg.notifications.retry.maxAttempts
  initialBackoff := cfg.notifications.retry.initialBackoff
  maxBackoff := cfg.notifications.retry.maxBackoff

/-- The dispatcher, and the application over the four runners and the store. -/
def assembleDispatcher (cfg : Config) (notifiers : List Webhook) :
    Setup (Except BuildError (Dispatcher × App)) := do
  match ← Setup.hostname with
  | .error err => pure (.error (.hostname err))
  | .ok host =>
    if isBlank host then pure (.error (.hostname ⟨"empty hostname", none⟩))
    else match newDispatcher (dispatcherConfig pid cfg notifiers host) with
      | .error err => pure (.error (.component err))
      | .ok dispatcher =>
        match App.new 4 1 30000000000 with
        | .error err => pure (.error (.component err))
        | .ok app => pure (.ok (dispatcher, app))

/-- The part of `NewProduction` after which the store is closed on an error. -/
def assemble (cfg : Config) : Setup (Except BuildError Production) :=
  match buildProviders H L lookupEnv cfg.decision with
  | .error err => pure (.error (.component err))
  | .ok _ => do
    match ← buildNotifiers W lookupEnv cfg.notifications.destinations with
    | .error err => pure (.error err)
    | .ok notifiers =>
      match buildReconciler H L lookupEnv cfg with
      | .error err => pure (.error (.component err))
      | .ok (reconciler, primary, fallback) =>
        match newManager (managerConfig cfg) with
        | .error err => pure (.error (.component err))
        | .ok manager =>
          match newResolutionSweeper cfg.cluster.id
              (sweepInterval cfg.rules.eventQuietPeriod) with
          | .error err => pure (.error (.component err))
          | .ok sweeper =>
            match ← assembleDispatcher pid cfg notifiers with
            | .error err => pure (.error err)
            | .ok (dispatcher, app) => pure (.ok
              { reconciler := reconciler, primary := primary, fallback := fallback,
                notifiers := notifiers, manager := manager, sweeper := sweeper,
                dispatcher := dispatcher, app := app })

/-- What comes before the store. The mark for the configuration is made before `Validate` has
looked at it. -/
def prepare (cfg : Config) : Setup (Except BuildError Unit) := do
  Setup.mark .configValidated
  match validate (configOptions F lookupEnv) cfg with
  | .error err => pure (.error (.config err))
  | .ok () =>
    match newLogger cfg.loggingLevel with
    | .error err => pure (.error (.config err))
    | .ok () => do
      match ← Setup.loadRESTConfig with
      | some err => pure (.error (.kubernetes err))
      | none =>
        match ← Setup.newForConfig with
        | some err => pure (.error (.kubernetes (err.wrap "create Kubernetes client")))
        | none => pure (.ok ())

/-- `NewProduction`. -/
def newProduction (cfg : Config) : Setup (Except AssemblyError Production) := do
  match ← prepare F lookupEnv cfg with
  | .error cause => pure (.error ⟨cause, none⟩)
  | .ok () =>
    match ← openStore ((lookupEnv cfg.mongo.uriEnv).getD "") cfg.mongo.database
        cfg.mongo.timeout with
    | .error err => pure (.error ⟨.store err, none⟩)
    | .ok () =>
      match ← assemble H L W lookupEnv pid cfg with
      | .ok production => pure (.ok production)
      | .error cause => do
        let closing ← Setup.disconnect
        pure (.error ⟨cause, closing⟩)

end Assembly

end RuleRaven.App
