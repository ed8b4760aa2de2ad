import RuleRaven.Basic
import RuleRaven.Framework.StrMap
import RuleRaven.Kube.Redactor

namespace RuleRaven.App

open Framework

def versionV1Alpha1 : String := "v1alpha1"

structure ClusterConfig where
  id : String
  clusterWide : Bool := false
  namespaceOnly : Bool := false
  watchNamespaces : List String := []
  resources : List String

structure ControllerConfig where
  workers : Int
  reconcileTimeout : Duration
  maxNormalizedStateBytes : Int

structure MongoConfig where
  uriEnv : String
  database : String
  timeout : Duration

structure RulesConfig where
  crashLoopRestartThreshold : Int
  crashLoopCriticalThreshold : Int
  minimumAge : Duration
  eventQuietPeriod : Duration
  ignoredNamespaces : List String := []
  ignoredLabels : List String := []

structure ProviderConfig where
  type : String
  model : String
  credentialEnv : String
  endpoint : String := ""
  strictMode : String := ""

structure DecisionConfig where
  primary : ProviderConfig
  fallback : Option ProviderConfig := none
  timeout : Duration

structure DestinationConfig where
  id : String
  type : String
  url : String
  credentialEnv : String
  allowInsecureHTTP : Bool := false
  timeout : Duration
  maxResponseBytes : Int
  maxRetryAfter : Duration

structure RetryConfig where
  maxAttempts : Int
  initialBackoff : Duration
  maxBackoff : Duration

structure NotificationsConfig where
  destinations : List DestinationConfig := []
  retry : RetryConfig

structure HTTPConfig where
  readTimeout : Duration
  writeTimeout : Duration
  idleTimeout : Duration

structure Config where
  version : String
  cluster : ClusterConfig
  controller : ControllerConfig
  mongo : MongoConfig
  rules : RulesConfig
  decision : DecisionConfig
  notifications : NotificationsConfig
  http : HTTPConfig
  loggingLevel : String

/-- What `url.Parse` and `url.ParseRequestURI` tell of a text they accept. -/
structure ParsedURL where
  scheme : String
  host : String
  user : Bool := false
  rawQuery : String := ""
  fragment : String := ""

/-- How others read texts of the configuration: the URL parsers, and the rules of Kubernetes for
the two parts of a selector, neither of which lets an equals sign through. -/
structure Formats where
  parseURL : String → Option ParsedURL
  parseRequestURI : String → Option ParsedURL
  /-- `validation.IsQualifiedName` finds no problem. -/
  isQualifiedName : String → Bool
  /-- `validation.IsValidLabelValue` finds no problem. -/
  isValidLabelValue : String → Bool
  qualifiedName_plain : ∀ value, isQualifiedName value = true → '=' ∉ value.toList
  labelValue_plain : ∀ value, isValidLabelValue value = true → '=' ∉ value.toList

/-- What `Validate` is given: the environment and the registered types. -/
structure Options extends Formats where
  lookupEnv : Option (String → Option String)
  providerTypes : List String
  notifierTypes : List String

/-- A message, with the value that `%q` puts into it where it has one. -/
inductive ConfigError where
  | text (message : String)
  | quoted (front value back : String)
  deriving DecidableEq, Repr

/-- A check that fails under its condition. -/
def reject (condition : Prop) [Decidable condition] (err : ConfigError) :
    Except ConfigError Unit :=
  if condition then .error err else .ok ()

/-- The first check that fails. -/
def firstError : List (Except ConfigError Unit) → Except ConfigError Unit
  | [] => .ok ()
  | .error err :: _ => .error err
  | .ok () :: checks => firstError checks

def administrativeDatabases : List String := ["admin", "local", "config"]

def supportedKubernetesResources : List String :=
  ["pods", "events", "deployments", "statefulsets", "daemonsets", "jobs"]

def validateNamespaces : List String → List String → Except ConfigError Unit
  | _, [] => .ok ()
  | seen, watched :: rest =>
    let ns := trimSpace watched
    if ns = "" then .error (.text "cluster.watchNamespaces must not contain empty values")
    else if ns ∈ seen then .error (.quoted "duplicate watch namespace " ns "")
    else validateNamespaces (ns :: seen) rest

def validateResources : List String → List String → Except ConfigError Unit
  | _, [] => .ok ()
  | seen, watched :: rest =>
    let resource := toLower (trimSpace watched)
    if resource = "secret" ∨ resource = "secrets" then
      .error (.text "watching Secret resources is forbidden")
    else if resource ∉ supportedKubernetesResources then
      .error (.quoted "unsupported Kubernetes resource " resource "")
    else if resource ∈ seen then .error (.quoted "duplicate Kubernetes resource " resource "")
    else validateResources (resource :: seen) rest

/-- One selector of `rules.ignoredLabels`. -/
def validateSelector (F : Formats) (selector : String) : Except ConfigError Unit :=
  let (key, value, hasValue) := cut selector '='
  firstError
    [reject (selector ≠ trimSpace selector)
        (.quoted "rules.ignoredLabels contains whitespace-padded selector " selector ""),
      reject (F.isQualifiedName key = false)
        (.quoted "rules.ignoredLabels contains invalid selector " selector ""),
      reject (hasValue = true ∧ F.isValidLabelValue value = false)
        (.quoted "rules.ignoredLabels contains invalid selector " selector "")]

def validateDestinationIDs : List String → List DestinationConfig → Except ConfigError Unit
  | _, [] => .ok ()
  | seen, destination :: rest =>
    if destination.id = "" then .error (.text "notification destination id is required")
    else if destination.id ∈ seen then
      .error (.quoted "duplicate destination id " destination.id "")
    else validateDestinationIDs (destination.id :: seen) rest

section Validate

variable (options : Options)

def requireEnvironment (name field : String) : Except ConfigError Unit :=
  if isBlank name then .error (.text (field ++ " is required"))
  else match options.lookupEnv with
    | none => .error (.text "environment lookup is required")
    | some lookup =>
      if (lookup name).getD "" = "" then
        .error (.quoted "referenced environment variable " name " is not set")
      else .ok ()

def validateProvider (provider : ProviderConfig) (role : String) : Except ConfigError Unit :=
  firstError
    [reject (provider.type ∉ options.providerTypes)
        (.quoted (role ++ " provider type ") provider.type " is not registered"),
      reject (isBlank provider.model = true) (.text (role ++ " provider model is required")),
      if provider.type = "openai-compatible" then
        firstError
          [reject (!(options.parseURL (trimSpace provider.endpoint)).any fun endpoint =>
              endpoint.scheme == "https" && endpoint.host != "" && !endpoint.user &&
                endpoint.rawQuery == "" && endpoint.fragment == "")
              (.text (role ++
                " openai-compatible provider endpoint must be an absolute HTTPS URL " ++
                "without credentials, query, or fragment")),
            reject (provider.strictMode ≠ "json_schema" ∧ provider.strictMode ≠ "forced_tool")
              (.text (role ++
                " openai-compatible provider strictMode must be json_schema or forced_tool"))]
      else reject (isBlank provider.endpoint = false ∨ isBlank provider.strictMode = false)
        (.text (role ++ " native provider must not override endpoint or strictMode")),
      requireEnvironment options provider.credentialEnv (role ++ " provider credentialEnv")]

def validateFallback (decision : DecisionConfig) : Except ConfigError Unit :=
  match decision.fallback with
  | none => .ok ()
  | some fallback => firstError
    [reject (fallback.type = decision.primary.type)
        (.text "decision fallback provider must differ from primary"),
      validateProvider options fallback "fallback"]

def validateDestination (destination : DestinationConfig) : Except ConfigError Unit :=
  let parsed := options.parseRequestURI destination.url
  let scheme := (parsed.map ParsedURL.scheme).getD ""
  firstError
    [reject (destination.type ∉ options.notifierTypes)
        (.quoted "notifier type " destination.type " is not registered"),
      reject ((parsed.map ParsedURL.host).getD "" = "")
        (.quoted "destination " destination.id " has invalid URL"),
      reject (scheme = "http" ∧ destination.allowInsecureHTTP = false)
        (.quoted "destination " destination.id " requires allowInsecureHTTP: true"),
      reject (scheme ≠ "https" ∧ scheme ≠ "http")
        (.quoted "destination " destination.id " URL must use HTTP or HTTPS"),
      requireEnvironment options destination.credentialEnv "destination credentialEnv",
      reject (destination.timeout ≤ 0) (.text "destination timeout must be positive"),
      reject (destination.maxResponseBytes ≤ 0)
        (.text "destination maxResponseBytes must be positive"),
      reject (destination.maxRetryAfter ≤ 0) (.text "destination maxRetryAfter must be positive")]

/-- `Validate`. -/
def validate (cfg : Config) : Except ConfigError Unit :=
  firstError
    [reject (cfg.version ≠ versionV1Alpha1) (.quoted "unsupported config version " cfg.version ""),
      reject (toLower (trimSpace cfg.loggingLevel) ∉ ["debug", "info", "warn", "error"])
        (.text "logging.level must be one of debug, info, warn, or error"),
      reject (isBlank cfg.cluster.id = true) (.text "cluster.id is required"),
      reject (cfg.cluster.clusterWide = true ∧ cfg.cluster.namespaceOnly = true)
        (.text "cluster.namespaceOnly cannot be true with clusterWide"),
      reject (cfg.cluster.clusterWide = false ∧ cfg.cluster.watchNamespaces = [])
        (.text "cluster.watchNamespaces is required unless clusterWide is true"),
      validateNamespaces [] cfg.cluster.watchNamespaces,
      reject (cfg.cluster.resources = [])
        (.text "cluster.resources must contain at least one supported resource"),
      validateResources [] cfg.cluster.resources,
      reject (cfg.controller.workers ≤ 0) (.text "controller.workers must be positive"),
      reject (cfg.controller.reconcileTimeout ≤ 0)
        (.text "controller.reconcileTimeout must be positive"),
      reject (cfg.controller.maxNormalizedStateBytes ≤ 0)
        (.text "controller.maxNormalizedStateBytes must be positive"),
      reject (isBlank cfg.mongo.database = true)
        (.text "mongo.database is required and cannot be empty"),
      reject (toLower cfg.mongo.database ∈ administrativeDatabases)
        (.quoted "mongo.database " cfg.mongo.database " is administrative"),
      reject (cfg.mongo.timeout ≤ 0) (.text "mongo.timeout must be positive"),
      requireEnvironment options cfg.mongo.uriEnv "mongo.uriEnv",
      validateProvider options cfg.decision.primary "primary",
      validateFallback options cfg.decision,
      reject (cfg.decision.timeout ≤ 0) (.text "decision.timeout must be positive"),
      reject (cfg.rules.crashLoopRestartThreshold ≤ 0 ∨
          cfg.rules.crashLoopCriticalThreshold < cfg.rules.crashLoopRestartThreshold)
        (.text "rules crash-loop thresholds are invalid"),
      reject (cfg.rules.minimumAge ≤ 0 ∨ cfg.rules.eventQuietPeriod ≤ 0)
        (.text "rules durations must be positive"),
      firstError (cfg.rules.ignoredLabels.map (validateSelector options.toFormats)),
      validateDestinationIDs [] cfg.notifications.destinations,
      firstError (cfg.notifications.destinations.map (validateDestination options)),
      reject (cfg.notifications.retry.maxAttempts ≤ 0)
        (.text "notifications.retry.maxAttempts must be positive"),
      reject (cfg.notifications.retry.initialBackoff ≤ 0)
        (.text "notifications.retry.initialBackoff must be positive"),
      reject (cfg.notifications.retry.maxBackoff < cfg.notifications.retry.initialBackoff)
        (.text "notifications.retry.maxBackoff must be at least initialBackoff"),
      reject (cfg.http.readTimeout ≤ 0 ∨ cfg.http.writeTimeout ≤ 0 ∨ cfg.http.idleTimeout ≤ 0)
        (.text "http timeouts must be positive")]

end Validate

section Accepted

theorem firstError_ok {checks : List (Except ConfigError Unit)} (h : firstError checks = .ok ()) :
    ∀ check ∈ checks, check = .ok () := by
  induction checks with
  | nil => simp
  | cons check checks ih =>
    cases check with
    | error err => cases h
    | ok _ =>
      intro other hother
      rcases List.mem_cons.mp hother with rfl | hother
      · rfl
      · exact ih h other hother

theorem reject_ok {condition : Prop} [Decidable condition] {err : ConfigError}
    (h : reject condition err = .ok ()) : ¬condition := by
  intro hcondition
  rw [reject, if_pos hcondition] at h
  cases h

/-- The labels that a selector asks for: one with its key, and of its value where it names
one. -/
inductive Selects (labels : StrMap String) : (selector key : String) → Prop
  | key {key value : String} (hplain : '=' ∉ key.toList) (h : labels.lookup key = some value) :
      Selects labels key key
  | pair {key value : String} (h : labels.lookup key = some value) :
      Selects labels (key ++ "=" ++ value) key

/-- A pair without a second sign is split in one way. -/
theorem pair_inj {key actual name value : String} (hname : '=' ∉ name.toList)
    (hvalue : '=' ∉ value.toList)
    (h : key ++ "=" ++ actual = name ++ String.ofList ['='] ++ value) :
    key = name ∧ actual = value := by
  rw [← String.toList_inj] at h
  simp only [String.toList_append, String.toList_ofList, List.append_assoc] at h
  have hkey : '=' ∉ key.toList := by
    have hcount := congrArg (List.count '=') h
    simp only [List.count_append, List.count_eq_zero_of_not_mem hname,
      List.count_eq_zero_of_not_mem hvalue] at hcount
    have hone : List.count '=' "=".toList = 1 := by decide
    have hsep : List.count '=' ['='] = 1 := by decide
    rw [← List.count_eq_zero]
    omega
  obtain ⟨hkeys, hvalues⟩ := separated_cancel hkey hname h
  exact ⟨String.toList_inj.mp hkeys, String.toList_inj.mp hvalues⟩

/-- A selector that is accepted is read in one way. -/
theorem selects_iff {F : Formats} {selector : String} (h : validateSelector F selector = .ok ())
    {labels : StrMap String} {key : String} :
    Selects labels selector key ↔ (cut selector '=').1 = key ∧
      ∃ actual, labels.lookup key = some actual ∧
        ((cut selector '=').2.2 = true → actual = (cut selector '=').2.1) := by
  rcases hcut : cut selector '=' with ⟨name, value, found⟩
  simp only [validateSelector, hcut] at h
  have hchecks := firstError_ok h
  have hname : F.isQualifiedName name = true := by
    simpa using reject_ok (hchecks _ (List.mem_cons_of_mem _ List.mem_cons_self))
  have hvalue : found = true → F.isValidLabelValue value = true := by
    intro hfound
    have hcheck := reject_ok (hchecks _ (List.mem_cons_of_mem _
      (List.mem_cons_of_mem _ List.mem_cons_self)))
    simpa [hfound] using hcheck
  have hplain := F.qualifiedName_plain name hname
  obtain ⟨-, hselector⟩ := cut_eq hcut
  constructor
  · intro hselects
    cases hselects with
    | key hkey hlookup =>
      cases found with
      | false => exact ⟨hselector.symm, _, hlookup, fun h => by cases h⟩
      | true =>
        rw [if_pos rfl] at hselector
        rw [hselector] at hkey
        simp at hkey
    | @pair _ actual hlookup =>
      have hfound : found = true := by
        by_contra hnone
        rw [if_neg hnone] at hselector
        rw [← hselector] at hplain
        simp at hplain
      rw [if_pos hfound] at hselector
      obtain ⟨hkey, hactual⟩ :=
        pair_inj hplain (F.labelValue_plain value (hvalue hfound)) hselector
      exact ⟨hkey.symm, actual, hlookup, fun _ => hactual⟩
  · intro hread
    obtain ⟨hkey, actual, hlookup, hactual⟩ := hread
    subst hkey
    cases found with
    | false =>
      rw [if_neg (by decide)] at hselector
      rw [hselector]
      exact .key hplain hlookup
    | true =>
      rw [if_pos rfl] at hselector
      rw [hselector]
      rw [hactual rfl] at hlookup
      exact .pair hlookup

end Accepted

/-! ### The rules of selectors, as far as their characters go -/

namespace Selector

/-- Characters of one class, those of another at both ends, and at least one. -/
def enclosed (ends inner : Char → Bool) (name : List Char) : Bool :=
  name.head?.any ends && name.getLast?.any ends && name.all inner

def isNameChar (c : Char) : Bool := c.isAlphanum || c == '-' || c == '_' || c == '.'

def isDNSEnd (c : Char) : Bool := c.isLower || c.isDigit

/-- The name part of a label key: `([A-Za-z0-9][-A-Za-z0-9_.]*)?[A-Za-z0-9]` in 63 bytes. -/
def isNamePart (name : List Char) : Bool :=
  name.length ≤ 63 && enclosed Char.isAlphanum isNameChar name

def isDNS1123Subdomain (value : List Char) : Bool :=
  value.length ≤ 253 && (value.splitOn '.').all (enclosed isDNSEnd fun c => isDNSEnd c || c == '-')

def isQualifiedName (value : String) : Bool :=
  match (chars value).splitOn '/' with
  | [name] => isNamePart name
  | [domain, name] => isDNS1123Subdomain domain && isNamePart name
  | _ => false

def isValidLabelValue (value : String) : Bool := value = "" || isNamePart (chars value)

example : isQualifiedName "ruleraven.io/secret-rotation" = true ∧ isQualifiedName "a=b" = false ∧
    isQualifiedName "a/b/c" = false ∧ isValidLabelValue "on-" = false := by decide +kernel

theorem isNameChar_ne {c : Char} (h : isNameChar c = true) : c ≠ '=' := by
  rintro rfl
  revert h
  decide

theorem eq_notMem_of_isNamePart {name : List Char} (h : isNamePart name = true) : '=' ∉ name := by
  simp only [isNamePart, enclosed, Bool.and_eq_true, List.all_eq_true] at h
  intro hmem
  exact isNameChar_ne (h.2.2 '=' hmem) rfl

theorem eq_notMem_of_isDNS1123Subdomain {value : List Char}
    (h : isDNS1123Subdomain value = true) : '=' ∉ value := by
  simp only [isDNS1123Subdomain, Bool.and_eq_true, List.all_eq_true] at h
  intro hmem
  obtain ⟨part, hpart, hchar⟩ := mem_splitOn (show '=' ≠ '.' by decide) hmem
  have hlabel := h.2 part hpart
  simp only [enclosed, Bool.and_eq_true, List.all_eq_true] at hlabel
  have hclass := hlabel.2 '=' hchar
  revert hclass
  decide

theorem eq_notMem_of_isQualifiedName {value : String} (h : isQualifiedName value = true) :
    '=' ∉ value.toList := by
  have hjoin : ['/'].intercalate (value.toList.splitOn '/') = value.toList :=
    List.intercalate_splitOn '/'
  unfold isQualifiedName at h
  rw [chars_eq] at h
  split at h
  · rename_i name hsplit
    have hvalue : value.toList = name := by simpa [hsplit] using hjoin.symm
    rw [hvalue]
    exact eq_notMem_of_isNamePart h
  · rename_i domain name hsplit
    obtain ⟨hdomain, hname⟩ := Bool.and_eq_true_iff.mp h
    have hvalue : value.toList = domain ++ '/' :: name := by simpa [hsplit] using hjoin.symm
    have hneither := And.intro (eq_notMem_of_isDNS1123Subdomain hdomain)
      (eq_notMem_of_isNamePart hname)
    simpa [hvalue] using hneither
  · cases h

theorem eq_notMem_of_isValidLabelValue {value : String} (h : isValidLabelValue value = true) :
    '=' ∉ value.toList := by
  unfold isValidLabelValue at h
  rcases Bool.or_eq_true_iff.mp h with hempty | hname
  · simp [of_decide_eq_true hempty]
  · rw [chars_eq] at hname
    exact eq_notMem_of_isNamePart hname

/-- With parsers of URLs. -/
def formats (parseURL parseRequestURI : String → Option ParsedURL) : Formats where
  parseURL := parseURL
  parseRequestURI := parseRequestURI
  isQualifiedName := isQualifiedName
  isValidLabelValue := isValidLabelValue
  qualifiedName_plain _ := eq_notMem_of_isQualifiedName
  labelValue_plain _ := eq_notMem_of_isValidLabelValue

end Selector

end RuleRaven.App
