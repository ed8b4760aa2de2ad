import RuleRaven.App.Startup
import RuleRaven.Kube.Redaction

namespace RuleRaven.App

open Framework Framework.Prog Kube Controller Provider Notify

/-! ### What validation leaves open -/

/-- What `Validate` has made sure of, as far as building depends on it. -/
structure Accepted (options : Options) (cfg : Config) : Prop where
  logging : toLower (trimSpace cfg.loggingLevel) ∈ ["debug", "info", "warn", "error"]
  clusterID : isBlank cfg.cluster.id = false
  resources : cfg.cluster.resources ≠ [] ∧ validateResources [] cfg.cluster.resources = .ok ()
  workers : 0 < cfg.controller.workers
  reconcileTimeout : 0 < cfg.controller.reconcileTimeout
  database : isBlank cfg.mongo.database = false ∧
    toLower cfg.mongo.database ∉ administrativeDatabases
  primary : validateProvider options cfg.decision.primary "primary" = .ok ()
  fallback : ∀ fallback, cfg.decision.fallback = some fallback →
    validateProvider options fallback "fallback" = .ok ()
  quiet : 0 < cfg.rules.eventQuietPeriod
  ids : validateDestinationIDs [] cfg.notifications.destinations = .ok ()
  destinations : ∀ destination ∈ cfg.notifications.destinations,
    validateDestination options destination = .ok ()
  attempts : 0 < cfg.notifications.retry.maxAttempts
  backoff : 0 < cfg.notifications.retry.initialBackoff ∧
    cfg.notifications.retry.initialBackoff ≤ cfg.notifications.retry.maxBackoff

theorem accepted_of_validate {options : Options} {cfg : Config}
    (h : validate options cfg = .ok ()) : Accepted options cfg := by
  have hcheck := firstError_ok h
  simp only [List.forall_mem_cons] at hcheck
  obtain ⟨-, hlogging, hcluster, -, -, -, hnone, hresources, hworkers, htimeout, -, hblank, hadmin,
    -, -, hprimary, hfallback, -, -, hquiet, -, hids, hdestinations, hattempts, hinitial, hmax,
    -⟩ :=
    hcheck
  exact
    { logging := not_not.mp (reject_ok hlogging)
      clusterID := by simpa using reject_ok hcluster
      resources := ⟨reject_ok hnone, hresources⟩
      workers := not_le.mp (reject_ok hworkers)
      reconcileTimeout := Int64.not_le.mp (reject_ok htimeout)
      database := ⟨by simpa using reject_ok hblank, reject_ok hadmin⟩
      primary := hprimary
      fallback := by
        intro fallback hsome
        rw [validateFallback, hsome] at hfallback
        exact firstError_ok hfallback _ (by simp)
      quiet := Int64.not_le.mp (not_or.mp (reject_ok hquiet)).2
      ids := hids
      destinations := fun destination hmem =>
        firstError_ok hdestinations _ (List.mem_map_of_mem hmem)
      attempts := not_le.mp (reject_ok hattempts)
      backoff := ⟨Int64.not_le.mp (reject_ok hinitial), Int64.not_lt.mp (reject_ok hmax)⟩ }

section Stages

variable {H : Hasher} {L : Provider.Library} {W : Webhook.Library}
  {F : Formats} {lookupEnv : String → Option String}
  {pid : Nat} {cfg : Config}

/-- The default endpoints of the providers. -/
def defaultURLs : List String :=
  ["https://api.openai.com", "https://api.anthropic.com", "https://openrouter.ai",
    "https://api.typesafe.ai"]

/-- There is one way to parse a URL, and the defaults are URLs. Where `url.ParseRequestURI` finds a
host, `url.Parse` finds the same, unless it refuses the text. -/
structure Agrees (L : Provider.Library) (W : Webhook.Library)
    (F : Formats) : Prop where
  parsed : ∀ text, L.parseURL text = (F.parseURL text).map fun u => (u.scheme, u.host)
  requested : ∀ text u v, F.parseRequestURI text = some u → u.host ≠ "" →
    W.parseURL text = some v → v.scheme = u.scheme ∧ v.host = u.host
  defaults : ∀ url ∈ defaultURLs, ∃ host, L.parseURL url = some ("https", host) ∧ host ≠ ""

/-- Endpoint and model in order, only the credential can be refused. -/
theorem newEndpoint_iff {factory : FactoryConfig} {name defaultURL path defaultModel : String}
    (hmodel : isBlank factory.model = false)
    (hlimits : 0 < factory.maxRequestBytes ∧ 0 < factory.maxResponseBytes)
    (hurl : ∃ host, L.parseURL (if trimSpace factory.endpoint = "" then defaultURL
      else trimSpace factory.endpoint) = some ("https", host) ∧ host ≠ "") :
    (∃ endpoint, newEndpoint L factory name defaultURL path defaultModel = .ok endpoint) ↔
      isBlank factory.credential = false := by
  obtain ⟨host, hparsed, hhost⟩ := hurl
  have htrimmed : trimSpace factory.model ≠ "" := by
    rw [Ne, trimSpace_eq_empty, hmodel]
    simp
  have hsmall : ¬(factory.maxRequestBytes ≤ 0 ∨ factory.maxResponseBytes ≤ 0) := by omega
  unfold newEndpoint
  simp only [hparsed, htrimmed, hhost, hsmall, if_false, ne_eq, false_or]
  cases isBlank factory.credential <;> simp

theorem map_ok_iff {ε α β : Type} {f : α → β} {e : Except ε α} :
    (∃ b, e.map f = .ok b) ↔ ∃ a, e = .ok a := by
  cases e <;> simp [Except.map]

theorem newStructuredClient_iff {config : StructuredConfig} (hname : config.name ≠ "") :
    (∃ client, (newStructuredClient L config).map Client.structured = .ok client) ↔
      ∃ endpoint, newEndpoint L config.factory config.name config.defaultURL config.endpointPath
        "" = .ok endpoint := by
  rw [map_ok_iff, newStructuredClient]
  cases newEndpoint L config.factory config.name config.defaultURL config.endpointPath "" with
  | error err => simp
  | ok endpoint => simp [hname]

theorem newJevClient_iff {config : JevConfig} :
    (∃ client, (newJevClient L config).map Client.jev = .ok client) ↔
      ∃ endpoint, newEndpoint L config.factory config.mode.text config.defaultURL
        config.endpointPath config.defaultModel = .ok endpoint := by
  rw [map_ok_iff, newJevClient]
  cases newEndpoint L config.factory config.mode.text config.defaultURL config.endpointPath
    config.defaultModel with
  | error err => simp
  | ok endpoint => simp

/-- The default endpoint of a type of provider. -/
def HasDefault (type defaultURL : String) : Prop :=
  if type = "openai-compatible" then defaultURL = "" else defaultURL ∈ defaultURLs

theorem registryCreate_iff {factory : FactoryConfig} {type : String}
    (htype : type ∈ registeredProviders) (hmodel : isBlank factory.model = false)
    (hlimits : 0 < factory.maxRequestBytes ∧ 0 < factory.maxResponseBytes)
    (hmode : type = "openai-compatible" →
      factory.strictMode = "json_schema" ∨ factory.strictMode = "forced_tool")
    (hurl : ∀ defaultURL, HasDefault type defaultURL →
      ∃ host, L.parseURL (if trimSpace factory.endpoint = "" then defaultURL
        else trimSpace factory.endpoint) = some ("https", host) ∧ host ≠ "") :
    (∃ client, Provider.createProvider L factory type = .ok client) ↔
      isBlank factory.credential = false := by
  have hendpoint : ∀ name defaultURL path defaultModel, HasDefault type defaultURL →
      ((∃ endpoint, newEndpoint L factory name defaultURL path defaultModel = .ok endpoint) ↔
        isBlank factory.credential = false) :=
    fun name defaultURL path defaultModel hdefault =>
      newEndpoint_iff hmodel hlimits (hurl defaultURL hdefault)
  simp only [registeredProviders, List.mem_cons, List.not_mem_nil, or_false] at htype
  rcases htype with rfl | rfl | rfl | rfl | rfl
  · exact (newStructuredClient_iff (by simp)).trans
      (hendpoint _ _ _ _ (by simp [HasDefault, defaultURLs]))
  · exact (newStructuredClient_iff (by simp)).trans
      (hendpoint _ _ _ _ (by simp [HasDefault, defaultURLs]))
  · show (∃ client, newOpenAICompatible L factory = .ok client) ↔ _
    unfold newOpenAICompatible
    rcases hmode rfl with hmode | hmode <;> simp only [hmode, String.reduceEq, reduceIte]
    · exact (newStructuredClient_iff (by simp)).trans (hendpoint _ _ _ _ (by simp [HasDefault]))
    · exact (newStructuredClient_iff (by simp)).trans (hendpoint _ _ _ _ (by simp [HasDefault]))
  · exact newJevClient_iff.trans (hendpoint _ _ _ _ (by simp [HasDefault, defaultURLs]))
  · exact newJevClient_iff.trans (hendpoint _ _ _ _ (by simp [HasDefault, defaultURLs]))

/-- The endpoint of a provider that `Validate` accepts is an HTTPS URL: that of the compatible
adapter is checked, the others have their defaults. -/
theorem endpoint_of_validateProvider (hagrees : Agrees L W F) {provider : ProviderConfig}
    {role defaultURL : String}
    (hvalid : validateProvider (configOptions F lookupEnv) provider role =
      .ok ())
    (hdefault : HasDefault provider.type defaultURL) :
    ∃ host, L.parseURL (if trimSpace provider.endpoint = "" then defaultURL
      else trimSpace provider.endpoint) = some ("https", host) ∧ host ≠ "" := by
  have hcheck := firstError_ok hvalid
  simp only [List.forall_mem_cons] at hcheck
  obtain ⟨-, -, hendpoint, -⟩ := hcheck
  rw [HasDefault] at hdefault
  by_cases hcompatible : provider.type = "openai-compatible"
  · rw [if_pos hcompatible] at hendpoint hdefault
    have hparsed := reject_ok (firstError_ok hendpoint _ List.mem_cons_self)
    simp only [Bool.not_eq_true', Bool.not_eq_false, Option.any_eq_true, Bool.and_eq_true,
      beq_iff_eq, bne_iff_ne] at hparsed
    obtain ⟨url, hurl, ⟨⟨⟨hscheme, hhost⟩, -⟩, -⟩, -⟩ := hparsed
    have hsame : (if trimSpace provider.endpoint = "" then defaultURL
        else trimSpace provider.endpoint) = trimSpace provider.endpoint := by
      split_ifs with hempty
      · rw [hdefault, hempty]
      · rfl
    refine ⟨url.host, ?_, hhost⟩
    rw [hsame, hagrees.parsed, show F.parseURL (trimSpace provider.endpoint) = some url from hurl,
      Option.map_some, hscheme]
  · rw [if_neg hcompatible] at hendpoint hdefault
    have hblank : isBlank provider.endpoint = true := by
      simpa using (not_or.mp (reject_ok hendpoint)).1
    rw [if_pos (trimSpace_eq_empty.mpr hblank)]
    exact hagrees.defaults defaultURL hdefault

/-- A provider that `Validate` accepts is refused for a blank credential only. -/
theorem createProvider_iff (hagrees : Agrees L W F) {provider : ProviderConfig}
    {role : String} {timeout : Duration}
    (hvalid : validateProvider (configOptions F lookupEnv) provider role = .ok ()) :
    (∃ client, createProvider L lookupEnv provider timeout = .ok client) ↔
      isBlank ((lookupEnv provider.credentialEnv).getD "") = false := by
  have hcheck := firstError_ok hvalid
  simp only [List.forall_mem_cons] at hcheck
  obtain ⟨htype, hmodel, hcompatible, -⟩ := hcheck
  refine registryCreate_iff (not_not.mp (reject_ok htype)) (by simpa using reject_ok hmodel)
    ⟨by simp, by simp⟩ ?_ fun _ => endpoint_of_validateProvider hagrees hvalid
  intro hnamed
  rw [if_pos hnamed] at hcompatible
  have hmode := reject_ok (firstError_ok hcompatible _ (List.mem_cons_of_mem _ List.mem_cons_self))
  show provider.strictMode = _ ∨ provider.strictMode = _
  tauto

theorem buildProviders_iff (hagrees : Agrees L W F)
    (haccepted : Accepted (configOptions F lookupEnv) cfg) :
    (∃ built, buildProviders H L lookupEnv cfg.decision = .ok built) ↔
      isBlank ((lookupEnv cfg.decision.primary.credentialEnv).getD "") = false ∧
        ∀ fallback, cfg.decision.fallback = some fallback →
          isBlank ((lookupEnv fallback.credentialEnv).getD "") = false := by
  rw [← createProvider_iff hagrees haccepted.primary]
  unfold buildProviders
  cases createProvider L lookupEnv cfg.decision.primary cfg.decision.timeout with
  | error err => simp
  | ok primary =>
    cases hfallback : cfg.decision.fallback with
    | none => simp
    | some fallback =>
      simp only [Except.ok.injEq, exists_eq', true_and, Option.some.injEq, forall_eq']
      rw [← createProvider_iff hagrees (haccepted.fallback fallback hfallback)]
      cases createProvider L lookupEnv fallback cfg.decision.timeout <;> simp

theorem not_isSpace_of_isFieldChar {c : Char} (h : isFieldChar c = true) : isSpace c = false := by
  refine ascii_cases (P := fun c => isFieldChar c = true → isSpace c = false) ?_
    (ascii_of_isFieldChar h) h
  decide +kernel

theorem safe_unspaced {database : String} (h : safeDatabaseName database = true) :
    unspaced database = true := by
  simp only [safeDatabaseName, Bool.and_eq_true, List.all_eq_true] at h
  have hvisible : ∀ c ∈ chars database, isSpace c = false := by
    intro c hc
    have hsafe := h.2 c hc
    apply not_isSpace_of_isFieldChar
    simp only [isFieldChar, Bool.or_eq_true] at hsafe ⊢
    tauto
  simp only [unspaced, Bool.and_eq_true, Option.all_eq_true, Bool.not_eq_true']
  exact ⟨fun c hc => hvisible c (List.mem_of_head? hc),
    fun c hc => hvisible c (List.mem_of_getLast? hc)⟩

/-- A database name that `Validate` accepts is refused for its characters only. -/
theorem validateDatabase_iff {database : String} (hblank : isBlank database = false)
    (hadmin : toLower database ∉ administrativeDatabases) :
    validateDatabase database = .ok () ↔ safeDatabaseName database = true := by
  have hempty : trimSpace database ≠ "" := by
    rw [Ne, trimSpace_eq_empty, hblank]
    simp
  unfold validateDatabase
  dsimp only
  rw [if_neg hempty]
  constructor
  · intro h
    split_ifs at h with _ hunsafe
    simpa using (not_or.mp hunsafe).2
  · intro h
    have htrimmed := trimSpace_of_unspaced (safe_unspaced h)
    rw [htrimmed, if_neg hadmin, if_neg (by simp [h])]

theorem selectResources_of_validate {seen resources : List String}
    (h : validateResources seen resources = .ok ()) :
    ∃ selected, selectResources seen resources = .ok selected := by
  have hlookup : ∀ name ∈ supportedKubernetesResources,
      supportedResources.lookup name ≠ none := by
    decide +kernel
  induction resources generalizing seen with
  | nil => exact ⟨[], rfl⟩
  | cons resource resources ih =>
    unfold validateResources at h
    dsimp only at h
    split_ifs at h with hsecret hsupported hseen
    obtain ⟨selected, hselected⟩ := ih h
    refine ⟨toLower (trimSpace resource) :: selected, ?_⟩
    have hname : resourceName resource = toLower (trimSpace resource) := rfl
    rw [selectResources, hname, if_neg (hlookup _ hsupported), if_neg hseen, hselected]
    rfl

theorem newManager_of_accepted {options : Options} (haccepted : Accepted options cfg) :
    ∃ manager, newManager (managerConfig cfg) = .ok manager := by
  obtain ⟨selected, hselected⟩ := selectResources_of_validate haccepted.resources.2
  have hworkers : ¬(managerConfig cfg).workers ≤ 0 := not_le.mpr haccepted.workers
  have hresources : normalizeResources (managerConfig cfg).resources =
      .ok (sortSlice (· < ·) selected) := by
    show (if cfg.cluster.resources = [] then _ else
      (selectResources [] cfg.cluster.resources).map _) = _
    rw [if_neg haccepted.resources.1, hselected]
    rfl
  rw [newManager, if_neg hworkers, newInformerFactory, hresources]
  exact ⟨_, rfl⟩

theorem newResolutionSweeper_iff {options : Options} (haccepted : Accepted options cfg) :
    (∃ sweeper, newResolutionSweeper cfg.cluster.id (sweepInterval cfg.rules.eventQuietPeriod) =
      .ok sweeper) ↔ 2 ≤ cfg.rules.eventQuietPeriod := by
  have hinterval : 0 < sweepInterval cfg.rules.eventQuietPeriod ↔
      2 ≤ cfg.rules.eventQuietPeriod := by
    have hhalf := half_toInt haccepted.quiet
    rw [sweepInterval, Int64.le_iff_toInt_le]
    split_ifs with hlong
    · rw [Int64.lt_iff_toInt_lt, hhalf] at hlong
      have hminute : (60000000000 : Int64).toInt = 60000000000 := rfl
      have htwo : (2 : Int64).toInt = 2 := rfl
      exact iff_of_true (by decide) (by omega)
    · have htwo : (2 : Int64).toInt = 2 := rfl
      have hzero : (0 : Int64).toInt = 0 := rfl
      rw [Int64.lt_iff_toInt_lt, hhalf]
      omega
  rw [← hinterval, newResolutionSweeper]
  split_ifs with hrefused
  · have hshort : ¬0 < sweepInterval cfg.rules.eventQuietPeriod := by
      rw [Int64.not_lt]
      exact hrefused.resolve_left (by simp [haccepted.clusterID])
    simp [hshort]
  · simp [Int64.not_le.mp (not_or.mp hrefused).2]

theorem nodup_of_validateDestinationIDs {seen : List String}
    {destinations : List DestinationConfig}
    (h : validateDestinationIDs seen destinations = .ok ()) :
    (destinations.map DestinationConfig.id).Nodup ∧
      ∀ id ∈ destinations.map DestinationConfig.id, id ∉ seen := by
  induction destinations generalizing seen with
  | nil => simp
  | cons destination rest ih =>
    unfold validateDestinationIDs at h
    split_ifs at h with hempty hseen
    obtain ⟨hnodup, hfresh⟩ := ih h
    simp only [List.mem_cons, not_or] at hfresh
    rw [List.map_cons, List.nodup_cons]
    refine ⟨⟨fun hmem => (hfresh _ hmem).1 rfl, hnodup⟩, fun id hid => ?_⟩
    rcases List.mem_cons.mp hid with rfl | hid
    · exact hseen
    · exact (hfresh id hid).2

/-- With its providers and with IDs that are not blank, the reconciler is built. -/
theorem buildReconciler_of_accepted {options : Options} (haccepted : Accepted options cfg)
    {built : Client × Option Client × String}
    (hproviders : buildProviders H L lookupEnv cfg.decision = .ok built)
    (hids : ∀ destination ∈ cfg.notifications.destinations, isBlank destination.id = false) :
    ∃ built, buildReconciler H L lookupEnv cfg = .ok built := by
  let ids := sortSlice (· < ·) (cfg.notifications.destinations.map DestinationConfig.id)
  have hperm : (sortSlice (fun a b : String => decide (a < b)) ids).Perm
      (cfg.notifications.destinations.map DestinationConfig.id) :=
    (sortSlice_perm _ _).trans (sortSlice_perm _ _)
  have hnodup : (sortSlice (fun a b : String => decide (a < b)) ids).Nodup :=
    hperm.nodup_iff.mpr (nodup_of_validateDestinationIDs haccepted.ids).1
  have hcheck : checkDestinations (sortSlice (fun a b : String => decide (a < b)) ids) = true := by
    refine checkDestinations_of_increasing (fun id hid => ?_)
      ((sortSlice_strings_sorted ids).imp₂ (fun _ _ hle hne => lt_of_le_of_ne hle hne) hnodup)
    obtain ⟨destination, hmem, rfl⟩ := List.mem_map.mp (hperm.mem_iff.mp hid)
    exact hids destination hmem
  have hperiods : ¬(cfg.controller.reconcileTimeout ≤ 0 ∨ cfg.rules.eventQuietPeriod ≤ 0) :=
    not_or.mpr ⟨Int64.not_le.mpr haccepted.reconcileTimeout, Int64.not_le.mpr haccepted.quiet⟩
  obtain ⟨primary, fallback, providerHash⟩ := built
  simp only [buildReconciler, hproviders, newReconciler, haccepted.clusterID, hperiods,
    show checkDestinations (sortSlice (fun a b : String => decide (a < b)) (sortSlice
      (fun a b : String => decide (a < b))
        (cfg.notifications.destinations.map DestinationConfig.id))) = true from hcheck]
  exact ⟨_, rfl⟩

theorem checkNotifiers_of_nodup {seen names : List String}
    (hvisible : ∀ name ∈ names, isBlank name = false) (hnodup : names.Nodup)
    (hfresh : ∀ name ∈ names, name ∉ seen) : checkNotifiers seen names = .ok () := by
  induction names generalizing seen with
  | nil => rfl
  | cons name names ih =>
    obtain ⟨hnew, hnodup⟩ := List.nodup_cons.mp hnodup
    rw [checkNotifiers, if_neg (by simp [hvisible name List.mem_cons_self]),
      if_neg (hfresh name List.mem_cons_self)]
    refine ih (fun other hother => hvisible other (List.mem_cons_of_mem _ hother)) hnodup
      fun other hother => ?_
    rw [List.mem_cons, not_or]
    exact ⟨fun heq => hnew (heq ▸ hother), hfresh other (List.mem_cons_of_mem _ hother)⟩

theorem newDispatcher_of_accepted (pid : Nat) {options : Options} (haccepted : Accepted options cfg)
    {notifiers : List Webhook} {host : String} (hhost : isBlank host = false)
    (hnames : notifiers.map Webhook.name =
      cfg.notifications.destinations.map DestinationConfig.id)
    (hids : ∀ destination ∈ cfg.notifications.destinations, isBlank destination.id = false) :
    ∃ dispatcher, newDispatcher (dispatcherConfig pid cfg notifiers host) = .ok dispatcher := by
  let config := dispatcherConfig pid cfg notifiers host
  have hidentified : ¬(isBlank config.workerID = true ∨ isBlank config.clusterID = true) := by
    simp [config, dispatcherConfig, isBlank_append, hhost, haccepted.clusterID]
  have hpositive : ¬(config.workers ≤ 0 ∨ config.leaseDuration ≤ 0 ∨ config.maxAttempts ≤ 0 ∨
      config.initialBackoff ≤ 0 ∨ config.maxBackoff < config.initialBackoff) := by
    simp only [not_or, not_le, Int64.not_le, Int64.not_lt]
    have hlease : (0 : Duration) < 30000000000 := by decide
    exact ⟨haccepted.workers, hlease, haccepted.attempts, haccepted.backoff⟩
  have hexpiry : ¬(config.deliveredExpiry < 0 ∨ config.failedExpiry < 0) := by
    show ¬((0 : Duration) < 0 ∨ (0 : Duration) < 0)
    decide
  have hcheck : checkNotifiers [] config.notifiers = .ok () := by
    show checkNotifiers [] (notifiers.map Webhook.name) = .ok ()
    rw [hnames]
    refine checkNotifiers_of_nodup (fun name hname => ?_)
      (nodup_of_validateDestinationIDs haccepted.ids).1 (by simp)
    obtain ⟨destination, hmem, rfl⟩ := List.mem_map.mp hname
    exact hids destination hmem
  show ∃ dispatcher, newDispatcher config = .ok dispatcher
  unfold newDispatcher
  rw [dif_neg hidentified, dif_neg hpositive, dif_neg hexpiry]
  split
  · rename_i err herror
    rw [hcheck] at herror
    cases herror
  · exact ⟨_, rfl⟩

end Stages

/-! ### Destinations -/

section Destinations

variable {L : Provider.Library} {W : Webhook.Library} {lookupEnv : String → Option String}
  {F : Formats} {destination : DestinationConfig}
  {trace : List SetupEvent}

/-- What a notifier needs of its destination and `Validate` does not look at. -/
structure Deliverable (W : Webhook.Library) (destination : DestinationConfig) : Prop where
  id : isBlank destination.id = false
  url : ∃ url, W.parseURL destination.url = some url ∧ url.hasUser = false ∧ url.fragment = "" ∧
    isBlank url.hostname = false

theorem validateDestination_ok {options : Options}
    (h : validateDestination options destination = .ok ()) :
    destination.type ∈ options.notifierTypes ∧
      (∃ parsed, options.parseRequestURI destination.url = some parsed ∧ parsed.host ≠ "" ∧
        (parsed.scheme = "https" ∨
          parsed.scheme = "http" ∧ destination.allowInsecureHTTP = true)) ∧
      requireEnvironment options destination.credentialEnv "destination credentialEnv" = .ok () ∧
      0 < destination.timeout ∧ 0 < destination.maxResponseBytes ∧
      0 < destination.maxRetryAfter := by
  have hcheck := firstError_ok h
  simp only [List.forall_mem_cons] at hcheck
  obtain ⟨htype, hhost, hinsecure, hscheme, henv, htimeout, hbytes, hretry, -⟩ := hcheck
  refine ⟨not_not.mp (reject_ok htype), ?_, henv, Int64.not_le.mp (reject_ok htimeout),
    not_le.mp (reject_ok hbytes), Int64.not_le.mp (reject_ok hretry)⟩
  have hhost := reject_ok hhost
  have hinsecure := reject_ok hinsecure
  have hscheme := reject_ok hscheme
  cases hparsed : options.parseRequestURI destination.url with
  | none => simp [hparsed] at hhost
  | some parsed =>
    simp only [hparsed, Option.map_some, Option.getD_some] at hhost hinsecure hscheme
    refine ⟨parsed, rfl, hhost, ?_⟩
    have hallowed := Bool.eq_false_or_eq_true destination.allowInsecureHTTP
    tauto

theorem secret_ne_nil {name field : String}
    (h : requireEnvironment (configOptions F lookupEnv) name field = .ok ()) :
    utf8Bytes ((lookupEnv name).getD "") ≠ [] := by
  simp only [requireEnvironment, configOptions] at h
  split_ifs at h with hblank hempty
  intro hnil
  exact hempty (utf8Bytes_inj.mp hnil)

/-- A destination that `Validate` accepts passes the checks of its notifier exactly if it is
deliverable. -/
theorem checkConfig_iff (hagrees : Agrees L W F)
    (hvalid : validateDestination (configOptions F lookupEnv) destination = .ok ())
    (hbytes : destination.maxResponseBytes < 2 ^ 63) :
    (∃ endpoint, Webhook.checkConfig W (notifierConfig lookupEnv destination) = .ok endpoint ∧
      isBlank endpoint.hostname = false) ↔ Deliverable W destination := by
  obtain ⟨-, ⟨parsed, hparsed, hhost, hscheme⟩, henv, htimeout, hlimit, hretry⟩ :=
    validateDestination_ok hvalid
  let config := notifierConfig lookupEnv destination
  have hlimit : ¬config.maxResponseBytes ≤ 0 := by
    rw [Int64.not_le, Int64.lt_iff_toInt_lt]
    show (0 : Int64).toInt < (Int64.ofInt destination.maxResponseBytes).toInt
    rw [Int64.toInt_ofInt_of_le (by omega) hbytes]
    exact hlimit
  have hsecret : config.secret ≠ [] := secret_ne_nil henv
  have htimeout : ¬config.timeout ≤ 0 := Int64.not_le.mpr htimeout
  have hretry : ¬config.maxRetryAfter ≤ 0 := Int64.not_le.mpr hretry
  show (∃ endpoint, Webhook.checkConfig W config = .ok endpoint ∧ _) ↔ _
  unfold Webhook.checkConfig
  simp only [ite_error_eq_ok, hsecret, htimeout, hlimit, hretry, not_false_eq_true, true_and]
  constructor
  · rintro ⟨endpoint, ⟨hid, hendpoint⟩, hhostname⟩
    split at hendpoint
    · cases hendpoint
    · rename_i url hurl
      simp only [ite_error_eq_ok, not_or, not_not] at hendpoint
      obtain ⟨-, ⟨huser, hfragment⟩, -, -, hsame⟩ := hendpoint
      cases hsame
      exact ⟨eq_false_of_ne_true hid, endpoint, hurl, eq_false_of_ne_true huser, hfragment,
        hhostname⟩
  · rintro ⟨hid, url, hurl, huser, hfragment, hhostname⟩
    obtain ⟨hsame, hhosts⟩ := hagrees.requested destination.url parsed url hparsed hhost hurl
    refine ⟨url, ⟨ne_true_of_eq_false hid, ?_⟩, hhostname⟩
    rw [show W.parseURL config.endpoint = some url from hurl]
    rw [← hsame] at hscheme
    rw [← hhosts] at hhost
    have hinsecure : config.allowInsecureHTTP = destination.allowInsecureHTTP := rfl
    simp only [ite_error_eq_ok, hinsecure, huser, hfragment]
    rcases hscheme with hscheme | ⟨hscheme, hallowed⟩
    · simp [hscheme, hhost]
    · simp [hscheme, hhost, hallowed]

/-- A lookup finds the host, and at public addresses only. -/
def Resolved : Webhook.NetEvent → Prop
  | ⟨.lookup _, reply⟩ => ∃ addresses : List IP, reply = some addresses ∧ addresses ≠ [] ∧
    ∀ ip ∈ addresses, Webhook.unsafeIP ip = false
  | _ => True

theorem validateHost_iff {host : String} {events : List Webhook.NetEvent}
    {valid : Except String Unit} (h : (Webhook.validateHost host false).Does events valid)
    (hresolved : ∀ event ∈ events, Resolved event) :
    valid = .ok () ↔ isBlank host = false := by
  unfold Webhook.validateHost at h
  split_ifs at h with hblank
  · obtain ⟨-, rfl⟩ := h
    simp [hblank]
  · obtain ⟨reply, rest, rfl, h⟩ := h
    obtain ⟨addresses, rfl, hsome, hpublic⟩ := hresolved ⟨.lookup host, reply⟩ List.mem_cons_self
    have hsafe : ¬(false = false ∧ addresses.any Webhook.unsafeIP = true) := by
      simpa using hpublic
    dsimp only [ret_bind] at h
    rw [if_neg hsome, if_neg hsafe] at h
    obtain ⟨-, rfl⟩ := h
    simpa using hblank

theorem new_iff {config : Webhook.FactoryConfig} (hprivate : config.allowPrivateNetwork = false)
    (hclient : config.httpClient = none) {events : List Webhook.NetEvent}
    {result : Except String Webhook} (h : (Webhook.new W config).Does events result)
    (hresolved : ∀ event ∈ events, Resolved event) :
    (∃ notifier, result = .ok notifier) ↔
      ∃ endpoint, Webhook.checkConfig W config = .ok endpoint ∧
        isBlank endpoint.hostname = false := by
  unfold Webhook.new at h
  split at h
  · rename_i err hcheck
    obtain ⟨-, rfl⟩ := h
    simp [hcheck]
  · rename_i endpoint hcheck
    obtain ⟨front, back, valid, rfl, hvalid, h⟩ := does_bind.mp h
    rw [hprivate] at hvalid
    have hhost := validateHost_iff hvalid fun event hevent =>
      hresolved event (List.mem_append_left _ hevent)
    simp only [hcheck, Except.ok.injEq, exists_eq_left', ← hhost]
    cases valid with
    | error err =>
      obtain ⟨-, rfl⟩ := h
      simp
    | ok _ =>
      simp only [Webhook.chooseClient, hclient] at h
      obtain ⟨-, rfl⟩ := h
      simp

/-- The surroundings do what they are asked for. -/
def Obliging : SetupEvent → Prop
  | ⟨.mark _, _⟩ => True
  | ⟨.loadRESTConfig, reply⟩ => reply = none
  | ⟨.newForConfig, reply⟩ => reply = none
  | ⟨.connect _ _ _, reply⟩ => reply = none
  | ⟨.ping, reply⟩ => reply = none
  | ⟨.ensureIndexes, reply⟩ => reply = .ok ()
  | ⟨.disconnect, _⟩ => True
  | ⟨.net op, reply⟩ => Resolved ⟨op, reply⟩
  | ⟨.hostname, reply⟩ => ∃ host, reply = .ok host ∧ isBlank host = false

theorem createNotifier_iff (hagrees : Agrees L W F)
    (hvalid : validateDestination (configOptions F lookupEnv) destination = .ok ())
    (hbytes : destination.maxResponseBytes < 2 ^ 63) {result : Except String Webhook}
    (h : (createNotifier W lookupEnv destination).Does trace result)
    (hobliging : ∀ event ∈ trace, Obliging event) :
    (∃ notifier, result = .ok notifier) ↔ Deliverable W destination := by
  have htype : destination.type ∈ registeredNotifiers := (validateDestination_ok hvalid).1
  rw [createNotifier, if_pos htype] at h
  obtain ⟨events, hnew, rfl⟩ := net_does h
  rw [new_iff rfl rfl hnew fun event hevent => hobliging _ (List.mem_map_of_mem hevent)]
  exact checkConfig_iff hagrees hvalid hbytes

theorem buildNotifiers_iff (hagrees : Agrees L W F)
    {destinations : List DestinationConfig}
    (hvalid : ∀ destination ∈ destinations,
      validateDestination (configOptions F lookupEnv) destination = .ok ())
    (hbytes : ∀ destination ∈ destinations, destination.maxResponseBytes < 2 ^ 63)
    {result : Except BuildError (List Webhook)}
    (h : (buildNotifiers W lookupEnv destinations).Does trace result)
    (hobliging : ∀ event ∈ trace, Obliging event) :
    (∃ notifiers, result = .ok notifiers) ↔
      ∀ destination ∈ destinations, Deliverable W destination := by
  induction destinations generalizing trace result with
  | nil =>
    obtain ⟨-, rfl⟩ := h
    simp
  | cons destination rest ih =>
    rw [List.forall_mem_cons] at hvalid hbytes ⊢
    obtain ⟨front, back, built, rfl, hbuilt, h⟩ := does_bind.mp h
    simp only [List.mem_append] at hobliging
    have hfirst := createNotifier_iff hagrees hvalid.1 hbytes.1 hbuilt
      fun event hevent => hobliging event (.inl hevent)
    cases built with
    | error err =>
      obtain ⟨-, rfl⟩ := h
      rw [← hfirst]
      simp
    | ok notifier =>
      obtain ⟨middle, back, built, rfl, hrest, h⟩ := does_bind.mp h
      simp only [List.mem_append] at hobliging
      have hothers := ih hvalid.2 hbytes.2 hrest
        fun event hevent => hobliging event (.inr (.inl hevent))
      rw [← hfirst, ← hothers]
      cases built with
      | error err =>
        obtain ⟨-, rfl⟩ := h
        simp
      | ok notifiers =>
        obtain ⟨-, rfl⟩ := h
        simp

end Destinations

/-! ### Production -/

section Production

variable {H : Hasher} {L : Provider.Library} {W : Webhook.Library}
  {F : Formats} {lookupEnv : String → Option String}
  {pid : Nat} {cfg : Config} {trace : List SetupEvent}

/-- What building needs of the configuration and the environment, and `Validate` leaves open. -/
structure Buildable (W : Webhook.Library) (lookupEnv : String → Option String) (cfg : Config) :
    Prop where
  database : safeDatabaseName cfg.mongo.database = true
  uri : isBlank ((lookupEnv cfg.mongo.uriEnv).getD "") = false
  primary : isBlank ((lookupEnv cfg.decision.primary.credentialEnv).getD "") = false
  fallback : ∀ fallback, cfg.decision.fallback = some fallback →
    isBlank ((lookupEnv fallback.credentialEnv).getD "") = false
  destinations : ∀ destination ∈ cfg.notifications.destinations, Deliverable W destination
  /-- The sweeper runs every half of it. -/
  quiet : 2 ≤ cfg.rules.eventQuietPeriod

theorem prepare_ok {result : Except BuildError Unit}
    (hvalid : validate (configOptions F lookupEnv) cfg = .ok ())
    (h : (prepare F lookupEnv cfg).Does trace result)
    (hobliging : ∀ event ∈ trace, Obliging event) : result = .ok () := by
  have hlogger : newLogger cfg.loggingLevel = .ok () := by
    have hlevels : ∀ level ∈ ["debug", "info", "warn", "error"],
        level ∈ ["debug", "info", "", "warn", "error"] := by
      decide
    exact if_pos (hlevels _ (accepted_of_validate hvalid).logging)
  obtain ⟨reply, rest, rfl, h⟩ := h
  dsimp only [ret_bind] at h
  rw [hvalid] at h
  dsimp only at h
  rw [hlogger] at h
  obtain ⟨reply, rest, rfl, h⟩ := h
  obtain rfl : reply = none := hobliging ⟨.loadRESTConfig, reply⟩ (by simp)
  obtain ⟨reply, rest, rfl, h⟩ := h
  obtain rfl : reply = none := hobliging ⟨.newForConfig, reply⟩ (by simp)
  exact h.2

theorem openStore_iff {options : Options} (haccepted : Accepted options cfg)
    {result : Except MongoError Unit}
    (h : (openStore ((lookupEnv cfg.mongo.uriEnv).getD "") cfg.mongo.database
      cfg.mongo.timeout).Does trace result)
    (hobliging : ∀ event ∈ trace, Obliging event) :
    result = .ok () ↔ safeDatabaseName cfg.mongo.database = true ∧
      isBlank ((lookupEnv cfg.mongo.uriEnv).getD "") = false := by
  have hdatabase := validateDatabase_iff haccepted.database.1 haccepted.database.2
  obtain ⟨front, back, created, rfl, hcreated, hopened⟩ := does_bind.mp h
  rw [← hdatabase]
  unfold newStore at hcreated
  split at hcreated
  · rename_i err hrefused
    obtain ⟨rfl, rfl⟩ := hcreated
    obtain ⟨-, rfl⟩ := hopened
    simp [hrefused]
  · rename_i haccept
    by_cases hblank : isBlank ((lookupEnv cfg.mongo.uriEnv).getD "") = true
    · rw [if_pos hblank] at hcreated
      obtain ⟨rfl, rfl⟩ := hcreated
      obtain ⟨-, rfl⟩ := hopened
      simp [hblank]
    · rw [if_neg hblank] at hcreated
      obtain ⟨reply, rest, rfl, hcreated⟩ := hcreated
      obtain rfl : reply = none := hobliging ⟨.connect _ _ _, reply⟩ List.mem_cons_self
      obtain ⟨rfl, rfl⟩ := hcreated
      obtain ⟨reply, rest, rfl, hready⟩ := hopened
      obtain rfl : reply = none := hobliging ⟨.ping, reply⟩ (by simp)
      obtain ⟨reply, rest, rfl, hopened⟩ := hready
      obtain rfl : reply = .ok () := hobliging ⟨.ensureIndexes, reply⟩ (by simp)
      obtain ⟨reply, rest, rfl, -, rfl⟩ := hopened
      simp [haccept, eq_false_of_ne_true hblank]

theorem assembleDispatcher_ok {options : Options} (haccepted : Accepted options cfg)
    {notifiers : List Webhook} (hnames : notifiers.map Webhook.name =
      cfg.notifications.destinations.map DestinationConfig.id)
    (hids : ∀ destination ∈ cfg.notifications.destinations, isBlank destination.id = false)
    {result : Except BuildError (Dispatcher × RuleRaven.App)}
    (h : (assembleDispatcher pid cfg notifiers).Does trace result)
    (hobliging : ∀ event ∈ trace, Obliging event) : ∃ built, result = .ok built := by
  obtain ⟨reply, rest, rfl, h⟩ := h
  obtain ⟨host, rfl, hhost⟩ := hobliging ⟨.hostname, reply⟩ List.mem_cons_self
  obtain ⟨dispatcher, hdispatcher⟩ := newDispatcher_of_accepted pid haccepted hhost hnames hids
  dsimp only [ret_bind] at h
  rw [if_neg (ne_true_of_eq_false hhost), hdispatcher] at h
  exact ⟨_, h.2⟩

theorem assemble_iff (hagrees : Agrees L W F)
    (haccepted : Accepted (configOptions F lookupEnv) cfg)
    (hbytes : ∀ destination ∈ cfg.notifications.destinations,
      destination.maxResponseBytes < 2 ^ 63)
    {result : Except BuildError Production}
    (h : (assemble H L W lookupEnv pid cfg).Does trace result)
    (hobliging : ∀ event ∈ trace, Obliging event) :
    (∃ production, result = .ok production) ↔
      (∃ built, buildProviders H L lookupEnv cfg.decision = .ok built) ∧
        (∀ destination ∈ cfg.notifications.destinations, Deliverable W destination) ∧
        2 ≤ cfg.rules.eventQuietPeriod := by
  unfold assemble at h
  split at h
  · rename_i err hrefused
    obtain ⟨-, rfl⟩ := h
    simp [hrefused]
  rename_i built hproviders
  obtain ⟨front, back, built, rfl, hbuilt, hrest⟩ := does_bind.mp h
  simp only [List.mem_append] at hobliging
  have hnotifiers := buildNotifiers_iff hagrees haccepted.destinations hbytes hbuilt
    fun event hevent => hobliging event (.inl hevent)
  cases built with
  | error err =>
    obtain ⟨-, rfl⟩ := hrest
    rw [← hnotifiers]
    simp
  | ok notifiers =>
    have hdeliverable := hnotifiers.mp ⟨notifiers, rfl⟩
    have hids := fun destination hmem => (hdeliverable destination hmem).id
    obtain ⟨⟨reconciler, primary, fallback⟩, hreconciler⟩ :=
      buildReconciler_of_accepted haccepted hproviders hids
    obtain ⟨manager, hmanager⟩ := newManager_of_accepted haccepted
    simp only [hreconciler, hmanager] at hrest
    have hsweeper := newResolutionSweeper_iff haccepted
    rw [← hsweeper]
    split at hrest
    · rename_i err hrefused
      obtain ⟨-, rfl⟩ := hrest
      simp [hrefused]
    · rename_i sweeper hswept
      obtain ⟨middle, back, built, rfl, hdispatcher, hlast⟩ := does_bind.mp hrest
      simp only [List.mem_append] at hobliging
      obtain ⟨⟨dispatcher, app⟩, rfl⟩ := assembleDispatcher_ok haccepted
        (Guarded.names (buildNotifiers_guarded hbuilt)) hids hdispatcher
        fun event hevent => hobliging event (.inr (.inl hevent))
      obtain ⟨-, rfl⟩ := hlast
      simp only [Except.ok.injEq, exists_eq', hproviders, hswept, true_and, and_true, true_iff]
      exact hdeliverable

/-- Where the surroundings do what they are asked for, a configuration that `Validate` accepts is
built exactly if it is buildable. -/
theorem newProduction_ok_iff (hagrees : Agrees L W F)
    (hvalid : validate (configOptions F lookupEnv) cfg = .ok ())
    (hbytes : ∀ destination ∈ cfg.notifications.destinations,
      destination.maxResponseBytes < 2 ^ 63)
    {result : Except AssemblyError Production}
    (h : (newProduction H L W F lookupEnv pid cfg).Does trace result)
    (hobliging : ∀ event ∈ trace, Obliging event) :
    (∃ production, result = .ok production) ↔ Buildable W lookupEnv cfg := by
  have haccepted := accepted_of_validate hvalid
  obtain ⟨front, back, prepared, rfl, hprepared, hrest⟩ := does_bind.mp h
  simp only [List.mem_append] at hobliging
  obtain rfl := prepare_ok hvalid hprepared fun event hevent => hobliging event (.inl hevent)
  obtain ⟨middle, back, store, rfl, hstore, hrest⟩ := does_bind.mp hrest
  simp only [List.mem_append] at hobliging
  have hopened := openStore_iff haccepted hstore
    fun event hevent => hobliging event (.inr (.inl hevent))
  cases store with
  | error err =>
    obtain ⟨-, rfl⟩ := hrest
    refine iff_of_false (by simp) fun hbuildable => ?_
    cases hopened.mpr ⟨hbuildable.database, hbuildable.uri⟩
  | ok _ =>
    obtain ⟨hdatabase, huri⟩ := hopened.mp rfl
    obtain ⟨last, back, built, rfl, hbuilt, hrest⟩ := does_bind.mp hrest
    simp only [List.mem_append] at hobliging
    have hassembled := assemble_iff hagrees haccepted hbytes hbuilt
      fun event hevent => hobliging event (.inr (.inr (.inl hevent)))
    rw [buildProviders_iff hagrees haccepted] at hassembled
    have hbuildable : (∃ production, built = .ok production) ↔ Buildable W lookupEnv cfg := by
      rw [hassembled]
      constructor
      · rintro ⟨⟨hprimary, hfallback⟩, hdeliverable, hquiet⟩
        exact ⟨hdatabase, huri, hprimary, hfallback, hdeliverable, hquiet⟩
      · intro hbuildable
        exact ⟨⟨hbuildable.primary, hbuildable.fallback⟩, hbuildable.destinations,
          hbuildable.quiet⟩
    rw [← hbuildable]
    cases built with
    | ok production =>
      obtain ⟨-, rfl⟩ := hrest
      simp
    | error cause =>
      obtain ⟨reply, rest, -, -, rfl⟩ := hrest
      simp

end Production

section Example

open App.Scenario

theorem hooks_agree : Agrees providers hooksLibrary hookFormats where
  parsed text := by
    simp only [hookFormats, Selector.formats, parsedHook, providers, Option.map_map]
    exact Option.map_id'.symm
  requested text u v hu hhost hv := by
    obtain ⟨⟨scheme, host⟩, hparts, rfl⟩ := Option.map_eq_some_iff.mp hu
    obtain ⟨parts, hsame, rfl⟩ := Option.map_eq_some_iff.mp hv
    rw [hparts] at hsame
    cases hsame
    refine ⟨rfl, ?_⟩
    show host = if scheme = "" then "" else host
    split_ifs with hscheme
    · exact absurd (if_pos hscheme) hhost
    · rfl
  defaults url hurl := by
    simp only [defaultURLs, List.mem_cons, List.not_mem_nil, or_false] at hurl
    rcases hurl with rfl | rfl | rfl | rfl
    · exact ⟨"api.openai.com", by decide +kernel, by decide⟩
    · exact ⟨"api.anthropic.com", by decide +kernel, by decide⟩
    · exact ⟨"openrouter.ai", by decide +kernel, by decide⟩
    · exact ⟨"api.typesafe.ai", by decide +kernel, by decide⟩

theorem answering_obliging (op : SetupOp) : Obliging ⟨op, (answering op ()).1⟩ := by
  cases op with
  | net op =>
    cases op with
    | lookup host => exact ⟨_, rfl, by simp, by decide⟩
    | _ => trivial
  | hostname => exact ⟨_, rfl, by decide⟩
  | mark check => trivial
  | disconnect => trivial
  | _ => rfl

/-- Both configurations are accepted; that with a credential for the provider is built. -/
theorem credential_decides :
    (validate (configOptions hookFormats (envOf "secret")) hooked = .ok () ∧
        Buildable hooksLibrary (envOf "secret") hooked) ∧
      validate (configOptions hookFormats (envOf " ")) hooked = .ok () ∧
        ¬Buildable hooksLibrary (envOf " ") hooked := by
  have hbytes : ∀ destination ∈ hooked.notifications.destinations,
      destination.maxResponseBytes < 2 ^ 63 := by
    decide +kernel
  have hiff : ∀ credential,
      validate (configOptions hookFormats (envOf credential)) hooked = .ok () →
        ((∃ production, started credential = .ok production) ↔
          Buildable hooksLibrary (envOf credential) hooked) :=
    fun credential hvalid => newProduction_ok_iff hooks_agree hvalid hbytes
      (starting_does credential) (forall_mem_trace (fun op _ => answering_obliging op) _ _)
  have hsecret : validate (configOptions hookFormats (envOf "secret")) hooked = .ok () :=
    ok_of_toOption (by decide +kernel)
  have hblank : validate (configOptions hookFormats (envOf " ")) hooked = .ok () :=
    ok_of_toOption (by decide +kernel)
  refine ⟨⟨hsecret, (hiff _ hsecret).mp ⟨_, started_eq⟩⟩, hblank, fun hbuildable => ?_⟩
  obtain ⟨production, hstarted⟩ := (hiff _ hblank).mpr hbuildable
  have hfailed : (started " ").toOption.isSome = false := by decide +kernel
  rw [hstarted] at hfailed
  cases hfailed

end Example

end RuleRaven.App
