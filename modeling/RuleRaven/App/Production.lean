import RuleRaven.App.Config
import RuleRaven.Controller.Scenario
import RuleRaven.Provider.Jev
import RuleRaven.System.Deletion

namespace RuleRaven.App

open Framework Kube Rules Controller Provider

/-- The keys of the selectors, each at its first occurrence. -/
def selectorKeys : List String → List String → List String
  | _, [] => []
  | seen, selector :: rest =>
    let key := (cut selector '=').1
    if key ∈ seen then selectorKeys seen rest else key :: selectorKeys (key :: seen) rest

def buildNormalizer (cfg : Config) : Normalizer where
  clusterID := cfg.cluster.id
  allowedLabels := sortSlice (· < ·) (selectorKeys [] cfg.rules.ignoredLabels)
  maxBytes := cfg.controller.maxNormalizedStateBytes

/-- The engine of `NewProduction`. -/
def buildEngine (cfg : Config) : Engine := newEngine
  { crashLoopRestartThreshold := cfg.rules.crashLoopRestartThreshold
    crashLoopCriticalThreshold := cfg.rules.crashLoopCriticalThreshold
    minimumAge := cfg.rules.minimumAge
    eventQuietPeriod := cfg.rules.eventQuietPeriod
    ignoredNamespaces := cfg.rules.ignoredNamespaces
    ignoredLabels := cfg.rules.ignoredLabels }

section Reconciler

variable (H : Hasher) (L : Library) (lookupEnv : String → Option String)

def createProvider (cfg : ProviderConfig) (timeout : Duration) : Except ProviderError Client :=
  Provider.createProvider L
    { endpoint := cfg.endpoint
      model := cfg.model
      strictMode := cfg.strictMode
      credential := (lookupEnv cfg.credentialEnv).getD ""
      retry :=
        { maxAttempts := 3, initialBackoff := 250000000, maxBackoff := 2000000000,
          maxRetryAfter := 5000000000, totalTimeout := timeout }
      maxRequestBytes := 262144
      maxResponseBytes := 262144 } cfg.type

/-- The JSON form of a provider's configuration, under the names of its fields. -/
def ProviderConfig.toJson (cfg : ProviderConfig) : Json :=
  .obj [("Type", .str cfg.type), ("Model", .str cfg.model),
    ("CredentialEnv", .str cfg.credentialEnv), ("Endpoint", .str cfg.endpoint),
    ("StrictMode", .str cfg.strictMode)]

def providerConfigHash (cfg : DecisionConfig) : String :=
  "sha256:" ++ H.hex (Json.obj ([("primary", cfg.primary.toJson)] ++
    match cfg.fallback with
    | none => []
    | some fallback => [("fallback", fallback.toJson)])).marshal

def buildProviders (cfg : DecisionConfig) : Except Err (Client × Option Client × String) :=
  match createProvider L lookupEnv cfg.primary cfg.timeout with
  | .error err => .error (err.toErr.wrap "create primary provider")
  | .ok primary =>
    match cfg.fallback with
    | none => .ok (primary, none, providerConfigHash H cfg)
    | some config =>
      match createProvider L lookupEnv config cfg.timeout with
      | .error err => .error (err.toErr.wrap "create fallback provider")
      | .ok fallback => .ok (primary, some fallback, providerConfigHash H cfg)

/-- The reconciler of `NewProduction`, with the providers that it asks. Its destinations are
those for which notifiers were built. -/
def buildReconciler (cfg : Config) : Except Err (Reconciler × Client × Option Client) :=
  match buildProviders H L lookupEnv cfg.decision with
  | .error err => .error err
  | .ok (primary, fallback, providerHash) =>
    match newReconciler
        { clusterID := cfg.cluster.id
          normalizer := buildNormalizer cfg
          rules := buildEngine cfg
          primary := some primary.endpoint.name
          fallback := fallback.map fun client => client.endpoint.name
          composer := Triage.newComposer
          providerConfigHash := providerHash
          destinations :=
            sortSlice (· < ·) (cfg.notifications.destinations.map DestinationConfig.id)
          reconcileTimeout := cfg.controller.reconcileTimeout
          eventQuietPeriod := cfg.rules.eventQuietPeriod } with
    | .error err => .error err
    | .ok r => .ok (r, primary, fallback)

variable {H L lookupEnv}

/-- Production wires what it builds: one cluster ID, one list of selectors, the composer of
`NewComposer`. -/
theorem buildReconciler_wired {cfg : Config} {r : Reconciler} {clients : Client × Option Client}
    (h : buildReconciler H L lookupEnv cfg = .ok (r, clients)) :
    r.Wired ∧ r.normalizer = buildNormalizer cfg ∧ r.rules = buildEngine cfg := by
  unfold buildReconciler at h
  cases hproviders : buildProviders H L lookupEnv cfg.decision with
  | error err => simp [hproviders] at h
  | ok built =>
    obtain ⟨primary, fallback, providerHash⟩ := built
    simp only [hproviders] at h
    split at h
    · cases h
    · rename_i built hbuilt
      cases h
      obtain ⟨hcluster, hnormalizer, hrules, hcomposer, -⟩ := newReconciler_eq_ok hbuilt
      exact ⟨⟨by rw [hnormalizer, hcluster]; rfl, hcomposer⟩, hnormalizer, hrules⟩

end Reconciler

section Labels

theorem mem_selectorKeys {seen selectors : List String} {key : String} :
    key ∈ selectorKeys seen selectors ↔
      key ∉ seen ∧ ∃ selector ∈ selectors, (cut selector '=').1 = key := by
  induction selectors generalizing seen with
  | nil => simp [selectorKeys]
  | cons selector selectors ih =>
    unfold selectorKeys
    dsimp only
    by_cases hseen : (cut selector '=').1 ∈ seen
    · rw [if_pos hseen, ih]
      simp only [List.exists_mem_cons_iff]
      refine and_congr_right fun hkey => ?_
      have hne : (cut selector '=').1 ≠ key := fun heq => hkey (heq ▸ hseen)
      simp [hne]
    · rw [if_neg hseen, List.mem_cons, ih]
      simp only [List.mem_cons, not_or]
      by_cases heq : key = (cut selector '=').1
      · subst heq
        simp [hseen]
      · simp [heq, Ne.symm heq]

theorem mem_allowedLabels {cfg : Config} {key : String} :
    key ∈ (buildNormalizer cfg).allowedLabels ↔
      ∃ selector ∈ cfg.rules.ignoredLabels, (cut selector '=').1 = key := by
  have hperm := sortSlice_perm (fun a b : String => decide (a < b))
    (selectorKeys [] cfg.rules.ignoredLabels)
  show key ∈ sortSlice _ _ ↔ _
  rw [hperm.mem_iff, mem_selectorKeys]
  simp

end Labels

/-- Under every accepted configuration, an object is suppressed exactly when its namespace is
ignored or a selector asks for one of its labels under a key that does not look like the name of
a credential. -/
theorem ignored_label_suppresses_iff (H : Hasher) (options : Options) (cfg : Config)
    (hvalid : validate options cfg = .ok ()) (object : Object) (observedAt now : Time)
    (snapshot : Snapshot) (previous : Option Incident)
    (hnormal : (buildNormalizer cfg).normalize H object observedAt = .ok snapshot) :
    ((buildEngine cfg).evaluate now snapshot previous).disposition = .suppress ↔
      object.header.metadata.namespace ∈ cfg.rules.ignoredNamespaces ∨
        ∃ selector ∈ cfg.rules.ignoredLabels, ∃ key,
          Selects object.header.metadata.labels selector key ∧ isSensitiveKey key = false := by
  have hselector : ∀ selector ∈ cfg.rules.ignoredLabels,
      validateSelector options.toFormats selector = .ok () := by
    intro selector hmem
    have hlabels := firstError_ok hvalid
      (firstError (cfg.rules.ignoredLabels.map (validateSelector options.toFormats))) (by simp)
    exact firstError_ok hlabels _ (List.mem_map_of_mem hmem)
  obtain ⟨described, hdescribed, hs, -⟩ := Normalizer.normalize_eq_ok hnormal
  obtain ⟨hlabels, hns⟩ := Normalizer.describe_labels hdescribed
  have hlookup : ∀ key actual, snapshot.labels.lookup key = some actual ↔
      (key ∈ (buildNormalizer cfg).allowedLabels ∧ isSensitiveKey key = false) ∧
        object.header.metadata.labels.lookup key = some actual := by
    intro key actual
    rw [hs]
    show described.labels.lookup key = some actual ↔ _
    rw [hlabels, Normalizer.labels, StrMap.lookup_filterKeys]
    simp
  have hnamespace : snapshot.source.namespace = object.header.metadata.namespace := by
    rw [hs]
    exact hns
  have hnamespaces := sortSlice_perm (fun a b : String => decide (a < b))
    cfg.rules.ignoredNamespaces
  have hselectors := sortSlice_perm (fun a b : String => decide (a < b)) cfg.rules.ignoredLabels
  rw [Engine.suppress_iff, Engine.ignoredReason_isSome, hnamespace]
  refine or_congr hnamespaces.mem_iff ?_
  refine exists_congr fun selector => ?_
  have hmem : selector ∈ (buildEngine cfg).options.ignoredLabels ↔
      selector ∈ cfg.rules.ignoredLabels := hselectors.mem_iff
  rw [hmem]
  refine and_congr_right fun hignored => ?_
  simp only [selects_iff (hselector selector hignored), hlookup, mem_allowedLabels]
  constructor
  · intro h
    obtain ⟨actual, ⟨⟨-, hplain⟩, hactual⟩, hvalue⟩ := h
    exact ⟨_, ⟨rfl, actual, hactual, hvalue⟩, hplain⟩
  · intro h
    obtain ⟨key, ⟨rfl, actual, hactual, hvalue⟩, hplain⟩ := h
    exact ⟨actual, ⟨⟨⟨selector, hignored, rfl⟩, hplain⟩, hactual⟩, hvalue⟩

namespace Scenario

open Controller.Scenario

/-- A complete configuration that ignores one label. -/
def settings (selector : String) : Config where
  version := "v1alpha1"
  cluster := { id := "c", clusterWide := true, resources := ["jobs"] }
  controller := ⟨1, 30000000000, 65536⟩
  mongo := ⟨"MONGO_URI", "ruleraven", 10000000000⟩
  rules :=
    { crashLoopRestartThreshold := 3, crashLoopCriticalThreshold := 10, minimumAge := 60000000000,
      eventQuietPeriod := 600000000000, ignoredLabels := [selector] }
  decision := { primary := ⟨"typesafe", "jev-latest", "JEV_KEY", "", ""⟩, timeout := 20000000000 }
  notifications := { retry := ⟨5, 1000000000, 60000000000⟩ }
  http := ⟨5000000000, 5000000000, 60000000000⟩
  loggingLevel := "info"

def environment : Options where
  toFormats := Selector.formats (fun _ => none) fun _ => none
  lookupEnv := some fun _ => some "value"
  providerTypes := ["typesafe"]
  notifierTypes := ["webhook"]

/-- A failed job with one label. -/
def labelled (key value : String) : Object := job 1 ⟨[(key, value)], List.pairwise_singleton _ _⟩

end Scenario

open App.Scenario Controller.Scenario

/-- A job that carries the configured label is suppressed. -/
theorem muted_job_suppressed :
    ∃ snapshot, validate environment (settings "mute=on") = .ok () ∧
      (buildNormalizer (settings "mute=on")).normalize checksumHasher (labelled "mute" "on") noon =
        .ok snapshot ∧
      ((buildEngine (settings "mute=on")).evaluate noon snapshot none).disposition = .suppress := by
  have hvalid : validate environment (settings "mute=on") = .ok () :=
    ok_of_toOption (by decide +kernel)
  have hsome : ((buildNormalizer (settings "mute=on")).normalize checksumHasher
      (labelled "mute" "on") noon).toOption.isSome = true := by decide +kernel
  obtain ⟨snapshot, hsnapshot⟩ := Option.isSome_iff_exists.mp hsome
  have hnormal := ok_of_toOption hsnapshot
  have hselects : Selects (labelled "mute" "on").header.metadata.labels ("mute" ++ "=" ++ "on")
      "mute" := .pair (by decide +kernel)
  refine ⟨snapshot, hvalid, hnormal, ?_⟩
  refine (ignored_label_suppresses_iff checksumHasher environment (settings "mute=on") hvalid
    (labelled "mute" "on") noon noon snapshot none hnormal).mpr (Or.inr ?_)
  exact ⟨"mute=on", by decide, "mute", hselects, by decide +kernel⟩

/-- A label whose key contains the name of a credential never reaches the engine: the selector is
accepted, the job carries the label, and its failure is decided and told all the same. -/
theorem sensitive_selector_unheeded :
    ∃ snapshot, validate environment (settings "secret-rotation=enabled") = .ok () ∧
      Selects (labelled "secret-rotation" "enabled").header.metadata.labels
        ("secret-rotation" ++ "=" ++ "enabled") "secret-rotation" ∧
      (buildNormalizer (settings "secret-rotation=enabled")).normalize checksumHasher
        (labelled "secret-rotation" "enabled") noon = .ok snapshot ∧
      ((buildEngine (settings "secret-rotation=enabled")).evaluate noon snapshot none).disposition =
        .terminal := by
  have hvalid : validate environment (settings "secret-rotation=enabled") = .ok () :=
    ok_of_toOption (by decide +kernel)
  have hdecided : ((buildNormalizer (settings "secret-rotation=enabled")).normalize checksumHasher
      (labelled "secret-rotation" "enabled") noon).toOption.any (fun snapshot =>
        decide (((buildEngine (settings "secret-rotation=enabled")).evaluate noon snapshot
          none).disposition = .terminal)) = true := by decide +kernel
  obtain ⟨snapshot, hsnapshot, hterminal⟩ := (Option.any_eq_true _ _).mp hdecided
  exact ⟨snapshot, hvalid, .pair (by decide +kernel), ok_of_toOption hsnapshot,
    of_decide_eq_true hterminal⟩

end RuleRaven.App
