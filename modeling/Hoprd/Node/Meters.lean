import Hoprd.Node.Telemetry

/-!
# Meter providers (`hoprd/src/telemetry.rs`)

`init_logger` builds a provider for each prefix with an interval of its own, where metrics are
exported, and then the default one. The providers of the prefixes that do not start with
`hopr_session`, and the default one, are built with a clone of the Prometheus exporter.

* `fromEnv_withIntervals`: what is exported does not depend on the intervals.
* `prefixes_initLogger`: the prefixes of the value have providers, where metrics are exported.
* `withExporter_initLogger`: the first provider built with the exporter is that of the first
  prefix that is not one of sessions, and the default one where there is none.
-/
namespace Hoprd.Telemetry

open Text

/-! ## What is exported -/

/-- mirrors hoprd/src/telemetry.rs:24-37 -/
inductive OtlpSignal where
  | traces
  | logs
  | metrics
  deriving DecidableEq, Repr

/-- The names that `strum` reads. -/
def OtlpSignal.fromStr (s : List Char) : Option OtlpSignal :=
  if s = "traces".toList then some .traces
  else if s = "logs".toList then some .logs
  else if s = "metrics".toList then some .metrics
  else none

/-- mirrors hoprd/src/telemetry.rs:39-46 -/
inductive OtlpTransport where
  | grpc
  | http
  deriving DecidableEq, Repr

def LEGACY_OTLP_ENDPOINT_ENV_KEY : String := "OTEL_EXPORTER_OTLP_ENDPOINT"

def HOPRD_OTLP_ENDPOINT_ENV_KEY : String := "HOPRD_OTLP_ENDPOINT"

/-- `std::env::set_var`. -/
def setVar (env : Env) (key value : String) : Env := fun k => if k = key then .ok value else env k

/-- What `split_once("://")` leaves before the separator. -/
def schemeOf : List Char → Option (List Char)
  | [] => none
  | c :: s => if "://".toList <+: c :: s then some [] else (schemeOf s).map (c :: ·)

/-- mirrors hoprd/src/telemetry.rs:48-62 -/
def OtlpTransport.fromEnv (env : Env) : OtlpTransport :=
  match env LEGACY_OTLP_ENDPOINT_ENV_KEY with
  | .ok rawUrl =>
    let scheme := (schemeOf (trim rawUrl.toList)).getD []
    if scheme = "http".toList ∨ scheme = "https".toList then .http else .grpc
  | .error _ => .grpc

/-- mirrors hoprd/src/telemetry.rs:64-69 -/
structure OtlpConfig where
  enabled : Bool
  transport : OtlpTransport
  signals : List OtlpSignal
  deriving DecidableEq, Repr

/-- mirrors hoprd/src/telemetry.rs:71-97 -/
def applyHoprdOtlpEndpointOverride (env : Env) : Env :=
  match env HOPRD_OTLP_ENDPOINT_ENV_KEY with
  | .error _ => env
  | .ok value =>
    let endpoint := trim value.toList
    if endpoint.isEmpty then env
    else setVar env LEGACY_OTLP_ENDPOINT_ENV_KEY (.ofList endpoint)

def isTrueWord (s : List Char) : Bool :=
  s = "1".toList || s = "true".toList || s = "yes".toList || s = "on".toList

def isFalseWord (s : List Char) : Bool :=
  s = "0".toList || s = "false".toList || s = "no".toList || s = "off".toList

/-- Without a word in `HOPRD_USE_OPENTELEMETRY`, an endpoint turns the export on. -/
def otlpEnabled (env : Env) : Bool :=
  let byEndpoint := match env HOPRD_OTLP_ENDPOINT_ENV_KEY with
    | .ok endpoint => !(trim endpoint.toList).isEmpty
    | .error _ => false
  match env "HOPRD_USE_OPENTELEMETRY" with
  | .ok use =>
    let normalised := (trim use.toList).map Char.toLower
    if isTrueWord normalised then true
    else if isFalseWord normalised then false
    else byEndpoint
  | .error _ => byEndpoint

/-- Signals that are not known are logged and skipped; without any it is traces. -/
def otlpSignals (env : Env) : List OtlpSignal :=
  match env "HOPRD_OTEL_SIGNALS" with
  | .ok rawSignals =>
    let signals := (rawSignals.toList.splitOn ',').filterMap fun s => OtlpSignal.fromStr (trim s)
    if signals.isEmpty then [.traces] else signals
  | .error _ => [.traces]

/-- mirrors hoprd/src/telemetry.rs:138-201 -/
def OtlpConfig.fromEnv (env : Env) : OtlpConfig where
  enabled := otlpEnabled env
  transport := OtlpTransport.fromEnv env
  signals := otlpSignals env

def OtlpConfig.hasSignal (config : OtlpConfig) (signal : OtlpSignal) : Bool :=
  config.signals.contains signal

/-! ## Providers -/

inductive Provider where
  | default
  | prefixed (name : String)
  deriving DecidableEq, Repr

/-- The intervals of the export over OTLP, that of the default provider and those of the
prefixes, and the providers built with a clone of the Prometheus exporter, in this order. -/
structure Meters where
  exportInterval : Option Duration
  prefixed : List (String × Duration)
  withExporter : List Provider
  deriving DecidableEq, Repr

/-- mirrors hoprd/src/telemetry.rs:614 -/
def isSessionPrefix (name : String) : Bool := "hopr_session".toList.isPrefixOf name.toList

/-- The meters of `init_logger`.
mirrors hoprd/src/telemetry.rs:483-751 -/
def initLogger (env : Env) : Meters :=
  let env := applyHoprdOtlpEndpointOverride env
  let config := OtlpConfig.fromEnv env
  if config.enabled && config.hasSignal .metrics then
    let intervals := parseMetricExportIntervalConfigFromEnv env
    let prefixed := (intervals.map MetricExportIntervalConfig.prefixIntervals).getD []
    { exportInterval := some ((intervals.bind MetricExportIntervalConfig.defaultInterval).getD
        (Duration.fromSecs 60))
      prefixed := prefixed
      -- the loop over the prefixes comes before the default provider
      withExporter := ((prefixed.map Prod.fst).filter fun name => !isSessionPrefix name).map
        Provider.prefixed ++ [.default] }
  else ⟨none, [], [.default]⟩

/-- The prefixes that have a provider. -/
def Meters.prefixes (meters : Meters) : List String := meters.prefixed.map Prod.fst

/-! ## The part of the intervals -/

/-- The environment with this value of `HOPRD_METRIC_EXPORT_INTERVAL`, or without. -/
def withIntervals (env : Env) (value : Except VarError String) : Env :=
  fun key => if key = METRIC_EXPORT_INTERVAL_ENV_KEY then value else env key

/-- The prefixes that a value configures. -/
def prefixesOf (value : Except VarError String) : List String :=
  (((parseMetricExportIntervalConfigFromEnv fun _ => value).map
    MetricExportIntervalConfig.prefixIntervals).getD []).map Prod.fst

/-- The first prefix of the value that is not one of sessions. -/
def readPrefix (value : Except VarError String) : Option String :=
  (prefixesOf value).find? fun name => !isSessionPrefix name

/-- Metrics are exported over OTLP. -/
def exportsMetrics (env : Env) : Bool :=
  let config := OtlpConfig.fromEnv (applyHoprdOtlpEndpointOverride env)
  config.enabled && config.hasSignal .metrics

section
variable (env : Env) (value : Except VarError String)

theorem withIntervals_of_ne {key : String} (h : key ≠ METRIC_EXPORT_INTERVAL_ENV_KEY) :
    withIntervals env value key = env key := if_neg h

theorem setVar_withIntervals {key : String} (h : key ≠ METRIC_EXPORT_INTERVAL_ENV_KEY)
    (v : String) :
    setVar (withIntervals env value) key v = withIntervals (setVar env key v) value := by
  funext k
  by_cases hk : k = key
  · subst hk
    simp [setVar, withIntervals, h]
  · simp [setVar, withIntervals, hk]

theorem override_withIntervals : applyHoprdOtlpEndpointOverride (withIntervals env value) =
    withIntervals (applyHoprdOtlpEndpointOverride env) value := by
  unfold applyHoprdOtlpEndpointOverride
  rw [withIntervals_of_ne env value (by decide)]
  cases env HOPRD_OTLP_ENDPOINT_ENV_KEY with
  | error _ => rfl
  | ok endpoint =>
    dsimp only
    split
    · rfl
    · exact setVar_withIntervals env value (by decide) _

/-- What is exported, and how, does not depend on the intervals. -/
theorem fromEnv_withIntervals :
    OtlpConfig.fromEnv (withIntervals env value) = OtlpConfig.fromEnv env := by
  have hne : ∀ key, key ≠ METRIC_EXPORT_INTERVAL_ENV_KEY →
      withIntervals env value key = env key := fun _ => withIntervals_of_ne env value
  unfold OtlpConfig.fromEnv otlpEnabled OtlpTransport.fromEnv otlpSignals
  rw [hne _ (by decide), hne _ (by decide), hne _ (by decide), hne _ (by decide)]

theorem parse_withIntervals : parseMetricExportIntervalConfigFromEnv (withIntervals env value) =
    parseMetricExportIntervalConfigFromEnv fun _ => value := by
  unfold parseMetricExportIntervalConfigFromEnv withIntervals
  rw [if_pos rfl]

/-- The prefixes of the value have providers, where metrics are exported. -/
theorem prefixes_initLogger : (initLogger (withIntervals env value)).prefixes =
    if exportsMetrics env then prefixesOf value else [] := by
  unfold initLogger exportsMetrics
  dsimp only
  rw [override_withIntervals, fromEnv_withIntervals, parse_withIntervals]
  split <;> rfl

/-- The first provider that is built with the exporter. -/
theorem withExporter_initLogger : ∃ rest, (initLogger (withIntervals env value)).withExporter =
    (if exportsMetrics env then (readPrefix value).elim .default .prefixed else .default) ::
      rest := by
  have hfirst : ∀ names : List String, ∃ rest,
      (names.filter fun name => !isSessionPrefix name).map Provider.prefixed ++ [.default] =
        (names.find? fun name => !isSessionPrefix name).elim .default .prefixed :: rest := by
    intro names
    rw [← List.head?_filter]
    cases names.filter fun name => !isSessionPrefix name with
    | nil => exact ⟨[], rfl⟩
    | cons name names => exact ⟨_, rfl⟩
  unfold initLogger exportsMetrics
  dsimp only
  rw [override_withIntervals, fromEnv_withIntervals, parse_withIntervals]
  split
  · exact hfirst (prefixesOf value)
  · exact ⟨[], rfl⟩

end

end Hoprd.Telemetry
