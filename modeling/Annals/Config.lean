import Annals.Journal
import Annals.Text.Blank
import Annals.Time.Span
import Annals.Wire

/-!
# Configuration

The tunables of the background work and the calls to the store: six spans of time, kept in whole
milliseconds, and a cap on the events folded at once. Settings from the environment override the
defaults one by one, and a setting that makes no sense is reported and passed over.
-/

namespace Annals

structure KernelConfig where
  projectionRefreshMillis : UInt64 := 1000
  /-- The most events a refresh folds; absent for no limit. -/
  projectionBatchLimit : Option UInt64 := none
  outboxRelayMillis : UInt64 := 1000
  outboxLeaseMillis : UInt64 := 30000
  brokerServeMillis : UInt64 := 100
  brokerCleanupMillis : UInt64 := 1000
  storeTimeoutMillis : UInt64 := 5000
  deriving DecidableEq

/-- The spans of time in a configuration. -/
inductive Tunable where
  | projectionRefresh
  | outboxRelay
  | outboxLease
  | brokerServe
  | brokerCleanup
  | storeTimeout
  deriving DecidableEq, Repr

namespace Tunable

/-- In the order in which the environment is asked for them. -/
def all : List Tunable :=
  [projectionRefresh, outboxRelay, outboxLease, brokerServe, brokerCleanup, storeTimeout]

def name : Tunable → String
  | projectionRefresh => "projection_refresh_interval"
  | outboxRelay => "outbox_relay_interval"
  | outboxLease => "outbox_lease"
  | brokerServe => "broker_serve_interval"
  | brokerCleanup => "broker_cleanup_interval"
  | storeTimeout => "store_timeout"

def environmentKey : Tunable → String
  | projectionRefresh => "KEEL_PROJECTION_REFRESH_INTERVAL_MS"
  | outboxRelay => "KEEL_OUTBOX_RELAY_INTERVAL_MS"
  | outboxLease => "KEEL_OUTBOX_LEASE_MS"
  | brokerServe => "KEEL_BROKER_SERVE_INTERVAL_MS"
  | brokerCleanup => "KEEL_BROKER_CLEANUP_INTERVAL_MS"
  | storeTimeout => "KEEL_STORE_TIMEOUT_MS"

end Tunable

namespace KernelConfig

def millis (config : KernelConfig) : Tunable → UInt64
  | .projectionRefresh => config.projectionRefreshMillis
  | .outboxRelay => config.outboxRelayMillis
  | .outboxLease => config.outboxLeaseMillis
  | .brokerServe => config.brokerServeMillis
  | .brokerCleanup => config.brokerCleanupMillis
  | .storeTimeout => config.storeTimeoutMillis

def setMillis (config : KernelConfig) (tunable : Tunable) (millis : UInt64) : KernelConfig :=
  match tunable with
  | .projectionRefresh => { config with projectionRefreshMillis := millis }
  | .outboxRelay => { config with outboxRelayMillis := millis }
  | .outboxLease => { config with outboxLeaseMillis := millis }
  | .brokerServe => { config with brokerServeMillis := millis }
  | .brokerCleanup => { config with brokerCleanupMillis := millis }
  | .storeTimeout => { config with storeTimeoutMillis := millis }

def span (config : KernelConfig) (tunable : Tunable) : Nat :=
  Span.millis (config.millis tunable).toNat

/-- Sets a tunable to a span in nanoseconds: parts of a millisecond are dropped, and a span too long
for the field becomes the longest one. -/
def setSpan (config : KernelConfig) (tunable : Tunable) (nanos : Nat) : KernelConfig :=
  config.setMillis tunable (UInt64.ofNat (min (nanos / Span.millis 1) (UInt64.size - 1)))

def setBatchLimit (config : KernelConfig) (limit : Option UInt64) : KernelConfig :=
  { config with projectionBatchLimit := limit }

/-! ### From the environment -/

def batchLimitKey : String := "KEEL_PROJECTION_BATCH_LIMIT"

def readSetting (raw : String) : Except NumeralError UInt64 :=
  readWord (String.ofList (trimBlanks raw.toList))

def zeroSetting (key : String) : Entry :=
  ⟨.warn, "ignoring zero config value", [("key", key)]⟩

def invalidSetting (key raw : String) (error : NumeralError) : Entry :=
  ⟨.warn, "ignoring invalid config value",
    [("key", key), ("value", raw), Entry.errorField error.message]⟩

def overrideTunable (lookup : String → Option String) (config : KernelConfig)
    (tunable : Tunable) : KernelConfig × List Entry :=
  match lookup tunable.environmentKey with
  | none => (config, [])
  | some raw =>
    match readSetting raw with
    | .ok 0 => (config, [zeroSetting tunable.environmentKey])
    | .ok millis => (config.setMillis tunable millis, [])
    | .error error => (config, [invalidSetting tunable.environmentKey raw error])

/-- Overrides the cap on events by its variable, where zero stands for no cap. -/
def overrideBatchLimit (lookup : String → Option String) (config : KernelConfig) :
    KernelConfig × List Entry :=
  match lookup batchLimitKey with
  | none => (config, [])
  | some raw =>
    match readSetting raw with
    | .ok 0 => (config.setBatchLimit none, [])
    | .ok limit => (config.setBatchLimit (some limit), [])
    | .error error => (config, [invalidSetting batchLimitKey raw error])

def overrideTunables (lookup : String → Option String) (config : KernelConfig) :
    List Tunable → KernelConfig × List Entry
  | [] => (config, [])
  | tunable :: tunables =>
    let (config, entries) := overrideTunable lookup config tunable
    let (config, later) := overrideTunables lookup config tunables
    (config, entries ++ later)

/-- The defaults overridden by whatever `lookup` finds, and a warning for each setting passed over. -/
def ofLookup (lookup : String → Option String) : KernelConfig × List Entry :=
  let (config, entries) := overrideTunables lookup {} Tunable.all
  let (config, later) := overrideBatchLimit lookup config
  (config, entries ++ later)

/-! ### On the wire -/

def fieldNames : List String :=
  ["projection_refresh_interval_ms", "projection_batch_limit", "outbox_relay_interval_ms",
    "outbox_lease_ms", "broker_serve_interval_ms", "broker_cleanup_interval_ms",
    "store_timeout_ms"]

def limitToJson : Option UInt64 → Json
  | none => .null
  | some limit => Wire.toJson limit

def limitOfJson? : Json → Option (Option UInt64)
  | .null => some none
  | value => (Wire.ofJson? value).map some

/-- What a field holds: what is given for it, or else its default. -/
def given? {α : Type} (read : Json → Option α) (default : α) : Option Json → Option α
  | none => some default
  | some value => read value

/-- A configuration file may leave out any of the fields. -/
instance : Wire KernelConfig where
  toJson config :=
    .ofRecord
      (fieldNames.zip
        [Wire.toJson config.projectionRefreshMillis, limitToJson config.projectionBatchLimit,
          Wire.toJson config.outboxRelayMillis, Wire.toJson config.outboxLeaseMillis,
          Wire.toJson config.brokerServeMillis, Wire.toJson config.brokerCleanupMillis,
          Wire.toJson config.storeTimeoutMillis])
  ofJson? value := do
    let default : KernelConfig := {}
    match ← Json.fields? fieldNames value with
    | [refresh, limit, relay, lease, serve, cleanup, timeout] =>
      some
        { projectionRefreshMillis :=
            ← given? Wire.ofJson? default.projectionRefreshMillis refresh
          projectionBatchLimit := ← given? limitOfJson? default.projectionBatchLimit limit
          outboxRelayMillis := ← given? Wire.ofJson? default.outboxRelayMillis relay
          outboxLeaseMillis := ← given? Wire.ofJson? default.outboxLeaseMillis lease
          brokerServeMillis := ← given? Wire.ofJson? default.brokerServeMillis serve
          brokerCleanupMillis := ← given? Wire.ofJson? default.brokerCleanupMillis cleanup
          storeTimeoutMillis := ← given? Wire.ofJson? default.storeTimeoutMillis timeout }
    | _ => none
  toBinary config :=
    Wire.toBinary config.projectionRefreshMillis ++
      Binary.writeOptional Wire.toBinary config.projectionBatchLimit ++
      Wire.toBinary config.outboxRelayMillis ++ Wire.toBinary config.outboxLeaseMillis ++
      Wire.toBinary config.brokerServeMillis ++ Wire.toBinary config.brokerCleanupMillis ++
      Wire.toBinary config.storeTimeoutMillis
  ofBinary := do
    pure
      ⟨← Wire.ofBinary, ← Binary.readOptional Wire.ofBinary, ← Wire.ofBinary, ← Wire.ofBinary,
        ← Wire.ofBinary, ← Wire.ofBinary, ← Wire.ofBinary⟩

end KernelConfig

end Annals
