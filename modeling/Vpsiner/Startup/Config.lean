import Vpsiner.Docker.Controls
import Vpsiner.Lib.IntegerText
import Vpsiner.Model.Basic

/-! The configuration: how it is read from the environment and how the settings page shows it. -/

set_option autoImplicit false

namespace Vpsiner

def toAsciiLowercase (text : String) : String := String.ofList (text.toList.map Char.toLower)

def DockerControlsMode.parse (text : String) : Except String DockerControlsMode :=
  match toAsciiLowercase text with
  | "auto" => .ok .auto
  | "enabled" | "true" | "on" => .ok .enabled
  | "disabled" | "false" | "off" => .ok .disabled
  | _ => .error "()"

def DockerControlsMode.text : DockerControlsMode → String
  | .auto => "auto"
  | .enabled => "enabled"
  | .disabled => "disabled"

end Vpsiner

namespace Vpsiner.Startup

open Lib IntegerText

def envDockerHost : String := "VPSINER_DOCKER_HOST"
def envDockerTimeoutSecs : String := "VPSINER_DOCKER_TIMEOUT_SECS"
def envDockerRequestTimeoutSecs : String := "VPSINER_DOCKER_REQUEST_TIMEOUT_SECS"
def envDataPath : String := "VPSINER_DATA_PATH"
def envConfigPath : String := "VPSINER_CONFIG_PATH"
def envStaticDir : String := "VPSINER_STATIC_DIR"
def envPort : String := "VPSINER_PORT"
def envRetentionWeeks : String := "VPSINER_RETENTION_WEEKS"
def envCollectIntervalSecs : String := "VPSINER_COLLECT_INTERVAL_SECS"
def envLogFlushDebounceMs : String := "VPSINER_LOG_FLUSH_DEBOUNCE_MS"
def envLogFlushKeepAliveSecs : String := "VPSINER_LOG_FLUSH_KEEP_ALIVE_SECS"
def envLogMaxBufferedLines : String := "VPSINER_LOG_MAX_BUFFERED_LINES"
def envDockerControls : String := "VPSINER_DOCKER_CONTROLS"
def envDockerProbeIntervalSecs : String := "VPSINER_DOCKER_PROBE_INTERVAL_SECS"
def envDockerRetrySecs : String := "VPSINER_DOCKER_RETRY_SECS"
def envDockerRequestConcurrency : String := "VPSINER_DOCKER_REQUEST_CONCURRENCY"
def envDockerDebounceMs : String := "VPSINER_DOCKER_DEBOUNCE_MS"
def envLogChannelCapacity : String := "VPSINER_LOG_CHANNEL_CAPACITY"
def envSamplesChannelCapacity : String := "VPSINER_SAMPLES_CHANNEL_CAPACITY"
def envDockerEventsChannelCapacity : String := "VPSINER_DOCKER_EVENTS_CHANNEL_CAPACITY"
def envSqliteCacheSizeKb : String := "VPSINER_SQLITE_CACHE_SIZE_KB"
def envSqliteBusyTimeoutMs : String := "VPSINER_SQLITE_BUSY_TIMEOUT_MS"
def envSqliteKeepAliveSecs : String := "VPSINER_SQLITE_KEEP_ALIVE_SECS"
def envDownsampleMaxGapPct : String := "VPSINER_DOWNSAMPLE_MAX_GAP_PCT"
/-- Not part of the configuration, like the filter below. -/
def envWorkerThreads : String := "VPSINER_WORKER_THREADS"
def defaultDockerHost : String := "unix:///var/run/docker.sock"
def defaultDockerTimeoutSecs : Nat := 60
def defaultDockerRequestTimeoutSecs : Nat := 5
def defaultDataPath : String := "data"
def defaultConfigPath : String := "config"
def defaultPort : Nat := 3000
def defaultRetentionWeeks : Nat := 4
def defaultCollectIntervalSecs : Nat := 5
/-- The finest bucket that is stored. -/
def maxCollectIntervalSecs : Nat := 10
def defaultLogFlushDebounceMs : Nat := 500
def defaultLogFlushKeepAliveSecs : Nat := 60
def defaultLogMaxBufferedLines : Nat := 100
def defaultDockerControls : DockerControlsMode := .auto
def defaultDockerProbeIntervalSecs : Nat := 15
def defaultDockerRetrySecs : Nat := 5
def defaultDockerRequestConcurrency : Nat := 8
def defaultDockerDebounceMs : Nat := 1000
def defaultLogChannelCapacity : Nat := 1000
def defaultSamplesChannelCapacity : Nat := 32
def defaultDockerEventsChannelCapacity : Nat := 256
def defaultSqliteCacheSizeKb : Nat := 1024
def defaultSqliteBusyTimeoutMs : Nat := 5000
def defaultSqliteKeepAliveSecs : Nat := 300
def defaultDownsampleMaxGapPct : Nat := 40
def defaultWorkerThreads : Nat := 2

/-! ## Variables -/

abbrev Env := String → Option String

def u64Max : Nat := 2 ^ 64 - 1
def u32Max : Nat := 2 ^ 32 - 1
def u16Max : Nat := 2 ^ 16 - 1
def u8Max : Nat := 2 ^ 8 - 1
def usizeMax : Nat := 2 ^ 64 - 1

def intErrorText : IntErrorKind → String
  | .empty => "ParseIntError \x7b kind: Empty \x7d"
  | .invalidDigit => "ParseIntError \x7b kind: InvalidDigit \x7d"
  | .posOverflow => "ParseIntError \x7b kind: PosOverflow \x7d"

/-- An unsigned number, or the text of the error. -/
def parseNumber (most : Nat) (text : String) : Except String Nat :=
  (readUnsigned most text.toList).mapError intErrorText

def envOr (env : Env) (key default : String) : String := (env key).getD default

def panicked {α : Type} (message : String) : AppResult α := .error (.panic message)

def parseOr {α : Type} (parse : String → Except String α) (env : Env) (key : String)
    (default : α) : AppResult α :=
  match env key with
  | none => .ok default
  | some value =>
      match parse value with
      | .ok parsed => .ok parsed
      | .error err => panicked s!"{key} must be a valid value, got '{value}': {err}"

def parsePositiveOr (most : Nat) (env : Env) (key : String) (default : Nat) : AppResult Nat := do
  let parsed ← parseOr (parseNumber most) env key default
  if 0 < parsed then return parsed
  else panicked s!"{key} must be a positive integer, got: {parsed}"

def parsePositiveU64Or : Env → String → Nat → AppResult Nat := parsePositiveOr u64Max
def parsePositiveUsizeOr : Env → String → Nat → AppResult Nat := parsePositiveOr usizeMax
def parsePositiveU16Or : Env → String → Nat → AppResult Nat := parsePositiveOr u16Max

def parseBoundedU64Or (env : Env) (key : String) (default max : Nat) : AppResult Nat := do
  let parsed ← parsePositiveU64Or env key default
  if parsed ≤ max then return parsed
  else panicked s!"{key} must be at most {max}, got: {parsed}"

def parsePercentOr (env : Env) (key : String) (default : Nat) : AppResult Nat := do
  let parsed ← parseOr (parseNumber u8Max) env key default
  if parsed ≤ 100 then return parsed
  else panicked s!"{key} must be between 0 and 100, got: {parsed}"

/-! ## Configuration -/

/-- In milliseconds. -/
abbrev Duration := Nat

def fromSecs (secs : Nat) : Duration := secs * 1000
def asSecs (duration : Duration) : Nat := duration / 1000

structure Config where
  dockerHost : String
  dockerTimeoutSecs : Nat
  dockerRequestTimeoutSecs : Nat
  dataPath : String
  configPath : String
  staticDir : Option String
  port : Nat
  retentionWeeks : Nat
  collectInterval : Duration
  logFlushDebounce : Duration
  logFlushKeepAlive : Duration
  logMaxBufferedLines : Nat
  dockerControlsMode : DockerControlsMode
  dockerProbeInterval : Duration
  dockerRetryDelay : Duration
  dockerRequestConcurrency : Nat
  dockerDebounce : Duration
  logChannelCapacity : Nat
  samplesChannelCapacity : Nat
  dockerEventsChannelCapacity : Nat
  sqliteCacheSizeKb : Nat
  sqliteBusyTimeout : Duration
  sqliteKeepAlive : Duration
  downsampleMaxGapPct : Nat
deriving DecidableEq, Repr

def Config.fromEnv (env : Env) : AppResult Config := do
  return {
    dockerHost := envOr env envDockerHost defaultDockerHost
    dockerTimeoutSecs := ← parsePositiveU64Or env envDockerTimeoutSecs defaultDockerTimeoutSecs
    dockerRequestTimeoutSecs :=
      ← parsePositiveU64Or env envDockerRequestTimeoutSecs defaultDockerRequestTimeoutSecs
    dataPath := envOr env envDataPath defaultDataPath
    configPath := envOr env envConfigPath defaultConfigPath
    staticDir := env envStaticDir
    port := ← parsePositiveU16Or env envPort defaultPort
    retentionWeeks := ← parseOr (parseNumber u32Max) env envRetentionWeeks defaultRetentionWeeks
    collectInterval :=
      fromSecs (← parseBoundedU64Or env envCollectIntervalSecs defaultCollectIntervalSecs
        maxCollectIntervalSecs)
    logFlushDebounce :=
      ← parseOr (parseNumber u64Max) env envLogFlushDebounceMs defaultLogFlushDebounceMs
    logFlushKeepAlive :=
      fromSecs (← parsePositiveU64Or env envLogFlushKeepAliveSecs defaultLogFlushKeepAliveSecs)
    logMaxBufferedLines :=
      ← parsePositiveUsizeOr env envLogMaxBufferedLines defaultLogMaxBufferedLines
    dockerControlsMode :=
      ← parseOr DockerControlsMode.parse env envDockerControls defaultDockerControls
    dockerProbeInterval :=
      fromSecs (← parsePositiveU64Or env envDockerProbeIntervalSecs defaultDockerProbeIntervalSecs)
    dockerRetryDelay :=
      fromSecs (← parsePositiveU64Or env envDockerRetrySecs defaultDockerRetrySecs)
    dockerRequestConcurrency :=
      ← parsePositiveUsizeOr env envDockerRequestConcurrency defaultDockerRequestConcurrency
    dockerDebounce := ← parseOr (parseNumber u64Max) env envDockerDebounceMs defaultDockerDebounceMs
    logChannelCapacity := ← parsePositiveUsizeOr env envLogChannelCapacity defaultLogChannelCapacity
    samplesChannelCapacity :=
      ← parsePositiveUsizeOr env envSamplesChannelCapacity defaultSamplesChannelCapacity
    dockerEventsChannelCapacity :=
      ← parsePositiveUsizeOr env envDockerEventsChannelCapacity defaultDockerEventsChannelCapacity
    sqliteCacheSizeKb := ← parsePositiveU64Or env envSqliteCacheSizeKb defaultSqliteCacheSizeKb
    sqliteBusyTimeout := ← parsePositiveU64Or env envSqliteBusyTimeoutMs defaultSqliteBusyTimeoutMs
    sqliteKeepAlive :=
      fromSecs (← parsePositiveU64Or env envSqliteKeepAliveSecs defaultSqliteKeepAliveSecs)
    downsampleMaxGapPct := ← parsePercentOr env envDownsampleMaxGapPct defaultDownsampleMaxGapPct }

/-! ## Settings -/

structure SettingEntry where
  name : String
  value : String
  default : String
  description : String
  category : String
  overridden : Bool
deriving DecidableEq, Repr

def workerThreadLimitFromEnv (env : Env) : AppResult Nat :=
  parsePositiveUsizeOr env envWorkerThreads defaultWorkerThreads

def configuredWorkerThreads (availableParallelism : Nat) (env : Env) : AppResult Nat := do
  return min (max availableParallelism 1) (← workerThreadLimitFromEnv env)

/-- What `main` reads, in its order: the threads of the runtime, and on it the configuration. -/
def settingsFromEnv (availableParallelism : Nat) (env : Env) : AppResult (Nat × Config) := do
  return (← configuredWorkerThreads availableParallelism env, ← Config.fromEnv env)

end Vpsiner.Startup
