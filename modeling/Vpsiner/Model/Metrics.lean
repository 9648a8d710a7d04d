import Vpsiner.Model.Basic
import Mathlib.Algebra.Field.Rat

/-! Metrics samples, points and resolutions. The `u64` fields are natural
numbers; the `f64` fields are read as exact rationals. -/

set_option autoImplicit false

namespace Vpsiner

structure HostSample where
  ts : Int
  cpuPctMill : Nat
  memUsed : Nat
  storageUsed : Nat
  metricsSize : Nat
  logsSize : Nat
  netRxRateMill : Option Nat
  netTxRateMill : Option Nat
  diskReadRateMill : Option Nat
  diskWriteRateMill : Option Nat
  logPressurePctMill : Option Nat
  appRssBytes : Option Nat
deriving DecidableEq, Repr

/-- What was read of the host at one moment; its network and disk counters are cumulative. -/
structure HostRawSample where
  ts : Int
  /-- None stands for an `f64` that is not finite. -/
  cpuPct : Option ℚ
  memUsed : Nat
  storageUsed : Nat
  metricsSize : Nat
  logsSize : Nat
  netRx : Nat
  netTx : Nat
  diskRead : Nat
  diskWrite : Nat
  logPressurePctMill : Nat
  appRssBytes : Option Nat
deriving DecidableEq

/-- What the Docker stats of a container said at one moment; its counters are cumulative. -/
structure ContainerRawSample where
  ts : Int
  service : ServiceId
  cid : ContainerId
  cpuUsageNs : Nat
  systemCpuUsageNs : Nat
  cpuCount : Nat
  memUsed : Nat
  netRx : Nat
  netTx : Nat
  blkRead : Nat
  blkWrite : Nat
deriving DecidableEq, Repr

structure ContainerSample where
  ts : Int
  service : ServiceId
  cid : ContainerId
  cpuPctMill : Nat
  memUsed : Nat
  netRxRateMill : Option Nat
  netTxRateMill : Option Nat
  blkReadRateMill : Option Nat
  blkWriteRateMill : Option Nat
deriving DecidableEq, Repr

structure HostPoint where
  ts : Int
  cpuPct : ℚ
  memUsed : Nat
  storageUsed : Nat
  metricsSize : Nat
  logsSize : Nat
  netRxRate : Option ℚ
  netTxRate : Option ℚ
  diskReadRate : Option ℚ
  diskWriteRate : Option ℚ
  logPressurePct : Option ℚ
  appRssBytes : Option Nat
deriving DecidableEq

structure ContainerPoint where
  ts : Int
  service : String
  cpuPct : ℚ
  memUsed : Nat
  netRxRate : Option ℚ
  netTxRate : Option ℚ
  blkReadRate : Option ℚ
  blkWriteRate : Option ℚ
deriving DecidableEq

structure GroupPoint where
  ts : Int
  cpuPct : ℚ := 0
  memUsed : Nat := 0
  netRxRate : Option ℚ := none
  netTxRate : Option ℚ := none
  blkReadRate : Option ℚ := none
  blkWriteRate : Option ℚ := none
deriving DecidableEq

structure ContainerGroupMetrics where
  sum : List GroupPoint := []
  containers : List (ContainerId × List ContainerPoint) := []
deriving DecidableEq

/-- One newly-completed bucket's cross-section. -/
structure ContainerGroupMetricsAppend where
  sum : Option GroupPoint
  containers : List (ContainerId × ContainerPoint)
deriving DecidableEq

/-- Milli-units are the stored form. -/
def fromMill (value : Option Nat) : Option ℚ := value.map fun value => (value : ℚ) / 1000

def HostPoint.fromSample (sample : HostSample) : HostPoint where
  ts := sample.ts
  cpuPct := (sample.cpuPctMill : ℚ) / 1000
  memUsed := sample.memUsed
  storageUsed := sample.storageUsed
  metricsSize := sample.metricsSize
  logsSize := sample.logsSize
  netRxRate := fromMill sample.netRxRateMill
  netTxRate := fromMill sample.netTxRateMill
  diskReadRate := fromMill sample.diskReadRateMill
  diskWriteRate := fromMill sample.diskWriteRateMill
  logPressurePct := fromMill sample.logPressurePctMill
  appRssBytes := sample.appRssBytes

/-- `service` must be the name the sample's `ServiceId` resolves to. -/
def ContainerPoint.fromSample (sample : ContainerSample) (service : String) : ContainerPoint where
  ts := sample.ts
  service
  cpuPct := (sample.cpuPctMill : ℚ) / 1000
  memUsed := sample.memUsed
  netRxRate := fromMill sample.netRxRateMill
  netTxRate := fromMill sample.netTxRateMill
  blkReadRate := fromMill sample.blkReadRateMill
  blkWriteRate := fromMill sample.blkWriteRateMill

@[simp] theorem HostPoint.ts_fromSample (sample : HostSample) :
    (HostPoint.fromSample sample).ts = sample.ts := rfl

@[simp] theorem ContainerPoint.ts_fromSample (sample : ContainerSample) (service : String) :
    (ContainerPoint.fromSample sample service).ts = sample.ts := rfl

inductive MetricsResolution where
  | tenSeconds
  | oneMinute
  | fiveMinutes
  | oneHour
deriving DecidableEq, Repr

namespace MetricsResolution

/-- Resolutions materialised by rolling up the `10s` tables. -/
def coarse : List MetricsResolution := [oneMinute, fiveMinutes, oneHour]

def bucketMs : MetricsResolution → Int
  | tenSeconds => 10000
  | oneMinute => 60000
  | fiveMinutes => 300000
  | oneHour => 3600000

theorem bucketMs_pos (resolution : MetricsResolution) : 0 < resolution.bucketMs := by
  cases resolution <;> decide

def boundaryToleranceMs : Int := 60000

/-- `to.saturating_sub(from)`. -/
def span (range : TimeRange) : Int := max i64Min (min i64Max (range.toMs - range.fromMs))

def forRange (range : TimeRange) : MetricsResolution :=
  if span range ≤ 30 * 60 * 1000 + boundaryToleranceMs then tenSeconds
  else if span range ≤ 3 * 60 * 60 * 1000 + boundaryToleranceMs then oneMinute
  else if span range ≤ 24 * 60 * 60 * 1000 + boundaryToleranceMs then fiveMinutes
  else oneHour

end MetricsResolution

end Vpsiner
