import Vpsiner.Lib.GroupedFold
import Vpsiner.Lib.HashOrder
import Vpsiner.Model.Metrics
import Mathlib.Data.List.Sort

/-! Aggregates stored 10s samples into the coarser buckets held by the rollup
tables. Sums are `u128` in the source and natural numbers here. -/

set_option autoImplicit false

namespace Vpsiner.Metrics

/-- The end of the half-open `(bucketEnd - bucketMs, bucketEnd]` window containing `ts`. -/
def bucketEnd (ts : Int) (bucketMs : Int) : Int :=
  -(-ts / bucketMs) * bucketMs

/-- The cast `as u64`. -/
def asU64 (value : Nat) : Nat := value % 2 ^ 64

/-- The largest silence between present samples. -/
structure GapTracker where
  firstTs : Option Int := none
  lastTs : Option Int := none
  maxInteriorGap : Int := 0
deriving DecidableEq, Repr

namespace GapTracker

def observe (gap : GapTracker) (ts : Int) : GapTracker where
  firstTs := some (gap.firstTs.getD ts)
  lastTs := some ts
  maxInteriorGap :=
    match gap.lastTs with
    | some lastTs => max gap.maxInteriorGap (ts - lastTs)
    | none => gap.maxInteriorGap

/-- Called only after a sample was observed, so that neither `expect` of the
source can fail; the default `0` stands for those panics. -/
def exceedsMaxGap (gap : GapTracker) (bucketEnd : Int) (bucketMs : Int)
    (maxGapPct : Nat) : Bool :=
  let bucketStart := bucketEnd - bucketMs
  let edgeStart := gap.firstTs.getD 0 - bucketStart
  let edgeEnd := bucketEnd - gap.lastTs.getD 0
  let observedMax := max (max gap.maxInteriorGap edgeStart) edgeEnd
  let threshold := bucketMs * maxGapPct / 100
  decide (observedMax > threshold)

end GapTracker

structure OptionalGauge where
  count : Nat := 0
  total : Nat := 0
deriving DecidableEq, Repr

namespace OptionalGauge

def add (gauge : OptionalGauge) : Option Nat → OptionalGauge
  | some value => ⟨gauge.count + 1, gauge.total + value⟩
  | none => gauge

def meanRate (gauge : OptionalGauge) : Option Nat :=
  if 0 < gauge.count then some (asU64 (gauge.total / gauge.count)) else none

end OptionalGauge

structure HostGauges where
  count : Nat := 0
  gap : GapTracker := {}
  cpuPctMill : Nat := 0
  memUsed : Nat := 0
  storageUsed : Nat := 0
  metricsSize : Nat := 0
  logsSize : Nat := 0
  netRxRateMill : OptionalGauge := {}
  netTxRateMill : OptionalGauge := {}
  diskReadRateMill : OptionalGauge := {}
  diskWriteRateMill : OptionalGauge := {}
  logPressurePctMill : OptionalGauge := {}
  appRssBytes : OptionalGauge := {}
deriving DecidableEq, Repr

namespace HostGauges

def add (gauges : HostGauges) (sample : HostSample) : HostGauges where
  count := gauges.count + 1
  gap := gauges.gap.observe sample.ts
  cpuPctMill := gauges.cpuPctMill + sample.cpuPctMill
  memUsed := gauges.memUsed + sample.memUsed
  storageUsed := gauges.storageUsed + sample.storageUsed
  metricsSize := gauges.metricsSize + sample.metricsSize
  logsSize := gauges.logsSize + sample.logsSize
  netRxRateMill := gauges.netRxRateMill.add sample.netRxRateMill
  netTxRateMill := gauges.netTxRateMill.add sample.netTxRateMill
  diskReadRateMill := gauges.diskReadRateMill.add sample.diskReadRateMill
  diskWriteRateMill := gauges.diskWriteRateMill.add sample.diskWriteRateMill
  logPressurePctMill := gauges.logPressurePctMill.add sample.logPressurePctMill
  appRssBytes := gauges.appRssBytes.add sample.appRssBytes

def finish (gauges : HostGauges) (ts : Int) (bucketMs : Int) (maxGapPct : Nat) :
    Option HostSample :=
  if gauges.count = 0 ∨ gauges.gap.exceedsMaxGap ts bucketMs maxGapPct then none
  else some {
    ts
    cpuPctMill := asU64 (gauges.cpuPctMill / gauges.count)
    memUsed := asU64 (gauges.memUsed / gauges.count)
    storageUsed := asU64 (gauges.storageUsed / gauges.count)
    metricsSize := asU64 (gauges.metricsSize / gauges.count)
    logsSize := asU64 (gauges.logsSize / gauges.count)
    netRxRateMill := gauges.netRxRateMill.meanRate
    netTxRateMill := gauges.netTxRateMill.meanRate
    diskReadRateMill := gauges.diskReadRateMill.meanRate
    diskWriteRateMill := gauges.diskWriteRateMill.meanRate
    logPressurePctMill := gauges.logPressurePctMill.meanRate
    appRssBytes := gauges.appRssBytes.meanRate }

end HostGauges

def hostBuckets (bucketMs : Int) (maxGapPct : Nat) :
    Lib.GroupedFold HostSample Int HostGauges HostSample where
  key := fun sample => bucketEnd sample.ts bucketMs
  fresh := {}
  add := HostGauges.add
  finish := fun gauges ts => gauges.finish ts bucketMs maxGapPct
  finish_fresh := fun _ => rfl

/-- Expects samples ordered by `ts`; every bucket it emits is fully elapsed. -/
def downsampleHost (samples : List HostSample) (resolution : MetricsResolution)
    (maxGapPct : Nat) : List HostSample :=
  (hostBuckets resolution.bucketMs maxGapPct).run i64Min samples

structure ContainerGauges where
  count : Nat := 0
  gap : GapTracker := {}
  cpuPctMill : Nat := 0
  memUsed : Nat := 0
  netRxRateMill : OptionalGauge := {}
  netTxRateMill : OptionalGauge := {}
  blkReadRateMill : OptionalGauge := {}
  blkWriteRateMill : OptionalGauge := {}
  service : ServiceId := ⟨0⟩
  cid : ContainerId := ⟨0⟩
deriving DecidableEq, Repr

namespace ContainerGauges

def add (gauges : ContainerGauges) (sample : ContainerSample) : ContainerGauges where
  count := gauges.count + 1
  gap := gauges.gap.observe sample.ts
  cpuPctMill := gauges.cpuPctMill + sample.cpuPctMill
  memUsed := gauges.memUsed + sample.memUsed
  netRxRateMill := gauges.netRxRateMill.add sample.netRxRateMill
  netTxRateMill := gauges.netTxRateMill.add sample.netTxRateMill
  blkReadRateMill := gauges.blkReadRateMill.add sample.blkReadRateMill
  blkWriteRateMill := gauges.blkWriteRateMill.add sample.blkWriteRateMill
  service := if gauges.count = 0 then sample.service else gauges.service
  cid := if gauges.count = 0 then sample.cid else gauges.cid

def finish (gauges : ContainerGauges) (ts : Int) (bucketMs : Int) (maxGapPct : Nat) :
    Option ContainerSample :=
  if gauges.count = 0 ∨ gauges.gap.exceedsMaxGap ts bucketMs maxGapPct then none
  else some {
    ts
    service := gauges.service
    cid := gauges.cid
    cpuPctMill := asU64 (gauges.cpuPctMill / gauges.count)
    memUsed := asU64 (gauges.memUsed / gauges.count)
    netRxRateMill := gauges.netRxRateMill.meanRate
    netTxRateMill := gauges.netTxRateMill.meanRate
    blkReadRateMill := gauges.blkReadRateMill.meanRate
    blkWriteRateMill := gauges.blkWriteRateMill.meanRate }

end ContainerGauges

def containerBuckets (bucketMs : Int) (maxGapPct : Nat) :
    Lib.GroupedFold ContainerSample Int ContainerGauges ContainerSample where
  key := fun sample => bucketEnd sample.ts bucketMs
  fresh := {}
  add := ContainerGauges.add
  finish := fun gauges ts => gauges.finish ts bucketMs maxGapPct
  finish_fresh := fun _ => rfl

/-- Expects the samples of a single container, ordered by `ts`. -/
def downsampleContainer (samples : List ContainerSample) (resolution : MetricsResolution)
    (maxGapPct : Nat) : List ContainerSample :=
  (containerBuckets resolution.bucketMs maxGapPct).run i64Min samples

def addOptional (total value : Option ℚ) : Option ℚ :=
  match value with
  | some value => some (total.getD 0 + value)
  | none => total

/-- The `u64` method `saturating_add`. -/
def saturatingAdd (left right : Nat) : Nat := min (left + right) (2 ^ 64 - 1)

def addPoint (total : GroupPoint) (point : ContainerPoint) : GroupPoint where
  ts := total.ts
  cpuPct := total.cpuPct + point.cpuPct
  memUsed := saturatingAdd total.memUsed point.memUsed
  netRxRate := addOptional total.netRxRate point.netRxRate
  netTxRate := addOptional total.netTxRate point.netTxRate
  blkReadRate := addOptional total.blkReadRate point.blkReadRate
  blkWriteRate := addOptional total.blkWriteRate point.blkWriteRate

/-- One total for each timestamp that occurs; `order` is that of the `totals` map. -/
def sumByBucket (order : Lib.HashOrder) (series : List (List ContainerPoint)) :
    List GroupPoint :=
  ((order.arrange (Lib.groupByKey ContainerPoint.ts series.flatten)).map fun entry =>
    entry.2.foldl addPoint { ts := entry.1 }).insertionSort fun left right => left.ts ≤ right.ts

end Vpsiner.Metrics
