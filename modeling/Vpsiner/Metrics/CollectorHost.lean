import Vpsiner.Metrics.Bucketizer
import Vpsiner.Metrics.Downsampling

/-! Buckets the raw samples of the host. -/

set_option autoImplicit false

namespace Vpsiner.Metrics

/-- The cast of a rounded `f64` to `u64`, which saturates. -/
def u64FromRounded (value : ℚ) : Nat := min (f64Round value).toNat (2 ^ 64 - 1)

def cpuPctMill (cpuPct : Option ℚ) : Nat :=
  match cpuPct with
  | some cpuPct => if 0 < cpuPct then u64FromRounded (cpuPct * 1000) else 0
  | none => 0

structure HostBucketizer where
  bckCpuPctMill : GaugeBucketizer
  bckMemUsed : GaugeBucketizer
  bckStorageUsed : GaugeBucketizer
  bckMetricsSize : GaugeBucketizer
  bckLogsSize : GaugeBucketizer
  bckNetRxRateMill : CounterBucketizer
  bckNetTxRateMill : CounterBucketizer
  bckDiskReadRateMill : CounterBucketizer
  bckDiskWriteRateMill : CounterBucketizer
  bckLogPressurePctMill : MaxBucketizer
  bckAppRssBytes : MaxBucketizer

namespace HostBucketizer

/-- With buffers of this size. -/
def sized (capacity : Nat) : HostBucketizer :=
  let bucketLenMs := MetricsResolution.tenSeconds.bucketMs.toNat
  { bckCpuPctMill := .new capacity bucketLenMs
    bckMemUsed := .new capacity bucketLenMs
    bckStorageUsed := .new capacity bucketLenMs
    bckMetricsSize := .new capacity bucketLenMs
    bckLogsSize := .new capacity bucketLenMs
    bckNetRxRateMill := .new capacity bucketLenMs
    bckNetTxRateMill := .new capacity bucketLenMs
    bckDiskReadRateMill := .new capacity bucketLenMs
    bckDiskWriteRateMill := .new capacity bucketLenMs
    bckLogPressurePctMill := .new capacity bucketLenMs
    bckAppRssBytes := .new capacity bucketLenMs }

def new (collectIntervalMs : Nat) : HostBucketizer :=
  sized (bufferCapacity collectIntervalMs MetricsResolution.tenSeconds.bucketMs.toNat)

def push (bucketizer : HostBucketizer) (sample : HostRawSample) : HostBucketizer where
  bckCpuPctMill := bucketizer.bckCpuPctMill.push sample.ts (cpuPctMill sample.cpuPct)
  bckMemUsed := bucketizer.bckMemUsed.push sample.ts sample.memUsed
  bckStorageUsed := bucketizer.bckStorageUsed.push sample.ts sample.storageUsed
  bckMetricsSize := bucketizer.bckMetricsSize.push sample.ts sample.metricsSize
  bckLogsSize := bucketizer.bckLogsSize.push sample.ts sample.logsSize
  bckNetRxRateMill := bucketizer.bckNetRxRateMill.push sample.ts sample.netRx
  bckNetTxRateMill := bucketizer.bckNetTxRateMill.push sample.ts sample.netTx
  bckDiskReadRateMill := bucketizer.bckDiskReadRateMill.push sample.ts sample.diskRead
  bckDiskWriteRateMill := bucketizer.bckDiskWriteRateMill.push sample.ts sample.diskWrite
  bckLogPressurePctMill :=
    bucketizer.bckLogPressurePctMill.push sample.ts sample.logPressurePctMill
  bckAppRssBytes :=
    match sample.appRssBytes with
    | some rss => bucketizer.bckAppRssBytes.push sample.ts rss
    | none => bucketizer.bckAppRssBytes

/-- A missing rate or peak does not discard the sample, a missing mean does. -/
def collect (bucketizer : HostBucketizer) (bucketEnd : Int) : Option HostSample := do
  let cpuPctMill ← GaugeBucketizer.collect bucketizer.bckCpuPctMill bucketEnd
  let memUsed ← GaugeBucketizer.collect bucketizer.bckMemUsed bucketEnd
  let storageUsed ← GaugeBucketizer.collect bucketizer.bckStorageUsed bucketEnd
  let metricsSize ← GaugeBucketizer.collect bucketizer.bckMetricsSize bucketEnd
  let logsSize ← GaugeBucketizer.collect bucketizer.bckLogsSize bucketEnd
  some
    { ts := bucketEnd
      cpuPctMill
      memUsed
      storageUsed
      metricsSize
      logsSize
      netRxRateMill := CounterBucketizer.collect bucketizer.bckNetRxRateMill bucketEnd
      netTxRateMill := CounterBucketizer.collect bucketizer.bckNetTxRateMill bucketEnd
      diskReadRateMill := CounterBucketizer.collect bucketizer.bckDiskReadRateMill bucketEnd
      diskWriteRateMill := CounterBucketizer.collect bucketizer.bckDiskWriteRateMill bucketEnd
      logPressurePctMill := MaxBucketizer.collect bucketizer.bckLogPressurePctMill bucketEnd
      appRssBytes := MaxBucketizer.collect bucketizer.bckAppRssBytes bucketEnd }

end HostBucketizer

structure HostCollectorState where
  bucketizer : HostBucketizer
  lastRawBucketEnd : Option Int

namespace HostCollectorState

/-- With buffers of this size. -/
def sized (capacity : Nat) : HostCollectorState := ⟨.sized capacity, none⟩

def new (collectIntervalMs : Nat) : HostCollectorState := ⟨.new collectIntervalMs, none⟩

def observe (state : HostCollectorState) (sample : HostRawSample) :
    Option HostSample × HostCollectorState :=
  let currentBucketEnd := bucketEnd sample.ts MetricsResolution.tenSeconds.bucketMs
  let completedBucketEnd := state.lastRawBucketEnd.filter (· < currentBucketEnd)
  let bucketizer := state.bucketizer.push sample
  (completedBucketEnd.bind bucketizer.collect, ⟨bucketizer, some currentBucketEnd⟩)

end HostCollectorState

end Vpsiner.Metrics
