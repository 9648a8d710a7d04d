import Vpsiner.Lib.KeyedTable
import Vpsiner.Metrics.Bucketizer
import Vpsiner.Metrics.Downsampling

/-! Buckets the raw samples of every container. -/

set_option autoImplicit false

namespace Vpsiner.Metrics

open Vpsiner.Lib

/-- Buckets a container produced nothing for before its bucketizers are dropped. -/
def maxIdleFlushes : Nat := 2

/-- `u64::try_from` of a `u128`. -/
def u64FromU128 (value : Nat) : Option Nat := if value < 2 ^ 64 then some value else none

structure ContainerBucketizer where
  bckCpuUsageNs : CounterBucketizer
  bckSystemCpuUsageNs : CounterBucketizer
  /-- Not bucketized. -/
  lastCpuCount : Nat
  bckMemUsed : GaugeBucketizer
  bckNetRxRateMill : CounterBucketizer
  bckNetTxRateMill : CounterBucketizer
  bckBlkReadRateMill : CounterBucketizer
  bckBlkWriteRateMill : CounterBucketizer

namespace ContainerBucketizer

def new (collectIntervalMs : Nat) : ContainerBucketizer :=
  let bucketLenMs := MetricsResolution.tenSeconds.bucketMs.toNat
  let capacity := bufferCapacity collectIntervalMs bucketLenMs
  { bckCpuUsageNs := .new capacity bucketLenMs
    bckSystemCpuUsageNs := .new capacity bucketLenMs
    lastCpuCount := 1
    bckMemUsed := .new capacity bucketLenMs
    bckNetRxRateMill := .new capacity bucketLenMs
    bckNetTxRateMill := .new capacity bucketLenMs
    bckBlkReadRateMill := .new capacity bucketLenMs
    bckBlkWriteRateMill := .new capacity bucketLenMs }

def push (bucketizer : ContainerBucketizer) (sample : ContainerRawSample) :
    ContainerBucketizer where
  bckCpuUsageNs := bucketizer.bckCpuUsageNs.push sample.ts sample.cpuUsageNs
  bckSystemCpuUsageNs := bucketizer.bckSystemCpuUsageNs.push sample.ts sample.systemCpuUsageNs
  lastCpuCount := sample.cpuCount
  bckMemUsed := bucketizer.bckMemUsed.push sample.ts sample.memUsed
  bckNetRxRateMill := bucketizer.bckNetRxRateMill.push sample.ts sample.netRx
  bckNetTxRateMill := bucketizer.bckNetTxRateMill.push sample.ts sample.netTx
  bckBlkReadRateMill := bucketizer.bckBlkReadRateMill.push sample.ts sample.blkRead
  bckBlkWriteRateMill := bucketizer.bckBlkWriteRateMill.push sample.ts sample.blkWrite

/-- The ratio of two counter rates; the `u128` product of the source cannot overflow. -/
def cpuPctMill (bucketizer : ContainerBucketizer) (bucketEnd : Int) : Option Nat := do
  let cpuRate ← CounterBucketizer.collect bucketizer.bckCpuUsageNs bucketEnd
  let systemRate ← CounterBucketizer.collect bucketizer.bckSystemCpuUsageNs bucketEnd
  if systemRate = 0 then none
  else u64FromU128 (cpuRate * bucketizer.lastCpuCount * 100000 / systemRate)

def collect (bucketizer : ContainerBucketizer) (bucketEnd : Int) (service : ServiceId)
    (cid : ContainerId) : Option ContainerSample := do
  let cpuPctMill ← bucketizer.cpuPctMill bucketEnd
  let memUsed ← GaugeBucketizer.collect bucketizer.bckMemUsed bucketEnd
  some
    { ts := bucketEnd
      service
      cid
      cpuPctMill
      memUsed
      netRxRateMill := CounterBucketizer.collect bucketizer.bckNetRxRateMill bucketEnd
      netTxRateMill := CounterBucketizer.collect bucketizer.bckNetTxRateMill bucketEnd
      blkReadRateMill := CounterBucketizer.collect bucketizer.bckBlkReadRateMill bucketEnd
      blkWriteRateMill := CounterBucketizer.collect bucketizer.bckBlkWriteRateMill bucketEnd }

end ContainerBucketizer

structure ContainerEntry where
  service : ServiceId
  bucketizer : ContainerBucketizer
  idleFlushes : Nat

/-- The hash map of the containers; what iterates it takes the order of the map. -/
abbrev ContainerEntries := KeyedTable (Prod.fst : ContainerId × ContainerEntry → ContainerId)

def ContainerEntries.get? (containers : ContainerEntries) (cid : ContainerId) :
    Option ContainerEntry := (containers.find? cid).map Prod.snd

def ContainerEntries.record (collectIntervalMs : Nat) (containers : ContainerEntries)
    (sample : ContainerRawSample) : ContainerEntries :=
  let entry := (containers.get? sample.cid).getD
    { service := sample.service, bucketizer := .new collectIntervalMs, idleFlushes := 0 }
  containers.upsert (sample.cid,
    { entry with service := sample.service, bucketizer := entry.bucketizer.push sample })

structure ContainerCollectorState where
  containers : ContainerEntries
  lastRawBucketEnd : Option Int
  collectIntervalMs : Nat

def batchTs (batch : List ContainerRawSample) : Option Int :=
  (batch.map ContainerRawSample.ts).max?

def batchBucketEnd (batch : List ContainerRawSample) : Option Int :=
  (batchTs batch).map fun ts => bucketEnd ts MetricsResolution.tenSeconds.bucketMs

/-- What a flush makes of an entry: its row, if it has one, the entry afterwards, and whether
it is retained. -/
def ContainerEntry.visit (entry : ContainerEntry) (cid : ContainerId) (bucketEnd : Int) :
    Option ContainerSample × ContainerEntry × Bool :=
  match entry.bucketizer.collect bucketEnd entry.service cid with
  | some sample => (some sample, { entry with idleFlushes := 0 }, true)
  | none =>
      (none, { entry with idleFlushes := entry.idleFlushes + 1 },
        entry.idleFlushes + 1 < maxIdleFlushes)

/-- A row of the map after a flush has visited it. -/
def visitedRow (bucketEnd : Int) (row : ContainerId × ContainerEntry) :
    ContainerId × ContainerEntry := (row.1, (row.2.visit row.1 bucketEnd).2.1)

theorem cid_visitedRow (bucketEnd : Int) (row : ContainerId × ContainerEntry) :
    (visitedRow bucketEnd row).1 = row.1 := rfl

namespace ContainerCollectorState

def new (collectIntervalMs : Nat) : ContainerCollectorState := ⟨.empty, none, collectIntervalMs⟩

def completedBucketEnd (state : ContainerCollectorState) (currentBucketEnd : Int) : Option Int :=
  state.lastRawBucketEnd.filter (· < currentBucketEnd)

/-- The part of `observe` before the flush. -/
def recordBatch (state : ContainerCollectorState) (batch : List ContainerRawSample)
    (currentBucketEnd : Int) : ContainerCollectorState :=
  { state with
    containers := batch.foldl (ContainerEntries.record state.collectIntervalMs) state.containers
    lastRawBucketEnd := some currentBucketEnd }

/-- The rows of a flush, in the order of the hash map. -/
def flushedRows (state : ContainerCollectorState) (order : HashOrder) (bucketEnd : Int) :
    List ContainerSample :=
  (order.arrange state.containers.rows).filterMap fun row => (row.2.visit row.1 bucketEnd).1

def flush (state : ContainerCollectorState) (order : HashOrder) (bucketEnd : Int) :
    List ContainerSample × ContainerCollectorState :=
  let retained := state.containers.eraseWhere fun row => !(row.2.visit row.1 bucketEnd).2.2
  (state.flushedRows order bucketEnd,
    { state with containers := retained.mapRows (visitedRow bucketEnd) (cid_visitedRow bucketEnd) })

/-- Collected after pushing, because closing a bucket interpolates against the first sample
at or past its end. -/
def observe (state : ContainerCollectorState) (order : HashOrder)
    (batch : List ContainerRawSample) : List ContainerSample × ContainerCollectorState :=
  match batchBucketEnd batch with
  | none => ([], state)
  | some currentBucketEnd =>
      match state.completedBucketEnd currentBucketEnd with
      | none => ([], state.recordBatch batch currentBucketEnd)
      | some bucketEnd => (state.recordBatch batch currentBucketEnd).flush order bucketEnd

end ContainerCollectorState

end Vpsiner.Metrics
