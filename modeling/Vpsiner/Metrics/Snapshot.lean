import Vpsiner.Lib.Binary64
import Vpsiner.Lib.KeyedTable
import Vpsiner.Metrics.Store

/-! The latest values of the containers, with the rates that the server computes from two
consecutive samples. An `f64` is the rational number it stands for, rounded after every operation.
Counters and times are 64-bit integers, so no value here overflows or leaves the normal numbers. -/

set_option autoImplicit false

namespace Vpsiner.Metrics

open Lib Binary64

/-- None when the counter decreased. -/
def counterDelta (current previous : Nat) : Option Nat :=
  if previous ≤ current then some (current - previous) else none

/-- Units per second between two readings. -/
def optionalRate (current previous : Nat) (dtMs : Int) : Option ℚ :=
  if dtMs ≤ 0 then none
  else do
    let delta ← counterDelta current previous
    some (rounded (rounded delta / rounded (rounded dtMs / 1000)))

/-- `add_optional` on `f64` values. -/
def addRounded (total value : Option ℚ) : Option ℚ :=
  match value with
  | some value => some (rounded (total.getD 0 + value))
  | none => total

/-- Records older than this multiple of the collection interval are dropped on read. -/
def staleIntervals : Int := 3

structure ContainersState where
  current : KeyedTable (Prod.fst : ContainerId × ContainerPoint → ContainerId) := .empty
  previous : KeyedTable (Prod.fst : ContainerId × ContainerRawSample → ContainerId) := .empty

/-- The half of the state that is about containers. -/
structure MetricsSnapshotState where
  containers : ContainersState
  services : ServiceNames
  staleAfterMs : Int
  containersRevision : Nat

structure ContainersSnapshot where
  containers : List (ContainerId × ContainerPoint)
  services : List (String × GroupPoint)

/-- The part of `record_containers` that computes a CPU percentage. -/
def cpuPct (previous : Option ContainerRawSample) (sample : ContainerRawSample) : ℚ :=
  let pct := do
    let previous ← previous
    let dtMs := sample.ts - previous.ts
    let cpuRate ← optionalRate sample.cpuUsageNs previous.cpuUsageNs dtMs
    let systemRate ← optionalRate sample.systemCpuUsageNs previous.systemCpuUsageNs dtMs
    if 0 < systemRate then
      some (rounded (rounded (rounded (cpuRate / systemRate) * rounded sample.cpuCount) * 100))
    else none
  pct.getD 0

/-- The rate of one counter since the previous sample of the container. -/
def rateSince (previous : Option ContainerRawSample) (sample : ContainerRawSample)
    (counter : ContainerRawSample → Nat) : Option ℚ := do
  let previous ← previous
  optionalRate (counter sample) (counter previous) (sample.ts - previous.ts)

def currentPoint (services : ServiceNames) (previous : Option ContainerRawSample)
    (sample : ContainerRawSample) : ContainerPoint where
  ts := sample.ts
  service := (services.name sample.service).getD ""
  cpuPct := cpuPct previous sample
  memUsed := sample.memUsed
  netRxRate := rateSince previous sample ContainerRawSample.netRx
  netTxRate := rateSince previous sample ContainerRawSample.netTx
  blkReadRate := rateSince previous sample ContainerRawSample.blkRead
  blkWriteRate := rateSince previous sample ContainerRawSample.blkWrite

namespace MetricsSnapshotState

def new (services : ServiceNames) (collectIntervalMs : Int) : MetricsSnapshotState where
  containers := {}
  services
  staleAfterMs := collectIntervalMs * staleIntervals
  containersRevision := 0

def previous (state : MetricsSnapshotState) (cid : ContainerId) : Option ContainerRawSample :=
  (state.containers.previous.find? cid).map Prod.snd

/-- A batch replaces both maps wholesale. -/
def recordContainers (state : MetricsSnapshotState) (samples : List ContainerRawSample) :
    MetricsSnapshotState :=
  { state with
    containers :=
      { current := KeyedTable.empty.upsertAll (samples.map fun sample =>
          (sample.cid, currentPoint state.services (state.previous sample.cid) sample))
        previous := KeyedTable.empty.upsertAll (samples.map fun sample => (sample.cid, sample)) }
    containersRevision := state.containersRevision + 1 }

def cutoff (state : MetricsSnapshotState) (now : Int) : Int := now - state.staleAfterMs

/-- One more container of a service; the newest of them dates it. -/
def addToService (service : GroupPoint) (point : ContainerPoint) : GroupPoint where
  ts := max service.ts point.ts
  cpuPct := rounded (service.cpuPct + point.cpuPct)
  memUsed := saturatingAdd service.memUsed point.memUsed
  netRxRate := addRounded service.netRxRate point.netRxRate
  netTxRate := addRounded service.netTxRate point.netTxRate
  blkReadRate := addRounded service.blkReadRate point.blkReadRate
  blkWriteRate := addRounded service.blkWriteRate point.blkWriteRate

def serviceTotal (points : List ContainerPoint) : GroupPoint :=
  points.foldl addToService { ts := (points.head?.map ContainerPoint.ts).getD 0 }

/-- `order` is that of the hash maps. -/
def currentContainersAt (state : MetricsSnapshotState) (order : HashOrder) (now : Int) :
    ContainersSnapshot :=
  let containers := (order.arrange state.containers.current.rows).filter fun entry =>
    state.cutoff now ≤ entry.2.ts
  { containers
    services := (groupByKey ContainerPoint.service (containers.map Prod.snd)).map fun entry =>
      (entry.1, serviceTotal entry.2) }

end MetricsSnapshotState

end Vpsiner.Metrics
