import Vpsiner.Metrics.Store

/-! The two container metrics streams: a snapshot, then one append for each wake-up
that finds data. -/

set_option autoImplicit false

namespace Vpsiner.Api

open Lib Metrics

/-- What a connection meets when it reads: the announced bucket end, the names and the
rows stored by then, and whether the query fails. -/
structure Wake where
  bucketEnd : Int
  names : ServiceNames
  order : HashOrder
  db : MetricsDb
  fails : Bool := false

namespace Wake

/-- `query_containers(..).await.unwrap_or_default()`. -/
def read (wake : Wake) (range : TimeRange) (resolution : MetricsResolution) :
    List (String × ContainerGroupMetrics) :=
  if wake.fails then []
  else SqliteMetricsStore.queryContainers wake.names wake.order wake.db range resolution

/-- `by_service.remove(&service).unwrap_or_default()`. -/
def readService (wake : Wake) (range : TimeRange) (resolution : MetricsResolution)
    (service : String) : ContainerGroupMetrics :=
  (((wake.read range resolution).find? fun entry => entry.1 = service).map Prod.snd).getD {}

def readSums (wake : Wake) (range : TimeRange) (resolution : MetricsResolution) :
    List (String × List GroupPoint) :=
  (wake.read range resolution).map fun entry => (entry.1, entry.2.sum)

end Wake

def latestTsByService (series : List (String × List GroupPoint)) : Option Int :=
  (series.filterMap fun entry => entry.2.getLast?.map GroupPoint.ts).max?

def crossSectionByService (series : List (String × List GroupPoint)) :
    List (String × GroupPoint) :=
  series.filterMap fun entry => entry.2.getLast?.map fun point => (entry.1, point)

def latestTsInService (group : ContainerGroupMetrics) : Option Int :=
  let sumTs := group.sum.getLast?.map GroupPoint.ts
  let containersTs :=
    (group.containers.filterMap fun entry => entry.2.getLast?.map ContainerPoint.ts).max?
  (sumTs.toList ++ containersTs.toList).max?

/-- The payload of an append and the new `last_sent`; nothing when the wake-up is
passed over. -/
def containersAppend (resolution : MetricsResolution) (lastSent : Int) (wake : Wake) :
    Option (List (String × GroupPoint) × Int) :=
  if wake.bucketEnd ≤ lastSent then none
  else
    let series := wake.readSums ⟨lastSent, wake.bucketEnd⟩ resolution
    (latestTsByService series).map fun latestTs => (crossSectionByService series, latestTs)

def containersSnapshot (resolution : MetricsResolution) (range : TimeRange) (wake : Wake) :
    List (String × List GroupPoint) × Int :=
  let series := wake.readSums range resolution
  (series, (latestTsByService series).getD range.fromMs)

def containerAppend (resolution : MetricsResolution) (service : String) (lastSent : Int)
    (wake : Wake) : Option (ContainerGroupMetricsAppend × Int) :=
  if wake.bucketEnd ≤ lastSent then none
  else
    let group := wake.readService ⟨lastSent, wake.bucketEnd⟩ resolution service
    (latestTsInService group).map fun latestTs =>
      ({ sum := group.sum.getLast?
         containers := group.containers.filterMap fun entry =>
           entry.2.getLast?.map fun point => (entry.1, point) }, latestTs)

def containerSnapshot (resolution : MetricsResolution) (service : String) (range : TimeRange)
    (wake : Wake) : ContainerGroupMetrics × Int :=
  let group := wake.readService range resolution service
  (group, (latestTsInService group).getD range.fromMs)

/-- An append event, with the wake-up and the `last_sent` it was built from. -/
structure Append (π : Type) where
  wake : Wake
  previous : Int
  payload : π
  lastSent : Int

/-- The append events of one connection over a list of wake-ups. -/
def appends {π : Type} (handle : Int → Wake → Option (π × Int)) :
    Int → List Wake → List (Append π)
  | _, [] => []
  | lastSent, wake :: rest =>
      match handle lastSent wake with
      | none => appends handle lastSent rest
      | some (payload, latestTs) =>
          ⟨wake, lastSent, payload, latestTs⟩ :: appends handle latestTs rest

end Vpsiner.Api
