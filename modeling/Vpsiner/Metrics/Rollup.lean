import Vpsiner.Lib.HashOrder
import Vpsiner.Lib.PartitionPoint
import Vpsiner.Metrics.Downsampling
import Vpsiner.Metrics.Schema

/-! Materialises the coarse resolution tables from the `10s` tables. A coarse
bucket is rolled up by the first `10s` insert that lands past its closing instant. -/

set_option autoImplicit false

namespace Vpsiner.Metrics

open Lib

/-- The bucket that `previousTs` fell into, if `newTs` has moved past its end. -/
def closedBucket (previousTs newTs : Int) (resolution : MetricsResolution) :
    Option Int :=
  let previous := bucketEnd previousTs resolution.bucketMs
  if bucketEnd newTs resolution.bucketMs ≠ previous then some previous else none

/-- The `10s` rows making up the bucket closing at `bucketEnd`. The selections are
inclusive on both ends while a bucket is half-open at the start. -/
def sourceRange (bucketEnd : Int) (resolution : MetricsResolution) : TimeRange where
  fromMs := bucketEnd - resolution.bucketMs + 1
  toMs := bucketEnd

/-- Every resolution that closed a bucket, paired with the timestamp it closed at. -/
def resolutionsClosedBy (previousTs newTs : Int) :
    List (MetricsResolution × Int) :=
  MetricsResolution.coarse.filterMap fun resolution =>
    (closedBucket previousTs newTs resolution).map fun closed => (resolution, closed)

/-- `max_by_key` keeps the last of several maxima. -/
def widest : List (MetricsResolution × Int) → Option (MetricsResolution × Int)
  | [] => none
  | entry :: rest =>
      match widest rest with
      | none => some entry
      | some best => if entry.1.bucketMs ≤ best.1.bucketMs then some best else some entry

/-- The widest range needed to cover every closed resolution. -/
def widestSourceRange (closed : List (MetricsResolution × Int)) : Option TimeRange :=
  (widest closed).map fun entry => sourceRange entry.2 entry.1

/-- The contiguous run of `samples` (ordered by `ts`) falling inside `range`. The
slice expression panics when its start is past its end. -/
def sliceByRange {σ : Type} (search : PartitionPoint) (samples : List σ) (range : TimeRange)
    (ts : σ → Int) : AppResult (List σ) :=
  let start := search.index (fun sample => decide (ts sample < range.fromMs)) samples
  let stop := search.index (fun sample => decide (ts sample ≤ range.toMs)) samples
  if start ≤ stop then .ok ((samples.take stop).drop start)
  else .error (.panic "slice index starts past its end")

def insertHostRows (resolution : MetricsResolution) :
    List HostSample → MetricsDb → MetricsDb × AppResult Unit
  | [], db => (db, .ok ())
  | sample :: rest, db =>
      match insertHost db resolution sample with
      | .error fault => (db, .error fault)
      | .ok db => insertHostRows resolution rest db

/-- The loop of `rollUpHost` over the closed resolutions. -/
def rollUpHostClosed (search : PartitionPoint) (samples : List HostSample) (maxGapPct : Nat) :
    List (MetricsResolution × Int) → MetricsDb → MetricsDb × AppResult Unit
  | [], db => (db, .ok ())
  | (resolution, closed) :: rest, db =>
      match sliceByRange search samples (sourceRange closed resolution) HostSample.ts with
      | .error fault => (db, .error fault)
      | .ok slice =>
          match insertHostRows resolution (downsampleHost slice resolution maxGapPct) db with
          | (db, .error fault) => (db, .error fault)
          | (db, .ok ()) => rollUpHostClosed search samples maxGapPct rest db

/-- Rolls up every coarse resolution whose bucket closed between `previousTs` and
`newTs`, reading the `10s` rows once for whichever resolution needed the widest
range. What was written before a failure stays written. -/
def rollUpHost (search : PartitionPoint) (db : MetricsDb) (previousTs newTs : Int)
    (maxGapPct : Nat) : MetricsDb × AppResult Unit :=
  let closed := resolutionsClosedBy previousTs newTs
  match widestSourceRange closed with
  | none => (db, .ok ())
  | some fetchRange =>
      rollUpHostClosed search (selectHost db .tenSeconds fetchRange) maxGapPct closed db

/-- The rows of one resolution; `order` is the order of the `by_container` map. -/
def rolledContainers (order : HashOrder) (slice : List ContainerSample)
    (resolution : MetricsResolution) (maxGapPct : Nat) : List ContainerSample :=
  (order.arrange (groupByKey ContainerSample.cid slice)).flatMap fun entry =>
    downsampleContainer entry.2 resolution maxGapPct

/-- The loop of `rollUpContainers` over the closed resolutions. -/
def rollUpContainersClosed (search : PartitionPoint) (order : HashOrder)
    (samples : List ContainerSample) (maxGapPct : Nat) :
    List (MetricsResolution × Int) → MetricsDb → MetricsDb × AppResult Unit
  | [], db => (db, .ok ())
  | (resolution, closed) :: rest, db =>
      match sliceByRange search samples (sourceRange closed resolution) ContainerSample.ts with
      | .error fault => (db, .error fault)
      | .ok slice =>
          match insertContainers db resolution (rolledContainers order slice resolution maxGapPct) with
          | .error fault => (db, .error fault)
          | .ok db => rollUpContainersClosed search order samples maxGapPct rest db

def rollUpContainers (search : PartitionPoint) (order : HashOrder) (db : MetricsDb)
    (previousTs newTs : Int) (maxGapPct : Nat) : MetricsDb × AppResult Unit :=
  let closed := resolutionsClosedBy previousTs newTs
  match widestSourceRange closed with
  | none => (db, .ok ())
  | some fetchRange =>
      rollUpContainersClosed search order (selectContainers db .tenSeconds fetchRange) maxGapPct
        closed db

end Vpsiner.Metrics
