import Vpsiner.Metrics.Rollup

/-! The store in front of the metrics tables: every insert of `10s` rows rolls up the
coarse buckets it closes. -/

set_option autoImplicit false

namespace Vpsiner.Metrics

open Lib

/-- The names the registry resolves ids to; an interned name belongs to one id. -/
structure ServiceNames where
  name : ServiceId → Option String
  injective : ∀ {first second : ServiceId} {service : String},
    name first = some service → name second = some service → first = second

structure SqliteMetricsStore where
  db : MetricsDb
  /-- Newest `10s` bucket written per source. -/
  lastHostTs : Option Int
  lastContainersTs : Option Int
  downsampleMaxGapPct : Nat

namespace SqliteMetricsStore

/-- Opening an existing database resumes from its newest `10s` rows. -/
def connect (db : MetricsDb) (downsampleMaxGapPct : Nat) : SqliteMetricsStore where
  db
  lastHostTs := selectHostMaxTs db .tenSeconds
  lastContainersTs := selectContainersMaxTs db .tenSeconds
  downsampleMaxGapPct

/-- The bucket before the one recorded, when time moved on, and the cursor afterwards. -/
def advance (cursor : Option Int) (newTs : Int) : Option Int × Option Int :=
  (cursor.filter fun previous => previous < newTs, some newTs)

/-- A failed rollup is logged and must not fail the insert; a panic is no error. -/
def logRollupError : AppResult Unit → AppResult Unit
  | .error (.error _) => .ok ()
  | result => result

def insertHost (search : PartitionPoint) (store : SqliteMetricsStore) (sample : HostSample) :
    SqliteMetricsStore × AppResult Unit :=
  match Metrics.insertHost store.db .tenSeconds sample with
  | .error fault => (store, .error fault)
  | .ok db =>
      let (previous, lastHostTs) := advance store.lastHostTs sample.ts
      match previous with
      | none => ({ store with db, lastHostTs }, .ok ())
      | some previous =>
          let (db, result) := rollUpHost search db previous sample.ts store.downsampleMaxGapPct
          ({ store with db, lastHostTs }, logRollupError result)

def insertContainers (search : PartitionPoint) (order : HashOrder) (store : SqliteMetricsStore)
    (samples : List ContainerSample) : SqliteMetricsStore × AppResult Unit :=
  match (samples.map ContainerSample.ts).max? with
  | none => (store, .ok ())
  | some ts =>
      match Metrics.insertContainers store.db .tenSeconds samples with
      | .error fault => (store, .error fault)
      | .ok db =>
          let (previous, lastContainersTs) := advance store.lastContainersTs ts
          match previous with
          | none => ({ store with db, lastContainersTs }, .ok ())
          | some previous =>
              let (db, result) :=
                rollUpContainers search order db previous ts store.downsampleMaxGapPct
              ({ store with db, lastContainersTs }, logRollupError result)

def queryHost (store : SqliteMetricsStore) (range : TimeRange) (resolution : MetricsResolution) :
    List HostPoint :=
  (selectHost store.db resolution range).map HostPoint.fromSample

/-- One service's rows, broken down by container and summed. -/
def groupMetrics (order : HashOrder) (range : TimeRange) (service : String)
    (rows : List ContainerSample) : ContainerGroupMetrics :=
  let containers := (order.arrange (groupByKey ContainerSample.cid rows)).map fun byContainer =>
    (byContainer.1, (byContainer.2.filter fun sample => range.fromMs ≤ sample.ts).map
      fun sample => ContainerPoint.fromSample sample service)
  { sum := sumByBucket order (containers.map Prod.snd), containers }

/-- Every service's samples. `order` is that of the hash maps; a sample whose service
has no name is dropped. -/
def queryContainers (names : ServiceNames) (order : HashOrder) (db : MetricsDb)
    (range : TimeRange) (resolution : MetricsResolution) :
    List (String × ContainerGroupMetrics) :=
  (order.arrange (groupByKey ContainerSample.service (selectContainers db resolution range))).filterMap
    fun byService => (names.name byService.1).map fun service =>
      (service, groupMetrics order range service byService.2)

end SqliteMetricsStore

end Vpsiner.Metrics
