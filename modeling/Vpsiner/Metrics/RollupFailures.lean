import Vpsiner.Lib.Machine
import Vpsiner.Metrics.Store

/-! Rollups that end early, with an error or because the process stops. The statements
that went through before stay written, and the next rollup starts from the newest row. -/

set_option autoImplicit false

namespace Vpsiner.Metrics

open Lib

/-- The fetch is the first statement of a rollup. A rollup that ends early does so at the
statement after the given number of them. -/
inductive RollupFate where
  | completes
  | ends (statements : Nat) (fault : Fault)
deriving DecidableEq, Repr

/-- Writes rows while statements are left. -/
def insertHostRowsUpTo (fault : Fault) (resolution : MetricsResolution) :
    List HostSample → Nat → MetricsDb → MetricsDb × AppResult Nat
  | [], left, db => (db, .ok left)
  | _ :: _, 0, db => (db, .error fault)
  | sample :: rest, left + 1, db =>
      match insertHost db resolution sample with
      | .error fault => (db, .error fault)
      | .ok db => insertHostRowsUpTo fault resolution rest left db

def rollUpHostClosedUpTo (fault : Fault) (search : PartitionPoint) (samples : List HostSample)
    (maxGapPct : Nat) :
    List (MetricsResolution × Int) → Nat → MetricsDb → MetricsDb × AppResult Nat
  | [], left, db => (db, .ok left)
  | (resolution, closed) :: rest, left, db =>
      match sliceByRange search samples (sourceRange closed resolution) HostSample.ts with
      | .error fault => (db, .error fault)
      | .ok slice =>
          match insertHostRowsUpTo fault resolution
            (downsampleHost slice resolution maxGapPct) left db with
          | (db, .error fault) => (db, .error fault)
          | (db, .ok left) => rollUpHostClosedUpTo fault search samples maxGapPct rest left db

def rollUpHostFated (search : PartitionPoint) (db : MetricsDb) (previousTs newTs : Int)
    (maxGapPct : Nat) : RollupFate → MetricsDb × AppResult Unit
  | .completes => rollUpHost search db previousTs newTs maxGapPct
  | .ends statements fault =>
      let closed := resolutionsClosedBy previousTs newTs
      match widestSourceRange closed, statements with
      | none, _ => (db, .ok ())
      | some _, 0 => (db, .error fault)
      | some fetchRange, left + 1 =>
          let (db, result) := rollUpHostClosedUpTo fault search
            (selectHost db .tenSeconds fetchRange) maxGapPct closed left db
          (db, result.map fun _ => ())

/-- A resolution without rows needs no transaction. -/
def rollUpContainersClosedUpTo (fault : Fault) (search : PartitionPoint) (order : HashOrder)
    (samples : List ContainerSample) (maxGapPct : Nat) :
    List (MetricsResolution × Int) → Nat → MetricsDb → MetricsDb × AppResult Nat
  | [], left, db => (db, .ok left)
  | (resolution, closed) :: rest, left, db =>
      match sliceByRange search samples (sourceRange closed resolution) ContainerSample.ts with
      | .error fault => (db, .error fault)
      | .ok slice =>
          match rolledContainers order slice resolution maxGapPct, left with
          | [], left =>
              rollUpContainersClosedUpTo fault search order samples maxGapPct rest left db
          | _ :: _, 0 => (db, .error fault)
          | row :: rows, left + 1 =>
              match insertContainers db resolution (row :: rows) with
              | .error fault => (db, .error fault)
              | .ok db =>
                  rollUpContainersClosedUpTo fault search order samples maxGapPct rest left db

def rollUpContainersFated (search : PartitionPoint) (order : HashOrder) (db : MetricsDb)
    (previousTs newTs : Int) (maxGapPct : Nat) : RollupFate → MetricsDb × AppResult Unit
  | .completes => rollUpContainers search order db previousTs newTs maxGapPct
  | .ends statements fault =>
      let closed := resolutionsClosedBy previousTs newTs
      match widestSourceRange closed, statements with
      | none, _ => (db, .ok ())
      | some _, 0 => (db, .error fault)
      | some fetchRange, left + 1 =>
          let (db, result) := rollUpContainersClosedUpTo fault search order
            (selectContainers db .tenSeconds fetchRange) maxGapPct closed left db
          (db, result.map fun _ => ())

namespace SqliteMetricsStore

def insertHostFated (search : PartitionPoint) (store : SqliteMetricsStore) (sample : HostSample)
    (fate : RollupFate) : SqliteMetricsStore × AppResult Unit :=
  match Metrics.insertHost store.db .tenSeconds sample with
  | .error fault => (store, .error fault)
  | .ok db =>
      let (previous, lastHostTs) := advance store.lastHostTs sample.ts
      match previous with
      | none => ({ store with db, lastHostTs }, .ok ())
      | some previous =>
          let (db, result) :=
            rollUpHostFated search db previous sample.ts store.downsampleMaxGapPct fate
          ({ store with db, lastHostTs }, logRollupError result)

def insertContainersFated (search : PartitionPoint) (order : HashOrder)
    (store : SqliteMetricsStore) (samples : List ContainerSample) (fate : RollupFate) :
    SqliteMetricsStore × AppResult Unit :=
  match (samples.map ContainerSample.ts).max? with
  | none => (store, .ok ())
  | some ts =>
      match Metrics.insertContainers store.db .tenSeconds samples with
      | .error fault => (store, .error fault)
      | .ok db =>
          let (previous, lastContainersTs) := advance store.lastContainersTs ts
          match previous with
          | none => ({ store with db, lastContainersTs }, .ok ())
          | some previous =>
              let (db, result) := rollUpContainersFated search order db previous ts
                store.downsampleMaxGapPct fate
              ({ store with db, lastContainersTs }, logRollupError result)

end SqliteMetricsStore

theorem insertHostFated_completes (search : PartitionPoint) (store : SqliteMetricsStore)
    (sample : HostSample) :
    store.insertHostFated search sample .completes = store.insertHost search sample := rfl

theorem insertContainersFated_completes (search : PartitionPoint) (order : HashOrder)
    (store : SqliteMetricsStore) (samples : List ContainerSample) :
    store.insertContainersFated search order samples .completes =
      store.insertContainers search order samples := rfl

/-- A process that stops inside an insert is an insert whose rollup ends there and a
restart after it: what `advance` noted is lost with the process. -/
inductive MetricsEvent where
  | insertHost (sample : HostSample) (fate : RollupFate)
  | insertContainers (order : HashOrder) (samples : List ContainerSample) (fate : RollupFate)
  | restart

def metricsStep (search : PartitionPoint) (store : SqliteMetricsStore) :
    MetricsEvent → Option SqliteMetricsStore
  | .insertHost sample fate => some (store.insertHostFated search sample fate).1
  | .insertContainers order samples fate =>
      some (store.insertContainersFated search order samples fate).1
  | .restart => some (.connect store.db store.downsampleMaxGapPct)

def metricsMachine (search : PartitionPoint) (maxGapPct : Nat) :
    Machine SqliteMetricsStore MetricsEvent where
  start := .connect .empty maxGapPct
  step := metricsStep search

end Vpsiner.Metrics
