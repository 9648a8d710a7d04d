import Vpsiner.Lib.Machine
import Vpsiner.Metrics.BucketWatcher
import Vpsiner.Metrics.Store

/-! One connection of the host metrics stream beside the collector that feeds the
store. The collector inserts a sample and then announces it; the connection reads a
snapshot and then sleeps on its watch receiver. -/

set_option autoImplicit false

namespace Vpsiner.Api

open Lib Metrics

inductive HostStreamState where
  | initial (range : TimeRange)
  | waiting (lastSent : Int)
  /-- Between the wake-up and the answer of the store. -/
  | querying (lastSent : Int) (bucketEnd : Int)
deriving DecidableEq, Repr

/-- `announced` is no data of the program: the timestamps that were stored, up to the
announced bucket end, when the last notification since the connection opened was sent. -/
structure HostConnection where
  fromMs : Int
  resolution : MetricsResolution
  rx : Nat
  state : HostStreamState
  sent : List HostPoint := []
  announced : List Int := []

structure HostStreamSystem where
  store : SqliteMetricsStore
  watcher : BucketWatcher
  /-- A persisted sample that the collector has yet to announce. -/
  unannounced : Option Int
  connection : Option HostConnection

inductive HostStreamAction where
  | insert (sample : HostSample)
  | observe
  | restart
  | connect (fromMs : Int) (now : Int)
  | disconnect
  | snapshot
  | wake
  | query
deriving DecidableEq, Repr

namespace HostConnection

def announce (connection : HostConnection) (before after : ResolutionChannel)
    (rows : List HostSample) : HostConnection :=
  if before.tx.version = after.tx.version then connection
  else { connection with
    announced := (rows.map HostSample.ts).filter fun ts => ts ≤ after.tx.value }

/-- `points.last().map(|p| p.ts).unwrap_or(range.from)`. -/
def snapshot (connection : HostConnection) (range : TimeRange) (points : List HostPoint) :
    HostConnection :=
  { connection with
    sent := points
    state := .waiting ((points.getLast?.map HostPoint.ts).getD range.fromMs) }

/-- The receiver takes the newest value; one at or before the cursor is no news. -/
def wake (connection : HostConnection) (tx : Watch Int) (lastSent : Int) : HostConnection :=
  { connection with
    rx := tx.version
    state := if tx.value ≤ lastSent then .waiting lastSent else .querying lastSent tx.value }

/-- Only the last point of the answer is forwarded. -/
def answer (connection : HostConnection) (lastSent : Int) (points : List HostPoint) :
    HostConnection :=
  match points.getLast? with
  | none => { connection with state := .waiting lastSent }
  | some point =>
      { connection with sent := connection.sent ++ [point], state := .waiting point.ts }

end HostConnection

namespace HostStreamSystem

def channel (system : HostStreamSystem) (resolution : MetricsResolution) : ResolutionChannel :=
  system.watcher.channels .host resolution

def rows (system : HostStreamSystem) (resolution : MetricsResolution) : List HostSample :=
  (system.store.db.host resolution).rows

def insert (search : PartitionPoint) (system : HostStreamSystem) (sample : HostSample) :
    Option HostStreamSystem :=
  match system.unannounced, system.store.insertHost search sample with
  | none, (store, .ok ()) => some { system with store, unannounced := some sample.ts }
  | _, _ => none

def observe (system : HostStreamSystem) : Option HostStreamSystem :=
  system.unannounced.map fun ts =>
    let watcher := system.watcher.observeSample .host ts
    { system with
      watcher
      unannounced := none
      connection := system.connection.map fun connection =>
        connection.announce (system.channel connection.resolution)
          (watcher.channels .host connection.resolution) (system.rows connection.resolution) }

def restart (system : HostStreamSystem) : HostStreamSystem where
  store := .connect system.store.db system.store.downsampleMaxGapPct
  watcher := {}
  unannounced := none
  connection := none

/-- A `from` in the future is refused. -/
def connect (system : HostStreamSystem) (fromMs now : Int) : Option HostStreamSystem :=
  if system.connection.isSome ∨ now < fromMs then none
  else
    let range : TimeRange := ⟨fromMs, now⟩
    let resolution := MetricsResolution.forRange range
    some { system with connection := some {
      fromMs
      resolution
      rx := (system.channel resolution).tx.subscribe
      state := .initial range } }

def poll (system : HostStreamSystem) (action : HostStreamAction) (connection : HostConnection) :
    Option HostConnection :=
  match action, connection.state with
  | .snapshot, .initial range =>
      some (connection.snapshot range (system.store.queryHost range connection.resolution))
  | .wake, .waiting lastSent =>
      let tx := (system.channel connection.resolution).tx
      if tx.hasChanged connection.rx then some (connection.wake tx lastSent) else none
  | .query, .querying lastSent bucketEnd =>
      some (connection.answer lastSent
        (system.store.queryHost ⟨lastSent, bucketEnd⟩ connection.resolution))
  | _, _ => none

def step (search : PartitionPoint) (system : HostStreamSystem) :
    HostStreamAction → Option HostStreamSystem
  | .insert sample => system.insert search sample
  | .observe => system.observe
  | .restart => some system.restart
  | .connect fromMs now => system.connect fromMs now
  | .disconnect => some { system with connection := none }
  | action => do
      let connection ← system.connection
      let connection ← system.poll action connection
      some { system with connection := some connection }

end HostStreamSystem

def hostStream (search : PartitionPoint) (maxGapPct : Nat) :
    Machine HostStreamSystem HostStreamAction where
  start := ⟨.connect .empty maxGapPct, {}, none, none⟩
  step := HostStreamSystem.step search

end Vpsiner.Api
