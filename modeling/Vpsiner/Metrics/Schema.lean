import Vpsiner.Lib.KeyedTable
import Vpsiner.Model.Metrics
import Mathlib.Data.List.Sort
import Mathlib.Data.Prod.Lex

/-! The metrics tables and the statements executed on them. A stored row is the
sample it was written from: the columns hold the fields unchanged. -/

set_option autoImplicit false

namespace Vpsiner.Metrics

open Lib

/-- The primary key of the container tables. -/
def containerKey (sample : ContainerSample) : Lex (Int × ContainerId) :=
  toLex (sample.ts, sample.cid)

abbrev HostTable := KeyedTable HostSample.ts
abbrev ContainerTable := KeyedTable containerKey

/-- `metrics.db`: one host and one container table for each resolution. -/
structure MetricsDb where
  host : MetricsResolution → HostTable
  containers : MetricsResolution → ContainerTable

namespace MetricsDb

def empty : MetricsDb := ⟨fun _ => .empty, fun _ => .empty⟩

def setHost (db : MetricsDb) (resolution : MetricsResolution) (table : HostTable) : MetricsDb :=
  { db with host := fun other => if other = resolution then table else db.host other }

def setContainers (db : MetricsDb) (resolution : MetricsResolution) (table : ContainerTable) :
    MetricsDb :=
  { db with containers := fun other => if other = resolution then table else db.containers other }

@[simp] theorem host_setHost (db : MetricsDb) (resolution other : MetricsResolution)
    (table : HostTable) :
    (db.setHost resolution table).host other = if other = resolution then table else db.host other :=
  rfl

@[simp] theorem containers_setHost (db : MetricsDb) (resolution : MetricsResolution)
    (table : HostTable) : (db.setHost resolution table).containers = db.containers := rfl

@[simp] theorem containers_setContainers (db : MetricsDb) (resolution other : MetricsResolution)
    (table : ContainerTable) :
    (db.setContainers resolution table).containers other =
      if other = resolution then table else db.containers other := rfl

@[simp] theorem host_setContainers (db : MetricsDb) (resolution : MetricsResolution)
    (table : ContainerTable) : (db.setContainers resolution table).host = db.host := rfl

theorem setHost_self (db : MetricsDb) (resolution : MetricsResolution) :
    db.setHost resolution (db.host resolution) = db := by
  rcases db with ⟨host, containers⟩
  simp only [setHost, mk.injEq, and_true]
  funext other
  split
  · next same => rw [same]
  · rfl

theorem setContainers_self (db : MetricsDb) (resolution : MetricsResolution) :
    db.setContainers resolution (db.containers resolution) = db := by
  rcases db with ⟨host, containers⟩
  simp only [setContainers, mk.injEq, true_and]
  funext other
  split
  · next same => rw [same]
  · rfl

@[simp] theorem setHost_setHost (db : MetricsDb) (resolution : MetricsResolution)
    (first second : HostTable) :
    (db.setHost resolution first).setHost resolution second = db.setHost resolution second := by
  simp only [setHost, mk.injEq, and_true]
  funext other
  split <;> rfl

end MetricsDb

def suffix : MetricsResolution → String
  | .tenSeconds => "10s"
  | .oneMinute => "1m"
  | .fiveMinutes => "5m"
  | .oneHour => "1h"

def hostTable (resolution : MetricsResolution) : String := "host_metrics_" ++ suffix resolution

def containerTable (resolution : MetricsResolution) : String :=
  "container_metrics_" ++ suffix resolution

def storage (detail : String) : Fault := .error (.storage detail)

/-- SQLite integers are signed. -/
def sqliteInteger (value : Nat) (column : String) : AppResult Int :=
  if (value : Int) ≤ i64Max then .ok value
  else .error (storage (column ++ " exceeds SQLite INTEGER range"))

/-- The integer columns in the order in which a write converts them. -/
def hostColumns (sample : HostSample) : List (Option Nat × String) := [
  (some sample.cpuPctMill, "cpu_pct_mill"),
  (some sample.memUsed, "mem_used"),
  (some sample.storageUsed, "storage_used"),
  (some sample.metricsSize, "metrics_size"),
  (some sample.logsSize, "logs_size"),
  (sample.netRxRateMill, "net_rx_rate_mill"),
  (sample.netTxRateMill, "net_tx_rate_mill"),
  (sample.diskReadRateMill, "disk_read_rate_mill"),
  (sample.diskWriteRateMill, "disk_write_rate_mill"),
  (sample.logPressurePctMill, "log_pressure_pct_mill"),
  (sample.appRssBytes, "app_rss_bytes")]

def containerColumns (sample : ContainerSample) : List (Option Nat × String) := [
  (some sample.cpuPctMill, "cpu_pct_mill"),
  (some sample.memUsed, "mem_used"),
  (sample.netRxRateMill, "net_rx_rate_mill"),
  (sample.netTxRateMill, "net_tx_rate_mill"),
  (sample.blkReadRateMill, "blk_read_rate_mill"),
  (sample.blkWriteRateMill, "blk_write_rate_mill")]

/-- A column that is `NULL` needs no conversion; the first failure is reported. -/
def checkColumns : List (Option Nat × String) → AppResult Unit
  | [] => .ok ()
  | (none, _) :: rest => checkColumns rest
  | (some value, column) :: rest =>
      match sqliteInteger value column with
      | .error fault => .error fault
      | .ok _ => checkColumns rest

/-- Rollups recompute whole buckets, so replaying one must overwrite rather than
fail: `INSERT OR REPLACE` on the coarse tables, `INSERT` on the `10s` tables. -/
def insertRow {κ ρ : Type} [LinearOrder κ] {key : ρ → κ} (resolution : MetricsResolution)
    (table : KeyedTable key) (row : ρ) : Option (KeyedTable key) :=
  match resolution with
  | .tenSeconds => table.insert? row
  | _ => some (table.upsert row)

def insertHost (db : MetricsDb) (resolution : MetricsResolution) (sample : HostSample) :
    AppResult MetricsDb :=
  match checkColumns (hostColumns sample) with
  | .error fault => .error fault
  | .ok () =>
      match insertRow resolution (db.host resolution) sample with
      | none => .error (storage ("UNIQUE constraint failed: " ++ hostTable resolution ++ ".ts"))
      | some table => .ok (db.setHost resolution table)

def checkSamples : List ContainerSample → AppResult Unit
  | [] => .ok ()
  | sample :: rest =>
      match checkColumns (containerColumns sample) with
      | .error fault => .error fault
      | .ok () => checkSamples rest

/-- One transaction for all rows: a duplicate key rolls every row back. -/
def insertContainers (db : MetricsDb) (resolution : MetricsResolution)
    (samples : List ContainerSample) : AppResult MetricsDb :=
  if samples.isEmpty then .ok db
  else
    match checkSamples samples with
    | .error fault => .error fault
    | .ok () =>
        match samples.foldlM (insertRow resolution) (db.containers resolution) with
        | none =>
            .error (storage ("UNIQUE constraint failed: " ++ containerTable resolution ++ ".ts, " ++
              containerTable resolution ++ ".cid"))
        | some table => .ok (db.setContainers resolution table)

def selectHost (db : MetricsDb) (resolution : MetricsResolution) (range : TimeRange) :
    List HostSample :=
  (db.host resolution).select fun sample => range.contains sample.ts

/-- The order `ORDER BY cid ASC, ts ASC`. -/
def cidThenTs (left right : ContainerSample) : Prop :=
  left.cid < right.cid ∨ (left.cid = right.cid ∧ left.ts ≤ right.ts)

instance : DecidableRel cidThenTs := fun _ _ => inferInstanceAs (Decidable (_ ∨ _))

def selectContainers (db : MetricsDb) (resolution : MetricsResolution) (range : TimeRange) :
    List ContainerSample :=
  ((db.containers resolution).select fun sample => range.contains sample.ts).insertionSort cidThenTs

/-- Newest stored bucket in the host table for `resolution`. -/
def selectHostMaxTs (db : MetricsDb) (resolution : MetricsResolution) : Option Int :=
  ((db.host resolution).rows.map HostSample.ts).max?

/-- Newest stored bucket in the container table for `resolution`. -/
def selectContainersMaxTs (db : MetricsDb) (resolution : MetricsResolution) :
    Option Int :=
  ((db.containers resolution).rows.map ContainerSample.ts).max?

def deleteHostBefore (db : MetricsDb) (resolution : MetricsResolution) (cutoffMs : Int) :
    MetricsDb :=
  db.setHost resolution ((db.host resolution).eraseWhere fun sample => sample.ts < cutoffMs)

def deleteContainersBefore (db : MetricsDb) (resolution : MetricsResolution) (cutoffMs : Int) :
    MetricsDb :=
  db.setContainers resolution
    ((db.containers resolution).eraseWhere fun sample => sample.ts < cutoffMs)

end Vpsiner.Metrics
