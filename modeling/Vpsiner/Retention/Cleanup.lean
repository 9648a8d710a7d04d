import Vpsiner.Lib.Machine
import Vpsiner.Logs.Buffer
import Vpsiner.Logs.Retention
import Vpsiner.Metadata.Services
import Vpsiner.Metrics.Retention
import Vpsiner.Retention.Cutoff

/-! One retention pass over the three stores, and the work that goes on between passes. -/

set_option autoImplicit false

namespace Vpsiner

open Lib Logs Metrics

/-- Widest bucket a row can be stamped into. -/
def MetricsResolution.maxBucketMs : Int :=
  coarse.foldl (fun widest resolution => max widest resolution.bucketMs) 0

namespace Retention

/-- `log_checkpoints` by its primary key. -/
abbrev LogCheckpoints := ServiceId → ContainerId → Option LogCheckpoint

def LogCheckpoints.deleteBefore (checkpoints : LogCheckpoints) (cutoffMs : Int) : LogCheckpoints :=
  fun sid cid => (checkpoints sid cid).filter fun checkpoint => !decide (checkpoint.ts < cutoffMs)

/-- The upsert keeps a stored checkpoint that is newer. -/
def LogCheckpoints.advance (checkpoints : LogCheckpoints) (sid : ServiceId) (cid : ContainerId)
    (checkpoint : LogCheckpoint) : LogCheckpoints :=
  if (checkpoints sid cid).any fun stored => checkpoint.ts < stored.ts then checkpoints
  else Function.update checkpoints sid (Function.update (checkpoints sid) cid (some checkpoint))

/-- What the process has stored, with the caches in front of it. -/
structure Stores where
  metrics : SqliteMetricsStore
  logs : SqliteLogStore
  checkpoints : LogCheckpoints
  services : ServiceRegistry

/-- Which calls of a pass fail. -/
structure PassFates where
  metrics : MetricsTable → Option String := fun _ => none
  logs : WalkFates := {}
  checkpoints : Option String := none
  services : Option String := none

/-- There is no result when the cutoff is outside the calendar. Checkpoints go once the log
databases are gone, service ids last. A pass is one step: nothing is stored between its deletions. -/
def cleanupOnce (fates : PassFates) (retentionWeeks : Nat) (now : Int) (stores : Stores) :
    Option Stores := do
  let cutoffMs ← retentionCutoffMs now retentionWeeks
  let (metrics, metricsCleaned) := stores.metrics.deleteBefore fates.metrics cutoffMs
  let (logs, logsRemoved) := stores.logs.deleteBefore fates.logs cutoffMs
  let checkpoints :=
    match logsRemoved, fates.checkpoints with
    | .ok _, none => stores.checkpoints.deleteBefore cutoffMs
    | _, _ => stores.checkpoints
  let services :=
    match metricsCleaned, logsRemoved with
    | .ok _, .ok _ =>
        (stores.services.reclaimBefore
          (cutoffMs - MetricsResolution.maxBucketMs - maxWatermarkLagMs) fates.services).1
    | _, _ => stores.services
  return ⟨metrics, logs, checkpoints, services⟩

/-! ## Between passes -/

/-- A sample under the id that its service had. -/
structure Sampled where
  cid : ContainerId
  service : ServiceId
  ts : Int
deriving DecidableEq, Repr

/-- `sampled` and `flushed` are history: no step of the stores reads them. -/
structure RetentionRun where
  stores : Stores
  clock : Int
  sampled : List Sampled
  flushed : List (ServiceId × Int)

inductive RetentionEvent where
  | sample (cid : ContainerId) (name : String) (ts now : Int)
  | bucket (order : HashOrder) (rows : List ContainerSample)
  | append (fates : AppendFates) (service : String) (lines : List LogLine)
  | flush (name : String) (now : Int)
  | checkpoint (sid : ServiceId) (cid : ContainerId) (checkpoint : LogCheckpoint)
  | cleanup (now : Int)
  | restart

/-- The id of a service for a sample or a flush; its statement succeeds. -/
def RetentionRun.intern (run : RetentionRun) (name : String) (now : Int) :
    Option (RetentionRun × ServiceId) :=
  match run.stores.services.idOf name now none with
  | (_, .error _) => none
  | (services, .ok sid) => some ({ run with stores := { run.stores with services }, clock := now }, sid)

def RetentionRun.step (search : PartitionPoint) (retentionWeeks : Nat) (run : RetentionRun) :
    RetentionEvent → Option RetentionRun
  | .sample cid name ts now => (run.intern name now).map fun (run, sid) =>
      { run with sampled := ⟨cid, sid, ts⟩ :: run.sampled }
  | .bucket order rows =>
      let metrics := (run.stores.metrics.insertContainers search order rows).1
      some { run with stores := { run.stores with metrics } }
  | .append fates service lines =>
      let logs := (run.stores.logs.append fates service lines).1
      some { run with stores := { run.stores with logs } }
  | .flush name now => (run.intern name now).map fun (run, sid) =>
      { run with flushed := (sid, now) :: run.flushed }
  | .checkpoint sid cid checkpoint =>
      let checkpoints := run.stores.checkpoints.advance sid cid checkpoint
      some { run with stores := { run.stores with checkpoints } }
  | .cleanup now => (cleanupOnce {} retentionWeeks now run.stores).map fun stores =>
      { run with stores, clock := now }
  | .restart =>
      match ServiceRegistry.load run.stores.services.store with
      | .error _ => none
      | .ok services =>
          let metrics := .connect run.stores.metrics.db run.stores.metrics.downsampleMaxGapPct
          some { run with stores := { run.stores with metrics, services } }

def retentionMachine (search : PartitionPoint) (downsampleMaxGapPct retentionWeeks : Nat)
    (clock : Int) : Machine RetentionRun RetentionEvent where
  start := ⟨⟨.connect .empty downsampleMaxGapPct, .empty, fun _ _ => none, ⟨.empty, .empty⟩⟩,
    clock, [], []⟩
  step := RetentionRun.step search retentionWeeks

/-- The clock does not go back. A sample is taken before its id is asked for, a row ends no
later than a sample of its container, and a checkpoint no later than the flush it belongs to. -/
def InOrder (run : RetentionRun) : RetentionEvent → Prop
  | .sample _ _ ts now => run.clock ≤ now ∧ ts ≤ now
  | .bucket _ rows => ∀ row ∈ rows, ∃ sample ∈ run.sampled,
      sample.cid = row.cid ∧ sample.service = row.service ∧ row.ts ≤ sample.ts
  | .append _ _ _ => True
  | .flush _ now => run.clock ≤ now
  | .checkpoint sid _ checkpoint => ∃ flush ∈ run.flushed, flush.1 = sid ∧ checkpoint.ts ≤ flush.2
  | .cleanup now => run.clock ≤ now
  | .restart => True

/-- The id is in the table and in the registry. -/
def Registered (services : ServiceRegistry) (sid : ServiceId) : Prop :=
  (∃ row ∈ services.store.rows, row.sid = sid.raw.toNat) ∧
    ∃ name, services.inner.byId sid = some name

/-- Every stored row and every checkpoint has its service. -/
structure References (stores : Stores) : Prop where
  metrics : ∀ resolution, ∀ row ∈ (stores.metrics.db.containers resolution).rows,
    Registered stores.services row.service
  checkpoints : ∀ sid cid checkpoint, stores.checkpoints sid cid = some checkpoint →
    Registered stores.services sid

end Retention

end Vpsiner
