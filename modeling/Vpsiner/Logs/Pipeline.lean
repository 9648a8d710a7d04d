import Vpsiner.Logs.CheckpointOrder
import Vpsiner.Retention.ResumePoint

/-! The way of the log lines of one service: from the daemon through the log tasks and the channel
they share into the buffer, with retention passes and restarts in between. -/

set_option autoImplicit false

namespace Vpsiner.Logs

open Lib Retention

/-- Where a log task is: it has loaded the checkpoint of its container, or the daemon is sending it
lines. -/
inductive LogTaskPhase where
  | loaded (checkpoint : Option LogCheckpoint)
  | following (since : Int) (unread : List LogLine)
deriving DecidableEq

/-- A stream that is open gets the line when it is not before its first second. -/
def LogTaskPhase.tell (line : LogLine) : LogTaskPhase → LogTaskPhase
  | .loaded checkpoint => .loaded checkpoint
  | .following since unread => .following since (unread ++ replayFrom since [line])

structure PipelineConfig where
  buffer : BufferConfig
  logChannelCapacity : Nat
  retentionWeeks : Nat

/-- `daemon` are the logs that the daemon keeps, and `pruning` is the cutoff of a retention pass
that has removed its week files. `horizon` is history: the latest time before which lines were not
asked for, or were removed. -/
structure LogPipeline where
  daemon : ContainerId → List LogLine := fun _ => []
  tasks : ContainerId → Option LogTaskPhase := fun _ => none
  channel : List LogLine := []
  buffer : LogBuffer
  pruning : Option Int := none
  horizon : Int := i32Min * 1000

inductive PipelineAction where
  | write (line : LogLine)
  | loadCheckpoint (cid : ContainerId)
  | openStream (cid : ContainerId) (now : Int)
  | send (cid : ContainerId)
  | endTask (cid : ContainerId)
  | receive
  | buffer (action : BufferAction)
  | deleteBefore (fates : WalkFates) (now : Int)
  | pruneCheckpoints
  | restart

namespace LogBuffer

def checkpointOfContainer (buffer : LogBuffer) (cid : ContainerId) : Option LogCheckpoint :=
  (buffer.metadata cid).map Mark.checkpoint

def pruneCheckpoints (buffer : LogBuffer) (cutoffMs : Int) : LogBuffer :=
  { buffer with
    metadata := fun cid =>
      (buffer.metadata cid).filter fun mark => !decide (mark.checkpoint.ts < cutoffMs) }

end LogBuffer

namespace LogPipeline

variable (config : PipelineConfig) (state : LogPipeline)

def setTask (cid : ContainerId) (phase : Option LogTaskPhase) : LogPipeline :=
  { state with tasks := Function.update state.tasks cid phase }

/-- The log of a container is in the order of its timestamps; an older line would be dropped by the
push. -/
def write (line : LogLine) : Option LogPipeline :=
  if line.service = config.buffer.service ∧
      ∀ earlier ∈ state.daemon line.cid, earlier.ts ≤ line.ts then
    some { state with
      daemon := Function.update state.daemon line.cid (state.daemon line.cid ++ [line])
      tasks := Function.update state.tasks line.cid
        ((state.tasks line.cid).map (LogTaskPhase.tell line)) }
  else none

def loadCheckpoint (cid : ContainerId) : Option LogPipeline :=
  match state.tasks cid with
  | none => some (state.setTask cid (some (.loaded (state.buffer.checkpointOfContainer cid))))
  | some _ => none

def openStream (cid : ContainerId) (now : Int) : Option LogPipeline :=
  match state.tasks cid with
  | some (.loaded checkpoint) => do
      let cutoffMs ← retentionCutoffMs now config.retentionWeeks
      let since ← logSinceSecs checkpoint now config.retentionWeeks
      some { state.setTask cid (some (.following since (replayFrom since (state.daemon cid)))) with
        horizon := max state.horizon cutoffMs }
  | _ => none

/-- Waits while the channel is full. -/
def send (cid : ContainerId) : Option LogPipeline :=
  match state.tasks cid with
  | some (.following since (line :: unread)) =>
      if state.channel.length < config.logChannelCapacity then
        some { state.setTask cid (some (.following since unread)) with
          channel := state.channel ++ [line] }
      else none
  | _ => none

/-- `run_ingestion` awaits one push before the next. -/
def receive : Option LogPipeline :=
  match state.channel, state.buffer.pushes with
  | line :: channel, [] =>
      some { state with channel, buffer := state.buffer.push config.buffer line }
  | _, _ => none

/-- The first half of a retention pass over the logs; checkpoints go when no week file is left. -/
def deleteBefore (fates : WalkFates) (now : Int) : Option LogPipeline := do
  let cutoffMs ← retentionCutoffMs now config.retentionWeeks
  let (logs, removed) := state.buffer.logs.deleteBefore fates cutoffMs
  some { state with
    buffer := { state.buffer with logs }
    pruning :=
      match removed with
      | .ok _ => some cutoffMs
      | .error _ => none
    horizon := max state.horizon cutoffMs }

def pruneCheckpoints : Option LogPipeline :=
  state.pruning.map fun cutoffMs =>
    { state with buffer := state.buffer.pruneCheckpoints cutoffMs, pruning := none }

/-- The lines in the channel and in memory are gone, and so are the tasks. -/
def restart : LogPipeline where
  daemon := state.daemon
  buffer := .new state.buffer.logs state.buffer.checkpointOfContainer
  horizon := state.horizon

def step : PipelineAction → Option LogPipeline
  | .write line => state.write config line
  | .loadCheckpoint cid => state.loadCheckpoint cid
  | .openStream cid now => state.openStream config cid now
  | .send cid => state.send config cid
  | .endTask cid => some (state.setTask cid none)
  | .receive => state.receive config
  | .buffer (.push _) => none
  | .buffer action => (state.buffer.step config.buffer action).map fun buffer =>
      { state with buffer }
  | .deleteBefore fates now => state.deleteBefore config fates now
  | .pruneCheckpoints => state.pruneCheckpoints
  | .restart => some state.restart

end LogPipeline

end Vpsiner.Logs
