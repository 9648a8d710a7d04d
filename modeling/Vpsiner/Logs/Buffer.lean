import Mathlib.Logic.Function.Basic
import Vpsiner.Lib.Machine
import Vpsiner.Lib.Watch
import Vpsiner.Logs.Store

/-! The log buffer of one service: the lines that passed the two-level dedup, the
debounced worker that flushes them, and the flushes that pushes run themselves once the
backlog is at its maximum. Flushes and pushes are atomic between their awaits.

Every accepted line carries the number of lines accepted before it, and every checkpoint that of
the lines accepted up to its own. These numbers and the list of accepted lines are history: no step
reads them. -/

set_option autoImplicit false

namespace Vpsiner.Logs

open Vpsiner.Lib

structure LogCheckpoint where
  ts : Int
  lineHash : UInt64
deriving DecidableEq, Repr

structure Accepted where
  seq : Nat
  line : LogLine
deriving DecidableEq, Repr

/-- A checkpoint with the number of lines accepted when it was taken. -/
structure Mark where
  checkpoint : LogCheckpoint
  seq : Nat
deriving DecidableEq, Repr

/-- Who runs a flush: the worker, or one of the pushes that have not returned. -/
inductive Flusher where
  | worker
  | push (index : Nat)
deriving DecidableEq, Repr

/-- The await at which a running `flush_service` stands. -/
inductive FlushPhase where
  | appending (lines : List Accepted) (marks : List (ContainerId × Mark))
  | interning (marks : List (ContainerId × Mark))
  | advancing (marks : List (ContainerId × Mark))
deriving DecidableEq, Repr

inductive Worker where
  | stopped
  | receiving
  | debouncing
  | drained
  | flushing (phase : FlushPhase)
deriving DecidableEq, Repr

structure BufferConfig where
  service : String
  maxBufferedLines : Nat
  hash : LogStream → String → UInt64

structure LogBuffer where
  lines : List Accepted
  checkpoints : ContainerId → Option Mark
  flushTx : Bool
  /-- The channel of capacity one holds a request. -/
  requested : Bool
  worker : Worker
  /-- The flushes of the pushes that have not returned. -/
  pushes : List FlushPhase
  logs : SqliteLogStore
  /-- The rows of `log_checkpoints` with the id of the service. -/
  metadata : ContainerId → Option Mark
  flushWatcher : Watch Nat
  history : List Accepted

inductive BufferAction where
  | push (line : LogLine)
  | workerReceives
  | workerDrains
  | workerFlushes
  | workerTimesOut
  | appendReturns (flusher : Flusher) (fates : AppendFates)
  | internReturns (flusher : Flusher) (interned : Bool)
  | advanceReturns (flusher : Flusher) (persisted : Bool)

namespace LogBuffer

/-- The checkpoints of the metadata store seed the dedup. -/
def new (logs : SqliteLogStore) (metadata : ContainerId → Option LogCheckpoint) : LogBuffer :=
  let seeded := fun cid => (metadata cid).map fun checkpoint => ⟨checkpoint, 0⟩
  { lines := []
    checkpoints := seeded
    flushTx := false
    requested := false
    worker := .stopped
    pushes := []
    logs := logs
    metadata := seeded
    flushWatcher := { value := 0 }
    history := [] }

def phase (buffer : LogBuffer) : Flusher → Option FlushPhase
  | .worker =>
      match buffer.worker with
      | .flushing phase => some phase
      | _ => none
  | .push index => buffer.pushes[index]?

/-- A worker that is done flushing waits for the next request; a push that is done
returns. -/
def setPhase (buffer : LogBuffer) (flusher : Flusher) (phase : Option FlushPhase) : LogBuffer :=
  { buffer with
    worker :=
      match flusher with
      | .worker => phase.elim .receiving .flushing
      | .push _ => buffer.worker
    pushes :=
      match flusher with
      | .worker => buffer.pushes
      | .push index => phase.elim (buffer.pushes.eraseIdx index) (buffer.pushes.set index) }

/-! ## Pushing -/

/-- A strictly older line is dropped, and so is an exact repeat at the last timestamp. -/
def accepts (config : BufferConfig) (checkpoints : ContainerId → Option Mark)
    (line : LogLine) : Bool :=
  match checkpoints line.cid with
  | none => true
  | some last => !(decide (line.ts < last.checkpoint.ts) ||
      (line.ts == last.checkpoint.ts && config.hash line.stream line.line == last.checkpoint.lineHash))

def accept (config : BufferConfig) (buffer : LogBuffer) (line : LogLine) : LogBuffer :=
  let entry := ⟨buffer.history.length, line⟩
  { buffer with
    checkpoints := Function.update buffer.checkpoints line.cid
      (some ⟨⟨line.ts, config.hash line.stream line.line⟩, entry.seq + 1⟩)
    lines := buffer.lines ++ [entry]
    history := buffer.history ++ [entry] }

/-- Spawns the worker when there is none, and requests a flush. -/
def scheduleFlush (buffer : LogBuffer) : LogBuffer :=
  { buffer with
    flushTx := true
    worker := if buffer.flushTx then buffer.worker else .receiving
    requested := true }

/-- The checkpoints of the containers that have a line in the batch. -/
def marksOf (checkpoints : ContainerId → Option Mark) (lines : List Accepted) :
    List (ContainerId × Mark) :=
  ((lines.map fun entry => entry.line.cid).insertionSort (· ≤ ·)).dedup.filterMap fun cid =>
    (checkpoints cid).map fun mark => (cid, mark)

/-- `flush_service` up to its append, with the phase in which it goes on. -/
def startFlush (buffer : LogBuffer) : LogBuffer × Option FlushPhase :=
  match buffer.lines with
  | [] => (buffer, none)
  | lines => ({ buffer with lines := [] },
      some (.appending lines (marksOf buffer.checkpoints lines)))

def push (config : BufferConfig) (buffer : LogBuffer) (line : LogLine) : LogBuffer :=
  if accepts config buffer.checkpoints line then
    let buffer := buffer.accept config line
    if config.maxBufferedLines ≤ buffer.lines.length then
      let (buffer, phase) := buffer.startFlush
      { buffer with pushes := buffer.pushes ++ phase.toList }
    else buffer.scheduleFlush
  else buffer

/-! ## Flushing -/

def requestServiceFlush (buffer : LogBuffer) : LogBuffer :=
  { buffer with requested := buffer.flushTx || buffer.requested }

def notify (buffer : LogBuffer) : LogBuffer :=
  { buffer with flushWatcher := buffer.flushWatcher.send (buffer.flushWatcher.value + 1) }

/-- The lines of a failed append go ahead of the newer ones. -/
def appendReturns (config : BufferConfig) (buffer : LogBuffer) (flusher : Flusher)
    (fates : AppendFates) : Option LogBuffer :=
  match buffer.phase flusher with
  | some (.appending lines marks) =>
      match buffer.logs.append fates config.service (lines.map Accepted.line) with
      | (logs, .ok ()) => some ({ buffer with logs }.setPhase flusher (some (.interning marks)))
      | (logs, .error _) =>
          let restored := { buffer with logs, lines := lines ++ buffer.lines }
          some (restored.requestServiceFlush.setPhase flusher none)
  | _ => none

def advanceNext (buffer : LogBuffer) (flusher : Flusher) :
    List (ContainerId × Mark) → LogBuffer
  | [] => buffer.notify.setPhase flusher none
  | marks => buffer.setPhase flusher (some (.advancing marks))

/-- The upsert keeps a stored checkpoint that is newer. -/
def advanceLogCheckpoint (buffer : LogBuffer) (cid : ContainerId) (mark : Mark) : LogBuffer :=
  let newer := (buffer.metadata cid).any fun stored => mark.checkpoint.ts < stored.checkpoint.ts
  { buffer with
    metadata := if newer then buffer.metadata else Function.update buffer.metadata cid (some mark) }

def internReturns (buffer : LogBuffer) (flusher : Flusher) (interned : Bool) : Option LogBuffer :=
  match buffer.phase flusher with
  | some (.interning marks) =>
      if interned then some (buffer.advanceNext flusher marks)
      else some (buffer.notify.setPhase flusher none)
  | _ => none

def advanceReturns (buffer : LogBuffer) (flusher : Flusher) (persisted : Bool) :
    Option LogBuffer :=
  match buffer.phase flusher with
  | some (.advancing ((cid, mark) :: rest)) =>
      let advanced := if persisted then buffer.advanceLogCheckpoint cid mark else buffer
      some (advanced.advanceNext flusher rest)
  | _ => none

/-! ## The worker -/

def workerReceives (buffer : LogBuffer) : Option LogBuffer :=
  match buffer.worker, buffer.requested with
  | .receiving, true => some { buffer with requested := false, worker := .debouncing }
  | _, _ => none

/-- Requests that arrived during the debounce are coalesced. -/
def workerDrains (buffer : LogBuffer) : Option LogBuffer :=
  match buffer.worker with
  | .debouncing => some { buffer with requested := false, worker := .drained }
  | _ => none

def workerFlushes (buffer : LogBuffer) : Option LogBuffer :=
  match buffer.worker with
  | .drained =>
      let (buffer, phase) := buffer.startFlush
      some (buffer.setPhase .worker phase)
  | _ => none

/-- An idle worker stops when nothing is buffered. -/
def workerTimesOut (buffer : LogBuffer) : Option LogBuffer :=
  match buffer.worker, buffer.requested with
  | .receiving, false =>
      if buffer.lines.isEmpty then some { buffer with flushTx := false, worker := .stopped }
      else some buffer
  | _, _ => none

def step (config : BufferConfig) (buffer : LogBuffer) : BufferAction → Option LogBuffer
  | .push line => if line.service = config.service then some (buffer.push config line) else none
  | .workerReceives => buffer.workerReceives
  | .workerDrains => buffer.workerDrains
  | .workerFlushes => buffer.workerFlushes
  | .workerTimesOut => buffer.workerTimesOut
  | .appendReturns flusher fates => buffer.appendReturns config flusher fates
  | .internReturns flusher interned => buffer.internReturns flusher interned
  | .advanceReturns flusher persisted => buffer.advanceReturns flusher persisted

/-- A push starts only when the one before it has returned. -/
def SequentialPushes (before : LogBuffer) : BufferAction → Prop
  | .push _ => before.pushes = []
  | _ => True

instance (before : LogBuffer) (action : BufferAction) :
    Decidable (before.SequentialPushes action) :=
  match action with
  | .push _ => inferInstanceAs (Decidable (before.pushes = []))
  | .workerReceives => .isTrue trivial
  | .workerDrains => .isTrue trivial
  | .workerFlushes => .isTrue trivial
  | .workerTimesOut => .isTrue trivial
  | .appendReturns _ _ => .isTrue trivial
  | .internReturns _ _ => .isTrue trivial
  | .advanceReturns _ _ => .isTrue trivial

end LogBuffer

/-- The buffer of one service, started over a log store and the checkpoints of the
metadata store. -/
def bufferMachine (config : BufferConfig) (logs : SqliteLogStore)
    (metadata : ContainerId → Option LogCheckpoint) : Machine LogBuffer BufferAction where
  start := .new logs metadata
  step := LogBuffer.step config

end Vpsiner.Logs
