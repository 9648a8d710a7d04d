import Vpsiner.Logs.Buffer
import Vpsiner.Logs.StoreProperties

/-! One connection of `GET /stream/logs/{service}` next to the log buffer of the service.
The stream checks once when it opens and then after every flush notification; each check
is one query for lines after the cursor. An append and a query are one step each here;
`LogTailWeeks` takes them apart into their week files. -/

set_option autoImplicit false

namespace Vpsiner.Api

open Vpsiner.Lib Vpsiner.Logs

structure LogTailAppend where
  items : List LogLine
  newerCursor : Option String
deriving DecidableEq, Repr

inductive TailPhase where
  | waiting
  | querying
deriving DecidableEq, Repr

/-- The filter holds the cursor in `after`. The rows that were stored when the connection
opened and whenever a cursor was issued are history. -/
structure TailState where
  filter : LogFilter
  seen : Nat
  phase : TailPhase
  appends : List LogTailAppend
  opened : List StoredLog
  issued : List (Option String × List StoredLog)

structure LogTail where
  buffer : LogBuffer
  tail : Option TailState

structure LogTailQuery where
  q : Option String := none
  levels : List LogLevel := []
  streams : List LogStream := []
  after : Option String := none

def LogTailQuery.filter (query : LogTailQuery) : LogFilter where
  query := query.q
  levels := query.levels
  streams := query.streams
  after := query.after

inductive LogTailAction where
  | buffer (action : BufferAction)
  | connect (query : LogTailQuery)
  | wake
  | query

namespace LogTail

/-- The first check does not wait for a notification. -/
def connect (service : String) (state : LogTail) (query : LogTailQuery) : TailState where
  filter := query.filter
  seen := state.buffer.flushWatcher.subscribe
  phase := .querying
  appends := []
  opened := state.buffer.logs.entries service
  issued := []

/-- What a page does to the stream; an error or an empty page sends nothing. -/
def receive (stored : List StoredLog) (tail : TailState) : AppResult LogPage → TailState
  | .error _ => { tail with phase := .waiting }
  | .ok page =>
      if page.items.isEmpty then { tail with phase := .waiting }
      else
        { tail with
          filter := { tail.filter with after := page.newerCursor }
          phase := .waiting
          appends := tail.appends ++ [⟨page.items, page.newerCursor⟩]
          issued := tail.issued ++ [(page.newerCursor, stored)] }

def step (config : BufferConfig) (backend : LogBackend) (state : LogTail) :
    LogTailAction → Option LogTail
  | .buffer action => (state.buffer.step config action).map fun buffer => { state with buffer }
  | .connect query =>
      match state.tail with
      | none => some { state with tail := some (state.connect config.service query) }
      | some _ => none
  | .wake =>
      match state.tail with
      | some tail =>
          if tail.phase = .waiting ∧ state.buffer.flushWatcher.hasChanged tail.seen then
            some { state with
              tail := some { tail with
                phase := .querying, seen := state.buffer.flushWatcher.version } }
          else none
      | none => none
  | .query =>
      match state.tail with
      | some tail =>
          if tail.phase = .querying then
            let page := state.buffer.logs.query backend config.service tail.filter
            some { state with
              tail := some (receive (state.buffer.logs.entries config.service) tail page) }
          else none
      | none => none

end LogTail

def logTailMachine (config : BufferConfig) (backend : LogBackend) (logs : SqliteLogStore)
    (metadata : ContainerId → Option LogCheckpoint) : Machine LogTail LogTailAction where
  start := ⟨.new logs metadata, none⟩
  step := LogTail.step config backend

end Vpsiner.Api
