import Vpsiner.Api.LogTail
import Vpsiner.Logs.QuerySafety

/-! The log tail once more, with every week of a flush and of a check as a step of its own. An
append commits one week file after the other, in any order. A check lists the week files and then
reads them one after the other, whatever is created and committed in between. -/

set_option autoImplicit false

namespace Vpsiner.Api

open Vpsiner.Lib Vpsiner.Logs

/-- The week files that a check has yet to read, in the order of its visits, and the rows it has
read so far. -/
structure Walk where
  left : List String
  page : List StoredLog
deriving DecidableEq, Repr

/-- `landed` holds the lines of the running appends whose week is committed, `listing` the week
files that were there when the running listing began. -/
structure LogTailWeeks extends LogTail where
  landed : List Accepted
  listing : Option (List String)
  walk : Option Walk

inductive WeekAction where
  /-- Everything but the return of an append. -/
  | buffer (action : BufferAction)
  | openWeek (flusher : Flusher) (week : String)
  | appendWeek (flusher : Flusher) (week : String) (fate : WeekFate)
  | directoryFails (flusher : Flusher)
  | appendSucceeds (flusher : Flusher)
  | connect (query : LogTailQuery)
  | wake
  | openDir
  | list (created : List String)
  | readWeek
  | answer
  | fail (detail : String)

namespace LogTailWeeks

/-! ## Flushes -/

/-- The weeks that an append of these lines has yet to commit. -/
def pending (state : LogTailWeeks) (lines : List Accepted) : List WeekBatch :=
  byWeek ((lines.filter fun entry => entry ∉ state.landed).map Accepted.line)

/-- The lines of a failed append go ahead of the newer ones. -/
def restore (state : LogTailWeeks) (flusher : Flusher) (lines : List Accepted) : LogTailWeeks :=
  let restored := { state.buffer with lines := lines ++ state.buffer.lines }
  { state with
    buffer := restored.requestServiceFlush.setPhase flusher none
    landed := state.landed.filter fun entry => entry ∉ lines }

/-- A week file is there before its lines are. -/
def openWeek (config : BufferConfig) (state : LogTailWeeks) (flusher : Flusher) (week : String) :
    Option LogTailWeeks :=
  match state.buffer.phase flusher with
  | some (.appending lines _) =>
      ((state.pending lines).find? fun batch => batch.week = week).map fun batch =>
        let dir := (state.buffer.logs.serviceDir? config.service).getD .empty
        let opened := dir.openWeek batch.week batch.week_named
        let logs := state.buffer.logs.setServiceDir config.service opened
        { state with buffer := { state.buffer with logs } }
  | _ => none

/-- One round of the loop of `append`; an error ends the append. -/
def appendWeek (config : BufferConfig) (state : LogTailWeeks) (flusher : Flusher) (week : String)
    (fate : WeekFate) : Option LogTailWeeks :=
  match state.buffer.phase flusher with
  | some (.appending lines _) =>
      ((state.pending lines).find? fun batch => batch.week = week).map fun batch =>
        let dir := (state.buffer.logs.serviceDir? config.service).getD .empty
        let (dir, result) := Logs.appendWeek dir batch fate
        let logs := state.buffer.logs.setServiceDir config.service dir
        let written := { state with buffer := { state.buffer with logs } }
        match result with
        | .ok () =>
            { written with
              landed := state.landed ++ lines.filter fun entry =>
                weekDatabaseName entry.line.ts = some week }
        | .error _ => written.restore flusher lines
  | _ => none

/-- The directory is created before the first week. -/
def directoryFails (state : LogTailWeeks) (flusher : Flusher) : Option LogTailWeeks :=
  match state.buffer.phase flusher with
  | some (.appending lines _) =>
      if (state.pending lines).isEmpty ∨ lines.any (· ∈ state.landed) then none
      else some (state.restore flusher lines)
  | _ => none

def appendSucceeds (state : LogTailWeeks) (flusher : Flusher) : Option LogTailWeeks :=
  match state.buffer.phase flusher with
  | some (.appending lines marks) =>
      if (state.pending lines).isEmpty then
        some { state with
          buffer := state.buffer.setPhase flusher (some (.interning marks))
          landed := state.landed.filter fun entry => entry ∉ lines }
      else none
  | _ => none

/-! ## Checks -/

/-- The query of the check is over. -/
def settle (config : BufferConfig) (state : LogTailWeeks) (tail : TailState)
    (result : AppResult LogPage) : LogTailWeeks :=
  let stored := state.buffer.logs.entries config.service
  { state with tail := some (LogTail.receive stored tail result), listing := none, walk := none }

/-- A query up to its listing of the week files. -/
def openDir (config : BufferConfig) (backend : LogBackend) (state : LogTailWeeks) :
    Option LogTailWeeks :=
  match state.tail, state.listing, state.walk with
  | some tail, none, none =>
      if tail.phase = .querying then
        match requestedCursor backend tail.filter with
        | .error fault => some (state.settle config tail (.error fault))
        | .ok _ =>
            match state.buffer.logs.serviceDir? config.service with
            | none => some (state.settle config tail (.ok (emptyPage none)))
            | some dir => some { state with listing := some (dir.weeks.map WeekDb.name) }
      else none
  | _, _, _ => none

/-- A listing has every file that was there when it began, and some of those created since. -/
def list (config : BufferConfig) (backend : LogBackend) (state : LogTailWeeks)
    (created : List String) : Option LogTailWeeks :=
  match state.tail, state.listing with
  | some tail, some there => do
      let dir ← state.buffer.logs.serviceDir? config.service
      let (direction, cursor) ← (requestedCursor backend tail.filter).toOption
      let listed := readWeekFiles (dir.listed (there ++ created))
      let weeks := orderedCandidates listed tail.filter cursor direction
      some { state with listing := none, walk := some ⟨weeks.map WeekDb.name, []⟩ }
  | _, _ => none

/-- One round of the loop of `query`; a page that has a row too many ends the loop. No step
removes a week file, so the file of the week is there. -/
def readWeek (config : BufferConfig) (backend : LogBackend) (state : LogTailWeeks) :
    Option LogTailWeeks :=
  match state.tail, state.walk with
  | some tail, some ⟨week :: rest, page⟩ => do
      let dir ← state.buffer.logs.serviceDir? config.service
      let db ← dir.weeks.find? fun db => db.name = week
      let target := pageLimit tail.filter + 1
      let scanned := requestedCursor backend tail.filter >>= fun (direction, cursor) =>
        scanWeeks backend config.service tail.filter (tail.filter.query.bind sanitizeFtsQuery)
          cursor direction target [db] page
      match scanned with
      | .ok page =>
          some { state with walk := some ⟨if target ≤ page.length then [] else rest, page⟩ }
      | .error fault => some (state.settle config tail (.error fault))
  | _, _ => none

def answer (config : BufferConfig) (backend : LogBackend) (state : LogTailWeeks) :
    Option LogTailWeeks :=
  match state.tail, state.walk with
  | some tail, some ⟨[], page⟩ =>
      some (state.settle config tail ((requestedCursor backend tail.filter).map fun requested =>
        pageOf backend tail.filter requested.1 (pageLimit tail.filter) page))
  | _, _ => none

/-- A file system, a database or an index that fails. -/
def fail (config : BufferConfig) (state : LogTailWeeks) (detail : String) : Option LogTailWeeks :=
  state.tail.bind fun tail =>
    if tail.phase = .querying then some (state.settle config tail (.error (storage detail)))
    else none

def step (config : BufferConfig) (backend : LogBackend) (state : LogTailWeeks) :
    WeekAction → Option LogTailWeeks
  | .buffer (.appendReturns _ _) => none
  | .buffer action => (state.buffer.step config action).map fun buffer => { state with buffer }
  | .openWeek flusher week => state.openWeek config flusher week
  | .appendWeek flusher week fate => state.appendWeek config flusher week fate
  | .directoryFails flusher => state.directoryFails flusher
  | .appendSucceeds flusher => state.appendSucceeds flusher
  | .connect query => (state.toLogTail.step config backend (.connect query)).map
      fun toLogTail => { state with toLogTail }
  | .wake => (state.toLogTail.step config backend .wake).map
      fun toLogTail => { state with toLogTail }
  | .openDir => state.openDir config backend
  | .list created => state.list config backend created
  | .readWeek => state.readWeek config backend
  | .answer => state.answer config backend
  | .fail detail => state.fail config detail

end LogTailWeeks

def logTailWeeksMachine (config : BufferConfig) (backend : LogBackend) (logs : SqliteLogStore)
    (metadata : ContainerId → Option LogCheckpoint) : Machine LogTailWeeks WeekAction where
  start := {
    buffer := .new logs metadata, tail := none, landed := [], listing := none, walk := none }
  step := LogTailWeeks.step config backend

end Vpsiner.Api
