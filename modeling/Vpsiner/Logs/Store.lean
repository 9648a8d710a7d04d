import Mathlib.Data.List.Sort
import Mathlib.Data.List.DropRight
import Vpsiner.Lib.HashOrder
import Vpsiner.Logs.Schema

/-! The log store: appending a batch of lines to the week databases of a service, and
answering a query with one page of lines. -/

set_option autoImplicit false

namespace Vpsiner.Logs

open Vpsiner.Lib

/-- The cursor encoding and the full text search are foreign. A cursor that names a
week file survives the encoding. `ftsMatches` supposes an expression that the index can read, as
that of every search without U+0000 is. -/
structure LogBackend where
  encodeCursor : LogCursor → Except String String
  decodeCursor : String → Except String LogCursor
  ftsMatches : String → String → Bool
  cursor_roundTrip : ∀ cursor, (∃ tsMs, weekDatabaseName tsMs = some cursor.week) →
    ∃ text, encodeCursor cursor = .ok text ∧ decodeCursor text = .ok cursor

/-- Week file names always come from `weekDatabaseName`, so the panic is unreachable
for them. -/
def weekStartMs (week : String) : AppResult Int :=
  match databaseWeekStartMs week with
  | some start => .ok start
  | none => .error (.panic "week file name must encode a valid week start")

def storage (detail : String) : Fault := .error (.storage detail)

/-! ## Appending -/

/-- The lines of one batch that belong to one week file. -/
structure WeekBatch where
  week : String
  lines : List LogLine
  named : ∀ line ∈ lines, weekDatabaseName line.ts = some week
  nonempty : lines ≠ []

/-- Lines whose date has no week file are left out. -/
def byWeek (lines : List LogLine) : List WeekBatch :=
  let weeks := (lines.filterMap fun line => weekDatabaseName line.ts).dedup
  weeks.attach.map fun ⟨week, present⟩ =>
    { week
      lines := lines.filter fun line => weekDatabaseName line.ts = some week
      named := fun _ member => of_decide_eq_true (List.mem_filter.mp member).2
      nonempty := by
        obtain ⟨line, member, named⟩ := List.mem_filterMap.mp (List.mem_dedup.mp present)
        exact List.ne_nil_of_mem (List.mem_filter.mpr ⟨member, decide_eq_true named⟩) }

theorem WeekBatch.week_named (batch : WeekBatch) :
    ∃ tsMs, weekDatabaseName tsMs = some batch.week := by
  obtain ⟨line, member⟩ := List.exists_mem_of_ne_nil _ batch.nonempty
  exact ⟨line.ts, batch.named line member⟩

/-- How the work on one week database ends. A failing open may leave a new, empty
file behind; a failing insert or commit rolls the transaction back. -/
inductive WeekFate where
  | openFails (detail : String) (created : Bool)
  | insertFails (detail : String)
  | commitFails (detail : String)
  | commits
deriving DecidableEq, Repr

/-- The service directory may fail to be created; the weeks are visited in the order
of a hash map. -/
structure AppendFates where
  directory : Option String := none
  order : HashOrder := .unchanged
  week : String → WeekFate := fun _ => .commits

def commitInto (batch : WeekBatch) {weekStart : Int}
    (start : databaseWeekStartMs batch.week = some weekStart) (db : WeekDb) : WeekDb :=
  if same : db.name = batch.week then
    db.insertAll (same ▸ start) batch.lines (same ▸ batch.named)
  else db

theorem name_commitInto (batch : WeekBatch) {weekStart : Int}
    (start : databaseWeekStartMs batch.week = some weekStart) (db : WeekDb) :
    (commitInto batch start db).name = db.name := by
  rw [commitInto]
  split
  · rfl
  · rfl

def appendWeek (dir : ServiceDir) (batch : WeekBatch) (fate : WeekFate) :
    ServiceDir × AppResult Unit :=
  match start : databaseWeekStartMs batch.week with
  | none => (dir, .error (.panic "week file name must encode a valid week start"))
  | some _ =>
      let opened := dir.openWeek batch.week batch.week_named
      match fate with
      | .openFails detail created => (if created then opened else dir, .error (storage detail))
      | .insertFails detail => (opened, .error (storage detail))
      | .commitFails detail => (opened, .error (storage detail))
      | .commits => (opened.modify (commitInto batch start) (name_commitInto batch start), .ok ())

/-- The first failing week ends the append; the weeks before it stay committed. -/
def appendWeeks (fate : String → WeekFate) : List WeekBatch → ServiceDir →
    ServiceDir × AppResult Unit
  | [], dir => (dir, .ok ())
  | batch :: rest, dir =>
      match appendWeek dir batch (fate batch.week) with
      | (dir, .ok ()) => appendWeeks fate rest dir
      | (dir, .error fault) => (dir, .error fault)

/-- The root directory of the store. -/
structure SqliteLogStore where
  directories : List (String × ServiceDir)
  distinct : (directories.map Prod.fst).Nodup

namespace SqliteLogStore

def empty : SqliteLogStore := ⟨[], List.nodup_nil⟩

def serviceDir? (store : SqliteLogStore) (service : String) : Option ServiceDir :=
  store.directories.lookup (safeServicePath service)

def setServiceDir (store : SqliteLogStore) (service : String) (dir : ServiceDir) :
    SqliteLogStore where
  directories := (safeServicePath service, dir) ::
    store.directories.filter fun entry => entry.1 ≠ safeServicePath service
  distinct := by
    rw [List.map_cons, List.nodup_cons]
    refine ⟨?_, (List.filter_sublist.map _).nodup store.distinct⟩
    simp

def append (store : SqliteLogStore) (fates : AppendFates) (service : String)
    (lines : List LogLine) : SqliteLogStore × AppResult Unit :=
  match fates.order.arrange (byWeek lines) with
  | [] => (store, .ok ())
  | batches =>
      match fates.directory with
      | some detail => (store, .error (storage detail))
      | none =>
          let (dir, result) := appendWeeks fates.week batches
            ((store.serviceDir? service).getD .empty)
          (store.setServiceDir service dir, result)

end SqliteLogStore

/-! ## Querying -/

structure StoredLog where
  ts : Int
  week : String
  id : Int
  line : LogLine
deriving DecidableEq, Repr

inductive Direction where
  | backward
  | forward
deriving DecidableEq, Repr

def defaultPageLimit : Nat := 100

/-- Subtraction of `i64` in a release build. -/
def i64Sub (left right : Int) : Int := (left - right).bmod 18446744073709551616

/-- The week files with their starts, oldest first. -/
def readWeekFiles (dir : ServiceDir) : List (WeekDb × Int) :=
  (dir.weeks.filterMap fun db => (databaseWeekStartMs db.name).map fun start =>
    (db, start)).insertionSort fun left right => left.2 ≤ right.2

def weekMatches (start : Int) (filter : LogFilter) (cursor : Option LogCursor)
    (direction : Direction) : Bool :=
  if filter.toMs.any (· < start) || filter.fromMs.any (start + weekMs ≤ ·) then false
  else
    match cursor, direction with
    | some cursor, .backward => start ≤ cursor.ts
    | some cursor, .forward => cursor.ts < start + weekMs
    | none, _ => true

def orderedCandidates (weeks : List (WeekDb × Int)) (filter : LogFilter)
    (cursor : Option LogCursor) (direction : Direction) : List WeekDb :=
  let selected := (weeks.filter fun week =>
    weekMatches week.2 filter cursor direction).map Prod.fst
  match direction with
  | .backward => selected.reverse
  | .forward => selected

/-- The conditions of `push_filters` on a row. A row without a level is in no list of
levels. -/
def filtersAdmit (filter : LogFilter) (weekStart : Int) (row : LogRow) : Bool :=
  filter.fromMs.all (fun fromMs => i64Sub fromMs weekStart ≤ row.tsRel) &&
  filter.toMs.all (fun toMs => row.tsRel ≤ i64Sub toMs weekStart) &&
  (filter.levels.isEmpty || row.level.any (filter.levels.map LogLevel.storageCode).contains) &&
  (filter.streams.isEmpty || (filter.streams.map LogStream.storageCode).contains row.stream)

/-- The condition of `push_cursor`: only the week of the cursor needs the row id. -/
def cursorAdmits (cursor : LogCursor) (weekStart : Int) (direction : Direction) :
    AppResult (LogRow → Bool) := do
  let relative := i64Sub cursor.ts weekStart
  let cursorWeek ← weekStartMs cursor.week
  if weekStart ≠ cursorWeek then
    return fun row =>
      match direction with
      | .backward => row.tsRel ≤ relative
      | .forward => relative ≤ row.tsRel
  else
    return fun row =>
      match direction with
      | .backward => row.tsRel < relative ∨ row.tsRel = relative ∧ row.id < cursor.id
      | .forward => relative < row.tsRel ∨ row.tsRel = relative ∧ cursor.id < row.id

/-- Without a cursor every row qualifies. -/
def pastCursor (cursor : Option LogCursor) (weekStart : Int) (direction : Direction) :
    AppResult (LogRow → Bool) :=
  match cursor with
  | some cursor => cursorAdmits cursor weekStart direction
  | none => .ok fun _ => true

/-- `ORDER BY ts_rel, id`, descending for a backward scan. -/
def scanOrder (direction : Direction) (left right : LogRow) : Prop :=
  match direction with
  | .backward => right.tsRel < left.tsRel ∨ right.tsRel = left.tsRel ∧ right.id ≤ left.id
  | .forward => left.tsRel < right.tsRel ∨ left.tsRel = right.tsRel ∧ left.id ≤ right.id

instance (direction : Direction) : DecidableRel (scanOrder direction) := fun _ _ =>
  match direction with
  | .backward => inferInstanceAs (Decidable (_ ∨ _))
  | .forward => inferInstanceAs (Decidable (_ ∨ _))

/-- A row whose stream code is unknown is skipped. -/
def decodeRow (service week : String) (weekStart : Int) (row : LogRow) : Option StoredLog := do
  let stream ← LogStream.fromStorageCode row.stream
  let level := row.level.bind LogLevel.fromStorageCode
  let ts := row.tsRel + weekStart
  return {
    ts, week, id := row.id
    line := { ts, service, cid := row.cid, stream, level, line := row.line } }

def selectRows (backend : LogBackend) (filter : LogFilter) (search : Option String)
    (cursor : Option LogCursor) (direction : Direction) (weekStart : Int) (db : WeekDb) :
    AppResult (List LogRow) := do
  let beyond ← pastCursor cursor weekStart direction
  return (db.logs.rows.filter fun row =>
    search.all (fun query => backend.ftsMatches query row.line) &&
      filtersAdmit filter weekStart row && beyond row).insertionSort (scanOrder direction)

/-- Visits the candidate weeks until the page holds `target` rows. -/
def scanWeeks (backend : LogBackend) (service : String) (filter : LogFilter)
    (search : Option String) (cursor : Option LogCursor) (direction : Direction)
    (target : Nat) : List WeekDb → List StoredLog → AppResult (List StoredLog)
  | [], page => .ok page
  | db :: rest, page =>
      if target ≤ page.length then .ok page
      else do
        let weekStart ← weekStartMs db.name
        let rows ← selectRows backend filter search cursor direction weekStart db
        let fetched := (rows.take (target - page.length)).filterMap
          (decodeRow service db.name weekStart)
        scanWeeks backend service filter search cursor direction target rest (page ++ fetched)

def badCursor (error : String) : Fault := .error (.badRequest ("invalid log cursor: " ++ error))

def decodeOptional (backend : LogBackend) (text : Option String) : AppResult (Option LogCursor) :=
  match text with
  | none => .ok none
  | some text =>
      match backend.decodeCursor text with
      | .ok cursor => .ok (some cursor)
      | .error error => .error (badCursor error)

def emptyPage (newerCursor : Option String) : LogPage where
  items := []
  olderCursor := none
  newerCursor := newerCursor
  hasOlder := false
  hasNewer := false

def cursorOf (entry : StoredLog) : LogCursor := ⟨entry.ts, entry.week, entry.id⟩

def encodeOptional (backend : LogBackend) (cursor : LogCursor) : Option String :=
  (backend.encodeCursor cursor).toOption

/-- The page of a scan that was asked for one row more than the limit. -/
def pageOf (backend : LogBackend) (filter : LogFilter) (direction : Direction) (limit : Nat)
    (scanned : List StoredLog) : LogPage :=
  let hasBeyond := limit < scanned.length
  let kept := scanned.take limit
  let page := match direction with
    | .backward => kept.reverse
    | .forward => kept
  match page.head?, page.getLast? with
  | some first, some last =>
      { items := page.map StoredLog.line
        olderCursor := encodeOptional backend (cursorOf first)
        newerCursor := encodeOptional backend (cursorOf last)
        hasOlder := match direction with
          | .backward => hasBeyond
          | .forward => filter.after.isSome
        hasNewer := match direction with
          | .backward => filter.before.isSome
          | .forward => hasBeyond }
  | _, _ => emptyPage filter.after

def pageLimit (filter : LogFilter) : Nat := min (max (filter.limit.getD defaultPageLimit) 1) 100

namespace SqliteLogStore

/-- The answer of a file system that lists the directory of the service, and of an index that reads
the search; `queryFetching` has their errors. -/
def query (backend : LogBackend) (store : SqliteLogStore) (service : String)
    (filter : LogFilter) : AppResult LogPage := do
  let before ← decodeOptional backend filter.before
  let after ← decodeOptional backend filter.after
  let direction := if after.isSome then .forward else .backward
  let cursor := if after.isSome then after else before
  match store.serviceDir? service with
  | none => return emptyPage none
  | some dir =>
      let search := filter.query.bind sanitizeFtsQuery
      let limit := pageLimit filter
      let candidates := orderedCandidates (readWeekFiles dir) filter cursor direction
      let scanned ← scanWeeks backend service filter search cursor direction (limit + 1)
        candidates []
      return pageOf backend filter direction limit scanned

end SqliteLogStore

end Vpsiner.Logs
