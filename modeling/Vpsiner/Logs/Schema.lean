import Vpsiner.Lib.KeyedTable
import Vpsiner.Logs.HelpersProperties

/-! The week databases of a service: one file for each ISO week, with one table of
lines in the order of their row ids. -/

set_option autoImplicit false

namespace Vpsiner.Logs

open Vpsiner.Lib

/-- A row of the table `logs`. Its time is relative to the start of the week. -/
structure LogRow where
  id : Int
  tsRel : Int
  cid : ContainerId
  stream : Int
  level : Option Int
  line : String
deriving DecidableEq, Repr

/-- SQLite numbers a new row one above the largest row id in use. -/
def nextId (rows : List LogRow) : Int := (rows.getLast?.map fun row => row.id + 1).getD 1

def LogRow.ofLine (weekStart id : Int) (line : LogLine) : LogRow where
  id := id
  tsRel := line.ts - weekStart
  cid := line.cid
  stream := line.stream.storageCode
  level := (detectLevel line.line).map LogLevel.storageCode
  line := line.line

def insertLines (weekStart : Int) : List LogLine → List LogRow → List LogRow
  | [], rows => rows
  | line :: rest, rows =>
      insertLines weekStart rest (rows ++ [LogRow.ofLine weekStart (nextId rows) line])

def LogRow.Fits (row : LogRow) : Prop :=
  0 ≤ row.tsRel ∧ row.tsRel < weekMs ∧ ∃ stream : LogStream, row.stream = stream.storageCode

private theorem lt_nextId {rows : List LogRow}
    (ordered : rows.Pairwise fun earlier later => earlier.id < later.id) {row : LogRow}
    (member : row ∈ rows) : row.id < nextId rows := by
  cases last : rows.getLast? with
  | none =>
      rw [List.getLast?_eq_none_iff.mp last] at member
      cases member
  | some newest =>
      obtain ⟨before, rfl⟩ := List.getLast?_eq_some_iff.mp last
      simp only [nextId, last, Option.map_some, Option.getD_some]
      cases List.mem_append.mp member with
      | inl older =>
          have := (List.pairwise_append.mp ordered).2.2 row older newest List.mem_cons_self
          omega
      | inr same =>
          rw [List.mem_singleton.mp same]
          omega

theorem ordered_insertLines (weekStart : Int) (lines : List LogLine) {rows : List LogRow}
    (ordered : rows.Pairwise fun earlier later => earlier.id < later.id) :
    (insertLines weekStart lines rows).Pairwise fun earlier later => earlier.id < later.id := by
  induction lines generalizing rows with
  | nil => exact ordered
  | cons line rest ih =>
      apply ih
      refine List.pairwise_append.mpr ⟨ordered, List.pairwise_singleton _ _, ?_⟩
      intro earlier member later added
      rw [List.mem_singleton.mp added]
      exact lt_nextId ordered member

theorem fits_insertLines {name : String} {weekStart : Int}
    (start : databaseWeekStartMs name = some weekStart) {lines : List LogLine}
    (named : ∀ line ∈ lines, weekDatabaseName line.ts = some name) {rows : List LogRow}
    (fits : ∀ row ∈ rows, row.Fits) : ∀ row ∈ insertLines weekStart lines rows, row.Fits := by
  induction lines generalizing rows with
  | nil => exact fits
  | cons line rest ih =>
      obtain ⟨here, later⟩ := List.forall_mem_cons.mp named
      have week := databaseWeekStartMs_weekDatabaseName here
      rw [start, Option.some.injEq] at week
      apply ih later
      intro row member
      cases List.mem_append.mp member with
      | inl old => exact fits row old
      | inr added =>
          have lower := weekStartOf_le line.ts
          have upper := lt_weekStartOf_add line.ts
          rw [List.mem_singleton.mp added]
          refine ⟨?_, ?_, line.stream, rfl⟩
          · simp only [LogRow.ofLine, week]
            omega
          · simp only [LogRow.ofLine, week]
            omega

/-- A week file with the name of a week and rows of that week. -/
structure WeekDb where
  name : String
  logs : KeyedTable LogRow.id
  named : ∃ tsMs, weekDatabaseName tsMs = some name
  fits : ∀ row ∈ logs.rows, row.Fits

namespace WeekDb

def create (name : String) (named : ∃ tsMs, weekDatabaseName tsMs = some name) : WeekDb where
  name := name
  logs := .empty
  named := named
  fits := fun _ member => nomatch member

def insertAll (db : WeekDb) {weekStart : Int}
    (start : databaseWeekStartMs db.name = some weekStart) (lines : List LogLine)
    (named : ∀ line ∈ lines, weekDatabaseName line.ts = some db.name) : WeekDb where
  name := db.name
  logs := ⟨insertLines weekStart lines db.logs.rows, ordered_insertLines _ _ db.logs.ordered⟩
  named := db.named
  fits := fits_insertLines start named db.fits

end WeekDb

/-- The directory of a service with its week files, in no particular order. -/
structure ServiceDir where
  weeks : List WeekDb
  distinct : (weeks.map WeekDb.name).Nodup

namespace ServiceDir

def empty : ServiceDir := ⟨[], List.nodup_nil⟩

/-- Opening a week database creates the file when it does not exist. -/
def openWeek (dir : ServiceDir) (name : String)
    (named : ∃ tsMs, weekDatabaseName tsMs = some name) : ServiceDir :=
  if absent : name ∉ dir.weeks.map WeekDb.name then
    ⟨.create name named :: dir.weeks, List.nodup_cons.mpr ⟨absent, dir.distinct⟩⟩
  else dir

def modify (dir : ServiceDir) (change : WeekDb → WeekDb)
    (keeps : ∀ db, (change db).name = db.name) : ServiceDir where
  weeks := dir.weeks.map change
  distinct := by
    rw [List.map_map, show WeekDb.name ∘ change = WeekDb.name from funext keeps]
    exact dir.distinct

/-- The week files of these names. -/
def listed (dir : ServiceDir) (names : List String) : ServiceDir where
  weeks := dir.weeks.filter fun db => db.name ∈ names
  distinct := (List.filter_sublist.map _).nodup dir.distinct

theorem listed_of_forall {dir : ServiceDir} {names : List String}
    (whole : ∀ db ∈ dir.weeks, db.name ∈ names) : dir.listed names = dir := by
  have weeks : (dir.listed names).weeks = dir.weeks :=
    List.filter_eq_self.mpr fun db member => decide_eq_true (whole db member)
  cases dir
  simp only [listed] at weeks ⊢
  simp only [weeks]

end ServiceDir

end Vpsiner.Logs
