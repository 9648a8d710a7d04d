import Vpsiner.Logs.Store

/-! Week file names partition time: a name stands for one Monday, and the lines of a file
lie in the week that starts there. -/

set_option autoImplicit false

namespace Vpsiner.Logs

open Vpsiner.Lib

/-- The Monday at midnight whose week holds the timestamp. -/
structure WeekOf (tsMs start : Int) : Prop where
  midnight : start % dayMs = 0
  monday : Calendar.weekday (start / dayMs) = 0
  started : start ≤ tsMs
  unfinished : tsMs < start + weekMs

/-- The UTC date lies in the years 0 to 9999. -/
structure Dated (tsMs : Int) : Prop where
  first : 0 ≤ Calendar.yearOf (tsMs / 1000 / 86400)
  last : Calendar.yearOf (tsMs / 1000 / 86400) ≤ 9999

variable {tsMs other start : Int} {name : String}

theorem weekOf_weekStartOf (tsMs : Int) : WeekOf tsMs (weekStartOf tsMs) where
  midnight := by
    have aligned := weekStartOf_mod tsMs
    simp only [weekMs, dayMs] at aligned ⊢
    omega
  monday := by
    have aligned := weekStartOf_mod tsMs
    simp only [weekMs, dayMs, Calendar.weekday] at aligned ⊢
    omega
  started := weekStartOf_le tsMs
  unfinished := lt_weekStartOf_add tsMs

theorem WeekOf.start_eq (week : WeekOf tsMs start) : start = weekStartOf tsMs := by
  obtain ⟨midnight, monday, started, unfinished⟩ := week
  refine (weekStartOf_eq ?_ started unfinished).symm
  simp only [weekMs, dayMs, Calendar.weekday] at midnight monday ⊢
  omega

theorem Dated.date (dated : Dated tsMs) :
    dateFromUnixTimestamp (tsMs / 1000) = some (tsMs / 1000 / 86400) := by
  obtain ⟨first, last⟩ := dated
  have started := Calendar.yearStart_yearOf_le (tsMs / 1000 / 86400)
  have unfinished := Calendar.lt_yearStart_succ_yearOf (tsMs / 1000 / 86400)
  have opening : Calendar.yearStart (-9999 + 1) ≤ Calendar.yearStart
      (Calendar.yearOf (tsMs / 1000 / 86400)) := Calendar.yearStart_succ_le (by omega)
  have closing : Calendar.yearStart (Calendar.yearOf (tsMs / 1000 / 86400) + 1) ≤
      Calendar.yearStart 10000 := Calendar.yearStart_succ_le (by omega)
  have early : Calendar.yearStart (-9999) ≤ Calendar.yearStart (-9999 + 1) := by decide
  exact if_pos ⟨by omega, by omega⟩

theorem Dated.named (dated : Dated tsMs) : ∃ name, weekDatabaseName tsMs = some name :=
  ⟨_, weekDatabaseName_eq dated.date⟩

theorem same_file_iff (dated : Dated tsMs) (otherDated : Dated other) :
    weekDatabaseName other = weekDatabaseName tsMs ↔
      ∃ start, WeekOf tsMs start ∧ WeekOf other start := by
  obtain ⟨name, named⟩ := dated.named
  obtain ⟨otherName, otherNamed⟩ := otherDated.named
  rw [named, otherNamed]
  constructor
  · intro same
    cases same
    have start := databaseWeekStartMs_weekDatabaseName named
    rw [databaseWeekStartMs_weekDatabaseName otherNamed, Option.some.injEq] at start
    exact ⟨weekStartOf tsMs, weekOf_weekStartOf tsMs, start ▸ weekOf_weekStartOf other⟩
  · rintro ⟨start, week, otherWeek⟩
    have same : weekStartOf other = weekStartOf tsMs := otherWeek.start_eq ▸ week.start_eq
    exact congrArg some (weekDatabaseName_congr otherNamed named same)

/-- A batch is stored relative to the start of its week, which its name gives back. -/
theorem WeekBatch.relative (batch : WeekBatch) :
    ∃ start, weekStartMs batch.week = .ok start ∧ ∀ line ∈ batch.lines, ∀ id,
      0 ≤ (LogRow.ofLine start id line).tsRel ∧ (LogRow.ofLine start id line).tsRel < weekMs := by
  obtain ⟨ts, named⟩ := batch.week_named
  refine ⟨weekStartOf ts, ?_, fun line member id => ?_⟩
  · rw [weekStartMs, databaseWeekStartMs_weekDatabaseName named]
  · have start := databaseWeekStartMs_weekDatabaseName (batch.named line member)
    rw [databaseWeekStartMs_weekDatabaseName named, Option.some.injEq] at start
    have lower := weekStartOf_le line.ts
    have upper := lt_weekStartOf_add line.ts
    simp only [LogRow.ofLine, start]
    omega

/-- Every date of the years 0 to 9999 has a week file, whose name gives back the Monday of
its week; timestamps share a file exactly when they share that week; and the name of every
file that lines are stored in can be read back. -/
theorem week_files_partition (tsMs : Int) (dated : Dated tsMs) :
    (∃ name start, weekDatabaseName tsMs = some name ∧ databaseWeekStartMs name = some start ∧
      WeekOf tsMs start) ∧
    (∀ other, Dated other → (weekDatabaseName other = weekDatabaseName tsMs ↔
      ∃ start, WeekOf tsMs start ∧ WeekOf other start)) ∧
    (∀ lines, ∀ batch ∈ byWeek lines, ∃ start, weekStartMs batch.week = .ok start ∧
      ∀ line ∈ batch.lines, ∀ id, 0 ≤ (LogRow.ofLine start id line).tsRel ∧
        (LogRow.ofLine start id line).tsRel < weekMs) ∧
    ∀ db : WeekDb, ∀ row ∈ db.logs.rows, 0 ≤ row.tsRel ∧ row.tsRel < weekMs := by
  refine ⟨?_, fun other otherDated => same_file_iff dated otherDated,
    fun lines batch _ => batch.relative, ?_⟩
  · obtain ⟨name, named⟩ := dated.named
    exact ⟨name, weekStartOf tsMs, named, databaseWeekStartMs_weekDatabaseName named,
      weekOf_weekStartOf tsMs⟩
  · intro db row member
    obtain ⟨lower, upper, _⟩ := db.fits row member
    exact ⟨lower, upper⟩

/-- The first day of year 0 is a Saturday and belongs to the last week of year -1. -/
theorem week_files_partition_at_year_zero :
    weekDatabaseName (-62167219200000) = some "-1_w52.db" ∧
      ∃ start, databaseWeekStartMs "-1_w52.db" = some start ∧ WeekOf (-62167219200000) start := by
  have named : weekDatabaseName (-62167219200000) = some "-1_w52.db" := by decide
  obtain ⟨⟨name, start, file, parsed, week⟩, _⟩ :=
    week_files_partition (-62167219200000) ⟨by decide, by decide⟩
  rw [named, Option.some.injEq] at file
  subst file
  exact ⟨named, start, parsed, week⟩

end Vpsiner.Logs
