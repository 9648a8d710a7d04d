import Vpsiner.Logs.Helpers

/-! A week file name determines its Monday, and the weeks partition the timestamps. -/

set_option autoImplicit false

namespace Vpsiner.Logs

open Vpsiner.Lib

/-- Midnight of the Monday on or before a timestamp. -/
def weekStartOf (tsMs : Int) : Int := Calendar.mondayOf (tsMs / 1000 / 86400) * 86400 * 1000

theorem weekStartOf_le (tsMs : Int) : weekStartOf tsMs ≤ tsMs := by
  have monday := Calendar.mondayOf_le (tsMs / 1000 / 86400)
  rw [weekStartOf]
  omega

theorem lt_weekStartOf_add (tsMs : Int) : tsMs < weekStartOf tsMs + weekMs := by
  have monday := Calendar.lt_mondayOf_add (tsMs / 1000 / 86400)
  rw [weekStartOf, weekMs]
  omega

/-- Day 4 is the first Monday after the epoch. -/
theorem weekStartOf_mod (tsMs : Int) : weekStartOf tsMs % weekMs = 4 * dayMs := by
  have monday := Calendar.mondayOf_mod (tsMs / 1000 / 86400)
  rw [weekStartOf, weekMs, dayMs]
  omega

theorem weekStartOf_eq {tsMs start : Int} (aligned : start % weekMs = 4 * dayMs)
    (lower : start ≤ tsMs) (upper : tsMs < start + weekMs) : weekStartOf tsMs = start := by
  have le := weekStartOf_le tsMs
  have lt := lt_weekStartOf_add tsMs
  have mod := weekStartOf_mod tsMs
  rw [weekMs, dayMs] at *
  omega

theorem weekStartOf_mono {earlier later : Int} (le : earlier ≤ later) :
    weekStartOf earlier ≤ weekStartOf later := by
  have first := weekStartOf_le earlier
  have last := lt_weekStartOf_add later
  have firstMonday := weekStartOf_mod earlier
  have lastMonday := weekStartOf_mod later
  simp only [weekMs, dayMs] at last firstMonday lastMonday
  omega

theorem dateFromUnixTimestamp_eq_some {seconds date : Int}
    (valid : dateFromUnixTimestamp seconds = some date) :
    date = seconds / 86400 ∧ Calendar.yearStart (-9999) ≤ date ∧
      date < Calendar.yearStart 10000 := by
  simp only [dateFromUnixTimestamp] at valid
  split at valid
  · next inside =>
      cases valid
      exact ⟨rfl, inside⟩
  · cases valid

/-- The adjustment around January 1 gives the year of ISO 8601. -/
theorem weekDatabaseName_eq {tsMs date : Int}
    (valid : dateFromUnixTimestamp (tsMs / 1000) = some date) :
    weekDatabaseName tsMs =
      some (weekFileName (Calendar.isoYear date) (Calendar.isoWeek date).toNat) := by
  have named : ∀ year, year = Calendar.isoYear date →
      some (weekFileName year (Calendar.isoWeek date).toNat) =
        some (weekFileName (Calendar.isoYear date) (Calendar.isoWeek date).toNat) := by
    intro year same
    rw [same]
  simp only [weekDatabaseName, valid, Option.bind_eq_bind, Option.bind_some, Option.pure_def]
  apply named
  obtain ⟨year, december, week⟩ | ⟨year, january, week⟩ | ⟨year, notNext, notPrevious⟩ :=
    Calendar.isoYear_cases date
  · rw [if_pos ⟨december, week⟩, year]
  · have notDecember : ¬(Calendar.month date = .december ∧ Calendar.isoWeek date = 1) := by
      rw [january]
      exact nofun
    rw [if_neg notDecember, if_pos ⟨january, week⟩, year]
  · rw [if_neg fun next => notNext next.1 next.2, year, if_neg]
    intro previous
    cases previous.2 with
    | inl last => exact (notPrevious previous.1).1 last
    | inr last => exact (notPrevious previous.1).2 last

/-- The years -9999 to 9999 begin and end within a week of their own. -/
private theorem isoYear_bounds {date : Int} (first : Calendar.yearStart (-9999) ≤ date)
    (last : date < Calendar.yearStart 10000) :
    -9999 ≤ Calendar.isoYear date ∧ Calendar.isoYear date ≤ 9999 := by
  have monday := Calendar.mondayOf_le date
  have sunday := Calendar.lt_mondayOf_add date
  have aligned := Calendar.mondayOf_mod date
  have started := Calendar.yearStart_yearOf_le (Calendar.mondayOf date + 3)
  have unfinished := Calendar.lt_yearStart_succ_yearOf (Calendar.mondayOf date + 3)
  have firstDay : Calendar.yearStart (-9999) = -4371587 := by decide
  have lastDay : Calendar.yearStart 10000 = 2932897 := by decide
  have same : Calendar.yearStart (9999 + 1) = 2932897 := by decide
  rw [Calendar.isoYear]
  constructor
  · apply Int.not_lt.mp
    intro before
    have := Calendar.yearStart_succ_le before
    omega
  · apply Int.not_lt.mp
    intro after
    have := Calendar.yearStart_succ_le after
    omega

theorem databaseWeekStartMs_weekFileName {year : Int} {week : Nat} (early : -9999 ≤ year)
    (late : year ≤ 9999) (first : 1 ≤ week) (last : (week : Int) ≤ Calendar.weeksIn year) :
    databaseWeekStartMs (weekFileName year week) =
      some (Calendar.isoWeekStart year week * 86400 * 1000) := by
  have few := Calendar.weeksIn_le year
  have stem : Text.stripSuffix ['.', 'd', 'b'] (weekFileName year week).toList =
      some (Text.decimal year ++ ['_', 'w'] ++ Text.zeroPadded 2 week) := by
    rw [weekFileName, String.toList_ofList, Text.stripSuffix_append]
  have absent : '_' ∉ Text.decimal year := Text.not_mem_decimal year (by decide) (by decide)
  have parts : Text.splitOnce ['_', 'w'] (Text.decimal year ++ ['_', 'w'] ++
      Text.zeroPadded 2 week) = some (Text.decimal year, Text.zeroPadded 2 week) :=
    Text.splitOnce_append _ absent
  have parsedYear : Text.parseSigned (-2 ^ 31) (2 ^ 31 - 1) (Text.decimal year) = some year :=
    Text.parseSigned_decimal (by omega) (by omega)
  have parsedWeek : Text.parseUnsigned 255 (Text.zeroPadded 2 week) = some week :=
    Text.parseUnsigned_zeroPadded (by omega)
  have date : dateFromIsoWeek year week = some (Calendar.isoWeekStart year week) :=
    if_pos ⟨early, late, first, last⟩
  simp only [databaseWeekStartMs, stem, parts, parsedYear, parsedWeek, date, Option.bind_eq_bind,
    Option.bind_some, Option.pure_def]

theorem databaseWeekStartMs_weekDatabaseName {tsMs : Int} {name : String}
    (named : weekDatabaseName tsMs = some name) :
    databaseWeekStartMs name = some (weekStartOf tsMs) := by
  cases valid : dateFromUnixTimestamp (tsMs / 1000) with
  | none =>
      simp only [weekDatabaseName, valid] at named
      cases named
  | some date =>
      rw [weekDatabaseName_eq valid] at named
      cases named
      obtain ⟨rfl, first, last⟩ := dateFromUnixTimestamp_eq_some valid
      obtain ⟨early, late⟩ := isoYear_bounds first last
      have positive := Calendar.one_le_isoWeek (tsMs / 1000 / 86400)
      have exact : ((Calendar.isoWeek (tsMs / 1000 / 86400)).toNat : Int) =
          Calendar.isoWeek (tsMs / 1000 / 86400) := Int.toNat_of_nonneg (by omega)
      rw [databaseWeekStartMs_weekFileName early late (by omega)
        (exact ▸ Calendar.isoWeek_le_weeksIn _), exact, Calendar.isoWeekStart_isoWeek]
      rfl

/-- Every week with a name begins at a time far inside `i64`. -/
theorem weekStartOf_bounds {tsMs : Int} {name : String}
    (named : weekDatabaseName tsMs = some name) :
    -400000000000000 ≤ weekStartOf tsMs ∧ weekStartOf tsMs ≤ 400000000000000 := by
  cases valid : dateFromUnixTimestamp (tsMs / 1000) with
  | none =>
      simp only [weekDatabaseName, valid] at named
      cases named
  | some date =>
      obtain ⟨rfl, first, last⟩ := dateFromUnixTimestamp_eq_some valid
      have firstDay : Calendar.yearStart (-9999) = -4371587 := by decide
      have lastDay : Calendar.yearStart 10000 = 2932897 := by decide
      have monday := Calendar.mondayOf_le (tsMs / 1000 / 86400)
      have sunday := Calendar.lt_mondayOf_add (tsMs / 1000 / 86400)
      rw [weekStartOf]
      omega

theorem databaseWeekStartMs_bounds {name : String} {start : Int}
    (parsed : databaseWeekStartMs name = some start) :
    -400000000000000 ≤ start ∧ start ≤ 400000000000000 := by
  simp only [databaseWeekStartMs, Option.bind_eq_bind, Option.bind_eq_some_iff, Option.pure_def,
    Option.some.injEq] at parsed
  obtain ⟨_, _, _, _, year, _, week, _, date, monday, rfl⟩ := parsed
  rw [dateFromIsoWeek] at monday
  split at monday
  · next inside =>
      have few := Calendar.weeksIn_le year
      have opening := Calendar.mondayOf_le (Calendar.yearStart year + 3)
      have opened := Calendar.lt_mondayOf_add (Calendar.yearStart year + 3)
      rw [Option.some.injEq, Calendar.isoWeekStart] at monday
      simp only [Calendar.yearStart, Calendar.leapDaysBefore] at *
      omega
  · cases monday

theorem weekDatabaseName_congr {left right : Int} {leftName rightName : String}
    (leftNamed : weekDatabaseName left = some leftName)
    (rightNamed : weekDatabaseName right = some rightName)
    (same : weekStartOf left = weekStartOf right) : leftName = rightName := by
  cases leftValid : dateFromUnixTimestamp (left / 1000) with
  | none =>
      simp only [weekDatabaseName, leftValid] at leftNamed
      cases leftNamed
  | some leftDate =>
      cases rightValid : dateFromUnixTimestamp (right / 1000) with
      | none =>
          simp only [weekDatabaseName, rightValid] at rightNamed
          cases rightNamed
      | some rightDate =>
          rw [weekDatabaseName_eq leftValid] at leftNamed
          rw [weekDatabaseName_eq rightValid] at rightNamed
          obtain ⟨rfl, _⟩ := dateFromUnixTimestamp_eq_some leftValid
          obtain ⟨rfl, _⟩ := dateFromUnixTimestamp_eq_some rightValid
          have monday : Calendar.mondayOf (left / 1000 / 86400) =
              Calendar.mondayOf (right / 1000 / 86400) := by
            simp only [weekStartOf] at same
            omega
          cases leftNamed
          cases rightNamed
          simp only [Calendar.isoWeek, Calendar.isoYear, monday]

end Vpsiner.Logs
