import Vpsiner.Logs.HelpersProperties

/-! The retention cutoff: the start of the week of the current day, some weeks back. -/

set_option autoImplicit false

namespace Vpsiner.Retention

open Vpsiner.Lib Vpsiner.Logs

/-- Date arithmetic panics outside the years -9999 to 9999. -/
def checkedDate (day : Int) : Option Int := dateFromUnixTimestamp (day * 86400)

/-- `now` is a Unix timestamp in milliseconds of which only the UTC date is read. There is
no result when the date arithmetic overflows. -/
def retentionCutoffMs (now : Int) (retentionWeeks : Nat) : Option Int := do
  let today ← dateFromUnixTimestamp (now / 1000)
  let currentWeek ← checkedDate (today - Calendar.weekday today)
  let cutoff ← checkedDate (currentWeek - 7 * retentionWeeks)
  return cutoff * 86400 * 1000

theorem checkedDate_eq_some {day date : Int} (checked : checkedDate day = some date) :
    date = day ∧ Calendar.yearStart (-9999) ≤ day ∧ day < Calendar.yearStart 10000 := by
  have same : day * 86400 / 86400 = day := by omega
  simp only [checkedDate, dateFromUnixTimestamp, same] at checked
  split at checked
  · next inside =>
      cases checked
      exact ⟨rfl, inside⟩
  · cases checked

variable {now cutoff : Int} {retentionWeeks : Nat}

/-- The cutoff lies whole weeks before the start of the current week. -/
theorem retentionCutoffMs_eq (found : retentionCutoffMs now retentionWeeks = some cutoff) :
    cutoff = weekStartOf now - retentionWeeks * weekMs := by
  obtain ⟨today, dated, found⟩ := Option.bind_eq_some_iff.mp found
  obtain ⟨monday, checkedMonday, found⟩ := Option.bind_eq_some_iff.mp found
  obtain ⟨date, checkedDate, found⟩ := Option.bind_eq_some_iff.mp found
  cases found
  have todayEq := (dateFromUnixTimestamp_eq_some dated).1
  have mondayEq := (checkedDate_eq_some checkedMonday).1
  have dateEq := (checkedDate_eq_some checkedDate).1
  rw [weekStartOf, Calendar.mondayOf, weekMs, dateEq, mondayEq, todayEq]
  omega

theorem retentionCutoffMs_dates (found : retentionCutoffMs now retentionWeeks = some cutoff) :
    Calendar.yearStart (-9999) * 86400000 ≤ cutoff ∧ now < Calendar.yearStart 10000 * 86400000 := by
  obtain ⟨today, dated, found⟩ := Option.bind_eq_some_iff.mp found
  obtain ⟨monday, _, found⟩ := Option.bind_eq_some_iff.mp found
  obtain ⟨date, checkedDate, found⟩ := Option.bind_eq_some_iff.mp found
  cases found
  obtain ⟨todayEq, _, late⟩ := dateFromUnixTimestamp_eq_some dated
  obtain ⟨dateEq, early, _⟩ := checkedDate_eq_some checkedDate
  refine ⟨?_, ?_⟩
  · omega
  · omega

/-- The cutoff is aligned to weeks and not after the current time. -/
theorem retentionCutoffMs_aligned (found : retentionCutoffMs now retentionWeeks = some cutoff) :
    cutoff % weekMs = 4 * dayMs := by
  rw [retentionCutoffMs_eq found, Int.sub_mul_emod_self_right]
  exact weekStartOf_mod now

/-- The cutoff never moves back. -/
theorem retentionCutoffMs_mono {later laterCutoff : Int} (le : now ≤ later)
    (found : retentionCutoffMs now retentionWeeks = some cutoff)
    (laterFound : retentionCutoffMs later retentionWeeks = some laterCutoff) :
    cutoff ≤ laterCutoff := by
  have mono := weekStartOf_mono le
  rw [retentionCutoffMs_eq found, retentionCutoffMs_eq laterFound]
  omega

/-- Lines inside the window have a week file. -/
theorem weekDatabaseName_isSome_of_window (found : retentionCutoffMs now retentionWeeks = some cutoff)
    {ts : Int} (afterCutoff : cutoff ≤ ts) (beforeNow : ts ≤ now) :
    (weekDatabaseName ts).isSome = true := by
  obtain ⟨early, late⟩ := retentionCutoffMs_dates found
  have inside : Calendar.yearStart (-9999) ≤ ts / 1000 / 86400 ∧
      ts / 1000 / 86400 < Calendar.yearStart 10000 := by omega
  have dated : dateFromUnixTimestamp (ts / 1000) = some (ts / 1000 / 86400) := if_pos inside
  rw [weekDatabaseName, dated]
  rfl

end Vpsiner.Retention
