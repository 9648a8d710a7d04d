import Mathlib.Data.Int.Order.Basic
import Mathlib.Algebra.Ring.Int.Defs

/-! The proleptic Gregorian calendar and the weeks of ISO 8601, on day numbers: day 0
is Thursday, January 1 of 1970. -/

set_option autoImplicit false

namespace Vpsiner.Lib.Calendar

def leapDaysBefore (year : Int) : Int :=
  (year - 1) / 4 - (year - 1) / 100 + (year - 1) / 400

def yearStart (year : Int) : Int :=
  365 * (year - 1970) + leapDaysBefore year - leapDaysBefore 1970

/-- The estimate from the mean year length is off by at most one year. -/
def yearOf (day : Int) : Int :=
  let estimate := day * 400 / 146097 + 1970
  if day < yearStart estimate then estimate - 1
  else if yearStart (estimate + 1) ≤ day then estimate + 1
  else estimate

/-- The mean year has 146097 / 400 days. -/
private theorem yearStart_near_mean (year : Int) :
    146097 * (year - 1970) - 800 ≤ 400 * yearStart year ∧
      400 * yearStart year ≤ 146097 * (year - 1970) + 800 := by
  simp only [yearStart, leapDaysBefore]
  omega

theorem yearOf_spec (day : Int) :
    yearStart (yearOf day) ≤ day ∧ day < yearStart (yearOf day + 1) := by
  unfold yearOf
  simp only []
  generalize chosen : day * 400 / 146097 + 1970 = estimate
  have previous := yearStart_near_mean (estimate - 1)
  have following := yearStart_near_mean (estimate + 1 + 1)
  split
  · next early =>
      rw [Int.sub_add_cancel]
      omega
  · next reached =>
      split
      · next late => omega
      · next unfinished => omega

theorem yearStart_yearOf_le (day : Int) : yearStart (yearOf day) ≤ day := (yearOf_spec day).1

theorem lt_yearStart_succ_yearOf (day : Int) : day < yearStart (yearOf day + 1) :=
  (yearOf_spec day).2

theorem yearStart_succ_le {year later : Int} (before : year < later) :
    yearStart (year + 1) ≤ yearStart later := by
  simp only [yearStart, leapDaysBefore]
  omega

theorem yearStart_add_le_succ (year : Int) : yearStart year + 365 ≤ yearStart (year + 1) := by
  simp only [yearStart, leapDaysBefore]
  omega

theorem yearStart_succ_le_add (year : Int) : yearStart (year + 1) ≤ yearStart year + 366 := by
  simp only [yearStart, leapDaysBefore]
  omega

theorem yearOf_eq {day year : Int} (started : yearStart year ≤ day)
    (unfinished : day < yearStart (year + 1)) : yearOf day = year := by
  have lower := yearStart_yearOf_le day
  have upper := lt_yearStart_succ_yearOf day
  rcases lt_trichotomy (yearOf day) year with below | same | above
  · have := yearStart_succ_le below
    omega
  · exact same
  · have := yearStart_succ_le above
    omega

/-- Days since January 1 of the same year. -/
def ordinal (day : Int) : Int := day - yearStart (yearOf day)

inductive Month where
  | january | february | march | april | may | june
  | july | august | september | october | november | december
deriving DecidableEq, Repr

def month (day : Int) : Month :=
  let february := yearStart (yearOf day + 1) - yearStart (yearOf day) - 337
  if ordinal day < 31 then .january
  else if ordinal day < 31 + february then .february
  else if ordinal day < 62 + february then .march
  else if ordinal day < 92 + february then .april
  else if ordinal day < 123 + february then .may
  else if ordinal day < 153 + february then .june
  else if ordinal day < 184 + february then .july
  else if ordinal day < 215 + february then .august
  else if ordinal day < 245 + february then .september
  else if ordinal day < 276 + february then .october
  else if ordinal day < 306 + february then .november
  else .december

private theorem ite_ne {α : Type} {condition : Prop} [Decidable condition] {yes no other : α}
    (left : yes ≠ other) (right : no ≠ other) : (if condition then yes else no) ≠ other := by
  by_cases holds : condition
  · rwa [if_pos holds]
  · rwa [if_neg holds]

theorem month_eq_january_iff {day : Int} : month day = .january ↔ ordinal day < 31 := by
  by_cases early : ordinal day < 31
  · exact iff_of_true (if_pos early) early
  · have later : month day ≠ .january := by
      unfold month
      simp only []
      rw [if_neg early]
      iterate 10 refine ite_ne (by decide) ?_
      decide
    exact iff_of_false later early

theorem month_eq_december_iff {day : Int} :
    month day = .december ↔ yearStart (yearOf day + 1) ≤ day + 31 := by
  have shortest := yearStart_add_le_succ (yearOf day)
  unfold month
  simp only []
  by_cases late : ordinal day < 306 + (yearStart (yearOf day + 1) - yearStart (yearOf day) - 337)
  · have earlier : yearStart (yearOf day + 1) > day + 31 := by
      rw [ordinal] at late
      omega
    refine iff_of_false ?_ (by omega)
    rw [if_pos late]
    iterate 10 refine ite_ne (by decide) ?_
    decide
  · rw [ordinal] at late
    refine iff_of_true ?_ (by omega)
    iterate 11 rw [if_neg (by rw [ordinal]; omega)]

def weekday (day : Int) : Int := (day + 3) % 7

def mondayOf (day : Int) : Int := day - weekday day

theorem mondayOf_le (day : Int) : mondayOf day ≤ day := by
  simp only [mondayOf, weekday]
  omega

theorem lt_mondayOf_add (day : Int) : day < mondayOf day + 7 := by
  simp only [mondayOf, weekday]
  omega

theorem mondayOf_mod (day : Int) : mondayOf day % 7 = 4 := by
  simp only [mondayOf, weekday]
  omega

/-- A week belongs to the year of its Thursday. -/
def isoYear (day : Int) : Int := yearOf (mondayOf day + 3)

def isoWeek (day : Int) : Int := (mondayOf day + 3 - yearStart (isoYear day)) / 7 + 1

/-- January 4 always lies in the first week. -/
def isoWeekStart (year week : Int) : Int := mondayOf (yearStart year + 3) + 7 * (week - 1)

def weeksIn (year : Int) : Int := (isoWeekStart (year + 1) 1 - isoWeekStart year 1) / 7

theorem isoWeekStart_isoWeek (day : Int) :
    isoWeekStart (isoYear day) (isoWeek day) = mondayOf day := by
  have started := yearStart_yearOf_le (mondayOf day + 3)
  have aligned := mondayOf_mod day
  simp only [isoWeekStart, isoWeek, isoYear, mondayOf, weekday] at *
  omega

theorem one_le_isoWeek (day : Int) : 1 ≤ isoWeek day := by
  have started := yearStart_yearOf_le (mondayOf day + 3)
  simp only [isoWeek, isoYear]
  omega

theorem isoWeek_le_weeksIn (day : Int) : isoWeek day ≤ weeksIn (isoYear day) := by
  have started := yearStart_yearOf_le (mondayOf day + 3)
  have unfinished := lt_yearStart_succ_yearOf (mondayOf day + 3)
  have aligned := mondayOf_mod day
  simp only [weeksIn, isoWeekStart, isoWeek, isoYear, mondayOf, weekday] at *
  omega

theorem weeksIn_le (year : Int) : weeksIn year ≤ 53 := by
  have longest := yearStart_succ_le_add year
  simp only [weeksIn, isoWeekStart, mondayOf, weekday]
  omega

/-- The week-based year differs from the calendar year only in the days around
January 1, where the month and the week number tell which of the two is ahead. -/
theorem isoYear_cases (day : Int) :
    (isoYear day = yearOf day + 1 ∧ month day = .december ∧ isoWeek day = 1) ∨
      (isoYear day = yearOf day - 1 ∧ month day = .january ∧
        (isoWeek day = 52 ∨ isoWeek day = 53)) ∨
      (isoYear day = yearOf day ∧ (month day = .december → isoWeek day ≠ 1) ∧
        (month day = .january → isoWeek day ≠ 52 ∧ isoWeek day ≠ 53)) := by
  rw [month_eq_december_iff, month_eq_january_iff, ordinal]
  have started := yearStart_yearOf_le day
  have unfinished := lt_yearStart_succ_yearOf day
  have before := mondayOf_le day
  have after := lt_mondayOf_add day
  have shortest := yearStart_add_le_succ (yearOf day)
  rcases Int.lt_or_le (mondayOf day + 3) (yearStart (yearOf day)) with previous | reached
  · have shortestPrevious := yearStart_add_le_succ (yearOf day - 1)
    have longestPrevious := yearStart_succ_le_add (yearOf day - 1)
    rw [Int.sub_add_cancel] at shortestPrevious longestPrevious
    have year : isoYear day = yearOf day - 1 :=
      yearOf_eq (by omega) (by rw [Int.sub_add_cancel]; exact previous)
    refine .inr (.inl ⟨year, by omega, ?_⟩)
    rw [isoWeek, year]
    omega
  · rcases Int.lt_or_le (mondayOf day + 3) (yearStart (yearOf day + 1)) with same | next
    · have year : isoYear day = yearOf day := yearOf_eq reached same
      refine .inr (.inr ⟨year, ?_, ?_⟩)
      · rw [isoWeek, year]
        omega
      · rw [isoWeek, year]
        omega
    · have shortestNext := yearStart_add_le_succ (yearOf day + 1)
      have year : isoYear day = yearOf day + 1 := yearOf_eq next (by omega)
      refine .inl ⟨year, by omega, ?_⟩
      rw [isoWeek, year]
      omega

end Vpsiner.Lib.Calendar
