import Vpsiner.Metrics.RollupProperties

/-! Buckets that close together nest: whatever one insert closes lies inside the widest of
the closed buckets, which is the only one the rows are fetched for. -/

set_option autoImplicit false

namespace Vpsiner.Metrics

open Lib

def TimeRange.Within (inner outer : TimeRange) : Prop :=
  outer.fromMs ≤ inner.fromMs ∧ inner.toMs ≤ outer.toMs

/-- What the buckets have in common that the step from `previousTs` to `newTs` closes. -/
structure ClosedBucketsNest (previousTs newTs : Int) : Prop where
  finer : ∀ coarser ∈ (resolutionsClosedBy previousTs newTs).map Prod.fst,
    ∀ finer ∈ MetricsResolution.coarse, finer.bucketMs ≤ coarser.bucketMs →
      finer ∈ (resolutionsClosedBy previousTs newTs).map Prod.fst
  elapsed : ∀ entry ∈ resolutionsClosedBy previousTs newTs, entry.2 < newTs
  covered : ∀ entry ∈ resolutionsClosedBy previousTs newTs,
    ∃ range, widestSourceRange (resolutionsClosedBy previousTs newTs) = some range ∧
      TimeRange.Within (sourceRange entry.2 entry.1) range
  hostRows : ∀ range, widestSourceRange (resolutionsClosedBy previousTs newTs) = some range →
    ∀ entry ∈ resolutionsClosedBy previousTs newTs, ∀ db : MetricsDb,
      ∀ row ∈ (db.host .tenSeconds).rows, bucketEnd row.ts entry.1.bucketMs = entry.2 →
        row ∈ selectHost db .tenSeconds range
  containerRows : ∀ range, widestSourceRange (resolutionsClosedBy previousTs newTs) = some range →
    ∀ entry ∈ resolutionsClosedBy previousTs newTs, ∀ db : MetricsDb,
      ∀ row ∈ (db.containers .tenSeconds).rows, bucketEnd row.ts entry.1.bucketMs = entry.2 →
        row ∈ selectContainers db .tenSeconds range

variable {previousTs newTs : Int}

/-- Times of one bucket are in one bucket of every coarser resolution. -/
theorem finer_closes {finer coarser : MetricsResolution}
    (finerCoarse : finer ∈ MetricsResolution.coarse)
    (coarserCoarse : coarser ∈ MetricsResolution.coarse) (le : finer.bucketMs ≤ coarser.bucketMs)
    (closes : bucketEnd newTs coarser.bucketMs ≠ bucketEnd previousTs coarser.bucketMs) :
    bucketEnd newTs finer.bucketMs ≠ bucketEnd previousTs finer.bucketMs := by
  have divides := bucketMs_dvd_of_le finerCoarse coarserCoarse le
  intro same
  apply closes
  calc bucketEnd newTs coarser.bucketMs
      = bucketEnd (bucketEnd newTs finer.bucketMs) coarser.bucketMs :=
        (bucketEnd_bucketEnd newTs finer.bucketMs_pos coarser.bucketMs_pos divides).symm
    _ = bucketEnd (bucketEnd previousTs finer.bucketMs) coarser.bucketMs := by rw [same]
    _ = bucketEnd previousTs coarser.bucketMs :=
        bucketEnd_bucketEnd previousTs finer.bucketMs_pos coarser.bucketMs_pos divides

theorem within_widestSourceRange {range : TimeRange} {entry : MetricsResolution × Int}
    (found : widestSourceRange (resolutionsClosedBy previousTs newTs) = some range)
    (member : entry ∈ resolutionsClosedBy previousTs newTs) :
    TimeRange.Within (sourceRange entry.2 entry.1) range := by
  have positive := entry.1.bucketMs_pos
  have first : (sourceRange entry.2 entry.1).contains (entry.2 - entry.1.bucketMs + 1) = true := by
    simp only [TimeRange.contains_iff, sourceRange]
    omega
  have last : (sourceRange entry.2 entry.1).contains entry.2 = true := by
    simp only [TimeRange.contains_iff, sourceRange]
    omega
  have lower := widestSourceRange_covers found member first
  have upper := widestSourceRange_covers found member last
  rw [TimeRange.contains_iff] at lower upper
  exact ⟨lower.1, upper.2⟩

/-- The fetch of an insert holds every time of every bucket that the insert closes. -/
theorem fetched_of_closed {range : TimeRange} {entry : MetricsResolution × Int} {ts : Int}
    (found : widestSourceRange (resolutionsClosedBy previousTs newTs) = some range)
    (member : entry ∈ resolutionsClosedBy previousTs newTs)
    (inside : bucketEnd ts entry.1.bucketMs = entry.2) : range.contains ts = true := by
  obtain ⟨_, stop, _⟩ := mem_resolutionsClosedBy.mp member
  apply widestSourceRange_covers found member
  rw [stop] at inside ⊢
  exact contains_sourceRange.mpr inside

/-- A bucket end is the multiple of the bucket length that closes the window of its time,
and the buckets closed by one step nest in the range that is fetched for them. -/
theorem closed_buckets_nest (previousTs newTs : Int) (moved : previousTs < newTs) :
    (∀ resolution : MetricsResolution, ∀ ts stop, bucketEnd ts resolution.bucketMs = stop ↔
      resolution.bucketMs ∣ stop ∧ stop - resolution.bucketMs < ts ∧ ts ≤ stop) ∧
    ClosedBucketsNest previousTs newTs := by
  refine ⟨fun resolution ts stop => ⟨?_, ?_⟩, ?_⟩
  · rintro rfl
    exact bucketEnd_spec ts resolution.bucketMs_pos
  · rintro ⟨multiple, window⟩
    exact (bucketEnd_eq_iff resolution.bucketMs_pos multiple).mpr window
  constructor
  case finer =>
    intro coarser member finer finerCoarse le
    obtain ⟨coarserCoarse, closes⟩ := mem_closed_resolutions.mp member
    exact mem_closed_resolutions.mpr
      ⟨finerCoarse, finer_closes finerCoarse coarserCoarse le closes⟩
  case elapsed => exact fun entry member => bucketEnd_lt_of_closed moved member
  case covered =>
    intro entry member
    cases found : widestSourceRange (resolutionsClosedBy previousTs newTs) with
    | none =>
        rw [widestSourceRange_eq_none found] at member
        cases member
    | some range => exact ⟨range, rfl, within_widestSourceRange found member⟩
  case hostRows =>
    intro range found entry member db row stored inside
    exact List.mem_filter.mpr ⟨stored, fetched_of_closed found member inside⟩
  case containerRows =>
    intro range found entry member db row stored inside
    rw [selectContainers, List.mem_insertionSort]
    exact List.mem_filter.mpr ⟨stored, fetched_of_closed found member inside⟩

/-- From a time before the epoch into the next hour. -/
theorem closed_buckets_nest_at_epoch : ClosedBucketsNest (-1) 1 ∧
    resolutionsClosedBy (-1) 1 =
      [(.oneMinute, 0), (.fiveMinutes, 0), (.oneHour, 0)] :=
  ⟨(closed_buckets_nest (-1) 1 (by decide)).2, by decide⟩

end Vpsiner.Metrics
