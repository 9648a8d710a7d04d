import Mathlib.Algebra.Order.Field.Basic
import Mathlib.Algebra.Order.Field.Rat
import Mathlib.Algebra.Order.Round
import Mathlib.Tactic.Linarith
import Mathlib.Tactic.FieldSimp
import Vpsiner.Metrics.Bucketizer

/-! What the boundaries of a bucket are: values of the piecewise linear curve through the
buffered samples. -/

set_option autoImplicit false

namespace Vpsiner.Metrics

open Vpsiner.Lib Vpsiner.Lib.Paging

/-! ## Interpolation and rounding -/

theorem interpolation_le {left right alpha bound : ℚ} (lower : 0 ≤ alpha) (upper : alpha ≤ 1)
    (leftBelow : left ≤ bound) (rightBelow : right ≤ bound) :
    left + alpha * (right - left) ≤ bound := by
  have first : 0 ≤ (1 - alpha) * (bound - left) :=
    mul_nonneg (sub_nonneg.mpr upper) (sub_nonneg.mpr leftBelow)
  have second : 0 ≤ alpha * (bound - right) := mul_nonneg lower (sub_nonneg.mpr rightBelow)
  linarith

theorem le_interpolation {left right alpha bound : ℚ} (lower : 0 ≤ alpha) (upper : alpha ≤ 1)
    (leftAbove : bound ≤ left) (rightAbove : bound ≤ right) :
    bound ≤ left + alpha * (right - left) := by
  have first : 0 ≤ (1 - alpha) * (left - bound) :=
    mul_nonneg (sub_nonneg.mpr upper) (sub_nonneg.mpr leftAbove)
  have second : 0 ≤ alpha * (right - bound) := mul_nonneg lower (sub_nonneg.mpr rightAbove)
  linarith

theorem alpha_bounds {left boundary right : Int} (before : left < boundary)
    (after : boundary < right) :
    0 ≤ (boundary - left : ℚ) / (right - left) ∧ (boundary - left : ℚ) / (right - left) ≤ 1 := by
  have first : (left : ℚ) < boundary := by exact_mod_cast before
  have second : (boundary : ℚ) < right := by exact_mod_cast after
  refine ⟨div_nonneg (by linarith) (by linarith), ?_⟩
  rw [div_le_one (by linarith)]
  linarith

theorem f64Round_eq_round {value : ℚ} (positive : 0 ≤ value) : f64Round value = round value := by
  rw [f64Round, if_pos positive, round_eq]

theorem roundToU64_eq_some_iff {value : ℚ} {rounded : Nat} :
    roundToU64 value = some rounded ↔
      0 ≤ value ∧ value ≤ 2 ^ 64 - 1 ∧ (rounded : Int) = round value := by
  rw [roundToU64]
  split
  · rename_i outside
    refine iff_of_false nofun fun inside => ?_
    cases outside with
    | inl negative => exact absurd inside.1 (not_le.mpr negative)
    | inr large => exact absurd inside.2.1 (not_le.mpr large)
  · rename_i inside
    rw [not_or, not_lt, not_lt] at inside
    have positive : 0 ≤ round value := by
      rw [round_eq]
      exact Int.floor_nonneg.mpr (by linarith [inside.1])
    rw [and_iff_right inside.1, and_iff_right inside.2, f64Round_eq_round inside.1,
      Option.some.injEq]
    omega

/-! ## The curve through the samples -/

/-- The value of the curve through the samples: an exact sample, or the interpolation of
the two samples around. -/
inductive OnCurve (samples : List RawSample) (boundary : Int) : ℚ → Prop where
  | exact {sample : RawSample} : sample ∈ samples → sample.ts = boundary →
      OnCurve samples boundary sample.value
  | between {left right : RawSample} : (∀ sample ∈ samples, sample.ts ≠ boundary) →
      IsLast RawSample.ts (·.ts < boundary) samples left →
      IsFirst RawSample.ts (boundary < ·.ts) samples right →
      OnCurve samples boundary (left.value +
        (boundary - left.ts : ℚ) / (right.ts - left.ts) * (right.value - left.value))

section Curve

variable {samples : List RawSample} {boundary : Int}

theorem OnCurve.unique (ordered : Ascending RawSample.ts samples) {value other : ℚ}
    (first : OnCurve samples boundary value) (second : OnCurve samples boundary other) :
    value = other := by
  cases first with
  | exact inside same =>
      cases second with
      | exact otherInside otherSame =>
          rw [eq_of_key_eq ordered inside otherInside (same.trans otherSame.symm)]
      | between none _ _ => exact absurd same (none _ inside)
  | between none left right =>
      cases second with
      | exact otherInside otherSame => exact absurd otherSame (none _ otherInside)
      | between _ otherLeft otherRight =>
          rw [left.unique ordered otherLeft, right.unique ordered otherRight]

theorem OnCurve.between_of_window {lower upper : Int} {value low high : ℚ}
    (curve : OnCurve samples boundary value)
    (before : ∃ sample ∈ samples, lower < sample.ts ∧ sample.ts ≤ boundary)
    (after : ∃ sample ∈ samples, boundary ≤ sample.ts ∧ sample.ts ≤ upper)
    (inside : ∀ sample ∈ samples, lower < sample.ts → sample.ts ≤ upper →
      low ≤ sample.value ∧ sample.value ≤ high) : low ≤ value ∧ value ≤ high := by
  obtain ⟨near, nearMember, nearLower, nearUpper⟩ := before
  obtain ⟨far, farMember, farLower, farUpper⟩ := after
  cases curve with
  | exact member same => exact inside _ member (by omega) (by omega)
  | between apart left right =>
      have leftBefore := of_decide_eq_true left.accepted
      have rightAfter := of_decide_eq_true right.accepted
      have nearApart := apart near nearMember
      have farApart := apart far farMember
      have fromNear := left.greatest near nearMember (decide_eq_true (by omega))
      have toFar := right.least far farMember (decide_eq_true (by omega))
      obtain ⟨leftLow, leftHigh⟩ := inside _ left.mem (by omega) (by omega)
      obtain ⟨rightLow, rightHigh⟩ := inside _ right.mem (by omega) (by omega)
      obtain ⟨alphaLow, alphaHigh⟩ := alpha_bounds leftBefore rightAfter
      exact ⟨le_interpolation alphaLow alphaHigh leftLow rightLow,
        interpolation_le alphaLow alphaHigh leftHigh rightHigh⟩

end Curve

/-! ## The neighbours of a boundary -/

section Search

variable {samples : List RawSample} {boundary leftMin rightMax : Int}

theorem searchNeighbours_right (left : Option RawSample) :
    (SampleBuffer.searchNeighbours boundary leftMin rightMax samples left).2 =
      samples.find? fun sample => boundary < sample.ts ∧ sample.ts ≤ rightMax := by
  induction samples generalizing left with
  | nil => rfl
  | cons sample rest ih =>
      rw [SampleBuffer.searchNeighbours, List.find?_cons]
      by_cases ends : boundary < sample.ts ∧ sample.ts ≤ rightMax
      · rw [if_pos ends, decide_eq_true ends]
      · rw [if_neg ends, decide_eq_false ends, ih]

/-- The loop may stop at the first later sample, as nothing before the boundary follows it. -/
theorem searchNeighbours_left (ordered : Ascending RawSample.ts samples)
    (left : Option RawSample) :
    (SampleBuffer.searchNeighbours boundary leftMin rightMax samples left).1 =
      (samples.filter fun sample => leftMin < sample.ts ∧ sample.ts < boundary).getLast?.or left := by
  induction samples generalizing left with
  | nil => rfl
  | cons sample rest ih =>
      obtain ⟨later, restOrdered⟩ := List.pairwise_cons.mp ordered
      rw [SampleBuffer.searchNeighbours]
      by_cases ends : boundary < sample.ts ∧ sample.ts ≤ rightMax
      · have outside : ¬(leftMin < sample.ts ∧ sample.ts < boundary) := by omega
        have nothing : ((sample :: rest).filter fun sample =>
            leftMin < sample.ts ∧ sample.ts < boundary) = [] := by
          refine List.filter_eq_nil_iff.mpr fun other inside => ?_
          rw [decide_eq_true_eq]
          cases List.mem_cons.mp inside with
          | inl same =>
              rw [same]
              exact outside
          | inr beyond =>
              have := later other beyond
              omega
        rw [if_pos ends, if_neg outside, nothing]
        rfl
      · rw [if_neg ends, ih restOrdered]
        by_cases before : leftMin < sample.ts ∧ sample.ts < boundary
        · rw [if_pos before, List.filter_cons, if_pos (decide_eq_true before), List.getLast?_cons]
          cases (rest.filter fun sample =>
            leftMin < sample.ts ∧ sample.ts < boundary).getLast? with
          | none => rfl
          | some last => rfl
        · rw [if_neg before, List.filter_cons, if_neg (mt of_decide_eq_true before)]

theorem checkedI64_eq_some_iff {value result : Int} :
    checkedI64 value = some result ↔ result = value ∧ i64Min ≤ value ∧ value ≤ i64Max := by
  rw [checkedI64]
  split
  · rename_i inside
    rw [Option.some.injEq, and_iff_left inside, eq_comm]
  · rename_i outside
    exact iff_of_false nofun (fun both => outside both.2)

/-- Away from the samples a boundary value comes from the two samples next to it. -/
theorem interpolateBoundary_between {buffer : SampleBuffer} {value : ℚ}
    (apart : buffer.samples.find? (·.ts = boundary) = none) :
    buffer.interpolateBoundary boundary leftMin rightMax = some value ↔
      ∃ left right, IsLast RawSample.ts (fun sample => leftMin < sample.ts ∧ sample.ts < boundary)
          buffer.samples left ∧
        IsFirst RawSample.ts (fun sample => boundary < sample.ts ∧ sample.ts ≤ rightMax)
          buffer.samples right ∧
        ∃ before after span, checkedSub boundary left.ts = some before ∧
          checkedSub right.ts boundary = some after ∧ checkedAdd before after = some span ∧
          (if span ≤ 0 then none else some (left.value +
            (before : ℚ) / span * (right.value - left.value))) = some value := by
  rw [SampleBuffer.interpolateBoundary, apart]
  simp only [Option.bind_eq_bind, Option.bind_eq_some_iff, searchNeighbours_right,
    searchNeighbours_left buffer.ordered, Option.or_none,
    getLast?_filter_eq_some_iff_isLast buffer.ordered, find?_eq_some_iff_isFirst buffer.ordered]
  constructor
  · intro found
    obtain ⟨left, last, right, first, before, toLeft, after, toRight, span, total, result⟩ := found
    exact ⟨left, right, last, first, before, after, span, toLeft, toRight, total, result⟩
  · intro found
    obtain ⟨left, right, last, first, before, after, span, toLeft, toRight, total, result⟩ := found
    exact ⟨left, last, right, first, before, toLeft, after, toRight, span, total, result⟩

/-- A boundary value lies on the curve, and its neighbours within the bounds. -/
theorem onCurve_of_interpolateBoundary {buffer : SampleBuffer} {value : ℚ}
    (left : leftMin < boundary) (right : boundary ≤ rightMax)
    (computed : buffer.interpolateBoundary boundary leftMin rightMax = some value) :
    OnCurve buffer.samples boundary value ∧
      (∃ sample ∈ buffer.samples, leftMin < sample.ts ∧ sample.ts ≤ boundary) ∧
      ∃ sample ∈ buffer.samples, boundary ≤ sample.ts ∧ sample.ts ≤ rightMax := by
  cases found : buffer.samples.find? (·.ts = boundary) with
  | some sample =>
      have inside := List.mem_of_find?_eq_some found
      have same : sample.ts = boundary := by simpa using List.find?_some found
      rw [SampleBuffer.interpolateBoundary, found] at computed
      cases computed
      exact ⟨.exact inside same, ⟨sample, inside, by omega, by omega⟩,
        ⟨sample, inside, by omega, by omega⟩⟩
  | none =>
      have apart : ∀ sample ∈ buffer.samples, sample.ts ≠ boundary := by
        intro sample inside same
        have := List.find?_eq_none.mp found sample inside
        exact this (decide_eq_true same)
      obtain ⟨before, after, last, first, toLeft, toRight, span, leftGap, rightGap, total, result⟩ :=
        (interpolateBoundary_between found).mp computed
      have beforeInside := of_decide_eq_true last.accepted
      have afterInside := of_decide_eq_true first.accepted
      obtain ⟨rfl, _⟩ := checkedI64_eq_some_iff.mp leftGap
      obtain ⟨rfl, _⟩ := checkedI64_eq_some_iff.mp rightGap
      obtain ⟨rfl, _⟩ := checkedI64_eq_some_iff.mp total
      rw [if_neg (by omega), Option.some.injEq] at result
      refine ⟨?_, ⟨before, last.mem, beforeInside.1, beforeInside.2.le⟩,
        ⟨after, first.mem, afterInside.1.le, afterInside.2⟩⟩
      have widerLast : IsLast RawSample.ts (·.ts < boundary) buffer.samples before := by
        refine ⟨last.mem, decide_eq_true beforeInside.2, fun other member earlier => ?_⟩
        by_cases near : leftMin < other.ts
        · exact last.greatest other member (decide_eq_true ⟨near, of_decide_eq_true earlier⟩)
        · omega
      have widerFirst : IsFirst RawSample.ts (boundary < ·.ts) buffer.samples after := by
        refine ⟨first.mem, decide_eq_true afterInside.1, fun other member later => ?_⟩
        by_cases near : other.ts ≤ rightMax
        · exact first.least other member (decide_eq_true ⟨of_decide_eq_true later, near⟩)
        · omega
      have curve := OnCurve.between apart widerLast widerFirst
      rw [← result]
      convert curve using 3
      push_cast
      ring

theorem exists_interpolateBoundary {buffer : SampleBuffer} (fits : rightMax - leftMin ≤ i64Max)
    (before : ∃ sample ∈ buffer.samples, leftMin < sample.ts ∧ sample.ts ≤ boundary)
    (after : ∃ sample ∈ buffer.samples, boundary ≤ sample.ts ∧ sample.ts ≤ rightMax) :
    ∃ value, buffer.interpolateBoundary boundary leftMin rightMax = some value := by
  cases found : buffer.samples.find? (·.ts = boundary) with
  | some sample =>
      rw [SampleBuffer.interpolateBoundary, found]
      exact ⟨_, rfl⟩
  | none =>
      have apart : ∀ sample ∈ buffer.samples, sample.ts ≠ boundary := by
        intro sample inside same
        exact List.find?_eq_none.mp found sample inside (decide_eq_true same)
      obtain ⟨near, nearMember, nearLower, nearUpper⟩ := before
      obtain ⟨far, farMember, farLower, farUpper⟩ := after
      have nearApart := apart near nearMember
      have farApart := apart far farMember
      obtain ⟨left, last⟩ : ∃ left, IsLast RawSample.ts
          (fun sample => leftMin < sample.ts ∧ sample.ts < boundary) buffer.samples left :=
        exists_isLast buffer.ordered nearMember (decide_eq_true ⟨nearLower, by omega⟩)
      obtain ⟨right, first⟩ : ∃ right, IsFirst RawSample.ts
          (fun sample => boundary < sample.ts ∧ sample.ts ≤ rightMax) buffer.samples right :=
        exists_isFirst buffer.ordered farMember (decide_eq_true ⟨by omega, farUpper⟩)
      have leftInside := of_decide_eq_true last.accepted
      have rightInside := of_decide_eq_true first.accepted
      have whole : ∀ gap : Int, 0 ≤ gap → gap ≤ rightMax - leftMin → checkedI64 gap = some gap := by
        intro gap positive small
        have least : i64Min ≤ 0 := by decide
        exact checkedI64_eq_some_iff.mpr ⟨rfl, by omega, by omega⟩
      refine ⟨_, (interpolateBoundary_between found).mpr ⟨left, right, last, first,
        boundary - left.ts, right.ts - boundary, _, whole _ (by omega) (by omega),
        whole _ (by omega) (by omega), whole _ (by omega) (by omega), if_neg (by omega)⟩⟩

end Search

/-! ## The points of a bucket -/

section Points

variable {buffer : SampleBuffer} {bucketStart bucketEnd bucketLenMs : Int}
  {points : List (Int × ℚ)}

structure BucketCurve (samples : List RawSample) (bucketStart bucketEnd bucketLenMs : Int)
    (startValue endValue : ℚ) : Prop where
  start : OnCurve samples bucketStart startValue
  stop : OnCurve samples bucketEnd endValue
  before : ∃ sample ∈ samples, bucketStart - bucketLenMs < sample.ts ∧ sample.ts ≤ bucketStart
  inside : ∃ sample ∈ samples, bucketStart < sample.ts ∧ sample.ts ≤ bucketEnd
  after : ∃ sample ∈ samples, bucketEnd ≤ sample.ts ∧ sample.ts ≤ bucketEnd + bucketLenMs

namespace BucketCurve

variable {samples : List RawSample} {startValue endValue low high : ℚ}

theorem startValue_between
    (curve : BucketCurve samples bucketStart bucketEnd bucketLenMs startValue endValue)
    (positive : 0 ≤ bucketLenMs)
    (inside : ∀ sample ∈ samples, bucketStart - bucketLenMs < sample.ts →
      sample.ts ≤ bucketEnd + bucketLenMs → low ≤ sample.value ∧ sample.value ≤ high) :
    low ≤ startValue ∧ startValue ≤ high := by
  obtain ⟨sample, member, lower, upper⟩ := curve.inside
  exact curve.start.between_of_window curve.before ⟨sample, member, lower.le, by omega⟩ inside

theorem endValue_between
    (curve : BucketCurve samples bucketStart bucketEnd bucketLenMs startValue endValue)
    (positive : 0 ≤ bucketLenMs)
    (inside : ∀ sample ∈ samples, bucketStart - bucketLenMs < sample.ts →
      sample.ts ≤ bucketEnd + bucketLenMs → low ≤ sample.value ∧ sample.value ≤ high) :
    low ≤ endValue ∧ endValue ≤ high := by
  obtain ⟨sample, member, lower, upper⟩ := curve.inside
  exact curve.stop.between_of_window ⟨sample, member, by omega, upper⟩ curve.after inside

end BucketCurve

def interiorPoints (samples : List RawSample) (bucketStart bucketEnd : Int) : List (Int × ℚ) :=
  (samples.filter fun sample => bucketStart < sample.ts ∧ sample.ts < bucketEnd).map
    fun sample => (sample.ts, (sample.value : ℚ))

theorem bucketPoints_eq_some_iff :
    buffer.bucketPoints bucketStart bucketEnd bucketLenMs = some points ↔
      bucketStart < bucketEnd ∧ 0 < bucketLenMs ∧
      ∃ previousStart nextEnd startValue endValue,
        checkedSub bucketStart bucketLenMs = some previousStart ∧
        checkedAdd bucketEnd bucketLenMs = some nextEnd ∧
        buffer.interpolateBoundary bucketStart previousStart bucketEnd = some startValue ∧
        buffer.interpolateBoundary bucketEnd bucketStart nextEnd = some endValue ∧
        (∃ sample ∈ buffer.samples, bucketStart < sample.ts ∧ sample.ts ≤ bucketEnd) ∧
        points = (bucketStart, startValue) ::
          (interiorPoints buffer.samples bucketStart bucketEnd ++ [(bucketEnd, endValue)]) := by
  rw [SampleBuffer.bucketPoints]
  split
  · rename_i degenerate
    exact iff_of_false nofun (fun shape => by omega)
  · rename_i proper
    have sizes : bucketStart < bucketEnd ∧ 0 < bucketLenMs := by omega
    rw [and_iff_right sizes.1, and_iff_right sizes.2]
    simp only [Option.bind_eq_bind, Option.bind_eq_some_iff, ite_eq_iff, reduceCtorEq, and_false,
      false_or, Option.some.injEq, Bool.not_eq_true', Bool.not_eq_false, List.any_eq_true,
      decide_eq_true_eq]
    constructor
    · intro found
      obtain ⟨previousStart, first, nextEnd, second, startValue, third, endValue, fourth, inside,
        same⟩ := found
      exact ⟨previousStart, nextEnd, startValue, endValue, first, second, third, fourth, inside,
        same.symm⟩
    · intro found
      obtain ⟨previousStart, nextEnd, startValue, endValue, first, second, third, fourth, inside,
        same⟩ := found
      exact ⟨previousStart, first, nextEnd, second, startValue, third, endValue, fourth, inside,
        same.symm⟩

theorem bucketCurve_of_bucketPoints
    (computed : buffer.bucketPoints bucketStart bucketEnd bucketLenMs = some points) :
    0 < bucketLenMs ∧ ∃ startValue endValue,
      buffer.interpolateBoundary bucketStart (bucketStart - bucketLenMs) bucketEnd =
        some startValue ∧
      buffer.interpolateBoundary bucketEnd bucketStart (bucketEnd + bucketLenMs) =
        some endValue ∧
      BucketCurve buffer.samples bucketStart bucketEnd bucketLenMs startValue endValue ∧
      points = (bucketStart, startValue) ::
        (interiorPoints buffer.samples bucketStart bucketEnd ++ [(bucketEnd, endValue)]) := by
  obtain ⟨proper, positive, previousStart, nextEnd, startValue, endValue, previous, next, left,
    right, inside, shape⟩ := bucketPoints_eq_some_iff.mp computed
  obtain ⟨rfl, _⟩ := checkedI64_eq_some_iff.mp previous
  obtain ⟨rfl, _⟩ := checkedI64_eq_some_iff.mp next
  obtain ⟨start, before, _⟩ := onCurve_of_interpolateBoundary (by omega) (by omega) left
  obtain ⟨stop, _, after⟩ := onCurve_of_interpolateBoundary (by omega) (by omega) right
  exact ⟨positive, startValue, endValue, left, right, ⟨start, stop, before, inside, after⟩, shape⟩

/-- The arithmetic of a bucket and its neighbours stays within `i64`. -/
structure BucketFits (bucketEnd bucketLenMs : Int) : Prop where
  positive : 0 < bucketLenMs
  previous : i64Min ≤ bucketEnd - 2 * bucketLenMs
  next : bucketEnd + bucketLenMs ≤ i64Max
  span : 2 * bucketLenMs ≤ i64Max

theorem exists_bucketPoints (fits : BucketFits bucketEnd bucketLenMs)
    (before : ∃ sample ∈ buffer.samples,
      bucketEnd - bucketLenMs - bucketLenMs < sample.ts ∧ sample.ts ≤ bucketEnd - bucketLenMs)
    (inside : ∃ sample ∈ buffer.samples,
      bucketEnd - bucketLenMs < sample.ts ∧ sample.ts ≤ bucketEnd)
    (after : ∃ sample ∈ buffer.samples,
      bucketEnd ≤ sample.ts ∧ sample.ts ≤ bucketEnd + bucketLenMs) :
    ∃ points, buffer.bucketPoints (bucketEnd - bucketLenMs) bucketEnd bucketLenMs =
      some points := by
  obtain ⟨positive, previous, next, span⟩ := fits
  have least : i64Min ≤ 0 := by decide
  have most : 0 ≤ i64Max := by decide
  obtain ⟨sample, member, lower, upper⟩ := inside
  obtain ⟨startValue, left⟩ := exists_interpolateBoundary (by omega) before
    ⟨sample, member, lower.le, upper⟩
  obtain ⟨endValue, right⟩ : ∃ endValue, buffer.interpolateBoundary bucketEnd
      (bucketEnd - bucketLenMs) (bucketEnd + bucketLenMs) = some endValue :=
    exists_interpolateBoundary (by omega) ⟨sample, member, lower, upper⟩ after
  exact ⟨_, bucketPoints_eq_some_iff.mpr ⟨by omega, positive, _, _, startValue, endValue,
    checkedI64_eq_some_iff.mpr ⟨rfl, by omega, by omega⟩,
    checkedI64_eq_some_iff.mpr ⟨rfl, by omega, by omega⟩, left, right,
    ⟨sample, member, lower, upper⟩, rfl⟩⟩

end Points

/-! ## Pushing -/

theorem SampleBuffer.capacity_push (buffer : SampleBuffer) (ts : Int) (value : Nat) :
    (buffer.push ts value).capacity = buffer.capacity := by
  rw [SampleBuffer.push]
  split
  · rfl
  · split
    · rfl
    · rfl

theorem SampleBuffer.samples_push {buffer : SampleBuffer} {ts : Int} {value : Nat}
    (newer : ∀ sample ∈ buffer.samples, sample.ts < ts) :
    (buffer.push ts value).samples =
      (buffer.samples ++ [RawSample.mk ts value]).rtake buffer.capacity := by
  rw [SampleBuffer.push]
  split
  · rename_i zero
    have bounded := buffer.bounded
    rw [zero] at bounded
    rw [List.eq_nil_of_length_eq_zero (Nat.le_zero.mp bounded), zero]
    rfl
  · split
    · rename_i older
      obtain ⟨last, found, after⟩ := Option.any_eq_true _ _ |>.mp older
      have before := newer last (List.mem_of_getLast? found)
      exact absurd before (not_lt.mpr (of_decide_eq_true after))
    · rfl

end Vpsiner.Metrics
