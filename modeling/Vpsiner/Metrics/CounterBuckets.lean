import Mathlib.Tactic.Positivity
import Vpsiner.Metrics.BucketizerProperties

/-! Counter buckets: when a bucket has a rate, and which one. -/

set_option autoImplicit false

namespace Vpsiner.Metrics

open Vpsiner.Lib Vpsiner.Lib.Paging

/-! ## Eligible buckets -/

/-- The values from the first of two samples through the last never fall. -/
def NeverDecreases (samples : List RawSample) (first last : RawSample) : Prop :=
  ∀ earlier ∈ samples, ∀ later ∈ samples, first.ts ≤ earlier.ts → earlier.ts ≤ later.ts →
    later.ts ≤ last.ts → earlier.value ≤ later.value

/-- The data that a counter bucket needs: a last sample in the bucket before or at its start,
a first one at its end or in the bucket after, one inside, and no reset on the way. -/
def CounterSupported (samples : List RawSample) (bucketEnd bucketLenMs : Int) : Prop :=
  ∃ first last,
    IsLast RawSample.ts (fun sample => bucketEnd - bucketLenMs - bucketLenMs < sample.ts ∧
      sample.ts ≤ bucketEnd - bucketLenMs) samples first ∧
    IsFirst RawSample.ts (fun sample => bucketEnd ≤ sample.ts ∧
      sample.ts ≤ bucketEnd + bucketLenMs) samples last ∧
    (∃ sample ∈ samples, bucketEnd - bucketLenMs < sample.ts ∧ sample.ts ≤ bucketEnd) ∧
    NeverDecreases samples first last

theorem neverDecreases_iff_isChain {samples : List RawSample}
    (ordered : Ascending RawSample.ts samples) {start stop : Nat} {first last : RawSample}
    (order : start ≤ stop) (left : samples[start]? = some first)
    (right : samples[stop]? = some last) :
    ((samples.take (stop + 1)).drop start).IsChain (fun earlier later =>
      earlier.value ≤ later.value) ↔ NeverDecreases samples first last := by
  have transitive : Trans (fun earlier later : RawSample => earlier.value ≤ later.value)
      (fun earlier later : RawSample => earlier.value ≤ later.value)
      (fun earlier later : RawSample => earlier.value ≤ later.value) := ⟨Nat.le_trans⟩
  have kept : Ascending RawSample.ts (samples.filter fun other =>
      first.ts ≤ other.ts ∧ other.ts ≤ last.ts) := ordered.filter _
  rw [slice_eq_filter ordered order left right, List.isChain_iff_pairwise,
    pairwise_iff_forall kept]
  simp only [List.mem_filter, decide_eq_true_eq]
  constructor
  · intro rising earlier inside later laterInside lower before upper
    cases lt_or_eq_of_le before with
    | inl apart =>
        exact rising earlier ⟨inside, lower, by omega⟩ later ⟨laterInside, by omega, upper⟩ apart
    | inr same => rw [eq_of_key_eq ordered inside laterInside same]
  · intro rising earlier inside later laterInside before
    exact rising earlier inside.1 later laterInside.1 inside.2.1 before.le laterInside.2.2

/-! ## The curve over a bucket without a reset -/

section Curve

variable {samples : List RawSample} {first last sample : RawSample}
  {bucketStart bucketEnd : Int} {value : ℚ}

theorem OnCurve.le_of_rising (curve : OnCurve samples bucketStart value)
    (rising : NeverDecreases samples first last) (firstMember : first ∈ samples)
    (starts : first.ts ≤ bucketStart) (member : sample ∈ samples)
    (after : bucketStart < sample.ts) (within : sample.ts ≤ last.ts) : value ≤ sample.value := by
  have below : ∀ other ∈ samples, first.ts ≤ other.ts → other.ts ≤ sample.ts →
      (other.value : ℚ) ≤ sample.value := fun other inside lower upper =>
    Nat.cast_le.mpr (rising other inside sample member lower upper within)
  cases curve with
  | exact inside same => exact below _ inside (by omega) (by omega)
  | between apart left right =>
      have leftBefore := of_decide_eq_true left.accepted
      have rightAfter := of_decide_eq_true right.accepted
      have firstApart := apart first firstMember
      have fromFirst := left.greatest first firstMember (decide_eq_true (by omega))
      have toSample := right.least sample member (decide_eq_true after)
      obtain ⟨lower, upper⟩ := alpha_bounds leftBefore rightAfter
      exact interpolation_le lower upper (below _ left.mem fromFirst (by omega))
        (below _ right.mem (by omega) toSample)

theorem OnCurve.ge_of_rising (curve : OnCurve samples bucketEnd value)
    (rising : NeverDecreases samples first last) (lastMember : last ∈ samples)
    (ends : bucketEnd ≤ last.ts) (member : sample ∈ samples) (before : sample.ts ≤ bucketEnd)
    (within : first.ts ≤ sample.ts) : sample.value ≤ value := by
  have above : ∀ other ∈ samples, sample.ts ≤ other.ts → other.ts ≤ last.ts →
      (sample.value : ℚ) ≤ other.value := fun other inside lower upper =>
    Nat.cast_le.mpr (rising sample member other inside within lower upper)
  cases curve with
  | exact inside same => exact above _ inside (by omega) (by omega)
  | between apart left right =>
      have leftBefore := of_decide_eq_true left.accepted
      have rightAfter := of_decide_eq_true right.accepted
      have lastApart := apart last lastMember
      have sampleApart := apart sample member
      have toLast := right.least last lastMember (decide_eq_true (by omega))
      have fromSample := left.greatest sample member (decide_eq_true (by omega))
      obtain ⟨lower, upper⟩ := alpha_bounds leftBefore rightAfter
      exact le_interpolation lower upper (above _ left.mem fromSample (by omega))
        (above _ right.mem (by omega) toLast)

end Curve

/-! ## The rate of a bucket -/

def Bucketizer.startValue (bucketizer : Bucketizer) (bucketEnd : Int) : Option ℚ :=
  bucketizer.buffer.interpolateBoundary (bucketEnd - bucketizer.bucketLenMs)
    (bucketEnd - bucketizer.bucketLenMs - bucketizer.bucketLenMs) bucketEnd

def Bucketizer.endValue (bucketizer : Bucketizer) (bucketEnd : Int) : Option ℚ :=
  bucketizer.buffer.interpolateBoundary bucketEnd (bucketEnd - bucketizer.bucketLenMs)
    (bucketEnd + bucketizer.bucketLenMs)

section Collect

variable {bucketizer : CounterBucketizer} {bucketEnd : Int} {rate : Nat}

theorem counter_of_collect (collected : CounterBucketizer.collect bucketizer bucketEnd = some rate) :
    CounterSupported bucketizer.buffer.samples bucketEnd bucketizer.bucketLenMs ∧
      0 < bucketizer.bucketLenMs ∧ ∃ startValue endValue,
        bucketizer.startValue bucketEnd = some startValue ∧
        bucketizer.endValue bucketEnd = some endValue ∧
        BucketCurve bucketizer.buffer.samples (bucketEnd - bucketizer.bucketLenMs) bucketEnd
          bucketizer.bucketLenMs startValue endValue ∧
        startValue ≤ endValue ∧
        roundToU64 ((endValue - startValue) * counterRateScale * 1000 / bucketizer.bucketLenMs) =
          some rate := by
  have ordered := bucketizer.buffer.ordered
  rw [CounterBucketizer.collect] at collected
  split at collected
  · cases collected
  · simp only [Option.bind_eq_bind, Option.bind_eq_some_iff] at collected
    obtain ⟨length, whole, start, toStart, previous, toPrevious, next, toNext, startIndex, last,
      endIndex, first, collected⟩ := collected
    obtain ⟨rfl, _⟩ := checkedI64_eq_some_iff.mp whole
    obtain ⟨rfl, _⟩ := checkedI64_eq_some_iff.mp toStart
    obtain ⟨rfl, _⟩ := checkedI64_eq_some_iff.mp toPrevious
    obtain ⟨rfl, _⟩ := checkedI64_eq_some_iff.mp toNext
    obtain ⟨opening, left, isLast⟩ := (rposition_eq_some_iff_isLast ordered).mp last
    obtain ⟨closing, right, isFirst⟩ := (findIdx?_eq_some_iff_isFirst ordered).mp first
    split at collected
    · cases collected
    · rename_i order
      split at collected
      · cases collected
      · rename_i rising
        rw [not_not, neverDecreases_iff_isChain ordered (Nat.le_of_not_lt order) left right]
          at rising
        simp only [Option.bind_eq_some_iff] at collected
        obtain ⟨points, computed, head, isHead, tail, isTail, collected⟩ := collected
        obtain ⟨positive, startValue, endValue, starts, ends, curve, shape⟩ :=
          bucketCurve_of_bucketPoints computed
        rw [shape, List.head?_cons, Option.some.injEq] at isHead
        rw [shape, List.getLast?_cons, List.getLast?_concat, Option.getD_some,
          Option.some.injEq] at isTail
        subst isHead isTail
        split at collected
        · cases collected
        · rename_i notFalling
          rw [Int.cast_natCast] at collected
          exact ⟨⟨opening, closing, isLast, isFirst, curve.inside, rising⟩,
            Int.natCast_pos.mp positive, startValue, endValue, starts, ends, curve,
            not_lt.mp notFalling, collected⟩

/-- The values are small enough for every rate to fit. -/
def RatesFit (samples : List RawSample) (bucketLenMs : Nat) : Prop :=
  ∀ sample ∈ samples, (sample.value : ℚ) * 10 ^ 6 / bucketLenMs < 2 ^ 63

theorem exists_roundToU64 {samples : List RawSample} {bucketLenMs : Nat} (positive : 0 < bucketLenMs)
    (small : RatesFit samples bucketLenMs) {bucketStart : Int} {startValue endValue : ℚ}
    (curve : BucketCurve samples bucketStart bucketEnd bucketLenMs startValue endValue)
    (rising : startValue ≤ endValue) :
    ∃ rate, roundToU64 ((endValue - startValue) * counterRateScale * 1000 / bucketLenMs) =
      some rate := by
  have length : (0 : ℚ) < bucketLenMs := Nat.cast_pos.mpr positive
  have bound : ∀ sample ∈ samples, bucketStart - bucketLenMs < sample.ts →
      sample.ts ≤ bucketEnd + bucketLenMs →
        0 ≤ (sample.value : ℚ) ∧ (sample.value : ℚ) ≤ 2 ^ 63 * bucketLenMs / 10 ^ 6 := by
    intro sample inside _ _
    have fits := small sample inside
    rw [div_lt_iff₀ length] at fits
    rw [le_div_iff₀ (by norm_num)]
    exact ⟨Nat.cast_nonneg _, fits.le⟩
  have lower := (curve.startValue_between (Int.natCast_nonneg _) bound).1
  have upper := (curve.endValue_between (Int.natCast_nonneg _) bound).2
  rw [le_div_iff₀ (by norm_num)] at upper
  have nonneg : 0 ≤ (endValue - startValue) * counterRateScale * 1000 / bucketLenMs := by
    rw [counterRateScale]
    have : 0 ≤ endValue - startValue := sub_nonneg.mpr rising
    positivity
  have large : (endValue - startValue) * counterRateScale * 1000 / bucketLenMs ≤ 2 ^ 64 - 1 := by
    rw [div_le_iff₀ length, counterRateScale]
    nlinarith
  have round_nonneg : 0 ≤ round ((endValue - startValue) * counterRateScale * 1000 / bucketLenMs) := by
    rw [round_eq]
    exact Int.floor_nonneg.mpr (by linarith)
  exact ⟨_, roundToU64_eq_some_iff.mpr ⟨nonneg, large, Int.toNat_of_nonneg round_nonneg⟩⟩

theorem exists_collect (fits : BucketFits bucketEnd bucketizer.bucketLenMs)
    (small : RatesFit bucketizer.buffer.samples bucketizer.bucketLenMs)
    (supported : CounterSupported bucketizer.buffer.samples bucketEnd bucketizer.bucketLenMs) :
    ∃ rate, CounterBucketizer.collect bucketizer bucketEnd = some rate := by
  have ordered := bucketizer.buffer.ordered
  obtain ⟨opening, closing, isLast, isFirst, inside, rising⟩ := supported
  obtain ⟨positive, lowest, highest, span⟩ := fits
  have openingWindow := of_decide_eq_true isLast.accepted
  have closingWindow := of_decide_eq_true isFirst.accepted
  obtain ⟨points, computed⟩ : ∃ points, bucketizer.buffer.bucketPoints
      (bucketEnd - bucketizer.bucketLenMs) bucketEnd bucketizer.bucketLenMs = some points :=
    exists_bucketPoints ⟨positive, lowest, highest, span⟩
      ⟨opening, isLast.mem, openingWindow.1, openingWindow.2⟩ inside
      ⟨closing, isFirst.mem, closingWindow.1, closingWindow.2⟩
  obtain ⟨_, startValue, endValue, _, _, curve, shape⟩ := bucketCurve_of_bucketPoints computed
  obtain ⟨startIndex, left⟩ := List.getElem?_of_mem isLast.mem
  obtain ⟨endIndex, right⟩ := List.getElem?_of_mem isFirst.mem
  obtain ⟨sample, member, lower, upper⟩ := inside
  have order : startIndex ≤ endIndex := (lt_of_key_lt ordered left right (by omega)).le
  have risingCurve : startValue ≤ endValue :=
    (curve.start.le_of_rising rising isLast.mem openingWindow.2 member lower (by omega)).trans
      (curve.stop.ge_of_rising rising isFirst.mem closingWindow.1 member upper (by omega))
  obtain ⟨rate, rounded⟩ :=
    exists_roundToU64 (Int.natCast_pos.mp positive) small curve risingCurve
  have nonempty : ¬(bucketizer.buffer.isEmpty = true ∨ bucketizer.bucketLenMs = 0) := by
    intro degenerate
    cases degenerate with
    | inl empty =>
        rw [SampleBuffer.isEmpty, List.isEmpty_iff] at empty
        rw [empty] at member
        cases member
    | inr zero => omega
  have least : i64Min ≤ 0 := by decide
  have whole : i64FromU64 bucketizer.bucketLenMs = some (bucketizer.bucketLenMs : Int) :=
    checkedI64_eq_some_iff.mpr ⟨rfl, by omega, by omega⟩
  have toStart : checkedSub bucketEnd bucketizer.bucketLenMs = some _ :=
    checkedI64_eq_some_iff.mpr ⟨rfl, by omega, by omega⟩
  have toPrevious : checkedSub (bucketEnd - bucketizer.bucketLenMs) bucketizer.bucketLenMs =
      some _ := checkedI64_eq_some_iff.mpr ⟨rfl, by omega, by omega⟩
  have toNext : checkedAdd bucketEnd bucketizer.bucketLenMs = some _ :=
    checkedI64_eq_some_iff.mpr ⟨rfl, by omega, by omega⟩
  have last := (rposition_eq_some_iff_isLast ordered).mpr ⟨opening, left, isLast⟩
  have first := (findIdx?_eq_some_iff_isFirst ordered).mpr ⟨closing, right, isFirst⟩
  have chain := (neverDecreases_iff_isChain ordered order left right).mpr rising
  refine ⟨rate, ?_⟩
  rw [CounterBucketizer.collect, if_neg nonempty]
  simp only [whole, toStart, toPrevious, toNext, last, first, computed, shape, chain, not_true,
    if_neg (Nat.not_lt_of_le order), if_false, Option.bind_eq_bind, Option.bind_some,
    List.head?_cons, List.getLast?_cons, List.getLast?_concat, Option.getD_some,
    if_neg (not_lt.mpr risingCurve), Int.cast_natCast, rounded]

end Collect

/-- A counter bucket has a rate exactly when its data supports one, and the rate is then the
rounded slope of the curve between the boundaries, in thousandths per second. -/
theorem counter_collect_spec (bucketizer : CounterBucketizer) (bucketEnd : Int)
    (fits : BucketFits bucketEnd bucketizer.bucketLenMs)
    (small : RatesFit bucketizer.buffer.samples bucketizer.bucketLenMs) :
    ((∃ rate, CounterBucketizer.collect bucketizer bucketEnd = some rate) ↔
      CounterSupported bucketizer.buffer.samples bucketEnd bucketizer.bucketLenMs) ∧
    ∀ rate, CounterBucketizer.collect bucketizer bucketEnd = some rate →
      ∃ startValue endValue,
        OnCurve bucketizer.buffer.samples (bucketEnd - bucketizer.bucketLenMs) startValue ∧
        OnCurve bucketizer.buffer.samples bucketEnd endValue ∧ startValue ≤ endValue ∧
        (rate : Int) = round ((endValue - startValue) * 10 ^ 6 / bucketizer.bucketLenMs) := by
  refine ⟨⟨fun collected => ?_, exists_collect fits small⟩, fun rate collected => ?_⟩
  · obtain ⟨rate, collected⟩ := collected
    exact (counter_of_collect collected).1
  · obtain ⟨_, _, startValue, endValue, _, _, curve, rising, rounded⟩ :=
      counter_of_collect collected
    refine ⟨startValue, endValue, curve.start, curve.stop, rising, ?_⟩
    rw [(roundToU64_eq_some_iff.mp rounded).2.2, counterRateScale, mul_assoc]
    norm_num

/-- A counter that advances by 1000 in each of two buckets. -/
def steadyCounter : CounterBucketizer :=
  (((Bucketizer.new 8 10000).push (-5000) 500).push 5000 1500).push 15000 2500

theorem steadyCounter_samples :
    steadyCounter.buffer.samples = [⟨-5000, 500⟩, ⟨5000, 1500⟩, ⟨15000, 2500⟩] := by
  decide +kernel

theorem counter_collect_steady :
    CounterBucketizer.collect steadyCounter 10000 = some 100000 ∧
      CounterSupported steadyCounter.buffer.samples 10000 10000 := by
  have fits : BucketFits 10000 steadyCounter.bucketLenMs :=
    ⟨by decide, by decide, by decide, by decide⟩
  have small : RatesFit steadyCounter.buffer.samples steadyCounter.bucketLenMs := by
    intro sample inside
    rw [steadyCounter_samples] at inside
    have length : steadyCounter.bucketLenMs = 10000 := rfl
    simp only [List.mem_cons, List.not_mem_nil, or_false] at inside
    obtain rfl | rfl | rfl := inside
    · rw [length]
      norm_num
    · rw [length]
      norm_num
    · rw [length]
      norm_num
  have collected : CounterBucketizer.collect steadyCounter 10000 = some 100000 := by
    decide +kernel
  exact ⟨collected, (counter_collect_spec steadyCounter 10000 fits small).1.mp ⟨_, collected⟩⟩

end Vpsiner.Metrics
