import Vpsiner.Lib.Polyline
import Vpsiner.Metrics.BucketizerProperties

/-! Gauge buckets: the mean of the curve over the bucket, between its samples. -/

set_option autoImplicit false

namespace Vpsiner.Metrics

open Vpsiner.Lib Vpsiner.Lib.Paging

noncomputable def planePoint (point : Int × ℚ) : Polyline.Point := (point.1, point.2)

/-- The loop over the points never meets two of them in the wrong order, and adds up their
trapezoids. -/
theorem trapezoids_eq (first : Int × ℚ) (rest : List (Int × ℚ)) (integral : ℚ)
    (ascending : Ascending Prod.fst (first :: rest))
    (short : ∀ point ∈ rest, point.1 - first.1 ≤ i64Max) :
    ∃ total, trapezoids (first :: rest) integral = some total ∧
      (total : ℝ) = integral + Polyline.area ((first :: rest).map planePoint) := by
  induction rest generalizing first integral with
  | nil => exact ⟨integral, rfl, (add_zero _).symm⟩
  | cons next rest ih =>
      obtain ⟨before, onward⟩ := List.pairwise_cons.mp ascending
      have proper : first.1 < next.1 := before next List.mem_cons_self
      have near := short next List.mem_cons_self
      have least : i64Min ≤ 0 := by decide
      have gap : checkedSub next.1 first.1 = some (next.1 - first.1) :=
        checkedI64_eq_some_iff.mpr ⟨rfl, by omega, by omega⟩
      obtain ⟨total, summed, area⟩ := ih next
        (integral + (first.2 + next.2) * (1 / 2) * (next.1 - first.1 : Int)) onward
        (fun point inside => by
          have := short point (List.mem_cons_of_mem _ inside)
          omega)
      refine ⟨total, ?_, ?_⟩
      · rw [trapezoids, gap, Option.bind_eq_bind, Option.bind_some, if_neg (by omega)]
        exact summed
      · rw [area, List.map_cons, List.map_cons, List.map_cons, Polyline.area]
        simp only [planePoint]
        push_cast
        ring

theorem mem_interiorPoints {samples : List RawSample} {bucketStart bucketEnd : Int}
    {point : Int × ℚ} : point ∈ interiorPoints samples bucketStart bucketEnd ↔
      ∃ sample ∈ samples, (bucketStart < sample.ts ∧ sample.ts < bucketEnd) ∧
        point = (sample.ts, (sample.value : ℚ)) := by
  rw [interiorPoints, List.mem_map]
  constructor
  · intro found
    obtain ⟨sample, kept, rfl⟩ := found
    obtain ⟨inside, within⟩ := List.mem_filter.mp kept
    exact ⟨sample, inside, of_decide_eq_true within, rfl⟩
  · intro found
    obtain ⟨sample, inside, within, rfl⟩ := found
    exact ⟨sample, List.mem_filter.mpr ⟨inside, decide_eq_true within⟩, rfl⟩

theorem ascending_points (buffer : SampleBuffer) {bucketStart bucketEnd : Int}
    (proper : bucketStart < bucketEnd) (startValue endValue : ℚ) :
    Ascending Prod.fst ((bucketStart, startValue) ::
      (interiorPoints buffer.samples bucketStart bucketEnd ++ [(bucketEnd, endValue)])) := by
  refine List.pairwise_cons.mpr ⟨?_, List.pairwise_append.mpr ⟨?_, List.pairwise_singleton _ _, ?_⟩⟩
  · intro point inside
    cases List.mem_append.mp inside with
    | inl interior =>
        obtain ⟨sample, _, within, rfl⟩ := mem_interiorPoints.mp interior
        exact within.1
    | inr last =>
        rw [List.mem_singleton.mp last]
        exact proper
  · exact List.pairwise_map.mpr (buffer.ordered.filter _)
  · intro point inside last same
    obtain ⟨sample, _, within, rfl⟩ := mem_interiorPoints.mp inside
    rw [List.mem_singleton.mp same]
    exact within.2

section Gauge

variable {bucketizer : GaugeBucketizer} {bucketEnd : Int} {value : Nat}

/-- The loop over the points of a bucket always finishes. -/
theorem exists_trapezoids {buffer : SampleBuffer} {bucketStart bucketEnd bucketLenMs : Int}
    {points : List (Int × ℚ)} (short : bucketEnd - bucketStart ≤ i64Max)
    (computed : buffer.bucketPoints bucketStart bucketEnd bucketLenMs = some points) :
    Ascending Prod.fst points ∧ ∃ total, trapezoids points 0 = some total ∧
      (total : ℝ) = Polyline.area (points.map planePoint) := by
  obtain ⟨proper, _, _, _, startValue, endValue, _, _, _, _, _, rfl⟩ :=
    bucketPoints_eq_some_iff.mp computed
  have ascending := ascending_points buffer proper startValue endValue
  refine ⟨ascending, ?_⟩
  obtain ⟨total, summed, area⟩ := trapezoids_eq _ _ 0 ascending fun point inside => by
    cases List.mem_append.mp inside with
    | inl interior =>
        obtain ⟨sample, _, within, rfl⟩ := mem_interiorPoints.mp interior
        exact le_trans (by dsimp only; omega) short
    | inr last =>
        rw [List.mem_singleton.mp last]
        exact short
  rw [Rat.cast_zero, zero_add] at area
  exact ⟨total, summed, area⟩

theorem gauge_of_collect (collected : GaugeBucketizer.collect bucketizer bucketEnd = some value) :
    0 < bucketizer.bucketLenMs ∧ ∃ startValue endValue, ∃ total : ℚ,
      BucketCurve bucketizer.buffer.samples (bucketEnd - bucketizer.bucketLenMs) bucketEnd
        bucketizer.bucketLenMs startValue endValue ∧
      (total : ℝ) = Polyline.area (((bucketEnd - bucketizer.bucketLenMs, startValue) ::
        (interiorPoints bucketizer.buffer.samples (bucketEnd - bucketizer.bucketLenMs) bucketEnd ++
          [(bucketEnd, endValue)])).map planePoint) ∧
      roundToU64 (total / bucketizer.bucketLenMs) = some value := by
  rw [GaugeBucketizer.collect] at collected
  split at collected
  · cases collected
  · simp only [Option.bind_eq_bind, Option.bind_eq_some_iff] at collected
    obtain ⟨length, whole, start, toStart, points, computed, total, summed, rounded⟩ := collected
    obtain ⟨rfl, _, fits⟩ := checkedI64_eq_some_iff.mp whole
    obtain ⟨rfl, _⟩ := checkedI64_eq_some_iff.mp toStart
    obtain ⟨_, sum, same, area⟩ := exists_trapezoids (by omega) computed
    rw [summed, Option.some.injEq] at same
    obtain ⟨positive, startValue, endValue, _, _, curve, shape⟩ :=
      bucketCurve_of_bucketPoints computed
    rw [shape, ← same] at area
    exact ⟨Int.natCast_pos.mp positive, startValue, endValue, total, curve, area,
      by rwa [Int.cast_natCast] at rounded⟩

/-- A sample of the bucket or of one of its neighbours. -/
def NearBucket (bucketEnd : Int) (bucketLenMs : Nat) (sample : RawSample) : Prop :=
  bucketEnd - 2 * bucketLenMs < sample.ts ∧ sample.ts ≤ bucketEnd + bucketLenMs

def nearSamples (samples : List RawSample) (bucketEnd : Int) (bucketLenMs : Nat) :
    Set RawSample :=
  {sample | sample ∈ samples ∧ NearBucket bucketEnd bucketLenMs sample}

theorem nearSamples_finite (samples : List RawSample) (bucketEnd : Int) (bucketLenMs : Nat) :
    (nearSamples samples bucketEnd bucketLenMs).Finite :=
  samples.finite_toSet.subset fun _ near => near.1

theorem round_between {value : Nat} {mean : ℚ} {low high : Nat} (rounded : (value : Int) = round mean)
    (lower : (low : ℚ) ≤ mean) (upper : mean ≤ high) : low ≤ value ∧ value ≤ high := by
  rw [round_eq] at rounded
  have above : (low : Int) ≤ ⌊mean + 1 / 2⌋ := Int.le_floor.mpr (by push_cast; linarith)
  have below : ⌊mean + 1 / 2⌋ < (high : Int) + 1 := Int.floor_lt.mpr (by push_cast; linarith)
  omega

section Points

variable {samples : List RawSample} {bucketLenMs : Nat} {startValue endValue : ℚ}

noncomputable def bucketCurvePoints (samples : List RawSample) (bucketEnd : Int)
    (bucketLenMs : Nat) (startValue endValue : ℚ) : List Polyline.Point :=
  ((bucketEnd - bucketLenMs, startValue) ::
    (interiorPoints samples (bucketEnd - bucketLenMs) bucketEnd ++
      [(bucketEnd, endValue)])).map planePoint

theorem ascending_planePoints {points : List (Int × ℚ)} (ascending : Ascending Prod.fst points) :
    Ascending Prod.fst (points.map planePoint) :=
  List.pairwise_map.mpr (ascending.imp fun before => Int.cast_lt.mpr before)

theorem planePoint_getLast (points : List (Int × ℚ)) (first last : Int × ℚ) :
    ((planePoint first :: (points ++ [last]).map planePoint).getLast (List.cons_ne_nil _ _)) =
      planePoint last := by
  simp only [List.map_append, List.map_cons, List.map_nil, ← List.cons_append, List.getLast_concat]

/-- The area under the points lies between the values of the samples around. -/
theorem area_between_samples (positive : 0 < bucketLenMs) {buffer : SampleBuffer}
    (curve : BucketCurve buffer.samples (bucketEnd - bucketLenMs) bucketEnd bucketLenMs startValue
      endValue) {low high : Nat}
    (inside : ∀ sample ∈ buffer.samples, NearBucket bucketEnd bucketLenMs sample →
      low ≤ sample.value ∧ sample.value ≤ high) :
    (low : ℝ) * bucketLenMs ≤ Polyline.area
        (bucketCurvePoints buffer.samples bucketEnd bucketLenMs startValue endValue) ∧
      Polyline.area (bucketCurvePoints buffer.samples bucketEnd bucketLenMs startValue endValue) ≤
        high * bucketLenMs := by
  have near : ∀ sample ∈ buffer.samples, bucketEnd - bucketLenMs - bucketLenMs < sample.ts →
      sample.ts ≤ bucketEnd + bucketLenMs →
        (low : ℚ) ≤ sample.value ∧ (sample.value : ℚ) ≤ high := by
    intro sample member lower upper
    have between := inside sample member ⟨by omega, upper⟩
    exact ⟨Nat.cast_le.mpr between.1, Nat.cast_le.mpr between.2⟩
  have starts := curve.startValue_between (by omega) near
  have ends := curve.endValue_between (by omega) near
  have ordinates : ∀ point ∈ bucketCurvePoints buffer.samples bucketEnd bucketLenMs startValue
      endValue, (low : ℝ) ≤ point.2 ∧ point.2 ≤ high := by
    intro point member
    obtain ⟨origin, present, rfl⟩ := List.mem_map.mp member
    have between : (low : ℚ) ≤ origin.2 ∧ origin.2 ≤ high := by
      cases List.mem_cons.mp present with
      | inl first =>
          rw [first]
          exact starts
      | inr later =>
          cases List.mem_append.mp later with
          | inl interior =>
              obtain ⟨sample, held, within, rfl⟩ := mem_interiorPoints.mp interior
              exact near sample held (by omega) (by omega)
          | inr last =>
              rw [List.mem_singleton.mp last]
              exact ends
    have ordinate : (planePoint origin).2 = (origin.2 : ℝ) := rfl
    rw [ordinate]
    exact ⟨by exact_mod_cast between.1, by exact_mod_cast between.2⟩
  have width : (planePoint (bucketEnd, endValue)).1 -
      (planePoint (bucketEnd - bucketLenMs, startValue)).1 = (bucketLenMs : ℝ) := by
    simp only [planePoint]
    push_cast
    ring
  have proper : bucketEnd - bucketLenMs < bucketEnd := by omega
  have bounds := Polyline.area_between (planePoint (bucketEnd - bucketLenMs, startValue)) _
    (ascending_planePoints (ascending_points buffer proper startValue endValue)) ordinates
  rw [planePoint_getLast, width] at bounds
  exact bounds

/-- The area under the points is the integral of the curve through them. -/
theorem integral_bucketCurvePoints (positive : 0 < bucketLenMs) (buffer : SampleBuffer) :
    ∫ place in ((bucketEnd - bucketLenMs : Int) : ℝ)..(bucketEnd : ℝ), Polyline.curve
        (bucketCurvePoints buffer.samples bucketEnd bucketLenMs startValue endValue) place =
      Polyline.area
        (bucketCurvePoints buffer.samples bucketEnd bucketLenMs startValue endValue) := by
  have proper : bucketEnd - bucketLenMs < bucketEnd := by omega
  have integral := (Polyline.integral_curve (planePoint (bucketEnd - bucketLenMs, startValue)) _
    (ascending_planePoints (ascending_points buffer proper startValue endValue))).2
  rw [planePoint_getLast] at integral
  exact integral

end Points

theorem gauge_between (collected : GaugeBucketizer.collect bucketizer bucketEnd = some value)
    {low high : Nat} (inside : ∀ sample ∈ bucketizer.buffer.samples,
      NearBucket bucketEnd bucketizer.bucketLenMs sample →
        low ≤ sample.value ∧ sample.value ≤ high) : low ≤ value ∧ value ≤ high := by
  obtain ⟨positive, startValue, endValue, total, curve, area, rounded⟩ :=
    gauge_of_collect collected
  obtain ⟨_, _, nearest⟩ := roundToU64_eq_some_iff.mp rounded
  have length : (0 : ℚ) < bucketizer.bucketLenMs := Nat.cast_pos.mpr positive
  obtain ⟨lower, upper⟩ := area_between_samples positive curve inside
  rw [bucketCurvePoints, ← area] at lower upper
  refine round_between nearest ?_ ?_
  · rw [le_div_iff₀ length]
    exact_mod_cast lower
  · rw [div_le_iff₀ length]
    exact_mod_cast upper

/-- Some samples around the bucket are the lowest and the highest of them. -/
theorem gauge_extremes
    (collected : GaugeBucketizer.collect bucketizer bucketEnd = some value) :
    ∃ low ∈ nearSamples bucketizer.buffer.samples bucketEnd bucketizer.bucketLenMs,
      ∃ high ∈ nearSamples bucketizer.buffer.samples bucketEnd bucketizer.bucketLenMs,
        ∀ sample ∈ nearSamples bucketizer.buffer.samples bucketEnd bucketizer.bucketLenMs,
          low.value ≤ sample.value ∧ sample.value ≤ high.value := by
  obtain ⟨_, _, _, _, curve, _, _⟩ := gauge_of_collect collected
  obtain ⟨sample, member, after, before⟩ := curve.inside
  have near : NearBucket bucketEnd bucketizer.bucketLenMs sample := ⟨by omega, by omega⟩
  have finite := nearSamples_finite bucketizer.buffer.samples bucketEnd bucketizer.bucketLenMs
  have present : (nearSamples bucketizer.buffer.samples bucketEnd
    bucketizer.bucketLenMs).Nonempty := ⟨sample, member, near⟩
  obtain ⟨low, lowNear, least⟩ := Set.exists_min_image _ RawSample.value finite present
  obtain ⟨high, highNear, greatest⟩ := Set.exists_max_image _ RawSample.value finite present
  exact ⟨low, lowNear, high, highNear, fun other close => ⟨least other close, greatest other close⟩⟩

theorem gauge_mean (collected : GaugeBucketizer.collect bucketizer bucketEnd = some value) :
    ∃ startValue endValue,
      OnCurve bucketizer.buffer.samples (bucketEnd - bucketizer.bucketLenMs) startValue ∧
      OnCurve bucketizer.buffer.samples bucketEnd endValue ∧
      (value : Int) = round ((∫ place in
        ((bucketEnd - bucketizer.bucketLenMs : Int) : ℝ)..(bucketEnd : ℝ),
        Polyline.curve (bucketCurvePoints bucketizer.buffer.samples bucketEnd
          bucketizer.bucketLenMs startValue endValue) place) / bucketizer.bucketLenMs) := by
  obtain ⟨positive, startValue, endValue, total, curve, area, rounded⟩ :=
    gauge_of_collect collected
  obtain ⟨_, _, nearest⟩ := roundToU64_eq_some_iff.mp rounded
  refine ⟨startValue, endValue, curve.start, curve.stop, ?_⟩
  have mean : ((total / bucketizer.bucketLenMs : ℚ) : ℝ) =
      (total : ℝ) / bucketizer.bucketLenMs := by
    rw [Rat.cast_div, Rat.cast_natCast]
  rw [integral_bucketCurvePoints positive, bucketCurvePoints, ← area, nearest, ← mean,
    Rat.round_cast]

end Gauge

/-- A gauge bucket is the rounded mean of the curve over the bucket. It lies between values
of the bucket and its neighbours, and its loop over the points never ends early. -/
theorem gauge_collect_spec (bucketizer : GaugeBucketizer) (bucketEnd : Int) :
    (∀ value, GaugeBucketizer.collect bucketizer bucketEnd = some value →
      (∃ low ∈ bucketizer.buffer.samples, ∃ high ∈ bucketizer.buffer.samples,
        NearBucket bucketEnd bucketizer.bucketLenMs low ∧
        NearBucket bucketEnd bucketizer.bucketLenMs high ∧
        low.value ≤ value ∧ value ≤ high.value) ∧
      (∃ startValue endValue,
        OnCurve bucketizer.buffer.samples (bucketEnd - bucketizer.bucketLenMs) startValue ∧
        OnCurve bucketizer.buffer.samples bucketEnd endValue ∧
        (value : Int) = round ((∫ place in
          ((bucketEnd - bucketizer.bucketLenMs : Int) : ℝ)..(bucketEnd : ℝ),
          Polyline.curve (bucketCurvePoints bucketizer.buffer.samples bucketEnd
            bucketizer.bucketLenMs startValue endValue) place) / bucketizer.bucketLenMs)) ∧
      ∀ constant, (∀ sample ∈ bucketizer.buffer.samples,
        NearBucket bucketEnd bucketizer.bucketLenMs sample → sample.value = constant) →
          value = constant) ∧
    ∀ bucketLenMs bucketStart points, i64FromU64 bucketizer.bucketLenMs = some bucketLenMs →
      checkedSub bucketEnd bucketLenMs = some bucketStart →
      bucketizer.buffer.bucketPoints bucketStart bucketEnd bucketLenMs = some points →
        Ascending Prod.fst points ∧ ∃ total, trapezoids points 0 = some total := by
  refine ⟨fun value collected => ⟨?_, gauge_mean collected, fun constant same => ?_⟩,
    fun bucketLenMs bucketStart points whole toStart computed => ?_⟩
  · obtain ⟨low, ⟨lowHeld, lowNear⟩, high, ⟨highHeld, highNear⟩, extreme⟩ :=
      gauge_extremes collected
    exact ⟨low, lowHeld, high, highHeld, lowNear, highNear,
      gauge_between collected fun other inside close => extreme other ⟨inside, close⟩⟩
  · have equal := gauge_between collected fun sample inside close =>
      ⟨(same sample inside close).ge, (same sample inside close).le⟩
    exact le_antisymm equal.2 equal.1
  · obtain ⟨rfl, _, fits⟩ := checkedI64_eq_some_iff.mp whole
    obtain ⟨rfl, _⟩ := checkedI64_eq_some_iff.mp toStart
    obtain ⟨ascending, total, summed, _⟩ := exists_trapezoids (by omega) computed
    exact ⟨ascending, total, summed⟩

/-- A gauge that grows by a thousand each ten seconds. -/
def risingGauge : GaugeBucketizer :=
  (((Bucketizer.new 8 10000).push (-5000) 500).push 5000 1500).push 15000 2500

theorem gauge_collect_rising :
    GaugeBucketizer.collect risingGauge 10000 = some 1500 ∧
      (∃ low ∈ risingGauge.buffer.samples, ∃ high ∈ risingGauge.buffer.samples,
        NearBucket 10000 risingGauge.bucketLenMs low ∧
        NearBucket 10000 risingGauge.bucketLenMs high ∧ low.value ≤ 1500 ∧ 1500 ≤ high.value) ∧
      ∃ total, trapezoids [(0, 1000), (5000, 1500), (10000, 2000)] 0 = some total := by
  have collected : GaugeBucketizer.collect risingGauge 10000 = some 1500 := by decide +kernel
  have points : risingGauge.buffer.bucketPoints 0 10000 10000 =
      some [(0, 1000), (5000, 1500), (10000, 2000)] := by decide +kernel
  obtain ⟨averaged, summed⟩ := gauge_collect_spec risingGauge 10000
  exact ⟨collected, (averaged 1500 collected).1,
    (summed 10000 0 _ (by decide) (by decide) points).2⟩

end Vpsiner.Metrics
