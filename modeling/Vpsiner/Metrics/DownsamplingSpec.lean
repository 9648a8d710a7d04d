import Vpsiner.Metrics.DownsamplingProperties
import Mathlib.Algebra.Order.BigOperators.Group.List
import Mathlib.Data.List.ReduceOption

/-! The downsampling passes by their result: a row for every window that was sampled
densely enough, made of the means over the window. -/

set_option autoImplicit false

namespace Vpsiner.Metrics

open Lib

/-! ## Means -/

def meanOf (values : List Nat) : Nat := values.sum / values.length

/-- The mean of the present values. -/
def meanKnown (values : List (Option Nat)) : Option Nat :=
  if values.reduceOption = [] then none else some (meanOf values.reduceOption)

theorem sum_column_le {σ : Type} {column : σ → Nat} {samples : List σ} {bound : Nat}
    (small : ∀ sample ∈ samples, column sample ≤ bound) :
    (samples.map column).sum ≤ samples.length * bound := by
  simpa using (samples.map column).sum_le_card_nsmul bound (List.forall_mem_map.mpr small)

theorem asU64_mean {σ : Type} {column : σ → Nat} {window : List σ}
    (small : ∀ sample ∈ window, column sample ≤ 2 ^ 64 - 1) :
    asU64 ((window.map column).sum / window.length) = meanOf (window.map column) := by
  have within : (window.map column).sum / window.length ≤ 2 ^ 64 - 1 :=
    Nat.div_le_of_le_mul (sum_column_le small)
  simp only [meanOf, List.length_map]
  apply Nat.mod_eq_of_lt
  omega

/-- What a gauge holds after the values. -/
def gaugeOf (values : List (Option Nat)) : OptionalGauge :=
  ⟨values.reduceOption.length, values.reduceOption.sum⟩

theorem gaugeOf_concat (values : List (Option Nat)) (value : Option Nat) :
    gaugeOf (values ++ [value]) = (gaugeOf values).add value := by
  cases value with
  | none => simp [gaugeOf, OptionalGauge.add, List.reduceOption_append]
  | some value => simp [gaugeOf, OptionalGauge.add, List.reduceOption_append]

theorem meanRate_gaugeOf {σ : Type} {column : σ → Option Nat} {window : List σ}
    (small : ∀ sample ∈ window, ∀ value ∈ column sample, value ≤ 2 ^ 64 - 1) :
    (gaugeOf (window.map column)).meanRate = meanKnown (window.map column) := by
  have known : ∀ value ∈ (window.map column).reduceOption, id value ≤ 2 ^ 64 - 1 := by
    intro value member
    obtain ⟨sample, present, same⟩ := List.mem_map.mp (List.reduceOption_mem_iff.mp member)
    exact small sample present value same
  have mean := asU64_mean known
  rw [List.map_id] at mean
  by_cases unknown : (window.map column).reduceOption = []
  · simp [OptionalGauge.meanRate, meanKnown, gaugeOf, unknown]
  · have counted := List.length_pos_of_ne_nil unknown
    simp only [OptionalGauge.meanRate, meanKnown, gaugeOf, unknown, counted, if_true, if_false,
      mean]

/-! ## Silences -/

/-- The time from each moment to the next. -/
def silences : List Int → List Int
  | earlier :: later :: rest => (later - earlier) :: silences (later :: rest)
  | _ => []

theorem silences_concat (front : List Int) (last next : Int) :
    silences (front ++ [last, next]) = silences (front ++ [last]) ++ [next - last] := by
  induction front with
  | nil => rfl
  | cons head rest ih =>
      cases rest with
      | nil => rfl
      | cons second rest => simpa [silences] using ih

theorem lastTs_observed (gap : GapTracker) (front : List Int) (ts : Int) :
    ((front ++ [ts]).foldl GapTracker.observe gap).lastTs = some ts := by
  simp [GapTracker.observe]

theorem firstTs_observed (gap : GapTracker) (times : List Int) :
    (times.foldl GapTracker.observe gap).firstTs = gap.firstTs.or times.head? := by
  induction times generalizing gap with
  | nil => simp
  | cons ts rest ih =>
      rw [List.foldl_cons, ih]
      cases known : gap.firstTs <;> simp [GapTracker.observe, known]

theorem maxInteriorGap_le {times : List Int} {limit : Int} (nonneg : 0 ≤ limit) :
    (times.foldl GapTracker.observe {}).maxInteriorGap ≤ limit ↔
      ∀ silence ∈ silences times, silence ≤ limit := by
  induction times using List.reverseRecOn with
  | nil => simpa [silences] using nonneg
  | append_singleton front ts ih =>
      rcases front.eq_nil_or_concat with rfl | ⟨front, last, rfl⟩
      · simpa [silences, GapTracker.observe] using nonneg
      · rw [List.concat_eq_append] at ih ⊢
        have known := lastTs_observed {} front last
        rw [List.append_assoc, List.singleton_append, silences_concat, List.forall_mem_append, ← ih,
          List.append_cons, List.foldl_append]
        simp only [List.foldl_cons, List.foldl_nil, GapTracker.observe, known, max_le_iff,
          List.mem_singleton, forall_eq]

/-- A window is sampled densely enough when no silence in it, those at its edges
included, is longer than the threshold. -/
def Dense (stop bucketMs : Int) (maxGapPct : Nat) (times : List Int) : Prop :=
  times ≠ [] ∧ ∀ silence ∈ silences ((stop - bucketMs) :: (times ++ [stop])),
    silence ≤ bucketMs * maxGapPct / 100

instance (stop bucketMs : Int) (maxGapPct : Nat) (times : List Int) :
    Decidable (Dense stop bucketMs maxGapPct times) :=
  inferInstanceAs (Decidable (_ ∧ _))

theorem dense_iff {stop bucketMs : Int} {maxGapPct : Nat} {times : List Int}
    (positive : 0 < bucketMs) :
    Dense stop bucketMs maxGapPct times ↔ times ≠ [] ∧
      (times.foldl GapTracker.observe {}).exceedsMaxGap stop bucketMs maxGapPct = false := by
  apply and_congr_right
  intro nonempty
  have threshold : 0 ≤ bucketMs * maxGapPct / 100 := by positivity
  have last : (times.foldl GapTracker.observe {}).lastTs = some (times.getLast nonempty) := by
    conv_lhs => rw [← List.dropLast_append_getLast nonempty]
    exact lastTs_observed {} _ _
  have first : (times.foldl GapTracker.observe {}).firstTs = some (times.head nonempty) := by
    simp [firstTs_observed, List.head?_eq_some_head nonempty]
  have edges : silences ((stop - bucketMs) :: (times ++ [stop])) =
      (times.head nonempty - (stop - bucketMs)) ::
        (silences times ++ [stop - times.getLast nonempty]) := by
    have split := silences_concat times.dropLast (times.getLast nonempty) stop
    rw [List.append_cons, List.dropLast_append_getLast] at split
    rw [← split]
    cases times with
    | nil => exact absurd rfl nonempty
    | cons head rest => rfl
  rw [edges]
  simp only [GapTracker.exceedsMaxGap, first, last, Option.getD_some, decide_eq_false_iff_not,
    not_lt, gt_iff_lt, max_le_iff, maxInteriorGap_le threshold, List.forall_mem_cons,
    List.forall_mem_append, List.mem_singleton, forall_eq]
  tauto

/-! ## Windows -/

def hostMean (stop : Int) (window : List HostSample) : HostSample where
  ts := stop
  cpuPctMill := meanOf (window.map HostSample.cpuPctMill)
  memUsed := meanOf (window.map HostSample.memUsed)
  storageUsed := meanOf (window.map HostSample.storageUsed)
  metricsSize := meanOf (window.map HostSample.metricsSize)
  logsSize := meanOf (window.map HostSample.logsSize)
  netRxRateMill := meanKnown (window.map HostSample.netRxRateMill)
  netTxRateMill := meanKnown (window.map HostSample.netTxRateMill)
  diskReadRateMill := meanKnown (window.map HostSample.diskReadRateMill)
  diskWriteRateMill := meanKnown (window.map HostSample.diskWriteRateMill)
  logPressurePctMill := meanKnown (window.map HostSample.logPressurePctMill)
  appRssBytes := meanKnown (window.map HostSample.appRssBytes)

/-- The row is filed under the service its container belonged to first. -/
def containerMean (stop : Int) (window : List ContainerSample) : ContainerSample where
  ts := stop
  service := (window.head?.map ContainerSample.service).getD ⟨0⟩
  cid := (window.head?.map ContainerSample.cid).getD ⟨0⟩
  cpuPctMill := meanOf (window.map ContainerSample.cpuPctMill)
  memUsed := meanOf (window.map ContainerSample.memUsed)
  netRxRateMill := meanKnown (window.map ContainerSample.netRxRateMill)
  netTxRateMill := meanKnown (window.map ContainerSample.netTxRateMill)
  blkReadRateMill := meanKnown (window.map ContainerSample.blkReadRateMill)
  blkWriteRateMill := meanKnown (window.map ContainerSample.blkWriteRateMill)

theorem foldl_hostGauges (samples : List HostSample) :
    samples.foldl HostGauges.add {} = {
      count := samples.length
      gap := (samples.map HostSample.ts).foldl GapTracker.observe {}
      cpuPctMill := (samples.map HostSample.cpuPctMill).sum
      memUsed := (samples.map HostSample.memUsed).sum
      storageUsed := (samples.map HostSample.storageUsed).sum
      metricsSize := (samples.map HostSample.metricsSize).sum
      logsSize := (samples.map HostSample.logsSize).sum
      netRxRateMill := gaugeOf (samples.map HostSample.netRxRateMill)
      netTxRateMill := gaugeOf (samples.map HostSample.netTxRateMill)
      diskReadRateMill := gaugeOf (samples.map HostSample.diskReadRateMill)
      diskWriteRateMill := gaugeOf (samples.map HostSample.diskWriteRateMill)
      logPressurePctMill := gaugeOf (samples.map HostSample.logPressurePctMill)
      appRssBytes := gaugeOf (samples.map HostSample.appRssBytes) } := by
  induction samples using List.reverseRecOn with
  | nil => rfl
  | append_singleton front sample ih =>
      simp [List.foldl_append, ih, HostGauges.add, gaugeOf_concat]

theorem foldl_containerGauges (samples : List ContainerSample) :
    samples.foldl ContainerGauges.add {} = {
      count := samples.length
      gap := (samples.map ContainerSample.ts).foldl GapTracker.observe {}
      cpuPctMill := (samples.map ContainerSample.cpuPctMill).sum
      memUsed := (samples.map ContainerSample.memUsed).sum
      netRxRateMill := gaugeOf (samples.map ContainerSample.netRxRateMill)
      netTxRateMill := gaugeOf (samples.map ContainerSample.netTxRateMill)
      blkReadRateMill := gaugeOf (samples.map ContainerSample.blkReadRateMill)
      blkWriteRateMill := gaugeOf (samples.map ContainerSample.blkWriteRateMill)
      service := (samples.head?.map ContainerSample.service).getD ⟨0⟩
      cid := (samples.head?.map ContainerSample.cid).getD ⟨0⟩ } := by
  induction samples using List.reverseRecOn with
  | nil => rfl
  | append_singleton front sample ih =>
      rw [List.foldl_append, ih]
      cases front with
      | nil => simp [ContainerGauges.add, ← gaugeOf_concat]
      | cons head rest => simp [ContainerGauges.add, ← gaugeOf_concat, Nat.add_assoc]

theorem close_hostBuckets {stop bucketMs : Int} {maxGapPct : Nat} {window : List HostSample}
    (positive : 0 < bucketMs) (small : ∀ sample ∈ window, HostSample.Within (2 ^ 64 - 1) sample) :
    (hostBuckets bucketMs maxGapPct).close window stop =
      if Dense stop bucketMs maxGapPct (window.map HostSample.ts) then some (hostMean stop window)
      else none := by
  simp only [HostSample.Within, ColumnsWithin, hostColumns, List.forall_mem_cons,
    Option.mem_some_iff, forall_eq', forall_and] at small
  obtain ⟨cpu, mem, storage, metrics, logs, rx, tx, read, write, pressure, rss, -⟩ := small
  simp only [GroupedFold.close, hostBuckets, HostGauges.finish, dense_iff positive,
    foldl_hostGauges, List.length_eq_zero_iff, asU64_mean cpu, asU64_mean mem, asU64_mean storage,
    asU64_mean metrics, asU64_mean logs, meanRate_gaugeOf rx, meanRate_gaugeOf tx,
    meanRate_gaugeOf read, meanRate_gaugeOf write, meanRate_gaugeOf pressure, meanRate_gaugeOf rss]
  by_cases empty : window = []
  · simp [empty]
  · cases ((window.map HostSample.ts).foldl GapTracker.observe {}).exceedsMaxGap stop bucketMs
      maxGapPct with
    | false => simp [empty, hostMean]
    | true => simp [empty]

theorem close_containerBuckets {stop bucketMs : Int} {maxGapPct : Nat}
    {window : List ContainerSample} (positive : 0 < bucketMs)
    (small : ∀ sample ∈ window, ContainerSample.Within (2 ^ 64 - 1) sample) :
    (containerBuckets bucketMs maxGapPct).close window stop =
      if Dense stop bucketMs maxGapPct (window.map ContainerSample.ts) then
        some (containerMean stop window)
      else none := by
  simp only [ContainerSample.Within, ColumnsWithin, containerColumns, List.forall_mem_cons,
    Option.mem_some_iff, forall_eq', forall_and] at small
  obtain ⟨cpu, mem, rx, tx, read, write, -⟩ := small
  simp only [GroupedFold.close, containerBuckets, ContainerGauges.finish, dense_iff positive,
    foldl_containerGauges, List.length_eq_zero_iff, asU64_mean cpu, asU64_mean mem,
    meanRate_gaugeOf rx, meanRate_gaugeOf tx, meanRate_gaugeOf read, meanRate_gaugeOf write]
  by_cases empty : window = []
  · simp [empty]
  · cases ((window.map ContainerSample.ts).foldl GapTracker.observe {}).exceedsMaxGap stop bucketMs
      maxGapPct with
    | false => simp [empty, containerMean]
    | true => simp [empty]

/-! ## Grouping -/

section Grouping

variable {σ γ : Type}

def windowOf (time : σ → Int) (bucketMs : Int) (samples : List σ) (stop : Int) : List σ :=
  samples.filter fun sample => stop - bucketMs < time sample ∧ time sample ≤ stop

theorem windowOf_subset {time : σ → Int} {bucketMs stop : Int} {samples : List σ} :
    windowOf time bucketMs samples stop ⊆ samples :=
  fun _ member => (List.mem_filter.mp member).1

/-- The pass yields in time order one row for each window that is densely sampled, and
treats lists that a bucket boundary separates independently. -/
structure GroupsByBucket (time : σ → Int) (mean : Int → List σ → σ) (bucketMs : Int)
    (maxGapPct : Nat) (downsample : List σ → List σ) (samples : List σ) : Prop where
  ascending : (downsample samples).Pairwise fun earlier later => time earlier < time later
  mem_iff : ∀ point, point ∈ downsample samples ↔ ∃ stop, bucketMs ∣ stop ∧
    Dense stop bucketMs maxGapPct ((windowOf time bucketMs samples stop).map time) ∧
      point = mean stop (windowOf time bucketMs samples stop)
  split : ∀ front back boundary, samples = front ++ back → bucketMs ∣ boundary →
    (∀ sample ∈ front, time sample ≤ boundary) → (∀ sample ∈ back, boundary < time sample) →
      downsample samples = downsample front ++ downsample back

theorem groupsByBucket_run {fold : GroupedFold σ Int γ σ} {time : σ → Int}
    {mean : Int → List σ → σ} {bucketMs : Int} {maxGapPct : Nat} {samples : List σ}
    (positive : 0 < bucketMs) (key : ∀ sample, fold.key sample = bucketEnd (time sample) bucketMs)
    (stamped : ∀ {acc stop point}, fold.finish acc stop = some point → time point = stop)
    (closes : ∀ stop window, window ⊆ samples → fold.close window stop =
      if Dense stop bucketMs maxGapPct (window.map time) then some (mean stop window) else none)
    (ascending : samples.Pairwise fun earlier later => time earlier < time later) (start : Int) :
    GroupsByBucket time mean bucketMs maxGapPct (fold.run start) samples := by
  have ordered : samples.Pairwise fun earlier later => fold.key earlier ≤ fold.key later := by
    refine ascending.imp fun {earlier later} before => ?_
    rw [key, key]
    exact bucketEnd_mono positive before.le
  have block : ∀ stop, bucketMs ∣ stop →
      samples.filter (fun other => fold.key other = stop) = windowOf time bucketMs samples stop := by
    intro stop multiple
    apply List.filter_congr
    intro other _
    simp only [key, bucketEnd_eq_iff positive multiple]
  refine ⟨fold.ordered_run stamped ordered, fun point => ?_, ?_⟩
  · rw [fold.mem_run_iff ordered]
    constructor
    · rintro ⟨item, -, closed⟩
      have multiple : bucketMs ∣ fold.key item := key item ▸ (bucketEnd_spec _ positive).1
      rw [block _ multiple, closes _ _ windowOf_subset] at closed
      split at closed
      · next dense => exact ⟨fold.key item, multiple, dense, (Option.some.inj closed).symm⟩
      · cases closed
    · rintro ⟨stop, multiple, dense, rfl⟩
      obtain ⟨item, member⟩ := List.exists_mem_of_ne_nil _
        (fun empty => dense.1 (List.map_eq_nil_iff.mpr empty))
      have inside := (List.mem_filter.mp member).2
      simp only [decide_eq_true_eq] at inside
      have same : fold.key item = stop := by
        rw [key, bucketEnd_eq_iff positive multiple]
        exact inside
      refine ⟨item, (List.mem_filter.mp member).1, ?_⟩
      rw [same, block _ multiple, closes _ _ windowOf_subset, if_pos dense]
  · rintro front back boundary rfl multiple before after
    apply fold.run_append
    intro left leftMember right rightMember
    have own : bucketEnd boundary bucketMs = boundary := by
      rw [bucketEnd_eq_iff positive multiple]
      omega
    have leftEnd := bucketEnd_mono positive (before left leftMember)
    have rightEnd := (bucketEnd_spec (time right) positive).2.2
    have apart := after right rightMember
    rw [key, key]
    omega

end Grouping

/-! ## Overflow -/

structure GapTracker.Fits (gap : GapTracker) : Prop where
  nonneg : 0 ≤ gap.maxInteriorGap
  interior : gap.maxInteriorGap < 2 ^ 63

structure OptionalGauge.Fits (gauge : OptionalGauge) : Prop where
  count : gauge.count < 2 ^ 64
  total : gauge.total < 2 ^ 128

structure HostGauges.Fits (gauges : HostGauges) : Prop where
  count : gauges.count < 2 ^ 64
  gap : gauges.gap.Fits
  cpuPctMill : gauges.cpuPctMill < 2 ^ 128
  memUsed : gauges.memUsed < 2 ^ 128
  storageUsed : gauges.storageUsed < 2 ^ 128
  metricsSize : gauges.metricsSize < 2 ^ 128
  logsSize : gauges.logsSize < 2 ^ 128
  netRxRateMill : gauges.netRxRateMill.Fits
  netTxRateMill : gauges.netTxRateMill.Fits
  diskReadRateMill : gauges.diskReadRateMill.Fits
  diskWriteRateMill : gauges.diskWriteRateMill.Fits
  logPressurePctMill : gauges.logPressurePctMill.Fits
  appRssBytes : gauges.appRssBytes.Fits

structure ContainerGauges.Fits (gauges : ContainerGauges) : Prop where
  count : gauges.count < 2 ^ 64
  gap : gauges.gap.Fits
  cpuPctMill : gauges.cpuPctMill < 2 ^ 128
  memUsed : gauges.memUsed < 2 ^ 128
  netRxRateMill : gauges.netRxRateMill.Fits
  netTxRateMill : gauges.netTxRateMill.Fits
  blkReadRateMill : gauges.blkReadRateMill.Fits
  blkWriteRateMill : gauges.blkWriteRateMill.Fits

theorem gap_fits {times : List Int} (near : ∀ ts ∈ times, |ts| < 2 ^ 62) :
    (times.foldl GapTracker.observe {}).Fits := by
  have short : ∀ silence ∈ silences times, silence ≤ 2 ^ 63 - 1 := by
    intro silence member
    fun_induction silences times with
    | case1 earlier later rest ih =>
        simp only [List.forall_mem_cons, abs_lt] at near
        rcases List.mem_cons.mp member with rfl | deeper
        · omega
        · exact ih (List.forall_mem_cons.mpr ⟨abs_lt.mpr near.2.1, fun ts present =>
            abs_lt.mpr (near.2.2 ts present)⟩) deeper
    | case2 times _ => cases member
  have grows : ∀ (gap : GapTracker), 0 ≤ gap.maxInteriorGap →
      0 ≤ (times.foldl GapTracker.observe gap).maxInteriorGap := by
    clear near short
    induction times with
    | nil => exact fun _ nonneg => nonneg
    | cons ts rest ih =>
        intro gap nonneg
        apply ih
        simp only [GapTracker.observe]
        split
        · exact nonneg.trans (le_max_left _ _)
        · exact nonneg
  have limit := (maxInteriorGap_le (by decide)).mpr short
  exact ⟨grows {} le_rfl, by omega⟩

section Columns

variable {σ : Type} {samples : List σ}

theorem sum_column_fits {column : σ → Nat} (few : samples.length < 2 ^ 64)
    (small : ∀ sample ∈ samples, column sample ≤ 2 ^ 64 - 1) :
    (samples.map column).sum < 2 ^ 128 := by
  have total := sum_column_le small
  have most : samples.length * (2 ^ 64 - 1) ≤ (2 ^ 64 - 1) * (2 ^ 64 - 1) :=
    Nat.mul_le_mul_right _ (by omega)
  omega

theorem gaugeOf_fits {column : σ → Option Nat} (few : samples.length < 2 ^ 64)
    (small : ∀ sample ∈ samples, ∀ value ∈ column sample, value ≤ 2 ^ 64 - 1) :
    (gaugeOf (samples.map column)).Fits := by
  have present : (samples.map column).reduceOption.length < 2 ^ 64 := by
    have := List.reduceOption_length_le (samples.map column)
    simp only [List.length_map] at this
    omega
  have known : ∀ value ∈ (samples.map column).reduceOption, id value ≤ 2 ^ 64 - 1 := by
    intro value member
    obtain ⟨sample, inside, same⟩ := List.mem_map.mp (List.reduceOption_mem_iff.mp member)
    exact small sample inside value same
  have total := sum_column_fits present known
  rw [List.map_id] at total
  exact ⟨present, total⟩

end Columns

theorem foldl_hostGauges_fits {samples : List HostSample} (few : samples.length < 2 ^ 64)
    (near : ∀ sample ∈ samples, |sample.ts| < 2 ^ 62)
    (small : ∀ sample ∈ samples, HostSample.Within (2 ^ 64 - 1) sample) :
    (samples.foldl HostGauges.add {}).Fits := by
  simp only [HostSample.Within, ColumnsWithin, hostColumns, List.forall_mem_cons,
    Option.mem_some_iff, forall_eq', forall_and] at small
  obtain ⟨cpu, mem, storage, metrics, logs, rx, tx, read, write, pressure, rss, -⟩ := small
  rw [foldl_hostGauges]
  exact ⟨few, gap_fits (List.forall_mem_map.mpr near), sum_column_fits few cpu,
    sum_column_fits few mem, sum_column_fits few storage, sum_column_fits few metrics,
    sum_column_fits few logs, gaugeOf_fits few rx, gaugeOf_fits few tx, gaugeOf_fits few read,
    gaugeOf_fits few write, gaugeOf_fits few pressure, gaugeOf_fits few rss⟩

theorem foldl_containerGauges_fits {samples : List ContainerSample} (few : samples.length < 2 ^ 64)
    (near : ∀ sample ∈ samples, |sample.ts| < 2 ^ 62)
    (small : ∀ sample ∈ samples, ContainerSample.Within (2 ^ 64 - 1) sample) :
    (samples.foldl ContainerGauges.add {}).Fits := by
  simp only [ContainerSample.Within, ColumnsWithin, containerColumns, List.forall_mem_cons,
    Option.mem_some_iff, forall_eq', forall_and] at small
  obtain ⟨cpu, mem, rx, tx, read, write, -⟩ := small
  rw [foldl_containerGauges]
  exact ⟨few, gap_fits (List.forall_mem_map.mpr near), sum_column_fits few cpu,
    sum_column_fits few mem, gaugeOf_fits few rx, gaugeOf_fits few tx, gaugeOf_fits few read,
    gaugeOf_fits few write⟩

/-! ## Both passes -/

/-- What a pass is given: samples in time order, with times far from the ends of `i64`
and `u64` fields. -/
structure Downsamplable {σ : Type} (time : σ → Int) (within : Nat → σ → Prop)
    (samples : List σ) : Prop where
  ascending : samples.Pairwise fun earlier later => time earlier < time later
  few : samples.length < 2 ^ 64
  near : ∀ sample ∈ samples, |time sample| < 2 ^ 62
  fields : ∀ sample ∈ samples, within (2 ^ 64 - 1) sample

/-- No accumulator and no window end that the pass computes leaves its machine type. -/
structure NoOverflow {σ γ ρ : Type} (fold : GroupedFold σ Int γ ρ) (fits : γ → Prop)
    (bucketMs : Int) (samples : List σ) : Prop where
  gathered : ∀ gauges ∈ fold.visited samples i64Min fold.fresh, fits gauges
  windows : ∀ sample ∈ samples, -2 ^ 63 ≤ fold.key sample - bucketMs ∧ fold.key sample < 2 ^ 63

theorem noOverflow_run {σ γ ρ : Type} {fold : GroupedFold σ Int γ ρ} {fits : γ → Prop}
    {time : σ → Int} {within : Nat → σ → Prop} {samples : List σ} {resolution : MetricsResolution}
    (input : Downsamplable time within samples)
    (key : ∀ sample, fold.key sample = bucketEnd (time sample) resolution.bucketMs)
    (folded : ∀ block : List σ, block.length < 2 ^ 64 → (∀ sample ∈ block, |time sample| < 2 ^ 62) →
      (∀ sample ∈ block, within (2 ^ 64 - 1) sample) → fits (block.foldl fold.add fold.fresh)) :
    NoOverflow fold fits resolution.bucketMs samples := by
  constructor
  · intro gauges member
    obtain ⟨block, inside, rfl⟩ := fold.mem_visited member
    apply folded
    · exact lt_of_le_of_lt inside.length_le input.few
    · exact fun sample present => input.near sample (inside.subset present)
    · exact fun sample present => input.fields sample (inside.subset present)
  · intro sample member
    have near := abs_lt.mp (input.near sample member)
    have window := bucketEnd_spec (time sample) resolution.bucketMs_pos
    have short : resolution.bucketMs ≤ 3600000 := by cases resolution <;> decide
    rw [key]
    omega

/-- Both passes yield the means of the densely sampled windows, without overflow. -/
theorem downsampling_groups_by_bucket (resolution : MetricsResolution) {maxGapPct : Nat}
    (percent : maxGapPct ≤ 100) {hostSamples : List HostSample}
    (hostInput : Downsamplable HostSample.ts HostSample.Within hostSamples)
    {containerSamples : List ContainerSample}
    (containerInput : Downsamplable ContainerSample.ts ContainerSample.Within containerSamples)
    (cid : ContainerId) (oneContainer : ∀ sample ∈ containerSamples, sample.cid = cid) :
    (GroupsByBucket HostSample.ts hostMean resolution.bucketMs maxGapPct
        (downsampleHost · resolution maxGapPct) hostSamples ∧
      NoOverflow (hostBuckets resolution.bucketMs maxGapPct) HostGauges.Fits resolution.bucketMs
        hostSamples) ∧
    (GroupsByBucket ContainerSample.ts containerMean resolution.bucketMs maxGapPct
        (downsampleContainer · resolution maxGapPct) containerSamples ∧
      (∀ point ∈ downsampleContainer containerSamples resolution maxGapPct, point.cid = cid) ∧
      NoOverflow (containerBuckets resolution.bucketMs maxGapPct) ContainerGauges.Fits
        resolution.bucketMs containerSamples) ∧
    resolution.bucketMs * maxGapPct < 2 ^ 64 := by
  refine ⟨⟨?_, ?_⟩, ⟨?_, ?_, ?_⟩, ?_⟩
  · refine groupsByBucket_run resolution.bucketMs_pos (fun _ => rfl)
      (fun finished => hostBuckets_finish_ts finished) (fun stop window inside => ?_)
      hostInput.ascending i64Min
    exact close_hostBuckets resolution.bucketMs_pos fun sample member =>
      hostInput.fields sample (inside member)
  · exact noOverflow_run hostInput (fun _ => rfl) fun block => foldl_hostGauges_fits
  · refine groupsByBucket_run resolution.bucketMs_pos (fun _ => rfl)
      (fun finished => containerBuckets_finish_ts finished) (fun stop window inside => ?_)
      containerInput.ascending i64Min
    exact close_containerBuckets resolution.bucketMs_pos fun sample member =>
      containerInput.fields sample (inside member)
  · exact downsampleContainer_cid containerInput.ascending oneContainer
  · exact noOverflow_run containerInput (fun _ => rfl) fun block => foldl_containerGauges_fits
  · cases resolution <;> simp only [MetricsResolution.bucketMs] <;> omega

/-- A sample before the epoch, one on a bucket boundary and one after it. -/
theorem downsampling_groups_by_bucket_around_zero :
    GroupsByBucket HostSample.ts hostMean 60000 50 (downsampleHost · .oneMinute 50)
        [⟨-30000, 7, 5, 1, 0, 0, none, none, none, none, none, none⟩,
          ⟨0, 8, 5, 1, 0, 0, some 4, none, none, none, none, none⟩,
          ⟨10000, 9, 5, 1, 0, 0, none, none, none, none, none, none⟩] ∧
      GroupsByBucket ContainerSample.ts containerMean 60000 50 (downsampleContainer · .oneMinute 50)
        [⟨-30000, ⟨1⟩, ⟨5⟩, 7, 5, none, none, none, none⟩,
          ⟨0, ⟨1⟩, ⟨5⟩, 8, 5, some 4, none, none, none⟩] := by
  have hostInput : Downsamplable HostSample.ts HostSample.Within
      [⟨-30000, 7, 5, 1, 0, 0, none, none, none, none, none, none⟩,
        ⟨0, 8, 5, 1, 0, 0, some 4, none, none, none, none, none⟩,
        ⟨10000, 9, 5, 1, 0, 0, none, none, none, none, none, none⟩] :=
    ⟨by decide, by decide, by decide, by simp [HostSample.Within, ColumnsWithin, hostColumns]⟩
  have containerInput : Downsamplable ContainerSample.ts ContainerSample.Within
      [⟨-30000, ⟨1⟩, ⟨5⟩, 7, 5, none, none, none, none⟩,
        ⟨0, ⟨1⟩, ⟨5⟩, 8, 5, some 4, none, none, none⟩] :=
    ⟨by decide, by decide, by decide,
      by simp [ContainerSample.Within, ColumnsWithin, containerColumns]⟩
  have grouped := downsampling_groups_by_bucket .oneMinute (show 50 ≤ 100 by decide) hostInput
    containerInput ⟨5⟩ (by decide)
  exact ⟨grouped.1.1, grouped.2.1.1⟩

end Vpsiner.Metrics
