import Vpsiner.Metrics.Downsampling
import Vpsiner.Metrics.Schema
import Mathlib.Algebra.Order.Ring.Int
import Mathlib.Algebra.Ring.Divisibility.Basic
import Mathlib.Tactic.Linarith
import Mathlib.Tactic.Ring

/-! Laws of bucket ends and of the two downsampling passes. -/

set_option autoImplicit false

namespace Vpsiner.Metrics

/-! ## Bucket ends -/

theorem bucketEnd_spec (ts : Int) {bucketMs : Int} (positive : 0 < bucketMs) :
    bucketMs ∣ bucketEnd ts bucketMs ∧ bucketEnd ts bucketMs - bucketMs < ts ∧
      ts ≤ bucketEnd ts bucketMs := by
  have division := Int.mul_ediv_add_emod (-ts) bucketMs
  have remainderNonneg := Int.emod_nonneg (-ts) positive.ne'
  have remainderLt := Int.emod_lt_of_pos (-ts) positive
  have shape : bucketEnd ts bucketMs = -(bucketMs * (-ts / bucketMs)) := by
    simp only [bucketEnd]
    ring
  refine ⟨⟨-(-ts / bucketMs), by simp only [bucketEnd]; ring⟩, ?_, ?_⟩ <;> omega

/-- The bucket end is the only multiple of the bucket length whose window holds `ts`. -/
theorem bucketEnd_eq_iff {ts stop : Int} {bucketMs : Int} (positive : 0 < bucketMs)
    (multiple : bucketMs ∣ stop) :
    bucketEnd ts bucketMs = stop ↔ stop - bucketMs < ts ∧ ts ≤ stop := by
  obtain ⟨divides, lower, upper⟩ := bucketEnd_spec ts positive
  constructor
  · rintro rfl
    exact ⟨lower, upper⟩
  · rintro ⟨above, below⟩
    have close : |bucketEnd ts bucketMs - stop| < bucketMs := by
      rw [abs_lt]
      constructor <;> omega
    have := Int.eq_zero_of_abs_lt_dvd (dvd_sub divides multiple) close
    omega

theorem bucketEnd_mono {earlier later : Int} {bucketMs : Int} (positive : 0 < bucketMs)
    (le : earlier ≤ later) : bucketEnd earlier bucketMs ≤ bucketEnd later bucketMs := by
  have quotients : -later / bucketMs ≤ -earlier / bucketMs :=
    Int.ediv_le_ediv positive (by omega)
  simp only [bucketEnd]
  nlinarith

/-- Every time of a later bucket is past the end of the earlier one. -/
theorem bucketEnd_lt_of_elapsed {earlier later bucketMs : Int} (positive : 0 < bucketMs)
    (elapsed : bucketEnd earlier bucketMs < bucketEnd later bucketMs) :
    bucketEnd earlier bucketMs < later := by
  by_contra within
  have same : bucketEnd (bucketEnd earlier bucketMs) bucketMs = bucketEnd earlier bucketMs := by
    rw [bucketEnd_eq_iff positive (bucketEnd_spec earlier positive).1]
    omega
  have reached := bucketEnd_mono positive (not_lt.mp within)
  omega

/-- A bucket lies inside the bucket of any resolution whose length it divides. -/
theorem bucketEnd_le_of_dvd (ts : Int) {fine coarse : Int} (finePositive : 0 < fine)
    (coarsePositive : 0 < coarse) (divides : fine ∣ coarse) :
    bucketEnd ts fine ≤ bucketEnd ts coarse ∧
      bucketEnd ts coarse - coarse ≤ bucketEnd ts fine - fine := by
  obtain ⟨fineDivides, fineLower, fineUpper⟩ := bucketEnd_spec ts finePositive
  obtain ⟨coarseDivides, coarseLower, coarseUpper⟩ := bucketEnd_spec ts coarsePositive
  have multiple : fine ∣ bucketEnd ts coarse - bucketEnd ts fine :=
    dvd_sub (divides.trans coarseDivides) fineDivides
  obtain ⟨steps, distance⟩ := multiple
  obtain ⟨ratio, width⟩ := divides
  have stepsNonneg : 0 ≤ steps := by
    by_contra negative
    have : steps ≤ -1 := by omega
    nlinarith
  have stepsLt : steps < ratio := by
    by_contra large
    have : ratio ≤ steps := by omega
    nlinarith
  constructor
  · nlinarith
  · nlinarith [mul_le_mul_of_nonneg_left (show steps + 1 ≤ ratio by omega) finePositive.le]

theorem bucketEnd_bucketEnd (ts : Int) {fine coarse : Int} (finePositive : 0 < fine)
    (coarsePositive : 0 < coarse) (divides : fine ∣ coarse) :
    bucketEnd (bucketEnd ts fine) coarse = bucketEnd ts coarse := by
  rw [bucketEnd_eq_iff coarsePositive (bucketEnd_spec ts coarsePositive).1]
  have nested := bucketEnd_le_of_dvd ts finePositive coarsePositive divides
  omega

/-! ## Gaps -/

theorem gap_foldl_container (gauges : ContainerGauges) (samples : List ContainerSample) :
    (samples.foldl ContainerGauges.add gauges).gap =
      (samples.map ContainerSample.ts).foldl GapTracker.observe gauges.gap := by
  induction samples generalizing gauges with
  | nil => rfl
  | cons sample rest ih => exact ih (gauges.add sample)

theorem count_foldl_container (gauges : ContainerGauges) (samples : List ContainerSample) :
    (samples.foldl ContainerGauges.add gauges).count = gauges.count + samples.length := by
  induction samples generalizing gauges with
  | nil => rfl
  | cons sample rest ih =>
      rw [List.foldl_cons, ih, List.length_cons]
      simp only [ContainerGauges.add]
      omega

/-- Everything the tracker recorded lies in the window that ends at `stop`. -/
structure GapTracker.InWindow (stop : Int) (bucketMs : Int) (gap : GapTracker) : Prop where
  first : ∀ ts ∈ gap.firstTs, stop - bucketMs < ts ∧ ts ≤ stop
  last : ∀ ts ∈ gap.lastTs, stop - bucketMs < ts ∧ ts ≤ stop
  interior : gap.maxInteriorGap ≤ bucketMs

theorem GapTracker.InWindow.observe {stop : Int} {bucketMs : Int} {gap : GapTracker}
    (inside : gap.InWindow stop bucketMs) {ts : Int} (lower : stop - bucketMs < ts)
    (upper : ts ≤ stop) : (gap.observe ts).InWindow stop bucketMs := by
  obtain ⟨first, last, interior⟩ := inside
  refine ⟨?_, ?_, ?_⟩
  · cases known : gap.firstTs with
    | none => simp [GapTracker.observe, known, lower, upper]
    | some firstTs => simpa [GapTracker.observe, known] using first firstTs known
  · simp [GapTracker.observe, lower, upper]
  · cases known : gap.lastTs with
    | none => simpa [GapTracker.observe, known] using interior
    | some lastTs =>
        have := last lastTs known
        simp only [GapTracker.observe, known, max_le_iff]
        omega

theorem GapTracker.InWindow.foldl {stop : Int} {bucketMs : Int} {times : List Int}
    (window : ∀ ts ∈ times, stop - bucketMs < ts ∧ ts ≤ stop) {gap : GapTracker}
    (inside : gap.InWindow stop bucketMs) :
    (times.foldl GapTracker.observe gap).InWindow stop bucketMs := by
  induction times generalizing gap with
  | nil => exact inside
  | cons ts rest ih =>
      obtain ⟨lower, upper⟩ := window ts List.mem_cons_self
      exact ih (fun other member => window other (List.mem_cons_of_mem _ member))
        (inside.observe lower upper)

private theorem observed_foldl {times : List Int} (gap : GapTracker)
    (nonempty : times ≠ []) :
    (times.foldl GapTracker.observe gap).firstTs.isSome ∧
      (times.foldl GapTracker.observe gap).lastTs.isSome := by
  have kept : ∀ (rest : List Int) (gap : GapTracker), gap.firstTs.isSome →
      gap.lastTs.isSome → (rest.foldl GapTracker.observe gap).firstTs.isSome ∧
        (rest.foldl GapTracker.observe gap).lastTs.isSome := by
    intro rest
    induction rest with
    | nil => exact fun _ first last => ⟨first, last⟩
    | cons ts rest ih => exact fun gap _ _ => ih _ rfl rfl
  cases times with
  | nil => exact absurd rfl nonempty
  | cons ts rest => exact kept rest _ rfl rfl

/-- A threshold of 100 percent never discards a bucket that has a sample. -/
theorem not_exceedsMaxGap_full {stop : Int} {bucketMs : Int} {times : List Int}
    (positive : 0 < bucketMs) (nonempty : times ≠ [])
    (window : ∀ ts ∈ times, stop - bucketMs < ts ∧ ts ≤ stop) :
    (times.foldl GapTracker.observe {}).exceedsMaxGap stop bucketMs 100 = false := by
  have inside : (times.foldl GapTracker.observe {}).InWindow stop bucketMs :=
    GapTracker.InWindow.foldl window ⟨by simp, by simp, positive.le⟩
  obtain ⟨hasFirst, hasLast⟩ := observed_foldl {} nonempty
  obtain ⟨first, firstKnown⟩ := Option.isSome_iff_exists.mp hasFirst
  obtain ⟨last, lastKnown⟩ := Option.isSome_iff_exists.mp hasLast
  have firstInside := inside.first first firstKnown
  have lastInside := inside.last last lastKnown
  have interior := inside.interior
  have threshold : bucketMs * ((100 : Nat) : Int) / 100 = bucketMs := by
    exact Int.mul_ediv_cancel bucketMs (by decide)
  simp only [GapTracker.exceedsMaxGap, firstKnown, lastKnown, Option.getD_some, threshold,
    decide_eq_false_iff_not, not_lt, gt_iff_lt, max_le_iff]
  omega

/-! ## Means stay within the bound of their contributors -/

theorem asU64_le (value : Nat) : asU64 value ≤ value := Nat.mod_le _ _

def OptionalGauge.Within (bound : Nat) (gauge : OptionalGauge) : Prop :=
  gauge.total ≤ gauge.count * bound

theorem OptionalGauge.Within.add {bound : Nat} {gauge : OptionalGauge}
    (within : gauge.Within bound) {value : Option Nat} (small : ∀ v ∈ value, v ≤ bound) :
    (gauge.add value).Within bound := by
  cases value with
  | none => exact within
  | some value =>
      have := small value rfl
      simp only [OptionalGauge.Within, OptionalGauge.add, Nat.add_mul, Nat.one_mul] at within ⊢
      omega

theorem mean_le {total count bound : Nat} (within : total ≤ count * bound) :
    asU64 (total / count) ≤ bound :=
  (asU64_le _).trans (Nat.div_le_of_le_mul within)

theorem OptionalGauge.Within.meanRate {bound : Nat} {gauge : OptionalGauge}
    (within : gauge.Within bound) : ∀ v ∈ gauge.meanRate, v ≤ bound := by
  intro v member
  simp only [OptionalGauge.meanRate, Option.mem_def] at member
  split at member
  · cases member
    exact mean_le within
  · cases member

def ColumnsWithin (bound : Nat) (columns : List (Option Nat × String)) : Prop :=
  ∀ entry ∈ columns, ∀ value ∈ entry.1, value ≤ bound

def HostSample.Within (bound : Nat) (sample : HostSample) : Prop :=
  ColumnsWithin bound (hostColumns sample)

def ContainerSample.Within (bound : Nat) (sample : ContainerSample) : Prop :=
  ColumnsWithin bound (containerColumns sample)

structure HostGauges.Within (bound : Nat) (gauges : HostGauges) : Prop where
  cpuPctMill : gauges.cpuPctMill ≤ gauges.count * bound
  memUsed : gauges.memUsed ≤ gauges.count * bound
  storageUsed : gauges.storageUsed ≤ gauges.count * bound
  metricsSize : gauges.metricsSize ≤ gauges.count * bound
  logsSize : gauges.logsSize ≤ gauges.count * bound
  netRxRateMill : gauges.netRxRateMill.Within bound
  netTxRateMill : gauges.netTxRateMill.Within bound
  diskReadRateMill : gauges.diskReadRateMill.Within bound
  diskWriteRateMill : gauges.diskWriteRateMill.Within bound
  logPressurePctMill : gauges.logPressurePctMill.Within bound
  appRssBytes : gauges.appRssBytes.Within bound

theorem HostGauges.Within.add {bound : Nat} {gauges : HostGauges} (within : gauges.Within bound)
    {sample : HostSample} (small : HostSample.Within bound sample) :
    (gauges.add sample).Within bound := by
  obtain ⟨cpu, mem, storage, metrics, logs, rx, tx, read, write, pressure, rss⟩ := within
  simp only [HostSample.Within, ColumnsWithin, hostColumns, List.forall_mem_cons,
    Option.mem_some_iff, forall_eq'] at small
  obtain ⟨cpu', mem', storage', metrics', logs', rx', tx', read', write', pressure', rss', _⟩ :=
    small
  constructor
  all_goals first
    | simp only [HostGauges.add, Nat.add_mul, Nat.one_mul]; omega
    | exact OptionalGauge.Within.add ‹_› ‹_›

theorem HostGauges.Within.finish {bound : Nat} {gauges : HostGauges} (within : gauges.Within bound)
    {ts : Int} {bucketMs : Int} {maxGapPct : Nat} {point : HostSample}
    (finished : gauges.finish ts bucketMs maxGapPct = some point) :
    HostSample.Within bound point := by
  obtain ⟨cpu, mem, storage, metrics, logs, rx, tx, read, write, pressure, rss⟩ := within
  simp only [HostGauges.finish] at finished
  split at finished
  · cases finished
  · cases finished
    simp only [HostSample.Within, ColumnsWithin, hostColumns, List.forall_mem_cons,
      Option.mem_some_iff, forall_eq']
    exact ⟨mean_le cpu, mean_le mem, mean_le storage, mean_le metrics, mean_le logs, rx.meanRate,
      tx.meanRate, read.meanRate, write.meanRate, pressure.meanRate, rss.meanRate, by simp⟩

structure ContainerGauges.Within (bound : Nat) (gauges : ContainerGauges) : Prop where
  cpuPctMill : gauges.cpuPctMill ≤ gauges.count * bound
  memUsed : gauges.memUsed ≤ gauges.count * bound
  netRxRateMill : gauges.netRxRateMill.Within bound
  netTxRateMill : gauges.netTxRateMill.Within bound
  blkReadRateMill : gauges.blkReadRateMill.Within bound
  blkWriteRateMill : gauges.blkWriteRateMill.Within bound

theorem ContainerGauges.Within.add {bound : Nat} {gauges : ContainerGauges}
    (within : gauges.Within bound) {sample : ContainerSample}
    (small : ContainerSample.Within bound sample) : (gauges.add sample).Within bound := by
  obtain ⟨cpu, mem, rx, tx, read, write⟩ := within
  simp only [ContainerSample.Within, ColumnsWithin, containerColumns, List.forall_mem_cons,
    Option.mem_some_iff, forall_eq'] at small
  obtain ⟨cpu', mem', rx', tx', read', write', _⟩ := small
  constructor
  all_goals first
    | simp only [ContainerGauges.add, Nat.add_mul, Nat.one_mul]; omega
    | exact OptionalGauge.Within.add ‹_› ‹_›

theorem ContainerGauges.Within.finish {bound : Nat} {gauges : ContainerGauges}
    (within : gauges.Within bound) {ts : Int} {bucketMs : Int} {maxGapPct : Nat}
    {point : ContainerSample} (finished : gauges.finish ts bucketMs maxGapPct = some point) :
    ContainerSample.Within bound point := by
  obtain ⟨cpu, mem, rx, tx, read, write⟩ := within
  simp only [ContainerGauges.finish] at finished
  split at finished
  · cases finished
  · cases finished
    simp only [ContainerSample.Within, ColumnsWithin, containerColumns, List.forall_mem_cons,
      Option.mem_some_iff, forall_eq']
    exact ⟨mean_le cpu, mean_le mem, rx.meanRate, tx.meanRate, read.meanRate, write.meanRate,
      by simp⟩

/-! ## The host pass -/

theorem hostBuckets_finish_ts {bucketMs : Int} {maxGapPct : Nat} {acc : HostGauges} {k : Int}
    {point : HostSample} (finished : (hostBuckets bucketMs maxGapPct).finish acc k = some point) :
    point.ts = k := by
  simp only [hostBuckets, HostGauges.finish] at finished
  split at finished
  · cases finished
  · cases finished
    rfl

theorem hostBuckets_ordered {samples : List HostSample} {bucketMs : Int} (maxGapPct : Nat)
    (positive : 0 < bucketMs)
    (ordered : samples.Pairwise fun earlier later => earlier.ts < later.ts) :
    samples.Pairwise fun earlier later =>
      (hostBuckets bucketMs maxGapPct).key earlier ≤ (hostBuckets bucketMs maxGapPct).key later :=
  ordered.imp fun before => bucketEnd_mono positive before.le

/-- Leaving out the buckets from `stop` on before or after downsampling is the same. -/
theorem downsampleHost_below (resolution : MetricsResolution) (maxGapPct : Nat) (stop : Int)
    {samples : List HostSample}
    (ordered : samples.Pairwise fun earlier later => earlier.ts < later.ts) :
    downsampleHost (samples.filter fun sample => bucketEnd sample.ts resolution.bucketMs < stop)
        resolution maxGapPct =
      (downsampleHost samples resolution maxGapPct).filter fun point => point.ts < stop :=
  (hostBuckets resolution.bucketMs maxGapPct).run_filter_below hostBuckets_finish_ts i64Min stop
    (hostBuckets_ordered maxGapPct resolution.bucketMs_pos ordered)

/-- The samples of one bucket give at most the row stamped with its end. -/
theorem downsampleHost_bucket {resolution : MetricsResolution} {maxGapPct : Nat} (stop : Int)
    {samples : List HostSample}
    (same : ∀ sample ∈ samples, bucketEnd sample.ts resolution.bucketMs = stop) :
    downsampleHost samples resolution maxGapPct =
      ((hostBuckets resolution.bucketMs maxGapPct).close samples stop).toList :=
  (hostBuckets resolution.bucketMs maxGapPct).run_same i64Min same

theorem HostGauges.Within.foldl {bound : Nat} {samples : List HostSample}
    (small : ∀ sample ∈ samples, HostSample.Within bound sample) {gauges : HostGauges}
    (within : gauges.Within bound) : (samples.foldl HostGauges.add gauges).Within bound := by
  induction samples generalizing gauges with
  | nil => exact within
  | cons sample rest ih =>
      exact ih (fun other member => small other (List.mem_cons_of_mem _ member))
        (within.add (small sample List.mem_cons_self))

theorem HostGauges.within_fresh (bound : Nat) : ({} : HostGauges).Within bound := by
  constructor <;> simp [OptionalGauge.Within]

theorem downsampleHost_within {resolution : MetricsResolution} {maxGapPct bound : Nat}
    {samples : List HostSample}
    (ordered : samples.Pairwise fun earlier later => earlier.ts < later.ts)
    (small : ∀ sample ∈ samples, HostSample.Within bound sample) :
    ∀ point ∈ downsampleHost samples resolution maxGapPct, HostSample.Within bound point := by
  intro point member
  obtain ⟨item, itemMember, closed⟩ := (Lib.GroupedFold.mem_run_iff _
    (hostBuckets_ordered maxGapPct resolution.bucketMs_pos ordered)).mp member
  refine HostGauges.Within.finish (HostGauges.Within.foldl ?_ (HostGauges.within_fresh bound))
    closed
  exact fun sample sampleMember => small sample (List.mem_filter.mp sampleMember).1

/-! ## The container pass -/

theorem containerBuckets_finish {bucketMs : Int} {maxGapPct : Nat} {acc : ContainerGauges}
    {k : Int} {point : ContainerSample}
    (finished : (containerBuckets bucketMs maxGapPct).finish acc k = some point) :
    acc.count ≠ 0 ∧ point.ts = k ∧ point.cid = acc.cid ∧ point.service = acc.service := by
  simp only [containerBuckets, ContainerGauges.finish] at finished
  split at finished
  · cases finished
  · next kept =>
      cases finished
      exact ⟨fun none => kept (.inl none), rfl, rfl, rfl⟩

theorem containerBuckets_finish_ts {bucketMs : Int} {maxGapPct : Nat} {acc : ContainerGauges}
    {k : Int} {point : ContainerSample}
    (finished : (containerBuckets bucketMs maxGapPct).finish acc k = some point) :
    point.ts = k := (containerBuckets_finish finished).2.1

theorem containerBuckets_ordered {samples : List ContainerSample} {bucketMs : Int}
    (maxGapPct : Nat) (positive : 0 < bucketMs)
    (ordered : samples.Pairwise fun earlier later => earlier.ts < later.ts) :
    samples.Pairwise fun earlier later =>
      (containerBuckets bucketMs maxGapPct).key earlier ≤
        (containerBuckets bucketMs maxGapPct).key later :=
  ordered.imp fun before => bucketEnd_mono positive before.le

theorem ContainerGauges.Within.foldl {bound : Nat} {samples : List ContainerSample}
    (small : ∀ sample ∈ samples, ContainerSample.Within bound sample) {gauges : ContainerGauges}
    (within : gauges.Within bound) : (samples.foldl ContainerGauges.add gauges).Within bound := by
  induction samples generalizing gauges with
  | nil => exact within
  | cons sample rest ih =>
      exact ih (fun other member => small other (List.mem_cons_of_mem _ member))
        (within.add (small sample List.mem_cons_self))

theorem ContainerGauges.within_fresh (bound : Nat) : ({} : ContainerGauges).Within bound := by
  constructor <;> simp [OptionalGauge.Within]

theorem downsampleContainer_within {resolution : MetricsResolution} {maxGapPct bound : Nat}
    {samples : List ContainerSample}
    (ordered : samples.Pairwise fun earlier later => earlier.ts < later.ts)
    (small : ∀ sample ∈ samples, ContainerSample.Within bound sample) :
    ∀ point ∈ downsampleContainer samples resolution maxGapPct,
      ContainerSample.Within bound point := by
  intro point member
  obtain ⟨item, itemMember, closed⟩ := (Lib.GroupedFold.mem_run_iff _
    (containerBuckets_ordered maxGapPct resolution.bucketMs_pos ordered)).mp member
  refine ContainerGauges.Within.finish
    (ContainerGauges.Within.foldl ?_ (ContainerGauges.within_fresh bound)) closed
  exact fun sample sampleMember => small sample (List.mem_filter.mp sampleMember).1

private theorem cid_foldl {cid : ContainerId} {samples : List ContainerSample}
    (same : ∀ sample ∈ samples, sample.cid = cid) {gauges : ContainerGauges}
    (known : gauges.count = 0 ∨ gauges.cid = cid) :
    (samples.foldl ContainerGauges.add gauges).count = 0 ∨
      (samples.foldl ContainerGauges.add gauges).cid = cid := by
  induction samples generalizing gauges with
  | nil => exact known
  | cons sample rest ih =>
      refine ih (fun other member => same other (List.mem_cons_of_mem _ member)) (.inr ?_)
      have headSame := same sample List.mem_cons_self
      rcases known with none | agrees
      · simp [ContainerGauges.add, none, headSame]
      · simp [ContainerGauges.add, agrees, headSame]

theorem downsampleContainer_cid {resolution : MetricsResolution} {maxGapPct : Nat}
    {cid : ContainerId} {samples : List ContainerSample}
    (ordered : samples.Pairwise fun earlier later => earlier.ts < later.ts)
    (same : ∀ sample ∈ samples, sample.cid = cid) :
    ∀ point ∈ downsampleContainer samples resolution maxGapPct, point.cid = cid := by
  intro point member
  obtain ⟨item, itemMember, closed⟩ := (Lib.GroupedFold.mem_run_iff _
    (containerBuckets_ordered maxGapPct resolution.bucketMs_pos ordered)).mp member
  obtain ⟨nonempty, _, named, _⟩ := containerBuckets_finish closed
  rw [named]
  refine (cid_foldl ?_ (.inl rfl)).resolve_left nonempty
  exact fun sample sampleMember => same sample (List.mem_filter.mp sampleMember).1

theorem ordered_downsampleContainer {resolution : MetricsResolution} {maxGapPct : Nat}
    {samples : List ContainerSample}
    (ordered : samples.Pairwise fun earlier later => earlier.ts < later.ts) :
    (downsampleContainer samples resolution maxGapPct).Pairwise
      fun earlier later => earlier.ts < later.ts :=
  (containerBuckets resolution.bucketMs maxGapPct).ordered_run containerBuckets_finish_ts
    (containerBuckets_ordered maxGapPct resolution.bucketMs_pos ordered)

theorem mem_downsampleContainer_ts {resolution : MetricsResolution} {maxGapPct : Nat}
    {samples : List ContainerSample} {point : ContainerSample}
    (member : point ∈ downsampleContainer samples resolution maxGapPct) :
    ∃ sample ∈ samples, point.ts = bucketEnd sample.ts resolution.bucketMs := by
  obtain ⟨acc, item, itemMember, finished⟩ := Lib.GroupedFold.mem_run _ member
  exact ⟨item, itemMember, containerBuckets_finish_ts finished⟩

/-- With the gap test disabled every bucket that has a sample has a row. -/
theorem downsampleContainer_full (resolution : MetricsResolution) {samples : List ContainerSample}
    (ordered : samples.Pairwise fun earlier later => earlier.ts < later.ts)
    {sample : ContainerSample} (member : sample ∈ samples) :
    ∃ point ∈ downsampleContainer samples resolution 100,
      point.ts = bucketEnd sample.ts resolution.bucketMs := by
  let stop := bucketEnd sample.ts resolution.bucketMs
  let bucket := samples.filter fun other => bucketEnd other.ts resolution.bucketMs = stop
  have present : sample ∈ bucket := List.mem_filter.mpr ⟨member, by simp [stop]⟩
  have window : ∀ ts ∈ bucket.map ContainerSample.ts,
      stop - resolution.bucketMs < ts ∧ ts ≤ stop := by
    intro ts timeMember
    obtain ⟨other, otherMember, rfl⟩ := List.mem_map.mp timeMember
    have same : bucketEnd other.ts resolution.bucketMs = stop := by
      simpa using (List.mem_filter.mp otherMember).2
    exact same ▸ (bucketEnd_spec other.ts resolution.bucketMs_pos).2
  have nonempty : bucket.map ContainerSample.ts ≠ [] := by
    simpa using List.ne_nil_of_mem present
  have counted : (bucket.foldl ContainerGauges.add {}).count ≠ 0 := by
    rw [count_foldl_container]
    have := List.length_pos_of_mem present
    omega
  have gap := not_exceedsMaxGap_full resolution.bucketMs_pos nonempty window
  rw [← gap_foldl_container {} bucket] at gap
  obtain ⟨point, finished⟩ : ∃ point,
      (bucket.foldl ContainerGauges.add {}).finish stop resolution.bucketMs 100 = some point := by
    unfold ContainerGauges.finish
    rw [if_neg (by simp only [counted, gap, Bool.false_eq_true, or_self, not_false_eq_true])]
    exact ⟨_, rfl⟩
  exact ⟨point, (Lib.GroupedFold.mem_run_iff _ (containerBuckets_ordered 100
    resolution.bucketMs_pos ordered)).mpr ⟨sample, member, finished⟩,
    @containerBuckets_finish_ts _ 100 _ _ _ finished⟩

end Vpsiner.Metrics
