import Vpsiner.Metrics.RollupProperties

/-! When a container rollup writes the rows each container is due. The rows are
fetched once, ordered by container and then by time, and sliced by time for every
resolution: the slices are right only when the fetched rows happen to be cut cleanly. -/

set_option autoImplicit false

namespace Vpsiner.Metrics

open Lib

/-- The `10s` rows of one container in the window that ends at `stop`, oldest first. -/
def containerWindow (db : MetricsDb) (resolution : MetricsResolution) (stop : Int)
    (cid : ContainerId) : List ContainerSample :=
  (db.containers .tenSeconds).rows.filter fun sample =>
    sample.cid = cid ∧ stop - resolution.bucketMs < sample.ts ∧ sample.ts ≤ stop

/-- A successful rollup leaves, for each coarse resolution whose bucket closed and for
each container, the row downsampled from that container's window, and no other new row. -/
def ContainerRollupExact (search : PartitionPoint) (order : HashOrder) (db : MetricsDb)
    (previousTs newTs : Int) (maxGapPct : Nat) : Prop :=
  ∀ after, rollUpContainers search order db previousTs newTs maxGapPct = (after, .ok ()) →
    ∀ resolution ∈ MetricsResolution.coarse,
      bucketEnd newTs resolution.bucketMs ≠ bucketEnd previousTs resolution.bucketMs →
        ∀ (cid : ContainerId) (ts : Int),
          (after.containers resolution).find? (toLex (ts, cid)) =
            ((downsampleContainer (containerWindow db resolution
                (bucketEnd previousTs resolution.bucketMs) cid) resolution maxGapPct).find?
              fun row => row.ts = ts).or ((db.containers resolution).find? (toLex (ts, cid)))

/-- Which `10s` rows are stored, whatever their values. -/
def containerLayout (db : MetricsDb) : List (Lex (Int × ContainerId)) :=
  (db.containers .tenSeconds).rows.map containerKey

/-- In the order in which the rows are fetched, each closed window either is empty or
has the older rows before it and the newer rows after it. -/
def FetchCutsCleanly (db : MetricsDb) (previousTs newTs : Int) : Prop :=
  ∀ fetchRange, widestSourceRange (resolutionsClosedBy previousTs newTs) = some fetchRange →
    ∀ resolution ∈ MetricsResolution.coarse,
      bucketEnd newTs resolution.bucketMs ≠ bucketEnd previousTs resolution.bucketMs →
        CutsCleanly (selectContainers db .tenSeconds fetchRange)
          (sourceRange (bucketEnd previousTs resolution.bucketMs) resolution) ContainerSample.ts

/-! ## The fetched rows -/

instance : Std.Total cidThenTs where
  total left right := by
    simp only [cidThenTs]
    rcases lt_trichotomy left.cid right.cid with less | same | greater
    · exact .inl (.inl less)
    · exact (le_total left.ts right.ts).imp (fun le => .inr ⟨same, le⟩)
        fun le => .inr ⟨same.symm, le⟩
    · exact .inr (.inl greater)

instance : IsTrans ContainerSample cidThenTs where
  trans first second third := by
    simp only [cidThenTs]
    rintro (below | ⟨same, le⟩) (below' | ⟨same', le'⟩)
    · exact .inl (below.trans below')
    · exact .inl (same' ▸ below)
    · exact .inl (same ▸ below')
    · exact .inr ⟨same.trans same', le.trans le'⟩

theorem pairwise_selectContainers (db : MetricsDb) (resolution : MetricsResolution)
    (range : TimeRange) : (selectContainers db resolution range).Pairwise cidThenTs :=
  List.pairwise_insertionSort _ _

theorem perm_selectContainers (db : MetricsDb) (resolution : MetricsResolution)
    (range : TimeRange) : (selectContainers db resolution range).Perm
      ((db.containers resolution).rows.filter fun sample => range.contains sample.ts) :=
  List.perm_insertionSort _ _

theorem nodup_selectContainers (db : MetricsDb) (resolution : MetricsResolution)
    (range : TimeRange) : ((selectContainers db resolution range).map containerKey).Nodup := by
  rw [((perm_selectContainers db resolution range).map containerKey).nodup_iff]
  exact (db.containers resolution).nodup_keys.sublist (List.filter_sublist.map containerKey)

/-- Sorted rows with distinct keys are determined by which rows they are. -/
theorem eq_of_perm_of_sorted {left right : List ContainerSample} (perm : left.Perm right)
    (leftSorted : left.Pairwise cidThenTs) (rightSorted : right.Pairwise cidThenTs)
    (nodup : (right.map containerKey).Nodup) : left = right := by
  refine perm.eq_of_pairwise (fun first second firstMember secondMember below above => ?_)
    leftSorted rightSorted
  refine List.inj_on_of_nodup_map nodup (perm.mem_iff.mp firstMember) secondMember ?_
  rcases below with less | ⟨same, le⟩
  · rcases above with greater | ⟨same, -⟩
    · exact absurd greater less.asymm
    · exact absurd same less.ne'
  · rcases above with greater | ⟨-, ge⟩
    · exact absurd same greater.ne'
    · simp only [containerKey, same, le_antisymm le ge]

/-- `cidThenTs` on primary keys. -/
def keyCidThenTs (left right : Lex (Int × ContainerId)) : Prop :=
  (ofLex left).2 < (ofLex right).2 ∨
    ((ofLex left).2 = (ofLex right).2 ∧ (ofLex left).1 ≤ (ofLex right).1)

instance : DecidableRel keyCidThenTs := fun _ _ => inferInstanceAs (Decidable (_ ∨ _))

theorem map_key_selectContainers (db : MetricsDb) (range : TimeRange) :
    (selectContainers db .tenSeconds range).map containerKey =
      ((containerLayout db).filter fun key => range.contains (ofLex key).1).insertionSort
        keyCidThenTs := by
  rw [containerLayout, List.filter_map, selectContainers,
    List.map_insertionSort cidThenTs keyCidThenTs containerKey _ fun _ _ _ _ => Iff.rfl]
  rfl

/-- The layout alone decides where the fetch is cut. -/
theorem FetchCutsCleanly.congr {db other : MetricsDb} {previousTs newTs : Int}
    (same : containerLayout other = containerLayout db)
    (clean : FetchCutsCleanly db previousTs newTs) : FetchCutsCleanly other previousTs newTs := by
  intro fetchRange found resolution coarse moved
  have onKeys : ∀ db : MetricsDb,
      CutsCleanly ((selectContainers db .tenSeconds fetchRange).map containerKey)
          (sourceRange (bucketEnd previousTs resolution.bucketMs) resolution)
          (fun key => (ofLex key).1) ↔
        CutsCleanly (selectContainers db .tenSeconds fetchRange)
          (sourceRange (bucketEnd previousTs resolution.bucketMs) resolution)
          ContainerSample.ts := fun _ => cutsCleanly_map
  rw [← onKeys, map_key_selectContainers, same, ← map_key_selectContainers, onKeys]
  exact clean fetchRange found resolution coarse moved

/-! ## Clean cuts are enough -/

theorem valid_sourceRange (stop : Int) (resolution : MetricsResolution) :
    (sourceRange stop resolution).fromMs ≤ (sourceRange stop resolution).toMs + 1 := by
  have := resolution.bucketMs_pos
  simp only [sourceRange]
  omega

/-- One container's rows between the cuts of a clean fetch are its window. -/
theorem filter_fetched_eq_window {db : MetricsDb} {previousTs newTs : Int} {fetchRange : TimeRange}
    (found : widestSourceRange (resolutionsClosedBy previousTs newTs) = some fetchRange)
    {resolution : MetricsResolution} {stop : Int}
    (closed : (resolution, stop) ∈ resolutionsClosedBy previousTs newTs) (cid : ContainerId) :
    ((selectContainers db .tenSeconds fetchRange).filter fun sample =>
        (sourceRange stop resolution).contains sample.ts).filter (fun sample => sample.cid = cid) =
      containerWindow db resolution stop cid := by
  have stored := (db.containers .tenSeconds).nodup_keys
  have members : ∀ sample : ContainerSample,
      (sourceRange stop resolution).contains sample.ts = true ↔
        stop - resolution.bucketMs < sample.ts ∧ sample.ts ≤ stop := by
    intro sample
    rw [TimeRange.contains_iff]
    simp only [sourceRange]
    omega
  refine eq_of_perm_of_sorted ?_ (((pairwise_selectContainers _ _ _).filter _).filter _) ?_
    (stored.sublist (List.filter_sublist.map containerKey))
  · refine (((perm_selectContainers db .tenSeconds fetchRange).filter _).filter _).trans ?_
    rw [List.filter_filter, List.filter_filter, containerWindow]
    refine List.Perm.of_eq (List.filter_congr fun sample _ => ?_)
    rw [Bool.eq_iff_iff]
    simp only [Bool.and_eq_true, decide_eq_true_eq]
    constructor
    · rintro ⟨⟨same, inside⟩, -⟩
      exact ⟨same, (members sample).mp inside⟩
    · rintro ⟨same, window⟩
      have inside := (members sample).mpr window
      exact ⟨⟨same, inside⟩, widestSourceRange_covers found closed inside⟩
  · refine List.Pairwise.imp_of_mem (fun {earlier later} earlierMember laterMember below => ?_)
      ((db.containers .tenSeconds).ordered.filter _)
    have earlierCid := (of_decide_eq_true (List.mem_filter.mp earlierMember).2).1
    have laterCid := (of_decide_eq_true (List.mem_filter.mp laterMember).2).1
    refine .inr ⟨earlierCid.trans laterCid.symm, ?_⟩
    rcases Prod.Lex.toLex_lt_toLex.mp below with less | ⟨same, -⟩
    · exact less.le
    · exact same.le

/-- A clean fetch is cut into exactly the rows of each closed bucket. -/
theorem slice_selectContainers {db : MetricsDb} {previousTs newTs : Int}
    (clean : FetchCutsCleanly db previousTs newTs) (search : PartitionPoint)
    {fetchRange : TimeRange}
    (found : widestSourceRange (resolutionsClosedBy previousTs newTs) = some fetchRange)
    {entry : MetricsResolution × Int} (member : entry ∈ resolutionsClosedBy previousTs newTs) :
    sliceByRange search (selectContainers db .tenSeconds fetchRange)
      (sourceRange entry.2 entry.1) ContainerSample.ts =
        .ok ((selectContainers db .tenSeconds fetchRange).filter fun sample =>
          (sourceRange entry.2 entry.1).contains sample.ts) := by
  obtain ⟨coarse, shape, moved⟩ := mem_resolutionsClosedBy.mp member
  refine sliceByRange_of_cutsCleanly search (valid_sourceRange _ _) ?_
  rw [shape] at moved ⊢
  exact clean fetchRange found entry.1 coarse moved

theorem rollUpContainers_exact_of_clean {db : MetricsDb} {previousTs newTs : Int}
    (clean : FetchCutsCleanly db previousTs newTs) (search : PartitionPoint) (order : HashOrder)
    (maxGapPct : Nat) : ContainerRollupExact search order db previousTs newTs maxGapPct := by
  intro after succeeded resolution coarse moved cid ts
  have closed : (resolution, bucketEnd previousTs resolution.bucketMs) ∈
      resolutionsClosedBy previousTs newTs := mem_resolutionsClosedBy.mpr ⟨coarse, rfl, moved⟩
  cases found : widestSourceRange (resolutionsClosedBy previousTs newTs) with
  | none =>
      rw [widestSourceRange_eq_none found] at closed
      simp at closed
  | some fetchRange =>
      simp only [rollUpContainers, found] at succeeded
      have table : after.containers resolution = _ :=
        (rollUpContainersClosed_spec (nodup_resolutionsClosedBy previousTs newTs)
          (fun entry member => (mem_resolutionsClosedBy.mp member).1)
          (fun entry member => slice_selectContainers clean search found member) succeeded).1 _ closed
      simp only at table
      rw [table, find?_upsertAll_rolledContainers _ resolution maxGapPct
        ((pairwise_selectContainers db .tenSeconds fetchRange).filter _)
        ((nodup_selectContainers db .tenSeconds fetchRange).sublist
          (List.filter_sublist.map containerKey)),
        filter_fetched_eq_window found closed]

/-! ## Clean cuts are necessary -/

/-- A row in the place of `row` whose values are zero, but for a rate that only the
row in the place of `target` has. -/
def probeRow (target row : ContainerSample) : ContainerSample where
  ts := row.ts
  service := ⟨0⟩
  cid := row.cid
  cpuPctMill := 0
  memUsed := 0
  netRxRateMill := if containerKey row = containerKey target then some 1 else none
  netTxRateMill := none
  blkReadRateMill := none
  blkWriteRateMill := none

/-- The layout of `db` with probe rows and empty coarse tables. -/
def probeDb (db : MetricsDb) (target : ContainerSample) : MetricsDb where
  host := fun _ => .empty
  containers
    | .tenSeconds => (db.containers .tenSeconds).mapRows (probeRow target) fun _ => rfl
    | _ => .empty

theorem containers_probeDb_coarse {db : MetricsDb} {target : ContainerSample}
    {resolution : MetricsResolution} (coarse : resolution ∈ MetricsResolution.coarse) :
    (probeDb db target).containers resolution = .empty := by
  cases resolution with
  | tenSeconds => exact absurd rfl (coarse_ne_tenSeconds coarse)
  | oneMinute | fiveMinutes | oneHour => rfl

theorem containerLayout_probeDb (db : MetricsDb) (target : ContainerSample) :
    containerLayout (probeDb db target) = containerLayout db := by
  simp [containerLayout, probeDb, KeyedTable.mapRows, containerKey, probeRow, Function.comp_def]

theorem selectContainers_probeDb (db : MetricsDb) (target : ContainerSample) (range : TimeRange) :
    selectContainers (probeDb db target) .tenSeconds range =
      (selectContainers db .tenSeconds range).map (probeRow target) := by
  rw [selectContainers, selectContainers,
    List.map_insertionSort cidThenTs cidThenTs (probeRow target) _ fun _ _ _ _ => Iff.rfl]
  simp only [KeyedTable.select, probeDb, KeyedTable.mapRows, List.filter_map]
  rfl

theorem containerWindow_probeDb (db : MetricsDb) (target : ContainerSample)
    (resolution : MetricsResolution) (stop : Int) (cid : ContainerId) :
    containerWindow (probeDb db target) resolution stop cid =
      (containerWindow db resolution stop cid).map (probeRow target) := by
  simp only [containerWindow, probeDb, KeyedTable.mapRows, List.filter_map]
  rfl

theorem probeRow_storable (target row : ContainerSample) :
    ContainerSample.Storable (probeRow target row) := by
  have small : (1 : Nat) ≤ i64Max.toNat := by decide
  simp only [ContainerSample.Within, ColumnsWithin, containerColumns, List.forall_mem_cons,
    Option.mem_some_iff, forall_eq', probeRow]
  have absent : ∀ value ∈ (none : Option Nat), value ≤ i64Max.toNat := by simp
  refine ⟨Nat.zero_le _, Nat.zero_le _, fun value present => ?_, absent, absent, absent,
    List.forall_mem_nil _⟩
  split at present
  · exact Option.mem_some_iff.mp present ▸ small
  · cases present

private theorem netRxRate_count_foldl (samples : List ContainerSample) (gauges : ContainerGauges) :
    (samples.foldl ContainerGauges.add gauges).netRxRateMill.count =
      gauges.netRxRateMill.count + samples.countP fun sample => sample.netRxRateMill.isSome := by
  induction samples generalizing gauges with
  | nil => rfl
  | cons sample rest ih =>
      rw [List.foldl_cons, ih, List.countP_cons]
      cases rate : sample.netRxRateMill with
      | none => simp [ContainerGauges.add, OptionalGauge.add, rate]
      | some value => simp [ContainerGauges.add, OptionalGauge.add, rate, Nat.add_assoc, Nat.add_comm]

private theorem finish_netRxRate {gauges : ContainerGauges} {ts bucketMs : Int} {maxGapPct : Nat}
    {point : ContainerSample} (finished : gauges.finish ts bucketMs maxGapPct = some point) :
    point.netRxRateMill.isSome = true ↔ 0 < gauges.netRxRateMill.count := by
  simp only [ContainerGauges.finish] at finished
  split at finished
  · cases finished
  · cases finished
    unfold OptionalGauge.meanRate
    split <;> simp_all

/-- A downsampled row has the rate exactly when one of its contributors has it. -/
theorem downsampleContainer_netRxRate {resolution : MetricsResolution} {maxGapPct : Nat}
    {samples : List ContainerSample}
    (ordered : samples.Pairwise fun earlier later => earlier.ts < later.ts)
    {point : ContainerSample} (member : point ∈ downsampleContainer samples resolution maxGapPct) :
    point.netRxRateMill.isSome = true ↔ ∃ sample ∈ samples,
      bucketEnd sample.ts resolution.bucketMs = point.ts ∧
        sample.netRxRateMill.isSome = true := by
  obtain ⟨item, itemMember, closed⟩ := (GroupedFold.mem_run_iff _
    (containerBuckets_ordered maxGapPct resolution.bucketMs_pos ordered)).mp member
  have stamped : point.ts = bucketEnd item.ts resolution.bucketMs :=
    containerBuckets_finish_ts closed
  have counted := netRxRate_count_foldl (samples.filter fun other =>
    bucketEnd other.ts resolution.bucketMs = bucketEnd item.ts resolution.bucketMs) {}
  rw [finish_netRxRate closed]
  refine Iff.trans (by rw [← Nat.zero_add (List.countP _ _)]; exact iff_of_eq (congrArg _ counted))
    (List.countP_pos_iff.trans ?_)
  simp only [List.mem_filter, decide_eq_true_eq, and_assoc, stamped]

/-- On probe rows a scanning search completes, and each closed resolution holds what
its cuts delivered for each container. -/
theorem rollUpContainers_probeDb {search : PartitionPoint} (scans : search.Scans)
    (db : MetricsDb) (target : ContainerSample) {previousTs newTs : Int} {fetchRange : TimeRange}
    (found : widestSourceRange (resolutionsClosedBy previousTs newTs) = some fetchRange) :
    ∃ after, rollUpContainers search .unchanged (probeDb db target) previousTs newTs 100 =
        (after, .ok ()) ∧
      ∀ entry ∈ resolutionsClosedBy previousTs newTs, ∀ (cid : ContainerId) (ts : Int),
        (after.containers entry.1).find? (toLex (ts, cid)) =
          (downsampleContainer (((between search (selectContainers db .tenSeconds fetchRange)
              (sourceRange entry.2 entry.1) ContainerSample.ts).filter fun sample =>
                sample.cid = cid).map (probeRow target)) entry.1 100).find? fun row =>
            row.ts = ts := by
  simp only [rollUpContainers, found, selectContainers_probeDb]
  have cut : ∀ entry ∈ resolutionsClosedBy previousTs newTs,
      sliceByRange search ((selectContainers db .tenSeconds fetchRange).map (probeRow target))
        (sourceRange entry.2 entry.1) ContainerSample.ts =
          .ok ((between search (selectContainers db .tenSeconds fetchRange)
            (sourceRange entry.2 entry.1) ContainerSample.ts).map (probeRow target)) := by
    intro entry _
    rw [sliceByRange_of_scans scans (valid_sourceRange _ _), between_map scans]
    rfl
  have coarse : ∀ entry ∈ resolutionsClosedBy previousTs newTs,
      entry.1 ∈ MetricsResolution.coarse :=
    fun entry member => (mem_resolutionsClosedBy.mp member).1
  have sorted : ∀ range, ((between search (selectContainers db .tenSeconds fetchRange) range
      ContainerSample.ts).map (probeRow target)).Pairwise cidThenTs := fun range =>
    List.pairwise_map.mpr
      ((pairwise_selectContainers db .tenSeconds fetchRange).sublist (between_sublist _ _ _ _))
  have nodup : ∀ range, (((between search (selectContainers db .tenSeconds fetchRange) range
      ContainerSample.ts).map (probeRow target)).map containerKey).Nodup := fun range => by
    rw [List.map_map]
    exact (nodup_selectContainers db .tenSeconds fetchRange).sublist
      ((between_sublist _ _ _ _).map _)
  have storable : ∀ entry ∈ resolutionsClosedBy previousTs newTs,
      ∀ row ∈ rolledContainers .unchanged ((between search
        (selectContainers db .tenSeconds fetchRange) (sourceRange entry.2 entry.1)
          ContainerSample.ts).map (probeRow target)) entry.1 100,
        ContainerSample.Storable row := by
    intro entry _ row member
    rw [mem_rolledContainers (sorted _) (nodup _)] at member
    refine downsampleContainer_within (ordered_filter_cid (sorted _) (nodup _) _) ?_ row member
    intro sample present
    obtain ⟨original, -, rfl⟩ := List.mem_map.mp (List.mem_filter.mp present).1
    exact probeRow_storable target original
  obtain ⟨after, result⟩ := rollUpContainersClosed_ok coarse cut storable (probeDb db target)
  refine ⟨after, result, fun entry member cid ts => ?_⟩
  have table := (rollUpContainersClosed_spec (nodup_resolutionsClosedBy previousTs newTs) coarse
    cut result).1 entry member
  rw [table, find?_upsertAll_rolledContainers _ _ _ (sorted _) (nodup _),
    containers_probeDb_coarse (coarse entry member), KeyedTable.find?_empty, Option.or_none,
    List.filter_map]
  rfl

section Necessity

variable {search : PartitionPoint} {db : MetricsDb} {previousTs newTs : Int}
  {fetchRange : TimeRange} {resolution : MetricsResolution}

/-- What the probe rows show at a key: the row due there is the row of the cut. -/
private theorem probe_exact (scans : search.Scans)
    (exact : ∀ other, containerLayout other = containerLayout db →
      ContainerRollupExact search .unchanged other previousTs newTs 100)
    (found : widestSourceRange (resolutionsClosedBy previousTs newTs) = some fetchRange)
    (coarse : resolution ∈ MetricsResolution.coarse)
    (moved : bucketEnd newTs resolution.bucketMs ≠ bucketEnd previousTs resolution.bucketMs)
    (target : ContainerSample) (ts : Int) :
    (downsampleContainer (((between search (selectContainers db .tenSeconds fetchRange)
        (sourceRange (bucketEnd previousTs resolution.bucketMs) resolution)
        ContainerSample.ts).filter fun sample => sample.cid = target.cid).map (probeRow target))
        resolution 100).find? (fun row => row.ts = ts) =
      (downsampleContainer ((containerWindow db resolution
        (bucketEnd previousTs resolution.bucketMs) target.cid).map (probeRow target))
        resolution 100).find? fun row => row.ts = ts := by
  obtain ⟨after, result, tables⟩ := rollUpContainers_probeDb scans db target found
  have due := exact _ (containerLayout_probeDb db target) after result resolution coarse moved
    target.cid ts
  have closed : (resolution, bucketEnd previousTs resolution.bucketMs) ∈
      resolutionsClosedBy previousTs newTs := mem_resolutionsClosedBy.mpr ⟨coarse, rfl, moved⟩
  rw [tables _ closed, containers_probeDb_coarse coarse, KeyedTable.find?_empty, Option.or_none,
    containerWindow_probeDb] at due
  exact due

private theorem ordered_probed {samples : List ContainerSample} (target : ContainerSample)
    (sorted : samples.Pairwise cidThenTs) (nodup : (samples.map containerKey).Nodup)
    (cid : ContainerId) :
    ((samples.filter fun sample => sample.cid = cid).map (probeRow target)).Pairwise
      fun earlier later => earlier.ts < later.ts :=
  List.pairwise_map.mpr (ordered_filter_cid sorted nodup cid)

/-- A rollup that is exact whatever the values cuts out exactly the window. -/
private theorem mem_between_iff (scans : search.Scans)
    (exact : ∀ other, containerLayout other = containerLayout db →
      ContainerRollupExact search .unchanged other previousTs newTs 100)
    (found : widestSourceRange (resolutionsClosedBy previousTs newTs) = some fetchRange)
    (coarse : resolution ∈ MetricsResolution.coarse)
    (moved : bucketEnd newTs resolution.bucketMs ≠ bucketEnd previousTs resolution.bucketMs)
    (target : ContainerSample) (member : target ∈ selectContainers db .tenSeconds fetchRange) :
    target ∈ between search (selectContainers db .tenSeconds fetchRange)
        (sourceRange (bucketEnd previousTs resolution.bucketMs) resolution) ContainerSample.ts ↔
      bucketEnd target.ts resolution.bucketMs = bucketEnd previousTs resolution.bucketMs := by
  have agree := probe_exact scans exact found coarse moved target
  have fetched := pairwise_selectContainers db .tenSeconds fetchRange
  have keys := nodup_selectContainers db .tenSeconds fetchRange
  have closed : (resolution, bucketEnd previousTs resolution.bucketMs) ∈
      resolutionsClosedBy previousTs newTs := mem_resolutionsClosedBy.mpr ⟨coarse, rfl, moved⟩
  rw [← filter_fetched_eq_window found closed] at agree
  generalize cutEq : between search (selectContainers db .tenSeconds fetchRange)
    (sourceRange (bucketEnd previousTs resolution.bucketMs) resolution)
    ContainerSample.ts = cut at agree ⊢
  have sub : cut.Sublist (selectContainers db .tenSeconds fetchRange) :=
    cutEq ▸ between_sublist _ _ _ _
  have cutOrdered := ordered_probed target (fetched.sublist sub)
    (keys.sublist (sub.map containerKey)) target.cid
  have windowOrdered := ordered_probed target
    (fetched.filter fun sample =>
      (sourceRange (bucketEnd previousTs resolution.bucketMs) resolution).contains sample.ts)
    (keys.sublist (List.filter_sublist.map containerKey)) target.cid
  constructor
  · -- A row outside the window would be rolled up into another bucket.
    intro inCut
    by_contra outside
    obtain ⟨point, written, stamped⟩ := downsampleContainer_full resolution
      cutOrdered (List.mem_map_of_mem (f := probeRow target)
        (List.mem_filter.mpr ⟨inCut, decide_eq_true rfl⟩))
    have absent := (agree (bucketEnd target.ts resolution.bucketMs)).trans
      (List.find?_eq_none.mpr fun other due same => outside ?_)
    · exact List.find?_eq_none.mp absent point written (decide_eq_true stamped)
    · obtain ⟨_, contributes, shape⟩ := mem_downsampleContainer_ts due
      obtain ⟨sample, present, rfl⟩ := List.mem_map.mp contributes
      have inside := (List.mem_filter.mp (List.mem_filter.mp present).1).2
      exact (of_decide_eq_true same).symm.trans (shape.trans (contains_sourceRange.mp inside))
  · -- A row of the window that is cut away takes its rate with it.
    intro inside
    by_contra dropped
    have due : target ∈ ((selectContainers db .tenSeconds fetchRange).filter fun sample =>
        (sourceRange (bucketEnd previousTs resolution.bucketMs) resolution).contains
          sample.ts).filter fun sample => sample.cid = target.cid :=
      List.mem_filter.mpr ⟨List.mem_filter.mpr ⟨member, contains_sourceRange.mpr inside⟩,
        decide_eq_true rfl⟩
    obtain ⟨point, dueMember, stamped⟩ := downsampleContainer_full resolution
      windowOrdered (List.mem_map_of_mem (f := probeRow target) due)
    cases shown : (downsampleContainer ((cut.filter fun sample =>
        sample.cid = target.cid).map (probeRow target)) resolution 100).find? fun row =>
          row.ts = bucketEnd target.ts resolution.bucketMs with
    | none =>
        have absent := (agree _).symm.trans shown
        exact List.find?_eq_none.mp absent point dueMember (decide_eq_true stamped)
    | some row =>
        have rowTs : row.ts = bucketEnd target.ts resolution.bucketMs := by
          simpa using List.find?_some shown
        have rowDue := List.mem_of_find?_eq_some ((agree _).symm.trans shown)
        have rated : row.netRxRateMill.isSome = true :=
          (downsampleContainer_netRxRate windowOrdered rowDue).mpr
            ⟨_, List.mem_map_of_mem (f := probeRow target) due, rowTs.symm, by simp [probeRow]⟩
        obtain ⟨_, contributes, -, marked⟩ :=
          (downsampleContainer_netRxRate cutOrdered (List.mem_of_find?_eq_some shown)).mp rated
        obtain ⟨sample, present, rfl⟩ := List.mem_map.mp contributes
        have inCut := (List.mem_filter.mp present).1
        have sameKey : containerKey sample = containerKey target := by
          by_contra different
          simp [probeRow, different] at marked
        exact dropped (List.inj_on_of_nodup_map keys (sub.subset inCut) member sameKey ▸ inCut)

/-- Rollups that are exact whatever the values and however the search answers where
its documentation leaves it open need clean cuts. -/
private theorem clean_of_exact
    (exact : ∀ search : PartitionPoint, search.Scans →
      ∀ other, containerLayout other = containerLayout db →
        ContainerRollupExact search .unchanged other previousTs newTs 100) :
    FetchCutsCleanly db previousTs newTs := by
  intro fetchRange found resolution coarse moved
  have fetched := pairwise_selectContainers db .tenSeconds fetchRange
  have keys := nodup_selectContainers db .tenSeconds fetchRange
  have nodup := List.Nodup.of_map _ keys
  have first := mem_between_iff PartitionPoint.firstFailing_scans
    (exact _ PartitionPoint.firstFailing_scans) found coarse moved
  have last := mem_between_iff PartitionPoint.lastHolding_scans
    (exact _ PartitionPoint.lastHolding_scans) found coarse moved
  have within := fun search => between_sublist search (selectContainers db .tenSeconds fetchRange)
    (sourceRange (bucketEnd previousTs resolution.bucketMs) resolution) ContainerSample.ts
  refine cutsCleanly_of_scans nodup (eq_of_perm_of_sorted ?_ (fetched.sublist (within _))
    (fetched.sublist (within _)) (keys.sublist ((within _).map containerKey))) ?_
  · refine (List.perm_ext_iff_of_nodup (nodup.sublist (within _)) (nodup.sublist (within _))).mpr
      fun target => ?_
    constructor
    · intro inFirst
      have member := (within _).subset inFirst
      exact (last target member).mpr ((first target member).mp inFirst)
    · intro inLast
      have member := (within _).subset inLast
      exact (first target member).mpr ((last target member).mp inLast)
  · exact fun target member inside => (first target member).mpr (contains_sourceRange.mp inside)

end Necessity

/-- Whatever the stored values, a successful container rollup is exact if and only if
the fetched rows are cut cleanly for every bucket that closed. -/
theorem rollUpContainers_exact_iff (db : MetricsDb) (previousTs newTs : Int) :
    (∀ (search : PartitionPoint) (order : HashOrder) (maxGapPct : Nat) (other : MetricsDb),
        containerLayout other = containerLayout db →
          ContainerRollupExact search order other previousTs newTs maxGapPct) ↔
      FetchCutsCleanly db previousTs newTs := by
  constructor
  · intro exact
    exact clean_of_exact fun search _ other same => exact search .unchanged 100 other same
  · intro clean search order maxGapPct other same
    exact rollUpContainers_exact_of_clean (clean.congr same) search order maxGapPct

def idleContainer (cid : BitVec 48) (ts : Int) : ContainerSample where
  ts
  service := ⟨1⟩
  cid := ⟨cid⟩
  cpuPctMill := 0
  memUsed := 0
  netRxRateMill := none
  netTxRateMill := none
  blkReadRateMill := none
  blkWriteRateMill := none

/-- Two containers with a row each in the first and in the fifth minute. -/
def twoContainers : MetricsDb :=
  MetricsDb.empty.setContainers .tenSeconds
    ⟨[idleContainer 1 60000, idleContainer 2 60000, idleContainer 1 300000,
      idleContainer 2 300000], by decide⟩

/-- The minute and the five minutes ending at 300000 close together, and the binary
search cuts the minute after the first container's row. -/
theorem rollUpContainers_drops_row :
    ¬ ∀ (search : PartitionPoint) (order : HashOrder) (db : MetricsDb) (previousTs newTs : Int)
        (maxGapPct : Nat), previousTs < newTs →
          ContainerRollupExact search order db previousTs newTs maxGapPct := by
  intro exact
  have written := exact .binarySearch .unchanged twoContainers 300000 310000 100 (by decide) _
    (Prod.ext rfl rfl) .oneMinute (by decide) (by decide) ⟨1⟩ 300000
  revert written
  decide

end Vpsiner.Metrics
