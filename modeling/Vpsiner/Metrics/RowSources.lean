import Vpsiner.Metrics.StoreProperties
import Vpsiner.Metrics.ContainerRollupFailures

/-! Where the rows of the container tables come from: a row that a rollup writes carries
the service of a `10s` row of its bucket, whatever else the rollup gets wrong. -/

set_option autoImplicit false

namespace Vpsiner.Metrics

open Lib

theorem service_foldl {samples present : List ContainerSample} (among : present ⊆ samples)
    {gauges : ContainerGauges}
    (known : gauges.count = 0 ∨ ∃ sample ∈ samples, gauges.service = sample.service) :
    (present.foldl ContainerGauges.add gauges).count = 0 ∨
      ∃ sample ∈ samples, (present.foldl ContainerGauges.add gauges).service = sample.service := by
  induction present generalizing gauges with
  | nil => exact known
  | cons sample rest ih =>
      obtain ⟨first, others⟩ := List.cons_subset.mp among
      refine ih others (.inr ?_)
      rcases known with none | ⟨older, member, agrees⟩
      · exact ⟨sample, first, by simp [ContainerGauges.add, none]⟩
      · by_cases none : gauges.count = 0
        · exact ⟨sample, first, by simp [ContainerGauges.add, none]⟩
        · exact ⟨older, member, by simp [ContainerGauges.add, none, agrees]⟩

/-- A downsampled row carries the service of a sample of its bucket. -/
theorem downsampleContainer_source {resolution : MetricsResolution} {maxGapPct : Nat}
    {samples : List ContainerSample}
    (ordered : samples.Pairwise fun earlier later => earlier.ts < later.ts)
    {point : ContainerSample} (member : point ∈ downsampleContainer samples resolution maxGapPct) :
    ∃ source ∈ samples, source.service = point.service ∧
      bucketEnd source.ts resolution.bucketMs = point.ts := by
  obtain ⟨item, itemMember, closed⟩ := (Lib.GroupedFold.mem_run_iff _
    (containerBuckets_ordered maxGapPct resolution.bucketMs_pos ordered)).mp member
  obtain ⟨nonempty, stamped, _, served⟩ := containerBuckets_finish closed
  obtain ⟨source, present, agrees⟩ :=
    (service_foldl (List.Subset.refl _) (.inl rfl)).resolve_left nonempty
  obtain ⟨inside, bucket⟩ := List.mem_filter.mp present
  refine ⟨source, inside, (served.trans agrees).symm, ?_⟩
  exact (of_decide_eq_true bucket).trans stamped.symm

/-- The coarse rows of a database are old ones or come from these samples. -/
def CoarseFrom (samples : List ContainerSample) (before after : MetricsDb) : Prop :=
  ∀ resolution ∈ MetricsResolution.coarse, ∀ row ∈ (after.containers resolution).rows,
    row ∈ (before.containers resolution).rows ∨ ∃ source ∈ samples,
      source.service = row.service ∧ bucketEnd source.ts resolution.bucketMs = row.ts

theorem CoarseFrom.refl (samples : List ContainerSample) (db : MetricsDb) :
    CoarseFrom samples db db := fun _ _ _ member => .inl member

theorem CoarseFrom.trans {samples : List ContainerSample} {first second third : MetricsDb}
    (earlier : CoarseFrom samples first second) (later : CoarseFrom samples second third) :
    CoarseFrom samples first third := by
  intro resolution coarse row member
  rcases later resolution coarse row member with old | new
  · exact earlier resolution coarse row old
  · exact .inr new

theorem mem_rows_upsertAll {table : ContainerTable} {rows : List ContainerSample}
    {row : ContainerSample} (member : row ∈ (table.upsertAll rows).rows) :
    row ∈ table.rows ∨ row ∈ rows := by
  induction rows generalizing table with
  | nil => exact .inl member
  | cons first rest ih =>
      rw [KeyedTable.upsertAll_cons] at member
      rcases ih member with old | new
      · rcases KeyedTable.mem_rows_upsert.mp old with rfl | kept
        · exact .inr List.mem_cons_self
        · exact .inl kept.1
      · exact .inr (List.mem_cons_of_mem _ new)

/-- One closed bucket writes rows of the samples it was given. -/
theorem CoarseFrom.insert {samples slice : List ContainerSample} {order : HashOrder}
    {resolution : MetricsResolution} (coarse : resolution ∈ MetricsResolution.coarse)
    {maxGapPct : Nat} (sorted : samples.Pairwise cidThenTs)
    (nodup : (samples.map containerKey).Nodup) (cut : slice.Sublist samples) {db after : MetricsDb}
    (inserted : insertContainers db resolution
      (rolledContainers order slice resolution maxGapPct) = .ok after) :
    CoarseFrom samples db after ∧ after.containers .tenSeconds = db.containers .tenSeconds := by
  obtain rfl := insertContainers_ok_coarse (coarse_ne_tenSeconds coarse) inserted
  constructor
  · intro other _ row member
    rw [MetricsDb.containers_setContainers] at member
    split at member
    · next same =>
        subst same
        rcases mem_rows_upsertAll member with old | rolled
        · exact .inl old
        · have sliceSorted := sorted.sublist cut
          have sliceNodup := nodup.sublist (cut.map containerKey)
          rw [mem_rolledContainers sliceSorted sliceNodup] at rolled
          obtain ⟨source, present, shape⟩ := downsampleContainer_source
            (ordered_filter_cid sliceSorted sliceNodup row.cid) rolled
          exact .inr ⟨source, cut.subset (List.mem_filter.mp present).1, shape⟩
    · exact .inl member
  · rw [MetricsDb.containers_setContainers, if_neg (coarse_ne_tenSeconds coarse).symm]

theorem sliceByRange_sublist {search : PartitionPoint} {samples slice : List ContainerSample}
    {range : TimeRange} (cut : sliceByRange search samples range ContainerSample.ts = .ok slice) :
    slice.Sublist samples := by
  unfold sliceByRange at cut
  dsimp only at cut
  split at cut
  · cases cut
    exact (List.drop_sublist _ _).trans (List.take_sublist _ _)
  · cases cut

theorem coarseFrom_rollUpContainersClosed (search : PartitionPoint) (order : HashOrder)
    (maxGapPct : Nat) {samples : List ContainerSample} (sorted : samples.Pairwise cidThenTs)
    (nodup : (samples.map containerKey).Nodup) {closed : List (MetricsResolution × Int)}
    (coarse : ∀ entry ∈ closed, entry.1 ∈ MetricsResolution.coarse) (db : MetricsDb) :
    CoarseFrom samples db (rollUpContainersClosed search order samples maxGapPct closed db).1 ∧
      (rollUpContainersClosed search order samples maxGapPct closed db).1.containers .tenSeconds =
        db.containers .tenSeconds := by
  induction closed generalizing db with
  | nil => exact ⟨.refl samples db, rfl⟩
  | cons entry rest ih =>
      obtain ⟨first, others⟩ := List.forall_mem_cons.mp coarse
      unfold rollUpContainersClosed
      cases cut : sliceByRange search samples (sourceRange entry.2 entry.1) ContainerSample.ts with
      | error fault => exact ⟨.refl samples db, rfl⟩
      | ok slice =>
          dsimp only
          cases inserted : insertContainers db entry.1
              (rolledContainers order slice entry.1 maxGapPct) with
          | error fault => exact ⟨.refl samples db, rfl⟩
          | ok next =>
              obtain ⟨here, fine⟩ :=
                CoarseFrom.insert first sorted nodup (sliceByRange_sublist cut) inserted
              obtain ⟨later, sameFine⟩ := ih others next
              exact ⟨here.trans later, sameFine.trans fine⟩

theorem coarseFrom_rollUpContainers (search : PartitionPoint) (order : HashOrder) (db : MetricsDb)
    (previousTs newTs : Int) (maxGapPct : Nat) :
    CoarseFrom (db.containers .tenSeconds).rows db
        (rollUpContainers search order db previousTs newTs maxGapPct).1 ∧
      (rollUpContainers search order db previousTs newTs maxGapPct).1.containers .tenSeconds =
        db.containers .tenSeconds := by
  unfold rollUpContainers
  dsimp only
  cases widestSourceRange (resolutionsClosedBy previousTs newTs) with
  | none => exact ⟨.refl _ db, rfl⟩
  | some fetchRange =>
      dsimp only
      obtain ⟨from_fetched, fine⟩ := coarseFrom_rollUpContainersClosed search order maxGapPct
        (pairwise_selectContainers db .tenSeconds fetchRange)
        (nodup_selectContainers db .tenSeconds fetchRange)
        (fun entry member => (mem_resolutionsClosedBy.mp member).1) db
      refine ⟨fun resolution coarse row member => ?_, fine⟩
      rcases from_fetched resolution coarse row member with old | ⟨source, fetched, shape⟩
      · exact .inl old
      · have stored := (perm_selectContainers db .tenSeconds fetchRange).mem_iff.mp fetched
        exact .inr ⟨source, (List.mem_filter.mp stored).1, shape⟩

/-- After an insert every `10s` row is an old one or was inserted, and every coarse row is
an old one or comes from a `10s` row that is stored. -/
theorem SqliteMetricsStore.insertContainers_sources (search : PartitionPoint) (order : HashOrder)
    (store : SqliteMetricsStore) (samples : List ContainerSample) :
    (∀ row ∈ ((store.insertContainers search order samples).1.db.containers .tenSeconds).rows,
      row ∈ (store.db.containers .tenSeconds).rows ∨ row ∈ samples) ∧
    CoarseFrom ((store.insertContainers search order samples).1.db.containers .tenSeconds).rows
      store.db (store.insertContainers search order samples).1.db := by
  unfold SqliteMetricsStore.insertContainers
  cases (samples.map ContainerSample.ts).max? with
  | none => exact ⟨fun _ member => .inl member, .refl _ _⟩
  | some ts =>
      dsimp only
      cases inserted : Metrics.insertContainers store.db .tenSeconds samples with
      | error fault => exact ⟨fun _ member => .inl member, .refl _ _⟩
      | ok db =>
          obtain ⟨_, _, fine, coarse⟩ := insertContainers_fine inserted
          have kept : ∀ samples, CoarseFrom samples store.db db := by
            intro samples resolution isCoarse row member
            rw [coarse resolution isCoarse] at member
            exact .inl member
          dsimp only
          cases (advance store.lastContainersTs ts).1 with
          | none => exact ⟨fun row member => (fine row).mp member, kept _⟩
          | some previous =>
              dsimp only
              obtain ⟨rolled, same⟩ := coarseFrom_rollUpContainers search order db previous ts
                store.downsampleMaxGapPct
              rw [same]
              exact ⟨fun row member => (fine row).mp member, (kept _).trans rolled⟩

end Vpsiner.Metrics
