import Vpsiner.Metrics.ContainerRollup
import Vpsiner.Metrics.HostHistory
import Vpsiner.Metrics.RollupFailures

/-! Which coarse buckets survive a rollup that ends early. The cursor has moved past the
bucket by then, also across a restart, so a row that was not written is never written. -/

set_option autoImplicit false

namespace Vpsiner.Metrics

open Lib

/-- Every elapsed bucket whose `10s` rows pass the gap test has its coarse row. A bucket has
elapsed when a `10s` row lies past its end. -/
structure CoarseComplete (maxGapPct : Nat) (db : MetricsDb) : Prop where
  host : ∀ resolution ∈ MetricsResolution.coarse, ∀ earlier ∈ (db.host .tenSeconds).rows,
    ∀ last ∈ (db.host .tenSeconds).rows,
      bucketEnd earlier.ts resolution.bucketMs < bucketEnd last.ts resolution.bucketMs →
        ∀ row ∈ downsampleHost (hostBucketRows db resolution
            (bucketEnd earlier.ts resolution.bucketMs)) resolution maxGapPct,
          row ∈ (db.host resolution).rows
  containers : ∀ resolution ∈ MetricsResolution.coarse,
    ∀ earlier ∈ (db.containers .tenSeconds).rows, ∀ last ∈ (db.containers .tenSeconds).rows,
      bucketEnd earlier.ts resolution.bucketMs < bucketEnd last.ts resolution.bucketMs →
        ∀ cid, ∀ row ∈ downsampleContainer (containerWindow db resolution
            (bucketEnd earlier.ts resolution.bucketMs) cid) resolution maxGapPct,
          row ∈ (db.containers resolution).rows

/-- Timestamps stay where no `i64` operation of the rollup overflows. -/
def InRange (ts : Int) : Prop := -2 ^ 62 < ts ∧ ts < 2 ^ 62

/-- Every insert is newer than all before it, and the rows of a container batch share the
end of one bucket. -/
def Increasing (store : SqliteMetricsStore) : MetricsEvent → Prop
  | .insertHost sample _ => InRange sample.ts ∧
      ∀ row ∈ (store.db.host .tenSeconds).rows, row.ts < sample.ts
  | .insertContainers _ samples _ => ∃ ts, InRange ts ∧ (∀ sample ∈ samples, sample.ts = ts) ∧
      ∀ row ∈ (store.db.containers .tenSeconds).rows, row.ts < ts
  | .restart => True

/-- The rows that the rollup of a host insert has to write. -/
def dueHost (db : MetricsDb) (previousTs newTs : Int) (maxGapPct : Nat) :
    List (MetricsResolution × HostSample) :=
  (resolutionsClosedBy previousTs newTs).flatMap fun entry =>
    (downsampleHost (hostBucketRows db entry.1 entry.2) entry.1 maxGapPct).map fun row =>
      (entry.1, row)

/-- The closed buckets in which some container has a row to write. -/
def dueContainers (db : MetricsDb) (previousTs newTs : Int) (maxGapPct : Nat) :
    List (MetricsResolution × Int) :=
  (resolutionsClosedBy previousTs newTs).filter fun entry =>
    (db.containers .tenSeconds).rows.any fun sample =>
      !(downsampleContainer (containerWindow db entry.1 entry.2 sample.cid) entry.1
        maxGapPct).isEmpty

/-- A rollup gets through the statements it has to write, or has none. -/
def RollupFate.Reaches (fate : RollupFate) (writes : Nat) : Prop :=
  ∀ statements fault, fate = .ends statements fault → writes = 0 ∨ writes < statements

/-- Rollups that end early have nothing left to write, and container rollups find their
rows cut cleanly. -/
def RollupsReach (store : SqliteMetricsStore) (event : MetricsEvent) : Prop :=
  Increasing store event ∧
    match event with
    | .insertHost sample fate => ∀ previous ∈ store.lastHostTs,
        fate.Reaches (dueHost store.db previous sample.ts store.downsampleMaxGapPct).length
    | .insertContainers _ samples fate => ∀ previous ∈ store.lastContainersTs,
        ∀ ts ∈ (samples.map ContainerSample.ts).max?,
          FetchCutsCleanly store.db previous ts ∧
            fate.Reaches (dueContainers store.db previous ts store.downsampleMaxGapPct).length
    | .restart => True

/-! ## Rollups that get far enough -/

theorem insertHostRowsUpTo_reaches (fault : Fault) {resolution : MetricsResolution}
    (coarse : resolution ≠ .tenSeconds) {rows : List HostSample}
    (storable : ∀ row ∈ rows, HostSample.Storable row) {left : Nat}
    (enough : rows.length ≤ left) (db : MetricsDb) :
    insertHostRowsUpTo fault resolution rows left db =
      ((insertHostRows resolution rows db).1, .ok (left - rows.length)) := by
  induction rows generalizing left db with
  | nil => rfl
  | cons row rest ih =>
      cases left with
      | zero => cases enough
      | succ left =>
          rw [insertHostRowsUpTo, insertHostRows,
            insertHost_coarse coarse (storable row List.mem_cons_self)]
          simp only
          rw [ih (fun other member => storable other (List.mem_cons_of_mem _ member))
            (Nat.le_of_succ_le_succ enough), List.length_cons, Nat.add_sub_add_right]

theorem rollUpHostClosedUpTo_reaches (fault : Fault) (search : PartitionPoint)
    {samples : List HostSample} {maxGapPct : Nat}
    (slice : MetricsResolution × Int → List HostSample) {closed : List (MetricsResolution × Int)}
    (coarse : ∀ entry ∈ closed, entry.1 ∈ MetricsResolution.coarse)
    (cut : ∀ entry ∈ closed,
      sliceByRange search samples (sourceRange entry.2 entry.1) HostSample.ts = .ok (slice entry))
    (storable : ∀ entry ∈ closed, ∀ row ∈ downsampleHost (slice entry) entry.1 maxGapPct,
      HostSample.Storable row) {left : Nat}
    (enough : (closed.flatMap fun entry =>
      downsampleHost (slice entry) entry.1 maxGapPct).length ≤ left) (db : MetricsDb) :
    (rollUpHostClosedUpTo fault search samples maxGapPct closed left db).1 =
      (rollUpHostClosed search samples maxGapPct closed db).1 := by
  induction closed generalizing left db with
  | nil => rfl
  | cons entry rest ih =>
      obtain ⟨resolution, stop⟩ := entry
      rw [List.flatMap_cons, List.length_append] at enough
      have fits := storable _ List.mem_cons_self
      have first := coarse_ne_tenSeconds (coarse _ List.mem_cons_self)
      rw [rollUpHostClosedUpTo, rollUpHostClosed, cut _ List.mem_cons_self]
      simp only
      rw [insertHostRowsUpTo_reaches fault first fits (by omega), insertHostRows_coarse first fits]
      apply ih (fun other member => coarse other (List.mem_cons_of_mem _ member))
        (fun other member => cut other (List.mem_cons_of_mem _ member))
        (fun other member => storable other (List.mem_cons_of_mem _ member))
      omega

theorem MetricsDb.ext_tables {left right : MetricsDb}
    (host : ∀ resolution, left.host resolution = right.host resolution)
    (containers : left.containers = right.containers) : left = right := by
  cases left
  cases right
  cases containers
  cases funext host
  rfl

/-- A rollup that has nothing to write changes nothing. -/
theorem rollUpHost_idle (search : PartitionPoint) {db : MetricsDb} {previousTs newTs : Int}
    {maxGapPct : Nat}
    (storable : ∀ sample ∈ (db.host .tenSeconds).rows, HostSample.Storable sample)
    (idle : dueHost db previousTs newTs maxGapPct = []) :
    (rollUpHost search db previousTs newTs maxGapPct).1 = db := by
  obtain ⟨after, result, containers, written, kept⟩ :=
    rollUpHost_spec search db previousTs newTs maxGapPct storable
  rw [result]
  refine MetricsDb.ext_tables (fun resolution => ?_) containers
  by_cases closed : resolution ∈ (resolutionsClosedBy previousTs newTs).map Prod.fst
  · obtain ⟨entry, member, rfl⟩ := List.mem_map.mp closed
    have nothing := List.map_eq_nil_iff.mp (List.flatMap_eq_nil_iff.mp idle entry member)
    rw [written entry member, nothing, KeyedTable.upsertAll_nil]
  · exact kept resolution closed

theorem rollUpHostFated_reaches (search : PartitionPoint) {db : MetricsDb}
    {previousTs newTs : Int} {maxGapPct : Nat} {fate : RollupFate}
    (storable : ∀ sample ∈ (db.host .tenSeconds).rows, HostSample.Storable sample)
    (reaches : fate.Reaches (dueHost db previousTs newTs maxGapPct).length) :
    (rollUpHostFated search db previousTs newTs maxGapPct fate).1 =
      (rollUpHost search db previousTs newTs maxGapPct).1 := by
  cases fate with
  | completes => rfl
  | ends statements fault =>
      have far := reaches statements fault rfl
      cases found : widestSourceRange (resolutionsClosedBy previousTs newTs) with
      | none => simp only [rollUpHostFated, rollUpHost, found]
      | some fetchRange =>
          cases statements with
          | zero =>
              have idle := List.length_eq_zero_iff.mp (far.resolve_right (Nat.not_lt_zero _))
              rw [rollUpHost_idle search storable idle]
              simp only [rollUpHostFated, found]
          | succ left =>
              simp only [rollUpHostFated, rollUpHost, found]
              apply rollUpHostClosedUpTo_reaches fault search
                (fun entry => hostBucketRows db entry.1 entry.2)
                (fun entry member => (mem_resolutionsClosedBy.mp member).1)
                (fun entry member => slice_selectHost found member search)
              · intro entry _
                exact downsampleHost_within ((db.host .tenSeconds).ordered.filter _)
                  fun sample present => storable sample (List.mem_filter.mp present).1
              · have count : (dueHost db previousTs newTs maxGapPct).length =
                    ((resolutionsClosedBy previousTs newTs).flatMap fun entry => downsampleHost
                      (hostBucketRows db entry.1 entry.2) entry.1 maxGapPct).length := by
                  simp only [dueHost, List.length_flatMap, List.length_map]
                omega

/-! ## Host inserts -/

/-- The new sample is in none of the buckets that its insert closes. -/
theorem dueHost_insert {db after : MetricsDb} {sample : HostSample} {previousTs : Int}
    {maxGapPct : Nat}
    (fine : (after.host .tenSeconds).rows = (db.host .tenSeconds).rows ++ [sample]) :
    dueHost after previousTs sample.ts maxGapPct = dueHost db previousTs sample.ts maxGapPct := by
  refine List.flatMap_congr fun entry member => ?_
  obtain ⟨_, _, moved⟩ := mem_resolutionsClosedBy.mp member
  have rows : hostBucketRows after entry.1 entry.2 = hostBucketRows db entry.1 entry.2 := by
    rw [hostBucketRows, fine, List.filter_append, List.filter_singleton, decide_eq_false moved,
      cond_false, List.append_nil]
    rfl
  rw [rows]

theorem insertHostFated_reaches {search : PartitionPoint} {store : SqliteMetricsStore}
    {sample : HostSample} {fate : RollupFate}
    (storable : ∀ row ∈ (store.db.host .tenSeconds).rows, HostSample.Storable row)
    (newer : ∀ row ∈ (store.db.host .tenSeconds).rows, row.ts < sample.ts)
    (reaches : ∀ previous ∈ store.lastHostTs,
      fate.Reaches (dueHost store.db previous sample.ts store.downsampleMaxGapPct).length) :
    (store.insertHostFated search sample fate).1 = (store.insertHost search sample).1 := by
  rw [SqliteMetricsStore.insertHostFated, SqliteMetricsStore.insertHost]
  cases written : insertHost store.db .tenSeconds sample with
  | error fault => rfl
  | ok db =>
      obtain ⟨_, fine, _⟩ := insertHost_fine newer written
      cases moved : (SqliteMetricsStore.advance store.lastHostTs sample.ts).1 with
      | none => simp only [moved]
      | some previous =>
          have known : previous ∈ store.lastHostTs := (Option.filter_eq_some_iff.mp moved).1
          have same := rollUpHostFated_reaches search (storable_insertHost storable newer written)
            (by rw [dueHost_insert fine]; exact reaches previous known)
          simp only [moved, same]

theorem insertHost_ok {search : PartitionPoint} {store : SqliteMetricsStore}
    {sample : HostSample} {db : MetricsDb}
    (storable : ∀ row ∈ (store.db.host .tenSeconds).rows, HostSample.Storable row)
    (newer : ∀ row ∈ (store.db.host .tenSeconds).rows, row.ts < sample.ts)
    (written : insertHost store.db .tenSeconds sample = .ok db) :
    ∃ after, store.insertHost search sample = (after, .ok ()) := by
  rw [SqliteMetricsStore.insertHost, written]
  cases moved : (SqliteMetricsStore.advance store.lastHostTs sample.ts).1 with
  | none =>
      simp only [moved]
      exact ⟨_, rfl⟩
  | some previous =>
      obtain ⟨rolled, result, _⟩ := rollUpHost_spec search db previous sample.ts
        store.downsampleMaxGapPct (storable_insertHost storable newer written)
      simp only [moved, result]
      exact ⟨_, rfl⟩

/-- A host insert whose rollup reaches its end keeps the tables in step. -/
theorem TracksHistory.insertFated (search : PartitionPoint) {store : SqliteMetricsStore}
    {sample : HostSample} {fate : RollupFate} {maxGapPct : Nat}
    (tracks : TracksHistory maxGapPct (store.db.host .tenSeconds).rows store)
    (newer : ∀ row ∈ (store.db.host .tenSeconds).rows, row.ts < sample.ts)
    (reaches : ∀ previous ∈ store.lastHostTs,
      fate.Reaches (dueHost store.db previous sample.ts store.downsampleMaxGapPct).length) :
    TracksHistory maxGapPct
      ((store.insertHostFated search sample fate).1.db.host .tenSeconds).rows
      (store.insertHostFated search sample fate).1 := by
  rw [insertHostFated_reaches tracks.storable newer reaches]
  cases written : insertHost store.db .tenSeconds sample with
  | error fault =>
      rw [SqliteMetricsStore.insertHost, written]
      exact tracks
  | ok db =>
      obtain ⟨after, result⟩ := @insertHost_ok search store sample db tracks.storable newer written
      have grown := tracks.insert newer result
      rw [result]
      rwa [← grown.fine] at grown

theorem host_of_tracksHistory {store : SqliteMetricsStore} {maxGapPct : Nat}
    (tracks : TracksHistory maxGapPct (store.db.host .tenSeconds).rows store)
    {resolution : MetricsResolution} (coarse : resolution ∈ MetricsResolution.coarse)
    {earlier last : HostSample} (earlierMember : earlier ∈ (store.db.host .tenSeconds).rows)
    (lastMember : last ∈ (store.db.host .tenSeconds).rows)
    (elapsed : bucketEnd earlier.ts resolution.bucketMs < bucketEnd last.ts resolution.bucketMs)
    {row : HostSample} (due : row ∈ downsampleHost (hostBucketRows store.db resolution
      (bucketEnd earlier.ts resolution.bucketMs)) resolution maxGapPct) :
    row ∈ (store.db.host resolution).rows := by
  have inBucket : ∀ sample ∈ hostBucketRows store.db resolution
      (bucketEnd earlier.ts resolution.bucketMs),
      bucketEnd sample.ts resolution.bucketMs = bucketEnd earlier.ts resolution.bucketMs := by
    intro sample member
    exact of_decide_eq_true (List.mem_filter.mp member).2
  rw [downsampleHost_bucket _ inBucket, Option.mem_toList] at due
  rw [tracks.coarse resolution coarse, elapsedRows]
  refine List.mem_filter.mpr ⟨(Lib.GroupedFold.mem_run_iff _ (hostBuckets_ordered maxGapPct
    resolution.bucketMs_pos tracks.ordered)).mpr ⟨earlier, earlierMember, due⟩, ?_⟩
  rw [hostBuckets_finish_ts due, (Option.all_eq_true _ _)]
  intro newest found
  rw [← max?_ts_eq_getLast? tracks.ordered] at found
  have reached := (List.max?_eq_some_iff.mp found).2 _ (List.mem_map_of_mem lastMember)
  exact decide_eq_true (elapsed.trans_le (bucketEnd_mono resolution.bucketMs_pos reached))

end Vpsiner.Metrics
