import Vpsiner.Lib.Paging
import Vpsiner.Metrics.RollupProperties
import Vpsiner.Metrics.Store

/-! Runs of host inserts and restarts against one database, and the coarse tables
they leave behind. -/

set_option autoImplicit false

namespace Vpsiner.Metrics

open Lib

inductive HostEvent where
  | insert (sample : HostSample)
  | restart
deriving DecidableEq, Repr

def inserted (events : List HostEvent) : List HostSample :=
  events.filterMap fun
    | .insert sample => some sample
    | .restart => none

/-- Runs from an empty database in which every insert succeeds and is newer than all
before it. Timestamps stay where no `i64` operation of the rollup overflows. -/
inductive HostRun (search : PartitionPoint) (maxGapPct : Nat) :
    List HostEvent → SqliteMetricsStore → Prop where
  | start : HostRun search maxGapPct [] (.connect .empty maxGapPct)
  | insert {events : List HostEvent} {store after : SqliteMetricsStore} {sample : HostSample}
      (before : HostRun search maxGapPct events store)
      (newer : ∀ earlier ∈ inserted events, earlier.ts < sample.ts)
      (bounded : -2 ^ 62 < sample.ts ∧ sample.ts < 2 ^ 62)
      (succeeded : store.insertHost search sample = (after, .ok ())) :
      HostRun search maxGapPct (events ++ [.insert sample]) after
  | restart {events : List HostEvent} {store : SqliteMetricsStore}
      (before : HostRun search maxGapPct events store) :
      HostRun search maxGapPct (events ++ [.restart]) (.connect store.db maxGapPct)

@[simp] theorem inserted_insert (events : List HostEvent) (sample : HostSample) :
    inserted (events ++ [.insert sample]) = inserted events ++ [sample] := by
  simp [inserted]

@[simp] theorem inserted_restart (events : List HostEvent) :
    inserted (events ++ [.restart]) = inserted events := by
  simp [inserted]

/-- The rows downsampled from the buckets that ended before the one open at `last`. -/
def elapsedRows (samples : List HostSample) (last : Option Int) (resolution : MetricsResolution)
    (maxGapPct : Nat) : List HostSample :=
  (downsampleHost samples resolution maxGapPct).filter fun point =>
    last.all fun ts => point.ts < bucketEnd ts resolution.bucketMs

/-- What every run keeps true of the store, given the samples inserted so far. -/
structure TracksHistory (maxGapPct : Nat) (samples : List HostSample)
    (store : SqliteMetricsStore) : Prop where
  pct : store.downsampleMaxGapPct = maxGapPct
  ordered : samples.Pairwise fun earlier later => earlier.ts < later.ts
  storable : ∀ sample ∈ samples, HostSample.Storable sample
  fine : (store.db.host .tenSeconds).rows = samples
  cursor : store.lastHostTs = samples.getLast?.map HostSample.ts
  coarse : ∀ resolution ∈ MetricsResolution.coarse, (store.db.host resolution).rows =
    elapsedRows samples (samples.getLast?.map HostSample.ts) resolution maxGapPct

/-- In timestamp order the newest row is the last one. -/
theorem max?_ts_eq_getLast? {samples : List HostSample}
    (ordered : samples.Pairwise fun earlier later => earlier.ts < later.ts) :
    (samples.map HostSample.ts).max? = samples.getLast?.map HostSample.ts := by
  cases newest : samples.getLast? with
  | none =>
      rw [List.getLast?_eq_none_iff.mp newest]
      rfl
  | some last =>
      rw [Option.map_some, List.max?_eq_some_iff]
      refine ⟨List.mem_map_of_mem (List.mem_of_getLast? newest), fun ts member => ?_⟩
      obtain ⟨sample, present, rfl⟩ := List.mem_map.mp member
      exact Paging.Ascending.le_getLast? ordered newest present

theorem TracksHistory.connect {maxGapPct : Nat} {samples : List HostSample}
    {store : SqliteMetricsStore} (tracks : TracksHistory maxGapPct samples store) :
    TracksHistory maxGapPct samples (.connect store.db maxGapPct) where
  pct := rfl
  ordered := tracks.ordered
  storable := tracks.storable
  fine := tracks.fine
  cursor := by
    rw [SqliteMetricsStore.connect, selectHostMaxTs, tracks.fine]
    exact max?_ts_eq_getLast? tracks.ordered
  coarse := tracks.coarse

theorem elapsedRows_some {samples : List HostSample} {last : Int} {resolution : MetricsResolution}
    {maxGapPct : Nat} (ordered : samples.Pairwise fun earlier later => earlier.ts < later.ts) :
    elapsedRows samples (some last) resolution maxGapPct =
      downsampleHost (samples.filter fun sample =>
        bucketEnd sample.ts resolution.bucketMs < bucketEnd last resolution.bucketMs)
        resolution maxGapPct :=
  (downsampleHost_below resolution maxGapPct _ ordered).symm

section Appending

variable {samples : List HostSample} {sample : HostSample} {last : Int}
  {resolution : MetricsResolution} {maxGapPct : Nat}

private theorem filter_below_append
    (same : bucketEnd sample.ts resolution.bucketMs = bucketEnd last resolution.bucketMs) :
    (samples ++ [sample]).filter (fun other =>
        bucketEnd other.ts resolution.bucketMs < bucketEnd sample.ts resolution.bucketMs) =
      samples.filter fun other =>
        bucketEnd other.ts resolution.bucketMs < bucketEnd last resolution.bucketMs := by
  simp [same]

/-- A sample of the bucket that is already open changes no elapsed row. -/
theorem elapsedRows_append_open
    (ordered : (samples ++ [sample]).Pairwise fun earlier later => earlier.ts < later.ts)
    (same : bucketEnd sample.ts resolution.bucketMs = bucketEnd last resolution.bucketMs) :
    elapsedRows (samples ++ [sample]) (some sample.ts) resolution maxGapPct =
      elapsedRows samples (some last) resolution maxGapPct := by
  rw [elapsedRows_some ordered, elapsedRows_some (List.pairwise_append.mp ordered).1,
    filter_below_append same]

/-- A sample past the open bucket adds the row of that bucket. -/
theorem elapsedRows_append_closed
    (ordered : (samples ++ [sample]).Pairwise fun earlier later => earlier.ts < later.ts)
    (newest : ∀ earlier ∈ samples, earlier.ts ≤ last) (newer : last < sample.ts)
    (different : bucketEnd sample.ts resolution.bucketMs ≠ bucketEnd last resolution.bucketMs) :
    elapsedRows (samples ++ [sample]) (some sample.ts) resolution maxGapPct =
      elapsedRows samples (some last) resolution maxGapPct ++
        downsampleHost (samples.filter fun other =>
          bucketEnd other.ts resolution.bucketMs = bucketEnd last resolution.bucketMs)
          resolution maxGapPct := by
  have positive := resolution.bucketMs_pos
  have samplesOrdered := (List.pairwise_append.mp ordered).1
  have reached : ∀ earlier ∈ samples,
      bucketEnd earlier.ts resolution.bucketMs ≤ bucketEnd last resolution.bucketMs :=
    fun earlier member => bucketEnd_mono positive (newest earlier member)
  have past : bucketEnd last resolution.bucketMs < bucketEnd sample.ts resolution.bucketMs :=
    lt_of_le_of_ne (bucketEnd_mono positive newer.le) different.symm
  have all : (samples ++ [sample]).filter (fun other =>
      bucketEnd other.ts resolution.bucketMs < bucketEnd sample.ts resolution.bucketMs) =
        samples := by
    rw [List.filter_append, List.filter_eq_self.mpr, List.filter_eq_nil_iff.mpr, List.append_nil]
    · simp
    · exact fun other member => by simpa using (reached other member).trans_lt past
  have split := (hostBuckets resolution.bucketMs maxGapPct).run_split i64Min
    (bucketEnd last resolution.bucketMs) (hostBuckets_ordered maxGapPct positive samplesOrdered)
  have final : samples.filter (fun other =>
      bucketEnd last resolution.bucketMs ≤ bucketEnd other.ts resolution.bucketMs) =
        samples.filter fun other =>
          bucketEnd other.ts resolution.bucketMs = bucketEnd last resolution.bucketMs :=
    List.filter_congr fun other member => by
      have := reached other member
      rw [decide_eq_decide]
      omega
  rw [elapsedRows_some ordered, elapsedRows_some samplesOrdered, all, ← final]
  exact split

end Appending

private theorem upsertAll_below {table : HostTable} {rows : List HostSample} (stop : Int)
    (below : ∀ row ∈ table.rows, row.ts < stop) (stamped : ∀ row ∈ rows, row.ts = stop)
    (single : rows.length ≤ 1) : (table.upsertAll rows).rows = table.rows ++ rows := by
  match rows with
  | [] => simp
  | [row] =>
      have fresh : ∀ other ∈ table.rows, other.ts < row.ts := fun other member =>
        stamped row List.mem_cons_self ▸ below other member
      rw [KeyedTable.upsertAll_cons, KeyedTable.upsertAll_nil]
      exact KeyedTable.rows_upsert_of_below fresh
  | first :: second :: rest => simp at single

/-- The row rolled up for a bucket goes after the rows of the earlier buckets. -/
theorem rows_upsertAll_bucket {table : HostTable} {samples : List HostSample} {last : Int}
    {resolution : MetricsResolution} {maxGapPct : Nat}
    (rows : table.rows = elapsedRows samples (some last) resolution maxGapPct) :
    (table.upsertAll (downsampleHost (samples.filter fun other =>
        bucketEnd other.ts resolution.bucketMs = bucketEnd last resolution.bucketMs)
        resolution maxGapPct)).rows =
      elapsedRows samples (some last) resolution maxGapPct ++
        downsampleHost (samples.filter fun other =>
          bucketEnd other.ts resolution.bucketMs = bucketEnd last resolution.bucketMs)
          resolution maxGapPct := by
  rw [← rows]
  rw [downsampleHost_bucket (bucketEnd last resolution.bucketMs)
    fun other member => by simpa using (List.mem_filter.mp member).2]
  refine upsertAll_below (bucketEnd last resolution.bucketMs) ?_ ?_ ?_
  · intro row member
    rw [rows] at member
    simpa using (List.mem_filter.mp member).2
  · exact fun row member => hostBuckets_finish_ts (Option.mem_toList.mp member)
  · cases (hostBuckets resolution.bucketMs maxGapPct).close _ _ <;> simp

theorem insertHost_fine {db after : MetricsDb} {sample : HostSample}
    (newer : ∀ earlier ∈ (db.host .tenSeconds).rows, earlier.ts < sample.ts)
    (succeeded : insertHost db .tenSeconds sample = .ok after) :
    HostSample.Storable sample ∧ (after.host .tenSeconds).rows =
        (db.host .tenSeconds).rows ++ [sample] ∧
      ∀ resolution ∈ MetricsResolution.coarse, after.host resolution = db.host resolution := by
  simp only [insertHost] at succeeded
  cases checked : checkColumns (hostColumns sample) with
  | error fault => simp [checked] at succeeded
  | ok _ =>
      have placed : insertRow .tenSeconds (db.host .tenSeconds) sample =
          some ((db.host .tenSeconds).upsert sample) := KeyedTable.insert?_of_below newer
      simp only [checked, placed, Except.ok.injEq] at succeeded
      subst succeeded
      refine ⟨checkColumns_ok_iff.mp checked, ?_, fun resolution coarse => ?_⟩
      · rw [MetricsDb.host_setHost, if_pos rfl]
        exact KeyedTable.rows_upsert_of_below newer
      · rw [MetricsDb.host_setHost, if_neg (coarse_ne_tenSeconds coarse)]

theorem storable_insertHost {db after : MetricsDb} {sample : HostSample}
    (storable : ∀ row ∈ (db.host .tenSeconds).rows, HostSample.Storable row)
    (newer : ∀ earlier ∈ (db.host .tenSeconds).rows, earlier.ts < sample.ts)
    (succeeded : insertHost db .tenSeconds sample = .ok after) :
    ∀ row ∈ (after.host .tenSeconds).rows, HostSample.Storable row := by
  obtain ⟨fits, fine, _⟩ := insertHost_fine newer succeeded
  rw [fine, List.forall_mem_append]
  exact ⟨storable, List.forall_mem_singleton.mpr fits⟩

theorem TracksHistory.start (maxGapPct : Nat) :
    TracksHistory maxGapPct [] (.connect .empty maxGapPct) where
  pct := rfl
  ordered := .nil
  storable := nofun
  fine := rfl
  cursor := rfl
  coarse := fun _ _ => by
    simp [elapsedRows, downsampleHost, SqliteMetricsStore.connect, MetricsDb.empty]

/-- One insert keeps the coarse tables in step with the history. -/
theorem TracksHistory.insert {maxGapPct : Nat} {samples : List HostSample}
    {store after : SqliteMetricsStore} {search : PartitionPoint} {sample : HostSample}
    (tracks : TracksHistory maxGapPct samples store)
    (newer : ∀ earlier ∈ samples, earlier.ts < sample.ts)
    (succeeded : store.insertHost search sample = (after, .ok ())) :
    TracksHistory maxGapPct (samples ++ [sample]) after := by
  have ordered : (samples ++ [sample]).Pairwise fun earlier later => earlier.ts < later.ts :=
    List.pairwise_append.mpr ⟨tracks.ordered, List.pairwise_singleton _ _, fun earlier member _ final =>
      List.mem_singleton.mp final ▸ newer earlier member⟩
  simp only [SqliteMetricsStore.insertHost] at succeeded
  cases written : Metrics.insertHost store.db .tenSeconds sample with
  | error fault => simp [written] at succeeded
  | ok db =>
      obtain ⟨_, fine, kept⟩ := insertHost_fine (tracks.fine ▸ newer) written
      rw [tracks.fine] at fine
      have storable : ∀ other ∈ samples ++ [sample], HostSample.Storable other := fine ▸
        storable_insertHost (tracks.fine ▸ tracks.storable) (tracks.fine ▸ newer) written
      cases newest : samples.getLast? with
      | none =>
          have empty : samples = [] := List.getLast?_eq_none_iff.mp newest
          subst empty
          simp only [written, SqliteMetricsStore.advance, tracks.cursor, List.getLast?_nil,
            Option.map_none, Option.filter_none, Prod.mk.injEq, and_true] at succeeded
          subst succeeded
          refine ⟨tracks.pct, ordered, storable, fine, rfl, fun resolution coarse => ?_⟩
          rw [kept resolution coarse, tracks.coarse resolution coarse, List.nil_append,
            List.getLast?_singleton, Option.map_some, elapsedRows_some (List.pairwise_singleton _ _)]
          simp [elapsedRows, downsampleHost]
      | some last =>
          have lastMember : last ∈ samples := List.mem_of_getLast? newest
          have reached : ∀ earlier ∈ samples, earlier.ts ≤ last.ts := fun earlier member =>
            Paging.Ascending.le_getLast? tracks.ordered newest member
          have moved : last.ts < sample.ts := newer last lastMember
          obtain ⟨rolled, result, -, closedTables, openTables⟩ :=
            rollUpHost_spec search db last.ts sample.ts store.downsampleMaxGapPct
              (fine ▸ storable)
          simp only [written, SqliteMetricsStore.advance, tracks.cursor, newest, Option.map_some,
            Option.filter_some, moved, decide_true, ↓reduceIte, result,
            SqliteMetricsStore.logRollupError, Prod.mk.injEq, and_true] at succeeded
          subst succeeded
          have tenSeconds : rolled.host .tenSeconds = db.host .tenSeconds :=
            openTables _ (tenSeconds_not_closed _ _)
          refine ⟨tracks.pct, ordered, storable, by rw [tenSeconds, fine], by simp,
            fun resolution coarse => ?_⟩
          have before : (db.host resolution).rows =
              elapsedRows samples (some last.ts) resolution maxGapPct := by
            rw [kept resolution coarse, tracks.coarse resolution coarse, newest, Option.map_some]
          rw [List.getLast?_concat, Option.map_some]
          by_cases same :
              bucketEnd sample.ts resolution.bucketMs = bucketEnd last.ts resolution.bucketMs
          · rw [elapsedRows_append_open ordered same, ← before, openTables]
            rw [mem_closed_resolutions]
            exact fun closes => closes.2 same
          · have closed : (resolution, bucketEnd last.ts resolution.bucketMs) ∈
                resolutionsClosedBy last.ts sample.ts :=
              mem_resolutionsClosedBy.mpr ⟨coarse, rfl, same⟩
            have bucket : hostBucketRows db resolution (bucketEnd last.ts resolution.bucketMs) =
                samples.filter fun other =>
                  bucketEnd other.ts resolution.bucketMs =
                    bucketEnd last.ts resolution.bucketMs := by
              simp [hostBucketRows, fine, same]
            rw [closedTables _ closed, bucket, tracks.pct, rows_upsertAll_bucket before,
              elapsedRows_append_closed ordered reached moved same]

theorem HostRun.tracks {search : PartitionPoint} {maxGapPct : Nat} {events : List HostEvent}
    {store : SqliteMetricsStore} (run : HostRun search maxGapPct events store) :
    TracksHistory maxGapPct (inserted events) store := by
  induction run with
  | start => exact .start maxGapPct
  | insert _ newer _ succeeded ih =>
      rw [inserted_insert]
      exact ih.insert newer succeeded
  | restart _ ih =>
      rw [inserted_restart]
      exact ih.connect

/-- The coarse tables are the `10s` history downsampled up to the buckets still open,
wherever the restarts were and however long the gaps between inserts. -/
theorem coarse_tables_eq_history {search : PartitionPoint} {maxGapPct : Nat}
    {events : List HostEvent} {store : SqliteMetricsStore}
    (run : HostRun search maxGapPct events store) {last : HostSample}
    (newest : (inserted events).getLast? = some last) {resolution : MetricsResolution}
    (coarse : resolution ∈ MetricsResolution.coarse) :
    (store.db.host .tenSeconds).rows = inserted events ∧
      (store.db.host resolution).rows =
        (downsampleHost (inserted events) resolution maxGapPct).filter fun point =>
          point.ts < bucketEnd last.ts resolution.bucketMs := by
  have tracks := run.tracks
  refine ⟨tracks.fine, ?_⟩
  rw [tracks.coarse resolution coarse, newest]
  rfl

def idleHost (ts : Int) : HostSample where
  ts
  cpuPctMill := 0
  memUsed := 0
  storageUsed := 0
  metricsSize := 0
  logsSize := 0
  netRxRateMill := none
  netTxRateMill := none
  diskReadRateMill := none
  diskWriteRateMill := none
  logPressurePctMill := none
  appRssBytes := none

theorem coarse_tables_across_restart : ∃ store,
    HostRun .binarySearch 100
        ([.insert (idleHost 60000)] ++ [.restart] ++ [.insert (idleHost 130000)]) store ∧
      (store.db.host .oneMinute).rows = [idleHost 60000] := by
  have first : HostRun .binarySearch 100 ([] ++ [.insert (idleHost 60000)]) _ :=
    .insert .start nofun (by decide) (Prod.ext rfl rfl)
  have second : HostRun .binarySearch 100
      ([] ++ [.insert (idleHost 60000)] ++ [.restart] ++ [.insert (idleHost 130000)]) _ :=
    .insert first.restart (by decide) (by decide) (Prod.ext rfl rfl)
  exact ⟨_, second, (coarse_tables_eq_history second rfl (by decide)).2.trans (by decide)⟩

end Vpsiner.Metrics
