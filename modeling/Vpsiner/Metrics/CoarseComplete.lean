import Vpsiner.Metrics.ContainerRollupFailures

/-! Runs of inserts, rollups that end early and restarts, and the coarse buckets they leave. -/

set_option autoImplicit false

namespace Vpsiner.Metrics

open Lib

structure Tracks (maxGapPct : Nat) (store : SqliteMetricsStore) : Prop where
  host : TracksHistory maxGapPct (store.db.host .tenSeconds).rows store
  containers : TracksContainers maxGapPct store

theorem insertHost_containers {db after : MetricsDb} {resolution : MetricsResolution}
    {sample : HostSample} (written : insertHost db resolution sample = .ok after) :
    after.containers = db.containers := by
  rw [insertHost] at written
  split at written
  · cases written
  · split at written
    · cases written
    · cases written
      rfl

theorem insertHostFated_frame (search : PartitionPoint) {store : SqliteMetricsStore}
    {sample : HostSample} {fate : RollupFate}
    (storable : ∀ row ∈ (store.db.host .tenSeconds).rows, HostSample.Storable row)
    (newer : ∀ row ∈ (store.db.host .tenSeconds).rows, row.ts < sample.ts)
    (reaches : ∀ previous ∈ store.lastHostTs,
      fate.Reaches (dueHost store.db previous sample.ts store.downsampleMaxGapPct).length) :
    (store.insertHostFated search sample fate).1.db.containers = store.db.containers ∧
      (store.insertHostFated search sample fate).1.lastContainersTs = store.lastContainersTs := by
  rw [insertHostFated_reaches storable newer reaches, SqliteMetricsStore.insertHost]
  cases written : insertHost store.db .tenSeconds sample with
  | error fault => exact ⟨rfl, rfl⟩
  | ok db =>
      cases moved : (SqliteMetricsStore.advance store.lastHostTs sample.ts).1 with
      | none =>
          simp only [moved]
          exact ⟨insertHost_containers written, trivial⟩
      | some previous =>
          obtain ⟨rolled, result, containers, _⟩ := rollUpHost_spec search db previous sample.ts
            store.downsampleMaxGapPct (storable_insertHost storable newer written)
          simp only [moved, result]
          exact ⟨containers.trans (insertHost_containers written), trivial⟩

theorem TracksContainers.congr {maxGapPct : Nat} {before after : SqliteMetricsStore}
    (tracks : TracksContainers maxGapPct before) (pct : after.downsampleMaxGapPct = maxGapPct)
    (containers : after.db.containers = before.db.containers)
    (cursor : after.lastContainersTs = before.lastContainersTs) :
    TracksContainers maxGapPct after where
  pct := pct
  storable := by
    rw [containers]
    exact tracks.storable
  cursor := by
    rw [cursor, tracks.cursor, selectContainersMaxTs, selectContainersMaxTs, containers]
  complete := by
    simp only [containerWindow, containers]
    exact tracks.complete

theorem TracksHistory.congr {maxGapPct : Nat} {samples : List HostSample}
    {before after : SqliteMetricsStore} (tracks : TracksHistory maxGapPct samples before)
    (pct : after.downsampleMaxGapPct = maxGapPct) (host : after.db.host = before.db.host)
    (cursor : after.lastHostTs = before.lastHostTs) : TracksHistory maxGapPct samples after where
  pct := pct
  ordered := tracks.ordered
  storable := tracks.storable
  fine := by rw [host, tracks.fine]
  cursor := by rw [cursor, tracks.cursor]
  coarse := by
    rw [host]
    exact tracks.coarse

theorem Tracks.step {search : PartitionPoint} {maxGapPct : Nat} {before after : SqliteMetricsStore}
    {event : MetricsEvent} (tracks : Tracks maxGapPct before) (reach : RollupsReach before event)
    (stepped : metricsStep search before event = some after) : Tracks maxGapPct after := by
  obtain ⟨increasing, reaches⟩ := reach
  cases event with
  | insertHost sample fate =>
      cases stepped
      have host := tracks.host.insertFated search increasing.2 reaches
      obtain ⟨containers, cursor⟩ := insertHostFated_frame search
        tracks.host.storable increasing.2 reaches
      exact ⟨host, tracks.containers.congr host.pct containers cursor⟩
  | insertContainers order samples fate =>
      cases stepped
      obtain ⟨ts, _, stamped, newer⟩ := increasing
      obtain ⟨containers, host, cursor⟩ :=
        tracks.containers.insertFated search order stamped newer reaches
      refine ⟨?_, containers⟩
      rw [host]
      exact tracks.host.congr containers.pct host cursor
  | restart =>
      cases stepped
      refine ⟨?_, ?_⟩
      · rw [tracks.host.pct]
        exact tracks.host.connect
      · exact ⟨tracks.host.pct, tracks.containers.storable, rfl, tracks.containers.complete⟩

/-- While every rollup that ends early has written all its rows, no elapsed bucket is missing. -/
theorem coarse_complete (search : PartitionPoint) (maxGapPct : Nat) {store : SqliteMetricsStore}
    (reached : (metricsMachine search maxGapPct).Reachable RollupsReach store) :
    CoarseComplete maxGapPct store.db := by
  have tracks : Tracks maxGapPct store := by
    refine reached.invariant (Tracks maxGapPct) ?_ Tracks.step
    refine ⟨.start maxGapPct, ⟨rfl, ?_, rfl, ?_⟩⟩
    · intro sample member
      cases member
    · intro resolution _ earlier member
      cases member
  refine ⟨?_, tracks.containers.complete⟩
  intro resolution coarse earlier earlierMember last lastMember elapsed row due
  exact host_of_tracksHistory tracks.host coarse earlierMember lastMember elapsed due

/-! ## Two runs -/

/-- A rollup that is not cut off, by an insert that is not a restart. -/
def MetricsEvent.Completes : MetricsEvent → Prop
  | .insertHost _ fate => fate = .completes
  | .insertContainers _ _ fate => fate = .completes
  | .restart => False

def Recovers (events : List MetricsEvent) : Prop :=
  ∃ earlier later, events = earlier ++ later ∧ later ≠ [] ∧ ∀ event ∈ later, event.Completes

def increasingOk (store : SqliteMetricsStore) : MetricsEvent → Bool
  | .insertHost sample _ => decide (-2 ^ 62 < sample.ts ∧ sample.ts < 2 ^ 62) &&
      (store.db.host .tenSeconds).rows.all fun row => decide (row.ts < sample.ts)
  | .insertContainers _ samples _ => samples.head?.any fun first =>
      decide (-2 ^ 62 < first.ts ∧ first.ts < 2 ^ 62) &&
        samples.all (fun sample => decide (sample.ts = first.ts)) &&
          (store.db.containers .tenSeconds).rows.all fun row => decide (row.ts < first.ts)
  | .restart => true

theorem increasing_of_ok (store : SqliteMetricsStore) (event : MetricsEvent)
    (ok : increasingOk store event = true) : Increasing store event := by
  cases event with
  | insertHost sample fate =>
      rw [increasingOk, Bool.and_eq_true, decide_eq_true_eq, List.all_eq_true] at ok
      exact ⟨ok.1, fun row member => of_decide_eq_true (ok.2 row member)⟩
  | insertContainers order samples fate =>
      obtain ⟨first, _, checked⟩ := (Option.any_eq_true _ _).mp ok
      rw [Bool.and_eq_true, Bool.and_eq_true, decide_eq_true_eq, List.all_eq_true,
        List.all_eq_true] at checked
      exact ⟨first.ts, checked.1.1, fun sample member => of_decide_eq_true (checked.1.2 sample member),
        fun row member => of_decide_eq_true (checked.2 row member)⟩
  | restart => trivial

def RollupFate.reachesOk (writes : Nat) : RollupFate → Bool
  | .completes => true
  | .ends statements _ => decide (writes < statements)

/-- Rows fetched in the order of time are cut cleanly. -/
def fetchOk (db : MetricsDb) (previousTs newTs : Int) : Bool :=
  (widestSourceRange (resolutionsClosedBy previousTs newTs)).all fun fetchRange =>
    decide ((selectContainers db .tenSeconds fetchRange).Pairwise
      fun earlier later => earlier.ts ≤ later.ts)

def rollupsReachOk (store : SqliteMetricsStore) (event : MetricsEvent) : Bool :=
  increasingOk store event &&
    match event with
    | .insertHost sample fate => store.lastHostTs.all fun previous =>
        fate.reachesOk (dueHost store.db previous sample.ts store.downsampleMaxGapPct).length
    | .insertContainers _ samples fate => store.lastContainersTs.all fun previous =>
        (samples.map ContainerSample.ts).max?.all fun ts => fetchOk store.db previous ts &&
          fate.reachesOk (dueContainers store.db previous ts store.downsampleMaxGapPct).length
    | .restart => true

theorem RollupFate.reaches_of_ok {writes : Nat} {fate : RollupFate}
    (ok : fate.reachesOk writes = true) : fate.Reaches writes := by
  intro statements fault same
  subst same
  exact .inr (of_decide_eq_true ok)

theorem fetchCutsCleanly_of_ok {db : MetricsDb} {previousTs newTs : Int}
    (ok : fetchOk db previousTs newTs = true) : FetchCutsCleanly db previousTs newTs := by
  intro fetchRange found resolution _ _
  exact cutsCleanly_of_sorted (of_decide_eq_true ((Option.all_eq_true _ _).mp ok fetchRange found))

theorem rollupsReach_of_ok (store : SqliteMetricsStore) (event : MetricsEvent)
    (ok : rollupsReachOk store event = true) : RollupsReach store event := by
  cases event with
  | insertHost sample fate =>
      obtain ⟨increasing, reaches⟩ := Bool.and_eq_true_iff.mp ok
      refine ⟨increasing_of_ok store _ increasing, fun previous known => ?_⟩
      exact RollupFate.reaches_of_ok ((Option.all_eq_true _ _).mp reaches previous known)
  | insertContainers order samples fate =>
      obtain ⟨increasing, reaches⟩ := Bool.and_eq_true_iff.mp ok
      refine ⟨increasing_of_ok store _ increasing, fun previous known ts newest => ?_⟩
      have checked := (Option.all_eq_true _ _).mp
        ((Option.all_eq_true _ _).mp reaches previous known) ts newest
      rw [Bool.and_eq_true] at checked
      exact ⟨fetchCutsCleanly_of_ok checked.1, RollupFate.reaches_of_ok checked.2⟩
  | restart => exact ⟨trivial, trivial⟩

/-- The rollups fetch and write one row each; the process then stops and restarts. -/
def stopsAfterWrites : List MetricsEvent := [
  .insertHost (idleHost 60000) .completes,
  .insertContainers .unchanged [idleContainer 1 60000] .completes,
  .insertHost (idleHost 70000) (.ends 2 (storage "disk I/O error")), .restart,
  .insertContainers .unchanged [idleContainer 1 70000] (.ends 2 (storage "disk I/O error")),
  .restart]

theorem coarse_complete_across_restart : ∃ store : SqliteMetricsStore,
    (store.db.host .oneMinute).rows = [idleHost 60000] ∧
      (store.db.containers .oneMinute).rows = [idleContainer 1 60000] ∧
        CoarseComplete 100 store.db := by
  have done : ((metricsMachine .binarySearch 100).run rollupsReachOk (.connect .empty 100)
      stopsAfterWrites).map (fun store =>
        ((store.db.host .oneMinute).rows, (store.db.containers .oneMinute).rows)) =
      some ([idleHost 60000], [idleContainer 1 60000]) := by decide
  obtain ⟨store, taken, rows⟩ := Option.map_eq_some_iff.mp done
  obtain ⟨host, containers⟩ := Prod.mk.inj rows
  exact ⟨store, host, containers, coarse_complete .binarySearch 100
    (Machine.Reachable.start.run rollupsReach_of_ok taken)⟩

/-- The fetch fails when the first minute closes; the second minute is rolled up again. -/
def failsAtFetch : List MetricsEvent := [
  .insertHost (idleHost 60000) .completes,
  .insertHost (idleHost 70000) (.ends 0 (storage "database is locked")),
  .insertHost (idleHost 120000) .completes, .insertHost (idleHost 130000) .completes]

theorem failed_rollup_loses_bucket :
    ¬ ∀ (search : PartitionPoint) (maxGapPct : Nat) (events : List MetricsEvent)
        (store : SqliteMetricsStore),
        (metricsMachine search maxGapPct).Trace Increasing events store → Recovers events →
          CoarseComplete maxGapPct store.db := by
  intro always
  have done : ((metricsMachine .binarySearch 100).run increasingOk (.connect .empty 100)
      failsAtFetch).map (fun store =>
        ((store.db.host .tenSeconds).rows, (store.db.host .oneMinute).rows)) =
      some ([idleHost 60000, idleHost 70000, idleHost 120000, idleHost 130000],
        [idleHost 120000]) := by decide
  obtain ⟨store, taken, rows⟩ := Option.map_eq_some_iff.mp done
  obtain ⟨fine, coarse⟩ := Prod.mk.inj rows
  have recovers : Recovers failsAtFetch := by
    refine ⟨failsAtFetch.take 2, failsAtFetch.drop 2, (List.take_append_drop 2 _).symm, ?_, ?_⟩
    · exact List.cons_ne_nil _ _
    · intro event member
      obtain rfl | rfl := List.mem_pair.mp member
      · rfl
      · rfl
  have complete := always .binarySearch 100 failsAtFetch store
    (Machine.Trace.start.run increasing_of_ok taken) recovers
  have written := complete.host .oneMinute (by decide) (idleHost 60000) (by rw [fine]; decide)
    (idleHost 130000) (by rw [fine]; decide) (by decide) (idleHost 60000)
    (by rw [hostBucketRows, fine]; decide)
  rw [coarse] at written
  revert written
  decide

end Vpsiner.Metrics
