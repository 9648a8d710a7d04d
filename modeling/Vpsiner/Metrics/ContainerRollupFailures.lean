import Vpsiner.Metrics.RollupFailuresProperties

/-! Container rollups that end early. Each closed resolution with rows is one transaction. -/

set_option autoImplicit false

namespace Vpsiner.Metrics

open Lib

theorem foldlM_insertRow_tenSeconds {κ ρ : Type} [LinearOrder κ] {key : ρ → κ} {rows : List ρ}
    {table after : KeyedTable key} (written : rows.foldlM (insertRow .tenSeconds) table = some after)
    {row : ρ} : row ∈ after.rows ↔ row ∈ table.rows ∨ row ∈ rows := by
  induction rows generalizing table with
  | nil =>
      cases written
      simp
  | cons first rest ih =>
      rw [List.foldlM_cons] at written
      obtain ⟨next, inserted, later⟩ := Option.bind_eq_some_iff.mp written
      rw [insertRow, KeyedTable.insert?] at inserted
      split at inserted
      · cases inserted
      · next fresh =>
          cases inserted
          have absent : table.find? (key first) = none := Option.not_isSome_iff_eq_none.mp fresh
          rw [ih later, KeyedTable.mem_rows_upsert, List.mem_cons]
          constructor
          · intro member
            obtain (same | old) | new := member
            · exact .inr (.inl same)
            · exact .inl old.1
            · exact .inr (.inr new)
          · intro member
            obtain old | same | new := member
            · exact .inl (.inr ⟨old, KeyedTable.find?_eq_none_iff.mp absent row old⟩)
            · exact .inl (.inl same)
            · exact .inr new

theorem insertContainers_fine {db after : MetricsDb} {samples : List ContainerSample}
    (succeeded : insertContainers db .tenSeconds samples = .ok after) :
    (∀ sample ∈ samples, ContainerSample.Storable sample) ∧ after.host = db.host ∧
      (∀ row, row ∈ (after.containers .tenSeconds).rows ↔
        row ∈ (db.containers .tenSeconds).rows ∨ row ∈ samples) ∧
      ∀ resolution ∈ MetricsResolution.coarse,
        after.containers resolution = db.containers resolution := by
  rw [insertContainers] at succeeded
  split at succeeded
  · next empty =>
      cases succeeded
      rw [List.isEmpty_iff.mp empty]
      refine ⟨?_, rfl, ?_, fun _ _ => rfl⟩
      · intro sample member
        cases member
      · intro row
        simp
  · cases checked : checkSamples samples with
    | error fault => simp [checked] at succeeded
    | ok _ =>
        cases written : samples.foldlM (insertRow .tenSeconds) (db.containers .tenSeconds) with
        | none => simp [checked, written] at succeeded
        | some table =>
            simp only [checked, written, Except.ok.injEq] at succeeded
            subst succeeded
            refine ⟨checkSamples_ok_iff.mp checked, rfl, ?_, ?_⟩
            · intro row
              rw [MetricsDb.containers_setContainers, if_pos rfl]
              exact foldlM_insertRow_tenSeconds written
            · intro resolution coarse
              rw [MetricsDb.containers_setContainers, if_neg (coarse_ne_tenSeconds coarse)]

/-- Tables that agree on the rows that are kept keep the same list of rows. -/
theorem filter_rows_congr {left right : ContainerTable} {keep : ContainerSample → Bool}
    (same : ∀ row, keep row = true → (row ∈ left.rows ↔ row ∈ right.rows)) :
    left.rows.filter keep = right.rows.filter keep := by
  refine Paging.Ascending.eq_of_mem_iff (left.ordered.filter _) (right.ordered.filter _) ?_
  intro row
  rw [List.mem_filter, List.mem_filter]
  exact and_congr_left fun kept => same row kept

theorem fetchRange_before {previousTs newTs : Int} {fetchRange : TimeRange}
    (moved : previousTs < newTs)
    (found : widestSourceRange (resolutionsClosedBy previousTs newTs) = some fetchRange) :
    fetchRange.toMs < newTs := by
  obtain ⟨entry, best, rfl⟩ := Option.map_eq_some_iff.mp found
  exact bucketEnd_lt_of_closed moved (widest_mem best).1

/-- Rows at the new time do not disturb the cuts. -/
theorem FetchCutsCleanly.of_newer {db after : MetricsDb} {previousTs newTs : Int}
    (clean : FetchCutsCleanly db previousTs newTs) (moved : previousTs < newTs)
    (rows : ∀ row : ContainerSample, row.ts < newTs →
      (row ∈ (after.containers .tenSeconds).rows ↔ row ∈ (db.containers .tenSeconds).rows)) :
    FetchCutsCleanly after previousTs newTs := by
  intro fetchRange found resolution coarse different
  have before := fetchRange_before moved found
  have same : selectContainers after .tenSeconds fetchRange =
      selectContainers db .tenSeconds fetchRange := by
    rw [selectContainers, selectContainers, KeyedTable.select, KeyedTable.select]
    congr 1
    apply filter_rows_congr
    intro row inside
    exact rows row ((TimeRange.contains_iff.mp inside).2.trans_lt before)
  rw [same]
  exact clean fetchRange found resolution coarse different

theorem rollUpContainersClosed_host {search : PartitionPoint} {order : HashOrder}
    {samples : List ContainerSample} {maxGapPct : Nat} {closed : List (MetricsResolution × Int)}
    (coarse : ∀ entry ∈ closed, entry.1 ∈ MetricsResolution.coarse) {db after : MetricsDb}
    (succeeded : rollUpContainersClosed search order samples maxGapPct closed db =
      (after, .ok ())) : after.host = db.host := by
  induction closed generalizing db with
  | nil =>
      cases succeeded
      rfl
  | cons entry rest ih =>
      rw [rollUpContainersClosed] at succeeded
      split at succeeded
      · cases succeeded
      · split at succeeded
        · cases succeeded
        · next inserted =>
            rw [ih (fun other member => coarse other (List.mem_cons_of_mem _ member)) succeeded,
              insertContainers_ok_coarse (coarse_ne_tenSeconds (coarse _ List.mem_cons_self))
                inserted, MetricsDb.host_setContainers]

def closedSlice (db : MetricsDb) (fetchRange : TimeRange) (entry : MetricsResolution × Int) :
    List ContainerSample :=
  (selectContainers db .tenSeconds fetchRange).filter fun sample =>
    (sourceRange entry.2 entry.1).contains sample.ts

theorem mem_rolled_closedSlice {db : MetricsDb} {previousTs newTs : Int} {fetchRange : TimeRange}
    (found : widestSourceRange (resolutionsClosedBy previousTs newTs) = some fetchRange)
    {entry : MetricsResolution × Int} (closed : entry ∈ resolutionsClosedBy previousTs newTs)
    {order : HashOrder} {maxGapPct : Nat} {point : ContainerSample} :
    point ∈ rolledContainers order (closedSlice db fetchRange entry) entry.1 maxGapPct ↔
      point ∈ downsampleContainer (containerWindow db entry.1 entry.2 point.cid) entry.1
        maxGapPct := by
  rw [closedSlice, mem_rolledContainers
    ((pairwise_selectContainers db .tenSeconds fetchRange).filter _)
    ((nodup_selectContainers db .tenSeconds fetchRange).sublist
      (List.filter_sublist.map containerKey)), filter_fetched_eq_window found closed]

theorem mem_containerWindow {db : MetricsDb} {resolution : MetricsResolution} {stop : Int}
    {cid : ContainerId} {sample : ContainerSample} :
    sample ∈ containerWindow db resolution stop cid ↔
      sample ∈ (db.containers .tenSeconds).rows ∧ sample.cid = cid ∧
        stop - resolution.bucketMs < sample.ts ∧ sample.ts ≤ stop := by
  rw [containerWindow, List.mem_filter, decide_eq_true_eq]

theorem ordered_containerWindow (db : MetricsDb) (resolution : MetricsResolution) (stop : Int)
    (cid : ContainerId) : (containerWindow db resolution stop cid).Pairwise
      fun earlier later => earlier.ts < later.ts := by
  refine ((db.containers .tenSeconds).ordered.filter _).imp_of_mem ?_
  intro earlier later earlierMember laterMember below
  have sameCid : earlier.cid = later.cid :=
    (mem_containerWindow.mp earlierMember).2.1.trans (mem_containerWindow.mp laterMember).2.1.symm
  cases Prod.Lex.toLex_lt_toLex.mp below with
  | inl less => exact less
  | inr tied => exact absurd sameCid tied.2.ne

theorem cid_of_due {db : MetricsDb} {resolution : MetricsResolution} {stop : Int}
    {cid : ContainerId} {maxGapPct : Nat} {point : ContainerSample}
    (due : point ∈ downsampleContainer (containerWindow db resolution stop cid) resolution
      maxGapPct) : point.cid = cid :=
  downsampleContainer_cid (ordered_containerWindow db resolution stop cid)
    (fun _ member => (mem_containerWindow.mp member).2.1) point due

/-- A resolution has rows to write whenever some container is due one. -/
theorem rolled_isEmpty_iff {db : MetricsDb} {previousTs newTs : Int} {fetchRange : TimeRange}
    (found : widestSourceRange (resolutionsClosedBy previousTs newTs) = some fetchRange)
    {entry : MetricsResolution × Int} (closed : entry ∈ resolutionsClosedBy previousTs newTs)
    (order : HashOrder) (maxGapPct : Nat) :
    (!(rolledContainers order (closedSlice db fetchRange entry) entry.1 maxGapPct).isEmpty) =
      (db.containers .tenSeconds).rows.any fun sample =>
        !(downsampleContainer (containerWindow db entry.1 entry.2 sample.cid) entry.1
          maxGapPct).isEmpty := by
  rw [Bool.eq_iff_iff, List.any_eq_true]
  simp only [Bool.not_eq_true', List.isEmpty_eq_false_iff_exists_mem]
  constructor
  · intro written
    obtain ⟨point, member⟩ := written
    rw [mem_rolled_closedSlice found closed] at member
    obtain ⟨sample, present, _⟩ := mem_downsampleContainer_ts member
    obtain ⟨stored, same, _⟩ := mem_containerWindow.mp present
    exact ⟨sample, stored, point, same ▸ member⟩
  · intro due
    obtain ⟨sample, _, point, member⟩ := due
    refine ⟨point, (mem_rolled_closedSlice found closed).mpr ?_⟩
    rwa [cid_of_due member]

theorem storable_rolled {db : MetricsDb} {previousTs newTs : Int} {fetchRange : TimeRange}
    (found : widestSourceRange (resolutionsClosedBy previousTs newTs) = some fetchRange)
    (storable : ∀ sample ∈ (db.containers .tenSeconds).rows, ContainerSample.Storable sample)
    {entry : MetricsResolution × Int} (closed : entry ∈ resolutionsClosedBy previousTs newTs)
    {order : HashOrder} {maxGapPct : Nat} :
    ∀ row ∈ rolledContainers order (closedSlice db fetchRange entry) entry.1 maxGapPct,
      ContainerSample.Storable row := by
  intro row member
  rw [mem_rolled_closedSlice found closed] at member
  exact downsampleContainer_within (ordered_containerWindow db _ _ _)
    (fun sample present => storable sample (mem_containerWindow.mp present).1) row member

theorem rollUpContainersClosedUpTo_reaches (fault : Fault) (search : PartitionPoint)
    (order : HashOrder) {samples : List ContainerSample} {maxGapPct : Nat}
    (slice : MetricsResolution × Int → List ContainerSample)
    {closed : List (MetricsResolution × Int)}
    (coarse : ∀ entry ∈ closed, entry.1 ∈ MetricsResolution.coarse)
    (cut : ∀ entry ∈ closed,
      sliceByRange search samples (sourceRange entry.2 entry.1) ContainerSample.ts =
        .ok (slice entry))
    (storable : ∀ entry ∈ closed, ∀ row ∈ rolledContainers order (slice entry) entry.1 maxGapPct,
      ContainerSample.Storable row) {left : Nat}
    (enough : (closed.filter fun entry =>
      !(rolledContainers order (slice entry) entry.1 maxGapPct).isEmpty).length ≤ left)
    (db : MetricsDb) :
    (rollUpContainersClosedUpTo fault search order samples maxGapPct closed left db).1 =
      (rollUpContainersClosed search order samples maxGapPct closed db).1 := by
  induction closed generalizing left db with
  | nil => rfl
  | cons entry rest ih =>
      obtain ⟨resolution, stop⟩ := entry
      have later := @ih (fun other member => coarse other (List.mem_cons_of_mem _ member))
        (fun other member => cut other (List.mem_cons_of_mem _ member))
        (fun other member => storable other (List.mem_cons_of_mem _ member))
      have fits := storable _ List.mem_cons_self
      have first := coarse_ne_tenSeconds (coarse _ List.mem_cons_self)
      rw [rollUpContainersClosedUpTo, rollUpContainersClosed, cut _ List.mem_cons_self]
      rw [List.filter_cons] at enough
      simp only
      cases rows : rolledContainers order (slice (resolution, stop)) resolution maxGapPct with
      | nil =>
          rw [rows] at enough
          exact later enough db
      | cons row more =>
          rw [rows] at enough fits
          cases left with
          | zero => cases enough
          | succ left =>
              simp only [insertContainers_coarse first fits]
              exact later (Nat.le_of_succ_le_succ enough) _

theorem rollUpContainers_spec (search : PartitionPoint) (order : HashOrder) (maxGapPct : Nat)
    {db : MetricsDb} {previousTs newTs : Int} (clean : FetchCutsCleanly db previousTs newTs)
    (storable : ∀ sample ∈ (db.containers .tenSeconds).rows, ContainerSample.Storable sample) :
    ∃ after, rollUpContainers search order db previousTs newTs maxGapPct = (after, .ok ()) ∧
      after.host = db.host ∧
      (dueContainers db previousTs newTs maxGapPct = [] → after = db) ∧
      ∀ resolution ∉ (resolutionsClosedBy previousTs newTs).map Prod.fst,
        after.containers resolution = db.containers resolution := by
  cases found : widestSourceRange (resolutionsClosedBy previousTs newTs) with
  | none =>
      refine ⟨db, ?_, rfl, fun _ => rfl, fun _ _ => rfl⟩
      simp only [rollUpContainers, found]
  | some fetchRange =>
      have coarse : ∀ entry ∈ resolutionsClosedBy previousTs newTs,
          entry.1 ∈ MetricsResolution.coarse :=
        fun entry member => (mem_resolutionsClosedBy.mp member).1
      have cut : ∀ entry ∈ resolutionsClosedBy previousTs newTs, _ :=
        fun entry member => slice_selectContainers clean search found member
      obtain ⟨after, result⟩ := rollUpContainersClosed_ok coarse cut
        (fun entry member => storable_rolled found storable member) db
      obtain ⟨written, kept⟩ := rollUpContainersClosed_spec
        (nodup_resolutionsClosedBy previousTs newTs) coarse cut result
      have host := rollUpContainersClosed_host coarse result
      refine ⟨after, ?_, host, fun idle => ?_, kept⟩
      · simp only [rollUpContainers, found]
        exact result
      · refine MetricsDb.ext_tables (fun resolution => congrFun host resolution) ?_
        funext resolution
        by_cases closed : resolution ∈ (resolutionsClosedBy previousTs newTs).map Prod.fst
        · obtain ⟨entry, member, rfl⟩ := List.mem_map.mp closed
          have nothing : rolledContainers order (closedSlice db fetchRange entry) entry.1
              maxGapPct = [] := by
            have none := List.filter_eq_nil_iff.mp idle entry member
            rw [← rolled_isEmpty_iff found member order] at none
            simpa using none
          exact (written entry member).trans
            ((congrArg _ nothing).trans (KeyedTable.upsertAll_nil _))
        · exact kept resolution closed

theorem rollUpContainersFated_reaches (search : PartitionPoint) (order : HashOrder)
    {db : MetricsDb} {previousTs newTs : Int} {maxGapPct : Nat} {fate : RollupFate}
    (clean : FetchCutsCleanly db previousTs newTs)
    (storable : ∀ sample ∈ (db.containers .tenSeconds).rows, ContainerSample.Storable sample)
    (reaches : fate.Reaches (dueContainers db previousTs newTs maxGapPct).length) :
    (rollUpContainersFated search order db previousTs newTs maxGapPct fate).1 =
      (rollUpContainers search order db previousTs newTs maxGapPct).1 := by
  cases fate with
  | completes => rfl
  | ends statements fault =>
      have far := reaches statements fault rfl
      cases found : widestSourceRange (resolutionsClosedBy previousTs newTs) with
      | none => simp only [rollUpContainersFated, rollUpContainers, found]
      | some fetchRange =>
          cases statements with
          | zero =>
              have idle := List.length_eq_zero_iff.mp (far.resolve_right (Nat.not_lt_zero _))
              obtain ⟨after, result, _, unchanged, _⟩ :=
                rollUpContainers_spec search order maxGapPct clean storable
              rw [result, unchanged idle]
              simp only [rollUpContainersFated, found]
          | succ left =>
              simp only [rollUpContainersFated, rollUpContainers, found]
              apply rollUpContainersClosedUpTo_reaches fault search order
                (closedSlice db fetchRange)
                (fun entry member => (mem_resolutionsClosedBy.mp member).1)
                (fun entry member => slice_selectContainers clean search found member)
                (fun entry member => storable_rolled found storable member)
              rw [List.filter_congr fun entry member =>
                rolled_isEmpty_iff found member order maxGapPct]
              exact far.elim (fun none => none.trans_le (Nat.zero_le _)) Nat.le_of_lt_succ

structure TracksContainers (maxGapPct : Nat) (store : SqliteMetricsStore) : Prop where
  pct : store.downsampleMaxGapPct = maxGapPct
  storable : ∀ sample ∈ (store.db.containers .tenSeconds).rows, ContainerSample.Storable sample
  cursor : store.lastContainersTs = selectContainersMaxTs store.db .tenSeconds
  complete : ∀ resolution ∈ MetricsResolution.coarse,
    ∀ earlier ∈ (store.db.containers .tenSeconds).rows,
      ∀ last ∈ (store.db.containers .tenSeconds).rows,
        bucketEnd earlier.ts resolution.bucketMs < bucketEnd last.ts resolution.bucketMs →
          ∀ cid, ∀ row ∈ downsampleContainer (containerWindow store.db resolution
              (bucketEnd earlier.ts resolution.bucketMs) cid) resolution maxGapPct,
            row ∈ (store.db.containers resolution).rows

/-- The windows of the buckets before the new rows do not change. -/
theorem containerWindow_of_newer {db after : MetricsDb} {newTs stop : Int}
    (rows : ∀ row : ContainerSample, row.ts < newTs →
      (row ∈ (after.containers .tenSeconds).rows ↔ row ∈ (db.containers .tenSeconds).rows))
    (before : stop < newTs) (resolution : MetricsResolution) (cid : ContainerId) :
    containerWindow after resolution stop cid = containerWindow db resolution stop cid := by
  apply filter_rows_congr
  intro row inside
  exact rows row ((of_decide_eq_true inside).2.2.trans_lt before)

theorem dueContainers_of_newer {db after : MetricsDb} {previousTs newTs : Int} {maxGapPct : Nat}
    (moved : previousTs < newTs)
    (rows : ∀ row : ContainerSample, row.ts < newTs →
      (row ∈ (after.containers .tenSeconds).rows ↔ row ∈ (db.containers .tenSeconds).rows)) :
    dueContainers after previousTs newTs maxGapPct = dueContainers db previousTs newTs maxGapPct := by
  refine List.filter_congr fun entry closed => ?_
  have before := bucketEnd_lt_of_closed moved closed
  rw [Bool.eq_iff_iff, List.any_eq_true, List.any_eq_true]
  simp only [containerWindow_of_newer rows before, Bool.not_eq_true',
    List.isEmpty_eq_false_iff_exists_mem]
  constructor
  · intro due
    obtain ⟨_, _, point, member⟩ := due
    obtain ⟨sample, present, _⟩ := mem_downsampleContainer_ts member
    obtain ⟨stored, same, _⟩ := mem_containerWindow.mp present
    exact ⟨sample, stored, point, same ▸ member⟩
  · intro due
    obtain ⟨_, _, point, member⟩ := due
    obtain ⟨sample, present, _⟩ := mem_downsampleContainer_ts member
    obtain ⟨stored, same, _, upper⟩ := mem_containerWindow.mp present
    exact ⟨sample, (rows sample (upper.trans_lt before)).mpr stored, point, same ▸ member⟩

/-- A window yields one row for each of its times. -/
theorem find?_due {db : MetricsDb} {resolution : MetricsResolution} {stop : Int} {maxGapPct : Nat}
    {cid : ContainerId} {row : ContainerSample}
    (due : row ∈ downsampleContainer (containerWindow db resolution stop cid) resolution
      maxGapPct) :
    (downsampleContainer (containerWindow db resolution stop cid) resolution maxGapPct).find?
      (fun other => other.ts = row.ts) = some row := by
  have distinct : ((downsampleContainer (containerWindow db resolution stop cid) resolution
      maxGapPct).map ContainerSample.ts).Nodup := by
    rw [List.Nodup, List.pairwise_map]
    exact (ordered_downsampleContainer (ordered_containerWindow db _ _ cid)).imp
      fun below => below.ne
  rw [KeyedTable.find?_eq_some_of_unique]
  · exact ⟨due, decide_eq_true rfl⟩
  · intro one oneMember two twoMember oneTs twoTs
    exact List.inj_on_of_nodup_map distinct oneMember twoMember
      ((of_decide_eq_true oneTs).trans (of_decide_eq_true twoTs).symm)

/-- A row due in a window is stamped with the end of that window. -/
theorem ts_of_due {db : MetricsDb} {resolution : MetricsResolution} {ts : Int} {maxGapPct : Nat}
    {cid : ContainerId} {row : ContainerSample}
    (due : row ∈ downsampleContainer (containerWindow db resolution
      (bucketEnd ts resolution.bucketMs) cid) resolution maxGapPct) :
    row.ts = bucketEnd ts resolution.bucketMs := by
  obtain ⟨sample, present, shape⟩ := mem_downsampleContainer_ts due
  rw [shape, bucketEnd_eq_iff resolution.bucketMs_pos
    (bucketEnd_spec ts resolution.bucketMs_pos).1]
  exact (mem_containerWindow.mp present).2.2

/-- A rollup that writes what it is due completes the bucket of the previous rows and leaves
the earlier buckets as they are. -/
theorem complete_of_rollup {db rolled : MetricsDb} {search : PartitionPoint} {order : HashOrder}
    {previousTs newTs : Int} {maxGapPct : Nat} (moved : previousTs < newTs)
    (exact : ContainerRollupExact search order db previousTs newTs maxGapPct)
    (result : rollUpContainers search order db previousTs newTs maxGapPct = (rolled, .ok ()))
    (kept : ∀ resolution ∉ (resolutionsClosedBy previousTs newTs).map Prod.fst,
      rolled.containers resolution = db.containers resolution)
    (reached : ∀ row ∈ (db.containers .tenSeconds).rows, row.ts ≤ previousTs ∨ row.ts = newTs)
    {resolution : MetricsResolution} (coarse : resolution ∈ MetricsResolution.coarse)
    (before : ∀ earlier ∈ (db.containers .tenSeconds).rows,
      bucketEnd earlier.ts resolution.bucketMs < bucketEnd previousTs resolution.bucketMs →
        ∀ cid, ∀ row ∈ downsampleContainer (containerWindow db resolution
            (bucketEnd earlier.ts resolution.bucketMs) cid) resolution maxGapPct,
          row ∈ (db.containers resolution).rows)
    {earlier last : ContainerSample} (earlierMember : earlier ∈ (db.containers .tenSeconds).rows)
    (lastMember : last ∈ (db.containers .tenSeconds).rows)
    (elapsed : bucketEnd earlier.ts resolution.bucketMs < bucketEnd last.ts resolution.bucketMs)
    {cid : ContainerId} {row : ContainerSample}
    (due : row ∈ downsampleContainer (containerWindow db resolution
      (bucketEnd earlier.ts resolution.bucketMs) cid) resolution maxGapPct) :
    row ∈ (rolled.containers resolution).rows := by
  have positive := resolution.bucketMs_pos
  have lastReached : bucketEnd last.ts resolution.bucketMs ≤
      bucketEnd newTs resolution.bucketMs := by
    apply bucketEnd_mono positive
    cases reached last lastMember with
    | inl old => exact old.trans moved.le
    | inr new => exact new.le
  have old : bucketEnd earlier.ts resolution.bucketMs ≤
      bucketEnd previousTs resolution.bucketMs := by
    cases reached earlier earlierMember with
    | inl old => exact bucketEnd_mono positive old
    | inr new =>
        rw [new] at elapsed
        exact absurd elapsed (not_lt.mpr lastReached)
  by_cases closed : bucketEnd newTs resolution.bucketMs = bucketEnd previousTs resolution.bucketMs
  · -- No bucket of this resolution closed, so the bucket of the row had elapsed before.
    have absent : resolution ∉ (resolutionsClosedBy previousTs newTs).map Prod.fst := by
      rw [mem_closed_resolutions]
      exact fun moved => moved.2 closed
    rw [kept resolution absent]
    refine before earlier earlierMember ?_ cid row due
    omega
  · have written := exact rolled result resolution coarse closed cid row.ts
    have key : containerKey row = toLex (row.ts, cid) := by rw [containerKey, cid_of_due due]
    have found : (rolled.containers resolution).find? (toLex (row.ts, cid)) = some row := by
      rw [written]
      by_cases same : bucketEnd earlier.ts resolution.bucketMs =
          bucketEnd previousTs resolution.bucketMs
      · rw [same] at due
        rw [find?_due due, Option.some_or]
      · have none : (downsampleContainer (containerWindow db resolution
            (bucketEnd previousTs resolution.bucketMs) cid) resolution maxGapPct).find?
              (fun other => other.ts = row.ts) = none := by
          refine List.find?_eq_none.mpr fun other member sameTs => same ?_
          rw [← ts_of_due due, ← of_decide_eq_true sameTs, ts_of_due member]
        rw [none, Option.none_or, KeyedTable.find?_eq_some_iff]
        exact ⟨before earlier earlierMember (lt_of_le_of_ne old same) cid row due, key⟩
    exact (KeyedTable.find?_eq_some_iff.mp found).1

theorem max?_of_stamped {samples : List ContainerSample} {ts newest : Int}
    (stamped : ∀ sample ∈ samples, sample.ts = ts)
    (found : (samples.map ContainerSample.ts).max? = some newest) :
    newest = ts ∧ ∃ sample ∈ samples, sample.ts = ts := by
  obtain ⟨sample, member, same⟩ := List.mem_map.mp (List.max?_eq_some_iff.mp found).1
  exact ⟨same.symm.trans (stamped sample member), sample, member, stamped sample member⟩

theorem TracksContainers.previous {maxGapPct : Nat} {store : SqliteMetricsStore}
    (tracks : TracksContainers maxGapPct store) {ts previous : Int}
    (moved : (SqliteMetricsStore.advance store.lastContainersTs ts).1 = some previous) :
    previous ∈ store.lastContainersTs ∧ previous < ts ∧
      (∃ row ∈ (store.db.containers .tenSeconds).rows, row.ts = previous) ∧
        ∀ row ∈ (store.db.containers .tenSeconds).rows, row.ts ≤ previous := by
  obtain ⟨known, below⟩ := Option.filter_eq_some_iff.mp moved
  have greatest := known
  rw [tracks.cursor] at greatest
  obtain ⟨among, reached⟩ := List.max?_eq_some_iff.mp greatest
  obtain ⟨row, member, same⟩ := List.mem_map.mp among
  exact ⟨known, of_decide_eq_true below, ⟨row, member, same⟩,
    fun other present => reached _ (List.mem_map_of_mem present)⟩

theorem TracksContainers.no_previous {maxGapPct : Nat} {store : SqliteMetricsStore}
    (tracks : TracksContainers maxGapPct store) {ts : Int}
    (newer : ∀ row ∈ (store.db.containers .tenSeconds).rows, row.ts < ts)
    (moved : (SqliteMetricsStore.advance store.lastContainersTs ts).1 = none) :
    (store.db.containers .tenSeconds).rows = [] := by
  cases known : store.lastContainersTs with
  | none =>
      rw [tracks.cursor, selectContainersMaxTs, List.max?_eq_none_iff, List.map_eq_nil_iff] at known
      exact known
  | some previous =>
      have greatest := known
      rw [tracks.cursor] at greatest
      obtain ⟨row, member, same⟩ := List.mem_map.mp (List.max?_eq_some_iff.mp greatest).1
      have below : previous < ts := same ▸ newer row member
      simp only [SqliteMetricsStore.advance, known, Option.filter_some, below, decide_true,
        ↓reduceIte, reduceCtorEq] at moved

/-- What the tables look like once a batch of newer rows is stored. -/
theorem TracksContainers.stored {store : SqliteMetricsStore} {samples : List ContainerSample}
    {db : MetricsDb} {maxGapPct : Nat} (tracks : TracksContainers maxGapPct store) {ts : Int}
    (stamped : ∀ sample ∈ samples, sample.ts = ts)
    (newer : ∀ row ∈ (store.db.containers .tenSeconds).rows, row.ts < ts)
    (nonempty : ∃ sample, sample ∈ samples)
    (written : insertContainers store.db .tenSeconds samples = .ok db) :
    (∀ row ∈ (db.containers .tenSeconds).rows, ContainerSample.Storable row) ∧
      (∀ row : ContainerSample, row.ts < ts → (row ∈ (db.containers .tenSeconds).rows ↔
        row ∈ (store.db.containers .tenSeconds).rows)) ∧
      some ts = selectContainersMaxTs db .tenSeconds := by
  obtain ⟨fits, _, fine, _⟩ := insertContainers_fine written
  refine ⟨?_, ?_, ?_⟩
  · intro row member
    cases (fine row).mp member with
    | inl old => exact tracks.storable row old
    | inr new => exact fits row new
  · intro row before
    rw [fine, or_iff_left]
    intro new
    exact before.ne (stamped row new)
  · obtain ⟨sample, given⟩ := nonempty
    refine (List.max?_eq_some_iff.mpr ⟨?_, ?_⟩).symm
    · exact List.mem_map.mpr ⟨sample, (fine sample).mpr (.inr given), stamped sample given⟩
    · intro other member
      obtain ⟨row, present, rfl⟩ := List.mem_map.mp member
      cases (fine row).mp present with
      | inl old => exact (newer row old).le
      | inr new => exact (stamped row new).le

theorem TracksContainers.insertFated (search : PartitionPoint) (order : HashOrder)
    {store : SqliteMetricsStore} {samples : List ContainerSample} {fate : RollupFate}
    {maxGapPct : Nat} (tracks : TracksContainers maxGapPct store) {ts : Int}
    (stamped : ∀ sample ∈ samples, sample.ts = ts)
    (newer : ∀ row ∈ (store.db.containers .tenSeconds).rows, row.ts < ts)
    (reaches : ∀ previous ∈ store.lastContainersTs,
      ∀ newest ∈ (samples.map ContainerSample.ts).max?,
        FetchCutsCleanly store.db previous newest ∧
          fate.Reaches (dueContainers store.db previous newest store.downsampleMaxGapPct).length) :
    TracksContainers maxGapPct (store.insertContainersFated search order samples fate).1 ∧
      (store.insertContainersFated search order samples fate).1.db.host = store.db.host ∧
      (store.insertContainersFated search order samples fate).1.lastHostTs = store.lastHostTs := by
  rw [SqliteMetricsStore.insertContainersFated]
  cases found : (samples.map ContainerSample.ts).max? with
  | none => exact ⟨tracks, rfl, rfl⟩
  | some newest =>
      obtain ⟨rfl, sample, sampleMember, _⟩ := max?_of_stamped stamped found
      cases written : insertContainers store.db .tenSeconds samples with
      | error fault => exact ⟨tracks, rfl, rfl⟩
      | ok db =>
          obtain ⟨_, host, fine, kept⟩ := insertContainers_fine written
          obtain ⟨storable, agree, cursor⟩ :=
            tracks.stored stamped newer ⟨sample, sampleMember⟩ written
          cases moved : (SqliteMetricsStore.advance store.lastContainersTs newest).1 with
          | none =>
              simp only [moved]
              refine ⟨⟨tracks.pct, storable, cursor, ?_⟩, host, trivial⟩
              have empty := tracks.no_previous newer moved
              have allNew : ∀ row ∈ (db.containers .tenSeconds).rows, row.ts = newest := by
                intro row member
                cases (fine row).mp member with
                | inl old =>
                    rw [empty] at old
                    cases old
                | inr new => exact stamped row new
              intro resolution _ earlier earlierMember last lastMember elapsed
              rw [allNew earlier earlierMember, allNew last lastMember] at elapsed
              exact absurd elapsed (lt_irrefl _)
          | some previous =>
              obtain ⟨known, below, ⟨top, topMember, topTs⟩, old⟩ := tracks.previous moved
              obtain ⟨cleanBefore, far⟩ := reaches previous known newest found
              have clean := cleanBefore.of_newer below agree
              rw [← dueContainers_of_newer below agree] at far
              have same := rollUpContainersFated_reaches search order clean storable far
              obtain ⟨rolled, result, rolledHost, _, untouched⟩ := rollUpContainers_spec search order
                store.downsampleMaxGapPct clean storable
              have tenSeconds : rolled.containers .tenSeconds = db.containers .tenSeconds :=
                untouched _ (tenSeconds_not_closed _ _)
              simp only [moved, same, result]
              refine ⟨⟨tracks.pct, by rwa [tenSeconds], ?_, ?_⟩, rolledHost.trans host, trivial⟩
              · refine cursor.trans ?_
                rw [selectContainersMaxTs, selectContainersMaxTs, tenSeconds]
              · intro resolution coarse earlier earlierMember last lastMember elapsed cid row due
                simp only [containerWindow, tenSeconds] at earlierMember lastMember due
                rw [← tracks.pct] at due
                refine complete_of_rollup below (rollUpContainers_exact_of_clean clean search order
                  store.downsampleMaxGapPct) result untouched ?_ coarse ?_ earlierMember lastMember
                  elapsed due
                · intro other member
                  cases (fine other).mp member with
                  | inl before => exact .inl (old other before)
                  | inr new => exact .inr (stamped other new)
                · intro first firstMember elapsedBefore otherCid point pointDue
                  have positive := resolution.bucketMs_pos
                  have stop := (bucketEnd_lt_of_elapsed positive elapsedBefore).trans below
                  have within := (bucketEnd_spec first.ts positive).2.2
                  rw [containerWindow_of_newer agree stop] at pointDue
                  rw [kept resolution coarse]
                  exact tracks.complete resolution coarse first
                    ((agree first (by omega)).mp firstMember) top topMember
                    (by rwa [topTs]) otherCid point (tracks.pct ▸ pointDue)

end Vpsiner.Metrics
