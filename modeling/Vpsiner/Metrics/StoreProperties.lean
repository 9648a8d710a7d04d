import Vpsiner.Metrics.RollupProperties
import Vpsiner.Metrics.Store

/-! What inserting a host sample can do to the tables: it removes no stored bucket, and it writes
at the sample's own timestamp and at the ends of the buckets that it closes. -/

set_option autoImplicit false

namespace Vpsiner.Metrics

open Lib

/-- Rows were stored or replaced one after the other, each of them at a touched timestamp. -/
inductive HostWrites (touched : MetricsResolution → Int → Prop) (before : MetricsDb) :
    MetricsDb → Prop where
  | none : HostWrites touched before before
  | upsert {db : MetricsDb} (earlier : HostWrites touched before db)
      {resolution : MetricsResolution} {sample : HostSample}
      (touches : touched resolution sample.ts) :
      HostWrites touched before (db.setHost resolution ((db.host resolution).upsert sample))

namespace HostWrites

variable {touched : MetricsResolution → Int → Prop} {before after : MetricsDb}

theorem trans {middle : MetricsDb} (first : HostWrites touched before middle)
    (second : HostWrites touched middle after) : HostWrites touched before after := by
  induction second with
  | none => exact first
  | upsert _ touches ih => exact ih.upsert touches

/-- Every stored bucket stays stored, possibly with other values. -/
theorem keeps (writes : HostWrites touched before after) {resolution : MetricsResolution}
    {row : HostSample} (member : row ∈ (before.host resolution).rows) :
    ∃ other ∈ (after.host resolution).rows, other.ts = row.ts := by
  induction writes with
  | none => exact ⟨row, member, rfl⟩
  | @upsert db _ target sample _ ih =>
      obtain ⟨other, present, same⟩ := ih
      rw [MetricsDb.host_setHost]
      split
      · next here =>
          subst here
          by_cases replaced : other.ts = sample.ts
          · exact ⟨sample, KeyedTable.mem_rows_upsert.mpr (.inl rfl), replaced.symm.trans same⟩
          · exact ⟨other, KeyedTable.mem_rows_upsert.mpr (.inr ⟨present, replaced⟩), same⟩
      · exact ⟨other, present, same⟩

/-- A row at any other timestamp is neither stored nor replaced. -/
theorem untouched (writes : HostWrites touched before after) {resolution : MetricsResolution}
    {row : HostSample} (outside : ¬touched resolution row.ts) :
    row ∈ (after.host resolution).rows ↔ row ∈ (before.host resolution).rows := by
  induction writes with
  | none => rfl
  | @upsert db _ target sample touches ih =>
      rw [← ih, MetricsDb.host_setHost]
      split
      · next here =>
          subst here
          have different : row.ts ≠ sample.ts := fun same => outside (same ▸ touches)
          rw [KeyedTable.mem_rows_upsert]
          constructor
          · rintro (rfl | ⟨present, -⟩)
            · exact absurd rfl different
            · exact present
          · intro present
            exact .inr ⟨present, different⟩
      · rfl

theorem insertHost {resolution : MetricsResolution} {sample : HostSample}
    (succeeded : insertHost before resolution sample = .ok after)
    (touches : touched resolution sample.ts) : HostWrites touched before after := by
  unfold Metrics.insertHost at succeeded
  split at succeeded
  · cases succeeded
  · split at succeeded
    · cases succeeded
    · next table placed =>
        cases succeeded
        have shape : table = (before.host resolution).upsert sample := by
          cases resolution with
          | tenSeconds =>
              simp only [insertRow, KeyedTable.insert?] at placed
              split at placed
              · cases placed
              · exact (Option.some.inj placed).symm
          | oneMinute | fiveMinutes | oneHour => exact (Option.some.inj placed).symm
        rw [shape]
        exact HostWrites.none.upsert touches

theorem insertHostRows {resolution : MetricsResolution} {rows : List HostSample}
    (touches : ∀ row ∈ rows, touched resolution row.ts) (db : MetricsDb) :
    HostWrites touched db (insertHostRows resolution rows db).1 := by
  induction rows generalizing db with
  | nil => exact .none
  | cons row rest ih =>
      simp only [List.forall_mem_cons] at touches
      rw [Metrics.insertHostRows]
      split
      · exact .none
      · next next inserted => exact (insertHost inserted touches.1).trans (ih touches.2 next)

theorem rollUpHostClosed (search : PartitionPoint) {samples : List HostSample} {maxGapPct : Nat}
    {closed : List (MetricsResolution × Int)}
    (touches : ∀ entry ∈ closed, ∀ slice,
      sliceByRange search samples (sourceRange entry.2 entry.1) HostSample.ts = .ok slice →
        ∀ row ∈ downsampleHost slice entry.1 maxGapPct, touched entry.1 row.ts) (db : MetricsDb) :
    HostWrites touched db (rollUpHostClosed search samples maxGapPct closed db).1 := by
  induction closed generalizing db with
  | nil => exact .none
  | cons entry rest ih =>
      obtain ⟨resolution, stop⟩ := entry
      simp only [List.forall_mem_cons] at touches
      rw [Metrics.rollUpHostClosed]
      split
      · exact .none
      · next slice cut =>
          have written := insertHostRows (touches.1 slice cut) db
          split
          · next inserted => rwa [inserted] at written
          · next inserted =>
              rw [inserted] at written
              exact written.trans (ih touches.2 _)

/-- A rollup writes at the ends of the buckets that closed. -/
theorem rollUpHost (search : PartitionPoint) (db : MetricsDb) (previousTs newTs : Int)
    (maxGapPct : Nat) :
    HostWrites (fun resolution ts => (resolution, ts) ∈ resolutionsClosedBy previousTs newTs) db
      (rollUpHost search db previousTs newTs maxGapPct).1 := by
  simp only [Metrics.rollUpHost]
  split
  · exact .none
  · next range found =>
      apply rollUpHostClosed
      intro entry member slice cut row made
      rw [slice_selectHost found member search] at cut
      cases cut
      rw [downsampleHost_bucket entry.2
        fun other present => by simpa using (List.mem_filter.mp present).2] at made
      rw [hostBuckets_finish_ts (Option.mem_toList.mp made)]
      exact member

theorem mono {wider : MetricsResolution → Int → Prop} (writes : HostWrites touched before after)
    (within : ∀ resolution ts, touched resolution ts → wider resolution ts) :
    HostWrites wider before after := by
  induction writes with
  | none => exact .none
  | upsert _ touches ih => exact ih.upsert (within _ _ touches)

end HostWrites

/-- The timestamps at which the insert of a sample may store or replace a row. -/
def SqliteMetricsStore.WritesAt (store : SqliteMetricsStore) (sample : HostSample)
    (resolution : MetricsResolution) (ts : Int) : Prop :=
  (resolution = .tenSeconds ∧ ts = sample.ts) ∨
    ∃ previous ∈ store.lastHostTs, previous < sample.ts ∧
      (resolution, ts) ∈ resolutionsClosedBy previous sample.ts

theorem writesAt_tenSeconds {store : SqliteMetricsStore} {sample : HostSample} {ts : Int} :
    store.WritesAt sample .tenSeconds ts ↔ ts = sample.ts := by
  constructor
  · rintro (⟨-, own⟩ | ⟨previous, -, -, closes⟩)
    · exact own
    · exact absurd (List.mem_map_of_mem closes) (tenSeconds_not_closed _ _)
  · intro own
    exact .inl ⟨rfl, own⟩

/-- What an insert writes, whatever became of its rollup. -/
theorem HostWrites.storeInsertHost {search : PartitionPoint} {store after : SqliteMetricsStore}
    {sample : HostSample} {result : AppResult Unit}
    (inserted : store.insertHost search sample = (after, result)) :
    HostWrites (store.WritesAt sample) store.db after.db := by
  have own : store.WritesAt sample .tenSeconds sample.ts := .inl ⟨rfl, rfl⟩
  unfold SqliteMetricsStore.insertHost at inserted
  split at inserted
  · cases inserted
    exact .none
  · next db placed =>
      simp only at inserted
      split at inserted
      · cases inserted
        exact insertHost placed own
      · next previous advanced =>
          cases inserted
          obtain ⟨known, moved⟩ := Option.filter_eq_some_iff.mp advanced
          refine (insertHost placed own).trans ((rollUpHost search db previous sample.ts
            store.downsampleMaxGapPct).mono fun resolution ts closes => ?_)
          exact .inr ⟨previous, known, by simpa using moved, closes⟩

end Vpsiner.Metrics
