import Vpsiner.Metrics.DownsamplingProperties
import Vpsiner.Metrics.Rollup

/-! What a rollup reads and writes: the closed buckets, the slice taken for each
of them and the tables afterwards. -/

set_option autoImplicit false

namespace Vpsiner.Metrics

open Lib

/-! ## Closed buckets -/

theorem mem_resolutionsClosedBy {previousTs newTs : Int} {resolution : MetricsResolution}
    {closed : Int} :
    (resolution, closed) ∈ resolutionsClosedBy previousTs newTs ↔
      resolution ∈ MetricsResolution.coarse ∧
        closed = bucketEnd previousTs resolution.bucketMs ∧
          bucketEnd newTs resolution.bucketMs ≠ closed := by
  simp only [resolutionsClosedBy, List.mem_filterMap, Option.map_eq_some_iff, Prod.mk.injEq,
    closedBucket]
  constructor
  · rintro ⟨resolution, member, stop, moved, rfl, rfl⟩
    split at moved
    · next different =>
        cases moved
        exact ⟨member, rfl, different⟩
    · cases moved
  · rintro ⟨member, rfl, different⟩
    exact ⟨resolution, member, _, if_pos different, rfl, rfl⟩

theorem mem_closed_resolutions {previousTs newTs : Int} {resolution : MetricsResolution} :
    resolution ∈ (resolutionsClosedBy previousTs newTs).map Prod.fst ↔
      resolution ∈ MetricsResolution.coarse ∧
        bucketEnd newTs resolution.bucketMs ≠ bucketEnd previousTs resolution.bucketMs := by
  simp only [List.mem_map, Prod.exists, exists_and_right, exists_eq_right, mem_resolutionsClosedBy]
  constructor
  · rintro ⟨stop, coarse, rfl, different⟩
    exact ⟨coarse, different⟩
  · rintro ⟨coarse, different⟩
    exact ⟨_, coarse, rfl, different⟩

theorem tenSeconds_not_closed (previousTs newTs : Int) :
    .tenSeconds ∉ (resolutionsClosedBy previousTs newTs).map Prod.fst := by
  rw [mem_closed_resolutions]
  simp [MetricsResolution.coarse]

theorem bucketEnd_lt_of_closed {previousTs newTs : Int} {entry : MetricsResolution × Int}
    (moved : previousTs < newTs) (closed : entry ∈ resolutionsClosedBy previousTs newTs) :
    entry.2 < newTs := by
  obtain ⟨_, stop, different⟩ := mem_resolutionsClosedBy.mp closed
  have positive := entry.1.bucketMs_pos
  have reached := bucketEnd_mono positive moved.le
  rw [stop] at different ⊢
  exact bucketEnd_lt_of_elapsed positive (lt_of_le_of_ne reached different.symm)

theorem resolutionsClosedBy_sublist (previousTs newTs : Int) :
    ((resolutionsClosedBy previousTs newTs).map Prod.fst).Sublist MetricsResolution.coarse := by
  have shape : (resolutionsClosedBy previousTs newTs).map Prod.fst =
      MetricsResolution.coarse.filter fun resolution =>
        (closedBucket previousTs newTs resolution).isSome := by
    rw [resolutionsClosedBy, List.map_filterMap, ← List.filterMap_eq_filter]
    congr 1
    funext resolution
    cases moved : closedBucket previousTs newTs resolution <;> simp [Option.guard, moved]
  rw [shape]
  exact List.filter_sublist

theorem nodup_resolutionsClosedBy (previousTs newTs : Int) :
    ((resolutionsClosedBy previousTs newTs).map Prod.fst).Nodup :=
  (resolutionsClosedBy_sublist previousTs newTs).nodup (by decide)

/-- The source range of a bucket holds the timestamps of that bucket. -/
theorem contains_sourceRange {ts previousTs : Int} {resolution : MetricsResolution} :
    (sourceRange (bucketEnd previousTs resolution.bucketMs) resolution).contains ts = true ↔
      bucketEnd ts resolution.bucketMs = bucketEnd previousTs resolution.bucketMs := by
  rw [TimeRange.contains_iff, bucketEnd_eq_iff resolution.bucketMs_pos
    (bucketEnd_spec previousTs resolution.bucketMs_pos).1]
  simp only [sourceRange]
  omega

theorem widest_mem {closed : List (MetricsResolution × Int)}
    {best : MetricsResolution × Int} (found : widest closed = some best) :
    best ∈ closed ∧ ∀ entry ∈ closed, entry.1.bucketMs ≤ best.1.bucketMs := by
  induction closed generalizing best with
  | nil => cases found
  | cons entry rest ih =>
      cases later : widest rest with
      | none =>
          have none : rest = [] := by
            cases rest with
            | nil => rfl
            | cons head tail =>
                simp only [widest] at later
                split at later
                · cases later
                · split at later <;> cases later
          simp only [widest, later, Option.some.injEq] at found
          subst found none
          simp
      | some other =>
          obtain ⟨member, greatest⟩ := ih later
          simp only [widest, later] at found
          split at found
          · next le =>
              cases found
              refine ⟨List.mem_cons_of_mem _ member, fun candidate present => ?_⟩
              rcases List.mem_cons.mp present with rfl | inRest
              · exact le
              · exact greatest candidate inRest
          · next gt =>
              cases found
              refine ⟨List.mem_cons_self, fun candidate present => ?_⟩
              rcases List.mem_cons.mp present with rfl | inRest
              · exact le_rfl
              · exact (greatest candidate inRest).trans (by omega)

theorem bucketMs_dvd_of_le {fine wide : MetricsResolution}
    (fineCoarse : fine ∈ MetricsResolution.coarse) (wideCoarse : wide ∈ MetricsResolution.coarse)
    (le : fine.bucketMs ≤ wide.bucketMs) : fine.bucketMs ∣ wide.bucketMs := by
  simp only [MetricsResolution.coarse, List.mem_cons, List.not_mem_nil, or_false]
    at fineCoarse wideCoarse
  rcases fineCoarse with rfl | rfl | rfl <;> rcases wideCoarse with rfl | rfl | rfl <;>
    revert le <;> decide

/-- One fetch covers every bucket that closes: a coarser bucket contains the finer
ones that close alongside it. -/
theorem widestSourceRange_covers {previousTs newTs : Int} {range : TimeRange}
    (found : widestSourceRange (resolutionsClosedBy previousTs newTs) = some range)
    {resolution : MetricsResolution} {closed : Int}
    (member : (resolution, closed) ∈ resolutionsClosedBy previousTs newTs) {ts : Int}
    (inside : (sourceRange closed resolution).contains ts = true) : range.contains ts = true := by
  obtain ⟨⟨wide, wideClosed⟩, best, rfl⟩ := Option.map_eq_some_iff.mp found
  obtain ⟨wideMember, greatest⟩ := widest_mem best
  obtain ⟨coarse, rfl, -⟩ := mem_resolutionsClosedBy.mp member
  obtain ⟨wideCoarse, rfl, -⟩ := mem_resolutionsClosedBy.mp wideMember
  obtain ⟨upper, lower⟩ := bucketEnd_le_of_dvd previousTs resolution.bucketMs_pos
    wide.bucketMs_pos (bucketMs_dvd_of_le coarse wideCoarse (greatest _ member))
  rw [TimeRange.contains_iff] at inside ⊢
  simp only [sourceRange] at inside ⊢
  omega

theorem widestSourceRange_eq_none {previousTs newTs : Int}
    (found : widestSourceRange (resolutionsClosedBy previousTs newTs) = none) :
    resolutionsClosedBy previousTs newTs = [] := by
  cases shape : resolutionsClosedBy previousTs newTs with
  | nil => rfl
  | cons entry rest =>
      rw [shape, widestSourceRange, Option.map_eq_none_iff, widest] at found
      split at found
      · cases found
      · split at found <;> cases found

/-! ## Slices -/

section Slices

variable {σ : Type} {ts : σ → Int} {samples : List σ} {range : TimeRange}

def beforeRange (range : TimeRange) (ts : σ → Int) (sample : σ) : Bool :=
  decide (ts sample < range.fromMs)

def untilRange (range : TimeRange) (ts : σ → Int) (sample : σ) : Bool :=
  decide (ts sample ≤ range.toMs)

/-- The cuts of the slice are where the documentation of the search defines them,
or no sample lies in the range at all. -/
def CutsCleanly (samples : List σ) (range : TimeRange) (ts : σ → Int) : Prop :=
  (∀ sample ∈ samples, range.contains (ts sample) = false) ∨
    (Partitioned (beforeRange range ts) samples ∧ Partitioned (untilRange range ts) samples)

theorem beforeRange_implies (valid : range.fromMs ≤ range.toMs + 1) (sample : σ)
    (before : beforeRange range ts sample = true) : untilRange range ts sample = true := by
  simp only [beforeRange, untilRange, decide_eq_true_eq] at before ⊢
  omega

theorem contains_eq_cuts (sample : σ) :
    range.contains (ts sample) =
      (untilRange range ts sample && !beforeRange range ts sample) := by
  rw [Bool.eq_iff_iff, TimeRange.contains_iff]
  simp only [beforeRange, untilRange, Bool.and_eq_true, decide_eq_true_eq, Bool.not_eq_true',
    decide_eq_false_iff_not]
  omega

theorem sliceByRange_eq (search : PartitionPoint) :
    sliceByRange search samples range ts =
      if search.index (beforeRange range ts) samples ≤ search.index (untilRange range ts) samples
      then .ok ((samples.take (search.index (untilRange range ts) samples)).drop
        (search.index (beforeRange range ts) samples))
      else .error (.panic "slice index starts past its end") := rfl

/-- A slice with clean cuts holds exactly the samples in the range. -/
theorem sliceByRange_of_cutsCleanly (search : PartitionPoint)
    (valid : range.fromMs ≤ range.toMs + 1) (clean : CutsCleanly samples range ts) :
    sliceByRange search samples range ts =
      .ok (samples.filter fun sample => range.contains (ts sample)) := by
  rw [sliceByRange_eq]
  rcases clean with outside | ⟨start, stop⟩
  · have agree : ∀ sample ∈ samples, beforeRange range ts sample = untilRange range ts sample := by
      intro sample member
      have apart := outside sample member
      have implied : beforeRange range ts sample = true → untilRange range ts sample = true :=
        beforeRange_implies valid sample
      rw [contains_eq_cuts] at apart
      cases earlier : beforeRange range ts sample with
      | true => exact (implied earlier).symm
      | false =>
          rw [earlier, Bool.not_false, Bool.and_true] at apart
          exact apart.symm
    rw [search.index_congr agree, if_pos le_rfl,
      List.filter_eq_nil_iff.mpr fun sample member => by simp [outside sample member]]
    simp
  · rw [search.index_of_partitioned start, search.index_of_partitioned stop,
      if_pos (length_takeWhile_mono (beforeRange_implies valid) samples),
      drop_take_takeWhile (beforeRange_implies valid) start stop]
    simp only [contains_eq_cuts]

/-- Samples ordered by `ts` are cut cleanly by every range. -/
theorem cutsCleanly_of_sorted
    (ordered : samples.Pairwise fun earlier later => ts earlier ≤ ts later) :
    CutsCleanly samples range ts := by
  refine .inr ⟨Partitioned.of_sorted ordered ?_, Partitioned.of_sorted ordered ?_⟩
  · intro earlier later le holds
    simp only [beforeRange, decide_eq_true_eq] at holds ⊢
    omega
  · intro earlier later le holds
    simp only [untilRange, decide_eq_true_eq] at holds ⊢
    omega

def between (search : PartitionPoint) (samples : List σ) (range : TimeRange) (ts : σ → Int) :
    List σ :=
  (samples.take (search.index (untilRange range ts) samples)).drop
    (search.index (beforeRange range ts) samples)

theorem sliceByRange_of_scans {search : PartitionPoint} (scans : search.Scans)
    (valid : range.fromMs ≤ range.toMs + 1) (samples : List σ) (ts : σ → Int) :
    sliceByRange search samples range ts = .ok (between search samples range ts) := by
  rw [sliceByRange_eq, if_pos (scans.mono (beforeRange_implies valid) samples), between]

theorem between_map {τ : Type} {search : PartitionPoint} (scans : search.Scans) (f : τ → σ)
    (samples : List τ) (range : TimeRange) (ts : σ → Int) :
    between search (samples.map f) range ts =
      (between search samples range fun sample => ts (f sample)).map f := by
  simp only [between, scans.map, List.map_drop, List.map_take]
  rfl

theorem between_sublist (search : PartitionPoint) (samples : List σ) (range : TimeRange)
    (ts : σ → Int) : (between search samples range ts).Sublist samples :=
  (List.drop_sublist _ _).trans (List.take_sublist _ _)

theorem cutsCleanly_map {τ : Type} {f : τ → σ} {samples : List τ} :
    CutsCleanly (samples.map f) range ts ↔
      CutsCleanly samples range fun sample => ts (f sample) := by
  simp [CutsCleanly, Partitioned, List.pairwise_map, beforeRange, untilRange]

/-- A range that two opposite scans both cut out exactly is cut cleanly. -/
theorem cutsCleanly_of_scans (nodup : samples.Nodup)
    (same : between .firstFailing samples range ts = between .lastHolding samples range ts)
    (covers : ∀ sample ∈ samples, range.contains (ts sample) = true →
      sample ∈ between .firstFailing samples range ts) : CutsCleanly samples range ts := by
  by_cases outside : ∀ sample ∈ samples, range.contains (ts sample) = false
  · exact .inl outside
  · simp only [not_forall, Bool.not_eq_false] at outside
    obtain ⟨sample, member, inside⟩ := outside
    obtain ⟨starts, stops⟩ := cuts_unique nodup
      (PartitionPoint.firstFailing_scans.le_length (untilRange range ts) samples)
      (PartitionPoint.lastHolding_scans.le_length (untilRange range ts) samples)
      (List.ne_nil_of_mem (covers sample member inside)) same
    exact .inr ⟨partitioned_of_scans_agree starts, partitioned_of_scans_agree stops⟩

end Slices

/-! ## Writing rows -/

theorem sqliteInteger_ok_iff (value : Nat) (column : String) :
    (∃ stored, sqliteInteger value column = .ok stored) ↔ value ≤ i64Max.toNat := by
  unfold sqliteInteger i64Max
  split
  · simp only [Except.ok.injEq, exists_eq', true_iff]
    omega
  · simp only [reduceCtorEq, exists_false, false_iff]
    omega

/-- A row is accepted when its columns fit the integers of SQLite. -/
theorem checkColumns_ok_iff {columns : List (Option Nat × String)} :
    checkColumns columns = .ok () ↔ ColumnsWithin i64Max.toNat columns := by
  induction columns with
  | nil => simp [checkColumns, ColumnsWithin]
  | cons entry rest ih =>
      obtain ⟨value, column⟩ := entry
      cases value with
      | none => simpa [checkColumns, ColumnsWithin] using ih
      | some value =>
          have fits := sqliteInteger_ok_iff value column
          simp only [ColumnsWithin, List.forall_mem_cons, Option.mem_some_iff, forall_eq'] at ih ⊢
          simp only [checkColumns]
          cases converted : sqliteInteger value column with
          | error fault =>
              rw [converted] at fits
              simp only [reduceCtorEq, exists_false, false_iff] at fits
              simp [fits]
          | ok stored =>
              rw [converted] at fits
              simp only [Except.ok.injEq, exists_eq', true_iff] at fits
              simp [fits, ih]

abbrev HostSample.Storable (sample : HostSample) : Prop := HostSample.Within i64Max.toNat sample

abbrev ContainerSample.Storable (sample : ContainerSample) : Prop :=
  ContainerSample.Within i64Max.toNat sample

theorem insertHost_coarse {db : MetricsDb} {resolution : MetricsResolution} {sample : HostSample}
    (coarse : resolution ≠ .tenSeconds) (storable : HostSample.Storable sample) :
    insertHost db resolution sample =
      .ok (db.setHost resolution ((db.host resolution).upsert sample)) := by
  have accepted : checkColumns (hostColumns sample) = .ok () := checkColumns_ok_iff.mpr storable
  rw [insertHost, accepted]
  cases resolution with
  | tenSeconds => exact absurd rfl coarse
  | oneMinute | fiveMinutes | oneHour => rfl

theorem insertHostRows_coarse {resolution : MetricsResolution} (coarse : resolution ≠ .tenSeconds)
    {rows : List HostSample} (storable : ∀ row ∈ rows, HostSample.Storable row) (db : MetricsDb) :
    insertHostRows resolution rows db =
      (db.setHost resolution ((db.host resolution).upsertAll rows), .ok ()) := by
  induction rows generalizing db with
  | nil => rw [insertHostRows, KeyedTable.upsertAll_nil, db.setHost_self]
  | cons row rest ih =>
      rw [insertHostRows, insertHost_coarse coarse (storable row List.mem_cons_self)]
      simp only
      rw [ih (fun other member => storable other (List.mem_cons_of_mem _ member))]
      simp

theorem checkSamples_ok_iff {samples : List ContainerSample} :
    checkSamples samples = .ok () ↔ ∀ sample ∈ samples, ContainerSample.Storable sample := by
  induction samples with
  | nil => simp [checkSamples]
  | cons sample rest ih =>
      have columns : checkColumns (containerColumns sample) = .ok () ↔
          ContainerSample.Storable sample := checkColumns_ok_iff
      rw [checkSamples, List.forall_mem_cons]
      cases checked : checkColumns (containerColumns sample) with
      | error fault =>
          rw [checked] at columns
          exact ⟨nofun, fun storable => absurd (columns.mpr storable.1) nofun⟩
      | ok _ =>
          rw [checked] at columns
          exact ih.trans (iff_and_self.mpr fun _ => columns.mp rfl)

theorem foldlM_insertRow_coarse {κ ρ : Type} [LinearOrder κ] {key : ρ → κ}
    {resolution : MetricsResolution} (coarse : resolution ≠ .tenSeconds) (rows : List ρ)
    (table : KeyedTable key) :
    rows.foldlM (insertRow resolution) table = some (table.upsertAll rows) := by
  induction rows generalizing table with
  | nil => rfl
  | cons row rest ih =>
      have step : insertRow resolution table row = some (table.upsert row) := by
        cases resolution with
        | tenSeconds => exact absurd rfl coarse
        | oneMinute | fiveMinutes | oneHour => rfl
      rw [List.foldlM_cons, step]
      exact ih (table.upsert row)

theorem insertContainers_coarse {db : MetricsDb} {resolution : MetricsResolution}
    (coarse : resolution ≠ .tenSeconds) {rows : List ContainerSample}
    (storable : ∀ row ∈ rows, ContainerSample.Storable row) :
    insertContainers db resolution rows =
      .ok (db.setContainers resolution ((db.containers resolution).upsertAll rows)) := by
  cases rows with
  | nil => rw [KeyedTable.upsertAll_nil, db.setContainers_self]; rfl
  | cons row rest =>
      rw [insertContainers, if_neg (by simp), checkSamples_ok_iff.mpr storable,
        foldlM_insertRow_coarse coarse]

/-! ## Whole rollups -/

theorem coarse_ne_tenSeconds {resolution : MetricsResolution}
    (coarse : resolution ∈ MetricsResolution.coarse) : resolution ≠ .tenSeconds := by
  rintro rfl
  simp [MetricsResolution.coarse] at coarse

/-- Each closed resolution gets the rows of its own slice and no other table changes. -/
theorem rollUpHostClosed_spec (search : PartitionPoint) {samples : List HostSample} (maxGapPct : Nat)
    (slice : MetricsResolution × Int → List HostSample) {closed : List (MetricsResolution × Int)}
    (nodup : (closed.map Prod.fst).Nodup)
    (coarse : ∀ entry ∈ closed, entry.1 ∈ MetricsResolution.coarse)
    (cut : ∀ entry ∈ closed,
      sliceByRange search samples (sourceRange entry.2 entry.1) HostSample.ts = .ok (slice entry))
    (storable : ∀ entry ∈ closed, ∀ row ∈ downsampleHost (slice entry) entry.1 maxGapPct,
      HostSample.Storable row) (db : MetricsDb) :
    ∃ after, rollUpHostClosed search samples maxGapPct closed db = (after, .ok ()) ∧
      after.containers = db.containers ∧
      (∀ entry ∈ closed, after.host entry.1 =
        (db.host entry.1).upsertAll (downsampleHost (slice entry) entry.1 maxGapPct)) ∧
      ∀ resolution ∉ closed.map Prod.fst, after.host resolution = db.host resolution := by
  induction closed generalizing db with
  | nil => exact ⟨db, rfl, rfl, nofun, fun _ _ => rfl⟩
  | cons entry rest ih =>
      obtain ⟨resolution, stop⟩ := entry
      obtain ⟨fresh, restNodup⟩ := List.nodup_cons.mp nodup
      obtain ⟨after, result, containers, written, kept⟩ := ih restNodup
        (fun other member => coarse other (List.mem_cons_of_mem _ member))
        (fun other member => cut other (List.mem_cons_of_mem _ member))
        (fun other member => storable other (List.mem_cons_of_mem _ member))
        (db.setHost resolution ((db.host resolution).upsertAll
          (downsampleHost (slice (resolution, stop)) resolution maxGapPct)))
      refine ⟨after, ?_, containers, ?_, ?_⟩
      · rw [rollUpHostClosed, cut _ List.mem_cons_self]
        simp only
        rw [insertHostRows_coarse (coarse_ne_tenSeconds (coarse _ List.mem_cons_self))
          (storable _ List.mem_cons_self)]
        exact result
      · intro other member
        rcases List.mem_cons.mp member with rfl | later
        · rw [kept resolution fresh, MetricsDb.host_setHost, if_pos rfl]
        · have different : other.1 ≠ resolution := fun same =>
            fresh (List.mem_map.mpr ⟨other, later, same⟩)
          rw [written other later, MetricsDb.host_setHost, if_neg different]
      · intro other absent
        obtain ⟨different, absentRest⟩ := not_or.mp (mt List.mem_cons.mpr absent)
        rw [kept other absentRest, MetricsDb.host_setHost, if_neg different]

def hostBucketRows (db : MetricsDb) (resolution : MetricsResolution) (stop : Int) :
    List HostSample :=
  (db.host .tenSeconds).rows.filter fun sample =>
    bucketEnd sample.ts resolution.bucketMs = stop

/-- Fetching once and slicing gives each closed bucket its own rows. -/
theorem slice_selectHost {db : MetricsDb} {previousTs newTs : Int} {range : TimeRange}
    (found : widestSourceRange (resolutionsClosedBy previousTs newTs) = some range)
    {resolution : MetricsResolution} {stop : Int}
    (member : (resolution, stop) ∈ resolutionsClosedBy previousTs newTs) (search : PartitionPoint) :
    sliceByRange search (selectHost db .tenSeconds range) (sourceRange stop resolution)
      HostSample.ts = .ok (hostBucketRows db resolution stop) := by
  obtain ⟨coarse, rfl, -⟩ := mem_resolutionsClosedBy.mp member
  have sorted : (selectHost db .tenSeconds range).Pairwise
      fun earlier later => earlier.ts ≤ later.ts :=
    ((db.host .tenSeconds).ordered.filter _).imp fun below => below.le
  have valid : (sourceRange (bucketEnd previousTs resolution.bucketMs) resolution).fromMs ≤
      (sourceRange (bucketEnd previousTs resolution.bucketMs) resolution).toMs + 1 := by
    have := resolution.bucketMs_pos
    simp only [sourceRange]
    omega
  rw [sliceByRange_of_cutsCleanly search valid (cutsCleanly_of_sorted sorted), selectHost,
    KeyedTable.select, List.filter_filter, hostBucketRows]
  refine congrArg Except.ok (List.filter_congr fun sample _ => ?_)
  rw [Bool.eq_iff_iff, Bool.and_eq_true, contains_sourceRange, decide_eq_true_eq]
  exact and_iff_left_of_imp fun same =>
    widestSourceRange_covers found member (contains_sourceRange.mpr same)

/-- A host rollup recomputes every bucket that closed from all of its `10s` rows and
leaves every other table alone. -/
theorem rollUpHost_spec (search : PartitionPoint) (db : MetricsDb) (previousTs newTs : Int)
    (maxGapPct : Nat)
    (storable : ∀ sample ∈ (db.host .tenSeconds).rows, HostSample.Storable sample) :
    ∃ after, rollUpHost search db previousTs newTs maxGapPct = (after, .ok ()) ∧
      after.containers = db.containers ∧
      (∀ entry ∈ resolutionsClosedBy previousTs newTs, after.host entry.1 =
        (db.host entry.1).upsertAll
          (downsampleHost (hostBucketRows db entry.1 entry.2) entry.1 maxGapPct)) ∧
      ∀ resolution ∉ (resolutionsClosedBy previousTs newTs).map Prod.fst,
        after.host resolution = db.host resolution := by
  cases found : widestSourceRange (resolutionsClosedBy previousTs newTs) with
  | none =>
      simp only [rollUpHost, found]
      rw [widestSourceRange_eq_none found]
      exact ⟨db, rfl, rfl, nofun, fun _ _ => rfl⟩
  | some range =>
      simp only [rollUpHost, found]
      refine rollUpHostClosed_spec search maxGapPct
        (fun entry => hostBucketRows db entry.1 entry.2)
        (nodup_resolutionsClosedBy previousTs newTs)
        (fun entry member => (mem_resolutionsClosedBy.mp member).1)
        (fun entry member => slice_selectHost found member search) ?_ db
      intro entry member
      exact downsampleHost_within ((db.host .tenSeconds).ordered.filter _)
        fun sample present => storable sample (List.mem_filter.mp present).1

/-! ## Container rollups -/

theorem insertContainers_ok_coarse {db after : MetricsDb} {resolution : MetricsResolution}
    {rows : List ContainerSample} (coarse : resolution ≠ .tenSeconds)
    (succeeded : insertContainers db resolution rows = .ok after) :
    after = db.setContainers resolution ((db.containers resolution).upsertAll rows) := by
  by_cases storable : ∀ row ∈ rows, ContainerSample.Storable row
  · rw [insertContainers_coarse coarse storable] at succeeded
    exact (Except.ok.inj succeeded).symm
  · have nonempty : ¬ rows.isEmpty = true := fun empty => by
      rw [List.isEmpty_iff.mp empty] at storable
      simp at storable
    rw [insertContainers, if_neg nonempty] at succeeded
    cases checked : checkSamples rows with
    | ok _ => exact absurd (checkSamples_ok_iff.mp checked) storable
    | error fault => simp [checked] at succeeded

/-- A successful container rollup writes, for each closed resolution, the rows of the
slice taken for it, and changes no other table. -/
theorem rollUpContainersClosed_spec {search : PartitionPoint} {order : HashOrder}
    {samples : List ContainerSample} {maxGapPct : Nat}
    {slice : MetricsResolution × Int → List ContainerSample}
    {closed : List (MetricsResolution × Int)} (nodup : (closed.map Prod.fst).Nodup)
    (coarse : ∀ entry ∈ closed, entry.1 ∈ MetricsResolution.coarse)
    (cut : ∀ entry ∈ closed, sliceByRange search samples (sourceRange entry.2 entry.1)
      ContainerSample.ts = .ok (slice entry)) {db after : MetricsDb}
    (succeeded : rollUpContainersClosed search order samples maxGapPct closed db =
      (after, .ok ())) :
    (∀ entry ∈ closed, after.containers entry.1 = (db.containers entry.1).upsertAll
        (rolledContainers order (slice entry) entry.1 maxGapPct)) ∧
      ∀ resolution ∉ closed.map Prod.fst, after.containers resolution = db.containers resolution := by
  induction closed generalizing db with
  | nil =>
      cases succeeded
      exact ⟨nofun, fun _ _ => rfl⟩
  | cons entry rest ih =>
      obtain ⟨resolution, stop⟩ := entry
      obtain ⟨fresh, restNodup⟩ := List.nodup_cons.mp nodup
      rw [rollUpContainersClosed, cut _ List.mem_cons_self] at succeeded
      simp only at succeeded
      split at succeeded
      · cases succeeded
      · next next inserted =>
          have shape := insertContainers_ok_coarse
            (coarse_ne_tenSeconds (coarse _ List.mem_cons_self)) inserted
          obtain ⟨written, kept⟩ := ih restNodup
            (fun other member => coarse other (List.mem_cons_of_mem _ member))
            (fun other member => cut other (List.mem_cons_of_mem _ member)) succeeded
          refine ⟨fun other member => ?_, fun other absent => ?_⟩
          · rcases List.mem_cons.mp member with rfl | later
            · rw [kept resolution fresh, shape, MetricsDb.containers_setContainers, if_pos rfl]
            · have different : other.1 ≠ resolution := fun same =>
                fresh (List.mem_map.mpr ⟨other, later, same⟩)
              rw [written other later, shape, MetricsDb.containers_setContainers,
                if_neg different]
          · obtain ⟨different, absentRest⟩ := not_or.mp (mt List.mem_cons.mpr absent)
            rw [kept other absentRest, shape, MetricsDb.containers_setContainers,
              if_neg different]

theorem rollUpContainersClosed_ok {search : PartitionPoint} {order : HashOrder}
    {samples : List ContainerSample} {maxGapPct : Nat}
    {slice : MetricsResolution × Int → List ContainerSample}
    {closed : List (MetricsResolution × Int)}
    (coarse : ∀ entry ∈ closed, entry.1 ∈ MetricsResolution.coarse)
    (cut : ∀ entry ∈ closed, sliceByRange search samples (sourceRange entry.2 entry.1)
      ContainerSample.ts = .ok (slice entry))
    (storable : ∀ entry ∈ closed, ∀ row ∈ rolledContainers order (slice entry) entry.1 maxGapPct,
      ContainerSample.Storable row) (db : MetricsDb) :
    ∃ after, rollUpContainersClosed search order samples maxGapPct closed db =
      (after, .ok ()) := by
  induction closed generalizing db with
  | nil => exact ⟨db, rfl⟩
  | cons entry rest ih =>
      obtain ⟨after, result⟩ := ih
        (fun other member => coarse other (List.mem_cons_of_mem _ member))
        (fun other member => cut other (List.mem_cons_of_mem _ member))
        (fun other member => storable other (List.mem_cons_of_mem _ member)) (db.setContainers
          entry.1 ((db.containers entry.1).upsertAll
            (rolledContainers order (slice entry) entry.1 maxGapPct)))
      refine ⟨after, ?_⟩
      rw [rollUpContainersClosed, cut _ List.mem_cons_self]
      simp only
      rw [insertContainers_coarse (coarse_ne_tenSeconds (coarse _ List.mem_cons_self))
        (storable _ List.mem_cons_self)]
      exact result

/-- The rows of one container among samples sorted by container and then by time. -/
theorem ordered_filter_cid {samples : List ContainerSample}
    (sorted : samples.Pairwise cidThenTs) (nodup : (samples.map containerKey).Nodup)
    (cid : ContainerId) :
    (samples.filter fun sample => sample.cid = cid).Pairwise
      fun earlier later => earlier.ts < later.ts := by
  have distinct : samples.Pairwise fun earlier later => containerKey earlier ≠ containerKey later :=
    List.pairwise_map.mp nodup
  refine List.Pairwise.imp_of_mem (fun {earlier later} earlierMember laterMember both => ?_)
    ((sorted.and distinct).filter _)
  have earlierCid : earlier.cid = cid := by simpa using (List.mem_filter.mp earlierMember).2
  have laterCid : later.cid = cid := by simpa using (List.mem_filter.mp laterMember).2
  obtain ⟨below, different⟩ := both
  rcases below with less | ⟨-, le⟩
  · exact absurd (earlierCid.trans laterCid.symm) less.ne
  · refine lt_of_le_of_ne le fun same => different ?_
    simp only [containerKey, same, earlierCid, laterCid]

theorem mem_rolledContainers {order : HashOrder} {slice : List ContainerSample}
    {resolution : MetricsResolution} {maxGapPct : Nat} {point : ContainerSample}
    (sorted : slice.Pairwise cidThenTs) (nodup : (slice.map containerKey).Nodup) :
    point ∈ rolledContainers order slice resolution maxGapPct ↔
      point ∈ downsampleContainer (slice.filter fun sample => sample.cid = point.cid)
        resolution maxGapPct := by
  simp only [rolledContainers, List.mem_flatMap, order.mem_arrange, Prod.exists, mem_groupByKey]
  constructor
  · rintro ⟨cid, _, ⟨-, rfl⟩, member⟩
    have stamped := downsampleContainer_cid (ordered_filter_cid sorted nodup cid)
      (fun sample present => by simpa using (List.mem_filter.mp present).2) point member
    rwa [stamped]
  · intro member
    obtain ⟨sample, present, -⟩ := mem_downsampleContainer_ts member
    obtain ⟨inSlice, same⟩ := List.mem_filter.mp present
    exact ⟨point.cid, _, ⟨⟨sample, inSlice, by simpa using same⟩, rfl⟩, member⟩

/-- The row written at a key is the one downsampled for that container and time. -/
theorem find?_upsertAll_rolledContainers (table : ContainerTable) {order : HashOrder}
    {slice : List ContainerSample} (resolution : MetricsResolution) (maxGapPct : Nat)
    (sorted : slice.Pairwise cidThenTs) (nodup : (slice.map containerKey).Nodup)
    (cid : ContainerId) (ts : Int) :
    (table.upsertAll (rolledContainers order slice resolution maxGapPct)).find? (toLex (ts, cid)) =
      ((downsampleContainer (slice.filter fun sample => sample.cid = cid) resolution
        maxGapPct).find? fun row => row.ts = ts).or (table.find? (toLex (ts, cid))) := by
  have ordered : ∀ cid, (downsampleContainer (slice.filter fun sample => sample.cid = cid)
      resolution maxGapPct).Pairwise fun earlier later => earlier.ts < later.ts :=
    fun cid => ordered_downsampleContainer (ordered_filter_cid sorted nodup cid)
  have unique : ∀ cid, ∀ first ∈ downsampleContainer (slice.filter fun sample => sample.cid = cid)
      resolution maxGapPct, ∀ second ∈ downsampleContainer
        (slice.filter fun sample => sample.cid = cid) resolution maxGapPct,
      first.ts = second.ts → first = second := by
    intro cid first firstMember second secondMember same
    exact List.inj_on_of_nodup_map (List.pairwise_map.mpr ((ordered cid).imp fun below => below.ne))
      firstMember secondMember same
  have inSlice : ∀ {row}, row ∈ rolledContainers order slice resolution maxGapPct ↔ _ :=
    mem_rolledContainers sorted nodup
  refine KeyedTable.find?_upsertAll_of_unique table ?_ fun point => ?_
  · intro first firstMember second secondMember same
    obtain ⟨sameTs, sameCid⟩ := Prod.mk.inj (toLex.injective same)
    rw [inSlice] at firstMember secondMember
    rw [← sameCid] at secondMember
    exact unique _ first firstMember second secondMember sameTs
  · rw [KeyedTable.find?_eq_some_of_unique, inSlice, decide_eq_true_eq]
    · constructor
      · rintro ⟨member, rfl⟩
        have stamped := downsampleContainer_cid (ordered_filter_cid sorted nodup cid)
          (fun sample present => by simpa using (List.mem_filter.mp present).2) point member
        exact ⟨stamped.symm ▸ member, by rw [containerKey, stamped]⟩
      · rintro ⟨member, same⟩
        obtain ⟨rfl, rfl⟩ := Prod.mk.inj (toLex.injective same)
        exact ⟨member, rfl⟩
    · intro first firstMember second secondMember firstTs secondTs
      rw [decide_eq_true_eq] at firstTs secondTs
      exact unique cid first firstMember second secondMember (firstTs.trans secondTs.symm)

end Vpsiner.Metrics
