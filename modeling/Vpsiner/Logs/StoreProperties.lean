import Mathlib.Data.Prod.Lex
import Vpsiner.Lib.Paging
import Vpsiner.Logs.Store

/-! What a query answers, stated over the flat list of the matching lines of a
service. -/

set_option autoImplicit false

namespace Vpsiner.Logs

open Vpsiner.Lib Vpsiner.Lib.Paging

namespace WeekDb

def start (db : WeekDb) : Int := (databaseWeekStartMs db.name).getD 0

theorem databaseWeekStartMs_name (db : WeekDb) : databaseWeekStartMs db.name = some db.start := by
  obtain ⟨tsMs, named⟩ := db.named
  rw [start, databaseWeekStartMs_weekDatabaseName named, Option.getD_some]

theorem start_spec (db : WeekDb) :
    db.start % weekMs = 4 * dayMs ∧ -400000000000000 ≤ db.start ∧ db.start ≤ 400000000000000 := by
  obtain ⟨tsMs, named⟩ := db.named
  rw [start, databaseWeekStartMs_weekDatabaseName named, Option.getD_some]
  exact ⟨weekStartOf_mod tsMs, weekStartOf_bounds named⟩

theorem weekStartMs_name (db : WeekDb) : weekStartMs db.name = .ok db.start := by
  rw [weekStartMs, db.databaseWeekStartMs_name]

/-- The stored lines of the week, in the order of the row ids. -/
def entries (service : String) (db : WeekDb) : List StoredLog :=
  db.logs.rows.filterMap (decodeRow service db.name db.start)

end WeekDb

def ServiceDir.entries (service : String) (dir : ServiceDir) : List StoredLog :=
  dir.weeks.flatMap (WeekDb.entries service)

def SqliteLogStore.entries (store : SqliteLogStore) (service : String) : List StoredLog :=
  ((store.serviceDir? service).map (ServiceDir.entries service)).getD []

/-- The order of the log: by time, and within a week file by row id. -/
def StoredLog.position (entry : StoredLog) : Int ×ₗ Int := toLex (entry.ts, entry.id)

def cursorPosition (cursor : LogCursor) : Int ×ₗ Int := toLex (cursor.ts, cursor.id)

theorem position_lt_iff {left right : StoredLog} :
    left.position < right.position ↔
      left.ts < right.ts ∨ left.ts = right.ts ∧ left.id < right.id :=
  Prod.Lex.toLex_lt_toLex

/-- What the filter says about a line. -/
def filterMatches (backend : LogBackend) (filter : LogFilter) (line : LogLine) : Bool :=
  filter.fromMs.all (· ≤ line.ts) && filter.toMs.all (line.ts ≤ ·) &&
  (filter.levels.isEmpty || line.level.any filter.levels.contains) &&
  (filter.streams.isEmpty || filter.streams.contains line.stream) &&
  (filter.query.bind sanitizeFtsQuery).all fun query => backend.ftsMatches query line.line

/-- The bounds are far enough inside `i64` that subtracting a week start is exact. -/
def BoundsFit (filter : LogFilter) : Prop :=
  ∀ bound, bound ∈ filter.fromMs ∨ bound ∈ filter.toMs → ∀ name start,
    databaseWeekStartMs name = some start → i64Min ≤ bound - start ∧ bound - start ≤ i64Max

/-- A cursor that a page handed out names the week of its time. -/
structure GenuineCursor (cursor : LogCursor) : Prop where
  named : ∃ tsMs, weekDatabaseName tsMs = some cursor.week
  within : databaseWeekStartMs cursor.week = some (weekStartOf cursor.ts)

def Direction.Before (direction : Direction) (left right : Int ×ₗ Int) : Prop :=
  match direction with
  | .backward => right < left
  | .forward => left < right

theorem i64Sub_eq {left right : Int} (lower : i64Min ≤ left - right)
    (upper : left - right ≤ i64Max) : i64Sub left right = left - right := by
  rw [i64Min] at lower
  rw [i64Max] at upper
  exact Int.bmod_eq_of_le (by omega) (by omega)

/-! ## One row -/

theorem decodeRow_eq_some {service week : String} {weekStart : Int} {row : LogRow}
    {stream : LogStream} (code : row.stream = stream.storageCode) :
    decodeRow service week weekStart row = some {
      ts := row.tsRel + weekStart, week, id := row.id
      line := {
        ts := row.tsRel + weekStart, service, cid := row.cid, stream
        level := row.level.bind LogLevel.fromStorageCode, line := row.line } } := by
  simp only [decodeRow, code, LogStream.fromStorageCode_storageCode, Option.bind_eq_bind,
    Option.bind_some, Option.pure_def]

private theorem storageCode_injective {left right : LogStream}
    (same : left.storageCode = right.storageCode) : left = right := by
  have decoded := congrArg LogStream.fromStorageCode same
  simpa using decoded

private theorem fromStorageCode_eq_some {code : Int} {level : LogLevel}
    (decoded : LogLevel.fromStorageCode code = some level) : code = level.storageCode := by
  simp only [LogLevel.fromStorageCode] at decoded
  repeat' split at decoded
  all_goals cases decoded
  all_goals assumption

private theorem levels_contain_iff (levels : List LogLevel) (code : Option Int) :
    code.any (levels.map LogLevel.storageCode).contains =
      (code.bind LogLevel.fromStorageCode).any levels.contains := by
  cases code with
  | none => rfl
  | some code =>
      rw [Bool.eq_iff_iff, Option.any_some, List.contains_iff_mem, List.mem_map, Option.any_eq_true]
      constructor
      · intro found
        obtain ⟨level, member, rfl⟩ := found
        refine ⟨level, ?_, List.contains_iff_mem.mpr member⟩
        simp
      · intro found
        obtain ⟨level, decoded, member⟩ := found
        exact ⟨level, List.contains_iff_mem.mp member, (fromStorageCode_eq_some decoded).symm⟩

private theorem streams_contain_iff (streams : List LogStream) (stream : LogStream) :
    (streams.map LogStream.storageCode).contains stream.storageCode = streams.contains stream := by
  rw [Bool.eq_iff_iff, List.contains_iff_mem, List.contains_iff_mem, List.mem_map]
  constructor
  · intro found
    obtain ⟨other, member, same⟩ := found
    exact storageCode_injective same ▸ member
  · intro member
    exact ⟨stream, member, rfl⟩

theorem filtersAdmit_eq {backend : LogBackend} {filter : LogFilter} (db : WeekDb)
    (fit : ∀ bound, bound ∈ filter.fromMs ∨ bound ∈ filter.toMs →
      i64Min ≤ bound - db.start ∧ bound - db.start ≤ i64Max) {service : String} {row : LogRow} {entry : StoredLog}
    (fits : row.Fits) (decoded : decodeRow service db.name db.start row = some entry) :
    ((filter.query.bind sanitizeFtsQuery).all (fun query => backend.ftsMatches query row.line) &&
      filtersAdmit filter db.start row) = filterMatches backend filter entry.line := by
  obtain ⟨_, _, stream, code⟩ := fits
  rw [decodeRow_eq_some code] at decoded
  cases decoded
  have lower : filter.fromMs.all (fun fromMs => i64Sub fromMs db.start ≤ row.tsRel) =
      filter.fromMs.all (· ≤ row.tsRel + db.start) := by
    cases given : filter.fromMs with
    | none => rfl
    | some fromMs =>
        have inside := fit fromMs (.inl given)
        simp only [Option.all_some, i64Sub_eq inside.1 inside.2, decide_eq_decide]
        omega
  have upper : filter.toMs.all (fun toMs => row.tsRel ≤ i64Sub toMs db.start) =
      filter.toMs.all (row.tsRel + db.start ≤ ·) := by
    cases given : filter.toMs with
    | none => rfl
    | some toMs =>
        have inside := fit toMs (.inr given)
        simp only [Option.all_some, i64Sub_eq inside.1 inside.2, decide_eq_decide]
        omega
  rw [filtersAdmit, filterMatches, lower, upper, levels_contain_iff, code, streams_contain_iff,
    Bool.and_comm]

/-- The condition on the row id in the week of the cursor, and its absence elsewhere, give
the order of the log. -/
theorem cursorAdmits_spec {cursor : LogCursor} (genuine : GenuineCursor cursor) (direction : Direction)
    (db : WeekDb) : ∃ admits, cursorAdmits cursor db.start direction = .ok admits ∧
      ∀ row ∈ db.logs.rows, ∀ {service : String} {entry : StoredLog},
        decodeRow service db.name db.start row = some entry →
          (admits row = true ↔ direction.Before (cursorPosition cursor) entry.position) := by
  have start := db.start_spec
  obtain ⟨tsMs, named⟩ := genuine.named
  have cursorStart := weekStartOf_bounds named
  have within := genuine.within
  rw [databaseWeekStartMs_weekDatabaseName named, Option.some.injEq] at within
  have week := genuine.within
  have lower := weekStartOf_le cursor.ts
  have upper := lt_weekStartOf_add cursor.ts
  have short : weekMs = 604800000 := by decide
  have exact : i64Sub cursor.ts db.start = cursor.ts - db.start :=
    i64Sub_eq (by rw [i64Min]; omega) (by rw [i64Max]; omega)
  simp only [cursorAdmits, exact, weekStartMs, week, ok_bind]
  by_cases same : db.start = weekStartOf cursor.ts
  · rw [if_neg (not_not.mpr same)]
    refine ⟨_, rfl, fun row member service entry decoded => ?_⟩
    obtain ⟨_, _, stream, code⟩ := db.fits row member
    rw [decodeRow_eq_some code] at decoded
    cases decoded
    cases direction with
    | backward =>
        simp only [Direction.Before, StoredLog.position, cursorPosition,
          Prod.Lex.toLex_lt_toLex, decide_eq_true_eq]
        omega
    | forward =>
        simp only [Direction.Before, StoredLog.position, cursorPosition,
          Prod.Lex.toLex_lt_toLex, decide_eq_true_eq]
        omega
  · rw [if_pos same]
    refine ⟨_, rfl, fun row member service entry decoded => ?_⟩
    obtain ⟨first, last, stream, code⟩ := db.fits row member
    have other : row.tsRel + db.start ≠ cursor.ts := by
      intro equal
      apply same
      rw [← equal]
      exact (weekStartOf_eq start.1 (by omega) (by omega)).symm
    rw [decodeRow_eq_some code] at decoded
    cases decoded
    cases direction with
    | backward =>
        simp only [Direction.Before, StoredLog.position, cursorPosition,
          Prod.Lex.toLex_lt_toLex, decide_eq_true_eq]
        omega
    | forward =>
        simp only [Direction.Before, StoredLog.position, cursorPosition,
          Prod.Lex.toLex_lt_toLex, decide_eq_true_eq]
        omega

/-! ## One week -/

private theorem scanOrder_total (direction : Direction) (left right : LogRow) :
    scanOrder direction left right ∨ scanOrder direction right left := by
  cases direction with
  | backward =>
      simp only [scanOrder]
      omega
  | forward =>
      simp only [scanOrder]
      omega

private theorem scanOrder_trans {direction : Direction} {first second third : LogRow}
    (left : scanOrder direction first second) (right : scanOrder direction second third) :
    scanOrder direction first third := by
  cases direction with
  | backward =>
      simp only [scanOrder] at *
      omega
  | forward =>
      simp only [scanOrder] at *
      omega

instance (direction : Direction) : Std.Total (scanOrder direction) := ⟨scanOrder_total direction⟩
instance (direction : Direction) : IsTrans LogRow (scanOrder direction) :=
  ⟨fun _ _ _ => scanOrder_trans⟩

/-- What is kept of the rows past the cursor, if there is one. -/
def Direction.Past (direction : Direction) (cursor : Option LogCursor) (entry : StoredLog) : Prop :=
  ∀ bound ∈ cursor, direction.Before (cursorPosition bound) entry.position

section Scan

variable {backend : LogBackend} {filter : LogFilter} {cursor : Option LogCursor}
  {direction : Direction} {service : String}

def weekScan (backend : LogBackend) (service : String) (filter : LogFilter)
    (cursor : Option LogCursor) (direction : Direction) (db : WeekDb) : List StoredLog :=
  match selectRows backend filter (filter.query.bind sanitizeFtsQuery) cursor direction db.start db
  with
  | .ok rows => rows.filterMap (decodeRow service db.name db.start)
  | .error _ => []

theorem pastCursor_spec (genuine : ∀ bound ∈ cursor, GenuineCursor bound)
    (direction : Direction) (db : WeekDb) :
    ∃ admits, pastCursor cursor db.start direction = .ok admits ∧
      ∀ row ∈ db.logs.rows, ∀ {service : String} {entry : StoredLog},
        decodeRow service db.name db.start row = some entry →
          (admits row = true ↔ direction.Past cursor entry) := by
  cases cursor with
  | none => exact ⟨_, rfl, fun _ _ _ _ _ => iff_of_true rfl nofun⟩
  | some bound =>
      obtain ⟨admits, computed, spec⟩ := cursorAdmits_spec (genuine bound rfl) direction db
      refine ⟨admits, computed, fun row member service entry decoded => ?_⟩
      rw [spec row member decoded]
      constructor
      · intro past other same
        cases same
        exact past
      · intro past
        exact past bound rfl

theorem selectRows_spec (fit : BoundsFit filter) (genuine : ∀ bound ∈ cursor, GenuineCursor bound)
    (backend : LogBackend) (service : String) (direction : Direction) (db : WeekDb) :
    ∃ rows, selectRows backend filter (filter.query.bind sanitizeFtsQuery) cursor direction
        db.start db = .ok rows ∧
      rows.Pairwise (fun earlier later => scanOrder direction earlier later ∧
        earlier.id ≠ later.id) ∧
      ∀ row, row ∈ rows ↔ row ∈ db.logs.rows ∧
        ∃ entry, decodeRow service db.name db.start row = some entry ∧
          filterMatches backend filter entry.line = true ∧ direction.Past cursor entry := by
  obtain ⟨admits, computed, spec⟩ := pastCursor_spec genuine direction db
  simp only [selectRows, computed, ok_bind]
  refine ⟨_, rfl, ?_, ?_⟩
  · refine (List.pairwise_insertionSort _ _).and ?_
    have distinct : db.logs.rows.Pairwise fun earlier later => earlier.id ≠ later.id :=
      db.logs.ordered.imp fun before => before.ne
    exact ((List.perm_insertionSort _ _).pairwise_iff fun different => different.symm).mpr
      (distinct.filter _)
  · intro row
    rw [List.mem_insertionSort, List.mem_filter]
    refine and_congr_right fun member => ?_
    obtain ⟨_, _, stream, code⟩ := db.fits row member
    have decoded : decodeRow service db.name db.start row = some _ := decodeRow_eq_some code
    have fitted : ∀ bound, bound ∈ filter.fromMs ∨ bound ∈ filter.toMs →
        i64Min ≤ bound - db.start ∧ bound - db.start ≤ i64Max := fun bound given =>
      fit bound given db.name db.start db.databaseWeekStartMs_name
    rw [Bool.and_eq_true, filtersAdmit_eq db fitted (db.fits row member) decoded,
      spec row member decoded]
    constructor
    · intro conditions
      exact ⟨_, decoded, conditions⟩
    · intro found
      obtain ⟨entry, same, conditions⟩ := found
      rw [decoded, Option.some.injEq] at same
      subst same
      exact conditions

theorem mem_weekScan (fit : BoundsFit filter) (genuine : ∀ bound ∈ cursor, GenuineCursor bound)
    {db : WeekDb} {entry : StoredLog} :
    entry ∈ weekScan backend service filter cursor direction db ↔
      entry ∈ db.entries service ∧ filterMatches backend filter entry.line = true ∧
        direction.Past cursor entry := by
  obtain ⟨rows, computed, _, selected⟩ :=
    selectRows_spec fit genuine backend service direction db
  simp only [weekScan, computed, WeekDb.entries, List.mem_filterMap, selected]
  constructor
  · intro found
    obtain ⟨row, ⟨member, other, same, conditions⟩, decoded⟩ := found
    rw [same, Option.some.injEq] at decoded
    subst decoded
    exact ⟨⟨row, member, same⟩, conditions⟩
  · intro found
    obtain ⟨⟨row, member, decoded⟩, conditions⟩ := found
    exact ⟨row, ⟨member, entry, decoded, conditions⟩, decoded⟩

theorem decodeRow_of_fits {row : LogRow} (fits : row.Fits) (service week : String)
    (weekStart : Int) : ∃ entry, decodeRow service week weekStart row = some entry ∧
      entry.ts = row.tsRel + weekStart ∧ entry.id = row.id ∧ entry.week = week ∧
        entry.line.ts = entry.ts := by
  obtain ⟨_, _, stream, code⟩ := fits
  exact ⟨_, decodeRow_eq_some code, rfl, rfl, rfl, rfl⟩

theorem WeekDb.of_mem_entries {db : WeekDb} {entry : StoredLog}
    (member : entry ∈ db.entries service) :
    entry.week = db.name ∧ weekStartOf entry.ts = db.start ∧ entry.line.ts = entry.ts ∧
      ∃ row ∈ db.logs.rows, decodeRow service db.name db.start row = some entry ∧
        entry.ts = row.tsRel + db.start ∧ entry.id = row.id := by
  obtain ⟨row, present, decoded⟩ := List.mem_filterMap.mp member
  have fits := db.fits row present
  obtain ⟨other, same, ts, id, week, time⟩ := decodeRow_of_fits fits service db.name db.start
  rw [decoded, Option.some.injEq] at same
  subst same
  refine ⟨week, ?_, time, row, present, decoded, ts, id⟩
  obtain ⟨lower, upper, _⟩ := fits
  exact weekStartOf_eq db.start_spec.1 (by omega) (by omega)

theorem before_of_scanOrder {direction : Direction} {earlier later : LogRow} {week : String}
    {weekStart : Int} {first second : StoredLog} (order : scanOrder direction earlier later)
    (different : earlier.id ≠ later.id) (earlierFits : earlier.Fits) (laterFits : later.Fits)
    (firstDecoded : decodeRow service week weekStart earlier = some first)
    (secondDecoded : decodeRow service week weekStart later = some second) :
    direction.Before first.position second.position := by
  obtain ⟨_, _, _, firstCode⟩ := earlierFits
  obtain ⟨_, _, _, secondCode⟩ := laterFits
  rw [decodeRow_eq_some firstCode] at firstDecoded
  rw [decodeRow_eq_some secondCode] at secondDecoded
  cases firstDecoded
  cases secondDecoded
  cases direction with
  | backward =>
      simp only [scanOrder, Direction.Before, StoredLog.position, Prod.Lex.toLex_lt_toLex] at *
      omega
  | forward =>
      simp only [scanOrder, Direction.Before, StoredLog.position, Prod.Lex.toLex_lt_toLex] at *
      omega

theorem weekScan_ordered (fit : BoundsFit filter) (genuine : ∀ bound ∈ cursor, GenuineCursor bound)
    (db : WeekDb) : (weekScan backend service filter cursor direction db).Pairwise
      fun earlier later => direction.Before earlier.position later.position := by
  obtain ⟨rows, computed, ordered, selected⟩ :=
    selectRows_spec fit genuine backend service direction db
  simp only [weekScan, computed]
  rw [List.pairwise_filterMap]
  refine ordered.imp_of_mem ?_
  intro earlier later earlierMember laterMember order first firstDecoded second secondDecoded
  exact before_of_scanOrder order.1 order.2 (db.fits _ ((selected _).mp earlierMember).1)
    (db.fits _ ((selected _).mp laterMember).1) firstDecoded secondDecoded

/-- A row that decodes to a line never makes the page shorter. -/
private theorem filterMap_take {α β : Type} (decode : α → Option β) (count : Nat) :
    ∀ items : List α, (∀ item ∈ items, (decode item).isSome = true) →
      (items.take count).filterMap decode = (items.filterMap decode).take count := by
  induction count with
  | zero => simp
  | succ count ih =>
      intro items total
      cases items with
      | nil => rfl
      | cons item rest =>
          obtain ⟨here, later⟩ := List.forall_mem_cons.mp total
          obtain ⟨value, decoded⟩ := Option.isSome_iff_exists.mp here
          rw [List.take_succ_cons, List.filterMap_cons_some decoded,
            List.filterMap_cons_some decoded, List.take_succ_cons, ih rest later]

theorem scanWeeks_full {search : Option String} {target : Nat} {page : List StoredLog}
    (full : target ≤ page.length) (dbs : List WeekDb) :
    scanWeeks backend service filter search cursor direction target dbs page = .ok page := by
  cases dbs with
  | nil => rfl
  | cons db rest => rw [scanWeeks, if_pos full]

theorem scanWeeks_cons {search : Option String} {target : Nat} {page : List StoredLog} (db : WeekDb)
    (rest : List WeekDb) :
    scanWeeks backend service filter search cursor direction target (db :: rest) page =
      scanWeeks backend service filter search cursor direction target [db] page >>=
        scanWeeks backend service filter search cursor direction target rest := by
  by_cases full : target ≤ page.length
  · rw [scanWeeks_full full, scanWeeks_full full, ok_bind, scanWeeks_full full]
  · rw [scanWeeks, if_neg full, scanWeeks, if_neg full]
    cases weekStartMs db.name with
    | error fault => rfl
    | ok weekStart =>
        simp only [ok_bind]
        cases selectRows backend filter search cursor direction weekStart db with
        | error fault => rfl
        | ok rows => rfl

/-- The loop over the weeks collects the first `target` lines of their scans. -/
theorem scanWeeks_eq (fit : BoundsFit filter) (genuine : ∀ bound ∈ cursor, GenuineCursor bound)
    (target : Nat) (dbs : List WeekDb) (page : List StoredLog) :
    scanWeeks backend service filter (filter.query.bind sanitizeFtsQuery) cursor direction target
      dbs page = .ok (page ++ (dbs.flatMap (weekScan backend service filter cursor direction)).take
        (target - page.length)) := by
  induction dbs generalizing page with
  | nil => simp [scanWeeks]
  | cons db rest ih =>
      rw [scanWeeks]
      by_cases full : target ≤ page.length
      · rw [if_pos full, Nat.sub_eq_zero_of_le full, List.take_zero, List.append_nil]
      · obtain ⟨rows, computed, _, selected⟩ :=
          selectRows_spec fit genuine backend service direction db
        have decodes : ∀ row ∈ rows,
            (decodeRow service db.name db.start row).isSome = true := by
          intro row member
          obtain ⟨_, entry, decoded, _⟩ := (selected row).mp member
          rw [decoded]
          rfl
        have scan : weekScan backend service filter cursor direction db =
            rows.filterMap (decodeRow service db.name db.start) := by
          simp only [weekScan, computed]
        rw [if_neg full, db.weekStartMs_name, ok_bind, computed, ok_bind, ih,
          filterMap_take _ _ _ decodes, ← scan, List.flatMap_cons, List.take_append,
          List.length_append, List.length_take, List.append_assoc]
        congr 4
        omega

/-! ## All weeks -/

theorem readWeekFiles_eq (dir : ServiceDir) :
    readWeekFiles dir = (dir.weeks.map fun db => (db, db.start)).insertionSort
      fun left right => left.2 ≤ right.2 := by
  have parsed : (fun db : WeekDb => (databaseWeekStartMs db.name).map fun start => (db, start)) =
      fun db => some (db, db.start) := by
    funext db
    rw [db.databaseWeekStartMs_name, Option.map_some]
  rw [readWeekFiles, parsed, ← List.filterMap_eq_map]
  rfl

theorem mem_readWeekFiles {dir : ServiceDir} {db : WeekDb} {start : Int} :
    (db, start) ∈ readWeekFiles dir ↔ db ∈ dir.weeks ∧ start = db.start := by
  rw [readWeekFiles_eq, List.mem_insertionSort, List.mem_map]
  constructor
  · intro found
    obtain ⟨other, member, same⟩ := found
    cases same
    exact ⟨member, rfl⟩
  · intro found
    exact ⟨db, found.1, by rw [found.2]⟩

/-- Week files of different names hold different weeks. -/
theorem WeekDb.start_injective {left right : WeekDb} (same : left.start = right.start) :
    left.name = right.name := by
  obtain ⟨leftTs, leftNamed⟩ := left.named
  obtain ⟨rightTs, rightNamed⟩ := right.named
  have leftStart := left.databaseWeekStartMs_name
  have rightStart := right.databaseWeekStartMs_name
  rw [databaseWeekStartMs_weekDatabaseName leftNamed, Option.some.injEq] at leftStart
  rw [databaseWeekStartMs_weekDatabaseName rightNamed, Option.some.injEq] at rightStart
  exact weekDatabaseName_congr leftNamed rightNamed (leftStart.trans (same.trans rightStart.symm))

theorem readWeekFiles_ordered (dir : ServiceDir) : (readWeekFiles dir).Pairwise
    fun earlier later => earlier.1.start + weekMs ≤ later.1.start := by
  have sorted : (readWeekFiles dir).Pairwise fun earlier later => earlier.2 ≤ later.2 := by
    rw [readWeekFiles]
    exact List.pairwise_insertionSort _ _
  have distinct : (readWeekFiles dir).Pairwise
      fun earlier later => earlier.1.name ≠ later.1.name := by
    rw [readWeekFiles_eq]
    refine ((List.perm_insertionSort _ _).pairwise_iff fun different => different.symm).mpr ?_
    rw [List.pairwise_map]
    exact List.pairwise_map.mp dir.distinct
  refine (sorted.and distinct).imp_of_mem ?_
  intro earlier later earlierMember laterMember both
  obtain ⟨before, different⟩ := both
  rw [(mem_readWeekFiles.mp earlierMember).2, (mem_readWeekFiles.mp laterMember).2] at before
  have apart : earlier.1.start ≠ later.1.start := fun same =>
    different (WeekDb.start_injective same)
  have earlierAligned := earlier.1.start_spec.1
  have laterAligned := later.1.start_spec.1
  rw [weekMs, dayMs] at *
  omega

theorem orderedCandidates_ordered (dir : ServiceDir) (filter : LogFilter)
    (cursor : Option LogCursor) (direction : Direction) :
    (orderedCandidates (readWeekFiles dir) filter cursor direction).Pairwise fun earlier later =>
      match direction with
      | .backward => later.start + weekMs ≤ earlier.start
      | .forward => earlier.start + weekMs ≤ later.start := by
  have ascending : (((readWeekFiles dir).filter fun week =>
      weekMatches week.2 filter cursor direction).map Prod.fst).Pairwise
        fun earlier later => earlier.start + weekMs ≤ later.start :=
    List.pairwise_map.mpr ((readWeekFiles_ordered dir).filter _)
  cases direction with
  | backward => exact List.pairwise_reverse.mpr ascending
  | forward => exact ascending

theorem mem_orderedCandidates {dir : ServiceDir} {db : WeekDb} :
    db ∈ orderedCandidates (readWeekFiles dir) filter cursor direction ↔
      db ∈ dir.weeks ∧ weekMatches db.start filter cursor direction = true := by
  have selected : db ∈ ((readWeekFiles dir).filter fun week =>
      weekMatches week.2 filter cursor direction).map Prod.fst ↔
        db ∈ dir.weeks ∧ weekMatches db.start filter cursor direction = true := by
    rw [List.mem_map]
    constructor
    · intro found
      obtain ⟨⟨other, start⟩, member, same⟩ := found
      cases same
      obtain ⟨present, holds⟩ := List.mem_filter.mp member
      obtain ⟨stored, start⟩ := mem_readWeekFiles.mp present
      exact ⟨stored, start ▸ holds⟩
    · intro found
      exact ⟨(db, db.start),
        List.mem_filter.mpr ⟨mem_readWeekFiles.mpr ⟨found.1, rfl⟩, found.2⟩, rfl⟩
  cases direction with
  | backward => exact List.mem_reverse.trans selected
  | forward => exact selected

/-- A week that is not visited holds no line the query asks for. -/
theorem weekMatches_of_mem {db : WeekDb} {entry : StoredLog}
    (member : entry ∈ db.entries service)
    (accepted : filterMatches backend filter entry.line = true)
    (past : direction.Past cursor entry) : weekMatches db.start filter cursor direction = true := by
  obtain ⟨_, week, time, _⟩ := WeekDb.of_mem_entries member
  have lower := weekStartOf_le entry.ts
  have upper := lt_weekStartOf_add entry.ts
  rw [week] at lower upper
  simp only [filterMatches, Bool.and_eq_true, Option.all_eq_true, decide_eq_true_eq] at accepted
  obtain ⟨⟨⟨⟨fromMs, toMs⟩, _⟩, _⟩, _⟩ := accepted
  have inRange : ¬(filter.toMs.any (· < db.start) ||
      filter.fromMs.any (db.start + weekMs ≤ ·)) = true := by
    simp only [Bool.or_eq_true, Option.any_eq_true, decide_eq_true_eq]
    intro outside
    cases outside with
    | inl early =>
        obtain ⟨bound, given, before⟩ := early
        have := toMs bound given
        omega
    | inr late =>
        obtain ⟨bound, given, after⟩ := late
        have := fromMs bound given
        omega
  rw [weekMatches.eq_def, if_neg inRange]
  cases cursor with
  | none => rfl
  | some bound =>
      have beyond := past bound rfl
      cases direction with
      | backward =>
          simp only [Direction.Before, StoredLog.position, cursorPosition,
            Prod.Lex.toLex_lt_toLex] at beyond
          simp only [decide_eq_true_eq]
          omega
      | forward =>
          simp only [Direction.Before, StoredLog.position, cursorPosition,
            Prod.Lex.toLex_lt_toLex] at beyond
          simp only [decide_eq_true_eq]
          omega

/-- The lines of all candidate weeks in scan order, if nothing limits their number. -/
def fullScan (backend : LogBackend) (service : String) (filter : LogFilter)
    (cursor : Option LogCursor) (direction : Direction) (dir : ServiceDir) : List StoredLog :=
  (orderedCandidates (readWeekFiles dir) filter cursor direction).flatMap
    (weekScan backend service filter cursor direction)

theorem mem_fullScan (fit : BoundsFit filter) (genuine : ∀ bound ∈ cursor, GenuineCursor bound)
    {dir : ServiceDir} {entry : StoredLog} :
    entry ∈ fullScan backend service filter cursor direction dir ↔
      entry ∈ dir.entries service ∧ filterMatches backend filter entry.line = true ∧
        direction.Past cursor entry := by
  simp only [fullScan, ServiceDir.entries, List.mem_flatMap, mem_orderedCandidates,
    mem_weekScan fit genuine]
  constructor
  · intro found
    obtain ⟨db, ⟨present, _⟩, member, conditions⟩ := found
    exact ⟨⟨db, present, member⟩, conditions⟩
  · intro found
    obtain ⟨⟨db, present, member⟩, accepted, past⟩ := found
    exact ⟨db, ⟨present, weekMatches_of_mem member accepted past⟩, member, accepted, past⟩

theorem fullScan_ordered (fit : BoundsFit filter)
    (genuine : ∀ bound ∈ cursor, GenuineCursor bound) (dir : ServiceDir) :
    (fullScan backend service filter cursor direction dir).Pairwise
      fun earlier later => direction.Before earlier.position later.position := by
  rw [fullScan, List.pairwise_flatMap]
  refine ⟨fun db _ => weekScan_ordered fit genuine db, ?_⟩
  refine (orderedCandidates_ordered dir filter cursor direction).imp ?_
  intro earlier later apart first firstMember second secondMember
  obtain ⟨_, firstWeek, _⟩ := WeekDb.of_mem_entries ((mem_weekScan fit genuine).mp firstMember).1
  obtain ⟨_, secondWeek, _⟩ :=
    WeekDb.of_mem_entries ((mem_weekScan fit genuine).mp secondMember).1
  have firstLower := weekStartOf_le first.ts
  have firstUpper := lt_weekStartOf_add first.ts
  have secondLower := weekStartOf_le second.ts
  have secondUpper := lt_weekStartOf_add second.ts
  cases direction with
  | backward =>
      simp only [Direction.Before, StoredLog.position, Prod.Lex.toLex_lt_toLex] at *
      omega
  | forward =>
      simp only [Direction.Before, StoredLog.position, Prod.Lex.toLex_lt_toLex] at *
      omega

end Scan

/-! ## The answer to a query -/

def SqliteLogStore.matching (backend : LogBackend) (store : SqliteLogStore) (service : String)
    (filter : LogFilter) : List StoredLog :=
  ((store.entries service).filter fun entry =>
    filterMatches backend filter entry.line).insertionSort fun left right =>
      left.position ≤ right.position

section Query

variable {backend : LogBackend} {store : SqliteLogStore} {service : String} {filter : LogFilter}

theorem mem_matching {entry : StoredLog} : entry ∈ store.matching backend service filter ↔
    entry ∈ store.entries service ∧ filterMatches backend filter entry.line = true := by
  rw [SqliteLogStore.matching, List.mem_insertionSort, List.mem_filter]

theorem WeekDb.entries_distinct (service : String) (db : WeekDb) :
    (db.entries service).Pairwise fun left right => left.position ≠ right.position := by
  rw [WeekDb.entries, List.pairwise_filterMap]
  refine db.logs.ordered.imp_of_mem ?_
  intro earlier later earlierMember laterMember before left leftDecoded right rightDecoded same
  obtain ⟨_, leftDecode, _, leftId, _⟩ :=
    decodeRow_of_fits (db.fits _ earlierMember) service db.name db.start
  obtain ⟨_, rightDecode, _, rightId, _⟩ :=
    decodeRow_of_fits (db.fits _ laterMember) service db.name db.start
  rw [leftDecoded, Option.some.injEq] at leftDecode
  rw [rightDecoded, Option.some.injEq] at rightDecode
  subst leftDecode rightDecode
  have ids : left.id = right.id := congrArg (fun place => (ofLex place).2) same
  omega

theorem ServiceDir.entries_distinct (service : String) (dir : ServiceDir) :
    (dir.entries service).Pairwise fun left right => left.position ≠ right.position := by
  rw [ServiceDir.entries, List.pairwise_flatMap]
  refine ⟨fun db _ => db.entries_distinct service, ?_⟩
  refine (List.pairwise_map.mp dir.distinct).imp ?_
  intro earlier later different left leftMember right rightMember same
  have times : left.ts = right.ts := congrArg (fun place => (ofLex place).1) same
  apply different
  apply WeekDb.start_injective
  rw [← (WeekDb.of_mem_entries leftMember).2.1, ← (WeekDb.of_mem_entries rightMember).2.1, times]

theorem SqliteLogStore.entries_distinct (store : SqliteLogStore) (service : String) :
    (store.entries service).Pairwise fun left right => left.position ≠ right.position := by
  rw [SqliteLogStore.entries]
  cases store.serviceDir? service with
  | none => exact .nil
  | some dir => exact dir.entries_distinct service

theorem matching_ascending (backend : LogBackend) (store : SqliteLogStore) (service : String)
    (filter : LogFilter) :
    Ascending StoredLog.position (store.matching backend service filter) := by
  have distinct : (store.matching backend service filter).Pairwise
      fun left right => left.position ≠ right.position := by
    refine ((List.perm_insertionSort _ _).pairwise_iff fun different => different.symm).mpr ?_
    exact (store.entries_distinct service).filter _
  have sorted : (store.matching backend service filter).Pairwise
      fun left right => left.position ≤ right.position := List.pairwise_insertionSort _ _
  exact (sorted.and distinct).imp fun both => lt_of_le_of_ne both.1 both.2

/-- The rows of a page, without the flags. -/
structure Answers (backend : LogBackend) (rows : List StoredLog) (page : LogPage) : Prop where
  items : page.items = rows.map StoredLog.line
  older : page.olderCursor = rows.head?.bind fun first => encodeOptional backend (cursorOf first)
  newer : ∀ last, rows.getLast? = some last →
    page.newerCursor = encodeOptional backend (cursorOf last)

theorem one_le_pageLimit (filter : LogFilter) : 1 ≤ pageLimit filter := by
  rw [pageLimit]
  omega

private theorem answers_empty (newerCursor : Option String) :
    Answers backend [] (emptyPage newerCursor) := ⟨rfl, rfl, nofun⟩

theorem pageOf_empty {direction : Direction} {limit : Nat} {scanned : List StoredLog}
    (empty : scanned.take limit = []) :
    pageOf backend filter direction limit scanned = emptyPage filter.after := by
  cases direction with
  | backward => simp only [pageOf, empty, List.reverse_nil, List.head?_nil]
  | forward => simp only [pageOf, empty, List.head?_nil]

/-- The rows of a page, oldest first. -/
def pageRows (direction : Direction) (limit : Nat) (scanned : List StoredLog) : List StoredLog :=
  match direction with
  | .backward => (scanned.take limit).reverse
  | .forward => scanned.take limit

theorem answers_pageOf (direction : Direction) (limit : Nat) (scanned : List StoredLog) :
    Answers backend (pageRows direction limit scanned)
      (pageOf backend filter direction limit scanned) := by
  have ends : ∀ first : StoredLog, ∀ rest, ∃ last, (first :: rest).getLast? = some last :=
    fun first rest => ⟨_, List.getLast?_eq_some_getLast (List.cons_ne_nil first rest)⟩
  cases direction with
  | backward =>
      simp only [pageOf, pageRows]
      cases (scanned.take limit).reverse with
      | nil => exact answers_empty filter.after
      | cons first rest =>
          obtain ⟨last, newest⟩ := ends first rest
          simp only [List.head?_cons, newest]
          exact ⟨rfl, rfl, fun other same => Option.some.inj (newest.symm.trans same) ▸ rfl⟩
  | forward =>
      simp only [pageOf, pageRows]
      cases scanned.take limit with
      | nil => exact answers_empty filter.after
      | cons first rest =>
          obtain ⟨last, newest⟩ := ends first rest
          simp only [List.head?_cons, newest]
          exact ⟨rfl, rfl, fun other same => Option.some.inj (newest.symm.trans same) ▸ rfl⟩

private theorem length_of_take_eq_nil {scanned : List StoredLog} {limit : Nat}
    (positive : 1 ≤ limit) (empty : scanned.take limit = []) : scanned.length = 0 := by
  have length := congrArg List.length empty
  rw [List.length_take, List.length_nil] at length
  omega

private theorem hasOlder_pageOf {scanned : List StoredLog} {limit : Nat} (positive : 1 ≤ limit) :
    (pageOf backend filter .backward limit scanned).hasOlder = true ↔ limit < scanned.length := by
  simp only [pageOf]
  cases page : (scanned.take limit).reverse with
  | nil =>
      have none := length_of_take_eq_nil positive (List.reverse_eq_nil_iff.mp page)
      exact iff_of_false nofun (by omega)
  | cons first rest => simp [List.getLast?_eq_some_getLast (List.cons_ne_nil first rest)]

private theorem hasNewer_pageOf {scanned : List StoredLog} {limit : Nat} (positive : 1 ≤ limit) :
    (pageOf backend filter .forward limit scanned).hasNewer = true ↔ limit < scanned.length := by
  simp only [pageOf]
  cases page : scanned.take limit with
  | nil =>
      have none := length_of_take_eq_nil positive page
      exact iff_of_false nofun (by omega)
  | cons first rest => simp [List.getLast?_eq_some_getLast (List.cons_ne_nil first rest)]

private theorem pageOf_backward {rows : List StoredLog} {limit : Nat} (positive : 1 ≤ limit) :
    Answers backend (rows.rtake limit)
        (pageOf backend filter .backward limit (rows.reverse.take (limit + 1))) ∧
      ((pageOf backend filter .backward limit (rows.reverse.take (limit + 1))).hasOlder = true ↔
        limit < rows.length) := by
  have kept : pageRows .backward limit (rows.reverse.take (limit + 1)) = rows.rtake limit := by
    rw [pageRows, List.take_take, Nat.min_eq_left (Nat.le_succ limit),
      List.rtake_eq_reverse_take_reverse]
  rw [hasOlder_pageOf positive, List.length_take, List.length_reverse, ← kept]
  exact ⟨answers_pageOf .backward limit _, by omega⟩

private theorem pageOf_forward {rows : List StoredLog} {limit : Nat} (positive : 1 ≤ limit) :
    Answers backend (rows.take limit)
        (pageOf backend filter .forward limit (rows.take (limit + 1))) ∧
      ((pageOf backend filter .forward limit (rows.take (limit + 1))).hasNewer = true ↔
        limit < rows.length) := by
  have kept : pageRows .forward limit (rows.take (limit + 1)) = rows.take limit := by
    rw [pageRows, List.take_take, Nat.min_eq_left (Nat.le_succ limit)]
  rw [hasNewer_pageOf positive, List.length_take, ← kept]
  exact ⟨answers_pageOf .forward limit _, by omega⟩

private theorem fullScan_backward {dir : ServiceDir} (found : store.serviceDir? service = some dir)
    (fit : BoundsFit filter) {cursor : Option LogCursor}
    (genuine : ∀ bound ∈ cursor, GenuineCursor bound) :
    fullScan backend service filter cursor .backward dir =
      (below StoredLog.position (cursor.map cursorPosition)
        (store.matching backend service filter)).reverse := by
  have descending : (fullScan backend service filter cursor .backward dir).Pairwise
      fun newer older => Direction.Before .backward newer.position older.position :=
    fullScan_ordered fit genuine dir
  rw [← List.reverse_eq_iff]
  refine Ascending.eq_of_mem_iff (List.pairwise_reverse.mpr descending)
    ((matching_ascending backend store service filter).below _) ?_
  intro entry
  rw [List.mem_reverse, mem_fullScan fit genuine, mem_below, mem_matching,
    SqliteLogStore.entries, found, Option.map_some, Option.getD_some, and_assoc]
  refine and_congr_right fun _ => and_congr_right fun _ => ?_
  cases cursor with
  | none => exact iff_of_true nofun nofun
  | some bound => simp [Direction.Past, Direction.Before]

private theorem fullScan_forward {dir : ServiceDir} (found : store.serviceDir? service = some dir)
    (fit : BoundsFit filter) {cursor : LogCursor} (genuine : GenuineCursor cursor) :
    fullScan backend service filter (some cursor) .forward dir =
      above StoredLog.position (cursorPosition cursor) (store.matching backend service filter) := by
  have only : ∀ bound ∈ some cursor, GenuineCursor bound := by
    intro bound same
    cases same
    exact genuine
  have ascending : (fullScan backend service filter (some cursor) .forward dir).Pairwise
      fun older newer => Direction.Before .forward older.position newer.position :=
    fullScan_ordered fit only dir
  refine Ascending.eq_of_mem_iff ascending ((matching_ascending backend store service filter).above _) ?_
  intro entry
  rw [mem_fullScan fit only, mem_above, mem_matching, SqliteLogStore.entries, found,
    Option.map_some, Option.getD_some, and_assoc]
  refine and_congr_right fun _ => and_congr_right fun _ => ?_
  simp [Direction.Past, Direction.Before]

private theorem matching_absent (absent : store.serviceDir? service = none) :
    store.matching backend service filter = [] := by
  rw [SqliteLogStore.matching, SqliteLogStore.entries, absent]
  rfl

/-- Without an `after` cursor the page is cut from the matching lines below the `before`
cursor, newest first. -/
theorem query_backward_eq (fit : BoundsFit filter) (noAfter : filter.after = none)
    {cursor : Option LogCursor} (decoded : decodeOptional backend filter.before = .ok cursor)
    (genuine : ∀ bound ∈ cursor, GenuineCursor bound) :
    store.query backend service filter = .ok (pageOf backend filter .backward (pageLimit filter)
      ((below StoredLog.position (cursor.map cursorPosition)
        (store.matching backend service filter)).reverse.take (pageLimit filter + 1))) := by
  have noCursor : decodeOptional backend none = .ok none := rfl
  simp only [SqliteLogStore.query, decoded, noAfter, noCursor, ok_bind, Option.isSome_none,
    Bool.false_eq_true, if_false]
  cases found : store.serviceDir? service with
  | none =>
      rw [matching_absent found, below, List.filter_nil, List.reverse_nil, List.take_nil,
        pageOf_empty List.take_nil, noAfter]
      rfl
  | some dir =>
      simp only [scanWeeks_eq fit genuine, List.nil_append, List.length_nil, Nat.sub_zero, ok_bind]
      rw [← fullScan, fullScan_backward found fit genuine]
      rfl

/-- Without an `after` cursor a query answers with the newest matching lines below the
`before` cursor. -/
theorem query_older (fit : BoundsFit filter) (noAfter : filter.after = none)
    {cursor : Option LogCursor} (decoded : decodeOptional backend filter.before = .ok cursor)
    (genuine : ∀ bound ∈ cursor, GenuineCursor bound) :
    ∃ page, store.query backend service filter = .ok page ∧
      Answers backend ((below StoredLog.position (cursor.map cursorPosition)
        (store.matching backend service filter)).rtake (pageLimit filter)) page ∧
      (page.hasOlder = true ↔ pageLimit filter < (below StoredLog.position
        (cursor.map cursorPosition) (store.matching backend service filter)).length) :=
  ⟨_, query_backward_eq fit noAfter decoded genuine, pageOf_backward (one_le_pageLimit filter)⟩

/-- With an `after` cursor and files of the service the page is cut from the matching
lines above the cursor, oldest first. -/
theorem query_forward_eq (fit : BoundsFit filter) {cursor : LogCursor} {text : String}
    (noBefore : filter.before = none) (given : filter.after = some text)
    (decoded : backend.decodeCursor text = .ok cursor) (genuine : GenuineCursor cursor)
    {dir : ServiceDir} (found : store.serviceDir? service = some dir) :
    store.query backend service filter = .ok (pageOf backend filter .forward (pageLimit filter)
      ((above StoredLog.position (cursorPosition cursor)
        (store.matching backend service filter)).take (pageLimit filter + 1))) := by
  have only : ∀ bound ∈ some cursor, GenuineCursor bound := by
    intro bound same
    cases same
    exact genuine
  simp only [SqliteLogStore.query, given, noBefore, decodeOptional, decoded, ok_bind,
    Option.isSome_some, if_true, found, scanWeeks_eq fit only, List.nil_append, List.length_nil,
    Nat.sub_zero]
  rw [← fullScan, fullScan_forward found fit genuine]
  rfl

/-- With an `after` cursor a query answers with the oldest matching lines above it. -/
theorem query_newer (fit : BoundsFit filter) {cursor : LogCursor} {text : String}
    (noBefore : filter.before = none) (given : filter.after = some text)
    (decoded : backend.decodeCursor text = .ok cursor) (genuine : GenuineCursor cursor) :
    ∃ page, store.query backend service filter = .ok page ∧
      Answers backend ((above StoredLog.position (cursorPosition cursor)
        (store.matching backend service filter)).take (pageLimit filter)) page ∧
      (page.hasNewer = true ↔ pageLimit filter < (above StoredLog.position
        (cursorPosition cursor) (store.matching backend service filter)).length) := by
  cases found : store.serviceDir? service with
  | none =>
      simp only [SqliteLogStore.query, given, noBefore, decodeOptional, decoded, ok_bind, found,
        matching_absent found, above, List.filter_nil, List.take_nil]
      exact ⟨_, rfl, answers_empty none, iff_of_false Bool.false_ne_true (Nat.not_lt_zero _)⟩
  | some dir =>
      exact ⟨_, query_forward_eq fit noBefore given decoded genuine found,
        pageOf_forward (one_le_pageLimit filter)⟩

end Query

end Vpsiner.Logs
