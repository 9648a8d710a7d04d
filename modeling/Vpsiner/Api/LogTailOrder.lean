import Vpsiner.Api.LogTailProperties
import Vpsiner.Api.LogTailWeeks

/-! The order in which lines are flushed and the order in which a log tail reads them. The
cursor of the stream is one time for all containers of the service; a line that is flushed with an
older time is below it, and so is a line in a week that the running check has already passed. -/

set_option autoImplicit false

namespace Vpsiner.Api

open Vpsiner.Lib Vpsiner.Lib.Paging Vpsiner.Logs

namespace LogTail

def AheadOf (backend : LogBackend) (after : Option String) (entry : StoredLog) : Prop :=
  ∀ token ∈ after, ∀ cursor, backend.decodeCursor token = .ok cursor →
    cursorPosition cursor < entry.position

/-- A row stored after a cursor was issued is ahead of that cursor; what the stream sent are
distinct rows in the order of the log, and every matching row that was not there when it
opened was sent or is still ahead, never both. -/
structure DeliversInOrder (config : BufferConfig) (backend : LogBackend) (state : LogTail)
    (tail : TailState) : Prop where
  issued : ∀ token stored, (token, stored) ∈ tail.issued →
    ∀ entry ∈ state.buffer.logs.matching backend config.service tail.filter,
      entry ∈ stored ∨ AheadOf backend token entry
  sent : ∃ rows, tail.appends.flatMap LogTailAppend.items = rows.map StoredLog.line ∧
    Ascending StoredLog.position rows ∧
    (∀ row ∈ rows, row ∈ state.buffer.logs.matching backend config.service tail.filter ∧
      ¬AheadOf backend tail.filter.after row) ∧
    ∀ entry ∈ state.buffer.logs.matching backend config.service tail.filter,
      entry ∈ tail.opened ∨ entry ∈ rows ∨ AheadOf backend tail.filter.after entry

variable {config : BufferConfig} {backend : LogBackend}

theorem aheadOf_iff {token : String} {cursor : LogCursor}
    (decoded : backend.decodeCursor token = .ok cursor) {entry : StoredLog} :
    AheadOf backend (some token) entry ↔ cursorPosition cursor < entry.position := by
  constructor
  · intro ahead
    exact ahead token rfl cursor decoded
  · intro above other same otherCursor otherDecoded
    cases Option.some.inj same
    cases Except.ok.inj (decoded.symm.trans otherDecoded)
    exact above

theorem lt_of_ahead {after : Option String} {row entry : StoredLog}
    (passed : ¬AheadOf backend after row) (ahead : AheadOf backend after entry) :
    row.position < entry.position := by
  by_contra later
  apply passed
  intro token given cursor decoded
  exact lt_of_lt_of_le (ahead token given cursor decoded) (not_lt.mp later)

/-! ## Between the steps of a check -/

def Anchored (config : BufferConfig) (backend : LogBackend) (logs : SqliteLogStore)
    (filter : LogFilter) : Prop :=
  filter.after = none ∨ ∃ text entry, filter.after = some text ∧
    entry ∈ logs.matching backend config.service filter ∧
      backend.decodeCursor text = .ok (cursorOf entry)

/-- What holds of a stream besides its order: its bounds are open, its cursor is that of a
row, and every cursor it issued is at or below the current one. -/
structure Tracking (config : BufferConfig) (backend : LogBackend) (state : LogTail)
    (tail : TailState) : Prop extends DeliversInOrder config backend state tail where
  fromMs : tail.filter.fromMs = none
  toMs : tail.filter.toMs = none
  before : tail.filter.before = none
  anchored : Anchored config backend state.buffer.logs tail.filter
  behind : ∀ token stored, (token, stored) ∈ tail.issued →
    ∀ entry, AheadOf backend tail.filter.after entry → AheadOf backend token entry

theorem tracking_connect {before : LogTail} {query : LogTailQuery}
    (issued : query.after = none ∨
      ∃ entry ∈ before.buffer.logs.matching backend config.service query.filter,
        query.after = encodeOptional backend (cursorOf entry)) :
    Tracking config backend { before with tail := some (before.connect config.service query) }
      (before.connect config.service query) where
  issued token stored member := by cases member
  sent := by
    refine ⟨[], rfl, .nil, ?_, ?_⟩
    · intro row member
      cases member
    · intro entry member
      exact .inl (mem_matching.mp member).1
  fromMs := rfl
  toMs := rfl
  before := rfl
  anchored := by
    cases issued with
    | inl absent => exact .inl absent
    | inr issued =>
        obtain ⟨entry, member, given⟩ := issued
        obtain ⟨text, encoded, decoded⟩ :=
          encodeOptional_cursorOf backend (mem_matching.mp member).1
        exact .inr ⟨text, entry, given.trans encoded, member, decoded⟩
  behind token stored member := by cases member

/-- Rows that come after all rows before them are ahead of the cursor, if there is one. -/
theorem Tracking.grow {before after : LogTail} {tail : TailState}
    (tracking : Tracking config backend before tail)
    (kept : ∀ row ∈ before.buffer.logs.matching backend config.service tail.filter,
      row ∈ after.buffer.logs.matching backend config.service tail.filter)
    (newer : tail.filter.after ≠ none →
      ∀ entry ∈ after.buffer.logs.matching backend config.service tail.filter,
        entry ∈ before.buffer.logs.matching backend config.service tail.filter ∨
          ∀ row ∈ before.buffer.logs.matching backend config.service tail.filter,
            row.position < entry.position) : Tracking config backend after tail := by
  have ahead : ∀ entry ∈ after.buffer.logs.matching backend config.service tail.filter,
      entry ∈ before.buffer.logs.matching backend config.service tail.filter ∨
        AheadOf backend tail.filter.after entry := by
    intro entry present
    rcases tracking.anchored with absent | ⟨text, row, given, stored, decoded⟩
    · right
      rw [absent]
      intro token missing
      cases missing
    · have cursor : tail.filter.after ≠ none := by simp [given]
      refine (newer cursor entry present).imp_right fun later => ?_
      rw [given, aheadOf_iff decoded]
      exact later row stored
  refine ⟨⟨?_, ?_⟩, tracking.fromMs, tracking.toMs, tracking.before, ?_, tracking.behind⟩
  · intro token stored member entry present
    rcases ahead entry present with old | new
    · exact tracking.issued token stored member entry old
    · exact .inr (tracking.behind token stored member entry new)
  · obtain ⟨rows, items, ascending, inside, covered⟩ := tracking.sent
    refine ⟨rows, items, ascending, ?_, ?_⟩
    · intro row member
      exact ⟨kept row (inside row member).1, (inside row member).2⟩
    · intro entry present
      rcases ahead entry present with old | new
      · exact covered entry old
      · exact .inr (.inr new)
  · rcases tracking.anchored with absent | ⟨text, row, given, stored, decoded⟩
    · exact .inl absent
    · exact .inr ⟨text, row, given, kept row stored, decoded⟩

theorem matching_congr {left right : SqliteLogStore} {service : String} (backend : LogBackend)
    (filter : LogFilter) (same : left.entries service = right.entries service) :
    left.matching backend service filter = right.matching backend service filter := by
  rw [SqliteLogStore.matching, SqliteLogStore.matching, same]

/-- What else a stream is about to do is not tracked. -/
theorem Tracking.moved {before after : LogTail} {tail : TailState}
    (tracking : Tracking config backend before tail)
    (same : after.buffer.logs.entries config.service = before.buffer.logs.entries config.service)
    (phase : TailPhase) (seen : Nat) :
    Tracking config backend after { tail with phase, seen } := by
  have matching := matching_congr backend tail.filter same
  refine ⟨⟨?_, ?_⟩, tracking.fromMs, tracking.toMs, tracking.before, ?_, tracking.behind⟩
  · rw [matching]
    exact tracking.issued
  · rw [matching]
    exact tracking.sent
  · rw [Anchored, matching]
    exact tracking.anchored

theorem Tracking.plain {state : LogTail} {tail : TailState}
    (tracking : Tracking config backend state tail) : Plain backend tail.filter where
  fromMs := tracking.fromMs
  toMs := tracking.toMs
  before := tracking.before
  after := by
    intro token given
    rcases tracking.anchored with absent | ⟨text, entry, same, member, decoded⟩
    · cases absent.symm.trans given
    · cases Option.some.inj (same.symm.trans given)
      exact ⟨cursorOf entry, decoded, genuine_cursorOf (mem_matching.mp member).1⟩

/-- A stream without a cursor reads from the newest line on. -/
def direction (tail : TailState) : Direction :=
  if tail.filter.after.isSome then .forward else .backward

theorem direction_eq_backward_iff {tail : TailState} :
    direction tail = .backward ↔ tail.filter.after = none := by
  cases given : tail.filter.after <;> simp [direction, given]

/-- The query of a check reads ahead of the cursor. -/
theorem Tracking.requested {state : LogTail} {tail : TailState}
    (tracking : Tracking config backend state tail) :
    ∃ cursor, requestedCursor backend tail.filter = .ok (direction tail, cursor) ∧
      (∀ bound ∈ cursor, GenuineCursor bound) ∧
      ∀ entry, (direction tail).Past cursor entry ↔ AheadOf backend tail.filter.after entry := by
  rcases tracking.anchored with absent | ⟨text, row, given, stored, decoded⟩
  · refine ⟨none, ?_, ?_, fun entry => ?_⟩
    · rw [requestedCursor, tracking.before, absent, direction_eq_backward_iff.mpr absent]
      rfl
    · intro bound missing
      cases missing
    · rw [absent]
      constructor
      · intro past token missing
        cases missing
      · intro ahead bound missing
        cases missing
  · have forward : direction tail = .forward := by simp [direction, given]
    refine ⟨some (cursorOf row), ?_, ?_, fun entry => ?_⟩
    · rw [requestedCursor, tracking.before, given, forward]
      simp only [decodeOptional, decoded]
      rfl
    · intro bound same
      cases same
      exact genuine_cursorOf (mem_matching.mp stored).1
    · rw [given, aheadOf_iff decoded, forward]
      constructor
      · intro past
        exact past _ rfl
      · intro above bound same
        cases same
        exact above

/-- What a check finds is ahead of the cursor. What it leaves out of the rows ahead was there
when the stream opened or comes after the last row found. -/
structure Found (config : BufferConfig) (backend : LogBackend) (state : LogTail)
    (tail : TailState) (rows : List StoredLog) : Prop where
  ascending : Ascending StoredLog.position rows
  ahead : ∀ row ∈ rows, row ∈ state.buffer.logs.matching backend config.service tail.filter ∧
    AheadOf backend tail.filter.after row
  rest : ∀ last ∈ rows.getLast?,
    ∀ entry ∈ state.buffer.logs.matching backend config.service tail.filter,
      AheadOf backend tail.filter.after entry →
        entry ∈ rows ∨ entry ∈ tail.opened ∨ last.position < entry.position

theorem tracking_received {before after : LogTail} {tail received : TailState}
    {found : List StoredLog} (tracking : Tracking config backend before tail)
    (logs : after.buffer.logs = before.buffer.logs)
    (finds : Found config backend before tail found)
    (receives : Received backend (before.buffer.logs.entries config.service) tail found received) :
    Tracking config backend after received := by
  cases receives with
  | nothing empty => exact tracking.moved (by rw [logs]) .waiting tail.seen
  | @page last text newest decoded =>
      obtain ⟨lastStored, lastAhead⟩ := finds.ahead last (List.mem_of_getLast? newest)
      have further : ∀ entry, AheadOf backend (some text) entry →
          AheadOf backend tail.filter.after entry := by
        intro entry ahead token given cursor tokenDecoded
        rw [aheadOf_iff decoded] at ahead
        exact (lastAhead token given cursor tokenDecoded).trans ahead
      refine ⟨⟨?_, ?_⟩, tracking.fromMs, tracking.toMs, tracking.before, ?_, ?_⟩
      · intro token stored member entry present
        rw [logs] at present
        rcases List.mem_append.mp member with earlier | now
        · exact tracking.issued token stored earlier entry present
        · cases List.mem_singleton.mp now
          exact .inl (mem_matching.mp present).1
      · obtain ⟨rows, items, ascending, inside, covered⟩ := tracking.sent
        rw [logs]
        refine ⟨rows ++ found, ?_, ?_, ?_, ?_⟩
        · rw [List.flatMap_append, items, List.map_append, List.flatMap_singleton]
        · refine List.pairwise_append.mpr ⟨ascending, finds.ascending, ?_⟩
          intro row member entry later
          exact lt_of_ahead (inside row member).2 (finds.ahead entry later).2
        · intro row member
          rw [aheadOf_iff decoded]
          rcases List.mem_append.mp member with earlier | now
          · have before := lt_of_ahead (inside row earlier).2 lastAhead
            exact ⟨(inside row earlier).1, not_lt.mpr before.le⟩
          · have before := finds.ascending.le_getLast? newest now
            exact ⟨(finds.ahead row now).1, not_lt.mpr before⟩
        · intro entry present
          rcases covered entry present with opened | sent | ahead
          · exact .inl opened
          · exact .inr (.inl (List.mem_append_left _ sent))
          · rcases finds.rest last newest entry present ahead with now | opened | later
            · exact .inr (.inl (List.mem_append_right _ now))
            · exact .inl opened
            · exact .inr (.inr ((aheadOf_iff decoded).mpr later))
      · rw [logs]
        exact .inr ⟨text, last, rfl, lastStored, decoded⟩
      · intro token stored member entry ahead
        rcases List.mem_append.mp member with earlier | now
        · exact tracking.behind token stored earlier entry (further entry ahead)
        · cases List.mem_singleton.mp now
          exact ahead

/-! ## A check in progress -/

/-- The earlier week is visited before the later one. -/
def WeekBefore (direction : Direction) (earlier later : String) : Prop :=
  ∀ first ∈ databaseWeekStartMs earlier, ∀ second ∈ databaseWeekStartMs later,
    match direction with
    | .backward => second < first
    | .forward => first < second

theorem weekStart_of_stored {logs : SqliteLogStore} {service : String} {entry : StoredLog}
    (stored : entry ∈ logs.entries service) :
    databaseWeekStartMs entry.week = some (weekStartOf entry.ts) := by
  obtain ⟨db, week, start, _⟩ := SqliteLogStore.of_mem_entries stored
  rw [week, start, db.databaseWeekStartMs_name]

theorem week_of_stored {logs : SqliteLogStore} {service : String} {entry : StoredLog}
    (stored : entry ∈ logs.entries service) {name : String}
    (named : weekDatabaseName entry.ts = some name) : entry.week = name := by
  obtain ⟨db, week, start, _⟩ := SqliteLogStore.of_mem_entries stored
  obtain ⟨tsMs, dbNamed⟩ := db.named
  have first := databaseWeekStartMs_weekDatabaseName dbNamed
  rw [db.databaseWeekStartMs_name, Option.some.injEq] at first
  rw [week]
  exact weekDatabaseName_congr dbNamed named (first.symm.trans start.symm)

theorem before_of_week {logs : SqliteLogStore} {service : String} {direction : Direction}
    {first second : StoredLog} (firstStored : first ∈ logs.entries service)
    (secondStored : second ∈ logs.entries service)
    (weeks : WeekBefore direction first.week second.week) :
    direction.Before first.position second.position := by
  have starts := weeks _ (weekStart_of_stored firstStored) _ (weekStart_of_stored secondStored)
  have firstLower := weekStartOf_le first.ts
  have firstUpper := lt_weekStartOf_add first.ts
  have secondLower := weekStartOf_le second.ts
  have secondUpper := lt_weekStartOf_add second.ts
  have firstAligned := weekStartOf_mod first.ts
  have secondAligned := weekStartOf_mod second.ts
  rw [weekMs, dayMs] at *
  cases direction with
  | backward =>
      simp only [Direction.Before, position_lt_iff] at starts ⊢
      omega
  | forward =>
      simp only [Direction.Before, position_lt_iff] at starts ⊢
      omega

/-- A line of another week comes after the rows of a week that starts before it. -/
theorem lt_of_weekStart {logs : SqliteLogStore} {service : String} {row entry : StoredLog}
    (rowStored : row ∈ logs.entries service) (stored : entry ∈ logs.entries service)
    (different : row.week ≠ entry.week)
    (starts : ∀ start ∈ databaseWeekStartMs row.week, start ≤ entry.ts) :
    row.position < entry.position := by
  have reached := starts _ (weekStart_of_stored rowStored)
  have apart : weekStartOf row.ts ≠ weekStartOf entry.ts := by
    intro same
    obtain ⟨rowDb, rowWeek, rowStart, _⟩ := SqliteLogStore.of_mem_entries rowStored
    obtain ⟨db, week, start, _⟩ := SqliteLogStore.of_mem_entries stored
    apply different
    rw [rowWeek, week]
    exact WeekDb.start_injective (rowStart.symm.trans (same.trans start))
  have rowUpper := lt_weekStartOf_add row.ts
  have lower := weekStartOf_le entry.ts
  have upper := lt_weekStartOf_add entry.ts
  have rowAligned := weekStartOf_mod row.ts
  have aligned := weekStartOf_mod entry.ts
  rw [weekMs, dayMs] at *
  rw [position_lt_iff]
  omega

/-- Where a running check has or will have a row ahead of the cursor: on its page, in a week that
is left, beyond a full page, or after everything that the page can get. -/
inductive Covered (direction : Direction) (limit : Nat) (walk : Walk) (entry : StoredLog) :
    Prop where
  | read (member : entry ∈ walk.page)
  | awaits (member : entry.week ∈ walk.left)
  | beyond (full : limit < walk.page.length)
      (past : ∀ row ∈ walk.page, direction.Before row.position entry.position)
  | newer (page : ∀ row ∈ walk.page, row.position < entry.position)
      (weeks : ∀ week ∈ walk.left, ∀ start ∈ databaseWeekStartMs week, start ≤ entry.ts)

structure Walking (config : BufferConfig) (backend : LogBackend) (state : LogTail)
    (tail : TailState) (walk : Walk) : Prop where
  inside : ∀ row ∈ walk.page, row ∈ state.buffer.logs.matching backend config.service tail.filter ∧
    AheadOf backend tail.filter.after row
  ordered : walk.page.Pairwise fun earlier later =>
    (direction tail).Before earlier.position later.position
  room : walk.left ≠ [] → walk.page.length ≤ pageLimit tail.filter
  weeks : walk.left.Pairwise (WeekBefore (direction tail))
  apart : ∀ row ∈ walk.page, ∀ week ∈ walk.left, WeekBefore (direction tail) row.week week
  covered : ∀ entry ∈ state.buffer.logs.matching backend config.service tail.filter,
    AheadOf backend tail.filter.after entry →
      Covered (direction tail) (pageLimit tail.filter) walk entry

theorem mem_entries_of_dir {logs : SqliteLogStore} {service : String} {dir : ServiceDir}
    (found : logs.serviceDir? service = some dir) {entry : StoredLog} :
    entry ∈ logs.entries service ↔ ∃ db ∈ dir.weeks, entry ∈ db.entries service := by
  rw [SqliteLogStore.entries, found, Option.map_some, Option.getD_some, ServiceDir.entries,
    List.mem_flatMap]

section Walking

variable {state : LogTail} {tail : TailState} {cursor : Option LogCursor} {dir : ServiceDir}

/-- The week files that a listing misses are no older than those it has. -/
def MissesLatest (dir listed : ServiceDir) : Prop :=
  ∀ db ∈ dir.weeks, db ∈ listed.weeks ∨ ∀ other ∈ listed.weeks, other.start ≤ db.start

theorem walking_list {listed : ServiceDir} (missed : MissesLatest dir listed)
    (past : ∀ entry, (direction tail).Past cursor entry ↔ AheadOf backend tail.filter.after entry)
    (found : state.buffer.logs.serviceDir? config.service = some dir) :
    Walking config backend state tail
      ⟨(orderedCandidates (readWeekFiles listed) tail.filter cursor (direction tail)).map
        WeekDb.name, []⟩ where
  inside := nofun
  ordered := .nil
  room := fun _ => Nat.zero_le _
  weeks := by
    refine List.pairwise_map.mpr ((orderedCandidates_ordered listed tail.filter cursor _).imp ?_)
    intro earlier later before first firstStart second secondStart
    cases earlier.databaseWeekStartMs_name.symm.trans firstStart
    cases later.databaseWeekStartMs_name.symm.trans secondStart
    have long : 0 < weekMs := by decide
    generalize direction tail = direction at before ⊢
    cases direction with
    | backward =>
        simp only at before ⊢
        omega
    | forward =>
        simp only at before ⊢
        omega
  apart := nofun
  covered := by
    intro entry present ahead
    obtain ⟨stored, accepted⟩ := mem_matching.mp present
    obtain ⟨db, member, held⟩ := (mem_entries_of_dir found).mp stored
    obtain ⟨week, start, _⟩ := WeekDb.of_mem_entries held
    rcases missed db member with there | latest
    · have wanted := weekMatches_of_mem held accepted ((past entry).mpr ahead)
      exact .awaits (List.mem_map.mpr ⟨db, mem_orderedCandidates.mpr ⟨there, wanted⟩, week.symm⟩)
    · refine .newer nofun ?_
      intro name left otherStart parsed
      obtain ⟨other, candidate, rfl⟩ := List.mem_map.mp left
      cases other.databaseWeekStartMs_name.symm.trans parsed
      have lower := weekStartOf_le entry.ts
      rw [start] at lower
      exact (latest other (mem_orderedCandidates.mp candidate).1).trans lower

theorem mem_weekScan_of_dir (plain : Plain backend tail.filter)
    (genuine : ∀ bound ∈ cursor, GenuineCursor bound)
    (past : ∀ entry, (direction tail).Past cursor entry ↔ AheadOf backend tail.filter.after entry)
    (found : state.buffer.logs.serviceDir? config.service = some dir) {db : WeekDb}
    (member : db ∈ dir.weeks) {entry : StoredLog} :
    entry ∈ weekScan backend config.service tail.filter cursor (direction tail) db ↔
      (entry ∈ state.buffer.logs.matching backend config.service tail.filter ∧
        AheadOf backend tail.filter.after entry) ∧ entry.week = db.name := by
  rw [mem_weekScan plain.fit genuine, mem_matching, mem_entries_of_dir found, past]
  constructor
  · intro scanned
    obtain ⟨held, accepted, ahead⟩ := scanned
    exact ⟨⟨⟨⟨db, member, held⟩, accepted⟩, ahead⟩, (WeekDb.of_mem_entries held).1⟩
  · intro found
    obtain ⟨⟨⟨⟨other, otherMember, held⟩, accepted⟩, ahead⟩, week⟩ := found
    have name : other.name = db.name := (WeekDb.of_mem_entries held).1.symm.trans week
    cases List.inj_on_of_nodup_map dir.distinct otherMember member name
    exact ⟨held, accepted, ahead⟩

/-- A row of the week that is read gets on the page, or a full page is before it. -/
theorem covered_of_scanned {direction : Direction} {limit : Nat} {left : List String}
    {page scan : List StoredLog} {entry : StoredLog} (room : page.length ≤ limit)
    (across : ∀ row ∈ page, direction.Before row.position entry.position)
    (ordered : scan.Pairwise fun earlier later =>
      direction.Before earlier.position later.position) (member : entry ∈ scan) :
    Covered direction limit ⟨left, page ++ scan.take (limit + 1 - page.length)⟩ entry := by
  have split := List.take_append_drop (limit + 1 - page.length) scan
  rw [← split] at member ordered
  rcases List.mem_append.mp member with taken | dropped
  · exact .read (List.mem_append_right _ taken)
  · have long := List.length_pos_of_mem dropped
    rw [List.length_drop] at long
    refine .beyond ?_ ?_
    · rw [List.length_append, List.length_take]
      omega
    · intro row present
      rcases List.mem_append.mp present with old | new
      · exact across row old
      · exact (List.pairwise_append.mp ordered).2.2 row new entry dropped

theorem walking_read {week : String} {rest : List String} {page : List StoredLog}
    (plain : Plain backend tail.filter) (genuine : ∀ bound ∈ cursor, GenuineCursor bound)
    (past : ∀ entry, (direction tail).Past cursor entry ↔ AheadOf backend tail.filter.after entry)
    (found : state.buffer.logs.serviceDir? config.service = some dir) {db : WeekDb}
    (member : db ∈ dir.weeks) (name : db.name = week)
    (walking : Walking config backend state tail ⟨week :: rest, page⟩) {more : List StoredLog}
    (fetched : more = page ++ (weekScan backend config.service tail.filter cursor (direction tail)
      db).take (pageLimit tail.filter + 1 - page.length)) :
    Walking config backend state tail
      ⟨if pageLimit tail.filter + 1 ≤ more.length then [] else rest, more⟩ := by
  subst fetched name
  have scanned : ∀ entry, entry ∈ weekScan backend config.service tail.filter cursor
      (direction tail) db ↔ _ := fun _ => mem_weekScan_of_dir plain genuine past found member
  have ordered : (weekScan backend config.service tail.filter cursor (direction tail) db).Pairwise
      fun earlier later => (direction tail).Before earlier.position later.position :=
    weekScan_ordered plain.fit genuine db
  generalize weekScan backend config.service tail.filter cursor (direction tail) db = scan
    at scanned ordered ⊢
  have room : page.length ≤ pageLimit tail.filter := walking.room (List.cons_ne_nil _ _)
  obtain ⟨headWeek, restWeeks⟩ := List.pairwise_cons.mp walking.weeks
  have fetchedWeek : ∀ row ∈ scan.take (pageLimit tail.filter + 1 - page.length),
      row.week = db.name := fun row taken => ((scanned row).mp (List.mem_of_mem_take taken)).2
  have inside : ∀ row ∈ page ++ scan.take (pageLimit tail.filter + 1 - page.length),
      row ∈ state.buffer.logs.matching backend config.service tail.filter ∧
        AheadOf backend tail.filter.after row := by
    intro row present
    rcases List.mem_append.mp present with old | new
    · exact walking.inside row old
    · exact ((scanned row).mp (List.mem_of_mem_take new)).1
  have apart : ∀ row ∈ page ++ scan.take (pageLimit tail.filter + 1 - page.length),
      ∀ later ∈ rest, WeekBefore (direction tail) row.week later := by
    intro row present later after
    rcases List.mem_append.mp present with old | new
    · exact walking.apart row old later (List.mem_cons_of_mem _ after)
    · exact fetchedWeek row new ▸ headWeek later after
  have across : ∀ row ∈ page, ∀ entry ∈ scan,
      (direction tail).Before row.position entry.position := by
    intro row old entry new
    obtain ⟨⟨matching, _⟩, sameWeek⟩ := (scanned entry).mp new
    apply before_of_week (mem_matching.mp (walking.inside row old).1).1 (mem_matching.mp matching).1
    exact sameWeek ▸ walking.apart row old db.name List.mem_cons_self
  refine ⟨inside, ?_, ?_, ?_, ?_, ?_⟩
  · refine List.pairwise_append.mpr ⟨walking.ordered, ordered.sublist (List.take_sublist _ _), ?_⟩
    intro row old entry new
    exact across row old entry (List.mem_of_mem_take new)
  · intro left
    split at left
    · exact absurd rfl left
    · next fits => exact Nat.le_of_lt_succ (Nat.lt_of_not_le fits)
  · split
    · exact .nil
    · exact restWeeks
  · split
    · exact fun _ _ => nofun
    · exact apart
  · intro entry matching ahead
    by_cases here : entry.week = db.name
    · have member := (scanned entry).mpr ⟨⟨matching, ahead⟩, here⟩
      exact covered_of_scanned room (fun row old => across row old entry member) ordered member
    · by_cases later : entry.week ∈ rest
      · split
        · next full =>
            refine .beyond full fun row present => ?_
            exact before_of_week (mem_matching.mp (inside row present).1).1
              (mem_matching.mp matching).1 (apart row present entry.week later)
        · exact .awaits later
      · cases walking.covered entry matching ahead with
        | read old => exact .read (List.mem_append_left _ old)
        | awaits left => exact absurd left (List.not_mem_cons_of_ne_of_not_mem here later)
        | beyond full => exact absurd room (Nat.not_le_of_lt full)
        | newer pageOlder weeksOlder =>
            refine .newer ?_ ?_
            · intro row present
              rcases List.mem_append.mp present with old | new
              · exact pageOlder row old
              · have rowWeek := fetchedWeek row new
                apply lt_of_weekStart (mem_matching.mp (inside row present).1).1
                  (mem_matching.mp matching).1
                · exact fun same => here (same.symm.trans rowWeek)
                · rw [rowWeek]
                  exact weeksOlder db.name List.mem_cons_self
            · intro other left
              split at left
              · cases left
              · exact weeksOlder other (List.mem_cons_of_mem _ left)

theorem walking_grow {after : LogTail} {walk : Walk}
    (walking : Walking config backend state tail walk)
    (kept : ∀ row ∈ state.buffer.logs.matching backend config.service tail.filter,
      row ∈ after.buffer.logs.matching backend config.service tail.filter)
    (newer : ∀ entry ∈ after.buffer.logs.matching backend config.service tail.filter,
      entry ∈ state.buffer.logs.matching backend config.service tail.filter ∨
        (∀ row ∈ state.buffer.logs.matching backend config.service tail.filter,
          row.position < entry.position) ∧
        (entry.week ∈ walk.left ∨
          ∀ later ∈ walk.left, ∀ start ∈ databaseWeekStartMs later, start ≤ entry.ts)) :
    Walking config backend after tail walk where
  inside row member := ⟨kept row (walking.inside row member).1, (walking.inside row member).2⟩
  ordered := walking.ordered
  room := walking.room
  weeks := walking.weeks
  apart := walking.apart
  covered := by
    intro entry present ahead
    rcases newer entry present with old | ⟨above, left | weeks⟩
    · exact walking.covered entry old ahead
    · exact .awaits left
    · exact .newer (fun row member => above row (walking.inside row member).1) weeks

/-- A row that a full page does not get was there when the stream opened, or comes after the
page. -/
theorem left_out {page : List StoredLog} {last entry : StoredLog}
    (inside : ∀ row ∈ page, row ∈ state.buffer.logs.matching backend config.service tail.filter)
    (ordered : page.Pairwise fun earlier later =>
      (direction tail).Before earlier.position later.position)
    (rests : direction tail = .backward →
      ∀ entry ∈ (state.buffer.logs.matching backend config.service tail.filter).rdrop
        (pageLimit tail.filter), entry ∈ tail.opened)
    (newest : last ∈ (pageRows (direction tail) (pageLimit tail.filter) page).getLast?)
    (present : entry ∈ state.buffer.logs.matching backend config.service tail.filter)
    (full : pageLimit tail.filter < page.length)
    (past : ∀ row ∈ page.take (pageLimit tail.filter),
      (direction tail).Before row.position entry.position) :
    entry ∈ tail.opened ∨ last.position < entry.position := by
  have member := List.mem_of_getLast? newest
  generalize direction tail = direction at *
  cases direction with
  | forward => exact .inr (past last member)
  | backward =>
      left
      apply rests rfl
      have taken : (page.take (pageLimit tail.filter)).Pairwise fun earlier later =>
          Direction.backward.Before earlier.position later.position :=
        ordered.sublist (List.take_sublist _ _)
      have distinct : (page.take (pageLimit tail.filter)).Nodup := by
        refine taken.imp fun before same => ?_
        rw [same] at before
        exact lt_irrefl _ before
      have enough : pageLimit tail.filter ≤ (page.take (pageLimit tail.filter)).length := by
        rw [List.length_take]
        omega
      exact (matching_ascending backend _ config.service tail.filter).mem_rdrop distinct present
        enough fun row among => ⟨inside row (List.mem_of_mem_take among), past row among⟩

/-- What a check has read when no week is left. -/
theorem walking_found {page : List StoredLog}
    (walking : Walking config backend state tail ⟨[], page⟩)
    (rests : pageLimit tail.filter < page.length → direction tail = .backward →
      ∀ entry ∈ (state.buffer.logs.matching backend config.service tail.filter).rdrop
        (pageLimit tail.filter), entry ∈ tail.opened) :
    Found config backend state tail (pageRows (direction tail) (pageLimit tail.filter) page) := by
  have kept : ∀ row, row ∈ pageRows (direction tail) (pageLimit tail.filter) page ↔
      row ∈ page.take (pageLimit tail.filter) := by
    intro row
    cases direction tail with
    | backward => exact List.mem_reverse
    | forward => exact .rfl
  refine ⟨?_, ?_, ?_⟩
  · have taken := walking.ordered.sublist (List.take_sublist (pageLimit tail.filter) page)
    generalize direction tail = direction at taken ⊢
    cases direction with
    | backward => exact List.pairwise_reverse.mpr taken
    | forward => exact taken
  · intro row member
    exact walking.inside row (List.mem_of_mem_take ((kept row).mp member))
  · intro last newest entry present ahead
    have leaves := fun full : pageLimit tail.filter < page.length =>
      left_out (fun row member => (walking.inside row member).1) walking.ordered (rests full)
        newest present full
    cases walking.covered entry present ahead with
    | read member =>
        have split := List.take_append_drop (pageLimit tail.filter) page
        rw [← split] at member
        rcases List.mem_append.mp member with taken | dropped
        · exact .inl ((kept entry).mpr taken)
        · have long := List.length_pos_of_mem dropped
          rw [List.length_drop] at long
          have full : pageLimit tail.filter < page.length := by omega
          refine .inr (leaves full fun row taken => ?_)
          have ordered := walking.ordered
          rw [← split] at ordered
          exact (List.pairwise_append.mp ordered).2.2 row taken entry dropped
    | awaits left => cases left
    | beyond full past =>
        exact .inr (leaves full fun row taken => past row (List.mem_of_mem_take taken))
    | newer older _ =>
        have among := (kept last).mp (List.mem_of_getLast? newest)
        exact .inr (.inr (older last (List.mem_of_mem_take among)))

end Walking

end LogTail

end Vpsiner.Api
