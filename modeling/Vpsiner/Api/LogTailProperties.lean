import Vpsiner.Api.LogTail
import Vpsiner.Logs.CheckpointOrder
import Vpsiner.Logs.Paging

/-! A waiting log tail and the lines above its cursor. One check sends at most one page, and
the stream then waits for the next notification even when more lines are there. -/

set_option autoImplicit false

namespace Vpsiner.Api

open Vpsiner.Lib Vpsiner.Lib.Paging Vpsiner.Logs

def rowsAfter (config : BufferConfig) (backend : LogBackend) (logs : SqliteLogStore)
    (filter : LogFilter) (cursor : LogCursor) : List StoredLog :=
  above StoredLog.position (cursorPosition cursor) (logs.matching backend config.service filter)

namespace LogTail

/-- A notification is in the channel, or a flush that stored its lines will still send one. -/
def Pending (state : LogTail) (tail : TailState) : Prop :=
  state.buffer.flushWatcher.hasChanged tail.seen = true ∨ state.buffer.announces = true

/-- A stream that waits without a pending notification has no line to deliver. -/
def NeverSleeps (config : BufferConfig) (backend : LogBackend) (state : LogTail) : Prop :=
  ∀ tail ∈ state.tail, tail.phase = .waiting → ¬state.Pending tail →
    ∀ token ∈ tail.filter.after, ∀ cursor, backend.decodeCursor token = .ok cursor →
      rowsAfter config backend state.buffer.logs tail.filter cursor = []

/-- The connection opens with a cursor that the server issued, and a flush stores its lines
or leaves nothing. -/
def Admissible (backend : LogBackend) (before : LogTail) : LogTailAction → Prop
  | .buffer action => before.buffer.CleanAppend action
  | .connect query => ∃ token cursor, query.after = some token ∧
      backend.decodeCursor token = .ok cursor ∧ GenuineCursor cursor
  | .wake => True
  | .query => True

/-- A check finds at most one page, unless a notification is pending. -/
def ChecksSuffice (config : BufferConfig) (backend : LogBackend) (before : LogTail)
    (action : LogTailAction) : Prop :=
  before.Admissible backend action ∧ (action = .query →
    ∀ tail ∈ before.tail, ¬before.Pending tail → ∀ token ∈ tail.filter.after,
      ∀ cursor, backend.decodeCursor token = .ok cursor →
        (rowsAfter config backend before.buffer.logs tail.filter cursor).length ≤
          pageLimit tail.filter)

/-- The filter of a tail: only the cursor changes. -/
structure Plain (backend : LogBackend) (filter : LogFilter) : Prop where
  fromMs : filter.fromMs = none
  toMs : filter.toMs = none
  before : filter.before = none
  after : ∀ token ∈ filter.after, ∃ cursor, backend.decodeCursor token = .ok cursor ∧
    GenuineCursor cursor

variable {config : BufferConfig} {backend : LogBackend}

theorem Plain.fit {filter : LogFilter} (plain : Plain backend filter) : BoundsFit filter := by
  intro bound present
  rw [plain.fromMs, plain.toMs] at present
  cases present with
  | inl absent => cases absent
  | inr absent => cases absent

theorem mem_rowsAfter {logs : SqliteLogStore} {filter : LogFilter} {cursor : LogCursor}
    {entry : StoredLog} : entry ∈ rowsAfter config backend logs filter cursor ↔
      (entry ∈ logs.entries config.service ∧ filterMatches backend filter entry.line = true) ∧
        cursorPosition cursor < entry.position := by
  rw [rowsAfter, mem_above, mem_matching]

theorem query_after {logs : SqliteLogStore} {filter : LogFilter} (plain : Plain backend filter)
    {token : String} (given : filter.after = some token) {cursor : LogCursor}
    (decoded : backend.decodeCursor token = .ok cursor) :
    ∃ page, logs.query backend config.service filter = .ok page ∧
      Answers backend ((rowsAfter config backend logs filter cursor).take (pageLimit filter))
        page := by
  obtain ⟨same, sameDecoded, genuine⟩ := plain.after token given
  rw [decoded, Except.ok.injEq] at sameDecoded
  subst sameDecoded
  obtain ⟨page, answered, answers, _⟩ := @query_newer backend logs config.service filter
    plain.fit cursor token plain.before given decoded genuine
  exact ⟨page, answered, answers⟩

theorem rowsAfter_ascending (logs : SqliteLogStore) (filter : LogFilter) (cursor : LogCursor) :
    Ascending StoredLog.position (rowsAfter config backend logs filter cursor) :=
  (matching_ascending backend logs config.service filter).above _

/-- What a check that finds these rows makes of the stream. -/
inductive Received (backend : LogBackend) (stored : List StoredLog) (tail : TailState)
    (rows : List StoredLog) : TailState → Prop where
  | nothing (empty : rows = []) : Received backend stored tail rows { tail with phase := .waiting }
  | page {last : StoredLog} {text : String} (newest : rows.getLast? = some last)
      (decoded : backend.decodeCursor text = .ok (cursorOf last)) :
      Received backend stored tail rows
        { tail with
          filter := { tail.filter with after := some text }
          phase := .waiting
          appends := tail.appends ++ [⟨rows.map StoredLog.line, some text⟩]
          issued := tail.issued ++ [(some text, stored)] }

theorem received_of_answers {logs : SqliteLogStore} {tail : TailState} {rows : List StoredLog}
    {page : LogPage} (inside : rows ⊆ logs.entries config.service)
    (answers : Answers backend rows page) (stored : List StoredLog) :
    Received backend stored tail rows (receive stored tail (.ok page)) := by
  cases newest : rows.getLast? with
  | none =>
      have empty := List.getLast?_eq_none_iff.mp newest
      have items : page.items.isEmpty = true := by
        rw [answers.items, empty]
        rfl
      rw [receive, if_pos items]
      exact .nothing empty
  | some last =>
      have items : ¬page.items.isEmpty = true := by
        rw [answers.items, List.isEmpty_iff, List.map_eq_nil_iff]
        exact List.ne_nil_of_mem (List.mem_of_getLast? newest)
      obtain ⟨text, encoded, decoded⟩ :=
        encodeOptional_cursorOf backend (inside (List.mem_of_getLast? newest))
      rw [receive, if_neg items, answers.items, answers.newer last newest, encoded]
      exact .page newest decoded

theorem received_after {logs : SqliteLogStore} {tail : TailState}
    (plain : Plain backend tail.filter) {token : String} (given : tail.filter.after = some token)
    {cursor : LogCursor} (decoded : backend.decodeCursor token = .ok cursor)
    (stored : List StoredLog) :
    Received backend stored tail
      ((rowsAfter config backend logs tail.filter cursor).take (pageLimit tail.filter))
      (receive stored tail (logs.query backend config.service tail.filter)) := by
  obtain ⟨page, answered, answers⟩ := query_after plain given decoded
  have inside : (rowsAfter config backend logs tail.filter cursor).take (pageLimit tail.filter) ⊆
      logs.entries config.service := by
    intro entry member
    exact (mem_rowsAfter.mp (List.mem_of_mem_take member)).1.1
  rw [answered]
  exact received_of_answers inside answers stored

/-! ## The invariant -/

/-- The stream is plain, and when it waits nothing is above its cursor or a notification
will come. -/
structure Watching (config : BufferConfig) (backend : LogBackend) (state : LogTail)
    (tail : TailState) : Prop where
  plain : Plain backend tail.filter
  given : tail.filter.after ≠ none
  seen : tail.seen ≤ state.buffer.flushWatcher.version
  caughtUp : tail.phase = .waiting → state.Pending tail ∨
    ∀ token ∈ tail.filter.after, ∀ cursor, backend.decodeCursor token = .ok cursor →
      rowsAfter config backend state.buffer.logs tail.filter cursor = []

theorem entries_step {before after : LogBuffer} {action : BufferAction} (live : before.WorkerLive)
    (clean : before.CleanAppend action) (stepped : before.step config action = some after) :
    after.announces = true ∨
      (after.logs.entries config.service).Perm (before.logs.entries config.service) := by
  cases LogBuffer.step_effect live stepped with
  | accepts _ _ _ _ stores => exact .inr (.of_eq (by rw [stores.logs]))
  | lands lines marks phase appended _ _ _ =>
      exact .inl (LogBuffer.announces_of_appended phase (by rw [appended]) stepped)
  | fails lines marks fault phase appended _ _ _ =>
      obtain ⟨⟨added, entries, stored, _⟩, succeeds⟩ :=
        append_grown before.logs _ config.service (lines.map Accepted.line)
      rw [appended] at entries succeeds
      right
      cases clean lines marks phase with
      | inl done => cases succeeds.mpr done
      | inr nothing =>
          rw [nothing, List.map_nil, List.map_eq_nil_iff] at stored
          rwa [stored, List.append_nil] at entries
  | advances _ _ _ _ _ logs _ _ => exact .inr (.of_eq (by rw [logs]))
  | quiet _ _ stores => exact .inr (.of_eq (by rw [stores.logs]))

theorem hasChanged_iff (channel : Watch Nat) (seen : Nat) :
    channel.hasChanged seen = true ↔ seen ≠ channel.version := by
  rw [Watch.hasChanged, bne_iff_ne]

/-- A pending notification stays pending until the stream wakes. -/
theorem pending_step {before after : LogTail} {tail : TailState}
    (announces : LogBuffer.Announces before.buffer after.buffer)
    (seen : tail.seen ≤ before.buffer.flushWatcher.version) (pending : before.Pending tail) :
    after.Pending tail := by
  have version := announces.version
  cases pending with
  | inl changed =>
      left
      rw [hasChanged_iff] at changed ⊢
      omega
  | inr announced =>
      cases announces.kept announced with
      | inl still => exact .inr still
      | inr sent =>
          left
          rw [hasChanged_iff]
          omega

theorem watching_buffer {before : LogTail} {buffer : LogBuffer} {tail : TailState}
    {action : BufferAction} (live : before.buffer.WorkerLive)
    (watching : Watching config backend before tail) (clean : before.buffer.CleanAppend action)
    (stepped : before.buffer.step config action = some buffer) :
    Watching config backend { before with buffer } tail := by
  have announces := LogBuffer.announces_step live stepped
  refine ⟨watching.plain, watching.given, watching.seen.trans announces.version, fun waiting => ?_⟩
  cases watching.caughtUp waiting with
  | inl pending => exact .inl (pending_step announces watching.seen pending)
  | inr caughtUp =>
      cases entries_step live clean stepped with
      | inl announced => exact .inl (.inr announced)
      | inr same =>
          right
          intro token given cursor decoded
          refine List.eq_nil_iff_forall_not_mem.mpr fun entry member => ?_
          obtain ⟨⟨present, matching⟩, above⟩ := mem_rowsAfter.mp member
          have old : entry ∈ rowsAfter config backend before.buffer.logs tail.filter cursor :=
            mem_rowsAfter.mpr ⟨⟨same.mem_iff.mp present, matching⟩, above⟩
          rw [caughtUp token given cursor decoded] at old
          cases old

theorem watching_query {state : LogTail} {tail : TailState}
    (watching : Watching config backend state tail)
    (enough : ¬state.Pending tail → ∀ token ∈ tail.filter.after, ∀ cursor,
      backend.decodeCursor token = .ok cursor →
        (rowsAfter config backend state.buffer.logs tail.filter cursor).length ≤
          pageLimit tail.filter) (stored : List StoredLog) :
    Watching config backend state (receive stored tail
      (state.buffer.logs.query backend config.service tail.filter)) := by
  obtain ⟨token, given⟩ := Option.ne_none_iff_exists'.mp watching.given
  obtain ⟨cursor, decoded, _⟩ := watching.plain.after token given
  have received : Received backend stored tail
      ((rowsAfter config backend state.buffer.logs tail.filter cursor).take
        (pageLimit tail.filter))
      (receive stored tail (state.buffer.logs.query backend config.service tail.filter)) :=
    received_after watching.plain given decoded stored
  generalize receive stored tail _ = after at received ⊢
  cases received with
  | nothing empty =>
      refine ⟨watching.plain, watching.given, watching.seen, fun _ => .inr ?_⟩
      intro other same otherCursor otherDecoded
      cases Option.some.inj (given.symm.trans same)
      cases Except.ok.inj (decoded.symm.trans otherDecoded)
      cases List.take_eq_nil_iff.mp empty with
      | inl zero => exact absurd (one_le_pageLimit tail.filter) (by omega)
      | inr none => exact none
  | @page last text newest textDecoded =>
      have found := mem_rowsAfter.mp (List.mem_of_mem_take (List.mem_of_getLast? newest))
      refine ⟨⟨watching.plain.fromMs, watching.plain.toMs, watching.plain.before, ?_⟩,
        by simp, watching.seen, fun _ => ?_⟩
      · intro other same
        cases Option.some.inj same
        exact ⟨_, textDecoded, genuine_cursorOf found.1.1⟩
      · by_cases pending : state.Pending tail
        · exact .inl pending
        · right
          intro other same otherCursor otherDecoded
          cases Option.some.inj same
          cases Except.ok.inj (textDecoded.symm.trans otherDecoded)
          rw [List.take_of_length_le (enough pending token given cursor decoded)] at newest
          refine List.eq_nil_iff_forall_not_mem.mpr fun entry member => ?_
          obtain ⟨matching, newer⟩ := mem_rowsAfter.mp member
          have older : entry ∈ rowsAfter config backend state.buffer.logs tail.filter cursor :=
            mem_rowsAfter.mpr ⟨matching, found.2.trans newer⟩
          exact absurd ((rowsAfter_ascending _ _ _).le_getLast? newest older) (not_le.mpr newer)

/-- A stream without a connection is waiting for nothing. -/
structure Sound (config : BufferConfig) (backend : LogBackend) (state : LogTail) : Prop where
  live : state.buffer.WorkerLive
  watching : ∀ tail ∈ state.tail, Watching config backend state tail

theorem sound_connect {before : LogTail} {query : LogTailQuery}
    (live : before.buffer.WorkerLive)
    (issued : before.Admissible backend (.connect query)) :
    Sound config backend
      { before with tail := some (before.connect config.service query) } := by
  obtain ⟨token, cursor, given, decoded, genuine⟩ := issued
  refine ⟨live, ?_⟩
  intro tail opened
  cases Option.some.inj opened
  refine ⟨⟨rfl, rfl, rfl, ?_⟩, ?_, Nat.le_refl _, fun waiting => by cases waiting⟩
  · intro other same
    cases Option.some.inj (given.symm.trans same)
    exact ⟨cursor, decoded, genuine⟩
  · intro absent
    cases given.symm.trans absent

/-- The ways in which a step can be taken, with the state each of them leaves. -/
inductive Stepped (config : BufferConfig) (backend : LogBackend) (before : LogTail) :
    LogTailAction → LogTail → Prop where
  | buffered {action : BufferAction} {buffer : LogBuffer}
      (moved : before.buffer.step config action = some buffer) :
      Stepped config backend before (.buffer action) { before with buffer }
  | connected {query : LogTailQuery} (free : before.tail = none) :
      Stepped config backend before (.connect query)
        { before with tail := some (before.connect config.service query) }
  | woken {tail : TailState} (present : before.tail = some tail)
      (woken : tail.phase = .waiting ∧ before.buffer.flushWatcher.hasChanged tail.seen) :
      Stepped config backend before .wake
        { before with
          tail := some { tail with
            phase := .querying, seen := before.buffer.flushWatcher.version } }
  | queried {tail : TailState} (present : before.tail = some tail)
      (querying : tail.phase = .querying) :
      Stepped config backend before .query
        { before with
          tail := some (receive (before.buffer.logs.entries config.service) tail
            (before.buffer.logs.query backend config.service tail.filter)) }

theorem step_cases {before after : LogTail} {action : LogTailAction}
    (stepped : before.step config backend action = some after) :
    Stepped config backend before action after := by
  cases action with
  | buffer action =>
      obtain ⟨buffer, moved, rfl⟩ := Option.map_eq_some_iff.mp stepped
      exact .buffered moved
  | connect query =>
      rw [step] at stepped
      split at stepped
      · next free =>
          cases stepped
          exact .connected free
      · cases stepped
  | wake =>
      rw [step] at stepped
      split at stepped
      · next tail present =>
          split at stepped
          · next woken =>
              cases stepped
              exact .woken present woken
          · cases stepped
      · cases stepped
  | query =>
      rw [step] at stepped
      split at stepped
      · next tail present =>
          split at stepped
          · next querying =>
              cases stepped
              exact .queried present querying
          · cases stepped
      · cases stepped

theorem sound_step {before after : LogTail} {action : LogTailAction}
    (sound : Sound config backend before) (permitted : before.ChecksSuffice config backend action)
    (stepped : before.step config backend action = some after) :
    Sound config backend after := by
  cases step_cases stepped with
  | buffered moved =>
      exact ⟨LogBuffer.live_step sound.live moved, fun tail present =>
        watching_buffer sound.live (sound.watching tail present) permitted.1 moved⟩
  | connected _ => exact sound_connect sound.live permitted.1
  | woken present _ =>
      refine ⟨sound.live, fun woken same => ?_⟩
      cases Option.some.inj same
      have watching := sound.watching _ present
      exact ⟨watching.plain, watching.given, Nat.le_refl _, fun waiting => by cases waiting⟩
  | queried present _ =>
      refine ⟨sound.live, fun received same => ?_⟩
      cases Option.some.inj same
      have watching := watching_query (sound.watching _ present) (permitted.2 rfl _ present)
        (before.buffer.logs.entries config.service)
      exact ⟨watching.plain, watching.given, watching.seen, watching.caughtUp⟩

/-- While every check finds at most one page, a sleeping stream has delivered everything. -/
theorem never_sleeps (config : BufferConfig) (backend : LogBackend) (logs : SqliteLogStore)
    (metadata : ContainerId → Option LogCheckpoint) {state : LogTail}
    (reached : (logTailMachine config backend logs metadata).Reachable
      (ChecksSuffice config backend) state) : state.NeverSleeps config backend := by
  have sound : Sound config backend state := by
    refine reached.invariant (Sound config backend) ?_ sound_step
    exact ⟨LogBuffer.live_new logs metadata, fun tail absent => by cases absent⟩
  intro tail present waiting idle
  cases (sound.watching tail present).caughtUp waiting with
  | inl pending => exact absurd pending idle
  | inr caughtUp => exact caughtUp

/-! ## Two connections -/

/-- The cursor of the `index`-th of a series of lines, one each millisecond. -/
def seriesCursor (index : Nat) : LogCursor := ⟨1700000000000 + index, "2023_w46.db", index + 1⟩

def series (first count : Nat) : List LogLine :=
  (List.range' first count).map fun index => shopLine (1700000000000 + index) "line"

def seriesStore (count : Nat) : SqliteLogStore :=
  (SqliteLogStore.empty.append {} "shop" (series 0 count)).1

/-- The stream opens with the cursor of the first line and checks once. -/
def openAtFirst : List LogTailAction := [
  .connect { after := encodeOptional jsonBackend (seriesCursor 0) }, .query]

/-- One check that an admissible run passes: the client gives the cursor of the first line. -/
def admissibleOk (config : BufferConfig) (before : LogTail) : LogTailAction → Bool
  | .buffer action => appendOk config before.buffer action
  | .connect query => query.after = encodeOptional jsonBackend (seriesCursor 0)
  | .wake => true
  | .query => true

def fewLines (config : BufferConfig) (before : LogTail) (action : LogTailAction) : Bool :=
  admissibleOk config before action && before.tail.all fun tail =>
    decide ((before.buffer.logs.entries config.service).length ≤ pageLimit tail.filter)

theorem admissible_of_ok (config : BufferConfig) (before : LogTail) (action : LogTailAction)
    (ok : admissibleOk config before action = true) : before.Admissible jsonBackend action := by
  cases action with
  | buffer action => exact cleanAppend_of_appendOk config before.buffer action ok
  | connect query =>
      have named : weekDatabaseName 1700000000000 = some (seriesCursor 0).week := by decide
      obtain ⟨text, encoded, decoded⟩ := decodeJsonCursor_encode ⟨1700000000000, named⟩
      have given : query.after = encodeOptional jsonBackend (seriesCursor 0) := of_decide_eq_true ok
      refine ⟨text, seriesCursor 0, ?_, decoded, ⟨⟨1700000000000, named⟩, by decide⟩⟩
      rw [given, encodeOptional, show jsonBackend.encodeCursor (seriesCursor 0) = .ok text from encoded]
      rfl
  | wake => trivial
  | query => trivial

theorem checksSuffice_of_few (config : BufferConfig) (before : LogTail) (action : LogTailAction)
    (ok : fewLines config before action = true) :
    before.ChecksSuffice config jsonBackend action := by
  rw [fewLines, Bool.and_eq_true, Option.all_eq_true] at ok
  refine ⟨admissible_of_ok config before action ok.1, fun _ tail present _ _ _ cursor _ => ?_⟩
  have few := of_decide_eq_true (ok.2 tail present)
  have filtered : (rowsAfter config jsonBackend before.buffer.logs tail.filter cursor).length ≤
      (before.buffer.logs.entries config.service).length := by
    rw [rowsAfter, above, SqliteLogStore.matching]
    refine (List.length_filter_le _ _).trans ?_
    rw [List.length_insertionSort]
    exact List.length_filter_le _ _
  exact filtered.trans few

/-- Two lines are flushed while the stream waits; the wake delivers them. -/
def flushOfTwo : List LogTailAction := openAtFirst ++ [
  .buffer (.push (shopLine 1700000000001 "line")), .buffer (.push (shopLine 1700000000002 "line")),
  .buffer (.appendReturns (.push 0) {}), .buffer (.internReturns (.push 0) true),
  .buffer (.advanceReturns (.push 0) true), .wake, .query]

theorem never_sleeps_after_two : ∃ (state : LogTail) (tail : TailState),
    state.tail = some tail ∧ tail.filter.after = encodeOptional jsonBackend (seriesCursor 2) ∧
      state.NeverSleeps shopConfig jsonBackend := by
  have done : (((logTailMachine shopConfig jsonBackend (seriesStore 1) fun _ => none).run
      (fewLines shopConfig) ⟨.new (seriesStore 1) fun _ => none, none⟩ flushOfTwo).bind LogTail.tail).map
        (fun tail => tail.filter.after) =
      some (encodeOptional jsonBackend (seriesCursor 2)) := by decide +kernel
  obtain ⟨tail, found, after⟩ := Option.map_eq_some_iff.mp done
  obtain ⟨state, taken, present⟩ := Option.bind_eq_some_iff.mp found
  exact ⟨state, tail, present, after, never_sleeps shopConfig jsonBackend (seriesStore 1)
    (fun _ => none) (Machine.Reachable.start.run (checksSuffice_of_few shopConfig) taken)⟩

/-- A buffer that holds a hundred lines before a push flushes them. -/
def burstConfig : BufferConfig := { shopConfig with maxBufferedLines := 101 }

/-- One flush stores a hundred and one lines; the wake delivers a hundred of them. -/
def flushOfMany : List LogTailAction := openAtFirst ++
  ((series 1 101).map fun line => .buffer (.push line)) ++ [
    .buffer (.appendReturns (.push 0) {}), .buffer (.internReturns (.push 0) true),
    .buffer (.advanceReturns (.push 0) true), .wake, .query]

theorem sleeps_on_last_line :
    ¬ ∀ (config : BufferConfig) (backend : LogBackend) (logs : SqliteLogStore)
        (metadata : ContainerId → Option LogCheckpoint) (state : LogTail),
        (logTailMachine config backend logs metadata).Reachable (Admissible backend) state →
          state.NeverSleeps config backend := by
  intro always
  have done : ((logTailMachine burstConfig jsonBackend (seriesStore 1) fun _ => none).run
      (admissibleOk burstConfig) ⟨.new (seriesStore 1) fun _ => none, none⟩ flushOfMany).bind
        (fun state => state.tail.map fun tail =>
          (tail.phase, tail.filter.after, state.buffer.flushWatcher.hasChanged tail.seen,
            state.buffer.announces, (rowsAfter burstConfig jsonBackend state.buffer.logs tail.filter
              (seriesCursor 100)).map fun entry => entry.line)) =
      some (.waiting, encodeOptional jsonBackend (seriesCursor 100), false, false,
        [shopLine 1700000000101 "line"]) := by decide +kernel
  obtain ⟨state, taken, found⟩ := Option.bind_eq_some_iff.mp done
  obtain ⟨tail, present, shape⟩ := Option.map_eq_some_iff.mp found
  simp only [Prod.mk.injEq] at shape
  obtain ⟨waiting, given, unchanged, silent, left⟩ := shape
  have idle : ¬state.Pending tail := by
    rw [Pending, unchanged, silent]
    simp
  have named : weekDatabaseName 1700000000000 = some (seriesCursor 100).week := by decide
  obtain ⟨text, encoded, decoded⟩ := decodeJsonCursor_encode ⟨1700000000000, named⟩
  have token : tail.filter.after = some text := by
    rw [given, encodeOptional, show jsonBackend.encodeCursor (seriesCursor 100) = .ok text from encoded]
    rfl
  have empty := always burstConfig jsonBackend (seriesStore 1) (fun _ => none) state
    (Machine.Reachable.start.run (admissible_of_ok burstConfig) taken) tail present waiting idle
    text token (seriesCursor 100) decoded
  rw [empty] at left
  cases left

end LogTail

end Vpsiner.Api
