import Vpsiner.Api.LogTailOrder

/-! A log tail over runs of pushes, flushes and checks. While the flushes of all containers keep
the order of time, the stream sends every new line exactly once. -/

set_option autoImplicit false

namespace Vpsiner.Api

open Vpsiner.Lib Vpsiner.Lib.Paging Vpsiner.Logs

namespace LogTailWeeks

/-- The connection opens without a cursor or with that of a line it admits, and each container
logs in the order of time. -/
def Promised (config : BufferConfig) (backend : LogBackend) (before : LogTailWeeks) :
    WeekAction → Prop
  | .buffer (.push line) =>
      ∀ entry ∈ before.buffer.history, entry.line.cid = line.cid → entry.line.ts ≤ line.ts
  | .connect query => query.after = none ∨
      ∃ entry ∈ before.buffer.logs.matching backend config.service query.filter,
        query.after = encodeOptional backend (cursorOf entry)
  | _ => True

/-- The line is not older than a stored one, nor in a week that a running check will not read
any more while it has a later one to read. -/
structure InTime (rows : List StoredLog) (check : Option Walk) (week : String) (line : LogLine) :
    Prop where
  rows : ∀ row ∈ rows, row.ts ≤ line.ts
  check : ∀ walk ∈ check, week ∈ walk.left ∨
    ∀ later ∈ walk.left, ∀ start ∈ databaseWeekStartMs later, start ≤ line.ts

/-- Of the lines that the stream admits, no flush commits one behind time once there is a cursor
or a check; a listing misses none but the latest week files; and a check without a cursor leaves out
only lines that were there when the stream opened. -/
def InOrder (config : BufferConfig) (backend : LogBackend) (before : LogTailWeeks) :
    WeekAction → Prop
  | .appendWeek flusher week .commits => ∀ lines marks,
      before.buffer.phase flusher = some (.appending lines marks) →
        ∀ batch ∈ before.pending lines, batch.week = week → ∀ tail ∈ before.tail,
          tail.filter.after ≠ none ∨ before.walk ≠ none → ∀ line ∈ batch.lines,
            filterMatches backend tail.filter (storedLine config.service line) = true →
              InTime (before.buffer.logs.matching backend config.service tail.filter) before.walk
                week line
  | .connect query => before.Promised config backend (.connect query)
  | .list created => ∀ dir ∈ before.buffer.logs.serviceDir? config.service,
      ∀ there ∈ before.listing, LogTail.MissesLatest dir (dir.listed (there ++ created))
  | .answer => ∀ tail ∈ before.tail, tail.filter.after = none →
      ∀ walk ∈ before.walk, pageLimit tail.filter < walk.page.length →
        ∀ entry ∈ (before.buffer.logs.matching backend config.service tail.filter).rdrop
          (pageLimit tail.filter), entry ∈ tail.opened
  | _ => True

variable {config : BufferConfig} {backend : LogBackend}

/-! ## What a step can do -/

/-- The ways in which a step can be taken, with what each of them does to the stream, to a check
and to the store. -/
inductive Stepped (config : BufferConfig) (backend : LogBackend) (before : LogTailWeeks) :
    WeekAction → LogTailWeeks → Prop where
  | quiet {action : WeekAction} {after : LogTailWeeks}
      (same : after.buffer.logs.entries config.service = before.buffer.logs.entries config.service)
      (tail : after.tail = before.tail) (listing : after.listing = before.listing)
      (walk : after.walk = before.walk) : Stepped config backend before action after
  | wrote {flusher : Flusher} {week : String} {fate : WeekFate} {lines : List Accepted}
      {marks : List (ContainerId × Mark)} {batch : WeekBatch} {dir : ServiceDir}
      {result : AppResult Unit} {after : LogTailWeeks}
      (phase : before.buffer.phase flusher = some (.appending lines marks))
      (pending : batch ∈ before.pending lines) (named : batch.week = week)
      (written : Logs.appendWeek ((before.buffer.logs.serviceDir? config.service).getD .empty)
        batch fate = (dir, result))
      (logs : after.buffer.logs = before.buffer.logs.setServiceDir config.service dir)
      (tail : after.tail = before.tail) (listing : after.listing = before.listing)
      (walk : after.walk = before.walk) :
      Stepped config backend before (.appendWeek flusher week fate) after
  | connected {query : LogTailQuery} (free : before.tail = none) :
      Stepped config backend before (.connect query)
        { before with tail := some (before.toLogTail.connect config.service query) }
  | woken {tail : TailState} (present : before.tail = some tail) (waiting : tail.phase = .waiting) :
      Stepped config backend before .wake
        { before with
          tail := some { tail with
            phase := .querying, seen := before.buffer.flushWatcher.version } }
  | failed {action : WeekAction} {tail : TailState} (present : before.tail = some tail)
      (fault : Fault) :
      Stepped config backend before action (before.settle config tail (.error fault))
  | absent {tail : TailState} (present : before.tail = some tail) :
      Stepped config backend before .openDir (before.settle config tail (.ok (emptyPage none)))
  | opened {tail : TailState} {dir : ServiceDir} (present : before.tail = some tail)
      (querying : tail.phase = .querying)
      (found : before.buffer.logs.serviceDir? config.service = some dir) :
      Stepped config backend before .openDir
        { before with listing := some (dir.weeks.map WeekDb.name) }
  | listed {created there : List String} {tail : TailState} {direction : Direction}
      {cursor : Option LogCursor} {dir : ServiceDir} (present : before.tail = some tail)
      (listing : before.listing = some there)
      (requested : requestedCursor backend tail.filter = .ok (direction, cursor))
      (found : before.buffer.logs.serviceDir? config.service = some dir) :
      Stepped config backend before (.list created)
        { before with
          listing := none
          walk := some ⟨(orderedCandidates (readWeekFiles (dir.listed (there ++ created)))
            tail.filter cursor direction).map WeekDb.name, []⟩ }
  | read {tail : TailState} {week : String} {rest : List String} {page more : List StoredLog}
      {direction : Direction} {cursor : Option LogCursor} {dir : ServiceDir} {db : WeekDb}
      (present : before.tail = some tail) (walk : before.walk = some ⟨week :: rest, page⟩)
      (requested : requestedCursor backend tail.filter = .ok (direction, cursor))
      (found : before.buffer.logs.serviceDir? config.service = some dir)
      (member : db ∈ dir.weeks) (name : db.name = week)
      (scanned : scanWeeks backend config.service tail.filter
        (tail.filter.query.bind sanitizeFtsQuery) cursor direction (pageLimit tail.filter + 1) [db]
          page = .ok more) :
      Stepped config backend before .readWeek
        { before with
          walk := some ⟨if pageLimit tail.filter + 1 ≤ more.length then [] else rest, more⟩ }
  | answered {tail : TailState} {page : List StoredLog} {direction : Direction}
      {cursor : Option LogCursor} (present : before.tail = some tail)
      (walk : before.walk = some ⟨[], page⟩)
      (requested : requestedCursor backend tail.filter = .ok (direction, cursor)) :
      Stepped config backend before .answer (before.settle config tail
        (.ok (pageOf backend tail.filter direction (pageLimit tail.filter) page)))

theorem stepped_buffer {before after : LogTailWeeks} {action : BufferAction}
    (stepped : before.step config backend (.buffer action) = some after) :
    Stepped config backend before (.buffer action) after := by
  have moved : (∀ flusher fates, action ≠ .appendReturns flusher fates) ∧
      (before.buffer.step config action).map (fun buffer => { before with buffer }) =
        some after := by
    cases action with
    | appendReturns flusher fates => cases stepped
    | _ => exact ⟨nofun, stepped⟩
  obtain ⟨other, mapped⟩ := moved
  obtain ⟨buffer, moved, rfl⟩ := Option.map_eq_some_iff.mp mapped
  exact .quiet (by rw [LogBuffer.logs_step moved other]) rfl rfl rfl

theorem stepped_openWeek {before after : LogTailWeeks} {flusher : Flusher} {week : String}
    (stepped : before.openWeek config flusher week = some after) :
    Stepped config backend before (.openWeek flusher week) after := by
  rw [openWeek] at stepped
  split at stepped
  · obtain ⟨batch, _, rfl⟩ := Option.map_eq_some_iff.mp stepped
    refine .quiet ?_ rfl rfl rfl
    rw [entries_setServiceDir, ServiceDir.entries_openWeek, entries_getD_serviceDir]
  · cases stepped

theorem stepped_appendWeek {before after : LogTailWeeks} {flusher : Flusher} {week : String}
    {fate : WeekFate} (stepped : before.appendWeek config flusher week fate = some after) :
    Stepped config backend before (.appendWeek flusher week fate) after := by
  rw [appendWeek] at stepped
  split at stepped
  · next lines marks phase =>
      obtain ⟨batch, found, rfl⟩ := Option.map_eq_some_iff.mp stepped
      have pending := List.mem_of_find?_eq_some found
      have named := List.find?_some found
      rw [decide_eq_true_eq] at named
      cases written : Logs.appendWeek
        ((before.buffer.logs.serviceDir? config.service).getD .empty) batch fate with
      | mk dir result =>
          simp only [written]
          cases result with
          | ok done => exact .wrote phase pending named written rfl rfl rfl rfl
          | error fault => exact .wrote phase pending named written rfl rfl rfl rfl
  · cases stepped

theorem stepped_directoryFails {before after : LogTailWeeks} {flusher : Flusher}
    (stepped : before.directoryFails flusher = some after) :
    Stepped config backend before (.directoryFails flusher) after := by
  rw [directoryFails] at stepped
  split at stepped
  · split at stepped
    · cases stepped
    · cases stepped
      exact .quiet rfl rfl rfl rfl
  · cases stepped

theorem stepped_appendSucceeds {before after : LogTailWeeks} {flusher : Flusher}
    (stepped : before.appendSucceeds flusher = some after) :
    Stepped config backend before (.appendSucceeds flusher) after := by
  rw [appendSucceeds] at stepped
  split at stepped
  · split at stepped
    · cases stepped
      exact .quiet rfl rfl rfl rfl
    · cases stepped
  · cases stepped

theorem stepped_openDir {before after : LogTailWeeks}
    (stepped : before.openDir config backend = some after) :
    Stepped config backend before .openDir after := by
  rw [openDir] at stepped
  split at stepped
  · next tail present _ _ =>
      split at stepped
      · next querying =>
          split at stepped
          · cases stepped
            exact .failed present _
          · split at stepped
            · cases stepped
              exact .absent present
            · next dir found =>
                cases stepped
                exact .opened present querying found
      · cases stepped
  · cases stepped

theorem stepped_list {before after : LogTailWeeks} {created : List String}
    (stepped : before.list config backend created = some after) :
    Stepped config backend before (.list created) after := by
  rw [list] at stepped
  split at stepped
  · next tail there present listing =>
      obtain ⟨dir, found, stepped⟩ := Option.bind_eq_some_iff.mp stepped
      cases requested : requestedCursor backend tail.filter with
      | error fault =>
          rw [requested] at stepped
          cases stepped
      | ok bound =>
          rw [requested] at stepped
          cases stepped
          exact .listed present listing requested found
  · cases stepped

theorem stepped_readWeek {before after : LogTailWeeks}
    (stepped : before.readWeek config backend = some after) :
    Stepped config backend before .readWeek after := by
  rw [readWeek] at stepped
  split at stepped
  · next tail week rest page present walk =>
      obtain ⟨dir, found, stepped⟩ := Option.bind_eq_some_iff.mp stepped
      obtain ⟨db, held, stepped⟩ := Option.bind_eq_some_iff.mp stepped
      have name := List.find?_some held
      rw [decide_eq_true_eq] at name
      cases requested : requestedCursor backend tail.filter with
      | error fault =>
          rw [requested] at stepped
          cases stepped
          exact .failed present fault
      | ok bound =>
          cases scanned : scanWeeks backend config.service tail.filter
            (tail.filter.query.bind sanitizeFtsQuery) bound.2 bound.1 (pageLimit tail.filter + 1)
              [db] page with
          | error fault =>
              simp only [requested, ok_bind, scanned] at stepped
              cases stepped
              exact .failed present fault
          | ok more =>
              simp only [requested, ok_bind, scanned] at stepped
              cases stepped
              exact .read present walk requested found (List.mem_of_find?_eq_some held) name scanned
  · cases stepped

theorem stepped_answer {before after : LogTailWeeks}
    (stepped : before.answer config backend = some after) :
    Stepped config backend before .answer after := by
  rw [answer] at stepped
  split at stepped
  · next tail page present walk =>
      cases requested : requestedCursor backend tail.filter with
      | error fault =>
          rw [requested] at stepped
          cases stepped
          exact .failed present fault
      | ok bound =>
          rw [requested] at stepped
          cases stepped
          exact .answered present walk requested
  · cases stepped

theorem step_cases {before after : LogTailWeeks} {action : WeekAction}
    (stepped : before.step config backend action = some after) :
    Stepped config backend before action after := by
  cases action with
  | buffer action => exact stepped_buffer stepped
  | openWeek flusher week => exact stepped_openWeek stepped
  | appendWeek flusher week fate => exact stepped_appendWeek stepped
  | directoryFails flusher => exact stepped_directoryFails stepped
  | appendSucceeds flusher => exact stepped_appendSucceeds stepped
  | connect query =>
      obtain ⟨moved, connected, rfl⟩ := Option.map_eq_some_iff.mp stepped
      cases LogTail.step_cases connected with
      | connected free => exact .connected free
  | wake =>
      obtain ⟨moved, woken, rfl⟩ := Option.map_eq_some_iff.mp stepped
      cases LogTail.step_cases woken with
      | woken present waiting => exact .woken present waiting.1
  | openDir => exact stepped_openDir stepped
  | list created => exact stepped_list stepped
  | readWeek => exact stepped_readWeek stepped
  | answer => exact stepped_answer stepped
  | fail detail =>
      obtain ⟨tail, present, settled⟩ := Option.bind_eq_some_iff.mp stepped
      split at settled
      · cases settled
        exact .failed present _
      · cases settled

/-! ## The invariant -/

/-- A check runs only while the stream waits for its answer. -/
structure Sound (config : BufferConfig) (backend : LogBackend) (state : LogTailWeeks) : Prop where
  tracking : ∀ tail ∈ state.tail, LogTail.Tracking config backend state.toLogTail tail
  listing : ∀ there ∈ state.listing, ∃ tail ∈ state.tail, tail.phase = .querying
  walking : ∀ walk ∈ state.walk, ∃ tail ∈ state.tail, tail.phase = .querying ∧
    LogTail.Walking config backend state.toLogTail tail walk

/-- A week committed in time adds rows after all that the stream admits. -/
theorem newer_of_grown {before after : SqliteLogStore} {filter : LogFilter} {batch : WeekBatch}
    {check : Option Walk}
    (grown : Grown config.service (before.entries config.service) batch.lines
      (after.entries config.service))
    (inTime : ∀ line ∈ batch.lines,
      filterMatches backend filter (storedLine config.service line) = true →
        InTime (before.matching backend config.service filter) check batch.week line)
    {entry : StoredLog} (present : entry ∈ after.matching backend config.service filter) :
    entry ∈ before.matching backend config.service filter ∨
      (∀ row ∈ before.matching backend config.service filter, row.position < entry.position) ∧
        ∀ walk ∈ check, entry.week ∈ walk.left ∨
          ∀ later ∈ walk.left, ∀ start ∈ databaseWeekStartMs later, start ≤ entry.ts := by
  obtain ⟨stored, accepted⟩ := mem_matching.mp present
  rcases grown.above stored with old | ⟨line, member, same, above⟩
  · exact .inl (mem_matching.mpr ⟨old, accepted⟩)
  · obtain ⟨_, _, _, time⟩ := SqliteLogStore.of_mem_entries stored
    rw [same] at accepted time
    have ts : line.ts = entry.ts := time
    obtain ⟨rows, check⟩ := inTime line member accepted
    rw [ts] at rows check
    have named := batch.named line member
    rw [ts] at named
    rw [LogTail.week_of_stored stored named]
    exact .inr ⟨fun row held => above row (mem_matching.mp held).1 (rows row held), check⟩

theorem Sound.of_entries {before after : LogTailWeeks} (sound : Sound config backend before)
    (same : after.buffer.logs.entries config.service = before.buffer.logs.entries config.service)
    (tail : after.tail = before.tail) (listing : after.listing = before.listing)
    (walk : after.walk = before.walk) : Sound config backend after := by
  refine ⟨?_, ?_, ?_⟩
  · rw [tail]
    intro tail present
    exact (sound.tracking tail present).moved same tail.phase tail.seen
  · rw [tail, listing]
    exact sound.listing
  · rw [tail, walk]
    intro walk check
    obtain ⟨tail, present, querying, walking⟩ := sound.walking walk check
    refine ⟨tail, present, querying, LogTail.walking_grow walking ?_ ?_⟩
    · rw [LogTail.matching_congr backend _ same]
      exact fun _ => id
    · rw [LogTail.matching_congr backend _ same]
      exact fun _ => .inl

theorem sound_grown {before after : LogTailWeeks} {batch : WeekBatch}
    (sound : Sound config backend before)
    (grown : Grown config.service (before.buffer.logs.entries config.service) batch.lines
      (after.buffer.logs.entries config.service))
    (inTime : ∀ tail ∈ before.tail, tail.filter.after ≠ none ∨ before.walk ≠ none →
      ∀ line ∈ batch.lines,
        filterMatches backend tail.filter (storedLine config.service line) = true →
          InTime (before.buffer.logs.matching backend config.service tail.filter) before.walk
            batch.week line)
    (tail : after.tail = before.tail) (listing : after.listing = before.listing)
    (walk : after.walk = before.walk) : Sound config backend after := by
  have kept : ∀ filter, ∀ row ∈ before.buffer.logs.matching backend config.service filter,
      row ∈ after.buffer.logs.matching backend config.service filter := by
    intro filter row member
    obtain ⟨stored, accepted⟩ := mem_matching.mp member
    exact mem_matching.mpr ⟨grown.subset stored, accepted⟩
  refine ⟨?_, ?_, ?_⟩
  · rw [tail]
    intro tail present
    apply (sound.tracking tail present).grow (kept tail.filter)
    intro cursor entry member
    exact (newer_of_grown grown (inTime tail present (.inl cursor)) member).imp_right And.left
  · rw [tail, listing]
    exact sound.listing
  · rw [tail, walk]
    intro walk check
    obtain ⟨tail, present, querying, walking⟩ := sound.walking walk check
    refine ⟨tail, present, querying, LogTail.walking_grow walking (kept tail.filter) ?_⟩
    intro entry member
    have running : before.walk ≠ none := by simp [Option.mem_def.mp check]
    exact (newer_of_grown grown (inTime tail present (.inr running)) member).imp_right
      fun later => ⟨later.1, later.2 walk check⟩

theorem sound_settle {before : LogTailWeeks} {tail : TailState} {result : AppResult LogPage}
    (tracking : LogTail.Tracking config backend (before.settle config tail result).toLogTail
      (LogTail.receive (before.buffer.logs.entries config.service) tail result)) :
    Sound config backend (before.settle config tail result) where
  tracking received same := by
    cases Option.some.inj same
    exact tracking
  listing := nofun
  walking := nofun

theorem sound_step {before after : LogTailWeeks} {action : WeekAction}
    (sound : Sound config backend before) (inOrder : before.InOrder config backend action)
    (stepped : before.step config backend action = some after) : Sound config backend after := by
  cases step_cases stepped with
  | quiet same tail listing walk => exact sound.of_entries same tail listing walk
  | @wrote flusher week fate lines marks batch dir result after phase pending named written logs
      tail listing walk =>
      obtain ⟨_, rfl, grown⟩ | ⟨_, _, same⟩ :=
        store_appendWeek before.buffer.logs config.service batch fate written
      · rw [← logs] at grown
        refine sound_grown sound grown ?_ tail listing walk
        rw [named]
        intro tail present
        exact inOrder lines marks phase batch pending named tail present
      · rw [← logs] at same
        exact sound.of_entries same tail listing walk
  | connected free =>
      refine ⟨?_, ?_, ?_⟩
      · intro tail opened
        cases Option.some.inj opened
        exact LogTail.tracking_connect inOrder
      · intro there listing
        obtain ⟨tail, present, _⟩ := sound.listing there listing
        cases free.symm.trans present
      · intro walk check
        obtain ⟨tail, present, _⟩ := sound.walking walk check
        cases free.symm.trans present
  | @woken tail present waiting =>
      refine ⟨?_, ?_, ?_⟩
      · intro woken same
        cases Option.some.inj same
        refine (sound.tracking tail present).moved ?_ _ _
        rfl
      · intro there listing
        obtain ⟨other, same, querying⟩ := sound.listing there listing
        cases Option.some.inj (present.symm.trans same)
        cases waiting.symm.trans querying
      · intro walk check
        obtain ⟨other, same, querying, _⟩ := sound.walking walk check
        cases Option.some.inj (present.symm.trans same)
        cases waiting.symm.trans querying
  | @failed action tail present fault =>
      refine sound_settle ((sound.tracking tail present).moved ?_ .waiting tail.seen)
      rfl
  | @absent tail present =>
      refine sound_settle ((sound.tracking tail present).moved ?_ .waiting tail.seen)
      rfl
  | @opened tail dir present querying found =>
      exact ⟨sound.tracking, fun there listing => ⟨tail, present, querying⟩, sound.walking⟩
  | @listed created there tail direction cursor dir present listing requested found =>
      have tracking := sound.tracking tail present
      refine ⟨sound.tracking, nofun, ?_⟩
      intro walk check
      cases Option.some.inj check
      obtain ⟨other, same, querying⟩ := sound.listing there listing
      cases Option.some.inj (present.symm.trans same)
      obtain ⟨bound, sameRequest, _, past⟩ := tracking.requested
      cases Except.ok.inj (requested.symm.trans sameRequest)
      exact ⟨tail, present, querying,
        LogTail.walking_list (inOrder dir found there listing) past found⟩
  | @read tail week rest page more direction cursor dir db present walk requested found member
      name scanned =>
      have tracking := sound.tracking tail present
      refine ⟨sound.tracking, sound.listing, ?_⟩
      intro next check
      cases Option.some.inj check
      obtain ⟨other, same, querying, walking⟩ := sound.walking _ walk
      cases Option.some.inj (present.symm.trans same)
      obtain ⟨bound, sameRequest, genuine, past⟩ := tracking.requested
      cases Except.ok.inj (requested.symm.trans sameRequest)
      rw [scanWeeks_eq tracking.plain.fit genuine, List.flatMap_singleton] at scanned
      exact ⟨tail, present, querying, LogTail.walking_read tracking.plain genuine past found member
        name walking (Except.ok.inj scanned).symm⟩
  | @answered tail page direction cursor present walk requested =>
      have tracking := sound.tracking tail present
      obtain ⟨other, same, _, walking⟩ := sound.walking _ walk
      cases Option.some.inj (present.symm.trans same)
      obtain ⟨bound, sameRequest, _, _⟩ := tracking.requested
      cases Except.ok.inj (requested.symm.trans sameRequest)
      have finds := LogTail.walking_found walking fun full backward =>
        inOrder tail present (LogTail.direction_eq_backward_iff.mp backward) _ walk full
      have inside : pageRows (LogTail.direction tail) (pageLimit tail.filter) page ⊆
          before.buffer.logs.entries config.service := by
        intro row member
        exact (mem_matching.mp (finds.ahead row member).1).1
      exact sound_settle (LogTail.tracking_received tracking rfl finds
        (LogTail.received_of_answers inside (answers_pageOf _ _ page) _))

/-- While the flushes keep the order of time, the stream sends every new line exactly once. -/
theorem delivers_in_order (config : BufferConfig) (backend : LogBackend) (logs : SqliteLogStore)
    (metadata : ContainerId → Option LogCheckpoint) {state : LogTailWeeks}
    (reached : (logTailWeeksMachine config backend logs metadata).Reachable
      (InOrder config backend) state) :
    ∀ tail ∈ state.tail, LogTail.DeliversInOrder config backend state.toLogTail tail := by
  have sound : Sound config backend state := by
    refine reached.invariant (Sound config backend) ?_ sound_step
    exact ⟨nofun, nofun, nofun⟩
  intro tail present
  exact (sound.tracking tail present).toDeliversInOrder

/-! ## Two containers -/

def containerLine (cid : Nat) (ts : Int) : LogLine := ⟨ts, "shop", ⟨cid⟩, .stdout, none, "line"⟩

/-- Two pushes that fill the buffer, their flush and the check after it. -/
def flushAndCheck (first second : LogLine) : List WeekAction := [
  .buffer (.push first), .buffer (.push second), .openWeek (.push 0) "2023_w46.db",
  .appendWeek (.push 0) "2023_w46.db" .commits, .appendSucceeds (.push 0),
  .buffer (.internReturns (.push 0) true), .buffer (.advanceReturns (.push 0) true), .wake,
  .openDir, .list [], .readWeek, .answer]

def twoFlushes (first second third fourth : LogLine) : List WeekAction :=
  [.connect {}, .openDir] ++ flushAndCheck first second ++ flushAndCheck third fourth

def promisedOk (before : LogTailWeeks) : WeekAction → Bool
  | .buffer (.push line) => before.buffer.history.all fun entry =>
      entry.line.cid ≠ line.cid || decide (entry.line.ts ≤ line.ts)
  | .connect query => query.after.isNone
  | _ => true

/-- No line is older than a stored one, nothing is committed during a check, no file is created
during a listing, and everything fits on a page. -/
def inOrderOk (config : BufferConfig) (before : LogTailWeeks) : WeekAction → Bool
  | .appendWeek flusher _ _ => before.walk.isNone &&
      match before.buffer.phase flusher with
      | some (.appending lines _) => (before.pending lines).all fun batch =>
          batch.lines.all fun line => (before.buffer.logs.entries config.service).all fun row =>
            decide (row.ts ≤ line.ts)
      | _ => true
  | .connect query => query.after.isNone
  | .list created => (before.buffer.logs.serviceDir? config.service).all fun dir =>
      before.listing.all fun there => dir.weeks.all fun db => db.name ∈ there ++ created
  | .answer => before.tail.all fun tail => before.walk.all fun walk =>
      decide (walk.page.length ≤ pageLimit tail.filter)
  | _ => true

theorem promised_of_ok (config : BufferConfig) (before : LogTailWeeks) (action : WeekAction)
    (ok : promisedOk before action = true) : before.Promised config jsonBackend action := by
  cases action with
  | buffer action =>
      cases action with
      | push line =>
          intro entry member same
          have ordered := List.all_eq_true.mp ok entry member
          rw [Bool.or_eq_true, decide_eq_true_eq, decide_eq_true_eq] at ordered
          rcases ordered with different | before
          · exact absurd same different
          · exact before
      | _ => trivial
  | connect query => exact .inl (Option.isNone_iff_eq_none.mp ok)
  | _ => trivial

theorem inOrder_of_ok (config : BufferConfig) (before : LogTailWeeks) (action : WeekAction)
    (ok : inOrderOk config before action = true) : before.InOrder config jsonBackend action := by
  cases action with
  | appendWeek flusher week fate =>
      cases fate with
      | commits =>
          intro lines marks phase batch pending _ tail _ _ line member _
          rw [inOrderOk, phase, Bool.and_eq_true] at ok
          obtain ⟨idle, ok⟩ := ok
          have batchOk := List.all_eq_true.mp ok batch pending
          have lineOk := List.all_eq_true.mp batchOk line member
          refine ⟨?_, ?_⟩
          · intro row stored
            exact of_decide_eq_true (List.all_eq_true.mp lineOk row (mem_matching.mp stored).1)
          · rw [Option.isNone_iff_eq_none.mp idle]
            exact nofun
      | _ => trivial
  | connect query => exact .inl (Option.isNone_iff_eq_none.mp ok)
  | list created =>
      intro dir found there listing db member
      have thereOk := (Option.all_eq_true _ _).mp ((Option.all_eq_true _ _).mp ok dir found) there
        listing
      exact .inl (List.mem_filter.mpr ⟨member, List.all_eq_true.mp thereOk db member⟩)
  | answer =>
      intro tail present _ walk check full
      have walkOk := (Option.all_eq_true _ _).mp ((Option.all_eq_true _ _).mp ok tail present) walk
        check
      exact absurd full (Nat.not_lt.mpr (of_decide_eq_true walkOk))
  | _ => trivial

/-- The second container logs after the first. -/
theorem delivers_two_containers : ∃ (state : LogTailWeeks) (tail : TailState),
    state.tail = some tail ∧
    tail.appends.map (fun append => append.items.map LogLine.ts) =
      [[1700000000010, 1700000000011], [1700000000011, 1700000000012]] ∧
    LogTail.DeliversInOrder shopConfig jsonBackend state.toLogTail tail := by
  have done : ((logTailWeeksMachine shopConfig jsonBackend .empty fun _ => none).run
      (inOrderOk shopConfig) (logTailWeeksMachine shopConfig jsonBackend .empty fun _ => none).start
      (twoFlushes (containerLine 1 1700000000010) (containerLine 1 1700000000011)
        (containerLine 2 1700000000011) (containerLine 2 1700000000012))).bind
      (fun state => state.tail.map fun tail =>
        tail.appends.map fun append => append.items.map LogLine.ts) =
      some [[1700000000010, 1700000000011], [1700000000011, 1700000000012]] := by decide +kernel
  obtain ⟨state, taken, found⟩ := Option.bind_eq_some_iff.mp done
  obtain ⟨tail, present, times⟩ := Option.map_eq_some_iff.mp found
  exact ⟨state, tail, present, times, delivers_in_order shopConfig jsonBackend .empty
    (fun _ => none) (Machine.Reachable.start.run (inOrder_of_ok shopConfig) taken) tail present⟩

/-- The lines of the second container are older than what the first has flushed. -/
theorem late_flush_below_cursor :
    ¬ ∀ (config : BufferConfig) (backend : LogBackend) (logs : SqliteLogStore)
        (metadata : ContainerId → Option LogCheckpoint) (state : LogTailWeeks),
        (logTailWeeksMachine config backend logs metadata).Reachable (Promised config backend)
          state → ∀ tail ∈ state.tail,
            LogTail.DeliversInOrder config backend state.toLogTail tail := by
  intro always
  have done : ((logTailWeeksMachine shopConfig jsonBackend .empty fun _ => none).run
      promisedOk (logTailWeeksMachine shopConfig jsonBackend .empty fun _ => none).start
      (twoFlushes (containerLine 1 1700000000010) (containerLine 1 1700000000011)
        (containerLine 2 1700000000005) (containerLine 2 1700000000006))).bind
      (fun state => state.tail.map fun tail =>
        (tail.issued.map fun cursor => (cursor.1, cursor.2.map StoredLog.ts),
          (state.buffer.logs.matching jsonBackend "shop" tail.filter).map fun row =>
            (row.ts, row.id))) =
      some ([(encodeOptional jsonBackend ⟨1700000000011, "2023_w46.db", 2⟩,
          [1700000000010, 1700000000011])],
        [(1700000000005, 3), (1700000000006, 4), (1700000000010, 1), (1700000000011, 2)]) := by
    decide +kernel
  obtain ⟨state, taken, found⟩ := Option.bind_eq_some_iff.mp done
  obtain ⟨tail, present, shape⟩ := Option.map_eq_some_iff.mp found
  obtain ⟨issued, rows⟩ := Prod.mk.inj shape
  have order := always shopConfig jsonBackend .empty (fun _ => none) state
    (Machine.Reachable.start.run (promised_of_ok shopConfig) taken) tail present
  obtain ⟨cursor, member, shown⟩ := List.mem_map.mp (issued ▸ List.mem_cons_self)
  obtain ⟨row, rowMember, place⟩ := List.mem_map.mp (rows ▸ List.mem_cons_self)
  obtain ⟨token, seen⟩ := Prod.mk.inj shown
  obtain ⟨ts, _⟩ := Prod.mk.inj place
  rcases order.issued cursor.1 cursor.2 member row rowMember with old | ahead
  · have among := List.mem_map_of_mem (f := StoredLog.ts) old
    rw [seen, ts] at among
    revert among
    decide
  · have named : weekDatabaseName 1700000000000 = some "2023_w46.db" := by decide
    obtain ⟨text, encoded, decoded⟩ :=
      @decodeJsonCursor_encode ⟨1700000000011, "2023_w46.db", 2⟩ ⟨1700000000000, named⟩
    have given : cursor.1 = some text := token.trans (congrArg Except.toOption encoded)
    rw [given, LogTail.aheadOf_iff decoded] at ahead
    have later : (1700000000011 : Int) ≤ row.ts := (Prod.Lex.toLex_le_toLex'.mp ahead.le).1
    rw [ts] at later
    revert later
    decide

end LogTailWeeks

end Vpsiner.Api
