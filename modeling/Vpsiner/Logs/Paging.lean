import Vpsiner.Logs.AppendProperties
import Vpsiner.Logs.CursorCodec

/-! Paging through the log of a service by following the cursors of its pages. -/

set_option autoImplicit false

namespace Vpsiner.Logs

open Vpsiner.Lib Vpsiner.Lib.Paging

structure AppendCall where
  service : String
  lines : List LogLine
  fates : AppendFates

def appendAll (store : SqliteLogStore) (calls : List AppendCall) : SqliteLogStore :=
  calls.foldl (fun store call => (store.append call.fates call.service call.lines).1) store

/-- Requests pages with `before` while there are older lines, newest page first; the
schedule lists what is appended after each request. -/
def followOlder (backend : LogBackend) (service : String) (filter : LogFilter) :
    Nat → SqliteLogStore → List (List AppendCall) → Option String → Option (List LogPage)
  | 0, _, _, _ => none
  | fuel + 1, store, schedule, before =>
      match store.query backend service { filter with before, after := none } with
      | .error _ => none
      | .ok page =>
          if page.hasOlder then
            (followOlder backend service filter fuel (appendAll store (schedule.headD []))
              schedule.tail page.olderCursor).map (page :: ·)
          else some [page]

/-- Requests pages with `after` while there are newer lines, oldest page first. -/
def followNewer (backend : LogBackend) (store : SqliteLogStore) (service : String)
    (filter : LogFilter) : Nat → Option String → Option (List LogPage)
  | 0, _ => none
  | fuel + 1, after =>
      match store.query backend service { filter with before := none, after } with
      | .error _ => none
      | .ok page =>
          if page.hasNewer then
            (followNewer backend store service filter fuel page.newerCursor).map (page :: ·)
          else some [page]

section Follow

variable {backend : LogBackend} {store : SqliteLogStore} {service : String} {filter : LogFilter}

theorem genuine_cursorOf {entry : StoredLog} (member : entry ∈ store.entries service) :
    GenuineCursor (cursorOf entry) := by
  rw [SqliteLogStore.entries] at member
  cases found : store.serviceDir? service with
  | none =>
      rw [found] at member
      cases member
  | some dir =>
      rw [found] at member
      obtain ⟨db, _, present⟩ := List.mem_flatMap.mp member
      obtain ⟨week, start, _⟩ := WeekDb.of_mem_entries present
      refine ⟨?_, by rw [cursorOf, week, start, db.databaseWeekStartMs_name]⟩
      rw [cursorOf, week]
      exact db.named

/-- The cursor of a stored line comes back as it was. -/
theorem encodeOptional_cursorOf (backend : LogBackend) {entry : StoredLog}
    (member : entry ∈ store.entries service) :
    ∃ text, encodeOptional backend (cursorOf entry) = some text ∧
      backend.decodeCursor text = .ok (cursorOf entry) := by
  obtain ⟨text, encoded, decoded⟩ :=
    backend.cursor_roundTrip (cursorOf entry) (genuine_cursorOf member).named
  exact ⟨text, by rw [encodeOptional, encoded]; rfl, decoded⟩

theorem appendAll_subset (calls : List AppendCall) {entry : StoredLog} {store : SqliteLogStore}
    (member : entry ∈ store.entries service) : entry ∈ (appendAll store calls).entries service := by
  induction calls generalizing store with
  | nil => exact member
  | cons call rest ih => exact ih (append_subset store call.fates call.service service _ member)

theorem matching_appendAll (calls : List AppendCall) {entry : StoredLog} {store : SqliteLogStore}
    (member : entry ∈ store.matching backend service filter) :
    entry ∈ (appendAll store calls).matching backend service filter := by
  obtain ⟨present, accepted⟩ := mem_matching.mp member
  exact mem_matching.mpr ⟨appendAll_subset calls present, accepted⟩

/-- The first row of a page is one of the rows that the next request leaves behind. -/
private theorem length_below_lt {rows : List StoredLog} {bound : Option (Int ×ₗ Int)}
    {first : StoredLog} (member : first ∈ below StoredLog.position bound rows) :
    (below StoredLog.position (some first.position) rows).length <
      (below StoredLog.position bound rows).length := by
  have fewer : below StoredLog.position (some first.position) rows =
      (below StoredLog.position bound rows).filter fun row => row.position < first.position := by
    rw [below, below, List.filter_filter]
    refine List.filter_congr fun row _ => ?_
    rw [Bool.eq_iff_iff, Bool.and_eq_true, Option.all_some, decide_eq_true_eq, Option.all_eq_true]
    have inside := (mem_below.mp member).2
    refine ⟨fun before => ⟨before, fun limit present => ?_⟩, And.left⟩
    exact decide_eq_true (before.trans (inside limit present))
  rw [fewer]
  refine lt_of_le_of_ne (List.length_filter_le _ _) fun same => ?_
  have all := List.length_filter_eq_length_iff.mp same first member
  exact lt_irrefl _ (of_decide_eq_true all)

private theorem rtake_of_length_le {α : Type} {rows : List α} {limit : Nat}
    (short : rows.length ≤ limit) : rows.rtake limit = rows := by
  rw [List.rtake, Nat.sub_eq_zero_of_le short, List.drop_zero]

private theorem exists_head?_rtake {α : Type} {rows : List α} {limit : Nat} (positive : 1 ≤ limit)
    (more : limit < rows.length) : ∃ first, (rows.rtake limit).head? = some first := by
  cases page : rows.rtake limit with
  | cons first rest => exact ⟨first, rfl⟩
  | nil =>
      have length := congrArg List.length page
      rw [List.rtake, List.length_drop, List.length_nil] at length
      omega

private theorem exists_getLast?_take {α : Type} {rows : List α} {limit : Nat}
    (positive : 1 ≤ limit) (more : limit < rows.length) :
    ∃ last, (rows.take limit).getLast? = some last := by
  have nonempty : rows.take limit ≠ [] := by
    intro page
    have length := congrArg List.length page
    rw [List.length_take, List.length_nil] at length
    omega
  exact ⟨_, List.getLast?_eq_some_getLast nonempty⟩

private theorem appendAll_headD (store : SqliteLogStore) (schedule : List (List AppendCall)) :
    appendAll (appendAll store (schedule.headD [])) schedule.tail.flatten =
      appendAll store schedule.flatten := by
  cases schedule with
  | nil => rfl
  | cons calls rest => exact (List.foldl_append ..).symm

/-- The requests toward older lines are a walk over what the store held at each of them. -/
theorem followOlder_walk (fit : BoundsFit filter) (fuel : Nat) {store : SqliteLogStore}
    (schedule : List (List AppendCall)) {before : Option String} {cursor : Option LogCursor}
    (decoded : decodeOptional backend before = .ok cursor)
    (genuine : ∀ bound ∈ cursor, GenuineCursor bound)
    (enough : (below StoredLog.position (cursor.map cursorPosition)
      ((appendAll store schedule.flatten).matching backend service filter)).length < fuel) :
    ∃ pages views rows, followOlder backend service filter fuel store schedule before = some pages ∧
      OlderWalk StoredLog.position (pageLimit filter) (cursor.map cursorPosition) views rows ∧
      pages.reverse.flatMap LogPage.items = rows.map StoredLog.line ∧
      ∀ view ∈ views, Ascending StoredLog.position view ∧
        (∀ entry ∈ store.matching backend service filter, entry ∈ view) ∧
        ∀ entry ∈ view, entry ∈ (appendAll store schedule.flatten).matching backend service filter := by
  induction fuel generalizing store schedule before cursor with
  | zero => exact absurd enough (Nat.not_lt_zero _)
  | succ fuel ih =>
      have fitted : BoundsFit { filter with before, after := none } := fit
      obtain ⟨page, answered, answers, older⟩ : ∃ page,
          store.query backend service { filter with before, after := none } = .ok page ∧
          Answers backend ((below StoredLog.position (cursor.map cursorPosition)
            (store.matching backend service filter)).rtake (pageLimit filter)) page ∧
          (page.hasOlder = true ↔ pageLimit filter < (below StoredLog.position
            (cursor.map cursorPosition) (store.matching backend service filter)).length) :=
        query_older fitted rfl decoded genuine
      have ascending := matching_ascending backend store service filter
      by_cases more : page.hasOlder = true
      · obtain ⟨first, oldest⟩ := exists_head?_rtake (one_le_pageLimit filter) (older.mp more)
        have member := (List.drop_sublist _ _).mem (List.mem_of_head? oldest)
        obtain ⟨present, inside⟩ := mem_below.mp member
        obtain ⟨text, encoded, decodedFirst⟩ :=
          encodeOptional_cursorOf backend (mem_matching.mp present).1
        have next : page.olderCursor = some text := by
          rw [answers.older, oldest, Option.bind_some, encoded]
        have fewer := length_below_lt (mem_below.mpr
          ⟨matching_appendAll schedule.flatten present, inside⟩)
        have last := appendAll_headD store schedule
        have decodedNext : decodeOptional backend (some text) = .ok (some (cursorOf first)) := by
          rw [decodeOptional, decodedFirst]
        have genuineNext : ∀ bound ∈ some (cursorOf first), GenuineCursor bound := by
          intro bound same
          cases same
          exact genuine_cursorOf (mem_matching.mp present).1
        have enoughNext : (below StoredLog.position (some (cursorPosition (cursorOf first)))
            ((appendAll (appendAll store (schedule.headD [])) schedule.tail.flatten).matching
              backend service filter)).length < fuel := by
          rw [last]
          exact Nat.lt_of_lt_of_le fewer (Nat.lt_succ_iff.mp enough)
        obtain ⟨pages, views, rows, followed, walk, items, seen⟩ :=
          ih schedule.tail decodedNext genuineNext enoughNext
        refine ⟨page :: pages, store.matching backend service filter :: views, _, ?_,
          .more oldest walk, ?_, ?_⟩
        · simp only [followOlder, answered, more, if_true, next, followed, Option.map_some]
        · rw [List.reverse_cons, List.flatMap_append, items, List.flatMap_singleton, answers.items,
            List.map_append]
        · intro view viewMember
          cases List.mem_cons.mp viewMember with
          | inl same =>
              subst same
              exact ⟨ascending, fun _ => id, fun _ => matching_appendAll schedule.flatten⟩
          | inr later =>
              obtain ⟨ordered, kept, sound⟩ := seen view later
              rw [last] at sound
              exact ⟨ordered, fun entry here => kept entry (matching_appendAll _ here), sound⟩
      · have complete := Nat.le_of_not_lt (mt older.mpr more)
        refine ⟨[page], [store.matching backend service filter], _, ?_, .last complete, ?_, ?_⟩
        · simp only [followOlder, answered, if_neg more]
        · rw [List.reverse_singleton, List.flatMap_singleton, answers.items,
            rtake_of_length_le complete]
        · intro view viewMember
          rw [List.mem_singleton.mp viewMember]
          exact ⟨ascending, fun _ => id, fun _ => matching_appendAll schedule.flatten⟩

private theorem length_above_lt {rows : List StoredLog} {bound : Int ×ₗ Int} {last : StoredLog}
    (member : last ∈ above StoredLog.position bound rows) :
    (above StoredLog.position last.position rows).length <
      (above StoredLog.position bound rows).length := by
  have fewer : above StoredLog.position last.position rows =
      (above StoredLog.position bound rows).filter fun row => last.position < row.position := by
    rw [above, above, List.filter_filter]
    refine List.filter_congr fun row _ => ?_
    rw [Bool.eq_iff_iff, Bool.and_eq_true, decide_eq_true_eq, decide_eq_true_eq]
    exact ⟨fun after => ⟨after, (mem_above.mp member).2.trans after⟩, And.left⟩
  rw [fewer]
  refine lt_of_le_of_ne (List.length_filter_le _ _) fun same => ?_
  have all := List.length_filter_eq_length_iff.mp same last member
  exact lt_irrefl _ (of_decide_eq_true all)

/-- The requests toward newer lines are a walk over what the store holds. -/
theorem followNewer_walk (fit : BoundsFit filter) (fuel : Nat) {after : String}
    {cursor : LogCursor} (decoded : backend.decodeCursor after = .ok cursor)
    (genuine : GenuineCursor cursor)
    (enough : (above StoredLog.position (cursorPosition cursor)
      (store.matching backend service filter)).length < fuel) :
    ∃ pages rows, followNewer backend store service filter fuel (some after) = some pages ∧
      NewerWalk StoredLog.position (pageLimit filter) (store.matching backend service filter)
        (cursorPosition cursor) rows ∧
      pages.flatMap LogPage.items = rows.map StoredLog.line := by
  induction fuel generalizing after cursor with
  | zero => exact absurd enough (Nat.not_lt_zero _)
  | succ fuel ih =>
      have fitted : BoundsFit { filter with before := none, after := some after } := fit
      obtain ⟨page, answered, answers, newer⟩ : ∃ page,
          store.query backend service { filter with before := none, after := some after } =
            .ok page ∧
          Answers backend ((above StoredLog.position (cursorPosition cursor)
            (store.matching backend service filter)).take (pageLimit filter)) page ∧
          (page.hasNewer = true ↔ pageLimit filter < (above StoredLog.position
            (cursorPosition cursor) (store.matching backend service filter)).length) :=
        query_newer fitted rfl rfl decoded genuine
      by_cases more : page.hasNewer = true
      · obtain ⟨last, newest⟩ := exists_getLast?_take (one_le_pageLimit filter) (newer.mp more)
        have member := (List.take_sublist _ _).mem (List.mem_of_getLast? newest)
        have present := (mem_matching.mp (mem_above.mp member).1).1
        obtain ⟨text, encoded, decodedLast⟩ := encodeOptional_cursorOf backend present
        have next : page.newerCursor = some text := by
          rw [answers.newer last newest, encoded]
        obtain ⟨pages, rows, followed, walk, items⟩ := ih decodedLast (genuine_cursorOf present)
          (Nat.lt_of_lt_of_le (length_above_lt member) (Nat.lt_succ_iff.mp enough))
        refine ⟨page :: pages, _, ?_, .more newest walk, ?_⟩
        · simp only [followNewer, answered, more, if_true, next, followed, Option.map_some]
        · rw [List.flatMap_cons, items, answers.items, List.map_append]
      · have complete := Nat.le_of_not_lt (mt newer.mpr more)
        refine ⟨[page], _, ?_, .last complete, ?_⟩
        · simp only [followNewer, answered, if_neg more]
        · rw [List.flatMap_singleton, answers.items, List.take_of_length_le complete]

end Follow

/-- Following the cursors in either direction enumerates the matching lines: toward older
ones all that were there at the first request, each once and in order, whatever is
appended in between; toward newer ones all above the cursor. -/
theorem paging_enumerates_matching (backend : LogBackend) (store : SqliteLogStore)
    (service : String) (filter : LogFilter) (fit : BoundsFit filter) :
    (∀ schedule : List (List AppendCall), ∃ fuel pages rows,
      followOlder backend service filter fuel store schedule none = some pages ∧
        pages.reverse.flatMap LogPage.items = rows.map StoredLog.line ∧
        Ascending StoredLog.position rows ∧
        rows.filter (· ∈ store.matching backend service filter) =
          store.matching backend service filter ∧
        ∀ row ∈ rows,
          row ∈ (appendAll store schedule.flatten).matching backend service filter) ∧
      ∀ start ∈ store.matching backend service filter, ∀ text,
        backend.encodeCursor (cursorOf start) = .ok text → ∃ fuel pages,
          followNewer backend store service filter fuel (some text) = some pages ∧
            pages.flatMap LogPage.items =
              ((store.matching backend service filter).filter fun row =>
                start.position < row.position).map StoredLog.line := by
  constructor
  · intro schedule
    have unpaginated : decodeOptional backend none = .ok none := rfl
    obtain ⟨pages, views, rows, followed, walk, items, seen⟩ :=
      followOlder_walk fit _ schedule unpaginated (fun _ absent => nomatch absent)
        (Nat.lt_succ_self _)
    have ordered := walk.ascending fun view member => (seen view member).1
    refine ⟨_, pages, rows, followed, items, ordered, ?_, ?_⟩
    · refine Ascending.eq_of_mem_iff (ordered.filter _) (matching_ascending ..) fun row => ?_
      rw [List.mem_filter, decide_eq_true_eq]
      refine ⟨And.right, fun member => ⟨?_, member⟩⟩
      exact walk.complete (fun view here => (seen view here).1)
        (fun view here => (seen view here).2.1 row member) nofun
    · intro row member
      obtain ⟨view, here, present⟩ := walk.sound member
      exact (seen view here).2.2 row present
  · intro start member text encoded
    have present := (mem_matching.mp member).1
    obtain ⟨other, same, decoded⟩ := encodeOptional_cursorOf backend present
    rw [encodeOptional, encoded] at same
    cases same
    obtain ⟨pages, rows, followed, walk, items⟩ :=
      followNewer_walk fit _ decoded (genuine_cursorOf present) (Nat.lt_succ_self _)
    refine ⟨_, pages, followed, ?_⟩
    rw [items, walk.collected_eq (matching_ascending ..)]
    rfl

/-- Bounds up to a few millennia from the ends of `i64` fit. -/
theorem boundsFit_of_small {filter : LogFilter}
    (small : ∀ bound, bound ∈ filter.fromMs ∨ bound ∈ filter.toMs →
      -9000000000000000000 ≤ bound ∧ bound ≤ 9000000000000000000) : BoundsFit filter := by
  intro bound given name start parsed
  have week := databaseWeekStartMs_bounds parsed
  have near := small bound given
  rw [i64Min, i64Max]
  omega

def pagedLine (ts : Int) (text : String) : LogLine :=
  ⟨ts, "shop", ⟨1⟩, .stdout, none, text⟩

/-- Two lines of one millisecond in the week after the first line. -/
def pagedStore : SqliteLogStore :=
  (SqliteLogStore.empty.append {} "shop" [
    pagedLine 1699395200000 "a", pagedLine 1700000000000 "b", pagedLine 1700000000000 "c"]).1

def pagedFilter : LogFilter := { fromMs := some 1699395200000, limit := some 1 }

theorem paging_two_weeks :
    ∃ (fuel : Nat) (pages : List LogPage) (rows : List StoredLog), followOlder jsonBackend "shop" pagedFilter fuel pagedStore [] none =
        some pages ∧ pages.reverse.flatMap LogPage.items = rows.map StoredLog.line ∧
      rows.filter (· ∈ pagedStore.matching jsonBackend "shop" pagedFilter) =
        pagedStore.matching jsonBackend "shop" pagedFilter ∧
      (pagedStore.matching jsonBackend "shop" pagedFilter).map (fun row => row.line.line) =
        ["a", "b", "c"] := by
  have fit : BoundsFit pagedFilter := by
    apply boundsFit_of_small
    intro bound given
    cases given with
    | inl lower =>
        cases lower
        decide
    | inr upper => cases upper
  obtain ⟨fuel, pages, rows, followed, items, _, complete, _⟩ :=
    (paging_enumerates_matching jsonBackend pagedStore "shop" pagedFilter fit).1 []
  exact ⟨fuel, pages, rows, followed, items, complete, by decide⟩

end Vpsiner.Logs
