import Vpsiner.Logs.Paging

/-! One query against its specification over the flat list of the matching lines. -/

set_option autoImplicit false

namespace Vpsiner.Logs

open Vpsiner.Lib Vpsiner.Lib.Paging

/-- Where a request asks for its page: at the newest lines, or next to a line whose cursor
an earlier page handed out. -/
inductive Anchor where
  | newest
  | before (row : StoredLog)
  | after (row : StoredLog)

namespace Anchor

/-- The cursors of the request. The line of a cursor matches the filter of the request and is still
stored: nothing was deleted since the page that handed the cursor out. -/
def Requested (backend : LogBackend) (store : SqliteLogStore) (service : String)
    (filter : LogFilter) : Anchor → Prop
  | newest => filter.before = none ∧ filter.after = none
  | before row => row ∈ store.matching backend service filter ∧ filter.after = none ∧
      ∃ text, filter.before = some text ∧ backend.encodeCursor (cursorOf row) = .ok text
  | after row => row ∈ store.matching backend service filter ∧ filter.before = none ∧
      ∃ text, filter.after = some text ∧ backend.encodeCursor (cursorOf row) = .ok text

/-- The lines the page should hold, cut from the ascending list of the matching ones. -/
def page (limit : Nat) (matching : List StoredLog) : Anchor → List StoredLog
  | newest => matching.rtake limit
  | before row => (matching.filter fun entry => entry.position < row.position).rtake limit
  | after row => (matching.filter fun entry => row.position < entry.position).take limit

end Anchor

/-- What the client learns from a page that should hold the given rows. -/
structure FlatAnswer (backend : LogBackend) (filter : LogFilter) (matching rows : List StoredLog)
    (page : LogPage) : Prop where
  ascending : Ascending StoredLog.position rows
  items : page.items = rows.map StoredLog.line
  older : ∀ first, rows.head? = some first →
    (∃ text, page.olderCursor = some text ∧ backend.decodeCursor text = .ok (cursorOf first)) ∧
      (page.hasOlder = true ↔ ∃ row ∈ matching, row.position < first.position)
  newer : ∀ last, rows.getLast? = some last →
    (∃ text, page.newerCursor = some text ∧ backend.decodeCursor text = .ok (cursorOf last)) ∧
      (page.hasNewer = true ↔ ∃ row ∈ matching, last.position < row.position)
  empty : rows = [] → page = {
    items := [], olderCursor := none, newerCursor := filter.after, hasOlder := false,
    hasNewer := false }

section Spec

variable {backend : LogBackend} {store : SqliteLogStore} {service : String} {filter : LogFilter}

private theorem pageOf_hasNewer {limit : Nat} {scanned : List StoredLog}
    (nonempty : scanned.take limit ≠ []) :
    (pageOf backend filter .backward limit scanned).hasNewer = filter.before.isSome := by
  have reversed : (scanned.take limit).reverse ≠ [] := mt List.reverse_eq_nil_iff.mp nonempty
  simp only [pageOf, List.head?_eq_some_head reversed, List.getLast?_eq_some_getLast reversed]

private theorem pageOf_hasOlder {limit : Nat} {scanned : List StoredLog}
    (nonempty : scanned.take limit ≠ []) :
    (pageOf backend filter .forward limit scanned).hasOlder = filter.after.isSome := by
  simp only [pageOf, List.head?_eq_some_head nonempty, List.getLast?_eq_some_getLast nonempty]

/-- The bound of a request only leaves rows out that are past it. -/
private theorem exists_below_iff {rows : List StoredLog} {bound : Option (Int ×ₗ Int)}
    {first : StoredLog} (inside : first ∈ below StoredLog.position bound rows) :
    (∃ row ∈ below StoredLog.position bound rows, row.position < first.position) ↔
      ∃ row ∈ rows, row.position < first.position := by
  constructor
  · intro found
    obtain ⟨row, member, before⟩ := found
    exact ⟨row, (mem_below.mp member).1, before⟩
  · intro found
    obtain ⟨row, member, before⟩ := found
    exact ⟨row, mem_below.mpr ⟨member, fun limit given =>
      before.trans ((mem_below.mp inside).2 limit given)⟩, before⟩

private theorem exists_above_iff {rows : List StoredLog} {bound : Int ×ₗ Int} {last : StoredLog}
    (inside : last ∈ above StoredLog.position bound rows) :
    (∃ row ∈ above StoredLog.position bound rows, last.position < row.position) ↔
      ∃ row ∈ rows, last.position < row.position := by
  constructor
  · intro found
    obtain ⟨row, member, after⟩ := found
    exact ⟨row, (mem_above.mp member).1, after⟩
  · intro found
    obtain ⟨row, member, after⟩ := found
    exact ⟨row, mem_above.mpr ⟨member, (mem_above.mp inside).2.trans after⟩, after⟩

/-- The newest row of a page is below the anchor, or the newest of all. -/
private theorem exists_newer_iff {matching : List StoredLog} {limit : Nat}
    (ascending : Ascending StoredLog.position matching) {bound : Option StoredLog}
    (present : ∀ row ∈ bound, row ∈ matching) {last : StoredLog}
    (newest : ((below StoredLog.position (bound.map StoredLog.position) matching).rtake
      limit).getLast? = some last) :
    bound.isSome = true ↔ ∃ row ∈ matching, last.position < row.position := by
  cases bound with
  | none =>
      refine iff_of_false nofun fun later => ?_
      obtain ⟨row, member, after⟩ := later
      have all : below StoredLog.position none matching = matching :=
        List.filter_eq_self.mpr fun _ _ => rfl
      rw [Option.map_none, all, List.rtake, List.getLast?_drop] at newest
      split at newest
      · cases newest
      · exact absurd after (not_lt.mpr (ascending.le_getLast? newest member))
  | some anchor =>
      refine iff_of_true rfl ⟨anchor, present anchor rfl, ?_⟩
      have inside := (List.drop_sublist _ _).mem (List.mem_of_getLast? newest)
      exact (mem_below.mp inside).2 _ rfl

private theorem mem_entries_of_matching {row : StoredLog}
    (present : row ∈ store.matching backend service filter) : row ∈ store.entries service :=
  (mem_matching.mp present).1

private theorem decodeCursor_of_encode {row : StoredLog} (present : row ∈ store.entries service)
    {text : String} (encoded : backend.encodeCursor (cursorOf row) = .ok text) :
    backend.decodeCursor text = .ok (cursorOf row) := by
  obtain ⟨other, same, decoded⟩ := encodeOptional_cursorOf backend present
  rw [encodeOptional, encoded] at same
  cases same
  exact decoded

private theorem scanned_take_eq_nil {rows : List StoredLog} {limit : Nat} :
    rows.rtake limit = [] ↔ (rows.reverse.take (limit + 1)).take limit = [] := by
  rw [List.take_take, Nat.min_eq_left (Nat.le_succ limit), List.rtake_eq_reverse_take_reverse,
    List.reverse_eq_nil_iff]

/-- A page without an `after` cursor; the bound is the row of the `before` cursor. -/
private theorem backward_answer (fit : BoundsFit filter) (noAfter : filter.after = none)
    {bound : Option StoredLog}
    (present : ∀ row ∈ bound, row ∈ store.matching backend service filter)
    (decoded : decodeOptional backend filter.before = .ok (bound.map cursorOf))
    (given : filter.before.isSome = bound.isSome) :
    ∃ page, store.query backend service filter = .ok page ∧
      FlatAnswer backend filter (store.matching backend service filter)
        ((below StoredLog.position (bound.map StoredLog.position)
          (store.matching backend service filter)).rtake (pageLimit filter)) page := by
  have genuine : ∀ cursor ∈ bound.map cursorOf, GenuineCursor cursor := by
    intro cursor member
    obtain ⟨row, here, rfl⟩ := Option.mem_map.mp member
    exact genuine_cursorOf (mem_entries_of_matching (present row here))
  have positions : (bound.map cursorOf).map cursorPosition = bound.map StoredLog.position :=
    Option.map_map ..
  have ascending := matching_ascending backend store service filter
  have computed : store.query backend service filter = _ :=
    query_backward_eq fit noAfter decoded genuine
  obtain ⟨page, answered, answers, older⟩ :=
    @query_older backend store service filter fit noAfter _ decoded genuine
  rw [positions, answered, Except.ok.injEq] at computed
  rw [positions] at answers older
  have part := ascending.below (bound.map StoredLog.position)
  refine ⟨page, answered, part.rtake, answers.items, ?_, ?_, ?_⟩
  · intro first oldest
    have inside := (List.drop_sublist _ _).mem (List.mem_of_head? oldest)
    obtain ⟨text, encoded, restored⟩ := encodeOptional_cursorOf backend
      (mem_entries_of_matching (mem_below.mp inside).1)
    refine ⟨⟨text, ?_, restored⟩, ?_⟩
    · rw [answers.older, oldest, Option.bind_some, encoded]
    · rw [older, ← part.exists_lt_iff oldest, exists_below_iff inside]
  · intro last newest
    have inside := (List.drop_sublist _ _).mem (List.mem_of_getLast? newest)
    obtain ⟨text, encoded, restored⟩ := encodeOptional_cursorOf backend
      (mem_entries_of_matching (mem_below.mp inside).1)
    refine ⟨⟨text, ?_, restored⟩, ?_⟩
    · rw [answers.newer last newest, encoded]
    · rw [computed, pageOf_hasNewer, given, exists_newer_iff ascending present newest]
      rw [Ne, ← scanned_take_eq_nil]
      exact List.ne_nil_of_mem (List.mem_of_getLast? newest)
  · intro nothing
    rw [computed, pageOf_empty (scanned_take_eq_nil.mp nothing)]
    rfl

/-- A page with an `after` cursor, which is that of a stored row. -/
private theorem forward_answer (fit : BoundsFit filter) (noBefore : filter.before = none)
    {row : StoredLog} (present : row ∈ store.matching backend service filter) {text : String}
    (given : filter.after = some text) (encoded : backend.encodeCursor (cursorOf row) = .ok text) :
    ∃ page, store.query backend service filter = .ok page ∧
      FlatAnswer backend filter (store.matching backend service filter)
        ((above StoredLog.position row.position
          (store.matching backend service filter)).take (pageLimit filter)) page := by
  have stored := mem_entries_of_matching present
  have decoded := decodeCursor_of_encode stored encoded
  have genuine := genuine_cursorOf stored
  have ascending := matching_ascending backend store service filter
  obtain ⟨dir, found⟩ : ∃ dir, store.serviceDir? service = some dir := by
    cases found : store.serviceDir? service with
    | none =>
        rw [SqliteLogStore.entries, found] at stored
        cases stored
    | some dir => exact ⟨dir, rfl⟩
  have computed := query_forward_eq fit noBefore given decoded genuine found
  obtain ⟨page, answered, answers, newer⟩ :=
    @query_newer backend store service filter fit _ _ noBefore given decoded genuine
  have position : cursorPosition (cursorOf row) = row.position := rfl
  rw [position, answered, Except.ok.injEq] at computed
  rw [position] at answers newer
  have part := ascending.above row.position
  refine ⟨page, answered, part.sublist (List.take_sublist _ _), answers.items, ?_, ?_, ?_⟩
  · intro first oldest
    have inside := (List.take_sublist _ _).mem (List.mem_of_head? oldest)
    obtain ⟨text, shown, restored⟩ := encodeOptional_cursorOf backend
      (mem_entries_of_matching (mem_above.mp inside).1)
    refine ⟨⟨text, ?_, restored⟩, ?_⟩
    · rw [answers.older, oldest, Option.bind_some, shown]
    · have nonempty : ((above StoredLog.position row.position
          (store.matching backend service filter)).take (pageLimit filter + 1)).take
            (pageLimit filter) ≠ [] := by
        rw [List.take_take, Nat.min_eq_left (Nat.le_succ _)]
        exact List.ne_nil_of_mem (List.mem_of_head? oldest)
      rw [computed]
      have shown := @pageOf_hasOlder backend filter _ _ nonempty
      refine iff_of_true (shown.trans ?_) ⟨row, present, (mem_above.mp inside).2⟩
      rw [given, Option.isSome_some]
  · intro last newest
    have inside := (List.take_sublist _ _).mem (List.mem_of_getLast? newest)
    obtain ⟨text, shown, restored⟩ := encodeOptional_cursorOf backend
      (mem_entries_of_matching (mem_above.mp inside).1)
    refine ⟨⟨text, ?_, restored⟩, ?_⟩
    · rw [answers.newer last newest, shown]
    · rw [newer, ← exists_above_iff inside]
      exact (part.exists_gt_iff newest).symm
  · intro nothing
    rw [computed, pageOf_empty]
    · rfl
    · rw [List.take_take, Nat.min_eq_left (Nat.le_succ _)]
      exact nothing

end Spec

/-- A query answers as the flat list of the matching lines prescribes, whatever the weeks
they are spread over. -/
theorem query_meets_spec (backend : LogBackend) (store : SqliteLogStore) (service : String)
    (filter : LogFilter) (fit : BoundsFit filter) (anchor : Anchor)
    (requested : anchor.Requested backend store service filter) :
    ∃ page, store.query backend service filter = .ok page ∧
      FlatAnswer backend filter (store.matching backend service filter)
        (anchor.page (pageLimit filter) (store.matching backend service filter)) page := by
  cases anchor with
  | newest =>
      obtain ⟨noBefore, noAfter⟩ := requested
      have all : below StoredLog.position none (store.matching backend service filter) =
          store.matching backend service filter := List.filter_eq_self.mpr fun _ _ => rfl
      have unbounded : ∀ row ∈ (none : Option StoredLog),
          row ∈ store.matching backend service filter := fun _ absent => nomatch absent
      have decoded : decodeOptional backend filter.before =
          .ok ((none : Option StoredLog).map cursorOf) := by
        rw [noBefore]
        rfl
      obtain ⟨page, answered, answer⟩ := backward_answer fit noAfter unbounded decoded
        (by rw [noBefore]; rfl)
      rw [Option.map_none, all] at answer
      exact ⟨page, answered, answer⟩
  | before row =>
      obtain ⟨present, noAfter, text, given, encoded⟩ := requested
      have only : ∀ bound ∈ some row, bound ∈ store.matching backend service filter := by
        intro bound same
        cases same
        exact present
      have decoded : decodeOptional backend filter.before = .ok ((some row).map cursorOf) := by
        rw [given, decodeOptional,
          decodeCursor_of_encode (mem_entries_of_matching present) encoded]
        rfl
      exact backward_answer fit noAfter only decoded (by rw [given]; rfl)
  | after row =>
      obtain ⟨present, noBefore, text, given, encoded⟩ := requested
      exact forward_answer fit noBefore present given encoded

def pagedNewest : StoredLog :=
  ⟨1700000000000, "2023_w46.db", 2, pagedLine 1700000000000 "c"⟩

theorem query_meets_spec_before :
    ∃ text page, jsonBackend.encodeCursor (cursorOf pagedNewest) = .ok text ∧
      pagedStore.query jsonBackend "shop" { pagedFilter with before := some text } = .ok page ∧
        page.items = [pagedLine 1700000000000 "b"] ∧
        (page.hasOlder = true ↔ ∃ row ∈ pagedStore.matching jsonBackend "shop" pagedFilter,
          row.position < toLex (1700000000000, 1)) := by
  have fit : BoundsFit pagedFilter := by
    apply boundsFit_of_small
    intro bound given
    cases given with
    | inl lower =>
        cases lower
        decide
    | inr upper => cases upper
  obtain ⟨text, encoded⟩ : ∃ text, jsonBackend.encodeCursor (cursorOf pagedNewest) = .ok text :=
    ⟨_, rfl⟩
  have stored : pagedNewest ∈ pagedStore.matching jsonBackend "shop" pagedFilter := by decide
  obtain ⟨page, answered, answer⟩ := query_meets_spec jsonBackend pagedStore "shop"
    { pagedFilter with before := some text } fit (.before pagedNewest)
    ⟨stored, rfl, text, rfl, encoded⟩
  have held : Anchor.page (pageLimit { pagedFilter with before := some text })
      (pagedStore.matching jsonBackend "shop" { pagedFilter with before := some text })
      (.before pagedNewest) =
      [⟨1700000000000, "2023_w46.db", 1, pagedLine 1700000000000 "b"⟩] := by
    change Anchor.page 1 (pagedStore.matching jsonBackend "shop" pagedFilter) _ = _
    decide
  rw [held] at answer
  exact ⟨text, page, encoded, answered, answer.items, (answer.older _ rfl).2⟩

end Vpsiner.Logs
