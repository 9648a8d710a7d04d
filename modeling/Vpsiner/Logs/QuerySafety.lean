import Mathlib.Algebra.Ring.Nat
import Vpsiner.Logs.Paging
import Vpsiner.Logs.SearchText

/-! Which requests a log query survives: those whose service has a directory that can be listed,
and whose times, cursor week and search can be related to every week file that the scan visits. -/

set_option autoImplicit false

namespace Vpsiner.Logs

open Vpsiner.Lib

/-- The cursors are decoded before anything else; `after` decides the direction. -/
def requestedCursor (backend : LogBackend) (filter : LogFilter) :
    AppResult (Direction × Option LogCursor) := do
  let before ← decodeOptional backend filter.before
  let after ← decodeOptional backend filter.after
  return if after.isSome then (.forward, after) else (.backward, before)

/-- The error with which the root directory of the store is asked for a directory in it. A name
has at most 255 bytes, and `rootFiles` are the names of files there: the week files of a service
without a directory of its own, and what the database keeps beside them. -/
def readDirError (rootFiles : List String) (name : String) : Option String :=
  if FullText.nul ∈ name.toList then some "file name contained an unexpected NUL byte"
  else if 255 < name.utf8ByteSize then some "File name too long (os error 36)"
  else if name ∈ rootFiles then some "Not a directory (os error 20)"
  else none

/-- The index fails on an expression that it cannot read. -/
def searchError (search : Option String) : Option String :=
  (search.filter fun query => (FullText.parse query.toList).isNone).map fun _ =>
    "fts5: syntax error: unterminated string"

/-- A statement fails only after it was built. -/
def fetchRows (backend : LogBackend) (filter : LogFilter) (search : Option String)
    (cursor : Option LogCursor) (direction : Direction) (weekStart : Int) (db : WeekDb) :
    AppResult (List LogRow) := do
  let rows ← selectRows backend filter search cursor direction weekStart db
  match searchError search with
  | some detail => .error (storage detail)
  | none => return rows

def scanFetching (backend : LogBackend) (service : String) (filter : LogFilter)
    (search : Option String) (cursor : Option LogCursor) (direction : Direction)
    (target : Nat) : List WeekDb → List StoredLog → AppResult (List StoredLog)
  | [], page => .ok page
  | db :: rest, page =>
      if target ≤ page.length then .ok page
      else do
        let weekStart ← weekStartMs db.name
        let rows ← fetchRows backend filter search cursor direction weekStart db
        let fetched := (rows.take (target - page.length)).filterMap
          (decodeRow service db.name weekStart)
        scanFetching backend service filter search cursor direction target rest (page ++ fetched)

/-- `query` with the errors of the file system and of the index. -/
def SqliteLogStore.queryFetching (backend : LogBackend) (rootFiles : List String)
    (store : SqliteLogStore) (service : String) (filter : LogFilter) : AppResult LogPage := do
  let before ← decodeOptional backend filter.before
  let after ← decodeOptional backend filter.after
  let direction := if after.isSome then .forward else .backward
  let cursor := if after.isSome then after else before
  match readDirError rootFiles (safeServicePath service) with
  | some detail => .error (storage detail)
  | none =>
      match store.serviceDir? service with
      | none => return emptyPage none
      | some dir =>
          let search := filter.query.bind sanitizeFtsQuery
          let limit := pageLimit filter
          let candidates := orderedCandidates (readWeekFiles dir) filter cursor direction
          let scanned ← scanFetching backend service filter search cursor direction (limit + 1)
            candidates []
          return pageOf backend filter direction limit scanned

/-! ## Safe requests -/

/-- The directory of the service can be asked for. -/
structure Listable (rootFiles : List String) (service : String) : Prop where
  written : FullText.nul ∉ (safeServicePath service).toList
  short : (safeServicePath service).utf8ByteSize ≤ 255
  free : safeServicePath service ∉ rootFiles

section Safety

variable {backend : LogBackend} {rootFiles : List String} {store : SqliteLogStore}
  {service : String} {filter : LogFilter} {cursor : Option LogCursor} {direction : Direction}

theorem readDirError_eq_none_iff :
    readDirError rootFiles (safeServicePath service) = none ↔ Listable rootFiles service := by
  unfold readDirError
  constructor
  · intro none
    split at none
    · cases none
    · next written =>
        split at none
        · cases none
        · next short =>
            split at none
            · cases none
            · next free => exact ⟨written, Nat.le_of_not_lt short, free⟩
  · rintro ⟨written, short, free⟩
    rw [if_neg written, if_neg (Nat.not_lt.mpr short), if_neg free]

theorem searchError_eq_none_iff :
    searchError (filter.query.bind sanitizeFtsQuery) = none ↔
      ∀ text ∈ filter.query, FullText.nul ∉ text.toList := by
  cases given : filter.query with
  | none => simp [searchError]
  | some text =>
      simp only [Option.bind_some, Option.mem_def, Option.some.injEq, forall_eq', searchError,
        Option.map_eq_none_iff]
      cases sanitized : sanitizeFtsQuery text with
      | none =>
          refine iff_of_true (Option.filter_none _) fun ended => ?_
          obtain ⟨token, member, -⟩ := (nul_mem_searchTokens text).mpr ended
          rw [sanitizeFtsQuery_eq, if_neg (List.ne_nil_of_mem member)] at sanitized
          cases sanitized
      | some query =>
          rw [Option.filter_some, parse_sanitizeFtsQuery sanitized]
          by_cases ended : FullText.nul ∈ text.toList <;> simp [ended]

theorem query_eq (backend : LogBackend) (store : SqliteLogStore) (service : String)
    (filter : LogFilter) : store.query backend service filter =
    (requestedCursor backend filter >>= fun requested =>
      match store.serviceDir? service with
      | none => return emptyPage none
      | some dir => do
          let scanned ← scanWeeks backend service filter (filter.query.bind sanitizeFtsQuery)
            requested.2 requested.1 (pageLimit filter + 1)
            (orderedCandidates (readWeekFiles dir) filter requested.2 requested.1) []
          return pageOf backend filter requested.1 (pageLimit filter) scanned) := by
  rw [SqliteLogStore.query, requestedCursor]
  cases decodeOptional backend filter.before with
  | error fault => rfl
  | ok before =>
      cases decodeOptional backend filter.after with
      | error fault => rfl
      | ok after =>
          cases after with
          | none => rfl
          | some cursor => rfl

theorem scanFetching_eq_scanWeeks {search : Option String} (readable : searchError search = none)
    (target : Nat) (weeks : List WeekDb) (page : List StoredLog) :
    scanFetching backend service filter search cursor direction target weeks page =
      scanWeeks backend service filter search cursor direction target weeks page := by
  induction weeks generalizing page with
  | nil => rfl
  | cons db rest ih =>
      have fetched : ∀ weekStart, fetchRows backend filter search cursor direction weekStart db =
          selectRows backend filter search cursor direction weekStart db := by
        intro weekStart
        simp only [fetchRows, readable]
        exact bind_pure _
      simp only [scanFetching, scanWeeks, fetched, ih]

/-- Where neither the file system nor the index fails, a query is answered as the store has it. -/
theorem queryFetching_eq_query (listable : Listable rootFiles service)
    (readable : ∀ text ∈ filter.query, FullText.nul ∉ text.toList) :
    store.queryFetching backend rootFiles service filter = store.query backend service filter := by
  simp only [SqliteLogStore.queryFetching, readDirError_eq_none_iff.mpr listable,
    scanFetching_eq_scanWeeks (searchError_eq_none_iff.mpr readable)]
  rfl

end Safety

end Vpsiner.Logs
