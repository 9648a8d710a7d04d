import Mathlib.Algebra.Ring.Nat
import Mathlib.Data.List.DropRight
import Vpsiner.Frontend.ContainerText
import Vpsiner.Lib.Machine
import Vpsiner.Model.Logs

/-! The log pages of the browser, next to the requests and the live tail that are under way.
The filter does not change and has no upper time bound; cursors are positions in the log. -/

set_option autoImplicit false

namespace Vpsiner.Frontend

open Lib

def streamText : LogStream → String
  | .stdout => "stdout"
  | .stderr => "stderr"

def logLineKey (line : LogLine) : String :=
  toString line.ts ++ ":" ++ cidText line.cid ++ ":" ++ streamText line.stream ++ ":" ++ line.line

/-! ## The server -/

/-- The rows that match the filter. -/
structure ServerLog where
  rows : List LogLine
  distinct : (rows.map logLineKey).Nodup
  ordered : rows.Pairwise fun earlier later => earlier.ts ≤ later.ts

structure LogQueryParams where
  limit : Nat
  before : Option Nat
  after : Option Nat
deriving DecidableEq, Repr

structure LogPage where
  items : List LogLine
  olderCursor : Option Nat
  newerCursor : Option Nat
  hasOlder : Bool
  hasNewer : Bool
deriving DecidableEq, Repr

def emptyPage (newerCursor : Option Nat) : LogPage := ⟨[], none, newerCursor, false, false⟩

def query (rows : List LogLine) (params : LogQueryParams) : LogPage :=
  match params.after with
  | some cursor =>
      let newer := rows.drop (cursor + 1)
      let items := newer.take params.limit
      if items = [] then emptyPage params.after
      else ⟨items, some (cursor + 1), some (cursor + items.length), true, params.limit < newer.length⟩
  | none =>
      let older := rows.take (params.before.getD rows.length)
      let items := older.rtake params.limit
      if items = [] then emptyPage params.after
      else ⟨items, some (older.length - items.length), some (older.length - 1),
        params.limit < older.length, params.before.isSome⟩

structure LogTailAppend where
  items : List LogLine
  newerCursor : Option Nat
deriving DecidableEq, Repr

/-! ## The client -/

def pageSize : Nat := 20

def maxLoadedLines : Nat := 1000

/-- The page size of the server where a request names none. -/
def tailPageSize : Nat := 100

structure LogPageEntry where
  items : List LogLine
  olderCursor : Option Nat := none
  newerCursor : Option Nat := none
deriving DecidableEq, Repr

def totalLines (pages : List LogPageEntry) : Nat := (pages.map fun page => page.items.length).sum

/-- An open `EventSource`: where the stream behind it goes on, and what it has sent that was
not handled yet. -/
structure TailSource where
  after : Option Nat
  sent : List LogTailAppend
deriving DecidableEq, Repr

structure UseLogs where
  pages : List LogPageEntry := []
  loadingLogs : Bool := false
  hasMore : Bool := false
  hasNewer : Bool := false
  atBottom : Bool := false
  isTailingAvailable : Bool := true
  selectedServiceIsLive : Bool := false
  requestVersion : Nat := 0
  tailSource : Option TailSource := none
  fetching : Bool := false
deriving DecidableEq, Repr

inductive Edge where
  | head
  | tail
deriving DecidableEq, Repr

/-- The page next to a dropped one keeps its own cursor, if it has one. -/
def handOver (edge : Edge) (dropped next : LogPageEntry) : LogPageEntry :=
  match edge with
  | .head =>
      if next.olderCursor = none then { next with olderCursor := dropped.olderCursor } else next
  | .tail =>
      if next.newerCursor = none then { next with newerCursor := dropped.newerCursor } else next

def evictFrom (edge : Edge) (dropped : LogPageEntry) : List LogPageEntry → List LogPageEntry
  | [] => [dropped]
  | next :: rest =>
      if maxLoadedLines < totalLines (dropped :: next :: rest) then
        evictFrom edge (handOver edge dropped next) rest
      else dropped :: next :: rest

inductive Mode where
  | older
  | newer
deriving DecidableEq, Repr

namespace UseLogs

variable (service : String) (client : UseLogs)

def logs : List LogLine := client.pages.flatMap LogPageEntry.items

def firstCursor : Option Nat := client.pages.head?.bind LogPageEntry.olderCursor

def lastCursor : Option Nat := client.pages.getLast?.bind LogPageEntry.newerCursor

def couldTail : Bool := client.atBottom

def tailing : Bool :=
  client.couldTail && client.isTailingAvailable && client.selectedServiceIsLive

def evict (edge : Edge) : UseLogs :=
  let evicts := decide (maxLoadedLines < totalLines client.pages ∧ 1 < client.pages.length)
  match edge with
  | .head =>
      match client.pages with
      | [] => client
      | first :: rest =>
          { client with
            pages := evictFrom .head first rest
            hasMore := client.hasMore || evicts }
  | .tail =>
      match client.pages.reverse with
      | [] => client
      | last :: rest =>
          { client with
            pages := (evictFrom .tail last rest).reverse
            hasNewer := client.hasNewer || evicts }

def appendLines (lines : List LogLine) (newerCursor : Option Nat) : UseLogs :=
  let sorted := lines.mergeSort fun left right => left.ts ≤ right.ts
  evict { client with pages := client.pages ++ [⟨sorted, none, newerCursor⟩] } .head

def currentParams (mode : Option Mode) : LogQueryParams where
  limit := pageSize
  before := if mode = some .older then client.firstCursor else none
  after := if mode = some .newer then client.lastCursor else none

def stopTailStream : UseLogs := { client with tailSource := none }

/-- Resumes from the last cursor. -/
def startTailStream : UseLogs :=
  { client with tailSource := if service = "" then none else some ⟨client.lastCursor, []⟩ }

end UseLogs

/-- A request that was sent, and the page the server made for it. -/
structure Request where
  version : Nat
  mode : Option Mode
  params : LogQueryParams
  response : Option LogPage := none
deriving DecidableEq, Repr

namespace UseLogs

variable (service : String) (client : UseLogs)

/-! What a call does before it waits for the server. -/

def loadLogs : UseLogs × Option Request :=
  let client := { client with
    requestVersion := client.requestVersion + 1
    pages := []
    hasMore := false
    hasNewer := false
    tailSource := none }
  if service = "" then ({ client with loadingLogs := false }, none)
  else
    ({ client with loadingLogs := true, fetching := true },
      some { version := client.requestVersion, mode := none, params := client.currentParams none })

def loadMore : UseLogs × Option Request :=
  match client.firstCursor with
  | none => (client, none)
  | some cursor =>
      if service = "" || !client.hasMore || client.loadingLogs || client.fetching then (client, none)
      else
        ({ client with fetching := true, loadingLogs := true }, some {
          version := client.requestVersion
          mode := some .older
          params := { client.currentParams (some .older) with before := some cursor } })

def loadNewer : UseLogs × Option Request :=
  if service = "" || client.loadingLogs || client.fetching then (client, none)
  else
    match client.lastCursor with
    | none =>
        if client.atBottom && !client.hasNewer then
          ({ client with isTailingAvailable := false }, none)
        else (client, none)
    | some cursor =>
        if !client.hasNewer && !client.atBottom then (client, none)
        else
          ({ client with fetching := true, loadingLogs := true }, some {
            version := client.requestVersion
            mode := some .newer
            params := { client.currentParams (some .newer) with after := some cursor } })

/-! What it does after. -/

def loaded (page : LogPage) : UseLogs :=
  let client := { client with
    pages := [⟨page.items, page.olderCursor, page.newerCursor⟩]
    hasMore := page.hasOlder
    hasNewer := page.hasNewer
    isTailingAvailable := !page.hasNewer }
  if client.tailing then client.startTailStream service else client

def loadedMore (page : LogPage) : UseLogs :=
  let entry : LogPageEntry := ⟨page.items, page.olderCursor, page.newerCursor⟩
  evict { client with pages := entry :: client.pages, hasMore := page.hasOlder } .tail

def loadedNewer (page : LogPage) : UseLogs :=
  let entry : LogPageEntry := ⟨page.items, page.olderCursor, page.newerCursor⟩
  let client := { client with
    pages := client.pages ++ if page.items.length ≠ 0 then [entry] else []
    hasNewer := page.hasNewer }
  let client :=
    if client.atBottom && !page.hasNewer then { client with isTailingAvailable := true } else client
  client.evict .head

def finish (version : Nat) : UseLogs :=
  { client with
    fetching := false
    loadingLogs := if version = client.requestVersion then false else client.loadingLogs }

/-- The page of a request that was overtaken by `loadLogs` is not looked at. -/
def receive (request : Request) (page : LogPage) : UseLogs :=
  if request.version ≠ client.requestVersion then client.finish request.version
  else
    match request.mode with
    | none => (client.loaded service page).finish request.version
    | some .older => (client.loadedMore page).finish request.version
    | some .newer => (client.loadedNewer page).finish request.version

/-- The listener for `append` events. -/
def onAppend (append : LogTailAppend) : UseLogs :=
  let existing := client.logs.map logLineKey
  let newLines := append.items.filter fun line => logLineKey line ∉ existing
  let client :=
    if newLines.length ≠ 0 then client.appendLines newLines append.newerCursor else client
  { client with hasNewer := false }

end UseLogs

/-! ## Both together -/

structure LogsView where
  log : ServerLog
  client : UseLogs
  requests : List Request

/-- The callbacks of the watchers may run at any time here, and so may the reconnect timer. -/
inductive LogsAction where
  | append (rows : List LogLine)
  | serviceLive (live : Bool)
  | reportAtBottom (value : Bool)
  | loadLogs
  | loadMore
  | loadNewer
  | watchTailing
  | watchCouldTail
  | startTailStream
  | stopTailStream
  | respond (index : Nat)
  | receive (index : Nat)
  | fail (index : Nat)
  | tailQuery
  | tailAppend

namespace LogsView

def send (view : LogsView) (called : UseLogs × Option Request) : LogsView :=
  { view with client := called.1, requests := view.requests ++ called.2.toList }

def step (service : String) (view : LogsView) : LogsAction → Option LogsView
  | .append rows =>
      if valid : ((view.log.rows ++ rows).map logLineKey).Nodup ∧
          (view.log.rows ++ rows).Pairwise fun earlier later => earlier.ts ≤ later.ts then
        some { view with log := ⟨view.log.rows ++ rows, valid.1, valid.2⟩ }
      else none
  | .serviceLive live =>
      some { view with client := { view.client with selectedServiceIsLive := live } }
  | .reportAtBottom value => some { view with client := { view.client with atBottom := value } }
  | .loadLogs => some (view.send (view.client.loadLogs service))
  | .loadMore => some (view.send (view.client.loadMore service))
  | .loadNewer => some (view.send (view.client.loadNewer service))
  | .watchTailing =>
      if view.client.tailing then some { view with client := view.client.startTailStream service }
      else some { view with client := view.client.stopTailStream }
  | .watchCouldTail =>
      if !view.client.couldTail then
        some { view with client := { view.client with isTailingAvailable := false } }
      else if !view.client.isTailingAvailable then some (view.send (view.client.loadNewer service))
      else some view
  | .startTailStream => some { view with client := view.client.startTailStream service }
  | .stopTailStream => some { view with client := view.client.stopTailStream }
  | .respond index => do
      let request ← view.requests[index]?
      match request.response with
      | some _ => none
      | none =>
          let answered := { request with response := some (query view.log.rows request.params) }
          return { view with requests := view.requests.set index answered }
  | .receive index => do
      let request ← view.requests[index]?
      let page ← request.response
      return { view with
        client := view.client.receive service request page
        requests := view.requests.eraseIdx index }
  | .fail index => do
      let request ← view.requests[index]?
      return { view with
        client := view.client.finish request.version
        requests := view.requests.eraseIdx index }
  | .tailQuery => do
      let source ← view.client.tailSource
      let page := query view.log.rows ⟨tailPageSize, none, source.after⟩
      if page.items = [] then some view
      else
        let source := ⟨page.newerCursor, source.sent ++ [⟨page.items, page.newerCursor⟩]⟩
        return { view with client := { view.client with tailSource := some source } }
  | .tailAppend => do
      let source ← view.client.tailSource
      match source.sent with
      | [] => none
      | append :: rest =>
          let client := { view.client with tailSource := some { source with sent := rest } }
          return { view with client := client.onAppend append }

end LogsView

def logsMachine (service : String) (log : ServerLog) : Machine LogsView LogsAction where
  start := ⟨log, {}, []⟩
  step := LogsView.step service

end Vpsiner.Frontend
