import Mathlib.Data.List.Infix
import Vpsiner.Frontend.Pages
import Vpsiner.Lib.Text

/-! What the pages, the requests and the tail of a log view keep to, and what an arriving
page or event makes of it. -/

set_option autoImplicit false

namespace Vpsiner.Frontend

open Lib

variable {service : String} {view after : LogsView} {client : UseLogs} {rows : List LogLine}

/-- The lines of an event begin in the displayed ones or right after them. -/
def Touches (client : UseLogs) (append : LogTailAppend) : Prop :=
  ∀ last ∈ client.lastCursor, ∀ newest ∈ append.newerCursor,
    newest ≤ last + append.items.length ∧
      last + append.items.length ≤ newest + totalLines client.pages

def newLines (client : UseLogs) (append : LogTailAppend) : List LogLine :=
  append.items.filter fun line => logLineKey line ∉ client.logs.map logLineKey

/-- A page belongs to the edge whose cursor was sent for it, the tail touches the displayed
lines, and no eviction leaves a first page with the cursor of a dropped one. -/
def InPlace (view : LogsView) : LogsAction → Prop
  | .receive index =>
      ∀ request ∈ view.requests[index]?, request.version = view.client.requestVersion →
        ∀ page ∈ request.response,
          (request.mode = some .older → request.params.before = view.client.firstCursor) ∧
          (request.mode = some .newer →
            (page.items ≠ [] → request.params.after = view.client.lastCursor) ∧
            takesOver (view.client.pages ++
              if page.items.length ≠ 0 then [entryOf page] else []) = false)
  | .tailAppend =>
      ∀ source ∈ view.client.tailSource, ∀ append ∈ source.sent.head?,
        Touches view.client append ∧
          ((newLines view.client append).length ≠ 0 → takesOver (view.client.pages ++
            [⟨newLines view.client append, none, append.newerCursor⟩]) = false)
  | _ => True

/-- The displayed lines are one piece of the log, and the next requests continue it. -/
structure PagesContiguous (service : String) (view : LogsView) : Prop where
  contiguous : view.client.logs <:+: view.log.rows
  older : ∀ request, (view.client.loadMore service).2 = some request → view.client.logs ≠ [] →
    ∀ front back, view.log.rows = front ++ view.client.logs ++ back →
      (query view.log.rows request.params).items = front.rtake pageSize
  newer : ∀ request, (view.client.loadNewer service).2 = some request → view.client.logs ≠ [] →
    ∀ front back, view.log.rows = front ++ view.client.logs ++ back →
      (query view.log.rows request.params).items = back.take pageSize

/-! ## What requests and events carry -/

structure RequestInv (rows : List LogLine) (request : Request) : Prop where
  limit : request.params.limit = pageSize
  initial : request.mode = none → request.params.before = none ∧ request.params.after = none
  older : request.mode = some .older →
    request.params.after = none ∧ ∃ cursor, request.params.before = some cursor
  newer : request.mode = some .newer →
    request.params.before = none ∧ ∃ cursor, request.params.after = some cursor
  inside : ∀ cursor ∈ request.params.before, cursor ≤ rows.length
  answered : ∀ page ∈ request.response, ∃ earlier, earlier <+: rows ∧
    (∀ cursor ∈ request.params.before, cursor ≤ earlier.length) ∧
    page = query earlier request.params

theorem RequestInv.grow {earlier : List LogLine} (grown : earlier <+: rows) {request : Request}
    (inv : RequestInv earlier request) : RequestInv rows request where
  limit := inv.limit
  initial := inv.initial
  older := inv.older
  newer := inv.newer
  inside cursor known := (inv.inside cursor known).trans grown.length_le
  answered page known := by
    obtain ⟨first, before, rest⟩ := inv.answered page known
    exact ⟨first, before.trans grown, rest⟩

theorem RequestInv.respond {request : Request} (inv : RequestInv rows request) :
    RequestInv rows { request with response := some (query rows request.params) } where
  limit := inv.limit
  initial := inv.initial
  older := inv.older
  newer := inv.newer
  inside := inv.inside
  answered _ known := ⟨rows, List.prefix_rfl, inv.inside, (Option.some.inj known).symm⟩

/-- The lines of an event are a stretch of the log that ends at its cursor. -/
def AppendInv (rows : List LogLine) (append : LogTailAppend) : Prop :=
  append.items ≠ [] ∧ ∃ start, PageAt rows start ⟨append.items, none, append.newerCursor⟩

def SentInv (rows : List LogLine) (source : Option TailSource) : Prop :=
  ∀ stream ∈ source, ∀ append ∈ stream.sent, AppendInv rows append

structure LogsInv (view : LogsView) : Prop where
  pages : PagesInv view.log.rows view.client.pages
  requests : ∀ request ∈ view.requests, RequestInv view.log.rows request
  sent : SentInv view.log.rows view.client.tailSource

theorem loadLogs_request {request : Request} (sent : (client.loadLogs service).2 = some request) :
    RequestInv rows request := by
  unfold UseLogs.loadLogs at sent
  dsimp only at sent
  split at sent
  · cases sent
  · cases sent
    exact ⟨rfl, fun _ => ⟨rfl, rfl⟩, fun other => absurd other.symm (Option.some_ne_none _),
      fun other => absurd other.symm (Option.some_ne_none _),
      fun _ member => absurd member (Option.not_mem_none _),
      fun _ member => absurd member (Option.not_mem_none _)⟩

theorem loadMore_request {request : Request} (sent : (client.loadMore service).2 = some request) :
    request.mode = some .older ∧ request.response = none ∧
      ∃ cursor, client.firstCursor = some cursor ∧
        request.params = ⟨pageSize, some cursor, none⟩ := by
  unfold UseLogs.loadMore at sent
  split at sent
  · cases sent
  · next cursor known =>
      split at sent
      · cases sent
      · cases sent
        exact ⟨rfl, rfl, cursor, known, rfl⟩

theorem loadNewer_request {request : Request} (sent : (client.loadNewer service).2 = some request) :
    request.mode = some .newer ∧ request.response = none ∧
      ∃ cursor, client.lastCursor = some cursor ∧
        request.params = ⟨pageSize, none, some cursor⟩ := by
  unfold UseLogs.loadNewer at sent
  split at sent
  · cases sent
  · split at sent
    · split at sent <;> cases sent
    · next cursor known =>
        split at sent
        · cases sent
        · cases sent
          exact ⟨rfl, rfl, cursor, known, rfl⟩

theorem loadMore_client (service : String) (client : UseLogs) :
    (client.loadMore service).1.pages = client.pages ∧
      (client.loadMore service).1.tailSource = client.tailSource := by
  unfold UseLogs.loadMore
  split
  · exact ⟨rfl, rfl⟩
  · split <;> exact ⟨rfl, rfl⟩

theorem loadNewer_client (service : String) (client : UseLogs) :
    (client.loadNewer service).1.pages = client.pages ∧
      (client.loadNewer service).1.tailSource = client.tailSource := by
  unfold UseLogs.loadNewer
  split
  · exact ⟨rfl, rfl⟩
  · split
    · split <;> exact ⟨rfl, rfl⟩
    · split <;> exact ⟨rfl, rfl⟩

/-! ## From the invariant to the pages -/

theorem PagesInv.shown (inv : PagesInv rows client.pages) :
    ∃ start, Tiled rows start client.pages ∧
      client.logs = stretch rows start (start + totalLines client.pages) ∧
      start + totalLines client.pages ≤ rows.length ∧
      (∀ cursor, client.firstCursor = some cursor →
        cursor = start ∧ ∀ page ∈ client.pages, page.items ≠ []) ∧
      (client.logs ≠ [] → 0 < totalLines client.pages ∧
        client.lastCursor = some (start + totalLines client.pages - 1)) := by
  obtain ⟨start, tiled⟩ := inv.tiled
  obtain ⟨lines, inside⟩ := tiled.lines
  obtain ⟨first, last⟩ := tiled.cursors inv.filled
  exact ⟨start, tiled, lines, inside, first, last⟩

/-- Rows before and after the displayed ones, as positions. -/
theorem front_back (log : ServerLog) (inv : PagesInv log.rows client.pages)
    (shown : client.logs ≠ []) {front back : List LogLine}
    (split : log.rows = front ++ client.logs ++ back) :
    ∃ start stop, start < stop ∧ stop ≤ log.rows.length ∧
      (∀ cursor, client.firstCursor = some cursor → cursor = start) ∧
      client.lastCursor = some (stop - 1) ∧
      front = log.rows.take start ∧ back = log.rows.drop stop := by
  obtain ⟨start, _, lines, inside, first, last⟩ := inv.shown
  obtain ⟨positive, cursor⟩ := last shown
  rw [lines] at split
  obtain ⟨before, behind⟩ := eq_take_of_append log.distinct inside (by omega) split
  exact ⟨start, _, by omega, inside, fun cursor known => (first cursor known).1, cursor, before, behind⟩

theorem LogsInv.pagesContiguous (inv : LogsInv view) : PagesContiguous service view where
  contiguous := by
    obtain ⟨start, _, lines, _⟩ := inv.pages.shown
    rw [lines]
    exact stretch_infix _ _ _
  older := by
    intro request sent shown front back split
    obtain ⟨_, _, cursor, known, params⟩ := loadMore_request sent
    obtain ⟨start, stop, _, inside, first, _, before, _⟩ := front_back view.log inv.pages shown split
    obtain rfl := first cursor known
    have bounded : cursor ≤ view.log.rows.length := by omega
    rw [params, before, rtake_take bounded]
    exact (query_backward (fun other same => Option.some.inj same ▸ bounded) pageSize).1
  newer := by
    intro request sent shown front back split
    obtain ⟨_, _, cursor, known, params⟩ := loadNewer_request sent
    obtain ⟨start, stop, positive, _, _, last, _, behind⟩ :=
      front_back view.log inv.pages shown split
    have next : cursor + 1 = stop := by
      rw [last] at known
      cases known
      omega
    rw [params, behind, take_drop, ← next]
    exact (query_forward view.log.rows pageSize cursor).1

/-! ## Pages that arrive -/

/-- The page that an older log answered is a page of this one. -/
theorem RequestInv.pageAt {request : Request} (inv : RequestInv rows request) {page : LogPage}
    (answered : page ∈ request.response) :
    (request.params.after = none → ∃ stop, stop ≤ rows.length ∧
      PageAt rows (stop - pageSize) (entryOf page) ∧
      page.items = stretch rows (stop - pageSize) stop ∧
      ∀ cursor ∈ request.params.before, cursor = stop) ∧
    (∀ cursor, request.params.before = none → request.params.after = some cursor →
      page.items ≠ [] → PageAt rows (cursor + 1) (entryOf page)) := by
  obtain ⟨version, mode, ⟨limit, before, after⟩, response⟩ := request
  obtain ⟨earlier, grown, bounded, rfl⟩ := inv.answered page answered
  obtain rfl : limit = pageSize := inv.limit
  constructor
  · intro none
    obtain rfl : after = Option.none := none
    obtain ⟨items, inside, _⟩ := query_backward bounded pageSize
    refine ⟨before.getD earlier.length, inside.trans grown.length_le,
      (pageAt_backward bounded (by decide)).grow grown, ?_, ?_⟩
    · exact items.trans (stretch_of_longer grown inside)
    · intro cursor known
      obtain rfl : before = some cursor := known
      rfl
  · intro cursor none known nonempty
    obtain rfl : before = Option.none := none
    obtain rfl : after = some cursor := known
    exact (pageAt_forward (by decide) nonempty).grow grown

theorem RequestInv.prefix_after {request : Request} (inv : RequestInv rows request)
    {page : LogPage} (answered : page ∈ request.response) {cursor : Nat}
    (none : request.params.before = none) (known : request.params.after = some cursor) :
    page.items <+: (rows.drop (cursor + 1)).take pageSize := by
  obtain ⟨version, mode, ⟨limit, before, after⟩, response⟩ := request
  obtain ⟨earlier, grown, _, rfl⟩ := inv.answered page answered
  obtain rfl : limit = pageSize := inv.limit
  obtain rfl : before = Option.none := none
  obtain rfl : after = some cursor := known
  rw [(query_forward earlier pageSize cursor).1, ← take_drop]
  exact List.IsPrefix.take (List.IsPrefix.drop grown _) _

theorem PagesInv.loadedMore {page : LogPage} (inv : PagesInv rows client.pages)
    {request : Request} (requested : RequestInv rows request) (mode : request.mode = some .older)
    (answered : page ∈ request.response) (edge : request.params.before = client.firstCursor) :
    PagesInv rows (client.loadedMore page).pages := by
  obtain ⟨backward, cursor, before⟩ := requested.older mode
  obtain ⟨stop, inside, at_, items, ends⟩ := (requested.pageAt answered).1 backward
  obtain rfl := ends cursor before
  obtain ⟨start, tiled, _, _, first, _⟩ := inv.shown
  obtain ⟨rfl, nonempty⟩ := first cursor (edge.symm.trans before)
  have length : cursor - pageSize + (entryOf page).items.length = cursor := by
    have lengths := length_stretch (cursor - pageSize) inside
    rw [← items] at lengths
    show cursor - pageSize + page.items.length = cursor
    omega
  let grown : UseLogs :=
    { client with pages := entryOf page :: client.pages, hasMore := page.hasOlder }
  have extended : PagesInv rows grown.pages := by
    refine ⟨⟨cursor - pageSize, at_, ?_⟩, ?_⟩
    · rwa [length]
    · exact List.pairwise_cons.mpr ⟨fun later member _ => nonempty later member, inv.filled⟩
  obtain ⟨count, kept⟩ := UseLogs.evict_tail extended
  rw [show (client.loadedMore page).pages = _ from kept]
  exact extended.take count

theorem PagesInv.concat {entry : LogPageEntry} {start : Nat} (tiled : Tiled rows start client.pages)
    (inv : PagesInv rows client.pages) (nonempty : entry.items ≠ [])
    (at_ : PageAt rows (start + totalLines client.pages) entry) :
    PagesInv rows (client.pages ++ [entry]) where
  tiled := ⟨start, tiled_append.mpr ⟨tiled, at_, at_.inside⟩⟩
  filled := by
    refine List.pairwise_append.mpr ⟨inv.filled, List.pairwise_singleton _ _, ?_⟩
    intro earlier _ later member _
    rwa [List.mem_singleton.mp member]

theorem PagesInv.evictHead {grown : UseLogs} (inv : PagesInv rows grown.pages)
    (own : takesOver grown.pages = false) : PagesInv rows (grown.evict .head).pages := by
  obtain ⟨count, kept⟩ := UseLogs.evict_head own
  rw [kept]
  exact inv.drop count

theorem PagesInv.loadedNewer {page : LogPage} (inv : PagesInv rows client.pages)
    {request : Request} (requested : RequestInv rows request) (mode : request.mode = some .newer)
    (answered : page ∈ request.response)
    (edge : page.items ≠ [] → request.params.after = client.lastCursor)
    (own : takesOver (client.pages ++
      if page.items.length ≠ 0 then [entryOf page] else []) = false) :
    PagesInv rows (client.loadedNewer page).pages := by
  have extended : PagesInv rows (client.pages ++
      if page.items.length ≠ 0 then [entryOf page] else []) := by
    split
    · next filled =>
        have nonempty : page.items ≠ [] := fun none => filled (by rw [none]; rfl)
        obtain ⟨forward, cursor, after⟩ := requested.newer mode
        have at_ := (requested.pageAt answered).2 cursor forward after nonempty
        have last : client.lastCursor = some cursor := (edge nonempty).symm.trans after
        obtain ⟨start, tiled, _, _, _, ends⟩ := inv.shown
        have shown : client.logs ≠ [] := by
          intro none
          have empty := flatMap_items_eq_nil_iff.mp none
          obtain ⟨entry, member, known⟩ := Option.bind_eq_some_iff.mp last
          obtain ⟨_, entryAt⟩ := tiled.forall_mem entry (List.mem_of_getLast? member)
          rw [entryAt.newer, if_pos (empty entry (List.mem_of_getLast? member))] at known
          cases known
        obtain ⟨positive, same⟩ := ends shown
        have next : cursor + 1 = start + totalLines client.pages := by
          rw [same] at last
          cases last
          omega
        rw [next] at at_
        exact .concat tiled inv nonempty at_
    · rw [List.append_nil]
      exact inv
  unfold UseLogs.loadedNewer
  dsimp only
  split
  · exact PagesInv.evictHead extended own
  · exact PagesInv.evictHead extended own

/-! ## Events of the tail -/

theorem mergeSort_sublist (log : ServerLog) {lines : List LogLine} (sub : lines.Sublist log.rows) :
    (lines.mergeSort fun left right => left.ts ≤ right.ts) = lines :=
  List.mergeSort_of_pairwise ((log.ordered.sublist sub).imp fun le => decide_eq_true le)

theorem newLines_follow {log : ServerLog} (inv : PagesInv log.rows client.pages)
    {append : LogTailAppend} {first : Nat}
    (at_ : PageAt log.rows first ⟨append.items, none, append.newerCursor⟩)
    (nonempty : append.items ≠ []) (touches : Touches client append) :
    ∃ start, Tiled log.rows start client.pages ∧ newLines client append =
      stretch log.rows (start + totalLines client.pages) (first + append.items.length) := by
  have items : append.items = stretch log.rows first (first + append.items.length) := at_.items
  have inside : first + append.items.length ≤ log.rows.length := at_.inside
  obtain ⟨start, tiled, lines, shownInside, _, last⟩ := inv.shown
  by_cases shown : client.logs = []
  · have empty := flatMap_items_eq_nil_iff.mp shown
    have none : totalLines client.pages = 0 := by
      have lengths := length_stretch start shownInside
      rw [← lines, shown, List.length_nil] at lengths
      omega
    refine ⟨first, tiled.rebase empty (by omega), ?_⟩
    rw [none, Nat.add_zero, ← items]
    unfold newLines
    rw [shown]
    exact List.filter_eq_self.mpr fun line _ => decide_eq_true List.not_mem_nil
  · obtain ⟨positive, cursor⟩ := last shown
    have newest : append.newerCursor = some (first + append.items.length - 1) := by
      have known := at_.newer
      rwa [if_neg nonempty] at known
    obtain ⟨notAfter, notBefore⟩ := touches _ cursor _ newest
    have filled := List.length_pos_iff.mpr nonempty
    refine ⟨start, tiled, ?_⟩
    unfold newLines
    rw [lines]
    conv_lhs => rw [items]
    exact filter_stretch log.distinct (by omega) (by omega)

theorem PagesInv.onAppend {log : ServerLog} (inv : PagesInv log.rows client.pages)
    {append : LogTailAppend} (sent : AppendInv log.rows append) (touches : Touches client append)
    (own : (newLines client append).length ≠ 0 → takesOver (client.pages ++
      [⟨newLines client append, none, append.newerCursor⟩]) = false) :
    PagesInv log.rows (client.onAppend append).pages := by
  obtain ⟨nonempty, first, at_⟩ := sent
  obtain ⟨start, tiled, added⟩ := newLines_follow inv at_ nonempty touches
  show PagesInv log.rows (if (newLines client append).length ≠ 0 then
    client.appendLines (newLines client append) append.newerCursor else client).pages
  split
  · next some =>
      have filled : newLines client append ≠ [] := fun none => some (by rw [none]; rfl)
      have sorted : ((newLines client append).mergeSort fun left right => left.ts ≤ right.ts) =
          newLines client append := by
        refine mergeSort_sublist log ?_
        rw [added]
        exact (List.drop_sublist _ _).trans (List.take_sublist _ _)
      obtain ⟨shape, _⟩ := stretch_eq_of_length log.rows (start + totalLines client.pages)
        (first + append.items.length) (added ▸ filled)
      have inside : first + append.items.length ≤ log.rows.length := at_.inside
      have lengths := length_stretch (start + totalLines client.pages) inside
      rw [← added] at shape lengths
      have positive := List.length_pos_iff.mpr filled
      have ends : start + totalLines client.pages + (newLines client append).length =
          first + append.items.length := by omega
      have entryAt : PageAt log.rows (start + totalLines client.pages)
          ⟨newLines client append, none, append.newerCursor⟩ := by
        refine ⟨shape, ends.trans_le inside, ?_, fun _ known => ?_, ?_⟩
        · exact (List.length_filter_le _ _).trans at_.small
        · exact absurd known.symm (Option.some_ne_none _)
        · have known := at_.newer
          rw [if_neg nonempty] at known
          rw [if_neg filled]
          exact known.trans (congrArg (fun stop => Option.some (stop - 1)) ends.symm)
      unfold UseLogs.appendLines
      dsimp only
      rw [sorted]
      exact PagesInv.evictHead (PagesInv.concat tiled inv filled entryAt) (own some)
  · exact inv

theorem loadedMore_tailSource (client : UseLogs) (page : LogPage) :
    (client.loadedMore page).tailSource = client.tailSource :=
  UseLogs.evict_tailSource _ _

theorem loadedNewer_tailSource (client : UseLogs) (page : LogPage) :
    (client.loadedNewer page).tailSource = client.tailSource := by
  unfold UseLogs.loadedNewer
  dsimp only
  rw [UseLogs.evict_tailSource]
  split <;> split <;> rfl

theorem onAppend_tailSource (client : UseLogs) (append : LogTailAppend) :
    (client.onAppend append).tailSource = client.tailSource := by
  show (if (newLines client append).length ≠ 0 then
    client.appendLines (newLines client append) append.newerCursor else client).tailSource = _
  split
  · exact UseLogs.evict_tailSource _ _
  · rfl

end Vpsiner.Frontend
