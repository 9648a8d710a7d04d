import Vpsiner.Frontend.UseLogsInvariant

/-! The pages stay one piece of the log as long as what arrives still belongs to the edge it
is put at, and eviction hands over no cursor. -/

set_option autoImplicit false

namespace Vpsiner.Frontend

open Lib

variable {service : String} {view after : LogsView} {client : UseLogs} {rows : List LogLine}

/-! ## Steps -/

theorem SentInv.start (service : String) (client : UseLogs) :
    SentInv rows (client.startTailStream service).tailSource := by
  intro source opened append member
  unfold UseLogs.startTailStream at opened
  dsimp only at opened
  split at opened
  · cases opened
  · cases opened
    cases member

theorem SentInv.stop (client : UseLogs) : SentInv rows client.stopTailStream.tailSource :=
  fun _ opened => absurd opened (Option.not_mem_none _)

theorem LogsInv.receive (inv : LogsInv view) {index : Nat} (inPlace : InPlace view (.receive index))
    {request : Request} (sent : view.requests[index]? = some request) {page : LogPage}
    (answered : request.response = some page) :
    PagesInv view.log.rows (view.client.receive service request page).pages ∧
      SentInv view.log.rows (view.client.receive service request page).tailSource := by
  have requested := inv.requests request (List.mem_of_getElem? sent)
  unfold UseLogs.receive
  split
  · exact ⟨inv.pages, inv.sent⟩
  · next current =>
      obtain ⟨older, newer⟩ := inPlace request sent (not_not.mp current) page answered
      cases mode : request.mode with
      | none =>
          obtain ⟨_, after⟩ := requested.initial mode
          obtain ⟨_, _, at_, _⟩ := (requested.pageAt answered).1 after
          dsimp only [UseLogs.finish, UseLogs.loaded]
          split
          · exact ⟨.singleton at_, .start _ _⟩
          · exact ⟨.singleton at_, inv.sent⟩
      | some direction =>
          cases direction with
          | older =>
              refine ⟨inv.pages.loadedMore requested mode answered (older mode), ?_⟩
              exact loadedMore_tailSource view.client page ▸ inv.sent
          | newer =>
              obtain ⟨edge, own⟩ := newer mode
              refine ⟨inv.pages.loadedNewer requested mode answered edge own, ?_⟩
              exact loadedNewer_tailSource view.client page ▸ inv.sent

theorem SentInv.grow {earlier : List LogLine} (grown : earlier <+: rows) {source : Option TailSource}
    (inv : SentInv earlier source) : SentInv rows source := by
  intro stream opened append member
  obtain ⟨nonempty, start, at_⟩ := inv stream opened append member
  exact ⟨nonempty, start, at_.grow grown⟩

/-- The stream sends what follows its cursor, or the newest lines when it has none. -/
theorem SentInv.tailQuery {stream : TailSource} (inv : SentInv rows (some stream))
    (found : (query rows ⟨tailPageSize, none, stream.after⟩).items ≠ []) :
    SentInv rows (some ⟨(query rows ⟨tailPageSize, none, stream.after⟩).newerCursor,
      stream.sent ++ [⟨(query rows ⟨tailPageSize, none, stream.after⟩).items,
        (query rows ⟨tailPageSize, none, stream.after⟩).newerCursor⟩]⟩) := by
  intro source opened append member
  obtain rfl := Option.some.inj opened
  rcases List.mem_append.mp member with old | new
  · exact inv stream rfl append old
  · obtain rfl := List.mem_singleton.mp new
    refine ⟨found, ?_⟩
    have placed : ∃ start, PageAt rows start
        (entryOf (query rows ⟨tailPageSize, none, stream.after⟩)) := by
      cases after : stream.after with
      | none =>
          exact ⟨_, pageAt_backward (fun _ known => absurd known (Option.not_mem_none _)) le_rfl⟩
      | some cursor =>
          rw [after] at found
          exact ⟨_, pageAt_forward le_rfl found⟩
    obtain ⟨start, at_⟩ := placed
    exact ⟨start, at_.items, at_.inside, at_.small,
      fun _ known => absurd known.symm (Option.some_ne_none _), at_.newer⟩

theorem LogsInv.send (inv : LogsInv view) {called : UseLogs × Option Request}
    (pages : PagesInv view.log.rows called.1.pages)
    (sent : SentInv view.log.rows called.1.tailSource)
    (requested : ∀ request, called.2 = some request → RequestInv view.log.rows request) :
    LogsInv (view.send called) where
  pages := pages
  requests request member := by
    rcases List.mem_append.mp member with old | new
    · exact inv.requests request old
    · exact requested request (Option.mem_toList.mp new)
  sent := sent

theorem LogsInv.loadNewer (inv : LogsInv view) :
    LogsInv (view.send (view.client.loadNewer service)) := by
  obtain ⟨pages, tail⟩ := loadNewer_client service view.client
  refine inv.send (pages ▸ inv.pages) (tail ▸ inv.sent) fun request sent => ?_
  obtain ⟨mode, unanswered, cursor, known, params⟩ := loadNewer_request sent
  refine ⟨by rw [params], fun other => ?_, fun other => ?_, fun _ => ?_, fun _ before => ?_,
    fun _ answered => ?_⟩
  · exact absurd (mode.symm.trans other) (Option.some_ne_none _)
  · cases mode.symm.trans other
  · rw [params]
    exact ⟨rfl, cursor, rfl⟩
  · rw [params] at before
    exact absurd before (Option.not_mem_none _)
  · rw [unanswered] at answered
    exact absurd answered (Option.not_mem_none _)

theorem LogsInv.loadMore (inv : LogsInv view) :
    LogsInv (view.send (view.client.loadMore service)) := by
  obtain ⟨pages, tail⟩ := loadMore_client service view.client
  refine inv.send (pages ▸ inv.pages) (tail ▸ inv.sent) fun request sent => ?_
  obtain ⟨mode, unanswered, cursor, known, params⟩ := loadMore_request sent
  refine ⟨by rw [params], fun other => ?_, fun _ => ?_, fun other => ?_, fun _ before => ?_,
    fun _ answered => ?_⟩
  · exact absurd (mode.symm.trans other) (Option.some_ne_none _)
  · rw [params]
    exact ⟨rfl, cursor, rfl⟩
  · cases mode.symm.trans other
  · rw [params] at before
    cases before
    obtain ⟨start, _, _, inside, first, _⟩ := inv.pages.shown
    obtain ⟨rfl, _⟩ := first cursor known
    omega
  · rw [unanswered] at answered
    exact absurd answered (Option.not_mem_none _)

theorem LogsInv.loadLogs (inv : LogsInv view) :
    LogsInv (view.send (view.client.loadLogs service)) := by
  refine inv.send ?_ ?_ fun request sent => loadLogs_request sent
  · unfold UseLogs.loadLogs
    dsimp only
    split <;> exact .nil _
  · unfold UseLogs.loadLogs
    dsimp only
    split <;> exact fun _ opened => absurd opened (Option.not_mem_none _)

theorem LogsInv.tailAppend (inv : LogsInv view) (inPlace : InPlace view .tailAppend)
    {stream : TailSource} (opened : view.client.tailSource = some stream)
    {append : LogTailAppend} {rest : List LogTailAppend} (first : stream.sent = append :: rest) :
    LogsInv ⟨view.log,
      UseLogs.onAppend { view.client with tailSource := some ⟨stream.after, rest⟩ } append,
      view.requests⟩ := by
  obtain ⟨touches, own⟩ := inPlace stream opened append (by rw [first]; rfl)
  have sent := inv.sent stream opened append (by rw [first]; exact List.mem_cons_self)
  have pages : PagesInv view.log.rows
      ({ view.client with tailSource := some ⟨stream.after, rest⟩ } : UseLogs).pages := inv.pages
  refine ⟨pages.onAppend sent touches own, inv.requests, ?_⟩
  rw [onAppend_tailSource]
  intro source same other member
  obtain rfl := Option.some.inj same
  exact inv.sent stream opened other (by rw [first]; exact List.mem_cons_of_mem _ member)

theorem LogsInv.step (inv : LogsInv view) {action : LogsAction} (inPlace : InPlace view action)
    (taken : view.step service action = some after) : LogsInv after := by
  cases action with
  | append rows =>
      dsimp only [LogsView.step] at taken
      split at taken
      · cases taken
        have grown : view.log.rows <+: view.log.rows ++ rows := List.prefix_append _ _
        exact ⟨inv.pages.grow grown, fun request member => (inv.requests request member).grow grown,
          inv.sent.grow grown⟩
      · cases taken
  | serviceLive live =>
      cases taken
      exact ⟨inv.pages, inv.requests, inv.sent⟩
  | reportAtBottom value =>
      cases taken
      exact ⟨inv.pages, inv.requests, inv.sent⟩
  | loadLogs =>
      cases taken
      exact inv.loadLogs
  | loadMore =>
      cases taken
      exact inv.loadMore
  | loadNewer =>
      cases taken
      exact inv.loadNewer
  | watchTailing =>
      dsimp only [LogsView.step] at taken
      split at taken
      · cases taken
        exact ⟨inv.pages, inv.requests, .start _ _⟩
      · cases taken
        exact ⟨inv.pages, inv.requests, .stop _⟩
  | watchCouldTail =>
      dsimp only [LogsView.step] at taken
      split at taken
      · cases taken
        exact ⟨inv.pages, inv.requests, inv.sent⟩
      · split at taken
        · cases taken
          exact inv.loadNewer
        · cases taken
          exact inv
  | startTailStream =>
      cases taken
      exact ⟨inv.pages, inv.requests, .start _ _⟩
  | stopTailStream =>
      cases taken
      exact ⟨inv.pages, inv.requests, .stop _⟩
  | respond index =>
      obtain ⟨request, sent, taken⟩ := Option.bind_eq_some_iff.mp taken
      split at taken
      · cases taken
      · cases taken
        refine ⟨inv.pages, fun other member => ?_, inv.sent⟩
        rcases List.mem_or_eq_of_mem_set member with old | rfl
        · exact inv.requests other old
        · exact (inv.requests request (List.mem_of_getElem? sent)).respond
  | receive index =>
      obtain ⟨request, sent, taken⟩ := Option.bind_eq_some_iff.mp taken
      obtain ⟨page, answered, taken⟩ := Option.bind_eq_some_iff.mp taken
      cases taken
      obtain ⟨pages, tail⟩ := inv.receive inPlace sent answered
      exact ⟨pages, fun other member => inv.requests other (List.mem_of_mem_eraseIdx member), tail⟩
  | fail index =>
      obtain ⟨request, sent, taken⟩ := Option.bind_eq_some_iff.mp taken
      cases taken
      exact ⟨inv.pages, fun other member => inv.requests other (List.mem_of_mem_eraseIdx member),
        inv.sent⟩
  | tailQuery =>
      obtain ⟨stream, opened, taken⟩ := Option.bind_eq_some_iff.mp taken
      dsimp only at taken
      split at taken
      · cases taken
        exact inv
      · next found =>
          cases taken
          exact ⟨inv.pages, inv.requests, SentInv.tailQuery (opened ▸ inv.sent) found⟩
  | tailAppend =>
      obtain ⟨stream, opened, taken⟩ := Option.bind_eq_some_iff.mp taken
      split at taken
      · cases taken
      · next append rest first =>
          cases taken
          exact inv.tailAppend inPlace opened first

theorem logsInv_of_reachable {log : ServerLog}
    (reached : (logsMachine service log).Reachable InPlace view) : LogsInv view :=
  reached.invariant LogsInv
    ⟨.nil _, fun _ member => absurd member List.not_mem_nil,
      fun _ opened => absurd opened (Option.not_mem_none _)⟩
    fun inv inPlace taken => inv.step inPlace taken

/-- The displayed lines stay one piece of the log, which is continued at both ends by the next
requests and by those under way. -/
theorem pages_stay_contiguous {log : ServerLog}
    (reached : (logsMachine service log).Reachable InPlace view) :
    PagesContiguous service view ∧
      ∀ index request page, view.requests[index]? = some request → request.response = some page →
        request.version = view.client.requestVersion → InPlace view (.receive index) →
        view.client.logs ≠ [] →
        ∀ front back, view.log.rows = front ++ view.client.logs ++ back →
          (request.mode = some .older → page.items = front.rtake pageSize) ∧
          (request.mode = some .newer → page.items <+: back.take pageSize) := by
  have inv := logsInv_of_reachable reached
  refine ⟨inv.pagesContiguous, ?_⟩
  intro index request page sent answered current inPlace shown front back split
  have requested := inv.requests request (List.mem_of_getElem? sent)
  obtain ⟨older, newer⟩ := inPlace request sent current page answered
  obtain ⟨start, stop, positive, inside, first, last, before, behind⟩ :=
    front_back view.log inv.pages shown split
  constructor
  · intro mode
    obtain ⟨backward, cursor, known⟩ := requested.older mode
    obtain ⟨ends, _, _, items, same⟩ := (requested.pageAt answered).1 backward
    obtain rfl := same cursor known
    obtain rfl := first cursor ((older mode).symm.trans known)
    rw [before, rtake_take (by omega)]
    exact items
  · intro mode
    obtain ⟨forward, cursor, known⟩ := requested.newer mode
    by_cases empty : page.items = []
    · rw [empty]
      exact List.nil_prefix
    · have same := ((newer mode).1 empty).symm.trans known
      rw [last] at same
      cases same
      have found := requested.prefix_after answered forward known
      rwa [Nat.sub_add_cancel (by omega), ← behind] at found

/-! ## Runs -/

instance (client : UseLogs) (append : LogTailAppend) : Decidable (Touches client append) :=
  inferInstanceAs (Decidable (∀ last ∈ client.lastCursor, ∀ newest ∈ append.newerCursor, _))

instance (view : LogsView) : (action : LogsAction) → Decidable (InPlace view action)
  | .receive index => inferInstanceAs (Decidable (∀ request ∈ view.requests[index]?, _ → _))
  | .tailAppend =>
      inferInstanceAs (Decidable (∀ source ∈ view.client.tailSource, ∀ append ∈ _, _ ∧ _))
  | .append _ => inferInstanceAs (Decidable True)
  | .serviceLive _ => inferInstanceAs (Decidable True)
  | .reportAtBottom _ => inferInstanceAs (Decidable True)
  | .loadLogs => inferInstanceAs (Decidable True)
  | .loadMore => inferInstanceAs (Decidable True)
  | .loadNewer => inferInstanceAs (Decidable True)
  | .watchTailing => inferInstanceAs (Decidable True)
  | .watchCouldTail => inferInstanceAs (Decidable True)
  | .startTailStream => inferInstanceAs (Decidable True)
  | .stopTailStream => inferInstanceAs (Decidable True)
  | .respond _ => inferInstanceAs (Decidable True)
  | .fail _ => inferInstanceAs (Decidable True)
  | .tailQuery => inferInstanceAs (Decidable True)

def tickLine (ts : Nat) : LogLine := ⟨ts, "web", ⟨1⟩, .stdout, none, "tick"⟩

theorem logLineKey_tickLine_injective : Function.Injective fun ts => logLineKey (tickLine ts) := by
  intro left right same
  have digits := congrArg String.toList same
  simp only [logLineKey, tickLine, String.toList_append, List.append_assoc] at digits
  have decimal : ∀ n : Nat, (toString (n : Int)).toList = Nat.toDigits 10 n :=
    fun n => String.toList_ofList
  have numbers := List.append_cancel_right digits
  rw [decimal, decimal] at numbers
  have parsed := congrArg Text.parseDigits numbers
  rw [Text.parseDigits_toDigits, Text.parseDigits_toDigits] at parsed
  exact Option.some.inj parsed

def ticks (count : Nat) : ServerLog where
  rows := (List.range count).map tickLine
  distinct := by
    rw [List.map_map]
    exact (List.nodup_range).map logLineKey_tickLine_injective
  ordered := by
    refine List.pairwise_map.mpr ((List.pairwise_lt_range).imp fun lt => ?_)
    exact Int.ofNat_le.mpr (Nat.le_of_lt lt)

/-- A load, a line from the tail, and a fetch that finds nothing newer. -/
theorem pages_stay_contiguous_tailing : ∃ view : LogsView,
    view.client.logs.map LogLine.ts = [0, 1, 2, 3] ∧ PagesContiguous "web" view := by
  have done : ((logsMachine "web" (ticks 3)).run
      (fun view action => decide (InPlace view action)) (logsMachine "web" (ticks 3)).start
      [.serviceLive true, .reportAtBottom true, .loadLogs, .respond 0, .receive 0,
        .append [tickLine 3], .tailQuery, .tailAppend, .loadNewer, .respond 0, .receive 0]).map
        (fun view => view.client.logs.map LogLine.ts) = some [0, 1, 2, 3] := by
    decide +kernel
  obtain ⟨view, taken, lines⟩ := Option.map_eq_some_iff.mp done
  have sound := pages_stay_contiguous
    (Machine.Reachable.start.run (fun _ _ => of_decide_eq_true) taken)
  exact ⟨view, lines, sound.1⟩

/-! ## A long tail -/

/-- An event of lines that are all new becomes a page of its own. -/
theorem onAppend_fresh {append : LogTailAppend} (fresh : newLines client append = append.items)
    (filled : (newLines client append).length ≠ 0)
    (sorted : (append.items.mergeSort fun left right => left.ts ≤ right.ts) = append.items)
    {first : LogPageEntry} {rest : List LogPageEntry}
    (grown : client.pages ++ [⟨append.items, none, append.newerCursor⟩] = first :: rest) :
    client.onAppend append = { client with
      pages := evictFrom .head first rest
      hasMore := client.hasMore ||
        decide (maxLoadedLines < totalLines (first :: rest) ∧ 1 < (first :: rest).length)
      hasNewer := false } := by
  show { (if (newLines client append).length ≠ 0 then
    client.appendLines (newLines client append) append.newerCursor else client) with
      hasNewer := false } = _
  rw [if_pos filled, fresh]
  unfold UseLogs.appendLines UseLogs.evict
  dsimp only
  rw [sorted, grown]

section LongTail

variable {log : ServerLog} {events : Nat}

def ServerLog.first (log : ServerLog) (count : Nat) : ServerLog where
  rows := log.rows.take count
  distinct := log.distinct.sublist ((List.take_sublist _ _).map logLineKey)
  ordered := log.ordered.sublist (List.take_sublist _ _)

def loadedPage (log : ServerLog) : LogPageEntry := ⟨stretch log.rows 20 40, some 20, some 39⟩

def tailPage (log : ServerLog) (index : Nat) : LogPageEntry where
  items := stretch log.rows (40 + 100 * index) (140 + 100 * index)
  newerCursor := some (139 + 100 * index)

def tailEvent (log : ServerLog) (index : Nat) : LogTailAppend where
  items := (tailPage log index).items
  newerCursor := some (139 + 100 * index)

def tailedPages (log : ServerLog) (events : Nat) : List LogPageEntry :=
  loadedPage log :: (List.range events).map (tailPage log)

theorem tailedPages_succ (log : ServerLog) (events : Nat) :
    tailedPages log (events + 1) = tailedPages log events ++ [tailPage log events] := by
  unfold tailedPages
  rw [List.range_succ, List.map_append, List.map_singleton, List.cons_append]

theorem tailedPages_lines (long : log.rows.length = 1040) (few : events ≤ 10) :
    (tailedPages log events).flatMap LogPageEntry.items =
        stretch log.rows 20 (40 + 100 * events) ∧
      totalLines (tailedPages log events) = 20 + 100 * events := by
  induction events with
  | zero => exact ⟨List.append_nil _, length_stretch 20 (by omega)⟩
  | succ events ih =>
      obtain ⟨lines, total⟩ := ih (by omega)
      have length := length_stretch (40 + 100 * events)
        (show 140 + 100 * events ≤ log.rows.length by omega)
      have stop : 40 + 100 * (events + 1) = 140 + 100 * events := by omega
      rw [tailedPages_succ, List.flatMap_append, lines, totalLines_append, total, stop,
        List.flatMap_singleton, totalLines_cons, totalLines_nil]
      constructor
      · exact stretch_append_stretch (by omega) (by omega)
      · unfold tailPage
        dsimp only
        omega

/-- After a page of twenty lines the tail has sent so many events of a hundred lines. -/
structure Tailing (log : ServerLog) (events : Nat) (pages : List LogPageEntry) (view : LogsView) :
    Prop where
  reached : (logsMachine "web" (log.first 40)).Reachable Machine.anyStep view
  rows : view.log.rows = log.rows
  pages : view.client.pages = pages
  tail : view.client.tailSource = some ⟨some (39 + 100 * events), []⟩
  idle : view.client.hasMore = true ∧ view.client.loadingLogs = false ∧ view.client.fetching = false

theorem query_first (long : log.rows.length = 1040) :
    query (log.first 40).rows ⟨pageSize, none, none⟩ =
      ⟨stretch log.rows 20 40, some 20, some 39, true, false⟩ := by
  have lengths : (log.rows.take 40).length = 40 := by rw [List.length_take, long]; rfl
  have newest : (log.rows.take 40).rtake pageSize = stretch log.rows 20 40 :=
    rtake_take (by omega) pageSize
  have count := length_stretch 20 (show 40 ≤ log.rows.length by omega)
  have whole : (log.rows.take 40).take ((none : Option Nat).getD (log.rows.take 40).length) =
      log.rows.take 40 := List.take_length
  have nonempty : (log.rows.take 40).rtake pageSize ≠ [] := by
    rw [newest]
    exact List.length_pos_iff.mp (by omega)
  unfold query ServerLog.first
  dsimp only
  rw [whole, if_neg nonempty, newest, count, lengths]
  rfl

theorem tailing_start (long : log.rows.length = 1040) :
    ∃ view, Tailing log 0 (tailedPages log 0) view := by
  have answered : (logsMachine "web" (log.first 40)).run (fun _ _ => true)
      (logsMachine "web" (log.first 40)).start
      [.serviceLive true, .reportAtBottom true, .loadLogs, .respond 0] = some {
        log := log.first 40
        client := {
          loadingLogs := true
          atBottom := true
          selectedServiceIsLive := true
          requestVersion := 1
          fetching := true }
        requests := [⟨1, none, ⟨pageSize, none, none⟩,
          some (query (log.first 40).rows ⟨pageSize, none, none⟩)⟩] } := rfl
  rw [query_first long] at answered
  have loaded := (Machine.Reachable.of_run _ answered).step (.receive 0) trivial rfl
  have whole : (log.first 40).rows ++ log.rows.drop 40 = log.rows := List.take_append_drop _ _
  have valid : (((log.first 40).rows ++ log.rows.drop 40).map logLineKey).Nodup ∧
      ((log.first 40).rows ++ log.rows.drop 40).Pairwise fun earlier later =>
        earlier.ts ≤ later.ts := by
    rw [whole]
    exact ⟨log.distinct, log.ordered⟩
  have appended := loaded.step (.append (log.rows.drop 40)) trivial (dif_pos valid)
  exact ⟨_, appended, whole, rfl, rfl, rfl, rfl, rfl⟩

theorem Tailing.event {view : LogsView} (tailing : Tailing log events (tailedPages log events) view)
    (long : log.rows.length = 1040) (few : events < 10) :
    ∃ after, Tailing log (events + 1)
      (evictFrom .head (loadedPage log) ((List.range (events + 1)).map (tailPage log))) after := by
  obtain ⟨lines, total⟩ := tailedPages_lines long few.le
  obtain ⟨items, cursors⟩ := query_forward view.log.rows tailPageSize (39 + 100 * events)
  have inside : 140 + 100 * events ≤ view.log.rows.length := by
    rw [tailing.rows]
    omega
  have stop : 39 + 100 * events + 1 + tailPageSize = 140 + 100 * events := by
    simp only [tailPageSize]
    omega
  have start : 39 + 100 * events + 1 = 40 + 100 * events := by omega
  have length := length_stretch (40 + 100 * events) inside
  rw [stop, start] at items
  have nonempty : (query view.log.rows ⟨tailPageSize, none, some (39 + 100 * events)⟩).items ≠ [] := by
    rw [items]
    exact List.length_pos_iff.mp (by omega)
  have newest : (query view.log.rows ⟨tailPageSize, none, some (39 + 100 * events)⟩).newerCursor =
      some (139 + 100 * events) := by
    rw [(cursors nonempty).2, items, length]
    congr 1
    omega
  let source : TailSource := ⟨some (139 + 100 * events), [tailEvent log events]⟩
  have sent : (logsMachine "web" (log.first 40)).step view .tailQuery =
      some { view with client := { view.client with tailSource := some source } } := by
    show view.client.tailSource.bind _ = _
    rw [tailing.tail]
    refine (if_neg nonempty).trans ?_
    rw [newest, items, tailing.rows]
    rfl
  have handled := (tailing.reached.step .tailQuery trivial sent).step .tailAppend trivial rfl
  have shown : view.client.logs = stretch log.rows 20 (40 + 100 * events) := by
    rw [← lines, ← tailing.pages]
    rfl
  have added : newLines view.client (tailEvent log events) = (tailPage log events).items := by
    unfold newLines tailEvent tailPage
    dsimp only
    rw [shown]
    exact filter_stretch log.distinct (by omega) le_rfl
  have filled : (newLines view.client (tailEvent log events)).length ≠ 0 := by
    rw [added]
    unfold tailPage
    rw [tailing.rows] at length
    dsimp only
    omega
  have sorted : ((tailPage log events).items.mergeSort fun left right => left.ts ≤ right.ts) =
      (tailPage log events).items :=
    mergeSort_sublist log ((List.drop_sublist _ _).trans (List.take_sublist _ _))
  have grown : view.client.pages ++ [⟨(tailEvent log events).items, none,
      (tailEvent log events).newerCursor⟩] =
        loadedPage log :: (List.range (events + 1)).map (tailPage log) := by
    rw [tailing.pages]
    exact (tailedPages_succ log events).symm
  have next : 39 + 100 * (events + 1) = 139 + 100 * events := by omega
  have shape := @onAppend_fresh { view.client with tailSource := some ⟨source.after, []⟩ }
    (tailEvent log events) added filled sorted _ _ grown
  refine ⟨_, handled, tailing.rows, ?_, ?_, ?_⟩
  · exact congrArg UseLogs.pages shape
  · rw [next]
    exact congrArg UseLogs.tailSource shape
  · dsimp only
    rw [shape]
    obtain ⟨more, loading, fetching⟩ := tailing.idle
    exact ⟨by rw [more, Bool.true_or], loading, fetching⟩

theorem tailing_of_few (long : log.rows.length = 1040) (few : events < 10) :
    ∃ view, Tailing log events (tailedPages log events) view := by
  induction events with
  | zero => exact tailing_start long
  | succ events ih =>
      obtain ⟨view, tailing⟩ := ih (by omega)
      obtain ⟨after, next⟩ := tailing.event long (by omega)
      have total := (tailedPages_lines long few.le).2
      have kept : evictFrom .head (loadedPage log) ((List.range (events + 1)).map (tailPage log)) =
          tailedPages log (events + 1) := by
        unfold tailedPages at total ⊢
        cases rest : (List.range (events + 1)).map (tailPage log) with
        | nil => rfl
        | cons second others =>
            rw [rest] at total
            refine if_neg ?_
            rw [total]
            simp only [maxLoadedLines]
            omega
      exact ⟨after, kept ▸ next⟩

/-- The tenth event evicts the loaded page, and the first page of the tail takes over its
cursor. -/
theorem evictFrom_tenth (long : log.rows.length = 1040) :
    ∃ rest, evictFrom .head (loadedPage log) ((List.range 10).map (tailPage log)) =
        { tailPage log 0 with olderCursor := some 20 } :: rest ∧
      ({ tailPage log 0 with olderCursor := some 20 } :: rest).flatMap LogPageEntry.items =
        stretch log.rows 40 1040 := by
  obtain ⟨lines, total⟩ := tailedPages_lines long (le_refl 10)
  unfold tailedPages at lines total
  rw [List.range_succ_eq_map, List.map_cons, List.map_map] at lines total ⊢
  refine ⟨(List.range 9).map (tailPage log ∘ Nat.succ), ?_, ?_⟩
  · unfold evictFrom
    rw [if_pos (by rw [total]; decide)]
    rw [totalLines_cons] at total
    have loaded : (loadedPage log).items.length = 20 := length_stretch 20 (by omega)
    cases rest : (List.range 9).map (tailPage log ∘ Nat.succ) with
    | nil => rfl
    | cons second others =>
        rw [rest, loaded] at total
        refine if_neg ?_
        have left : totalLines (handOver .head (loadedPage log) (tailPage log 0) ::
          second :: others) = totalLines (tailPage log 0 :: second :: others) := rfl
        rw [left]
        simp only [maxLoadedLines]
        omega
  · rw [List.flatMap_cons, ← @stretch_append_stretch _ log.rows 20 40 _ (by omega) (by omega)] at lines
    exact List.append_cancel_left lines

/-- Rows 20 to 39 are in no page then, and the next request passes over them. -/
theorem not_pagesContiguous_of_long (long : log.rows.length = 1040) :
    ∃ view, (logsMachine "web" (log.first 40)).Reachable Machine.anyStep view ∧
      ¬ PagesContiguous "web" view := by
  obtain ⟨before, tailing⟩ := tailing_of_few long (show 9 < 10 by decide)
  obtain ⟨view, last⟩ := tailing.event long (by decide)
  refine ⟨view, last.reached, fun sound => ?_⟩
  obtain ⟨rest, pages, lines⟩ := evictFrom_tenth long
  rw [← pages, ← last.pages] at lines
  have inside : 40 ≤ log.rows.length := by omega
  have shown : view.client.logs ≠ [] := by
    rw [show view.client.logs = _ from lines]
    have length := length_stretch 40 (show 1040 ≤ log.rows.length by omega)
    exact List.length_pos_iff.mp (by omega)
  have cursor : view.client.firstCursor = some 20 := by
    unfold UseLogs.firstCursor
    rw [last.pages, pages]
    rfl
  obtain ⟨more, loading, fetching⟩ := last.idle
  have sent : (view.client.loadMore "web").2 = some ⟨view.client.requestVersion, some .older,
      { view.client.currentParams (some .older) with before := some 20 }, none⟩ := by
    unfold UseLogs.loadMore
    rw [cursor, more, loading, fetching]
    rfl
  have split : view.log.rows = view.log.rows.take 40 ++ view.client.logs ++ [] := by
    rw [show view.client.logs = _ from lines, last.rows, List.append_nil]
    have whole := @take_append_stretch_append_drop _ log.rows 40 1040 (by omega)
    rw [List.drop_eq_nil_of_le long.le, List.append_nil] at whole
    exact whole.symm
  have skipped := sound.older _ sent shown _ _ split
  rw [last.rows, rtake_take inside] at skipped
  have bounded : ∀ cursor ∈ some 20, cursor ≤ log.rows.length := by
    intro cursor known
    cases known
    omega
  obtain ⟨found, _⟩ := query_backward bounded pageSize
  have same : stretch log.rows 0 20 = stretch log.rows 20 40 := found.symm.trans skipped
  have length := length_stretch 20 inside
  obtain ⟨line, member⟩ := List.exists_mem_of_length_pos
    (show 0 < (stretch log.rows 20 40).length by omega)
  refine key_not_mem_stretch log.distinct (Nat.zero_le 20) member ?_
  rw [same]
  exact List.mem_map_of_mem member

end LongTail

/-- Twenty lines are loaded, the tail brings a thousand more. -/
theorem long_tail_leaves_gap : ¬ ∀ (service : String) (log : ServerLog) (view : LogsView),
    (logsMachine service log).Reachable Machine.anyStep view → PagesContiguous service view := by
  intro always
  have long : (ticks 1040).rows.length = 1040 := by
    unfold ticks
    rw [List.length_map, List.length_range]
  obtain ⟨view, reached, gap⟩ := not_pagesContiguous_of_long long
  exact gap (always _ _ view reached)

end Vpsiner.Frontend
