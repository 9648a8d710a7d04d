import Vpsiner.Api.HostStreamProperties
import Vpsiner.Frontend.HostChart
import Vpsiner.Frontend.MetricsStreamsProperties

/-! The chart shows the stored rows of its window, whatever connections it took to get them. -/

set_option autoImplicit false

namespace Vpsiner.Frontend

open Lib Api Metrics MetricsStream

variable {search : PartitionPoint}

/-- The snapshot has been read. -/
def Started (connection : HostConnection) : Prop := ∀ range, connection.state ≠ .initial range

/-! ## The server -/

/-- What a step of the server does to the open connection, and the events it sends. -/
inductive Served (before after : HostStreamSystem) : List HostEvent → Prop where
  | closed (closed : after.connection = none) : Served before after []
  | kept {connection next : HostConnection} (earlier : before.connection = some connection)
      (later : after.connection = some next) (sent : next.sent = connection.sent)
      (resolution : next.resolution = connection.resolution)
      (asked : next.fromMs = connection.fromMs) (started : Started next ↔ Started connection) :
      Served before after []
  | opened {connection next : HostConnection} (earlier : before.connection = some connection)
      (later : after.connection = some next) (initial : ¬ Started connection)
      (resolution : next.resolution = connection.resolution)
      (asked : next.fromMs = connection.fromMs) (started : Started next) :
      Served before after [.snapshot next.sent next.resolution]
  | answered {connection next : HostConnection} {points : List HostPoint}
      (earlier : before.connection = some connection) (later : after.connection = some next)
      (sent : next.sent = connection.sent ++ points)
      (resolution : next.resolution = connection.resolution)
      (asked : next.fromMs = connection.fromMs) (started : Started connection)
      (still : Started next) : Served before after (points.map .append)

theorem sent_answer (connection : HostConnection) (lastSent : Int) (points : List HostPoint) :
    (connection.answer lastSent points).sent = connection.sent ++ points.getLast?.toList := by
  unfold HostConnection.answer
  cases points.getLast? <;> simp

theorem served_poll {before after : HostStreamSystem} {action : HostStreamAction}
    {connection next : HostConnection} (earlier : before.connection = some connection)
    (polled : before.poll action connection = some next)
    (shape : after = { before with connection := some next }) :
    Served before after (HostChart.sentBy action before after) := by
  cases shape
  unfold HostStreamSystem.poll at polled
  split at polled
  · next range initial =>
      cases polled
      refine .opened earlier rfl (fun started => started range initial) rfl rfl ?_
      simp [Started, HostConnection.snapshot]
  · next lastSent waiting =>
      simp only at polled
      split at polled
      · cases polled
        refine .kept earlier rfl rfl rfl rfl ?_
        unfold Started HostConnection.wake
        simp only [waiting]
        split <;> simp
      · cases polled
  · next lastSent bucketEnd querying =>
      cases polled
      have sent := sent_answer connection lastSent
        (before.store.queryHost ⟨lastSent, bucketEnd⟩ connection.resolution)
      have events : HostChart.sentBy .query before { before with
          connection := some (connection.answer lastSent
            (before.store.queryHost ⟨lastSent, bucketEnd⟩ connection.resolution)) } =
          (before.store.queryHost ⟨lastSent, bucketEnd⟩
            connection.resolution).getLast?.toList.map .append := by
        simp [HostChart.sentBy, earlier, sent]
      rw [events]
      refine .answered earlier rfl sent ?_ ?_ ?_ ?_
      · unfold HostConnection.answer
        split <;> rfl
      · unfold HostConnection.answer
        split <;> rfl
      · simp [Started, querying]
      · unfold Started HostConnection.answer
        split <;> simp
  · cases polled

theorem served_kept {before after : HostStreamSystem} {action : HostStreamAction}
    (same : after.connection = before.connection)
    (silent : HostChart.sentBy action before after = []) :
    Served before after (HostChart.sentBy action before after) := by
  rw [silent]
  cases present : before.connection with
  | none => exact .closed (same.trans present)
  | some connection => exact .kept present (same.trans present) rfl rfl rfl Iff.rfl

theorem exists_announced (connection : HostConnection) (before after : ResolutionChannel)
    (rows : List HostSample) :
    ∃ announced, connection.announce before after rows = { connection with announced } := by
  unfold HostConnection.announce
  split
  · exact ⟨_, rfl⟩
  · exact ⟨_, rfl⟩

theorem served {before after : HostStreamSystem} {action : HostStreamAction}
    (opens : ∀ fromMs now, action ≠ .connect fromMs now)
    (taken : before.step search action = some after) :
    Served before after (HostChart.sentBy action before after) := by
  cases action with
  | insert sample =>
      simp only [HostStreamSystem.step, HostStreamSystem.insert] at taken
      split at taken
      · cases taken
        exact served_kept rfl rfl
      · cases taken
  | observe =>
      obtain ⟨ts, -, rfl⟩ := Option.map_eq_some_iff.mp taken
      cases present : before.connection with
      | none => exact .closed rfl
      | some connection =>
          obtain ⟨announced, same⟩ := exists_announced connection
            (before.channel connection.resolution)
            ((before.watcher.observeSample .host ts).channels .host connection.resolution)
            (before.rows connection.resolution)
          exact .kept present (congrArg some same) rfl rfl rfl Iff.rfl
  | restart =>
      cases taken
      exact .closed rfl
  | connect fromMs now => exact absurd rfl (opens fromMs now)
  | disconnect =>
      cases taken
      exact .closed rfl
  | snapshot | wake | query =>
      obtain ⟨connection, present, rest⟩ := Option.bind_eq_some_iff.mp taken
      obtain ⟨next, polled, shape⟩ := Option.bind_eq_some_iff.mp rest
      exact served_poll present polled (Option.some.inj shape).symm

theorem Served.silent {before after : HostStreamSystem} {events : List HostEvent}
    (served : Served before after events) (closed : before.connection = none) : events = [] := by
  cases served with
  | closed | kept => rfl
  | opened earlier | answered earlier => cases closed.symm.trans earlier

/-! ## The link -/

/-- Of what the server sent, the browser has the front and the link carries the rest. -/
inductive Carries (browser : HostHistory) (source : EventSource) (connection : HostConnection) :
    List HostEvent → Prop where
  | initial (waits : source.live = false) (initial : ¬ Started connection) :
      Carries browser source connection []
  | opened {opening later : List HostPoint} (waits : source.live = false)
      (started : Started connection) (sent : connection.sent = opening ++ later) :
      Carries browser source connection
        (.snapshot opening connection.resolution :: later.map .append)
  | following {opening appends later : List HostPoint} (live : source.live = true)
      (started : Started connection) (received : browser.received = some (opening, appends))
      (shown : browser.resolution = some connection.resolution)
      (sent : connection.sent = opening ++ appends ++ later) :
      Carries browser source connection (later.map .append)

namespace Carries

variable {browser : HostHistory} {source : EventSource} {connection next : HostConnection}
  {inFlight : List HostEvent}

/-- Only what was received and where from matters. -/
theorem of_browser {after : HostHistory} (carries : Carries browser source connection inFlight)
    (received : after.received = browser.received)
    (resolution : after.resolution = browser.resolution) :
    Carries after source connection inFlight := by
  cases carries with
  | initial waits initial => exact .initial waits initial
  | opened waits started sent => exact .opened waits started sent
  | following live started had shown sent =>
      exact .following live started (received.trans had) (resolution.trans shown) sent

theorem of_kept (carries : Carries browser source connection inFlight)
    (sent : next.sent = connection.sent) (resolution : next.resolution = connection.resolution)
    (started : Started next ↔ Started connection) : Carries browser source next inFlight := by
  cases carries with
  | initial waits initial => exact .initial waits (mt started.mp initial)
  | opened waits begun was => exact resolution ▸ .opened waits (started.mpr begun) (sent.trans was)
  | following live begun had shown was =>
      exact .following live (started.mpr begun) had (resolution ▸ shown) (sent.trans was)

theorem of_opened (carries : Carries browser source connection inFlight)
    (initial : ¬ Started connection) (started : Started next) :
    Carries browser source next (inFlight ++ [.snapshot next.sent next.resolution]) := by
  cases carries with
  | initial waits _ =>
      exact @Carries.opened _ _ _ next.sent [] waits started (List.append_nil _).symm
  | opened _ begun _ => exact absurd begun initial
  | following _ begun _ _ _ => exact absurd begun initial

theorem of_answered (carries : Carries browser source connection inFlight)
    {points : List HostPoint} (begun : Started connection)
    (sent : next.sent = connection.sent ++ points)
    (resolution : next.resolution = connection.resolution) (started : Started next) :
    Carries browser source next (inFlight ++ points.map .append) := by
  cases carries with
  | initial _ initial => exact absurd begun initial
  | opened waits _ was =>
      rw [List.cons_append, ← List.map_append, ← resolution]
      exact .opened waits started (by rw [sent, was, List.append_assoc])
  | following live _ had shown was =>
      rw [← List.map_append]
      exact .following live started had (resolution ▸ shown) (by rw [sent, was, List.append_assoc])

/-- The first event of a link is its snapshot. -/
theorem receive_snapshot {after : HostHistory} {points : List HostPoint}
    {resolution : MetricsResolution} {rest : List HostEvent}
    (carries : Carries browser source connection (.snapshot points resolution :: rest))
    (received : after.received = some (points, [])) (shown : after.resolution = some resolution) :
    Carries after { source with live := true } connection rest := by
  generalize events : HostEvent.snapshot points resolution :: rest = inFlight at carries
  cases carries with
  | initial => cases events
  | opened waits started sent =>
      cases events
      exact @Carries.following _ _ _ points [] _ rfl started received shown (by simpa using sent)
  | @following opening appends later =>
      cases later with
      | nil => cases events
      | cons => cases events

theorem receive_append {after : HostHistory} {point : HostPoint} {rest : List HostEvent}
    (carries : Carries browser source connection (.append point :: rest))
    (received : after.received = browser.received.map fun received =>
      (received.1, received.2 ++ [point]))
    (resolution : after.resolution = browser.resolution) :
    Carries after source connection rest := by
  generalize events : HostEvent.append point :: rest = inFlight at carries
  cases carries with
  | initial => cases events
  | opened => cases events
  | @following opening appends later live started had shown sent =>
      cases later with
      | nil => cases events
      | cons =>
          cases events
          refine @Carries.following _ _ _ opening (appends ++ [point]) _ live started ?_
            (resolution.trans shown) ?_
          · simp [received, had]
          · simpa using sent

end Carries

/-! ## The browser -/

/-- What a step of the page does to its source. -/
inductive Moves (before after : HostHistory) : Prop where
  | kept (source : after.source = before.source) (opened : after.opened = before.opened)
      (created : after.created = before.created) (received : after.received = before.received)
      (resolution : after.resolution = before.resolution)
  | closed (source : after.source = none) (opened : after.opened = [])
  | renewed {service : String} {fromMs : Int} (source : after.source = some after.created)
      (created : after.created = before.created + 1)
      (opened : after.opened = [{ id := after.created, service, fromMs }])

section Browser

variable {browser after : HostHistory}

theorem moves_connect {earlier : HostHistory} (created : browser.created = earlier.created)
    (sources : browser.OneSource) : Moves earlier (connect useHostMetricsStream browser) := by
  rw [sources.connect_eq]
  split
  · exact .renewed rfl (congrArg (· + 1) created) rfl
  · exact .closed rfl rfl

theorem moves_error (follows : Follows useHostMetricsStream browser) {id : Nat}
    (taken : browser.step useHostMetricsStream (.error id) = some after) : Moves browser after := by
  simp only [MetricsStream.step] at taken
  split at taken
  · next comes =>
      obtain ⟨source, current, single, -⟩ := follows.of_event comes
      rw [current] at taken
      cases taken
      rw [follows.reconnect_eq current single]
      exact .closed rfl rfl
  · cases taken

/-- Without an event of a source nothing is received. -/
theorem moves_step (follows : Follows useHostMetricsStream browser)
    {action : StreamAction (List HostPoint) HostPoint}
    (noSnapshot : ∀ id points resolution, action ≠ .snapshot id points resolution)
    (noAppend : ∀ id point, action ≠ .append id point)
    (taken : browser.step useHostMetricsStream action = some after) : Moves browser after := by
  cases action with
  | elapse ms =>
      cases taken
      exact .kept rfl rfl rfl rfl rfl
  | setTarget target =>
      simp only [MetricsStream.step] at taken
      split at taken
      · cases taken
      · split at taken
        · cases taken
          exact .kept rfl rfl rfl rfl rfl
        · cases taken
          exact moves_connect rfl follows.sources
  | snapshot id points resolution => exact absurd rfl (noSnapshot id points resolution)
  | append id point => exact absurd rfl (noAppend id point)
  | error id => exact moves_error follows taken
  | trimTick =>
      simp only [MetricsStream.step] at taken
      split at taken
      · cases taken
        obtain ⟨series, cutoff, shape⟩ := exists_trim useHostMetricsStream browser
        rw [shape]
        exact .kept rfl rfl rfl rfl rfl
      · cases taken
  | reconnectTick =>
      simp only [MetricsStream.step] at taken
      split at taken
      · cases taken
        exact moves_connect rfl follows.sources
      · cases taken
  | unmount =>
      simp only [MetricsStream.step] at taken
      split at taken
      · cases taken
        exact .closed rfl follows.sources.opened_disconnect
      · cases taken

end Browser

/-! ## The chart -/

namespace HostChart

/-- The server is asked to do only what it delivers exactly under. -/
def OneNewRow (chart : HostChart) : HostChartAction → Prop
  | .server action => chart.server.OneNewRow action
  | _ => True

/-- A connection of the server is the one the browser has open. -/
structure Charts (chart : HostChart) : Prop where
  follows : Follows useHostMetricsStream chart.browser
  fresh : ∀ id, chart.browser.source = some id → id ≤ chart.browser.created
  linked : ∀ link, chart.link = some link → ∃ source, chart.browser.opened = [source] ∧
    source.fromMs = link.fromMs ∧
      (link.accepted = false → source.live = false ∧ link.inFlight = [])
  tracks : ∀ connection, chart.server.connection = some connection →
    chart.server.Tracks connection
  carries : ∀ connection, chart.server.connection = some connection →
    ∃ link source, chart.link = some link ∧ chart.browser.opened = [source] ∧
      link.accepted = true ∧ connection.fromMs = link.fromMs ∧
        Carries chart.browser source connection link.inFlight

variable {chart after : HostChart}

namespace Charts

theorem follow (charts : chart.Charts) {browser : HostHistory} (moves : Moves chart.browser browser)
    (follows : Follows useHostMetricsStream browser) : (chart.follow browser).Charts := by
  cases moves with
  | kept source opened created received resolution =>
      rw [HostChart.follow, if_pos source]
      refine ⟨follows, ?_, ?_, charts.tracks, ?_⟩
      · intro id current
        rw [created]
        exact charts.fresh id (source.symm.trans current)
      · intro link present
        obtain ⟨current, single, rest⟩ := charts.linked link present
        exact ⟨current, opened.trans single, rest⟩
      · intro connection present
        obtain ⟨link, current, linked, single, accepted, asked, carries⟩ :=
          charts.carries connection present
        exact ⟨link, current, linked, opened.trans single, accepted, asked,
          carries.of_browser received resolution⟩
  | closed source opened =>
      by_cases same : browser.source = chart.browser.source
      · have closed : chart.browser.opened = [] := by
          rcases charts.follows.sources.cases with ⟨-, empty⟩ | ⟨current, some, -⟩
          · exact empty
          · cases source.symm.trans (same.trans some)
        rw [HostChart.follow, if_pos same]
        refine ⟨follows, fun id current => (nomatch source.symm.trans current), ?_,
          charts.tracks, ?_⟩
        · intro link present
          obtain ⟨current, single, -⟩ := charts.linked link present
          cases closed.symm.trans single
        · intro connection present
          obtain ⟨link, current, -, single, -⟩ := charts.carries connection present
          cases closed.symm.trans single
      · rw [HostChart.follow, if_neg same]
        refine ⟨follows, fun id current => (nomatch source.symm.trans current), ?_, nofun, nofun⟩
        intro link requested
        simp [opened] at requested
  | renewed source created opened =>
      have moved : browser.source ≠ chart.browser.source := by
        intro same
        have bounded := charts.fresh _ (same.symm.trans source)
        omega
      rw [HostChart.follow, if_neg moved]
      refine ⟨follows, ?_, ?_, nofun, nofun⟩
      · rw [source]
        rintro id ⟨⟩
        exact le_rfl
      · intro link requested
        simp only [opened, List.head?_cons, Option.map_some, Option.some.injEq] at requested
        subst requested
        exact ⟨_, opened, rfl, fun _ => ⟨rfl, rfl⟩⟩

theorem accept (charts : chart.Charts) {now : Int} (taken : chart.accept now = some after) :
    after.Charts := by
  obtain ⟨link, present, taken⟩ := Option.bind_eq_some_iff.mp taken
  split at taken
  · cases taken
  · next waiting =>
      obtain ⟨server, opened, taken⟩ := Option.bind_eq_some_iff.mp taken
      cases taken
      obtain ⟨source, single, asked, unsent⟩ := charts.linked link present
      obtain ⟨waits, empty⟩ := unsent (by simpa using waiting)
      refine ⟨charts.follows, charts.fresh, ?_, HostStreamSystem.Tracks.connect opened, ?_⟩
      · rintro _ ⟨⟩
        exact ⟨source, single, asked, nofun⟩
      · intro connection connected
        refine ⟨_, source, rfl, single, rfl, ?_⟩
        unfold HostStreamSystem.connect at opened
        split at opened
        · cases opened
        · cases opened
          cases connected
          refine ⟨rfl, ?_⟩
          simp only [empty]
          exact .initial waits fun started => started _ rfl

/-- The server works on; what it sends travels behind what is in flight. -/
theorem serve (charts : chart.Charts) {action : HostStreamAction}
    (opens : ∀ fromMs now, action ≠ .connect fromMs now)
    (single : chart.server.OneNewRow action)
    (taken : chart.serve search action = some after) : after.Charts := by
  obtain ⟨server, stepped, taken⟩ := Option.bind_eq_some_iff.mp taken
  cases taken
  have tracks := HostStreamSystem.step_tracks charts.tracks single stepped
  have serves := served opens stepped
  refine ⟨charts.follows, charts.fresh, ?_, tracks, ?_⟩
  · intro link present
    obtain ⟨link, linked, rfl⟩ := Option.map_eq_some_iff.mp present
    obtain ⟨source, only, asked, unsent⟩ := charts.linked link linked
    refine ⟨source, only, asked, fun waiting => ?_⟩
    obtain ⟨waits, empty⟩ := unsent waiting
    have closed : chart.server.connection = none := by
      cases present : chart.server.connection with
      | none => rfl
      | some connection =>
          obtain ⟨other, -, same, -, accepted, -⟩ := charts.carries connection present
          cases linked.symm.trans same
          cases waiting.symm.trans accepted
    exact ⟨waits, by simp [empty, serves.silent closed]⟩
  · intro connection present
    have behind : ∀ {link}, chart.link = some link →
        (chart.link.map fun link => { link with
          inFlight := link.inFlight ++ sentBy action chart.server server }) =
        some { link with inFlight := link.inFlight ++ sentBy action chart.server server } :=
      fun linked => by simp [linked]
    generalize sentBy action chart.server server = sent at serves behind ⊢
    cases serves with
    | closed closed => cases closed.symm.trans present
    | kept earlier later kept resolution asked started =>
        cases later.symm.trans present
        obtain ⟨link, source, linked, only, accepted, from_, carries⟩ := charts.carries _ earlier
        refine ⟨_, source, behind linked, only, accepted, asked.trans from_, ?_⟩
        simpa using carries.of_kept kept resolution started
    | opened earlier later initial resolution asked started =>
        cases later.symm.trans present
        obtain ⟨link, source, linked, only, accepted, from_, carries⟩ := charts.carries _ earlier
        refine ⟨_, source, behind linked, only, accepted, asked.trans from_, ?_⟩
        simpa using carries.of_opened initial started
    | answered earlier later grown resolution asked begun started =>
        cases later.symm.trans present
        obtain ⟨link, source, linked, only, accepted, from_, carries⟩ := charts.carries _ earlier
        refine ⟨_, source, behind linked, only, accepted, asked.trans from_, ?_⟩
        simpa using carries.of_answered begun grown resolution started

/-- A browser that took the next event off the link. -/
theorem receive (charts : chart.Charts) {link : HostLink} {event : HostEvent}
    {rest : List HostEvent} {browser : HostHistory} {source : EventSource} (received : EventSource)
    (present : chart.link = some link) (queued : link.inFlight = event :: rest)
    (single : chart.browser.opened = [source]) (follows : Follows useHostMetricsStream browser)
    (current : browser.source = chart.browser.source)
    (created : browser.created = chart.browser.created) (opened : browser.opened = [received])
    (asked : received.fromMs = source.fromMs)
    (carries : ∀ connection, Carries chart.browser source connection (event :: rest) →
      Carries browser received connection rest) :
    Charts { chart with browser, link := some { link with inFlight := rest } } := by
  obtain ⟨other, only, from_, unsent⟩ := charts.linked link present
  cases single.symm.trans only
  refine ⟨follows, ?_, ?_, charts.tracks, ?_⟩
  · intro id same
    exact created ▸ charts.fresh id (current.symm.trans same)
  · rintro _ ⟨⟩
    exact ⟨received, opened, asked.trans from_, fun waiting =>
      nomatch queued.symm.trans (unsent waiting).2⟩
  · intro connection connected
    obtain ⟨_, _, linked, only, accepted, from_, carried⟩ := charts.carries connection connected
    cases present.symm.trans linked
    cases single.symm.trans only
    exact ⟨_, received, rfl, opened, accepted, from_, carries connection (queued ▸ carried)⟩

theorem deliver (charts : chart.Charts) (taken : chart.deliver = some after) : after.Charts := by
  obtain ⟨link, present, taken⟩ := Option.bind_eq_some_iff.mp taken
  split at taken
  · cases taken
  · next event rest queued =>
      obtain ⟨browser, handled, taken⟩ := Option.bind_eq_some_iff.mp taken
      cases taken
      have follows := charts.follows.step handled
      cases event with
      | snapshot points resolution =>
          simp only [MetricsStream.step] at handled
          split at handled
          · next comes =>
              obtain ⟨source, current, single, same⟩ := charts.follows.of_event comes
              obtain ⟨series, cutoff, shape⟩ := exists_trim useHostMetricsStream {
                chart.browser with
                series := useHostMetricsStream.history.replace points
                received := some (points, [])
                cutoff := chart.browser.now - chart.browser.target.windowMs }
              simp only [onSnapshot, shape, Option.some.injEq] at handled
              subst handled
              refine charts.receive { source with live := true } present queued single follows
                rfl rfl ?_ rfl fun _ carried => carried.receive_snapshot rfl rfl
              simp [single, of_decide_eq_true same]
          · cases handled
      | append point =>
          simp only [MetricsStream.step] at handled
          split at handled
          · next comes =>
              obtain ⟨source, current, single, -⟩ := charts.follows.of_event comes
              obtain ⟨series, cutoff, shape⟩ := exists_trim useHostMetricsStream {
                chart.browser with
                series := useHostMetricsStream.history.extend chart.browser.series point
                received := chart.browser.received.map fun received =>
                  (received.1, received.2 ++ [point]) }
              simp only [onAppend, shape, Option.some.injEq] at handled
              subst handled
              exact charts.receive source present queued single follows rfl rfl single rfl
                fun _ carried => carried.receive_append rfl rfl
          · cases handled

theorem step (charts : chart.Charts) {action : HostChartAction}
    (single : chart.OneNewRow action)
    (taken : chart.step search action = some after) : after.Charts := by
  cases action with
  | server action =>
      have row : chart.server.OneNewRow action := single
      cases action with
      | connect | disconnect => cases taken
      | insert | observe | restart | snapshot | wake | query =>
          exact charts.serve (by simp) row taken
  | browser action =>
      cases action with
      | snapshot | append | error => cases taken
      | elapse | setTarget | trimTick | reconnectTick | unmount =>
          simp only [HostChart.step] at taken
          obtain ⟨browser, moved, taken⟩ := Option.bind_eq_some_iff.mp taken
          cases taken
          exact charts.follow (moves_step charts.follows (by simp) (by simp) moved)
            (charts.follows.step moved)
  | accept now => exact charts.accept taken
  | deliver => exact charts.deliver taken
  | lose =>
      obtain ⟨link, present, taken⟩ := Option.bind_eq_some_iff.mp taken
      obtain ⟨browser, failed, taken⟩ := Option.bind_eq_some_iff.mp taken
      cases taken
      exact charts.follow (moves_error charts.follows failed) (charts.follows.step failed)

end Charts

theorem charts_start {maxGapPct : Nat} {now : Int} :
    Charts (hostChart search maxGapPct now).start where
  follows := follows_setup now {}
  fresh := nofun
  linked := nofun
  tracks := nofun
  carries := nofun

theorem charts_of_reachable {maxGapPct : Nat} {now : Int}
    (reached : (hostChart search maxGapPct now).Reachable OneNewRow chart) :
    chart.Charts :=
  reached.invariant Charts charts_start fun charts single taken => charts.step single taken

/-- The chart is the front of the stored rows of its window, labelled with their resolution, and
once everything announced has been sent and received no announced row of the window is missing. -/
structure ShowsWindow (chart : HostChart) (connection : HostConnection) : Prop where
  resolution : chart.browser.resolution = some connection.resolution
  window : connection.fromMs ≤ chart.browser.cutoff ∧
    chart.browser.cutoff ≤ chart.browser.now - chart.browser.target.windowMs
  rows : chart.browser.series <+: ((chart.server.rows connection.resolution).filter fun row =>
    chart.browser.cutoff ≤ row.ts).map HostPoint.fromSample
  announced : chart.server.Idle connection →
    (∀ link, chart.link = some link → link.inFlight = []) →
      ∀ ts ∈ connection.announced, chart.browser.cutoff ≤ ts →
        ts ∈ chart.browser.series.map HostPoint.ts

theorem filter_due {system : HostStreamSystem} {connection : HostConnection} {cutoff : Int}
    (later : connection.fromMs ≤ cutoff) :
    ((system.due connection).filter fun point => cutoff ≤ point.ts) =
      ((system.rows connection.resolution).filter fun row => cutoff ≤ row.ts).map
        HostPoint.fromSample := by
  rw [HostStreamSystem.due, List.filter_map, List.filter_filter]
  congr 1
  apply List.filter_congr
  intro row _
  have inside : cutoff ≤ row.ts → connection.fromMs ≤ row.ts := later.trans
  by_cases recent : cutoff ≤ row.ts
  · simp [recent, inside recent]
  · simp [recent]

theorem Charts.showsWindow (charts : chart.Charts) {connection : HostConnection}
    (opened : chart.server.connection = some connection) {source : EventSource}
    (member : source ∈ chart.browser.opened) (live : source.live = true) :
    chart.ShowsWindow connection := by
  obtain ⟨link, current, linked, single, -, asked, carries⟩ := charts.carries connection opened
  have tracks := charts.tracks connection opened
  obtain rfl : source = current := by simpa [single] using member
  obtain ⟨other, only, from_, -⟩ := charts.linked link linked
  cases single.symm.trans only
  generalize events : link.inFlight = inFlight at carries
  cases carries with
  | initial waits | opened waits => cases live.symm.trans waits
  | @following opening appends later _ started received resolution sent =>
      obtain ⟨-, began, within⟩ := charts.follows.live source member live
      have shown := charts.follows.shows ()
      have inside : connection.fromMs ≤ chart.browser.cutoff := by
        rw [asked, ← from_]
        exact began
      have series : chart.browser.series = (opening ++ appends).filter fun point =>
          chart.browser.cutoff ≤ point.ts := by
        simpa [LiveHistory.feed, received, useHostMetricsStream] using shown
      refine ⟨resolution, ⟨inside, within⟩, ?_, ?_⟩
      · rw [series, ← filter_due inside]
        exact (List.IsPrefix.trans ⟨later, sent.symm⟩ tracks.due).filter _
      · intro idle arrived ts announced recent
        obtain rfl : later = [] := by simpa [events] using arrived link linked
        have delivered := tracks.delivers.announced idle ts announced (inside.trans recent)
        obtain ⟨point, present, rfl⟩ := List.mem_map.mp delivered
        rw [series]
        apply List.mem_map_of_mem
        simpa [sent, recent] using present

end HostChart

open HostChart

/-- However often the page reconnects, a chart that follows the host shows the stored rows of its
window. -/
theorem host_chart_shows_window {maxGapPct : Nat} {now : Int} {chart : HostChart}
    (reached : (hostChart search maxGapPct now).Reachable OneNewRow chart)
    {connection : HostConnection} (opened : chart.server.connection = some connection)
    {source : EventSource} (member : source ∈ chart.browser.opened) (live : source.live = true) :
    chart.ShowsWindow connection :=
  (charts_of_reachable reached).showsWindow opened member live

/-- The first point leaves the window while the second is on its way. -/
theorem host_chart_shows_window_moved : ∃ (chart : HostChart) (connection : HostConnection),
    chart.browser.series.map HostPoint.ts = [20000] ∧ chart.ShowsWindow connection := by
  have begun : (hostChart .binarySearch 100 15000).Reachable OneNewRow _ := .start
  have stored := (begun.step (.server (.insert (idleHost 10000))) nofun rfl).step
    (.server .observe) nofun rfl
  have asked := stored.step (.browser (.setTarget { windowMs := 15000, active := true }))
    trivial rfl
  have shown := ((asked.step (.accept 15000) trivial rfl).step (.server .snapshot)
    (fun _ _ => trivial) rfl).step .deliver trivial rfl
  have inserted := shown.step (.server (.insert (idleHost 20000)))
    (by
      rintro _ ⟨⟩ _ ⟨⟩ ts writes
      exact (by decide : (10000 : Int) < 20000).trans_eq (writesAt_tenSeconds.mp writes).symm) rfl
  have woken := (inserted.step (.server .observe) (fun _ _ => trivial) rfl).step (.server .wake)
    (by rintro _ ⟨⟩ ⟨⟩) rfl
  have answered := woken.step (.server .query) (by rintro _ ⟨⟩ _ _ ⟨⟩; decide) rfl
  have moved := (answered.step (.browser (.elapse 12000)) trivial rfl).step .deliver trivial rfl
  exact ⟨_, _, by decide +kernel, host_chart_shows_window moved rfl List.mem_cons_self rfl⟩

end Vpsiner.Frontend
