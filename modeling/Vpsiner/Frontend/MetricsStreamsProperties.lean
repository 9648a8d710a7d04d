import Vpsiner.Frontend.MetricsStreams

/-! What a live history shows and which connections it keeps, whatever order its events, its
timers and its targets come in. -/

set_option autoImplicit false

namespace Vpsiner.Frontend

open Lib

variable {κ : Type} {point : κ → Type} {shown snapshot append : Type}
  {composable : MetricsComposable κ point shown snapshot append}
  {stream after : MetricsStream shown snapshot append}

namespace MetricsStream

/-- There is something to follow. -/
def Wanted (composable : MetricsComposable κ point shown snapshot append)
    (stream : MetricsStream shown snapshot append) : Prop :=
  stream.mounted = true ∧ composable.ready stream.target = true

/-- No source is left open but the current one. -/
def OneSource (stream : MetricsStream shown snapshot append) : Prop :=
  stream.opened.map EventSource.id = stream.source.toList

/-- While there is something to follow, it is trimmed and a source is open or will be; the rest of
the time nothing is open and no timer runs. What is shown for a key is what came for it since the
last snapshot, from a cutoff on that lies inside the window of a source that is live. -/
structure Follows (composable : MetricsComposable κ point shown snapshot append)
    (stream : MetricsStream shown snapshot append) : Prop where
  sources : stream.OneSource
  wanted : stream.Wanted composable →
    stream.trimTimer = true ∧ (stream.reconnectTimer = true ↔ stream.source = none)
  unwanted : ¬ stream.Wanted composable →
    stream.source = none ∧ stream.trimTimer = false ∧ stream.reconnectTimer = false
  shows : composable.history.ShowsFrom stream.series stream.received stream.cutoff
  asked : ∀ source ∈ stream.opened, source.service = stream.target.service ∧
    source.fromMs ≤ stream.now - stream.target.windowMs
  live : ∀ source ∈ stream.opened, source.live = true → stream.received.isSome = true ∧
    source.fromMs ≤ stream.cutoff ∧ stream.cutoff ≤ stream.now - stream.target.windowMs

/-- A trim is about what is shown. -/
theorem exists_trim (composable : MetricsComposable κ point shown snapshot append)
    (stream : MetricsStream shown snapshot append) : ∃ series cutoff,
      trim composable stream = { stream with series, cutoff } := by
  unfold trim
  split <;> exact ⟨_, _, rfl⟩

theorem OneSource.cases (sources : stream.OneSource) :
    stream.source = none ∧ stream.opened = [] ∨
      ∃ source, stream.source = some source.id ∧ stream.opened = [source] := by
  unfold OneSource at sources
  cases current : stream.source with
  | none => exact .inl ⟨rfl, by simpa [current] using sources⟩
  | some id =>
      obtain ⟨source, single, same⟩ := List.map_eq_singleton_iff.mp
        (show stream.opened.map EventSource.id = [id] by simpa [current] using sources)
      exact .inr ⟨source, by rw [same], single⟩

theorem OneSource.opened_disconnect (sources : stream.OneSource) :
    stream.disconnect.opened = [] := by
  rcases sources.cases with ⟨none, empty⟩ | ⟨source, some, single⟩
  · simp [disconnect, none, empty]
  · simp [disconnect, close, some, single]

/-- A disconnect is about sources and timers. -/
theorem disconnect_eq : stream.disconnect = { stream with
    opened := stream.disconnect.opened
    source := none
    trimTimer := false
    reconnectTimer := false } := by
  unfold disconnect
  cases stream.source <;> rfl

theorem OneSource.connect_eq (sources : stream.OneSource) :
    connect composable stream =
      if composable.ready stream.target then { stream with
        created := stream.created + 1
        opened := [{
          id := stream.created + 1
          service := stream.target.service
          fromMs := stream.now - stream.target.windowMs }]
        source := some (stream.created + 1)
        trimTimer := true
        reconnectTimer := false }
      else { stream with
        opened := []
        source := none
        trimTimer := false
        reconnectTimer := false } := by
  rw [connect, disconnect_eq, sources.opened_disconnect]
  rfl

namespace Follows

/-- A new connection takes over what is shown. -/
theorem connect (sources : stream.OneSource) (mounted : stream.mounted = true)
    (shows : composable.history.ShowsFrom stream.series stream.received stream.cutoff) :
    Follows composable (connect composable stream) := by
  rw [sources.connect_eq]
  cases ready : composable.ready stream.target with
  | true =>
      refine ⟨rfl, fun _ => ⟨rfl, by simp⟩, fun unwanted => ?_, shows, ?_, ?_⟩
      · exact absurd ⟨mounted, ready⟩ unwanted
      · simp
      · simp
  | false =>
      refine ⟨rfl, fun wanted => ?_, fun _ => ⟨rfl, rfl, rfl⟩, shows, ?_, ?_⟩
      · exact absurd (ready.symm.trans wanted.2) nofun
      · simp
      · simp

theorem wanted_of_source (follows : Follows composable stream) {id : Nat}
    (current : stream.source = some id) : stream.Wanted composable := by
  by_contra unwanted
  cases current.symm.trans (follows.unwanted unwanted).1

/-- An event comes from the current source. -/
theorem of_event (follows : Follows composable stream) {holds : EventSource → Bool}
    (comes : stream.opened.any holds = true) :
    ∃ source, stream.source = some source.id ∧ stream.opened = [source] ∧ holds source = true := by
  rcases follows.sources.cases with ⟨-, empty⟩ | ⟨source, current, single⟩
  · simp [empty] at comes
  · exact ⟨source, current, single, by simpa [single] using comes⟩

theorem trim (follows : Follows composable stream) :
    Follows composable (MetricsStream.trim composable stream) := by
  unfold MetricsStream.trim
  split
  · exact follows
  · refine ⟨follows.sources, follows.wanted, follows.unwanted, follows.shows.trim _,
      follows.asked, ?_⟩
    intro source member isLive
    obtain ⟨received, started, within⟩ := follows.live source member isLive
    exact ⟨received, started.trans (le_max_left _ _), max_le within le_rfl⟩

theorem elapse (follows : Follows composable stream) (ms : Nat) :
    Follows composable { stream with now := stream.now + ms } := by
  have later : stream.now - stream.target.windowMs ≤ stream.now + ms - stream.target.windowMs := by
    omega
  refine ⟨follows.sources, follows.wanted, follows.unwanted, follows.shows, ?_, ?_⟩
  · intro source member
    obtain ⟨service, started⟩ := follows.asked source member
    exact ⟨service, started.trans later⟩
  · intro source member isLive
    obtain ⟨received, started, within⟩ := follows.live source member isLive
    exact ⟨received, started, within.trans later⟩

theorem onSnapshot (follows : Follows composable stream) {source : EventSource}
    (current : stream.source = some source.id) (single : stream.opened = [source])
    (data : snapshot) (resolution : MetricsResolution) :
    Follows composable (MetricsStream.onSnapshot composable stream source.id data resolution) := by
  have wanted := follows.wanted_of_source current
  have windowed := composable.windowed _ wanted.2
  simp only [MetricsStream.onSnapshot, MetricsStream.trim, if_neg windowed, single, max_self]
  refine ⟨?_, follows.wanted, follows.unwanted, LiveHistory.ShowsFrom.replace _ _, ?_, ?_⟩
  · simp [OneSource, current]
  · simpa using follows.asked source (by simp [single])
  · simpa using (follows.asked source (by simp [single])).2

theorem onAppend (follows : Follows composable stream) {source : EventSource}
    (current : stream.source = some source.id) (single : stream.opened = [source])
    (isLive : source.live = true) (data : append) :
    Follows composable (MetricsStream.onAppend composable stream data) := by
  have wanted := follows.wanted_of_source current
  have windowed := composable.windowed _ wanted.2
  obtain ⟨some, started, within⟩ := follows.live source (by simp [single]) isLive
  obtain ⟨⟨opening, appends⟩, received⟩ := Option.isSome_iff_exists.mp some
  simp only [MetricsStream.onAppend, MetricsStream.trim, if_neg windowed, max_eq_right within,
    received]
  refine ⟨follows.sources, follows.wanted, follows.unwanted, ?_, follows.asked, ?_⟩
  · exact LiveHistory.ShowsFrom.extend (received ▸ follows.shows) within data
  · simp [single, started.trans within]

/-- The source is given up and one reconnect is scheduled. -/
theorem reconnect_eq (follows : Follows composable stream) {source : EventSource}
    (current : stream.source = some source.id) (single : stream.opened = [source]) :
    MetricsStream.reconnect composable stream source.id =
      { stream with opened := [], source := none, reconnectTimer := true } := by
  have wanted := follows.wanted_of_source current
  have idle : stream.reconnectTimer = false := by
    cases timer : stream.reconnectTimer with
    | false => rfl
    | true => cases current.symm.trans ((follows.wanted wanted).2.mp timer)
  simp [MetricsStream.reconnect, close, current, single, wanted.2, idle]

theorem reconnect (follows : Follows composable stream) {source : EventSource}
    (current : stream.source = some source.id) (single : stream.opened = [source]) :
    Follows composable (MetricsStream.reconnect composable stream source.id) := by
  have wanted := follows.wanted_of_source current
  rw [follows.reconnect_eq current single]
  refine ⟨rfl, fun _ => ⟨(follows.wanted wanted).1, by simp⟩,
    fun unwanted => absurd wanted unwanted, follows.shows, ?_, ?_⟩
  · simp
  · simp

theorem unmount (follows : Follows composable stream) :
    Follows composable { stream.disconnect with mounted := false } := by
  rw [disconnect_eq, follows.sources.opened_disconnect]
  refine ⟨rfl, fun wanted => (nomatch wanted.1), fun _ => ⟨rfl, rfl, rfl⟩, follows.shows, ?_, ?_⟩
  · simp
  · simp

theorem step (follows : Follows composable stream) {action : StreamAction snapshot append}
    (taken : stream.step composable action = some after) : Follows composable after := by
  cases action with
  | elapse ms =>
      cases taken
      exact follows.elapse ms
  | setTarget target =>
      simp only [MetricsStream.step] at taken
      split at taken
      · cases taken
      · next mounted =>
          split at taken
          · cases taken
            exact follows
          · cases taken
            exact Follows.connect follows.sources (by simpa using mounted) follows.shows
  | snapshot id data resolution =>
      simp only [MetricsStream.step] at taken
      split at taken
      · next comes =>
          cases taken
          obtain ⟨source, current, single, same⟩ := follows.of_event comes
          cases of_decide_eq_true same
          exact follows.onSnapshot current single data resolution
      · cases taken
  | append id data =>
      simp only [MetricsStream.step] at taken
      split at taken
      · next comes =>
          cases taken
          obtain ⟨source, current, single, same⟩ := follows.of_event comes
          exact follows.onAppend current single (of_decide_eq_true same).2 data
      · cases taken
  | error id =>
      simp only [MetricsStream.step] at taken
      split at taken
      · next comes =>
          obtain ⟨source, current, single, -⟩ := follows.of_event comes
          rw [current] at taken
          cases taken
          exact follows.reconnect current single
      · cases taken
  | trimTick =>
      simp only [MetricsStream.step] at taken
      split at taken
      · cases taken
        exact follows.trim
      · cases taken
  | reconnectTick =>
      simp only [MetricsStream.step] at taken
      split at taken
      · next scheduled =>
          cases taken
          have wanted : stream.Wanted composable := by
            by_contra unwanted
            cases scheduled.symm.trans (follows.unwanted unwanted).2.2
          exact Follows.connect follows.sources wanted.1 follows.shows
      · cases taken
  | unmount =>
      simp only [MetricsStream.step] at taken
      split at taken
      · cases taken
        exact follows.unmount
      · cases taken

end Follows

/-- Nothing has come and nothing is shown. -/
theorem follows_setup (now : Int) (target : StreamTarget) :
    Follows composable (setup composable now target) := by
  refine Follows.connect rfl rfl fun key => ?_
  simp [LiveHistory.feed, composable.view_empty]

theorem follows_of_reachable {now : Int} {target : StreamTarget}
    (reached : (metricsStream composable now target).Reachable Machine.anyStep stream) :
    Follows composable stream :=
  reached.invariant (Follows composable) (follows_setup now target)
    fun follows _ taken => follows.step taken

end MetricsStream

open MetricsStream

/-- The histories of the host, of the services and of one service stay true to what the server
sends, and none of them leaks or loses its connection. A service that is named like a member of
every object is left out. -/
theorem live_histories_follow (now : Int) (target : StreamTarget) :
    (∀ stream,
      (metricsStream useHostMetricsStream now target).Reachable Machine.anyStep stream →
        Follows useHostMetricsStream stream) ∧
    (∀ stream,
      (metricsStream useContainersMetricsStream now target).Reachable Machine.anyStep stream →
        Follows useContainersMetricsStream stream) ∧
    (∀ stream,
      (metricsStream useContainerMetricsStream now target).Reachable Machine.anyStep stream →
        Follows useContainerMetricsStream stream) :=
  ⟨fun _ => follows_of_reachable, fun _ => follows_of_reachable, fun _ => follows_of_reachable⟩

def lastMinute : StreamTarget := { service := "shop", windowMs := 60000, active := true }

def hostPointAt (ts : Int) : HostPoint :=
  ⟨ts, 0, 0, 0, 0, 0, none, none, none, none, none, none⟩

def containerPointAt (ts : Int) : ContainerPoint := ⟨ts, "shop", 0, 0, none, none, none, none⟩

/-- The connection fails, and what is shown is trimmed until the next one brings its snapshot. -/
def hostFails : List (StreamAction (List HostPoint) HostPoint) := [
  .snapshot 1 [hostPointAt 50000, hostPointAt 60000] .tenSeconds, .append 1 (hostPointAt 70000),
  .elapse 10000, .error 1, .trimTick, .reconnectTick]

theorem shop_own : "shop" ∉ inheritedMembers := by decide

theorem web_own : "web" ∉ inheritedMembers := by decide

theorem container_own : "000000000001" ∉ inheritedMembers := by decide

def serviceStarts :
    List (StreamAction (Record OwnKey (List GroupPoint)) (List (OwnKey × GroupPoint))) := [
  .snapshot 1 [(⟨"shop", shop_own⟩, [{ ts := 60000 }])] .tenSeconds,
  .append 1 [(⟨"web", web_own⟩, { ts := 70000 }), (⟨"shop", shop_own⟩, { ts := 70000 })]]

def containerStops : List (StreamAction ContainerHistory ContainerHistoryAppend) := [
  .snapshot 1 { sum := [{ ts := 60000 }] } .tenSeconds,
  .append 1 {
    sum := some { ts := 70000 }
    containers := [(⟨"000000000001", container_own⟩, containerPointAt 70000)] },
  .unmount]

theorem live_histories_follow_minute : ∃ host services service,
    Follows useHostMetricsStream host ∧ Follows useContainersMetricsStream services ∧
      Follows useContainerMetricsStream service ∧
      host.series.map HostPoint.ts = [60000, 70000] ∧ host.source = some 2 ∧
      (services.series.series ⟨"web", web_own⟩).map GroupPoint.ts = [70000] ∧
      service.series.sum.map GroupPoint.ts = [60000, 70000] := by
  obtain ⟨follows, followsServices, followsService⟩ := live_histories_follow 110000 lastMinute
  have failed : ((metricsStream useHostMetricsStream 110000 lastMinute).run (fun _ _ => true)
      (.setup useHostMetricsStream 110000 lastMinute) hostFails).map
      (fun stream => (stream.series.map HostPoint.ts, stream.source)) =
        some ([60000, 70000], some 2) := by
    decide +kernel
  have started : ((metricsStream useContainersMetricsStream 110000 lastMinute).run
      (fun _ _ => true) (.setup useContainersMetricsStream 110000 lastMinute) serviceStarts).map
      (fun stream => (stream.series.series ⟨"web", web_own⟩).map GroupPoint.ts) =
        some [70000] := by
    decide +kernel
  have stopped : ((metricsStream useContainerMetricsStream 110000 lastMinute).run
      (fun _ _ => true) (.setup useContainerMetricsStream 110000 lastMinute) containerStops).map
      (fun stream => stream.series.sum.map GroupPoint.ts) = some [60000, 70000] := by
    decide +kernel
  obtain ⟨host, takenHost, shownHost⟩ := Option.map_eq_some_iff.mp failed
  obtain ⟨services, takenServices, shownServices⟩ := Option.map_eq_some_iff.mp started
  obtain ⟨service, takenService, shownService⟩ := Option.map_eq_some_iff.mp stopped
  obtain ⟨points, source⟩ := Prod.mk.inj shownHost
  exact ⟨host, services, service, follows host (.of_run hostFails takenHost),
    followsServices services (.of_run serviceStarts takenServices),
    followsService service (.of_run containerStops takenService), points, source, shownServices,
    shownService⟩

end Vpsiner.Frontend
