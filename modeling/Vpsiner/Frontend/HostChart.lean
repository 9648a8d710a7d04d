import Vpsiner.Api.HostStream
import Vpsiner.Frontend.MetricsStreams

/-! The chart of the host from the collector to the browser: the store and its stream, the events
on their way, and the page that opens, loses and reopens its connection. -/

set_option autoImplicit false

namespace Vpsiner.Frontend

open Lib Api Metrics

inductive HostEvent where
  | snapshot (points : List HostPoint) (resolution : MetricsResolution)
  | append (point : HostPoint)
deriving DecidableEq

/-- The request of a source and, once it is accepted, what the server sent on it. -/
structure HostLink where
  id : Nat
  fromMs : Int
  accepted : Bool := false
  inFlight : List HostEvent := []
deriving DecidableEq

abbrev HostHistory := MetricsStream (List HostPoint) (List HostPoint) HostPoint

structure HostChart where
  server : HostStreamSystem
  browser : HostHistory
  link : Option HostLink := none

inductive HostChartAction where
  | server (action : HostStreamAction)
  | browser (action : StreamAction (List HostPoint) HostPoint)
  /-- The request reaches the server, whose clock is its own. -/
  | accept (now : Int)
  | deliver
  /-- The connection fails or is refused. -/
  | lose

namespace HostChart

/-- What a step of the stream puts on the wire. -/
def sentBy (action : HostStreamAction) (before after : HostStreamSystem) : List HostEvent :=
  match action, before.connection, after.connection with
  | .snapshot, _, some connection => [.snapshot connection.sent connection.resolution]
  | .query, some earlier, some connection =>
      (connection.sent.drop earlier.sent.length).map .append
  | _, _, _ => []

/-- A source that is closed takes its connection with it, and a new one makes its request. -/
def follow (chart : HostChart) (browser : HostHistory) : HostChart :=
  if browser.source = chart.browser.source then { chart with browser }
  else {
    browser
    server := { chart.server with connection := none }
    link := browser.opened.head?.map fun source => { id := source.id, fromMs := source.fromMs } }

def serve (search : PartitionPoint) (chart : HostChart) (action : HostStreamAction) :
    Option HostChart := do
  let server ← chart.server.step search action
  some { chart with
    server
    link := chart.link.map fun link =>
      { link with inFlight := link.inFlight ++ sentBy action chart.server server } }

def accept (chart : HostChart) (now : Int) : Option HostChart := do
  let link ← chart.link
  if link.accepted then none
  else
    let server ← chart.server.connect link.fromMs now
    some { chart with server, link := some { link with accepted := true } }

def deliver (chart : HostChart) : Option HostChart := do
  let link ← chart.link
  match link.inFlight with
  | [] => none
  | event :: rest =>
      let browser ← chart.browser.step useHostMetricsStream <| match event with
        | .snapshot points resolution => .snapshot link.id points resolution
        | .append point => .append link.id point
      some { chart with browser, link := some { link with inFlight := rest } }

/-- The events of the browser come from the link only, and so do the connections of the server. -/
def step (search : PartitionPoint) (chart : HostChart) : HostChartAction → Option HostChart
  | .server (.connect _ _) | .server .disconnect => none
  | .server action => serve search chart action
  | .browser (.snapshot _ _ _) | .browser (.append _ _) | .browser (.error _) => none
  | .browser action => do
      let browser ← chart.browser.step useHostMetricsStream action
      some (chart.follow browser)
  | .accept now => chart.accept now
  | .deliver => chart.deliver
  | .lose => do
      let link ← chart.link
      let browser ← chart.browser.step useHostMetricsStream (.error link.id)
      some (chart.follow browser)

end HostChart

def hostChart (search : PartitionPoint) (maxGapPct : Nat) (now : Int) :
    Machine HostChart HostChartAction where
  start := {
    server := (hostStream search maxGapPct).start
    browser := .setup useHostMetricsStream now {} }
  step := HostChart.step search

end Vpsiner.Frontend
