import Vpsiner.Lib.LiveHistory
import Vpsiner.Lib.Machine
import Vpsiner.Model.Metrics

/-! The three live histories of the browser. They share one life cycle (connect, follow, trim,
reconnect) and differ in what an event carries and in when there is something to follow. -/

set_option autoImplicit false

namespace Vpsiner.Frontend

open Lib

/-- The refs that are watched. -/
structure StreamTarget where
  service : String := ""
  windowMs : Nat := 0
  active : Bool := false
deriving DecidableEq, Repr

structure MetricsComposable (κ : Type) (point : κ → Type) (shown snapshot append : Type) where
  history : LiveHistory κ point shown snapshot append
  empty : shown
  view_empty : ∀ key, history.view empty key = []
  ready : StreamTarget → Bool
  windowed : ∀ target, ready target = true → target.windowMs ≠ 0

/-- An `EventSource` that is not closed. -/
structure EventSource where
  id : Nat
  service : String
  fromMs : Int
  /-- Its snapshot has come. -/
  live : Bool := false
deriving DecidableEq, Repr

/-- `received` and `cutoff` are no data of the program: the last snapshot with the appends that
followed it, and the highest cutoff they were trimmed at. -/
structure MetricsStream (shown snapshot append : Type) where
  series : shown
  resolution : Option MetricsResolution := none
  /-- `Date.now()`. -/
  now : Int
  target : StreamTarget
  mounted : Bool := true
  created : Nat := 0
  opened : List EventSource := []
  source : Option Nat := none
  trimTimer : Bool := false
  reconnectTimer : Bool := false
  received : Option (snapshot × List append) := none
  cutoff : Int := 0

inductive StreamAction (snapshot append : Type) where
  | elapse (ms : Nat)
  | setTarget (target : StreamTarget)
  | snapshot (id : Nat) (data : snapshot) (resolution : MetricsResolution)
  | append (id : Nat) (data : append)
  | error (id : Nat)
  | trimTick
  | reconnectTick
  | unmount

namespace MetricsStream

variable {κ : Type} {point : κ → Type} {shown snapshot append : Type}

def trim (composable : MetricsComposable κ point shown snapshot append)
    (stream : MetricsStream shown snapshot append) : MetricsStream shown snapshot append :=
  if stream.target.windowMs = 0 then stream
  else
    let cutoff := stream.now - stream.target.windowMs
    { stream with
      series := composable.history.trim cutoff stream.series
      cutoff := max stream.cutoff cutoff }

def close (stream : MetricsStream shown snapshot append) (id : Nat) :
    MetricsStream shown snapshot append :=
  { stream with opened := stream.opened.filter fun source => source.id ≠ id }

def disconnect (stream : MetricsStream shown snapshot append) :
    MetricsStream shown snapshot append :=
  let stream := match stream.source with
    | none => stream
    | some id => stream.close id
  { stream with source := none, trimTimer := false, reconnectTimer := false }

def connect (composable : MetricsComposable κ point shown snapshot append)
    (stream : MetricsStream shown snapshot append) : MetricsStream shown snapshot append :=
  let stream := stream.disconnect
  if composable.ready stream.target then
    let id := stream.created + 1
    let fromMs := stream.now - stream.target.windowMs
    { stream with
      created := id
      opened := stream.opened ++ [{ id, service := stream.target.service, fromMs }]
      source := some id
      trimTimer := true }
  else stream

def reconnect (composable : MetricsComposable κ point shown snapshot append)
    (stream : MetricsStream shown snapshot append) (currentSource : Nat) :
    MetricsStream shown snapshot append :=
  let stream := stream.close currentSource
  let stream :=
    if stream.source = some currentSource then { stream with source := none } else stream
  if composable.ready stream.target = false ∨ stream.reconnectTimer = true then stream
  else { stream with reconnectTimer := true }

/-- The snapshot of a source replaces whatever is shown. -/
def onSnapshot (composable : MetricsComposable κ point shown snapshot append)
    (stream : MetricsStream shown snapshot append) (id : Nat) (data : snapshot)
    (resolution : MetricsResolution) : MetricsStream shown snapshot append :=
  let stream := trim composable { stream with
    series := composable.history.replace data
    received := some (data, [])
    cutoff := stream.now - stream.target.windowMs }
  { stream with
    resolution := some resolution
    opened := stream.opened.map fun source =>
      if source.id = id then { source with live := true } else source }

def onAppend (composable : MetricsComposable κ point shown snapshot append)
    (stream : MetricsStream shown snapshot append) (data : append) :
    MetricsStream shown snapshot append :=
  trim composable { stream with
    series := composable.history.extend stream.series data
    received := stream.received.map fun received => (received.1, received.2 ++ [data]) }

/-- Only a source that is not closed has events, and its first one is the snapshot. -/
def step (composable : MetricsComposable κ point shown snapshot append)
    (stream : MetricsStream shown snapshot append) :
    StreamAction snapshot append → Option (MetricsStream shown snapshot append)
  | .elapse ms => some { stream with now := stream.now + ms }
  | .setTarget target =>
      if stream.mounted = false then none
      else if target = stream.target then some stream
      else some (connect composable { stream with target })
  | .snapshot id data resolution =>
      if stream.opened.any fun source => source.id = id then
        some (onSnapshot composable stream id data resolution)
      else none
  | .append id data =>
      if stream.opened.any fun source => source.id = id ∧ source.live then
        some (onAppend composable stream data)
      else none
  | .error id =>
      if stream.opened.any fun source => source.id = id then
        match stream.source with
        | none => some stream
        | some current => some (reconnect composable stream current)
      else none
  | .trimTick => if stream.trimTimer then some (trim composable stream) else none
  | .reconnectTick =>
      if stream.reconnectTimer then
        some (connect composable { stream with reconnectTimer := false })
      else none
  | .unmount =>
      if stream.mounted then some { stream.disconnect with mounted := false } else none

/-- The watch is immediate. -/
def setup (composable : MetricsComposable κ point shown snapshot append) (now : Int)
    (target : StreamTarget) : MetricsStream shown snapshot append :=
  connect composable { series := composable.empty, now, target }

end MetricsStream

def metricsStream {κ : Type} {point : κ → Type} {shown snapshot append : Type}
    (composable : MetricsComposable κ point shown snapshot append) (now : Int)
    (target : StreamTarget) :
    Machine (MetricsStream shown snapshot append) (StreamAction snapshot append) where
  start := .setup composable now target
  step := MetricsStream.step composable

/-! ## The three histories -/

def useHostMetricsStream : MetricsComposable Unit (fun _ => HostPoint) (List HostPoint)
    (List HostPoint) HostPoint where
  history := {
    stamp := fun _ => HostPoint.ts
    view := fun points _ => points
    replace := id
    extend := fun points point => points ++ [point]
    trim := fun cutoff points => points.filter fun point => cutoff ≤ point.ts
    appended := fun point _ => [point]
    view_extend := fun _ _ _ => rfl
    view_trim := fun _ _ _ => rfl }
  empty := []
  view_empty := fun _ => rfl
  ready target := target.active && target.windowMs ≠ 0
  windowed := by simp

/-- What every object inherits, and what a reactive one answers itself. -/
def inheritedMembers : List String := [
  "constructor", "__proto__", "__defineGetter__", "__defineSetter__", "__lookupGetter__",
  "__lookupSetter__", "hasOwnProperty", "isPrototypeOf", "propertyIsEnumerable", "toString",
  "toLocaleString", "valueOf", "__v_skip", "__v_isReactive", "__v_isReadonly", "__v_isShallow",
  "__v_isRef", "__v_raw"]

/-- A key that is absent from an object until something is put there. Under any other name the
first append finds an inherited member instead of nothing, and throws. -/
structure OwnKey where
  name : String
  own : name ∉ inheritedMembers
deriving DecidableEq

/-- Every service has a series of its own. -/
def useContainersMetricsStream : MetricsComposable OwnKey (fun _ => GroupPoint)
    (Record OwnKey (List GroupPoint)) (Record OwnKey (List GroupPoint))
    (List (OwnKey × GroupPoint)) where
  history := {
    stamp := fun _ => GroupPoint.ts
    view := Record.series
    replace := id
    extend := fun series append => append.foldl Record.push series
    trim := fun cutoff => Record.mapValues (List.filter fun point => cutoff ≤ point.ts)
    appended := fun append service => (append.filter fun entry => entry.1 = service).map Prod.snd
    view_extend := fun series append service => Record.series_foldl_push append series service
    view_trim := fun _ series service => Record.series_mapValues_filter _ series service }
  empty := []
  view_empty := fun _ => rfl
  ready target := target.active && target.windowMs ≠ 0
  windowed := by simp

/-- `sum` and `containers`. -/
structure ContainerHistory where
  sum : List GroupPoint := []
  containers : Record OwnKey (List ContainerPoint) := []
deriving DecidableEq

structure ContainerHistoryAppend where
  sum : Option GroupPoint
  containers : List (OwnKey × ContainerPoint)
deriving DecidableEq

/-- The series of the sum has no container. -/
abbrev ContainerSeriesPoint : Option OwnKey → Type
  | none => GroupPoint
  | some _ => ContainerPoint

def useContainerMetricsStream : MetricsComposable (Option OwnKey) ContainerSeriesPoint
    ContainerHistory ContainerHistory ContainerHistoryAppend where
  history := {
    stamp
      | none => GroupPoint.ts
      | some _ => ContainerPoint.ts
    view
      | history, none => history.sum
      | history, some cid => history.containers.series cid
    replace := id
    extend := fun history append => {
      sum := match append.sum with
        | none => history.sum
        | some sum => history.sum ++ [sum]
      containers := append.containers.foldl Record.push history.containers }
    trim := fun cutoff history => {
      sum := history.sum.filter fun point => cutoff ≤ point.ts
      containers := history.containers.mapValues (List.filter fun point => cutoff ≤ point.ts) }
    appended
      | append, none => append.sum.toList
      | append, some cid => (append.containers.filter fun entry => entry.1 = cid).map Prod.snd
    view_extend
      | history, append, none => by cases added : append.sum <;> simp [added]
      | history, append, some cid => Record.series_foldl_push append.containers _ cid
    view_trim
      | _, _, none => rfl
      | _, history, some cid => Record.series_mapValues_filter _ history.containers cid }
  empty := {}
  view_empty
    | none => rfl
    | some _ => rfl
  ready target := target.active && target.service ≠ "" && target.windowMs ≠ 0
  windowed := by simp

end Vpsiner.Frontend
