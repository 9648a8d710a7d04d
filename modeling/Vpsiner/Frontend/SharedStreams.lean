import Vpsiner.Api.Groups
import Vpsiner.Frontend.DiffStreams
import Vpsiner.Lib.SourcedStream

/-! The two collections that the pages of the browser share: the containers and the services, each
over one connection for all its consumers. The composables are alike but for the containers, which
are dropped while the backend cannot reach Docker. -/

set_option autoImplicit false

namespace Vpsiner.Frontend

open Lib Api Metrics Logs

/-! ## One shared stream -/

structure SharedComposable {κ ρ : Type} [LinearOrder κ] (key : ρ → κ) (γ ν ι : Type)
    (part : ι → Type) where
  view : ClientView key γ ν
  sources : Sources key ι part
  watchesDocker : Bool

/-- `dropped` is no data of the program: what the snapshot gave has been dropped since it came. -/
structure SharedStream {κ ρ : Type} [LinearOrder κ] (key : ρ → κ) (γ ν ι : Type)
    (part : ι → Type) where
  cells : ∀ i, Published (part i)
  consumers : Nat := 0
  source : Option (SourcedConnection key ι part) := none
  reconnectTimer : Bool := false
  copy : ClientCopy γ ν := fun _ => none
  loading : Bool := true
  dockerConnected : Bool := true
  dropped : Bool := false

inductive SharedAction (ι : Type) (part : ι → Type) where
  | write (i : ι) (value : part i)
  | announce (i : ι)
  /-- The server goes on with the connection. -/
  | server (action : ConnectionAction ι)
  | deliver
  /-- The source fails, with what is in flight. -/
  | error
  | reconnectTick
  | mount
  | unmount
  | docker (connected : Bool)

namespace SharedStream

variable {κ ρ γ ν ι : Type} [LinearOrder κ] [DecidableEq ρ] [DecidableEq γ] [DecidableEq ι]
  {key : ρ → κ} {part : ι → Type} (composable : SharedComposable key γ ν ι part)
  (stream : SharedStream key γ ν ι part)

/-- Whatever source there was is closed. -/
def connect : SharedStream key γ ν ι part :=
  { stream with
    source := some (.request composable.sources stream.cells)
    reconnectTimer := false
    dropped := false }

def deliver : Option (SharedStream key γ ν ι part) := do
  let connection ← stream.source
  match connection.inFlight with
  | [] => none
  | event :: rest =>
      some { stream with
        source := some { connection with
          delivered := connection.delivered ++ [event]
          inFlight := rest }
        copy := composable.view.apply stream.copy event
        loading := stream.loading && !event.isSnapshot }

def onerror : Option (SharedStream key γ ν ι part) :=
  if stream.source.isSome then
    some { stream with
      source := none
      reconnectTimer := stream.reconnectTimer || decide (0 < stream.consumers) }
  else none

def mount : SharedStream key γ ν ι part :=
  let stream := { stream with consumers := stream.consumers + 1 }
  if stream.consumers = 1 then stream.connect composable else stream

def unmount : Option (SharedStream key γ ν ι part) :=
  if stream.consumers = 0 then none
  else
    let stream := { stream with consumers := stream.consumers - 1 }
    if 0 < stream.consumers then some stream
    else some { stream with
      source := none
      reconnectTimer := false
      copy := fun _ => none
      loading := true }

/-- The watcher of `dockerConnected`. -/
def onDocker (connected : Bool) : SharedStream key γ ν ι part :=
  let stream := { stream with dockerConnected := connected }
  if !connected then
    { stream with
      copy := fun _ => none
      dropped := stream.source.any fun connection => !connection.delivered.isEmpty }
  else if 0 < stream.consumers then stream.connect composable
  else stream

def step : SharedAction ι part → Option (SharedStream key γ ν ι part)
  | .write i value =>
      some { stream with cells := Function.update stream.cells i ((stream.cells i).write value) }
  | .announce i =>
      some { stream with cells := Function.update stream.cells i (stream.cells i).announce }
  | .server action => do
      let connection ← (← stream.source).poll composable.sources stream.cells action
      return { stream with source := some connection }
  | .deliver => stream.deliver composable
  | .error => stream.onerror
  | .reconnectTick =>
      if stream.reconnectTimer then some (stream.connect composable) else none
  | .mount => some (stream.mount composable)
  | .unmount => stream.unmount
  | .docker connected =>
      if composable.watchesDocker ∧ connected ≠ stream.dockerConnected then
        some (stream.onDocker composable connected)
      else none

end SharedStream

def sharedStream {κ ρ γ ν ι : Type} [LinearOrder κ] [DecidableEq ρ] [DecidableEq γ] [DecidableEq ι]
    {key : ρ → κ} {part : ι → Type} (composable : SharedComposable key γ ν ι part)
    (cells : ∀ i, Published (part i)) :
    Machine (SharedStream key γ ν ι part) (SharedAction ι part) where
  start := { cells }
  step := SharedStream.step composable

/-! ## Containers -/

/-- The list of the registry, in which no id occurs twice. -/
abbrev ContainersInfo :=
  { containers : List ContainerSummary // (containers.map ContainerSummary.id).Nodup }

def containersSources : Sources ContainerSummary.id Unit fun _ => ContainersInfo where
  parts := [()]
  complete _ := List.mem_singleton.mpr rfl
  fallback _ := ⟨[], .nil⟩
  rows values := (values ()).1
  distinct values := (values ()).2

def useContainersStream :
    SharedComposable ContainerSummary.id String ContainerInfo Unit fun _ => ContainersInfo where
  view := containersById
  sources := containersSources
  watchesDocker := true

/-! ## Services -/

inductive GroupsPart where
  | stored
  | containers
deriving DecidableEq, Repr

/-- The rows of `log_checkpoints` with the names of the registry, and the list of containers. -/
def GroupsPart.Value : GroupsPart → Type
  | .stored => List LogCheckpointEntry × ServiceNames
  | .containers => List ContainerSummary

def currentGroups (values : ∀ i : GroupsPart, i.Value) : Services :=
  let (checkpoints, names) : List LogCheckpointEntry × ServiceNames := values .stored
  mergeServices (resolveWatermarks checkpoints names) (values .containers)

theorem unnamed {first second : ServiceId} {service : String}
    (named : none = some service) (_ : none = some service) : first = second := by
  cases named

/-- What is read of the registry when the watermarks cannot be read. -/
def unreadNames : ServiceNames := ⟨fun _ => none, unnamed⟩

def groupsSources :
    Sources (Prod.fst : String × ServiceStatus → String) GroupsPart GroupsPart.Value where
  parts := [.stored, .containers]
  complete i := by cases i <;> simp
  fallback
    | .stored => ([], unreadNames)
    | .containers => ([] : List ContainerSummary)
  rows values := (currentGroups values).rows
  distinct values := (currentGroups values).nodup_keys

def useServicesStream : SharedComposable (Prod.fst : String × ServiceStatus → String) String
    ServiceStatus GroupsPart GroupsPart.Value where
  view := services
  sources := groupsSources
  watchesDocker := false

end Vpsiner.Frontend
