import Vpsiner.Lib.Machine
import Vpsiner.Lib.Published
import Vpsiner.Metrics.HostSnapshot

/-! One browser that follows the current metrics: the two halves of the snapshot state, which are
written and announced independently, the connection of the stream, and the copy in the browser. -/

set_option autoImplicit false

namespace Vpsiner.Api

open Lib Metrics

structure MetricsSnapshot where
  host : Option CurrentHostPoint := none
  containers : ContainersSnapshot := ⟨[], []⟩

inductive CurrentEvent where
  | snapshot (snapshot : MetricsSnapshot)
  | host (host : Option CurrentHostPoint)
  | containers (containers : ContainersSnapshot)

/-- What the browser does with an event. -/
def MetricsSnapshot.apply (copy : MetricsSnapshot) : CurrentEvent → MetricsSnapshot
  | .snapshot snapshot => snapshot
  | .host host => { copy with host }
  | .containers containers => { copy with containers }

inductive CurrentPhase where
  /-- Has subscribed to the host and not yet to the containers. -/
  | subscribing
  | initial
  /-- The host half of the snapshot has been read, at this time. -/
  | snapshotting (host : Option CurrentHostPoint) (now : Int)
  | waiting
  | readingHost
  | readingContainers
deriving DecidableEq

/-- `inFlight` are the events the browser has still to receive; `hostReadAt` and
`containersReadAt` are no data of the program. -/
structure CurrentConnection where
  phase : CurrentPhase := .subscribing
  host : Follower HostState
  containers : Follower MetricsSnapshotState
  inFlight : List CurrentEvent := []
  hostReadAt : Int := 0
  containersReadAt : Int := 0

structure CurrentSystem where
  host : Published HostState
  containers : Published MetricsSnapshotState
  staleAfterMs : Int
  connection : Option CurrentConnection := none
  /-- What the browser shows. -/
  copy : MetricsSnapshot := {}

inductive CurrentAction where
  | recordHost (sample : HostRawSample)
  | announceHost
  | recordContainers (samples : List ContainerRawSample)
  | announceContainers
  | connect
  | subscribeContainers
  | readHost (now : Int)
  | readContainers (order : HashOrder) (now : Int)
  | wakeHost
  | wakeContainers
  | deliver
  /-- The connection ends with what is in flight. -/
  | disconnect

namespace CurrentSystem

def currentHost (system : CurrentSystem) (state : HostState) (now : Int) :
    Option CurrentHostPoint :=
  state.currentHostAt (now - system.staleAfterMs)

def readHost (system : CurrentSystem) (connection : CurrentConnection) (now : Int) :
    Option CurrentConnection :=
  let host := system.currentHost system.host.value now
  let read := { connection with host := connection.host.read system.host, hostReadAt := now }
  match connection.phase with
  | .initial => some { read with phase := .snapshotting host now }
  | .readingHost =>
      some { read with phase := .waiting, inFlight := connection.inFlight ++ [.host host] }
  | _ => none

/-- The two halves of the snapshot are read at one time. -/
def readContainers (system : CurrentSystem) (connection : CurrentConnection) (order : HashOrder)
    (now : Int) : Option CurrentConnection :=
  let readAt := fun now => { connection with
    phase := .waiting
    containers := connection.containers.read system.containers
    containersReadAt := now }
  match connection.phase with
  | .snapshotting host now =>
      let containers := system.containers.value.currentContainersAt order now
      some { readAt now with inFlight := connection.inFlight ++ [.snapshot { host, containers }] }
  | .readingContainers =>
      let containers := system.containers.value.currentContainersAt order now
      some { readAt now with inFlight := connection.inFlight ++ [.containers containers] }
  | _ => none

/-- `changed` of the receiver that was picked. -/
def wakeHost (system : CurrentSystem) (connection : CurrentConnection) :
    Option CurrentConnection :=
  match connection.phase with
  | .waiting =>
      if connection.host.hasChanged system.host then
        some { connection with phase := .readingHost, host := connection.host.wake system.host }
      else none
  | _ => none

def wakeContainers (system : CurrentSystem) (connection : CurrentConnection) :
    Option CurrentConnection :=
  match connection.phase with
  | .waiting =>
      if connection.containers.hasChanged system.containers then
        some { connection with
          phase := .readingContainers
          containers := connection.containers.wake system.containers }
      else none
  | _ => none

def subscribeContainers (system : CurrentSystem) (connection : CurrentConnection) :
    Option CurrentConnection :=
  match connection.phase with
  | .subscribing =>
      some { connection with phase := .initial, containers := .subscribe system.containers }
  | _ => none

/-- The connection does something of its own. -/
def poll (system : CurrentSystem) (connection : CurrentConnection) :
    CurrentAction → Option CurrentConnection
  | .subscribeContainers => system.subscribeContainers connection
  | .readHost now => system.readHost connection now
  | .readContainers order now => system.readContainers connection order now
  | .wakeHost => system.wakeHost connection
  | .wakeContainers => system.wakeContainers connection
  | _ => none

/-- Each half has one writer, which announces a sample before it records the next one. -/
def step (system : CurrentSystem) : CurrentAction → Option CurrentSystem
  | .recordHost sample =>
      if system.host.unannounced then none
      else some { system with host := system.host.write (system.host.value.recordHost sample) }
  | .announceHost =>
      if system.host.unannounced then some { system with host := system.host.announce } else none
  | .recordContainers samples =>
      if system.containers.unannounced then none
      else some { system with
        containers := system.containers.write (system.containers.value.recordContainers samples) }
  | .announceContainers =>
      if system.containers.unannounced then
        some { system with containers := system.containers.announce }
      else none
  | .connect =>
      if system.connection.isSome then none
      else some { system with connection := some {
        host := .subscribe system.host
        containers := .subscribe system.containers } }
  | .deliver =>
      match system.connection with
      | some connection =>
          match connection.inFlight with
          | event :: rest =>
              some { system with
                connection := some { connection with inFlight := rest }
                copy := system.copy.apply event }
          | [] => none
      | none => none
  | .disconnect => some { system with connection := none }
  | action => do
      let connection ← system.poll (← system.connection) action
      return { system with connection := some connection }

end CurrentSystem

def currentStream (services : ServiceNames) (collectIntervalMs : Int) :
    Machine CurrentSystem CurrentAction where
  start := {
    host := { value := {} }
    containers := { value := .new services collectIntervalMs }
    staleAfterMs := collectIntervalMs * staleIntervals }
  step := CurrentSystem.step

end Vpsiner.Api
