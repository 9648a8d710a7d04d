import Mathlib.Data.String.Basic
import Vpsiner.Lib.Machine
import Vpsiner.Lib.Reconcile
import Vpsiner.Model.Basic

/-! The containers whose logs and stats are collected: the worker that keeps the list of them, the
bounded channel on which it says what changed, and the log observer with its tasks. -/

set_option autoImplicit false

namespace Vpsiner.Docker

open Lib

structure ObservedContainer where
  id : ContainerId
  fullId : String
  name : String
  service : String
deriving DecidableEq, Repr

inductive ContainerObserveAction where
  | start
  | stop
deriving DecidableEq, Repr

structure ContainerObserveEvent where
  action : ContainerObserveAction
  container : ObservedContainer
deriving DecidableEq, Repr

def ContainerObserveEvent.change (event : ContainerObserveEvent) : Change ObservedContainer :=
  match event.action with
  | .start => .appeared event.container
  | .stop => .vanished event.container

abbrev ObservedContainers := KeyedTable ObservedContainer.fullId

/-- The part of `update_observed_containers_now` under the lock, and the events sent after it. -/
def updateObservedContainers (order : HashOrder) (observed : ObservedContainers)
    (listing : List ObservedContainer) : ObservedContainers × List ContainerObserveEvent :=
  let result := reconcile order observed (indexByKey ObservedContainer.fullId listing)
  (result.held, result.appeared.map (⟨.start, ·⟩) ++ result.vanished.map (⟨.stop, ·⟩))

inductive UpdatePhase where
  | idle
  /-- `list_running_containers` is on its way. -/
  | listing
  | sending (events : List ContainerObserveEvent)
deriving DecidableEq, Repr

structure LogTask where
  container : ObservedContainer
  finished : Bool := false
deriving DecidableEq, Repr

/-- A task of the map, by the place of its handle among all tasks ever spawned. -/
structure TaskEntry where
  id : ContainerId
  handle : Nat
deriving DecidableEq, Repr

inductive ObserverPhase where
  /-- Waits for a start event or for the interval to pass. -/
  | waiting
  | woken
  /-- Goes through the tasks, dropping those that are finished. -/
  | retaining (running : List ObservedContainer) (unchecked : List TaskEntry)
  | spawning (running : List ObservedContainer)
deriving DecidableEq, Repr

/-- `sent` are the events ever handed to the channel and whether it took them, `received` those
taken from it, `lastRunning` what the observer last read of the observed containers, and
`lastAlive` the tasks it has since found running or spawned. The program keeps none of them. -/
structure Observation where
  capacity : Nat
  connected : Bool := true
  observed : ObservedContainers := .empty
  update : UpdatePhase := .idle
  queue : List ContainerObserveEvent := []
  /-- `take_observe_events_stream` gave the stream. -/
  streaming : Bool := true
  observer : ObserverPhase := .waiting
  spawned : List LogTask := []
  tasks : KeyedTable TaskEntry.id := .empty
  sent : List (ContainerObserveEvent × Bool) := []
  received : List ContainerObserveEvent := []
  lastRunning : List ObservedContainer := []
  lastAlive : List Nat := []

inductive ObservationAction where
  /-- The Docker probe stores what it found. -/
  | probe (connected : Bool)
  | beginUpdate
  | listRunning (order : HashOrder) (listing : Option (List ObservedContainer))
  | sendEvent
  | receiveEvent
  | timeout
  | readObserved (order : HashOrder)
  | retainTask
  | spawnTask
  /-- A log task returns: its stream has ended, or it could not be started. -/
  | finishTask (handle : Nat)

namespace Observation

variable (state : Observation)

def finished (handle : Nat) : Bool := (state.spawned[handle]?).all LogTask.finished

/-- `try_send`, whose failure is only logged. -/
def trySend (event : ContainerObserveEvent) : Observation :=
  if state.queue.length < state.capacity then
    { state with queue := state.queue ++ [event], sent := state.sent ++ [(event, true)] }
  else { state with sent := state.sent ++ [(event, false)] }

def spawn (container : ObservedContainer) : Observation :=
  { state with
    spawned := state.spawned ++ [{ container }]
    tasks := state.tasks.upsert ⟨container.id, state.spawned.length⟩
    lastAlive := state.lastAlive ++ [state.spawned.length] }

def step : ObservationAction → Option Observation
  | .probe connected => some { state with connected }
  | .beginUpdate =>
      match state.update with
      | .idle => some { state with update := if state.connected then .listing else .idle }
      | _ => none
  | .listRunning order listing =>
      match state.update, listing with
      | .listing, some listing =>
          let (observed, events) := updateObservedContainers order state.observed listing
          some { state with observed, update := .sending events }
      | .listing, none => some { state with update := .idle }
      | _, _ => none
  | .sendEvent =>
      match state.update with
      | .sending (event :: rest) => some { state.trySend event with update := .sending rest }
      | .sending [] => some { state with update := .idle }
      | _ => none
  | .receiveEvent =>
      match state.observer, state.streaming, state.queue with
      | .waiting, true, event :: rest =>
          some { state with
            queue := rest
            received := state.received ++ [event]
            observer := if event.action = .start then .woken else .waiting }
      | _, _, _ => none
  | .timeout =>
      match state.observer with
      | .waiting => some { state with observer := .woken }
      | _ => none
  | .readObserved order =>
      match state.observer with
      | .woken =>
          if state.connected then
            let running := order.arrange state.observed.rows
            some { state with
              observer := .retaining running (order.arrange state.tasks.rows)
              lastRunning := running
              lastAlive := [] }
          else some { state with observer := .waiting }
      | _ => none
  | .retainTask =>
      match state.observer with
      | .retaining running (entry :: rest) =>
          if state.finished entry.handle then
            some { state with
              tasks := state.tasks.eraseWhere (· = entry)
              observer := .retaining running rest }
          else some { state with
            lastAlive := state.lastAlive ++ [entry.handle]
            observer := .retaining running rest }
      | .retaining running [] => some { state with observer := .spawning running }
      | _ => none
  | .spawnTask =>
      match state.observer with
      | .spawning (container :: rest) =>
          if (state.tasks.find? container.id).isSome then
            some { state with observer := .spawning rest }
          else some { state.spawn container with observer := .spawning rest }
      | .spawning [] => some { state with observer := .waiting }
      | _ => none
  | .finishTask handle =>
      match state.spawned[handle]? with
      | some task =>
          if task.finished then none
          else some { state with spawned := state.spawned.set handle { task with finished := true } }
      | none => none

end Observation

def containerObservation (capacity : Nat) (streaming : Bool) :
    Machine Observation ObservationAction where
  start := { capacity, streaming }
  step := Observation.step

end Vpsiner.Docker
