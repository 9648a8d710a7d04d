import Vpsiner.Docker.ObservedContainers

/-! What the events tell about the observed containers. -/

set_option autoImplicit false

namespace Vpsiner.Docker

open Lib

namespace Observation

variable {state after : Observation} {action : ObservationAction}

/-- What a step can do. -/
inductive Step (state : Observation) : Observation → Prop where
  | probe (connected : Bool) : Step state { state with connected }
  | beginUpdate (idle : state.update = .idle) : Step state { state with update := .listing }
  | toIdle (silent : state.update = .idle ∨ state.update = .listing ∨ state.update = .sending []) :
      Step state { state with update := .idle }
  | listRunning (order : HashOrder) (listing : List ObservedContainer)
      (phase : state.update = .listing) :
      Step state { state with
        observed := (updateObservedContainers order state.observed listing).1
        update := .sending (updateObservedContainers order state.observed listing).2 }
  | sendEvent {event : ContainerObserveEvent} {rest : List ContainerObserveEvent}
      (phase : state.update = .sending (event :: rest)) :
      Step state { state.trySend event with update := .sending rest }
  | receiveEvent {event : ContainerObserveEvent} {rest : List ContainerObserveEvent}
      (observer : ObserverPhase) (phase : state.observer = .waiting)
      (queued : state.queue = event :: rest) (next : observer = .waiting ∨ observer = .woken) :
      Step state { state with queue := rest, received := state.received ++ [event], observer }
  | timeout (phase : state.observer = .waiting) : Step state { state with observer := .woken }
  | readObserved (order : HashOrder) (phase : state.observer = .woken) :
      Step state { state with
        observer := .retaining (order.arrange state.observed.rows) (order.arrange state.tasks.rows)
        lastRunning := order.arrange state.observed.rows
        lastAlive := [] }
  | skipCycle (phase : state.observer = .woken) : Step state { state with observer := .waiting }
  | dropTask {running : List ObservedContainer} {entry : TaskEntry} {rest : List TaskEntry}
      (phase : state.observer = .retaining running (entry :: rest))
      (finished : state.finished entry.handle = true) :
      Step state { state with
        tasks := state.tasks.eraseWhere (· = entry)
        observer := .retaining running rest }
  | keepTask {running : List ObservedContainer} {entry : TaskEntry} {rest : List TaskEntry}
      (phase : state.observer = .retaining running (entry :: rest))
      (unfinished : state.finished entry.handle = false) :
      Step state { state with
        lastAlive := state.lastAlive ++ [entry.handle]
        observer := .retaining running rest }
  | retained {running : List ObservedContainer} (phase : state.observer = .retaining running []) :
      Step state { state with observer := .spawning running }
  | skipSpawn {container : ObservedContainer} {rest : List ObservedContainer}
      (phase : state.observer = .spawning (container :: rest))
      (present : (state.tasks.find? container.id).isSome = true) :
      Step state { state with observer := .spawning rest }
  | spawnTask {container : ObservedContainer} {rest : List ObservedContainer}
      (phase : state.observer = .spawning (container :: rest))
      (absent : state.tasks.find? container.id = none) :
      Step state { state.spawn container with observer := .spawning rest }
  | spawnedAll (phase : state.observer = .spawning []) :
      Step state { state with observer := .waiting }
  | finishTask {handle : Nat} {task : LogTask} (found : state.spawned[handle]? = some task) :
      Step state { state with spawned := state.spawned.set handle { task with finished := true } }

theorem step_cases (taken : state.step action = some after) : Step state after := by
  cases action with
  | probe connected =>
      cases taken
      exact .probe connected
  | beginUpdate =>
      simp only [step] at taken
      split at taken
      · next idle =>
          cases taken
          split
          · exact .beginUpdate idle
          · exact .toIdle (.inl idle)
      · cases taken
  | listRunning order listing =>
      simp only [step] at taken
      split at taken
      · next phase =>
          cases taken
          exact .listRunning order _ phase
      · next phase =>
          cases taken
          exact .toIdle (.inr (.inl phase))
      · cases taken
  | sendEvent =>
      simp only [step] at taken
      split at taken
      · next phase =>
          cases taken
          exact .sendEvent phase
      · next phase =>
          cases taken
          exact .toIdle (.inr (.inr phase))
      · cases taken
  | receiveEvent =>
      simp only [step] at taken
      split at taken
      · next phase _ queued =>
          cases taken
          apply Step.receiveEvent _ phase queued
          split
          · exact .inr rfl
          · exact .inl rfl
      · cases taken
  | timeout =>
      simp only [step] at taken
      split at taken
      · next phase =>
          cases taken
          exact .timeout phase
      · cases taken
  | readObserved order =>
      simp only [step] at taken
      split at taken
      · next phase =>
          split at taken
          · cases taken
            exact .readObserved order phase
          · cases taken
            exact .skipCycle phase
      · cases taken
  | retainTask =>
      simp only [step] at taken
      split at taken
      · next phase =>
          split at taken
          · next finished =>
              cases taken
              exact .dropTask phase finished
          · next unfinished =>
              cases taken
              exact .keepTask phase (Bool.eq_false_iff.mpr unfinished)
      · next phase =>
          cases taken
          exact .retained phase
      · cases taken
  | spawnTask =>
      simp only [step] at taken
      split at taken
      · next phase =>
          split at taken
          · next present =>
              cases taken
              exact .skipSpawn phase present
          · next absent =>
              cases taken
              exact .spawnTask phase (by simpa using absent)
      · next phase =>
          cases taken
          exact .spawnedAll phase
      · cases taken
  | finishTask handle =>
      simp only [step] at taken
      split at taken
      · next found =>
          split at taken
          · cases taken
          · cases taken
            exact .finishTask found
      · cases taken

/-! ## The events -/

/-- The events of an update that are still to be sent. -/
def pending (state : Observation) : List ContainerObserveEvent :=
  match state.update with
  | .sending events => events
  | _ => []

/-- All that has happened to the observed containers. -/
def log (state : Observation) : List (Change ObservedContainer) :=
  (state.sent.map Prod.fst ++ state.pending).map ContainerObserveEvent.change

/-- The events that the channel took. -/
def delivered (state : Observation) : List ContainerObserveEvent :=
  (state.sent.filter Prod.snd).map Prod.fst

structure EventsTell (state : Observation) : Prop where
  truthful : Change.Truthful ObservedContainer.fullId state.log
  told : Change.replay ObservedContainer.fullId state.log = state.observed.find?
  delivered : state.delivered = state.received ++ state.queue
  bounded : state.queue.length ≤ state.capacity

theorem changes_updateObservedContainers (order : HashOrder) (observed : ObservedContainers)
    (listing : List ObservedContainer) :
    (updateObservedContainers order observed listing).2.map ContainerObserveEvent.change =
      (reconcile order observed (indexByKey ObservedContainer.fullId listing)).changes := by
  simp [updateObservedContainers, Reconciled.changes, Function.comp_def,
    ContainerObserveEvent.change]

theorem log_of_pending {before after : Observation} (sent : after.sent = before.sent)
    (pending : after.pending = before.pending) : after.log = before.log := by
  simp [log, sent, pending]

theorem log_trySend {event : ContainerObserveEvent} {rest : List ContainerObserveEvent}
    (phase : state.update = .sending (event :: rest)) :
    ({ state.trySend event with update := .sending rest } : Observation).log = state.log := by
  unfold trySend
  split <;> simp [log, pending, phase]

theorem EventsTell.trySend (inv : EventsTell state) {event : ContainerObserveEvent}
    {rest : List ContainerObserveEvent} (phase : state.update = .sending (event :: rest)) :
    EventsTell { state.trySend event with update := .sending rest } := by
  have log := log_trySend phase
  have delivered := inv.delivered
  unfold Observation.trySend at log ⊢
  split at log
  · next room =>
      rw [if_pos room]
      refine ⟨log ▸ inv.truthful, log ▸ inv.told, ?_, ?_⟩
      · simp only [Observation.delivered] at delivered ⊢
        simp [delivered]
      · simpa using Nat.succ_le_of_lt room
  · next full =>
      rw [if_neg full]
      refine ⟨log ▸ inv.truthful, log ▸ inv.told, ?_, inv.bounded⟩
      simp only [Observation.delivered] at delivered ⊢
      simp [delivered]

theorem EventsTell.listRunning (inv : EventsTell state) (order : HashOrder)
    (listing : List ObservedContainer) (phase : state.update = .listing) :
    EventsTell { state with
      observed := (updateObservedContainers order state.observed listing).1
      update := .sending (updateObservedContainers order state.observed listing).2 } := by
  have before : state.log = (state.sent.map Prod.fst).map ContainerObserveEvent.change := by
    simp [log, pending, phase]
  obtain ⟨truthful, told⟩ := inv.truthful.reconcile inv.told order
    (indexByKey ObservedContainer.fullId listing)
  rw [← changes_updateObservedContainers, before, ← List.map_append] at truthful told
  exact ⟨truthful, told, inv.delivered, inv.bounded⟩

/-- What the events tell does not depend on the other parts. -/
theorem EventsTell.of_same {before after : Observation} (inv : EventsTell before)
    (sent : after.sent = before.sent) (pending : after.pending = before.pending)
    (observed : after.observed = before.observed)
    (delivered : after.received ++ after.queue = before.received ++ before.queue)
    (bounded : after.queue.length ≤ after.capacity) : EventsTell after := by
  have log := log_of_pending sent pending
  refine ⟨log ▸ inv.truthful, ?_, ?_, bounded⟩
  · rw [log, observed]
    exact inv.told
  · rw [delivered, ← inv.delivered]
    simp [Observation.delivered, sent]

theorem EventsTell.step (inv : EventsTell state) (taken : Step state after) : EventsTell after := by
  cases taken with
  | listRunning order listing phase => exact inv.listRunning order listing phase
  | sendEvent phase => exact inv.trySend phase
  | beginUpdate idle =>
      exact inv.of_same rfl (by simp [pending, idle]) rfl rfl inv.bounded
  | toIdle silent =>
      refine inv.of_same rfl ?_ rfl rfl inv.bounded
      rcases silent with phase | phase | phase <;> simp [pending, phase]
  | receiveEvent observer phase queued =>
      have bounded := inv.bounded
      rw [queued] at bounded
      refine inv.of_same rfl rfl rfl (by simp [queued]) ?_
      exact (Nat.le_succ _).trans bounded
  | _ => exact inv.of_same rfl rfl rfl rfl inv.bounded

theorem eventsTell_reachable {capacity : Nat} {streaming : Bool}
    (reached : (containerObservation capacity streaming).Reachable Machine.anyStep state) :
    EventsTell state := by
  apply reached.invariant EventsTell
  · exact ⟨.nil, rfl, rfl, Nat.zero_le _⟩
  · exact fun inv _ taken => inv.step (step_cases taken)

/-- The events tell which containers are observed and with which record; as long as the channel
took all of them, so do those that were received with those that wait in it. -/
theorem events_tell_observed {capacity : Nat} {streaming : Bool}
    (reached : (containerObservation capacity streaming).Reachable Machine.anyStep state) :
    EventsTell state ∧
      (state.pending = [] → (∀ sent ∈ state.sent, sent.2 = true) →
        Change.replay ObservedContainer.fullId
            ((state.received ++ state.queue).map ContainerObserveEvent.change) =
          state.observed.find?) := by
  have inv := eventsTell_reachable reached
  refine ⟨inv, fun idle taken => ?_⟩
  have all : state.delivered = state.sent.map Prod.fst := by
    rw [delivered, List.filter_eq_self.mpr taken]
  have told := inv.told
  simp only [log, idle, List.append_nil] at told
  rw [← inv.delivered, all, told]

theorem events_tell_observed_stopped : ∃ state : Observation,
    state.queue.map ContainerObserveEvent.action = [.start, .stop] ∧ EventsTell state := by
  have ran : ((containerObservation 2 true).run (fun _ _ => true)
      (containerObservation 2 true).start
      [.beginUpdate, .listRunning .unchanged (some [⟨⟨1⟩, "1", "web", "web"⟩]), .sendEvent,
        .sendEvent, .beginUpdate, .listRunning .unchanged (some []), .sendEvent]).map
      (fun state => state.queue.map ContainerObserveEvent.action) = some [.start, .stop] := by
    decide
  obtain ⟨state, taken, read⟩ := Option.map_eq_some_iff.mp ran
  exact ⟨state, read, (events_tell_observed (.of_run _ taken)).1⟩

end Observation

end Vpsiner.Docker
