import Mathlib.Logic.Function.Basic
import Vpsiner.Lib.Coalescing
import Vpsiner.Lib.Machine

/-! The two workers that refresh the container registry, and everyone who asks them to. -/

set_option autoImplicit false

namespace Vpsiner.Docker

open Lib

inductive RegistryWorker where
  | observedUpdate
  | containersInfoUpdate
deriving DecidableEq, Repr

inductive UpdateOutcome where
  /-- Docker is not reachable. -/
  | skipped
  | failed
  | updated
deriving DecidableEq, Repr

/-- `held` says whether anyone but a worker in its update still has the registry. -/
structure ContainerRegistry where
  held : Bool := true
  workers : RegistryWorker → Coalescer := fun _ => {}

inductive RegistryAction where
  | request (worker : RegistryWorker)
  | receive (worker : RegistryWorker)
  | wake (worker : RegistryWorker)
  | drain (worker : RegistryWorker)
  | start (worker : RegistryWorker)
  | finish (worker : RegistryWorker) (outcome : UpdateOutcome)
  | drop
deriving DecidableEq, Repr

namespace ContainerRegistry

variable (registry : ContainerRegistry)

/-- `Weak::upgrade` succeeds. -/
def alive : Bool :=
  registry.held || (registry.workers .observedUpdate).phase = .updating ||
    (registry.workers .containersInfoUpdate).phase = .updating

def set (worker : RegistryWorker) (state : Coalescer) : ContainerRegistry :=
  { registry with workers := Function.update registry.workers worker state }

def request (worker : RegistryWorker) : ContainerRegistry :=
  registry.set worker (registry.workers worker).request

/-- An update of the observed containers asks for the containers info once it is through. -/
def step : RegistryAction → Option ContainerRegistry
  | .request worker => if registry.held then some (registry.request worker) else none
  | .receive worker =>
      if registry.alive ∨ (registry.workers worker).token then
        (registry.workers worker).receive.map (registry.set worker)
      else (registry.workers worker).stop.map (registry.set worker)
  | .wake worker => (registry.workers worker).wake.map (registry.set worker)
  | .drain worker => (registry.workers worker).drain.map (registry.set worker)
  | .start worker =>
      if registry.alive then (registry.workers worker).start.map (registry.set worker)
      else (registry.workers worker).stop.map (registry.set worker)
  | .finish worker outcome =>
      let registry := match worker, outcome with
        | .observedUpdate, .updated => registry.request .containersInfoUpdate
        | _, _ => registry
      (registry.workers worker).finish.map (registry.set worker)
  | .drop => some { registry with held := false }

end ContainerRegistry

def containerRegistry : Machine ContainerRegistry RegistryAction where
  start := {}
  step := ContainerRegistry.step

namespace ContainerRegistry

variable {registry after : ContainerRegistry} {action : RegistryAction}

@[simp] theorem set_same (registry : ContainerRegistry) (worker : RegistryWorker)
    (state : Coalescer) : (registry.set worker state).workers worker = state :=
  Function.update_self ..

theorem set_other {worker other : RegistryWorker} (different : other ≠ worker)
    (state : Coalescer) : (registry.set worker state).workers other = registry.workers other :=
  Function.update_of_ne different ..

/-- Requests are covered, and a worker ends only once the registry is gone. -/
structure RegistryInv (registry : ContainerRegistry) : Prop where
  covered : ∀ worker, (registry.workers worker).Covered
  runs : ∀ worker, (registry.workers worker).phase = .stopped → registry.alive = false

theorem alive_eq_false_iff : registry.alive = false ↔
    registry.held = false ∧ ∀ worker, (registry.workers worker).phase ≠ .updating := by
  unfold alive
  rw [Bool.or_eq_false_iff, Bool.or_eq_false_iff, decide_eq_false_iff_not,
    decide_eq_false_iff_not, and_assoc]
  refine and_congr_right fun _ => ⟨fun idle worker => ?_, fun idle => ⟨idle _, idle _⟩⟩
  cases worker with
  | observedUpdate => exact idle.1
  | containersInfoUpdate => exact idle.2

theorem RegistryInv.set (inv : RegistryInv registry) {worker : RegistryWorker} {state : Coalescer}
    (covered : state.Covered) (runs : state.phase = .stopped → registry.alive = false)
    (idle : registry.alive = false → state.phase ≠ .updating) :
    RegistryInv (registry.set worker state) := by
  have gone : registry.alive = false → (registry.set worker state).alive = false := by
    intro dead
    obtain ⟨dropped, others⟩ := alive_eq_false_iff.mp dead
    refine alive_eq_false_iff.mpr ⟨dropped, fun other => ?_⟩
    by_cases same : other = worker
    · rw [same, set_same]
      exact idle dead
    · rw [set_other same]
      exact others other
  constructor
  · intro other
    by_cases same : other = worker
    · rw [same, set_same]
      exact covered
    · rw [set_other same]
      exact inv.covered other
  · intro other stopped
    by_cases same : other = worker
    · rw [same, set_same] at stopped
      exact gone (runs stopped)
    · rw [set_other same] at stopped
      exact gone (inv.runs other stopped)

theorem RegistryInv.request (inv : RegistryInv registry) (worker : RegistryWorker) :
    RegistryInv (registry.request worker) :=
  inv.set (.request _) (inv.runs worker)
    fun dead => (alive_eq_false_iff.mp dead).2 worker

/-- A worker goes on to a phase that is neither an update nor its end. -/
theorem RegistryInv.move (inv : RegistryInv registry) {worker : RegistryWorker}
    {moved : Option Coalescer} (taken : moved.map (registry.set worker) = some after)
    (covered : ∀ state, moved = some state → state.Covered)
    (phase : ∀ state, moved = some state → state.phase ≠ .stopped ∧ state.phase ≠ .updating) :
    RegistryInv after := by
  obtain ⟨state, made, rfl⟩ := Option.map_eq_some_iff.mp taken
  obtain ⟨running, idle⟩ := phase state made
  exact inv.set (covered state made) (fun stopped => absurd stopped running) fun _ => idle

theorem RegistryInv.stop (inv : RegistryInv registry) {worker : RegistryWorker}
    (dead : registry.alive = false)
    (taken : (registry.workers worker).stop.map (registry.set worker) = some after) :
    RegistryInv after := by
  obtain ⟨state, made, rfl⟩ := Option.map_eq_some_iff.mp taken
  refine inv.set (.stop made) (fun _ => dead) fun _ => ?_
  unfold Coalescer.stop at made
  split at made
  · cases made
    exact fun other => by cases other
  · cases made

theorem RegistryInv.drop (inv : RegistryInv registry) :
    RegistryInv { registry with held := false } where
  covered := inv.covered
  runs worker stopped := by
    obtain ⟨_, idle⟩ := alive_eq_false_iff.mp (inv.runs worker stopped)
    exact alive_eq_false_iff.mpr ⟨rfl, idle⟩

theorem RegistryInv.finish (inv : RegistryInv registry) {worker : RegistryWorker}
    (taken : (registry.workers worker).finish.map (registry.set worker) = some after) :
    RegistryInv after := by
  refine inv.move taken (fun state made => (inv.covered worker).finish made) fun state made => ?_
  rw [Coalescer.finish_phase made]
  exact ⟨by decide, by decide⟩

theorem RegistryInv.step (inv : RegistryInv registry) (taken : registry.step action = some after) :
    RegistryInv after := by
  cases action with
  | request worker =>
      dsimp only [ContainerRegistry.step] at taken
      split at taken
      · cases taken
        exact inv.request worker
      · cases taken
  | receive worker =>
      dsimp only [ContainerRegistry.step] at taken
      split at taken
      · refine inv.move taken (fun state made => .receive made) fun state made => ?_
        rw [Coalescer.receive_phase made]
        exact ⟨by decide, by decide⟩
      · next closed => exact inv.stop (Bool.eq_false_iff.mpr (not_or.mp closed).1) taken
  | wake worker =>
      refine inv.move taken (fun state made => .wake made) fun state made => ?_
      rw [Coalescer.wake_phase made]
      exact ⟨by decide, by decide⟩
  | drain worker =>
      refine inv.move taken (fun state made => .drain made) fun state made => ?_
      rcases Coalescer.drain_phase made with phase | phase
      · rw [phase]
        exact ⟨by decide, by decide⟩
      · rw [phase]
        exact ⟨by decide, by decide⟩
  | start worker =>
      dsimp only [ContainerRegistry.step] at taken
      split at taken
      · next alive =>
          obtain ⟨state, made, rfl⟩ := Option.map_eq_some_iff.mp taken
          refine inv.set (.start made) (fun stopped => ?_) fun dead => ?_
          · rw [Coalescer.start_phase made] at stopped
            cases stopped
          · rw [alive] at dead
            cases dead
      · next dead => exact inv.stop (Bool.eq_false_iff.mpr dead) taken
  | finish worker outcome =>
      dsimp only [ContainerRegistry.step] at taken
      split at taken
      · exact (inv.request .containersInfoUpdate).finish taken
      · exact inv.finish taken
  | drop =>
      cases taken
      exact inv.drop

/-- As long as the registry is there, a request made after the last update started has left a
token or the worker has taken one; a worker on an empty channel has served all requests. -/
structure NeverLoses (registry : ContainerRegistry) (worker : RegistryWorker) : Prop where
  covered : registry.alive = true → (registry.workers worker).Pending →
    (registry.workers worker).token = true ∨ (registry.workers worker).Taken
  awake : (registry.workers worker).phase = .receiving → (registry.workers worker).token = false →
    ¬ (registry.workers worker).Pending

theorem requests_never_lost (worker : RegistryWorker)
    (reached : containerRegistry.Reachable Machine.anyStep registry) :
    registry.NeverLoses worker := by
  have inv : RegistryInv registry := by
    refine reached.invariant RegistryInv ⟨fun _ => Coalescer.covered_new, fun _ stopped => ?_⟩
      fun inv _ taken => inv.step taken
    cases stopped
  refine ⟨fun alive pending => ?_, (inv.covered worker).not_pending⟩
  rcases inv.covered worker pending with token | busy | stopped
  · exact .inl token
  · exact .inr busy
  · rw [inv.runs worker stopped] at alive
    cases alive

/-- A request during an update leaves a token for the next one. -/
theorem requests_never_lost_updating : ∃ registry : ContainerRegistry,
    (registry.workers .observedUpdate).Pending ∧ registry.NeverLoses .observedUpdate := by
  have served : (containerRegistry.run (fun _ _ => true) containerRegistry.start
      [.request .observedUpdate, .receive .observedUpdate, .request .observedUpdate,
        .wake .observedUpdate, .drain .observedUpdate, .drain .observedUpdate,
        .start .observedUpdate, .request .observedUpdate,
        .finish .observedUpdate .updated]).map (fun registry => registry.workers .observedUpdate) =
      some ⟨true, .receiving, 3, 2⟩ := by decide
  obtain ⟨registry, taken, state⟩ := Option.map_eq_some_iff.mp served
  refine ⟨registry, ?_, requests_never_lost .observedUpdate (.of_run _ taken)⟩
  rw [state]
  exact Nat.lt_succ_self 2

end ContainerRegistry

end Vpsiner.Docker
