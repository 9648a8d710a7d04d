import Mathlib.Logic.Basic

/-! State machines with labelled, possibly disabled steps, and the induction rule for
their runs. -/

set_option autoImplicit false

namespace Vpsiner.Lib

universe u v

structure Machine (σ : Type) (α : Type u) where
  start : σ
  step : σ → α → Option σ

namespace Machine

variable {σ : Type} {α : Type u}

/-- States of the runs in which every step was allowed where it was taken. -/
inductive Reachable (machine : Machine σ α) (allowed : σ → α → Prop) : σ → Prop where
  | start : Reachable machine allowed machine.start
  | step {before after : σ} (reached : Reachable machine allowed before) (action : α)
      (permitted : allowed before action) (taken : machine.step before action = some after) :
      Reachable machine allowed after

def anyStep (_ : σ) (_ : α) : Prop := True

variable {machine : Machine σ α} {allowed : σ → α → Prop}

/-- What holds at the start and survives every allowed step holds throughout. -/
theorem Reachable.invariant (inv : σ → Prop) (initial : inv machine.start)
    (preserved : ∀ {before after : σ} {action : α}, inv before → allowed before action →
      machine.step before action = some after → inv after)
    {state : σ} (reached : machine.Reachable allowed state) : inv state := by
  induction reached with
  | start => exact initial
  | step _ _ permitted taken ih => exact preserved ih permitted taken

/-- The same machine, once it has come as far as this state. -/
def startingAt (machine : Machine σ α) (state : σ) : Machine σ α := { machine with start := state }

theorem Reachable.trans {earlier later : σ} (reached : machine.Reachable allowed earlier)
    (continued : (machine.startingAt earlier).Reachable allowed later) :
    machine.Reachable allowed later := by
  induction continued with
  | start => exact reached
  | step _ action permitted taken ih => exact ih.step action permitted taken

/-- The state after a list of actions, each of them checked before it is taken. -/
def run (machine : Machine σ α) (check : σ → α → Bool) (state : σ) (actions : List α) :
    Option σ :=
  actions.foldlM (fun state action => if check state action then machine.step state action else none)
    state

theorem Reachable.run {check : σ → α → Bool}
    (sound : ∀ state action, check state action = true → allowed state action)
    {state after : σ} {actions : List α} (reached : machine.Reachable allowed state)
    (taken : machine.run check state actions = some after) : machine.Reachable allowed after := by
  induction actions generalizing state with
  | nil =>
      cases taken
      exact reached
  | cons action rest ih =>
      rw [Machine.run, List.foldlM_cons] at taken
      obtain ⟨next, first, later⟩ := Option.bind_eq_some_iff.mp taken
      split at first
      · next checked => exact ih (reached.step action (sound state action checked) first) later
      · cases first

theorem Reachable.of_run {after : σ} (actions : List α)
    (taken : machine.run (fun _ _ => true) machine.start actions = some after) :
    machine.Reachable anyStep after :=
  Reachable.start.run (fun _ _ _ => trivial) taken

def via {β : Type v} (machine : Machine σ α) (translate : β → α) : Machine σ β where
  start := machine.start
  step state action := machine.step state (translate action)

theorem Reachable.of_via {β : Type v} {translate : β → α} {permitted : σ → β → Prop} {state : σ}
    (reached : (machine.via translate).Reachable permitted state) :
    machine.Reachable anyStep state := by
  induction reached with
  | start => exact .start
  | step _ action _ taken ih => exact ih.step (translate action) trivial taken

/-! ## Runs with their actions -/

/-- The runs with the actions they took. -/
inductive Trace (machine : Machine σ α) (allowed : σ → α → Prop) : List α → σ → Prop where
  | start : Trace machine allowed [] machine.start
  | step {actions : List α} {before after : σ} (traced : Trace machine allowed actions before)
      (action : α) (permitted : allowed before action)
      (taken : machine.step before action = some after) :
      Trace machine allowed (actions ++ [action]) after

theorem Trace.reachable {actions : List α} {state : σ} (traced : machine.Trace allowed actions state) :
    machine.Reachable allowed state := by
  induction traced with
  | start => exact .start
  | step _ action permitted taken ih => exact ih.step action permitted taken

theorem Trace.run {check : σ → α → Bool}
    (sound : ∀ state action, check state action = true → allowed state action)
    {earlier : List α} {state after : σ} {actions : List α}
    (traced : machine.Trace allowed earlier state)
    (taken : machine.run check state actions = some after) :
    machine.Trace allowed (earlier ++ actions) after := by
  induction actions generalizing earlier state with
  | nil =>
      cases taken
      rwa [List.append_nil]
  | cons action rest ih =>
      rw [Machine.run, List.foldlM_cons] at taken
      obtain ⟨next, first, later⟩ := Option.bind_eq_some_iff.mp taken
      split at first
      · next checked =>
          have traced := ih (traced.step action (sound state action checked) first) later
          rwa [List.append_assoc, List.singleton_append] at traced
      · cases first

end Machine

end Vpsiner.Lib
