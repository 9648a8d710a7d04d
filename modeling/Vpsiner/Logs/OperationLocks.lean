import Mathlib.Logic.Function.Basic
import Vpsiner.Lib.Machine

/-! The operation locks of the week databases. A task looks up the mutex of its path, queues
for it and works on the database while it holds the guard; a deletion takes the mutex out of
the map before it gives up its guard. -/

set_option autoImplicit false

namespace Vpsiner.Logs

open Lib

inductive OperationKind where
  | append
  | query
  | deleteBefore
deriving DecidableEq, Repr

/-- Where a task is, with the mutex it has cloned. -/
inductive LockPhase where
  | starting
  | cloned (lock : Nat)
  | queued (lock : Nat)
  | working (lock : Nat)
  /-- A deletion that has closed the pool of the path. -/
  | evicted (lock : Nat)
  /-- A deletion that has removed the file. -/
  | unlinked (lock : Nat)
deriving DecidableEq, Repr

namespace LockPhase

def lock? : LockPhase → Option Nat
  | starting => none
  | cloned lock | queued lock | working lock | evicted lock | unlinked lock => some lock

/-- The mutex whose guard the task holds. -/
def guard? : LockPhase → Option Nat
  | starting | cloned _ | queued _ => none
  | working lock | evicted lock | unlinked lock => some lock

end LockPhase

structure LockTask where
  kind : OperationKind
  path : String
  phase : LockPhase := .starting
deriving DecidableEq, Repr

/-- The map of mutexes, the tasks that wait for each mutex or hold it, first come first
served, and the tasks under way. -/
structure OperationLocks where
  locks : String → Option Nat := fun _ => none
  queues : Nat → List Nat := fun _ => []
  nextLock : Nat := 0
  tasks : Nat → Option LockTask := fun _ => none

inductive LockAction where
  | start (id : Nat) (kind : OperationKind) (path : String)
  | lookUp (id : Nat)
  | enqueue (id : Nat)
  | acquire (id : Nat)
  | finish (id : Nat)
  | evict (id : Nat)
  | removeFile (id : Nat) (succeeds : Bool)
  | forgetPath (id : Nat)
  | cancel (id : Nat)
deriving DecidableEq, Repr

namespace OperationLocks

variable (state : OperationLocks)

def setPhase (id : Nat) (task : LockTask) (phase : LockPhase) : OperationLocks :=
  { state with tasks := Function.update state.tasks id (some { task with phase }) }

/-- The task ends, and with it its guard or its place in the queue. -/
def leave (id : Nat) (task : LockTask) : OperationLocks :=
  { state with
    tasks := Function.update state.tasks id none
    queues := match task.phase.lock? with
      | some lock => Function.update state.queues lock ((state.queues lock).erase id)
      | none => state.queues }

/-- The mutex of the path, which is created when there is none. -/
def cloneLock (path : String) : OperationLocks × Nat :=
  match state.locks path with
  | some lock => (state, lock)
  | none =>
      ({ state with
        locks := Function.update state.locks path (some state.nextLock)
        nextLock := state.nextLock + 1 }, state.nextLock)

def lookUp (id : Nat) (task : LockTask) : OperationLocks :=
  let (state, lock) := state.cloneLock task.path
  state.setPhase id task (.cloned lock)

def enqueue (id : Nat) (task : LockTask) (lock : Nat) : OperationLocks :=
  { state.setPhase id task (.queued lock) with
    queues := Function.update state.queues lock (state.queues lock ++ [id]) }

/-- There is no await between the removal from the map and the drop of the guard. -/
def forgetPath (id : Nat) (task : LockTask) : OperationLocks :=
  { state.leave id task with locks := Function.update state.locks task.path none }

def step : LockAction → Option OperationLocks
  | .start id kind path =>
      match state.tasks id with
      | none => some { state with tasks := Function.update state.tasks id (some { kind, path }) }
      | some _ => none
  | .lookUp id => do
      let task ← state.tasks id
      match task.phase with
      | .starting => some (state.lookUp id task)
      | _ => none
  | .enqueue id => do
      let task ← state.tasks id
      match task.phase with
      | .cloned lock => some (state.enqueue id task lock)
      | _ => none
  | .acquire id => do
      let task ← state.tasks id
      match task.phase with
      | .queued lock =>
          if (state.queues lock).head? = some id then some (state.setPhase id task (.working lock))
          else none
      | _ => none
  | .finish id => do
      let task ← state.tasks id
      match task.kind, task.phase with
      | .append, .working _ => some (state.leave id task)
      | .query, .working _ => some (state.leave id task)
      | _, _ => none
  | .evict id => do
      let task ← state.tasks id
      match task.kind, task.phase with
      | .deleteBefore, .working lock => some (state.setPhase id task (.evicted lock))
      | _, _ => none
  | .removeFile id succeeds => do
      let task ← state.tasks id
      match task.phase with
      | .evicted lock =>
          some (if succeeds then state.setPhase id task (.unlinked lock) else state.leave id task)
      | _ => none
  | .forgetPath id => do
      let task ← state.tasks id
      match task.phase with
      | .unlinked _ => some (state.forgetPath id task)
      | _ => none
  | .cancel id => do
      let task ← state.tasks id
      some (state.leave id task)

end OperationLocks

def lockMachine : Machine OperationLocks LockAction where
  start := {}
  step := OperationLocks.step

end Vpsiner.Logs
