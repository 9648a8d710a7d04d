import Vpsiner.Lib.Machine
import Vpsiner.Metadata.Services

/-! Concurrent calls of the service registry. Between two of its awaits a call runs
undisturbed; whoever holds the lifecycle lock waits for one statement, which takes effect
some time before the call goes on. -/

set_option autoImplicit false

namespace Vpsiner

def ServicesTable.pairs (table : ServicesTable) : List (String × ServiceId) :=
  table.rows.map fun row => (row.name, ⟨UInt32.ofNat row.sid⟩)

namespace Metadata

open Lib

inductive RegistryCall where
  | idOf (name : String) (now : Int)
  | reclaimBefore (cutoffMs : Int)
deriving DecidableEq, Repr

/-- What the call that holds the lock is waiting for, or has been answered. -/
inductive Holder where
  | touching (name : String) (sid : ServiceId) (now : Int)
  | touched (name : String) (sid : ServiceId)
  | resolving (name : String) (now : Int)
  | resolved (name : String) (sid : ServiceId) (now : Int)
  | deleting (cutoffMs : Int)
  | deleted (sids : List ServiceId)
deriving DecidableEq, Repr

/-- The calls that have returned a value. -/
inductive RegistryReturn where
  | idOf (name : String) (sid : ServiceId)
  | reclaimed (sids : List ServiceId)
deriving DecidableEq, Repr

/-- `returns` and `assigned` are history: the answers given, and the rows ever stored. -/
structure RegistryRun where
  registry : ServiceRegistry
  waiting : List RegistryCall
  holder : Option Holder
  returns : List RegistryReturn
  assigned : List (String × ServiceId)

inductive RegistryAction where
  | call (call : RegistryCall)
  | acquire (index : Nat)
  | statement (failure : Option String)
  | resume
deriving DecidableEq, Repr

namespace RegistryRun

def answer (run : RegistryRun) (value : RegistryReturn) : RegistryRun :=
  { run with returns := run.returns ++ [value] }

def release (run : RegistryRun) : RegistryRun := { run with holder := none }

/-- A call begins on the fast path and queues for the lock when that gives nothing. -/
def call (run : RegistryRun) (request : RegistryCall) : RegistryRun :=
  match request with
  | .idOf name now =>
      match run.registry.inner.freshCachedId name now with
      | some sid => run.answer (.idOf name sid)
      | none => { run with waiting := run.waiting ++ [request] }
  | .reclaimBefore _ => { run with waiting := run.waiting ++ [request] }

/-- A waiting call gets the lock and runs up to its statement. -/
def acquire (run : RegistryRun) (index : Nat) : Option RegistryRun :=
  match run.holder, run.waiting[index]? with
  | none, some request =>
      let run := { run with waiting := run.waiting.eraseIdx index }
      match request with
      | .idOf name now =>
          match ServiceRegistry.lookup run.registry.inner name now with
          | .done sid => some (run.answer (.idOf name sid))
          | .touches sid marked =>
              some { run with
                registry := ⟨run.registry.store, marked⟩
                holder := some (.touching name sid now) }
          | .resolves => some { run with holder := some (.resolving name now) }
      | .reclaimBefore cutoffMs => some { run with holder := some (.deleting cutoffMs) }
  | _, _ => none

/-- The statement takes effect, or fails and with it the call. -/
def statement (run : RegistryRun) (failure : Option String) : Option RegistryRun :=
  match run.holder, failure with
  | some (.touching name sid now), none =>
      some { run with
        registry := ⟨run.registry.store.touchService sid now, run.registry.inner⟩
        holder := some (.touched name sid) }
  | some (.resolving name now), none =>
      let (store, result) := run.registry.store.resolveService name now
      let run := { run with
        registry := ⟨store, run.registry.inner⟩
        assigned := run.assigned ++ store.pairs }
      match result with
      | .ok sid => some { run with holder := some (.resolved name sid now) }
      | .error _ => some run.release
  | some (.deleting cutoffMs), none =>
      let (store, result) := run.registry.store.deleteServicesBefore cutoffMs
      let run := { run with registry := ⟨store, run.registry.inner⟩ }
      match result with
      | .ok sids => some { run with holder := some (.deleted sids) }
      | .error _ => some run.release
  | some (.touching ..), some _ => some run.release
  | some (.resolving ..), some _ => some run.release
  | some (.deleting _), some _ => some run.release
  | _, _ => none

/-- The call goes on after its statement and gives up the lock. -/
def resume (run : RegistryRun) : Option RegistryRun :=
  match run.holder with
  | some (.touched name sid) => some (run.release.answer (.idOf name sid))
  | some (.resolved name sid now) =>
      let inner := run.registry.inner.resolved name sid now
      some (({ run with registry := ⟨run.registry.store, inner⟩ } : RegistryRun).release.answer
        (.idOf name sid))
  | some (.deleted sids) =>
      let inner := run.registry.inner.forget sids
      some (({ run with registry := ⟨run.registry.store, inner⟩ } : RegistryRun).release.answer
        (.reclaimed sids))
  | _ => none

def step (run : RegistryRun) : RegistryAction → Option RegistryRun
  | .call request => some (run.call request)
  | .acquire index => run.acquire index
  | .statement failure => run.statement failure
  | .resume => run.resume

end RegistryRun

def registryMachine (registry : ServiceRegistry) : Machine RegistryRun RegistryAction where
  start := ⟨registry, [], none, [], registry.store.pairs⟩
  step := RegistryRun.step

end Metadata

end Vpsiner
