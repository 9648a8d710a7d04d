import Vpsiner.Logs.OperationLocks

/-! The connections to the week databases. An operation that holds the guard of a path takes the
cached pool or opens one; a janitor closes what was not used for a while, a deletion what it is
about to unlink, and the shutdown everything. -/

set_option autoImplicit false

namespace Vpsiner.Logs

open Lib

/-- What a cell holds. A cell is filled once, so it stands for its pool as well. -/
inductive CellState where
  | empty
  | opened
  | closed
deriving DecidableEq, Repr

structure PoolCell where
  path : String
  state : CellState := .empty
deriving DecidableEq, Repr

structure CachedPool where
  cell : Nat
  lastUsed : Nat
deriving DecidableEq, Repr

/-- The cell an operation has cloned, when it did, and whether it has got the pool. -/
structure PoolUse where
  cell : Nat
  since : Nat
  got : Bool := false
deriving DecidableEq, Repr

/-- `closing` are the cells whose entries were taken out of the map and are to be closed;
`shutdown` is no data of the program. -/
structure PoolCache where
  keepAlive : Nat
  now : Nat := 0
  locks : OperationLocks := {}
  entries : List (String × CachedPool) := []
  cells : Nat → Option PoolCell := fun _ => none
  nextCell : Nat := 0
  uses : Nat → Option PoolUse := fun _ => none
  closing : List Nat := []
  shutdown : Bool := false

inductive PoolAction where
  | elapse (ms : Nat)
  | lock (action : LockAction)
  | pool (id : Nat)
  | openDatabase (id : Nat)
  | sweep
  | closeAll
  | closeEntry (cell : Nat)
deriving DecidableEq, Repr

namespace PoolCache

def get (cache : PoolCache) (path : String) : Option CachedPool :=
  (cache.entries.find? fun entry => entry.1 = path).map Prod.snd

def remove (cache : PoolCache) (path : String) : PoolCache :=
  { cache with entries := cache.entries.filter fun entry => entry.1 ≠ path }

def insert (cache : PoolCache) (path : String) (cached : CachedPool) : PoolCache :=
  { cache with entries := (path, cached) :: (cache.remove path).entries }

def setCell (cache : PoolCache) (cell : Nat) (content : PoolCell) : PoolCache :=
  { cache with cells := Function.update cache.cells cell (some content) }

def setUse (cache : PoolCache) (id : Nat) (use : Option PoolUse) : PoolCache :=
  { cache with uses := Function.update cache.uses id use }

/-- `close_entry`: an empty cell has nothing to close. -/
def close (cache : PoolCache) (cell : Nat) : PoolCache :=
  match cache.cells cell with
  | some content =>
      if content.state = .opened then cache.setCell cell { content with state := .closed }
      else cache
  | none => cache

def evict (cache : PoolCache) (path : String) : PoolCache :=
  match cache.get path with
  | some cached => (cache.remove path).close cached.cell
  | none => cache

/-- The first half of `pool`, under the lock of the map. -/
def pool (cache : PoolCache) (id : Nat) (path : String) : PoolCache :=
  match cache.get path with
  | some cached =>
      (cache.insert path { cached with lastUsed := cache.now }).setUse id
        (some { cell := cached.cell, since := cache.now })
  | none =>
      (({ cache with nextCell := cache.nextCell + 1 }.setCell cache.nextCell { path }).insert path
        { cell := cache.nextCell, lastUsed := cache.now }).setUse id
          (some { cell := cache.nextCell, since := cache.now })

/-- `get_or_try_init`. An operation that cannot open the database ends without a pool. -/
def openDatabase (cache : PoolCache) (id : Nat) (use : PoolUse) : Option PoolCache := do
  let content ← cache.cells use.cell
  let opened := if content.state = .empty then { content with state := .opened } else content
  some ((cache.setCell use.cell opened).setUse id (some { use with got := true }))

def expired (cache : PoolCache) (entry : String × CachedPool) : Bool :=
  cache.keepAlive ≤ cache.now - entry.2.lastUsed

def sweep (cache : PoolCache) : PoolCache :=
  { cache with
    entries := cache.entries.filter fun entry => !cache.expired entry
    closing := cache.closing ++ (cache.entries.filter cache.expired).map fun entry => entry.2.cell }

def closeAll (cache : PoolCache) : PoolCache :=
  { cache with
    entries := []
    closing := cache.closing ++ cache.entries.map fun entry => entry.2.cell
    shutdown := true }

/-- What a task does to the pools when it moves on. -/
def moved (cache : PoolCache) : LockAction → PoolCache
  | .finish id | .cancel id => cache.setUse id none
  | .evict id =>
      match cache.locks.tasks id with
      | some task => cache.evict task.path
      | none => cache
  | _ => cache

def step (cache : PoolCache) : PoolAction → Option PoolCache
  | .elapse ms => some { cache with now := cache.now + ms }
  | .lock action => do
      let locks ← cache.locks.step action
      some { cache.moved action with locks }
  | .pool id => do
      let task ← cache.locks.tasks id
      match task.kind, task.phase, cache.uses id with
      | .append, .working _, none | .query, .working _, none => some (cache.pool id task.path)
      | _, _, _ => none
  | .openDatabase id => do
      let use ← cache.uses id
      if use.got then none else cache.openDatabase id use
  | .sweep => some cache.sweep
  | .closeAll => some cache.closeAll
  | .closeEntry cell =>
      if cell ∈ cache.closing then
        some { cache.close cell with closing := cache.closing.erase cell }
      else none

end PoolCache

def poolCache (keepAlive : Nat) : Machine PoolCache PoolAction where
  start := { keepAlive }
  step := PoolCache.step

end Vpsiner.Logs
