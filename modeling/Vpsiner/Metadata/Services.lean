import Mathlib.Algebra.Ring.Nat
import Vpsiner.Model.Basic
import Mathlib.Data.List.Nodup
import Mathlib.Logic.Function.Basic

/-! The dictionary of service names: its table in `metadata.db`, and the cache in front of
it, which is also what decides how often the table is told that a service is alive. -/

set_option autoImplicit false

namespace Vpsiner

structure ServiceRow where
  sid : Nat
  name : String
  lastSeenMs : Int
deriving DecidableEq, Repr

/-- `sequence` is the largest id that `AUTOINCREMENT` has issued. -/
structure ServicesTable where
  rows : List ServiceRow
  sequence : Nat
  sids : (rows.map ServiceRow.sid).Nodup
  names : (rows.map ServiceRow.name).Nodup
  issued : ∀ row ∈ rows, row.sid ≤ sequence

namespace Metadata

def storage (detail : String) : Fault := .error (.storage detail)

def serviceId (value : Nat) : AppResult ServiceId :=
  if value < 2 ^ 32 then .ok ⟨UInt32.ofNat value⟩
  else .error (storage "stored service id is outside u32 range")

end Metadata

namespace ServicesTable

open Metadata

def empty : ServicesTable := ⟨[], 0, .nil, .nil, fun _ member => by cases member⟩

def row? (table : ServicesTable) (name : String) : Option ServiceRow :=
  table.rows.find? fun row => row.name = name

/-- Rewrites the watermarks only. -/
def stamp (table : ServicesTable) (lastSeen : ServiceRow → Int) : ServicesTable where
  rows := table.rows.map fun row => { row with lastSeenMs := lastSeen row }
  sequence := table.sequence
  sids := by
    rw [List.map_map]
    exact table.sids
  names := by
    rw [List.map_map]
    exact table.names
  issued := by
    intro row member
    obtain ⟨old, present, rfl⟩ := List.mem_map.mp member
    exact table.issued old present

def insert (table : ServicesTable) (name : String) (nowMs : Int)
    (fresh : table.row? name = none) : ServicesTable where
  rows := table.rows ++ [⟨table.sequence + 1, name, nowMs⟩]
  sequence := table.sequence + 1
  sids := by
    rw [List.map_append, List.map_singleton, List.nodup_append]
    refine ⟨table.sids, List.nodup_singleton _, fun sid old new member same => ?_⟩
    obtain ⟨row, present, rfl⟩ := List.mem_map.mp old
    have bound := table.issued row present
    have next : row.sid = table.sequence + 1 := same.trans (List.mem_singleton.mp member)
    omega
  names := by
    rw [List.map_append, List.map_singleton, List.nodup_append]
    refine ⟨table.names, List.nodup_singleton _, fun other old new member same => ?_⟩
    obtain ⟨row, present, rfl⟩ := List.mem_map.mp old
    rw [List.mem_singleton.mp member] at same
    exact List.find?_eq_none.mp fresh row present (decide_eq_true same)
  issued := by
    intro row member
    cases List.mem_append.mp member with
    | inl old => exact (table.issued row old).trans (Nat.le_succ _)
    | inr new => rw [List.mem_singleton.mp new]

/-- `INSERT … ON CONFLICT(name) DO UPDATE … RETURNING sid`. -/
def resolveService (table : ServicesTable) (name : String) (nowMs : Int) :
    ServicesTable × AppResult ServiceId :=
  match found : table.row? name with
  | some row =>
      (table.stamp fun other =>
        if other.name = name then max other.lastSeenMs nowMs else other.lastSeenMs,
        serviceId row.sid)
  | none => (table.insert name nowMs found, serviceId (table.sequence + 1))

def touchService (table : ServicesTable) (sid : ServiceId) (nowMs : Int) : ServicesTable :=
  table.stamp fun row =>
    if row.sid = sid.raw.toNat ∧ row.lastSeenMs < nowMs then nowMs else row.lastSeenMs

/-- `DELETE … RETURNING sid`. -/
def deleteServicesBefore (table : ServicesTable) (cutoffMs : Int) :
    ServicesTable × AppResult (List ServiceId) where
  fst := {
    rows := table.rows.filter fun row => cutoffMs ≤ row.lastSeenMs
    sequence := table.sequence
    sids := table.sids.sublist (List.filter_sublist.map _)
    names := table.names.sublist (List.filter_sublist.map _)
    issued := fun row member => table.issued row (List.mem_filter.mp member).1 }
  snd := (table.rows.filter fun row => row.lastSeenMs < cutoffMs).mapM fun row =>
    serviceId row.sid

def listServices (table : ServicesTable) : AppResult (List (ServiceId × String)) :=
  table.rows.mapM fun row => return (← serviceId row.sid, row.name)

end ServicesTable

/-- How stale a watermark may get before another update is issued. -/
def touchIntervalMs : Int := 60 * 60 * 1000

/-- Upper bound on how far `last_seen_ms` can trail a service's real activity. -/
def maxWatermarkLagMs : Int := touchIntervalMs

structure Inner where
  byName : String → Option ServiceId
  byId : ServiceId → Option String
  touchedMs : ServiceId → Option Int

namespace Inner

def empty : Inner := ⟨fun _ => none, fun _ => none, fun _ => none⟩

def insertName (inner : Inner) (name : String) (sid : ServiceId) : Inner :=
  { inner with
    byName := Function.update inner.byName name (some sid)
    byId := Function.update inner.byId sid (some name) }

def cachedId (inner : Inner) (name : String) : Option ServiceId := inner.byName name

def freshCachedId (inner : Inner) (name : String) (now : Int) : Option ServiceId :=
  (inner.byName name).filter fun sid =>
    (inner.touchedMs sid).any fun last => decide (now - last < touchIntervalMs)

/-- The part of `touch` before the update: the mark, and whether an update is due. -/
def touch (inner : Inner) (sid : ServiceId) (now : Int) : Inner × Bool :=
  if (inner.touchedMs sid).any fun last => decide (now - last < touchIntervalMs) then
    (inner, false)
  else ({ inner with touchedMs := Function.update inner.touchedMs sid (some now) }, true)

def forgetOne (inner : Inner) (sid : ServiceId) : Inner :=
  let named := match inner.byId sid with
    | some name =>
        { inner with
          byName := Function.update inner.byName name none
          byId := Function.update inner.byId sid none }
    | none => inner
  { named with touchedMs := Function.update named.touchedMs sid none }

def forget (inner : Inner) (sids : List ServiceId) : Inner := sids.foldl forgetOne inner

/-- What `id_of` writes once the name is resolved. -/
def resolved (inner : Inner) (name : String) (sid : ServiceId) (now : Int) : Inner :=
  let named := inner.insertName name sid
  { named with touchedMs := Function.update named.touchedMs sid (some now) }

end Inner

/-- The registry next to the table it caches. -/
structure ServiceRegistry where
  store : ServicesTable
  inner : Inner

namespace ServiceRegistry

open Metadata

/-- Nothing is marked as touched after a start. -/
def load (store : ServicesTable) : AppResult ServiceRegistry :=
  store.listServices.map fun services =>
    ⟨store, services.foldl (fun inner entry => inner.insertName entry.2 entry.1) .empty⟩

/-- What `id_of` finds once it holds the lock. -/
inductive Lookup where
  | done (sid : ServiceId)
  | touches (sid : ServiceId) (marked : Inner)
  | resolves

def lookup (inner : Inner) (name : String) (now : Int) : Lookup :=
  match inner.freshCachedId name now with
  | some sid => .done sid
  | none =>
      match inner.cachedId name with
      | some sid =>
          match inner.touch sid now with
          | (_, false) => .done sid
          | (marked, true) => .touches sid marked
      | none => .resolves

/-- One call by itself; the statement it needs may fail. -/
def idOf (registry : ServiceRegistry) (name : String) (now : Int) (failure : Option String) :
    ServiceRegistry × AppResult ServiceId :=
  match lookup registry.inner name now with
  | .done sid => (registry, .ok sid)
  | .touches sid marked =>
      match failure with
      | some detail => (⟨registry.store, marked⟩, .error (storage detail))
      | none => (⟨registry.store.touchService sid now, marked⟩, .ok sid)
  | .resolves =>
      match failure with
      | some detail => (registry, .error (storage detail))
      | none =>
          match registry.store.resolveService name now with
          | (store, .error fault) => (⟨store, registry.inner⟩, .error fault)
          | (store, .ok sid) => (⟨store, registry.inner.resolved name sid now⟩, .ok sid)

def reclaimBefore (registry : ServiceRegistry) (cutoffMs : Int) (failure : Option String) :
    ServiceRegistry × AppResult (List ServiceId) :=
  match failure with
  | some detail => (registry, .error (storage detail))
  | none =>
      match registry.store.deleteServicesBefore cutoffMs with
      | (store, .error fault) => (⟨store, registry.inner⟩, .error fault)
      | (store, .ok sids) => (⟨store, registry.inner.forget sids⟩, .ok sids)

end ServiceRegistry

end Vpsiner
