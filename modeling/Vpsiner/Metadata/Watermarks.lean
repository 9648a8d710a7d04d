import Vpsiner.Metadata.ServicesProperties

/-! How the statements move the watermarks of the table, and what a call of `id_of` leaves
behind in each of its outcomes. -/

set_option autoImplicit false

namespace Vpsiner

open Metadata

namespace ServicesTable

variable {table store : ServicesTable} {name : String} {sid : ServiceId} {ts now : Int}

/-- The table has the service, seen at this time or later. -/
def SeenSince (table : ServicesTable) (sid : ServiceId) (ts : Int) : Prop :=
  ∃ row ∈ table.rows, row.sid = sid.raw.toNat ∧ ts ≤ row.lastSeenMs

theorem SeenSince.earlier {earlier : Int} (seen : table.SeenSince sid ts) (le : earlier ≤ ts) :
    table.SeenSince sid earlier := by
  obtain ⟨row, member, same, since⟩ := seen
  exact ⟨row, member, same, le.trans since⟩

theorem SeenSince.stamp (lastSeen : ServiceRow → Int)
    (forward : ∀ row, row.lastSeenMs ≤ lastSeen row) (seen : table.SeenSince sid ts) :
    (table.stamp lastSeen).SeenSince sid ts := by
  obtain ⟨row, member, same, since⟩ := seen
  exact ⟨_, List.mem_map_of_mem member, same, since.trans (forward row)⟩

theorem SeenSince.touchService {other : ServiceId} (seen : table.SeenSince sid ts) :
    (table.touchService other now).SeenSince sid ts := by
  refine seen.stamp _ fun row => ?_
  split
  · next older => exact older.2.le
  · exact le_rfl

theorem touchService_seen (seen : table.SeenSince sid ts) :
    (table.touchService sid now).SeenSince sid now := by
  obtain ⟨row, member, same, _⟩ := seen
  refine ⟨_, List.mem_map_of_mem member, same, ?_⟩
  dsimp only
  split
  · exact le_rfl
  · next current => exact not_lt.mp fun older => current ⟨same, older⟩

theorem SeenSince.insert (fresh : table.row? name = none) (seen : table.SeenSince sid ts) :
    (table.insert name now fresh).SeenSince sid ts := by
  obtain ⟨row, member, rest⟩ := seen
  exact ⟨row, List.mem_append_left _ member, rest⟩

theorem SeenSince.resolveService (seen : table.SeenSince sid ts) :
    (table.resolveService name now).1.SeenSince sid ts := by
  unfold ServicesTable.resolveService
  split
  · refine seen.stamp _ fun row => ?_
    split
    · exact le_max_left _ _
    · exact le_rfl
  · next absent => exact seen.insert absent

theorem resolveService_seen (resolved : (table.resolveService name now).2 = .ok sid) :
    (table.resolveService name now).1.SeenSince sid now := by
  unfold ServicesTable.resolveService at resolved ⊢
  split at resolved
  · next row found =>
      obtain ⟨small, rfl⟩ := serviceId_ok resolved
      obtain ⟨member, named⟩ := row?_some found
      refine ⟨_, List.mem_map_of_mem member, ?_, ?_⟩
      · exact (UInt32.toNat_ofNat_of_lt small).symm
      · dsimp only
        rw [if_pos named]
        exact le_max_right _ _
  · next absent =>
      obtain ⟨small, rfl⟩ := serviceId_ok resolved
      refine ⟨_, List.mem_append_right _ (List.mem_singleton_self _), ?_, le_rfl⟩
      exact (UInt32.toNat_ofNat_of_lt small).symm

end ServicesTable

namespace ServiceRegistry

variable {registry : ServiceRegistry} {name : String} {sid : ServiceId} {now : Int}

/-- The registry after a touch has been noted, whether or not the table hears of it. -/
def marked (registry : ServiceRegistry) (sid : ServiceId) (now : Int) : Inner :=
  { registry.inner with touchedMs := Function.update registry.inner.touchedMs sid (some now) }

/-- What a call of `id_of` did. -/
inductive IdOfOutcome (registry : ServiceRegistry) (name : String) (now : Int)
    (failure : Option String) : Prop where
  | cached (sid : ServiceId) (last : Int) (known : registry.inner.byName name = some sid)
      (mark : registry.inner.touchedMs sid = some last) (recent : now - last < touchIntervalMs)
      (found : lookup registry.inner name now = .done sid)
      (result : registry.idOf name now failure = (registry, .ok sid))
  | touchFailed (sid : ServiceId) (fault : Fault) (known : registry.inner.byName name = some sid)
      (failed : failure ≠ none)
      (found : lookup registry.inner name now = .touches sid (registry.marked sid now))
      (result : registry.idOf name now failure =
        (⟨registry.store, registry.marked sid now⟩, .error fault))
  | touched (sid : ServiceId) (known : registry.inner.byName name = some sid)
      (told : failure = none)
      (result : registry.idOf name now failure =
        (⟨registry.store.touchService sid now, registry.marked sid now⟩, .ok sid))
  | unresolved (fault : Fault) (store : ServicesTable) (unknown : registry.inner.byName name = none)
      (found : lookup registry.inner name now = .resolves)
      (written : store = registry.store ∨ store = (registry.store.resolveService name now).1)
      (result : registry.idOf name now failure = (⟨store, registry.inner⟩, .error fault))
  | resolved (sid : ServiceId) (unknown : registry.inner.byName name = none)
      (found : lookup registry.inner name now = .resolves)
      (answer : (registry.store.resolveService name now).2 = .ok sid)
      (result : registry.idOf name now failure =
        (⟨(registry.store.resolveService name now).1, registry.inner.resolved name sid now⟩, .ok sid))

theorem idOf_outcome (registry : ServiceRegistry) (name : String) (now : Int)
    (failure : Option String) : IdOfOutcome registry name now failure := by
  have outcome := lookup_cases registry.inner name now
  cases found : lookup registry.inner name now with
  | done sid =>
      rw [found] at outcome
      obtain ⟨known, last, mark, recent⟩ := outcome
      refine .cached sid last known mark recent found ?_
      unfold idOf
      rw [found]
  | touches sid marked =>
      rw [found] at outcome
      obtain ⟨known, rfl⟩ := outcome
      cases failure with
      | some detail =>
          refine .touchFailed sid (storage detail) known (Option.some_ne_none _) found ?_
          unfold idOf
          rw [found]
          rfl
      | none =>
          refine .touched sid known rfl ?_
          unfold idOf
          rw [found]
          rfl
  | resolves =>
      rw [found] at outcome
      cases failure with
      | some detail =>
          refine .unresolved (storage detail) registry.store outcome found (.inl rfl) ?_
          unfold idOf
          rw [found]
      | none =>
          cases answer : registry.store.resolveService name now with
          | mk store result =>
              cases result with
              | error fault =>
                  refine .unresolved fault store outcome found (.inr ?_) ?_
                  · rw [answer]
                  · unfold idOf
                    rw [found]
                    dsimp only
                    rw [answer]
              | ok sid =>
                  refine .resolved sid outcome found ?_ ?_
                  · rw [answer]
                  · unfold idOf
                    rw [found]
                    dsimp only
                    rw [answer]

end ServiceRegistry

end Vpsiner
