import Vpsiner.Lib.TwoWayMap
import Vpsiner.Metadata.ServiceRegistry

/-! What each statement does to the pairs of the table, and each edit to the two maps. -/

set_option autoImplicit false

namespace Vpsiner

open Lib

namespace Metadata

theorem serviceId_of_lt {value : Nat} (fits : value < 2 ^ 32) :
    serviceId value = .ok ⟨UInt32.ofNat value⟩ := if_pos fits

theorem serviceId_ok {value : Nat} {sid : ServiceId} (decoded : serviceId value = .ok sid) :
    value < 2 ^ 32 ∧ sid = ⟨UInt32.ofNat value⟩ := by
  unfold serviceId at decoded
  split at decoded
  · next fits => exact ⟨fits, (Except.ok.inj decoded).symm⟩
  · cases decoded

theorem mapM_ok {α β : Type} (decode : α → AppResult β) (value : α → β) {items : List α}
    (each : ∀ item ∈ items, decode item = .ok (value item)) :
    items.mapM decode = .ok (items.map value) := by
  induction items with
  | nil => rfl
  | cons item rest ih =>
      rw [List.mapM_cons, each item List.mem_cons_self,
        ih fun other member => each other (List.mem_cons_of_mem _ member)]
      rfl

theorem mapM_ok_each {α β : Type} (decode : α → AppResult β) {items : List α} {values : List β}
    (decoded : items.mapM decode = .ok values) :
    ∀ item ∈ items, ∃ value, decode item = .ok value := by
  induction items generalizing values with
  | nil =>
      intro item member
      cases member
  | cons head rest ih =>
      rw [List.mapM_cons] at decoded
      cases first : decode head with
      | error fault =>
          rw [first] at decoded
          cases decoded
      | ok value =>
          rw [first] at decoded
          cases later : rest.mapM decode with
          | error fault =>
              rw [later] at decoded
              cases decoded
          | ok values =>
              exact List.forall_mem_cons.mpr ⟨⟨value, first⟩, ih later⟩

end Metadata

open Metadata

namespace ServicesTable

variable {table : ServicesTable}

def Fits (table : ServicesTable) : Prop := ∀ row ∈ table.rows, row.sid < 2 ^ 32

theorem Fits.toNat (fits : table.Fits) {row : ServiceRow} (member : row ∈ table.rows) :
    (UInt32.ofNat row.sid).toNat = row.sid := UInt32.toNat_ofNat_of_lt (fits row member)

theorem firsts_pairs (table : ServicesTable) :
    table.pairs.map Prod.fst = table.rows.map ServiceRow.name := List.map_map

theorem names_nodup (table : ServicesTable) : (table.pairs.map Prod.fst).Nodup := by
  rw [firsts_pairs]
  exact table.names

theorem numbers_pairs (fits : table.Fits) :
    (table.pairs.map fun pair => pair.2.raw.toNat) = table.rows.map ServiceRow.sid := by
  rw [pairs, List.map_map]
  exact List.map_congr_left fun row member => fits.toNat member

theorem sids_nodup (fits : table.Fits) : (table.pairs.map Prod.snd).Nodup := by
  have numbers := table.sids
  rw [← numbers_pairs fits] at numbers
  refine List.Nodup.of_map (fun sid : ServiceId => sid.raw.toNat) ?_
  rw [List.map_map]
  exact numbers

theorem number_le_sequence (fits : table.Fits) {pair : String × ServiceId}
    (member : pair ∈ table.pairs) : pair.2.raw.toNat ≤ table.sequence := by
  obtain ⟨row, present, rfl⟩ := List.mem_map.mp member
  have bound := table.issued row present
  rwa [← fits.toNat present] at bound

theorem mem_pairs (fits : table.Fits) (name : String)
    (sid : ServiceId) :
    (name, sid) ∈ table.pairs ↔ ∃ row ∈ table.rows, row.name = name ∧ row.sid = sid.raw.toNat := by
  refine List.mem_map.trans (exists_congr fun row => and_congr_right fun member => ?_)
  have number := fits.toNat member
  rw [Prod.mk.injEq]
  refine and_congr_right fun _ => ⟨fun same => ?_, fun same => ?_⟩
  · rw [← same, number]
  · rw [same, UInt32.ofNat_toNat]

theorem row?_eq_none {name : String} (absent : name ∉ table.pairs.map Prod.fst) :
    table.row? name = none := by
  rw [firsts_pairs] at absent
  refine List.find?_eq_none.mpr fun row member same => absent ?_
  rw [← of_decide_eq_true same]
  exact List.mem_map_of_mem member

theorem row?_some {name : String} {row : ServiceRow} (found : table.row? name = some row) :
    row ∈ table.rows ∧ row.name = name := by
  refine ⟨List.mem_of_find?_eq_some found, ?_⟩
  simpa using List.find?_some found

theorem pairs_stamp (lastSeen : ServiceRow → Int) : (table.stamp lastSeen).pairs = table.pairs := by
  rw [pairs, stamp, List.map_map]
  rfl

theorem pairs_touchService (sid : ServiceId) (nowMs : Int) :
    (table.touchService sid nowMs).pairs = table.pairs := pairs_stamp _

theorem Fits.stamp (fits : table.Fits) (lastSeen : ServiceRow → Int) :
    (table.stamp lastSeen).Fits := by
  intro row member
  obtain ⟨old, present, rfl⟩ := List.mem_map.mp member
  exact fits old present

theorem pairs_insert (name : String) (nowMs : Int) (fresh : table.row? name = none) :
    (table.insert name nowMs fresh).pairs =
      table.pairs ++ [(name, ⟨UInt32.ofNat (table.sequence + 1)⟩)] := by
  rw [pairs, insert, List.map_append]
  rfl

theorem resolveService_fresh {name : String} (nowMs : Int) (fresh : table.row? name = none) :
    table.resolveService name nowMs =
      (table.insert name nowMs fresh, serviceId (table.sequence + 1)) := by
  unfold resolveService
  split
  · next found => rw [fresh] at found; cases found
  · rfl

def stale (table : ServicesTable) (cutoffMs : Int) : List (String × ServiceId) :=
  (table.rows.filter fun row => row.lastSeenMs < cutoffMs).map fun row =>
    (row.name, ⟨UInt32.ofNat row.sid⟩)

theorem deleteServicesBefore_result (fits : table.Fits) (cutoffMs : Int) :
    (table.deleteServicesBefore cutoffMs).2 = .ok ((table.stale cutoffMs).map Prod.snd) := by
  rw [stale, List.map_map]
  exact mapM_ok _ _ fun row member => serviceId_of_lt (fits row (List.mem_filter.mp member).1)

theorem stale_append_pairs (table : ServicesTable) (cutoffMs : Int) :
    table.pairs.Perm (table.stale cutoffMs ++ (table.deleteServicesBefore cutoffMs).1.pairs) := by
  have parts := List.filter_append_perm (fun row : ServiceRow => row.lastSeenMs < cutoffMs) table.rows
  refine (parts.symm.map _).trans ?_
  rw [List.map_append]
  refine List.Perm.append_left _ (List.Perm.of_eq (congrArg _ ?_))
  refine List.filter_congr fun row _ => ?_
  rw [← decide_not, decide_eq_decide]
  exact Int.not_lt

theorem Fits.deleteServicesBefore (fits : table.Fits) (cutoffMs : Int) :
    (table.deleteServicesBefore cutoffMs).1.Fits :=
  fun row member => fits row (List.mem_filter.mp member).1

theorem listServices_ok {services : List (ServiceId × String)}
    (listed : table.listServices = .ok services) :
    table.Fits ∧ services = table.pairs.map Prod.swap := by
  have fits : table.Fits := by
    intro row member
    obtain ⟨entry, decoded⟩ := mapM_ok_each _ listed row member
    cases result : serviceId row.sid with
    | error fault =>
        rw [result] at decoded
        cases decoded
    | ok sid => exact (serviceId_ok result).1
  refine ⟨fits, ?_⟩
  have all : table.listServices = .ok (table.rows.map fun row => (⟨UInt32.ofNat row.sid⟩, row.name)) := by
    refine mapM_ok _ _ fun row member => ?_
    rw [serviceId_of_lt (fits row member)]
    rfl
  rw [pairs, List.map_map]
  exact Except.ok.inj (listed.symm.trans all)

end ServicesTable

namespace Inner

/-- The maps of a registry hold exactly these pairs. -/
abbrev Holds (inner : Inner) (pairs : List (String × ServiceId)) : Prop :=
  Mirrors inner.byName inner.byId pairs

variable {inner : Inner} {pairs : List (String × ServiceId)}

theorem Holds.insertName (holds : inner.Holds pairs) {name : String} {sid : ServiceId}
    (newName : name ∉ pairs.map Prod.fst) (newSid : sid ∉ pairs.map Prod.snd) :
    (inner.insertName name sid).Holds ((name, sid) :: pairs) := holds.insert newName newSid

theorem Holds.forgetOne (holds : inner.Holds pairs) (sid : ServiceId) :
    (inner.forgetOne sid).Holds (pairs.filter fun pair => pair.2 ≠ sid) := by
  unfold Inner.forgetOne
  cases known : inner.byId sid with
  | none =>
      rw [holds.erase_absent known]
      exact holds
  | some name => exact holds.erase ((holds.backward_iff name sid).mp known)

theorem Holds.forget (holds : inner.Holds pairs) (sids : List ServiceId) :
    (inner.forget sids).Holds (pairs.filter fun pair => pair.2 ∉ sids) := by
  induction sids generalizing inner pairs with
  | nil =>
      rw [List.filter_eq_self.mpr fun pair _ => decide_eq_true List.not_mem_nil]
      exact holds
  | cons sid rest ih =>
      have after := ih (holds.forgetOne sid)
      rw [List.filter_filter] at after
      have same : ∀ pair : String × ServiceId,
          (decide (pair.2 ∉ rest) && decide (pair.2 ≠ sid)) = decide (pair.2 ∉ sid :: rest) := by
        intro pair
        rw [← Bool.decide_and, decide_eq_decide, List.mem_cons, not_or, and_comm]
      rw [List.filter_congr fun pair _ => same pair] at after
      exact after

theorem Holds.forget_gone {gone kept : List (String × ServiceId)}
    (holds : inner.Holds (gone ++ kept)) : (inner.forget (gone.map Prod.snd)).Holds kept := by
  have after := holds.forget (gone.map Prod.snd)
  have apart := holds.seconds
  rw [List.map_append, List.nodup_append] at apart
  have none_gone : gone.filter (fun pair => pair.2 ∉ gone.map Prod.snd) = [] :=
    List.filter_eq_nil_iff.mpr fun pair member out =>
      of_decide_eq_true out (List.mem_map_of_mem member)
  have all_kept : kept.filter (fun pair => pair.2 ∉ gone.map Prod.snd) = kept :=
    List.filter_eq_self.mpr fun pair member => decide_eq_true fun inside =>
      apart.2.2 _ inside _ (List.mem_map_of_mem member) rfl
  rwa [List.filter_append, none_gone, all_kept, List.nil_append] at after

theorem Holds.insertAll (services : List (String × ServiceId))
    (holds : inner.Holds pairs) (names : ((services.reverse ++ pairs).map Prod.fst).Nodup)
    (sids : ((services.reverse ++ pairs).map Prod.snd).Nodup) :
    (services.foldl (fun inner entry => inner.insertName entry.1 entry.2) inner).Holds
      (services.reverse ++ pairs) := by
  induction services generalizing inner pairs with
  | nil => exact holds
  | cons entry rest ih =>
      rw [List.reverse_cons, List.append_assoc, List.singleton_append] at names sids ⊢
      have tailNames := names.sublist ((List.sublist_append_right _ _).map _)
      have tailSids := sids.sublist ((List.sublist_append_right _ _).map _)
      exact ih (holds.insertName (List.nodup_cons.mp tailNames).1 (List.nodup_cons.mp tailSids).1)
        names sids

theorem freshCachedId_byName {name : String} {now : Int} {sid : ServiceId}
    (cached : inner.freshCachedId name now = some sid) : inner.byName name = some sid :=
  (Option.filter_eq_some_iff.mp cached).1

/-- A mark that is recent enough, or a new mark. -/
theorem touch_cases (inner : Inner) (sid : ServiceId) (now : Int) :
    (inner.touch sid now = (inner, false) ∧
      ∃ last, inner.touchedMs sid = some last ∧ now - last < touchIntervalMs) ∨
    inner.touch sid now =
      ({ inner with touchedMs := Function.update inner.touchedMs sid (some now) }, true) := by
  unfold touch
  split
  · next recent =>
      obtain ⟨last, marked, within⟩ := (Option.any_eq_true _ _).mp recent
      exact .inl ⟨rfl, last, marked, of_decide_eq_true within⟩
  · exact .inr rfl

theorem touchedMs_insertAll (services : List (ServiceId × String)) (inner : Inner) :
    (services.foldl (fun inner entry => inner.insertName entry.2 entry.1) inner).touchedMs =
      inner.touchedMs := by
  induction services generalizing inner with
  | nil => rfl
  | cons entry rest ih => exact ih _

end Inner

/-- What each outcome of a lookup says about the name. -/
theorem ServiceRegistry.lookup_cases (inner : Inner) (name : String) (now : Int) :
    match ServiceRegistry.lookup inner name now with
    | .done sid => inner.byName name = some sid ∧
        ∃ last, inner.touchedMs sid = some last ∧ now - last < touchIntervalMs
    | .touches sid marked => inner.byName name = some sid ∧
        marked = { inner with touchedMs := Function.update inner.touchedMs sid (some now) }
    | .resolves => inner.byName name = none := by
  unfold ServiceRegistry.lookup
  cases fresh : inner.freshCachedId name now with
  | some sid =>
      obtain ⟨cached, recent⟩ := Option.filter_eq_some_iff.mp fresh
      obtain ⟨last, marked, within⟩ := (Option.any_eq_true _ _).mp recent
      exact ⟨cached, last, marked, of_decide_eq_true within⟩
  | none =>
      cases cached : inner.cachedId name with
      | none => exact cached
      | some sid =>
          dsimp only
          rcases inner.touch_cases sid now with ⟨kept, recent⟩ | marked
          · rw [kept]
            exact ⟨cached, recent⟩
          · rw [marked]
            exact ⟨cached, rfl⟩

theorem ServiceRegistry.load_ok {table : ServicesTable} {registry : ServiceRegistry}
    (loaded : ServiceRegistry.load table = .ok registry) :
    ∃ services, table.listServices = .ok services ∧ registry =
      ⟨table, services.foldl (fun inner entry => inner.insertName entry.2 entry.1) .empty⟩ := by
  unfold ServiceRegistry.load at loaded
  cases listed : table.listServices with
  | error fault =>
      rw [listed] at loaded
      cases loaded
  | ok services =>
      rw [listed] at loaded
      exact ⟨services, rfl, (Except.ok.inj loaded).symm⟩

theorem ServiceRegistry.load_holds {table : ServicesTable} {registry : ServiceRegistry}
    (loaded : ServiceRegistry.load table = .ok registry) :
    registry.store = table ∧ table.Fits ∧ registry.inner.Holds table.pairs := by
  obtain ⟨services, listed, rfl⟩ := load_ok loaded
  obtain ⟨fits, rfl⟩ := ServicesTable.listServices_ok listed
  refine ⟨rfl, fits, ?_⟩
  have start : Inner.empty.Holds [] := Mirrors.nil
  have same := (List.reverse_perm table.pairs)
  have all := start.insertAll table.pairs
    (by
      rw [List.append_nil]
      exact (same.map Prod.fst).nodup_iff.mpr table.names_nodup)
    (by
      rw [List.append_nil]
      exact (same.map Prod.snd).nodup_iff.mpr (ServicesTable.sids_nodup fits))
  rw [List.append_nil] at all
  have swapped : (table.pairs.map Prod.swap).foldl
      (fun inner entry => inner.insertName entry.2 entry.1) Inner.empty =
        table.pairs.foldl (fun inner entry => inner.insertName entry.1 entry.2) Inner.empty :=
    List.foldl_map
  have mirrored := all.perm same
  rw [← swapped] at mirrored
  exact mirrored

theorem ServiceRegistry.load_touchedMs {table : ServicesTable} {registry : ServiceRegistry}
    (loaded : ServiceRegistry.load table = .ok registry) (sid : ServiceId) :
    registry.inner.touchedMs sid = none := by
  obtain ⟨services, _, rfl⟩ := load_ok loaded
  exact congrFun (Inner.touchedMs_insertAll services .empty) sid

end Vpsiner
