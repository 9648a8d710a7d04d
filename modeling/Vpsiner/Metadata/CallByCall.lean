import Vpsiner.Metadata.WatermarkLag

/-! The registry under calls that come one after the other and succeed: it stays coherent,
and a reclaim removes only services that were not seen since its cutoff. -/

set_option autoImplicit false

namespace Vpsiner.Metadata

open Lib

/-- The maps are the table, the marks hold and the ids are `u32`s. -/
structure Coherent (registry : ServiceRegistry) : Prop where
  holds : registry.inner.Holds registry.store.pairs
  trusted : Trusted registry
  fits : registry.store.Fits

variable {registry after : ServiceRegistry} {name : String} {sid : ServiceId} {now : Int}

theorem Coherent.ofLoad {table : ServicesTable} (loaded : ServiceRegistry.load table = .ok registry) :
    Coherent registry ∧ registry.store = table := by
  obtain ⟨rfl, fits, holds⟩ := ServiceRegistry.load_holds loaded
  exact ⟨⟨holds, .ofLoad loaded, fits⟩, rfl⟩

theorem Coherent.resolved (coherent : Coherent registry)
    (unknown : registry.inner.byName name = none)
    (answer : (registry.store.resolveService name now).2 = .ok sid) :
    (registry.inner.resolved name sid now).Holds (registry.store.resolveService name now).1.pairs ∧
      (registry.store.resolveService name now).1.Fits := by
  have absent : name ∉ registry.store.pairs.map Prod.fst := by
    intro inside
    obtain ⟨⟨other, value⟩, member, rfl⟩ := List.mem_map.mp inside
    rw [(coherent.holds.forward_iff other value).mpr member] at unknown
    cases unknown
  have fresh := ServicesTable.row?_eq_none absent
  rw [ServicesTable.resolveService_fresh now fresh] at answer ⊢
  obtain ⟨small, rfl⟩ := serviceId_ok answer
  have number : (UInt32.ofNat (registry.store.sequence + 1)).toNat = registry.store.sequence + 1 :=
    UInt32.toNat_ofNat_of_lt small
  have unused : (⟨UInt32.ofNat (registry.store.sequence + 1)⟩ : ServiceId) ∉
      registry.store.pairs.map Prod.snd := by
    intro inside
    obtain ⟨pair, member, same⟩ := List.mem_map.mp inside
    have bound := ServicesTable.number_le_sequence coherent.fits member
    rw [same, number] at bound
    omega
  constructor
  · rw [ServicesTable.pairs_insert]
    exact (coherent.holds.insertName absent unused).perm (List.perm_append_singleton _ _).symm
  · intro row member
    rcases List.mem_append.mp member with old | new
    · exact coherent.fits row old
    · rw [List.mem_singleton.mp new]
      exact small

/-- A call that is answered loses no sight of any service. -/
theorem Coherent.idOf (coherent : Coherent registry)
    (answered : registry.idOf name now none = (after, .ok sid)) :
    Coherent after ∧ after.store.SeenSince sid (now - maxWatermarkLagMs + 1) ∧
      ∀ other ts, registry.store.SeenSince other ts → after.store.SeenSince other ts := by
  have kept : ¬ TouchLost registry ⟨name, now, none⟩ := fun lost => lost.1 rfl
  have trusted : Trusted after := by
    have answer := coherent.trusted.answer now ⟨name, now, none⟩ kept
    unfold IdOfRun.answer at answer
    rwa [answered] at answer
  have seen : after.store.SeenSince sid (now - maxWatermarkLagMs + 1) := by
    have bounded := coherent.trusted.lagBounded now ⟨name, now, none⟩ sid le_rfl
    unfold IdOfRun.answer at bounded
    rw [answered] at bounded
    obtain ⟨row, member, same, recent⟩ := bounded rfl
    exact ⟨row, member, same, recent⟩
  rcases registry.idOf_outcome name now none with
    ⟨other, last, known, mark, recent, found, result⟩ | ⟨other, fault, known, failed, found, result⟩ |
    ⟨other, known, told, result⟩ | ⟨fault, store, unknown, found, written, result⟩ |
    ⟨other, unknown, found, answer, result⟩
  · rw [result] at answered
    cases answered
    exact ⟨coherent, seen, fun _ _ before => before⟩
  · exact absurd rfl failed
  · rw [result] at answered
    cases answered
    refine ⟨⟨?_, trusted, coherent.fits.stamp _⟩, seen, fun _ _ before => before.touchService⟩
    rw [ServicesTable.pairs_touchService]
    exact coherent.holds
  · rw [result] at answered
    cases answered
  · rw [result] at answered
    cases answered
    obtain ⟨holds, fits⟩ := coherent.resolved unknown answer
    exact ⟨⟨holds, trusted, fits⟩, seen, fun _ _ before => before.resolveService⟩

/-! ## Reclaiming -/

theorem touchedMs_forget (inner : Inner) (sids : List ServiceId) (sid : ServiceId) :
    (inner.forget sids).touchedMs sid = if sid ∈ sids then none else inner.touchedMs sid := by
  induction sids generalizing inner with
  | nil => rfl
  | cons first rest ih =>
      have here : (inner.forgetOne first).touchedMs =
          Function.update inner.touchedMs first none := by
        unfold Inner.forgetOne
        cases inner.byId first with
        | none => rfl
        | some name => rfl
      rw [show inner.forget (first :: rest) = (inner.forgetOne first).forget rest from rfl, ih, here]
      by_cases same : sid = first
      · subst same
        rw [Function.update_self, ite_self, if_pos List.mem_cons_self]
      · rw [Function.update_of_ne same]
        simp only [List.mem_cons, same, false_or]

theorem SeenSince.deleteServicesBefore {table : ServicesTable} {ts : Int} (cutoffMs : Int)
    (seen : table.SeenSince sid ts) :
    (table.deleteServicesBefore cutoffMs).1.SeenSince sid ts ∨
      ts < cutoffMs ∧ sid ∈ (table.stale cutoffMs).map Prod.snd := by
  obtain ⟨row, member, same, since⟩ := seen
  by_cases recent : cutoffMs ≤ row.lastSeenMs
  · exact .inl ⟨row, List.mem_filter.mpr ⟨member, decide_eq_true recent⟩, same, since⟩
  · have older := not_le.mp recent
    refine .inr ⟨since.trans_lt older, List.mem_map.mpr ⟨(row.name, ⟨UInt32.ofNat row.sid⟩), ?_, ?_⟩⟩
    · exact List.mem_map.mpr ⟨row, List.mem_filter.mpr ⟨member, decide_eq_true older⟩, rfl⟩
    · rw [same, UInt32.ofNat_toNat]

theorem Coherent.reclaimBefore (coherent : Coherent registry) (cutoffMs : Int) :
    Coherent (registry.reclaimBefore cutoffMs none).1 ∧
      ∀ sid ts, registry.store.SeenSince sid ts →
        (registry.reclaimBefore cutoffMs none).1.store.SeenSince sid ts ∨ ts < cutoffMs := by
  have result : (registry.reclaimBefore cutoffMs none).1 =
      ⟨(registry.store.deleteServicesBefore cutoffMs).1,
        registry.inner.forget ((registry.store.stale cutoffMs).map Prod.snd)⟩ := by
    have deleted : registry.store.deleteServicesBefore cutoffMs =
        ((registry.store.deleteServicesBefore cutoffMs).1,
          .ok ((registry.store.stale cutoffMs).map Prod.snd)) :=
      Prod.ext rfl (ServicesTable.deleteServicesBefore_result coherent.fits cutoffMs)
    unfold ServiceRegistry.reclaimBefore
    dsimp only
    rw [deleted]
  rw [result]
  have parts := registry.store.stale_append_pairs cutoffMs
  have holds := Inner.Holds.forget_gone (coherent.holds.perm parts)
  have fits := coherent.fits.deleteServicesBefore cutoffMs
  refine ⟨⟨holds, ⟨?_, ?_⟩, fits⟩, fun sid ts seen => ?_⟩
  · intro sid mark touched
    rw [touchedMs_forget] at touched
    split at touched
    · cases touched
    · next kept =>
        have seen := coherent.trusted.marks sid mark touched
        exact (SeenSince.deleteServicesBefore cutoffMs seen).resolve_right
          fun gone => kept gone.2
  · intro name sid known
    have member := (holds.forward_iff name sid).mp known
    obtain ⟨row, present, _, same⟩ := (ServicesTable.mem_pairs fits name sid).mp member
    exact ⟨row.lastSeenMs, row, present, same, le_rfl⟩
  · exact (SeenSince.deleteServicesBefore cutoffMs seen).imp_right And.left

theorem Coherent.known (coherent : Coherent registry) {ts : Int}
    (seen : registry.store.SeenSince sid ts) :
    (∃ row ∈ registry.store.rows, row.sid = sid.raw.toNat) ∧
      ∃ name, registry.inner.byId sid = some name := by
  obtain ⟨row, member, same, _⟩ := seen
  refine ⟨⟨row, member, same⟩, row.name, (coherent.holds.backward_iff row.name sid).mpr ?_⟩
  exact (ServicesTable.mem_pairs coherent.fits row.name sid).mpr ⟨row, member, rfl, same⟩

end Vpsiner.Metadata
