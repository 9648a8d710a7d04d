import Vpsiner.Lib.Machine
import Vpsiner.Metadata.Watermarks

/-! How far a watermark can trail the calls that its service answered, when statements fail. -/

set_option autoImplicit false

namespace Vpsiner.Metadata

open Lib

structure IdOfCall where
  name : String
  now : Int
  failure : Option String
deriving DecidableEq, Repr

/-- The registry after some calls, and the time of the last one. -/
structure IdOfRun where
  registry : ServiceRegistry
  clock : Int

def IdOfRun.answer (run : IdOfRun) (call : IdOfCall) : ServiceRegistry × AppResult ServiceId :=
  run.registry.idOf call.name call.now call.failure

/-- One call after the other, at times that never go back. -/
def idOfMachine (registry : ServiceRegistry) (clock : Int) : Machine IdOfRun IdOfCall where
  start := ⟨registry, clock⟩
  step run call := if run.clock ≤ call.now then some ⟨(run.answer call).1, call.now⟩ else none

/-- A mark stands for an update that the table has. -/
def MarksHold (registry : ServiceRegistry) : Prop :=
  ∀ sid mark, registry.inner.touchedMs sid = some mark →
    ∃ row ∈ registry.store.rows, row.sid = sid.raw.toNat ∧ mark ≤ row.lastSeenMs

/-- Whatever the next call answers was seen within the lag. -/
def LagBounded (run : IdOfRun) : Prop :=
  ∀ call sid, run.clock ≤ call.now → (run.answer call).2 = .ok sid →
    ∃ row ∈ (run.answer call).1.store.rows, row.sid = sid.raw.toNat ∧
      call.now - maxWatermarkLagMs < row.lastSeenMs

/-- The call fails to move the watermark of its service forward. -/
def TouchLost (registry : ServiceRegistry) (call : IdOfCall) : Prop :=
  call.failure ≠ none ∧ ∃ sid marked,
    ServiceRegistry.lookup registry.inner call.name call.now = .touches sid marked ∧
      ∀ row ∈ registry.store.rows, row.sid = sid.raw.toNat → row.lastSeenMs < call.now

structure Trusted (registry : ServiceRegistry) : Prop where
  marks : MarksHold registry
  stored : ∀ name sid, registry.inner.byName name = some sid → ∃ ts, registry.store.SeenSince sid ts

theorem Trusted.ofLoad {table : ServicesTable} {registry : ServiceRegistry}
    (loaded : ServiceRegistry.load table = .ok registry) : Trusted registry where
  marks := by
    intro sid mark touched
    rw [ServiceRegistry.load_touchedMs loaded] at touched
    cases touched
  stored := by
    obtain ⟨rfl, fits, holds⟩ := ServiceRegistry.load_holds loaded
    intro name sid known
    have member := (holds.forward_iff name sid).mp known
    obtain ⟨row, present, _, same⟩ := (ServicesTable.mem_pairs fits name sid).mp member
    exact ⟨row.lastSeenMs, row, present, same, le_rfl⟩

variable {registry : ServiceRegistry}

/-- Statements that only move watermarks forward leave both as they are. -/
theorem Trusted.advance (trusted : Trusted registry) {store : ServicesTable}
    (advances : ∀ sid ts, registry.store.SeenSince sid ts → store.SeenSince sid ts) :
    Trusted ⟨store, registry.inner⟩ where
  marks sid mark touched := advances sid mark (trusted.marks sid mark touched)
  stored name sid known := by
    obtain ⟨ts, seen⟩ := trusted.stored name sid known
    exact ⟨ts, advances sid ts seen⟩

theorem marks_update {inner : Inner} {store : ServicesTable} {sid : ServiceId} {now : Int}
    (marks : ∀ other mark, inner.touchedMs other = some mark → store.SeenSince other mark)
    (seen : store.SeenSince sid now) :
    ∀ other mark, Function.update inner.touchedMs sid (some now) other = some mark →
      store.SeenSince other mark := by
  intro other mark touched
  by_cases same : other = sid
  · subst same
    rw [Function.update_self] at touched
    cases touched
    exact seen
  · rw [Function.update_of_ne same] at touched
    exact marks other mark touched

/-- A mark at this time is honest exactly when the table was told, or knew better. -/
theorem Trusted.mark_iff (trusted : Trusted registry) (sid : ServiceId) (now : Int) :
    MarksHold ⟨registry.store, registry.marked sid now⟩ ↔ registry.store.SeenSince sid now := by
  constructor
  · intro marks
    exact marks sid now (Function.update_self ..)
  · intro seen
    exact marks_update trusted.marks seen

theorem Trusted.mark (trusted : Trusted registry) {sid : ServiceId} {now : Int}
    (seen : registry.store.SeenSince sid now) :
    Trusted ⟨registry.store, registry.marked sid now⟩ where
  marks := (trusted.mark_iff sid now).mpr seen
  stored := trusted.stored

theorem Trusted.resolved (trusted : Trusted registry) {name : String} {sid : ServiceId} {now : Int}
    (seen : registry.store.SeenSince sid now) :
    Trusted ⟨registry.store, registry.inner.resolved name sid now⟩ where
  marks := marks_update trusted.marks seen
  stored other value known := by
    by_cases same : other = name
    · subst same
      rw [show (registry.inner.resolved other sid now).byName other = some sid from
        Function.update_self ..] at known
      cases known
      exact ⟨now, seen⟩
    · exact trusted.stored other value ((Function.update_of_ne same ..).symm.trans known)

theorem Trusted.resolveService (trusted : Trusted registry) (name : String) (now : Int) :
    Trusted ⟨(registry.store.resolveService name now).1, registry.inner⟩ :=
  trusted.advance fun _ _ seen => seen.resolveService

/-- A call leaves only honest marks, unless it loses a touch. -/
theorem Trusted.answer (trusted : Trusted registry) (clock : Int) (call : IdOfCall)
    (kept : ¬ TouchLost registry call) : Trusted (IdOfRun.answer ⟨registry, clock⟩ call).1 := by
  unfold IdOfRun.answer
  rcases registry.idOf_outcome call.name call.now call.failure with
    ⟨sid, last, known, mark, recent, found, result⟩ | ⟨sid, fault, known, failed, found, result⟩ |
    ⟨sid, known, told, result⟩ | ⟨fault, store, unknown, found, written, result⟩ |
    ⟨sid, unknown, found, answer, result⟩
  · rw [result]
    exact trusted
  · rw [result]
    refine trusted.mark (not_not.mp fun unseen => kept ⟨failed, sid, _, found, ?_⟩)
    intro row member same
    exact not_le.mp fun later => unseen ⟨row, member, same, later⟩
  · rw [result]
    obtain ⟨ts, seen⟩ := trusted.stored _ sid known
    have told : Trusted ⟨registry.store.touchService sid call.now, registry.inner⟩ :=
      trusted.advance fun _ _ seen => seen.touchService
    exact told.mark (ServicesTable.touchService_seen seen)
  · rw [result]
    rcases written with rfl | rfl
    · exact trusted
    · exact trusted.resolveService call.name call.now
  · rw [result]
    exact (trusted.resolveService call.name call.now).resolved
      (ServicesTable.resolveService_seen answer)

theorem Trusted.lagBounded (trusted : Trusted registry) (clock : Int) :
    LagBounded ⟨registry, clock⟩ := by
  intro call sid later answered
  have within : ∀ {store : ServicesTable} {ts : Int}, call.now - ts < maxWatermarkLagMs →
      store.SeenSince sid ts → ∃ row ∈ store.rows, row.sid = sid.raw.toNat ∧
        call.now - maxWatermarkLagMs < row.lastSeenMs := by
    intro store ts recent seen
    obtain ⟨row, member, same, since⟩ := seen
    exact ⟨row, member, same, by omega⟩
  have now : call.now - call.now < maxWatermarkLagMs := by
    rw [Int.sub_self]
    decide
  unfold IdOfRun.answer at answered ⊢
  rcases registry.idOf_outcome call.name call.now call.failure with
    ⟨other, last, known, mark, recent, found, result⟩ | ⟨other, fault, known, failed, found, result⟩ |
    ⟨other, known, told, result⟩ | ⟨fault, store, unknown, found, written, result⟩ |
    ⟨other, unknown, found, answer, result⟩
  · rw [result] at answered ⊢
    cases answered
    exact within recent (trusted.marks _ last mark)
  · rw [result] at answered
    cases answered
  · rw [result] at answered ⊢
    cases answered
    obtain ⟨ts, seen⟩ := trusted.stored _ _ known
    exact within now (ServicesTable.touchService_seen seen)
  · rw [result] at answered
    cases answered
  · rw [result] at answered ⊢
    cases answered
    exact within now (ServicesTable.resolveService_seen answer)

/-- A lost touch leaves a mark that the table does not bear out. -/
theorem not_marksHold_of_touchLost {call : IdOfCall} (clock : Int)
    (lost : TouchLost registry call) :
    ¬ MarksHold (IdOfRun.answer ⟨registry, clock⟩ call).1 := by
  obtain ⟨failed, sid, marked, found, older⟩ := lost
  unfold IdOfRun.answer
  intro marks
  rcases registry.idOf_outcome call.name call.now call.failure with
    ⟨_, _, _, _, _, other, _⟩ | ⟨same, fault, known, _, other, result⟩ | ⟨_, _, told, _⟩ |
    ⟨_, _, _, other, _, _⟩ | ⟨_, _, other, _, _⟩
  · rw [other] at found
    cases found
  · rw [other] at found
    cases found
    rw [result] at marks
    obtain ⟨row, member, named, since⟩ := marks sid call.now (Function.update_self ..)
    exact absurd since (not_le.mpr (older row member named))
  · exact failed told
  · rw [other] at found
    cases found
  · rw [other] at found
    cases found

/-- As long as no touch is lost the marks hold and the lag is bounded; the first lost touch
breaks the marks. -/
theorem watermark_lag_bounded {table : ServicesTable} {registry : ServiceRegistry}
    (loaded : ServiceRegistry.load table = .ok registry) {clock : Int} {run : IdOfRun}
    (reached : (idOfMachine registry clock).Reachable
      (fun run call => ¬ TouchLost run.registry call) run) :
    MarksHold run.registry ∧ LagBounded run ∧
      ∀ call, run.clock ≤ call.now →
        (MarksHold (run.answer call).1 ↔ ¬ TouchLost run.registry call) := by
  have trusted : Trusted run.registry := by
    refine reached.invariant (fun run => Trusted run.registry) (.ofLoad loaded) ?_
    intro before after call trusted kept taken
    simp only [idOfMachine] at taken
    split at taken
    · obtain rfl := Option.some.inj taken
      exact trusted.answer before.clock call kept
    · cases taken
  refine ⟨trusted.marks, trusted.lagBounded run.clock, fun call _ => ⟨fun marks lost => ?_, ?_⟩⟩
  · exact not_marksHold_of_touchLost run.clock lost marks
  · exact fun kept => (trusted.answer run.clock call kept).marks

/-! ## Two runs -/

def touchKept (run : IdOfRun) (call : IdOfCall) : Bool :=
  match ServiceRegistry.lookup run.registry.inner call.name call.now with
  | .touches sid _ => call.failure.isNone ||
      run.registry.store.rows.any fun row => row.sid = sid.raw.toNat ∧ call.now ≤ row.lastSeenMs
  | _ => true

theorem not_touchLost_of_kept (run : IdOfRun) (call : IdOfCall) (kept : touchKept run call = true) :
    ¬ TouchLost run.registry call := by
  intro lost
  obtain ⟨failed, sid, marked, found, older⟩ := lost
  rw [touchKept, found, Bool.or_eq_true, Option.isNone_iff_eq_none] at kept
  rcases kept with none | newer
  · exact failed none
  · obtain ⟨row, member, same⟩ := List.any_eq_true.mp newer
    have current := of_decide_eq_true same
    exact absurd current.2 (not_le.mpr (older row member current.1))

/-- One service, seen an hour after the epoch. -/
def webAtOneHour : ServicesTable := (ServicesTable.empty.resolveService "web" 3600000).1

def webRegistry : ServiceRegistry := ⟨webAtOneHour, Inner.empty.insertName "web" ⟨1⟩⟩

theorem load_webAtOneHour : ServiceRegistry.load webAtOneHour = .ok webRegistry := rfl

/-- A touch that fails when the table is already ahead, a resolve that fails, and a touch. -/
def keepsUp : List IdOfCall := [
  ⟨"web", 3000000, some "database is locked"⟩, ⟨"db", 4000000, some "database is locked"⟩,
  ⟨"web", 9000000, none⟩]

theorem watermark_lag_bounded_after_failures : ∃ run : IdOfRun,
    run.registry.store.rows = [⟨1, "web", 9000000⟩] ∧ MarksHold run.registry ∧ LagBounded run := by
  have done : ((idOfMachine webRegistry 0).run touchKept (idOfMachine webRegistry 0).start
      keepsUp).map (fun run => run.registry.store.rows) = some [⟨1, "web", 9000000⟩] := by
    decide +kernel
  obtain ⟨run, taken, rows⟩ := Option.map_eq_some_iff.mp done
  have bounded := watermark_lag_bounded load_webAtOneHour
    (Machine.Reachable.start.run not_touchLost_of_kept taken)
  exact ⟨run, rows, bounded.1, bounded.2.1⟩

/-- The touch fails two hours later; the next call is answered from the cache. -/
theorem failed_touch_breaks_lag :
    ¬ ∀ (table : ServicesTable) (registry : ServiceRegistry) (clock : Int) (run : IdOfRun),
        ServiceRegistry.load table = .ok registry →
          (idOfMachine registry clock).Reachable Machine.anyStep run →
            MarksHold run.registry ∨ LagBounded run := by
  intro always
  have taken : (idOfMachine webRegistry 0).step (idOfMachine webRegistry 0).start
      ⟨"web", 10800000, some "database is locked"⟩ =
        some ⟨⟨webAtOneHour, webRegistry.marked ⟨1⟩ 10800000⟩, 10800000⟩ := rfl
  have reached : (idOfMachine webRegistry 0).Reachable Machine.anyStep _ :=
    Machine.Reachable.start.step _ trivial taken
  rcases always _ _ _ _ load_webAtOneHour reached with marks | bounded
  · obtain ⟨row, member, _, since⟩ := marks ⟨1⟩ 10800000 rfl
    obtain rfl := List.mem_singleton.mp member
    revert since
    decide
  · obtain ⟨row, member, _, since⟩ := bounded ⟨"web", 10800001, none⟩ ⟨1⟩ (by decide) rfl
    obtain rfl := List.mem_singleton.mp member
    revert since
    decide

end Vpsiner.Metadata
