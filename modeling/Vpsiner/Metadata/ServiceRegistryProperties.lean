import Vpsiner.Metadata.ServicesProperties

/-! The two maps of the registry and the table behind them, over any interleaving of calls. -/

set_option autoImplicit false

namespace Vpsiner.Metadata

open Lib

/-- The ids that a step leaves in the table are `u32`s. -/
def IdsFit (run : RegistryRun) (action : RegistryAction) : Prop :=
  ∀ after ∈ run.step action, after.registry.store.Fits

/-- How the pairs in the maps differ from those in the table while a call is under way. -/
def Behind (held pairs : List (String × ServiceId)) : Option Holder → Prop
  | none => held = pairs
  | some (.touching name sid _) => held = pairs ∧ (name, sid) ∈ held
  | some (.touched name sid) => held = pairs ∧ (name, sid) ∈ held
  | some (.resolving name _) => held = pairs ∧ name ∉ held.map Prod.fst
  | some (.resolved name sid _) => pairs.Perm ((name, sid) :: held)
  | some (.deleting _) => held = pairs
  | some (.deleted sids) => ∃ gone, sids = gone.map Prod.snd ∧ held.Perm (gone ++ pairs)

/-- A later answer took the id back. -/
def TakenBack (returns : List RegistryReturn) (index : Nat) (sid : ServiceId) (bound : Nat) : Prop :=
  ∃ later sids, index < later ∧ later < bound ∧ returns[later]? = some (.reclaimed sids) ∧ sid ∈ sids

structure RegistryInv (run : RegistryRun) (held : List (String × ServiceId)) : Prop where
  holds : run.registry.inner.Holds held
  behind : Behind held run.registry.store.pairs run.holder
  fits : run.registry.store.Fits
  heldAssigned : ∀ pair ∈ held, pair ∈ run.assigned
  storedAssigned : ∀ pair ∈ run.registry.store.pairs, pair ∈ run.assigned
  toldAssigned : ∀ name sid, .idOf name sid ∈ run.returns → (name, sid) ∈ run.assigned
  issued : ∀ pair ∈ run.assigned, pair.2.raw.toNat ≤ run.registry.store.sequence
  oneName : ∀ one ∈ run.assigned, ∀ other ∈ run.assigned, one.2 = other.2 → one.1 = other.1
  current : ∀ index name sid, run.returns[index]? = some (.idOf name sid) →
    run.registry.inner.byName name = some sid ∨
      TakenBack run.returns index sid run.returns.length
  stable : ∀ index next name first second, index < next →
    run.returns[index]? = some (.idOf name first) →
    run.returns[next]? = some (.idOf name second) →
    first = second ∨ TakenBack run.returns index first next

variable {run after : RegistryRun} {held : List (String × ServiceId)}

theorem RegistryInv.ofLoad {table : ServicesTable} {registry : ServiceRegistry}
    (loaded : ServiceRegistry.load table = .ok registry) :
    RegistryInv (registryMachine registry).start registry.store.pairs := by
  obtain ⟨rfl, fits, holds⟩ := ServiceRegistry.load_holds loaded
  exact {
    holds := holds
    behind := rfl
    fits := fits
    heldAssigned := fun _ member => member
    storedAssigned := fun _ member => member
    toldAssigned := fun _ _ member => by cases member
    issued := fun _ member => ServicesTable.number_le_sequence fits member
    oneName := by
      intro one first other second same
      have swapped : (one.1, other.2) ∈ registry.store.pairs := by rwa [← same]
      exact holds.first_unique swapped second
    current := fun _ _ _ found => by cases found
    stable := fun _ _ _ _ _ _ found => by cases found }

/-- Steps that answer nothing leave the history of answers as it is. -/
theorem RegistryInv.unanswered (inv : RegistryInv run held)
    (sameReturns : after.returns = run.returns) (sameAssigned : after.assigned = run.assigned)
    (sameNames : after.registry.inner.byName = run.registry.inner.byName)
    (sameIds : after.registry.inner.byId = run.registry.inner.byId)
    (behind : Behind held after.registry.store.pairs after.holder)
    (fits : after.registry.store.Fits)
    (kept : ∀ pair ∈ after.registry.store.pairs, pair ∈ run.registry.store.pairs)
    (sequence : after.registry.store.sequence = run.registry.store.sequence) :
    RegistryInv after held where
  holds := by
    rw [Inner.Holds, sameNames, sameIds]
    exact inv.holds
  behind := behind
  fits := fits
  heldAssigned := by
    rw [sameAssigned]
    exact inv.heldAssigned
  storedAssigned := by
    rw [sameAssigned]
    exact fun pair member => inv.storedAssigned pair (kept pair member)
  toldAssigned := by
    rw [sameAssigned, sameReturns]
    exact inv.toldAssigned
  issued := by
    rw [sameAssigned, sequence]
    exact inv.issued
  oneName := by
    rw [sameAssigned]
    exact inv.oneName
  current := by
    rw [sameReturns, sameNames]
    exact inv.current
  stable := by
    rw [sameReturns]
    exact inv.stable

theorem TakenBack.append {returns more : List RegistryReturn} {index bound : Nat} {sid : ServiceId}
    (taken : TakenBack returns index sid bound) : TakenBack (returns ++ more) index sid bound := by
  obtain ⟨later, sids, after, before, found, member⟩ := taken
  have inside := (List.getElem?_eq_some_iff.mp found).1
  exact ⟨later, sids, after, before, (List.getElem?_append_left inside).trans found, member⟩

theorem TakenBack.extend {returns : List RegistryReturn} {index bound more : Nat} {sid : ServiceId}
    (taken : TakenBack returns index sid bound) (le : bound ≤ more) :
    TakenBack returns index sid more := by
  obtain ⟨later, sids, after, before, rest⟩ := taken
  exact ⟨later, sids, after, before.trans_le le, rest⟩

/-- What a call that returns has to show for its answer. -/
structure Answers (run after : RegistryRun) (value : RegistryReturn) : Prop where
  returns : after.returns = run.returns ++ [value]
  assigned : after.assigned = run.assigned
  named : ∀ name sid, value = .idOf name sid → after.registry.inner.byName name = some sid
  reclaims : ∀ name sid, run.registry.inner.byName name = some sid →
    after.registry.inner.byName name = some sid ∨ ∃ sids, value = .reclaimed sids ∧ sid ∈ sids

theorem RegistryInv.answered (inv : RegistryInv run held) {value : RegistryReturn}
    {nowHeld : List (String × ServiceId)} (answers : Answers run after value)
    (holds : after.registry.inner.Holds nowHeld)
    (behind : Behind nowHeld after.registry.store.pairs after.holder)
    (sameStore : after.registry.store = run.registry.store)
    (heldAssigned : ∀ pair ∈ nowHeld, pair ∈ run.assigned) : RegistryInv after nowHeld where
  holds := holds
  behind := behind
  fits := by
    rw [sameStore]
    exact inv.fits
  heldAssigned := by
    rw [answers.assigned]
    exact heldAssigned
  storedAssigned := by
    rw [answers.assigned, sameStore]
    exact inv.storedAssigned
  toldAssigned := by
    intro name sid member
    rw [answers.returns] at member
    rw [answers.assigned]
    cases List.mem_append.mp member with
    | inl old => exact inv.toldAssigned name sid old
    | inr new =>
        have present := answers.named name sid (List.mem_singleton.mp new).symm
        exact heldAssigned _ ((holds.forward_iff name sid).mp present)
  issued := by
    rw [answers.assigned, sameStore]
    exact inv.issued
  oneName := by
    rw [answers.assigned]
    exact inv.oneName
  current := by
    intro index name sid found
    rw [answers.returns] at found ⊢
    rcases Nat.lt_or_ge index run.returns.length with old | new
    · rw [List.getElem?_append_left old] at found
      rcases inv.current index name sid found with present | taken
      · rcases answers.reclaims name sid present with kept | ⟨sids, rfl, gone⟩
        · exact .inl kept
        · exact .inr ⟨run.returns.length, sids, old, by simp, List.getElem?_concat_length, gone⟩
      · exact .inr (taken.append.extend (by simp))
    · rw [List.getElem?_append_right new, List.getElem?_singleton] at found
      split at found
      · exact .inl (answers.named name sid (Option.some.inj found))
      · cases found
  stable := by
    intro index next name first second before one other
    rw [answers.returns] at one other ⊢
    rcases Nat.lt_or_ge next run.returns.length with old | new
    · rw [List.getElem?_append_left (before.trans old)] at one
      rw [List.getElem?_append_left old] at other
      rcases inv.stable index next name first second before one other with same | taken
      · exact .inl same
      · exact .inr taken.append
    · rw [List.getElem?_append_right new, List.getElem?_singleton] at other
      split at other
      · next last =>
          have atEnd : next = run.returns.length := by omega
          have isNew := Option.some.inj other
          subst atEnd
          rw [List.getElem?_append_left before] at one
          rcases inv.current index name first one with present | taken
          · left
            rcases answers.reclaims name first present with kept | ⟨sids, reclaimed, _⟩
            · rw [answers.named name second isNew] at kept
              exact (Option.some.inj kept).symm
            · rw [isNew] at reclaimed
              cases reclaimed
          · exact .inr taken.append
      · cases other

/-- An answer that is read off the map changes nothing else. -/
theorem RegistryInv.told (inv : RegistryInv run held) {name : String} {sid : ServiceId}
    (present : run.registry.inner.byName name = some sid) :
    RegistryInv (run.answer (.idOf name sid)) held := by
  refine inv.answered ⟨rfl, rfl, ?_, fun _ _ old => .inl old⟩ inv.holds inv.behind rfl
    inv.heldAssigned
  intro other value same
  cases same
  exact present

/-! ## One step -/

theorem RegistryInv.call (inv : RegistryInv run held) (request : RegistryCall) :
    RegistryInv (run.call request) held := by
  have queued : RegistryInv { run with waiting := run.waiting ++ [request] } held :=
    inv.unanswered rfl rfl rfl rfl inv.behind inv.fits (fun _ member => member) rfl
  cases request with
  | reclaimBefore cutoffMs => exact queued
  | idOf name now =>
      unfold RegistryRun.call
      dsimp only
      cases fresh : run.registry.inner.freshCachedId name now with
      | none => exact queued
      | some sid => exact inv.told (Inner.freshCachedId_byName fresh)

theorem RegistryInv.acquire (inv : RegistryInv run held) {index : Nat}
    (taken : run.acquire index = some after) : RegistryInv after held := by
  unfold RegistryRun.acquire at taken
  cases free : run.holder with
  | some holder =>
      rw [free] at taken
      cases taken
  | none =>
      have same := inv.behind
      rw [free] at same
      cases first : run.waiting[index]? with
      | none =>
          rw [free, first] at taken
          cases taken
      | some request =>
          rw [free, first] at taken
          cases request with
          | reclaimBefore cutoffMs =>
              obtain rfl := Option.some.inj taken
              exact inv.unanswered rfl rfl rfl rfl same inv.fits (fun _ member => member) rfl
          | idOf name now =>
              have outcome := ServiceRegistry.lookup_cases run.registry.inner name now
              simp only at taken
              cases found : ServiceRegistry.lookup run.registry.inner name now with
              | done sid =>
                  rw [found] at taken outcome
                  obtain rfl := Option.some.inj taken
                  have waited : RegistryInv
                      { run with waiting := run.waiting.eraseIdx index, holder := none } held :=
                    inv.unanswered rfl rfl rfl rfl same inv.fits (fun _ member => member) rfl
                  exact waited.told outcome.1
              | touches sid marked =>
                  rw [found] at taken outcome
                  obtain rfl := Option.some.inj taken
                  have member := (inv.holds.forward_iff name sid).mp outcome.1
                  rw [outcome.2]
                  exact inv.unanswered rfl rfl rfl rfl ⟨same, member⟩ inv.fits
                    (fun _ member => member) rfl
              | resolves =>
                  rw [found] at taken outcome
                  obtain rfl := Option.some.inj taken
                  refine inv.unanswered rfl rfl rfl rfl ⟨same, fun inside => ?_⟩ inv.fits
                    (fun _ member => member) rfl
                  obtain ⟨⟨other, sid⟩, member, rfl⟩ := List.mem_map.mp inside
                  rw [(inv.holds.forward_iff other sid).mpr member] at outcome
                  cases outcome

/-- A new row takes an id above every id that was ever in use. -/
theorem RegistryInv.inserted (inv : RegistryInv run held) {name : String} {now : Int}
    (holder : run.holder = some (.resolving name now))
    (fresh : run.registry.store.row? name = none)
    (fits : (run.registry.store.insert name now fresh).Fits) :
    RegistryInv { run with
      registry := ⟨run.registry.store.insert name now fresh, run.registry.inner⟩
      assigned := run.assigned ++ (run.registry.store.insert name now fresh).pairs
      holder := some (.resolved name ⟨UInt32.ofNat (run.registry.store.sequence + 1)⟩ now) }
      held := by
  have same := inv.behind
  rw [holder] at same
  obtain ⟨rfl, absent⟩ := same
  have number : (UInt32.ofNat (run.registry.store.sequence + 1)).toNat =
      run.registry.store.sequence + 1 :=
    fits.toNat (List.mem_append_right _ (List.mem_singleton_self _))
  have newRow : ∀ pair ∈ run.assigned ++ (run.registry.store.insert name now fresh).pairs,
      pair ∈ run.assigned ∨ pair = (name, ⟨UInt32.ofNat (run.registry.store.sequence + 1)⟩) := by
    intro pair member
    rw [ServicesTable.pairs_insert] at member
    rcases List.mem_append.mp member with old | stored
    · exact .inl old
    · rcases List.mem_append.mp stored with old | new
      · exact .inl (inv.storedAssigned pair old)
      · exact .inr (List.mem_singleton.mp new)
  exact {
    holds := inv.holds
    behind := by
      show (ServicesTable.pairs _).Perm _
      rw [ServicesTable.pairs_insert]
      exact List.perm_append_singleton _ _
    fits := fits
    heldAssigned := fun pair member => List.mem_append_left _ (inv.heldAssigned pair member)
    storedAssigned := fun pair member => List.mem_append_right _ member
    toldAssigned := fun name sid member => List.mem_append_left _ (inv.toldAssigned name sid member)
    issued := by
      intro pair member
      rcases newRow pair member with old | rfl
      · exact (inv.issued pair old).trans (Nat.le_succ _)
      · exact number.le
    oneName := by
      intro one first other second same
      rcases newRow one first with oldOne | rfl
      · rcases newRow other second with oldOther | rfl
        · exact inv.oneName one oldOne other oldOther same
        · have bound := inv.issued one oldOne
          rw [same] at bound
          exact absurd (number ▸ bound) (Nat.not_succ_le_self _)
      · rcases newRow other second with oldOther | rfl
        · have bound := inv.issued other oldOther
          rw [← same] at bound
          exact absurd (number ▸ bound) (Nat.not_succ_le_self _)
        · rfl
    current := inv.current
    stable := inv.stable }

theorem RegistryInv.statement (inv : RegistryInv run held) {failure : Option String}
    (fit : ∀ after ∈ run.statement failure, after.registry.store.Fits)
    (taken : run.statement failure = some after) : RegistryInv after held := by
  have afterFits := fit after taken
  unfold RegistryRun.statement at taken
  have released (free : Behind held run.registry.store.pairs none) : RegistryInv run.release held :=
    inv.unanswered rfl rfl rfl rfl free inv.fits (fun _ member => member) rfl
  have behind := inv.behind
  cases waits : run.holder with
  | none =>
      rw [waits] at taken
      cases taken
  | some holder =>
      rw [waits] at taken behind
      cases holder with
      | touching name sid now =>
          cases failure with
          | some detail =>
              obtain rfl := Option.some.inj taken
              exact released behind.1
          | none =>
              obtain rfl := Option.some.inj taken
              have same := @ServicesTable.pairs_touchService run.registry.store sid now
              refine inv.unanswered rfl rfl rfl rfl ?_ afterFits (fun pair member => ?_) rfl
              · rw [same]
                exact behind
              · rwa [← same]
      | resolving name now =>
          cases failure with
          | some detail =>
              obtain rfl := Option.some.inj taken
              exact released behind.1
          | none =>
              obtain ⟨same, absent⟩ := behind
              have fresh := ServicesTable.row?_eq_none (same ▸ absent)
              dsimp only at taken
              rw [ServicesTable.resolveService_fresh now fresh] at taken
              dsimp only at taken
              have stored : after.registry.store = run.registry.store.insert name now fresh := by
                cases decoded : serviceId (run.registry.store.sequence + 1) with
                | ok sid =>
                    rw [decoded] at taken
                    obtain rfl := Option.some.inj taken
                    rfl
                | error fault =>
                    rw [decoded] at taken
                    obtain rfl := Option.some.inj taken
                    rfl
              have fits := stored ▸ afterFits
              have small := fits _ (List.mem_append_right _ (List.mem_singleton_self _))
              rw [serviceId_of_lt small] at taken
              obtain rfl := Option.some.inj taken
              exact inv.inserted waits fresh fits
      | deleting cutoffMs =>
          cases failure with
          | some detail =>
              obtain rfl := Option.some.inj taken
              exact released behind
          | none =>
              dsimp only at taken
              rw [ServicesTable.deleteServicesBefore_result inv.fits cutoffMs] at taken
              obtain rfl := Option.some.inj taken
              have parts := run.registry.store.stale_append_pairs cutoffMs
              refine inv.unanswered rfl rfl rfl rfl ⟨_, rfl, ?_⟩ afterFits (fun pair member => ?_) rfl
              · rw [show held = run.registry.store.pairs from behind]
                exact parts
              · exact parts.mem_iff.mpr (List.mem_append_right _ member)
      | touched name sid =>
          cases taken
      | resolved name sid now =>
          cases taken
      | deleted sids =>
          cases taken

theorem RegistryInv.resume (inv : RegistryInv run held) (taken : run.resume = some after) :
    ∃ held, RegistryInv after held := by
  unfold RegistryRun.resume at taken
  have behind := inv.behind
  cases waits : run.holder with
  | none =>
      rw [waits] at taken
      cases taken
  | some holder =>
      rw [waits] at taken behind
      cases holder with
      | touched name sid =>
          obtain rfl := Option.some.inj taken
          have free : RegistryInv run.release held :=
            inv.unanswered rfl rfl rfl rfl behind.1 inv.fits (fun _ member => member) rfl
          exact ⟨held, free.told ((inv.holds.forward_iff name sid).mpr behind.2)⟩
      | resolved name sid now =>
          obtain rfl := Option.some.inj taken
          have newName := ((behind.map Prod.fst).nodup_iff.mp run.registry.store.names_nodup)
          have newSid := (behind.map Prod.snd).nodup_iff.mp (ServicesTable.sids_nodup inv.fits)
          have holds := inv.holds.insertName (List.nodup_cons.mp newName).1 (List.nodup_cons.mp newSid).1
          refine ⟨run.registry.store.pairs, inv.answered ⟨rfl, rfl, ?_, ?_⟩ (holds.perm behind.symm)
            rfl rfl inv.storedAssigned⟩
          · intro other value same
            cases same
            exact Function.update_self ..
          · intro other value old
            left
            have different : other ≠ name := by
              intro same
              subst same
              have member := (inv.holds.forward_iff other value).mp old
              exact (List.nodup_cons.mp newName).1 (List.mem_map.mpr ⟨_, member, rfl⟩)
            exact (Function.update_of_ne different ..).trans old
      | deleted sids =>
          obtain rfl := Option.some.inj taken
          obtain ⟨gone, rfl, parts⟩ := behind
          have kept := Inner.Holds.forget_gone (inv.holds.perm parts)
          refine ⟨run.registry.store.pairs, inv.answered ⟨rfl, rfl, ?_, ?_⟩ kept rfl rfl
            inv.storedAssigned⟩
          · intro name sid same
            cases same
          · intro name sid old
            have member := parts.mem_iff.mp ((inv.holds.forward_iff name sid).mp old)
            rcases List.mem_append.mp member with out | stays
            · exact .inr ⟨_, rfl, List.mem_map_of_mem out⟩
            · exact .inl ((kept.forward_iff name sid).mpr stays)
      | touching name sid now =>
          cases taken
      | resolving name now =>
          cases taken
      | deleting cutoffMs =>
          cases taken

theorem RegistryInv.step (inv : RegistryInv run held) {action : RegistryAction}
    (fit : IdsFit run action) (taken : run.step action = some after) :
    ∃ held, RegistryInv after held := by
  cases action with
  | call request =>
      obtain rfl := Option.some.inj taken
      exact ⟨held, inv.call request⟩
  | acquire index => exact ⟨held, inv.acquire taken⟩
  | statement failure => exact ⟨held, inv.statement fit taken⟩
  | resume => exact inv.resume taken

/-! ## Whole runs -/

theorem RegistryInv.ofReachable {table : ServicesTable} {registry : ServiceRegistry}
    (loaded : ServiceRegistry.load table = .ok registry)
    (reached : (registryMachine registry).Reachable IdsFit run) :
    ∃ held, RegistryInv run held := by
  refine reached.invariant (fun run => ∃ held, RegistryInv run held) ?_ ?_
  · exact ⟨_, .ofLoad loaded⟩
  · intro before after action inv fit taken
    obtain ⟨held, inv⟩ := inv
    exact inv.step fit taken

theorem assigned_grows {action : RegistryAction} (taken : run.step action = some after) :
    run.assigned ⊆ after.assigned := by
  cases action with
  | call request =>
      obtain rfl := Option.some.inj taken
      unfold RegistryRun.call
      split
      · split <;> exact List.Subset.refl _
      · exact List.Subset.refl _
  | acquire index =>
      simp only [RegistryRun.step, RegistryRun.acquire] at taken
      split at taken
      · split at taken
        · split at taken <;> exact Option.some.inj taken ▸ List.Subset.refl _
        · exact Option.some.inj taken ▸ List.Subset.refl _
      · cases taken
  | statement failure =>
      simp only [RegistryRun.step, RegistryRun.statement] at taken
      split at taken
      · exact Option.some.inj taken ▸ List.Subset.refl _
      · split at taken <;> exact Option.some.inj taken ▸ List.subset_append_left _ _
      · split at taken <;> exact Option.some.inj taken ▸ List.Subset.refl _
      · exact Option.some.inj taken ▸ List.Subset.refl _
      · exact Option.some.inj taken ▸ List.Subset.refl _
      · exact Option.some.inj taken ▸ List.Subset.refl _
      · cases taken
  | resume =>
      simp only [RegistryRun.step, RegistryRun.resume] at taken
      split at taken
      · exact Option.some.inj taken ▸ List.Subset.refl _
      · exact Option.some.inj taken ▸ List.Subset.refl _
      · exact Option.some.inj taken ▸ List.Subset.refl _
      · cases taken

/-- The id stands for the name in the table, in a map or in an answer. -/
def RegistryRun.Associates (run : RegistryRun) (name : String) (sid : ServiceId) : Prop :=
  (∃ row ∈ run.registry.store.rows, row.name = name ∧ row.sid = sid.raw.toNat) ∨
    run.registry.inner.byName name = some sid ∨ run.registry.inner.byId sid = some name ∨
      .idOf name sid ∈ run.returns

theorem RegistryInv.associated (inv : RegistryInv run held) {name : String} {sid : ServiceId}
    (associated : run.Associates name sid) : (name, sid) ∈ run.assigned := by
  rcases associated with stored | named | identified | told
  · exact inv.storedAssigned _ ((ServicesTable.mem_pairs inv.fits name sid).mpr stored)
  · exact inv.heldAssigned _ ((inv.holds.forward_iff name sid).mp named)
  · exact inv.heldAssigned _ ((inv.holds.backward_iff name sid).mp identified)
  · exact inv.toldAssigned name sid told

/-- Whenever the lock is free the maps are the table; an id keeps its name for the whole run,
and a name keeps its id until a reclaim returns that id. -/
theorem registry_bijection {table : ServicesTable} {registry : ServiceRegistry}
    (loaded : ServiceRegistry.load table = .ok registry) {earlier later : RegistryRun}
    (reached : (registryMachine registry).Reachable IdsFit earlier)
    (continued : ((registryMachine registry).startingAt earlier).Reachable IdsFit later) :
    (later.holder = none →
      (∀ name sid, later.registry.inner.byName name = some sid ↔
        later.registry.inner.byId sid = some name) ∧
      ∀ name sid, later.registry.inner.byName name = some sid ↔
        ∃ row ∈ later.registry.store.rows, row.name = name ∧ row.sid = sid.raw.toNat) ∧
    (∀ first second sid, earlier.Associates first sid → later.Associates second sid →
      first = second) ∧
    ∀ (index next : Nat) name first second, index < next →
      later.returns[index]? = some (RegistryReturn.idOf name first) →
      later.returns[next]? = some (RegistryReturn.idOf name second) →
      first = second ∨ ∃ between sids, index < between ∧ between < next ∧
        later.returns[between]? = some (RegistryReturn.reclaimed sids) ∧ first ∈ sids := by
  obtain ⟨held, inv⟩ := RegistryInv.ofReachable loaded (reached.trans continued)
  refine ⟨fun free => ⟨inv.holds.inverse, fun name sid => ?_⟩, ?_, inv.stable⟩
  · have same := inv.behind
    rw [free] at same
    rw [inv.holds.forward_iff, show held = later.registry.store.pairs from same,
      ServicesTable.mem_pairs inv.fits]
  · intro first second sid before after
    obtain ⟨_, earlierInv⟩ := RegistryInv.ofReachable loaded reached
    have grows : earlier.assigned ⊆ later.assigned := by
      refine continued.invariant (earlier.assigned ⊆ ·.assigned) (List.Subset.refl _) ?_
      exact fun grown _ taken => List.Subset.trans grown (assigned_grows taken)
    exact inv.oneName _ (grows (earlierInv.associated before)) _ (inv.associated after) rfl

def idsFitOk (run : RegistryRun) (action : RegistryAction) : Bool :=
  (run.step action).all fun after => after.registry.store.rows.all fun row => row.sid < 2 ^ 32

theorem idsFit_of_ok (run : RegistryRun) (action : RegistryAction)
    (ok : idsFitOk run action = true) : IdsFit run action := by
  intro after taken row member
  have checked := (Option.all_eq_true _ _).mp ok after taken
  exact of_decide_eq_true (List.all_eq_true.mp checked row member)

/-- A second caller queues behind the first; then the service is reclaimed and comes back. -/
def internsTwice : List RegistryAction := [
  .call (.idOf "web" 5), .call (.idOf "web" 6), .acquire 0, .statement none, .resume, .acquire 0,
  .call (.reclaimBefore 10), .acquire 0, .statement none, .call (.idOf "web" 7), .resume,
  .call (.idOf "web" 20), .acquire 0, .statement none, .resume]

theorem registry_bijection_after_reclaim : ∃ run : RegistryRun,
    run.returns = [.idOf "web" ⟨1⟩, .idOf "web" ⟨1⟩, .idOf "web" ⟨1⟩, .reclaimed [⟨1⟩],
      .idOf "web" ⟨2⟩] ∧
    ∀ name sid, run.registry.inner.byName name = some sid ↔
      run.registry.inner.byId sid = some name := by
  have done : ((registryMachine ⟨.empty, .empty⟩).run idsFitOk
      (registryMachine ⟨.empty, .empty⟩).start internsTwice).map
        (fun run => (run.returns, run.holder)) =
      some ([.idOf "web" ⟨1⟩, .idOf "web" ⟨1⟩, .idOf "web" ⟨1⟩, .reclaimed [⟨1⟩],
        .idOf "web" ⟨2⟩], none) := by decide +kernel
  obtain ⟨run, taken, seen⟩ := Option.map_eq_some_iff.mp done
  obtain ⟨returns, free⟩ := Prod.mk.inj seen
  have loaded : ServiceRegistry.load .empty = .ok ⟨.empty, .empty⟩ := rfl
  have settled := registry_bijection loaded .start (Machine.Reachable.start.run idsFit_of_ok taken)
  exact ⟨run, returns, (settled.1 free).1⟩

end Vpsiner.Metadata
