import Vpsiner.Logs.AppendRetry
import Vpsiner.Logs.BufferLedger

/-! The stored checkpoints of a service against the stored lines. A checkpoint is taken
with a batch but names the last line accepted before, so it may overtake lines of another
batch that is still being appended or was put back. -/

set_option autoImplicit false

namespace Vpsiner.Logs

open Vpsiner.Lib

namespace LogBuffer

/-- The lines of a container that were accepted up to the line of a checkpoint, itself included. -/
def behind (buffer : LogBuffer) (cid : ContainerId) (mark : Mark) : List Accepted :=
  buffer.history.filter fun entry => entry.line.cid = cid ∧ entry.seq < mark.seq

/-- Every line behind a stored checkpoint has its own row in the store. -/
def CheckpointsBehindLines (config : BufferConfig) (buffer : LogBuffer) : Prop :=
  ∀ cid mark, buffer.metadata cid = some mark →
    ((buffer.behind cid mark).map fun entry => storedLine config.service entry.line).Subperm
      ((buffer.logs.entries config.service).map StoredLog.line)

/-- A stored checkpoint moves only when no line behind the new one is still in memory, and
each of them has a week file. -/
def AdvancesInOrder (before : LogBuffer) : BufferAction → Prop
  | .advanceReturns flusher true => ∀ cid mark rest,
      before.phase flusher = some (.advancing ((cid, mark) :: rest)) →
      (∀ stored ∈ before.metadata cid, stored.checkpoint.ts ≤ mark.checkpoint.ts) →
      ∀ entry ∈ before.behind cid mark,
        (weekDatabaseName entry.line.ts).isSome = true ∧ entry ∉ before.inMemory
  | _ => True

variable {config : BufferConfig} {buffer before after : LogBuffer} {flusher : Flusher}

/-! ## The checkpoints in use -/

/-- The checkpoint is in memory, in a running flush, or stored. -/
def Knows (buffer : LogBuffer) (cid : ContainerId) (mark : Mark) : Prop :=
  buffer.checkpoints cid = some mark ∨ buffer.metadata cid = some mark ∨
    ∃ phase ∈ buffer.flights, (cid, mark) ∈ phase.marks

variable {cid : ContainerId} {mark : Mark} {phase : FlushPhase}

theorem mem_marksOf {checkpoints : ContainerId → Option Mark} {lines : List Accepted}
    (member : (cid, mark) ∈ marksOf checkpoints lines) : checkpoints cid = some mark := by
  obtain ⟨other, _, found⟩ := List.mem_filterMap.mp member
  obtain ⟨stored, present, same⟩ := Option.map_eq_some_iff.mp found
  cases same
  exact present

theorem knows_flying (present : buffer.phase flusher = some phase)
    (flying : (cid, mark) ∈ phase.marks) : buffer.Knows cid mark :=
  .inr (.inr ⟨phase, (flights_perm present).mem_iff.mpr List.mem_cons_self, flying⟩)

theorem knows_setPhase (buffer : LogBuffer) (present : buffer.phase flusher = some phase)
    {next : Option FlushPhase}
    (known : (buffer.setPhase flusher next).Knows cid mark) :
    buffer.Knows cid mark ∨ ∃ phase ∈ next, (cid, mark) ∈ phase.marks := by
  obtain stamped | stored | ⟨other, member, flying⟩ := known
  · exact .inl (.inl stamped)
  · exact .inl (.inr (.inl stored))
  · cases List.mem_append.mp ((flights_setPhase present next).mem_iff.mp member) with
    | inl here => exact .inr ⟨other, Option.mem_toList.mp here, flying⟩
    | inr elsewhere =>
        have before := (flights_perm present).mem_iff.mpr (List.mem_cons_of_mem _ elsewhere)
        exact .inl (.inr (.inr ⟨other, before, flying⟩))

theorem knows_advanceNext (buffer : LogBuffer) (marks : List (ContainerId × Mark))
    (present : buffer.phase flusher = some phase)
    (known : (buffer.advanceNext flusher marks).Knows cid mark) :
    buffer.Knows cid mark ∨ (cid, mark) ∈ marks := by
  cases marks with
  | nil =>
      cases knows_setPhase buffer.notify present known with
      | inl kept => exact .inl kept
      | inr flying =>
          obtain ⟨_, none, _⟩ := flying
          cases none
  | cons first rest =>
      cases knows_setPhase buffer present known with
      | inl kept => exact .inl kept
      | inr flying =>
          obtain ⟨_, same, flying⟩ := flying
          cases same
          exact .inr flying

theorem startFlush_marks {next : FlushPhase} (started : next ∈ buffer.startFlush.2)
    (flying : (cid, mark) ∈ next.marks) : buffer.checkpoints cid = some mark := by
  rw [startFlush] at started
  split at started
  · cases started
  · cases started
    exact mem_marksOf flying

/-- The checkpoint that a line leaves behind when it is accepted. -/
def markOf (config : BufferConfig) (buffer : LogBuffer) (line : LogLine) : ContainerId × Mark :=
  (line.cid, ⟨⟨line.ts, config.hash line.stream line.line⟩, buffer.history.length + 1⟩)

theorem history_push {line : LogLine} (accepted : accepts config buffer.checkpoints line = true) :
    (buffer.push config line).history = buffer.history ++ [⟨buffer.history.length, line⟩] := by
  rcases push_cases config buffer line with ⟨-, pushed⟩ | ⟨-, -, pushed⟩ | ⟨dropped, -⟩
  · rw [pushed]
    exact (startFlush_fields (buffer.accept config line)).1.history
  · rw [pushed]
    rfl
  · rw [accepted] at dropped
    cases dropped

theorem knows_accept {line : LogLine} (known : (buffer.accept config line).Knows cid mark) :
    buffer.Knows cid mark ∨ (cid, mark) = buffer.markOf config line := by
  obtain stamped | kept := known
  · simp only [accept, Function.update_apply] at stamped
    split at stamped
    · next same =>
        cases stamped
        exact .inr (by rw [same]; rfl)
    · exact .inl (.inl stamped)
  · exact .inl (.inr kept)

theorem knows_scheduleFlush (live : buffer.WorkerLive) (known : buffer.scheduleFlush.Knows cid mark) :
    buffer.Knows cid mark := by
  rw [Knows, flights, worker_scheduleFlush buffer live] at known
  exact known

theorem knows_advanceLogCheckpoint {newer : Mark} {container : ContainerId}
    (known : (buffer.advanceLogCheckpoint container newer).Knows cid mark) :
    buffer.Knows cid mark ∨ (cid, mark) = (container, newer) := by
  obtain stamped | stored | flying := known
  · exact .inl (.inl stamped)
  · simp only [advanceLogCheckpoint] at stored
    split at stored
    · exact .inl (.inr (.inl stored))
    · rw [Function.update_apply] at stored
      split at stored
      · next same =>
          cases stored
          exact .inr (by rw [same])
      · exact .inl (.inr (.inl stored))
  · exact .inl (.inr (.inr flying))

/-- The worker moves between phases in which it holds no checkpoints. -/
theorem knows_idle (known : after.Knows cid mark) (idle : before.phase .worker = none)
    (still : after.phase .worker = none) (pushes : after.pushes = before.pushes)
    (same : SameHistory before after) (stores : SameStores before after) :
    before.Knows cid mark := by
  rw [Knows, flights, same.checkpoints, stores.metadata, still, pushes] at known
  rw [Knows, flights, idle]
  exact known

theorem knows_push (live : before.WorkerLive) {line : LogLine}
    (known : (before.push config line).Knows cid mark) :
    before.Knows cid mark ∨ (cid, mark) = before.markOf config line ∧
      accepts config before.checkpoints line = true := by
  simp only [push] at known
  split at known
  · next accepted =>
      refine Or.imp_right (⟨·, accepted⟩) ?_
      split at known
      · obtain ⟨same, stores, worker, pushes⟩ := startFlush_fields (before.accept config line)
        apply @knows_accept config _ _ _ line
        obtain stamped | stored | ⟨other, member, flying⟩ := known
        · exact .inl (same.checkpoints ▸ stamped)
        · exact .inr (.inl (stores.metadata ▸ stored))
        · simp only [flights, LogBuffer.phase, worker, pushes, List.mem_append,
            Option.mem_toList] at member
          obtain here | old | started := member
          · exact .inr (.inr ⟨other, List.mem_append_left _ (Option.mem_toList.mpr here), flying⟩)
          · exact .inr (.inr ⟨other, List.mem_append_right _ old, flying⟩)
          · exact .inl (startFlush_marks started flying)
      · exact knows_accept (knows_scheduleFlush live known)
  · exact .inl known

/-- A step knows no checkpoint that was not known before, except that of a line it accepts. -/
theorem knows_step {action : BufferAction} (live : before.WorkerLive)
    (stepped : before.step config action = some after) (known : after.Knows cid mark) :
    before.Knows cid mark ∨ ∃ line, action = .push line ∧
      (cid, mark) = before.markOf config line ∧ accepts config before.checkpoints line = true := by
  cases step_cases stepped with
  | pushed _ => exact (knows_push live known).imp_right fun last => ⟨_, rfl, last⟩
  | received receiving _ =>
      have idle : before.phase .worker = none := by simp only [LogBuffer.phase, receiving]
      exact .inl (knows_idle known idle rfl rfl ⟨rfl, rfl⟩ ⟨rfl, rfl⟩)
  | drained debouncing =>
      have idle : before.phase .worker = none := by simp only [LogBuffer.phase, debouncing]
      exact .inl (knows_idle known idle rfl rfl ⟨rfl, rfl⟩ ⟨rfl, rfl⟩)
  | flushed _ =>
      obtain ⟨same, stores, _, pushes⟩ := startFlush_fields before
      obtain stamped | stored | ⟨other, member, flying⟩ := known
      · exact .inl (.inl (same.checkpoints ▸ stamped))
      · exact .inl (.inr (.inl (stores.metadata ▸ stored)))
      · rw [flights_setPhase_worker, pushes, List.mem_append, Option.mem_toList] at member
        cases member with
        | inl started => exact .inl (.inl (startFlush_marks started flying))
        | inr old => exact .inl (.inr (.inr ⟨other, List.mem_append_right _ old, flying⟩))
  | retired receiving _ _ =>
      have idle : before.phase .worker = none := by simp only [LogBuffer.phase, receiving]
      exact .inl (knows_idle known idle rfl rfl ⟨rfl, rfl⟩ ⟨rfl, rfl⟩)
  | waited _ _ => exact .inl known
  | @stored _ _ _ _ logs present _ =>
      cases knows_setPhase { before with logs } present known with
      | inl kept => exact .inl kept
      | inr flying =>
          obtain ⟨_, same, flying⟩ := flying
          cases same
          exact .inl (knows_flying present flying)
  | @restored _ _ lines _ logs _ present _ =>
      cases knows_setPhase ({ before with logs, lines := lines ++ before.lines } :
          LogBuffer).requestServiceFlush present known with
      | inl kept => exact .inl kept
      | inr flying =>
          obtain ⟨_, none, _⟩ := flying
          cases none
  | @interned _ marks present =>
      cases knows_advanceNext before marks present known with
      | inl kept => exact .inl kept
      | inr flying => exact .inl (knows_flying present flying)
  | unnamed present =>
      cases knows_advanceNext before [] present known with
      | inl kept => exact .inl kept
      | inr none => cases none
  | @advanced _ container newer rest present =>
      cases knows_advanceNext (before.advanceLogCheckpoint container newer) rest present known with
      | inl kept =>
          cases knows_advanceLogCheckpoint kept with
          | inl kept => exact .inl kept
          | inr same => exact .inl (knows_flying present (same ▸ List.mem_cons_self))
      | inr later => exact .inl (knows_flying present (List.mem_cons_of_mem _ later))
  | @skipped _ _ _ rest present =>
      cases knows_advanceNext before rest present known with
      | inl kept => exact .inl kept
      | inr later => exact .inl (knows_flying present (List.mem_cons_of_mem _ later))

/-! ## The order of checkpoints and lines -/

/-- No stored checkpoint is ahead of a line in memory or of one without a week file. -/
def MarksTrail (buffer : LogBuffer) : Prop :=
  ∀ cid mark, buffer.metadata cid = some mark → ∀ entry ∈ buffer.behind cid mark,
    (weekDatabaseName entry.line.ts).isSome = true ∧ entry ∉ buffer.inMemory

def MarksBounded (buffer : LogBuffer) : Prop :=
  ∀ cid mark, buffer.Knows cid mark → mark.seq ≤ buffer.history.length

theorem history_length_le {action : BufferAction} (effect : Effect config before action after) :
    before.history.length ≤ after.history.length := by
  cases effect with
  | accepts _ history _ _ _ =>
      rw [history, List.length_append]
      exact Nat.le_add_right _ _
  | lands _ _ _ _ _ _ same => rw [same.history]
  | fails _ _ _ _ _ _ _ same => rw [same.history]
  | advances _ _ _ _ _ _ _ same => rw [same.history]
  | quiet _ same _ => rw [same.history]

theorem bounded_step {action : BufferAction} (live : before.WorkerLive)
    (bounded : before.MarksBounded) (stepped : before.step config action = some after) :
    after.MarksBounded := by
  intro cid mark known
  rcases knows_step live stepped known with earlier | ⟨line, rfl, last, accepted⟩
  · exact (bounded cid mark earlier).trans (history_length_le (step_effect live stepped))
  · cases last
    have pushed : before.push config line = after := by
      simp only [step] at stepped
      split at stepped
      · exact Option.some.inj stepped
      · cases stepped
    rw [← pushed, history_push accepted, List.length_append, List.length_singleton]

theorem behind_eq_of_history (same : after.history = before.history) (cid : ContainerId)
    (mark : Mark) : after.behind cid mark = before.behind cid mark := by
  rw [behind, behind, same]

/-- A newly accepted line is behind no checkpoint that is known. -/
theorem behind_accepts {entry : Accepted} (history : after.history = before.history ++ [entry])
    (last : entry.seq = before.history.length) (bound : mark.seq ≤ before.history.length) :
    after.behind cid mark = before.behind cid mark := by
  have newer : ¬(entry.line.cid = cid ∧ entry.seq < mark.seq) := by omega
  rw [behind, history, List.filter_append, List.filter_singleton, decide_eq_false newer]
  exact List.append_nil _

theorem trail_of_same (trail : before.MarksTrail) (history : after.history = before.history)
    (metadata : after.metadata = before.metadata) (memory : after.inMemory ⊆ before.inMemory) :
    after.MarksTrail := by
  intro cid mark stored entry member
  rw [metadata] at stored
  rw [behind_eq_of_history history] at member
  have trailed := trail cid mark stored entry member
  exact ⟨trailed.1, fun kept => trailed.2 (memory kept)⟩

theorem trail_step {action : BufferAction} (live : before.WorkerLive)
    (bounded : before.MarksBounded) (trail : before.MarksTrail)
    (ordered : before.AdvancesInOrder action)
    (stepped : before.step config action = some after) : after.MarksTrail := by
  cases step_effect live stepped with
  | accepts _ history _ memory stores =>
      intro cid mark stored entry member
      rw [stores.metadata] at stored
      have bound := bounded cid mark (.inr (.inl stored))
      rw [behind_accepts history rfl bound] at member
      have trailed := trail cid mark stored entry member
      refine ⟨trailed.1, fun kept => ?_⟩
      cases List.mem_cons.mp (memory.mem_iff.mp kept) with
      | inl same =>
          have below := (of_decide_eq_true (List.mem_filter.mp member).2).2
          rw [same] at below
          exact absurd below (Nat.not_lt.mpr bound)
      | inr old => exact trailed.2 old
  | lands lines _ _ _ metadata memory same =>
      apply trail_of_same trail same.history metadata
      intro entry kept
      exact memory.mem_iff.mpr (List.mem_append_right _ kept)
  | fails _ _ _ _ _ metadata memory same =>
      exact trail_of_same trail same.history metadata memory.subset
  | advances cid mark rest phase metadata _ memory same =>
      intro container stored present entry member
      rw [behind_eq_of_history same.history] at member
      rw [memory.mem_iff]
      simp only [metadata, advanceLogCheckpoint] at present
      split at present
      · exact trail container stored present entry member
      · next newest =>
          rw [Function.update_apply] at present
          split at present
          · next here =>
              cases present
              rw [here] at member
              refine ordered cid _ rest phase (fun stored present => ?_) entry member
              by_contra older
              refine newest ((Option.any_eq_true _ _).mpr ⟨stored, present, ?_⟩)
              exact decide_eq_true (not_le.mp older)
          · exact trail container stored present entry member
  | quiet memory same stores =>
      exact trail_of_same trail same.history stores.metadata memory.subset

/-- Lines that are behind a checkpoint and no longer in memory have landed. -/
theorem behind_lines_stored {initial : List LogLine} {landed : List Accepted}
    {strays : List LogLine} (ledger : Ledger config initial buffer landed strays)
    (trail : buffer.MarksTrail) (stored : buffer.metadata cid = some mark) :
    ((buffer.behind cid mark).map fun entry => storedLine config.service entry.line).Subperm
      ((buffer.logs.entries config.service).map StoredLog.line) := by
  have settled := trail cid mark stored
  have landedBehind : (buffer.behind cid mark).Subperm
      (landed.filter fun entry => (weekDatabaseName entry.line.ts).isSome) := by
    have split := ledger.accepted.filter
      fun entry => entry.line.cid = cid ∧ entry.seq < mark.seq
    have gone : buffer.inMemory.filter
        (fun entry => entry.line.cid = cid ∧ entry.seq < mark.seq) = [] := by
      refine List.filter_eq_nil_iff.mpr fun entry kept behind => ?_
      have accepted := ledger.accepted.mem_iff.mpr (List.mem_append_right _ kept)
      exact (settled entry (List.mem_filter.mpr ⟨accepted, behind⟩)).2 kept
    rw [List.filter_append, gone, List.append_nil] at split
    have week : (buffer.behind cid mark).filter
        (fun entry => (weekDatabaseName entry.line.ts).isSome) = buffer.behind cid mark :=
      List.filter_eq_self.mpr fun entry member => (settled entry member).1
    rw [← week]
    exact (split.filter _).subperm.trans (List.filter_sublist.filter _).subperm
  have lines : (landed.filter fun entry => (weekDatabaseName entry.line.ts).isSome).map
      (fun entry => storedLine config.service entry.line) =
        (dated (landed.map Accepted.line)).map (storedLine config.service) := by
    rw [dated, List.filter_map, List.map_map]
    rfl
  obtain ⟨chosen, same, sublist⟩ := landedBehind
  have rows := sublist.map fun entry => storedLine config.service entry.line
  rw [lines] at rows
  have settledRows := rows.trans
    ((List.sublist_append_right initial _).trans (List.sublist_append_left _ strays))
  exact (same.symm.map _).subperm.trans (settledRows.subperm.trans ledger.stored.symm.subperm)

theorem bounded_new (logs : SqliteLogStore) (metadata : ContainerId → Option LogCheckpoint) :
    (LogBuffer.new logs metadata).MarksBounded := by
  intro cid mark known
  have seeded : ∀ found, (metadata cid).map (fun checkpoint => Mark.mk checkpoint 0) = some found →
      found.seq ≤ 0 := by
    intro found present
    obtain ⟨_, _, rfl⟩ := Option.map_eq_some_iff.mp present
    exact Nat.le_refl 0
  obtain stamped | stored | ⟨phase, flying, _⟩ := known
  · exact seeded mark stamped
  · exact seeded mark stored
  · cases flying

end LogBuffer

open LogBuffer

/-- While stored checkpoints only move past lines that have left memory, every line behind
a stored checkpoint is in the store, and so is the checkpoint's own. -/
theorem checkpoints_behind_lines (config : BufferConfig) (logs : SqliteLogStore)
    (metadata : ContainerId → Option LogCheckpoint) {buffer : LogBuffer}
    (reached : (bufferMachine config logs metadata).Reachable AdvancesInOrder buffer) :
    CheckpointsBehindLines config buffer := by
  have kept : buffer.MarksBounded ∧ buffer.MarksTrail ∧ ∃ landed strays,
      Ledger config ((logs.entries config.service).map StoredLog.line) buffer landed strays := by
    apply reached.invariant fun buffer => buffer.MarksBounded ∧ buffer.MarksTrail ∧
      ∃ landed strays,
        Ledger config ((logs.entries config.service).map StoredLog.line) buffer landed strays
    · refine ⟨bounded_new logs metadata, ?_, [], [], .new config logs metadata⟩
      intro cid mark _ entry member
      cases member
    · intro before after action holds ordered stepped
      obtain ⟨bounded, trail, landed, strays, ledger⟩ := holds
      obtain ⟨landedAfter, straysAfter, ledgerAfter, _⟩ := ledger.step stepped
      exact ⟨bounded_step ledger.live bounded stepped,
        trail_step ledger.live bounded trail ordered stepped, _, _, ledgerAfter⟩
  obtain ⟨_, trail, landed, strays, ledger⟩ := kept
  intro cid mark stored
  exact behind_lines_stored ledger trail stored

/-! ## Two runs -/

def shopConfig : BufferConfig where
  service := "shop"
  maxBufferedLines := 2
  hash := fun _ line => line.length.toUInt64

/-- The worker takes one line and persists it. -/
def oneFlush : List BufferAction := [
  .push (shopLine 1700000000000 "one"), .workerReceives, .workerDrains, .workerFlushes,
  .appendReturns .worker {}, .internReturns .worker true, .advanceReturns .worker true]

/-- No stored checkpoint moves while a line is in memory. -/
def nothingInMemory (buffer : LogBuffer) : BufferAction → Bool
  | .advanceReturns _ _ => buffer.inMemory.isEmpty &&
      buffer.history.all fun entry => (weekDatabaseName entry.line.ts).isSome
  | _ => true

theorem inOrder_of_nothingInMemory (buffer : LogBuffer) (action : BufferAction)
    (safe : nothingInMemory buffer action = true) : buffer.AdvancesInOrder action := by
  cases action with
  | advanceReturns flusher persisted =>
      cases persisted with
      | true =>
          intro cid mark rest _ _ entry member
          rw [nothingInMemory, Bool.and_eq_true, List.isEmpty_iff, List.all_eq_true] at safe
          refine ⟨safe.2 entry (List.mem_filter.mp member).1, ?_⟩
          rw [safe.1]
          exact List.not_mem_nil
      | false => trivial
  | push line => trivial
  | workerReceives => trivial
  | workerDrains => trivial
  | workerFlushes => trivial
  | workerTimesOut => trivial
  | appendReturns flusher fates => trivial
  | internReturns flusher interned => trivial

theorem one_flush_behind : ∃ buffer : LogBuffer,
    buffer.metadata ⟨1⟩ = some ⟨⟨1700000000000, 3⟩, 1⟩ ∧
      CheckpointsBehindLines shopConfig buffer := by
  have done : (((bufferMachine shopConfig .empty fun _ => none).run nothingInMemory
      (.new .empty fun _ => none) oneFlush).map fun buffer => buffer.metadata ⟨1⟩) =
        some (some ⟨⟨1700000000000, 3⟩, 1⟩) := by decide
  obtain ⟨buffer, taken, stored⟩ := Option.map_eq_some_iff.mp done
  exact ⟨buffer, stored, checkpoints_behind_lines shopConfig .empty (fun _ => none)
    (Machine.Reachable.start.run inOrder_of_nothingInMemory taken)⟩

/-- The worker is still appending the first line when the flush inside a push has stored
the two lines after it and advances the checkpoint. -/
def overtakingFlush : List BufferAction := [
  .push (shopLine 1700000000000 "one"), .workerReceives, .workerDrains, .workerFlushes,
  .push (shopLine 1700000000001 "two"), .push (shopLine 1700000000002 "three"),
  .appendReturns (.push 0) {}, .internReturns (.push 0) true, .advanceReturns (.push 0) true]

/-- The missing line was accepted before the line of the checkpoint. -/
theorem checkpoint_overtakes_line :
    ¬ ∀ (config : BufferConfig) (logs : SqliteLogStore)
        (metadata : ContainerId → Option LogCheckpoint) (buffer : LogBuffer),
        (bufferMachine config logs metadata).Reachable SequentialPushes buffer →
          ∀ cid mark, buffer.metadata cid = some mark →
            ∀ entry ∈ buffer.history, entry.line.cid = cid → entry.seq + 1 < mark.seq →
              storedLine config.service entry.line ∈
                (buffer.logs.entries config.service).map StoredLog.line := by
  intro always
  have done : (((bufferMachine shopConfig .empty fun _ => none).run
      (fun buffer action => decide (buffer.SequentialPushes action))
      (.new .empty fun _ => none) overtakingFlush).map fun buffer =>
        (buffer.metadata ⟨1⟩, buffer.history.head?,
          (buffer.logs.entries "shop").map StoredLog.line)) =
      some (some ⟨⟨1700000000002, 5⟩, 3⟩, some ⟨0, shopLine 1700000000000 "one"⟩,
        [shopLine 1700000000001 "two", shopLine 1700000000002 "three"]) := by decide
  obtain ⟨buffer, taken, found⟩ := Option.map_eq_some_iff.mp done
  obtain ⟨stored, others⟩ := Prod.mk.inj found
  obtain ⟨first, rows⟩ := Prod.mk.inj others
  have reached := Machine.Reachable.start.run (fun _ _ => of_decide_eq_true) taken
  have missing := always shopConfig .empty (fun _ => none) buffer reached ⟨1⟩ _ stored _
    (List.mem_of_head? first) rfl (by decide)
  rw [show shopConfig.service = "shop" from rfl, rows] at missing
  revert missing
  decide

end Vpsiner.Logs
