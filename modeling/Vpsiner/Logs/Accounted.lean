import Vpsiner.Logs.CheckpointOrder
import Vpsiner.Logs.Replay

/-! Lines are told apart by container, millisecond and hash, as the dedup does. A checkpoint may
drop a line only when it is accounted for under that identity: stored, or held in memory. -/

set_option autoImplicit false

namespace Vpsiner.Logs

open Lib Retention

/-- What the dedup tells lines apart by. -/
def identity (config : BufferConfig) (line : LogLine) : ContainerId × LogCheckpoint :=
  (line.cid, checkpointOf config line)

/-- The line is not before the horizon, and there is a week file for it. -/
def Wanted (horizon : Int) (line : LogLine) : Prop :=
  horizon ≤ line.ts ∧ (weekDatabaseName line.ts).isSome = true

variable {config : BufferConfig} {horizon later : Int} {line : LogLine}

theorem Wanted.mono (wanted : Wanted later line) (moved : horizon ≤ later) : Wanted horizon line :=
  ⟨moved.trans wanted.1, wanted.2⟩

theorem Wanted.of_ts {other : LogLine} (wanted : Wanted horizon line) (same : other.ts = line.ts) :
    Wanted horizon other := by
  unfold Wanted
  rw [same]
  exact wanted

theorem passes_eq_false_iff {last : LogCheckpoint} :
    passes config (some last) line = false ↔
      line.ts < last.ts ∨ checkpointOf config line = last := by
  cases last
  simp [← Bool.not_eq_true, passes_iff, imp_iff_not_or, checkpointOf]

/-! ## What a checkpoint drops -/

/-- The checkpoint is that of a line, and each wanted line that it drops is accounted for. -/
structure Covers (config : BufferConfig) (horizon : Int)
    (accounted : List (ContainerId × LogCheckpoint)) (lines : List LogLine)
    (checkpoint : LogCheckpoint) : Prop where
  source : ∃ line ∈ lines, checkpointOf config line = checkpoint
  dropped : ∀ line ∈ lines, Wanted horizon line → passes config (some checkpoint) line = false →
    identity config line ∈ accounted

variable {accounted more : List (ContainerId × LogCheckpoint)} {lines : List LogLine}
  {checkpoint : LogCheckpoint}

theorem Covers.mono (covers : Covers config horizon accounted lines checkpoint)
    (moved : horizon ≤ later)
    (grown : ∀ line, Wanted later line → identity config line ∈ accounted →
      identity config line ∈ more) : Covers config later more lines checkpoint where
  source := covers.source
  dropped line member wanted drops :=
    grown line wanted (covers.dropped line member (wanted.mono moved) drops)

/-- A line at the end of its log is dropped only as a repeat of the line of the checkpoint. -/
theorem Covers.write (covers : Covers config horizon accounted lines checkpoint)
    {cid : ContainerId} (owned : ∀ old ∈ lines, old.cid = cid) (own : line.cid = cid)
    (last : ∀ old ∈ lines, old.ts ≤ line.ts) :
    Covers config horizon accounted (lines ++ [line]) checkpoint := by
  obtain ⟨source, member, stamped⟩ := covers.source
  constructor
  · exact ⟨source, List.mem_append_left _ member, stamped⟩
  · intro other present wanted drops
    rcases List.mem_append.mp present with old | new
    · exact covers.dropped other old wanted drops
    · rw [List.mem_singleton.mp new] at wanted drops ⊢
      have bound := last source member
      rcases passes_eq_false_iff.mp drops with before | repeated
      · have ts : source.ts = checkpoint.ts := congrArg LogCheckpoint.ts stamped
        omega
      · have same : checkpointOf config line = checkpointOf config source :=
          repeated.trans stamped.symm
        have ts : line.ts = source.ts := congrArg LogCheckpoint.ts same
        have known := covers.dropped source member (wanted.of_ts ts.symm)
          (passes_eq_false_iff.mpr (.inr stamped))
        simpa [identity, own, owned source member, same] using known

/-- The checkpoint of a line that is accounted for, when all before it are. -/
theorem Covers.of_line {cid : ContainerId} (owned : ∀ old ∈ lines, old.cid = cid)
    (member : line ∈ lines) (held : Wanted horizon line → identity config line ∈ accounted)
    (older : ∀ old ∈ lines, old.ts < line.ts → Wanted horizon old →
      identity config old ∈ accounted) :
    Covers config horizon accounted lines (checkpointOf config line) := by
  constructor
  · exact ⟨line, member, rfl⟩
  · intro other present wanted drops
    rcases passes_eq_false_iff.mp drops with before | same
    · exact older other present before wanted
    · have ts : line.ts = other.ts := (congrArg LogCheckpoint.ts same).symm
      have known := held (wanted.of_ts ts)
      simpa [identity, owned line member, owned other present, same] using known

/-! ## The buffer -/

theorem committedLines_subset {fates : AppendFates} {lines : List LogLine} :
    committedLines fates lines ⊆ lines := by
  intro line member
  unfold committedLines at member
  split at member
  · cases member
  · obtain ⟨batch, taken, inside⟩ := List.mem_flatMap.mp member
    have arranged := fates.order.mem_arrange.mp ((List.takeWhile_sublist _).subset taken)
    have dated := (byWeek_perm lines).mem_iff.mp (List.mem_flatMap.mpr ⟨batch, arranged, inside⟩)
    exact (List.mem_filter.mp dated).1

namespace LogBuffer

variable {buffer before after : LogBuffer}

def stored (config : BufferConfig) (buffer : LogBuffer) : List (ContainerId × LogCheckpoint) :=
  (buffer.logs.entries config.service).map fun row => identity config row.line

/-- Stored or in memory. -/
def held (config : BufferConfig) (buffer : LogBuffer) : List (ContainerId × LogCheckpoint) :=
  buffer.stored config ++ buffer.inMemory.map fun entry => identity config entry.line

theorem stored_of_append {lines : List LogLine} {fates : AppendFates} {result : AppResult Unit}
    (appended : before.logs.append fates config.service lines = (after.logs, result)) :
    before.stored config ⊆ after.stored config ∧
      (result = .ok () → ∀ line ∈ lines, (weekDatabaseName line.ts).isSome = true →
        identity config line ∈ after.stored config) ∧
      ∀ key ∈ after.stored config,
        key ∈ before.stored config ∨ key ∈ lines.map (identity config) := by
  have grown := append_grown before.logs fates config.service lines
  rw [appended] at grown
  obtain ⟨grew, succeeds⟩ := grown
  have above := @Grown.above _ _ _ _ grew
  obtain ⟨added, entries, rows, _⟩ := grew
  refine ⟨?_, ?_, ?_⟩
  · intro key member
    obtain ⟨row, present, same⟩ := List.mem_map.mp member
    exact List.mem_map.mpr ⟨row, entries.mem_iff.mpr (List.mem_append_left _ present), same⟩
  · intro ok line member dated
    have committed := (committedLines_of_succeeds (succeeds.mp ok)).mem_iff.mpr
      (List.mem_filter.mpr ⟨member, dated⟩)
    have row : storedLine config.service line ∈ added.map StoredLog.line := by
      rw [rows]
      exact List.mem_map_of_mem committed
    obtain ⟨entry, present, same⟩ := List.mem_map.mp row
    refine List.mem_map.mpr ⟨entry, entries.mem_iff.mpr (List.mem_append_right _ present), ?_⟩
    rw [same]
    rfl
  · intro key member
    obtain ⟨row, present, rfl⟩ := List.mem_map.mp member
    rcases above present with old | ⟨line, committed, same, _⟩
    · exact .inl (List.mem_map_of_mem old)
    · refine .inr (List.mem_map.mpr ⟨line, committedLines_subset committed, ?_⟩)
      rw [same]
      rfl

theorem held_of_grown (stored : before.stored config ⊆ after.stored config)
    (memory : before.inMemory ⊆ after.inMemory) : before.held config ⊆ after.held config := by
  intro key member
  rcases List.mem_append.mp member with row | entry
  · exact List.mem_append_left _ (stored row)
  · exact List.mem_append_right _ (List.map_subset _ memory entry)

/-- No step takes a row out of the store. -/
theorem stored_step {action : BufferAction} (effect : Effect config before action after) :
    before.stored config ⊆ after.stored config := by
  cases effect with
  | accepts _ _ _ _ stores => simp [stored, stores.logs]
  | lands lines marks phase appended => exact (stored_of_append appended).1
  | fails lines marks fault phase appended => exact (stored_of_append appended).1
  | advances _ _ _ _ _ logs => simp [stored, logs]
  | quiet _ _ stores => simp [stored, stores.logs]

/-- A line leaves memory only for the store, unless it has no week file. -/
theorem held_step {action : BufferAction} (effect : Effect config before action after)
    (dated : (weekDatabaseName line.ts).isSome = true)
    (known : identity config line ∈ before.held config) :
    identity config line ∈ after.held config := by
  have kept := stored_step effect
  cases effect with
  | accepts _ _ _ memory stores =>
      exact held_of_grown kept (fun _ old => memory.mem_iff.mpr (List.mem_cons_of_mem _ old)) known
  | lands lines marks phase appended _ memory =>
      rcases List.mem_append.mp known with row | entry
      · exact List.mem_append_left _ (kept row)
      · obtain ⟨entry, present, same⟩ := List.mem_map.mp entry
        rcases List.mem_append.mp (memory.mem_iff.mp present) with landed | left
        · have ts : entry.line.ts = line.ts := congrArg (fun key => key.2.ts) same
          rw [← same]
          exact List.mem_append_left _ ((stored_of_append appended).2.1 rfl entry.line
            (List.mem_map_of_mem landed) (ts ▸ dated))
        · exact List.mem_append_right _ (List.mem_map.mpr ⟨entry, left, same⟩)
  | fails _ _ _ _ _ _ memory _ =>
      exact held_of_grown kept (fun _ old => memory.mem_iff.mpr old) known
  | advances _ _ _ _ _ _ memory _ =>
      exact held_of_grown kept (fun _ old => memory.mem_iff.mpr old) known
  | quiet memory _ _ => exact held_of_grown kept (fun _ old => memory.mem_iff.mpr old) known

theorem held_of_stored {key : ContainerId × LogCheckpoint} (stored : key ∈ buffer.stored config) :
    key ∈ buffer.held config := List.mem_append_left _ stored

/-- What is held was held before, or has just been pushed. -/
theorem held_back {action : BufferAction} (effect : Effect config before action after)
    {key : ContainerId × LogCheckpoint} (known : key ∈ after.held config) :
    key ∈ before.held config ∨ ∃ line, action = .push line ∧ key = identity config line := by
  rcases List.mem_append.mp known with row | remembered
  · cases effect with
    | accepts _ _ _ _ stores =>
        exact .inl (held_of_stored (by simpa [stored, stores.logs] using row))
    | lands lines marks phase appended _ memory =>
        rcases (stored_of_append appended).2.2 key row with old | new
        · exact .inl (held_of_stored old)
        · obtain ⟨line, taken, same⟩ := List.mem_map.mp new
          obtain ⟨entry, present, rfl⟩ := List.mem_map.mp taken
          have here := memory.mem_iff.mpr (List.mem_append_left _ present)
          exact .inl (List.mem_append_right _ (List.mem_map.mpr ⟨entry, here, same⟩))
    | fails lines marks fault phase appended =>
        rcases (stored_of_append appended).2.2 key row with old | new
        · exact .inl (held_of_stored old)
        · obtain ⟨line, taken, same⟩ := List.mem_map.mp new
          obtain ⟨entry, present, rfl⟩ := List.mem_map.mp taken
          have here := (inMemory_perm phase).mem_iff.mpr (List.mem_append_left _ present)
          exact .inl (List.mem_append_right _ (List.mem_map.mpr ⟨entry, here, same⟩))
    | advances _ _ _ _ _ logs => exact .inl (held_of_stored (by simpa [stored, logs] using row))
    | quiet _ _ stores => exact .inl (held_of_stored (by simpa [stored, stores.logs] using row))
  · obtain ⟨entry, present, same⟩ := List.mem_map.mp remembered
    have kept : entry ∈ before.inMemory → key ∈ before.held config := fun old =>
      List.mem_append_right _ (List.mem_map.mpr ⟨entry, old, same⟩)
    cases effect with
    | accepts _ _ _ memory _ =>
        rcases List.mem_cons.mp (memory.mem_iff.mp present) with rfl | old
        · exact .inr ⟨_, rfl, same.symm⟩
        · exact .inl (kept old)
    | lands _ _ _ _ _ memory _ =>
        exact .inl (kept (memory.mem_iff.mpr (List.mem_append_right _ present)))
    | fails _ _ _ _ _ _ memory _ => exact .inl (kept (memory.mem_iff.mp present))
    | advances _ _ _ _ _ _ memory _ => exact .inl (kept (memory.mem_iff.mp present))
    | quiet memory _ _ => exact .inl (kept (memory.mem_iff.mp present))

end LogBuffer

end Vpsiner.Logs
