import Vpsiner.Logs.FlushWorker

/-! The number of lines a service holds in memory. A push flushes inline once the backlog
is at its maximum, but it returns even when that flush put its lines back, and the batch of the
worker is not counted. -/

set_option autoImplicit false

namespace Vpsiner.Logs

open Vpsiner.Lib

namespace LogBuffer

/-- The batch that the failing append of a push puts back. -/
def failedBatch (config : BufferConfig) (before : LogBuffer) : BufferAction → List Accepted
  | .appendReturns (.push index) fates =>
      match before.phase (.push index) with
      | some (.appending lines _) =>
          match (before.logs.append fates config.service (lines.map Accepted.line)).2 with
          | .ok () => []
          | .error _ => lines
      | _ => []
  | _ => []

end LogBuffer

/-- The buffer with the lines that pushes ever put back. -/
structure Backlog where
  buffer : LogBuffer
  putBack : List Accepted

/-- The machine of the buffer that also records which lines were put back by a push. -/
def backlogMachine (config : BufferConfig) (logs : SqliteLogStore)
    (metadata : ContainerId → Option LogCheckpoint) : Machine Backlog BufferAction where
  start := ⟨.new logs metadata, []⟩
  step before action := (before.buffer.step config action).map fun after =>
    ⟨after, before.putBack ++ before.buffer.failedBatch config action⟩

namespace Backlog

open LogBuffer

variable {config : BufferConfig} {before after : Backlog}

/-- The record does not restrict the buffer. -/
theorem reachable_buffer {logs : SqliteLogStore} {metadata : ContainerId → Option LogCheckpoint}
    {allowed : LogBuffer → BufferAction → Prop} {buffer : LogBuffer}
    (reached : (bufferMachine config logs metadata).Reachable allowed buffer) :
    ∃ putBack, (backlogMachine config logs metadata).Reachable
      (fun state action => allowed state.buffer action) ⟨buffer, putBack⟩ := by
  induction reached with
  | start => exact ⟨[], .start⟩
  | step _ action permitted taken ih =>
      obtain ⟨putBack, reached⟩ := ih
      exact ⟨_, reached.step action permitted (Option.map_eq_some_iff.mpr ⟨_, taken, rfl⟩)⟩

def Bounded (config : BufferConfig) (buffer : LogBuffer) : Prop :=
  buffer.inMemory.length ≤ 2 * config.maxBufferedLines

/-- The lines that the worker is appending. -/
def workerBatch (buffer : LogBuffer) : List Accepted :=
  (buffer.phase .worker).toList.flatMap FlushPhase.taken

/-- No push is accepted while a line that a failed push put back is still in memory, nor while the
worker appends more lines than the maximum, as it may after an append of its own has failed. -/
def PushesAfresh (config : BufferConfig) (before : Backlog) : BufferAction → Prop
  | .push line => accepts config before.buffer.checkpoints line = true →
      (∀ entry ∈ before.buffer.inMemory, entry ∉ before.putBack) ∧
        (workerBatch before.buffer).length ≤ config.maxBufferedLines
  | _ => True

/-- One more line fits, and the buffer is below its maximum while the worker appends. -/
structure Roomy (config : BufferConfig) (buffer : LogBuffer) : Prop where
  total : buffer.lines.length + (workerBatch buffer).length < 2 * config.maxBufferedLines
  buffered : workerBatch buffer ≠ [] → buffer.lines.length < config.maxBufferedLines

/-- A line that a push put back waits in the buffer, or the worker appends it together with
everything else. -/
def Blocked (state : Backlog) : Prop :=
  (∃ entry ∈ state.buffer.lines, entry ∈ state.putBack) ∨
    state.buffer.lines = [] ∧ ∃ entry ∈ workerBatch state.buffer, entry ∈ state.putBack

/-- Landing or announcing a flush leaves the buffer alone and at most empties a batch. -/
theorem workerBatch_setPhase (buffer : LogBuffer) {flusher : Flusher} (next : Option FlushPhase)
    (empty : ∀ phase ∈ next, phase.taken = []) :
    workerBatch (buffer.setPhase flusher next) = [] ∨
      workerBatch (buffer.setPhase flusher next) = workerBatch buffer := by
  cases flusher with
  | push index => exact .inr rfl
  | worker =>
      rw [workerBatch, phase_worker_setPhase]
      cases next with
      | none => exact .inl rfl
      | some phase =>
          left
          rw [Option.toList_some, List.flatMap_singleton, empty phase rfl]

theorem workerBatch_advanceNext (buffer : LogBuffer) {flusher : Flusher}
    (marks : List (ContainerId × Mark)) :
    workerBatch (buffer.advanceNext flusher marks) = [] ∨
      workerBatch (buffer.advanceNext flusher marks) = workerBatch buffer := by
  cases marks with
  | nil =>
      refine workerBatch_setPhase buffer.notify none fun phase absent => ?_
      cases absent
  | cons first rest =>
      refine workerBatch_setPhase buffer _ fun phase same => ?_
      cases same
      rfl

theorem workerBatch_of_phase {buffer : LogBuffer} {phase : FlushPhase}
    (present : buffer.phase .worker = some phase) : workerBatch buffer = phase.taken := by
  rw [workerBatch, present, Option.toList_some, List.flatMap_singleton]

theorem roomy_of_empty {buffer : LogBuffer} (positive : 1 ≤ config.maxBufferedLines)
    (lines : buffer.lines = []) (batch : (workerBatch buffer).length ≤ config.maxBufferedLines) :
    Roomy config buffer := by
  constructor
  · rw [lines, List.length_nil]
    omega
  · intro _
    rw [lines]
    exact positive

/-- The buffer stays, and the batch of the worker stays or has landed. -/
theorem room_of_eq {buffer : LogBuffer} (positive : 1 ≤ config.maxBufferedLines)
    (room : Roomy config before.buffer ∨ Blocked before) (failed : List Accepted)
    (lines : buffer.lines = before.buffer.lines)
    (batch : workerBatch buffer = [] ∨ workerBatch buffer = workerBatch before.buffer) :
    Roomy config buffer ∨ Blocked ⟨buffer, before.putBack ++ failed⟩ := by
  rcases batch with landed | same
  · rcases room with roomy | ⟨entry, member, old⟩ | ⟨empty, -⟩
    · refine .inl ⟨?_, fun nonempty => absurd landed nonempty⟩
      have total := roomy.total
      rw [lines, landed, List.length_nil]
      omega
    · exact .inr (.inl ⟨entry, lines ▸ member, List.mem_append_left _ old⟩)
    · refine .inl (roomy_of_empty positive (lines.trans empty) ?_)
      rw [landed]
      exact Nat.zero_le _
  · rcases room with roomy | ⟨entry, member, old⟩ | ⟨empty, entry, member, old⟩
    · refine .inl ⟨?_, ?_⟩
      · rw [lines, same]
        exact roomy.total
      · rw [lines, same]
        exact roomy.buffered
    · exact .inr (.inl ⟨entry, lines ▸ member, List.mem_append_left _ old⟩)
    · exact .inr (.inr ⟨lines.trans empty, entry, same ▸ member, List.mem_append_left _ old⟩)

/-- A push that is accepted finds no line that was put back. -/
theorem not_blocked (afresh : ∀ entry ∈ before.buffer.inMemory, entry ∉ before.putBack) :
    ¬Blocked before := by
  rintro (⟨entry, member, old⟩ | ⟨-, entry, member, old⟩)
  · exact afresh entry (List.mem_append_left _ member) old
  · refine afresh entry (List.mem_append_right _ ?_) old
    rw [flights, List.flatMap_append]
    exact List.mem_append_left _ member

theorem room_push {line : LogLine} (positive : 1 ≤ config.maxBufferedLines)
    (live : before.buffer.WorkerLive) (room : Roomy config before.buffer ∨ Blocked before)
    (within : before.PushesAfresh config (.push line)) :
    Roomy config (before.buffer.push config line) ∨
      Blocked ⟨before.buffer.push config line, before.putBack⟩ := by
  rcases push_cases config before.buffer line with
    ⟨accepted, pushed⟩ | ⟨accepted, short, pushed⟩ | ⟨-, pushed⟩
  · have worker := (startFlush_fields (before.buffer.accept config line)).2.2.1
    have same : workerBatch (before.buffer.push config line) = workerBatch before.buffer := by
      rw [pushed]
      simp only [workerBatch, LogBuffer.phase, worker]
      rfl
    have empty : (before.buffer.push config line).lines = [] := by
      rw [pushed]
      exact (startFlush_lines (before.buffer.accept config line)).1
    exact .inl (roomy_of_empty positive empty (same ▸ (within accepted).2))
  · have worker : (before.buffer.accept config line).scheduleFlush.phase .worker =
        before.buffer.phase .worker :=
      worker_scheduleFlush (before.buffer.accept config line) live
    have same : workerBatch (before.buffer.push config line) = workerBatch before.buffer := by
      rw [pushed, workerBatch, worker]
      rfl
    have below : (before.buffer.push config line).lines.length < config.maxBufferedLines := by
      rw [pushed]
      exact short
    have batch := (within accepted).2
    refine .inl ⟨?_, fun _ => below⟩
    rw [same]
    omega
  · rw [pushed]
    exact room

/-- What the worker puts back was counted before. -/
theorem room_restored_worker {lines : List Accepted} {marks : List (ContainerId × Mark)}
    {buffer : LogBuffer} (room : Roomy config before.buffer ∨ Blocked before)
    (present : before.buffer.phase .worker = some (.appending lines marks))
    (put : buffer.lines = lines ++ before.buffer.lines) (batch : workerBatch buffer = []) :
    Roomy config buffer ∨ Blocked ⟨buffer, before.putBack⟩ := by
  have taken : workerBatch before.buffer = lines := workerBatch_of_phase present
  rcases room with roomy | ⟨entry, member, old⟩ | ⟨empty, entry, member, old⟩
  · refine .inl ⟨?_, fun nonempty => absurd batch nonempty⟩
    have total := roomy.total
    rw [put, batch, List.length_append, List.length_nil, ← taken]
    omega
  · refine .inr (.inl ⟨entry, ?_, old⟩)
    rw [put]
    exact List.mem_append_right _ member
  · refine .inr (.inl ⟨entry, ?_, old⟩)
    rw [put]
    exact List.mem_append_left _ (taken ▸ member)

/-- What a push puts back blocks the next one. -/
theorem room_restored_push {lines : List Accepted} {buffer : LogBuffer}
    (room : Roomy config before.buffer ∨ Blocked before)
    (put : buffer.lines = lines ++ before.buffer.lines)
    (batch : workerBatch buffer = workerBatch before.buffer) :
    Roomy config buffer ∨ Blocked ⟨buffer, before.putBack ++ lines⟩ := by
  cases lines with
  | nil =>
      rw [List.nil_append] at put
      rw [List.append_nil]
      rcases room with roomy | ⟨entry, member, old⟩ | ⟨empty, entry, member, old⟩
      · refine .inl ⟨?_, ?_⟩
        · rw [put, batch]
          exact roomy.total
        · rw [put, batch]
          exact roomy.buffered
      · exact .inr (.inl ⟨entry, put ▸ member, old⟩)
      · exact .inr (.inr ⟨put.trans empty, entry, batch ▸ member, old⟩)
  | cons first rest =>
      refine .inr (.inl ⟨first, ?_, List.mem_append_right _ List.mem_cons_self⟩)
      rw [put]
      exact List.mem_append_left _ List.mem_cons_self

theorem room_step {action : BufferAction} {buffer : LogBuffer}
    (positive : 1 ≤ config.maxBufferedLines) (live : before.buffer.WorkerLive)
    (room : Roomy config before.buffer ∨ Blocked before)
    (within : before.PushesAfresh config action)
    (stepped : before.buffer.step config action = some buffer) :
    Roomy config buffer ∨
      Blocked ⟨buffer, before.putBack ++ before.buffer.failedBatch config action⟩ := by
  cases step_cases stepped with
  | @pushed line _ =>
      have nothing : before.buffer.failedBatch config (.push line) = [] := rfl
      rw [nothing, List.append_nil]
      exact room_push positive live room within
  | received _ _ => exact room_of_eq positive room [] rfl (.inl rfl)
  | drained _ => exact room_of_eq positive room [] rfl (.inl rfl)
  | flushed drained =>
      obtain ⟨lines, batch⟩ := startFlush_lines before.buffer
      have idle : workerBatch before.buffer = [] := by
        simp only [workerBatch, LogBuffer.phase, drained]
        rfl
      have empty : (before.buffer.startFlush.1.setPhase .worker before.buffer.startFlush.2).lines =
          [] := lines
      have taken : workerBatch
          (before.buffer.startFlush.1.setPhase .worker before.buffer.startFlush.2) =
            before.buffer.lines := by
        rw [workerBatch, phase_worker_setPhase, batch]
      rcases room with roomy | ⟨entry, member, old⟩ | ⟨-, entry, member, -⟩
      · refine .inl ⟨?_, fun _ => ?_⟩
        · have total := roomy.total
          rw [empty, taken, List.length_nil]
          omega
        · rw [empty]
          exact positive
      · refine .inr (.inr ⟨empty, entry, ?_, List.mem_append_left _ old⟩)
        rw [taken]
        exact member
      · rw [idle] at member
        cases member
  | retired _ _ _ => exact room_of_eq positive room [] rfl (.inl rfl)
  | waited _ _ => exact room_of_eq positive room [] rfl (.inr rfl)
  | @stored flusher fates _ _ logs present appended =>
      refine room_of_eq positive room _ rfl ?_
      refine workerBatch_setPhase { before.buffer with logs } _ fun phase same => ?_
      cases same
      rfl
  | @restored flusher fates lines _ logs _ present appended =>
      cases flusher with
      | worker =>
          have nothing : before.buffer.failedBatch config (.appendReturns .worker fates) = [] := rfl
          rw [nothing, List.append_nil]
          apply room_restored_worker room present
          · rfl
          · rfl
      | push index =>
          have failed : before.buffer.failedBatch config (.appendReturns (.push index) fates) =
              lines := by
            simp only [failedBatch, present, appended]
          rw [failed]
          apply room_restored_push room
          · rfl
          · rfl
  | @interned _ marks _ =>
      exact room_of_eq positive room [] (lines_advanceNext _ _ _) (workerBatch_advanceNext _ marks)
  | unnamed _ => exact room_of_eq positive room [] rfl (workerBatch_advanceNext _ [])
  | @advanced _ cid mark rest _ =>
      exact room_of_eq positive room [] (lines_advanceNext _ _ _)
        (workerBatch_advanceNext (before.buffer.advanceLogCheckpoint cid mark) rest)
  | @skipped _ _ _ rest _ =>
      exact room_of_eq positive room [] (lines_advanceNext _ _ _) (workerBatch_advanceNext _ rest)

theorem bounded_step {action : BufferAction} {buffer : LogBuffer}
    (live : before.buffer.WorkerLive) (room : Roomy config before.buffer ∨ Blocked before)
    (bounded : Bounded config before.buffer) (sequential : before.buffer.SequentialPushes action)
    (within : before.PushesAfresh config action)
    (stepped : before.buffer.step config action = some buffer) : Bounded config buffer := by
  rw [Bounded] at bounded ⊢
  cases step_effect live stepped with
  | accepts accepted _ _ memory _ =>
      have longer := memory.length_eq
      have roomy := room.resolve_right (not_blocked (within accepted).1)
      -- no other push is flushing, so memory is the buffer and the batch of the worker
      have held : before.buffer.inMemory = before.buffer.lines ++ workerBatch before.buffer := by
        rw [inMemory, flights, show before.buffer.pushes = [] from sequential, List.append_nil,
          workerBatch]
      have total := roomy.total
      rw [List.length_cons, held, List.length_append] at longer
      omega
  | lands _ _ _ _ _ memory _ =>
      have shorter := memory.length_eq
      rw [List.length_append] at shorter
      omega
  | fails _ _ _ _ _ _ memory _ => rwa [memory.length_eq]
  | advances _ _ _ _ _ _ memory _ => rwa [memory.length_eq]
  | quiet memory _ _ => rwa [memory.length_eq]

end Backlog

open Backlog

/-- With pushes one after the other, the service never holds more than twice the maximum, as long
as no push is accepted on top of what a push before it put back. -/
theorem backlog_bounded (config : BufferConfig) (logs : SqliteLogStore)
    (metadata : ContainerId → Option LogCheckpoint) (positive : 1 ≤ config.maxBufferedLines)
    {state : Backlog}
    (reached : (backlogMachine config logs metadata).Reachable
      (fun before action => before.buffer.SequentialPushes action ∧
        before.PushesAfresh config action) state) :
    Bounded config state.buffer := by
  have kept : state.buffer.WorkerLive ∧ (Roomy config state.buffer ∨ Blocked state) ∧
      Bounded config state.buffer := by
    apply reached.invariant fun state =>
      state.buffer.WorkerLive ∧ (Roomy config state.buffer ∨ Blocked state) ∧
        Bounded config state.buffer
    · exact ⟨LogBuffer.live_new logs metadata, .inl (roomy_of_empty positive rfl (Nat.zero_le _)),
        Nat.zero_le _⟩
    · intro before after action holds permitted stepped
      obtain ⟨live, room, bounded⟩ := holds
      obtain ⟨buffer, taken, rfl⟩ := Option.map_eq_some_iff.mp stepped
      exact ⟨LogBuffer.live_step live taken, room_step positive live room permitted.2 taken,
        bounded_step live room bounded permitted.1 permitted.2 taken⟩
  exact kept.2.2

/-- No line in memory was put back by a push, and the batch of the worker is small. -/
def pushesAfresh (config : BufferConfig) (before : Backlog) : BufferAction → Bool
  | .push _ => before.buffer.pushes.isEmpty &&
      before.buffer.inMemory.all (fun entry => !before.putBack.contains entry) &&
      decide ((workerBatch before.buffer).length ≤ config.maxBufferedLines)
  | _ => true

theorem within_of_pushesAfresh (config : BufferConfig) (before : Backlog) (action : BufferAction)
    (afresh : pushesAfresh config before action = true) :
    before.buffer.SequentialPushes action ∧ before.PushesAfresh config action := by
  cases action with
  | push line =>
      simp only [pushesAfresh, Bool.and_eq_true, List.isEmpty_iff, List.all_eq_true,
        Bool.not_eq_true', decide_eq_true_eq] at afresh
      obtain ⟨⟨idle, untouched⟩, small⟩ := afresh
      refine ⟨idle, fun _ => ⟨fun entry member old => ?_, small⟩⟩
      have absent := untouched entry member
      rw [List.contains_iff_mem.mpr old] at absent
      cases absent
  | workerReceives => exact ⟨trivial, trivial⟩
  | workerDrains => exact ⟨trivial, trivial⟩
  | workerFlushes => exact ⟨trivial, trivial⟩
  | workerTimesOut => exact ⟨trivial, trivial⟩
  | appendReturns flusher fates => exact ⟨trivial, trivial⟩
  | internReturns flusher interned => exact ⟨trivial, trivial⟩
  | advanceReturns flusher persisted => exact ⟨trivial, trivial⟩

/-- A push puts two lines back, and the next one is accepted when the worker has stored them. -/
def retriedPush : List BufferAction := [
  .push (shopLine 1700000000000 "one"), .push (shopLine 1700000000001 "two"),
  .appendReturns (.push 0) diskFull, .workerReceives, .workerDrains, .workerFlushes,
  .appendReturns .worker {}, .push (shopLine 1700000000002 "three")]

theorem retried_lines_within : ∃ state : Backlog,
    state.putBack = [⟨0, shopLine 1700000000000 "one"⟩, ⟨1, shopLine 1700000000001 "two"⟩] ∧
      state.buffer.inMemory = [⟨2, shopLine 1700000000002 "three"⟩] ∧
      Bounded shopConfig state.buffer := by
  have done : (((backlogMachine shopConfig .empty fun _ => none).run (pushesAfresh shopConfig)
      ⟨.new .empty fun _ => none, []⟩ retriedPush).map fun state =>
        (state.putBack, state.buffer.inMemory)) =
      some ([⟨0, shopLine 1700000000000 "one"⟩, ⟨1, shopLine 1700000000001 "two"⟩],
        [⟨2, shopLine 1700000000002 "three"⟩]) := by decide
  obtain ⟨state, taken, found⟩ := Option.map_eq_some_iff.mp done
  obtain ⟨putBack, memory⟩ := Prod.mk.inj found
  exact ⟨state, putBack, memory, backlog_bounded shopConfig .empty (fun _ => none) (by decide)
    (Machine.Reachable.start.run (within_of_pushesAfresh shopConfig) taken)⟩

/-- Every push flushes what the one before it put back, and fails again. -/
def failingPushes : List BufferAction := [
  .push (shopLine 1700000000000 "one"), .push (shopLine 1700000000001 "two"),
  .appendReturns (.push 0) diskFull, .push (shopLine 1700000000002 "three"),
  .appendReturns (.push 0) diskFull, .push (shopLine 1700000000003 "four"),
  .appendReturns (.push 0) diskFull, .push (shopLine 1700000000004 "five")]

theorem failing_pushes_exceed_bound :
    ¬ ∀ (config : BufferConfig) (logs : SqliteLogStore)
        (metadata : ContainerId → Option LogCheckpoint) (buffer : LogBuffer),
        1 ≤ config.maxBufferedLines →
          (bufferMachine config logs metadata).Reachable LogBuffer.SequentialPushes buffer →
            Bounded config buffer := by
  intro always
  have done : (((bufferMachine shopConfig .empty fun _ => none).run
      (fun buffer action => decide (buffer.SequentialPushes action))
      (.new .empty fun _ => none) failingPushes).map fun buffer => buffer.inMemory.length) =
        some 5 := by decide
  obtain ⟨buffer, taken, length⟩ := Option.map_eq_some_iff.mp done
  have reached := Machine.Reachable.start.run (fun _ _ => of_decide_eq_true) taken
  have bounded := always shopConfig .empty (fun _ => none) buffer (by decide) reached
  rw [Bounded, length] at bounded
  revert bounded
  decide

end Vpsiner.Logs
