import Vpsiner.Logs.CheckpointOrder

/-! Buffered lines and the worker that is to flush them. A flush that fails asks the
worker of the service for a retry, but a flush inside a push may find that the worker has
stopped or was never spawned. -/

set_option autoImplicit false

namespace Vpsiner.Logs

open Vpsiner.Lib

namespace LogBuffer

/-- The worker runs, and a request is in its channel or was already received. -/
def Attended (buffer : LogBuffer) : Prop :=
  buffer.flushTx = true ∧
    (buffer.requested = true ∨ buffer.worker = .debouncing ∨ buffer.worker = .drained)

/-- While no push and no flush is in progress, buffered lines have a live worker that will
flush them. -/
def NoneStranded (buffer : LogBuffer) : Prop :=
  buffer.lines ≠ [] → buffer.flights = [] → buffer.Attended ∧ buffer.worker ≠ .stopped

/-- A push whose own flush fails finds the sender of the worker. -/
def RetryFindsWorker (before : LogBuffer) : BufferAction → Prop
  | .appendReturns (.push index) fates => ∀ lines marks,
      before.phase (.push index) = some (.appending lines marks) →
        ¬Succeeds fates (lines.map Accepted.line) → before.flushTx = true
  | _ => True

variable {config : BufferConfig} {buffer before after : LogBuffer} {flusher : Flusher}
  {phase : FlushPhase}

/-- A running flush that goes on or ends leaves requests alone. -/
theorem attended_setPhase (buffer : LogBuffer) (present : buffer.phase flusher = some phase)
    (attended : buffer.Attended) (next : Option FlushPhase) :
    (buffer.setPhase flusher next).Attended := by
  refine ⟨attended.1, ?_⟩
  cases flusher with
  | push index => exact attended.2
  | worker =>
      obtain requested | debouncing | drained := attended.2
      · exact .inl requested
      · rw [LogBuffer.phase, debouncing] at present
        cases present
      · rw [LogBuffer.phase, drained] at present
        cases present

theorem attended_advanceNext (buffer : LogBuffer) (present : buffer.phase flusher = some phase)
    (attended : buffer.Attended) (marks : List (ContainerId × Mark)) :
    (buffer.advanceNext flusher marks).Attended := by
  cases marks with
  | nil => exact attended_setPhase buffer.notify present attended none
  | cons mark rest => exact attended_setPhase buffer present attended _

theorem lines_advanceNext (buffer : LogBuffer) (flusher : Flusher)
    (marks : List (ContainerId × Mark)) :
    (buffer.advanceNext flusher marks).lines = buffer.lines := by
  cases marks with
  | nil => rfl
  | cons mark rest => rfl

theorem attended_push (attended : before.lines ≠ [] → before.Attended) (line : LogLine)
    (waiting : (before.push config line).lines ≠ []) : (before.push config line).Attended := by
  rcases push_cases config before line with ⟨-, pushed⟩ | ⟨-, -, pushed⟩ | ⟨-, pushed⟩
  · have empty : (before.push config line).lines = [] := by
      rw [pushed]
      exact (startFlush_lines (before.accept config line)).1
    exact absurd empty waiting
  · rw [pushed]
    exact ⟨rfl, .inl rfl⟩
  · rw [pushed] at waiting ⊢
    exact attended waiting

/-- The sender that a failed append needs is there. -/
theorem sender_of_failed {fates : AppendFates} {lines : List Accepted}
    {marks : List (ContainerId × Mark)} {logs : SqliteLogStore} {fault : Fault}
    (live : before.WorkerLive) (found : before.RetryFindsWorker (.appendReturns flusher fates))
    (present : before.phase flusher = some (.appending lines marks))
    (appended : before.logs.append fates config.service (lines.map Accepted.line) =
      (logs, .error fault)) : before.flushTx = true := by
  cases flusher with
  | worker => exact live.mpr (running_of_phase present rfl)
  | push index =>
      refine found lines marks present fun succeeds => ?_
      have ok := (append_grown before.logs fates config.service _).2.mpr succeeds
      rw [appended] at ok
      cases ok

theorem attended_step {action : BufferAction} (live : before.WorkerLive)
    (attended : before.lines ≠ [] → before.Attended) (found : before.RetryFindsWorker action)
    (stepped : before.step config action = some after) (waiting : after.lines ≠ []) :
    after.Attended := by
  have liveAfter := live_step live stepped
  cases step_cases stepped with
  | pushed _ => exact attended_push attended _ waiting
  | received _ _ => exact ⟨liveAfter.mpr (by simp), .inr (.inl rfl)⟩
  | drained _ => exact ⟨liveAfter.mpr (by simp), .inr (.inr rfl)⟩
  | flushed _ => exact absurd (startFlush_lines before).1 waiting
  | retired _ _ empty => exact absurd empty waiting
  | waited _ _ => exact attended waiting
  | @stored _ _ _ _ logs present _ =>
      exact attended_setPhase { before with logs } present (attended waiting) _
  | restored present appended =>
      have sender := sender_of_failed live found present appended
      have requested : (before.flushTx || before.requested) = true := by
        rw [sender, Bool.true_or]
      exact ⟨sender, .inl requested⟩
  | interned present =>
      rw [lines_advanceNext] at waiting
      exact attended_advanceNext before present (attended waiting) _
  | unnamed present => exact attended_advanceNext before present (attended waiting) []
  | @advanced _ cid mark _ present =>
      rw [lines_advanceNext] at waiting
      exact attended_advanceNext (before.advanceLogCheckpoint cid mark) present (attended waiting) _
  | skipped present =>
      rw [lines_advanceNext] at waiting
      exact attended_advanceNext before present (attended waiting) _

end LogBuffer

open LogBuffer

/-- Unless a push has to put its lines back without a worker, buffered lines are never
left behind. -/
theorem none_stranded (config : BufferConfig) (logs : SqliteLogStore)
    (metadata : ContainerId → Option LogCheckpoint) {buffer : LogBuffer}
    (reached : (bufferMachine config logs metadata).Reachable RetryFindsWorker buffer) :
    buffer.NoneStranded := by
  have kept : buffer.WorkerLive ∧ (buffer.lines ≠ [] → buffer.Attended) := by
    apply reached.invariant fun buffer => buffer.WorkerLive ∧ (buffer.lines ≠ [] → buffer.Attended)
    · exact ⟨live_new logs metadata, fun waiting => absurd rfl waiting⟩
    · intro before after action holds found stepped
      exact ⟨live_step holds.1 stepped, attended_step holds.1 holds.2 found stepped⟩
  intro waiting _
  have attended := kept.2 waiting
  exact ⟨attended, kept.1.mp attended.1⟩

/-- An append in which the only week cannot be committed. -/
def diskFull : AppendFates := { week := fun _ => .commitFails "disk full" }

/-- The worker's own flush fails. -/
def workerRetry : List BufferAction := [
  .push (shopLine 1700000000000 "one"), .workerReceives, .workerDrains, .workerFlushes,
  .appendReturns .worker diskFull]

def senderKept (buffer : LogBuffer) : BufferAction → Bool
  | .appendReturns (.push _) _ => buffer.flushTx
  | _ => true

theorem retryFindsWorker_of_senderKept (buffer : LogBuffer) (action : BufferAction)
    (kept : senderKept buffer action = true) : buffer.RetryFindsWorker action := by
  cases action with
  | appendReturns flusher fates =>
      cases flusher with
      | push index => exact fun _ _ _ _ => kept
      | worker => trivial
  | push line => trivial
  | workerReceives => trivial
  | workerDrains => trivial
  | workerFlushes => trivial
  | workerTimesOut => trivial
  | internReturns flusher interned => trivial
  | advanceReturns flusher persisted => trivial

theorem worker_retry_attended : ∃ buffer : LogBuffer,
    buffer.lines = [⟨0, shopLine 1700000000000 "one"⟩] ∧ buffer.NoneStranded := by
  have done : (((bufferMachine shopConfig .empty fun _ => none).run senderKept
      (.new .empty fun _ => none) workerRetry).map LogBuffer.lines) =
        some [⟨0, shopLine 1700000000000 "one"⟩] := by decide
  obtain ⟨buffer, taken, lines⟩ := Option.map_eq_some_iff.mp done
  exact ⟨buffer, lines, none_stranded shopConfig .empty (fun _ => none)
    (Machine.Reachable.start.run retryFindsWorker_of_senderKept taken)⟩

/-- The worker stops while a push is still appending the lines it took; then that append
fails. -/
def stoppedBeforeRetry : List BufferAction := [
  .push (shopLine 1700000000000 "one"), .workerReceives, .push (shopLine 1700000000001 "two"),
  .workerDrains, .workerFlushes, .workerTimesOut, .appendReturns (.push 0) diskFull]

theorem failed_push_strands_lines :
    ¬ ∀ (config : BufferConfig) (logs : SqliteLogStore)
        (metadata : ContainerId → Option LogCheckpoint) (buffer : LogBuffer),
        1 ≤ config.maxBufferedLines →
          (bufferMachine config logs metadata).Reachable Machine.anyStep buffer →
            buffer.NoneStranded := by
  intro always
  have done : (((bufferMachine shopConfig .empty fun _ => none).run (fun _ _ => true)
      (.new .empty fun _ => none) stoppedBeforeRetry).map fun buffer =>
        (buffer.lines, buffer.flights, buffer.flushTx)) =
      some ([⟨0, shopLine 1700000000000 "one"⟩, ⟨1, shopLine 1700000000001 "two"⟩], [], false) := by
    decide
  obtain ⟨buffer, taken, found⟩ := Option.map_eq_some_iff.mp done
  obtain ⟨lines, others⟩ := Prod.mk.inj found
  obtain ⟨idle, sender⟩ := Prod.mk.inj others
  have waiting : buffer.lines ≠ [] := by simp [lines]
  have attended := (always shopConfig .empty (fun _ => none) buffer (by decide)
    (.of_run _ taken) waiting idle).1
  rw [Attended, sender] at attended
  cases attended.1

end Vpsiner.Logs
