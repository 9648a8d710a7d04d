import Mathlib.Data.List.Perm.Subperm
import Vpsiner.Logs.BufferProperties

/-! Where the accepted lines of a service are: in memory, or landed in the store by an
append that returned without an error. -/

set_option autoImplicit false

namespace Vpsiner.Logs

open Vpsiner.Lib

namespace LogBuffer

/-- Landed lines have a row each, next to the rows that were there before and to those
that failed appends left behind. -/
structure Ledger (config : BufferConfig) (initial : List LogLine) (buffer : LogBuffer)
    (landed : List Accepted) (strays : List LogLine) : Prop where
  live : buffer.WorkerLive
  accepted : buffer.history.Perm (landed ++ buffer.inMemory)
  stored : ((buffer.logs.entries config.service).map StoredLog.line).Perm
    (initial ++ (dated (landed.map Accepted.line)).map (storedLine config.service) ++ strays)

/-- A failing append leaves no row behind. -/
def CleanAppend (before : LogBuffer) : BufferAction → Prop
  | .appendReturns flusher fates => ∀ lines marks,
      before.phase flusher = some (.appending lines marks) →
        Succeeds fates (lines.map Accepted.line) ∨
          committedLines fates (lines.map Accepted.line) = []
  | _ => True

variable {config : BufferConfig} {before after : LogBuffer} {initial : List LogLine}
  {landed : List Accepted} {strays : List LogLine}

theorem Ledger.new (config : BufferConfig) (logs : SqliteLogStore)
    (metadata : ContainerId → Option LogCheckpoint) :
    Ledger config ((logs.entries config.service).map StoredLog.line) (.new logs metadata) [] [] where
  live := live_new logs metadata
  accepted := .refl _
  stored := by
    rw [List.append_nil]
    exact .of_eq (List.append_nil _).symm

theorem entries_append (logs : SqliteLogStore) (fates : AppendFates) (service : String)
    (lines : List LogLine) :
    (((logs.append fates service lines).1.entries service).map StoredLog.line).Perm
      ((logs.entries service).map StoredLog.line ++
        (committedLines fates lines).map (storedLine service)) := by
  obtain ⟨⟨added, entries, stored, _⟩, _⟩ := append_grown logs fates service lines
  have lines := entries.map StoredLog.line
  rwa [List.map_append, stored] at lines

theorem Ledger.lands {lines : List Accepted} {fates : AppendFates}
    (ledger : Ledger config initial before landed strays) (live : after.WorkerLive)
    (appended : before.logs.append fates config.service (lines.map Accepted.line) =
      (after.logs, .ok ()))
    (memory : before.inMemory.Perm (lines ++ after.inMemory)) (same : SameHistory before after) :
    Ledger config initial after (landed ++ lines) strays := by
  refine ⟨live, ?_, ?_⟩
  · rw [same.history, List.append_assoc]
    exact ledger.accepted.trans (memory.append_left _)
  · have grown := entries_append before.logs fates config.service (lines.map Accepted.line)
    have succeeds := (append_grown before.logs fates config.service (lines.map Accepted.line)).2
    rw [appended] at grown succeeds
    have whole := (committedLines_of_succeeds (succeeds.mp rfl)).map (storedLine config.service)
    rw [List.map_append, dated, List.filter_append, List.map_append]
    refine grown.trans ((ledger.stored.append whole).trans ?_)
    simp only [List.append_assoc]
    exact (List.perm_append_comm.append_left _).append_left _

theorem Ledger.fails {lines : List Accepted} {fates : AppendFates} {fault : Fault}
    (ledger : Ledger config initial before landed strays) (live : after.WorkerLive)
    (appended : before.logs.append fates config.service (lines.map Accepted.line) =
      (after.logs, .error fault))
    (memory : after.inMemory.Perm before.inMemory) (same : SameHistory before after) :
    Ledger config initial after landed
      (strays ++ (committedLines fates (lines.map Accepted.line)).map (storedLine config.service)) := by
  refine ⟨live, ?_, ?_⟩
  · rw [same.history]
    exact ledger.accepted.trans (memory.symm.append_left _)
  · have grown := entries_append before.logs fates config.service (lines.map Accepted.line)
    rw [appended] at grown
    rw [← List.append_assoc]
    exact grown.trans (ledger.stored.append_right _)

/-- Steps that change neither the store nor the history. -/
theorem Ledger.same (ledger : Ledger config initial before landed strays) (live : after.WorkerLive)
    (memory : after.inMemory.Perm before.inMemory) (same : SameHistory before after)
    (logs : after.logs = before.logs) : Ledger config initial after landed strays := by
  refine ⟨live, ?_, ?_⟩
  · rw [same.history]
    exact ledger.accepted.trans (memory.symm.append_left _)
  · rw [logs]
    exact ledger.stored

theorem Ledger.accepts {entry : Accepted} (ledger : Ledger config initial before landed strays)
    (live : after.WorkerLive) (history : after.history = before.history ++ [entry])
    (memory : after.inMemory.Perm (entry :: before.inMemory)) (logs : after.logs = before.logs) :
    Ledger config initial after landed strays := by
  refine ⟨live, ?_, ?_⟩
  · have appended := ledger.accepted.append_right [entry]
    rw [List.append_assoc] at appended
    rw [history]
    exact appended.trans (((List.perm_append_singleton _ _).trans memory.symm).append_left _)
  · rw [logs]
    exact ledger.stored

/-- Every step keeps a ledger; new strays come from an append that is not clean. -/
theorem Ledger.step {action : BufferAction} (ledger : Ledger config initial before landed strays)
    (stepped : before.step config action = some after) :
    ∃ landed later, Ledger config initial after landed later ∧
      (before.CleanAppend action → later = strays) := by
  have live := live_step ledger.live stepped
  cases step_effect ledger.live stepped with
  | accepts _ history _ memory stores =>
      exact ⟨_, _, ledger.accepts live history memory stores.logs, fun _ => rfl⟩
  | lands lines _ _ appended _ memory same =>
      exact ⟨_, _, ledger.lands live appended memory same, fun _ => rfl⟩
  | fails lines marks fault phase appended _ memory same =>
      refine ⟨_, _, ledger.fails live appended memory same, fun clean => ?_⟩
      cases clean lines marks phase with
      | inl succeeds =>
          have ok := (append_grown before.logs _ config.service (lines.map Accepted.line)).2.mpr
            succeeds
          rw [appended] at ok
          cases ok
      | inr nothing => rw [nothing, List.map_nil, List.append_nil]
  | advances _ _ _ _ _ logs memory same =>
      exact ⟨_, _, ledger.same live memory same logs, fun _ => rfl⟩
  | quiet memory same stores =>
      exact ⟨_, _, ledger.same live memory same stores.logs, fun _ => rfl⟩

end LogBuffer

def appendOk (config : BufferConfig) (before : LogBuffer) : BufferAction → Bool
  | .appendReturns flusher fates =>
      match before.phase flusher with
      | some (.appending lines _) =>
          (before.logs.append fates config.service (lines.map Accepted.line)).2.isOk
      | _ => true
  | _ => true

theorem cleanAppend_of_appendOk (config : BufferConfig) (before : LogBuffer)
    (action : BufferAction) (ok : appendOk config before action = true) :
    before.CleanAppend action := by
  cases action with
  | appendReturns flusher fates =>
      intro lines marks present
      rw [appendOk, present] at ok
      have succeeds := (append_grown before.logs fates config.service
        (lines.map Accepted.line)).2
      cases result : (before.logs.append fates config.service (lines.map Accepted.line)).2 with
      | ok done => exact .inl (succeeds.mp result)
      | error fault =>
          simp only [result] at ok
          cases ok
  | push line => trivial
  | workerReceives => trivial
  | workerDrains => trivial
  | workerFlushes => trivial
  | workerTimesOut => trivial
  | internReturns flusher interned => trivial
  | advanceReturns flusher persisted => trivial

end Vpsiner.Logs
