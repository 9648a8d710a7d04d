import Mathlib.Data.List.Perm.Basic
import Vpsiner.Logs.AppendProperties
import Vpsiner.Logs.Buffer

/-! What each step of the log buffer does to the lines in memory, to the store, to the
stored checkpoints and to the worker. -/

set_option autoImplicit false

namespace Vpsiner.Logs

open Vpsiner.Lib

namespace FlushPhase

def taken : FlushPhase → List Accepted
  | .appending lines _ => lines
  | _ => []

/-- The append has returned, and the notification is still to come. -/
def announces : FlushPhase → Bool
  | .appending _ _ => false
  | _ => true

def marks : FlushPhase → List (ContainerId × Mark)
  | .appending _ marks => marks
  | .interning marks => marks
  | .advancing marks => marks

end FlushPhase

namespace LogBuffer

def flights (buffer : LogBuffer) : List FlushPhase :=
  (buffer.phase .worker).toList ++ buffer.pushes

/-- Accepted lines that a crash would lose. -/
def inMemory (buffer : LogBuffer) : List Accepted :=
  buffer.lines ++ buffer.flights.flatMap FlushPhase.taken

/-- A flush has stored its lines and will send a notification. -/
def announces (buffer : LogBuffer) : Bool := buffer.flights.any FlushPhase.announces

/-- The sender is kept exactly as long as the task runs. -/
def WorkerLive (buffer : LogBuffer) : Prop :=
  buffer.flushTx = true ↔ buffer.worker ≠ .stopped

variable {config : BufferConfig} {buffer before after : LogBuffer} {flusher : Flusher}
  {phase : FlushPhase}

/-! ## Running flushes -/

def otherFlights (buffer : LogBuffer) : Flusher → List FlushPhase
  | .worker => buffer.pushes
  | .push index => (buffer.phase .worker).toList ++ buffer.pushes.eraseIdx index

theorem flights_perm (present : buffer.phase flusher = some phase) :
    buffer.flights.Perm (phase :: buffer.otherFlights flusher) := by
  cases flusher with
  | worker => rw [flights, present, Option.toList_some, List.singleton_append, otherFlights]
  | push index =>
      obtain ⟨inside, found⟩ := List.getElem?_eq_some_iff.mp present
      have moved := List.getElem_cons_eraseIdx_perm inside
      rw [found] at moved
      exact (moved.symm.append_left _).trans List.perm_middle

theorem phase_worker_setPhase (buffer : LogBuffer) (next : Option FlushPhase) :
    (buffer.setPhase .worker next).phase .worker = next := by
  cases next with
  | none => rfl
  | some next => rfl

theorem flights_setPhase_worker (buffer : LogBuffer) (next : Option FlushPhase) :
    (buffer.setPhase .worker next).flights = next.toList ++ buffer.pushes := by
  rw [flights, phase_worker_setPhase]
  rfl

/-- The flush goes on in its next phase, or ends. -/
theorem flights_setPhase (present : buffer.phase flusher = some phase)
    (next : Option FlushPhase) :
    (buffer.setPhase flusher next).flights.Perm (next.toList ++ buffer.otherFlights flusher) := by
  cases flusher with
  | worker => rw [flights_setPhase_worker, otherFlights]
  | push index =>
      cases next with
      | none => rfl
      | some next =>
          obtain ⟨inside, _⟩ := List.getElem?_eq_some_iff.mp present
          exact ((List.set_perm_cons_eraseIdx inside next).append_left _).trans List.perm_middle

theorem inMemory_perm (present : buffer.phase flusher = some phase) :
    buffer.inMemory.Perm (phase.taken ++
      (buffer.lines ++ (buffer.otherFlights flusher).flatMap FlushPhase.taken)) := by
  have flights := (flights_perm present).flatMap_right FlushPhase.taken
  rw [List.flatMap_cons] at flights
  exact (flights.append_left _).trans (List.perm_append_comm_assoc _ _ _)

theorem inMemory_setPhase (buffer : LogBuffer) (present : buffer.phase flusher = some phase)
    (next : Option FlushPhase) :
    (buffer.setPhase flusher next).inMemory.Perm (next.toList.flatMap FlushPhase.taken ++
      (buffer.lines ++ (buffer.otherFlights flusher).flatMap FlushPhase.taken)) := by
  have flights := (flights_setPhase present next).flatMap_right FlushPhase.taken
  rw [List.flatMap_append] at flights
  exact (flights.append_left _).trans (List.perm_append_comm_assoc _ _ _)

/-! ## What a step can do -/

/-- The ways in which a step can be taken, with the state each of them leaves. -/
inductive Stepped (config : BufferConfig) (before : LogBuffer) : BufferAction → LogBuffer → Prop where
  | pushed {line : LogLine} (own : line.service = config.service) :
      Stepped config before (.push line) (before.push config line)
  | received (receiving : before.worker = .receiving) (requested : before.requested = true) :
      Stepped config before .workerReceives { before with requested := false, worker := .debouncing }
  | drained (debouncing : before.worker = .debouncing) :
      Stepped config before .workerDrains { before with requested := false, worker := .drained }
  | flushed (drained : before.worker = .drained) :
      Stepped config before .workerFlushes
        (before.startFlush.1.setPhase .worker before.startFlush.2)
  | retired (receiving : before.worker = .receiving) (quiet : before.requested = false)
      (empty : before.lines = []) :
      Stepped config before .workerTimesOut { before with flushTx := false, worker := .stopped }
  | waited (receiving : before.worker = .receiving) (quiet : before.requested = false) :
      Stepped config before .workerTimesOut before
  | stored {flusher : Flusher} {fates : AppendFates} {lines : List Accepted}
      {marks : List (ContainerId × Mark)} {logs : SqliteLogStore}
      (present : before.phase flusher = some (.appending lines marks))
      (appended : before.logs.append fates config.service (lines.map Accepted.line) =
        (logs, .ok ())) :
      Stepped config before (.appendReturns flusher fates)
        ({ before with logs }.setPhase flusher (some (.interning marks)))
  | restored {flusher : Flusher} {fates : AppendFates} {lines : List Accepted}
      {marks : List (ContainerId × Mark)} {logs : SqliteLogStore} {fault : Fault}
      (present : before.phase flusher = some (.appending lines marks))
      (appended : before.logs.append fates config.service (lines.map Accepted.line) =
        (logs, .error fault)) :
      Stepped config before (.appendReturns flusher fates)
        (({ before with logs, lines := lines ++ before.lines } :
          LogBuffer).requestServiceFlush.setPhase flusher none)
  | interned {flusher : Flusher} {marks : List (ContainerId × Mark)}
      (present : before.phase flusher = some (.interning marks)) :
      Stepped config before (.internReturns flusher true) (before.advanceNext flusher marks)
  /-- Without an id of the service no checkpoint is advanced. -/
  | unnamed {flusher : Flusher} {marks : List (ContainerId × Mark)}
      (present : before.phase flusher = some (.interning marks)) :
      Stepped config before (.internReturns flusher false) (before.advanceNext flusher [])
  | advanced {flusher : Flusher} {cid : ContainerId} {mark : Mark}
      {rest : List (ContainerId × Mark)}
      (present : before.phase flusher = some (.advancing ((cid, mark) :: rest))) :
      Stepped config before (.advanceReturns flusher true)
        ((before.advanceLogCheckpoint cid mark).advanceNext flusher rest)
  | skipped {flusher : Flusher} {cid : ContainerId} {mark : Mark}
      {rest : List (ContainerId × Mark)}
      (present : before.phase flusher = some (.advancing ((cid, mark) :: rest))) :
      Stepped config before (.advanceReturns flusher false) (before.advanceNext flusher rest)

theorem step_cases {action : BufferAction} (stepped : before.step config action = some after) :
    Stepped config before action after := by
  cases action with
  | push line =>
      rw [step] at stepped
      split at stepped
      · next own =>
          cases stepped
          exact .pushed own
      · cases stepped
  | workerReceives =>
      rw [step, workerReceives] at stepped
      split at stepped
      · next receiving requested =>
          cases stepped
          exact .received receiving requested
      · cases stepped
  | workerDrains =>
      rw [step, workerDrains] at stepped
      split at stepped
      · next debouncing =>
          cases stepped
          exact .drained debouncing
      · cases stepped
  | workerFlushes =>
      rw [step, workerFlushes] at stepped
      split at stepped
      · next drained =>
          cases stepped
          exact .flushed drained
      · cases stepped
  | workerTimesOut =>
      rw [step, workerTimesOut] at stepped
      split at stepped
      · next receiving quiet =>
          split at stepped
          · next empty =>
              cases stepped
              exact .retired receiving quiet (List.isEmpty_iff.mp empty)
          · cases stepped
            exact .waited receiving quiet
      · cases stepped
  | appendReturns flusher fates =>
      rw [step, appendReturns] at stepped
      split at stepped
      · next lines marks present =>
          split at stepped
          · next logs appended =>
              cases stepped
              exact .stored present appended
          · next logs fault appended =>
              cases stepped
              exact .restored present appended
      · cases stepped
  | internReturns flusher interned =>
      rw [step, internReturns] at stepped
      split at stepped
      · next marks present =>
          cases interned with
          | true =>
              cases stepped
              exact .interned present
          | false =>
              cases stepped
              exact .unnamed present
      · cases stepped
  | advanceReturns flusher persisted =>
      rw [step, advanceReturns] at stepped
      split at stepped
      · next cid mark rest present =>
          cases persisted with
          | true =>
              cases stepped
              exact .advanced present
          | false =>
              cases stepped
              exact .skipped present
      · cases stepped

/-! ## The effect of a step -/

/-- Nothing is accepted, and no checkpoint in memory changes. -/
structure SameHistory (before after : LogBuffer) : Prop where
  history : after.history = before.history
  checkpoints : after.checkpoints = before.checkpoints

structure SameStores (before after : LogBuffer) : Prop where
  logs : after.logs = before.logs
  metadata : after.metadata = before.metadata

/-- What a step does to the accepted lines and to the two stores. -/
inductive Effect (config : BufferConfig) (before : LogBuffer) : BufferAction → LogBuffer → Prop where
  | accepts {line : LogLine} {after : LogBuffer}
      (accepted : accepts config before.checkpoints line = true)
      (history : after.history = before.history ++ [⟨before.history.length, line⟩])
      (checkpoints : after.checkpoints = Function.update before.checkpoints line.cid
        (some ⟨⟨line.ts, config.hash line.stream line.line⟩, before.history.length + 1⟩))
      (memory : after.inMemory.Perm (⟨before.history.length, line⟩ :: before.inMemory))
      (stores : SameStores before after) : Effect config before (.push line) after
  | lands {flusher : Flusher} {fates : AppendFates} {after : LogBuffer} (lines : List Accepted)
      (marks : List (ContainerId × Mark))
      (phase : before.phase flusher = some (.appending lines marks))
      (appended : before.logs.append fates config.service (lines.map Accepted.line) =
        (after.logs, .ok ()))
      (metadata : after.metadata = before.metadata)
      (memory : before.inMemory.Perm (lines ++ after.inMemory))
      (same : SameHistory before after) : Effect config before (.appendReturns flusher fates) after
  | fails {flusher : Flusher} {fates : AppendFates} {after : LogBuffer} (lines : List Accepted)
      (marks : List (ContainerId × Mark)) (fault : Fault)
      (phase : before.phase flusher = some (.appending lines marks))
      (appended : before.logs.append fates config.service (lines.map Accepted.line) =
        (after.logs, .error fault))
      (metadata : after.metadata = before.metadata)
      (memory : after.inMemory.Perm before.inMemory)
      (same : SameHistory before after) : Effect config before (.appendReturns flusher fates) after
  | advances {flusher : Flusher} {after : LogBuffer} (cid : ContainerId) (mark : Mark)
      (rest : List (ContainerId × Mark))
      (phase : before.phase flusher = some (.advancing ((cid, mark) :: rest)))
      (metadata : after.metadata = (before.advanceLogCheckpoint cid mark).metadata)
      (logs : after.logs = before.logs) (memory : after.inMemory.Perm before.inMemory)
      (same : SameHistory before after) : Effect config before (.advanceReturns flusher true) after
  | quiet {action : BufferAction} {after : LogBuffer} (memory : after.inMemory.Perm before.inMemory)
      (same : SameHistory before after) (stores : SameStores before after) :
      Effect config before action after

theorem startFlush_fields (buffer : LogBuffer) :
    SameHistory buffer buffer.startFlush.1 ∧ SameStores buffer buffer.startFlush.1 ∧
      buffer.startFlush.1.worker = buffer.worker ∧ buffer.startFlush.1.pushes = buffer.pushes := by
  rw [startFlush]
  split
  · exact ⟨⟨rfl, rfl⟩, ⟨rfl, rfl⟩, rfl, rfl⟩
  · exact ⟨⟨rfl, rfl⟩, ⟨rfl, rfl⟩, rfl, rfl⟩

theorem startFlush_lines (buffer : LogBuffer) : buffer.startFlush.1.lines = [] ∧
    buffer.startFlush.2.toList.flatMap FlushPhase.taken = buffer.lines := by
  rw [startFlush]
  split
  · next empty => exact ⟨empty, empty.symm⟩
  · exact ⟨rfl, List.append_nil _⟩

theorem advanceNext_fields (buffer : LogBuffer) (flusher : Flusher)
    (marks : List (ContainerId × Mark)) :
    SameHistory buffer (buffer.advanceNext flusher marks) ∧
      SameStores buffer (buffer.advanceNext flusher marks) := by
  cases marks with
  | nil => exact ⟨⟨rfl, rfl⟩, rfl, rfl⟩
  | cons mark rest => exact ⟨⟨rfl, rfl⟩, rfl, rfl⟩

theorem inMemory_advanceNext (buffer : LogBuffer) (present : buffer.phase flusher = some phase)
    (appended : phase.taken = []) (marks : List (ContainerId × Mark)) :
    (buffer.advanceNext flusher marks).inMemory.Perm buffer.inMemory := by
  have memory := inMemory_perm present
  rw [appended, List.nil_append] at memory
  refine List.Perm.trans ?_ memory.symm
  cases marks with
  | nil => exact inMemory_setPhase buffer.notify present none
  | cons mark rest => exact inMemory_setPhase buffer present _

theorem worker_scheduleFlush (buffer : LogBuffer) (live : buffer.WorkerLive) :
    buffer.scheduleFlush.phase .worker = buffer.phase .worker := by
  simp only [LogBuffer.phase, scheduleFlush]
  cases sender : buffer.flushTx with
  | true => rw [if_pos rfl]
  | false =>
      have stopped : buffer.worker = .stopped := by
        by_contra running
        rw [live.mpr running] at sender
        cases sender
      rw [if_neg Bool.false_ne_true, stopped]

theorem inMemory_scheduleFlush (live : buffer.WorkerLive) :
    buffer.scheduleFlush.inMemory = buffer.inMemory := by
  rw [inMemory, flights, worker_scheduleFlush buffer live]
  rfl

/-- A push flushes a full buffer, schedules a flush for later, or drops its line. -/
theorem push_cases (config : BufferConfig) (buffer : LogBuffer) (line : LogLine) :
    (accepts config buffer.checkpoints line = true ∧ buffer.push config line =
      { (buffer.accept config line).startFlush.1 with
        pushes := (buffer.accept config line).startFlush.1.pushes ++
          (buffer.accept config line).startFlush.2.toList }) ∨
    (accepts config buffer.checkpoints line = true ∧
      (buffer.accept config line).lines.length < config.maxBufferedLines ∧
        buffer.push config line = (buffer.accept config line).scheduleFlush) ∨
    (accepts config buffer.checkpoints line = false ∧ buffer.push config line = buffer) := by
  by_cases accepted : accepts config buffer.checkpoints line = true
  · by_cases full : config.maxBufferedLines ≤ (buffer.accept config line).lines.length
    · exact .inl ⟨accepted, (if_pos accepted).trans (if_pos full)⟩
    · exact .inr (.inl ⟨accepted, not_le.mp full, (if_pos accepted).trans (if_neg full)⟩)
  · exact .inr (.inr ⟨Bool.eq_false_iff.mpr accepted, if_neg accepted⟩)

/-- Only an append writes to the log store. -/
theorem logs_step {action : BufferAction} (stepped : before.step config action = some after)
    (other : ∀ flusher fates, action ≠ .appendReturns flusher fates) : after.logs = before.logs := by
  cases step_cases stepped with
  | @pushed line _ =>
      obtain ⟨_, moved⟩ | ⟨_, _, moved⟩ | ⟨_, moved⟩ := push_cases config before line
      · rw [moved]
        exact (startFlush_fields (before.accept config line)).2.1.logs
      · rw [moved]
        rfl
      · rw [moved]
  | received _ _ => rfl
  | drained _ => rfl
  | flushed _ => exact (startFlush_fields before).2.1.logs
  | retired _ _ _ => rfl
  | waited _ _ => rfl
  | stored _ _ => exact absurd rfl (other _ _)
  | restored _ _ => exact absurd rfl (other _ _)
  | @interned flusher marks _ => exact (advanceNext_fields before flusher marks).2.logs
  | @unnamed flusher _ _ => exact (advanceNext_fields before flusher []).2.logs
  | @advanced flusher cid mark rest _ =>
      exact (advanceNext_fields (before.advanceLogCheckpoint cid mark) flusher rest).2.logs
  | @skipped flusher _ _ rest _ => exact (advanceNext_fields before flusher rest).2.logs

theorem push_effect (live : before.WorkerLive) (line : LogLine) :
    Effect config before (.push line) (before.push config line) := by
  have memory : (before.accept config line).inMemory.Perm
      (⟨before.history.length, line⟩ :: before.inMemory) := by
    rw [inMemory, accept, List.append_assoc]
    exact List.perm_middle
  rcases push_cases config before line with ⟨accepted, pushed⟩ | ⟨accepted, -, pushed⟩ | ⟨-, pushed⟩
  · obtain ⟨history, stores, worker, pushes⟩ := startFlush_fields (before.accept config line)
    obtain ⟨lines, batch⟩ := startFlush_lines (before.accept config line)
    rw [pushed]
    refine .accepts accepted history.history history.checkpoints ?_
      ⟨stores.logs, stores.metadata⟩
    refine .trans (.of_eq ?_) (List.perm_append_comm.trans memory)
    simp only [inMemory, flights, LogBuffer.phase, lines, worker, pushes, List.nil_append,
      List.flatMap_append, batch, List.append_assoc]
  · have scheduled : (before.accept config line).scheduleFlush.inMemory =
        (before.accept config line).inMemory := inMemory_scheduleFlush live
    rw [pushed]
    exact .accepts accepted rfl rfl (scheduled ▸ memory) ⟨rfl, rfl⟩
  · rw [pushed]
    exact .quiet (.refl _) ⟨rfl, rfl⟩ ⟨rfl, rfl⟩

/-- The worker moves between phases in which it holds no batch. -/
theorem quiet_of_idle {action : BufferAction} (lines : after.lines = before.lines)
    (idle : before.phase .worker = none) (still : after.phase .worker = none)
    (pushes : after.pushes = before.pushes) (same : SameHistory before after)
    (stores : SameStores before after) : Effect config before action after := by
  refine .quiet (.of_eq ?_) same stores
  rw [inMemory, inMemory, flights, flights, lines, idle, still, pushes]

theorem step_effect {action : BufferAction} (live : before.WorkerLive)
    (stepped : before.step config action = some after) : Effect config before action after := by
  cases step_cases stepped with
  | pushed _ => exact push_effect live _
  | received receiving _ =>
      have idle : before.phase .worker = none := by simp only [LogBuffer.phase, receiving]
      exact quiet_of_idle rfl idle rfl rfl ⟨rfl, rfl⟩ ⟨rfl, rfl⟩
  | drained debouncing =>
      have idle : before.phase .worker = none := by simp only [LogBuffer.phase, debouncing]
      exact quiet_of_idle rfl idle rfl rfl ⟨rfl, rfl⟩ ⟨rfl, rfl⟩
  | flushed drained =>
      have idle : before.phase .worker = none := by simp only [LogBuffer.phase, drained]
      obtain ⟨history, stores, _, pushes⟩ := startFlush_fields before
      obtain ⟨lines, batch⟩ := startFlush_lines before
      refine .quiet (.of_eq ?_) ⟨history.history, history.checkpoints⟩
        ⟨stores.logs, stores.metadata⟩
      have empty : (before.startFlush.1.setPhase .worker before.startFlush.2).lines = [] := lines
      rw [inMemory, inMemory, flights_setPhase_worker, empty, flights, idle, pushes,
        List.flatMap_append, batch]
      rfl
  | retired receiving _ _ =>
      have idle : before.phase .worker = none := by simp only [LogBuffer.phase, receiving]
      exact quiet_of_idle rfl idle rfl rfl ⟨rfl, rfl⟩ ⟨rfl, rfl⟩
  | waited _ _ => exact .quiet (.refl _) ⟨rfl, rfl⟩ ⟨rfl, rfl⟩
  | @stored _ _ lines marks logs present appended =>
      have moved := inMemory_setPhase { before with logs } present (some (.interning marks))
      exact .lands lines marks present appended rfl
        ((inMemory_perm present).trans (.append_left _ moved.symm)) ⟨rfl, rfl⟩
  | @restored _ _ lines marks logs fault present appended =>
      have restored := inMemory_setPhase
        ({ before with logs, lines := lines ++ before.lines } : LogBuffer).requestServiceFlush
        present none
      refine .fails lines marks fault present appended rfl (restored.trans ?_) ⟨rfl, rfl⟩
      exact .trans (.of_eq (List.append_assoc _ _ _)) (inMemory_perm present).symm
  | @interned flusher marks present =>
      have fields := advanceNext_fields before flusher marks
      exact .quiet (inMemory_advanceNext before present rfl marks) fields.1 fields.2
  | unnamed present =>
      exact .quiet (inMemory_advanceNext before present rfl []) ⟨rfl, rfl⟩ ⟨rfl, rfl⟩
  | @advanced flusher cid mark rest present =>
      have fields := advanceNext_fields (before.advanceLogCheckpoint cid mark) flusher rest
      exact .advances cid mark rest present fields.2.metadata fields.2.logs
        (inMemory_advanceNext (before.advanceLogCheckpoint cid mark) present rfl rest)
        ⟨fields.1.history, fields.1.checkpoints⟩
  | @skipped flusher _ _ rest present =>
      have fields := advanceNext_fields before flusher rest
      exact .quiet (inMemory_advanceNext before present rfl rest) fields.1 fields.2

/-- Only pushes accept lines. -/
theorem sameHistory_step {action : BufferAction} (live : before.WorkerLive)
    (stepped : before.step config action = some after) (other : ∀ line, action ≠ .push line) :
    SameHistory before after := by
  cases step_effect live stepped with
  | accepts => exact absurd rfl (other _)
  | lands _ _ _ _ _ _ same => exact same
  | fails _ _ _ _ _ _ _ same => exact same
  | advances _ _ _ _ _ _ _ same => exact same
  | quiet _ same _ => exact same

/-! ## The worker -/

theorem running_of_phase (present : buffer.phase flusher = some phase) :
    flusher = .worker → buffer.worker ≠ .stopped := by
  intro same stopped
  rw [same, LogBuffer.phase, stopped] at present
  cases present

theorem live_setPhase (buffer : LogBuffer) (live : buffer.WorkerLive)
    (running : flusher = .worker → buffer.worker ≠ .stopped) (next : Option FlushPhase) :
    (buffer.setPhase flusher next).WorkerLive := by
  cases flusher with
  | push index => exact live
  | worker =>
      refine iff_of_true (live.mpr (running rfl)) ?_
      cases next with
      | none =>
          intro stopped
          cases stopped
      | some next =>
          intro stopped
          cases stopped

theorem live_advanceNext (live : buffer.WorkerLive)
    (running : flusher = .worker → buffer.worker ≠ .stopped)
    (marks : List (ContainerId × Mark)) : (buffer.advanceNext flusher marks).WorkerLive := by
  cases marks with
  | nil => exact live_setPhase buffer.notify live running _
  | cons mark rest => exact live_setPhase buffer live running _

theorem live_new (logs : SqliteLogStore) (metadata : ContainerId → Option LogCheckpoint) :
    (LogBuffer.new logs metadata).WorkerLive :=
  iff_of_false Bool.false_ne_true fun running => running rfl

theorem live_scheduleFlush (live : buffer.WorkerLive) : buffer.scheduleFlush.WorkerLive := by
  refine iff_of_true rfl ?_
  simp only [scheduleFlush]
  split
  · next sender => exact live.mp sender
  · intro stopped
    cases stopped

theorem startFlush_flushTx (buffer : LogBuffer) : buffer.startFlush.1.flushTx = buffer.flushTx ∧
    buffer.startFlush.1.requested = buffer.requested := by
  rw [startFlush]
  split
  · exact ⟨rfl, rfl⟩
  · exact ⟨rfl, rfl⟩

theorem live_startFlush (live : buffer.WorkerLive) : buffer.startFlush.1.WorkerLive := by
  rw [WorkerLive, (startFlush_flushTx buffer).1, (startFlush_fields buffer).2.2.1]
  exact live

theorem live_push (live : before.WorkerLive) (line : LogLine) :
    (before.push config line).WorkerLive := by
  have accepted : (before.accept config line).WorkerLive := live
  simp only [push]
  split
  · split
    · exact live_startFlush accepted
    · exact live_scheduleFlush accepted
  · exact live

theorem live_step {action : BufferAction} (live : before.WorkerLive)
    (stepped : before.step config action = some after) : after.WorkerLive := by
  cases step_cases stepped with
  | pushed _ => exact live_push live _
  | received receiving _ =>
      have running : before.worker ≠ .stopped := by simp [receiving]
      exact iff_of_true (live.mpr running) (by simp)
  | drained debouncing =>
      have running : before.worker ≠ .stopped := by simp [debouncing]
      exact iff_of_true (live.mpr running) (by simp)
  | flushed drained =>
      have running : before.startFlush.1.worker ≠ .stopped := by
        rw [(startFlush_fields before).2.2.1, drained]
        simp
      exact live_setPhase _ (live_startFlush live) (fun _ => running) _
  | retired _ _ _ => exact iff_of_false Bool.false_ne_true fun running => running rfl
  | waited _ _ => exact live
  | @stored _ _ _ _ logs present _ =>
      have stored : ({ before with logs } : LogBuffer).WorkerLive := live
      exact live_setPhase _ stored (running_of_phase present) _
  | @restored _ _ lines _ logs _ present _ =>
      have restored : ({ before with logs, lines := lines ++ before.lines } :
        LogBuffer).requestServiceFlush.WorkerLive := live
      exact live_setPhase _ restored (running_of_phase present) _
  | interned present => exact live_advanceNext live (running_of_phase present) _
  | unnamed present => exact live_advanceNext live (running_of_phase present) []
  | @advanced _ cid mark _ present =>
      have advanced : (before.advanceLogCheckpoint cid mark).WorkerLive := live
      exact live_advanceNext advanced (running_of_phase present) _
  | skipped present => exact live_advanceNext live (running_of_phase present) _

/-! ## Notifications -/

structure Announces (before after : LogBuffer) : Prop where
  version : before.flushWatcher.version ≤ after.flushWatcher.version
  kept : before.announces = true → after.announces = true ∨
    before.flushWatcher.version < after.flushWatcher.version

theorem announces_eq (present : buffer.phase flusher = some phase) :
    buffer.announces = (phase.announces || (buffer.otherFlights flusher).any FlushPhase.announces) := by
  rw [announces, (flights_perm present).any_eq, List.any_cons]

theorem announces_setPhase (buffer : LogBuffer) (present : buffer.phase flusher = some phase)
    (next : Option FlushPhase) : (buffer.setPhase flusher next).announces =
      (next.toList.any FlushPhase.announces ||
        (buffer.otherFlights flusher).any FlushPhase.announces) := by
  rw [announces, (flights_setPhase present next).any_eq, List.any_append]

theorem announces_advanceNext (buffer : LogBuffer) (present : buffer.phase flusher = some phase)
    (marks : List (ContainerId × Mark)) : Announces buffer (buffer.advanceNext flusher marks) := by
  cases marks with
  | nil => exact ⟨Nat.le_succ _, fun _ => .inr (Nat.lt_succ_self _)⟩
  | cons first rest =>
      refine ⟨Nat.le_refl _, fun _ => .inl ?_⟩
      have moved : buffer.advanceNext flusher (first :: rest) =
          buffer.setPhase flusher (some (.advancing (first :: rest))) := rfl
      rw [moved, announces_setPhase buffer present]
      rfl

/-- A flush that has not stored its lines announces nothing. -/
theorem announces_of_appending {lines : List Accepted} {marks : List (ContainerId × Mark)}
    (buffer : LogBuffer) (present : buffer.phase flusher = some (.appending lines marks))
    (next : Option FlushPhase) (announced : buffer.announces = true) :
    (buffer.setPhase flusher next).announces = true := by
  rw [announces_eq present, FlushPhase.announces, Bool.false_or] at announced
  rw [announces_setPhase buffer present, announced, Bool.or_true]

theorem announces_of_flights (more : ∀ phase ∈ before.flights, phase ∈ after.flights)
    (version : after.flushWatcher = before.flushWatcher) : Announces before after := by
  refine ⟨le_of_eq (congrArg Watch.version version.symm), fun announced => .inl ?_⟩
  obtain ⟨phase, member, announcing⟩ := List.any_eq_true.mp announced
  exact List.any_eq_true.mpr ⟨phase, more phase member, announcing⟩

theorem startFlush_flushWatcher (buffer : LogBuffer) :
    buffer.startFlush.1.flushWatcher = buffer.flushWatcher := by
  rw [startFlush]
  split
  · rfl
  · rfl

theorem announces_push (live : before.WorkerLive) (line : LogLine) :
    Announces before (before.push config line) := by
  rcases push_cases config before line with ⟨-, pushed⟩ | ⟨-, -, pushed⟩ | ⟨-, pushed⟩
  · obtain ⟨_, _, worker, pushes⟩ := startFlush_fields (before.accept config line)
    rw [pushed]
    refine announces_of_flights (fun phase member => ?_) (startFlush_flushWatcher _)
    simp only [flights, LogBuffer.phase, worker, pushes, ← List.append_assoc]
    exact List.mem_append_left _ member
  · rw [pushed]
    refine announces_of_flights (fun phase member => ?_) rfl
    rw [flights, worker_scheduleFlush (before.accept config line) live]
    exact member
  · rw [pushed]
    exact announces_of_flights (fun _ member => member) rfl

theorem announces_idle (idle : before.phase .worker = none) (pushes : before.pushes ⊆ after.flights)
    (version : after.flushWatcher = before.flushWatcher) : Announces before after := by
  refine announces_of_flights (fun phase member => ?_) version
  rw [flights, idle] at member
  exact pushes member

theorem announces_step {action : BufferAction} (live : before.WorkerLive)
    (stepped : before.step config action = some after) : Announces before after := by
  cases step_cases stepped with
  | pushed _ => exact announces_push live _
  | received receiving _ =>
      have idle : before.phase .worker = none := by simp only [LogBuffer.phase, receiving]
      exact announces_idle idle (List.subset_append_right _ _) rfl
  | drained debouncing =>
      have idle : before.phase .worker = none := by simp only [LogBuffer.phase, debouncing]
      exact announces_idle idle (List.subset_append_right _ _) rfl
  | flushed drained =>
      have idle : before.phase .worker = none := by simp only [LogBuffer.phase, drained]
      refine announces_idle idle ?_ (startFlush_flushWatcher before)
      rw [flights_setPhase_worker, (startFlush_fields before).2.2.2]
      exact List.subset_append_right _ _
  | retired receiving _ _ =>
      have idle : before.phase .worker = none := by simp only [LogBuffer.phase, receiving]
      exact announces_idle idle (List.subset_append_right _ _) rfl
  | waited _ _ => exact announces_of_flights (fun _ member => member) rfl
  | @stored _ _ _ _ logs present _ =>
      exact ⟨Nat.le_refl _, fun announced =>
        .inl (announces_of_appending { before with logs } present _ announced)⟩
  | @restored _ _ lines _ logs _ present _ =>
      exact ⟨Nat.le_refl _, fun announced => .inl (announces_of_appending
        ({ before with logs, lines := lines ++ before.lines } :
          LogBuffer).requestServiceFlush present none announced)⟩
  | interned present => exact announces_advanceNext before present _
  | unnamed present => exact announces_advanceNext before present []
  | @advanced _ cid mark rest present =>
      have announces := announces_advanceNext (before.advanceLogCheckpoint cid mark) present rest
      exact ⟨announces.version, announces.kept⟩
  | skipped present => exact announces_advanceNext before present _

/-- A flush that has stored its lines will be announced. -/
theorem announces_of_appended {fates : AppendFates} {lines : List Accepted}
    {marks : List (ContainerId × Mark)}
    (present : before.phase flusher = some (.appending lines marks))
    (appended : (before.logs.append fates config.service (lines.map Accepted.line)).2 = .ok ())
    (stepped : before.step config (.appendReturns flusher fates) = some after) :
    after.announces = true := by
  simp only [step, appendReturns, present] at stepped
  split at stepped
  · next logs _ =>
      cases stepped
      rw [announces_setPhase { before with logs } present]
      rfl
  · next fault failed =>
      rw [failed] at appended
      cases appended

end LogBuffer

end Vpsiner.Logs
