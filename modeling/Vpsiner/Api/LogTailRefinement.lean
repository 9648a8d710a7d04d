import Mathlib.Logic.Relation
import Vpsiner.Api.LogTailProperties
import Vpsiner.Api.LogTailWeeks

/-! Whole appends and whole queries as runs of single weeks. Where nothing comes between its weeks,
an append or a query of the log tail leaves what its weeks leave one after the other. -/

set_option autoImplicit false

namespace Vpsiner.Api

open Vpsiner.Lib Vpsiner.Logs

namespace LogTailWeeks

/-- No append and no check is on its way. -/
def resting (state : LogTail) : LogTailWeeks :=
  { state with landed := [], listing := none, walk := none }

def Reaches (config : BufferConfig) (backend : LogBackend) : LogTailWeeks → LogTailWeeks → Prop :=
  Relation.ReflTransGen fun before after => ∃ action, before.step config backend action = some after

variable {config : BufferConfig} {backend : LogBackend}

/-! ## Queries -/

theorem reaches_answer {state : LogTailWeeks} {tail : TailState} {page : List StoredLog}
    {direction : Direction} {cursor : Option LogCursor}
    (requested : requestedCursor backend tail.filter = .ok (direction, cursor))
    (opened : state.tail = some tail) (walk : state.walk = some ⟨[], page⟩) :
    Reaches config backend state (state.settle config tail
      (.ok (pageOf backend tail.filter direction (pageLimit tail.filter) page))) := by
  apply Relation.ReflTransGen.single
  refine ⟨.answer, ?_⟩
  simp only [step, answer, opened, walk, requested]
  rfl

/-- The steps of a check that has these weeks left. -/
theorem reaches_scan {tail : TailState} {dir : ServiceDir} {direction : Direction}
    {cursor : Option LogCursor}
    (requested : requestedCursor backend tail.filter = .ok (direction, cursor))
    (dbs : List WeekDb) (present : ∀ db ∈ dbs, db ∈ dir.weeks) :
    ∀ {state : LogTailWeeks} {page : List StoredLog}, state.tail = some tail →
      state.buffer.logs.serviceDir? config.service = some dir →
      state.walk = some ⟨dbs.map WeekDb.name, page⟩ →
        Reaches config backend state (state.settle config tail (do
          let scanned ← scanWeeks backend config.service tail.filter
            (tail.filter.query.bind sanitizeFtsQuery) cursor direction (pageLimit tail.filter + 1)
            dbs page
          return pageOf backend tail.filter direction (pageLimit tail.filter) scanned)) := by
  induction dbs with
  | nil =>
      intro state page opened found walk
      exact reaches_answer requested opened walk
  | cons db rest ih =>
      intro state page opened found walk
      obtain ⟨here, later⟩ := List.forall_mem_cons.mp present
      have held := KeyedTable.find?_name dir.distinct here
      rw [scanWeeks_cons]
      cases scanned : scanWeeks backend config.service tail.filter
        (tail.filter.query.bind sanitizeFtsQuery) cursor direction (pageLimit tail.filter + 1)
          [db] page with
      | error fault =>
          apply Relation.ReflTransGen.single
          refine ⟨.readWeek, ?_⟩
          simp only [step, readWeek, opened, walk, List.map_cons, found, held, requested, ok_bind,
            scanned, Option.bind_eq_bind, Option.bind_some]
          rfl
      | ok more =>
          have read : state.step config backend .readWeek = some { state with
              walk := some ⟨if pageLimit tail.filter + 1 ≤ more.length then []
                else rest.map WeekDb.name, more⟩ } := by
            simp only [step, readWeek, opened, walk, List.map_cons, found, held, requested, ok_bind,
              scanned, Option.bind_eq_bind, Option.bind_some]
          apply Relation.ReflTransGen.head ⟨.readWeek, read⟩
          by_cases full : pageLimit tail.filter + 1 ≤ more.length
          · rw [ok_bind, scanWeeks_full full, if_pos full]
            exact @reaches_answer config backend _ tail more direction cursor requested opened rfl
          · rw [ok_bind, if_neg full]
            exact @ih later _ more opened found rfl

/-- A check that nothing interrupts receives the answer of a query. -/
theorem reaches_query {state : LogTail} {tail : TailState} (opened : state.tail = some tail)
    (querying : tail.phase = .querying) : Reaches config backend (resting state) (resting
      { state with
        tail := some (LogTail.receive (state.buffer.logs.entries config.service) tail
          (state.buffer.logs.query backend config.service tail.filter)) }) := by
  rw [query_eq]
  cases requested : requestedCursor backend tail.filter with
  | error fault =>
      apply Relation.ReflTransGen.single
      refine ⟨.openDir, ?_⟩
      simp only [step, openDir, resting, opened, querying, requested]
      rfl
  | ok bound =>
      rw [ok_bind]
      cases found : state.buffer.logs.serviceDir? config.service with
      | none =>
          apply Relation.ReflTransGen.single
          refine ⟨.openDir, ?_⟩
          simp only [step, openDir, resting, opened, querying, requested, found]
          rfl
      | some dir =>
          have began : (resting state).step config backend .openDir =
              some { resting state with listing := some (dir.weeks.map WeekDb.name) } := by
            simp only [step, openDir, resting, opened, querying, requested, found]
            rfl
          have whole : dir.listed (dir.weeks.map WeekDb.name ++ []) = dir := by
            apply ServiceDir.listed_of_forall
            intro db member
            exact List.mem_append_left _ (List.mem_map_of_mem member)
          have listed : ({ resting state with listing := some (dir.weeks.map WeekDb.name) } :
              LogTailWeeks).step config backend (.list []) = some { resting state with
                walk := some ⟨(orderedCandidates (readWeekFiles dir) tail.filter bound.2
                  bound.1).map WeekDb.name, []⟩ } := by
            simp only [step, list, resting, opened, found, requested, whole, Except.toOption,
              Option.bind_eq_bind, Option.bind_some]
          apply Relation.ReflTransGen.head ⟨.openDir, began⟩
          apply Relation.ReflTransGen.head ⟨.list [], listed⟩
          exact @reaches_scan config backend tail dir bound.1 bound.2 requested _
            (fun db candidate => (mem_orderedCandidates.mp candidate).1) _ [] opened found rfl

/-! ## Appends -/

/-- A committed week is not pending any more; the others are. -/
theorem mem_pending_landed {before after : LogTailWeeks} {lines : List Accepted} {week : String}
    (landed : after.landed = before.landed ++ lines.filter fun entry =>
      weekDatabaseName entry.line.ts = some week) {batch : WeekBatch} :
    batch ∈ after.pending lines ↔ batch ∈ before.pending lines ∧ batch.week ≠ week := by
  rw [pending, pending, mem_byWeek, mem_byWeek, List.filter_map, List.filter_map,
    List.filter_filter, List.filter_filter]
  by_cases same : batch.week = week
  · have nothing : lines.filter (fun entry =>
        ((fun line : LogLine => decide (weekDatabaseName line.ts = some batch.week)) ∘
          Accepted.line) entry && decide (entry ∉ after.landed)) = [] := by
      apply List.filter_eq_nil_iff.mpr
      intro entry member both
      simp only [Function.comp_apply, Bool.and_eq_true, decide_eq_true_eq] at both
      apply both.2
      rw [landed]
      apply List.mem_append_right
      exact List.mem_filter.mpr ⟨member, decide_eq_true (same ▸ both.1)⟩
    rw [nothing]
    exact iff_of_false batch.nonempty fun both => both.2 same
  · have unchanged : lines.filter (fun entry =>
        ((fun line : LogLine => decide (weekDatabaseName line.ts = some batch.week)) ∘
          Accepted.line) entry && decide (entry ∉ after.landed)) =
        lines.filter (fun entry =>
          ((fun line : LogLine => decide (weekDatabaseName line.ts = some batch.week)) ∘
            Accepted.line) entry && decide (entry ∉ before.landed)) := by
      apply List.filter_congr
      intro entry member
      by_cases named : weekDatabaseName entry.line.ts = some batch.week
      · simp [landed, named, same]
      · simp [named]
    rw [unchanged]
    exact (and_iff_left same).symm

/-- An append once its directory is there. -/
def written (service : String) (fate : String → WeekFate) (logs : SqliteLogStore) :
    List WeekBatch → SqliteLogStore × AppResult Unit
  | [] => (logs, .ok ())
  | batches =>
      let (dir, result) := appendWeeks fate batches ((logs.serviceDir? service).getD .empty)
      (logs.setServiceDir service dir, result)

theorem written_cons {service : String} {fate : String → WeekFate} {logs : SqliteLogStore}
    {batch : WeekBatch} {dir : ServiceDir}
    (stored : Logs.appendWeek ((logs.serviceDir? service).getD .empty) batch (fate batch.week) =
      (dir, .ok ())) (rest : List WeekBatch) :
    written service fate logs (batch :: rest) =
      written service fate (logs.setServiceDir service dir) rest := by
  cases rest with
  | nil => simp only [written, appendWeeks, stored]
  | cons next later =>
      have found : (logs.setServiceDir service dir).serviceDir? service = some dir := by
        rw [serviceDir?_setServiceDir, if_pos rfl]
      simp only [written, appendWeeks, stored, found, Option.getD_some, setServiceDir_setServiceDir]

/-- What an append leaves, with its week files in the state. -/
def appended (state : LogTailWeeks) (flusher : Flusher) (lines : List Accepted)
    (marks : List (ContainerId × Mark)) : SqliteLogStore × AppResult Unit → LogTailWeeks
  | (logs, .ok ()) =>
      { state with
        buffer := { state.buffer with logs }.setPhase flusher (some (.interning marks))
        landed := [] }
  | (logs, .error _) =>
      let restored := { state.buffer with logs, lines := lines ++ state.buffer.lines }
      { state with
        buffer := restored.requestServiceFlush.setPhase flusher none
        landed := [] }

theorem filter_not_mem_eq_nil {landed lines : List Accepted} (inside : landed ⊆ lines) :
    (landed.filter fun entry => entry ∉ lines) = [] := by
  apply List.filter_eq_nil_iff.mpr
  intro entry member
  simp [inside member]

/-- The steps of an append that has these weeks left. -/
theorem reaches_written {flusher : Flusher} {lines : List Accepted}
    {marks : List (ContainerId × Mark)} (fate : String → WeekFate) (batches : List WeekBatch)
    (distinct : (batches.map WeekBatch.week).Nodup) :
    ∀ {state : LogTailWeeks}, state.buffer.phase flusher = some (.appending lines marks) →
      (∀ batch, batch ∈ state.pending lines ↔ batch ∈ batches) → state.landed ⊆ lines →
        Reaches config backend state (state.appended flusher lines marks
          (written config.service fate state.buffer.logs batches)) := by
  induction batches with
  | nil =>
      intro state phase pending inside
      have done : state.pending lines = [] :=
        List.eq_nil_iff_forall_not_mem.mpr fun batch member => nomatch (pending batch).mp member
      apply Relation.ReflTransGen.single
      refine ⟨.appendSucceeds flusher, ?_⟩
      simp only [step, appendSucceeds, phase, done, List.isEmpty_nil, if_true,
        filter_not_mem_eq_nil inside]
      rfl
  | cons batch rest ih =>
      intro state phase pending inside
      obtain ⟨fresh, distinctRest⟩ := List.nodup_cons.mp distinct
      have held : (state.pending lines).find? (fun other => other.week = batch.week) = some batch :=
        KeyedTable.find?_name (byWeek_distinct _) ((pending batch).mpr List.mem_cons_self)
      cases stored : Logs.appendWeek ((state.buffer.logs.serviceDir? config.service).getD .empty)
        batch (fate batch.week) with
      | mk dir result =>
          cases result with
          | error fault =>
              have stops : written config.service fate state.buffer.logs (batch :: rest) =
                  (state.buffer.logs.setServiceDir config.service dir, .error fault) := by
                simp only [written, appendWeeks, stored]
              rw [stops]
              apply Relation.ReflTransGen.single
              refine ⟨.appendWeek flusher batch.week (fate batch.week), ?_⟩
              simp only [step, appendWeek, phase, held, Option.map_some, stored, restore,
                filter_not_mem_eq_nil inside]
              rfl
          | ok done =>
              rw [written_cons stored]
              have commits : state.step config backend
                  (.appendWeek flusher batch.week (fate batch.week)) = some { state with
                    buffer := { state.buffer with
                      logs := state.buffer.logs.setServiceDir config.service dir }
                    landed := state.landed ++ lines.filter fun entry =>
                      weekDatabaseName entry.line.ts = some batch.week } := by
                simp only [step, appendWeek, phase, held, Option.map_some, stored]
              apply Relation.ReflTransGen.head ⟨_, commits⟩
              refine ih distinctRest phase ?_ ?_
              · intro other
                rw [mem_pending_landed rfl, pending, List.mem_cons]
                constructor
                · intro both
                  rcases both with ⟨same | later, different⟩
                  · exact absurd (congrArg WeekBatch.week same) different
                  · exact later
                · intro later
                  refine ⟨.inr later, fun same => fresh ?_⟩
                  rw [← same]
                  exact List.mem_map_of_mem later
              · exact List.append_subset.mpr ⟨inside, List.filter_subset_self _⟩

/-- An append whose weeks nothing comes between leaves what `append` leaves. -/
theorem reaches_append {state : LogTail} {buffer : LogBuffer} {flusher : Flusher}
    {fates : AppendFates}
    (stepped : state.buffer.step config (.appendReturns flusher fates) = some buffer) :
    Reaches config backend (resting state) (resting { state with buffer }) := by
  obtain ⟨lines, marks, phase, same⟩ : ∃ lines marks,
      state.buffer.phase flusher = some (.appending lines marks) ∧
        resting { state with buffer } = (resting state).appended flusher lines marks
          (state.buffer.logs.append fates config.service (lines.map Accepted.line)) := by
    cases LogBuffer.step_cases stepped with
    | stored present stored => exact ⟨_, _, present, by rw [stored]; rfl⟩
    | restored present stored => exact ⟨_, _, present, by rw [stored]; rfl⟩
  have pending : (resting state).pending lines = byWeek (lines.map Accepted.line) := by
    simp [LogTailWeeks.pending, resting]
  have ordered := fates.order.perm (byWeek (lines.map Accepted.line))
  rw [same, SqliteLogStore.append]
  have reaches := @reaches_written config backend flusher lines marks fates.week
    (fates.order.arrange (byWeek (lines.map Accepted.line)))
    ((ordered.map WeekBatch.week).nodup_iff.mpr (byWeek_distinct _)) (resting state) phase
    (fun batch => by rw [pending, ordered.mem_iff]) (List.nil_subset _)
  cases arranged : fates.order.arrange (byWeek (lines.map Accepted.line)) with
  | nil =>
      rw [arranged] at reaches
      exact reaches
  | cons batch rest =>
      rw [arranged] at reaches
      cases directory : fates.directory with
      | none => exact reaches
      | some detail =>
          apply Relation.ReflTransGen.single
          refine ⟨.directoryFails flusher, ?_⟩
          have present : byWeek (lines.map Accepted.line) ≠ [] := by
            intro nothing
            rw [nothing, List.perm_nil.mp (fates.order.perm [])] at arranged
            cases arranged
          have filled : (byWeek (lines.map Accepted.line)).isEmpty = false :=
            List.isEmpty_eq_false_iff.mpr present
          simp only [step, directoryFails, show (resting state).buffer.phase flusher = _ from phase,
            pending, filled]
          simp [resting, restore, appended]

/-- Every step of whole appends and checks is a run of steps of single weeks. -/
theorem reaches_step {before after : LogTail} {action : LogTailAction}
    (stepped : before.step config backend action = some after) :
    Reaches config backend (resting before) (resting after) := by
  cases LogTail.step_cases stepped with
  | @buffered action buffer moved =>
      have single : (resting before).step config backend (.buffer action) =
          some (resting { before with buffer }) →
          Reaches config backend (resting before) (resting { before with buffer }) :=
        fun taken => .single ⟨_, taken⟩
      cases action with
      | appendReturns flusher fates => exact reaches_append moved
      | _ =>
          apply single
          simp only [step, resting, moved, Option.map_some]
  | @connected query free =>
      apply Relation.ReflTransGen.single
      exact ⟨.connect query, congrArg (Option.map resting) stepped⟩
  | woken present woken =>
      apply Relation.ReflTransGen.single
      exact ⟨.wake, congrArg (Option.map resting) stepped⟩
  | queried present querying => exact reaches_query present querying

theorem reachable_of_reaches {logs : SqliteLogStore}
    {metadata : ContainerId → Option LogCheckpoint} {before after : LogTailWeeks}
    (reached : (logTailWeeksMachine config backend logs metadata).Reachable Machine.anyStep before)
    (reaches : Reaches config backend before after) :
    (logTailWeeksMachine config backend logs metadata).Reachable Machine.anyStep after := by
  induction reaches with
  | refl => exact reached
  | tail _ last ih =>
      obtain ⟨action, taken⟩ := last
      exact ih.step action trivial taken

/-- The log tail of whole appends and checks is the one of single weeks in the runs in which
nothing comes between the weeks. -/
theorem reachable_resting {logs : SqliteLogStore} {metadata : ContainerId → Option LogCheckpoint}
    {state : LogTail} (reached : (logTailMachine config backend logs metadata).Reachable
      Machine.anyStep state) :
    (logTailWeeksMachine config backend logs metadata).Reachable Machine.anyStep
      (resting state) := by
  induction reached with
  | start => exact .start
  | step _ action _ taken ih => exact reachable_of_reaches ih (reaches_step taken)

end LogTailWeeks

end Vpsiner.Api
