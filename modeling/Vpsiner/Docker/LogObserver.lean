import Vpsiner.Docker.ObservedContainersProperties

/-! Every observed container has one log task, whatever becomes of the events. -/

set_option autoImplicit false

namespace Vpsiner.Docker

open Lib

namespace Observation

variable {state next after : Observation}

/-- The containers the observer has still to look at. -/
def inHand (state : Observation) : List ObservedContainer :=
  match state.observer with
  | .retaining running _ => running
  | .spawning running => running
  | _ => []

def unchecked (state : Observation) : List TaskEntry :=
  match state.observer with
  | .retaining _ unchecked => unchecked
  | _ => []

/-- `placed` and `alive` tie the map to the tasks; `found` and `covered` say how far the last look
at the observed containers has come. -/
structure TasksInv (state : Observation) : Prop where
  placed : ∀ entry ∈ state.tasks.rows, ∃ task, state.spawned[entry.handle]? = some task ∧
    task.container.id = entry.id
  alive : ∀ {handle task}, state.spawned[handle]? = some task → task.finished = false →
    ⟨task.container.id, handle⟩ ∈ state.tasks.rows
  announced : ∀ container ∈ state.inHand, .appeared container ∈ state.log
  started : ∀ task ∈ state.spawned, .appeared task.container ∈ state.log
  retaining : ∀ {running unchecked}, state.observer = .retaining running unchecked →
    running = state.lastRunning
  found : ∀ entry ∈ state.tasks.rows, entry ∈ state.unchecked ∨ entry.handle ∈ state.lastAlive
  covered : ∀ container ∈ state.lastRunning, container ∈ state.inHand ∨
    (state.tasks.find? container.id).isSome = true

theorem log_prefix (taken : Step state after) : state.log <+: after.log := by
  cases taken with
  | listRunning order listing phase => simp [log, pending, phase]
  | sendEvent phase => simp [log_trySend phase]
  | beginUpdate idle => simp [log, pending, idle]
  | toIdle silent => rcases silent with phase | phase | phase <;> simp [log, pending, phase]
  | _ => exact List.prefix_refl _

theorem announced_of_observed (inv : EventsTell state) {container : ObservedContainer}
    (observed : container ∈ state.observed.rows) : .appeared container ∈ state.log := by
  have present : Change.replay ObservedContainer.fullId state.log container.fullId =
      some container := by
    rw [inv.told]
    exact KeyedTable.mem_rows_iff_find?.mp observed
  exact Change.appeared_mem_of_replay present

theorem finished_eq_false {handle : Nat} : state.finished handle = false ↔
    ∃ task, state.spawned[handle]? = some task ∧ task.finished = false := by
  unfold finished
  cases state.spawned[handle]? <;> simp

/-- Phases in which the observer has nothing left to look at. -/
def Resting (phase : ObserverPhase) : Prop :=
  phase = .waiting ∨ phase = .woken ∨ phase = .spawning []

theorem resting_parts (resting : Resting state.observer) :
    state.inHand = [] ∧ state.unchecked = [] ∧
      ∀ running unchecked, state.observer ≠ .retaining running unchecked := by
  unfold inHand unchecked
  rcases resting with phase | phase | phase <;> simp [phase]

theorem TasksInv.of_same {before after : Observation} (inv : TasksInv before)
    (grown : before.log <+: after.log) (spawned : after.spawned = before.spawned)
    (tasks : after.tasks = before.tasks) (running : after.lastRunning = before.lastRunning)
    (alive : after.lastAlive = before.lastAlive)
    (observer : after.observer = before.observer ∨
      Resting before.observer ∧ Resting after.observer) : TasksInv after := by
  have parts : after.inHand = before.inHand ∧ after.unchecked = before.unchecked ∧
      ∀ running unchecked, after.observer = .retaining running unchecked →
        before.observer = .retaining running unchecked := by
    rcases observer with same | ⟨before, after⟩
    · simp [inHand, unchecked, same]
    · obtain ⟨noneBefore, uncheckedBefore, _⟩ := resting_parts before
      obtain ⟨noneAfter, uncheckedAfter, never⟩ := resting_parts after
      refine ⟨noneAfter.trans noneBefore.symm, uncheckedAfter.trans uncheckedBefore.symm, ?_⟩
      exact fun running unchecked phase => absurd phase (never running unchecked)
  obtain ⟨inHand, unchecked, retaining⟩ := parts
  constructor
  · rw [tasks, spawned]
    exact inv.placed
  · rw [tasks, spawned]
    exact inv.alive
  · rw [inHand]
    exact fun container member => grown.subset (inv.announced container member)
  · rw [spawned]
    exact fun task member => grown.subset (inv.started task member)
  · intro _ _ phase
    rw [running]
    exact inv.retaining (retaining _ _ phase)
  · rw [tasks, unchecked, alive]
    exact inv.found
  · rw [running, inHand, tasks]
    exact inv.covered

theorem TasksInv.readObserved (inv : TasksInv state) (events : EventsTell state)
    (order : HashOrder) :
    TasksInv { state with
      observer := .retaining (order.arrange state.observed.rows) (order.arrange state.tasks.rows)
      lastRunning := order.arrange state.observed.rows
      lastAlive := [] } where
  placed := inv.placed
  alive := inv.alive
  announced container member := announced_of_observed events (order.mem_arrange.mp member)
  started := inv.started
  retaining phase := by
    cases phase
    rfl
  found entry member := .inl (order.mem_arrange.mpr member)
  covered container member := .inl member

theorem TasksInv.dropTask (inv : TasksInv state) {running : List ObservedContainer}
    {entry : TaskEntry} {rest : List TaskEntry}
    (phase : state.observer = .retaining running (entry :: rest))
    (finished : state.finished entry.handle = true) :
    TasksInv { state with
      tasks := state.tasks.eraseWhere (· = entry)
      observer := .retaining running rest } := by
  have kept : ∀ other, other ∈ (state.tasks.eraseWhere (· = entry)).rows ↔
      other ∈ state.tasks.rows ∧ other ≠ entry := by
    simp [KeyedTable.eraseWhere]
  have inHand : state.inHand = running := by simp [Observation.inHand, phase]
  constructor
  · exact fun other member => inv.placed other ((kept other).mp member).1
  · intro handle task found unfinished
    refine (kept _).mpr ⟨inv.alive found unfinished, ?_⟩
    rintro rfl
    have running : state.finished handle = false := finished_eq_false.mpr ⟨task, found, unfinished⟩
    simp [running] at finished
  · exact fun container member => inv.announced container (inHand ▸ member)
  · exact inv.started
  · intro other _ same
    cases same
    exact inv.retaining phase
  · intro other member
    obtain ⟨present, different⟩ := (kept other).mp member
    rcases inv.found other present with left | alive
    · simp only [Observation.unchecked, phase, List.mem_cons] at left
      exact .inl (left.resolve_left different)
    · exact .inr alive
  · intro container member
    have whole := inv.retaining phase
    exact .inl (whole ▸ member)

theorem TasksInv.keepTask (inv : TasksInv state) {running : List ObservedContainer}
    {entry : TaskEntry} {rest : List TaskEntry}
    (phase : state.observer = .retaining running (entry :: rest)) :
    TasksInv { state with
      lastAlive := state.lastAlive ++ [entry.handle]
      observer := .retaining running rest } := by
  have inHand : state.inHand = running := by simp [Observation.inHand, phase]
  constructor
  · exact inv.placed
  · exact inv.alive
  · exact fun container member => inv.announced container (inHand ▸ member)
  · exact inv.started
  · intro other _ same
    cases same
    exact inv.retaining phase
  · intro other member
    rcases inv.found other member with left | alive
    · simp only [Observation.unchecked, phase, List.mem_cons] at left
      rcases left with rfl | later
      · simp
      · exact .inl later
    · exact .inr (List.mem_append_left _ alive)
  · intro container member
    have whole := inv.retaining phase
    exact .inl (whole ▸ member)

theorem TasksInv.retained (inv : TasksInv state) {running : List ObservedContainer}
    (phase : state.observer = .retaining running []) :
    TasksInv { state with observer := .spawning running } := by
  have inHand : state.inHand = running := by simp [Observation.inHand, phase]
  have unchecked : state.unchecked = [] := by simp [Observation.unchecked, phase]
  constructor
  · exact inv.placed
  · exact inv.alive
  · exact fun container member => inv.announced container (inHand ▸ member)
  · exact inv.started
  · intro _ _ same
    cases same
  · intro other member
    rcases inv.found other member with left | alive
    · simp [unchecked] at left
    · exact .inr alive
  · intro container member
    have whole := inv.retaining phase
    exact .inl (whole ▸ member)

theorem TasksInv.skipSpawn (inv : TasksInv state) {container : ObservedContainer}
    {rest : List ObservedContainer} (phase : state.observer = .spawning (container :: rest))
    (present : (state.tasks.find? container.id).isSome = true) :
    TasksInv { state with observer := .spawning rest } := by
  have inHand : state.inHand = container :: rest := by simp [Observation.inHand, phase]
  have unchecked : state.unchecked = [] := by simp [Observation.unchecked, phase]
  constructor
  · exact inv.placed
  · exact inv.alive
  · exact fun other member => inv.announced other (inHand ▸ List.mem_cons_of_mem _ member)
  · exact inv.started
  · intro _ _ same
    cases same
  · intro other member
    rcases inv.found other member with left | alive
    · simp [unchecked] at left
    · exact .inr alive
  · intro other member
    rcases inv.covered other member with left | done
    · rw [inHand] at left
      rcases List.mem_cons.mp left with rfl | later
      · exact .inr present
      · exact .inl later
    · exact .inr done

/-- The new task takes a place that nothing holds, so no task loses its own. -/
theorem TasksInv.spawnTask (inv : TasksInv state) {container : ObservedContainer}
    {rest : List ObservedContainer} (phase : state.observer = .spawning (container :: rest))
    (absent : state.tasks.find? container.id = none) :
    TasksInv { state.spawn container with observer := .spawning rest } := by
  have inHand : state.inHand = container :: rest := by simp [Observation.inHand, phase]
  have unchecked : state.unchecked = [] := by simp [Observation.unchecked, phase]
  have unnamed := KeyedTable.find?_eq_none_iff.mp absent
  constructor
  · intro entry member
    rcases KeyedTable.mem_rows_upsert.mp member with rfl | ⟨older, _⟩
    · exact ⟨{ container }, by simp [spawn], rfl⟩
    · obtain ⟨task, found, named⟩ := inv.placed entry older
      refine ⟨task, ?_, named⟩
      obtain ⟨inside, _⟩ := List.getElem?_eq_some_iff.mp found
      simpa [spawn, List.getElem?_append_left inside] using found
  · intro handle task found unfinished
    simp only [spawn, List.getElem?_append] at found
    split at found
    · have older := inv.alive found unfinished
      exact KeyedTable.mem_rows_upsert.mpr (.inr ⟨older, unnamed _ older⟩)
    · next outside =>
        obtain ⟨first, rfl⟩ := List.getElem?_eq_some_iff.mp found
        have last : handle = state.spawned.length := by simp at first; omega
        subst last
        exact KeyedTable.mem_rows_upsert.mpr (.inl (by simp))
  · exact fun other member => inv.announced other (inHand ▸ List.mem_cons_of_mem _ member)
  · intro task member
    rcases List.mem_append.mp member with older | new
    · exact inv.started task older
    · rw [List.mem_singleton.mp new]
      exact inv.announced container (inHand ▸ List.mem_cons_self)
  · intro _ _ same
    cases same
  · intro entry member
    rcases KeyedTable.mem_rows_upsert.mp member with rfl | ⟨older, _⟩
    · simp [spawn]
    · rcases inv.found entry older with left | alive
      · simp [unchecked] at left
      · exact .inr (List.mem_append_left _ alive)
  · intro other member
    have placed : ((state.spawn container).tasks.find? other.id).isSome = true ↔
        container.id = other.id ∨ (state.tasks.find? other.id).isSome = true := by
      simp only [spawn, KeyedTable.find?_upsert]
      split <;> simp_all
    rcases inv.covered other member with left | done
    · rw [inHand] at left
      rcases List.mem_cons.mp left with rfl | later
      · exact .inr (placed.mpr (.inl rfl))
      · exact .inl later
    · exact .inr (placed.mpr (.inr done))

theorem TasksInv.finishTask (inv : TasksInv state) {handle : Nat} {task : LogTask}
    (found : state.spawned[handle]? = some task) :
    TasksInv { state with spawned := state.spawned.set handle { task with finished := true } } := by
  obtain ⟨inside, _⟩ := List.getElem?_eq_some_iff.mp found
  constructor
  · intro entry member
    obtain ⟨older, was, named⟩ := inv.placed entry member
    by_cases same : handle = entry.handle
    · subst same
      rw [found] at was
      cases was
      exact ⟨{ task with finished := true }, by simp [inside], named⟩
    · exact ⟨older, by simpa [same] using was, named⟩
  · intro other older was unfinished
    by_cases same : handle = other
    · subst same
      simp only [List.getElem?_set_self inside, Option.some.injEq] at was
      subst was
      cases unfinished
    · exact inv.alive (by simpa [same] using was) unfinished
  · exact inv.announced
  · intro older member
    rcases List.mem_or_eq_of_mem_set member with before | rfl
    · exact inv.started older before
    · exact inv.started task (List.mem_of_getElem? found)
  · exact inv.retaining
  · exact inv.found
  · exact inv.covered

theorem TasksInv.step (inv : TasksInv state) (events : EventsTell state)
    (taken : Step state after) : TasksInv after := by
  have grown := log_prefix taken
  cases taken with
  | readObserved order phase => exact inv.readObserved events order
  | dropTask phase finished => exact inv.dropTask phase finished
  | keepTask phase _ => exact inv.keepTask phase
  | retained phase => exact inv.retained phase
  | skipSpawn phase present => exact inv.skipSpawn phase present
  | spawnTask phase absent => exact inv.spawnTask phase absent
  | finishTask found => exact inv.finishTask found
  | sendEvent phase =>
      refine inv.of_same grown ?_ ?_ ?_ ?_ (.inl ?_) <;> unfold trySend <;> split <;> rfl
  | receiveEvent observer phase queued next =>
      refine inv.of_same grown rfl rfl rfl rfl (.inr ⟨.inl phase, ?_⟩)
      rcases next with rfl | rfl
      · exact .inl rfl
      · exact .inr (.inl rfl)
  | timeout phase =>
      exact inv.of_same grown rfl rfl rfl rfl (.inr ⟨.inl phase, .inr (.inl rfl)⟩)
  | skipCycle phase =>
      exact inv.of_same grown rfl rfl rfl rfl (.inr ⟨.inr (.inl phase), .inl rfl⟩)
  | spawnedAll phase =>
      exact inv.of_same grown rfl rfl rfl rfl (.inr ⟨.inr (.inr phase), .inl rfl⟩)
  | _ => exact inv.of_same grown rfl rfl rfl rfl (.inl rfl)

theorem tasksInv_reachable {capacity : Nat} {streaming : Bool}
    (reached : (containerObservation capacity streaming).Reachable Machine.anyStep state) :
    EventsTell state ∧ TasksInv state := by
  apply reached.invariant fun state => EventsTell state ∧ TasksInv state
  · refine ⟨⟨.nil, rfl, rfl, Nat.zero_le _⟩, ?_⟩
    constructor <;> simp [containerObservation, inHand, KeyedTable.empty]
  · rintro _ _ _ ⟨events, tasks⟩ _ taken
    exact ⟨events.step (step_cases taken), tasks.step events (step_cases taken)⟩

/-- `single` is about the tasks that still run. After a look at the observed containers each of
them has a task that ran when the observer came to it, or that it has spawned. -/
structure OneTaskEach (state : Observation) : Prop where
  single : ∀ {first second : Nat} {one two : LogTask}, state.spawned[first]? = some one →
    state.spawned[second]? = some two → one.finished = false → two.finished = false →
    one.container.id = two.container.id → first = second
  announced : ∀ task ∈ state.spawned, .appeared task.container ∈ state.log
  covered : Resting state.observer → ∀ container ∈ state.lastRunning,
    ∃ handle ∈ state.lastAlive, ∃ task, state.spawned[handle]? = some task ∧
      task.container.id = container.id

theorem TasksInv.covered_resting (inv : TasksInv state) (resting : Resting state.observer)
    {container : ObservedContainer} (running : container ∈ state.lastRunning) :
    ∃ handle ∈ state.lastAlive, ∃ task, state.spawned[handle]? = some task ∧
      task.container.id = container.id := by
  obtain ⟨noneInHand, noneUnchecked, _⟩ := resting_parts resting
  rcases inv.covered container running with left | done
  · simp [noneInHand] at left
  · obtain ⟨entry, present⟩ := Option.isSome_iff_exists.mp done
    obtain ⟨member, named⟩ := KeyedTable.find?_eq_some_iff.mp present
    obtain ⟨task, found, same⟩ := inv.placed entry member
    refine ⟨entry.handle, ?_, task, found, same.trans named⟩
    rcases inv.found entry member with left | alive
    · simp [noneUnchecked] at left
    · exact alive

/-- At no time do two tasks read the logs of one container. -/
theorem one_task_each {capacity : Nat} {streaming : Bool}
    (reached : (containerObservation capacity streaming).Reachable Machine.anyStep state) :
    OneTaskEach state := by
  obtain ⟨_, inv⟩ := tasksInv_reachable reached
  refine ⟨?_, inv.started, fun resting _ running => inv.covered_resting resting running⟩
  intro first second one two foundOne foundTwo aliveOne aliveTwo same
  have left := inv.alive foundOne aliveOne
  have right := inv.alive foundTwo aliveTwo
  exact congrArg TaskEntry.handle (state.tasks.key_injective left right same)

/-- A container stops and starts again while its task still runs; only when that has finished does
it get another. -/
theorem one_task_each_restarted : ∃ state : Observation,
    state.spawned.map LogTask.finished = [true, false] ∧ OneTaskEach state := by
  let listing : List ObservedContainer := [⟨⟨1⟩, "1", "web", "web"⟩]
  have ran : ((containerObservation 4 true).run (fun _ _ => true)
      (containerObservation 4 true).start
      [.beginUpdate, .listRunning .unchanged (some listing), .sendEvent, .sendEvent,
        .receiveEvent, .readObserved .unchanged, .retainTask, .spawnTask, .spawnTask,
        .beginUpdate, .listRunning .unchanged (some []), .sendEvent, .sendEvent,
        .beginUpdate, .listRunning .unchanged (some listing), .sendEvent, .sendEvent,
        .receiveEvent, .receiveEvent, .readObserved .unchanged, .retainTask, .retainTask,
        .spawnTask, .spawnTask, .finishTask 0, .timeout, .readObserved .unchanged, .retainTask,
        .retainTask, .spawnTask]).map
      (fun state => state.spawned.map LogTask.finished) = some [true, false] := by decide
  obtain ⟨state, taken, read⟩ := Option.map_eq_some_iff.mp ran
  exact ⟨state, read, one_task_each (.of_run _ taken)⟩

/-! ## A cycle of the observer -/

/-- What the log observer does by itself. -/
def ByObserver (_ : Observation) : ObservationAction → Prop
  | .timeout => True
  | .readObserved _ => True
  | .retainTask => True
  | .spawnTask => True
  | _ => False

/-- The observer goes from one state to another with nothing in between. -/
structure Goes (state after : Observation) : Prop where
  reached : ((containerObservation state.capacity state.streaming).startingAt state).Reachable
    ByObserver after
  connected : after.connected = state.connected
  observed : after.observed = state.observed
  lastRunning : after.lastRunning = state.lastRunning
  stillAlive : (∀ handle ∈ state.lastAlive, state.finished handle = false) →
    ∀ handle ∈ after.lastAlive, after.finished handle = false

theorem Goes.refl (state : Observation) : Goes state state :=
  ⟨.start, rfl, rfl, rfl, fun alive => alive⟩

theorem Goes.trans (early : Goes state next) (late : Goes next after) : Goes state after where
  reached := early.reached.trans late.reached
  connected := late.connected.trans early.connected
  observed := late.observed.trans early.observed
  lastRunning := late.lastRunning.trans early.lastRunning
  stillAlive alive := late.stillAlive (early.stillAlive alive)

theorem Goes.of_step (action : ObservationAction) (own : ByObserver state action)
    (taken : state.step action = some next) (connected : next.connected = state.connected)
    (observed : next.observed = state.observed) (lastRunning : next.lastRunning = state.lastRunning)
    (stillAlive : (∀ handle ∈ state.lastAlive, state.finished handle = false) →
      ∀ handle ∈ next.lastAlive, next.finished handle = false) : Goes state next :=
  ⟨Machine.Reachable.start.step action own taken, connected, observed, lastRunning, stillAlive⟩

theorem goes_spawning {running : List ObservedContainer}
    (phase : state.observer = .spawning running) :
    ∃ after, Goes state after ∧ after.observer = .waiting := by
  induction running generalizing state with
  | nil =>
      refine ⟨{ state with observer := .waiting }, ?_, rfl⟩
      refine .of_step .spawnTask trivial ?_ rfl rfl rfl fun alive => alive
      simp [step, phase]
  | cons container rest ih =>
      by_cases present : (state.tasks.find? container.id).isSome
      · have goes : Goes state { state with observer := .spawning rest } := by
          refine .of_step .spawnTask trivial ?_ rfl rfl rfl fun alive => alive
          simp [step, phase, present]
        obtain ⟨after, later, done⟩ := @ih { state with observer := .spawning rest } rfl
        exact ⟨after, goes.trans later, done⟩
      · have goes : Goes state { state.spawn container with observer := .spawning rest } := by
          refine .of_step .spawnTask trivial ?_ rfl rfl rfl ?_
          · simp [step, phase, present]
          · intro alive handle member
            rcases List.mem_append.mp member with older | new
            · obtain ⟨task, found, unfinished⟩ := finished_eq_false.mp (alive handle older)
              obtain ⟨inside, _⟩ := List.getElem?_eq_some_iff.mp found
              refine finished_eq_false.mpr ⟨task, ?_, unfinished⟩
              simpa [spawn, List.getElem?_append_left inside] using found
            · rw [List.mem_singleton.mp new]
              exact finished_eq_false.mpr ⟨{ container }, by simp [spawn], rfl⟩
        obtain ⟨after, later, done⟩ :=
          @ih { state.spawn container with observer := .spawning rest } rfl
        exact ⟨after, goes.trans later, done⟩

theorem goes_retaining {running : List ObservedContainer} {unchecked : List TaskEntry}
    (phase : state.observer = .retaining running unchecked) :
    ∃ after, Goes state after ∧ after.observer = .waiting := by
  induction unchecked generalizing state with
  | nil =>
      have goes : Goes state { state with observer := .spawning running } := by
        refine .of_step .retainTask trivial ?_ rfl rfl rfl fun alive => alive
        simp [step, phase]
      obtain ⟨after, later, done⟩ :=
        @goes_spawning { state with observer := .spawning running } _ rfl
      exact ⟨after, goes.trans later, done⟩
  | cons entry rest ih =>
      by_cases ended : state.finished entry.handle
      · have goes : Goes state { state with
            tasks := state.tasks.eraseWhere (· = entry)
            observer := .retaining running rest } := by
          refine .of_step .retainTask trivial ?_ rfl rfl rfl fun alive => alive
          simp [step, phase, ended]
        obtain ⟨after, later, done⟩ := @ih { state with
          tasks := state.tasks.eraseWhere (· = entry)
          observer := .retaining running rest } rfl
        exact ⟨after, goes.trans later, done⟩
      · have goes : Goes state { state with
            lastAlive := state.lastAlive ++ [entry.handle]
            observer := .retaining running rest } := by
          refine .of_step .retainTask trivial ?_ rfl rfl rfl ?_
          · simp [step, phase, ended]
          · intro alive handle member
            rcases List.mem_append.mp member with older | new
            · exact alive handle older
            · rw [List.mem_singleton.mp new]
              exact Bool.eq_false_iff.mpr ended
        obtain ⟨after, later, done⟩ := @ih { state with
          lastAlive := state.lastAlive ++ [entry.handle]
          observer := .retaining running rest } rfl
        exact ⟨after, goes.trans later, done⟩

/-- Whatever it is doing, the observer comes to its next look without anyone's help. -/
theorem goes_woken (state : Observation) :
    ∃ next, Goes state next ∧ next.observer = .woken := by
  have wake : ∀ {state : Observation}, state.observer = .waiting →
      ∃ next, Goes state next ∧ next.observer = .woken := by
    intro state phase
    refine ⟨{ state with observer := .woken }, ?_, rfl⟩
    refine .of_step .timeout trivial ?_ rfl rfl rfl fun alive => alive
    simp [step, phase]
  cases phase : state.observer with
  | waiting => exact wake phase
  | woken => exact ⟨state, .refl state, phase⟩
  | retaining running unchecked =>
      obtain ⟨middle, first, waiting⟩ := goes_retaining phase
      obtain ⟨next, second, woken⟩ := wake waiting
      exact ⟨next, first.trans second, woken⟩
  | spawning running =>
      obtain ⟨middle, first, waiting⟩ := goes_spawning phase
      obtain ⟨next, second, woken⟩ := wake waiting
      exact ⟨next, first.trans second, woken⟩

def HasRunningTask (state : Observation) (container : ObservedContainer) : Prop :=
  ∃ (handle : Nat) (task : LogTask), state.spawned[handle]? = some task ∧
    task.finished = false ∧ task.container.id = container.id

/-- As long as Docker is reachable the observer can give every observed container a running task,
whichever events were lost. -/
theorem cycle_covers {capacity : Nat} {streaming : Bool}
    (reached : (containerObservation capacity streaming).Reachable Machine.anyStep state)
    (connected : state.connected = true) :
    ∃ after, ((containerObservation capacity streaming).startingAt state).Reachable ByObserver after ∧
      after.observer = .waiting ∧ after.observed = state.observed ∧
      ∀ container ∈ state.observed.rows, HasRunningTask after container := by
  obtain ⟨woken, early, phase⟩ := goes_woken state
  let read : Observation := { woken with
    observer := .retaining woken.observed.rows woken.tasks.rows
    lastRunning := woken.observed.rows
    lastAlive := [] }
  have looked : woken.step (.readObserved .unchanged) = some read := by
    simp [step, phase, early.connected, connected, HashOrder.unchanged, read]
  obtain ⟨after, late, waiting⟩ := @goes_retaining read _ _ rfl
  have run : ((containerObservation capacity streaming).startingAt state).Reachable
      ByObserver after :=
    (early.reached.step (.readObserved .unchanged) trivial looked).trans late.reached
  refine ⟨after, run, waiting, late.observed.trans early.observed, fun container member => ?_⟩
  have inv : EventsTell after ∧ TasksInv after := by
    apply run.invariant fun state => EventsTell state ∧ TasksInv state
    · exact tasksInv_reachable reached
    · rintro _ _ _ ⟨events, tasks⟩ _ taken
      exact ⟨events.step (step_cases taken), tasks.step events (step_cases taken)⟩
  have running : container ∈ after.lastRunning := by
    rw [late.lastRunning]
    simpa [read, early.observed] using member
  obtain ⟨handle, alive, task, found, named⟩ := inv.2.covered_resting (.inl waiting) running
  obtain ⟨same, held, unfinished⟩ := finished_eq_false.mp
    (late.stillAlive (fun _ none => absurd none List.not_mem_nil) handle alive)
  rw [held] at found
  cases found
  exact ⟨handle, task, held, unfinished, named⟩

/-- A container whose start event was refused, and whose task is spawned all the same. -/
theorem cycle_covers_refused : ∃ state after : Observation,
    state.sent.map Prod.snd = [false] ∧
      ∀ container ∈ state.observed.rows, HasRunningTask after container := by
  have ran : ((containerObservation 0 true).run (fun _ _ => true)
      (containerObservation 0 true).start
      [.beginUpdate, .listRunning .unchanged (some [⟨⟨1⟩, "1", "web", "web"⟩]), .sendEvent]).map
      (fun state => (state.sent.map Prod.snd, state.connected)) = some ([false], true) := by decide
  obtain ⟨state, taken, read⟩ := Option.map_eq_some_iff.mp ran
  obtain ⟨refused, connected⟩ := Prod.mk.inj read
  obtain ⟨after, _, _, _, covered⟩ := cycle_covers (.of_run _ taken) connected
  exact ⟨state, after, refused, covered⟩

end Observation

end Vpsiner.Docker
