import Vpsiner.Logs.OperationLocks

/-! Tasks on one week database exclude each other as long as no task is left on a mutex that
was taken out of the map when the next one is created. -/

set_option autoImplicit false

namespace Vpsiner.Logs

open Lib

variable {state after : OperationLocks} {action : LockAction}

namespace OperationLocks

def HoldsGuard (state : OperationLocks) (path : String) (id : Nat) : Prop :=
  ∃ task, state.tasks id = some task ∧ task.path = path ∧ task.phase.guard?.isSome = true

/-- At most one task holds an operation guard for the path. -/
def Exclusive (state : OperationLocks) (path : String) : Prop :=
  ∀ first second, state.HoldsGuard path first → state.HoldsGuard path second → first = second

/-- A mutex is created for a path only while no task has another one of that path. -/
def NoStaleLock (state : OperationLocks) : LockAction → Prop
  | .lookUp id => ∀ task, state.tasks id = some task → state.locks task.path = none →
      ∀ other holder, state.tasks other = some holder → holder.path = task.path →
        holder.phase.lock? = none
  | _ => True

inductive Steps (state : OperationLocks) : LockAction → OperationLocks → Prop where
  | start {id : Nat} (kind : OperationKind) (path : String) (fresh : state.tasks id = none) :
      Steps state (.start id kind path)
        { state with tasks := Function.update state.tasks id (some { kind, path }) }
  | lookUp {id : Nat} {task : LockTask} (known : state.tasks id = some task)
      (phase : task.phase = .starting) : Steps state (.lookUp id) (state.lookUp id task)
  | enqueue {id lock : Nat} {task : LockTask} (known : state.tasks id = some task)
      (phase : task.phase = .cloned lock) : Steps state (.enqueue id) (state.enqueue id task lock)
  /-- The task keeps its mutex and is the first of its queue. -/
  | advance {action : LockAction} {id lock : Nat} {task : LockTask} {phase : LockPhase}
      (known : state.tasks id = some task) (had : task.phase.lock? = some lock)
      (has : phase.lock? = some lock)
      (first : task.phase.guard? = some lock ∨ (state.queues lock).head? = some id) :
      Steps state action (state.setPhase id task phase)
  | leave {action : LockAction} {id : Nat} {task : LockTask} (known : state.tasks id = some task) :
      Steps state action (state.leave id task)
  | forget {id : Nat} {task : LockTask} (known : state.tasks id = some task) :
      Steps state (.forgetPath id) (state.forgetPath id task)

theorem step_cases (taken : state.step action = some after) : Steps state action after := by
  cases action with
  | start id kind path =>
      dsimp only [step] at taken
      split at taken
      · next fresh =>
          cases taken
          exact .start kind path fresh
      · cases taken
  | lookUp id =>
      obtain ⟨task, known, taken⟩ := Option.bind_eq_some_iff.mp taken
      split at taken
      · next phase =>
          cases taken
          exact .lookUp known phase
      · cases taken
  | enqueue id =>
      obtain ⟨task, known, taken⟩ := Option.bind_eq_some_iff.mp taken
      split at taken
      · next lock phase =>
          cases taken
          exact .enqueue known phase
      · cases taken
  | acquire id =>
      obtain ⟨task, known, taken⟩ := Option.bind_eq_some_iff.mp taken
      split at taken
      · next lock phase =>
          split at taken
          · next first =>
              cases taken
              exact .advance known (by rw [phase]; rfl) rfl (.inr first)
          · cases taken
      · cases taken
  | finish id =>
      obtain ⟨task, known, taken⟩ := Option.bind_eq_some_iff.mp taken
      split at taken
      · cases taken
        exact .leave known
      · cases taken
        exact .leave known
      · cases taken
  | evict id =>
      obtain ⟨task, known, taken⟩ := Option.bind_eq_some_iff.mp taken
      split at taken
      · next lock _ phase =>
          cases taken
          exact .advance known (by rw [phase]; rfl) rfl (.inl (by rw [phase]; rfl))
      · cases taken
  | removeFile id succeeds =>
      obtain ⟨task, known, taken⟩ := Option.bind_eq_some_iff.mp taken
      split at taken
      · next lock phase =>
          cases taken
          split
          · exact .advance known (by rw [phase]; rfl) rfl (.inl (by rw [phase]; rfl))
          · exact .leave known
      · cases taken
  | forgetPath id =>
      obtain ⟨task, known, taken⟩ := Option.bind_eq_some_iff.mp taken
      split at taken
      · cases taken
        exact .forget known
      · cases taken
  | cancel id =>
      obtain ⟨task, known, taken⟩ := Option.bind_eq_some_iff.mp taken
      cases taken
      exact .leave known

/-- All tasks of a path that have a mutex have the same one, which is the one in the map if
there is any; who holds a guard is the first of the queue. -/
structure LocksInv (state : OperationLocks) : Prop where
  first : ∀ id task lock, state.tasks id = some task → task.phase.guard? = some lock →
    (state.queues lock).head? = some id
  together : ∀ one two left right first second, state.tasks one = some left →
    state.tasks two = some right → left.path = right.path → left.phase.lock? = some first →
    right.phase.lock? = some second → first = second
  mapped : ∀ id task lock entry, state.tasks id = some task → task.phase.lock? = some lock →
    state.locks task.path = some entry → entry = lock

theorem lock?_of_guard? {phase : LockPhase} {lock : Nat} (held : phase.guard? = some lock) :
    phase.lock? = some lock := by
  cases phase with
  | starting | cloned _ | queued _ => cases held
  | working _ | evicted _ | unlinked _ => exact held

theorem LocksInv.exclusive (inv : LocksInv state) (path : String) : state.Exclusive path := by
  rintro one two ⟨left, known, onPath, held⟩ ⟨right, other, onPath', held'⟩
  obtain ⟨first, guard⟩ := Option.isSome_iff_exists.mp held
  obtain ⟨second, guard'⟩ := Option.isSome_iff_exists.mp held'
  have same := inv.together one two left right first second known other (onPath.trans onPath'.symm)
    (lock?_of_guard? guard) (lock?_of_guard? guard')
  have ahead := inv.first one left first known guard
  rw [same, inv.first two right second other guard'] at ahead
  exact (Option.some.inj ahead).symm

theorem locksInv_start : LocksInv {} where
  first _ _ _ known := absurd known.symm (Option.some_ne_none _)
  together _ _ _ _ _ _ known := absurd known.symm (Option.some_ne_none _)
  mapped _ _ _ _ known := absurd known.symm (Option.some_ne_none _)

/-! ## Steps -/

/-- Every task with a mutex had it before, and no mutex is new in the map. -/
structure Inherits (state after : OperationLocks) : Prop where
  tasks : ∀ id task lock, after.tasks id = some task → task.phase.lock? = some lock →
    ∃ earlier, state.tasks id = some earlier ∧ earlier.path = task.path ∧
      earlier.phase.lock? = some lock
  locks : ∀ path entry, after.locks path = some entry → state.locks path = some entry

theorem LocksInv.inherit (inv : LocksInv state) (inherits : Inherits state after)
    (first : ∀ id task lock, after.tasks id = some task → task.phase.guard? = some lock →
      (after.queues lock).head? = some id) : LocksInv after where
  first := first
  together one two left right lock lock' known known' samePath has has' := by
    obtain ⟨leftBefore, before, path, had⟩ := inherits.tasks one left lock known has
    obtain ⟨rightBefore, before', path', had'⟩ := inherits.tasks two right lock' known' has'
    exact inv.together one two leftBefore rightBefore lock lock' before before'
      (path.trans (samePath.trans path'.symm)) had had'
  mapped id task lock entry known has mapped := by
    obtain ⟨earlier, before, path, had⟩ := inherits.tasks id task lock known has
    exact inv.mapped id earlier lock entry before had (path ▸ inherits.locks _ entry mapped)

theorem LocksInv.start (inv : LocksInv state) (id : Nat) (kind : OperationKind) (path : String) :
    LocksInv { state with tasks := Function.update state.tasks id (some { kind, path }) } := by
  have older : ∀ other task, Function.update state.tasks id (some { kind, path }) other = some task →
      task.phase.lock? ≠ none → state.tasks other = some task := by
    intro other task known has
    by_cases same : other = id
    · rw [same, Function.update_self] at known
      cases known
      exact absurd rfl has
    · rwa [Function.update_of_ne same] at known
  refine inv.inherit ⟨?_, fun _ _ known => known⟩ ?_
  · intro other task lock known has
    exact ⟨task, older other task known (by rw [has]; exact Option.some_ne_none _), rfl, has⟩
  · intro other task lock known held
    have has := lock?_of_guard? held
    exact inv.first other task lock
      (older other task known (by rw [has]; exact Option.some_ne_none _)) held

theorem LocksInv.advance (inv : LocksInv state) {id lock : Nat} {task : LockTask}
    {phase : LockPhase} (known : state.tasks id = some task) (had : task.phase.lock? = some lock)
    (has : phase.lock? = some lock)
    (first : task.phase.guard? = some lock ∨ (state.queues lock).head? = some id) :
    LocksInv (state.setPhase id task phase) := by
  have ahead : (state.queues lock).head? = some id := by
    rcases first with held | ahead
    · exact inv.first id task lock known held
    · exact ahead
  refine inv.inherit ⟨?_, fun _ _ known => known⟩ ?_
  · intro other later lock' found later_has
    unfold setPhase at found
    dsimp only at found
    by_cases same : other = id
    · rw [same, Function.update_self] at found
      cases found
      exact ⟨task, same ▸ known, rfl, had.trans (has.symm.trans later_has)⟩
    · rw [Function.update_of_ne same] at found
      exact ⟨later, found, rfl, later_has⟩
  · intro other later lock' found held
    unfold setPhase at found
    dsimp only at found
    by_cases same : other = id
    · rw [same, Function.update_self] at found
      cases found
      have only : lock' = lock := Option.some.inj ((lock?_of_guard? held).symm.trans has)
      rw [only, same]
      exact ahead
    · rw [Function.update_of_ne same] at found
      exact inv.first other later lock' found held

theorem LocksInv.enqueue (inv : LocksInv state) {id lock : Nat} {task : LockTask}
    (known : state.tasks id = some task) (phase : task.phase = .cloned lock) :
    LocksInv (state.enqueue id task lock) := by
  refine inv.inherit ⟨?_, fun _ _ known => known⟩ ?_
  · intro other later lock' found has
    unfold OperationLocks.enqueue setPhase at found
    dsimp only at found
    by_cases same : other = id
    · rw [same, Function.update_self] at found
      cases found
      exact ⟨task, same ▸ known, rfl, by rw [phase]; exact has⟩
    · rw [Function.update_of_ne same] at found
      exact ⟨later, found, rfl, has⟩
  · intro other later lock' found held
    unfold OperationLocks.enqueue setPhase at found ⊢
    dsimp only at found ⊢
    by_cases same : other = id
    · rw [same, Function.update_self] at found
      cases found
      cases held
    · rw [Function.update_of_ne same] at found
      have ahead := inv.first other later lock' found held
      by_cases joined : lock' = lock
      · rw [joined, Function.update_self, ← joined, List.head?_append, ahead]
        rfl
      · rwa [Function.update_of_ne joined]

theorem head?_erase {queue : List Nat} {id gone : Nat} (ahead : queue.head? = some id)
    (other : id ≠ gone) : (queue.erase gone).head? = some id := by
  cases queue with
  | nil => cases ahead
  | cons head rest =>
      cases ahead
      rw [List.erase_cons_tail (by simpa using other)]
      rfl

theorem leave_tasks {id other : Nat} {task later : LockTask}
    (found : (state.leave id task).tasks other = some later) :
    other ≠ id ∧ state.tasks other = some later := by
  unfold OperationLocks.leave at found
  dsimp only at found
  by_cases same : other = id
  · rw [same, Function.update_self] at found
    cases found
  · rw [Function.update_of_ne same] at found
    exact ⟨same, found⟩

theorem leave_first (inv : LocksInv state) {id other lock : Nat} {task later : LockTask}
    (found : (state.leave id task).tasks other = some later)
    (held : later.phase.guard? = some lock) :
    ((state.leave id task).queues lock).head? = some other := by
  obtain ⟨different, before⟩ := leave_tasks found
  have ahead := inv.first other later lock before held
  unfold OperationLocks.leave
  dsimp only
  cases task.phase.lock? with
  | none => exact ahead
  | some own =>
      dsimp only
      by_cases same : lock = own
      · rw [same, Function.update_self, ← same]
        exact head?_erase ahead different
      · rwa [Function.update_of_ne same]

theorem LocksInv.leave (inv : LocksInv state) (id : Nat) (task : LockTask) :
    LocksInv (state.leave id task) := by
  refine inv.inherit ⟨?_, fun _ _ known => known⟩ fun _ _ _ found held => leave_first inv found held
  exact fun other later lock found has => ⟨later, (leave_tasks found).2, rfl, has⟩

theorem LocksInv.forgetPath (inv : LocksInv state) (id : Nat) (task : LockTask) :
    LocksInv (state.forgetPath id task) := by
  refine inv.inherit ⟨?_, ?_⟩ fun _ _ _ found held => @leave_first state inv id _ _ task _ found held
  · exact fun other later lock found has =>
      ⟨later, (@leave_tasks state id other task later found).2, rfl, has⟩
  · intro path entry mapped
    unfold OperationLocks.forgetPath at mapped
    dsimp only at mapped
    by_cases same : path = task.path
    · rw [same, Function.update_self] at mapped
      cases mapped
    · rwa [Function.update_of_ne same] at mapped

theorem LocksInv.gain (inv : LocksInv state) {id lock nextLock : Nat} {task : LockTask}
    (only : ∀ other holder has, state.tasks other = some holder → holder.path = task.path →
      holder.phase.lock? = some has → has = lock) :
    LocksInv { state with
      locks := Function.update state.locks task.path (some lock)
      tasks := Function.update state.tasks id (some { task with phase := .cloned lock })
      nextLock } := by
  have others : ∀ other holder has,
      Function.update state.tasks id (some { task with phase := .cloned lock }) other = some holder →
      holder.phase.lock? = some has → (holder.path = task.path ∧ has = lock) ∨
        state.tasks other = some holder := by
    intro other holder has known owns
    by_cases same : other = id
    · rw [same, Function.update_self] at known
      cases known
      cases owns
      exact .inl ⟨rfl, rfl⟩
    · rw [Function.update_of_ne same] at known
      exact .inr known
  constructor
  · intro other holder has known held
    dsimp only at known ⊢
    by_cases same : other = id
    · rw [same, Function.update_self] at known
      cases known
      cases held
    · rw [Function.update_of_ne same] at known
      exact inv.first other holder has known held
  · intro one two left right first second known known' samePath owns owns'
    rcases others one left first known owns with ⟨path, rfl⟩ | before
    · rcases others two right second known' owns' with ⟨_, rfl⟩ | before'
      · rfl
      · exact (only two right second before' (samePath.symm.trans path) owns').symm
    · rcases others two right second known' owns' with ⟨path, rfl⟩ | before'
      · exact only one left first before (samePath.trans path) owns
      · exact inv.together one two left right first second before before' samePath owns owns'
  · intro other holder has entry known owns mapped
    dsimp only at mapped
    by_cases onPath : holder.path = task.path
    · rw [onPath, Function.update_self] at mapped
      obtain rfl := Option.some.inj mapped
      rcases others other holder has known owns with ⟨_, rfl⟩ | before
      · rfl
      · exact (only other holder has before onPath owns).symm
    · rw [Function.update_of_ne onPath] at mapped
      rcases others other holder has known owns with ⟨path, _⟩ | before
      · exact absurd path onPath
      · exact inv.mapped other holder has entry before owns mapped

/-- The task gets the mutex in the map, or a new one when no task has another. -/
theorem LocksInv.lookUp (inv : LocksInv state) {id : Nat} {task : LockTask}
    (known : state.tasks id = some task) (permitted : NoStaleLock state (.lookUp id)) :
    LocksInv (state.lookUp id task) := by
  unfold OperationLocks.lookUp cloneLock setPhase
  cases mapped : state.locks task.path with
  | some lock =>
      have gained := @LocksInv.gain state inv id lock state.nextLock task fun other holder has found
        onPath owns => (inv.mapped other holder has lock found owns (onPath ▸ mapped)).symm
      rwa [← mapped, Function.update_eq_self] at gained
  | none =>
      refine inv.gain fun other holder has found onPath owns => ?_
      have free := permitted task known mapped other holder found onPath
      rw [free] at owns
      cases owns

theorem LocksInv.step (inv : LocksInv state) (permitted : NoStaleLock state action)
    (taken : state.step action = some after) : LocksInv after := by
  cases step_cases taken with
  | start kind path => exact inv.start _ kind path
  | lookUp known => exact inv.lookUp known permitted
  | enqueue known phase => exact inv.enqueue known phase
  | advance known had has first => exact inv.advance known had has first
  | leave => exact inv.leave _ _
  | forget => exact inv.forgetPath _ _

/-- In every run that never creates a mutex for a path while a task has an older one of it,
at most one task at a time holds an operation guard for the path. -/
theorem operations_exclusive (path : String)
    (reached : lockMachine.Reachable NoStaleLock state) : state.Exclusive path := by
  have inv : LocksInv state := reached.invariant LocksInv locksInv_start
    fun inv permitted taken => inv.step permitted taken
  exact inv.exclusive path

/-- A mutex that is in the map is none that the step creates. -/
def looksUpMapped (state : OperationLocks) : LockAction → Bool
  | .lookUp id => (state.tasks id).all fun task => (state.locks task.path).isSome
  | _ => true

theorem noStaleLock_of_mapped (mapped : state.looksUpMapped action = true) :
    NoStaleLock state action := by
  cases action with
  | lookUp id =>
      intro task known absent
      dsimp only [looksUpMapped] at mapped
      rw [known, Option.all_some, absent] at mapped
      cases mapped
  | start | enqueue | acquire | finish | evict | removeFile | forgetPath | cancel => exact trivial

/-- A deletion waits for an append that works on the database. -/
theorem operations_exclusive_deletion : ∃ state : OperationLocks,
    state.HoldsGuard "web/2023_w46.db" 0 ∧ ¬ state.HoldsGuard "web/2023_w46.db" 1 ∧
      state.Exclusive "web/2023_w46.db" := by
  have nothing : lockMachine.Reachable NoStaleLock lockMachine.start := .start
  have started := nothing.step (.start 0 .append "web/2023_w46.db") trivial rfl
  have created := started.step (.lookUp 0) (by
    intro task known _ other holder found _
    by_cases same : other = 0
    · rw [same] at found
      cases found
      rfl
    · exact absurd ((Function.update_of_ne same ..).symm.trans found).symm (Option.some_ne_none _))
    rfl
  have waits := @created.run _ _ _ _ looksUpMapped (fun _ _ => noStaleLock_of_mapped) _ _
    [.enqueue 0, .start 1 .deleteBefore "web/2023_w46.db", .lookUp 1, .enqueue 1, .acquire 0] rfl
  refine ⟨_, ⟨_, rfl, rfl, rfl⟩, ?_, operations_exclusive _ waits⟩
  rintro ⟨task, known, _, held⟩
  cases known
  cases held

/-- A query waits for a deletion, which forgets the mutex both have; the next append gets a
new one. -/
def staleWaiter : List LockAction := [
  .start 0 .deleteBefore "web/2023_w46.db", .lookUp 0, .enqueue 0, .acquire 0,
  .start 1 .query "web/2023_w46.db", .lookUp 1, .enqueue 1,
  .evict 0, .removeFile 0 true, .forgetPath 0,
  .start 2 .append "web/2023_w46.db", .lookUp 2, .enqueue 2, .acquire 2, .acquire 1]

theorem stale_waiter_overlaps : ¬ ∀ (path : String) (state : OperationLocks),
    lockMachine.Reachable Machine.anyStep state → state.Exclusive path := by
  intro always
  have overlap : (lockMachine.run (fun _ _ => true) lockMachine.start staleWaiter).map
      (fun state => (state.tasks 1, state.tasks 2)) =
        some (some ⟨.query, "web/2023_w46.db", .working 0⟩,
          some ⟨.append, "web/2023_w46.db", .working 1⟩) := by decide
  obtain ⟨state, taken, tasks⟩ := Option.map_eq_some_iff.mp overlap
  have query := congrArg Prod.fst tasks
  have append := congrArg Prod.snd tasks
  have exclusive := always "web/2023_w46.db" state (.of_run staleWaiter taken)
  exact absurd (exclusive 1 2 ⟨_, query, rfl, rfl⟩ ⟨_, append, rfl, rfl⟩) (by decide)

end OperationLocks

end Vpsiner.Logs
