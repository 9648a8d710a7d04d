import Vpsiner.Logs.OperationLocksProperties
import Vpsiner.Logs.PoolCache

/-! No file is unlinked under a connection of the cache, and no connection is closed under an
operation that has not outlived the time it is kept. -/

set_option autoImplicit false

namespace Vpsiner.Logs

open Lib OperationLocks

namespace PoolCache

variable {cache after : PoolCache}

/-- The operation has had its pool for as long as an unused one is kept. -/
def Overdue (cache : PoolCache) (use : PoolUse) : Prop :=
  cache.keepAlive ≤ cache.now - use.since ∨ cache.shutdown = true

/-- The operation works on the path of its cell, and the entry of that path is its own. -/
structure InUse (cache : PoolCache) (use : PoolUse) (task : LockTask) (content : PoolCell) :
    Prop where
  working : ∃ lock, task.phase = .working lock
  kind : task.kind ≠ .deleteBefore
  cell : cache.cells use.cell = some content
  path : content.path = task.path
  entry : ∀ entry ∈ cache.entries, entry.1 = task.path → entry.2 = ⟨use.cell, use.since⟩
  since : use.since ≤ cache.now
  overdue : use.cell ∈ cache.closing ∨ content.state = .closed → cache.Overdue use
  got : use.got = true → content.state ≠ .empty

def Evicted (task : LockTask) : Prop :=
  ∃ lock, task.phase = .evicted lock ∨ task.phase = .unlinked lock

structure Pooled (cache : PoolCache) : Prop where
  locks : LocksInv cache.locks
  fresh : ∀ cell content, cache.cells cell = some content → cell < cache.nextCell
  entries : ∀ entry ∈ cache.entries, entry.2.cell ∉ cache.closing ∧
    ∃ content, cache.cells entry.2.cell = some content ∧ content.path = entry.1 ∧
      content.state ≠ .closed
  single : ∀ one ∈ cache.entries, ∀ two ∈ cache.entries, one.1 = two.1 → one = two
  closing : ∀ cell ∈ cache.closing, ∃ content, cache.cells cell = some content
  uses : ∀ id use, cache.uses id = some use →
    ∃ task content, cache.locks.tasks id = some task ∧ cache.InUse use task content
  evicted : ∀ id task, cache.locks.tasks id = some task → Evicted task →
    ∀ entry ∈ cache.entries, entry.1 ≠ task.path

theorem get_eq_some {path : String} {cached : CachedPool} (found : cache.get path = some cached) :
    (path, cached) ∈ cache.entries := by
  obtain ⟨entry, member, rfl⟩ := Option.map_eq_some_iff.mp found
  have same : entry.1 = path := by simpa using List.find?_some member
  exact same ▸ List.mem_of_find?_eq_some member

theorem get_eq_none {path : String} (missing : cache.get path = none) :
    ∀ entry ∈ cache.entries, entry.1 ≠ path := by
  simpa [get, List.find?_eq_none] using missing

/-! ## Tasks -/

section Tasks

variable {state later : OperationLocks} {action : LockAction}

/-- The task that moves. -/
def mover : LockAction → Nat
  | .start id _ _ | .lookUp id | .enqueue id | .acquire id | .finish id | .evict id
  | .removeFile id _ | .forgetPath id | .cancel id => id

/-- What a step makes of the task that moves. -/
inductive Becomes (state : OperationLocks) : LockAction → Option LockTask → Prop where
  | started {id : Nat} {kind : OperationKind} {path : String} (free : state.tasks id = none) :
      Becomes state (.start id kind path) (some { kind, path })
  | waits {action : LockAction} {task : LockTask} {phase : LockPhase}
      (known : state.tasks (mover action) = some task) (had : task.phase.guard? = none)
      (calm : ∀ lock, phase ≠ .evicted lock ∧ phase ≠ .unlinked lock) :
      Becomes state action (some { task with phase })
  | evicts {id lock : Nat} {task : LockTask} (known : state.tasks id = some task)
      (kind : task.kind = .deleteBefore) (phase : task.phase = .working lock) :
      Becomes state (.evict id) (some { task with phase := .evicted lock })
  | unlinks {id lock : Nat} {succeeds : Bool} {task : LockTask} (known : state.tasks id = some task)
      (phase : task.phase = .evicted lock) :
      Becomes state (.removeFile id succeeds) (some { task with phase := .unlinked lock })
  | failed {id : Nat} {succeeds : Bool} {task : LockTask} (known : state.tasks id = some task)
      (evicted : Evicted task) : Becomes state (.removeFile id succeeds) none
  | forgot {id : Nat} {task : LockTask} (known : state.tasks id = some task)
      (evicted : Evicted task) : Becomes state (.forgetPath id) none
  | finished {id : Nat} : Becomes state (.finish id) none
  | cancelled {id : Nat} : Becomes state (.cancel id) none

/-- The other tasks stay as they are. -/
theorem tasks_of_step (taken : state.step action = some later) :
    ∃ task, Becomes state action task ∧
      later.tasks = Function.update state.tasks (mover action) task := by
  cases action with
  | start id kind path =>
      dsimp only [OperationLocks.step] at taken
      split at taken
      · next free =>
          cases taken
          exact ⟨_, .started free, rfl⟩
      · cases taken
  | lookUp id =>
      obtain ⟨task, known, taken⟩ := Option.bind_eq_some_iff.mp taken
      split at taken
      · next phase =>
          cases taken
          refine ⟨some { task with phase := .cloned (state.cloneLock task.path).2 },
            .waits known (by rw [phase]; rfl) (by simp), ?_⟩
          have tasks : (state.cloneLock task.path).1.tasks = state.tasks := by
            unfold cloneLock
            split <;> rfl
          exact congrArg (fun tasks => Function.update tasks id _) tasks
      · cases taken
  | enqueue id =>
      obtain ⟨task, known, taken⟩ := Option.bind_eq_some_iff.mp taken
      split at taken
      · next lock phase =>
          cases taken
          exact ⟨_, .waits known (by rw [phase]; rfl) (by simp), rfl⟩
      · cases taken
  | acquire id =>
      obtain ⟨task, known, taken⟩ := Option.bind_eq_some_iff.mp taken
      split at taken
      · next lock phase =>
          split at taken
          · cases taken
            exact ⟨_, .waits known (by rw [phase]; rfl) (by simp), rfl⟩
          · cases taken
      · cases taken
  | finish id =>
      obtain ⟨task, known, taken⟩ := Option.bind_eq_some_iff.mp taken
      split at taken
      · cases taken
        exact ⟨_, .finished, rfl⟩
      · cases taken
        exact ⟨_, .finished, rfl⟩
      · cases taken
  | evict id =>
      obtain ⟨task, known, taken⟩ := Option.bind_eq_some_iff.mp taken
      split at taken
      · next lock kind phase =>
          cases taken
          exact ⟨_, .evicts known kind phase, rfl⟩
      · cases taken
  | removeFile id succeeds =>
      obtain ⟨task, known, taken⟩ := Option.bind_eq_some_iff.mp taken
      split at taken
      · next lock phase =>
          cases taken
          split
          · exact ⟨_, .unlinks known phase, rfl⟩
          · exact ⟨_, .failed known ⟨lock, .inl phase⟩, rfl⟩
      · cases taken
  | forgetPath id =>
      obtain ⟨task, known, taken⟩ := Option.bind_eq_some_iff.mp taken
      split at taken
      · next lock phase =>
          cases taken
          exact ⟨_, .forgot known ⟨lock, .inr phase⟩, rfl⟩
      · cases taken
  | cancel id =>
      obtain ⟨task, known, taken⟩ := Option.bind_eq_some_iff.mp taken
      cases taken
      exact ⟨_, .cancelled, rfl⟩

/-- An append or a query keeps working until it ends. -/
theorem task_kept (taken : state.step action = some later) {id : Nat} {task : LockTask}
    (known : state.tasks id = some task) (working : ∃ lock, task.phase = .working lock)
    (kind : task.kind ≠ .deleteBefore) (stays : action ≠ .finish id ∧ action ≠ .cancel id) :
    later.tasks id = some task := by
  obtain ⟨lock, phase⟩ := working
  obtain ⟨next, becomes, tasks⟩ := tasks_of_step taken
  rw [tasks]
  by_cases same : id = mover action
  · have known := same ▸ known
    cases becomes with
    | started free => cases free.symm.trans known
    | waits before had =>
        cases before.symm.trans known
        simp [phase, LockPhase.guard?] at had
    | evicts before delete =>
        cases before.symm.trans known
        exact absurd delete kind
    | unlinks before evicted =>
        cases before.symm.trans known
        cases phase.symm.trans evicted
    | failed before evicted | forgot before evicted =>
        cases before.symm.trans known
        obtain ⟨_, evicted | unlinked⟩ := evicted
        · cases phase.symm.trans evicted
        · cases phase.symm.trans unlinked
    | finished => exact absurd (same ▸ rfl) stays.1
    | cancelled => exact absurd (same ▸ rfl) stays.2
  · rw [Function.update_of_ne same, known]

/-- A deletion that has closed the pool of its path did so before, or does so now. -/
theorem task_evicted (taken : state.step action = some later) {id : Nat} {task : LockTask}
    (known : later.tasks id = some task) (evicted : Evicted task) :
    (∃ earlier, state.tasks id = some earlier ∧ Evicted earlier ∧ earlier.path = task.path) ∨
      action = .evict id ∧ ∃ earlier lock, state.tasks id = some earlier ∧
        earlier.phase = .working lock ∧ earlier.path = task.path := by
  obtain ⟨next, becomes, tasks⟩ := tasks_of_step taken
  rw [tasks] at known
  by_cases same : id = mover action
  · subst same
    rw [Function.update_self] at known
    subst known
    obtain ⟨lock, phase⟩ := evicted
    cases becomes with
    | started => rcases phase with phase | phase <;> cases phase
    | waits _ _ calm => exact absurd phase (not_or.mpr (calm lock))
    | evicts before _ working => exact .inr ⟨rfl, _, _, before, working, rfl⟩
    | unlinks before earlier => exact .inl ⟨_, before, ⟨_, .inl earlier⟩, rfl⟩
  · rw [Function.update_of_ne same] at known
    exact .inl ⟨task, known, evicted, rfl⟩

end Tasks

/-! ## Cells -/

/-- What closing a cell does to the cells. -/
theorem cells_close {cell other : Nat} {content : PoolCell}
    (known : (cache.close cell).cells other = some content) :
    ∃ earlier, cache.cells other = some earlier ∧ earlier.path = content.path ∧
      (earlier.state = .empty ↔ content.state = .empty) ∧
        (content.state = .closed → earlier.state = .closed ∨ other = cell) ∧
          (other ≠ cell → content = earlier) := by
  unfold close at known
  split at known
  · next held found =>
      split at known
      · next opened =>
          by_cases same : other = cell
          · subst same
            simp only [setCell, Function.update_self, Option.some.injEq] at known
            subst known
            exact ⟨held, found, rfl, by simp [opened], by simp, by simp⟩
          · simp only [setCell, Function.update_of_ne same] at known
            exact ⟨content, known, rfl, Iff.rfl, .inl, fun _ => rfl⟩
      · exact ⟨content, known, rfl, Iff.rfl, .inl, fun _ => rfl⟩
  · exact ⟨content, known, rfl, Iff.rfl, .inl, fun _ => rfl⟩

theorem exists_cells_close {cell other : Nat} {earlier : PoolCell}
    (known : cache.cells other = some earlier) :
    ∃ content, (cache.close cell).cells other = some content := by
  unfold close
  split
  · split
    · by_cases same : other = cell
      · exact ⟨_, by rw [same]; exact Function.update_self ..⟩
      · exact ⟨earlier, (Function.update_of_ne same ..).trans known⟩
    · exact ⟨earlier, known⟩
  · exact ⟨earlier, known⟩

/-- Closing is about cells only. -/
theorem close_eq (cell : Nat) :
    cache.close cell = { cache with cells := (cache.close cell).cells } := by
  unfold close
  split
  · split <;> rfl
  · rfl

namespace Pooled

theorem elapse (pooled : cache.Pooled) (ms : Nat) :
    Pooled { cache with now := cache.now + ms } := by
  refine ⟨pooled.locks, pooled.fresh, pooled.entries, pooled.single, pooled.closing, ?_,
    pooled.evicted⟩
  intro id use used
  obtain ⟨task, content, known, inUse⟩ := pooled.uses id use used
  refine ⟨task, content, known, { inUse with since := ?_, overdue := fun gone => ?_ }⟩
  · exact Nat.le_trans inUse.since (Nat.le_add_right _ _)
  · rcases inUse.overdue gone with kept | down
    · exact .inl (Nat.le_trans kept (Nat.sub_le_sub_right (Nat.le_add_right _ _) _))
    · exact .inr down

/-- A cell that has left the map may be closed under those for whom it is time. -/
theorem close (pooled : cache.Pooled) {cell : Nat}
    (apart : ∀ entry ∈ cache.entries, entry.2.cell ≠ cell)
    (late : ∀ id use, cache.uses id = some use → use.cell = cell → cache.Overdue use) :
    (cache.close cell).Pooled := by
  rw [close_eq]
  refine ⟨pooled.locks, ?_, ?_, pooled.single, ?_, ?_, pooled.evicted⟩
  · intro other content known
    obtain ⟨earlier, before, -⟩ := cells_close known
    exact pooled.fresh other earlier before
  · intro entry member
    obtain ⟨outside, content, known, path, state⟩ := pooled.entries entry member
    obtain ⟨later, found⟩ := @exists_cells_close cache cell _ _ known
    obtain ⟨earlier, before, -, -, -, same⟩ := cells_close found
    cases known.symm.trans before
    refine ⟨outside, later, found, ?_⟩
    rw [same (apart entry member)]
    exact ⟨path, state⟩
  · intro other member
    obtain ⟨content, known⟩ := pooled.closing other member
    exact exists_cells_close known
  · intro id use used
    obtain ⟨task, content, known, inUse⟩ := pooled.uses id use used
    obtain ⟨later, found⟩ := @exists_cells_close cache cell _ _ inUse.cell
    obtain ⟨earlier, before, path, state, closed, -⟩ := cells_close found
    cases inUse.cell.symm.trans before
    refine ⟨task, later, known, inUse.working, inUse.kind, found, path.symm.trans inUse.path,
      inUse.entry, inUse.since, ?_, fun got => (not_congr state).mp (inUse.got got)⟩
    rintro (listed | gone)
    · exact inUse.overdue (.inl listed)
    · rcases closed gone with already | here
      · exact inUse.overdue (.inr already)
      · exact late id use used here

theorem closeEntry (pooled : cache.Pooled) {cell : Nat} (taken : cell ∈ cache.closing) :
    Pooled { cache.close cell with closing := cache.closing.erase cell } := by
  have closed : (cache.close cell).Pooled := by
    refine pooled.close (fun entry member same => (pooled.entries entry member).1 (same ▸ taken)) ?_
    intro id use used same
    obtain ⟨task, content, -, inUse⟩ := pooled.uses id use used
    exact inUse.overdue (.inl (same ▸ taken))
  rw [close_eq] at closed ⊢
  have fewer : ∀ {other}, other ∈ cache.closing.erase cell → other ∈ cache.closing :=
    List.mem_of_mem_erase
  refine ⟨closed.locks, closed.fresh, ?_, closed.single, ?_, ?_, closed.evicted⟩
  · intro entry member
    obtain ⟨outside, rest⟩ := closed.entries entry member
    exact ⟨mt fewer outside, rest⟩
  · exact fun other member => closed.closing other (fewer member)
  · intro id use used
    obtain ⟨task, content, known, inUse⟩ := closed.uses id use used
    exact ⟨task, content, known, { inUse with
      overdue := fun gone => inUse.overdue (gone.imp_left fewer) }⟩

/-- Entries are taken out of the map, to be closed, for a reason that is good for their users. -/
theorem takeOut (pooled : cache.Pooled) (shutdown : Bool) (gone : String × CachedPool → Bool)
    (stays : cache.shutdown = true → shutdown = true)
    (reason : ∀ entry ∈ cache.entries, gone entry = true →
      cache.keepAlive ≤ cache.now - entry.2.lastUsed ∨ shutdown = true) :
    Pooled { cache with
      entries := cache.entries.filter fun entry => !gone entry
      closing := cache.closing ++ (cache.entries.filter gone).map fun entry => entry.2.cell
      shutdown } := by
  have kept : ∀ {entry}, (entry ∈ cache.entries.filter fun entry => !gone entry) →
      entry ∈ cache.entries ∧ gone entry = false := by simp
  refine ⟨pooled.locks, pooled.fresh, ?_, ?_, ?_, ?_, ?_⟩
  · intro entry member
    obtain ⟨present, stayed⟩ := kept member
    obtain ⟨outside, content, known, path, state⟩ := pooled.entries entry present
    refine ⟨fun listed => ?_, content, known, path, state⟩
    rcases List.mem_append.mp listed with before | taken
    · exact outside before
    · obtain ⟨other, expired, same⟩ := List.mem_map.mp taken
      obtain ⟨present', left⟩ := List.mem_filter.mp expired
      obtain ⟨-, content', known', path', -⟩ := pooled.entries other present'
      rw [same] at known'
      cases known.symm.trans known'
      cases pooled.single other present' entry present (path'.symm.trans path)
      cases stayed.symm.trans left
  · intro one member two member'
    exact pooled.single one (kept member).1 two (kept member').1
  · intro cell listed
    rcases List.mem_append.mp listed with before | taken
    · exact pooled.closing cell before
    · obtain ⟨entry, expired, rfl⟩ := List.mem_map.mp taken
      obtain ⟨-, content, known, -⟩ := pooled.entries entry (List.mem_filter.mp expired).1
      exact ⟨content, known⟩
  · intro id use used
    obtain ⟨task, content, known, inUse⟩ := pooled.uses id use used
    have later : cache.Overdue use → cache.keepAlive ≤ cache.now - use.since ∨ shutdown = true :=
      Or.imp_right stays
    refine ⟨task, content, known, { inUse with
      entry := fun entry member => inUse.entry entry (kept member).1
      overdue := ?_ }⟩
    rintro (listed | closed)
    · rcases List.mem_append.mp listed with before | taken
      · exact later (inUse.overdue (.inl before))
      · obtain ⟨entry, expired, same⟩ := List.mem_map.mp taken
        obtain ⟨present, left⟩ := List.mem_filter.mp expired
        obtain ⟨-, content', known', path', -⟩ := pooled.entries entry present
        rw [same] at known'
        cases inUse.cell.symm.trans known'
        have own := inUse.entry entry present (path'.symm.trans inUse.path)
        have due := reason entry present left
        rwa [own] at due
    · exact later (inUse.overdue (.inr closed))
  · intro id task known evicted entry member
    exact pooled.evicted id task known evicted entry (kept member).1

theorem sweep (pooled : cache.Pooled) : cache.sweep.Pooled := by
  refine pooled.takeOut cache.shutdown cache.expired (fun down => down) fun entry _ late => .inl ?_
  simpa [PoolCache.expired] using late

theorem closeAll (pooled : cache.Pooled) : cache.closeAll.Pooled := by
  have taken := pooled.takeOut true (fun _ => true) (fun _ => rfl) fun _ _ _ => .inr rfl
  have nothing : (cache.entries.filter fun _ => !true) = [] := by simp
  have everything : (cache.entries.filter fun _ => true) = cache.entries := by simp
  rwa [nothing, everything] at taken

/-! ### One operation for each path -/

theorem alone (pooled : cache.Pooled) {one two : Nat} {left right : LockTask}
    (known : cache.locks.tasks one = some left) (known' : cache.locks.tasks two = some right)
    (samePath : left.path = right.path) (guarded : left.phase.guard?.isSome = true)
    (guarded' : right.phase.guard?.isSome = true) : one = two :=
  pooled.locks.exclusive left.path one two ⟨left, known, rfl, guarded⟩
    ⟨right, known', samePath.symm, guarded'⟩

theorem guarded_of_working {task : LockTask} (working : ∃ lock, task.phase = .working lock) :
    task.phase.guard?.isSome = true := by
  obtain ⟨lock, phase⟩ := working
  simp [phase, LockPhase.guard?]

theorem guarded_of_evicted {task : LockTask} (evicted : Evicted task) :
    task.phase.guard?.isSome = true := by
  obtain ⟨lock, phase | phase⟩ := evicted <;> simp [phase, LockPhase.guard?]

/-- The other operations and the deletions under way are at other paths. -/
theorem elsewhere (pooled : cache.Pooled) {id other : Nat} {task later : LockTask}
    (known : cache.locks.tasks id = some task) (working : ∃ lock, task.phase = .working lock)
    (known' : cache.locks.tasks other = some later)
    (guarded : later.phase.guard?.isSome = true) (different : other ≠ id) :
    later.path ≠ task.path := fun samePath =>
  different (pooled.alone known' known samePath guarded (guarded_of_working working))

theorem evicted_elsewhere (pooled : cache.Pooled) {id other : Nat} {task later : LockTask}
    (known : cache.locks.tasks id = some task) (working : ∃ lock, task.phase = .working lock)
    (known' : cache.locks.tasks other = some later) (evicted : Evicted later) :
    later.path ≠ task.path := by
  apply pooled.elsewhere known working known' (guarded_of_evicted evicted)
  rintro rfl
  cases known.symm.trans known'
  obtain ⟨lock, phase⟩ := working
  obtain ⟨_, phase' | phase'⟩ := evicted <;> cases phase.symm.trans phase'

theorem mem_insert {path : String} {cached : CachedPool} {entry : String × CachedPool}
    (member : entry ∈ (cache.insert path cached).entries) :
    entry = (path, cached) ∨ entry ∈ cache.entries ∧ entry.1 ≠ path := by
  simpa [insert, remove] using member

/-- The operation takes the cell, and the entry of its path becomes its own. -/
theorem take (pooled : cache.Pooled) {id cell : Nat} {task : LockTask} {content : PoolCell}
    (known : cache.locks.tasks id = some task) (working : ∃ lock, task.phase = .working lock)
    (kind : task.kind ≠ .deleteBefore) (held : cache.cells cell = some content)
    (path : content.path = task.path) (state : content.state ≠ .closed)
    (outside : cell ∉ cache.closing) :
    Pooled ((cache.insert task.path { cell, lastUsed := cache.now }).setUse id
      (some { cell, since := cache.now })) := by
  refine ⟨pooled.locks, pooled.fresh, ?_, ?_, pooled.closing, ?_, ?_⟩
  · intro entry member
    rcases mem_insert member with rfl | ⟨old, -⟩
    · exact ⟨outside, content, held, path, state⟩
    · exact pooled.entries entry old
  · intro one member two member' same
    rcases mem_insert member with rfl | ⟨old, away⟩
    · rcases mem_insert member' with rfl | ⟨-, away'⟩
      · rfl
      · exact absurd same.symm away'
    · rcases mem_insert member' with rfl | ⟨old', -⟩
      · exact absurd same away
      · exact pooled.single one old two old' same
  · intro other use used
    by_cases same : other = id
    · subst same
      simp only [setUse, Function.update_self, Option.some.injEq] at used
      subst used
      refine ⟨task, content, known, working, kind, held, path, ?_, Nat.le_refl _, ?_, nofun⟩
      · intro entry member onPath
        rcases mem_insert member with rfl | ⟨-, away⟩
        · rfl
        · exact absurd onPath away
      · rintro (listed | closed)
        · exact absurd listed outside
        · exact absurd closed state
    · simp only [setUse, Function.update_of_ne same] at used
      obtain ⟨later, content', known', inUse⟩ := pooled.uses other use used
      have away := pooled.elsewhere known working known' (guarded_of_working inUse.working) same
      refine ⟨later, content', known', { inUse with entry := ?_ }⟩
      intro entry member onPath
      rcases mem_insert member with rfl | ⟨old, -⟩
      · exact absurd onPath.symm away
      · exact inUse.entry entry old onPath
  · intro other later known' evicted entry member
    rcases mem_insert member with rfl | ⟨old, -⟩
    · exact (pooled.evicted_elsewhere known working known' evicted).symm
    · exact pooled.evicted other later known' evicted entry old

/-- A cell that nothing refers to yet. -/
theorem newCell (pooled : cache.Pooled) (path : String) :
    Pooled ({ cache with nextCell := cache.nextCell + 1 }.setCell cache.nextCell { path }) := by
  have kept : ∀ {cell content}, cache.cells cell = some content →
      Function.update cache.cells cache.nextCell (some { path }) cell = some content := by
    intro cell content known
    have older := pooled.fresh cell content known
    exact (Function.update_of_ne (Nat.ne_of_lt older) ..).trans known
  refine ⟨pooled.locks, ?_, ?_, pooled.single, ?_, ?_, pooled.evicted⟩
  · intro cell content known
    by_cases same : cell = cache.nextCell
    · rw [same]
      exact Nat.lt_succ_self _
    · simp only [setCell, Function.update_of_ne same] at known
      exact Nat.lt_succ_of_lt (pooled.fresh cell content known)
  · intro entry member
    obtain ⟨outside, content, known, rest⟩ := pooled.entries entry member
    exact ⟨outside, content, kept known, rest⟩
  · intro cell member
    obtain ⟨content, known⟩ := pooled.closing cell member
    exact ⟨content, kept known⟩
  · intro id use used
    obtain ⟨task, content, known, inUse⟩ := pooled.uses id use used
    exact ⟨task, content, known, { inUse with cell := kept inUse.cell }⟩

theorem pool (pooled : cache.Pooled) {id : Nat} {task : LockTask}
    (known : cache.locks.tasks id = some task) (working : ∃ lock, task.phase = .working lock)
    (kind : task.kind ≠ .deleteBefore) : (cache.pool id task.path).Pooled := by
  unfold PoolCache.pool
  split
  · next cached found =>
      obtain ⟨outside, content, held, path, state⟩ := pooled.entries _ (get_eq_some found)
      exact pooled.take known working kind held path state outside
  · refine (pooled.newCell task.path).take known working kind (Function.update_self ..) rfl
      nofun fun listed => ?_
    obtain ⟨content, held⟩ := pooled.closing _ listed
    exact Nat.lt_irrefl _ (pooled.fresh _ content held)

theorem openDatabase (pooled : cache.Pooled) {id : Nat} {use : PoolUse}
    (used : cache.uses id = some use) (taken : cache.openDatabase id use = some after) :
    after.Pooled := by
  obtain ⟨task, content, known, inUse⟩ := pooled.uses id use used
  obtain ⟨other, held, taken⟩ := Option.bind_eq_some_iff.mp taken
  cases inUse.cell.symm.trans held
  cases taken
  generalize filled : (if content.state = .empty then { content with state := .opened }
    else content : PoolCell) = later
  have path : later.path = content.path := by
    rw [← filled]
    split <;> rfl
  have opened : later.state ≠ .empty := by
    rw [← filled]
    split
    · nofun
    · assumption
  have closed : later.state = .closed → content.state = .closed := by
    rw [← filled]
    split
    · nofun
    · exact fun closed => closed
  refine ⟨pooled.locks, ?_, ?_, pooled.single, ?_, ?_, pooled.evicted⟩
  · intro cell held' found
    by_cases same : cell = use.cell
    · rw [same]
      exact pooled.fresh _ content held
    · exact pooled.fresh cell held' ((Function.update_of_ne same ..).symm.trans found)
  · intro entry member
    obtain ⟨outside, held', known', path', state⟩ := pooled.entries entry member
    by_cases same : entry.2.cell = use.cell
    · rw [same] at known' ⊢
      cases held.symm.trans known'
      exact ⟨same ▸ outside, later, Function.update_self .., path.trans path', mt closed state⟩
    · exact ⟨outside, held', (Function.update_of_ne same ..).trans known', path', state⟩
  · intro cell member
    by_cases same : cell = use.cell
    · exact ⟨later, by rw [same]; exact Function.update_self ..⟩
    · obtain ⟨held', found⟩ := pooled.closing cell member
      exact ⟨held', (Function.update_of_ne same ..).trans found⟩
  · intro other use' used'
    by_cases same : other = id
    · subst same
      simp only [setUse, Function.update_self, Option.some.injEq] at used'
      subst used'
      refine ⟨task, later, known, inUse.working, inUse.kind, Function.update_self ..,
        path.trans inUse.path, inUse.entry, inUse.since, ?_, fun _ => opened⟩
      exact fun gone => inUse.overdue (gone.imp_right closed)
    · simp only [setUse, Function.update_of_ne same] at used'
      obtain ⟨task', content', known', inUse'⟩ := pooled.uses other use' used'
      have away := pooled.elsewhere known inUse.working known'
        (guarded_of_working inUse'.working) same
      have apart : use'.cell ≠ use.cell := by
        intro sameCell
        have found := inUse'.cell
        rw [sameCell] at found
        cases held.symm.trans found
        exact away (inUse'.path.symm.trans inUse.path)
      exact ⟨task', content', known', { inUse' with
        cell := (Function.update_of_ne apart ..).trans inUse'.cell }⟩

theorem remove (pooled : cache.Pooled) (path : String) : (cache.remove path).Pooled := by
  have kept : ∀ {entry}, entry ∈ (cache.remove path).entries → entry ∈ cache.entries :=
    fun member => (List.mem_filter.mp member).1
  refine ⟨pooled.locks, pooled.fresh, ?_, ?_, pooled.closing, ?_, ?_⟩
  · exact fun entry member => pooled.entries entry (kept member)
  · exact fun one member two member' => pooled.single one (kept member) two (kept member')
  · intro id use used
    obtain ⟨task, content, known, inUse⟩ := pooled.uses id use used
    exact ⟨task, content, known, { inUse with
      entry := fun entry member => inUse.entry entry (kept member) }⟩
  · exact fun id task known evicted entry member =>
      pooled.evicted id task known evicted entry (kept member)

/-- Before a deletion unlinks the file, it closes the pool that nobody else can be using. -/
theorem evict (pooled : cache.Pooled) {id : Nat} {task : LockTask}
    (known : cache.locks.tasks id = some task) (working : ∃ lock, task.phase = .working lock)
    (kind : task.kind = .deleteBefore) : (cache.evict task.path).Pooled := by
  unfold PoolCache.evict
  split
  · next cached found =>
      obtain ⟨-, content, held, path, -⟩ := pooled.entries _ (get_eq_some found)
      refine (pooled.remove task.path).close ?_ ?_
      · intro entry member same
        obtain ⟨present, away⟩ := List.mem_filter.mp member
        obtain ⟨-, content', held', path', -⟩ := pooled.entries entry present
        rw [same] at held'
        cases held.symm.trans held'
        exact of_decide_eq_true away (path'.symm.trans path)
      · intro other use used same
        obtain ⟨task', content', known', inUse⟩ := pooled.uses other use used
        have held' := inUse.cell
        rw [same] at held'
        cases held.symm.trans held'
        obtain rfl := pooled.alone known known' (path.symm.trans inUse.path)
          (guarded_of_working working) (guarded_of_working inUse.working)
        cases known.symm.trans known'
        exact absurd kind inUse.kind
  · exact pooled

theorem entries_evict (path : String) : ∀ entry ∈ (cache.evict path).entries, entry.1 ≠ path := by
  unfold PoolCache.evict
  split
  · rw [close_eq]
    intro entry member
    exact of_decide_eq_true (List.mem_filter.mp member).2
  · next missing => exact get_eq_none missing

theorem setUse_none (pooled : cache.Pooled) (id : Nat) : (cache.setUse id none).Pooled := by
  refine ⟨pooled.locks, pooled.fresh, pooled.entries, pooled.single, pooled.closing, ?_,
    pooled.evicted⟩
  intro other use used
  by_cases same : other = id
  · subst same
    simp [setUse] at used
  · simp only [setUse, Function.update_of_ne same] at used
    obtain ⟨task, content, known, inUse⟩ := pooled.uses other use used
    exact ⟨task, content, known, { inUse with }⟩

/-- The tasks may move on as long as nobody who uses a pool is moved. -/
theorem setLocks (pooled : cache.Pooled) {locks : OperationLocks} (inv : LocksInv locks)
    (kept : ∀ id use task, cache.uses id = some use → cache.locks.tasks id = some task →
      (∃ lock, task.phase = .working lock) → task.kind ≠ .deleteBefore →
        locks.tasks id = some task)
    (evicted : ∀ id task, locks.tasks id = some task → Evicted task →
      ∀ entry ∈ cache.entries, entry.1 ≠ task.path) : Pooled { cache with locks } := by
  refine ⟨inv, pooled.fresh, pooled.entries, pooled.single, pooled.closing, ?_, evicted⟩
  intro id use used
  obtain ⟨task, content, known, inUse⟩ := pooled.uses id use used
  exact ⟨task, content, kept id use task used known inUse.working inUse.kind, { inUse with }⟩

theorem locks_moved (cache : PoolCache) (action : LockAction) :
    (cache.moved action).locks = cache.locks := by
  unfold moved
  split
  · rfl
  · rfl
  · split
    · unfold PoolCache.evict
      split
      · rw [close_eq]
        rfl
      · rfl
    · rfl
  · rfl

/-- A task that ends gives up its pool. -/
theorem uses_moved {action : LockAction} {id : Nat} {use : PoolUse}
    (used : (cache.moved action).uses id = some use) :
    action ≠ .finish id ∧ action ≠ .cancel id := by
  constructor
  · rintro rfl
    simp [moved, setUse] at used
  · rintro rfl
    simp [moved, setUse] at used

theorem moved (pooled : cache.Pooled) {action : LockAction} {locks : OperationLocks}
    (taken : cache.locks.step action = some locks) : (cache.moved action).Pooled := by
  cases action with
  | finish id | cancel id => exact pooled.setUse_none id
  | evict id =>
      obtain ⟨next, becomes, -⟩ := tasks_of_step taken
      cases becomes with
      | waits known had calm =>
          obtain ⟨task, found, rest⟩ := Option.bind_eq_some_iff.mp taken
          cases known.symm.trans found
          split at rest
          · next phase => simp [phase, LockPhase.guard?] at had
          · cases rest
      | evicts known kind phase =>
          simp only [PoolCache.moved, known]
          exact pooled.evict known ⟨_, phase⟩ kind
  | start | lookUp | enqueue | acquire | removeFile | forgetPath => exact pooled

theorem lock (pooled : cache.Pooled) {action : LockAction} {locks : OperationLocks}
    (permitted : NoStaleLock cache.locks action)
    (taken : cache.locks.step action = some locks) :
    Pooled { cache.moved action with locks } := by
  have before := locks_moved cache action
  refine (pooled.moved taken).setLocks (pooled.locks.step permitted taken) ?_ ?_
  · intro id use task used known working kind
    rw [before] at known
    exact task_kept taken known working kind (uses_moved used)
  · intro id task known evicted
    rcases task_evicted taken known evicted with ⟨earlier, found, already, path⟩ | ⟨rfl, here⟩
    · rw [← path]
      exact (pooled.moved taken).evicted id earlier (by rw [before]; exact found) already
    · obtain ⟨earlier, lock, found, phase, path⟩ := here
      rw [← path]
      simp only [PoolCache.moved, found]
      exact entries_evict earlier.path

theorem step (pooled : cache.Pooled) {action : PoolAction}
    (permitted : ∀ lock, action = .lock lock → NoStaleLock cache.locks lock)
    (taken : cache.step action = some after) : after.Pooled := by
  cases action with
  | elapse ms =>
      cases taken
      exact pooled.elapse ms
  | lock action =>
      obtain ⟨locks, moved, taken⟩ := Option.bind_eq_some_iff.mp taken
      cases taken
      exact pooled.lock (permitted action rfl) moved
  | pool id =>
      obtain ⟨task, known, taken⟩ := Option.bind_eq_some_iff.mp taken
      split at taken
      · next lock kind phase _ =>
          cases taken
          exact pooled.pool known ⟨lock, phase⟩ (by simp [kind])
      · next lock kind phase _ =>
          cases taken
          exact pooled.pool known ⟨lock, phase⟩ (by simp [kind])
      · cases taken
  | openDatabase id =>
      obtain ⟨use, used, taken⟩ := Option.bind_eq_some_iff.mp taken
      split at taken
      · cases taken
      · exact pooled.openDatabase used taken
  | sweep =>
      cases taken
      exact pooled.sweep
  | closeAll =>
      cases taken
      exact pooled.closeAll
  | closeEntry cell =>
      dsimp only [PoolCache.step] at taken
      split at taken
      · next listed =>
          cases taken
          exact pooled.closeEntry listed
      · cases taken

end Pooled

theorem pooled_start (keepAlive : Nat) : Pooled { keepAlive } where
  locks := locksInv_start
  fresh := nofun
  entries := nofun
  single := nofun
  closing := nofun
  uses := nofun
  evicted := nofun

/-- A mutex is created for a path only while no task has another one of that path. -/
def NoStaleLock (cache : PoolCache) : PoolAction → Prop
  | .lock action => OperationLocks.NoStaleLock cache.locks action
  | _ => True

/-- The cell is in the map, or an operation has it. -/
def InService (cache : PoolCache) (cell : Nat) : Prop :=
  (∃ entry ∈ cache.entries, entry.2.cell = cell) ∨
    ∃ id use, cache.uses id = some use ∧ use.cell = cell

/-- The connections in service: one for each path, none of a file that is about to be unlinked,
and none closed that an operation got more recently than it would be kept unused. -/
structure Connected (cache : PoolCache) : Prop where
  single : ∀ one two first second, cache.InService one → cache.InService two →
    cache.cells one = some first → cache.cells two = some second → first.path = second.path →
      one = two
  unlinked : ∀ id task, cache.locks.tasks id = some task → Evicted task →
    ∀ cell content, cache.InService cell → cache.cells cell = some content →
      content.path ≠ task.path
  kept : ∀ id use content, cache.uses id = some use → cache.cells use.cell = some content →
    content.state = .closed → cache.Overdue use

namespace Pooled

/-- The path of a cell in service has its entry, its operation, or both. -/
theorem service_cases (pooled : cache.Pooled) {cell : Nat} {content : PoolCell}
    (service : cache.InService cell) (held : cache.cells cell = some content) :
    (∃ cached, (content.path, cached) ∈ cache.entries ∧ cached.cell = cell) ∨
      ∃ id use task, cache.uses id = some use ∧ use.cell = cell ∧
        cache.locks.tasks id = some task ∧ cache.InUse use task content := by
  rcases service with ⟨⟨path, cached⟩, member, rfl⟩ | ⟨id, use, used, rfl⟩
  · obtain ⟨-, other, known, rfl, -⟩ := pooled.entries _ member
    cases held.symm.trans known
    exact .inl ⟨cached, member, rfl⟩
  · obtain ⟨task, other, known, inUse⟩ := pooled.uses id use used
    cases held.symm.trans inUse.cell
    exact .inr ⟨id, use, task, used, rfl, known, inUse⟩

theorem connected (pooled : cache.Pooled) : cache.Connected where
  single := by
    intro one two first second service service' held held' samePath
    rcases pooled.service_cases service held with
      ⟨cached, member, rfl⟩ | ⟨id, use, task, used, rfl, known, inUse⟩
    · rcases pooled.service_cases service' held' with
        ⟨cached', member', rfl⟩ | ⟨id', use', task', used', rfl, known', inUse'⟩
      · exact congrArg (fun entry => entry.2.cell) (pooled.single _ member _ member' samePath)
      · rw [show cached = _ from inUse'.entry _ member (samePath.trans inUse'.path)]
    · rcases pooled.service_cases service' held' with
        ⟨cached', member', rfl⟩ | ⟨id', use', task', used', rfl, known', inUse'⟩
      · rw [show cached' = _ from inUse.entry _ member' (samePath.symm.trans inUse.path)]
      · have paths : task.path = task'.path :=
          inUse.path.symm.trans (samePath.trans inUse'.path)
        obtain rfl := pooled.alone known known' paths (guarded_of_working inUse.working)
          (guarded_of_working inUse'.working)
        cases used.symm.trans used'
        rfl
  unlinked := by
    intro id task known evicted cell content service held
    rcases pooled.service_cases service held with
      ⟨cached, member, rfl⟩ | ⟨id', use, task', used, rfl, known', inUse⟩
    · exact pooled.evicted id task known evicted _ member
    · rw [inUse.path]
      exact (pooled.evicted_elsewhere known' inUse.working known evicted).symm
  kept := by
    intro id use content used held closed
    obtain ⟨task, other, known, inUse⟩ := pooled.uses id use used
    cases held.symm.trans inUse.cell
    exact inUse.overdue (.inr closed)

end Pooled

/-- What the cache of connections keeps to in every run in which operations exclude each other. -/
theorem pools_connected {keepAlive : Nat}
    (reached : (poolCache keepAlive).Reachable NoStaleLock cache) : cache.Connected := by
  have pooled : cache.Pooled := by
    apply reached.invariant Pooled (pooled_start keepAlive)
    intro before later action pooled permitted taken
    exact pooled.step (fun lock same => by subst same; exact permitted) taken
  exact pooled.connected

/-- A mutex that is in the map is none that the step creates. -/
def looksUpMapped (cache : PoolCache) : PoolAction → Bool
  | .lock action => cache.locks.looksUpMapped action
  | _ => true

theorem noStaleLock_of_looksUpMapped {action : PoolAction}
    (mapped : cache.looksUpMapped action = true) : cache.NoStaleLock action := by
  cases action with
  | lock action => exact noStaleLock_of_mapped mapped
  | elapse | pool | openDatabase | sweep | closeAll | closeEntry => exact trivial

/-- The janitor closes the pool of a query that takes too long, and the next operation opens
another one. -/
theorem pools_connected_slow_query : ∃ (cache : PoolCache) (use : PoolUse),
    cache.uses 0 = some use ∧
      (cache.cells use.cell).map PoolCell.state = some .closed ∧ cache.Connected := by
  have nothing : (poolCache 300).Reachable NoStaleLock (poolCache 300).start := .start
  have started := nothing.step (.lock (.start 0 .query "web/2023_w46.db")) trivial rfl
  have created := started.step (.lock (.lookUp 0)) (by
    intro task known _ other holder found _
    by_cases same : other = 0
    · rw [same] at found
      cases found
      rfl
    · exact absurd ((Function.update_of_ne same ..).symm.trans found).symm (Option.some_ne_none _))
    rfl
  have closed := @created.run _ _ _ _ looksUpMapped (fun _ _ => noStaleLock_of_looksUpMapped) _ _
    [.lock (.enqueue 0), .lock (.acquire 0), .pool 0, .openDatabase 0, .elapse 300, .sweep,
      .closeEntry 0] rfl
  exact ⟨_, _, rfl, rfl, pools_connected closed⟩

end PoolCache

end Vpsiner.Logs
