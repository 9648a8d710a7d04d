import Vpsiner.Logs.Accounted
import Vpsiner.Logs.Pipeline
import Vpsiner.Logs.RetentionProperties

/-! Where the lines are that the daemon has sent: in the channel, in memory or in the store. -/

set_option autoImplicit false

namespace Vpsiner.Logs

open Lib Retention

/-! ## Resuming -/

/-- A task asks for no second after its checkpoint, the cutoff and the first second there is. -/
theorem logSinceSecs_le {weeks : Nat} {now cutoff since : Int} {checkpoint : Option LogCheckpoint}
    (found : retentionCutoffMs now weeks = some cutoff)
    (resumes : logSinceSecs checkpoint now weeks = some since) :
    since * 1000 ≤ max (resumePoint checkpoint cutoff) (i32Min * 1000) := by
  have clamped : ∀ value, clampToI32 value ≤ max value i32Min := by
    intro value
    unfold clampToI32
    split
    · exact le_max_right _ _
    · split <;> omega
  simp only [logSinceSecs, found, Option.bind_eq_bind, Option.bind_some, Option.pure_def,
    Option.some.injEq] at resumes
  rw [← resumes]
  cases checkpoint with
  | none =>
      have bound := clamped (cutoff / 1000)
      simp only [Option.map_none, Option.getD_none, resumePoint]
      omega
  | some stored =>
      have bound := clamped (max (stored.ts / 1000) (cutoff / 1000))
      simp only [Option.map_some, Option.getD_some, resumePoint]
      omega

theorem split_at_since {lines : List LogLine}
    (ordered : lines.Pairwise fun earlier later => earlier.ts ≤ later.ts) (since : Int) :
    ∃ older, lines = older ++ replayFrom since lines ∧ ∀ line ∈ older, line.ts < since * 1000 := by
  have parted : Partitioned (fun line : LogLine => decide (line.ts / 1000 < since)) lines := by
    apply Partitioned.of_sorted ordered
    intro earlier later le before
    simp only [decide_eq_true_eq] at before ⊢
    omega
  have replay : replayFrom since lines =
      lines.dropWhile fun line => decide (line.ts / 1000 < since) := by
    rw [parted.dropWhile_eq_filter, replayFrom]
    apply List.filter_congr
    intro line _
    simp [← decide_not]
  refine ⟨lines.takeWhile fun line => decide (line.ts / 1000 < since), ?_, ?_⟩
  · rw [replay, List.takeWhile_append_dropWhile]
  · intro line member
    have before := List.mem_takeWhile_imp member
    simp only [decide_eq_true_eq] at before
    omega

namespace LogPipeline

variable {config : PipelineConfig} {state before after : LogPipeline} {cid : ContainerId}

def Held (config : PipelineConfig) (state : LogPipeline) (line : LogLine) : Prop :=
  identity config.buffer line ∈ state.buffer.held config.buffer

def Stored (config : PipelineConfig) (state : LogPipeline) (line : LogLine) : Prop :=
  identity config.buffer line ∈ state.buffer.stored config.buffer

/-- What an open stream has sent is on its way or held. -/
structure Reads (config : PipelineConfig) (state : LogPipeline) (cid : ContainerId) (since : Int)
    (unread : List LogLine) : Prop where
  sent : ∃ read, state.daemon cid = read ++ unread ∧
    ∀ line ∈ read, Wanted state.horizon line → line ∈ state.channel ∨ Held config state line
  late : ∀ line ∈ unread, since ≤ line.ts / 1000
  since : since * 1000 ≤ state.horizon ∨ ∃ line ∈ state.daemon cid, since * 1000 ≤ line.ts

/-- `inOrder` is the order of the channel: when a line is taken from it, the older lines of its
container are held. -/
structure PipelineInv (config : PipelineConfig) (state : LogPipeline) : Prop where
  live : state.buffer.WorkerLive
  expressible : i32Min * 1000 ≤ state.horizon
  owned : ∀ cid, ∀ line ∈ state.daemon cid, line.cid = cid
  ordered : ∀ cid, (state.daemon cid).Pairwise fun earlier later => earlier.ts ≤ later.ts
  sent : ∀ line ∈ state.channel, line ∈ state.daemon line.cid
  inOrder : ∀ earlier line later, state.channel = earlier ++ line :: later →
    ∀ old ∈ state.daemon line.cid, old.ts < line.ts → Wanted state.horizon old →
      old ∈ earlier ∨ Held config state old
  known : ∀ cid mark, state.buffer.Knows cid mark → Covers config.buffer state.horizon
    (state.buffer.held config.buffer) (state.daemon cid) mark.checkpoint
  persisted : ∀ cid checkpoint, state.buffer.checkpointOfContainer cid = some checkpoint →
    Covers config.buffer state.horizon (state.buffer.stored config.buffer) (state.daemon cid)
      checkpoint
  loaded : ∀ cid checkpoint, state.tasks cid = some (.loaded (some checkpoint)) →
    Covers config.buffer state.horizon (state.buffer.stored config.buffer) (state.daemon cid)
      checkpoint
  following : ∀ cid since unread, state.tasks cid = some (.following since unread) →
    Reads config state cid since unread
  genuine : ∀ key ∈ state.buffer.held config.buffer,
    ∃ line ∈ state.daemon key.1, identity config.buffer line = key

/-- No line that is in memory would be dropped under a checkpoint that is stored. -/
def LetsMemoryPass (config : PipelineConfig) (before : LogPipeline) : PipelineAction → Prop
  | .buffer (.advanceReturns flusher true) => ∀ cid mark rest,
      before.buffer.phase flusher = some (.advancing ((cid, mark) :: rest)) →
      (∀ stored ∈ before.buffer.metadata cid, stored.checkpoint.ts ≤ mark.checkpoint.ts) →
      ∀ entry ∈ before.buffer.inMemory, entry.line.cid = cid →
        passes config.buffer (some mark.checkpoint) entry.line = true
  | _ => True

/-! ## Steps of the buffer and of a retention pass -/

/-- What is wanted stays where it is. -/
structure Retains (config : PipelineConfig) (state : LogPipeline) (buffer : LogBuffer)
    (horizon : Int) : Prop where
  moved : state.horizon ≤ horizon
  stored : ∀ line, Wanted horizon line → Stored config state line →
    identity config.buffer line ∈ buffer.stored config.buffer
  held : ∀ line, Wanted horizon line → Held config state line →
    identity config.buffer line ∈ buffer.held config.buffer

theorem PipelineInv.setBuffer (inv : PipelineInv config state) {buffer : LogBuffer} {horizon : Int}
    (pruning : Option Int) (retains : Retains config state buffer horizon)
    (live : buffer.WorkerLive)
    (known : ∀ cid mark, buffer.Knows cid mark → state.buffer.Knows cid mark ∨
      Covers config.buffer horizon (buffer.held config.buffer) (state.daemon cid) mark.checkpoint)
    (persisted : ∀ cid checkpoint, buffer.checkpointOfContainer cid = some checkpoint →
      state.buffer.checkpointOfContainer cid = some checkpoint ∨
        Covers config.buffer horizon (buffer.stored config.buffer) (state.daemon cid) checkpoint)
    (genuine : ∀ key ∈ buffer.held config.buffer, key ∈ state.buffer.held config.buffer ∨
      ∃ line ∈ state.daemon key.1, identity config.buffer line = key) :
    PipelineInv config { state with buffer, horizon, pruning } where
  live := live
  expressible := inv.expressible.trans retains.moved
  owned := inv.owned
  ordered := inv.ordered
  sent := inv.sent
  inOrder earlier line later split old member older wanted := by
    have placed := inv.inOrder earlier line later split old member older
      (wanted.mono retains.moved)
    exact placed.imp_right (retains.held old wanted)
  known cid mark knows := by
    rcases known cid mark knows with old | covers
    · exact (inv.known cid mark old).mono retains.moved retains.held
    · exact covers
  persisted cid checkpoint stored := by
    rcases persisted cid checkpoint stored with old | covers
    · exact (inv.persisted cid checkpoint old).mono retains.moved retains.stored
    · exact covers
  loaded cid checkpoint task :=
    (inv.loaded cid checkpoint task).mono retains.moved retains.stored
  following cid since unread task := by
    have reads := inv.following cid since unread task
    obtain ⟨read, split, accounted⟩ := reads.sent
    refine ⟨⟨read, split, fun line member wanted => ?_⟩, reads.late, ?_⟩
    · exact (accounted line member (wanted.mono retains.moved)).imp_right
        (retains.held line wanted)
    · exact reads.since.imp_left fun bound => bound.trans retains.moved
  genuine key member := by
    rcases genuine key member with old | new
    · exact inv.genuine key old
    · exact new

theorem PipelineInv.stepBuffer (inv : PipelineInv config state) {action : BufferAction}
    {buffer : LogBuffer} (other : ∀ line, action ≠ .push line)
    (allowed : LetsMemoryPass config state (.buffer action))
    (taken : state.buffer.step config.buffer action = some buffer) :
    PipelineInv config { state with buffer } := by
  have effect := LogBuffer.step_effect inv.live taken
  have stored := LogBuffer.stored_step effect
  apply inv.setBuffer state.pruning
  · exact ⟨le_refl _, fun _ _ member => stored member,
      fun line wanted => LogBuffer.held_step effect wanted.2⟩
  · exact LogBuffer.live_step inv.live taken
  · intro cid mark knows
    rcases LogBuffer.knows_step inv.live taken knows with old | ⟨line, push, _⟩
    · exact .inl old
    · exact absurd push (other line)
  · intro cid checkpoint present
    cases effect with
    | accepts => exact absurd rfl (other _)
    | lands _ _ _ _ metadata =>
        exact .inl (by simpa [LogBuffer.checkpointOfContainer, metadata] using present)
    | fails _ _ _ _ _ metadata =>
        exact .inl (by simpa [LogBuffer.checkpointOfContainer, metadata] using present)
    | quiet _ _ stores =>
        exact .inl (by simpa [LogBuffer.checkpointOfContainer, stores.metadata] using present)
    | advances owner mark rest phase metadata =>
        simp only [LogBuffer.checkpointOfContainer, metadata, LogBuffer.advanceLogCheckpoint]
          at present
        split at present
        · exact .inl present
        · next newest =>
            rw [Function.update_apply] at present
            split at present
            · next same =>
                cases present
                subst same
                right
                have covers := inv.known cid mark
                  (LogBuffer.knows_flying phase List.mem_cons_self)
                refine ⟨covers.source, fun line member wanted drops => stored ?_⟩
                rcases List.mem_append.mp (covers.dropped line member wanted drops) with row | entry
                · exact row
                · obtain ⟨entry, inMemory, same⟩ := List.mem_map.mp entry
                  have own : entry.line.cid = cid :=
                    (congrArg Prod.fst same).trans (inv.owned cid line member)
                  have passed := allowed cid mark rest phase (fun stored present => ?_) entry
                    inMemory own
                  · have dropped := passes_eq_false_iff.mp drops
                    have stamp : checkpointOf config.buffer entry.line =
                        checkpointOf config.buffer line := congrArg Prod.snd same
                    have ts : entry.line.ts = line.ts := congrArg LogCheckpoint.ts stamp
                    have again : passes config.buffer (some mark.checkpoint) entry.line = false :=
                      passes_eq_false_iff.mpr (by rwa [ts, stamp])
                    rw [passed] at again
                    cases again
                  · by_contra older
                    refine newest ((Option.any_eq_true _ _).mpr ⟨stored, present, ?_⟩)
                    exact decide_eq_true (not_le.mp older)
            · exact .inl present
  · intro key member
    rcases LogBuffer.held_back effect member with old | ⟨line, push, _⟩
    · exact .inl old
    · exact absurd push (other line)

theorem PipelineInv.deleteBefore (inv : PipelineInv config state) {fates : WalkFates} {now : Int}
    (taken : state.deleteBefore config fates now = some after) : PipelineInv config after := by
  obtain ⟨cutoffMs, found, taken⟩ := Option.bind_eq_some_iff.mp taken
  cases taken
  have aligned := retentionCutoffMs_aligned found
  obtain ⟨shrunk, recent⟩ := entries_deleteBefore aligned state.buffer.logs fates
    config.buffer.service
  have stored : ∀ line, Wanted (max state.horizon cutoffMs) line → Stored config state line →
      identity config.buffer line ∈ LogBuffer.stored config.buffer
        { state.buffer with logs := (state.buffer.logs.deleteBefore fates cutoffMs).1 } := by
    intro line wanted present
    obtain ⟨row, member, same⟩ := List.mem_map.mp present
    obtain ⟨_, _, _, time⟩ := SqliteLogStore.of_mem_entries member
    have ts : row.line.ts = line.ts := congrArg (fun key => key.2.ts) same
    have bound : cutoffMs ≤ row.ts := by
      have := (le_max_right state.horizon cutoffMs).trans wanted.1
      omega
    exact List.mem_map.mpr ⟨row, recent row member bound, same⟩
  apply inv.setBuffer
  · refine ⟨le_max_left _ _, stored, fun line wanted present => ?_⟩
    rcases List.mem_append.mp present with row | entry
    · exact List.mem_append_left _ (stored line wanted row)
    · exact List.mem_append_right _ entry
  · exact inv.live
  · exact fun cid mark knows => .inl knows
  · exact fun cid checkpoint present => .inl present
  · intro key member
    rcases List.mem_append.mp member with row | entry
    · exact .inl (List.mem_append_left _ (List.map_subset _ shrunk row))
    · exact .inl (List.mem_append_right _ entry)

theorem PipelineInv.pruneCheckpoints (inv : PipelineInv config state)
    (taken : state.pruneCheckpoints = some after) : PipelineInv config after := by
  obtain ⟨cutoffMs, _, rfl⟩ := Option.map_eq_some_iff.mp taken
  apply inv.setBuffer
  · exact ⟨le_refl _, fun _ _ present => present, fun _ _ present => present⟩
  · exact inv.live
  · rintro cid mark (stamped | stored | flying)
    · exact .inl (.inl stamped)
    · exact .inl (.inr (.inl (Option.eq_some_of_filter_eq_some stored)))
    · exact .inl (.inr (.inr flying))
  · intro cid checkpoint present
    obtain ⟨mark, stored, same⟩ := Option.map_eq_some_iff.mp present
    exact .inl (Option.map_eq_some_iff.mpr ⟨mark, Option.eq_some_of_filter_eq_some stored, same⟩)
  · exact fun key member => .inl member

/-! ## Steps of the daemon and of the log tasks -/

/-- What a written line changes. -/
structure Written (state : LogPipeline) (line : LogLine) (after : LogPipeline) : Prop where
  last : ∀ earlier ∈ state.daemon line.cid, earlier.ts ≤ line.ts
  daemon : ∀ cid, after.daemon cid = state.daemon cid ++ if cid = line.cid then [line] else []
  tasks : ∀ cid, after.tasks cid =
    if cid = line.cid then (state.tasks cid).map (LogTaskPhase.tell line) else state.tasks cid
  channel : after.channel = state.channel
  buffer : after.buffer = state.buffer
  horizon : after.horizon = state.horizon

theorem written_of_write {line : LogLine} (taken : state.write config line = some after) :
    Written state line after := by
  unfold LogPipeline.write at taken
  split at taken
  · next guarded =>
      cases taken
      refine ⟨guarded.2, fun cid => ?_, fun cid => ?_, rfl, rfl, rfl⟩
      · simp only [Function.update_apply]
        split
        · next same => rw [same]
        · simp
      · simp only [Function.update_apply]
        split
        · next same => rw [same]
        · rfl
  · cases taken

variable {line : LogLine}

theorem Written.mem (written : Written state line after) {old : LogLine}
    (member : old ∈ after.daemon cid) : old ∈ state.daemon cid ∨ cid = line.cid ∧ old = line := by
  rw [written.daemon] at member
  rcases List.mem_append.mp member with before | new
  · exact .inl before
  · split at new
    · next same => exact .inr ⟨same, List.mem_singleton.mp new⟩
    · cases new

theorem Written.subset (written : Written state line after) (cid : ContainerId) :
    state.daemon cid ⊆ after.daemon cid := by
  rw [written.daemon]
  exact List.subset_append_left _ _

theorem Written.covers (written : Written state line after) (inv : PipelineInv config state)
    {accounted : List (ContainerId × LogCheckpoint)} {checkpoint : LogCheckpoint}
    (covers : Covers config.buffer state.horizon accounted (state.daemon cid) checkpoint) :
    Covers config.buffer after.horizon accounted (after.daemon cid) checkpoint := by
  rw [written.daemon, written.horizon]
  split
  · next same =>
      subst same
      exact covers.write (inv.owned line.cid) rfl written.last
  · rwa [List.append_nil]

theorem Written.held (written : Written state line after) {old : LogLine}
    (held : Held config state old) : Held config after old := by
  unfold Held
  rw [written.buffer]
  exact held

/-- A stream that is not told of the line has nothing left to send. -/
theorem Written.reads (written : Written state line after) {since : Int} {unread : List LogLine}
    (reads : Reads config state line.cid since unread) :
    Reads config after line.cid since (unread ++ replayFrom since [line]) := by
  obtain ⟨read, split, accounted⟩ := reads.sent
  have placed : ∀ other ∈ read, Wanted after.horizon other →
      other ∈ after.channel ∨ Held config after other := by
    intro other member wanted
    rw [written.horizon] at wanted
    rw [written.channel]
    exact (accounted other member wanted).imp_right written.held
  have bound : since * 1000 ≤ state.horizon ∨ since * 1000 ≤ line.ts :=
    reads.since.imp_right fun ⟨old, member, le⟩ => le.trans (written.last old member)
  refine ⟨?_, ?_, ?_⟩
  · by_cases told : since ≤ line.ts / 1000
    · refine ⟨read, ?_, placed⟩
      simp [written.daemon, split, replayFrom, told]
    · have none : unread = [] := by
        refine List.eq_nil_iff_forall_not_mem.mpr fun other member => ?_
        have late := reads.late other member
        have le := written.last other (split ▸ List.mem_append_right read member)
        omega
      refine ⟨read ++ [line], ?_, fun other member wanted => ?_⟩
      · simp [written.daemon, split, none, replayFrom, told]
      · rcases List.mem_append.mp member with old | new
        · exact placed other old wanted
        · have start := wanted.1
          rw [List.mem_singleton.mp new, written.horizon] at start
          omega
  · intro other member
    rcases List.mem_append.mp member with old | new
    · exact reads.late other old
    · exact of_decide_eq_true (List.mem_filter.mp new).2
  · rw [written.horizon]
    refine bound.imp_right fun le => ⟨line, ?_, le⟩
    simp [written.daemon]

theorem Written.keeps (written : Written state line after) {since : Int} {unread : List LogLine}
    (other : cid ≠ line.cid) (reads : Reads config state cid since unread) :
    Reads config after cid since unread := by
  have same : after.daemon cid = state.daemon cid := by simp [written.daemon, other]
  obtain ⟨read, split, accounted⟩ := reads.sent
  refine ⟨⟨read, same.trans split, fun old member wanted => ?_⟩, reads.late, ?_⟩
  · rw [written.horizon] at wanted
    rw [written.channel]
    exact (accounted old member wanted).imp_right written.held
  · rw [same, written.horizon]
    exact reads.since

theorem PipelineInv.write (inv : PipelineInv config state) (written : Written state line after) :
    PipelineInv config after where
  live := written.buffer ▸ inv.live
  expressible := written.horizon ▸ inv.expressible
  owned cid other member := by
    rcases written.mem member with old | ⟨same, rfl⟩
    · exact inv.owned cid other old
    · exact same.symm
  ordered cid := by
    rw [written.daemon]
    split
    · next same =>
        subst same
        refine List.pairwise_append.mpr ⟨inv.ordered _, List.pairwise_singleton _ _, ?_⟩
        intro earlier member later new
        rw [List.mem_singleton.mp new]
        exact written.last earlier member
    · rw [List.append_nil]
      exact inv.ordered cid
  sent other member := written.subset _ (inv.sent other (written.channel ▸ member))
  inOrder earlier other later split old member older wanted := by
    rw [written.channel] at split
    rw [written.horizon] at wanted
    rcases written.mem member with before | ⟨same, rfl⟩
    · exact (inv.inOrder earlier other later split old before older wanted).imp_right written.held
    · have inChannel : other ∈ state.channel := split ▸ by simp
      have le := written.last other (same ▸ inv.sent other inChannel)
      omega
  known cid mark knows := by
    rw [written.buffer] at knows ⊢
    exact written.covers inv (inv.known cid mark knows)
  persisted cid checkpoint stored := by
    rw [written.buffer] at stored ⊢
    exact written.covers inv (inv.persisted cid checkpoint stored)
  loaded cid checkpoint task := by
    rw [written.buffer]
    apply written.covers inv
    apply inv.loaded cid checkpoint
    rw [written.tasks] at task
    split at task
    · obtain ⟨phase, running, told⟩ := Option.map_eq_some_iff.mp task
      cases phase with
      | loaded other =>
          cases told
          exact running
      | following since unread => cases told
    · exact task
  following cid since unread task := by
    rw [written.tasks] at task
    split at task
    · next same =>
        subst same
        obtain ⟨phase, running, told⟩ := Option.map_eq_some_iff.mp task
        cases phase with
        | loaded other => cases told
        | following first rest =>
            cases told
            exact written.reads (inv.following _ _ _ running)
    · next other => exact written.keeps other (inv.following cid since unread task)
  genuine key member := by
    rw [written.buffer] at member
    obtain ⟨source, present, same⟩ := inv.genuine key member
    exact ⟨source, written.subset _ present, same⟩

/-- A task changes its phase, and lines are put into the channel. -/
theorem PipelineInv.setTask (inv : PipelineInv config state) (cid : ContainerId)
    (phase : Option LogTaskPhase) (sent : List LogLine) {horizon : Int}
    (moved : state.horizon ≤ horizon)
    (own : ∀ line ∈ sent, line ∈ state.daemon line.cid)
    (inOrder : ∀ earlier line later, sent = earlier ++ line :: later →
      ∀ old ∈ state.daemon line.cid, old.ts < line.ts → Wanted horizon old →
        old ∈ state.channel ++ earlier ∨ Held config state old)
    (loaded : ∀ checkpoint, phase = some (.loaded (some checkpoint)) →
      Covers config.buffer horizon (state.buffer.stored config.buffer) (state.daemon cid)
        checkpoint)
    (following : ∀ since unread, phase = some (.following since unread) →
      Reads config { state with horizon, channel := state.channel ++ sent } cid since unread) :
    PipelineInv config
      { state.setTask cid phase with horizon, channel := state.channel ++ sent } where
  live := inv.live
  expressible := inv.expressible.trans moved
  owned := inv.owned
  ordered := inv.ordered
  sent line member := (List.mem_append.mp member).elim (inv.sent line) (own line)
  inOrder earlier line later split old member older wanted := by
    rcases List.append_eq_append_iff.mp split with ⟨middle, rfl, rest⟩ | ⟨middle, rest, tail⟩
    · exact inOrder middle line later rest old member older wanted
    · cases middle with
      | nil =>
          have same : state.channel = earlier := by simpa using rest
          have placed := inOrder [] line later (by simpa using tail.symm) old member older wanted
          rw [List.append_nil, same] at placed
          exact placed
      | cons head middle =>
          obtain ⟨rfl, _⟩ := List.cons.inj tail
          exact inv.inOrder earlier line middle rest old member older (wanted.mono moved)
  known cid mark knows := (inv.known cid mark knows).mono moved fun _ _ held => held
  persisted cid checkpoint stored :=
    (inv.persisted cid checkpoint stored).mono moved fun _ _ stored => stored
  loaded other checkpoint task := by
    simp only [LogPipeline.setTask, Function.update_apply] at task
    split at task
    · next same =>
        subst same
        exact loaded checkpoint task
    · exact (inv.loaded other checkpoint task).mono moved fun _ _ stored => stored
  following other since unread task := by
    simp only [LogPipeline.setTask, Function.update_apply] at task
    split at task
    · next same =>
        subst same
        obtain ⟨sent, late, bound⟩ := following since unread task
        exact ⟨sent, late, bound⟩
    · obtain ⟨⟨read, split, accounted⟩, late, bound⟩ := inv.following other since unread task
      refine ⟨⟨read, split, fun line member wanted => ?_⟩, late, ?_⟩
      · exact (accounted line member (wanted.mono moved)).imp_left (List.mem_append_left _)
      · exact bound.imp_left fun le => le.trans moved
  genuine := inv.genuine

/-- A task that sends nothing, and neither waits nor reads. -/
theorem PipelineInv.silent (inv : PipelineInv config state) (cid : ContainerId)
    (phase : Option LogTaskPhase)
    (loaded : ∀ checkpoint, phase = some (.loaded (some checkpoint)) →
      state.buffer.checkpointOfContainer cid = some checkpoint)
    (idle : ∀ since unread, phase ≠ some (.following since unread)) :
    PipelineInv config (state.setTask cid phase) := by
  have set := inv.setTask cid phase [] (le_refl _) nofun (by simp)
    (fun checkpoint same => inv.persisted cid checkpoint (loaded checkpoint same))
    (fun since unread same => absurd same (idle since unread))
  rw [List.append_nil] at set
  exact set

theorem PipelineInv.loadCheckpoint (inv : PipelineInv config state)
    (taken : state.loadCheckpoint cid = some after) : PipelineInv config after := by
  unfold LogPipeline.loadCheckpoint at taken
  split at taken
  · cases taken
    apply inv.silent
    · intro checkpoint same
      injection same with same
      injection same
    · nofun
  · cases taken

theorem PipelineInv.openStream (inv : PipelineInv config state) {now : Int}
    (taken : state.openStream config cid now = some after) : PipelineInv config after := by
  unfold LogPipeline.openStream at taken
  split at taken
  · next checkpoint task =>
      obtain ⟨cutoffMs, found, taken⟩ := Option.bind_eq_some_iff.mp taken
      obtain ⟨since, resumes, taken⟩ := Option.bind_eq_some_iff.mp taken
      cases taken
      have bound := logSinceSecs_le found resumes
      have lowest := inv.expressible
      have set := inv.setTask cid
        (some (.following since (replayFrom since (state.daemon cid)))) []
        (le_max_left state.horizon cutoffMs) nofun (by simp) nofun ?_
      · rw [List.append_nil] at set
        exact set
      · rintro _ _ ⟨⟩
        obtain ⟨older, split, before⟩ := split_at_since (inv.ordered cid) since
        refine ⟨⟨older, split, fun line member wanted => .inr ?_⟩, ?_, ?_⟩
        · have early := before line member
          have start : max state.horizon cutoffMs ≤ line.ts := wanted.1
          cases checkpoint with
          | none =>
              simp only [resumePoint, Option.map_none, Option.getD_none] at bound
              omega
          | some stored =>
              simp only [resumePoint, Option.map_some, Option.getD_some] at bound
              have covers := inv.loaded cid stored task
              have present : line ∈ state.daemon cid := split ▸ List.mem_append_left _ member
              have drops : passes config.buffer (some stored) line = false :=
                passes_eq_false_iff.mpr (.inl (by omega))
              exact LogBuffer.held_of_stored (covers.dropped line present
                (wanted.mono (le_max_left _ _)) drops)
        · intro line member
          exact of_decide_eq_true (List.mem_filter.mp member).2
        · change since * 1000 ≤ max state.horizon cutoffMs ∨
            ∃ line ∈ state.daemon cid, since * 1000 ≤ line.ts
          cases checkpoint with
          | none =>
              simp only [resumePoint, Option.map_none, Option.getD_none] at bound
              exact .inl (by omega)
          | some stored =>
              simp only [resumePoint, Option.map_some, Option.getD_some] at bound
              obtain ⟨source, member, stamped⟩ := (inv.loaded cid stored task).source
              have ts : source.ts = stored.ts := congrArg LogCheckpoint.ts stamped
              by_cases late : since * 1000 ≤ stored.ts
              · exact .inr ⟨source, member, by omega⟩
              · exact .inl (by omega)
  · cases taken

theorem PipelineInv.send (inv : PipelineInv config state)
    (taken : state.send config cid = some after) : PipelineInv config after := by
  unfold LogPipeline.send at taken
  split at taken
  · next since line unread task =>
      split at taken
      · cases taken
        obtain ⟨⟨read, split, accounted⟩, late, bound⟩ := inv.following cid since _ task
        have member : line ∈ state.daemon cid := split ▸ by simp
        have own := inv.owned cid line member
        apply inv.setTask cid (some (.following since unread)) [line] (le_refl _)
        · intro other new
          rw [List.mem_singleton.mp new, own]
          exact member
        · intro earlier other later single old present older wanted
          have alone : earlier = [] ∧ other = line := by
            cases earlier with
            | nil => exact ⟨rfl, (List.cons.inj single).1.symm⟩
            | cons head rest => simp at single
          obtain ⟨rfl, rfl⟩ := alone
          rw [List.append_nil]
          rw [own, split] at present
          rcases List.mem_append.mp present with sent | ahead
          · exact accounted old sent wanted
          · have sorted := (List.pairwise_append.mp (split ▸ inv.ordered cid)).2.1
            rcases List.mem_cons.mp ahead with rfl | rest
            · omega
            · have le := (List.pairwise_cons.mp sorted).1 old rest
              omega
        · nofun
        · rintro _ _ ⟨⟩
          refine ⟨⟨read ++ [line], by simp [split], fun other placed wanted => ?_⟩,
            fun other rest => late other (List.mem_cons_of_mem _ rest), bound⟩
          rcases List.mem_append.mp placed with sent | new
          · exact (accounted other sent wanted).imp_left (List.mem_append_left _)
          · exact .inl (List.mem_append_right _ new)
      · cases taken
  · cases taken

end LogPipeline

end Vpsiner.Logs
