import Vpsiner.Logs.PipelineInvariant

/-! No line is lost on the way from the daemon to the store: what is not stored at a restart is sent
again, and the checkpoints let it through. -/

set_option autoImplicit false

namespace Vpsiner.Logs.LogPipeline

open Lib Retention

variable {config : PipelineConfig} {state before after : LogPipeline} {cid : ContainerId}
  {line : LogLine}

/-! ## Ingestion and restart -/

theorem PipelineInv.takeLine (inv : PipelineInv config state) {rest : List LogLine}
    (channel : state.channel = line :: rest)
    (held : Wanted state.horizon line → Held config state line) :
    PipelineInv config { state with channel := rest } where
  live := inv.live
  expressible := inv.expressible
  owned := inv.owned
  ordered := inv.ordered
  sent other member := inv.sent other (channel ▸ List.mem_cons_of_mem _ member)
  inOrder earlier other later split old member older wanted := by
    have whole : state.channel = (line :: earlier) ++ other :: later :=
      channel.trans (congrArg (line :: ·) split)
    rcases inv.inOrder _ other later whole old member older wanted with ahead | known
    · rcases List.mem_cons.mp ahead with rfl | before
      · exact .inr (held wanted)
      · exact .inl before
    · exact .inr known
  known := inv.known
  persisted := inv.persisted
  loaded := inv.loaded
  following cid since unread task := by
    obtain ⟨⟨read, split, accounted⟩, late, bound⟩ := inv.following cid since unread task
    refine ⟨⟨read, split, fun other member wanted => ?_⟩, late, bound⟩
    rcases accounted other member wanted with queued | known
    · rcases List.mem_cons.mp (channel ▸ queued) with rfl | waiting
      · exact .inr (held wanted)
      · exact .inl waiting
    · exact .inr known
  genuine := inv.genuine

/-- A line that is pushed is put into memory, or it is known already. -/
theorem PipelineInv.held_push (inv : PipelineInv config state)
    (member : line ∈ state.daemon line.cid) (wanted : Wanted state.horizon line) :
    identity config.buffer line ∈ (state.buffer.push config.buffer line).held config.buffer := by
  have effect : LogBuffer.Effect config.buffer state.buffer (.push line)
      (state.buffer.push config.buffer line) := LogBuffer.push_effect inv.live line
  have dedup := @dedupState_push config.buffer state.buffer line
  cases decision : passes config.buffer (dedupState state.buffer line.cid).1 line with
  | true =>
      cases effect with
      | accepts _ _ _ memory _ =>
          exact List.mem_append_right _ (List.mem_map.mpr
            ⟨_, memory.mem_iff.mpr List.mem_cons_self, rfl⟩)
      | quiet _ same _ =>
          rw [dedupState_of_same same, absorb, if_pos decision] at dedup
          have lengths := congrArg (fun state => state.2.length) dedup
          simp [dedupState] at lengths
  | false =>
      apply LogBuffer.held_step effect wanted.2
      cases last : state.buffer.checkpoints line.cid with
      | none => simp [dedupState, last, passes] at decision
      | some mark =>
          apply (inv.known line.cid mark (.inl last)).dropped line member wanted
          simpa [dedupState, last] using decision

theorem PipelineInv.receive (inv : PipelineInv config state)
    (taken : state.receive config = some after) : PipelineInv config after := by
  unfold LogPipeline.receive at taken
  split at taken
  · next line rest channel _ =>
      cases taken
      have held := inv.held_push (inv.sent line (channel ▸ List.mem_cons_self))
      have effect : LogBuffer.Effect config.buffer state.buffer (.push line)
          (state.buffer.push config.buffer line) := LogBuffer.push_effect inv.live line
      have grown := fun old (wanted : Wanted state.horizon old) =>
        @LogBuffer.held_step config.buffer old _ _ _ effect wanted.2
      have pushed : PipelineInv config
          { state with buffer := state.buffer.push config.buffer line } := by
        apply inv.setBuffer state.pruning
        · exact ⟨le_refl _, fun _ _ present => LogBuffer.stored_step effect present, grown⟩
        · exact LogBuffer.live_push inv.live line
        · intro cid mark knows
          rcases LogBuffer.knows_push inv.live knows with old | ⟨last, -⟩
          · exact .inl old
          · right
            cases last
            refine Covers.of_line (inv.owned line.cid)
              (inv.sent line (channel ▸ List.mem_cons_self)) held ?_
            intro old member before wanted
            have placed := inv.inOrder [] line rest channel old member before wanted
            exact grown old wanted (placed.resolve_left List.not_mem_nil)
        · intro cid checkpoint stored
          have kept : (state.buffer.push config.buffer line).metadata = state.buffer.metadata := by
            cases effect with
            | accepts _ _ _ _ stores => exact stores.metadata
            | quiet _ _ stores => exact stores.metadata
          exact .inl (by simpa [LogBuffer.checkpointOfContainer, kept] using stored)
        · intro key member
          rcases LogBuffer.held_back effect member with old | ⟨other, same, rfl⟩
          · exact .inl old
          · cases same
            exact .inr ⟨line, inv.sent line (channel ▸ List.mem_cons_self), rfl⟩
      exact pushed.takeLine channel held
  · cases taken

theorem PipelineInv.restart (inv : PipelineInv config state) :
    PipelineInv config state.restart where
  live := LogBuffer.live_new _ _
  expressible := inv.expressible
  owned := inv.owned
  ordered := inv.ordered
  sent := nofun
  inOrder earlier line later split := by simp [LogPipeline.restart] at split
  known cid mark knows := by
    have seeded : ∀ mark, (state.buffer.checkpointOfContainer cid).map (fun checkpoint =>
        Mark.mk checkpoint 0) = some mark →
          Covers config.buffer state.horizon (state.restart.buffer.held config.buffer)
            (state.daemon cid) mark.checkpoint := by
      intro mark seed
      obtain ⟨checkpoint, stored, rfl⟩ := Option.map_eq_some_iff.mp seed
      exact (inv.persisted cid checkpoint stored).mono (le_refl _)
        fun _ _ row => LogBuffer.held_of_stored row
    rcases knows with stamped | stored | ⟨phase, flying, _⟩
    · exact seeded mark stamped
    · exact seeded mark stored
    · cases flying
  persisted cid checkpoint stored := by
    apply inv.persisted cid checkpoint
    simpa [LogPipeline.restart, LogBuffer.checkpointOfContainer, LogBuffer.new,
      Function.comp_def] using stored
  loaded := nofun
  following := nofun
  genuine key member := by
    rcases List.mem_append.mp member with row | entry
    · exact inv.genuine key (LogBuffer.held_of_stored row)
    · cases entry

theorem PipelineInv.step (inv : PipelineInv config before) {action : PipelineAction}
    (allowed : LetsMemoryPass config before action)
    (taken : before.step config action = some after) : PipelineInv config after := by
  cases action with
  | write line => exact inv.write (written_of_write taken)
  | loadCheckpoint cid => exact inv.loadCheckpoint taken
  | openStream cid now => exact inv.openStream taken
  | send cid => exact inv.send taken
  | endTask cid =>
      cases taken
      exact inv.silent cid none nofun nofun
  | receive => exact inv.receive taken
  | buffer action =>
      cases action with
      | push line => cases taken
      | _ =>
          obtain ⟨buffer, stepped, rfl⟩ := Option.map_eq_some_iff.mp taken
          exact inv.stepBuffer (by simp) allowed stepped
  | deleteBefore fates now => exact inv.deleteBefore taken
  | pruneCheckpoints => exact inv.pruneCheckpoints taken
  | restart =>
      cases taken
      exact inv.restart

end Vpsiner.Logs.LogPipeline
