import Vpsiner.Logs.Replay
import Vpsiner.Retention.Cleanup

/-! Where a log task resumes after a retention pass: a checkpoint that the pass removed is
older than the second from which the next task reads. -/

set_option autoImplicit false

namespace Vpsiner.Retention

open Vpsiner.Lib Vpsiner.Logs

/-- The later of the checkpoint and the cutoff. -/
def resumePoint (checkpoint : Option LogCheckpoint) (cutoff : Int) : Int :=
  (checkpoint.map fun checkpoint => max checkpoint.ts cutoff).getD cutoff

variable {weeks : Nat} {now cutoff since : Int} {checkpoint : Option LogCheckpoint}

theorem le_clampToI32 {low value : Int} (fits : i32Min ≤ low ∧ low ≤ i32Max) (le : low ≤ value) :
    low ≤ clampToI32 value ∧ clampToI32 value ≤ value := by
  simp only [clampToI32]
  split
  · omega
  · split
    · omega
    · omega

/-- The resume second is at or after the cutoff, and not after the resume point. -/
theorem logSinceSecs_spec (checkpoint : Option LogCheckpoint)
    (found : retentionCutoffMs now weeks = some cutoff)
    (fits : i32Min ≤ cutoff / 1000 ∧ cutoff / 1000 ≤ i32Max) :
    ∃ since, logSinceSecs checkpoint now weeks = some since ∧ cutoff ≤ since * 1000 ∧
      since * 1000 ≤ resumePoint checkpoint cutoff := by
  have aligned := retentionCutoffMs_aligned found
  simp only [weekMs, dayMs] at aligned
  simp only [logSinceSecs, found, Option.bind_eq_bind, Option.bind_some, Option.pure_def,
    Option.some.injEq, exists_eq_left']
  cases checkpoint with
  | none =>
      have clamped := le_clampToI32 fits le_rfl
      simp only [Option.map_none, Option.getD_none, resumePoint]
      omega
  | some stored =>
      have clamped := le_clampToI32 fits (le_max_right (stored.ts / 1000) (cutoff / 1000))
      simp only [Option.map_some, Option.getD_some, resumePoint]
      omega

theorem mem_replayFrom {lines : List LogLine} {line : LogLine} :
    line ∈ replayFrom since lines ↔ line ∈ lines ∧ since * 1000 ≤ line.ts := by
  simp only [replayFrom, List.mem_filter, decide_eq_true_eq]
  exact and_congr_right fun _ => by omega

theorem checkpoints_cleanupOnce {fates : PassFates} {stores after : Stores}
    (found : retentionCutoffMs now weeks = some cutoff)
    (cleaned : cleanupOnce fates weeks now stores = some after) :
    after.checkpoints = stores.checkpoints.deleteBefore cutoff ∨
      after.checkpoints = stores.checkpoints := by
  simp only [cleanupOnce, found, Option.bind_eq_bind, Option.bind_some, Option.pure_def,
    Option.some.injEq] at cleaned
  rw [← cleaned]
  cases (stores.logs.deleteBefore fates.logs cutoff).2 with
  | error fault => exact .inr rfl
  | ok names =>
      cases fates.checkpoints with
      | none => exact .inl rfl
      | some detail => exact .inr rfl

/-- A pass removes a checkpoint only when it is older than the cutoff. -/
theorem removed_before_cutoff {fates : PassFates} {stores after : Stores} {sid : ServiceId}
    {cid : ContainerId} {checkpoint : LogCheckpoint}
    (cleaned : cleanupOnce fates weeks now stores = some after)
    (stored : stores.checkpoints sid cid = some checkpoint)
    (removed : after.checkpoints sid cid = none) :
    ∃ cutoff, retentionCutoffMs now weeks = some cutoff ∧ checkpoint.ts < cutoff := by
  obtain ⟨cutoff, found, _⟩ := Option.bind_eq_some_iff.mp cleaned
  refine ⟨cutoff, found, ?_⟩
  rcases checkpoints_cleanupOnce found cleaned with pruned | kept
  · rw [pruned, LogCheckpoints.deleteBefore, stored] at removed
    by_contra recent
    simp [Option.filter_some, recent] at removed
  · rw [kept, stored] at removed
    cases removed

/-- A log task skips no line from the resume point on, and reads no line again that a
checkpoint covered which an earlier pass removed, whatever checkpoint the task finds. -/
theorem pruned_checkpoints_stay_read (fates : PassFates) (weeks : Nat) (cleanupAt startAt : Int)
    (later : cleanupAt ≤ startAt) (cutoff : Int)
    (found : retentionCutoffMs startAt weeks = some cutoff)
    (fits : i32Min ≤ cutoff / 1000 ∧ cutoff / 1000 ≤ i32Max) :
    (∀ checkpoint, ∃ since, logSinceSecs checkpoint startAt weeks = some since ∧
      since * 1000 ≤ resumePoint checkpoint cutoff ∧ ∀ lines : List LogLine, ∀ line ∈ lines,
        resumePoint checkpoint cutoff ≤ line.ts → line ∈ replayFrom since lines) ∧
    ∀ stores after, cleanupOnce fates weeks cleanupAt stores = some after →
      ∀ sid cid removed, stores.checkpoints sid cid = some removed →
        after.checkpoints sid cid = none →
        ∀ checkpoint since, logSinceSecs checkpoint startAt weeks = some since →
          ∀ line : LogLine, line.ts ≤ removed.ts → line.ts < since * 1000 ∧
            ∀ lines, line ∉ replayFrom since lines := by
  constructor
  · intro checkpoint
    obtain ⟨since, resumes, _, upper⟩ := logSinceSecs_spec checkpoint found fits
    refine ⟨since, resumes, upper, fun lines line member reached => ?_⟩
    exact mem_replayFrom.mpr ⟨member, upper.trans reached⟩
  · intro stores after cleaned sid cid removed stored gone checkpoint since resumes line covered
    obtain ⟨earlier, earlierFound, old⟩ := removed_before_cutoff cleaned stored gone
    have mono := retentionCutoffMs_mono later earlierFound found
    obtain ⟨second, resumesAt, lower, _⟩ := logSinceSecs_spec checkpoint found fits
    rw [resumes, Option.some.injEq] at resumesAt
    have before : line.ts < since * 1000 := by omega
    exact ⟨before, fun lines read => absurd (mem_replayFrom.mp read).2 (not_le.mpr before)⟩

def silentSince : LogCheckpoint := ⟨1690000000000, 0⟩

/-- One container that has been silent for more than four weeks. -/
def silentStores : Stores :=
  ⟨.connect .empty 20, .empty, fun _ _ => some silentSince, ⟨.empty, .empty⟩⟩

theorem pruned_checkpoint_of_silent_container : ∃ after since,
    cleanupOnce {} 4 1700000000000 silentStores = some after ∧
      logSinceSecs (after.checkpoints ⟨1⟩ ⟨1⟩) 1700086400000 4 = some since ∧
        ∀ line : LogLine, line.ts ≤ 1690000000000 → line.ts < since * 1000 := by
  have found : retentionCutoffMs 1700086400000 4 = some 1697414400000 := by decide
  have earlier : retentionCutoffMs 1700000000000 4 = some 1697414400000 := by decide
  obtain ⟨resumes, unread⟩ := pruned_checkpoints_stay_read {} 4 1700000000000 1700086400000
    (by decide) 1697414400000 found (by decide)
  obtain ⟨after, cleaned⟩ : ∃ after, cleanupOnce {} 4 1700000000000 silentStores = some after := by
    rw [cleanupOnce, earlier]
    exact ⟨_, rfl⟩
  have pruned : after.checkpoints ⟨1⟩ ⟨1⟩ = none := by
    rw [cleanupOnce, earlier] at cleaned
    cases cleaned
    rfl
  obtain ⟨since, second, _⟩ := resumes (after.checkpoints ⟨1⟩ ⟨1⟩)
  exact ⟨after, since, cleaned, second, fun line covered =>
    (unread silentStores after cleaned ⟨1⟩ ⟨1⟩ silentSince rfl pruned _ since second line
      covered).1⟩

end Vpsiner.Retention
