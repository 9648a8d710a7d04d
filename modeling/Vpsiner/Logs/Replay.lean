import Vpsiner.Logs.FlushWorker
import Vpsiner.Retention.Cutoff

/-! The replay after a restart. The log task of a container asks for every line from the
second of its checkpoint on, and the dedup, seeded with the checkpoint, is to drop what
was persisted before. -/

set_option autoImplicit false

namespace Vpsiner.Logs

open Vpsiner.Lib Vpsiner.Retention

def i32Min : Int := -2147483648
def i32Max : Int := 2147483647

def clampToI32 (value : Int) : Int :=
  if value < i32Min then i32Min else if i32Max < value then i32Max else value

/-- The second from which the log task of a container reads. -/
def logSinceSecs (checkpoint : Option LogCheckpoint) (now : Int) (retentionWeeks : Nat) :
    Option Int := do
  let cutoff ← retentionCutoffMs now retentionWeeks
  let cutoffSecs := cutoff / 1000
  let checkpointSecs := checkpoint.map fun checkpoint => checkpoint.ts / 1000
  return clampToI32 ((checkpointSecs.map fun secs => max secs cutoffSecs).getD cutoffSecs)

/-- What the daemon sends: every line from a second on. -/
def replayFrom (since : Int) (lines : List LogLine) : List LogLine :=
  lines.filter fun line => since ≤ line.ts / 1000

def pushedLines (actions : List BufferAction) : List LogLine :=
  actions.filterMap fun action =>
    match action with
    | .push line => some line
    | _ => none

/-! ## The dedup of one container -/

def checkpointOf (config : BufferConfig) (line : LogLine) : LogCheckpoint :=
  ⟨line.ts, config.hash line.stream line.line⟩

/-- The test of `push` against the last accepted line. -/
def passes (config : BufferConfig) (last : Option LogCheckpoint) (line : LogLine) : Bool :=
  last.all fun last => !(decide (line.ts < last.ts) ||
    (line.ts == last.ts && config.hash line.stream line.line == last.lineHash))

/-- The last accepted line and all accepted lines, after one more line. -/
def absorb (config : BufferConfig) (state : Option LogCheckpoint × List LogLine)
    (line : LogLine) : Option LogCheckpoint × List LogLine :=
  if passes config state.1 line then (some (checkpointOf config line), state.2 ++ [line])
  else state

variable {config : BufferConfig}

theorem accepts_eq_passes (checkpoints : ContainerId → Option Mark) (line : LogLine) :
    LogBuffer.accepts config checkpoints line =
      passes config ((checkpoints line.cid).map Mark.checkpoint) line := by
  rw [LogBuffer.accepts, passes]
  cases checkpoints line.cid with
  | none => rfl
  | some last => rfl

theorem passes_iff {last : LogCheckpoint} {line : LogLine} :
    passes config (some last) line = true ↔ last.ts ≤ line.ts ∧
      ¬(line.ts = last.ts ∧ config.hash line.stream line.line = last.lineHash) := by
  simp [passes, imp_iff_not_or]

/-- One line follows another without being dropped. -/
def Follows (config : BufferConfig) (earlier later : LogLine) : Prop :=
  earlier.ts ≤ later.ts ∧ ¬(later.ts = earlier.ts ∧
    config.hash later.stream later.line = config.hash earlier.stream earlier.line)

theorem passes_checkpointOf {earlier later : LogLine} (follows : Follows config earlier later) :
    passes config (some (checkpointOf config earlier)) later = true := passes_iff.mpr follows

/-- Lines that follow each other all pass once the first one does. -/
theorem absorb_all {lines : List LogLine} (chain : lines.Pairwise (Follows config))
    (start : Option LogCheckpoint) (accepted : List LogLine)
    (first : ∀ line ∈ lines.head?, passes config start line = true) :
    lines.foldl (absorb config) (start, accepted) =
      ((lines.getLast?.map (checkpointOf config)).or start, accepted ++ lines) := by
  induction lines generalizing start accepted with
  | nil => rw [List.foldl_nil, List.append_nil, List.getLast?_nil, Option.map_none, Option.none_or]
  | cons line rest ih =>
      obtain ⟨head, tail⟩ := List.pairwise_cons.mp chain
      have passed := first line rfl
      have next : ∀ later ∈ rest.head?, passes config (some (checkpointOf config line)) later =
          true := by
        intro later isHead
        exact passes_checkpointOf (head later (List.mem_of_head? isHead))
      rw [List.foldl_cons, absorb, if_pos passed, ih tail _ _ next, List.append_assoc,
        List.singleton_append]
      cases rest with
      | nil => rfl
      | cons second others => rw [List.getLast?_cons_cons, List.getLast?_eq_some_getLast
          (List.cons_ne_nil _ _), Option.map_some, Option.some_or, Option.some_or]

theorem absorb_dropped {lines : List LogLine} {start : Option LogCheckpoint}
    (dropped : ∀ line ∈ lines, passes config start line = false) (accepted : List LogLine) :
    lines.foldl (absorb config) (start, accepted) = (start, accepted) := by
  induction lines with
  | nil => rfl
  | cons line rest ih =>
      obtain ⟨head, tail⟩ := List.forall_mem_cons.mp dropped
      rw [List.foldl_cons, absorb, head, if_neg Bool.false_ne_true, ih tail]

/-! ## The dedup in a run -/

/-- The last checkpoint of a container and all accepted lines. -/
def dedupState (buffer : LogBuffer) (cid : ContainerId) : Option LogCheckpoint × List LogLine :=
  ((buffer.checkpoints cid).map Mark.checkpoint, buffer.history.map Accepted.line)

theorem dedupState_accept (buffer : LogBuffer) (line : LogLine) :
    dedupState (buffer.accept config line) line.cid =
      (some (checkpointOf config line), buffer.history.map Accepted.line ++ [line]) := by
  simp only [dedupState, LogBuffer.accept, Function.update_self, Option.map_some, List.map_append]
  rfl

theorem dedupState_of_same {before after : LogBuffer} (same : LogBuffer.SameHistory before after)
    (cid : ContainerId) : dedupState after cid = dedupState before cid := by
  rw [dedupState, dedupState, same.checkpoints, same.history]

theorem dedupState_push (buffer : LogBuffer) (line : LogLine) :
    dedupState (buffer.push config line) line.cid =
      absorb config (dedupState buffer line.cid) line := by
  have decision : passes config (dedupState buffer line.cid).1 line =
      LogBuffer.accepts config buffer.checkpoints line := (accepts_eq_passes _ _).symm
  rw [absorb, decision]
  rcases LogBuffer.push_cases config buffer line with
    ⟨accepted, pushed⟩ | ⟨accepted, -, pushed⟩ | ⟨rejected, pushed⟩
  · rw [if_pos accepted, pushed]
    refine .trans ?_ (dedupState_accept buffer line)
    exact dedupState_of_same (LogBuffer.startFlush_fields (buffer.accept config line)).1 _
  · rw [if_pos accepted, pushed]
    exact dedupState_accept buffer line
  · rw [rejected, pushed, if_neg Bool.false_ne_true]

theorem pushedLines_append (actions : List BufferAction) (action : BufferAction) :
    pushedLines (actions ++ [action]) = pushedLines actions ++ pushedLines [action] :=
  List.filterMap_append

/-- In a run whose pushed lines are all of one container, the accepted lines are those
that pass the dedup. -/
theorem dedupState_of_trace {logs : SqliteLogStore}
    {metadata : ContainerId → Option LogCheckpoint} {allowed : LogBuffer → BufferAction → Prop}
    {actions : List BufferAction} {buffer : LogBuffer} {cid : ContainerId}
    (traced : (bufferMachine config logs metadata).Trace allowed actions buffer)
    (owned : ∀ line ∈ pushedLines actions, line.cid = cid) :
    buffer.WorkerLive ∧ dedupState buffer cid =
      (pushedLines actions).foldl (absorb config) (metadata cid, []) := by
  induction traced with
  | start =>
      refine ⟨LogBuffer.live_new logs metadata, Prod.ext ?_ rfl⟩
      have seeded : ((metadata cid).map fun checkpoint => Mark.mk checkpoint 0).map
          Mark.checkpoint = metadata cid := by
        cases metadata cid with
        | none => rfl
        | some checkpoint => rfl
      exact seeded
  | step _ action _ taken ih =>
      rw [pushedLines_append] at owned ⊢
      obtain ⟨live, before⟩ := ih fun line member => owned line (List.mem_append_left _ member)
      refine ⟨LogBuffer.live_step live taken, ?_⟩
      rw [List.foldl_append, ← before]
      have stepped : LogBuffer.step config _ action = some _ := taken
      cases action with
      | push line =>
          have here : line.cid = cid := owned line (List.mem_append_right _ List.mem_cons_self)
          rw [LogBuffer.step] at stepped
          split at stepped
          · cases stepped
            rw [← here]
            exact dedupState_push _ line
          · cases stepped
      | workerReceives =>
          exact dedupState_of_same (LogBuffer.sameHistory_step live stepped (by simp)) cid
      | workerDrains =>
          exact dedupState_of_same (LogBuffer.sameHistory_step live stepped (by simp)) cid
      | workerFlushes =>
          exact dedupState_of_same (LogBuffer.sameHistory_step live stepped (by simp)) cid
      | workerTimesOut =>
          exact dedupState_of_same (LogBuffer.sameHistory_step live stepped (by simp)) cid
      | appendReturns flusher fates =>
          exact dedupState_of_same (LogBuffer.sameHistory_step live stepped (by simp)) cid
      | internReturns flusher interned =>
          exact dedupState_of_same (LogBuffer.sameHistory_step live stepped (by simp)) cid
      | advanceReturns flusher persisted =>
          exact dedupState_of_same (LogBuffer.sameHistory_step live stepped (by simp)) cid

/-! ## A restart -/

/-- The log of one container at the time of a restart: the lines that were persisted and
the ones after them, all inside the retention window. -/
structure ContainerLog (config : BufferConfig) where
  cid : ContainerId
  persisted : List LogLine
  later : List LogLine
  now : Int
  retentionWeeks : Nat
  cutoff : Int
  owned : ∀ line ∈ persisted ++ later, line.cid = cid
  ordered : (persisted ++ later).Pairwise fun earlier later => earlier.ts ≤ later.ts
  distinct : (persisted ++ later).Pairwise fun earlier later =>
    ¬(earlier.ts = later.ts ∧ earlier.line = later.line)
  injective : ∀ left ∈ persisted ++ later, ∀ right ∈ persisted ++ later,
    config.hash left.stream left.line = config.hash right.stream right.line → left.line = right.line
  represented : retentionCutoffMs now retentionWeeks = some cutoff
  inWindow : ∀ line ∈ persisted ++ later, cutoff ≤ line.ts ∧ line.ts ≤ now

namespace ContainerLog

/-- No persisted line shares the millisecond of the last one, and no later line is before
the first second that the log task can ask for. -/
def Resumable (log : ContainerLog config) : Prop :=
  (∀ line ∈ log.later, i32Min ≤ line.ts / 1000) ∧
    ∀ earlier last, log.persisted = earlier ++ [last] → i32Min ≤ last.ts / 1000 →
      ∀ line ∈ earlier, line.ts ≠ last.ts

theorem chain (log : ContainerLog config) :
    (log.persisted ++ log.later).Pairwise (Follows config) := by
  refine (log.ordered.and log.distinct).imp_of_mem fun leftMember rightMember both => ?_
  refine ⟨both.1, fun same => both.2 ⟨same.1.symm, ?_⟩⟩
  exact (log.injective _ rightMember _ leftMember same.2).symm

theorem dated_eq (log : ContainerLog config) {lines : List LogLine}
    (part : lines ⊆ log.persisted ++ log.later) : dated lines = lines := by
  refine List.filter_eq_self.mpr fun line member => ?_
  have window := log.inWindow line (part member)
  exact weekDatabaseName_isSome_of_window log.represented window.1 window.2

end ContainerLog

theorem clampToI32_le_iff {value second : Int} (below : value ≤ second) :
    clampToI32 value ≤ second ↔ i32Min ≤ second := by
  rw [clampToI32]
  split
  · rfl
  · rw [i32Max] at *
    split
    · rw [i32Min]
      omega
    · next _ _ _ => omega

def resumed (config : BufferConfig) (checkpoint : Option LogCheckpoint) (since : Int)
    (lines : List LogLine) : List LogLine :=
  ((replayFrom since lines).foldl (absorb config) (checkpoint, [])).2

theorem absorb_subset (state : Option LogCheckpoint × List LogLine) (lines : List LogLine) :
    (lines.foldl (absorb config) state).2 ⊆ state.2 ++ lines := by
  induction lines generalizing state with
  | nil => exact List.subset_append_left _ _
  | cons line rest ih =>
      refine List.Subset.trans (ih (absorb config state line)) ?_
      have step : (absorb config state line).2 ⊆ state.2 ++ [line] := by
        rw [absorb]
        split
        · exact List.Subset.refl _
        · exact List.subset_append_left _ _
      intro kept member
      cases List.mem_append.mp member with
      | inl old =>
          cases List.mem_append.mp (step old) with
          | inl before => exact List.mem_append_left _ before
          | inr here =>
              rw [List.mem_singleton.mp here]
              exact List.mem_append_right _ List.mem_cons_self
      | inr later => exact List.mem_append_right _ (List.mem_cons_of_mem _ later)

theorem resumed_subset (checkpoint : Option LogCheckpoint) (since : Int) (lines : List LogLine) :
    resumed config checkpoint since lines ⊆ replayFrom since lines :=
  absorb_subset (checkpoint, []) _

private theorem replayFrom_append (since : Int) (left right : List LogLine) :
    replayFrom since (left ++ right) = replayFrom since left ++ replayFrom since right :=
  List.filter_append _ _

private theorem replayFrom_eq_nil {since : Int} {lines : List LogLine}
    (before : ∀ line ∈ lines, line.ts / 1000 < since) : replayFrom since lines = [] := by
  refine List.filter_eq_nil_iff.mpr fun line member kept => ?_
  have := before line member
  have := of_decide_eq_true kept
  omega

/-- Ordered lines up to a time: the older ones, then those of that very millisecond. -/
private theorem split_ties {ts : Int} {lines : List LogLine}
    (ordered : lines.Pairwise fun earlier later => earlier.ts ≤ later.ts)
    (bounded : ∀ line ∈ lines, line.ts ≤ ts) :
    ∃ older ties, lines = older ++ ties ∧ (∀ line ∈ older, line.ts < ts) ∧
      ∀ line ∈ ties, line.ts = ts := by
  induction lines with
  | nil => exact ⟨[], [], rfl, by simp, by simp⟩
  | cons line rest ih =>
      obtain ⟨head, tail⟩ := List.pairwise_cons.mp ordered
      obtain ⟨headBound, tailBound⟩ := List.forall_mem_cons.mp bounded
      by_cases before : line.ts < ts
      · obtain ⟨older, ties, rfl, olderBefore, tied⟩ := ih tail tailBound
        exact ⟨line :: older, ties, rfl, List.forall_mem_cons.mpr ⟨before, olderBefore⟩, tied⟩
      · have here : line.ts = ts := le_antisymm headBound (not_lt.mp before)
        refine ⟨[], line :: rest, rfl, by simp, List.forall_mem_cons.mpr ⟨here, ?_⟩⟩
        intro later member
        exact le_antisymm (tailBound later member) (here ▸ head later member)

/-- What comes back of the lines before one that does: the older ones, then those of its
millisecond. -/
private theorem replayFrom_split {earlier : List LogLine} {last : LogLine} {since : Int}
    (chain : earlier.Pairwise (Follows config))
    (lastFollows : ∀ line ∈ earlier, Follows config line last)
    (reached : since ≤ last.ts / 1000) :
    ∃ older ties, replayFrom since earlier = older ++ ties ∧ (∀ line ∈ older, line.ts < last.ts) ∧
      ∀ line, line ∈ ties ↔ line ∈ earlier ∧ line.ts = last.ts := by
  obtain ⟨older, ties, shown, olderBefore, tied⟩ := split_ties
    ((chain.filter fun line => since ≤ line.ts / 1000).imp And.left)
    (fun line member => (lastFollows line (List.mem_filter.mp member).1).1)
  refine ⟨older, ties, shown, olderBefore, fun line => ⟨fun member => ?_, ?_⟩⟩
  · have present : line ∈ earlier.filter fun line => since ≤ line.ts / 1000 :=
      shown ▸ List.mem_append_right _ member
    exact ⟨(List.mem_filter.mp present).1, tied line member⟩
  · rintro ⟨member, same⟩
    have present : line ∈ earlier.filter fun line => since ≤ line.ts / 1000 :=
      List.mem_filter.mpr ⟨member, decide_eq_true (same ▸ reached)⟩
    cases List.mem_append.mp (shown ▸ present) with
    | inl before => exact absurd same (olderBefore line before).ne
    | inr tie => exact tie

/-- The dedup drops the persisted lines, unless some share the millisecond of the last
one: these come back, and the last one after them. -/
theorem resumed_eq {earlier later : List LogLine} {last : LogLine} {since : Int}
    (chain : (earlier ++ last :: later).Pairwise (Follows config))
    (reached : since ≤ last.ts / 1000) :
    ∃ ties, (∀ line, line ∈ ties ↔ line ∈ earlier ∧ line.ts = last.ts) ∧
      resumed config (some (checkpointOf config last)) since (earlier ++ last :: later) =
        if ties = [] then later else ties ++ last :: later := by
  obtain ⟨earlierChain, tailChain, across⟩ := List.pairwise_append.mp chain
  have lastFollows : ∀ line ∈ earlier, Follows config line last := fun line member =>
    across line member last List.mem_cons_self
  obtain ⟨older, ties, replayed, olderBefore, tieMember⟩ :=
    replayFrom_split earlierChain lastFollows reached
  have kept : replayFrom since (last :: later) = last :: later := by
    refine List.filter_eq_self.mpr fun line member => decide_eq_true ?_
    cases List.mem_cons.mp member with
    | inl same => rwa [same]
    | inr after =>
        have := ((List.pairwise_cons.mp tailChain).1 line after).1
        omega
  have whole : replayFrom since (earlier ++ last :: later) = older ++ (ties ++ last :: later) := by
    rw [replayFrom_append, kept, replayed, List.append_assoc]
  have olderDropped : ∀ line ∈ older,
      passes config (some (checkpointOf config last)) line = false := by
    intro line member
    refine Bool.eq_false_iff.mpr fun passed => ?_
    exact absurd (olderBefore line member) (not_lt.mpr (passes_iff.mp passed).1)
  refine ⟨ties, tieMember, ?_⟩
  rw [resumed, whole, List.foldl_append, absorb_dropped olderDropped]
  cases ties with
  | nil =>
      have repeated : passes config (some (checkpointOf config last)) last = false := by
        refine Bool.eq_false_iff.mpr fun passed => ?_
        exact (passes_iff.mp passed).2 ⟨rfl, rfl⟩
      have first : ∀ line ∈ later.head?,
          passes config (some (checkpointOf config last)) line = true := by
        intro line isHead
        exact passes_checkpointOf
          ((List.pairwise_cons.mp tailChain).1 line (List.mem_of_head? isHead))
      rw [List.nil_append, List.foldl_cons, absorb, repeated, if_neg Bool.false_ne_true,
        absorb_all (List.pairwise_cons.mp tailChain).2 _ _ first, if_pos rfl, List.nil_append]
  | cons tie others =>
      have tieBoth := (tieMember tie).mp List.mem_cons_self
      have passed : passes config (some (checkpointOf config last)) tie = true := by
        have follows := lastFollows tie tieBoth.1
        refine passes_iff.mpr ⟨le_of_eq tieBoth.2.symm, fun repeats => follows.2 ?_⟩
        exact ⟨tieBoth.2.symm, repeats.2.symm⟩
      have tiesChain : (tie :: others ++ last :: later).Pairwise (Follows config) := by
        have inside : (older ++ tie :: others).Sublist earlier := by
          rw [← replayed]
          exact List.filter_sublist
        exact chain.sublist (((List.sublist_append_right older _).trans inside).append_right _)
      have first : ∀ line ∈ (tie :: others ++ last :: later).head?,
          passes config (some (checkpointOf config last)) line = true := by
        intro line isHead
        cases isHead
        exact passed
      rw [absorb_all tiesChain _ _ first, if_neg (List.cons_ne_nil _ _), List.nil_append]

/-! ## The rows after a restart -/

/-- When every append succeeds or leaves nothing, a flushed run has stored exactly the lines
it accepted. -/
theorem flushed_entries {logs : SqliteLogStore} {metadata : ContainerId → Option LogCheckpoint}
    {actions : List BufferAction} {buffer : LogBuffer}
    (traced : (bufferMachine config logs metadata).Trace LogBuffer.CleanAppend actions buffer)
    (flushed : buffer.inMemory = [])
    (allDated : dated (buffer.history.map Accepted.line) = buffer.history.map Accepted.line) :
    ((buffer.logs.entries config.service).map StoredLog.line).Perm
      ((logs.entries config.service).map StoredLog.line ++
        (buffer.history.map Accepted.line).map (storedLine config.service)) := by
  have kept : ∃ landed, LogBuffer.Ledger config
      ((logs.entries config.service).map StoredLog.line) buffer landed [] := by
    apply traced.reachable.invariant fun buffer => ∃ landed, LogBuffer.Ledger config
      ((logs.entries config.service).map StoredLog.line) buffer landed []
    · exact ⟨[], .new config logs metadata⟩
    · intro before after action holds clean stepped
      obtain ⟨landed, ledger⟩ := holds
      obtain ⟨landedAfter, strays, ledgerAfter, noStrays⟩ := ledger.step stepped
      exact ⟨landedAfter, noStrays clean ▸ ledgerAfter⟩
  obtain ⟨landed, ledger⟩ := kept
  have settled := ledger.accepted
  rw [flushed, List.append_nil] at settled
  have lines := (settled.map Accepted.line).filter fun line => (weekDatabaseName line.ts).isSome
  have stored := ledger.stored
  rw [List.append_nil] at stored
  refine stored.trans (.append_left _ (.map _ ?_))
  rw [← allDated]
  exact lines.symm

namespace ContainerLog

theorem since_le_iff (log : ContainerLog config) {since : Int}
    (resumes : logSinceSecs (log.persisted.getLast?.map (checkpointOf config)) log.now
      log.retentionWeeks = some since) {line : LogLine}
    (member : line ∈ log.persisted.getLast?.toList ++ log.later) :
    since ≤ line.ts / 1000 ↔ i32Min ≤ line.ts / 1000 := by
  rw [logSinceSecs, log.represented] at resumes
  cases resumes
  apply clampToI32_le_iff
  have whole : line ∈ log.persisted ++ log.later := by
    cases List.mem_append.mp member with
    | inl last =>
        exact List.mem_append_left _ (List.mem_of_getLast? (Option.mem_toList.mp last))
    | inr after => exact List.mem_append_right _ after
  have window := (log.inWindow line whole).1
  cases found : log.persisted.getLast? with
  | none =>
      rw [Option.map_none, Option.map_none, Option.map_none, Option.getD_none]
      omega
  | some last =>
      have follows : last.ts ≤ line.ts := by
        cases List.mem_append.mp member with
        | inl same =>
            rw [found] at same
            rw [List.mem_singleton.mp same]
        | inr after =>
            exact (List.pairwise_append.mp log.ordered).2.2 last (List.mem_of_getLast? found)
              line after
      rw [Option.map_some, Option.map_some, Option.map_some, Option.getD_some]
      exact max_le (by simp only [checkpointOf]; omega) (by omega)

/-- When only later lines are replayed, all that are replayed pass. -/
private theorem resumed_later {checkpoint : Option LogCheckpoint} {since : Int}
    {persisted later : List LogLine} (skipped : replayFrom since persisted = [])
    (chain : later.Pairwise (Follows config))
    (first : ∀ line ∈ later, passes config checkpoint line = true) :
    resumed config checkpoint since (persisted ++ later) = replayFrom since later := by
  have head : ∀ line ∈ (replayFrom since later).head?, passes config checkpoint line = true := by
    intro line isHead
    exact first line (List.mem_filter.mp (List.mem_of_head? isHead)).1
  have replayed : (replayFrom since later).Pairwise (Follows config) :=
    chain.sublist List.filter_sublist
  rw [resumed, replayFrom_append, skipped, List.nil_append, absorb_all replayed _ _ head,
    List.nil_append]

private theorem replayFrom_perm_iff {since : Int} {later : List LogLine} (service : String) :
    ((replayFrom since later).map (storedLine service)).Perm (later.map (storedLine service)) ↔
      ∀ line ∈ later, since ≤ line.ts / 1000 := by
  constructor
  · intro same
    have length := same.length_eq
    rw [List.length_map, List.length_map] at length
    intro line member
    exact of_decide_eq_true (List.length_filter_eq_length_iff.mp length line member)
  · intro all
    have whole : replayFrom since later = later :=
      List.filter_eq_self.mpr fun line member => decide_eq_true (all line member)
    rw [whole]

private theorem perm_iff_of_nil (log : ContainerLog config) (nothing : log.persisted = [])
    {since : Int} (resumes : logSinceSecs (log.persisted.getLast?.map (checkpointOf config)) log.now
      log.retentionWeeks = some since) :
    ((resumed config (log.persisted.getLast?.map (checkpointOf config)) since
        (log.persisted ++ log.later)).map (storedLine config.service)).Perm
      (log.later.map (storedLine config.service)) ↔ log.Resumable := by
  have chain := (List.pairwise_append.mp log.chain).2.1
  have bounds : ∀ line ∈ log.later, since ≤ line.ts / 1000 ↔ i32Min ≤ line.ts / 1000 :=
    fun line member => log.since_le_iff resumes (List.mem_append_right _ member)
  have skipped : replayFrom since log.persisted = [] := by rw [nothing]; rfl
  have passed : ∀ line ∈ log.later,
      passes config (log.persisted.getLast?.map (checkpointOf config)) line = true := by
    intro line _
    rw [nothing]
    rfl
  rw [resumed_later skipped chain passed, replayFrom_perm_iff, Resumable]
  constructor
  · intro all
    refine ⟨fun line member => (bounds line member).mp (all line member), ?_⟩
    intro earlier last split
    rw [nothing] at split
    exact absurd split.symm (List.append_ne_nil_of_right_ne_nil _ (List.cons_ne_nil _ _))
  · intro resumable line member
    exact (bounds line member).mpr (resumable.1 line member)

private theorem perm_iff_of_concat (log : ContainerLog config) {earlier : List LogLine}
    {last : LogLine} (split : log.persisted = earlier ++ [last]) {since : Int}
    (resumes : logSinceSecs (log.persisted.getLast?.map (checkpointOf config)) log.now
      log.retentionWeeks = some since) :
    ((resumed config (some (checkpointOf config last)) since
        (log.persisted ++ log.later)).map (storedLine config.service)).Perm
      (log.later.map (storedLine config.service)) ↔ log.Resumable := by
  have newest : log.persisted.getLast? = some last := by rw [split, List.getLast?_concat]
  have bounds : ∀ line ∈ log.later, since ≤ line.ts / 1000 ↔ i32Min ≤ line.ts / 1000 :=
    fun line member => log.since_le_iff resumes (List.mem_append_right _ member)
  have lastBound : since ≤ last.ts / 1000 ↔ i32Min ≤ last.ts / 1000 :=
    log.since_le_iff resumes (List.mem_append_left _ (by rw [newest]; exact List.mem_cons_self))
  have chain : (earlier ++ last :: log.later).Pairwise (Follows config) := by
    have chain := log.chain
    rwa [split, List.append_assoc, List.singleton_append] at chain
  have laterFollow := (List.pairwise_cons.mp (List.pairwise_append.mp chain).2.1)
  by_cases reached : i32Min ≤ last.ts / 1000
  · obtain ⟨ties, tieMember, accepted⟩ := resumed_eq chain (lastBound.mpr reached)
    have whole : log.persisted ++ log.later = earlier ++ last :: log.later := by
      rw [split, List.append_assoc, List.singleton_append]
    rw [whole, accepted]
    cases ties with
    | nil =>
        rw [if_pos rfl]
        refine iff_of_true (.refl _) ⟨fun line member => ?_, fun others newer same _ line member tie => ?_⟩
        · have := (laterFollow.1 line member).1
          omega
        · obtain ⟨rfl, newestSame⟩ := List.append_inj' (same.symm.trans split) rfl
          cases newestSame
          cases (tieMember line).mpr ⟨member, tie⟩
    | cons tie others =>
        rw [if_neg (List.cons_ne_nil _ _)]
        refine iff_of_false (fun same => ?_) fun resumable => ?_
        · have length := same.length_eq
          rw [List.length_map, List.length_map, List.length_append, List.length_cons,
            List.length_cons] at length
          omega
        · obtain ⟨member, same⟩ := (tieMember tie).mp List.mem_cons_self
          exact resumable.2 earlier last split reached tie member same
  · have skipped : replayFrom since log.persisted = [] := by
      apply replayFrom_eq_nil
      intro line member
      have before : line.ts ≤ last.ts := by
        rw [split] at member
        cases List.mem_append.mp member with
        | inl old =>
            exact ((List.pairwise_append.mp chain).2.2 line old last List.mem_cons_self).1
        | inr same => rw [List.mem_singleton.mp same]
      have late : ¬since ≤ last.ts / 1000 := fun early => reached (lastBound.mp early)
      omega
    have passed : ∀ line ∈ log.later, passes config (some (checkpointOf config last)) line = true :=
      fun line member => passes_checkpointOf (laterFollow.1 line member)
    rw [resumed_later skipped laterFollow.2 passed, replayFrom_perm_iff, Resumable]
    constructor
    · intro all
      refine ⟨fun line member => (bounds line member).mp (all line member), ?_⟩
      intro others newer same atLeast
      obtain ⟨_, newestSame⟩ := List.append_inj' (same.symm.trans split) rfl
      cases newestSame
      exact absurd atLeast reached
    · intro resumable line member
      exact (bounds line member).mpr (resumable.1 line member)

/-- What the restart accepts is the rest of the log exactly when the log is resumable. -/
theorem resumed_perm_iff (log : ContainerLog config) {since : Int}
    (resumes : logSinceSecs (log.persisted.getLast?.map (checkpointOf config)) log.now
      log.retentionWeeks = some since) :
    ((resumed config (log.persisted.getLast?.map (checkpointOf config)) since
        (log.persisted ++ log.later)).map (storedLine config.service)).Perm
      (log.later.map (storedLine config.service)) ↔ log.Resumable := by
  cases List.eq_nil_or_concat log.persisted with
  | inl nothing => exact log.perm_iff_of_nil nothing resumes
  | inr concat =>
      obtain ⟨earlier, last, split⟩ := concat
      rw [List.concat_eq_append] at split
      have newest : log.persisted.getLast? = some last := by rw [split, List.getLast?_concat]
      have same := log.perm_iff_of_concat split resumes
      rwa [newest]

end ContainerLog

/-- A crash after the persisted lines were pushed, flushed and checkpointed, and a restart
after which every line from the second of the checkpoint on was pushed and flushed. -/
structure Restart {config : BufferConfig} (log : ContainerLog config) where
  logs : SqliteLogStore
  metadata : ContainerId → Option LogCheckpoint
  unseen : metadata log.cid = none
  persisting : List BufferAction
  crashed : LogBuffer
  first : (bufferMachine config logs metadata).Trace LogBuffer.CleanAppend persisting crashed
  firstPushes : pushedLines persisting = log.persisted
  flushed : crashed.inMemory = []
  checkpointed : crashed.metadata log.cid = crashed.checkpoints log.cid
  since : Int
  resumes : logSinceSecs ((crashed.metadata log.cid).map Mark.checkpoint) log.now
    log.retentionWeeks = some since
  replaying : List BufferAction
  restarted : LogBuffer
  second : (bufferMachine config crashed.logs fun cid =>
    (crashed.metadata cid).map Mark.checkpoint).Trace LogBuffer.CleanAppend replaying restarted
  secondPushes : pushedLines replaying = replayFrom since (log.persisted ++ log.later)
  settled : restarted.inMemory = []

/-- Every line of the container has exactly one row next to those that were there before. -/
def Restart.StoredOnce {config : BufferConfig} {log : ContainerLog config}
    (restart : Restart log) : Prop :=
  ((restart.restarted.logs.entries config.service).map StoredLog.line).Perm
    ((restart.logs.entries config.service).map StoredLog.line ++
      (log.persisted ++ log.later).map (storedLine config.service))

/-- After a restart every line is stored exactly once if and only if the log is resumable. -/
theorem replay_stores_once_iff {config : BufferConfig} {log : ContainerLog config}
    (restart : Restart log) : restart.StoredOnce ↔ log.Resumable := by
  have owned := log.owned
  have persistedState := (dedupState_of_trace restart.first fun line member =>
    owned line (List.mem_append_left _ (restart.firstPushes ▸ member))).2
  rw [restart.unseen, restart.firstPushes,
    absorb_all (List.pairwise_append.mp log.chain).1 none [] (fun _ _ => rfl), Option.or_none,
    List.nil_append] at persistedState
  obtain ⟨checkpoint, accepted⟩ := Prod.mk.inj persistedState
  have replayed : replayFrom restart.since (log.persisted ++ log.later) ⊆
      log.persisted ++ log.later := List.filter_subset_self _
  have resumedState := (dedupState_of_trace restart.second fun line member =>
    owned line (replayed (restart.secondPushes ▸ member))).2
  have resumes := restart.resumes
  rw [restart.checkpointed, checkpoint] at resumes resumedState
  rw [restart.secondPushes] at resumedState
  have again : restart.restarted.history.map Accepted.line =
      resumed config (log.persisted.getLast?.map (checkpointOf config)) restart.since
        (log.persisted ++ log.later) := congrArg Prod.snd resumedState
  have stored := flushed_entries restart.first restart.flushed
    (by rw [accepted]; exact log.dated_eq (List.subset_append_left _ _))
  have storedAgain := flushed_entries restart.second restart.settled
    (by rw [again]; exact log.dated_eq (List.Subset.trans (resumed_subset _ _ _) replayed))
  rw [accepted] at stored
  rw [again] at storedAgain
  have rows := storedAgain.trans (stored.append_right _)
  rw [Restart.StoredOnce, ← log.resumed_perm_iff resumes, List.map_append, ← List.append_assoc]
  constructor
  · intro once
    exact (List.perm_append_left_iff _).mp (rows.symm.trans once)
  · intro rest
    exact rows.trans (rest.append_left _)

/-- Two lines of one millisecond. -/
def tiedLog : ContainerLog shopConfig where
  cid := ⟨1⟩
  persisted := [shopLine 1700000000000 "one", shopLine 1700000000000 "three"]
  later := []
  now := 1700000000000
  retentionWeeks := 4
  cutoff := 1697414400000
  owned := by decide
  ordered := by decide
  distinct := by decide
  injective := by decide
  represented := by decide
  inWindow := by decide

/-- The second line fills the backlog and is flushed with the first. -/
def flushTied : List BufferAction := [
  .push (shopLine 1700000000000 "one"), .push (shopLine 1700000000000 "three"),
  .appendReturns (.push 0) {}, .internReturns (.push 0) true, .advanceReturns (.push 0) true]

theorem replay_stores_tied_lines_twice :
    ¬ ∀ (config : BufferConfig) (log : ContainerLog config) (restart : Restart log),
        restart.StoredOnce := by
  intro always
  have done : (((bufferMachine shopConfig .empty fun _ => none).run (appendOk shopConfig)
      (.new .empty fun _ => none) flushTied).bind fun crashed =>
        let metadata := fun cid => (crashed.metadata cid).map Mark.checkpoint
        ((bufferMachine shopConfig crashed.logs metadata).run (appendOk shopConfig)
          (.new crashed.logs metadata) flushTied).map fun restarted =>
            (crashed.inMemory, crashed.metadata ⟨1⟩, crashed.checkpoints ⟨1⟩,
              restarted.inMemory, (restarted.logs.entries "shop").length)) =
      some ([], some ⟨⟨1700000000000, 5⟩, 2⟩, some ⟨⟨1700000000000, 5⟩, 2⟩, [], 4) := by decide
  obtain ⟨crashed, first, rest⟩ := Option.bind_eq_some_iff.mp done
  obtain ⟨restarted, second, found⟩ := Option.map_eq_some_iff.mp rest
  obtain ⟨flushed, stored, stamped, settled, rows⟩ :
      crashed.inMemory = [] ∧ crashed.metadata ⟨1⟩ = some ⟨⟨1700000000000, 5⟩, 2⟩ ∧
        crashed.checkpoints ⟨1⟩ = some ⟨⟨1700000000000, 5⟩, 2⟩ ∧ restarted.inMemory = [] ∧
          (restarted.logs.entries "shop").length = 4 := by
    simpa only [Prod.mk.injEq] using found
  have once := always shopConfig tiedLog
    { logs := .empty
      metadata := fun _ => none
      unseen := rfl
      persisting := flushTied
      crashed := crashed
      first := Machine.Trace.start.run (cleanAppend_of_appendOk shopConfig) first
      firstPushes := rfl
      flushed := flushed
      checkpointed := stored.trans stamped.symm
      since := 1700000000
      resumes := by
        have seeded : crashed.metadata tiedLog.cid = some ⟨⟨1700000000000, 5⟩, 2⟩ := stored
        rw [seeded]
        decide
      replaying := flushTied
      restarted := restarted
      second := Machine.Trace.start.run (cleanAppend_of_appendOk shopConfig) second
      secondPushes := by decide
      settled := settled }
  have length := once.length_eq
  rw [List.length_map] at length
  have four : (restarted.logs.entries shopConfig.service).length = 4 := rows
  rw [four] at length
  have impossible : 4 = 2 := length
  cases impossible

end Vpsiner.Logs
