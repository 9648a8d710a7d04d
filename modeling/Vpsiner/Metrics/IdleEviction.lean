import Vpsiner.Lib.Machine
import Vpsiner.Metrics.CollectorContainersProperties
import Vpsiner.Metrics.DownsamplingProperties

/-! A collector that drops idle containers beside one that keeps them. An entry is dropped
after two buckets that could not be collected, whether or not its container still reports. -/

set_option autoImplicit false

namespace Vpsiner.Metrics

open Vpsiner.Lib

/-! ## A collector that keeps every entry -/

namespace ContainerCollectorState

def flushKeeping (state : ContainerCollectorState) (order : HashOrder) (bucketEnd : Int) :
    List ContainerSample × ContainerCollectorState :=
  (state.flushedRows order bucketEnd,
    { state with
      containers := state.containers.mapRows (visitedRow bucketEnd) (cid_visitedRow bucketEnd) })

def observeKeeping (state : ContainerCollectorState) (order : HashOrder)
    (batch : List ContainerRawSample) : List ContainerSample × ContainerCollectorState :=
  match batchBucketEnd batch with
  | none => ([], state)
  | some currentBucketEnd =>
      match state.completedBucketEnd currentBucketEnd with
      | none => ([], state.recordBatch batch currentBucketEnd)
      | some bucketEnd => (state.recordBatch batch currentBucketEnd).flushKeeping order bucketEnd

end ContainerCollectorState

/-! ## A dropped entry beside the kept one -/

/-- An entry of the collector that drops beside that of the one that keeps: what was dropped
is older than the moment. -/
inductive TracksEntry (collectIntervalMs : Nat) (moment : Int) :
    Option ContainerEntry → Option ContainerEntry → Prop where
  | absent : TracksEntry collectIntervalMs moment none none
  | dropped {kept : ContainerEntry}
      (silent : kept.bucketizer.since moment =
        { ContainerBucketizer.new collectIntervalMs with
          lastCpuCount := kept.bucketizer.lastCpuCount }) :
      TracksEntry collectIntervalMs moment none (some kept)
  | live {entry kept : ContainerEntry} (service : entry.service = kept.service)
      (sized : entry.bucketizer.Sized collectIntervalMs)
      (same : entry.bucketizer.since moment = kept.bucketizer.since moment) :
      TracksEntry collectIntervalMs moment (some entry) (some kept)

namespace TracksEntry

variable {collectIntervalMs : Nat} {moment later : Int} {entry kept : Option ContainerEntry}

theorem sized_kept {collectIntervalMs : Nat} {moment : Int} {entry kept : ContainerEntry}
    (sized : entry.bucketizer.Sized collectIntervalMs)
    (same : entry.bucketizer.since moment = kept.bucketizer.since moment) :
    kept.bucketizer.Sized collectIntervalMs := by
  rw [← @ContainerBucketizer.sized_since _ _ moment, ← same]
  exact ContainerBucketizer.sized_since.mpr sized

/-- The next sample makes the two alike again. -/
theorem record (tracks : TracksEntry collectIntervalMs moment entry kept) (service : ServiceId)
    (sample : ContainerRawSample) (idle keptIdle : Nat) :
    TracksEntry collectIntervalMs moment
      (some ⟨service, ((entry.map ContainerEntry.bucketizer).getD
        (.new collectIntervalMs)).push sample, idle⟩)
      (some ⟨service, ((kept.map ContainerEntry.bucketizer).getD
        (.new collectIntervalMs)).push sample, keptIdle⟩) := by
  have fresh := ContainerBucketizer.sized_new collectIntervalMs 1
  cases tracks with
  | absent => exact .live rfl (ContainerBucketizer.sized_push fresh sample) rfl
  | @dropped kept silent =>
      refine .live rfl (ContainerBucketizer.sized_push fresh sample) ?_
      have alike : (kept.bucketizer.push sample).since moment =
          ((ContainerBucketizer.new collectIntervalMs).push sample).since moment := by
        rw [ContainerBucketizer.since_push, silent]
        rfl
      exact alike.symm
  | live _ sized same =>
      refine .live rfl (ContainerBucketizer.sized_push sized sample) ?_
      rw [Option.map_some, Option.getD_some, Option.map_some, Option.getD_some,
        ContainerBucketizer.since_push, same, ← ContainerBucketizer.since_push]

/-- A bucket that begins a bucket after the moment is collected alike from both. -/
theorem collect_eq (tracks : TracksEntry collectIntervalMs moment entry kept) {bucketEnd : Int}
    (recent : moment ≤ bucketEnd - 20000) (cid : ContainerId) :
    (entry.bind fun entry => entry.bucketizer.collect bucketEnd entry.service cid) =
      kept.bind fun kept => kept.bucketizer.collect bucketEnd kept.service cid := by
  cases tracks with
  | absent => rfl
  | @dropped kept silent =>
      have sized : kept.bucketizer.Sized collectIntervalMs := by
        rw [← @ContainerBucketizer.sized_since _ _ moment, silent]
        exact ContainerBucketizer.sized_new _ _
      rw [Option.bind_some, ← ContainerBucketizer.collect_since sized recent, silent]
      rfl
  | live service sized same =>
      rw [Option.bind_some, Option.bind_some, ← ContainerBucketizer.collect_since sized recent,
        ← ContainerBucketizer.collect_since (sized_kept sized same) recent, service, same]

/-- A flush that drops silent entries only leaves the two alike. -/
theorem flush (tracks : TracksEntry collectIntervalMs moment entry kept) {cid : ContainerId}
    {bucketEnd : Int} (silent : ∀ held, entry = some held →
      held.bucketizer.collect bucketEnd held.service cid = none →
        maxIdleFlushes ≤ held.idleFlushes + 1 → held.bucketizer.SilentSince moment) :
    TracksEntry collectIntervalMs moment
      ((entry.filter fun entry => (entry.visit cid bucketEnd).2.2).map
        fun entry => (entry.visit cid bucketEnd).2.1)
      (kept.map fun kept => (kept.visit cid bucketEnd).2.1) := by
  cases tracks with
  | absent => exact .absent
  | dropped spent => exact .dropped (by simpa using spent)
  | @live entry kept service sized same =>
      cases retained : (entry.visit cid bucketEnd).2.2 with
      | true =>
          rw [Option.filter_some, if_pos retained]
          exact .live (by simpa using service) (by simpa using sized) (by simpa using same)
      | false =>
          rw [Option.filter_some, if_neg (by simp [retained])]
          obtain ⟨failed, idle⟩ := ContainerEntry.visit_dropped retained
          have count : (entry.bucketizer.since moment).lastCpuCount =
              (kept.bucketizer.since moment).lastCpuCount := by rw [same]
          have spent := ContainerBucketizer.since_of_silent sized (silent entry rfl failed idle)
          rw [same, show entry.bucketizer.lastCpuCount = kept.bucketizer.lastCpuCount from count]
            at spent
          exact .dropped (by simpa using spent)

end TracksEntry

/-! ## The entries of the two collectors -/

section Entries

variable {collectIntervalMs : Nat} {moment bucketEnd : Int}
  {evicting keeping : ContainerCollectorState}

/-- Every entry of the evicting collector beside that of the keeping one. -/
def TracksEntries (collectIntervalMs : Nat) (moment : Int)
    (evicting keeping : ContainerCollectorState) : Prop :=
  ∀ cid, TracksEntry collectIntervalMs moment (evicting.containers.get? cid)
    (keeping.containers.get? cid)

theorem tracks_foldl_record (batch : List ContainerRawSample) {dropping kept : ContainerEntries}
    (tracks : ∀ cid, TracksEntry collectIntervalMs moment (dropping.get? cid) (kept.get? cid))
    (cid : ContainerId) : TracksEntry collectIntervalMs moment
      (ContainerEntries.get? (batch.foldl (ContainerEntries.record collectIntervalMs) dropping) cid)
      (ContainerEntries.get? (batch.foldl (ContainerEntries.record collectIntervalMs) kept) cid) := by
  induction batch generalizing dropping kept with
  | nil => exact tracks cid
  | cons sample rest ih =>
      refine ih fun other => ?_
      rw [ContainerEntries.get?_record, ContainerEntries.get?_record]
      by_cases same : sample.cid = other
      · rw [if_pos same, if_pos same]
        exact (tracks other).record sample.service sample _ _
      · rw [if_neg same, if_neg same]
        exact tracks other

theorem TracksEntries.recordBatch (tracks : TracksEntries collectIntervalMs moment evicting keeping)
    (evictingInterval : evicting.collectIntervalMs = collectIntervalMs)
    (keepingInterval : keeping.collectIntervalMs = collectIntervalMs)
    (batch : List ContainerRawSample) (currentBucketEnd : Int) :
    TracksEntries collectIntervalMs moment (evicting.recordBatch batch currentBucketEnd)
      (keeping.recordBatch batch currentBucketEnd) := by
  intro cid
  rw [ContainerCollectorState.recordBatch, ContainerCollectorState.recordBatch, evictingInterval,
    keepingInterval]
  exact tracks_foldl_record batch tracks cid

/-- The rows of a flush are the same, in whatever order the two maps are iterated. -/
theorem TracksEntries.perm_flushedRows (tracks : TracksEntries collectIntervalMs moment evicting keeping)
    (recent : moment ≤ bucketEnd - 20000) (order keepingOrder : HashOrder) :
    (evicting.flushedRows order bucketEnd).Perm (keeping.flushedRows keepingOrder bucketEnd) := by
  refine (List.perm_ext_iff_of_nodup (nodup_flushedRows _ _ _) (nodup_flushedRows _ _ _)).mpr
    fun sample => ?_
  rw [mem_flushedRows, mem_flushedRows, (tracks sample.cid).collect_eq recent]

theorem TracksEntries.flush (tracks : TracksEntries collectIntervalMs moment evicting keeping)
    (silent : ∀ cid entry, evicting.containers.get? cid = some entry →
      entry.bucketizer.collect bucketEnd entry.service cid = none →
        maxIdleFlushes ≤ entry.idleFlushes + 1 → entry.bucketizer.SilentSince moment)
    (order keepingOrder : HashOrder) :
    TracksEntries collectIntervalMs moment (evicting.flush order bucketEnd).2
      (keeping.flushKeeping keepingOrder bucketEnd).2 := by
  intro cid
  rw [ContainerCollectorState.flush, ContainerCollectorState.flushKeeping]
  rw [ContainerEntries.get?_mapRows_visited, ContainerEntries.get?_mapRows_visited,
    ContainerEntries.get?_eraseWhere fun cid entry => !(entry.visit cid bucketEnd).2.2]
  simp only [Bool.not_not]
  exact (tracks cid).flush fun held here => silent cid held here

end Entries

/-! ## Runs of the two collectors -/

/-- The two collectors under one stream of batches, with what each has emitted, newest
first. -/
structure CollectorTwins where
  evicting : ContainerCollectorState
  keeping : ContainerCollectorState
  lastTs : Option Int := none
  emitted : List (List ContainerSample) := []
  keptEmitted : List (List ContainerSample) := []

/-- A batch, and the orders in which the two hash maps happen to be iterated. -/
structure BatchArrival where
  batch : List ContainerRawSample
  order : HashOrder
  keepingOrder : HashOrder

/-- Batches arrive with increasing timestamps. -/
def collectorTwins (collectIntervalMs : Nat) : Machine CollectorTwins BatchArrival where
  start := { evicting := .new collectIntervalMs, keeping := .new collectIntervalMs }
  step twins arrival :=
    let newer := (batchTs arrival.batch).all fun ts => twins.lastTs.all (· < ts)
    if newer then
      let observed := twins.evicting.observe arrival.order arrival.batch
      let kept := twins.keeping.observeKeeping arrival.keepingOrder arrival.batch
      some
        { evicting := observed.2
          keeping := kept.2
          lastTs := (batchTs arrival.batch).or twins.lastTs
          emitted := observed.1 :: twins.emitted
          keptEmitted := kept.1 :: twins.keptEmitted }
    else none

/-- A flush drops no container that has reported since two bucket lengths before the end of
the bucket that is current then. -/
def dropsOnlySilent (state : ContainerCollectorState) (batch : List ContainerRawSample) : Bool :=
  (batchBucketEnd batch).all fun currentBucketEnd =>
    (state.completedBucketEnd currentBucketEnd).all fun bucketEnd =>
      (state.recordBatch batch currentBucketEnd).containers.rows.all fun row =>
        (row.2.bucketizer.collect bucketEnd row.2.service row.1).isSome ||
          decide (row.2.idleFlushes + 1 < maxIdleFlushes) ||
          decide (row.2.bucketizer.SilentSince (currentBucketEnd - 20000))

def DropsOnlySilent (twins : CollectorTwins) (arrival : BatchArrival) : Prop :=
  dropsOnlySilent twins.evicting arrival.batch = true

theorem silent_of_dropped {state : ContainerCollectorState} {batch : List ContainerRawSample}
    {currentBucketEnd bucketEnd : Int} (only : dropsOnlySilent state batch = true)
    (current : batchBucketEnd batch = some currentBucketEnd)
    (completed : state.completedBucketEnd currentBucketEnd = some bucketEnd) (cid : ContainerId)
    (entry : ContainerEntry)
    (held : (state.recordBatch batch currentBucketEnd).containers.get? cid = some entry)
    (failed : entry.bucketizer.collect bucketEnd entry.service cid = none)
    (idle : maxIdleFlushes ≤ entry.idleFlushes + 1) :
    entry.bucketizer.SilentSince (currentBucketEnd - 20000) := by
  rw [dropsOnlySilent, current, Option.all_some, completed, Option.all_some,
    List.all_eq_true] at only
  have spent := only (cid, entry) (ContainerEntries.get?_eq_some_iff.mp held)
  rw [failed, Option.isSome_none, Bool.false_or, decide_eq_false (not_lt.mpr idle),
    Bool.false_or] at spent
  exact of_decide_eq_true spent

/-- What keeps the two collectors alike: they hold the same samples of the time that the
current bucket and later ones read. -/
structure TwinsAgree (collectIntervalMs : Nat) (twins : CollectorTwins) : Prop where
  evictingInterval : twins.evicting.collectIntervalMs = collectIntervalMs
  keepingInterval : twins.keeping.collectIntervalMs = collectIntervalMs
  last : twins.keeping.lastRawBucketEnd = twins.evicting.lastRawBucketEnd
  lastOf : twins.evicting.lastRawBucketEnd = twins.lastTs.map fun ts => bucketEnd ts 10000
  tracked : ∀ moment, (∀ last ∈ twins.evicting.lastRawBucketEnd, last - 20000 ≤ moment) →
    TracksEntries collectIntervalMs moment twins.evicting twins.keeping
  agreed : List.Forall₂ List.Perm twins.emitted twins.keptEmitted

theorem twinsAgree_start (collectIntervalMs : Nat) :
    TwinsAgree collectIntervalMs (collectorTwins collectIntervalMs).start :=
  ⟨rfl, rfl, rfl, rfl, fun _ _ _ => .absent, .nil⟩

section Observe

variable {collectIntervalMs : Nat} {evicting keeping : ContainerCollectorState}
  {batch : List ContainerRawSample} {currentBucketEnd : Int}

theorem observeKeeping_frame (state : ContainerCollectorState) (order : HashOrder)
    (current : batchBucketEnd batch = some currentBucketEnd) :
    (state.observeKeeping order batch).2.lastRawBucketEnd = some currentBucketEnd ∧
      (state.observeKeeping order batch).2.collectIntervalMs = state.collectIntervalMs := by
  rw [ContainerCollectorState.observeKeeping, current]
  dsimp only
  split
  · exact ⟨rfl, rfl⟩
  · exact ⟨rfl, rfl⟩

/-- A batch that drops silent entries only leaves the two collectors alike. -/
theorem observe_alike (evictingInterval : evicting.collectIntervalMs = collectIntervalMs)
    (keepingInterval : keeping.collectIntervalMs = collectIntervalMs)
    (last : keeping.lastRawBucketEnd = evicting.lastRawBucketEnd)
    (tracked : ∀ moment, (∀ last ∈ evicting.lastRawBucketEnd, last - 20000 ≤ moment) →
      TracksEntries collectIntervalMs moment evicting keeping)
    (current : batchBucketEnd batch = some currentBucketEnd)
    (advances : ∀ last ∈ evicting.lastRawBucketEnd, last ≤ currentBucketEnd)
    (only : dropsOnlySilent evicting batch = true) (order keepingOrder : HashOrder) :
    (evicting.observe order batch).1.Perm (keeping.observeKeeping keepingOrder batch).1 ∧
      ∀ moment, currentBucketEnd - 20000 ≤ moment →
        TracksEntries collectIntervalMs moment (evicting.observe order batch).2
          (keeping.observeKeeping keepingOrder batch).2 := by
  have recorded : ∀ moment, (∀ last ∈ evicting.lastRawBucketEnd, last - 20000 ≤ moment) →
      TracksEntries collectIntervalMs moment (evicting.recordBatch batch currentBucketEnd)
        (keeping.recordBatch batch currentBucketEnd) := fun moment later =>
    (tracked moment later).recordBatch evictingInterval keepingInterval batch currentBucketEnd
  have same : keeping.completedBucketEnd currentBucketEnd =
      evicting.completedBucketEnd currentBucketEnd := by
    rw [ContainerCollectorState.completedBucketEnd, last, ContainerCollectorState.completedBucketEnd]
  rw [ContainerCollectorState.observe, ContainerCollectorState.observeKeeping, current]
  dsimp only
  rw [same]
  cases completed : evicting.completedBucketEnd currentBucketEnd with
  | none =>
      refine ⟨.nil, fun moment later => recorded moment fun last held => ?_⟩
      have := advances last held
      omega
  | some bucketEnd =>
      obtain ⟨closing, before⟩ := Option.filter_eq_some_iff.mp completed
      have earlier := of_decide_eq_true before
      have reads : ∀ moment, bucketEnd - 20000 ≤ moment →
          TracksEntries collectIntervalMs moment (evicting.recordBatch batch currentBucketEnd)
            (keeping.recordBatch batch currentBucketEnd) := by
        intro moment later
        refine recorded moment fun last held => ?_
        rw [closing] at held
        obtain rfl := Option.some.inj held
        exact later
      refine ⟨(reads (bucketEnd - 20000) le_rfl).perm_flushedRows le_rfl order keepingOrder,
        fun moment later => (reads moment (by omega)).flush ?_ order keepingOrder⟩
      intro cid entry held failed idle part inside sample member
      have silent := silent_of_dropped only current completed cid entry held failed idle
      exact (silent part inside sample member).trans later

end Observe

theorem TwinsAgree.step {collectIntervalMs : Nat} {before after : CollectorTwins}
    {arrival : BatchArrival} (agree : TwinsAgree collectIntervalMs before)
    (only : DropsOnlySilent before arrival)
    (taken : (collectorTwins collectIntervalMs).step before arrival = some after) :
    TwinsAgree collectIntervalMs after := by
  obtain ⟨evictingInterval, keepingInterval, last, lastOf, tracked, agreed⟩ := agree
  simp only [collectorTwins] at taken
  split at taken
  · rename_i newer
    obtain rfl := Option.some.inj taken
    cases stamped : batchTs arrival.batch with
    | none =>
        have current : batchBucketEnd arrival.batch = none := by
          rw [batchBucketEnd, stamped, Option.map_none]
        simp only [ContainerCollectorState.observe, ContainerCollectorState.observeKeeping, current,
          Option.none_or]
        exact ⟨evictingInterval, keepingInterval, last, lastOf, tracked, .cons .nil agreed⟩
    | some ts =>
        have current : batchBucketEnd arrival.batch = some (bucketEnd ts 10000) := by
          rw [batchBucketEnd, stamped, Option.map_some]
          rfl
        have advances : ∀ last ∈ before.evicting.lastRawBucketEnd, last ≤ bucketEnd ts 10000 := by
          intro last held
          rw [lastOf] at held
          obtain ⟨lastTs, seen, rfl⟩ := Option.map_eq_some_iff.mp held
          rw [stamped, Option.all_some, seen, Option.all_some] at newer
          exact bucketEnd_mono (by decide) (of_decide_eq_true newer).le
        obtain ⟨rows, alike⟩ := observe_alike evictingInterval keepingInterval last tracked current
          advances only arrival.order arrival.keepingOrder
        obtain ⟨closing, interval⟩ := observe_frame before.evicting arrival.order current
        obtain ⟨keptClosing, keptInterval⟩ :=
          observeKeeping_frame before.keeping arrival.keepingOrder current
        refine ⟨interval.trans evictingInterval, keptInterval.trans keepingInterval,
          keptClosing.trans closing.symm, ?_, fun moment later => alike moment ?_,
          .cons rows agreed⟩
        · rw [closing, Option.some_or, Option.map_some]
        · exact later _ closing
  · cases taken

/-- In every run that drops silent containers only, the eviction changes no output. -/
theorem eviction_changes_nothing (collectIntervalMs : Nat) (twins : CollectorTwins)
    (reached : (collectorTwins collectIntervalMs).Reachable DropsOnlySilent twins) :
    List.Forall₂ List.Perm twins.emitted twins.keptEmitted :=
  (reached.invariant (TwinsAgree collectIntervalMs) (twinsAgree_start collectIntervalMs)
    fun agree only taken => agree.step only taken).agreed

/-! ## Runs of one container -/

def containerStats (cid : ContainerId) (ts : Nat) : ContainerRawSample where
  ts := ts
  service := ⟨1⟩
  cid := cid
  cpuUsageNs := ts
  systemCpuUsageNs := 4 * ts
  cpuCount := 1
  memUsed := 1000
  netRx := ts
  netTx := ts
  blkRead := ts
  blkWrite := ts

def arrivals (reports : List (Nat × List ContainerId)) : List BatchArrival :=
  reports.map fun report =>
    ⟨report.2.map fun cid => containerStats cid report.1, .unchanged, .unchanged⟩

/-- The second container stops reporting after its first sample and is dropped. -/
theorem eviction_of_stopped_container : ∃ twins : CollectorTwins,
    (twins.evicting.containers.get? ⟨2⟩).isNone ∧ (twins.keeping.containers.get? ⟨2⟩).isSome ∧
      List.Forall₂ List.Perm twins.emitted twins.keptEmitted := by
  have dropped : ((collectorTwins 10000).run
      (fun twins arrival => dropsOnlySilent twins.evicting arrival.batch) (collectorTwins 10000).start
        (arrivals [(5000, [⟨1⟩, ⟨2⟩]), (11000, [⟨1⟩]), (21000, [⟨1⟩])])).any
      (fun twins => (twins.evicting.containers.get? ⟨2⟩).isNone &&
        (twins.keeping.containers.get? ⟨2⟩).isSome) = true := by
    decide +kernel
  obtain ⟨twins, taken, gone⟩ := (Option.any_eq_true _ _).mp dropped
  obtain ⟨missing, kept⟩ := Bool.and_eq_true_iff.mp gone
  exact ⟨twins, missing, kept, eviction_changes_nothing 10000 twins
    (Machine.Reachable.start.run (fun _ _ only => only) taken)⟩

/-- A container whose statistics are missing in the batch that closes its second bucket is
dropped although it reports, and its third bucket is lost. -/
theorem eviction_loses_row : ∃ twins,
    (collectorTwins 10000).Reachable Machine.anyStep twins ∧
      ¬List.Forall₂ List.Perm twins.emitted twins.keptEmitted := by
  have lost : ((collectorTwins 10000).run (fun _ _ => true) (collectorTwins 10000).start
      (arrivals [(5000, [⟨1⟩]), (11000, [⟨1⟩]), (21000, [⟨2⟩]), (22000, [⟨1⟩]),
        (31000, [⟨1⟩])])).any
      (fun twins => twins.emitted.map List.length = [0, 0, 0, 0, 0] &&
        twins.keptEmitted.map List.length = [1, 0, 0, 0, 0]) = true := by
    decide +kernel
  obtain ⟨twins, taken, counts⟩ := (Option.any_eq_true _ _).mp lost
  obtain ⟨emitted, kept⟩ := Bool.and_eq_true_iff.mp counts
  refine ⟨twins, .of_run _ taken, fun same => ?_⟩
  have lengths : List.Forall₂ Eq (twins.emitted.map List.length)
      (twins.keptEmitted.map List.length) :=
    List.forall₂_map_left_iff.mpr (List.forall₂_map_right_iff.mpr
      (same.imp fun _ _ alike => alike.length_eq))
  rw [List.forall₂_eq_eq_eq, of_decide_eq_true emitted, of_decide_eq_true kept] at lengths
  cases lengths

end Vpsiner.Metrics
