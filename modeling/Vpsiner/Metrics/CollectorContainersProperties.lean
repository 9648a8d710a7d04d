import Vpsiner.Metrics.BucketizerLocality
import Vpsiner.Metrics.CollectorContainers

/-! What a container collector reads of its samples, and what its operations make of its
entries. -/

set_option autoImplicit false

namespace Vpsiner.Metrics

open Vpsiner.Lib Vpsiner.Lib.Paging

/-! ## What is kept of the time after a moment -/

namespace ContainerBucketizer

def bucketizers (bucketizer : ContainerBucketizer) : List Bucketizer :=
  [bucketizer.bckCpuUsageNs, bucketizer.bckSystemCpuUsageNs, bucketizer.bckMemUsed,
    bucketizer.bckNetRxRateMill, bucketizer.bckNetTxRateMill, bucketizer.bckBlkReadRateMill,
    bucketizer.bckBlkWriteRateMill]

def since (bucketizer : ContainerBucketizer) (moment : Int) : ContainerBucketizer where
  bckCpuUsageNs := bucketizer.bckCpuUsageNs.since moment
  bckSystemCpuUsageNs := bucketizer.bckSystemCpuUsageNs.since moment
  lastCpuCount := bucketizer.lastCpuCount
  bckMemUsed := bucketizer.bckMemUsed.since moment
  bckNetRxRateMill := bucketizer.bckNetRxRateMill.since moment
  bckNetTxRateMill := bucketizer.bckNetTxRateMill.since moment
  bckBlkReadRateMill := bucketizer.bckBlkReadRateMill.since moment
  bckBlkWriteRateMill := bucketizer.bckBlkWriteRateMill.since moment

/-- All buffers have the size that the collect interval asks for. -/
def Sized (collectIntervalMs : Nat) (bucketizer : ContainerBucketizer) : Prop :=
  ∀ part ∈ bucketizer.bucketizers, part.buffer.capacity = bufferCapacity collectIntervalMs 10000 ∧
    part.bucketLenMs = 10000

def SilentSince (moment : Int) (bucketizer : ContainerBucketizer) : Prop :=
  ∀ part ∈ bucketizer.bucketizers, ∀ sample ∈ part.buffer.samples, sample.ts ≤ moment

instance (moment : Int) (bucketizer : ContainerBucketizer) :
    Decidable (bucketizer.SilentSince moment) :=
  inferInstanceAs (Decidable (∀ part ∈ bucketizer.bucketizers, ∀ sample ∈ part.buffer.samples,
    sample.ts ≤ moment))

section Since

variable {collectIntervalMs : Nat} {bucketizer other : ContainerBucketizer} {moment : Int}

theorem since_push (bucketizer : ContainerBucketizer) (moment : Int)
    (sample : ContainerRawSample) :
    (bucketizer.push sample).since moment = ((bucketizer.since moment).push sample).since moment := by
  simp only [since, push, mk.injEq]
  exact ⟨Bucketizer.since_push .., Bucketizer.since_push .., trivial, Bucketizer.since_push ..,
    Bucketizer.since_push .., Bucketizer.since_push .., Bucketizer.since_push ..,
    Bucketizer.since_push ..⟩

theorem sized_new (collectIntervalMs lastCpuCount : Nat) :
    Sized collectIntervalMs { new collectIntervalMs with lastCpuCount } := by
  intro part inside
  simp only [bucketizers, new, List.mem_cons, List.not_mem_nil, or_false, or_self] at inside
  rw [inside]
  exact ⟨rfl, rfl⟩

theorem sized_push (sized : Sized collectIntervalMs bucketizer) (sample : ContainerRawSample) :
    Sized collectIntervalMs (bucketizer.push sample) := by
  simp only [Sized, bucketizers, push, List.forall_mem_cons, Bucketizer.push,
    SampleBuffer.capacity_push] at sized ⊢
  exact sized

theorem sized_since : Sized collectIntervalMs (bucketizer.since moment) ↔
    Sized collectIntervalMs bucketizer := by
  simp only [Sized, bucketizers, since, List.forall_mem_cons, Bucketizer.bucketLenMs_since]
  rfl

/-- Nothing is kept of a container that was silent but its last CPU count. -/
theorem since_of_silent (sized : Sized collectIntervalMs bucketizer)
    (silent : SilentSince moment bucketizer) :
    bucketizer.since moment =
      { new collectIntervalMs with lastCpuCount := bucketizer.lastCpuCount } := by
  have emptied : ∀ part ∈ bucketizer.bucketizers, part.since moment =
      .new (bufferCapacity collectIntervalMs 10000) 10000 := by
    intro part inside
    obtain ⟨capacity, length⟩ := sized part inside
    rw [Bucketizer.since, Bucketizer.new, length]
    exact congrArg (Bucketizer.mk · 10000)
      (SampleBuffer.eq_of_samples capacity (above_eq_nil (silent part inside)))
  simp only [bucketizers, List.forall_mem_cons] at emptied
  simp only [since, new, emptied]
  rfl

/-- A bucket reads what is kept since two bucket lengths before its end. -/
theorem collect_since (sized : Sized collectIntervalMs bucketizer) {bucketEnd : Int}
    (recent : moment ≤ bucketEnd - 20000) (service : ServiceId) (cid : ContainerId) :
    (bucketizer.since moment).collect bucketEnd service cid =
      bucketizer.collect bucketEnd service cid := by
  have counter : ∀ part ∈ bucketizer.bucketizers,
      CounterBucketizer.collect (part.since moment) bucketEnd =
        CounterBucketizer.collect part bucketEnd := by
    intro part inside
    refine CounterBucketizer.collect_since ?_
    rw [(sized part inside).2]
    exact recent
  have gauge : ∀ part ∈ bucketizer.bucketizers,
      GaugeBucketizer.collect (part.since moment) bucketEnd =
        GaugeBucketizer.collect part bucketEnd := by
    intro part inside
    refine GaugeBucketizer.collect_since ?_
    rw [(sized part inside).2]
    exact recent
  simp only [bucketizers, List.forall_mem_cons] at counter gauge
  rw [collect, collect, cpuPctMill, cpuPctMill, since]
  simp only [counter, gauge]

end Since

end ContainerBucketizer

/-! ## Entries -/

section Entries

variable {containers : ContainerEntries} {collectIntervalMs : Nat} {cid : ContainerId}

theorem ContainerEntries.get?_eq_some_iff {entry : ContainerEntry} :
    containers.get? cid = some entry ↔ (cid, entry) ∈ containers.rows := by
  rw [get?, Option.map_eq_some_iff]
  constructor
  · intro found
    obtain ⟨row, here, rfl⟩ := found
    obtain ⟨member, rfl⟩ := KeyedTable.find?_eq_some_iff.mp here
    exact member
  · intro member
    exact ⟨_, KeyedTable.find?_eq_some_iff.mpr ⟨member, rfl⟩, rfl⟩

theorem ContainerEntries.get?_record (containers : ContainerEntries) (collectIntervalMs : Nat)
    (sample : ContainerRawSample) (cid : ContainerId) :
    (containers.record collectIntervalMs sample).get? cid =
      if sample.cid = cid then
        some
          { service := sample.service
            bucketizer := (((containers.get? cid).map ContainerEntry.bucketizer).getD
              (.new collectIntervalMs)).push sample
            idleFlushes := ((containers.get? cid).map ContainerEntry.idleFlushes).getD 0 }
      else containers.get? cid := by
  rw [get?, record, KeyedTable.find?_upsert]
  by_cases same : sample.cid = cid
  · subst same
    rw [if_pos rfl, if_pos rfl, Option.map_some]
    cases containers.get? sample.cid with
    | none => rfl
    | some entry => rfl
  · rw [if_neg same, if_neg same]
    rfl

theorem ContainerEntries.get?_mapRows_visited (bucketEnd : Int) :
    ContainerEntries.get? (containers.mapRows (visitedRow bucketEnd) (cid_visitedRow bucketEnd)) cid =
      (containers.get? cid).map fun entry => (entry.visit cid bucketEnd).2.1 := by
  rw [get?, KeyedTable.find?_mapRows, get?, Option.map_map, Option.map_map]
  refine Option.map_congr fun row found => ?_
  obtain ⟨_, rfl⟩ := KeyedTable.find?_eq_some_iff.mp found
  rfl

theorem ContainerEntries.get?_eraseWhere (drop : ContainerId → ContainerEntry → Bool) :
    ContainerEntries.get? (containers.eraseWhere fun row => drop row.1 row.2) cid =
      (containers.get? cid).filter fun entry => !drop cid entry := by
  refine Option.ext fun entry => ?_
  rw [get?_eq_some_iff, Option.filter_eq_some_iff, get?_eq_some_iff, KeyedTable.eraseWhere,
    List.mem_filter]

end Entries

section Visit

variable {entry : ContainerEntry} {cid : ContainerId} {bucketEnd : Int}

@[simp] theorem ContainerEntry.visit_row : (entry.visit cid bucketEnd).1 =
    entry.bucketizer.collect bucketEnd entry.service cid := by
  rw [visit]
  split
  · rename_i collected
    exact collected.symm
  · rename_i failed
    exact failed.symm

@[simp] theorem ContainerEntry.service_visit :
    (entry.visit cid bucketEnd).2.1.service = entry.service := by
  rw [visit]
  split
  · rfl
  · rfl

@[simp] theorem ContainerEntry.bucketizer_visit :
    (entry.visit cid bucketEnd).2.1.bucketizer = entry.bucketizer := by
  rw [visit]
  split
  · rfl
  · rfl

theorem ContainerEntry.visit_dropped (dropped : (entry.visit cid bucketEnd).2.2 = false) :
    entry.bucketizer.collect bucketEnd entry.service cid = none ∧
      maxIdleFlushes ≤ entry.idleFlushes + 1 := by
  rw [visit] at dropped
  split at dropped
  · cases dropped
  · rename_i failed
    exact ⟨failed, not_lt.mp (of_decide_eq_false dropped)⟩

theorem ContainerBucketizer.cid_of_collect {bucketizer : ContainerBucketizer} {service : ServiceId}
    {sample : ContainerSample} (collected : bucketizer.collect bucketEnd service cid = some sample) :
    sample.cid = cid := by
  simp only [collect, Option.bind_eq_bind, Option.bind_eq_some_iff, Option.some.injEq] at collected
  obtain ⟨_, _, _, _, rfl⟩ := collected
  rfl

end Visit

/-! ## The rows of a flush -/

section Flush

variable {bucketEnd : Int}

theorem mem_flushedRows {state : ContainerCollectorState} {order : HashOrder}
    {sample : ContainerSample} : sample ∈ state.flushedRows order bucketEnd ↔
      ((state.containers.get? sample.cid).bind fun entry =>
        entry.bucketizer.collect bucketEnd entry.service sample.cid) = some sample := by
  rw [ContainerCollectorState.flushedRows, List.mem_filterMap, Option.bind_eq_some_iff]
  constructor
  · intro found
    obtain ⟨⟨cid, entry⟩, inside, collected⟩ := found
    rw [ContainerEntry.visit_row] at collected
    obtain rfl := ContainerBucketizer.cid_of_collect collected
    exact ⟨entry, ContainerEntries.get?_eq_some_iff.mpr (order.mem_arrange.mp inside), collected⟩
  · intro found
    obtain ⟨entry, held, collected⟩ := found
    refine ⟨(sample.cid, entry), order.mem_arrange.mpr (ContainerEntries.get?_eq_some_iff.mp held),
      ?_⟩
    rw [ContainerEntry.visit_row, collected]

theorem nodup_cids_flushedRows (state : ContainerCollectorState) (order : HashOrder)
    (bucketEnd : Int) : ((state.flushedRows order bucketEnd).map ContainerSample.cid).Nodup := by
  have distinct : ((order.arrange state.containers.rows).map Prod.fst).Nodup :=
    ((order.perm state.containers.rows).map Prod.fst).nodup_iff.mpr state.containers.nodup_keys
  rw [List.Nodup, List.pairwise_map] at distinct ⊢
  rw [ContainerCollectorState.flushedRows, List.pairwise_filterMap]
  refine distinct.imp fun apart first collected second collectedToo same => apart ?_
  rw [ContainerEntry.visit_row] at collected collectedToo
  rw [← ContainerBucketizer.cid_of_collect collected, same,
    ContainerBucketizer.cid_of_collect collectedToo]

theorem nodup_flushedRows (state : ContainerCollectorState) (order : HashOrder) (bucketEnd : Int) :
    (state.flushedRows order bucketEnd).Nodup :=
  .of_map ContainerSample.cid (nodup_cids_flushedRows state order bucketEnd)

theorem ts_of_mem_flushedRows {state : ContainerCollectorState} {order : HashOrder}
    {sample : ContainerSample} (member : sample ∈ state.flushedRows order bucketEnd) :
    sample.ts = bucketEnd := by
  obtain ⟨entry, _, collected⟩ := Option.bind_eq_some_iff.mp (mem_flushedRows.mp member)
  simp only [ContainerBucketizer.collect, Option.bind_eq_bind, Option.bind_eq_some_iff,
    Option.some.injEq] at collected
  obtain ⟨_, _, _, _, shape⟩ := collected
  rw [← shape]

end Flush

/-! ## A batch -/

section Batch

variable {batch : List ContainerRawSample} {currentBucketEnd : Int}

theorem observe_frame (state : ContainerCollectorState) (order : HashOrder)
    (current : batchBucketEnd batch = some currentBucketEnd) :
    (state.observe order batch).2.lastRawBucketEnd = some currentBucketEnd ∧
      (state.observe order batch).2.collectIntervalMs = state.collectIntervalMs := by
  rw [ContainerCollectorState.observe, current]
  dsimp only
  split
  · exact ⟨rfl, rfl⟩
  · exact ⟨rfl, rfl⟩

theorem rows_observe (state : ContainerCollectorState) (order : HashOrder)
    (current : batchBucketEnd batch = some currentBucketEnd) :
    (state.observe order batch).1 = ((state.completedBucketEnd currentBucketEnd).map
      ((state.recordBatch batch currentBucketEnd).flushedRows order)).getD [] := by
  rw [ContainerCollectorState.observe, current]
  cases closing : state.completedBucketEnd currentBucketEnd with
  | none => simp [closing]
  | some bucketEnd => simp [closing, ContainerCollectorState.flush]

end Batch

end Vpsiner.Metrics
