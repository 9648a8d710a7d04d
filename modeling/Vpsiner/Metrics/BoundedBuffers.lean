import Vpsiner.Metrics.BucketizerLocality
import Vpsiner.Metrics.CollectorHost
import Vpsiner.Metrics.CounterConservation
import Vpsiner.Metrics.DownsamplingProperties
import Mathlib.Tactic.IntervalCases

/-! The buffers of the host collector are bounded, and no sample that leaves them is missed:
a bucket reads three buckets' time, and the samples of that time fit. -/

set_option autoImplicit false

namespace Vpsiner.Metrics

open Vpsiner.Lib Vpsiner.Lib.Paging

/-! ## What is read -/

section Reads

variable {left right : Bucketizer} {bucketEnd : Int}

/-- Two bucketizers hold the same of the three buckets that end after this one. -/
def SameRecent (bucketEnd : Int) (left right : Bucketizer) : Prop :=
  left.bucketLenMs = right.bucketLenMs ∧
    above RawSample.ts (bucketEnd - 2 * left.bucketLenMs) left.buffer.samples =
      above RawSample.ts (bucketEnd - 2 * left.bucketLenMs) right.buffer.samples

/-- The size of a buffer that holds the same samples shows in nothing that is collected. -/
theorem GaugeBucketizer.collect_of_samples (length : left.bucketLenMs = right.bucketLenMs)
    (samples : left.buffer.samples = right.buffer.samples) :
    GaugeBucketizer.collect left bucketEnd = GaugeBucketizer.collect right bucketEnd := by
  obtain ⟨⟨_, held, _, _⟩, _⟩ := left
  obtain ⟨⟨_, _, _, _⟩, _⟩ := right
  cases length
  cases samples
  rfl

theorem CounterBucketizer.collect_of_samples (length : left.bucketLenMs = right.bucketLenMs)
    (samples : left.buffer.samples = right.buffer.samples) :
    CounterBucketizer.collect left bucketEnd = CounterBucketizer.collect right bucketEnd := by
  obtain ⟨⟨_, held, _, _⟩, _⟩ := left
  obtain ⟨⟨_, _, _, _⟩, _⟩ := right
  cases length
  cases samples
  rfl

theorem GaugeBucketizer.collect_eq_of_recent (same : SameRecent bucketEnd left right) :
    GaugeBucketizer.collect left bucketEnd = GaugeBucketizer.collect right bucketEnd := by
  obtain ⟨length, recent⟩ := same
  have leftReads := GaugeBucketizer.collect_since (le_refl (bucketEnd - 2 * left.bucketLenMs))
  have rightReads := GaugeBucketizer.collect_since (le_refl (bucketEnd - 2 * right.bucketLenMs))
  rw [← leftReads, ← rightReads, ← length]
  exact collect_of_samples length recent

theorem CounterBucketizer.collect_eq_of_recent (same : SameRecent bucketEnd left right) :
    CounterBucketizer.collect left bucketEnd = CounterBucketizer.collect right bucketEnd := by
  obtain ⟨length, recent⟩ := same
  have leftReads := CounterBucketizer.collect_since (le_refl (bucketEnd - 2 * left.bucketLenMs))
  have rightReads := CounterBucketizer.collect_since (le_refl (bucketEnd - 2 * right.bucketLenMs))
  rw [← leftReads, ← rightReads, ← length]
  exact collect_of_samples length recent

theorem MaxBucketizer.collect_eq_of_recent (same : SameRecent bucketEnd left right) :
    MaxBucketizer.collect left bucketEnd = MaxBucketizer.collect right bucketEnd := by
  obtain ⟨length, recent⟩ := same
  rw [MaxBucketizer.collect, MaxBucketizer.collect, ← length]
  refine Option.bind_congr fun bucketLenMs whole => Option.bind_congr fun start toStart => ?_
  obtain ⟨rfl, _⟩ := checkedI64_eq_some_iff.mp whole
  obtain ⟨rfl, _⟩ := checkedI64_eq_some_iff.mp toStart
  have inside : ∀ samples : List RawSample,
      samples.filter (fun sample => bucketEnd - left.bucketLenMs < sample.ts ∧
        sample.ts ≤ bucketEnd) =
      (above RawSample.ts (bucketEnd - 2 * left.bucketLenMs) samples).filter fun sample =>
        bucketEnd - left.bucketLenMs < sample.ts ∧ sample.ts ≤ bucketEnd := by
    intro samples
    rw [above, List.filter_filter]
    apply List.filter_congr
    grind
  rw [SampleBuffer.maxIn, SampleBuffer.maxIn, inside, recent, ← inside]

end Reads

/-! ## Spaced samples -/

/-- Samples that are a gap apart are few in a window. -/
theorem length_mul_gap_le {gap : Int} (positive : 0 < gap) {samples : List RawSample} {start stop : Int}
    (spaced : samples.Pairwise fun earlier later => earlier.ts + gap ≤ later.ts)
    (window : ∀ sample ∈ samples, start < sample.ts ∧ sample.ts ≤ stop) :
    samples.length * gap ≤ max 0 (stop - start) + gap - 1 := by
  induction samples generalizing start with
  | nil =>
      simp only [List.length_nil]
      omega
  | cons head tail ih =>
      obtain ⟨apart, spacedTail⟩ := List.pairwise_cons.mp spaced
      obtain ⟨lower, upper⟩ := window head List.mem_cons_self
      have later : ∀ sample ∈ tail, head.ts + gap - 1 < sample.ts ∧ sample.ts ≤ stop := by
        intro sample member
        have := apart sample member
        have := (window sample (List.mem_cons_of_mem _ member)).2
        omega
      have few := ih spacedTail later
      have count : ((head :: tail).length : Int) * gap = tail.length * gap + gap := by
        rw [List.length_cons]
        push_cast
        ring
      rw [count]
      cases tail with
      | nil =>
          simp only [List.length_nil]
          omega
      | cons second rest =>
          have := later second List.mem_cons_self
          omega

theorem above_rtake {moment : Int} {samples : List RawSample} (ordered : Ascending RawSample.ts samples)
    {capacity : Nat} (few : (above RawSample.ts moment samples).length ≤ capacity) :
    above RawSample.ts moment (samples.rtake capacity) = above RawSample.ts moment samples := by
  obtain ⟨earlier, split, old⟩ := exists_append_above ordered moment
  have whole : (above RawSample.ts moment samples).rtake capacity =
      above RawSample.ts moment samples := by
    rw [List.rtake, Nat.sub_eq_zero_of_le few, List.drop_zero]
  conv_lhs => rw [← split]
  rw [above_rtake_append old, whole, above_above le_rfl]

/-! ## What each bucketizer is fed -/

/-- A bucketizer of the host and the values that are pushed onto it. -/
structure HostFeed where
  part : HostBucketizer → Bucketizer
  value : HostRawSample → Option Nat

def HostFeed.raw (entry : HostFeed) (sample : HostRawSample) : Option RawSample :=
  (entry.value sample).map (⟨sample.ts, ·⟩)

def hostFeeds : List HostFeed := [
  ⟨HostBucketizer.bckCpuPctMill, fun sample => some (cpuPctMill sample.cpuPct)⟩,
  ⟨HostBucketizer.bckMemUsed, fun sample => some sample.memUsed⟩,
  ⟨HostBucketizer.bckStorageUsed, fun sample => some sample.storageUsed⟩,
  ⟨HostBucketizer.bckMetricsSize, fun sample => some sample.metricsSize⟩,
  ⟨HostBucketizer.bckLogsSize, fun sample => some sample.logsSize⟩,
  ⟨HostBucketizer.bckNetRxRateMill, fun sample => some sample.netRx⟩,
  ⟨HostBucketizer.bckNetTxRateMill, fun sample => some sample.netTx⟩,
  ⟨HostBucketizer.bckDiskReadRateMill, fun sample => some sample.diskRead⟩,
  ⟨HostBucketizer.bckDiskWriteRateMill, fun sample => some sample.diskWrite⟩,
  ⟨HostBucketizer.bckLogPressurePctMill, fun sample => some sample.logPressurePctMill⟩,
  ⟨HostBucketizer.bckAppRssBytes, HostRawSample.appRssBytes⟩]

theorem ts_of_raw {entry : HostFeed} {sample : HostRawSample} {raw : RawSample}
    (fed : entry.raw sample = some raw) : raw.ts = sample.ts := by
  obtain ⟨value, _, rfl⟩ := Option.map_eq_some_iff.mp fed
  rfl

theorem part_sized (capacity : Nat) : ∀ entry ∈ hostFeeds,
    entry.part (.sized capacity) = Bucketizer.new capacity 10000 := by
  simp [hostFeeds, HostBucketizer.sized, MetricsResolution.bucketMs]

theorem part_push (bucketizer : HostBucketizer) (sample : HostRawSample) :
    ∀ entry ∈ hostFeeds, entry.part (bucketizer.push sample) =
      (entry.part bucketizer).pushAll (entry.raw sample).toList := by
  simp only [hostFeeds, List.forall_mem_cons]
  refine ⟨rfl, rfl, rfl, rfl, rfl, rfl, rfl, rfl, rfl, rfl, ?_, by simp⟩
  cases known : sample.appRssBytes with
  | none => simp [HostBucketizer.push, HostFeed.raw, known, Bucketizer.pushAll]
  | some rss => simp [HostBucketizer.push, HostFeed.raw, known, Bucketizer.pushAll]

theorem part_pushes (capacity : Nat) (samples : List HostRawSample) :
    ∀ entry ∈ hostFeeds, entry.part (samples.foldl HostBucketizer.push (.sized capacity)) =
      (Bucketizer.new capacity 10000).pushAll (samples.filterMap entry.raw) := by
  intro entry member
  induction samples using List.reverseRecOn with
  | nil => exact part_sized capacity entry member
  | append_singleton earlier sample ih =>
      rw [List.foldl_append, List.foldl_cons, List.foldl_nil, part_push _ _ entry member, ih,
        List.filterMap_append]
      cases fed : entry.raw sample with
      | none => simp [Bucketizer.pushAll, fed]
      | some raw => simp [Bucketizer.pushAll, fed]

theorem HostBucketizer.collect_eq_of_recent {left right : HostBucketizer} {bucketEnd : Int}
    (same : ∀ entry ∈ hostFeeds, SameRecent bucketEnd (entry.part left) (entry.part right)) :
    left.collect bucketEnd = right.collect bucketEnd := by
  simp only [hostFeeds, List.forall_mem_cons] at same
  obtain ⟨cpu, mem, storage, metrics, logs, rx, tx, read, write, pressure, rss, -⟩ := same
  simp only [HostBucketizer.collect, GaugeBucketizer.collect_eq_of_recent cpu,
    GaugeBucketizer.collect_eq_of_recent mem, GaugeBucketizer.collect_eq_of_recent storage,
    GaugeBucketizer.collect_eq_of_recent metrics, GaugeBucketizer.collect_eq_of_recent logs,
    CounterBucketizer.collect_eq_of_recent rx, CounterBucketizer.collect_eq_of_recent tx,
    CounterBucketizer.collect_eq_of_recent read, CounterBucketizer.collect_eq_of_recent write,
    MaxBucketizer.collect_eq_of_recent pressure, MaxBucketizer.collect_eq_of_recent rss]

/-! ## A stream of host samples -/

namespace HostCollectorState

/-- What each sample of a stream makes the collector emit. -/
def emissions (state : HostCollectorState) : List HostRawSample → List (Option HostSample)
  | [] => []
  | sample :: rest => (state.observe sample).1 :: (state.observe sample).2.emissions rest

def observeAll (state : HostCollectorState) (samples : List HostRawSample) : HostCollectorState :=
  samples.foldl (fun state sample => (state.observe sample).2) state

theorem new_eq_sized (collectIntervalMs : Nat) :
    new collectIntervalMs = sized (bufferCapacity collectIntervalMs 10000) := rfl

theorem observeAll_concat (state : HostCollectorState) (samples : List HostRawSample)
    (sample : HostRawSample) :
    state.observeAll (samples ++ [sample]) = ((state.observeAll samples).observe sample).2 := by
  simp [observeAll]

theorem observeAll_sized (capacity : Nat) (samples : List HostRawSample) :
    (sized capacity).observeAll samples = ⟨samples.foldl HostBucketizer.push (.sized capacity),
      samples.getLast?.map fun sample => bucketEnd sample.ts 10000⟩ := by
  induction samples using List.reverseRecOn with
  | nil => rfl
  | append_singleton earlier sample ih =>
      simp [observeAll_concat, ih, observe, MetricsResolution.bucketMs]

end HostCollectorState

section Stream

variable {gap : Int} {seen : List HostRawSample} {sample : HostRawSample} {moment : Int}
  {entry : HostFeed}

/-- Any two samples of the stream are at least the gap apart. -/
def Spaced (gap : Int) (samples : List HostRawSample) : Prop :=
  samples.Pairwise fun earlier later => earlier.ts + gap ≤ later.ts

theorem Spaced.raws (spaced : Spaced gap seen) (entry : HostFeed) :
    (seen.filterMap entry.raw).Pairwise fun earlier later => earlier.ts + gap ≤ later.ts := by
  rw [List.pairwise_filterMap]
  refine spaced.imp fun {earlier later} apart raw fed other otherFed => ?_
  rw [ts_of_raw fed, ts_of_raw otherFed]
  exact apart

theorem Spaced.ascending (spaced : Spaced gap seen) (positive : 0 < gap) (entry : HostFeed) :
    Ascending RawSample.ts (seen.filterMap entry.raw) :=
  (spaced.raws entry).imp fun apart => by omega

/-- The samples that a bucket reads when the first sample after it has arrived. -/
def needed (entry : HostFeed) (samples : List HostRawSample) (bucketEnd : Int) : List RawSample :=
  above RawSample.ts (bucketEnd - 20000) (samples.filterMap entry.raw)

theorem length_needed_le (spaced : Spaced gap (seen ++ [sample])) (positive : 0 < gap)
    {bucketEnd : Int} (past : ∀ earlier ∈ seen, earlier.ts ≤ bucketEnd) (entry : HostFeed) :
    ((needed entry (seen ++ [sample]) bucketEnd).length : Int) * gap ≤ 20000 + 2 * gap - 1 := by
  have before : Spaced gap seen := (List.pairwise_append.mp spaced).1
  have window : ∀ raw ∈ needed entry seen bucketEnd,
      bucketEnd - 20000 < raw.ts ∧ raw.ts ≤ bucketEnd := by
    intro raw member
    obtain ⟨inside, recent⟩ := mem_above.mp member
    obtain ⟨earlier, present, fed⟩ := List.mem_filterMap.mp inside
    exact ⟨recent, ts_of_raw fed ▸ past earlier present⟩
  have few : ((needed entry seen bucketEnd).length : Int) * gap ≤
      max 0 (bucketEnd - (bucketEnd - 20000)) + gap - 1 :=
    length_mul_gap_le positive ((before.raws entry).filter _) window
  have last : (above RawSample.ts (bucketEnd - 20000) ([sample].filterMap entry.raw)).length ≤ 1 :=
    (List.length_filter_le _ _).trans (List.length_filterMap_le _ _)
  have split : (needed entry (seen ++ [sample]) bucketEnd).length =
      (needed entry seen bucketEnd).length +
        (above RawSample.ts (bucketEnd - 20000) ([sample].filterMap entry.raw)).length := by
    rw [needed, needed, List.filterMap_append, above, List.filter_append, List.length_append]
    rfl
  have more : ((needed entry (seen ++ [sample]) bucketEnd).length : Int) ≤
      (needed entry seen bucketEnd).length + 1 := by omega
  have scaled := mul_le_mul_of_nonneg_right more positive.le
  have width : max 0 (bucketEnd - (bucketEnd - 20000)) = 20000 := by omega
  rw [width] at few
  linarith

/-- With the samples a gap of whole seconds apart, what a bucket reads fits in the buffers. -/
theorem length_needed_le_capacity {seconds : Nat} (least : 1 ≤ seconds) (most : seconds ≤ 10)
    (spaced : Spaced (1000 * seconds) (seen ++ [sample])) {bucketEnd : Int}
    (past : ∀ earlier ∈ seen, earlier.ts ≤ bucketEnd) (entry : HostFeed) :
    (needed entry (seen ++ [sample]) bucketEnd).length ≤ bufferCapacity (1000 * seconds) 10000 := by
  have few := length_needed_le spaced (by omega) past entry
  simp only [bufferCapacity, bufferedBuckets]
  interval_cases seconds <;> simp at few ⊢ <;> omega

theorem samples_part (spaced : Spaced gap seen) (positive : 0 < gap) (capacity : Nat)
    (member : entry ∈ hostFeeds) :
    (entry.part (seen.foldl HostBucketizer.push (.sized capacity))).buffer.samples =
      (seen.filterMap entry.raw).rtake capacity := by
  rw [part_pushes capacity seen entry member]
  exact (samples_pushAll (spaced.ascending positive entry) capacity 10000).2

theorem above_part (spaced : Spaced gap seen) (positive : 0 < gap) {capacity : Nat}
    {bucketEnd : Int} (member : entry ∈ hostFeeds)
    (fits : (needed entry seen bucketEnd).length ≤ capacity) :
    above RawSample.ts (bucketEnd - 20000)
      (entry.part (seen.foldl HostBucketizer.push (.sized capacity))).buffer.samples =
        needed entry seen bucketEnd := by
  rw [samples_part spaced positive capacity member]
  exact above_rtake (spaced.ascending positive entry) fits

theorem collect_pushes (spaced : Spaced gap seen) (positive : 0 < gap) {small large : Nat}
    {bucketEnd : Int}
    (fitsSmall : ∀ entry ∈ hostFeeds, (needed entry seen bucketEnd).length ≤ small)
    (fitsLarge : ∀ entry ∈ hostFeeds, (needed entry seen bucketEnd).length ≤ large) :
    (seen.foldl HostBucketizer.push (.sized small)).collect bucketEnd =
      (seen.foldl HostBucketizer.push (.sized large)).collect bucketEnd := by
  apply HostBucketizer.collect_eq_of_recent
  intro entry member
  have length : ∀ capacity, (entry.part (seen.foldl HostBucketizer.push
      (.sized capacity))).bucketLenMs = 10000 := by
    intro capacity
    rw [part_pushes capacity seen entry member, Bucketizer.bucketLenMs_pushAll]
    rfl
  rw [SameRecent, length, length]
  refine ⟨rfl, ?_⟩
  have smallReads := above_part spaced positive member (fitsSmall entry member)
  have largeReads := above_part spaced positive member (fitsLarge entry member)
  exact smallReads.trans largeReads.symm

theorem past_of_lastRawBucketEnd (spaced : Spaced gap seen) (positive : 0 < gap) {bucketEnd : Int}
    (closing : (seen.getLast?.map fun sample => Metrics.bucketEnd sample.ts 10000) =
      some bucketEnd) : ∀ earlier ∈ seen, earlier.ts ≤ bucketEnd := by
  obtain ⟨last, newest, rfl⟩ := Option.map_eq_some_iff.mp closing
  intro earlier member
  have ascending : Ascending HostRawSample.ts seen := spaced.imp fun apart => by omega
  exact (ascending.le_getLast? newest member).trans (bucketEnd_spec last.ts (by decide)).2.2

/-- A sample that closes a bucket makes both collectors emit alike. -/
theorem observe_eq {seconds : Nat} (least : 1 ≤ seconds) (most : seconds ≤ 10) {capacity : Nat}
    (spaced : Spaced (1000 * seconds) (seen ++ [sample]))
    (unbounded : (seen ++ [sample]).length ≤ capacity) :
    (((HostCollectorState.new (1000 * seconds)).observeAll seen).observe sample).1 =
      (((HostCollectorState.sized capacity).observeAll seen).observe sample).1 := by
  have positive : (0 : Int) < 1000 * seconds := by omega
  have before : Spaced (1000 * seconds) seen := (List.pairwise_append.mp spaced).1
  rw [HostCollectorState.new_eq_sized, HostCollectorState.observeAll_sized,
    HostCollectorState.observeAll_sized]
  simp only [HostCollectorState.observe]
  apply Option.bind_congr
  intro bucketEnd completed
  have past := past_of_lastRawBucketEnd before positive (Option.filter_eq_some_iff.mp completed).1
  have pushed := collect_pushes spaced positive
    (fun entry _ => length_needed_le_capacity least most spaced past entry)
    (fun entry _ => ((List.length_filter_le _ _).trans (List.length_filterMap_le _ _)).trans
      unbounded)
  simpa using pushed

/-- After any part of the stream, its rest makes both collectors emit alike. -/
theorem emissions_eq {seconds : Nat} (least : 1 ≤ seconds) (most : seconds ≤ 10)
    {capacity : Nat} {rest seen : List HostRawSample}
    (spaced : Spaced (1000 * seconds) (seen ++ rest))
    (unbounded : (seen ++ rest).length ≤ capacity) :
    ((HostCollectorState.new (1000 * seconds)).observeAll seen).emissions rest =
      ((HostCollectorState.sized capacity).observeAll seen).emissions rest := by
  induction rest generalizing seen with
  | nil => rfl
  | cons sample rest ih =>
      rw [List.append_cons] at spaced unbounded
      have here := observe_eq least most (List.pairwise_append.mp spaced).1
        ((List.sublist_append_left _ _).length_le.trans unbounded)
      have onward := ih spaced unbounded
      rw [HostCollectorState.observeAll_concat, HostCollectorState.observeAll_concat] at onward
      simp only [HostCollectorState.emissions, here, onward]

end Stream

/-- Consecutive samples are at least the gap apart. -/
def Consecutive (gap : Int) (samples : List HostRawSample) : Prop :=
  samples.IsChain fun earlier later => earlier.ts + gap ≤ later.ts

instance (gap : Int) (samples : List HostRawSample) : Decidable (Consecutive gap samples) :=
  inferInstanceAs (Decidable (samples.IsChain _))

theorem Consecutive.spaced {gap : Int} (positive : 0 < gap) {samples : List HostRawSample}
    (consecutive : Consecutive gap samples) : Spaced gap samples := by
  have transitive : IsTrans HostRawSample fun earlier later => earlier.ts + gap ≤ later.ts :=
    ⟨fun first second third near far => by omega⟩
  exact List.isChain_iff_pairwise.mp consecutive

/-- The buffers of a collector lose nothing that a closing bucket reads. -/
def KeepsNeeded (collector : HostCollectorState) (stream : List HostRawSample) : Prop :=
  ∀ seen sample rest bucketEnd, stream = seen ++ sample :: rest →
    (collector.observeAll seen).lastRawBucketEnd = some bucketEnd →
    bucketEnd < Metrics.bucketEnd sample.ts 10000 → ∀ entry ∈ hostFeeds,
      needed entry (seen ++ [sample]) bucketEnd ⊆
        (entry.part (collector.observeAll (seen ++ [sample])).bucketizer).buffer.samples

/-- The buffers of a collector lose nothing at all. -/
def KeepsAll (collector : HostCollectorState) (stream : List HostRawSample) : Prop :=
  ∀ seen rest, stream = seen ++ rest → ∀ entry ∈ hostFeeds,
    (entry.part (collector.observeAll seen).bucketizer).buffer.samples =
      seen.filterMap entry.raw

/-- Collectors with bounded buffers emit what those emit whose buffers never lose a sample. -/
theorem bounded_buffers_emit_alike {seconds : Nat} (least : 1 ≤ seconds) (most : seconds ≤ 10)
    {stream : List HostRawSample} (consecutive : Consecutive (1000 * seconds) stream)
    {capacity : Nat} (unbounded : stream.length ≤ capacity) :
    (HostCollectorState.new (1000 * seconds)).emissions stream =
        (HostCollectorState.sized capacity).emissions stream ∧
      KeepsAll (HostCollectorState.sized capacity) stream ∧
      KeepsNeeded (HostCollectorState.new (1000 * seconds)) stream := by
  have positive : (0 : Int) < 1000 * seconds := by omega
  have spaced := consecutive.spaced positive
  refine ⟨?_, ?_, ?_⟩
  · exact emissions_eq least most (show Spaced _ ([] ++ stream) from spaced) unbounded
  · rintro seen rest rfl entry member
    have before : Spaced (1000 * seconds) seen := (List.pairwise_append.mp spaced).1
    have count := (List.length_filterMap_le entry.raw seen).trans
      ((List.sublist_append_left seen rest).length_le.trans unbounded)
    rw [HostCollectorState.observeAll_sized]
    simp only [samples_part before positive capacity member, List.rtake,
      Nat.sub_eq_zero_of_le count, List.drop_zero]
  · rintro seen sample rest bucketEnd rfl closing _ entry member raw read
    rw [List.append_cons] at spaced
    have upTo : Spaced (1000 * seconds) (seen ++ [sample]) := (List.pairwise_append.mp spaced).1
    have before : Spaced (1000 * seconds) seen := (List.pairwise_append.mp upTo).1
    rw [HostCollectorState.new_eq_sized, HostCollectorState.observeAll_sized] at closing ⊢
    have fits := length_needed_le_capacity least most upTo
      (past_of_lastRawBucketEnd before positive closing) entry
    rw [← above_part upTo positive member fits] at read
    exact (mem_above.mp read).1

def steadyHost (ts : Int) (appRssBytes : Option Nat) : HostRawSample :=
  ⟨ts, some 10, 1000, 0, 0, 0, 0, 0, 0, 0, 0, appRssBytes⟩

/-- A sample every ten seconds, the second without a resident set size. -/
def steadySamples (count : Nat) : List HostRawSample :=
  (List.range count).map fun index : Nat =>
    steadyHost (10000 * index) (if index = 1 then none else some (5 + index))

/-- Of ten samples ten seconds apart the buffer for the memory has lost the first two. -/
theorem bounded_buffers_emit_alike_at_ten_seconds :
    (((HostCollectorState.new 10000).observeAll (steadySamples 10)).bucketizer.bckMemUsed.buffer
        |>.samples.map RawSample.ts) =
      [20000, 30000, 40000, 50000, 60000, 70000, 80000, 90000] ∧
    (HostCollectorState.new 10000).emissions (steadySamples 10) =
      (HostCollectorState.sized 10).emissions (steadySamples 10) := by
  have consecutive : Consecutive (1000 * (10 : Nat)) (steadySamples 10) := by decide
  exact ⟨by decide +kernel,
    (bounded_buffers_emit_alike (by decide) (by decide) consecutive (by decide)).1⟩

end Vpsiner.Metrics
