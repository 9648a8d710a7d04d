import Vpsiner.Metrics.CounterBuckets

/-! A bucket is computed from the samples of three buckets: older ones change nothing. -/

set_option autoImplicit false

namespace Vpsiner.Metrics

open Vpsiner.Lib Vpsiner.Lib.Paging

/-- What a buffer holds of the time after a moment. -/
def SampleBuffer.since (buffer : SampleBuffer) (moment : Int) : SampleBuffer where
  capacity := buffer.capacity
  samples := above RawSample.ts moment buffer.samples
  ordered := buffer.ordered.above moment
  bounded := (List.length_filter_le _ _).trans buffer.bounded

def Bucketizer.since (bucketizer : Bucketizer) (moment : Int) : Bucketizer :=
  { bucketizer with buffer := bucketizer.buffer.since moment }

@[simp] theorem Bucketizer.bucketLenMs_since (bucketizer : Bucketizer) (moment : Int) :
    (bucketizer.since moment).bucketLenMs = bucketizer.bucketLenMs := rfl

@[simp] theorem SampleBuffer.samples_since (buffer : SampleBuffer) (moment : Int) :
    (buffer.since moment).samples = above RawSample.ts moment buffer.samples := rfl

/-! ## What a bucket reads -/

section Reads

variable {buffer : SampleBuffer} {moment boundary leftMin rightMax bucketStart bucketEnd
  bucketLenMs : Int}

theorem searchNeighbours_above (recent : moment ≤ leftMin) (proper : leftMin < boundary)
    (samples : List RawSample) (left : Option RawSample) :
    SampleBuffer.searchNeighbours boundary leftMin rightMax (above RawSample.ts moment samples)
        left = SampleBuffer.searchNeighbours boundary leftMin rightMax samples left := by
  induction samples generalizing left with
  | nil => rfl
  | cons sample rest ih =>
      by_cases later : moment < sample.ts
      · rw [above, List.filter_cons_of_pos (by simpa using later)]
        simp only [SampleBuffer.searchNeighbours]
        rw [← ih]
        rfl
      · rw [above, List.filter_cons_of_neg (by simpa using later)]
        rw [SampleBuffer.searchNeighbours, if_neg (by omega), if_neg (by omega)]
        exact ih left

theorem find?_above {samples : List RawSample} (later : moment < boundary) :
    (above RawSample.ts moment samples).find? (·.ts = boundary) =
      samples.find? (·.ts = boundary) := by
  rw [above, List.find?_filter]
  congr 1
  funext sample
  grind

theorem interpolateBoundary_since (recent : moment ≤ leftMin) (proper : leftMin < boundary) :
    (buffer.since moment).interpolateBoundary boundary leftMin rightMax =
      buffer.interpolateBoundary boundary leftMin rightMax := by
  rw [SampleBuffer.interpolateBoundary, SampleBuffer.interpolateBoundary,
    SampleBuffer.samples_since, find?_above (by omega), searchNeighbours_above recent proper]

theorem interiorPoints_above {samples : List RawSample} (recent : moment ≤ bucketStart) :
    interiorPoints (above RawSample.ts moment samples) bucketStart bucketEnd =
      interiorPoints samples bucketStart bucketEnd := by
  rw [interiorPoints, interiorPoints, above, List.filter_filter]
  congr 1
  refine List.filter_congr fun sample _ => ?_
  grind

theorem bucketPoints_since (recent : moment ≤ bucketStart - bucketLenMs) :
    (buffer.since moment).bucketPoints bucketStart bucketEnd bucketLenMs =
      buffer.bucketPoints bucketStart bucketEnd bucketLenMs := by
  refine Option.ext fun points => ?_
  rw [bucketPoints_eq_some_iff, bucketPoints_eq_some_iff]
  refine and_congr_right fun proper => and_congr_right fun positive => ?_
  refine exists_congr fun previousStart => exists_congr fun nextEnd => exists_congr fun startValue =>
    exists_congr fun endValue => and_congr_right fun previous => ?_
  obtain ⟨rfl, _⟩ := checkedI64_eq_some_iff.mp previous
  rw [interpolateBoundary_since recent (by omega), interpolateBoundary_since (by omega) proper,
    SampleBuffer.samples_since, interiorPoints_above (by omega)]
  have inside : (∃ sample ∈ above RawSample.ts moment buffer.samples,
      bucketStart < sample.ts ∧ sample.ts ≤ bucketEnd) ↔
      ∃ sample ∈ buffer.samples, bucketStart < sample.ts ∧ sample.ts ≤ bucketEnd := by
    refine exists_congr fun sample => ?_
    rw [mem_above]
    constructor
    · intro found
      exact ⟨found.1.1, found.2⟩
    · intro found
      exact ⟨⟨found.1, by omega⟩, found.2⟩
  rw [inside]

theorem bucketPoints_of_isEmpty (empty : buffer.isEmpty = true) :
    buffer.bucketPoints bucketStart bucketEnd bucketLenMs = none := by
  rw [SampleBuffer.isEmpty, List.isEmpty_iff] at empty
  refine Option.eq_none_iff_forall_not_mem.mpr fun points computed => ?_
  obtain ⟨_, _, _, _, _, _, _, _, _, _, ⟨sample, member, _⟩, _⟩ :=
    bucketPoints_eq_some_iff.mp computed
  rw [empty] at member
  cases member

end Reads

section Collect

variable {bucketizer : Bucketizer} {moment bucketEnd : Int}

/-- The test for an empty buffer saves work and changes nothing. -/
theorem GaugeBucketizer.collect_eq (bucketizer : GaugeBucketizer) (bucketEnd : Int) :
    GaugeBucketizer.collect bucketizer bucketEnd =
      (if bucketizer.bucketLenMs = 0 then none
      else do
        let bucketLenMs ← i64FromU64 bucketizer.bucketLenMs
        let bucketStart ← checkedSub bucketEnd bucketLenMs
        let points ← bucketizer.buffer.bucketPoints bucketStart bucketEnd bucketLenMs
        let integral ← trapezoids points 0
        roundToU64 (integral / bucketLenMs)) := by
  rw [GaugeBucketizer.collect]
  by_cases empty : bucketizer.buffer.isEmpty = true
  · rw [if_pos (.inl empty)]
    simp only [bucketPoints_of_isEmpty empty, Option.bind_eq_bind, Option.bind_none,
      Option.bind_fun_none, ite_self]
  · simp only [empty, false_or, Bool.false_eq_true]

/-- A mean needs only the samples of its bucket and of the two around it. -/
theorem GaugeBucketizer.collect_since (recent : moment ≤ bucketEnd - 2 * bucketizer.bucketLenMs) :
    GaugeBucketizer.collect (bucketizer.since moment) bucketEnd =
      GaugeBucketizer.collect bucketizer bucketEnd := by
  rw [collect_eq, collect_eq, Bucketizer.bucketLenMs_since]
  refine if_congr Iff.rfl rfl (Option.bind_congr fun length whole => ?_)
  obtain ⟨rfl, _⟩ := checkedI64_eq_some_iff.mp whole
  refine Option.bind_congr fun start toStart => ?_
  obtain ⟨rfl, _⟩ := checkedI64_eq_some_iff.mp toStart
  exact congrArg (Option.bind · _) (bucketPoints_since (by omega))

/-- Without the older samples the searched indices move, and the samples between them are
the same. -/
theorem CounterBucketizer.collect_since_of_nonempty
    (recent : moment ≤ bucketEnd - 2 * bucketizer.bucketLenMs)
    (filled : (bucketizer.since moment).buffer.isEmpty = false) :
    CounterBucketizer.collect (bucketizer.since moment) bucketEnd =
      CounterBucketizer.collect bucketizer bucketEnd := by
  obtain ⟨earlier, split, before⟩ := exists_append_above bucketizer.buffer.ordered moment
  have last : ∀ previous start : Int, moment ≤ previous →
      rposition (fun sample : RawSample => previous < sample.ts ∧ sample.ts ≤ start)
          bucketizer.buffer.samples =
        (rposition (fun sample : RawSample => previous < sample.ts ∧ sample.ts ≤ start)
          (above RawSample.ts moment bucketizer.buffer.samples)).map (· + earlier.length) := by
    intro previous start later
    conv_lhs => rw [← split]
    refine rposition_append_of_rejected fun sample inside => decide_eq_false ?_
    have := before sample inside
    omega
  have first : ∀ next : Int, moment < bucketEnd →
      bucketizer.buffer.samples.findIdx?
          (fun sample => bucketEnd ≤ sample.ts ∧ sample.ts ≤ next) =
        ((above RawSample.ts moment bucketizer.buffer.samples).findIdx?
          fun sample => bucketEnd ≤ sample.ts ∧ sample.ts ≤ next).map (· + earlier.length) := by
    intro next later
    conv_lhs => rw [← split]
    refine findIdx?_append_of_rejected fun sample inside => decide_eq_false ?_
    have := before sample inside
    omega
  have slice : ∀ start stop : Nat, (bucketizer.buffer.samples.take
      (stop + earlier.length + 1)).drop (start + earlier.length) =
        ((above RawSample.ts moment bucketizer.buffer.samples).take (stop + 1)).drop start := by
    intro start stop
    conv_lhs => rw [← split]
    exact slice_append _ _ start stop
  have nonempty : bucketizer.buffer.isEmpty = false := by
    refine Bool.eq_false_iff.mpr fun empty => ?_
    have nothing : (bucketizer.since moment).buffer.samples = [] := by
      rw [Bucketizer.since, SampleBuffer.samples_since, List.isEmpty_iff.mp empty]
      rfl
    rw [SampleBuffer.isEmpty, nothing] at filled
    cases filled
  rw [CounterBucketizer.collect, CounterBucketizer.collect, filled, nonempty,
    Bucketizer.bucketLenMs_since]
  by_cases zero : bucketizer.bucketLenMs = 0
  · rw [if_pos (.inr zero), if_pos (.inr zero)]
  · simp only [zero, Bool.false_eq_true, or_self, if_false]
    refine Option.bind_congr fun length whole => Option.bind_congr fun start toStart =>
      Option.bind_congr fun previous toPrevious => Option.bind_congr fun next toNext => ?_
    obtain ⟨rfl, _⟩ := checkedI64_eq_some_iff.mp whole
    obtain ⟨rfl, _⟩ := checkedI64_eq_some_iff.mp toStart
    obtain ⟨rfl, _⟩ := checkedI64_eq_some_iff.mp toPrevious
    rw [last _ _ (by omega), first next (by omega)]
    simp only [Option.bind_eq_bind, Option.bind_map]
    refine Option.bind_congr fun startIndex _ => Option.bind_congr fun endIndex _ => ?_
    have points : (bucketizer.since moment).buffer.bucketPoints
        (bucketEnd - bucketizer.bucketLenMs) bucketEnd bucketizer.bucketLenMs =
          bucketizer.buffer.bucketPoints (bucketEnd - bucketizer.bucketLenMs) bucketEnd
            bucketizer.bucketLenMs := bucketPoints_since (by omega)
    rw [points]
    simp only [Function.comp_apply, slice, Nat.add_lt_add_iff_right]
    rfl

/-- A rate needs only the samples of its bucket and of the two around it. -/
theorem CounterBucketizer.collect_since
    (recent : moment ≤ bucketEnd - 2 * bucketizer.bucketLenMs) :
    CounterBucketizer.collect (bucketizer.since moment) bucketEnd =
      CounterBucketizer.collect bucketizer bucketEnd := by
  cases filled : (bucketizer.since moment).buffer.isEmpty with
  | false => exact collect_since_of_nonempty recent filled
  | true =>
      have nothing : CounterBucketizer.collect bucketizer bucketEnd = none := by
        refine Option.eq_none_iff_forall_not_mem.mpr fun rate collected => ?_
        obtain ⟨⟨first, _, isLast, _⟩, _⟩ := counter_of_collect collected
        have window := of_decide_eq_true isLast.accepted
        have held : first ∈ (bucketizer.since moment).buffer.samples :=
          mem_above.mpr ⟨isLast.mem, by omega⟩
        rw [List.isEmpty_iff.mp filled] at held
        cases held
      rw [nothing, CounterBucketizer.collect, filled, if_pos (.inl rfl)]

end Collect

/-! ## Pushing onto what is kept -/

theorem SampleBuffer.eq_of_samples {left right : SampleBuffer}
    (capacity : left.capacity = right.capacity) (samples : left.samples = right.samples) :
    left = right := by
  cases left
  cases right
  cases capacity
  cases samples
  rfl

theorem above_above {earlier later : Int} (order : earlier ≤ later) (samples : List RawSample) :
    above RawSample.ts later (above RawSample.ts earlier samples) =
      above RawSample.ts later samples := by
  rw [above, above, above, List.filter_filter]
  refine List.filter_congr fun sample _ => ?_
  grind

theorem above_eq_nil {moment : Int} {samples : List RawSample}
    (old : ∀ sample ∈ samples, sample.ts ≤ moment) : above RawSample.ts moment samples = [] :=
  List.filter_eq_nil_iff.mpr fun sample inside => by simpa using old sample inside

/-- What makes room at the old end is not missed behind the moment. -/
theorem above_rtake_append {moment : Int} {earlier : List RawSample}
    (old : ∀ sample ∈ earlier, sample.ts ≤ moment) (samples : List RawSample) (capacity : Nat) :
    above RawSample.ts moment ((earlier ++ samples).rtake capacity) =
      above RawSample.ts moment (samples.rtake capacity) := by
  have place : (earlier ++ samples).length - capacity - earlier.length =
      samples.length - capacity := by
    rw [List.length_append]
    omega
  rw [List.rtake, List.rtake, List.drop_append, place, above, List.filter_append]
  exact congrArg (· ++ _) (above_eq_nil fun sample inside =>
    old sample ((List.drop_sublist _ _).mem inside))

theorem SampleBuffer.push_of_older {buffer : SampleBuffer} {ts : Int} {value : Nat}
    {sample : RawSample} (member : sample ∈ buffer.samples) (older : ts ≤ sample.ts) :
    buffer.push ts value = buffer := by
  rw [SampleBuffer.push]
  split
  · rfl
  · refine dif_pos ?_
    have filled := List.getLast?_eq_some_getLast (List.ne_nil_of_mem member)
    rw [filled, Option.any_some, decide_eq_true_eq]
    exact older.trans (buffer.ordered.le_getLast? filled member)

/-- A push reads only the end of the buffer. -/
theorem SampleBuffer.since_push (buffer : SampleBuffer) (moment ts : Int) (value : Nat) :
    (buffer.push ts value).since moment = ((buffer.since moment).push ts value).since moment := by
  refine SampleBuffer.eq_of_samples ?_ ?_
  · rw [since, capacity_push, since, capacity_push, since]
  · rw [samples_since, samples_since]
    by_cases newer : ∀ sample ∈ buffer.samples, sample.ts < ts
    · have still : ∀ sample ∈ (buffer.since moment).samples, sample.ts < ts :=
        fun sample inside => newer sample (mem_above.mp inside).1
      obtain ⟨earlier, split, before⟩ := exists_append_above buffer.ordered moment
      rw [samples_push newer, samples_push still, ← split, List.append_assoc,
        above_rtake_append before]
      rfl
    · push Not at newer
      obtain ⟨sample, member, older⟩ := newer
      rw [push_of_older member older]
      by_cases kept : ∃ other ∈ (buffer.since moment).samples, ts ≤ other.ts
      · obtain ⟨other, inside, behind⟩ := kept
        rw [push_of_older inside behind]
        exact (above_above le_rfl _).symm
      · push Not at kept
        -- The newer sample is not kept, so that nothing is, and the pushed one is old too.
        have passed : sample.ts ≤ moment := by
          by_contra late
          have := kept sample (mem_above.mpr ⟨member, by omega⟩)
          omega
        have nothing : (buffer.since moment).samples = [] :=
          List.eq_nil_iff_forall_not_mem.mpr fun other inside => by
            have := kept other inside
            have := (mem_above.mp inside).2
            omega
        rw [samples_push kept, nothing]
        refine nothing.trans (above_eq_nil fun other inside => ?_).symm
        rw [List.mem_singleton.mp ((List.drop_sublist _ _).mem inside)]
        exact older.trans passed

theorem Bucketizer.since_push (bucketizer : Bucketizer) (moment ts : Int) (value : Nat) :
    (bucketizer.push ts value).since moment =
      ((bucketizer.since moment).push ts value).since moment :=
  congrArg (Bucketizer.mk · bucketizer.bucketLenMs)
    (SampleBuffer.since_push bucketizer.buffer moment ts value)

end Vpsiner.Metrics
