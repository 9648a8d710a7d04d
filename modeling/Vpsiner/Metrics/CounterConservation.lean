import Mathlib.Algebra.Order.BigOperators.Group.Finset
import Mathlib.Algebra.BigOperators.Intervals
import Vpsiner.Metrics.CounterBuckets

/-! Adjacent counter buckets share their boundary, so that their rates add up to the
advance of the counter. -/

set_option autoImplicit false

namespace Vpsiner.Metrics

open Vpsiner.Lib Vpsiner.Lib.Paging

/-! ## A stream of samples in a buffer -/

def Bucketizer.pushAll (bucketizer : Bucketizer) (samples : List RawSample) : Bucketizer :=
  samples.foldl (fun bucketizer sample => bucketizer.push sample.ts sample.value) bucketizer

/-- What has been pushed when a bucket is collected: the samples up to its end and the first
one past it. -/
def pushedAtClose (stream : List RawSample) (bucketEnd : Int) : List RawSample :=
  stream.takeWhile (·.ts ≤ bucketEnd) ++ (stream.dropWhile (·.ts ≤ bucketEnd)).take 1

def closing (capacity bucketLenMs : Nat) (stream : List RawSample) (bucketEnd : Int) :
    CounterBucketizer :=
  (Bucketizer.new capacity bucketLenMs).pushAll (pushedAtClose stream bucketEnd)

@[simp] theorem Bucketizer.bucketLenMs_pushAll (bucketizer : Bucketizer)
    (samples : List RawSample) :
    (bucketizer.pushAll samples).bucketLenMs = bucketizer.bucketLenMs := by
  induction samples generalizing bucketizer with
  | nil => rfl
  | cons sample rest ih => exact ih (bucketizer.push sample.ts sample.value)

theorem rtake_rtake_append {α : Type} (list : List α) (element : α) (count : Nat) :
    (list.rtake count ++ [element]).rtake count = (list ++ [element]).rtake count := by
  simp only [List.rtake_eq_reverse_take_reverse, List.reverse_append, List.reverse_reverse,
    List.reverse_singleton, List.singleton_append]
  cases count with
  | zero => rfl
  | succ count => rw [List.take_succ_cons, List.take_succ_cons, List.take_take,
      Nat.min_eq_left (Nat.le_succ count)]

/-- A buffer that received an ascending stream holds the end of it. -/
theorem samples_pushAll {stream : List RawSample} (ascending : Ascending RawSample.ts stream)
    (capacity bucketLenMs : Nat) :
    ((Bucketizer.new capacity bucketLenMs).pushAll stream).buffer.capacity = capacity ∧
    ((Bucketizer.new capacity bucketLenMs).pushAll stream).buffer.samples =
      stream.rtake capacity := by
  induction stream using List.reverseRecOn with
  | nil => exact ⟨rfl, (List.rtake_nil capacity).symm⟩
  | append_singleton earlier sample ih =>
      obtain ⟨ordered, _, across⟩ := List.pairwise_append.mp ascending
      obtain ⟨size, held⟩ := ih ordered
      have newer : ∀ other ∈ ((Bucketizer.new capacity bucketLenMs).pushAll earlier).buffer.samples,
          other.ts < sample.ts := by
        intro other inside
        rw [held] at inside
        exact across other ((List.drop_sublist _ _).mem inside) sample List.mem_cons_self
      rw [Bucketizer.pushAll, List.foldl_append]
      refine ⟨(SampleBuffer.capacity_push _ _ _).trans size, ?_⟩
      refine (SampleBuffer.samples_push newer).trans ?_
      rw [held, size, rtake_rtake_append]

/-! ## The curve of the stream -/

/-- The curve through a contiguous part of a stream is the curve of the stream. -/
theorem OnCurve.of_part {before part after : List RawSample}
    (ascending : Ascending RawSample.ts (before ++ (part ++ after))) {boundary : Int} {value : ℚ}
    (curve : OnCurve part boundary value) :
    OnCurve (before ++ (part ++ after)) boundary value := by
  obtain ⟨_, rest, fromBefore⟩ := List.pairwise_append.mp ascending
  obtain ⟨_, _, toAfter⟩ := List.pairwise_append.mp rest
  cases curve with
  | exact inside same =>
      exact .exact (List.mem_append_right _ (List.mem_append_left _ inside)) same
  | @between left right apart last first =>
      have leftBefore := of_decide_eq_true last.accepted
      have rightAfter := of_decide_eq_true first.accepted
      have places : ∀ sample ∈ before ++ (part ++ after),
          sample.ts < left.ts ∨ sample ∈ part ∨ right.ts < sample.ts := by
        intro sample inside
        cases List.mem_append.mp inside with
        | inl earlier =>
            exact .inl (fromBefore sample earlier left (List.mem_append_left _ last.mem))
        | inr onward =>
            cases List.mem_append.mp onward with
            | inl here => exact .inr (.inl here)
            | inr later => exact .inr (.inr (toAfter right first.mem sample later))
      refine .between ?_ ⟨List.mem_append_right _ (List.mem_append_left _ last.mem),
        last.accepted, ?_⟩ ⟨List.mem_append_right _ (List.mem_append_left _ first.mem),
        first.accepted, ?_⟩
      · intro sample inside
        obtain earlier | here | later := places sample inside
        · omega
        · exact apart sample here
        · omega
      · intro sample inside accepted
        have bound := of_decide_eq_true accepted
        obtain earlier | here | later := places sample inside
        · omega
        · exact last.greatest sample here accepted
        · omega
      · intro sample inside accepted
        have bound := of_decide_eq_true accepted
        obtain earlier | here | later := places sample inside
        · omega
        · exact first.least sample here accepted
        · omega

section Stream

variable {stream : List RawSample} {capacity bucketLenMs : Nat} {bucketEnd : Int}

theorem pushedAtClose_append (stream : List RawSample) (bucketEnd : Int) :
    pushedAtClose stream bucketEnd ++ (stream.dropWhile (·.ts ≤ bucketEnd)).drop 1 = stream := by
  rw [pushedAtClose, List.append_assoc, List.take_append_drop, List.takeWhile_append_dropWhile]

theorem onCurve_closing (ascending : Ascending RawSample.ts stream) {boundary : Int} {value : ℚ}
    (curve : OnCurve (closing capacity bucketLenMs stream bucketEnd).buffer.samples boundary
      value) : OnCurve stream boundary value := by
  have whole := pushedAtClose_append stream bucketEnd
  have pushed : Ascending RawSample.ts (pushedAtClose stream bucketEnd) := by
    rw [← whole] at ascending
    exact (List.pairwise_append.mp ascending).1
  rw [closing, (samples_pushAll pushed capacity bucketLenMs).2] at curve
  have split : (pushedAtClose stream bucketEnd).rdrop capacity ++
      ((pushedAtClose stream bucketEnd).rtake capacity ++
        (stream.dropWhile (·.ts ≤ bucketEnd)).drop 1) = stream := by
    rw [← List.append_assoc]
    refine Eq.trans (congrArg (· ++ _) ?_) whole
    exact List.take_append_drop _ _
  rw [← split] at ascending ⊢
  exact OnCurve.of_part ascending curve

/-- A rate is off its slope by half a unit at most. -/
theorem rate_error {bucketizer : CounterBucketizer} {rate : Nat} {startValue endValue : ℚ}
    (positive : 0 < bucketizer.bucketLenMs)
    (rounded : roundToU64 ((endValue - startValue) * counterRateScale * 1000 /
      bucketizer.bucketLenMs) = some rate) :
    |(rate : ℚ) * bucketizer.bucketLenMs / 10 ^ 6 - (endValue - startValue)| ≤
      (bucketizer.bucketLenMs : ℚ) / (2 * 10 ^ 6) := by
  have length : (0 : ℚ) < bucketizer.bucketLenMs := Nat.cast_pos.mpr positive
  have nearest := (roundToU64_eq_some_iff.mp rounded).2.2
  have near := abs_sub_round ((endValue - startValue) * counterRateScale * 1000 /
    (bucketizer.bucketLenMs : ℚ))
  rw [← nearest, Int.cast_natCast, counterRateScale, abs_sub_comm] at near
  have scaled : (rate : ℚ) * bucketizer.bucketLenMs / 10 ^ 6 - (endValue - startValue) =
      (rate - (endValue - startValue) * 1000 * 1000 / bucketizer.bucketLenMs) *
        (bucketizer.bucketLenMs / 10 ^ 6) := by
    field_simp
    ring
  rw [scaled, abs_mul, abs_of_pos (div_pos length (by norm_num))]
  calc |(rate : ℚ) - (endValue - startValue) * 1000 * 1000 / bucketizer.bucketLenMs| *
        (bucketizer.bucketLenMs / 10 ^ 6)
      ≤ 1 / 2 * (bucketizer.bucketLenMs / 10 ^ 6) :=
        mul_le_mul_of_nonneg_right near (div_nonneg length.le (by norm_num))
    _ = bucketizer.bucketLenMs / (2 * 10 ^ 6) := by ring

/-- What a rate says about the stream: its boundary values lie on the curve of the stream,
and it is off the advance between them by half a unit at most. -/
theorem bucket_on_stream (ascending : Ascending RawSample.ts stream) {rate : Nat}
    (collected : CounterBucketizer.collect (closing capacity bucketLenMs stream bucketEnd)
      bucketEnd = some rate) :
    ∃ startValue endValue,
      (closing capacity bucketLenMs stream bucketEnd).startValue bucketEnd = some startValue ∧
      (closing capacity bucketLenMs stream bucketEnd).endValue bucketEnd = some endValue ∧
      OnCurve stream (bucketEnd - bucketLenMs) startValue ∧
      OnCurve stream bucketEnd endValue ∧
      |(rate : ℚ) * bucketLenMs / 10 ^ 6 - (endValue - startValue)| ≤
        (bucketLenMs : ℚ) / (2 * 10 ^ 6) := by
  have length : (closing capacity bucketLenMs stream bucketEnd).bucketLenMs = bucketLenMs :=
    Bucketizer.bucketLenMs_pushAll _ _
  obtain ⟨_, positive, startValue, endValue, starts, ends, curve, _, rounded⟩ :=
    counter_of_collect collected
  have error := rate_error positive rounded
  have left := onCurve_closing ascending curve.start
  have right := onCurve_closing ascending curve.stop
  rw [length] at left error
  exact ⟨startValue, endValue, starts, ends, left, right, error⟩

end Stream

/-- Terms that follow the steps of a sequence add up to its advance, with the errors of the
steps. -/
theorem abs_sum_sub_advance_le {term total : Nat → ℚ} {error : ℚ} (count : Nat)
    (close : ∀ step < count, |term step - (total (step + 1) - total step)| ≤ error) :
    |∑ step ∈ Finset.range count, term step - (total count - total 0)| ≤ count * error := by
  rw [← Finset.sum_range_sub, ← Finset.sum_sub_distrib]
  calc |∑ step ∈ Finset.range count, (term step - (total (step + 1) - total step))|
      ≤ ∑ step ∈ Finset.range count, |term step - (total (step + 1) - total step)| :=
        Finset.abs_sum_le_sum_abs _ _
    _ ≤ ∑ _step ∈ Finset.range count, error :=
        Finset.sum_le_sum fun step inside => close step (Finset.mem_range.mp inside)
    _ = count * error := by rw [Finset.sum_const, Finset.card_range, nsmul_eq_mul]

/-- Buckets in a row that all have a rate share their boundaries, and the rates add up to
the advance of the counter between the outer ones. -/
theorem counter_conserves (capacity bucketLenMs : Nat) (stream : List RawSample)
    (ascending : Ascending RawSample.ts stream) (start : Int) (count : Nat) (nonempty : 0 < count)
    (rate : Nat → Nat)
    (collected : ∀ step < count, CounterBucketizer.collect
      (closing capacity bucketLenMs stream (start + (step + 1) * bucketLenMs))
      (start + (step + 1) * bucketLenMs) = some (rate step)) :
    ∃ value : Nat → ℚ,
      (∀ step ≤ count, OnCurve stream (start + step * bucketLenMs) (value step)) ∧
      (∀ step < count,
        (closing capacity bucketLenMs stream (start + (step + 1) * bucketLenMs)).startValue
          (start + (step + 1) * bucketLenMs) = some (value step) ∧
        (closing capacity bucketLenMs stream (start + (step + 1) * bucketLenMs)).endValue
          (start + (step + 1) * bucketLenMs) = some (value (step + 1))) ∧
      |∑ step ∈ Finset.range count, (rate step : ℚ) * bucketLenMs / 10 ^ 6 -
        (value count - value 0)| ≤ count * ((bucketLenMs : ℚ) / (2 * 10 ^ 6)) := by
  have bucket : ∀ step < count, ∃ startValue endValue,
      (closing capacity bucketLenMs stream (start + (step + 1) * bucketLenMs)).startValue
          (start + (step + 1) * bucketLenMs) = some startValue ∧
        (closing capacity bucketLenMs stream (start + (step + 1) * bucketLenMs)).endValue
          (start + (step + 1) * bucketLenMs) = some endValue ∧
        OnCurve stream (start + step * bucketLenMs) startValue ∧
        OnCurve stream (start + (step + 1 : Nat) * bucketLenMs) endValue ∧
        |(rate step : ℚ) * bucketLenMs / 10 ^ 6 - (endValue - startValue)| ≤
          (bucketLenMs : ℚ) / (2 * 10 ^ 6) := by
    intro step inside
    have place : start + (step + 1) * bucketLenMs - bucketLenMs = start + step * bucketLenMs := by
      ring
    rw [Nat.cast_succ, ← place]
    exact bucket_on_stream ascending (collected step inside)
  have onCurve : ∀ step, ∃ value, step ≤ count →
      OnCurve stream (start + step * bucketLenMs) value := by
    intro step
    by_cases inside : step < count
    · obtain ⟨value, _, _, _, curve, _⟩ := bucket step inside
      exact ⟨value, fun _ => curve⟩
    · by_cases last : step = count
      · obtain ⟨_, value, _, _, _, curve, _⟩ := bucket (count - 1) (Nat.sub_one_lt_of_lt nonempty)
        rw [Nat.sub_add_cancel nonempty] at curve
        exact ⟨value, fun _ => last ▸ curve⟩
      · exact ⟨0, fun within => by omega⟩
  obtain ⟨value, curves⟩ := Classical.skolem.mp onCurve
  have values : ∀ step < count,
      (closing capacity bucketLenMs stream (start + (step + 1) * bucketLenMs)).startValue
          (start + (step + 1) * bucketLenMs) = some (value step) ∧
        (closing capacity bucketLenMs stream (start + (step + 1) * bucketLenMs)).endValue
          (start + (step + 1) * bucketLenMs) = some (value (step + 1)) ∧
        |(rate step : ℚ) * bucketLenMs / 10 ^ 6 - (value (step + 1) - value step)| ≤
          (bucketLenMs : ℚ) / (2 * 10 ^ 6) := by
    intro step inside
    obtain ⟨startValue, endValue, starts, ends, left, right, error⟩ := bucket step inside
    rw [(curves step inside.le).unique ascending left,
      (curves (step + 1) inside).unique ascending right]
    exact ⟨starts, ends, error⟩
  exact ⟨value, curves, fun step inside => ⟨(values step inside).1, (values step inside).2.1⟩,
    abs_sum_sub_advance_le count fun step inside => (values step inside).2.2⟩

def advancingStream : List RawSample :=
  [⟨-5000, 500⟩, ⟨5000, 1500⟩, ⟨15000, 2500⟩, ⟨25000, 4500⟩]

theorem counter_conserves_two : ∃ value : Nat → ℚ,
    OnCurve advancingStream 0 (value 0) ∧ OnCurve advancingStream 20000 (value 2) ∧
      |∑ step ∈ Finset.range 2, ((if step = 0 then 100000 else 150000 : Nat) : ℚ) *
        (10000 : Nat) / 10 ^ 6 - (value 2 - value 0)| ≤
          (2 : Nat) * (((10000 : Nat) : ℚ) / (2 * 10 ^ 6)) := by
  have ascending : Ascending RawSample.ts advancingStream := by
    rw [Ascending]
    decide
  have collected : ∀ step : Nat, step < 2 → CounterBucketizer.collect
      (closing 8 10000 advancingStream (0 + (step + 1) * (10000 : Nat)))
      (0 + (step + 1) * (10000 : Nat)) = some (if step = 0 then 100000 else 150000) := by
    decide +kernel
  obtain ⟨value, curves, _, error⟩ := counter_conserves 8 10000 advancingStream ascending 0 2
    (by decide) (fun step => if step = 0 then 100000 else 150000) collected
  exact ⟨value, curves 0 (by decide), curves 2 (by decide), error⟩

end Vpsiner.Metrics
