import Mathlib.Data.List.DropRight
import Mathlib.Data.Rat.Floor
import Vpsiner.Lib.OrderedSearch
import Vpsiner.Model.Metrics

/-! Interpolates raw samples into one derived value per closed bucket. The `f64`
arithmetic of the source is read as exact rationals. -/

set_option autoImplicit false

namespace Vpsiner.Metrics

open Vpsiner.Lib Vpsiner.Lib.Paging

/-- A returned rate is in thousandths of the counter's unit per second. -/
def counterRateScale : ℚ := 1000

def bufferedBuckets : Nat := 8

def bufferCapacity (collectIntervalMs bucketLenMs : Nat) : Nat :=
  max (bufferedBuckets * bucketLenMs / max collectIntervalMs 1) 4

def checkedI64 (value : Int) : Option Int :=
  if i64Min ≤ value ∧ value ≤ i64Max then some value else none

def checkedSub (left right : Int) : Option Int := checkedI64 (left - right)
def checkedAdd (left right : Int) : Option Int := checkedI64 (left + right)

/-- `i64::try_from` of a `u64`. -/
def i64FromU64 (value : Nat) : Option Int := checkedI64 value

structure RawSample where
  ts : Int
  value : Nat
deriving DecidableEq, Repr

/-- The samples of a bucketizer, oldest first. -/
structure SampleBuffer where
  capacity : Nat
  samples : List RawSample
  ordered : Ascending RawSample.ts samples
  bounded : samples.length ≤ capacity

namespace SampleBuffer

def new (capacity : Nat) : SampleBuffer := ⟨capacity, [], .nil, Nat.zero_le capacity⟩

theorem ordered_push {samples : List RawSample} (ordered : Ascending RawSample.ts samples)
    {ts : Int} (newer : ¬samples.getLast?.any (ts ≤ ·.ts)) (value : Nat) :
    Ascending RawSample.ts (samples ++ [⟨ts, value⟩]) := by
  refine List.pairwise_append.mpr ⟨ordered, List.pairwise_singleton _ _, ?_⟩
  intro earlier inside later same
  rw [List.mem_singleton.mp same]
  cases last : samples.getLast? with
  | none =>
      rw [List.getLast?_eq_none_iff.mp last] at inside
      cases inside
  | some newest =>
      rw [last, Option.any_some, decide_eq_true_eq, not_le] at newer
      exact lt_of_le_of_lt (ordered.le_getLast? last inside) newer

/-- Older or duplicate samples are ignored; the oldest ones make room. -/
def push (buffer : SampleBuffer) (ts : Int) (value : Nat) : SampleBuffer :=
  if buffer.capacity = 0 then buffer
  else if newer : buffer.samples.getLast?.any (ts ≤ ·.ts) then buffer
  else
    { capacity := buffer.capacity
      samples := (buffer.samples ++ [RawSample.mk ts value]).rtake buffer.capacity
      ordered := (ordered_push buffer.ordered newer value).rtake
      bounded := by
        rw [List.rtake, List.length_drop]
        omega }

def isEmpty (buffer : SampleBuffer) : Bool := buffer.samples.isEmpty

def maxIn (buffer : SampleBuffer) (start stop : Int) : Option Nat :=
  ((buffer.samples.filter fun sample => start < sample.ts ∧ sample.ts ≤ stop).map
    RawSample.value).max?

/-- The loop that looks for the neighbours of a boundary: the latest sample seen before it
and the first one after it, which ends the loop. -/
def searchNeighbours (boundary leftMin rightMax : Int) :
    List RawSample → Option RawSample → Option RawSample × Option RawSample
  | [], left => (left, none)
  | sample :: rest, left =>
      let left := if leftMin < sample.ts ∧ sample.ts < boundary then some sample else left
      if boundary < sample.ts ∧ sample.ts ≤ rightMax then (left, some sample)
      else searchNeighbours boundary leftMin rightMax rest left

def interpolateBoundary (buffer : SampleBuffer) (boundary leftMin rightMax : Int) : Option ℚ :=
  match buffer.samples.find? (·.ts = boundary) with
  | some sample => some sample.value
  | none => do
      let neighbours := searchNeighbours boundary leftMin rightMax buffer.samples none
      let left ← neighbours.1
      let right ← neighbours.2
      let beforeBoundary ← checkedSub boundary left.ts
      let afterBoundary ← checkedSub right.ts boundary
      let span ← checkedAdd beforeBoundary afterBoundary
      if span ≤ 0 then none
      else
        let alpha : ℚ := beforeBoundary / span
        some (left.value + alpha * (right.value - left.value))

/-- The interpolated boundaries and all strictly interior samples. -/
def bucketPoints (buffer : SampleBuffer) (bucketStart bucketEnd bucketLenMs : Int) :
    Option (List (Int × ℚ)) :=
  if bucketEnd ≤ bucketStart ∨ bucketLenMs ≤ 0 then none
  else do
    let previousBucketStart ← checkedSub bucketStart bucketLenMs
    let nextBucketEnd ← checkedAdd bucketEnd bucketLenMs
    let startValue ← buffer.interpolateBoundary bucketStart previousBucketStart bucketEnd
    let endValue ← buffer.interpolateBoundary bucketEnd bucketStart nextBucketEnd
    let hasBucketSample := buffer.samples.any fun sample =>
      bucketStart < sample.ts ∧ sample.ts ≤ bucketEnd
    let interior := (buffer.samples.filter fun sample =>
      bucketStart < sample.ts ∧ sample.ts < bucketEnd).map fun sample =>
        (sample.ts, (sample.value : ℚ))
    if !hasBucketSample then none
    else some ((bucketStart, startValue) :: (interior ++ [(bucketEnd, endValue)]))

end SampleBuffer

/-- `f64::round`: to the nearest whole number, halves away from zero. -/
def f64Round (value : ℚ) : Int :=
  if 0 ≤ value then ⌊value + 1 / 2⌋ else -⌊-value + 1 / 2⌋

/-- Rounds to `u64`; a negative or too large value has none. -/
def roundToU64 (value : ℚ) : Option Nat :=
  if value < 0 ∨ 2 ^ 64 - 1 < value then none else some (f64Round value).toNat

/-- The buffer and bucket length that every kind of bucketizer keeps. -/
structure Bucketizer where
  buffer : SampleBuffer
  bucketLenMs : Nat

def Bucketizer.new (capacity bucketLenMs : Nat) : Bucketizer := ⟨.new capacity, bucketLenMs⟩

def Bucketizer.push (bucketizer : Bucketizer) (ts : Int) (value : Nat) : Bucketizer :=
  { bucketizer with buffer := bucketizer.buffer.push ts value }

abbrev GaugeBucketizer := Bucketizer

def trapezoids : List (Int × ℚ) → ℚ → Option ℚ
  | [], integral => some integral
  | [_], integral => some integral
  | left :: right :: rest, integral => do
      let dt ← checkedSub right.1 left.1
      if dt ≤ 0 then none
      else trapezoids (right :: rest) (integral + (left.2 + right.2) * (1 / 2) * dt)

def GaugeBucketizer.collect (bucketizer : GaugeBucketizer) (bucketEnd : Int) : Option Nat :=
  if bucketizer.buffer.isEmpty ∨ bucketizer.bucketLenMs = 0 then none
  else do
    let bucketLenMs ← i64FromU64 bucketizer.bucketLenMs
    let bucketStart ← checkedSub bucketEnd bucketLenMs
    let points ← bucketizer.buffer.bucketPoints bucketStart bucketEnd bucketLenMs
    let integral ← trapezoids points 0
    roundToU64 (integral / bucketLenMs)

/-- Bucketizer for peaks, which are never interpolated. -/
abbrev MaxBucketizer := Bucketizer

def MaxBucketizer.collect (bucketizer : MaxBucketizer) (bucketEnd : Int) : Option Nat := do
  let bucketLenMs ← i64FromU64 bucketizer.bucketLenMs
  let bucketStart ← checkedSub bucketEnd bucketLenMs
  bucketizer.buffer.maxIn bucketStart bucketEnd

abbrev CounterBucketizer := Bucketizer

/-- A bucket is rejected when a sample that its boundaries need is below its predecessor. -/
def CounterBucketizer.collect (bucketizer : CounterBucketizer) (bucketEnd : Int) : Option Nat :=
  if bucketizer.buffer.isEmpty ∨ bucketizer.bucketLenMs = 0 then none
  else do
    let samples := bucketizer.buffer.samples
    let bucketLenMs ← i64FromU64 bucketizer.bucketLenMs
    let bucketStart ← checkedSub bucketEnd bucketLenMs
    let previousBucketStart ← checkedSub bucketStart bucketLenMs
    let nextBucketEnd ← checkedAdd bucketEnd bucketLenMs
    let startSampleIndex ← rposition (fun sample : RawSample =>
      previousBucketStart < sample.ts ∧ sample.ts ≤ bucketStart) samples
    let endSampleIndex ← samples.findIdx? fun sample =>
      bucketEnd ≤ sample.ts ∧ sample.ts ≤ nextBucketEnd
    if endSampleIndex < startSampleIndex then none
    else
      let relevantSamples := (samples.take (endSampleIndex + 1)).drop startSampleIndex
      if ¬relevantSamples.IsChain fun earlier later => earlier.value ≤ later.value then none
      else do
        let points ← bucketizer.buffer.bucketPoints bucketStart bucketEnd bucketLenMs
        let start ← points.head?
        let stop ← points.getLast?
        if stop.2 < start.2 then none
        else roundToU64 ((stop.2 - start.2) * counterRateScale * 1000 / bucketLenMs)

end Vpsiner.Metrics
