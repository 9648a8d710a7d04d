import Vpsiner.Lib.Machine
import Vpsiner.Metrics.BoundedBuffers

/-! How full the log channel gets: the log tasks raise a shared peak, which each sample of the host
takes away, and the peak of a bucket is stored with it. -/

set_option autoImplicit false

namespace Vpsiner.Metrics

open Lib Lib.Paging

/-- In milli-units of a percent. -/
def channelPressurePctMill (maxCapacity capacity : Nat) : Nat :=
  if maxCapacity = 0 then 0
  else
    let depth := maxCapacity - capacity
    depth * 100000 / maxCapacity

/-- `capacity` is what is free of the channel, `sent` counts the log tasks that have sent a line and
not yet looked at the channel, and `measured` are the values they are about to store. `raised` are
the values stored since the last sample, and `samples` all samples with the values stored before
each. The program keeps neither. -/
structure PressureSystem where
  maxCapacity : Nat
  capacity : Nat
  sent : Nat := 0
  measured : List Nat := []
  logPressurePctMill : Nat := 0
  collector : HostCollectorState
  emitted : List HostSample := []
  raised : List Nat := []
  samples : List (HostRawSample × List Nat) := []

inductive PressureAction where
  | send
  | receive
  | measure
  | raise (value : Nat)
  /-- `collect_host_once`; the sizes of the databases may not be found out. -/
  | collect (sample : HostRawSample) (metricsSize logsSize : Option Nat)
deriving DecidableEq

namespace PressureSystem

variable (system : PressureSystem)

/-- What is sampled with what is filled in. -/
def complete (sample : HostRawSample) (metricsSize logsSize : Nat) : HostRawSample :=
  { sample with metricsSize, logsSize, logPressurePctMill := system.logPressurePctMill }

def step : PressureAction → Option PressureSystem
  | .send =>
      if system.capacity = 0 then none
      else some { system with capacity := system.capacity - 1, sent := system.sent + 1 }
  | .receive =>
      if system.capacity < system.maxCapacity then
        some { system with capacity := system.capacity + 1 }
      else none
  | .measure =>
      if system.sent = 0 then none
      else some { system with
        sent := system.sent - 1
        measured := channelPressurePctMill system.maxCapacity system.capacity :: system.measured }
  | .raise value =>
      if value ∈ system.measured then
        some { system with
          measured := system.measured.erase value
          logPressurePctMill := max system.logPressurePctMill value
          raised := system.raised ++ [value] }
      else none
  | .collect sample (some metricsSize) (some logsSize) =>
      let sample := system.complete sample metricsSize logsSize
      let (row, collector) := system.collector.observe sample
      some { system with
        logPressurePctMill := 0
        collector
        emitted := system.emitted ++ row.toList
        raised := []
        samples := system.samples ++ [(sample, system.raised)] }
  | .collect _ _ _ => some system

end PressureSystem

def logPressure (maxCapacity collectIntervalMs : Nat) : Machine PressureSystem PressureAction where
  start := { maxCapacity, capacity := maxCapacity, collector := .new collectIntervalMs }
  step := PressureSystem.step

/-! ## The peak is the highest value stored -/

def peak (values : List Nat) : Nat := values.foldl max 0

theorem peak_append_singleton (values : List Nat) (value : Nat) :
    peak (values ++ [value]) = max (peak values) value := by
  simp [peak]

theorem channelPressurePctMill_le (maxCapacity capacity : Nat) :
    channelPressurePctMill maxCapacity capacity ≤ 100000 := by
  unfold channelPressurePctMill
  split
  · exact Nat.zero_le _
  · next filled =>
      apply Nat.div_le_of_le_mul
      exact Nat.mul_le_mul_right _ (Nat.sub_le _ _)

namespace PressureSystem

variable {collectIntervalMs : Nat} {system after : PressureSystem} {action : PressureAction}

/-- The samples in the order in which they were taken. -/
def stream (system : PressureSystem) : List HostRawSample := system.samples.map Prod.fst

/-- Each row closes a bucket with the sample that came after it. -/
def Emitted (collectIntervalMs : Nat) (stream : List HostRawSample) (row : HostSample) : Prop :=
  ∃ seen sample rest, stream = seen ++ sample :: rest ∧
    (((HostCollectorState.new collectIntervalMs).observeAll seen).observe sample).1 = some row

structure PressureInv (collectIntervalMs : Nat) (system : PressureSystem) : Prop where
  current : system.logPressurePctMill = peak system.raised
  taken : ∀ entry ∈ system.samples, entry.1.logPressurePctMill = peak entry.2
  bounded : ∀ value, value ∈ system.measured ∨ value ∈ system.raised ∨
    (∃ entry ∈ system.samples, value ∈ entry.2) → value ≤ 100000
  collector : system.collector =
    (HostCollectorState.new collectIntervalMs).observeAll system.stream
  emitted : ∀ row ∈ system.emitted, Emitted collectIntervalMs system.stream row

theorem PressureInv.collect (inv : PressureInv collectIntervalMs system) (sample : HostRawSample)
    (metricsSize logsSize : Nat) {row : Option HostSample} {collector : HostCollectorState}
    (observed : system.collector.observe (system.complete sample metricsSize logsSize) =
      (row, collector)) :
    PressureInv collectIntervalMs { system with
      logPressurePctMill := 0
      collector
      emitted := system.emitted ++ row.toList
      raised := []
      samples := system.samples ++
        [(system.complete sample metricsSize logsSize, system.raised)] } := by
  have stream : stream { system with
      logPressurePctMill := 0
      collector
      emitted := system.emitted ++ row.toList
      raised := []
      samples := system.samples ++
        [(system.complete sample metricsSize logsSize, system.raised)] } =
      system.stream ++ [system.complete sample metricsSize logsSize] := by
    simp [PressureSystem.stream]
  refine ⟨rfl, ?_, ?_, ?_, ?_⟩
  · intro entry member
    rcases List.mem_append.mp member with older | newer
    · exact inv.taken entry older
    · rw [List.mem_singleton.mp newer]
      exact inv.current
  · rintro value (measured | raised | ⟨entry, member, inside⟩)
    · exact inv.bounded value (.inl measured)
    · cases raised
    · rcases List.mem_append.mp member with older | newer
      · exact inv.bounded value (.inr (.inr ⟨entry, older, inside⟩))
      · rw [List.mem_singleton.mp newer] at inside
        exact inv.bounded value (.inr (.inl inside))
  · rw [stream, HostCollectorState.observeAll_concat, ← inv.collector, observed]
  · rw [stream]
    intro emitted member
    rcases List.mem_append.mp member with older | newer
    · obtain ⟨seen, closing, rest, split, made⟩ := inv.emitted emitted older
      refine ⟨seen, closing, rest ++ [system.complete sample metricsSize logsSize], ?_, made⟩
      simp [split]
    · refine ⟨system.stream, _, [], rfl, ?_⟩
      rw [← inv.collector, observed]
      simpa using newer

theorem PressureInv.step (inv : PressureInv collectIntervalMs system)
    (taken : system.step action = some after) : PressureInv collectIntervalMs after := by
  cases action with
  | send =>
      simp only [PressureSystem.step] at taken
      split at taken
      · cases taken
      · cases taken
        exact ⟨inv.current, inv.taken, inv.bounded, inv.collector, inv.emitted⟩
  | receive =>
      simp only [PressureSystem.step] at taken
      split at taken
      · cases taken
        exact ⟨inv.current, inv.taken, inv.bounded, inv.collector, inv.emitted⟩
      · cases taken
  | measure =>
      simp only [PressureSystem.step] at taken
      split at taken
      · cases taken
      · cases taken
        refine ⟨inv.current, inv.taken, ?_, inv.collector, inv.emitted⟩
        rintro value (measured | elsewhere)
        · rcases List.mem_cons.mp measured with rfl | older
          · exact channelPressurePctMill_le ..
          · exact inv.bounded value (.inl older)
        · exact inv.bounded value (.inr elsewhere)
  | raise value =>
      simp only [PressureSystem.step] at taken
      split at taken
      · next pending =>
          cases taken
          refine ⟨?_, inv.taken, ?_, inv.collector, inv.emitted⟩
          · rw [peak_append_singleton, inv.current]
          · rintro other (measured | raised | elsewhere)
            · exact inv.bounded other (.inl (List.mem_of_mem_erase measured))
            · rcases List.mem_append.mp raised with older | newer
              · exact inv.bounded other (.inr (.inl older))
              · rw [List.mem_singleton.mp newer]
                exact inv.bounded value (.inl pending)
            · exact inv.bounded other (.inr (.inr elsewhere))
      · cases taken
  | collect sample metricsSize logsSize =>
      cases metricsSize with
      | none =>
          cases taken
          exact inv
      | some metricsSize =>
          cases logsSize with
          | none =>
              cases taken
              exact inv
          | some logsSize =>
              cases taken
              exact inv.collect sample metricsSize logsSize rfl

theorem pressureInv_reachable {maxCapacity : Nat}
    (reached : (logPressure maxCapacity collectIntervalMs).Reachable Machine.anyStep system) :
    PressureInv collectIntervalMs system := by
  apply reached.invariant (PressureInv collectIntervalMs)
  · exact ⟨rfl, by simp [logPressure], by simp [logPressure], rfl, by simp [logPressure]⟩
  · exact fun inv _ taken => inv.step taken

end PressureSystem

/-! ## The peak of a row -/

/-- The sample lies in the ten seconds that end there. -/
def InBucket (bucketEnd : Int) (sample : HostRawSample) : Prop :=
  bucketEnd - 10000 < sample.ts ∧ sample.ts ≤ bucketEnd

instance (bucketEnd : Int) : DecidablePred (InBucket bucketEnd) :=
  fun _ => inferInstanceAs (Decidable (_ ∧ _))

section Rows

variable {seen rest : List HostRawSample} {sample : HostRawSample} {bucketEnd : Int}
  {row : HostSample}

theorem start_of_gauge {bucketizer : GaugeBucketizer} {value : Nat}
    (made : GaugeBucketizer.collect bucketizer bucketEnd = some value) :
    ∃ length start, i64FromU64 bucketizer.bucketLenMs = some length ∧
      checkedSub bucketEnd length = some start := by
  unfold GaugeBucketizer.collect at made
  split at made
  · cases made
  · simp only [Option.bind_eq_bind, Option.bind_eq_some_iff] at made
    obtain ⟨length, whole, start, fits, _⟩ := made
    exact ⟨length, start, whole, fits⟩

theorem maxBucketizer_collect {bucketizer : MaxBucketizer} {length start : Int}
    (whole : i64FromU64 bucketizer.bucketLenMs = some length)
    (fits : checkedSub bucketEnd length = some start) :
    MaxBucketizer.collect bucketizer bucketEnd =
      bucketizer.buffer.maxIn (bucketEnd - bucketizer.bucketLenMs) bucketEnd := by
  obtain ⟨rfl, _⟩ := checkedI64_eq_some_iff.mp whole
  obtain ⟨rfl, _⟩ := checkedI64_eq_some_iff.mp fits
  simp [MaxBucketizer.collect, whole, fits]

def pressureFeed : HostFeed :=
  ⟨HostBucketizer.bckLogPressurePctMill, fun sample => some sample.logPressurePctMill⟩

theorem pressureFeed_mem : pressureFeed ∈ hostFeeds := by
  simp [hostFeeds, pressureFeed]

theorem fields_of_collect {bucketizer : HostBucketizer}
    (made : bucketizer.collect bucketEnd = some row) :
    row.ts = bucketEnd ∧
      row.logPressurePctMill = MaxBucketizer.collect (pressureFeed.part bucketizer) bucketEnd ∧
      ∃ value, GaugeBucketizer.collect bucketizer.bckCpuPctMill bucketEnd = some value := by
  simp only [HostBucketizer.collect, Option.bind_eq_bind, Option.bind_eq_some_iff,
    Option.some.injEq] at made
  obtain ⟨cpu, found, _, _, _, _, _, _, _, _, rfl⟩ := made
  exact ⟨rfl, rfl, cpu, found⟩

/-- A bucket reads only what is newer than the bucket before it. -/
theorem filter_above (samples : List RawSample) :
    (above RawSample.ts (bucketEnd - 20000) samples).filter (fun raw =>
      bucketEnd - 10000 < raw.ts ∧ raw.ts ≤ bucketEnd) =
    samples.filter fun raw => bucketEnd - 10000 < raw.ts ∧ raw.ts ≤ bucketEnd := by
  rw [above, List.filter_filter]
  apply List.filter_congr
  intro raw _
  simp
  omega

theorem values_in_bucket (samples : List HostRawSample) :
    ((samples.filterMap pressureFeed.raw).filter fun raw => bucketEnd - 10000 < raw.ts ∧ raw.ts ≤ bucketEnd).map RawSample.value =
    (samples.filter fun sample => InBucket bucketEnd sample).map HostRawSample.logPressurePctMill := by
  induction samples with
  | nil => rfl
  | cons sample rest ih =>
      by_cases inside : InBucket bucketEnd sample
      · have kept : bucketEnd - 10000 < sample.ts ∧ sample.ts ≤ bucketEnd := inside
        simpa [HostFeed.raw, pressureFeed, inside, kept] using ih
      · have dropped : ¬(bucketEnd - 10000 < sample.ts ∧ sample.ts ≤ bucketEnd) := inside
        simpa [HostFeed.raw, pressureFeed, inside, dropped] using ih

/-- The row of a bucket has the highest pressure of its samples, none of which was lost. -/
theorem peak_of_observe {seconds : Nat} (least : 1 ≤ seconds) (most : seconds ≤ 10)
    (spaced : Spaced (1000 * seconds) (seen ++ [sample]))
    (made : (((HostCollectorState.new (1000 * seconds)).observeAll seen).observe sample).1 =
      some row) :
    row.ts < sample.ts ∧ row.logPressurePctMill =
      (((seen ++ [sample]).filter fun sample => InBucket row.ts sample).map
        HostRawSample.logPressurePctMill).max? := by
  have positive : (0 : Int) < 1000 * seconds := by omega
  have before : Spaced (1000 * seconds) seen := (List.pairwise_append.mp spaced).1
  rw [HostCollectorState.new_eq_sized, HostCollectorState.observeAll_sized] at made
  obtain ⟨bucketEnd, completed, collected⟩ := Option.bind_eq_some_iff.mp made
  obtain ⟨closing, newer⟩ := Option.filter_eq_some_iff.mp completed
  have past := past_of_lastRawBucketEnd before positive closing
  have fits := length_needed_le_capacity least most spaced past
  obtain ⟨rfl, pressure, cpu, found⟩ := fields_of_collect collected
  -- The row ends a whole bucket before that of the sample.
  obtain ⟨last, _, ends⟩ := Option.map_eq_some_iff.mp closing
  have rowWhole := (bucketEnd_spec last.ts (show (0 : Int) < 10000 by decide)).1
  obtain ⟨nextWhole, begun, _⟩ := bucketEnd_spec sample.ts (show (0 : Int) < 10000 by decide)
  rw [ends] at rowWhole
  have later : row.ts < bucketEnd sample.ts 10000 := of_decide_eq_true newer
  refine ⟨by omega, ?_⟩
  have pushes : (seen.foldl HostBucketizer.push
      (.sized (bufferCapacity (1000 * seconds) 10000))).push sample =
      (seen ++ [sample]).foldl HostBucketizer.push
        (.sized (bufferCapacity (1000 * seconds) 10000)) := by
    simp
  rw [pushes] at pressure found
  have held : ∀ entry ∈ hostFeeds, (entry.part ((seen ++ [sample]).foldl HostBucketizer.push
      (.sized (bufferCapacity (1000 * seconds) 10000)))).bucketLenMs = 10000 := by
    intro entry member
    rw [part_pushes _ _ entry member, Bucketizer.bucketLenMs_pushAll]
    rfl
  have cpuLength := held _ (List.mem_cons_self : (⟨HostBucketizer.bckCpuPctMill, _⟩ : HostFeed) ∈ _)
  have length := held _ pressureFeed_mem
  obtain ⟨_, _, whole, started⟩ := start_of_gauge found
  rw [cpuLength, ← length] at whole
  have recent := above_part spaced positive pressureFeed_mem (fits pressureFeed)
  have read : row.logPressurePctMill =
      (((pressureFeed.part ((seen ++ [sample]).foldl HostBucketizer.push
        (.sized (bufferCapacity (1000 * seconds) 10000)))).buffer.samples.filter fun raw =>
          row.ts - 10000 < raw.ts ∧ raw.ts ≤ row.ts).map RawSample.value).max? := by
    rw [pressure, maxBucketizer_collect whole started, length]
    rfl
  rw [read, ← filter_above, recent, needed, filter_above, values_in_bucket]

end Rows

namespace PressureSystem

variable {system : PressureSystem}

/-- The samples that fall into a bucket, each with the values stored before it. -/
def inBucket (system : PressureSystem) (bucketEnd : Int) : List (HostRawSample × List Nat) :=
  system.samples.filter fun entry => InBucket bucketEnd entry.1

/-- Every value that a log task stores is taken away by one sample, none is above 100 percent, and
the peak of a bucket is the highest value of its samples. -/
theorem peaks_reach_rows {maxCapacity seconds : Nat} (least : 1 ≤ seconds) (most : seconds ≤ 10)
    (reached : (logPressure maxCapacity (1000 * seconds)).Reachable Machine.anyStep system)
    (consecutive : Consecutive (1000 * seconds) system.stream) :
    (∀ row ∈ system.emitted, row.logPressurePctMill =
      ((system.inBucket row.ts).map fun entry => peak entry.2).max?) ∧
    system.logPressurePctMill = peak system.raised ∧
    ∀ value, (value ∈ system.raised ∨ ∃ entry ∈ system.samples, value ∈ entry.2) →
      value ≤ 100000 := by
  have inv := pressureInv_reachable reached
  have spaced := consecutive.spaced (by omega)
  refine ⟨fun row member => ?_, inv.current, fun value stored => inv.bounded value (.inr stored)⟩
  obtain ⟨seen, sample, rest, split, made⟩ := inv.emitted row member
  rw [split, List.append_cons] at spaced
  obtain ⟨upTo, _, apart⟩ := List.pairwise_append.mp spaced
  obtain ⟨before, pressure⟩ := peak_of_observe least most upTo made
  have none : rest.filter (fun sample => InBucket row.ts sample) = [] := by
    apply List.filter_eq_nil_iff.mpr
    intro later inside
    have far := apart sample (by simp) later inside
    intro inBucket
    have within : later.ts ≤ row.ts := (of_decide_eq_true inBucket).2
    omega
  have stream : (seen ++ [sample]).filter (fun sample => InBucket row.ts sample) =
      system.stream.filter fun sample => InBucket row.ts sample := by
    simp [split, List.filter_cons, none]
  rw [pressure, stream, PressureSystem.stream, List.filter_map, List.map_map]
  congr 1
  apply List.map_congr_left
  intro entry inside
  exact inv.taken entry (List.mem_filter.mp inside).1

/-- The sample in the middle of the bucket fails for want of a size, and the next one has the peak. -/
theorem peaks_reach_rows_failed_sample : ∃ system : PressureSystem,
    system.emitted.map HostSample.logPressurePctMill = [some 75000] ∧
      ∀ row ∈ system.emitted, row.logPressurePctMill =
        ((system.inBucket row.ts).map fun entry => peak entry.2).max? := by
  let machine := logPressure 4 (1000 * 10)
  have ran : (machine.run (fun _ _ => true) machine.start [
      .send, .send, .measure, .raise 50000, .collect (steadyHost 0 none) (some 1) (some 1), .send,
      .measure, .raise 75000, .measure, .collect (steadyHost 5000 none) none (some 1), .receive,
      .collect (steadyHost 10000 none) (some 1) (some 1), .raise 75000,
      .collect (steadyHost 20000 none) (some 1) (some 1)]).map (fun system =>
        (system.emitted.map HostSample.logPressurePctMill,
          decide (Consecutive (1000 * (10 : Nat)) system.stream))) =
      some ([some 75000], true) := by decide +kernel
  obtain ⟨system, taken, read⟩ := Option.map_eq_some_iff.mp ran
  obtain ⟨peaks, consecutive⟩ := Prod.mk.inj read
  have reached : machine.Reachable Machine.anyStep system := .of_run _ taken
  exact ⟨system, peaks, (peaks_reach_rows (by decide) (by decide) reached
    (of_decide_eq_true consecutive)).1⟩

end PressureSystem

end Vpsiner.Metrics
