import Vpsiner.Lib.Machine
import Vpsiner.Metrics.CollectorContainersProperties
import Vpsiner.Metrics.CollectorHost
import Vpsiner.Metrics.DownsamplingProperties

/-! The rows that collectors emit over the runs of a process that may be restarted. A row is
for a bucket that has passed, and no later bucket's rows come before it. -/

set_option autoImplicit false

namespace Vpsiner.Metrics

open Vpsiner.Lib

universe u

/-! ## Collectors -/

/-- A collector that yields the rows of the bucket it was in when time enters a later one. -/
structure BucketCollector (σ : Type) (ι : Type u) (ρ κ : Type) where
  fresh : Nat → σ
  moment : ι → Option Int
  observe : σ → ι → List ρ × σ
  lastRawBucketEnd : σ → Option Int
  ts : ρ → Int
  key : ρ → κ
  ts_of_key : ∀ {row other : ρ}, key row = key other → ts row = ts other
  lastRawBucketEnd_fresh : ∀ collectIntervalMs, lastRawBucketEnd (fresh collectIntervalMs) = none
  lastRawBucketEnd_observe : ∀ {state input now}, moment input = some now →
    lastRawBucketEnd (observe state input).2 = some (bucketEnd now 10000)
  closed : ∀ {state input now}, moment input = some now → ∀ row ∈ (observe state input).1,
    lastRawBucketEnd state = some (ts row) ∧ ts row < bucketEnd now 10000
  silent : ∀ {state input}, moment input = none → observe state input = ([], state)
  distinct : ∀ state input, ((observe state input).1.map key).Nodup

def hostCollector : BucketCollector HostCollectorState HostRawSample HostSample Int where
  fresh := .new
  moment sample := some sample.ts
  observe state sample := ((state.observe sample).1.toList, (state.observe sample).2)
  lastRawBucketEnd := HostCollectorState.lastRawBucketEnd
  ts := HostSample.ts
  key := HostSample.ts
  ts_of_key := id
  lastRawBucketEnd_fresh _ := rfl
  lastRawBucketEnd_observe current := by
    cases current
    rfl
  closed := by
    intro state sample now current row member
    cases current
    obtain ⟨stop, completed, collected⟩ := Option.bind_eq_some_iff.mp (Option.mem_toList.mp member)
    obtain ⟨last, passed⟩ := Option.filter_eq_some_iff.mp completed
    have stamped : row.ts = stop := by
      simp only [HostBucketizer.collect, Option.bind_eq_bind, Option.bind_eq_some_iff,
        Option.some.injEq] at collected
      obtain ⟨_, _, _, _, _, _, _, _, _, _, shape⟩ := collected
      rw [← shape]
    rw [stamped]
    exact ⟨last, of_decide_eq_true passed⟩
  silent current := by cases current
  distinct state sample := by
    simp only
    cases (state.observe sample).1 <;> simp

theorem batchBucketEnd_eq {batch : List ContainerRawSample} {now : Int}
    (current : batchTs batch = some now) : batchBucketEnd batch = some (bucketEnd now 10000) := by
  rw [batchBucketEnd, current]
  rfl

theorem nodup_keys_flushedRows (state : ContainerCollectorState) (order : HashOrder)
    (bucketEnd : Int) : ((state.flushedRows order bucketEnd).map containerKey).Nodup := by
  have distinct := nodup_cids_flushedRows state order bucketEnd
  rw [List.Nodup, List.pairwise_map] at distinct ⊢
  exact distinct.imp fun apart same => apart (congrArg (fun key => (ofLex key).2) same)

/-- A batch comes with the order of the hash map it is flushed from. -/
def containerCollector : BucketCollector ContainerCollectorState
    (HashOrder × List ContainerRawSample) ContainerSample (Lex (Int × ContainerId)) where
  fresh := .new
  moment input := batchTs input.2
  observe state input := state.observe input.1 input.2
  lastRawBucketEnd := ContainerCollectorState.lastRawBucketEnd
  ts := ContainerSample.ts
  key := containerKey
  ts_of_key same := congrArg (fun key => (ofLex key).1) same
  lastRawBucketEnd_fresh _ := rfl
  lastRawBucketEnd_observe current := (observe_frame _ _ (batchBucketEnd_eq current)).1
  closed := by
    intro state input now current row member
    rw [rows_observe state input.1 (batchBucketEnd_eq current)] at member
    cases closing : state.completedBucketEnd (bucketEnd now 10000) with
    | none => simp [closing] at member
    | some stop =>
        obtain ⟨last, passed⟩ := Option.filter_eq_some_iff.mp closing
        simp only [closing, Option.map_some, Option.getD_some] at member
        rw [ts_of_mem_flushedRows member]
        exact ⟨last, of_decide_eq_true passed⟩
  silent := by
    intro state input current
    simp [ContainerCollectorState.observe, batchBucketEnd, current]
  distinct := by
    intro state input
    cases current : batchTs input.2 with
    | none => simp [ContainerCollectorState.observe, batchBucketEnd, current]
    | some now =>
        rw [rows_observe state input.1 (batchBucketEnd_eq current)]
        cases state.completedBucketEnd (bucketEnd now 10000) with
        | none => simp
        | some stop => exact nodup_keys_flushedRows _ _ _

/-! ## Runs -/

/-- The rows that one input brought forth. -/
structure Emission (ρ : Type) where
  trigger : Int
  rows : List ρ

structure CollectorRun (σ ρ : Type) where
  collector : σ
  newest : Option Int
  /-- Since the newest input. -/
  restarted : Bool
  emitted : List (Emission ρ)

inductive CollectorEvent (ι : Type u) where
  | observe (input : ι)
  | restart (collectIntervalMs : Nat)

section Run

variable {σ ρ κ : Type} {ι : Type u}

def collectorStep (collector : BucketCollector σ ι ρ κ) (run : CollectorRun σ ρ) :
    CollectorEvent ι → Option (CollectorRun σ ρ)
  | .observe input =>
      let (rows, next) := collector.observe run.collector input
      match collector.moment input with
      | none => some { run with collector := next }
      | some now => some ⟨next, some now, false, run.emitted ++ [⟨now, rows⟩]⟩
  | .restart collectIntervalMs =>
      some { run with collector := collector.fresh collectIntervalMs, restarted := true }

def collectorRuns (collector : BucketCollector σ ι ρ κ) (collectIntervalMs : Nat) :
    Machine (CollectorRun σ ρ) (CollectorEvent ι) where
  start := ⟨collector.fresh collectIntervalMs, none, false, []⟩
  step := collectorStep collector

/-- Time does not go back, and has moved on when a process starts anew. -/
def timely (collector : BucketCollector σ ι ρ κ) (run : CollectorRun σ ρ) :
    CollectorEvent ι → Bool
  | .observe input => (collector.moment input).all fun now => run.newest.all fun newest =>
      if run.restarted then newest < now else newest ≤ now
  | .restart _ => true

/-- What has been emitted, and what the collector can still emit. -/
structure InOrder (collector : BucketCollector σ ι ρ κ) (run : CollectorRun σ ρ) : Prop where
  last : ∀ last, collector.lastRawBucketEnd run.collector = some last →
    run.restarted = false ∧ ∃ newest, run.newest = some newest ∧ last = bucketEnd newest 10000
  anew : collector.lastRawBucketEnd run.collector = none → run.newest.isSome → run.restarted = true
  aligned : ∀ emission ∈ run.emitted, ∀ row ∈ emission.rows,
    10000 ∣ collector.ts row ∧ collector.ts row < emission.trigger
  seen : ∀ emission ∈ run.emitted, ∃ newest, run.newest = some newest ∧ emission.trigger ≤ newest
  behind : ∀ emission ∈ run.emitted, ∀ row ∈ emission.rows, ∀ last,
    collector.lastRawBucketEnd run.collector = some last → collector.ts row < last
  ascending : run.emitted.Pairwise fun earlier later => ∀ row ∈ earlier.rows,
    ∀ next ∈ later.rows, collector.ts row < collector.ts next
  distinct : ∀ emission ∈ run.emitted, (emission.rows.map collector.key).Nodup

variable {collector : BucketCollector σ ι ρ κ} {run : CollectorRun σ ρ}

theorem timely_observe_iff {input : ι} {now : Int} (current : collector.moment input = some now) :
    timely collector run (.observe input) = true ↔ ∀ newest, run.newest = some newest →
      newest ≤ now ∧ (run.restarted = true → newest < now) := by
  simp only [timely, current, Option.all_some, Option.all_eq_true]
  refine forall₂_congr fun newest _ => ?_
  cases run.restarted with
  | false => simp
  | true => simpa using fun before : newest < now => before.le

/-- Every row emitted so far is for a bucket before the one that time is in now. -/
theorem InOrder.before_now (inOrder : InOrder collector run) {now : Int}
    (onTime : ∀ newest, run.newest = some newest →
      newest ≤ now ∧ (run.restarted = true → newest < now)) :
    ∀ emission ∈ run.emitted, ∀ row ∈ emission.rows, collector.ts row < bucketEnd now 10000 := by
  intro emission member row inside
  obtain ⟨newest, known, bound⟩ := inOrder.seen emission member
  obtain ⟨notBack, ahead⟩ := onTime newest known
  have upper := (bucketEnd_spec now (show (0 : Int) < 10000 by decide)).2.2
  cases last : collector.lastRawBucketEnd run.collector with
  | none =>
      -- the process is a new one, and nothing older reaches its first sample
      have moved := ahead (inOrder.anew last (by simp [known]))
      have before := (inOrder.aligned emission member row inside).2
      omega
  | some stop =>
      obtain ⟨-, newest', known', rfl⟩ := inOrder.last stop last
      cases known.symm.trans known'
      have monotone := bucketEnd_mono (show (0 : Int) < 10000 by decide) notBack
      have before := inOrder.behind emission member row inside _ last
      omega

theorem InOrder.observe (inOrder : InOrder collector run) {input : ι} {now : Int}
    (current : collector.moment input = some now)
    (onTime : ∀ newest, run.newest = some newest →
      newest ≤ now ∧ (run.restarted = true → newest < now)) :
    InOrder collector ⟨(collector.observe run.collector input).2, some now, false,
      run.emitted ++ [⟨now, (collector.observe run.collector input).1⟩]⟩ := by
  have beforeNow := inOrder.before_now onTime
  have closed : ∀ row ∈ (collector.observe run.collector input).1,
      collector.lastRawBucketEnd run.collector = some (collector.ts row) ∧
        collector.ts row < bucketEnd now 10000 := collector.closed current
  have next : collector.lastRawBucketEnd (collector.observe run.collector input).2 =
      some (bucketEnd now 10000) := collector.lastRawBucketEnd_observe current
  have aligned : ∀ row ∈ (collector.observe run.collector input).1,
      10000 ∣ collector.ts row ∧ collector.ts row < now := by
    intro row member
    obtain ⟨last, passed⟩ := closed row member
    obtain ⟨-, newest, -, same⟩ := inOrder.last _ last
    rw [same] at passed ⊢
    exact ⟨(bucketEnd_spec newest (by decide)).1, bucketEnd_lt_of_elapsed (by decide) passed⟩
  constructor
  · intro last known
    rw [next] at known
    exact ⟨rfl, now, rfl, (Option.some.inj known).symm⟩
  · intro unknown
    rw [next] at unknown
    cases unknown
  · simp only [List.forall_mem_append, List.forall_mem_singleton]
    exact ⟨inOrder.aligned, aligned⟩
  · simp only [List.forall_mem_append, List.forall_mem_singleton]
    refine ⟨fun emission member => ?_, now, rfl, le_rfl⟩
    obtain ⟨newest, known, bound⟩ := inOrder.seen emission member
    exact ⟨now, rfl, bound.trans (onTime newest known).1⟩
  · simp only [next, Option.some.injEq, forall_eq', List.forall_mem_append,
      List.forall_mem_singleton]
    exact ⟨beforeNow, fun row member => (closed row member).2⟩
  · refine List.pairwise_append.mpr ⟨inOrder.ascending, List.pairwise_singleton _ _, ?_⟩
    intro earlier member later isNew row inside following rowMember
    cases List.mem_singleton.mp isNew
    exact inOrder.behind earlier member row inside _ (closed following rowMember).1
  · simp only [List.forall_mem_append, List.forall_mem_singleton]
    exact ⟨inOrder.distinct, collector.distinct _ _⟩

theorem InOrder.restart (inOrder : InOrder collector run) (collectIntervalMs : Nat) :
    InOrder collector
      { run with collector := collector.fresh collectIntervalMs, restarted := true } := by
  have anew := collector.lastRawBucketEnd_fresh collectIntervalMs
  constructor
  · intro last known
    rw [anew] at known
    cases known
  · exact fun _ _ => rfl
  · exact inOrder.aligned
  · exact inOrder.seen
  · intro emission member row inside last known
    rw [anew] at known
    cases known
  · exact inOrder.ascending
  · exact inOrder.distinct

theorem inOrder_reachable {collectIntervalMs : Nat}
    (reached : (collectorRuns collector collectIntervalMs).Reachable
      (fun run event => timely collector run event = true) run) : InOrder collector run := by
  refine reached.invariant (InOrder collector) ?_ ?_
  · constructor
    · intro last known
      simp [collectorRuns, collector.lastRawBucketEnd_fresh] at known
    · simp [collectorRuns]
    all_goals simp [collectorRuns]
  · intro before after event inOrder onTime taken
    cases event with
    | observe input =>
        simp only [collectorRuns, collectorStep] at taken
        cases current : collector.moment input with
        | none =>
            simp only [current, collector.silent current, Option.some.injEq] at taken
            exact taken ▸ inOrder
        | some now =>
            simp only [current, Option.some.injEq] at taken
            exact taken ▸ inOrder.observe current ((timely_observe_iff current).mp onTime)
    | restart collectIntervalMs =>
        simp only [collectorRuns, collectorStep, Option.some.injEq] at taken
        exact taken ▸ inOrder.restart collectIntervalMs

end Run

/-! ## Insertion -/

/-- Rows on bucket boundaries that have passed, later ones for later buckets, and none that the
`10s` table could refuse: whichever of the earlier rows it still holds. -/
structure NeverCollides {ρ κ : Type} [LinearOrder κ] (ts : ρ → Int) (key : ρ → κ)
    (emitted : List (Emission ρ)) : Prop where
  premature : ∀ emission ∈ emitted, ∀ row ∈ emission.rows,
    10000 ∣ ts row ∧ ts row < emission.trigger
  ascending : emitted.Pairwise fun earlier later =>
    ∀ row ∈ earlier.rows, ∀ next ∈ later.rows, ts row < ts next
  distinct : ((emitted.flatMap Emission.rows).map key).Nodup
  inserted : ∀ front emission back, emitted = front ++ emission :: back →
    ∀ table : KeyedTable key, (∀ row ∈ table.rows, row ∈ front.flatMap Emission.rows) →
      (emission.rows.foldlM (insertRow .tenSeconds) table).isSome

theorem InOrder.neverCollides {σ ρ κ : Type} {ι : Type u} [LinearOrder κ]
    {collector : BucketCollector σ ι ρ κ} {run : CollectorRun σ ρ}
    (inOrder : InOrder collector run) : NeverCollides collector.ts collector.key run.emitted := by
  have apart : run.emitted.Pairwise fun earlier later => ∀ row ∈ earlier.rows,
      ∀ next ∈ later.rows, collector.key row ≠ collector.key next :=
    inOrder.ascending.imp fun before row member next nextMember same =>
      (before row member next nextMember).ne (collector.ts_of_key same)
  refine ⟨inOrder.aligned, inOrder.ascending, ?_, ?_⟩
  · rw [List.map_flatMap, List.nodup_flatMap]
    refine ⟨inOrder.distinct, apart.imp fun {earlier later} differ key inEarlier inLater => ?_⟩
    obtain ⟨row, member, rfl⟩ := List.mem_map.mp inEarlier
    obtain ⟨next, nextMember, same⟩ := List.mem_map.mp inLater
    exact differ row member next nextMember same.symm
  · intro front emission back shape table held
    have here : emission ∈ run.emitted := by simp [shape]
    apply KeyedTable.foldlM_insert?_isSome (inOrder.distinct emission here)
    intro row member other stored
    obtain ⟨earlier, before, inside⟩ := List.mem_flatMap.mp (held other stored)
    rw [shape] at apart
    exact (List.pairwise_append.mp apart).2.2 earlier before emission List.mem_cons_self other inside
      row member

/-- Neither collector ever brings forth a row that is premature or that the `10s` table
could refuse, whenever the process is restarted. -/
theorem collectors_never_collide {hostIntervalMs containerIntervalMs : Nat}
    {host : CollectorRun HostCollectorState HostSample}
    {containers : CollectorRun ContainerCollectorState ContainerSample}
    (hostReached : (collectorRuns hostCollector hostIntervalMs).Reachable
      (fun run event => timely hostCollector run event = true) host)
    (containersReached : (collectorRuns containerCollector containerIntervalMs).Reachable
      (fun run event => timely containerCollector run event = true) containers) :
    NeverCollides HostSample.ts HostSample.ts host.emitted ∧
      NeverCollides ContainerSample.ts containerKey containers.emitted :=
  ⟨(inOrder_reachable hostReached).neverCollides, (inOrder_reachable containersReached).neverCollides⟩

def hostReading (ts : Int) : HostRawSample := ⟨ts, some 10, 1000, 0, 0, 0, 0, 0, 0, 0, 0, none⟩

def containerReading (ts : Nat) : ContainerRawSample :=
  ⟨ts, ⟨1⟩, ⟨1⟩, ts, 4 * ts, 1, 1000, 0, 0, 0, 0⟩

def restartedHost : List (CollectorEvent HostRawSample) :=
  [.observe (hostReading 5000), .observe (hostReading 15000), .observe (hostReading 25000),
    .restart 5000, .observe (hostReading 26000), .observe (hostReading 36000),
    .observe (hostReading 46000)]

def restartedContainers : List (CollectorEvent (HashOrder × List ContainerRawSample)) :=
  [.observe (.unchanged, [containerReading 5000]), .observe (.unchanged, [containerReading 15000]),
    .observe (.unchanged, []), .observe (.unchanged, [containerReading 25000]), .restart 5000,
    .observe (.unchanged, [containerReading 26000])]

/-- Both collectors are restarted in the bucket that follows their first row. -/
theorem collectors_never_collide_after_restart :
    ∃ (host : CollectorRun HostCollectorState HostSample)
      (containers : CollectorRun ContainerCollectorState ContainerSample),
      (host.emitted.flatMap Emission.rows).map HostSample.ts = [20000, 40000] ∧
        (containers.emitted.flatMap Emission.rows).map ContainerSample.ts = [20000] ∧
          NeverCollides HostSample.ts HostSample.ts host.emitted ∧
            NeverCollides ContainerSample.ts containerKey containers.emitted := by
  have hostRan : ((collectorRuns hostCollector 10000).run (timely hostCollector)
      (collectorRuns hostCollector 10000).start restartedHost).any
      (fun run => (run.emitted.flatMap Emission.rows).map HostSample.ts = [20000, 40000]) =
        true := by
    decide +kernel
  have containersRan : ((collectorRuns containerCollector 10000).run (timely containerCollector)
      (collectorRuns containerCollector 10000).start restartedContainers).any
      (fun run => (run.emitted.flatMap Emission.rows).map ContainerSample.ts = [20000]) = true := by
    decide +kernel
  obtain ⟨host, hostTaken, hostRows⟩ := (Option.any_eq_true _ _).mp hostRan
  obtain ⟨containers, containersTaken, containerRows⟩ := (Option.any_eq_true _ _).mp containersRan
  exact ⟨host, containers, of_decide_eq_true hostRows, of_decide_eq_true containerRows,
    collectors_never_collide (Machine.Reachable.start.run (fun _ _ checked => checked) hostTaken)
      (Machine.Reachable.start.run (fun _ _ checked => checked) containersTaken)⟩

end Vpsiner.Metrics
