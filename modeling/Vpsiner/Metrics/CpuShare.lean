import Vpsiner.Metrics.CollectorContainersProperties
import Vpsiner.Metrics.Snapshot
import Mathlib.Algebra.BigOperators.Ring.List
import Mathlib.Algebra.Order.Field.Basic
import Mathlib.Tactic.LinearCombination
import Mathlib.Algebra.Order.BigOperators.Group.List

/-! When the CPU percentage of a container is its share of the host: the host's counter
already counts every CPU, and the percentage is multiplied by their number once more. -/

set_option autoImplicit false

namespace Vpsiner.Metrics

open Lib Binary64

/-! ## Shares -/

/-- The part of the host's CPU time that went to a container, in thousandths of a percent. -/
def hostShareMill (cpuRate systemRate : Nat) : Option Nat :=
  if systemRate = 0 then none else some (cpuRate * 100000 / systemRate)

def hostSharePct (cpuRate systemRate : ℚ) : ℚ :=
  if systemRate = 0 then 0 else cpuRate / systemRate * 100

/-- One CPU, or so little use that both the share and its multiple round to nothing. -/
def CountHarmless (cpuCount cpuRate systemRate : Nat) : Prop :=
  systemRate = 0 ∨ cpuCount = 1 ∨ cpuRate * max cpuCount 1 * 100000 < systemRate

/-- One CPU, or none of its time used. -/
def PctHarmless (cpuCount : Nat) (cpuRate systemRate : ℚ) : Prop :=
  systemRate = 0 ∨ cpuCount = 1 ∨ cpuRate = 0

theorem scaled_eq_iff {cpuCount cpuRate systemRate : Nat} (nonzero : systemRate ≠ 0) :
    cpuRate * cpuCount * 100000 / systemRate = cpuRate * 100000 / systemRate ↔
      cpuCount = 1 ∨ cpuRate * max cpuCount 1 * 100000 < systemRate := by
  have positive : 0 < systemRate := Nat.pos_of_ne_zero nonzero
  have scaled : cpuRate * cpuCount * 100000 = cpuCount * (cpuRate * 100000) := by ring
  have bound : cpuRate * max cpuCount 1 * 100000 = max cpuCount 1 * (cpuRate * 100000) := by ring
  rw [scaled, bound]
  generalize cpuRate * 100000 = time
  rcases cpuCount with _ | _ | more
  · simp [eq_comm, Nat.div_eq_zero_iff, nonzero]
  · simp
  · have several : max (more + 1 + 1) 1 = more + 2 := by omega
    rw [several]
    constructor
    · intro same
      -- a share that is not zero at least doubles
      have doubled : 2 * (time / systemRate) ≤ (more + 2) * time / systemRate := by
        refine le_trans ?_ (Nat.div_le_div_right (Nat.mul_le_mul_right time (by omega : 2 ≤ more + 2)))
        rw [Nat.le_div_iff_mul_le positive, Nat.mul_assoc]
        exact Nat.mul_le_mul_left 2 (Nat.div_mul_le_self time systemRate)
      have same : (more + 2) * time / systemRate = time / systemRate := same
      have nothing : (more + 2) * time / systemRate = 0 := by omega
      exact .inr (Nat.lt_of_div_eq_zero positive nothing)
    · rintro (single | small)
      · omega
      · have least : time ≤ (more + 2) * time := Nat.le_mul_of_pos_left time (by omega)
        rw [Nat.div_eq_of_lt small, Nat.div_eq_of_lt (lt_of_le_of_lt least small)]

theorem sum_div_le {σ : Type} (part : σ → Nat) (whole : Nat) (items : List σ) :
    (items.map fun item => part item / whole).sum ≤ (items.map part).sum / whole := by
  induction items with
  | nil => simp
  | cons item rest ih =>
      simp only [List.map_cons, List.sum_cons]
      exact (Nat.add_le_add_left ih _).trans (Nat.div_add_div_le_add_div)

/-- Shares of wholes that are no smaller than all parts together. -/
theorem sum_shares_le {σ : Type} {part whole : σ → Nat} (scale : Nat) {items : List σ}
    (within : ∀ item ∈ items, (items.map part).sum ≤ whole item) :
    (items.map fun item => part item * scale / whole item).sum ≤ scale := by
  have smaller : ∀ item ∈ items,
      part item * scale / whole item ≤ part item * scale / (items.map part).sum := by
    intro item member
    rcases Nat.eq_zero_or_pos (items.map part).sum with idle | busy
    · have none : part item = 0 := by
        have := List.single_le_sum (fun _ _ => Nat.zero_le _) _ (List.mem_map_of_mem (f := part) member)
        omega
      simp [none]
    · exact Nat.div_le_div_left (within item member) busy
  calc (items.map fun item => part item * scale / whole item).sum
      ≤ (items.map fun item => part item * scale / (items.map part).sum).sum :=
        List.sum_le_sum smaller
    _ ≤ (items.map fun item => part item * scale).sum / (items.map part).sum :=
        sum_div_le _ _ _
    _ = (items.map part).sum * scale / (items.map part).sum := by
        rw [List.sum_map_mul_right]
    _ ≤ scale := Nat.div_le_of_le_mul (Nat.le_refl _)

/-! ## Bucketized rows -/

namespace ContainerBucketizer

def cpuRate (bucketizer : ContainerBucketizer) (bucketEnd : Int) : Option Nat :=
  CounterBucketizer.collect bucketizer.bckCpuUsageNs bucketEnd

def systemRate (bucketizer : ContainerBucketizer) (bucketEnd : Int) : Option Nat :=
  CounterBucketizer.collect bucketizer.bckSystemCpuUsageNs bucketEnd

theorem cpuPctMill_eq_share_iff {bucketizer : ContainerBucketizer} {bucketEnd : Int}
    {cpu system : Nat} (cpuKnown : bucketizer.cpuRate bucketEnd = some cpu)
    (systemKnown : bucketizer.systemRate bucketEnd = some system) (within : cpu ≤ system) :
    bucketizer.cpuPctMill bucketEnd = hostShareMill cpu system ↔
      CountHarmless bucketizer.lastCpuCount cpu system := by
  rw [cpuRate] at cpuKnown
  rw [systemRate] at systemKnown
  simp only [ContainerBucketizer.cpuPctMill, cpuKnown, systemKnown, Option.bind_eq_bind,
    Option.bind_some, hostShareMill, CountHarmless]
  by_cases idle : system = 0
  · simp [idle]
  · simp only [idle, if_false, false_or]
    rw [← scaled_eq_iff idle]
    have fits : cpu * 100000 / system < 2 ^ 64 := by
      have most : cpu * 100000 / system ≤ 100000 :=
        Nat.div_le_of_le_mul (Nat.mul_le_mul_right 100000 within)
      omega
    constructor
    · intro shown
      simp only [u64FromU128] at shown
      split at shown
      · exact Option.some.inj shown
      · cases shown
    · intro same
      rw [same, u64FromU128, if_pos fits]

end ContainerBucketizer

/-- The CPU and system rates of the bucket are known for every container, and the host's CPUs
suffice for all of them. -/
structure WithinHost (state : ContainerCollectorState) (bucketEnd : Int) : Prop where
  cpuKnown : ∀ row ∈ state.containers.rows, (row.2.bucketizer.cpuRate bucketEnd).isSome
  systemKnown : ∀ row ∈ state.containers.rows, (row.2.bucketizer.systemRate bucketEnd).isSome
  total : ∀ row ∈ state.containers.rows,
    (state.containers.rows.map fun other => (other.2.bucketizer.cpuRate bucketEnd).getD 0).sum ≤
      (row.2.bucketizer.systemRate bucketEnd).getD 0

/-- Each container shows its share of the host, and the rows of the bucket do not add up to
more than the host. -/
structure RowsShowShares (state : ContainerCollectorState) (order : HashOrder)
    (bucketEnd : Int) : Prop where
  share : ∀ row ∈ state.containers.rows, row.2.bucketizer.cpuPctMill bucketEnd =
    hostShareMill ((row.2.bucketizer.cpuRate bucketEnd).getD 0)
      ((row.2.bucketizer.systemRate bucketEnd).getD 0)
  sum : ((state.flushedRows order bucketEnd).map ContainerSample.cpuPctMill).sum ≤ 100000

theorem cpuPctMill_of_visit {entry : ContainerEntry} {cid : ContainerId} {bucketEnd : Int}
    {sample : ContainerSample} (made : (entry.visit cid bucketEnd).1 = some sample) :
    entry.bucketizer.cpuPctMill bucketEnd = some sample.cpuPctMill := by
  rw [ContainerEntry.visit_row] at made
  simp only [ContainerBucketizer.collect, Option.bind_eq_bind, Option.bind_eq_some_iff,
    Option.some.injEq] at made
  obtain ⟨pct, known, _, _, rfl⟩ := made
  exact known

theorem sum_filterMap_le {σ ρ : Type} {make : σ → Option ρ} {value : ρ → Nat} {limit : σ → Nat}
    {items : List σ} (bounded : ∀ item ∈ items, ∀ made ∈ make item, value made ≤ limit item) :
    ((items.filterMap make).map value).sum ≤ (items.map limit).sum := by
  induction items with
  | nil => simp
  | cons item rest ih =>
      simp only [List.forall_mem_cons] at bounded
      have later := ih bounded.2
      cases made : make item with
      | none =>
          simp only [List.filterMap_cons, made, List.map_cons, List.sum_cons]
          omega
      | some result =>
          have here := bounded.1 result made
          simp only [List.filterMap_cons, made, List.map_cons, List.sum_cons]
          omega

theorem rowsShowShares_iff {state : ContainerCollectorState} {bucketEnd : Int}
    (within : WithinHost state bucketEnd) (order : HashOrder) :
    RowsShowShares state order bucketEnd ↔ ∀ row ∈ state.containers.rows,
      CountHarmless row.2.bucketizer.lastCpuCount ((row.2.bucketizer.cpuRate bucketEnd).getD 0)
        ((row.2.bucketizer.systemRate bucketEnd).getD 0) := by
  have shares : (∀ row ∈ state.containers.rows, row.2.bucketizer.cpuPctMill bucketEnd =
      hostShareMill ((row.2.bucketizer.cpuRate bucketEnd).getD 0)
        ((row.2.bucketizer.systemRate bucketEnd).getD 0)) ↔ ∀ row ∈ state.containers.rows,
      CountHarmless row.2.bucketizer.lastCpuCount ((row.2.bucketizer.cpuRate bucketEnd).getD 0)
        ((row.2.bucketizer.systemRate bucketEnd).getD 0) := by
    refine forall₂_congr fun row member => ?_
    obtain ⟨cpu, cpuKnown⟩ := Option.isSome_iff_exists.mp (within.cpuKnown row member)
    obtain ⟨system, systemKnown⟩ := Option.isSome_iff_exists.mp (within.systemKnown row member)
    have part := List.single_le_sum (fun _ _ => Nat.zero_le _) _ (List.mem_map_of_mem
      (f := fun other => (other.2.bucketizer.cpuRate bucketEnd).getD 0) member)
    have whole := part.trans (within.total row member)
    rw [cpuKnown, systemKnown] at whole ⊢
    exact ContainerBucketizer.cpuPctMill_eq_share_iff cpuKnown systemKnown whole
  rw [← shares]
  refine ⟨RowsShowShares.share, fun share => ⟨share, ?_⟩⟩
  have arranged := order.perm state.containers.rows
  calc ((state.flushedRows order bucketEnd).map ContainerSample.cpuPctMill).sum
      ≤ ((order.arrange state.containers.rows).map fun row =>
          (row.2.bucketizer.cpuRate bucketEnd).getD 0 * 100000 /
            (row.2.bucketizer.systemRate bucketEnd).getD 0).sum := by
        apply sum_filterMap_le
        intro row member made produced
        have shown := share row (arranged.mem_iff.mp member)
        rw [cpuPctMill_of_visit produced, hostShareMill] at shown
        split at shown
        · cases shown
        · exact (Option.some.inj shown).le
    _ = (state.containers.rows.map fun row =>
          (row.2.bucketizer.cpuRate bucketEnd).getD 0 * 100000 /
            (row.2.bucketizer.systemRate bucketEnd).getD 0).sum := (arranged.map _).sum_eq
    _ ≤ 100000 := sum_shares_le 100000 within.total

/-! ## The current snapshot -/

/-- Units per second between two readings, before any rounding. -/
def counterRate (current previous : Nat) (dtMs : Int) : Option ℚ :=
  if dtMs ≤ 0 then none
  else do
    let delta ← counterDelta current previous
    some (delta / (dtMs / 1000))

def counterRateSince (previous : Option ContainerRawSample) (sample : ContainerRawSample)
    (counter : ContainerRawSample → Nat) : Option ℚ := do
  let previous ← previous
  counterRate (counter sample) (counter previous) (sample.ts - previous.ts)

theorem counterRate_nonneg {current previous : Nat} {dtMs : Int} {rate : ℚ}
    (known : counterRate current previous dtMs = some rate) : 0 ≤ rate := by
  simp only [counterRate, Option.bind_eq_bind] at known
  split at known
  · cases known
  · next elapsed =>
      obtain ⟨delta, _, shape⟩ := Option.bind_eq_some_iff.mp known
      have positive : (0 : ℚ) < dtMs := by exact_mod_cast not_le.mp elapsed
      rw [← Option.some.inj shape]
      positivity

theorem counterRateSince_nonneg (previous : Option ContainerRawSample)
    (sample : ContainerRawSample) (counter : ContainerRawSample → Nat) :
    0 ≤ (counterRateSince previous sample counter).getD 0 := by
  cases known : counterRateSince previous sample counter with
  | none => simp
  | some rate =>
      obtain ⟨earlier, _, rated⟩ := Option.bind_eq_some_iff.mp known
      exact counterRate_nonneg rated

/-- A rate is rounded four times: the two readings, the seconds and the quotient. -/
theorem near_optionalRate {current previous : Nat} {dtMs : Int} {rate : ℚ}
    (known : counterRate current previous dtMs = some rate) :
    ∃ shown, optionalRate current previous dtMs = some shown ∧ Near 4 rate shown := by
  simp only [counterRate, Option.bind_eq_bind] at known
  simp only [optionalRate, Option.bind_eq_bind]
  split at known
  · cases known
  · next elapsed =>
      obtain ⟨delta, counted, shape⟩ := Option.bind_eq_some_iff.mp known
      have positive : (0 : ℚ) < dtMs := by exact_mod_cast not_le.mp elapsed
      have deltaNonneg : (0 : ℚ) ≤ delta := delta.cast_nonneg
      have seconds : Near 2 ((dtMs : ℚ) / 1000) (rounded (rounded dtMs / 1000)) :=
        ((near_rounded positive.le).div (.refl 1000) positive.le (by norm_num)).rounded
          (by positivity)
      have quotient := ((near_rounded deltaNonneg).div seconds deltaNonneg (by positivity)).rounded
        (by positivity)
      rw [if_neg elapsed, counted, ← Option.some.inj shape]
      exact ⟨_, rfl, quotient⟩

/-- What is shown is the share times the number of CPUs, rounded twelve times. -/
theorem near_cpuPct {previous : Option ContainerRawSample} {sample : ContainerRawSample}
    {cpu system : ℚ}
    (cpuKnown : counterRateSince previous sample ContainerRawSample.cpuUsageNs = some cpu)
    (systemKnown : counterRateSince previous sample ContainerRawSample.systemCpuUsageNs =
      some system) :
    Near 12 (hostSharePct cpu system * sample.cpuCount) (cpuPct previous sample) := by
  obtain ⟨earlier, rfl, cpuRated⟩ := Option.bind_eq_some_iff.mp cpuKnown
  have systemRated : counterRate sample.systemCpuUsageNs earlier.systemCpuUsageNs
      (sample.ts - earlier.ts) = some system := systemKnown
  obtain ⟨cpuShown, cpuComputed, cpuNear⟩ := near_optionalRate cpuRated
  obtain ⟨systemShown, systemComputed, systemNear⟩ := near_optionalRate systemRated
  simp only [cpuPct, Option.bind_eq_bind, Option.bind_some, cpuComputed, systemComputed,
    hostSharePct]
  have cpuNonneg := counterRate_nonneg cpuRated
  rcases (counterRate_nonneg systemRated).eq_or_lt with idle | positive
  · rw [← idle, Near.zero_iff] at systemNear
    simp [← idle, systemNear, Near.zero]
  · rw [if_pos (systemNear.pos_iff.mpr positive), if_neg positive.ne', Option.getD_some]
    have ratio : Near 9 (cpu / system) (rounded (cpuShown / systemShown)) :=
      (cpuNear.div systemNear cpuNonneg positive).rounded (by positivity)
    have counted : Near 11 (cpu / system * sample.cpuCount)
        (rounded (rounded (cpuShown / systemShown) * rounded sample.cpuCount)) :=
      (ratio.mul (near_rounded (Nat.cast_nonneg _)) (by positivity) (Nat.cast_nonneg _)).rounded
        (by positivity)
    have scaled := (counted.mul (.refl 100) (by positivity) (by norm_num)).rounded (by positivity)
    rw [mul_right_comm] at scaled
    exact scaled

theorem hostSharePct_eq_zero_iff {cpu system : ℚ} :
    hostSharePct cpu system = 0 ↔ system = 0 ∨ cpu = 0 := by
  rw [hostSharePct]
  split
  · next idle => simp [idle]
  · next busy => simp [busy]

theorem hostSharePct_nonneg {cpu system : ℚ} (cpuNonneg : 0 ≤ cpu) (systemNonneg : 0 ≤ system) :
    0 ≤ hostSharePct cpu system := by
  unfold hostSharePct
  split
  · exact le_rfl
  · positivity

theorem near_cpuPct_share_iff {previous : Option ContainerRawSample} {sample : ContainerRawSample}
    {cpu system : ℚ}
    (cpuKnown : counterRateSince previous sample ContainerRawSample.cpuUsageNs = some cpu)
    (systemKnown : counterRateSince previous sample ContainerRawSample.systemCpuUsageNs =
      some system) :
    Near 12 (hostSharePct cpu system) (cpuPct previous sample) ↔
      PctHarmless sample.cpuCount cpu system := by
  have cpuNonneg := counterRateSince_nonneg previous sample ContainerRawSample.cpuUsageNs
  have systemNonneg := counterRateSince_nonneg previous sample ContainerRawSample.systemCpuUsageNs
  rw [cpuKnown, Option.getD_some] at cpuNonneg
  rw [systemKnown, Option.getD_some] at systemNonneg
  rw [(near_cpuPct cpuKnown systemKnown).multiple_iff
    (hostSharePct_nonneg cpuNonneg systemNonneg), hostSharePct_eq_zero_iff, PctHarmless]
  tauto

theorem pct_shares_le {σ : Type} {part whole : σ → ℚ} {items : List σ}
    (nonneg : ∀ item ∈ items, 0 ≤ part item)
    (within : ∀ item ∈ items, (items.map part).sum ≤ whole item) :
    (items.map fun item => hostSharePct (part item) (whole item)).sum ≤ 100 := by
  have total : 0 ≤ (items.map part).sum := List.sum_nonneg (List.forall_mem_map.mpr nonneg)
  have smaller : ∀ item ∈ items, hostSharePct (part item) (whole item) ≤
      part item * (100 / (items.map part).sum) := by
    intro item member
    have enough := within item member
    rcases total.eq_or_lt with idle | busy
    · have small := List.single_le_sum (List.forall_mem_map.mpr nonneg) _
        (List.mem_map_of_mem member)
      have none : part item = 0 := le_antisymm (idle ▸ small) (nonneg item member)
      simp [hostSharePct, none]
    · have positive := busy.trans_le enough
      rw [hostSharePct, if_neg positive.ne', div_mul_eq_mul_div, ← mul_div_assoc]
      exact div_le_div_of_nonneg_left (mul_nonneg (nonneg item member) (by norm_num)) busy enough
  calc (items.map fun item => hostSharePct (part item) (whole item)).sum
      ≤ (items.map fun item => part item * (100 / (items.map part).sum)).sum :=
        List.sum_le_sum smaller
    _ = (items.map part).sum * (100 / (items.map part).sum) := List.sum_map_mul_right ..
    _ ≤ 100 := by
        rcases total.eq_or_lt with idle | busy
        · simp [← idle]
        · exact (mul_div_cancel₀ 100 busy.ne').le

namespace MetricsSnapshotState

def cpuRate (state : MetricsSnapshotState) (sample : ContainerRawSample) : Option ℚ :=
  counterRateSince (state.previous sample.cid) sample ContainerRawSample.cpuUsageNs

def systemRate (state : MetricsSnapshotState) (sample : ContainerRawSample) : Option ℚ :=
  counterRateSince (state.previous sample.cid) sample ContainerRawSample.systemCpuUsageNs

end MetricsSnapshotState

/-- Both rates are known for every sample of a batch, and the host's CPUs suffice for all. -/
structure BatchWithinHost (state : MetricsSnapshotState) (samples : List ContainerRawSample) :
    Prop where
  distinct : (samples.map ContainerRawSample.cid).Nodup
  cpuKnown : ∀ sample ∈ samples, (state.cpuRate sample).isSome
  systemKnown : ∀ sample ∈ samples, (state.systemRate sample).isSome
  total : ∀ sample ∈ samples, (samples.map fun other => (state.cpuRate other).getD 0).sum ≤
    (state.systemRate sample).getD 0

/-- Each container of the batch is shown with its share of the host; what is shown does not
add up to more than the host, neither by container nor by service. All of it holds up to the
rounding of a percentage, and a service's total is rounded once more for each container. -/
structure SnapshotShowsShares (state : MetricsSnapshotState) (samples : List ContainerRawSample) :
    Prop where
  share : ∀ sample ∈ samples, ∀ entry ∈ (state.recordContainers samples).containers.current.rows,
    entry.1 = sample.cid → Near 12
      (hostSharePct ((state.cpuRate sample).getD 0) ((state.systemRate sample).getD 0))
      entry.2.cpuPct
  containerSum : ∀ order now, (((state.recordContainers samples).currentContainersAt order
    now).containers.map fun entry => entry.2.cpuPct).sum ≤ 100 * slack ^ 12
  serviceSum : ∀ order now, (((state.recordContainers samples).currentContainersAt order
    now).services.map fun entry => entry.2.cpuPct).sum ≤ 100 * slack ^ (12 + samples.length)

theorem cpuPct_serviceTotal (points : List ContainerPoint) :
    (MetricsSnapshotState.serviceTotal points).cpuPct =
      Binary64.sum 0 (points.map ContainerPoint.cpuPct) := by
  have added : ∀ total : GroupPoint, (points.foldl MetricsSnapshotState.addToService total).cpuPct =
      Binary64.sum total.cpuPct (points.map ContainerPoint.cpuPct) := by
    induction points with
    | nil =>
        intro total
        rfl
    | cons point rest ih =>
        intro total
        rw [List.foldl_cons, ih]
        rfl
  exact added _

/-- By service the CPU use of all containers is shown, rounded once for each of them. -/
theorem sum_services_le {state : MetricsSnapshotState} {order : HashOrder} {now : Int}
    (nonneg : ∀ entry ∈ (state.currentContainersAt order now).containers, 0 ≤ entry.2.cpuPct) :
    ((state.currentContainersAt order now).services.map fun entry => entry.2.cpuPct).sum ≤
      ((state.currentContainersAt order now).containers.map fun entry => entry.2.cpuPct).sum *
        slack ^ (state.currentContainersAt order now).containers.length := by
  generalize shown : state.currentContainersAt order now = snapshot at nonneg
  have services : snapshot.services = (groupByKey ContainerPoint.service
      (snapshot.containers.map Prod.snd)).map fun entry =>
        (entry.1, MetricsSnapshotState.serviceTotal entry.2) := by
    rw [← shown]
    rfl
  have regrouped := perm_flatMap_groupByKey ContainerPoint.service
    (snapshot.containers.map Prod.snd)
  have total := (regrouped.map ContainerPoint.cpuPct).sum_eq
  rw [List.map_flatMap, List.flatMap_def, List.sum_flatten, List.map_map, List.map_map] at total
  have group : ∀ entry ∈ groupByKey ContainerPoint.service (snapshot.containers.map Prod.snd),
      (MetricsSnapshotState.serviceTotal entry.2).cpuPct ≤
        (entry.2.map ContainerPoint.cpuPct).sum * slack ^ snapshot.containers.length := by
    intro entry member
    have inside : ∀ point ∈ entry.2, 0 ≤ point.cpuPct := by
      intro point present
      obtain ⟨container, here, rfl⟩ := List.mem_map.mp
        (regrouped.mem_iff.mp (List.mem_flatMap_of_mem member present))
      exact nonneg container here
    have values := List.forall_mem_map.mpr inside
    have few : entry.2.length ≤ snapshot.containers.length := by
      have lengths := regrouped.length_eq
      rw [List.length_flatMap, List.length_map] at lengths
      rw [← lengths]
      exact List.single_le_sum (fun _ _ => Nat.zero_le _) _
        (List.mem_map_of_mem (f := fun entry => entry.2.length) member)
    have near := near_sum values le_rfl (Near.refl 0)
    rw [List.length_map, zero_add, zero_add] at near
    rw [cpuPct_serviceTotal]
    exact (near.mono (List.sum_nonneg values) few).shown_le
  rw [services, List.map_map]
  calc ((groupByKey ContainerPoint.service (snapshot.containers.map Prod.snd)).map
        fun entry => (MetricsSnapshotState.serviceTotal entry.2).cpuPct).sum
      ≤ ((groupByKey ContainerPoint.service (snapshot.containers.map Prod.snd)).map fun entry =>
          (entry.2.map ContainerPoint.cpuPct).sum * slack ^ snapshot.containers.length).sum :=
        List.sum_le_sum group
    _ = (snapshot.containers.map fun entry => entry.2.cpuPct).sum *
          slack ^ snapshot.containers.length := by
        rw [List.sum_map_mul_right]
        exact congrArg (· * _) total

theorem perm_recordContainers (state : MetricsSnapshotState) {samples : List ContainerRawSample}
    (distinct : (samples.map ContainerRawSample.cid).Nodup) :
    (state.recordContainers samples).containers.current.rows.Perm (samples.map fun sample =>
      (sample.cid, currentPoint state.services (state.previous sample.cid) sample)) := by
  apply KeyedTable.perm_upsertAll_empty
  rw [List.map_map]
  exact distinct

theorem cpuPct_of_mem_containers {state : MetricsSnapshotState}
    {samples : List ContainerRawSample} {order : HashOrder} {now : Int}
    (distinct : (samples.map ContainerRawSample.cid).Nodup) {entry : ContainerId × ContainerPoint}
    (member : entry ∈ ((state.recordContainers samples).currentContainersAt order
      now).containers) :
    ∃ sample ∈ samples, entry.2.cpuPct = cpuPct (state.previous sample.cid) sample := by
  have stored := (order.perm _).mem_iff.mp (List.mem_filter.mp member).1
  obtain ⟨sample, inside, rfl⟩ :=
    List.mem_map.mp ((perm_recordContainers state distinct).mem_iff.mp stored)
  exact ⟨sample, inside, rfl⟩

theorem length_containers_le (state : MetricsSnapshotState) {samples : List ContainerRawSample}
    (distinct : (samples.map ContainerRawSample.cid).Nodup) (order : HashOrder) (now : Int) :
    ((state.recordContainers samples).currentContainersAt order now).containers.length ≤
      samples.length := by
  refine (List.length_filter_le _ _).trans ?_
  rw [((order.perm _).trans (perm_recordContainers state distinct)).length_eq, List.length_map]

section Shares

variable {state : MetricsSnapshotState} {samples : List ContainerRawSample}
  (within : BatchWithinHost state samples)
  (shares : ∀ sample ∈ samples, Near 12
    (hostSharePct ((state.cpuRate sample).getD 0) ((state.systemRate sample).getD 0))
    (cpuPct (state.previous sample.cid) sample))

include shares in
theorem cpuPct_nonneg {sample : ContainerRawSample} (inside : sample ∈ samples) :
    0 ≤ cpuPct (state.previous sample.cid) sample :=
  (shares sample inside).nonneg
    (hostSharePct_nonneg (counterRateSince_nonneg _ _ _) (counterRateSince_nonneg _ _ _))

include within shares

/-- When every container has its share, those that are shown stay within the host. -/
theorem sum_containers_le (order : HashOrder) (now : Int) :
    (((state.recordContainers samples).currentContainersAt order now).containers.map
      fun entry => entry.2.cpuPct).sum ≤ 100 * slack ^ 12 := by
  have perm := ((order.perm _).trans (perm_recordContainers state within.distinct)).map
    fun entry => entry.2.cpuPct
  rw [List.map_map] at perm
  have nonneg : ∀ pct ∈ (order.arrange
      (state.recordContainers samples).containers.current.rows).map
        fun entry => entry.2.cpuPct, 0 ≤ pct := by
    intro pct member
    obtain ⟨sample, inside, rfl⟩ := List.mem_map.mp (perm.mem_iff.mp member)
    exact cpuPct_nonneg shares inside
  calc (((state.recordContainers samples).currentContainersAt order now).containers.map
        fun entry => entry.2.cpuPct).sum
      ≤ ((order.arrange (state.recordContainers samples).containers.current.rows).map
          fun entry => entry.2.cpuPct).sum := (List.filter_sublist.map _).sum_le_sum nonneg
    _ = (samples.map fun sample => cpuPct (state.previous sample.cid) sample).sum := perm.sum_eq
    _ ≤ (samples.map fun sample => hostSharePct ((state.cpuRate sample).getD 0)
          ((state.systemRate sample).getD 0) * slack ^ 12).sum :=
        List.sum_le_sum fun sample inside => (shares sample inside).shown_le
    _ = (samples.map fun sample => hostSharePct ((state.cpuRate sample).getD 0)
          ((state.systemRate sample).getD 0)).sum * slack ^ 12 := List.sum_map_mul_right ..
    _ ≤ 100 * slack ^ 12 := mul_le_mul_of_nonneg_right
        (pct_shares_le (fun sample _ => counterRateSince_nonneg _ _ _) within.total)
        (slack_pow_pos 12).le

theorem sum_shown_services_le (order : HashOrder) (now : Int) :
    (((state.recordContainers samples).currentContainersAt order now).services.map
      fun entry => entry.2.cpuPct).sum ≤ 100 * slack ^ (12 + samples.length) := by
  have shown : ∀ entry ∈ ((state.recordContainers samples).currentContainersAt order
      now).containers, 0 ≤ entry.2.cpuPct := by
    intro entry member
    obtain ⟨sample, inside, same⟩ := cpuPct_of_mem_containers within.distinct member
    exact same ▸ cpuPct_nonneg shares inside
  refine (sum_services_le shown).trans ?_
  rw [pow_add, ← mul_assoc]
  exact mul_le_mul (sum_containers_le within shares order now)
    (pow_le_pow_right₀ one_le_slack (length_containers_le state within.distinct order now))
    (slack_pow_pos _).le (mul_nonneg (by norm_num) (slack_pow_pos 12).le)

end Shares

theorem snapshotShowsShares_iff {state : MetricsSnapshotState} {samples : List ContainerRawSample}
    (within : BatchWithinHost state samples) :
    SnapshotShowsShares state samples ↔ ∀ sample ∈ samples, PctHarmless sample.cpuCount
      ((state.cpuRate sample).getD 0) ((state.systemRate sample).getD 0) := by
  have shares : (∀ sample ∈ samples, Near 12
      (hostSharePct ((state.cpuRate sample).getD 0) ((state.systemRate sample).getD 0))
      (cpuPct (state.previous sample.cid) sample)) ↔
        ∀ sample ∈ samples, PctHarmless sample.cpuCount ((state.cpuRate sample).getD 0)
          ((state.systemRate sample).getD 0) := by
    refine forall₂_congr fun sample member => ?_
    obtain ⟨cpu, cpuKnown⟩ := Option.isSome_iff_exists.mp (within.cpuKnown sample member)
    obtain ⟨system, systemKnown⟩ := Option.isSome_iff_exists.mp (within.systemKnown sample member)
    rw [cpuKnown, systemKnown]
    exact near_cpuPct_share_iff cpuKnown systemKnown
  have stored := perm_recordContainers state within.distinct
  rw [← shares]
  constructor
  · intro shows sample member
    exact shows.share sample member _ (stored.mem_iff.mpr (List.mem_map_of_mem member)) rfl
  · intro shown
    refine ⟨?_, sum_containers_le within shown, sum_shown_services_le within shown⟩
    intro sample member entry present same
    obtain ⟨other, inside, rfl⟩ := List.mem_map.mp (stored.mem_iff.mp present)
    have equal := List.inj_on_of_nodup_map within.distinct inside member same
    subst equal
    exact shown other inside

/-- Both percentages are shares of the host exactly where the number of CPUs does no harm. -/
theorem cpu_pct_is_share_iff {collector : ContainerCollectorState} {bucketEnd : Int}
    (rowsWithin : WithinHost collector bucketEnd) (order : HashOrder)
    {snapshot : MetricsSnapshotState} {samples : List ContainerRawSample}
    (batchWithin : BatchWithinHost snapshot samples) :
    (RowsShowShares collector order bucketEnd ↔ ∀ row ∈ collector.containers.rows,
      CountHarmless row.2.bucketizer.lastCpuCount ((row.2.bucketizer.cpuRate bucketEnd).getD 0)
        ((row.2.bucketizer.systemRate bucketEnd).getD 0)) ∧
    (SnapshotShowsShares snapshot samples ↔ ∀ sample ∈ samples, PctHarmless sample.cpuCount
      ((snapshot.cpuRate sample).getD 0) ((snapshot.systemRate sample).getD 0)) :=
  ⟨rowsShowShares_iff rowsWithin order, snapshotShowsShares_iff batchWithin⟩

/-- A container that uses both CPUs of the host, at a time in milliseconds. -/
def busyOnTwoCpus (ts : Nat) : ContainerRawSample :=
  ⟨ts, ⟨1⟩, ⟨1⟩, 2000000 * ts, 2000000 * ts, 2, 1000, 0, 0, 0, 0⟩

/-- The collector as it closes the bucket that ends at 10 s. -/
def busyCollector : ContainerCollectorState :=
  let first := ((ContainerCollectorState.new 10000).observe .unchanged [busyOnTwoCpus 0]).2
  let second := (first.observe .unchanged [busyOnTwoCpus 10000]).2
  second.recordBatch [busyOnTwoCpus 20000] 20000

def noNames : ServiceNames := ⟨fun _ => none, fun found => by cases found⟩

def busySnapshot : MetricsSnapshotState :=
  (MetricsSnapshotState.new noNames 10000).recordContainers [busyOnTwoCpus 10000]

theorem busyCollector_within : WithinHost busyCollector 10000 :=
  ⟨by decide +kernel, by decide +kernel, by decide +kernel⟩

theorem busySnapshot_within : BatchWithinHost busySnapshot [busyOnTwoCpus 20000] :=
  ⟨by decide, by decide +kernel, by decide +kernel, by decide +kernel⟩

/-- The container is shown with two hundred percent of the host. -/
theorem busy_container_exceeds_host :
    (WithinHost busyCollector 10000 ∧ ¬RowsShowShares busyCollector .unchanged 10000) ∧
      BatchWithinHost busySnapshot [busyOnTwoCpus 20000] ∧
        ¬SnapshotShowsShares busySnapshot [busyOnTwoCpus 20000] := by
  refine ⟨⟨busyCollector_within, fun shows => ?_⟩, busySnapshot_within, fun shows => ?_⟩
  · have shown : ((busyCollector.flushedRows .unchanged 10000).map
        ContainerSample.cpuPctMill).sum = 200000 := by decide +kernel
    have limit := shows.sum
    omega
  · have shown : (((busySnapshot.recordContainers [busyOnTwoCpus 20000]).currentContainersAt
        .unchanged 20000).containers.map fun entry => entry.2.cpuPct).sum = 200 := by
      decide +kernel
    have limit := shows.containerSum .unchanged 20000
    rw [shown] at limit
    norm_num [slack] at limit

theorem cpu_pct_is_share_iff_busy :
    (RowsShowShares busyCollector .unchanged 10000 ↔ ∀ row ∈ busyCollector.containers.rows,
      CountHarmless row.2.bucketizer.lastCpuCount ((row.2.bucketizer.cpuRate 10000).getD 0)
        ((row.2.bucketizer.systemRate 10000).getD 0)) ∧
    (SnapshotShowsShares busySnapshot [busyOnTwoCpus 20000] ↔
      ∀ sample ∈ [busyOnTwoCpus 20000], PctHarmless sample.cpuCount
        ((busySnapshot.cpuRate sample).getD 0) ((busySnapshot.systemRate sample).getD 0)) :=
  cpu_pct_is_share_iff busyCollector_within .unchanged busySnapshot_within

end Vpsiner.Metrics
