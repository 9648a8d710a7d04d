import Vpsiner.Metrics.ContainerRollup
import Vpsiner.Metrics.Store

/-! What a container query returns: one series for each service and container, each
in timestamp order. -/

set_option autoImplicit false

namespace Vpsiner.Metrics

open Lib SqliteMetricsStore

/-! ## Sums -/

@[simp] theorem ts_foldl_addPoint (total : GroupPoint) (points : List ContainerPoint) :
    (points.foldl addPoint total).ts = total.ts := by
  induction points generalizing total with
  | nil => rfl
  | cons point rest ih => exact ih (addPoint total point)

instance : Std.Total fun left right : GroupPoint => left.ts ≤ right.ts where
  total left right := le_total left.ts right.ts

instance : IsTrans GroupPoint fun left right => left.ts ≤ right.ts where
  trans _ _ _ := le_trans

private theorem perm_sumByBucket_ts (order : HashOrder) (series : List (List ContainerPoint)) :
    ((sumByBucket order series).map GroupPoint.ts).Perm
      ((groupByKey ContainerPoint.ts series.flatten).map Prod.fst) := by
  refine ((List.perm_insertionSort _ _).map GroupPoint.ts).trans ?_
  rw [List.map_map]
  have stamped : (GroupPoint.ts ∘ fun entry : Int × List ContainerPoint =>
      entry.2.foldl addPoint { ts := entry.1 }) = Prod.fst := by
    funext entry
    simp
  rw [stamped]
  exact (order.perm _).map Prod.fst

theorem ordered_sumByBucket (order : HashOrder) (series : List (List ContainerPoint)) :
    (sumByBucket order series).Pairwise fun earlier later => earlier.ts < later.ts := by
  have sorted : (sumByBucket order series).Pairwise fun earlier later => earlier.ts ≤ later.ts :=
    List.pairwise_insertionSort _ _
  have nodup : ((sumByBucket order series).map GroupPoint.ts).Nodup :=
    (perm_sumByBucket_ts order series).nodup_iff.mpr (nodup_keys_groupByKey _ _)
  exact (sorted.and (List.pairwise_map.mp nodup)).imp fun both => lt_of_le_of_ne both.1 both.2

theorem mem_sumByBucket_ts {order : HashOrder} {series : List (List ContainerPoint)} {ts : Int} :
    ts ∈ (sumByBucket order series).map GroupPoint.ts ↔
      ∃ points ∈ series, ts ∈ points.map ContainerPoint.ts := by
  rw [(perm_sumByBucket_ts order series).mem_iff]
  simp only [groupByKey, List.map_map, List.mem_map, List.mem_dedup, List.mem_flatten,
    Function.comp_apply]
  constructor
  · rintro ⟨_, ⟨point, ⟨points, member, present⟩, rfl⟩, rfl⟩
    exact ⟨points, member, point, present, rfl⟩
  · rintro ⟨points, member, point, present, rfl⟩
    exact ⟨_, ⟨point, ⟨points, member, present⟩, rfl⟩, rfl⟩

/-! ## Groups -/

section Groups

variable {order : HashOrder} {range : TimeRange} {service : String}
  {rows : List ContainerSample}

theorem mem_groupMetrics_containers {cid : ContainerId} {points : List ContainerPoint} :
    (cid, points) ∈ (groupMetrics order range service rows).containers ↔
      (∃ row ∈ rows, row.cid = cid) ∧ points =
        ((rows.filter fun row => row.cid = cid).filter fun row => range.fromMs ≤ row.ts).map
          fun row => ContainerPoint.fromSample row service := by
  simp only [groupMetrics, List.mem_map, order.mem_arrange, Prod.exists, mem_groupByKey,
    Prod.mk.injEq]
  constructor
  · rintro ⟨_, _, ⟨present, rfl⟩, rfl, rfl⟩
    exact ⟨present, rfl⟩
  · rintro ⟨present, rfl⟩
    exact ⟨cid, _, ⟨present, rfl⟩, rfl, rfl⟩

theorem nodup_groupMetrics_containers (order : HashOrder) (range : TimeRange) (service : String)
    (rows : List ContainerSample) :
    ((groupMetrics order range service rows).containers.map Prod.fst).Nodup := by
  simp only [groupMetrics, List.map_map, Function.comp_def]
  exact ((order.perm _).map Prod.fst).nodup_iff.mpr (nodup_keys_groupByKey _ _)

theorem groupMetrics_nil : groupMetrics order range service [] = {} := by
  have none : ∀ {α : Type}, order.arrange ([] : List α) = [] := fun {_} =>
    List.Perm.eq_nil (order.perm [])
  simp [groupMetrics, sumByBucket, groupByKey, none]

theorem mem_containerPoints_ts (order : HashOrder) (service : String)
    (inRange : ∀ row ∈ rows, range.fromMs ≤ row.ts) (ts : Int) (cid : ContainerId) :
    (∃ points, (cid, points) ∈ (groupMetrics order range service rows).containers ∧
        ts ∈ points.map ContainerPoint.ts) ↔ ∃ row ∈ rows, row.cid = cid ∧ row.ts = ts := by
  simp only [mem_groupMetrics_containers]
  constructor
  · rintro ⟨_, ⟨-, rfl⟩, member⟩
    simp only [List.map_map, List.mem_map, List.mem_filter, Function.comp_apply,
      ContainerPoint.ts_fromSample, decide_eq_true_eq] at member
    obtain ⟨row, ⟨⟨present, same⟩, -⟩, rfl⟩ := member
    exact ⟨row, present, same, rfl⟩
  · rintro ⟨row, present, same, rfl⟩
    refine ⟨_, ⟨⟨row, present, same⟩, rfl⟩, ?_⟩
    simp only [List.map_map, List.mem_map, List.mem_filter, Function.comp_apply,
      ContainerPoint.ts_fromSample, decide_eq_true_eq]
    exact ⟨row, ⟨⟨present, same⟩, inRange row present⟩, rfl⟩

theorem mem_groupSum_ts (order : HashOrder) (service : String)
    (inRange : ∀ row ∈ rows, range.fromMs ≤ row.ts) (ts : Int) :
    ts ∈ (groupMetrics order range service rows).sum.map GroupPoint.ts ↔
      ∃ row ∈ rows, row.ts = ts := by
  have summed : (groupMetrics order range service rows).sum = sumByBucket order
      ((groupMetrics order range service rows).containers.map Prod.snd) := rfl
  rw [summed, mem_sumByBucket_ts]
  constructor
  · rintro ⟨points, member, present⟩
    obtain ⟨⟨cid, _⟩, entry, rfl⟩ := List.mem_map.mp member
    obtain ⟨row, stored, -, same⟩ :=
      (mem_containerPoints_ts order service inRange ts cid).mp ⟨_, entry, present⟩
    exact ⟨row, stored, same⟩
  · rintro ⟨row, stored, rfl⟩
    obtain ⟨points, entry, present⟩ :=
      (mem_containerPoints_ts order service inRange row.ts row.cid).mpr ⟨row, stored, rfl, rfl⟩
    exact ⟨points, List.mem_map.mpr ⟨_, entry, rfl⟩, present⟩

theorem ordered_groupSum :
    ((groupMetrics order range service rows).sum.map GroupPoint.ts).Pairwise (· < ·) :=
  List.pairwise_map.mpr (ordered_sumByBucket _ _)

theorem ordered_containerPoints (sorted : rows.Pairwise cidThenTs)
    (nodup : (rows.map containerKey).Nodup) {cid : ContainerId} {points : List ContainerPoint}
    (member : (cid, points) ∈ (groupMetrics order range service rows).containers) :
    (points.map ContainerPoint.ts).Pairwise (· < ·) := by
  obtain ⟨-, rfl⟩ := mem_groupMetrics_containers.mp member
  rw [List.map_map]
  exact List.pairwise_map.mpr ((ordered_filter_cid sorted nodup cid).filter _)

end Groups

/-! ## Services -/

section Services

variable {names : ServiceNames} {order : HashOrder} {db : MetricsDb} {range : TimeRange}
  {resolution : MetricsResolution}

def serviceRows (names : ServiceNames) (db : MetricsDb) (range : TimeRange)
    (resolution : MetricsResolution) (service : String) : List ContainerSample :=
  (selectContainers db resolution range).filter fun row => names.name row.service = some service

theorem mem_queryContainers {service : String} {group : ContainerGroupMetrics} :
    (service, group) ∈ queryContainers names order db range resolution ↔
      serviceRows names db range resolution service ≠ [] ∧
        group = groupMetrics order range service
          (serviceRows names db range resolution service) := by
  have rowsOf : ∀ {sid : ServiceId}, names.name sid = some service →
      (selectContainers db resolution range).filter (fun row => row.service = sid) =
        serviceRows names db range resolution service := by
    intro sid named
    refine List.filter_congr fun row _ => ?_
    rw [decide_eq_decide]
    exact ⟨fun same => same ▸ named, fun same => names.injective same named⟩
  simp only [queryContainers, List.mem_filterMap, order.mem_arrange, Prod.exists, mem_groupByKey,
    Option.map_eq_some_iff, Prod.mk.injEq]
  constructor
  · rintro ⟨sid, _, ⟨⟨row, present, rfl⟩, rfl⟩, _, named, rfl, rfl⟩
    rw [rowsOf named]
    refine ⟨List.ne_nil_of_mem (a := row) ?_, rfl⟩
    exact List.mem_filter.mpr ⟨present, decide_eq_true named⟩
  · rintro ⟨some_, rfl⟩
    obtain ⟨row, member⟩ := List.exists_mem_of_ne_nil _ some_
    obtain ⟨present, named⟩ := List.mem_filter.mp member
    have named := of_decide_eq_true named
    exact ⟨row.service, _, ⟨⟨row, present, rfl⟩, rfl⟩, service, named, rfl, by rw [rowsOf named]⟩

theorem nodup_queryContainers :
    ((queryContainers names order db range resolution).map Prod.fst).Nodup := by
  have keys : ((order.arrange (groupByKey ContainerSample.service
      (selectContainers db resolution range))).map Prod.fst).Nodup :=
    ((order.perm _).map Prod.fst).nodup_iff.mpr (nodup_keys_groupByKey _ _)
  rw [List.Nodup, List.pairwise_map, queryContainers, List.pairwise_filterMap]
  refine (List.pairwise_map.mp keys).imp fun {first second} different => ?_
  intro one oneShape other otherShape same
  obtain ⟨name, named, rfl⟩ := Option.map_eq_some_iff.mp oneShape
  obtain ⟨_, otherNamed, rfl⟩ := Option.map_eq_some_iff.mp otherShape
  cases same
  exact different (names.injective named otherNamed)

/-- Looking a service up gives the group of its rows, an empty one included. -/
theorem find?_queryContainers (service : String) :
    (((queryContainers names order db range resolution).find? fun entry =>
        entry.1 = service).map Prod.snd).getD {} =
      groupMetrics order range service (serviceRows names db range resolution service) := by
  cases found : (queryContainers names order db range resolution).find? fun entry =>
      entry.1 = service with
  | none =>
      have absent : serviceRows names db range resolution service = [] := by
        by_contra present
        have member : (service, _) ∈ queryContainers names order db range resolution :=
          mem_queryContainers.mpr ⟨present, rfl⟩
        exact List.find?_eq_none.mp found _ member (decide_eq_true rfl)
      rw [absent, groupMetrics_nil]
      rfl
  | some entry =>
      have same : entry.1 = service := by simpa using List.find?_some found
      have member := List.mem_of_find?_eq_some found
      obtain ⟨name, group⟩ := entry
      subst same
      exact (mem_queryContainers.mp member).2

theorem serviceRows_inRange {service : String} :
    ∀ row ∈ serviceRows names db range resolution service, range.fromMs ≤ row.ts := by
  intro row member
  have selected := (perm_selectContainers db resolution range).mem_iff.mp
    (List.mem_filter.mp member).1
  exact (TimeRange.contains_iff.mp (List.mem_filter.mp selected).2).1

theorem pairwise_serviceRows (service : String) :
    (serviceRows names db range resolution service).Pairwise cidThenTs :=
  (pairwise_selectContainers db resolution range).filter _

theorem nodup_serviceRows (service : String) :
    ((serviceRows names db range resolution service).map containerKey).Nodup :=
  (nodup_selectContainers db resolution range).sublist (List.filter_sublist.map containerKey)

end Services

end Vpsiner.Metrics
