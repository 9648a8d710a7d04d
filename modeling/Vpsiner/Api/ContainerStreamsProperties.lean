import Vpsiner.Api.ContainerStreams
import Vpsiner.Lib.CrossSection
import Vpsiner.Metrics.QueryProperties

/-! When the appends of the container streams are cross-sections of one new bucket.
The range read is inclusive at the last bucket sent, so a series without a row in the
new bucket contributes the point it already had. -/

set_option autoImplicit false

namespace Vpsiner.Api

open Lib Metrics SqliteMetricsStore

/-! ## Connections -/

section Connections

variable {π κ : Type}

/-- The condition is met at each wake-up that is news to the connection. -/
def EveryWake (handle : Int → Wake → Option (π × Int)) (current : Int → Wake → Prop) :
    Int → List Wake → Prop
  | _, [] => True
  | lastSent, wake :: rest => (lastSent < wake.bucketEnd → current lastSent wake) ∧
      EveryWake handle current (((handle lastSent wake).map Prod.snd).getD lastSent) rest

/-- Every point is stamped with the new `last_sent`, which is past the previous one, and
only series stored at it have a point. -/
structure CrossSection (times : π → List (κ × Int)) (stored : Wake → κ → Int → Prop)
    (append : Append π) : Prop where
  current : ∀ entry ∈ times append.payload,
    entry.2 = append.lastSent ∧ append.previous < entry.2
  present : ∀ entry ∈ times append.payload, stored append.wake entry.1 append.lastSent

/-- What a handler guarantees of a single wake-up. -/
structure Handles (handle : Int → Wake → Option (π × Int)) (times : π → List (κ × Int))
    (stored : Wake → κ → Int → Prop) (current : Int → Wake → Prop) : Prop where
  awake : ∀ {lastSent wake payload latestTs}, handle lastSent wake = some (payload, latestTs) →
    lastSent < wake.bucketEnd
  silent : ∀ {lastSent wake}, handle lastSent wake = none → lastSent < wake.bucketEnd →
    current lastSent wake
  append : ∀ {lastSent wake payload latestTs}, handle lastSent wake = some (payload, latestTs) →
    (CrossSection times stored ⟨wake, lastSent, payload, latestTs⟩ ↔ current lastSent wake)
  fresh : ∀ {lastSent wake payload latestTs}, handle lastSent wake = some (payload, latestTs) →
    current lastSent wake → lastSent < latestTs ∧ ∀ entry ∈ times payload, entry.2 = latestTs
  keys : ∀ {lastSent wake payload latestTs}, handle lastSent wake = some (payload, latestTs) →
    ((times payload).map Prod.fst).Nodup

variable {handle : Int → Wake → Option (π × Int)} {times : π → List (κ × Int)}
  {stored : Wake → κ → Int → Prop} {current : Int → Wake → Prop}

theorem Handles.crossSections_iff (handles : Handles handle times stored current)
    (lastSent : Int) (wakes : List Wake) :
    (∀ append ∈ appends handle lastSent wakes, CrossSection times stored append) ↔
      EveryWake handle current lastSent wakes := by
  induction wakes generalizing lastSent with
  | nil => simp [appends, EveryWake]
  | cons wake rest ih =>
      rw [appends, EveryWake]
      cases handled : handle lastSent wake with
      | none =>
          simp only [Option.map_none, Option.getD_none, ih]
          exact (and_iff_right (handles.silent handled)).symm
      | some result =>
          obtain ⟨payload, latestTs⟩ := result
          simp only [List.forall_mem_cons, ih, handles.append handled, Option.map_some,
            Option.getD_some]
          exact and_congr_left' ⟨fun met _ => met, fun met => met (handles.awake handled)⟩

/-- Cross-sections of new buckets never repeat a point of the snapshot or of an
earlier append. -/
theorem Handles.nodup_sent (handles : Handles handle times stored current)
    {lastSent : Int} {wakes : List Wake} (met : EveryWake handle current lastSent wakes)
    {before : List (κ × Int)} (nodup : before.Nodup) (old : ∀ entry ∈ before, entry.2 ≤ lastSent) :
    (before ++ (appends handle lastSent wakes).flatMap fun append => times append.payload).Nodup := by
  induction wakes generalizing lastSent before with
  | nil => simpa [appends] using nodup
  | cons wake rest ih =>
      rw [EveryWake] at met
      rw [appends]
      cases handled : handle lastSent wake with
      | none =>
          rw [handled] at met
          exact ih met.2 nodup old
      | some result =>
          obtain ⟨payload, latestTs⟩ := result
          rw [handled] at met
          obtain ⟨newer, stamped⟩ :=
            handles.fresh handled (met.1 (handles.awake handled))
          rw [List.flatMap_cons, ← List.append_assoc]
          refine ih met.2 (List.nodup_append.mpr ⟨nodup, .of_map _ (handles.keys handled), ?_⟩) ?_
          · intro entry inBefore other inPayload same
            have := old entry inBefore
            have := stamped other inPayload
            subst same
            omega
          · intro entry member
            rcases List.mem_append.mp member with inBefore | inPayload
            · exact (old entry inBefore).trans newer.le
            · exact (stamped entry inPayload).le

end Connections

/-! ## The rows behind a wake-up -/

namespace Wake

def liveRows (wake : Wake) (range : TimeRange) (resolution : MetricsResolution) :
    List ContainerSample :=
  if wake.fails then []
  else (selectContainers wake.db resolution range).filter fun row =>
    (wake.names.name row.service).isSome

def serviceRows (wake : Wake) (range : TimeRange) (resolution : MetricsResolution)
    (service : String) : List ContainerSample :=
  if wake.fails then [] else Metrics.serviceRows wake.names wake.db range resolution service

end Wake

/-- Every series with a row among those read has a row at their newest timestamp, and
that one is after the last bucket sent. -/
def EverySeriesCurrent {κ : Type} (series : ContainerSample → κ) (lastSent : Int)
    (rows : List ContainerSample) : Prop :=
  ∀ row ∈ rows, ∃ last ∈ rows, series last = series row ∧ lastSent < last.ts ∧
    ∀ other ∈ rows, other.ts ≤ last.ts

section Series

variable {π κ ι : Type} {series : ContainerSample → ι} {label : κ → ContainerSample → Prop}

/-- The labels of a row tell its series. -/
structure Labels (label : κ → ContainerSample → Prop) (series : ContainerSample → ι)
    (rows : List ContainerSample) : Prop where
  own : ∀ row ∈ rows, ∃ k, label k row ∧
    ∀ other ∈ rows, label k other → series other = series row
  shared : ∀ k, ∀ row ∈ rows, ∀ other ∈ rows, series other = series row → label k row →
    label k other

theorem Labels.everySeriesCurrent_iff {rows : List ContainerSample}
    (labels : Labels label series rows) {latestTs lastSent : Int}
    (reached : ∃ k, ∃ row ∈ rows, label k row ∧ row.ts = latestTs)
    (upper : ∀ row ∈ rows, row.ts ≤ latestTs) :
    (∀ k ts, (∃ row ∈ rows, label k row ∧ row.ts = ts) →
        (∃ row ∈ rows, label k row ∧ row.ts = latestTs) ∧ lastSent < latestTs) ↔
      EverySeriesCurrent series lastSent rows := by
  constructor
  · intro current row member
    obtain ⟨k, labelled, apart⟩ := labels.own row member
    obtain ⟨⟨last, lastMember, lastLabelled, rfl⟩, newer⟩ :=
      current k row.ts ⟨row, member, labelled, rfl⟩
    exact ⟨last, lastMember, apart last lastMember lastLabelled, newer, upper⟩
  · rintro current k _ ⟨row, member, labelled, rfl⟩
    obtain ⟨last, lastMember, same, newer, greatest⟩ := current row member
    have newest : last.ts = latestTs := by
      obtain ⟨_, final, finalMember, -, rfl⟩ := reached
      exact le_antisymm (upper last lastMember) (greatest final finalMember)
    exact ⟨⟨last, lastMember, labels.shared k row member last lastMember same labelled, newest⟩,
      newest ▸ newer⟩

/-- A handler that sends the last entries of the series it reads. -/
theorem handles_of_series {handle : Int → Wake → Option (π × Int)} {times : π → List (κ × Int)}
    {stored : Wake → κ → Int → Prop} (payload : Int → Wake → π)
    {read : Int → Wake → List (κ × List Int)} {rows : Int → Wake → List ContainerSample}
    (labelAt : Wake → κ → ContainerSample → Prop)
    (shape : ∀ lastSent wake, handle lastSent wake = if wake.bucketEnd ≤ lastSent then none
      else (newestTime (read lastSent wake)).map fun latestTs => (payload lastSent wake, latestTs))
    (sent : ∀ lastSent wake, times (payload lastSent wake) = lastTimes (read lastSent wake))
    (of : ∀ lastSent wake, SeriesOf (fun k ts => ∃ row ∈ rows lastSent wake,
      labelAt wake k row ∧ row.ts = ts) (read lastSent wake))
    (labels : ∀ lastSent wake, Labels (labelAt wake) series (rows lastSent wake))
    (fromStore : ∀ lastSent wake k, ∀ row ∈ rows lastSent wake, labelAt wake k row →
      stored wake k row.ts) :
    Handles handle times stored
      fun lastSent wake => EverySeriesCurrent series lastSent (rows lastSent wake) := by
  have handled : ∀ {lastSent wake sentPayload latestTs},
      handle lastSent wake = some (sentPayload, latestTs) → lastSent < wake.bucketEnd ∧
        sentPayload = payload lastSent wake ∧
          newestTime (read lastSent wake) = some latestTs := by
    intro lastSent wake sentPayload latestTs result
    rw [shape] at result
    split at result
    · cases result
    · next late =>
        obtain ⟨_, newest, same⟩ := Option.map_eq_some_iff.mp result
        cases same
        exact ⟨not_le.mp late, rfl, newest⟩
  have equivalent : ∀ {lastSent wake latestTs}, newestTime (read lastSent wake) = some latestTs →
      ((∀ entry ∈ times (payload lastSent wake), entry.2 = latestTs ∧ lastSent < entry.2) ↔
        EverySeriesCurrent series lastSent (rows lastSent wake)) := by
    intro lastSent wake latestTs newest
    obtain ⟨reached, upper⟩ := (of lastSent wake).newestTime_eq_some_iff.mp newest
    rw [sent, (of lastSent wake).crossSection_iff newest]
    refine (labels lastSent wake).everySeriesCurrent_iff reached fun row member => ?_
    obtain ⟨k, labelled, -⟩ := (labels lastSent wake).own row member
    exact upper k row.ts ⟨row, member, labelled, rfl⟩
  refine ⟨fun result => (handled result).1, ?_, ?_, ?_, ?_⟩
  · intro lastSent wake passed late row member
    rw [shape, if_neg (not_le.mpr late), Option.map_eq_none_iff] at passed
    obtain ⟨k, labelled, -⟩ := (labels lastSent wake).own row member
    exact absurd ⟨row, member, labelled, rfl⟩
      ((of lastSent wake).newestTime_eq_none passed k row.ts)
  · intro lastSent wake sentPayload latestTs result
    obtain ⟨-, rfl, newest⟩ := handled result
    refine ⟨fun cross => (equivalent newest).mp cross.current, fun current => ?_⟩
    have stamped := (equivalent newest).mpr current
    refine ⟨stamped, fun entry member => ?_⟩
    have listed : (entry.1, entry.2) ∈ lastTimes (read lastSent wake) := sent lastSent wake ▸ member
    obtain ⟨⟨row, present, labelled, same⟩, -⟩ := (of lastSent wake).mem_lastTimes.mp listed
    have found := fromStore lastSent wake entry.1 row present labelled
    rwa [same, (stamped entry member).1] at found
  · intro lastSent wake sentPayload latestTs result current
    obtain ⟨-, rfl, newest⟩ := handled result
    have stamped := (equivalent newest).mpr current
    obtain ⟨⟨_, row, member, -, rfl⟩, upper⟩ := (of lastSent wake).newestTime_eq_some_iff.mp newest
    obtain ⟨last, lastMember, -, newer, greatest⟩ := current row member
    obtain ⟨k, labelled, -⟩ := (labels lastSent wake).own last lastMember
    have le := upper k last.ts ⟨last, lastMember, labelled, rfl⟩
    exact ⟨newer.trans_le le, fun entry inPayload => (stamped entry inPayload).1⟩
  · intro lastSent wake sentPayload latestTs result
    obtain ⟨-, rfl, -⟩ := handled result
    rw [sent]
    exact (of lastSent wake).nodup_lastTimes

end Series

/-! ## The service sums as series -/

def sumTimes (series : List (String × List GroupPoint)) : List (String × List Int) :=
  series.map fun entry => (entry.1, entry.2.map GroupPoint.ts)

def payloadTimes (payload : List (String × GroupPoint)) : List (String × Int) :=
  payload.map fun entry => (entry.1, entry.2.ts)

theorem newestTime_sumTimes (series : List (String × List GroupPoint)) :
    newestTime (sumTimes series) = latestTsByService series := by
  simp only [newestTime, sumTimes, latestTsByService, List.filterMap_map, Function.comp_def,
    List.getLast?_map]

theorem lastTimes_sumTimes (series : List (String × List GroupPoint)) :
    lastTimes (sumTimes series) = payloadTimes (crossSectionByService series) := by
  simp only [lastTimes, sumTimes, payloadTimes, crossSectionByService, List.filterMap_map,
    List.map_filterMap, Function.comp_def, List.getLast?_map, Option.map_map]

theorem seriesOf_readSums (wake : Wake) (range : TimeRange) (resolution : MetricsResolution) :
    SeriesOf (fun service ts => ∃ row ∈ wake.liveRows range resolution,
        wake.names.name row.service = some service ∧ row.ts = ts)
      (sumTimes (wake.readSums range resolution)) := by
  have keys : ((wake.read range resolution).map Prod.fst).Nodup := by
    unfold Wake.read
    split
    · exact List.nodup_nil
    · exact nodup_queryContainers
  refine ⟨?_, ?_, fun service ts => ?_⟩
  · simpa [sumTimes, Wake.readSums, Function.comp_def] using keys
  · intro entry member
    simp only [sumTimes, Wake.readSums, List.map_map, List.mem_map, Function.comp_apply] at member
    obtain ⟨⟨service, group⟩, present, rfl⟩ := member
    unfold Wake.read at present
    split at present
    · cases present
    · rw [(mem_queryContainers.mp present).2]
      exact ordered_groupSum
  · simp only [sumTimes, Wake.readSums, List.map_map, List.mem_map, Function.comp_apply,
      Prod.mk.injEq, Prod.exists, Wake.liveRows, Wake.read]
    split
    · simp
    · constructor
      · rintro ⟨_, ⟨_, group, present, rfl, rfl⟩, member⟩
        obtain ⟨-, rfl⟩ := mem_queryContainers.mp present
        obtain ⟨row, stored, rfl⟩ := (mem_groupSum_ts _ _ serviceRows_inRange _).mp member
        obtain ⟨selected, named⟩ := List.mem_filter.mp stored
        have named := of_decide_eq_true named
        exact ⟨row, List.mem_filter.mpr ⟨selected, by simp [named]⟩, named, rfl⟩
      · rintro ⟨row, live, named, rfl⟩
        have stored : row ∈ Metrics.serviceRows wake.names wake.db range resolution service :=
          List.mem_filter.mpr ⟨(List.mem_filter.mp live).1, decide_eq_true named⟩
        refine ⟨_, ⟨service, _, mem_queryContainers.mpr ⟨List.ne_nil_of_mem stored, rfl⟩, rfl, rfl⟩,
          ?_⟩
        exact (mem_groupSum_ts _ _ serviceRows_inRange _).mpr ⟨row, stored, rfl⟩

/-! ## One service's group as series -/

/-- The sum goes under `none`, each container under its id. -/
def groupTimes (group : ContainerGroupMetrics) : List (Option ContainerId × List Int) :=
  (none, group.sum.map GroupPoint.ts) ::
    group.containers.map fun entry => (some entry.1, entry.2.map ContainerPoint.ts)

def appendTimes (payload : ContainerGroupMetricsAppend) : List (Option ContainerId × Int) :=
  payload.sum.toList.map (fun point => (none, point.ts)) ++
    payload.containers.map fun entry => (some entry.1, entry.2.ts)

private theorem max?_toList_append (first : Option Int) (rest : List Int) :
    (first.toList ++ rest.max?.toList).max? = (first.toList ++ rest).max? := by
  have alone : rest.max?.toList.max? = rest.max? := by
    cases rest.max? <;> rfl
  cases first with
  | none => exact alone
  | some ts => simp only [Option.toList_some, List.singleton_append, List.max?_cons, alone]

theorem newestTime_groupTimes (group : ContainerGroupMetrics) :
    newestTime (groupTimes group) = latestTsInService group := by
  rw [latestTsInService, max?_toList_append, newestTime, groupTimes, List.filterMap_cons]
  simp only [List.filterMap_map, Function.comp_def, List.getLast?_map]
  cases group.sum.getLast? <;> rfl

theorem lastTimes_groupTimes (group : ContainerGroupMetrics) :
    lastTimes (groupTimes group) = appendTimes {
      sum := group.sum.getLast?
      containers := group.containers.filterMap fun entry =>
        entry.2.getLast?.map fun point => (entry.1, point) } := by
  rw [lastTimes, groupTimes, List.filterMap_cons, appendTimes]
  simp only [List.filterMap_map, List.map_filterMap, Function.comp_def, List.getLast?_map,
    Option.map_map]
  cases group.sum.getLast? <;> rfl

theorem readService_eq (wake : Wake) (range : TimeRange) (resolution : MetricsResolution)
    (service : String) :
    wake.readService range resolution service = groupMetrics wake.order range service
      (wake.serviceRows range resolution service) := by
  unfold Wake.readService Wake.read Wake.serviceRows
  split
  · rw [groupMetrics_nil]
    rfl
  · exact find?_queryContainers service

theorem seriesOf_readService (wake : Wake) (range : TimeRange) (resolution : MetricsResolution)
    (service : String) :
    SeriesOf (fun series ts => ∃ row ∈ wake.serviceRows range resolution service,
        (∀ cid ∈ series, row.cid = cid) ∧ row.ts = ts)
      (groupTimes (wake.readService range resolution service)) := by
  have inRange : ∀ row ∈ wake.serviceRows range resolution service, range.fromMs ≤ row.ts := by
    unfold Wake.serviceRows
    split
    · exact nofun
    · exact serviceRows_inRange
  have sorted : (wake.serviceRows range resolution service).Pairwise cidThenTs := by
    unfold Wake.serviceRows
    split
    · exact .nil
    · exact pairwise_serviceRows service
  have nodup : ((wake.serviceRows range resolution service).map containerKey).Nodup := by
    unfold Wake.serviceRows
    split
    · exact List.nodup_nil
    · exact nodup_serviceRows service
  rw [readService_eq]
  generalize wake.serviceRows range resolution service = rows at inRange sorted nodup ⊢
  refine ⟨?_, ?_, fun series ts => ?_⟩
  · have ids := nodup_groupMetrics_containers wake.order range service rows
    simp only [groupTimes, List.map_cons, List.map_map, Function.comp_def, List.nodup_cons]
    refine ⟨by simp, ?_⟩
    have wrapped := ids.map (Option.some_injective _)
    rwa [List.map_map] at wrapped
  · intro entry member
    rcases List.mem_cons.mp member with rfl | inContainers
    · exact ordered_groupSum
    · obtain ⟨⟨cid, points⟩, present, rfl⟩ := List.mem_map.mp inContainers
      exact ordered_containerPoints sorted nodup present
  · cases series with
    | none =>
        have summed := mem_groupSum_ts wake.order service inRange ts
        simpa [groupTimes] using summed
    | some cid =>
        have listed := mem_containerPoints_ts wake.order service inRange ts cid
        simp only [groupTimes, List.mem_cons, Prod.mk.injEq, reduceCtorEq, false_and, false_or,
          List.mem_map, Prod.exists, Option.some.injEq, Option.mem_some_iff, forall_eq']
        rw [← listed]
        constructor
        · rintro ⟨_, ⟨_, points, present, rfl, rfl⟩, member⟩
          exact ⟨points, present, member⟩
        · rintro ⟨points, present, member⟩
          exact ⟨_, ⟨cid, points, present, rfl, rfl⟩, member⟩

/-! ## The two handlers -/

private theorem liveRows_subset (wake : Wake) (range : TimeRange) (resolution : MetricsResolution) :
    ∀ row ∈ wake.liveRows range resolution, row ∈ (wake.db.containers resolution).rows ∧
      ∃ service, wake.names.name row.service = some service := by
  unfold Wake.liveRows
  split
  · exact nofun
  · intro row member
    obtain ⟨selected, named⟩ := List.mem_filter.mp member
    exact ⟨(List.mem_filter.mp ((perm_selectContainers _ _ _).mem_iff.mp selected)).1,
      Option.isSome_iff_exists.mp named⟩

private theorem serviceRows_subset (wake : Wake) (range : TimeRange)
    (resolution : MetricsResolution) (service : String) :
    ∀ row ∈ wake.serviceRows range resolution service,
      row ∈ (wake.db.containers resolution).rows ∧
        wake.names.name row.service = some service := by
  unfold Wake.serviceRows
  split
  · exact nofun
  · intro row member
    obtain ⟨selected, named⟩ := List.mem_filter.mp member
    exact ⟨(List.mem_filter.mp ((perm_selectContainers _ _ _).mem_iff.mp selected)).1,
      of_decide_eq_true named⟩

def ServiceStored (resolution : MetricsResolution) (wake : Wake) (service : String) (ts : Int) :
    Prop :=
  ∃ row ∈ (wake.db.containers resolution).rows,
    wake.names.name row.service = some service ∧ row.ts = ts

/-- A row of the container, or for the sum of any container, is stored at this time. -/
def ContainerStored (resolution : MetricsResolution) (service : String) (wake : Wake)
    (series : Option ContainerId) (ts : Int) : Prop :=
  ∃ row ∈ (wake.db.containers resolution).rows, wake.names.name row.service = some service ∧
    (∀ cid ∈ series, row.cid = cid) ∧ row.ts = ts

/-- Every service read at the wake-up is up to date with the newest bucket read. -/
def EveryServiceCurrent (resolution : MetricsResolution) (lastSent : Int) (wake : Wake) : Prop :=
  EverySeriesCurrent ContainerSample.service lastSent
    (wake.liveRows ⟨lastSent, wake.bucketEnd⟩ resolution)

/-- Every container of the service read at the wake-up is up to date with the newest
bucket read. -/
def EveryContainerCurrent (resolution : MetricsResolution) (service : String) (lastSent : Int)
    (wake : Wake) : Prop :=
  EverySeriesCurrent ContainerSample.cid lastSent
    (wake.serviceRows ⟨lastSent, wake.bucketEnd⟩ resolution service)

theorem handles_containers (resolution : MetricsResolution) :
    Handles (containersAppend resolution) payloadTimes (ServiceStored resolution)
      (EveryServiceCurrent resolution) := by
  refine handles_of_series
    (fun lastSent wake => crossSectionByService
      (wake.readSums ⟨lastSent, wake.bucketEnd⟩ resolution))
    (fun wake service row => wake.names.name row.service = some service)
    (fun lastSent wake => ?_) (fun lastSent wake => (lastTimes_sumTimes _).symm)
    (fun lastSent wake => seriesOf_readSums wake ⟨lastSent, wake.bucketEnd⟩ resolution)
    (fun lastSent wake => ⟨?_, ?_⟩) ?_
  · rw [newestTime_sumTimes]
    rfl
  · intro row member
    obtain ⟨-, service, named⟩ := liveRows_subset _ _ _ row member
    exact ⟨service, named, fun other _ otherNamed => wake.names.injective otherNamed named⟩
  · exact fun service row _ other _ same named => same ▸ named
  · intro lastSent wake service row member named
    exact ⟨row, (liveRows_subset _ _ _ row member).1, named, rfl⟩

theorem handles_container (resolution : MetricsResolution) (service : String) :
    Handles (containerAppend resolution service) appendTimes (ContainerStored resolution service)
      (EveryContainerCurrent resolution service) := by
  refine handles_of_series _ (fun _ series row => ∀ cid ∈ series, row.cid = cid)
    (fun lastSent wake => ?_) (fun lastSent wake => (lastTimes_groupTimes _).symm)
    (fun lastSent wake => seriesOf_readService wake ⟨lastSent, wake.bucketEnd⟩ resolution service)
    (fun lastSent wake => ⟨?_, ?_⟩) ?_
  · rw [newestTime_groupTimes]
    rfl
  · exact fun row _ => ⟨some row.cid, by simp, fun other _ labelled => labelled _ rfl⟩
  · exact fun series row _ other _ same labelled cid member => same.trans (labelled cid member)
  · intro lastSent wake series row member labelled
    obtain ⟨stored, named⟩ := serviceRows_subset _ _ _ _ row member
    exact ⟨row, stored, named, labelled, rfl⟩

/-- Every append of the connection is the cross-section of one new bucket, and no point
is sent twice. -/
structure ExactConnection {π κ : Type} (times : π → List (κ × Int))
    (stored : Wake → κ → Int → Prop) (snapshot : List (κ × Int)) (sent : List (Append π)) :
    Prop where
  crossSections : ∀ append ∈ sent, CrossSection times stored append
  once : (snapshot ++ sent.flatMap fun append => times append.payload).Nodup

/-- A connection of the stream of all services, from its snapshot through its wake-ups. -/
def ContainersExact (resolution : MetricsResolution) (range : TimeRange) (opening : Wake)
    (wakes : List Wake) : Prop :=
  let snapshot := containersSnapshot resolution range opening
  ExactConnection payloadTimes (ServiceStored resolution) (allTimes (sumTimes snapshot.1))
    (appends (containersAppend resolution) snapshot.2 wakes)

def ContainerExact (resolution : MetricsResolution) (service : String) (range : TimeRange)
    (opening : Wake) (wakes : List Wake) : Prop :=
  let snapshot := containerSnapshot resolution service range opening
  ExactConnection appendTimes (ContainerStored resolution service)
    (allTimes (groupTimes snapshot.1))
    (appends (containerAppend resolution service) snapshot.2 wakes)

theorem Handles.exact_iff {π κ : Type} {handle : Int → Wake → Option (π × Int)}
    {times : π → List (κ × Int)} {stored : Wake → κ → Int → Prop} {current : Int → Wake → Prop}
    (handles : Handles handle times stored current) {snapshot : List (κ × Int)} {lastSent : Int}
    (nodup : snapshot.Nodup) (old : ∀ entry ∈ snapshot, entry.2 ≤ lastSent) (wakes : List Wake) :
    ExactConnection times stored snapshot (appends handle lastSent wakes) ↔
      EveryWake handle current lastSent wakes := by
  constructor
  · exact fun exact => (handles.crossSections_iff lastSent wakes).mp exact.crossSections
  · exact fun met => ⟨(handles.crossSections_iff lastSent wakes).mpr met,
      handles.nodup_sent met nodup old⟩

/-- The appends of both container streams are cross-sections of new buckets, each point
sent once, exactly when at every wake-up that is news each series with a row in the
range read has a row in the newest bucket of that range, after the last one sent. -/
theorem containerStreams_exact_iff (resolution : MetricsResolution) (service : String)
    (range : TimeRange) (opening : Wake) (wakes : List Wake) :
    (ContainersExact resolution range opening wakes ↔
        EveryWake (containersAppend resolution) (EveryServiceCurrent resolution)
          (containersSnapshot resolution range opening).2 wakes) ∧
      (ContainerExact resolution service range opening wakes ↔
        EveryWake (containerAppend resolution service) (EveryContainerCurrent resolution service)
          (containerSnapshot resolution service range opening).2 wakes) := by
  have sums := seriesOf_readSums opening range resolution
  have group := seriesOf_readService opening range resolution service
  constructor
  · refine (handles_containers resolution).exact_iff sums.nodup_allTimes ?_ wakes
    rw [containersSnapshot, ← newestTime_sumTimes]
    exact sums.allTimes_le_newest range.fromMs
  · refine (handles_container resolution service).exact_iff group.nodup_allTimes ?_ wakes
    rw [containerSnapshot, ← newestTime_groupTimes]
    exact group.allTimes_le_newest range.fromMs

def webAndWorker : ServiceNames where
  name := fun sid => if sid.raw = 1 then some "web" else if sid.raw = 2 then some "worker" else none
  injective := by
    rintro ⟨first⟩ ⟨second⟩ service firstNamed secondNamed
    simp only at firstNamed secondNamed
    split at firstNamed <;> split at secondNamed <;> grind

/-- Both services have a row at 10000; only the first still has one at 20000. -/
def workerStops : MetricsDb :=
  MetricsDb.empty.setContainers .tenSeconds
    ⟨[idleContainer 1 10000, { idleContainer 2 10000 with service := ⟨2⟩ },
      idleContainer 1 20000], by decide⟩

/-- The wake-up at 20000 sends the stopped service's point of 10000 again. -/
theorem containerStreams_resend_stopped_service :
    ¬ ∀ (resolution : MetricsResolution) (service : String) (range : TimeRange) (opening : Wake)
        (wakes : List Wake), ContainersExact resolution range opening wakes ∧
          ContainerExact resolution service range opening wakes := by
  intro exact
  have connection := (exact .tenSeconds "web" ⟨0, 10000⟩
    ⟨10000, webAndWorker, .unchanged, workerStops, false⟩
    [⟨20000, webAndWorker, .unchanged, workerStops, false⟩]).1
  have sentTwice := connection.once
  revert sentTwice
  decide

end Vpsiner.Api
