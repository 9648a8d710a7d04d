import Vpsiner.Api.DiffStreams
import Vpsiner.Logs.Buffer
import Vpsiner.Metrics.Snapshot

/-! The map of services: what is stored of their logs together with what runs. -/

set_option autoImplicit false

namespace Vpsiner.Api

open Lib Logs Metrics

structure LogCheckpointEntry where
  sid : ServiceId
  cid : ContainerId
  checkpoint : LogCheckpoint
deriving DecidableEq, Repr

/-- `SELECT sid, MAX(ts) FROM log_checkpoints GROUP BY sid`. -/
def listServiceLogWatermarks (checkpoints : List LogCheckpointEntry) : List (ServiceId × Int) :=
  (checkpoints.map (·.sid)).dedup.filterMap fun sid =>
    ((checkpoints.filter (·.sid = sid)).map (·.checkpoint.ts)).max?.map fun ts => (sid, ts)

abbrev Watermarks := KeyedTable (Prod.fst : String × Int → String)

/-- A service id that the registry does not know is left out. -/
def resolveWatermarks (checkpoints : List LogCheckpointEntry) (names : ServiceNames) :
    Watermarks :=
  KeyedTable.empty.upsertAll ((listServiceLogWatermarks checkpoints).filterMap fun watermark =>
    (names.name watermark.1).map fun service => (service, watermark.2))

def addContainer (services : Services) (container : ContainerSummary) : Services :=
  let status := ((services.find? container.service).map Prod.snd).getD ⟨none, false⟩
  services.upsert (container.service,
    { status with live := status.live || container.state = some .running })

def mergeServices (stored : Watermarks) (containers : List ContainerSummary) : Services :=
  let services := KeyedTable.empty.upsertAll
    (stored.rows.map fun watermark => (watermark.1, ⟨some watermark.2, false⟩))
  containers.foldl addContainer services

/-! ## What a service is said to be -/

/-- The newest checkpoint that is stored of the service. -/
def lastReceived (checkpoints : List LogCheckpointEntry) (names : ServiceNames)
    (service : String) : Option Int :=
  ((checkpoints.filter fun entry => names.name entry.sid = some service).map
    (·.checkpoint.ts)).max?

/-- A service is known by its logs or by its containers. -/
def serviceStatus (last : Option Int) (containers : List ContainerSummary) (service : String) :
    Option ServiceStatus :=
  if last.isSome ∨ containers.any (·.service = service) then
    some ⟨last, containers.any fun container =>
      container.service = service ∧ container.state = some .running⟩
  else none

section Watermarks

variable {checkpoints : List LogCheckpointEntry} {names : ServiceNames} {service : String}
  {sid : ServiceId} {ts : Int}

theorem mem_watermarks :
    (sid, ts) ∈ listServiceLogWatermarks checkpoints ↔
      ((checkpoints.filter (·.sid = sid)).map (·.checkpoint.ts)).max? = some ts := by
  constructor
  · intro member
    obtain ⟨other, -, newest⟩ := List.mem_filterMap.mp member
    obtain ⟨time, found, same⟩ := Option.map_eq_some_iff.mp newest
    cases same
    exact found
  · intro newest
    obtain ⟨entry, member, -⟩ := List.mem_map.mp (List.max?_mem newest)
    obtain ⟨stored, same⟩ := List.mem_filter.mp member
    have listed : sid ∈ (checkpoints.map (·.sid)).dedup := by
      rw [List.mem_dedup, ← of_decide_eq_true same]
      exact List.mem_map_of_mem stored
    exact List.mem_filterMap.mpr ⟨sid, listed, by rw [newest]; rfl⟩

/-- The entries of a service are those of its one id. -/
theorem filter_names (named : names.name sid = some service) :
    (checkpoints.filter fun entry => names.name entry.sid = some service) =
      checkpoints.filter (·.sid = sid) := by
  apply List.filter_congr
  intro entry _
  rw [decide_eq_decide]
  constructor
  · intro other
    exact names.injective other named
  · rintro rfl
    exact named

theorem mem_resolved :
    (service, ts) ∈ ((listServiceLogWatermarks checkpoints).filterMap fun watermark =>
        (names.name watermark.1).map fun name => (name, watermark.2)) ↔
      lastReceived checkpoints names service = some ts := by
  rw [List.mem_filterMap]
  constructor
  · rintro ⟨⟨sid, time⟩, listed, named⟩
    obtain ⟨name, known, same⟩ := Option.map_eq_some_iff.mp named
    cases same
    rw [lastReceived, filter_names known]
    exact mem_watermarks.mp listed
  · intro newest
    obtain ⟨entry, member, -⟩ := List.mem_map.mp (List.max?_mem newest)
    have named : names.name entry.sid = some service :=
      of_decide_eq_true (List.mem_filter.mp member).2
    rw [lastReceived, filter_names named] at newest
    exact ⟨(entry.sid, ts), mem_watermarks.mpr newest, by rw [named]; rfl⟩

theorem find?_resolveWatermarks (checkpoints : List LogCheckpointEntry) (names : ServiceNames)
    (service : String) :
    ((resolveWatermarks checkpoints names).find? service).map Prod.snd =
      lastReceived checkpoints names service := by
  have found : (resolveWatermarks checkpoints names).find? service =
      ((lastReceived checkpoints names service).map fun ts => (service, ts)).or none := by
    apply KeyedTable.find?_upsertAll_of_unique
    · rintro ⟨first, time⟩ one ⟨second, other⟩ two (rfl : first = second)
      cases (mem_resolved.mp one).symm.trans (mem_resolved.mp two)
      rfl
    · rintro ⟨name, ts⟩
      constructor
      · intro newest
        obtain ⟨time, last, same⟩ := Option.map_eq_some_iff.mp newest
        cases same
        exact ⟨mem_resolved.mpr last, rfl⟩
      · rintro ⟨member, rfl⟩
        rw [mem_resolved.mp member]
        rfl
  rw [found, Option.or_none, Option.map_map]
  exact Option.map_id' ..

end Watermarks

theorem find?_addContainer (services : Services) (container : ContainerSummary)
    (service : String) :
    ((addContainer services container).find? service).map Prod.snd =
      if container.service = service then
        some { ((services.find? service).map Prod.snd).getD ⟨none, false⟩ with
          live := (((services.find? service).map Prod.snd).getD ⟨none, false⟩).live ||
            container.state = some .running }
      else (services.find? service).map Prod.snd := by
  rw [addContainer, KeyedTable.find?_upsert]
  split
  · next same =>
      subst same
      rfl
  · rfl

/-- No container runs for a service that has none. -/
theorem any_running_of_absent {containers : List ContainerSummary} {service : String}
    (absent : ¬ containers.any (·.service = service)) :
    (containers.any fun container =>
      container.service = service && container.state = some .running) = false := by
  rw [List.any_eq_false]
  intro container member live
  exact absent (List.any_eq_true.mpr ⟨container, member, (Bool.and_eq_true_iff.mp live).1⟩)

theorem find?_foldl_addContainer (containers : List ContainerSummary) (services : Services)
    (service : String) :
    ((containers.foldl addContainer services).find? service).map Prod.snd =
      if containers.any (·.service = service) then
        some { ((services.find? service).map Prod.snd).getD ⟨none, false⟩ with
          live := (((services.find? service).map Prod.snd).getD ⟨none, false⟩).live ||
            containers.any fun container =>
              container.service = service ∧ container.state = some .running }
      else (services.find? service).map Prod.snd := by
  induction containers generalizing services with
  | nil => simp
  | cons container rest ih =>
      rw [List.foldl_cons, ih, find?_addContainer]
      by_cases same : container.service = service
      · by_cases later : rest.any (·.service = service)
        · simp [same, later, Bool.or_assoc]
        · simp [same, later, any_running_of_absent later]
      · simp [same]

theorem find?_mergeServices (stored : Watermarks) (containers : List ContainerSummary)
    (service : String) :
    ((mergeServices stored containers).find? service).map Prod.snd =
      serviceStatus ((stored.find? service).map Prod.snd) containers service := by
  let statuses : List (String × ServiceStatus) :=
    stored.rows.map fun watermark => (watermark.1, ⟨some watermark.2, false⟩)
  have distinct : (statuses.map Prod.fst).Nodup := by
    rw [List.map_map]
    exact stored.nodup_keys
  have started : ((indexByKey Prod.fst statuses).find? service).map Prod.snd =
      ((stored.find? service).map Prod.snd).map fun ts => ⟨some ts, false⟩ := by
    rw [find?_indexByKey distinct, List.find?_map, Option.map_map, Option.map_map]
    rfl
  have merged : mergeServices stored containers =
      containers.foldl addContainer (indexByKey Prod.fst statuses) := rfl
  rw [merged, find?_foldl_addContainer, started, serviceStatus]
  cases stored.find? service with
  | none => by_cases known : containers.any (·.service = service) <;> simp [known]
  | some watermark =>
      by_cases known : containers.any (·.service = service)
      · simp [known]
      · simp [known, any_running_of_absent known]

/-- Every service that has a stored checkpoint or a container is listed, and no other. -/
theorem find?_groups (checkpoints : List LogCheckpointEntry) (names : ServiceNames)
    (containers : List ContainerSummary) (service : String) :
    ((mergeServices (resolveWatermarks checkpoints names) containers).find? service).map
        Prod.snd =
      serviceStatus (lastReceived checkpoints names service) containers service := by
  rw [find?_mergeServices, find?_resolveWatermarks]

end Vpsiner.Api
