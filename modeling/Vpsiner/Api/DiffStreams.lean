import Mathlib.Data.String.Basic
import Vpsiner.Lib.DiffStream
import Vpsiner.Model.Containers
import Vpsiner.Model.Logs

/-! The two streams that send a snapshot and then differences: the list of containers and the
map of services. -/

set_option autoImplicit false

namespace Vpsiner.Api

open Lib

/-! ## Containers -/

abbrev ContainerDiff := KeyedDiff ContainerId ContainerSummary

def indexById (containers : List ContainerSummary) : KeyedTable ContainerSummary.id :=
  indexByKey ContainerSummary.id containers

/-- Removed ids come in the order of the hash map. -/
def diffContainers (order : HashOrder) (lastSent : KeyedTable ContainerSummary.id)
    (current : List ContainerSummary) : ContainerDiff :=
  .between order lastSent current

/-- `containers_info().unwrap_or_default()`. -/
def containersOrNone : AppResult (List ContainerSummary) → List ContainerSummary
  | .ok containers => containers
  | .error _ => []

/-- An answer of the registry, in which no id occurs twice. -/
structure ContainersRead where
  order : HashOrder
  info : AppResult (List ContainerSummary)
  distinct : ((containersOrNone info).map ContainerSummary.id).Nodup

def ContainersRead.reading (read : ContainersRead) : Reading ContainerSummary.id :=
  ⟨read.order, containersOrNone read.info, read.distinct⟩

def containersStream : Machine (DiffRun ContainerSummary.id) ContainersRead :=
  (diffMachine ContainerSummary.id).via ContainersRead.reading

/-! ## Services -/

structure ServiceStatus where
  lastReceived : Option Int
  live : Bool
deriving DecidableEq, Repr

/-- A map from services to their states, in the order of their names. -/
abbrev Services := KeyedTable (Prod.fst : String × ServiceStatus → String)

abbrev ServiceDiff := KeyedDiff String (String × ServiceStatus)

def diffServices (lastSent current : Services) : ServiceDiff :=
  .between .unchanged lastSent current.rows

def servicesReading (current : Services) : Reading (Prod.fst : String × ServiceStatus → String) :=
  ⟨.unchanged, current.rows, current.nodup_keys⟩

def groupsStream : Machine (DiffRun (Prod.fst : String × ServiceStatus → String)) Services :=
  (diffMachine Prod.fst).via servicesReading

/-- The map itself is what the next difference is taken from. -/
theorem indexByKey_services (current : Services) : indexByKey Prod.fst current.rows = current :=
  KeyedTable.eq_of_find? fun k => find?_indexByKey current.nodup_keys k

theorem containersStream_read (order : HashOrder) (lastSent : KeyedTable ContainerSummary.id)
    (current : List ContainerSummary) :
    (DiffStreamState.waiting lastSent).read order current =
      if (diffContainers order lastSent current).isEmpty then (.waiting lastSent, none)
      else (.waiting (indexById current), some (.diff (diffContainers order lastSent current))) :=
  rfl

theorem groupsStream_read (lastSent current : Services) :
    (DiffStreamState.waiting lastSent).read .unchanged current.rows =
      if (diffServices lastSent current).isEmpty then (.waiting lastSent, none)
      else (.waiting current, some (.diff (diffServices lastSent current))) := by
  rw [DiffStreamState.read_waiting, indexByKey_services]
  rfl

end Vpsiner.Api
