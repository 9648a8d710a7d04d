import Vpsiner.Api.DiffStreams
import Vpsiner.Frontend.ContainerText

/-! What the browser holds of the containers and of the services. -/

set_option autoImplicit false

namespace Vpsiner.Frontend

open Lib Api

structure ContainerInfo where
  id : String
  name : String
  service : String
  image : String
  imageSha : String
  ports : List String
  labels : List String
  state : Option ContainerState
  startedAt : Option Int
deriving DecidableEq, Repr

def containerInfo (container : ContainerSummary) : ContainerInfo where
  id := cidText container.id
  name := container.name
  service := container.service
  image := container.image
  imageSha := container.imageSha
  ports := container.ports
  labels := container.labels
  state := container.state
  startedAt := container.startedAt

/-- `containersById`: the objects by their `id`. -/
def containersById : ClientView ContainerSummary.id String ContainerInfo where
  name := cidText
  value := containerInfo
  name_injective := cidText_injective

def services : ClientView (Prod.fst : String × ServiceStatus → String) String ServiceStatus where
  name := id
  value := Prod.snd
  name_injective := Function.injective_id

/-- In every run of a connection the browser holds what the server read last, and the server
sends an event exactly when that is not what it sent before. -/
theorem diff_streams_reconstruct :
    (∀ run, containersStream.Reachable Machine.anyStep run → Follows containersById run) ∧
      ∀ run, groupsStream.Reachable Machine.anyStep run → Follows services run :=
  ⟨fun _ reached => follows_of_reachable containersById reached.of_via,
    fun _ reached => follows_of_reachable services reached.of_via⟩

def webContainer (state : ContainerState) : ContainerSummary where
  id := ⟨1⟩
  fullId := "000000000001ab"
  name := "web"
  service := "shop"
  image := "shop:1"
  imageSha := ""
  ports := []
  labels := []
  state := some state
  startedAt := none

def containersReads : List ContainersRead := [
  ⟨.unchanged, .ok [webContainer .running], by decide⟩,
  ⟨.unchanged, .ok [webContainer .exited], by decide⟩,
  ⟨.unchanged, .error (.error (.docker "lock poisoned")), by decide⟩]

def servicesReads : List Services := [
  ⟨[("shop", ⟨none, true⟩)], List.pairwise_singleton _ _⟩,
  ⟨[("shop", ⟨some 5, true⟩)], List.pairwise_singleton _ _⟩]

/-- A container stops and then the registry cannot be read; a service gets its first line. -/
theorem diff_streams_reconstruct_stopped :
    ∃ containers services', Follows containersById containers ∧ Follows services services' ∧
      containers.sent.length = 3 ∧
      services.after services'.sent "shop" = some ⟨some 5, true⟩ := by
  have listed : (containersStream.run (fun _ _ => true) containersStream.start containersReads).map
      (fun run => run.sent.length) = some 3 := by decide
  have mapped : (groupsStream.run (fun _ _ => true) groupsStream.start servicesReads).map
      (fun run => services.after run.sent "shop") = some (some ⟨some 5, true⟩) := by decide
  obtain ⟨containers, takenContainers, count⟩ := Option.map_eq_some_iff.mp listed
  obtain ⟨map, takenServices, held⟩ := Option.map_eq_some_iff.mp mapped
  exact ⟨containers, map,
    diff_streams_reconstruct.1 containers (.of_run containersReads takenContainers),
    diff_streams_reconstruct.2 map (.of_run servicesReads takenServices), count, held⟩

end Vpsiner.Frontend
