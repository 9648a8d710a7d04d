import Vpsiner.Frontend.SharedStreams

/-! The pages show what the server has, whoever comes and goes and whatever breaks in between. -/

set_option autoImplicit false

namespace Vpsiner.Frontend

open Lib Api Metrics Logs

namespace SharedStream

variable {κ ρ γ ν ι : Type} [LinearOrder κ] [DecidableEq ρ] [DecidableEq γ]
  {key : ρ → κ} {part : ι → Type} {composable : SharedComposable key γ ν ι part}
  {stream after : SharedStream key γ ν ι part}

/-- Without a consumer nothing is open, with one there is a source or a reconnect is scheduled, and
what has come of the source is shown unless it has been dropped. -/
structure Inv (composable : SharedComposable key γ ν ι part)
    (stream : SharedStream key γ ν ι part) : Prop where
  idle : stream.consumers = 0 →
    stream.source = none ∧ stream.reconnectTimer = false ∧ stream.copy = fun _ => none
  alive : 0 < stream.consumers → (stream.source.isSome = true ↔ stream.reconnectTimer = false)
  sound : ∀ connection ∈ stream.source,
    Sound composable.view composable.sources stream.cells connection
  shown : ∀ connection ∈ stream.source, connection.delivered ≠ [] → stream.dropped = false →
    stream.copy = composable.view.after connection.delivered
  down : stream.source.isSome = true → stream.dropped = true → stream.dockerConnected = false
  docker : composable.watchesDocker = false → stream.dockerConnected = true

namespace Inv

theorem connect (consumed : 0 < stream.consumers)
    (docker : composable.watchesDocker = false → stream.dockerConnected = true) :
    Inv composable (stream.connect composable) where
  idle none := absurd none (Nat.ne_of_gt consumed)
  alive _ := iff_of_true rfl rfl
  sound connection opened := by
    cases opened
    exact .request composable.view composable.sources stream.cells
  shown connection opened came := by
    cases opened
    exact absurd rfl came
  down _ dropped := by cases dropped
  docker := docker

theorem of_cells (inv : Inv composable stream) {cells : ∀ i, Published (part i)}
    (aware : ∀ i follower missed, Aware (stream.cells i) follower missed →
      Aware (cells i) follower missed) :
    Inv composable { stream with cells } :=
  { inv with
    sound := fun connection opened =>
      have sound := inv.sound connection opened
      sound.of_cells fun i => aware i _ _ (sound.aware i) }

theorem of_update [DecidableEq ι] (inv : Inv composable stream) (i : ι) {cell : Published (part i)}
    (aware : ∀ follower missed, Aware (stream.cells i) follower missed →
      Aware cell follower missed) :
    Inv composable { stream with cells := Function.update stream.cells i cell } := by
  apply inv.of_cells
  intro j follower missed before
  by_cases same : j = i
  · subst same
    simpa using aware follower missed before
  · simpa [same] using before

theorem server [DecidableEq ι] (inv : Inv composable stream)
    {connection next : SourcedConnection key ι part} {action : ConnectionAction ι}
    (opened : stream.source = some connection)
    (taken : connection.poll composable.sources stream.cells action = some next) :
    Inv composable { stream with source := some next } where
  idle none := by cases (inv.idle none).1.symm.trans opened
  alive consumed := by simpa [opened] using inv.alive consumed
  sound other same := by
    cases same
    exact (inv.sound connection opened).poll taken
  shown other same := by
    cases same
    rw [SourcedConnection.delivered_poll taken]
    exact inv.shown connection opened
  down _ := inv.down (by rw [opened]; rfl)
  docker := inv.docker

theorem deliver (inv : Inv composable stream) (taken : stream.deliver composable = some after) :
    Inv composable after := by
  simp only [SharedStream.deliver, Option.bind_eq_bind, Option.bind_eq_some_iff] at taken
  obtain ⟨connection, opened, taken⟩ := taken
  split at taken
  · cases taken
  · next event rest queued =>
      cases taken
      have sound := inv.sound connection opened
      constructor
      case idle =>
        intro none
        cases (inv.idle none).1.symm.trans opened
      case alive =>
        intro consumed
        simpa [opened] using inv.alive consumed
      case sound =>
        intro other same
        cases same
        exact sound.deliver queued
      case shown =>
        intro other same _ kept
        cases same
        cases before : connection.delivered with
        | nil =>
            have snapshot := sound.isSnapshot_of_first queued before
            cases event with
            | snapshot rows => rfl
            | diff diff => cases snapshot
        | cons first others =>
            rw [← before, ClientView.after_append,
              ← inv.shown connection opened (by simp [before]) kept]
      case down => exact fun _ => inv.down (by rw [opened]; rfl)
      case docker => exact inv.docker

theorem onerror (inv : Inv composable stream) (taken : stream.onerror = some after) :
    Inv composable after := by
  unfold SharedStream.onerror at taken
  split at taken
  · next opened =>
      cases taken
      constructor
      case idle =>
        intro none
        simp [(inv.idle none).1] at opened
      case alive =>
        intro consumed
        simp [show 0 < stream.consumers from consumed]
      case sound => exact nofun
      case shown => exact nofun
      case down => exact nofun
      case docker => exact inv.docker
  · cases taken

theorem mount (inv : Inv composable stream) : Inv composable (stream.mount composable) := by
  unfold SharedStream.mount
  dsimp only
  split
  · next first =>
      exact connect (by simp) inv.docker
  · next more =>
      have consumed : 0 < stream.consumers := by omega
      exact { inv with idle := nofun, alive := fun _ => inv.alive consumed }

theorem unmount (inv : Inv composable stream) (taken : stream.unmount = some after) :
    Inv composable after := by
  unfold SharedStream.unmount at taken
  dsimp only at taken
  split at taken
  · cases taken
  · next consumed =>
      split at taken
      · next left =>
          cases taken
          exact { inv with
            idle := fun none => absurd none (Nat.ne_of_gt left)
            alive := fun _ => inv.alive (by omega) }
      · next last =>
          cases taken
          exact ⟨fun _ => ⟨rfl, rfl, rfl⟩, fun consumed => absurd consumed last, nofun, nofun,
            nofun, inv.docker⟩

theorem onDocker (inv : Inv composable stream) (watched : composable.watchesDocker = true)
    (connected : Bool) : Inv composable (stream.onDocker composable connected) := by
  have unwatched : composable.watchesDocker ≠ false := by simp [watched]
  cases connected with
  | false =>
      constructor
      case idle =>
        intro none
        exact ⟨(inv.idle none).1, (inv.idle none).2.1, rfl⟩
      case alive => exact inv.alive
      case sound => exact inv.sound
      case shown =>
        intro connection opened came kept
        have opened : stream.source = some connection := opened
        simp [SharedStream.onDocker, opened, came] at kept
      case down => exact fun _ _ => rfl
      case docker => exact fun not => absurd not unwatched
  | true =>
      unfold SharedStream.onDocker
      dsimp only
      by_cases consumed : 0 < stream.consumers
      · simp only [Bool.not_true, Bool.false_eq_true, if_false, if_pos consumed]
        exact connect consumed fun _ => rfl
      · simp only [Bool.not_true, Bool.false_eq_true, if_false, if_neg consumed]
        have none := inv.idle (Nat.eq_zero_of_not_pos consumed)
        refine { inv with down := fun opened => ?_, docker := fun _ => rfl }
        have closed : stream.source.isSome = true := opened
        simp [none.1] at closed

theorem step [DecidableEq ι] (inv : Inv composable stream) {action : SharedAction ι part}
    (taken : stream.step composable action = some after) : Inv composable after := by
  cases action with
  | write i value =>
      cases taken
      exact inv.of_update i fun _ _ aware => aware.write value
  | announce i =>
      cases taken
      exact inv.of_update i fun _ _ aware => aware.announce
  | server action =>
      simp only [SharedStream.step, Option.bind_eq_bind, Option.bind_eq_some_iff, Option.pure_def,
        Option.some.injEq] at taken
      obtain ⟨connection, opened, next, polled, rfl⟩ := taken
      exact inv.server opened polled
  | deliver => exact inv.deliver taken
  | error => exact inv.onerror taken
  | reconnectTick =>
      simp only [SharedStream.step] at taken
      split at taken
      · next scheduled =>
          cases taken
          refine connect (Nat.pos_of_ne_zero fun none => ?_) inv.docker
          simp [(inv.idle none).2.1] at scheduled
      · cases taken
  | mount =>
      cases taken
      exact inv.mount
  | unmount => exact inv.unmount taken
  | docker connected =>
      simp only [SharedStream.step] at taken
      split at taken
      · next watched =>
          cases taken
          exact inv.onDocker watched.1 connected
      · cases taken

end Inv

/-- Nothing is left open or scheduled without a consumer and something always is with one. Once the
connection has nothing more to hear of and its events have come, the page shows what the server
has. -/
structure ShowsServer (composable : SharedComposable key γ ν ι part)
    (stream : SharedStream key γ ν ι part) : Prop where
  idle : stream.consumers = 0 →
    stream.source = none ∧ stream.reconnectTimer = false ∧ stream.copy = fun _ => none
  alive : 0 < stream.consumers → (stream.source.isSome = true ↔ stream.reconnectTimer = false)
  shows : stream.dockerConnected = true → ∀ connection ∈ stream.source,
    Settled stream.cells connection →
      connection.inFlight.foldl composable.view.apply stream.copy =
        composable.view.fromRows (composable.sources.rows fun i => (stream.cells i).value)

theorem Inv.showsServer (inv : Inv composable stream) : ShowsServer composable stream := by
  refine ⟨inv.idle, inv.alive, ?_⟩
  intro connected connection opened settled
  have sound := inv.sound connection opened
  have kept : stream.dropped = false := by
    by_contra dropped
    have down := inv.down (by rw [Option.mem_def.mp opened]; rfl) (Bool.of_not_eq_false dropped)
    cases down.symm.trans connected
  rw [sound.arrived settled.waiting fun came => inv.shown connection opened came kept]
  exact sound.after_sent settled

variable [DecidableEq ι] {cells : ∀ i, Published (part i)}
  {allowed : SharedStream key γ ν ι part → SharedAction ι part → Prop}

theorem inv_of_reachable (reached : (sharedStream composable cells).Reachable allowed stream) :
    Inv composable stream := by
  apply reached.invariant (Inv composable)
  · exact ⟨fun _ => ⟨rfl, rfl, rfl⟩, fun consumed => absurd consumed (Nat.lt_irrefl 0), nofun,
      nofun, nofun, fun _ => rfl⟩
  · exact fun inv _ taken => inv.step taken

end SharedStream

/-! ## The two pages -/

theorem fromRows_services (current : Services) (service : String) :
    services.fromRows current.rows service = (current.find? service).map Prod.snd := by
  have shown := services.foldl_set current.rows (fun _ => none) service
  rw [reverse_find?, indexByKey_services, Option.or_none] at shown
  exact shown

theorem fromRows_containers {containers : List ContainerSummary}
    (distinct : (containers.map ContainerSummary.id).Nodup) (id : ContainerId) :
    containersById.fromRows containers (cidText id) =
      (containers.find? fun container => container.id = id).map containerInfo := by
  have shown := containersById.foldl_set containers (fun _ => none) id
  rw [reverse_find?, find?_indexByKey distinct, Option.or_none] at shown
  convert shown <;> rfl

/-- Visited or not, in every run the pages of the services and of the containers keep at most one
connection, and when what was announced has come they show exactly what the server has: each service
that has a stored checkpoint, with the time of its newest one, and each that has a container, live
if one of them runs; and each container, as long as Docker was not lost since. -/
theorem shared_pages_show {stored : ∀ i : GroupsPart, Published i.Value}
    {listed : Unit → Published ContainersInfo} :
    (∀ page, (sharedStream useServicesStream stored).Reachable Machine.anyStep page →
      page.ShowsServer useServicesStream ∧
      ∀ connection ∈ page.source, Settled page.cells connection → connection.inFlight = [] →
        ∀ service, page.copy service =
          serviceStatus
            (lastReceived (page.cells .stored).value.1 (page.cells .stored).value.2 service)
            (page.cells .containers).value service) ∧
    (∀ page, (sharedStream useContainersStream listed).Reachable Machine.anyStep page →
      page.ShowsServer useContainersStream ∧
      ∀ connection ∈ page.source, Settled page.cells connection → connection.inFlight = [] →
        page.dockerConnected = true → ∀ id, page.copy (cidText id) =
          ((page.cells ()).value.1.find? fun container => container.id = id).map
            containerInfo) := by
  constructor
  · intro page reached
    have inv := SharedStream.inv_of_reachable reached
    refine ⟨inv.showsServer, ?_⟩
    intro connection opened settled arrived service
    have shows := inv.showsServer.shows (inv.docker rfl) connection opened settled
    rw [arrived, List.foldl_nil] at shows
    rw [shows]
    exact (fromRows_services _ service).trans (find?_groups _ _ _ service)
  · intro page reached
    have inv := SharedStream.inv_of_reachable reached
    refine ⟨inv.showsServer, ?_⟩
    intro connection opened settled arrived connected id
    have shows := inv.showsServer.shows connected connection opened settled
    rw [arrived, List.foldl_nil] at shows
    rw [shows]
    exact fromRows_containers (page.cells ()).value.2 id

def noServices : ∀ i : GroupsPart, Published i.Value
  | .stored => { value := (([], unreadNames) : List LogCheckpointEntry × ServiceNames) }
  | .containers => { value := ([] : List ContainerSummary) }

def firstContainer : List (SharedAction GroupsPart GroupsPart.Value) := [
  .mount, .server .subscribe, .server .subscribe, .server (.read .unchanged false),
  .server (.read .unchanged false), .deliver,
  .write .containers ([webContainer .running] : List ContainerSummary), .announce .containers,
  .server (.wake .containers), .server (.read .unchanged false), .error, .reconnectTick,
  .server .subscribe, .server .subscribe, .server (.read .unchanged false),
  .server (.read .unchanged false), .deliver]

/-- A container starts, and the connection breaks before its event is sent. -/
theorem shared_pages_show_reconnected : ∃ page : SharedStream
      (Prod.fst : String × ServiceStatus → String) String ServiceStatus GroupsPart
      GroupsPart.Value,
    page.copy "shop" = some ⟨none, true⟩ ∧ page.ShowsServer useServicesStream := by
  let machine := sharedStream useServicesStream noServices
  have ran : ((machine.run (fun _ _ => true) machine.start firstContainer).bind fun page =>
      page.source.map fun connection =>
        (decide (connection.phase = .waiting ∧ connection.inFlight.length = 0 ∧
            serviceStatus
              (lastReceived (page.cells .stored).value.1 (page.cells .stored).value.2 "shop")
              (page.cells .containers).value "shop" = some ⟨none, true⟩),
          groupsSources.parts.map (fun i => ((connection.followers i).hasChanged (page.cells i),
            (page.cells i).unannounced, connection.missed i)))) =
      some (true, [(false, false, false), (false, false, false)]) := by
    decide +kernel
  obtain ⟨page, taken, read⟩ := Option.bind_eq_some_iff.mp ran
  obtain ⟨connection, opened, parts⟩ := Option.map_eq_some_iff.mp read
  simp only [groupsSources, List.map_cons, List.map_nil, Prod.mk.injEq, List.cons.injEq,
    and_true, decide_eq_true_eq] at parts
  obtain ⟨⟨waiting, none, status⟩, ⟨heardStored, announcedStored, knownStored⟩,
    heardContainers, announcedContainers, knownContainers⟩ := parts
  have settled : Settled page.cells connection := by
    refine ⟨waiting, ?_, ?_, ?_⟩ <;> intro i <;> cases i <;> assumption
  obtain ⟨shows, exactly⟩ := (@shared_pages_show noServices (fun _ => ⟨⟨[], .nil⟩, 0, false⟩)).1
    page (.of_run _ taken)
  exact ⟨page, (exactly connection opened settled (List.eq_nil_of_length_eq_zero none)
    "shop").trans status, shows⟩

end Vpsiner.Frontend
