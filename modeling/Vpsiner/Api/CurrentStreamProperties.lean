import Vpsiner.Api.CurrentStream

/-! The browser catches up with both halves, whatever was coalesced, lost or read in between. -/

set_option autoImplicit false

namespace Vpsiner.Api

open Lib Metrics

/-- The copy once everything in flight has arrived. -/
def CurrentSystem.arrived (system : CurrentSystem) (connection : CurrentConnection) :
    MetricsSnapshot :=
  connection.inFlight.foldl MetricsSnapshot.apply system.copy

namespace CurrentConnection

/-- The first event has been sent. -/
def Open (connection : CurrentConnection) : Prop :=
  connection.phase = .waiting ∨ connection.phase = .readingHost ∨
    connection.phase = .readingContainers

/-- The host half is still to be read. -/
def HostDue (connection : CurrentConnection) : Prop :=
  connection.phase = .subscribing ∨ connection.phase = .initial ∨ connection.phase = .readingHost

def ContainersDue (connection : CurrentConnection) : Prop :=
  connection.phase ≠ .waiting ∧ connection.phase ≠ .readingHost

end CurrentConnection

/-- `host` and `containers` say what the browser will show, `tracks` that it will hear of anything
newer. -/
structure Following (system : CurrentSystem) (connection : CurrentConnection) : Prop where
  hostTracks : connection.host.Tracks system.host
  containersTracks : connection.containers.Tracks system.containers
  hostReading : connection.host.reading = true → connection.HostDue
  containersReading : connection.containers.reading = true → connection.ContainersDue
  snapshotting : ∀ {host now}, connection.phase = .snapshotting host now →
    connection.hostReadAt = now ∧
      ∀ state ∈ connection.host.copy, host = system.currentHost state now
  host : connection.Open → ∀ state ∈ connection.host.copy,
    (system.arrived connection).host = system.currentHost state connection.hostReadAt
  containers : connection.Open → ∀ state ∈ connection.containers.copy, ∃ order,
    (system.arrived connection).containers =
      state.currentContainersAt order connection.containersReadAt

namespace Following

variable {system after : CurrentSystem} {connection next : CurrentConnection}

/-- A writer of either half changes nothing else. -/
theorem of_writer (following : Following system connection)
    (hostTracks : connection.host.Tracks after.host)
    (containersTracks : connection.containers.Tracks after.containers)
    (copy : after.copy = system.copy) (stale : after.staleAfterMs = system.staleAfterMs) :
    Following after connection := by
  have arrived : after.arrived connection = system.arrived connection := by
    simp [CurrentSystem.arrived, copy]
  have current : after.currentHost = system.currentHost := by
    funext state now
    simp [CurrentSystem.currentHost, stale]
  refine ⟨hostTracks, containersTracks, following.hostReading, following.containersReading, ?_, ?_, ?_⟩
  · rw [current]
    exact following.snapshotting
  · rw [arrived, current]
    exact following.host
  · rw [arrived]
    exact following.containers

theorem deliver (following : Following system connection) {event : CurrentEvent}
    {rest : List CurrentEvent} (queued : connection.inFlight = event :: rest) :
    Following { system with
      connection := some { connection with inFlight := rest }
      copy := system.copy.apply event } { connection with inFlight := rest } := by
  have arrived : system.arrived connection = rest.foldl MetricsSnapshot.apply
      (system.copy.apply event) := by
    simp [CurrentSystem.arrived, queued]
  refine ⟨following.hostTracks, following.containersTracks, following.hostReading,
    following.containersReading, following.snapshotting, ?_, ?_⟩
  · intro opened
    have host := following.host opened
    rw [arrived] at host
    exact host
  · intro opened
    have containers := following.containers opened
    rw [arrived] at containers
    exact containers

theorem arrived_append {system : CurrentSystem} {connection : CurrentConnection}
    {event : CurrentEvent} (sent : next.inFlight = connection.inFlight ++ [event]) :
    system.arrived next = (system.arrived connection).apply event := by
  simp [CurrentSystem.arrived, sent]

theorem readHost (following : Following system connection) {now : Int}
    (taken : system.readHost connection now = some next) : Following system next := by
  simp only [CurrentSystem.readHost] at taken
  split at taken
  · next phase =>
      cases taken
      refine ⟨following.hostTracks.read, following.containersTracks, ?_, ?_, ?_, ?_, ?_⟩
      · exact fun reading => nomatch reading
      · exact fun _ => ⟨nofun, nofun⟩
      · intro host time same
        cases same
        exact ⟨rfl, fun state copied => by cases copied; rfl⟩
      · rintro (opened | opened | opened) <;> cases opened
      · rintro (opened | opened | opened) <;> cases opened
  · next phase =>
      cases taken
      have opened : connection.Open := .inr (.inl phase)
      have silent : connection.containers.reading = false := by
        cases reading : connection.containers.reading with
        | false => rfl
        | true => exact absurd phase (following.containersReading reading).2
      refine ⟨following.hostTracks.read, following.containersTracks, ?_, ?_, nofun, ?_, ?_⟩
      · exact fun reading => nomatch reading
      · exact fun reading => nomatch silent.symm.trans reading
      · intro _ state copied
        cases copied
        rw [arrived_append rfl]
        rfl
      · intro _
        rw [arrived_append rfl]
        exact following.containers opened
  · cases taken

theorem readContainers (following : Following system connection) {order : HashOrder} {now : Int}
    (taken : system.readContainers connection order now = some next) : Following system next := by
  simp only [CurrentSystem.readContainers] at taken
  split at taken
  · next host time phase =>
      cases taken
      obtain ⟨readAt, shown⟩ := following.snapshotting phase
      have silent : connection.host.reading = false := by
        cases reading : connection.host.reading with
        | false => rfl
        | true =>
            rcases following.hostReading reading with other | other | other <;>
              cases phase.symm.trans other
      refine ⟨following.hostTracks, following.containersTracks.read, ?_, ?_, nofun, ?_, ?_⟩
      · exact fun reading => nomatch silent.symm.trans reading
      · exact fun reading => nomatch reading
      · intro _ state copied
        rw [arrived_append rfl, readAt]
        exact shown state copied
      · intro _ state copied
        cases copied
        rw [arrived_append rfl]
        exact ⟨order, rfl⟩
  · next phase =>
      cases taken
      have opened : connection.Open := .inr (.inr phase)
      have silent : connection.host.reading = false := by
        cases reading : connection.host.reading with
        | false => rfl
        | true =>
            rcases following.hostReading reading with other | other | other <;>
              cases phase.symm.trans other
      refine ⟨following.hostTracks, following.containersTracks.read, ?_, ?_, nofun, ?_, ?_⟩
      · exact fun reading => nomatch silent.symm.trans reading
      · exact fun reading => nomatch reading
      · intro _
        rw [arrived_append rfl]
        exact following.host opened
      · intro _ state copied
        cases copied
        rw [arrived_append rfl]
        exact ⟨order, rfl⟩
  · cases taken

theorem wakeHost (following : Following system connection)
    (taken : system.wakeHost connection = some next) : Following system next := by
  simp only [CurrentSystem.wakeHost] at taken
  split at taken
  · next phase =>
      split at taken
      · cases taken
        have opened : connection.Open := .inl phase
        refine ⟨Follower.tracks_wake .., following.containersTracks, ?_, ?_, nofun, ?_, ?_⟩
        · exact fun _ => .inr (.inr rfl)
        · exact fun reading => absurd phase (following.containersReading reading).1
        · exact fun _ => following.host opened
        · exact fun _ => following.containers opened
      · cases taken
  · cases taken

theorem wakeContainers (following : Following system connection)
    (taken : system.wakeContainers connection = some next) : Following system next := by
  simp only [CurrentSystem.wakeContainers] at taken
  split at taken
  · next phase =>
      split at taken
      · cases taken
        have opened : connection.Open := .inl phase
        refine ⟨following.hostTracks, Follower.tracks_wake .., ?_, ?_, nofun, ?_, ?_⟩
        · intro reading
          rcases following.hostReading reading with other | other | other <;>
            cases phase.symm.trans other
        · exact fun _ => ⟨nofun, nofun⟩
        · exact fun _ => following.host opened
        · exact fun _ => following.containers opened
      · cases taken
  · cases taken

theorem subscribeContainers (following : Following system connection)
    (taken : system.subscribeContainers connection = some next) : Following system next := by
  simp only [CurrentSystem.subscribeContainers] at taken
  split at taken
  · next phase =>
      cases taken
      refine ⟨following.hostTracks, Follower.tracks_subscribe _, ?_, ?_, nofun, ?_, ?_⟩
      · exact fun _ => .inr (.inl rfl)
      · exact fun _ => ⟨nofun, nofun⟩
      · rintro (opened | opened | opened) <;> cases opened
      · rintro (opened | opened | opened) <;> cases opened
  · cases taken

theorem poll (following : Following system connection) {action : CurrentAction}
    (taken : system.poll connection action = some next) : Following system next := by
  cases action with
  | subscribeContainers => exact following.subscribeContainers taken
  | readHost now => exact following.readHost taken
  | readContainers order now => exact following.readContainers taken
  | wakeHost => exact following.wakeHost taken
  | wakeContainers => exact following.wakeContainers taken
  | _ => cases taken

/-- The connection is no part of what a connection follows. -/
theorem set_connection (following : Following system connection)
    (other : Option CurrentConnection) :
    Following { system with connection := other } connection :=
  following.of_writer following.hostTracks following.containersTracks rfl rfl

end Following

namespace CurrentSystem

variable {system after : CurrentSystem} {action : CurrentAction}

def Followed (system : CurrentSystem) : Prop :=
  ∀ connection, system.connection = some connection → Following system connection

theorem following_connect (system : CurrentSystem) :
    Following system {
      host := .subscribe system.host
      containers := .subscribe system.containers } := by
  refine ⟨Follower.tracks_subscribe _, Follower.tracks_subscribe _, ?_, ?_, nofun, ?_, ?_⟩
  · exact fun _ => .inl rfl
  · exact fun _ => ⟨nofun, nofun⟩
  · rintro (opened | opened | opened) <;> cases opened
  · rintro (opened | opened | opened) <;> cases opened

theorem followed_poll (followed : system.Followed) {connection next : CurrentConnection}
    (present : system.connection = some connection)
    (taken : system.poll connection action = some next) :
    Followed { system with connection := some next } := by
  intro other same
  cases same
  exact ((followed connection present).poll taken).set_connection _

theorem followed_step (followed : system.Followed) (taken : system.step action = some after) :
    after.Followed := by
  cases action with
  | recordHost sample =>
      simp only [step] at taken
      split at taken
      · cases taken
      · cases taken
        intro connection present
        have following := followed connection present
        exact following.of_writer (following.hostTracks.write _) following.containersTracks rfl rfl
  | announceHost =>
      simp only [step] at taken
      split at taken
      · cases taken
        intro connection present
        have following := followed connection present
        exact following.of_writer following.hostTracks.announce following.containersTracks rfl rfl
      · cases taken
  | recordContainers samples =>
      simp only [step] at taken
      split at taken
      · cases taken
      · cases taken
        intro connection present
        have following := followed connection present
        exact following.of_writer following.hostTracks (following.containersTracks.write _) rfl rfl
  | announceContainers =>
      simp only [step] at taken
      split at taken
      · cases taken
        intro connection present
        have following := followed connection present
        exact following.of_writer following.hostTracks following.containersTracks.announce rfl rfl
      · cases taken
  | connect =>
      simp only [step] at taken
      split at taken
      · cases taken
      · cases taken
        intro connection present
        cases present
        exact (following_connect system).set_connection _
  | deliver =>
      simp only [step] at taken
      split at taken
      · next connection present =>
          split at taken
          · next queued =>
              cases taken
              intro other same
              cases same
              exact (followed connection present).deliver queued
          · cases taken
      · cases taken
  | disconnect =>
      cases taken
      intro connection present
      cases present
  | _ =>
      simp only [step, Option.bind_eq_bind, Option.bind_eq_some_iff, Option.pure_def,
        Option.some.injEq] at taken
      obtain ⟨connection, present, next, polled, rfl⟩ := taken
      exact followed_poll followed present polled

/-- Once the browser has its first event, nothing new is announced and nothing recorded is still to
be announced, it shows of either half what was recorded last, as old as it may be when it is read. -/
structure CaughtUp (system : CurrentSystem) (connection : CurrentConnection) : Prop where
  host : connection.host.hasChanged system.host = false → system.host.unannounced = false →
    (system.arrived connection).host =
      system.currentHost system.host.value connection.hostReadAt
  containers : connection.containers.hasChanged system.containers = false →
    system.containers.unannounced = false → ∃ order,
      (system.arrived connection).containers =
        system.containers.value.currentContainersAt order connection.containersReadAt

theorem browser_catches_up {services : ServiceNames} {collectIntervalMs : Int}
    (reached : (currentStream services collectIntervalMs).Reachable Machine.anyStep system)
    {connection : CurrentConnection} (present : system.connection = some connection)
    (waiting : connection.phase = .waiting) : system.CaughtUp connection := by
  have followed : system.Followed := by
    apply reached.invariant Followed
    · intro other none
      cases none
    · exact fun followed _ taken => followed_step followed taken
  have following := followed connection present
  constructor
  · intro heard announced
    have idle : connection.host.reading = false := by
      cases reading : connection.host.reading with
      | false => rfl
      | true =>
          rcases following.hostReading reading with other | other | other <;>
            cases waiting.symm.trans other
    exact following.host (.inl waiting) _ (following.hostTracks.copy_eq idle heard announced)
  · intro heard announced
    have idle : connection.containers.reading = false := by
      cases reading : connection.containers.reading with
      | false => rfl
      | true => exact absurd waiting (following.containersReading reading).1
    exact following.containers (.inl waiting) _
      (following.containersTracks.copy_eq idle heard announced)

def hostSampleAt (ts : Int) (netRx : Nat) : HostRawSample where
  ts
  cpuPct := none
  memUsed := 0
  storageUsed := 0
  metricsSize := 0
  logsSize := 0
  netRx
  netTx := 0
  diskRead := 0
  diskWrite := 0
  logPressurePctMill := 0
  appRssBytes := none

/-- Two samples announced between two events reach the browser as one. -/
theorem browser_catches_up_coalesced : ∃ (system : CurrentSystem) (connection : CurrentConnection),
    system.copy.host.map CurrentHostPoint.ts = some 30000 ∧ system.CaughtUp connection := by
  let names : ServiceNames := ⟨fun _ => none, fun found => by cases found⟩
  let machine := currentStream names 10000
  have ran : ((machine.run (fun _ _ => true) machine.start [
      .recordHost (hostSampleAt 10000 0), .announceHost, .connect, .subscribeContainers,
      .readHost 10000, .readContainers .unchanged 10000, .recordHost (hostSampleAt 20000 5),
      .announceHost, .recordHost (hostSampleAt 30000 9), .announceHost, .wakeHost, .readHost 30000,
      .deliver, .deliver]).bind fun system => system.connection.map fun connection =>
        (system.copy.host.map CurrentHostPoint.ts, connection.phase)) =
      some (some 30000, .waiting) := by decide +kernel
  obtain ⟨system, taken, read⟩ := Option.bind_eq_some_iff.mp ran
  obtain ⟨connection, present, shown⟩ := Option.map_eq_some_iff.mp read
  obtain ⟨ts, waiting⟩ := Prod.mk.inj shown
  exact ⟨system, connection, ts, browser_catches_up (.of_run _ taken) present waiting⟩

end CurrentSystem

end Vpsiner.Api
