import Vpsiner.Lib.DiffStream
import Vpsiner.Lib.Published

/-! A keyed collection that is put together of several published parts, and a connection that sends
what changed in it. The parts are read one after another, each at its own moment. -/

set_option autoImplicit false

namespace Vpsiner.Lib

variable {κ ρ γ ν ι : Type} [LinearOrder κ] {key : ρ → κ} {part : ι → Type}

/-- A part that cannot be read counts as its fallback. -/
structure Sources {κ ρ : Type} [LinearOrder κ] (key : ρ → κ) (ι : Type) (part : ι → Type) where
  parts : List ι
  complete : ∀ i, i ∈ parts
  fallback : ∀ i, part i
  rows : (∀ i, part i) → List ρ
  distinct : ∀ values, ((rows values).map key).Nodup

inductive SourcedPhase (ι : Type) where
  | subscribing (rest : List ι)
  | reading (rest : List ι)
  | waiting
deriving DecidableEq

/-- `missed` says which parts could not be read when they were read last. -/
structure SourcedConnection {κ ρ : Type} [LinearOrder κ] (key : ρ → κ) (ι : Type)
    (part : ι → Type) where
  phase : SourcedPhase ι
  followers : ∀ i, Follower (part i)
  missed : ι → Bool := fun _ => false
  run : DiffRun key := {}
  delivered : List (DiffEvent κ ρ) := []
  inFlight : List (DiffEvent κ ρ) := []

inductive ConnectionAction (ι : Type) where
  | subscribe
  | read (order : HashOrder) (fails : Bool)
  | wake (i : ι)

namespace SourcedConnection

/-- Requested, and not yet seen by the server. -/
def request (sources : Sources key ι part) (cells : ∀ i, Published (part i)) :
    SourcedConnection key ι part where
  phase := .subscribing sources.parts
  followers := fun i => .subscribe (cells i)

variable [DecidableEq ρ] [DecidableEq ι] (sources : Sources key ι part)
  (cells : ∀ i, Published (part i)) (connection : SourcedConnection key ι part)

def values (i : ι) : part i := (connection.followers i).copy.getD (sources.fallback i)

def subscribe : Option (SourcedConnection key ι part) :=
  match connection.phase with
  | .subscribing (i :: rest) =>
      some { connection with
        followers := Function.update connection.followers i (.subscribe (cells i))
        phase := if rest = [] then .reading sources.parts else .subscribing rest }
  | _ => none

def readPart (i : ι) (fails : Bool) : SourcedConnection key ι part :=
  let follower := connection.followers i
  { connection with
    followers := Function.update connection.followers i
      (if fails then { follower with reading := false, copy := some (sources.fallback i) }
      else follower.read (cells i))
    missed := Function.update connection.missed i fails }

/-- With the last part the collection is complete. -/
def finish (order : HashOrder) : Option (SourcedConnection key ι part) := do
  let reading : Reading key :=
    ⟨order, sources.rows (connection.values sources), sources.distinct _⟩
  return { connection with
    phase := .waiting
    run := ← connection.run.step reading
    inFlight := connection.inFlight ++ (connection.run.event reading).toList }

def read (order : HashOrder) (fails : Bool) : Option (SourcedConnection key ι part) :=
  match connection.phase with
  | .reading [i] => (connection.readPart sources cells i fails).finish sources order
  | .reading (i :: rest) =>
      some { connection.readPart sources cells i fails with phase := .reading rest }
  | _ => none

def wake (i : ι) : Option (SourcedConnection key ι part) :=
  match connection.phase with
  | .waiting =>
      if (connection.followers i).hasChanged (cells i) then
        some { connection with
          followers := Function.update connection.followers i
            ((connection.followers i).wake (cells i))
          phase := .reading sources.parts }
      else none
  | _ => none

def poll : ConnectionAction ι → Option (SourcedConnection key ι part)
  | .subscribe => connection.subscribe sources cells
  | .read order fails => connection.read sources cells order fails
  | .wake i => connection.wake sources cells i

variable {sources cells connection} {next : SourcedConnection key ι part}

/-- The server does not take back what has come. -/
theorem delivered_poll {action : ConnectionAction ι}
    (taken : connection.poll sources cells action = some next) :
    next.delivered = connection.delivered := by
  cases action with
  | subscribe =>
      simp only [poll, subscribe] at taken
      split at taken
      · cases taken
        rfl
      · cases taken
  | read order fails =>
      simp only [poll, read] at taken
      split at taken
      · simp only [finish, Option.bind_eq_bind, Option.bind_eq_some_iff, Option.pure_def,
          Option.some.injEq] at taken
        obtain ⟨run, -, rfl⟩ := taken
        rfl
      · cases taken
        rfl
      · cases taken
  | wake i =>
      simp only [poll, wake] at taken
      split at taken
      · split at taken
        · cases taken
          rfl
        · cases taken
      · cases taken

end SourcedConnection

/-! ## What has been sent -/

/-- The part is still to be read. -/
def SourcedPhase.Due (phase : SourcedPhase ι) (i : ι) : Prop :=
  match phase with
  | .subscribing _ => True
  | .reading rest => i ∈ rest
  | .waiting => False

def DiffEvent.isSnapshot : DiffEvent κ ρ → Bool
  | .snapshot _ => true
  | .diff _ => false

/-- The follower is not ahead of the part, and has it or will hear of it unless it could not be
read. -/
structure Aware {σ : Type} (cell : Published σ) (follower : Follower σ) (missed : Bool) : Prop where
  seen : follower.seen ≤ cell.version
  tracks : missed = false → follower.Tracks cell

structure Sound [DecidableEq ρ] [DecidableEq γ] (view : ClientView key γ ν)
    (sources : Sources key ι part) (cells : ∀ i, Published (part i))
    (connection : SourcedConnection key ι part) : Prop where
  run : RunInv view connection.run
  sent : connection.run.sent = connection.delivered ++ connection.inFlight
  first : ∀ event ∈ connection.run.sent.head?, event.isSnapshot = true
  started : connection.run.sent = [] → connection.run.stream = .initial
  aware : ∀ i, Aware (cells i) (connection.followers i) (connection.missed i)
  due : ∀ i, (connection.followers i).reading = true → connection.phase.Due i
  latest : connection.phase = .waiting →
    connection.run.latest = some (sources.rows (connection.values sources))

/-- The connection waits, and there is nothing it is still to hear of. -/
structure Settled (cells : ∀ i, Published (part i)) (connection : SourcedConnection key ι part) :
    Prop where
  waiting : connection.phase = .waiting
  heard : ∀ i, (connection.followers i).hasChanged (cells i) = false
  announced : ∀ i, (cells i).unannounced = false
  known : ∀ i, connection.missed i = false

section Aware

variable {σ : Type} {cell : Published σ} {follower : Follower σ} {missed : Bool}

theorem Aware.write (aware : Aware cell follower missed) (value : σ) :
    Aware (cell.write value) follower missed :=
  ⟨aware.seen, fun known => (aware.tracks known).write value⟩

theorem Aware.announce (aware : Aware cell follower missed) :
    Aware cell.announce follower missed :=
  ⟨Nat.le_succ_of_le aware.seen, fun known => (aware.tracks known).announce⟩

theorem Aware.read (aware : Aware cell follower missed) (fallback : σ) (fails : Bool) :
    Aware cell (if fails then { follower with reading := false, copy := some fallback }
      else follower.read cell) fails := by
  cases fails with
  | true => exact ⟨aware.seen, nofun⟩
  | false => exact ⟨aware.seen, fun _ => ⟨aware.seen, .inr (.inr (.inr rfl))⟩⟩

theorem Aware.wake (cell : Published σ) (follower : Follower σ) (missed : Bool) :
    Aware cell (follower.wake cell) missed :=
  ⟨Nat.le_refl _, fun _ => Follower.tracks_wake cell follower⟩

theorem Aware.subscribe (cell : Published σ) (missed : Bool) :
    Aware cell (.subscribe cell) missed :=
  ⟨Nat.le_refl _, fun _ => Follower.tracks_subscribe cell⟩

end Aware

namespace Sound

variable [DecidableEq ρ] [DecidableEq γ] {view : ClientView key γ ν}
  {sources : Sources key ι part} {cells : ∀ i, Published (part i)}
  {connection next : SourcedConnection key ι part}

theorem request (view : ClientView key γ ν) (sources : Sources key ι part)
    (cells : ∀ i, Published (part i)) : Sound view sources cells (.request sources cells) where
  run := .initial rfl rfl rfl
  sent := rfl
  first := nofun
  started _ := rfl
  aware _ := .subscribe _ _
  due _ _ := trivial
  latest := nofun

/-- A part that is written or announced leaves the connection as it is. -/
theorem of_cells (sound : Sound view sources cells connection) {later : ∀ i, Published (part i)}
    (aware : ∀ i, Aware (later i) (connection.followers i) (connection.missed i)) :
    Sound view sources later connection :=
  { sound with aware }

/-- The first reading of all parts sends the snapshot. -/
theorem finish (sound : Sound view sources cells connection)
    (idle : ∀ i, (connection.followers i).reading = false) {order : HashOrder}
    (taken : connection.finish sources order = some next) : Sound view sources cells next := by
  simp only [SourcedConnection.finish, Option.bind_eq_bind, Option.bind_eq_some_iff,
    Option.pure_def, Option.some.injEq] at taken
  obtain ⟨run, stepped, rfl⟩ := taken
  have inv := sound.run.step stepped
  cases stepped
  refine ⟨inv, ?sent, ?first, ?started, sound.aware, ?due, fun _ => rfl⟩
  case sent =>
    rw [← List.append_assoc, ← sound.sent]
  case due =>
    intro i reading
    simp [idle i] at reading
  case first =>
    cases before : connection.run.sent with
    | nil => simp [DiffRun.event, sound.started before, DiffStreamState.read, DiffEvent.isSnapshot]
    | cons event rest => simpa [before] using sound.first
  case started =>
    cases before : connection.run.sent with
    | nil => simp [DiffRun.event, sound.started before, DiffStreamState.read]
    | cons event rest => simp

/-! ## Steps -/

section Steps

variable [DecidableEq ι]

theorem subscribe (sound : Sound view sources cells connection)
    (taken : connection.subscribe sources cells = some next) :
    Sound view sources cells next := by
  unfold SourcedConnection.subscribe at taken
  split at taken
  · next i rest phase =>
      cases taken
      refine ⟨sound.run, sound.sent, sound.first, sound.started, ?_, ?_, ?_⟩
      · intro j
        by_cases same : j = i
        · subst same
          simpa using Aware.subscribe (cells j) (connection.missed j)
        · simpa [same] using sound.aware j
      · intro j _
        dsimp only
        split
        · exact sources.complete j
        · trivial
      · intro waiting
        dsimp only at waiting
        split at waiting <;> cases waiting
  · cases taken

theorem wake (sound : Sound view sources cells connection) {i : ι}
    (taken : connection.wake sources cells i = some next) : Sound view sources cells next := by
  unfold SourcedConnection.wake at taken
  split at taken
  · split at taken
    · cases taken
      refine ⟨sound.run, sound.sent, sound.first, sound.started, ?_, ?_, nofun⟩
      · intro j
        by_cases same : j = i
        · subst same
          simpa using Aware.wake (cells j) (connection.followers j) (connection.missed j)
        · simpa [same] using sound.aware j
      · exact fun j _ => sources.complete j
    · cases taken
  · cases taken

theorem readPart (sound : Sound view sources cells connection) {i : ι} {rest : List ι}
    (phase : connection.phase = .reading (i :: rest)) (fails : Bool) :
    Sound view sources cells
      { connection.readPart sources cells i fails with phase := .reading rest } := by
  refine ⟨sound.run, sound.sent, sound.first, sound.started, ?_, ?_, nofun⟩
  · intro j
    unfold SourcedConnection.readPart
    by_cases same : j = i
    · subst same
      simpa using (sound.aware j).read (sources.fallback j) fails
    · simpa [same] using sound.aware j
  · intro j reading
    unfold SourcedConnection.readPart at reading
    by_cases same : j = i
    · subst same
      cases fails <;> simp [Follower.read] at reading
    · have due := sound.due j (by simpa [same] using reading)
      simpa [phase, SourcedPhase.Due, same] using due

theorem read (sound : Sound view sources cells connection) {order : HashOrder} {fails : Bool}
    (taken : connection.read sources cells order fails = some next) :
    Sound view sources cells next := by
  unfold SourcedConnection.read at taken
  split at taken
  · next i phase =>
      have read := sound.readPart phase fails
      refine read.finish (fun j => ?_) taken
      by_contra reading
      have due := read.due j (Bool.of_not_eq_false reading)
      cases due
  · next i rest _ phase =>
      cases taken
      exact sound.readPart phase fails
  · cases taken

theorem poll (sound : Sound view sources cells connection) {action : ConnectionAction ι}
    (taken : connection.poll sources cells action = some next) :
    Sound view sources cells next := by
  cases action with
  | subscribe => exact sound.subscribe taken
  | read order fails => exact sound.read taken
  | wake i => exact sound.wake taken

end Steps

/-! ## What arrives -/

theorem deliver (sound : Sound view sources cells connection) {event : DiffEvent κ ρ}
    {rest : List (DiffEvent κ ρ)} (queued : connection.inFlight = event :: rest) :
    Sound view sources cells
      { connection with delivered := connection.delivered ++ [event], inFlight := rest } :=
  { sound with sent := by simp [sound.sent, queued] }

/-- The first event that comes is the snapshot. -/
theorem isSnapshot_of_first (sound : Sound view sources cells connection)
    {event : DiffEvent κ ρ} {rest : List (DiffEvent κ ρ)}
    (queued : connection.inFlight = event :: rest) (first : connection.delivered = []) :
    event.isSnapshot = true :=
  sound.first event (by simp [sound.sent, queued, first])

theorem after_sent (sound : Sound view sources cells connection)
    (settled : Settled cells connection) :
    view.after connection.run.sent = view.fromRows (sources.rows fun i => (cells i).value) := by
  have current : connection.values sources = fun i => (cells i).value := by
    funext i
    have idle : (connection.followers i).reading = false := by
      by_contra reading
      have due := sound.due i (Bool.of_not_eq_false reading)
      simp [settled.waiting, SourcedPhase.Due] at due
    have copied := ((sound.aware i).tracks (settled.known i)).copy_eq idle (settled.heard i)
      (settled.announced i)
    simp [SourcedConnection.values, copied]
  have latest := sound.latest settled.waiting
  rw [current] at latest
  exact sound.run.follows.copy _ latest

theorem sent_ne_nil (sound : Sound view sources cells connection)
    (waiting : connection.phase = .waiting) : connection.run.sent ≠ [] := by
  intro nothing
  have latest := sound.latest waiting
  cases sound.run with
  | initial _ none _ => cases none.symm.trans latest
  | waiting _ _ stream _ _ _ => cases (sound.started nothing).symm.trans stream

/-- Whatever is shown before the snapshot comes is replaced by it. -/
theorem arrived (sound : Sound view sources cells connection)
    (waiting : connection.phase = .waiting) {copy : ClientCopy γ ν}
    (shown : connection.delivered ≠ [] → copy = view.after connection.delivered) :
    connection.inFlight.foldl view.apply copy = view.after connection.run.sent := by
  cases before : connection.delivered with
  | cons event rest =>
      rw [shown (by simp [before]), sound.sent, ClientView.after, ClientView.after,
        List.foldl_append]
  | nil =>
      have sent : connection.run.sent = connection.inFlight := by simp [sound.sent, before]
      rw [sent]
      cases queued : connection.inFlight with
      | nil => exact absurd (sent.trans queued) (sound.sent_ne_nil waiting)
      | cons event rest =>
          have snapshot := sound.isSnapshot_of_first queued before
          cases event with
          | snapshot rows => rfl
          | diff diff => cases snapshot

end Sound

end Vpsiner.Lib
