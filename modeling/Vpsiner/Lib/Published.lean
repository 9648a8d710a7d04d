/-! A value that is written first and announced on a watch channel afterwards, and whoever follows
it. -/

set_option autoImplicit false

namespace Vpsiner.Lib

structure Published (σ : Type) where
  value : σ
  version : Nat := 0
  /-- A write whose announcement is still to come. -/
  unannounced : Bool := false

namespace Published

variable {σ : Type} (cell : Published σ)

def write (value : σ) : Published σ := { cell with value, unannounced := true }

def announce : Published σ := { cell with version := cell.version + 1, unannounced := false }

end Published

/-- `reading` says that the follower is about to read; `copy` is what it has read last. -/
structure Follower (σ : Type) where
  seen : Nat
  reading : Bool := true
  copy : Option σ := none

namespace Follower

variable {σ : Type} {cell : Published σ} {follower : Follower σ}

def subscribe (cell : Published σ) : Follower σ := { seen := cell.version }

def hasChanged (cell : Published σ) (follower : Follower σ) : Bool := follower.seen != cell.version

def wake (cell : Published σ) (follower : Follower σ) : Follower σ :=
  { follower with seen := cell.version, reading := true }

def read (cell : Published σ) (follower : Follower σ) : Follower σ :=
  { follower with reading := false, copy := some cell.value }

/-- The follower has the value, or it will hear of it. -/
structure Tracks (cell : Published σ) (follower : Follower σ) : Prop where
  seen : follower.seen ≤ cell.version
  current : follower.reading = true ∨ follower.seen < cell.version ∨ cell.unannounced = true ∨
    follower.copy = some cell.value

theorem tracks_subscribe (cell : Published σ) : (subscribe cell).Tracks cell :=
  ⟨Nat.le_refl _, .inl rfl⟩

theorem Tracks.write (tracks : follower.Tracks cell) (value : σ) :
    follower.Tracks (cell.write value) :=
  ⟨tracks.seen, .inr (.inr (.inl rfl))⟩

theorem Tracks.announce (tracks : follower.Tracks cell) : follower.Tracks cell.announce :=
  ⟨Nat.le_succ_of_le tracks.seen, .inr (.inl (Nat.lt_succ_of_le tracks.seen))⟩

theorem tracks_wake (cell : Published σ) (follower : Follower σ) :
    (wake cell follower).Tracks cell :=
  ⟨Nat.le_refl _, .inl rfl⟩

theorem Tracks.read (tracks : follower.Tracks cell) : (follower.read cell).Tracks cell :=
  ⟨tracks.seen, .inr (.inr (.inr rfl))⟩

/-- A follower with nothing to hear of has the value. -/
theorem Tracks.copy_eq (tracks : follower.Tracks cell) (idle : follower.reading = false)
    (heard : follower.hasChanged cell = false) (announced : cell.unannounced = false) :
    follower.copy = some cell.value := by
  have same : follower.seen = cell.version := by simpa [hasChanged] using heard
  rcases tracks.current with reading | behind | pending | copy
  · simp [idle] at reading
  · simp [same] at behind
  · simp [announced] at pending
  · exact copy

end Follower

end Vpsiner.Lib
