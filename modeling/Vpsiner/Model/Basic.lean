import Mathlib.Data.Int.Order.Basic
import Mathlib.Data.Nat.Basic
import Mathlib.Algebra.Ring.Int.Defs
import Mathlib.Order.Basic

/-! Identifiers, timestamps and errors shared by every subsystem. -/

set_option autoImplicit false

namespace Vpsiner

/-- A range of Unix timestamps in milliseconds, both ends inclusive. Timestamps are
`i64` in the source and integers here. -/
structure TimeRange where
  fromMs : Int
  toMs : Int
deriving DecidableEq, Repr

def TimeRange.contains (range : TimeRange) (ts : Int) : Bool :=
  decide (range.fromMs ≤ ts) && decide (ts ≤ range.toMs)

theorem TimeRange.contains_iff {range : TimeRange} {ts : Int} :
    range.contains ts = true ↔ range.fromMs ≤ ts ∧ ts ≤ range.toMs := by
  simp [contains]

/-- The first 12 hex characters of a Docker container id, packed into six bytes.
The bytes are read most significant first, so that the derived order of the
source and the BLOB order of SQLite are both the unsigned one. -/
structure ContainerId where
  packed : BitVec 48
deriving DecidableEq, Repr

theorem ContainerId.packed_toNat_injective :
    Function.Injective fun cid : ContainerId => cid.packed.toNat := by
  rintro ⟨left⟩ ⟨right⟩ same
  exact congrArg ContainerId.mk (BitVec.eq_of_toNat_eq same)

instance : LinearOrder ContainerId :=
  LinearOrder.lift' (fun cid => cid.packed.toNat) ContainerId.packed_toNat_injective

/-- A service name interned into a compact id. -/
structure ServiceId where
  raw : UInt32
deriving DecidableEq, Repr

inductive AppError where
  | docker (detail : String)
  | storage (detail : String)
  | host (detail : String)
  | notFound (detail : String)
  | badRequest (detail : String)
  | conflict (detail : String)
  | forbidden (detail : String)
  | unimplemented (detail : String)
deriving DecidableEq, Repr

/-- How a call can end other than by returning a value. -/
inductive Fault where
  | error (err : AppError)
  | panic (site : String)
deriving DecidableEq, Repr

abbrev AppResult (α : Type) := Except Fault α

@[simp] theorem ok_bind {α β : Type} (value : α) (next : α → AppResult β) :
    (Except.ok value : AppResult α) >>= next = next value := rfl

def i64Min : Int := -2 ^ 63
def i64Max : Int := 2 ^ 63 - 1

end Vpsiner
