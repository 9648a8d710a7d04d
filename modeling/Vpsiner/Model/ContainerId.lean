import Mathlib.Algebra.Group.Nat.Defs
import Vpsiner.Lib.Hex
import Vpsiner.Model.Basic

/-! A container id as text and as bytes. -/

set_option autoImplicit false

namespace Vpsiner.ContainerId

open Lib Lib.Utf8

def asBytes (id : ContainerId) : List Nat :=
  (List.range 6).map fun index => id.packed.toNat / 256 ^ (5 - index) % 256

def fromBytes (bytes : List Nat) : Option ContainerId :=
  if bytes.length = 6 then
    some ⟨BitVec.ofNat 48 (bytes.foldl (fun packed byte => packed * 256 + byte) 0)⟩
  else none

/-- None if the id is shorter than 12 characters or does not start with lowercase hex. -/
def parse (fullId : String) : Option ContainerId := do
  let start ← getPrefix fullId.toList 12
  fromBytes (← readHex (bytes start))

def toHex (id : ContainerId) : List Char := hexText id.asBytes

theorem asBytes_lt (id : ContainerId) {byte : Nat} (member : byte ∈ id.asBytes) : byte < 256 := by
  obtain ⟨index, _, rfl⟩ := List.mem_map.mp member
  exact Nat.mod_lt _ (by decide)

theorem fromBytes_asBytes (id : ContainerId) : fromBytes id.asBytes = some id := by
  have bound : id.packed.toNat < 281474976710656 := id.packed.isLt
  have whole : id.asBytes.foldl (fun packed byte => packed * 256 + byte) 0 = id.packed.toNat := by
    simp [asBytes, List.range, List.range.loop]
    omega
  rw [fromBytes, if_pos (by simp [asBytes]), whole, BitVec.ofNat_toNat, BitVec.setWidth_eq]

theorem fromBytes_eq_some {bytes : List Nat} {id : ContainerId}
    (small : ∀ byte ∈ bytes, byte < 256) : fromBytes bytes = some id ↔ bytes = id.asBytes := by
  constructor
  · intro read
    unfold fromBytes at read
    split at read
    · next six =>
        cases read
        obtain ⟨a, b, c, d, e, f, rfl⟩ : ∃ a b c d e f, bytes = [a, b, c, d, e, f] := by
          match bytes, six with
          | [a, b, c, d, e, f], _ => exact ⟨a, b, c, d, e, f, rfl⟩
        simp only [List.mem_cons, List.not_mem_nil, or_false, forall_eq_or_imp, forall_eq] at small
        obtain ⟨_, _, _, _, _, _⟩ := small
        simp [asBytes, List.range, List.range.loop]
        omega
    · cases read
  · rintro rfl
    exact fromBytes_asBytes id

/-- A text is read as an id when it starts with the text of that id, and only then. -/
theorem parse_eq_some_iff {fullId : String} {id : ContainerId} :
    parse fullId = some id ↔ id.toHex <+: fullId.toList := by
  have small : ∀ byte ∈ id.asBytes, byte < 256 := fun _ => id.asBytes_lt
  simp only [parse, Option.bind_eq_bind, Option.bind_eq_some_iff, getPrefix_eq_some_iff]
  constructor
  · rintro ⟨start, ⟨within, _⟩, values, read, packed⟩
    obtain ⟨text, digits⟩ := bytes_hexText_of_readHex read
    have same := (fromBytes_eq_some digits).mp packed
    subst same
    have whole : start = id.toHex := bytes_injective text
    exact whole ▸ within
  · intro within
    refine ⟨id.toHex, ⟨within, ?_⟩, id.asBytes, readHex_hexText small, fromBytes_asBytes id⟩
    rw [toHex, length_bytes_hexText small]
    simp [asBytes]

end Vpsiner.ContainerId
