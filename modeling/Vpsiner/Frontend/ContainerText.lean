import Vpsiner.Model.Basic

/-! Container ids as texts, as which they are keys of the client. -/

set_option autoImplicit false

namespace Vpsiner.Frontend

/-- The twelve hex digits that stand for a container in JSON. -/
def cidText (cid : ContainerId) : String :=
  let digits := Nat.toDigits 16 cid.packed.toNat
  String.ofList (List.replicate (12 - digits.length) '0' ++ digits)

def hexNibble (digit : Char) : Nat :=
  if digit.isDigit then digit.toNat - '0'.toNat else digit.toNat - 'a'.toNat + 10

def parseHex (digits : List Char) : Nat :=
  digits.foldl (fun value digit => 16 * value + hexNibble digit) 0

theorem parseHex_concat (digits : List Char) (digit : Char) :
    parseHex (digits ++ [digit]) = 16 * parseHex digits + hexNibble digit := by
  rw [parseHex, List.foldl_append]
  rfl

theorem hexNibble_digitChar {digit : Nat} (small : digit < 16) :
    hexNibble (Nat.digitChar digit) = digit := by
  have table : ∀ digit : Fin 16, hexNibble (Nat.digitChar digit) = digit := by decide
  exact table ⟨digit, small⟩

theorem parseHex_toDigits (n : Nat) : parseHex (Nat.toDigits 16 n) = n := by
  induction n using Nat.strongRecOn with
  | ind n ih =>
      by_cases small : n < 16
      · rw [Nat.toDigits_of_lt_base small]
        exact (Nat.zero_add _).trans (hexNibble_digitChar small)
      · rw [Nat.toDigits_of_base_le (by decide) (Nat.le_of_not_lt small), parseHex_concat,
          ih _ (Nat.div_lt_self (by omega) (by decide)),
          hexNibble_digitChar (Nat.mod_lt _ (by decide)), Nat.div_add_mod]

theorem parseHex_replicate (count : Nat) (digits : List Char) :
    parseHex (List.replicate count '0' ++ digits) = parseHex digits := by
  induction count with
  | zero => rfl
  | succ count ih => exact ih

theorem cidText_injective : Function.Injective cidText := by
  intro left right same
  have digits := congrArg (fun text => parseHex text.toList) same
  unfold cidText at digits
  dsimp only at digits
  rw [String.toList_ofList, String.toList_ofList, parseHex_replicate, parseHex_replicate,
    parseHex_toDigits, parseHex_toDigits] at digits
  exact ContainerId.packed_toNat_injective digits

end Vpsiner.Frontend
