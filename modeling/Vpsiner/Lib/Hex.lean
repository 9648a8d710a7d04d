import Vpsiner.Lib.Utf8

/-! Bytes written as pairs of lowercase hexadecimal digits, and read back. -/

set_option autoImplicit false

namespace Vpsiner.Lib

open Utf8

/-- The value of one digit, from its byte. -/
def hexNibble (byte : Nat) : Option Nat :=
  if 48 ≤ byte ∧ byte ≤ 57 then some (byte - 48)
  else if 97 ≤ byte ∧ byte ≤ 102 then some (byte - 97 + 10)
  else none

def hexDigit (value : Nat) : Char :=
  Char.ofNat (if value < 10 then 48 + value else 97 + (value - 10))

/-- The format `{byte:02x}`. -/
def hexPair (byte : Nat) : List Char := [hexDigit (byte / 16), hexDigit (byte % 16)]

def hexText (values : List Nat) : List Char := values.flatMap hexPair

/-- Reads the digits two at a time; nothing may be left over. -/
def readHex : List Nat → Option (List Nat)
  | [] => some []
  | [_] => none
  | first :: second :: rest => do
      let high ← hexNibble first
      let low ← hexNibble second
      let later ← readHex rest
      return (high * 16 + low) :: later

theorem toNat_hexDigit {value : Nat} (small : value < 16) :
    (hexDigit value).toNat = if value < 10 then 48 + value else 97 + (value - 10) := by
  rcases value with _ | _ | _ | _ | _ | _ | _ | _ | _ | _ | _ | _ | _ | _ | _ | _ | value
  all_goals first | rfl | omega

theorem bytes_hexDigit {value : Nat} (small : value < 16) :
    bytes [hexDigit value] = [if value < 10 then 48 + value else 97 + (value - 10)] := by
  have code := toNat_hexDigit small
  rw [bytes_ascii, code]
  rw [code]
  split <;> omega

theorem hexNibble_hexDigit {value : Nat} (small : value < 16) :
    hexNibble (if value < 10 then 48 + value else 97 + (value - 10)) = some value := by
  unfold hexNibble
  split
  · rw [if_pos (by omega), Nat.add_sub_cancel_left]
  · rw [if_neg (by omega), if_pos (by omega)]
    congr 1
    omega

theorem hexNibble_eq_some {byte value : Nat} (read : hexNibble byte = some value) :
    value < 16 ∧ byte = if value < 10 then 48 + value else 97 + (value - 10) := by
  unfold hexNibble at read
  split at read
  · cases read
    rw [if_pos (by omega)]
    omega
  · split at read
    · cases read
      rw [if_neg (by omega)]
      omega
    · cases read

theorem bytes_hexPair {value : Nat} (small : value < 256) :
    bytes (hexPair value) = [
      (if value / 16 < 10 then 48 + value / 16 else 97 + (value / 16 - 10)),
      (if value % 16 < 10 then 48 + value % 16 else 97 + (value % 16 - 10))] := by
  rw [hexPair, bytes_cons, bytes_hexDigit (by omega), bytes_hexDigit (by omega),
    List.singleton_append]

theorem bytes_hexText_cons (value : Nat) (rest : List Nat) :
    bytes (hexText (value :: rest)) = bytes (hexPair value) ++ bytes (hexText rest) := by
  simp [hexText]

/-- What is written reads back. -/
theorem readHex_hexText {values : List Nat} (small : ∀ value ∈ values, value < 256) :
    readHex (bytes (hexText values)) = some values := by
  induction values with
  | nil => rfl
  | cons value rest ih =>
      have first := small value List.mem_cons_self
      have later := ih fun other member => small other (List.mem_cons_of_mem _ member)
      have whole : value / 16 * 16 + value % 16 = value := by omega
      rw [bytes_hexText_cons, bytes_hexPair first]
      simp [readHex, hexNibble_hexDigit (show value / 16 < 16 by omega),
        hexNibble_hexDigit (show value % 16 < 16 by omega), later, whole]

/-- Only what would be written is read. -/
theorem bytes_hexText_of_readHex {text values : List Nat} (read : readHex text = some values) :
    text = bytes (hexText values) ∧ ∀ value ∈ values, value < 256 := by
  induction text using readHex.induct generalizing values with
  | case1 =>
      cases read
      exact ⟨rfl, by simp⟩
  | case2 => cases read
  | case3 first second rest ih =>
      simp only [readHex, Option.bind_eq_bind, Option.bind_eq_some_iff, Option.pure_def,
        Option.some.injEq] at read
      obtain ⟨high, readHigh, low, readLow, later, readLater, rfl⟩ := read
      obtain ⟨smallHigh, rfl⟩ := hexNibble_eq_some readHigh
      obtain ⟨smallLow, rfl⟩ := hexNibble_eq_some readLow
      obtain ⟨restText, smallRest⟩ := ih readLater
      have quotient : (high * 16 + low) / 16 = high := by omega
      have remainder : (high * 16 + low) % 16 = low := by omega
      constructor
      · rw [bytes_hexText_cons, bytes_hexPair (by omega), quotient, remainder, ← restText]
        rfl
      · intro value member
        rcases List.mem_cons.mp member with rfl | later
        · omega
        · exact smallRest value later

theorem length_bytes_hexText {values : List Nat} (small : ∀ value ∈ values, value < 256) :
    (bytes (hexText values)).length = 2 * values.length := by
  induction values with
  | nil => rfl
  | cons value rest ih =>
      have first := small value List.mem_cons_self
      have later := ih fun other member => small other (List.mem_cons_of_mem _ member)
      rw [bytes_hexText_cons, bytes_hexPair first, List.length_append, later]
      simp
      omega

end Vpsiner.Lib
