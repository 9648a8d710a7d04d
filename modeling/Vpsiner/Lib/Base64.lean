import Mathlib.Data.List.Basic

/-! The URL-safe base64 alphabet without padding, on bytes given as numbers below 256. -/

set_option autoImplicit false

namespace Vpsiner.Lib.Base64

def alphabet : List Char :=
  "ABCDEFGHIJKLMNOPQRSTUVWXYZabcdefghijklmnopqrstuvwxyz0123456789-_".toList

def digit (value : Nat) : Char := alphabet.getD value 'A'

def digitValue (char : Char) : Option Nat :=
  let index := alphabet.idxOf char
  if index < 64 then some index else none

def sextets : List Nat → List Nat
  | a :: b :: c :: rest => a / 4 :: (a % 4 * 16 + b / 16) :: (b % 16 * 4 + c / 64) :: c % 64 ::
      sextets rest
  | [a, b] => [a / 4, a % 4 * 16 + b / 16, b % 16 * 4]
  | [a] => [a / 4, a % 4 * 16]
  | [] => []

/-- Left-over bits must be zero, and a single left-over digit is an error. -/
def bytes : List Nat → Option (List Nat)
  | w :: x :: y :: z :: rest =>
      (bytes rest).map fun tail => (w * 4 + x / 16) :: (x % 16 * 16 + y / 4) :: (y % 4 * 64 + z) ::
        tail
  | [w, x, y] => if y % 4 = 0 then some [w * 4 + x / 16, x % 16 * 16 + y / 4] else none
  | [w, x] => if x % 16 = 0 then some [w * 4 + x / 16] else none
  | [_] => none
  | [] => some []

def encode (input : List Nat) : List Char := (sextets input).map digit

def decode (text : List Char) : Option (List Nat) := (text.mapM digitValue).bind bytes

theorem digitValue_digit {value : Nat} (small : value < 64) :
    digitValue (digit value) = some value := by
  have all : ∀ value : Fin 64, digitValue (digit value) = some value.val := by
    decide +kernel
  exact all ⟨value, small⟩

theorem sextets_lt {input : List Nat} (small : ∀ byte ∈ input, byte < 256) :
    ∀ value ∈ sextets input, value < 64 := by
  fun_induction sextets input with
  | case1 a b c rest ih =>
      simp only [List.forall_mem_cons] at small ⊢
      obtain ⟨first, second, third, later⟩ := small
      exact ⟨by omega, by omega, by omega, by omega, ih later⟩
  | case2 a b =>
      simp only [List.forall_mem_cons] at small ⊢
      obtain ⟨first, second, _⟩ := small
      exact ⟨by omega, by omega, by omega, nofun⟩
  | case3 a =>
      simp only [List.forall_mem_cons] at small ⊢
      exact ⟨by omega, by omega, nofun⟩
  | case4 => exact nofun

theorem bytes_sextets {input : List Nat} (small : ∀ byte ∈ input, byte < 256) :
    bytes (sextets input) = some input := by
  fun_induction sextets input with
  | case1 a b c rest ih =>
      simp only [List.forall_mem_cons] at small
      obtain ⟨first, second, third, later⟩ := small
      rw [bytes, ih later, Option.map_some]
      congr 2
      · omega
      · congr 1
        · omega
        · congr 1
          omega
  | case2 a b =>
      simp only [List.forall_mem_cons] at small
      obtain ⟨first, second, _⟩ := small
      rw [bytes, if_pos (by omega)]
      congr 2
      · omega
      · congr 1
        omega
  | case3 a =>
      simp only [List.forall_mem_cons] at small
      rw [bytes, if_pos (by omega)]
      congr 2
      omega
  | case4 => rfl

theorem decode_encode {input : List Nat} (small : ∀ byte ∈ input, byte < 256) :
    decode (encode input) = some input := by
  have digits : ∀ values : List Nat, (∀ value ∈ values, value < 64) →
      (values.map digit).mapM digitValue = some values := by
    intro values
    induction values with
    | nil => exact fun _ => rfl
    | cons value rest ih =>
        intro inside
        obtain ⟨here, later⟩ := List.forall_mem_cons.mp inside
        rw [List.map_cons, List.mapM_cons, digitValue_digit here, ih later]
        rfl
  rw [decode, encode, digits _ (sextets_lt small), Option.bind_some, bytes_sextets small]

end Vpsiner.Lib.Base64
