import Mathlib.Data.List.Infix
import Vpsiner.Lib.Utf8
import Vpsiner.Model.Basic

/-! Stripping ANSI escape sequences from a line of log text, byte by byte. -/

set_option autoImplicit false

namespace Vpsiner.Logs

open Vpsiner.Lib Vpsiner.Lib.Utf8

def esc : Char := '\x1b'
def bel : Char := '\x07'

namespace AnsiEscapes

/-- Past the final byte of a control sequence, or at the end. -/
def skipCsi (bytes : List Nat) (index : Nat) : Nat :=
  match within : bytes[index]? with
  | none => index
  | some byte => if 0x40 ≤ byte ∧ byte ≤ 0x7e then index + 1 else skipCsi bytes (index + 1)
termination_by bytes.length - index
decreasing_by
  have := (List.getElem?_eq_some_iff.mp within).1
  omega

/-- Past the terminator of an operating system command, or at the end. -/
def skipOsc (bytes : List Nat) (index : Nat) : Nat :=
  match within : bytes[index]? with
  | none => index
  | some byte =>
      if byte = 0x07 then index + 1
      else if byte = 0x1b ∧ bytes[index + 1]? = some 0x5c then index + 2
      else skipOsc bytes (index + 1)
termination_by bytes.length - index
decreasing_by
  have := (List.getElem?_eq_some_iff.mp within).1
  omega

/-- Past the escape sequence whose ESC is before the index. -/
def skipEscape (bytes : List Nat) (index : Nat) : Nat :=
  match bytes[index]? with
  | none => index
  | some 0x5b => skipCsi bytes (index + 1)
  | some 0x5d => skipOsc bytes (index + 1)
  | some _ => index + 1

theorem le_skipCsi (bytes : List Nat) (index : Nat) : index ≤ skipCsi bytes index := by
  fun_induction skipCsi bytes index with
  | case1 index ended => exact Nat.le_refl index
  | case2 index byte within final => exact Nat.le_succ index
  | case3 index byte within inner ih => exact Nat.le_of_succ_le ih

theorem le_skipOsc (bytes : List Nat) (index : Nat) : index ≤ skipOsc bytes index := by
  fun_induction skipOsc bytes index with
  | case1 index ended => exact Nat.le_refl index
  | case2 index within => exact Nat.le_succ index
  | case3 index byte within inner terminated => exact Nat.le_add_right index 2
  | case4 index byte within inner unterminated ih => exact Nat.le_of_succ_le ih

theorem le_skipEscape (bytes : List Nat) (index : Nat) : index ≤ skipEscape bytes index := by
  rw [skipEscape]
  split
  · exact Nat.le_refl index
  · exact Nat.le_of_succ_le (le_skipCsi bytes (index + 1))
  · exact Nat.le_of_succ_le (le_skipOsc bytes (index + 1))
  · exact Nat.le_succ index

/-- The scan advances in every round: by a character outside of escapes, by at least the
ESC inside. -/
def scan (value : List Char) (index : Nat) (output : List Char) : AppResult (List Char) :=
  match within : (bytes value)[index]? with
  | none => .ok output
  | some byte =>
      if byte ≠ 0x1b then
        match charAt value index with
        | some character => scan value (index + character.utf8Size) (output ++ [character])
        | none => .error (.panic "byte index is not a char boundary")
      else scan value (skipEscape (bytes value) (index + 1)) output
termination_by (bytes value).length - index
decreasing_by
  · have := (List.getElem?_eq_some_iff.mp within).1
    have := character.utf8Size_pos
    omega
  · have := (List.getElem?_eq_some_iff.mp within).1
    have := le_skipEscape (bytes value) (index + 1)
    omega

end AnsiEscapes

def stripAnsiEscapeCodes (value : String) : AppResult String := do
  return String.ofList (← AnsiEscapes.scan value.toList 0 [])

example : stripAnsiEscapeCodes "\x1b[32mINFO\x1b[0m ready" = .ok "INFO ready" := by decide +kernel

end Vpsiner.Logs
