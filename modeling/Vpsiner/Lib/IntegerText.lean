import Vpsiner.Lib.Text

/-! Unsigned numbers of a bounded type, read digit by digit, with the reason why a text is none. -/

set_option autoImplicit false

namespace Vpsiner.Lib.IntegerText

open Text

inductive IntErrorKind where
  | empty
  | invalidDigit
  | posOverflow
deriving DecidableEq, Repr

def readDigits (most value : Nat) : List Char → Except IntErrorKind Nat
  | [] => .ok value
  | char :: rest =>
      if char.isDigit then
        if most < 10 * value + (char.toNat - '0'.toNat) then .error .posOverflow
        else readDigits most (10 * value + (char.toNat - '0'.toNat)) rest
      else .error .invalidDigit

/-- A sign alone is no number. -/
def readUnsigned (most : Nat) : List Char → Except IntErrorKind Nat
  | [] => .error .empty
  | ['+'] => .error .invalidDigit
  | '+' :: rest => readDigits most 0 rest
  | text => readDigits most 0 text

theorem le_ofDigitChars (text : List Char) (value : Nat) :
    value ≤ Nat.ofDigitChars 10 text value := by
  induction text generalizing value with
  | nil => simp
  | cons char rest ih =>
      rw [Nat.ofDigitChars_cons]
      exact Nat.le_trans (by omega) (ih _)

theorem readDigits_eq_ok_iff {most value result : Nat} (small : value ≤ most) (text : List Char) :
    readDigits most value text = .ok result ↔
      text.all Char.isDigit = true ∧ Nat.ofDigitChars 10 text value = result ∧ result ≤ most := by
  induction text generalizing value with
  | nil =>
      simp only [readDigits, Except.ok.injEq, List.all_nil, Nat.ofDigitChars_nil, true_and]
      constructor
      · rintro rfl
        exact ⟨rfl, small⟩
      · exact And.left
  | cons char rest ih =>
      rw [readDigits, List.all_cons, Nat.ofDigitChars_cons]
      by_cases digit : char.isDigit
      · rw [if_pos digit]
        by_cases large : most < 10 * value + (char.toNat - '0'.toNat)
        · rw [if_pos large]
          constructor
          · intro impossible
            cases impossible
          · rintro ⟨-, same, bounded⟩
            have grows := le_ofDigitChars rest (10 * value + (char.toNat - '0'.toNat))
            omega
        · rw [if_neg large, ih (Nat.not_lt.mp large)]
          simp [digit]
      · simp [digit]

/-- The digits one by one say what the text as a whole says. -/
theorem readUnsigned_eq_ok_iff {most result : Nat} (text : List Char) :
    readUnsigned most text = .ok result ↔ parseUnsigned most text = some result := by
  have whole : ∀ digits : List Char, digits ≠ [] →
      (readDigits most 0 digits = .ok result ↔
        (parseDigits digits).filter (· ≤ most) = some result) := by
    intro digits nonempty
    rw [readDigits_eq_ok_iff (Nat.zero_le most)]
    by_cases all : digits.all Char.isDigit = true
    · simp [parseDigits, nonempty, all, Option.filter_eq_some_iff]
    · simp [parseDigits, all]
  rcases text with _ | ⟨char, rest⟩
  · simp [readUnsigned, parseUnsigned, parseDigits]
  by_cases plus : char = '+'
  · subst plus
    rcases rest with _ | ⟨next, rest⟩
    · simp [readUnsigned, parseUnsigned, parseDigits]
    · simpa [readUnsigned, parseUnsigned] using whole (next :: rest) (by simp)
  · simpa [readUnsigned, parseUnsigned, plus] using whole (char :: rest) (by simp)

end Vpsiner.Lib.IntegerText
