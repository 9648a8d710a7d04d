import Mathlib.Data.List.Basic

/-! The UTF-8 bytes of a text and the characters that start at a byte index. -/

set_option autoImplicit false

namespace Vpsiner.Lib.Utf8

/-- The bytes of a text as numbers below 256. -/
def bytes (text : List Char) : List Nat :=
  text.flatMap fun char => (String.utf8EncodeChar char).map UInt8.toNat

/-- The character that starts at a byte index; none inside a character or at the end. -/
def charAt : List Char → Nat → Option Char
  | [], _ => none
  | char :: _, 0 => some char
  | char :: rest, index + 1 =>
      if char.utf8Size ≤ index + 1 then charAt rest (index + 1 - char.utf8Size) else none

theorem bytes_toList (value : String) :
    bytes value.toList = value.toByteArray.data.toList.map UInt8.toNat := by
  rw [← String.utf8Encode_toList, List.utf8Encode, bytes, ← List.map_flatMap,
    List.data_toByteArray]

@[simp] theorem bytes_nil : bytes [] = [] := rfl

@[simp] theorem bytes_append (before rest : List Char) :
    bytes (before ++ rest) = bytes before ++ bytes rest := List.flatMap_append

theorem bytes_cons (char : Char) (rest : List Char) :
    bytes (char :: rest) = bytes [char] ++ bytes rest := bytes_append [char] rest

theorem length_bytes_singleton (char : Char) : (bytes [char]).length = char.utf8Size := by
  simp [bytes]

theorem getElem?_bytes (before rest : List Char) (offset : Nat) :
    (bytes (before ++ rest))[(bytes before).length + offset]? = (bytes rest)[offset]? := by
  rw [bytes_append, List.getElem?_append_right (Nat.le_add_right _ _), Nat.add_sub_cancel_left]

theorem bytes_ascii {char : Char} (ascii : char.toNat < 128) : bytes [char] = [char.toNat] := by
  have small : char.val.toNat ≤ 127 := Nat.le_of_lt_succ ascii
  rw [bytes, List.flatMap_singleton, String.utf8EncodeChar, if_pos small, List.map_singleton,
    UInt8.toNat_ofNat', Nat.mod_eq_of_lt (by omega)]
  rfl

theorem le_of_mem_bytes {char : Char} (wide : 128 ≤ char.toNat) {byte : Nat}
    (member : byte ∈ bytes [char]) : 128 ≤ byte := by
  have large : ¬char.val.toNat ≤ 127 := Nat.not_le_of_lt wide
  rw [bytes, List.flatMap_singleton, String.utf8EncodeChar, if_neg large] at member
  split at member
  · simp only [List.map_cons, List.map_nil, List.mem_cons, List.not_mem_nil, or_false,
      UInt8.toNat_ofNat'] at member
    omega
  · split at member
    · simp only [List.map_cons, List.map_nil, List.mem_cons, List.not_mem_nil, or_false,
        UInt8.toNat_ofNat'] at member
      omega
    · simp only [List.map_cons, List.map_nil, List.mem_cons, List.not_mem_nil, or_false,
        UInt8.toNat_ofNat'] at member
      omega

theorem utf8Size_of_wide {char : Char} (wide : 128 ≤ char.toNat) : 2 ≤ char.utf8Size := by
  have large : ¬char.val.toNat ≤ 127 := Nat.not_le_of_lt wide
  rw [← length_bytes_singleton, bytes, List.flatMap_singleton, String.utf8EncodeChar, if_neg large]
  split
  · simp
  · split
    · simp
    · simp

theorem charAt_append (before rest : List Char) :
    charAt (before ++ rest) (bytes before).length = rest.head? := by
  induction before with
  | nil =>
      cases rest with
      | nil => rfl
      | cons char rest => rfl
  | cons first before ih =>
      rw [List.cons_append, bytes_cons, List.length_append, length_bytes_singleton]
      have positive := first.utf8Size_pos
      obtain ⟨size, same⟩ : ∃ size, first.utf8Size + (bytes before).length = size + 1 :=
        ⟨_, (Nat.succ_pred (by omega)).symm⟩
      rw [same, charAt, if_pos (by omega), ← same, Nat.add_sub_cancel_left]
      exact ih

/-- No character starts at the second byte of a wide one. -/
theorem charAt_inside {char : Char} (wide : 128 ≤ char.toNat) (before rest : List Char) :
    charAt (before ++ char :: rest) ((bytes before).length + 1) = none := by
  have size := utf8Size_of_wide wide
  induction before with
  | nil => exact if_neg (Nat.not_le_of_lt size)
  | cons first before ih =>
      rw [List.cons_append, bytes_cons, List.length_append, length_bytes_singleton, charAt,
        if_pos (by omega), Nat.add_assoc, Nat.add_sub_cancel_left]
      exact ih

/-- What is passed byte by byte over a character is passed as a whole. -/
theorem advance {α : Type} (skip : Nat → α) (before rest : List Char) (char : Char)
    (steps : ∀ index byte, (bytes (before ++ char :: rest))[index]? = some byte →
      byte ∈ bytes [char] → skip index = skip (index + 1)) :
    skip (bytes before).length = skip (bytes (before ++ [char])).length := by
  have passed : ∀ count, count ≤ (bytes [char]).length →
      skip (bytes before).length = skip ((bytes before).length + count) := by
    intro count
    induction count with
    | zero => exact fun _ => rfl
    | succ count ih =>
        intro within
        rw [ih (Nat.le_of_succ_le within)]
        refine steps _ (bytes [char])[count] ?_ (List.getElem_mem within)
        rw [getElem?_bytes, bytes_cons, List.getElem?_append_left within]
        exact List.getElem?_eq_getElem within
  rw [bytes_append, List.length_append]
  exact passed _ (Nat.le_refl _)

theorem bytes_injective : Function.Injective bytes := by
  intro left right same
  have values : (String.ofList left).toByteArray.data.toList.map UInt8.toNat =
      (String.ofList right).toByteArray.data.toList.map UInt8.toNat := by
    rw [← bytes_toList, ← bytes_toList, String.toList_ofList, String.toList_ofList, same]
  have equal : (String.ofList left).toByteArray = (String.ofList right).toByteArray := by
    apply ByteArray.ext
    apply Array.toList_inj.mp
    exact List.map_injective_iff.mpr (fun _ _ bytes => UInt8.toNat_inj.mp bytes) values
  simpa using congrArg String.toList (String.toByteArray_inj.mp equal)

/-- `str::get(..count)`: none past the end or inside a character. -/
def getPrefix : List Char → Nat → Option (List Char)
  | _, 0 => some []
  | [], _ + 1 => none
  | char :: rest, count + 1 =>
      if char.utf8Size ≤ count + 1 then
        (getPrefix rest (count + 1 - char.utf8Size)).map (char :: ·)
      else none

theorem getPrefix_eq_some_iff {text front : List Char} {count : Nat} :
    getPrefix text count = some front ↔ front <+: text ∧ (bytes front).length = count := by
  induction text, count using getPrefix.induct generalizing front with
  | case1 text =>
      rw [getPrefix, Option.some.injEq]
      constructor
      · rintro rfl
        exact ⟨List.nil_prefix, rfl⟩
      · rintro ⟨_, empty⟩
        cases front with
        | nil => rfl
        | cons char rest =>
            rw [bytes_cons, List.length_append, length_bytes_singleton] at empty
            have positive := char.utf8Size_pos
            omega
  | case2 count => simp +contextual [getPrefix]
  | case3 char rest count fits ih =>
      rw [getPrefix, if_pos fits, Option.map_eq_some_iff]
      have positive := char.utf8Size_pos
      constructor
      · rintro ⟨later, found, rfl⟩
        obtain ⟨within, size⟩ := ih.mp found
        rw [bytes_cons, List.length_append, length_bytes_singleton, size]
        exact ⟨(List.prefix_cons_inj char).mpr within, by omega⟩
      · rintro ⟨within, size⟩
        cases front with
        | nil => cases size
        | cons first later =>
            obtain ⟨rfl, inside⟩ := List.cons_prefix_cons.mp within
            rw [bytes_cons, List.length_append, length_bytes_singleton] at size
            exact ⟨later, ih.mpr ⟨inside, by omega⟩, rfl⟩
  | case4 char rest count wide =>
      rw [getPrefix, if_neg wide]
      constructor
      · exact fun found => by cases found
      · rintro ⟨within, size⟩
        cases front with
        | nil => cases size
        | cons first later =>
            obtain ⟨rfl, _⟩ := List.cons_prefix_cons.mp within
            rw [bytes_cons, List.length_append, length_bytes_singleton] at size
            omega

end Vpsiner.Lib.Utf8
