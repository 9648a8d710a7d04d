import Vpsiner.Lib.Text
import Vpsiner.Lib.Utf8

/-! Percent encoding, and names with values in the form of a query string, as browsers write them
and as servers read them. -/

set_option autoImplicit false

namespace Vpsiner.Lib.FormUrl

open Text Utf8

/-! ## Percent encoding -/

def hexDigit (value : Nat) : Char :=
  Char.ofNat (if value < 10 then 48 + value else 65 + (value - 10))

/-- Digits are read in either case. -/
def hexValue (char : Char) : Option Nat :=
  if char.isDigit then some (char.toNat - 48)
  else if 'A' ≤ char ∧ char ≤ 'F' then some (char.toNat - 65 + 10)
  else if 'a' ≤ char ∧ char ≤ 'f' then some (char.toNat - 97 + 10)
  else none

def escape (byte : Nat) : List Char := ['%', hexDigit (byte / 16), hexDigit (byte % 16)]

def percentEncode (safe : Char → Bool) (text : List Char) : List Char :=
  text.flatMap fun char => if safe char then [char] else (bytes [char]).flatMap escape

/-- A percent sign without two digits stands for itself. -/
def percentDecode : List Char → List Nat
  | [] => []
  | '%' :: high :: low :: rest =>
      match hexValue high, hexValue low with
      | some first, some second => (first * 16 + second) :: percentDecode rest
      | _, _ => bytes ['%'] ++ percentDecode (high :: low :: rest)
  | char :: rest => bytes [char] ++ percentDecode rest

/-- The text of bytes that are valid UTF-8. -/
def fromUtf8 (values : List Nat) : Option (List Char) :=
  ((values.map UInt8.ofNat).toByteArray.utf8Decode?).map Array.toList

theorem hexValue_hexDigit {value : Nat} (small : value < 16) :
    hexValue (hexDigit value) = some value := by
  rcases value with _ | _ | _ | _ | _ | _ | _ | _ | _ | _ | _ | _ | _ | _ | _ | _ | value
  all_goals first | rfl | omega

theorem lt_of_mem_bytes {text : List Char} {byte : Nat} (member : byte ∈ bytes text) :
    byte < 256 := by
  obtain ⟨char, -, encoded⟩ := List.mem_flatMap.mp member
  obtain ⟨value, -, rfl⟩ := List.mem_map.mp encoded
  exact value.toNat_lt

theorem fromUtf8_bytes (text : List Char) : fromUtf8 (bytes text) = some text := by
  have encoded : ((bytes text).map UInt8.ofNat).toByteArray = text.utf8Encode := by
    simp [bytes, List.utf8Encode, List.map_flatMap, Function.comp_def]
  rw [fromUtf8, encoded, List.utf8Decode?_utf8Encode]
  rfl

theorem percentDecode_escape {byte : Nat} (small : byte < 256) (rest : List Char) :
    percentDecode (escape byte ++ rest) = byte :: percentDecode rest := by
  have high := hexValue_hexDigit (show byte / 16 < 16 by omega)
  have low := hexValue_hexDigit (show byte % 16 < 16 by omega)
  have whole : byte / 16 * 16 + byte % 16 = byte := by omega
  simp [escape, percentDecode, high, low, whole]

theorem percentDecode_escapes {values : List Nat} (small : ∀ byte ∈ values, byte < 256)
    (rest : List Char) :
    percentDecode (values.flatMap escape ++ rest) = values ++ percentDecode rest := by
  induction values with
  | nil => rfl
  | cons byte later ih =>
      obtain ⟨here, others⟩ := List.forall_mem_cons.mp small
      rw [List.flatMap_cons, List.append_assoc, percentDecode_escape here, ih others,
        List.cons_append]

theorem percentDecode_cons {char : Char} (plain : char ≠ '%') (rest : List Char) :
    percentDecode (char :: rest) = bytes [char] ++ percentDecode rest :=
  percentDecode.eq_3 char rest fun _ _ _ same => absurd same plain

/-- What is encoded reads back as its bytes, as long as the percent sign is not safe. -/
theorem percentDecode_percentEncode {safe : Char → Bool} (escaped : safe '%' = false)
    (text rest : List Char) :
    percentDecode (percentEncode safe text ++ rest) = bytes text ++ percentDecode rest := by
  induction text with
  | nil => rfl
  | cons char later ih =>
      have cons : percentEncode safe (char :: later) =
          (if safe char then [char] else (bytes [char]).flatMap escape) ++
            percentEncode safe later := rfl
      rw [cons, List.append_assoc, bytes_cons char later, List.append_assoc, ← ih]
      split
      · next isSafe =>
          apply percentDecode_cons
          rintro rfl
          cases isSafe.symm.trans escaped
      · exact percentDecode_escapes (fun _ member => lt_of_mem_bytes member) _

theorem hexDigit_alphanum {value : Nat} (small : value < 16) :
    (hexDigit value).isAlphanum = true := by
  rcases value with _ | _ | _ | _ | _ | _ | _ | _ | _ | _ | _ | _ | _ | _ | _ | _ | value
  all_goals first | rfl | omega

/-- Encoding writes safe characters, percent signs and digits. -/
theorem mem_percentEncode {safe : Char → Bool} {text : List Char} {char : Char}
    (member : char ∈ percentEncode safe text) :
    safe char = true ∨ char = '%' ∨ char.isAlphanum = true := by
  obtain ⟨original, -, written⟩ := List.mem_flatMap.mp member
  split at written
  · next isSafe =>
      cases List.mem_singleton.mp written
      exact .inl isSafe
  · obtain ⟨byte, encoded, digit⟩ := List.mem_flatMap.mp written
    have small := lt_of_mem_bytes encoded
    simp only [escape, List.mem_cons, List.not_mem_nil, or_false] at digit
    rcases digit with rfl | rfl | rfl
    · exact .inr (.inl rfl)
    · exact .inr (.inr (hexDigit_alphanum (by omega)))
    · exact .inr (.inr (hexDigit_alphanum (by omega)))

/-! ## Path segments -/

/-- The characters `encodeURIComponent` leaves alone. -/
def componentSafe (char : Char) : Bool :=
  char.isAlphanum || char ∈ ['-', '_', '.', '!', '~', '*', Char.ofNat 39, '(', ')']

def encodeURIComponent (text : List Char) : List Char := percentEncode componentSafe text

def decodeSegment (segment : List Char) : Option (List Char) := fromUtf8 (percentDecode segment)

theorem decodeSegment_encodeURIComponent (text : List Char) :
    decodeSegment (encodeURIComponent text) = some text := by
  have decoded := percentDecode_percentEncode (show componentSafe '%' = false by decide) text []
  rw [List.append_nil, show percentDecode [] = [] from rfl, List.append_nil] at decoded
  rw [decodeSegment, encodeURIComponent, decoded, fromUtf8_bytes]

/-- A component stays within its segment of the path. -/
theorem not_mem_encodeURIComponent (text : List Char) {char : Char}
    (separates : char ∈ ['/', '?', '#']) : char ∉ encodeURIComponent text := by
  intro member
  simp only [List.mem_cons, List.not_mem_nil, or_false] at separates
  have reserved : componentSafe char = false ∧ char ≠ '%' ∧ char.isAlphanum = false := by
    rcases separates with rfl | rfl | rfl <;> decide
  rcases mem_percentEncode member with safe | percent | digit
  · cases safe.symm.trans reserved.1
  · exact reserved.2.1 percent
  · cases digit.symm.trans reserved.2.2

/-- Segments that are dots name the segment before them, or nothing. -/
def resolveDots (kept : List (List Char)) : List (List Char) → List (List Char)
  | [] => kept
  | segment :: rest =>
      if segment = ['.', '.'] then
        resolveDots (kept.dropLast ++ if rest = [] then [[]] else []) rest
      else if segment = ['.'] then resolveDots (kept ++ if rest = [] then [[]] else []) rest
      else resolveDots (kept ++ [segment]) rest

def dots : List (List Char) := [['.'], ['.', '.']]

theorem resolveDots_plain (kept : List (List Char)) {segments : List (List Char)}
    (plain : ∀ segment ∈ segments, segment ∉ dots) :
    resolveDots kept segments = kept ++ segments := by
  induction segments generalizing kept with
  | nil => simp [resolveDots]
  | cons segment rest ih =>
      obtain ⟨here, later⟩ := List.forall_mem_cons.mp plain
      simp only [dots, List.mem_cons, List.not_mem_nil, or_false, not_or] at here
      simp [resolveDots, here.1, here.2, ih _ later]

theorem encodeURIComponent_not_mem_dots {text : List Char} (plain : text ∉ dots) :
    encodeURIComponent text ∉ dots := by
  intro member
  apply plain
  have decoded := decodeSegment_encodeURIComponent text
  rcases List.mem_cons.mp member with single | double
  · have same : decodeSegment ['.'] = some ['.'] := decodeSegment_encodeURIComponent ['.']
    rw [single, same] at decoded
    simp [dots, Option.some.inj decoded.symm]
  · have same : decodeSegment ['.', '.'] = some ['.', '.'] :=
      decodeSegment_encodeURIComponent ['.', '.']
    rw [List.mem_singleton.mp double, same] at decoded
    simp [dots, Option.some.inj decoded.symm]

/-! ## Query strings -/

def formSafe (char : Char) : Bool := char.isAlphanum || char ∈ ['*', '-', '.', '_']

/-- A space is written as a plus sign. -/
def formEncode (text : List Char) : List Char :=
  (percentEncode (fun char => formSafe char || char = ' ') text).map fun char =>
    if char = ' ' then '+' else char

def formDecode (text : List Char) : Option (List Char) :=
  fromUtf8 (percentDecode (text.map fun char => if char = '+' then ' ' else char))

def writePair (pair : List Char × List Char) : List Char :=
  formEncode pair.1 ++ ['='] ++ formEncode pair.2

/-- A part without a value is a name. -/
def readPair (part : List Char) : Option (List Char × List Char) := do
  let (name, value) := (splitOnce ['='] part).getD (part, [])
  return (← formDecode name, ← formDecode value)

def serialize (pairs : List (List Char × List Char)) : List Char :=
  ['&'].intercalate (pairs.map writePair)

def parse (text : List Char) : Option (List (List Char × List Char)) :=
  ((text.splitOnP (· == '&')).filter (· ≠ [])).mapM readPair

theorem formDecode_formEncode (text : List Char) : formDecode (formEncode text) = some text := by
  have plain : ∀ char ∈ percentEncode (fun char => formSafe char || char = ' ') text,
      char ≠ '+' := by
    rintro char member rfl
    rcases mem_percentEncode member with safe | percent | digit
    · revert safe
      decide
    · cases percent
    · revert digit
      decide
  have undone : (formEncode text).map (fun char => if char = '+' then ' ' else char) =
      percentEncode (fun char => formSafe char || char = ' ') text := by
    rw [formEncode, List.map_map]
    refine (List.map_congr_left fun char member => ?_).trans (List.map_id _)
    by_cases space : char = ' '
    · simp [space]
    · simp [space, plain char member]
  have decoded := @percentDecode_percentEncode (fun char => formSafe char || char = ' ') (by decide)
    text []
  rw [List.append_nil, show percentDecode [] = [] from rfl, List.append_nil] at decoded
  rw [formDecode, undone, decoded, fromUtf8_bytes]

/-- The separators of a query string occur in no name and in no value. -/
theorem not_mem_formEncode (text : List Char) {char : Char} (separates : char ∈ ['&', '=']) :
    char ∉ formEncode text := by
  simp only [List.mem_cons, List.not_mem_nil, or_false] at separates
  have reserved : formSafe char = false ∧ char ≠ ' ' ∧ char ≠ '+' ∧ char ≠ '%' ∧
      char.isAlphanum = false := by
    rcases separates with rfl | rfl <;> decide
  obtain ⟨notSafe, notSpace, notPlus, notPercent, notDigit⟩ := reserved
  intro member
  obtain ⟨original, written, same⟩ := List.mem_map.mp member
  split at same
  · exact notPlus same.symm
  · subst same
    rcases mem_percentEncode written with safe | percent | digit
    · simp [notSafe, notSpace] at safe
    · exact notPercent percent
    · cases digit.symm.trans notDigit

theorem readPair_writePair (pair : List Char × List Char) :
    readPair (writePair pair) = some pair := by
  have cut : splitOnce ['='] (writePair pair) = some (formEncode pair.1, formEncode pair.2) :=
    splitOnce_append _ (not_mem_formEncode pair.1 (by simp))
  simp [readPair, cut, formDecode_formEncode]

/-- What the browser writes, the server reads. -/
theorem parse_serialize (pairs : List (List Char × List Char)) :
    parse (serialize pairs) = some pairs := by
  have read : (pairs.map writePair).mapM readPair = some pairs := by
    rw [List.mapM_map]
    have same : readPair ∘ writePair = fun pair => pure pair := funext readPair_writePair
    rw [same, List.mapM_pure, List.map_id']
    rfl
  have whole : ∀ part ∈ pairs.map writePair, part.splitOnP (· == '&') = [part] := by
    intro part member
    obtain ⟨pair, -, rfl⟩ := List.mem_map.mp member
    apply List.splitOnP_eq_singleton
    intro char inside
    rcases List.mem_append.mp inside with front | value
    · rcases List.mem_append.mp front with name | equals
      · exact beq_eq_false_iff_ne.mpr fun same =>
          not_mem_formEncode pair.1 (by simp) (same ▸ name)
      · rw [List.mem_singleton.mp equals]
        rfl
    · exact beq_eq_false_iff_ne.mpr fun same =>
        not_mem_formEncode pair.2 (by simp) (same ▸ value)
  have cut : ((serialize pairs).splitOnP (· == '&')).filter (· ≠ []) = pairs.map writePair := by
    cases pairs with
    | nil => rfl
    | cons pair rest =>
        rw [serialize, splitOnP_intercalate _ (by simp), List.flatMap_congr whole,
          List.flatMap_singleton']
        refine List.filter_eq_self.mpr fun part member => ?_
        obtain ⟨pair, -, rfl⟩ := List.mem_map.mp member
        simp [writePair]
  rw [parse, cut, read]

end Vpsiner.Lib.FormUrl
