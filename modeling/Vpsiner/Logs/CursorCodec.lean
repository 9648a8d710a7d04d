import Vpsiner.Lib.Base64
import Vpsiner.Logs.Store

/-! Cursors as URL-safe base64 of their JSON object, for the cursors of week files. -/

set_option autoImplicit false

namespace Vpsiner.Logs

open Vpsiner.Lib

def cursorJson (cursor : LogCursor) : List Char :=
  ['\x7b', '"', 't', 's', '"', ':'] ++ (Text.decimal cursor.ts ++
    [',', '"', 'w', 'e', 'e', 'k', '"', ':', '"'] ++ (cursor.week.toList ++
      ['"', ',', '"', 'i', 'd', '"', ':'] ++ (Text.decimal cursor.id ++ ['\x7d'])))

/-- Reads back an object with the fields in the order they are written. -/
def parseCursorJson (json : List Char) : Option LogCursor := do
  let fields ← Text.stripPrefix ['\x7b', '"', 't', 's', '"', ':'] json
  let (ts, fields) ← Text.splitOnce [',', '"', 'w', 'e', 'e', 'k', '"', ':', '"'] fields
  let (week, fields) ← Text.splitOnce ['"', ',', '"', 'i', 'd', '"', ':'] fields
  let id ← Text.stripSuffix ['\x7d'] fields
  return ⟨← Text.parseInteger ts, String.ofList week, ← Text.parseInteger id⟩

theorem parseCursorJson_cursorJson {cursor : LogCursor} (plain : '"' ∉ cursor.week.toList) :
    parseCursorJson (cursorJson cursor) = some cursor := by
  have comma : ',' ∉ Text.decimal cursor.ts := Text.not_mem_decimal _ (by decide) (by decide)
  simp only [parseCursorJson, cursorJson, Text.stripPrefix_append, Text.splitOnce_append _ comma, Text.splitOnce_append _ plain,
    Text.stripSuffix_append, Text.parseInteger_decimal, String.ofList_toList, Option.bind_eq_bind,
    Option.bind_some, Option.pure_def]

def encodeJsonCursor (cursor : LogCursor) : Except String String :=
  .ok (String.ofList (Base64.encode ((cursorJson cursor).map Char.toNat)))

def decodeJsonCursor (text : String) : Except String LogCursor :=
  match (Base64.decode text.toList).bind fun bytes => parseCursorJson (bytes.map Char.ofNat) with
  | some cursor => .ok cursor
  | none => .error "invalid cursor"

private theorem ascii_of_isDigit {char : Char} (digit : char.isDigit = true) :
    char.toNat < 128 := by
  simp only [Char.isDigit, Bool.and_eq_true, decide_eq_true_eq] at digit
  exact Nat.lt_of_le_of_lt (UInt32.le_iff_toNat_le.mp digit.2) (by decide)

private theorem ascii_of_mem_decimal {value : Int} {char : Char}
    (member : char ∈ Text.decimal value) : char.toNat < 128 := by
  cases Text.mem_decimal member with
  | inl sign =>
      rw [sign]
      decide
  | inr digit => exact ascii_of_isDigit digit

/-- The characters of a week file name need no escape in JSON. -/
private theorem plain_of_mem_weekFileName {year : Int} {week : Nat} {char : Char}
    (member : char ∈ (weekFileName year week).toList) : char.toNat < 128 ∧ char ≠ '"' := by
  have digits : ∀ {char : Char}, char.isDigit = true → char.toNat < 128 ∧ char ≠ '"' := by
    intro char digit
    refine ⟨ascii_of_isDigit digit, fun quote => ?_⟩
    rw [quote] at digit
    cases digit
  have separator : ∀ char ∈ ['_', 'w'], char.toNat < 128 ∧ char ≠ '"' := by simp
  have suffix : ∀ char ∈ ['.', 'd', 'b'], char.toNat < 128 ∧ char ≠ '"' := by simp
  rw [weekFileName, String.toList_ofList, List.mem_append, List.mem_append, List.mem_append] at member
  obtain ((inYear | inSeparator) | inWeek) | inSuffix := member
  · cases Text.mem_decimal inYear with
    | inl sign =>
        rw [sign]
        decide
    | inr digit => exact digits digit
  · exact separator char inSeparator
  · exact digits (Text.isDigit_of_mem_zeroPadded inWeek)
  · exact suffix char inSuffix

theorem decodeJsonCursor_encode {cursor : LogCursor}
    (named : ∃ tsMs, weekDatabaseName tsMs = some cursor.week) :
    ∃ text, encodeJsonCursor cursor = .ok text ∧ decodeJsonCursor text = .ok cursor := by
  obtain ⟨tsMs, name⟩ := named
  have week : ∀ char ∈ cursor.week.toList, char.toNat < 128 ∧ char ≠ '"' := by
    cases valid : dateFromUnixTimestamp (tsMs / 1000) with
    | none =>
        simp only [weekDatabaseName, valid] at name
        cases name
    | some date =>
        rw [weekDatabaseName_eq valid, Option.some.injEq] at name
        rw [← name]
        exact fun char => plain_of_mem_weekFileName
  have ascii : ∀ char ∈ cursorJson cursor, char.toNat < 128 := by
    have first : ∀ char ∈ ['\x7b', '"', 't', 's', '"', ':'], char.toNat < 128 := by simp
    have second : ∀ char ∈ [',', '"', 'w', 'e', 'e', 'k', '"', ':', '"'], char.toNat < 128 := by
      simp
    have third : ∀ char ∈ ['"', ',', '"', 'i', 'd', '"', ':'], char.toNat < 128 := by simp
    have last : ∀ char ∈ ['\x7d'], char.toNat < 128 := by simp
    intro char member
    simp only [cursorJson, List.mem_append] at member
    obtain inFirst | ((inTs | inSecond) | ((inWeek | inThird) | (inId | inLast))) := member
    · exact first char inFirst
    · exact ascii_of_mem_decimal inTs
    · exact second char inSecond
    · exact (week char inWeek).1
    · exact third char inThird
    · exact ascii_of_mem_decimal inId
    · exact last char inLast
  have bytes : ∀ byte ∈ (cursorJson cursor).map Char.toNat, byte < 256 := by
    intro byte member
    obtain ⟨char, present, rfl⟩ := List.mem_map.mp member
    exact Nat.lt_trans (ascii char present) (by decide)
  refine ⟨_, rfl, ?_⟩
  have plain : '"' ∉ cursor.week.toList := fun quote => (week _ quote).2 rfl
  have restored : ((cursorJson cursor).map Char.toNat).map Char.ofNat = cursorJson cursor := by
    rw [List.map_map]
    exact (List.map_congr_left fun char _ => Char.ofNat_toNat char).trans (List.map_id _)
  simp only [decodeJsonCursor, String.toList_ofList, Base64.decode_encode bytes, Option.bind_some,
    restored, parseCursorJson_cursorJson plain]

/-- The encoding of the source, without a text index. -/
def jsonBackend : LogBackend where
  encodeCursor := encodeJsonCursor
  decodeCursor := decodeJsonCursor
  ftsMatches := fun _ _ => false
  cursor_roundTrip := fun _ => decodeJsonCursor_encode

end Vpsiner.Logs
