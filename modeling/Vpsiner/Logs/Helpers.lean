import Vpsiner.Model.Logs
import Vpsiner.Lib.Calendar
import Vpsiner.Lib.Text
import Mathlib.Data.List.Infix

/-! Week file names, log level detection, search text and service paths. -/

set_option autoImplicit false

namespace Vpsiner.Logs

open Vpsiner.Lib

def dayMs : Int := 24 * 60 * 60 * 1000
def weekMs : Int := 7 * 24 * 60 * 60 * 1000

/-- The UTC day of a Unix timestamp; dates outside the years -9999 to 9999 are rejected. -/
def dateFromUnixTimestamp (seconds : Int) : Option Int :=
  let day := seconds / 86400
  if Calendar.yearStart (-9999) ≤ day ∧ day < Calendar.yearStart 10000 then some day else none

def dateFromIsoWeek (year : Int) (week : Nat) : Option Int :=
  if -9999 ≤ year ∧ year ≤ 9999 ∧ 1 ≤ week ∧ (week : Int) ≤ Calendar.weeksIn year then
    some (Calendar.isoWeekStart year week)
  else none

/-- `2025_w05.db` for week 5 of 2025. -/
def weekFileName (year : Int) (week : Nat) : String :=
  String.ofList (Text.decimal year ++ ['_', 'w'] ++ Text.zeroPadded 2 week ++ ['.', 'd', 'b'])

def weekDatabaseName (tsMs : Int) : Option String := do
  let date ← dateFromUnixTimestamp (tsMs / 1000)
  let week := Calendar.isoWeek date
  let year :=
    if Calendar.month date = .december ∧ week = 1 then Calendar.yearOf date + 1
    else if Calendar.month date = .january ∧ (week = 52 ∨ week = 53) then Calendar.yearOf date - 1
    else Calendar.yearOf date
  return weekFileName year week.toNat

def databaseWeekStartMs (name : String) : Option Int := do
  let stem ← Text.stripSuffix ['.', 'd', 'b'] name.toList
  let (year, week) ← Text.splitOnce ['_', 'w'] stem
  let year ← Text.parseSigned (-2 ^ 31) (2 ^ 31 - 1) year
  let week ← Text.parseUnsigned 255 week
  let date ← dateFromIsoWeek year week
  return date * 86400 * 1000

/-- Unicode `White_Space`. -/
def isWhitespace (char : Char) : Bool :=
  let code := char.toNat
  (9 ≤ code && code ≤ 13) || (0x2000 ≤ code && code ≤ 0x200A) ||
    [0x20, 0x85, 0xA0, 0x1680, 0x2028, 0x2029, 0x202F, 0x205F, 0x3000].contains code

def containsText (value : List Char) (needle : String) : Bool :=
  value.tails.any fun rest => needle.toList.isPrefixOf rest

def pinoLevelFromNumber (number : Nat) : Option LogLevel :=
  if 10 ≤ number ∧ number ≤ 29 then some .debug
  else if 30 ≤ number ∧ number ≤ 39 then some .info
  else if 40 ≤ number ∧ number ≤ 49 then some .warn
  else if 50 ≤ number then some .error
  else none

/-- The number that follows a needle, with or without an opening quote. -/
def pinoNumber (afterNeedle : List Char) : Option Nat :=
  let digits := (if afterNeedle.head? = some '"' then afterNeedle.tail else afterNeedle).takeWhile
    Char.isDigit
  Text.parseUnsigned 4294967295 digits

/-- A needle cannot overlap itself, so every position is tried. -/
def detectPinoNumericLevel (value : List Char) : Option LogLevel :=
  ["\"level\":", "level="].findSome? fun needle =>
    value.tails.findSome? fun rest =>
      if needle.toList.isPrefixOf rest then
        (pinoNumber (rest.drop needle.toList.length)).bind pinoLevelFromNumber
      else none

def splitWhitespace (value : List Char) : List (List Char) :=
  (value.splitOnP isWhitespace).filter (!·.isEmpty)

/-- Texts that name a level, and words that do when they are the first or the second. -/
def levelTexts : List (LogLevel × List String × List String) := [
  (.error,
    ["\"level\":\"error\"", "level=error", "[error]", "error:",
      "\"level\":\"fatal\"", "level=fatal", "[fatal]", "fatal:"],
    ["error", "fatal"]),
  (.warn,
    ["\"level\":\"warn\"", "level=warn", "[warn]", "warn:",
      "\"level\":\"warning\"", "level=warning", "[warning]", "warning:"],
    ["warn", "warning"]),
  (.info, ["\"level\":\"info\"", "level=info", "[info]", "info:"], ["info"]),
  (.debug,
    ["\"level\":\"debug\"", "level=debug", "[debug]", "debug:",
      "\"level\":\"verbose\"", "level=verbose", "[verbose]", "verbose:",
      "\"level\":\"trace\"", "level=trace", "[trace]"],
    ["debug", "verbose"])]

def detectLevel (raw : String) : Option LogLevel :=
  let value := raw.toList.map Char.toLower
  (detectPinoNumericLevel value).or <|
    levelTexts.findSome? fun (level, texts, words) =>
      if texts.any (containsText value) ||
          words.any fun word => ((splitWhitespace value).take 2).contains word.toList then
        some level
      else none

structure FtsScan where
  tokens : List (List Char) := []
  current : List Char := []
  inQuotes : Bool := false

namespace FtsScan

def flush (scan : FtsScan) : FtsScan :=
  if scan.current.isEmpty then scan
  else { scan with tokens := scan.tokens ++ [scan.current], current := [] }

def step (scan : FtsScan) (char : Char) : FtsScan :=
  if char = '"' then { scan.flush with inQuotes := !scan.inQuotes }
  else if isWhitespace char && !scan.inQuotes then scan.flush
  else { scan with current := scan.current ++ [char] }

end FtsScan

/-- Every token becomes a quoted phrase of the full text search. -/
def sanitizeFtsQuery (raw : String) : Option String :=
  let tokens := (raw.toList.foldl FtsScan.step {}).flush.tokens
  if tokens.isEmpty then none
  else
    let quoted := tokens.map fun token =>
      ['"'] ++ token.flatMap (fun char => if char = '"' then ['"', '"'] else [char]) ++ ['"']
    some (String.ofList ((quoted.intersperse [' ', 'O', 'R', ' ']).flatten))

/-- The directory name of a service. -/
def safeServicePath (service : String) : String :=
  let parts := service.toList.splitOnP fun char => char == '/' || char == '\\'
  let kept := parts.filter fun part => part ≠ [] ∧ part ≠ ['.'] ∧ part ≠ ['.', '.']
  String.ofList (kept.intersperse ['_']).flatten

example : weekDatabaseName 1738368000000 = some "2025_w05.db" := by decide
example : databaseWeekStartMs "2025_w05.db" = some 1737936000000 := by decide
example : detectLevel "request level=warn" = some .warn := by decide
example : sanitizeFtsQuery "q=\"some=value with spaces\" another" =
    some "\"q=\" OR \"some=value with spaces\" OR \"another\"" := by decide

end Vpsiner.Logs
