import Vpsiner.Docker.Controls
import Vpsiner.Frontend.UseLogs
import Vpsiner.Lib.FormUrl

/-! The targets and the query strings of the browser's requests. -/

set_option autoImplicit false

namespace Vpsiner.Frontend.Requests

open Lib Text FormUrl Docker

def levelText : LogLevel → String
  | .debug => "debug"
  | .info => "info"
  | .warn => "warn"
  | .error => "error"

inductive QueryValue where
  | number (value : Int)
  | text (value : String)
  | items (values : List String)
deriving DecidableEq, Repr

/-- The value under its key; undefined, an empty text and an empty list are left out. -/
def queryText : Option QueryValue → Option (List Char)
  | none | some (.text "") | some (.items []) => none
  | some (.number value) => some (decimal value)
  | some (.text value) => some value.toList
  | some (.items values) => some ([','].intercalate (values.map String.toList))

def writeQuery (entries : List (String × Option QueryValue)) : List Char :=
  serialize (entries.filterMap fun entry =>
    (queryText entry.2).map fun value => (entry.1.toList, value))

structure LogQueryParams where
  fromMs : Option Int := none
  toMs : Option Int := none
  q : Option String := none
  level : List LogLevel := []
  stream : List LogStream := []
  limit : Option Nat := none
  before : Option String := none
  after : Option String := none
deriving DecidableEq, Repr

def LogQueryParams.entries (params : LogQueryParams) : List (String × Option QueryValue) := [
  ("from", params.fromMs.map .number),
  ("to", params.toMs.map .number),
  ("q", params.q.map .text),
  ("level", some (.items (params.level.map levelText))),
  ("stream", some (.items (params.stream.map streamText))),
  ("limit", params.limit.map fun limit : Nat => .number limit),
  ("before", params.before.map .text),
  ("after", params.after.map .text)]

def queryString (params : LogQueryParams) : List Char := writeQuery params.entries

/-- What the live tail asks for. -/
def tailEntries (cursor q : Option String) (level : List LogLevel) (stream : List LogStream) :
    List (String × Option QueryValue) := [
  ("after", cursor.map .text),
  ("q", q.map .text),
  ("level", some (.items (level.map levelText))),
  ("stream", some (.items (stream.map streamText)))]

def tailQueryString (cursor q : Option String) (level : List LogLevel) (stream : List LogStream) :
    List Char := writeQuery (tailEntries cursor q level stream)

def metricsEntries (range : TimeRange) : List (String × Option QueryValue) :=
  [("from", some (.number range.fromMs)), ("to", some (.number range.toMs))]

def metricsRange (range : TimeRange) : List Char := writeQuery (metricsEntries range)

def metricsStreamQuery (fromMs : Int) : List Char := writeQuery [("from", some (.number fromMs))]

/-! ## Targets -/

/-- The path as the browser sends it. -/
def pathText (segments : List (List Char)) : List Char :=
  (resolveDots [] segments).flatMap fun segment => '/' :: segment

def logsTarget (service : String) (params : LogQueryParams) : List Char :=
  pathText ["api".toList, "logs".toList, encodeURIComponent service.toList] ++
    ['?'] ++ queryString params

def tailTarget (service : String) (cursor q : Option String) (level : List LogLevel)
    (stream : List LogStream) : List Char :=
  pathText ["api".toList, "stream".toList, "logs".toList, encodeURIComponent service.toList] ++
    ['?'] ++ tailQueryString cursor q level stream

def hostMetricsTarget (range : TimeRange) : List Char :=
  pathText ["api".toList, "metrics".toList, "host".toList] ++ ['?'] ++ metricsRange range

def containerMetricsTarget (service : String) (range : TimeRange) : List Char :=
  pathText ["api".toList, "metrics".toList, "containers".toList,
    encodeURIComponent service.toList] ++ ['?'] ++ metricsRange range

def containerMetricsHistoryTarget (range : TimeRange) : List Char :=
  pathText ["api".toList, "metrics".toList, "containers".toList] ++ ['?'] ++ metricsRange range

def hostStreamTarget (fromMs : Int) : List Char :=
  pathText ["api".toList, "stream".toList, "metrics".toList, "host".toList] ++ ['?'] ++
    metricsStreamQuery fromMs

def containerStreamTarget (service : String) (fromMs : Int) : List Char :=
  pathText ["api".toList, "stream".toList, "metrics".toList, "containers".toList,
    encodeURIComponent service.toList] ++ ['?'] ++ metricsStreamQuery fromMs

def containersStreamTarget (fromMs : Int) : List Char :=
  pathText ["api".toList, "stream".toList, "metrics".toList, "containers".toList] ++ ['?'] ++
    metricsStreamQuery fromMs

def actionTarget (id : String) (action : ContainerAction) : List Char :=
  pathText ["api".toList, "containers".toList, encodeURIComponent id.toList, action.text.toList]

end Vpsiner.Frontend.Requests
