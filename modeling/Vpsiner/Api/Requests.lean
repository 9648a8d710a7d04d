import Vpsiner.Docker.Controls
import Vpsiner.Lib.FormUrl
import Vpsiner.Model.Logs
import Vpsiner.Model.Metrics

/-! Which endpoint a request reaches, what the endpoints of the logs and of the metrics read from
its query string, and why they refuse one. -/

set_option autoImplicit false

namespace Vpsiner.Api.Requests

open Lib Text FormUrl Docker

/-! ## Routes -/

inductive Method where
  | get
  | post
deriving DecidableEq, Repr

inductive Endpoint where
  | health
  | uiConfig
  | settings
  | computed
  | containers
  | command (action : ContainerAction) (id : List Char)
  | hostMetrics
  | currentMetrics
  | containerMetrics (service : List Char)
  | containersHistory
  | groups
  | logs (service : List Char)
  | stream (endpoint : Endpoint)
deriving DecidableEq, Repr

/-- A parameter takes one segment that is not empty. -/
def pathParameter (segment : String) : Option (List Char) :=
  if segment = "" then none else decodeSegment segment.toList

def streamRoute : Method → List String → Option Endpoint
  | .get, ["metrics", "current"] => some .currentMetrics
  | .get, ["metrics", "host"] => some .hostMetrics
  | .get, ["metrics", "containers"] => some .containersHistory
  | .get, ["metrics", "containers", service] =>
      (pathParameter service).map .containerMetrics
  | .get, ["containers"] => some .containers
  | .get, ["logs"] => some .groups
  | .get, ["logs", service] => (pathParameter service).map .logs
  | _, _ => none

def router : Method → List String → Option Endpoint
  | .get, ["health"] => some .health
  | .get, ["config", "ui"] => some .uiConfig
  | .get, ["config", "settings"] => some .settings
  | .get, ["config", "computed"] => some .computed
  | .get, ["containers"] => some .containers
  | .post, ["containers", id, "start"] => (pathParameter id).map (.command .start)
  | .post, ["containers", id, "stop"] => (pathParameter id).map (.command .stop)
  | .post, ["containers", id, "restart"] => (pathParameter id).map (.command .restart)
  | .get, ["metrics", "host"] => some .hostMetrics
  | .get, ["metrics", "current"] => some .currentMetrics
  | .get, ["metrics", "containers", service] => (pathParameter service).map .containerMetrics
  | .get, ["metrics", "containers"] => some .containersHistory
  | .get, ["logs"] => some .groups
  | .get, ["logs", service] => (pathParameter service).map .logs
  | method, "stream" :: segments => (streamRoute method segments).map .stream
  | _, _ => none

def receivePath (method : Method) (path query : List Char) : Option (Endpoint × List Char) :=
  match (path.splitOnP (· == '/')).map String.ofList with
  | "" :: "api" :: segments => (router method segments).map fun endpoint => (endpoint, query)
  | _ => none

/-- The endpoint with the query string, for the target of a request. -/
def receive (method : Method) (target : List Char) : Option (Endpoint × List Char) :=
  match splitOnce ['?'] target with
  | some (path, query) => receivePath method path query
  | none => receivePath method target []

/-! ## Fields -/

/-- A field that is given twice is refused. -/
def field (pairs : List (List Char × List Char)) (name : String) : Option (Option (List Char)) :=
  match pairs.filter fun pair => pair.1 = name.toList with
  | [] => some none
  | [pair] => some (some pair.2)
  | _ => none

def optionalField {α : Type} (read : List Char → Option α) (value : Option (List Char)) :
    Option (Option α) :=
  match value with
  | none => some none
  | some value => (read value).map some

def readI64 : List Char → Option Int := parseSigned i64Min i64Max

def u32Max : Nat := 2 ^ 32 - 1

def readU32 : List Char → Option Nat := parseUnsigned u32Max

def readString (value : List Char) : Option String := some (String.ofList value)

def badRequest {α : Type} (detail : String) : AppResult α :=
  .error (.error (.badRequest detail))

/-- The items of a list, unless one of them is not known. -/
def parseItems {α : Type} (parse : String → AppResult α) (value : Option String) :
    AppResult (List α) :=
  match value with
  | none => .ok []
  | some value => (value.toList.splitOnP (· == ',')).mapM fun item => parse (String.ofList item)

def parseLevels : Option String → AppResult (List LogLevel) :=
  parseItems fun
    | "debug" => .ok .debug
    | "info" => .ok .info
    | "warn" => .ok .warn
    | "error" => .ok .error
    | item => badRequest s!"invalid log level: {item}"

def parseStreams : Option String → AppResult (List LogStream) :=
  parseItems fun
    | "stdout" => .ok .stdout
    | "stderr" => .ok .stderr
    | item => badRequest s!"invalid log stream: {item}"

/-! ## Logs -/

structure LogQuery where
  fromMs : Option Int
  toMs : Option Int
  q : Option String
  level : Option String
  stream : Option String
  limit : Option Nat
  before : Option String
  after : Option String
deriving DecidableEq, Repr

def LogQuery.read (text : List Char) : Option LogQuery := do
  let pairs ← parse text
  return {
    fromMs := ← optionalField readI64 (← field pairs "from")
    toMs := ← optionalField readI64 (← field pairs "to")
    q := ← optionalField readString (← field pairs "q")
    level := ← optionalField readString (← field pairs "level")
    stream := ← optionalField readString (← field pairs "stream")
    limit := ← optionalField readU32 (← field pairs "limit")
    before := ← optionalField readString (← field pairs "before")
    after := ← optionalField readString (← field pairs "after") }

def LogQuery.filter (query : LogQuery) : AppResult LogFilter := do
  if query.before.isSome ∧ query.after.isSome then
    badRequest "before and after are mutually exclusive"
  if (query.fromMs.any fun fromMs => query.toMs.any fun toMs => toMs < fromMs) then
    badRequest "from must be before or equal to to"
  let levels ← parseLevels query.level
  let streams ← parseStreams query.stream
  return {
    fromMs := query.fromMs
    toMs := query.toMs
    query := query.q
    levels
    streams
    limit := query.limit
    before := query.before
    after := query.after }

structure LogTailQuery where
  q : Option String
  level : Option String
  stream : Option String
  after : Option String
deriving DecidableEq, Repr

def LogTailQuery.read (text : List Char) : Option LogTailQuery := do
  let pairs ← parse text
  return {
    q := ← optionalField readString (← field pairs "q")
    level := ← optionalField readString (← field pairs "level")
    stream := ← optionalField readString (← field pairs "stream")
    after := ← optionalField readString (← field pairs "after") }

def LogTailQuery.filter (query : LogTailQuery) : AppResult LogFilter := do
  return {
    query := query.q
    levels := ← parseLevels query.level
    streams := ← parseStreams query.stream
    after := query.after }

/-! ## Metrics -/

structure MetricsQuery where
  fromMs : Int
  toMs : Int
deriving DecidableEq, Repr

def MetricsQuery.read (text : List Char) : Option MetricsQuery := do
  let pairs ← parse text
  return {
    fromMs := ← readI64 (← (← field pairs "from"))
    toMs := ← readI64 (← (← field pairs "to")) }

def MetricsQuery.parse (query : MetricsQuery) : AppResult TimeRange :=
  if query.toMs < query.fromMs then badRequest "from must be before or equal to to"
  else .ok ⟨query.fromMs, query.toMs⟩

structure MetricsStreamQuery where
  fromMs : Int
deriving DecidableEq, Repr

def MetricsStreamQuery.read (text : List Char) : Option MetricsStreamQuery := do
  let pairs ← parse text
  return { fromMs := ← readI64 (← (← field pairs "from")) }

/-- The range ends now. -/
def MetricsStreamQuery.parse (query : MetricsStreamQuery) (now : Int) :
    AppResult (TimeRange × MetricsResolution) :=
  if now < query.fromMs then badRequest "from must not be in the future"
  else .ok (⟨query.fromMs, now⟩, .forRange ⟨query.fromMs, now⟩)

end Vpsiner.Api.Requests
