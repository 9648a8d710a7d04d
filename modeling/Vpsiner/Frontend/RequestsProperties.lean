import Vpsiner.Api.LogTail
import Vpsiner.Api.Requests
import Vpsiner.Frontend.Requests

/-! What the browser asks for is what the server reads. -/

set_option autoImplicit false

namespace Vpsiner.Frontend.Requests

open Lib Text FormUrl Docker Api.Requests

/-! ## Fields -/

def pairsOf (entries : List (String × Option QueryValue)) : List (List Char × List Char) :=
  entries.filterMap fun entry => (queryText entry.2).map fun value => (entry.1.toList, value)

theorem parse_writeQuery (entries : List (String × Option QueryValue)) :
    parse (writeQuery entries) = some (pairsOf entries) := parse_serialize _

theorem pairsOf_cons (entry : String × Option QueryValue)
    (rest : List (String × Option QueryValue)) :
    pairsOf (entry :: rest) =
      ((queryText entry.2).map fun value => (entry.1.toList, value)).toList ++ pairsOf rest := by
  rw [pairsOf, List.filterMap_cons]
  cases queryText entry.2 <;> rfl

/-- A key that was not written is not found. -/
theorem filter_pairsOf_of_not_mem {entries : List (String × Option QueryValue)} {name : String}
    (absent : name ∉ entries.map Prod.fst) :
    ((pairsOf entries).filter fun pair => pair.1 = name.toList) = [] := by
  apply List.filter_eq_nil_iff.mpr
  intro pair member
  obtain ⟨entry, written, shape⟩ := List.mem_filterMap.mp member
  obtain ⟨value, -, rfl⟩ := Option.map_eq_some_iff.mp shape
  intro same
  exact absent (List.mem_map.mpr ⟨entry, written, String.toList_inj.mp (of_decide_eq_true same)⟩)

theorem filter_pairsOf {entries : List (String × Option QueryValue)}
    (keys : (entries.map Prod.fst).Nodup) {name : String} {value : Option QueryValue}
    (member : (name, value) ∈ entries) :
    ((pairsOf entries).filter fun pair => pair.1 = name.toList) =
      ((queryText value).map fun text => (name.toList, text)).toList := by
  induction entries with
  | nil => cases member
  | cons entry rest ih =>
      obtain ⟨absent, later⟩ := List.nodup_cons.mp keys
      rw [pairsOf_cons, List.filter_append]
      rcases List.mem_cons.mp member with rfl | behind
      · rw [filter_pairsOf_of_not_mem absent, List.append_nil]
        cases queryText value <;> simp
      · have different : entry.1 ≠ name := by
          rintro rfl
          exact absent (List.mem_map.mpr ⟨_, behind, rfl⟩)
        rw [ih later behind]
        cases queryText entry.2 <;> simp [String.toList_inj, different]

/-- A key holds what was written under it. -/
theorem field_pairsOf {entries : List (String × Option QueryValue)}
    (keys : (entries.map Prod.fst).Nodup) {name : String} {value : Option QueryValue}
    (member : (name, value) ∈ entries) :
    field (pairsOf entries) name = some (queryText value) := by
  rw [field, filter_pairsOf keys member]
  cases queryText value <;> rfl

/-! ## Values -/

/-- An empty text asks for nothing. -/
def asked (text : Option String) : Option String := text.filter (· ≠ "")

def FitsI64 (value : Int) : Prop := i64Min ≤ value ∧ value ≤ i64Max

theorem readI64_decimal {value : Int} (fits : FitsI64 value) :
    readI64 (decimal value) = some value := parseSigned_decimal fits.1 fits.2

theorem optionalField_number {value : Option Int} (fits : ∀ number ∈ value, FitsI64 number) :
    optionalField readI64 (queryText (value.map .number)) = some value := by
  cases value with
  | none => rfl
  | some number => simp [optionalField, queryText, readI64_decimal (fits number rfl)]

theorem optionalField_count {value : Option Nat} (fits : ∀ count ∈ value, count ≤ u32Max) :
    optionalField readU32 (queryText (value.map fun count : Nat => .number count)) =
      some value := by
  cases value with
  | none => rfl
  | some count =>
      have plain : decimal count = zeroPadded 0 count := by simp [decimal, zeroPadded]
      simp [optionalField, queryText, readU32, plain, parseUnsigned_zeroPadded (fits count rfl)]

theorem optionalField_string (value : Option (List Char)) :
    optionalField readString value = some (value.map String.ofList) := by
  cases value <;> rfl

theorem queryText_text (text : Option String) :
    (queryText (text.map .text)).map String.ofList = asked text := by
  cases text with
  | none => rfl
  | some text =>
      by_cases empty : text = ""
      · simp [empty, queryText, asked, Option.filter_some]
      · simp [queryText, asked, Option.filter_some, empty]

/-- A list that is joined is cut into its items again. -/
theorem parseItems_join {α : Type} {parse : String → AppResult α} {text : α → String}
    (reads : ∀ item, parse (text item) = .ok item) (plain : ∀ item, ',' ∉ (text item).toList)
    (items : List α) :
    parseItems parse ((queryText (some (.items (items.map text)))).map String.ofList) =
      .ok items := by
  cases items with
  | nil => rfl
  | cons first rest =>
      have whole : ∀ part ∈ ((first :: rest).map text).map String.toList,
          part.splitOnP (· == ',') = [part] := by
        intro part member
        obtain ⟨_, inside, rfl⟩ := List.mem_map.mp member
        obtain ⟨item, -, rfl⟩ := List.mem_map.mp inside
        apply List.splitOnP_eq_singleton
        intro char written
        exact beq_eq_false_iff_ne.mpr fun same => plain item (same ▸ written)
      have cut : ([','].intercalate (((first :: rest).map text).map String.toList)).splitOnP
          (· == ',') = ((first :: rest).map text).map String.toList := by
        rw [splitOnP_intercalate _ (by simp), List.flatMap_congr whole, List.flatMap_singleton']
      have read : (fun item => parse (String.ofList item)) ∘ String.toList ∘ text =
          fun item => pure item := by
        funext item
        simp only [Function.comp_apply, String.ofList_toList, reads]
        rfl
      have written : (queryText (some (.items ((first :: rest).map text)))).map String.ofList =
          some (String.ofList
            ([','].intercalate (((first :: rest).map text).map String.toList))) := rfl
      rw [written]
      simp only [parseItems, String.toList_ofList, cut]
      rw [List.mapM_map, List.mapM_map, Function.comp_assoc, read, List.mapM_pure, List.map_id']
      rfl

/-! ## Requests -/

/-- The numbers of a request are numbers of the server. -/
structure Fits (params : LogQueryParams) : Prop where
  fromMs : ∀ number ∈ params.fromMs, FitsI64 number
  toMs : ∀ number ∈ params.toMs, FitsI64 number
  limit : ∀ count ∈ params.limit, count ≤ u32Max

/-- One side of one cursor, and a range that is none the wrong way round. -/
structure Coherent (params : LogQueryParams) : Prop where
  cursor : asked params.before = none ∨ asked params.after = none
  range : ∀ fromMs ∈ params.fromMs, ∀ toMs ∈ params.toMs, fromMs ≤ toMs

def LogQueryParams.filter (params : LogQueryParams) : LogFilter where
  fromMs := params.fromMs
  toMs := params.toMs
  query := asked params.q
  levels := params.level
  streams := params.stream
  limit := params.limit
  before := asked params.before
  after := asked params.after

theorem parseLevels_levelText (levels : List LogLevel) :
    parseLevels ((queryText (some (.items (levels.map levelText)))).map String.ofList) =
      .ok levels :=
  parseItems_join (fun level => by cases level <;> rfl)
    (fun level => by cases level <;> decide) levels

theorem parseStreams_streamText (streams : List LogStream) :
    parseStreams ((queryText (some (.items (streams.map streamText)))).map String.ofList) =
      .ok streams :=
  parseItems_join (fun stream => by cases stream <;> rfl)
    (fun stream => by cases stream <;> decide) streams

def LogQueryParams.query (params : LogQueryParams) : LogQuery where
  fromMs := params.fromMs
  toMs := params.toMs
  q := asked params.q
  level := (queryText (some (.items (params.level.map levelText)))).map String.ofList
  stream := (queryText (some (.items (params.stream.map streamText)))).map String.ofList
  limit := params.limit
  before := asked params.before
  after := asked params.after

theorem read_queryString {params : LogQueryParams} (fits : Fits params) :
    LogQuery.read (queryString params) = some params.query := by
  have keys : (params.entries.map Prod.fst).Nodup := by simp [LogQueryParams.entries]
  have read : ∀ name value, (name, value) ∈ params.entries →
      field (pairsOf params.entries) name = some (queryText value) :=
    fun _ _ member => field_pairsOf keys member
  have fromMs := read "from" (params.fromMs.map .number) (by simp [LogQueryParams.entries])
  have toMs := read "to" (params.toMs.map .number) (by simp [LogQueryParams.entries])
  have q := read "q" (params.q.map .text) (by simp [LogQueryParams.entries])
  have level := read "level" (some (.items (params.level.map levelText)))
    (by simp [LogQueryParams.entries])
  have stream := read "stream" (some (.items (params.stream.map streamText)))
    (by simp [LogQueryParams.entries])
  have limit := read "limit" (params.limit.map fun limit : Nat => .number limit)
    (by simp [LogQueryParams.entries])
  have before := read "before" (params.before.map .text) (by simp [LogQueryParams.entries])
  have after := read "after" (params.after.map .text) (by simp [LogQueryParams.entries])
  simp [LogQuery.read, queryString, parse_writeQuery, fromMs, toMs, q, level, stream, limit,
    before, after, optionalField_number fits.fromMs, optionalField_number fits.toMs,
    optionalField_count fits.limit, optionalField_string, queryText_text, LogQueryParams.query]

theorem coherent_iff (params : LogQueryParams) :
    Coherent params ↔
      ¬ (params.query.before.isSome ∧ params.query.after.isSome) ∧
        ¬ (params.query.fromMs.any fun fromMs =>
          params.query.toMs.any fun toMs => toMs < fromMs) := by
  constructor
  · rintro ⟨cursor, range⟩
    constructor
    · rintro ⟨before, after⟩
      rcases cursor with none | none
      · simp [LogQueryParams.query, none] at before
      · simp [LogQueryParams.query, none] at after
    · simpa [LogQueryParams.query, Option.any_eq_true] using range
  · rintro ⟨cursor, range⟩
    constructor
    · simpa [LogQueryParams.query, imp_iff_not_or] using cursor
    · simpa [LogQueryParams.query, Option.any_eq_true] using range

/-- Of a request the server can refuse only the cursors and the range. -/
theorem filter_query (params : LogQueryParams) (filter : LogFilter) :
    params.query.filter = .ok filter ↔ Coherent params ∧ filter = params.filter := by
  have levels : parseLevels params.query.level = .ok params.level := parseLevels_levelText _
  have streams : parseStreams params.query.stream = .ok params.stream := parseStreams_streamText _
  rw [coherent_iff]
  by_cases cursors : params.query.before.isSome ∧ params.query.after.isSome
  · simp [LogQuery.filter, cursors, badRequest, bind, Except.bind]
  by_cases backwards : params.query.fromMs.any fun fromMs =>
      params.query.toMs.any fun toMs => toMs < fromMs
  · simp [LogQuery.filter, cursors, backwards, badRequest, bind, Except.bind]
  have accepted : params.query.filter = .ok params.filter := by
    simp [LogQuery.filter, cursors, backwards, levels, streams]
    rfl
  rw [accepted, Except.ok.injEq]
  constructor
  · rintro rfl
    exact ⟨⟨cursors, backwards⟩, rfl⟩
  · rintro ⟨-, rfl⟩
    rfl

/-! ## Tails and ranges -/

def tailQuery (cursor q : Option String) (level : List LogLevel) (stream : List LogStream) :
    LogTailQuery where
  q := asked q
  level := (queryText (some (.items (level.map levelText)))).map String.ofList
  stream := (queryText (some (.items (stream.map streamText)))).map String.ofList
  after := asked cursor

theorem read_tailQueryString (cursor q : Option String) (level : List LogLevel)
    (stream : List LogStream) :
    LogTailQuery.read (tailQueryString cursor q level stream) =
      some (tailQuery cursor q level stream) := by
  have read : ∀ name value, (name, value) ∈ tailEntries cursor q level stream →
      field (pairsOf (tailEntries cursor q level stream)) name = some (queryText value) :=
    fun _ _ member => field_pairsOf (by simp [tailEntries]) member
  have after := read "after" (cursor.map .text) (by simp [tailEntries])
  have search := read "q" (q.map .text) (by simp [tailEntries])
  have levels := read "level" (some (.items (level.map levelText))) (by simp [tailEntries])
  have streams := read "stream" (some (.items (stream.map streamText))) (by simp [tailEntries])
  simp [LogTailQuery.read, tailQueryString, parse_writeQuery, after, search, levels, streams,
    optionalField_string, queryText_text, tailQuery]

theorem filter_tailQuery (cursor q : Option String) (level : List LogLevel)
    (stream : List LogStream) :
    (tailQuery cursor q level stream).filter =
      .ok (Api.LogTailQuery.filter ⟨asked q, level, stream, asked cursor⟩) := by
  have levels : parseLevels (tailQuery cursor q level stream).level = .ok level :=
    parseLevels_levelText _
  have streams : parseStreams (tailQuery cursor q level stream).stream = .ok stream :=
    parseStreams_streamText _
  simp [LogTailQuery.filter, levels, streams]
  rfl

theorem read_metricsRange {range : TimeRange} (start : FitsI64 range.fromMs)
    (stop : FitsI64 range.toMs) :
    MetricsQuery.read (metricsRange range) = some ⟨range.fromMs, range.toMs⟩ := by
  have read : ∀ name value, (name, value) ∈ metricsEntries range →
      field (pairsOf (metricsEntries range)) name = some (queryText value) :=
    fun _ _ member => field_pairsOf (by simp [metricsEntries]) member
  have fromMs := read "from" (some (.number range.fromMs)) (by simp [metricsEntries])
  have toMs := read "to" (some (.number range.toMs)) (by simp [metricsEntries])
  simp [MetricsQuery.read, metricsRange, parse_writeQuery, fromMs, toMs, queryText,
    readI64_decimal start, readI64_decimal stop]

theorem read_metricsStreamQuery {fromMs : Int} (fits : FitsI64 fromMs) :
    MetricsStreamQuery.read (metricsStreamQuery fromMs) = some ⟨fromMs⟩ := by
  have read : field (pairsOf [("from", some (.number fromMs))]) "from" =
      some (queryText (some (.number fromMs))) := field_pairsOf (by simp) (by simp)
  simp [MetricsStreamQuery.read, metricsStreamQuery, parse_writeQuery, read, queryText,
    readI64_decimal fits]

/-! ## Targets -/

def PlainSegment (segment : List Char) : Prop := '/' ∉ segment ∧ '?' ∉ segment ∧ segment ∉ dots

instance : DecidablePred PlainSegment := fun _ => inferInstanceAs (Decidable (_ ∧ _ ∧ _))

theorem plainSegment_encodeURIComponent {text : List Char} (plain : text ∉ dots) :
    PlainSegment (encodeURIComponent text) :=
  ⟨not_mem_encodeURIComponent text (by simp), not_mem_encodeURIComponent text (by simp),
    encodeURIComponent_not_mem_dots plain⟩

theorem pathText_plain {segments : List (List Char)}
    (plain : ∀ segment ∈ segments, PlainSegment segment) :
    pathText segments = segments.flatMap fun segment => '/' :: segment := by
  rw [pathText, resolveDots_plain [] fun segment member => (plain segment member).2.2]
  rfl

theorem splitOnP_path {segments : List (List Char)}
    (plain : ∀ segment ∈ segments, PlainSegment segment) :
    (segments.flatMap fun segment => '/' :: segment).splitOnP (· == '/') = [] :: segments := by
  induction segments with
  | nil => rfl
  | cons segment rest ih =>
      obtain ⟨here, later⟩ := List.forall_mem_cons.mp plain
      have front : ∀ char ∈ segment, (char == '/') = false := by
        intro char member
        exact beq_eq_false_iff_ne.mpr fun same => here.1 (same ▸ member)
      rw [List.flatMap_cons, List.cons_append, List.splitOnP_cons_eq_if_modifyHead]
      simp [splitOnP_append front, ih later]

theorem not_mem_pathText {segments : List (List Char)}
    (plain : ∀ segment ∈ segments, PlainSegment segment) : '?' ∉ pathText segments := by
  rw [pathText_plain plain]
  intro member
  obtain ⟨segment, inside, written⟩ := List.mem_flatMap.mp member
  rcases List.mem_cons.mp written with slash | char
  · cases slash
  · exact (plain segment inside).2.1 char

theorem receivePath_pathText {segments : List (List Char)}
    (plain : ∀ segment ∈ "api".toList :: segments, PlainSegment segment) (method : Method)
    (query : List Char) :
    receivePath method (pathText ("api".toList :: segments)) query =
      (router method (segments.map String.ofList)).map fun endpoint => (endpoint, query) := by
  rw [receivePath, pathText_plain plain, splitOnP_path plain]
  rfl

theorem plain_api {segments : List (List Char)}
    (plain : ∀ segment ∈ segments, PlainSegment segment) :
    ∀ segment ∈ "api".toList :: segments, PlainSegment segment :=
  List.forall_mem_cons.mpr ⟨by simp [PlainSegment, dots], plain⟩

/-- The server finds the segments and the query string that the browser put together. -/
theorem receive_query {segments : List (List Char)}
    (plain : ∀ segment ∈ segments, PlainSegment segment) (method : Method) (query : List Char) :
    receive method (pathText ("api".toList :: segments) ++ ['?'] ++ query) =
      (router method (segments.map String.ofList)).map fun endpoint => (endpoint, query) := by
  have all := plain_api plain
  rw [receive, splitOnce_append query (not_mem_pathText all)]
  exact receivePath_pathText all method query

theorem receive_path {segments : List (List Char)}
    (plain : ∀ segment ∈ segments, PlainSegment segment) (method : Method) :
    receive method (pathText ("api".toList :: segments)) =
      (router method (segments.map String.ofList)).map fun endpoint => (endpoint, []) := by
  have all := plain_api plain
  rw [receive, splitOnce_eq_none (not_mem_pathText all)]
  exact receivePath_pathText all method []

/-! ## Services and ids -/

/-- A name that is one segment of a path: not empty, and neither "." nor "..". -/
def Named (name : String) : Prop := name ≠ "" ∧ name.toList ∉ dots

theorem pathParameter_encodeURIComponent {name : String} (named : Named name) :
    pathParameter (String.ofList (encodeURIComponent name.toList)) = some name.toList := by
  have written : String.ofList (encodeURIComponent name.toList) ≠ "" := by
    intro empty
    have decoded := decodeSegment_encodeURIComponent name.toList
    have nothing : decodeSegment [] = some [] := decodeSegment_encodeURIComponent []
    rw [String.ofList_eq_empty_iff.mp empty, nothing] at decoded
    exact named.1 (String.toList_eq_nil_iff.mp (Option.some.inj decoded).symm)
  rw [pathParameter, if_neg written, String.toList_ofList, decodeSegment_encodeURIComponent]

/-! ## Routes -/

section Routes

variable (service : String)

theorem router_logs : router .get ["logs", service] = (pathParameter service).map .logs := rfl

theorem router_tail :
    router .get ["stream", "logs", service] =
      ((pathParameter service).map .logs).map .stream := rfl

theorem router_hostMetrics : router .get ["metrics", "host"] = some .hostMetrics := rfl

theorem router_containerMetrics :
    router .get ["metrics", "containers", service] =
      (pathParameter service).map .containerMetrics := rfl

theorem router_containersHistory :
    router .get ["metrics", "containers"] = some .containersHistory := rfl

theorem router_hostStream :
    router .get ["stream", "metrics", "host"] = some (.stream .hostMetrics) := rfl

theorem router_containerStream :
    router .get ["stream", "metrics", "containers", service] =
      ((pathParameter service).map .containerMetrics).map .stream := rfl

theorem router_containersStream :
    router .get ["stream", "metrics", "containers"] = some (.stream .containersHistory) := rfl

theorem router_command (id : String) (action : ContainerAction) :
    router .post ["containers", id, action.text] = (pathParameter id).map (.command action) := by
  cases action <;> rfl

end Routes

variable {service : String}

theorem receive_logsTarget (named : Named service) (params : LogQueryParams) :
    receive .get (logsTarget service params) =
      some (.logs service.toList, queryString params) := by
  rw [logsTarget, receive_query]
  · simp [router_logs, pathParameter_encodeURIComponent named]
  · simp +decide [plainSegment_encodeURIComponent named.2]

theorem receive_tailTarget (named : Named service) (cursor q : Option String)
    (level : List LogLevel) (stream : List LogStream) :
    receive .get (tailTarget service cursor q level stream) =
      some (.stream (.logs service.toList), tailQueryString cursor q level stream) := by
  rw [tailTarget, receive_query]
  · simp [router_tail, pathParameter_encodeURIComponent named]
  · simp +decide [plainSegment_encodeURIComponent named.2]

theorem receive_hostMetricsTarget (range : TimeRange) :
    receive .get (hostMetricsTarget range) = some (.hostMetrics, metricsRange range) := by
  rw [hostMetricsTarget, receive_query]
  · simp [router_hostMetrics]
  · simp +decide

theorem receive_containerMetricsTarget (named : Named service) (range : TimeRange) :
    receive .get (containerMetricsTarget service range) =
      some (.containerMetrics service.toList, metricsRange range) := by
  rw [containerMetricsTarget, receive_query]
  · simp [router_containerMetrics, pathParameter_encodeURIComponent named]
  · simp +decide [plainSegment_encodeURIComponent named.2]

theorem receive_containerMetricsHistoryTarget (range : TimeRange) :
    receive .get (containerMetricsHistoryTarget range) =
      some (.containersHistory, metricsRange range) := by
  rw [containerMetricsHistoryTarget, receive_query]
  · simp [router_containersHistory]
  · simp +decide

theorem receive_hostStreamTarget (fromMs : Int) :
    receive .get (hostStreamTarget fromMs) =
      some (.stream .hostMetrics, metricsStreamQuery fromMs) := by
  rw [hostStreamTarget, receive_query]
  · simp [router_hostStream]
  · simp +decide

theorem receive_containerStreamTarget (named : Named service) (fromMs : Int) :
    receive .get (containerStreamTarget service fromMs) =
      some (.stream (.containerMetrics service.toList), metricsStreamQuery fromMs) := by
  rw [containerStreamTarget, receive_query]
  · simp [router_containerStream, pathParameter_encodeURIComponent named]
  · simp +decide [plainSegment_encodeURIComponent named.2]

theorem receive_containersStreamTarget (fromMs : Int) :
    receive .get (containersStreamTarget fromMs) =
      some (.stream .containersHistory, metricsStreamQuery fromMs) := by
  rw [containersStreamTarget, receive_query]
  · simp [router_containersStream]
  · simp +decide

theorem receive_actionTarget {id : String} (named : Named id) (action : ContainerAction) :
    receive .post (actionTarget id action) = some (.command action id.toList, []) := by
  rw [actionTarget, receive_path]
  · simp [router_command, pathParameter_encodeURIComponent named]
  · cases action <;>
      simp +decide [ContainerAction.text, plainSegment_encodeURIComponent named.2]

theorem parse_eq_ok_iff (range asked : TimeRange) :
    MetricsQuery.parse ⟨range.fromMs, range.toMs⟩ = .ok asked ↔
      range.fromMs ≤ range.toMs ∧ asked = range := by
  by_cases backwards : range.toMs < range.fromMs
  · simp [MetricsQuery.parse, badRequest, backwards]
  · simp only [MetricsQuery.parse, if_neg backwards, Except.ok.injEq, Int.not_lt.mp backwards,
      true_and]
    exact eq_comm

theorem stream_parse_eq_ok_iff (fromMs now : Int) (asked : TimeRange × MetricsResolution) :
    MetricsStreamQuery.parse ⟨fromMs⟩ now = .ok asked ↔
      fromMs ≤ now ∧ asked = (⟨fromMs, now⟩, .forRange ⟨fromMs, now⟩) := by
  by_cases future : now < fromMs
  · simp [MetricsStreamQuery.parse, badRequest, future]
  · simp [MetricsStreamQuery.parse, future, Int.not_lt.mp future, eq_comm]

/-- Every request the browser makes reaches the endpoint it is for, for the service or the
container it names, and asks there for what the browser meant. The server refuses it only for a
contradiction the browser put into it. -/
theorem requests_received (named : Named service) :
    (∀ params, Fits params → ∃ text query,
      receive .get (logsTarget service params) = some (.logs service.toList, text) ∧
      LogQuery.read text = some query ∧
      ∀ filter, query.filter = .ok filter ↔ Coherent params ∧ filter = params.filter) ∧
    (∀ cursor q level stream, ∃ text query,
      receive .get (tailTarget service cursor q level stream) =
        some (.stream (.logs service.toList), text) ∧
      LogTailQuery.read text = some query ∧
      query.filter = .ok (Api.LogTailQuery.filter ⟨asked q, level, stream, asked cursor⟩)) ∧
    (∀ range : TimeRange, FitsI64 range.fromMs → FitsI64 range.toMs → ∃ text query,
      receive .get (hostMetricsTarget range) = some (.hostMetrics, text) ∧
      receive .get (containerMetricsTarget service range) =
        some (.containerMetrics service.toList, text) ∧
      receive .get (containerMetricsHistoryTarget range) = some (.containersHistory, text) ∧
      MetricsQuery.read text = some query ∧
      ∀ asked, query.parse = .ok asked ↔ range.fromMs ≤ range.toMs ∧ asked = range) ∧
    (∀ fromMs now, FitsI64 fromMs → ∃ text query,
      receive .get (hostStreamTarget fromMs) = some (.stream .hostMetrics, text) ∧
      receive .get (containerStreamTarget service fromMs) =
        some (.stream (.containerMetrics service.toList), text) ∧
      receive .get (containersStreamTarget fromMs) = some (.stream .containersHistory, text) ∧
      MetricsStreamQuery.read text = some query ∧
      ∀ asked, query.parse now = .ok asked ↔
        fromMs ≤ now ∧ asked = (⟨fromMs, now⟩, .forRange ⟨fromMs, now⟩)) ∧
    ∀ id action, Named id →
      receive .post (actionTarget id action) = some (.command action id.toList, []) := by
  refine ⟨?logs, ?tail, ?metrics, ?streams, fun _ action named => receive_actionTarget named action⟩
  case logs =>
    intro params fits
    exact ⟨_, params.query, receive_logsTarget named params, read_queryString fits,
      filter_query params⟩
  case tail =>
    intro cursor q level stream
    exact ⟨_, tailQuery cursor q level stream, receive_tailTarget named cursor q level stream,
      read_tailQueryString cursor q level stream, filter_tailQuery cursor q level stream⟩
  case metrics =>
    intro range start stop
    exact ⟨_, _, receive_hostMetricsTarget range, receive_containerMetricsTarget named range,
      receive_containerMetricsHistoryTarget range, read_metricsRange start stop,
      parse_eq_ok_iff range⟩
  case streams =>
    intro fromMs now fits
    exact ⟨_, _, receive_hostStreamTarget fromMs, receive_containerStreamTarget named fromMs,
      receive_containersStreamTarget fromMs, read_metricsStreamQuery fits,
      stream_parse_eq_ok_iff fromMs now⟩

/-- A service whose name has the separators of a path and of a query string in it. -/
theorem requests_received_separators :
    ∃ text query,
      receive .get (logsTarget "web/1?a&b=c" { q := some "50% + x", limit := some 10 }) =
        some (.logs "web/1?a&b=c".toList, text) ∧
      LogQuery.read text = some query ∧
      query.filter = .ok { query := some "50% + x", limit := some 10 } := by
  have named : Named "web/1?a&b=c" := ⟨by decide, by decide⟩
  have fits : Fits { q := some "50% + x", limit := some 10 } :=
    ⟨nofun, nofun, by simp [u32Max]⟩
  obtain ⟨text, query, reached, read, accepted⟩ := (requests_received named).1 _ fits
  refine ⟨text, query, reached, read, (accepted _).mpr ⟨⟨.inl rfl, nofun⟩, ?_⟩⟩
  decide

end Vpsiner.Frontend.Requests
