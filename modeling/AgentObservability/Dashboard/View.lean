import AgentObservability.Report.Span
import AgentObservability.Foundation.Paging

/-!
# Report views

An immutable snapshot as the dashboard reads it: the rows of its table `spans`,
the filters of a request, and the orders of the queries. A row has the JSON of
its span, given by its length and by what `serde_json` reads from it.

A time or an order that a query has not reached yet is `⊥`, which stands for
`f64::MIN` and `i64::MIN`.
-/

namespace AgentObservability.Dashboard

open Domain Contracts Foundation Report

/-! ### Filters -/

/-- `str::to_lowercase`. -/
class Lowercase where
  /-- The text in lower case. -/
  toLowercase : String → String

/-- `DashboardFiltersV1`. -/
structure DashboardFiltersV1 where
  /-- `repo`. -/
  repo : List String := []
  /-- `session`. -/
  session : List String := []
  /-- `agent`. -/
  agent : List String := []
  /-- `model`. -/
  model : List String := []
  /-- `text`. -/
  text : Option String := none
  deriving DecidableEq

/-- A dimension of a filter lets a value pass: it is not restricted, or it has the value. -/
def allows (allowed : List String) (value : Option String) : Bool :=
  allowed.isEmpty || allowed.any fun candidate => some candidate = value

/-- `str::contains`. -/
def containsText (text part : String) : Bool := part.toList <:+: text.toList

/-- The status of a span in a filter and on the wire: `status_code`. -/
def statusCode : StatusCode → String
  | .ok => "ok"
  | .error => "error"
  | .unset => "unset"

variable {A : Type}

/-- The text of a span that a filter searches. -/
def searchText (span : ReportSpanV2 A) : String :=
  " ".intercalate [span.name, kindName span.kind, statusCode span.status, span.toolName.getD "", span.traceId, span.spanId,
    span.repo, span.sessionId.getD "", span.agent.name.getD "", span.agent.model.getD ""]

/-- `matches_filters`. -/
def matchesFilters [Lowercase] (span : ReportSpanV2 A) (filters : DashboardFiltersV1) : Bool :=
  allows filters.repo (some span.repo) && allows filters.session span.sessionId &&
    allows filters.agent (some (span.agent.name.getD "unknown")) &&
    allows filters.model (some (span.agent.model.getD "unknown")) &&
    match filters.text with
    | none => true
    | some text => containsText (Lowercase.toLowercase (searchText span)) (Lowercase.toLowercase text)

/-! ### Rows -/

/-- `ReportViewKernel`. -/
inductive ReportViewKernel where
  /-- Indexes over the time of a span. -/
  | v1
  /-- Indexes over the order of the source. -/
  | v2
  deriving DecidableEq

/-- The JSON of a span: its length, and what `serde_json` reads from it, unless it is malformed. -/
structure SpanJson (A : Type) where
  /-- `json.len()`. -/
  bytes : ℕ
  /-- `serde_json::from_slice`. -/
  span : Option (ReportSpanV2 A)
  deriving DecidableEq

/-- A row of `spans`. -/
structure ViewRow (A : Type) where
  /-- `source_order`. -/
  sourceOrder : ℕ
  /-- `trace_id`. -/
  traceId : String
  /-- `span_id`. -/
  spanId : String
  /-- `start_time_unix_ms`. -/
  startTimeUnixMs : ℕ
  /-- `repo`. -/
  repo : String
  /-- `session_id`. -/
  sessionId : Option String
  /-- `turn_id`. -/
  turnId : Option String
  /-- `agent`. -/
  agent : Option String
  /-- `model`. -/
  model : Option String
  /-- `span_json`. -/
  spanJson : SpanJson A
  deriving DecidableEq

/-- The columns that have an index of their values. -/
inductive Column where
  /-- `repo`. -/
  | repo
  /-- `session_id`. -/
  | session
  /-- `turn_id`. -/
  | turn
  /-- `agent`. -/
  | agent
  /-- `model`. -/
  | model
  deriving DecidableEq

/-- The value of a column. -/
def ViewRow.column (row : ViewRow A) : Column → Option String
  | .repo => some row.repo
  | .session => row.sessionId
  | .turn => row.turnId
  | .agent => row.agent
  | .model => row.model

/-- The value of a span that a column holds. -/
def spanColumn (span : ReportSpanV2 A) : Column → Option String
  | .repo => some span.repo
  | .session => span.sessionId
  | .turn => span.turnId
  | .agent => some (span.agent.name.getD "unknown")
  | .model => some (span.agent.model.getD "unknown")

/-! ### Orders -/

/-- The key of the order `start_time_unix_ms, trace_id, span_id`. -/
abbrev SpanKey := Lex (WithBot ℕ × Lex (String × String))

/-- The key of a row. -/
def ViewRow.spanKey (row : ViewRow A) : SpanKey := toLex (WithBot.some row.startTimeUnixMs, toLex (row.traceId, row.spanId))

/-- The key of the order `trace_id, start_time_unix_ms, span_id`. -/
abbrev TraceKey := Lex (String × Lex (WithBot ℕ × String))

/-- The key of a row. -/
def ViewRow.traceKey (row : ViewRow A) : TraceKey := toLex (row.traceId, toLex (WithBot.some row.startTimeUnixMs, row.spanId))

/-- The key of the order of an index of values. The second kernel has no trace and no span in its order. -/
abbrev DimensionKey := Lex (String × Lex (WithBot ℕ × Lex (String × String)))

/-- The key of a value of the row. -/
def ViewRow.dimensionKey (kernel : ReportViewKernel) (row : ViewRow A) (value : String) : DimensionKey :=
  toLex (value, match kernel with
    | .v1 => toLex (WithBot.some row.startTimeUnixMs, toLex (row.traceId, row.spanId))
    | .v2 => toLex (WithBot.some row.sourceOrder, toLex ("", "")))

/-- The rows in the order of their spans. -/
def spanEntries (rows : List (ViewRow A)) : List (SpanKey × ViewRow A) := rows.map fun row => (row.spanKey, row)

/-- The rows in the order of their traces. -/
def traceEntries (rows : List (ViewRow A)) : List (TraceKey × ViewRow A) := rows.map fun row => (row.traceKey, row)

/-- The rows that have a value in a column, in the order of these. -/
def dimensionEntries (kernel : ReportViewKernel) (column : Column) (rows : List (ViewRow A)) :
    List (DimensionKey × String × ViewRow A) :=
  rows.filterMap fun row => (row.column column).map fun value => (row.dimensionKey kernel value, value, row)

/-! ### Snapshots -/

/-- The spans of the rows. -/
def spansOf (rows : List (ViewRow A)) : List (ReportSpanV2 A) := rows.filterMap fun row => row.spanJson.span

/-- `MAX_DECODED_BYTES`, which is also `MAX_SCAN_DECODED_BYTES` and `WRITE_BATCH_BYTES`. -/
def maxDecodedBytes : ℕ := 2 * 1024 * 1024

/-- `DASHBOARD_SAFE_INTEGER_MAX`. -/
def dashboardSafeIntegerMax : ℕ := 2 ^ 53 - 1

variable [Amount A]

/-- A row that is read without an error: its JSON is short enough and its span is valid and is the one of its columns. -/
structure ViewRow.Readable (row : ViewRow A) (span : ReportSpanV2 A) : Prop where
  bytes : row.spanJson.bytes ≤ maxDecodedBytes
  json : row.spanJson.span = some span
  valid : span.valid = true
  traceId : row.traceId = span.traceId
  spanId : row.spanId = span.spanId
  startTimeUnixMs : row.startTimeUnixMs = span.startTimeUnixMs
  column : ∀ column, row.column column = spanColumn span column

/-- The rows of a snapshot that was published: every row is readable, and no two are of the same span or the same record. -/
structure Published (rows : List (ViewRow A)) : Prop where
  readable : ∀ row ∈ rows, ∃ span, row.Readable span
  spanId : (rows.map ViewRow.spanId).Nodup
  sourceOrder : (rows.map ViewRow.sourceOrder).Nodup
  count : rows.length ≤ dashboardSafeIntegerMax

end AgentObservability.Dashboard
