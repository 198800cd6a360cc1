import AgentObservability.Dashboard.View

/-!
# The scans of the dashboard

The bounded reads behind a page: spans of a trace or of the whole view
(`scanSpans`), rows of traces (`scanTraceRows`), values of a dimension
(`scanFacetRows`) and counts of identities (`scanIdentities`). Each runs over the
rows after its cursor and ends at a limit of rows, bytes or time, or where there
are no more.

Time is an argument: `late n` says whether the slice of time is used up when `n`
rows have been scanned.
-/

namespace AgentObservability.Dashboard

open Domain Contracts Foundation Report

/-- `ReportViewBuildError`, as far as a read can meet it. -/
inductive BuildError where
  /-- A row or a count that is too large. -/
  | capacityExceeded
  /-- A span that is not valid, or a cursor of another kernel. -/
  | invalidStagingState
  /-- Malformed JSON. -/
  | json
  deriving DecidableEq

/-- `MAX_SCAN_ROWS`, which is also `MAX_SCAN_FACTS`. -/
def maxScanRows : ℕ := 512

variable {A : Type}

/-- The row has room among the bytes that were read. -/
def fits (decodedBytes : ℕ) (json : SpanJson A) : Except BuildError Bool := do
  require (json.bytes ≤ maxDecodedBytes) BuildError.capacityExceeded
  pure (decodedBytes + json.bytes ≤ maxDecodedBytes)

/-- The span of a row. -/
def readSpan [Amount A] (json : SpanJson A) : Except BuildError (ReportSpanV2 A) := do
  let span ← ofOption BuildError.json json.span
  require (span.valid = true) BuildError.invalidStagingState
  pure span

/-! ### Spans -/

/-- `SpanScanCursor`. -/
structure SpanScanCursor where
  /-- `after`: the time, the trace and the span of the last row. -/
  after : Option (ℕ × String × String) := none
  deriving DecidableEq

/-- The parameters of the query of the whole view. -/
def SpanScanCursor.position (cursor : SpanScanCursor) : SpanKey :=
  cursor.after.elim (toLex (⊥, toLex ("", ""))) fun after => toLex (WithBot.some after.1, toLex (after.2.1, after.2.2))

/-- `SpanScanBatch`. -/
structure SpanScanBatch (A : Type) where
  /-- `rows`. -/
  rows : List (ReportSpanV2 A) := []
  /-- `cursor`. -/
  cursor : SpanScanCursor
  /-- `exhausted`. -/
  exhausted : Bool := false
  /-- `scanned`. -/
  scanned : ℕ := 0
  /-- `decoded_bytes`. -/
  decodedBytes : ℕ := 0

/-- The query of the whole view, or of one trace: its rows after the cursor. -/
def spanSource (rows : List (ViewRow A)) (cursor : SpanScanCursor) : Option String → List (ViewRow A)
  | none => (rowsAfter cursor.position (spanEntries rows)).map Prod.snd
  | some traceId =>
    (rowsAfter (cursor.after.elim (toLex (⊥, toLex (traceId, ""))) fun after => toLex (WithBot.some after.1, toLex (traceId, after.2.2)))
      (spanEntries (rows.filter fun row => row.traceId = traceId))).map Prod.snd

/-- A limit of the slice is reached. -/
def SpanScanBatch.full (late : ℕ → Bool) (outputLimit : ℕ) (batch : SpanScanBatch A) : Bool :=
  0 < batch.scanned ∧ (maxScanRows ≤ batch.scanned ∨ outputLimit ≤ batch.rows.length ∨ late batch.scanned)

/-- A row of the loop of `scan_spans`. -/
def takeSpanRow [Amount A] [Lowercase] (filters : DashboardFiltersV1) (traceId : Option String) (row : ViewRow A)
    (batch : SpanScanBatch A) : Except BuildError (Taken (SpanScanBatch A)) := do
  if ← fits batch.decodedBytes row.spanJson then do
    let projected ← readSpan row.spanJson
    pure (.more
      { batch with
        cursor := ⟨some (row.startTimeUnixMs, row.traceId, row.spanId)⟩
        scanned := batch.scanned + 1
        decodedBytes := batch.decodedBytes + row.spanJson.bytes
        rows := if traceId.all (projected.traceId = ·) && matchesFilters projected filters then batch.rows ++ [projected]
          else batch.rows })
  else pure (.stop batch)

/-- `scan_spans`. -/
def scanSpans [Amount A] [Lowercase] (late : ℕ → Bool) (rows : List (ViewRow A)) (cursor : SpanScanCursor)
    (filters : DashboardFiltersV1) (traceId : Option String) (outputLimit : ℕ) : Except BuildError (SpanScanBatch A) := do
  require (outputLimit ≠ 0 ∧ outputLimit ≤ maxScanRows) BuildError.invalidStagingState
  readLoop (SpanScanBatch.full late outputLimit) (takeSpanRow filters traceId) (fun batch => { batch with exhausted := true })
    ((spanSource rows cursor traceId).take maxScanRows) { cursor }

/-! ### Rows of traces -/

/-- `DashboardAvailabilityFieldV1`. -/
inductive AvailabilityField where
  /-- `repository`. -/
  | repository
  /-- `turn`. -/
  | turn
  /-- `model`. -/
  | model
  /-- `tokens`. -/
  | tokens
  /-- `latency`. -/
  | latency
  /-- `source_location`. -/
  | sourceLocation
  /-- `request_content`. -/
  | requestContent
  /-- `response_content`. -/
  | responseContent
  deriving DecidableEq

/-- `DashboardAvailabilityReasonV1`. -/
structure AvailabilityReason where
  /-- `field`. -/
  field : AvailabilityField
  /-- `availability`. -/
  availability : FieldAvailabilityV2
  deriving DecidableEq

/-- `availability_reasons`: the fields that are not available. -/
def availabilityReasons (span : ReportSpanV2 A) : List AvailabilityReason :=
  [(AvailabilityReason.mk .repository span.availability.repository), ⟨.turn, span.availability.turn⟩,
    ⟨.model, span.availability.model⟩, ⟨.tokens, span.availability.tokens⟩, ⟨.latency, span.availability.latency⟩,
    ⟨.sourceLocation, span.availability.sourceLocation⟩, ⟨.requestContent, span.availability.requestContent⟩,
    ⟨.responseContent, span.availability.responseContent⟩].filter fun reason => reason.availability.state ≠ .available

/-- `TraceAccumulator`, which is also the row that it becomes. -/
structure TraceAccumulator where
  /-- `trace_id`. -/
  traceId : String
  /-- `repo`. -/
  repo : String
  /-- `span_count`. -/
  spanCount : ℕ
  /-- `error_count`. -/
  errorCount : ℕ
  /-- `start_time_unix_ms`. -/
  startTimeUnixMs : ℕ
  /-- `end_time_unix_ms`. -/
  endTimeUnixMs : Option ℕ
  /-- `availability_reasons`. -/
  availabilityReasons : List AvailabilityReason
  deriving DecidableEq

/-- `bounded_increment`. -/
def boundedIncrement (value amount : ℕ) : Except BuildError ℕ :=
  if value + amount ≤ dashboardSafeIntegerMax then .ok (value + amount) else .error .capacityExceeded

/-- `TraceAccumulator::new`. -/
def TraceAccumulator.new (span : ReportSpanV2 A) : TraceAccumulator where
  traceId := span.traceId
  repo := span.repo
  spanCount := 0
  errorCount := 0
  startTimeUnixMs := span.startTimeUnixMs
  endTimeUnixMs := span.endTimeUnixMs
  availabilityReasons := []

/-- The reasons of fields that have none yet are added. -/
def addReasons (reasons added : List AvailabilityReason) : List AvailabilityReason :=
  added.foldl (fun reasons reason =>
    if reasons.any fun existing => existing.field = reason.field then reasons else reasons ++ [reason]) reasons

/-- The later of two ends. -/
def laterEnd (prior : Option ℕ) : Option ℕ → Option ℕ
  | none => prior
  | some finish => some (prior.elim finish fun prior => max prior finish)

/-- `TraceAccumulator::push`. -/
def TraceAccumulator.push (acc : TraceAccumulator) (span : ReportSpanV2 A) : Except BuildError TraceAccumulator := do
  let spanCount ← boundedIncrement acc.spanCount 1
  let errorCount ← if span.status = .error then boundedIncrement acc.errorCount 1 else pure acc.errorCount
  pure { acc with
    spanCount, errorCount
    startTimeUnixMs := min acc.startTimeUnixMs span.startTimeUnixMs
    endTimeUnixMs := laterEnd acc.endTimeUnixMs span.endTimeUnixMs
    availabilityReasons := addReasons acc.availabilityReasons (Dashboard.availabilityReasons span) }

/-- `TraceScanCursor`. -/
structure TraceScanCursor where
  /-- `after`: the trace, the time and the span of the last row. -/
  after : Option (String × ℕ × String) := none
  /-- `partial`: the trace whose rows are being read. -/
  pending : Option TraceAccumulator := none
  deriving DecidableEq

/-- The parameters of the query. -/
def TraceScanCursor.position (cursor : TraceScanCursor) : TraceKey :=
  cursor.after.elim (toLex ("", toLex (⊥, ""))) fun after => toLex (after.1, toLex (WithBot.some after.2.1, after.2.2))

/-- `TraceScanBatch`, with `scanned` and `decoded_bytes` of the loop. -/
structure TraceScanBatch where
  /-- `rows`. -/
  rows : List TraceAccumulator := []
  /-- `cursor`. -/
  cursor : TraceScanCursor
  /-- `exhausted`. -/
  exhausted : Bool := false
  /-- `scanned`. -/
  scanned : ℕ := 0
  /-- `decoded_bytes`. -/
  decodedBytes : ℕ := 0

/-- `DASHBOARD_TRACE_PAGE_MAX_ROWS`. -/
def dashboardTracePageMaxRows : ℕ := 100

/-- A limit of the slice is reached. -/
def TraceScanBatch.full (late : ℕ → Bool) (batch : TraceScanBatch) : Bool :=
  0 < batch.scanned ∧
    (maxScanRows ≤ batch.scanned ∨ dashboardTracePageMaxRows ≤ batch.rows.length ∨ late batch.scanned)

/-- The pending trace is complete. -/
def TraceScanBatch.close (batch : TraceScanBatch) : TraceScanBatch :=
  { batch with rows := batch.rows ++ batch.cursor.pending.toList, cursor := { batch.cursor with pending := none } }

/-- There are no more rows. -/
def TraceScanBatch.exhaust (batch : TraceScanBatch) : TraceScanBatch := { batch.close with exhausted := true }

/-- The pending trace with a span, if the filters select it. -/
def pushMatching [Lowercase] (filters : DashboardFiltersV1) (pending : Option TraceAccumulator) (span : ReportSpanV2 A) :
    Except BuildError (Option TraceAccumulator) :=
  if matchesFilters span filters then ((pending.getD (.new span)).push span).map some else .ok pending

/-- The span of a row goes to the pending trace. -/
def TraceScanBatch.takeSpan [Amount A] [Lowercase] (filters : DashboardFiltersV1) (row : ViewRow A) (batch : TraceScanBatch) :
    Except BuildError TraceScanBatch := do
  let projected ← readSpan row.spanJson
  let pending ← pushMatching filters batch.cursor.pending projected
  pure { batch with
    cursor := ⟨some (row.traceId, row.startTimeUnixMs, row.spanId), pending⟩
    scanned := batch.scanned + 1
    decodedBytes := batch.decodedBytes + row.spanJson.bytes }

/-- A row of the loop of `scan_trace_rows`. -/
def takeTraceRow [Amount A] [Lowercase] (filters : DashboardFiltersV1) (row : ViewRow A) (batch : TraceScanBatch) :
    Except BuildError (Taken TraceScanBatch) := do
  if ← fits batch.decodedBytes row.spanJson then
    if batch.cursor.pending.any fun pending => pending.traceId ≠ row.traceId then
      if dashboardTracePageMaxRows ≤ batch.close.rows.length then pure (.stop batch.close)
      else (batch.close.takeSpan filters row).map .more
    else (batch.takeSpan filters row).map .more
  else pure (.stop batch)

/-- `scan_trace_rows`. -/
def scanTraceRows [Amount A] [Lowercase] (late : ℕ → Bool) (rows : List (ViewRow A)) (cursor : TraceScanCursor)
    (filters : DashboardFiltersV1) : Except BuildError TraceScanBatch :=
  readLoop (TraceScanBatch.full late) (takeTraceRow filters) TraceScanBatch.exhaust
    (((rowsAfter cursor.position (traceEntries rows)).map Prod.snd).take maxScanRows) { cursor }

/-! ### Values of a dimension -/

/-- `DimensionPosition`. -/
inductive DimensionPosition where
  /-- `Unbound`. -/
  | unbound
  /-- `V1`: the value, the time, the trace and the span of the last row. -/
  | v1 (after : Option (String × ℕ × String × String))
  /-- `V2`: the value and the order of the last row. -/
  | v2 (after : Option (String × ℕ))
  deriving DecidableEq

namespace DimensionPosition

/-- `new`. -/
def new : ReportViewKernel → DimensionPosition
  | .v1 => .v1 none
  | .v2 => .v2 none

/-- `bind`. -/
def bind (position : DimensionPosition) (kernel : ReportViewKernel) : Except BuildError DimensionPosition :=
  match position, kernel with
  | .unbound, kernel => .ok (new kernel)
  | .v1 after, .v1 => .ok (.v1 after)
  | .v2 after, .v2 => .ok (.v2 after)
  | _, _ => .error .invalidStagingState

/-- `parameters`. -/
def key : DimensionPosition → DimensionKey
  | .v1 (some (value, time, trace, span)) => toLex (value, toLex (WithBot.some time, toLex (trace, span)))
  | .v2 (some (value, order)) => toLex (value, toLex (WithBot.some order, toLex ("", "")))
  | _ => toLex ("", toLex (⊥, toLex ("", "")))

/-- `advance`. -/
def advance (position : DimensionPosition) (value : String) (row : ViewRow A) : Except BuildError DimensionPosition :=
  match position with
  | .v1 _ => .ok (.v1 (some (value, row.startTimeUnixMs, row.traceId, row.spanId)))
  | .v2 _ => .ok (.v2 (some (value, row.sourceOrder)))
  | .unbound => .error .invalidStagingState

end DimensionPosition

/-- The query of a dimension: the values with their rows, after the position. -/
def dimensionSource (kernel : ReportViewKernel) (column : Column) (rows : List (ViewRow A)) (after : DimensionPosition) :
    List (String × ViewRow A) :=
  (rowsAfter after.key (dimensionEntries kernel column rows)).map Prod.snd

/-- `FacetPhase`. -/
inductive FacetPhase where
  /-- `Repo`. -/
  | repo
  /-- `Session`. -/
  | session
  /-- `Agent`. -/
  | agent
  /-- `Model`. -/
  | model
  deriving DecidableEq

/-- `FacetPhase::next`. -/
def FacetPhase.next : FacetPhase → Option FacetPhase
  | .repo => some .session
  | .session => some .agent
  | .agent => some .model
  | .model => none

/-- The column of a phase. -/
def FacetPhase.column : FacetPhase → Column
  | .repo => .repo
  | .session => .session
  | .agent => .agent
  | .model => .model

/-- `FacetScanCursor`. -/
structure FacetScanCursor where
  /-- `phase`. -/
  phase : FacetPhase := .repo
  /-- `after`. -/
  after : DimensionPosition := .unbound
  /-- `last_emitted`. -/
  lastEmitted : Option String := none
  deriving DecidableEq

/-- `DashboardFacetRowV1`. -/
structure FacetRow where
  /-- `dimension`. -/
  dimension : FacetPhase
  /-- `value`. -/
  value : String
  deriving DecidableEq

/-- `FacetScanBatch`, with `scanned` and `decoded_bytes` of the loop. -/
structure FacetScanBatch where
  /-- `rows`. -/
  rows : List FacetRow := []
  /-- `cursor`. -/
  cursor : FacetScanCursor
  /-- `exhausted`. -/
  exhausted : Bool := false
  /-- `scanned`. -/
  scanned : ℕ := 0
  /-- `decoded_bytes`. -/
  decodedBytes : ℕ := 0

/-- `DASHBOARD_FACET_MAX_VALUES`. -/
def dashboardFacetMaxValues : ℕ := 500

/-- A limit of the slice is reached. -/
def FacetScanBatch.full (late : ℕ → Bool) (batch : FacetScanBatch) : Bool :=
  0 < batch.scanned ∧ (maxScanRows ≤ batch.scanned ∨ dashboardFacetMaxValues ≤ batch.rows.length ∨ late batch.scanned)

/-- There are no more rows of the phase. -/
def FacetScanBatch.exhaust (kernel : ReportViewKernel) (batch : FacetScanBatch) : FacetScanBatch :=
  match batch.cursor.phase.next with
  | some next => { batch with cursor := ⟨next, .new kernel, none⟩ }
  | none => { batch with exhausted := true }

/-- A row of the loop of `scan_facet_rows`. -/
def takeFacetRow [Amount A] [Lowercase] (filters : DashboardFiltersV1) (entry : String × ViewRow A) (batch : FacetScanBatch) :
    Except BuildError (Taken FacetScanBatch) := do
  if ← fits batch.decodedBytes entry.2.spanJson then do
    let projected ← readSpan entry.2.spanJson
    let emit := entry.1 ≠ "" && batch.cursor.lastEmitted ≠ some entry.1 && matchesFilters projected filters
    if emit && dashboardFacetMaxValues ≤ batch.rows.length then pure (.stop batch)
    else do
      let after ← batch.cursor.after.advance entry.1 entry.2
      pure (.more
        { batch with
          rows := if emit then batch.rows ++ [⟨batch.cursor.phase, entry.1⟩] else batch.rows
          cursor := ⟨batch.cursor.phase, after, if emit then some entry.1 else batch.cursor.lastEmitted⟩
          scanned := batch.scanned + 1
          decodedBytes := batch.decodedBytes + entry.2.spanJson.bytes })
  else pure (.stop batch)

/-- `scan_facet_rows`. -/
def scanFacetRows [Amount A] [Lowercase] (late : ℕ → Bool) (rows : List (ViewRow A)) (cursor : FacetScanCursor)
    (kernel : ReportViewKernel) (filters : DashboardFiltersV1) : Except BuildError FacetScanBatch := do
  let after ← cursor.after.bind kernel
  readLoop (FacetScanBatch.full late) (takeFacetRow filters) (FacetScanBatch.exhaust kernel)
    ((dimensionSource kernel cursor.phase.column rows after).take maxScanRows) { cursor := { cursor with after } }

/-! ### Identities -/

/-- `IdentityDimension`. -/
inductive IdentityDimension where
  /-- `Session`. -/
  | session
  /-- `Turn`. -/
  | turn
  deriving DecidableEq

/-- The column of a dimension. -/
def IdentityDimension.column : IdentityDimension → Column
  | .session => .session
  | .turn => .turn

/-- `IdentityScanCursor`. -/
structure IdentityScanCursor where
  /-- `after`. -/
  after : DimensionPosition := .unbound
  /-- `last_matching`. -/
  lastMatching : Option String := none
  /-- `distinct`. -/
  distinct : ℕ := 0
  deriving DecidableEq

/-- What the loop of `scan_identities` carries. -/
structure IdentityScan where
  /-- `next`. -/
  next : IdentityScanCursor
  /-- The scan returns that there are no more rows. -/
  exhausted : Bool := false
  /-- `ordinal`. -/
  scanned : ℕ := 0
  /-- `decoded`. -/
  decodedBytes : ℕ := 0

/-- A limit of the slice is reached. -/
def IdentityScan.full (late : ℕ → Bool) (scan : IdentityScan) : Bool :=
  0 < scan.scanned ∧ (maxScanRows ≤ scan.scanned ∨ late scan.scanned)

/-- A row of the loop of `scan_identities`. -/
def takeIdentityRow [Amount A] [Lowercase] (filters : DashboardFiltersV1) (entry : String × ViewRow A) (scan : IdentityScan) :
    Except BuildError (Taken IdentityScan) := do
  if ← fits scan.decodedBytes entry.2.spanJson then do
    let projected ← readSpan entry.2.spanJson
    let counts := entry.1 ≠ "" && scan.next.lastMatching ≠ some entry.1 && matchesFilters projected filters
    let distinct ← if counts then boundedIncrement scan.next.distinct 1 else pure scan.next.distinct
    let after ← scan.next.after.advance entry.1 entry.2
    pure (.more
      { scan with
        next := ⟨after, if counts then some entry.1 else scan.next.lastMatching, distinct⟩
        scanned := scan.scanned + 1
        decodedBytes := scan.decodedBytes + entry.2.spanJson.bytes })
  else pure (.stop scan)

/-- `scan_identities`. -/
def scanIdentities [Amount A] [Lowercase] (late : ℕ → Bool) (rows : List (ViewRow A)) (dimension : IdentityDimension)
    (kernel : ReportViewKernel) (cursor : IdentityScanCursor) (filters : DashboardFiltersV1) :
    Except BuildError IdentityScan := do
  let after ← cursor.after.bind kernel
  readLoop (IdentityScan.full late) (takeIdentityRow filters) (fun scan => { scan with exhausted := true })
    ((dimensionSource kernel dimension.column rows after).take maxScanRows) { next := { cursor with after } }

end AgentObservability.Dashboard
