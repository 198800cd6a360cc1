import AgentObservability.Contracts.Privacy
import AgentObservability.Dashboard.Summary
import AgentObservability.Foundation.OrderedMap
import Mathlib.Data.List.MinMax

/-!
# Cursor leases

`DashboardQueryService`: the requests of the dashboard, and the table of the
cursors that it has given out. A lease has what its cursor stands for: the scope
it was issued for and where the scan goes on. A cursor of traces or spans keeps
its lease when its page has been read, with the boundary of that page
(`ReplayBoundary`), so that it can be read again; a cursor of values or of a
summary is used up.

The store is an argument (`Store`), and does not change. Time is in milliseconds.
-/

namespace AgentObservability.Dashboard

open Domain Contracts Foundation Report

/-! ### Requests and responses -/

/-- `DashboardStatusReasonV1`. -/
inductive DashboardStatusReasonV1 where
  /-- `building`. -/
  | building
  /-- `refresh_pending`. -/
  | refreshPending
  /-- `snapshot_expired`. -/
  | snapshotExpired
  /-- `busy`. -/
  | busy
  /-- `capacity`. -/
  | capacity
  /-- `invalid_query`. -/
  | invalidQuery
  deriving DecidableEq

/-- `DashboardRequestKindV1`. -/
inductive DashboardRequestKindV1 where
  /-- `bootstrap`. -/
  | bootstrap
  /-- `traces`. -/
  | traces
  /-- `spans`. -/
  | spans
  /-- `summary`. -/
  | summary
  /-- `span`. -/
  | span
  /-- `facets`. -/
  | facets
  deriving DecidableEq

/-- `DashboardQueryRequestV1`. -/
inductive DashboardQueryRequestV1 where
  /-- `Bootstrap`. -/
  | bootstrap (filters : Option DashboardFiltersV1)
  /-- `Traces`. -/
  | traces (snapshotId : String) (filters : Option DashboardFiltersV1) (cursor : Option String)
  /-- `Spans`. -/
  | spans (snapshotId : String) (filters : Option DashboardFiltersV1) (traceId : String) (cursor : Option String)
  /-- `Summary`. -/
  | summary (snapshotId : String) (filters : Option DashboardFiltersV1) (cursor : Option String)
  /-- `Span`. -/
  | span (snapshotId : String) (filters : Option DashboardFiltersV1) (traceId spanId : String)
  /-- `Facets`. -/
  | facets (snapshotId : String) (filters : Option DashboardFiltersV1) (cursor : Option String)
  deriving DecidableEq

/-- `DashboardSpanRowV1`. -/
structure DashboardSpanRowV1 where
  /-- `trace_id`. -/
  traceId : String
  /-- `span_id`. -/
  spanId : String
  /-- `parent_span_id`. -/
  parentSpanId : Option String
  /-- `kind`. -/
  kind : String
  /-- `name`. -/
  name : String
  /-- `status`. -/
  status : String
  /-- `start_time_unix_ms`. -/
  startTimeUnixMs : ℕ
  /-- `end_time_unix_ms`. -/
  endTimeUnixMs : Option ℕ
  /-- `repo`. -/
  repo : String
  /-- `agent`. -/
  agent : Option String
  /-- `model`. -/
  model : Option String
  /-- `session_id`. -/
  sessionId : Option String
  /-- `turn_id`. -/
  turnId : Option String
  /-- `tool_name`. -/
  toolName : Option String
  /-- `availability_reasons`. -/
  availabilityReasons : List AvailabilityReason
  deriving DecidableEq

variable {A : Type}

/-- `span_row`. -/
def spanRow (span : ReportSpanV2 A) : DashboardSpanRowV1 where
  traceId := span.traceId
  spanId := span.spanId
  parentSpanId := span.parentSpanId
  kind := kindName span.kind
  name := span.name
  status := statusCode span.status
  startTimeUnixMs := span.startTimeUnixMs
  endTimeUnixMs := span.endTimeUnixMs
  repo := span.repo
  agent := span.agent.name
  model := span.agent.model
  sessionId := span.sessionId
  turnId := span.turnId
  toolName := span.toolName
  availabilityReasons := availabilityReasons span

/-- What a page has: rows, or the work of a summary. -/
inductive PageRows (A : Type) where
  /-- The rows of `DashboardTracesResponseV1`. -/
  | traces (rows : List TraceAccumulator)
  /-- The rows of `DashboardSpansResponseV1`. -/
  | spans (rows : List DashboardSpanRowV1)
  /-- The rows of `DashboardFacetsResponseV1`. -/
  | facets (rows : List FacetRow)
  /-- `DashboardWorkV1` of a summary: pending, or complete. -/
  | summary (work : Option (DashboardKpisV1 A))

/-- `DashboardQueryResponseV1`, with the next cursor of a page. -/
inductive DashboardQueryResponseV1 (A : Type) where
  /-- `Bootstrap`. -/
  | bootstrap
  /-- `Span`. -/
  | span (detail : ReportSpanV2 A)
  /-- `Traces`, `Spans`, `Facets` and `Summary`. -/
  | page (rows : PageRows A) (nextCursor : Option String)
  /-- `Status`. -/
  | status (reason : DashboardStatusReasonV1)

/-! ### The state of the service -/

/-- `CursorBinding`. -/
structure CursorBinding where
  /-- `snapshot_id`. -/
  snapshotId : String
  /-- `filter_fingerprint`, as hexadecimal text. -/
  filterFingerprint : String
  /-- `kind`. -/
  kind : DashboardRequestKindV1
  /-- `trace_id`. -/
  traceId : Option String
  deriving DecidableEq

/-- `CursorState`. -/
inductive CursorState (A : Type) where
  /-- `Traces`. -/
  | traces (cursor : TraceScanCursor)
  /-- `Spans`. -/
  | spans (cursor : SpanScanCursor)
  /-- `Summary`. -/
  | summary (progress : SummaryProgress A)
  /-- `Facets`. -/
  | facets (cursor : FacetScanCursor)

/-- `CursorState::same_position`. -/
def CursorState.samePosition : CursorState A → CursorState A → Bool
  | .traces left, .traces right => left = right
  | .spans left, .spans right => left = right
  | _, _ => false

/-- `ReplayBoundary`. -/
structure ReplayBoundary (A : Type) where
  /-- `output_state`. -/
  outputState : CursorState A
  /-- `exhausted`. -/
  exhausted : Bool
  /-- `next_cursor`. -/
  nextCursor : Option String

/-- `CursorLease`. -/
structure CursorLease (A : Type) where
  /-- `binding`. -/
  binding : CursorBinding
  /-- `state`. -/
  state : CursorState A
  /-- `created_at`. -/
  createdAt : ℕ
  /-- `last_used`. -/
  lastUsed : ℕ
  /-- `ordinal`. -/
  ordinal : ℕ
  /-- `replay`. -/
  replay : Option (ReplayBoundary A)

/-- `DashboardQueryService`. -/
structure DashboardQueryService (A : Type) where
  /-- `secret`. -/
  secret : List UInt8
  /-- `std::process::id`. -/
  processId : ℕ
  /-- `sequence`. -/
  sequence : ℕ
  /-- `leases`. -/
  leases : OrderedMap String (CursorLease A)

/-- `MAX_CURSOR_LEASES`. -/
def maxCursorLeases : ℕ := 16

/-- `CURSOR_IDLE_TTL`. -/
def cursorIdleTtl : ℕ := 2 * 60 * 1000

/-- `CURSOR_HARD_TTL`. -/
def cursorHardTtl : ℕ := 10 * 60 * 1000

/-- `is_history_kind`. -/
def isHistoryKind (kind : DashboardRequestKindV1) : Bool := kind = .traces ∨ kind = .spans

namespace DashboardQueryService

/-- `new`. -/
def new (secret : List UInt8) (processId : ℕ) : DashboardQueryService A where
  secret := secret
  processId := processId
  sequence := 0
  leases := .empty

/-- The service with other leases. -/
def withLeases (s : DashboardQueryService A) (leases : OrderedMap String (CursorLease A)) : DashboardQueryService A :=
  { s with leases }

/-- `prune_expired`. -/
def pruneExpired (s : DashboardQueryService A) (now : ℕ) : DashboardQueryService A :=
  s.withLeases (s.leases.filterMap fun lease =>
    if now - lease.lastUsed ≤ cursorIdleTtl ∧ now - lease.createdAt ≤ cursorHardTtl then some lease else none)

/-- `resolve_lease`. -/
def resolveLease (s : DashboardQueryService A) (cursorId : String) (binding : CursorBinding) (now : ℕ) :
    DashboardQueryService A × Except DashboardStatusReasonV1 (CursorLease A) :=
  match s.leases.get? cursorId with
  | none => (s, .error .snapshotExpired)
  | some lease =>
    if lease.binding ≠ binding then (s, .error .invalidQuery)
    else
      let lease := { lease with lastUsed := now }
      (s.withLeases (s.leases.insert cursorId lease), .ok lease)

/-- `u64::to_le_bytes` and `u32::to_le_bytes`. -/
def toLeBytes (size n : ℕ) : List UInt8 := (List.range size).map fun i => UInt8.ofNat (n / 256 ^ i)

/-- What the id of a cursor is the digest of. -/
def cursorMessage (secret : List UInt8) (processId sequence : ℕ) : List UInt8 :=
  secret ++ toLeBytes 4 processId ++ toLeBytes 8 sequence

/-- The lease with the lowest ordinal, but for a protected one. -/
def oldest (leases : OrderedMap String (CursorLease A)) (kept : Option String) : Option String :=
  ((leases.entries.filter fun entry => kept ≠ some entry.1).argmin fun entry => entry.2.ordinal).map Prod.fst

/-- `make_room`, with a bound on its rounds. -/
def makeRoomLoop (kept : Option String) : ℕ → OrderedMap String (CursorLease A) → OrderedMap String (CursorLease A)
  | 0, leases => leases
  | rounds + 1, leases =>
    if maxCursorLeases ≤ leases.entries.length then
      match oldest leases kept with
      | none => leases
      | some cursor => makeRoomLoop kept rounds (leases.erase cursor)
    else leases

/-- `make_room`. -/
def makeRoom (leases : OrderedMap String (CursorLease A)) (kept : Option String) : OrderedMap String (CursorLease A) :=
  makeRoomLoop kept leases.entries.length leases

variable [Sha2]

/-- `next_cursor_id`. -/
def nextCursorId (s : DashboardQueryService A) : DashboardQueryService A × String :=
  let sequence := (s.sequence + 1) % 2 ^ 64
  ({ s with sequence }, Sha2.hexDigest (cursorMessage s.secret s.processId sequence))

/-- `issue_lease`. A parent that is kept remembers the boundary of its page. -/
def issueLease (s : DashboardQueryService A) (parentId : Option String) (binding : CursorBinding) (state : CursorState A)
    (now : ℕ) : DashboardQueryService A × Except DashboardStatusReasonV1 String :=
  let issued := s.nextCursorId
  let lease (createdAt : ℕ) : CursorLease A :=
    { binding, state, createdAt, lastUsed := now, ordinal := issued.1.sequence, replay := none }
  match parentId with
  | none => (issued.1.withLeases ((makeRoom s.leases none).insert issued.2 (lease now)), .ok issued.2)
  | some id =>
    match s.leases.get? id with
    | none => (s, .error .snapshotExpired)
    | some parent =>
      if isHistoryKind binding.kind then
        let leases := (makeRoom s.leases (some id)).insert issued.2 (lease parent.createdAt)
        match leases.get? id with
        | none => (issued.1.withLeases leases, .error .snapshotExpired)
        | some parent =>
          (issued.1.withLeases (leases.insert id { parent with replay := some ⟨state, false, some issued.2⟩ }), .ok issued.2)
      else (issued.1.withLeases ((makeRoom (s.leases.erase id) (some id)).insert issued.2 (lease parent.createdAt)), .ok issued.2)

/-- The page of a lease is the one that was read before. -/
def faithful (s : DashboardQueryService A) (replay : ReplayBoundary A) (outputState : CursorState A) (exhausted : Bool) : Bool :=
  replay.exhausted = exhausted && replay.outputState.samePosition outputState &&
    replay.nextCursor.all fun cursor => (s.leases.get? cursor).isSome

/-- `finish_history_page`. -/
def finishHistoryPage (s : DashboardQueryService A) (parentId : Option String) (binding : CursorBinding)
    (outputState : CursorState A) (exhausted : Bool) (replay : Option (ReplayBoundary A)) (now : ℕ) :
    DashboardQueryService A × Except DashboardStatusReasonV1 (Option String) :=
  match replay with
  | some replay =>
    if s.faithful replay outputState exhausted then (s, .ok replay.nextCursor)
    else (parentId.elim s fun id => s.withLeases (s.leases.erase id), .error .snapshotExpired)
  | none =>
    if exhausted then
      match parentId with
      | none => (s, .ok none)
      | some id =>
        match s.leases.get? id with
        | none => (s, .error .snapshotExpired)
        | some parent =>
          (s.withLeases (s.leases.insert id { parent with replay := some ⟨outputState, true, none⟩ }), .ok none)
    else
      match s.issueLease parentId binding outputState now with
      | (s, .ok cursor) => (s, .ok (some cursor))
      | (s, .error reason) => (s, .error reason)

/-- The next cursor of a page of values or of a summary. -/
def finishConsumedPage (s : DashboardQueryService A) (parentId : Option String) (binding : CursorBinding)
    (outputState : CursorState A) (exhausted : Bool) (now : ℕ) :
    DashboardQueryService A × Except DashboardStatusReasonV1 (Option String) :=
  if exhausted then (s, .ok none)
  else
    match s.issueLease parentId binding outputState now with
    | (s, .ok cursor) => (s, .ok (some cursor))
    | (s, .error reason) => (s, .error reason)

end DashboardQueryService

/-! ### Queries -/

/-- A snapshot: its rows and its kernel. -/
structure Snapshot (A : Type) where
  /-- The rows of `spans`. -/
  rows : List (ViewRow A)
  /-- The kernel of the view. -/
  kernel : ReportViewKernel

/-- The store as the queries see it, and the checks of the contract on what comes in and goes out. -/
structure Store (A : Type) where
  /-- The response to a bootstrap. -/
  bootstrap : Except DashboardStatusReasonV1 Unit
  /-- `current_snapshot_state`. -/
  current : Except DashboardStatusReasonV1 Unit
  /-- `with_snapshot`. -/
  snapshot : String → Except DashboardStatusReasonV1 (Snapshot A)
  /-- The length of the request and `DashboardQueryRequestV1::validate`. -/
  admits : DashboardQueryRequestV1 → Bool
  /-- `DashboardQueryResponseV1::validate`: the status that a response is replaced by. -/
  refuses : DashboardQueryRequestV1 → DashboardQueryResponseV1 A → Option DashboardStatusReasonV1
  /-- A status passes its checks. -/
  acceptsStatus : ∀ request reason, refuses request (.status reason) = none

/-- `catalog_reason` of an error of a build. -/
def buildReason : BuildError → DashboardStatusReasonV1
  | .capacityExceeded => .capacity
  | _ => .invalidQuery

/-- `summary_catalog_error` and `catalog_reason`. -/
def summaryReason : SummaryAdvanceError → DashboardStatusReasonV1
  | .build e => buildReason e
  | .capacity => .capacity

/-- Values in their order, each once: `sort` and `dedup`. -/
def sortedValues (values : List String) : List String := (values.insertionSort (· ≤ ·)).destutter (· ≠ ·)

/-- `normalize_request`, of the filters. -/
def normalizeFilters [Lowercase] (filters : Option DashboardFiltersV1) : DashboardFiltersV1 :=
  let filters := filters.getD {}
  { repo := sortedValues filters.repo
    session := sortedValues filters.session
    agent := sortedValues filters.agent
    model := sortedValues filters.model
    text := filters.text.map Lowercase.toLowercase }

/-- `normalize_request`. -/
def normalizeRequest [Lowercase] : DashboardQueryRequestV1 → DashboardQueryRequestV1
  | .bootstrap filters => .bootstrap (some (normalizeFilters filters))
  | .traces snapshotId filters cursor => .traces snapshotId (some (normalizeFilters filters)) cursor
  | .spans snapshotId filters traceId cursor => .spans snapshotId (some (normalizeFilters filters)) traceId cursor
  | .summary snapshotId filters cursor => .summary snapshotId (some (normalizeFilters filters)) cursor
  | .span snapshotId filters traceId spanId => .span snapshotId (some (normalizeFilters filters)) traceId spanId
  | .facets snapshotId filters cursor => .facets snapshotId (some (normalizeFilters filters)) cursor

/-- What a cursor is issued for. -/
structure QueryScope where
  /-- The snapshot. -/
  snapshotId : String
  /-- The filters. -/
  filters : DashboardFiltersV1
  /-- The kind of the request. -/
  kind : DashboardRequestKindV1
  /-- The trace of spans. -/
  traceId : Option String
  deriving DecidableEq

/-- The JSON of filters: empty members are left out. -/
def filtersJson (filters : DashboardFiltersV1) : Text :=
  let values (key : String) (values : List String) : List (String × Text) :=
    if values.isEmpty then [] else [(key, Json.array (values.map Json.str))]
  Json.object (values "repo" filters.repo ++ values "session" filters.session ++ values "agent" filters.agent ++
    values "model" filters.model ++ Json.member "text" Json.str filters.text)

/-- `CursorBinding::new`. -/
def CursorBinding.new [Sha2] (scope : QueryScope) : CursorBinding where
  snapshotId := scope.snapshotId
  filterFingerprint := Sha2.hexDigest (utf8 (filtersJson scope.filters))
  kind := scope.kind
  traceId := scope.traceId

/-- A page that was scanned: its rows, where the scan goes on, and whether there is no more. -/
structure ScannedPage (A : Type) where
  /-- The rows. -/
  rows : PageRows A
  /-- The state after the page. -/
  output : CursorState A
  /-- There is no more. -/
  exhausted : Bool

variable [Sha2]

/-- A request for a page: `spans`, `traces`, `facets` and `summary`, which differ in the scan. -/
def page (scope : QueryScope) (start : CursorState A)
    (scan : CursorState A → Except DashboardStatusReasonV1 (ScannedPage A)) (cursorId : Option String) (now : ℕ)
    (s : DashboardQueryService A) : DashboardQueryService A × DashboardQueryResponseV1 A :=
  let binding := CursorBinding.new scope
  let resolved : DashboardQueryService A × Except DashboardStatusReasonV1 (CursorState A × Option (ReplayBoundary A)) :=
    match cursorId with
    | none => (s, .ok (start, none))
    | some id => ((s.resolveLease id binding now).1, (s.resolveLease id binding now).2.map fun lease => (lease.state, lease.replay))
  match resolved.2 with
  | .error reason => (resolved.1, .status reason)
  | .ok (state, replay) =>
    match scan state with
    | .error reason => (resolved.1, .status reason)
    | .ok scanned =>
      let finished :=
        if isHistoryKind scope.kind then
          resolved.1.finishHistoryPage cursorId binding scanned.output scanned.exhausted replay now
        else resolved.1.finishConsumedPage cursorId binding scanned.output scanned.exhausted now
      match finished.2 with
      | .error reason => (finished.1, .status reason)
      | .ok nextCursor => (finished.1, .page scanned.rows nextCursor)

variable [Amount A] [Lowercase]

/-- The scan of `spans`. -/
def scanSpansPage (store : Store A) (late : ℕ → Bool) (scope : QueryScope) (traceId : String) :
    CursorState A → Except DashboardStatusReasonV1 (ScannedPage A)
  | .spans cursor => do
    store.current
    let snapshot ← store.snapshot scope.snapshotId
    let batch ← (scanSpans late snapshot.rows cursor scope.filters (some traceId) 200).mapError buildReason
    pure ⟨.spans (batch.rows.map spanRow), .spans batch.cursor, batch.exhausted⟩
  | _ => .error .invalidQuery

/-- The scan of `traces`. -/
def scanTracesPage (store : Store A) (late : ℕ → Bool) (scope : QueryScope) :
    CursorState A → Except DashboardStatusReasonV1 (ScannedPage A)
  | .traces cursor => do
    store.current
    let snapshot ← store.snapshot scope.snapshotId
    let batch ← (scanTraceRows late snapshot.rows cursor scope.filters).mapError buildReason
    pure ⟨.traces batch.rows, .traces batch.cursor, batch.exhausted⟩
  | _ => .error .invalidQuery

/-- The scan of `facets`. -/
def scanFacetsPage (store : Store A) (late : ℕ → Bool) (scope : QueryScope) :
    CursorState A → Except DashboardStatusReasonV1 (ScannedPage A)
  | .facets cursor => do
    store.current
    let snapshot ← store.snapshot scope.snapshotId
    let batch ← (scanFacetRows late snapshot.rows cursor snapshot.kernel scope.filters).mapError buildReason
    pure ⟨.facets batch.rows, .facets batch.cursor, batch.exhausted⟩
  | _ => .error .invalidQuery

/-- The scan of `summary`. A complete summary has no state after it; the one before it stands there. -/
def scanSummaryPage (store : Store A) (late : ℕ → Bool) (scope : QueryScope) :
    CursorState A → Except DashboardStatusReasonV1 (ScannedPage A)
  | .summary progress => do
    store.current
    let snapshot ← store.snapshot scope.snapshotId
    match ← (advanceSummary late snapshot.rows progress snapshot.kernel scope.filters).mapError summaryReason with
    | .pending next => pure ⟨.summary none, .summary next, false⟩
    | .complete kpis => pure ⟨.summary (some kpis), .summary progress, true⟩
  | _ => .error .invalidQuery

omit [Sha2] in
/-- `span_detail`. -/
def spanDetail (store : Store A) (snapshotId : String) (filters : DashboardFiltersV1) (traceId spanId : String) :
    Except DashboardStatusReasonV1 (ReportSpanV2 A) := do
  store.current
  let snapshot ← store.snapshot snapshotId
  let row ← ofOption DashboardStatusReasonV1.invalidQuery
    (snapshot.rows.find? fun row => row.spanId = spanId ∧ row.traceId = traceId)
  let detail ← (readSpan row.spanJson).mapError buildReason
  require (matchesFilters detail filters = true) DashboardStatusReasonV1.invalidQuery
  pure detail

/-- The handlers of a request that is normal and valid. -/
def dispatch (store : Store A) (late : ℕ → Bool) (now : ℕ) (request : DashboardQueryRequestV1) (s : DashboardQueryService A) :
    DashboardQueryService A × DashboardQueryResponseV1 A :=
  match request with
  | .bootstrap _ =>
    match store.bootstrap with
    | .error reason => (s, .status reason)
    | .ok () => (s, .bootstrap)
  | .spans snapshotId filters traceId cursor =>
    let scope := ⟨snapshotId, filters.getD {}, .spans, some traceId⟩
    page scope (.spans {}) (scanSpansPage store late scope traceId) cursor now s
  | .summary snapshotId filters cursor =>
    let scope := ⟨snapshotId, filters.getD {}, .summary, none⟩
    page scope (.summary .spans) (scanSummaryPage store late scope) cursor now s
  | .span snapshotId filters traceId spanId =>
    match spanDetail store snapshotId (filters.getD {}) traceId spanId with
    | .error reason => (s, .status reason)
    | .ok detail => (s, .span detail)
  | .traces snapshotId filters cursor =>
    let scope := ⟨snapshotId, filters.getD {}, .traces, none⟩
    page scope (.traces {}) (scanTracesPage store late scope) cursor now s
  | .facets snapshotId filters cursor =>
    let scope := ⟨snapshotId, filters.getD {}, .facets, none⟩
    page scope (.facets {}) (scanFacetsPage store late scope) cursor now s

/-- `query_scoped`. -/
def query (store : Store A) (late : ℕ → Bool) (now : ℕ) (request : DashboardQueryRequestV1) (s : DashboardQueryService A) :
    DashboardQueryService A × DashboardQueryResponseV1 A :=
  if store.admits request then
    let answered := dispatch store late now (normalizeRequest request) (s.pruneExpired now)
    match store.refuses (normalizeRequest request) answered.2 with
    | some reason => (answered.1, .status reason)
    | none => answered
  else (s.pruneExpired now, .status .invalidQuery)

end AgentObservability.Dashboard
