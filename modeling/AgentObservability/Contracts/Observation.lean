import AgentObservability.Domain.Span

/-!
# What an adapter delivers

The contracts crate: an observation of one span by one source, the checkpoint a
disposition is delivered at, and the names under which sources, events, kinds
and dispositions are stored. Source payloads have no place in an observation.
-/

namespace AgentObservability.Contracts

open Domain

/-- The agents that are observed. -/
inductive AgentSource where
  /-- Codex. -/
  | codex
  /-- Claude Code. -/
  | claudeCode
  /-- Cursor. -/
  | cursor
  deriving DecidableEq, Repr

/-- `AgentSource::as_str`, which is also `source_name`. -/
def AgentSource.asStr : AgentSource → String
  | .codex => "codex"
  | .claudeCode => "claude-code"
  | .cursor => "cursor"

/-- Why an adapter delivers no observation. -/
inductive AdapterDispositionKind where
  /-- The input could not be used. -/
  | diagnostic
  /-- The input was recognised and left out. -/
  | suppressed
  deriving DecidableEq, Repr

/-- `AdapterDispositionKind::as_str`. -/
def AdapterDispositionKind.asStr : AdapterDispositionKind → String
  | .diagnostic => "diagnostic"
  | .suppressed => "suppressed"

/-- The reasons of a disposition. -/
inductive AdapterDispositionCode where
  /-- An event the adapter does not know. -/
  | unsupportedEvent
  /-- A variant of an event the adapter does not know. -/
  | unsupportedEventVariant
  /-- An event without the ids that place it. -/
  | missingCorrelation
  /-- A field of the wrong type. -/
  | invalidFieldType
  /-- An event that only carries content. -/
  | contentEventIgnored
  /-- A primary source reports the same. -/
  | primarySuperseded
  /-- The state observed is known already. -/
  | duplicateObservation
  /-- The trace has expired. -/
  | expiredTrace
  deriving DecidableEq, Repr

/-- `AdapterDispositionCode::as_str`. -/
def AdapterDispositionCode.asStr : AdapterDispositionCode → String
  | .unsupportedEvent => "unsupported_event"
  | .unsupportedEventVariant => "unsupported_event_variant"
  | .missingCorrelation => "missing_correlation"
  | .invalidFieldType => "invalid_field_type"
  | .contentEventIgnored => "content_event_ignored"
  | .primarySuperseded => "primary_superseded"
  | .duplicateObservation => "duplicate_observation"
  | .expiredTrace => "expired_trace"

/-- A position of a source stream and the position before it. -/
structure SourceCheckpoint where
  /-- `source`. -/
  source : AgentSource
  /-- `source_generation`. -/
  sourceGeneration : SourceGeneration
  /-- `previous_source_cursor`. -/
  previousSourceCursor : Option SourceCursor
  /-- `source_cursor`. -/
  sourceCursor : SourceCursor
  deriving DecidableEq

/-- What was observed. -/
inductive ObservationEvent where
  /-- A session. -/
  | session (model project : Option String)
  /-- A turn. -/
  | turn
  /-- A turn of a known project. -/
  | turnWithProject (project : String)
  /-- A request to a model. -/
  | modelRequest (model : Option String)
  /-- The run of a tool. -/
  | toolOperation (toolName phase : Option String)
  /-- A permission decision. -/
  | permission (decision : Option String)
  /-- A compaction. -/
  | compaction (trigger : Option String)
  deriving DecidableEq, Repr

/-- One observation of one span. -/
structure SourceObservation where
  /-- `source`. -/
  source : AgentSource
  /-- `source_generation`. -/
  sourceGeneration : SourceGeneration
  /-- `previous_source_cursor`. -/
  previousSourceCursor : Option SourceCursor
  /-- `source_cursor`. -/
  sourceCursor : SourceCursor
  /-- `observation_id`. -/
  observationId : ObservationId
  /-- `trace_id`. -/
  traceId : TraceId
  /-- `span_id`. -/
  spanId : SpanId
  /-- `parent_span_id`. -/
  parentSpanId : Option SpanId
  /-- `correlation`. -/
  correlation : CorrelationIds
  /-- `event`. -/
  event : ObservationEvent
  /-- `lifecycle`. -/
  lifecycle : LifecycleState
  /-- `timing`. -/
  timing : Timing
  /-- `token_usage`. -/
  tokenUsage : TokenUsage
  deriving DecidableEq

/-- The checkpoint an observation is delivered at. -/
def SourceObservation.checkpoint (o : SourceObservation) : SourceCheckpoint where
  source := o.source
  sourceGeneration := o.sourceGeneration
  previousSourceCursor := o.previousSourceCursor
  sourceCursor := o.sourceCursor

/-- `kind_for_event`, which the store repeats as `kind`. -/
def kindForEvent : ObservationEvent → SpanKind
  | .session _ _ => .agentSession
  | .turn | .turnWithProject _ => .turn
  | .modelRequest _ => .llmRequest
  | .toolOperation _ _ => .toolExecution
  | .permission _ => .permission
  | .compaction _ => .compaction

/-- The span kinds as records and columns spell them: `span_kind_serde` and `kind_name`. -/
def kindName : SpanKind → String
  | .workstream => "workstream"
  | .agentSession => "agent.session"
  | .turn => "turn"
  | .llmRequest => "llm.request"
  | .toolExecution => "tool.execution"
  | .permission => "permission"
  | .compaction => "compaction"

/-- `lifecycle_name`. -/
def lifecycleName : LifecycleState → String
  | .observed => "observed"
  | .running => "running"
  | .completed => "completed"
  | .failed => "failed"
  | .interrupted => "interrupted"

/-- `event_projection`: the event type, the record name, the model and the project of an event. -/
def eventProjection : ObservationEvent → String × String × Option String × Option String
  | .session model project => ("session", "session", model, project)
  | .turn => ("turn", "turn", none, none)
  | .turnWithProject project => ("turn", "turn", none, some project)
  | .modelRequest model => ("model_request", "llm.request", model, none)
  | .toolOperation _ _ => ("tool_operation", "tool.execution", none, none)
  | .permission _ => ("permission", "permission", none, none)
  | .compaction _ => ("compaction", "compaction", none, none)

/-- The state an observation reports, with the identifiers of the source. -/
def SourceObservation.rawState (o : SourceObservation) : DomainSpanState where
  traceId := o.traceId
  spanId := o.spanId
  parentSpanId := o.parentSpanId
  kind := kindForEvent o.event
  lifecycle := o.lifecycle
  correlation := o.correlation
  timing := o.timing
  tokenUsage := o.tokenUsage

end AgentObservability.Contracts
