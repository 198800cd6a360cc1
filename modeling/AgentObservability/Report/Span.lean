import AgentObservability.Contracts.Record

/-!
# Report spans

`ReportSpanV2`: what a report shows of one durable record, and its validation.
Numbers that come from a record are natural numbers, as there. Amounts of money
are floating point in the source; here they are of any type with the operations
that the code uses (`Amount`).
-/

namespace AgentObservability.Report

open Domain Contracts Foundation

/-- Amounts of money. -/
class Amount (A : Type) where
  /-- `0.0`. -/
  zero : A
  /-- The sum of two amounts. -/
  add : A → A → A
  /-- So many tokens at this rate for a million of them. -/
  ofTokens : ℕ → A → A
  /-- `round_currency`. -/
  round : A → A
  /-- `f64::is_finite`. -/
  isFinite : A → Bool
  /-- The amount is not below zero. -/
  nonneg : A → Bool
  /-- The amount is at most `DASHBOARD_ESTIMATED_COST_MAX`. -/
  withinMax : A → Bool
  /-- Zero is finite. -/
  isFinite_zero : isFinite zero = true
  /-- Zero is not below zero. -/
  nonneg_zero : nonneg zero = true
  /-- Zero is at most `DASHBOARD_ESTIMATED_COST_MAX`. -/
  withinMax_zero : withinMax zero = true
  /-- A sum of amounts that are not below zero is not below zero. -/
  nonneg_add : ∀ a b, nonneg a = true → nonneg b = true → nonneg (add a b) = true

/-- `AvailabilityStateV2`. -/
inductive AvailabilityStateV2 where
  /-- The value is there. -/
  | available
  /-- The source did not give it. -/
  | sourceUnavailable
  /-- It is held back. -/
  | withheld
  /-- Spans of the kind have none. -/
  | notApplicable
  /-- It can be looked up. -/
  | privateLookup
  deriving DecidableEq

/-- `FieldAvailabilityV2`. -/
structure FieldAvailabilityV2 where
  /-- `state`. -/
  state : AvailabilityStateV2 := .sourceUnavailable
  /-- `reason`. -/
  reason : String := "not_evaluated"
  deriving DecidableEq

/-- `ReportAvailabilityV2`. -/
structure ReportAvailabilityV2 where
  /-- `repository`. -/
  repository : FieldAvailabilityV2 := {}
  /-- `turn`. -/
  turn : FieldAvailabilityV2 := {}
  /-- `model`. -/
  model : FieldAvailabilityV2 := {}
  /-- `tokens`. -/
  tokens : FieldAvailabilityV2 := {}
  /-- `latency`. -/
  latency : FieldAvailabilityV2 := {}
  /-- `source_location`. -/
  sourceLocation : FieldAvailabilityV2 := {}
  /-- `request_content`. -/
  requestContent : FieldAvailabilityV2 := {}
  /-- `response_content`. -/
  responseContent : FieldAvailabilityV2 := {}
  deriving DecidableEq

/-- The fields of an availability, in the order of the contract. -/
def ReportAvailabilityV2.fields (a : ReportAvailabilityV2) : List FieldAvailabilityV2 :=
  [a.repository, a.turn, a.model, a.tokens, a.latency, a.sourceLocation, a.requestContent, a.responseContent]

/-- `ReportMetricsV1`. -/
structure ReportMetricsV1 where
  /-- `input_tokens`. -/
  inputTokens : Option ℕ := none
  /-- `output_tokens`. -/
  outputTokens : Option ℕ := none
  /-- `cached_input_tokens`. -/
  cachedInputTokens : Option ℕ := none
  /-- `cache_creation_input_tokens`. -/
  cacheCreationInputTokens : Option ℕ := none
  /-- `reasoning_output_tokens`. -/
  reasoningOutputTokens : Option ℕ := none
  /-- `total_tokens`. -/
  totalTokens : Option ℕ := none
  /-- `latency_ms`. -/
  latencyMs : Option ℕ := none
  /-- `duration_ms`. -/
  durationMs : Option ℕ := none
  /-- `total_input_tokens`. -/
  totalInputTokens : Option ℕ := none
  /-- `total_output_tokens`. -/
  totalOutputTokens : Option ℕ := none
  /-- `total_cached_input_tokens`. -/
  totalCachedInputTokens : Option ℕ := none
  /-- `total_reasoning_output_tokens`. -/
  totalReasoningOutputTokens : Option ℕ := none
  /-- `total_accumulated_tokens`. -/
  totalAccumulatedTokens : Option ℕ := none
  /-- `context_window_tokens`. -/
  contextWindowTokens : Option ℕ := none
  deriving DecidableEq

/-- `ReportAttributesV1`. -/
structure ReportAttributesV1 where
  /-- `source`. -/
  source : Option ScalarValueV1 := none
  /-- `event_type`. -/
  eventType : Option ScalarValueV1 := none
  /-- `envelope_type`. -/
  envelopeType : Option ScalarValueV1 := none
  /-- `session_id`. -/
  sessionId : Option ScalarValueV1 := none
  /-- `turn_id`. -/
  turnId : Option ScalarValueV1 := none
  /-- `request_id`. -/
  requestId : Option ScalarValueV1 := none
  /-- `call_id`. -/
  callId : Option ScalarValueV1 := none
  /-- `tool_name`. -/
  toolName : Option ScalarValueV1 := none
  /-- `phase`. -/
  phase : Option ScalarValueV1 := none
  /-- `exit_code`. -/
  exitCode : Option ScalarValueV1 := none
  /-- `sandbox`. -/
  sandbox : Option ScalarValueV1 := none
  /-- `approval`. -/
  approval : Option ScalarValueV1 := none
  deriving DecidableEq

/-- `CostComponentV1`. -/
structure CostComponentV1 (A : Type) where
  /-- `tokens`. -/
  tokens : ℕ
  /-- `rate_per_1m`. -/
  ratePer1m : A
  /-- `estimated_cost`. -/
  estimatedCost : A
  deriving DecidableEq

/-- `CostEstimateV1`, with its `RateTableRefV1` and its `CostDetailV1`. -/
structure CostEstimateV1 (A : Type) where
  /-- `status`. -/
  status : String
  /-- `reason`. -/
  reason : Option String := none
  /-- `estimated_cost`. -/
  estimatedCost : Option A := none
  /-- `currency`. -/
  currency : Option String := none
  /-- `model`. -/
  model : Option String := none
  /-- `rate_table.version`. -/
  rateTableVersion : Option String := none
  /-- `rate_table.unit`. -/
  rateTableUnit : Option String := none
  /-- `cost.assumption`. -/
  assumption : String := ""
  /-- `cost.missing`. -/
  missing : List String := []
  /-- `cost.semantic_errors`. -/
  semanticErrors : List String := []
  /-- `cost.components`, in the order of their keys. -/
  components : List (String × CostComponentV1 A) := []
  deriving DecidableEq

/-- `ReportSpanV2`. -/
structure ReportSpanV2 (A : Type) where
  /-- `schema_version`. -/
  schemaVersion : String
  /-- `trace_id`. -/
  traceId : String
  /-- `span_id`. -/
  spanId : String
  /-- `parent_span_id`. -/
  parentSpanId : Option String
  /-- `kind`. -/
  kind : SpanKind
  /-- `name`. -/
  name : String
  /-- `status`. -/
  status : StatusCode
  /-- `start_time_unix_ms`. -/
  startTimeUnixMs : ℕ
  /-- `end_time_unix_ms`. -/
  endTimeUnixMs : Option ℕ
  /-- `repo`. -/
  repo : String
  /-- `agent`. -/
  agent : AgentV1
  /-- `availability`. -/
  availability : ReportAvailabilityV2
  /-- `session_id`. -/
  sessionId : Option String
  /-- `turn_id`. -/
  turnId : Option String
  /-- `tool_name`. -/
  toolName : Option String
  /-- `attributes`. -/
  attributes : ReportAttributesV1
  /-- `metrics`. -/
  metrics : ReportMetricsV1
  /-- `estimated_cost`. -/
  estimatedCost : Option A
  /-- `cost`. -/
  cost : CostEstimateV1 A
  deriving DecidableEq

/-! ### Validation -/

/-- `report_token_metrics_present`. -/
def reportTokenMetricsPresent (m : ReportMetricsV1) : Bool :=
  m.inputTokens.isSome || m.outputTokens.isSome || m.totalTokens.isSome || m.totalInputTokens.isSome ||
    m.totalOutputTokens.isSome || m.totalAccumulatedTokens.isSome

/-- `report_token_total_present`. -/
def reportTokenTotalPresent (m : ReportMetricsV1) : Bool :=
  m.totalTokens.isSome || m.totalAccumulatedTokens.isSome || (m.inputTokens.isSome && m.outputTokens.isSome) ||
    (m.totalInputTokens.isSome && m.totalOutputTokens.isSome)

/-- The reasons that go with a state. -/
def canonicalReasons : AvailabilityStateV2 → List String
  | .available => ["reported_by_adapter", "derived_from_trace_context", "legacy_v1_report"]
  | .sourceUnavailable =>
    ["source_not_provided", "not_evaluated", "partial_token_metrics", "historical_codex_source_not_lookup_eligible",
      "codex_notify_turn_correlation_unavailable", "ambiguous_trace_repository", "legacy_v1_report"]
  | .notApplicable =>
    ["span_kind_not_model_backed", "span_kind_has_no_latency", "span_kind_has_no_token_usage",
      "claude_private_lookup_not_supported", "cursor_private_lookup_not_supported", "codex_span_not_notify_derived",
      "agent_private_lookup_not_supported"]
  | .privateLookup => ["local_opt_in_lookup_required"]
  | .withheld => ["withheld_by_privacy_policy"]

/-- `valid_availability_reason`. -/
def validAvailabilityReason (field : FieldAvailabilityV2) : Bool := field.reason ∈ canonicalReasons field.state

/-- The availability of tokens agrees with the metrics. -/
def tokenAvailabilityValid (m : ReportMetricsV1) (tokens : FieldAvailabilityV2) : Bool :=
  if reportTokenTotalPresent m then tokens.state = .available
  else if reportTokenMetricsPresent m then
    tokens.state = .sourceUnavailable ∧ tokens.reason = "partial_token_metrics"
  else tokens.state ≠ .available

variable {A : Type} [Amount A]

/-- `validate_cost`. -/
def CostEstimateV1.valid (cost : CostEstimateV1 A) : Bool :=
  (cost.status = "estimated" ∨ cost.status = "incomplete" ∨ cost.status = "unknown") ∧
    cost.estimatedCost.all Amount.isFinite ∧
    cost.components.all fun c => Amount.isFinite c.2.ratePer1m && Amount.isFinite c.2.estimatedCost

/-- `ReportSpanV2::validate`. The checks that numbers are finite hold of the naturals. -/
def ReportSpanV2.valid (span : ReportSpanV2 A) : Bool :=
  tokenAvailabilityValid span.metrics span.availability.tokens ∧
    span.availability.fields.all validAvailabilityReason ∧ span.estimatedCost.all Amount.isFinite ∧ span.cost.valid

end AgentObservability.Report
