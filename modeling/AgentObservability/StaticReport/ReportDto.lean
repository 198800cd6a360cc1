import AgentObservability.Foundation.JsonSpelling
import AgentObservability.Foundation.OrderedMap
import AgentObservability.Report.Span

/-!
# The report on the wire

`ReportDtoV2` with all that it carries, its validation, and the JSON document that is
made of it. A number of 64 bits in floating point is of any type that says which of them
are finite, and how `serde_json` writes those (`Float64`).
-/

namespace AgentObservability.StaticReport

open Domain Foundation Foundation.Json
open Contracts (kindName StatusCode)
open Report (AvailabilityStateV2 FieldAvailabilityV2 ReportAvailabilityV2 validAvailabilityReason)

/-- `f64`, with what `serde_json` writes for it. -/
class Float64 (F : Type) where
  /-- `f64::is_finite`. -/
  isFinite : F → Bool
  /-- The text of a finite number. -/
  text : F → String
  /-- It has digits, signs, a point and an exponent. -/
  text_chars : ∀ x, isFinite x = true → ∀ c ∈ (text x).toList, c.isDigit = true ∨ c ∈ ['-', '+', '.', 'e']

variable {F : Type}

/-! ### The records -/

/-- `ReportSummaryV1`. -/
structure ReportSummaryV1 (F : Type) where
  /-- `generated_spans`. -/
  generatedSpans : UInt64
  /-- `sessions`. -/
  sessions : UInt64
  /-- `turns`. -/
  turns : UInt64
  /-- `llm_requests`. -/
  llmRequests : UInt64
  /-- `tool_executions`. -/
  toolExecutions : UInt64
  /-- `errors`. -/
  errors : UInt64
  /-- `input_tokens`. -/
  inputTokens : UInt64
  /-- `output_tokens`. -/
  outputTokens : UInt64
  /-- `cached_input_tokens`. -/
  cachedInputTokens : UInt64
  /-- `cache_creation_input_tokens`. -/
  cacheCreationInputTokens : UInt64
  /-- `reasoning_output_tokens`. -/
  reasoningOutputTokens : UInt64
  /-- `latency_ms`. -/
  latencyMs : UInt64
  /-- `duration_ms`. -/
  durationMs : UInt64
  /-- `estimated_cost`. -/
  estimatedCost : F

/-- `ReportFiltersV1`. -/
structure ReportFiltersV1 where
  /-- `repos`. -/
  repos : List String
  /-- `sessions`. -/
  sessions : List String
  /-- `turns`. -/
  turns : List String
  /-- `agents`. -/
  agents : List String
  /-- `models`. -/
  models : List String

/-- `CostComponentV1`. -/
structure CostComponentV1 (F : Type) where
  /-- `tokens`. -/
  tokens : F
  /-- `rate_per_1m`. -/
  ratePer1m : F
  /-- `estimated_cost`. -/
  estimatedCost : F

/-- `CostDetailV1`. -/
structure CostDetailV1 (F : Type) where
  /-- `assumption`. -/
  assumption : String
  /-- `incomplete_count`. -/
  incompleteCount : Option UInt64
  /-- `unknown_count`. -/
  unknownCount : Option UInt64
  /-- `missing`. -/
  missing : List String
  /-- `semantic_errors`. -/
  semanticErrors : List String
  /-- `components`. -/
  components : OrderedMap String (CostComponentV1 F)

/-- `RateTableRefV1`. -/
structure RateTableRefV1 where
  /-- `version`. -/
  version : Option String
  /-- `unit`. -/
  unit : Option String

/-- `CostEstimateV1`. -/
structure CostEstimateV1 (F : Type) where
  /-- `status`. -/
  status : String
  /-- `reason`. -/
  reason : Option String
  /-- `estimated_cost`. -/
  estimatedCost : Option F
  /-- `currency`. -/
  currency : Option String
  /-- `model`. -/
  model : Option String
  /-- `rate_table`. -/
  rateTable : RateTableRefV1
  /-- `cost`. -/
  cost : CostDetailV1 F

/-- `ReportMetricsV1`. -/
structure ReportMetricsV1 (F : Type) where
  /-- `input_tokens`. -/
  inputTokens : Option F
  /-- `output_tokens`. -/
  outputTokens : Option F
  /-- `cached_input_tokens`. -/
  cachedInputTokens : Option F
  /-- `cache_creation_input_tokens`. -/
  cacheCreationInputTokens : Option F
  /-- `reasoning_output_tokens`. -/
  reasoningOutputTokens : Option F
  /-- `total_tokens`. -/
  totalTokens : Option F
  /-- `latency_ms`. -/
  latencyMs : Option F
  /-- `duration_ms`. -/
  durationMs : Option F
  /-- `total_input_tokens`. -/
  totalInputTokens : Option F
  /-- `total_output_tokens`. -/
  totalOutputTokens : Option F
  /-- `total_cached_input_tokens`. -/
  totalCachedInputTokens : Option F
  /-- `total_reasoning_output_tokens`. -/
  totalReasoningOutputTokens : Option F
  /-- `total_accumulated_tokens`. -/
  totalAccumulatedTokens : Option F
  /-- `context_window_tokens`. -/
  contextWindowTokens : Option F

/-- `ReportAgentV1`. -/
structure ReportAgentV1 where
  /-- `name`. -/
  name : Option String
  /-- `model`. -/
  model : Option String
  /-- `version`. -/
  version : Option String

/-- `ScalarValueV1`. -/
inductive ScalarValueV1 (F : Type) where
  /-- `Boolean`. -/
  | boolean (value : Bool)
  /-- `Number`. -/
  | number (value : F)
  /-- `String`. -/
  | string (value : String)

/-- `ReportAttributesV1`. -/
structure ReportAttributesV1 (F : Type) where
  /-- `source`. -/
  source : Option (ScalarValueV1 F)
  /-- `event_type`. -/
  eventType : Option (ScalarValueV1 F)
  /-- `envelope_type`. -/
  envelopeType : Option (ScalarValueV1 F)
  /-- `session_id`. -/
  sessionId : Option (ScalarValueV1 F)
  /-- `turn_id`. -/
  turnId : Option (ScalarValueV1 F)
  /-- `request_id`. -/
  requestId : Option (ScalarValueV1 F)
  /-- `call_id`. -/
  callId : Option (ScalarValueV1 F)
  /-- `tool_name`. -/
  toolName : Option (ScalarValueV1 F)
  /-- `phase`. -/
  phase : Option (ScalarValueV1 F)
  /-- `exit_code`. -/
  exitCode : Option (ScalarValueV1 F)
  /-- `sandbox`. -/
  sandbox : Option (ScalarValueV1 F)
  /-- `approval`. -/
  approval : Option (ScalarValueV1 F)

/-- `ReportSpanV2`. -/
structure ReportSpanV2 (F : Type) where
  /-- `schema_version`. -/
  schemaVersion : String
  /-- `trace_id`. -/
  traceId : String
  /-- `span_id`. -/
  spanId : String
  /-- `parent_span_id`. -/
  parentSpanId : Option String
  /-- `kind`. -/
  kind : SpanKind
  /-- `name`. -/
  name : String
  /-- `status`. -/
  status : StatusCode
  /-- `start_time_unix_ms`. -/
  startTimeUnixMs : F
  /-- `end_time_unix_ms`. -/
  endTimeUnixMs : Option F
  /-- `repo`. -/
  repo : String
  /-- `agent`. -/
  agent : ReportAgentV1
  /-- `availability`. -/
  availability : ReportAvailabilityV2
  /-- `session_id`. -/
  sessionId : Option String
  /-- `turn_id`. -/
  turnId : Option String
  /-- `tool_name`. -/
  toolName : Option String
  /-- `attributes`. -/
  attributes : ReportAttributesV1 F
  /-- `metrics`. -/
  metrics : ReportMetricsV1 F
  /-- `estimated_cost`. -/
  estimatedCost : Option F
  /-- `cost`. -/
  cost : CostEstimateV1 F

/-- `TraceSummaryV1`. -/
structure TraceSummaryV1 (F : Type) where
  /-- `trace_id`. -/
  traceId : String
  /-- `repo`. -/
  repo : String
  /-- `spans`. -/
  spans : UInt64
  /-- `errors`. -/
  errors : UInt64
  /-- `input_tokens`. -/
  inputTokens : UInt64
  /-- `output_tokens`. -/
  outputTokens : UInt64
  /-- `estimated_cost`. -/
  estimatedCost : F
  /-- `start_time_unix_ms`. -/
  startTimeUnixMs : F
  /-- `end_time_unix_ms`. -/
  endTimeUnixMs : Option F
  /-- `sessions`. -/
  sessions : List String
  /-- `turns`. -/
  turns : List String

/-- `ReportDtoV2`. -/
structure ReportDtoV2 (F : Type) where
  /-- `schema_version`. -/
  schemaVersion : String
  /-- `generated_at`. -/
  generatedAt : String
  /-- `title`. -/
  title : String
  /-- `summary`. -/
  summary : ReportSummaryV1 F
  /-- `cost`. -/
  cost : CostEstimateV1 F
  /-- `filters`. -/
  filters : ReportFiltersV1
  /-- `traces`. -/
  traces : List (TraceSummaryV1 F)
  /-- `spans`. -/
  spans : List (ReportSpanV2 F)

/-- The metrics under the names they have on the wire. -/
def ReportMetricsV1.fields (m : ReportMetricsV1 F) : List (String × Option F) :=
  [("inputTokens", m.inputTokens), ("outputTokens", m.outputTokens), ("cachedInputTokens", m.cachedInputTokens),
    ("cacheCreationInputTokens", m.cacheCreationInputTokens), ("reasoningOutputTokens", m.reasoningOutputTokens),
    ("totalTokens", m.totalTokens), ("latencyMs", m.latencyMs), ("durationMs", m.durationMs),
    ("totalInputTokens", m.totalInputTokens), ("totalOutputTokens", m.totalOutputTokens),
    ("totalCachedInputTokens", m.totalCachedInputTokens), ("totalReasoningOutputTokens", m.totalReasoningOutputTokens),
    ("totalAccumulatedTokens", m.totalAccumulatedTokens), ("contextWindowTokens", m.contextWindowTokens)]

/-- The attributes under the names they have on the wire. -/
def ReportAttributesV1.fields (a : ReportAttributesV1 F) : List (String × Option (ScalarValueV1 F)) :=
  [("source", a.source), ("event_type", a.eventType), ("envelope_type", a.envelopeType), ("session_id", a.sessionId),
    ("turn_id", a.turnId), ("request_id", a.requestId), ("call_id", a.callId), ("tool_name", a.toolName), ("phase", a.phase),
    ("exit_code", a.exitCode), ("sandbox", a.sandbox), ("approval", a.approval)]

/-! ### Validation -/

/-- The errors of `ReportDtoV2::validate`. -/
inductive ContractError where
  /-- `InvalidReportVersion`. -/
  | invalidReportVersion
  /-- `NonFiniteNumber`. -/
  | nonFiniteNumber
  /-- `ContradictoryReportAvailability`. -/
  | contradictoryReportAvailability
  /-- `InvalidCostStatus`. -/
  | invalidCostStatus
  deriving DecidableEq

/-- `REPORT_DTO_VERSION`. -/
def reportDtoVersion : String := "agent_observability.report.v2"

/-- `report_token_metrics_present`. -/
def reportTokenMetricsPresent (m : ReportMetricsV1 F) : Bool :=
  m.inputTokens.isSome || m.outputTokens.isSome || m.totalTokens.isSome || m.totalInputTokens.isSome ||
    m.totalOutputTokens.isSome || m.totalAccumulatedTokens.isSome

/-- `report_token_total_present`. -/
def reportTokenTotalPresent (m : ReportMetricsV1 F) : Bool :=
  m.totalTokens.isSome || m.totalAccumulatedTokens.isSome || (m.inputTokens.isSome && m.outputTokens.isSome) ||
    (m.totalInputTokens.isSome && m.totalOutputTokens.isSome)

/-- The availability of tokens agrees with the metrics. -/
def tokenAvailabilityValid (m : ReportMetricsV1 F) (tokens : FieldAvailabilityV2) : Bool :=
  if reportTokenTotalPresent m then tokens.state = .available
  else if reportTokenMetricsPresent m then
    tokens.state = .sourceUnavailable ∧ tokens.reason = "partial_token_metrics"
  else tokens.state ≠ .available

variable [Float64 F]

/-- `validate_finite`. -/
def validateFinite (value : F) : Except ContractError Unit := require (Float64.isFinite value) .nonFiniteNumber

/-- `validate_scalar`. -/
def validateScalar : ScalarValueV1 F → Except ContractError Unit
  | .number value => validateFinite value
  | .boolean _ | .string _ => pure ()

/-- `validate_report_attributes`. -/
def validateReportAttributes (attributes : ReportAttributesV1 F) : Except ContractError Unit :=
  (attributes.fields.filterMap (·.2)).forM validateScalar

/-- `validate_report_metrics`. -/
def validateReportMetrics (metrics : ReportMetricsV1 F) : Except ContractError Unit :=
  (metrics.fields.filterMap (·.2)).forM validateFinite

/-- `validate_cost`. -/
def validateCost (cost : CostEstimateV1 F) : Except ContractError Unit := do
  require (cost.status = "estimated" ∨ cost.status = "incomplete" ∨ cost.status = "unknown") ContractError.invalidCostStatus
  cost.estimatedCost.toList.forM validateFinite
  cost.cost.components.entries.forM fun entry => do
    validateFinite entry.2.tokens
    validateFinite entry.2.ratePer1m
    validateFinite entry.2.estimatedCost

/-- `ReportSpanV2::validate`. -/
def ReportSpanV2.validate (span : ReportSpanV2 F) : Except ContractError Unit := do
  validateFinite span.startTimeUnixMs
  span.endTimeUnixMs.toList.forM validateFinite
  validateReportAttributes span.attributes
  validateReportMetrics span.metrics
  require (tokenAvailabilityValid span.metrics span.availability.tokens) ContractError.contradictoryReportAvailability
  require (span.availability.fields.all validAvailabilityReason) ContractError.contradictoryReportAvailability
  span.estimatedCost.toList.forM validateFinite
  validateCost span.cost

/-- `ReportDtoV2::validate`. -/
def ReportDtoV2.validate (report : ReportDtoV2 F) : Except ContractError Unit := do
  require (report.schemaVersion = reportDtoVersion) ContractError.invalidReportVersion
  validateFinite report.summary.estimatedCost
  validateCost report.cost
  report.traces.forM fun trace => do
    validateFinite trace.estimatedCost
    validateFinite trace.startTimeUnixMs
    trace.endTimeUnixMs.toList.forM validateFinite
  report.spans.forM ReportSpanV2.validate

/-! ### The document -/

/-- An integer. -/
def integer (n : UInt64) : Value := .number (.posInt n)

/-- A floating-point number, which is `null` if it is not finite. -/
def float (x : F) : Value := if Float64.isFinite x then .number (.other (Float64.text x)) else .null

omit [Float64 F] in
/-- A value that may be absent. -/
def nullable {α : Type} (value : α → Value) : Option α → Value
  | some a => value a
  | none => .null

/-- A member that is skipped when it is absent. -/
def skipped {α : Type} (value : α → Value) (member : String × Option α) : List (String × Value) :=
  member.2.toList.map fun a => (member.1, value a)

/-- Strings. -/
def strings (items : List String) : Value := .array (items.map .string)

/-- A list that is skipped when it is empty. -/
def skippedStrings (key : String) (items : List String) : List (String × Value) :=
  if items.isEmpty then [] else [(key, strings items)]

/-- `ReportSummaryV1` as a document. -/
def ReportSummaryV1.toValue (s : ReportSummaryV1 F) : Value :=
  .object [("generatedSpans", integer s.generatedSpans), ("sessions", integer s.sessions), ("turns", integer s.turns),
    ("llmRequests", integer s.llmRequests), ("toolExecutions", integer s.toolExecutions), ("errors", integer s.errors),
    ("inputTokens", integer s.inputTokens), ("outputTokens", integer s.outputTokens),
    ("cachedInputTokens", integer s.cachedInputTokens),
    ("cacheCreationInputTokens", integer s.cacheCreationInputTokens),
    ("reasoningOutputTokens", integer s.reasoningOutputTokens), ("latencyMs", integer s.latencyMs),
    ("durationMs", integer s.durationMs), ("estimatedCost", float s.estimatedCost)]

/-- `ReportFiltersV1` as a document. -/
def ReportFiltersV1.toValue (f : ReportFiltersV1) : Value :=
  .object [("repos", strings f.repos), ("sessions", strings f.sessions), ("turns", strings f.turns),
    ("agents", strings f.agents), ("models", strings f.models)]

/-- `CostComponentV1` as a document. -/
def CostComponentV1.toValue (c : CostComponentV1 F) : Value :=
  .object [("tokens", float c.tokens), ("rate_per_1m", float c.ratePer1m), ("estimated_cost", float c.estimatedCost)]

/-- `CostDetailV1` as a document. -/
def CostDetailV1.toValue (d : CostDetailV1 F) : Value :=
  .object (("assumption", .string d.assumption) :: skipped integer ("incomplete_count", d.incompleteCount) ++
    skipped integer ("unknown_count", d.unknownCount) ++ skippedStrings "missing" d.missing ++
    skippedStrings "semantic_errors" d.semanticErrors ++
    if d.components.entries.isEmpty then [] else
      [("components", .object (d.components.entries.map fun entry => (entry.1, entry.2.toValue)))])

/-- `RateTableRefV1` as a document. -/
def RateTableRefV1.toValue (r : RateTableRefV1) : Value :=
  .object (skipped .string ("version", r.version) ++ skipped .string ("unit", r.unit))

/-- `CostEstimateV1` as a document. -/
def CostEstimateV1.toValue (c : CostEstimateV1 F) : Value :=
  .object (("status", .string c.status) :: skipped .string ("reason", c.reason) ++
    skipped float ("estimated_cost", c.estimatedCost) ++ skipped .string ("currency", c.currency) ++
    skipped .string ("model", c.model) ++ [("rate_table", c.rateTable.toValue), ("cost", c.cost.toValue)])

/-- `ReportMetricsV1` as a document. -/
def ReportMetricsV1.toValue (m : ReportMetricsV1 F) : Value := .object (m.fields.flatMap (skipped float))

/-- `ReportAgentV1` as a document. -/
def ReportAgentV1.toValue (a : ReportAgentV1) : Value :=
  .object (skipped .string ("name", a.name) ++ skipped .string ("model", a.model) ++ skipped .string ("version", a.version))

/-- `ScalarValueV1` as a document. -/
def ScalarValueV1.toValue : ScalarValueV1 F → Value
  | .boolean value => .bool value
  | .number value => float value
  | .string value => .string value

/-- `ReportAttributesV1` as a document. -/
def ReportAttributesV1.toValue (a : ReportAttributesV1 F) : Value :=
  .object (a.fields.flatMap (skipped ScalarValueV1.toValue))

/-- `AvailabilityStateV2` on the wire. -/
def stateName : AvailabilityStateV2 → String
  | .available => "available"
  | .sourceUnavailable => "source_unavailable"
  | .withheld => "withheld"
  | .notApplicable => "not_applicable"
  | .privateLookup => "private_lookup"

/-- `FieldAvailabilityV2` as a document. -/
def availabilityValue (a : FieldAvailabilityV2) : Value :=
  .object [("state", .string (stateName a.state)), ("reason", .string a.reason)]

/-- `ReportAvailabilityV2` as a document. -/
def reportAvailabilityValue (a : ReportAvailabilityV2) : Value :=
  .object [("repository", availabilityValue a.repository), ("turn", availabilityValue a.turn),
    ("model", availabilityValue a.model), ("tokens", availabilityValue a.tokens), ("latency", availabilityValue a.latency),
    ("sourceLocation", availabilityValue a.sourceLocation), ("requestContent", availabilityValue a.requestContent),
    ("responseContent", availabilityValue a.responseContent)]

/-- `status_code_serde`. -/
def statusName : StatusCode → String
  | .unset => "unset"
  | .ok => "ok"
  | .error => "error"

/-- `ReportSpanV2` as a document. -/
def ReportSpanV2.toValue (s : ReportSpanV2 F) : Value :=
  .object ([("schemaVersion", .string s.schemaVersion), ("traceId", .string s.traceId), ("spanId", .string s.spanId),
    ("parentSpanId", nullable .string s.parentSpanId), ("kind", .string (kindName s.kind)), ("name", .string s.name),
    ("status", .string (statusName s.status)), ("startTimeUnixMs", float s.startTimeUnixMs),
    ("endTimeUnixMs", nullable float s.endTimeUnixMs), ("repo", .string s.repo), ("agent", s.agent.toValue),
    ("availability", reportAvailabilityValue s.availability)] ++
    skipped .string ("sessionId", s.sessionId) ++ skipped .string ("turnId", s.turnId) ++
    skipped .string ("toolName", s.toolName) ++ [("attributes", s.attributes.toValue), ("metrics", s.metrics.toValue)] ++
    skipped float ("estimatedCost", s.estimatedCost) ++ [("cost", s.cost.toValue)])

/-- `TraceSummaryV1` as a document. -/
def TraceSummaryV1.toValue (t : TraceSummaryV1 F) : Value :=
  .object [("traceId", .string t.traceId), ("repo", .string t.repo), ("spans", integer t.spans), ("errors", integer t.errors),
    ("inputTokens", integer t.inputTokens), ("outputTokens", integer t.outputTokens),
    ("estimatedCost", float t.estimatedCost), ("startTimeUnixMs", float t.startTimeUnixMs),
    ("endTimeUnixMs", nullable float t.endTimeUnixMs), ("sessions", strings t.sessions), ("turns", strings t.turns)]

/-- `ReportDtoV2` as a document. -/
def ReportDtoV2.toValue (r : ReportDtoV2 F) : Value :=
  .object [("schemaVersion", .string r.schemaVersion), ("generatedAt", .string r.generatedAt), ("title", .string r.title),
    ("summary", r.summary.toValue), ("cost", r.cost.toValue), ("filters", r.filters.toValue),
    ("traces", .array (r.traces.map TraceSummaryV1.toValue)), ("spans", .array (r.spans.map ReportSpanV2.toValue))]

/-! ### The numbers of the document -/

variable (F) in
/-- The numbers of a document that are no `u64` are floating-point numbers. -/
def FloatNumbers (v : Value) : Prop :=
  ∀ text ∈ v.numberTexts, ∃ x : F, Float64.isFinite x = true ∧ Float64.text x = text

@[simp] theorem floatNumbers_string (s : String) : FloatNumbers F (.string s) := nofun

@[simp] theorem floatNumbers_bool (b : Bool) : FloatNumbers F (.bool b) := nofun

@[simp] theorem floatNumbers_null : FloatNumbers F .null := nofun

@[simp] theorem floatNumbers_integer (n : UInt64) : FloatNumbers F (integer n) := nofun

@[simp] theorem floatNumbers_float (x : F) : FloatNumbers F (float x) := by
  unfold float
  split_ifs with hfinite
  · intro text htext
    exact ⟨x, hfinite, (List.mem_singleton.mp htext).symm⟩
  · exact floatNumbers_null

@[simp] theorem floatNumbers_array {items : List Value} :
    FloatNumbers F (.array items) ↔ ∀ item ∈ items, FloatNumbers F item := by
  simp only [FloatNumbers, Value.numberTexts, Value.mem_itemNumberTexts]
  exact ⟨fun h item hitem text ht => h text ⟨item, hitem, ht⟩, fun h text ⟨item, hitem, ht⟩ => h item hitem text ht⟩

@[simp] theorem floatNumbers_object {members : List (String × Value)} :
    FloatNumbers F (.object members) ↔ ∀ member ∈ members, FloatNumbers F member.2 := by
  simp only [FloatNumbers, Value.numberTexts, Value.mem_memberNumberTexts]
  exact ⟨fun h member hm text ht => h text ⟨member, hm, ht⟩, fun h text ⟨member, hm, ht⟩ => h member hm text ht⟩

@[simp] theorem floatNumbers_strings (items : List String) : FloatNumbers F (strings items) := by
  simp [strings]

@[simp] theorem floatNumbers_nullable {α : Type} {value : α → Value} (h : ∀ a, FloatNumbers F (value a)) (a : Option α) :
    FloatNumbers F (nullable value a) := by
  cases a with
  | none => exact floatNumbers_null
  | some a => exact h a

theorem floatNumbers_skipped {α : Type} {value : α → Value} (h : ∀ a, FloatNumbers F (value a)) {member : String × Option α}
    {m : String × Value} (hm : m ∈ skipped value member) : FloatNumbers F m.2 := by
  obtain ⟨a, -, rfl⟩ := List.mem_map.mp hm
  exact h a

theorem floatNumbers_skippedStrings {key : String} {items : List String} {m : String × Value}
    (hm : m ∈ skippedStrings key items) : FloatNumbers F m.2 := by
  unfold skippedStrings at hm
  split_ifs at hm
  · cases hm
  · rw [List.mem_singleton.mp hm]
    exact floatNumbers_strings items

@[simp] theorem ScalarValueV1.floatNumbers (value : ScalarValueV1 F) : FloatNumbers F value.toValue := by
  cases value <;> simp [toValue]

@[simp] theorem CostComponentV1.floatNumbers (c : CostComponentV1 F) : FloatNumbers F c.toValue := by
  simp [toValue]

@[simp] theorem CostDetailV1.floatNumbers (d : CostDetailV1 F) : FloatNumbers F d.toValue := by
  rw [toValue, floatNumbers_object]
  intro m hm
  simp only [List.cons_append, List.mem_cons, List.mem_append] at hm
  rcases hm with rfl | (((hm | hm) | hm) | hm) | hm
  · exact floatNumbers_string _
  · exact floatNumbers_skipped floatNumbers_integer hm
  · exact floatNumbers_skipped floatNumbers_integer hm
  · exact floatNumbers_skippedStrings hm
  · exact floatNumbers_skippedStrings hm
  · split_ifs at hm
    · cases hm
    · rw [List.mem_singleton.mp hm, floatNumbers_object]
      intro member hmember
      obtain ⟨entry, -, rfl⟩ := List.mem_map.mp hmember
      exact entry.2.floatNumbers

@[simp] theorem RateTableRefV1.floatNumbers (r : RateTableRefV1) : FloatNumbers F r.toValue := by
  rw [toValue, floatNumbers_object]
  intro m hm
  rcases List.mem_append.mp hm with hm | hm <;> exact floatNumbers_skipped floatNumbers_string hm

@[simp] theorem ReportAgentV1.floatNumbers (a : ReportAgentV1) : FloatNumbers F a.toValue := by
  rw [toValue, floatNumbers_object]
  intro m hm
  simp only [List.mem_append] at hm
  rcases hm with (hm | hm) | hm <;> exact floatNumbers_skipped floatNumbers_string hm

@[simp] theorem CostEstimateV1.floatNumbers (c : CostEstimateV1 F) : FloatNumbers F c.toValue := by
  rw [toValue, floatNumbers_object]
  intro m hm
  simp only [List.cons_append, List.mem_cons, List.mem_append, List.not_mem_nil, or_false] at hm
  rcases hm with rfl | (((hm | hm) | hm) | hm) | rfl | rfl
  · exact floatNumbers_string _
  · exact floatNumbers_skipped floatNumbers_string hm
  · exact floatNumbers_skipped floatNumbers_float hm
  · exact floatNumbers_skipped floatNumbers_string hm
  · exact floatNumbers_skipped floatNumbers_string hm
  · exact RateTableRefV1.floatNumbers _
  · exact CostDetailV1.floatNumbers _

@[simp] theorem ReportMetricsV1.floatNumbers (m : ReportMetricsV1 F) : FloatNumbers F m.toValue := by
  rw [toValue, floatNumbers_object]
  intro m hm
  obtain ⟨field, -, hm⟩ := List.mem_flatMap.mp hm
  exact floatNumbers_skipped floatNumbers_float hm

@[simp] theorem ReportAttributesV1.floatNumbers (a : ReportAttributesV1 F) : FloatNumbers F a.toValue := by
  rw [toValue, floatNumbers_object]
  intro m hm
  obtain ⟨field, -, hm⟩ := List.mem_flatMap.mp hm
  exact floatNumbers_skipped ScalarValueV1.floatNumbers hm

@[simp] theorem floatNumbers_reportAvailabilityValue (a : ReportAvailabilityV2) :
    FloatNumbers F (reportAvailabilityValue a) := by
  simp [reportAvailabilityValue, availabilityValue]

@[simp] theorem ReportSummaryV1.floatNumbers (s : ReportSummaryV1 F) : FloatNumbers F s.toValue := by
  simp [toValue]

@[simp] theorem ReportFiltersV1.floatNumbers (f : ReportFiltersV1) : FloatNumbers F f.toValue := by
  simp [toValue]

@[simp] theorem TraceSummaryV1.floatNumbers (t : TraceSummaryV1 F) : FloatNumbers F t.toValue := by
  simp [toValue]

@[simp] theorem ReportSpanV2.floatNumbers (s : ReportSpanV2 F) : FloatNumbers F s.toValue := by
  rw [toValue, floatNumbers_object]
  intro m hm
  simp only [List.mem_append] at hm
  rcases hm with (((((hm | hm) | hm) | hm) | hm) | hm) | hm
  · revert m
    simp
  · exact floatNumbers_skipped floatNumbers_string hm
  · exact floatNumbers_skipped floatNumbers_string hm
  · exact floatNumbers_skipped floatNumbers_string hm
  · revert m
    simp
  · exact floatNumbers_skipped floatNumbers_float hm
  · revert m
    simp

/-- **Every number of the document is a `u64` or a floating-point number of the report.** -/
theorem ReportDtoV2.floatNumbers (r : ReportDtoV2 F) : FloatNumbers F r.toValue := by
  simp [toValue]

end AgentObservability.StaticReport
