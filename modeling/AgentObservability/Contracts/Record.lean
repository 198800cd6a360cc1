import AgentObservability.Contracts.Observation
import AgentObservability.Contracts.Privacy
import AgentObservability.Foundation.Attempt
import Mathlib.Data.List.Sort
import Mathlib.Data.List.Destutter
import Mathlib.Data.String.Basic

/-!
# Durable records

The record that the store keeps of a span: its projection from an observation and
the reduced state, the sanitization that every record passes before it is stored,
and the JSON text of both. Numbers of the record are floating point in the
source; every one it holds is an integer that a float represents exactly, and is
that natural number here. Content never crosses the boundary, so a content value
is kept as its JSON text and is always absent.

## What is proved

A record that is stored is the sanitized projection and passes validation
(`durableRecord_ok`): its fields are functions of the observation and the state.
-/

namespace AgentObservability.Contracts

open Domain Foundation

/-- The errors of the contracts crate that a record can meet. -/
inductive ContractError where
  /-- The observation is not one of the span of the state. -/
  | projectionIdentityMismatch
  /-- A number that a float does not represent exactly. -/
  | integerPrecisionLoss
  /-- The record ends before it starts. -/
  | endBeforeStart
  /-- Not a span record of this version. -/
  | invalidDurableHeader
  /-- A record without a trace, a span or a name. -/
  | missingDurableIdentity
  /-- An optional text that is present and empty. -/
  | emptyOptionalString
  deriving DecidableEq, Repr

/-- The status of a record. -/
inductive StatusCode where
  /-- Not known yet. -/
  | unset
  /-- Ended well. -/
  | ok
  /-- Ended badly. -/
  | error
  deriving DecidableEq, Repr

/-- `ScalarValueV1`. -/
inductive ScalarValueV1 where
  /-- A truth value. -/
  | boolean (value : Bool)
  /-- A number. -/
  | number (value : ℕ)
  /-- A text. -/
  | string (value : String)
  deriving DecidableEq, Repr

/-- `AgentV1`. -/
structure AgentV1 where
  /-- `name`. -/
  name : Option String := none
  /-- `version`. -/
  version : Option String := none
  /-- `model`. -/
  model : Option String := none
  deriving DecidableEq

/-- `ProjectV1`. -/
structure ProjectV1 where
  /-- `name`. -/
  name : Option String := none
  /-- `repo_path`. -/
  repoPath : Option String := none
  deriving DecidableEq

/-- `AttributesV1`. -/
structure AttributesV1 where
  /-- `source`. -/
  source : Option ScalarValueV1 := none
  /-- `event_type`. -/
  eventType : Option ScalarValueV1 := none
  /-- `envelope_type`. -/
  envelopeType : Option ScalarValueV1 := none
  /-- `session_id`. -/
  sessionId : Option ScalarValueV1 := none
  /-- `turn_id`. -/
  turnId : Option ScalarValueV1 := none
  /-- `request_id`. -/
  requestId : Option ScalarValueV1 := none
  /-- `call_id`. -/
  callId : Option ScalarValueV1 := none
  /-- `tool_name`. -/
  toolName : Option ScalarValueV1 := none
  /-- `phase`. -/
  phase : Option ScalarValueV1 := none
  /-- `exit_code`. -/
  exitCode : Option ScalarValueV1 := none
  /-- `sandbox`. -/
  sandbox : Option ScalarValueV1 := none
  /-- `approval`. -/
  approval : Option ScalarValueV1 := none
  /-- `permission_id`. -/
  permissionId : Option ScalarValueV1 := none
  /-- `decision`. -/
  decision : Option ScalarValueV1 := none
  /-- `command_kind`. -/
  commandKind : Option ScalarValueV1 := none
  /-- `compaction_id`. -/
  compactionId : Option ScalarValueV1 := none
  /-- `trigger`. -/
  trigger : Option ScalarValueV1 := none
  deriving DecidableEq

/-- `MetricsV1`. -/
structure MetricsV1 where
  /-- `input_tokens`. -/
  inputTokens : Option ℕ := none
  /-- `output_tokens`. -/
  outputTokens : Option ℕ := none
  /-- `cached_input_tokens`. -/
  cachedInputTokens : Option ℕ := none
  /-- `cache_creation_input_tokens`. -/
  cacheCreationInputTokens : Option ℕ := none
  /-- `reasoning_output_tokens`. -/
  reasoningOutputTokens : Option ℕ := none
  /-- `total_tokens`. -/
  totalTokens : Option ℕ := none
  /-- `total_input_tokens`. -/
  totalInputTokens : Option ℕ := none
  /-- `total_output_tokens`. -/
  totalOutputTokens : Option ℕ := none
  /-- `total_cached_input_tokens`. -/
  totalCachedInputTokens : Option ℕ := none
  /-- `total_reasoning_output_tokens`. -/
  totalReasoningOutputTokens : Option ℕ := none
  /-- `total_accumulated_tokens`. -/
  totalAccumulatedTokens : Option ℕ := none
  /-- `context_window_tokens`. -/
  contextWindowTokens : Option ℕ := none
  /-- `input_tokens_before`. -/
  inputTokensBefore : Option ℕ := none
  /-- `input_tokens_after`. -/
  inputTokensAfter : Option ℕ := none
  /-- `latency_ms`. -/
  latencyMs : Option ℕ := none
  /-- `duration_ms`. -/
  durationMs : Option ℕ := none
  deriving DecidableEq

/-- `ContentV1`, each value as its JSON text. -/
structure ContentV1 where
  /-- `prompt`. -/
  prompt : Option Text := none
  /-- `output`. -/
  output : Option Text := none
  /-- `tool_input`. -/
  toolInput : Option Text := none
  /-- `tool_output`. -/
  toolOutput : Option Text := none
  deriving DecidableEq

/-- `RedactionV1`. -/
structure RedactionV1 where
  /-- `applied`. -/
  applied : Bool
  /-- `count`. -/
  count : ℕ
  /-- `fields`. -/
  fields : List String
  deriving DecidableEq

/-- `DurableRecordV1`. -/
structure DurableRecordV1 where
  /-- `schema_version`. -/
  schemaVersion : String
  /-- `record_type`. -/
  recordType : String
  /-- `trace_id`. -/
  traceId : String
  /-- `span_id`. -/
  spanId : String
  /-- `parent_span_id`. -/
  parentSpanId : Option String
  /-- `span_kind`. -/
  spanKind : SpanKind
  /-- `name`. -/
  name : String
  /-- `start_time_unix_ms`. -/
  startTimeUnixMs : ℕ
  /-- `end_time_unix_ms`. -/
  endTimeUnixMs : Option ℕ
  /-- `status.code`. -/
  status : StatusCode
  /-- `agent`. -/
  agent : AgentV1
  /-- `project`. -/
  project : ProjectV1
  /-- `attributes`. -/
  attributes : AttributesV1
  /-- `metrics`. -/
  metrics : MetricsV1
  /-- `content`. -/
  content : ContentV1
  /-- `redaction`. -/
  redaction : RedactionV1
  deriving DecidableEq

/-- `DURABLE_RECORD_VERSION`. -/
def durableRecordVersion : String := "agent_observability.v1"

/-! ### Validation -/

/-- `validate_optional_nonempty`. -/
def validateOptionalNonempty (value : Option String) : Except ContractError Unit :=
  require (value ≠ some "") .emptyOptionalString

/-- `DurableRecordV1::validate`. The checks that numbers are finite and metrics
not negative hold of the naturals. -/
def DurableRecordV1.validate (r : DurableRecordV1) : Except ContractError Unit := do
  require (r.schemaVersion = durableRecordVersion ∧ r.recordType = "span") .invalidDurableHeader
  require (r.traceId ≠ "" ∧ r.spanId ≠ "" ∧ r.name ≠ "") .missingDurableIdentity
  require (r.endTimeUnixMs.all fun e => r.startTimeUnixMs ≤ e) .endBeforeStart
  validateOptionalNonempty r.parentSpanId
  validateOptionalNonempty r.agent.name
  validateOptionalNonempty r.agent.version
  validateOptionalNonempty r.agent.model
  validateOptionalNonempty r.project.name
  validateOptionalNonempty r.project.repoPath

/-! ### Projection -/

/-- `exact_json_integer`: the bound is the largest integer below which floats are exact. -/
def exactJsonInteger (value : ℕ) : Except ContractError ℕ :=
  if 2 ^ 53 - 1 < value then .error .integerPrecisionLoss else .ok value

/-- `.map(exact_json_integer).transpose()`. -/
def exactJsonOptional : Option ℕ → Except ContractError (Option ℕ)
  | none => .ok none
  | some value => (exactJsonInteger value).map some

/-- `status_for_lifecycle`. -/
def statusForLifecycle : LifecycleState → StatusCode
  | .observed | .running => .unset
  | .completed => .ok
  | .failed | .interrupted => .error

/-- `metrics_from_usage`. -/
def metricsFromUsage (usage : TokenUsage) : Except ContractError MetricsV1 := do
  let inputTokens ← exactJsonOptional usage.input
  let outputTokens ← exactJsonOptional usage.output
  let cachedInputTokens ← exactJsonOptional usage.cachedInput
  let cacheCreationInputTokens ← exactJsonOptional usage.cacheCreationInput
  let reasoningOutputTokens ← exactJsonOptional usage.reasoningOutput
  let totalTokens ← exactJsonOptional usage.total
  let totalInputTokens ← exactJsonOptional usage.totalInput
  let totalOutputTokens ← exactJsonOptional usage.totalOutput
  let totalCachedInputTokens ← exactJsonOptional usage.totalCachedInput
  let totalReasoningOutputTokens ← exactJsonOptional usage.totalReasoningOutput
  let totalAccumulatedTokens ← exactJsonOptional usage.totalAccumulated
  let contextWindowTokens ← exactJsonOptional usage.contextWindow
  let inputTokensBefore ← exactJsonOptional usage.inputBefore
  let inputTokensAfter ← exactJsonOptional usage.inputAfter
  pure { inputTokens, outputTokens, cachedInputTokens, cacheCreationInputTokens, reasoningOutputTokens,
         totalTokens, totalInputTokens, totalOutputTokens, totalCachedInputTokens, totalReasoningOutputTokens,
         totalAccumulatedTokens, contextWindowTokens, inputTokensBefore, inputTokensAfter }

/-- `scalar_id`, which is also `scalar_string`. -/
def scalarString (value : Option String) : Option ScalarValueV1 := value.map .string

/-- `scalar_id` of an identifier. -/
def scalarId (value : Option Identifier) : Option ScalarValueV1 := scalarString (value.map (·.asStr))

/-- The tool name of an event. -/
def ObservationEvent.toolName : ObservationEvent → Option String
  | .toolOperation toolName _ => toolName
  | _ => none

/-- The phase of an event. -/
def ObservationEvent.phase : ObservationEvent → Option String
  | .toolOperation _ phase => phase
  | _ => none

/-- The decision of an event. -/
def ObservationEvent.decision : ObservationEvent → Option String
  | .permission decision => decision
  | _ => none

/-- The trigger of an event. -/
def ObservationEvent.trigger : ObservationEvent → Option String
  | .compaction trigger => trigger
  | _ => none

/-- `project_attributes`. -/
def projectAttributes (o : SourceObservation) (s : DomainSpanState) : AttributesV1 where
  source := some (.string o.source.asStr)
  eventType := some (.string (eventProjection o.event).1)
  sessionId := scalarId s.correlation.sessionId
  turnId := scalarId s.correlation.turnId
  requestId := scalarId s.correlation.requestId
  callId := scalarId s.correlation.operationId
  permissionId := scalarId s.correlation.permissionId
  compactionId := scalarId s.correlation.compactionId
  toolName := scalarString o.event.toolName
  phase := scalarString o.event.phase
  decision := scalarString o.event.decision
  trigger := scalarString o.event.trigger

/-- `project_durable_record`. -/
def projectDurableRecord (o : SourceObservation) (s : DomainSpanState) : Except ContractError DurableRecordV1 := do
  require (o.traceId = s.traceId ∧ o.spanId = s.spanId ∧ o.parentSpanId = s.parentSpanId ∧
    s.kind = kindForEvent o.event) .projectionIdentityMismatch
  let startTimeUnixMs ← exactJsonInteger s.timing.startUnixMs
  let endTimeUnixMs ← exactJsonOptional s.timing.endUnixMs
  let metrics ← metricsFromUsage s.tokenUsage
  let record : DurableRecordV1 :=
    { schemaVersion := durableRecordVersion
      recordType := "span"
      traceId := o.traceId.asStr
      spanId := o.spanId.asStr
      parentSpanId := o.parentSpanId.map (·.asStr)
      spanKind := s.kind
      name := (eventProjection o.event).2.1
      startTimeUnixMs, endTimeUnixMs
      status := statusForLifecycle s.lifecycle
      agent := { name := some o.source.asStr, model := (eventProjection o.event).2.2.1 }
      project := { name := (eventProjection o.event).2.2.2 }
      attributes := projectAttributes o s
      metrics
      content := {}
      redaction := { applied := true, count := 4, fields := ["prompt", "output", "tool_input", "tool_output"] } }
  record.validate
  pure record

/-! ### Sanitization -/

section Sanitization

variable [Sha2]

/-- The name of a field whose value was replaced. -/
def replaced {α : Type} [DecidableEq α] (before after : α) (field : String) : List String :=
  if after = before then [] else [field]

/-- `hash_record_id`: the value it leaves. -/
def hashRecordId (value : String) : String := hashOpaqueIdentifier value

/-- `sanitize_optional_text`: the value it leaves. -/
def sanitizeOptionalText (value : Option String) (key : String) : Option String :=
  value.map (redactSensitiveText · key)

/-- The attributes that are identifiers. -/
def identifierAttributes : List String :=
  ["session_id", "turn_id", "request_id", "call_id", "permission_id", "compaction_id"]

/-- `sanitize_scalar`: the value it leaves. -/
def sanitizeScalar (value : Option ScalarValueV1) (key : String) : Option ScalarValueV1 :=
  match value with
  | some (.string current) =>
    some (.string (if key ∈ identifierAttributes then hashOpaqueIdentifier current
      else redactSensitiveText current key))
  | value => value

/-- `sanitize_attributes`: the attributes it leaves. -/
def sanitizeAttributes (a : AttributesV1) : AttributesV1 where
  source := sanitizeScalar a.source "source"
  eventType := sanitizeScalar a.eventType "event_type"
  envelopeType := sanitizeScalar a.envelopeType "envelope_type"
  sessionId := sanitizeScalar a.sessionId "session_id"
  turnId := sanitizeScalar a.turnId "turn_id"
  requestId := sanitizeScalar a.requestId "request_id"
  callId := sanitizeScalar a.callId "call_id"
  toolName := sanitizeScalar a.toolName "tool_name"
  phase := sanitizeScalar a.phase "phase"
  exitCode := sanitizeScalar a.exitCode "exit_code"
  sandbox := sanitizeScalar a.sandbox "sandbox"
  approval := sanitizeScalar a.approval "approval"
  permissionId := sanitizeScalar a.permissionId "permission_id"
  decision := sanitizeScalar a.decision "decision"
  commandKind := sanitizeScalar a.commandKind "command_kind"
  compactionId := sanitizeScalar a.compactionId "compaction_id"
  trigger := sanitizeScalar a.trigger "trigger"

/-- The fields that `sanitize_attributes` reports, in its order. -/
def replacedAttributes (a : AttributesV1) : List String :=
  let b := sanitizeAttributes a
  replaced a.source b.source "attributes.source" ++ replaced a.eventType b.eventType "attributes.event_type" ++
  replaced a.envelopeType b.envelopeType "attributes.envelope_type" ++
  replaced a.sessionId b.sessionId "attributes.session_id" ++ replaced a.turnId b.turnId "attributes.turn_id" ++
  replaced a.requestId b.requestId "attributes.request_id" ++ replaced a.callId b.callId "attributes.call_id" ++
  replaced a.toolName b.toolName "attributes.tool_name" ++ replaced a.phase b.phase "attributes.phase" ++
  replaced a.exitCode b.exitCode "attributes.exit_code" ++ replaced a.sandbox b.sandbox "attributes.sandbox" ++
  replaced a.approval b.approval "attributes.approval" ++
  replaced a.permissionId b.permissionId "attributes.permission_id" ++
  replaced a.decision b.decision "attributes.decision" ++
  replaced a.commandKind b.commandKind "attributes.command_kind" ++
  replaced a.compactionId b.compactionId "attributes.compaction_id" ++
  replaced a.trigger b.trigger "attributes.trigger"

/-- The sanitized record, with its redaction as it was. -/
def sanitizeFields (r : DurableRecordV1) : DurableRecordV1 :=
  { r with
    traceId := hashRecordId r.traceId
    spanId := hashRecordId r.spanId
    parentSpanId := r.parentSpanId.map hashRecordId
    agent :=
      { name := sanitizeOptionalText r.agent.name "agent.name"
        version := sanitizeOptionalText r.agent.version "agent.version"
        model := sanitizeOptionalText r.agent.model "agent.model" }
    project :=
      { name := sanitizeOptionalText r.project.name "project.name"
        repoPath := sanitizeOptionalText r.project.repoPath "project.repo_path" }
    attributes := sanitizeAttributes r.attributes
    name := redactSensitiveText r.name "name"
    content := {} }

/-- The fields that the sanitization reports, in its order. -/
def replacedFields (r : DurableRecordV1) : List String :=
  let s := sanitizeFields r
  replaced r.traceId s.traceId "trace_id" ++ replaced r.spanId s.spanId "span_id" ++
  replaced r.parentSpanId s.parentSpanId "parent_span_id" ++
  replaced r.agent.name s.agent.name "agent.name" ++ replaced r.agent.version s.agent.version "agent.version" ++
  replaced r.agent.model s.agent.model "agent.model" ++
  replaced r.project.name s.project.name "project.name" ++
  replaced r.project.repoPath s.project.repoPath "project.repo_path" ++
  replacedAttributes r.attributes ++ replaced r.name s.name "name" ++
  replaced r.content.prompt none "content.prompt" ++ replaced r.content.output none "content.output" ++
  replaced r.content.toolInput none "content.tool_input" ++
  replaced r.content.toolOutput none "content.tool_output"

/-- `fields.sort(); fields.dedup()`. -/
def sortDedup (fields : List String) : List String :=
  (fields.insertionSort fun a b => a ≤ b).destutter (· ≠ ·)

/-- The record that the sanitization leaves. -/
def sanitized (r : DurableRecordV1) : DurableRecordV1 :=
  { sanitizeFields r with
    redaction :=
      { applied := r.redaction.applied || !(replacedFields r).isEmpty
        count := min (r.redaction.count + (replacedFields r).length) (2 ^ 64 - 1)
        fields := sortDedup (r.redaction.fields ++ replacedFields r) } }

/-- `sanitize_owned_durable_record`, which is also `sanitize_durable_record`. -/
def sanitizeDurableRecord (r : DurableRecordV1) : Except ContractError DurableRecordV1 := do
  (sanitized r).validate
  pure (sanitized r)

/-- A projection and its sanitization, which the store never takes apart. -/
def durableRecord (o : SourceObservation) (s : DomainSpanState) : Except ContractError DurableRecordV1 := do
  let record ← projectDurableRecord o s
  sanitizeDurableRecord record

end Sanitization

/-! ### JSON -/

/-- A scalar in JSON. -/
def ScalarValueV1.json : ScalarValueV1 → Text
  | .boolean value => Json.bool value
  | .number value => Json.float value
  | .string value => Json.str value

/-- A status in JSON: `status_code_serde`. -/
def StatusCode.json : StatusCode → Text
  | .unset => Json.str "unset"
  | .ok => Json.str "ok"
  | .error => Json.str "error"

/-- `AgentV1` in JSON. -/
def AgentV1.json (a : AgentV1) : Text :=
  Json.object (Json.member "name" Json.str a.name ++ Json.member "version" Json.str a.version ++
    Json.member "model" Json.str a.model)

/-- `ProjectV1` in JSON. -/
def ProjectV1.json (p : ProjectV1) : Text :=
  Json.object (Json.member "name" Json.str p.name ++ Json.member "repo_path" Json.str p.repoPath)

/-- `AttributesV1` in JSON. -/
def AttributesV1.json (a : AttributesV1) : Text :=
  Json.object <| [("source", a.source), ("event_type", a.eventType), ("envelope_type", a.envelopeType),
    ("session_id", a.sessionId), ("turn_id", a.turnId), ("request_id", a.requestId), ("call_id", a.callId),
    ("tool_name", a.toolName), ("phase", a.phase), ("exit_code", a.exitCode), ("sandbox", a.sandbox),
    ("approval", a.approval), ("permission_id", a.permissionId), ("decision", a.decision),
    ("command_kind", a.commandKind), ("compaction_id", a.compactionId), ("trigger", a.trigger)].flatMap
    fun m => Json.member m.1 ScalarValueV1.json m.2

/-- `MetricsV1` in JSON. -/
def MetricsV1.json (m : MetricsV1) : Text :=
  Json.object <| [("input_tokens", m.inputTokens), ("output_tokens", m.outputTokens),
    ("cached_input_tokens", m.cachedInputTokens), ("cache_creation_input_tokens", m.cacheCreationInputTokens),
    ("reasoning_output_tokens", m.reasoningOutputTokens), ("total_tokens", m.totalTokens),
    ("total_input_tokens", m.totalInputTokens), ("total_output_tokens", m.totalOutputTokens),
    ("total_cached_input_tokens", m.totalCachedInputTokens),
    ("total_reasoning_output_tokens", m.totalReasoningOutputTokens),
    ("total_accumulated_tokens", m.totalAccumulatedTokens), ("context_window_tokens", m.contextWindowTokens),
    ("input_tokens_before", m.inputTokensBefore), ("input_tokens_after", m.inputTokensAfter),
    ("latency_ms", m.latencyMs), ("duration_ms", m.durationMs)].flatMap fun m => Json.member m.1 Json.float m.2

/-- `ContentV1` in JSON. -/
def ContentV1.json (c : ContentV1) : Text :=
  Json.object <| [("prompt", c.prompt), ("output", c.output), ("tool_input", c.toolInput),
    ("tool_output", c.toolOutput)].flatMap fun m => Json.member m.1 id m.2

/-- `RedactionV1` in JSON. -/
def RedactionV1.json (r : RedactionV1) : Text :=
  Json.object [("applied", Json.bool r.applied), ("count", Json.nat r.count),
    ("fields", Json.array (r.fields.map Json.str))]

/-- `serde_json::to_string` of a record. -/
def DurableRecordV1.json (r : DurableRecordV1) : Text :=
  Json.object [("schema_version", Json.str r.schemaVersion), ("record_type", Json.str r.recordType),
    ("trace_id", Json.str r.traceId), ("span_id", Json.str r.spanId),
    ("parent_span_id", Json.option Json.str r.parentSpanId), ("span_kind", Json.str (kindName r.spanKind)),
    ("name", Json.str r.name), ("start_time_unix_ms", Json.float r.startTimeUnixMs),
    ("end_time_unix_ms", Json.option Json.float r.endTimeUnixMs),
    ("status", Json.object [("code", r.status.json)]), ("agent", r.agent.json), ("project", r.project.json),
    ("attributes", r.attributes.json), ("metrics", r.metrics.json), ("content", r.content.json),
    ("redaction", r.redaction.json)]

/-- `canonical_observation_payload_hash`. -/
def canonicalObservationPayloadHash [Sha2] (o : SourceObservation) : Except ContractError String := do
  let record ← durableRecord o o.rawState
  pure ("sha256:" ++ Sha2.hexDigest (utf8 record.json))

/-! ### What a stored record holds -/

@[simp] theorem exactJsonInteger_eq_ok {value n : ℕ} :
    exactJsonInteger value = .ok n ↔ value ≤ 2 ^ 53 - 1 ∧ n = value := by
  unfold exactJsonInteger
  split
  · simp only [reduceCtorEq, false_iff]
    omega
  · simp only [Except.ok.injEq, eq_comm (a := value)]
    omega

@[simp] theorem exactJsonOptional_eq_ok {value n : Option ℕ} :
    exactJsonOptional value = .ok n ↔ (∀ v ∈ value, v ≤ 2 ^ 53 - 1) ∧ n = value := by
  cases value with
  | none => simp [exactJsonOptional, eq_comm]
  | some v => simp [exactJsonOptional, map_eq_ok, eq_comm (a := n)]

/-- The metrics of a token usage. -/
def metricsOf (usage : TokenUsage) : MetricsV1 where
  inputTokens := usage.input
  outputTokens := usage.output
  cachedInputTokens := usage.cachedInput
  cacheCreationInputTokens := usage.cacheCreationInput
  reasoningOutputTokens := usage.reasoningOutput
  totalTokens := usage.total
  totalInputTokens := usage.totalInput
  totalOutputTokens := usage.totalOutput
  totalCachedInputTokens := usage.totalCachedInput
  totalReasoningOutputTokens := usage.totalReasoningOutput
  totalAccumulatedTokens := usage.totalAccumulated
  contextWindowTokens := usage.contextWindow
  inputTokensBefore := usage.inputBefore
  inputTokensAfter := usage.inputAfter

theorem metricsFromUsage_ok {usage : TokenUsage} {m : MetricsV1} (h : metricsFromUsage usage = .ok m) :
    m = metricsOf usage := by
  simp only [metricsFromUsage, bind_eq_ok, exactJsonOptional_eq_ok, pure_eq_ok] at h
  obtain ⟨_, ⟨-, rfl⟩, _, ⟨-, rfl⟩, _, ⟨-, rfl⟩, _, ⟨-, rfl⟩, _, ⟨-, rfl⟩, _, ⟨-, rfl⟩, _, ⟨-, rfl⟩, _, ⟨-, rfl⟩,
    _, ⟨-, rfl⟩, _, ⟨-, rfl⟩, _, ⟨-, rfl⟩, _, ⟨-, rfl⟩, _, ⟨-, rfl⟩, _, ⟨-, rfl⟩, rfl⟩ := h
  rfl

/-- The record that a projection makes, without its checks. -/
def projected (o : SourceObservation) (s : DomainSpanState) : DurableRecordV1 where
  schemaVersion := durableRecordVersion
  recordType := "span"
  traceId := o.traceId.asStr
  spanId := o.spanId.asStr
  parentSpanId := o.parentSpanId.map (·.asStr)
  spanKind := s.kind
  name := (eventProjection o.event).2.1
  startTimeUnixMs := s.timing.startUnixMs
  endTimeUnixMs := s.timing.endUnixMs
  status := statusForLifecycle s.lifecycle
  agent := { name := some o.source.asStr, model := (eventProjection o.event).2.2.1 }
  project := { name := (eventProjection o.event).2.2.2 }
  attributes := projectAttributes o s
  metrics := metricsOf s.tokenUsage
  content := {}
  redaction := { applied := true, count := 4, fields := ["prompt", "output", "tool_input", "tool_output"] }

theorem projectDurableRecord_ok {o : SourceObservation} {s : DomainSpanState} {r : DurableRecordV1}
    (h : projectDurableRecord o s = .ok r) : r = projected o s := by
  simp only [projectDurableRecord, bind_eq_ok, exactJsonInteger_eq_ok, exactJsonOptional_eq_ok, pure_eq_ok] at h
  obtain ⟨-, -, _, ⟨-, rfl⟩, _, ⟨-, rfl⟩, m, hm, -, -, rfl⟩ := h
  obtain rfl := metricsFromUsage_ok hm
  rfl

/-- The checks of a validation. -/
theorem DurableRecordV1.validate_ok_iff {r : DurableRecordV1} : r.validate = .ok () ↔
    (r.schemaVersion = durableRecordVersion ∧ r.recordType = "span") ∧
    (r.traceId ≠ "" ∧ r.spanId ≠ "" ∧ r.name ≠ "") ∧ (r.endTimeUnixMs.all fun e => r.startTimeUnixMs ≤ e) ∧
    r.parentSpanId ≠ some "" ∧ r.agent.name ≠ some "" ∧ r.agent.version ≠ some "" ∧ r.agent.model ≠ some "" ∧
    r.project.name ≠ some "" ∧ r.project.repoPath ≠ some "" := by
  simp only [DurableRecordV1.validate, validateOptionalNonempty, bind_eq_ok, require_eq_ok, exists_const]

/-- A valid record does not end before it starts. -/
theorem DurableRecordV1.start_le_end {r : DurableRecordV1} (h : r.validate = .ok ()) :
    r.endTimeUnixMs.all fun e => r.startTimeUnixMs ≤ e := (validate_ok_iff.mp h).2.2.1

/-- **A stored record is the sanitized projection, and it is valid.** -/
theorem durableRecord_ok [Sha2] {o : SourceObservation} {s : DomainSpanState} {r : DurableRecordV1}
    (h : durableRecord o s = .ok r) :
    r = sanitized (projected o s) ∧ r.validate = .ok () := by
  obtain ⟨p, hp, h⟩ := bind_eq_ok.mp h
  obtain rfl := projectDurableRecord_ok hp
  obtain ⟨⟨⟩, hv, h⟩ := bind_eq_ok.mp h
  obtain rfl := pure_eq_ok.mp h
  exact ⟨rfl, hv⟩

end AgentObservability.Contracts
