import AgentObservability.Contracts.Record
import AgentObservability.Foundation.JsonValue
import AgentObservability.Foundation.OrderedMap
import Mathlib.Data.String.Basic

/-!
# The handoff of the Codex adapter

Records of a source, one for each line of a handoff, and the items that
`parse_handoff_jsonl` makes of them: an observation, or the disposition of a
record that gives none. Ids of spans are digests of what the record names.

A text is given by its lines, and a line by what `serde_json` reads from it. What
`serde_json` has printed it reads back (`HandoffText.printed`).
-/

namespace AgentObservability.Codex

open Domain Contracts Foundation Foundation.Json

/-- `HANDOFF_SCHEMA_VERSION`. -/
def handoffSchemaVersion : String := "codex_handoff.v1"

/-- `MAX_HANDOFF_BYTES`. -/
def maxHandoffBytes : ℕ := 1024 * 1024

/-- `MAX_HANDOFF_LINES`. -/
def maxHandoffLines : ℕ := 4096

/-- `MAX_HANDOFF_LINE_BYTES`. -/
def maxHandoffLineBytes : ℕ := 64 * 1024

/-- `KNOWN_CODEX_MODELS`. -/
def knownCodexModels : List String :=
  ["gpt-test", "gpt-5.4", "gpt-5.5", "gpt-5.6-luna", "gpt-5.6-sol", "gpt-5.6-terra"]

/-- `AdapterError`, without the errors of reading a file. -/
inductive AdapterError where
  /-- Too many bytes. -/
  | handoffTooLarge
  /-- Too many records. -/
  | tooManyRecords
  /-- A record with too many bytes. -/
  | recordTooLarge
  /-- Malformed JSON. -/
  | invalidJson
  /-- A schema that is not supported. -/
  | invalidSchema
  /-- A cursor out of its sequence. -/
  | invalidCursorSequence
  /-- A malformed identifier. -/
  | invalidIdentifier
  /-- A field with a malformed value. -/
  | invalidFieldType
  /-- A malformed time. -/
  | invalidTiming
  deriving DecidableEq, Repr

/-- `SourceSurface`. -/
inductive SourceSurface where
  /-- A log record of OpenTelemetry. -/
  | otelLog
  /-- A notification. -/
  | notify
  deriving DecidableEq

/-- The name of a surface, in JSON and in an observation id. -/
def SourceSurface.asStr : SourceSurface → String
  | .otelLog => "otel_log"
  | .notify => "notify"

/-- The attributes of a record. -/
abbrev Attributes := OrderedMap String Value

/-- `HandoffRecord`. -/
structure HandoffRecord where
  /-- `schema_version`. -/
  schemaVersion : String
  /-- `source_generation`. -/
  sourceGeneration : String
  /-- `previous_cursor`. -/
  previousCursor : Option String
  /-- `cursor`. -/
  cursor : String
  /-- `surface`. -/
  surface : SourceSurface
  /-- `received_at_unix_ms`. -/
  receivedAtUnixMs : ℕ
  /-- `event_name`. -/
  eventName : String
  /-- `attributes`. -/
  attributes : Attributes

/-- `serde_json::to_string` of a record. -/
def HandoffRecord.json (r : HandoffRecord) : Text :=
  Json.object [("schema_version", Json.str r.schemaVersion), ("source_generation", Json.str r.sourceGeneration),
    ("previous_cursor", Json.option Json.str r.previousCursor), ("cursor", Json.str r.cursor),
    ("surface", Json.str r.surface.asStr), ("received_at_unix_ms", Json.nat r.receivedAtUnixMs),
    ("event_name", Json.str r.eventName), ("attributes", (Value.object r.attributes.entries).json)]

/-- `AdapterDiagnostic`. -/
structure AdapterDiagnostic where
  /-- `record_index`. -/
  recordIndex : ℕ
  /-- `code`. -/
  code : AdapterDispositionCode
  /-- `checkpoint`. -/
  checkpoint : SourceCheckpoint
  /-- `disposition`. -/
  disposition : AdapterDispositionKind
  /-- `payload_hash`. -/
  payloadHash : Option String
  deriving DecidableEq

/-- `AdapterItem`. -/
inductive AdapterItem where
  /-- An observation. -/
  | observation (o : SourceObservation)
  /-- What became of a record that gives none. -/
  | disposition (d : AdapterDiagnostic)
  deriving DecidableEq

/-- `AdapterBatch`. -/
structure AdapterBatch where
  /-- `items`. -/
  items : List AdapterItem := []
  deriving DecidableEq

/-- `Mapping`. -/
inductive Mapping where
  /-- An observation. -/
  | observation (o : SourceObservation)
  /-- None, and why. -/
  | diagnostic (code : AdapterDispositionCode)
  deriving DecidableEq

/-- `parse_identifier`. -/
def parseIdentifier (value : String) : Except AdapterError Identifier :=
  (Identifier.parse value).mapError fun _ => .invalidIdentifier

/-! ### Attributes -/

/-- `optional_string`. -/
def optionalString (attributes : Attributes) (key : String) : Except AdapterError (Option String) :=
  match attributes.get? key with
  | none => .ok none
  | some (.string value) => if value.isEmpty then .error .invalidIdentifier else .ok (some value)
  | some _ => .error .invalidIdentifier

/-- `required_string`. -/
def requiredString (attributes : Attributes) (key : String) : Except AdapterError String := do
  let value ← optionalString attributes key
  ofOption .invalidIdentifier value

/-- `optional_u64`. -/
def optionalU64 (attributes : Attributes) (key : String) : Except AdapterError (Option ℕ) :=
  match attributes.get? key with
  | none => .ok none
  | some (.number value) =>
    match Value.asU64 (.number value) with
    | some n => .ok (some n.toNat)
    | none => .error .invalidTiming
  | some _ => .error .invalidTiming

/-- `optional_bool`. -/
def optionalBool (attributes : Attributes) (key : String) : Except AdapterError (Option Bool) :=
  match attributes.get? key with
  | none => .ok none
  | some (.bool value) => .ok (some value)
  | some _ => .error .invalidTiming

/-- `canonical_model`. -/
def canonicalModel (attributes : Attributes) : Except AdapterError (Option String) := do
  match ← optionalString attributes "model" with
  | none => pure none
  | some model => if model ∈ knownCodexModels then pure (some model) else .error .invalidFieldType

/-- `canonical_tool_name`. -/
def canonicalToolName (attributes : Attributes) : Except AdapterError (Option String) := do
  match ← optionalString attributes "tool_name" with
  | none => pure none
  | some tool =>
    pure (some (
      if tool = "shell" ∨ tool = "exec_command" then "shell"
      else if tool = "apply_patch" then "apply_patch"
      else if tool = "web" ∨ tool = "web_search" then "web"
      else if tool = "mcp" ∨ tool = "mcp_tool" then "mcp"
      else "other"))

/-- `canonical_decision`. -/
def canonicalDecision (attributes : Attributes) : Except AdapterError String := do
  match ← optionalString attributes "decision" with
  | none => .error .invalidFieldType
  | some decision =>
    if decision = "approved" ∨ decision = "allowed" then pure "approved"
    else if decision = "denied" then pure "denied"
    else .error .invalidFieldType

/-- `lifecycle_from_success`. -/
def lifecycleFromSuccess : Option Bool → LifecycleState
  | some false => .failed
  | some true => .completed
  | none => .observed

/-- `validate_project_name`. -/
def validateProjectName (project : String) : Except AdapterError Unit :=
  require (project ≠ "" ∧ project.utf8ByteSize ≤ maxIdentifierBytes) .invalidIdentifier

/-! ### Observations -/

section Observations

variable [Sha2]

/-- `stable_id`. -/
def stableId (idPrefix : String) (components : List String) : String := idPrefix ++ ":" ++ digestComponents components

/-- The ids of the span of a record and of its parent. -/
def spanIds (session : String) (turn : Option String) (leaf : String) : String × Option String :=
  match turn with
  | none =>
    if leaf = "session" then (stableId "codex-session" [session], none)
    else (stableId "codex-span" [session, leaf], some (stableId "codex-session" [session]))
  | some turnId =>
    if leaf = "turn" then (stableId "codex-turn" [session, turnId], some (stableId "codex-session" [session]))
    else (stableId "codex-span" [session, turnId, leaf], some (stableId "codex-turn" [session, turnId]))

/-- `checked_sub` of a duration from the end of a span, and `Timing::new`. -/
def timingOf (receivedAtUnixMs : ℕ) (durationMs : Option ℕ) : Except AdapterError Timing := do
  require (durationMs.getD 0 ≤ receivedAtUnixMs) .invalidTiming
  pure ⟨receivedAtUnixMs - durationMs.getD 0, some receivedAtUnixMs⟩

/-- `build_observation`. -/
def buildObservation (record : HandoffRecord) (previousCursor : Option String) (session : String)
    (turn : Option String) (leaf : String) (correlation : CorrelationIds) (event : ObservationEvent)
    (lifecycle : LifecycleState) (tokenUsage : TokenUsage) (durationMs : Option ℕ) : Except AdapterError Mapping := do
  let traceId ← parseIdentifier (stableId "codex-trace" [session])
  let timing ← timingOf record.receivedAtUnixMs durationMs
  let observationId := stableId "codex-observation"
    [record.sourceGeneration, record.cursor, record.surface.asStr, record.eventName]
  let sourceGeneration ← parseIdentifier record.sourceGeneration
  let previousSourceCursor ← previousCursor.mapM parseIdentifier
  let sourceCursor ← parseIdentifier record.cursor
  let observationId ← parseIdentifier observationId
  let spanId ← parseIdentifier (spanIds session turn leaf).1
  let parentSpanId ← (spanIds session turn leaf).2.mapM parseIdentifier
  pure (.observation
    { source := .codex, sourceGeneration, previousSourceCursor, sourceCursor, observationId, traceId, spanId
      parentSpanId, correlation, event, lifecycle, timing, tokenUsage })

/-- `session_observation`. -/
def sessionObservation (record : HandoffRecord) (previousCursor : Option String) : Except AdapterError Mapping := do
  let session ← requiredString record.attributes "conversation_id"
  let sessionId ← parseIdentifier session
  let model ← canonicalModel record.attributes
  buildObservation record previousCursor session none "session" { sessionId := some sessionId } (.session model none)
    .running {} none

/-- `turn_observation`. -/
def turnObservation (record : HandoffRecord) (previousCursor : Option String) : Except AdapterError Mapping := do
  let session ← requiredString record.attributes "thread_id"
  let turn ← requiredString record.attributes "turn_id"
  let project ← optionalString record.attributes "project_name"
  project.forM validateProjectName
  let sessionId ← parseIdentifier session
  let turnId ← parseIdentifier turn
  buildObservation record previousCursor session (some turn) "turn" { sessionId := some sessionId, turnId := some turnId }
    (match project with
      | some project => .turnWithProject project
      | none => .turn)
    .completed {} none

/-- `request_observation`. -/
def requestObservation (record : HandoffRecord) (previousCursor : Option String) (includesUsage : Bool) :
    Except AdapterError Mapping := do
  let session ← requiredString record.attributes "conversation_id"
  let turn ← optionalString record.attributes "turn_id"
  let request ← requiredString record.attributes "request_id"
  let sessionId ← parseIdentifier session
  let turnId ← turn.mapM parseIdentifier
  let requestId ← parseIdentifier request
  let usage : TokenUsage ←
    if includesUsage then do
      let input ← optionalU64 record.attributes "input_tokens"
      let output ← optionalU64 record.attributes "output_tokens"
      let cachedInput ← optionalU64 record.attributes "cached_input_tokens"
      let reasoningOutput ← optionalU64 record.attributes "reasoning_output_tokens"
      let total ← optionalU64 record.attributes "total_tokens"
      pure { input, output, cachedInput, reasoningOutput, total }
    else pure {}
  let success ← optionalBool record.attributes "success"
  let model ← canonicalModel record.attributes
  let durationMs ← optionalU64 record.attributes "duration_ms"
  buildObservation record previousCursor session turn
    ("request:" ++ request ++ ":" ++ if includesUsage then "response" else "api")
    { sessionId := some sessionId, turnId, requestId := some requestId } (.modelRequest model)
    (lifecycleFromSuccess success) usage durationMs

/-- `tool_observation`. -/
def toolObservation (record : HandoffRecord) (previousCursor : Option String) : Except AdapterError Mapping := do
  let session ← requiredString record.attributes "conversation_id"
  let turn ← optionalString record.attributes "turn_id"
  let operation ← requiredString record.attributes "call_id"
  let sessionId ← parseIdentifier session
  let turnId ← turn.mapM parseIdentifier
  let operationId ← parseIdentifier operation
  let toolName ← canonicalToolName record.attributes
  let success ← optionalBool record.attributes "success"
  let durationMs ← optionalU64 record.attributes "duration_ms"
  buildObservation record previousCursor session turn ("tool:" ++ operation)
    { sessionId := some sessionId, turnId, operationId := some operationId } (.toolOperation toolName (some "result"))
    (lifecycleFromSuccess success) {} durationMs

/-- `permission_observation`. -/
def permissionObservation (record : HandoffRecord) (previousCursor : Option String) : Except AdapterError Mapping := do
  let session ← requiredString record.attributes "conversation_id"
  let turn ← optionalString record.attributes "turn_id"
  let permission ← requiredString record.attributes "call_id"
  let decision ← canonicalDecision record.attributes
  let sessionId ← parseIdentifier session
  let turnId ← turn.mapM parseIdentifier
  let permissionId ← parseIdentifier permission
  buildObservation record previousCursor session turn ("permission:" ++ permission)
    { sessionId := some sessionId, turnId, permissionId := some permissionId } (.permission (some decision))
    (if decision = "denied" then .failed else .completed) {} none

/-- `observation_from_record`. -/
def observationFromRecord (record : HandoffRecord) (previousCursor : Option String) : Except AdapterError Mapping :=
  match record.surface with
  | .otelLog =>
    if record.eventName = "codex.conversation_starts" then sessionObservation record previousCursor
    else if record.eventName = "codex.api_request" ∨ record.eventName = "codex.websocket_request" then
      requestObservation record previousCursor false
    else if record.eventName = "codex.sse_event" then do
      let kind ← optionalString record.attributes "kind"
      if kind = some "response.completed" then requestObservation record previousCursor true
      else pure (.diagnostic .unsupportedEventVariant)
    else if record.eventName = "codex.tool_decision" then permissionObservation record previousCursor
    else if record.eventName = "codex.tool_result" then toolObservation record previousCursor
    else if record.eventName = "codex.user_prompt" then pure (.diagnostic .contentEventIgnored)
    else pure (.diagnostic .unsupportedEvent)
  | .notify =>
    if record.eventName = "agent-turn-complete" then turnObservation record previousCursor
    else pure (.diagnostic .unsupportedEvent)

/-- What `parse_handoff_jsonl` makes of the result of `observation_from_record`. -/
def diagnosed (mapping : Except AdapterError Mapping) : Except AdapterError Mapping :=
  match mapping with
  | .error .invalidIdentifier => .ok (.diagnostic .missingCorrelation)
  | .error .invalidTiming => .ok (.diagnostic .invalidFieldType)
  | .error .invalidFieldType => .ok (.diagnostic .invalidFieldType)
  | result => result

/-- `checkpoint_from_record`. -/
def checkpointFromRecord (record : HandoffRecord) : Except AdapterError SourceCheckpoint := do
  let sourceGeneration ← parseIdentifier record.sourceGeneration
  let previousSourceCursor ← record.previousCursor.mapM parseIdentifier
  let sourceCursor ← parseIdentifier record.cursor
  pure { source := .codex, sourceGeneration, previousSourceCursor, sourceCursor }

/-- `validate_raw_cursor`. -/
def validateRawCursor (record : HandoffRecord) (cursors : OrderedMap String String) : Except AdapterError Unit :=
  require (record.cursor ≠ "" ∧ record.previousCursor ≠ some record.cursor ∧
    ∀ expected ∈ cursors.get? record.sourceGeneration, record.previousCursor = some expected) .invalidCursorSequence

/-! ### The lines of a handoff -/

/-- A line: its bytes, whether it is blank, and the record that `serde_json` reads from it. -/
structure HandoffLine where
  /-- `line.len()`. -/
  bytes : ℕ
  /-- `line.trim().is_empty()`. -/
  blank : Bool
  /-- `serde_json::from_str`. -/
  record : Option HandoffRecord

/-- The text of a handoff. -/
structure HandoffText where
  /-- `input.len()`. -/
  bytes : ℕ
  /-- `input.lines()`. -/
  lines : List HandoffLine

/-- The line of a printed record. -/
def HandoffRecord.line (r : HandoffRecord) : HandoffLine := ⟨byteLength r.json, false, some r⟩

/-- The text of printed records, each with its line feed. -/
def HandoffText.printed (records : List HandoffRecord) : HandoffText where
  bytes := (records.map fun r => r.line.bytes + 1).sum
  lines := records.map HandoffRecord.line

/-- What the loop of `parse_handoff_jsonl` carries. -/
structure HandoffReader where
  /-- The items so far. -/
  items : List AdapterItem := []
  /-- `raw_cursors`. -/
  rawCursors : OrderedMap String String := .empty
  /-- The keys of `observation_positions`. -/
  positions : List (String × String × String) := []

/-- The item of a mapping, and the positions with it. -/
def placeItem (reader : HandoffReader) (recordIndex : ℕ) (checkpoint : SourceCheckpoint) (mapping : Mapping) :
    Except AdapterError HandoffReader :=
  match mapping with
  | .observation o => do
    let payloadHash ← (canonicalObservationPayloadHash o).mapError fun _ => AdapterError.invalidFieldType
    let key := (o.sourceGeneration.asStr, o.spanId.asStr, payloadHash)
    if key ∈ reader.positions then
      pure { reader with items := reader.items ++ [.disposition
        { recordIndex, code := .duplicateObservation, checkpoint, disposition := .suppressed
          payloadHash := some payloadHash }] }
    else pure { reader with items := reader.items ++ [.observation o], positions := key :: reader.positions }
  | .diagnostic code =>
    pure { reader with items := reader.items ++ [.disposition
      { recordIndex, code, checkpoint, disposition := .diagnostic, payloadHash := none }] }

/-- A record of the loop. -/
def readRecord (reader : HandoffReader) (index : ℕ) (record : HandoffRecord) : Except AdapterError HandoffReader := do
  require (record.schemaVersion = handoffSchemaVersion) .invalidSchema
  validateRawCursor record reader.rawCursors
  let rawCursors := reader.rawCursors.insert record.sourceGeneration record.cursor
  let checkpoint ← checkpointFromRecord record
  let mapping ← diagnosed (observationFromRecord record record.previousCursor)
  placeItem { reader with rawCursors } (index + 1) checkpoint mapping

/-- A line of the loop. -/
def readLine (reader : HandoffReader) (line : HandoffLine × ℕ) : Except AdapterError HandoffReader := do
  require (line.2 < maxHandoffLines) .tooManyRecords
  require (line.1.bytes ≤ maxHandoffLineBytes) .recordTooLarge
  if line.1.blank then pure reader
  else do
    let record ← ofOption .invalidJson line.1.record
    readRecord reader line.2 record

/-- `parse_handoff_jsonl`. -/
def parseHandoffJsonl (input : HandoffText) : Except AdapterError AdapterBatch := do
  require (input.bytes ≤ maxHandoffBytes) .handoffTooLarge
  let reader ← input.lines.zipIdx.foldlM readLine {}
  pure ⟨reader.items⟩

end Observations

end AgentObservability.Codex
