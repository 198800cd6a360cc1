import AgentObservability.Codex.Correlation

/-!
# OTLP exports

`parse_otlp_http_json_with_state`: the log records of an export become handoff
records with only the attributes the adapter owns, the correlation completes
their request ids, and the handoff reader makes items of them.

A body is given by its length and by the value that `serde_json` reads from it.
-/

namespace AgentObservability.Codex

open Domain Contracts Foundation Foundation.Json

/-- `MAX_OTLP_LOG_RECORDS`. -/
def maxOtlpLogRecords : ℕ := 4096

/-- The body of a request: `input.len()` and `serde_json::from_slice`. -/
structure OtlpBody where
  /-- Its bytes. -/
  bytes : ℕ
  /-- Its value, unless it is malformed. -/
  root : Option Value

/-- `is_owned_otlp_attribute`. -/
def ownedOtlpAttributes : List String :=
  ["event.name", "conversation.id", "turn.id", "model", "event.kind", "tool_name", "call_id", "decision", "duration_ms",
    "input_token_count", "output_token_count", "cached_token_count", "reasoning_token_count", "tool_token_count",
    "auth.request_id", "success", "http.response.status_code", "error.message"]

/-- `otlp_u64`. -/
def otlpU64 (value : Value) : Option UInt64 := value.asU64.or (value.asStr.bind parseU64)

/-- `otlp_bool`. -/
def otlpBool (value : Value) : Option Bool := value.asBool.or (value.asStr.bind parseBool)

/-- `otlp_any_value`. -/
def otlpAnyValue (value : Value) : Option Value :=
  (((value.get? "stringValue").bind Value.asStr).map Value.string).or <|
    (((value.get? "boolValue").bind Value.asBool).map Value.bool).or <|
    (((value.get? "intValue").bind otlpU64).map fun n => Value.number (.posInt n)).or <|
    ((value.get? "doubleValue").bind Value.asFloat).map Value.number

/-- An attribute of a log record. -/
def otlpAttribute (attributes : Attributes) (entry : Value) : Except AdapterError Attributes := do
  let key ← ofOption AdapterError.invalidJson ((entry.get? "key").bind Value.asStr)
  if key ∈ ownedOtlpAttributes then do
    let value ← ofOption AdapterError.invalidFieldType ((entry.get? "value").bind otlpAnyValue)
    pure (attributes.insert key value)
  else pure attributes

/-- An array that a value must have. -/
def requiredArray (value : Value) (key : String) : Except AdapterError (List Value) :=
  ofOption .invalidJson ((value.get? key).bind Value.asArray)

/-- `otlp_attributes`. -/
def otlpAttributes (record : Value) : Except AdapterError Attributes := do
  let values ← requiredArray record "attributes"
  values.foldlM otlpAttribute .empty

/-- `copy_string`. -/
def copyString (source : Attributes) (sourceKey outputKey : String) (output : Attributes) :
    Except AdapterError Attributes :=
  match source.get? sourceKey with
  | none => .ok output
  | some value => do
    let value ← ofOption AdapterError.invalidFieldType value.asStr
    require (value ≠ "") AdapterError.invalidIdentifier
    pure (output.insert outputKey (.string value))

/-- `copy_u64`. -/
def copyU64 (source : Attributes) (sourceKey outputKey : String) (output : Attributes) :
    Except AdapterError Attributes :=
  match source.get? sourceKey with
  | none => .ok output
  | some value => do
    let value ← ofOption AdapterError.invalidFieldType (otlpU64 value)
    pure (output.insert outputKey (.number (.posInt value)))

/-- The success that a status code stands for. -/
def statusSuccess (value : Value) : Except AdapterError Bool := do
  let status ← ofOption AdapterError.invalidFieldType (otlpU64 value)
  require (100 ≤ status.toNat ∧ status.toNat ≤ 599) AdapterError.invalidFieldType
  pure (200 ≤ status.toNat ∧ status.toNat ≤ 299 : Bool)

/-- `canonical_success`. -/
def canonicalSuccess (eventName : String) (source : Attributes) : Except AdapterError (Option Bool) := do
  let explicit ← (source.get? "success").mapM fun value => ofOption AdapterError.invalidFieldType (otlpBool value)
  let status ← (source.get? "http.response.status_code").mapM statusSuccess
  let completed := if eventName = "codex.sse_event" ∧
    (source.get? "event.kind").bind Value.asStr = some "response.completed" then some true else none
  let error := (source.get? "error.message").map fun _ => false
  match [explicit, status, completed, error].reduceOption with
  | [] => pure none
  | success :: signals =>
    if signals.any (· ≠ success) then .error .invalidFieldType else pure (some success)

/-- `canonical_otlp_attributes`. -/
def canonicalOtlpAttributes (eventName : String) (source : Attributes) : Except AdapterError Attributes := do
  let output ← copyString source "conversation.id" "conversation_id" .empty
  let output ← copyString source "turn.id" "turn_id" output
  let output ← copyString source "model" "model" output
  let output ← copyString source "event.kind" "kind" output
  let output ← copyString source "tool_name" "tool_name" output
  let output ← copyString source "call_id" "call_id" output
  let output ← copyString source "decision" "decision" output
  let output ← copyU64 source "duration_ms" "duration_ms" output
  let output ← copyU64 source "input_token_count" "input_tokens" output
  let output ← copyU64 source "output_token_count" "output_tokens" output
  let output ← copyU64 source "cached_token_count" "cached_input_tokens" output
  let output ← copyU64 source "reasoning_token_count" "reasoning_output_tokens" output
  let output ← copyU64 source "tool_token_count" "total_tokens" output
  let output ←
    if eventName = "codex.api_request" ∨ eventName = "codex.sse_event" then
      copyString source "auth.request_id" "request_id" output
    else pure output
  match ← canonicalSuccess eventName source with
  | some success => pure (output.insert "success" (.bool success))
  | none => pure output

/-- A time of a log record: no time at all, a malformed one, or nanoseconds. -/
def otlpTime (record : Value) (key : String) : Except AdapterError (Option UInt64) :=
  match record.get? key with
  | none => .ok none
  | some value => do
    let nanos ← ofOption AdapterError.invalidTiming (otlpU64 value)
    pure (if nanos = 0 then none else some nanos)

/-- `otlp_observed_time_unix_nanos`. -/
def otlpObservedTimeUnixNanos (record : Value) : Except AdapterError (Option UInt64) := do
  match ← otlpTime record "timeUnixNano" with
  | some nanos => pure (some nanos)
  | none => otlpTime record "observedTimeUnixNano"

section Export

variable [Sha2]

/-- `project_websocket_replay_identity`. -/
def projectWebsocketReplayIdentity (eventName sourceGeneration : String) (observedTimeUnixNanos : Option UInt64)
    (attributes : Attributes) : Except AdapterError Attributes :=
  if eventName ≠ "codex.websocket_request" ∨ (attributes.get? "request_id").isSome then .ok attributes
  else do
    let nanos ← ofOption AdapterError.invalidTiming observedTimeUnixNanos
    match ← otlpRequestPairKey attributes with
    | none => pure attributes
    | some (conversationId, model) =>
      pure (attributes.insert "request_id" (.string (stableId "id:sha256"
        ["codex-websocket-replay-v1", sourceGeneration, conversationId, model, toString nanos.toNat])))

/-- What the loops over the log records carry. -/
structure OtlpReader where
  /-- `records`. -/
  records : List HandoffRecord := []
  /-- `next_cursor`. -/
  nextCursor : ℕ
  /-- `prior`. -/
  prior : Option String

/-- A record with an event name. -/
def readEvent (sourceGeneration : String) (fallbackReceivedAtUnixMs : ℕ) (reader : OtlpReader) (logRecord : Value)
    (attributes : Attributes) (eventName : String) : Except AdapterError OtlpReader := do
  require (reader.nextCursor + 1 < 2 ^ 64) AdapterError.invalidCursorSequence
  let observedTimeUnixNanos ← otlpObservedTimeUnixNanos logRecord
  let canonical ← canonicalOtlpAttributes eventName attributes
  let canonical ← projectWebsocketReplayIdentity eventName sourceGeneration observedTimeUnixNanos canonical
  pure
    { records := reader.records ++ [
        { schemaVersion := handoffSchemaVersion, sourceGeneration, previousCursor := reader.prior
          cursor := toString reader.nextCursor, surface := .otelLog
          receivedAtUnixMs := match observedTimeUnixNanos with
            | some nanos => nanos.toNat / 1000000
            | none => fallbackReceivedAtUnixMs
          eventName, attributes := canonical }]
      nextCursor := reader.nextCursor + 1
      prior := some (toString reader.nextCursor) }

/-- A log record. One without an event name is left out. -/
def readLogRecord (sourceGeneration : String) (fallbackReceivedAtUnixMs : ℕ) (reader : OtlpReader) (logRecord : Value) :
    Except AdapterError OtlpReader := do
  require (reader.records.length < maxOtlpLogRecords) AdapterError.tooManyRecords
  let attributes ← otlpAttributes logRecord
  match attributes.get? "event.name" with
  | none => pure reader
  | some (.string eventName) =>
    if eventName.isEmpty then .error .invalidFieldType
    else readEvent sourceGeneration fallbackReceivedAtUnixMs reader logRecord attributes eventName
  | some _ => .error .invalidFieldType

/-- The log records of a scope. -/
def readScope (sourceGeneration : String) (fallbackReceivedAtUnixMs : ℕ) (reader : OtlpReader) (scope : Value) :
    Except AdapterError OtlpReader := do
  let logRecords ← requiredArray scope "logRecords"
  logRecords.foldlM (readLogRecord sourceGeneration fallbackReceivedAtUnixMs) reader

/-- The scopes of a resource. -/
def readResource (sourceGeneration : String) (fallbackReceivedAtUnixMs : ℕ) (reader : OtlpReader) (resource : Value) :
    Except AdapterError OtlpReader := do
  let scopeLogs ← requiredArray resource "scopeLogs"
  scopeLogs.foldlM (readScope sourceGeneration fallbackReceivedAtUnixMs) reader

/-- The resources of an export. -/
def readExport (root : Value) (sourceGeneration : String) (previousCursor : Option String) (firstCursor : ℕ)
    (fallbackReceivedAtUnixMs : ℕ) : Except AdapterError OtlpReader := do
  let resourceLogs ← requiredArray root "resourceLogs"
  resourceLogs.foldlM (readResource sourceGeneration fallbackReceivedAtUnixMs)
    { nextCursor := firstCursor, prior := previousCursor }

/-- `parse_otlp_http_json_with_state`: the batch, the last cursor and the state. -/
def parseOtlpHttpJsonWithState (input : OtlpBody) (sourceGeneration : String) (previousCursor : Option String)
    (firstCursor : ℕ) (fallbackReceivedAtUnixMs : ℕ) (state : CorrelationState) :
    Except AdapterError (AdapterBatch × Option String × CorrelationState) := do
  require (input.bytes ≤ maxHandoffBytes) AdapterError.handoffTooLarge
  require (sourceGeneration ≠ "" ∧ firstCursor ≠ 0) AdapterError.invalidCursorSequence
  let root ← ofOption AdapterError.invalidJson input.root
  let reader ← readExport root sourceGeneration previousCursor firstCursor fallbackReceivedAtUnixMs
  let (records, nextState) ←
    correlateOtlpRequestPairs reader.records sourceGeneration fallbackReceivedAtUnixMs state
  let batch ← parseHandoffJsonl (.printed records)
  pure (batch, reader.prior, nextState)

end Export

end AgentObservability.Codex
