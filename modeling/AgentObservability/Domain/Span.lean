import AgentObservability.Foundation.Attempt
import Mathlib.Tactic.Cases

/-!
# Spans and their reduction

The domain crate: identifiers, the state of a span, and the reducer that merges
the observations of one span. A merge fails on a conflict and otherwise keeps
what both sides know: the earliest start, the latest end, the more advanced
lifecycle, and every correlation id and token metric that either side has.

Identifiers are strings that are not empty and have at most 512 bytes of UTF-8;
`Identifier` carries both facts, as the newtypes of the source do by
construction.
-/

namespace AgentObservability.Domain

open Foundation

/-- `MAX_IDENTIFIER_BYTES`. -/
def maxIdentifierBytes : ℕ := 512

/-- A bounded, non-empty opaque identifier. -/
structure Identifier where
  /-- The text. -/
  asStr : String
  /-- It is not empty. -/
  nonempty : asStr ≠ ""
  /-- It is at most `maxIdentifierBytes` long. -/
  bounded : asStr.utf8ByteSize ≤ maxIdentifierBytes
  deriving DecidableEq

/-- Two identifiers with the same text are the same. -/
@[ext] theorem Identifier.ext {a b : Identifier} (h : a.asStr = b.asStr) : a = b := by
  cases a; cases b; cases h; rfl

/-- The identifier newtypes of the source, which differ only in name. -/
abbrev TraceId := Identifier
@[inherit_doc TraceId] abbrev SpanId := Identifier
@[inherit_doc TraceId] abbrev SessionId := Identifier
@[inherit_doc TraceId] abbrev TurnId := Identifier
@[inherit_doc TraceId] abbrev RequestId := Identifier
@[inherit_doc TraceId] abbrev OperationId := Identifier
@[inherit_doc TraceId] abbrev PermissionId := Identifier
@[inherit_doc TraceId] abbrev CompactionId := Identifier
@[inherit_doc TraceId] abbrev SourceCursor := Identifier
@[inherit_doc TraceId] abbrev SourceGeneration := Identifier
@[inherit_doc TraceId] abbrev ObservationId := Identifier

/-- The kinds of span. -/
inductive SpanKind where
  /-- A workstream, above the sessions. -/
  | workstream
  /-- An agent session. -/
  | agentSession
  /-- A turn of a session. -/
  | turn
  /-- A model request. -/
  | llmRequest
  /-- A tool execution. -/
  | toolExecution
  /-- A permission decision. -/
  | permission
  /-- A compaction. -/
  | compaction
  deriving DecidableEq, Repr

/-- The lifecycle of a span. -/
inductive LifecycleState where
  /-- Seen, nothing more known. -/
  | observed
  /-- Started and not ended. -/
  | running
  /-- Ended well. -/
  | completed
  /-- Ended badly. -/
  | failed
  /-- Cut short. -/
  | interrupted
  deriving DecidableEq, Repr

/-- The token metrics of a span, each present or absent. -/
structure TokenUsage where
  /-- `input`. -/
  input : Option ℕ := none
  /-- `output`. -/
  output : Option ℕ := none
  /-- `cached_input`. -/
  cachedInput : Option ℕ := none
  /-- `cache_creation_input`. -/
  cacheCreationInput : Option ℕ := none
  /-- `reasoning_output`. -/
  reasoningOutput : Option ℕ := none
  /-- `total`. -/
  total : Option ℕ := none
  /-- `total_input`. -/
  totalInput : Option ℕ := none
  /-- `total_output`. -/
  totalOutput : Option ℕ := none
  /-- `total_cached_input`. -/
  totalCachedInput : Option ℕ := none
  /-- `total_reasoning_output`. -/
  totalReasoningOutput : Option ℕ := none
  /-- `total_accumulated`. -/
  totalAccumulated : Option ℕ := none
  /-- `context_window`. -/
  contextWindow : Option ℕ := none
  /-- `input_before`. -/
  inputBefore : Option ℕ := none
  /-- `input_after`. -/
  inputAfter : Option ℕ := none
  deriving DecidableEq

/-- The correlation ids of a span, each present or absent. -/
structure CorrelationIds where
  /-- `session_id`. -/
  sessionId : Option SessionId := none
  /-- `turn_id`. -/
  turnId : Option TurnId := none
  /-- `request_id`. -/
  requestId : Option RequestId := none
  /-- `operation_id`. -/
  operationId : Option OperationId := none
  /-- `permission_id`. -/
  permissionId : Option PermissionId := none
  /-- `compaction_id`. -/
  compactionId : Option CompactionId := none
  deriving DecidableEq

/-- A time range. The fields are public in the source, so a range that ends
before it starts can be built; `Timing.new` and the reducer reject it. -/
structure Timing where
  /-- `start_unix_ms`. -/
  startUnixMs : ℕ
  /-- `end_unix_ms`. -/
  endUnixMs : Option ℕ
  deriving DecidableEq

/-- The state of one span. -/
structure DomainSpanState where
  /-- `trace_id`. -/
  traceId : TraceId
  /-- `span_id`. -/
  spanId : SpanId
  /-- `parent_span_id`. -/
  parentSpanId : Option SpanId
  /-- `kind`. -/
  kind : SpanKind
  /-- `lifecycle`. -/
  lifecycle : LifecycleState
  /-- `correlation`. -/
  correlation : CorrelationIds
  /-- `timing`. -/
  timing : Timing
  /-- `token_usage`. -/
  tokenUsage : TokenUsage
  deriving DecidableEq

/-- The errors of the domain crate. -/
inductive DomainError where
  /-- An identifier is empty. -/
  | emptyIdentifier
  /-- An identifier has more than the maximum of bytes. -/
  | identifierTooLong (actual maximum : ℕ)
  /-- A range ends before it starts. -/
  | endBeforeStart
  /-- Two different terminal lifecycles. -/
  | lifecycleConflict (spanId : SpanId)
  /-- Two different values of a field that cannot change. -/
  | fieldConflict (spanId : SpanId) (field : String)
  /-- A span is its own parent. -/
  | selfParent (spanId : SpanId)
  /-- A parent belongs to another trace. -/
  | crossTraceParent (spanId parentSpanId : SpanId)
  /-- A parent has a kind that may not be the parent of the span's. -/
  | invalidParentKind (spanId parentSpanId : SpanId)
  /-- The parent links form a cycle. -/
  | cycle (spanId : SpanId)
  deriving DecidableEq

/-- `validate_identifier`, wrapped in the newtype: `TraceId::parse` and its siblings. -/
def Identifier.parse (value : String) : Except DomainError Identifier :=
  if h : value = "" then .error .emptyIdentifier
  else if h' : value.utf8ByteSize ≤ maxIdentifierBytes then .ok ⟨value, h, h'⟩
  else .error (.identifierTooLong value.utf8ByteSize maxIdentifierBytes)

theorem Identifier.parse_ok {value : String} {id : Identifier} (h : Identifier.parse value = .ok id) :
    id.asStr = value := by
  unfold Identifier.parse at h
  split at h
  · cases h
  · split at h
    · cases h; rfl
    · cases h

@[simp] theorem Identifier.parse_asStr (id : Identifier) : Identifier.parse id.asStr = .ok id := by
  simp [Identifier.parse, id.nonempty, id.bounded]

/-- The range ends before it starts. -/
def Timing.reversed (t : Timing) : Bool := t.endUnixMs.any fun e => e < t.startUnixMs

/-! ### The reducer -/

/-- `merge_lifecycle`: the further of the two, if one comes after the other. -/
def mergeLifecycle (left right : LifecycleState) (spanId : SpanId) : Except DomainError LifecycleState :=
  if left = right then .ok left
  else match left, right with
    | .observed, .running | .running, .observed => .ok .running
    | .observed, terminal | .running, terminal => .ok terminal
    | terminal, .observed | terminal, .running => .ok terminal
    | _, _ => .error (.lifecycleConflict spanId)

/-- `merge_optional`: the value either side has; two values must be equal. -/
def mergeOptional {α : Type} [DecidableEq α] (left right : Option α) (spanId : SpanId) (field : String) :
    Except DomainError (Option α) :=
  match left, right with
  | some a, some b => if a ≠ b then .error (.fieldConflict spanId field) else .ok (some a)
  | none, some value => .ok (some value)
  | left, none => .ok left

/-- `merge_correlation`. -/
def mergeCorrelation (left right : CorrelationIds) (spanId : SpanId) : Except DomainError CorrelationIds := do
  let sessionId ← mergeOptional left.sessionId right.sessionId spanId "correlation.session_id"
  let turnId ← mergeOptional left.turnId right.turnId spanId "correlation.turn_id"
  let requestId ← mergeOptional left.requestId right.requestId spanId "correlation.request_id"
  let operationId ← mergeOptional left.operationId right.operationId spanId "correlation.operation_id"
  let permissionId ← mergeOptional left.permissionId right.permissionId spanId "correlation.permission_id"
  let compactionId ← mergeOptional left.compactionId right.compactionId spanId "correlation.compaction_id"
  pure { sessionId, turnId, requestId, operationId, permissionId, compactionId }

/-- `merge_metrics`: every metric by `merge_optional`. -/
def mergeMetrics (left right : TokenUsage) (spanId : SpanId) : Except DomainError TokenUsage := do
  let input ← mergeOptional left.input right.input spanId "token_usage.input"
  let output ← mergeOptional left.output right.output spanId "token_usage.output"
  let cachedInput ← mergeOptional left.cachedInput right.cachedInput spanId "token_usage.cached_input"
  let cacheCreationInput ←
    mergeOptional left.cacheCreationInput right.cacheCreationInput spanId "token_usage.cache_creation_input"
  let reasoningOutput ←
    mergeOptional left.reasoningOutput right.reasoningOutput spanId "token_usage.reasoning_output"
  let total ← mergeOptional left.total right.total spanId "token_usage.total"
  let totalInput ← mergeOptional left.totalInput right.totalInput spanId "token_usage.total_input"
  let totalOutput ← mergeOptional left.totalOutput right.totalOutput spanId "token_usage.total_output"
  let totalCachedInput ←
    mergeOptional left.totalCachedInput right.totalCachedInput spanId "token_usage.total_cached_input"
  let totalReasoningOutput ←
    mergeOptional left.totalReasoningOutput right.totalReasoningOutput spanId "token_usage.total_reasoning_output"
  let totalAccumulated ←
    mergeOptional left.totalAccumulated right.totalAccumulated spanId "token_usage.total_accumulated"
  let contextWindow ← mergeOptional left.contextWindow right.contextWindow spanId "token_usage.context_window"
  let inputBefore ← mergeOptional left.inputBefore right.inputBefore spanId "token_usage.input_before"
  let inputAfter ← mergeOptional left.inputAfter right.inputAfter spanId "token_usage.input_after"
  pure { input, output, cachedInput, cacheCreationInput, reasoningOutput, total, totalInput, totalOutput,
         totalCachedInput, totalReasoningOutput, totalAccumulated, contextWindow, inputBefore, inputAfter }

/-- The earlier start and the later end. -/
def mergeTiming (left right : Timing) : Timing where
  startUnixMs := min left.startUnixMs right.startUnixMs
  endUnixMs := match left.endUnixMs, right.endUnixMs with
    | some l, some r => some (max l r)
    | l, r => l.or r

/-- `merge_state`. -/
def mergeState (existing incoming : DomainSpanState) : Except DomainError DomainSpanState :=
  if existing.traceId ≠ incoming.traceId then .error (.fieldConflict existing.spanId "trace_id")
  else if existing.kind ≠ incoming.kind then .error (.fieldConflict existing.spanId "kind")
  else if existing.parentSpanId ≠ incoming.parentSpanId then .error (.fieldConflict existing.spanId "parent_span_id")
  else do
    let correlation ← mergeCorrelation existing.correlation incoming.correlation existing.spanId
    let lifecycle ← mergeLifecycle existing.lifecycle incoming.lifecycle existing.spanId
    let tokenUsage ← mergeMetrics existing.tokenUsage incoming.tokenUsage existing.spanId
    pure { existing with correlation, lifecycle, timing := mergeTiming existing.timing incoming.timing, tokenUsage }

/-- The states of a `LifecycleReducer`, in the order of their span ids. -/
abbrev LifecycleReducer := List DomainSpanState

namespace LifecycleReducer

/-- Adds an observation to the states: merged into the state of its span, or put
where its span id belongs. -/
def place (observation : DomainSpanState) : LifecycleReducer → Except DomainError LifecycleReducer
  | [] => .ok [observation]
  | state :: rest =>
    if state.spanId = observation.spanId then
      (mergeState state observation).map (· :: rest)
    else if observation.spanId.asStr < state.spanId.asStr then .ok (observation :: state :: rest)
    else (place observation rest).map (state :: ·)

/-- `LifecycleReducer::observe`. -/
def observe (states : LifecycleReducer) (observation : DomainSpanState) : Except DomainError LifecycleReducer :=
  if observation.timing.reversed then .error .endBeforeStart else place observation states

/-- `LifecycleReducer::reduce`. -/
def reduce (observations : List DomainSpanState) : Except DomainError LifecycleReducer :=
  observations.foldlM observe []

end LifecycleReducer

/-- `reduce_span_state` of the application crate: one observation merged into the
stored state of its span. -/
def reduceSpanState (existing : Option DomainSpanState) (incoming : DomainSpanState) :
    Except DomainError DomainSpanState :=
  match existing with
  | none => .ok incoming
  | some existing => do
    let reduced ← LifecycleReducer.reduce [existing, incoming]
    match reduced.getLast? with
    | some state => .ok state
    | none => .error (.lifecycleConflict existing.spanId)

/-! ### What a merge keeps -/

/-- A merge keeps the identity of the span and merges the rest part by part. -/
structure Merged (existing incoming merged : DomainSpanState) : Prop where
  /-- One trace. -/
  traceId : existing.traceId = incoming.traceId
  /-- One kind. -/
  kind : existing.kind = incoming.kind
  /-- One parent. -/
  parentSpanId : existing.parentSpanId = incoming.parentSpanId
  /-- The correlation ids are merged. -/
  correlation : mergeCorrelation existing.correlation incoming.correlation existing.spanId = .ok merged.correlation
  /-- The lifecycles are merged. -/
  lifecycle : mergeLifecycle existing.lifecycle incoming.lifecycle existing.spanId = .ok merged.lifecycle
  /-- The metrics are merged. -/
  tokenUsage : mergeMetrics existing.tokenUsage incoming.tokenUsage existing.spanId = .ok merged.tokenUsage
  /-- Nothing else changes but the timing. -/
  eq : merged = { existing with
    correlation := merged.correlation, lifecycle := merged.lifecycle, tokenUsage := merged.tokenUsage
    timing := mergeTiming existing.timing incoming.timing }

theorem mergeState_ok {existing incoming merged : DomainSpanState} (h : mergeState existing incoming = .ok merged) :
    Merged existing incoming merged := by
  unfold mergeState at h
  split at h
  · cases h
  · rename_i htrace
    split at h
    · cases h
    · rename_i hkind
      split at h
      · cases h
      · rename_i hparent
        simp only [bind_eq_ok, pure_eq_ok] at h
        obtain ⟨_, hc, _, hl, _, hm, rfl⟩ := h
        exact ⟨not_not.mp htrace, not_not.mp hkind, not_not.mp hparent, hc, hl, hm, rfl⟩

/-- A reduction of two observations of one span is their merge. -/
theorem reduceSpanState_some {existing incoming reduced : DomainSpanState} (hs : existing.spanId = incoming.spanId)
    (h : reduceSpanState (some existing) incoming = .ok reduced) : mergeState existing incoming = .ok reduced := by
  cases he : existing.timing.reversed with
  | true => simp [reduceSpanState, LifecycleReducer.reduce, LifecycleReducer.observe, he, bind, Except.bind] at h
  | false =>
    cases hi : incoming.timing.reversed with
    | true =>
      simp [reduceSpanState, LifecycleReducer.reduce, LifecycleReducer.observe, LifecycleReducer.place, he, hi, bind,
        Except.bind] at h
    | false =>
      cases hm : mergeState existing incoming with
      | error e =>
        simp [reduceSpanState, LifecycleReducer.reduce, LifecycleReducer.observe, LifecycleReducer.place, he, hi, hs,
          hm, bind, Except.bind, Except.map] at h
      | ok merged =>
        simp [reduceSpanState, LifecycleReducer.reduce, LifecycleReducer.observe, LifecycleReducer.place, he, hi, hs,
          hm, bind, Except.bind, Except.map, pure, Except.pure] at h
        rw [h]

end AgentObservability.Domain
