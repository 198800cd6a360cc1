import AgentObservability.Codex.Handoff
import Mathlib.Data.List.MinMax
import Mathlib.Data.Prod.Lex

/-!
# Correlation of Codex requests

A start of a request and the completion of its response are separate records,
often of separate exports, and a completion names its request seldom. The
correlation keeps a queue of open requests for each generation, conversation and
model, and a completion takes the front of its queue. A start that names its
request is recognised when it is delivered again, as long as it is open or was
completed a short time ago.

`pairRecord` says what the correlation makes of a record and of its own state,
and `Pairing.write` what becomes of the records of the export.
-/

namespace AgentObservability.Codex

open Domain Contracts Foundation Foundation.Json

/-- `MAX_PENDING_OTLP_REQUESTS`. -/
def maxPendingOtlpRequests : ℕ := 1024

/-- `MAX_RECENTLY_COMPLETED_OTLP_REQUESTS`. -/
def maxRecentlyCompletedOtlpRequests : ℕ := 1024

/-- `MAX_PERSISTED_OTLP_CORRELATION_BYTES`. -/
def maxPersistedOtlpCorrelationBytes : ℕ := 512 * 1024

/-- `OTLP_REQUEST_CORRELATION_TTL_MS`. -/
def otlpRequestCorrelationTtlMs : ℕ := 5 * 60 * 1000

/-- `OtlpRequestPairKey`: the generation, the conversation and the model, hashed. -/
abbrev OtlpRequestPairKey := Lex (String × Lex (String × String))

/-- A key of three hashes. -/
def pairKey (generation conversation model : String) : OtlpRequestPairKey :=
  toLex (generation, toLex (conversation, model))

/-- The generation of a key. -/
def OtlpRequestPairKey.generation (key : OtlpRequestPairKey) : String := (ofLex key).1

/-- The conversation of a key. -/
def OtlpRequestPairKey.conversation (key : OtlpRequestPairKey) : String := (ofLex (ofLex key).2).1

/-- The model of a key. -/
def OtlpRequestPairKey.model (key : OtlpRequestPairKey) : String := (ofLex (ofLex key).2).2

/-- `PendingOtlpRequest`. -/
structure PendingOtlpRequest where
  /-- `correlation_id`. -/
  correlationId : String
  /-- `official_retry_identity`. -/
  officialRetryIdentity : Option String
  /-- `inserted_at_unix_ms`. -/
  insertedAtUnixMs : ℕ
  /-- `sequence`. -/
  sequence : ℕ
  /-- `current_record_index`. -/
  currentRecordIndex : Option ℕ
  deriving DecidableEq

/-- `CompletedOfficialRetry`. -/
structure CompletedOfficialRetry where
  /-- `key`. -/
  key : OtlpRequestPairKey
  /-- `official_retry_identity`. -/
  officialRetryIdentity : String
  /-- `completed_at_unix_ms`. -/
  completedAtUnixMs : ℕ
  /-- `sequence`. -/
  sequence : ℕ
  deriving DecidableEq

/-- `OtlpRequestCorrelationState`. -/
structure CorrelationState where
  /-- `pending`. -/
  pending : OrderedMap OtlpRequestPairKey (List PendingOtlpRequest) := .empty
  /-- `recently_completed`. -/
  recentlyCompleted : List CompletedOfficialRetry := []
  /-- `next_sequence`. -/
  nextSequence : ℕ := 0
  deriving DecidableEq

namespace CorrelationState

/-- `pending_len`. -/
def pendingLen (s : CorrelationState) : ℕ := (s.pending.entries.map fun e => e.2.length).sum

/-- How many requests are open or remembered. -/
def size (s : CorrelationState) : ℕ := s.pendingLen + s.recentlyCompleted.length

/-- An entry of this time has not outlived its `OTLP_REQUEST_CORRELATION_TTL_MS`. -/
def fresh (nowUnixMs atUnixMs : ℕ) : Bool := nowUnixMs - atUnixMs < otlpRequestCorrelationTtlMs

/-- `expire`. -/
def expire (s : CorrelationState) (nowUnixMs : ℕ) : CorrelationState :=
  { s with
    pending := s.pending.retain fun pending => fresh nowUnixMs pending.insertedAtUnixMs
    recentlyCompleted := s.recentlyCompleted.filter fun completed => fresh nowUnixMs completed.completedAtUnixMs }

/-- The front of every queue, by its sequence and its key. -/
def fronts (s : CorrelationState) : List (Lex (ℕ × OtlpRequestPairKey)) :=
  s.pending.entries.filterMap fun e => e.2.head?.map fun pending => toLex (pending.sequence, e.1)

/-- `evict_oldest`. -/
def evictOldest (s : CorrelationState) : CorrelationState :=
  let oldestPending := s.fronts.argmin id
  let oldestCompleted := s.recentlyCompleted.zipIdx.argmin (·.1.sequence)
  match oldestCompleted, oldestPending with
  | some completed, none => { s with recentlyCompleted := s.recentlyCompleted.eraseIdx completed.2 }
  | some completed, some pending =>
    if completed.1.sequence ≤ (ofLex pending).1 then
      { s with recentlyCompleted := s.recentlyCompleted.eraseIdx completed.2 }
    else { s with pending := (s.pending.popFront (ofLex pending).2).2 }
  | none, some pending => { s with pending := (s.pending.popFront (ofLex pending).2).2 }
  | none, none => s

/-- The loop of `enforce_capacity`, which runs at most as often as there are entries. -/
def enforceCapacityLoop : ℕ → CorrelationState → CorrelationState
  | 0, s => s
  | rounds + 1, s => if maxPendingOtlpRequests < s.size then enforceCapacityLoop rounds s.evictOldest else s

/-- `enforce_capacity`. -/
def enforceCapacity (s : CorrelationState) : CorrelationState := enforceCapacityLoop s.size s

/-- `push`. -/
def push (s : CorrelationState) (key : OtlpRequestPairKey) (pending : PendingOtlpRequest) : CorrelationState :=
  enforceCapacity { s with pending := s.pending.pushBack key pending }

/-- `contains_official_retry`. -/
def containsOfficialRetry (s : CorrelationState) (key : OtlpRequestPairKey) (officialRetryIdentity : String) : Bool :=
  (s.pending.queue key).any (fun pending => pending.officialRetryIdentity = some officialRetryIdentity) ||
    s.recentlyCompleted.any fun completed =>
      completed.key = key ∧ completed.officialRetryIdentity = officialRetryIdentity

/-- `push_completed`. -/
def pushCompleted (s : CorrelationState) (completed : CompletedOfficialRetry) : CorrelationState :=
  enforceCapacity { s with recentlyCompleted := s.recentlyCompleted ++ [completed] }

/-- `next_sequence`: the sequence and the state after it. A counter that is exhausted forgets everything. -/
def takeSequence (s : CorrelationState) : ℕ × CorrelationState :=
  (s.nextSequence,
    if s.nextSequence + 1 < 2 ^ 64 then { s with nextSequence := s.nextSequence + 1 } else { nextSequence := 1 })

/-- `remember_completed_official_retry`. -/
def rememberCompletedOfficialRetry (s : CorrelationState) (key : OtlpRequestPairKey)
    (officialRetryIdentity : Option String) (nowUnixMs : ℕ) : CorrelationState :=
  match officialRetryIdentity with
  | none => s
  | some officialRetryIdentity =>
    s.takeSequence.2.pushCompleted
      { key, officialRetryIdentity, completedAtUnixMs := nowUnixMs, sequence := s.takeSequence.1 }

/-- `finish_batch`. -/
def finishBatch (s : CorrelationState) : CorrelationState :=
  { s with
    pending := s.pending.filterMap fun queue =>
      if queue.isEmpty then none else some (queue.map fun pending => { pending with currentRecordIndex := none }) }

end CorrelationState

/-! ### The records of an export -/

/-- Sets or removes the attribute `request_id`. -/
def HandoffRecord.setRequestId (r : HandoffRecord) (requestId : Option String) : HandoffRecord :=
  { r with
    attributes := match requestId with
      | some requestId => r.attributes.insert "request_id" (.string requestId)
      | none => r.attributes.erase "request_id" }

/-- `otlp_request_pair_key`. -/
def otlpRequestPairKey (attributes : Attributes) : Except AdapterError (Option (String × String)) := do
  let conversationId ← optionalString attributes "conversation_id"
  let model ← optionalString attributes "model"
  pure (conversationId.bind fun conversationId => model.map fun model => (conversationId, model))

/-- The record starts a request. -/
def HandoffRecord.isRequestStart (r : HandoffRecord) : Bool :=
  r.eventName = "codex.api_request" ∨ r.eventName = "codex.websocket_request"

/-- The record completes a response: `is_completed`. -/
def HandoffRecord.isCompleted (r : HandoffRecord) : Except AdapterError Bool :=
  if r.eventName = "codex.sse_event" then
    (optionalString r.attributes "kind").map fun kind => kind = some "response.completed"
  else .ok false

/-- What the correlation makes of a record. -/
inductive Pairing where
  /-- Nothing. -/
  | untouched
  /-- The record starts the request with this id. -/
  | started (correlationId : String)
  /-- The record completes an open request, and both get this id, if they do not contradict each other. -/
  | completed (pending : PendingOtlpRequest) (requestId : Option String)

/-- The records before the current one and the current one, with the ids of the pairing. -/
def Pairing.write (visited : List HandoffRecord) (record : HandoffRecord) : Pairing → List HandoffRecord
  | .untouched => visited ++ [record]
  | .started correlationId => visited ++ [record.setRequestId (some correlationId)]
  | .completed pending requestId =>
    (match pending.currentRecordIndex with
      | some apiIndex => visited.modify apiIndex (·.setRequestId requestId)
      | none => visited) ++ [record.setRequestId requestId]

section Pairing

variable [Sha2]

/-- The start of a request. -/
def pairStart (sourceGeneration : String) (nowUnixMs index : ℕ) (record : HandoffRecord)
    (conversationId model : String) (state : CorrelationState) : Except AdapterError (Pairing × CorrelationState) := do
  let key := pairKey (hashOpaqueIdentifier sourceGeneration) (hashOpaqueIdentifier conversationId)
    (hashOpaqueIdentifier model)
  let requestId ← optionalString record.attributes "request_id"
  let officialRetryIdentity := requestId.map hashOpaqueIdentifier
  let correlationId := officialRetryIdentity.getD
    (stableId "id:sha256" ["codex-local-request-v1", sourceGeneration, conversationId, model, record.cursor])
  let success ← optionalBool record.attributes "success"
  if success = some false then pure (.started correlationId, state)
  else if officialRetryIdentity.any (state.containsOfficialRetry key) then pure (.started correlationId, state)
  else
    pure (.started correlationId, state.takeSequence.2.push key
      { correlationId, officialRetryIdentity, insertedAtUnixMs := nowUnixMs, sequence := state.takeSequence.1
        currentRecordIndex := some index })

/-- The id of a completed request and its completion. -/
def completedRequestId (pending : PendingOtlpRequest) : Option String → Option String
  | some completed => if hashOpaqueIdentifier completed = pending.correlationId then some completed else none
  | none => some pending.correlationId

/-- The completion of a response. -/
def pairCompletion (sourceGeneration : String) (nowUnixMs : ℕ) (record : HandoffRecord)
    (conversationId model : String) (state : CorrelationState) : Except AdapterError (Pairing × CorrelationState) := do
  let key := pairKey (hashOpaqueIdentifier sourceGeneration) (hashOpaqueIdentifier conversationId)
    (hashOpaqueIdentifier model)
  let popped := state.pending.popFront key
  let state := { state with pending := popped.2 }
  match popped.1 with
  | none => pure (.untouched, state)
  | some pending =>
    let state := state.rememberCompletedOfficialRetry key pending.officialRetryIdentity nowUnixMs
    let completed ← optionalString record.attributes "request_id"
    pure (.completed pending (completedRequestId pending completed), state)

/-- The body of the loop of `correlate_otlp_request_pairs`. -/
def pairRecord (sourceGeneration : String) (nowUnixMs index : ℕ) (record : HandoffRecord) (state : CorrelationState) :
    Except AdapterError (Pairing × CorrelationState) := do
  let isCompleted ← record.isCompleted
  if ¬ record.isRequestStart ∧ ¬ isCompleted then pure (.untouched, state)
  else
    match ← otlpRequestPairKey record.attributes with
    | none => pure (.untouched, state)
    | some (conversationId, model) =>
      if record.isRequestStart then pairStart sourceGeneration nowUnixMs index record conversationId model state
      else pairCompletion sourceGeneration nowUnixMs record conversationId model state

/-- The loop, with the records already visited. -/
def correlateFrom (sourceGeneration : String) (nowUnixMs : ℕ) :
    List HandoffRecord → List HandoffRecord → CorrelationState → Except AdapterError (List HandoffRecord × CorrelationState)
  | visited, [], state => .ok (visited, state)
  | visited, record :: records, state => do
    let (pairing, state) ← pairRecord sourceGeneration nowUnixMs visited.length record state
    correlateFrom sourceGeneration nowUnixMs (pairing.write visited record) records state

/-- `correlate_otlp_request_pairs`. -/
def correlateOtlpRequestPairs (records : List HandoffRecord) (sourceGeneration : String) (nowUnixMs : ℕ)
    (state : CorrelationState) : Except AdapterError (List HandoffRecord × CorrelationState) := do
  let (records, state) ← correlateFrom sourceGeneration nowUnixMs [] records (state.expire nowUnixMs)
  pure (records, state.finishBatch)

end Pairing

end AgentObservability.Codex
