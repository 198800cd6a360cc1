import AgentObservability.Foundation.KeySort
import AgentObservability.Store.Schema

/-!
# The tiers of a trace

The statements that carry a whole trace between the hot tables, the warm tables
and the cold archive: the moves of the lifecycle (`moveHotToWarm`, `moveToCold`,
`purgeTrace`) and the way back (`prepareArchivedTrace`), which an observation of
an archived trace takes before it is ingested.

A trace that leaves the hot tables keeps its reducer state in the control tables,
and each of its spans leaves a replay guard: the hash of its canonical state.
-/

namespace AgentObservability.Store

open Domain Contracts Foundation

/-- `state_to_json`. -/
def stateJson (s : DomainSpanState) : Text :=
  Json.object [("lifecycle", Json.str (lifecycleName s.lifecycle)), ("trace_id", Json.str s.traceId.asStr),
    ("span_id", Json.str s.spanId.asStr), ("parent_span_id", id s.parentSpanId), ("kind", Json.str (kindName s.kind)),
    ("correlation", Json.object [("session", id s.correlation.sessionId), ("turn", id s.correlation.turnId),
      ("request", id s.correlation.requestId), ("operation", id s.correlation.operationId),
      ("permission", id s.correlation.permissionId), ("compaction", id s.correlation.compactionId)]),
    ("start_unix_ms", Json.nat s.timing.startUnixMs), ("end_unix_ms", Json.option Json.nat s.timing.endUnixMs),
    ("token_usage", Json.object <| [("input", s.tokenUsage.input), ("output", s.tokenUsage.output),
      ("cached_input", s.tokenUsage.cachedInput), ("cache_creation_input", s.tokenUsage.cacheCreationInput),
      ("reasoning_output", s.tokenUsage.reasoningOutput), ("total", s.tokenUsage.total),
      ("total_input", s.tokenUsage.totalInput), ("total_output", s.tokenUsage.totalOutput),
      ("total_cached_input", s.tokenUsage.totalCachedInput),
      ("total_reasoning_output", s.tokenUsage.totalReasoningOutput),
      ("total_accumulated", s.tokenUsage.totalAccumulated), ("context_window", s.tokenUsage.contextWindow),
      ("input_before", s.tokenUsage.inputBefore), ("input_after", s.tokenUsage.inputAfter)].map
      fun m => (m.1, Json.option Json.nat m.2))]
where
  /-- An optional identifier. -/
  id (value : Option Identifier) : Text := Json.option (fun i => Json.str i.asStr) value

/-- `state_from_json` on the text of a state: it rejects a range that ends before it starts. -/
def stateFromJson (s : DomainSpanState) : Except StoreError DomainSpanState := do
  require (s.timing.reversed = false) .invalidObservation
  pure s

/-- `MAX_EXPIRED_SPAN_GUARDS`. -/
def maxExpiredSpanGuards : ℕ := 100000

/-! ### Leaving the hot tables -/

/-- The tiers that the lifecycle scans. -/
inductive Tier where
  /-- The authority of ingest. -/
  | hot
  /-- Archived, and part of reports. -/
  | warm
  /-- Archived, and not part of reports. -/
  | cold
  deriving DecidableEq, Repr

/-- A trace that the lifecycle looks at. -/
structure Candidate where
  /-- `tier`. -/
  tier : Tier
  /-- `identity`. -/
  identity : String
  /-- `latest_observed_at_unix_ms`. -/
  latestObservedAt : ℕ
  /-- `unresolved`. -/
  unresolved : Bool
  /-- `cursor_after`. -/
  cursorAfter : LifecycleCursor
  deriving DecidableEq

/-- The size of a trace. -/
structure Footprint where
  /-- `records`. -/
  records : ℕ
  /-- `bytes`. -/
  bytes : ℕ
  deriving DecidableEq

/-- `typed_footprint` of an index row, whose bytes may be negative. -/
def HotTraceRow.footprint (row : HotTraceRow) : Except StoreError Footprint := do
  require (0 ≤ row.estimatedBytes) .schemaMismatch
  pure ⟨row.recordCount, row.estimatedBytes.toNat⟩

/-- The control row of an archived trace in a tier. -/
def Db.controlRow (db : Db) (traceKey : String) (tier : ArchiveTier) : Except StoreError TraceControlRow :=
  ofOption .sqlite (db.traceControl.find? fun row => row.traceKey = traceKey ∧ row.tier = tier)

/-- `trace_footprint`. -/
def traceFootprint (db : Db) (candidate : Candidate) : Except StoreError Footprint := do
  let footprint ← match candidate.tier with
    | .hot => do
      let row ← ofOption .sqlite
        (db.hotTraceIndex.find? fun row => row.traceId = candidate.identity ∧ row.indexedComplete = true)
      row.footprint
    | .warm => (db.controlRow candidate.identity .warm).map fun row => ⟨row.recordCount, row.estimatedBytes⟩
    | .cold => (db.controlRow candidate.identity .cold).map fun row => ⟨row.recordCount, row.estimatedBytes⟩
  require (footprint.records ≠ 0) .schemaMismatch
  pure footprint

/-- The records of a trace in commit order. -/
def Db.recordsOf (db : Db) (traceId : String) : List RecordRow :=
  sortByKey (·.commitSeq) (db.records.select fun row => row.traceId = traceId)

/-- The control copies of a trace in commit order. -/
def Db.spansOf (db : Db) (traceKey : String) : List SpanControlRow :=
  sortByKey (·.originalCommitSeq) (db.spanControl.select fun row => row.traceKey = traceKey)

/-- The warm records of a trace in commit order. -/
def Db.warmRecordsOf (db : Db) (traceKey : String) : List WarmRecordRow :=
  sortByKey (·.originalCommitSeq) (db.warmRecords.select fun row => row.traceKey = traceKey)

/-- `load_hot_records`. -/
def loadHotRecords (db : Db) (traceId : String) : Except StoreError (List RecordRow) := do
  require (db.recordsOf traceId ≠ []) .schemaMismatch
  pure (db.recordsOf traceId)

/-- The control copy of a record. -/
def RecordRow.toControl (traceKey : String) (row : RecordRow) : SpanControlRow where
  spanId := row.spanId
  traceKey := traceKey
  originalCommitSeq := row.commitSeq
  traceId := row.traceId
  parentSpanId := row.parentSpanId
  kind := row.kind
  state := row.state
  record := row.record

/-- The warm copy of a record, under the span id that the record itself names. -/
def RecordRow.toWarm (traceKey : String) (row : RecordRow) : WarmRecordRow where
  spanId := row.record.spanId
  traceKey := traceKey
  originalCommitSeq := row.commitSeq
  record := row.record

/-- `record.validate()` of a record read back from a column. -/
def validateStored (record : DurableRecordV1) : Except StoreError Unit :=
  record.validate.mapError fun _ => .schemaMismatch

/-- `decode_records`. -/
def decodeRecords (records : List DurableRecordV1) : Except StoreError (List DurableRecordV1) := do
  records.forM validateStored
  require (records ≠ []) .schemaMismatch
  pure records

/-- `archive_hot_control`: the control tables it leaves. -/
def archiveHotControl (db : Db) (candidate : Candidate) (traceKey : String) (tier : ArchiveTier) :
    Except StoreError (Table TraceControlRow × Table SpanControlRow) := do
  let footprint ← traceFootprint db candidate
  let traceControl ← ofOption .sqlite (db.traceControl.insert
    { traceKey, tier, latestObservedAt := candidate.latestObservedAt, recordCount := footprint.records
      estimatedBytes := footprint.bytes })
  let rows := db.recordsOf candidate.identity
  let spanControl ← ofOption .sqlite (db.spanControl.insertAll (rows.map (·.toControl traceKey)))
  require (rows.length = footprint.records) .schemaMismatch
  pure (traceControl, spanControl)

/-- `delete_hot_trace`, on each trace of a list. -/
def deleteHotTraces (db : Db) (traceIds : List String) : Db :=
  let gone (eventId : String) : Prop := db.observations.Has fun row => row.eventId = eventId ∧ row.traceId ∈ traceIds
  { db with
    deliveryOutcomes := db.deliveryOutcomes.delete fun row => gone row.eventId
    sourceInputs := db.sourceInputs.delete fun row => gone row.eventId
    observations := db.observations.delete fun row => row.traceId ∈ traceIds
    topology := db.topology.delete fun row => row.traceId ∈ traceIds
    records := db.records.delete fun row => row.traceId ∈ traceIds
    hotTraceIndex := db.hotTraceIndex.delete fun row => row.traceId ∈ traceIds }

/-- `delete_hot_trace`. -/
def deleteHotTrace (db : Db) (traceId : String) : Db := deleteHotTraces db [traceId]

section Digests

variable [Sha2]

/-- `canonical_state_hash`. -/
def canonicalStateHash (s : DomainSpanState) : String :=
  Sha2.hexDigest (bytes "agent-observability-expired-span-state-v1" ++ utf8 (stateJson s))

/-- The replay guard of a state. -/
def spanGuard (s : DomainSpanState) : SpanGuardRow := ⟨s.spanId.asStr, canonicalStateHash s⟩

omit [Sha2] in
/-- `INSERT OR REPLACE` of replay guards and `prune_expired_span_guards`. -/
def replaceSpanGuards (guards : Table SpanGuardRow) (rows : List SpanGuardRow) : Table SpanGuardRow :=
  (rows.foldl Table.replace guards).keepNewest maxExpiredSpanGuards

/-- `insert_span_guards`: the guards it leaves. -/
def insertSpanGuards (db : Db) (states : List DomainSpanState) : Except StoreError (Table SpanGuardRow) := do
  states.forM fun s => (stateFromJson s).map fun _ => ()
  pure (replaceSpanGuards db.expiredSpanStates (states.map spanGuard))

/-- One round of the loop of `move_hot_to_warm`. -/
def insertWarmRecord (traceKey : String) (warmRecords : Table WarmRecordRow) (row : RecordRow) :
    Except StoreError (Table WarmRecordRow) := do
  validateStored row.record
  ofOption .sqlite (warmRecords.insert (row.toWarm traceKey))

/-- `move_hot_to_warm`. -/
def moveHotToWarm (db : Db) (candidate : Candidate) (nowUnixMs : ℕ) : Except StoreError Db := do
  let traceKey := hashOpaqueIdentifier candidate.identity
  let (traceControl, spanControl) ← archiveHotControl db candidate traceKey .warm
  let warmTraces ← ofOption .sqlite (db.warmTraces.insert
    { traceKey, latestObservedAt := candidate.latestObservedAt, movedAt := nowUnixMs })
  let rows ← loadHotRecords db candidate.identity
  let expiredSpanStates ← insertSpanGuards db (rows.map (·.state))
  let warmRecords ← rows.foldlM (insertWarmRecord traceKey) db.warmRecords
  pure (deleteHotTrace { db with traceControl, spanControl, warmTraces, expiredSpanStates, warmRecords }
    candidate.identity)

omit [Sha2] in
/-- `INSERT INTO cold_traces` of decoded records. -/
def insertColdTrace (db : Db) (candidate : Candidate) (traceKey : String) (nowUnixMs : ℕ)
    (records : List DurableRecordV1) : Except StoreError (Table ColdTraceRow) :=
  ofOption .sqlite (db.coldTraces.insert
    { traceKey, latestObservedAt := candidate.latestObservedAt, archivedAt := nowUnixMs
      recordCount := records.length
      archiveBytes := byteLength (Json.array (records.map (·.json)))
      archive := records })

/-- `move_to_cold`. -/
def moveToCold (db : Db) (candidate : Candidate) (nowUnixMs : ℕ) : Except StoreError Db :=
  match candidate.tier with
  | .hot => do
    let traceKey := hashOpaqueIdentifier candidate.identity
    let (traceControl, spanControl) ← archiveHotControl db candidate traceKey .cold
    let rows ← loadHotRecords db candidate.identity
    let expiredSpanStates ← insertSpanGuards db (rows.map (·.state))
    let records ← decodeRecords (rows.map (·.record))
    let coldTraces ← insertColdTrace db candidate traceKey nowUnixMs records
    pure (deleteHotTrace { db with traceControl, spanControl, expiredSpanStates, coldTraces } candidate.identity)
  | .warm => do
    let records ← decodeRecords ((db.warmRecordsOf candidate.identity).map (·.record))
    let coldTraces ← insertColdTrace db candidate candidate.identity nowUnixMs records
    pure { db with
      traceControl := db.traceControl.modify (fun row => row.traceKey = candidate.identity ∧ row.tier = .warm)
        (fun row => { row with tier := .cold }) (fun _ _ => Iff.rfl) (fun _ _ => Iff.rfl)
      -- The warm records go with the warm trace: the foreign key cascades.
      warmTraces := db.warmTraces.delete fun row => row.traceKey = candidate.identity
      warmRecords := db.warmRecords.delete fun row => row.traceKey = candidate.identity
      coldTraces }
  | .cold => .error .schemaMismatch

omit [Sha2] in
/-- The guard of a purged trace, and the pruning of the guards. -/
def insertTraceGuard (db : Db) (traceKey : String) : Table TraceGuardRow :=
  (db.expiredTraceStates.replace ⟨traceKey⟩).keepNewest maxExpiredSpanGuards

omit [Sha2] in
/-- The deletion of an archived trace from its tier and from the control tables, whose foreign keys cascade. -/
def deleteArchivedTrace (db : Db) (traceKey : String) : Db :=
  { db with
    warmTraces := db.warmTraces.delete fun row => row.traceKey = traceKey
    warmRecords := db.warmRecords.delete fun row => row.traceKey = traceKey
    coldTraces := db.coldTraces.delete fun row => row.traceKey = traceKey
    traceControl := db.traceControl.delete fun row => row.traceKey = traceKey
    spanControl := db.spanControl.delete fun row => row.traceKey = traceKey }

/-- `purge_trace`. -/
def purgeTrace (db : Db) (candidate : Candidate) : Except StoreError Db :=
  match candidate.tier with
  | .hot => do
    let rows ← loadHotRecords db candidate.identity
    let expiredSpanStates ← insertSpanGuards db (rows.map (·.state))
    let expiredTraceStates := insertTraceGuard db (hashOpaqueIdentifier candidate.identity)
    pure (deleteHotTrace { db with expiredSpanStates, expiredTraceStates } candidate.identity)
  | .warm =>
    pure { db with
      warmTraces := db.warmTraces.delete fun row => row.traceKey = candidate.identity
      warmRecords := db.warmRecords.delete fun row => row.traceKey = candidate.identity
      traceControl := db.traceControl.delete fun row => row.traceKey = candidate.identity
      spanControl := db.spanControl.delete fun row => row.traceKey = candidate.identity
      expiredTraceStates := insertTraceGuard db candidate.identity }
  | .cold =>
    pure { db with
      coldTraces := db.coldTraces.delete fun row => row.traceKey = candidate.identity
      traceControl := db.traceControl.delete fun row => row.traceKey = candidate.identity
      spanControl := db.spanControl.delete fun row => row.traceKey = candidate.identity
      expiredTraceStates := insertTraceGuard db candidate.identity }

/-! ### Coming back -/

/-- What an observation finds of its trace in the archive. -/
inductive ArchivedTracePreparation where
  /-- The trace is not archived. -/
  | notArchived
  /-- The archive holds exactly the observed state of the span. -/
  | duplicate
  /-- The trace was archived, and is hot again. -/
  | rehydrated
  deriving DecidableEq, Repr

omit [Sha2] in
/-- The record that a control copy was made of. -/
def SpanControlRow.toRecord (row : SpanControlRow) : RecordRow where
  commitSeq := row.originalCommitSeq
  spanId := row.spanId
  traceId := row.traceId
  parentSpanId := row.parentSpanId
  kind := row.kind
  state := row.state
  record := row.record

/-- The topology row of a control copy: its parent is looked for among the copies of its trace. -/
def SpanControlRow.toTopology (rows : List SpanControlRow) (row : SpanControlRow) : TopologyRow where
  spanId := row.spanId
  traceId := row.traceId
  parentSpanId := row.parentSpanId
  kind := row.kind
  unresolved := row.parentSpanId.any fun parent => !rows.any fun r => r.spanId = parent

/-- Some link of the trace has no parent in the topology. -/
def HasUnresolved (topology : Table TopologyRow) (traceId : String) : Prop :=
  topology.Has fun row => row.traceId = traceId ∧ row.unresolved = true

instance (topology : Table TopologyRow) (traceId : String) : Decidable (HasUnresolved topology traceId) :=
  inferInstanceAs (Decidable (topology.Has _))

/-- The part of `prepare_archived_trace` that restores a trace. -/
def rehydrate (db : Db) (control : TraceControlRow) (incoming : DomainSpanState) : Except StoreError Db := do
  let traceKey := control.traceKey
  let rows := db.spansOf traceKey
  let first ← ofOption .sqlite rows.head?
  require (first.traceId = incoming.traceId.asStr) .schemaMismatch
  let records ← ofOption .sqlite (db.records.insertAll (rows.map (·.toRecord)))
  require (rows.length = control.recordCount) .schemaMismatch
  let topology ← ofOption .sqlite (db.topology.insertAll (rows.map (·.toTopology rows)))
  let hotTraceIndex ← ofOption .sqlite (db.hotTraceIndex.insert
    { traceId := first.traceId, latestObservedAt := control.latestObservedAt
      unresolved := HasUnresolved topology first.traceId, recordCount := control.recordCount
      estimatedBytes := control.estimatedBytes, indexedComplete := true })
  pure (deleteArchivedTrace
    { db with
      records, topology, hotTraceIndex
      recordsSequence := (rows.map (·.originalCommitSeq)).foldl max db.recordsSequence
      expiredSpanStates := db.expiredSpanStates.delete fun guard => rows.any fun row => row.spanId = guard.spanId }
    traceKey)

/-- `prepare_archived_trace`. -/
def prepareArchivedTrace (db : Db) (incoming : DomainSpanState) :
    Except StoreError (ArchivedTracePreparation × Db) :=
  let traceKey := hashOpaqueIdentifier incoming.traceId.asStr
  match db.traceControl.find? fun row => row.traceKey = traceKey with
  | none => pure (.notArchived, db)
  | some control =>
    match db.spanControl.find? fun row => row.traceKey = traceKey ∧ row.spanId = incoming.spanId.asStr with
    | none => (rehydrate db control incoming).map (.rehydrated, ·)
    | some row => do
      let archived ← stateFromJson row.state
      if canonicalStateHash archived = canonicalStateHash incoming then pure (.duplicate, db)
      else (rehydrate db control incoming).map (.rehydrated, ·)

end Digests

end AgentObservability.Store
