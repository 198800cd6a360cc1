import AgentObservability.Store.HotIndex

/-!
# Ingest

`ingest_in_transaction`, `ingest_disposition_in_transaction` and the ordered
batch. The function of the source is one long ladder of early returns; it is cut
here where the tables it looks at change:

* `ingestInTransaction` — the replay of a cursor, the order of the cursors, and
  the archive;
* `ingestVisible` — the guards: what the hot tables and the replay guards know
  of the span, of the trace and of the event;
* `commitObservation` — the reduction and the writes.

Each returns the status and the database that the transaction would commit. An
error leaves the database as it was before the transaction.
-/

namespace AgentObservability.Store

open Domain Contracts Foundation

/-- What ingest reports of an item it accepted. -/
inductive IngestStatus where
  /-- It was stored. -/
  | committed
  /-- It is known, at this cursor or by its event. -/
  | duplicate
  /-- It says nothing new. -/
  | suppressed
  deriving DecidableEq, Repr

/-- `MAX_ADAPTER_DISPOSITIONS`. -/
def maxAdapterDispositions : ℕ := 100000

/-- `MAX_TOPOLOGY_DEPTH`, which also bounds the direct children of a span. -/
def maxTopologyDepth : ℕ := 4096

/-- `map_reduction_error`. -/
def mapReductionError : DomainError → StoreError
  | .selfParent _ | .crossTraceParent _ _ | .invalidParentKind _ _ | .cycle _ => .topologyConflict
  | _ => .invalidObservation

/-! ### Cursors and dispositions -/

/-- `advance_metadata_generation`: the next value of a generation, which fits 64 bits. -/
def advanceGeneration (generation : ℕ) : Except StoreError ℕ := do
  require (generation + 1 < 2 ^ 64) .schemaMismatch
  pure (generation + 1)

section Cursors

variable [Sha2]

/-- `private_source_generation`: the generation of a checkpoint as it is stored. -/
def privateSourceGeneration (c : SourceCheckpoint) : String := hashOpaqueIdentifier c.sourceGeneration.asStr

/-- A row of a table with cursors stands at the checkpoint. -/
def AtCheckpoint (c : SourceCheckpoint) (source : AgentSource) (generation cursor : String) : Prop :=
  source = c.source ∧ generation = privateSourceGeneration c ∧ cursor = c.sourceCursor.asStr

instance (c : SourceCheckpoint) (source : AgentSource) (generation cursor : String) :
    Decidable (AtCheckpoint c source generation cursor) := inferInstanceAs (Decidable (_ ∧ _ ∧ _))

/-- `existing_disposition`. -/
def existingDisposition (db : Db) (c : SourceCheckpoint) : Option DispositionRow :=
  db.adapterDispositions.find? fun row => AtCheckpoint c row.source row.generation row.cursor

/-- The input that was accepted at a cursor. -/
def existingInput (db : Db) (c : SourceCheckpoint) : Option SourceInputRow :=
  db.sourceInputs.find? fun row => AtCheckpoint c row.source row.generation row.cursor

/-- The cursor that a source stream has reached. -/
def currentCursor (db : Db) (c : SourceCheckpoint) : Option String :=
  (db.sourceCursors.find? fun row => row.source = c.source ∧ row.generation = privateSourceGeneration c).map
    (·.cursor)

/-- `cursor_matches`, which is also `checkpoint_cursor_matches`. -/
def CursorMatches (db : Db) (c : SourceCheckpoint) : Prop :=
  c.sourceCursor.asStr ≠ (c.previousSourceCursor.map (·.asStr)).getD "" ∧
    currentCursor db c = c.previousSourceCursor.map (·.asStr)

instance (db : Db) (c : SourceCheckpoint) : Decidable (CursorMatches db c) := inferInstanceAs (Decidable (_ ∧ _))

/-- `advance_cursor`, which is also `advance_checkpoint_cursor`. -/
def advanceCursor (db : Db) (c : SourceCheckpoint) : Except StoreError (Table SourceCursorRow) :=
  ofOption .sqlite (db.sourceCursors.upsert
    { source := c.source, generation := privateSourceGeneration c, cursor := c.sourceCursor.asStr }
    (fun row => row.source = c.source ∧ row.generation = privateSourceGeneration c)
    (fun row => { row with cursor := c.sourceCursor.asStr })
    (fun _ _ => Iff.rfl) (fun _ _ => Iff.rfl))

/-- A disposition is recorded at a cursor, the cursor advances, and the ledger is pruned. -/
def recordDisposition (db : Db) (c : SourceCheckpoint) (disposition : AdapterDispositionKind)
    (code : AdapterDispositionCode) (payloadHash : String) : Except StoreError Db := do
  let dispositions ← ofOption .sqlite (db.adapterDispositions.insert
    { source := c.source, generation := privateSourceGeneration c, cursor := c.sourceCursor.asStr
      disposition, code, payloadHash })
  let sourceCursors ← advanceCursor db c
  pure { db with adapterDispositions := dispositions.keepNewest maxAdapterDispositions, sourceCursors }

/-- `insert_suppressed_observation`. -/
def insertSuppressedObservation (db : Db) (o : SourceObservation) (code : AdapterDispositionCode) :
    Except StoreError Db := do
  let payloadHash ← (canonicalObservationPayloadHash o).mapError fun _ => .invalidObservation
  recordDisposition db o.checkpoint .suppressed code payloadHash

end Cursors

/-! ### Preparation -/

/-- `PreparedObservation`. Its `projected_json` is the text of `record`. -/
structure PreparedObservation where
  /-- `state`. -/
  state : DomainSpanState
  /-- `record`. -/
  record : DurableRecordV1
  /-- `payload_hash`. -/
  payloadHash : String
  /-- `event_id`. -/
  eventId : String
  deriving DecidableEq

section Preparation

variable [Sha2]

/-- An identifier behind its digest: `TraceId::parse(hash_opaque_identifier(…))` and its siblings. -/
def privateId (value : Identifier) : Except StoreError Identifier :=
  (Identifier.parse (hashOpaqueIdentifier value.asStr)).mapError fun _ => .invalidObservation

/-- `private_optional_id`. -/
def privateOptionalId : Option Identifier → Except StoreError (Option Identifier)
  | none => .ok none
  | some value => (privateId value).map some

/-- `private_state`. -/
def privateState (s : DomainSpanState) : Except StoreError DomainSpanState := do
  let traceId ← privateId s.traceId
  let spanId ← privateId s.spanId
  let parentSpanId ← privateOptionalId s.parentSpanId
  let sessionId ← privateOptionalId s.correlation.sessionId
  let turnId ← privateOptionalId s.correlation.turnId
  let requestId ← privateOptionalId s.correlation.requestId
  let operationId ← privateOptionalId s.correlation.operationId
  let permissionId ← privateOptionalId s.correlation.permissionId
  let compactionId ← privateOptionalId s.correlation.compactionId
  pure { s with
    traceId, spanId, parentSpanId
    correlation := { sessionId, turnId, requestId, operationId, permissionId, compactionId } }

/-- `stable_event_id`. -/
def stableEventId (o : SourceObservation) : String :=
  digestComponents ["agent-observability-event-v1", o.source.asStr, o.sourceGeneration.asStr, o.observationId.asStr]

/-- `prepare_observation`. -/
def prepareObservation (o : SourceObservation) : Except StoreError PreparedObservation := do
  let record ← (durableRecord o o.rawState).mapError fun _ => .invalidObservation
  let state ← privateState o.rawState
  let payloadHash ← (canonicalObservationPayloadHash o).mapError fun _ => .invalidObservation
  pure { state, record, payloadHash, eventId := stableEventId o }

end Preparation

/-- `record_observed_at_millis`: the end of a record, or its start while it has none.
The checks of the source hold of every record, whose numbers are exact. -/
def recordObservedAt (r : DurableRecordV1) : ℕ := r.endTimeUnixMs.getD r.startTimeUnixMs

/-- `projection_state`. -/
def projectionState (o : SourceObservation) (reduced : DomainSpanState) : DomainSpanState :=
  { reduced with traceId := o.traceId, spanId := o.spanId, parentSpanId := o.parentSpanId }

/-- The phase that a projection shows for a tool run. -/
def projectionPhase (lifecycle : LifecycleState) (phase : Option String) : Option String :=
  match lifecycle with
  | .running => some "start"
  | .completed => some "result"
  | .failed | .interrupted => some "failure"
  | .observed => phase

/-- `projection_observation`. -/
def projectionObservation (o : SourceObservation) (reduced : DomainSpanState) : SourceObservation :=
  match o.event with
  | .toolOperation toolName phase =>
    { o with event := .toolOperation toolName (projectionPhase reduced.lifecycle phase) }
  | _ => o

/-! ### What is stored of a span -/

/-- The record of a span. -/
def recordOf (records : Table RecordRow) (spanId : String) : Option RecordRow :=
  records.find? fun row => row.spanId = spanId

@[inherit_doc recordOf]
abbrev Db.recordRow (db : Db) (spanId : String) : Option RecordRow := recordOf db.records spanId

/-- `load_state`. -/
def loadState (records : Table RecordRow) (spanId : String) : Except StoreError (Option DomainSpanState) :=
  match recordOf records spanId with
  | none => .ok none
  | some row => (stateFromJson row.state).map some

/-- The fields of a record that no observation of its span may change. -/
def StaticCompatible (existing incoming : DurableRecordV1) : Prop :=
  existing.traceId = incoming.traceId ∧ existing.parentSpanId = incoming.parentSpanId ∧
  existing.spanKind = incoming.spanKind ∧ existing.name = incoming.name ∧ existing.agent = incoming.agent ∧
  existing.project = incoming.project ∧ existing.attributes.source = incoming.attributes.source ∧
  existing.attributes.eventType = incoming.attributes.eventType ∧
  existing.attributes.envelopeType = incoming.attributes.envelopeType ∧
  existing.attributes.toolName = incoming.attributes.toolName ∧
  existing.attributes.decision = incoming.attributes.decision ∧
  existing.attributes.trigger = incoming.attributes.trigger

instance (existing incoming : DurableRecordV1) : Decidable (StaticCompatible existing incoming) :=
  inferInstanceAs (Decidable (_ ∧ _))

/-- `ensure_static_record_compatibility`. -/
def ensureStaticRecordCompatibility (existing incoming : DurableRecordV1) : Except StoreError Unit :=
  require (StaticCompatible existing incoming) .payloadConflict

/-- `topology_contains`. -/
def TopologyContains (db : Db) (spanId : String) : Prop := db.topology.Has fun row => row.spanId = spanId

instance (db : Db) (spanId : String) : Decidable (TopologyContains db spanId) :=
  inferInstanceAs (Decidable (Table.Has _ _))

/-- The loop of `validate_topology_chain`: the states from a span up to its root,
with a bound on their number. -/
def topologyChain (records : Table RecordRow) :
    ℕ → List String → Option String → Except StoreError (List DomainSpanState)
  | _, _, none => .ok []
  | 0, _, some _ => .error .invalidObservation
  | fuel + 1, seen, some id =>
    if id ∈ seen then .error .invalidObservation
    else do
      match ← loadState records id with
      | none => pure []
      | some state =>
        let states ← topologyChain records fuel (id :: seen) (state.parentSpanId.map (·.asStr))
        pure (state :: states)

/-- `validate_topology_chain`. -/
def validateTopologyChain (records : Table RecordRow) (spanId : String) : Except StoreError Unit := do
  let states ← topologyChain records maxTopologyDepth [] (some spanId)
  ((validateTopology states).mapError mapReductionError).map fun _ => ()

/-- The spans whose parent is the given one, in order. -/
def childrenOf (topology : Table TopologyRow) (parentSpanId : String) : List String :=
  ((topology.select fun row => row.parentSpanId = some parentSpanId).map (·.spanId)).insertionSort
    fun a b => a ≤ b

/-- `validate_direct_children`. -/
def validateDirectChildren (records : Table RecordRow) (topology : Table TopologyRow) (parentSpanId : String) :
    Except StoreError Unit := do
  let children := childrenOf topology parentSpanId
  require (children.length ≤ maxTopologyDepth) .invalidObservation
  children.forM (validateTopologyChain records)

/-! ### The writes -/

/-- The `rowid` of the next observation. -/
def Db.nextObservationRowid (db : Db) : ℕ := (db.observations.rows.map (·.rowid)).foldl max 0 + 1

/-- The next `commit_seq`. -/
def Db.nextCommitSeq (db : Db) : ℕ := db.recordsSequence + 1

/-- `SELECT length(state_json)+length(record_json)`: the size of a stored record in characters. -/
def RecordRow.sqlLength (row : RecordRow) : ℕ := charLength (stateJson row.state) + charLength row.record.json

/-- `state_json.len() + record_json.len()`: the size of a record in bytes. -/
def recordBytes (state : DomainSpanState) (record : DurableRecordV1) : ℕ :=
  byteLength (stateJson state) + byteLength record.json

/-- `projected_json.len() + payload_hash.len()`. -/
def observationBytes (projected : DurableRecordV1) (payloadHash : String) : ℕ :=
  byteLength projected.json + payloadHash.utf8ByteSize

section Ingest

variable [Sha2]

/-- The row of an observation. -/
def observationRow (db : Db) (o : SourceObservation) (p : PreparedObservation) (reduced : DomainSpanState) :
    ObservationRow where
  rowid := db.nextObservationRowid
  eventId := p.eventId
  source := o.source
  generation := privateSourceGeneration o.checkpoint
  observationId := hashOpaqueIdentifier o.observationId.asStr
  traceId := reduced.traceId.asStr
  observedAt := recordObservedAt p.record
  payloadHash := p.payloadHash
  projected := p.record

/-- The row that remembers an accepted cursor. -/
def sourceInputRow (o : SourceObservation) (p : PreparedObservation) : SourceInputRow where
  source := o.source
  generation := privateSourceGeneration o.checkpoint
  cursor := o.sourceCursor.asStr
  eventId := p.eventId
  payloadHash := p.payloadHash

omit [Sha2] in
/-- The upsert of a record. Its `commit_seq` is drawn before the conflict is seen. -/
def upsertRecord (db : Db) (reduced : DomainSpanState) (record : DurableRecordV1) : Option (Table RecordRow) :=
  db.records.upsert
    { commitSeq := db.nextCommitSeq, spanId := reduced.spanId.asStr, traceId := reduced.traceId.asStr
      parentSpanId := reduced.parentSpanId.map (·.asStr), kind := reduced.kind, state := reduced, record }
    (fun row => row.spanId = reduced.spanId.asStr)
    (fun row => { row with state := reduced, record })
    (fun _ _ => Iff.rfl) (fun _ _ => Iff.rfl)

omit [Sha2] in
/-- The upsert of a topology row. -/
def upsertTopology (db : Db) (reduced : DomainSpanState) (unresolved : Bool) : Option (Table TopologyRow) :=
  db.topology.upsert
    { spanId := reduced.spanId.asStr, traceId := reduced.traceId.asStr
      parentSpanId := reduced.parentSpanId.map (·.asStr), kind := reduced.kind, unresolved }
    (fun row => row.spanId = reduced.spanId.asStr)
    (fun row => { row with unresolved })
    (fun _ _ => Iff.rfl) (fun _ _ => Iff.rfl)

omit [Sha2] in
/-- `UPDATE topology SET unresolved=0 WHERE parent_span_id=?1`. -/
def resolveChildren (topology : Table TopologyRow) (parentSpanId : String) : Table TopologyRow :=
  topology.modify (fun row => row.parentSpanId = some parentSpanId) (fun row => { row with unresolved := false })
    (fun _ _ => Iff.rfl) (fun _ _ => Iff.rfl)

omit [Sha2] in
/-- `load_record` and `ensure_static_record_compatibility`, if there is a record. -/
def ensureCompatibleWithStored (db : Db) (p : PreparedObservation) : Except StoreError Unit :=
  match db.recordRow p.state.spanId.asStr with
  | some row => ensureStaticRecordCompatibility row.record p.record
  | none => .ok ()

/-- The reduction of an observation with what is stored of its span, and the record of the result. -/
def reduceObservation (db : Db) (o : SourceObservation) (p : PreparedObservation) :
    Except StoreError (DomainSpanState × DurableRecordV1) := do
  let existing ← loadState db.records p.state.spanId.asStr
  ensureCompatibleWithStored db p
  let reduced ← (reduceSpanState existing p.state).mapError mapReductionError
  let record ← (durableRecord (projectionObservation o reduced)
    (projectionState (projectionObservation o reduced) reduced)).mapError fun _ => .invalidObservation
  pure (reduced, record)

/-- The part of `ingest_in_transaction` that stores an observation. -/
def commitObservation (db : Db) (o : SourceObservation) (p : PreparedObservation) :
    Except StoreError (IngestStatus × Db) := do
  let (reduced, record) ← reduceObservation db o p
  let priorRecordBytes := (db.recordRow reduced.spanId.asStr).map (·.sqlLength)
  let unresolved := reduced.parentSpanId.any fun parent => ¬ TopologyContains db parent.asStr
  let observations ← ofOption .sqlite (db.observations.insert (observationRow db o p reduced))
  let sourceInputs ← ofOption .sqlite (db.sourceInputs.insert (sourceInputRow o p))
  let records ← ofOption .sqlite (upsertRecord db reduced record)
  let topology ← ofOption .sqlite (upsertTopology db reduced unresolved)
  validateTopologyChain records reduced.spanId.asStr
  validateDirectChildren records topology reduced.spanId.asStr
  let topology := resolveChildren topology reduced.spanId.asStr
  let (hotTraceIndex, lifecycleBackfillCursor) ← updateHotTraceIndex { db with observations, topology }
    reduced.traceId.asStr (recordObservedAt p.record) priorRecordBytes (recordBytes reduced record)
    (observationBytes p.record p.payloadHash)
  let deliveryOutcomes ← ofOption .sqlite (db.deliveryOutcomes.insert ⟨p.eventId⟩)
  let sourceCursors ← advanceCursor db o.checkpoint
  let reportGeneration ← advanceGeneration db.reportGeneration
  pure (.committed,
    { db with
      observations, sourceInputs, records, recordsSequence := db.nextCommitSeq, topology, hotTraceIndex
      lifecycleBackfillCursor, deliveryOutcomes, sourceCursors, projectionDirty := true, reportGeneration })

/-! ### The guards -/

/-- The way out for an observation that says nothing new: `insert_duplicate_disposition`. -/
def suppressDuplicate (db : Db) (o : SourceObservation) : Except StoreError (IngestStatus × Db) := do
  let db ← insertSuppressedObservation db o .duplicateObservation
  pure (.suppressed, { db with projectionDirty := true })

/-- The way out for an observation of a trace that was purged. -/
def suppressExpired (db : Db) (o : SourceObservation) : Except StoreError (IngestStatus × Db) := do
  let db ← insertSuppressedObservation db o .expiredTrace
  pure (.suppressed, db)

omit [Sha2] in
/-- The record of the span has exactly the observed state: `same_canonical_observation`. -/
def sameCanonicalObservation (db : Db) (p : PreparedObservation) : Except StoreError Bool :=
  match db.recordRow p.state.spanId.asStr with
  | none => .ok false
  | some row => do
    ensureStaticRecordCompatibility row.record p.record
    let existing ← stateFromJson row.state
    pure (existing = p.state)

/-- The trace was purged. -/
def TraceExpired (db : Db) (traceId : String) : Prop :=
  db.expiredTraceStates.Has fun row => row.traceKey = hashOpaqueIdentifier traceId

instance (db : Db) (traceId : String) : Decidable (TraceExpired db traceId) :=
  inferInstanceAs (Decidable (Table.Has _ _))

omit [Sha2] in
/-- The replay guard of a span. -/
def Db.guardRow (db : Db) (spanId : String) : Option SpanGuardRow :=
  db.expiredSpanStates.find? fun row => row.spanId = spanId

omit [Sha2] in
/-- The observation that an event was stored as. -/
def Db.eventRow (db : Db) (eventId : String) : Option ObservationRow :=
  db.observations.find? fun row => row.eventId = eventId

/-- The way out for an event that is stored already, under another cursor. -/
def acceptDuplicateEvent (db : Db) (o : SourceObservation) (p : PreparedObservation) :
    Except StoreError (IngestStatus × Db) := do
  let sourceInputs ← ofOption .sqlite (db.sourceInputs.insert (sourceInputRow o p))
  let sourceCursors ← advanceCursor db o.checkpoint
  pure (.duplicate, { db with sourceInputs, sourceCursors, projectionDirty := true })

/-- The part of `ingest_in_transaction` behind the archive: what the hot tables
and the replay guards know, and the commit. -/
def ingestVisible (db : Db) (o : SourceObservation) (p : PreparedObservation) :
    Except StoreError (IngestStatus × Db) := do
  if ← sameCanonicalObservation db p then suppressDuplicate db o
  else match db.guardRow p.state.spanId.asStr with
    | some guard =>
      if guard.canonicalStateHash ≠ canonicalStateHash p.state then
        if TraceExpired db p.state.traceId.asStr then suppressExpired db o else .error .payloadConflict
      else suppressDuplicate db o
    | none =>
      if TraceExpired db p.state.traceId.asStr then suppressExpired db o
      else match db.eventRow p.eventId with
        | some row => if row.payloadHash ≠ p.payloadHash then .error .payloadConflict else acceptDuplicateEvent db o p
        | none => commitObservation db o p

/-- The disposition says that this very observation was suppressed at the cursor. -/
def DispositionRow.Suppresses (row : DispositionRow) (payloadHash : String) : Prop :=
  row.disposition = .suppressed ∧ (row.code = .duplicateObservation ∨ row.code = .expiredTrace) ∧
    row.payloadHash = payloadHash

instance (row : DispositionRow) (payloadHash : String) : Decidable (row.Suppresses payloadHash) :=
  inferInstanceAs (Decidable (_ ∧ _))

/-- `ingest_in_transaction`. -/
def ingestInTransaction (db : Db) (o : SourceObservation) : Except StoreError (IngestStatus × Db) := do
  let p ← prepareObservation o
  match existingDisposition db o.checkpoint with
  | some row => if row.Suppresses p.payloadHash then pure (.suppressed, db) else .error .payloadConflict
  | none =>
    match existingInput db o.checkpoint with
    | some row =>
      if row.eventId ≠ p.eventId ∨ row.payloadHash ≠ p.payloadHash then .error .payloadConflict
      else pure (.duplicate, db)
    | none => do
      require (CursorMatches db o.checkpoint) .cursorConflict
      let (preparation, db) ← prepareArchivedTrace db p.state
      if preparation = .duplicate then suppressDuplicate db o else ingestVisible db o p

/-! ### Dispositions and batches -/

omit [Sha2] in
/-- The form of a payload hash that a caller may give. -/
def ValidPayloadHash (value : String) : Prop :=
  value.utf8ByteSize = 71 ∧ "sha256:".toList <+: value.toList ∧
    ((value.toList.drop 7).all fun c => c.isDigit || ('a' ≤ c && c ≤ 'f') || ('A' ≤ c && c ≤ 'F')) = true

instance (value : String) : Decidable (ValidPayloadHash value) := inferInstanceAs (Decidable (_ ∧ _ ∧ _))

/-- `disposition_payload_hash`. -/
def dispositionPayloadHash (c : SourceCheckpoint) (disposition : AdapterDispositionKind)
    (code : AdapterDispositionCode) : String :=
  digestComponents ["agent-observability-disposition-v1", c.source.asStr, c.sourceGeneration.asStr,
    c.sourceCursor.asStr, disposition.asStr, code.asStr]

/-- `ingest_disposition_in_transaction`. -/
def ingestDispositionInTransaction (db : Db) (c : SourceCheckpoint) (disposition : AdapterDispositionKind)
    (code : AdapterDispositionCode) (canonicalPayloadHash : Option String) :
    Except StoreError (IngestStatus × Db) := do
  require (∀ value ∈ canonicalPayloadHash, ValidPayloadHash value) .invalidObservation
  let payloadHash := canonicalPayloadHash.getD (dispositionPayloadHash c disposition code)
  match existingDisposition db c with
  | some row =>
    if row.disposition ≠ disposition ∨ row.code ≠ code ∨ row.payloadHash ≠ payloadHash then .error .payloadConflict
    else pure (.duplicate, db)
  | none => do
    require ((existingInput db c).isNone) .payloadConflict
    require (CursorMatches db c) .cursorConflict
    let db ← recordDisposition db c disposition code payloadHash
    pure (.committed, db)

/-- An item of an ordered batch: `StoreBatchItem`. -/
inductive StoreBatchItem where
  /-- An observation. -/
  | observation (o : SourceObservation)
  /-- A disposition at a checkpoint. -/
  | disposition (checkpoint : SourceCheckpoint) (disposition : AdapterDispositionKind)
      (code : AdapterDispositionCode) (canonicalPayloadHash : Option String)
  deriving DecidableEq

/-- The ingest of one item. -/
def ingestItem (db : Db) : StoreBatchItem → Except StoreError (IngestStatus × Db)
  | .observation o => ingestInTransaction db o
  | .disposition c disposition code canonicalPayloadHash =>
    ingestDispositionInTransaction db c disposition code canonicalPayloadHash

/-- `ingest_ordered_batch_at_inner`: the items of a batch share one transaction. -/
def ingestOrderedBatch (db : Db) : List StoreBatchItem → Except StoreError (List IngestStatus × Db)
  | [] => .ok ([], db)
  | item :: items => do
    let (status, db) ← ingestItem db item
    let (statuses, db) ← ingestOrderedBatch db items
    pure (status :: statuses, db)

end Ingest

end AgentObservability.Store
