import AgentObservability.Contracts.Record
import AgentObservability.Domain.Topology
import AgentObservability.Foundation.Table
import Mathlib.Order.Lattice.Nat
import Mathlib.Order.WithBot

/-!
# The tables of the local store

The database of the local store: one row type for each table, with the table's
`PRIMARY KEY` and `UNIQUE` constraints as its `Keyed` instance, and `Db`, the
tables together with the rows of `metadata` that are single values.

Columns have the type of what they hold. A JSON column is the value it encodes,
a timestamp column (twenty decimal digits, so that texts compare as numbers) is
the number, and the empty timestamp of an unfinished index row is `⊥`. The
column `scan_key` of the hot index repeats `trace_id` in every statement and is
left out. Columns are natural numbers where the source converts to and from `i64`;
no value comes near the bounds of the conversions.
-/

namespace AgentObservability.Store

open Domain Contracts Foundation

/-- The errors of the store that the modelled operations return. -/
inductive StoreError where
  /-- An I/O failure. -/
  | io
  /-- The database refused a statement: a constraint does not hold. -/
  | sqlite
  /-- An observation, a disposition or a topology that is not valid. -/
  | invalidObservation
  /-- A cursor that does not extend its source stream. -/
  | cursorConflict
  /-- A cursor, an event or a span that is known with other data. -/
  | payloadConflict
  /-- A link that the topology forbids. -/
  | topologyConflict
  /-- The stored data contradicts itself. -/
  | schemaMismatch
  /-- The plan is not the one of the current state. -/
  | staleRetentionPlan
  /-- The bounds do not fit every eligible trace. -/
  | retentionBoundsTooSmall
  /-- The bounds are not admitted. -/
  | invalidRetentionBounds
  /-- An earlier pass has to be recovered first. -/
  | pendingRetentionRecovery
  /-- The report views could not be retired. -/
  | reportViewRetirement
  /-- The snapshot changed under a visit. -/
  | reportSnapshotChanged
  /-- A record does not fit a batch. -/
  | reportSnapshotRecordTooLarge (recordBytes maxBatchBytes : ℕ)
  /-- Malformed JSON. -/
  | json
  deriving DecidableEq, Repr

/-! ### Rows -/

/-- A row of `records`: the reducer state of a span and its durable record. -/
structure RecordRow where
  /-- `commit_seq`. -/
  commitSeq : ℕ
  /-- `span_id`. -/
  spanId : String
  /-- `trace_id`. -/
  traceId : String
  /-- `parent_span_id`. -/
  parentSpanId : Option String
  /-- `kind`. -/
  kind : SpanKind
  /-- `state_json`. -/
  state : DomainSpanState
  /-- `record_json`. -/
  record : DurableRecordV1
  deriving DecidableEq

instance : Keyed RecordRow where
  Clash a b := a.commitSeq = b.commitSeq ∨ a.spanId = b.spanId
  symm _ _ h := h.imp Eq.symm Eq.symm
  decClash _ _ := inferInstance

/-- A row of `topology`. -/
structure TopologyRow where
  /-- `span_id`. -/
  spanId : String
  /-- `trace_id`. -/
  traceId : String
  /-- `parent_span_id`. -/
  parentSpanId : Option String
  /-- `kind`. -/
  kind : SpanKind
  /-- `unresolved`. -/
  unresolved : Bool
  deriving DecidableEq

instance : Keyed TopologyRow := Keyed.byKey (·.spanId)

/-- A row of `observations`. Its `rowid` is one more than the largest there is. -/
structure ObservationRow where
  /-- `rowid`. -/
  rowid : ℕ
  /-- `event_id`. -/
  eventId : String
  /-- `source`. -/
  source : AgentSource
  /-- `generation`. -/
  generation : String
  /-- `observation_id`. -/
  observationId : String
  /-- `trace_id`. -/
  traceId : String
  /-- `observed_at_unix_ms`. -/
  observedAt : ℕ
  /-- `payload_hash`. -/
  payloadHash : String
  /-- `projected_json`. -/
  projected : DurableRecordV1
  deriving DecidableEq

instance : Keyed ObservationRow where
  Clash a b := a.rowid = b.rowid ∨ a.eventId = b.eventId ∨
    (a.source = b.source ∧ a.generation = b.generation ∧ a.observationId = b.observationId)
  symm _ _ h := h.imp Eq.symm (Or.imp Eq.symm fun h => ⟨h.1.symm, h.2.1.symm, h.2.2.symm⟩)
  decClash _ _ := inferInstance

/-- A row of `source_inputs`: the event that was accepted at a cursor. -/
structure SourceInputRow where
  /-- `source`. -/
  source : AgentSource
  /-- `generation`. -/
  generation : String
  /-- `cursor`. -/
  cursor : String
  /-- `event_id`. -/
  eventId : String
  /-- `payload_hash`. -/
  payloadHash : String
  deriving DecidableEq

instance : Keyed SourceInputRow := Keyed.byKey fun r => (r.source, r.generation, r.cursor)

/-- A row of `source_cursors`: how far a source stream has been read. -/
structure SourceCursorRow where
  /-- `source`. -/
  source : AgentSource
  /-- `generation`. -/
  generation : String
  /-- `cursor`. -/
  cursor : String
  deriving DecidableEq

instance : Keyed SourceCursorRow := Keyed.byKey fun r => (r.source, r.generation)

/-- A row of `adapter_dispositions`: why nothing was stored at a cursor. -/
structure DispositionRow where
  /-- `source`. -/
  source : AgentSource
  /-- `generation`. -/
  generation : String
  /-- `cursor`. -/
  cursor : String
  /-- `disposition`. -/
  disposition : AdapterDispositionKind
  /-- `code`. -/
  code : AdapterDispositionCode
  /-- `payload_hash`. -/
  payloadHash : String
  deriving DecidableEq

instance : Keyed DispositionRow := Keyed.byKey fun r => (r.source, r.generation, r.cursor)

/-- A row of `delivery_outcomes`, whose only outcome is `not_applicable`. -/
structure DeliveryOutcomeRow where
  /-- `event_id`. -/
  eventId : String
  deriving DecidableEq

instance : Keyed DeliveryOutcomeRow := Keyed.byKey (·.eventId)

/-- A row of `expired_span_states`: the replay guard of a span that left the hot tables. -/
structure SpanGuardRow where
  /-- `span_id`. -/
  spanId : String
  /-- `canonical_state_hash`. -/
  canonicalStateHash : String
  deriving DecidableEq

instance : Keyed SpanGuardRow := Keyed.byKey (·.spanId)

/-- A row of `expired_trace_states`: a trace that was purged. -/
structure TraceGuardRow where
  /-- `trace_key`. -/
  traceKey : String
  deriving DecidableEq

instance : Keyed TraceGuardRow := Keyed.byKey (·.traceKey)

/-- A row of `hot_trace_index`. -/
structure HotTraceRow where
  /-- `trace_id`. -/
  traceId : String
  /-- `latest_observed_at_unix_ms`. -/
  latestObservedAt : WithBot ℕ
  /-- `unresolved`. -/
  unresolved : Bool
  /-- `record_count`. -/
  recordCount : ℕ
  /-- `estimated_bytes`. -/
  estimatedBytes : ℤ
  /-- `indexed_complete`. -/
  indexedComplete : Bool
  deriving DecidableEq

instance : Keyed HotTraceRow := Keyed.byKey (·.traceId)

/-- A row of `warm_traces`. -/
structure WarmTraceRow where
  /-- `trace_key`. -/
  traceKey : String
  /-- `latest_observed_at_unix_ms`. -/
  latestObservedAt : ℕ
  /-- `moved_at_unix_ms`. -/
  movedAt : ℕ
  deriving DecidableEq

instance : Keyed WarmTraceRow := Keyed.byKey (·.traceKey)

/-- A row of `warm_records`. -/
structure WarmRecordRow where
  /-- `span_id`. -/
  spanId : String
  /-- `trace_key`. -/
  traceKey : String
  /-- `original_commit_seq`. -/
  originalCommitSeq : ℕ
  /-- `record_json`. -/
  record : DurableRecordV1
  deriving DecidableEq

instance : Keyed WarmRecordRow where
  Clash a b := a.spanId = b.spanId ∨ a.originalCommitSeq = b.originalCommitSeq
  symm _ _ h := h.imp Eq.symm Eq.symm
  decClash _ _ := inferInstance

/-- A row of `cold_traces`. -/
structure ColdTraceRow where
  /-- `trace_key`. -/
  traceKey : String
  /-- `latest_observed_at_unix_ms`. -/
  latestObservedAt : ℕ
  /-- `archived_at_unix_ms`. -/
  archivedAt : ℕ
  /-- `record_count`. -/
  recordCount : ℕ
  /-- `archive_bytes`. -/
  archiveBytes : ℕ
  /-- `archive_blob`. -/
  archive : List DurableRecordV1
  deriving DecidableEq

instance : Keyed ColdTraceRow := Keyed.byKey (·.traceKey)

/-- The tiers of an archived trace. -/
inductive ArchiveTier where
  /-- Still part of reports. -/
  | warm
  /-- Only in the archive. -/
  | cold
  deriving DecidableEq, Repr

/-- A row of `lifecycle_trace_control`. -/
structure TraceControlRow where
  /-- `trace_key`. -/
  traceKey : String
  /-- `tier`. -/
  tier : ArchiveTier
  /-- `latest_observed_at_unix_ms`. -/
  latestObservedAt : ℕ
  /-- `record_count`. -/
  recordCount : ℕ
  /-- `estimated_bytes`. -/
  estimatedBytes : ℕ
  deriving DecidableEq

instance : Keyed TraceControlRow := Keyed.byKey (·.traceKey)

/-- A row of `lifecycle_span_control`: what `records` held of an archived span. -/
structure SpanControlRow where
  /-- `span_id`. -/
  spanId : String
  /-- `trace_key`. -/
  traceKey : String
  /-- `original_commit_seq`. -/
  originalCommitSeq : ℕ
  /-- `trace_id`. -/
  traceId : String
  /-- `parent_span_id`. -/
  parentSpanId : Option String
  /-- `kind`. -/
  kind : SpanKind
  /-- `state_json`. -/
  state : DomainSpanState
  /-- `record_json`. -/
  record : DurableRecordV1
  deriving DecidableEq

instance : Keyed SpanControlRow where
  Clash a b := a.spanId = b.spanId ∨ a.originalCommitSeq = b.originalCommitSeq
  symm _ _ h := h.imp Eq.symm Eq.symm
  decClash _ _ := inferInstance

/-- A row of `retention_receipts`. -/
structure ReceiptRow where
  /-- `plan_id`. -/
  planId : String
  /-- `cutoff_unix_ms`. -/
  cutoff : ℕ
  /-- `traces`. -/
  traces : ℕ
  /-- `observations`. -/
  observations : ℕ
  /-- `records`. -/
  records : ℕ
  /-- `archive_bytes`. -/
  archiveBytes : ℕ
  /-- `truncated`. -/
  truncated : Bool
  /-- `archive_path_hash`. -/
  archivePathHash : String
  /-- `archive_sha256`. -/
  archiveSha256 : String
  /-- `compacted`. -/
  compacted : Bool
  deriving DecidableEq

instance : Keyed ReceiptRow := Keyed.byKey (·.planId)

/-! ### Metadata -/

/-- The value of `lifecycle_scan_cursor`. -/
structure LifecycleCursor where
  /-- `hot`. -/
  hot : String
  /-- `warm`. -/
  warm : String
  /-- `cold`. -/
  cold : String
  /-- `next_tier`. -/
  nextTier : ℕ
  deriving DecidableEq

/-- The trace that a backfill is in the middle of. -/
structure BackfillTrace where
  /-- `trace_id`. -/
  traceId : String
  /-- `observation_after_millis`. -/
  observationAfterMillis : WithBot ℕ
  /-- `observation_after_event_id`. -/
  observationAfterEventId : String
  /-- `observation_count`. -/
  observationCount : ℕ
  /-- `observation_bytes`. -/
  observationBytes : ℕ
  /-- `latest_observed_at_unix_ms`. -/
  latestObservedAt : WithBot ℕ
  /-- `observations_done`. -/
  observationsDone : Bool
  /-- `record_after_commit_seq`. -/
  recordAfterCommitSeq : ℕ
  /-- `record_count`. -/
  recordCount : ℕ
  /-- `record_bytes`. -/
  recordBytes : ℕ
  /-- `blocked`. -/
  blocked : Bool
  deriving DecidableEq

/-- The state of an unfinished backfill. -/
structure BackfillState where
  /-- `done`. -/
  done : Bool
  /-- `after_observation_rowid`. -/
  afterObservationRowid : ℕ
  /-- `highwater_observation_rowid`. -/
  highwaterObservationRowid : ℕ
  /-- `scan_complete`. -/
  scanComplete : Bool
  /-- `blocked_traces`. -/
  blockedTraces : ℕ
  /-- `active`. -/
  active : Option BackfillTrace
  deriving DecidableEq

/-- The value of `lifecycle_backfill_cursor`. -/
inductive BackfillCursor where
  /-- `LIFECYCLE_BACKFILL_COMPLETE`. -/
  | complete
  /-- An unfinished backfill. -/
  | pending (state : BackfillState)
  deriving DecidableEq

/-- The database. -/
structure Db where
  /-- `records`. -/
  records : Table RecordRow
  /-- The last `commit_seq` given out, which `AUTOINCREMENT` remembers. -/
  recordsSequence : ℕ
  /-- `topology`. -/
  topology : Table TopologyRow
  /-- `observations`. -/
  observations : Table ObservationRow
  /-- `source_inputs`. -/
  sourceInputs : Table SourceInputRow
  /-- `source_cursors`. -/
  sourceCursors : Table SourceCursorRow
  /-- `adapter_dispositions`. -/
  adapterDispositions : Table DispositionRow
  /-- `delivery_outcomes`. -/
  deliveryOutcomes : Table DeliveryOutcomeRow
  /-- `expired_span_states`, in the order of `guard_seq`. -/
  expiredSpanStates : Table SpanGuardRow
  /-- `expired_trace_states`, in the order of `guard_seq`. -/
  expiredTraceStates : Table TraceGuardRow
  /-- `hot_trace_index`. -/
  hotTraceIndex : Table HotTraceRow
  /-- `warm_traces`. -/
  warmTraces : Table WarmTraceRow
  /-- `warm_records`. -/
  warmRecords : Table WarmRecordRow
  /-- `cold_traces`. -/
  coldTraces : Table ColdTraceRow
  /-- `lifecycle_trace_control`. -/
  traceControl : Table TraceControlRow
  /-- `lifecycle_span_control`. -/
  spanControl : Table SpanControlRow
  /-- `retention_receipts`. -/
  retentionReceipts : Table ReceiptRow
  /-- `report_acknowledgement`. -/
  reportAcknowledgement : ℕ
  /-- `report_generation`. -/
  reportGeneration : ℕ
  /-- `report_visibility_epoch`. -/
  reportVisibilityEpoch : ℕ
  /-- `projection_dirty`. -/
  projectionDirty : Bool
  /-- `lifecycle_scan_cursor`. -/
  lifecycleScanCursor : LifecycleCursor
  /-- `lifecycle_backfill_cursor`. -/
  lifecycleBackfillCursor : BackfillCursor
  deriving DecidableEq

/-- The store as it is created: no rows, and no backfill to do. -/
def Db.empty : Db where
  records := .empty
  recordsSequence := 0
  topology := .empty
  observations := .empty
  sourceInputs := .empty
  sourceCursors := .empty
  adapterDispositions := .empty
  deliveryOutcomes := .empty
  expiredSpanStates := .empty
  expiredTraceStates := .empty
  hotTraceIndex := .empty
  warmTraces := .empty
  warmRecords := .empty
  coldTraces := .empty
  traceControl := .empty
  spanControl := .empty
  retentionReceipts := .empty
  reportAcknowledgement := 0
  reportGeneration := 0
  reportVisibilityEpoch := 0
  projectionDirty := true
  lifecycleScanCursor := ⟨"", "", "", 0⟩
  lifecycleBackfillCursor := .complete

end AgentObservability.Store
