import AgentObservability.Store.Maintenance
import Mathlib.Data.List.Dedup

/-!
# Manual retention

`apply_retention`: every trace whose observations are all older than a cutoff, and
whose links are resolved, is written to an archive file and leaves the hot tables,
in one transaction that a caller confirms by the id of its plan. The archive file
and the report views are outside the database; what becomes of them is an
argument.
-/

namespace AgentObservability.Store

open Domain Contracts Foundation

/-- `RetentionPlan`. -/
structure RetentionPlan where
  /-- `plan_id`. -/
  planId : String
  /-- `cutoff_unix_ms`. -/
  cutoffUnixMs : ℕ
  /-- `traces`. -/
  traces : ℕ
  /-- `observations`. -/
  observations : ℕ
  /-- `records`. -/
  records : ℕ
  /-- `archive_bytes`. -/
  archiveBytes : ℕ
  /-- `truncated`. -/
  truncated : Bool
  deriving DecidableEq

/-- `RetentionSelection`. -/
structure RetentionSelection where
  /-- `plan`. -/
  plan : RetentionPlan
  /-- `trace_ids`. -/
  traceIds : List String
  /-- `span_guards`. -/
  spanGuards : List SpanGuardRow
  deriving DecidableEq

/-- The bounds of a pass. -/
structure RetentionBounds where
  /-- `max_archive_records`. -/
  maxArchiveRecords : ℕ
  /-- `max_archive_bytes`. -/
  maxArchiveBytes : ℕ
  deriving DecidableEq

/-- `validate_retention_bounds`. -/
def validateRetentionBounds (b : RetentionBounds) : Except StoreError Unit :=
  require (1 ≤ b.maxArchiveRecords ∧ b.maxArchiveRecords ≤ 100000 ∧ 64 * 1024 ≤ b.maxArchiveBytes ∧
    b.maxArchiveBytes ≤ 256 * 1024 * 1024) .invalidRetentionBounds

/-! ### The archive -/

/-- `RETENTION_ARCHIVE_VERSION`. -/
def retentionArchiveVersion : String := "agent_observability.retention_archive.v1"

/-- Sixty-four zeros, which stand for a digest that is not known yet. -/
def zeroDigest : String := String.ofList (List.replicate 64 '0')

/-- The length of the header line of an archive. -/
def headerBytes (planId : String) (cutoffUnixMs : ℕ) : ℕ :=
  byteLength (Json.object [("entry_type", Json.str "header"), ("schema_version", Json.str retentionArchiveVersion),
    ("plan_id", Json.str planId), ("cutoff_unix_ms", Json.nat cutoffUnixMs)]) + 1

/-- The length of the line of a record. -/
def recordLineBytes (record : DurableRecordV1) : ℕ :=
  byteLength (Json.object [("entry_type", Json.str "record"), ("record", record.json)]) + 1

/-- The length of the footer line of an archive. -/
def footerBytes (traces records : ℕ) : ℕ :=
  byteLength (Json.object [("entry_type", Json.str "footer"), ("traces", Json.nat traces),
    ("records", Json.nat records), ("records_sha256", Json.str zeroDigest)]) + 1

/-! ### Selection -/

/-- The observations of a trace in the order in which a plan lists them. -/
def Db.observationsOf (db : Db) (traceId : String) : List ObservationRow :=
  (db.observations.select fun row => row.traceId = traceId).insertionSort ObservationRow.Before

/-- `MAX(observed_at_unix_ms)` of the observations of a trace. -/
def Db.latestObservedAt (db : Db) (traceId : String) : ℕ :=
  ((db.observations.select fun row => row.traceId = traceId).map (·.observedAt)).foldl max 0

/-- The traces whose observations are all older than the cutoff, the oldest first. -/
def expirableTraces (db : Db) (cutoffUnixMs : ℕ) : List String :=
  (((db.observations.rows.map (·.traceId)).dedup.filter fun traceId =>
    db.latestObservedAt traceId < cutoffUnixMs).map fun traceId => (db.latestObservedAt traceId, traceId)).insertionSort
    (fun a b => a.1 < b.1 ∨ (a.1 = b.1 ∧ a.2 ≤ b.2)) |>.map (·.2)

/-- What the loop of `select_retention` changes. -/
structure SelectionState where
  /-- `trace_ids`. -/
  traceIds : List String := []
  /-- `span_guards`. -/
  spanGuards : List SpanGuardRow := []
  /-- `plan_inputs`. -/
  planInputs : List String := []
  /-- `record_bytes`. -/
  recordBytes : ℕ := 0
  /-- `observation_count`. -/
  observationCount : ℕ := 0
  /-- `record_count`. -/
  recordCount : ℕ := 0
  /-- `truncated`. -/
  truncated : Bool := false

section Retention

variable [Sha2]

/-- The loop over the records of a trace: the bytes and the guards, or nothing where the limit is passed. -/
def selectRecords (limit : ℕ) : List RecordRow → ℕ → List SpanGuardRow →
    Except StoreError (Option (ℕ × List SpanGuardRow))
  | [], groupBytes, guards => .ok (some (groupBytes, guards))
  | row :: rows, groupBytes, guards => do
    let state ← stateFromJson row.state
    let nextGroupBytes := groupBytes + recordLineBytes row.record
    if limit < nextGroupBytes then pure none
    else selectRecords limit rows nextGroupBytes (guards ++ [⟨row.spanId, canonicalStateHash state⟩])

/-- The hash over the events of a trace. -/
def traceEventsHash (rows : List ObservationRow) : String :=
  Sha2.hexDigest (bytes "agent-observability-retention-trace-events-v1" ++ rows.flatMap fun row =>
    toBeBytes row.eventId.utf8ByteSize ++ bytes row.eventId ++
    toBeBytes row.payloadHash.utf8ByteSize ++ bytes row.payloadHash)

/-- The loop of `select_retention`. -/
def selectTraces (db : Db) (cutoffUnixMs : ℕ) (bounds : RetentionBounds) :
    List String → SelectionState → Except StoreError SelectionState
  | [], s => .ok s
  | traceId :: traceIds, s =>
    if HasUnresolved db.topology traceId then selectTraces db cutoffUnixMs bounds traceIds s
    else
      let rows := db.recordsOf traceId
      let nextRecords := s.recordCount + rows.length
      if rows.length = 0 then selectTraces db cutoffUnixMs bounds traceIds s
      else if bounds.maxArchiveRecords < nextRecords then .ok { s with truncated := true }
      else
        let fixedBytes := s.recordBytes + headerBytes zeroDigest cutoffUnixMs +
          footerBytes (s.traceIds.length + 1) nextRecords
        if bounds.maxArchiveBytes < fixedBytes then .ok { s with truncated := true }
        else do
          match ← selectRecords (bounds.maxArchiveBytes - fixedBytes) rows 0 [] with
          | none => pure { s with truncated := true }
          | some (groupBytes, guards) =>
            let observations := db.observationsOf traceId
            selectTraces db cutoffUnixMs bounds traceIds
              { s with
                traceIds := s.traceIds ++ [traceId]
                spanGuards := s.spanGuards ++ guards
                planInputs := s.planInputs ++ [traceId ++ ":" ++ traceEventsHash observations]
                recordBytes := s.recordBytes + groupBytes
                observationCount := s.observationCount + observations.length
                recordCount := nextRecords }

/-- `retention_plan_id`. -/
def retentionPlanId (cutoffUnixMs : ℕ) (inputs : List String) : String :=
  Sha2.hexDigest (bytes "agent-observability-retention-plan-v1" ++ toBeBytes cutoffUnixMs ++
    inputs.flatMap fun input => toBeBytes input.utf8ByteSize ++ bytes input)

/-- `select_retention`. -/
def selectRetention (db : Db) (cutoffUnixMs : ℕ) (bounds : RetentionBounds) :
    Except StoreError RetentionSelection := do
  validateRetentionBounds bounds
  let s ← selectTraces db cutoffUnixMs bounds (expirableTraces db cutoffUnixMs) {}
  let planId := retentionPlanId cutoffUnixMs s.planInputs
  let archiveBytes :=
    if s.traceIds.isEmpty then 0
    else headerBytes planId cutoffUnixMs + s.recordBytes + footerBytes s.traceIds.length s.recordCount
  require (archiveBytes ≤ bounds.maxArchiveBytes) .schemaMismatch
  pure
    { plan :=
        { planId, cutoffUnixMs, traces := s.traceIds.length, observations := s.observationCount
          records := s.recordCount, archiveBytes, truncated := s.truncated }
      traceIds := s.traceIds
      spanGuards := s.spanGuards }

/-! ### The pass -/

/-- A call of `apply_retention`. -/
structure RetentionCall where
  /-- `cutoff_unix_ms`. -/
  cutoffUnixMs : ℕ
  /-- `max_archive_records` and `max_archive_bytes`. -/
  bounds : RetentionBounds
  /-- `expected_plan_id`. -/
  expectedPlanId : String
  /-- `archive_path`. -/
  archivePath : String
  deriving DecidableEq

/-- `archive_path_hash`. -/
def archivePathHash (archivePath : String) : String :=
  digestComponents ["agent-observability-retention-archive-path-v1", archivePath]

/-- `load_retention_receipt`. -/
def loadRetentionReceipt (db : Db) (call : RetentionCall) : Option ReceiptRow :=
  db.retentionReceipts.find? fun row =>
    row.planId = call.expectedPlanId ∧ row.archivePathHash = archivePathHash call.archivePath

/-- What a pass did. -/
inductive RetentionOutcome where
  /-- An earlier transaction of this plan is finished. -/
  | recovered (receipt : ReceiptRow)
  /-- No trace is old enough. -/
  | nothing (plan : RetentionPlan)
  /-- The traces of the plan expired. -/
  | expired (selection : RetentionSelection)
  deriving DecidableEq

/-- The receipt of a plan. -/
def receiptRow (call : RetentionCall) (plan : RetentionPlan) (archiveSha256 : String) : ReceiptRow where
  planId := plan.planId
  cutoff := plan.cutoffUnixMs
  traces := plan.traces
  observations := plan.observations
  records := plan.records
  archiveBytes := plan.archiveBytes
  truncated := plan.truncated
  archivePathHash := archivePathHash call.archivePath
  archiveSha256 := archiveSha256
  compacted := false

/-- The part of `apply_retention` that expires the selected traces. `archive` is the
digest of the archive file that was written, and `retired` the retirement of the report views. -/
def expireSelection (db : Db) (call : RetentionCall) (selection : RetentionSelection)
    (archive : Except StoreError String) (retired : Except StoreError Unit) : Except StoreError Db := do
  let archiveSha256 ← archive
  let retentionReceipts ← ofOption .sqlite
    (db.retentionReceipts.insert (receiptRow call selection.plan archiveSha256))
  let expiredSpanStates := replaceSpanGuards db.expiredSpanStates selection.spanGuards
  let reportVisibilityEpoch ← advanceGeneration db.reportVisibilityEpoch
  retired
  let reportGeneration ← advanceGeneration db.reportGeneration
  pure (deleteHotTraces
    { db with
      retentionReceipts, expiredSpanStates, projectionDirty := true, reportGeneration, reportVisibilityEpoch }
    selection.traceIds)

/-- `apply_retention_guarded_at`, up to its commit. -/
def applyRetention (db : Db) (call : RetentionCall) (archive : Except StoreError String)
    (retired : Except StoreError Unit) : Except StoreError (RetentionOutcome × Db) :=
  match loadRetentionReceipt db call with
  | some receipt => .ok (.recovered receipt, db)
  | none => do
    require (¬ db.retentionReceipts.Has fun row => row.compacted = false) .pendingRetentionRecovery
    let selection ← selectRetention db call.cutoffUnixMs call.bounds
    require (selection.plan.planId = call.expectedPlanId) .staleRetentionPlan
    require (selection.plan.truncated = false) .retentionBoundsTooSmall
    if selection.plan.traces = 0 then pure (.nothing selection.plan, db)
    else do
      let db ← expireSelection db call selection archive retired
      pure (.expired selection, db)

omit [Sha2] in
/-- `MAX_RETENTION_RECEIPTS`. -/
def maxRetentionReceipts : ℕ := 1024

omit [Sha2] in
/-- `prune_retention_receipts`: the newest compacted receipts stay, and the pending ones. -/
def pruneRetentionReceipts (receipts : Table ReceiptRow) : Table ReceiptRow :=
  let kept := ((receipts.select fun row => row.compacted = true).reverse.take maxRetentionReceipts).map (·.planId)
  receipts.delete fun row => row.compacted = true ∧ row.planId ∉ kept

omit [Sha2] in
/-- The transaction of `finish_retention_receipt`. -/
def finishRetentionReceipt (db : Db) (planId : String) : Db :=
  { db with
    retentionReceipts := pruneRetentionReceipts (db.retentionReceipts.modify (fun row => row.planId = planId)
      (fun row => { row with compacted := true }) (fun _ _ => Iff.rfl) (fun _ _ => Iff.rfl)) }

end Retention

end AgentObservability.Store
