import AgentObservability.Store.Archive

/-!
# The index of hot traces

`update_hot_trace_index`, with which ingest keeps the index row of a trace up to
date by the difference one observation makes, and
`invalidate_legacy_backfill_trace`, with which it tells an unfinished backfill
that the trace changed.
-/

namespace AgentObservability.Store

open Domain Contracts Foundation

/-- `TRACE_ESTIMATED_ROW_OVERHEAD`. -/
def traceEstimatedRowOverhead : ℕ := 512

/-- `BackfillTrace::new`. -/
def BackfillTrace.new (traceId : String) : BackfillTrace where
  traceId := traceId
  observationAfterMillis := ⊥
  observationAfterEventId := ""
  observationCount := 0
  observationBytes := 0
  latestObservedAt := ⊥
  observationsDone := false
  recordAfterCommitSeq := 0
  recordCount := 0
  recordBytes := 0
  blocked := false

/-- The index row of a trace. -/
def Db.indexRow (db : Db) (traceId : String) : Option HotTraceRow :=
  db.hotTraceIndex.find? fun row => row.traceId = traceId

/-- A row that a backfill gave up on: one of its rows exceeds the bounds of a pass. -/
def HotTraceRow.TerminallyBlocked (row : HotTraceRow) : Prop :=
  row.indexedComplete = false ∧ row.recordCount = 0 ∧ row.estimatedBytes = 0

instance (row : HotTraceRow) : Decidable row.TerminallyBlocked :=
  inferInstanceAs (Decidable (_ ∧ _ ∧ _))

/-- `terminally_blocked_backfill_trace`. -/
def TerminallyBlockedBackfillTrace (hotTraceIndex : Table HotTraceRow) (traceId : String) : Prop :=
  hotTraceIndex.Has fun row => row.traceId = traceId ∧ row.TerminallyBlocked

instance (hotTraceIndex : Table HotTraceRow) (traceId : String) :
    Decidable (TerminallyBlockedBackfillTrace hotTraceIndex traceId) := inferInstanceAs (Decidable (Table.Has _ _))

/-- Some observation of the trace lies in the part that the backfill has still to scan. -/
def FutureLegacyObservation (db : Db) (state : BackfillState) (traceId : String) : Prop :=
  db.observations.Has fun row => row.traceId = traceId ∧ state.afterObservationRowid < row.rowid ∧
    row.rowid ≤ state.highwaterObservationRowid

instance (db : Db) (state : BackfillState) (traceId : String) : Decidable (FutureLegacyObservation db state traceId) :=
  inferInstanceAs (Decidable (Table.Has _ _))

/-- `invalidate_legacy_backfill_trace`: the cursor it leaves. -/
def invalidateLegacyBackfillTrace (db : Db) (hotTraceIndex : Table HotTraceRow) (traceId : String) :
    Except StoreError BackfillCursor :=
  match db.lifecycleBackfillCursor with
  | .complete => .ok .complete
  | .pending state =>
    if state.done then .error .schemaMismatch
    else if state.scanComplete then .ok (.pending state)
    else match state.active.filter (·.traceId = traceId) with
      | some active =>
        -- The trace is counted again from its start.
        .ok (.pending { state with active := some { BackfillTrace.new traceId with blocked := active.blocked } })
      | none =>
        if TerminallyBlockedBackfillTrace hotTraceIndex traceId then .ok (.pending state)
        else if FutureLegacyObservation db state traceId then .ok (.pending state)
        else .error .schemaMismatch

/-- What an observation adds to the estimated bytes of its trace. -/
def addedBytes (recordBytes observationBytes : ℕ) : ℕ :=
  recordBytes + observationBytes + traceEstimatedRowOverhead * 6

/-- What the record that an observation replaces had added. -/
def removedBytes : Option ℕ → ℕ
  | none => 0
  | some priorRecordBytes => priorRecordBytes + traceEstimatedRowOverhead * 2

/-- The trace has at most one observation. -/
def FirstTraceObservation (db : Db) (traceId : String) : Prop :=
  (db.observations.select fun row => row.traceId = traceId).length ≤ 1

instance (db : Db) (traceId : String) : Decidable (FirstTraceObservation db traceId) :=
  inferInstanceAs (Decidable (_ ≤ _))

/-- The row of a trace that a backfill has still to count, after an observation. -/
def incompleteIndex (db : Db) (traceId : String) (observedAt added : ℕ) : Option (Table HotTraceRow) :=
  let unresolved := decide (HasUnresolved db.topology traceId)
  db.hotTraceIndex.upsert
    { traceId, latestObservedAt := observedAt, unresolved, recordCount := 1, estimatedBytes := added
      indexedComplete := false }
    (fun row => row.traceId = traceId)
    (fun row => { row with
      latestObservedAt := max row.latestObservedAt observedAt
      unresolved := unresolved
      indexedComplete := false })
    (fun _ _ => Iff.rfl) (fun _ _ => Iff.rfl)

/-- The row of a counted trace, after an observation. -/
def completeIndex (db : Db) (traceId : String) (observedAt : ℕ) (priorRecordBytes : Option ℕ) (added : ℕ) :
    Option (Table HotTraceRow) :=
  let unresolved := decide (HasUnresolved db.topology traceId)
  db.hotTraceIndex.upsert
    { traceId, latestObservedAt := observedAt, unresolved, recordCount := 1, estimatedBytes := added
      indexedComplete := true }
    (fun row => row.traceId = traceId)
    (fun row => { row with
      latestObservedAt := max row.latestObservedAt observedAt
      unresolved := unresolved
      recordCount := row.recordCount + (if priorRecordBytes.isNone then 1 else 0)
      estimatedBytes := row.estimatedBytes + ((added : ℤ) - removedBytes priorRecordBytes)
      indexedComplete := true })
    (fun _ _ => Iff.rfl) (fun _ _ => Iff.rfl)

/-- The trace is left to an unfinished backfill. -/
def leftToBackfill (db : Db) (traceId : String) : Bool :=
  match db.indexRow traceId with
  | some row => !row.indexedComplete
  | none => db.lifecycleBackfillCursor ≠ .complete && !decide (FirstTraceObservation db traceId)

/-- `update_hot_trace_index`: the index and the cursor of the backfill that it leaves. -/
def updateHotTraceIndex (db : Db) (traceId : String) (observedAt : ℕ) (priorRecordBytes : Option ℕ)
    (recordBytes observationBytes : ℕ) : Except StoreError (Table HotTraceRow × BackfillCursor) :=
  let added := addedBytes recordBytes observationBytes
  if leftToBackfill db traceId then do
    let hotTraceIndex ← ofOption .sqlite (incompleteIndex db traceId observedAt added)
    let cursor ← invalidateLegacyBackfillTrace db hotTraceIndex traceId
    pure (hotTraceIndex, cursor)
  else do
    let hotTraceIndex ← ofOption .sqlite (completeIndex db traceId observedAt priorRecordBytes added)
    require (hotTraceIndex.Has fun row => row.traceId = traceId ∧ row.indexedComplete = true ∧
      0 < row.recordCount ∧ 0 < row.estimatedBytes) .schemaMismatch
    pure (hotTraceIndex, db.lifecycleBackfillCursor)

end AgentObservability.Store
