import AgentObservability.Store.Ingest

/-!
# The backfill of the hot index

`backfill_hot_trace_index`: a store migrated from an older schema has records and
observations and no index. Each pass of the lifecycle counts a bounded part of
it, trace after trace in the order of the oldest observation, and persists where
it stopped, which may be in the middle of a trace.
-/

namespace AgentObservability.Store

open Domain Contracts Foundation

/-- `LifecycleRequest`. -/
structure LifecycleRequest where
  /-- `now_unix_ms`. -/
  nowUnixMs : ℕ
  /-- `hot_days`. -/
  hotDays : ℕ
  /-- `warm_days`. -/
  warmDays : ℕ
  /-- `delete_after_days`. -/
  deleteAfterDays : ℕ
  /-- `max_traces_per_pass`. -/
  maxTracesPerPass : ℕ
  /-- `max_archive_records`. -/
  maxArchiveRecords : ℕ
  /-- `max_archive_bytes`. -/
  maxArchiveBytes : ℕ
  deriving DecidableEq

/-- `MAX_BACKFILL_ROWS_PER_PASS`. -/
def maxBackfillRowsPerPass : ℕ := 128

/-- `MAX_BACKFILL_BYTES_PER_PASS`. -/
def maxBackfillBytesPerPass : ℕ := 2 * 1024 * 1024

/-- `ROW_OVERHEAD_BYTES`. -/
def rowOverheadBytes : ℕ := 512

/-- What the loop of a pass changes. -/
structure BackfillPass where
  /-- `state`. -/
  state : BackfillState
  /-- The table `hot_trace_index`. -/
  hotTraceIndex : Table HotTraceRow
  /-- `remaining_rows`. -/
  remainingRows : ℕ
  /-- `remaining_bytes`. -/
  remainingBytes : ℕ
  /-- `completed_traces`. -/
  completedTraces : ℕ

/-- How a round of the loop ends. -/
inductive BackfillRound where
  /-- `break`. -/
  | stop (pass : BackfillPass)
  /-- `continue`. -/
  | again (pass : BackfillPass)

/-- The oldest observation that the scan has not passed. -/
def nextObservation (db : Db) (state : BackfillState) : Option ObservationRow :=
  (sortByKey (·.rowid) (db.observations.select fun row => state.afterObservationRowid < row.rowid ∧
    row.rowid ≤ state.highwaterObservationRowid)).head?

/-- The order in which the observations of a trace are counted. -/
def ObservationRow.Before (a b : ObservationRow) : Prop :=
  a.observedAt < b.observedAt ∨ (a.observedAt = b.observedAt ∧ a.eventId ≤ b.eventId)

instance : DecidableRel ObservationRow.Before := fun _ _ => inferInstanceAs (Decidable (_ ∨ _))

/-- The next observation of the trace that is being counted. -/
def nextTraceObservation (db : Db) (active : BackfillTrace) : Option ObservationRow :=
  ((db.observations.select fun row => row.traceId = active.traceId ∧
    (active.observationAfterMillis < (row.observedAt : WithBot ℕ) ∨
      ((row.observedAt : WithBot ℕ) = active.observationAfterMillis ∧
        active.observationAfterEventId < row.eventId))).insertionSort ObservationRow.Before).head?

/-- The next record of the trace that is being counted. -/
def nextTraceRecord (db : Db) (active : BackfillTrace) : Option RecordRow :=
  (sortByKey (·.commitSeq) (db.records.select fun row => row.traceId = active.traceId ∧
    active.recordAfterCommitSeq < row.commitSeq)).head?

/-- `octet_length(projected_json)+octet_length(payload_hash)`, with the overhead of a row. -/
def ObservationRow.octets (row : ObservationRow) : ℕ := observationBytes row.projected row.payloadHash + rowOverheadBytes

/-- `octet_length(state_json)+octet_length(record_json)`, with the overhead of a row. -/
def RecordRow.octets (row : RecordRow) : ℕ := recordBytes row.state row.record + rowOverheadBytes

/-- The row does not fit what is left of the pass, and would fit a whole one. -/
def Postponed (pass : BackfillPass) (active : BackfillTrace) (octets : ℕ) : Prop :=
  active.blocked = false ∧ octets ≤ maxBackfillBytesPerPass ∧ pass.remainingBytes < octets

instance (pass : BackfillPass) (active : BackfillTrace) (octets : ℕ) : Decidable (Postponed pass active octets) :=
  inferInstanceAs (Decidable (_ ∧ _ ∧ _))

/-- A row is counted, or its trace blocked where no pass can take the row. -/
def chargeRow (pass : BackfillPass) (active : BackfillTrace) (octets : ℕ)
    (addBytes : BackfillTrace → BackfillTrace) : BackfillPass :=
  if maxBackfillBytesPerPass < octets then
    { pass with
      remainingRows := pass.remainingRows - 1
      state := { pass.state with
        blockedTraces := if active.blocked then pass.state.blockedTraces
          else min (pass.state.blockedTraces + 1) 65535
        active := some { active with blocked := true } } }
  else if active.blocked then
    { pass with remainingRows := pass.remainingRows - 1, state := { pass.state with active := some active } }
  else
    { pass with
      remainingRows := pass.remainingRows - 1
      remainingBytes := pass.remainingBytes - octets
      state := { pass.state with active := some (addBytes active) } }

/-- The index row of a trace that a pass gave up on. -/
def blockedIndex (hotTraceIndex : Table HotTraceRow) (active : BackfillTrace) : Option (Table HotTraceRow) :=
  hotTraceIndex.upsert
    { traceId := active.traceId, latestObservedAt := active.latestObservedAt, unresolved := false, recordCount := 0
      estimatedBytes := 0, indexedComplete := false }
    (fun row => row.traceId = active.traceId)
    (fun row => { row with
      latestObservedAt := active.latestObservedAt, unresolved := false, recordCount := 0, estimatedBytes := 0
      indexedComplete := false })
    (fun _ _ => Iff.rfl) (fun _ _ => Iff.rfl)

/-- The index row of a trace that was counted. A row that is complete already stays. -/
def countedIndex (db : Db) (hotTraceIndex : Table HotTraceRow) (active : BackfillTrace) : Option (Table HotTraceRow) :=
  let unresolved := decide (HasUnresolved db.topology active.traceId)
  hotTraceIndex.upsert
    { traceId := active.traceId, latestObservedAt := active.latestObservedAt, unresolved
      recordCount := active.recordCount, estimatedBytes := (active.observationBytes + active.recordBytes : ℕ)
      indexedComplete := true }
    (fun row => row.traceId = active.traceId)
    (fun row => if row.indexedComplete then row else
      { traceId := row.traceId, latestObservedAt := active.latestObservedAt, unresolved
        recordCount := active.recordCount, estimatedBytes := (active.observationBytes + active.recordBytes : ℕ)
        indexedComplete := true })
    (fun a _ => by cases h : a.indexedComplete <;> exact Iff.rfl)
    (fun _ b => by cases h : b.indexedComplete <;> exact Iff.rfl)

/-- The end of a trace: its index row is written and it is no longer active. -/
def completeTrace (pass : BackfillPass) (hotTraceIndex : Option (Table HotTraceRow)) :
    Except StoreError BackfillRound := do
  let hotTraceIndex ← ofOption .sqlite hotTraceIndex
  pure (.again { pass with
    hotTraceIndex, completedTraces := pass.completedTraces + 1, state := { pass.state with active := none } })

/-- The part of a round that counts the next record of a trace whose observations are counted. -/
def backfillRecords (db : Db) (pass : BackfillPass) (active : BackfillTrace) : Except StoreError BackfillRound :=
  match nextTraceRecord db active with
  | some row =>
    if Postponed pass active row.octets then
      .ok (.stop { pass with state := { pass.state with active := some active } })
    else .ok (.again (chargeRow pass
      { active with recordAfterCommitSeq := row.commitSeq, recordCount := active.recordCount + 1 } row.octets
      fun active => { active with recordBytes := active.recordBytes + row.octets }))
  | none =>
    if active.blocked then completeTrace pass (blockedIndex pass.hotTraceIndex active)
    else if active.recordCount = 0 ∨ active.latestObservedAt = ⊥ then .error .schemaMismatch
    else completeTrace pass (countedIndex db pass.hotTraceIndex active)

/-- The part of a round that counts the next row of the active trace. -/
def backfillActive (db : Db) (pass : BackfillPass) (active : BackfillTrace) : Except StoreError BackfillRound :=
  if active.observationsDone then backfillRecords db pass active
  else match nextTraceObservation db active with
    | some row =>
      if Postponed pass active row.octets then
        .ok (.stop { pass with state := { pass.state with active := some active } })
      else .ok (.again (chargeRow pass
        { active with
          observationAfterMillis := row.observedAt, observationAfterEventId := row.eventId
          latestObservedAt := row.observedAt, observationCount := active.observationCount + 1 } row.octets
        fun active => { active with observationBytes := active.observationBytes + row.octets }))
    | none => backfillRecords db pass { active with observationsDone := true }

/-- The index has the trace already, counted or given up. -/
def AlreadyIndexed (hotTraceIndex : Table HotTraceRow) (traceId : String) : Prop :=
  hotTraceIndex.Has fun row => row.traceId = traceId ∧ (row.indexedComplete = true ∨ row.TerminallyBlocked)

instance (hotTraceIndex : Table HotTraceRow) (traceId : String) : Decidable (AlreadyIndexed hotTraceIndex traceId) :=
  inferInstanceAs (Decidable (Table.Has _ _))

/-- One round of the loop. -/
def backfillRound (db : Db) (pass : BackfillPass) : Except StoreError BackfillRound :=
  match pass.state.active with
  | some active => backfillActive db pass active
  | none =>
    match nextObservation db pass.state with
    | none => .ok (.stop { pass with
        state := if pass.state.blockedTraces = 0 then { pass.state with done := true }
          else { pass.state with scanComplete := true } })
    | some row =>
      let state := { pass.state with afterObservationRowid := row.rowid }
      if AlreadyIndexed pass.hotTraceIndex row.traceId then
        .ok (.again { pass with state, completedTraces := pass.completedTraces + 1 })
      else backfillActive db { pass with state } (.new row.traceId)

/-- The loop of a pass. Every round that goes on takes a row or completes a trace,
so as many rounds as the pass admits of both are enough. -/
def backfillLoop (db : Db) (maxTraces : ℕ) : ℕ → BackfillPass → Except StoreError BackfillPass
  | 0, pass => .ok pass
  | rounds + 1, pass =>
    if 0 < pass.remainingRows ∧ pass.completedTraces < maxTraces then do
      match ← backfillRound db pass with
      | .stop pass => pure pass
      | .again pass => backfillLoop db maxTraces rounds pass
    else .ok pass

/-- The cursor that a pass persists. -/
def BackfillState.cursor (state : BackfillState) : BackfillCursor := if state.done then .complete else .pending state

/-- `backfill_hot_trace_index`: the blocked traces, and the database after the pass. -/
def backfillHotTraceIndex (db : Db) (request : LifecycleRequest) : Except StoreError (ℕ × Db) :=
  match db.lifecycleBackfillCursor with
  | .complete => .ok (0, db)
  | .pending state =>
    if state.done then .error .schemaMismatch
    else if state.scanComplete then .ok (state.blockedTraces, db)
    else do
      let remainingRows := min request.maxArchiveRecords maxBackfillRowsPerPass
      let pass ← backfillLoop db request.maxTracesPerPass (remainingRows + request.maxTracesPerPass)
        { state, hotTraceIndex := db.hotTraceIndex, remainingRows, remainingBytes := maxBackfillBytesPerPass
          completedTraces := 0 }
      pure (pass.state.blockedTraces,
        { db with hotTraceIndex := pass.hotTraceIndex, lifecycleBackfillCursor := pass.state.cursor })

end AgentObservability.Store
