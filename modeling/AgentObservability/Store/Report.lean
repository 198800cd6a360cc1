import AgentObservability.Store.Retention

/-!
# Reports

What a report reads: the records that are visible (`records` and `warm_records`)
in commit order, at once (`reportSnapshot`) or in batches
(`visit_report_snapshot_with_limit`), and the acknowledgement of a generation.

A visit reads every batch in a transaction of its own, and writers commit between
them. `Visitor` is the visit between two of its reads and `Visitor.read` one
read, of whatever the database then is.
-/

namespace AgentObservability.Store

open Domain Contracts Foundation

/-- The rows of `records` and `warm_records` with their commit sequence, in its order. -/
def visibleRows (db : Db) : List (ℕ × DurableRecordV1) :=
  sortByKey (·.1) (db.records.rows.map (fun row => (row.commitSeq, row.record)) ++
    db.warmRecords.rows.map fun row => (row.originalCommitSeq, row.record))

/-- `current_records`. -/
def currentRecords (db : Db) : List DurableRecordV1 := (visibleRows db).map (·.2)

/-- `ReportSnapshot`. -/
structure ReportSnapshot where
  /-- `generation`. -/
  generation : ℕ
  /-- `records`. -/
  records : List DurableRecordV1
  deriving DecidableEq

/-- `report_snapshot`. -/
def reportSnapshot (db : Db) : ReportSnapshot := ⟨db.reportGeneration, currentRecords db⟩

/-- `ReportStatus`. -/
structure ReportStatus where
  /-- `generation`. -/
  generation : ℕ
  /-- `acknowledged_generation`. -/
  acknowledgedGeneration : ℕ
  deriving DecidableEq

/-- `ReportStatus::pending`. -/
def ReportStatus.pending (status : ReportStatus) : Bool := status.generation ≠ status.acknowledgedGeneration

/-- `report_status`. -/
def reportStatus (db : Db) : Except StoreError ReportStatus := do
  require (db.reportAcknowledgement ≤ db.reportGeneration) .schemaMismatch
  pure ⟨db.reportGeneration, db.reportAcknowledgement⟩

/-- `acknowledge_report_generation`. -/
def acknowledgeReportGeneration (db : Db) (generation : ℕ) : Except StoreError (Bool × Db) := do
  require (db.reportAcknowledgement ≤ db.reportGeneration) .schemaMismatch
  if db.reportGeneration ≠ generation then pure (false, db)
  else pure (true, { db with reportAcknowledgement := generation })

/-- `invalidate_report`. -/
def invalidateReport (db : Db) : Except StoreError Db := do
  let reportGeneration ← advanceGeneration db.reportGeneration
  pure { db with reportGeneration }

/-! ### The visit -/

/-- `REPORT_VISIT_BATCH_SIZE`. -/
def reportVisitBatchSize : ℕ := 128

/-- `ReportVisit`. -/
structure ReportVisit where
  /-- `generation`. -/
  generation : ℕ
  /-- `records`. -/
  records : ℕ
  deriving DecidableEq

/-- What the loop of a visit remembers from batch to batch, and what it passed to the callback. -/
structure VisitState where
  /-- `expected_generation`. -/
  expectedGeneration : Option ℕ := none
  /-- `expected_records`. -/
  expectedRecords : Option ℕ := none
  /-- `last_commit_seq`. -/
  lastCommitSeq : ℕ := 0
  /-- The records passed to the callback, `visited` of them. -/
  visited : List DurableRecordV1 := []
  deriving DecidableEq

/-- A visit between two of its reads. -/
inductive Visitor where
  /-- It will read a batch. -/
  | reading (state : VisitState)
  /-- Every record was visited; it will read the generation once more. -/
  | checking (visit : ReportVisit) (visited : List DurableRecordV1)
  /-- It returned. -/
  | returned (result : Except StoreError ReportVisit) (visited : List DurableRecordV1)

/-- The rows of a batch that fit a limit of bytes. -/
def fitBatch (maxBatchBytes : ℕ) : List (ℕ × DurableRecordV1) → List (ℕ × DurableRecordV1) → ℕ →
    Except StoreError (List (ℕ × DurableRecordV1))
  | [], batch, _ => .ok batch
  | row :: rows, batch, batchBytes =>
    let recordBytes := byteLength row.2.json
    if maxBatchBytes < recordBytes then .error (.reportSnapshotRecordTooLarge recordBytes maxBatchBytes)
    else if ¬ batch.isEmpty ∧ maxBatchBytes < batchBytes + recordBytes then .ok batch
    else fitBatch maxBatchBytes rows (batch ++ [row]) (batchBytes + recordBytes)

/-- The query of a batch. -/
def readBatch (db : Db) (maxBatchBytes : Option ℕ) (lastCommitSeq : ℕ) :
    Except StoreError (List (ℕ × DurableRecordV1)) :=
  let rows := ((visibleRows db).filter fun row => lastCommitSeq < row.1).take reportVisitBatchSize
  match maxBatchBytes with
  | none => .ok rows
  | some maxBatchBytes => fitBatch maxBatchBytes rows [] 0

/-- The loop that passes a batch to the callback. It returns the state it stops in. -/
def visitBatch (records : ℕ) : List (ℕ × DurableRecordV1) → VisitState → Except StoreError Unit × VisitState
  | [], state => (.ok (), state)
  | (commitSeq, record) :: batch, state =>
    if commitSeq ≤ state.lastCommitSeq ∨ records ≤ state.visited.length then (.error .schemaMismatch, state)
    else visitBatch records batch
      { state with lastCommitSeq := commitSeq, visited := state.visited ++ [record] }

/-- One round of the loop of a visit, on the database that its transaction reads. -/
def VisitState.read (state : VisitState) (db : Db) (maxBatchBytes : Option ℕ) : Visitor :=
  if state.expectedGeneration.any fun expected => expected ≠ db.reportGeneration then
    .returned (.error .reportSnapshotChanged) state.visited
  else
    let generation := state.expectedGeneration.getD db.reportGeneration
    let records := state.expectedRecords.getD (db.records.rows.length + db.warmRecords.rows.length)
    match readBatch db maxBatchBytes state.lastCommitSeq with
    | .error e => .returned (.error e) state.visited
    | .ok [] =>
      if state.visited.length = records then .returned (.ok ⟨generation, records⟩) state.visited
      else .returned (.error .schemaMismatch) state.visited
    | .ok (row :: batch) =>
      match visitBatch records (row :: batch)
          { state with expectedGeneration := some generation, expectedRecords := some records } with
      | (.error e, state) => .returned (.error e) state.visited
      | (.ok (), state) =>
        if state.visited.length = records then .checking ⟨generation, records⟩ state.visited else .reading state

/-- One read of a visit. -/
def Visitor.read (visitor : Visitor) (db : Db) (maxBatchBytes : Option ℕ) : Visitor :=
  match visitor with
  | .reading state => state.read db maxBatchBytes
  | .checking visit visited =>
    if db.reportGeneration ≠ visit.generation then .returned (.error .reportSnapshotChanged) visited
    else .returned (.ok visit) visited
  | .returned result visited => .returned result visited

end AgentObservability.Store
