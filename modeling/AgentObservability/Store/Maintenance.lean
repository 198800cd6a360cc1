import AgentObservability.Store.Backfill

/-!
# Lifecycle maintenance

`maintain_lifecycle`: a pass of the backfill, then a bounded window of traces
over the three tiers, each moved, archived or purged in a transaction of its own
once it is old enough. The retirement of report views and the removal of the
projection happen outside the database; whether they succeed is an argument
(`outside`), given for each candidate.
-/

namespace AgentObservability.Store

open Domain Contracts Foundation

/-- The counts of a `LifecycleResult`. -/
structure LifecycleResult where
  /-- `scanned_traces`. -/
  scannedTraces : ℕ := 0
  /-- `moved_to_warm`. -/
  movedToWarm : ℕ := 0
  /-- `moved_to_cold`. -/
  movedToCold : ℕ := 0
  /-- `deleted`. -/
  deleted : ℕ := 0
  /-- `blocked`. -/
  blocked : ℕ := 0
  /-- `deferred`. -/
  deferred : ℕ := 0
  /-- `touched_records`. -/
  touchedRecords : ℕ := 0
  /-- `touched_bytes`. -/
  touchedBytes : ℕ := 0
  deriving DecidableEq

/-- What becomes of a trace. -/
inductive Transition where
  /-- It moves to the warm tables. -/
  | warm
  /-- It moves to the archive. -/
  | cold
  /-- It is purged. -/
  | delete
  deriving DecidableEq, Repr

/-- `DAY_MILLIS`. -/
def dayMillis : ℕ := 86400000

/-- `validate_request`. -/
def validateRequest (r : LifecycleRequest) : Except StoreError Unit :=
  require (¬ (r.hotDays = 0 ∨ r.warmDays < r.hotDays ∨ r.deleteAfterDays ≤ r.warmDays ∨ 3650 < r.deleteAfterDays ∨
    r.maxTracesPerPass = 0 ∨ 128 < r.maxTracesPerPass ∨ r.maxArchiveRecords < 1 ∨ 100000 < r.maxArchiveRecords ∨
    r.maxArchiveBytes < 64 * 1024 ∨ 256 * 1024 * 1024 < r.maxArchiveBytes)) .invalidRetentionBounds

/-- `cutoff`. -/
def cutoff (nowUnixMs days : ℕ) : ℕ := nowUnixMs - days * dayMillis

/-- The cutoffs of a pass. -/
structure Cutoffs where
  /-- `hot_cutoff`. -/
  hot : ℕ
  /-- `warm_cutoff`. -/
  warm : ℕ
  /-- `delete_cutoff`. -/
  delete : ℕ
  deriving DecidableEq

/-- The cutoffs of a request. -/
def LifecycleRequest.cutoffs (r : LifecycleRequest) : Cutoffs where
  hot := cutoff r.nowUnixMs r.hotDays
  warm := cutoff r.nowUnixMs r.warmDays
  delete := cutoff r.nowUnixMs r.deleteAfterDays

/-- `transition_for`. -/
def transitionFor (candidate : Candidate) (cutoffs : Cutoffs) : Option Transition :=
  if candidate.latestObservedAt ≤ cutoffs.delete then some .delete
  else match candidate.tier with
    | .hot =>
      if candidate.latestObservedAt ≤ cutoffs.warm then some .cold
      else if candidate.latestObservedAt ≤ cutoffs.hot then some .warm
      else none
    | .warm => if candidate.latestObservedAt ≤ cutoffs.warm then some .cold else none
    | .cold => none

/-! ### The window of a pass -/

/-- A row of the window: the trace, the key it is scanned by, its latest observation and its flag. -/
structure WindowRow where
  /-- The trace. -/
  identity : String
  /-- The latest observation. -/
  latest : WithBot ℕ
  /-- The flag. -/
  unresolved : Bool
  deriving DecidableEq

/-- The rows of a tier. The key they are scanned by is the trace. -/
def tierRows (db : Db) : Tier → List WindowRow
  | .hot => db.hotTraceIndex.rows.map fun row => ⟨row.traceId, row.latestObservedAt, row.unresolved⟩
  | .warm => db.warmTraces.rows.map fun row => ⟨row.traceKey, row.latestObservedAt, false⟩
  | .cold => db.coldTraces.rows.map fun row => ⟨row.traceKey, row.latestObservedAt, false⟩

/-- `query_tier_range`. -/
def queryTierRange (db : Db) (tier : Tier) (cursor : String) (limit : ℕ) (after : Bool) : List WindowRow :=
  (((tierRows db tier).filter fun row => if after then cursor < row.identity else row.identity ≤ cursor).insertionSort
    fun a b => a.identity ≤ b.identity).take limit

/-- `query_tier_window`. -/
def queryTierWindow (db : Db) (tier : Tier) (cursor : String) (limit : ℕ) : List WindowRow :=
  let rows := queryTierRange db tier cursor limit true
  let remaining := limit - rows.length
  if 0 < remaining ∧ cursor ≠ "" then rows ++ queryTierRange db tier cursor remaining false else rows

/-- `tier_order`. -/
def tierOrder : ℕ → Except StoreError (List Tier)
  | 0 => .ok [.hot, .warm, .cold]
  | 1 => .ok [.warm, .cold, .hot]
  | 2 => .ok [.cold, .hot, .warm]
  | _ => .error .schemaMismatch

/-- The cursor of a tier. -/
def LifecycleCursor.at (cursor : LifecycleCursor) : Tier → String
  | .hot => cursor.hot
  | .warm => cursor.warm
  | .cold => cursor.cold

/-- The cursor past a row of a tier; the next pass begins with the next tier: `next_tier`. -/
def LifecycleCursor.past (cursor : LifecycleCursor) (key : String) : Tier → LifecycleCursor
  | .hot => { cursor with hot := key, nextTier := 1 }
  | .warm => { cursor with warm := key, nextTier := 2 }
  | .cold => { cursor with cold := key, nextTier := 0 }

/-- `parse_millis` of a timestamp column. -/
def parseMillis : WithBot ℕ → Except StoreError ℕ
  | ⊥ => .error .schemaMismatch
  | (millis : ℕ) => .ok millis

/-- What the loops of `lifecycle_candidates` change. -/
structure WindowScan where
  /-- `cursor`. -/
  cursor : LifecycleCursor
  /-- `candidates`. -/
  candidates : List Candidate
  /-- `remaining`. -/
  remaining : ℕ

/-- The inner loop of `lifecycle_candidates`. -/
def scanWindow (cutoffs : Cutoffs) (tier : Tier) : List WindowRow → WindowScan → Except StoreError WindowScan
  | [], scan => .ok scan
  | row :: rows, scan => do
    let cursor := scan.cursor.past row.identity tier
    let latestObservedAt ← parseMillis row.latest
    let candidate : Candidate :=
      { tier, identity := row.identity, latestObservedAt, unresolved := row.unresolved, cursorAfter := cursor }
    let remaining := if (transitionFor candidate cutoffs).isSome then scan.remaining - 1 else scan.remaining
    let scan := { cursor, candidates := scan.candidates ++ [candidate], remaining }
    if remaining = 0 then pure scan else scanWindow cutoffs tier rows scan

/-- The outer loop of `lifecycle_candidates`. -/
def scanTiers (db : Db) (cutoffs : Cutoffs) : List Tier → WindowScan → Except StoreError WindowScan
  | [], scan => .ok scan
  | tier :: tiers, scan =>
    if scan.remaining = 0 then .ok scan
    else do
      let scan ← scanWindow cutoffs tier (queryTierWindow db tier (scan.cursor.at tier) scan.remaining) scan
      scanTiers db cutoffs tiers scan

/-- `lifecycle_candidates`. -/
def lifecycleCandidates (db : Db) (cutoffs : Cutoffs) (limit : ℕ) : Except StoreError (List Candidate) := do
  let tiers ← tierOrder db.lifecycleScanCursor.nextTier
  let scan ← scanTiers db cutoffs tiers { cursor := db.lifecycleScanCursor, candidates := [], remaining := limit }
  pure scan.candidates

/-! ### The transaction of a candidate -/

/-- The row of a candidate as it is now. -/
def currentRow (db : Db) (candidate : Candidate) : Option (WithBot ℕ × Bool) :=
  match candidate.tier with
  | .hot => (db.hotTraceIndex.find? fun row => row.traceId = candidate.identity ∧ row.indexedComplete = true).map
      fun row => (row.latestObservedAt, row.unresolved)
  | .warm => (db.warmTraces.find? fun row => row.traceKey = candidate.identity).map
      fun row => (↑row.latestObservedAt, false)
  | .cold => (db.coldTraces.find? fun row => row.traceKey = candidate.identity).map
      fun row => (↑row.latestObservedAt, false)

/-- `reload_candidate`. -/
def reloadCandidate (db : Db) (candidate : Candidate) : Except StoreError (Option Candidate) :=
  match currentRow db candidate with
  | none => .ok none
  | some (latest, unresolved) => do
    let latestObservedAt ← parseMillis latest
    pure (some { candidate with latestObservedAt, unresolved })

/-- `CapacityAdmission`. -/
inductive CapacityAdmission where
  /-- The trace fits, and these are the totals with it. -/
  | admitted (totals : Footprint)
  /-- The trace alone exceeds the bounds. -/
  | blocked
  /-- The trace does not fit what is left of the pass. -/
  | deferred
  deriving DecidableEq

/-- `admit_capacity`. -/
def admitCapacity (result : LifecycleResult) (footprint : Footprint) (r : LifecycleRequest) : CapacityAdmission :=
  if r.maxArchiveRecords < footprint.records ∨ r.maxArchiveBytes < footprint.bytes then .blocked
  else
    let totals : Footprint := ⟨result.touchedRecords + footprint.records, result.touchedBytes + footprint.bytes⟩
    if r.maxArchiveRecords < totals.records ∨ r.maxArchiveBytes < totals.bytes then .deferred else .admitted totals

/-- `update_scan_cursor`. -/
def updateScanCursor (db : Db) (cursor : LifecycleCursor) : Db := { db with lifecycleScanCursor := cursor }

section Maintenance

variable [Sha2]

/-- The transition of a trace. -/
def moveTrace (db : Db) (candidate : Candidate) (nowUnixMs : ℕ) : Transition → Except StoreError Db
  | .warm => moveHotToWarm db candidate nowUnixMs
  | .cold => moveToCold db candidate nowUnixMs
  | .delete => purgeTrace db candidate

omit [Sha2] in
/-- The result with one more transition. -/
def LifecycleResult.moved (result : LifecycleResult) (totals : Footprint) : Transition → LifecycleResult
  | .warm => { result with
      movedToWarm := result.movedToWarm + 1, touchedRecords := totals.records, touchedBytes := totals.bytes }
  | .cold => { result with
      movedToCold := result.movedToCold + 1, touchedRecords := totals.records, touchedBytes := totals.bytes }
  | .delete => { result with
      deleted := result.deleted + 1, touchedRecords := totals.records, touchedBytes := totals.bytes }

omit [Sha2] in
/-- What happens outside the database before a trace is no longer visible. -/
def beforeRemoval (outside : Except StoreError Unit) : Transition → Except StoreError Unit
  | .warm => .ok ()
  | .cold | .delete => outside

omit [Sha2] in
/-- `advance_report_visibility_epoch`, which a move to the warm tables leaves out. -/
def advanceEpoch (epoch : ℕ) : Transition → Except StoreError ℕ
  | .warm => .ok epoch
  | .cold | .delete => advanceGeneration epoch

/-- The part of the transaction of a candidate that moves its trace. -/
def transitionTrace (db : Db) (request : LifecycleRequest) (current : Candidate) (transition : Transition)
    (outside : Except StoreError Unit) : Except StoreError Db := do
  beforeRemoval outside transition
  let moved ← moveTrace db current request.nowUnixMs transition
  let reportGeneration ← advanceGeneration moved.reportGeneration
  let reportVisibilityEpoch ← advanceEpoch moved.reportVisibilityEpoch transition
  pure { moved with
    projectionDirty := true, reportGeneration, reportVisibilityEpoch, lifecycleScanCursor := current.cursorAfter }

/-- One round of the loop of `maintain_lifecycle_inner`: the transaction of a candidate. -/
def maintainCandidate (db : Db) (request : LifecycleRequest) (result : LifecycleResult) (candidate : Candidate)
    (outside : Except StoreError Unit) : Except StoreError (LifecycleResult × Db) := do
  let skipped := updateScanCursor db candidate.cursorAfter
  match ← reloadCandidate db candidate with
  | none => pure (result, skipped)
  | some current =>
    match transitionFor current request.cutoffs with
    | none => pure (result, skipped)
    | some transition =>
      let result := { result with scannedTraces := result.scannedTraces + 1 }
      if current.unresolved then pure ({ result with blocked := result.blocked + 1 }, skipped)
      else do
        let footprint ← traceFootprint db current
        match admitCapacity result footprint request with
        | .blocked => pure ({ result with blocked := result.blocked + 1 }, skipped)
        | .deferred => pure ({ result with deferred := result.deferred + 1 }, skipped)
        | .admitted totals =>
          let db ← transitionTrace db request current transition outside
          pure (result.moved totals transition, db)

/-- The loop of `maintain_lifecycle_inner`: it stops at the first error, and keeps what was committed before. -/
def maintainCandidates (request : LifecycleRequest) (outside : Candidate → Except StoreError Unit) :
    Db → LifecycleResult → List Candidate → Except StoreError LifecycleResult × Db
  | db, result, [] => (.ok result, db)
  | db, result, candidate :: candidates =>
    match maintainCandidate db request result candidate (outside candidate) with
    | .error e => (.error e, db)
    | .ok (result, db) => maintainCandidates request outside db result candidates

/-- `maintain_lifecycle`. -/
def maintainLifecycle (db : Db) (request : LifecycleRequest) (outside : Candidate → Except StoreError Unit) :
    Except StoreError LifecycleResult × Db :=
  match validateRequest request with
  | .error e => (.error e, db)
  | .ok () =>
    match backfillHotTraceIndex db request with
    | .error e => (.error e, db)
    | .ok (blocked, db) =>
      match lifecycleCandidates db request.cutoffs request.maxTracesPerPass with
      | .error e => (.error e, db)
      | .ok candidates => maintainCandidates request outside db { blocked } candidates

end Maintenance

end AgentObservability.Store
