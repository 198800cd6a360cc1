import AgentObservability.Store.IngestSpec

/-!
# What a lifecycle pass and a retention pass can do

The inversion of the operations that carry whole traces. A lifecycle transaction
moves its scan cursor, or it takes one of six ways (`Moved`): a hot trace goes to
the warm tables, to the archive or away, a warm one to the archive or away, a cold
one away. A retention pass commits nothing, or it deletes the selected traces
(`applyRetention_ok`).
-/

namespace AgentObservability.Store

open Domain Contracts Foundation

variable [Sha2] {db db' : Db} {candidate : Candidate} {now : ℕ}

/-! ### The control tables -/

/-- The control tables take a hot trace over. -/
structure TakenOver (db : Db) (candidate : Candidate) (traceKey : String) (tier : ArchiveTier)
    (traceControl : Table TraceControlRow) (spanControl : Table SpanControlRow) : Prop where
  /-- The footprint of the trace goes into a control row. -/
  control : ∃ footprint, traceFootprint db candidate = .ok footprint ∧
    (db.recordsOf candidate.identity).length = footprint.records ∧
    db.traceControl.insert
      { traceKey, tier, latestObservedAt := candidate.latestObservedAt, recordCount := footprint.records
        estimatedBytes := footprint.bytes } = some traceControl
  /-- Every record goes into a control copy. -/
  spans : db.spanControl.insertAll ((db.recordsOf candidate.identity).map (·.toControl traceKey)) = some spanControl

omit [Sha2] in
theorem archiveHotControl_ok {traceKey : String} {tier : ArchiveTier} {traceControl : Table TraceControlRow}
    {spanControl : Table SpanControlRow}
    (h : archiveHotControl db candidate traceKey tier = .ok (traceControl, spanControl)) :
    TakenOver db candidate traceKey tier traceControl spanControl := by
  simp only [archiveHotControl, bind_eq_ok, ofOption_eq_ok, require_eq_ok, pure_eq_ok, Prod.mk.injEq] at h
  obtain ⟨footprint, hf, _, hc, _, hs, ⟨⟩, hl, rfl, rfl⟩ := h
  exact ⟨⟨footprint, hf, hl, hc⟩, hs⟩

omit [Sha2] in
theorem loadHotRecords_ok {traceId : String} {rows : List RecordRow} (h : loadHotRecords db traceId = .ok rows) :
    db.recordsOf traceId ≠ [] ∧ rows = db.recordsOf traceId := by
  simp only [loadHotRecords, bind_eq_ok, require_eq_ok, pure_eq_ok] at h
  obtain ⟨⟨⟩, hne, rfl⟩ := h
  exact ⟨hne, rfl⟩

theorem insertSpanGuards_ok {states : List DomainSpanState} {guards : Table SpanGuardRow}
    (h : insertSpanGuards db states = .ok guards) :
    guards = replaceSpanGuards db.expiredSpanStates (states.map spanGuard) := by
  simp only [insertSpanGuards, bind_eq_ok, pure_eq_ok] at h
  obtain ⟨⟨⟩, -, rfl⟩ := h
  rfl

omit [Sha2] in
/-- The warm copies go in one after the other. -/
theorem insertWarmRecords_ok {traceKey : String} {rows : List RecordRow} :
    ∀ {warmRecords warmRecords' : Table WarmRecordRow},
      rows.foldlM (insertWarmRecord traceKey) warmRecords = .ok warmRecords' →
      warmRecords.insertAll (rows.map (·.toWarm traceKey)) = some warmRecords' := by
  induction rows with
  | nil => intro t t' h; cases h; rfl
  | cons row rows ih =>
    intro t t' h
    rw [List.foldlM_cons, bind_eq_ok] at h
    obtain ⟨u, hu, h⟩ := h
    simp only [insertWarmRecord, bind_eq_ok, ofOption_eq_ok] at hu
    obtain ⟨⟨⟩, -, hu⟩ := hu
    rw [List.map_cons, Table.insertAll, hu, Option.bind_some]
    exact ih h

/-! ### The moves -/

/-- The ways of a trace. -/
inductive Moved (db : Db) (candidate : Candidate) (now : ℕ) : Transition → Db → Prop
  /-- A hot trace goes to the warm tables. -/
  | hotToWarm {traceControl : Table TraceControlRow} {spanControl : Table SpanControlRow}
      {warmTraces : Table WarmTraceRow} {warmRecords : Table WarmRecordRow} (ht : candidate.tier = .hot)
      (ha : TakenOver db candidate (hashOpaqueIdentifier candidate.identity) .warm traceControl spanControl)
      (hw : db.warmTraces.insert
        { traceKey := hashOpaqueIdentifier candidate.identity, latestObservedAt := candidate.latestObservedAt
          movedAt := now } = some warmTraces)
      (hr : db.warmRecords.insertAll ((db.recordsOf candidate.identity).map
        (·.toWarm (hashOpaqueIdentifier candidate.identity))) = some warmRecords) :
      Moved db candidate now .warm (deleteHotTrace
        { db with
          traceControl, spanControl, warmTraces, warmRecords
          expiredSpanStates := replaceSpanGuards db.expiredSpanStates
            ((db.recordsOf candidate.identity).map fun row => spanGuard row.state) } candidate.identity)
  /-- A hot trace goes to the archive. -/
  | hotToCold {traceControl : Table TraceControlRow} {spanControl : Table SpanControlRow}
      {coldTraces : Table ColdTraceRow} (ht : candidate.tier = .hot)
      (ha : TakenOver db candidate (hashOpaqueIdentifier candidate.identity) .cold traceControl spanControl)
      (hc : insertColdTrace db candidate (hashOpaqueIdentifier candidate.identity) now
        ((db.recordsOf candidate.identity).map (·.record)) = .ok coldTraces) :
      Moved db candidate now .cold (deleteHotTrace
        { db with
          traceControl, spanControl, coldTraces
          expiredSpanStates := replaceSpanGuards db.expiredSpanStates
            ((db.recordsOf candidate.identity).map fun row => spanGuard row.state) } candidate.identity)
  /-- A warm trace goes to the archive. -/
  | warmToCold {coldTraces : Table ColdTraceRow} (ht : candidate.tier = .warm)
      (hc : insertColdTrace db candidate candidate.identity now
        ((db.warmRecordsOf candidate.identity).map (·.record)) = .ok coldTraces) :
      Moved db candidate now .cold
        { db with
          traceControl := db.traceControl.modify (fun row => row.traceKey = candidate.identity ∧ row.tier = .warm)
            (fun row => { row with tier := .cold }) (fun _ _ => Iff.rfl) (fun _ _ => Iff.rfl)
          warmTraces := db.warmTraces.delete fun row => row.traceKey = candidate.identity
          warmRecords := db.warmRecords.delete fun row => row.traceKey = candidate.identity
          coldTraces }
  /-- A hot trace goes away. -/
  | purgeHot (ht : candidate.tier = .hot) (hne : db.recordsOf candidate.identity ≠ []) :
      Moved db candidate now .delete (deleteHotTrace
        { db with
          expiredSpanStates := replaceSpanGuards db.expiredSpanStates
            ((db.recordsOf candidate.identity).map fun row => spanGuard row.state)
          expiredTraceStates := insertTraceGuard db (hashOpaqueIdentifier candidate.identity) } candidate.identity)
  /-- A warm trace goes away. -/
  | purgeWarm (ht : candidate.tier = .warm) :
      Moved db candidate now .delete
        { db with
          warmTraces := db.warmTraces.delete fun row => row.traceKey = candidate.identity
          warmRecords := db.warmRecords.delete fun row => row.traceKey = candidate.identity
          traceControl := db.traceControl.delete fun row => row.traceKey = candidate.identity
          spanControl := db.spanControl.delete fun row => row.traceKey = candidate.identity
          expiredTraceStates := insertTraceGuard db candidate.identity }
  /-- A cold trace goes away. -/
  | purgeCold (ht : candidate.tier = .cold) :
      Moved db candidate now .delete
        { db with
          coldTraces := db.coldTraces.delete fun row => row.traceKey = candidate.identity
          traceControl := db.traceControl.delete fun row => row.traceKey = candidate.identity
          spanControl := db.spanControl.delete fun row => row.traceKey = candidate.identity
          expiredTraceStates := insertTraceGuard db candidate.identity }

omit [Sha2] in
theorem decodeRecords_ok {records decoded : List DurableRecordV1} (h : decodeRecords records = .ok decoded) :
    decoded = records := by
  simp only [decodeRecords, bind_eq_ok, pure_eq_ok] at h
  obtain ⟨-, -, -, -, rfl⟩ := h
  rfl

theorem moveHotToWarm_ok (ht : candidate.tier = .hot) (h : moveHotToWarm db candidate now = .ok db') :
    Moved db candidate now .warm db' := by
  simp only [moveHotToWarm, bind_eq_ok, ofOption_eq_ok, pure_eq_ok, Prod.exists] at h
  obtain ⟨traceControl, spanControl, ha, warmTraces, hw, rows, hrows, guards, hg, warmRecords, hr, rfl⟩ := h
  obtain ⟨-, rfl⟩ := loadHotRecords_ok hrows
  obtain rfl := insertSpanGuards_ok hg
  rw [List.map_map]
  exact .hotToWarm ht (archiveHotControl_ok ha) hw (insertWarmRecords_ok hr)

theorem moveToCold_ok (h : moveToCold db candidate now = .ok db') : Moved db candidate now .cold db' := by
  unfold moveToCold at h
  split at h
  · rename_i ht
    simp only [bind_eq_ok, pure_eq_ok, Prod.exists] at h
    obtain ⟨traceControl, spanControl, ha, rows, hrows, guards, hg, records, hd, coldTraces, hc, rfl⟩ := h
    obtain ⟨-, rfl⟩ := loadHotRecords_ok hrows
    obtain rfl := insertSpanGuards_ok hg
    obtain rfl := decodeRecords_ok hd
    rw [List.map_map]
    exact .hotToCold ht (archiveHotControl_ok ha) hc
  · rename_i ht
    simp only [bind_eq_ok, pure_eq_ok] at h
    obtain ⟨records, hd, coldTraces, hc, rfl⟩ := h
    obtain rfl := decodeRecords_ok hd
    exact .warmToCold ht hc
  · cases h

theorem purgeTrace_ok (h : purgeTrace db candidate = .ok db') : Moved db candidate now .delete db' := by
  unfold purgeTrace at h
  split at h
  · rename_i ht
    simp only [bind_eq_ok, pure_eq_ok] at h
    obtain ⟨rows, hrows, guards, hg, rfl⟩ := h
    obtain ⟨hne, rfl⟩ := loadHotRecords_ok hrows
    obtain rfl := insertSpanGuards_ok hg
    rw [List.map_map]
    exact .purgeHot ht hne
  · rename_i ht
    obtain rfl := pure_eq_ok.mp h
    exact .purgeWarm ht
  · rename_i ht
    obtain rfl := pure_eq_ok.mp h
    exact .purgeCold ht

omit [Sha2] in
/-- Only a hot trace moves to the warm tables. -/
theorem transitionFor_warm {cutoffs : Cutoffs} (h : transitionFor candidate cutoffs = some .warm) :
    candidate.tier = .hot := by
  unfold transitionFor at h
  split at h
  · cases h
  · split at h
    · assumption
    · split at h <;> cases h
    · cases h

theorem moveTrace_ok {cutoffs : Cutoffs} {transition : Transition}
    (ht : transitionFor candidate cutoffs = some transition)
    (h : moveTrace db candidate now transition = .ok db') : Moved db candidate now transition db' := by
  cases transition with
  | warm => exact moveHotToWarm_ok (transitionFor_warm ht) h
  | cold => exact moveToCold_ok h
  | delete => exact purgeTrace_ok h

omit [Sha2] in
@[simp] theorem expiredSpanStates_deleteHotTraces (db : Db) (ids : List String) :
    (deleteHotTraces db ids).expiredSpanStates = db.expiredSpanStates := rfl

/-- A move leaves the generation and the acknowledgement to its transaction. -/
theorem Moved.report {transition : Transition} (h : Moved db candidate now transition db') :
    db'.reportGeneration = db.reportGeneration ∧ db'.reportAcknowledgement = db.reportAcknowledgement := by
  cases h <;> exact ⟨rfl, rfl⟩

/-! ### The transaction of a candidate -/

omit [Sha2] in
theorem reloadCandidate_ok {current : Option Candidate} (h : reloadCandidate db candidate = .ok current) :
    ∀ c, current = some c → ∃ latest : ℕ, currentRow db candidate = some ((latest : WithBot ℕ), c.unresolved) ∧
      c = { candidate with latestObservedAt := latest, unresolved := c.unresolved } := by
  intro c hc
  unfold reloadCandidate at h
  split at h
  · cases h; cases hc
  · rename_i latest unresolved hrow
    simp only [bind_eq_ok, pure_eq_ok] at h
    obtain ⟨millis, hm, rfl⟩ := h
    cases hc
    cases latest with
    | bot => cases hm
    | coe n =>
      cases hm
      exact ⟨_, hrow, rfl⟩

/-- What the transaction of a candidate commits when it moves a trace. -/
structure Transitioned (db : Db) (request : LifecycleRequest) (candidate : Candidate) (db' : Db) where
  /-- The candidate as it is now. -/
  current : Candidate
  /-- Its transition. -/
  transition : Transition
  /-- The database after the move. -/
  moved : Db
  /-- The epoch after it. -/
  epoch : ℕ
  /-- The latest observation of the candidate. -/
  latest : ℕ
  /-- The candidate is read back. -/
  row : currentRow db candidate = some ((latest : WithBot ℕ), false)
  /-- Only its row is. -/
  current_eq : current = { candidate with latestObservedAt := latest, unresolved := false }
  /-- It is old enough. -/
  due : transitionFor current request.cutoffs = some transition
  /-- The trace moves. -/
  move : Moved db current request.nowUnixMs transition moved
  /-- There is a next generation. -/
  generation : moved.reportGeneration + 1 < 2 ^ 64
  /-- The flags and counters follow. -/
  result : db' = { moved with
    projectionDirty := true, reportGeneration := moved.reportGeneration + 1, reportVisibilityEpoch := epoch
    lifecycleScanCursor := current.cursorAfter }

/-- **The transaction of a candidate moves the scan cursor, or a trace.** -/
theorem maintainCandidate_ok {request : LifecycleRequest} {result result' : LifecycleResult}
    {outside : Except StoreError Unit} (h : maintainCandidate db request result candidate outside = .ok (result', db')) :
    db' = updateScanCursor db candidate.cursorAfter ∨ Nonempty (Transitioned db request candidate db') := by
  simp only [maintainCandidate, bind_eq_ok] at h
  obtain ⟨current, hcurrent, h⟩ := h
  split at h
  · obtain ⟨-, rfl⟩ := Prod.mk.inj (pure_eq_ok.mp h)
    exact Or.inl rfl
  · rename_i current
    obtain ⟨latest, hrow, hc⟩ := reloadCandidate_ok hcurrent current rfl
    split at h
    · obtain ⟨-, rfl⟩ := Prod.mk.inj (pure_eq_ok.mp h)
      exact Or.inl rfl
    · rename_i transition hdue
      split at h
      · obtain ⟨-, rfl⟩ := Prod.mk.inj (pure_eq_ok.mp h)
        exact Or.inl rfl
      · rename_i hresolved
        rw [bind_eq_ok] at h
        obtain ⟨footprint, -, h⟩ := h
        split at h
        · obtain ⟨-, rfl⟩ := Prod.mk.inj (pure_eq_ok.mp h)
          exact Or.inl rfl
        · obtain ⟨-, rfl⟩ := Prod.mk.inj (pure_eq_ok.mp h)
          exact Or.inl rfl
        · simp only [transitionTrace, bind_eq_ok, pure_eq_ok, Prod.mk.injEq] at h
          obtain ⟨_, ⟨⟨⟩, -, moved, hmove, generation, hg, epoch, -, rfl⟩, -, rfl⟩ := h
          obtain ⟨hlt, rfl⟩ := advanceGeneration_ok hg
          rw [Bool.eq_false_iff.mpr hresolved] at hrow hc
          exact Or.inr ⟨⟨current, transition, moved, epoch, latest, hrow, hc, hdue, moveTrace_ok hdue hmove, hlt, rfl⟩⟩

/-! ### Retention -/

/-- What a pass that expires traces commits. -/
structure Expired (db : Db) (call : RetentionCall) (selection : RetentionSelection) (db' : Db) where
  /-- The receipts after it. -/
  receipts : Table ReceiptRow
  /-- The epoch after it. -/
  epoch : ℕ
  /-- The selection. -/
  select : selectRetention db call.cutoffUnixMs call.bounds = .ok selection
  /-- There is a next generation. -/
  generation : db.reportGeneration + 1 < 2 ^ 64
  /-- The selected traces go, and leave their guards. -/
  result : db' = deleteHotTraces
    { db with
      retentionReceipts := receipts
      expiredSpanStates := replaceSpanGuards db.expiredSpanStates selection.spanGuards
      projectionDirty := true
      reportGeneration := db.reportGeneration + 1
      reportVisibilityEpoch := epoch }
    selection.traceIds

/-- **A retention pass commits nothing, or it expires the selected traces.** -/
theorem applyRetention_ok {call : RetentionCall} {archive : Except StoreError String}
    {retired : Except StoreError Unit} {outcome : RetentionOutcome}
    (h : applyRetention db call archive retired = .ok (outcome, db')) :
    db' = db ∨ ∃ selection, outcome = .expired selection ∧ Nonempty (Expired db call selection db') := by
  unfold applyRetention at h
  split at h
  · cases h
    exact Or.inl rfl
  · simp only [bind_eq_ok, require_eq_ok] at h
    obtain ⟨⟨⟩, -, selection, hs, ⟨⟩, -, ⟨⟩, -, h⟩ := h
    split at h
    · obtain ⟨-, rfl⟩ := Prod.mk.inj (pure_eq_ok.mp h)
      exact Or.inl rfl
    · simp only [expireSelection, bind_eq_ok, ofOption_eq_ok, pure_eq_ok, Prod.mk.injEq] at h
      obtain ⟨_, ⟨_, -, receipts, -, epoch, -, ⟨⟩, -, generation, hg, rfl⟩, rfl, rfl⟩ := h
      obtain ⟨hlt, rfl⟩ := advanceGeneration_ok hg
      exact Or.inr ⟨selection, rfl, ⟨⟨receipts, epoch, hs, hlt, rfl⟩⟩⟩

end AgentObservability.Store
