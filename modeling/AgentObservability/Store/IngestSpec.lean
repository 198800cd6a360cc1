import AgentObservability.Store.Transaction

/-!
# What an ingest can do

Each function of `Ingest` and `Archive` is inverted once here: what a success says
about its input, and the database it returns as an update of the one it was given.
The results about runs use these lemmas and do not unfold the functions.

An accepted observation ends in one of four ways (`IngestExit`). The cursor was
replayed and nothing changes; the archive, or the hot tables and the guards,
already know what it says, and only the ledger of cursors changes (`Ledger`); or
it is committed (`Commit`). Before the last two an archived trace may have
been restored (`Restored`).
-/

namespace AgentObservability.Store

open Domain Contracts Foundation

variable [Sha2] {db db' db₁ : Db} {o : SourceObservation} {p : PreparedObservation} {status : IngestStatus}

/-! ### The ledger of cursors -/

omit [Sha2] in
/-- Nothing but the ledger of cursors and the dirty flag differs. -/
def Ledger (db db' : Db) : Prop :=
  ∃ inputs cursors dispositions dirty, db' =
    { db with
      sourceInputs := inputs, sourceCursors := cursors, adapterDispositions := dispositions, projectionDirty := dirty }

omit [Sha2] in
theorem Ledger.refl (db : Db) : Ledger db db := ⟨_, _, _, _, rfl⟩

omit [Sha2] in
theorem Ledger.trans {db₂ : Db} (h : Ledger db db₁) (h' : Ledger db₁ db₂) : Ledger db db₂ := by
  obtain ⟨_, _, _, _, rfl⟩ := h
  obtain ⟨_, _, _, _, rfl⟩ := h'
  exact ⟨_, _, _, _, rfl⟩

theorem recordDisposition_ok {c : SourceCheckpoint} {disposition : AdapterDispositionKind}
    {code : AdapterDispositionCode} {hash : String} (h : recordDisposition db c disposition code hash = .ok db') :
    ∃ dispositions cursors, db.adapterDispositions.insert
        { source := c.source, generation := privateSourceGeneration c, cursor := c.sourceCursor.asStr
          disposition, code, payloadHash := hash } = some dispositions ∧
      advanceCursor db c = .ok cursors ∧
      db' = { db with
        adapterDispositions := dispositions.keepNewest maxAdapterDispositions, sourceCursors := cursors } := by
  simp only [recordDisposition, bind_eq_ok, ofOption_eq_ok, pure_eq_ok] at h
  obtain ⟨dispositions, hd, cursors, hc, rfl⟩ := h
  exact ⟨dispositions, cursors, hd, hc, rfl⟩

theorem recordDisposition_ledger {c : SourceCheckpoint} {disposition : AdapterDispositionKind}
    {code : AdapterDispositionCode} {hash : String} (h : recordDisposition db c disposition code hash = .ok db') :
    Ledger db db' := by
  obtain ⟨_, _, _, _, rfl⟩ := recordDisposition_ok h
  exact ⟨_, _, _, _, rfl⟩

theorem insertSuppressedObservation_ledger {code : AdapterDispositionCode}
    (h : insertSuppressedObservation db o code = .ok db') : Ledger db db' := by
  obtain ⟨_, -, h⟩ := bind_eq_ok.mp h
  exact recordDisposition_ledger h

theorem suppressDuplicate_ok (h : suppressDuplicate db o = .ok (status, db')) :
    status = .suppressed ∧ Ledger db db' := by
  simp only [suppressDuplicate, bind_eq_ok, pure_eq_ok, Prod.mk.injEq] at h
  obtain ⟨_, h, rfl, rfl⟩ := h
  exact ⟨rfl, (insertSuppressedObservation_ledger h).trans ⟨_, _, _, _, rfl⟩⟩

theorem suppressExpired_ok (h : suppressExpired db o = .ok (status, db')) : status = .suppressed ∧ Ledger db db' := by
  simp only [suppressExpired, bind_eq_ok, pure_eq_ok, Prod.mk.injEq] at h
  obtain ⟨_, h, rfl, rfl⟩ := h
  exact ⟨rfl, insertSuppressedObservation_ledger h⟩

theorem acceptDuplicateEvent_ok (h : acceptDuplicateEvent db o p = .ok (status, db')) :
    status = .duplicate ∧ Ledger db db' := by
  simp only [acceptDuplicateEvent, bind_eq_ok, ofOption_eq_ok, pure_eq_ok, Prod.mk.injEq] at h
  obtain ⟨_, -, _, -, rfl, rfl⟩ := h
  exact ⟨rfl, _, _, _, _, rfl⟩

/-! ### The preparation -/

theorem privateOptionalId_ok {value : Option Identifier} {id : Option Identifier}
    (h : privateOptionalId value = .ok id) :
    id.map (·.asStr) = value.map fun v => hashOpaqueIdentifier v.asStr := by
  cases value with
  | none => cases h; rfl
  | some v =>
    obtain ⟨i, hi, rfl⟩ := map_eq_ok.mp h
    rw [privateId, mapError_ok_iff] at hi
    simp [Identifier.parse_ok hi]

/-- An identifier is the digest of an identifier of the source. -/
def Digests (id value : Option Identifier) : Prop :=
  id.map (·.asStr) = value.map fun v => hashOpaqueIdentifier v.asStr

/-- What a preparation makes of an observation. -/
structure Prepared (o : SourceObservation) (p : PreparedObservation) : Prop where
  /-- The trace behind its digest. -/
  traceId : p.state.traceId.asStr = hashOpaqueIdentifier o.traceId.asStr
  /-- The span behind its digest. -/
  spanId : p.state.spanId.asStr = hashOpaqueIdentifier o.spanId.asStr
  /-- The parent behind its digest. -/
  parentSpanId : Digests p.state.parentSpanId o.parentSpanId
  /-- The session behind its digest. -/
  sessionId : Digests p.state.correlation.sessionId o.correlation.sessionId
  /-- The turn behind its digest. -/
  turnId : Digests p.state.correlation.turnId o.correlation.turnId
  /-- The request behind its digest. -/
  requestId : Digests p.state.correlation.requestId o.correlation.requestId
  /-- The operation behind its digest. -/
  operationId : Digests p.state.correlation.operationId o.correlation.operationId
  /-- The permission behind its digest. -/
  permissionId : Digests p.state.correlation.permissionId o.correlation.permissionId
  /-- The compaction behind its digest. -/
  compactionId : Digests p.state.correlation.compactionId o.correlation.compactionId
  /-- The kind of the event. -/
  kind : p.state.kind = kindForEvent o.event
  /-- The lifecycle as it is. -/
  lifecycle : p.state.lifecycle = o.lifecycle
  /-- The timing as it is. -/
  timing : p.state.timing = o.timing
  /-- The metrics as they are. -/
  tokenUsage : p.state.tokenUsage = o.tokenUsage
  /-- The record of the observation alone. -/
  record : p.record = sanitized (projected o o.rawState)
  /-- It is valid. -/
  valid : p.record.validate = .ok ()
  /-- Its hash. -/
  payloadHash : p.payloadHash = "sha256:" ++ Sha2.hexDigest (utf8 p.record.json)
  /-- The id of the event. -/
  eventId : p.eventId = stableEventId o

theorem prepareObservation_ok (h : prepareObservation o = .ok p) : Prepared o p := by
  simp only [prepareObservation, bind_eq_ok, mapError_ok_iff, pure_eq_ok] at h
  obtain ⟨record, hrecord, state, hstate, hash, hhash, rfl⟩ := h
  simp only [canonicalObservationPayloadHash, bind_eq_ok, pure_eq_ok, hrecord, Except.ok.injEq, exists_eq_left'] at hhash
  obtain ⟨hrec, hvalid⟩ := durableRecord_ok hrecord
  simp only [privateState, bind_eq_ok, pure_eq_ok, privateId, mapError_ok_iff] at hstate
  obtain ⟨_, ht, _, hs, _, hp, _, h1, _, h2, _, h3, _, h4, _, h5, _, h6, rfl⟩ := hstate
  exact ⟨Identifier.parse_ok ht, Identifier.parse_ok hs, privateOptionalId_ok hp, privateOptionalId_ok h1,
    privateOptionalId_ok h2, privateOptionalId_ok h3, privateOptionalId_ok h4, privateOptionalId_ok h5,
    privateOptionalId_ok h6, rfl, rfl, rfl, rfl, hrec, hvalid, hhash.symm, rfl⟩

/-- The identifiers of a prepared state are digests. -/
theorem Prepared.isPrivate (h : Prepared o p) :
    IsPrivate p.state.traceId.asStr ∧ IsPrivate p.state.spanId.asStr := by
  rw [h.traceId, h.spanId]
  exact ⟨isPrivate_hashOpaqueIdentifier _, isPrivate_hashOpaqueIdentifier _⟩

/-- The trace key of a prepared state is its trace. -/
@[simp] theorem Prepared.hash_traceId (h : Prepared o p) :
    hashOpaqueIdentifier p.state.traceId.asStr = p.state.traceId.asStr :=
  hashOpaqueIdentifier_of_private h.isPrivate.1

/-- A prepared record has the times of its state. -/
theorem Prepared.recordObservedAt (h : Prepared o p) :
    recordObservedAt p.record = p.state.timing.endUnixMs.getD p.state.timing.startUnixMs := by
  rw [h.record, h.timing]
  rfl

/-! ### The archive -/

/-- The archive holds exactly the state of the span. -/
def ArchivedDuplicate (db : Db) (s : DomainSpanState) : Prop :=
  ∃ row ∈ db.spanControl, row.traceKey = hashOpaqueIdentifier s.traceId.asStr ∧ row.spanId = s.spanId.asStr ∧
    canonicalStateHash row.state = canonicalStateHash s

/-- The control row of the trace of a state, if the trace is archived. -/
def Db.archived (db : Db) (s : DomainSpanState) : Option TraceControlRow :=
  db.traceControl.find? fun row => row.traceKey = hashOpaqueIdentifier s.traceId.asStr

/-- The database behind the archive: the trace was hot, or it was restored. -/
inductive Restored (db : Db) (s : DomainSpanState) : Db → Prop
  /-- The trace is not archived. -/
  | hot (h : db.archived s = none) : Restored db s db
  /-- The trace was restored. -/
  | rehydrated {control : TraceControlRow} {db₁ : Db} (hc : db.archived s = some control)
      (hd : ¬ ArchivedDuplicate db s) (hr : rehydrate db control s = .ok db₁) : Restored db s db₁

omit [Sha2] in
theorem stateFromJson_ok {s s' : DomainSpanState} (h : stateFromJson s = .ok s') :
    s' = s ∧ s.timing.reversed = false := by
  simp only [stateFromJson, bind_eq_ok, require_eq_ok, pure_eq_ok] at h
  obtain ⟨-, hr, rfl⟩ := h
  exact ⟨rfl, hr⟩

theorem prepareArchivedTrace_ok {s : DomainSpanState} {preparation : ArchivedTracePreparation}
    (h : prepareArchivedTrace db s = .ok (preparation, db₁)) :
    (preparation = .duplicate ∧ ArchivedDuplicate db s ∧ db₁ = db) ∨
    (preparation ≠ .duplicate ∧ Restored db s db₁) := by
  unfold prepareArchivedTrace at h
  simp only at h
  split at h
  · rename_i hn
    obtain ⟨rfl, rfl⟩ := Prod.mk.inj (pure_eq_ok.mp h)
    exact Or.inr ⟨by simp, .hot hn⟩
  · rename_i control hc
    split at h
    · rename_i hspan
      obtain ⟨db₂, hr, h⟩ := map_eq_ok.mp h
      obtain ⟨rfl, rfl⟩ := Prod.mk.inj h
      refine Or.inr ⟨by simp, .rehydrated hc ?_ hr⟩
      rintro ⟨row, hrow, ht, hs, -⟩
      exact Table.find?_eq_none.mp hspan row hrow ⟨ht, hs⟩
    · rename_i row hspan
      obtain ⟨hrow, ht, hs⟩ := Table.mem_of_find? hspan
      obtain ⟨state, hstate, h⟩ := bind_eq_ok.mp h
      obtain ⟨rfl, -⟩ := stateFromJson_ok hstate
      split at h
      · rename_i hhash
        obtain ⟨rfl, rfl⟩ := Prod.mk.inj (pure_eq_ok.mp h)
        exact Or.inl ⟨rfl, ⟨row, hrow, ht, hs, hhash⟩, rfl⟩
      · rename_i hhash
        obtain ⟨db₂, hr, h⟩ := map_eq_ok.mp h
        obtain ⟨rfl, rfl⟩ := Prod.mk.inj h
        refine Or.inr ⟨by simp, .rehydrated hc ?_ hr⟩
        rintro ⟨row', hrow', -, hs', hhash'⟩
        obtain rfl := Table.eq_of_clash hrow hrow' (Or.inl (hs.trans hs'.symm))
        exact hhash hhash'

omit [Sha2] in
/-- What a restoration returns. -/
theorem rehydrate_ok {control : TraceControlRow} {s : DomainSpanState} (h : rehydrate db control s = .ok db₁) :
    ∃ records topology index, ∃ first ∈ db.spansOf control.traceKey,
      first.traceId = s.traceId.asStr ∧
      db.records.insertAll ((db.spansOf control.traceKey).map (·.toRecord)) = some records ∧
      (db.spansOf control.traceKey).length = control.recordCount ∧
      db.topology.insertAll ((db.spansOf control.traceKey).map (·.toTopology (db.spansOf control.traceKey))) =
        some topology ∧
      db.hotTraceIndex.insert
        { traceId := s.traceId.asStr, latestObservedAt := control.latestObservedAt
          unresolved := HasUnresolved topology s.traceId.asStr, recordCount := control.recordCount
          estimatedBytes := control.estimatedBytes, indexedComplete := true } = some index ∧
      db₁ = { db with
        records := records
        recordsSequence := ((db.spansOf control.traceKey).map (·.originalCommitSeq)).foldl max db.recordsSequence
        topology := topology
        hotTraceIndex := index
        expiredSpanStates := db.expiredSpanStates.delete fun guard =>
          (db.spansOf control.traceKey).any fun row => row.spanId = guard.spanId
        warmTraces := db.warmTraces.delete fun row => row.traceKey = control.traceKey
        warmRecords := db.warmRecords.delete fun row => row.traceKey = control.traceKey
        coldTraces := db.coldTraces.delete fun row => row.traceKey = control.traceKey
        traceControl := db.traceControl.delete fun row => row.traceKey = control.traceKey
        spanControl := db.spanControl.delete fun row => row.traceKey = control.traceKey } := by
  simp only [rehydrate, bind_eq_ok, ofOption_eq_ok, require_eq_ok, pure_eq_ok] at h
  obtain ⟨first, hfirst, -, hid, records, hrecords, -, hcount, topology, htopology, index, hindex, rfl⟩ := h
  rw [hid] at hindex
  exact ⟨records, topology, index, first, List.mem_of_mem_head? hfirst, hid, hrecords, hcount, htopology, hindex, rfl⟩

/-! ### The index -/

omit [Sha2] in
/-- Without a backfill the index row of the trace is brought up to date. -/
theorem updateHotTraceIndex_complete {traceId : String} {observedAt : ℕ} {prior : Option ℕ} {added bytes : ℕ}
    {index : Table HotTraceRow} {cursor : BackfillCursor} (hb : db.lifecycleBackfillCursor = .complete)
    (hc : ∀ row ∈ db.hotTraceIndex, row.indexedComplete = true)
    (h : updateHotTraceIndex db traceId observedAt prior added bytes = .ok (index, cursor)) :
    cursor = .complete ∧ completeIndex db traceId observedAt prior (addedBytes added bytes) = some index := by
  have hleft : leftToBackfill db traceId = false := by
    unfold leftToBackfill Db.indexRow
    split
    · rename_i row hrow
      simp [hc row (Table.mem_of_find? hrow).1]
    · simp [hb]
  simp only [updateHotTraceIndex, hleft, Bool.false_eq_true, if_false, bind_eq_ok, ofOption_eq_ok, pure_eq_ok,
    Prod.mk.injEq] at h
  obtain ⟨index', hi, -, -, rfl, rfl⟩ := h
  exact ⟨hb, hi⟩

/-! ### The commit -/

omit [Sha2] in
theorem loadState_ok {records : Table RecordRow} {spanId : String} {existing : Option DomainSpanState}
    (h : loadState records spanId = .ok existing) : existing = (recordOf records spanId).map (·.state) := by
  unfold loadState at h
  split at h
  · rename_i hn
    cases h
    simp [hn]
  · rename_i row hrow
    obtain ⟨s, hs, rfl⟩ := map_eq_ok.mp h
    obtain ⟨rfl, -⟩ := stateFromJson_ok hs
    simp [hrow]

omit [Sha2] in
theorem ensureCompatibleWithStored_ok {u : Unit} (h : ensureCompatibleWithStored db p = .ok u) :
    ∀ row, db.recordRow p.state.spanId.asStr = some row → StaticCompatible row.record p.record := by
  intro row hrow
  simpa only [ensureCompatibleWithStored, hrow, ensureStaticRecordCompatibility, require_eq_ok] using h

/-- What a reduction reads and returns. -/
structure Reduction (db : Db) (o : SourceObservation) (p : PreparedObservation) (reduced : DomainSpanState)
    (record : DurableRecordV1) : Prop where
  /-- The static fields of the record agree. -/
  compatible : ∀ row, db.recordRow p.state.spanId.asStr = some row → StaticCompatible row.record p.record
  /-- The states are merged. -/
  reduce : reduceSpanState ((db.recordRow p.state.spanId.asStr).map (·.state)) p.state = .ok reduced
  /-- The record of the result. -/
  record : durableRecord (projectionObservation o reduced)
    (projectionState (projectionObservation o reduced) reduced) = .ok record

theorem reduceObservation_ok {reduced : DomainSpanState} {record : DurableRecordV1}
    (h : reduceObservation db o p = .ok (reduced, record)) : Reduction db o p reduced record := by
  simp only [reduceObservation, bind_eq_ok, mapError_ok_iff, pure_eq_ok, Prod.mk.injEq] at h
  obtain ⟨existing, hload, u, hcompat, _, hred, _, hrec, rfl, rfl⟩ := h
  obtain rfl := loadState_ok hload
  exact ⟨ensureCompatibleWithStored_ok hcompat, hred, hrec⟩

omit [Sha2] in
@[simp] theorem projectionObservation_ids (o : SourceObservation) (reduced : DomainSpanState) :
    (projectionObservation o reduced).traceId = o.traceId ∧ (projectionObservation o reduced).spanId = o.spanId ∧
      (projectionObservation o reduced).parentSpanId = o.parentSpanId := by
  unfold projectionObservation
  split <;> exact ⟨rfl, rfl, rfl⟩

/-- The record of a reduction is sanitized from the observation and the reduced state, and valid. -/
theorem Reduction.record_eq {reduced : DomainSpanState} {record : DurableRecordV1}
    (r : Reduction db o p reduced record) :
    record = sanitized (projected (projectionObservation o reduced)
      (projectionState (projectionObservation o reduced) reduced)) ∧ record.validate = .ok () :=
  durableRecord_ok r.record

/-- What a commit reads and checks, with the tables it writes. -/
structure Commit (db : Db) (o : SourceObservation) (p : PreparedObservation) where
  /-- The reduced state. -/
  reduced : DomainSpanState
  /-- Its record. -/
  record : DurableRecordV1
  /-- The table `observations`. -/
  observations : Table ObservationRow
  /-- The table `source_inputs`. -/
  sourceInputs : Table SourceInputRow
  /-- The table `records`. -/
  records : Table RecordRow
  /-- The table `topology`, before the children of the span are resolved. -/
  topology : Table TopologyRow
  /-- The table `hot_trace_index`. -/
  hotTraceIndex : Table HotTraceRow
  /-- The cursor of the backfill. -/
  backfill : BackfillCursor
  /-- The table `delivery_outcomes`. -/
  deliveryOutcomes : Table DeliveryOutcomeRow
  /-- The table `source_cursors`. -/
  sourceCursors : Table SourceCursorRow
  /-- The reduction succeeds. -/
  reduction : Reduction db o p reduced record
  /-- The observation goes in. -/
  insert_observation : db.observations.insert (observationRow db o p reduced) = some observations
  /-- The input goes in. -/
  insert_input : db.sourceInputs.insert (sourceInputRow o p) = some sourceInputs
  /-- The record goes in. -/
  upsert_record : upsertRecord db reduced record = some records
  /-- The link goes in. -/
  upsert_topology : upsertTopology db reduced
    (reduced.parentSpanId.any fun parent => ¬ TopologyContains db parent.asStr) = some topology
  /-- The links from the span up are in order. -/
  chain : validateTopologyChain records reduced.spanId.asStr = .ok ()
  /-- The links from the children of the span up are in order. -/
  children : validateDirectChildren records topology reduced.spanId.asStr = .ok ()
  /-- The index is brought up to date. -/
  index : updateHotTraceIndex
      { db with observations := observations, topology := resolveChildren topology reduced.spanId.asStr }
      reduced.traceId.asStr (recordObservedAt p.record) ((db.recordRow reduced.spanId.asStr).map (·.sqlLength))
      (recordBytes reduced record) (observationBytes p.record p.payloadHash) = .ok (hotTraceIndex, backfill)
  /-- The outcome goes in. -/
  insert_outcome : db.deliveryOutcomes.insert ⟨p.eventId⟩ = some deliveryOutcomes
  /-- The cursor advances. -/
  cursor : advanceCursor db o.checkpoint = .ok sourceCursors
  /-- There is a next generation. -/
  generation : db.reportGeneration + 1 < 2 ^ 64

/-- The database after a commit. -/
def Commit.result (c : Commit db o p) : Db :=
  { db with
    observations := c.observations, sourceInputs := c.sourceInputs, records := c.records
    recordsSequence := db.nextCommitSeq, topology := resolveChildren c.topology c.reduced.spanId.asStr
    hotTraceIndex := c.hotTraceIndex, lifecycleBackfillCursor := c.backfill
    deliveryOutcomes := c.deliveryOutcomes, sourceCursors := c.sourceCursors, projectionDirty := true
    reportGeneration := db.reportGeneration + 1 }

omit [Sha2] in
theorem advanceGeneration_ok {generation next : ℕ} (h : advanceGeneration generation = .ok next) :
    generation + 1 < 2 ^ 64 ∧ next = generation + 1 := by
  simp only [advanceGeneration, bind_eq_ok, require_eq_ok, pure_eq_ok] at h
  obtain ⟨-, hg, rfl⟩ := h
  exact ⟨hg, rfl⟩

theorem commitObservation_ok (h : commitObservation db o p = .ok (status, db')) :
    status = .committed ∧ ∃ c : Commit db o p, db' = c.result := by
  simp only [commitObservation, bind_eq_ok, ofOption_eq_ok, pure_eq_ok, Prod.exists, Prod.mk.injEq] at h
  obtain ⟨reduced, record, hreduce, observations, hobs, inputs, hin, records, hrec, topology, htop, ⟨⟩, hchain,
    ⟨⟩, hchildren, index, backfill, hindex, outcomes, hout, cursors, hcur, generation, hgen, rfl, rfl⟩ := h
  obtain ⟨hg, rfl⟩ := advanceGeneration_ok hgen
  exact ⟨rfl, ⟨reduced, record, observations, inputs, records, topology, index, backfill, outcomes, cursors,
    reduceObservation_ok hreduce, hobs, hin, hrec, htop, hchain, hchildren, hindex, hout, hcur, hg⟩, rfl⟩

/-! ### The ladder -/

/-- The cursor extends its stream and has not been used. -/
structure FreshCursor (db : Db) (c : SourceCheckpoint) : Prop where
  /-- No disposition stands at it. -/
  disposition : existingDisposition db c = none
  /-- No input stands at it. -/
  input : existingInput db c = none
  /-- It follows the current cursor. -/
  extends_ : CursorMatches db c

/-- The hot tables or the guards know what an observation says. -/
inductive Settled (db : Db) (p : PreparedObservation) : Prop
  /-- The span has exactly this state. -/
  | sameState (row : RecordRow) (h : db.recordRow p.state.spanId.asStr = some row) (hs : row.state = p.state)
  /-- The span left with exactly this state. -/
  | guarded (guard : SpanGuardRow) (h : db.guardRow p.state.spanId.asStr = some guard)
      (hs : guard.canonicalStateHash = canonicalStateHash p.state)
  /-- The trace was purged. -/
  | expired (h : TraceExpired db p.state.traceId.asStr)
  /-- The event is stored, and the span has no guard. -/
  | knownEvent (row : ObservationRow) (hg : db.guardRow p.state.spanId.asStr = none)
      (h : db.eventRow p.eventId = some row) (hs : row.payloadHash = p.payloadHash)

/-- The hot tables and the guards do not know what an observation says. -/
structure Unsettled (db : Db) (p : PreparedObservation) : Prop where
  /-- The span has another state, or none. -/
  state : ∀ row, db.recordRow p.state.spanId.asStr = some row → row.state ≠ p.state
  /-- The span has no guard. -/
  guard : db.guardRow p.state.spanId.asStr = none
  /-- The trace was not purged. -/
  trace : ¬ TraceExpired db p.state.traceId.asStr
  /-- The event is not stored. -/
  event : db.eventRow p.eventId = none

omit [Sha2] in
theorem sameCanonicalObservation_ok {same : Bool} (h : sameCanonicalObservation db p = .ok same) :
    (same = true ∧ ∃ row, db.recordRow p.state.spanId.asStr = some row ∧ row.state = p.state) ∨
    (same = false ∧ ∀ row, db.recordRow p.state.spanId.asStr = some row → row.state ≠ p.state) := by
  unfold sameCanonicalObservation at h
  split at h
  · rename_i hn
    cases h
    exact Or.inr ⟨rfl, by simp [hn]⟩
  · rename_i row hrow
    simp only [bind_eq_ok, pure_eq_ok] at h
    obtain ⟨-, -, _, hs, rfl⟩ := h
    obtain ⟨rfl, -⟩ := stateFromJson_ok hs
    by_cases he : row.state = p.state
    · exact Or.inl ⟨by simpa using he, row, hrow, he⟩
    · exact Or.inr ⟨by simpa using he, fun row' h => by rw [hrow] at h; cases h; exact he⟩

/-- Behind the archive an observation is known already, or it is committed. -/
theorem ingestVisible_ok (h : ingestVisible db o p = .ok (status, db')) :
    (Settled db p ∧ status ≠ .committed ∧ Ledger db db') ∨
      (Unsettled db p ∧ status = .committed ∧ ∃ c : Commit db o p, db' = c.result) := by
  have hledger : ∀ {st : IngestStatus}, st ≠ .committed → status = st ∧ Ledger db db' →
      status ≠ .committed ∧ Ledger db db' := fun hne h => ⟨h.1 ▸ hne, h.2⟩
  unfold ingestVisible at h
  rw [bind_eq_ok] at h
  obtain ⟨same, hsame, h⟩ := h
  rcases sameCanonicalObservation_ok hsame with ⟨rfl, row, hrow, hs⟩ | ⟨rfl, hstate⟩
  · exact Or.inl ⟨.sameState row hrow hs, hledger (by decide) (suppressDuplicate_ok h)⟩
  · simp only [Bool.false_eq_true, if_false] at h
    split at h
    · rename_i guard hguard
      split at h
      · split at h
        · rename_i hexp
          exact Or.inl ⟨.expired hexp, hledger (by decide) (suppressExpired_ok h)⟩
        · cases h
      · rename_i hhash
        exact Or.inl ⟨.guarded guard hguard (not_not.mp hhash), hledger (by decide) (suppressDuplicate_ok h)⟩
    · rename_i hguard
      split at h
      · rename_i hexp
        exact Or.inl ⟨.expired hexp, hledger (by decide) (suppressExpired_ok h)⟩
      · rename_i hexp
        split at h
        · rename_i row hevent
          split at h
          · cases h
          · rename_i hhash
            exact Or.inl ⟨.knownEvent row hguard hevent (not_not.mp hhash),
              hledger (by decide) (acceptDuplicateEvent_ok h)⟩
        · rename_i hevent
          obtain ⟨rfl, hc⟩ := commitObservation_ok h
          exact Or.inr ⟨⟨hstate, hguard, hexp, hevent⟩, rfl, hc⟩

/-- How an accepted observation ends. -/
inductive IngestExit (db : Db) (o : SourceObservation) (p : PreparedObservation) : Db → Prop
  /-- Its cursor was replayed. -/
  | replayed : IngestExit db o p db
  /-- The archive holds the state. -/
  | archived {db' : Db} (hf : FreshCursor db o.checkpoint) (hd : ArchivedDuplicate db p.state)
      (hl : Ledger db db') : IngestExit db o p db'
  /-- The hot tables or the guards know it. -/
  | settled {db₁ db' : Db} (hf : FreshCursor db o.checkpoint) (hr : Restored db p.state db₁) (hs : Settled db₁ p)
      (hl : Ledger db₁ db') : IngestExit db o p db'
  /-- It is committed. -/
  | committed {db₁ : Db} (hf : FreshCursor db o.checkpoint) (hr : Restored db p.state db₁)
      (hu : Unsettled db₁ p) (c : Commit db₁ o p) : IngestExit db o p c.result

/-- **An accepted observation ends in one of the four ways.** -/
theorem ingestInTransaction_ok (h : ingestInTransaction db o = .ok (status, db')) :
    ∃ p, prepareObservation o = .ok p ∧ IngestExit db o p db' := by
  unfold ingestInTransaction at h
  rw [bind_eq_ok] at h
  obtain ⟨p, hp, h⟩ := h
  refine ⟨p, hp, ?_⟩
  split at h
  · split at h
    · obtain ⟨-, rfl⟩ := Prod.mk.inj (pure_eq_ok.mp h)
      exact .replayed
    · cases h
  · rename_i hdisposition
    split at h
    · split at h
      · cases h
      · obtain ⟨-, rfl⟩ := Prod.mk.inj (pure_eq_ok.mp h)
        exact .replayed
    · rename_i hinput
      simp only [bind_eq_ok, require_eq_ok, Prod.exists] at h
      obtain ⟨-, hcursor, preparation, db₁, hprep, h⟩ := h
      have hf : FreshCursor db o.checkpoint := ⟨hdisposition, hinput, hcursor⟩
      rcases prepareArchivedTrace_ok hprep with ⟨rfl, hd, rfl⟩ | ⟨hne, hr⟩
      · exact .archived hf hd (suppressDuplicate_ok (by simpa only [if_pos] using h)).2
      · rw [if_neg hne] at h
        rcases ingestVisible_ok h with ⟨hs, -, hl⟩ | ⟨hu, -, hc⟩
        · exact .settled hf hr hs hl
        · obtain ⟨c, rfl⟩ := hc
          exact .committed hf hr hu c

/-! ### Dispositions and batches -/

/-- An accepted disposition changes the ledger only. -/
theorem ingestDispositionInTransaction_ledger {c : SourceCheckpoint} {disposition : AdapterDispositionKind}
    {code : AdapterDispositionCode} {hash : Option String}
    (h : ingestDispositionInTransaction db c disposition code hash = .ok (status, db')) : Ledger db db' := by
  unfold ingestDispositionInTransaction at h
  rw [bind_eq_ok] at h
  obtain ⟨-, -, h⟩ := h
  simp only at h
  split at h
  · split at h
    · cases h
    · obtain ⟨-, rfl⟩ := Prod.mk.inj (pure_eq_ok.mp h)
      exact .refl _
  · simp only [bind_eq_ok, pure_eq_ok, Prod.mk.injEq] at h
    obtain ⟨-, -, -, -, _, hrecord, -, rfl⟩ := h
    exact recordDisposition_ledger hrecord

/-- The condition holds of every item of a batch, in the database in which the item is ingested. -/
def AlongBatch (C : Db → StoreBatchItem → Prop) : Db → List StoreBatchItem → Prop
  | _, [] => True
  | db, item :: items => C db item ∧ ∀ status db', ingestItem db item = .ok (status, db') → AlongBatch C db' items

theorem alongBatch_true {items : List StoreBatchItem} : ∀ {db : Db}, AlongBatch (fun _ _ => True) db items := by
  induction items with
  | nil => exact trivial
  | cons item items ih => exact ⟨trivial, fun _ _ _ => ih⟩

/-- The condition holds of every item that a transaction ingests. -/
def Txn.Ingests (C : Db → StoreBatchItem → Prop) (db : Db) : Txn → Prop
  | .batch items => AlongBatch C db items
  | _ => True

/-- What every accepted item preserves, an accepted batch preserves. -/
theorem ingestOrderedBatch_induction {P : Db → Prop} {C : Db → StoreBatchItem → Prop} {items : List StoreBatchItem}
    (hitem : ∀ db item status db', C db item → ingestItem db item = .ok (status, db') → P db → P db') :
    ∀ {db db' : Db} {statuses : List IngestStatus}, AlongBatch C db items →
      ingestOrderedBatch db items = .ok (statuses, db') → P db → P db' := by
  induction items with
  | nil =>
    intro db db' statuses _ h hP
    cases h
    exact hP
  | cons item items ih =>
    intro db db' statuses hC h hP
    simp only [ingestOrderedBatch, bind_eq_ok, pure_eq_ok, Prod.exists, Prod.mk.injEq] at h
    obtain ⟨status, db₁, hfirst, statuses', db₂, hrest, -, rfl⟩ := h
    exact ih (hC.2 status db₁ hfirst) hrest (hitem db item status db₁ hC.1 hfirst hP)

end AgentObservability.Store
