import AgentObservability.Store.Coherence

/-!
# When an ingest goes through

The converse of the inversions: conditions under which an observation is
prepared, stored or restores its trace, and under which a trace moves or expires,
with what the store then holds. Private identifiers make the preparation plain:
they are digests already and stay as they are.
-/

namespace AgentObservability.Store

open Domain Contracts Foundation

variable [Sha2] {db : Db} {o : SourceObservation} {p : PreparedObservation}

/-! ### Preparation -/

/-- What a projection needs to succeed. -/
structure Projectable (o : SourceObservation) (s : DomainSpanState) : Prop where
  /-- The state is one of the observed span. -/
  identity : o.traceId = s.traceId ∧ o.spanId = s.spanId ∧ o.parentSpanId = s.parentSpanId ∧
    s.kind = kindForEvent o.event
  /-- The start is exact. -/
  start : s.timing.startUnixMs ≤ 2 ^ 53 - 1
  /-- So is the end. -/
  ended : ∀ e ∈ s.timing.endUnixMs, e ≤ 2 ^ 53 - 1
  /-- The state does not end before it starts. -/
  ordered : s.timing.reversed = false
  /-- The metrics are exact. -/
  metrics : metricsFromUsage s.tokenUsage = .ok (metricsOf s.tokenUsage)
  /-- The event names no empty model. -/
  model : (eventProjection o.event).2.2.1 ≠ some ""
  /-- Nor an empty project. -/
  project : (eventProjection o.event).2.2.2 ≠ some ""

omit [Sha2] in
theorem timing_all {t : Timing} (h : t.reversed = false) : t.endUnixMs.all fun e => t.startUnixMs ≤ e := by
  cases he : t.endUnixMs with
  | none => rfl
  | some e => simpa [Timing.reversed, he] using h

omit [Sha2] in
theorem asStr_ne_empty (value : Option Identifier) : value.map (·.asStr) ≠ some "" := by
  cases value with
  | none => simp
  | some i => simpa using i.nonempty

omit [Sha2] in
theorem AgentSource.asStr_ne_empty (source : AgentSource) : source.asStr ≠ "" := by
  cases source <;> decide

omit [Sha2] in
theorem eventName_ne_empty (event : ObservationEvent) : (eventProjection event).2.1 ≠ "" := by
  cases event <;> simp [eventProjection]

/-- **A projectable state has a durable record.** -/
theorem durableRecord_of {s : DomainSpanState} (h : Projectable o s) :
    durableRecord o s = .ok (sanitized (projected o s)) := by
  have hsource := AgentSource.asStr_ne_empty o.source
  have hproject : projectDurableRecord o s = .ok (projected o s) := by
    have hvalid : (projected o s).validate = .ok () :=
      DurableRecordV1.validate_ok_iff.mpr ⟨⟨rfl, rfl⟩, ⟨o.traceId.nonempty, o.spanId.nonempty, eventName_ne_empty _⟩,
        timing_all h.ordered, asStr_ne_empty _, by simpa [projected] using hsource, by simp [projected], h.model,
        h.project, by simp [projected]⟩
    have hend : exactJsonOptional s.timing.endUnixMs = .ok s.timing.endUnixMs :=
      exactJsonOptional_eq_ok.mpr ⟨h.ended, rfl⟩
    have hstart : exactJsonInteger s.timing.startUnixMs = .ok s.timing.startUnixMs :=
      exactJsonInteger_eq_ok.mpr ⟨h.start, rfl⟩
    simp only [projectDurableRecord, require_true h.identity, hstart, hend, h.metrics, ok_bind]
    exact (congrArg (· >>= fun _ => _) hvalid)
  have hsan : (sanitized (projected o s)).validate = .ok () := by
    have htext : ∀ (value : Option String) key, value ≠ some "" → sanitizeOptionalText value key ≠ some "" := by
      intro value key hne
      cases value with
      | none => simp [sanitizeOptionalText]
      | some v =>
        simp only [sanitizeOptionalText, Option.map_some, ne_eq, Option.some.injEq] at hne ⊢
        exact redactSensitiveText_ne_empty hne
    refine DurableRecordV1.validate_ok_iff.mpr ⟨⟨rfl, rfl⟩, ⟨hashOpaqueIdentifier_ne_empty _,
      hashOpaqueIdentifier_ne_empty _, redactSensitiveText_ne_empty (eventName_ne_empty _)⟩, timing_all h.ordered, ?_,
      htext (some o.source.asStr) "agent.name" (by simpa using hsource), htext none "agent.version" (by simp),
      htext _ _ h.model, htext _ _ h.project, htext none "project.repo_path" (by simp)⟩
    simp only [sanitized, sanitizeFields, projected]
    cases o.parentSpanId with
    | none => simp
    | some i => simpa [hashRecordId] using hashOpaqueIdentifier_ne_empty i.asStr
  rw [durableRecord, hproject, ok_bind, sanitizeDurableRecord, hsan, ok_bind]
  rfl

omit [Sha2] in
/-- Every identifier of the observation is a digest. -/
structure AllPrivate (o : SourceObservation) : Prop where
  /-- The trace. -/
  traceId : IsPrivate o.traceId.asStr
  /-- The span. -/
  spanId : IsPrivate o.spanId.asStr
  /-- The parent. -/
  parentSpanId : ∀ i ∈ o.parentSpanId, IsPrivate i.asStr
  /-- The correlation. -/
  correlation : ∀ id ∈ [o.correlation.sessionId, o.correlation.turnId, o.correlation.requestId,
    o.correlation.operationId, o.correlation.permissionId, o.correlation.compactionId], ∀ i ∈ id, IsPrivate i.asStr

theorem privateId_of {value : Identifier} (h : IsPrivate value.asStr) : privateId value = .ok value := by
  simp [privateId, hashOpaqueIdentifier_of_private h]

theorem privateOptionalId_of {value : Option Identifier} (h : ∀ i ∈ value, IsPrivate i.asStr) :
    privateOptionalId value = .ok value := by
  cases value with
  | none => rfl
  | some i => rw [privateOptionalId, privateId_of (h i rfl)]; rfl

/-- The preparation of an observation with private identifiers. -/
def preparedPrivate (o : SourceObservation) : PreparedObservation where
  state := o.rawState
  record := sanitized (projected o o.rawState)
  payloadHash := "sha256:" ++ Sha2.hexDigest (utf8 (sanitized (projected o o.rawState)).json)
  eventId := stableEventId o

/-- **An observation with private identifiers is prepared as it is.** -/
theorem prepareObservation_of (hp : AllPrivate o) (h : Projectable o o.rawState) :
    prepareObservation o = .ok (preparedPrivate o) := by
  have hstate : privateState o.rawState = .ok o.rawState := by
    have hids : ∀ id ∈ [o.correlation.sessionId, o.correlation.turnId, o.correlation.requestId,
        o.correlation.operationId, o.correlation.permissionId, o.correlation.compactionId],
        privateOptionalId id = .ok id := fun id hid => privateOptionalId_of (hp.correlation id hid)
    simp only [List.mem_cons, List.not_mem_nil, or_false, forall_eq_or_imp, forall_eq] at hids
    obtain ⟨h1, h2, h3, h4, h5, h6⟩ := hids
    simp only [privateState, SourceObservation.rawState, privateId_of hp.traceId, privateId_of hp.spanId,
      privateOptionalId_of hp.parentSpanId, h1, h2, h3, h4, h5, h6, ok_bind]
    rfl
  have hhash : canonicalObservationPayloadHash o =
      .ok ("sha256:" ++ Sha2.hexDigest (utf8 (sanitized (projected o o.rawState)).json)) := by
    rw [canonicalObservationPayloadHash, durableRecord_of h, ok_bind]
    rfl
  rw [prepareObservation, durableRecord_of h, hstate, hhash]
  rfl

/-! ### Commits -/

omit [Sha2] in
theorem reduceSpanState_ordered {existing incoming reduced : DomainSpanState}
    (h : reduceSpanState (some existing) incoming = .ok reduced) : existing.timing.reversed = false := by
  by_contra hr
  simp [reduceSpanState, LifecycleReducer.reduce, LifecycleReducer.observe, Bool.eq_true_of_not_eq_false hr, bind,
    Except.bind] at h

omit [Sha2] in
theorem loadState_of {records : Table RecordRow} {spanId : String}
    (h : ∀ row, recordOf records spanId = some row → row.state.timing.reversed = false) :
    loadState records spanId = .ok ((recordOf records spanId).map (·.state)) := by
  unfold loadState
  cases hrow : recordOf records spanId with
  | none => rfl
  | some row =>
    simp only [stateFromJson, require_true (h row hrow), ok_bind]
    rfl

/-- What a commit is made of makes the observation committed. -/
theorem commitObservation_of (c : Commit db o p) : commitObservation db o p = .ok (.committed, c.result) := by
  have hload : loadState db.records p.state.spanId.asStr = .ok ((recordOf db.records p.state.spanId.asStr).map (·.state)) :=
    loadState_of fun row hrow => by
      have := c.reduction.reduce
      rw [Db.recordRow, hrow] at this
      exact reduceSpanState_ordered this
  have hcompatible : ensureCompatibleWithStored db p = .ok () := by
    unfold ensureCompatibleWithStored
    cases hrow : db.recordRow p.state.spanId.asStr with
    | none => rfl
    | some row => exact require_true (c.reduction.compatible row hrow)
  have hreduce : reduceObservation db o p = .ok (c.reduced, c.record) := by
    simp only [reduceObservation, hload, hcompatible, c.reduction.reduce, c.reduction.record, ok_bind,
      mapError_ok]
    rfl
  simp only [commitObservation, hreduce, c.insert_observation, c.insert_input, c.upsert_record, c.upsert_topology,
    c.chain, c.children, c.index, c.insert_outcome, c.cursor, advanceGeneration, require_true c.generation, ofOption,
    ok_bind]
  rfl

omit [Sha2] in
/-- The `rowid` of the next observation is new. -/
theorem rowid_ne_next {row : ObservationRow} (h : row ∈ db.observations) : row.rowid ≠ db.nextObservationRowid := by
  have hle : ∀ (l : List ℕ) (a : ℕ), ∀ x ∈ l, x ≤ l.foldl max a := by
    intro l
    induction l with
    | nil => simp
    | cons y l ih =>
      intro a x hx
      rcases List.mem_cons.mp hx with rfl | hx
      · exact (Nat.le_max_right a x).trans (le_foldl_max l _)
      · exact ih _ x hx
  have := hle (db.observations.rows.map (·.rowid)) 0 row.rowid (List.mem_map_of_mem h)
  unfold Db.nextObservationRowid
  omega

/-- What a span needs to be stored for the first time, with its parent absent and no child present. -/
structure FitsNew (db : Db) (o : SourceObservation) (p : PreparedObservation) : Prop where
  /-- The span is new. -/
  record : db.recordRow p.state.spanId.asStr = none
  /-- No link to it is there. -/
  children : ∀ row ∈ db.topology, row.parentSpanId ≠ some p.state.spanId.asStr
  /-- The parent is another span and absent. -/
  parent : ∀ parent ∈ p.state.parentSpanId, parent ≠ p.state.spanId ∧ db.recordRow parent.asStr = none
  /-- The event is new, and so is the observation id. -/
  observation : ∀ row ∈ db.observations, row.eventId ≠ p.eventId ∧
    ¬ (row.source = o.source ∧ row.generation = privateSourceGeneration o.checkpoint ∧
      row.observationId = hashOpaqueIdentifier o.observationId.asStr)
  /-- No outcome has the event. -/
  outcome : ∀ row ∈ db.deliveryOutcomes, row.eventId ≠ p.eventId
  /-- The cursor is new. -/
  input : existingInput db o.checkpoint = none
  /-- No size of the index is negative. -/
  index : ∀ row ∈ db.hotTraceIndex, 0 ≤ row.estimatedBytes
  /-- There is a next generation. -/
  generation : db.reportGeneration + 1 < 2 ^ 64

omit [Sha2] in
theorem updateHotTraceIndex_of {traceId : String} {observedAt : ℕ} {added bytes : ℕ}
    (hb : db.lifecycleBackfillCursor = .complete) (hc : ∀ row ∈ db.hotTraceIndex, row.indexedComplete = true)
    (hi : ∀ row ∈ db.hotTraceIndex, 0 ≤ row.estimatedBytes) :
    ∃ index, updateHotTraceIndex db traceId observedAt none added bytes = .ok (index, .complete) := by
  have hleft : leftToBackfill db traceId = false := by
    unfold leftToBackfill Db.indexRow
    split
    · rename_i row hrow
      simp [hc row (Table.mem_of_find? hrow).1]
    · simp [hb]
  obtain ⟨index, hindex⟩ : ∃ index, completeIndex db traceId observedAt none (addedBytes added bytes) = some index :=
    Table.exists_upsert fun row _ h => h
  have hpos : 0 < addedBytes added bytes := by
    unfold addedBytes traceEstimatedRowOverhead
    omega
  refine ⟨index, ?_⟩
  simp only [updateHotTraceIndex, hleft, Bool.false_eq_true, if_false, hindex, ofOption, ok_bind, hb]
  rw [require_true ?_]
  · rfl
  · refine ⟨_, (Table.mem_upsert hindex fun a b ha hb => ha.trans hb.symm).mpr (Or.inr rfl), ?_⟩
    unfold Table.upserted
    cases hf : db.hotTraceIndex.find? fun row => row.traceId = traceId with
    | none => exact ⟨rfl, rfl, Nat.one_pos, by simpa using hpos⟩
    | some row =>
      obtain ⟨hmem, hid⟩ := Table.mem_of_find? hf
      have := hi row hmem
      refine ⟨hid, rfl, Nat.succ_pos _, ?_⟩
      simp only [Option.map_some, Option.getD_some, removedBytes]
      omega

omit [Sha2] in
theorem topologyChain_none (records : Table RecordRow) (fuel : ℕ) (seen : List String) :
    topologyChain records fuel seen none = .ok [] := by
  cases fuel <;> rfl

omit [Sha2] in
/-- A span whose parent is absent is a chain of its own. -/
theorem validateTopologyChain_of {records : Table RecordRow} {row : RecordRow} (hm : row ∈ records) (hr : row.Mirrors)
    (hp : ∀ parent ∈ row.state.parentSpanId, parent ≠ row.state.spanId ∧ recordOf records parent.asStr = none) :
    validateTopologyChain records row.spanId = .ok () := by
  have hrow : recordOf records row.spanId = some row := recordOf_eq hm rfl
  have hload : loadState records row.spanId = .ok (some row.state) := by
    rw [loadState_of fun r h => by rw [hrow] at h; cases h; exact hr.ordered, hrow]
    rfl
  have hchain : topologyChain records maxTopologyDepth [] (some row.spanId) = .ok [row.state] := by
    have hrest : topologyChain records (4094 + 1) [row.spanId] (row.state.parentSpanId.map (·.asStr)) = .ok [] := by
      cases hpar : row.state.parentSpanId with
      | none => exact topologyChain_none _ _ _
      | some parent =>
        obtain ⟨hne, hnone⟩ := hp parent hpar
        have hne' : parent.asStr ∉ [row.spanId] := by
          rw [List.mem_singleton, hr.spanId]
          exact fun h => hne (Identifier.ext h)
        rw [Option.map_some, topologyChain, if_neg hne', loadState, hnone]
        rfl
    rw [show maxTopologyDepth = 4094 + 1 + 1 from rfl, topologyChain, if_neg (by simp), hload, ok_bind]
    simp only [hrest, ok_bind]
    rfl
  have hvalid : ∃ v, validateTopology [row.state] = .ok v := by
    refine validateTopology_ok_iff.mpr fun s hs parent hpar => ?_
    obtain rfl := List.mem_singleton.mp hs
    obtain ⟨hne, -⟩ := hp parent hpar
    refine ⟨hne, fun t ht => ?_⟩
    obtain ⟨htm, rfl⟩ := mem_of_byId ht
    obtain rfl := List.mem_singleton.mp htm
    exact absurd rfl hne
  obtain ⟨v, hv⟩ := hvalid
  rw [validateTopologyChain, hchain, ok_bind, hv]
  rfl

omit [Sha2] in
theorem validateDirectChildren_of {records : Table RecordRow} {topology : Table TopologyRow} {spanId : String}
    (h : ∀ row ∈ topology, row.parentSpanId ≠ some spanId) : validateDirectChildren records topology spanId = .ok () := by
  have hnone : topology.select (fun row => row.parentSpanId = some spanId) = [] :=
    List.eq_nil_iff_forall_not_mem.mpr fun row hrow =>
      h row (Table.mem_select.mp hrow).1 (Table.mem_select.mp hrow).2
  rw [validateDirectChildren, childrenOf, hnone]
  rfl

theorem exists_advanceCursor (db : Db) (c : SourceCheckpoint) : ∃ cursors, advanceCursor db c = .ok cursors := by
  simp only [advanceCursor, ofOption_eq_ok]
  exact Table.exists_upsert fun row _ h => Prod.mk.inj h

/-- **A new span that fits can be committed, as it was observed.** -/
theorem FitsNew.exists_commit (hdb : Coherent db) (hp : Prepared o p) (h : FitsNew db o p) {record : DurableRecordV1}
    (hr : durableRecord (projectionObservation o p.state) (projectionState (projectionObservation o p.state) p.state) =
      .ok record) : ∃ c : Commit db o p, c.reduced = p.state ∧ c.record = record := by
  have hm : ∀ row ∈ db.records, row.Mirrors := fun row hrow => hdb.mirrors row (Db.mem_knownRows.mpr (Or.inl hrow))
  have hreduction : Reduction db o p p.state record :=
    ⟨fun row hrow => (by rw [h.record] at hrow; cases hrow), by rw [h.record]; rfl, hr⟩
  obtain ⟨observations, hobservations⟩ := Table.exists_insert (t := db.observations)
    (r := observationRow db o p p.state) (by
      rintro row hrow (hid | he | ht)
      · exact rowid_ne_next hrow hid
      · exact (h.observation row hrow).1 he
      · exact (h.observation row hrow).2 ht)
  obtain ⟨inputs, hinputs⟩ := Table.exists_insert (t := db.sourceInputs) (r := sourceInputRow o p) (by
    rintro row hrow hclash
    obtain ⟨hs, hg, hcur⟩ : row.source = o.source ∧ row.generation = privateSourceGeneration o.checkpoint ∧
        row.cursor = o.sourceCursor.asStr := by simpa [Keyed.Clash, sourceInputRow] using hclash
    exact Table.find?_eq_none.mp h.input row hrow ⟨hs, hg, hcur⟩)
  obtain ⟨records, hrecords⟩ : ∃ records, upsertRecord db p.state record = some records :=
    Table.exists_upsert (by
      rintro row hrow (hs | hs)
      · have := hdb.sequence row (Db.mem_knownRows.mpr (Or.inl hrow))
        have : row.commitSeq = db.recordsSequence + 1 := hs
        omega
      · exact hs)
  obtain ⟨row, hrow⟩ := hreduction.exists_stored hm hp hrecords
  obtain ⟨topology, htopology⟩ : ∃ topology, upsertTopology db p.state
      (p.state.parentSpanId.any fun parent => ¬ TopologyContains db parent.asStr) = some topology :=
    Table.exists_upsert fun row _ hs => hs
  have hnone : ∀ t ∈ topology, t.parentSpanId ≠ some p.state.spanId.asStr := by
    intro t ht
    rcases (Table.mem_upsert htopology fun a b ha hb => ha.trans hb.symm).mp ht with ⟨ht, -⟩ | rfl
    · exact h.children t ht
    · have hnew : db.topology.find? (fun row => row.spanId = p.state.spanId.asStr) = none := by
        refine Table.find?_eq_none.mpr fun t ht hs => ?_
        obtain ⟨r, hr, hl⟩ := (hdb.topology t.link).mp ⟨t, ht, rfl⟩
        exact Table.find?_eq_none.mp h.record r hr ((congrArg Link.spanId hl).trans hs)
      simp only [Table.upserted, hnew, Option.map_none, Option.getD_none, ne_eq, Option.map_eq_some_iff, not_exists,
        not_and]
      exact fun parent hpar he => (h.parent parent hpar).1 (Identifier.ext he)
  have hchain : validateTopologyChain records p.state.spanId.asStr = .ok () := by
    rw [← hrow.spanId]
    refine validateTopologyChain_of (hrow.mem.mpr (Or.inr rfl)) hrow.mirrors fun parent hpar => ?_
    rw [hrow.state] at hpar ⊢
    obtain ⟨hne, hnone⟩ := h.parent parent hpar
    refine ⟨hne, Table.find?_eq_none.mpr fun r hr hs => ?_⟩
    rcases hrow.mem.mp hr with ⟨hr, -⟩ | rfl
    · exact Table.find?_eq_none.mp hnone r hr hs
    · exact hne (Identifier.ext (hs.symm.trans hrow.spanId))
  obtain ⟨index, hindex⟩ : ∃ index, updateHotTraceIndex
      { db with observations := observations, topology := resolveChildren topology p.state.spanId.asStr }
      p.state.traceId.asStr (recordObservedAt p.record) none (recordBytes p.state record)
      (observationBytes p.record p.payloadHash) = .ok (index, .complete) :=
    updateHotTraceIndex_of hdb.backfill hdb.complete h.index
  obtain ⟨outcomes, houtcomes⟩ := Table.exists_insert (t := db.deliveryOutcomes) (r := ⟨p.eventId⟩)
    fun row hrow he => h.outcome row hrow he
  obtain ⟨cursors, hcursors⟩ := exists_advanceCursor db o.checkpoint
  exact ⟨⟨p.state, record, observations, inputs, records, topology, index, .complete, outcomes, cursors, hreduction,
    hobservations, hinputs, hrecords, htopology, hchain, validateDirectChildren_of hnone,
    by rw [h.record]; exact hindex, houtcomes, hcursors, h.generation⟩, rfl, rfl⟩

/-! ### Ingest -/

omit [Sha2] in
theorem sameCanonicalObservation_of (hordered : ∀ row, db.recordRow p.state.spanId.asStr = some row →
      row.state.timing.reversed = false ∧ StaticCompatible row.record p.record ∧ row.state ≠ p.state) :
    sameCanonicalObservation db p = .ok false := by
  unfold sameCanonicalObservation
  cases hrow : db.recordRow p.state.spanId.asStr with
  | none => rfl
  | some row =>
    obtain ⟨ho, hc, hne⟩ := hordered row hrow
    simp only [ensureStaticRecordCompatibility, require_true hc, stateFromJson, require_true ho, ok_bind, pure_bind]
    exact congrArg Except.ok (decide_eq_false hne)

/-- What the guards do not know is committed. -/
theorem ingestVisible_of (hu : Unsettled db p) (c : Commit db o p) :
    ingestVisible db o p = .ok (.committed, c.result) := by
  have hordered : ∀ row, db.recordRow p.state.spanId.asStr = some row → row.state.timing.reversed = false := by
    intro row hrow
    have := c.reduction.reduce
    rw [hrow] at this
    exact reduceSpanState_ordered this
  have hsame : sameCanonicalObservation db p = .ok false := sameCanonicalObservation_of fun row hrow =>
    ⟨hordered row hrow, c.reduction.compatible row hrow, hu.state row hrow⟩
  rw [ingestVisible, hsame]
  simp only [ok_bind, Bool.false_eq_true, if_false, hu.guard, hu.event, if_neg hu.trace]
  exact commitObservation_of c

/-- An observation at a fresh cursor goes to the archive, and behind it. -/
theorem ingestInTransaction_of (hp : prepareObservation o = .ok p) (hf : FreshCursor db o.checkpoint) :
    ingestInTransaction db o = (prepareArchivedTrace db p.state >>= fun r =>
      if r.1 = .duplicate then suppressDuplicate r.2 o else ingestVisible r.2 o p) := by
  rw [ingestInTransaction, hp, ok_bind]
  simp only [hf.disposition, hf.input, require_true hf.extends_, ok_bind]

/-- The ingest of one observation is a transaction. -/
theorem step_ingest_of {status : IngestStatus} {db' : Db} (h : ingestInTransaction db o = .ok (status, db')) :
    (Txn.ingest o).step db = db' :=
  Txn.step_of_commit (by simp [Txn.commit, ingestOrderedBatch, ingestItem, h, Except.map])

/-- **What neither the archive nor the guards know is committed.** -/
theorem ingest_committed (hp : prepareObservation o = .ok p) (hf : FreshCursor db o.checkpoint)
    (ha : db.archived p.state = none) (hu : Unsettled db p) (c : Commit db o p) :
    ingestInTransaction db o = .ok (.committed, c.result) := by
  have hprep : prepareArchivedTrace db p.state = .ok (.notArchived, db) := by
    rw [prepareArchivedTrace]
    simp only [Db.archived] at ha
    simp only [ha]
    rfl
  rw [ingestInTransaction_of hp hf, hprep, ok_bind, if_neg (by simp)]
  exact ingestVisible_of hu c

/-- An archived trace without the observed span is restored. -/
theorem prepareArchivedTrace_of {control : TraceControlRow} {db₁ : Db} (ha : db.archived p.state = some control)
    (hs : ∀ row ∈ db.spanControl, row.spanId ≠ p.state.spanId.asStr) (hr : rehydrate db control p.state = .ok db₁) :
    prepareArchivedTrace db p.state = .ok (.rehydrated, db₁) := by
  have hnone : db.spanControl.find? (fun row => row.traceKey = hashOpaqueIdentifier p.state.traceId.asStr ∧
      row.spanId = p.state.spanId.asStr) = none := Table.find?_eq_none.mpr fun row hrow h => hs row hrow h.2
  rw [prepareArchivedTrace]
  simp only [Db.archived] at ha
  simp only [ha, hnone, hr]
  rfl

/-- **What was archived is restored before an observation of a new span is committed.** -/
theorem ingest_restored {control : TraceControlRow} {db₁ : Db} (hp : prepareObservation o = .ok p)
    (hf : FreshCursor db o.checkpoint) (ha : db.archived p.state = some control)
    (hs : ∀ row ∈ db.spanControl, row.spanId ≠ p.state.spanId.asStr) (hr : rehydrate db control p.state = .ok db₁)
    (hu : Unsettled db₁ p) (c : Commit db₁ o p) : ingestInTransaction db o = .ok (.committed, c.result) := by
  rw [ingestInTransaction_of hp hf, prepareArchivedTrace_of ha hs hr, ok_bind, if_neg (by simp)]
  exact ingestVisible_of hu c

/-- A trace whose spans are not known otherwise can be restored. -/
theorem exists_rehydration (hdb : Coherent db) {s : DomainSpanState} {control : TraceControlRow}
    (hprivate : IsPrivate s.traceId.asStr) (ha : db.archived s = some control)
    (hne : db.copiesOf s.traceId.asStr ≠ [])
    (hs : ∀ row ∈ db.records, ∀ copy ∈ db.spanControl, row.spanId ≠ copy.spanId) :
    ∃ db₁, rehydrate db control s = .ok db₁ ∧ Nonempty (Rehydration db control s.traceId.asStr db₁) := by
  obtain ⟨hmem, hkey⟩ := Table.mem_of_find? ha
  rw [hashOpaqueIdentifier_of_private hprivate] at hkey
  set T := s.traceId.asStr with hT
  have hperm : (db.spansOf T).Perm (db.copiesOf T) := sortByKey_perm
  have hspans : db.spansOf T ≠ [] := fun h => hne (List.perm_nil.mp (h ▸ hperm.symm))
  have htrace : ∀ copy ∈ db.spansOf T, copy.traceId = T := fun copy hcopy => by
    obtain ⟨hcopy, hk⟩ := mem_spansOf.mp hcopy
    exact (hdb.copies copy hcopy).1.symm.trans hk
  have hcount : (db.spansOf T).length = control.recordCount := by
    rw [hperm.length_eq, ← hkey]
    exact hdb.counts control hmem
  have hdistinct : (db.spansOf T).Pairwise fun a b => ¬ Keyed.Clash a b := by
    have hsub : (db.copiesOf T).Pairwise fun a b => ¬ Keyed.Clash a b :=
      db.spanControl.distinct.sublist List.filter_sublist
    exact hperm.symm.pairwise hsub fun {a b} h h' => h (Keyed.symm _ _ h')
  obtain ⟨records, hrecords⟩ : ∃ records, db.records.insertAll ((db.spansOf T).map (·.toRecord)) = some records := by
    refine Table.insertAll_isSome ?_ (List.pairwise_map.mpr (hdistinct.imp fun h h' => h (h'.symm)))
    intro row hrow r hr hclash
    obtain ⟨copy, hcopy, rfl⟩ := List.mem_map.mp hr
    obtain ⟨hcopy, -⟩ := mem_spansOf.mp hcopy
    rcases hclash with hseq | hspan
    · have hd := hdb.distinct
      rw [Db.knownRows, List.map_append, List.nodup_append] at hd
      exact hd.2.2 _ (List.mem_map_of_mem (Table.mem_iff.mp hrow)) _
        (List.mem_map_of_mem (List.mem_map_of_mem (Table.mem_iff.mp hcopy))) hseq
    · exact hs row hrow copy hcopy hspan
  obtain ⟨topology, htopology⟩ : ∃ topology,
      db.topology.insertAll ((db.spansOf T).map (·.toTopology (db.spansOf T))) = some topology := by
    refine Table.insertAll_isSome ?_ (List.pairwise_map.mpr (hdistinct.imp fun h h' => h (Or.inl h')))
    intro t ht r hr hclash
    obtain ⟨copy, hcopy, rfl⟩ := List.mem_map.mp hr
    obtain ⟨row, hrow, hl⟩ := (hdb.topology t.link).mp ⟨t, ht, rfl⟩
    exact hs row hrow copy (mem_spansOf.mp hcopy).1 ((congrArg Link.spanId hl).trans hclash)
  obtain ⟨index, hindex⟩ := Table.exists_insert (t := db.hotTraceIndex)
    (r := { traceId := T, latestObservedAt := control.latestObservedAt, unresolved := HasUnresolved topology T
            recordCount := control.recordCount, estimatedBytes := control.estimatedBytes, indexedComplete := true }) (by
      intro row hrow hclash
      exact hdb.hot_archived T ((hdb.index T).mp ⟨row, hrow, hclash⟩) ⟨control, hmem, hkey⟩)
  obtain ⟨first, rest, hfirst⟩ := List.exists_cons_of_ne_nil hspans
  have hid : first.traceId = T := htrace first (hfirst ▸ List.mem_cons_self)
  refine ⟨_, ?_, ⟨⟨records, topology, index, hmem, hkey, hspans, hcount, hrecords, htopology, hindex, rfl⟩⟩⟩
  rw [rehydrate]
  simp only [hkey]
  rw [show (db.spansOf T).head? = some first by rw [hfirst]; rfl]
  simp only [ofOption, ok_bind, hid, require_true hT, require_true, hrecords, hcount, htopology, hindex]
  rfl

/-- Where the cursor is free, an observation that says nothing new is recorded in the ledger. -/
theorem exists_suppressDuplicate (hp : prepareObservation o = .ok p) (hf : existingDisposition db o.checkpoint = none) :
    ∃ db', suppressDuplicate db o = .ok (.suppressed, db') ∧ Ledger db db' := by
  have hhash : ∃ hash, canonicalObservationPayloadHash o = .ok hash := by
    simp only [prepareObservation, bind_eq_ok, mapError_ok_iff] at hp
    obtain ⟨_, -, _, -, hash, hhash, -⟩ := hp
    exact ⟨hash, hhash⟩
  obtain ⟨hash, hhash⟩ := hhash
  obtain ⟨dispositions, hd⟩ := Table.exists_insert (t := db.adapterDispositions)
    (r := { source := o.checkpoint.source, generation := privateSourceGeneration o.checkpoint
            cursor := o.checkpoint.sourceCursor.asStr, disposition := .suppressed, code := .duplicateObservation
            payloadHash := hash }) (by
      intro row hrow hc
      obtain ⟨hs, hg, hcur⟩ : row.source = o.checkpoint.source ∧
          row.generation = privateSourceGeneration o.checkpoint ∧ row.cursor = o.checkpoint.sourceCursor.asStr := by
        simpa [Keyed.Clash] using hc
      exact Table.find?_eq_none.mp hf row hrow ⟨hs, hg, hcur⟩)
  obtain ⟨cursors, hc⟩ := exists_advanceCursor db o.checkpoint
  have hok : suppressDuplicate db o = .ok (.suppressed, { db with
      adapterDispositions := dispositions.keepNewest maxAdapterDispositions, sourceCursors := cursors
      projectionDirty := true }) := by
    simp only [suppressDuplicate, insertSuppressedObservation, hhash, recordDisposition, hd, hc, mapError_ok,
      ofOption, ok_bind]
    rfl
  exact ⟨_, hok, (suppressDuplicate_ok hok).2⟩

/-- **A replay that only a guard knows restores its trace and is suppressed.** -/
theorem step_ingest_guarded {control : TraceControlRow} {db₁ : Db} {guard : SpanGuardRow}
    (hp : prepareObservation o = .ok p) (hf : FreshCursor db o.checkpoint) (ha : db.archived p.state = some control)
    (hs : ∀ row ∈ db.spanControl, row.spanId ≠ p.state.spanId.asStr) (hr : rehydrate db control p.state = .ok db₁)
    (hrow : db₁.recordRow p.state.spanId.asStr = none) (hguard : db₁.guardRow p.state.spanId.asStr = some guard)
    (hhash : guard.canonicalStateHash = canonicalStateHash p.state) : Ledger db₁ ((Txn.ingest o).step db) := by
  have hdisposition : existingDisposition db₁ o.checkpoint = none := by
    obtain ⟨_, _, _, _, -, -, -, -, -, -, rfl⟩ := rehydrate_ok hr
    exact hf.disposition
  obtain ⟨db', hsuppress, hl⟩ := exists_suppressDuplicate hp hdisposition
  have hvisible : ingestVisible db₁ o p = suppressDuplicate db₁ o := by
    have hsame : sameCanonicalObservation db₁ p = .ok false :=
      sameCanonicalObservation_of fun row h => by rw [hrow] at h; cases h
    rw [ingestVisible, hsame]
    simp only [ok_bind, Bool.false_eq_true, if_false, hguard, hhash, ne_eq, not_true_eq_false]
  have hingest : ingestInTransaction db o = .ok (.suppressed, db') := by
    rw [ingestInTransaction_of hp hf, prepareArchivedTrace_of ha hs hr, ok_bind, if_neg (by simp), hvisible, hsuppress]
  rw [step_ingest_of hingest]
  exact hl

/-! ### Moves -/

/-- A hot trace that a lifecycle pass may move: its index row is complete, resolved and within the bounds. -/
structure Movable (db : Db) (request : LifecycleRequest) (row : HotTraceRow) : Prop where
  /-- The row is in the index. -/
  mem : row ∈ db.hotTraceIndex
  /-- It counts the records. -/
  count : row.recordCount = (db.recordsOf row.traceId).length
  /-- Every link is resolved. -/
  resolved : row.unresolved = false
  /-- The size is not negative. -/
  bytes : 0 ≤ row.estimatedBytes
  /-- The records fit. -/
  records_le : row.recordCount ≤ request.maxArchiveRecords
  /-- The bytes fit. -/
  bytes_le : row.estimatedBytes ≤ request.maxArchiveBytes
  /-- No span is archived under another trace. -/
  spans : ∀ r ∈ db.records, r.traceId = row.traceId → ∀ copy ∈ db.spanControl, r.spanId ≠ copy.spanId
  /-- The records are valid. -/
  valid : ∀ r ∈ db.records, r.traceId = row.traceId → r.record.validate = .ok ()
  /-- There is a next generation. -/
  generation : db.reportGeneration + 1 < 2 ^ 64
  /-- There is a next epoch. -/
  epoch : db.reportVisibilityEpoch + 1 < 2 ^ 64

section Moves

variable {request : LifecycleRequest} {row : HotTraceRow} {candidate : Candidate} {now : ℕ}

omit [Sha2] in
theorem Movable.indexed (hdb : Coherent db) (h : Movable db request row) :
    db.hotTraceIndex.find? (fun r => r.traceId = row.traceId ∧ r.indexedComplete = true) = some row :=
  Table.find?_eq_some_of_mem (fun _ _ ha hb => ha.1.trans hb.1.symm) h.mem ⟨rfl, hdb.complete row h.mem⟩

omit [Sha2] in
theorem Movable.isHot (hdb : Coherent db) (h : Movable db request row) : db.IsHot row.traceId :=
  (hdb.index _).mp ⟨row, h.mem, rfl⟩

omit [Sha2] in
theorem Movable.records_ne_nil (hdb : Coherent db) (h : Movable db request row) : db.recordsOf row.traceId ≠ [] := by
  obtain ⟨r, hr, ht⟩ := h.isHot hdb
  exact List.ne_nil_of_mem (mem_recordsOf.mpr ⟨hr, ht⟩)

omit [Sha2] in
theorem Movable.footprint (hdb : Coherent db) (h : Movable db request row) (hid : candidate.identity = row.traceId)
    (ht : candidate.tier = .hot) :
    traceFootprint db candidate = .ok ⟨row.recordCount, row.estimatedBytes.toNat⟩ := by
  have hne : row.recordCount ≠ 0 := by
    rw [h.count]
    exact fun h0 => h.records_ne_nil hdb (List.length_eq_zero_iff.mp h0)
  simp only [traceFootprint, ht, hid, h.indexed hdb, HotTraceRow.footprint, require_true h.bytes, ofOption, ok_bind,
    pure_bind, require_true hne]
  rfl

omit [Sha2] in
/-- The control tables can take a movable trace over. -/
theorem Movable.exists_takenOver (hdb : Coherent db) (h : Movable db request row)
    (hid : candidate.identity = row.traceId) (ht : candidate.tier = .hot) (tier : ArchiveTier) :
    ∃ traceControl spanControl,
      archiveHotControl db candidate row.traceId tier = .ok (traceControl, spanControl) := by
  obtain ⟨traceControl, hcontrol⟩ := Table.exists_insert (t := db.traceControl)
    (r := { traceKey := row.traceId, tier, latestObservedAt := candidate.latestObservedAt
            recordCount := row.recordCount, estimatedBytes := row.estimatedBytes.toNat })
    fun x hx hk => hdb.hot_archived _ (h.isHot hdb) ⟨x, hx, hk⟩
  have hdistinct : (db.recordsOf row.traceId).Pairwise fun a b => ¬ Keyed.Clash a b := by
    have hperm : (db.recordsOf row.traceId).Perm (db.records.select fun r => r.traceId = row.traceId) := sortByKey_perm
    refine hperm.symm.pairwise (db.records.distinct.sublist List.filter_sublist) ?_
    exact fun {a b} hab hba => hab (Keyed.symm _ _ hba)
  obtain ⟨spanControl, hspans⟩ := Table.insertAll_isSome (t := db.spanControl)
    (l := (db.recordsOf row.traceId).map (·.toControl row.traceId)) (by
      intro copy hcopy r hr hclash
      obtain ⟨x, hx, rfl⟩ := List.mem_map.mp hr
      obtain ⟨hx, hxt⟩ := mem_recordsOf.mp hx
      rcases hclash with hs | hs
      · exact h.spans x hx hxt copy hcopy hs.symm
      · have hd := hdb.distinct
        rw [Db.knownRows, List.map_append, List.nodup_append] at hd
        exact hd.2.2 _ (List.mem_map_of_mem (Table.mem_iff.mp hx)) _
          (List.mem_map_of_mem (List.mem_map_of_mem (Table.mem_iff.mp hcopy))) hs.symm)
    (List.pairwise_map.mpr (hdistinct.imp fun hab hc => hab hc.symm))
  refine ⟨traceControl, spanControl, ?_⟩
  simp only [archiveHotControl, h.footprint hdb hid ht, ok_bind, hid, hcontrol, hspans, ofOption,
    require_true h.count.symm]
  rfl

omit [Sha2] in
theorem loadHotRecords_of {traceId : String} (h : db.recordsOf traceId ≠ []) :
    loadHotRecords db traceId = .ok (db.recordsOf traceId) := by
  rw [loadHotRecords, require_true h]
  rfl

theorem insertSpanGuards_of {states : List DomainSpanState} (h : ∀ s ∈ states, s.timing.reversed = false) :
    insertSpanGuards db states = .ok (replaceSpanGuards db.expiredSpanStates (states.map spanGuard)) := by
  have hall : (states.forM fun s => (stateFromJson s).map fun _ => ()) = .ok () := forM_ok_iff.mpr fun s hs => by
    rw [stateFromJson, require_true (h s hs)]
    rfl
  rw [insertSpanGuards, hall]
  rfl

omit [Sha2] in
theorem validateStored_of {record : DurableRecordV1} (h : record.validate = .ok ()) :
    validateStored record = .ok () := by
  rw [validateStored, h]
  rfl

omit [Sha2] in
/-- The warm copies go in where they clash with none. -/
theorem insertWarmRecords_of {traceKey : String} {rows : List RecordRow} :
    ∀ {warmRecords warmRecords' : Table WarmRecordRow}, (∀ row ∈ rows, row.record.validate = .ok ()) →
      warmRecords.insertAll (rows.map (·.toWarm traceKey)) = some warmRecords' →
      rows.foldlM (insertWarmRecord traceKey) warmRecords = .ok warmRecords' := by
  induction rows with
  | nil => intro t t' _ h; cases h; rfl
  | cons row rows ih =>
    intro t t' hv h
    obtain ⟨u, hu, h⟩ := Option.bind_eq_some_iff.mp h
    obtain ⟨hrow, hrows⟩ := List.forall_mem_cons.mp hv
    rw [List.foldlM_cons, insertWarmRecord, validateStored_of hrow, ok_bind, hu]
    exact ih hrows h

/-- **A movable trace moves.** -/
theorem Movable.exists_moved (hdb : Coherent db) (h : Movable db request row) (hid : candidate.identity = row.traceId)
    (ht : candidate.tier = .hot) (transition : Transition) :
    ∃ moved, moveTrace db candidate now transition = .ok moved := by
  have hhash := hdb.hash_of_isHot (h.isHot hdb)
  have hnot := hdb.hot_archived _ (h.isHot hdb)
  have hload : loadHotRecords db row.traceId = .ok (db.recordsOf row.traceId) :=
    loadHotRecords_of (h.records_ne_nil hdb)
  have hguards : insertSpanGuards db ((db.recordsOf row.traceId).map (·.state)) = .ok (replaceSpanGuards
      db.expiredSpanStates (((db.recordsOf row.traceId).map (·.state)).map spanGuard)) := insertSpanGuards_of (by
    intro s hs
    obtain ⟨r, hr, rfl⟩ := List.mem_map.mp hs
    exact (hdb.mirrors r (Db.mem_knownRows.mpr (Or.inl (mem_recordsOf.mp hr).1))).ordered)
  have hvalid : ∀ r ∈ db.recordsOf row.traceId, r.record.validate = .ok () := fun r hr =>
    h.valid r (mem_recordsOf.mp hr).1 (mem_recordsOf.mp hr).2
  cases transition with
  | warm =>
    obtain ⟨traceControl, spanControl, ha⟩ := h.exists_takenOver hdb hid ht .warm
    obtain ⟨warmTraces, hw⟩ := Table.exists_insert (t := db.warmTraces)
      (r := { traceKey := row.traceId, latestObservedAt := candidate.latestObservedAt, movedAt := now })
      fun x hx hk => hnot (by
        obtain ⟨c, hc, hck, -⟩ := (hdb.warmTraces _).mp ⟨x, hx, hk⟩
        exact ⟨c, hc, hck⟩)
    obtain ⟨-, hspans⟩ := archiveHotControl_ok ha
    have hperm : (db.recordsOf row.traceId).Perm (db.records.select fun r => r.traceId = row.traceId) := sortByKey_perm
    obtain ⟨warmRecords, hr⟩ := Table.insertAll_isSome (t := db.warmRecords)
      (l := (db.recordsOf row.traceId).map (·.toWarm row.traceId)) (by
        -- A warm record that clashes would be one of a control copy that clashes.
        intro x hx r hr hclash
        obtain ⟨y, hy, rfl⟩ := List.mem_map.mp hr
        obtain ⟨copy, hcopy, rfl, -⟩ := (hdb.warmRecords x).mp hx
        have hm := hdb.mirrors y (Db.mem_knownRows.mpr (Or.inl (mem_recordsOf.mp hy).1))
        refine Table.not_clash_of_insertAll hspans hcopy (List.mem_map_of_mem (hid ▸ hy)) ?_
        exact hclash.imp (fun hs => Eq.trans hs hm.record_spanId) id)
      (List.pairwise_map.mpr (List.Pairwise.imp_of_mem (R := fun a b => ¬ Keyed.Clash a b) (by
        intro a b ha hb hab hc
        have hma := hdb.mirrors a (Db.mem_knownRows.mpr (Or.inl (mem_recordsOf.mp ha).1))
        have hmb := hdb.mirrors b (Db.mem_knownRows.mpr (Or.inl (mem_recordsOf.mp hb).1))
        exact hab (hc.symm.imp id fun hs => hma.record_spanId.symm.trans (Eq.trans hs hmb.record_spanId)))
        (hperm.symm.pairwise (db.records.distinct.sublist List.filter_sublist) fun {a b} hab hba =>
          hab (Keyed.symm _ _ hba))))
    simp only [moveTrace, moveHotToWarm, hid, hhash, ha, ok_bind, hw, ofOption, hload, hguards,
      insertWarmRecords_of hvalid hr]
    exact ⟨_, rfl⟩
  | cold =>
    obtain ⟨traceControl, spanControl, ha⟩ := h.exists_takenOver hdb hid ht .cold
    have hdecode : decodeRecords ((db.recordsOf row.traceId).map (·.record)) =
        .ok ((db.recordsOf row.traceId).map (·.record)) := by
      have hall : ((db.recordsOf row.traceId).map (·.record)).forM validateStored = .ok () :=
        forM_ok_iff.mpr fun r hr => by
          obtain ⟨x, hx, rfl⟩ := List.mem_map.mp hr
          exact validateStored_of (hvalid x hx)
      rw [decodeRecords, hall, ok_bind, require_true (by simpa using h.records_ne_nil hdb)]
      rfl
    obtain ⟨coldTraces, hc⟩ : ∃ coldTraces, insertColdTrace db candidate row.traceId now
        ((db.recordsOf row.traceId).map (·.record)) = .ok coldTraces := by
      simp only [insertColdTrace, ofOption_eq_ok]
      refine Table.exists_insert fun x hx hk => hnot ?_
      obtain ⟨c, hc, hck, -⟩ := (hdb.coldTraces _).mp ⟨x, hx, hk⟩
      exact ⟨c, hc, hck⟩
    simp only [moveTrace, moveToCold, ht, hid, hhash, ha, ok_bind, hload, hguards, hdecode, hc]
    exact ⟨_, rfl⟩
  | delete =>
    simp only [moveTrace, purgeTrace, ht, hid, hload, hguards, ok_bind]
    exact ⟨_, rfl⟩

/-- **A lifecycle pass carries a movable trace out of the hot tables.** -/
theorem Movable.step_maintain (hdb : Coherent db) (h : Movable db request row) {transition : Transition} {latest : ℕ}
    (hid : candidate.identity = row.traceId) (ht : candidate.tier = .hot)
    (hlatest : row.latestObservedAt = latest)
    (hdue : transitionFor { candidate with latestObservedAt := latest, unresolved := false } request.cutoffs =
      some transition) :
    ∃ moved epoch, Moved db { candidate with latestObservedAt := latest, unresolved := false } request.nowUnixMs
        transition moved ∧ epoch ≤ db.reportVisibilityEpoch + 1 ∧
      (Txn.maintain request {} candidate (.ok ())).step db = { moved with
        projectionDirty := true, reportGeneration := db.reportGeneration + 1, reportVisibilityEpoch := epoch
        lifecycleScanCursor := candidate.cursorAfter } := by
  set current : Candidate := { candidate with latestObservedAt := latest, unresolved := false }
  obtain ⟨moved, hmoved⟩ : ∃ moved, moveTrace db current request.nowUnixMs transition = .ok moved :=
    h.exists_moved hdb (show current.identity = row.traceId from hid) (show current.tier = .hot from ht) transition
  have hmv := moveTrace_ok hdue hmoved
  have hgeneration := hmv.report.1
  have hepoch : moved.reportVisibilityEpoch = db.reportVisibilityEpoch := by cases hmv <;> rfl
  obtain ⟨epoch, he, hle⟩ : ∃ epoch, advanceEpoch moved.reportVisibilityEpoch transition = .ok epoch ∧
      epoch ≤ db.reportVisibilityEpoch + 1 := by
    cases transition with
    | warm => exact ⟨_, rfl, hepoch ▸ Nat.le_succ _⟩
    | cold => exact ⟨_, by rw [advanceEpoch, advanceGeneration, hepoch, require_true h.epoch]; rfl, Nat.le_refl _⟩
    | delete => exact ⟨_, by rw [advanceEpoch, advanceGeneration, hepoch, require_true h.epoch]; rfl, Nat.le_refl _⟩
  have hreload : reloadCandidate db candidate = .ok (some current) := by
    have hrow : currentRow db candidate = some ((latest : WithBot ℕ), false) := by
      simp only [currentRow, ht, hid, h.indexed hdb, Option.map_some, hlatest, h.resolved]
    simp only [reloadCandidate, hrow, parseMillis, ok_bind]
    rfl
  have hadmit : admitCapacity { scannedTraces := 1 } ⟨row.recordCount, row.estimatedBytes.toNat⟩ request =
      .admitted ⟨row.recordCount, row.estimatedBytes.toNat⟩ := by
    have hrecords := h.records_le
    have hbytes := h.bytes_le
    have : ¬ (request.maxArchiveRecords < row.recordCount ∨ request.maxArchiveBytes < row.estimatedBytes.toNat) := by
      omega
    simp only [admitCapacity, if_neg this, Nat.zero_add]
  refine ⟨moved, epoch, hmv, hle, Txn.step_of_commit ?_⟩
  have htransition : transitionTrace db request current transition (.ok ()) = .ok { moved with
      projectionDirty := true, reportGeneration := db.reportGeneration + 1, reportVisibilityEpoch := epoch
      lifecycleScanCursor := candidate.cursorAfter } := by
    have hbefore : beforeRemoval (.ok ()) transition = .ok () := by cases transition <;> rfl
    simp only [transitionTrace, hbefore, hmoved, ok_bind, advanceGeneration, hgeneration, require_true h.generation,
      he]
    rfl
  have hresolved : current.unresolved = false := rfl
  have hfootprint : traceFootprint db current = .ok ⟨row.recordCount, row.estimatedBytes.toNat⟩ :=
    h.footprint hdb (show current.identity = row.traceId from hid) (show current.tier = .hot from ht)
  simp only [Txn.commit, maintainCandidate, hreload, ok_bind, hdue, hresolved, Bool.false_eq_true, if_false,
    hfootprint, Nat.zero_add, hadmit, htransition]
  rfl

end Moves

end AgentObservability.Store
