import AgentObservability.Store.IngestSpec

/-!
# What a commit leaves

A commit reduces an observation with the row of its span and writes the result
back. Here is what it leaves in `records`, `topology` and `hot_trace_index`, in a
store whose rows say what their states say (`RecordRow.Mirrors`): the rows of
other keys, and one row of its own.
-/

namespace AgentObservability.Store

open Domain Contracts Foundation

variable [Sha2] {db : Db} {o : SourceObservation} {p : PreparedObservation}

/-! ### Rows -/

/-- A row says of its span what its state says. -/
structure RecordRow.Mirrors (row : RecordRow) : Prop where
  /-- The span. -/
  spanId : row.spanId = row.state.spanId.asStr
  /-- The trace. -/
  traceId : row.traceId = row.state.traceId.asStr
  /-- The parent. -/
  parentSpanId : row.parentSpanId = row.state.parentSpanId.map (·.asStr)
  /-- The kind. -/
  kind : row.kind = row.state.kind
  /-- The state does not end before it starts. -/
  ordered : row.state.timing.reversed = false
  /-- The trace is a digest. -/
  isPrivate : IsPrivate row.traceId
  /-- The record names the span. -/
  record_spanId : row.record.spanId = row.spanId
  /-- The record is observed when the state is. -/
  observedAt : recordObservedAt row.record = row.state.timing.endUnixMs.getD row.state.timing.startUnixMs

/-- A span and where it hangs. -/
structure Link where
  /-- The span. -/
  spanId : String
  /-- Its trace. -/
  traceId : String
  /-- Its parent. -/
  parentSpanId : Option String
  /-- Its kind. -/
  kind : SpanKind
  deriving DecidableEq

/-- The link of a record. -/
def RecordRow.link (row : RecordRow) : Link := ⟨row.spanId, row.traceId, row.parentSpanId, row.kind⟩

/-- The link of a topology row. -/
def TopologyRow.link (row : TopologyRow) : Link := ⟨row.spanId, row.traceId, row.parentSpanId, row.kind⟩

/-! ### The row of the span -/

omit [Sha2] in
theorem recordOf_mem {records : Table RecordRow} {spanId : String} {row : RecordRow}
    (h : recordOf records spanId = some row) : row ∈ records ∧ row.spanId = spanId :=
  Table.mem_of_find? h

omit [Sha2] in
/-- A row is found under its span. -/
theorem recordOf_eq {records : Table RecordRow} {row : RecordRow} {spanId : String} (h : row ∈ records)
    (hs : row.spanId = spanId) : recordOf records spanId = some row :=
  Table.find?_eq_some_of_mem (fun _ _ ha hb => Or.inr (ha.trans hb.symm)) h hs

/-- How a reduced state relates to the observed one and to the stored one. -/
structure Reduction.Identity (db : Db) (p : PreparedObservation) (reduced : DomainSpanState) : Prop where
  /-- The span is the observed one. -/
  spanId : reduced.spanId = p.state.spanId
  /-- So is its trace. -/
  traceId : reduced.traceId = p.state.traceId
  /-- So is its parent. -/
  parentSpanId : reduced.parentSpanId = p.state.parentSpanId
  /-- So is its kind. -/
  kind : reduced.kind = p.state.kind
  /-- A first observation is stored as it is. -/
  first : db.recordRow p.state.spanId.asStr = none → reduced = p.state
  /-- A further one is merged. -/
  merged : ∀ row, db.recordRow p.state.spanId.asStr = some row → Merged row.state p.state reduced

theorem Reduction.identity {reduced : DomainSpanState} {record : DurableRecordV1}
    (hm : ∀ row ∈ db.records, row.Mirrors) (r : Reduction db o p reduced record) :
    Reduction.Identity db p reduced := by
  have hreduce := r.reduce
  cases hrow : db.recordRow p.state.spanId.asStr with
  | none =>
    rw [hrow] at hreduce
    cases hreduce
    exact ⟨rfl, rfl, rfl, rfl, fun _ => rfl, fun row h => by rw [hrow] at h; cases h⟩
  | some row =>
    obtain ⟨hmem, hspan⟩ := recordOf_mem hrow
    have hid : row.state.spanId = p.state.spanId := Identifier.ext ((hm row hmem).spanId.symm.trans hspan)
    rw [hrow, Option.map_some] at hreduce
    have hmerge := mergeState_ok (reduceSpanState_some hid hreduce)
    have heq := hmerge.eq
    refine ⟨?_, ?_, ?_, ?_, fun h => absurd (hrow.symm.trans h) (by simp), fun row' h => ?_⟩
    · rw [heq]; exact hid
    · rw [heq]; exact hmerge.traceId
    · rw [heq]; exact hmerge.parentSpanId
    · rw [heq]; exact hmerge.kind
    · rw [hrow] at h
      cases h
      exact hmerge

theorem Reduction.ordered {reduced : DomainSpanState} {record : DurableRecordV1} (r : Reduction db o p reduced record) :
    reduced.timing.reversed = false := by
  obtain ⟨rfl, hv⟩ := r.record_eq
  have h := DurableRecordV1.start_le_end hv
  simp only [sanitized, sanitizeFields, projected, projectionState] at h
  cases he : reduced.timing.endUnixMs with
  | none => simp [Timing.reversed, he]
  | some e =>
    rw [he] at h
    simpa [Timing.reversed, he] using of_decide_eq_true h

theorem Reduction.recordObservedAt {reduced : DomainSpanState} {record : DurableRecordV1}
    (r : Reduction db o p reduced record) :
    recordObservedAt record = reduced.timing.endUnixMs.getD reduced.timing.startUnixMs := by
  rw [r.record_eq.1]
  rfl

/-- The row that a commit leaves of its span in `records`. -/
structure StoredRow (db : Db) (p : PreparedObservation) (reduced : DomainSpanState) (stored : DurableRecordV1)
    (records : Table RecordRow) (row : RecordRow) : Prop where
  /-- It says what its state says. -/
  mirrors : row.Mirrors
  /-- Its link is the observed one. -/
  link : row.link =
    ⟨p.state.spanId.asStr, p.state.traceId.asStr, p.state.parentSpanId.map (·.asStr), p.state.kind⟩
  /-- Its state is the reduced one. -/
  state : row.state = reduced
  /-- Its record is the one of the reduction. -/
  record : row.record = stored
  /-- It is the last one, or in the place of the one that was there. -/
  rows : (db.recordRow p.state.spanId.asStr = none ∧ row.commitSeq = db.nextCommitSeq ∧
      records.rows = db.records.rows ++ [row]) ∨
    ∃ old, db.recordRow p.state.spanId.asStr = some old ∧ row = { old with state := reduced, record := stored } ∧
      records.rows = db.records.rows.map fun r => if r.spanId = p.state.spanId.asStr then row else r

theorem Reduction.exists_stored {reduced : DomainSpanState} {record : DurableRecordV1} {records : Table RecordRow}
    (hm : ∀ row ∈ db.records, row.Mirrors) (hp : Prepared o p) (r : Reduction db o p reduced record)
    (hu : upsertRecord db reduced record = some records) : ∃ row, StoredRow db p reduced record records row := by
  obtain ⟨hspan, htrace, hparent, hkind, -, -⟩ := r.identity hm
  have hrecord : record.spanId = p.state.spanId.asStr := by
    rw [r.record_eq.1, hp.spanId]
    exact congrArg (fun i : Identifier => hashOpaqueIdentifier i.asStr) (projectionObservation_ids o reduced).2.1
  have hmirrors : ∀ n, RecordRow.Mirrors
      ⟨n, reduced.spanId.asStr, reduced.traceId.asStr, reduced.parentSpanId.map (·.asStr), reduced.kind,
        reduced, record⟩ := fun n =>
    ⟨rfl, rfl, rfl, rfl, r.ordered, by rw [htrace]; exact hp.isPrivate.1, by rw [hspan]; exact hrecord,
      r.recordObservedAt⟩
  unfold upsertRecord Table.upsert at hu
  rw [hspan] at hu
  split at hu
  · rename_i hhas
    obtain ⟨old, hold, hs⟩ := hhas
    have hmold := hm old hold
    refine ⟨{ old with state := reduced, record }, ?_, ?_, rfl, rfl, Or.inr ⟨old, ?_, rfl, ?_⟩⟩
    · have hmerge := (r.identity hm).merged old (recordOf_eq hold hs)
      refine ⟨hs.trans (congrArg _ hspan.symm), ?_, ?_, ?_, r.ordered, hmold.isPrivate, ?_, ?_⟩
      · exact hmold.traceId.trans (congrArg _ (hmerge.traceId.trans htrace.symm))
      · exact hmold.parentSpanId.trans (congrArg _ (hmerge.parentSpanId.trans hparent.symm))
      · exact hmold.kind.trans (hmerge.kind.trans hkind.symm)
      · exact hrecord.trans hs.symm
      · exact r.recordObservedAt
    · have hmerge := (r.identity hm).merged old (recordOf_eq hold hs)
      rw [RecordRow.link, hs, hmold.traceId, hmold.parentSpanId, hmold.kind, hmerge.traceId, hmerge.parentSpanId,
        hmerge.kind]
    · exact recordOf_eq hold hs
    · rw [← Option.some.inj hu]
      refine List.map_congr_left fun x hx => ?_
      split
      · rename_i hrs
        rw [Table.eq_of_clash (Table.mem_iff.mpr hx) hold (Or.inr (hrs.trans hs.symm))]
      · rfl
  · rename_i hhas
    obtain ⟨-, hrows⟩ := Table.insert_eq_some.mp hu
    refine ⟨_, hmirrors db.nextCommitSeq, ?_, rfl, rfl, Or.inl ⟨?_, rfl, by rw [hrows, hspan]⟩⟩
    · simp only [RecordRow.link, hspan, htrace, hparent, hkind]
    · exact Table.find?_eq_none.mpr fun row hrow hs => hhas ⟨row, hrow, hs⟩

/-- The row that a commit leaves of its span. -/
abbrev Commit.Stored (c : Commit db o p) (row : RecordRow) : Prop := StoredRow db p c.reduced c.record c.records row

theorem Commit.exists_stored (hm : ∀ row ∈ db.records, row.Mirrors) (hp : Prepared o p) (c : Commit db o p) :
    ∃ row, c.Stored row := c.reduction.exists_stored hm hp c.upsert_record

section Stored

variable {reduced : DomainSpanState} {record : DurableRecordV1} {records : Table RecordRow} {row : RecordRow}

omit [Sha2] in
theorem StoredRow.mem (hs : StoredRow db p reduced record records row) {x : RecordRow} :
    x ∈ records ↔ (x ∈ db.records ∧ x.spanId ≠ p.state.spanId.asStr) ∨ x = row := by
  rw [Table.mem_iff]
  rcases hs.rows with ⟨hnone, -, hrows⟩ | ⟨old, hold, -, hrows⟩
  · rw [hrows, List.mem_append, List.mem_singleton]
    exact or_congr ⟨fun h => ⟨h, Table.find?_eq_none.mp hnone x h⟩, fun h => h.1⟩ Iff.rfl
  · obtain ⟨hmem, hspan⟩ := recordOf_mem hold
    rw [hrows, List.mem_map]
    constructor
    · rintro ⟨r, hr, rfl⟩
      split
      · exact Or.inr rfl
      · rename_i hne
        exact Or.inl ⟨hr, hne⟩
    · rintro (⟨hx, hne⟩ | rfl)
      · exact ⟨x, hx, if_neg hne⟩
      · exact ⟨old, hmem, if_pos hspan⟩

omit [Sha2] in
theorem StoredRow.spanId (hs : StoredRow db p reduced record records row) : row.spanId = p.state.spanId.asStr := congrArg Link.spanId hs.link

omit [Sha2] in
theorem StoredRow.traceId (hs : StoredRow db p reduced record records row) : row.traceId = p.state.traceId.asStr := congrArg Link.traceId hs.link

end Stored

/-- The row that a commit leaves of the link of its span. -/
structure LinkedRow (db : Db) (p : PreparedObservation) (topology : Table TopologyRow) (row : TopologyRow) : Prop where
  /-- Its link is the observed one. -/
  link : row.link =
    ⟨p.state.spanId.asStr, p.state.traceId.asStr, p.state.parentSpanId.map (·.asStr), p.state.kind⟩
  /-- It is unresolved when the parent is not there. -/
  unresolved : row.unresolved = p.state.parentSpanId.any fun parent => ¬ TopologyContains db parent.asStr
  /-- The other rows stay. -/
  mem : ∀ t, t ∈ topology ↔ (t ∈ db.topology ∧ t.spanId ≠ p.state.spanId.asStr) ∨ t = row

theorem Reduction.exists_linked {reduced : DomainSpanState} {record : DurableRecordV1} {records : Table RecordRow}
    {topology : Table TopologyRow} (hm : ∀ row ∈ db.records, row.Mirrors)
    (ht : ∀ t ∈ db.topology, ∃ row ∈ db.records, row.link = t.link) (hp : Prepared o p)
    (r : Reduction db o p reduced record) (hrecords : upsertRecord db reduced record = some records)
    (hu : upsertTopology db reduced (reduced.parentSpanId.any fun parent => ¬ TopologyContains db parent.asStr) =
      some topology) : ∃ row, LinkedRow db p topology row := by
  obtain ⟨hspan, htrace, hparent, hkind, -, -⟩ := r.identity hm
  obtain ⟨stored, hstored⟩ := r.exists_stored hm hp hrecords
  unfold upsertTopology at hu
  rw [hspan, htrace, hparent, hkind] at hu
  refine ⟨_, ?_, ?_, fun t => Table.mem_upsert hu (fun a b ha hb => ha.trans hb.symm)⟩
  · unfold Table.upserted
    cases hf : db.topology.find? fun row => row.spanId = p.state.spanId.asStr with
    | none => rfl
    | some t =>
      obtain ⟨htm, hts⟩ := Table.mem_of_find? hf
      obtain ⟨r, hr, hl⟩ := ht t htm
      have hrs : r.spanId = p.state.spanId.asStr := (congrArg Link.spanId hl).trans hts
      rw [Option.map_some, Option.getD_some, ← hstored.link]
      rcases hstored.rows with ⟨hnone, -⟩ | ⟨old, hold, rfl, -⟩
      · exact absurd hrs (Table.find?_eq_none.mp hnone r hr)
      · obtain rfl := Option.some.inj ((recordOf_eq hr hrs).symm.trans hold)
        exact hl.symm
  · unfold Table.upserted
    cases db.topology.find? fun row => row.spanId = p.state.spanId.asStr <;> rfl

@[inherit_doc LinkedRow]
abbrev Commit.Linked (c : Commit db o p) (row : TopologyRow) : Prop := LinkedRow db p c.topology row

theorem Commit.exists_linked (hm : ∀ row ∈ db.records, row.Mirrors)
    (ht : ∀ t ∈ db.topology, ∃ row ∈ db.records, row.link = t.link) (hp : Prepared o p) (c : Commit db o p) :
    ∃ row, c.Linked row := c.reduction.exists_linked hm ht hp c.upsert_record c.upsert_topology

omit [Sha2] in
theorem mem_resolveChildren {topology : Table TopologyRow} {spanId : String} {t : TopologyRow} :
    t ∈ resolveChildren topology spanId ↔
      ∃ t₀ ∈ topology, (if t₀.parentSpanId = some spanId then { t₀ with unresolved := false } else t₀) = t :=
  Table.mem_modify

omit [Sha2] in
/-- Resolving changes no link. -/
theorem link_resolveChildren {topology : Table TopologyRow} {spanId : String} {link : Link} :
    (∃ t ∈ resolveChildren topology spanId, t.link = link) ↔ ∃ t ∈ topology, t.link = link := by
  simp only [mem_resolveChildren]
  constructor
  · rintro ⟨_, ⟨t, ht, rfl⟩, rfl⟩
    exact ⟨t, ht, by split <;> rfl⟩
  · rintro ⟨t, ht, rfl⟩
    exact ⟨_, ⟨t, ht, rfl⟩, by split <;> rfl⟩

/-- The index row of a trace after a commit that finds no backfill. -/
def Commit.indexRow (c : Commit db o p) : HotTraceRow :=
  let unresolved := decide (HasUnresolved (resolveChildren c.topology p.state.spanId.asStr) p.state.traceId.asStr)
  let prior := (db.recordRow p.state.spanId.asStr).map (·.sqlLength)
  let added := addedBytes (recordBytes c.reduced c.record) (observationBytes p.record p.payloadHash)
  db.hotTraceIndex.upserted
    { traceId := p.state.traceId.asStr, latestObservedAt := recordObservedAt p.record, unresolved, recordCount := 1
      estimatedBytes := added, indexedComplete := true }
    (fun row => row.traceId = p.state.traceId.asStr)
    (fun row => { row with
      latestObservedAt := max row.latestObservedAt (recordObservedAt p.record)
      unresolved := unresolved
      recordCount := row.recordCount + (if prior.isNone then 1 else 0)
      estimatedBytes := row.estimatedBytes + ((added : ℤ) - removedBytes prior)
      indexedComplete := true })

theorem Commit.mem_index (hm : ∀ row ∈ db.records, row.Mirrors) (hb : db.lifecycleBackfillCursor = .complete)
    (hc : ∀ row ∈ db.hotTraceIndex, row.indexedComplete = true) (c : Commit db o p) :
    c.backfill = .complete ∧ ∀ row, row ∈ c.hotTraceIndex ↔
      (row ∈ db.hotTraceIndex ∧ row.traceId ≠ p.state.traceId.asStr) ∨ row = c.indexRow := by
  obtain ⟨hspan, htrace, -⟩ := c.reduction.identity hm
  have hu := c.index
  rw [hspan, htrace] at hu
  obtain ⟨hcursor, hindex⟩ := updateHotTraceIndex_complete (by exact hb) (by exact hc) hu
  exact ⟨hcursor, fun row => Table.mem_upsert hindex (fun a b ha hb => ha.trans hb.symm)⟩

theorem Commit.indexRow_traceId (c : Commit db o p) : c.indexRow.traceId = p.state.traceId.asStr := by
  unfold Commit.indexRow Table.upserted
  cases hf : db.hotTraceIndex.find? fun row => row.traceId = p.state.traceId.asStr with
  | none => rfl
  | some row => exact (Table.mem_of_find? hf).2

theorem Commit.indexRow_complete (c : Commit db o p) : c.indexRow.indexedComplete = true := by
  unfold Commit.indexRow Table.upserted
  cases db.hotTraceIndex.find? fun row => row.traceId = p.state.traceId.asStr <;> rfl

end AgentObservability.Store
