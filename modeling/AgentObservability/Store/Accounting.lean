import AgentObservability.Store.Links

/-!
# The accounts of the index

Ingest brings the index row of a trace up to date by the difference that one
observation makes. Without lifecycle passes the row stays what a recount of the
trace gives (`Accounted`), with one proviso: the record that an observation
replaces is taken off with the number of its characters, and was added with the
number of its bytes.

## What is proved

* `hotIndexAccounting_history`: the accounts are right as long as every replaced
  record has as many characters as bytes.
* `not_hotIndexAccounting`: a project with one accent is enough to break them.
-/

namespace AgentObservability.Store

open Domain Contracts Foundation

variable {db db' : Db}

/-- The bytes that a record stands for in the estimate of its trace. -/
def RecordRow.estimate (row : RecordRow) : ℤ := recordBytes row.state row.record + 1024

/-- The bytes that an observation stands for. -/
def ObservationRow.estimate (row : ObservationRow) : ℤ := observationBytes row.projected row.payloadHash + 2048

/-- **The index is what a recount gives.** -/
structure Accounted (db : Db) : Prop where
  /-- Nothing is archived. -/
  hot : db.traceControl = .empty
  /-- The records are counted. -/
  count : ∀ i ∈ db.hotTraceIndex, (i.recordCount : ℤ) = db.records.total (fun row => row.traceId = i.traceId) fun _ => 1
  /-- The latest observation is known. -/
  latest : ∀ i ∈ db.hotTraceIndex, ∃ n : ℕ, i.latestObservedAt = WithBot.some n ∧
    IsGreatest {m | ∃ row ∈ db.observations, row.traceId = i.traceId ∧ row.observedAt = m} n
  /-- The bytes are summed up. -/
  bytes : ∀ i ∈ db.hotTraceIndex, i.estimatedBytes =
    db.records.total (fun row => row.traceId = i.traceId) RecordRow.estimate +
      db.observations.total (fun row => row.traceId = i.traceId) ObservationRow.estimate

theorem accounted_empty : Accounted Db.empty := by
  constructor <;> simp [Db.empty]

/-- The invariant is about these tables only. -/
theorem Accounted.congr (h : Accounted db) (hc : db'.traceControl = db.traceControl) (hr : db'.records = db.records)
    (ho : db'.observations = db.observations) (hi : db'.hotTraceIndex = db.hotTraceIndex) : Accounted db' where
  hot := hc.trans h.hot
  count := by
    rw [hi, hr]
    exact h.count
  latest := by
    rw [hi, ho]
    exact h.latest
  bytes := by
    rw [hi, hr, ho]
    exact h.bytes

/-- Whole traces may go. -/
theorem Accounted.deleteHotTraces (h : Accounted db) (ids : List String) : Accounted (deleteHotTraces db ids) where
  hot := h.hot
  count i hi := by
    obtain ⟨hi, hid⟩ := Table.mem_delete.mp hi
    rw [h.count i hi]
    exact (Table.total_delete fun row _ ht => by rwa [ht]).symm
  latest i hi := by
    obtain ⟨hi, hid⟩ := Table.mem_delete.mp hi
    obtain ⟨n, hn, ⟨row, hrow, ht, hm⟩, hle⟩ := h.latest i hi
    refine ⟨n, hn, ⟨row, Table.mem_delete.mpr ⟨hrow, by rwa [ht]⟩, ht, hm⟩, ?_⟩
    rintro m ⟨x, hx, hxt, rfl⟩
    exact hle ⟨x, (Table.mem_delete.mp hx).1, hxt, rfl⟩
  bytes i hi := by
    obtain ⟨hi, hid⟩ := Table.mem_delete.mp hi
    rw [h.bytes i hi]
    have hrecords : (db.records.delete fun row => row.traceId ∈ ids).total (fun row => row.traceId = i.traceId)
        RecordRow.estimate = _ := Table.total_delete fun row _ ht => by rwa [ht]
    have hobservations : (db.observations.delete fun row => row.traceId ∈ ids).total
        (fun row => row.traceId = i.traceId) ObservationRow.estimate = _ :=
      Table.total_delete fun row _ ht => by rwa [ht]
    exact (congrArg₂ (· + ·) hrecords hobservations).symm

/-- And leave guards. -/
theorem Accounted.expire (h : Accounted db) (guards : Table SpanGuardRow) (ids : List String) :
    Accounted (Store.deleteHotTraces { db with expiredSpanStates := guards } ids) :=
  (h.deleteHotTraces ids).congr rfl rfl rfl rfl

section Commits

variable [Sha2] {o : SourceObservation} {p : PreparedObservation}

omit [Sha2] in
/-- A commit exchanges the value of a record, or adds the one of a new record. -/
theorem StoredRow.total {reduced : DomainSpanState} {record : DurableRecordV1} {records : Table RecordRow}
    {row : RecordRow} (hs : StoredRow db p reduced record records row) (t : String) (f : RecordRow → ℤ) :
    records.total (fun r => r.traceId = t) f = db.records.total (fun r => r.traceId = t) f +
      if p.state.traceId.asStr = t then f row - ((db.recordRow p.state.spanId.asStr).map f).getD 0 else 0 := by
  rw [← hs.traceId]
  rcases hs.rows with ⟨hnone, -, hrows⟩ | ⟨old, hold, hrow, hrows⟩
  · rw [Table.total_append hrows, hnone, Option.map_none, Option.getD_none, sub_zero]
  · obtain ⟨hmem, hspan⟩ := recordOf_mem hold
    have htrace : old.traceId = row.traceId := by rw [hrow]
    rw [Table.total_exchange hmem hspan (fun a b ha hb => Or.inr (ha.trans hb.symm)) (by rw [htrace]) hrows, hold,
      Option.map_some, Option.getD_some]

/-- The index row of a trace that has one. -/
theorem Commit.indexRow_of_mem (c : Commit db o p) {i : HotTraceRow} (hi : i ∈ db.hotTraceIndex)
    (ht : i.traceId = p.state.traceId.asStr) :
    c.indexRow.recordCount = i.recordCount + (if (db.recordRow p.state.spanId.asStr).isNone then 1 else 0) ∧
    c.indexRow.latestObservedAt = max i.latestObservedAt (WithBot.some (recordObservedAt p.record)) ∧
    c.indexRow.estimatedBytes = i.estimatedBytes +
      ((addedBytes (recordBytes c.reduced c.record) (observationBytes p.record p.payloadHash) : ℤ) -
        removedBytes ((db.recordRow p.state.spanId.asStr).map (·.sqlLength))) := by
  have hfind : db.hotTraceIndex.find? (fun row => row.traceId = p.state.traceId.asStr) = some i :=
    Table.find?_eq_some_of_mem (fun a b ha hb => ha.trans hb.symm) hi ht
  rw [Commit.indexRow, Table.upserted, hfind, Option.map_some, Option.getD_some]
  exact ⟨by rw [Option.isNone_map], rfl, rfl⟩

/-- The index row of a trace that had none. -/
theorem Commit.indexRow_of_new (c : Commit db o p) (hi : ∀ i ∈ db.hotTraceIndex, i.traceId ≠ p.state.traceId.asStr) :
    c.indexRow.recordCount = 1 ∧ c.indexRow.latestObservedAt = WithBot.some (recordObservedAt p.record) ∧
    c.indexRow.estimatedBytes =
      addedBytes (recordBytes c.reduced c.record) (observationBytes p.record p.payloadHash) := by
  have hfind : db.hotTraceIndex.find? (fun row => row.traceId = p.state.traceId.asStr) = none :=
    Table.find?_eq_none.mpr hi
  rw [Commit.indexRow, Table.upserted, hfind, Option.map_none, Option.getD_none]
  exact ⟨rfl, rfl, rfl⟩

/-- The record that the observation would replace has as many characters as bytes. -/
def MeasuredInBytes (db : Db) (s : DomainSpanState) : Prop :=
  ∀ row, db.recordRow s.spanId.asStr = some row → row.sqlLength = recordBytes row.state row.record

/-- **A commit that replaces a record of plain text keeps the accounts.** -/
theorem Accounted.commit (h : Accounted db) (hdb : Coherent db) (hp : Prepared o p) (c : Commit db o p)
    (hmeasured : MeasuredInBytes db p.state) : Accounted c.result := by
  have hm : ∀ row ∈ db.records, row.Mirrors := fun row hrow => hdb.mirrors row (Db.mem_knownRows.mpr (Or.inl hrow))
  obtain ⟨stored, hs⟩ := c.exists_stored hm hp
  obtain ⟨-, hindex⟩ := c.mem_index hm hdb.backfill hdb.complete
  have htrace : (observationRow db o p c.reduced).traceId = p.state.traceId.asStr :=
    congrArg (·.asStr) (c.reduction.identity hm).traceId
  have hrows := (Table.insert_eq_some.mp c.insert_observation).2
  have hobserved : ∀ t m, (∃ row ∈ c.observations, row.traceId = t ∧ row.observedAt = m) ↔
      (∃ row ∈ db.observations, row.traceId = t ∧ row.observedAt = m) ∨
        p.state.traceId.asStr = t ∧ recordObservedAt p.record = m := by
    intro t m
    simp only [Table.mem_insert c.insert_observation]
    constructor
    · rintro ⟨row, hrow | rfl, ht, hm⟩
      · exact Or.inl ⟨row, hrow, ht, hm⟩
      · exact Or.inr ⟨htrace.symm.trans ht, hm⟩
    · rintro (⟨row, hrow, hrest⟩ | ⟨ht, hm⟩)
      · exact ⟨row, Or.inl hrow, hrest⟩
      · exact ⟨_, Or.inr rfl, htrace.trans ht, hm⟩
  -- A trace without an index row has no records, and the span none.
  have hnew : (¬ ∃ i ∈ db.hotTraceIndex, i.traceId = p.state.traceId.asStr) →
      (∀ row ∈ db.records, row.traceId ≠ p.state.traceId.asStr) ∧ db.recordRow p.state.spanId.asStr = none := by
    intro hold
    have hrecords : ∀ row ∈ db.records, row.traceId ≠ p.state.traceId.asStr := fun row hrow ht =>
      hold ((hdb.index _).mpr ⟨row, hrow, ht⟩)
    exact ⟨hrecords, Table.find?_eq_none.mpr fun row hrow hs' => hrecords row hrow (hs.traceId_of_span hrow hs')⟩
  refine { hot := h.hot, count := ?count, latest := ?latest, bytes := ?bytes }
  case count =>
    intro i hi
    change (i.recordCount : ℤ) = c.records.total _ _
    rw [hs.total]
    rcases (hindex i).mp hi with ⟨hi, hne⟩ | rfl
    · rw [if_neg (Ne.symm hne), add_zero, h.count i hi]
    · rw [if_pos c.indexRow_traceId.symm, c.indexRow_traceId]
      by_cases hold : ∃ i ∈ db.hotTraceIndex, i.traceId = p.state.traceId.asStr
      · obtain ⟨i, hi, ht⟩ := hold
        have hcount := h.count i hi
        rw [ht] at hcount
        rw [(c.indexRow_of_mem hi ht).1, Nat.cast_add, hcount]
        cases db.recordRow p.state.spanId.asStr <;> simp
      · obtain ⟨hrecords, hnone⟩ := hnew hold
        rw [(c.indexRow_of_new fun i hi ht => hold ⟨i, hi, ht⟩).1, Table.total_eq_zero hrecords, hnone]
        rfl
  case latest =>
    intro i hi
    change ∃ n : ℕ, _ ∧ IsGreatest {m | ∃ row ∈ c.observations, row.traceId = i.traceId ∧ row.observedAt = m} n
    simp only [hobserved]
    rcases (hindex i).mp hi with ⟨hi, hne⟩ | rfl
    · simp only [Ne.symm hne, false_and, or_false]
      exact h.latest i hi
    · rw [c.indexRow_traceId]
      simp only [true_and]
      by_cases hold : ∃ i ∈ db.hotTraceIndex, i.traceId = p.state.traceId.asStr
      · obtain ⟨i, hi, ht⟩ := hold
        obtain ⟨n, hn, hgreatest⟩ := h.latest i hi
        rw [ht] at hgreatest
        refine ⟨max n (recordObservedAt p.record), ?_, ?_⟩
        · rw [(c.indexRow_of_mem hi ht).2.1, hn]
          rfl
        · have hset : {m | (∃ row ∈ db.observations, row.traceId = p.state.traceId.asStr ∧ row.observedAt = m) ∨
              recordObservedAt p.record = m} = insert (recordObservedAt p.record)
                {m | ∃ row ∈ db.observations, row.traceId = p.state.traceId.asStr ∧ row.observedAt = m} :=
            Set.ext fun m => or_comm.trans (or_congr_left eq_comm)
          rw [hset, max_comm]
          exact hgreatest.insert (recordObservedAt p.record)
      · obtain ⟨hrecords, -⟩ := hnew hold
        refine ⟨recordObservedAt p.record, (c.indexRow_of_new fun i hi ht => hold ⟨i, hi, ht⟩).2.1, Or.inr rfl, ?_⟩
        rintro m (⟨row, hrow, ht, -⟩ | rfl)
        · obtain ⟨r, hr, hrt⟩ := hdb.observations row hrow
          exact absurd (hrt.trans ht) (hrecords r hr)
        · exact le_rfl
  case bytes =>
    intro i hi
    change i.estimatedBytes = c.records.total _ _ + c.observations.total _ _
    rw [hs.total, Table.total_append hrows, htrace]
    rcases (hindex i).mp hi with ⟨hi, hne⟩ | rfl
    · rw [if_neg (Ne.symm hne), if_neg (Ne.symm hne), add_zero, add_zero, h.bytes i hi]
    · have hadded : (addedBytes (recordBytes c.reduced c.record) (observationBytes p.record p.payloadHash) : ℤ) =
          stored.estimate + (observationRow db o p c.reduced).estimate := by
        simp only [addedBytes, traceEstimatedRowOverhead, RecordRow.estimate, ObservationRow.estimate, hs.state, hs.record,
          observationRow]
        push_cast
        ring
      rw [if_pos c.indexRow_traceId.symm, if_pos c.indexRow_traceId.symm, c.indexRow_traceId]
      by_cases hold : ∃ i ∈ db.hotTraceIndex, i.traceId = p.state.traceId.asStr
      · obtain ⟨i, hi, ht⟩ := hold
        have hbytes := h.bytes i hi
        rw [ht] at hbytes
        rw [(c.indexRow_of_mem hi ht).2.2, hbytes, hadded]
        -- What is taken off is what the replaced record stands for.
        have hremoved : (removedBytes ((db.recordRow p.state.spanId.asStr).map (·.sqlLength)) : ℤ) =
            ((db.recordRow p.state.spanId.asStr).map RecordRow.estimate).getD 0 := by
          cases hrow : db.recordRow p.state.spanId.asStr with
          | none => rfl
          | some row =>
            simp only [Option.map_some, Option.getD_some, removedBytes, traceEstimatedRowOverhead, RecordRow.estimate,
              hmeasured row hrow]
            push_cast
            ring
        rw [hremoved]
        ring
      · obtain ⟨hrecords, hnone⟩ := hnew hold
        have hobservations : ∀ row ∈ db.observations, row.traceId ≠ p.state.traceId.asStr := by
          intro row hrow ht
          obtain ⟨r, hr, hrt⟩ := hdb.observations row hrow
          exact hrecords r hr (hrt.trans ht)
        rw [(c.indexRow_of_new fun i hi ht => hold ⟨i, hi, ht⟩).2.2, hadded, Table.total_eq_zero hrecords,
          Table.total_eq_zero hobservations, hnone, Option.map_none, Option.getD_none]
        ring

end Commits

/-! ### Histories -/

section Histories

variable [Sha2]

/-- The observation is taken in, and replaces a record that has more bytes than characters. -/
def ReplacesLongText (db : Db) (o : SourceObservation) : Prop :=
  ∃ p, prepareObservation o = .ok p ∧ FreshCursor db o.checkpoint ∧ Unsettled db p ∧ ¬ MeasuredInBytes db p.state

/-- The item replaces a record of plain text, if one at all. -/
def ReplacesPlainText (db : Db) : StoreBatchItem → Prop
  | .observation o => ¬ ReplacesLongText db o
  | .disposition _ _ _ _ => True

/-- **Every effect keeps the accounts, without lifecycle passes and as long as only plain text is replaced.** -/
theorem preserved_accounted : Preserved ReplacesPlainText (fun pass _ => pass = .retention) Accounted where
  unquiet h _ := h
  quiet := by
    rintro db db' h ⟨_, _, _, _, _, _, _, _, _, rfl⟩
    exact h.congr rfl rfl rfl rfl
  rehydrate := by
    intro db o p control db₁ _ h _ _ _ _ r
    have hmem := r.mem
    rw [h.hot] at hmem
    exact absurd hmem (Table.not_mem_empty control)
  commit := by
    intro db db₁ o p _ hbefore hC hprep hf hr hdb h hp hn hu c
    rcases hr.cases hp with ⟨rfl, -⟩ | ⟨control, -, -, ⟨r⟩⟩
    · refine h.commit hdb hp c ?_
      by_contra hmeasured
      exact hC ⟨p, hprep, hf, hu, hmeasured⟩
    · have hmem := r.mem
      rw [hbefore.hot] at hmem
      exact absurd hmem (Table.not_mem_empty control)
  move _ _ _ _ hpass := by cases hpass
  expire _ h _ _ := h.expire _ _

omit [Sha2] in
/-- The bytes of the records and the observations of a trace, with an allowance for the rows. -/
def recountedBytes (db : Db) (traceId : String) : ℤ :=
  ((db.records.select fun row => row.traceId = traceId).map fun row =>
    (recordBytes row.state row.record + 1024 : ℤ)).sum +
  ((db.observations.select fun row => row.traceId = traceId).map fun row =>
    (observationBytes row.projected row.payloadHash + 2048 : ℤ)).sum

/-- The accounts of the index, as a recount of every trace gives them. -/
structure HotIndexAccounting (db : Db) : Prop where
  /-- The traces of `records` are indexed. -/
  indexed : ∀ t, (∃ i ∈ db.hotTraceIndex, i.traceId = t) ↔ ∃ row ∈ db.records, row.traceId = t
  /-- `record_count`. -/
  recordCount : ∀ i ∈ db.hotTraceIndex,
    i.recordCount = (db.records.select fun row => row.traceId = i.traceId).length
  /-- `latest_observed_at_unix_ms`. -/
  latestObservedAt : ∀ i ∈ db.hotTraceIndex, ∃ n : ℕ, i.latestObservedAt = WithBot.some n ∧
    IsGreatest {m | ∃ row ∈ db.observations, row.traceId = i.traceId ∧ row.observedAt = m} n
  /-- `unresolved`. -/
  unresolved : ∀ i ∈ db.hotTraceIndex, i.unresolved = true ↔
    ∃ row ∈ db.topology, row.traceId = i.traceId ∧ row.unresolved = true
  /-- `estimated_bytes`. -/
  estimatedBytes : ∀ i ∈ db.hotTraceIndex, i.estimatedBytes = recountedBytes db i.traceId

omit [Sha2] in
theorem Accounted.hotIndexAccounting (h : Accounted db) (hl : Linked db) (hdb : Coherent db) :
    HotIndexAccounting db where
  indexed := hdb.index
  recordCount i hi := by
    have hcount := h.count i hi
    rw [Table.total_one] at hcount
    exact_mod_cast hcount
  latestObservedAt := h.latest
  unresolved := hl.index
  estimatedBytes := h.bytes

/-- Nothing is restored where nothing is archived. -/
theorem Accounted.restoresCleanly (h : Accounted db) (hdb : Coherent db) (item : StoreBatchItem) :
    RestoresCleanly db item := by
  cases item with
  | disposition => trivial
  | observation o =>
    rintro ⟨p, -, -, -, hforeign⟩
    refine hforeign fun copy hcopy _ => ?_
    obtain ⟨control, hcontrol, -⟩ := (hdb.copies copy hcopy).2
    rw [h.hot] at hcontrol
    exact absurd hcontrol (Table.not_mem_empty control)

omit [Sha2] in
/-- A run of ingests and manual retention passes: no trace moves to another tier. -/
def Txn.StaysHot : Txn → Prop
  | .maintain .. => False
  | _ => True

/-- **The accounts of the index are right after every history without lifecycle passes in which only plain text is
replaced.** -/
theorem hotIndexAccounting_history {ts : List Txn}
    (h : Along Txn.step (fun db t => t.StaysHot ∧ t.Ingests ReplacesPlainText db) Db.empty ts) :
    HotIndexAccounting (history ts) := by
  have hleaves : ∀ db (t : Txn), t.StaysHot → t.Leaves (fun pass _ => pass = .retention) db := by
    intro db t ht
    cases t with
    | maintain => exact ht.elim
    | retention => rfl
    | _ => trivial
  have hpreserved := preserved_accounted.and preserved_linked (fun hdb h _ => h.restoresCleanly hdb _) fun _ => trivial
  obtain ⟨haccounted, hlinked⟩ := hpreserved.history ⟨accounted_empty, linked_empty⟩
    (h.mono fun db t ht => ⟨ht.2, hleaves db t ht.1⟩)
  exact haccounted.hotIndexAccounting hlinked (coherent_history ts)

omit [Sha2] in
theorem hotIndexAccounting_turn : HotIndexAccounting (@history sha256 [.ingest (turnOf 0 0 0 none 100)]) :=
  @hotIndexAccounting_history sha256 _ ⟨⟨trivial, by
    rintro ⟨p, -, -, -, hmeasured⟩
    exact hmeasured fun row hrow => absurd (recordOf_mem hrow).1 (Table.not_mem_empty row), fun _ _ _ => trivial⟩,
    trivial⟩

end Histories

/-! ### An accent -/

/-- A turn of a project whose name has an accent. -/
def accentedTurn (stream : Number) (lifecycle : LifecycleState) : SourceObservation :=
  { turnOf stream 0 0 none 100 with event := .turnWithProject "café", lifecycle }

set_option maxRecDepth 100000 in
/-- **The turn is stored, and then replaced by its completion: the estimate keeps the bytes of the accents.** -/
theorem not_hotIndexAccounting :
    ¬ HotIndexAccounting (@history sha256 [.ingest (accentedTurn 0 .running), .ingest (accentedTurn 1 .completed)]) := by
  intro h
  have hwrong : ((@history sha256 [.ingest (accentedTurn 0 .running),
      .ingest (accentedTurn 1 .completed)]).hotTraceIndex.rows.all fun i => i.estimatedBytes =
        recountedBytes (@history sha256 [.ingest (accentedTurn 0 .running), .ingest (accentedTurn 1 .completed)])
          i.traceId) = false := by
    rw [show sha256 = _ from sha2_eq]
    decide +kernel
  rw [List.all_eq_true.mpr fun i hi => decide_eq_true (h.estimatedBytes i hi)] at hwrong
  cases hwrong

end AgentObservability.Store
