import AgentObservability.Store.Committed
import AgentObservability.Store.TierSpec
import Mathlib.Data.List.Perm.Basic

/-!
# The tables agree

The invariant of every store that began empty. A trace is hot (it has records), archived
(it has a control row) or expired (it left a guard), and never two of these. What
the store knows of spans is one list of rows, those of `records` and those that
the control copies were made of (`Db.knownRows`); a move of a trace permutes this
list. The other tables repeat parts of it: `topology` and `hot_trace_index`
follow `records`, and the tables of the tiers follow the control tables.

## What is proved

`coherent_history`: the invariant holds in every store that a history leads to.
-/

namespace AgentObservability.Store

open Domain Contracts Foundation

variable {db db' : Db}

/-! ### The invariant -/

/-- The warm copy that belongs to a control copy. -/
def SpanControlRow.toWarm (row : SpanControlRow) : WarmRecordRow :=
  ⟨row.spanId, row.traceKey, row.originalCommitSeq, row.record⟩

/-- A trace with records. -/
def Db.IsHot (db : Db) (traceId : String) : Prop := ∃ row ∈ db.records, row.traceId = traceId

/-- A trace with a control row. -/
def Db.IsArchived (db : Db) (traceId : String) : Prop := ∃ row ∈ db.traceControl, row.traceKey = traceId

/-- A trace with a control row of a tier. -/
def Db.IsInTier (db : Db) (traceId : String) (tier : ArchiveTier) : Prop :=
  ∃ row ∈ db.traceControl, row.traceKey = traceId ∧ row.tier = tier

/-- A trace with a guard. -/
def Db.IsExpired (db : Db) (traceId : String) : Prop := ∃ row ∈ db.expiredTraceStates, row.traceKey = traceId

/-- What the store knows of spans: the rows of `records`, and those that the control copies were made of. -/
def Db.knownRows (db : Db) : List RecordRow := db.records.rows ++ db.spanControl.rows.map (·.toRecord)

theorem Db.mem_knownRows {row : RecordRow} :
    row ∈ db.knownRows ↔ row ∈ db.records ∨ ∃ copy ∈ db.spanControl, copy.toRecord = row := by
  simp [Db.knownRows, Table.mem_iff]

/-- The control copies of a trace, unordered. -/
def Db.copiesOf (db : Db) (traceKey : String) : List SpanControlRow :=
  db.spanControl.select fun row => row.traceKey = traceKey

/-- **The tables agree.** -/
structure Coherent (db : Db) : Prop where
  /-- Every row says what its state says. -/
  mirrors : ∀ row ∈ db.knownRows, row.Mirrors
  /-- Commit sequences were given out. -/
  sequence : ∀ row ∈ db.knownRows, row.commitSeq ≤ db.recordsSequence
  /-- Commit sequences are distinct. -/
  distinct : (db.knownRows.map (·.commitSeq)).Nodup
  /-- The topology has the links of the records. -/
  topology : ∀ link, (∃ row ∈ db.topology, row.link = link) ↔ ∃ row ∈ db.records, row.link = link
  /-- The index has the traces of the records. -/
  index : ∀ t, (∃ row ∈ db.hotTraceIndex, row.traceId = t) ↔ db.IsHot t
  /-- Every trace of the index is counted. -/
  complete : ∀ row ∈ db.hotTraceIndex, row.indexedComplete = true
  /-- There is no backfill to do. -/
  backfill : db.lifecycleBackfillCursor = .complete
  /-- The observations are of hot traces. -/
  observations : ∀ row ∈ db.observations, db.IsHot row.traceId
  /-- A control copy stands under its trace, which is archived. -/
  copies : ∀ row ∈ db.spanControl, row.traceKey = row.traceId ∧ db.IsArchived row.traceKey
  /-- A control row counts its copies. -/
  counts : ∀ row ∈ db.traceControl, (db.copiesOf row.traceKey).length = row.recordCount
  /-- The warm traces are those with a warm control row. -/
  warmTraces : ∀ t, (∃ row ∈ db.warmTraces, row.traceKey = t) ↔ db.IsInTier t .warm
  /-- The cold traces are those with a cold control row. -/
  coldTraces : ∀ t, (∃ row ∈ db.coldTraces, row.traceKey = t) ↔ db.IsInTier t .cold
  /-- The warm records belong to the copies of the warm traces. -/
  warmRecords : ∀ row, row ∈ db.warmRecords ↔
    ∃ copy ∈ db.spanControl, copy.toWarm = row ∧ db.IsInTier copy.traceKey .warm
  /-- No trace is hot and archived. -/
  hot_archived : ∀ t, db.IsHot t → ¬ db.IsArchived t
  /-- No expired trace is hot. -/
  expired_hot : ∀ t, db.IsExpired t → ¬ db.IsHot t
  /-- No expired trace is archived. -/
  expired_archived : ∀ t, db.IsExpired t → ¬ db.IsArchived t

theorem coherent_empty : Coherent Db.empty := by
  constructor <;> simp [Db.empty, Db.knownRows, Db.IsHot, Db.IsArchived, Db.IsInTier, Db.IsExpired]

/-- The invariant is about these tables only. -/
theorem Coherent.congr (h : Coherent db)
    (hr : db'.records = db.records) (hq : db'.recordsSequence = db.recordsSequence) (ht : db'.topology = db.topology)
    (ho : db'.observations = db.observations) (hi : db'.hotTraceIndex = db.hotTraceIndex)
    (hb : db'.lifecycleBackfillCursor = db.lifecycleBackfillCursor) (hw : db'.warmTraces = db.warmTraces)
    (hwr : db'.warmRecords = db.warmRecords) (hc : db'.coldTraces = db.coldTraces)
    (htc : db'.traceControl = db.traceControl) (hsc : db'.spanControl = db.spanControl)
    (he : db'.expiredTraceStates = db.expiredTraceStates) : Coherent db' := by
  cases db'
  simp only at hr hq ht ho hi hb hw hwr hc htc hsc he
  subst hr hq ht ho hi hb hw hwr hc htc hsc he
  exact ⟨h.mirrors, h.sequence, h.distinct, h.topology, h.index, h.complete, h.backfill, h.observations, h.copies,
    h.counts, h.warmTraces, h.coldTraces, h.warmRecords, h.hot_archived, h.expired_hot, h.expired_archived⟩

/-- The ledger of cursors has no part in it. -/
theorem Coherent.ledger (h : Coherent db) (hl : Ledger db db') : Coherent db' := by
  obtain ⟨_, _, _, _, rfl⟩ := hl
  exact h.congr rfl rfl rfl rfl rfl rfl rfl rfl rfl rfl rfl rfl

/-! ### Traces that leave -/

@[simp] theorem isHot_deleteHotTraces {ids : List String} {t : String} :
    (deleteHotTraces db ids).IsHot t ↔ db.IsHot t ∧ t ∉ ids := by
  simp only [Db.IsHot, deleteHotTraces, Table.mem_delete]
  constructor
  · rintro ⟨row, ⟨hrow, hid⟩, rfl⟩
    exact ⟨⟨row, hrow, rfl⟩, hid⟩
  · rintro ⟨⟨row, hrow, rfl⟩, hid⟩
    exact ⟨row, ⟨hrow, hid⟩, rfl⟩

theorem knownRows_deleteHotTraces (db : Db) (ids : List String) :
    (deleteHotTraces db ids).knownRows.Sublist db.knownRows :=
  List.Sublist.append List.filter_sublist (List.Sublist.refl _)

theorem Coherent.deleteHotTraces (h : Coherent db) (ids : List String) : Coherent (deleteHotTraces db ids) where
  mirrors row hrow := h.mirrors row ((knownRows_deleteHotTraces db ids).subset hrow)
  sequence row hrow := h.sequence row ((knownRows_deleteHotTraces db ids).subset hrow)
  distinct := h.distinct.sublist ((knownRows_deleteHotTraces db ids).map _)
  topology link := by
    simp only [Store.deleteHotTraces, Table.mem_delete]
    constructor
    · rintro ⟨row, ⟨hrow, hid⟩, rfl⟩
      obtain ⟨r, hr, hl⟩ := (h.topology row.link).mp ⟨row, hrow, rfl⟩
      exact ⟨r, ⟨hr, by rwa [show r.traceId = row.traceId from congrArg Link.traceId hl]⟩, hl⟩
    · rintro ⟨row, ⟨hrow, hid⟩, rfl⟩
      obtain ⟨r, hr, hl⟩ := (h.topology row.link).mpr ⟨row, hrow, rfl⟩
      exact ⟨r, ⟨hr, by rwa [show r.traceId = row.traceId from congrArg Link.traceId hl]⟩, hl⟩
  index t := by
    rw [isHot_deleteHotTraces, ← h.index t]
    simp only [Store.deleteHotTraces, Table.mem_delete]
    constructor
    · rintro ⟨row, ⟨hrow, hid⟩, rfl⟩
      exact ⟨⟨row, hrow, rfl⟩, hid⟩
    · rintro ⟨⟨row, hrow, rfl⟩, hid⟩
      exact ⟨row, ⟨hrow, hid⟩, rfl⟩
  complete row hrow := h.complete row (Table.mem_delete.mp hrow).1
  backfill := h.backfill
  observations row hrow := by
    obtain ⟨hrow, hid⟩ := Table.mem_delete.mp hrow
    exact isHot_deleteHotTraces.mpr ⟨h.observations row hrow, hid⟩
  copies := h.copies
  counts := h.counts
  warmTraces := h.warmTraces
  coldTraces := h.coldTraces
  warmRecords := h.warmRecords
  hot_archived t ht := h.hot_archived t (isHot_deleteHotTraces.mp ht).1
  expired_hot t ht hh := h.expired_hot t ht (isHot_deleteHotTraces.mp hh).1
  expired_archived := h.expired_archived

theorem knownRows_deleteArchivedTrace (db : Db) (traceKey : String) :
    (deleteArchivedTrace db traceKey).knownRows.Sublist db.knownRows :=
  List.Sublist.append (List.Sublist.refl _) (List.filter_sublist.map _)

theorem isInTier_deleteArchivedTrace {traceKey t : String} {tier : ArchiveTier} :
    (deleteArchivedTrace db traceKey).IsInTier t tier ↔ db.IsInTier t tier ∧ t ≠ traceKey := by
  simp only [Db.IsInTier, deleteArchivedTrace, Table.mem_delete]
  constructor
  · rintro ⟨row, ⟨hrow, hk⟩, rfl, ht⟩
    exact ⟨⟨row, hrow, rfl, ht⟩, hk⟩
  · rintro ⟨⟨row, hrow, rfl, ht⟩, hk⟩
    exact ⟨row, ⟨hrow, hk⟩, rfl, ht⟩

theorem isArchived_deleteArchivedTrace {traceKey t : String} :
    (deleteArchivedTrace db traceKey).IsArchived t ↔ db.IsArchived t ∧ t ≠ traceKey := by
  simp only [Db.IsArchived, deleteArchivedTrace, Table.mem_delete]
  constructor
  · rintro ⟨row, ⟨hrow, hk⟩, rfl⟩
    exact ⟨⟨row, hrow, rfl⟩, hk⟩
  · rintro ⟨⟨row, hrow, rfl⟩, hk⟩
    exact ⟨row, ⟨hrow, hk⟩, rfl⟩

/-- The rows of other keys that a table keeps when a key is deleted from it. -/
theorem filter_ne_key {ρ : Type} [Keyed ρ] {table : Table ρ} {key : ρ → String} {deleted k : String} (h : k ≠ deleted) :
    ((table.delete fun row => key row = deleted).select fun row => key row = k) =
      table.select fun row => key row = k := by
  simp only [Table.select, Table.delete, List.filter_filter]
  refine List.filter_congr fun row _ => ?_
  by_cases hk : key row = k
  · simp [hk, h]
  · simp [hk]

theorem Coherent.deleteArchivedTrace (h : Coherent db) (traceKey : String) :
    Coherent (deleteArchivedTrace db traceKey) where
  mirrors row hrow := h.mirrors row ((knownRows_deleteArchivedTrace db traceKey).subset hrow)
  sequence row hrow := h.sequence row ((knownRows_deleteArchivedTrace db traceKey).subset hrow)
  distinct := h.distinct.sublist ((knownRows_deleteArchivedTrace db traceKey).map _)
  topology := h.topology
  index := h.index
  complete := h.complete
  backfill := h.backfill
  observations := h.observations
  copies row hrow := by
    obtain ⟨hrow, hk⟩ := Table.mem_delete.mp hrow
    exact ⟨(h.copies row hrow).1, isArchived_deleteArchivedTrace.mpr ⟨(h.copies row hrow).2, hk⟩⟩
  counts row hrow := by
    obtain ⟨hrow, hk⟩ := Table.mem_delete.mp hrow
    rw [← h.counts row hrow]
    exact congrArg List.length (filter_ne_key hk)
  warmTraces t := by
    rw [isInTier_deleteArchivedTrace, ← h.warmTraces t]
    simp only [Store.deleteArchivedTrace, Table.mem_delete]
    grind
  coldTraces t := by
    rw [isInTier_deleteArchivedTrace, ← h.coldTraces t]
    simp only [Store.deleteArchivedTrace, Table.mem_delete]
    grind
  warmRecords row := by
    simp only [isInTier_deleteArchivedTrace]
    simp only [Store.deleteArchivedTrace, Table.mem_delete, h.warmRecords row]
    constructor
    · rintro ⟨⟨copy, hcopy, rfl, ht⟩, hk⟩
      exact ⟨copy, ⟨hcopy, hk⟩, rfl, ht, hk⟩
    · rintro ⟨copy, ⟨hcopy, hk⟩, rfl, ht, -⟩
      exact ⟨⟨copy, hcopy, rfl, ht⟩, hk⟩
  hot_archived t ht ha := h.hot_archived t ht (isArchived_deleteArchivedTrace.mp ha).1
  expired_hot := h.expired_hot
  expired_archived t ht ha := h.expired_archived t ht (isArchived_deleteArchivedTrace.mp ha).1

/-- A trace that is neither hot nor archived may leave a guard. -/
theorem Coherent.expire (h : Coherent db) {guards : Table TraceGuardRow} {traceKey : String}
    (hg : ∀ row ∈ guards, row ∈ db.expiredTraceStates ∨ row.traceKey = traceKey)
    (hhot : ¬ db.IsHot traceKey) (harchived : ¬ db.IsArchived traceKey) :
    Coherent { db with expiredTraceStates := guards } where
  mirrors := h.mirrors
  sequence := h.sequence
  distinct := h.distinct
  topology := h.topology
  index := h.index
  complete := h.complete
  backfill := h.backfill
  observations := h.observations
  copies := h.copies
  counts := h.counts
  warmTraces := h.warmTraces
  coldTraces := h.coldTraces
  warmRecords := h.warmRecords
  hot_archived := h.hot_archived
  expired_hot t := by
    rintro ⟨row, hrow, rfl⟩
    rcases hg row hrow with hrow | hk
    · exact h.expired_hot _ ⟨row, hrow, rfl⟩
    · rwa [hk]
  expired_archived t := by
    rintro ⟨row, hrow, rfl⟩
    rcases hg row hrow with hrow | hk
    · exact h.expired_archived _ ⟨row, hrow, rfl⟩
    · rwa [hk]

theorem mem_insertTraceGuard {traceKey : String} {row : TraceGuardRow} (h : row ∈ insertTraceGuard db traceKey) :
    row ∈ db.expiredTraceStates ∨ row.traceKey = traceKey := by
  rcases Table.mem_replace.mp (Table.mem_of_keepNewest h) with ⟨h, -⟩ | rfl
  · exact Or.inl h
  · exact Or.inr rfl

/-! ### Traces that are archived and restored -/

@[simp] theorem mem_recordsOf {t : String} {row : RecordRow} :
    row ∈ db.recordsOf t ↔ row ∈ db.records ∧ row.traceId = t := by
  simp [Db.recordsOf]

@[simp] theorem mem_spansOf {t : String} {row : SpanControlRow} :
    row ∈ db.spansOf t ↔ row ∈ db.spanControl ∧ row.traceKey = t := by
  simp [Db.spansOf]

@[simp] theorem toRecord_toControl (row : RecordRow) (traceKey : String) :
    (row.toControl traceKey).toRecord = row := rfl

/-- A list is, in some order, what a test keeps and what it leaves. -/
theorem perm_filter_append {α : Type} (p : α → Prop) [DecidablePred p] (l : List α) :
    (l.filter (fun a => decide (¬ p a)) ++ l.filter fun a => decide (p a)).Perm l := by
  have := List.filter_append_perm (fun a => decide (p a)) l
  simp only [decide_not]
  exact (List.perm_append_comm).trans this

theorem knownRows_archive {T : String} {spanControl : Table SpanControlRow}
    (hs : db.spanControl.insertAll ((db.recordsOf T).map (·.toControl T)) = some spanControl) :
    (Db.knownRows { db with
      records := db.records.delete fun row => row.traceId ∈ [T], spanControl }).Perm db.knownRows := by
  have hrows : spanControl.rows.map (·.toRecord) = db.spanControl.rows.map (·.toRecord) ++ db.recordsOf T := by
    rw [Table.rows_insertAll hs, List.map_append, List.map_map]
    simp [Function.comp_def]
  have hsort : (db.recordsOf T).Perm (db.records.rows.filter fun row => decide (row.traceId ∈ [T])) := by
    refine sortByKey_perm.trans ?_
    simp [Table.select]
  simp only [Db.knownRows, hrows]
  refine (List.Perm.append_left _ List.perm_append_comm).trans ?_
  rw [← List.append_assoc]
  refine List.Perm.append_right _ ?_
  exact (List.Perm.append_left _ hsort).trans (perm_filter_append (fun row : RecordRow => row.traceId ∈ [T]) db.records.rows)

/-- **A hot trace may be archived.** -/
theorem Coherent.archive (h : Coherent db) {candidate : Candidate} {tier : ArchiveTier}
    {traceControl : Table TraceControlRow} {spanControl : Table SpanControlRow} {warmTraces : Table WarmTraceRow}
    {warmRecords : Table WarmRecordRow} {coldTraces : Table ColdTraceRow} {guards : Table SpanGuardRow}
    (hhot : db.IsHot candidate.identity)
    (ha : TakenOver db candidate candidate.identity tier traceControl spanControl)
    (hwarm : ∀ t, (∃ row ∈ warmTraces, row.traceKey = t) ↔
      (∃ row ∈ db.warmTraces, row.traceKey = t) ∨ t = candidate.identity ∧ tier = .warm)
    (hcold : ∀ t, (∃ row ∈ coldTraces, row.traceKey = t) ↔
      (∃ row ∈ db.coldTraces, row.traceKey = t) ∨ t = candidate.identity ∧ tier = .cold)
    (hrecords : ∀ row, row ∈ warmRecords ↔ row ∈ db.warmRecords ∨
      tier = .warm ∧ row ∈ (db.recordsOf candidate.identity).map (·.toWarm candidate.identity)) :
    Coherent (deleteHotTrace
      { db with traceControl, spanControl, warmTraces, warmRecords, coldTraces, expiredSpanStates := guards }
      candidate.identity) := by
  obtain ⟨⟨footprint, -, hcount, hcontrol⟩, hspans⟩ := ha
  set T := candidate.identity
  have hnew : ∀ t tier', (∃ row ∈ traceControl, row.traceKey = t ∧ row.tier = tier') ↔
      db.IsInTier t tier' ∨ t = T ∧ tier' = tier := by
    intro t tier'
    simp only [Table.mem_insert hcontrol, Db.IsInTier]
    constructor
    · rintro ⟨row, hrow | rfl, rfl, rfl⟩
      · exact Or.inl ⟨row, hrow, rfl, rfl⟩
      · exact Or.inr ⟨rfl, rfl⟩
    · rintro (⟨row, hrow, rfl, rfl⟩ | ⟨rfl, rfl⟩)
      · exact ⟨row, Or.inl hrow, rfl, rfl⟩
      · exact ⟨_, Or.inr rfl, rfl, rfl⟩
  have harchived : ∀ t, (∃ row ∈ traceControl, row.traceKey = t) ↔ db.IsArchived t ∨ t = T := by
    intro t
    simp only [Table.mem_insert hcontrol, Db.IsArchived]
    constructor
    · rintro ⟨row, hrow | rfl, rfl⟩
      · exact Or.inl ⟨row, hrow, rfl⟩
      · exact Or.inr rfl
    · rintro (⟨row, hrow, rfl⟩ | rfl)
      · exact ⟨row, Or.inl hrow, rfl⟩
      · exact ⟨_, Or.inr rfl, rfl⟩
  have hbase := h.deleteHotTraces [T]
  have hperm := knownRows_archive hspans
  refine
    { mirrors := fun row hrow => h.mirrors row (hperm.subset hrow)
      sequence := fun row hrow => h.sequence row (hperm.subset hrow)
      distinct := (hperm.map _).nodup_iff.mpr h.distinct
      topology := hbase.topology, index := hbase.index, complete := hbase.complete, backfill := hbase.backfill
      observations := hbase.observations, copies := ?copies, counts := ?counts, warmTraces := ?warmTraces
      coldTraces := ?coldTraces, warmRecords := ?warmRecords, hot_archived := ?hot_archived
      expired_hot := hbase.expired_hot, expired_archived := ?expired_archived }
  case copies =>
    intro row hrow
    rcases (Table.mem_insertAll hspans).mp hrow with hrow | hrow
    · exact ⟨(h.copies row hrow).1, (harchived _).mpr (Or.inl (h.copies row hrow).2)⟩
    · obtain ⟨r, hr, rfl⟩ := List.mem_map.mp hrow
      exact ⟨(mem_recordsOf.mp hr).2.symm, (harchived _).mpr (Or.inr rfl)⟩
  case counts =>
    intro row hrow
    have hsplit : ∀ k, (spanControl.select fun copy => copy.traceKey = k).length = (db.copiesOf k).length +
        (((db.recordsOf T).map (·.toControl T)).filter fun copy => decide (copy.traceKey = k)).length := by
      intro k
      simp [Table.select, Db.copiesOf, Table.rows_insertAll hspans]
    refine (hsplit row.traceKey).trans ?_
    rcases (Table.mem_insert hcontrol).mp hrow with hrow | rfl
    · have hne : T ≠ row.traceKey := fun he => h.hot_archived T hhot ⟨row, hrow, he.symm⟩
      rw [h.counts row hrow, List.filter_eq_nil_iff.mpr]
      · rfl
      · intro copy hcopy
        obtain ⟨r, -, rfl⟩ := List.mem_map.mp hcopy
        exact fun hd => hne (of_decide_eq_true hd)
    · -- The key is new: no copy stood under it.
      have hzero : db.copiesOf T = [] := by
        refine List.eq_nil_iff_forall_not_mem.mpr fun copy hcopy => ?_
        obtain ⟨hcopy, hk⟩ := Table.mem_select.mp hcopy
        exact h.hot_archived T hhot (hk ▸ (h.copies copy hcopy).2)
      rw [hzero, List.filter_eq_self.mpr]
      · simpa using hcount
      · intro copy hcopy
        obtain ⟨r, -, rfl⟩ := List.mem_map.mp hcopy
        simp [RecordRow.toControl]
  case warmTraces =>
    intro t
    refine (hwarm t).trans ?_
    rw [h.warmTraces t, eq_comm (a := tier)]
    exact (hnew t .warm).symm
  case coldTraces =>
    intro t
    refine (hcold t).trans ?_
    rw [h.coldTraces t, eq_comm (a := tier)]
    exact (hnew t .cold).symm
  case warmRecords =>
    intro row
    refine (hrecords row).trans ?_
    have hwarmOf : ∀ r ∈ db.recordsOf T, (r.toControl T).toWarm = r.toWarm T := by
      intro r hr
      have := (h.mirrors r (Db.mem_knownRows.mpr (Or.inl (mem_recordsOf.mp hr).1))).record_spanId
      simp [RecordRow.toControl, SpanControlRow.toWarm, RecordRow.toWarm, this]
    constructor
    · rintro (hrow | ⟨ht, hrow⟩)
      · obtain ⟨copy, hcopy, rfl, hw⟩ := (h.warmRecords row).mp hrow
        exact ⟨copy, (Table.mem_insertAll hspans).mpr (Or.inl hcopy), rfl, (hnew _ _).mpr (Or.inl hw)⟩
      · obtain ⟨r, hr, rfl⟩ := List.mem_map.mp hrow
        exact ⟨r.toControl T, (Table.mem_insertAll hspans).mpr (Or.inr (List.mem_map_of_mem hr)), hwarmOf r hr,
          (hnew _ _).mpr (Or.inr ⟨rfl, ht.symm⟩)⟩
    · rintro ⟨copy, hcopy, rfl, hw⟩
      rcases (Table.mem_insertAll hspans).mp hcopy with hcopy | hcopy
      · rcases (hnew _ _).mp hw with hw | ⟨hk, -⟩
        · exact Or.inl ((h.warmRecords _).mpr ⟨copy, hcopy, rfl, hw⟩)
        · exact absurd (hk ▸ (h.copies copy hcopy).2) (h.hot_archived T hhot)
      · obtain ⟨r, hr, rfl⟩ := List.mem_map.mp hcopy
        rcases (hnew _ _).mp hw with ⟨c, hc, hk, -⟩ | ⟨-, ht⟩
        · exact absurd ⟨c, hc, hk⟩ (h.hot_archived T hhot)
        · exact Or.inr ⟨ht.symm, by rw [hwarmOf r hr]; exact List.mem_map_of_mem hr⟩
  case hot_archived =>
    intro t ht ha
    obtain ⟨ht, hne⟩ := isHot_deleteHotTraces.mp ht
    rcases (harchived t).mp ha with ha | rfl
    · exact h.hot_archived t ht ha
    · simp at hne
  case expired_archived =>
    intro t ht ha
    rcases (harchived t).mp ha with ha | rfl
    · exact h.expired_archived t ht ha
    · exact h.expired_hot _ ht hhot

theorem knownRows_rehydrate {K : String} {records : Table RecordRow}
    (hr : db.records.insertAll ((db.spansOf K).map (·.toRecord)) = some records) :
    (Db.knownRows { db with records, spanControl := db.spanControl.delete fun row => row.traceKey = K }).Perm
      db.knownRows := by
  have hsort : (db.spansOf K).Perm (db.spanControl.rows.filter fun row => decide (row.traceKey = K)) :=
    sortByKey_perm
  simp only [Db.knownRows, Table.rows_insertAll hr, List.append_assoc]
  refine List.Perm.append_left _ ?_
  rw [← List.map_append]
  refine List.Perm.map _ (List.perm_append_comm.trans ?_)
  exact (List.Perm.append_left _ hsort).trans
    (perm_filter_append (fun row : SpanControlRow => row.traceKey = K) db.spanControl.rows)

/-- What a restoration is given and does. -/
structure Rehydration (db : Db) (control : TraceControlRow) (traceId : String) (db₁ : Db) where
  /-- The table `records` after it. -/
  records : Table RecordRow
  /-- The table `topology` after it. -/
  topology : Table TopologyRow
  /-- The table `hot_trace_index` after it. -/
  index : Table HotTraceRow
  /-- The trace is archived. -/
  mem : control ∈ db.traceControl
  /-- The key is the trace. -/
  key : control.traceKey = traceId
  /-- It has copies. -/
  nonempty : db.spansOf traceId ≠ []
  /-- As many as the control row says. -/
  count : (db.spansOf traceId).length = control.recordCount
  /-- The records go in. -/
  insert_records : db.records.insertAll ((db.spansOf traceId).map (·.toRecord)) = some records
  /-- The links go in. -/
  insert_topology : db.topology.insertAll ((db.spansOf traceId).map (·.toTopology (db.spansOf traceId))) = some topology
  /-- The index row goes in. -/
  insert_index : db.hotTraceIndex.insert
    { traceId := traceId, latestObservedAt := control.latestObservedAt, unresolved := HasUnresolved topology traceId
      recordCount := control.recordCount, estimatedBytes := control.estimatedBytes, indexedComplete := true } =
    some index
  /-- The archive lets the trace go. -/
  result : db₁ = deleteArchivedTrace
    { db with
      records := records, topology := topology, hotTraceIndex := index
      recordsSequence := ((db.spansOf traceId).map (·.originalCommitSeq)).foldl max db.recordsSequence
      expiredSpanStates := db.expiredSpanStates.delete fun guard =>
        (db.spansOf traceId).any fun row => row.spanId = guard.spanId } traceId

theorem le_foldl_max (l : List ℕ) (a : ℕ) : a ≤ l.foldl max a := by
  induction l generalizing a with
  | nil => exact Nat.le_refl a
  | cons x l ih => exact (Nat.le_max_left a x).trans (ih (max a x))

section Restoration

variable {control : TraceControlRow} {T : String} {db₁ : Db}

theorem Rehydration.mem_records (r : Rehydration db control T db₁) {row : RecordRow} :
    row ∈ db₁.records ↔ row ∈ db.records ∨ ∃ copy ∈ db.spansOf T, copy.toRecord = row := by
  rw [r.result]
  simp only [deleteArchivedTrace, Table.mem_insertAll r.insert_records, List.mem_map]

theorem Rehydration.isHot (h : Coherent db) (r : Rehydration db control T db₁) {t : String} :
    db₁.IsHot t ↔ db.IsHot t ∨ t = T := by
  have htrace : ∀ copy ∈ db.spansOf T, copy.toRecord.traceId = T := fun copy hcopy => by
    obtain ⟨hcopy, hk⟩ := mem_spansOf.mp hcopy
    exact (h.copies copy hcopy).1.symm.trans hk
  simp only [Db.IsHot, r.mem_records]
  constructor
  · rintro ⟨row, hrow | ⟨copy, hcopy, rfl⟩, rfl⟩
    · exact Or.inl ⟨row, hrow, rfl⟩
    · exact Or.inr (htrace copy hcopy)
  · rintro (⟨row, hrow, rfl⟩ | rfl)
    · exact ⟨row, Or.inl hrow, rfl⟩
    · obtain ⟨copy, hcopy⟩ := List.exists_mem_of_ne_nil _ r.nonempty
      exact ⟨_, Or.inr ⟨copy, hcopy, rfl⟩, htrace copy hcopy⟩

/-- **An archived trace may be restored.** -/
theorem Coherent.rehydrate (h : Coherent db) (r : Rehydration db control T db₁) : Coherent db₁ := by
  have hbase := h.deleteArchivedTrace T
  have hperm := knownRows_rehydrate r.insert_records
  have harchived : db.IsArchived T := ⟨control, r.mem, r.key⟩
  have hhot := fun t => r.isHot h (t := t)
  rw [r.result] at hhot ⊢
  refine
    { mirrors := fun row hrow => h.mirrors row (hperm.subset hrow)
      sequence := fun row hrow => (h.sequence row (hperm.subset hrow)).trans (le_foldl_max _ _)
      distinct := (hperm.map _).nodup_iff.mpr h.distinct
      topology := ?topology, index := ?index, complete := ?complete, backfill := h.backfill
      observations := fun row hrow => (hhot _).mpr (Or.inl (h.observations row hrow))
      copies := hbase.copies, counts := hbase.counts, warmTraces := hbase.warmTraces, coldTraces := hbase.coldTraces
      warmRecords := hbase.warmRecords, hot_archived := ?hot_archived, expired_hot := ?expired_hot
      expired_archived := hbase.expired_archived }
  case topology =>
    intro link
    simp only [Store.deleteArchivedTrace, Table.mem_insertAll r.insert_topology, Table.mem_insertAll r.insert_records,
      List.mem_map, or_and_right, exists_or, h.topology link]
    refine or_congr Iff.rfl ⟨?_, ?_⟩
    · rintro ⟨_, ⟨copy, hcopy, rfl⟩, rfl⟩
      exact ⟨copy.toRecord, ⟨copy, hcopy, rfl⟩, rfl⟩
    · rintro ⟨_, ⟨copy, hcopy, rfl⟩, rfl⟩
      exact ⟨copy.toTopology (db.spansOf T), ⟨copy, hcopy, rfl⟩, rfl⟩
  case index =>
    intro t
    rw [hhot t, ← h.index t]
    simp only [Store.deleteArchivedTrace, Table.mem_insert r.insert_index]
    constructor
    · rintro ⟨row, hrow | rfl, rfl⟩
      · exact Or.inl ⟨row, hrow, rfl⟩
      · exact Or.inr rfl
    · rintro (⟨row, hrow, rfl⟩ | rfl)
      · exact ⟨row, Or.inl hrow, rfl⟩
      · exact ⟨_, Or.inr rfl, rfl⟩
  case complete =>
    intro row hrow
    rcases (Table.mem_insert r.insert_index).mp hrow with hrow | rfl
    · exact h.complete row hrow
    · rfl
  case hot_archived =>
    intro t ht ha
    obtain ⟨ha, hne⟩ : db.IsArchived t ∧ t ≠ T := isArchived_deleteArchivedTrace.mp ha
    rcases (hhot t).mp ht with ht | rfl
    · exact h.hot_archived t ht ha
    · exact hne rfl
  case expired_hot =>
    intro t he ht
    rcases (hhot t).mp ht with ht | rfl
    · exact h.expired_hot t he ht
    · exact h.expired_archived _ he harchived

end Restoration

variable [Sha2]

/-- A restored trace was hot, or is what a restoration made of an archived one. -/
theorem Restored.cases {o : SourceObservation} {p : PreparedObservation} {db₁ : Db}
    (hp : Prepared o p) (hr : Restored db p.state db₁) :
    (db₁ = db ∧ ¬ db.IsArchived p.state.traceId.asStr) ∨ ∃ control, db.archived p.state = some control ∧
      ¬ ArchivedDuplicate db p.state ∧ Nonempty (Rehydration db control p.state.traceId.asStr db₁) := by
  cases hr with
  | hot hn =>
    refine Or.inl ⟨rfl, ?_⟩
    rintro ⟨row, hrow, hk⟩
    exact Table.find?_eq_none.mp hn row hrow (by rw [hk, hp.hash_traceId])
  | @rehydrated control _ hc hd hr =>
    obtain ⟨hmem, hk⟩ := Table.mem_of_find? hc
    rw [hp.hash_traceId] at hk
    obtain ⟨records, topology, index, first, hfirst, -, hrecords, hcount, htopology, hindex, rfl⟩ := rehydrate_ok hr
    rw [hk] at hfirst hrecords hcount htopology
    refine Or.inr ⟨control, hc, hd, ⟨⟨records, topology, index, hmem, hk, ?_, hcount, hrecords, htopology, hindex, ?_⟩⟩⟩
    · exact List.ne_nil_of_mem hfirst
    · simp only [deleteArchivedTrace, hk]

/-! ### Commits -/

/-- **An observation of a trace that is neither archived nor expired may be committed.** -/
theorem Coherent.commit (h : Coherent db) {o : SourceObservation} {p : PreparedObservation} (hp : Prepared o p) (harchived : ¬ db.IsArchived p.state.traceId.asStr)
    (hexpired : ¬ db.IsExpired p.state.traceId.asStr) (c : Commit db o p) : Coherent c.result := by
  have hm : ∀ row ∈ db.records, row.Mirrors := fun row hrow => h.mirrors row (Db.mem_knownRows.mpr (Or.inl hrow))
  obtain ⟨row, hs⟩ := c.exists_stored hm hp
  obtain ⟨linked, hl⟩ := c.exists_linked hm (fun t ht => (h.topology t.link).mp ⟨t, ht, rfl⟩) hp
  obtain ⟨hbackfill, hindex⟩ := c.mem_index hm h.backfill h.complete
  have hspan := (c.reduction.identity hm).spanId
  have htrace := (c.reduction.identity hm).traceId
  have hhot : ∀ t, c.result.IsHot t ↔ db.IsHot t ∨ t = p.state.traceId.asStr := by
    intro t
    simp only [Db.IsHot, Commit.result, hs.mem]
    constructor
    · rintro ⟨r, ⟨hr, -⟩ | rfl, rfl⟩
      · exact Or.inl ⟨r, hr, rfl⟩
      · exact Or.inr hs.traceId
    · rintro (⟨r, hr, rfl⟩ | rfl)
      · by_cases hrs : r.spanId = p.state.spanId.asStr
        · -- The row of the span is replaced, in its trace.
          refine ⟨row, Or.inr rfl, ?_⟩
          rcases hs.rows with ⟨hnone, -⟩ | ⟨old, hold, rfl, -⟩
          · exact absurd hrs (Table.find?_eq_none.mp hnone r hr)
          · obtain rfl := Option.some.inj ((recordOf_eq hr hrs).symm.trans hold)
            rfl
        · exact ⟨r, Or.inl ⟨hr, hrs⟩, rfl⟩
      · exact ⟨row, Or.inr rfl, hs.traceId⟩
  refine
    { mirrors := ?mirrors, sequence := ?sequence, distinct := ?distinct, topology := ?topology, index := ?index
      complete := ?complete, backfill := hbackfill, observations := ?observations
      copies := h.copies, counts := h.counts, warmTraces := h.warmTraces, coldTraces := h.coldTraces
      warmRecords := h.warmRecords, hot_archived := ?hot_archived, expired_hot := ?expired_hot
      expired_archived := h.expired_archived }
  case mirrors =>
    intro r hr
    rcases Db.mem_knownRows.mp hr with hr | hr
    · rcases hs.mem.mp hr with ⟨hr, -⟩ | rfl
      · exact hm r hr
      · exact hs.mirrors
    · exact h.mirrors r (Db.mem_knownRows.mpr (Or.inr hr))
  case sequence =>
    intro r hr
    have hle : ∀ r ∈ db.knownRows, r.commitSeq ≤ db.nextCommitSeq := fun r hr =>
      (h.sequence r hr).trans (Nat.le_succ _)
    rcases Db.mem_knownRows.mp hr with hr | hr
    · rcases hs.mem.mp hr with ⟨hr, -⟩ | rfl
      · exact hle r (Db.mem_knownRows.mpr (Or.inl hr))
      · rcases hs.rows with ⟨-, hseq, -⟩ | ⟨old, hold, rfl, -⟩
        · exact hseq.le
        · exact hle old (Db.mem_knownRows.mpr (Or.inl (recordOf_mem hold).1))
    · exact hle r (Db.mem_knownRows.mpr (Or.inr hr))
  case distinct =>
    rcases hs.rows with ⟨-, hseq, hrows⟩ | ⟨old, hold, hrow, hrows⟩
    · have hperm : (c.result.knownRows).Perm (row :: db.knownRows) := by
        simp only [Db.knownRows, Commit.result, hrows, List.append_assoc, List.singleton_append]
        exact List.perm_middle
      refine (hperm.map _).nodup_iff.mpr (List.nodup_cons.mpr ⟨?_, h.distinct⟩)
      rintro hmem
      obtain ⟨r, hr, he⟩ := List.mem_map.mp hmem
      have hle := h.sequence r hr
      have hlt : db.recordsSequence < db.nextCommitSeq := Nat.lt_succ_self _
      have he : r.commitSeq = row.commitSeq := he
      omega
    · have hseqs : c.result.knownRows.map (·.commitSeq) = db.knownRows.map (·.commitSeq) := by
        simp only [Db.knownRows, Commit.result, hrows, List.map_append, List.map_map]
        refine congrArg (· ++ _) (List.map_congr_left fun r hr => ?_)
        simp only [Function.comp]
        split
        · rename_i hrs
          rw [hrow, Table.eq_of_clash (recordOf_mem hold).1 hr (Or.inr ((recordOf_mem hold).2.trans hrs.symm))]
        · rfl
      rw [hseqs]
      exact h.distinct
  case topology =>
    intro link
    simp only [Commit.result, link_resolveChildren, hl.mem, hs.mem]
    constructor
    · rintro ⟨t, ⟨ht, hne⟩ | rfl, rfl⟩
      · obtain ⟨r, hr, he⟩ := (h.topology t.link).mp ⟨t, ht, rfl⟩
        exact ⟨r, Or.inl ⟨hr, fun hrs => hne ((congrArg Link.spanId he).symm.trans hrs)⟩, he⟩
      · exact ⟨row, Or.inr rfl, hs.link.trans hl.link.symm⟩
    · rintro ⟨r, ⟨hr, hne⟩ | rfl, rfl⟩
      · obtain ⟨t, ht, he⟩ := (h.topology r.link).mpr ⟨r, hr, rfl⟩
        exact ⟨t, Or.inl ⟨ht, fun hts => hne ((congrArg Link.spanId he).symm.trans hts)⟩, he⟩
      · exact ⟨linked, Or.inr rfl, hl.link.trans hs.link.symm⟩
  case index =>
    intro t
    rw [hhot t, ← h.index t]
    simp only [Commit.result, hindex]
    constructor
    · rintro ⟨i, ⟨hi, -⟩ | rfl, rfl⟩
      · exact Or.inl ⟨i, hi, rfl⟩
      · exact Or.inr c.indexRow_traceId
    · rintro (⟨i, hi, rfl⟩ | rfl)
      · by_cases hit : i.traceId = p.state.traceId.asStr
        · exact ⟨_, Or.inr rfl, c.indexRow_traceId.trans hit.symm⟩
        · exact ⟨i, Or.inl ⟨hi, hit⟩, rfl⟩
      · exact ⟨_, Or.inr rfl, c.indexRow_traceId⟩
  case complete =>
    intro i hi
    rcases (hindex i).mp hi with ⟨hi, -⟩ | rfl
    · exact h.complete i hi
    · exact c.indexRow_complete
  case observations =>
    intro r hr
    rw [hhot]
    rcases (Table.mem_insert c.insert_observation).mp hr with hr | rfl
    · exact Or.inl (h.observations r hr)
    · exact Or.inr (by rw [observationRow, htrace])
  case hot_archived =>
    intro t ht
    rcases (hhot t).mp ht with ht | rfl
    · exact h.hot_archived t ht
    · exact harchived
  case expired_hot =>
    intro t he ht
    rcases (hhot t).mp ht with ht | rfl
    · exact h.expired_hot t he ht
    · exact hexpired he

/-! ### Histories -/

omit [Sha2] in
/-- **A warm trace may go to the archive.** -/
theorem Coherent.cool (h : Coherent db) {K : String} (hk : db.IsInTier K .warm) {coldTraces : Table ColdTraceRow}
    (hcold : ∀ t, (∃ row ∈ coldTraces, row.traceKey = t) ↔ (∃ row ∈ db.coldTraces, row.traceKey = t) ∨ t = K) :
    Coherent { db with
      traceControl := db.traceControl.modify (fun row => row.traceKey = K ∧ row.tier = .warm)
        (fun row => { row with tier := .cold }) (fun _ _ => Iff.rfl) (fun _ _ => Iff.rfl)
      warmTraces := db.warmTraces.delete fun row => row.traceKey = K
      warmRecords := db.warmRecords.delete fun row => row.traceKey = K
      coldTraces } := by
  obtain ⟨control, hcontrol, hkey, hwarm⟩ := hk
  set cooled := db.traceControl.modify (fun row => row.traceKey = K ∧ row.tier = .warm)
    (fun row => { row with tier := .cold }) (fun _ _ => Iff.rfl) (fun _ _ => Iff.rfl) with hcooled
  -- Under the key stands one control row, and it is the one that changes.
  have honly : ∀ row ∈ db.traceControl, row.traceKey = K → row = control := fun row hrow he =>
    Table.eq_of_clash hrow hcontrol (he.trans hkey.symm)
  have hmem : ∀ row, row ∈ cooled ↔ (row ∈ db.traceControl ∧ row.traceKey ≠ K) ∨ row = { control with tier := .cold } := by
    intro row
    rw [hcooled, Table.mem_modify]
    constructor
    · rintro ⟨x, hx, rfl⟩
      split
      · rename_i hxk
        rw [honly x hx hxk.1]
        exact Or.inr rfl
      · rename_i hxk
        exact Or.inl ⟨hx, fun he => hxk ⟨he, by rw [honly x hx he]; exact hwarm⟩⟩
    · rintro (⟨hrow, hne⟩ | rfl)
      · exact ⟨row, hrow, if_neg fun he => hne he.1⟩
      · exact ⟨control, hcontrol, if_pos ⟨hkey, hwarm⟩⟩
  have harchived : ∀ t, (∃ row ∈ cooled, row.traceKey = t) ↔ db.IsArchived t := by
    intro t
    simp only [hmem, Db.IsArchived]
    constructor
    · rintro ⟨row, ⟨hrow, -⟩ | rfl, rfl⟩
      · exact ⟨row, hrow, rfl⟩
      · exact ⟨control, hcontrol, rfl⟩
    · rintro ⟨row, hrow, rfl⟩
      by_cases he : row.traceKey = K
      · exact ⟨_, Or.inr rfl, by rw [honly row hrow he]⟩
      · exact ⟨row, Or.inl ⟨hrow, he⟩, rfl⟩
  have htier : ∀ t tier, (∃ row ∈ cooled, row.traceKey = t ∧ row.tier = tier) ↔
      (db.IsInTier t tier ∧ t ≠ K) ∨ t = K ∧ tier = .cold := by
    intro t tier
    simp only [hmem, Db.IsInTier]
    constructor
    · rintro ⟨row, ⟨hrow, hne⟩ | rfl, rfl, rfl⟩
      · exact Or.inl ⟨⟨row, hrow, rfl, rfl⟩, hne⟩
      · exact Or.inr ⟨hkey, rfl⟩
    · rintro (⟨⟨row, hrow, rfl, rfl⟩, hne⟩ | ⟨rfl, rfl⟩)
      · exact ⟨row, Or.inl ⟨hrow, hne⟩, rfl, rfl⟩
      · exact ⟨_, Or.inr rfl, hkey, rfl⟩
  refine
    { mirrors := h.mirrors, sequence := h.sequence, distinct := h.distinct, topology := h.topology, index := h.index
      complete := h.complete, backfill := h.backfill, observations := h.observations, copies := ?copies
      counts := ?counts, warmTraces := ?warmTraces, coldTraces := ?coldTraces, warmRecords := ?warmRecords
      hot_archived := ?hot_archived, expired_hot := h.expired_hot, expired_archived := ?expired_archived }
  case copies => exact fun row hrow => ⟨(h.copies row hrow).1, (harchived _).mpr (h.copies row hrow).2⟩
  case counts =>
    intro row hrow
    rcases (hmem row).mp hrow with ⟨hrow, -⟩ | rfl
    · exact h.counts row hrow
    · exact h.counts control hcontrol
  case warmTraces =>
    intro t
    refine Iff.trans ?_ (htier t .warm).symm
    simp only [Table.mem_delete, ← h.warmTraces t, reduceCtorEq, and_false, or_false]
    constructor
    · rintro ⟨row, ⟨hrow, hne⟩, rfl⟩
      exact ⟨⟨row, hrow, rfl⟩, hne⟩
    · rintro ⟨⟨row, hrow, rfl⟩, hne⟩
      exact ⟨row, ⟨hrow, hne⟩, rfl⟩
  case coldTraces =>
    intro t
    refine (hcold t).trans (Iff.trans ?_ (htier t .cold).symm)
    rw [h.coldTraces t]
    by_cases he : t = K <;> simp [he]
  case warmRecords =>
    intro row
    rw [Table.mem_delete, h.warmRecords row]
    constructor
    · rintro ⟨⟨copy, hcopy, rfl, ht⟩, hne⟩
      exact ⟨copy, hcopy, rfl, (htier _ _).mpr (Or.inl ⟨ht, hne⟩)⟩
    · rintro ⟨copy, hcopy, rfl, ht⟩
      rcases (htier _ _).mp ht with ⟨ht, hne⟩ | ⟨-, ht⟩
      · exact ⟨⟨copy, hcopy, rfl, ht⟩, hne⟩
      · cases ht
  case hot_archived => exact fun t ht ha => h.hot_archived t ht ((harchived t).mp ha)
  case expired_archived => exact fun t ht ha => h.expired_archived t ht ((harchived t).mp ha)

/-- The candidate is in its tier. -/
def InItsTier (db : Db) (candidate : Candidate) : Prop :=
  match candidate.tier with
  | .hot => db.IsHot candidate.identity
  | .warm => db.IsInTier candidate.identity .warm
  | .cold => db.IsInTier candidate.identity .cold

omit [Sha2] in
theorem Coherent.inItsTier (h : Coherent db) {candidate : Candidate} {row : WithBot ℕ × Bool}
    (hrow : currentRow db candidate = some row) : InItsTier db candidate := by
  obtain ⟨tier, identity, latest, unresolved, cursor⟩ := candidate
  cases tier with
  | hot =>
    obtain ⟨i, hi, -⟩ := Option.map_eq_some_iff.mp hrow
    obtain ⟨hmem, hid, -⟩ := Table.mem_of_find? hi
    exact (h.index _).mp ⟨i, hmem, hid⟩
  | warm =>
    obtain ⟨w, hw, -⟩ := Option.map_eq_some_iff.mp hrow
    obtain ⟨hmem, hid⟩ := Table.mem_of_find? hw
    exact (h.warmTraces _).mp ⟨w, hmem, hid⟩
  | cold =>
    obtain ⟨c, hc, -⟩ := Option.map_eq_some_iff.mp hrow
    obtain ⟨hmem, hid⟩ := Table.mem_of_find? hc
    exact (h.coldTraces _).mp ⟨c, hmem, hid⟩

/-- The key of a hot trace is the trace. -/
theorem Coherent.hash_of_isHot (h : Coherent db) {t : String} (ht : db.IsHot t) : hashOpaqueIdentifier t = t := by
  obtain ⟨row, hrow, rfl⟩ := ht
  exact hashOpaqueIdentifier_of_private (h.mirrors row (Db.mem_knownRows.mpr (Or.inl hrow))).isPrivate

omit [Sha2] in
theorem insertColdTrace_keys {candidate : Candidate} {traceKey : String} {now : ℕ} {records : List DurableRecordV1}
    {coldTraces : Table ColdTraceRow} (h : insertColdTrace db candidate traceKey now records = .ok coldTraces)
    (t : String) : (∃ row ∈ coldTraces, row.traceKey = t) ↔ (∃ row ∈ db.coldTraces, row.traceKey = t) ∨ t = traceKey := by
  rw [insertColdTrace, ofOption_eq_ok] at h
  simp only [Table.mem_insert h]
  constructor
  · rintro ⟨row, hrow | rfl, rfl⟩
    · exact Or.inl ⟨row, hrow, rfl⟩
    · exact Or.inr rfl
  · rintro (⟨row, hrow, rfl⟩ | rfl)
    · exact ⟨row, Or.inl hrow, rfl⟩
    · exact ⟨_, Or.inr rfl, rfl⟩

/-- **Every move keeps the invariant.** -/
theorem Coherent.moved (h : Coherent db) {candidate : Candidate} {now : ℕ} {transition : Transition}
    (ht : InItsTier db candidate) (hmv : Moved db candidate now transition db') : Coherent db' := by
  cases hmv with
  | hotToWarm hhot ha hw hr =>
    simp only [InItsTier, hhot] at ht
    rw [h.hash_of_isHot ht] at ha hw hr
    refine h.archive ht ha (fun t => ?_) (fun t => by simp) (fun row => ?_)
    · simp only [Table.mem_insert hw, and_true]
      constructor
      · rintro ⟨row, hrow | rfl, rfl⟩
        · exact Or.inl ⟨row, hrow, rfl⟩
        · exact Or.inr rfl
      · rintro (⟨row, hrow, rfl⟩ | rfl)
        · exact ⟨row, Or.inl hrow, rfl⟩
        · exact ⟨_, Or.inr rfl, rfl⟩
    · simp only [Table.mem_insertAll hr, true_and]
  | hotToCold hhot ha hc =>
    simp only [InItsTier, hhot] at ht
    rw [h.hash_of_isHot ht] at ha hc
    exact h.archive ht ha (fun t => by simp) (fun t => by simpa using insertColdTrace_keys hc t) (fun row => by simp)
  | warmToCold hwarm hc =>
    simp only [InItsTier, hwarm] at ht
    exact h.cool ht (insertColdTrace_keys hc)
  | purgeHot hhot hne =>
    simp only [InItsTier, hhot] at ht
    rw [h.hash_of_isHot ht]
    refine Coherent.congr (Coherent.expire (h.deleteHotTraces [candidate.identity]) (fun row => mem_insertTraceGuard)
      (fun hd => ?_) (h.hot_archived _ ht)) rfl rfl rfl rfl rfl rfl rfl rfl rfl rfl rfl rfl
    simpa using (isHot_deleteHotTraces.mp hd).2
  | purgeWarm hwarm =>
    simp only [InItsTier, hwarm] at ht
    obtain ⟨control, hcontrol, hk, hw⟩ := ht
    have harchived : db.IsArchived candidate.identity := ⟨control, hcontrol, hk⟩
    refine Coherent.congr (Coherent.expire (h.deleteArchivedTrace candidate.identity) (fun row => mem_insertTraceGuard)
      (fun hd => h.hot_archived _ hd harchived) (fun ha => (isArchived_deleteArchivedTrace.mp ha).2 rfl))
      rfl rfl rfl rfl rfl rfl rfl rfl ?_ rfl rfl rfl
    refine (Table.delete_eq_self fun row hrow hrk => ?_).symm
    obtain ⟨control', hcontrol', hk', hc'⟩ := (h.coldTraces _).mp ⟨row, hrow, hrk⟩
    rw [Table.eq_of_clash hcontrol' hcontrol (hk'.trans hk.symm), hw] at hc'
    cases hc'
  | purgeCold hcold =>
    simp only [InItsTier, hcold] at ht
    obtain ⟨control, hcontrol, hk, hc⟩ := ht
    have harchived : db.IsArchived candidate.identity := ⟨control, hcontrol, hk⟩
    have hnot : ¬ db.IsInTier candidate.identity .warm := by
      rintro ⟨control', hcontrol', hk', hw'⟩
      rw [Table.eq_of_clash hcontrol' hcontrol (hk'.trans hk.symm), hc] at hw'
      cases hw'
    refine Coherent.congr (Coherent.expire (h.deleteArchivedTrace candidate.identity) (fun row => mem_insertTraceGuard)
      (fun hd => h.hot_archived _ hd harchived) (fun ha => (isArchived_deleteArchivedTrace.mp ha).2 rfl))
      rfl rfl rfl rfl rfl rfl ?_ ?_ rfl rfl rfl rfl
    · exact (Table.delete_eq_self fun row hrow hrk => hnot ((h.warmTraces _).mp ⟨row, hrow, hrk⟩)).symm
    · refine (Table.delete_eq_self fun row hrow hrk => ?_).symm
      obtain ⟨copy, -, rfl, hw⟩ := (h.warmRecords row).mp hrow
      exact hnot (hrk ▸ hw)

/-- Every accepted observation keeps the invariant. -/
theorem Coherent.exit (h : Coherent db) {o : SourceObservation} {p : PreparedObservation} (hp : Prepared o p)
    (he : IngestExit db o p db') : Coherent db' := by
  have hrestored : ∀ {db₁}, Restored db p.state db₁ → Coherent db₁ ∧ ¬ db₁.IsArchived p.state.traceId.asStr := by
    intro db₁ hr
    rcases hr.cases hp with ⟨rfl, hn⟩ | ⟨control, -, -, ⟨r⟩⟩
    · exact ⟨h, hn⟩
    · refine ⟨h.rehydrate r, ?_⟩
      rw [r.result]
      exact fun ha => (isArchived_deleteArchivedTrace.mp ha).2 rfl
  cases he with
  | replayed => exact h
  | archived _ _ hl => exact h.ledger hl
  | settled _ hr _ hl => exact (hrestored hr).1.ledger hl
  | committed _ hr hu c =>
    obtain ⟨h₁, harchived⟩ := hrestored hr
    refine h₁.commit hp harchived ?_ c
    rintro ⟨row, hrow, hk⟩
    exact hu.trace ⟨row, hrow, hk.trans hp.hash_traceId.symm⟩

theorem Coherent.ingestItem (h : Coherent db) {item : StoreBatchItem} {status : IngestStatus}
    (hi : Store.ingestItem db item = .ok (status, db')) : Coherent db' := by
  cases item with
  | observation o =>
    obtain ⟨p, hp, he⟩ := ingestInTransaction_ok hi
    exact h.exit (prepareObservation_ok hp) he
  | disposition c disposition code hash => exact h.ledger (ingestDispositionInTransaction_ledger hi)

/-- **Every transaction keeps the invariant.** -/
theorem Coherent.commit_txn (h : Coherent db) {t : Txn} (ht : t.commit db = .ok db') : Coherent db' := by
  cases t with
  | batch items =>
    obtain ⟨⟨statuses, db₁⟩, hb, rfl⟩ := map_eq_ok.mp ht
    exact ingestOrderedBatch_induction (fun db item status db' _ hi (h : Coherent db) => h.ingestItem hi) alongBatch_true hb h
  | backfill request =>
    obtain ⟨⟨blocked, db₁⟩, hb, rfl⟩ := map_eq_ok.mp ht
    rw [backfillHotTraceIndex, h.backfill] at hb
    cases hb
    exact h
  | maintain request result candidate outside =>
    obtain ⟨⟨result', db₁⟩, hm, rfl⟩ := map_eq_ok.mp ht
    change Coherent db₁
    rcases maintainCandidate_ok hm with rfl | ⟨⟨current, transition, moved, epoch, latest, hrow, rfl, -, hmove, -, rfl⟩⟩
    · exact h.congr rfl rfl rfl rfl rfl rfl rfl rfl rfl rfl rfl rfl
    · have htier : InItsTier db { candidate with latestObservedAt := latest, unresolved := false } :=
        (h.inItsTier hrow :)
      exact (h.moved htier hmove).congr rfl rfl rfl rfl rfl rfl rfl rfl rfl rfl rfl rfl
  | retention call archive retired =>
    obtain ⟨⟨outcome, db₁⟩, hr, rfl⟩ := map_eq_ok.mp ht
    change Coherent db₁
    rcases applyRetention_ok hr with rfl | ⟨selection, -, ⟨receipts, epoch, -, -, rfl⟩⟩
    · exact h
    · refine Coherent.deleteHotTraces ?_ selection.traceIds
      exact h.congr rfl rfl rfl rfl rfl rfl rfl rfl rfl rfl rfl rfl
  | finishReceipt planId =>
    cases ht
    exact h.congr rfl rfl rfl rfl rfl rfl rfl rfl rfl rfl rfl rfl
  | rebuildProjection =>
    cases ht
    exact h.congr rfl rfl rfl rfl rfl rfl rfl rfl rfl rfl rfl rfl
  | invalidateReport =>
    simp only [Txn.commit, Store.invalidateReport, bind_eq_ok, pure_eq_ok] at ht
    obtain ⟨_, -, rfl⟩ := ht
    exact h.congr rfl rfl rfl rfl rfl rfl rfl rfl rfl rfl rfl rfl
  | acknowledge generation =>
    obtain ⟨⟨done, db₁⟩, ha, rfl⟩ := map_eq_ok.mp ht
    simp only [acknowledgeReportGeneration, bind_eq_ok] at ha
    obtain ⟨⟨⟩, -, ha⟩ := ha
    split at ha
    · cases ha
      exact h
    · cases ha
      exact h.congr rfl rfl rfl rfl rfl rfl rfl rfl rfl rfl rfl rfl

theorem Coherent.step (h : Coherent db) (t : Txn) : Coherent (t.step db) :=
  Txn.step_induction h fun _ ht => h.commit_txn ht

/-- **The tables agree in every store that a history leads to.** -/
theorem coherent_history (ts : List Txn) : Coherent (history ts) :=
  invariant_after (C := fun _ _ => True) (fun _ t h _ => h.step t) coherent_empty (along_true ts)

end AgentObservability.Store
