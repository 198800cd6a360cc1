import AgentObservability.Store.Turns
import Mathlib.Data.Set.Insert

/-!
# Histories of turns

What a history made of turns in streams of their own may have left in a store:
`Within` bounds the streams, spans, expired traces and events that the tables
name, and each kind of step keeps it. A turn of a new stream and span then fits
(`Within.turnFits`), so the histories that serve as examples are built step by
step, without a look at the tables.
-/

namespace AgentObservability.Store

open Domain Contracts Foundation

/-- The private identifiers with the given numbers. -/
def ids (s : Set Number) : Set String := (fun n => (numberedId n).asStr) '' s

@[simp] theorem mem_ids {s : Set Number} {n : Number} : (numberedId n).asStr ∈ ids s ↔ n ∈ s := by
  constructor
  · rintro ⟨m, hm, he⟩
    rwa [← numberedId_inj.mp he]
  · exact fun h => ⟨n, h, rfl⟩

theorem ids_mono {s t : Set Number} (h : s ⊆ t) : ids s ⊆ ids t := Set.image_mono h

theorem ne_of_mem_ids {s : Set Number} {n : Number} {i : String} (hi : i ∈ ids s) (hn : n ∉ s) :
    i ≠ (numberedId n).asStr := by
  rintro rfl
  exact hn (mem_ids.mp hi)

/-- A store names no other streams, spans, expired traces and events than these. -/
structure Within (db : Db) (streams spans expired : Set Number) (events : Set String) : Prop where
  /-- The streams of the inputs. -/
  inputs : ∀ row ∈ db.sourceInputs, row.generation ∈ ids streams
  /-- The streams of the cursors. -/
  cursors : ∀ row ∈ db.sourceCursors, row.generation ∈ ids streams
  /-- The streams of the dispositions. -/
  dispositions : ∀ row ∈ db.adapterDispositions, row.generation ∈ ids streams
  /-- The streams of the observations. -/
  observations : ∀ row ∈ db.observations, row.generation ∈ ids streams
  /-- Their events. -/
  observed : ∀ row ∈ db.observations, row.eventId ∈ events
  /-- The events of the outcomes. -/
  outcomes : ∀ row ∈ db.deliveryOutcomes, row.eventId ∈ events
  /-- The spans that are known. -/
  known : ∀ row ∈ db.knownRows, row.spanId ∈ ids spans
  /-- Their parents. -/
  parents : ∀ row ∈ db.knownRows, ∀ p ∈ row.parentSpanId, p ∈ ids spans
  /-- The spans with a guard. -/
  guards : ∀ row ∈ db.expiredSpanStates, row.spanId ∈ ids spans
  /-- The traces with a guard. -/
  gone : ∀ row ∈ db.expiredTraceStates, row.traceKey ∈ ids expired
  /-- No size of the index is negative. -/
  index : ∀ row ∈ db.hotTraceIndex, 0 ≤ row.estimatedBytes

variable {db db' : Db} {streams spans expired : Set Number} {events : Set String}
variable {stream trace span start : Number} {parent : Option Number}

theorem within_empty : Within Db.empty ∅ ∅ ∅ ∅ := by
  constructor <;> simp [Db.empty, Db.knownRows]

theorem Within.mono {streams' spans' expired' : Set Number} {events' : Set String}
    (h : Within db streams spans expired events) (hstreams : streams ⊆ streams') (hspans : spans ⊆ spans')
    (hexpired : expired ⊆ expired') (hevents : events ⊆ events') : Within db streams' spans' expired' events' where
  inputs row hrow := ids_mono hstreams (h.inputs row hrow)
  cursors row hrow := ids_mono hstreams (h.cursors row hrow)
  dispositions row hrow := ids_mono hstreams (h.dispositions row hrow)
  observations row hrow := ids_mono hstreams (h.observations row hrow)
  observed row hrow := hevents (h.observed row hrow)
  outcomes row hrow := hevents (h.outcomes row hrow)
  known row hrow := ids_mono hspans (h.known row hrow)
  parents row hrow p hp := ids_mono hspans (h.parents row hrow p hp)
  guards row hrow := ids_mono hspans (h.guards row hrow)
  gone row hrow := ids_mono hexpired (h.gone row hrow)
  index := h.index

/-- A store without observations and outcomes names no event. -/
theorem Within.eventless (h : Within db streams spans expired events) (hobs : ∀ row, row ∉ db.observations)
    (hout : ∀ row, row ∉ db.deliveryOutcomes) : Within db streams spans expired ∅ where
  inputs := h.inputs
  cursors := h.cursors
  dispositions := h.dispositions
  observations := h.observations
  observed row hrow := absurd hrow (hobs row)
  outcomes row hrow := absurd hrow (hout row)
  known := h.known
  parents := h.parents
  guards := h.guards
  gone := h.gone
  index := h.index

/-- The ledger of the report and of the passes has no part in it. -/
theorem Within.report (h : Within db streams spans expired events) (dirty : Bool) (generation epoch : ℕ)
    (cursor : LifecycleCursor) (receipts : Table ReceiptRow) :
    Within { db with
      projectionDirty := dirty, reportGeneration := generation, reportVisibilityEpoch := epoch
      lifecycleScanCursor := cursor, retentionReceipts := receipts } streams spans expired events :=
  ⟨h.inputs, h.cursors, h.dispositions, h.observations, h.observed, h.outcomes, h.known, h.parents, h.guards, h.gone,
    h.index⟩

/-! ### Turns -/

section Turns

variable [Sha2]

/-- **A turn of a new stream and a new span fits**, if its parent has no record. -/
theorem Within.turnFits (h : Within db streams spans expired events) (hdb : Coherent db) (hstream : stream ∉ streams)
    (hspan : span ∉ spans) (htrace : trace ∉ expired)
    (hevent : stableEventId (turnOf stream trace span parent start) ∉ events) (hne : parent ≠ some span)
    (hparent : ∀ p ∈ parent, ∀ row ∈ db.records, row.spanId ≠ (numberedId p).asStr)
    (hg : db.reportGeneration + 1 < 2 ^ 64) : TurnFits db stream trace span parent start where
  inputs row hrow := ne_of_mem_ids (h.inputs row hrow) hstream
  cursors row hrow := ne_of_mem_ids (h.cursors row hrow) hstream
  dispositions row hrow := ne_of_mem_ids (h.dispositions row hrow) hstream
  observations row hrow := ne_of_mem_ids (h.observations row hrow) hstream
  events row hrow he := hevent (he ▸ h.observed row hrow)
  outcomes row hrow he := hevent (he ▸ h.outcomes row hrow)
  expired := by
    rintro ⟨row, hrow, hk⟩
    exact ne_of_mem_ids (h.gone row hrow) htrace hk
  record row hrow := ne_of_mem_ids (h.known row (Db.mem_knownRows.mpr (Or.inl hrow))) hspan
  guard row hrow := ne_of_mem_ids (h.guards row hrow) hspan
  children t ht hp := by
    obtain ⟨row, hrow, hl⟩ := (hdb.topology t.link).mp ⟨t, ht, rfl⟩
    have : row.parentSpanId = some (numberedId span).asStr := (congrArg Link.parentSpanId hl).trans hp
    exact hspan (mem_ids.mp (h.parents row (Db.mem_knownRows.mpr (Or.inl hrow)) _ this))
  parent_ne := hne
  parent := hparent
  index := h.index
  generation := hg

theorem Within.turn (h : Within db streams spans expired events)
    (hs : TurnStored db (turnOf stream trace span parent start) db') (hparent : ∀ p ∈ parent, p ∈ spans) :
    Within db' (insert stream streams) (insert span spans) expired
      (insert (stableEventId (turnOf stream trace span parent start)) events) := by
  have hw := h.mono (Set.subset_insert stream streams) (Set.subset_insert span spans) (Set.Subset.refl expired)
    (Set.subset_insert (stableEventId (turnOf stream trace span parent start)) events)
  have hstream : (numberedId stream).asStr ∈ ids (insert stream streams) := mem_ids.mpr (Set.mem_insert _ _)
  have hgeneration : privateSourceGeneration (turnOf stream trace span parent start).checkpoint ∈
      ids (insert stream streams) := by
    rw [privateSourceGeneration_turnOf]
    exact hstream
  have hknown : ∀ row ∈ db'.knownRows, row ∈ db.knownRows ∨
      row = turnRow db.nextCommitSeq (turnOf stream trace span parent start) := by
    intro row hrow
    rw [Db.mem_knownRows, hs.spanControl, hs.records, or_right_comm, ← Db.mem_knownRows] at hrow
    exact hrow
  refine
    { inputs := fun row hrow => ?_, cursors := fun row hrow => ?_, dispositions := fun row hrow => ?_
      observations := fun row hrow => ?_, observed := fun row hrow => ?_, outcomes := fun row hrow => ?_
      known := fun row hrow => ?_, parents := fun row hrow p hp => ?_, guards := fun row hrow => ?_
      gone := fun row hrow => ?_, index := hs.index_nonneg }
  · rcases (hs.inputs row).mp hrow with hrow | rfl
    · exact hw.inputs row hrow
    · exact hgeneration
  · rcases hs.cursors row hrow with hrow | hrow
    · exact hw.cursors row hrow
    · rw [hrow]
      exact hstream
  · rw [hs.adapterDispositions] at hrow
    exact hw.dispositions row hrow
  · rcases (hs.observations row).mp hrow with hrow | rfl
    · exact hw.observations row hrow
    · exact hgeneration
  · rcases (hs.observations row).mp hrow with hrow | rfl
    · exact hw.observed row hrow
    · exact Set.mem_insert _ _
  · rcases (hs.outcomes row).mp hrow with hrow | rfl
    · exact hw.outcomes row hrow
    · exact Set.mem_insert _ _
  · rcases hknown row hrow with hrow | rfl
    · exact hw.known row hrow
    · exact mem_ids.mpr (Set.mem_insert _ _)
  · rcases hknown row hrow with hrow | rfl
    · exact hw.parents row hrow p hp
    · obtain ⟨i, hi, rfl⟩ := Option.map_eq_some_iff.mp hp
      obtain ⟨n, hn, rfl⟩ := Option.map_eq_some_iff.mp hi
      exact mem_ids.mpr (Set.mem_insert_of_mem _ (hparent n hn))
  · rw [hs.expiredSpanStates] at hrow
    exact hw.guards row hrow
  · rw [hs.expiredTraceStates] at hrow
    exact hw.gone row hrow

end Turns

/-! ### Passes -/

theorem Within.deleteHotTraces (h : Within db streams spans expired events) (traceIds : List String) :
    Within (deleteHotTraces db traceIds) streams spans expired events where
  inputs row hrow := h.inputs row (Table.mem_delete.mp hrow).1
  cursors := h.cursors
  dispositions := h.dispositions
  observations row hrow := h.observations row (Table.mem_delete.mp hrow).1
  observed row hrow := h.observed row (Table.mem_delete.mp hrow).1
  outcomes row hrow := h.outcomes row (Table.mem_delete.mp hrow).1
  known row hrow := h.known row ((knownRows_deleteHotTraces db traceIds).subset hrow)
  parents row hrow := h.parents row ((knownRows_deleteHotTraces db traceIds).subset hrow)
  guards := h.guards
  gone := h.gone
  index row hrow := h.index row (Table.mem_delete.mp hrow).1

theorem mem_replaceSpanGuards {guards : Table SpanGuardRow} {rows : List SpanGuardRow} {row : SpanGuardRow}
    (h : row ∈ replaceSpanGuards guards rows) : row ∈ guards ∨ row ∈ rows := by
  have hfold : ∀ {rows : List SpanGuardRow} {guards : Table SpanGuardRow}, row ∈ rows.foldl Table.replace guards →
      row ∈ guards ∨ row ∈ rows := by
    intro rows
    induction rows with
    | nil => exact fun h => Or.inl h
    | cons r rows ih =>
      intro guards h
      rcases ih h with h | h
      · rcases Table.mem_replace.mp h with ⟨h, -⟩ | rfl
        · exact Or.inl h
        · exact Or.inr List.mem_cons_self
      · exact Or.inr (List.mem_cons_of_mem _ h)
  exact hfold (Table.mem_of_keepNewest h)

/-- The guards of records name their spans. -/
theorem Within.guarded (h : Within db streams spans expired events) {guards : Table SpanGuardRow}
    {added : List SpanGuardRow} (hguards : guards = replaceSpanGuards db.expiredSpanStates added)
    (hadded : ∀ guard ∈ added, ∃ row ∈ db.records, guard.spanId = row.spanId) :
    Within { db with expiredSpanStates := guards } streams spans expired events where
  inputs := h.inputs
  cursors := h.cursors
  dispositions := h.dispositions
  observations := h.observations
  observed := h.observed
  outcomes := h.outcomes
  known := h.known
  parents := h.parents
  guards row hrow := by
    rcases mem_replaceSpanGuards (hguards ▸ hrow) with hrow | hrow
    · exact h.guards row hrow
    · obtain ⟨r, hr, he⟩ := hadded row hrow
      rw [he]
      exact h.known r (Db.mem_knownRows.mpr (Or.inl hr))
  gone := h.gone
  index := h.index

section Passes

variable [Sha2] {request : LifecycleRequest} {row : HotTraceRow} {candidate : Candidate} {latest now : ℕ}

/-- What archiving a hot trace changes. -/
structure Archived (db : Db) (traceId : String) (tier : ArchiveTier) (latest : ℕ) (db' : Db) : Prop where
  /-- Its records go. -/
  records : ∀ row, row ∈ db'.records ↔ row ∈ db.records ∧ row.traceId ≠ traceId
  /-- So do its links. -/
  topology : ∀ row, row ∈ db'.topology ↔ row ∈ db.topology ∧ row.traceId ≠ traceId
  /-- So do its observations. -/
  observations : ∀ row, row ∈ db'.observations ↔ row ∈ db.observations ∧ row.traceId ≠ traceId
  /-- So does its index row. -/
  index : ∀ row, row ∈ db'.hotTraceIndex ↔ row ∈ db.hotTraceIndex ∧ row.traceId ≠ traceId
  /-- Its records stay as control copies. -/
  copies : ∀ row, row ∈ db'.spanControl ↔
    row ∈ db.spanControl ∨ ∃ r ∈ db.recordsOf traceId, r.toControl traceId = row
  /-- A control row is added. -/
  control : ∃ control, control.traceKey = traceId ∧ control.tier = tier ∧ control.latestObservedAt = latest ∧
    ∀ row, row ∈ db'.traceControl ↔ row ∈ db.traceControl ∨ row = control
  /-- The warm tier keeps the records for reports. -/
  warm : ∀ row, row ∈ db'.warmRecords ↔
    row ∈ db.warmRecords ∨ tier = .warm ∧ ∃ r ∈ db.recordsOf traceId, r.toWarm traceId = row
  /-- Its spans leave guards. -/
  guards : db'.expiredSpanStates =
    replaceSpanGuards db.expiredSpanStates ((db.recordsOf traceId).map fun row => spanGuard row.state)
  /-- No trace leaves a guard. -/
  gone : db'.expiredTraceStates = db.expiredTraceStates
  /-- No commit sequence is given out. -/
  sequence : db'.recordsSequence = db.recordsSequence
  /-- The generation advances. -/
  generation : db'.reportGeneration = db.reportGeneration + 1
  /-- No receipt is written. -/
  receipts : db'.retentionReceipts = db.retentionReceipts
  /-- The epoch may advance. -/
  epoch : db'.reportVisibilityEpoch ≤ db.reportVisibilityEpoch + 1
  /-- No input is added. -/
  inputs : ∀ row ∈ db'.sourceInputs, row ∈ db.sourceInputs
  /-- Its outcomes go. -/
  outcomes : ∀ row ∈ db'.deliveryOutcomes, row ∈ db.deliveryOutcomes ∧
    ∀ o ∈ db.observations, o.eventId = row.eventId → o.traceId ≠ traceId
  /-- The cursors stay. -/
  cursors : db'.sourceCursors = db.sourceCursors
  /-- The dispositions stay. -/
  dispositions : db'.adapterDispositions = db.adapterDispositions

/-- The tables of an archived trace. -/
theorem TakenOver.archived {tier : ArchiveTier} {traceControl : Table TraceControlRow}
    {spanControl : Table SpanControlRow} {warmTraces : Table WarmTraceRow} {warmRecords : Table WarmRecordRow}
    {coldTraces : Table ColdTraceRow} {guards : Table SpanGuardRow}
    (ha : TakenOver db candidate candidate.identity tier traceControl spanControl)
    (hwarm : ∀ row, row ∈ warmRecords ↔ row ∈ db.warmRecords ∨
      tier = .warm ∧ ∃ r ∈ db.recordsOf candidate.identity, r.toWarm candidate.identity = row)
    (hguards : guards = replaceSpanGuards db.expiredSpanStates
      ((db.recordsOf candidate.identity).map fun row => spanGuard row.state)) (dirty : Bool) {epoch : ℕ}
    (hepoch : epoch ≤ db.reportVisibilityEpoch + 1) (cursor : LifecycleCursor) :
    Archived db candidate.identity tier candidate.latestObservedAt { deleteHotTrace
      { db with traceControl, spanControl, warmTraces, warmRecords, coldTraces, expiredSpanStates := guards }
      candidate.identity with
        projectionDirty := dirty, reportGeneration := db.reportGeneration + 1, reportVisibilityEpoch := epoch
        lifecycleScanCursor := cursor } := by
  obtain ⟨⟨footprint, -, -, hcontrol⟩, hspans⟩ := ha
  have hkept : ∀ {P : Prop} {t : String}, (P ∧ ¬ t ∈ [candidate.identity]) ↔ P ∧ t ≠ candidate.identity := by simp
  refine
    { records := fun row => Table.mem_delete.trans hkept, topology := fun row => Table.mem_delete.trans hkept
      observations := fun row => Table.mem_delete.trans hkept, index := fun row => Table.mem_delete.trans hkept
      copies := fun row => ?_, control := ⟨_, rfl, rfl, rfl, fun row => Table.mem_insert hcontrol⟩, warm := hwarm
      guards := hguards, gone := rfl, sequence := rfl, generation := rfl, receipts := rfl, epoch := hepoch
      inputs := fun row hrow => (Table.mem_delete.mp hrow).1, outcomes := fun row hrow => ?_
      cursors := rfl, dispositions := rfl }
  · rw [← List.mem_map]
    exact Table.mem_insertAll hspans
  · obtain ⟨hrow, hkept⟩ := Table.mem_delete.mp hrow
    exact ⟨hrow, fun o ho he ht => hkept ⟨o, ho, he, List.mem_singleton.mpr ht⟩⟩

/-- **A pass archives a movable trace.** -/
theorem Movable.step_archive {tier : ArchiveTier} (hdb : Coherent db) (h : Movable db request row)
    (hid : candidate.identity = row.traceId) (ht : candidate.tier = .hot) (hlatest : row.latestObservedAt = latest)
    (hdue : transitionFor { candidate with latestObservedAt := latest, unresolved := false } request.cutoffs =
      some (match tier with | .warm => .warm | .cold => .cold)) :
    Archived db row.traceId tier latest ((Txn.maintain request {} candidate (.ok ())).step db) := by
  obtain ⟨moved, epoch, hmoved, hepoch, hstep⟩ := h.step_maintain hdb hid ht hlatest hdue
  have hhash := hdb.hash_of_isHot (h.isHot hdb)
  rw [← hid] at hhash
  rw [hstep, ← hid]
  cases tier with
  | warm =>
    cases hmoved with
    | hotToWarm _ ha _ hr =>
      rw [hhash] at ha hr
      refine TakenOver.archived ha (fun row => ?_) rfl _ hepoch _
      rw [Table.mem_insertAll hr, List.mem_map]
      simp
  | cold =>
    cases hmoved with
    | hotToCold _ ha _ =>
      rw [hhash] at ha
      exact TakenOver.archived ha (fun row => by simp) rfl _ hepoch _
    | warmToCold hwarm => exact absurd (ht.symm.trans hwarm) nofun

theorem Within.archived {T : String} {tier : ArchiveTier} (h : Within db streams spans expired events)
    (hm : ∀ row ∈ db.knownRows, row.Mirrors) (ha : Archived db T tier latest db') :
    Within db' streams spans expired events := by
  have hknown : ∀ row ∈ db'.knownRows, row ∈ db.knownRows := by
    intro row hrow
    rcases Db.mem_knownRows.mp hrow with hrow | ⟨copy, hcopy, rfl⟩
    · exact Db.mem_knownRows.mpr (Or.inl ((ha.records row).mp hrow).1)
    · rcases (ha.copies copy).mp hcopy with hcopy | ⟨r, hr, rfl⟩
      · exact Db.mem_knownRows.mpr (Or.inr ⟨copy, hcopy, rfl⟩)
      · exact Db.mem_knownRows.mpr (Or.inl (mem_recordsOf.mp hr).1)
  exact
    { inputs := fun row hrow => h.inputs row (ha.inputs row hrow)
      cursors := fun row hrow => h.cursors row (ha.cursors ▸ hrow)
      dispositions := fun row hrow => h.dispositions row (ha.dispositions ▸ hrow)
      observations := fun row hrow => h.observations row ((ha.observations row).mp hrow).1
      observed := fun row hrow => h.observed row ((ha.observations row).mp hrow).1
      outcomes := fun row hrow => h.outcomes row (ha.outcomes row hrow).1
      known := fun row hrow => h.known row (hknown row hrow)
      parents := fun row hrow => h.parents row (hknown row hrow)
      guards := fun row hrow => by
        rw [ha.guards] at hrow
        rcases mem_replaceSpanGuards hrow with hrow | hrow
        · exact h.guards row hrow
        · obtain ⟨r, hr, rfl⟩ := List.mem_map.mp hrow
          have hmem := Db.mem_knownRows.mpr (Or.inl (mem_recordsOf.mp hr).1)
          have := h.known r hmem
          rwa [(hm r hmem).spanId] at this
      gone := fun row hrow => h.gone row (ha.gone ▸ hrow)
      index := fun row hrow => h.index row ((ha.index row).mp hrow).1 }

omit [Sha2] in
theorem Within.rehydrated {T : String} {control : TraceControlRow} (h : Within db streams spans expired events)
    (r : Rehydration db control T db') : Within db' streams spans expired events := by
  have hknown : ∀ row ∈ db'.knownRows, row ∈ db.knownRows := by
    intro row hrow
    rw [r.result] at hrow
    exact (knownRows_rehydrate r.insert_records).subset hrow
  have hresult := r.result
  exact
    { inputs := fun row hrow => h.inputs row (by rw [hresult] at hrow; exact hrow)
      cursors := fun row hrow => h.cursors row (by rw [hresult] at hrow; exact hrow)
      dispositions := fun row hrow => h.dispositions row (by rw [hresult] at hrow; exact hrow)
      observations := fun row hrow => h.observations row (by rw [hresult] at hrow; exact hrow)
      observed := fun row hrow => h.observed row (by rw [hresult] at hrow; exact hrow)
      outcomes := fun row hrow => h.outcomes row (by rw [hresult] at hrow; exact hrow)
      known := fun row hrow => h.known row (hknown row hrow)
      parents := fun row hrow => h.parents row (hknown row hrow)
      guards := fun row hrow => h.guards row (by rw [hresult] at hrow; exact (Table.mem_delete.mp hrow).1)
      gone := fun row hrow => h.gone row (by rw [hresult] at hrow; exact hrow)
      index := fun row hrow => by
        rw [hresult] at hrow
        rcases (Table.mem_insert r.insert_index).mp hrow with hrow | rfl
        · exact h.index row hrow
        · exact Int.natCast_nonneg _ }

/-- What a retention pass leaves of a store that holds one trace. -/
theorem Within.expired_of (h : Within db streams spans expired events) {traceId : String} {guards : Table SpanGuardRow} {receipts : Table ReceiptRow} {epoch generation : ℕ}
    (hguards : guards = replaceSpanGuards db.expiredSpanStates ((db.recordsOf traceId).map retentionGuard)) :
    Within (Store.deleteHotTraces
      { db with
        retentionReceipts := receipts, expiredSpanStates := guards, projectionDirty := true
        reportGeneration := generation, reportVisibilityEpoch := epoch } [traceId]) streams spans expired events := by
  refine Within.deleteHotTraces (Within.report (h.guarded hguards fun guard hguard => ?_) _ _ _ _ _) _
  obtain ⟨r, hr, rfl⟩ := List.mem_map.mp hguard
  exact ⟨r, (mem_recordsOf.mp hr).1, rfl⟩

end Passes

/-! ### One archived turn -/

section TurnArchived

variable [Sha2]

/-- What a turn and a pass that archives it leave of a store without records. -/
structure TurnArchived (db : Db) (o : SourceObservation) (tier : ArchiveTier) (latest : ℕ) (db' : Db) where
  /-- The store between the two. -/
  stored : Db
  /-- The turn is stored. -/
  turn : TurnStored db o stored
  /-- The tables agree. -/
  coherent : Coherent stored
  /-- Its record is the only one. -/
  only : ∀ row, row ∈ stored.records ↔ row = turnRow db.nextCommitSeq o
  /-- The trace is archived. -/
  archived : Archived stored o.traceId.asStr tier latest db'

variable {o : SourceObservation} {tier : ArchiveTier} {latest : ℕ}

/-- No record is left. -/
theorem TurnArchived.records (h : TurnArchived db o tier latest db') (row : RecordRow) : row ∉ db'.records := by
  intro hrow
  obtain ⟨hrow, hne⟩ := (h.archived.records row).mp hrow
  exact hne (by rw [(h.only row).mp hrow]; rfl)

/-- No index row is left. -/
theorem TurnArchived.index (h : TurnArchived db o tier latest db') (row : HotTraceRow) : row ∉ db'.hotTraceIndex := by
  intro hrow
  obtain ⟨hrow, hne⟩ := (h.archived.index row).mp hrow
  obtain ⟨r, hr, ht⟩ := (h.coherent.index row.traceId).mp ⟨row, hrow, rfl⟩
  exact hne (by rw [← ht, (h.only r).mp hr]; rfl)

/-- No link is left. -/
theorem TurnArchived.topology (h : TurnArchived db o tier latest db') (row : TopologyRow) : row ∉ db'.topology := by
  intro hrow
  obtain ⟨hrow, hne⟩ := (h.archived.topology row).mp hrow
  obtain ⟨r, hr, hl⟩ := (h.coherent.topology row.link).mp ⟨row, hrow, rfl⟩
  exact hne ((congrArg Link.traceId hl).symm.trans (by rw [(h.only r).mp hr]; rfl))

/-- No observation is left. -/
theorem TurnArchived.observations (h : TurnArchived db o tier latest db') (row : ObservationRow) :
    row ∉ db'.observations := by
  intro hrow
  obtain ⟨hrow, hne⟩ := (h.archived.observations row).mp hrow
  obtain ⟨r, hr, ht⟩ := h.coherent.observations row hrow
  exact hne (by rw [← ht, (h.only r).mp hr]; rfl)

/-- No outcome is left, if there was none. -/
theorem TurnArchived.outcomes (h : TurnArchived db o tier latest db') (hnone : ∀ row, row ∉ db.deliveryOutcomes)
    (row : DeliveryOutcomeRow) : row ∉ db'.deliveryOutcomes := by
  intro hrow
  obtain ⟨hrow, hkept⟩ := h.archived.outcomes row hrow
  rcases (h.turn.outcomes row).mp hrow with hrow | rfl
  · exact hnone row hrow
  · exact hkept _ ((h.turn.observations _).mpr (Or.inr rfl)) rfl rfl

/-- The records of the trace are the turn. -/
theorem TurnArchived.recordsOf (h : TurnArchived db o tier latest db') :
    h.stored.recordsOf o.traceId.asStr = [turnRow db.nextCommitSeq o] :=
  List.perm_singleton.mp (recordsOf_perm (List.nodup_singleton _) fun row => by
    rw [List.mem_singleton, h.only]
    exact ⟨fun he => ⟨he, by rw [he]; rfl⟩, fun he => he.1⟩)

/-- The turn stays as a control copy. -/
theorem TurnArchived.copies (h : TurnArchived db o tier latest db') (row : SpanControlRow) :
    row ∈ db'.spanControl ↔
      row ∈ db.spanControl ∨ row = (turnRow db.nextCommitSeq o).toControl o.traceId.asStr := by
  rw [h.archived.copies, h.turn.spanControl, h.recordsOf]
  simp only [List.mem_singleton, exists_eq_left]
  exact or_congr_right eq_comm

/-- The turn leaves a guard. -/
theorem TurnArchived.guards (h : TurnArchived db o tier latest db') :
    db'.expiredSpanStates = replaceSpanGuards db.expiredSpanStates [spanGuard o.rawState] := by
  rw [h.archived.guards, h.turn.expiredSpanStates, h.recordsOf]
  rfl

/-- What the store names. -/
theorem TurnArchived.within (h : TurnArchived db (turnOf stream trace span none start) tier latest db')
    (hw : Within db streams spans expired events) (hnone : ∀ row, row ∉ db.deliveryOutcomes) :
    Within db' (insert stream streams) (insert span spans) expired ∅ :=
  ((hw.turn h.turn nofun).archived
    h.coherent.mirrors h.archived).eventless h.observations (h.outcomes hnone)

end TurnArchived

/-- **A turn that is ingested and then archived.** -/
theorem exists_turnArchived {tier : ArchiveTier} {hotDays warmDays deleteAfterDays : ℕ} (hdb : Coherent db)
    (hrecords : ∀ row, row ∉ db.records) (hindex : ∀ row, row ∉ db.hotTraceIndex)
    (hspan : ∀ copy ∈ db.spanControl, copy.spanId ≠ (numberedId span).asStr)
    (harchived : ¬ db.IsArchived (numberedId trace).asStr) (h : @TurnFits sha256 db stream trace span none start)
    (hg : db.reportGeneration + 2 < 2 ^ 64) (he : db.reportVisibilityEpoch + 1 < 2 ^ 64)
    (hdue : transitionFor { hotCandidate trace start with latestObservedAt := start.val, unresolved := false }
      (requestAfter hotDays warmDays deleteAfterDays).cutoffs =
        some (match tier with | .warm => .warm | .cold => .cold)) :
    Nonempty (@TurnArchived sha256 db (turnOf stream trace span none start) tier start.val
      (After (@Txn.step sha256) db [.ingest (turnOf stream trace span none start),
        .maintain (requestAfter hotDays warmDays deleteAfterDays) {} (hotCandidate trace start) (.ok ())])) := by
  let : Sha2 := sha256
  set o := turnOf stream trace span none start with ho
  simp only [after_cons, after_nil]
  have h₁ : TurnStored db o ((Txn.ingest o).step db) := step_turn hdb harchived h
  have hc₁ : Coherent ((Txn.ingest o).step db) := hdb.step _
  generalize (Txn.ingest o).step db = db₁ at h₁ hc₁ ⊢
  have honly : ∀ row, row ∈ db₁.records ↔ row = turnRow db.nextCommitSeq o := fun row =>
    (h₁.records row).trans (or_iff_right (hrecords row))
  have hmovable : Movable db₁ (requestAfter hotDays warmDays deleteAfterDays) _ :=
    movable_of_turn
      (fun row => by
        rw [honly]
        exact ⟨fun h => h.1, fun h => ⟨h, by rw [h]; rfl⟩⟩)
      ((h₁.index (fun row hrow => absurd hrow (hindex row)) _).mpr (Or.inr rfl)) rfl rfl
      (decide_eq_false (by
        rintro ⟨row, hrow, -, hu⟩
        rcases (h₁.topology row).mp hrow with hrow | rfl
        · obtain ⟨r, hr, -⟩ := (hdb.topology row.link).mp ⟨row, hrow, rfl⟩
          exact hrecords r hr
        · cases hu))
      rfl (by rw [h₁.spanControl]; exact hspan) (by rw [h₁.generation]; exact hg) (by rw [h₁.epoch]; exact he)
  have h₂ : Archived db₁ (numberedId trace).asStr tier start.val
      ((Txn.maintain (requestAfter hotDays warmDays deleteAfterDays) {} (hotCandidate trace start) (.ok ())).step db₁) :=
    hmovable.step_archive hc₁ rfl rfl rfl hdue
  exact ⟨⟨db₁, h₁, hc₁, honly, h₂⟩⟩

/-- A store that holds one archived turn, and no other trace. -/
structure OneArchived (db : Db) (tier : ArchiveTier) (stream trace span start : Number) : Prop where
  /-- The tables agree. -/
  coherent : Coherent db
  /-- The store names the turn and nothing else. -/
  within : Within db {stream} {span} ∅ ∅
  /-- No record. -/
  records : ∀ row, row ∉ db.records
  /-- No link. -/
  topology : ∀ row, row ∉ db.topology
  /-- No observation. -/
  observations : ∀ row, row ∉ db.observations
  /-- No index row. -/
  index : ∀ row, row ∉ db.hotTraceIndex
  /-- The copy of the turn. -/
  copies : ∀ row, row ∈ db.spanControl ↔
    row = (turnRow 1 (turnOf stream trace span none start)).toControl (numberedId trace).asStr
  /-- The control row of its trace. -/
  control : ∃ control, control.traceKey = (numberedId trace).asStr ∧ control.tier = tier ∧
    control.latestObservedAt = start.val ∧ ∀ row, row ∈ db.traceControl ↔ row = control
  /-- The guard of the turn. -/
  guards : db.expiredSpanStates.rows = [@spanGuard sha256 (turnOf stream trace span none start).rawState]
  /-- One commit sequence was given out. -/
  sequence : db.recordsSequence = 1
  /-- No receipt. -/
  receipts : ∀ row, row ∉ db.retentionReceipts
  /-- Two generations passed. -/
  generation : db.reportGeneration = 2
  /-- One epoch may have passed. -/
  epoch : db.reportVisibilityEpoch ≤ 1

/-- The turn and the pass, from an empty store. -/
theorem oneArchived_history {tier : ArchiveTier} {hotDays warmDays deleteAfterDays : ℕ}
    (hdue : transitionFor { hotCandidate trace start with latestObservedAt := start.val, unresolved := false }
      (requestAfter hotDays warmDays deleteAfterDays).cutoffs =
        some (match tier with | .warm => .warm | .cold => .cold)) :
    OneArchived (@history sha256 [.ingest (turnOf stream trace span none start),
      .maintain (requestAfter hotDays warmDays deleteAfterDays) {} (hotCandidate trace start) (.ok ())])
      tier stream trace span start := by
  let : Sha2 := sha256
  have hempty : ∀ {ρ : Type} [Keyed ρ] {P : Prop} {row : ρ}, row ∈ (Table.empty : Table ρ) ∨ P ↔ P :=
    fun {ρ _ P row} => or_iff_right (Table.not_mem_empty row)
  have hfits : TurnFits Db.empty stream trace span none start :=
    within_empty.turnFits coherent_empty (Set.notMem_empty _) (Set.notMem_empty _) (Set.notMem_empty _)
      (Set.notMem_empty _) nofun nofun (by simp [Db.empty])
  obtain ⟨h⟩ := exists_turnArchived coherent_empty Table.not_mem_empty Table.not_mem_empty
    (fun copy hcopy => absurd hcopy (Table.not_mem_empty copy)) (by simp [Db.empty, Db.IsArchived]) hfits
    (by simp [Db.empty]) (by simp [Db.empty]) hdue
  have hc := coherent_history [.ingest (turnOf stream trace span none start),
    .maintain (requestAfter hotDays warmDays deleteAfterDays) {} (hotCandidate trace start) (.ok ())]
  obtain ⟨control, hkey, htier, hlatest, hcontrol⟩ := h.archived.control
  refine
    { coherent := hc, within := ?within, records := h.records, topology := h.topology, observations := h.observations
      index := h.index, copies := fun row => (h.copies row).trans hempty
      control := ⟨control, hkey, htier, hlatest, fun row => ?control⟩, guards := ?guards
      sequence := h.archived.sequence.trans h.turn.sequence, receipts := ?receipts
      generation := h.archived.generation.trans (congrArg (· + 1) h.turn.generation), epoch := ?epoch }
  case within => simpa only [insert_empty_eq] using h.within within_empty Table.not_mem_empty
  case control =>
    rw [hcontrol, h.turn.traceControl]
    exact hempty
  case guards =>
    rw [h.guards, replaceSpanGuards, Table.keepNewest_eq_self (Nat.le_of_ble_eq_true rfl)]
    rfl
  case receipts =>
    rw [h.archived.receipts, h.turn.retentionReceipts]
    exact Table.not_mem_empty
  case epoch => exact h.archived.epoch.trans (by rw [h.turn.epoch]; decide)

/-- A store whose only trace was brought back by a further turn. -/
structure OneRestored (db : Db) (o o' : SourceObservation) : Prop where
  /-- The tables agree. -/
  coherent : Coherent db
  /-- The records of both turns. -/
  records : ∃ n, ∀ row, row ∈ db.records ↔ row = turnRow 1 o ∨ row = turnRow n o'
  /-- Their links are resolved. -/
  topology : ∀ row ∈ db.topology, row.unresolved = false
  /-- The observation of the further turn. -/
  observations : ∃ db₁, ∀ row, row ∈ db.observations ↔ row = @observationRow sha256 db₁ o' (@preparedPrivate sha256 o') o'.rawState
  /-- No receipt. -/
  receipts : ∀ row, row ∉ db.retentionReceipts
  /-- Three generations passed. -/
  generation : db.reportGeneration = 3
  /-- One epoch may have passed. -/
  epoch : db.reportVisibilityEpoch ≤ 1

/-- **A further turn brings the trace back, without the observation of the first.** -/
theorem OneArchived.restore {tier : ArchiveTier} {stream' span' start' : Number}
    (h : OneArchived db tier stream trace span start) (hstream : stream' ≠ stream) (hspan : span' ≠ span) :
    OneRestored (@Txn.step sha256 db (.ingest (turnOf stream' trace span' none start')))
      (turnOf stream trace span none start) (turnOf stream' trace span' none start') := by
  let : Sha2 := sha256
  obtain ⟨control, hkey, -, -, hcontrol⟩ := h.control
  have hcopy : ∀ copy ∈ db.spanControl, copy = _ := fun copy => (h.copies copy).mp
  have hfits : ∀ db₁, Rehydration db control (numberedId trace).asStr db₁ →
      TurnFits db₁ stream' trace span' none start' := fun db₁ r =>
    (h.within.rehydrated r).turnFits (h.coherent.rehydrate r) hstream hspan (Set.notMem_empty _)
      (Set.notMem_empty _) nofun nofun
      (by
        rw [r.result]
        exact (congrArg (· + 1) h.generation).trans_lt (by decide))
  have hcursor : FreshCursor db (turnOf stream' trace span' none start').checkpoint :=
    NewStream.freshCursor ⟨fun row hrow => ne_of_mem_ids (h.within.inputs row hrow) hstream,
      fun row hrow => ne_of_mem_ids (h.within.cursors row hrow) hstream,
      fun row hrow => ne_of_mem_ids (h.within.dispositions row hrow) hstream⟩
  obtain ⟨db₁, _, ⟨r⟩, hi, hs⟩ := ingest_turn_restored h.coherent ((hcontrol control).mpr rfl) hkey
    (List.ne_nil_of_mem (Table.mem_select.mpr ⟨(h.copies _).mpr rfl, rfl⟩))
    (fun row hrow => absurd hrow (h.records row))
    (fun copy hmem => by
      rw [hcopy copy hmem]
      exact fun he => hspan (numberedId_inj.mp he).symm)
    hcursor hfits
  rw [← step_ingest_of hi] at hs
  have hc := h.coherent.step (.ingest (turnOf stream' trace span' none start'))
  generalize (Txn.ingest (turnOf stream' trace span' none start')).step db = db' at hs hc ⊢
  have hresult := r.result
  refine
    { coherent := hc, records := ⟨db₁.nextCommitSeq, fun row => ?records⟩, topology := ?topology
      observations := ⟨db₁, fun row => ?observations⟩, receipts := ?receipts, generation := ?generation, epoch := ?epoch }
  case records =>
    rw [hs.records, r.mem_records, or_iff_right (h.records row)]
    refine or_congr_left ⟨?_, ?_⟩
    · rintro ⟨copy, hmem, rfl⟩
      rw [hcopy copy (mem_spansOf.mp hmem).1]
      rfl
    · rintro rfl
      exact ⟨_, mem_spansOf.mpr ⟨(h.copies _).mpr rfl, rfl⟩, rfl⟩
  case topology =>
    intro row hrow
    rcases (hs.topology row).mp hrow with hrow | rfl
    · rw [hresult] at hrow
      rcases (Table.mem_insertAll r.insert_topology).mp hrow with hrow | hrow
      · exact absurd hrow (h.topology row)
      · obtain ⟨copy, hmem, rfl⟩ := List.mem_map.mp hrow
        rw [hcopy copy (mem_spansOf.mp hmem).1]
        rfl
    · rfl
  case observations =>
    rw [hs.observations]
    refine or_iff_right fun hrow => ?_
    rw [hresult] at hrow
    exact h.observations row hrow
  case receipts =>
    rw [hs.retentionReceipts, hresult]
    exact h.receipts
  case generation =>
    rw [hs.generation, hresult]
    exact congrArg (· + 1) h.generation
  case epoch =>
    rw [hs.epoch, hresult]
    exact h.epoch

/-- **A turn of another trace may name the archived turn as its parent.** -/
theorem OneArchived.ingest_child {tier : ArchiveTier} {stream' trace' span' : Number}
    (h : OneArchived db tier stream trace span start) (start' : Number) (hstream : stream' ≠ stream) (htrace : trace' ≠ trace)
    (hspan : span' ≠ span) :
    ∃ db', @ingestInTransaction sha256 db (turnOf stream' trace' span' (some span) start') = .ok (.committed, db') ∧
      @TurnStored sha256 db (turnOf stream' trace' span' (some span) start') db' := by
  let : Sha2 := sha256
  obtain ⟨control, hkey, -, -, hcontrol⟩ := h.control
  have hfits : TurnFits db stream' trace' span' (some span) start' :=
    h.within.turnFits h.coherent hstream hspan (Set.notMem_empty _) (Set.notMem_empty _)
      (fun he => hspan (Option.some.inj he).symm) (fun _ _ row hrow => absurd hrow (h.records row))
      (by rw [h.generation]; decide)
  refine ingest_turn h.coherent ?_ hfits
  rintro ⟨row, hrow, hk⟩
  rw [(hcontrol row).mp hrow, hkey] at hk
  exact htrace (numberedId_inj.mp hk).symm

/-- **A further turn brings the archived one back beside its child in the other trace.** -/
theorem OneArchived.restore_parent {tier : ArchiveTier} {stream' trace' span' start' : Number}
    (h : OneArchived db tier stream trace span start) (stream'' span'' start'' : Number) (hspan : span' ≠ span)
    (hi : @ingestInTransaction sha256 db (turnOf stream' trace' span' (some span) start') = .ok (.committed, db'))
    (hs : @TurnStored sha256 db (turnOf stream' trace' span' (some span) start') db')
    (hstream : stream'' ∉ ({stream', stream} : Set Number)) (hspan' : span'' ∉ ({span', span} : Set Number))
    (hevent : @stableEventId sha256 (turnOf stream'' trace span'' none start'') ≠
      @stableEventId sha256 (turnOf stream' trace' span' (some span) start')) :
    ∃ db'', @ingestInTransaction sha256 db' (turnOf stream'' trace span'' none start'') = .ok (.committed, db'') ∧
      turnRow 1 (turnOf stream trace span none start) ∈ db''.records ∧
      turnRow db.nextCommitSeq (turnOf stream' trace' span' (some span) start') ∈ db''.records := by
  let : Sha2 := sha256
  obtain ⟨control, hkey, -, -, hcontrol⟩ := h.control
  have hc : Coherent db' := step_ingest_of hi ▸ h.coherent.step (.ingest (turnOf stream' trace' span' (some span) start'))
  have hwithin := h.within.turn hs (by simp)
  have hcopies : ∀ copy, copy ∈ db'.spanControl ↔
      copy = (turnRow 1 (turnOf stream trace span none start)).toControl (numberedId trace).asStr := by
    rw [hs.spanControl]
    exact h.copies
  have hrecords : ∀ row, row ∈ db'.records ↔ row = turnRow db.nextCommitSeq (turnOf stream' trace' span' (some span) start') :=
    fun row => (hs.records row).trans (or_iff_right (h.records row))
  have hfits : ∀ db₁, Rehydration db' control (numberedId trace).asStr db₁ →
      TurnFits db₁ stream'' trace span'' none start'' := fun db₁ r =>
    (hwithin.rehydrated r).turnFits (hc.rehydrate r) hstream hspan' (Set.notMem_empty _)
      (by simpa using hevent) nofun nofun
      (by
        rw [r.result]
        show db'.reportGeneration + 1 < 2 ^ 64
        rw [hs.generation, h.generation]
        decide)
  have hcursor : FreshCursor db' (turnOf stream'' trace span'' none start'').checkpoint :=
    NewStream.freshCursor ⟨fun row hrow => ne_of_mem_ids (hwithin.inputs row hrow) hstream,
      fun row hrow => ne_of_mem_ids (hwithin.cursors row hrow) hstream,
      fun row hrow => ne_of_mem_ids (hwithin.dispositions row hrow) hstream⟩
  obtain ⟨db₁, db'', ⟨r⟩, hi', hs'⟩ := ingest_turn_restored hc (by rw [hs.traceControl]; exact (hcontrol control).mpr rfl)
    hkey (List.ne_nil_of_mem (Table.mem_select.mpr ⟨(hcopies _).mpr rfl, rfl⟩))
    (fun row hrow copy hmem => by
      rw [(hrecords row).mp hrow, (hcopies copy).mp hmem]
      exact fun he => hspan (numberedId_inj.mp he))
    (fun copy hmem => by
      rw [(hcopies copy).mp hmem]
      exact fun he => hspan' (Or.inr (numberedId_inj.mp he).symm))
    hcursor hfits
  refine ⟨db'', hi', (hs'.records _).mpr (Or.inl (r.mem_records.mpr (Or.inr ⟨_, mem_spansOf.mpr ⟨(hcopies _).mpr rfl, rfl⟩, rfl⟩))),
    (hs'.records _).mpr (Or.inl (r.mem_records.mpr (Or.inl ((hrecords _).mpr rfl))))⟩

end AgentObservability.Store
