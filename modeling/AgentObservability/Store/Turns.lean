import AgentObservability.Store.Progress
import AgentObservability.Store.RetentionSpec
import AgentObservability.Foundation.Sha256
import Mathlib.Algebra.Group.Action.Defs
import Mathlib.Algebra.Order.BigOperators.Group.List

/-!
# Turns in streams of their own

The plainest observations a store can be given: a running turn without
correlation or metrics, with private identifiers, first and only in its source
stream. The histories that show what a store does are made of them. This module
says when such a turn is stored (`step_turn`), what the store then holds
(`TurnStored`), and that its rows are small (`turn_bytes_le`).
-/

namespace AgentObservability.Store

open Domain Contracts Foundation

/-- The digest that the `sha2` crate computes. -/
abbrev sha256 : Sha2 := ⟨Sha256.hexDigest⟩

/-- A number of a stream, a trace, a span or a time. -/
abbrev Number := Fin (2 ^ 32)

instance number_neZero : NeZero (2 ^ 32) := ⟨by decide⟩

theorem length_toString_le (n : Number) : (toString n.val).length ≤ 20 := by
  have hn : n.val < 10 ^ 20 := n.isLt.trans (by decide)
  exact (Nat.length_repr_le_iff (by decide)).mpr hn

/-- The private identifier with a number. -/
def numberedId (n : Number) : Identifier where
  asStr := privatePrefix ++ toString n.val
  nonempty h := by
    have := congrArg String.length h
    simp [privatePrefix] at this
  bounded := by
    have h := length_toString_le n
    have hprefix : privatePrefix.length = 10 := rfl
    have := Json.utf8ByteSize_le (privatePrefix ++ toString n.val)
    rw [String.length_append, hprefix] at this
    exact this.trans (by unfold maxIdentifierBytes; omega)

theorem isPrivate_numberedId (n : Number) : IsPrivate (numberedId n).asStr := by
  simp [IsPrivate, numberedId]

theorem length_numberedId_le (n : Number) : (numberedId n).asStr.length ≤ 30 := by
  have h := length_toString_le n
  have hprefix : privatePrefix.length = 10 := rfl
  simp only [numberedId, String.length_append, hprefix]
  omega

theorem numberedId_inj {m n : Number} : (numberedId m).asStr = (numberedId n).asStr ↔ m = n := by
  refine ⟨fun h => ?_, fun h => by rw [h]⟩
  have hdigits : Nat.toDigits 10 m.val = Nat.toDigits 10 n.val := by
    have := congrArg String.toList h
    simpa [numberedId, Nat.toString_eq_ofList_toDigits] using this
  have := congrArg (Nat.ofDigitChars 10 · 0) hdigits
  simp only [Nat.ofDigitChars_ten_toDigits] at this
  exact Fin.ext this

/-- A running turn, first and only in its stream. -/
def turnOf (stream trace span : Number) (parent : Option Number) (start : Number) : SourceObservation where
  source := .codex
  sourceGeneration := numberedId stream
  previousSourceCursor := none
  sourceCursor := numberedId stream
  observationId := numberedId stream
  traceId := numberedId trace
  spanId := numberedId span
  parentSpanId := parent.map numberedId
  correlation := {}
  event := .turn
  lifecycle := .running
  timing := ⟨start, none⟩
  tokenUsage := {}

variable {stream trace span start : Number} {parent : Option Number}

theorem allPrivate_turnOf : AllPrivate (turnOf stream trace span parent start) where
  traceId := isPrivate_numberedId _
  spanId := isPrivate_numberedId _
  parentSpanId i hi := by
    obtain ⟨n, -, rfl⟩ := Option.map_eq_some_iff.mp hi
    exact isPrivate_numberedId _
  correlation := by simp [turnOf]

theorem projectable_turnOf :
    Projectable (turnOf stream trace span parent start) (turnOf stream trace span parent start).rawState where
  identity := ⟨rfl, rfl, rfl, rfl⟩
  start := start.isLt.le.trans (by decide)
  ended e he := by cases he
  ordered := rfl
  metrics := rfl
  model := by simp [turnOf, eventProjection]
  project := by simp [turnOf, eventProjection]

/-! ### Their records -/

/-- The record of a turn: its projection, with the redaction that every record has. -/
def turnRecord (o : SourceObservation) : DurableRecordV1 :=
  { projected o o.rawState with
    redaction := { applied := true, count := 4, fields := ["output", "prompt", "tool_input", "tool_output"] } }

theorem sanitized_turnOf [Sha2] : sanitized (projected (turnOf stream trace span parent start)
    (turnOf stream trace span parent start).rawState) = turnRecord (turnOf stream trace span parent start) := by
  have hagent : redactSensitiveText "codex" "agent.name" = "codex" := by decide +kernel
  have hsource : redactSensitiveText "codex" "source" = "codex" := by decide +kernel
  have htype : redactSensitiveText "turn" "event_type" = "turn" := by decide +kernel
  have hname : redactSensitiveText "turn" "name" = "turn" := by decide +kernel
  have hid : ∀ n, hashRecordId (numberedId n).asStr = (numberedId n).asStr := fun n =>
    hashOpaqueIdentifier_of_private (isPrivate_numberedId n)
  set r := projected (turnOf stream trace span parent start) (turnOf stream trace span parent start).rawState with hr
  have hparent : r.parentSpanId.map hashRecordId = r.parentSpanId := by
    cases parent with
    | none => rfl
    | some n => exact congrArg some (hid n)
  have hfields : sanitizeFields r = r := by
    rw [sanitizeFields, hparent]
    simp [hr, projected, turnOf, eventProjection, SourceObservation.rawState, sanitizeOptionalText, sanitizeAttributes,
      sanitizeScalar, projectAttributes, identifierAttributes, AgentSource.asStr, scalarId, scalarString,
      ObservationEvent.toolName, ObservationEvent.phase, ObservationEvent.decision, ObservationEvent.trigger,
      hagent, hsource, htype, hname, hid]
  have hattributes : sanitizeAttributes r.attributes = r.attributes := congrArg DurableRecordV1.attributes hfields
  have hreplaced : replacedFields r = [] := by
    simp only [replacedFields, hfields, replacedAttributes, hattributes, replaced, if_true, List.append_nil]
    rfl
  have hsort : sortDedup ["prompt", "output", "tool_input", "tool_output"] =
      ["output", "prompt", "tool_input", "tool_output"] := by decide +kernel
  rw [sanitized, hfields, hreplaced, List.append_nil]
  simp only [turnRecord, ← hr]
  rw [show r.redaction.fields = ["prompt", "output", "tool_input", "tool_output"] from rfl, hsort]
  rfl

/-- A private identifier with a number is a short text. -/
theorem byteLength_str_numberedId_le (n : Number) : byteLength (Json.str (numberedId n).asStr) ≤ 722 := by
  have := Json.byteLength_str_le (numberedId n).asStr
  have := length_numberedId_le n
  omega

theorem utf8ByteSize_number_le (n : Number) : (toString n.val).utf8ByteSize ≤ 80 :=
  Json.utf8ByteSize_toString_le (n.isLt.trans (by decide))

theorem byteLength_turnRecord_le : byteLength (turnRecord (turnOf stream trace span parent start)).json ≤ 6000 := by
  have hparent : byteLength (Json.option Json.str ((parent.map numberedId).map (·.asStr))) ≤ 722 :=
    Json.byteLength_option_le (by decide) fun a ha => by
      rw [Option.map_map] at ha
      obtain ⟨n, -, rfl⟩ := Option.map_eq_some_iff.mp ha
      exact byteLength_str_numberedId_le n
  have hstart : byteLength (Json.float start.val) ≤ 82 := by
    have := utf8ByteSize_number_le start
    have hpoint : (".0" : String).utf8ByteSize = 2 := rfl
    simp only [Json.float, byteLength, List.map_cons, List.map_nil, List.sum_cons, List.sum_nil, hpoint]
    omega
  have htrace := byteLength_str_numberedId_le trace
  have hspan := byteLength_str_numberedId_le span
  have hparts : byteLength (Json.str durableRecordVersion) ≤ 100 ∧ byteLength (Json.str "span") ≤ 100 ∧
      byteLength (Json.str (kindName .turn)) ≤ 100 ∧ byteLength (Json.str "turn") ≤ 100 ∧
      byteLength (Json.option Json.float none) ≤ 100 ∧
      byteLength (Json.object [("code", StatusCode.unset.json)]) ≤ 100 ∧
      byteLength (AgentV1.json { name := some "codex" }) ≤ 100 ∧ byteLength (ProjectV1.json {}) ≤ 100 ∧
      byteLength (AttributesV1.json
        { source := some (.string "codex"), eventType := some (.string "turn") }) ≤ 100 ∧
      byteLength (MetricsV1.json {}) ≤ 100 ∧ byteLength (ContentV1.json {}) ≤ 100 ∧
      byteLength (RedactionV1.json ⟨true, 4, ["output", "prompt", "tool_input", "tool_output"]⟩) ≤ 200 := by
    decide +kernel
  obtain ⟨h1, h2, h3, h4, h5, h6, h7, h8, h9, h10, h11, h12⟩ := hparts
  refine (Json.byteLength_object_le (k := 20) ?_ (.cons h1 <| .cons h2 <| .cons htrace <| .cons hspan <|
    .cons hparent <| .cons h3 <| .cons h4 <| .cons hstart <| .cons h5 <| .cons h6 <| .cons h7 <| .cons h8 <|
    .cons h9 <| .cons h10 <| .cons h11 <| .cons h12 .nil)).trans (by decide)
  simp only [List.forall_mem_cons]
  decide +kernel

theorem byteLength_turnState_le :
    byteLength (stateJson (turnOf stream trace span parent start).rawState) ≤ 4000 := by
  have hparent : byteLength (stateJson.id (parent.map numberedId)) ≤ 722 :=
    Json.byteLength_option_le (by decide) fun a ha => by
      obtain ⟨n, -, rfl⟩ := Option.map_eq_some_iff.mp ha
      exact byteLength_str_numberedId_le n
  have hstart : byteLength (Json.nat start.val) ≤ 80 := by
    have := utf8ByteSize_number_le start
    simpa [Json.nat, byteLength] using this
  have htrace := byteLength_str_numberedId_le trace
  have hspan := byteLength_str_numberedId_le span
  have hparts : byteLength (Json.str (lifecycleName .running)) ≤ 100 ∧ byteLength (Json.str (kindName .turn)) ≤ 100 ∧
      byteLength (Json.option Json.nat none) ≤ 100 ∧
      byteLength (Json.object [("session", stateJson.id none), ("turn", stateJson.id none),
        ("request", stateJson.id none), ("operation", stateJson.id none), ("permission", stateJson.id none),
        ("compaction", stateJson.id none)]) ≤ 200 ∧
      byteLength (Json.object <| [("input", (none : Option ℕ)), ("output", none), ("cached_input", none),
        ("cache_creation_input", none), ("reasoning_output", none), ("total", none), ("total_input", none),
        ("total_output", none), ("total_cached_input", none), ("total_reasoning_output", none),
        ("total_accumulated", none), ("context_window", none), ("input_before", none), ("input_after", none)].map
        fun m => (m.1, Json.option Json.nat m.2)) ≤ 400 := by
    decide +kernel
  obtain ⟨h1, h2, h3, h4, h5⟩ := hparts
  refine (Json.byteLength_object_le (k := 20) ?_ (.cons h1 <| .cons htrace <| .cons hspan <| .cons hparent <|
    .cons h2 <| .cons h4 <| .cons hstart <| .cons h3 <| .cons h5 .nil)).trans (by decide)
  simp only [List.forall_mem_cons]
  decide +kernel

/-! ### Storing a turn -/

/-- The row that a turn leaves in `records`. -/
def turnRow (commitSeq : ℕ) (o : SourceObservation) : RecordRow where
  commitSeq := commitSeq
  spanId := o.spanId.asStr
  traceId := o.traceId.asStr
  parentSpanId := o.parentSpanId.map (·.asStr)
  kind := .turn
  state := o.rawState
  record := turnRecord o

/-- The row that a turn leaves in `topology`, while its parent is absent. -/
def turnLink (o : SourceObservation) : TopologyRow where
  spanId := o.spanId.asStr
  traceId := o.traceId.asStr
  parentSpanId := o.parentSpanId.map (·.asStr)
  kind := .turn
  unresolved := o.parentSpanId.isSome

variable [Sha2]

/-- What a turn adds to the estimated bytes of its trace. -/
def turnBytes (o : SourceObservation) : ℕ :=
  addedBytes (recordBytes o.rawState (turnRecord o))
    (observationBytes (turnRecord o) ("sha256:" ++ Sha2.hexDigest (utf8 (turnRecord o).json)))

omit [Sha2] in
/-- The ledger does not know the stream. -/
structure NewStream (db : Db) (stream : Number) : Prop where
  /-- No input has been accepted in the stream. -/
  inputs : ∀ row ∈ db.sourceInputs, row.generation ≠ (numberedId stream).asStr
  /-- The stream has no cursor. -/
  cursors : ∀ row ∈ db.sourceCursors, row.generation ≠ (numberedId stream).asStr
  /-- It has no disposition. -/
  dispositions : ∀ row ∈ db.adapterDispositions, row.generation ≠ (numberedId stream).asStr

/-- What a store must not hold yet for a turn to be stored as it is. -/
structure TurnFits (db : Db) (stream trace span : Number) (parent : Option Number) (start : Number) : Prop
    extends NewStream db stream where
  /-- It has no observation. -/
  observations : ∀ row ∈ db.observations, row.generation ≠ (numberedId stream).asStr
  /-- The event is new. -/
  events : ∀ row ∈ db.observations, row.eventId ≠ stableEventId (turnOf stream trace span parent start)
  /-- It has no outcome. -/
  outcomes : ∀ row ∈ db.deliveryOutcomes, row.eventId ≠ stableEventId (turnOf stream trace span parent start)
  /-- The trace is not expired. -/
  expired : ¬ db.IsExpired (numberedId trace).asStr
  /-- The span has no record. -/
  record : ∀ row ∈ db.records, row.spanId ≠ (numberedId span).asStr
  /-- The span has no guard. -/
  guard : ∀ row ∈ db.expiredSpanStates, row.spanId ≠ (numberedId span).asStr
  /-- No link to the span is there. -/
  children : ∀ row ∈ db.topology, row.parentSpanId ≠ some (numberedId span).asStr
  /-- The parent is another span. -/
  parent_ne : parent ≠ some span
  /-- It has no record. -/
  parent : ∀ p ∈ parent, ∀ row ∈ db.records, row.spanId ≠ (numberedId p).asStr
  /-- No size of the index is negative. -/
  index : ∀ row ∈ db.hotTraceIndex, 0 ≤ row.estimatedBytes
  /-- There is a next generation. -/
  generation : db.reportGeneration + 1 < 2 ^ 64

/-- What storing a turn changes. -/
structure TurnStored (db : Db) (o : SourceObservation) (db' : Db) : Prop where
  /-- Its record comes last. -/
  records : ∀ row, row ∈ db'.records ↔ row ∈ db.records ∨ row = turnRow db.nextCommitSeq o
  /-- The commit sequence advances. -/
  sequence : db'.recordsSequence = db.nextCommitSeq
  /-- Its link is added. -/
  topology : ∀ row, row ∈ db'.topology ↔ row ∈ db.topology ∨ row = turnLink o
  /-- It is added to the observations. -/
  observations : ∀ row, row ∈ db'.observations ↔
    row ∈ db.observations ∨ row = observationRow db o (preparedPrivate o) o.rawState
  /-- The input is added. -/
  inputs : ∀ row, row ∈ db'.sourceInputs ↔ row ∈ db.sourceInputs ∨ row = sourceInputRow o (preparedPrivate o)
  /-- The outcome is added. -/
  outcomes : ∀ row, row ∈ db'.deliveryOutcomes ↔ row ∈ db.deliveryOutcomes ∨ row = ⟨stableEventId o⟩
  /-- The cursor of the stream is set. -/
  cursors : ∀ row ∈ db'.sourceCursors, row ∈ db.sourceCursors ∨ row.generation = o.sourceGeneration.asStr
  /-- The index row of a new trace counts the turn. -/
  index : (∀ row ∈ db.hotTraceIndex, row.traceId ≠ o.traceId.asStr) → ∀ row, row ∈ db'.hotTraceIndex ↔
    row ∈ db.hotTraceIndex ∨ row =
      { traceId := o.traceId.asStr, latestObservedAt := o.timing.startUnixMs
        unresolved := HasUnresolved db'.topology o.traceId.asStr, recordCount := 1, estimatedBytes := turnBytes o
        indexedComplete := true }
  /-- No size of the index is negative. -/
  index_nonneg : ∀ row ∈ db'.hotTraceIndex, 0 ≤ row.estimatedBytes
  /-- The report generation advances. -/
  generation : db'.reportGeneration = db.reportGeneration + 1
  /-- Nothing else changes. -/
  rest : db' = { db with
    records := db'.records, recordsSequence := db'.recordsSequence, topology := db'.topology
    observations := db'.observations, sourceInputs := db'.sourceInputs, deliveryOutcomes := db'.deliveryOutcomes
    sourceCursors := db'.sourceCursors, hotTraceIndex := db'.hotTraceIndex, projectionDirty := true
    reportGeneration := db'.reportGeneration }

section Unchanged

variable {db db' : Db} {o : SourceObservation}

theorem TurnStored.adapterDispositions (h : TurnStored db o db') : db'.adapterDispositions = db.adapterDispositions := by
  rw [h.rest]

theorem TurnStored.expiredSpanStates (h : TurnStored db o db') : db'.expiredSpanStates = db.expiredSpanStates := by
  rw [h.rest]

theorem TurnStored.expiredTraceStates (h : TurnStored db o db') : db'.expiredTraceStates = db.expiredTraceStates := by
  rw [h.rest]

theorem TurnStored.warmRecords (h : TurnStored db o db') : db'.warmRecords = db.warmRecords := by rw [h.rest]

theorem TurnStored.traceControl (h : TurnStored db o db') : db'.traceControl = db.traceControl := by rw [h.rest]

theorem TurnStored.spanControl (h : TurnStored db o db') : db'.spanControl = db.spanControl := by rw [h.rest]

theorem TurnStored.retentionReceipts (h : TurnStored db o db') : db'.retentionReceipts = db.retentionReceipts := by
  rw [h.rest]

theorem TurnStored.epoch (h : TurnStored db o db') : db'.reportVisibilityEpoch = db.reportVisibilityEpoch := by
  rw [h.rest]

end Unchanged

variable {db : Db}

omit [Sha2] in
theorem turnOf_projectionObservation (s : DomainSpanState) : projectionObservation (turnOf stream trace span parent start) s =
    turnOf stream trace span parent start := rfl

theorem durableRecord_turnOf : durableRecord (turnOf stream trace span parent start)
    (turnOf stream trace span parent start).rawState = .ok (turnRecord (turnOf stream trace span parent start)) := by
  rw [durableRecord_of projectable_turnOf, sanitized_turnOf]

/-- The generation of a stream is private already. -/
theorem privateSourceGeneration_turnOf :
    privateSourceGeneration (turnOf stream trace span parent start).checkpoint = (numberedId stream).asStr :=
  hashOpaqueIdentifier_of_private (isPrivate_numberedId stream)

/-- The cursor of a new stream is fresh. -/
theorem NewStream.freshCursor (h : NewStream db stream) :
    FreshCursor db (turnOf stream trace span parent start).checkpoint where
  disposition := Table.find?_eq_none.mpr fun row hrow hc =>
    h.dispositions row hrow (hc.2.1.trans privateSourceGeneration_turnOf)
  input := Table.find?_eq_none.mpr fun row hrow hc => h.inputs row hrow (hc.2.1.trans privateSourceGeneration_turnOf)
  extends_ := by
    refine ⟨(numberedId stream).nonempty, ?_⟩
    rw [currentCursor, Table.find?_eq_none.mpr fun row hrow hc =>
      h.cursors row hrow (hc.2.trans privateSourceGeneration_turnOf)]
    rfl

theorem prepareObservation_turnOf : prepareObservation (turnOf stream trace span parent start) =
    .ok (preparedPrivate (turnOf stream trace span parent start)) :=
  prepareObservation_of allPrivate_turnOf projectable_turnOf

theorem TurnFits.unsettled (h : TurnFits db stream trace span parent start) :
    Unsettled db (preparedPrivate (turnOf stream trace span parent start)) where
  state row hrow := absurd (recordOf_mem hrow).2 (h.record row (recordOf_mem hrow).1)
  guard := Table.find?_eq_none.mpr h.guard
  trace := by
    rintro ⟨row, hrow, hk⟩
    exact h.expired ⟨row, hrow, Eq.trans hk (hashOpaqueIdentifier_of_private (isPrivate_numberedId trace))⟩
  event := Table.find?_eq_none.mpr h.events

theorem TurnFits.fitsNew (h : TurnFits db stream trace span parent start) :
    FitsNew db (turnOf stream trace span parent start) (preparedPrivate (turnOf stream trace span parent start)) where
  record := Table.find?_eq_none.mpr h.record
  children := h.children
  parent i hi := by
    obtain ⟨n, hn, rfl⟩ := Option.map_eq_some_iff.mp hi
    refine ⟨fun he => h.parent_ne ?_, Table.find?_eq_none.mpr (h.parent n hn)⟩
    rw [hn, numberedId_inj.mp (congrArg Identifier.asStr he)]
  observation row hrow :=
    ⟨h.events row hrow, fun hc => h.observations row hrow (hc.2.1.trans privateSourceGeneration_turnOf)⟩
  outcome := h.outcomes
  input := h.freshCursor.input
  index := h.index
  generation := h.generation

/-- **The commit of a turn that fits stores it.** -/
theorem TurnFits.exists_commit (hdb : Coherent db) (h : TurnFits db stream trace span parent start) :
    ∃ c : Commit db (turnOf stream trace span parent start) (preparedPrivate (turnOf stream trace span parent start)),
      TurnStored db (turnOf stream trace span parent start) c.result := by
  set o := turnOf stream trace span parent start with ho
  have hprep : Prepared o (preparedPrivate o) := prepareObservation_ok prepareObservation_turnOf
  obtain ⟨c, hreduced, hrecord⟩ : ∃ c : Commit db o (preparedPrivate o),
      c.reduced = (preparedPrivate o).state ∧ c.record = turnRecord o :=
    h.fitsNew.exists_commit hdb hprep durableRecord_turnOf
  have hm : ∀ row ∈ db.records, row.Mirrors := fun row hrow => hdb.mirrors row (Db.mem_knownRows.mpr (Or.inl hrow))
  have hnone : db.recordRow o.spanId.asStr = none := h.fitsNew.record
  obtain ⟨stored, hstored⟩ := c.exists_stored hm hprep
  obtain ⟨linked, hlinked⟩ := c.exists_linked hm (fun t ht => (hdb.topology t.link).mp ⟨t, ht, rfl⟩) hprep
  obtain ⟨hcomplete, hindex⟩ := c.mem_index hm hdb.backfill hdb.complete
  have hrow : stored = turnRow db.nextCommitSeq o := by
    rcases hstored.rows with ⟨-, hseq, -⟩ | ⟨old, hold, -⟩
    · have hl := hstored.link
      have hs := hstored.state
      have hr := hstored.record
      rw [hreduced] at hs
      rw [hrecord] at hr
      cases stored
      simp only [RecordRow.link, Link.mk.injEq] at hl hseq hs hr
      obtain ⟨h1, h2, h3, h4⟩ := hl
      subst hseq hs hr h1 h2 h3 h4
      rfl
    · rw [show (preparedPrivate o).state.spanId = o.spanId from rfl, hnone] at hold
      cases hold
  have hlink : linked = turnLink o := by
    have hl := hlinked.link
    have hu := hlinked.unresolved
    have hunresolved : ((preparedPrivate o).state.parentSpanId.any fun p => ¬ TopologyContains db p.asStr) =
        o.parentSpanId.isSome := by
      cases hpar : parent with
      | none => rw [show (preparedPrivate o).state.parentSpanId = none by simp [ho, hpar, preparedPrivate, turnOf, SourceObservation.rawState]]; simp [ho, hpar, turnOf]
      | some n =>
        have hnot : ¬ TopologyContains db (numberedId n).asStr := by
          rintro ⟨t, ht, hts⟩
          obtain ⟨r, hr, hl⟩ := (hdb.topology t.link).mp ⟨t, ht, rfl⟩
          exact h.parent n hpar r hr ((congrArg Link.spanId hl).trans hts)
        simp [ho, hpar, preparedPrivate, turnOf, SourceObservation.rawState, hnot]
    rw [hunresolved] at hu
    cases linked
    simp only [TopologyRow.link, Link.mk.injEq] at hl hu
    obtain ⟨h1, h2, h3, h4⟩ := hl
    subst hu h1 h2 h3 h4
    rfl
  -- No link names the span as its parent, so resolving its children changes nothing.
  have hresolve : ∀ t, t ∈ resolveChildren c.topology o.spanId.asStr ↔ t ∈ db.topology ∨ t = turnLink o := by
    have hold : ∀ t ∈ db.topology, t.spanId ≠ o.spanId.asStr := by
      intro t ht hts
      obtain ⟨r, hr, hl⟩ := (hdb.topology t.link).mp ⟨t, ht, rfl⟩
      exact h.record r hr ((congrArg Link.spanId hl).trans hts)
    have hkeep : ∀ t, t ∈ c.topology ↔ t ∈ db.topology ∨ t = turnLink o := by
      intro t
      rw [hlinked.mem, hlink]
      exact or_congr ⟨fun ht => ht.1, fun ht => ⟨ht, hold t ht⟩⟩ Iff.rfl
    have hparent : ∀ t ∈ c.topology, t.parentSpanId ≠ some o.spanId.asStr := by
      intro t ht
      rcases (hkeep t).mp ht with ht | rfl
      · exact h.children t ht
      · simp only [turnLink, ne_eq, Option.map_eq_some_iff, not_exists, not_and]
        intro p hp he
        exact (h.fitsNew.parent p hp).1 (Identifier.ext he)
    intro t
    rw [mem_resolveChildren, ← hkeep]
    constructor
    · rintro ⟨t₀, ht₀, rfl⟩
      rwa [if_neg (hparent t₀ ht₀)]
    · exact fun ht => ⟨t, ht, if_neg (hparent t ht)⟩
  have hspan : c.reduced.spanId = o.spanId := by rw [hreduced]; rfl
  have hbytes : addedBytes (recordBytes c.reduced c.record)
      (observationBytes (preparedPrivate o).record (preparedPrivate o).payloadHash) = turnBytes o := by
    rw [hreduced, hrecord]
    simp only [preparedPrivate, ho, sanitized_turnOf]
    rfl
  refine ⟨c, ?_⟩
  refine
    { records := fun row => ?_, sequence := rfl, topology := fun t => ?_, observations := fun row => ?_
      inputs := fun row => Table.mem_insert c.insert_input, outcomes := fun row => Table.mem_insert c.insert_outcome
      cursors := fun row hr => ?_, index := fun hn row => ?_, index_nonneg := fun row hr => ?_, generation := rfl
      rest := ?_ }
  · rw [Commit.result]
    refine hstored.mem.trans (or_congr ⟨fun hr => hr.1, fun hr => ⟨hr, h.record row hr⟩⟩ ?_)
    rw [hrow]
  · rw [Commit.result]
    simp only [hspan]
    exact hresolve t
  · have := c.insert_observation
    rw [hreduced] at this
    exact Table.mem_insert this
  · have hc := c.cursor
    simp only [advanceCursor, ofOption_eq_ok] at hc
    have hkey : ∀ a b : SourceCursorRow,
        (a.source = o.checkpoint.source ∧ a.generation = privateSourceGeneration o.checkpoint) →
        (b.source = o.checkpoint.source ∧ b.generation = privateSourceGeneration o.checkpoint) → Keyed.Clash a b :=
      fun a b ha hb => Prod.ext (ha.1.trans hb.1.symm) (ha.2.trans hb.2.symm)
    rcases (Table.mem_upsert hc hkey).mp hr with ⟨hr, -⟩ | rfl
    · exact Or.inl hr
    · refine Or.inr ?_
      unfold Table.upserted
      cases hf : db.sourceCursors.find? fun row => row.source = o.checkpoint.source ∧
          row.generation = privateSourceGeneration o.checkpoint with
      | none => exact privateSourceGeneration_turnOf
      | some row => exact (Table.mem_of_find? hf).2.2.trans privateSourceGeneration_turnOf
  · have hfind : db.hotTraceIndex.find? (fun row => row.traceId = (preparedPrivate o).state.traceId.asStr) = none :=
      Table.find?_eq_none.mpr hn
    have hnew : c.indexRow =
        { traceId := o.traceId.asStr, latestObservedAt := o.timing.startUnixMs
          unresolved := HasUnresolved (resolveChildren c.topology c.reduced.spanId.asStr) o.traceId.asStr
          recordCount := 1, estimatedBytes := turnBytes o, indexedComplete := true } := by
      rw [Commit.indexRow, Table.upserted, hfind, Option.map_none, Option.getD_none, hbytes, hspan]
      rfl
    refine (hindex row).trans (or_congr ⟨fun hr => hr.1, fun hr => ⟨hr, hn row hr⟩⟩ ?_)
    rw [hnew]
    rfl
  · rcases (hindex row).mp hr with ⟨hr, -⟩ | rfl
    · exact h.index row hr
    · have hremoved : removedBytes ((db.recordRow (preparedPrivate o).state.spanId.asStr).map (·.sqlLength)) = 0 := by
        rw [show db.recordRow (preparedPrivate o).state.spanId.asStr = none from hnone]
        rfl
      unfold Commit.indexRow Table.upserted
      cases hf : db.hotTraceIndex.find? fun row => row.traceId = (preparedPrivate o).state.traceId.asStr with
      | none => exact Int.natCast_nonneg _
      | some row =>
        have := h.index row (Table.mem_of_find? hf).1
        simp only [hremoved, Option.map_some, Option.getD_some]
        omega
  · have hbackfill : c.backfill = db.lifecycleBackfillCursor := by rw [hcomplete, hdb.backfill]
    simp only [Commit.result, hbackfill]

/-- **A turn that fits is stored.** -/
theorem ingest_turn (hdb : Coherent db) (harchived : ¬ db.IsArchived (numberedId trace).asStr)
    (h : TurnFits db stream trace span parent start) :
    ∃ db', ingestInTransaction db (turnOf stream trace span parent start) = .ok (.committed, db') ∧
      TurnStored db (turnOf stream trace span parent start) db' := by
  obtain ⟨c, hc⟩ := h.exists_commit hdb
  refine ⟨c.result, ingest_committed prepareObservation_turnOf h.freshCursor ?_ h.unsettled c, ?_⟩
  · refine Table.find?_eq_none.mpr fun row hrow hk => harchived ⟨row, hrow, ?_⟩
    exact hk.trans (hashOpaqueIdentifier_of_private (isPrivate_numberedId trace))
  · exact hc

theorem step_turn (hdb : Coherent db) (harchived : ¬ db.IsArchived (numberedId trace).asStr)
    (h : TurnFits db stream trace span parent start) :
    TurnStored db (turnOf stream trace span parent start)
      ((Txn.ingest (turnOf stream trace span parent start)).step db) := by
  obtain ⟨db', hdb', hs⟩ := ingest_turn hdb harchived h
  rwa [step_ingest_of hdb']

/-- **A turn of an archived trace restores the trace, and is stored.** -/
theorem ingest_turn_restored (hdb : Coherent db) {control : TraceControlRow} (hcontrol : control ∈ db.traceControl)
    (hkey : control.traceKey = (numberedId trace).asStr) (hne : db.copiesOf (numberedId trace).asStr ≠ [])
    (hs : ∀ row ∈ db.records, ∀ copy ∈ db.spanControl, row.spanId ≠ copy.spanId)
    (hspan : ∀ copy ∈ db.spanControl, copy.spanId ≠ (numberedId span).asStr)
    (hcursor : FreshCursor db (turnOf stream trace span parent start).checkpoint)
    (h : ∀ db₁, Rehydration db control (numberedId trace).asStr db₁ → TurnFits db₁ stream trace span parent start) :
    ∃ db₁ db', Nonempty (Rehydration db control (numberedId trace).asStr db₁) ∧
      ingestInTransaction db (turnOf stream trace span parent start) = .ok (.committed, db') ∧
      TurnStored db₁ (turnOf stream trace span parent start) db' := by
  have harchived : db.archived (preparedPrivate (turnOf stream trace span parent start)).state = some control :=
    Table.find?_eq_some_of_mem (fun _ _ ha hb => ha.trans hb.symm) hcontrol
      (hkey.trans (hashOpaqueIdentifier_of_private (isPrivate_numberedId trace)).symm)
  obtain ⟨db₁, hr, ⟨r⟩⟩ := exists_rehydration hdb (isPrivate_numberedId trace) harchived hne hs
  obtain ⟨c, hc⟩ := (h db₁ r).exists_commit (hdb.rehydrate r)
  exact ⟨db₁, c.result, ⟨r⟩,
    ingest_restored prepareObservation_turnOf hcursor harchived hspan hr (h db₁ r).unsettled c, hc⟩

/-! ### Sizes under SHA-256 -/

omit [Sha2] in
theorem turnBytes_le : @turnBytes sha256 (turnOf stream trace span parent start) ≤ 20000 := by
  have hstate : byteLength (stateJson (turnOf stream trace span parent start).rawState) ≤ 4000 :=
    byteLength_turnState_le
  have hrecord : byteLength (turnRecord (turnOf stream trace span parent start)).json ≤ 6000 :=
    byteLength_turnRecord_le
  have hhash : ∀ message, ("sha256:" ++ @Sha2.hexDigest sha256 message).utf8ByteSize ≤ 284 := fun message => by
    refine (Json.utf8ByteSize_le _).trans ?_
    rw [String.length_append, show (@Sha2.hexDigest sha256 message).length = 64 from Sha256.length_hexDigest message]
    decide
  have hhash := hhash (utf8 (turnRecord (turnOf stream trace span parent start)).json)
  unfold turnBytes addedBytes recordBytes observationBytes traceEstimatedRowOverhead
  omega

omit [Sha2] in
theorem recordLineBytes_turnRecord_le : recordLineBytes (turnRecord (turnOf stream trace span parent start)) ≤ 6200 := by
  have hrecord : byteLength (turnRecord (turnOf stream trace span parent start)).json ≤ 6000 :=
    byteLength_turnRecord_le
  have htype : byteLength (Json.str "record") ≤ 100 := by decide +kernel
  have hline := Json.byteLength_object_le (k := 20) (m :=
    [("entry_type", Json.str "record"), ("record", (turnRecord (turnOf stream trace span parent start)).json)])
    (by simp only [List.forall_mem_cons]; decide +kernel) (.cons htype (.cons hrecord .nil))
  exact (Nat.succ_le_succ hline).trans (by decide)

omit [Sha2] in
/-- The header and the footer of an archive of few traces are short. -/
theorem archiveFrame_le {planId : String} {cutoffUnixMs traces records : ℕ} (hp : planId.length ≤ 64)
    (hc : cutoffUnixMs < 10 ^ 20) (ht : traces < 10 ^ 20) (hr : records < 10 ^ 20) :
    headerBytes planId cutoffUnixMs + footerBytes traces records ≤ 5000 := by
  have hnat : ∀ n < 10 ^ 20, byteLength (Json.nat n) ≤ 80 := fun n hn => by
    simpa [Json.nat, byteLength] using Json.utf8ByteSize_toString_le hn
  have hplan : byteLength (Json.str planId) ≤ 1600 := (Json.byteLength_str_le planId).trans (by omega)
  have hparts : byteLength (Json.str "header") ≤ 100 ∧ byteLength (Json.str retentionArchiveVersion) ≤ 100 ∧
      byteLength (Json.str "footer") ≤ 100 ∧ byteLength (Json.str zeroDigest) ≤ 1600 := by decide +kernel
  obtain ⟨h1, h2, h3, h4⟩ := hparts
  have hheader := Json.byteLength_object_le (k := 20) (m := [("entry_type", Json.str "header"),
    ("schema_version", Json.str retentionArchiveVersion), ("plan_id", Json.str planId),
    ("cutoff_unix_ms", Json.nat cutoffUnixMs)])
    (by simp only [List.forall_mem_cons]; decide +kernel)
    (.cons h1 (.cons h2 (.cons hplan (.cons (hnat _ hc) .nil))))
  have hfooter := Json.byteLength_object_le (k := 20) (m := [("entry_type", Json.str "footer"),
    ("traces", Json.nat traces), ("records", Json.nat records), ("records_sha256", Json.str zeroDigest)])
    (by simp only [List.forall_mem_cons]; decide +kernel)
    (.cons h3 (.cons (hnat _ ht) (.cons (hnat _ hr) (.cons h4 .nil))))
  exact (Nat.add_le_add (Nat.succ_le_succ hheader) (Nat.succ_le_succ hfooter)).trans (by decide)

/-! ### Passes over turns -/

omit [Sha2] in
/-- The records of a trace, in any order. -/
theorem recordsOf_perm {t : String} {l : List RecordRow} (hl : l.Nodup)
    (h : ∀ row, row ∈ l ↔ row ∈ db.records ∧ row.traceId = t) : (db.recordsOf t).Perm l := by
  have hnodup : (db.recordsOf t).Nodup := by
    refine (sortByKey_perm.nodup_iff).mpr (List.Nodup.filter _ ?_)
    exact db.records.distinct.imp fun {a b} hab he => hab (Or.inl (by rw [he]))
  exact (List.perm_ext_iff_of_nodup hnodup hl).mpr fun row => by rw [mem_recordsOf, h row]

/-- A lifecycle request ten days after the epoch, with the widest bounds. -/
def requestAfter (hotDays warmDays deleteAfterDays : ℕ) : LifecycleRequest where
  nowUnixMs := 10 * dayMillis
  hotDays := hotDays
  warmDays := warmDays
  deleteAfterDays := deleteAfterDays
  maxTracesPerPass := 128
  maxArchiveRecords := 100000
  maxArchiveBytes := 256 * 1024 * 1024

/-- The first candidate of a pass over a store whose only hot trace is the given one. -/
def hotCandidate (trace start : Number) : Candidate where
  tier := .hot
  identity := (numberedId trace).asStr
  latestObservedAt := start
  unresolved := false
  cursorAfter := { hot := (numberedId trace).asStr, warm := "", cold := "", nextTier := 1 }

/-- A call of a retention pass with the widest bounds. -/
def retentionCall (cutoffUnixMs : ℕ) (expectedPlanId : String) : RetentionCall where
  cutoffUnixMs := cutoffUnixMs
  bounds := ⟨100000, 256 * 1024 * 1024⟩
  expectedPlanId := expectedPlanId
  archivePath := "archive.jsonl"

omit [Sha2] in
theorem length_hexDigest_sha256 (message : List UInt8) : (@Sha2.hexDigest sha256 message).length = 64 :=
  Sha256.length_hexDigest message

omit [Sha2] in
/-- **A trace of few old turns may expire, when every other trace is younger than the cutoff.** -/
theorem expirable_of_turns {cutoffUnixMs : ℕ} (hc : cutoffUnixMs < 10 ^ 20)
    (hold : ∃ row ∈ db.observations, row.traceId = (numberedId trace).asStr)
    (hobs : ∀ row ∈ db.observations, row.traceId = (numberedId trace).asStr ↔ row.observedAt < cutoffUnixMs)
    (hresolved : ∀ row ∈ db.topology, row.traceId = (numberedId trace).asStr → row.unresolved = false)
    (hne : db.recordsOf (numberedId trace).asStr ≠ []) (hlen : (db.recordsOf (numberedId trace).asStr).length ≤ 1000)
    (hturn : ∀ row ∈ db.recordsOf (numberedId trace).asStr, ∃ stream span parent start,
      row = turnRow row.commitSeq (turnOf stream trace span parent start)) :
    @Expirable sha256 db cutoffUnixMs ⟨100000, 256 * 1024 * 1024⟩ (numberedId trace).asStr := by
  set T := (numberedId trace).asStr
  obtain ⟨old, hmem, htrace⟩ := hold
  have hpos : 0 < cutoffUnixMs := (Nat.zero_le _).trans_lt ((hobs old hmem).mp htrace)
  have honly : ∀ t, t ∈ expirableTraces db cutoffUnixMs ↔ t = T := by
    intro t
    rw [mem_expirableTraces]
    constructor
    · rintro ⟨⟨row, hrow, rfl⟩, hlt⟩
      exact (hobs row hrow).mpr ((le_latestObservedAt hrow).trans_lt hlt)
    · rintro rfl
      refine ⟨⟨old, hmem, htrace⟩, ?_⟩
      have : db.latestObservedAt T ≤ cutoffUnixMs - 1 :=
        latestObservedAt_le_iff.mpr fun row hrow ht => Nat.le_sub_one_of_lt ((hobs row hrow).mp ht)
      omega
  have hlines : recordLinesBytes (db.recordsOf T) ≤ 6200 * (db.recordsOf T).length := by
    have hle : ∀ n ∈ (db.recordsOf T).map (fun row => recordLineBytes row.record), n ≤ 6200 := by
      intro n hn
      obtain ⟨row, hrow, rfl⟩ := List.mem_map.mp hn
      obtain ⟨stream, span, parent, start, he⟩ := hturn row hrow
      rw [he]
      exact recordLineBytes_turnRecord_le
    have := List.sum_le_card_nsmul _ 6200 hle
    rwa [List.length_map, smul_eq_mul, Nat.mul_comm] at this
  let : Sha2 := sha256
  refine
    { bounds_ok := rfl, only := expirableTraces_eq_singleton honly
      resolved := fun ⟨row, hrow, ht, hu⟩ => by rw [hresolved row hrow ht] at hu; cases hu
      nonempty := hne, records_le := hlen.trans (by decide), ordered := fun row hrow => ?_
      bytes_le := fun planId hplan => ?_ }
  · obtain ⟨stream, span, parent, start, he⟩ := hturn row hrow
    rw [he]
    rfl
  · have hlength : planId.length ≤ 64 := by
      simp only [List.mem_cons, List.not_mem_nil, or_false] at hplan
      rcases hplan with rfl | rfl
      · decide
      · exact (length_hexDigest_sha256 _).le
    have hframe : headerBytes planId cutoffUnixMs + footerBytes 1 (db.recordsOf T).length ≤ 5000 :=
      archiveFrame_le hlength hc (by decide) (hlen.trans_lt (by decide))
    simp only
    omega

omit [Sha2] in
/-- **A trace of one turn can be moved.** -/
theorem movable_of_turn {hotDays warmDays deleteAfterDays : ℕ} {commitSeq : ℕ}
    (hrecords : ∀ row, row ∈ db.records ∧ row.traceId = (numberedId trace).asStr ↔
      row = turnRow commitSeq (turnOf stream trace span parent start))
    {row : HotTraceRow} (hrow : row ∈ db.hotTraceIndex) (htrace : row.traceId = (numberedId trace).asStr)
    (hcount : row.recordCount = 1) (hresolved : row.unresolved = false)
    (hbytes : row.estimatedBytes = (@turnBytes sha256 (turnOf stream trace span parent start) : ℕ))
    (hspan : ∀ copy ∈ db.spanControl, copy.spanId ≠ (numberedId span).asStr)
    (hg : db.reportGeneration + 1 < 2 ^ 64) (he : db.reportVisibilityEpoch + 1 < 2 ^ 64) :
    Movable db (requestAfter hotDays warmDays deleteAfterDays) row := by
  have hlist : db.recordsOf row.traceId = [turnRow commitSeq (turnOf stream trace span parent start)] := by
    rw [htrace]
    exact List.perm_singleton.mp (recordsOf_perm (List.nodup_singleton _) fun r => by
      rw [List.mem_singleton, hrecords])
  have hle : @turnBytes sha256 (turnOf stream trace span parent start) ≤ 20000 := turnBytes_le
  have honly : ∀ r ∈ db.records, r.traceId = row.traceId →
      r = turnRow commitSeq (turnOf stream trace span parent start) := fun r hr ht =>
    (hrecords r).mp ⟨hr, ht.trans htrace⟩
  refine
    { mem := hrow, count := by rw [hcount, hlist]; rfl, resolved := hresolved
      bytes := by rw [hbytes]; exact Int.natCast_nonneg _, records_le := by rw [hcount]; exact Nat.le_of_ble_eq_true rfl
      bytes_le := by rw [hbytes]; exact Int.ofNat_le.mpr (hle.trans (Nat.le_of_ble_eq_true rfl))
      spans := fun r hr ht copy hcopy hs => ?_, valid := fun r hr ht => ?_, generation := hg, epoch := he }
  · rw [honly r hr ht] at hs
    exact hspan copy hcopy hs.symm
  · rw [honly r hr ht]
    exact (@durableRecord_ok sha256 _ _ _ (@durableRecord_turnOf stream trace span start parent sha256)).2

end AgentObservability.Store
