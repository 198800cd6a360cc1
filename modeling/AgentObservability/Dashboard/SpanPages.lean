import AgentObservability.Dashboard.Scan

/-!
# Pages of spans

`scanSpans` from slice to slice: whatever the limits cut, the slices give every
span that a filter selects once, in the order of time and span (`follow_spansPage`).
-/

namespace AgentObservability.Dashboard

open Domain Contracts Foundation Report

variable {A : Type} {rows : List (ViewRow A)} {row : ViewRow A}

/-! ### Reading a row -/

theorem fits_of_le {decodedBytes : ℕ} {json : SpanJson A} (h : json.bytes ≤ maxDecodedBytes) :
    fits decodedBytes json = .ok (decide (decodedBytes + json.bytes ≤ maxDecodedBytes)) := by
  rw [fits, require_true h]
  rfl

/-- The first row of a slice fits. -/
theorem fits_zero {json : SpanJson A} (h : json.bytes ≤ maxDecodedBytes) : fits 0 json = .ok true := by
  rw [fits_of_le h, Nat.zero_add, decide_eq_true h]

section

variable [Amount A]

theorem ViewRow.Readable.readSpan {span : ReportSpanV2 A} (h : row.Readable span) :
    Dashboard.readSpan row.spanJson = .ok span := by
  rw [Dashboard.readSpan, h.json]
  exact congrArg (· >>= fun _ => pure span) (require_true h.valid)

theorem Published.mem_spansOf (h : Published rows) {span : ReportSpanV2 A} :
    span ∈ spansOf rows ↔ ∃ row ∈ rows, row.Readable span := by
  rw [spansOf, List.mem_filterMap]
  constructor
  · rintro ⟨row, hrow, hspan⟩
    obtain ⟨s, hs⟩ := h.readable row hrow
    have : s = span := Option.some.inj (hs.json.symm.trans hspan)
    exact ⟨row, hrow, this ▸ hs⟩
  · rintro ⟨row, hrow, hspan⟩
    exact ⟨row, hrow, hspan.json⟩

end

/-- The keys of rows are distinct if they have the ids of the spans in them. -/
theorem nodup_keys {κ : Type} {key : ViewRow A → κ} (part : κ → String) (hpart : ∀ row, part (key row) = row.spanId)
    (h : (rows.map ViewRow.spanId).Nodup) : DistinctKeys (rows.map fun row => (key row, row)) := by
  rw [DistinctKeys, List.map_map]
  refine List.Nodup.of_map part ?_
  rw [List.map_map]
  exact (List.map_congr_left fun row _ => hpart row) ▸ h

/-! ### The source -/

/-- The rows of the view or of a trace. -/
def scopeRows (rows : List (ViewRow A)) : Option String → List (ViewRow A)
  | none => rows
  | some traceId => rows.filter fun row => row.traceId = traceId

/-- The position of a cursor in the view or in a trace. -/
def SpanScanCursor.scopePosition (cursor : SpanScanCursor) : Option String → SpanKey
  | none => cursor.position
  | some traceId => cursor.after.elim (toLex (⊥, toLex (traceId, ""))) fun after => toLex (WithBot.some after.1, toLex (traceId, after.2.2))

theorem spanSource_eq (cursor : SpanScanCursor) (traceId : Option String) :
    spanSource rows cursor traceId = (rowsAfter (cursor.scopePosition traceId) (spanEntries (scopeRows rows traceId))).map Prod.snd := by
  cases traceId <;> rfl

theorem distinct_spanEntries (h : (rows.map ViewRow.spanId).Nodup) (traceId : Option String) :
    DistinctKeys (spanEntries (scopeRows rows traceId)) := by
  have hsub : ((scopeRows rows traceId).map ViewRow.spanId).Nodup := by
    cases traceId with
    | none => exact h
    | some t => exact h.sublist (List.filter_sublist.map _)
  exact nodup_keys (fun key => (ofLex (ofLex key).2).2) (fun _ => rfl) hsub

/-- After a row the cursor points to the next one. -/
theorem spanSource_cons (h : (rows.map ViewRow.spanId).Nodup) {cursor : SpanScanCursor} {traceId : Option String}
    {unread : List (ViewRow A)} (hsource : spanSource rows cursor traceId = row :: unread) :
    spanSource rows ⟨some (row.startTimeUnixMs, row.traceId, row.spanId)⟩ traceId = unread := by
  rw [spanSource_eq] at hsource ⊢
  obtain ⟨entry, entries, hentries, hrow, rfl⟩ := List.map_eq_cons_iff.mp hsource
  have hmem : entry ∈ spanEntries (scopeRows rows traceId) := (mem_rowsAfter.mp (hentries ▸ List.mem_cons_self)).1
  obtain ⟨r, hr, rfl⟩ := List.mem_map.mp hmem
  obtain rfl : r = row := hrow
  have hposition : SpanScanCursor.scopePosition ⟨some (r.startTimeUnixMs, r.traceId, r.spanId)⟩ traceId = r.spanKey := by
    cases traceId with
    | none => rfl
    | some t =>
      have htrace : r.traceId = t := by simpa using (List.mem_filter.mp hr).2
      rw [← htrace]
      rfl
  rw [hposition, rowsAfter_cons (distinct_spanEntries h traceId) hentries]

/-- A scan from the beginning has every row of its scope. -/
theorem spanSource_perm (traceId : Option String) : (spanSource rows {} traceId).Perm (scopeRows rows traceId) := by
  rw [spanSource_eq]
  have hall : ∀ entry ∈ spanEntries (scopeRows rows traceId), SpanScanCursor.scopePosition {} traceId < entry.1 := by
    intro entry hentry
    obtain ⟨r, _, rfl⟩ := List.mem_map.mp hentry
    cases traceId <;> exact Prod.Lex.toLex_lt_toLex.mpr (.inl (WithBot.bot_lt_coe _))
  refine ((rowsAfter_perm_self hall).map Prod.snd).trans (List.Perm.of_eq ?_)
  rw [spanEntries, List.map_map]
  exact List.map_id _

/-- The rows of a source are in the order of their keys. -/
theorem spanSource_strict (h : (rows.map ViewRow.spanId).Nodup) (cursor : SpanScanCursor) (traceId : Option String) :
    (spanSource rows cursor traceId).Pairwise fun a b => a.spanKey < b.spanKey := by
  rw [spanSource_eq, List.pairwise_map]
  refine (rowsAfter_strict (distinct_spanEntries h traceId)).imp_of_mem fun {a b} ha hb hlt => ?_
  obtain ⟨r, _, rfl⟩ := List.mem_map.mp (mem_rowsAfter.mp ha).1
  obtain ⟨s, _, rfl⟩ := List.mem_map.mp (mem_rowsAfter.mp hb).1
  exact hlt

theorem mem_of_mem_spanSource {cursor : SpanScanCursor} {traceId : Option String} (h : row ∈ spanSource rows cursor traceId) :
    row ∈ rows := by
  rw [spanSource_eq, List.mem_map] at h
  obtain ⟨entry, hentry, rfl⟩ := h
  obtain ⟨r, hr, rfl⟩ := List.mem_map.mp (mem_rowsAfter.mp hentry).1
  cases traceId with
  | none => exact hr
  | some t => exact (List.mem_filter.mp hr).1

/-! ### A slice -/

variable [Amount A] [Lowercase] {filters : DashboardFiltersV1} {traceId : Option String}

/-- The scan gives the span. -/
def selects (filters : DashboardFiltersV1) (traceId : Option String) (span : ReportSpanV2 A) : Bool :=
  traceId.all (span.traceId = ·) && matchesFilters span filters

/-- What the rows give. -/
def selectedSpans (filters : DashboardFiltersV1) (traceId : Option String) (rows : List (ViewRow A)) :
    List (ReportSpanV2 A) := (spansOf rows).filter (selects filters traceId)

theorem selectedSpans_cons {span : ReportSpanV2 A} (h : row.Readable span) (rows : List (ViewRow A)) :
    selectedSpans filters traceId (row :: rows) =
      (if selects filters traceId span then [span] else []) ++ selectedSpans filters traceId rows := by
  have hspans : spansOf (row :: rows) = span :: spansOf rows := List.filterMap_cons_some h.json
  rw [selectedSpans, hspans, List.filter_cons]
  split <;> rfl

/-- A row of the loop, if it is readable. -/
theorem takeSpanRow_eq {span : ReportSpanV2 A} (h : row.Readable span) (batch : SpanScanBatch A) :
    takeSpanRow filters traceId row batch = .ok (
      if batch.decodedBytes + row.spanJson.bytes ≤ maxDecodedBytes then
        .more { batch with
          cursor := ⟨some (row.startTimeUnixMs, row.traceId, row.spanId)⟩
          scanned := batch.scanned + 1
          decodedBytes := batch.decodedBytes + row.spanJson.bytes
          rows := if selects filters traceId span then batch.rows ++ [span] else batch.rows }
      else .stop batch) := by
  rw [takeSpanRow, fits_of_le h.bytes, ok_bind]
  by_cases hfit : batch.decodedBytes + row.spanJson.bytes ≤ maxDecodedBytes
  · simp only [hfit, decide_true, if_true, h.readSpan, ok_bind]
    rfl
  · simp only [hfit, decide_false, Bool.false_eq_true, if_false]
    rfl

/-- A slice of a published view: it gives the first part of what there is, and either the rest is nothing or the cursor
points to it and there is less. -/
theorem scanSpans_slice (h : Published rows) (late : ℕ → Bool) (cursor : SpanScanCursor) (filters : DashboardFiltersV1)
    (traceId : Option String) {outputLimit : ℕ} (hlimit : outputLimit ≠ 0 ∧ outputLimit ≤ maxScanRows) :
    ∃ batch, scanSpans late rows cursor filters traceId outputLimit = .ok batch ∧
      batch.rows ++ (if batch.exhausted then [] else selectedSpans filters traceId (spanSource rows batch.cursor traceId)) =
        selectedSpans filters traceId (spanSource rows cursor traceId) ∧
      (batch.exhausted = false →
        (spanSource rows batch.cursor traceId).length < (spanSource rows cursor traceId).length) := by
  obtain ⟨batch, hloop, hslice⟩ := readLoop_slice (SpanScanBatch.full late outputLimit) (takeSpanRow filters traceId)
    (fun batch => { batch with exhausted := true })
    (fun s : SpanScanBatch A => s.exhausted = false ∧ (s.scanned = 0 → s.decodedBytes = 0)) (fun s => spanSource rows s.cursor traceId) (fun s unread => s.rows ++ selectedSpans filters traceId unread)
    SpanScanBatch.scanned (fun s hs => (of_decide_eq_true hs).1)
    (fun s hs => decide_eq_true ⟨lt_of_lt_of_le (by decide) hs, .inl hs⟩)
    (fun s r unread hgood hsource => by
      obtain ⟨span, hspan⟩ := h.readable r (mem_of_mem_spanSource (hsource ▸ List.mem_cons_self))
      refine ⟨_, takeSpanRow_eq hspan s, ?_⟩
      by_cases hfit : s.decodedBytes + r.spanJson.bytes ≤ maxDecodedBytes
      · rw [if_pos hfit]
        refine ⟨⟨hgood.1, fun hzero => absurd hzero (Nat.succ_ne_zero _)⟩, spanSource_cons h.spanId hsource, ?_, rfl⟩
        rw [selectedSpans_cons hspan]
        split <;> simp
      · rw [if_neg hfit]
        refine ⟨Nat.pos_of_ne_zero fun hzero => hfit ?_, hgood, hsource, rfl⟩
        rw [hgood.2 hzero, Nat.zero_add]
        exact hspan.bytes)
    (s := { cursor }) ⟨rfl, fun _ => rfl⟩ rfl
  refine ⟨batch, by rw [scanSpans, require_true hlimit, ok_bind]; exact hloop, ?_⟩
  obtain ⟨last, _, hsource, htotal, rfl⟩ | ⟨hgood, htotal, hless⟩ := hslice
  · exact ⟨by simpa [selectedSpans, spansOf] using htotal, nofun⟩
  · rw [hgood.1]
    exact ⟨htotal, fun _ => hless⟩

/-- A trace has the selected spans of the view that are of it. -/
theorem selectedSpans_filter (t : String) :
    ∀ {rows : List (ViewRow A)}, (∀ r ∈ rows, ∃ span, r.Readable span) →
      selectedSpans filters (some t) (rows.filter fun r => r.traceId = t) = selectedSpans filters (some t) rows := by
  intro rows
  induction rows with
  | nil => exact fun _ => rfl
  | cons r rows ih =>
    intro hread
    obtain ⟨span, hspan⟩ := hread r List.mem_cons_self
    have hrest := ih fun x hx => hread x (List.mem_cons_of_mem _ hx)
    rw [List.filter_cons, selectedSpans_cons hspan, ← hrest]
    by_cases htrace : r.traceId = t
    · rw [if_pos (decide_eq_true htrace), selectedSpans_cons hspan]
    · have hselects : selects filters (some t) span = false := by
        have hne : ¬ span.traceId = t := hspan.traceId ▸ htrace
        simp [selects, hne]
      rw [if_neg (by simpa using htrace), hselects]
      rfl

/-- What a scan of a trace gives is in the order of time and span. -/
theorem pairwise_selectedSpans (h : Published rows) (cursor : SpanScanCursor) (t : String) :
    (selectedSpans filters (some t) (spanSource rows cursor (some t))).Pairwise fun a b =>
      toLex (a.startTimeUnixMs, a.spanId) < toLex (b.startTimeUnixMs, b.spanId) := by
  have htrace : ∀ r ∈ spanSource rows cursor (some t), r.traceId = t := by
    intro r hr
    rw [spanSource_eq, List.mem_map] at hr
    obtain ⟨entry, hentry, rfl⟩ := hr
    obtain ⟨r, hr, rfl⟩ := List.mem_map.mp (mem_rowsAfter.mp hentry).1
    simpa using (List.mem_filter.mp hr).2
  have hstrict := (spanSource_strict h.spanId cursor (some t)).imp_of_mem
    (S := fun a b => ∀ s ∈ a.spanJson.span, ∀ s' ∈ b.spanJson.span,
      toLex (s.startTimeUnixMs, s.spanId) < toLex (s'.startTimeUnixMs, s'.spanId)) fun {a b} ha hb hlt s hs s' hs' => by
    obtain ⟨sa, hsa⟩ := h.readable a (mem_of_mem_spanSource ha)
    obtain ⟨sb, hsb⟩ := h.readable b (mem_of_mem_spanSource hb)
    obtain rfl : sa = s := Option.some.inj (hsa.json.symm.trans hs)
    obtain rfl : sb = s' := Option.some.inj (hsb.json.symm.trans hs')
    rw [← hsa.startTimeUnixMs, ← hsa.spanId, ← hsb.startTimeUnixMs, ← hsb.spanId]
    simp only [ViewRow.spanKey, Prod.Lex.toLex_lt_toLex, WithBot.coe_lt_coe, WithBot.coe_inj, htrace a ha, htrace b hb,
      lt_self_iff_false, true_and, false_or] at hlt ⊢
    exact hlt
  exact (hstrict.filterMap _ fun a b hab s hs s' hs' => hab s hs s' hs').filter _

/-! ### Page after page -/

/-- `DASHBOARD_SPAN_PAGE_MAX_ROWS`. -/
def dashboardSpanPageMaxRows : ℕ := 200

/-- A page of the spans of a trace. -/
def spansPage (rows : List (ViewRow A)) (filters : DashboardFiltersV1) (traceId : String) (late : ℕ → Bool)
    (cursor : SpanScanCursor) : Except BuildError (Page SpanScanCursor (ReportSpanV2 A)) := do
  let batch ← scanSpans late rows cursor filters (some traceId) dashboardSpanPageMaxRows
  pure ⟨batch.rows, if batch.exhausted then none else some batch.cursor⟩

/-- **The pages of a trace.** However the slices are cut, they end, and they give every span of the trace that the filters
select once, by time and span. -/
theorem follow_spansPage (h : Published rows) (late : ℕ → ℕ → Bool) (filters : DashboardFiltersV1) (traceId : String)
    {pages : ℕ} (hpages : rows.length < pages) :
    ∃ spans, follow (fun n => spansPage rows filters traceId (late n)) pages 0 {} = .ok (some spans) ∧
      spans.Perm (selectedSpans filters (some traceId) rows) ∧
      spans.Pairwise fun a b => toLex (a.startTimeUnixMs, a.spanId) < toLex (b.startTimeUnixMs, b.spanId) := by
  have hlength : (spanSource rows {} (some traceId)).length ≤ rows.length :=
    (spanSource_perm (some traceId)).length_eq ▸ List.length_filter_le _ _
  have hfollow := follow_eq (fun n => spansPage rows filters traceId (late n)) (fun _ => True)
    (fun cursor => selectedSpans filters (some traceId) (spanSource rows cursor (some traceId)))
    (fun cursor => (spanSource rows cursor (some traceId)).length)
    (fun n cursor _ => by
      obtain ⟨batch, hbatch, htotal, hless⟩ := scanSpans_slice h (late n) cursor filters (some traceId)
        (show dashboardSpanPageMaxRows ≠ 0 ∧ dashboardSpanPageMaxRows ≤ maxScanRows by decide)
      refine ⟨⟨batch.rows, if batch.exhausted then none else some batch.cursor⟩, by rw [spansPage, hbatch]; rfl, ?_⟩
      cases hexhausted : batch.exhausted with
      | true => simpa [hexhausted] using htotal
      | false => exact ⟨trivial, by simpa [hexhausted] using htotal, hless hexhausted⟩)
    0 trivial (show (spanSource rows {} (some traceId)).length < pages by omega)
  refine ⟨_, hfollow, ?_, ?_⟩
  · rw [← selectedSpans_filter traceId h.readable]
    exact ((spanSource_perm (some traceId)).filterMap _).filter _
  · exact pairwise_selectedSpans h {} traceId

end AgentObservability.Dashboard
