import AgentObservability.Dashboard.SpanPages

/-!
# Pages of values

`scanFacetRows` and `scanIdentities` from slice to slice. Both read the values of
a column in their order and remember only the last one that counted. `restValues`
says which values are still to come; `mem_restValues` that these are the distinct
values of the selected spans, whatever the kernel orders behind the values.
-/

namespace AgentObservability.Dashboard

open Domain Contracts Foundation Report

variable {A : Type} {rows : List (ViewRow A)} {row : ViewRow A} {kernel : ReportViewKernel} {column : Column} {value : String}

/-! ### The source -/

namespace DimensionPosition

/-- The position is one of the kernel. -/
def Bound (kernel : ReportViewKernel) (position : DimensionPosition) : Prop := position.bind kernel = .ok position

theorem bound_new (kernel : ReportViewKernel) : Bound kernel (new kernel) := by
  cases kernel <;> rfl

theorem key_new (kernel : ReportViewKernel) : (new kernel).key = unbound.key := by
  cases kernel <;> rfl

/-- A position is bound to its kernel, which does not move it. -/
theorem bind_eq_ok_iff {position bound : DimensionPosition} (h : position.bind kernel = .ok bound) :
    Bound kernel bound ∧ bound.key = position.key := by
  cases position <;> cases kernel <;> cases h <;> exact ⟨rfl, rfl⟩

/-- The position of a row. -/
def onRow (kernel : ReportViewKernel) (value : String) (row : ViewRow A) : DimensionPosition :=
  match kernel with
  | .v1 => .v1 (some (value, row.startTimeUnixMs, row.traceId, row.spanId))
  | .v2 => .v2 (some (value, row.sourceOrder))

theorem bound_onRow (value : String) (row : ViewRow A) : Bound kernel (onRow kernel value row) := by
  cases kernel <;> rfl

theorem key_onRow (value : String) (row : ViewRow A) : (onRow kernel value row).key = row.dimensionKey kernel value := by
  cases kernel <;> rfl

theorem advance_of_bound {position : DimensionPosition} (h : Bound kernel position) (value : String) (row : ViewRow A) :
    position.advance value row = .ok (onRow kernel value row) := by
  cases position with
  | unbound => cases kernel <;> exact nomatch h
  | v1 after =>
    cases kernel with
    | v1 => rfl
    | v2 => exact nomatch h
  | v2 after =>
    cases kernel with
    | v1 => exact nomatch h
    | v2 => rfl

end DimensionPosition

theorem mem_dimensionEntries {entry : DimensionKey × String × ViewRow A} :
    entry ∈ dimensionEntries kernel column rows ↔
      entry.2.2 ∈ rows ∧ entry.2.2.column column = some entry.2.1 ∧ entry.1 = entry.2.2.dimensionKey kernel entry.2.1 := by
  obtain ⟨key, value, row⟩ := entry
  simp only [dimensionEntries, List.mem_filterMap, Option.map_eq_some_iff, Prod.mk.injEq]
  constructor
  · rintro ⟨r, hr, v, hv, rfl, rfl, rfl⟩
    exact ⟨hr, hv, rfl⟩
  · rintro ⟨hr, hv, rfl⟩
    exact ⟨row, hr, value, hv, rfl, rfl, rfl⟩

theorem distinct_dimensionEntries (hspans : (rows.map ViewRow.spanId).Nodup) (horders : (rows.map ViewRow.sourceOrder).Nodup) :
    DistinctKeys (dimensionEntries kernel column rows) := by
  have hkeys : ∀ a b : ViewRow A, a.spanId ≠ b.spanId ∧ a.sourceOrder ≠ b.sourceOrder →
      ∀ v w, a.dimensionKey kernel v ≠ b.dimensionKey kernel w := by
    intro a b hne v w heq
    cases kernel with
    | v1 => exact hne.1 (congrArg (fun key : DimensionKey => (ofLex (ofLex (ofLex key).2).2).2) heq)
    | v2 => exact hne.2 (WithBot.coe_injective (congrArg (fun key : DimensionKey => (ofLex (ofLex key).2).1) heq))
  have hrows : rows.Pairwise fun a b => a.spanId ≠ b.spanId ∧ a.sourceOrder ≠ b.sourceOrder :=
    (List.pairwise_map.mp hspans).and (List.pairwise_map.mp horders)
  refine List.pairwise_map.mpr (hrows.filterMap _ fun a b hab entry hentry entry' hentry' => ?_)
  obtain ⟨v, _, rfl⟩ := Option.map_eq_some_iff.mp hentry
  obtain ⟨w, _, rfl⟩ := Option.map_eq_some_iff.mp hentry'
  exact hkeys a b hab v w

theorem mem_of_mem_dimensionSource {after : DimensionPosition} {entry : String × ViewRow A}
    (h : entry ∈ dimensionSource kernel column rows after) : entry.2 ∈ rows ∧ entry.2.column column = some entry.1 := by
  obtain ⟨keyed, hkeyed, rfl⟩ := List.mem_map.mp h
  have hmem := mem_dimensionEntries.mp (mem_rowsAfter.mp hkeyed).1
  exact ⟨hmem.1, hmem.2.1⟩

/-- From the beginning a source has every value of the column. -/
theorem mem_dimensionSource {entry : String × ViewRow A} :
    entry ∈ dimensionSource kernel column rows .unbound ↔ entry.2 ∈ rows ∧ entry.2.column column = some entry.1 := by
  refine ⟨mem_of_mem_dimensionSource, fun h => List.mem_map.mpr ⟨(entry.2.dimensionKey kernel entry.1, entry), ?_, rfl⟩⟩
  refine mem_rowsAfter.mpr ⟨mem_dimensionEntries.mpr ⟨h.1, h.2, rfl⟩, ?_⟩
  have hle : "" ≤ entry.1 := not_lt.mp fun hlt => List.not_lt_nil _ (String.lt_iff_toList_lt.mp hlt)
  refine Prod.Lex.toLex_lt_toLex.mpr (hle.lt_or_eq.imp_right fun heq => ⟨heq, ?_⟩)
  cases kernel <;> exact Prod.Lex.toLex_lt_toLex.mpr (.inl (WithBot.bot_lt_coe _))

theorem length_dimensionSource_le (after : DimensionPosition) : (dimensionSource kernel column rows after).length ≤ rows.length := by
  rw [dimensionSource, List.length_map, rowsAfter_perm.length_eq]
  exact (List.length_filter_le _ _).trans (List.length_filterMap_le _ _)

/-- The values of a source are in their order. -/
theorem dimensionSource_sorted (after : DimensionPosition) :
    (dimensionSource kernel column rows after).Pairwise fun a b => a.1 ≤ b.1 := by
  rw [dimensionSource, List.pairwise_map]
  refine rowsAfter_sorted.imp_of_mem fun {a b} ha hb hle => ?_
  have hkeyA := (mem_dimensionEntries.mp (mem_rowsAfter.mp ha).1).2.2
  have hkeyB := (mem_dimensionEntries.mp (mem_rowsAfter.mp hb).1).2.2
  rw [hkeyA, hkeyB] at hle
  obtain hlt | heq := Prod.Lex.toLex_le_toLex.mp hle
  · exact hlt.le
  · exact heq.1.le

/-- After a row the position points to the next one. -/
theorem dimensionSource_cons (hspans : (rows.map ViewRow.spanId).Nodup) (horders : (rows.map ViewRow.sourceOrder).Nodup)
    {after : DimensionPosition} {entry : String × ViewRow A} {unread : List (String × ViewRow A)}
    (hsource : dimensionSource kernel column rows after = entry :: unread) :
    dimensionSource kernel column rows (.onRow kernel entry.1 entry.2) = unread := by
  obtain ⟨keyed, entries, hentries, rfl, rfl⟩ := List.map_eq_cons_iff.mp hsource
  have hkey := (mem_dimensionEntries.mp (mem_rowsAfter.mp (hentries ▸ List.mem_cons_self)).1).2.2
  rw [dimensionSource, DimensionPosition.key_onRow, ← hkey,
    rowsAfter_cons (distinct_dimensionEntries hspans horders) hentries]

/-- The source depends on the position only by its key. -/
theorem dimensionSource_congr {after after' : DimensionPosition} (h : after.key = after'.key) :
    dimensionSource kernel column rows after = dimensionSource kernel column rows after' := by
  rw [dimensionSource, h]
  rfl

/-! ### Phases -/

/-- The phases after a phase. -/
def FacetPhase.later : FacetPhase → List FacetPhase
  | .repo => [.session, .agent, .model]
  | .session => [.agent, .model]
  | .agent => [.model]
  | .model => []

theorem later_of_next {phase next : FacetPhase} (h : phase.next = some next) : phase.later = next :: next.later := by
  cases phase <;> cases h <;> rfl

theorem later_of_next_none {phase : FacetPhase} (h : phase.next = none) : phase.later = [] := by
  cases phase <;> first | rfl | cases h

/-! ### What is to come -/

section Rest

variable [Lowercase] {filters : DashboardFiltersV1}

/-- A value counts: it is not empty, it did not count before, and its span is selected. -/
def emits (filters : DashboardFiltersV1) (last : Option String) (value : String) (span : ReportSpanV2 A) : Bool :=
  value ≠ "" && last ≠ some value && matchesFilters span filters

/-- The values that come of a last one and more rows. -/
def restValues (filters : DashboardFiltersV1) : Option String → List (String × ViewRow A) → List String
  | _, [] => []
  | last, entry :: unread =>
    if entry.2.spanJson.span.any (emits filters last entry.1) then entry.1 :: restValues filters (some entry.1) unread
    else restValues filters last unread

/-- A row counts. -/
theorem any_emits_iff {last : Option String} {entry : String × ViewRow A} :
    entry.2.spanJson.span.any (emits filters last entry.1) = true ↔
      entry.1 ≠ "" ∧ last ≠ some entry.1 ∧ ∃ span, entry.2.spanJson.span = some span ∧ matchesFilters span filters = true := by
  rw [Option.any_eq_true]
  constructor
  · rintro ⟨span, hspan, hemits⟩
    simp only [emits, Bool.and_eq_true, decide_eq_true_eq] at hemits
    exact ⟨hemits.1.1, hemits.1.2, span, hspan, hemits.2⟩
  · rintro ⟨hne, hlast, span, hspan, hmatches⟩
    exact ⟨span, hspan, by simp [emits, hne, hlast, hmatches]⟩

/-- **The values to come are distinct**, and they are those of the selected spans. The induction is on the rows; the values
are in their order, so that an equal one is next to the last one. -/
theorem restValues_spec {unread : List (String × ViewRow A)} (hsorted : unread.Pairwise fun a b => a.1 ≤ b.1) :
    ∀ (last : Option String), (∀ l ∈ last, ∀ entry ∈ unread, l ≤ entry.1) →
      (restValues filters last unread).Pairwise (· < ·) ∧
      ∀ v, v ∈ restValues filters last unread ↔
        v ≠ "" ∧ last ≠ some v ∧ ∃ row span, (v, row) ∈ unread ∧ row.spanJson.span = some span ∧
          matchesFilters span filters = true := by
  induction unread with
  | nil => exact fun _ _ => ⟨List.Pairwise.nil, fun v => by simp [restValues]⟩
  | cons entry unread ih =>
    intro last hle
    obtain ⟨hhead, htail⟩ := List.pairwise_cons.mp hsorted
    rw [restValues]
    by_cases hemits : entry.2.spanJson.span.any (emits filters last entry.1) = true
    · rw [if_pos hemits]
      obtain ⟨hne, hlast, span, hspan, hmatches⟩ := any_emits_iff.mp hemits
      obtain ⟨hpairwise, hmem⟩ := ih htail (some entry.1) fun l hl => Option.some.inj hl ▸ hhead
      refine ⟨List.pairwise_cons.mpr ⟨fun v hv => ?_, hpairwise⟩, fun v => ?_⟩
      · obtain ⟨_, hother, row, _, hrow, _⟩ := (hmem v).mp hv
        exact lt_of_le_of_ne (hhead _ hrow) fun heq => hother (congrArg some heq)
      · rw [List.mem_cons, hmem]
        constructor
        · rintro (rfl | ⟨hv, hother, row, s, hrow, hs⟩)
          · exact ⟨hne, hlast, entry.2, span, List.mem_cons_self, hspan, hmatches⟩
          · refine ⟨hv, fun heq => hother ?_, row, s, List.mem_cons_of_mem _ hrow, hs⟩
            exact congrArg some (le_antisymm (hhead _ hrow) (hle v heq entry List.mem_cons_self))
        · rintro ⟨hv, _, row, s, hrow, hs⟩
          by_cases heq : v = entry.1
          · exact .inl heq
          · obtain heq' | hrow := List.mem_cons.mp hrow
            · exact absurd (congrArg Prod.fst heq') heq
            · exact .inr ⟨hv, fun h => heq (Option.some.inj h).symm, row, s, hrow, hs⟩
    · rw [if_neg hemits]
      obtain ⟨hpairwise, hmem⟩ := ih htail last fun l hl x hx => hle l hl x (List.mem_cons_of_mem _ hx)
      refine ⟨hpairwise, fun v => ?_⟩
      rw [hmem]
      constructor
      · rintro ⟨hv, hlast, row, s, hrow, hs⟩
        exact ⟨hv, hlast, row, s, List.mem_cons_of_mem _ hrow, hs⟩
      · rintro ⟨hv, hlast, row, s, hrow, hs⟩
        obtain rfl | hrow := List.mem_cons.mp hrow
        · exact absurd (any_emits_iff.mpr ⟨hv, hlast, s, hs⟩) hemits
        · exact ⟨hv, hlast, row, s, hrow, hs⟩

/-- The values of the whole column. -/
def columnValues (kernel : ReportViewKernel) (column : Column) (rows : List (ViewRow A)) (filters : DashboardFiltersV1) :
    List String := restValues filters none (dimensionSource kernel column rows .unbound)

theorem columnValues_strict : (columnValues kernel column rows filters).Pairwise (· < ·) :=
  (restValues_spec (dimensionSource_sorted .unbound) none nofun).1

section Published

variable [Amount A] (h : Published rows)
include h

/-- **The values of a column** are those of the selected spans that are not empty. -/
theorem mem_columnValues {v : String} :
    v ∈ columnValues kernel column rows filters ↔
      v ≠ "" ∧ ∃ span ∈ spansOf rows, spanColumn span column = some v ∧ matchesFilters span filters = true := by
  rw [columnValues, (restValues_spec (dimensionSource_sorted .unbound) none nofun).2 v]
  constructor
  · rintro ⟨hv, _, row, span, hrow, hspan, hmatches⟩
    obtain ⟨hmem, hcolumn⟩ := mem_dimensionSource.mp hrow
    obtain ⟨s, hs⟩ := h.readable row hmem
    obtain rfl : s = span := Option.some.inj (hs.json.symm.trans hspan)
    exact ⟨hv, s, h.mem_spansOf.mpr ⟨row, hmem, hs⟩, (hs.column column).symm.trans hcolumn, hmatches⟩
  · rintro ⟨hv, span, hspan, hcolumn, hmatches⟩
    obtain ⟨row, hmem, hs⟩ := h.mem_spansOf.mp hspan
    exact ⟨hv, nofun, row, span, mem_dimensionSource.mpr ⟨hmem, (hs.column column).trans hcolumn⟩, hs.json, hmatches⟩

/-- Both kernels have the same values. -/
theorem columnValues_kernel (kernel kernel' : ReportViewKernel) :
    columnValues kernel column rows filters = columnValues kernel' column rows filters := by
  have : Std.Irrefl fun a b : String => a < b := ⟨fun a => lt_irrefl a⟩
  have : Std.Antisymm fun a b : String => a < b := ⟨fun _ _ hab hba => absurd hab (lt_asymm hba)⟩
  refine List.Pairwise.eq_of_mem_iff columnValues_strict columnValues_strict fun v => ?_
  rw [mem_columnValues h, mem_columnValues h]

end Published

/-! ### A slice of a dimension -/

/-- The position of a cursor can be bound to the kernel. -/
def DimensionPosition.Binds (kernel : ReportViewKernel) (position : DimensionPosition) : Prop :=
  ∃ bound, position.bind kernel = .ok bound

/-- What a cursor leaves of its phase. -/
def FacetScanCursor.phaseRest (kernel : ReportViewKernel) (rows : List (ViewRow A)) (filters : DashboardFiltersV1)
    (cursor : FacetScanCursor) : List FacetRow :=
  (restValues filters cursor.lastEmitted (dimensionSource kernel cursor.phase.column rows cursor.after)).map (.mk cursor.phase)

/-- The rows of a whole phase. -/
def phaseRows (kernel : ReportViewKernel) (rows : List (ViewRow A)) (filters : DashboardFiltersV1) (phase : FacetPhase) :
    List FacetRow := (columnValues kernel phase.column rows filters).map (.mk phase)

/-- What a cursor leaves to be read. -/
def FacetScanCursor.rest (kernel : ReportViewKernel) (rows : List (ViewRow A)) (filters : DashboardFiltersV1)
    (cursor : FacetScanCursor) : List FacetRow :=
  cursor.phaseRest kernel rows filters ++ cursor.phase.later.flatMap (phaseRows kernel rows filters)

/-- The rows that a cursor leaves to be scanned, with one more for every phase to come. -/
def FacetScanCursor.todo (kernel : ReportViewKernel) (rows : List (ViewRow A)) (cursor : FacetScanCursor) : ℕ :=
  cursor.phase.later.length * (rows.length + 1) + (dimensionSource kernel cursor.phase.column rows cursor.after).length

theorem rest_start (phase : FacetPhase) :
    FacetScanCursor.rest kernel rows filters ⟨phase, .new kernel, none⟩ =
      (phase :: phase.later).flatMap (phaseRows kernel rows filters) := by
  have hsource : dimensionSource kernel phase.column rows (.new kernel) = dimensionSource kernel phase.column rows .unbound :=
    dimensionSource_congr (DimensionPosition.key_new kernel)
  rw [FacetScanCursor.rest, FacetScanCursor.phaseRest, hsource]
  rfl

/-- All values, by their dimensions. -/
def facetRows (kernel : ReportViewKernel) (rows : List (ViewRow A)) (filters : DashboardFiltersV1) : List FacetRow :=
  [FacetPhase.repo, .session, .agent, .model].flatMap (phaseRows kernel rows filters)

/-- No value comes twice. -/
theorem nodup_facetRows : (facetRows kernel rows filters).Nodup := by
  have hphase : ∀ p, (phaseRows kernel rows filters p).Nodup := by
    intro p
    have hvalues : (columnValues kernel p.column rows filters).Nodup := columnValues_strict.imp fun hlt => hlt.ne
    exact hvalues.map fun v w heq => congrArg FacetRow.value heq
  refine List.nodup_flatMap.mpr ⟨fun p _ => hphase p, ?_⟩
  have hdistinct : [FacetPhase.repo, .session, .agent, .model].Pairwise (· ≠ ·) := by decide
  refine hdistinct.imp fun {p q} hne => ?_
  intro facet hp hq
  obtain ⟨v, _, rfl⟩ := List.mem_map.mp hp
  obtain ⟨w, _, heq⟩ := List.mem_map.mp hq
  exact hne (congrArg FacetRow.dimension heq).symm

section Facets

variable [Amount A]

/-- A row of the loop, if it is readable. -/
theorem takeFacetRow_eq {entry : String × ViewRow A} {span : ReportSpanV2 A} (h : entry.2.Readable span)
    {batch : FacetScanBatch} (hbound : batch.cursor.after.Bound kernel) :
    takeFacetRow filters entry batch = .ok (
      if batch.decodedBytes + entry.2.spanJson.bytes ≤ maxDecodedBytes then
        if emits filters batch.cursor.lastEmitted entry.1 span = true ∧ dashboardFacetMaxValues ≤ batch.rows.length then
          .stop batch
        else .more { batch with
          rows := if emits filters batch.cursor.lastEmitted entry.1 span then batch.rows ++ [⟨batch.cursor.phase, entry.1⟩]
            else batch.rows
          cursor := ⟨batch.cursor.phase, .onRow kernel entry.1 entry.2,
            if emits filters batch.cursor.lastEmitted entry.1 span then some entry.1 else batch.cursor.lastEmitted⟩
          scanned := batch.scanned + 1
          decodedBytes := batch.decodedBytes + entry.2.spanJson.bytes }
      else .stop batch) := by
  rw [takeFacetRow, fits_of_le h.bytes, ok_bind]
  by_cases hfit : batch.decodedBytes + entry.2.spanJson.bytes ≤ maxDecodedBytes
  · simp only [hfit, decide_true, if_true, h.readSpan, ok_bind, DimensionPosition.advance_of_bound hbound]
    by_cases hfull : emits filters batch.cursor.lastEmitted entry.1 span = true ∧ dashboardFacetMaxValues ≤ batch.rows.length
    · rw [if_pos hfull, if_pos (by simpa [emits] using hfull)]
      rfl
    · rw [if_neg hfull, if_neg (by simpa [emits] using hfull)]
      rfl
  · simp only [hfit, decide_false, Bool.false_eq_true, if_false]
    rfl

/-- A slice of a published view. -/
theorem scanFacetRows_slice (h : Published rows) (late : ℕ → Bool) (cursor : FacetScanCursor) (filters : DashboardFiltersV1)
    (hbinds : cursor.after.Binds kernel) :
    ∃ batch, scanFacetRows late rows cursor kernel filters = .ok batch ∧ batch.cursor.after.Binds kernel ∧
      batch.rows ++ (if batch.exhausted then [] else batch.cursor.rest kernel rows filters) = cursor.rest kernel rows filters ∧
      (batch.exhausted = false → batch.cursor.todo kernel rows < cursor.todo kernel rows) := by
  obtain ⟨start, hstart⟩ := hbinds
  obtain ⟨hbound, hkey⟩ := DimensionPosition.bind_eq_ok_iff hstart
  have hsame : dimensionSource kernel cursor.phase.column rows start = dimensionSource kernel cursor.phase.column rows cursor.after :=
    dimensionSource_congr hkey
  obtain ⟨batch, hloop, hslice⟩ := readLoop_slice (FacetScanBatch.full late) (takeFacetRow filters) (FacetScanBatch.exhaust kernel)
    (fun s : FacetScanBatch => s.exhausted = false ∧ s.cursor.phase = cursor.phase ∧ s.cursor.after.Bound kernel ∧
      (s.scanned = 0 → s.decodedBytes = 0 ∧ s.rows = []))
    (fun s => dimensionSource kernel cursor.phase.column rows s.cursor.after)
    (fun s unread => s.rows ++ (restValues filters s.cursor.lastEmitted unread).map (.mk cursor.phase))
    FacetScanBatch.scanned (fun s hs => (of_decide_eq_true hs).1)
    (fun s hs => decide_eq_true ⟨lt_of_lt_of_le (by decide) hs, .inl hs⟩)
    (fun s entry unread hgood hsource => by
      obtain ⟨hexhausted, hphase, hbound, hzero⟩ := hgood
      have hmem := mem_of_mem_dimensionSource (hsource ▸ List.mem_cons_self : entry ∈ dimensionSource kernel cursor.phase.column rows s.cursor.after)
      obtain ⟨span, hspan⟩ := h.readable entry.2 hmem.1
      refine ⟨_, takeFacetRow_eq hspan hbound, ?_⟩
      by_cases hfit : s.decodedBytes + entry.2.spanJson.bytes ≤ maxDecodedBytes
      · rw [if_pos hfit]
        by_cases hfull : emits filters s.cursor.lastEmitted entry.1 span = true ∧ dashboardFacetMaxValues ≤ s.rows.length
        · rw [if_pos hfull]
          refine ⟨Nat.pos_of_ne_zero fun hnone => ?_, ⟨hexhausted, hphase, hbound, hzero⟩, hsource, rfl⟩
          have hrows := hfull.2
          rw [(hzero hnone).2] at hrows
          exact absurd hrows (by decide)
        · rw [if_neg hfull]
          have hnext : dimensionSource kernel cursor.phase.column rows (.onRow kernel entry.1 entry.2) = unread :=
            dimensionSource_cons h.spanId h.sourceOrder hsource
          refine ⟨⟨hexhausted, hphase, DimensionPosition.bound_onRow _ _, fun hnone => absurd hnone (Nat.succ_ne_zero _)⟩, hnext, ?_, rfl⟩
          have hany : entry.2.spanJson.span.any (emits filters s.cursor.lastEmitted entry.1) =
              emits filters s.cursor.lastEmitted entry.1 span := by rw [hspan.json]; rfl
          rw [restValues, hany, hphase]
          split <;> simp
      · rw [if_neg hfit]
        refine ⟨Nat.pos_of_ne_zero fun hnone => hfit ?_, ⟨hexhausted, hphase, hbound, hzero⟩, hsource, rfl⟩
        rw [(hzero hnone).1, Nat.zero_add]
        exact hspan.bytes)
    (s := { cursor := { cursor with after := start } }) ⟨rfl, rfl, hbound, fun _ => ⟨rfl, rfl⟩⟩ rfl
  refine ⟨batch, by rw [scanFacetRows, hstart, ok_bind]; exact hloop, ?_⟩
  obtain ⟨last, ⟨hexhausted, hphase, hbound, _⟩, _, htotal, rfl⟩ | ⟨⟨hexhausted, hphase, hbound, _⟩, htotal, hless⟩ := hslice
  · have hrows : last.rows = cursor.phaseRest kernel rows filters := by
      rw [FacetScanCursor.phaseRest, ← hsame]
      simpa [restValues] using htotal
    rw [FacetScanBatch.exhaust, hphase]
    cases hnext : cursor.phase.next with
    | none =>
      refine ⟨⟨_, hbound⟩, ?_, nofun⟩
      rw [if_pos rfl, hrows, FacetScanCursor.rest, later_of_next_none hnext]
      rfl
    | some next =>
      refine ⟨⟨_, DimensionPosition.bound_new kernel⟩, ?_, fun _ => ?_⟩
      · rw [if_neg (by rw [hexhausted]; exact Bool.false_ne_true), hrows, rest_start, FacetScanCursor.rest,
          later_of_next hnext]
      · have hlength : (dimensionSource kernel next.column rows (.new kernel)).length ≤ rows.length := length_dimensionSource_le _
        rw [FacetScanCursor.todo, FacetScanCursor.todo, later_of_next hnext, List.length_cons, Nat.add_mul]
        dsimp only
        omega
  · rw [hexhausted]
    have hrest : batch.rows ++ batch.cursor.phaseRest kernel rows filters = cursor.phaseRest kernel rows filters := by
      rw [FacetScanCursor.phaseRest, FacetScanCursor.phaseRest, hphase, ← hsame]
      exact htotal
    refine ⟨⟨_, hbound⟩, ?_, fun _ => ?_⟩
    · rw [if_neg Bool.false_ne_true, FacetScanCursor.rest, FacetScanCursor.rest, hphase, ← hrest, List.append_assoc]
    · rw [FacetScanCursor.todo, FacetScanCursor.todo, hphase, ← hsame]
      exact Nat.add_lt_add_left hless _

/-! ### Page after page -/

/-- A page of values. -/
def facetsPage (rows : List (ViewRow A)) (kernel : ReportViewKernel) (filters : DashboardFiltersV1) (late : ℕ → Bool)
    (cursor : FacetScanCursor) : Except BuildError (Page FacetScanCursor FacetRow) := do
  let batch ← scanFacetRows late rows cursor kernel filters
  pure ⟨batch.rows, if batch.exhausted then none else some batch.cursor⟩

/-- **The pages of values.** However the slices are cut, they end and give all values. -/
theorem follow_facetsPage (h : Published rows) (kernel : ReportViewKernel) (late : ℕ → ℕ → Bool) (filters : DashboardFiltersV1)
    {pages : ℕ} (hpages : 4 * (rows.length + 1) ≤ pages) :
    follow (fun n => facetsPage rows kernel filters (late n)) pages 0 {} = .ok (some (facetRows kernel rows filters)) := by
  have hlength : (dimensionSource kernel .repo rows .unbound).length ≤ rows.length := length_dimensionSource_le _
  have htodo : FacetScanCursor.todo kernel rows {} < pages := by
    have hlater : FacetScanCursor.todo kernel rows {} = 3 * (rows.length + 1) + (dimensionSource kernel .repo rows .unbound).length := rfl
    omega
  refine follow_eq (fun n => facetsPage rows kernel filters (late n)) (fun cursor => cursor.after.Binds kernel)
    (fun cursor => cursor.rest kernel rows filters) (fun cursor => cursor.todo kernel rows) (fun n cursor hbinds => ?_) 0
    ⟨_, rfl⟩ htodo
  obtain ⟨batch, hbatch, hbinds', htotal, hless⟩ := scanFacetRows_slice h (late n) cursor filters hbinds
  refine ⟨⟨batch.rows, if batch.exhausted then none else some batch.cursor⟩, by rw [facetsPage, hbatch]; rfl, ?_⟩
  cases hexhausted : batch.exhausted with
  | true => simpa [hexhausted] using htotal
  | false => exact ⟨hbinds', by simpa [hexhausted] using htotal, hless hexhausted⟩

theorem facetRows_kernel (h : Published rows) (kernel kernel' : ReportViewKernel) :
    facetRows kernel rows filters = facetRows kernel' rows filters := by
  have hphase : phaseRows kernel rows filters = phaseRows kernel' rows filters :=
    funext fun phase => congrArg (List.map (FacetRow.mk phase)) (columnValues_kernel h kernel kernel')
  rw [facetRows, facetRows, hphase]

theorem mem_facetRows (h : Published rows) {facet : FacetRow} :
    facet ∈ facetRows kernel rows filters ↔
      facet.value ≠ "" ∧ ∃ span ∈ spansOf rows, spanColumn span facet.dimension.column = some facet.value ∧
        matchesFilters span filters = true := by
  obtain ⟨phase, value⟩ := facet
  have hmem : ∀ p, ⟨phase, value⟩ ∈ phaseRows kernel rows filters p ↔ p = phase ∧ value ∈ columnValues kernel p.column rows filters := by
    intro p
    rw [phaseRows, List.mem_map]
    constructor
    · rintro ⟨v, hv, heq⟩
      cases heq
      exact ⟨rfl, hv⟩
    · rintro ⟨rfl, hv⟩
      exact ⟨value, hv, rfl⟩
  refine Iff.trans ?_ (mem_columnValues h : value ∈ columnValues kernel phase.column rows filters ↔ _)
  rw [facetRows, List.mem_flatMap]
  simp only [hmem]
  constructor
  · rintro ⟨p, _, rfl, hv⟩
    exact hv
  · intro hv
    exact ⟨phase, by cases phase <;> simp, rfl, hv⟩

end Facets

/-! ### Identities -/

section Identities

variable [Amount A]

/-- A row of the loop, if it is readable and the count stays in its bound. -/
theorem takeIdentityRow_eq {entry : String × ViewRow A} {span : ReportSpanV2 A} (h : entry.2.Readable span)
    {scan : IdentityScan} (hbound : scan.next.after.Bound kernel) (hdistinct : scan.next.distinct < dashboardSafeIntegerMax) :
    takeIdentityRow filters entry scan = .ok (
      if scan.decodedBytes + entry.2.spanJson.bytes ≤ maxDecodedBytes then
        .more { scan with
          next := ⟨.onRow kernel entry.1 entry.2,
            if emits filters scan.next.lastMatching entry.1 span then some entry.1 else scan.next.lastMatching,
            if emits filters scan.next.lastMatching entry.1 span then scan.next.distinct + 1 else scan.next.distinct⟩
          scanned := scan.scanned + 1
          decodedBytes := scan.decodedBytes + entry.2.spanJson.bytes }
      else .stop scan) := by
  have hincrement : boundedIncrement scan.next.distinct 1 = .ok (scan.next.distinct + 1) := if_pos hdistinct
  rw [takeIdentityRow, fits_of_le h.bytes, ok_bind]
  by_cases hfit : scan.decodedBytes + entry.2.spanJson.bytes ≤ maxDecodedBytes
  · simp only [hfit, decide_true, if_true, h.readSpan, ok_bind, DimensionPosition.advance_of_bound hbound, hincrement]
    by_cases hemits : emits filters scan.next.lastMatching entry.1 span = true
    · simp only [emits] at hemits ⊢
      simp only [hemits, if_true]
      rfl
    · simp only [Bool.not_eq_true, emits] at hemits ⊢
      simp only [hemits, Bool.false_eq_true, if_false]
      rfl
  · simp only [hfit, decide_false, Bool.false_eq_true, if_false]
    rfl

/-- The values that a cursor counts from where it is. -/
def IdentityScanCursor.total (kernel : ReportViewKernel) (rows : List (ViewRow A)) (dimension : IdentityDimension)
    (filters : DashboardFiltersV1) (cursor : IdentityScanCursor) : ℕ :=
  cursor.distinct + (restValues filters cursor.lastMatching (dimensionSource kernel dimension.column rows cursor.after)).length

/-- The rows that a cursor leaves to be scanned. -/
def IdentityScanCursor.todo (kernel : ReportViewKernel) (rows : List (ViewRow A)) (dimension : IdentityDimension)
    (cursor : IdentityScanCursor) : ℕ := (dimensionSource kernel dimension.column rows cursor.after).length

/-- A slice of a published view: it keeps the count of what was counted and of what is to come. -/
theorem scanIdentities_slice (h : Published rows) (late : ℕ → Bool) (dimension : IdentityDimension) (cursor : IdentityScanCursor)
    (filters : DashboardFiltersV1) (hbinds : cursor.after.Binds kernel)
    (hdistinct : cursor.distinct + cursor.todo kernel rows dimension ≤ dashboardSafeIntegerMax) :
    ∃ scan, scanIdentities late rows dimension kernel cursor filters = .ok scan ∧ scan.next.after.Binds kernel ∧
      scan.next.distinct + scan.next.todo kernel rows dimension ≤ dashboardSafeIntegerMax ∧
      (if scan.exhausted then scan.next.distinct else scan.next.total kernel rows dimension filters) =
        cursor.total kernel rows dimension filters ∧
      (scan.exhausted = false → scan.next.todo kernel rows dimension < cursor.todo kernel rows dimension) := by
  obtain ⟨start, hstart⟩ := hbinds
  obtain ⟨hbound, hkey⟩ := DimensionPosition.bind_eq_ok_iff hstart
  have hsame : dimensionSource kernel dimension.column rows start = dimensionSource kernel dimension.column rows cursor.after :=
    dimensionSource_congr hkey
  obtain ⟨scan, hloop, hslice⟩ := readLoop_slice (IdentityScan.full late) (takeIdentityRow filters)
    (fun scan => { scan with exhausted := true })
    (fun s : IdentityScan => s.exhausted = false ∧ s.next.after.Bound kernel ∧ (s.scanned = 0 → s.decodedBytes = 0) ∧
      s.next.distinct + s.next.todo kernel rows dimension ≤ dashboardSafeIntegerMax)
    (fun s => dimensionSource kernel dimension.column rows s.next.after)
    (fun s unread => s.next.distinct + (restValues filters s.next.lastMatching unread).length)
    IdentityScan.scanned (fun s hs => (of_decide_eq_true hs).1)
    (fun s hs => decide_eq_true ⟨lt_of_lt_of_le (by decide) hs, .inl hs⟩)
    (fun s entry unread hgood hsource => by
      obtain ⟨hexhausted, hbound, hzero, hdistinct⟩ := hgood
      have hmem := mem_of_mem_dimensionSource (hsource ▸ List.mem_cons_self : entry ∈ dimensionSource kernel dimension.column rows s.next.after)
      obtain ⟨span, hspan⟩ := h.readable entry.2 hmem.1
      rw [IdentityScanCursor.todo, hsource, List.length_cons] at hdistinct
      refine ⟨_, takeIdentityRow_eq hspan hbound (by omega), ?_⟩
      by_cases hfit : s.decodedBytes + entry.2.spanJson.bytes ≤ maxDecodedBytes
      · rw [if_pos hfit]
        have hnext : dimensionSource kernel dimension.column rows (.onRow kernel entry.1 entry.2) = unread :=
          dimensionSource_cons h.spanId h.sourceOrder hsource
        refine ⟨⟨hexhausted, DimensionPosition.bound_onRow _ _, fun hnone => absurd hnone (Nat.succ_ne_zero _), ?_⟩, hnext, ?_, rfl⟩
        · rw [IdentityScanCursor.todo, hnext]
          dsimp only
          split <;> omega
        · have hany : entry.2.spanJson.span.any (emits filters s.next.lastMatching entry.1) =
              emits filters s.next.lastMatching entry.1 span := by rw [hspan.json]; rfl
          rw [restValues, hany]
          dsimp only
          split
          · rw [List.length_cons]
            omega
          · rfl
      · rw [if_neg hfit]
        refine ⟨Nat.pos_of_ne_zero fun hnone => hfit ?_, ⟨hexhausted, hbound, hzero, ?_⟩, hsource, rfl⟩
        · rw [hzero hnone, Nat.zero_add]
          exact hspan.bytes
        · rw [IdentityScanCursor.todo, hsource]
          exact hdistinct)
    (s := { next := { cursor with after := start } }) ⟨rfl, hbound, fun _ => rfl, by rw [IdentityScanCursor.todo, hsame]; exact hdistinct⟩ rfl
  refine ⟨scan, by rw [scanIdentities, hstart, ok_bind]; exact hloop, ?_⟩
  obtain ⟨last, ⟨hexhausted, hbound, _, hdistinct⟩, _, htotal, rfl⟩ | ⟨⟨hexhausted, hbound, _, hdistinct⟩, htotal, hless⟩ := hslice
  · refine ⟨⟨_, hbound⟩, hdistinct, ?_, nofun⟩
    rw [if_pos rfl, IdentityScanCursor.total, ← hsame]
    simpa [restValues] using htotal
  · refine ⟨⟨_, hbound⟩, hdistinct, ?_, fun _ => ?_⟩
    · rw [hexhausted, if_neg Bool.false_ne_true, IdentityScanCursor.total, IdentityScanCursor.total, ← hsame]
      exact htotal
    · rw [IdentityScanCursor.todo, IdentityScanCursor.todo, ← hsame]
      exact hless

end Identities

end Rest

end AgentObservability.Dashboard
