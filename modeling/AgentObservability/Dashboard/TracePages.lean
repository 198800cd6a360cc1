import AgentObservability.Dashboard.SpanPages

/-!
# Pages of traces

`scanTraceRows` from slice to slice. A slice may end in the middle of a trace;
what it has counted so far goes on with the cursor. `restTraces` says what is
still to come of the rows after a cursor, and `follow_tracesPage` that the slices
give one row for every trace of a selected span, over all its selected spans.
-/

namespace AgentObservability.Dashboard

open Domain Contracts Foundation Report

variable {A : Type} {rows unread : List (ViewRow A)} {row : ViewRow A}

/-! ### The source -/

/-- The rows after a cursor. -/
def traceSource (rows : List (ViewRow A)) (cursor : TraceScanCursor) : List (ViewRow A) :=
  (rowsAfter cursor.position (traceEntries rows)).map Prod.snd

theorem distinct_traceEntries (h : (rows.map ViewRow.spanId).Nodup) : DistinctKeys (traceEntries rows) :=
  nodup_keys (fun key => (ofLex (ofLex key).2).2) (fun _ => rfl) h

/-- After a row the cursor points to the next one. -/
theorem traceSource_cons (h : (rows.map ViewRow.spanId).Nodup) {cursor : TraceScanCursor} {pending : Option TraceAccumulator}
    (hsource : traceSource rows cursor = row :: unread) :
    traceSource rows ⟨some (row.traceId, row.startTimeUnixMs, row.spanId), pending⟩ = unread := by
  obtain ⟨entry, entries, hentries, hrow, rfl⟩ := List.map_eq_cons_iff.mp hsource
  have hmem : entry ∈ traceEntries rows := (mem_rowsAfter.mp (hentries ▸ List.mem_cons_self)).1
  obtain ⟨r, hr, rfl⟩ := List.mem_map.mp hmem
  obtain rfl : r = row := hrow
  have hposition : TraceScanCursor.position ⟨some (r.traceId, r.startTimeUnixMs, r.spanId), pending⟩ = r.traceKey := rfl
  rw [traceSource, hposition, rowsAfter_cons (distinct_traceEntries h) hentries]

theorem mem_of_mem_traceSource {cursor : TraceScanCursor} (h : row ∈ traceSource rows cursor) : row ∈ rows := by
  obtain ⟨entry, hentry, rfl⟩ := List.mem_map.mp h
  obtain ⟨r, hr, rfl⟩ := List.mem_map.mp (mem_rowsAfter.mp hentry).1
  exact hr

theorem length_traceSource_le (cursor : TraceScanCursor) : (traceSource rows cursor).length ≤ rows.length := by
  rw [traceSource, List.length_map, rowsAfter_perm.length_eq]
  exact (List.length_filter_le _ _).trans (List.length_map _).le

/-- The rows of a source are in the order of their keys. -/
theorem traceSource_strict (h : (rows.map ViewRow.spanId).Nodup) (cursor : TraceScanCursor) :
    (traceSource rows cursor).Pairwise fun a b => a.traceKey < b.traceKey := by
  rw [traceSource, List.pairwise_map]
  refine (rowsAfter_strict (distinct_traceEntries h)).imp_of_mem fun {a b} ha hb hlt => ?_
  obtain ⟨r, _, rfl⟩ := List.mem_map.mp (mem_rowsAfter.mp ha).1
  obtain ⟨s, _, rfl⟩ := List.mem_map.mp (mem_rowsAfter.mp hb).1
  exact hlt

theorem mem_traceSource : row ∈ traceSource rows {} ↔ row ∈ rows := by
  refine ⟨mem_of_mem_traceSource, fun hrow => List.mem_map.mpr ⟨(row.traceKey, row), mem_rowsAfter.mpr ⟨?_, ?_⟩, rfl⟩⟩
  · exact List.mem_map.mpr ⟨row, hrow, rfl⟩
  · have hle : "" ≤ row.traceId := not_lt.mp fun hlt => List.not_lt_nil _ (String.lt_iff_toList_lt.mp hlt)
    obtain hlt | heq := hle.lt_or_eq
    · exact Prod.Lex.toLex_lt_toLex.mpr (.inl hlt)
    · exact Prod.Lex.toLex_lt_toLex.mpr (.inr ⟨heq, Prod.Lex.toLex_lt_toLex.mpr (.inl (WithBot.bot_lt_coe _))⟩)

/-- The rows of a trace are in one place, in the order of its spans. -/
theorem filter_traceSource (h : (rows.map ViewRow.spanId).Nodup) (t : String) :
    ((traceSource rows {}).filter fun r => r.traceId = t) = spanSource rows {} (some t) := by
  have : Std.Irrefl fun a b : ViewRow A => a.spanKey < b.spanKey := ⟨fun a => lt_irrefl a.spanKey⟩
  have : Std.Antisymm fun a b : ViewRow A => a.spanKey < b.spanKey := ⟨fun _ _ hab hba => absurd hab (lt_asymm hba)⟩
  have hstrict : ((traceSource rows {}).filter fun r => r.traceId = t).Pairwise fun a b => a.spanKey < b.spanKey := by
    refine ((traceSource_strict h {}).filter _).imp_of_mem fun {a b} ha hb hlt => ?_
    have hat : a.traceId = t := by simpa using (List.mem_filter.mp ha).2
    have hbt : b.traceId = t := by simpa using (List.mem_filter.mp hb).2
    simpa [ViewRow.traceKey, ViewRow.spanKey, Prod.Lex.toLex_lt_toLex, hat, hbt] using hlt
  refine List.Pairwise.eq_of_mem_iff hstrict (spanSource_strict h {} (some t)) fun r => ?_
  rw [List.mem_filter, mem_traceSource, (spanSource_perm (some t)).mem_iff, scopeRows, List.mem_filter]

/-! ### What a row of a trace says -/

/-- `TraceAccumulator::push`, where the counts stay in their bounds. -/
def TraceAccumulator.add (acc : TraceAccumulator) (span : ReportSpanV2 A) : TraceAccumulator :=
  { acc with
    spanCount := acc.spanCount + 1
    errorCount := if span.status = .error then acc.errorCount + 1 else acc.errorCount
    startTimeUnixMs := min acc.startTimeUnixMs span.startTimeUnixMs
    endTimeUnixMs := laterEnd acc.endTimeUnixMs span.endTimeUnixMs
    availabilityReasons := addReasons acc.availabilityReasons (Dashboard.availabilityReasons span) }

theorem TraceAccumulator.push_eq {acc : TraceAccumulator} {span : ReportSpanV2 A}
    (hspans : acc.spanCount < dashboardSafeIntegerMax) (herrors : acc.errorCount ≤ acc.spanCount) :
    acc.push span = .ok (acc.add span) := by
  have hspan : boundedIncrement acc.spanCount 1 = .ok (acc.spanCount + 1) := if_pos hspans
  have herror : boundedIncrement acc.errorCount 1 = .ok (acc.errorCount + 1) :=
    if_pos (show acc.errorCount + 1 ≤ dashboardSafeIntegerMax by omega)
  rw [TraceAccumulator.push, TraceAccumulator.add, hspan, ok_bind]
  split
  · rw [herror]
    rfl
  · rfl

/-- The row counts these spans of one trace, and has their bounds in time and the repository of the first. -/
structure TraceAccumulator.Summarizes (acc : TraceAccumulator) (spans : List (ReportSpanV2 A)) : Prop where
  traceId : ∀ span ∈ spans, span.traceId = acc.traceId
  repo : spans.head?.map ReportSpanV2.repo = some acc.repo
  spanCount : acc.spanCount = spans.length
  errorCount : acc.errorCount = spans.countP fun span => span.status = .error
  start_le : ∀ span ∈ spans, acc.startTimeUnixMs ≤ span.startTimeUnixMs
  start_mem : ∃ span ∈ spans, span.startTimeUnixMs = acc.startTimeUnixMs
  le_end : ∀ span ∈ spans, ∀ e ∈ span.endTimeUnixMs, ∃ last ∈ acc.endTimeUnixMs, e ≤ last
  end_mem : ∀ last ∈ acc.endTimeUnixMs, ∃ span ∈ spans, span.endTimeUnixMs = some last

theorem le_laterEnd {prior next : Option ℕ} {e : ℕ} (h : e ∈ prior ∨ e ∈ next) :
    ∃ last ∈ laterEnd prior next, e ≤ last := by
  cases next with
  | none => exact ⟨e, h.resolve_right nofun, le_rfl⟩
  | some n =>
    cases prior with
    | none => exact ⟨n, rfl, (Option.some.inj (h.resolve_left nofun)).ge⟩
    | some p =>
      refine ⟨max p n, rfl, ?_⟩
      obtain h | h := h
      · exact (Option.some.inj h).ge.trans (le_max_left _ _)
      · exact (Option.some.inj h).ge.trans (le_max_right _ _)

theorem mem_laterEnd {prior next : Option ℕ} {last : ℕ} (h : last ∈ laterEnd prior next) : last ∈ prior ∨ last ∈ next := by
  cases next with
  | none => exact .inl h
  | some n =>
    cases prior with
    | none => exact .inr h
    | some p =>
      have hmax : max p n = last := Option.some.inj h
      obtain hp | hn := max_choice p n
      · exact .inl (congrArg some (hp.symm.trans hmax))
      · exact .inr (congrArg some (hn.symm.trans hmax))

theorem TraceAccumulator.summarizes_new {span : ReportSpanV2 A} : ((new span).add span).Summarizes [span] where
  traceId := by simp [new, add]
  repo := rfl
  spanCount := rfl
  errorCount := by
    simp only [new, add, List.countP_singleton, decide_eq_true_eq, Nat.zero_add]
  start_le := by simp [new, add]
  start_mem := ⟨span, List.mem_singleton_self _, by simp [new, add]⟩
  le_end s hs e he := by
    obtain rfl := List.mem_singleton.mp hs
    exact le_laterEnd (.inr he)
  end_mem last hlast := ⟨span, List.mem_singleton_self _, (mem_laterEnd hlast).elim id id⟩

theorem TraceAccumulator.Summarizes.add {acc : TraceAccumulator} {spans : List (ReportSpanV2 A)} {span : ReportSpanV2 A}
    (h : acc.Summarizes spans) (htrace : span.traceId = acc.traceId) : (acc.add span).Summarizes (spans ++ [span]) where
  traceId s hs := by
    obtain hs | hs := List.mem_append.mp hs
    · exact h.traceId s hs
    · exact List.mem_singleton.mp hs ▸ htrace
  repo := by
    obtain ⟨first, hfirst, _⟩ := h.start_mem
    have hne := List.ne_nil_of_mem hfirst
    rw [List.head?_append_of_ne_nil _ hne]
    exact h.repo
  spanCount := by
    rw [List.length_append, ← h.spanCount]
    rfl
  errorCount := by
    rw [List.countP_append, ← h.errorCount, List.countP_singleton]
    simp only [TraceAccumulator.add, decide_eq_true_eq]
    split <;> rfl
  start_le s hs := by
    obtain hs | hs := List.mem_append.mp hs
    · exact (min_le_left _ _).trans (h.start_le s hs)
    · exact List.mem_singleton.mp hs ▸ min_le_right _ _
  start_mem := by
    obtain hacc | hspan := min_choice acc.startTimeUnixMs span.startTimeUnixMs
    · obtain ⟨first, hfirst, hstart⟩ := h.start_mem
      exact ⟨first, List.mem_append_left _ hfirst, hstart.trans hacc.symm⟩
    · exact ⟨span, List.mem_append_right _ (List.mem_singleton_self _), hspan.symm⟩
  le_end s hs e he := by
    obtain hs | hs := List.mem_append.mp hs
    · obtain ⟨last, hlast, hle⟩ := h.le_end s hs e he
      obtain ⟨later, hlater, hle'⟩ : ∃ later ∈ laterEnd acc.endTimeUnixMs span.endTimeUnixMs, last ≤ later :=
        le_laterEnd (.inl hlast)
      exact ⟨later, hlater, hle.trans hle'⟩
    · exact le_laterEnd (.inr (List.mem_singleton.mp hs ▸ he))
  end_mem last hlast := by
    obtain hprior | hnext := mem_laterEnd hlast
    · obtain ⟨s, hs, hend⟩ := h.end_mem last hprior
      exact ⟨s, List.mem_append_left _ hs, hend⟩
    · exact ⟨span, List.mem_append_right _ (List.mem_singleton_self _), hnext⟩

/-! ### What is to come -/

section Rest

variable [Lowercase] {filters : DashboardFiltersV1}

/-- A row of another trace closes the pending one. -/
def closes (pending : Option TraceAccumulator) (row : ViewRow A) : Bool :=
  pending.any fun pending => pending.traceId ≠ row.traceId

/-- The pending trace after a row. -/
def pendingAfter (filters : DashboardFiltersV1) (pending : Option TraceAccumulator) (row : ViewRow A) :
    Option TraceAccumulator :=
  let pending := if closes pending row then none else pending
  match row.spanJson.span with
  | none => pending
  | some span => if matchesFilters span filters then some ((pending.getD (.new span)).add span) else pending

/-- The rows of traces that come of a pending trace and more rows. -/
def restTraces (filters : DashboardFiltersV1) : Option TraceAccumulator → List (ViewRow A) → List TraceAccumulator
  | pending, [] => pending.toList
  | pending, row :: rows =>
    (if closes pending row then pending.toList else []) ++ restTraces filters (pendingAfter filters pending row) rows

theorem restTraces_cons_of_closes {pending : Option TraceAccumulator} (h : closes pending row = true) :
    restTraces filters pending (row :: unread) = pending.toList ++ restTraces filters none (row :: unread) := by
  have hnone : pendingAfter filters pending row = pendingAfter filters none row := by
    unfold pendingAfter
    rw [h, if_pos rfl]
    rfl
  rw [restTraces, restTraces, if_pos h, hnone]
  rfl

/-- A span of the trace of its row. -/
structure Traced (row : ViewRow A) (span : ReportSpanV2 A) : Prop where
  json : row.spanJson.span = some span
  traceId : row.traceId = span.traceId

theorem selectedSpans_cons_of_traced {span : ReportSpanV2 A} (h : Traced row span) (t : String) :
    selectedSpans filters (some t) (row :: unread) =
      (if row.traceId = t ∧ matchesFilters span filters = true then [span] else []) ++
        selectedSpans filters (some t) unread := by
  have hspans : spansOf (row :: unread) = span :: spansOf unread := List.filterMap_cons_some h.json
  rw [selectedSpans, hspans, List.filter_cons, h.traceId]
  by_cases hsel : span.traceId = t ∧ matchesFilters span filters = true
  · rw [if_pos (by simp [selects, hsel]), if_pos hsel]
    rfl
  · rw [if_neg (by simpa [selects] using hsel), if_neg hsel]
    rfl

/-- The pending trace of the invariant: it summarizes the spans that were seen of a trace, and there are none of others. -/
def Seen (pending : Option TraceAccumulator) (seen : String → List (ReportSpanV2 A)) : Prop :=
  (∀ acc ∈ pending, acc.Summarizes (seen acc.traceId)) ∧ ∀ t, (∀ acc ∈ pending, acc.traceId ≠ t) → seen t = []

/-- The spans that were seen after a row. -/
def seenAfter (filters : DashboardFiltersV1) (seen : String → List (ReportSpanV2 A)) (pending : Option TraceAccumulator)
    (row : ViewRow A) (span : ReportSpanV2 A) (t : String) : List (ReportSpanV2 A) :=
  (if closes pending row then [] else seen t) ++ if row.traceId = t ∧ matchesFilters span filters = true then [span] else []

theorem Seen.after (filters : DashboardFiltersV1) {pending : Option TraceAccumulator} {seen : String → List (ReportSpanV2 A)} {span : ReportSpanV2 A}
    (h : Seen pending seen) (hspan : Traced row span) :
    Seen (pendingAfter filters pending row) (seenAfter filters seen pending row span) ∧
      ∀ acc ∈ pendingAfter filters pending row, acc.traceId = row.traceId := by
  have hnone : ∀ t, (∀ acc ∈ (none : Option TraceAccumulator), acc.traceId ≠ t) → ([] : List (ReportSpanV2 A)) = [] :=
    fun _ _ => rfl
  unfold pendingAfter seenAfter
  simp only [hspan.json]
  by_cases hmatches : matchesFilters span filters = true
  · simp only [hmatches, if_true, and_true]
    by_cases hcloses : closes pending row = true
    · simp only [hcloses, if_true, Option.getD_none, List.nil_append]
      have hid : ((TraceAccumulator.new span).add span).traceId = row.traceId := hspan.traceId.symm
      refine ⟨⟨fun acc hacc => ?_, fun t ht => ?_⟩, fun acc hacc => ?_⟩
      · obtain rfl := Option.some.inj hacc
        simp only [hid, if_true]
        exact TraceAccumulator.summarizes_new
      · exact if_neg fun heq => ht _ rfl (hid.trans heq)
      · obtain rfl := Option.some.inj hacc
        exact hid
    · simp only [hcloses, if_false, Bool.false_eq_true]
      cases pending with
      | none =>
        have hid : ((TraceAccumulator.new span).add span).traceId = row.traceId := hspan.traceId.symm
        have hempty : ∀ t, seen t = [] := fun t => h.2 t nofun
        simp only [Option.getD_none, hempty, List.nil_append]
        refine ⟨⟨fun acc hacc => ?_, fun t ht => ?_⟩, fun acc hacc => ?_⟩
        · obtain rfl := Option.some.inj hacc
          simp only [hid, if_true]
          exact TraceAccumulator.summarizes_new
        · exact if_neg fun heq => ht _ rfl (hid.trans heq)
        · obtain rfl := Option.some.inj hacc
          exact hid
      | some acc =>
        have hid : acc.traceId = row.traceId := by
          by_contra hne
          exact hcloses (by simpa [closes] using hne)
        refine ⟨⟨fun next hnext => ?_, fun t ht => ?_⟩, fun next hnext => ?_⟩
        · obtain rfl := Option.some.inj hnext
          have hrow : row.traceId = (acc.add span).traceId := hid.symm
          simp only [Option.getD_some, if_pos hrow]
          exact (h.1 acc rfl).add (hspan.traceId.symm.trans hid.symm)
        · have hne : acc.traceId ≠ t := ht (acc.add span) rfl
          have hseen : seen t = [] := h.2 t fun a ha => Option.some.inj ha ▸ hne
          have hother : ¬ row.traceId = t := fun heq => hne (hid.trans heq)
          simp only [hseen, hother, if_false, List.append_nil]
        · obtain rfl := Option.some.inj hnext
          exact hid
  · simp only [hmatches, if_false, Bool.false_eq_true, and_false, List.append_nil]
    by_cases hcloses : closes pending row = true
    · simp only [hcloses, if_true]
      exact ⟨⟨nofun, hnone⟩, nofun⟩
    · simp only [hcloses, if_false, Bool.false_eq_true]
      refine ⟨h, fun acc hacc => ?_⟩
      by_contra hne
      exact hcloses (by rw [Option.mem_def.mp hacc]; simpa [closes] using hne)

/-- **What is to come is one row for each trace**, in the order of the traces, and every row summarizes the spans of its
trace. The induction is on the rows; the pending trace summarizes what was seen of it. -/
theorem restTraces_spec (filters : DashboardFiltersV1) (hrows : ∀ r ∈ unread, ∃ span, Traced r span) (hsorted : unread.Pairwise fun a b => a.traceId ≤ b.traceId) :
    ∀ {pending : Option TraceAccumulator} {seen : String → List (ReportSpanV2 A)}, Seen pending seen →
      (∀ acc ∈ pending, ∀ r ∈ unread, acc.traceId ≤ r.traceId) →
      (restTraces filters pending unread).Pairwise (fun a b => a.traceId < b.traceId) ∧
      (∀ acc ∈ restTraces filters pending unread,
        acc.Summarizes (seen acc.traceId ++ selectedSpans filters (some acc.traceId) unread) ∧
          ((∃ p ∈ pending, p.traceId = acc.traceId) ∨ ∃ r ∈ unread, r.traceId = acc.traceId)) ∧
      ∀ t, seen t ++ selectedSpans filters (some t) unread ≠ [] → ∃ acc ∈ restTraces filters pending unread, acc.traceId = t := by
  induction unread with
  | nil =>
    intro pending seen hseen _
    have hnil : ∀ t, seen t ++ selectedSpans filters (some t) ([] : List (ViewRow A)) = seen t := fun t => List.append_nil _
    simp only [hnil, restTraces, Option.mem_toList]
    refine ⟨?_, fun acc hacc => ⟨hseen.1 acc hacc, .inl ⟨acc, hacc, rfl⟩⟩, fun t ht => ?_⟩
    · cases pending <;> simp
    · by_contra hnone
      push Not at hnone
      exact ht (hseen.2 t hnone)
  | cons row unread ih =>
    intro pending seen hseen hle
    obtain ⟨span, hspan⟩ := hrows row List.mem_cons_self
    obtain ⟨hnext, hnextId⟩ := hseen.after filters hspan
    obtain ⟨hhead, htail⟩ := List.pairwise_cons.mp hsorted
    obtain ⟨hpairwise, hmem, hcomplete⟩ := ih (fun r hr => hrows r (List.mem_cons_of_mem _ hr)) htail hnext
      fun acc hacc r hr => hnextId acc hacc ▸ hhead r hr
    -- Every later row is of the trace of this row or of a greater one.
    have hge : ∀ acc ∈ restTraces filters (pendingAfter filters pending row) unread, row.traceId ≤ acc.traceId := by
      intro acc hacc
      obtain ⟨p, hp, hid⟩ | ⟨r, hr, hid⟩ := (hmem acc hacc).2
      · exact (hid ▸ hnextId p hp).ge
      · exact hid ▸ hhead r hr
    rw [restTraces]
    by_cases hcloses : closes pending row = true
    · simp only [hcloses, if_true]
      cases pending with
      | none => simp [closes] at hcloses
      | some p =>
        have hlt : p.traceId < row.traceId :=
          lt_of_le_of_ne (hle p rfl row List.mem_cons_self) (by simpa [closes] using hcloses)
        have hrest : ∀ t, p.traceId < t → seenAfter filters seen (some p) row span t ++ selectedSpans filters (some t) unread =
            seen t ++ selectedSpans filters (some t) (row :: unread) := by
          intro t ht
          rw [hseen.2 t fun a ha => Option.some.inj ha ▸ ht.ne, selectedSpans_cons_of_traced hspan, seenAfter, if_pos hcloses]
          simp only [List.nil_append]
        have hnone : selectedSpans filters (some p.traceId) (row :: unread) = [] := by
          have hgt : ∀ r ∈ row :: unread, p.traceId < r.traceId := by
            intro r hr
            obtain rfl | hr := List.mem_cons.mp hr
            · exact hlt
            · exact lt_of_lt_of_le hlt (hhead r hr)
          refine List.filter_eq_nil_iff.mpr fun s hs => ?_
          obtain ⟨r, hr, hrs⟩ := List.mem_filterMap.mp hs
          obtain ⟨s', hs'⟩ := hrows r hr
          obtain rfl : s' = s := Option.some.inj (hs'.json.symm.trans hrs)
          have hne : ¬ s'.traceId = p.traceId := (hs'.traceId ▸ hgt r hr).ne'
          simp [selects, hne]
        refine ⟨?_, ?_, ?_⟩
        · refine List.pairwise_cons.mpr ⟨fun acc hacc => lt_of_lt_of_le hlt (hge acc hacc), hpairwise⟩
        · intro acc hacc
          obtain rfl | hacc := List.mem_cons.mp hacc
          · rw [hnone, List.append_nil]
            exact ⟨hseen.1 acc rfl, .inl ⟨acc, rfl, rfl⟩⟩
          · have hgt := lt_of_lt_of_le hlt (hge acc hacc)
            refine ⟨hrest acc.traceId hgt ▸ (hmem acc hacc).1, .inr ?_⟩
            obtain ⟨q, hq, hid⟩ | ⟨r, hr, hid⟩ := (hmem acc hacc).2
            · exact ⟨row, List.mem_cons_self, (hnextId q hq).symm.trans hid⟩
            · exact ⟨r, List.mem_cons_of_mem _ hr, hid⟩
        · intro t ht
          by_cases htp : p.traceId = t
          · exact ⟨p, List.mem_cons_self, htp⟩
          · have hseent : seen t = [] := hseen.2 t fun a ha => Option.some.inj ha ▸ htp
            have hafter : seenAfter filters seen (some p) row span t ++ selectedSpans filters (some t) unread ≠ [] := by
              rw [hseent, List.nil_append, selectedSpans_cons_of_traced hspan] at ht
              rw [seenAfter, if_pos hcloses]
              exact ht
            obtain ⟨acc, hacc, hid⟩ := hcomplete t hafter
            exact ⟨acc, List.mem_cons_of_mem _ hacc, hid⟩
    · have hrest : ∀ t, seenAfter filters seen pending row span t ++ selectedSpans filters (some t) unread =
          seen t ++ selectedSpans filters (some t) (row :: unread) := by
        intro t
        rw [selectedSpans_cons_of_traced hspan, seenAfter, if_neg hcloses, List.append_assoc]
      simp only [hcloses, if_false, Bool.false_eq_true, List.nil_append]
      refine ⟨hpairwise, fun acc hacc => ⟨hrest acc.traceId ▸ (hmem acc hacc).1, .inr ?_⟩, fun t ht => ?_⟩
      · obtain ⟨q, hq, hid⟩ | ⟨r, hr, hid⟩ := (hmem acc hacc).2
        · exact ⟨row, List.mem_cons_self, (hnextId q hq).symm.trans hid⟩
        · exact ⟨r, List.mem_cons_of_mem _ hr, hid⟩
      · exact hcomplete t (hrest t ▸ ht)

/-! ### A slice -/

section Slice

/-- What a slice has given, and what is to come after its cursor. -/
def TraceScanBatch.total (filters : DashboardFiltersV1) (batch : TraceScanBatch) (unread : List (ViewRow A)) :
    List TraceAccumulator := batch.rows ++ restTraces filters batch.cursor.pending unread

/-- The counts of the pending trace are in their bounds with as many rows to come. -/
def Bounded (pending : Option TraceAccumulator) (rows : ℕ) : Prop :=
  ∀ acc ∈ pending, acc.errorCount ≤ acc.spanCount ∧ acc.spanCount + rows ≤ dashboardSafeIntegerMax

theorem Bounded.after {pending : Option TraceAccumulator} {n : ℕ} (h : Bounded pending (n + 1))
    (hn : n + 1 ≤ dashboardSafeIntegerMax) (row : ViewRow A) : Bounded (pendingAfter filters pending row) n := by
  have hkept : Bounded (if closes pending row then none else pending) (n + 1) := by
    split
    · exact nofun
    · exact h
  unfold pendingAfter
  cases row.spanJson.span with
  | none => exact fun acc hacc => ⟨(hkept acc hacc).1, by have := (hkept acc hacc).2; omega⟩
  | some span =>
    simp only
    split
    · intro acc hacc
      obtain rfl := Option.some.inj hacc
      have hbase : ∀ base : TraceAccumulator, base.errorCount ≤ base.spanCount → base.spanCount + (n + 1) ≤ dashboardSafeIntegerMax →
          (base.add span).errorCount ≤ (base.add span).spanCount ∧ (base.add span).spanCount + n ≤ dashboardSafeIntegerMax := by
        intro base herror hspans
        simp only [TraceAccumulator.add]
        split <;> constructor <;> omega
      cases hp : (if closes pending row then none else pending) with
      | none => exact hbase _ (Nat.le_refl 0) (by simpa [TraceAccumulator.new] using hn)
      | some base =>
        rw [hp] at hkept
        exact hbase base (hkept base rfl).1 (hkept base rfl).2
    · exact fun acc hacc => ⟨(hkept acc hacc).1, by have := (hkept acc hacc).2; omega⟩

/-- The batch after a row was taken. -/
def TraceScanBatch.taken (filters : DashboardFiltersV1) (row : ViewRow A) (batch : TraceScanBatch) : TraceScanBatch where
  rows := batch.rows ++ if closes batch.cursor.pending row then batch.cursor.pending.toList else []
  cursor := ⟨some (row.traceId, row.startTimeUnixMs, row.spanId), pendingAfter filters batch.cursor.pending row⟩
  exhausted := batch.exhausted
  scanned := batch.scanned + 1
  decodedBytes := batch.decodedBytes + row.spanJson.bytes

/-- The batch with no trace pending that it has closed before the row. -/
def TraceScanBatch.closedAt (row : ViewRow A) (batch : TraceScanBatch) : TraceScanBatch :=
  if closes batch.cursor.pending row then batch.close else batch

variable [Amount A]

theorem takeSpan_closedAt (filters : DashboardFiltersV1) {span : ReportSpanV2 A} (h : row.Readable span) {batch : TraceScanBatch} {n : ℕ}
    (hb : Bounded batch.cursor.pending (n + 1)) :
    (batch.closedAt row).takeSpan filters row = .ok (batch.taken filters row) := by
  have hpending : (batch.closedAt row).cursor.pending = if closes batch.cursor.pending row then none else batch.cursor.pending := by
    unfold TraceScanBatch.closedAt
    split <;> rfl
  have hpush : ∀ base : TraceAccumulator, (base ∈ (batch.closedAt row).cursor.pending ∨ base = .new span) →
      base.push span = .ok (base.add span) := by
    rintro base (hbase | rfl)
    · rw [hpending] at hbase
      split at hbase
      · cases hbase
      · have := hb base hbase
        exact TraceAccumulator.push_eq (by omega) this.1
    · exact TraceAccumulator.push_eq (show 0 < dashboardSafeIntegerMax by decide) (Nat.le_refl 0)
  have hnext : pushMatching filters (batch.closedAt row).cursor.pending span =
      .ok (pendingAfter filters batch.cursor.pending row) := by
    unfold pushMatching pendingAfter
    rw [← hpending]
    simp only [h.json]
    by_cases hmatches : matchesFilters span filters = true
    · rw [if_pos hmatches, if_pos hmatches, hpush _ ?_]
      · rfl
      · cases (batch.closedAt row).cursor.pending with
        | none => exact .inr rfl
        | some base => exact .inl rfl
    · rw [if_neg hmatches, if_neg hmatches]
  rw [TraceScanBatch.takeSpan, h.readSpan, ok_bind, hnext, ok_bind]
  unfold TraceScanBatch.closedAt TraceScanBatch.taken
  split <;> simp [TraceScanBatch.close, pure, Except.pure]

/-- A row of the loop, if it is readable. -/
theorem takeTraceRow_eq {span : ReportSpanV2 A} (h : row.Readable span) {batch : TraceScanBatch} {n : ℕ}
    (hb : Bounded batch.cursor.pending (n + 1)) :
    takeTraceRow filters row batch = .ok (
      if batch.decodedBytes + row.spanJson.bytes ≤ maxDecodedBytes then
        if closes batch.cursor.pending row = true ∧ dashboardTracePageMaxRows ≤ batch.close.rows.length then .stop batch.close
        else .more (batch.taken filters row)
      else .stop batch) := by
  have htake := takeSpan_closedAt filters h hb
  rw [takeTraceRow, fits_of_le h.bytes, ok_bind]
  by_cases hfit : batch.decodedBytes + row.spanJson.bytes ≤ maxDecodedBytes
  · simp only [hfit, decide_true, if_true]
    by_cases hcloses : closes batch.cursor.pending row = true
    · rw [TraceScanBatch.closedAt, if_pos hcloses] at htake
      have hany : (batch.cursor.pending.any fun pending => pending.traceId ≠ row.traceId) = true := hcloses
      rw [if_pos hany]
      by_cases hfull : dashboardTracePageMaxRows ≤ batch.close.rows.length
      · rw [if_pos hfull, if_pos ⟨hcloses, hfull⟩]
        rfl
      · rw [if_neg hfull, if_neg fun hboth => hfull hboth.2, htake]
        rfl
    · rw [TraceScanBatch.closedAt, if_neg hcloses] at htake
      have hany : ¬ (batch.cursor.pending.any fun pending => pending.traceId ≠ row.traceId) = true := hcloses
      rw [if_neg hany, if_neg fun hboth => hcloses hboth.1, htake]
      rfl
  · simp only [hfit, decide_false, Bool.false_eq_true, if_false]
    rfl

/-- A slice of a published view. -/
theorem scanTraceRows_slice (h : Published rows) (late : ℕ → Bool) (cursor : TraceScanCursor) (filters : DashboardFiltersV1)
    (hb : Bounded cursor.pending (traceSource rows cursor).length) :
    ∃ batch, scanTraceRows late rows cursor filters = .ok batch ∧
      Bounded batch.cursor.pending (traceSource rows batch.cursor).length ∧
      batch.rows ++ (if batch.exhausted then [] else restTraces filters batch.cursor.pending (traceSource rows batch.cursor)) =
        restTraces filters cursor.pending (traceSource rows cursor) ∧
      (batch.exhausted = false → (traceSource rows batch.cursor).length < (traceSource rows cursor).length) := by
  have hmost : ∀ c r unread, traceSource rows c = r :: unread → unread.length + 1 ≤ dashboardSafeIntegerMax := by
    intro c r unread hsource
    have hlength : (traceSource rows c).length ≤ dashboardSafeIntegerMax := (length_traceSource_le c).trans h.count
    rwa [hsource, List.length_cons] at hlength
  obtain ⟨batch, hloop, hslice⟩ := readLoop_slice (TraceScanBatch.full late) (takeTraceRow filters) TraceScanBatch.exhaust
    (fun s => s.exhausted = false ∧ (s.scanned = 0 → s.decodedBytes = 0 ∧ s.rows = []) ∧
      Bounded s.cursor.pending (traceSource rows s.cursor).length)
    (fun s => traceSource rows s.cursor) (TraceScanBatch.total filters) TraceScanBatch.scanned
    (fun s hs => (of_decide_eq_true hs).1) (fun s hs => decide_eq_true ⟨lt_of_lt_of_le (by decide) hs, .inl hs⟩)
    (fun s r unread hgood hsource => by
      obtain ⟨span, hspan⟩ := h.readable r (mem_of_mem_traceSource (hsource ▸ List.mem_cons_self))
      obtain ⟨hexhausted, hzero, hbounded⟩ := hgood
      rw [hsource] at hbounded
      refine ⟨_, takeTraceRow_eq hspan hbounded, ?_⟩
      by_cases hfit : s.decodedBytes + r.spanJson.bytes ≤ maxDecodedBytes
      · rw [if_pos hfit]
        by_cases hclosed : closes s.cursor.pending r = true ∧ dashboardTracePageMaxRows ≤ s.close.rows.length
        · rw [if_pos hclosed]
          -- The pending trace alone does not fill a page.
          have hnone : s.scanned ≠ 0 := by
            intro hnone
            have hrows : s.close.rows.length ≤ 1 := by
              simp only [TraceScanBatch.close, (hzero hnone).2, List.nil_append]
              cases s.cursor.pending <;> simp
            exact absurd (hclosed.2.trans hrows) (by decide)
          refine ⟨Nat.pos_of_ne_zero hnone, ⟨hexhausted, fun hzero => absurd hzero hnone, nofun⟩, hsource, ?_⟩
          rw [TraceScanBatch.total, TraceScanBatch.total, restTraces_cons_of_closes hclosed.1]
          simp [TraceScanBatch.close]
        · rw [if_neg hclosed]
          have hnext : traceSource rows (s.taken filters r).cursor = unread := traceSource_cons h.spanId hsource
          refine ⟨⟨hexhausted, fun hnone => absurd hnone (Nat.succ_ne_zero _), ?_⟩, hnext, ?_, rfl⟩
          · rw [hnext]
            exact hbounded.after (hmost s.cursor r unread hsource) r
          · rw [TraceScanBatch.total, TraceScanBatch.total, restTraces]
            simp [TraceScanBatch.taken]
      · rw [if_neg hfit]
        refine ⟨Nat.pos_of_ne_zero fun hnone => hfit ?_, ⟨hexhausted, hzero, hsource ▸ hbounded⟩, hsource, rfl⟩
        rw [(hzero hnone).1, Nat.zero_add]
        exact hspan.bytes)
    (s := { cursor }) ⟨rfl, fun _ => ⟨rfl, rfl⟩, hb⟩ rfl
  refine ⟨batch, hloop, ?_⟩
  obtain ⟨last, _, hsource, htotal, rfl⟩ | ⟨⟨hexhausted, _, hbounded⟩, htotal, hless⟩ := hslice
  · refine ⟨nofun, ?_, nofun⟩
    rw [TraceScanBatch.total, TraceScanBatch.total] at htotal
    simpa [TraceScanBatch.exhaust, TraceScanBatch.close, restTraces] using htotal
  · rw [hexhausted]
    exact ⟨hbounded, htotal, fun _ => hless⟩

/-! ### Page after page -/

/-- A page of traces. -/
def tracesPage (rows : List (ViewRow A)) (filters : DashboardFiltersV1) (late : ℕ → Bool) (cursor : TraceScanCursor) :
    Except BuildError (Page TraceScanCursor TraceAccumulator) := do
  let batch ← scanTraceRows late rows cursor filters
  pure ⟨batch.rows, if batch.exhausted then none else some batch.cursor⟩

/-- The selected spans of a trace, in the order of time and span. -/
def traceSpans (rows : List (ViewRow A)) (filters : DashboardFiltersV1) (t : String) : List (ReportSpanV2 A) :=
  selectedSpans filters (some t) (spanSource rows {} (some t))

/-- **The pages of traces.** However the slices are cut, they end, and they give one row for every trace of a selected
span; the row is about all selected spans of its trace. -/
theorem follow_tracesPage (h : Published rows) (late : ℕ → ℕ → Bool) (filters : DashboardFiltersV1) {pages : ℕ}
    (hpages : rows.length < pages) :
    ∃ traces, follow (fun n => tracesPage rows filters (late n)) pages 0 {} = .ok (some traces) ∧
      traces.Pairwise (fun a b => a.traceId < b.traceId) ∧
      (∀ trace ∈ traces, trace.Summarizes (traceSpans rows filters trace.traceId)) ∧
      ∀ t, traceSpans rows filters t ≠ [] → ∃ trace ∈ traces, trace.traceId = t := by
  have hfollow := follow_eq (fun n => tracesPage rows filters (late n))
    (fun cursor => Bounded cursor.pending (traceSource rows cursor).length)
    (fun cursor => restTraces filters cursor.pending (traceSource rows cursor)) (fun cursor => (traceSource rows cursor).length)
    (fun n cursor hb => by
      obtain ⟨batch, hbatch, hbounded, htotal, hless⟩ := scanTraceRows_slice h (late n) cursor filters hb
      refine ⟨⟨batch.rows, if batch.exhausted then none else some batch.cursor⟩, by rw [tracesPage, hbatch]; rfl, ?_⟩
      cases hexhausted : batch.exhausted with
      | true => simpa [hexhausted] using htotal
      | false => exact ⟨hbounded, by simpa [hexhausted] using htotal, hless hexhausted⟩)
    0 (show Bounded none _ from nofun) (lt_of_le_of_lt (length_traceSource_le {}) hpages)
  have hspans : ∀ t, selectedSpans filters (some t) (traceSource rows {}) = traceSpans rows filters t := fun t => by
    rw [traceSpans, ← filter_traceSource h.spanId t,
      selectedSpans_filter t fun r hr => h.readable r (mem_of_mem_traceSource hr)]
  have hsorted : (traceSource rows {}).Pairwise fun a b => a.traceId ≤ b.traceId := by
    refine (traceSource_strict h.spanId {}).imp fun {a b} hlt => ?_
    obtain hlt | heq := Prod.Lex.toLex_lt_toLex.mp hlt
    · exact hlt.le
    · exact heq.1.le
  obtain ⟨hpairwise, hmem, hcomplete⟩ := restTraces_spec filters
    (fun r hr => by
      obtain ⟨span, hspan⟩ := h.readable r (mem_of_mem_traceSource hr)
      exact ⟨span, hspan.json, hspan.traceId⟩) hsorted (show Seen none fun _ => [] from ⟨nofun, fun _ _ => rfl⟩) nofun
  simp only [List.nil_append, hspans] at hmem hcomplete
  exact ⟨_, hfollow, hpairwise, fun trace htrace => (hmem trace htrace).1, hcomplete⟩

end Slice

end Rest

end AgentObservability.Dashboard
