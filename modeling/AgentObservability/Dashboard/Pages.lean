import AgentObservability.Dashboard.TracePages
import AgentObservability.Dashboard.ValuePages
import AgentObservability.Report.Pricing

/-!
# Pages of a snapshot

All pages together: whatever the limits of time, bytes and rows cut, following
the cursors of a published snapshot ends, and gives everything once
(`pages_exact`).
-/

namespace AgentObservability.Dashboard

open Domain Contracts Foundation Report

section Pages

variable {A : Type} [Amount A] [Lowercase] {rows : List (ViewRow A)}

/-- **The pages of a snapshot are exact.** The pages of a trace give its selected spans by time and span. The pages of
traces give one row for every trace of a selected span, which counts all of these and has their bounds in time. The pages
of values give the values of the selected spans that are not empty; both kernels give the same. -/
theorem pages_exact (h : Published rows) (filters : DashboardFiltersV1) :
    (∀ (traceId : String) (late : ℕ → ℕ → Bool) (pages : ℕ), rows.length < pages →
      ∃ spans, follow (fun n => spansPage rows filters traceId (late n)) pages 0 {} = .ok (some spans) ∧
        spans.Perm (selectedSpans filters (some traceId) rows) ∧
        spans.Pairwise fun a b => toLex (a.startTimeUnixMs, a.spanId) < toLex (b.startTimeUnixMs, b.spanId)) ∧
    (∀ (late : ℕ → ℕ → Bool) (pages : ℕ), rows.length < pages →
      ∃ traces, follow (fun n => tracesPage rows filters (late n)) pages 0 {} = .ok (some traces) ∧
        traces.Pairwise (fun a b => a.traceId < b.traceId) ∧
        (∀ trace ∈ traces, ∃ spans, spans.Perm (selectedSpans filters (some trace.traceId) rows) ∧ trace.Summarizes spans) ∧
        ∀ t, selectedSpans filters (some t) rows ≠ [] → ∃ trace ∈ traces, trace.traceId = t) ∧
    ∃ facets : List FacetRow, facets.Nodup ∧
      (∀ facet : FacetRow, facet ∈ facets ↔ facet.value ≠ "" ∧
        ∃ span ∈ spansOf rows, spanColumn span facet.dimension.column = some facet.value ∧ matchesFilters span filters = true) ∧
      ∀ (kernel : ReportViewKernel) (late : ℕ → ℕ → Bool) (pages : ℕ), 4 * (rows.length + 1) ≤ pages →
        follow (fun n => facetsPage rows kernel filters (late n)) pages 0 {} = .ok (some facets) := by
  refine ⟨fun traceId late pages hpages => follow_spansPage h late filters traceId hpages, fun late pages hpages => ?_,
    facetRows .v1 rows filters, nodup_facetRows, fun facet => mem_facetRows h, fun kernel late pages hpages => ?_⟩
  · obtain ⟨traces, hfollow, hsorted, hsummarizes, hcomplete⟩ := follow_tracesPage h late filters hpages
    have hperm : ∀ t, (traceSpans rows filters t).Perm (selectedSpans filters (some t) rows) := by
      intro t
      rw [← selectedSpans_filter t h.readable]
      exact ((spanSource_perm (some t)).filterMap _).filter _
    refine ⟨traces, hfollow, hsorted, fun trace htrace => ⟨_, hperm trace.traceId, hsummarizes trace htrace⟩, fun t ht => ?_⟩
    exact hcomplete t fun hnil => ht ((hnil ▸ hperm t).nil_eq.symm)
  · rw [facetRows_kernel h .v1 kernel]
    exact follow_facetsPage h kernel late filters hpages

end Pages

/-! ### Samples -/

section Samples

/-- Amounts in whole units. -/
@[reducible] def natAmount : Amount ℕ where
  zero := 0
  add := (· + ·)
  ofTokens tokens rate := tokens * rate / 1000000
  round := id
  isFinite _ := true
  nonneg _ := true
  withinMax cost := cost ≤ 1000000000000
  isFinite_zero := rfl
  nonneg_zero := rfl
  withinMax_zero := rfl
  nonneg_add _ _ _ _ := rfl

/-- The lower case of ASCII letters. -/
@[reducible] def asciiLowercase : Lowercase := ⟨fun text => String.ofList (text.toList.map Char.toLower)⟩

local instance : Amount ℕ := natAmount

local instance : Lowercase := asciiLowercase

/-- A span of a model request. -/
def sampleSpan (spanId : String) (start : ℕ) : ReportSpanV2 ℕ where
  schemaVersion := "agent-trace-report-v2"
  traceId := "trace-1"
  spanId := spanId
  parentSpanId := none
  kind := .llmRequest
  name := "request"
  status := .ok
  startTimeUnixMs := start
  endTimeUnixMs := some (start + 10)
  repo := "repo"
  agent := { name := some "codex", model := some "gpt-5.4" }
  availability := {}
  sessionId := some "session-1"
  turnId := some "turn-1"
  toolName := none
  attributes := {}
  metrics := {}
  estimatedCost := none
  cost := unknownCost "missing_rate_table"

/-- The row of a span. -/
def rowOf (sourceOrder : ℕ) (span : ReportSpanV2 ℕ) : ViewRow ℕ where
  sourceOrder := sourceOrder
  traceId := span.traceId
  spanId := span.spanId
  startTimeUnixMs := span.startTimeUnixMs
  repo := span.repo
  sessionId := span.sessionId
  turnId := span.turnId
  agent := spanColumn span .agent
  model := spanColumn span .model
  spanJson := ⟨1000, some span⟩

/-- A snapshot of two spans. -/
def sampleRows : List (ViewRow ℕ) := [rowOf 1 (sampleSpan "span-1" 20), rowOf 2 (sampleSpan "span-2" 10)]

theorem published_sampleRows : Published sampleRows where
  readable row hrow := by
    have hread : ∀ order span, span.valid = true → (rowOf order span).Readable span := fun order span hvalid =>
      ⟨show 1000 ≤ maxDecodedBytes by decide, rfl, hvalid, rfl, rfl, rfl, fun column => by cases column <;> rfl⟩
    obtain rfl | hrow := List.mem_cons.mp hrow
    · exact ⟨_, hread 1 (sampleSpan "span-1" 20) (by decide)⟩
    · obtain rfl := List.mem_singleton.mp hrow
      exact ⟨_, hread 2 (sampleSpan "span-2" 10) (by decide)⟩
  spanId := by decide
  sourceOrder := by decide
  count := by decide

theorem pages_exact_sampleRows :
    ∃ spans, follow (fun _ => spansPage sampleRows {} "trace-1" fun n => 1 ≤ n) 3 0 {} = .ok (some spans) ∧ spans.length = 2 := by
  obtain ⟨spans, hfollow, hperm, _⟩ := (pages_exact published_sampleRows {}).1 "trace-1" (fun _ n => 1 ≤ n) 3 (by decide)
  exact ⟨spans, hfollow, hperm.length_eq.trans (by decide)⟩

end Samples

end AgentObservability.Dashboard
