import AgentObservability.Dashboard.Kpis
import AgentObservability.Report.Projection

/-!
# Three reductions of the cost status

A report says of its costs whether they are estimated, incomplete or unknown, and
this is computed in three places: `estimate_cost_for_spans` for the whole report,
`aggregateCostStatus` in the browser for the spans that are visible, and the
accumulator of the dashboard. Each decides on its own which spans have tokens that
are billed.

## What is proved

`costReductions_agree_iff`: the browser and the dashboard always agree, and the
report agrees with them exactly where the spans that only one side counts make no
difference. `not_costReductions_agree` is a span that has input tokens only.
-/

namespace AgentObservability.Dashboard

open Domain Contracts Foundation Report

variable {A : Type}

/-! ### The report -/

/-- `has_report_token_metrics`. -/
def hasReportTokenMetrics (m : ReportMetricsV1) : Bool :=
  [m.inputTokens, m.outputTokens, m.cachedInputTokens, m.cacheCreationInputTokens, m.reasoningOutputTokens].any (·.isSome)

/-- `AggregateCost`. -/
structure AggregateCost (A : Type) where
  /-- `count`. -/
  count : ℕ := 0
  /-- `amount`. -/
  amount : A
  /-- `incomplete`. -/
  incomplete : ℕ := 0
  /-- `unknown`. -/
  unknown : ℕ := 0
  /-- How many are estimated. -/
  estimated : ℕ := 0

/-- `u64::saturating_add`. -/
def saturatingAdd (a b : ℕ) : ℕ := min (a + b) (2 ^ 64 - 1)

/-- One, where the cost has the status. -/
def countStatus (cost : CostEstimateV1 A) (status : String) : ℕ := if cost.status = status then 1 else 0

/-- The loop body of `aggregate_cost_refs`. -/
def AggregateCost.add [Amount A] (aggregate : AggregateCost A) (cost : CostEstimateV1 A) : AggregateCost A where
  count := saturatingAdd aggregate.count 1
  incomplete := saturatingAdd aggregate.incomplete (countStatus cost "incomplete")
  unknown := saturatingAdd aggregate.unknown (countStatus cost "unknown")
  estimated := saturatingAdd aggregate.estimated (countStatus cost "estimated")
  amount := Amount.add aggregate.amount (cost.estimatedCost.getD Amount.zero)

/-- `status`. -/
def AggregateCost.status (aggregate : AggregateCost A) : String :=
  if aggregate.estimated = 0 ∧ aggregate.incomplete = 0 then "unknown"
  else if 0 < aggregate.incomplete ∨ 0 < aggregate.unknown then "incomplete"
  else "estimated"

/-- `aggregate_cost_refs`. -/
def aggregateCostRefs [Amount A] (costs : List (CostEstimateV1 A)) : AggregateCost A :=
  costs.foldl AggregateCost.add { amount := Amount.zero }

/-- The cost of a report: an estimate, with `incomplete_count` and `unknown_count`. -/
structure ReportCost (A : Type) where
  /-- The estimate. -/
  estimate : CostEstimateV1 A
  /-- `cost.incomplete_count`. -/
  incompleteCount : Option ℕ := none
  /-- `cost.unknown_count`. -/
  unknownCount : Option ℕ := none

/-- `aggregate_report_costs`. -/
def aggregateReportCosts [Amount A] (table : RateTable A) (aggregate : AggregateCost A) : ReportCost A where
  estimate := costResult table aggregate.status none none (some (Amount.round aggregate.amount)) [] [] []
  incompleteCount := some aggregate.incomplete
  unknownCount := some aggregate.unknown

/-- `estimate_cost_for_spans`. -/
def estimateCostForSpans [Amount A] (spans : List (ReportSpanV2 A)) : Option (RateTable A) → ReportCost A
  | none => { estimate := Report.unknownCost "missing_rate_table" }
  | some table =>
    let aggregate := aggregateCostRefs ((spans.filter fun span => hasReportTokenMetrics span.metrics).map (·.cost))
    if aggregate.count = 0 then
      { estimate := costResult table "unknown" (some "missing_token_metrics") none none [] [] [] }
    else aggregateReportCosts table aggregate

/-! ### The browser -/

/-- `sumComplete`. -/
def sumComplete : Option ℕ → Option ℕ → Option ℕ
  | some left, some right => some (left + right)
  | _, _ => none

/-- `tokenTotal`. -/
def tokenTotal (m : ReportMetricsV1) : Option ℕ :=
  let direct := sumComplete m.inputTokens m.outputTokens
  let cumulative := sumComplete m.totalInputTokens m.totalOutputTokens
  direct.or (m.totalTokens.or (cumulative.or m.totalAccumulatedTokens))

/-- `hasTokenMetrics`. -/
def hasTokenMetrics (span : ReportSpanV2 A) : Bool :=
  (tokenTotal span.metrics).isSome ||
    [span.metrics.cachedInputTokens, span.metrics.cacheCreationInputTokens, span.metrics.reasoningOutputTokens].any
      (·.isSome)

/-- `aggregateCostStatus`. -/
def aggregateCostStatus (statuses : List String) : String :=
  let estimated := (statuses.filter (· = "estimated")).length
  let incomplete := (statuses.filter (· = "incomplete")).length
  let unknown := (statuses.filter (· = "unknown")).length
  if estimated = 0 ∧ incomplete = 0 then "unknown"
  else if incomplete > 0 ∨ unknown > 0 then "incomplete"
  else "estimated"

/-- The `costStatus` of `summarizeVisible`. -/
def visibleCostStatus (spans : List (ReportSpanV2 A)) : String :=
  aggregateCostStatus ((spans.filter hasTokenMetrics).map (·.cost.status))

/-- The text of a status. -/
def DashboardCostStatusV1.asStr : DashboardCostStatusV1 → String
  | .estimated => "estimated"
  | .incomplete => "incomplete"
  | .unknown => "unknown"

/-! ### Statuses -/

/-- The three statuses. -/
def IsCostStatus (status : String) : Prop := status = "estimated" ∨ status = "incomplete" ∨ status = "unknown"

theorem length_filter_eq_zero {statuses : List String} {status : String} :
    (statuses.filter (· = status)).length = 0 ↔ status ∉ statuses := by
  rw [List.length_eq_zero_iff, List.filter_eq_nil_iff]
  simp only [decide_eq_true_eq]
  exact ⟨fun h hmem => h status hmem rfl, fun h a ha heq => h (heq ▸ ha)⟩

/-- The aggregate depends on which statuses there are. -/
theorem aggregateCostStatus_mem (statuses : List String) :
    aggregateCostStatus statuses =
      if "estimated" ∉ statuses ∧ "incomplete" ∉ statuses then "unknown"
      else if "incomplete" ∈ statuses ∨ "unknown" ∈ statuses then "incomplete"
      else "estimated" := by
  unfold aggregateCostStatus
  simp only [gt_iff_lt, Nat.pos_iff_ne_zero, Ne, length_filter_eq_zero, not_not]

/-- **What the aggregate of some statuses is**: unknown if all are, estimated if all are, and incomplete otherwise. -/
theorem aggregateCostStatus_eq {statuses : List String} (h : ∀ status ∈ statuses, IsCostStatus status) :
    aggregateCostStatus statuses =
      if ∀ status ∈ statuses, status = "unknown" then "unknown"
      else if ∀ status ∈ statuses, status = "estimated" then "estimated"
      else "incomplete" := by
  have hunknown : ("estimated" ∉ statuses ∧ "incomplete" ∉ statuses) ↔ ∀ status ∈ statuses, status = "unknown" := by
    constructor
    · rintro ⟨he, hi⟩ status hmem
      rcases h status hmem with rfl | rfl | rfl
      · exact absurd hmem he
      · exact absurd hmem hi
      · rfl
    · intro hall
      exact ⟨fun he => absurd (hall _ he) (by decide), fun hi => absurd (hall _ hi) (by decide)⟩
  have hestimated : ("incomplete" ∈ statuses ∨ "unknown" ∈ statuses) ↔ ¬ ∀ status ∈ statuses, status = "estimated" := by
    constructor
    · rintro (hi | hu) hall
      · exact absurd (hall _ hi) (by decide)
      · exact absurd (hall _ hu) (by decide)
    · intro hall
      push Not at hall
      obtain ⟨status, hmem, hne⟩ := hall
      rcases h status hmem with rfl | rfl | rfl
      · exact absurd rfl hne
      · exact .inl hmem
      · exact .inr hmem
  rw [aggregateCostStatus_mem]
  simp only [hunknown, hestimated, ite_not]

section Report

variable [Amount A]

theorem saturatingAdd_eq_zero {a b : ℕ} : saturatingAdd a b = 0 ↔ a = 0 ∧ b = 0 := by
  unfold saturatingAdd
  omega

omit [Amount A] in
theorem countStatus_eq_zero {cost : CostEstimateV1 A} {status : String} : countStatus cost status = 0 ↔ cost.status ≠ status := by
  unfold countStatus
  split
  · simp [*]
  · simp [*]

/-- The counters are zero where there is nothing to count. -/
structure AggregateCost.Counts (aggregate : AggregateCost A) (statuses : List String) : Prop where
  count : aggregate.count = 0 ↔ statuses = []
  incomplete : aggregate.incomplete = 0 ↔ "incomplete" ∉ statuses
  unknown : aggregate.unknown = 0 ↔ "unknown" ∉ statuses
  estimated : aggregate.estimated = 0 ↔ "estimated" ∉ statuses

theorem AggregateCost.Counts.add {aggregate : AggregateCost A} {statuses : List String} (h : aggregate.Counts statuses)
    (cost : CostEstimateV1 A) : (aggregate.add cost).Counts (statuses ++ [cost.status]) := by
  have hmem : ∀ status, status ∉ statuses ++ [cost.status] ↔ status ∉ statuses ∧ cost.status ≠ status := by
    intro status
    rw [List.mem_append, List.mem_singleton, not_or]
    exact and_congr_right' (not_congr eq_comm)
  constructor
  · show saturatingAdd _ 1 = 0 ↔ _
    rw [saturatingAdd_eq_zero]
    simp
  · rw [hmem, ← h.incomplete, ← countStatus_eq_zero]
    exact saturatingAdd_eq_zero
  · rw [hmem, ← h.unknown, ← countStatus_eq_zero]
    exact saturatingAdd_eq_zero
  · rw [hmem, ← h.estimated, ← countStatus_eq_zero]
    exact saturatingAdd_eq_zero

theorem counts_aggregateCostRefs (costs : List (CostEstimateV1 A)) :
    (aggregateCostRefs costs).Counts (costs.map (·.status)) := by
  induction costs using List.reverseRecOn with
  | nil => exact ⟨⟨fun _ => rfl, fun _ => rfl⟩, ⟨fun _ => nofun, fun _ => rfl⟩, ⟨fun _ => nofun, fun _ => rfl⟩,
      ⟨fun _ => nofun, fun _ => rfl⟩⟩
  | append_singleton costs cost ih =>
    rw [List.map_append, aggregateCostRefs, List.foldl_append]
    exact ih.add cost

omit [Amount A] in
/-- The status of the counters is that of the statuses, as the browser reduces them. -/
theorem AggregateCost.Counts.status {aggregate : AggregateCost A} {statuses : List String} (h : aggregate.Counts statuses) :
    aggregate.status = aggregateCostStatus statuses := by
  rw [aggregateCostStatus_mem]
  unfold AggregateCost.status
  simp only [Nat.pos_iff_ne_zero, Ne, h.incomplete, h.unknown, h.estimated, not_not]

/-- The statuses that a report counts. -/
def reportStatuses (spans : List (ReportSpanV2 A)) : List String :=
  (spans.filter fun span => hasReportTokenMetrics span.metrics).map (·.cost.status)

/-- The span has the estimate of a record under the table. -/
structure PricedBy (table : Option (RateTable A)) (span : ReportSpanV2 A) : Prop where
  /-- The estimate and the metrics are those of a record. -/
  record : ∃ r : DurableRecordV1, span.metrics = reportMetrics r.metrics ∧ span.cost = estimateSpanCost r table
  /-- The amount is that of the estimate. -/
  estimatedCost : span.estimatedCost = span.cost.estimatedCost

/-- A projected span has it. -/
theorem pricedBy_reportSpan [Sha2] (r : DurableRecordV1) (table : Option (RateTable A)) :
    PricedBy table (reportSpan r table) := ⟨⟨r, rfl, rfl⟩, rfl⟩

variable {table : Option (RateTable A)} {span : ReportSpanV2 A} {spans : List (ReportSpanV2 A)}

theorem PricedBy.isCostStatus (h : PricedBy table span) : IsCostStatus span.cost.status := by
  obtain ⟨r, -, hcost⟩ := h.record
  rw [hcost]
  exact (sound_estimateSpanCost r table).status

/-- Without a table, nothing is known. -/
theorem PricedBy.unknown_of_none (h : PricedBy none span) : span.cost.status = "unknown" := by
  obtain ⟨r, -, hcost⟩ := h.record
  rw [hcost]
  rfl

/-- The status of a report is that of the spans it counts, as the browser reduces them. -/
theorem estimateCostForSpans_status (h : ∀ span ∈ spans, PricedBy table span) :
    (estimateCostForSpans spans table).estimate.status = aggregateCostStatus (reportStatuses spans) := by
  cases table with
  | none =>
    have hall : ∀ status ∈ reportStatuses spans, status = "unknown" := by
      intro status hstatus
      obtain ⟨span, hspan, rfl⟩ := List.mem_map.mp hstatus
      exact (h span (List.mem_filter.mp hspan).1).unknown_of_none
    rw [aggregateCostStatus_eq fun status hs => .inr (.inr (hall status hs)), if_pos hall]
    rfl
  | some table =>
    have hcounts := counts_aggregateCostRefs ((spans.filter fun span => hasReportTokenMetrics span.metrics).map (·.cost))
    rw [List.map_map] at hcounts
    unfold estimateCostForSpans
    simp only
    split
    · rename_i hzero
      have hnil : reportStatuses spans = [] := hcounts.count.mp hzero
      rw [hnil]
      rfl
    · exact hcounts.status

/-! ### The dashboard -/

omit [Amount A] in
/-- The currency of an estimate is that of the table. -/
theorem estimateSpanCost_currency [Amount A] {r : DurableRecordV1} {currency : String}
    (h : (estimateSpanCost r table).currency = some currency) : ∃ t ∈ table, t.currency = currency := by
  unfold estimateSpanCost at h
  split at h
  · cases h
  · rename_i table
    refine ⟨table, rfl, ?_⟩
    split at h
    · exact Option.some.inj h
    · split at h
      · exact Option.some.inj h
      · simp only at h
        split at h
        · exact Option.some.inj h
        · exact Option.some.inj h

/-- Costs under one table are in one currency. -/
theorem mixedCurrencies_eq_false (h : ∀ span ∈ spans, PricedBy table span) : mixedCurrencies spans = false := by
  have hwithout : spans.any costWithoutCurrency = false := by
    rw [List.any_eq_false]
    intro span hspan hcost
    obtain ⟨r, -, hrecord⟩ := (h span hspan).record
    obtain ⟨hsome, hnone⟩ := Bool.and_eq_true_iff.mp hcost
    rw [(h span hspan).estimatedCost, hrecord] at hsome
    have hcurrency := (sound_estimateSpanCost r table).currency hsome
    rw [hrecord, Option.isNone_iff_eq_none] at hnone
    rw [hnone] at hcurrency
    cases hcurrency
  have hone : ∀ currency ∈ spans.filterMap costCurrency, ∃ t ∈ table, t.currency = currency := by
    intro currency hmem
    obtain ⟨span, hspan, hcurrency⟩ := List.mem_filterMap.mp hmem
    obtain ⟨r, -, hrecord⟩ := (h span hspan).record
    unfold costCurrency at hcurrency
    split at hcurrency
    · rw [hrecord] at hcurrency
      exact estimateSpanCost_currency hcurrency
    · cases hcurrency
  unfold mixedCurrencies
  rw [hwithout, Bool.false_or, List.any_eq_false]
  intro a ha hany
  obtain ⟨b, hb, hne⟩ := List.any_eq_true.mp hany
  obtain ⟨t, ht, rfl⟩ := hone a ha
  obtain ⟨t', ht', rfl⟩ := hone b hb
  obtain rfl := Option.some.inj ((Option.mem_def.mp ht).symm.trans ht')
  exact absurd rfl (of_decide_eq_true hne)

omit [Amount A] in
/-- The browser and the dashboard count the same spans. -/
theorem hasTokenMetrics_eq (span : ReportSpanV2 A) :
    hasTokenMetrics span = DashboardSummaryAccumulator.billable span := by
  have hsum : sumComplete = zipSum := by
    funext a b
    cases a <;> cases b <;> rfl
  unfold hasTokenMetrics DashboardSummaryAccumulator.billable tokenTotal dashboardTokenTotal
  simp only [hsum, List.any_cons, List.any_nil, Bool.or_false, Bool.or_assoc]

/-- The statuses that a view counts. -/
def viewStatuses (spans : List (ReportSpanV2 A)) : List String := (spans.filter hasTokenMetrics).map (·.cost.status)

omit [Amount A] in
theorem mem_viewStatuses {status : String} : status ∈ viewStatuses spans ↔ spans.any (billedAs status) = true := by
  unfold viewStatuses billedAs
  rw [List.mem_map, List.any_eq_true]
  simp only [List.mem_filter, hasTokenMetrics_eq, Bool.and_eq_true, decide_eq_true_eq, and_assoc]

theorem any_billedUnknown (h : ∀ span ∈ spans, PricedBy table span) :
    spans.any billedUnknown = spans.any (billedAs "unknown") := by
  have hspan : ∀ span ∈ spans, billedUnknown span = billedAs "unknown" span := by
    intro span hmem
    unfold billedUnknown billedAs
    rw [Bool.and_assoc]
    rcases (h span hmem).isCostStatus with hs | hs | hs
    · rw [hs]
      rfl
    · rw [hs]
      rfl
    · rw [hs]
      rfl
  rw [Bool.eq_iff_iff, List.any_eq_true, List.any_eq_true]
  exact exists_congr fun span => and_congr_right fun hmem => by rw [hspan span hmem]

/-- **The dashboard gives the status of the browser.** -/
theorem directCostStatus_eq (h : ∀ span ∈ spans, PricedBy table span) :
    (directCostStatus spans).asStr = visibleCostStatus spans := by
  have hany : ∀ status, spans.any (billedAs status) = decide (status ∈ viewStatuses spans) := by
    intro status
    rw [Bool.eq_iff_iff, decide_eq_true_eq, mem_viewStatuses]
  unfold directCostStatus
  rw [mixedCurrencies_eq_false h, any_billedUnknown h, hany, hany, hany, Bool.or_false]
  show _ = aggregateCostStatus (viewStatuses spans)
  rw [aggregateCostStatus_mem]
  by_cases hestimated : "estimated" ∈ viewStatuses spans
  · by_cases hother : "incomplete" ∈ viewStatuses spans ∨ "unknown" ∈ viewStatuses spans
    · simp [hestimated, hother, DashboardCostStatusV1.asStr]
    · simp [hestimated, hother, DashboardCostStatusV1.asStr]
  · by_cases hincomplete : "incomplete" ∈ viewStatuses spans
    · simp [hestimated, hincomplete, DashboardCostStatusV1.asStr]
    · simp [hestimated, hincomplete, DashboardCostStatusV1.asStr]

/-! ### Spans that one side counts -/

omit [Amount A] in
theorem billTotal_none (rates : ModelRates A) (total : TokenKey × List TokenKey) :
    billTotal rates ⟨fun _ => none, []⟩ total = ⟨fun _ => none, []⟩ := by
  simp [billTotal, dropMissingSemantics]

/-- A record without any of the metrics that are billed has no known cost. -/
theorem estimateSpanCost_unknown {r : DurableRecordV1} (h : ∀ key, TokenKey.metric r.metrics key = none) :
    (estimateSpanCost r table).status = "unknown" := by
  have hbillable : ∀ rates : ModelRates A, billableMetrics r.metrics rates = ⟨fun _ => none, []⟩ := by
    intro rates
    have hvalues : TokenKey.metric r.metrics = fun _ => none := funext h
    unfold billableMetrics
    rw [hvalues, List.foldl_cons, List.foldl_cons, List.foldl_nil, billTotal_none, billTotal_none]
  unfold estimateSpanCost
  split
  · rfl
  · split
    · rfl
    · split
      · rfl
      · rename_i rates _
        rw [hbillable rates]
        rfl

/-- A span that only a view counts has no known cost. -/
theorem PricedBy.unknown_of_viewOnly (h : PricedBy table span) (hview : hasReportTokenMetrics span.metrics = false) :
    span.cost.status = "unknown" := by
  obtain ⟨r, hmetrics, hcost⟩ := h.record
  rw [hcost]
  apply estimateSpanCost_unknown
  rw [hmetrics] at hview
  simp only [hasReportTokenMetrics, reportMetrics, List.any_cons, List.any_nil, Bool.or_eq_false_iff,
    Option.isSome_eq_false_iff, Option.isNone_iff_eq_none] at hview
  obtain ⟨hinput, houtput, hcached, hcreation, hreasoning, -⟩ := hview
  intro key
  cases key with
  | inputTokens => exact hinput
  | outputTokens => exact houtput
  | cachedInputTokens => exact hcached
  | cacheCreationInputTokens => exact hcreation
  | reasoningOutputTokens => exact hreasoning

/-- The spans that only one side counts make no difference: the report counts no span whose cost is known; or both
sides count one, and either both count one whose cost is not estimated, or what the report alone counts is estimated
exactly if the views alone count nothing. -/
def CountedAlike (spans : List (ReportSpanV2 A)) : Prop :=
  (∀ span ∈ spans, hasReportTokenMetrics span.metrics = true → span.cost.status = "unknown") ∨
  (∃ span ∈ spans, (hasReportTokenMetrics span.metrics = true ∧ hasTokenMetrics span = true) ∧
    span.cost.status ≠ "unknown") ∧
  ((∃ span ∈ spans, (hasReportTokenMetrics span.metrics = true ∧ hasTokenMetrics span = true) ∧
    span.cost.status ≠ "estimated") ∨
   ((∀ span ∈ spans, hasReportTokenMetrics span.metrics = true ∧ hasTokenMetrics span = false →
      span.cost.status = "estimated") ↔
    ∀ span ∈ spans, ¬ (hasReportTokenMetrics span.metrics = false ∧ hasTokenMetrics span = true)))

omit [Amount A] in
theorem forall_reportStatuses {status : String} : (∀ s ∈ reportStatuses spans, s = status) ↔
    ∀ span ∈ spans, hasReportTokenMetrics span.metrics = true → span.cost.status = status := by
  unfold reportStatuses
  rw [List.forall_mem_map]
  simp only [List.mem_filter, and_imp]

omit [Amount A] in
theorem forall_viewStatuses {status : String} : (∀ s ∈ viewStatuses spans, s = status) ↔
    ∀ span ∈ spans, hasTokenMetrics span = true → span.cost.status = status := by
  unfold viewStatuses
  rw [List.forall_mem_map]
  simp only [List.mem_filter, and_imp]

/-- The three texts are different. -/
theorem ite_status_eq_iff {p q p' q' : Prop} [Decidable p] [Decidable q] [Decidable p'] [Decidable q'] :
    (if p then "unknown" else if q then "estimated" else "incomplete") =
        (if p' then "unknown" else if q' then "estimated" else "incomplete") ↔ (p ↔ p') ∧ (p ∨ (q ↔ q')) := by
  by_cases hp : p <;> by_cases hp' : p' <;> by_cases hq : q <;> by_cases hq' : q' <;> simp [hp, hp', hq, hq']

omit [Amount A] in
theorem report_estimated_iff : (∀ span ∈ spans, hasReportTokenMetrics span.metrics = true → span.cost.status = "estimated") ↔
    (∀ span ∈ spans, hasReportTokenMetrics span.metrics = true ∧ hasTokenMetrics span = true →
      span.cost.status = "estimated") ∧
    ∀ span ∈ spans, hasReportTokenMetrics span.metrics = true ∧ hasTokenMetrics span = false →
      span.cost.status = "estimated" := by
  constructor
  · exact fun h => ⟨fun span hspan hcounted => h span hspan hcounted.1, fun span hspan hcounted => h span hspan hcounted.1⟩
  · rintro ⟨hboth, honly⟩ span hspan hreported
    cases hcounted : hasTokenMetrics span with
    | true => exact hboth span hspan ⟨hreported, hcounted⟩
    | false => exact honly span hspan ⟨hreported, hcounted⟩

omit [Amount A] in
/-- What only a view counts is not estimated. -/
theorem view_estimated_iff
    (hunknown : ∀ span ∈ spans, hasReportTokenMetrics span.metrics = false → span.cost.status = "unknown") :
    (∀ span ∈ spans, hasTokenMetrics span = true → span.cost.status = "estimated") ↔
      (∀ span ∈ spans, hasReportTokenMetrics span.metrics = true ∧ hasTokenMetrics span = true →
        span.cost.status = "estimated") ∧
      ∀ span ∈ spans, ¬ (hasReportTokenMetrics span.metrics = false ∧ hasTokenMetrics span = true) := by
  constructor
  · refine fun h => ⟨fun span hspan hcounted => h span hspan hcounted.2, fun span hspan hcounted => ?_⟩
    have hestimated := h span hspan hcounted.2
    rw [hunknown span hspan hcounted.1] at hestimated
    exact absurd hestimated (by decide)
  · rintro ⟨hboth, hnone⟩ span hspan hcounted
    cases hreported : hasReportTokenMetrics span.metrics with
    | true => exact hboth span hspan ⟨hreported, hcounted⟩
    | false => exact absurd ⟨hreported, hcounted⟩ (hnone span hspan)

omit [Amount A] in
theorem not_bothEstimated : (¬ ∀ span ∈ spans, hasReportTokenMetrics span.metrics = true ∧ hasTokenMetrics span = true →
      span.cost.status = "estimated") ↔
    ∃ span ∈ spans, (hasReportTokenMetrics span.metrics = true ∧ hasTokenMetrics span = true) ∧
      span.cost.status ≠ "estimated" := by
  push Not
  rfl

/-- **When the report agrees with the browser.** -/
theorem reportStatus_eq_iff (h : ∀ span ∈ spans, PricedBy table span) :
    (estimateCostForSpans spans table).estimate.status = visibleCostStatus spans ↔ CountedAlike spans := by
  have hreport : ∀ s ∈ reportStatuses spans, IsCostStatus s := by
    intro s hs
    obtain ⟨span, hspan, rfl⟩ := List.mem_map.mp hs
    exact (h span (List.mem_filter.mp hspan).1).isCostStatus
  have hview : ∀ s ∈ viewStatuses spans, IsCostStatus s := by
    intro s hs
    obtain ⟨span, hspan, rfl⟩ := List.mem_map.mp hs
    exact (h span (List.mem_filter.mp hspan).1).isCostStatus
  have hviewOnly : ∀ span ∈ spans, hasReportTokenMetrics span.metrics = false → span.cost.status = "unknown" :=
    fun span hspan => (h span hspan).unknown_of_viewOnly
  rw [estimateCostForSpans_status h]
  show _ = aggregateCostStatus (viewStatuses spans) ↔ _
  rw [aggregateCostStatus_eq hreport, aggregateCostStatus_eq hview, ite_status_eq_iff, forall_reportStatuses,
    forall_reportStatuses, forall_viewStatuses, forall_viewStatuses]
  unfold CountedAlike
  by_cases hunknown : ∀ span ∈ spans, hasReportTokenMetrics span.metrics = true → span.cost.status = "unknown"
  · have hall : ∀ span ∈ spans, hasTokenMetrics span = true → span.cost.status = "unknown" := by
      intro span hspan _
      cases hcounted : hasReportTokenMetrics span.metrics with
      | true => exact hunknown span hspan hcounted
      | false => exact hviewOnly span hspan hcounted
    exact ⟨fun _ => .inl hunknown, fun _ => ⟨⟨fun _ => hall, fun _ => hunknown⟩, .inl hunknown⟩⟩
  · have hboth : (¬ ∀ span ∈ spans, hasTokenMetrics span = true → span.cost.status = "unknown") ↔
        ∃ span ∈ spans, (hasReportTokenMetrics span.metrics = true ∧ hasTokenMetrics span = true) ∧
          span.cost.status ≠ "unknown" := by
      push Not
      constructor
      · rintro ⟨span, hspan, hcounted, hknown⟩
        cases hreported : hasReportTokenMetrics span.metrics with
        | true => exact ⟨span, hspan, ⟨hreported, hcounted⟩, hknown⟩
        | false => exact absurd (hviewOnly span hspan hreported) hknown
      · rintro ⟨span, hspan, ⟨-, hcounted⟩, hknown⟩
        exact ⟨span, hspan, hcounted, hknown⟩
    rw [report_estimated_iff, view_estimated_iff hviewOnly]
    simp only [hunknown, false_iff, false_or, hboth]
    apply and_congr_right'
    rw [← not_bothEstimated]
    tauto

/-- The three reductions of a report and of an accumulator give one status. -/
def CostReductionsAgree (table : Option (RateTable A)) (spans : List (ReportSpanV2 A))
    (acc : DashboardSummaryAccumulator A) : Prop :=
  (estimateCostForSpans spans table).estimate.status = visibleCostStatus spans ∧
    acc.costStatus.asStr = visibleCostStatus spans

/-- **The cost reductions agree exactly where the spans that only one side counts make no difference.** The costs are
estimates under one table, and the accumulator has the spans in any order. -/
theorem costReductions_agree_iff (h : ∀ span ∈ spans, PricedBy table span) {pushed : List (ReportSpanV2 A)}
    (hperm : spans.Perm pushed) {acc : DashboardSummaryAccumulator A} (hpush : pushAll .new pushed = .ok acc) :
    CostReductionsAgree table spans acc ↔ CountedAlike spans := by
  obtain ⟨-, htallies⟩ := pushAll_eq_ok hpush DashboardSummaryAccumulator.bounded_new tallies_new
  have hpushed : directCostStatus pushed = directCostStatus spans :=
    congrArg KpiCounts.costStatus (directCounts_perm hperm.symm)
  have hdashboard : acc.costStatus.asStr = visibleCostStatus spans := by
    rw [htallies.costStatus, List.nil_append, hpushed, directCostStatus_eq h]
  rw [CostReductionsAgree, reportStatus_eq_iff h]
  exact and_iff_left hdashboard

end Report

section Samples

local instance wholeAmount : Amount ℕ := natAmount

/-- A rate table with one model, whose input tokens have a rate. -/
def inputRates : RateTable ℕ where
  version := "1"
  currency := "USD"
  assumption := defaultAssumption
  models := OrderedMap.empty.insert "m" ⟨fun key => if key = .inputTokens then some 3 else none, fun _ => none⟩

/-- A request of the model, with these tokens. -/
def pricedRequest (metrics : MetricsV1) : ReportSpanV2 ℕ :=
  @reportSpan _ _ ⟨Sha256.hexDigest⟩
    { turnWithIds "trace" "span" with spanKind := .llmRequest, agent.model := some "m", metrics } (some inputRates)

theorem pricedBy_pricedRequest (metrics : MetricsV1) : PricedBy (some inputRates) (pricedRequest metrics) :=
  @pricedBy_reportSpan _ _ ⟨Sha256.hexDigest⟩ _ _

/-- A request with input and output tokens, on which the reductions agree. -/
theorem costReductions_agree_iff_request :
    let spans := [pricedRequest { inputTokens := some 2000000, outputTokens := some 0 }]
    ∃ acc, pushAll .new spans = .ok acc ∧ CostReductionsAgree (some inputRates) spans acc := by
  intro spans
  have hpush : (pushAll (.new : DashboardSummaryAccumulator ℕ) spans).toOption.isSome = true := by decide +kernel
  have halike : CountedAlike spans := by
    refine .inr ⟨⟨_, List.mem_cons_self, by decide +kernel, by decide +kernel⟩, .inr (iff_of_true ?_ ?_)⟩
    · decide +kernel
    · decide +kernel
  cases hacc : pushAll (.new : DashboardSummaryAccumulator ℕ) spans with
  | error e =>
    rw [hacc] at hpush
    cases hpush
  | ok acc =>
    have hpriced : ∀ span ∈ spans, PricedBy (some inputRates) span := by
      intro span hspan
      rw [List.mem_singleton.mp hspan]
      exact pricedBy_pricedRequest _
    exact ⟨acc, rfl, (costReductions_agree_iff hpriced (.refl spans) hacc).mpr halike⟩

/-- A request that has input tokens only is counted by the report alone. -/
theorem not_costReductions_agree : ¬ ∀ (table : Option (RateTable ℕ)) (spans : List (ReportSpanV2 ℕ)),
    (∀ span ∈ spans, PricedBy table span) → ∀ pushed, spans.Perm pushed → ∀ acc, pushAll .new pushed = .ok acc →
      CostReductionsAgree table spans acc := by
  intro h
  have hpush : (pushAll (.new : DashboardSummaryAccumulator ℕ) [pricedRequest { inputTokens := some 2000000 }]).toOption.isSome =
      true := by decide +kernel
  have hdiffer : (estimateCostForSpans [pricedRequest { inputTokens := some 2000000 }] (some inputRates)).estimate.status ≠
      visibleCostStatus [pricedRequest { inputTokens := some 2000000 }] := by decide +kernel
  cases hacc : pushAll (.new : DashboardSummaryAccumulator ℕ) [pricedRequest { inputTokens := some 2000000 }] with
  | error e =>
    rw [hacc] at hpush
    cases hpush
  | ok acc =>
    have hpriced : ∀ span ∈ [pricedRequest { inputTokens := some 2000000 }], PricedBy (some inputRates) span := by
      intro span hspan
      rw [List.mem_singleton.mp hspan]
      exact pricedBy_pricedRequest _
    exact hdiffer (h _ _ hpriced _ (.refl _) acc hacc).1

end Samples

end AgentObservability.Dashboard
