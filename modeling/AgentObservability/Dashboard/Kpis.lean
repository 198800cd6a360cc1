import AgentObservability.Dashboard.Pages
import AgentObservability.Dashboard.Summary
import AgentObservability.Foundation.JsonText
import Mathlib.Data.Finset.Card

/-!
# The sliced summary is the direct one

A chain of summary requests adds up the selected spans of the view slice by
slice. `KpiCounts` has the integers and statuses of a result, and `directCounts`
computes them from a list of spans in any order. `summarize_exact` says that a
chain that completes gives these.
-/

namespace AgentObservability.Dashboard

open Domain Contracts Foundation Report

variable {A : Type}

/-! ### What a span adds -/

/-- The tokens of the span are of a kind that has some. -/
def applicable (span : ReportSpanV2 A) : Bool := span.availability.tokens.state ≠ .notApplicable

/-- The total of the span that counts. -/
def countedTotal (span : ReportSpanV2 A) : Option ℕ :=
  (dashboardTokenTotal span.metrics).filter fun _ => span.availability.tokens.state = .available

/-- The span is billed with a cost of the status. -/
def billedAs (status : String) (span : ReportSpanV2 A) : Bool := DashboardSummaryAccumulator.billable span && span.cost.status = status

/-- The span is billed with a cost of no known status. -/
def billedUnknown (span : ReportSpanV2 A) : Bool :=
  DashboardSummaryAccumulator.billable span && span.cost.status ≠ "estimated" && span.cost.status ≠ "incomplete"

/-- The currency of the span, if it has a cost. -/
def costCurrency (span : ReportSpanV2 A) : Option String := if span.estimatedCost.isSome then span.cost.currency else none

/-- The span has a cost in no currency. -/
def costWithoutCurrency (span : ReportSpanV2 A) : Bool := span.estimatedCost.isSome && span.cost.currency.isNone

namespace DashboardSummaryAccumulator

variable [Amount A]

/-- `push`, where nothing is rejected. -/
def add (acc : DashboardSummaryAccumulator A) (span : ReportSpanV2 A) : DashboardSummaryAccumulator A where
  llm := acc.llm + if span.kind = .llmRequest then 1 else 0
  tools := acc.tools + if span.kind = .toolExecution then 1 else 0
  errors := acc.errors + if span.status = .error then 1 else 0
  input := acc.input + if applicable span then span.metrics.inputTokens.getD 0 else 0
  output := acc.output + if applicable span then span.metrics.outputTokens.getD 0 else 0
  incompleteInput := acc.incompleteInput || (applicable span && span.metrics.inputTokens.isNone)
  incompleteOutput := acc.incompleteOutput || (applicable span && span.metrics.outputTokens.isNone)
  tokens := acc.tokens + (countedTotal span).getD 0
  completeTokens := acc.completeTokens || (countedTotal span).isSome
  incompleteTokens := acc.incompleteTokens || (applicable span && (countedTotal span).isNone)
  estimated := acc.estimated || billedAs "estimated" span
  incompleteCost := acc.incompleteCost || billedAs "incomplete" span
  unknownCost := acc.unknownCost || billedUnknown span
  cost := span.estimatedCost.elim acc.cost (Amount.add acc.cost)
  currency := acc.currency.or (costCurrency span)
  mixedCurrency := acc.mixedCurrency || costWithoutCurrency span ||
    (costCurrency span).any fun currency => acc.currency.any (· ≠ currency)

/-- The bounds of an accumulator: its integers are safe, its cost is one of the contract, and its currency has three
letters. -/
structure Bounded (acc : DashboardSummaryAccumulator A) : Prop where
  counts : ∀ n ∈ [acc.llm, acc.tools, acc.errors, acc.input, acc.output, acc.tokens], n ≤ dashboardSafeIntegerMax
  cost : Amount.isFinite acc.cost = true ∧ Amount.nonneg acc.cost = true ∧ Amount.withinMax acc.cost = true
  currency : ∀ currency ∈ acc.currency, validCurrency currency = true

theorem bounded_new : (new : DashboardSummaryAccumulator A).Bounded where
  counts := by simp [new]
  cost := ⟨Amount.isFinite_zero, Amount.nonneg_zero, Amount.withinMax_zero⟩
  currency := nofun

theorem increment_eq_ok {value amount sum : ℕ} (h : increment value amount = .ok sum) :
    sum = value + amount ∧ sum ≤ dashboardSafeIntegerMax := by
  obtain ⟨_, hle, hsum⟩ := bind_eq_ok.mp h
  cases hsum
  exact ⟨rfl, require_eq_ok.mp hle⟩

theorem tokenInteger_eq_ok {value v : ℕ} (h : tokenInteger value = .ok v) : v = value := by
  obtain ⟨_, _, hv⟩ := bind_eq_ok.mp h
  cases hv
  rfl

theorem countIf_eq_ok {counts : Bool} {value n : ℕ} (h : countIf counts value = .ok n) (hvalue : value ≤ dashboardSafeIntegerMax) :
    n = (value + if counts then 1 else 0) ∧ n ≤ dashboardSafeIntegerMax := by
  unfold countIf at h
  cases counts with
  | true => exact increment_eq_ok h
  | false =>
    cases h
    exact ⟨rfl, hvalue⟩

theorem accumulateComponent_eq_ok {sum : ℕ} {incomplete : Bool} {value : Option ℕ} {r : ℕ × Bool}
    (h : accumulateComponent sum incomplete value = .ok r) (hsum : sum ≤ dashboardSafeIntegerMax) :
    r = (sum + value.getD 0, incomplete || value.isNone) ∧ r.1 ≤ dashboardSafeIntegerMax := by
  cases value with
  | none =>
    cases h
    exact ⟨by simp, hsum⟩
  | some v =>
    obtain ⟨w, hw, h⟩ := bind_eq_ok.mp h
    obtain ⟨s, hs, h⟩ := bind_eq_ok.mp h
    cases h
    obtain rfl := tokenInteger_eq_ok hw
    obtain ⟨rfl, hle⟩ := increment_eq_ok hs
    exact ⟨by simp, hle⟩

variable {acc next : DashboardSummaryAccumulator A} {span : ReportSpanV2 A}

theorem pushCounts_eq_ok (h : acc.pushCounts span = .ok next) (hb : acc.Bounded) :
    next.Bounded ∧ next =
      { acc with
        llm := acc.llm + if span.kind = .llmRequest then 1 else 0
        tools := acc.tools + if span.kind = .toolExecution then 1 else 0
        errors := acc.errors + if span.status = .error then 1 else 0 } := by
  obtain ⟨llm, hllm, h⟩ := bind_eq_ok.mp h
  obtain ⟨tools, htools, h⟩ := bind_eq_ok.mp h
  obtain ⟨errors, herrors, h⟩ := bind_eq_ok.mp h
  cases h
  have hcounts := hb.counts
  simp only [List.forall_mem_cons] at hcounts
  obtain ⟨rfl, hl⟩ := countIf_eq_ok hllm hcounts.1
  obtain ⟨rfl, ht⟩ := countIf_eq_ok htools hcounts.2.1
  obtain ⟨rfl, he⟩ := countIf_eq_ok herrors hcounts.2.2.1
  refine ⟨⟨?_, hb.cost, hb.currency⟩, by simp⟩
  simp only [List.forall_mem_cons]
  exact ⟨hl, ht, he, hcounts.2.2.2⟩

theorem pushComponents_eq_ok (h : acc.pushComponents span = .ok next) (hb : acc.Bounded) :
    next.Bounded ∧ next =
      { acc with
        input := acc.input + if applicable span then span.metrics.inputTokens.getD 0 else 0
        output := acc.output + if applicable span then span.metrics.outputTokens.getD 0 else 0
        incompleteInput := acc.incompleteInput || (applicable span && span.metrics.inputTokens.isNone)
        incompleteOutput := acc.incompleteOutput || (applicable span && span.metrics.outputTokens.isNone) } := by
  unfold pushComponents at h
  by_cases happlicable : span.availability.tokens.state ≠ .notApplicable
  · have htrue : applicable span = true := decide_eq_true happlicable
    rw [if_pos happlicable] at h
    obtain ⟨input, hinput, h⟩ := bind_eq_ok.mp h
    obtain ⟨output, houtput, h⟩ := bind_eq_ok.mp h
    cases h
    have hcounts := hb.counts
    simp only [List.forall_mem_cons] at hcounts
    obtain ⟨rfl, hi⟩ := accumulateComponent_eq_ok hinput hcounts.2.2.2.1
    obtain ⟨rfl, ho⟩ := accumulateComponent_eq_ok houtput hcounts.2.2.2.2.1
    refine ⟨⟨?_, hb.cost, hb.currency⟩, by simp [htrue]⟩
    simp only [List.forall_mem_cons]
    exact ⟨hcounts.1, hcounts.2.1, hcounts.2.2.1, hi, ho, hcounts.2.2.2.2.2⟩
  · have hfalse : applicable span = false := decide_eq_false happlicable
    rw [if_neg happlicable] at h
    cases h
    exact ⟨hb, by simp [hfalse]⟩

theorem pushTotal_eq_ok (h : acc.pushTotal span = .ok next) (hb : acc.Bounded) :
    next.Bounded ∧ next =
      { acc with
        tokens := acc.tokens + (countedTotal span).getD 0
        completeTokens := acc.completeTokens || (countedTotal span).isSome
        incompleteTokens := acc.incompleteTokens || (applicable span && (countedTotal span).isNone) } := by
  have hcounted : (dashboardTokenTotal span.metrics).filter (fun _ => span.availability.tokens.state = .available) =
      countedTotal span := rfl
  unfold pushTotal at h
  rw [hcounted] at h
  cases htotal : countedTotal span with
  | none =>
    rw [htotal, pure_eq_ok] at h
    subst h
    by_cases happlicable : span.availability.tokens.state ≠ .notApplicable
    · have htrue : applicable span = true := decide_eq_true happlicable
      rw [if_pos happlicable]
      exact ⟨⟨hb.counts, hb.cost, hb.currency⟩, by simp [htrue]⟩
    · have hfalse : applicable span = false := decide_eq_false happlicable
      rw [if_neg happlicable]
      exact ⟨hb, by simp [hfalse]⟩
  | some total =>
    rw [htotal] at h
    obtain ⟨v, hv, h⟩ := bind_eq_ok.mp h
    obtain ⟨tokens, htokens, h⟩ := bind_eq_ok.mp h
    cases h
    obtain rfl := tokenInteger_eq_ok hv
    obtain ⟨rfl, hle⟩ := increment_eq_ok htokens
    have hcounts := hb.counts
    simp only [List.forall_mem_cons] at hcounts
    refine ⟨⟨?_, hb.cost, hb.currency⟩, by simp⟩
    simp only [List.forall_mem_cons]
    exact ⟨hcounts.1, hcounts.2.1, hcounts.2.2.1, hcounts.2.2.2.1, hcounts.2.2.2.2.1, hle, nofun⟩

omit [Amount A] in
theorem pushCostStatus_eq :
    acc.pushCostStatus span =
      { acc with
        estimated := acc.estimated || billedAs "estimated" span
        incompleteCost := acc.incompleteCost || billedAs "incomplete" span
        unknownCost := acc.unknownCost || billedUnknown span } := by
  unfold pushCostStatus billedAs billedUnknown
  by_cases hbillable : billable span = true
  · by_cases hestimated : span.cost.status = "estimated"
    · simp [hbillable, hestimated]
    · by_cases hincomplete : span.cost.status = "incomplete"
      · simp [hbillable, hincomplete]
      · simp [hbillable, hestimated, hincomplete]
  · simp [hbillable]

theorem pushCost_eq_ok (h : acc.pushCost span = .ok next) (hb : acc.Bounded) :
    next.Bounded ∧ next =
      { acc with
        cost := span.estimatedCost.elim acc.cost (Amount.add acc.cost)
        currency := acc.currency.or (costCurrency span)
        mixedCurrency := acc.mixedCurrency || costWithoutCurrency span ||
          (costCurrency span).any fun currency => acc.currency.any (· ≠ currency) } := by
  unfold pushCost at h
  unfold costCurrency costWithoutCurrency
  cases hcost : span.estimatedCost with
  | none =>
    rw [hcost] at h
    cases h
    exact ⟨hb, by simp⟩
  | some cost =>
    rw [hcost] at h
    obtain ⟨_, hfinite, h⟩ := bind_eq_ok.mp h
    obtain ⟨_, hsum, h⟩ := bind_eq_ok.mp h
    have hnonneg := Amount.nonneg_add acc.cost cost hb.cost.2.1 (require_eq_ok.mp hfinite).2
    have hbound := require_eq_ok.mp hsum
    have hb' : Amount.isFinite (Amount.add acc.cost cost) = true ∧ Amount.nonneg (Amount.add acc.cost cost) = true ∧
        Amount.withinMax (Amount.add acc.cost cost) = true := ⟨hbound.1, hnonneg, hbound.2⟩
    cases hcurrency : span.cost.currency with
    | none =>
      rw [hcurrency] at h
      cases h
      exact ⟨⟨hb.counts, hb', hb.currency⟩, by simp⟩
    | some currency =>
      rw [hcurrency] at h
      obtain ⟨_, hvalid, h⟩ := bind_eq_ok.mp h
      cases hprevious : acc.currency with
      | none =>
        rw [hprevious] at h
        cases h
        refine ⟨⟨hb.counts, hb', fun c hc => ?_⟩, by simp⟩
        exact Option.some.inj hc ▸ require_eq_ok.mp hvalid
      | some previous =>
        rw [hprevious] at h
        cases h
        exact ⟨⟨hb.counts, hb', hprevious ▸ hb.currency⟩, by simp⟩

/-- **What a push does.** A span that is not rejected is added, and the bounds stay. -/
theorem pushChecked_eq_ok (h : acc.pushChecked span = .ok next) (hb : acc.Bounded) : next.Bounded ∧ next = acc.add span := by
  obtain ⟨a, ha, h⟩ := bind_eq_ok.mp h
  obtain ⟨b, hb', h⟩ := bind_eq_ok.mp h
  obtain ⟨c, hc, h⟩ := bind_eq_ok.mp h
  obtain ⟨hba, rfl⟩ := pushCounts_eq_ok ha hb
  obtain ⟨hbb, rfl⟩ := pushComponents_eq_ok hb' hba
  obtain ⟨hbc, rfl⟩ := pushTotal_eq_ok hc hbb
  rw [pushCostStatus_eq] at h
  obtain ⟨hbd, rfl⟩ := pushCost_eq_ok h ⟨hbc.counts, hbc.cost, hbc.currency⟩
  exact ⟨hbd, rfl⟩

/-- A push that is rejected leaves the accumulator as it was. -/
theorem push_rejected {e : SummaryCapacityExceeded} (h : (acc.push span).2 = .error e) : (acc.push span).1 = acc := by
  unfold push at h ⊢
  cases hpush : acc.pushChecked span with
  | error e => rfl
  | ok next =>
    rw [hpush] at h
    cases h

end DashboardSummaryAccumulator

/-! ### The direct counts -/

/-- The integers and statuses of a summary. -/
structure KpiCounts where
  /-- `llm`. -/
  llm : ℕ
  /-- `tools`. -/
  tools : ℕ
  /-- `errors`. -/
  errors : ℕ
  /-- `input_tokens`. -/
  inputTokens : Option ℕ
  /-- `output_tokens`. -/
  outputTokens : Option ℕ
  /-- `total_tokens`. -/
  totalTokens : Option ℕ
  /-- `token_status`. -/
  tokenStatus : DashboardTokenStatusV1
  /-- `cost_status`. -/
  costStatus : DashboardCostStatusV1
  deriving DecidableEq

/-- The counts of a result. -/
def DashboardKpisV1.counts (kpis : DashboardKpisV1 A) : KpiCounts where
  llm := kpis.llm
  tools := kpis.tools
  errors := kpis.errors
  inputTokens := kpis.inputTokens
  outputTokens := kpis.outputTokens
  totalTokens := kpis.totalTokens
  tokenStatus := kpis.tokenStatus
  costStatus := kpis.costStatus

/-- The status of the tokens of some spans: incomplete if the total of one that should have some is not known, and
unavailable if none has a total. -/
def directTokenStatus (spans : List (ReportSpanV2 A)) : DashboardTokenStatusV1 :=
  if spans.any fun span => applicable span && (countedTotal span).isNone then .incomplete
  else if spans.any fun span => (countedTotal span).isSome then .complete
  else .unavailable

/-- Costs of some spans are in no currency or in two. -/
def mixedCurrencies (spans : List (ReportSpanV2 A)) : Bool :=
  spans.any costWithoutCurrency ||
    (spans.filterMap costCurrency).any fun a => (spans.filterMap costCurrency).any fun b => a ≠ b

/-- The status of the costs of some spans. -/
def directCostStatus (spans : List (ReportSpanV2 A)) : DashboardCostStatusV1 :=
  if !spans.any (billedAs "estimated") && !spans.any (billedAs "incomplete") then .unknown
  else if spans.any (billedAs "incomplete") || spans.any billedUnknown || mixedCurrencies spans then .incomplete
  else .estimated

/-- The sum of a component of the tokens, if every span that should have some has it. -/
def directComponent (component : ReportMetricsV1 → Option ℕ) (spans : List (ReportSpanV2 A)) : Option ℕ :=
  if directTokenStatus spans ≠ .unavailable ∧ ¬ spans.any fun span => applicable span && (component span.metrics).isNone then
    some ((spans.filter applicable).map fun span => (component span.metrics).getD 0).sum
  else none

/-- The counts of some spans, directly. -/
def directCounts (spans : List (ReportSpanV2 A)) : KpiCounts where
  llm := spans.countP fun span => span.kind = .llmRequest
  tools := spans.countP fun span => span.kind = .toolExecution
  errors := spans.countP fun span => span.status = .error
  inputTokens := directComponent ReportMetricsV1.inputTokens spans
  outputTokens := directComponent ReportMetricsV1.outputTokens spans
  totalTokens := if directTokenStatus spans = .complete then some (spans.filterMap countedTotal).sum else none
  tokenStatus := directTokenStatus spans
  costStatus := directCostStatus spans

theorem any_perm {α : Type} {p : α → Bool} {l l' : List α} (h : l.Perm l') : l.any p = l'.any p := by
  rw [Bool.eq_iff_iff, List.any_eq_true, List.any_eq_true]
  exact ⟨fun ⟨x, hx, hp⟩ => ⟨x, h.mem_iff.mp hx, hp⟩, fun ⟨x, hx, hp⟩ => ⟨x, h.mem_iff.mpr hx, hp⟩⟩

/-- The counts do not depend on the order. -/
theorem directCounts_perm {spans spans' : List (ReportSpanV2 A)} (h : spans.Perm spans') :
    directCounts spans = directCounts spans' := by
  have htoken : directTokenStatus spans = directTokenStatus spans' := by
    unfold directTokenStatus
    rw [any_perm h, any_perm h]
  have hmixed : mixedCurrencies spans = mixedCurrencies spans' := by
    have hcurrencies := h.filterMap costCurrency
    have hany : ∀ a : String, (spans.filterMap costCurrency).any (a ≠ ·) = (spans'.filterMap costCurrency).any (a ≠ ·) :=
      fun a => any_perm hcurrencies
    unfold mixedCurrencies
    simp only [hany]
    rw [any_perm h, any_perm hcurrencies]
  have hcost : directCostStatus spans = directCostStatus spans' := by
    unfold directCostStatus
    rw [hmixed, any_perm h, any_perm h, any_perm h]
  have hcomponent : ∀ component, directComponent component spans = directComponent component spans' := by
    intro component
    unfold directComponent
    rw [htoken, any_perm h, ((h.filter _).map _).sum_eq]
  rw [directCounts, directCounts, hcomponent, hcomponent, htoken, hcost, h.countP_eq, h.countP_eq, h.countP_eq,
    (h.filterMap _).sum_eq]

/-! ### What an accumulator says -/

section Tally

/-- The currencies that differ from the first one. -/
def otherCurrency (currencies : List String) : Bool :=
  currencies.any fun currency => currencies.head?.any (· ≠ currency)

theorem otherCurrency_append (currencies : List String) (next : Option String) :
    otherCurrency (currencies ++ next.toList) =
      (otherCurrency currencies || next.any fun currency => currencies.head?.any (· ≠ currency)) := by
  cases next with
  | none => simp
  | some currency =>
    cases currencies with
    | nil => simp [otherCurrency]
    | cons a l => simp [otherCurrency]

theorem otherCurrency_eq (currencies : List String) :
    otherCurrency currencies = currencies.any fun a => currencies.any fun b => a ≠ b := by
  cases currencies with
  | nil => rfl
  | cons a l =>
    rw [Bool.eq_iff_iff, otherCurrency, List.any_eq_true, List.any_eq_true]
    constructor
    · rintro ⟨c, hc, hne⟩
      exact ⟨a, List.mem_cons_self, List.any_eq_true.mpr ⟨c, hc, by simpa using hne⟩⟩
    · rintro ⟨b, hb, hany⟩
      obtain ⟨c, hc, hne⟩ := List.any_eq_true.mp hany
      by_cases hac : a = c
      · exact ⟨b, hb, by simpa [hac] using Ne.symm (of_decide_eq_true hne)⟩
      · exact ⟨c, hc, by simpa using hac⟩

/-- The accumulator has these spans. -/
structure Tallies (acc : DashboardSummaryAccumulator A) (spans : List (ReportSpanV2 A)) : Prop where
  llm : acc.llm = spans.countP fun span => span.kind = .llmRequest
  tools : acc.tools = spans.countP fun span => span.kind = .toolExecution
  errors : acc.errors = spans.countP fun span => span.status = .error
  input : acc.input = ((spans.filter applicable).map fun span => span.metrics.inputTokens.getD 0).sum
  output : acc.output = ((spans.filter applicable).map fun span => span.metrics.outputTokens.getD 0).sum
  incompleteInput : acc.incompleteInput = spans.any fun span => applicable span && span.metrics.inputTokens.isNone
  incompleteOutput : acc.incompleteOutput = spans.any fun span => applicable span && span.metrics.outputTokens.isNone
  tokens : acc.tokens = (spans.filterMap countedTotal).sum
  completeTokens : acc.completeTokens = spans.any fun span => (countedTotal span).isSome
  incompleteTokens : acc.incompleteTokens = spans.any fun span => applicable span && (countedTotal span).isNone
  estimated : acc.estimated = spans.any (billedAs "estimated")
  incompleteCost : acc.incompleteCost = spans.any (billedAs "incomplete")
  unknownCost : acc.unknownCost = spans.any billedUnknown
  currency : acc.currency = (spans.filterMap costCurrency).head?
  mixedCurrency : acc.mixedCurrency = (spans.any costWithoutCurrency || otherCurrency (spans.filterMap costCurrency))

theorem filterMap_singleton {α β : Type} (f : α → Option β) (a : α) : [a].filterMap f = (f a).toList := by
  cases h : f a <;> simp [h]

theorem sum_applicable (component : ReportMetricsV1 → Option ℕ) (spans : List (ReportSpanV2 A)) (span : ReportSpanV2 A) :
    (((spans ++ [span]).filter applicable).map fun span => (component span.metrics).getD 0).sum =
      ((spans.filter applicable).map fun span => (component span.metrics).getD 0).sum +
        if applicable span then (component span.metrics).getD 0 else 0 := by
  rw [List.filter_append, List.map_append, List.sum_append, List.filter_singleton]
  cases applicable span <;> simp

variable [Amount A]

theorem tallies_new : Tallies (DashboardSummaryAccumulator.new : DashboardSummaryAccumulator A) [] := by
  constructor <;> rfl

/-- One more span. -/
theorem Tallies.add {acc : DashboardSummaryAccumulator A} {spans : List (ReportSpanV2 A)} (h : Tallies acc spans)
    (span : ReportSpanV2 A) : Tallies (acc.add span) (spans ++ [span]) where
  llm := by simp [DashboardSummaryAccumulator.add, h.llm, List.countP_append, List.countP_singleton]
  tools := by simp [DashboardSummaryAccumulator.add, h.tools, List.countP_append, List.countP_singleton]
  errors := by simp [DashboardSummaryAccumulator.add, h.errors, List.countP_append, List.countP_singleton]
  input := by rw [sum_applicable, ← h.input]; rfl
  output := by rw [sum_applicable, ← h.output]; rfl
  incompleteInput := by simp [DashboardSummaryAccumulator.add, h.incompleteInput]
  incompleteOutput := by simp [DashboardSummaryAccumulator.add, h.incompleteOutput]
  tokens := by
    rw [List.filterMap_append, List.sum_append, ← h.tokens, filterMap_singleton]
    cases hcounted : countedTotal span <;> simp [DashboardSummaryAccumulator.add, hcounted]
  completeTokens := by simp [DashboardSummaryAccumulator.add, h.completeTokens]
  incompleteTokens := by simp [DashboardSummaryAccumulator.add, h.incompleteTokens]
  estimated := by simp [DashboardSummaryAccumulator.add, h.estimated]
  incompleteCost := by simp [DashboardSummaryAccumulator.add, h.incompleteCost]
  unknownCost := by simp [DashboardSummaryAccumulator.add, h.unknownCost]
  currency := by
    rw [List.filterMap_append, List.head?_append, ← h.currency, filterMap_singleton]
    cases hcurrency : costCurrency span <;> simp [DashboardSummaryAccumulator.add, hcurrency]
  mixedCurrency := by
    rw [List.filterMap_append, filterMap_singleton, otherCurrency_append, ← h.currency]
    simp only [DashboardSummaryAccumulator.add, h.mixedCurrency, List.any_append, List.any_cons, List.any_nil, Bool.or_false]
    generalize spans.any costWithoutCurrency = a, otherCurrency (spans.filterMap costCurrency) = b, costWithoutCurrency span = c
    cases a <;> cases b <;> cases c <;> simp

theorem pushAll_eq_ok {spans : List (ReportSpanV2 A)} :
    ∀ {acc next : DashboardSummaryAccumulator A} {before : List (ReportSpanV2 A)}, pushAll acc spans = .ok next →
      acc.Bounded → Tallies acc before → next.Bounded ∧ Tallies next (before ++ spans) := by
  induction spans with
  | nil =>
    intro acc next before h hb ht
    cases h
    exact ⟨hb, by rwa [List.append_nil]⟩
  | cons span spans ih =>
    intro acc next before h hb ht
    rw [pushAll, List.foldlM_cons] at h
    obtain ⟨a, ha, h⟩ := bind_eq_ok.mp h
    unfold DashboardSummaryAccumulator.push at ha
    cases hpush : acc.pushChecked span with
    | error e =>
      rw [hpush] at ha
      cases ha
    | ok b =>
      rw [hpush] at ha
      cases ha
      obtain ⟨hb', rfl⟩ := DashboardSummaryAccumulator.pushChecked_eq_ok hpush hb
      have hrest := ih h hb' (ht.add span)
      rwa [List.append_assoc] at hrest

variable {acc : DashboardSummaryAccumulator A} {spans : List (ReportSpanV2 A)} {kpis : DashboardKpisV1 A} {sessions turns : ℕ}

omit [Amount A] in
theorem Tallies.tokenStatus (h : Tallies acc spans) : acc.tokenStatus = directTokenStatus spans := by
  unfold DashboardSummaryAccumulator.tokenStatus directTokenStatus
  rw [h.incompleteTokens, h.completeTokens]

omit [Amount A] in
theorem Tallies.costStatus (h : Tallies acc spans) : acc.costStatus = directCostStatus spans := by
  unfold DashboardSummaryAccumulator.costStatus directCostStatus mixedCurrencies
  rw [h.estimated, h.incompleteCost, h.unknownCost, h.mixedCurrency, otherCurrency_eq]

omit [Amount A] in
/-- The counts of a finished accumulator are those of its spans. -/
theorem Tallies.counts (h : Tallies acc spans) (hfinish : acc.finish sessions turns = .ok kpis) :
    kpis.counts = directCounts spans := by
  obtain ⟨_, _, hkpis⟩ := bind_eq_ok.mp hfinish
  cases hkpis
  simp only [DashboardKpisV1.counts, directCounts, directComponent, h.tokenStatus, h.costStatus, h.llm, h.tools, h.errors,
    h.input, h.output, h.incompleteInput, h.incompleteOutput, h.tokens, Bool.not_eq_true]

/-! ### The contract of a result -/

/-- The span has the estimate that pricing gave. -/
structure Priced (span : ReportSpanV2 A) : Prop where
  sound : span.cost.Sound
  estimatedCost : span.estimatedCost = span.cost.estimatedCost

omit [Amount A] in
/-- A cost that is estimated has a currency. -/
theorem Tallies.currency_isSome (h : Tallies acc spans) (hpriced : ∀ span ∈ spans, Priced span)
    (hestimated : acc.estimated = true) : acc.currency.isSome := by
  rw [h.estimated, List.any_eq_true] at hestimated
  obtain ⟨span, hspan, hbilled⟩ := hestimated
  have hstatus : span.cost.status = "estimated" := of_decide_eq_true (Bool.and_eq_true_iff.mp hbilled).2
  have hamount : span.cost.estimatedCost.isSome := (hpriced span hspan).sound.amount (by rw [hstatus]; decide)
  obtain ⟨currency, hcurrency⟩ := Option.isSome_iff_exists.mp ((hpriced span hspan).sound.currency hamount)
  have hcost : costCurrency span = some currency := by
    rw [costCurrency, (hpriced span hspan).estimatedCost, if_pos hamount, hcurrency]
  rw [h.currency, List.isSome_head?]
  exact List.ne_nil_of_mem (List.mem_filterMap.mpr ⟨span, hspan, hcost⟩)

theorem validateNonemptyBounded_currency {currency : String} (h : DashboardSummaryAccumulator.validCurrency currency = true) :
    validateNonemptyBounded currency 16 = .ok () := by
  have hbytes : currency.utf8ByteSize = 3 := (of_decide_eq_true h).1
  have hlength : currency.length ≤ 3 := hbytes ▸ length_le_utf8ByteSize currency
  have hne : currency.length ≠ 0 := by
    intro hzero
    rw [String.length_eq_zero_iff.mp hzero] at hbytes
    exact absurd hbytes (by decide)
  rw [validateNonemptyBounded, require_true hne, ok_bind, require_true (by omega)]

theorem validateEstimatedCost_some {cost : A}
    (h : Amount.isFinite cost = true ∧ Amount.nonneg cost = true ∧ Amount.withinMax cost = true) :
    validateEstimatedCost (some cost) = .ok () := by
  rw [validateEstimatedCost, ofOption, ok_bind, require_true h]

omit [Amount A] in
theorem validateTokenStatus_finish (hfinish : acc.finish sessions turns = .ok kpis) : validateTokenStatus kpis = .ok () := by
  obtain ⟨_, _, hkpis⟩ := bind_eq_ok.mp hfinish
  cases hkpis
  unfold validateTokenStatus
  cases hstatus : acc.tokenStatus with
  | complete => exact require_true (by simp)
  | incomplete => exact require_true (by simp)
  | unavailable => exact require_true (by simp)

theorem Tallies.validateCostStatus (h : Tallies acc spans) (hb : acc.Bounded) (hpriced : ∀ span ∈ spans, Priced span)
    (hfinish : acc.finish sessions turns = .ok kpis) : validateCostStatus kpis = .ok () := by
  obtain ⟨_, _, hkpis⟩ := bind_eq_ok.mp hfinish
  cases hkpis
  have hcurrency : acc.currency.toList.forM (fun currency => validateNonemptyBounded currency 16) = .ok () :=
    forM_ok_iff.mpr fun currency hmem =>
      validateNonemptyBounded_currency (hb.currency currency (Option.mem_toList.mp hmem))
  unfold Dashboard.validateCostStatus
  cases hstatus : acc.costStatus with
  | estimated =>
    have hestimated : acc.estimated = true ∧ acc.mixedCurrency = false := by
      unfold DashboardSummaryAccumulator.costStatus at hstatus
      split at hstatus
      · cases hstatus
      · split at hstatus
        · cases hstatus
        · simp_all
    obtain ⟨currency, hsome⟩ := Option.isSome_iff_exists.mp (h.currency_isSome hpriced hestimated.1)
    have hvalid : (ofOption DashboardContractError.invalidKpis (some currency) >>= fun currency =>
        validateNonemptyBounded currency 16) = .ok () := validateNonemptyBounded_currency (hb.currency currency hsome)
    simpa [hestimated.2, hsome, validateEstimatedCost_some hb.cost] using hvalid
  | incomplete =>
    cases hmixed : acc.mixedCurrency with
    | true => simp [pure, Except.pure]
    | false => simpa [validateEstimatedCost_some hb.cost] using hcurrency
  | unknown => exact require_true (by simp)

/-- **A finished accumulator passes the contract.** -/
theorem Tallies.validateKpis (h : Tallies acc spans) (hb : acc.Bounded) (hpriced : ∀ span ∈ spans, Priced span)
    (hfinish : acc.finish sessions turns = .ok kpis) : validateKpis kpis = .ok () := by
  have htokenStatus := validateTokenStatus_finish hfinish
  have hcostStatus := h.validateCostStatus hb hpriced hfinish
  obtain ⟨_, hsafe, hkpis⟩ := bind_eq_ok.mp hfinish
  obtain ⟨hsessions, hturns⟩ := require_eq_ok.mp hsafe
  have hcounts := hb.counts
  simp only [List.forall_mem_cons] at hcounts
  obtain ⟨hllm, htools, herrors, hinput, houtput, htokens, _⟩ := hcounts
  have hfive : [kpis.sessions, kpis.turns, kpis.llm, kpis.tools, kpis.errors].forM validateSafeCount = .ok () := by
    cases hkpis
    refine forM_ok_iff.mpr fun n hn => require_true ?_
    simp only [List.mem_cons, List.not_mem_nil, or_false] at hn
    obtain rfl | rfl | rfl | rfl | rfl := hn <;> assumption
  have hthree : ([kpis.inputTokens, kpis.outputTokens, kpis.totalTokens].filterMap id).forM validateSafeCount = .ok () := by
    cases hkpis
    refine forM_ok_iff.mpr fun n hn => require_true ?_
    obtain ⟨o, ho, hid⟩ := List.mem_filterMap.mp hn
    obtain rfl : o = some n := hid
    simp only [List.mem_cons, List.not_mem_nil, or_false] at ho
    have hite : ∀ {c : Prop} [Decidable c] {m : ℕ}, some n = (if c then some m else none) → m ≤ dashboardSafeIntegerMax →
        n ≤ dashboardSafeIntegerMax := by
      intro c _ m heq hm
      split at heq
      · exact Option.some.inj heq ▸ hm
      · cases heq
    obtain ho | ho | ho := ho
    · exact hite ho hinput
    · exact hite ho houtput
    · exact hite ho htokens
  rw [Dashboard.validateKpis, hfive, ok_bind, hthree, ok_bind, htokenStatus, ok_bind, hcostStatus]

end Tally

/-! ### The chain -/

/-- The integers of a result. -/
def DashboardKpisV1.integers (kpis : DashboardKpisV1 A) : List ℕ :=
  [kpis.sessions, kpis.turns, kpis.llm, kpis.tools, kpis.errors] ++
    [kpis.inputTokens, kpis.outputTokens, kpis.totalTokens].filterMap id

theorem safe_of_validateKpis [Amount A] {kpis : DashboardKpisV1 A} (h : validateKpis kpis = .ok ()) :
    ∀ n ∈ kpis.integers, n ≤ dashboardSafeIntegerMax := by
  obtain ⟨_, hfive, h⟩ := bind_eq_ok.mp h
  obtain ⟨_, hthree, _⟩ := bind_eq_ok.mp h
  intro n hn
  obtain hn | hn := List.mem_append.mp hn
  · exact require_eq_ok.mp (forM_ok_iff.mp hfive n hn)
  · exact require_eq_ok.mp (forM_ok_iff.mp hthree n hn)

section Chain

variable [Amount A] [Lowercase] {rows : List (ViewRow A)} {kernel : ReportViewKernel} {filters : DashboardFiltersV1}

/-- The selected spans in the order of the scan. -/
def scannedSpans (rows : List (ViewRow A)) (filters : DashboardFiltersV1) : List (ReportSpanV2 A) :=
  selectedSpans filters none (spanSource rows {} none)

/-- The identities that the direct summary counts: the values of the column, from the selected spans. -/
def identityCount (kernel : ReportViewKernel) (rows : List (ViewRow A)) (filters : DashboardFiltersV1)
    (dimension : IdentityDimension) : ℕ := (columnValues kernel dimension.column rows filters).length

/-- The accumulator has what was scanned, and the cursor points to the others. -/
structure Scanned (rows : List (ViewRow A)) (filters : DashboardFiltersV1) (acc : DashboardSummaryAccumulator A)
    (cursor : SpanScanCursor) : Prop where
  bounded : acc.Bounded
  tallies : ∃ spans, Tallies acc spans ∧ spans ++ selectedSpans filters none (spanSource rows cursor none) = scannedSpans rows filters

/-- The accumulator has all selected spans. -/
structure Complete (rows : List (ViewRow A)) (filters : DashboardFiltersV1) (acc : DashboardSummaryAccumulator A) : Prop where
  bounded : acc.Bounded
  tallies : Tallies acc (scannedSpans rows filters)

/-- The cursor counts what there is to count of the dimension. -/
structure Counting (kernel : ReportViewKernel) (rows : List (ViewRow A)) (filters : DashboardFiltersV1)
    (dimension : IdentityDimension) (cursor : IdentityScanCursor) : Prop where
  binds : cursor.after.Binds kernel
  bounded : cursor.distinct + cursor.todo kernel rows dimension ≤ dashboardSafeIntegerMax
  total : cursor.total kernel rows dimension filters = identityCount kernel rows filters dimension

/-- The invariant of the chain. -/
def SummaryProgress.Valid (kernel : ReportViewKernel) (rows : List (ViewRow A)) (filters : DashboardFiltersV1) :
    SummaryProgress A → Prop
  | .spans => True
  | .spansAt prior cursor acc => prior = kernel ∧ Scanned rows filters acc cursor
  | .sessions acc cursor => Complete rows filters acc ∧ Counting kernel rows filters .session cursor
  | .turns acc counted cursor =>
    Complete rows filters acc ∧ counted = identityCount kernel rows filters .session ∧
      Counting kernel rows filters .turn cursor

/-- What a complete result is. -/
def Summarized (kernel : ReportViewKernel) (rows : List (ViewRow A)) (filters : DashboardFiltersV1) (kpis : DashboardKpisV1 A) :
    Prop :=
  ∃ acc, Complete rows filters acc ∧
    acc.finish (identityCount kernel rows filters .session) (identityCount kernel rows filters .turn) = .ok kpis

/-- The invariant of a step. -/
def SummaryStep.Valid (kernel : ReportViewKernel) (rows : List (ViewRow A)) (filters : DashboardFiltersV1) :
    SummaryStep A → Prop
  | .pending progress => progress.Valid kernel rows filters
  | .complete kpis => Summarized kernel rows filters kpis

theorem counting_new (h : Published rows) (dimension : IdentityDimension) :
    Counting kernel rows filters dimension { after := .new kernel } where
  binds := ⟨_, DimensionPosition.bound_new kernel⟩
  bounded := (Nat.zero_add _).le.trans ((length_dimensionSource_le _).trans h.count)
  total := by
    have hsource : dimensionSource kernel dimension.column rows (.new kernel) = dimensionSource kernel dimension.column rows .unbound :=
      dimensionSource_congr (DimensionPosition.key_new kernel)
    rw [IdentityScanCursor.total, identityCount, columnValues, hsource, Nat.zero_add]

theorem advanceSummarySpans_spec (h : Published rows) {late : ℕ → Bool} {cursor : SpanScanCursor}
    {acc : DashboardSummaryAccumulator A} {step : SummaryStep A} (hscanned : Scanned rows filters acc cursor)
    (hstep : advanceSummarySpans late rows cursor acc kernel filters = .ok step) :
    step.Valid kernel rows filters := by
  obtain ⟨batch, hbatch, hstep⟩ := bind_eq_ok.mp hstep
  obtain ⟨acc', hpush, hstep⟩ := bind_eq_ok.mp hstep
  cases hstep
  obtain ⟨scanned, hscan, htotal, _⟩ := scanSpans_slice h late cursor filters none (show 512 ≠ 0 ∧ 512 ≤ maxScanRows by decide)
  obtain rfl : scanned = batch := Except.ok.inj (hscan.symm.trans (mapError_ok_iff.mp hbatch))
  obtain ⟨spans, htallies, hspans⟩ := hscanned.tallies
  obtain ⟨hbounded, htallies⟩ := pushAll_eq_ok (mapError_ok_iff.mp hpush) hscanned.bounded htallies
  rw [← htotal, ← List.append_assoc] at hspans
  cases hexhausted : scanned.exhausted with
  | true =>
    simp only [hexhausted, if_true, List.append_nil] at hspans
    exact ⟨⟨hbounded, hspans ▸ htallies⟩, counting_new h .session⟩
  | false => exact ⟨rfl, hbounded, _, htallies, by simpa [hexhausted] using hspans⟩

theorem scanned_new : Scanned rows filters .new {} :=
  ⟨DashboardSummaryAccumulator.bounded_new, [], tallies_new, rfl⟩

/-- A request about identities goes on counting, or it has the count. -/
theorem scanIdentities_spec (h : Published rows) {late : ℕ → Bool} {dimension : IdentityDimension} {cursor : IdentityScanCursor}
    {scan : IdentityScan} (hcounting : Counting kernel rows filters dimension cursor)
    (hscan : scanIdentities late rows dimension kernel cursor filters = .ok scan) :
    if scan.exhausted then scan.next.distinct = identityCount kernel rows filters dimension
    else Counting kernel rows filters dimension scan.next := by
  obtain ⟨scan', hscan', hbinds, hbounded, htotal, _⟩ :=
    scanIdentities_slice h late dimension cursor filters hcounting.binds hcounting.bounded
  obtain rfl : scan' = scan := Except.ok.inj (hscan'.symm.trans hscan)
  rw [hcounting.total] at htotal
  cases hexhausted : scan'.exhausted with
  | true => simpa [hexhausted] using htotal
  | false => exact ⟨hbinds, hbounded, by simpa [hexhausted] using htotal⟩

/-- **A request of the chain** keeps the invariant or completes the summary. -/
theorem advanceSummary_spec (h : Published rows) {late : ℕ → Bool} {progress : SummaryProgress A} {step : SummaryStep A}
    (hvalid : progress.Valid kernel rows filters) (hstep : advanceSummary late rows progress kernel filters = .ok step) :
    step.Valid kernel rows filters := by
  cases progress with
  | spans => exact advanceSummarySpans_spec h scanned_new hstep
  | spansAt prior cursor acc =>
    obtain ⟨_, _, hstep⟩ := bind_eq_ok.mp hstep
    exact advanceSummarySpans_spec h hvalid.2 hstep
  | sessions acc cursor =>
    obtain ⟨scan, hscan, hstep⟩ := bind_eq_ok.mp hstep
    have hspec := scanIdentities_spec h hvalid.2 (mapError_ok_iff.mp hscan)
    cases hstep
    cases hexhausted : scan.exhausted with
    | true =>
      rw [hexhausted, if_pos rfl] at hspec
      exact ⟨hvalid.1, hspec, counting_new h .turn⟩
    | false =>
      rw [hexhausted, if_neg Bool.false_ne_true] at hspec
      exact ⟨hvalid.1, hspec⟩
  | turns acc sessions cursor =>
    obtain ⟨scan, hscan, hstep⟩ := bind_eq_ok.mp hstep
    have hspec := scanIdentities_spec h hvalid.2.2 (mapError_ok_iff.mp hscan)
    cases hexhausted : scan.exhausted with
    | true =>
      rw [hexhausted, if_pos rfl] at hspec hstep
      obtain ⟨kpis, hfinish, rfl⟩ := map_eq_ok.mp hstep
      rw [hspec, hvalid.2.1] at hfinish
      exact ⟨acc, hvalid.1, mapError_ok_iff.mp hfinish⟩
    | false =>
      rw [hexhausted, if_neg Bool.false_ne_true] at hspec hstep
      cases hstep
      exact ⟨hvalid.1, hvalid.2.1, hspec⟩

/-- The whole chain. -/
theorem summarize_spec (h : Published rows) {late : ℕ → ℕ → Bool} {kpis : DashboardKpisV1 A} :
    ∀ {requests n : ℕ} {progress : SummaryProgress A}, progress.Valid kernel rows filters →
      summarize late rows kernel filters requests n progress = .ok (some kpis) → Summarized kernel rows filters kpis := by
  intro requests
  induction requests with
  | zero => exact fun _ h => nomatch h
  | succ requests ih =>
    intro n progress hvalid hsummary
    obtain ⟨step, hstep, hsummary⟩ := bind_eq_ok.mp hsummary
    have hspec := advanceSummary_spec h hvalid hstep
    cases step with
    | pending next => exact ih hspec hsummary
    | complete result =>
      cases hsummary
      exact hspec

/-- The identities of some spans. -/
def identities (dimension : IdentityDimension) (spans : List (ReportSpanV2 A)) : List String :=
  (spans.filterMap fun span => spanColumn span dimension.column).filter (· ≠ "")

/-- The count of a dimension is the number of its distinct identities. -/
theorem identityCount_eq (h : Published rows) (dimension : IdentityDimension) {spans : List (ReportSpanV2 A)}
    (hperm : spans.Perm (selectedSpans filters none rows)) :
    identityCount kernel rows filters dimension = (identities dimension spans).toFinset.card := by
  have hnodup : (columnValues kernel dimension.column rows filters).Nodup := columnValues_strict.imp fun hlt => hlt.ne
  rw [identityCount, ← List.toFinset_card_of_nodup hnodup]
  congr 1
  ext v
  have hspan : ∀ span, span ∈ spans ↔ span ∈ spansOf rows ∧ matchesFilters span filters = true := by
    intro span
    rw [hperm.mem_iff, selectedSpans, List.mem_filter]
    exact Iff.rfl
  simp only [List.mem_toFinset, mem_columnValues h, identities, List.mem_filter, List.mem_filterMap, decide_eq_true_eq]
  constructor
  · rintro ⟨hv, span, hmem, hcolumn, hmatches⟩
    exact ⟨⟨span, (hspan span).mpr ⟨hmem, hmatches⟩, hcolumn⟩, hv⟩
  · rintro ⟨⟨span, hmem, hcolumn⟩, hv⟩
    exact ⟨hv, span, ((hspan span).mp hmem).1, hcolumn, ((hspan span).mp hmem).2⟩

/-- **The sliced summary is the direct one.** If the chain completes, its counts are those of the selected spans in any
order, also as one accumulator has them; its sessions and turns are the distinct identities; its integers are safe; the
result passes the contract; and a push that is rejected changes nothing. -/
theorem summarize_exact (h : Published rows) (hpriced : ∀ span ∈ spansOf rows, Priced span) {late : ℕ → ℕ → Bool}
    {requests : ℕ} {kpis : DashboardKpisV1 A} (hdone : summarize late rows kernel filters requests 0 .spans = .ok (some kpis)) :
    (∀ spans : List (ReportSpanV2 A), spans.Perm (selectedSpans filters none rows) →
      kpis.counts = directCounts spans ∧
      kpis.sessions = (identities .session spans).toFinset.card ∧ kpis.turns = (identities .turn spans).toFinset.card ∧
      ∀ acc direct, pushAll .new spans = .ok acc → acc.finish kpis.sessions kpis.turns = .ok direct →
        direct.counts = kpis.counts) ∧
    (∀ n ∈ kpis.integers, n ≤ 2 ^ 53 - 1) ∧ validateKpis kpis = .ok () ∧
    ∀ (acc : DashboardSummaryAccumulator A) (span : ReportSpanV2 A) (e : SummaryCapacityExceeded),
      (acc.push span).2 = .error e → (acc.push span).1 = acc := by
  obtain ⟨acc, hcomplete, hfinish⟩ := summarize_spec h (show SummaryProgress.Valid kernel rows filters .spans from trivial) hdone
  have hscanned : (scannedSpans rows filters).Perm (selectedSpans filters none rows) :=
    ((spanSource_perm none).filterMap _).filter _
  have hscannedPriced : ∀ span ∈ scannedSpans rows filters, Priced span := fun span hspan =>
    hpriced span (List.mem_filter.mp (hscanned.mem_iff.mp hspan)).1
  have hvalid := hcomplete.tallies.validateKpis hcomplete.bounded hscannedPriced hfinish
  refine ⟨fun spans hperm => ?_, safe_of_validateKpis hvalid, hvalid, fun acc span e => DashboardSummaryAccumulator.push_rejected⟩
  have hcounts : kpis.counts = directCounts spans :=
    (hcomplete.tallies.counts hfinish).trans (directCounts_perm (hscanned.trans hperm.symm))
  have hidentities : kpis.sessions = identityCount kernel rows filters .session ∧
      kpis.turns = identityCount kernel rows filters .turn := by
    obtain ⟨_, _, hkpis⟩ := bind_eq_ok.mp hfinish
    cases hkpis
    exact ⟨rfl, rfl⟩
  refine ⟨hcounts, hidentities.1.trans (identityCount_eq h .session hperm), hidentities.2.trans (identityCount_eq h .turn hperm),
    fun acc' direct hpush hdirect => ?_⟩
  obtain ⟨_, htallies⟩ := pushAll_eq_ok hpush DashboardSummaryAccumulator.bounded_new tallies_new
  exact (htallies.counts hdirect).trans hcounts.symm

end Chain

section Samples

local instance : Amount ℕ := natAmount

local instance : Lowercase := asciiLowercase

theorem summarize_exact_sampleRows :
    ∃ kpis, summarize (fun _ n => 1 ≤ n) sampleRows .v2 {} 10 0 .spans = .ok (some kpis) ∧ kpis.llm = 2 ∧
      kpis.sessions = 1 ∧ validateKpis kpis = .ok () := by
  have hpriced : ∀ span ∈ spansOf sampleRows, Priced span := by
    intro span hspan
    have hcost : ∀ spanId start, Priced (sampleSpan spanId start) := fun spanId start =>
      ⟨⟨.inr (.inr rfl), fun hne => absurd rfl hne, nofun⟩, rfl⟩
    obtain rfl | hspan := List.mem_cons.mp hspan
    · exact hcost _ _
    · obtain rfl := List.mem_singleton.mp hspan
      exact hcost _ _
  have hrun : ((summarize (fun _ n => 1 ≤ n) sampleRows .v2 {} 10 0 .spans).toOption.any fun kpis =>
      kpis.any fun kpis => kpis.llm = 2 ∧ kpis.sessions = 1) = true := by decide +kernel
  cases hdone : summarize (fun _ n => 1 ≤ n) sampleRows .v2 {} 10 0 .spans with
  | error e =>
    rw [hdone] at hrun
    cases hrun
  | ok result =>
    cases result with
    | none =>
      rw [hdone] at hrun
      cases hrun
    | some kpis =>
      rw [hdone] at hrun
      replace hrun := of_decide_eq_true hrun
      exact ⟨kpis, rfl, hrun.1, hrun.2, (summarize_exact published_sampleRows hpriced hdone).2.2.1⟩

end Samples

end AgentObservability.Dashboard
