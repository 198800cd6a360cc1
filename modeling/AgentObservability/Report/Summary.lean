import AgentObservability.Foundation.Grouping
import AgentObservability.Foundation.KeySort
import AgentObservability.Report.Projection
import Mathlib.Data.Prod.Lex

/-!
# The summary of a report

`summarize_report`, `report_filters` and `trace_summaries`: the totals of a report,
the values that it can be filtered by, and the totals of each of its traces. They
are computed by separate loops. The additions of the last one are not checked in
the source; here an addition that overflows gives no value.

## What is proved

`summarizeReport_conserves`: where there are totals, no addition for a trace
overflows, the traces add up to the totals, and the order of the spans does not
matter.
-/

namespace AgentObservability.Report

open Domain Contracts Foundation

variable {A : Type}

/-! ### Integers -/

/-- An addition of `u64` values that does not overflow. -/
def addU64 (a b : ℕ) : Option ℕ := if a + b < 2 ^ 64 then some (a + b) else none

/-- `exact_u64`. -/
def exactU64 (value : ℕ) : ℕ := min value (2 ^ 64 - 1)

/-- `MAX_EXACT_U64`. -/
def maxExactU64 : ℕ := 9007199254740991

/-- The loop of `sum_integer_metric`. -/
def sumIntegers (field : String) (total : ℕ) (values : List ℕ) : Except ReportProjectionError ℕ :=
  values.foldlM (fun total value => do
    require (value ≤ maxExactU64) (.invalidSummaryMetric field (some value))
    ofOption (.invalidSummaryMetric field none) (addU64 total (exactU64 value))) total

/-- `sum_integer_metric`. -/
def sumIntegerMetric (spans : List (ReportSpanV2 A)) (get : ReportMetricsV1 → Option ℕ) (field : String) :
    Except ReportProjectionError ℕ :=
  sumIntegers field 0 (spans.filterMap fun span => get span.metrics)

/-! ### Totals -/

/-- `ReportSummaryV1`. -/
structure ReportSummaryV1 (A : Type) where
  /-- `generated_spans`. -/
  generatedSpans : ℕ
  /-- `sessions`. -/
  sessions : ℕ
  /-- `turns`. -/
  turns : ℕ
  /-- `llm_requests`. -/
  llmRequests : ℕ
  /-- `tool_executions`. -/
  toolExecutions : ℕ
  /-- `errors`. -/
  errors : ℕ
  /-- `input_tokens`. -/
  inputTokens : ℕ
  /-- `output_tokens`. -/
  outputTokens : ℕ
  /-- `cached_input_tokens`. -/
  cachedInputTokens : ℕ
  /-- `cache_creation_input_tokens`. -/
  cacheCreationInputTokens : ℕ
  /-- `reasoning_output_tokens`. -/
  reasoningOutputTokens : ℕ
  /-- `latency_ms`. -/
  latencyMs : ℕ
  /-- `duration_ms`. -/
  durationMs : ℕ
  /-- `estimated_cost`. -/
  estimatedCost : A

/-- `count_kind`. -/
def countKind (spans : List (ReportSpanV2 A)) (kind : SpanKind) : ℕ := spans.countP fun span => span.kind = kind

/-- The amounts of some spans, one after the other. -/
def sumCosts [Amount A] (spans : List (ReportSpanV2 A)) : A :=
  spans.foldl (fun sum span => Amount.add sum (span.estimatedCost.getD Amount.zero)) Amount.zero

/-- `summarize_report`. -/
def summarizeReport [Amount A] (spans : List (ReportSpanV2 A)) : Except ReportProjectionError (ReportSummaryV1 A) := do
  let inputTokens ← sumIntegerMetric spans (·.inputTokens) "inputTokens"
  let outputTokens ← sumIntegerMetric spans (·.outputTokens) "outputTokens"
  let cachedInputTokens ← sumIntegerMetric spans (·.cachedInputTokens) "cachedInputTokens"
  let cacheCreationInputTokens ← sumIntegerMetric spans (·.cacheCreationInputTokens) "cacheCreationInputTokens"
  let reasoningOutputTokens ← sumIntegerMetric spans (·.reasoningOutputTokens) "reasoningOutputTokens"
  let latencyMs ← sumIntegerMetric spans (·.latencyMs) "latencyMs"
  let durationMs ← sumIntegerMetric spans (·.durationMs) "durationMs"
  pure
    { generatedSpans := spans.length
      sessions := countKind spans .agentSession
      turns := countKind spans .turn
      llmRequests := countKind spans .llmRequest
      toolExecutions := countKind spans .toolExecution
      errors := spans.countP fun span => span.status = .error
      inputTokens, outputTokens, cachedInputTokens, cacheCreationInputTokens, reasoningOutputTokens, latencyMs
      durationMs
      estimatedCost := sumCosts spans }

/-! ### Filters -/

/-- `unique_sorted`, which is also a `BTreeSet` of the values. -/
def uniqueSorted (values : List String) : List String :=
  (OrderedMap.group id (fun _ _ => ()) .empty values).entries.map (·.1)

/-- `ReportFiltersV1`. -/
structure ReportFiltersV1 where
  /-- `repos`. -/
  repos : List String
  /-- `sessions`. -/
  sessions : List String
  /-- `turns`. -/
  turns : List String
  /-- `agents`. -/
  agents : List String
  /-- `models`. -/
  models : List String
  deriving DecidableEq

/-- `report_filters`. -/
def reportFilters (spans : List (ReportSpanV2 A)) : ReportFiltersV1 where
  repos := uniqueSorted (spans.map (·.repo))
  sessions := uniqueSorted (spans.filterMap (·.sessionId))
  turns := uniqueSorted (spans.filterMap (·.turnId))
  agents := uniqueSorted (spans.map fun span => span.agent.name.getD "unknown")
  models := uniqueSorted (spans.map fun span => span.agent.model.getD "unknown")

/-! ### Traces -/

/-- `TraceSummaryV1`. -/
structure TraceSummaryV1 (A : Type) where
  /-- `trace_id`. -/
  traceId : String
  /-- `repo`. -/
  repo : String
  /-- `spans`. -/
  spans : ℕ
  /-- `errors`. -/
  errors : ℕ
  /-- `input_tokens`. -/
  inputTokens : ℕ
  /-- `output_tokens`. -/
  outputTokens : ℕ
  /-- `estimated_cost`. -/
  estimatedCost : A
  /-- `start_time_unix_ms`. -/
  startTimeUnixMs : ℕ
  /-- `end_time_unix_ms`. -/
  endTimeUnixMs : Option ℕ
  /-- `sessions`. -/
  sessions : List String
  /-- `turns`. -/
  turns : List String

/-- `max_nullable`. -/
def maxNullable : Option ℕ → Option ℕ → Option ℕ
  | none, value => value
  | value, none => value
  | some left, some right => some (max left right)

/-- `or_insert_with`: the summary of a trace without spans. -/
def TraceSummaryV1.new [Amount A] (span : ReportSpanV2 A) : TraceSummaryV1 A where
  traceId := span.traceId
  repo := "unknown"
  spans := 0
  errors := 0
  inputTokens := 0
  outputTokens := 0
  estimatedCost := Amount.zero
  startTimeUnixMs := span.startTimeUnixMs
  endTimeUnixMs := span.endTimeUnixMs
  sessions := []
  turns := []

/-- The loop body of `trace_summaries`, for the group of the span. -/
def addToTrace? [Amount A] (group : Option (TraceSummaryV1 A)) (span : ReportSpanV2 A) : Option (TraceSummaryV1 A) := do
  let group := group.getD (.new span)
  let spans ← addU64 group.spans 1
  let errors ← addU64 group.errors (if span.status = .error then 1 else 0)
  let inputTokens ← addU64 group.inputTokens (exactU64 (span.metrics.inputTokens.getD 0))
  let outputTokens ← addU64 group.outputTokens (exactU64 (span.metrics.outputTokens.getD 0))
  some
    { group with
      spans, errors, inputTokens, outputTokens
      estimatedCost := Amount.add group.estimatedCost (span.estimatedCost.getD Amount.zero)
      startTimeUnixMs := min group.startTimeUnixMs span.startTimeUnixMs
      endTimeUnixMs := maxNullable group.endTimeUnixMs span.endTimeUnixMs
      sessions := group.sessions ++ span.sessionId.toList
      turns := group.turns ++ span.turnId.toList }

/-- The loop body of `trace_summaries`, for the repositories of the trace. -/
def addRepository (repositories : Option (OrderedMap String Unit)) (span : ReportSpanV2 A) : OrderedMap String Unit :=
  (repositories.getD .empty).insert span.repo ()

/-- `repositories`. -/
def traceRepositories (spans : List (ReportSpanV2 A)) : OrderedMap String (OrderedMap String Unit) :=
  OrderedMap.group (·.traceId) addRepository .empty (spans.filter fun span => span.repo ≠ "unknown")

/-- The one repository of a trace. -/
def singleRepository (repositories : Option (OrderedMap String Unit)) : Option String :=
  match repositories.map (·.entries) with
  | some [repo] => some repo.1
  | _ => none

/-- The last loop of `trace_summaries`. -/
def TraceSummaryV1.finish (trace : TraceSummaryV1 A) (repositories : Option (OrderedMap String Unit)) : TraceSummaryV1 A :=
  { trace with
    repo := (singleRepository repositories).getD trace.repo
    sessions := sortDedup trace.sessions
    turns := sortDedup trace.turns }

/-- What traces are sorted by. -/
def TraceSummaryV1.key (trace : TraceSummaryV1 A) : ℕ ×ₗ String := toLex (trace.startTimeUnixMs, trace.traceId)

/-- `trace_summaries`. -/
def traceSummaries [Amount A] (spans : List (ReportSpanV2 A)) : Option (List (TraceSummaryV1 A)) := do
  let groups ← OrderedMap.groupM (·.traceId) addToTrace? .empty spans
  let repositories := traceRepositories spans
  some (sortByKey TraceSummaryV1.key (groups.entries.map fun e => e.2.finish (repositories.get? e.2.traceId)))

/-! ### Checked sums -/

/-- The sum of a metric, where it is given. -/
def metricSum (spans : List (ReportSpanV2 A)) (get : ReportMetricsV1 → Option ℕ) : ℕ :=
  (spans.map fun span => (get span.metrics).getD 0).sum

/-- Every value of a metric is exact, and the sum is a `u64`. -/
def Summable (spans : List (ReportSpanV2 A)) (get : ReportMetricsV1 → Option ℕ) : Prop :=
  (∀ span ∈ spans, ∀ value ∈ get span.metrics, value ≤ maxExactU64) ∧ metricSum spans get < 2 ^ 64

theorem addU64_eq_some {a b n : ℕ} : addU64 a b = some n ↔ a + b < 2 ^ 64 ∧ n = a + b := by
  unfold addU64
  by_cases h : a + b < 2 ^ 64
  · rw [if_pos h]
    exact ⟨fun hn => ⟨h, (Option.some.inj hn).symm⟩, fun hn => congrArg some hn.2.symm⟩
  · rw [if_neg h]
    exact ⟨nofun, fun hn => absurd hn.1 h⟩

theorem exactU64_le (value : ℕ) : exactU64 value ≤ value := min_le_left _ _

theorem exactU64_of_le {value : ℕ} (h : value ≤ maxExactU64) : exactU64 value = value := by
  apply min_eq_left
  unfold maxExactU64 at h
  omega

theorem sumIntegers_eq_ok {field : String} {total n : ℕ} {values : List ℕ} (htotal : total < 2 ^ 64) :
    sumIntegers field total values = .ok n ↔
      (∀ value ∈ values, value ≤ maxExactU64) ∧ total + values.sum < 2 ^ 64 ∧ n = total + values.sum := by
  induction values generalizing total with
  | nil =>
    show Except.ok total = .ok n ↔ _
    exact ⟨fun hn => ⟨nofun, htotal, (Except.ok.inj hn).symm⟩, fun hn => congrArg Except.ok hn.2.2.symm⟩
  | cons value values ih =>
    have hstep : sumIntegers field total (value :: values) = (do
        require (value ≤ maxExactU64) (.invalidSummaryMetric field (some value))
        ofOption (.invalidSummaryMetric field none) (addU64 total (exactU64 value))) >>= fun total =>
      sumIntegers field total values := List.foldlM_cons
    rw [hstep, List.forall_mem_cons, List.sum_cons]
    constructor
    · intro h
      obtain ⟨next, hnext, h⟩ := bind_eq_ok.mp h
      obtain ⟨_, hvalue, hnext⟩ := bind_eq_ok.mp hnext
      have hexact := require_eq_ok.mp hvalue
      rw [ofOption_eq_ok, exactU64_of_le hexact, addU64_eq_some] at hnext
      obtain ⟨hfits, rfl⟩ := hnext
      obtain ⟨hvalues, hsum, hn⟩ := (ih hfits).mp h
      exact ⟨⟨hexact, hvalues⟩, by omega, by omega⟩
    · rintro ⟨⟨hexact, hvalues⟩, hsum, hn⟩
      have hfits : total + value < 2 ^ 64 := by omega
      rw [require_true hexact, ok_bind, exactU64_of_le hexact, addU64, if_pos hfits]
      show sumIntegers field (total + value) values = .ok n
      exact (ih hfits).mpr ⟨hvalues, by omega, by omega⟩

theorem sum_filterMap_metric (spans : List (ReportSpanV2 A)) (get : ReportMetricsV1 → Option ℕ) :
    (spans.filterMap fun span => get span.metrics).sum = metricSum spans get := by
  unfold metricSum
  induction spans with
  | nil => rfl
  | cons span spans ih =>
    rw [List.map_cons, List.sum_cons, ← ih]
    cases hget : get span.metrics with
    | none => simp [hget]
    | some value => simp [hget]

/-- A sum that is checked is the sum, and there is one where the metric is summable. -/
theorem sumIntegerMetric_eq_ok {spans : List (ReportSpanV2 A)} {get : ReportMetricsV1 → Option ℕ} {field : String} {n : ℕ} :
    sumIntegerMetric spans get field = .ok n ↔ Summable spans get ∧ n = metricSum spans get := by
  unfold sumIntegerMetric Summable
  rw [sumIntegers_eq_ok (by decide), sum_filterMap_metric, zero_add, and_assoc]
  apply and_congr_left'
  simp only [List.mem_filterMap]
  exact ⟨fun h span hspan value hvalue => h value ⟨span, hspan, hvalue⟩,
    fun h value ⟨span, hspan, hvalue⟩ => h span hspan value hvalue⟩

/-- The metrics that the totals add up. -/
def summedMetrics : List (ReportMetricsV1 → Option ℕ) :=
  [(·.inputTokens), (·.outputTokens), (·.cachedInputTokens), (·.cacheCreationInputTokens), (·.reasoningOutputTokens),
    (·.latencyMs), (·.durationMs)]

/-- The totals of some spans, directly. -/
def directSummary [Amount A] (spans : List (ReportSpanV2 A)) : ReportSummaryV1 A where
  generatedSpans := spans.length
  sessions := countKind spans .agentSession
  turns := countKind spans .turn
  llmRequests := countKind spans .llmRequest
  toolExecutions := countKind spans .toolExecution
  errors := spans.countP fun span => span.status = .error
  inputTokens := metricSum spans (·.inputTokens)
  outputTokens := metricSum spans (·.outputTokens)
  cachedInputTokens := metricSum spans (·.cachedInputTokens)
  cacheCreationInputTokens := metricSum spans (·.cacheCreationInputTokens)
  reasoningOutputTokens := metricSum spans (·.reasoningOutputTokens)
  latencyMs := metricSum spans (·.latencyMs)
  durationMs := metricSum spans (·.durationMs)
  estimatedCost := sumCosts spans

/-- There are totals if and only if every metric is summable. -/
theorem summarizeReport_eq_ok [Amount A] {spans : List (ReportSpanV2 A)} {summary : ReportSummaryV1 A} :
    summarizeReport spans = .ok summary ↔ (∀ get ∈ summedMetrics, Summable spans get) ∧ summary = directSummary spans := by
  simp only [summedMetrics, List.forall_mem_cons]
  unfold summarizeReport
  constructor
  · intro h
    obtain ⟨a, ha, h⟩ := bind_eq_ok.mp h
    obtain ⟨b, hb, h⟩ := bind_eq_ok.mp h
    obtain ⟨c, hc, h⟩ := bind_eq_ok.mp h
    obtain ⟨d, hd, h⟩ := bind_eq_ok.mp h
    obtain ⟨e, he, h⟩ := bind_eq_ok.mp h
    obtain ⟨f, hf, h⟩ := bind_eq_ok.mp h
    obtain ⟨g, hg, h⟩ := bind_eq_ok.mp h
    obtain ⟨sa, rfl⟩ := sumIntegerMetric_eq_ok.mp ha
    obtain ⟨sb, rfl⟩ := sumIntegerMetric_eq_ok.mp hb
    obtain ⟨sc, rfl⟩ := sumIntegerMetric_eq_ok.mp hc
    obtain ⟨sd, rfl⟩ := sumIntegerMetric_eq_ok.mp hd
    obtain ⟨se, rfl⟩ := sumIntegerMetric_eq_ok.mp he
    obtain ⟨sf, rfl⟩ := sumIntegerMetric_eq_ok.mp hf
    obtain ⟨sg, rfl⟩ := sumIntegerMetric_eq_ok.mp hg
    cases h
    exact ⟨⟨sa, sb, sc, sd, se, sf, sg, nofun⟩, rfl⟩
  · rintro ⟨⟨ha, hb, hc, hd, he, hf, hg, -⟩, rfl⟩
    rw [sumIntegerMetric_eq_ok.mpr ⟨ha, rfl⟩, ok_bind, sumIntegerMetric_eq_ok.mpr ⟨hb, rfl⟩, ok_bind,
      sumIntegerMetric_eq_ok.mpr ⟨hc, rfl⟩, ok_bind, sumIntegerMetric_eq_ok.mpr ⟨hd, rfl⟩, ok_bind,
      sumIntegerMetric_eq_ok.mpr ⟨he, rfl⟩, ok_bind, sumIntegerMetric_eq_ok.mpr ⟨hf, rfl⟩, ok_bind,
      sumIntegerMetric_eq_ok.mpr ⟨hg, rfl⟩, ok_bind]
    rfl

/-! ### The spans of a trace -/

section Traces

variable [Amount A]

/-- `addToTrace?`, where nothing overflows. -/
def addToTrace (group : Option (TraceSummaryV1 A)) (span : ReportSpanV2 A) : TraceSummaryV1 A :=
  let group := group.getD (.new span)
  { group with
    spans := group.spans + 1
    errors := group.errors + if span.status = .error then 1 else 0
    inputTokens := group.inputTokens + exactU64 (span.metrics.inputTokens.getD 0)
    outputTokens := group.outputTokens + exactU64 (span.metrics.outputTokens.getD 0)
    estimatedCost := Amount.add group.estimatedCost (span.estimatedCost.getD Amount.zero)
    startTimeUnixMs := min group.startTimeUnixMs span.startTimeUnixMs
    endTimeUnixMs := maxNullable group.endTimeUnixMs span.endTimeUnixMs
    sessions := group.sessions ++ span.sessionId.toList
    turns := group.turns ++ span.turnId.toList }

theorem addToTrace?_eq_some {group : Option (TraceSummaryV1 A)} {span : ReportSpanV2 A}
    (hspans : (addToTrace group span).spans < 2 ^ 64) (herrors : (addToTrace group span).errors < 2 ^ 64)
    (hinput : (addToTrace group span).inputTokens < 2 ^ 64) (houtput : (addToTrace group span).outputTokens < 2 ^ 64) :
    addToTrace? group span = some (addToTrace group span) := by
  unfold addToTrace?
  simp only [bind, Option.bind_eq_some_iff]
  exact ⟨_, addU64_eq_some.mpr ⟨hspans, rfl⟩, _, addU64_eq_some.mpr ⟨herrors, rfl⟩, _,
    addU64_eq_some.mpr ⟨hinput, rfl⟩, _, addU64_eq_some.mpr ⟨houtput, rfl⟩, rfl⟩

/-- The smaller of two values, where there are two. -/
def minNullable : Option ℕ → Option ℕ → Option ℕ
  | none, value => value
  | value, none => value
  | some left, some right => some (min left right)

instance : Std.Commutative minNullable :=
  ⟨fun a b => by cases a <;> cases b <;> simp [minNullable, min_comm]⟩

instance : Std.Associative minNullable :=
  ⟨fun a b c => by cases a <;> cases b <;> cases c <;> simp [minNullable, min_assoc]⟩

instance : Std.Commutative maxNullable :=
  ⟨fun a b => by cases a <;> cases b <;> simp [maxNullable, max_comm]⟩

instance : Std.Associative maxNullable :=
  ⟨fun a b c => by cases a <;> cases b <;> cases c <;> simp [maxNullable, max_assoc]⟩

/-- The first start of some spans. -/
def firstStart (spans : List (ReportSpanV2 A)) : Option ℕ :=
  (spans.map fun span => some span.startTimeUnixMs).foldl minNullable none

/-- The last end of some spans. -/
def lastEnd (spans : List (ReportSpanV2 A)) : Option ℕ := (spans.map (·.endTimeUnixMs)).foldl maxNullable none

/-- The errors of a span. -/
def errorCount (span : ReportSpanV2 A) : ℕ := if span.status = .error then 1 else 0

/-- The input tokens of a span. -/
def inputCount (span : ReportSpanV2 A) : ℕ := exactU64 (span.metrics.inputTokens.getD 0)

/-- The output tokens of a span. -/
def outputCount (span : ReportSpanV2 A) : ℕ := exactU64 (span.metrics.outputTokens.getD 0)

/-- The group of a trace, directly from its spans. -/
def traceOf (id : String) (spans : List (ReportSpanV2 A)) : TraceSummaryV1 A where
  traceId := id
  repo := "unknown"
  spans := spans.length
  errors := (spans.map errorCount).sum
  inputTokens := (spans.map inputCount).sum
  outputTokens := (spans.map outputCount).sum
  estimatedCost := sumCosts spans
  startTimeUnixMs := (firstStart spans).getD 0
  endTimeUnixMs := lastEnd spans
  sessions := spans.filterMap (·.sessionId)
  turns := spans.filterMap (·.turnId)

omit [Amount A] in
theorem firstStart_append (spans : List (ReportSpanV2 A)) (span : ReportSpanV2 A) :
    firstStart (spans ++ [span]) = minNullable (firstStart spans) (some span.startTimeUnixMs) := by
  simp [firstStart]

omit [Amount A] in
theorem lastEnd_append (spans : List (ReportSpanV2 A)) (span : ReportSpanV2 A) :
    lastEnd (spans ++ [span]) = maxNullable (lastEnd spans) span.endTimeUnixMs := by
  simp [lastEnd]

omit [Amount A] in
theorem firstStart_isSome {spans : List (ReportSpanV2 A)} (h : spans ≠ []) : (firstStart spans).isSome := by
  induction spans using List.reverseRecOn with
  | nil => exact absurd rfl h
  | append_singleton before last _ =>
    rw [firstStart_append]
    cases firstStart before <;> rfl

theorem maxNullable_self (value : Option ℕ) : maxNullable value value = value := by
  cases value with
  | none => rfl
  | some value => exact congrArg some (max_self value)

theorem sumCosts_append (spans : List (ReportSpanV2 A)) (span : ReportSpanV2 A) :
    sumCosts (spans ++ [span]) = Amount.add (sumCosts spans) (span.estimatedCost.getD Amount.zero) :=
  List.foldl_append

omit [Amount A] in
theorem filterMap_append_toList {α β : Type} (f : α → Option β) (xs : List α) (x : α) :
    (xs ++ [x]).filterMap f = xs.filterMap f ++ (f x).toList := by
  rw [List.filterMap_append]
  cases h : f x <;> simp [h]

omit [Amount A] in
theorem sum_map_append (measure : ReportSpanV2 A → ℕ) (spans : List (ReportSpanV2 A)) (span : ReportSpanV2 A) :
    ((spans ++ [span]).map measure).sum = (spans.map measure).sum + measure span := by
  rw [List.map_append, List.sum_append, List.map_singleton, List.sum_singleton]

/-- A span more. -/
theorem traceOf_append {id : String} {spans : List (ReportSpanV2 A)} {span : ReportSpanV2 A} (hid : span.traceId = id) :
    traceOf id (spans ++ [span]) = addToTrace (if spans = [] then none else some (traceOf id spans)) span := by
  unfold traceOf
  rw [firstStart_append, lastEnd_append, sumCosts_append, sum_map_append, sum_map_append, sum_map_append,
    filterMap_append_toList, filterMap_append_toList, List.length_append, List.length_singleton]
  by_cases hnil : spans = []
  · subst hnil
    subst hid
    rw [if_pos rfl]
    unfold addToTrace
    simp only [Option.getD_none, TraceSummaryV1.new, maxNullable_self, min_self]
    rfl
  · obtain ⟨start, hstart⟩ := Option.isSome_iff_exists.mp (firstStart_isSome hnil)
    rw [if_neg hnil, hstart]
    rfl

/-- The value of a group is the trace of its spans. -/
theorem accumulate_addToTrace {id : String} {spans : List (ReportSpanV2 A)} (h : ∀ span ∈ spans, span.traceId = id) :
    OrderedMap.accumulate addToTrace none spans = if spans = [] then none else some (traceOf id spans) := by
  induction spans using List.reverseRecOn with
  | nil => rfl
  | append_singleton spans span ih =>
    have hne : spans ++ [span] ≠ [] := List.append_ne_nil_of_right_ne_nil _ (List.cons_ne_nil _ _)
    rw [OrderedMap.accumulate_append, ih fun s hs => h s (List.mem_append_left _ hs), if_neg hne,
      traceOf_append (h span (List.mem_append_right _ List.mem_cons_self))]

/-- The spans of a trace. -/
def spansOfTrace (spans : List (ReportSpanV2 A)) (id : String) : List (ReportSpanV2 A) :=
  spans.filter fun span => span.traceId = id

omit [Amount A] in
theorem traceId_of_mem {spans : List (ReportSpanV2 A)} {id : String} : ∀ span ∈ spansOfTrace spans id, span.traceId = id :=
  fun _ h => of_decide_eq_true (List.mem_filter.mp h).2

/-- The groups of the traces. -/
def traceGroups (spans : List (ReportSpanV2 A)) : OrderedMap String (TraceSummaryV1 A) :=
  .group (·.traceId) addToTrace .empty spans

theorem mem_traceGroups {spans : List (ReportSpanV2 A)} {e : String × TraceSummaryV1 A}
    (h : e ∈ (traceGroups spans).entries) : spansOfTrace spans e.1 ≠ [] ∧ e.2 = traceOf e.1 (spansOfTrace spans e.1) := by
  have hget : (traceGroups spans).get? e.1 = some e.2 := OrderedMap.get?_eq_some.mpr h
  have hgroup : (traceGroups spans).get? e.1 = OrderedMap.accumulate addToTrace none (spansOfTrace spans e.1) :=
    OrderedMap.get?_group
  rw [hgroup, accumulate_addToTrace traceId_of_mem] at hget
  by_cases hnil : spansOfTrace spans e.1 = []
  · rw [if_pos hnil] at hget
    cases hget
  · rw [if_neg hnil] at hget
    exact ⟨hnil, (Option.some.inj hget).symm⟩

omit [Amount A] in
/-- What some of the spans before one add up to, with what it adds, is at most the total. -/
theorem sum_before_le {measure : ReportSpanV2 A → ℕ} {spans before after : List (ReportSpanV2 A)} {span : ReportSpanV2 A}
    {keep : ReportSpanV2 A → Bool} (hsplit : spans = before ++ span :: after) :
    ((before.filter keep ++ [span]).map measure).sum ≤ (spans.map measure).sum := by
  have hsublist : (before.filter keep ++ [span]).Sublist spans := by
    rw [hsplit]
    exact (List.filter_sublist).append (List.singleton_sublist.mpr List.mem_cons_self)
  exact (hsublist.map measure).sum_le_sum fun _ _ => Nat.zero_le _

omit [Amount A] in
theorem sum_exactU64_le (spans : List (ReportSpanV2 A)) (get : ReportMetricsV1 → Option ℕ) :
    (spans.map fun span => exactU64 ((get span.metrics).getD 0)).sum ≤ metricSum spans get :=
  List.sum_le_sum fun _ _ => exactU64_le _

omit [Amount A] in
theorem sum_errorCount (spans : List (ReportSpanV2 A)) :
    (spans.map errorCount).sum = spans.countP fun span => span.status = .error := by
  induction spans with
  | nil => rfl
  | cons span spans ih =>
    rw [List.map_cons, List.sum_cons, ih, List.countP_cons, Nat.add_comm]
    by_cases h : span.status = .error
    · simp [errorCount, h]
    · simp [errorCount, h]

/-- **No addition overflows**, where the tokens are summable: the groups are those of plain additions. -/
theorem groupM_addToTrace {spans : List (ReportSpanV2 A)} (hlength : spans.length < 2 ^ 64)
    (hinput : metricSum spans (·.inputTokens) < 2 ^ 64) (houtput : metricSum spans (·.outputTokens) < 2 ^ 64) :
    OrderedMap.groupM (·.traceId) addToTrace? .empty spans = some (traceGroups spans) := by
  apply OrderedMap.groupM_eq_some
  intro before span after hsplit
  have hgroup : addToTrace (OrderedMap.accumulate addToTrace none (before.filter (·.traceId = span.traceId))) span =
      traceOf span.traceId (spansOfTrace before span.traceId ++ [span]) := by
    rw [traceOf_append rfl]
    exact congrArg (addToTrace · span) (accumulate_addToTrace traceId_of_mem)
  have hcount : ∀ measure : ReportSpanV2 A → ℕ,
      ((spansOfTrace before span.traceId ++ [span]).map measure).sum ≤ (spans.map measure).sum :=
    fun measure => sum_before_le hsplit
  apply addToTrace?_eq_some
  · rw [hgroup]
    have hone := hcount fun _ => 1
    simp only [List.map_const', List.sum_replicate_nat, mul_one] at hone
    exact lt_of_le_of_lt hone hlength
  · rw [hgroup]
    refine lt_of_le_of_lt ((hcount errorCount).trans ?_) hlength
    rw [sum_errorCount]
    exact List.countP_le_length
  · rw [hgroup]
    exact lt_of_le_of_lt ((hcount inputCount).trans (sum_exactU64_le spans _)) hinput
  · rw [hgroup]
    exact lt_of_le_of_lt ((hcount outputCount).trans (sum_exactU64_le spans _)) houtput

/-- The traces before they are sorted. -/
def finishedTraces (spans : List (ReportSpanV2 A)) : List (TraceSummaryV1 A) :=
  (traceGroups spans).entries.map fun e => e.2.finish ((traceRepositories spans).get? e.2.traceId)

theorem traceSummaries_eq_some {spans : List (ReportSpanV2 A)} (hlength : spans.length < 2 ^ 64)
    (hinput : metricSum spans (·.inputTokens) < 2 ^ 64) (houtput : metricSum spans (·.outputTokens) < 2 ^ 64) :
    traceSummaries spans = some (sortByKey TraceSummaryV1.key (finishedTraces spans)) := by
  unfold traceSummaries
  rw [groupM_addToTrace hlength hinput houtput]
  rfl

/-- What the traces add up to. -/
theorem sum_finishedTraces {spans : List (ReportSpanV2 A)} {count : TraceSummaryV1 A → ℕ} {measure : ReportSpanV2 A → ℕ}
    (h : ∀ id spans repositories, count ((traceOf id spans).finish repositories) = (spans.map measure).sum) :
    ((sortByKey TraceSummaryV1.key (finishedTraces spans)).map count).sum = (spans.map measure).sum := by
  have hcount : ∀ e ∈ (traceGroups spans).entries,
      (count ∘ fun e => e.2.finish ((traceRepositories spans).get? e.2.traceId)) e =
        ((spans.filter fun span => span.traceId = e.1).map measure).sum := by
    intro e he
    show count (e.2.finish _) = _
    rw [(mem_traceGroups he).2, h]
    rfl
  rw [(sortByKey_perm.map count).sum_eq, finishedTraces, List.map_map, List.map_congr_left hcount]
  exact OrderedMap.sum_group measure

theorem traceIds_finishedTraces (spans : List (ReportSpanV2 A)) :
    (finishedTraces spans).map (·.traceId) = (traceGroups spans).entries.map (·.1) := by
  rw [finishedTraces, List.map_map]
  apply List.map_congr_left
  intro e he
  show e.2.traceId = e.1
  rw [(mem_traceGroups he).2]
  rfl

theorem nodup_traceIds (spans : List (ReportSpanV2 A)) : ((finishedTraces spans).map (·.traceId)).Nodup := by
  rw [traceIds_finishedTraces]
  exact OrderedMap.nodup_keys _

/-- Every span is in one trace. -/
theorem count_traceId {spans : List (ReportSpanV2 A)} {span : ReportSpanV2 A} (h : span ∈ spans) :
    ((sortByKey TraceSummaryV1.key (finishedTraces spans)).map (·.traceId)).count span.traceId = 1 := by
  have hkeys : ∃ e ∈ (traceGroups spans).entries, e.1 = span.traceId := OrderedMap.mem_keys_group.mpr ⟨span, h, rfl⟩
  have hmem : span.traceId ∈ (finishedTraces spans).map (·.traceId) := by
    obtain ⟨e, he, hid⟩ := hkeys
    rw [traceIds_finishedTraces]
    exact List.mem_map.mpr ⟨e, he, hid⟩
  rw [(sortByKey_perm.map _).count_eq]
  exact List.count_eq_one_of_mem (nodup_traceIds spans) hmem

/-! ### The order of the spans -/

variable {spans spans' : List (ReportSpanV2 A)}

omit [Amount A] in
theorem metricSum_perm (h : spans.Perm spans') (get : ReportMetricsV1 → Option ℕ) :
    metricSum spans get = metricSum spans' get := (h.map _).sum_eq

omit [Amount A] in
theorem Summable.perm {get : ReportMetricsV1 → Option ℕ} (hsum : Summable spans get) (h : spans.Perm spans') :
    Summable spans' get :=
  ⟨fun span hspan => hsum.1 span (h.mem_iff.mpr hspan), metricSum_perm h get ▸ hsum.2⟩

/-- The integers of a total. -/
def ReportSummaryV1.counts (summary : ReportSummaryV1 A) : ReportSummaryV1 Unit := { summary with estimatedCost := () }

/-- The integers, the times and the texts of a trace. -/
def TraceSummaryV1.counts (trace : TraceSummaryV1 A) : TraceSummaryV1 Unit := { trace with estimatedCost := () }

theorem directSummary_perm (h : spans.Perm spans') : (directSummary spans).counts = (directSummary spans').counts := by
  unfold directSummary ReportSummaryV1.counts countKind
  simp only [metricSum_perm h, h.countP_eq, h.length_eq]

omit [Amount A] in
theorem sortDedup_perm {values values' : List String} (h : values.Perm values') : sortDedup values = sortDedup values' := by
  have hsorted : ∀ l : List String, (l.insertionSort fun a b => a ≤ b).Pairwise fun a b => a ≤ b :=
    List.pairwise_insertionSort _
  have hperm : (values.insertionSort fun a b => a ≤ b).Perm (values'.insertionSort fun a b => a ≤ b) :=
    (List.perm_insertionSort _ _).trans (h.trans (List.perm_insertionSort _ _).symm)
  unfold sortDedup
  rw [hperm.eq_of_pairwise (fun a b _ _ => le_antisymm) (hsorted values) (hsorted values')]

omit [Amount A] in
theorem firstStart_perm (h : spans.Perm spans') : firstStart spans = firstStart spans' := (h.map _).foldl_op_eq

omit [Amount A] in
theorem lastEnd_perm (h : spans.Perm spans') : lastEnd spans = lastEnd spans' := (h.map _).foldl_op_eq

theorem traceOf_perm (h : spans.Perm spans') (id : String) (repositories : Option (OrderedMap String Unit)) :
    ((traceOf id spans).finish repositories).counts = ((traceOf id spans').finish repositories).counts := by
  unfold traceOf TraceSummaryV1.finish TraceSummaryV1.counts
  simp only [h.length_eq, (h.map errorCount).sum_eq, (h.map inputCount).sum_eq, (h.map outputCount).sum_eq,
    firstStart_perm h, lastEnd_perm h, sortDedup_perm (h.filterMap _)]

omit [Amount A] in
/-- The repositories of a trace, as a set. -/
theorem accumulate_addRepository (start : OrderedMap String Unit) (spans : List (ReportSpanV2 A)) :
    OrderedMap.accumulate addRepository (some start) spans =
      some (OrderedMap.group (·.repo) (fun _ _ => ()) start spans) := by
  induction spans generalizing start with
  | nil => rfl
  | cons span spans ih => exact ih (start.insert span.repo ())

omit [Amount A] in
theorem accumulate_addRepository_none (spans : List (ReportSpanV2 A)) :
    OrderedMap.accumulate addRepository none spans =
      if spans = [] then none else some (OrderedMap.group (·.repo) (fun _ _ => ()) .empty spans) := by
  cases spans with
  | nil => rfl
  | cons span spans =>
    rw [if_neg (List.cons_ne_nil _ _)]
    exact accumulate_addRepository _ spans

omit [Amount A] in
theorem traceRepositories_perm (h : spans.Perm spans') (id : String) :
    (traceRepositories spans).get? id = (traceRepositories spans').get? id := by
  have hperm := (h.filter fun span => span.repo ≠ "unknown").filter fun span => span.traceId = id
  have hget : ∀ l : List (ReportSpanV2 A), (traceRepositories l).get? id = OrderedMap.accumulate addRepository none
      ((l.filter fun span => span.repo ≠ "unknown").filter fun span => span.traceId = id) :=
    fun l => OrderedMap.get?_group
  rw [hget, hget, accumulate_addRepository_none, accumulate_addRepository_none]
  have hset : ∀ l l' : List (ReportSpanV2 A), l.Perm l' →
      OrderedMap.group (·.repo) (fun _ _ => ()) .empty l = OrderedMap.group (·.repo) (fun _ _ => ()) .empty l' :=
    fun l l' hperm => OrderedMap.group_unit_eq fun k => ⟨fun ⟨x, hx, hk⟩ => ⟨x, hperm.mem_iff.mp hx, hk⟩, fun ⟨x, hx, hk⟩ => ⟨x, hperm.mem_iff.mpr hx, hk⟩⟩
  rw [hset _ _ hperm]
  simp only [← List.length_eq_zero_iff, hperm.length_eq]

/-- The trace of an identifier, directly from all spans. -/
def traceOfId (spans : List (ReportSpanV2 A)) (id : String) : TraceSummaryV1 A :=
  (traceOf id (spansOfTrace spans id)).finish ((traceRepositories spans).get? id)

theorem finishedTraces_eq (spans : List (ReportSpanV2 A)) :
    finishedTraces spans = ((traceGroups spans).entries.map (·.1)).map (traceOfId spans) := by
  rw [finishedTraces, List.map_map]
  apply List.map_congr_left
  intro e he
  show e.2.finish ((traceRepositories spans).get? e.2.traceId) = traceOfId spans e.1
  rw [(mem_traceGroups he).2]
  rfl

theorem mem_finishedTraces {trace : TraceSummaryV1 A} :
    trace ∈ finishedTraces spans ↔ ∃ span ∈ spans, traceOfId spans span.traceId = trace := by
  have hkeys : ∀ id, id ∈ (traceGroups spans).entries.map (·.1) ↔ ∃ span ∈ spans, span.traceId = id := by
    intro id
    rw [List.mem_map]
    exact OrderedMap.mem_keys_group
  rw [finishedTraces_eq, List.mem_map]
  constructor
  · rintro ⟨id, hid, rfl⟩
    obtain ⟨span, hspan, rfl⟩ := (hkeys id).mp hid
    exact ⟨span, hspan, rfl⟩
  · rintro ⟨span, hspan, rfl⟩
    exact ⟨span.traceId, (hkeys _).mpr ⟨span, hspan, rfl⟩, rfl⟩

theorem traceOfId_perm (h : spans.Perm spans') (id : String) :
    (traceOfId spans id).counts = (traceOfId spans' id).counts := by
  unfold traceOfId
  rw [traceRepositories_perm h]
  exact traceOf_perm (h.filter _) id _

omit [Amount A] in
@[simp] theorem TraceSummaryV1.key_counts (trace : TraceSummaryV1 A) : trace.counts.key = trace.key := rfl

/-- The traces are in the strict order of their keys. -/
theorem sorted_counts (spans : List (ReportSpanV2 A)) :
    ((sortByKey TraceSummaryV1.key (finishedTraces spans)).map TraceSummaryV1.counts).Pairwise fun a b => a.key < b.key := by
  have hids : ((finishedTraces spans).map TraceSummaryV1.key).Nodup := by
    refine List.Nodup.of_map (fun key : ℕ ×ₗ String => (ofLex key).2) ?_
    rw [List.map_map]
    exact nodup_traceIds spans
  exact List.pairwise_map.mpr (sortByKey_strict hids)

/-- **The traces do not depend on the order of the spans.** -/
theorem traces_perm (h : spans.Perm spans') :
    (sortByKey TraceSummaryV1.key (finishedTraces spans)).map TraceSummaryV1.counts =
      (sortByKey TraceSummaryV1.key (finishedTraces spans')).map TraceSummaryV1.counts := by
  have hmem : ∀ l l' : List (ReportSpanV2 A), l.Perm l' → ∀ trace,
      trace ∈ (sortByKey TraceSummaryV1.key (finishedTraces l)).map TraceSummaryV1.counts →
      trace ∈ (sortByKey TraceSummaryV1.key (finishedTraces l')).map TraceSummaryV1.counts := by
    intro l l' hperm trace htrace
    obtain ⟨t, ht, rfl⟩ := List.mem_map.mp htrace
    obtain ⟨span, hspan, rfl⟩ := mem_finishedTraces.mp (mem_sortByKey.mp ht)
    refine List.mem_map.mpr ⟨traceOfId l' span.traceId, mem_sortByKey.mpr ?_, (traceOfId_perm hperm _).symm⟩
    exact mem_finishedTraces.mpr ⟨span, hperm.mem_iff.mp hspan, rfl⟩
  exact eq_of_strict (sorted_counts spans) (sorted_counts spans') fun trace =>
    ⟨hmem _ _ h trace, hmem _ _ h.symm trace⟩

/-! ### Filters -/

omit [Amount A] in
theorem uniqueSorted_perm {values values' : List String} (h : values.Perm values') :
    uniqueSorted values = uniqueSorted values' := by
  unfold uniqueSorted
  rw [OrderedMap.group_unit_eq fun k => ⟨fun ⟨x, hx, hk⟩ => ⟨x, h.mem_iff.mp hx, hk⟩,
    fun ⟨x, hx, hk⟩ => ⟨x, h.mem_iff.mpr hx, hk⟩⟩]

omit [Amount A] in
theorem reportFilters_perm (h : spans.Perm spans') : reportFilters spans = reportFilters spans' := by
  unfold reportFilters
  rw [uniqueSorted_perm (h.map _), uniqueSorted_perm (h.filterMap _), uniqueSorted_perm (h.filterMap _),
    uniqueSorted_perm (h.map _), uniqueSorted_perm (h.map _)]

/-- The list has exactly these values, each once, in order. -/
def SortedSetOf (list values : List String) : Prop :=
  list.Pairwise (· < ·) ∧ ∀ value, value ∈ list ↔ value ∈ values

omit [Amount A] in
theorem sortedSetOf_uniqueSorted (values : List String) : SortedSetOf (uniqueSorted values) values := by
  refine ⟨List.pairwise_map.mpr (OrderedMap.sorted _), fun value => ?_⟩
  unfold uniqueSorted
  rw [List.mem_map]
  refine OrderedMap.mem_keys_group.trans ?_
  simp

/-! ### Conservation -/

/-- The traces have what the totals have. -/
structure Conserves (spans : List (ReportSpanV2 A)) (summary : ReportSummaryV1 A) (traces : List (TraceSummaryV1 A)) :
    Prop where
  /-- The spans add up. -/
  generatedSpans : (traces.map (·.spans)).sum = summary.generatedSpans
  /-- The errors add up. -/
  errors : (traces.map (·.errors)).sum = summary.errors
  /-- The input tokens add up. -/
  inputTokens : (traces.map (·.inputTokens)).sum = summary.inputTokens
  /-- The output tokens add up. -/
  outputTokens : (traces.map (·.outputTokens)).sum = summary.outputTokens
  /-- Every span is in one trace. -/
  partitioned : ∀ span ∈ spans, (traces.map (·.traceId)).count span.traceId = 1

/-- The filters are the values of the spans. -/
structure ReportFiltersV1.Exact (filters : ReportFiltersV1) (spans : List (ReportSpanV2 A)) : Prop where
  /-- Repositories. -/
  repos : SortedSetOf filters.repos (spans.map (·.repo))
  /-- Sessions. -/
  sessions : SortedSetOf filters.sessions (spans.filterMap (·.sessionId))
  /-- Turns. -/
  turns : SortedSetOf filters.turns (spans.filterMap (·.turnId))
  /-- Agents. -/
  agents : SortedSetOf filters.agents (spans.map fun span => span.agent.name.getD "unknown")
  /-- Models. -/
  models : SortedSetOf filters.models (spans.map fun span => span.agent.model.getD "unknown")

omit [Amount A] in
theorem exact_reportFilters (spans : List (ReportSpanV2 A)) : (reportFilters spans).Exact spans where
  repos := sortedSetOf_uniqueSorted _
  sessions := sortedSetOf_uniqueSorted _
  turns := sortedSetOf_uniqueSorted _
  agents := sortedSetOf_uniqueSorted _
  models := sortedSetOf_uniqueSorted _

omit [Amount A] in
/-- Exact values are added up as they are. -/
theorem sum_exactU64 {get : ReportMetricsV1 → Option ℕ} (h : Summable spans get) :
    (spans.map fun span => exactU64 ((get span.metrics).getD 0)).sum = metricSum spans get := by
  unfold metricSum
  congr 1
  apply List.map_congr_left
  intro span hspan
  cases hget : get span.metrics with
  | none => rfl
  | some value => exact exactU64_of_le (h.1 span hspan value hget)

theorem conserves (hinput : Summable spans (·.inputTokens)) (houtput : Summable spans (·.outputTokens)) :
    Conserves spans (directSummary spans) (sortByKey TraceSummaryV1.key (finishedTraces spans)) where
  generatedSpans := by
    rw [@sum_finishedTraces _ _ _ _ (fun _ => 1) fun id spans repositories => ?_]
    · simp only [List.map_const', List.sum_replicate_nat, mul_one]
      rfl
    · simp only [List.map_const', List.sum_replicate_nat, mul_one]
      rfl
  errors := (sum_finishedTraces fun _ _ _ => rfl).trans (sum_errorCount spans)
  inputTokens := (sum_finishedTraces fun _ _ _ => rfl).trans (sum_exactU64 hinput)
  outputTokens := (sum_finishedTraces fun _ _ _ => rfl).trans (sum_exactU64 houtput)
  partitioned _ := count_traceId

/-- **The summary conserves counts.** Where a report has totals, no addition for a trace overflows; the spans, errors
and tokens of the traces add up to the totals; every span is in one trace; the filters are the sorted values; and
nothing of this depends on the order of the spans. The number of spans is a `usize`. -/
theorem summarizeReport_conserves (hlength : spans.length < 2 ^ 64) {summary : ReportSummaryV1 A}
    (h : summarizeReport spans = .ok summary) :
    ∃ traces, traceSummaries spans = some traces ∧ Conserves spans summary traces ∧ (reportFilters spans).Exact spans ∧
      ∀ spans' : List (ReportSpanV2 A), spans.Perm spans' → ∃ summary' traces',
        summarizeReport spans' = .ok summary' ∧ traceSummaries spans' = some traces' ∧
        summary'.counts = summary.counts ∧ traces'.map TraceSummaryV1.counts = traces.map TraceSummaryV1.counts ∧
        reportFilters spans' = reportFilters spans := by
  obtain ⟨hsummable, rfl⟩ := summarizeReport_eq_ok.mp h
  have hinput : ∀ l : List (ReportSpanV2 A), spans.Perm l → Summable l (·.inputTokens) :=
    fun l hperm => (hsummable _ (by simp [summedMetrics])).perm hperm
  have houtput : ∀ l : List (ReportSpanV2 A), spans.Perm l → Summable l (·.outputTokens) :=
    fun l hperm => (hsummable _ (by simp [summedMetrics])).perm hperm
  have htraces : ∀ l : List (ReportSpanV2 A), spans.Perm l →
      traceSummaries l = some (sortByKey TraceSummaryV1.key (finishedTraces l)) :=
    fun l hperm => traceSummaries_eq_some (hperm.length_eq ▸ hlength) (hinput l hperm).2 (houtput l hperm).2
  refine ⟨_, htraces spans (.refl _), conserves (hinput _ (.refl _)) (houtput _ (.refl _)), exact_reportFilters spans,
    fun spans' hperm => ⟨directSummary spans', _, ?_, htraces spans' hperm, (directSummary_perm hperm).symm,
      (traces_perm hperm).symm, (reportFilters_perm hperm).symm⟩⟩
  exact summarizeReport_eq_ok.mpr ⟨fun get hget => (hsummable get hget).perm hperm, rfl⟩

end Traces

/-- A turn of a trace, with input tokens. -/
def turnOfTrace (traceId : String) (inputTokens : Option ℕ) : ReportSpanV2 (Option ℕ) :=
  { @reportSpan _ overflowAmount ⟨Sha256.hexDigest⟩ (turnWithIds traceId "span") none with
    traceId := traceId
    metrics := { inputTokens := inputTokens } }

theorem summarizeReport_conserves_turns :
    let spans := [turnOfTrace "b" (some 3), turnOfTrace "a" none, turnOfTrace "b" (some 5)]
    ∃ traces, @traceSummaries _ overflowAmount spans = some traces ∧ (traces.map (·.spans)).sum = 3 ∧
      (traces.map (·.inputTokens)).sum = 8 := by
  intro spans
  have hspans : @summarizeReport _ overflowAmount spans = .ok (@directSummary _ overflowAmount spans) := rfl
  obtain ⟨traces, htraces, hconserves, -⟩ := @summarizeReport_conserves _ overflowAmount spans (by decide) _ hspans
  exact ⟨traces, htraces, hconserves.generatedSpans, hconserves.inputTokens⟩

end AgentObservability.Report
