import AgentObservability.Dashboard.Scan

/-!
# The summary of the dashboard

`DashboardSummaryAccumulator` adds up the spans of a view, one after the other,
and `advance_summary` is one request of the chain that makes a summary: slices of
spans, then of sessions, then of turns. `validate_kpis` is the contract of the
result.
-/

namespace AgentObservability.Dashboard

open Domain Contracts Foundation Report

/-- `SummaryCapacityExceeded`. -/
inductive SummaryCapacityExceeded where
  /-- The one value. -/
  | mk
  deriving DecidableEq

/-- `increment`. -/
def increment (value amount : ℕ) : Except SummaryCapacityExceeded ℕ := do
  require (value + amount ≤ dashboardSafeIntegerMax) .mk
  pure (value + amount)

/-- `token_integer`. -/
def tokenInteger (value : ℕ) : Except SummaryCapacityExceeded ℕ := do
  require (value ≤ dashboardSafeIntegerMax) .mk
  pure value

/-- The sum of two values, if both are there. -/
def zipSum : Option ℕ → Option ℕ → Option ℕ
  | some a, some b => some (a + b)
  | _, _ => none

/-- `dashboard_token_total`. -/
def dashboardTokenTotal (m : ReportMetricsV1) : Option ℕ :=
  (zipSum m.inputTokens m.outputTokens).or
    (m.totalTokens.or ((zipSum m.totalInputTokens m.totalOutputTokens).or m.totalAccumulatedTokens))

/-- `DashboardTokenStatusV1`. -/
inductive DashboardTokenStatusV1 where
  /-- `complete`. -/
  | complete
  /-- `incomplete`. -/
  | incomplete
  /-- `unavailable`. -/
  | unavailable
  deriving DecidableEq

/-- `DashboardCostStatusV1`. -/
inductive DashboardCostStatusV1 where
  /-- `estimated`. -/
  | estimated
  /-- `incomplete`. -/
  | incomplete
  /-- `unknown`. -/
  | unknown
  deriving DecidableEq

/-- `DashboardKpisV1`. -/
structure DashboardKpisV1 (A : Type) where
  /-- `sessions`. -/
  sessions : ℕ
  /-- `turns`. -/
  turns : ℕ
  /-- `llm`. -/
  llm : ℕ
  /-- `tools`. -/
  tools : ℕ
  /-- `errors`. -/
  errors : ℕ
  /-- `input_tokens`. -/
  inputTokens : Option ℕ
  /-- `output_tokens`. -/
  outputTokens : Option ℕ
  /-- `total_tokens`. -/
  totalTokens : Option ℕ
  /-- `token_status`. -/
  tokenStatus : DashboardTokenStatusV1
  /-- `estimated_cost`. -/
  estimatedCost : Option A
  /-- `cost_status`. -/
  costStatus : DashboardCostStatusV1
  /-- `currency`. -/
  currency : Option String

variable {A : Type}

/-- `DashboardSummaryAccumulator`. -/
structure DashboardSummaryAccumulator (A : Type) where
  /-- `llm`. -/
  llm : ℕ := 0
  /-- `tools`. -/
  tools : ℕ := 0
  /-- `errors`. -/
  errors : ℕ := 0
  /-- `input`. -/
  input : ℕ := 0
  /-- `output`. -/
  output : ℕ := 0
  /-- `incomplete_input`. -/
  incompleteInput : Bool := false
  /-- `incomplete_output`. -/
  incompleteOutput : Bool := false
  /-- `tokens`. -/
  tokens : ℕ := 0
  /-- `complete_tokens`. -/
  completeTokens : Bool := false
  /-- `incomplete_tokens`. -/
  incompleteTokens : Bool := false
  /-- `estimated`. -/
  estimated : Bool := false
  /-- `incomplete_cost`. -/
  incompleteCost : Bool := false
  /-- `unknown_cost`. -/
  unknownCost : Bool := false
  /-- `cost`. -/
  cost : A
  /-- `currency`. -/
  currency : Option String := none
  /-- `mixed_currency`. -/
  mixedCurrency : Bool := false

namespace DashboardSummaryAccumulator

/-- A count goes up by one in a case. -/
def countIf (counts : Bool) (value : ℕ) : Except SummaryCapacityExceeded ℕ :=
  if counts then increment value 1 else pure value

/-- `accumulate_component`. -/
def accumulateComponent (sum : ℕ) (incomplete : Bool) : Option ℕ → Except SummaryCapacityExceeded (ℕ × Bool)
  | some value => do
    let value ← tokenInteger value
    let sum ← increment sum value
    pure (sum, incomplete)
  | none => pure (sum, true)

/-- The first part of `push_checked`: kinds and errors. -/
def pushCounts (acc : DashboardSummaryAccumulator A) (span : ReportSpanV2 A) :
    Except SummaryCapacityExceeded (DashboardSummaryAccumulator A) := do
  let llm ← countIf (span.kind = .llmRequest) acc.llm
  let tools ← countIf (span.kind = .toolExecution) acc.tools
  let errors ← countIf (span.status = .error) acc.errors
  pure { acc with llm, tools, errors }

/-- The second part: the components of the tokens. -/
def pushComponents (acc : DashboardSummaryAccumulator A) (span : ReportSpanV2 A) :
    Except SummaryCapacityExceeded (DashboardSummaryAccumulator A) :=
  if span.availability.tokens.state ≠ .notApplicable then do
    let input ← accumulateComponent acc.input acc.incompleteInput span.metrics.inputTokens
    let output ← accumulateComponent acc.output acc.incompleteOutput span.metrics.outputTokens
    pure { acc with input := input.1, incompleteInput := input.2, output := output.1, incompleteOutput := output.2 }
  else pure acc

/-- The third part: the total of the tokens. -/
def pushTotal (acc : DashboardSummaryAccumulator A) (span : ReportSpanV2 A) :
    Except SummaryCapacityExceeded (DashboardSummaryAccumulator A) :=
  match (dashboardTokenTotal span.metrics).filter fun _ => span.availability.tokens.state = .available with
  | some total => do
    let total ← tokenInteger total
    let tokens ← increment acc.tokens total
    pure { acc with tokens, completeTokens := true }
  | none =>
    pure (if span.availability.tokens.state ≠ .notApplicable then { acc with incompleteTokens := true } else acc)

/-- The tokens of the span are billed: `billable`. -/
def billable (span : ReportSpanV2 A) : Bool :=
  (dashboardTokenTotal span.metrics).isSome || span.metrics.cachedInputTokens.isSome ||
    span.metrics.cacheCreationInputTokens.isSome || span.metrics.reasoningOutputTokens.isSome

/-- The fourth part: the status of the cost. -/
def pushCostStatus (acc : DashboardSummaryAccumulator A) (span : ReportSpanV2 A) : DashboardSummaryAccumulator A :=
  if billable span then
    if span.cost.status = "estimated" then { acc with estimated := true }
    else if span.cost.status = "incomplete" then { acc with incompleteCost := true }
    else { acc with unknownCost := true }
  else acc

/-- A currency has three capital letters. -/
def validCurrency (currency : String) : Bool :=
  currency.utf8ByteSize = 3 ∧ currency.toList.all fun c => 'A' ≤ c ∧ c ≤ 'Z'

variable [Amount A]

/-- The last part: the cost. -/
def pushCost (acc : DashboardSummaryAccumulator A) (span : ReportSpanV2 A) :
    Except SummaryCapacityExceeded (DashboardSummaryAccumulator A) :=
  match span.estimatedCost with
  | none => pure acc
  | some cost => do
    require (Amount.isFinite cost = true ∧ Amount.nonneg cost = true) .mk
    let cost := Amount.add acc.cost cost
    require (Amount.isFinite cost = true ∧ Amount.withinMax cost = true) .mk
    match span.cost.currency with
    | none => pure { acc with cost, mixedCurrency := true }
    | some currency => do
      require (validCurrency currency = true) .mk
      match acc.currency with
      | none => pure { acc with cost, currency := some currency }
      | some previous => pure { acc with cost, mixedCurrency := acc.mixedCurrency || decide (previous ≠ currency) }

/-- `push_checked`. -/
def pushChecked (acc : DashboardSummaryAccumulator A) (span : ReportSpanV2 A) :
    Except SummaryCapacityExceeded (DashboardSummaryAccumulator A) := do
  let acc ← acc.pushCounts span
  let acc ← acc.pushComponents span
  let acc ← acc.pushTotal span
  (acc.pushCostStatus span).pushCost span

/-- `push`: the accumulator after it, and whether it was rejected. -/
def push (acc : DashboardSummaryAccumulator A) (span : ReportSpanV2 A) :
    DashboardSummaryAccumulator A × Except SummaryCapacityExceeded Unit :=
  match acc.pushChecked span with
  | .ok next => (next, .ok ())
  | .error e => (acc, .error e)

/-- `default`. -/
def new : DashboardSummaryAccumulator A where
  cost := Amount.zero

omit [Amount A] in
/-- The status of the tokens. -/
def tokenStatus (acc : DashboardSummaryAccumulator A) : DashboardTokenStatusV1 :=
  if acc.incompleteTokens then .incomplete else if acc.completeTokens then .complete else .unavailable

omit [Amount A] in
/-- The status of the cost. -/
def costStatus (acc : DashboardSummaryAccumulator A) : DashboardCostStatusV1 :=
  if !acc.estimated && !acc.incompleteCost then .unknown
  else if acc.incompleteCost || acc.unknownCost || acc.mixedCurrency then .incomplete
  else .estimated

omit [Amount A] in
/-- `finish`. -/
def finish (acc : DashboardSummaryAccumulator A) (sessions turns : ℕ) : Except SummaryCapacityExceeded (DashboardKpisV1 A) := do
  require (sessions ≤ dashboardSafeIntegerMax ∧ turns ≤ dashboardSafeIntegerMax) .mk
  let known : Bool := acc.costStatus ≠ .unknown ∧ acc.mixedCurrency = false
  pure
    { sessions, turns
      llm := acc.llm
      tools := acc.tools
      errors := acc.errors
      inputTokens := if acc.tokenStatus ≠ .unavailable ∧ acc.incompleteInput = false then some acc.input else none
      outputTokens := if acc.tokenStatus ≠ .unavailable ∧ acc.incompleteOutput = false then some acc.output else none
      totalTokens := if acc.tokenStatus = .complete then some acc.tokens else none
      tokenStatus := acc.tokenStatus
      estimatedCost := if known then some acc.cost else none
      costStatus := acc.costStatus
      currency := if known then acc.currency else none }

end DashboardSummaryAccumulator

/-! ### The contract -/

/-- `DashboardContractError`, as far as `validate_kpis` returns it. -/
inductive DashboardContractError where
  /-- `InvalidNumber`. -/
  | invalidNumber
  /-- `InvalidKpis`. -/
  | invalidKpis
  /-- `EmptyString`. -/
  | emptyString
  /-- `StringTooLong`. -/
  | stringTooLong
  deriving DecidableEq

/-- `validate_safe_count`. -/
def validateSafeCount (value : ℕ) : Except DashboardContractError Unit :=
  require (value ≤ dashboardSafeIntegerMax) .invalidNumber

/-- `validate_nonempty_bounded`. -/
def validateNonemptyBounded (value : String) (maxChars : ℕ) : Except DashboardContractError Unit := do
  require (value.length ≠ 0) .emptyString
  require (value.length ≤ maxChars) .stringTooLong

/-- The token counts agree with their status. -/
def validateTokenStatus (kpis : DashboardKpisV1 A) : Except DashboardContractError Unit :=
  match kpis.tokenStatus with
  | .complete => require (kpis.totalTokens.isSome = true) .invalidKpis
  | .incomplete => require (kpis.totalTokens = none) .invalidKpis
  | .unavailable =>
    require (kpis.inputTokens = none ∧ kpis.outputTokens = none ∧ kpis.totalTokens = none) .invalidKpis

variable [Amount A]

/-- `validate_estimated_cost`. -/
def validateEstimatedCost (value : Option A) : Except DashboardContractError Unit := do
  let value ← ofOption DashboardContractError.invalidKpis value
  require (Amount.isFinite value = true ∧ Amount.nonneg value = true ∧ Amount.withinMax value = true) .invalidNumber

/-- The cost agrees with its status. -/
def validateCostStatus (kpis : DashboardKpisV1 A) : Except DashboardContractError Unit :=
  match kpis.costStatus with
  | .estimated => do
    validateEstimatedCost kpis.estimatedCost
    let currency ← ofOption DashboardContractError.invalidKpis kpis.currency
    validateNonemptyBounded currency 16
  | .incomplete => do
    if kpis.estimatedCost.isSome then validateEstimatedCost kpis.estimatedCost
    kpis.currency.toList.forM fun currency => validateNonemptyBounded currency 16
  | .unknown => require (kpis.estimatedCost = none ∧ kpis.currency = none) .invalidKpis

/-- `validate_kpis`. -/
def validateKpis (kpis : DashboardKpisV1 A) : Except DashboardContractError Unit := do
  [kpis.sessions, kpis.turns, kpis.llm, kpis.tools, kpis.errors].forM validateSafeCount
  ([kpis.inputTokens, kpis.outputTokens, kpis.totalTokens].filterMap id).forM validateSafeCount
  validateTokenStatus kpis
  validateCostStatus kpis

/-! ### The chain of requests -/

/-- `SummaryProgress`. -/
inductive SummaryProgress (A : Type) where
  /-- `Spans`. -/
  | spans
  /-- `SpansAt`. -/
  | spansAt (kernel : ReportViewKernel) (cursor : SpanScanCursor) (accumulator : DashboardSummaryAccumulator A)
  /-- `Sessions`. -/
  | sessions (accumulator : DashboardSummaryAccumulator A) (cursor : IdentityScanCursor)
  /-- `Turns`. -/
  | turns (accumulator : DashboardSummaryAccumulator A) (sessions : ℕ) (cursor : IdentityScanCursor)

/-- `SummaryStep`. -/
inductive SummaryStep (A : Type) where
  /-- `Pending`. -/
  | pending (progress : SummaryProgress A)
  /-- `Complete`. -/
  | complete (kpis : DashboardKpisV1 A)

/-- `SummaryAdvanceError`. -/
inductive SummaryAdvanceError where
  /-- `Build`. -/
  | build (error : BuildError)
  /-- `Capacity`. -/
  | capacity
  deriving DecidableEq

/-- `From<ReportViewBuildError>`. -/
def orBuild {α : Type} (x : Except BuildError α) : Except SummaryAdvanceError α := x.mapError .build

/-- `From<SummaryCapacityExceeded>`. -/
def orCapacity {α : Type} (x : Except SummaryCapacityExceeded α) : Except SummaryAdvanceError α :=
  x.mapError fun _ => .capacity

/-- The spans of a slice, one after the other. -/
def pushAll (acc : DashboardSummaryAccumulator A) (spans : List (ReportSpanV2 A)) :
    Except SummaryCapacityExceeded (DashboardSummaryAccumulator A) :=
  spans.foldlM (fun acc span =>
    match acc.push span with
    | (next, .ok ()) => .ok next
    | (_, .error e) => .error e) acc

variable [Lowercase]

/-- `advance_summary_spans`. -/
def advanceSummarySpans (late : ℕ → Bool) (rows : List (ViewRow A)) (cursor : SpanScanCursor)
    (acc : DashboardSummaryAccumulator A) (kernel : ReportViewKernel) (filters : DashboardFiltersV1) :
    Except SummaryAdvanceError (SummaryStep A) := do
  let batch ← orBuild (scanSpans late rows cursor filters none 512)
  let acc ← orCapacity (pushAll acc batch.rows)
  pure (.pending
    (if batch.exhausted then .sessions acc { after := .new kernel } else .spansAt kernel batch.cursor acc))

/-- `advance_summary`. -/
def advanceSummary (late : ℕ → Bool) (rows : List (ViewRow A)) (progress : SummaryProgress A) (kernel : ReportViewKernel)
    (filters : DashboardFiltersV1) : Except SummaryAdvanceError (SummaryStep A) :=
  match progress with
  | .spans => advanceSummarySpans late rows {} .new kernel filters
  | .spansAt prior cursor acc => do
    require (prior = kernel) (SummaryAdvanceError.build .invalidStagingState)
    advanceSummarySpans late rows cursor acc kernel filters
  | .sessions acc cursor => do
    let scan ← orBuild (scanIdentities late rows .session kernel cursor filters)
    pure (.pending
      (if scan.exhausted then .turns acc scan.next.distinct { after := .new kernel } else .sessions acc scan.next))
  | .turns acc sessions cursor => do
    let scan ← orBuild (scanIdentities late rows .turn kernel cursor filters)
    if scan.exhausted then (orCapacity (acc.finish sessions scan.next.distinct)).map .complete
    else pure (.pending (.turns acc sessions scan.next))

/-- At most so many requests, one after the other, where every request has its number. `none` if it takes more. -/
def summarize (late : ℕ → ℕ → Bool) (rows : List (ViewRow A)) (kernel : ReportViewKernel) (filters : DashboardFiltersV1) :
    ℕ → ℕ → SummaryProgress A → Except SummaryAdvanceError (Option (DashboardKpisV1 A))
  | 0, _, _ => .ok none
  | requests + 1, n, progress => do
    match ← advanceSummary (late n) rows progress kernel filters with
    | .pending next => summarize late rows kernel filters requests (n + 1) next
    | .complete kpis => pure (some kpis)

end AgentObservability.Dashboard
