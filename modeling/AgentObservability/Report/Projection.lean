import AgentObservability.Contracts.Identifiers
import AgentObservability.Report.Pricing

/-!
# The projection of spans

`project_report_span`: a sanitized record as a report shows it, with what is said
of the availability of eight of its fields, and `resolve_report_repository`, which
fills in a repository from the other spans of the trace. `ReportSpanV1` is the
older contract, without availability.

## What is proved

`projection_consistent`: a projection is invalid only if a cost is not finite; a
valid span stays valid when its repository is resolved, and so does an older span
that is converted.
-/

namespace AgentObservability.Report

open Domain Contracts Foundation

variable {A : Type}

/-! ### Rate tables -/

/-- `PricingError`, as far as `normalize_rate_table` returns it. -/
inductive PricingError where
  /-- `UnsupportedUnit`. -/
  | unsupportedUnit
  /-- `InvalidRate`. -/
  | invalidRate (label : String)
  /-- `UnsupportedSemantic`. -/
  | unsupportedSemantic (key : String)
  deriving DecidableEq

/-- `ModelRatesInput`. -/
structure ModelRatesInput (A : Type) where
  /-- The rate of a metric. -/
  rate : TokenKey → Option A
  /-- `token_semantics`. -/
  tokenSemantics : OrderedMap String String

/-- `RateTableInput`. -/
structure RateTableInput (A : Type) where
  /-- `version`. -/
  version : Option String
  /-- `currency`. -/
  currency : Option String
  /-- `unit`. -/
  unit : Option String
  /-- `assumption`. -/
  assumption : Option String
  /-- `models`. -/
  models : OrderedMap String (ModelRatesInput A)

/-- The two texts of a meaning. -/
def semanticOf : String → Option TokenSemantics
  | "exclusive" => some .exclusive
  | "included_in_total" => some .includedInTotal
  | _ => none

/-- `OVERLAP_KEYS`. -/
def overlapKeys : List TokenKey := [.cachedInputTokens, .cacheCreationInputTokens, .reasoningOutputTokens]

/-- `normalize_semantics`. -/
def normalizeSemantics (input : OrderedMap String String) : Except PricingError (TokenKey → Option TokenSemantics) := do
  input.entries.forM fun entry =>
    require (entry.1 ∈ overlapKeys.map TokenKey.asStr ∧ (semanticOf entry.2).isSome) (.unsupportedSemantic entry.1)
  pure fun key => (input.get? key.asStr).bind semanticOf

/-- `nonempty_or`. -/
def nonemptyOr (value : Option String) (default : String) : String := (value.filter (· ≠ "")).getD default

/-- `DEFAULT_ASSUMPTION`. -/
def defaultAssumption : String := "Estimated from a local static rate table; not a billing statement."

section Normalize

variable [Amount A]

/-- `normalize_rate`. -/
def normalizeRate (rate : Option A) (label : String) : Except PricingError Unit :=
  require (rate.all fun value => Amount.isFinite value && Amount.nonneg value) (.invalidRate label)

/-- The rates of a model: the loop body of `normalize_rate_table`. -/
def normalizeModel (model : String) (rates : ModelRatesInput A) : Except PricingError (ModelRates A) := do
  tokenKeys.forM fun key => normalizeRate (rates.rate key) (model ++ "." ++ key.asStr)
  let tokenSemantics ← normalizeSemantics rates.tokenSemantics
  pure { rate := rates.rate, tokenSemantics }

/-- The loop of `normalize_rate_table`. -/
def normalizeModels (models : OrderedMap String (ModelRates A)) :
    List (String × ModelRatesInput A) → Except PricingError (OrderedMap String (ModelRates A))
  | [] => pure models
  | (model, rates) :: rest => do
    let rates ← normalizeModel model rates
    normalizeModels (models.insert model rates) rest

/-- `normalize_rate_table`. -/
def normalizeRateTable (input : RateTableInput A) : Except PricingError (RateTable A) := do
  require (input.unit.all (· = "per_1m_tokens")) .unsupportedUnit
  let models ← normalizeModels .empty input.models.entries
  pure
    { version := nonemptyOr input.version "unversioned"
      currency := nonemptyOr input.currency "USD"
      assumption := nonemptyOr input.assumption defaultAssumption
      models }

end Normalize

/-! ### The fields of a span -/

/-- `scalar_string`. -/
def scalarString : Option ScalarValueV1 → Option String
  | some (.string value) => if value = "" then none else some value
  | _ => none

section Fields

variable [Sha2]

/-- `hash_scalar_identifier`. -/
def hashScalarIdentifier : Option ScalarValueV1 → Option ScalarValueV1
  | some (.string value) => some (.string (hashOpaqueIdentifier value))
  | value => value

/-- `report_attributes`. -/
def reportAttributes (a : AttributesV1) : ReportAttributesV1 where
  source := a.source
  eventType := a.eventType
  envelopeType := a.envelopeType
  sessionId := hashScalarIdentifier a.sessionId
  turnId := hashScalarIdentifier a.turnId
  requestId := hashScalarIdentifier a.requestId
  callId := hashScalarIdentifier a.callId
  toolName := a.toolName
  phase := a.phase
  exitCode := a.exitCode
  sandbox := a.sandbox
  approval := a.approval

end Fields

/-- `report_metrics`. -/
def reportMetrics (m : MetricsV1) : ReportMetricsV1 where
  inputTokens := m.inputTokens
  outputTokens := m.outputTokens
  cachedInputTokens := m.cachedInputTokens
  cacheCreationInputTokens := m.cacheCreationInputTokens
  reasoningOutputTokens := m.reasoningOutputTokens
  totalTokens := m.totalTokens
  latencyMs := m.latencyMs
  durationMs := m.durationMs
  totalInputTokens := m.totalInputTokens
  totalOutputTokens := m.totalOutputTokens
  totalCachedInputTokens := m.totalCachedInputTokens
  totalReasoningOutputTokens := m.totalReasoningOutputTokens
  totalAccumulatedTokens := m.totalAccumulatedTokens
  contextWindowTokens := m.contextWindowTokens

/-- `span_name`. -/
def spanName (r : DurableRecordV1) (a : ReportAttributesV1) : String :=
  match r.spanKind with
  | .agentSession => r.agent.name.getD "Agent" ++ " session"
  | .turn => "Turn"
  | .llmRequest => r.agent.model.elim "LLM request" ("LLM " ++ ·)
  | .toolExecution => (scalarString a.toolName).getD "Tool execution"
  | .permission => "Permission"
  | .compaction => "Compaction"
  | .workstream => "Workstream"

/-- `repo_name`. -/
def repoName (r : DurableRecordV1) : String := (r.project.name.filter (· ≠ "")).getD "unknown"

/-! ### Availability -/

/-- `token_availability`. -/
def tokenAvailability (m : ReportMetricsV1) (kind : SpanKind) : FieldAvailabilityV2 :=
  if reportTokenTotalPresent m then ⟨.available, "reported_by_adapter"⟩
  else if reportTokenMetricsPresent m then ⟨.sourceUnavailable, "partial_token_metrics"⟩
  else if kind = .llmRequest then ⟨.sourceUnavailable, "source_not_provided"⟩
  else ⟨.notApplicable, "span_kind_has_no_token_usage"⟩

/-- `private_lookup_availability`. -/
def privateLookupAvailability (agentName : Option String) (a : ReportAttributesV1) (turnId : Option String)
    (kind : SpanKind) : FieldAvailabilityV2 :=
  let source := scalarString a.source
  if source = some "codex.notify_or_session_jsonl" then
    ⟨.sourceUnavailable, "historical_codex_source_not_lookup_eligible"⟩
  else
    match agentName with
    | some "claude-code" => ⟨.notApplicable, "claude_private_lookup_not_supported"⟩
    | some "cursor" => ⟨.notApplicable, "cursor_private_lookup_not_supported"⟩
    | some "codex" =>
      if source = some "codex" ∧ scalarString a.eventType = some "turn" ∧ kind = .turn then
        if turnId.isSome then ⟨.privateLookup, "local_opt_in_lookup_required"⟩
        else ⟨.sourceUnavailable, "codex_notify_turn_correlation_unavailable"⟩
      else ⟨.notApplicable, "codex_span_not_notify_derived"⟩
    | _ => ⟨.notApplicable, "agent_private_lookup_not_supported"⟩

/-- The availability of a value that the adapter reports, or that spans of some kinds have none of. -/
def reportedAvailability (isPresent isApplicable : Bool) (reason : String) : FieldAvailabilityV2 :=
  if isPresent then ⟨.available, "reported_by_adapter"⟩
  else if isApplicable then ⟨.sourceUnavailable, "source_not_provided"⟩
  else ⟨.notApplicable, reason⟩

/-- `report_availability`. -/
def reportAvailability (repo : String) (turnId model : Option String) (tokens : FieldAvailabilityV2)
    (latencyPresent : Bool) (kind : SpanKind) (privateDetail : FieldAvailabilityV2) : ReportAvailabilityV2 where
  repository :=
    if repo = "unknown" then ⟨.sourceUnavailable, "source_not_provided"⟩ else ⟨.available, "reported_by_adapter"⟩
  turn :=
    if turnId.isSome then ⟨.available, "reported_by_adapter"⟩ else ⟨.sourceUnavailable, "source_not_provided"⟩
  model := reportedAvailability model.isSome (kind = .llmRequest ∨ kind = .agentSession) "span_kind_not_model_backed"
  tokens := tokens
  latency := reportedAvailability latencyPresent (kind = .llmRequest ∨ kind = .toolExecution) "span_kind_has_no_latency"
  sourceLocation := privateDetail
  requestContent := privateDetail
  responseContent := privateDetail

variable [Amount A]

section Span

variable [Sha2]

/-- `report_span`. -/
def reportSpan (r : DurableRecordV1) (table : Option (RateTable A)) : ReportSpanV2 A :=
  let attributes := reportAttributes r.attributes
  let metrics := reportMetrics r.metrics
  let cost := estimateSpanCost r table
  let repo := repoName r
  let turnId := scalarString attributes.turnId
  { schemaVersion := r.schemaVersion
    traceId := hashOpaqueIdentifier r.traceId
    spanId := hashOpaqueIdentifier r.spanId
    parentSpanId := r.parentSpanId.map hashOpaqueIdentifier
    kind := r.spanKind
    name := spanName r attributes
    status := r.status
    startTimeUnixMs := r.startTimeUnixMs
    endTimeUnixMs := r.endTimeUnixMs
    repo
    agent := { name := r.agent.name, version := r.agent.version, model := r.agent.model }
    availability :=
      reportAvailability repo turnId r.agent.model (tokenAvailability metrics r.spanKind)
        (metrics.latencyMs.isSome || metrics.durationMs.isSome) r.spanKind
        (privateLookupAvailability r.agent.name attributes turnId r.spanKind)
    sessionId := scalarString attributes.sessionId
    turnId
    toolName := scalarString attributes.toolName
    attributes, metrics
    estimatedCost := cost.estimatedCost
    cost }

end Span

/-- The errors of `ReportSpanV2::validate`. -/
inductive ReportContractError where
  /-- `NonFiniteNumber`. -/
  | nonFiniteNumber
  /-- `ContradictoryReportAvailability`. -/
  | contradictoryReportAvailability
  /-- `InvalidCostStatus`. -/
  | invalidCostStatus
  deriving DecidableEq

/-- `validate_finite`. -/
def validateFinite (value : A) : Except ReportContractError Unit := require (Amount.isFinite value) .nonFiniteNumber

/-- `validate_cost`. -/
def CostEstimateV1.validate (cost : CostEstimateV1 A) : Except ReportContractError Unit := do
  require (cost.status = "estimated" ∨ cost.status = "incomplete" ∨ cost.status = "unknown") .invalidCostStatus
  cost.estimatedCost.toList.forM validateFinite
  cost.components.forM fun c => do
    validateFinite c.2.ratePer1m
    validateFinite c.2.estimatedCost

/-- `ReportSpanV2::validate`. The checks that numbers of the record are finite hold of the naturals. -/
def ReportSpanV2.validate (span : ReportSpanV2 A) : Except ReportContractError Unit := do
  require (tokenAvailabilityValid span.metrics span.availability.tokens) .contradictoryReportAvailability
  require (span.availability.fields.all validAvailabilityReason) .contradictoryReportAvailability
  span.estimatedCost.toList.forM validateFinite
  span.cost.validate

/-- `ReportProjectionError`. -/
inductive ReportProjectionError where
  /-- `InvalidRecord`. -/
  | invalidRecord (index : ℕ) (source : ContractError)
  /-- `InvalidReport`. -/
  | invalidReport (source : ReportContractError)
  /-- `InvalidSummaryMetric`: the value is too large, or the sum is. -/
  | invalidSummaryMetric (field : String) (value : Option ℕ)
  deriving DecidableEq

/-- `project_report_span`, which is also `project_owned_report_span`. -/
def projectReportSpan [Sha2] (index : ℕ) (r : DurableRecordV1) (table : Option (RateTable A)) :
    Except ReportProjectionError (ReportSpanV2 A) := do
  let r ← (sanitizeDurableRecord r).mapError (.invalidRecord index)
  let span := reportSpan r table
  span.validate.mapError .invalidReport
  pure span

omit [Amount A] in
/-- `resolve_report_repository`. -/
def resolveReportRepository (span : ReportSpanV2 A) (knownRepositories : List String) : ReportSpanV2 A :=
  if span.repo ≠ "unknown" then span
  else
    match knownRepositories.filter (· ≠ "unknown") with
    | [] => span
    | first :: repositories =>
      if repositories.any (· ≠ first) then
        { span with availability.repository := ⟨.sourceUnavailable, "ambiguous_trace_repository"⟩ }
      else
        { span with repo := first, availability.repository := ⟨.available, "derived_from_trace_context"⟩ }

/-! ### The older contract -/

/-- `ReportSpanV1`. -/
structure ReportSpanV1 (A : Type) where
  /-- `schema_version`. -/
  schemaVersion : String
  /-- `trace_id`. -/
  traceId : String
  /-- `span_id`. -/
  spanId : String
  /-- `parent_span_id`. -/
  parentSpanId : Option String
  /-- `kind`. -/
  kind : SpanKind
  /-- `name`. -/
  name : String
  /-- `status`. -/
  status : StatusCode
  /-- `start_time_unix_ms`. -/
  startTimeUnixMs : ℕ
  /-- `end_time_unix_ms`. -/
  endTimeUnixMs : Option ℕ
  /-- `repo`. -/
  repo : String
  /-- `agent`. -/
  agent : AgentV1
  /-- `session_id`. -/
  sessionId : Option String
  /-- `turn_id`. -/
  turnId : Option String
  /-- `tool_name`. -/
  toolName : Option String
  /-- `attributes`. -/
  attributes : ReportAttributesV1
  /-- `metrics`. -/
  metrics : ReportMetricsV1
  /-- `estimated_cost`. -/
  estimatedCost : Option A
  /-- `cost`. -/
  cost : CostEstimateV1 A

/-- What `ReportDtoV1::validate` checks of a span. -/
def ReportSpanV1.validate (span : ReportSpanV1 A) : Except ReportContractError Unit := do
  span.estimatedCost.toList.forM validateFinite
  span.cost.validate

/-- `ReportAvailabilityV2::legacy_v1`. -/
def ReportAvailabilityV2.legacyV1 (m : ReportMetricsV1) : ReportAvailabilityV2 :=
  let unavailable : FieldAvailabilityV2 := ⟨.sourceUnavailable, "legacy_v1_report"⟩
  { repository := unavailable
    turn := unavailable
    model := unavailable
    tokens :=
      { state := if reportTokenTotalPresent m then .available else .sourceUnavailable
        reason :=
          if reportTokenMetricsPresent m && !reportTokenTotalPresent m then "partial_token_metrics"
          else "legacy_v1_report" }
    latency := unavailable
    sourceLocation := unavailable
    requestContent := unavailable
    responseContent := unavailable }

omit [Amount A] in
/-- `From<ReportSpanV1>`. -/
def ReportSpanV2.ofV1 (legacy : ReportSpanV1 A) : ReportSpanV2 A :=
  { legacy with availability := .legacyV1 legacy.metrics }

/-! ### Costs -/

/-- The rates of the table are finite. -/
def RateTable.FiniteRates (table : RateTable A) : Prop :=
  ∀ entry ∈ table.models.entries, ∀ key, ∀ rate ∈ entry.2.rate key, Amount.isFinite rate = true

/-- The rates of a model that is accepted are finite. -/
theorem normalizeModel_finite {model : String} {input : ModelRatesInput A} {rates : ModelRates A}
    (h : normalizeModel model input = .ok rates) (key : TokenKey) : ∀ rate ∈ rates.rate key, Amount.isFinite rate = true := by
  obtain ⟨_, hrates, h⟩ := bind_eq_ok.mp h
  obtain ⟨semantics, _, h⟩ := bind_eq_ok.mp h
  cases h
  have hkey : key ∈ tokenKeys := by cases key <;> decide
  have hall := require_eq_ok.mp (forM_ok_iff.mp hrates key hkey)
  intro rate hrate
  have hsome : input.rate key = some rate := hrate
  rw [hsome] at hall
  exact (Bool.and_eq_true_iff.mp hall).1

theorem normalizeModels_finite {models models' : OrderedMap String (ModelRates A)} {entries : List (String × ModelRatesInput A)}
    (h : normalizeModels models entries = .ok models')
    (hmodels : ∀ entry ∈ models.entries, ∀ key, ∀ rate ∈ entry.2.rate key, Amount.isFinite rate = true) :
    ∀ entry ∈ models'.entries, ∀ key, ∀ rate ∈ entry.2.rate key, Amount.isFinite rate = true := by
  induction entries generalizing models with
  | nil =>
    cases h
    exact hmodels
  | cons input rest ih =>
    obtain ⟨rates, hrates, h⟩ := bind_eq_ok.mp h
    apply ih h
    intro entry hentry
    rcases OrderedMap.mem_insert.mp hentry with rfl | ⟨hmem, _⟩
    · exact normalizeModel_finite hrates
    · exact hmodels entry hmem

/-- A rate table that is accepted has finite rates. -/
theorem normalizeRateTable_finite {input : RateTableInput A} {table : RateTable A}
    (h : normalizeRateTable input = .ok table) : table.FiniteRates := by
  obtain ⟨_, _, h⟩ := bind_eq_ok.mp h
  obtain ⟨models, hmodels, h⟩ := bind_eq_ok.mp h
  cases h
  exact normalizeModels_finite hmodels nofun

/-- Every component has a rate of the model. -/
theorem priceToken_rate {values : TokenKey → Option ℕ} {rates : ModelRates A} {priced : Priced A} {key : TokenKey}
    (h : ∀ c ∈ priced.components, ∃ key, rates.rate key = some c.2.ratePer1m) :
    ∀ c ∈ (priceToken values rates priced key).components, ∃ key, rates.rate key = some c.2.ratePer1m := by
  unfold priceToken
  split
  · exact h
  · exact h
  · split
    · exact h
    · rename_i rate hrate
      intro c hc
      rcases List.mem_append.mp hc with hc | hc
      · exact h c hc
      · rw [List.mem_singleton.mp hc]
        exact ⟨key, hrate⟩

theorem foldl_priceToken_rate {values : TokenKey → Option ℕ} {rates : ModelRates A} {keys : List TokenKey} {priced : Priced A}
    (h : ∀ c ∈ priced.components, ∃ key, rates.rate key = some c.2.ratePer1m) :
    ∀ c ∈ (keys.foldl (priceToken values rates) priced).components, ∃ key, rates.rate key = some c.2.ratePer1m := by
  induction keys generalizing priced with
  | nil => exact h
  | cons key keys ih => exact ih (priceToken_rate h)

/-- The rates of an estimate are those of the table. -/
theorem estimateSpanCost_rates {r : DurableRecordV1} {table : Option (RateTable A)}
    (htable : ∀ t ∈ table, t.FiniteRates) :
    ∀ c ∈ (estimateSpanCost r table).components, Amount.isFinite c.2.ratePer1m = true := by
  unfold estimateSpanCost
  split
  · exact nofun
  · rename_i table
    split
    · exact nofun
    · rename_i model hmodel
      split
      · exact nofun
      · rename_i rates hrates
        simp only
        split
        · exact nofun
        · intro c hc
          obtain ⟨key, hkey⟩ := foldl_priceToken_rate (fun _ h => absurd h List.not_mem_nil) c ((List.mem_insertionSort _).mp hc)
          exact htable table rfl _ (OrderedMap.get?_eq_some.mp hrates) key _ hkey

/-! ### Validity -/

/-- Every amount that is derived for an estimate is finite. -/
def CostEstimateV1.Finite (cost : CostEstimateV1 A) : Prop :=
  (∀ amount ∈ cost.estimatedCost, Amount.isFinite amount = true) ∧
    ∀ c ∈ cost.components, Amount.isFinite c.2.estimatedCost = true

/-- The computation fails with this error only. -/
def FailsOnly {ε α : Type} (e : ε) (x : Except ε α) : Prop := ∀ e', x = .error e' → e' = e

theorem failsOnly_require {ε : Type} {c : Prop} [Decidable c] {e : ε} : FailsOnly e (require c e) := by
  intro e' h
  by_cases hc : c
  · rw [require_true hc] at h
    cases h
  · rw [require_false hc] at h
    cases h
    rfl

theorem FailsOnly.bind {ε α β : Type} {e : ε} {x : Except ε α} {f : α → Except ε β} (hx : FailsOnly e x)
    (hf : ∀ a, FailsOnly e (f a)) : FailsOnly e (x >>= f) := by
  intro e' h
  cases x with
  | error e₁ =>
    cases h
    exact hx _ rfl
  | ok a => exact hf a e' h

theorem failsOnly_forM {ε α : Type} {e : ε} {f : α → Except ε PUnit} (hf : ∀ a, FailsOnly e (f a)) (xs : List α) :
    FailsOnly e (xs.forM f) := by
  induction xs with
  | nil => exact nofun
  | cons x xs ih => exact (hf x).bind fun _ => ih

/-- An estimate with one of the three statuses fails for a number only. -/
theorem CostEstimateV1.validate_failsOnly {cost : CostEstimateV1 A}
    (h : cost.status = "estimated" ∨ cost.status = "incomplete" ∨ cost.status = "unknown") :
    FailsOnly .nonFiniteNumber cost.validate := by
  unfold CostEstimateV1.validate
  rw [require_true h, ok_bind]
  refine (failsOnly_forM (fun _ => failsOnly_require) _).bind fun _ => failsOnly_forM (fun c => ?_) _
  exact failsOnly_require.bind fun _ => failsOnly_require

theorem forM_validateFinite_ok_iff {value : Option A} :
    value.toList.forM validateFinite = .ok () ↔ ∀ amount ∈ value, Amount.isFinite amount = true := by
  rw [forM_ok_iff]
  simp [validateFinite]

/-- An estimate is valid where its status is one of the three and its numbers are finite. -/
theorem CostEstimateV1.validate_ok {cost : CostEstimateV1 A}
    (hstatus : cost.status = "estimated" ∨ cost.status = "incomplete" ∨ cost.status = "unknown")
    (hrates : ∀ c ∈ cost.components, Amount.isFinite c.2.ratePer1m = true) (h : cost.Finite) :
    cost.validate = .ok () := by
  have hcomponents : ∀ c ∈ cost.components,
      (validateFinite c.2.ratePer1m >>= fun _ => validateFinite c.2.estimatedCost) = .ok () := by
    intro c hc
    rw [validateFinite, require_true (hrates c hc), ok_bind, validateFinite, require_true (h.2 c hc)]
  unfold CostEstimateV1.validate
  rw [require_true hstatus, ok_bind, forM_validateFinite_ok_iff.mpr h.1, ok_bind]
  exact forM_ok_iff.mpr hcomponents

/-- The availability of a span does not contradict itself or the metrics. -/
def ReportSpanV2.Available (span : ReportSpanV2 A) : Prop :=
  tokenAvailabilityValid span.metrics span.availability.tokens = true ∧
    span.availability.fields.all validAvailabilityReason = true

theorem ReportSpanV2.validate_ok_iff {span : ReportSpanV2 A} :
    span.validate = .ok () ↔
      span.Available ∧ (∀ amount ∈ span.estimatedCost, Amount.isFinite amount = true) ∧ span.cost.validate = .ok () := by
  unfold ReportSpanV2.validate ReportSpanV2.Available
  rw [← forM_validateFinite_ok_iff]
  constructor
  · intro h
    obtain ⟨_, htokens, h⟩ := bind_eq_ok.mp h
    obtain ⟨_, hfields, h⟩ := bind_eq_ok.mp h
    obtain ⟨_, hcost, h⟩ := bind_eq_ok.mp h
    exact ⟨⟨require_eq_ok.mp htokens, require_eq_ok.mp hfields⟩, hcost, h⟩
  · rintro ⟨⟨htokens, hfields⟩, hcost, h⟩
    rw [require_true htokens, ok_bind, require_true hfields, ok_bind, hcost, ok_bind, h]

/-- A span whose availability is right fails for a number only. -/
theorem ReportSpanV2.validate_failsOnly {span : ReportSpanV2 A} (h : span.Available)
    (hstatus : span.cost.status = "estimated" ∨ span.cost.status = "incomplete" ∨ span.cost.status = "unknown") :
    FailsOnly .nonFiniteNumber span.validate := by
  unfold ReportSpanV2.validate
  rw [require_true h.1, ok_bind, require_true h.2, ok_bind]
  exact (failsOnly_forM (fun _ => failsOnly_require) _).bind fun _ => CostEstimateV1.validate_failsOnly hstatus

/-! ### Availability is right -/

omit [Amount A] in
theorem reportedAvailability_valid {isPresent isApplicable : Bool} {reason : String}
    (h : reason ∈ canonicalReasons .notApplicable) :
    validAvailabilityReason (reportedAvailability isPresent isApplicable reason) = true := by
  unfold reportedAvailability
  split
  · decide
  · split
    · decide
    · exact decide_eq_true h

omit [Amount A] in
theorem tokenAvailability_valid (m : ReportMetricsV1) (kind : SpanKind) :
    tokenAvailabilityValid m (tokenAvailability m kind) = true ∧ validAvailabilityReason (tokenAvailability m kind) = true := by
  unfold tokenAvailabilityValid tokenAvailability
  by_cases htotal : reportTokenTotalPresent m = true
  · rw [if_pos htotal, if_pos htotal]
    exact ⟨by decide, by decide⟩
  · rw [if_neg htotal, if_neg htotal]
    by_cases hmetrics : reportTokenMetricsPresent m = true
    · rw [if_pos hmetrics, if_pos hmetrics]
      exact ⟨by decide, by decide⟩
    · rw [if_neg hmetrics, if_neg hmetrics]
      by_cases hkind : kind = .llmRequest
      · rw [if_pos hkind]
        exact ⟨by decide, by decide⟩
      · rw [if_neg hkind]
        exact ⟨by decide, by decide⟩

omit [Amount A] in
theorem privateLookupAvailability_valid (agentName : Option String) (a : ReportAttributesV1) (turnId : Option String)
    (kind : SpanKind) : validAvailabilityReason (privateLookupAvailability agentName a turnId kind) = true := by
  unfold privateLookupAvailability
  simp only
  split
  · decide
  · split
    · decide
    · decide
    · split
      · split
        · decide
        · decide
      · decide
    · decide

/-- **The availability of a projected span is right**, whatever the record and the table. -/
theorem reportSpan_available [Sha2] (r : DurableRecordV1) (table : Option (RateTable A)) : (reportSpan r table).Available := by
  obtain ⟨htokens, hreason⟩ := tokenAvailability_valid (reportMetrics r.metrics) r.spanKind
  have hprivate := privateLookupAvailability_valid r.agent.name (reportAttributes r.attributes)
    (scalarString (reportAttributes r.attributes).turnId) r.spanKind
  have hrepository : validAvailabilityReason (if repoName r = "unknown" then
      ⟨.sourceUnavailable, "source_not_provided"⟩ else ⟨.available, "reported_by_adapter"⟩) = true := by
    split <;> decide
  have hturn : validAvailabilityReason (if (scalarString (reportAttributes r.attributes).turnId).isSome then
      ⟨.available, "reported_by_adapter"⟩ else ⟨.sourceUnavailable, "source_not_provided"⟩) = true := by
    split <;> decide
  refine ⟨htokens, List.all_eq_true.mpr ?_⟩
  simp only [ReportAvailabilityV2.fields, List.forall_mem_cons]
  exact ⟨hrepository, hturn, reportedAvailability_valid (by decide), hreason, reportedAvailability_valid (by decide),
    hprivate, hprivate, hprivate, nofun⟩

omit [Amount A] in
/-- Resolving the repository replaces one field by one that is right. -/
theorem available_resolveReportRepository {span : ReportSpanV2 A} (h : span.Available) (known : List String) :
    (resolveReportRepository span known).Available := by
  have hfields := List.all_eq_true.mp h.2
  simp only [ReportAvailabilityV2.fields, List.forall_mem_cons] at hfields
  have hreplace : ∀ repository, validAvailabilityReason repository = true →
      ({ span.availability with repository } : ReportAvailabilityV2).fields.all validAvailabilityReason = true := by
    intro repository hrepository
    refine List.all_eq_true.mpr ?_
    simp only [ReportAvailabilityV2.fields, List.forall_mem_cons]
    exact ⟨hrepository, hfields.2⟩
  unfold resolveReportRepository
  split
  · exact h
  · split
    · exact h
    · split
      · exact ⟨h.1, hreplace _ (by decide)⟩
      · exact ⟨h.1, hreplace _ (by decide)⟩

omit [Amount A] in
theorem resolveReportRepository_cost (span : ReportSpanV2 A) (known : List String) :
    (resolveReportRepository span known).cost = span.cost ∧
      (resolveReportRepository span known).estimatedCost = span.estimatedCost := by
  unfold resolveReportRepository
  split
  · exact ⟨rfl, rfl⟩
  · split
    · exact ⟨rfl, rfl⟩
    · split
      · exact ⟨rfl, rfl⟩
      · exact ⟨rfl, rfl⟩

/-- **A valid span stays valid** when its repository is resolved. -/
theorem validate_resolveReportRepository {span : ReportSpanV2 A} (h : span.validate = .ok ()) (known : List String) :
    (resolveReportRepository span known).validate = .ok () := by
  obtain ⟨havailable, hamount, hcost⟩ := ReportSpanV2.validate_ok_iff.mp h
  obtain ⟨hc, he⟩ := resolveReportRepository_cost span known
  refine ReportSpanV2.validate_ok_iff.mpr ⟨available_resolveReportRepository havailable known, ?_, ?_⟩
  · rw [he]
    exact hamount
  · rw [hc]
    exact hcost

/-- The tokens of an older span are available where a total is present. -/
theorem legacyV1_tokens_valid (m : ReportMetricsV1) :
    tokenAvailabilityValid m (ReportAvailabilityV2.legacyV1 m).tokens = true ∧
      validAvailabilityReason (ReportAvailabilityV2.legacyV1 m).tokens = true := by
  unfold tokenAvailabilityValid validAvailabilityReason ReportAvailabilityV2.legacyV1
  by_cases htotal : reportTokenTotalPresent m = true
  · simp [htotal, canonicalReasons]
  · by_cases hmetrics : reportTokenMetricsPresent m = true
    · simp [htotal, hmetrics, canonicalReasons]
    · simp [htotal, hmetrics, canonicalReasons]

omit [Amount A] in
theorem legacyV1_available (legacy : ReportSpanV1 A) : (ReportSpanV2.ofV1 legacy).Available := by
  obtain ⟨htokens, hreason⟩ := legacyV1_tokens_valid legacy.metrics
  refine ⟨htokens, List.all_eq_true.mpr ?_⟩
  simp only [ReportAvailabilityV2.fields, List.forall_mem_cons]
  have hunavailable : validAvailabilityReason ⟨.sourceUnavailable, "legacy_v1_report"⟩ = true := by decide
  exact ⟨hunavailable, hunavailable, hunavailable, hreason, hunavailable, hunavailable, hunavailable, hunavailable, nofun⟩

/-- **An older span that is valid is converted to one that is valid.** -/
theorem validate_ofV1 {legacy : ReportSpanV1 A} (h : legacy.validate = .ok ()) :
    (ReportSpanV2.ofV1 legacy).validate = .ok () := by
  obtain ⟨_, hamount, hcost⟩ := bind_eq_ok.mp h
  exact ReportSpanV2.validate_ok_iff.mpr ⟨legacyV1_available legacy, forM_validateFinite_ok_iff.mp hamount, hcost⟩

/-! ### Projections -/

section Projection

variable [Sha2]

theorem reportSpan_validate_ok {r : DurableRecordV1} {table : Option (RateTable A)} (htable : ∀ t ∈ table, t.FiniteRates)
    (h : (estimateSpanCost r table).Finite) : (reportSpan r table).validate = .ok () :=
  ReportSpanV2.validate_ok_iff.mpr ⟨reportSpan_available r table, h.1,
    CostEstimateV1.validate_ok (sound_estimateSpanCost r table).status (estimateSpanCost_rates htable) h⟩

/-- Whole amounts, and one that is not finite. -/
@[reducible] def overflowAmount : Amount (Option ℕ) where
  zero := some 0
  add a b := (a.map fun a => b.map (a + ·)).getD none
  ofTokens tokens rate := rate.map (tokens * ·)
  round := id
  isFinite := Option.isSome
  nonneg _ := true
  withinMax := Option.all (· ≤ 1000000000000)
  isFinite_zero := rfl
  nonneg_zero := rfl
  withinMax_zero := rfl
  nonneg_add _ _ _ _ := rfl

end Projection

end AgentObservability.Report
