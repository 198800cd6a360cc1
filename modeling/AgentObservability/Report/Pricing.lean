import AgentObservability.Report.Span
import AgentObservability.Foundation.OrderedMap

/-!
# Pricing

`estimate_span_cost`: the estimate of a record under a local rate table. The
tokens of a record are divided into what is billed at the rates of its model
(`billableMetrics`); what has no rate or no agreed meaning makes the estimate
incomplete.
-/

namespace AgentObservability.Report

open Domain Contracts Foundation

/-- `TokenSemantics`. -/
inductive TokenSemantics where
  /-- The tokens come on top of the total. -/
  | exclusive
  /-- The tokens are part of the total. -/
  | includedInTotal
  deriving DecidableEq

/-- The metrics that are billed, in the order of `TOKEN_KEYS`. -/
inductive TokenKey where
  /-- `input_tokens`. -/
  | inputTokens
  /-- `output_tokens`. -/
  | outputTokens
  /-- `cached_input_tokens`. -/
  | cachedInputTokens
  /-- `cache_creation_input_tokens`. -/
  | cacheCreationInputTokens
  /-- `reasoning_output_tokens`. -/
  | reasoningOutputTokens
  deriving DecidableEq

/-- The name of a metric. -/
def TokenKey.asStr : TokenKey → String
  | .inputTokens => "input_tokens"
  | .outputTokens => "output_tokens"
  | .cachedInputTokens => "cached_input_tokens"
  | .cacheCreationInputTokens => "cache_creation_input_tokens"
  | .reasoningOutputTokens => "reasoning_output_tokens"

/-- `TOKEN_KEYS`. -/
def tokenKeys : List TokenKey :=
  [.inputTokens, .outputTokens, .cachedInputTokens, .cacheCreationInputTokens, .reasoningOutputTokens]

/-- `ModelRates`. -/
structure ModelRates (A : Type) where
  /-- The rate of a metric. -/
  rate : TokenKey → Option A
  /-- `token_semantics`. -/
  tokenSemantics : TokenKey → Option TokenSemantics

/-- `RateTable`. -/
structure RateTable (A : Type) where
  /-- `version`. -/
  version : String
  /-- `currency`. -/
  currency : String
  /-- `assumption`. -/
  assumption : String
  /-- `models`. -/
  models : OrderedMap String (ModelRates A)

/-- The metric of a record. -/
def TokenKey.metric (m : MetricsV1) : TokenKey → Option ℕ
  | .inputTokens => m.inputTokens
  | .outputTokens => m.outputTokens
  | .cachedInputTokens => m.cachedInputTokens
  | .cacheCreationInputTokens => m.cacheCreationInputTokens
  | .reasoningOutputTokens => m.reasoningOutputTokens

/-- What is billed of each metric, and what is unclear about it. -/
structure Billable where
  /-- `values`. -/
  values : TokenKey → Option ℕ
  /-- `errors`. -/
  errors : List String

/-- A value is set or removed. -/
def Billable.set (b : Billable) (key : TokenKey) (value : Option ℕ) : Billable :=
  { b with values := Function.update b.values key value }

/-- The values of these metrics are removed, with an error. -/
def Billable.drop (b : Billable) (keys : List TokenKey) (error : String) : Billable :=
  { keys.foldl (fun b key => b.set key none) b with errors := b.errors ++ [error] }

variable {A : Type}

/-- The breakdowns of a total that have no agreed meaning are removed. -/
def dropMissingSemantics (rates : ModelRates A) (present : List TokenKey) (b : Billable) : Billable :=
  present.foldl (fun b key =>
    if (rates.tokenSemantics key).isNone then b.drop [key] (key.asStr ++ ":missing_semantics") else b) b

/-- A total and its breakdowns: the loop body of `billable_metrics`. -/
def billTotal (rates : ModelRates A) (b : Billable) (total : TokenKey × List TokenKey) : Billable :=
  let present := total.2.filter fun key => (b.values key).isSome
  let included := present.filter fun key => rates.tokenSemantics key = some .includedInTotal
  let b := dropMissingSemantics rates present b
  if included.isEmpty then b
  else
    let includedTotal := (included.map fun key => (b.values key).getD 0).sum
    match b.values total.1 with
    | none => b.drop included (total.1.asStr ++ ":invalid_included_breakdown")
    | some value =>
      if value < includedTotal then b.drop included (total.1.asStr ++ ":invalid_included_breakdown")
      else b.set total.1 (some (value - includedTotal))

/-- `billable_metrics`. -/
def billableMetrics (m : MetricsV1) (rates : ModelRates A) : Billable :=
  [(TokenKey.inputTokens, [TokenKey.cachedInputTokens, .cacheCreationInputTokens]),
    (.outputTokens, [.reasoningOutputTokens])].foldl (billTotal rates) ⟨TokenKey.metric m, []⟩

/-- What the loop over `TOKEN_KEYS` carries. -/
structure Priced (A : Type) where
  /-- `missing`. -/
  missing : List String
  /-- `components`. -/
  components : List (String × CostComponentV1 A)
  /-- `amount`. -/
  amount : A

variable [Amount A]

/-- A metric of the loop. -/
def priceToken (values : TokenKey → Option ℕ) (rates : ModelRates A) (priced : Priced A) (key : TokenKey) : Priced A :=
  match values key with
  | none => priced
  | some 0 => priced
  | some tokens =>
    match rates.rate key with
    | none => { priced with missing := priced.missing ++ [key.asStr] }
    | some rate =>
      let cost := Amount.ofTokens tokens rate
      { priced with
        components := priced.components ++ [(key.asStr, ⟨tokens, rate, Amount.round cost⟩)]
        amount := Amount.add priced.amount cost }

/-- `NO_TABLE_ASSUMPTION`. -/
def noTableAssumption : String := "No local rate table was supplied."

omit [Amount A] in
/-- `unknown_cost`. -/
def unknownCost (reason : String) : CostEstimateV1 A :=
  { status := "unknown", reason := some reason, assumption := noTableAssumption }

omit [Amount A] in
/-- `cost_result`. The components are in the order of their keys. -/
def costResult (table : RateTable A) (status : String) (reason model : Option String) (amount : Option A)
    (components : List (String × CostComponentV1 A)) (missing semanticErrors : List String) : CostEstimateV1 A where
  status := status
  reason := reason
  estimatedCost := amount
  currency := some table.currency
  model := model
  rateTableVersion := some table.version
  rateTableUnit := some "per_1m_tokens"
  assumption := table.assumption
  missing := missing
  semanticErrors := semanticErrors
  components := components.insertionSort fun a b => a.1 ≤ b.1

/-- `estimate_span_cost`. -/
def estimateSpanCost (r : DurableRecordV1) : Option (RateTable A) → CostEstimateV1 A
  | none => unknownCost "missing_rate_table"
  | some table =>
    match r.agent.model with
    | none => costResult table "unknown" (some "missing_model") none none [] [] []
    | some model =>
      match table.models.get? model with
      | none => costResult table "unknown" (some "missing_model_rate") (some model) none [] [] []
      | some rates =>
        let billable := billableMetrics r.metrics rates
        let priced := tokenKeys.foldl (priceToken billable.values rates) ⟨[], [], Amount.zero⟩
        if priced.components.isEmpty ∧ priced.missing.isEmpty ∧ billable.errors.isEmpty then
          costResult table "unknown" (some "missing_token_metrics") (some model) none [] [] []
        else
          costResult table (if priced.missing.isEmpty ∧ billable.errors.isEmpty then "estimated" else "incomplete")
            (if ¬ billable.errors.isEmpty then some "ambiguous_token_semantics"
              else if ¬ priced.missing.isEmpty then some "missing_token_rates" else none)
            (some model) (some (Amount.round priced.amount)) priced.components priced.missing billable.errors

omit [Amount A] in
/-- What every estimate has: one of three statuses, and with a known status an amount in a currency. -/
structure CostEstimateV1.Sound (cost : CostEstimateV1 A) : Prop where
  status : cost.status = "estimated" ∨ cost.status = "incomplete" ∨ cost.status = "unknown"
  amount : cost.status ≠ "unknown" → cost.estimatedCost.isSome
  currency : cost.estimatedCost.isSome → cost.currency.isSome

/-- **An estimate that is known has an amount in the currency of the table.** -/
theorem sound_estimateSpanCost (r : DurableRecordV1) (table : Option (RateTable A)) :
    (estimateSpanCost r table).Sound := by
  unfold estimateSpanCost
  split
  · exact ⟨.inr (.inr rfl), fun h => absurd rfl h, nofun⟩
  · split
    · exact ⟨.inr (.inr rfl), fun h => absurd rfl h, nofun⟩
    · split
      · exact ⟨.inr (.inr rfl), fun h => absurd rfl h, nofun⟩
      · simp only
        split
        · exact ⟨.inr (.inr rfl), fun h => absurd rfl h, nofun⟩
        · refine ⟨?_, fun _ => rfl, fun _ => rfl⟩
          simp only [costResult]
          split
          · exact .inl rfl
          · exact .inr (.inl rfl)

end AgentObservability.Report
