import AgentObservability.Report.Pricing
import Mathlib.Algebra.Order.Floor.Ring
import Mathlib.Algebra.Order.BigOperators.Group.List
import Mathlib.Data.Rat.Floor

/-!
# Pricing with exact numbers

`billable_metrics` and `estimate_span_cost` with rational numbers in place of the floats of the
source, which do not have to be whole: the division of the tokens of a record among the rates
of its model, and the estimate that is made of it.

## What is proved

`estimate_partitions`: the tokens of a total are divided between the total and the breakdowns
that are included in it, or the breakdowns are dropped with an error; no other metric is
billed; and an estimate is complete exactly when every count that is billed has a rate.
Metrics that are whole numbers are divided as by `billableMetrics`
(`exactBillableMetrics_natCast`).
-/

namespace AgentObservability.Report

open Domain Contracts Foundation

/-- `MetricsV1`, with exact values. -/
structure ExactMetrics where
  /-- `input_tokens`. -/
  inputTokens : Option ℚ := none
  /-- `output_tokens`. -/
  outputTokens : Option ℚ := none
  /-- `cached_input_tokens`. -/
  cachedInputTokens : Option ℚ := none
  /-- `cache_creation_input_tokens`. -/
  cacheCreationInputTokens : Option ℚ := none
  /-- `reasoning_output_tokens`. -/
  reasoningOutputTokens : Option ℚ := none
  /-- `total_tokens`. -/
  totalTokens : Option ℚ := none
  /-- `total_input_tokens`. -/
  totalInputTokens : Option ℚ := none
  /-- `total_output_tokens`. -/
  totalOutputTokens : Option ℚ := none
  /-- `total_cached_input_tokens`. -/
  totalCachedInputTokens : Option ℚ := none
  /-- `total_reasoning_output_tokens`. -/
  totalReasoningOutputTokens : Option ℚ := none
  /-- `total_accumulated_tokens`. -/
  totalAccumulatedTokens : Option ℚ := none
  /-- `context_window_tokens`. -/
  contextWindowTokens : Option ℚ := none
  /-- `input_tokens_before`. -/
  inputTokensBefore : Option ℚ := none
  /-- `input_tokens_after`. -/
  inputTokensAfter : Option ℚ := none
  /-- `latency_ms`. -/
  latencyMs : Option ℚ := none
  /-- `duration_ms`. -/
  durationMs : Option ℚ := none
  deriving DecidableEq

/-- `metric`, of a value that is finite. -/
def exactMetric (value : Option ℚ) : Option ℚ := value.filter fun value => 0 ≤ value

/-- The metric of a record. -/
def TokenKey.exact (m : ExactMetrics) : TokenKey → Option ℚ
  | .inputTokens => exactMetric m.inputTokens
  | .outputTokens => exactMetric m.outputTokens
  | .cachedInputTokens => exactMetric m.cachedInputTokens
  | .cacheCreationInputTokens => exactMetric m.cacheCreationInputTokens
  | .reasoningOutputTokens => exactMetric m.reasoningOutputTokens

/-- What is billed of each metric, and what is unclear about it. -/
structure ExactBillable where
  /-- `values`. -/
  values : TokenKey → Option ℚ
  /-- `errors`. -/
  errors : List String

/-- A value is set or removed. -/
def ExactBillable.set (b : ExactBillable) (key : TokenKey) (value : Option ℚ) : ExactBillable :=
  { b with values := Function.update b.values key value }

/-- The values of these metrics are removed, with an error. -/
def ExactBillable.drop (b : ExactBillable) (keys : List TokenKey) (error : String) : ExactBillable :=
  { keys.foldl (fun b key => b.set key none) b with errors := b.errors ++ [error] }

/-- The breakdowns of a total that have no agreed meaning are removed. -/
def exactDropMissingSemantics (rates : ModelRates ℚ) (present : List TokenKey) (b : ExactBillable) : ExactBillable :=
  present.foldl (fun b key =>
    if (rates.tokenSemantics key).isNone then b.drop [key] (key.asStr ++ ":missing_semantics") else b) b

/-- The breakdowns that are there and are included in their total: `included`. -/
def includedBreakdowns (rates : ModelRates ℚ) (values : TokenKey → Option ℚ) (breakdowns : List TokenKey) :
    List TokenKey :=
  (breakdowns.filter fun key => (values key).isSome).filter fun key =>
    rates.tokenSemantics key = some .includedInTotal

/-- The sum of the values of breakdowns: `included_total`. -/
def includedTotal (values : TokenKey → Option ℚ) (included : List TokenKey) : ℚ :=
  (included.map fun key => (values key).getD 0).sum

/-- A total and its breakdowns: the loop body of `billable_metrics`. -/
def exactBillTotal (rates : ModelRates ℚ) (b : ExactBillable) (total : TokenKey × List TokenKey) : ExactBillable :=
  let included := includedBreakdowns rates b.values total.2
  let b := exactDropMissingSemantics rates (total.2.filter fun key => (b.values key).isSome) b
  if included.isEmpty then b
  else
    match b.values total.1 with
    | none => b.drop included (total.1.asStr ++ ":invalid_included_breakdown")
    | some value =>
      if value < includedTotal b.values included then b.drop included (total.1.asStr ++ ":invalid_included_breakdown")
      else b.set total.1 (some (value - includedTotal b.values included))

/-- The totals and their breakdowns, in the order of `billable_metrics`. -/
def tokenTotals : List (TokenKey × List TokenKey) :=
  [(TokenKey.inputTokens, [TokenKey.cachedInputTokens, .cacheCreationInputTokens]),
    (.outputTokens, [.reasoningOutputTokens])]

/-- `billable_metrics`. -/
def exactBillableMetrics (m : ExactMetrics) (rates : ModelRates ℚ) : ExactBillable :=
  tokenTotals.foldl (exactBillTotal rates) ⟨TokenKey.exact m, []⟩

/-- `CostComponentV1`. -/
structure ExactComponent where
  /-- `tokens`. -/
  tokens : ℚ
  /-- `rate_per_1m`. -/
  ratePer1m : ℚ
  /-- `estimated_cost`. -/
  estimatedCost : ℚ
  deriving DecidableEq

/-- `round_currency`: to nine decimals, halves away from zero. -/
def roundCurrency (value : ℚ) : ℚ :=
  (if 0 ≤ value then (⌊value * 10 ^ 9 + 1 / 2⌋ : ℚ) else -(⌊-(value * 10 ^ 9) + 1 / 2⌋ : ℚ)) / 10 ^ 9

/-- The cost of tokens before it is rounded. -/
def componentCost (tokens rate : ℚ) : ℚ := tokens / 1000000 * rate

/-- What the loop over `TOKEN_KEYS` carries. -/
structure ExactPriced where
  /-- `missing`. -/
  missing : List String := []
  /-- `components`. -/
  components : List (String × ExactComponent) := []
  /-- `amount`. -/
  amount : ℚ := 0

/-- A metric of the loop. -/
def exactPriceToken (values : TokenKey → Option ℚ) (rates : ModelRates ℚ) (priced : ExactPriced) (key : TokenKey) :
    ExactPriced :=
  match values key with
  | none => priced
  | some tokens =>
    if tokens = 0 then priced
    else
      match rates.rate key with
      | none => { priced with missing := priced.missing ++ [key.asStr] }
      | some rate =>
        { priced with
          components := priced.components ++ [(key.asStr, ⟨tokens, rate, roundCurrency (componentCost tokens rate)⟩)]
          amount := priced.amount + componentCost tokens rate }

/-- `CostEstimateV1`. -/
structure ExactEstimate where
  /-- `status`. -/
  status : String
  /-- `reason`. -/
  reason : Option String
  /-- `estimated_cost`. -/
  estimatedCost : Option ℚ := none
  /-- `currency`. -/
  currency : Option String := none
  /-- `model`. -/
  model : Option String := none
  /-- `rate_table.version`. -/
  rateTableVersion : Option String := none
  /-- `rate_table.unit`. -/
  rateTableUnit : Option String := none
  /-- `cost.assumption`. -/
  assumption : String
  /-- `cost.missing`. -/
  missing : List String := []
  /-- `cost.semantic_errors`. -/
  semanticErrors : List String := []
  /-- `cost.components`. -/
  components : List (String × ExactComponent) := []

/-- `unknown_cost`. -/
def exactUnknownCost (reason : String) : ExactEstimate :=
  { status := "unknown", reason := some reason, assumption := noTableAssumption }

/-- `cost_result`. The components are in the order of their keys. -/
def exactCostResult (table : RateTable ℚ) (status : String) (reason model : Option String) (amount : Option ℚ)
    (components : List (String × ExactComponent)) (missing semanticErrors : List String) : ExactEstimate where
  status := status
  reason := reason
  estimatedCost := amount
  currency := some table.currency
  model := model
  rateTableVersion := some table.version
  rateTableUnit := some "per_1m_tokens"
  assumption := table.assumption
  missing := missing
  semanticErrors := semanticErrors
  components := components.insertionSort fun a b => a.1 ≤ b.1

/-- The estimate of what is billed at the rates of a model. -/
def estimateBillable (table : RateTable ℚ) (model : String) (rates : ModelRates ℚ) (billable : ExactBillable) :
    ExactEstimate :=
  let priced := tokenKeys.foldl (exactPriceToken billable.values rates) {}
  if priced.components.isEmpty ∧ priced.missing.isEmpty ∧ billable.errors.isEmpty then
    exactCostResult table "unknown" (some "missing_token_metrics") (some model) none [] [] []
  else
    exactCostResult table (if priced.missing.isEmpty ∧ billable.errors.isEmpty then "estimated" else "incomplete")
      (if ¬ billable.errors.isEmpty then some "ambiguous_token_semantics"
        else if ¬ priced.missing.isEmpty then some "missing_token_rates" else none)
      (some model) (some (roundCurrency priced.amount)) priced.components priced.missing billable.errors

/-- `estimate_span_cost`, of a record with this model and these metrics. -/
def exactEstimateSpanCost (model : Option String) (m : ExactMetrics) : Option (RateTable ℚ) → ExactEstimate
  | none => exactUnknownCost "missing_rate_table"
  | some table =>
    match model with
    | none => exactCostResult table "unknown" (some "missing_model") none none [] [] []
    | some model =>
      match table.models.get? model with
      | none => exactCostResult table "unknown" (some "missing_model_rate") (some model) none [] [] []
      | some rates => estimateBillable table model rates (exactBillableMetrics m rates)

/-! ### One total -/

section Totals

variable {rates : ModelRates ℚ} {b : ExactBillable} {total key : TokenKey} {breakdowns : List TokenKey}

theorem values_drop (b : ExactBillable) (keys : List TokenKey) (error : String) (key : TokenKey) :
    (b.drop keys error).values key = if key ∈ keys then none else b.values key := by
  have hfold : ∀ (keys : List TokenKey) (b : ExactBillable),
      (keys.foldl (fun b key => b.set key none) b).values key = if key ∈ keys then none else b.values key := by
    intro keys
    induction keys with
    | nil => exact fun _ => rfl
    | cons k keys ih =>
      intro b
      rw [List.foldl_cons, ih, ExactBillable.set]
      by_cases hk : key = k
      · subst hk
        simp
      · simp [hk]
  exact hfold keys b

theorem values_dropMissing (rates : ModelRates ℚ) : ∀ (present : List TokenKey) (b : ExactBillable) (key : TokenKey),
    (exactDropMissingSemantics rates present b).values key =
      if key ∈ present ∧ rates.tokenSemantics key = none then none else b.values key := by
  intro present
  induction present with
  | nil => exact fun _ _ => by simp [exactDropMissingSemantics]
  | cons k present ih =>
    intro b key
    rw [exactDropMissingSemantics, List.foldl_cons, ← exactDropMissingSemantics, ih]
    by_cases hk : (rates.tokenSemantics k).isNone = true
    · rw [if_pos hk, values_drop]
      by_cases hkey : key = k
      · subst hkey
        simp [Option.isNone_iff_eq_none.mp hk]
      · simp [hkey]
    · rw [if_neg hk]
      by_cases hkey : key = k
      · subst hkey
        simp [show rates.tokenSemantics key ≠ none from fun h => hk (Option.isNone_iff_eq_none.mpr h)]
      · simp [hkey]

theorem errors_dropMissing (rates : ModelRates ℚ) : ∀ (present : List TokenKey) (b : ExactBillable),
    (exactDropMissingSemantics rates present b).errors = b.errors ++
      (present.filter fun key => (rates.tokenSemantics key).isNone).map (·.asStr ++ ":missing_semantics") := by
  intro present
  induction present with
  | nil => exact fun b => (List.append_nil _).symm
  | cons k present ih =>
    intro b
    rw [exactDropMissingSemantics, List.foldl_cons, ← exactDropMissingSemantics, ih, List.filter_cons]
    by_cases hk : (rates.tokenSemantics k).isNone = true
    · rw [if_pos hk, if_pos hk]
      simp [ExactBillable.drop]
    · rw [if_neg hk, if_neg hk]

theorem mem_includedBreakdowns {values : TokenKey → Option ℚ} : key ∈ includedBreakdowns rates values breakdowns ↔
    key ∈ breakdowns ∧ (values key).isSome ∧ rates.tokenSemantics key = some .includedInTotal := by
  rw [includedBreakdowns, List.mem_filter, List.mem_filter, and_assoc, decide_eq_true_eq]

/-- What becomes of a total and its breakdowns. The included breakdowns are those that are there. -/
structure Partitions (rates : ModelRates ℚ) (before : TokenKey → Option ℚ) (total : TokenKey)
    (breakdowns : List TokenKey) (after : ExactBillable) : Prop where
  /-- Without an included breakdown the total stays. -/
  unchanged : includedBreakdowns rates before breakdowns = [] → after.values total = before total
  /-- Included breakdowns that do not exceed the total are taken out of it. -/
  split : ∀ value, before total = some value →
    includedTotal before (includedBreakdowns rates before breakdowns) ≤ value →
    ∃ residual, after.values total = some residual ∧
      residual + includedTotal after.values (includedBreakdowns rates before breakdowns) = value ∧
      ∀ key ∈ includedBreakdowns rates before breakdowns, after.values key = before key
  /-- Included breakdowns that exceed the total, or have none, are dropped with an error, and the total stays. -/
  dropped : includedBreakdowns rates before breakdowns ≠ [] →
    (∀ value, before total = some value →
      value < includedTotal before (includedBreakdowns rates before breakdowns)) →
    after.values total = before total ∧
      (∀ key ∈ includedBreakdowns rates before breakdowns, after.values key = none) ∧
      total.asStr ++ ":invalid_included_breakdown" ∈ after.errors
  /-- Exclusive breakdowns stay. -/
  exclusive : ∀ key ∈ breakdowns, rates.tokenSemantics key = some .exclusive → after.values key = before key
  /-- Breakdowns without an agreed meaning are dropped with an error. -/
  missing : ∀ key ∈ breakdowns, rates.tokenSemantics key = none →
    after.values key = none ∧ ((before key).isSome → key.asStr ++ ":missing_semantics" ∈ after.errors)

/-- A step for a total touches the total and its breakdowns, and keeps the errors. -/
structure Touches (b : ExactBillable) (total : TokenKey) (breakdowns : List TokenKey) (after : ExactBillable) :
    Prop where
  /-- The other metrics stay. -/
  others : ∀ key, key ≠ total → key ∉ breakdowns → after.values key = b.values key
  /-- The errors stay. -/
  errors : ∀ e ∈ b.errors, e ∈ after.errors
  /-- No count falls below zero. -/
  nonneg : (∀ key value, b.values key = some value → 0 ≤ value) →
    ∀ key value, after.values key = some value → 0 ≤ value

/-- The breakdowns have an agreed meaning, or are gone. -/
structure Settled (rates : ModelRates ℚ) (b : ExactBillable) (breakdowns : List TokenKey) (d : ExactBillable) :
    Prop where
  /-- Only a breakdown without an agreed meaning changes. -/
  same : ∀ key, (key ∈ breakdowns → rates.tokenSemantics key ≠ none) → d.values key = b.values key
  /-- A breakdown without an agreed meaning is gone, with an error. -/
  missing : ∀ key ∈ breakdowns, rates.tokenSemantics key = none →
    d.values key = none ∧ ((b.values key).isSome → key.asStr ++ ":missing_semantics" ∈ d.errors)
  /-- The errors stay. -/
  errors : ∀ e ∈ b.errors, e ∈ d.errors

theorem settled_dropMissing (rates : ModelRates ℚ) (b : ExactBillable) (breakdowns : List TokenKey) :
    Settled rates b breakdowns
      (exactDropMissingSemantics rates (breakdowns.filter fun key => (b.values key).isSome) b) where
  same key hkey := by
    rw [values_dropMissing, if_neg]
    rintro ⟨hpresent, hnone⟩
    exact hkey (List.mem_filter.mp hpresent).1 hnone
  missing key hkey hnone := by
    rw [values_dropMissing, errors_dropMissing]
    constructor
    · by_cases hsome : (b.values key).isSome = true
      · exact if_pos ⟨List.mem_filter.mpr ⟨hkey, hsome⟩, hnone⟩
      · rw [if_neg]
        · simpa using hsome
        · rintro ⟨hmem, -⟩
          exact hsome (List.mem_filter.mp hmem).2
    · intro hsome
      refine List.mem_append_right _ (List.mem_map.mpr ⟨key, List.mem_filter.mpr ⟨?_, by rw [hnone]; rfl⟩, rfl⟩)
      exact List.mem_filter.mpr ⟨hkey, hsome⟩
  errors e he := by
    rw [errors_dropMissing]
    exact List.mem_append_left _ he

namespace Settled

variable {d : ExactBillable}

theorem total_eq (h : Settled rates b breakdowns d) (htotal : total ∉ breakdowns) : d.values total = b.values total :=
  h.same total fun hmem => absurd hmem htotal

theorem included_eq (h : Settled rates b breakdowns d) :
    ∀ key ∈ includedBreakdowns rates b.values breakdowns, d.values key = b.values key := by
  intro key hkey
  refine h.same key fun _ hnone => ?_
  rw [(mem_includedBreakdowns.mp hkey).2.2] at hnone
  cases hnone

theorem includedTotal_eq (h : Settled rates b breakdowns d) :
    includedTotal d.values (includedBreakdowns rates b.values breakdowns) =
      includedTotal b.values (includedBreakdowns rates b.values breakdowns) := by
  refine congrArg List.sum (List.map_congr_left fun key hkey => ?_)
  rw [h.included_eq key hkey]

theorem nonneg (h : Settled rates b breakdowns d) (hb : ∀ key value, b.values key = some value → 0 ≤ value) :
    ∀ key value, d.values key = some value → 0 ≤ value := by
  intro key value hvalue
  by_cases hgone : key ∈ breakdowns ∧ rates.tokenSemantics key = none
  · rw [(h.missing key hgone.1 hgone.2).1] at hvalue
    cases hvalue
  · rw [h.same key fun hmem hnone => hgone ⟨hmem, hnone⟩] at hvalue
    exact hb key value hvalue

/-- Nothing is included. -/
theorem of_isEmpty (h : Settled rates b breakdowns d) (htotal : total ∉ breakdowns)
    (hempty : includedBreakdowns rates b.values breakdowns = []) :
    Partitions rates b.values total breakdowns d ∧ Touches b total breakdowns d := by
  refine ⟨{ unchanged := fun _ => h.total_eq htotal, split := fun value hvalue _ => ?_, dropped := fun hne => absurd hempty hne
            exclusive := fun key _ hsem => h.same key fun _ => by rw [hsem]; exact nofun, missing := h.missing },
    { others := fun key _ hkey => h.same key fun hmem => absurd hmem hkey, errors := h.errors, nonneg := h.nonneg }⟩
  rw [hempty]
  exact ⟨value, (h.total_eq htotal).trans hvalue, add_zero value, nofun⟩

/-- What is included is dropped. -/
theorem of_drop (h : Settled rates b breakdowns d) (htotal : total ∉ breakdowns)
    (hne : includedBreakdowns rates b.values breakdowns ≠ [])
    (hless : ∀ value, b.values total = some value →
      value < includedTotal b.values (includedBreakdowns rates b.values breakdowns)) :
    let after := d.drop (includedBreakdowns rates b.values breakdowns) (total.asStr ++ ":invalid_included_breakdown")
    Partitions rates b.values total breakdowns after ∧ Touches b total breakdowns after := by
  intro after
  have hvalues : ∀ key, after.values key =
      if key ∈ includedBreakdowns rates b.values breakdowns then none else d.values key := values_drop d _ _
  have herrors : ∀ e ∈ d.errors, e ∈ after.errors := fun e he => List.mem_append_left _ he
  have hstays : ∀ key, key ∉ includedBreakdowns rates b.values breakdowns → after.values key = d.values key := by
    intro key hkey
    rw [hvalues, if_neg hkey]
  have hafter : after.values total = b.values total :=
    (hstays total fun hmem => htotal (mem_includedBreakdowns.mp hmem).1).trans (h.total_eq htotal)
  constructor
  · refine { unchanged := fun hempty => absurd hempty hne, split := fun value hvalue hle => ?_
             dropped := fun _ _ => ⟨hafter, fun key hkey => by rw [hvalues, if_pos hkey], ?_⟩
             exclusive := fun key _ hsem => ?_, missing := fun key hkey hnone => ?_ }
    · exact absurd (hless value hvalue) (not_lt.mpr hle)
    · exact List.mem_append_right _ (List.mem_singleton.mpr rfl)
    · rw [hstays key fun hmem => by rw [(mem_includedBreakdowns.mp hmem).2.2] at hsem; cases hsem]
      exact h.same key fun _ => by rw [hsem]; exact nofun
    · obtain ⟨hgone, herror⟩ := h.missing key hkey hnone
      refine ⟨?_, fun hsome => herrors _ (herror hsome)⟩
      rw [hvalues, hgone, ite_self]
  · refine { others := fun key _ hkey => ?_, errors := fun e he => herrors e (h.errors e he)
             nonneg := fun hb key value hvalue => ?_ }
    · rw [hstays key fun hmem => hkey (mem_includedBreakdowns.mp hmem).1]
      exact h.same key fun hmem => absurd hmem hkey
    · rw [hvalues] at hvalue
      split at hvalue
      · cases hvalue
      · exact h.nonneg hb key value hvalue

/-- What is included is taken out of the total. -/
theorem of_set (h : Settled rates b breakdowns d) (htotal : total ∉ breakdowns)
    (hne : includedBreakdowns rates b.values breakdowns ≠ []) {value : ℚ} (hvalue : b.values total = some value)
    (hle : includedTotal b.values (includedBreakdowns rates b.values breakdowns) ≤ value) :
    let after := d.set total (some (value - includedTotal b.values (includedBreakdowns rates b.values breakdowns)))
    Partitions rates b.values total breakdowns after ∧ Touches b total breakdowns after := by
  intro after
  have hafter : after.values total =
      some (value - includedTotal b.values (includedBreakdowns rates b.values breakdowns)) :=
    Function.update_self _ _ _
  have hstays : ∀ key, key ≠ total → after.values key = d.values key := fun key hkey => Function.update_of_ne hkey _ _
  have hparts : ∀ key ∈ breakdowns, after.values key = d.values key :=
    fun key hkey => hstays key fun heq => htotal (heq ▸ hkey)
  have hincluded : ∀ key ∈ includedBreakdowns rates b.values breakdowns, after.values key = b.values key :=
    fun key hkey => (hparts key (mem_includedBreakdowns.mp hkey).1).trans (h.included_eq key hkey)
  constructor
  · refine { unchanged := fun hempty => absurd hempty hne, split := fun value' hvalue' _ => ?_
             dropped := fun _ hless => absurd (hless value hvalue) (not_lt.mpr hle)
             exclusive := fun key hkey hsem => ?_, missing := fun key hkey hnone => ?_ }
    · obtain rfl := Option.some.inj (hvalue.symm.trans hvalue')
      refine ⟨_, hafter, ?_, hincluded⟩
      have hsum : includedTotal after.values (includedBreakdowns rates b.values breakdowns) =
          includedTotal b.values (includedBreakdowns rates b.values breakdowns) := by
        refine congrArg List.sum (List.map_congr_left fun key hkey => ?_)
        rw [hincluded key hkey]
      rw [hsum]
      exact sub_add_cancel _ _
    · rw [hparts key hkey]
      exact h.same key fun _ => by rw [hsem]; exact nofun
    · rw [hparts key hkey]
      exact h.missing key hkey hnone
  · refine { others := fun key hne hkey => ?_, errors := h.errors, nonneg := fun hb key v hv => ?_ }
    · rw [hstays key hne]
      exact h.same key fun hmem => absurd hmem hkey
    · by_cases hkey : key = total
      · subst hkey
        rw [hafter] at hv
        obtain rfl := Option.some.inj hv
        exact sub_nonneg.mpr hle
      · rw [hstays key hkey] at hv
        exact h.nonneg hb key v hv

end Settled

/-- **A step for a total divides its tokens.** -/
theorem exactBillTotal_spec (rates : ModelRates ℚ) (breakdowns : List TokenKey) (b : ExactBillable)
    (htotal : total ∉ breakdowns) :
    Partitions rates b.values total breakdowns (exactBillTotal rates b (total, breakdowns)) ∧
      Touches b total breakdowns (exactBillTotal rates b (total, breakdowns)) := by
  have h := settled_dropMissing rates b breakdowns
  unfold exactBillTotal
  simp only
  by_cases hempty : includedBreakdowns rates b.values breakdowns = []
  · rw [hempty, List.isEmpty_nil, if_pos rfl]
    exact h.of_isEmpty htotal hempty
  · rw [if_neg fun h => hempty (List.isEmpty_iff.mp h), h.total_eq htotal, h.includedTotal_eq]
    cases hvalue : b.values total with
    | none => exact h.of_drop htotal hempty fun value hsome => by rw [hvalue] at hsome; cases hsome
    | some value =>
      simp only
      by_cases hless : value < includedTotal b.values (includedBreakdowns rates b.values breakdowns)
      · rw [if_pos hless]
        exact h.of_drop htotal hempty fun value' hsome => by rwa [← Option.some.inj (hvalue.symm.trans hsome)]
      · rw [if_neg hless]
        exact h.of_set htotal hempty hvalue (not_lt.mp hless)

/-- What becomes of a total depends on the total and its breakdowns alone. -/
theorem Partitions.congr {before before' : TokenKey → Option ℚ} {after after' : ExactBillable}
    (h : Partitions rates before total breakdowns after)
    (hbefore : ∀ key, key = total ∨ key ∈ breakdowns → before' key = before key)
    (hafter : ∀ key, key = total ∨ key ∈ breakdowns → after'.values key = after.values key)
    (herrors : ∀ e ∈ after.errors, e ∈ after'.errors) : Partitions rates before' total breakdowns after' := by
  have hincluded : includedBreakdowns rates before' breakdowns = includedBreakdowns rates before breakdowns := by
    unfold includedBreakdowns
    refine congrArg (List.filter _) (List.filter_congr fun key hkey => ?_)
    rw [hbefore key (Or.inr hkey)]
  have hmem : ∀ key ∈ includedBreakdowns rates before breakdowns, key = total ∨ key ∈ breakdowns :=
    fun key hkey => Or.inr (mem_includedBreakdowns.mp hkey).1
  have hsum : ∀ {values values' : TokenKey → Option ℚ},
      (∀ key, key = total ∨ key ∈ breakdowns → values' key = values key) →
      includedTotal values' (includedBreakdowns rates before breakdowns) =
        includedTotal values (includedBreakdowns rates before breakdowns) := by
    intro values values' hvalues
    refine congrArg List.sum (List.map_congr_left fun key hkey => ?_)
    rw [hvalues key (hmem key hkey)]
  have htotal := hbefore total (Or.inl rfl)
  have htotal' := hafter total (Or.inl rfl)
  refine { unchanged := fun hempty => ?_, split := fun value hvalue hle => ?_, dropped := fun hne hless => ?_
           exclusive := fun key hkey hsem => ?_, missing := fun key hkey hnone => ?_ }
  · rw [htotal, htotal']
    exact h.unchanged (hincluded ▸ hempty)
  · rw [hincluded] at hle ⊢
    rw [hsum hbefore] at hle
    obtain ⟨residual, hresidual, hadd, hkept⟩ := h.split value (htotal ▸ hvalue) hle
    refine ⟨residual, htotal'.trans hresidual, (hsum hafter).symm ▸ hadd, fun key hkey => ?_⟩
    rw [hafter key (hmem key hkey), hbefore key (hmem key hkey)]
    exact hkept key hkey
  · rw [hincluded] at hne hless ⊢
    rw [hsum hbefore, htotal] at hless
    obtain ⟨hstays, hgone, herror⟩ := h.dropped hne hless
    refine ⟨htotal'.trans (hstays.trans htotal.symm), fun key hkey => ?_, herrors _ herror⟩
    rw [hafter key (hmem key hkey)]
    exact hgone key hkey
  · rw [hafter key (Or.inr hkey), hbefore key (Or.inr hkey)]
    exact h.exclusive key hkey hsem
  · rw [hafter key (Or.inr hkey), hbefore key (Or.inr hkey)]
    obtain ⟨hgone, herror⟩ := h.missing key hkey hnone
    exact ⟨hgone, fun hsome => herrors _ (herror hsome)⟩

end Totals

/-! ### All totals -/

section Billable

variable {rates : ModelRates ℚ} {m : ExactMetrics}

/-- **Every total is divided among itself and its breakdowns.** -/
theorem exactBillableMetrics_partitions {total : TokenKey × List TokenKey} (htotal : total ∈ tokenTotals) :
    Partitions rates (TokenKey.exact m) total.1 total.2 (exactBillableMetrics m rates) := by
  obtain ⟨hinput, hinputTouches⟩ := exactBillTotal_spec rates [.cachedInputTokens, .cacheCreationInputTokens]
    ⟨TokenKey.exact m, []⟩ (show TokenKey.inputTokens ∉ _ by decide)
  obtain ⟨houtput, houtputTouches⟩ := exactBillTotal_spec rates [.reasoningOutputTokens]
    (exactBillTotal rates ⟨TokenKey.exact m, []⟩ (.inputTokens, [.cachedInputTokens, .cacheCreationInputTokens]))
    (show TokenKey.outputTokens ∉ _ by decide)
  rcases List.mem_cons.mp htotal with rfl | htotal
  · refine hinput.congr (fun _ _ => rfl) (fun key hkey => ?_) houtputTouches.errors
    apply houtputTouches.others
    · rintro rfl
      exact absurd hkey (by decide)
    · intro hmem
      rw [List.mem_singleton.mp hmem] at hkey
      exact absurd hkey (by decide)
  · rw [List.mem_singleton.mp htotal]
    refine houtput.congr (fun key hkey => ?_) (fun _ _ => rfl) fun _ he => he
    symm
    apply hinputTouches.others
    · rintro rfl
      exact absurd hkey (by decide)
    · intro hmem
      simp only [List.mem_cons, List.not_mem_nil, or_false] at hmem hkey
      rcases hmem with rfl | rfl <;> exact absurd hkey (by decide)

theorem exact_nonneg {key : TokenKey} {value : ℚ} (h : key.exact m = some value) : 0 ≤ value := by
  have hfilter : ∀ {v : Option ℚ}, exactMetric v = some value → 0 ≤ value := fun h =>
    of_decide_eq_true (Option.filter_eq_some_iff.mp h).2
  cases key <;> exact hfilter h

/-- **No count that is billed is negative.** -/
theorem exactBillableMetrics_nonneg {key : TokenKey} {value : ℚ}
    (h : (exactBillableMetrics m rates).values key = some value) : 0 ≤ value := by
  have hinput := (exactBillTotal_spec rates [.cachedInputTokens, .cacheCreationInputTokens]
    ⟨TokenKey.exact m, []⟩ (show TokenKey.inputTokens ∉ _ by decide)).2
  have houtput := (exactBillTotal_spec rates [.reasoningOutputTokens]
    (exactBillTotal rates ⟨TokenKey.exact m, []⟩ (.inputTokens, [.cachedInputTokens, .cacheCreationInputTokens]))
    (show TokenKey.outputTokens ∉ _ by decide)).2
  exact houtput.nonneg (hinput.nonneg fun _ _ => exact_nonneg) key value h

end Billable

/-! ### The loop over the metrics -/

section Priced

variable {values : TokenKey → Option ℚ} {rates : ModelRates ℚ} {priced : ExactPriced} {key : TokenKey}
  {keys : List TokenKey}

/-- A count that is billed. -/
def Counted (values : TokenKey → Option ℚ) (key : TokenKey) (tokens : ℚ) : Prop := values key = some tokens ∧ tokens ≠ 0

/-- What the loop has made of the metrics it has seen. -/
structure PricedBy (values : TokenKey → Option ℚ) (rates : ModelRates ℚ) (keys : List TokenKey) (priced : ExactPriced) :
    Prop where
  /-- The components are the counts with a rate. -/
  component : ∀ name c, (name, c) ∈ priced.components ↔
    ∃ key ∈ keys, name = key.asStr ∧ Counted values key c.tokens ∧ rates.rate key = some c.ratePer1m ∧
      c.estimatedCost = roundCurrency (componentCost c.tokens c.ratePer1m)
  /-- The counts without a rate are missing. -/
  missing : ∀ name, name ∈ priced.missing ↔
    ∃ key ∈ keys, name = key.asStr ∧ (∃ tokens, Counted values key tokens) ∧ rates.rate key = none
  /-- The amount is the cost of the components. -/
  amount : priced.amount = (priced.components.map fun c => componentCost c.2.tokens c.2.ratePer1m).sum

/-- A metric that is not counted changes nothing. -/
theorem PricedBy.skip (h : PricedBy values rates keys priced) (hkey : ∀ tokens, ¬ Counted values key tokens) :
    PricedBy values rates (keys ++ [key]) priced where
  component name c := by
    rw [h.component]
    constructor
    · rintro ⟨k, hk, hc⟩
      exact ⟨k, List.mem_append_left _ hk, hc⟩
    · rintro ⟨k, hk, hname, hc, hrest⟩
      rcases List.mem_append.mp hk with hk | hk
      · exact ⟨k, hk, hname, hc, hrest⟩
      · rw [List.mem_singleton.mp hk] at hc
        exact absurd hc (hkey _)
  missing name := by
    rw [h.missing]
    constructor
    · rintro ⟨k, hk, hc⟩
      exact ⟨k, List.mem_append_left _ hk, hc⟩
    · rintro ⟨k, hk, hname, ⟨tokens, hc⟩, hrest⟩
      rcases List.mem_append.mp hk with hk | hk
      · exact ⟨k, hk, hname, ⟨tokens, hc⟩, hrest⟩
      · rw [List.mem_singleton.mp hk] at hc
        exact absurd hc (hkey _)
  amount := h.amount

/-- A count without a rate is missing. -/
theorem PricedBy.noRate {tokens : ℚ} (h : PricedBy values rates keys priced) (hkey : Counted values key tokens)
    (hrate : rates.rate key = none) :
    PricedBy values rates (keys ++ [key]) { priced with missing := priced.missing ++ [key.asStr] } where
  component name c := by
    rw [h.component]
    constructor
    · rintro ⟨k, hk, hc⟩
      exact ⟨k, List.mem_append_left _ hk, hc⟩
    · rintro ⟨k, hk, hname, hc, hsome, hrest⟩
      rcases List.mem_append.mp hk with hk | hk
      · exact ⟨k, hk, hname, hc, hsome, hrest⟩
      · rw [List.mem_singleton.mp hk, hrate] at hsome
        cases hsome
  missing name := by
    rw [List.mem_append, h.missing]
    constructor
    · rintro (⟨k, hk, hc⟩ | hname)
      · exact ⟨k, List.mem_append_left _ hk, hc⟩
      · exact ⟨key, List.mem_append_right _ (List.mem_singleton.mpr rfl), List.mem_singleton.mp hname,
          ⟨tokens, hkey⟩, hrate⟩
    · rintro ⟨k, hk, hname, hc⟩
      rcases List.mem_append.mp hk with hk | hk
      · exact .inl ⟨k, hk, hname, hc⟩
      · rw [List.mem_singleton.mp hk] at hname
        exact .inr (List.mem_singleton.mpr hname)
  amount := h.amount

/-- A count with a rate is a component. -/
theorem PricedBy.rate {tokens rate : ℚ} (h : PricedBy values rates keys priced) (hkey : Counted values key tokens)
    (hrate : rates.rate key = some rate) :
    PricedBy values rates (keys ++ [key])
      { priced with
        components := priced.components ++ [(key.asStr, ⟨tokens, rate, roundCurrency (componentCost tokens rate)⟩)]
        amount := priced.amount + componentCost tokens rate } where
  component name c := by
    rw [List.mem_append, h.component]
    constructor
    · rintro (⟨k, hk, hc⟩ | hname)
      · exact ⟨k, List.mem_append_left _ hk, hc⟩
      · obtain ⟨rfl, rfl⟩ := Prod.mk.inj (List.mem_singleton.mp hname)
        exact ⟨key, List.mem_append_right _ (List.mem_singleton.mpr rfl), rfl, hkey, hrate, rfl⟩
    · rintro ⟨k, hk, hname, hc, hsome, hcost⟩
      rcases List.mem_append.mp hk with hk | hk
      · exact .inl ⟨k, hk, hname, hc, hsome, hcost⟩
      · obtain rfl := List.mem_singleton.mp hk
        right
        obtain ⟨t, r, e⟩ := c
        have htokens : t = tokens := Option.some.inj (hc.1.symm.trans hkey.1)
        have hr : r = rate := Option.some.inj (hsome.symm.trans hrate)
        have he : e = roundCurrency (componentCost t r) := hcost
        subst htokens hr hname he
        exact List.mem_singleton.mpr rfl
  missing name := by
    rw [h.missing]
    constructor
    · rintro ⟨k, hk, hc⟩
      exact ⟨k, List.mem_append_left _ hk, hc⟩
    · rintro ⟨k, hk, hname, hc, hnone⟩
      rcases List.mem_append.mp hk with hk | hk
      · exact ⟨k, hk, hname, hc, hnone⟩
      · rw [List.mem_singleton.mp hk, hrate] at hnone
        cases hnone
  amount := by
    rw [List.map_append, List.sum_append, ← h.amount]
    simp

theorem PricedBy.step (h : PricedBy values rates keys priced) (key : TokenKey) :
    PricedBy values rates (keys ++ [key]) (exactPriceToken values rates priced key) := by
  unfold exactPriceToken
  cases hvalue : values key with
  | none =>
    apply h.skip
    intro tokens hcounted
    rw [hcounted.1] at hvalue
    cases hvalue
  | some tokens =>
    simp only
    by_cases hzero : tokens = 0
    · rw [if_pos hzero]
      apply h.skip
      intro tokens' hcounted
      rw [hcounted.1] at hvalue
      exact hcounted.2 ((Option.some.inj hvalue).trans hzero)
    · rw [if_neg hzero]
      cases hrate : rates.rate key with
      | none => exact h.noRate ⟨hvalue, hzero⟩ hrate
      | some rate => exact h.rate ⟨hvalue, hzero⟩ hrate

/-- **The loop makes components of the counts with a rate, and no others.** -/
theorem pricedBy_foldl (values : TokenKey → Option ℚ) (rates : ModelRates ℚ) (keys : List TokenKey) :
    PricedBy values rates keys (keys.foldl (exactPriceToken values rates) {}) := by
  induction keys using List.reverseRecOn with
  | nil => exact ⟨fun _ _ => by simp, fun _ => by simp, rfl⟩
  | append_singleton keys key ih =>
    rw [List.foldl_append]
    exact ih.step key

theorem mem_tokenKeys (key : TokenKey) : key ∈ tokenKeys := by
  cases key <;> decide

theorem PricedBy.missing_isEmpty (h : PricedBy values rates tokenKeys priced) : priced.missing.isEmpty ↔
    ∀ key tokens, Counted values key tokens → (rates.rate key).isSome := by
  rw [List.isEmpty_iff, List.eq_nil_iff_forall_not_mem]
  constructor
  · intro hnone key tokens hcounted
    by_contra hrate
    exact hnone key.asStr ((h.missing _).mpr ⟨key, mem_tokenKeys key, rfl, ⟨tokens, hcounted⟩, by simpa using hrate⟩)
  · intro hall name hname
    obtain ⟨key, -, -, ⟨tokens, hcounted⟩, hrate⟩ := (h.missing name).mp hname
    have := hall key tokens hcounted
    rw [hrate] at this
    cases this

theorem PricedBy.components_ne_nil (h : PricedBy values rates tokenKeys priced) (hmissing : priced.missing.isEmpty) :
    priced.components ≠ [] ↔ ∃ key tokens, Counted values key tokens := by
  constructor
  · intro hne
    obtain ⟨⟨name, c⟩, hmem⟩ := List.exists_mem_of_ne_nil _ hne
    obtain ⟨key, -, -, hcounted, -⟩ := (h.component name c).mp hmem
    exact ⟨key, c.tokens, hcounted⟩
  · rintro ⟨key, tokens, hcounted⟩ hnil
    obtain ⟨rate, hrate⟩ := Option.isSome_iff_exists.mp (h.missing_isEmpty.mp hmissing key tokens hcounted)
    have hmem := (h.component key.asStr ⟨tokens, rate, roundCurrency (componentCost tokens rate)⟩).mpr
      ⟨key, mem_tokenKeys key, rfl, hcounted, hrate, rfl⟩
    rw [hnil] at hmem
    cases hmem

end Priced

/-! ### The estimate -/

section Estimate

/-- What an estimate at the rates of a model says about what is billed. -/
structure Estimates (rates : ModelRates ℚ) (billable : ExactBillable) (e : ExactEstimate) : Prop where
  /-- Complete: something is billed, all of it has a rate, and nothing is unclear. -/
  estimated : e.status = "estimated" ↔
    (∃ key tokens, Counted billable.values key tokens) ∧
      (∀ key tokens, Counted billable.values key tokens → (rates.rate key).isSome) ∧ billable.errors = []
  /-- The amount is the rounded sum of the costs of the components. -/
  amount : ∀ amount, e.estimatedCost = some amount →
    amount = roundCurrency (e.components.map fun c => c.2.tokens / 1000000 * c.2.ratePer1m).sum
  /-- A complete estimate has an amount. -/
  isSome : e.status = "estimated" → e.estimatedCost.isSome
  /-- Only the counts of the five metrics are components. -/
  component : ∀ name c, (name, c) ∈ e.components →
    ∃ key : TokenKey, name = key.asStr ∧ Counted billable.values key c.tokens ∧ rates.rate key = some c.ratePer1m
  /-- A complete estimate has a component for each count. -/
  covered : e.status = "estimated" → ∀ key tokens, Counted billable.values key tokens →
    ∃ c, (key.asStr, c) ∈ e.components ∧ c.tokens = tokens

/-- **An estimate is complete exactly when every count that is billed has a rate.** -/
theorem estimateBillable_spec (table : RateTable ℚ) (model : String) (rates : ModelRates ℚ) (billable : ExactBillable) :
    Estimates rates billable (estimateBillable table model rates billable) := by
  have h := pricedBy_foldl billable.values rates tokenKeys
  unfold estimateBillable
  generalize tokenKeys.foldl (exactPriceToken billable.values rates) {} = priced at h
  simp only
  by_cases hnothing : priced.components.isEmpty ∧ priced.missing.isEmpty ∧ billable.errors.isEmpty
  · rw [if_pos hnothing]
    refine ⟨⟨fun h => absurd h (by simp [exactCostResult]), ?_⟩, nofun, fun h => absurd h (by simp [exactCostResult]),
      fun _ _ hmem => absurd hmem List.not_mem_nil, fun h => absurd h (by simp [exactCostResult])⟩
    rintro ⟨hcounted, -, -⟩
    exact absurd (List.isEmpty_iff.mp hnothing.1) ((h.components_ne_nil hnothing.2.1).mpr hcounted)
  · rw [if_neg hnothing]
    have hperm : (priced.components.insertionSort fun a b => a.1 ≤ b.1).Perm priced.components :=
      List.perm_insertionSort _ _
    have hstatus : (if priced.missing.isEmpty ∧ billable.errors.isEmpty then "estimated" else "incomplete") =
        "estimated" ↔ priced.missing.isEmpty ∧ billable.errors.isEmpty := by
      by_cases hcomplete : priced.missing.isEmpty ∧ billable.errors.isEmpty
      · rw [if_pos hcomplete]
        simp [hcomplete]
      · rw [if_neg hcomplete]
        exact ⟨fun h => absurd h (by decide), fun h => absurd h hcomplete⟩
    refine ⟨?_, fun amount hamount => ?_, fun _ => rfl, fun name c hmem => ?_, fun hdone key tokens hcounted => ?_⟩
    · rw [exactCostResult, hstatus, h.missing_isEmpty, List.isEmpty_iff]
      constructor
      · intro hcomplete
        refine ⟨?_, hcomplete.1, hcomplete.2⟩
        rw [← h.components_ne_nil (h.missing_isEmpty.mpr hcomplete.1)]
        intro hnil
        exact hnothing ⟨List.isEmpty_iff.mpr hnil, h.missing_isEmpty.mpr hcomplete.1, List.isEmpty_iff.mpr hcomplete.2⟩
      · exact fun hcomplete => ⟨hcomplete.2.1, hcomplete.2.2⟩
    · rw [← Option.some.inj hamount, h.amount]
      exact congrArg roundCurrency (hperm.map _).sum_eq.symm
    · obtain ⟨key, -, hname, hcounted, hrate, -⟩ := (h.component name c).mp (hperm.mem_iff.mp hmem)
      exact ⟨key, hname, hcounted, hrate⟩
    · rw [exactCostResult, hstatus] at hdone
      obtain ⟨rate, hrate⟩ := Option.isSome_iff_exists.mp (h.missing_isEmpty.mp hdone.1 key tokens hcounted)
      refine ⟨⟨tokens, rate, roundCurrency (componentCost tokens rate)⟩, hperm.mem_iff.mpr ?_, rfl⟩
      exact (h.component _ _).mpr ⟨key, mem_tokenKeys key, rfl, hcounted, hrate, rfl⟩

end Estimate

/-! ### Whole numbers -/

section Whole

/-- The metrics of a record that are whole numbers. -/
def exactMetrics (m : MetricsV1) : ExactMetrics where
  inputTokens := m.inputTokens.map Nat.cast
  outputTokens := m.outputTokens.map Nat.cast
  cachedInputTokens := m.cachedInputTokens.map Nat.cast
  cacheCreationInputTokens := m.cacheCreationInputTokens.map Nat.cast
  reasoningOutputTokens := m.reasoningOutputTokens.map Nat.cast

/-- What is billed in whole numbers. -/
def Billable.exact (b : Billable) : ExactBillable := ⟨fun key => (b.values key).map Nat.cast, b.errors⟩

theorem exactMetric_natCast (value : Option ℕ) : exactMetric (value.map Nat.cast) = value.map Nat.cast := by
  cases value with
  | none => rfl
  | some value => exact if_pos (decide_eq_true (Nat.cast_nonneg value))

theorem exact_exactMetrics (m : MetricsV1) (key : TokenKey) :
    key.exact (exactMetrics m) = (key.metric m).map Nat.cast := by
  cases key <;> exact exactMetric_natCast _

theorem isSome_exact (b : Billable) (key : TokenKey) : (b.exact.values key).isSome = (b.values key).isSome :=
  Option.isSome_map

theorem exact_set (b : Billable) (key : TokenKey) (value : Option ℕ) :
    (b.set key value).exact = b.exact.set key (value.map Nat.cast) := by
  unfold Billable.set Billable.exact ExactBillable.set
  congr 1
  funext k
  show (Function.update b.values key value k).map Nat.cast =
    Function.update (fun key => (b.values key).map Nat.cast) key (value.map (Nat.cast : ℕ → ℚ)) k
  by_cases hk : k = key
  · subst hk
    rw [Function.update_self, Function.update_self]
  · rw [Function.update_of_ne hk, Function.update_of_ne hk]

theorem exact_drop (b : Billable) (keys : List TokenKey) (error : String) :
    (b.drop keys error).exact = b.exact.drop keys error := by
  have hfold : (keys.foldl (fun b key => b.set key none) b).exact = keys.foldl (fun b key => b.set key none) b.exact :=
    (List.foldl_hom Billable.exact fun b key => (exact_set b key none).symm).symm
  unfold Billable.drop ExactBillable.drop
  rw [← hfold]
  rfl

theorem exact_dropMissing (rates : ModelRates ℚ) (present : List TokenKey) (b : Billable) :
    (dropMissingSemantics rates present b).exact = exactDropMissingSemantics rates present b.exact := by
  unfold dropMissingSemantics exactDropMissingSemantics
  symm
  apply List.foldl_hom Billable.exact
  intro b key
  split
  · exact (exact_drop b _ _).symm
  · rfl

theorem includedTotal_exact (b : Billable) (included : List TokenKey) :
    includedTotal b.exact.values included = ((included.map fun key => (b.values key).getD 0).sum : ℕ) := by
  rw [includedTotal, ← Nat.coe_castRingHom, map_list_sum, List.map_map]
  refine congrArg List.sum (List.map_congr_left fun key _ => ?_)
  show ((b.values key).map Nat.cast).getD 0 = (((b.values key).getD 0 : ℕ) : ℚ)
  cases b.values key with
  | none => exact Nat.cast_zero.symm
  | some value => rfl

/-- A step for a total on whole numbers. -/
theorem exact_billTotal (rates : ModelRates ℚ) (b : Billable) (total : TokenKey × List TokenKey) :
    (billTotal rates b total).exact = exactBillTotal rates b.exact total := by
  unfold billTotal exactBillTotal includedBreakdowns
  simp only [isSome_exact, ← exact_dropMissing, includedTotal_exact]
  generalize dropMissingSemantics rates _ b = d
  split
  · rfl
  · have hvalue : d.exact.values total.1 = (d.values total.1).map Nat.cast := rfl
    rw [hvalue]
    cases d.values total.1 with
    | none => exact exact_drop d _ _
    | some value =>
      simp only [Option.map_some, Nat.cast_lt]
      split
      · exact exact_drop d _ _
      · rw [exact_set, Option.map_some, Nat.cast_sub (not_lt.mp ‹_›)]

/-- **Whole numbers are billed as exact numbers are.** -/
theorem exactBillableMetrics_natCast (m : MetricsV1) (rates : ModelRates ℚ) :
    exactBillableMetrics (exactMetrics m) rates = (billableMetrics m rates).exact := by
  unfold exactBillableMetrics billableMetrics
  have hstart : (⟨TokenKey.exact (exactMetrics m), []⟩ : ExactBillable) = Billable.exact ⟨TokenKey.metric m, []⟩ := by
    unfold Billable.exact
    congr 1
    funext key
    exact exact_exactMetrics m key
  rw [hstart]
  exact List.foldl_hom Billable.exact fun b total => (exact_billTotal rates b total).symm

end Whole

/-! ### The partition -/

section Guarantees

/-- What pricing guarantees of every record. -/
structure PartitionsTokens (table : RateTable ℚ) (model : Option String) (m : ExactMetrics) : Prop where
  /-- No count is negative. -/
  nonneg : ∀ rates key value, (exactBillableMetrics m rates).values key = some value → 0 ≤ value
  /-- Each total is divided among itself and its breakdowns. -/
  partitions : ∀ rates, ∀ total ∈ tokenTotals,
    Partitions rates (TokenKey.exact m) total.1 total.2 (exactBillableMetrics m rates)
  /-- The estimate depends on the five metrics alone. -/
  billed : ∀ m', (∀ key : TokenKey, key.exact m' = key.exact m) →
    exactEstimateSpanCost model m' (some table) = exactEstimateSpanCost model m (some table)
  /-- At the rates of its model, what a record is billed is estimated. -/
  estimates : ∀ name rates, model = some name → table.models.get? name = some rates →
    Estimates rates (exactBillableMetrics m rates) (exactEstimateSpanCost model m (some table))
  /-- Without them nothing is. -/
  unknown : (∀ name, model = some name → table.models.get? name = none) →
    (exactEstimateSpanCost model m (some table)).status = "unknown" ∧
      (exactEstimateSpanCost model m (some table)).estimatedCost = none

/-- **Pricing divides the tokens of a record.** -/
theorem estimate_partitions (table : RateTable ℚ) (model : Option String) (m : ExactMetrics) :
    PartitionsTokens table model m where
  nonneg _ _ _ := exactBillableMetrics_nonneg
  partitions _ _ := exactBillableMetrics_partitions
  billed m' hm := by
    have hexact : TokenKey.exact m' = TokenKey.exact m := by
      funext key
      exact hm key
    unfold exactEstimateSpanCost exactBillableMetrics
    rw [hexact]
  estimates name rates hmodel hrates := by
    rw [hmodel, exactEstimateSpanCost]
    simp only [hrates]
    exact estimateBillable_spec table name rates _
  unknown hnone := by
    cases model with
    | none => exact ⟨rfl, rfl⟩
    | some name =>
      rw [exactEstimateSpanCost]
      simp only [hnone name rfl]
      exact ⟨rfl, rfl⟩

/-- The breakdowns of a total that are declared to be included in it, there or not. -/
def declaredBreakdowns (rates : ModelRates ℚ) (breakdowns : List TokenKey) : List TokenKey :=
  breakdowns.filter fun key => rates.tokenSemantics key = some .includedInTotal

/-- Pricing by what is declared: a total is divided if all of its declared breakdowns are there and do not exceed it,
and otherwise they are dropped with an error. -/
def DividesDeclared (rates : ModelRates ℚ) (before : TokenKey → Option ℚ) (total : TokenKey)
    (breakdowns : List TokenKey) (after : ExactBillable) : Prop :=
  ∀ value, before total = some value →
    if (∀ key ∈ declaredBreakdowns rates breakdowns, (before key).isSome) ∧
        includedTotal before (declaredBreakdowns rates breakdowns) ≤ value then
      ∃ residual, after.values total = some residual ∧
        residual + includedTotal before (declaredBreakdowns rates breakdowns) = value
    else
      after.values total = some value ∧ (∀ key ∈ declaredBreakdowns rates breakdowns, after.values key = none) ∧
        after.errors ≠ []

/-- The rates of a model whose cached tokens are included in its input. -/
def cachedIncluded : ModelRates ℚ where
  rate key := if key = .inputTokens then some 2 else if key = .cachedInputTokens then some 1 else none
  tokenSemantics key := if key = .cachedInputTokens then some .includedInTotal else none

/-- Without cached tokens in a record, its input is billed whole and without an error. -/
theorem not_dividesDeclared : ¬ ∀ (m : ExactMetrics) (rates : ModelRates ℚ), ∀ total ∈ tokenTotals,
    DividesDeclared rates (TokenKey.exact m) total.1 total.2 (exactBillableMetrics m rates) := by
  intro h
  have hinput := h { inputTokens := some 10 } cachedIncluded
    (.inputTokens, [.cachedInputTokens, .cacheCreationInputTokens]) List.mem_cons_self 10 (by decide +kernel)
  rw [if_neg] at hinput
  · exact hinput.2.2 (by decide +kernel)
  · rintro ⟨hall, -⟩
    exact absurd (hall .cachedInputTokens (by decide)) (by decide)

end Guarantees

end AgentObservability.Report
