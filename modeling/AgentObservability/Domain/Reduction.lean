import AgentObservability.Domain.Span
import AgentObservability.Foundation.PartialJoin
import Mathlib.Data.List.Sort
import Mathlib.Data.String.Basic

/-!
# The reduction is a partial join

What `LifecycleReducer.reduce` does to a whole list of observations. A state is
ordered by what it says: an optional field by being present, a lifecycle by how
far it is, a time range by inclusion. `mergeState` is the join of this order
(`isPartialJoin_mergeState`), and the reducer keeps, for every span, the join of
the observations of this span (`Reduces`). So the states depend on which
observations there are and not on their order, and two observations of a span are
enough to see whether the others conflict.
-/

namespace AgentObservability.Domain

open Foundation

/-! ### What a state says -/

/-- The metrics. -/
inductive Metric where
  /-- `input`. -/
  | input
  /-- `output`. -/
  | output
  /-- `cached_input`. -/
  | cachedInput
  /-- `cache_creation_input`. -/
  | cacheCreationInput
  /-- `reasoning_output`. -/
  | reasoningOutput
  /-- `total`. -/
  | total
  /-- `total_input`. -/
  | totalInput
  /-- `total_output`. -/
  | totalOutput
  /-- `total_cached_input`. -/
  | totalCachedInput
  /-- `total_reasoning_output`. -/
  | totalReasoningOutput
  /-- `total_accumulated`. -/
  | totalAccumulated
  /-- `context_window`. -/
  | contextWindow
  /-- `input_before`. -/
  | inputBefore
  /-- `input_after`. -/
  | inputAfter
  deriving DecidableEq, Repr

/-- The value of a metric. -/
def TokenUsage.get (usage : TokenUsage) : Metric → Option ℕ
  | .input => usage.input
  | .output => usage.output
  | .cachedInput => usage.cachedInput
  | .cacheCreationInput => usage.cacheCreationInput
  | .reasoningOutput => usage.reasoningOutput
  | .total => usage.total
  | .totalInput => usage.totalInput
  | .totalOutput => usage.totalOutput
  | .totalCachedInput => usage.totalCachedInput
  | .totalReasoningOutput => usage.totalReasoningOutput
  | .totalAccumulated => usage.totalAccumulated
  | .contextWindow => usage.contextWindow
  | .inputBefore => usage.inputBefore
  | .inputAfter => usage.inputAfter

/-- The name of a metric in an error. -/
def Metric.field : Metric → String
  | .input => "token_usage.input"
  | .output => "token_usage.output"
  | .cachedInput => "token_usage.cached_input"
  | .cacheCreationInput => "token_usage.cache_creation_input"
  | .reasoningOutput => "token_usage.reasoning_output"
  | .total => "token_usage.total"
  | .totalInput => "token_usage.total_input"
  | .totalOutput => "token_usage.total_output"
  | .totalCachedInput => "token_usage.total_cached_input"
  | .totalReasoningOutput => "token_usage.total_reasoning_output"
  | .totalAccumulated => "token_usage.total_accumulated"
  | .contextWindow => "token_usage.context_window"
  | .inputBefore => "token_usage.input_before"
  | .inputAfter => "token_usage.input_after"

/-- The kinds of correlation id. -/
inductive CorrelationKind where
  /-- `session_id`. -/
  | session
  /-- `turn_id`. -/
  | turn
  /-- `request_id`. -/
  | request
  /-- `operation_id`. -/
  | operation
  /-- `permission_id`. -/
  | permission
  /-- `compaction_id`. -/
  | compaction
  deriving DecidableEq, Repr

/-- The correlation id of a kind. -/
def CorrelationIds.get (ids : CorrelationIds) : CorrelationKind → Option Identifier
  | .session => ids.sessionId
  | .turn => ids.turnId
  | .request => ids.requestId
  | .operation => ids.operationId
  | .permission => ids.permissionId
  | .compaction => ids.compactionId

/-- The name of a correlation id in an error. -/
def CorrelationKind.field : CorrelationKind → String
  | .session => "correlation.session_id"
  | .turn => "correlation.turn_id"
  | .request => "correlation.request_id"
  | .operation => "correlation.operation_id"
  | .permission => "correlation.permission_id"
  | .compaction => "correlation.compaction_id"

theorem TokenUsage.get_surjective : Function.Surjective TokenUsage.get := fun f =>
  ⟨⟨f .input, f .output, f .cachedInput, f .cacheCreationInput, f .reasoningOutput, f .total, f .totalInput,
    f .totalOutput, f .totalCachedInput, f .totalReasoningOutput, f .totalAccumulated, f .contextWindow,
    f .inputBefore, f .inputAfter⟩, funext fun m => by cases m <;> rfl⟩

theorem CorrelationIds.get_surjective : Function.Surjective CorrelationIds.get := fun f =>
  ⟨⟨f .session, f .turn, f .request, f .operation, f .permission, f .compaction⟩, funext fun k => by cases k <;> rfl⟩

theorem TokenUsage.get_injective : Function.Injective TokenUsage.get := by
  intro a b h
  cases a
  cases b
  simp only [TokenUsage.mk.injEq]
  exact ⟨congrFun h .input, congrFun h .output, congrFun h .cachedInput, congrFun h .cacheCreationInput,
    congrFun h .reasoningOutput, congrFun h .total, congrFun h .totalInput, congrFun h .totalOutput,
    congrFun h .totalCachedInput, congrFun h .totalReasoningOutput, congrFun h .totalAccumulated,
    congrFun h .contextWindow, congrFun h .inputBefore, congrFun h .inputAfter⟩

theorem CorrelationIds.get_injective : Function.Injective CorrelationIds.get := by
  intro a b h
  cases a
  cases b
  simp only [CorrelationIds.mk.injEq]
  exact ⟨congrFun h .session, congrFun h .turn, congrFun h .request, congrFun h .operation, congrFun h .permission,
    congrFun h .compaction⟩

/-- The flat order: a present value says more than an absent one. -/
def Flat {α : Type} (a b : Option α) : Prop := ∀ x ∈ a, x ∈ b

/-- No two present values differ. -/
def Agree {α : Type} (a b : Option α) : Prop := ∀ x ∈ a, ∀ y ∈ b, x = y

/-- A terminal lifecycle. -/
def LifecycleState.IsTerminal : LifecycleState → Prop
  | .observed | .running => False
  | .completed | .failed | .interrupted => True

instance : DecidablePred LifecycleState.IsTerminal := fun s => by cases s <;> simp only [LifecycleState.IsTerminal] <;> infer_instance

/-- A lifecycle is at least as far as another. -/
def LifecycleState.Precedes (a b : LifecycleState) : Prop := a = b ∨ a = .observed ∨ a = .running ∧ b ≠ .observed

/-- Two lifecycles are not two different terminals. -/
def LifecycleState.Compatible (a b : LifecycleState) : Prop := a.IsTerminal → b.IsTerminal → a = b

/-- A range is part of another. -/
def Timing.Within (a b : Timing) : Prop :=
  b.startUnixMs ≤ a.startUnixMs ∧ ∀ e ∈ a.endUnixMs, ∃ e' ∈ b.endUnixMs, e ≤ e'

/-- A state says no more than another about a span. -/
structure DomainSpanState.Says (a b : DomainSpanState) : Prop where
  /-- One trace. -/
  traceId : a.traceId = b.traceId
  /-- One kind. -/
  kind : a.kind = b.kind
  /-- One parent. -/
  parentSpanId : a.parentSpanId = b.parentSpanId
  /-- The correlation ids are there. -/
  correlation : ∀ k, Flat (a.correlation.get k) (b.correlation.get k)
  /-- The lifecycle is as far. -/
  lifecycle : a.lifecycle.Precedes b.lifecycle
  /-- The metrics are there. -/
  tokenUsage : ∀ m, Flat (a.tokenUsage.get m) (b.tokenUsage.get m)
  /-- The range is as wide. -/
  timing : a.timing.Within b.timing

/-- Two states of a span are compatible: they have one trace, kind and parent, no two present correlation ids or
metrics differ, and the lifecycles are not two different terminals. -/
structure DomainSpanState.Compatible (a b : DomainSpanState) : Prop where
  /-- One trace. -/
  traceId : a.traceId = b.traceId
  /-- One kind. -/
  kind : a.kind = b.kind
  /-- One parent. -/
  parentSpanId : a.parentSpanId = b.parentSpanId
  /-- No correlation ids differ. -/
  correlation : ∀ k, Agree (a.correlation.get k) (b.correlation.get k)
  /-- The lifecycles are compatible. -/
  lifecycle : a.lifecycle.Compatible b.lifecycle
  /-- No metrics differ. -/
  tokenUsage : ∀ m, Agree (a.tokenUsage.get m) (b.tokenUsage.get m)

/-! ### A merge is a join -/

variable {spanId : SpanId} {field : String}

theorem isPartialJoin_mergeOptional {α : Type} [DecidableEq α] :
    IsPartialJoin Flat Agree fun a b : Option α => mergeOptional a b spanId field where
  refl a x hx := hx
  self a x hx y hy := Option.some.inj (hx.symm.trans hy)
  symm hab x hx y hy := (hab y hy x hx).symm
  isOk_iff a b := by
    cases a with
    | none => cases b <;> simp [mergeOptional, Agree]
    | some a =>
      cases b with
      | none => simp [mergeOptional, Agree]
      | some b =>
        by_cases hab : a = b <;> simp [mergeOptional, Agree, hab]
  le_iff {a b c} h u := by
    cases a with
    | none =>
      cases b <;> simp only [mergeOptional, Except.ok.injEq] at h <;> subst h <;> simp [Flat]
    | some a =>
      cases b with
      | none =>
        simp only [mergeOptional, Except.ok.injEq] at h
        subst h
        simp [Flat]
      | some b =>
        by_cases hab : a = b
        · simp only [mergeOptional, hab, ne_eq, not_true_eq_false, if_false, Except.ok.injEq] at h
          subst h hab
          simp [Flat]
        · simp [mergeOptional, hab] at h
  compatible_iff {a b c} h d := by
    cases a with
    | none =>
      cases b <;> simp only [mergeOptional, Except.ok.injEq] at h <;> subst h <;> simp [Agree]
    | some a =>
      cases b with
      | none =>
        simp only [mergeOptional, Except.ok.injEq] at h
        subst h
        simp [Agree]
      | some b =>
        by_cases hab : a = b
        · simp only [mergeOptional, hab, ne_eq, not_true_eq_false, if_false, Except.ok.injEq] at h
          subst h hab
          simp [Agree]
        · simp [mergeOptional, hab] at h

theorem mergeMetrics_eq_ok {a b c : TokenUsage} : mergeMetrics a b spanId = .ok c ↔
    ∀ m, mergeOptional (a.get m) (b.get m) spanId m.field = .ok (c.get m) := by
  simp only [mergeMetrics, bind_eq_ok, pure_eq_ok]
  constructor
  · rintro ⟨_, h1, _, h2, _, h3, _, h4, _, h5, _, h6, _, h7, _, h8, _, h9, _, h10, _, h11, _, h12, _, h13, _, h14, rfl⟩ m
    cases m <;> assumption
  · intro h
    exact ⟨_, h .input, _, h .output, _, h .cachedInput, _, h .cacheCreationInput, _, h .reasoningOutput, _, h .total,
      _, h .totalInput, _, h .totalOutput, _, h .totalCachedInput, _, h .totalReasoningOutput, _, h .totalAccumulated,
      _, h .contextWindow, _, h .inputBefore, _, h .inputAfter, rfl⟩

theorem mergeCorrelation_eq_ok {a b c : CorrelationIds} : mergeCorrelation a b spanId = .ok c ↔
    ∀ k, mergeOptional (a.get k) (b.get k) spanId k.field = .ok (c.get k) := by
  simp only [mergeCorrelation, bind_eq_ok, pure_eq_ok]
  constructor
  · rintro ⟨_, h1, _, h2, _, h3, _, h4, _, h5, _, h6, rfl⟩ k
    cases k <;> assumption
  · intro h
    exact ⟨_, h .session, _, h .turn, _, h .request, _, h .operation, _, h .permission, _, h .compaction, rfl⟩

theorem isPartialJoin_mergeMetrics : IsPartialJoin (fun a b : TokenUsage => ∀ m, Flat (a.get m) (b.get m))
    (fun a b => ∀ m, Agree (a.get m) (b.get m)) fun a b => mergeMetrics a b spanId :=
  .fields TokenUsage.get_surjective (fun _ => isPartialJoin_mergeOptional) fun _ _ _ => mergeMetrics_eq_ok

theorem isPartialJoin_mergeCorrelation : IsPartialJoin (fun a b : CorrelationIds => ∀ k, Flat (a.get k) (b.get k))
    (fun a b => ∀ k, Agree (a.get k) (b.get k)) fun a b => mergeCorrelation a b spanId :=
  .fields CorrelationIds.get_surjective (fun _ => isPartialJoin_mergeOptional) fun _ _ _ => mergeCorrelation_eq_ok

theorem isPartialJoin_mergeLifecycle : IsPartialJoin LifecycleState.Precedes LifecycleState.Compatible
    fun a b => mergeLifecycle a b spanId where
  refl a := Or.inl rfl
  self a _ _ := rfl
  symm h ha hb := (h hb ha).symm
  isOk_iff a b := by
    cases a <;> cases b <;> simp [mergeLifecycle, LifecycleState.Compatible, LifecycleState.IsTerminal]
  le_iff {a b c} h u := by
    cases a <;> cases b <;> simp only [mergeLifecycle, if_true, reduceCtorEq, if_false, Except.ok.injEq] at h <;>
      subst h <;> simp [LifecycleState.Precedes] <;> cases u <;> simp
  compatible_iff {a b c} h d := by
    cases a <;> cases b <;> simp only [mergeLifecycle, if_true, reduceCtorEq, if_false, Except.ok.injEq] at h <;>
      subst h <;> simp [LifecycleState.Compatible, LifecycleState.IsTerminal]

theorem mergeTiming_within_iff {a b u : Timing} : (mergeTiming a b).Within u ↔ a.Within u ∧ b.Within u := by
  obtain ⟨sa, ea⟩ := a
  obtain ⟨sb, eb⟩ := b
  obtain ⟨su, eu⟩ := u
  cases ea <;> cases eb <;> cases eu <;> simp [Timing.Within, mergeTiming] <;> omega

/-- A merge of ranges that end after they start is such a range. -/
theorem mergeTiming_reversed {a b : Timing} (ha : a.reversed = false) (hb : b.reversed = false) :
    (mergeTiming a b).reversed = false := by
  obtain ⟨sa, ea⟩ := a
  obtain ⟨sb, eb⟩ := b
  simp only [Timing.reversed, mergeTiming] at ha hb ⊢
  cases ea with
  | none =>
    cases eb with
    | none => rfl
    | some eb =>
      have := of_decide_eq_false hb
      exact decide_eq_false (by omega)
  | some ea =>
    cases eb with
    | none =>
      have := of_decide_eq_false ha
      exact decide_eq_false (by omega)
    | some eb =>
      have := of_decide_eq_false ha
      have := of_decide_eq_false hb
      exact decide_eq_false (by omega)

theorem mergeState_eq_ok {existing incoming merged : DomainSpanState} :
    mergeState existing incoming = .ok merged ↔ Merged existing incoming merged := by
  refine ⟨mergeState_ok, fun h => ?_⟩
  rw [mergeState, if_neg (not_not.mpr h.traceId), if_neg (not_not.mpr h.kind), if_neg (not_not.mpr h.parentSpanId),
    h.correlation, h.lifecycle, h.tokenUsage]
  exact congrArg Except.ok h.eq.symm

/-- **The merge of states is the join of what they say.** -/
theorem isPartialJoin_mergeState : IsPartialJoin DomainSpanState.Says DomainSpanState.Compatible mergeState where
  refl a :=
    { traceId := rfl, kind := rfl, parentSpanId := rfl, correlation := fun _ _ hx => hx, lifecycle := Or.inl rfl
      tokenUsage := fun _ _ hx => hx, timing := ⟨Nat.le_refl _, fun e he => ⟨e, he, Nat.le_refl _⟩⟩ }
  self a :=
    { traceId := rfl, kind := rfl, parentSpanId := rfl
      correlation := (@isPartialJoin_mergeCorrelation a.spanId).self _
      lifecycle := fun _ _ => rfl
      tokenUsage := (@isPartialJoin_mergeMetrics a.spanId).self _ }
  symm h :=
    { traceId := h.traceId.symm, kind := h.kind.symm, parentSpanId := h.parentSpanId.symm
      correlation := fun k x hx y hy => (h.correlation k y hy x hx).symm
      lifecycle := fun ha hb => (h.lifecycle hb ha).symm
      tokenUsage := fun m x hx y hy => (h.tokenUsage m y hy x hx).symm }
  isOk_iff a b := by
    constructor
    · rintro ⟨c, hc⟩
      have h := mergeState_ok hc
      exact
        { traceId := h.traceId, kind := h.kind, parentSpanId := h.parentSpanId
          correlation := (isPartialJoin_mergeCorrelation.isOk_iff _ _).mp ⟨_, h.correlation⟩
          lifecycle := (isPartialJoin_mergeLifecycle.isOk_iff _ _).mp ⟨_, h.lifecycle⟩
          tokenUsage := (isPartialJoin_mergeMetrics.isOk_iff _ _).mp ⟨_, h.tokenUsage⟩ }
    · intro h
      obtain ⟨correlation, hc⟩ := (isPartialJoin_mergeCorrelation.isOk_iff _ _).mpr h.correlation
      obtain ⟨lifecycle, hl⟩ := (isPartialJoin_mergeLifecycle.isOk_iff _ _).mpr h.lifecycle
      obtain ⟨tokenUsage, ht⟩ := (isPartialJoin_mergeMetrics.isOk_iff _ _).mpr h.tokenUsage
      exact ⟨{ a with correlation, lifecycle, timing := mergeTiming a.timing b.timing, tokenUsage },
        mergeState_eq_ok.mpr ⟨h.traceId, h.kind, h.parentSpanId, hc, hl, ht, rfl⟩⟩
  le_iff {a b c} hc u := by
    have h := mergeState_ok hc
    have hcor := isPartialJoin_mergeCorrelation.le_iff h.correlation u.correlation
    have hlif := isPartialJoin_mergeLifecycle.le_iff h.lifecycle u.lifecycle
    have htok := isPartialJoin_mergeMetrics.le_iff h.tokenUsage u.tokenUsage
    have htim : c.timing.Within u.timing ↔ a.timing.Within u.timing ∧ b.timing.Within u.timing := by
      rw [h.eq]
      exact mergeTiming_within_iff
    have htrace : c.traceId = a.traceId := by rw [h.eq]
    have hkind : c.kind = a.kind := by rw [h.eq]
    have hparent : c.parentSpanId = a.parentSpanId := by rw [h.eq]
    constructor
    · intro hu
      exact
        ⟨{ traceId := htrace.symm.trans hu.traceId, kind := hkind.symm.trans hu.kind
           parentSpanId := hparent.symm.trans hu.parentSpanId, correlation := (hcor.mp hu.correlation).1
           lifecycle := (hlif.mp hu.lifecycle).1, tokenUsage := (htok.mp hu.tokenUsage).1
           timing := (htim.mp hu.timing).1 },
         { traceId := (h.traceId.symm.trans htrace.symm).trans hu.traceId
           kind := (h.kind.symm.trans hkind.symm).trans hu.kind
           parentSpanId := (h.parentSpanId.symm.trans hparent.symm).trans hu.parentSpanId
           correlation := (hcor.mp hu.correlation).2
           lifecycle := (hlif.mp hu.lifecycle).2, tokenUsage := (htok.mp hu.tokenUsage).2
           timing := (htim.mp hu.timing).2 }⟩
    · rintro ⟨ha, hb⟩
      exact
        { traceId := htrace.trans ha.traceId, kind := hkind.trans ha.kind
          parentSpanId := hparent.trans ha.parentSpanId
          correlation := hcor.mpr ⟨ha.correlation, hb.correlation⟩
          lifecycle := hlif.mpr ⟨ha.lifecycle, hb.lifecycle⟩
          tokenUsage := htok.mpr ⟨ha.tokenUsage, hb.tokenUsage⟩, timing := htim.mpr ⟨ha.timing, hb.timing⟩ }
  compatible_iff {a b c} hc d := by
    have h := mergeState_ok hc
    have hcor := isPartialJoin_mergeCorrelation.compatible_iff h.correlation d.correlation
    have hlif := isPartialJoin_mergeLifecycle.compatible_iff h.lifecycle d.lifecycle
    have htok := isPartialJoin_mergeMetrics.compatible_iff h.tokenUsage d.tokenUsage
    have htrace : c.traceId = a.traceId := by rw [h.eq]
    have hkind : c.kind = a.kind := by rw [h.eq]
    have hparent : c.parentSpanId = a.parentSpanId := by rw [h.eq]
    constructor
    · intro hd
      exact
        ⟨{ traceId := htrace.symm.trans hd.traceId, kind := hkind.symm.trans hd.kind
           parentSpanId := hparent.symm.trans hd.parentSpanId, correlation := (hcor.mp hd.correlation).1
           lifecycle := (hlif.mp hd.lifecycle).1, tokenUsage := (htok.mp hd.tokenUsage).1 },
         { traceId := (h.traceId.symm.trans htrace.symm).trans hd.traceId
           kind := (h.kind.symm.trans hkind.symm).trans hd.kind
           parentSpanId := (h.parentSpanId.symm.trans hparent.symm).trans hd.parentSpanId
           correlation := (hcor.mp hd.correlation).2
           lifecycle := (hlif.mp hd.lifecycle).2, tokenUsage := (htok.mp hd.tokenUsage).2 }⟩
    · rintro ⟨ha, hb⟩
      exact
        { traceId := htrace.trans ha.traceId, kind := hkind.trans ha.kind
          parentSpanId := hparent.trans ha.parentSpanId
          correlation := hcor.mpr ⟨ha.correlation, hb.correlation⟩
          lifecycle := hlif.mpr ⟨ha.lifecycle, hb.lifecycle⟩
          tokenUsage := htok.mpr ⟨ha.tokenUsage, hb.tokenUsage⟩ }

/-- Two states of a span that say the same are the same. -/
theorem DomainSpanState.Says.antisymm {a b : DomainSpanState} (hs : a.spanId = b.spanId) (hab : a.Says b)
    (hba : b.Says a) : a = b := by
  have hflat : ∀ {α : Type} {x y : Option α}, Flat x y → Flat y x → x = y := fun hxy hyx =>
    Option.ext fun i => ⟨hxy i, hyx i⟩
  have hlifecycle : a.lifecycle = b.lifecycle := by
    have h := hab.lifecycle
    have h' := hba.lifecycle
    revert h h'
    cases a.lifecycle <;> cases b.lifecycle <;> simp [LifecycleState.Precedes]
  have htiming : a.timing = b.timing := by
    have hstart := Nat.le_antisymm hba.timing.1 hab.timing.1
    have hend : a.timing.endUnixMs = b.timing.endUnixMs := by
      obtain ⟨-, h⟩ := hab.timing
      obtain ⟨-, h'⟩ := hba.timing
      refine Option.ext fun e => ⟨fun he => ?_, fun he => ?_⟩
      · obtain ⟨e', he', hle⟩ := h e he
        obtain ⟨e'', he'', hle'⟩ := h' e' he'
        have : e'' = e := Option.some.inj (he''.symm.trans he)
        rwa [show e = e' by omega]
      · obtain ⟨e', he', hle⟩ := h' e he
        obtain ⟨e'', he'', hle'⟩ := h e' he'
        have : e'' = e := Option.some.inj (he''.symm.trans he)
        rwa [show e = e' by omega]
    exact Timing.mk.injEq .. ▸ ⟨hstart, hend⟩
  have hcorrelation : a.correlation = b.correlation := CorrelationIds.get_injective
    (funext fun k => hflat (hab.correlation k) (hba.correlation k))
  have htokens : a.tokenUsage = b.tokenUsage := TokenUsage.get_injective
    (funext fun m => hflat (hab.tokenUsage m) (hba.tokenUsage m))
  cases a
  cases b
  simp only [DomainSpanState.mk.injEq]
  exact ⟨hab.traceId, hs, hab.parentSpanId, hab.kind, hlifecycle, hcorrelation, htiming, htokens⟩

/-! ### The states of a reducer -/

namespace LifecycleReducer

/-- The states stand in the order of their span ids. -/
def Sorted (states : LifecycleReducer) : Prop := states.Pairwise fun a b => a.spanId.asStr < b.spanId.asStr

variable {states states' : LifecycleReducer} {observation : DomainSpanState}

/-- The state of the span takes the observation, and the others stay. -/
def mergeInto (observation merged : DomainSpanState) (states : LifecycleReducer) : LifecycleReducer :=
  states.map fun state => if state.spanId = observation.spanId then merged else state

theorem mergeInto_cons (merged state : DomainSpanState) (states : LifecycleReducer) :
    mergeInto observation merged (state :: states) =
      (if state.spanId = observation.spanId then merged else state) :: mergeInto observation merged states := rfl

theorem place_known (hs : states.Sorted) {state : DomainSpanState} (hmem : state ∈ states)
    (hspan : state.spanId = observation.spanId) :
    place observation states = (mergeState state observation).map (mergeInto observation · states) := by
  induction states with
  | nil => cases hmem
  | cons first rest ih =>
    obtain ⟨hfirst, hrest⟩ := List.pairwise_cons.mp hs
    unfold place
    rcases List.mem_cons.mp hmem with rfl | hmem
    · have hkeep : ∀ merged, mergeInto observation merged rest = rest := fun merged => by
        refine (List.map_congr_left fun s hs => if_neg fun he => ?_).trans (List.map_id rest)
        have hlt := hfirst s hs
        rw [he, ← hspan] at hlt
        exact lt_irrefl _ hlt
      rw [if_pos hspan]
      cases mergeState state observation with
      | error e => rfl
      | ok merged => simp only [Except.map, mergeInto_cons, if_pos hspan, hkeep]
    · have hlt := hfirst state hmem
      rw [hspan] at hlt
      have hne : first.spanId ≠ observation.spanId := fun he => by
        rw [he] at hlt
        exact lt_irrefl _ hlt
      rw [if_neg hne, if_neg (lt_asymm hlt), ih hrest hmem]
      cases mergeState state observation with
      | error e => rfl
      | ok merged => simp only [Except.map, mergeInto_cons, if_neg hne]

theorem place_new (hs : states.Sorted) (hnew : ∀ state ∈ states, state.spanId ≠ observation.spanId) :
    ∃ states', place observation states = .ok states' ∧ states'.Sorted ∧
      ∀ state, state ∈ states' ↔ state = observation ∨ state ∈ states := by
  induction states with
  | nil => exact ⟨_, rfl, List.pairwise_singleton _ _, by simp⟩
  | cons first rest ih =>
    obtain ⟨hfirst, hrest⟩ := List.pairwise_cons.mp hs
    obtain ⟨hne, hnew⟩ := List.forall_mem_cons.mp hnew
    unfold place
    rw [if_neg hne]
    by_cases hlt : observation.spanId.asStr < first.spanId.asStr
    · rw [if_pos hlt]
      refine ⟨_, rfl, List.pairwise_cons.mpr ⟨fun s hs' => ?_, hs⟩, by simp⟩
      rcases List.mem_cons.mp hs' with rfl | hs'
      · exact hlt
      · exact lt_trans hlt (hfirst s hs')
    · rw [if_neg hlt]
      obtain ⟨states', hplace, hsorted, hmem⟩ := ih hrest hnew
      have hgt : first.spanId.asStr < observation.spanId.asStr :=
        lt_of_le_of_ne (not_lt.mp hlt) fun he => hne (Identifier.ext he)
      refine ⟨first :: states', by rw [hplace]; rfl, List.pairwise_cons.mpr ⟨fun s hs' => ?_, hsorted⟩, fun s => ?_⟩
      · rcases (hmem s).mp hs' with rfl | hs'
        · exact hgt
        · exact hfirst s hs'
      · rw [List.mem_cons, hmem, List.mem_cons]
        exact or_left_comm

/-- **What a reducer holds of the observations it was given.** -/
structure Reduces (observations : List DomainSpanState) (states : LifecycleReducer) : Prop where
  /-- The states are in order. -/
  sorted : states.Sorted
  /-- There is one for each span. -/
  span : ∀ i, (∃ state ∈ states, state.spanId = i) ↔ ∃ o ∈ observations, o.spanId = i
  /-- It is the join of the observations of the span. -/
  join : ∀ state ∈ states, JoinOf DomainSpanState.Says DomainSpanState.Compatible
    (fun o => o ∈ observations ∧ o.spanId = state.spanId) state
  /-- It does not end before it starts. -/
  ordered : ∀ state ∈ states, state.timing.reversed = false

/-- Observations that can be reduced: none ends before it starts, and those of one span are compatible two by two. -/
structure Reducible (observations : List DomainSpanState) : Prop where
  /-- None ends before it starts. -/
  ordered : ∀ o ∈ observations, o.timing.reversed = false
  /-- Those of one span are compatible. -/
  compatible : ∀ a ∈ observations, ∀ b ∈ observations, a.spanId = b.spanId → a.Compatible b

variable {observations observations' : List DomainSpanState}

theorem reduces_nil : Reduces [] [] where
  sorted := List.Pairwise.nil
  span := by simp
  join := by simp
  ordered := by simp

/-- The state of a span. -/
theorem Sorted.eq_of_spanId (hs : states.Sorted) {a b : DomainSpanState} (ha : a ∈ states) (hb : b ∈ states)
    (h : a.spanId = b.spanId) : a = b := by
  by_contra hne
  have hirrefl : ∀ x : DomainSpanState, ¬ x.spanId.asStr < x.spanId.asStr := fun x => lt_irrefl _
  rcases List.pairwise_iff_getElem.mp hs with hget
  obtain ⟨i, hi, rfl⟩ := List.getElem_of_mem ha
  obtain ⟨j, hj, rfl⟩ := List.getElem_of_mem hb
  rcases lt_trichotomy i j with hij | rfl | hij
  · have := hget i j hi hj hij
    rw [h] at this
    exact lt_irrefl _ this
  · exact hne rfl
  · have := hget j i hj hi hij
    rw [h] at this
    exact lt_irrefl _ this

/-- The observations of a new span are the observation alone. -/
theorem Reduces.join_new (h : Reduces observations states)
    (hnew : ∀ state ∈ states, state.spanId ≠ observation.spanId) :
    ∀ o ∈ observations, o.spanId ≠ observation.spanId := by
  intro o ho he
  obtain ⟨state, hstate, hspan⟩ := (h.span o.spanId).mpr ⟨o, ho, rfl⟩
  exact hnew state hstate (hspan.trans he)

/-- One more observation of a new span. -/
theorem Reduces.add (h : Reduces observations states) (ho : observation.timing.reversed = false)
    (hnew : ∀ state ∈ states, state.spanId ≠ observation.spanId) (hsorted : states'.Sorted)
    (hmem : ∀ state, state ∈ states' ↔ state = observation ∨ state ∈ states) :
    Reduces (observations ++ [observation]) states' where
  sorted := hsorted
  span i := by
    simp only [hmem, List.mem_append, List.mem_singleton, or_and_right, exists_or, exists_eq_left, h.span]
    exact or_comm
  join state hstate := by
    rcases (hmem state).mp hstate with rfl | hstate
    · refine (joinOf_eq state).congr fun x => ?_
      rw [List.mem_append, List.mem_singleton]
      constructor
      · rintro rfl
        exact ⟨Or.inr rfl, rfl⟩
      · rintro ⟨hx | rfl, hspan⟩
        · exact absurd hspan (h.join_new hnew x hx)
        · rfl
    · refine (h.join state hstate).congr fun x => ?_
      rw [List.mem_append, List.mem_singleton]
      constructor
      · exact fun hx => ⟨Or.inl hx.1, hx.2⟩
      · rintro ⟨hx | rfl, hspan⟩
        · exact ⟨hx, hspan⟩
        · exact absurd hspan.symm (hnew state hstate)
  ordered state hstate := by
    rcases (hmem state).mp hstate with rfl | hstate
    · exact ho
    · exact h.ordered state hstate

/-- One more observation of a known span. -/
theorem Reduces.merge (h : Reduces observations states) (ho : observation.timing.reversed = false)
    {state merged : DomainSpanState} (hstate : state ∈ states) (hspan : state.spanId = observation.spanId)
    (hm : mergeState state observation = .ok merged) :
    Reduces (observations ++ [observation]) (mergeInto observation merged states) := by
  have hmerged := mergeState_ok hm
  have hid : merged.spanId = state.spanId := by rw [hmerged.eq]
  have hmem : ∀ x, x ∈ mergeInto observation merged states ↔
      x = merged ∨ x ∈ states ∧ x.spanId ≠ observation.spanId := by
    intro x
    simp only [mergeInto, List.mem_map]
    constructor
    · rintro ⟨y, hy, rfl⟩
      by_cases hys : y.spanId = observation.spanId
      · exact Or.inl (if_pos hys)
      · rw [if_neg hys]
        exact Or.inr ⟨hy, hys⟩
    · rintro (rfl | ⟨hx, hne⟩)
      · exact ⟨state, hstate, if_pos hspan⟩
      · exact ⟨x, hx, if_neg hne⟩
  refine { sorted := ?_, span := fun i => ?_, join := fun x hx => ?_, ordered := fun x hx => ?_ }
  · have hkey : ∀ y : DomainSpanState, (if y.spanId = observation.spanId then merged else y).spanId = y.spanId := by
      intro y
      split
      · rename_i hy
        rw [hid, hspan, hy]
      · rfl
    refine List.pairwise_map.mpr (h.sorted.imp fun {a b} hab => ?_)
    rwa [hkey, hkey]
  · constructor
    · rintro ⟨x, hx, rfl⟩
      rcases (hmem x).mp hx with rfl | ⟨hx, -⟩
      · exact ⟨observation, by simp, (hid.trans hspan).symm⟩
      · obtain ⟨o, ho, hos⟩ := (h.span x.spanId).mp ⟨x, hx, rfl⟩
        exact ⟨o, List.mem_append_left _ ho, hos⟩
    · rintro ⟨o, ho, rfl⟩
      by_cases hos : o.spanId = observation.spanId
      · exact ⟨merged, (hmem _).mpr (Or.inl rfl), hid.trans (hspan.trans hos.symm)⟩
      · rcases List.mem_append.mp ho with ho | ho
        · obtain ⟨x, hx, hxs⟩ := (h.span o.spanId).mpr ⟨o, ho, rfl⟩
          exact ⟨x, (hmem x).mpr (Or.inr ⟨hx, hxs ▸ hos⟩), hxs⟩
        · exact absurd (congrArg DomainSpanState.spanId (List.mem_singleton.mp ho)) hos
  · rcases (hmem x).mp hx with rfl | ⟨hx, hne⟩
    · refine ((h.join state hstate).merged isPartialJoin_mergeState (joinOf_eq observation) hm).congr fun o => ?_
      rw [List.mem_append, List.mem_singleton, hid]
      constructor
      · rintro (⟨ho, hos⟩ | rfl)
        · exact ⟨Or.inl ho, hos⟩
        · exact ⟨Or.inr rfl, hspan.symm⟩
      · rintro ⟨ho | rfl, hos⟩
        · exact Or.inl ⟨ho, hos⟩
        · exact Or.inr rfl
    · refine (h.join x hx).congr fun o => ?_
      rw [List.mem_append, List.mem_singleton]
      constructor
      · exact fun ho => ⟨Or.inl ho.1, ho.2⟩
      · rintro ⟨ho | rfl, hos⟩
        · exact ⟨ho, hos⟩
        · exact absurd hos.symm hne
  · rcases (hmem x).mp hx with rfl | ⟨hx, -⟩
    · rw [hmerged.eq]
      exact mergeTiming_reversed (h.ordered state hstate) ho
    · exact h.ordered x hx

/-! ### A reduction of a list -/

/-- What the reducer accepts is compatible with what it was given, and is added. -/
theorem Reduces.observe_ok (h : Reduces observations states) (hr : observe states observation = .ok states') :
    Reduces (observations ++ [observation]) states' ∧ observation.timing.reversed = false ∧
      ∀ o ∈ observations, o.spanId = observation.spanId → o.Compatible observation := by
  unfold observe at hr
  split at hr
  · cases hr
  rename_i ho
  replace ho := Bool.eq_false_iff.mpr ho
  by_cases hknown : ∃ state ∈ states, state.spanId = observation.spanId
  · obtain ⟨state, hstate, hspan⟩ := hknown
    rw [place_known h.sorted hstate hspan] at hr
    obtain ⟨merged, hm, rfl⟩ := map_eq_ok.mp hr
    refine ⟨h.merge ho hstate hspan hm, ho, fun o hmem hos => ?_⟩
    exact (h.join state hstate).compatible_of_merge isPartialJoin_mergeState hm ⟨hmem, hos.trans hspan.symm⟩
  · have hnew : ∀ state ∈ states, state.spanId ≠ observation.spanId := fun s hs he => hknown ⟨s, hs, he⟩
    obtain ⟨_, hplace, hsorted, hmem⟩ := place_new h.sorted hnew
    obtain rfl := Except.ok.inj (hplace.symm.trans hr)
    exact ⟨h.add ho hnew hsorted hmem, ho, fun o hmem hos => absurd hos (h.join_new hnew o hmem)⟩

/-- The reducer accepts what is compatible with what it was given. -/
theorem Reduces.exists_observe (h : Reduces observations states) (ho : observation.timing.reversed = false)
    (hc : ∀ o ∈ observations, o.spanId = observation.spanId → o.Compatible observation) :
    ∃ states', observe states observation = .ok states' := by
  rw [observe, ho, if_neg Bool.false_ne_true]
  by_cases hknown : ∃ state ∈ states, state.spanId = observation.spanId
  · obtain ⟨state, hstate, hspan⟩ := hknown
    obtain ⟨merged, hm⟩ := (h.join state hstate).exists_merge isPartialJoin_mergeState
      fun o hmem => hc o hmem.1 (hmem.2.trans hspan)
    exact ⟨_, by rw [place_known h.sorted hstate hspan, hm]; rfl⟩
  · obtain ⟨states', hplace, -⟩ := place_new h.sorted fun s hs he => hknown ⟨s, hs, he⟩
    exact ⟨states', hplace⟩

theorem Reducible.append (h : Reducible observations) (ho : observation.timing.reversed = false)
    (hc : ∀ o ∈ observations, o.spanId = observation.spanId → o.Compatible observation) :
    Reducible (observations ++ [observation]) where
  ordered o hmem := by
    rcases List.mem_append.mp hmem with hmem | hmem
    · exact h.ordered o hmem
    · rwa [List.mem_singleton.mp hmem]
  compatible a ha b hb hab := by
    simp only [List.mem_append, List.mem_singleton] at ha hb
    rcases ha with ha | rfl <;> rcases hb with hb | rfl
    · exact h.compatible a ha b hb hab
    · exact hc a ha hab
    · exact isPartialJoin_mergeState.symm (hc b hb hab.symm)
    · exact isPartialJoin_mergeState.self _

theorem Reducible.of_subset (h : Reducible observations) (hs : ∀ o ∈ observations', o ∈ observations) :
    Reducible observations' :=
  ⟨fun o ho => h.ordered o (hs o ho), fun a ha b hb => h.compatible a (hs a ha) b (hs b hb)⟩

/-- A run of the reducer over more observations. -/
theorem Reduces.foldlM_ok {rest : List DomainSpanState} : ∀ {observations states}, Reduces observations states →
    Reducible observations → rest.foldlM observe states = .ok states' →
    Reduces (observations ++ rest) states' ∧ Reducible (observations ++ rest) := by
  induction rest with
  | nil =>
    intro observations states h hl hr
    obtain rfl := Except.ok.inj hr
    rw [List.append_nil]
    exact ⟨h, hl⟩
  | cons o rest ih =>
    intro observations states h hl hr
    rw [List.foldlM_cons, bind_eq_ok] at hr
    obtain ⟨next, hnext, hr⟩ := hr
    obtain ⟨h', ho, hc⟩ := h.observe_ok hnext
    rw [← List.singleton_append, ← List.append_assoc]
    exact ih h' (hl.append ho hc) hr

theorem Reduces.exists_foldlM {rest : List DomainSpanState} : ∀ {observations states}, Reduces observations states →
    Reducible (observations ++ rest) → ∃ states', rest.foldlM observe states = .ok states' := by
  induction rest with
  | nil => exact fun {_ states} _ _ => ⟨states, rfl⟩
  | cons o rest ih =>
    intro observations states h hl
    obtain ⟨next, hnext⟩ : ∃ next, observe states o = .ok next :=
      h.exists_observe (hl.ordered o (by simp)) fun x hx => hl.compatible x (List.mem_append_left _ hx) o (by simp)
    rw [← List.singleton_append, ← List.append_assoc] at hl
    obtain ⟨states', hr⟩ := ih (h.observe_ok hnext).1 hl
    exact ⟨states', by rw [List.foldlM_cons, hnext]; exact hr⟩

/-- **The states depend on which observations there are, and on nothing else.** -/
theorem Reduces.unique (h : Reduces observations states) (h' : Reduces observations' states')
    (hmem : ∀ o, o ∈ observations ↔ o ∈ observations') : states = states' := by
  have : Std.Irrefl fun a b : DomainSpanState => a.spanId.asStr < b.spanId.asStr := ⟨fun a => lt_irrefl _⟩
  have : Std.Antisymm fun a b : DomainSpanState => a.spanId.asStr < b.spanId.asStr :=
    ⟨fun _ _ hab hba => absurd hab (lt_asymm hba)⟩
  have hsub : ∀ {l l' s s'}, Reduces l s → Reduces l' s' → (∀ o, o ∈ l ↔ o ∈ l') → ∀ a ∈ s, a ∈ s' := by
    intro l l' s s' h h' hmem a ha
    obtain ⟨o, ho, hos⟩ := (h.span a.spanId).mp ⟨a, ha, rfl⟩
    obtain ⟨b, hb, hba⟩ := (h'.span a.spanId).mpr ⟨o, (hmem o).mp ho, hos⟩
    have hrefl := isPartialJoin_mergeState.refl
    have hab : a.Says b := (h.join a ha).le_of_imp hrefl (h'.join b hb) fun x hx =>
      ⟨(hmem x).mp hx.1, hx.2.trans hba.symm⟩
    have hba' : b.Says a := (h'.join b hb).le_of_imp hrefl (h.join a ha) fun x hx =>
      ⟨(hmem x).mpr hx.1, hx.2.trans hba⟩
    exact hab.antisymm hba.symm hba' ▸ hb
  exact List.Pairwise.eq_of_mem_iff h.sorted h'.sorted fun a =>
    ⟨hsub h h' hmem a, hsub h' h (fun o => (hmem o).symm) a⟩

/-- **A reduction gives the join of the observations of every span, if there is one.** -/
theorem reduce_eq_ok : reduce observations = .ok states ↔ Reduces observations states ∧ Reducible observations := by
  constructor
  · exact fun h => reduces_nil.foldlM_ok ⟨by simp, by simp⟩ h
  · rintro ⟨h, hl⟩
    obtain ⟨states', hr⟩ : ∃ states', reduce observations = .ok states' := reduces_nil.exists_foldlM hl
    rw [(reduces_nil.foldlM_ok ⟨by simp, by simp⟩ hr).1.unique h fun _ => Iff.rfl] at hr
    exact hr

theorem exists_reduce (hl : Reducible observations) : ∃ states, reduce observations = .ok states :=
  reduces_nil.exists_foldlM hl

/-- A list with the same observations is reduced to the same states. -/
theorem reduce_congr (h : reduce observations = .ok states) (hmem : ∀ o, o ∈ observations' ↔ o ∈ observations) :
    reduce observations' = .ok states := by
  obtain ⟨hr, hl⟩ := reduce_eq_ok.mp h
  obtain ⟨states', h'⟩ := exists_reduce (hl.of_subset fun o => (hmem o).mp)
  rw [h', (reduce_eq_ok.mp h').1.unique hr hmem]

/-- What holds of the state of a span when it holds of all the observations of the span. -/
theorem Reduces.forall_iff (h : Reduces observations states) {P : DomainSpanState → Prop} {i : SpanId}
    (hP : ∀ state ∈ states, P state ↔ ∀ o, o ∈ observations ∧ o.spanId = state.spanId → P o) :
    (∀ state ∈ states, state.spanId = i → P state) ↔ ∀ o ∈ observations, o.spanId = i → P o := by
  constructor
  · intro hs o ho hi
    obtain ⟨state, hstate, hspan⟩ := (h.span i).mpr ⟨o, ho, hi⟩
    exact (hP state hstate).mp (hs state hstate hspan) o ⟨ho, hi.trans hspan.symm⟩
  · intro ho state hstate hspan
    exact (hP state hstate).mpr fun o hmem => ho o hmem.1 (hmem.2.trans hspan)

/-- The states of a prefix stand for it. -/
theorem reduce_prefix {before after : List DomainSpanState} (h : reduce (before ++ after) = .ok states) :
    ∃ first, reduce before = .ok first ∧ reduce (first ++ after) = .ok states := by
  obtain ⟨hr, hl⟩ := reduce_eq_ok.mp h
  obtain ⟨first, hfirst⟩ := exists_reduce (hl.of_subset fun o ho => List.mem_append_left after ho)
  obtain ⟨hf, -⟩ := reduce_eq_ok.mp hfirst
  have hsplit : ∀ {l : List DomainSpanState} {P : DomainSpanState → Prop} {i : SpanId},
      (∀ o, o ∈ l ++ after ∧ o.spanId = i → P o) ↔
        (∀ o ∈ l, o.spanId = i → P o) ∧ ∀ o ∈ after, o.spanId = i → P o := by
    intro l P i
    simp only [List.mem_append, or_and_right, or_imp, forall_and, and_imp]
  refine ⟨first, hfirst, reduce_eq_ok.mpr ⟨?_, ?_⟩⟩
  · refine { sorted := hr.sorted, span := fun i => ?_, join := fun state hstate => ⟨fun u => ?_, fun d => ?_⟩,
             ordered := hr.ordered }
    · simp only [hr.span, List.mem_append, or_and_right, exists_or, hf.span]
    · rw [(hr.join state hstate).le_iff u, hsplit, hsplit, hf.forall_iff fun s hs => (hf.join s hs).le_iff u]
    · rw [(hr.join state hstate).compatible_iff d, hsplit, hsplit,
        hf.forall_iff fun s hs => (hf.join s hs).compatible_iff d]
  · have hacross : ∀ a ∈ first, ∀ b ∈ after, a.spanId = b.spanId → a.Compatible b := fun a ha b hb hab =>
      ((hf.join a ha).compatible_iff b).mpr fun o ho =>
        hl.compatible o (List.mem_append_left _ ho.1) b (List.mem_append_right _ hb) (ho.2.trans hab)
    refine ⟨fun o ho => ?_, fun a ha b hb hab => ?_⟩
    · rcases List.mem_append.mp ho with ho | ho
      · exact hf.ordered o ho
      · exact hl.ordered o (List.mem_append_right _ ho)
    · rcases List.mem_append.mp ha with ha | ha <;> rcases List.mem_append.mp hb with hb | hb
      · rw [hf.sorted.eq_of_spanId ha hb hab]
        exact isPartialJoin_mergeState.self b
      · exact hacross a ha b hb hab
      · exact isPartialJoin_mergeState.symm (hacross b hb a ha hab.symm)
      · exact hl.compatible a (List.mem_append_right _ ha) b (List.mem_append_right _ hb) hab

/-- **The reduction is a partial join**: it succeeds exactly on reducible observations, and then neither their order
nor their repetition nor a reduction of a prefix matters. -/
theorem reduce_partialJoin (observations : List DomainSpanState) :
    ((∃ states, reduce observations = .ok states) ↔ Reducible observations) ∧
    ∀ states, reduce observations = .ok states →
      (∀ permuted, permuted.Perm observations → reduce permuted = .ok states) ∧
      (∀ o ∈ observations, ∀ before after, observations = before ++ after →
        reduce (before ++ o :: after) = .ok states) ∧
      (∀ before after, observations = before ++ after →
        ∃ first, reduce before = .ok first ∧ reduce (first ++ after) = .ok states) ∧
      ∀ state ∈ states, state.timing.reversed = false := by
  refine ⟨⟨fun ⟨states, h⟩ => (reduce_eq_ok.mp h).2, exists_reduce⟩, fun states h => ⟨?_, ?_, ?_, ?_⟩⟩
  · exact fun permuted hp => reduce_congr h fun o => hp.mem_iff
  · rintro o ho before after rfl
    refine reduce_congr h fun x => ?_
    rw [List.mem_append, List.mem_cons, List.mem_append, or_left_comm, or_iff_right_of_imp]
    rintro rfl
    exact List.mem_append.mp ho
  · rintro before after rfl
    exact reduce_prefix h
  · exact (reduce_eq_ok.mp h).1.ordered

end LifecycleReducer

end AgentObservability.Domain
