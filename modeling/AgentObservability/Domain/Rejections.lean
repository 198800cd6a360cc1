import AgentObservability.Domain.Reduction
import AgentObservability.Domain.TopologyExact
import AgentObservability.Foundation.InPlace

/-!
# What a rejected observation leaves behind

`LifecycleReducer::observe` merges an observation into the state that it holds of the
span, field by field through a mutable reference, and `reduce_observation_state` writes
the reduced state into the vector before it validates the topology. Here both are
modelled with the state that an error leaves: `mergeStateInPlace` visits the fields in
the order of the source, and its successes are those of `mergeState`
(`mergeStateInPlace_eq_ok_iff`).

## What is proved

`observation_untouched_iff`: exactly when an error leaves the states as they were. For
`observe`, when no field that the observation adds to comes before the first one that
conflicts; for `reduce_observation_state`, when the links of the states with the span
in them are in order, unless the observation is rejected before it is written or says
nothing new.
-/

namespace AgentObservability.Domain

open Foundation

/-! ### The merge of a state in place -/

/-- The fields that `merge_state` visits. -/
inductive MergedField where
  /-- `trace_id`. -/
  | traceId
  /-- `kind`. -/
  | kind
  /-- `parent_span_id`. -/
  | parentSpanId
  /-- A correlation id. -/
  | correlation (k : CorrelationKind)
  /-- `lifecycle`. -/
  | lifecycle
  /-- `timing.start_unix_ms`. -/
  | startUnixMs
  /-- `timing.end_unix_ms`. -/
  | endUnixMs
  /-- A token metric. -/
  | metric (m : Metric)
  deriving DecidableEq, Repr

/-- The order in which `merge_state` visits the fields. -/
def MergedField.order : List MergedField :=
  [.traceId, .kind, .parentSpanId,
    .correlation .session, .correlation .turn, .correlation .request, .correlation .operation,
    .correlation .permission, .correlation .compaction,
    .lifecycle, .startUnixMs, .endUnixMs,
    .metric .input, .metric .output, .metric .cachedInput, .metric .cacheCreationInput, .metric .reasoningOutput,
    .metric .total, .metric .totalInput, .metric .totalOutput, .metric .totalCachedInput,
    .metric .totalReasoningOutput, .metric .totalAccumulated, .metric .contextWindow, .metric .inputBefore,
    .metric .inputAfter]

/-- A correlation id is replaced. -/
def CorrelationIds.set (ids : CorrelationIds) (value : Option Identifier) : CorrelationKind → CorrelationIds
  | .session => { ids with sessionId := value }
  | .turn => { ids with turnId := value }
  | .request => { ids with requestId := value }
  | .operation => { ids with operationId := value }
  | .permission => { ids with permissionId := value }
  | .compaction => { ids with compactionId := value }

/-- A metric is replaced. -/
def TokenUsage.set (usage : TokenUsage) (value : Option ℕ) : Metric → TokenUsage
  | .input => { usage with input := value }
  | .output => { usage with output := value }
  | .cachedInput => { usage with cachedInput := value }
  | .cacheCreationInput => { usage with cacheCreationInput := value }
  | .reasoningOutput => { usage with reasoningOutput := value }
  | .total => { usage with total := value }
  | .totalInput => { usage with totalInput := value }
  | .totalOutput => { usage with totalOutput := value }
  | .totalCachedInput => { usage with totalCachedInput := value }
  | .totalReasoningOutput => { usage with totalReasoningOutput := value }
  | .totalAccumulated => { usage with totalAccumulated := value }
  | .contextWindow => { usage with contextWindow := value }
  | .inputBefore => { usage with inputBefore := value }
  | .inputAfter => { usage with inputAfter := value }

/-- The step of `merge_state` at a field: it fails, or writes the field. -/
def mergeField (incoming : DomainSpanState) (field : MergedField) (existing : DomainSpanState) :
    Except DomainError DomainSpanState :=
  match field with
  | .traceId =>
    if existing.traceId ≠ incoming.traceId then .error (.fieldConflict existing.spanId "trace_id") else .ok existing
  | .kind => if existing.kind ≠ incoming.kind then .error (.fieldConflict existing.spanId "kind") else .ok existing
  | .parentSpanId =>
    if existing.parentSpanId ≠ incoming.parentSpanId then .error (.fieldConflict existing.spanId "parent_span_id")
    else .ok existing
  | .correlation k =>
    (mergeOptional (existing.correlation.get k) (incoming.correlation.get k) existing.spanId k.field).map
      fun value => { existing with correlation := existing.correlation.set value k }
  | .lifecycle =>
    (mergeLifecycle existing.lifecycle incoming.lifecycle existing.spanId).map
      fun lifecycle => { existing with lifecycle }
  | .startUnixMs =>
    .ok { existing with timing :=
      { existing.timing with startUnixMs := min existing.timing.startUnixMs incoming.timing.startUnixMs } }
  | .endUnixMs =>
    .ok { existing with timing := { existing.timing with
      endUnixMs := match existing.timing.endUnixMs, incoming.timing.endUnixMs with
        | some left, some right => some (max left right)
        | left, right => left.or right } }
  | .metric m =>
    (mergeOptional (existing.tokenUsage.get m) (incoming.tokenUsage.get m) existing.spanId m.field).map
      fun value => { existing with tokenUsage := existing.tokenUsage.set value m }

/-- `merge_state` on the mutable state: its result, and the state it leaves. -/
def mergeStateInPlace (incoming existing : DomainSpanState) : Except DomainError Unit × DomainSpanState :=
  inPlace (MergedField.order.map (mergeField incoming)) existing

/-- The correlation ids in the order of the source. -/
def CorrelationKind.order : List CorrelationKind := [.session, .turn, .request, .operation, .permission, .compaction]

/-- The metrics in the order of the source. -/
def Metric.order : List Metric :=
  [.input, .output, .cachedInput, .cacheCreationInput, .reasoningOutput, .total, .totalInput, .totalOutput,
    .totalCachedInput, .totalReasoningOutput, .totalAccumulated, .contextWindow, .inputBefore, .inputAfter]

section Refinement

variable {ε α β γ : Type}

theorem map_bind_eq (x : Except ε α) (f : α → β) (g : β → Except ε γ) :
    (x.map f >>= g) = x >>= fun a => g (f a) := by
  cases x <;> rfl

theorem mergeCorrelation_eq_foldlM (left right : CorrelationIds) (spanId : SpanId) :
    mergeCorrelation left right spanId = CorrelationKind.order.foldlM (fun ids k =>
      (mergeOptional (ids.get k) (right.get k) spanId k.field).map fun value => ids.set value k) left := by
  simp only [CorrelationKind.order, List.foldlM_cons, List.foldlM_nil, map_bind_eq, mergeCorrelation,
    CorrelationIds.get, CorrelationIds.set, CorrelationKind.field]

theorem mergeMetrics_eq_foldlM (left right : TokenUsage) (spanId : SpanId) :
    mergeMetrics left right spanId = Metric.order.foldlM (fun usage m =>
      (mergeOptional (usage.get m) (right.get m) spanId m.field).map fun value => usage.set value m) left := by
  simp only [Metric.order, List.foldlM_cons, List.foldlM_nil, map_bind_eq, mergeMetrics, TokenUsage.get,
    TokenUsage.set, Metric.field]

variable (incoming : DomainSpanState)

/-- The steps at correlation ids change the correlation ids alone. -/
theorem foldlM_correlation (ks : List CorrelationKind) (existing : DomainSpanState) :
    (ks.map fun k => mergeField incoming (.correlation k)).foldlM (fun state step => step state) existing =
      (ks.foldlM (fun ids k => (mergeOptional (ids.get k) (incoming.correlation.get k) existing.spanId k.field).map
        fun value => ids.set value k) existing.correlation).map
        fun correlation => { existing with correlation } := by
  induction ks generalizing existing with
  | nil => rfl
  | cons k ks ih =>
    rw [List.map_cons, List.foldlM_cons, List.foldlM_cons]
    show (mergeOptional _ _ _ _).map _ >>= _ = _
    rw [map_bind_eq, map_bind_eq]
    cases mergeOptional (existing.correlation.get k) (incoming.correlation.get k) existing.spanId k.field with
    | error e => rfl
    | ok value => exact ih _

/-- The steps at metrics change the metrics alone. -/
theorem foldlM_metric (ms : List Metric) (existing : DomainSpanState) :
    (ms.map fun m => mergeField incoming (.metric m)).foldlM (fun state step => step state) existing =
      (ms.foldlM (fun usage m => (mergeOptional (usage.get m) (incoming.tokenUsage.get m) existing.spanId m.field).map
        fun value => usage.set value m) existing.tokenUsage).map
        fun tokenUsage => { existing with tokenUsage } := by
  induction ms generalizing existing with
  | nil => rfl
  | cons m ms ih =>
    rw [List.map_cons, List.foldlM_cons, List.foldlM_cons]
    show (mergeOptional _ _ _ _).map _ >>= _ = _
    rw [map_bind_eq, map_bind_eq]
    cases mergeOptional (existing.tokenUsage.get m) (incoming.tokenUsage.get m) existing.spanId m.field with
    | error e => rfl
    | ok value => exact ih _

/-- The steps of `mergeStateInPlace` compute `mergeState`. -/
theorem foldlM_mergeField (existing : DomainSpanState) :
    (MergedField.order.map (mergeField incoming)).foldlM (fun state step => step state) existing =
      mergeState existing incoming := by
  have horder : MergedField.order.map (mergeField incoming) =
      ([.traceId, .kind, .parentSpanId].map (mergeField incoming)) ++
        (CorrelationKind.order.map (fun k => mergeField incoming (.correlation k)) ++
          ([.lifecycle, .startUnixMs, .endUnixMs].map (mergeField incoming) ++
            Metric.order.map fun m => mergeField incoming (.metric m))) := rfl
  rw [horder, List.foldlM_append]
  simp only [List.map_cons, List.map_nil, List.foldlM_cons, List.foldlM_nil, List.foldlM_append, mergeField]
  by_cases htrace : existing.traceId = incoming.traceId
  · by_cases hkind : existing.kind = incoming.kind
    · by_cases hparent : existing.parentSpanId = incoming.parentSpanId
      · rw [mergeState, if_neg (not_not.mpr htrace), if_neg (not_not.mpr hkind), if_neg (not_not.mpr hparent)]
        simp only [if_neg (not_not.mpr htrace), if_neg (not_not.mpr hkind), if_neg (not_not.mpr hparent), ok_bind,
          pure_bind]
        rw [foldlM_correlation, ← mergeCorrelation_eq_foldlM, map_bind_eq]
        refine bind_congr fun correlation => ?_
        rw [bind_assoc, map_bind_eq]
        refine bind_congr fun lifecycle => ?_
        simp only [pure_bind]
        rw [foldlM_metric, ← mergeMetrics_eq_foldlM]
        cases mergeMetrics existing.tokenUsage incoming.tokenUsage existing.spanId with
        | error e => rfl
        | ok tokenUsage => rfl
      · simp [htrace, hkind, hparent, mergeState]
    · simp [htrace, hkind, mergeState]
  · simp [htrace, mergeState]

end Refinement

/-- The merge in place succeeds with what `mergeState` gives. -/
theorem mergeStateInPlace_eq_ok_iff {incoming existing merged : DomainSpanState} :
    mergeStateInPlace incoming existing = (.ok (), merged) ↔ mergeState existing incoming = .ok merged := by
  rw [mergeStateInPlace, inPlace_eq_ok_iff, foldlM_mergeField]

theorem mergeStateInPlace_fst_eq_error_iff {incoming existing : DomainSpanState} {e : DomainError} :
    (mergeStateInPlace incoming existing).1 = .error e ↔ mergeState existing incoming = .error e := by
  rw [mergeStateInPlace, inPlace_fst_eq_error_iff, foldlM_mergeField]

/-! ### What a failed merge leaves -/

section Fields

variable (existing incoming : DomainSpanState)

/-- The two states conflict in a field. -/
def MergedField.Conflicts : MergedField → Prop
  | .traceId => existing.traceId ≠ incoming.traceId
  | .kind => existing.kind ≠ incoming.kind
  | .parentSpanId => existing.parentSpanId ≠ incoming.parentSpanId
  | .correlation k => ¬ Agree (existing.correlation.get k) (incoming.correlation.get k)
  | .lifecycle => ¬ existing.lifecycle.Compatible incoming.lifecycle
  | .startUnixMs | .endUnixMs => False
  | .metric m => ¬ Agree (existing.tokenUsage.get m) (incoming.tokenUsage.get m)

/-- The incoming state says more in a field. -/
def MergedField.Adds : MergedField → Prop
  | .traceId | .kind | .parentSpanId => False
  | .correlation k => ¬ Flat (incoming.correlation.get k) (existing.correlation.get k)
  | .lifecycle => ¬ incoming.lifecycle.Precedes existing.lifecycle
  | .startUnixMs => incoming.timing.startUnixMs < existing.timing.startUnixMs
  | .endUnixMs => ∃ e ∈ incoming.timing.endUnixMs, ∀ e' ∈ existing.timing.endUnixMs, e' < e
  | .metric m => ¬ Flat (incoming.tokenUsage.get m) (existing.tokenUsage.get m)

/-- No field that the incoming state adds to is visited before a field in conflict. -/
def ConflictsFirst : Prop :=
  ∀ before field after, MergedField.order = before ++ field :: after → field.Adds existing incoming →
    ∃ f ∈ before ++ [field], f.Conflicts existing incoming

variable {existing incoming}

theorem mergeOptional_eq_left_iff {α : Type} [DecidableEq α] {left right merged : Option α} {spanId : SpanId}
    {field : String} (h : mergeOptional left right spanId field = .ok merged) : merged = left ↔ Flat right left := by
  have hjoin := isPartialJoin_mergeOptional.le_iff h
  constructor
  · rintro rfl
    exact ((hjoin merged).mp fun x hx => hx).2
  · intro hflat
    have hle := (hjoin left).mpr ⟨fun x hx => hx, hflat⟩
    have hge := ((hjoin merged).mp fun x hx => hx).1
    exact Option.ext fun x => ⟨hle x, hge x⟩

theorem CorrelationIds.set_eq_self_iff {ids : CorrelationIds} {value : Option Identifier} {k : CorrelationKind} :
    ids.set value k = ids ↔ value = ids.get k := by
  cases k <;> cases ids <;> simp [CorrelationIds.set, CorrelationIds.get]

theorem TokenUsage.set_eq_self_iff {usage : TokenUsage} {value : Option ℕ} {m : Metric} :
    usage.set value m = usage ↔ value = usage.get m := by
  cases m <;> cases usage <;> simp [TokenUsage.set, TokenUsage.get]

theorem exists_error_of_not_ok {α ε : Type} {x : Except ε α} : (∃ e, x = .error e) ↔ ¬ ∃ a, x = .ok a := by
  cases x <;> simp

/-- A step fails exactly on a conflict. -/
theorem mergeField_error_iff {field : MergedField} :
    (∃ e, mergeField incoming field existing = .error e) ↔ field.Conflicts existing incoming := by
  rw [exists_error_of_not_ok]
  cases field with
  | traceId => by_cases h : existing.traceId = incoming.traceId <;> simp [mergeField, MergedField.Conflicts, h]
  | kind => by_cases h : existing.kind = incoming.kind <;> simp [mergeField, MergedField.Conflicts, h]
  | parentSpanId => by_cases h : existing.parentSpanId = incoming.parentSpanId <;> simp [mergeField, MergedField.Conflicts, h]
  | startUnixMs => simp [mergeField, MergedField.Conflicts]
  | endUnixMs => simp [mergeField, MergedField.Conflicts]
  | correlation k =>
    apply not_congr
    rw [← (@isPartialJoin_mergeOptional existing.spanId k.field Identifier _).isOk_iff]
    simp [mergeField, map_eq_ok]
  | lifecycle =>
    apply not_congr
    rw [← (@isPartialJoin_mergeLifecycle existing.spanId).isOk_iff]
    simp [mergeField, map_eq_ok]
  | metric m =>
    apply not_congr
    rw [← (@isPartialJoin_mergeOptional existing.spanId m.field ℕ _).isOk_iff]
    simp [mergeField, map_eq_ok]

/-- A step that goes through changes the state exactly when the incoming state says more. -/
theorem mergeField_changes_iff {field : MergedField} {next : DomainSpanState}
    (h : mergeField incoming field existing = .ok next) : next ≠ existing ↔ field.Adds existing incoming := by
  have hstate : ∀ {a b : DomainSpanState}, a = b ↔ a.traceId = b.traceId ∧ a.spanId = b.spanId ∧
      a.parentSpanId = b.parentSpanId ∧ a.kind = b.kind ∧ a.lifecycle = b.lifecycle ∧
      a.correlation = b.correlation ∧ a.timing = b.timing ∧ a.tokenUsage = b.tokenUsage := by
    rintro ⟨⟩ ⟨⟩
    simp
  cases field with
  | traceId | kind | parentSpanId =>
    simp only [mergeField] at h
    split at h
    · cases h
    · cases h
      simp [MergedField.Adds]
  | correlation k =>
    obtain ⟨value, hvalue, rfl⟩ := map_eq_ok.mp h
    apply not_congr
    simp only [hstate, CorrelationIds.set_eq_self_iff, mergeOptional_eq_left_iff hvalue, and_true, true_and]
  | lifecycle =>
    obtain ⟨lifecycle, hlifecycle, rfl⟩ := map_eq_ok.mp h
    apply not_congr
    simp only [hstate, and_true, true_and]
    have hjoin := isPartialJoin_mergeLifecycle.le_iff hlifecycle
    constructor
    · rintro rfl
      exact ((hjoin _).mp (Or.inl rfl)).2
    · intro hle
      have hle' := (hjoin existing.lifecycle).mpr ⟨Or.inl rfl, hle⟩
      have hge := ((hjoin lifecycle).mp (Or.inl rfl)).1
      revert hle' hge
      cases lifecycle <;> cases existing.lifecycle <;> simp [LifecycleState.Precedes]
  | startUnixMs =>
    cases h
    obtain ⟨trace, span, parent, kind, lifecycle, correlation, ⟨start, ends⟩, usage⟩ := existing
    simp only [hstate, MergedField.Adds, Timing.mk.injEq, true_and, and_true, ne_eq]
    omega
  | endUnixMs =>
    cases h
    obtain ⟨trace, span, parent, kind, lifecycle, correlation, ⟨start, ends⟩, usage⟩ := existing
    simp only [hstate, MergedField.Adds, Timing.mk.injEq, true_and, and_true, ne_eq]
    cases ends <;> cases incoming.timing.endUnixMs <;> simp
  | metric m =>
    obtain ⟨value, hvalue, rfl⟩ := map_eq_ok.mp h
    apply not_congr
    simp only [hstate, TokenUsage.set_eq_self_iff, mergeOptional_eq_left_iff hvalue, true_and]

theorem CorrelationIds.get_set (ids : CorrelationIds) (value : Option Identifier) (k k' : CorrelationKind) :
    (ids.set value k).get k' = if k' = k then value else ids.get k' := by
  cases k <;> cases k' <;> rfl

theorem TokenUsage.get_set (usage : TokenUsage) (value : Option ℕ) (m m' : Metric) :
    (usage.set value m).get m' = if m' = m then value else usage.get m' := by
  cases m <;> cases m' <;> rfl

/-- A step keeps the span and loses nothing that was said of it. -/
theorem says_mergeField {field : MergedField} {next : DomainSpanState}
    (h : mergeField incoming field existing = .ok next) : existing.spanId = next.spanId ∧ existing.Says next := by
  have hrefl := isPartialJoin_mergeState.refl existing
  cases field with
  | traceId | kind | parentSpanId =>
    simp only [mergeField] at h
    split at h
    · cases h
    · cases h
      exact ⟨rfl, hrefl⟩
  | correlation k =>
    obtain ⟨value, hvalue, rfl⟩ := map_eq_ok.mp h
    have hle := ((isPartialJoin_mergeOptional.le_iff hvalue value).mp fun x hx => hx).1
    refine ⟨rfl, { hrefl with correlation := fun k' => ?_ }⟩
    show Flat _ ((existing.correlation.set value k).get k')
    rw [CorrelationIds.get_set]
    by_cases hk : k' = k
    · rw [if_pos hk, hk]
      exact hle
    · rw [if_neg hk]
      exact hrefl.correlation k'
  | lifecycle =>
    obtain ⟨lifecycle, hlifecycle, rfl⟩ := map_eq_ok.mp h
    have hle := ((isPartialJoin_mergeLifecycle.le_iff hlifecycle lifecycle).mp (Or.inl rfl)).1
    exact ⟨rfl, { hrefl with lifecycle := hle }⟩
  | startUnixMs =>
    cases h
    exact ⟨rfl, { hrefl with timing := ⟨Nat.min_le_left _ _, hrefl.timing.2⟩ }⟩
  | endUnixMs =>
    cases h
    refine ⟨rfl, { hrefl with timing := ⟨hrefl.timing.1, fun e he => ?_⟩ }⟩
    have hends := ((mergeTiming_within_iff (a := existing.timing) (b := incoming.timing)).mp
      ⟨Nat.le_refl _, fun e he => ⟨e, he, Nat.le_refl _⟩⟩).1
    exact hends.2 e he
  | metric m =>
    obtain ⟨value, hvalue, rfl⟩ := map_eq_ok.mp h
    have hle := ((isPartialJoin_mergeOptional.le_iff hvalue value).mp fun x hx => hx).1
    refine ⟨rfl, { hrefl with tokenUsage := fun m' => ?_ }⟩
    show Flat _ ((existing.tokenUsage.set value m).get m')
    rw [TokenUsage.get_set]
    by_cases hm : m' = m
    · rw [if_pos hm, hm]
      exact hle
    · rw [if_neg hm]
      exact hrefl.tokenUsage m'

theorem DomainSpanState.Says.trans {a b c : DomainSpanState} (hab : a.Says b) (hbc : b.Says c) : a.Says c where
  traceId := hab.traceId.trans hbc.traceId
  kind := hab.kind.trans hbc.kind
  parentSpanId := hab.parentSpanId.trans hbc.parentSpanId
  correlation k x hx := hbc.correlation k x (hab.correlation k x hx)
  lifecycle := by
    have h := hab.lifecycle
    have h' := hbc.lifecycle
    revert h h'
    cases a.lifecycle <;> cases b.lifecycle <;> cases c.lifecycle <;> simp [LifecycleState.Precedes]
  tokenUsage m x hx := hbc.tokenUsage m x (hab.tokenUsage m x hx)
  timing := by
    refine ⟨Nat.le_trans hbc.timing.1 hab.timing.1, fun e he => ?_⟩
    obtain ⟨e', he', hle⟩ := hab.timing.2 e he
    obtain ⟨e'', he'', hle'⟩ := hbc.timing.2 e' he'
    exact ⟨e'', he'', Nat.le_trans hle hle'⟩

/-- **A merge in place leaves the state as it was exactly when the conflicts come first.** -/
theorem mergeStateInPlace_keeps_iff :
    (mergeStateInPlace incoming existing).2 = existing ↔ ConflictsFirst existing incoming := by
  rw [mergeStateInPlace, inPlace_keeps_iff (fun a b : DomainSpanState => a.spanId = b.spanId ∧ a.Says b)
    (fun a => ⟨rfl, isPartialJoin_mergeState.refl a⟩)]
  · constructor
    · intro h before field after hsplit hadds
      by_cases hconflict : field.Conflicts existing incoming
      · exact ⟨field, by simp, hconflict⟩
      · obtain ⟨next, hnext⟩ := not_not.mp fun hne => hconflict (mergeField_error_iff.mp (exists_error_of_not_ok.mpr hne))
        obtain ⟨fails, hfails, e, he⟩ := h (before.map (mergeField incoming)) (mergeField incoming field)
          (after.map (mergeField incoming)) (by rw [hsplit, List.map_append, List.map_cons])
          ⟨next, hnext, (mergeField_changes_iff hnext).mpr hadds⟩
        obtain ⟨f, hf, rfl⟩ := List.mem_map.mp hfails
        exact ⟨f, List.mem_append_left _ hf, mergeField_error_iff.mp ⟨e, he⟩⟩
    · intro h steps step rest hsplit hchange
      obtain ⟨before, fields, horder, rfl, hfields⟩ := List.map_eq_append_iff.mp hsplit
      obtain ⟨field, after, rfl, rfl, rfl⟩ := List.map_eq_cons_iff.mp hfields
      obtain ⟨next, hnext, hne⟩ := hchange
      obtain ⟨f, hf, hconflict⟩ := h before field after horder ((mergeField_changes_iff hnext).mp hne)
      obtain ⟨e, he⟩ := mergeField_error_iff.mpr hconflict
      rcases List.mem_append.mp hf with hf | hf
      · exact ⟨mergeField incoming f, List.mem_map_of_mem hf, e, he⟩
      · rw [List.mem_singleton.mp hf, hnext] at he
        cases he
  · rintro a b c ⟨hs, hab⟩ ⟨hs', hbc⟩
    exact ⟨hs.trans hs', hab.trans hbc⟩
  · rintro a b ⟨hs, hab⟩ ⟨-, hba⟩
    exact hab.antisymm hs hba
  · rintro step hstep a b hab
    obtain ⟨field, -, rfl⟩ := List.mem_map.mp hstep
    exact says_mergeField hab

end Fields

/-! ### A rejected observation -/

namespace LifecycleReducer

/-- `place` on the mutable states: the result, and the states it leaves. -/
def placeInPlace (observation : DomainSpanState) : LifecycleReducer → Except DomainError Unit × LifecycleReducer
  | [] => (.ok (), [observation])
  | state :: rest =>
    if state.spanId = observation.spanId then
      let (result, left) := mergeStateInPlace observation state
      (result, left :: rest)
    else if observation.spanId.asStr < state.spanId.asStr then (.ok (), observation :: state :: rest)
    else
      let (result, left) := placeInPlace observation rest
      (result, state :: left)

/-- `LifecycleReducer::observe` on the mutable reducer: the result, and the states it leaves,
which are those that `finish` yields. -/
def observeInPlace (states : LifecycleReducer) (observation : DomainSpanState) :
    Except DomainError Unit × LifecycleReducer :=
  if observation.timing.reversed then (.error .endBeforeStart, states) else placeInPlace observation states

variable {states states' : LifecycleReducer} {observation : DomainSpanState}

theorem placeInPlace_eq_ok_iff :
    placeInPlace observation states = (.ok (), states') ↔ place observation states = .ok states' := by
  induction states generalizing states' with
  | nil => simp [placeInPlace, place]
  | cons state rest ih =>
    unfold placeInPlace place
    by_cases hspan : state.spanId = observation.spanId
    · rw [if_pos hspan, if_pos hspan, map_eq_ok]
      simp only [← mergeStateInPlace_eq_ok_iff]
      cases mergeStateInPlace observation state with
      | mk result left => cases result <;> simp
    · rw [if_neg hspan, if_neg hspan]
      by_cases hlt : observation.spanId.asStr < state.spanId.asStr
      · rw [if_pos hlt, if_pos hlt]
        simp
      · rw [if_neg hlt, if_neg hlt, map_eq_ok]
        simp only [← ih]
        cases placeInPlace observation rest with
        | mk result left => cases result <;> simp

/-- An observation is accepted in place with the states that `observe` gives. -/
theorem observeInPlace_eq_ok_iff :
    observeInPlace states observation = (.ok (), states') ↔ observe states observation = .ok states' := by
  unfold observeInPlace observe
  split
  · simp
  · exact placeInPlace_eq_ok_iff

/-- What an error of the merge leaves is the state, exactly when there is no conflict or
the conflicts come first. -/
theorem mergeStateInPlace_untouched_iff {state : DomainSpanState} :
    (∀ e, (mergeStateInPlace observation state).1 = .error e → (mergeStateInPlace observation state).2 = state) ↔
      state.Compatible observation ∨ ConflictsFirst state observation := by
  simp only [mergeStateInPlace_keeps_iff, mergeStateInPlace_fst_eq_error_iff]
  have hjoin := isPartialJoin_mergeState.isOk_iff state observation
  constructor
  · intro h
    by_cases hc : state.Compatible observation
    · exact Or.inl hc
    · obtain ⟨e, he⟩ := exists_error_of_not_ok.mpr fun hok => hc (hjoin.mp hok)
      exact Or.inr (h e he)
  · rintro (hc | hfirst) e he
    · exact absurd (hjoin.mpr hc) (exists_error_of_not_ok.mp ⟨e, he⟩)
    · exact hfirst

theorem placeInPlace_untouched_iff (hs : states.Sorted) :
    (∀ e, (placeInPlace observation states).1 = .error e → (placeInPlace observation states).2 = states) ↔
      ∀ state ∈ states, state.spanId = observation.spanId →
        state.Compatible observation ∨ ConflictsFirst state observation := by
  induction states with
  | nil => simp [placeInPlace]
  | cons state rest ih =>
    obtain ⟨hfirst, hrest⟩ := List.pairwise_cons.mp hs
    rw [List.forall_mem_cons]
    unfold placeInPlace
    by_cases hspan : state.spanId = observation.spanId
    · have hothers : ∀ s ∈ rest, s.spanId ≠ observation.spanId := fun s hs' he =>
        lt_irrefl state.spanId.asStr (by simpa [he, hspan] using hfirst s hs')
      rw [if_pos hspan]
      simp only [List.cons.injEq, and_true, mergeStateInPlace_untouched_iff, hspan, true_implies]
      constructor
      · exact fun h => ⟨h, fun s hs' he => absurd he (hothers s hs')⟩
      · exact And.left
    · rw [if_neg hspan]
      by_cases hlt : observation.spanId.asStr < state.spanId.asStr
      · rw [if_pos hlt]
        refine iff_of_true (fun e he => by cases he) ⟨fun he => absurd he hspan, fun s hs' he => ?_⟩
        have := lt_trans hlt (hfirst s hs')
        rw [he] at this
        exact absurd this (lt_irrefl _)
      · rw [if_neg hlt]
        simp only [List.cons.injEq, true_and, ih hrest, hspan, false_implies]

/-- **What an error of `observe` leaves.** -/
theorem observeInPlace_untouched_iff (hs : states.Sorted) :
    (∀ e, (observeInPlace states observation).1 = .error e → (observeInPlace states observation).2 = states) ↔
      observation.timing.reversed ∨ ∀ state ∈ states, state.spanId = observation.spanId →
        state.Compatible observation ∨ ConflictsFirst state observation := by
  unfold observeInPlace
  cases hr : observation.timing.reversed with
  | true => simp
  | false => simp [placeInPlace_untouched_iff hs]

/-! ### The reducers there are -/

/-- The reducer after observations, whether it accepted them or not. -/
def after (earlier : List DomainSpanState) : LifecycleReducer :=
  earlier.foldl (fun states observation => (observeInPlace states observation).2) []

theorem mergeStateInPlace_spanId (incoming existing : DomainSpanState) :
    (mergeStateInPlace incoming existing).2.spanId = existing.spanId := by
  refine inPlace_induction (fun state : DomainSpanState => state.spanId = existing.spanId) ?_ rfl
  intro step hstep a b hab ha
  obtain ⟨field, -, rfl⟩ := List.mem_map.mp hstep
  exact (says_mergeField hab).1.symm.trans ha

/-- An observation keeps the states in order, and brings no span but its own. -/
theorem placeInPlace_sorted (hs : states.Sorted) : (placeInPlace observation states).2.Sorted ∧
    ∀ s ∈ (placeInPlace observation states).2, s.spanId = observation.spanId ∨ ∃ t ∈ states, t.spanId = s.spanId := by
  induction states with
  | nil => exact ⟨List.pairwise_singleton _ _, fun s hs => Or.inl (by rw [List.mem_singleton.mp hs])⟩
  | cons state rest ih =>
    obtain ⟨hfirst, hrest⟩ := List.pairwise_cons.mp hs
    unfold placeInPlace
    by_cases hspan : state.spanId = observation.spanId
    · rw [if_pos hspan]
      have hid := mergeStateInPlace_spanId observation state
      refine ⟨List.pairwise_cons.mpr ⟨fun s hs' => by rw [hid]; exact hfirst s hs', hrest⟩, fun s hs' => ?_⟩
      rcases List.mem_cons.mp hs' with rfl | hs'
      · exact Or.inl (hid.trans hspan)
      · exact Or.inr ⟨s, List.mem_cons_of_mem _ hs', rfl⟩
    · rw [if_neg hspan]
      by_cases hlt : observation.spanId.asStr < state.spanId.asStr
      · rw [if_pos hlt]
        refine ⟨List.pairwise_cons.mpr ⟨fun s hs' => ?_, hs⟩, fun s hs' => ?_⟩
        · rcases List.mem_cons.mp hs' with rfl | hs'
          · exact hlt
          · exact lt_trans hlt (hfirst s hs')
        · rcases List.mem_cons.mp hs' with rfl | hs'
          · exact Or.inl rfl
          · exact Or.inr ⟨s, hs', rfl⟩
      · rw [if_neg hlt]
        obtain ⟨hsorted, hids⟩ := ih hrest
        have hgt : state.spanId.asStr < observation.spanId.asStr :=
          lt_of_le_of_ne (not_lt.mp hlt) fun he => hspan (Identifier.ext he)
        refine ⟨List.pairwise_cons.mpr ⟨fun s hs' => ?_, hsorted⟩, fun s hs' => ?_⟩
        · rcases hids s hs' with he | ⟨t, ht, he⟩
          · rwa [he]
          · rw [← he]
            exact hfirst t ht
        · rcases List.mem_cons.mp hs' with rfl | hs'
          · exact Or.inr ⟨_, List.mem_cons_self, rfl⟩
          · rcases hids s hs' with he | ⟨t, ht, he⟩
            · exact Or.inl he
            · exact Or.inr ⟨t, List.mem_cons_of_mem _ ht, he⟩

/-- Every reducer holds its states in order. -/
theorem sorted_after (earlier : List DomainSpanState) : (after earlier).Sorted := by
  have hstep : ∀ (observations : List DomainSpanState) {states : LifecycleReducer}, states.Sorted →
      Sorted (observations.foldl (fun states observation => (observeInPlace states observation).2) states) := by
    intro observations
    induction observations with
    | nil => exact id
    | cons observation observations ih =>
      intro states hs
      apply ih
      show (observeInPlace states observation).2.Sorted
      unfold observeInPlace
      split
      · exact hs
      · exact (placeInPlace_sorted hs).1
  exact hstep earlier List.Pairwise.nil

end LifecycleReducer

section Vector

/-- `reduce_observation_state` of the application crate: the result, and the states that it
leaves in the vector. -/
def reduceObservationState (states : List DomainSpanState) (incoming : DomainSpanState) :
    Except DomainError DomainSpanState × List DomainSpanState :=
  let existingIndex := states.findIdx? fun existing => existing.spanId = incoming.spanId
  match reduceSpanState (existingIndex.bind (states[·]?)) incoming with
  | .error e => (.error e, states)
  | .ok reduced =>
    let states := match existingIndex with
      | some index => states.set index reduced
      | none => states ++ [reduced]
    match validateTopology states with
    | .error e => (.error e, states)
    | .ok _ => (.ok reduced, states)

variable {states states' : List DomainSpanState} {incoming : DomainSpanState}

theorem reduceSpanState_some_iff {existing reduced : DomainSpanState} (hs : existing.spanId = incoming.spanId) :
    reduceSpanState (some existing) incoming = .ok reduced ↔
      existing.timing.reversed = false ∧ incoming.timing.reversed = false ∧
        mergeState existing incoming = .ok reduced := by
  cases he : existing.timing.reversed with
  | true => simp [reduceSpanState, LifecycleReducer.reduce, LifecycleReducer.observe, he, bind, Except.bind]
  | false =>
    cases hi : incoming.timing.reversed with
    | true =>
      simp [reduceSpanState, LifecycleReducer.reduce, LifecycleReducer.observe, LifecycleReducer.place, he, hi, bind,
        Except.bind]
    | false =>
      cases hm : mergeState existing incoming with
      | error e =>
        simp [reduceSpanState, LifecycleReducer.reduce, LifecycleReducer.observe, LifecycleReducer.place, he, hi, hs,
          hm, bind, Except.bind, Except.map]
      | ok merged =>
        simp [reduceSpanState, LifecycleReducer.reduce, LifecycleReducer.observe, LifecycleReducer.place, he, hi, hs,
          hm, bind, Except.bind, Except.map, pure, Except.pure]

/-- What the links of a state depend on. -/
def DomainSpanState.link (state : DomainSpanState) : TraceId × SpanId × Option SpanId × SpanKind :=
  (state.traceId, state.spanId, state.parentSpanId, state.kind)

theorem byId_map_link (states : List DomainSpanState) (id : SpanId) :
    (byId states id).map (·.link) = (states.map (·.link)).reverse.find? fun link => link.2.1 = id := by
  rw [byId, ← List.map_reverse, List.find?_map]
  rfl

theorem LinkOk.congr {state state' : DomainSpanState} (hstates : states.map (·.link) = states'.map (·.link))
    (hstate : state.link = state'.link) (h : LinkOk states state) : LinkOk states' state' := by
  simp only [DomainSpanState.link, Prod.mk.injEq] at hstate
  obtain ⟨htrace, hspan, hparent, hkind⟩ := hstate
  intro parentId hp
  obtain ⟨hself, hpresent⟩ := h parentId (hparent.trans hp)
  refine ⟨fun he => hself (he.trans hspan.symm), fun parent hb => ?_⟩
  have hfound : (byId states parentId).map (·.link) = some parent.link := by
    rw [byId_map_link, hstates, ← byId_map_link, hb]
    rfl
  obtain ⟨found, hfound, hlink⟩ := Option.map_eq_some_iff.mp hfound
  simp only [DomainSpanState.link, Prod.mk.injEq] at hlink
  obtain ⟨htrace', -, -, hkind'⟩ := hlink
  rw [← htrace, ← hkind, ← htrace', ← hkind']
  exact hpresent found hfound

theorem forall_linkOk_congr (hstates : states.map (·.link) = states'.map (·.link))
    (h : ∀ s ∈ states, LinkOk states s) : ∀ s ∈ states', LinkOk states' s := by
  intro s hs
  have hmem : s.link ∈ states.map (·.link) := hstates ▸ List.mem_map_of_mem hs
  obtain ⟨t, ht, hlink⟩ := List.mem_map.mp hmem
  exact (h t ht).congr hstates hlink

/-- A known span: its reduced state is written, and the links are those that were there. -/
theorem map_link_set {existing merged : DomainSpanState} {index : ℕ} (hindex : states[index]? = some existing)
    (hm : mergeState existing incoming = .ok merged) :
    (states.set index merged).map (·.link) = states.map (·.link) := by
  have hlink : merged.link = existing.link := by
    rw [DomainSpanState.link, (mergeState_ok hm).eq]
    rfl
  rw [List.map_set, hlink]
  refine List.ext_getElem? fun i => ?_
  rw [List.getElem?_set]
  split
  · rename_i hi
    subst hi
    rw [List.getElem?_map, hindex]
    obtain ⟨hlt, -⟩ := List.getElem?_eq_some_iff.mp hindex
    simp [hlt]
  · rfl

/-- When an error of `reduce_observation_state` leaves the vector alone. A new span: when its
link and those that name it are in order. A known span: when the observation is rejected
before it is written, says nothing new, or finds all the links in order. -/
def VectorUntouched (states : List DomainSpanState) (incoming : DomainSpanState) : Prop :=
  match states.find? fun existing => existing.spanId = incoming.spanId with
  | none => ∀ s ∈ states ++ [incoming], LinkOk (states ++ [incoming]) s
  | some existing =>
    existing.timing.reversed ∨ incoming.timing.reversed ∨ ¬ existing.Compatible incoming ∨
      incoming.Says existing ∨ ∀ s ∈ states, LinkOk states s

theorem validateTopology_error_iff : (∃ e, validateTopology states = .error e) ↔ ¬ ∀ s ∈ states, LinkOk states s := by
  rw [exists_error_of_not_ok, validateTopology_ok_iff]

theorem find?_of_findIdx? {α : Type} {p : α → Bool} {xs : List α} {i : ℕ} (h : xs.findIdx? p = some i) :
    ∃ x, xs[i]? = some x ∧ xs.find? p = some x ∧ p x = true := by
  obtain ⟨hlt, hp, hbefore⟩ := List.findIdx?_eq_some_iff_getElem.mp h
  refine ⟨xs[i], List.getElem?_eq_getElem hlt, ?_, hp⟩
  rw [List.find?_eq_some_iff_getElem]
  refine ⟨hp, i, hlt, rfl, fun j hj => ?_⟩
  have hnot := hbefore j hj
  cases hpj : p (xs[j]) with
  | true => exact absurd hpj hnot
  | false => rfl

/-- A known span whose observation is rejected or finds the links in order, or else says nothing new. -/
theorem untouched_known_iff {existing : DomainSpanState} {index : ℕ} (hindex : states[index]? = some existing)
    (hspan : existing.spanId = incoming.spanId) {merged : DomainSpanState}
    (hm : mergeState existing incoming = .ok merged) :
    states.set index merged = states ↔ incoming.Says existing := by
  obtain ⟨hlt, hget⟩ := List.getElem?_eq_some_iff.mp hindex
  have hjoin := isPartialJoin_mergeState.le_iff hm
  have hsame : states.set index merged = states ↔ merged = existing := by
    constructor
    · intro h
      have hi := congrArg (·[index]?) h
      simp only [List.getElem?_set_self hlt, hindex, Option.some.injEq] at hi
      exact hi
    · rintro rfl
      rw [← hget]
      exact List.set_getElem_self hlt
  rw [hsame]
  constructor
  · rintro rfl
    exact ((hjoin merged).mp (isPartialJoin_mergeState.refl merged)).2
  · intro hsays
    have hle := (hjoin existing).mpr ⟨isPartialJoin_mergeState.refl existing, hsays⟩
    have hge := ((hjoin merged).mp (isPartialJoin_mergeState.refl merged)).1
    have hid : merged.spanId = existing.spanId := by rw [(mergeState_ok hm).eq]
    exact hle.antisymm hid hge

/-- **What an error of `reduce_observation_state` leaves.** -/
theorem reduceObservationState_untouched_iff :
    (∀ e, (reduceObservationState states incoming).1 = .error e →
      (reduceObservationState states incoming).2 = states) ↔ VectorUntouched states incoming := by
  unfold reduceObservationState VectorUntouched
  cases hindex : states.findIdx? fun existing => existing.spanId = incoming.spanId with
  | none =>
    have hfind : states.find? (fun existing => existing.spanId = incoming.spanId) = none :=
      List.find?_eq_none.mpr fun s hs => by simpa using List.findIdx?_eq_none_iff.mp hindex s hs
    simp only [hfind, Option.bind_none, reduceSpanState]
    rw [← validateTopology_ok_iff]
    cases hv : validateTopology (states ++ [incoming]) with
    | error e => simp
    | ok v => simp
  | some index =>
    obtain ⟨existing, hget, hfind, hspan⟩ := find?_of_findIdx? hindex
    replace hspan : existing.spanId = incoming.spanId := by simpa using hspan
    simp only [hfind, Option.bind_some, hget]
    cases hr : reduceSpanState (some existing) incoming with
    | error e =>
      refine iff_of_true (fun _ _ => rfl) ?_
      by_contra hnot
      simp only [not_or, Bool.not_eq_true] at hnot
      obtain ⟨hexisting, hincoming, hc, -⟩ := hnot
      obtain ⟨merged, hm⟩ := (isPartialJoin_mergeState.isOk_iff existing incoming).mpr (not_not.mp hc)
      rw [(reduceSpanState_some_iff hspan).mpr ⟨hexisting, hincoming, hm⟩] at hr
      cases hr
    | ok merged =>
      obtain ⟨hexisting, hincoming, hm⟩ := (reduceSpanState_some_iff hspan).mp hr
      have hc := (isPartialJoin_mergeState.isOk_iff existing incoming).mp ⟨merged, hm⟩
      have hlinks : (∀ s ∈ states.set index merged, LinkOk (states.set index merged) s) ↔
          ∀ s ∈ states, LinkOk states s :=
        ⟨forall_linkOk_congr (map_link_set hget hm), forall_linkOk_congr (map_link_set hget hm).symm⟩
      simp only [hexisting, hincoming, hc, not_true_eq_false, false_or, ← hlinks, Bool.false_eq_true]
      rw [← validateTopology_ok_iff, ← untouched_known_iff hget hspan hm]
      cases hv : validateTopology (states.set index merged) with
      | error e => simp
      | ok v => simp

end Vector

/-- **When a rejected observation leaves the states untouched.** For every reducer, every vector
of states and every observation: an error of `observe` leaves the reducer as it was exactly
when the observation ends before it starts, is compatible with the state of its span, or
conflicts with it before it adds to it; an error of `reduce_observation_state` leaves the
vector as it was exactly when `VectorUntouched`. -/
theorem observation_untouched_iff (earlier states : List DomainSpanState) (observation : DomainSpanState) :
    ((∀ e, ((LifecycleReducer.after earlier).observeInPlace observation).1 = .error e →
        ((LifecycleReducer.after earlier).observeInPlace observation).2 = LifecycleReducer.after earlier) ↔
      observation.timing.reversed ∨ ∀ state ∈ LifecycleReducer.after earlier, state.spanId = observation.spanId →
        state.Compatible observation ∨ ConflictsFirst state observation) ∧
    ((∀ e, (reduceObservationState states observation).1 = .error e →
        (reduceObservationState states observation).2 = states) ↔ VectorUntouched states observation) :=
  ⟨LifecycleReducer.observeInPlace_untouched_iff (LifecycleReducer.sorted_after earlier),
    reduceObservationState_untouched_iff⟩

theorem trace_nonempty : "trace" ≠ "" := by decide

theorem trace_bounded : "trace".utf8ByteSize ≤ maxIdentifierBytes := by decide

theorem turn_nonempty : "turn" ≠ "" := by decide

theorem turn_bounded : "turn".utf8ByteSize ≤ maxIdentifierBytes := by decide

/-- A turn that is its own parent, of a session that is known or not. -/
def ownParent (sessionId : Option SessionId) (turnId : TurnId) : DomainSpanState where
  traceId := ⟨"trace", trace_nonempty, trace_bounded⟩
  spanId := ⟨"turn", turn_nonempty, turn_bounded⟩
  parentSpanId := some ⟨"turn", turn_nonempty, turn_bounded⟩
  kind := .turn
  lifecycle := .running
  correlation := { sessionId, turnId }
  timing := { startUnixMs := 1, endUnixMs := none }
  tokenUsage := {}

/-- The reducer keeps the session id of an observation whose turn id conflicts, and the vector
keeps a span that is its own parent. -/
theorem not_untouched :
    let held := ownParent none ⟨"first", by decide, by decide⟩
    let observation := ownParent (some ⟨"session", by decide, by decide⟩) ⟨"second", by decide, by decide⟩
    (LifecycleReducer.observeInPlace [held] observation).1 =
        .error (.fieldConflict held.spanId "correlation.turn_id") ∧
      (LifecycleReducer.observeInPlace [held] observation).2 ≠ [held] ∧
      (reduceObservationState [] held).1 = .error (.selfParent held.spanId) ∧
      (reduceObservationState [] held).2 = [held] := by
  decide

end AgentObservability.Domain
