import AgentObservability.Domain.Topology
import Mathlib.Data.String.Basic
import Mathlib.Logic.Relation

/-!
# Topology validation is exact

What `validate_topology` says of a list of states with distinct span ids: it
succeeds exactly when the links are in order, and then the links close nowhere and
the unresolved parents are the absent ones, in order.

## What is proved

`topologyValidation_exact`. The walk of `detect_cycle` is stated without a bound
(`Walks`), so that the theorem says that it ends also on links that close. The
order of the list does not matter because, the span ids being distinct, a lookup is
membership (`byId_eq_some_iff`), and a strictly sorted list is known by its members.
-/

namespace AgentObservability.Domain

/-! ### The walk ends -/

/-- The `while` loop of `detect_cycle` as it stands in the source, without a bound: from the
spans seen and the current one it ends with a result. -/
inductive Walks (states : List DomainSpanState) : List SpanId → Option SpanId → Except DomainError Unit → Prop where
  | top (seen : List SpanId) : Walks states seen none (.ok ())
  | again {seen : List SpanId} {id : SpanId} (h : id ∈ seen) : Walks states seen (some id) (.error (.cycle id))
  | up {seen : List SpanId} {id : SpanId} {result : Except DomainError Unit} (h : id ∉ seen)
    (hnext : Walks states (id :: seen) ((byId states id).bind (·.parentSpanId)) result) :
    Walks states seen (some id) result

/-- Seen spans are spans of the list, but for the last one, so a bound above their number is
never reached. -/
theorem walks_detectCycleFrom {states : List DomainSpanState} :
    ∀ {fuel : ℕ} {seen : List SpanId} {current : Option SpanId}, seen.Nodup →
      (∀ id ∈ seen, (byId states id).isSome) → states.length + 2 ≤ fuel + seen.length →
      Walks states seen current (detectCycleFrom states fuel seen current) := by
  intro fuel
  induction fuel with
  | zero =>
    intro seen current hn hs hl
    have := seen_length_le hn hs
    omega
  | succ fuel ih =>
    intro seen current hn hs hl
    cases current with
    | none => exact Walks.top seen
    | some id =>
      rw [detectCycleFrom]
      by_cases hid : id ∈ seen
      · rw [if_pos hid]
        exact Walks.again hid
      · rw [if_neg hid]
        apply Walks.up hid
        cases hb : byId states id with
        | none =>
          show Walks states (id :: seen) none (detectCycleFrom states fuel (id :: seen) none)
          rw [detectCycleFrom]
          exact Walks.top (id :: seen)
        | some state =>
          rw [← hb]
          apply ih (List.nodup_cons.mpr ⟨hid, hn⟩)
          · intro i hi
            rcases List.mem_cons.mp hi with rfl | hi
            · simp [hb]
            · exact hs i hi
          · simp only [List.length_cons]
            omega

/-- The walk from any span ends, whatever the links are. -/
theorem walks_detectCycle (states : List DomainSpanState) (state : DomainSpanState) :
    Walks states [] (some state.spanId) (detectCycle states state) :=
  walks_detectCycleFrom List.nodup_nil (by simp) (by simp)

/-! ### The unresolved parents -/

section Unresolved

variable {unresolved unresolved' : List SpanId}

theorem mem_insertUnresolved {id i : SpanId} :
    i ∈ insertUnresolved id unresolved ↔ i = id ∨ i ∈ unresolved := by
  unfold insertUnresolved
  by_cases hid : id ∈ unresolved
  · rw [if_pos hid]
    constructor
    · exact Or.inr
    · rintro (rfl | hi)
      · exact hid
      · exact hi
  · rw [if_neg hid, List.mem_orderedInsert]

/-- The order of a `BTreeSet` of span ids. -/
def Ascending (ids : List SpanId) : Prop :=
  ids.Pairwise fun a b => a.asStr < b.asStr

theorem Ascending.insertUnresolved (id : SpanId) (h : Ascending unresolved) :
    Ascending (insertUnresolved id unresolved) := by
  unfold Domain.insertUnresolved
  by_cases hid : id ∈ unresolved
  · rw [if_pos hid]
    exact h
  · rw [if_neg hid]
    have : Std.Total fun a b : SpanId => a.asStr ≤ b.asStr := ⟨fun a b => le_total a.asStr b.asStr⟩
    have : IsTrans SpanId fun a b => a.asStr ≤ b.asStr := ⟨fun _ _ _ => le_trans⟩
    have hle : (unresolved.orderedInsert (fun a b => a.asStr ≤ b.asStr) id).Pairwise
        fun a b => a.asStr ≤ b.asStr :=
      List.Pairwise.orderedInsert id unresolved (h.imp le_of_lt)
    have hne : (unresolved.orderedInsert (fun a b => a.asStr ≤ b.asStr) id).Pairwise fun a b => a ≠ b := by
      rw [(List.perm_orderedInsert _ id unresolved).pairwise_iff Ne.symm]
      apply List.pairwise_cons.mpr
      have hlt : unresolved.Pairwise fun a b => a ≠ b := by
        apply List.Pairwise.imp ?_ h
        rintro a b hlt rfl
        exact lt_irrefl _ hlt
      exact ⟨fun i hi heq => hid (heq ▸ hi), hlt⟩
    exact hle.imp₂ (fun a b hab hne => lt_of_le_of_ne hab fun heq => hne (Identifier.ext heq)) hne

/-- Two ascending lists with the same members are the same. -/
theorem Ascending.ext (h : Ascending unresolved) (h' : Ascending unresolved')
    (hmem : ∀ id, id ∈ unresolved ↔ id ∈ unresolved') : unresolved = unresolved' := by
  have : Std.Irrefl fun a b : SpanId => a.asStr < b.asStr := ⟨fun a => lt_irrefl a.asStr⟩
  have : Std.Antisymm fun a b : SpanId => a.asStr < b.asStr :=
    ⟨fun a b hab hba => absurd hba (lt_asymm hab)⟩
  exact List.Pairwise.eq_of_mem_iff h h' hmem

variable {states : List DomainSpanState}

/-- One round keeps the parents in order and adds the parent of its state if it is absent. -/
theorem validateLink_unresolved {state : DomainSpanState}
    (h : validateLink states unresolved state = .ok unresolved') :
    (Ascending unresolved → Ascending unresolved') ∧
      ∀ id, id ∈ unresolved' ↔ id ∈ unresolved ∨ (state.parentSpanId = some id ∧ byId states id = none) := by
  have hlink := validateLink_ok h
  unfold validateLink at h
  cases hp : state.parentSpanId with
  | none =>
    rw [hp] at h
    cases h
    simp
  | some parentId =>
    simp only [hp, if_neg (hlink parentId hp).1] at h
    cases hb : byId states parentId with
    | none =>
      simp only [hb] at h
      cases h
      refine ⟨fun ha => ha.insertUnresolved parentId, fun id => ?_⟩
      rw [mem_insertUnresolved]
      constructor
      · rintro (rfl | hid)
        · exact Or.inr ⟨rfl, hb⟩
        · exact Or.inl hid
      · rintro (hid | ⟨hid, -⟩)
        · exact Or.inr hid
        · exact Or.inl (Option.some.inj hid).symm
    | some parent =>
      obtain ⟨htrace, hkind⟩ := (hlink parentId hp).2 parent hb
      simp only [hb, htrace, hkind, ne_eq, not_true_eq_false, if_false, if_true] at h
      have hsame : unresolved' = unresolved := by
        split at h
        · cases h
        · cases h
          rfl
      refine ⟨fun ha => hsame ▸ ha, fun id => ?_⟩
      rw [hsame]
      constructor
      · exact Or.inl
      · rintro (hid | ⟨hid, habsent⟩)
        · exact hid
        · obtain rfl := Option.some.inj hid
          rw [hb] at habsent
          cases habsent

theorem foldlM_validateLink_unresolved : ∀ {todo : List DomainSpanState} {unresolved unresolved' : List SpanId},
    todo.foldlM (validateLink states) unresolved = .ok unresolved' →
    (Ascending unresolved → Ascending unresolved') ∧
      ∀ id, id ∈ unresolved' ↔
        id ∈ unresolved ∨ ∃ state ∈ todo, state.parentSpanId = some id ∧ byId states id = none := by
  intro todo
  induction todo with
  | nil =>
    intro unresolved unresolved' h
    cases h
    simp
  | cons state todo ih =>
    intro unresolved unresolved' h
    rw [List.foldlM_cons] at h
    obtain ⟨next, hnext, h⟩ := Foundation.bind_eq_ok.mp h
    obtain ⟨hascending, hmem⟩ := validateLink_unresolved hnext
    obtain ⟨hascending', hmem'⟩ := ih h
    refine ⟨fun ha => hascending' (hascending ha), fun id => ?_⟩
    rw [hmem', hmem]
    simp only [List.exists_mem_cons_iff, or_assoc]

end Unresolved

/-! ### Distinct span ids -/

section Distinct

variable {states states' : List DomainSpanState}

/-- Among distinct span ids a lookup is membership. -/
theorem byId_eq_some_iff (hn : (states.map (·.spanId)).Nodup) {id : SpanId} {state : DomainSpanState} :
    byId states id = some state ↔ state ∈ states ∧ state.spanId = id := by
  constructor
  · exact mem_of_byId
  · rintro ⟨hmem, rfl⟩
    cases hb : byId states state.spanId with
    | none =>
      have := List.find?_eq_none.mp hb state (List.mem_reverse.mpr hmem)
      simp at this
    | some found =>
      obtain ⟨hfound, hid⟩ := mem_of_byId hb
      rw [List.inj_on_of_nodup_map hn hfound hmem hid]

theorem byId_eq_none_iff {id : SpanId} : byId states id = none ↔ ∀ state ∈ states, state.spanId ≠ id := by
  simp [byId, List.find?_eq_none]

theorem linkOk_iff (hn : (states.map (·.spanId)).Nodup) {state : DomainSpanState} :
    LinkOk states state ↔ state.parentSpanId ≠ some state.spanId ∧
      ∀ parent ∈ states, state.parentSpanId = some parent.spanId →
        parent.traceId = state.traceId ∧ validParentKind state.kind parent.kind = true := by
  constructor
  · intro h
    refine ⟨fun hself => (h state.spanId hself).1 rfl, fun parent hmem hp => ?_⟩
    exact (h parent.spanId hp).2 parent ((byId_eq_some_iff hn).mpr ⟨hmem, rfl⟩)
  · rintro ⟨hself, hparent⟩ parentId hp
    refine ⟨fun heq => hself (heq ▸ hp), fun parent hb => ?_⟩
    obtain ⟨hmem, rfl⟩ := mem_of_byId hb
    exact hparent parent hmem hp

/-- `child` names `parent`, and both are in the list. -/
def ParentIn (states : List DomainSpanState) (child parent : DomainSpanState) : Prop :=
  child ∈ states ∧ parent ∈ states ∧ child.parentSpanId = some parent.spanId

/-- Along permitted links the kinds rise, so the links close nowhere. -/
theorem acyclic_of_linkOk (hn : (states.map (·.spanId)).Nodup) (hl : ∀ s ∈ states, LinkOk states s)
    (state : DomainSpanState) : ¬ Relation.TransGen (ParentIn states) state state := by
  have hrank : ∀ {a b : DomainSpanState}, Relation.TransGen (ParentIn states) a b →
      kindRank b.kind < kindRank a.kind := by
    intro a b h
    induction h with
    | single h =>
      obtain ⟨hchild, hparent, hp⟩ := h
      exact kindRank_lt (((linkOk_iff hn).mp (hl a hchild)).2 _ hparent hp).2
    | tail _ h ih =>
      obtain ⟨hchild, hparent, hp⟩ := h
      exact (kindRank_lt (((linkOk_iff hn).mp (hl _ hchild)).2 _ hparent hp).2).trans ih
  intro h
  exact lt_irrefl _ (hrank h)

/-- What a successful validation reports. -/
theorem validateTopology_unresolved {v : TopologyValidation} (h : validateTopology states = .ok v) :
    Ascending v.unresolvedParentIds ∧ ∀ id, id ∈ v.unresolvedParentIds ↔
      (∃ state ∈ states, state.parentSpanId = some id) ∧ ∀ state ∈ states, state.spanId ≠ id := by
  obtain ⟨unresolved, hfold, rfl⟩ := Foundation.map_eq_ok.mp h
  obtain ⟨hascending, hmem⟩ := foldlM_validateLink_unresolved hfold
  refine ⟨hascending List.Pairwise.nil, fun id => ?_⟩
  show id ∈ unresolved ↔ _
  rw [hmem id, ← byId_eq_none_iff]
  simp only [List.not_mem_nil, false_or]
  constructor
  · rintro ⟨state, hs, hp, habsent⟩
    exact ⟨⟨state, hs, hp⟩, habsent⟩
  · rintro ⟨⟨state, hs, hp⟩, habsent⟩
    exact ⟨state, hs, hp, habsent⟩

theorem linkOk_perm (hn : (states.map (·.spanId)).Nodup) (hperm : states.Perm states') {state : DomainSpanState} :
    LinkOk states state ↔ LinkOk states' state := by
  have hn' : (states'.map (·.spanId)).Nodup := (hperm.map _).nodup_iff.mp hn
  rw [linkOk_iff hn, linkOk_iff hn']
  simp only [hperm.mem_iff]

theorem validateTopology_perm (hn : (states.map (·.spanId)).Nodup) (hperm : states.Perm states')
    {v : TopologyValidation} (h : validateTopology states = .ok v) : validateTopology states' = .ok v := by
  have hlinks := validateTopology_ok_iff.mp ⟨v, h⟩
  obtain ⟨v', h'⟩ := validateTopology_ok_iff.mpr fun s hs =>
    (linkOk_perm hn hperm).mp (hlinks s (hperm.mem_iff.mpr hs))
  obtain ⟨hascending, hmem⟩ := validateTopology_unresolved h
  obtain ⟨hascending', hmem'⟩ := validateTopology_unresolved h'
  have hids : v'.unresolvedParentIds = v.unresolvedParentIds := by
    apply hascending'.ext hascending
    intro id
    rw [hmem, hmem']
    simp only [hperm.mem_iff]
  cases v
  cases v'
  cases hids
  exact h'

/-- **Topology validation is exact.** For states with distinct span ids: every walk of the
cycle search ends, whatever the links are; the validation succeeds exactly when no span is
its own parent and every parent in the list is in the trace of its child and of a permitted
kind; when it succeeds the links close nowhere and the unresolved parents are exactly the
absent ones, in order; and another order of the list gives the same result. -/
theorem topologyValidation_exact (states : List DomainSpanState) (hn : (states.map (·.spanId)).Nodup) :
    (∀ state, Walks states [] (some state.spanId) (detectCycle states state)) ∧
    ((∃ v, validateTopology states = .ok v) ↔
      (∀ state ∈ states, state.parentSpanId ≠ some state.spanId) ∧
      ∀ state ∈ states, ∀ parent ∈ states, state.parentSpanId = some parent.spanId →
        parent.traceId = state.traceId ∧ validParentKind state.kind parent.kind = true) ∧
    (∀ v, validateTopology states = .ok v →
      (∀ state, ¬ Relation.TransGen (ParentIn states) state state) ∧
      Ascending v.unresolvedParentIds ∧
      ∀ id, id ∈ v.unresolvedParentIds ↔
        (∃ state ∈ states, state.parentSpanId = some id) ∧ ∀ state ∈ states, state.spanId ≠ id) ∧
    ∀ states', states.Perm states' → ∀ v, validateTopology states = .ok v ↔ validateTopology states' = .ok v := by
  refine ⟨walks_detectCycle states, ?_, fun v h => ?_, fun states' hperm v => ?_⟩
  · rw [validateTopology_ok_iff]
    simp only [linkOk_iff hn]
    constructor
    · intro h
      exact ⟨fun state hs => (h state hs).1, fun state hs => (h state hs).2⟩
    · rintro ⟨hself, hparent⟩ state hs
      exact ⟨hself state hs, hparent state hs⟩
  · have hlinks := validateTopology_ok_iff.mp ⟨v, h⟩
    exact ⟨acyclic_of_linkOk hn hlinks, validateTopology_unresolved h⟩
  · have hn' : (states'.map (·.spanId)).Nodup := (hperm.map _).nodup_iff.mp hn
    exact ⟨validateTopology_perm hn hperm, validateTopology_perm hn' hperm.symm⟩

end Distinct

/-- A session and a turn of it, after a request of the turn and a session of an absent
workstream. -/
def sampleStates : List DomainSpanState :=
  let span := fun (id : SpanId) parentSpanId kind =>
    ({ traceId := ⟨"trace", by decide, by decide⟩, spanId := id, parentSpanId, kind, lifecycle := .running,
       correlation := {}, timing := { startUnixMs := 1, endUnixMs := none },
       tokenUsage := {} } : DomainSpanState)
  let session : SpanId := ⟨"session", by decide, by decide⟩
  let turn : SpanId := ⟨"turn", by decide, by decide⟩
  [span ⟨"request", by decide, by decide⟩ (some turn) .llmRequest,
    span session (some ⟨"workstream", by decide, by decide⟩) .agentSession,
    span turn (some session) .turn]

theorem topologyValidation_exact_sampleStates :
    (∀ state, Walks sampleStates [] (some state.spanId) (detectCycle sampleStates state)) ∧
    ((∃ v, validateTopology sampleStates = .ok v) ↔
      (∀ state ∈ sampleStates, state.parentSpanId ≠ some state.spanId) ∧
      ∀ state ∈ sampleStates, ∀ parent ∈ sampleStates, state.parentSpanId = some parent.spanId →
        parent.traceId = state.traceId ∧ validParentKind state.kind parent.kind = true) ∧
    (∀ v, validateTopology sampleStates = .ok v →
      (∀ state, ¬ Relation.TransGen (ParentIn sampleStates) state state) ∧
      Ascending v.unresolvedParentIds ∧
      ∀ id, id ∈ v.unresolvedParentIds ↔
        (∃ state ∈ sampleStates, state.parentSpanId = some id) ∧ ∀ state ∈ sampleStates, state.spanId ≠ id) ∧
    ∀ states', sampleStates.Perm states' →
      ∀ v, validateTopology sampleStates = .ok v ↔ validateTopology states' = .ok v :=
  topologyValidation_exact sampleStates (by decide)

end AgentObservability.Domain
