import AgentObservability.Domain.Span
import Mathlib.Data.List.Sort
import Mathlib.Data.List.Nodup
import Mathlib.Data.Finset.Card

/-!
# The topology of spans

`validate_topology` of the domain crate: it walks over the states, reports the
parents that are absent, and fails on a span that is its own parent, a parent in
another trace, a parent of a kind that may not be one, or a cycle of parent
links.

## What is proved

`validateTopology_ok_iff`: the validation succeeds exactly when every state's own
link is in order (`LinkOk`). The search for cycles never decides: a permitted
parent has a strictly smaller `kindRank` than its child, so links of permitted
kinds do not close. The source loops until the chain ends; the loop here counts
down from a bound that a chain without repetition cannot reach
(`detectCycleFrom_more`).
-/

namespace AgentObservability.Domain

/-- `by_id.get(id)`: the map is built from the list, so a later state of a span
replaces an earlier one. -/
def byId (states : List DomainSpanState) (id : SpanId) : Option DomainSpanState :=
  states.reverse.find? fun state => state.spanId = id

theorem mem_of_byId {states : List DomainSpanState} {id : SpanId} {state : DomainSpanState}
    (h : byId states id = some state) : state ∈ states ∧ state.spanId = id :=
  ⟨List.mem_reverse.mp (List.mem_of_find?_eq_some h), by simpa using List.find?_some h⟩

/-- `valid_parent_kind`. -/
def validParentKind (child parent : SpanKind) : Bool :=
  match child, parent with
  | .agentSession, .workstream => true
  | .turn, .agentSession | .llmRequest, .agentSession | .toolExecution, .agentSession
  | .permission, .agentSession => true
  | .llmRequest, .turn => true
  | .toolExecution, .turn | .toolExecution, .llmRequest | .permission, .turn | .permission, .llmRequest => true
  | .compaction, .agentSession | .compaction, .turn => true
  | _, _ => false

/-- The loop of `detect_cycle`, with a bound on its rounds. -/
def detectCycleFrom (states : List DomainSpanState) : ℕ → List SpanId → Option SpanId → Except DomainError Unit
  | _, _, none => .ok ()
  | 0, _, some id => .error (.cycle id)
  | fuel + 1, seen, some id =>
    if id ∈ seen then .error (.cycle id)
    else detectCycleFrom states fuel (id :: seen) ((byId states id).bind (·.parentSpanId))

/-- `detect_cycle`. -/
def detectCycle (states : List DomainSpanState) (state : DomainSpanState) : Except DomainError Unit :=
  detectCycleFrom states (states.length + 2) [] (some state.spanId)

/-- Insertion into the `BTreeSet` of unresolved parents. -/
def insertUnresolved (id : SpanId) (unresolved : List SpanId) : List SpanId :=
  if id ∈ unresolved then unresolved else unresolved.orderedInsert (fun a b => a.asStr ≤ b.asStr) id

/-- One round of `validate_topology`: the link of `state`. -/
def validateLink (states : List DomainSpanState) (unresolved : List SpanId) (state : DomainSpanState) :
    Except DomainError (List SpanId) :=
  match state.parentSpanId with
  | none => .ok unresolved
  | some parentId =>
    if parentId = state.spanId then .error (.selfParent state.spanId)
    else match byId states parentId with
      | none => .ok (insertUnresolved parentId unresolved)
      | some parent =>
        if parent.traceId ≠ state.traceId then .error (.crossTraceParent state.spanId parentId)
        else match detectCycle states state with
          | .error e => .error e
          | .ok () =>
            if validParentKind state.kind parent.kind then .ok unresolved
            else .error (.invalidParentKind state.spanId parentId)

/-- What `validate_topology` reports. -/
structure TopologyValidation where
  /-- The parents that are absent, in order. -/
  unresolvedParentIds : List SpanId
  deriving DecidableEq

/-- `validate_topology`. -/
def validateTopology (states : List DomainSpanState) : Except DomainError TopologyValidation :=
  (states.foldlM (validateLink states) []).map TopologyValidation.mk

/-- The link of a state is in order: the span is not its own parent, and a parent
that is present is in the same trace and of a permitted kind. -/
def LinkOk (states : List DomainSpanState) (state : DomainSpanState) : Prop :=
  ∀ parentId, state.parentSpanId = some parentId → parentId ≠ state.spanId ∧
    ∀ parent, byId states parentId = some parent →
      parent.traceId = state.traceId ∧ validParentKind state.kind parent.kind = true

/-! ### Cycles -/

/-- How deep a kind may sit below a workstream. -/
def kindRank : SpanKind → ℕ
  | .workstream => 0
  | .agentSession => 1
  | .turn => 2
  | .llmRequest => 3
  | .toolExecution | .permission | .compaction => 4

theorem kindRank_lt {child parent : SpanKind} (h : validParentKind child parent = true) :
    kindRank parent < kindRank child := by
  cases child <;> cases parent <;> simp_all [validParentKind, kindRank]

/-- No more spans are seen than there are states. -/
theorem seen_length_le {states : List DomainSpanState} {seen : List SpanId} (hn : seen.Nodup)
    (hs : ∀ id ∈ seen, (byId states id).isSome) : seen.length ≤ states.length := by
  have hsub : seen ⊆ states.map (·.spanId) := by
    intro id hid
    obtain ⟨state, h⟩ := Option.isSome_iff_exists.mp (hs id hid)
    obtain ⟨hm, rfl⟩ := mem_of_byId h
    exact List.mem_map_of_mem hm
  have := (List.subperm_of_subset hn hsub).length_le
  simpa using this

/-- The bound of the loop is never reached: with one more round it gives the same result. -/
theorem detectCycleFrom_succ {states : List DomainSpanState} :
    ∀ {fuel : ℕ} {seen : List SpanId} {current : Option SpanId}, seen.Nodup →
      (∀ id ∈ seen, (byId states id).isSome) → states.length + 1 ≤ fuel + seen.length →
      detectCycleFrom states (fuel + 1) seen current = detectCycleFrom states fuel seen current := by
  intro fuel
  induction fuel with
  | zero =>
    intro seen current hn hs hl
    have := seen_length_le hn hs
    omega
  | succ fuel ih =>
    intro seen current hn hs hl
    cases current with
    | none => rfl
    | some id =>
      rw [detectCycleFrom, detectCycleFrom]
      split
      · rfl
      · rename_i hid
        cases hb : byId states id with
        | none => simp [detectCycleFrom]
        | some state =>
          refine ih (List.nodup_cons.mpr ⟨hid, hn⟩) ?_ (by simp; omega)
          intro i hi
          rcases List.mem_cons.mp hi with rfl | hi
          · simp [hb]
          · exact hs i hi

theorem detectCycleFrom_more {states : List DomainSpanState} {fuel : ℕ} {current : Option SpanId}
    (h : states.length + 1 ≤ fuel) (n : ℕ) :
    detectCycleFrom states (fuel + n) [] current = detectCycleFrom states fuel [] current := by
  induction n with
  | zero => rfl
  | succ n ih =>
    rw [← Nat.add_assoc, detectCycleFrom_succ List.nodup_nil (by simp) (by simp; omega), ih]

/-- Along links that are in order the rank falls, so no span comes twice. -/
theorem detectCycleFrom_ok {states : List DomainSpanState} (hl : ∀ s ∈ states, LinkOk states s) :
    ∀ {fuel : ℕ} {seen : List SpanId} {current : Option SpanId},
      (∀ id, current = some id → 1 ≤ fuel ∧ (∀ s, byId states id = some s → kindRank s.kind + 2 ≤ fuel) ∧
        ∀ i ∈ seen, ∃ t, byId states i = some t ∧ ∀ s, byId states id = some s → kindRank s.kind < kindRank t.kind) →
      detectCycleFrom states fuel seen current = .ok () := by
  intro fuel
  induction fuel with
  | zero =>
    intro seen current h
    cases current with
    | none => rfl
    | some id => exact absurd (h id rfl).1 (by omega)
  | succ fuel ih =>
    intro seen current h
    cases current with
    | none => rfl
    | some id =>
      obtain ⟨-, hfuel, hseen⟩ := h id rfl
      have hid : id ∉ seen := by
        intro hid
        obtain ⟨t, ht, hlt⟩ := hseen id hid
        exact lt_irrefl _ (hlt t ht)
      rw [detectCycleFrom, if_neg hid]
      refine ih ?_
      intro parentId hp
      obtain ⟨state, hs, hp⟩ := Option.bind_eq_some_iff.mp hp
      have hlink := (hl state (mem_of_byId hs).1 parentId hp).2
      have hrank : ∀ s, byId states parentId = some s → kindRank s.kind < kindRank state.kind :=
        fun s h => kindRank_lt (hlink s h).2
      have := hfuel state hs
      refine ⟨by omega, fun s h => ?_, ?_⟩
      · have := hrank s h
        omega
      · intro i hi
        rcases List.mem_cons.mp hi with rfl | hi
        · exact ⟨state, hs, hrank⟩
        · obtain ⟨t, ht, hlt⟩ := hseen i hi
          exact ⟨t, ht, fun s h => (hrank s h).trans (hlt state hs)⟩

theorem detectCycle_ok {states : List DomainSpanState} (hl : ∀ s ∈ states, LinkOk states s)
    (state : DomainSpanState) : detectCycle states state = .ok () := by
  rw [detectCycle, ← detectCycleFrom_more (by omega) 6]
  refine detectCycleFrom_ok hl fun id _ => ⟨by omega, fun s _ => ?_, by simp⟩
  have : kindRank s.kind ≤ 4 := by cases s.kind <;> simp [kindRank]
  omega

/-! ### The validation -/

theorem validateLink_ok {states : List DomainSpanState} {unresolved unresolved' : List SpanId}
    {state : DomainSpanState} (h : validateLink states unresolved state = .ok unresolved') : LinkOk states state := by
  intro parentId hp
  simp only [validateLink, hp] at h
  split at h
  · cases h
  · rename_i hself
    refine ⟨hself, fun parent hparent => ?_⟩
    simp only [hparent] at h
    split at h
    · cases h
    · rename_i htrace
      split at h
      · cases h
      · split at h
        · rename_i hkind
          exact ⟨not_not.mp htrace, hkind⟩
        · cases h

theorem validateLink_isOk {states : List DomainSpanState} (hl : ∀ s ∈ states, LinkOk states s)
    (unresolved : List SpanId) {state : DomainSpanState} (hs : state ∈ states) :
    ∃ unresolved', validateLink states unresolved state = .ok unresolved' := by
  unfold validateLink
  cases hp : state.parentSpanId with
  | none => exact ⟨_, rfl⟩
  | some parentId =>
    obtain ⟨hself, hparent⟩ := hl state hs parentId hp
    cases hb : byId states parentId with
    | none => exact ⟨insertUnresolved parentId unresolved, by simp [hself, hb]⟩
    | some parent =>
      obtain ⟨htrace, hkind⟩ := hparent parent hb
      exact ⟨unresolved, by simp [hself, hb, htrace, hkind, detectCycle_ok hl]⟩

/-- **The validation succeeds exactly when every link is in order.** -/
theorem validateTopology_ok_iff {states : List DomainSpanState} :
    (∃ v, validateTopology states = .ok v) ↔ ∀ s ∈ states, LinkOk states s := by
  constructor
  · rintro ⟨v, h⟩
    suffices ∀ (todo : List DomainSpanState) (unresolved unresolved' : List SpanId),
        todo.foldlM (validateLink states) unresolved = .ok unresolved' → ∀ s ∈ todo, LinkOk states s by
      unfold validateTopology at h
      cases hf : states.foldlM (validateLink states) [] with
      | error e => rw [hf] at h; cases h
      | ok unresolved => exact this states [] unresolved hf
    intro todo
    induction todo with
    | nil => simp
    | cons t todo ih =>
      intro unresolved unresolved' h s hs
      rw [List.foldlM_cons] at h
      cases ht : validateLink states unresolved t with
      | error e => rw [ht] at h; cases h
      | ok next =>
        rw [ht] at h
        rcases List.mem_cons.mp hs with rfl | hs
        · exact validateLink_ok ht
        · exact ih next unresolved' h s hs
  · intro hl
    suffices ∀ (todo : List DomainSpanState), (∀ s ∈ todo, s ∈ states) → ∀ unresolved,
        ∃ unresolved', todo.foldlM (validateLink states) unresolved = .ok unresolved' by
      obtain ⟨unresolved, h⟩ := this states (fun _ h => h) []
      exact ⟨⟨unresolved⟩, by rw [validateTopology, h]; rfl⟩
    intro todo
    induction todo with
    | nil => exact fun _ unresolved => ⟨unresolved, rfl⟩
    | cons t todo ih =>
      intro hsub unresolved
      obtain ⟨next, hnext⟩ := validateLink_isOk hl unresolved (hsub t List.mem_cons_self)
      obtain ⟨unresolved', h⟩ := ih (fun s hs => hsub s (List.mem_cons_of_mem _ hs)) next
      exact ⟨unresolved', by rw [List.foldlM_cons, hnext]; exact h⟩

end AgentObservability.Domain
