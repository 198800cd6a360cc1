import AgentObservability.Dashboard.Fingerprints
import AgentObservability.Dashboard.LeaseScans
import AgentObservability.Dashboard.LeaseTable

/-!
# Runs of the query service

A run is the exchanges of the service, one after the other, with a clock that does
not go back. This module has what is said about a run: what a cursor was issued
for, which chain it belongs to, and what the answers of a chain are together.

The query of a page is taken apart once (`page_paged`): either it is refused, or
its state stands for the cursor and the page ends as `Finished` says.
-/

namespace AgentObservability.Dashboard

open Domain Contracts Foundation Report DashboardQueryService

variable {A : Type}

/-! ### Exchanges -/

/-- The scope of a request for a page, and its cursor. -/
def requestScope : DashboardQueryRequestV1 → Option (QueryScope × Option String)
  | .bootstrap _ => none
  | .traces snapshotId filters cursor => some (⟨snapshotId, filters.getD {}, .traces, none⟩, cursor)
  | .spans snapshotId filters traceId cursor => some (⟨snapshotId, filters.getD {}, .spans, some traceId⟩, cursor)
  | .summary snapshotId filters cursor => some (⟨snapshotId, filters.getD {}, .summary, none⟩, cursor)
  | .span _ _ _ _ => none
  | .facets snapshotId filters cursor => some (⟨snapshotId, filters.getD {}, .facets, none⟩, cursor)

/-- A request, when it was made and what came of it. -/
structure Exchange (A : Type) where
  /-- The time. -/
  time : ℕ
  /-- The request. -/
  request : DashboardQueryRequestV1
  /-- The response. -/
  response : DashboardQueryResponseV1 A
  /-- The cursor that was issued for it. -/
  issued : Option String

/-- What a request is about, once it is normal. -/
def Exchange.scope [Lowercase] (e : Exchange A) : Option (QueryScope × Option String) :=
  requestScope (normalizeRequest e.request)

/-- The normal request for a page. -/
def QueryScope.request (scope : QueryScope) (cursor : Option String) : DashboardQueryRequestV1 :=
  match scope.kind with
  | .traces => .traces scope.snapshotId scope.filters cursor
  | .spans => .spans scope.snapshotId scope.filters (scope.traceId.getD "") cursor
  | .summary => .summary scope.snapshotId scope.filters cursor
  | _ => .facets scope.snapshotId scope.filters cursor

/-- A request that is normal is known by its scope and its cursor. -/
theorem normalizeRequest_of_scope [Lowercase] {request : DashboardQueryRequestV1} {scope : QueryScope} {cursor : Option String}
    (h : requestScope (normalizeRequest request) = some (scope, cursor)) : normalizeRequest request = scope.request cursor := by
  cases request with
  | bootstrap => cases h
  | span => cases h
  | traces => cases h; rfl
  | spans => cases h; rfl
  | summary => cases h; rfl
  | facets => cases h; rfl

section Run

variable [Sha2] [Amount A] [Lowercase]

/-- The exchange of a query. -/
def exchange (store : Store A) (late : ℕ → Bool) (now : ℕ) (request : DashboardQueryRequestV1) (s : DashboardQueryService A) :
    Exchange A where
  time := now
  request := request
  response := (query store late now request s).2
  issued := if (query store late now request s).1.sequence = s.sequence then none else some s.nextCursorId.2

/-- A run of queries, the last exchange first. -/
inductive Run (store : Store A) (secret : List UInt8) (processId : ℕ) : List (Exchange A) → DashboardQueryService A → Prop
  /-- A service that has just been started. -/
  | start : Run store secret processId [] (DashboardQueryService.new secret processId)
  /-- One more query, not before the others. -/
  | query {past : List (Exchange A)} {s : DashboardQueryService A} (late : ℕ → Bool) (now : ℕ)
    (request : DashboardQueryRequestV1) (hrun : Run store secret processId past s) (hclock : ∀ e ∈ past, e.time ≤ now) :
    Run store secret processId (exchange store late now request s :: past) (query store late now request s).1

end Run

/-- The cursor belongs to the chain that an exchange began. -/
inductive Begun [Lowercase] (past : List (Exchange A)) (first : Exchange A) : String → Prop
  /-- The first cursor of the chain. -/
  | first (scope : QueryScope) (c : String) (hmem : first ∈ past) (hscope : first.scope = some (scope, none))
    (hissued : first.issued = some c) : Begun past first c
  /-- A cursor that was issued for another one of the chain. -/
  | next (e : Exchange A) (scope : QueryScope) (p c : String) (hp : Begun past first p) (hmem : e ∈ past)
    (hscope : e.scope = some (scope, some p)) (hissued : e.issued = some c) : Begun past first c

/-- The rows that the answers of a chain have up to a cursor, or up to the end. -/
inductive Followed [Lowercase] (past : List (Exchange A)) (scope : QueryScope) : List Item → Option String → Prop
  /-- The answer to a request without a cursor. -/
  | first (e : Exchange A) (rows : PageRows A) (next : Option String) (hmem : e ∈ past) (hscope : e.scope = some (scope, none))
    (hanswer : e.response = .page rows next) : Followed past scope rows.items next
  /-- The answer to the request with the next cursor. -/
  | next (items : List Item) (e : Exchange A) (c : String) (rows : PageRows A) (next : Option String)
    (hitems : Followed past scope items (some c)) (hmem : e ∈ past) (hscope : e.scope = some (scope, some c))
    (hanswer : e.response = .page rows next) : Followed past scope (items ++ rows.items) next

/-! ### Digests -/

/-- The messages that a run digests: those of the cursors up to the next one, and the filters. -/
def digested [Lowercase] (secret : List UInt8) (processId : ℕ) (past : List (Exchange A)) : List (List UInt8) :=
  (List.range ((past.filterMap Exchange.issued).length + 2)).map (fun n => cursorMessage secret processId (n % 2 ^ 64)) ++
    past.filterMap fun e => e.scope.map fun scope => utf8 (filtersJson scope.1.filters)

/-- No two of the messages have the same digest. -/
def Collisionless [Sha2] (messages : List (List UInt8)) : Prop :=
  ∀ a ∈ messages, ∀ b ∈ messages, Sha2.hexDigest a = Sha2.hexDigest b → a = b

theorem length_issued_le (e : Exchange A) (past : List (Exchange A)) :
    (past.filterMap Exchange.issued).length ≤ ((e :: past).filterMap Exchange.issued).length := by
  rw [← List.singleton_append, List.filterMap_append, List.length_append]
  exact Nat.le_add_left _ _

theorem digested_cons [Lowercase] {secret : List UInt8} {processId : ℕ} {e : Exchange A} {past : List (Exchange A)} :
    digested secret processId past ⊆ digested secret processId (e :: past) := by
  intro message h
  have hlength := length_issued_le e past
  simp only [digested, List.mem_append, List.mem_map, List.mem_range, List.mem_filterMap] at h ⊢
  obtain ⟨n, hn, rfl⟩ | ⟨e', he', h⟩ := h
  · exact .inl ⟨n, by omega, rfl⟩
  · exact .inr ⟨e', List.mem_cons_of_mem _ he', h⟩

theorem Collisionless.mono [Sha2] {messages messages' : List (List UInt8)} (h : Collisionless messages') (hsub : messages ⊆ messages') :
    Collisionless messages := fun a ha b hb => h a (hsub ha) b (hsub hb)

/-- The fingerprint of filters that were asked for tells them. -/
theorem scope_of_binding [Sha2] [Lowercase] {secret : List UInt8} {processId : ℕ} {past : List (Exchange A)}
    (h : Collisionless (digested secret processId past)) {e e' : Exchange A} (he : e ∈ past) (he' : e' ∈ past)
    {scope scope' : QueryScope} {c c' : Option String} (hscope : e.scope = some (scope, c)) (hscope' : e'.scope = some (scope', c'))
    (hbinding : CursorBinding.new scope = CursorBinding.new scope') : scope = scope' := by
  have hmem : ∀ e ∈ past, ∀ scope c, e.scope = some (scope, c) → utf8 (filtersJson scope.filters) ∈ digested secret processId past := by
    intro e he scope c hscope
    refine List.mem_append_right _ (List.mem_filterMap.mpr ⟨e, he, ?_⟩)
    rw [hscope]
    rfl
  have hfilters : scope.filters = scope'.filters :=
    filters_of_json (h _ (hmem e he _ _ hscope) _ (hmem e' he' _ _ hscope') (congrArg CursorBinding.filterFingerprint hbinding))
  have hsnapshot : scope.snapshotId = scope'.snapshotId := congrArg CursorBinding.snapshotId hbinding
  have hkind : scope.kind = scope'.kind := congrArg CursorBinding.kind hbinding
  have htrace : scope.traceId = scope'.traceId := congrArg CursorBinding.traceId hbinding
  cases scope
  cases scope'
  simp_all

/-! ### The query of a page -/

section Page

variable [Sha2] {s s' : DashboardQueryService A} {scope : QueryScope} {start : CursorState A}
  {scan : CursorState A → Except DashboardStatusReasonV1 (ScannedPage A)} {cursorId : Option String} {now : ℕ}

theorem DashboardQueryService.SameIds.nextCursorId (h : SameIds s s') : s'.nextCursorId.2 = s.nextCursorId.2 := by
  rw [DashboardQueryService.nextCursorId, DashboardQueryService.nextCursorId, h.1, h.2.1, h.2.2]

/-- What the state of a page is: that of the lease of its cursor, or the start. -/
def Resolved (s : DashboardQueryService A) (scope : QueryScope) (start : CursorState A) (cursorId : Option String)
    (state : CursorState A) (replay : Option (ReplayBoundary A)) : Prop :=
  match cursorId with
  | none => state = start ∧ replay = none
  | some id => ∃ lease, s.leases.get? id = some lease ∧ lease.binding = CursorBinding.new scope ∧ lease.state = state ∧
      lease.replay = replay

/-- What the query of a page comes to. -/
inductive Paged (scope : QueryScope) (start : CursorState A)
    (scan : CursorState A → Except DashboardStatusReasonV1 (ScannedPage A)) (cursorId : Option String) (now : ℕ)
    (s : DashboardQueryService A) : DashboardQueryService A → DashboardQueryResponseV1 A → Prop
  /-- The cursor is not there, or its scope is another one. -/
  | unknown (id : String) (reason : DashboardStatusReasonV1) (hcursor : cursorId = some id)
    (hreason : s.leases.get? id = none ∧ reason = .snapshotExpired ∨
      ∃ lease, s.leases.get? id = some lease ∧ lease.binding ≠ CursorBinding.new scope ∧ reason = .invalidQuery) :
    Paged scope start scan cursorId now s s (.status reason)
  /-- The scan failed. -/
  | failed (s₁ : DashboardQueryService A) (state : CursorState A) (replay : Option (ReplayBoundary A))
    (reason : DashboardStatusReasonV1) (ids : SameIds s s₁) (kept : Kept s.leases s₁.leases)
    (hresolved : Resolved s₁ scope start cursorId state replay) (hscan : scan state = .error reason) :
    Paged scope start scan cursorId now s s₁ (.status reason)
  /-- The page could not be made again. -/
  | refused (s₂ : DashboardQueryService A) (ids : SameIds s s₂) (kept : Kept s.leases s₂.leases) :
    Paged scope start scan cursorId now s s₂ (.status .snapshotExpired)
  /-- There is a page. -/
  | answered (s₁ s₂ : DashboardQueryService A) (state : CursorState A) (replay : Option (ReplayBoundary A))
    (scanned : ScannedPage A) (next : Option String) (ids : SameIds s s₁) (kept : Kept s.leases s₁.leases)
    (hresolved : Resolved s₁ scope start cursorId state replay) (hscan : scan state = .ok scanned)
    (hfinished : Finished s₁ cursorId (CursorBinding.new scope) scanned.output scanned.exhausted replay now s₂ (.ok next)) :
    Paged scope start scan cursorId now s s₂ (.page scanned.rows next)

/-- The end of a page, of any kind. -/
theorem finishPage_finished (scope : QueryScope) (now : ℕ) (output : CursorState A) (exhausted : Bool)
    {replay : Option (ReplayBoundary A)} (hfresh : s.leases.get? s.nextCursorId.2 = none) (hparent : Parent s cursorId replay) :
    ∃ s' answer, (if isHistoryKind scope.kind then
        s.finishHistoryPage cursorId (CursorBinding.new scope) output exhausted replay now
      else s.finishConsumedPage cursorId (CursorBinding.new scope) output exhausted now) = (s', answer) ∧
      Finished s cursorId (CursorBinding.new scope) output exhausted replay now s' answer := by
  refine ⟨_, _, rfl, ?_⟩
  cases hkind : isHistoryKind scope.kind with
  | true => exact finishHistoryPage_finished hkind hfresh hparent
  | false =>
    refine finishConsumedPage_finished hkind hfresh fun id hid => ?_
    cases cursorId with
    | none => cases hid
    | some id' =>
      cases hid
      obtain ⟨lease, hget, _⟩ := hparent
      exact ⟨lease, hget⟩

/-- The part of `page` after its cursor was resolved. -/
def pageFrom (scope : QueryScope) (scan : CursorState A → Except DashboardStatusReasonV1 (ScannedPage A))
    (cursorId : Option String) (now : ℕ) (s : DashboardQueryService A) (state : CursorState A)
    (replay : Option (ReplayBoundary A)) : DashboardQueryService A × DashboardQueryResponseV1 A :=
  match scan state with
  | .error reason => (s, .status reason)
  | .ok scanned =>
    let finished :=
      if isHistoryKind scope.kind then
        s.finishHistoryPage cursorId (CursorBinding.new scope) scanned.output scanned.exhausted replay now
      else s.finishConsumedPage cursorId (CursorBinding.new scope) scanned.output scanned.exhausted now
    match finished.2 with
    | .error reason => (finished.1, .status reason)
    | .ok nextCursor => (finished.1, .page scanned.rows nextCursor)

theorem page_none : page scope start scan none now s = pageFrom scope scan none now s start none := rfl

theorem page_of_ok {id : String} {lease : CursorLease A}
    (h : (s.resolveLease id (CursorBinding.new scope) now).2 = .ok lease) : page scope start scan (some id) now s =
      pageFrom scope scan (some id) now (s.resolveLease id (CursorBinding.new scope) now).1 lease.state lease.replay := by
  rw [page]
  simp only [h]
  rfl

theorem page_of_error {id : String} {reason : DashboardStatusReasonV1}
    (h : (s.resolveLease id (CursorBinding.new scope) now).2 = .error reason) : page scope start scan (some id) now s =
      ((s.resolveLease id (CursorBinding.new scope) now).1, .status reason) := by
  rw [page]
  simp only [h]
  rfl

theorem pageFrom_paged {s₁ : DashboardQueryService A} {state : CursorState A} {replay : Option (ReplayBoundary A)}
    (hfresh : s.leases.get? s.nextCursorId.2 = none) (ids : SameIds s s₁) (kept : Kept s.leases s₁.leases)
    (hresolved : Resolved s₁ scope start cursorId state replay) :
    Paged scope start scan cursorId now s (pageFrom scope scan cursorId now s₁ state replay).1
      (pageFrom scope scan cursorId now s₁ state replay).2 := by
  have hparent : Parent s₁ cursorId replay := by
    cases cursorId with
    | none => exact hresolved.2
    | some id =>
      obtain ⟨lease, hget, _, _, hreplay⟩ := hresolved
      exact ⟨lease, hget, hreplay⟩
  have hfresh₁ : s₁.leases.get? s₁.nextCursorId.2 = none := by
    rw [ids.nextCursorId]
    cases hget : s₁.leases.get? s.nextCursorId.2 with
    | none => rfl
    | some l =>
      obtain ⟨l₀, hl₀, _⟩ := kept.same _ _ hget
      rw [hfresh] at hl₀
      cases hl₀
  rw [pageFrom]
  cases hscan : scan state with
  | error reason => exact .failed s₁ state replay reason ids kept hresolved hscan
  | ok scanned =>
    obtain ⟨s₂, answer, hfinish, hfinished⟩ := finishPage_finished scope now scanned.output scanned.exhausted hfresh₁ hparent
    simp only [hfinish]
    cases answer with
    | ok next => exact .answered s₁ s₂ state replay scanned next ids kept hresolved hscan hfinished
    | error reason =>
      cases hfinished with
      | refused _ ids' kept' => exact .refused s₂ (ids.trans ids') (kept.trans kept')

/-- **What the query of a page comes to.** -/
theorem page_paged (hfresh : s.leases.get? s.nextCursorId.2 = none) :
    Paged scope start scan cursorId now s (page scope start scan cursorId now s).1 (page scope start scan cursorId now s).2 := by
  cases cursorId with
  | none => exact pageFrom_paged hfresh ⟨rfl, rfl, rfl⟩ (.refl _) ⟨rfl, rfl⟩
  | some id =>
    cases hresolve : (s.resolveLease id (CursorBinding.new scope) now).2 with
    | ok lease =>
      rw [page_of_ok hresolve]
      obtain ⟨hbinding, _, hget⟩ := resolveLease_eq_ok hresolve
      exact pageFrom_paged hfresh sameIds_resolveLease kept_resolveLease ⟨lease, hget, hbinding, rfl, rfl⟩
    | error reason =>
      rw [page_of_error hresolve]
      obtain ⟨hsame, hreason⟩ := resolveLease_eq_error hresolve
      rw [hsame]
      exact .unknown id reason rfl hreason

end Page

end AgentObservability.Dashboard
