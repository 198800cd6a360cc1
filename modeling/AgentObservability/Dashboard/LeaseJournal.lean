import AgentObservability.Dashboard.LeaseRuns

/-!
# The journal of the cursors

The journal of a run has what every cursor that was issued stands for. `Inv` says
that the leases agree with the journal, that a lease remembers the page that was
made of it, and that every answer goes on where its cursor stands. A query keeps
it (`Inv.query`), whatever comes of the page: one lemma for each way a page can
end.
-/

namespace AgentObservability.Dashboard

open Domain Contracts Foundation Report DashboardQueryService

variable {A : Type}

/-- A cursor that was issued, and what it stands for. -/
structure Issue (A : Type) where
  /-- The cursor. -/
  cursor : String
  /-- What it was issued for. -/
  scope : QueryScope
  /-- Where the scan goes on. -/
  state : CursorState A
  /-- When its chain began. -/
  created : ℕ

/-- What a cursor stands for; without a cursor, the start. -/
inductive StandsFor (journal : List (Issue A)) (scope : QueryScope) : Option String → CursorState A → Prop
  /-- There is no cursor. -/
  | start : StandsFor journal scope none scope.start
  /-- The cursor was issued for the scope. -/
  | issue (i : Issue A) (hmem : i ∈ journal) (hscope : i.scope = scope) : StandsFor journal scope (some i.cursor) i.state

theorem StandsFor.mono {journal journal' : List (Issue A)} {scope : QueryScope} {cursor : Option String} {state : CursorState A}
    (h : StandsFor journal scope cursor state) (hsub : journal ⊆ journal') : StandsFor journal' scope cursor state := by
  cases h with
  | start => exact .start
  | issue i hmem hscope => exact .issue i (hsub hmem) hscope

theorem eq_of_cursor {journal : List (Issue A)} (hnodup : (journal.map Issue.cursor).Nodup) {i i' : Issue A} (h : i ∈ journal)
    (h' : i' ∈ journal) (hcursor : i.cursor = i'.cursor) : i = i' := List.inj_on_of_nodup_map hnodup h h' hcursor

/-- A cursor stands for one state. -/
theorem StandsFor.unique {journal : List (Issue A)} (hnodup : (journal.map Issue.cursor).Nodup) {scope scope' : QueryScope}
    {c : String} {state state' : CursorState A} (h : StandsFor journal scope (some c) state)
    (h' : StandsFor journal scope' (some c) state') : scope = scope' ∧ state = state' := by
  cases h with
  | issue i hmem hscope =>
    generalize hc : some i.cursor = cursor at h'
    cases h' with
    | start => cases hc
    | issue i' hmem' hscope' =>
      obtain rfl := eq_of_cursor hnodup hmem hmem' (Option.some.inj hc)
      exact ⟨hscope.symm.trans hscope', rfl⟩

/-- The exchange issued the cursor: at the beginning of a chain, or after another cursor of the chain. -/
def Exchange.Issues [Lowercase] (e : Exchange A) (journal : List (Issue A)) (i : Issue A) : Prop :=
  e.issued = some i.cursor ∧ ∃ cursor, e.scope = some (i.scope, cursor) ∧
    match cursor with
    | none => i.created = e.time
    | some c => ∃ parent ∈ journal, parent.cursor = c ∧ i.created = parent.created

theorem Exchange.Issues.mono [Lowercase] {e : Exchange A} {journal journal' : List (Issue A)} {i : Issue A}
    (h : e.Issues journal i) (hsub : journal ⊆ journal') : e.Issues journal' i := by
  obtain ⟨hissued, cursor, hscope, hcreated⟩ := h
  refine ⟨hissued, cursor, hscope, ?_⟩
  cases cursor with
  | none => exact hcreated
  | some c =>
    obtain ⟨parent, hparent, hc⟩ := hcreated
    exact ⟨parent, hsub hparent, hc⟩

/-- A lease remembers the page that an exchange has shown of its cursor. -/
def Remembers [Lowercase] (e : Exchange A) (c : String) (l : CursorLease A) : Prop :=
  ∀ scope rows next, e.scope = some (scope, some c) → isHistoryKind scope.kind = true → e.response = .page rows next →
    ∃ b, l.replay = some b ∧ b.nextCursor = next

section Journal

variable [Lowercase]

/-- What is to be read after a page, given its next cursor. -/
inductive Left (store : Store A) (journal : List (Issue A)) (scope : QueryScope) : Option String → List Item → Prop
  /-- There is no more. -/
  | done : Left store journal scope none []
  /-- The rest from the state of the cursor. -/
  | more (c : String) (state : CursorState A) (h : StandsFor journal scope (some c) state) :
    Left store journal scope (some c) (rest store scope state)

theorem Left.mono {store : Store A} {journal journal' : List (Issue A)} {scope : QueryScope} {next : Option String}
    {left : List Item} (h : Left store journal scope next left) (hsub : journal ⊆ journal') : Left store journal' scope next left := by
  cases h with
  | done => exact .done
  | more c state h => exact .more c state (h.mono hsub)

theorem Left.unique {store : Store A} {journal : List (Issue A)} (hnodup : (journal.map Issue.cursor).Nodup) {scope : QueryScope}
    {next : Option String} {left left' : List Item} (h : Left store journal scope next left)
    (h' : Left store journal scope next left') : left = left' := by
  cases h with
  | done =>
    cases h' with
    | done => rfl
  | more c state h =>
    cases h' with
    | more _ state' h' => rw [(h.unique hnodup h').2]

/-- The boundary of a page is where the scan went on. -/
def Bounds (store : Store A) (journal : List (Issue A)) (scope : QueryScope) (b : ReplayBoundary A) : Prop :=
  Left store journal scope b.nextCursor (if b.exhausted then [] else rest store scope b.outputState)

variable [Sha2]

/-- A lease agrees with the journal, and with what was shown of it. -/
structure Leased (store : Store A) (past : List (Exchange A)) (journal : List (Issue A)) (i : Issue A)
    (l : CursorLease A) : Prop where
  binding : l.binding = CursorBinding.new i.scope
  state : l.state = i.state
  created : l.createdAt = i.created
  bounds : ∀ b, l.replay = some b → Bounds store journal i.scope b
  remembers : ∀ e ∈ past, Remembers e i.cursor l

variable {store : Store A} {past : List (Exchange A)} {journal journal' : List (Issue A)} {e : Exchange A} {i : Issue A}
  {l l' : CursorLease A}

theorem Leased.same (h : Leased store past journal i l) (hsame : l.Same l') : Leased store past journal i l' where
  binding := hsame.binding.trans h.binding
  state := hsame.state.trans h.state
  created := hsame.createdAt.trans h.created
  bounds b hb := h.bounds b (hsame.replay ▸ hb)
  remembers e he scope rows next hscope hhistory hanswer := by
    rw [hsame.replay]
    exact h.remembers e he scope rows next hscope hhistory hanswer

theorem Leased.mono (h : Leased store past journal i l) (hsub : journal ⊆ journal') : Leased store past journal' i l where
  binding := h.binding
  state := h.state
  created := h.created
  bounds b hb := (h.bounds b hb).mono hsub
  remembers := h.remembers

theorem Leased.cons (h : Leased store past journal i l) (he : Remembers e i.cursor l) : Leased store (e :: past) journal i l where
  binding := h.binding
  state := h.state
  created := h.created
  bounds := h.bounds
  remembers e' he' := by
    obtain rfl | he' := List.mem_cons.mp he'
    · exact he
    · exact h.remembers e' he'

/-- A lease that gets its boundary. -/
theorem Leased.bound (h : Leased store past journal i l) (hnone : l.replay = none) {b : ReplayBoundary A}
    (hb : Bounds store journal i.scope b) : Leased store past journal i { l with replay := some b } where
  binding := h.binding
  state := h.state
  created := h.created
  bounds b' hb' := by
    cases hb'
    exact hb
  remembers e he scope rows next hscope hhistory hanswer := by
    -- Nothing was shown of a lease without a boundary.
    obtain ⟨b', hb', _⟩ := h.remembers e he scope rows next hscope hhistory hanswer
    rw [hnone] at hb'
    cases hb'

/-! ### The invariant -/

variable [Amount A]

/-- What an answer with a page says: its rows and what is left after them are what there is to read from its cursor. -/
structure Answer (store : Store A) (journal : List (Issue A)) (e : Exchange A) (scope : QueryScope) (cursor : Option String)
    (rows : PageRows A) (next : Option String) : Prop where
  kind : rows.kind = scope.kind
  slice : ∃ state left, StandsFor journal scope cursor state ∧ Left store journal scope next left ∧
    rows.items ++ left = rest store scope state ∧ ∃ late scanned, scanPage store late scope state = .ok scanned
  summary : ∀ kpis, rows = .summary (some kpis) →
    Summarized (store.view scope).kernel (store.view scope).rows scope.filters kpis
  accepted : store.refuses (normalizeRequest e.request) (.page rows next) = none
  time : ∀ c ∈ cursor, ∃ i ∈ journal, i.cursor = c ∧ e.time ≤ i.created + cursorHardTtl

omit [Sha2] in
theorem Answer.mono {store : Store A} {journal journal' : List (Issue A)} {e : Exchange A} {scope : QueryScope}
    {cursor : Option String} {rows : PageRows A} {next : Option String} (h : Answer store journal e scope cursor rows next)
    (hsub : journal ⊆ journal') : Answer store journal' e scope cursor rows next where
  kind := h.kind
  slice := by
    obtain ⟨state, left, hstate, hleft, hslice⟩ := h.slice
    exact ⟨state, left, hstate.mono hsub, hleft.mono hsub, hslice⟩
  summary := h.summary
  accepted := h.accepted
  time c hc := by
    obtain ⟨i, hi, htime⟩ := h.time c hc
    exact ⟨i, hsub hi, htime⟩

/-- The answer of an exchange, if it is a page, is a right one. -/
def Exchange.Answered (store : Store A) (journal : List (Issue A)) (e : Exchange A) : Prop :=
  ∀ scope cursor rows next, e.scope = some (scope, cursor) → e.response = .page rows next →
    Answer store journal e scope cursor rows next

/-- **The invariant of a run.** -/
structure Inv (store : Store A) (secret : List UInt8) (processId : ℕ) (past : List (Exchange A)) (s : DashboardQueryService A)
    (journal : List (Issue A)) : Prop where
  sameSecret : s.secret = secret
  sameProcess : s.processId = processId
  sequence : s.sequence = journal.length
  length : s.leases.entries.length ≤ maxCursorLeases
  issued : past.filterMap Exchange.issued = journal.map Issue.cursor
  numbered : ∀ i ∈ journal, ∃ n, 1 ≤ n ∧ n ≤ journal.length ∧ i.cursor = Sha2.hexDigest (cursorMessage secret processId n)
  nodup : (journal.map Issue.cursor).Nodup
  valid : ∀ i ∈ journal, ValidState store i.scope i.state
  made : ∀ i ∈ journal, ∃ e ∈ past, e.Issues journal i
  traced : ∀ e ∈ past, ∀ c, e.issued = some c → ∃ i ∈ journal, e.Issues journal i
  answered : ∀ e ∈ past, e.Answered store journal
  leased : ∀ c l, s.leases.get? c = some l → ∃ i ∈ journal, i.cursor = c ∧ Leased store past journal i l

variable {secret : List UInt8} {processId : ℕ} {s s' : DashboardQueryService A} {scope : QueryScope} {cursor : Option String}

theorem inv_new : Inv store secret processId [] (DashboardQueryService.new secret processId) [] where
  sameSecret := rfl
  sameProcess := rfl
  sequence := rfl
  length := Nat.zero_le _
  issued := rfl
  numbered := by simp
  nodup := List.nodup_nil
  valid := by simp
  made := by simp
  traced := by simp
  answered := by simp
  leased c l h := by
    rw [DashboardQueryService.new, OrderedMap.get?_empty] at h
    cases h

/-! ### Steps of the invariant -/

namespace Inv

variable (h : Inv store secret processId past s journal)

include h

/-- Leases that are dropped or touched. -/
theorem kept (ids : SameIds s s') (hkept : Kept s.leases s'.leases) : Inv store secret processId past s' journal where
  sameSecret := ids.1.trans h.sameSecret
  sameProcess := ids.2.1.trans h.sameProcess
  sequence := ids.2.2.trans h.sequence
  length := hkept.length.trans h.length
  issued := h.issued
  numbered := h.numbered
  nodup := h.nodup
  valid := h.valid
  made := h.made
  traced := h.traced
  answered := h.answered
  leased c l' hl' := by
    obtain ⟨l, hl, hsame⟩ := hkept.same c l' hl'
    obtain ⟨i, hi, hc, hleased⟩ := h.leased c l hl
    exact ⟨i, hi, hc, hleased.same hsame⟩

/-- An exchange that issues no cursor. -/
theorem add (ids : SameIds s s') (hlength : s'.leases.entries.length ≤ s.leases.entries.length) (hissued : e.issued = none)
    (hanswered : e.Answered store journal)
    (hleased : ∀ c l, s'.leases.get? c = some l →
      ∃ i ∈ journal, i.cursor = c ∧ Leased store past journal i l ∧ Remembers e c l) :
    Inv store secret processId (e :: past) s' journal where
  sameSecret := ids.1.trans h.sameSecret
  sameProcess := ids.2.1.trans h.sameProcess
  sequence := ids.2.2.trans h.sequence
  length := hlength.trans h.length
  issued := by rw [List.filterMap_cons_none hissued, h.issued]
  numbered := h.numbered
  nodup := h.nodup
  valid := h.valid
  made i hi := by
    obtain ⟨e', he', hissues⟩ := h.made i hi
    exact ⟨e', List.mem_cons_of_mem _ he', hissues⟩
  traced e' he' c hc := by
    obtain rfl | he' := List.mem_cons.mp he'
    · rw [hissued] at hc
      cases hc
    · exact h.traced e' he' c hc
  answered e' he' := by
    obtain rfl | he' := List.mem_cons.mp he'
    · exact hanswered
    · exact h.answered e' he'
  leased c l hl := by
    obtain ⟨i, hi, rfl, hleased, hremembers⟩ := hleased c l hl
    exact ⟨i, hi, rfl, hleased.cons hremembers⟩

/-- The number of cursors of a run. -/
theorem length_journal : journal.length = (past.filterMap Exchange.issued).length := by
  rw [h.issued, List.length_map]

/-- The next cursor id is a new one. -/
theorem fresh (hcoll : Collisionless (digested secret processId past)) (hcount : journal.length < 2 ^ 64) :
    ∀ i ∈ journal, i.cursor ≠ s.nextCursorId.2 := by
  intro i hi heq
  obtain ⟨n, hone, hn, hcursor⟩ := h.numbered i hi
  have hmem : ∀ n ≤ journal.length + 1, cursorMessage secret processId (n % 2 ^ 64) ∈ digested secret processId past := by
    intro n hn
    refine List.mem_append_left _ (List.mem_map.mpr ⟨n, List.mem_range.mpr ?_, rfl⟩)
    rw [← h.length_journal]
    omega
  have hmod : n % 2 ^ 64 = n := Nat.mod_eq_of_lt (by omega)
  have hmessage := hcoll _ (hmod ▸ hmem n (by omega)) _ (hmem (journal.length + 1) le_rfl) (by
    rw [← hcursor, heq, nextCursorId, h.sameSecret, h.sameProcess, h.sequence])
  have := cursorMessage_inj (by omega) (Nat.mod_lt _ (by decide)) hmessage
  omega

theorem fresh_lease (hcoll : Collisionless (digested secret processId past)) (hcount : journal.length < 2 ^ 64) :
    s.leases.get? s.nextCursorId.2 = none := by
  cases hget : s.leases.get? s.nextCursorId.2 with
  | none => rfl
  | some l =>
    obtain ⟨i, hi, hc, _⟩ := h.leased _ l hget
    exact absurd hc (h.fresh hcoll hcount i hi)

end Inv

/-! ### The pages of a query -/

omit [Amount A] [Sha2] in
/-- The start of a scope is a state of it. -/
theorem valid_start [Amount A] {request : DashboardQueryRequestV1} (hscope : requestScope request = some (scope, cursor)) :
    ValidState store scope scope.start := by
  cases request with
  | bootstrap => cases hscope
  | span => cases hscope
  | traces => cases hscope; exact ⟨rfl, by simp [Bounded]⟩
  | spans => cases hscope; rfl
  | summary => cases hscope; exact ⟨rfl, trivial⟩
  | facets => cases hscope; exact ⟨rfl, _, rfl⟩

/-- The lease of a cursor that was resolved, and what it stands for. -/
def HasLease (store : Store A) (past : List (Exchange A)) (journal : List (Issue A)) (s : DashboardQueryService A)
    (scope : QueryScope) (c : String) (state : CursorState A) (replay : Option (ReplayBoundary A)) : Prop :=
  ∃ i ∈ journal, ∃ l, i.cursor = c ∧ i.scope = scope ∧ i.state = state ∧ s.leases.get? c = some l ∧ l.replay = replay ∧
    Leased store past journal i l

omit [Sha2] [Amount A] in
/-- What the lease of a cursor remembers of the last exchange. -/
theorem remembers_of_replay (hscope : e.scope = some (scope, cursor))
    {next : Option String}
    (hnext : ∀ rows next', e.response = .page rows next' → next' = next) {c : String}
    (hreplay : cursor = some c → isHistoryKind scope.kind = true → ∃ b, l.replay = some b ∧ b.nextCursor = next) : Remembers e c l := by
  intro scope' rows next' hscope' hhistory hanswer
  rw [hscope] at hscope'
  cases hscope'
  obtain rfl := hnext rows next' hanswer
  exact hreplay rfl hhistory

omit [Sha2] in
/-- A page that was scanned answers the exchange. -/
theorem answered_of_scan {state : CursorState A} {scanned : ScannedPage A} {next : Option String} {late : ℕ → Bool}
    (hscans : Scans store scope state scanned) (hscan : scanPage store late scope state = .ok scanned)
    (hstands : StandsFor journal scope cursor state)
    (hleft : Left store journal scope next (if scanned.exhausted then [] else rest store scope scanned.output))
    (hscope : e.scope = some (scope, cursor))
    (htime : ∀ c ∈ cursor, ∃ i ∈ journal, i.cursor = c ∧ e.time ≤ i.created + cursorHardTtl)
    (hresponse : ∀ rows next', e.response = .page rows next' →
      rows = scanned.rows ∧ next' = next ∧ store.refuses (normalizeRequest e.request) (.page rows next') = none) :
    e.Answered store journal := by
  intro scope' cursor' rows next' hscope' hanswer
  rw [hscope] at hscope'
  cases hscope'
  obtain ⟨rfl, rfl, haccepted⟩ := hresponse rows next' hanswer
  exact ⟨hscans.kind, ⟨state, _, hstands, hleft, hscans.total, late, scanned, hscan⟩, hscans.summary, haccepted, htime⟩

omit [Lowercase] [Sha2] [Amount A] in
theorem eq_of_samePosition {left right : CursorState A} (h : left.samePosition right = true) : left = right := by
  cases left <;> cases right <;> simp_all [CursorState.samePosition]

namespace Inv

variable {state : CursorState A} {replay : Option (ReplayBoundary A)} {b : ReplayBoundary A} {next : Option String}
  {scanned : ScannedPage A}

/-- What was resolved stands for the cursor. -/
theorem resolved (h : Inv store secret processId past s journal) (hcoll : Collisionless (digested secret processId (e :: past)))
    (hscope : e.scope = some (scope, cursor)) (hresolved : Resolved s scope scope.start cursor state replay) :
    StandsFor journal scope cursor state ∧ ValidState store scope state ∧
      ∀ c ∈ cursor, HasLease store past journal s scope c state replay := by
  cases cursor with
  | none =>
    obtain ⟨rfl, rfl⟩ := hresolved
    exact ⟨.start, valid_start hscope, nofun⟩
  | some c =>
    obtain ⟨l, hget, hbinding, rfl, rfl⟩ := hresolved
    obtain ⟨i, hi, rfl, hleased⟩ := h.leased c l hget
    obtain ⟨e', he', _, cursor', hscope', _⟩ := h.made i hi
    obtain rfl : scope = i.scope := scope_of_binding hcoll List.mem_cons_self (List.mem_cons_of_mem _ he') hscope hscope'
      (hbinding.symm.trans hleased.binding)
    refine ⟨hleased.state ▸ .issue i hi rfl, hleased.state ▸ h.valid i hi, fun c hc => ?_⟩
    cases hc
    exact ⟨i, hi, l, rfl, rfl, hleased.state.symm, hget, rfl, hleased⟩

/-- A page that is not shown: nothing is issued, and there is nothing to remember. -/
theorem unseen (h : Inv store secret processId past s journal) (ids : SameIds s s') (hkept : Kept s.leases s'.leases)
    (hissued : e.issued = none) (hresponse : ∀ rows next, e.response ≠ .page rows next) :
    Inv store secret processId (e :: past) s' journal := by
  have h' := h.kept ids hkept
  refine h'.add ⟨rfl, rfl, rfl⟩ le_rfl hissued (fun _ _ rows next _ hanswer => absurd hanswer (hresponse rows next)) fun c l hl => ?_
  obtain ⟨i, hi, hc, hleased⟩ := h'.leased c l hl
  exact ⟨i, hi, hc, hleased, fun _ rows next _ _ hanswer => absurd hanswer (hresponse rows next)⟩

/-- The same page again: nothing is issued. -/
theorem again (h : Inv store secret processId past s journal) (hissued : e.issued = none)
    (hscope : e.scope = some (scope, cursor)) (hnext : ∀ rows next', e.response = .page rows next' → next' = b.nextCursor)
    (hlease : ∀ c ∈ cursor, HasLease store past journal s scope c state (some b)) (hanswered : e.Answered store journal) :
    Inv store secret processId (e :: past) s journal := by
  refine h.add ⟨rfl, rfl, rfl⟩ le_rfl hissued hanswered fun c l hget => ?_
  obtain ⟨i, hi, hc, hleased⟩ := h.leased c l hget
  refine ⟨i, hi, hc, hleased, remembers_of_replay hscope hnext fun hcursor _ => ?_⟩
  obtain ⟨_, _, l', _, _, _, hget', hreplay, _⟩ := hlease c hcursor
  obtain rfl : l' = l := Option.some.inj (hget'.symm.trans hget)
  exact ⟨b, hreplay, rfl⟩

/-- The last page: a lease of traces or spans remembers that there is no more. -/
theorem last (h : Inv store secret processId past s journal) (hissued : e.issued = none)
    (hscope : e.scope = some (scope, cursor)) (hnext : ∀ rows next', e.response = .page rows next' → next' = none)
    (hlease : ∀ c ∈ cursor, HasLease store past journal s scope c state replay) (hanswered : e.Answered store journal)
    (ids : SameIds s s') (hlength : s'.leases.entries.length ≤ s.leases.entries.length) {output : CursorState A}
    (hold : ∀ k l', s'.leases.get? k = some l' → ∃ l, s.leases.get? k = some l ∧
      ((isHistoryKind scope.kind = true → cursor ≠ some k) ∧ l' = l ∨ cursor = some k ∧ isHistoryKind scope.kind = true ∧
        replay = none ∧ l' = { l with replay := some ⟨output, true, none⟩ })) :
    Inv store secret processId (e :: past) s' journal := by
  refine h.add ids hlength hissued hanswered fun k l' hl' => ?_
  obtain ⟨l, hl, ⟨hother, rfl⟩ | ⟨hcursor, _, hnone, rfl⟩⟩ := hold k l' hl'
  · obtain ⟨i, hi, hk, hleased⟩ := h.leased k l' hl
    exact ⟨i, hi, hk, hleased, remembers_of_replay hscope hnext fun hcursor hhistory => absurd hcursor (hother hhistory)⟩
  · obtain ⟨i, hi, l₀, hk, _, _, hl₀, hreplay, hleased⟩ := hlease k hcursor
    obtain rfl : l₀ = l := Option.some.inj (hl₀.symm.trans hl)
    exact ⟨i, hi, hk, hleased.bound (hreplay.trans hnone) .done, remembers_of_replay hscope hnext fun _ _ => ⟨_, rfl, rfl⟩⟩

/-- A page with a next one: the journal gets its cursor. -/
theorem more (h : Inv store secret processId past s journal) (hfresh : ∀ i ∈ journal, i.cursor ≠ s.nextCursorId.2)
    (hcount : journal.length + 1 < 2 ^ 64) {output : CursorState A} (hvalid : ValidState store scope output)
    (hissued : e.issued = some s.nextCursorId.2) (hscope : e.scope = some (scope, cursor))
    (hnext : ∀ rows next', e.response = .page rows next' → next' = some s.nextCursorId.2)
    (hlease : ∀ c ∈ cursor, HasLease store past journal s scope c state replay)
    (hanswered : ∀ journal', journal ⊆ journal' → StandsFor journal' scope (some s.nextCursorId.2) output →
      e.Answered store journal')
    (hnew : Issued s s' cursor (CursorBinding.new scope) output e.time) (hfirst : isHistoryKind scope.kind = true → replay = none) :
    ∃ i, Inv store secret processId (e :: past) s' (i :: journal) := by
  let i : Issue A := ⟨s.nextCursorId.2, scope, output, ((cursor.bind s.leases.get?).map CursorLease.createdAt).getD e.time⟩
  have hsub : journal ⊆ i :: journal := fun _ => List.mem_cons_of_mem _
  have hstands : StandsFor (i :: journal) scope (some s.nextCursorId.2) output := .issue i List.mem_cons_self rfl
  have hissues : e.Issues (i :: journal) i := by
    refine ⟨hissued, cursor, hscope, ?_⟩
    cases cursor with
    | none => rfl
    | some c =>
      obtain ⟨p, hp, l, hc, _, _, hget, _, hleased⟩ := hlease c rfl
      refine ⟨p, hsub hp, hc, ?_⟩
      simp only [i, Option.bind_some, hget, Option.map_some, Option.getD_some, hleased.created]
  have hold : ∀ i' ∈ i :: journal, i' = i ∨ i' ∈ journal := fun i' hi' => List.mem_cons.mp hi'
  refine ⟨i, ⟨hnew.secret.trans h.sameSecret, hnew.processId.trans h.sameProcess, ?_, hnew.length, ?_, ?_, ?_, ?_, ?_, ?_, ?_, ?_⟩⟩
  · rw [hnew.sequence, h.sequence, List.length_cons, Nat.mod_eq_of_lt hcount]
  · rw [List.filterMap_cons_some hissued, h.issued, List.map_cons]
  · intro i' hi'
    obtain rfl | hi' := hold i' hi'
    · refine ⟨journal.length + 1, by omega, le_rfl, ?_⟩
      show s.nextCursorId.2 = _
      rw [nextCursorId, h.sameSecret, h.sameProcess, h.sequence, Nat.mod_eq_of_lt hcount]
    · obtain ⟨n, hone, hn, hcursor⟩ := h.numbered i' hi'
      exact ⟨n, hone, hn.trans (Nat.le_succ _), hcursor⟩
  · refine List.nodup_cons.mpr ⟨fun hmem => ?_, h.nodup⟩
    obtain ⟨i', hi', hcursor⟩ := List.mem_map.mp hmem
    exact hfresh i' hi' hcursor
  · intro i' hi'
    obtain rfl | hi' := hold i' hi'
    · exact hvalid
    · exact h.valid i' hi'
  · intro i' hi'
    obtain rfl | hi' := hold i' hi'
    · exact ⟨e, List.mem_cons_self, hissues⟩
    · obtain ⟨e', he', hissues'⟩ := h.made i' hi'
      exact ⟨e', List.mem_cons_of_mem _ he', hissues'.mono hsub⟩
  · intro e' he' c hc
    obtain rfl | he' := List.mem_cons.mp he'
    · exact ⟨i, List.mem_cons_self, hissues⟩
    · obtain ⟨i', hi', hissues'⟩ := h.traced e' he' c hc
      exact ⟨i', hsub hi', hissues'.mono hsub⟩
  · intro e' he'
    obtain rfl | he' := List.mem_cons.mp he'
    · exact hanswered _ hsub hstands
    · exact fun scope cursor rows next hscope hanswer => (h.answered e' he' scope cursor rows next hscope hanswer).mono hsub
  · intro k l' hl'
    by_cases hk : k = s.nextCursorId.2
    · subst hk
      obtain ⟨hbinding, hstate, hreplay, hcreated⟩ := hnew.new l' hl'
      refine ⟨i, List.mem_cons_self, rfl, hbinding, hstate, hcreated, fun b hb => ?_, ?_⟩
      · rw [hreplay] at hb
        cases hb
      · -- No exchange was about the cursor before it was issued.
        intro e' he' scope' rows next hscope' _ hanswer
        obtain rfl | he' := List.mem_cons.mp he'
        · rw [hscope] at hscope'
          obtain ⟨i', hi', _, hcursor, _⟩ := hlease _ (Prod.mk.inj (Option.some.inj hscope')).2
          exact absurd hcursor (hfresh i' hi')
        · obtain ⟨i', hi', hcursor, _⟩ := (h.answered e' he' _ _ _ _ hscope' hanswer).time _ rfl
          exact absurd hcursor (hfresh i' hi')
    · obtain ⟨l, hl, ⟨hother, rfl⟩ | ⟨hcursor, hhistory, rfl⟩⟩ := hnew.old k l' hk hl'
      · obtain ⟨i', hi', hk', hleased⟩ := h.leased k l' hl
        subst hk'
        exact ⟨i', hsub hi', rfl, (hleased.mono hsub).cons (remembers_of_replay hscope hnext fun hcursor _ => absurd hcursor hother)⟩
      · obtain ⟨i', hi', l₀, hk', hiscope, _, hl₀, hreplay, hleased⟩ := hlease k hcursor
        obtain rfl : l₀ = l := Option.some.inj (hl₀.symm.trans hl)
        subst hk'
        refine ⟨i', hsub hi', rfl, Leased.cons ?_ (remembers_of_replay hscope hnext fun _ _ => ⟨_, rfl, rfl⟩)⟩
        refine (hleased.mono hsub).bound (hreplay.trans (hfirst hhistory)) ?_
        rw [hiscope]
        exact .more _ _ hstands

/-- **A query for a page keeps the invariant.** -/
theorem of_paged (h : Inv store secret processId past s journal) (hpub : store.Published) {late : ℕ → Bool}
    (hcoll : Collisionless (digested secret processId (e :: past))) (hcount : ((e :: past).filterMap Exchange.issued).length < 2 ^ 64)
    (hscope : e.scope = some (scope, cursor))
    (htime : ∀ c l, s.leases.get? c = some l → e.time ≤ l.createdAt + cursorHardTtl) {r : DashboardQueryResponseV1 A}
    (hpaged : Paged scope scope.start (scanPage store late scope) cursor e.time s s' r)
    (hresponse : ∀ rows next, e.response = .page rows next →
      r = .page rows next ∧ store.refuses (normalizeRequest e.request) (.page rows next) = none)
    (hissued : e.issued = if s'.sequence = s.sequence then none else some s.nextCursorId.2) :
    ∃ journal', journal ⊆ journal' ∧ Inv store secret processId (e :: past) s' journal' := by
  have hnotIssued : SameIds s s' → e.issued = none := by
    intro ids
    rw [hissued, if_pos ids.2.2]
  cases hpaged with
  | unknown id reason hcursor hreason =>
    exact ⟨journal, List.Subset.refl _, h.unseen ⟨rfl, rfl, rfl⟩ (.refl _) (hnotIssued ⟨rfl, rfl, rfl⟩) fun rows next hpage => by
      cases (hresponse rows next hpage).1⟩
  | failed s₁ state replay reason ids kept hresolved hscan =>
    exact ⟨journal, List.Subset.refl _, h.unseen ids kept (hnotIssued ids) fun rows next hpage => by
      cases (hresponse rows next hpage).1⟩
  | refused s₂ ids kept =>
    exact ⟨journal, List.Subset.refl _, h.unseen ids kept (hnotIssued ids) fun rows next hpage => by
      cases (hresponse rows next hpage).1⟩
  | answered s₁ s₂ state replay scanned next ids hkept hresolved hscan hfinished =>
    have h₁ := h.kept ids hkept
    obtain ⟨hstands, hvalid, hlease⟩ := h₁.resolved hcoll hscope hresolved
    have hscans := scanPage_scans hpub hvalid hscan
    have hcursors : ∀ c ∈ cursor, ∃ i ∈ journal, i.cursor = c ∧ e.time ≤ i.created + cursorHardTtl := by
      intro c hc
      obtain ⟨i, hi, l, hcursor, _, _, hget, _, hleased⟩ := hlease c hc
      obtain ⟨l₀, hl₀, hsame⟩ := hkept.same c l hget
      refine ⟨i, hi, hcursor, ?_⟩
      rw [← hleased.created, hsame.createdAt]
      exact htime c l₀ hl₀
    have hshown : ∀ rows next', e.response = .page rows next' →
        rows = scanned.rows ∧ next' = next ∧ store.refuses (normalizeRequest e.request) (.page rows next') = none := by
      intro rows next' hpage
      obtain ⟨hr, haccepted⟩ := hresponse rows next' hpage
      cases hr
      exact ⟨rfl, rfl, haccepted⟩
    have hnext : ∀ rows next', e.response = .page rows next' → next' = next := fun rows next' hpage => (hshown rows next' hpage).2.1
    have hanswered : ∀ journal', journal ⊆ journal' →
        Left store journal' scope next (if scanned.exhausted then [] else rest store scope scanned.output) →
        e.Answered store journal' := by
      intro journal' hsub hleft
      refine answered_of_scan hscans hscan (hstands.mono hsub) hleft hscope (fun c hc => ?_) hshown
      obtain ⟨i, hi, htime⟩ := hcursors c hc
      exact ⟨i, hsub hi, htime⟩
    cases hfinished with
    | again boundary hhistory hreplay hexhausted hposition =>
      subst hreplay
      have hissued' := hnotIssued ids
      obtain ⟨c, rfl⟩ : ∃ c, cursor = some c := by
        cases cursor with
        | none => cases hresolved.2
        | some c => exact ⟨c, rfl⟩
      obtain ⟨i, hi, l, hc, rfl, _, _, hreplay, hleased⟩ := hlease c rfl
      have hbounds := hleased.bounds boundary hreplay
      rw [Bounds, hexhausted, eq_of_samePosition hposition] at hbounds
      exact ⟨journal, List.Subset.refl _, h₁.again hissued' hscope hnext hlease (hanswered journal (List.Subset.refl _) hbounds)⟩
    | last _ ids' hlength hexhausted _ hold =>
      have hissued' := hnotIssued (ids.trans ids')
      refine ⟨journal, List.Subset.refl _, h₁.last hissued' hscope hnext hlease (hanswered journal (List.Subset.refl _) ?_)
        ids' hlength hold⟩
      rw [if_pos hexhausted]
      exact .done
    | more _ hnew hexhausted hfirst =>
      have hlength : journal.length < 2 ^ 64 := by
        rw [h.length_journal]
        exact lt_of_le_of_lt (length_issued_le e past) hcount
      have hissued' : e.issued = some s₁.nextCursorId.2 := by
        rw [hissued, ids.nextCursorId, if_neg]
        rw [hnew.sequence, ids.2.2, h.sequence]
        omega
      have hcount' : journal.length + 1 < 2 ^ 64 := by
        rw [List.filterMap_cons_some hissued', List.length_cons, ← h.length_journal] at hcount
        exact hcount
      obtain ⟨i, hinv⟩ := h₁.more (h₁.fresh (hcoll.mono digested_cons) hlength) hcount' (hscans.valid hexhausted) hissued' hscope hnext
        hlease (fun journal' hsub hstands' => hanswered journal' hsub (by rw [hexhausted]; exact .more _ _ hstands')) hnew hfirst
      exact ⟨_, fun _ => List.mem_cons_of_mem _, hinv⟩

end Inv

end Journal

end AgentObservability.Dashboard
