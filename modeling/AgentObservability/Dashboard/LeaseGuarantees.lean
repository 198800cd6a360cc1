import AgentObservability.Dashboard.LeaseJournal
import AgentObservability.Foundation.Sha256

/-!
# What a client of the query service can rely on

The invariant of the journal over a whole run, and what follows from it
(`leases_sound`): there are at most sixteen leases, cursors are distinct and are
honoured for what they were issued for and in their time, a page that is asked for
again is the same or has expired, and the answers of a chain are the listing from
its beginning, with nothing left out.
-/

namespace AgentObservability.Dashboard

open Domain Contracts Foundation Report DashboardQueryService

section Guarantees

variable {A : Type} [Lowercase] [Sha2] [Amount A] {store : Store A} {secret : List UInt8} {processId : ℕ}
  {past : List (Exchange A)} {s : DashboardQueryService A} {journal : List (Issue A)} {late : ℕ → Bool} {now : ℕ}
  {request : DashboardQueryRequestV1} {scope : QueryScope} {cursor : Option String}

/-! ### Queries -/

theorem dispatch_page (hscope : requestScope request = some (scope, cursor)) :
    dispatch store late now request s = page scope scope.start (scanPage store late scope) cursor now s := by
  cases request with
  | bootstrap => cases hscope
  | span => cases hscope
  | traces => cases hscope; rfl
  | spans => cases hscope; rfl
  | summary => cases hscope; rfl
  | facets => cases hscope; rfl

/-- A request that is not for a page changes no lease. -/
theorem dispatch_other (store : Store A) (late : ℕ → Bool) (now : ℕ) (s : DashboardQueryService A) (hscope : requestScope request = none) :
    (dispatch store late now request s).1 = s ∧ ∀ rows next, (dispatch store late now request s).2 ≠ .page rows next := by
  cases request with
  | bootstrap =>
    rw [dispatch]
    cases store.bootstrap <;> exact ⟨rfl, nofun⟩
  | span snapshotId filters traceId spanId =>
    rw [dispatch]
    cases spanDetail store snapshotId (filters.getD {}) traceId spanId <;> exact ⟨rfl, nofun⟩
  | traces => cases hscope
  | spans => cases hscope
  | summary => cases hscope
  | facets => cases hscope

theorem query_of_not_admits (late : ℕ → Bool) (now : ℕ) (s : DashboardQueryService A) (h : store.admits request = false) :
    query store late now request s = (s.pruneExpired now, .status .invalidQuery) := by
  rw [query, h]
  rfl

/-- The leases after a request that was admitted are those of its handler. -/
theorem query_fst (late : ℕ → Bool) (now : ℕ) (s : DashboardQueryService A) (h : store.admits request = true) :
    (query store late now request s).1 = (dispatch store late now (normalizeRequest request) (s.pruneExpired now)).1 := by
  rw [query, if_pos h]
  simp only
  split <;> rfl

/-- A page that is shown is the page of the handler, and was accepted. -/
theorem query_page {rows : PageRows A} {next : Option String} (h : store.admits request = true)
    (hpage : (query store late now request s).2 = .page rows next) :
    (dispatch store late now (normalizeRequest request) (s.pruneExpired now)).2 = .page rows next ∧
      store.refuses (normalizeRequest request) (.page rows next) = none := by
  rw [query, if_pos h] at hpage
  simp only at hpage
  split at hpage
  · cases hpage
  · rename_i hnone
    rw [hpage] at hnone
    exact ⟨hpage, hnone⟩

/-- An answer of the handler that is accepted is shown. -/
theorem query_snd (h : store.admits request = true)
    (haccepted : store.refuses (normalizeRequest request)
      (dispatch store late now (normalizeRequest request) (s.pruneExpired now)).2 = none) :
    (query store late now request s).2 = (dispatch store late now (normalizeRequest request) (s.pruneExpired now)).2 := by
  rw [query, if_pos h]
  simp only [haccepted]

omit [Lowercase] [Sha2] [Amount A] in
theorem sameIds_pruneExpired : SameIds s (s.pruneExpired now) := ⟨rfl, rfl, rfl⟩

/-! ### The invariant of a run -/

theorem Inv.pruned (h : Inv store secret processId past s journal) (now : ℕ) :
    Inv store secret processId past (s.pruneExpired now) journal := h.kept sameIds_pruneExpired kept_pruneExpired

/-- The number of cursors before the last exchange. -/
theorem Inv.length_lt {e : Exchange A} (h : Inv store secret processId past s journal)
    (hcount : ((e :: past).filterMap Exchange.issued).length < 2 ^ 64) : journal.length < 2 ^ 64 := by
  rw [h.length_journal]
  exact lt_of_le_of_lt (length_issued_le e past) hcount

/-- What a request for a page that is admitted comes to. -/
theorem Inv.paged (h : Inv store secret processId past s journal)
    (hcoll : Collisionless (digested secret processId (exchange store late now request s :: past)))
    (hcount : ((exchange store late now request s :: past).filterMap Exchange.issued).length < 2 ^ 64)
    (hadmits : store.admits request = true) (hscope : (exchange store late now request s).scope = some (scope, cursor)) :
    ∃ r, Paged scope scope.start (scanPage store late scope) cursor now (s.pruneExpired now) (query store late now request s).1 r ∧
      (∀ rows next, (query store late now request s).2 = .page rows next →
        r = .page rows next ∧ store.refuses (normalizeRequest request) (.page rows next) = none) ∧
      (store.refuses (normalizeRequest request) r = none → (query store late now request s).2 = r) := by
  have h₀ := h.pruned now
  have hdispatch : dispatch store late now (normalizeRequest request) (s.pruneExpired now) = page scope scope.start
      (scanPage store late scope) cursor now (s.pruneExpired now) := dispatch_page hscope
  refine ⟨(dispatch store late now (normalizeRequest request) (s.pruneExpired now)).2, ?_, fun rows next => query_page hadmits,
    query_snd hadmits⟩
  rw [query_fst late now s hadmits, hdispatch]
  exact page_paged (h₀.fresh_lease (hcoll.mono digested_cons) (h.length_lt hcount))

/-- **A query keeps the invariant.** -/
theorem Inv.answer (h : Inv store secret processId past s journal) (hpub : store.Published)
    (hcoll : Collisionless (digested secret processId (exchange store late now request s :: past)))
    (hcount : ((exchange store late now request s :: past).filterMap Exchange.issued).length < 2 ^ 64) :
    ∃ journal', journal ⊆ journal' ∧ Inv store secret processId (exchange store late now request s :: past)
      (query store late now request s).1 journal' := by
  have h₀ := h.pruned now
  cases hadmits : store.admits request with
  | false =>
    have hquery := query_of_not_admits late now s hadmits
    refine ⟨journal, List.Subset.refl _, ?_⟩
    rw [hquery]
    refine h₀.unseen ⟨rfl, rfl, rfl⟩ (.refl _) ?_ ?_
    · simp [exchange, hquery, pruneExpired, withLeases]
    · simp [exchange, hquery]
  | true =>
    cases hscope : (exchange store late now request s).scope with
    | none =>
      obtain ⟨hsame, hother⟩ := dispatch_other store late now (s.pruneExpired now) hscope
      have hfst := (query_fst late now s hadmits).trans hsame
      refine ⟨journal, List.Subset.refl _, ?_⟩
      rw [hfst]
      refine h₀.unseen ⟨rfl, rfl, rfl⟩ (.refl _) ?_ fun rows next hpage => hother rows next (query_page hadmits hpage).1
      simp [exchange, hfst, pruneExpired, withLeases]
    | some target =>
      obtain ⟨scope, cursor⟩ := target
      obtain ⟨r, hpaged, hshown, _⟩ := h.paged hcoll hcount hadmits hscope
      refine h₀.of_paged hpub hcoll hcount hscope (fun c l hget => ?_) hpaged hshown rfl
      have := createdAt_of_pruneExpired hget
      show now ≤ _
      omega

/-! ### Answers -/

/-- **The same again.** A request for a page of traces or spans that was answered before is answered in the same way, or its
cursor has expired. -/
theorem Inv.replays (h : Inv store secret processId past s journal) (hpub : store.Published)
    (hcoll : Collisionless (digested secret processId (exchange store late now request s :: past)))
    (hcount : ((exchange store late now request s :: past).filterMap Exchange.issued).length < 2 ^ 64) {e : Exchange A}
    (he : e ∈ past) {c : String} {rows : PageRows A} {next : Option String} (hhistory : isHistoryKind scope.kind = true)
    (hscope : e.scope = some (scope, some c)) (hanswer : e.response = .page rows next)
    (hscope' : (exchange store late now request s).scope = some (scope, some c)) (hadmits : store.admits request = true) :
    (query store late now request s).2 = .page rows next ∨ (query store late now request s).2 = .status .snapshotExpired := by
  obtain ⟨r, hpaged, _, hback⟩ := h.paged hcoll hcount hadmits hscope'
  have hanswered := h.answered e he _ _ _ _ hscope hanswer
  obtain ⟨state₀, left₀, hstands₀, hleft₀, hslice₀, late₀, scanned₀, hscan₀⟩ := hanswered.slice
  have haccepted : store.refuses (normalizeRequest request) (.page rows next) = none := by
    have hsame : normalizeRequest e.request = normalizeRequest request :=
      (normalizeRequest_of_scope hscope).trans (normalizeRequest_of_scope hscope').symm
    exact hsame ▸ hanswered.accepted
  have hexpired : r = .status .snapshotExpired → (query store late now request s).2 = .status .snapshotExpired := by
    rintro rfl
    exact hback (store.acceptsStatus _ _)
  have h₀ := h.pruned now
  generalize (query store late now request s).1 = s' at hpaged
  cases hpaged with
  | unknown id reason hcursor hreason =>
    cases hcursor
    obtain ⟨_, rfl⟩ | ⟨l, hget, hbinding, _⟩ := hreason
    · exact .inr (hexpired rfl)
    · -- The lease is for the scope that the cursor was answered for.
      obtain ⟨i, hi, rfl, hleased⟩ := h₀.leased _ l hget
      obtain ⟨rfl, _⟩ := (StandsFor.issue i hi rfl).unique h.nodup hstands₀
      exact absurd hleased.binding hbinding
  | failed s₁ state replay reason ids kept hresolved hscan =>
    obtain ⟨hstands, hvalid, _⟩ := (h₀.kept ids kept).resolved hcoll hscope' hresolved
    obtain ⟨_, rfl⟩ := hstands.unique h.nodup hstands₀
    obtain ⟨scanned, hscanned⟩ := scanPage_again hpub hvalid hhistory hscan₀ late
    rw [hscan] at hscanned
    cases hscanned
  | refused s₂ ids kept => exact .inr (hexpired rfl)
  | answered s₁ s₂ state replay scanned next' ids kept hresolved hscan hfinished =>
    obtain ⟨hstands, hvalid, hlease⟩ := (h₀.kept ids kept).resolved hcoll hscope' hresolved
    obtain ⟨_, rfl⟩ := hstands.unique h.nodup hstands₀
    have hscans := scanPage_scans hpub hvalid hscan
    obtain ⟨i, hi, l, hc, hiscope, _, _, rfl, hleased⟩ := hlease c rfl
    obtain ⟨b, hb, rfl⟩ := hleased.remembers e he scope rows next (hc ▸ hscope) hhistory hanswer
    rw [hb] at hfinished
    cases hfinished with
    | again boundary _ hreplay hexhausted hposition =>
      cases hreplay
      have hbounds := hleased.bounds b hb
      rw [Bounds, hiscope, hexhausted, eq_of_samePosition hposition] at hbounds
      have hitems : scanned.rows.items = rows.items := by
        apply List.append_cancel_right
        show scanned.rows.items ++ left₀ = rows.items ++ left₀
        rw [hslice₀, ← hscans.total, hbounds.unique h.nodup hleft₀]
      obtain rfl : scanned.rows = rows :=
        PageRows.eq_of_items (hscans.kind.trans hanswered.kind.symm) (hscans.kind ▸ hhistory) hitems
      exact .inl (hback haccepted)
    | last _ _ _ _ hfirst => cases hfirst hhistory
    | more _ _ _ hfirst => cases hfirst hhistory

/-- The cursors of a chain have its time. -/
theorem Inv.created_of_begun (h : Inv store secret processId past s journal) {first : Exchange A} {c : String}
    (hbegun : Begun past first c) : ∀ i ∈ journal, i.cursor = c → i.created = first.time := by
  induction hbegun with
  | first scope c hmem hscope hissued =>
    intro i hi hc
    obtain ⟨i', hi', hissues, cursor, hscope', hcreated⟩ := h.traced first hmem c hissued
    rw [hissued] at hissues
    obtain rfl := eq_of_cursor h.nodup hi hi' (hc.trans (Option.some.inj hissues))
    rw [hscope] at hscope'
    cases hscope'
    exact hcreated
  | next e scope p c hp hmem hscope hissued ih =>
    intro i hi hc
    obtain ⟨i', hi', hissues, cursor, hscope', hcreated⟩ := h.traced e hmem c hissued
    rw [hissued] at hissues
    obtain rfl := eq_of_cursor h.nodup hi hi' (hc.trans (Option.some.inj hissues))
    rw [hscope] at hscope'
    cases hscope'
    obtain ⟨parent, hparent, hpc, hcreated⟩ := hcreated
    exact hcreated.trans (ih parent hparent hpc)

/-- The answers of a chain are the listing up to the next cursor. -/
theorem Inv.followed (h : Inv store secret processId past s journal) {items : List Item} {next : Option String}
    (hfollowed : Followed past scope items next) : ∃ left, Left store journal scope next left ∧ items ++ left = listing store scope := by
  induction hfollowed with
  | first e rows next hmem hscope hanswer =>
    obtain ⟨state, left, hstands, hleft, hslice, _⟩ := (h.answered e hmem _ _ _ _ hscope hanswer).slice
    cases hstands
    exact ⟨left, hleft, hslice⟩
  | next items e c rows next _ hmem hscope hanswer ih =>
    obtain ⟨left₀, hleft₀, htotal⟩ := ih
    obtain ⟨state, left, hstands, hleft, hslice, _⟩ := (h.answered e hmem _ _ _ _ hscope hanswer).slice
    cases hleft₀ with
    | more _ state₀ hstands₀ =>
      obtain ⟨_, rfl⟩ := hstands.unique h.nodup hstands₀
      exact ⟨left, hleft, by rw [List.append_assoc, hslice, htotal]⟩

/-- A page for a cursor is shown for the scope that the cursor was issued for before. -/
theorem Inv.honoured (h : Inv store secret processId past s journal)
    (hcoll : Collisionless (digested secret processId (exchange store late now request s :: past)))
    (hcount : ((exchange store late now request s :: past).filterMap Exchange.issued).length < 2 ^ 64) {c : String}
    {rows : PageRows A} {next : Option String} (hscope : (exchange store late now request s).scope = some (scope, some c))
    (hanswer : (exchange store late now request s).response = .page rows next) :
    ∃ e ∈ past, e.issued = some c ∧ ∃ cursor, e.scope = some (scope, cursor) := by
  have hadmits : store.admits request = true := by
    by_contra hnot
    rw [Bool.not_eq_true] at hnot
    rw [exchange, query_of_not_admits late now s hnot] at hanswer
    cases hanswer
  obtain ⟨r, hpaged, hshown, _⟩ := h.paged hcoll hcount hadmits hscope
  obtain rfl := (hshown rows next hanswer).1
  generalize (query store late now request s).1 = s' at hpaged
  cases hpaged with
  | answered s₁ s₂ state replay scanned next' ids kept hresolved hscan hfinished =>
    obtain ⟨_, _, hlease⟩ := ((h.pruned now).kept ids kept).resolved hcoll hscope hresolved
    obtain ⟨i, hi, l, rfl, rfl, _⟩ := hlease c rfl
    obtain ⟨e, he, hissued, cursor, hscope', _⟩ := h.made i hi
    exact ⟨e, he, hissued, cursor, hscope'⟩

/-- After a query, every lease is in its time. -/
theorem Inv.live (h : Inv store secret processId past s journal)
    (hcoll : Collisionless (digested secret processId (exchange store late now request s :: past)))
    (hcount : ((exchange store late now request s :: past).filterMap Exchange.issued).length < 2 ^ 64) {c : String}
    {l : CursorLease A} (hget : (query store late now request s).1.leases.get? c = some l) : now ≤ l.createdAt + cursorHardTtl := by
  have hpruned : ∀ c l, (s.pruneExpired now).leases.get? c = some l → now ≤ l.createdAt + cursorHardTtl := by
    intro c l hget
    have := createdAt_of_pruneExpired hget
    omega
  have hkept : ∀ s' : DashboardQueryService A, Kept (s.pruneExpired now).leases s'.leases → ∀ c l, s'.leases.get? c = some l →
      now ≤ l.createdAt + cursorHardTtl := by
    intro s' hkept c l hget
    obtain ⟨l₀, hl₀, hsame⟩ := hkept.same c l hget
    rw [hsame.createdAt]
    exact hpruned c l₀ hl₀
  cases hadmits : store.admits request with
  | false =>
    rw [query_of_not_admits late now s hadmits] at hget
    exact hpruned c l hget
  | true =>
    cases hscope : (exchange store late now request s).scope with
    | none =>
      have hother := (query_fst late now s hadmits).trans (dispatch_other store late now (s.pruneExpired now) hscope).1
      rw [hother] at hget
      exact hpruned c l hget
    | some target =>
      obtain ⟨scope, cursor⟩ := target
      obtain ⟨r, hpaged, _, _⟩ := h.paged hcoll hcount hadmits hscope
      generalize (query store late now request s).1 = s' at hpaged hget
      cases hpaged with
      | unknown => exact hpruned c l hget
      | failed _ _ _ _ _ kept => exact hkept _ kept c l hget
      | refused _ _ kept => exact hkept _ kept c l hget
      | answered s₁ s₂ state replay scanned next ids kept hresolved hscan hfinished =>
        cases hfinished with
        | again => exact hkept _ kept c l hget
        | last _ _ _ _ _ hold =>
          obtain ⟨l₀, hl₀, ⟨_, rfl⟩ | ⟨_, _, _, rfl⟩⟩ := hold c l hget
          · exact hkept s₁ kept c l hl₀
          · exact hkept s₁ kept c l₀ hl₀
        | more _ hnew =>
          by_cases hc : c = s₁.nextCursorId.2
          · subst hc
            rw [(hnew.new l hget).2.2.2]
            cases hparent : cursor.bind s₁.leases.get? with
            | none => exact Nat.le_add_right _ _
            | some parent =>
              obtain ⟨p, _, hp⟩ := Option.bind_eq_some_iff.mp hparent
              exact hkept s₁ kept p parent hp
          · obtain ⟨l₀, hl₀, ⟨_, rfl⟩ | ⟨_, _, rfl⟩⟩ := hnew.old c l hc hget
            · exact hkept s₁ kept c l hl₀
            · exact hkept s₁ kept c l₀ hl₀

/-! ### Runs -/

/-- A page for a cursor is shown for the scope that the cursor was issued for, in an exchange before. -/
def Honoured (earlier : List (Exchange A)) (e : Exchange A) : Prop :=
  ∀ scope c rows next, e.scope = some (scope, some c) → e.response = .page rows next →
    ∃ e' ∈ earlier, e'.issued = some c ∧ ∃ cursor, e'.scope = some (scope, cursor)

/-- A request for a page of traces or spans that was answered before is answered in the same way, or its cursor has
expired. -/
def Repeats (store : Store A) (e' e : Exchange A) : Prop :=
  ∀ scope c rows next, isHistoryKind scope.kind = true → e.scope = some (scope, some c) → e'.scope = some (scope, some c) →
    store.admits e'.request = true → e.response = .page rows next →
    e'.response = .page rows next ∨ e'.response = .status .snapshotExpired

/-- What a run keeps: the invariant, the time of the leases, and what each exchange is to those before it. -/
theorem Run.spec (hpub : store.Published) (hrun : Run store secret processId past s)
    (hcoll : Collisionless (digested secret processId past)) (hcount : (past.filterMap Exchange.issued).length < 2 ^ 64) :
    (∃ journal, Inv store secret processId past s journal) ∧
      (∀ c l, s.leases.get? c = some l → ∀ e ∈ past, e.time ≤ l.createdAt + cursorHardTtl) ∧ past.Pairwise (Repeats store) ∧
      ∀ later e earlier, past = later ++ e :: earlier → Honoured earlier e := by
  induction hrun with
  | start =>
    refine ⟨⟨[], inv_new⟩, by simp, .nil, fun later e earlier h => ?_⟩
    simp at h
  | @query past s late now request hrun hclock ih =>
    obtain ⟨⟨journal, hinv⟩, _, hrepeats, hhonoured⟩ :=
      ih (hcoll.mono digested_cons) (lt_of_le_of_lt (length_issued_le _ past) hcount)
    obtain ⟨journal', _, hinv'⟩ := hinv.answer hpub hcoll hcount
    refine ⟨⟨journal', hinv'⟩, fun c l hget e he => ?_, List.pairwise_cons.mpr ⟨fun e he => ?_, hrepeats⟩,
      fun later e earlier hsplit => ?_⟩
    · have hlive := hinv.live hcoll hcount hget
      obtain rfl | he := List.mem_cons.mp he
      · exact hlive
      · exact (hclock e he).trans hlive
    · exact fun scope c rows next hhistory hscope hscope' hadmits hanswer =>
        hinv.replays hpub hcoll hcount he hhistory hscope hanswer hscope' hadmits
    · cases later with
      | nil =>
        obtain ⟨rfl, rfl⟩ := List.cons.inj hsplit
        exact fun scope c rows next hscope hanswer => hinv.honoured hcoll hcount hscope hanswer
      | cons _ later => exact hhonoured later e earlier (List.cons.inj hsplit).2

/-- **Cursor leases are sound.** After every query of a run there are at most sixteen leases; the cursors that were issued
are distinct; a cursor is honoured for what it was issued for; no lease, and no page for a cursor, is later than the hard
lifetime of the first cursor of its chain; the same request for traces or spans has the same answer or has expired; the
answers of a chain are the listing from its beginning, all of it at the end; and a complete summary is the right one. -/
theorem leases_sound (hpub : store.Published) (hrun : Run store secret processId past s)
    (hcoll : Collisionless (digested secret processId past)) (hcount : (past.filterMap Exchange.issued).length < 2 ^ 64) :
    s.leases.entries.length ≤ 16 ∧ (past.filterMap Exchange.issued).Nodup ∧
      (∀ later e earlier, past = later ++ e :: earlier → Honoured earlier e) ∧
      (∀ first c, Begun past first c →
        (∀ l, s.leases.get? c = some l → ∀ e ∈ past, e.time ≤ first.time + cursorHardTtl) ∧
        ∀ e ∈ past, ∀ scope rows next, e.scope = some (scope, some c) → e.response = .page rows next →
          e.time ≤ first.time + cursorHardTtl) ∧
      past.Pairwise (Repeats store) ∧
      (∀ scope items next, Followed past scope items next →
        items <+: listing store scope ∧ (next = none → items = listing store scope)) ∧
      ∀ e ∈ past, ∀ scope cursor kpis next, e.scope = some (scope, cursor) → e.response = .page (.summary (some kpis)) next →
        Summarized (store.view scope).kernel (store.view scope).rows scope.filters kpis := by
  obtain ⟨⟨journal, hinv⟩, hlive, hrepeats, hhonoured⟩ := hrun.spec hpub hcoll hcount
  refine ⟨hinv.length, hinv.issued ▸ hinv.nodup, hhonoured, fun first c hbegun => ⟨fun l hget e he => ?_, ?_⟩, hrepeats,
    fun scope items next hfollowed => ?_, fun e he scope cursor kpis next hscope hanswer => ?_⟩
  · obtain ⟨i, hi, hc, hleased⟩ := hinv.leased c l hget
    rw [← hinv.created_of_begun hbegun i hi hc, ← hleased.created]
    exact hlive c l hget e he
  · intro e he scope rows next hscope hanswer
    obtain ⟨i, hi, hc, htime⟩ := (hinv.answered e he _ _ _ _ hscope hanswer).time c rfl
    rwa [hinv.created_of_begun hbegun i hi hc] at htime
  · obtain ⟨left, hleft, htotal⟩ := hinv.followed hfollowed
    refine ⟨⟨left, htotal⟩, ?_⟩
    rintro rfl
    cases hleft
    rwa [List.append_nil] at htotal
  · exact (hinv.answered e he _ _ _ _ hscope hanswer).summary kpis rfl

end Guarantees

/-! ### A sample run -/

section Samples

local instance : Amount ℕ := natAmount

local instance : Lowercase := asciiLowercase

local instance : Sha2 := ⟨Sha256.hexDigest⟩

/-- A store with the sample snapshot. -/
def sampleStore : Store ℕ where
  bootstrap := .ok ()
  current := .ok ()
  snapshot id := if id = "snapshot-1" then .ok ⟨sampleRows, .v2⟩ else .error .snapshotExpired
  admits _ := true
  refuses _ _ := none
  acceptsStatus _ _ := rfl

theorem published_sampleStore : sampleStore.Published := by
  intro id snapshot h
  simp only [sampleStore] at h
  split at h
  · cases h
    exact published_sampleRows
  · cases h

/-- The secret of the sample service. -/
def sampleSecret : List UInt8 := List.replicate 32 7

/-- The first cursor of the sample run. -/
def sampleCursor : String := Sha256.hexDigest (cursorMessage sampleSecret 1 1)

/-- The exchanges of requests, one a second, the last one first, and the service after them. -/
def runOf : List DashboardQueryRequestV1 → List (Exchange ℕ) × DashboardQueryService ℕ
  | [] => ([], .new sampleSecret 1)
  | request :: requests =>
    let before := runOf requests
    (exchange sampleStore (fun n => 1 ≤ n) (1000 * requests.length) request before.2 :: before.1,
      (query sampleStore (fun n => 1 ≤ n) (1000 * requests.length) request before.2).1)

/-- The spans of a trace, then the page after the first cursor, twice. -/
def sampleRequests : List DashboardQueryRequestV1 :=
  [.spans "snapshot-1" none "trace-1" (some sampleCursor), .spans "snapshot-1" none "trace-1" (some sampleCursor),
   .spans "snapshot-1" none "trace-1" none]

theorem run_runOf (requests : List DashboardQueryRequestV1) :
    Run sampleStore sampleSecret 1 (runOf requests).1 (runOf requests).2 ∧
      ∀ e ∈ (runOf requests).1, e.time ≤ 1000 * requests.length := by
  induction requests with
  | nil => exact ⟨.start, by simp [runOf]⟩
  | cons request requests ih =>
    refine ⟨.query _ _ request ih.1 ih.2, fun e he => ?_⟩
    rw [List.length_cons]
    obtain rfl | he := List.mem_cons.mp he
    · exact Nat.mul_le_mul_left _ (Nat.le_succ _)
    · exact (ih.2 e he).trans (Nat.mul_le_mul_left _ (Nat.le_succ _))

/-- What the sample run digests. -/
def sampleMessages : List (List UInt8) := (List.range 5).map (cursorMessage sampleSecret 1) ++ [utf8 (filtersJson {})]

theorem collisionless_sample : Collisionless sampleMessages := by
  have hnodup : (sampleMessages.map Sha256.hexDigest).Nodup := by decide +kernel
  exact fun a ha b hb h => List.inj_on_of_nodup_map hnodup ha hb h

theorem request_of_mem {requests : List DashboardQueryRequestV1} : ∀ e ∈ (runOf requests).1, e.request ∈ requests := by
  induction requests with
  | nil => simp [runOf]
  | cons request requests ih =>
    intro e he
    obtain rfl | he := List.mem_cons.mp he
    · exact List.mem_cons_self
    · exact List.mem_cons_of_mem _ (ih e he)

/-- The rows of the pages of the sample run. -/
def pageSizes (past : List (Exchange ℕ)) : List ℕ :=
  past.map fun e => match e.response with
    | .page rows _ => rows.items.length
    | _ => 0

theorem digested_sample : digested sampleSecret 1 (runOf sampleRequests).1 ⊆ sampleMessages := by
  have hissued : ((runOf sampleRequests).1.filterMap Exchange.issued).length ≤ 3 := List.length_filterMap_le _ _
  intro message h
  simp only [digested, List.mem_append, List.mem_map, List.mem_range, List.mem_filterMap] at h
  obtain ⟨n, hn, rfl⟩ | ⟨e, he, h⟩ := h
  · have hmod : n % 2 ^ 64 = n := Nat.mod_eq_of_lt (by omega)
    exact List.mem_append_left _ (List.mem_map.mpr ⟨n, List.mem_range.mpr (by omega), by rw [hmod]⟩)
  · have hnone : ∀ request ∈ sampleRequests, ∀ target ∈ requestScope (normalizeRequest request), target.1.filters = {} := by
      decide
    obtain ⟨target, htarget, rfl⟩ := Option.map_eq_some_iff.mp h
    rw [hnone e.request (request_of_mem e he) target htarget]
    exact List.mem_append_right _ List.mem_cons_self

/-- The first cursor is honoured: the first two requests have pages. -/
theorem leases_sound_sampleRequests :
    pageSizes (runOf (sampleRequests.drop 1)).1 = [1, 1] ∧ (runOf sampleRequests).2.leases.entries.length ≤ 16 ∧
      ((runOf sampleRequests).1.filterMap Exchange.issued).Nodup ∧ (runOf sampleRequests).1.Pairwise (Repeats sampleStore) := by
  have hcount : ((runOf sampleRequests).1.filterMap Exchange.issued).length < 2 ^ 64 :=
    lt_of_le_of_lt (List.length_filterMap_le _ _) (show 3 < 2 ^ 64 by decide)
  obtain ⟨hlength, hnodup, _, _, hrepeats, _⟩ := leases_sound published_sampleStore (run_runOf sampleRequests).1
    (collisionless_sample.mono digested_sample) hcount
  exact ⟨by decide +kernel, hlength, hnodup, hrepeats⟩

end Samples

end AgentObservability.Dashboard
