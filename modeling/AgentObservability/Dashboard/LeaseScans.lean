import AgentObservability.Dashboard.Kpis
import AgentObservability.Dashboard.Leases

/-!
# What a lease stands for

The state of a lease says what is to be read from there (`rest`). A scan gives the
first part of it, and its output is the state for the other part (`Scans`); one
lemma for each kind of scan, and `scanPage_scans` for all of them.
-/

namespace AgentObservability.Dashboard

open Domain Contracts Foundation Report

variable {A : Type}

/-! ### Listings -/

/-- A row of a listing. -/
inductive Item where
  /-- A trace. -/
  | trace (row : TraceAccumulator)
  /-- A span. -/
  | span (row : DashboardSpanRowV1)
  /-- A value of a dimension. -/
  | facet (row : FacetRow)

/-- The rows of a page as rows of a listing. A summary has none. -/
def PageRows.items : PageRows A → List Item
  | .traces rows => rows.map .trace
  | .spans rows => rows.map .span
  | .facets rows => rows.map .facet
  | .summary _ => []

/-- The kind of the request that a page answers. -/
def PageRows.kind : PageRows A → DashboardRequestKindV1
  | .traces _ => .traces
  | .spans _ => .spans
  | .facets _ => .facets
  | .summary _ => .summary

/-- Pages of traces or spans with the same rows are the same. -/
theorem PageRows.eq_of_items {r r' : PageRows A} (hkind : r.kind = r'.kind) (hhistory : isHistoryKind r.kind = true)
    (hitems : r.items = r'.items) : r = r' := by
  cases r with
  | traces rows =>
    cases r' with
    | traces rows' => exact congrArg _ (List.map_injective_iff.mpr (fun a b h => by cases h; rfl) hitems)
    | spans _ => cases hkind
    | facets _ => cases hkind
    | summary _ => cases hkind
  | spans rows =>
    cases r' with
    | traces _ => cases hkind
    | spans rows' => exact congrArg _ (List.map_injective_iff.mpr (fun a b h => by cases h; rfl) hitems)
    | facets _ => cases hkind
    | summary _ => cases hkind
  | facets rows => simp [PageRows.kind, isHistoryKind] at hhistory
  | summary work => simp [PageRows.kind, isHistoryKind] at hhistory

/-- The snapshot of a scope. Where there is none, it is empty. -/
def Store.view (store : Store A) (scope : QueryScope) : Snapshot A :=
  match store.snapshot scope.snapshotId with
  | .ok snapshot => snapshot
  | .error _ => ⟨[], .v2⟩

/-- Where the scan of a scope begins. -/
def QueryScope.start (scope : QueryScope) : CursorState A :=
  match scope.kind with
  | .traces => .traces {}
  | .facets => .facets {}
  | .summary => .summary .spans
  | _ => .spans {}

variable [Amount A] [Lowercase]

/-- What is to be read from a state. -/
def rest (store : Store A) (scope : QueryScope) : CursorState A → List Item
  | .traces cursor =>
    (restTraces scope.filters cursor.pending (traceSource (store.view scope).rows cursor)).map .trace
  | .spans cursor =>
    (selectedSpans scope.filters (some (scope.traceId.getD ""))
      (spanSource (store.view scope).rows cursor (some (scope.traceId.getD "")))).map fun span => .span (spanRow span)
  | .facets cursor => (cursor.rest (store.view scope).kernel (store.view scope).rows scope.filters).map .facet
  | .summary _ => []

/-- The whole listing of a scope. -/
def listing (store : Store A) (scope : QueryScope) : List Item := rest store scope scope.start

/-- A state that a scan of the scope can be in. -/
def ValidState (store : Store A) (scope : QueryScope) : CursorState A → Prop
  | .traces cursor =>
    scope.kind = .traces ∧ Bounded cursor.pending (traceSource (store.view scope).rows cursor).length
  | .spans _ => scope.kind = .spans
  | .facets cursor => scope.kind = .facets ∧ cursor.after.Binds (store.view scope).kernel
  | .summary progress =>
    scope.kind = .summary ∧ progress.Valid (store.view scope).kernel (store.view scope).rows scope.filters

/-! ### Scans -/

/-- The scan of a scope. -/
def scanPage (store : Store A) (late : ℕ → Bool) (scope : QueryScope) :
    CursorState A → Except DashboardStatusReasonV1 (ScannedPage A) :=
  match scope.kind with
  | .traces => scanTracesPage store late scope
  | .spans => scanSpansPage store late scope (scope.traceId.getD "")
  | .facets => scanFacetsPage store late scope
  | .summary => scanSummaryPage store late scope
  | _ => fun _ => .error .invalidQuery

/-- What a scanned page is: it has the first part of what is to be read, its output is the state for the other part, and a
complete summary is the right one. -/
structure Scans (store : Store A) (scope : QueryScope) (state : CursorState A) (scanned : ScannedPage A) : Prop where
  kind : scanned.rows.kind = scope.kind
  total : scanned.rows.items ++ (if scanned.exhausted then [] else rest store scope scanned.output) = rest store scope state
  valid : scanned.exhausted = false → ValidState store scope scanned.output
  summary : ∀ kpis, scanned.rows = .summary (some kpis) →
    Summarized (store.view scope).kernel (store.view scope).rows scope.filters kpis

/-- Every snapshot of the store was published. -/
def Store.Published (store : Store A) : Prop :=
  ∀ id snapshot, store.snapshot id = .ok snapshot → Dashboard.Published snapshot.rows

variable {store : Store A} {late : ℕ → Bool} {scope : QueryScope} {state : CursorState A} {scanned : ScannedPage A}

omit [Lowercase] in
theorem published_nil : Dashboard.Published ([] : List (ViewRow A)) where
  readable := by simp
  spanId := List.nodup_nil
  sourceOrder := List.nodup_nil
  count := Nat.zero_le _

omit [Lowercase] in
theorem Store.Published.view (h : store.Published) (scope : QueryScope) : Dashboard.Published (store.view scope).rows := by
  unfold Store.view
  cases hsnapshot : store.snapshot scope.snapshotId with
  | ok snapshot => exact h _ _ hsnapshot
  | error e => exact published_nil

omit [Amount A] [Lowercase] in
theorem Store.view_eq {snapshot : Snapshot A} (h : store.snapshot scope.snapshotId = .ok snapshot) :
    store.view scope = snapshot := by
  rw [Store.view, h]

theorem scanTracesPage_scans (h : store.Published) (hvalid : ValidState store scope state)
    (hscan : scanTracesPage store late scope state = .ok scanned) : Scans store scope state scanned := by
  cases state with
  | spans => cases hscan
  | summary => cases hscan
  | facets => cases hscan
  | traces cursor =>
    obtain ⟨_, _, hscan⟩ := bind_eq_ok.mp hscan
    obtain ⟨snapshot, hsnapshot, hscan⟩ := bind_eq_ok.mp hscan
    obtain ⟨batch, hbatch, hscan⟩ := bind_eq_ok.mp hscan
    cases hscan
    obtain rfl := Store.view_eq hsnapshot
    obtain ⟨found, hfound, hbounded, htotal, _⟩ := scanTraceRows_slice (h.view scope) late cursor scope.filters hvalid.2
    obtain rfl : found = batch := Except.ok.inj (hfound.symm.trans (mapError_ok_iff.mp hbatch))
    refine ⟨hvalid.1.symm, ?_, fun _ => ⟨hvalid.1, hbounded⟩, nofun⟩
    simp only [rest, PageRows.items, ← htotal, List.map_append]
    split <;> rfl

theorem scanSpansPage_scans (h : store.Published) (hvalid : ValidState store scope state)
    (hscan : scanSpansPage store late scope (scope.traceId.getD "") state = .ok scanned) : Scans store scope state scanned := by
  cases state with
  | traces => cases hscan
  | summary => cases hscan
  | facets => cases hscan
  | spans cursor =>
    obtain ⟨_, _, hscan⟩ := bind_eq_ok.mp hscan
    obtain ⟨snapshot, hsnapshot, hscan⟩ := bind_eq_ok.mp hscan
    obtain ⟨batch, hbatch, hscan⟩ := bind_eq_ok.mp hscan
    cases hscan
    obtain rfl := Store.view_eq hsnapshot
    obtain ⟨found, hfound, htotal, _⟩ := scanSpans_slice (h.view scope) late cursor scope.filters (some (scope.traceId.getD ""))
      (show 200 ≠ 0 ∧ 200 ≤ maxScanRows by decide)
    obtain rfl : found = batch := Except.ok.inj (hfound.symm.trans (mapError_ok_iff.mp hbatch))
    refine ⟨hvalid.symm, ?_, fun _ => hvalid, nofun⟩
    simp only [rest, PageRows.items, ← htotal, List.map_append, List.map_map]
    split <;> rfl

theorem scanFacetsPage_scans (h : store.Published) (hvalid : ValidState store scope state)
    (hscan : scanFacetsPage store late scope state = .ok scanned) : Scans store scope state scanned := by
  cases state with
  | traces => cases hscan
  | spans => cases hscan
  | summary => cases hscan
  | facets cursor =>
    obtain ⟨_, _, hscan⟩ := bind_eq_ok.mp hscan
    obtain ⟨snapshot, hsnapshot, hscan⟩ := bind_eq_ok.mp hscan
    obtain ⟨batch, hbatch, hscan⟩ := bind_eq_ok.mp hscan
    cases hscan
    obtain rfl := Store.view_eq hsnapshot
    obtain ⟨found, hfound, hbinds, htotal, _⟩ := scanFacetRows_slice (h.view scope) late cursor scope.filters hvalid.2
    obtain rfl : found = batch := Except.ok.inj (hfound.symm.trans (mapError_ok_iff.mp hbatch))
    refine ⟨hvalid.1.symm, ?_, fun _ => ⟨hvalid.1, hbinds⟩, nofun⟩
    simp only [rest, PageRows.items, ← htotal, List.map_append]
    split <;> rfl

theorem scanSummaryPage_scans (h : store.Published) (hvalid : ValidState store scope state)
    (hscan : scanSummaryPage store late scope state = .ok scanned) : Scans store scope state scanned := by
  cases state with
  | traces => cases hscan
  | spans => cases hscan
  | facets => cases hscan
  | summary progress =>
    obtain ⟨_, _, hscan⟩ := bind_eq_ok.mp hscan
    obtain ⟨snapshot, hsnapshot, hscan⟩ := bind_eq_ok.mp hscan
    obtain ⟨step, hstep, hscan⟩ := bind_eq_ok.mp hscan
    obtain rfl := Store.view_eq hsnapshot
    have hspec := advanceSummary_spec (h.view scope) hvalid.2 (mapError_ok_iff.mp hstep)
    cases step with
    | pending next =>
      cases hscan
      exact ⟨hvalid.1.symm, rfl, fun _ => ⟨hvalid.1, hspec⟩, nofun⟩
    | complete kpis =>
      cases hscan
      refine ⟨hvalid.1.symm, rfl, nofun, fun kpis' hkpis => ?_⟩
      cases hkpis
      exact hspec

/-- **What a scan gives.** -/
theorem scanPage_scans (h : store.Published) (hvalid : ValidState store scope state)
    (hscan : scanPage store late scope state = .ok scanned) : Scans store scope state scanned := by
  unfold scanPage at hscan
  cases hkind : scope.kind with
  | traces => exact scanTracesPage_scans h hvalid (by simpa only [hkind] using hscan)
  | spans => exact scanSpansPage_scans h hvalid (by simpa only [hkind] using hscan)
  | facets => exact scanFacetsPage_scans h hvalid (by simpa only [hkind] using hscan)
  | summary => exact scanSummaryPage_scans h hvalid (by simpa only [hkind] using hscan)
  | bootstrap => simp [hkind] at hscan
  | span => simp [hkind] at hscan

/-- A scan of traces or spans that could be made can be made again, whatever the time. -/
theorem scanPage_again (h : store.Published) (hvalid : ValidState store scope state) (hhistory : isHistoryKind scope.kind = true)
    (hscan : scanPage store late scope state = .ok scanned) (late' : ℕ → Bool) :
    ∃ scanned', scanPage store late' scope state = .ok scanned' := by
  cases state with
  | traces cursor =>
    obtain ⟨hkind, hbounded⟩ := hvalid
    simp only [scanPage, hkind] at hscan ⊢
    obtain ⟨_, hcurrent, hscan⟩ := bind_eq_ok.mp hscan
    obtain ⟨snapshot, hsnapshot, _⟩ := bind_eq_ok.mp hscan
    obtain rfl := Store.view_eq hsnapshot
    obtain ⟨found, hfound, _⟩ := scanTraceRows_slice (h.view scope) late' cursor scope.filters hbounded
    exact ⟨_, bind_eq_ok.mpr ⟨_, hcurrent, bind_eq_ok.mpr ⟨_, hsnapshot, bind_eq_ok.mpr ⟨found, mapError_ok_iff.mpr hfound, rfl⟩⟩⟩⟩
  | spans cursor =>
    have hkind : scope.kind = .spans := hvalid
    simp only [scanPage, hkind] at hscan ⊢
    obtain ⟨_, hcurrent, hscan⟩ := bind_eq_ok.mp hscan
    obtain ⟨snapshot, hsnapshot, _⟩ := bind_eq_ok.mp hscan
    obtain rfl := Store.view_eq hsnapshot
    obtain ⟨found, hfound, _⟩ := scanSpans_slice (h.view scope) late' cursor scope.filters (some (scope.traceId.getD ""))
      (show 200 ≠ 0 ∧ 200 ≤ maxScanRows by decide)
    exact ⟨_, bind_eq_ok.mpr ⟨_, hcurrent, bind_eq_ok.mpr ⟨_, hsnapshot, bind_eq_ok.mpr ⟨found, mapError_ok_iff.mpr hfound, rfl⟩⟩⟩⟩
  | facets cursor => exact absurd hhistory (by rw [hvalid.1]; decide)
  | summary progress => exact absurd hhistory (by rw [hvalid.1]; decide)

end AgentObservability.Dashboard
