import AgentObservability.Store.Coherence

/-!
# Invariants of the store

What a transaction does to the tables of spans and traces is made of five
effects: nothing (`Quiet`), the restoration of an archived trace, the commit of an
observation, the move of a trace and the expiry of traces. An invariant that each
effect keeps (`Preserved`) holds in every store that a history leads to
(`Preserved.history`). A condition on the ingested items, and one on the passes
and the stores they leave, may be assumed on the way.
-/

namespace AgentObservability.Store

open Domain Contracts Foundation

variable {db db' : Db}

/-- The tables of spans and traces are the same: only the ledger of cursors, the flags, the counters and the
receipts may differ. -/
def Quiet (db db' : Db) : Prop :=
  ∃ inputs cursors dispositions dirty generation acknowledgement epoch scan receipts, db' =
    { db with
      sourceInputs := inputs, sourceCursors := cursors, adapterDispositions := dispositions, projectionDirty := dirty
      reportGeneration := generation, reportAcknowledgement := acknowledgement, reportVisibilityEpoch := epoch
      lifecycleScanCursor := scan, retentionReceipts := receipts }

theorem Quiet.refl (db : Db) : Quiet db db := ⟨_, _, _, _, _, _, _, _, _, rfl⟩

theorem Ledger.quiet (h : Ledger db db') : Quiet db db' := by
  obtain ⟨inputs, cursors, dispositions, dirty, rfl⟩ := h
  exact ⟨inputs, cursors, dispositions, dirty, _, _, _, _, _, rfl⟩

variable [Sha2]

/-- A candidate of a lifecycle pass as the transaction reads it back: it is in its tier, and its age is the one that
the tables of the tier give. -/
structure ReadBack (db : Db) (candidate : Candidate) : Prop where
  /-- It is in its tier. -/
  inItsTier : InItsTier db candidate
  /-- Its age is the one of the tier. -/
  latest : currentRow db candidate = some ((candidate.latestObservedAt : WithBot ℕ), false)

/-- What an expiry does to the tables of spans and traces. -/
def expireTraces (db : Db) (selection : RetentionSelection) : Db :=
  deleteHotTraces { db with expiredSpanStates := replaceSpanGuards db.expiredSpanStates selection.spanGuards }
    selection.traceIds

omit [Sha2] in
/-- The passes that take whole traces. -/
inductive Pass where
  /-- A lifecycle pass. -/
  | lifecycle
  /-- A manual retention pass. -/
  | retention
  deriving DecidableEq

/-- A pass leaves a store that satisfies the condition. -/
def Txn.Leaves (R : Pass → Db → Prop) (db : Db) (t : Txn) : Prop :=
  match t with
  | .maintain .. => R .lifecycle (t.step db)
  | .retention .. => R .retention (t.step db)
  | _ => True

/-- **Every effect keeps `P`**, where the items that are ingested satisfy `C` and passes leave stores that satisfy `R`. -/
structure Preserved (C : Db → StoreBatchItem → Prop) (R : Pass → Db → Prop) (P : Db → Prop) : Prop where
  /-- The ledger and the counters have no part in the condition on passes. -/
  unquiet : ∀ {pass db db'}, R pass db' → Quiet db db' → R pass db
  /-- The ledger and the counters have no part in it. -/
  quiet : ∀ {db db'}, P db → Quiet db db' → P db'
  /-- A restoration keeps it. -/
  rehydrate : ∀ {db o p control db₁}, Coherent db → P db → C db (.observation o) → prepareObservation o = .ok p →
    FreshCursor db o.checkpoint → ¬ ArchivedDuplicate db p.state →
    Rehydration db control p.state.traceId.asStr db₁ → P db₁
  /-- A commit keeps it, in the store that the restoration has left. -/
  commit : ∀ {db db₁ o p}, Coherent db → P db → C db (.observation o) → prepareObservation o = .ok p →
    FreshCursor db o.checkpoint → Restored db p.state db₁ → Coherent db₁ → P db₁ → Prepared o p →
    ¬ db₁.IsArchived p.state.traceId.asStr → Unsettled db₁ p → ∀ c : Commit db₁ o p, P c.result
  /-- A move keeps it. -/
  move : ∀ {db db' candidate now transition}, Coherent db → P db → ReadBack db candidate →
    Moved db candidate now transition db' → R .lifecycle db' → P db'
  /-- An expiry keeps it. -/
  expire : ∀ {db cutoff bounds selection}, Coherent db → P db → selectRetention db cutoff bounds = .ok selection →
    R .retention (expireTraces db selection) → P (expireTraces db selection)

section Effects

variable {C : Db → StoreBatchItem → Prop} {R : Pass → Db → Prop} {P : Db → Prop}

theorem Preserved.exit (hP : Preserved C R P) (h : Coherent db) (hdb : P db) {o : SourceObservation}
    {p : PreparedObservation} (hC : C db (.observation o)) (hp : prepareObservation o = .ok p)
    (he : IngestExit db o p db') : P db' := by
  have hprep := prepareObservation_ok hp
  have hrestored : ∀ {db₁}, FreshCursor db o.checkpoint → Restored db p.state db₁ →
      Coherent db₁ ∧ P db₁ ∧ ¬ db₁.IsArchived p.state.traceId.asStr := by
    intro db₁ hf hr
    rcases hr.cases hprep with ⟨rfl, hn⟩ | ⟨control, -, hd, ⟨r⟩⟩
    · exact ⟨h, hdb, hn⟩
    · refine ⟨h.rehydrate r, hP.rehydrate h hdb hC hp hf hd r, ?_⟩
      rw [r.result]
      exact fun ha => (isArchived_deleteArchivedTrace.mp ha).2 rfl
  cases he with
  | replayed => exact hdb
  | archived _ _ hl => exact hP.quiet hdb hl.quiet
  | settled hf hr _ hl => exact hP.quiet (hrestored hf hr).2.1 hl.quiet
  | committed hf hr hu c =>
    obtain ⟨h₁, hdb₁, hn⟩ := hrestored hf hr
    exact hP.commit h hdb hC hp hf hr h₁ hdb₁ hprep hn hu c

/-- What an effect keeps is kept when the ledger and the counters follow. -/
theorem Preserved.quieten (hP : Preserved C R P) {pass : Pass} (hR : R pass db') (h : R pass db → P db)
    (hq : Quiet db db') : P db' :=
  hP.quiet (h (hP.unquiet hR hq)) hq

theorem Preserved.commit_txn (hP : Preserved C R P) (h : Coherent db) (hdb : P db) {t : Txn} (hC : t.Ingests C db)
    (hR : t.Leaves R db) (ht : t.commit db = .ok db') : P db' := by
  have hstep := Txn.step_of_commit ht
  cases t with
  | batch items =>
    obtain ⟨⟨statuses, db₁⟩, hb, rfl⟩ := map_eq_ok.mp ht
    refine (ingestOrderedBatch_induction (P := fun db => Coherent db ∧ P db) ?_ hC hb ⟨h, hdb⟩).2
    rintro db item status db' hitem hi ⟨h, hdb⟩
    refine ⟨h.ingestItem hi, ?_⟩
    cases item with
    | observation o =>
      obtain ⟨p, hp, he⟩ := ingestInTransaction_ok hi
      exact hP.exit h hdb hitem hp he
    | disposition c disposition code hash => exact hP.quiet hdb (ingestDispositionInTransaction_ledger hi).quiet
  | backfill request =>
    obtain ⟨⟨blocked, db₁⟩, hb, rfl⟩ := map_eq_ok.mp ht
    rw [backfillHotTraceIndex, h.backfill] at hb
    cases hb
    exact hdb
  | maintain request result candidate outside =>
    have hR : R .lifecycle db' := hstep ▸ hR
    obtain ⟨⟨result', db₁⟩, hm, rfl⟩ := map_eq_ok.mp ht
    change P db₁
    rcases maintainCandidate_ok hm with rfl | ⟨⟨current, transition, moved, epoch, latest, hrow, rfl, -, hmove, -, rfl⟩⟩
    · exact hP.quiet hdb ⟨_, _, _, _, _, _, _, _, _, rfl⟩
    · have hread : ReadBack db { candidate with latestObservedAt := latest, unresolved := false } :=
        ⟨(h.inItsTier hrow :), hrow⟩
      exact hP.quieten hR (hP.move h hdb hread hmove) ⟨_, _, _, _, _, _, _, _, _, rfl⟩
  | retention call archive retired =>
    have hR : R .retention db' := hstep ▸ hR
    obtain ⟨⟨outcome, db₁⟩, hr, rfl⟩ := map_eq_ok.mp ht
    change P db₁
    rcases applyRetention_ok hr with rfl | ⟨selection, -, ⟨receipts, epoch, hselect, -, rfl⟩⟩
    · exact hdb
    · exact hP.quieten hR (hP.expire h hdb hselect) ⟨_, _, _, _, _, _, _, _, _, rfl⟩
  | finishReceipt planId =>
    cases ht
    exact hP.quiet hdb ⟨_, _, _, _, _, _, _, _, _, rfl⟩
  | rebuildProjection =>
    cases ht
    exact hP.quiet hdb ⟨_, _, _, _, _, _, _, _, _, rfl⟩
  | invalidateReport =>
    simp only [Txn.commit, Store.invalidateReport, bind_eq_ok, pure_eq_ok] at ht
    obtain ⟨_, -, rfl⟩ := ht
    exact hP.quiet hdb ⟨_, _, _, _, _, _, _, _, _, rfl⟩
  | acknowledge generation =>
    obtain ⟨⟨done, db₁⟩, ha, rfl⟩ := map_eq_ok.mp ht
    simp only [acknowledgeReportGeneration, bind_eq_ok] at ha
    obtain ⟨⟨⟩, -, ha⟩ := ha
    split at ha
    · cases ha
      exact hdb
    · cases ha
      exact hP.quiet hdb ⟨_, _, _, _, _, _, _, _, _, rfl⟩

theorem Preserved.step (hP : Preserved C R P) (h : Coherent db) (hdb : P db) {t : Txn} (hC : t.Ingests C db)
    (hR : t.Leaves R db) : P (t.step db) := by
  rcases Txn.step_cases db t with heq | ht
  · rwa [heq]
  · exact hP.commit_txn h hdb hC hR ht

/-- **An invariant that every effect keeps holds in every store that a history leads to.** -/
theorem Preserved.history (hP : Preserved C R P) (hempty : P Db.empty) {ts : List Txn}
    (hC : Along Txn.step (fun db t => t.Ingests C db ∧ t.Leaves R db) Db.empty ts) : P (history ts) :=
  (invariant_after (I := fun db => Coherent db ∧ P db) (fun _ t h hc => ⟨h.1.step t, hP.step h.1 h.2 hc.1 hc.2⟩)
    ⟨coherent_empty, hempty⟩ hC).2

theorem ingests_true (db : Db) (t : Txn) : t.Ingests (fun _ _ => True) db := by
  cases t with
  | batch items => exact alongBatch_true
  | _ => trivial

theorem leaves_true (db : Db) (t : Txn) : t.Leaves (fun _ _ => True) db := by
  cases t <;> trivial

/-- **An invariant that every effect keeps without a condition.** -/
theorem Preserved.history_true (hP : Preserved (fun _ _ => True) (fun _ _ => True) P) (hempty : P Db.empty)
    (ts : List Txn) : P (Store.history ts) :=
  hP.history hempty ((along_true ts).mono fun db t _ => ⟨ingests_true db t, leaves_true db t⟩)

/-- Two invariants together: the first may help to meet the conditions of the second. -/
theorem Preserved.and {C' : Db → StoreBatchItem → Prop} {R' : Pass → Db → Prop} {Q : Db → Prop}
    (hP : Preserved C R P) (hQ : Preserved C' R' Q)
    (hC : ∀ {db item}, Coherent db → P db → C db item → C' db item) (hR : ∀ {pass db}, R pass db → R' pass db) :
    Preserved C R fun db => P db ∧ Q db where
  unquiet := hP.unquiet
  quiet h hq := ⟨hP.quiet h.1 hq, hQ.quiet h.2 hq⟩
  rehydrate h hdb hitem hp hf hd r :=
    ⟨hP.rehydrate h hdb.1 hitem hp hf hd r, hQ.rehydrate h hdb.2 (hC h hdb.1 hitem) hp hf hd r⟩
  commit h hdb hitem hp hf hr h₁ hdb₁ hprep hn hu c :=
    ⟨hP.commit h hdb.1 hitem hp hf hr h₁ hdb₁.1 hprep hn hu c,
      hQ.commit h hdb.2 (hC h hdb.1 hitem) hp hf hr h₁ hdb₁.2 hprep hn hu c⟩
  move h hdb hread hm hpass := ⟨hP.move h hdb.1 hread hm hpass, hQ.move h hdb.2 hread hm (hR hpass)⟩
  expire h hdb hs hpass := ⟨hP.expire h hdb.1 hs hpass, hQ.expire h hdb.2 hs (hR hpass)⟩

end Effects

end AgentObservability.Store
