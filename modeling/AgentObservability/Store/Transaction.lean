import AgentObservability.Store.Report
import AgentObservability.Foundation.Run

/-!
# Transactions and runs

The writers of the store as labels, and what each commits. A transaction that
fails leaves the database as it was, so `Txn.step` is total, and a history of the
store is `After Txn.step` of a list of labels.

`ingest` and `ingest_disposition` are batches of one item. `maintain_lifecycle`
commits several transactions; `maintainLifecycle_after` gives the labels that they are.
-/

namespace AgentObservability.Store

open Domain Contracts Foundation

/-- A transaction that a writer may commit. -/
inductive Txn where
  /-- An ordered batch of observations and dispositions. -/
  | batch (items : List StoreBatchItem)
  /-- A pass of the backfill. -/
  | backfill (request : LifecycleRequest)
  /-- The transaction of one candidate of a lifecycle pass. -/
  | maintain (request : LifecycleRequest) (result : LifecycleResult) (candidate : Candidate)
      (outside : Except StoreError Unit)
  /-- A manual retention pass. -/
  | retention (call : RetentionCall) (archive : Except StoreError String) (retired : Except StoreError Unit)
  /-- The end of a retention pass. -/
  | finishReceipt (planId : String)
  /-- The projection file was written again. -/
  | rebuildProjection
  /-- Reports are marked stale. -/
  | invalidateReport
  /-- A report is acknowledged. -/
  | acknowledge (generation : ℕ)

variable [Sha2]

/-- The ingest of one observation. -/
abbrev Txn.ingest (o : SourceObservation) : Txn := .batch [.observation o]

/-- What a transaction commits. -/
def Txn.commit (db : Db) : Txn → Except StoreError Db
  | .batch items => (ingestOrderedBatch db items).map (·.2)
  | .backfill request => (backfillHotTraceIndex db request).map (·.2)
  | .maintain request result candidate outside => (maintainCandidate db request result candidate outside).map (·.2)
  | .retention call archive retired => (applyRetention db call archive retired).map (·.2)
  | .finishReceipt planId => .ok (finishRetentionReceipt db planId)
  | .rebuildProjection => .ok { db with projectionDirty := false }
  | .invalidateReport => Store.invalidateReport db
  | .acknowledge generation => (acknowledgeReportGeneration db generation).map (·.2)

/-- The database after a transaction. -/
def Txn.step (db : Db) (t : Txn) : Db :=
  match t.commit db with
  | .ok db' => db'
  | .error _ => db

/-- The database after a history that began with an empty store. -/
abbrev history (ts : List Txn) : Db := After Txn.step Db.empty ts

theorem history_append (ts ts' : List Txn) : history (ts ++ ts') = After Txn.step (history ts) ts' :=
  after_append _ _ _ _

theorem history_singleton (t : Txn) : history [t] = t.step Db.empty := rfl

theorem history_concat (ts : List Txn) (t : Txn) : history (ts ++ [t]) = t.step (history ts) := history_append ts [t]

theorem Txn.step_of_commit {db db' : Db} {t : Txn} (h : t.commit db = .ok db') : t.step db = db' := by
  simp [Txn.step, h]

theorem Txn.step_of_error {db : Db} {t : Txn} {e : StoreError} (h : t.commit db = .error e) : t.step db = db := by
  simp [Txn.step, h]

/-- A step commits or changes nothing. -/
theorem Txn.step_cases (db : Db) (t : Txn) : t.step db = db ∨ t.commit db = .ok (t.step db) := by
  unfold Txn.step
  cases t.commit db with
  | ok db' => exact Or.inr rfl
  | error e => exact Or.inl rfl

/-- What every commit of a transaction preserves, its step preserves. -/
theorem Txn.step_induction {P : Db → Prop} {db : Db} {t : Txn} (h : P db)
    (hc : ∀ db', t.commit db = .ok db' → P db') : P (t.step db) := by
  rcases Txn.step_cases db t with h' | h'
  · rwa [h']
  · exact hc _ h'

/-- `ingest` and `ingest_disposition` are batches of one item. -/
theorem ingestOrderedBatch_singleton (db : Db) (item : StoreBatchItem) :
    ingestOrderedBatch db [item] = (ingestItem db item).map fun r => ([r.1], r.2) := by
  simp only [ingestOrderedBatch]
  cases ingestItem db item <;> rfl

/-- The transactions of the candidates of a pass. -/
theorem maintainCandidates_after (request : LifecycleRequest) (outside : Candidate → Except StoreError Unit)
    (candidates : List Candidate) : ∀ (db : Db) (result : LifecycleResult), ∃ ts : List Txn,
      (∀ t ∈ ts, ∃ result candidate, candidate ∈ candidates ∧ t = .maintain request result candidate (outside candidate)) ∧
      (maintainCandidates request outside db result candidates).2 = After Txn.step db ts := by
  induction candidates with
  | nil => exact fun db result => ⟨[], by simp, rfl⟩
  | cons candidate candidates ih =>
    intro db result
    rw [maintainCandidates]
    cases h : maintainCandidate db request result candidate (outside candidate) with
    | error e => exact ⟨[], by simp, rfl⟩
    | ok r =>
      obtain ⟨ts, hts, hafter⟩ := ih r.2 r.1
      have hstep : Txn.step db (.maintain request result candidate (outside candidate)) = r.2 :=
        Txn.step_of_commit (by simp [Txn.commit, h, Except.map])
      refine ⟨.maintain request result candidate (outside candidate) :: ts, ?_, ?_⟩
      · rintro t (_ | ⟨_, ht⟩)
        · exact ⟨result, candidate, List.mem_cons_self, rfl⟩
        · obtain ⟨result', c, hc, rfl⟩ := hts t ht
          exact ⟨result', c, List.mem_cons_of_mem _ hc, rfl⟩
      · rw [after_cons, hstep]
        exact hafter

/-- **A lifecycle pass is a run of its transactions.** -/
theorem maintainLifecycle_after (db : Db) (request : LifecycleRequest)
    (outside : Candidate → Except StoreError Unit) : ∃ ts : List Txn,
      (∀ t ∈ ts, t = .backfill request ∨
        ∃ result candidate, t = .maintain request result candidate (outside candidate)) ∧
      (maintainLifecycle db request outside).2 = After Txn.step db ts := by
  unfold maintainLifecycle
  cases validateRequest request with
  | error e => exact ⟨[], by simp, rfl⟩
  | ok _ =>
    cases h : backfillHotTraceIndex db request with
    | error e => exact ⟨[], by simp, rfl⟩
    | ok r =>
      have hstep : Txn.step db (.backfill request) = r.2 :=
        Txn.step_of_commit (by simp [Txn.commit, h, Except.map])
      cases hc : lifecycleCandidates r.2 request.cutoffs request.maxTracesPerPass with
      | error e => exact ⟨[.backfill request], by simp, by simp [hc, hstep]⟩
      | ok candidates =>
        obtain ⟨ts, hts, hafter⟩ := maintainCandidates_after request outside candidates r.2 { blocked := r.1 }
        refine ⟨.backfill request :: ts, ?_, ?_⟩
        · rintro t (_ | ⟨_, ht⟩)
          · exact Or.inl rfl
          · obtain ⟨result, candidate, -, rfl⟩ := hts t ht
            exact Or.inr ⟨result, candidate, rfl⟩
        · simp only [hc, after_cons, hstep]
          exact hafter

end AgentObservability.Store
