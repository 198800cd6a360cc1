import AgentObservability.Store.TurnHistory

/-!
# Report freshness

A report is acknowledged by the generation of the store it was made from. The
acknowledgement says something as long as a change of the visible records is
announced by a new generation. Every writer announces its changes but one: an
observation of a cold trace restores the trace, and when it then turns out to say
nothing new, the restored records are committed under the old generation
(`RestoresSilently`).

## What is proved

`reportFreshness`: in a history without such observations every change of the
visible records raises the generation, so an acknowledged report that is not
pending shows the records as they are.
-/

namespace AgentObservability.Store

open Domain Contracts Foundation

/-! ### Visible records -/

theorem mem_visibleRows {db : Db} {x : ℕ × DurableRecordV1} : x ∈ visibleRows db ↔
    (∃ row ∈ db.records, (row.commitSeq, row.record) = x) ∨
      ∃ row ∈ db.warmRecords, (row.originalCommitSeq, row.record) = x := by
  simp [visibleRows, Table.mem_iff]

theorem visibleRows_congr {db db' : Db} (hr : db'.records = db.records) (hw : db'.warmRecords = db.warmRecords) :
    visibleRows db' = visibleRows db := by
  rw [visibleRows, visibleRows, hr, hw]

/-- The commit sequences of the visible rows are distinct. -/
theorem Coherent.visible_distinct {db : Db} (h : Coherent db) :
    ((db.records.rows.map (fun row => (row.commitSeq, row.record)) ++
      db.warmRecords.rows.map fun row => (row.originalCommitSeq, row.record)).map (·.1)).Nodup := by
  have hd := h.distinct
  rw [Db.knownRows, List.map_append, List.map_map, List.nodup_append] at hd
  simp only [List.map_append, List.map_map, List.nodup_append]
  refine ⟨hd.1, ?_, ?_⟩
  · exact List.pairwise_map.mpr (db.warmRecords.distinct.imp fun hne he => hne (Or.inr he))
  · rintro a ha b hb
    obtain ⟨row, hrow, rfl⟩ := List.mem_map.mp hb
    obtain ⟨copy, hcopy, rfl, -⟩ := (h.warmRecords row).mp hrow
    exact hd.2.2 a ha _ (List.mem_map_of_mem hcopy)

/-- The visible rows are strictly increasing in their commit sequence. -/
theorem Coherent.visible_strict {db : Db} (h : Coherent db) : (visibleRows db).Pairwise fun a b => a.1 < b.1 :=
  sortByKey_strict h.visible_distinct

/-- The restoration of a warm trace changes no visible record. -/
theorem Rehydration.visible_of_warm {db db₁ : Db} {control : TraceControlRow} {T : String} (h : Coherent db)
    (r : Rehydration db control T db₁) (hw : control.tier = .warm) : visibleRows db₁ = visibleRows db := by
  refine eq_of_strict (h.rehydrate r).visible_strict h.visible_strict fun x => ?_
  have hwarm : ∀ row, row ∈ db₁.warmRecords ↔ row ∈ db.warmRecords ∧ row.traceKey ≠ T := by
    intro row
    rw [r.result]
    exact Table.mem_delete
  refine mem_visibleRows.trans (Iff.trans ?_ mem_visibleRows.symm)
  simp only [r.mem_records, hwarm]
  constructor
  · rintro (⟨row, hrow | ⟨copy, hcopy, rfl⟩, rfl⟩ | ⟨row, ⟨hrow, -⟩, rfl⟩)
    · exact Or.inl ⟨row, hrow, rfl⟩
    · -- A restored record had a warm copy.
      obtain ⟨hmem, hk⟩ := mem_spansOf.mp hcopy
      exact Or.inr ⟨copy.toWarm, (h.warmRecords _).mpr ⟨copy, hmem, rfl, control, r.mem, r.key.trans hk.symm, hw⟩, rfl⟩
    · exact Or.inr ⟨row, hrow, rfl⟩
  · rintro (⟨row, hrow, rfl⟩ | ⟨row, hrow, rfl⟩)
    · exact Or.inl ⟨row, Or.inl hrow, rfl⟩
    · obtain ⟨copy, hcopy, rfl, -⟩ := (h.warmRecords row).mp hrow
      by_cases hk : copy.traceKey = T
      · exact Or.inl ⟨copy.toRecord, Or.inr ⟨copy, mem_spansOf.mpr ⟨hcopy, hk⟩, rfl⟩, rfl⟩
      · exact Or.inr ⟨copy.toWarm, ⟨hrow, hk⟩, rfl⟩

/-! ### Announced changes -/

/-- A change of the visible records comes with a new generation, and no generation is taken back. -/
structure Announced (db db' : Db) : Prop where
  /-- The generation does not fall. -/
  mono : db.reportGeneration ≤ db'.reportGeneration
  /-- Under one generation the visible records stay. -/
  visible : db'.reportGeneration = db.reportGeneration → visibleRows db' = visibleRows db

theorem Announced.refl (db : Db) : Announced db db := ⟨Nat.le_refl _, fun _ => rfl⟩

theorem Announced.trans {db db₁ db' : Db} (h : Announced db db₁) (h' : Announced db₁ db') : Announced db db' := by
  refine ⟨h.mono.trans h'.mono, fun he => ?_⟩
  have := h.mono
  have := h'.mono
  rw [h'.visible (by omega), h.visible (by omega)]

theorem Announced.of_eq {db db' : Db} (hr : db'.records = db.records) (hw : db'.warmRecords = db.warmRecords)
    (hg : db.reportGeneration ≤ db'.reportGeneration) : Announced db db' :=
  ⟨hg, fun _ => visibleRows_congr hr hw⟩

theorem Announced.of_lt {db db' : Db} (hg : db.reportGeneration < db'.reportGeneration) : Announced db db' :=
  ⟨hg.le, fun he => absurd he hg.ne'⟩

variable [Sha2] {db db' : Db}

omit [Sha2] in
/-- The replay guard of a span that the restoration of its trace leaves. -/
def Db.remainingGuard (db : Db) (s : DomainSpanState) : Option SpanGuardRow :=
  if (db.copiesOf s.traceId.asStr).any fun copy => copy.spanId = s.spanId.asStr then none
  else db.guardRow s.spanId.asStr

/-- The observation extends its stream, its trace is cold with another state of the span, and the guard of the
span or the events of the store know what it says: it restores the trace and is suppressed. -/
def RestoresSilently (db : Db) (o : SourceObservation) : Prop :=
  ∃ p, prepareObservation o = .ok p ∧ FreshCursor db o.checkpoint ∧ db.IsInTier p.state.traceId.asStr .cold ∧
    ¬ ArchivedDuplicate db p.state ∧
    ((∃ guard, db.remainingGuard p.state = some guard ∧ guard.canonicalStateHash = canonicalStateHash p.state) ∨
      db.remainingGuard p.state = none ∧ ∃ row, db.eventRow p.eventId = some row ∧ row.payloadHash = p.payloadHash)

/-- The item does not restore a trace silently. -/
def SpeaksUp (db : Db) : StoreBatchItem → Prop
  | .observation o => ¬ RestoresSilently db o
  | .disposition _ _ _ _ => True

omit [Sha2] in
/-- The guard of a span after a restoration. -/
theorem Rehydration.guardRow {db₁ : Db} {control : TraceControlRow} {s : DomainSpanState}
    (r : Rehydration db control s.traceId.asStr db₁) : db₁.guardRow s.spanId.asStr = db.remainingGuard s := by
  have hany : (db.spansOf s.traceId.asStr).any (fun copy => decide (copy.spanId = s.spanId.asStr)) =
      (db.copiesOf s.traceId.asStr).any fun copy => decide (copy.spanId = s.spanId.asStr) :=
    (sortByKey_perm : (db.spansOf s.traceId.asStr).Perm (db.copiesOf s.traceId.asStr)).any_eq
  unfold Db.remainingGuard
  rw [r.result]
  cases hc : (db.copiesOf s.traceId.asStr).any fun copy => decide (copy.spanId = s.spanId.asStr) with
  | true =>
    rw [if_pos rfl]
    refine Table.find?_eq_none.mpr fun guard hguard hs => ?_
    exact (Table.mem_delete.mp hguard).2 (by rw [hs, hany, hc])
  | false =>
    rw [if_neg Bool.false_ne_true]
    cases hf : db.guardRow s.spanId.asStr with
    | none =>
      refine Table.find?_eq_none.mpr fun guard hguard hs => ?_
      exact Table.find?_eq_none.mp hf guard (Table.mem_delete.mp hguard).1 hs
    | some guard =>
      obtain ⟨hmem, hs⟩ := Table.mem_of_find? hf
      refine Table.find?_eq_some_of_mem (fun a b ha hb => ha.trans hb.symm) (Table.mem_delete.mpr ⟨hmem, ?_⟩) hs
      rw [hs, hany, hc]
      exact Bool.false_ne_true

/-- **An accepted observation that does not restore a trace silently announces what it changes.** -/
theorem announced_exit (h : Coherent db) {o : SourceObservation} {p : PreparedObservation}
    (hp : prepareObservation o = .ok p) (he : IngestExit db o p db') (hq : ¬ RestoresSilently db o) :
    Announced db db' := by
  have hprep := prepareObservation_ok hp
  have hledger : ∀ {db₁ db₂ : Db}, Ledger db₁ db₂ → Announced db₁ db₂ := by
    rintro db₁ _ ⟨_, _, _, _, rfl⟩
    exact .of_eq rfl rfl (Nat.le_refl _)
  cases he with
  | replayed => exact .refl db
  | archived _ _ hl => exact hledger hl
  | @settled db₁ _ hf hr hs hl =>
    refine Announced.trans ?_ (hledger hl)
    rcases hr.cases hprep with ⟨rfl, -⟩ | ⟨control, -, hd, ⟨r⟩⟩
    · exact .refl _
    · have hgeneration : db₁.reportGeneration = db.reportGeneration := by rw [r.result]; rfl
      refine ⟨hgeneration.ge, fun _ => ?_⟩
      cases ht : control.tier with
      | warm => exact r.visible_of_warm h ht
      | cold =>
        refine absurd ⟨p, hp, hf, ⟨control, r.mem, r.key, ht⟩, hd, ?_⟩ hq
        cases hs with
        | sameState row hrow hstate =>
          -- The row of this state was restored, so the archive held the state.
          obtain ⟨hmem, hspan⟩ := recordOf_mem hrow
          have hmirrors := (h.rehydrate r).mirrors row (Db.mem_knownRows.mpr (Or.inl hmem))
          rcases r.mem_records.mp hmem with hmem | ⟨copy, hcopy, rfl⟩
          · exact absurd ⟨control, r.mem, r.key⟩
              (h.hot_archived _ ⟨row, hmem, hmirrors.traceId.trans (by rw [hstate])⟩)
          · obtain ⟨hcopy, hk⟩ := mem_spansOf.mp hcopy
            refine absurd ⟨copy, hcopy, hk.trans hprep.hash_traceId.symm, hspan, ?_⟩ hd
            exact congrArg canonicalStateHash hstate
        | guarded guard hguard hhash => exact Or.inl ⟨guard, r.guardRow.symm.trans hguard, hhash⟩
        | expired hexpired =>
          obtain ⟨guard, hguard, hk⟩ := hexpired
          rw [r.result] at hguard
          exact absurd ⟨control, r.mem, r.key⟩
            (h.expired_archived _ ⟨guard, hguard, Eq.trans hk hprep.hash_traceId⟩)
        | knownEvent row hguard hevent hhash =>
          refine Or.inr ⟨r.guardRow.symm.trans hguard, row, ?_, hhash⟩
          rw [r.result] at hevent
          exact hevent
  | @committed db₁ hf hr hu c =>
    refine .of_lt ?_
    have hgeneration : db₁.reportGeneration = db.reportGeneration := by
      rcases hr.cases hprep with ⟨rfl, -⟩ | ⟨control, -, -, ⟨r⟩⟩
      · rfl
      · rw [r.result]; rfl
    simp only [Commit.result, hgeneration]
    exact Nat.lt_succ_self _

/-! ### Writers -/

/-- **A transaction announces what it changes.** -/
theorem Txn.announced (h : Coherent db) {t : Txn} (hc : t.Ingests SpeaksUp db) (ht : t.commit db = .ok db') :
    Announced db db' := by
  cases t with
  | batch items =>
    obtain ⟨⟨statuses, db₁⟩, hb, rfl⟩ := map_eq_ok.mp ht
    refine (ingestOrderedBatch_induction (P := fun db₁ => Coherent db₁ ∧ Announced db db₁) ?_ hc hb ⟨h, .refl db⟩).2
    rintro db₁ item status db₂ hspeaks hi ⟨h₁, ha⟩
    refine ⟨h₁.ingestItem hi, ha.trans ?_⟩
    cases item with
    | observation o =>
      obtain ⟨p, hp, he⟩ := ingestInTransaction_ok hi
      exact announced_exit h₁ hp he hspeaks
    | disposition c disposition code hash =>
      obtain ⟨_, _, _, _, rfl⟩ := ingestDispositionInTransaction_ledger hi
      exact .of_eq rfl rfl (Nat.le_refl _)
  | backfill request =>
    obtain ⟨⟨blocked, db₁⟩, hb, rfl⟩ := map_eq_ok.mp ht
    rw [backfillHotTraceIndex, h.backfill] at hb
    cases hb
    exact .refl db
  | maintain request result candidate outside =>
    obtain ⟨⟨result', db₁⟩, hm, rfl⟩ := map_eq_ok.mp ht
    change Announced db db₁
    rcases maintainCandidate_ok hm with rfl | ⟨⟨current, transition, moved, epoch, latest, -, -, -, hmove, -, rfl⟩⟩
    · exact .of_eq rfl rfl (Nat.le_refl _)
    · refine .of_lt ?_
      simp only [hmove.report.1]
      exact Nat.lt_succ_self _
  | retention call archive retired =>
    obtain ⟨⟨outcome, db₁⟩, hr, rfl⟩ := map_eq_ok.mp ht
    change Announced db db₁
    rcases applyRetention_ok hr with rfl | ⟨selection, -, ⟨receipts, epoch, -, -, rfl⟩⟩
    · exact .refl _
    · exact .of_lt (Nat.lt_succ_self _)
  | finishReceipt planId =>
    cases ht
    exact .of_eq rfl rfl (Nat.le_refl _)
  | rebuildProjection =>
    cases ht
    exact .of_eq rfl rfl (Nat.le_refl _)
  | invalidateReport =>
    simp only [Txn.commit, Store.invalidateReport, bind_eq_ok, pure_eq_ok] at ht
    obtain ⟨generation, hg, rfl⟩ := ht
    obtain ⟨-, rfl⟩ := advanceGeneration_ok hg
    exact .of_lt (Nat.lt_succ_self _)
  | acknowledge generation =>
    obtain ⟨⟨done, db₁⟩, ha, rfl⟩ := map_eq_ok.mp ht
    simp only [acknowledgeReportGeneration, bind_eq_ok] at ha
    obtain ⟨⟨⟩, -, ha⟩ := ha
    split at ha
    · cases ha
      exact .refl db
    · cases ha
      exact .of_eq rfl rfl (Nat.le_refl _)

theorem Txn.announced_step (h : Coherent db) {t : Txn} (hc : t.Ingests SpeaksUp db) : Announced db (t.step db) :=
  Txn.step_induction (.refl db) fun _ ht => Txn.announced h hc ht

theorem acknowledgement_exit {o : SourceObservation} {p : PreparedObservation} (hp : Prepared o p)
    (he : IngestExit db o p db') : db'.reportAcknowledgement = db.reportAcknowledgement := by
  have hrestored : ∀ {db₁ : Db}, Restored db p.state db₁ → db₁.reportAcknowledgement = db.reportAcknowledgement := by
    intro db₁ hr
    rcases hr.cases hp with ⟨rfl, -⟩ | ⟨control, -, -, ⟨r⟩⟩
    · rfl
    · rw [r.result]; rfl
  cases he with
  | replayed => rfl
  | archived _ _ hl =>
    obtain ⟨_, _, _, _, rfl⟩ := hl
    rfl
  | settled _ hr _ hl =>
    obtain ⟨_, _, _, _, rfl⟩ := hl
    exact (hrestored hr :)
  | committed _ hr _ c => exact (hrestored hr :)

/-- No transaction both raises the generation and acknowledges one. -/
theorem Txn.generation_or_acknowledgement (h : Coherent db) (t : Txn) :
    (t.step db).reportGeneration = db.reportGeneration ∨
      (t.step db).reportAcknowledgement = db.reportAcknowledgement := by
  refine Txn.step_induction (P := fun db' => db'.reportGeneration = db.reportGeneration ∨
    db'.reportAcknowledgement = db.reportAcknowledgement) (Or.inl rfl) fun db' ht => ?_
  cases t with
  | batch items =>
    obtain ⟨⟨statuses, db₁⟩, hb, rfl⟩ := map_eq_ok.mp ht
    refine Or.inr (ingestOrderedBatch_induction
      (P := fun db₁ => db₁.reportAcknowledgement = db.reportAcknowledgement) ?_ alongBatch_true hb rfl)
    intro db₁ item status db₂ _ hi ha
    cases item with
    | observation o =>
      obtain ⟨p, hp, he⟩ := ingestInTransaction_ok hi
      exact (acknowledgement_exit (prepareObservation_ok hp) he).trans ha
    | disposition c disposition code hash =>
      obtain ⟨_, _, _, _, rfl⟩ := ingestDispositionInTransaction_ledger hi
      exact ha
  | backfill request =>
    obtain ⟨⟨blocked, db₁⟩, hb, rfl⟩ := map_eq_ok.mp ht
    rw [backfillHotTraceIndex, h.backfill] at hb
    cases hb
    exact Or.inr rfl
  | maintain request result candidate outside =>
    obtain ⟨⟨result', db₁⟩, hm, rfl⟩ := map_eq_ok.mp ht
    rcases maintainCandidate_ok hm with rfl | ⟨⟨current, transition, moved, epoch, latest, -, -, -, hmove, -, rfl⟩⟩
    · exact Or.inr rfl
    · exact Or.inr hmove.report.2
  | retention call archive retired =>
    obtain ⟨⟨outcome, db₁⟩, hr, rfl⟩ := map_eq_ok.mp ht
    rcases applyRetention_ok hr with rfl | ⟨selection, -, ⟨receipts, epoch, -, -, rfl⟩⟩
    · exact Or.inr rfl
    · exact Or.inr rfl
  | finishReceipt planId =>
    cases ht
    exact Or.inr rfl
  | rebuildProjection =>
    cases ht
    exact Or.inr rfl
  | invalidateReport =>
    simp only [Txn.commit, Store.invalidateReport, bind_eq_ok, pure_eq_ok] at ht
    obtain ⟨generation, -, rfl⟩ := ht
    exact Or.inr rfl
  | acknowledge generation =>
    obtain ⟨⟨done, db₁⟩, ha, rfl⟩ := map_eq_ok.mp ht
    simp only [acknowledgeReportGeneration, bind_eq_ok] at ha
    obtain ⟨⟨⟩, -, ha⟩ := ha
    split at ha
    · cases ha
      exact Or.inl rfl
    · cases ha
      exact Or.inl rfl

/-! ### Histories -/

/-- What an acknowledged report promises over a history. -/
structure ReportFreshness (ts : List Txn) : Prop where
  /-- A step that changes the current records raises the generation. -/
  announced : ∀ ts₁ t ts₂, ts = ts₁ ++ t :: ts₂ →
    currentRecords (history (ts₁ ++ [t])) ≠ currentRecords (history ts₁) →
    (history ts₁).reportGeneration < (history (ts₁ ++ [t])).reportGeneration
  /-- A snapshot that was acknowledged shows the current records as long as the report is not pending. -/
  acknowledged : ∀ ts₁ ts₂ ts₃ generation records, ts = ts₁ ++ ts₂ ++ .acknowledge generation :: ts₃ →
    reportSnapshot (history ts₁) = ⟨generation, records⟩ →
    (∃ db, acknowledgeReportGeneration (history (ts₁ ++ ts₂)) generation = .ok (true, db)) →
    (∀ ts₄, ts₄ <+: ts₃ →
      (reportStatus (history (ts₁ ++ ts₂ ++ .acknowledge generation :: ts₄))).map (·.pending) = .ok false) →
    currentRecords (history ts) = records

omit [Sha2] in
theorem reportStatus_pending (h : (reportStatus db).map (·.pending) = .ok false) :
    db.reportGeneration = db.reportAcknowledgement := by
  obtain ⟨status, hs, hp⟩ := map_eq_ok.mp h
  simp only [reportStatus, bind_eq_ok, pure_eq_ok] at hs
  obtain ⟨-, -, rfl⟩ := hs
  simpa [ReportStatus.pending] using hp

/-- As long as a report is not pending, the acknowledged generation is the current one. -/
theorem generation_of_not_pending {generation : ℕ} {ts : List Txn} :
    ∀ {db : Db}, Coherent db → db.reportGeneration = generation → db.reportAcknowledgement = generation →
      (∀ ts', ts' <+: ts → (reportStatus (After Txn.step db ts')).map (·.pending) = .ok false) →
      (After Txn.step db ts).reportGeneration = generation := by
  induction ts with
  | nil => exact fun _ hg _ _ => hg
  | cons t ts ih =>
    intro db h hg ha hp
    have hnext := reportStatus_pending (hp [t] (by simp))
    rw [after_cons, after_nil] at hnext
    have hsame : (t.step db).reportGeneration = generation := by
      rcases Txn.generation_or_acknowledgement h t with he | he
      · rw [he, hg]
      · rw [hnext, he, ha]
    refine ih (h.step t) hsame (hnext.symm.trans hsame) fun ts' hts' => ?_
    have := hp (t :: ts') (by simpa using hts')
    rwa [after_cons] at this

/-- **Where no trace is restored silently, reports stay fresh.** -/
theorem reportFreshness {ts : List Txn} (hc : Along Txn.step (fun db t => t.Ingests SpeaksUp db) Db.empty ts) :
    ReportFreshness ts where
  announced := by
    rintro ts₁ t ts₂ rfl hne
    obtain ⟨-, hstep, -⟩ := along_append.mp hc
    have ha := Txn.announced_step (coherent_history ts₁) hstep
    rw [history_concat] at hne ⊢
    refine Nat.lt_of_le_of_ne ha.mono fun he => hne ?_
    exact congrArg (List.map (·.2)) (ha.visible he.symm)
  acknowledged := by
    rintro ts₁ ts₂ ts₃ generation records rfl hsnap ⟨db₁, hack⟩ hpending
    obtain ⟨rfl, rfl⟩ := ReportSnapshot.mk.inj hsnap
    rw [List.append_assoc] at hc ⊢
    obtain ⟨-, hrest⟩ := along_append.mp hc
    have hend : (history (ts₁ ++ (ts₂ ++ .acknowledge (history ts₁).reportGeneration :: ts₃))).reportGeneration =
        (history ts₁).reportGeneration := by
      have hstep : Txn.step (history (ts₁ ++ ts₂)) (.acknowledge (history ts₁).reportGeneration) = db₁ :=
        Txn.step_of_commit (by simp [Txn.commit, hack, Except.map])
      have hdb₁ : db₁.reportGeneration = (history ts₁).reportGeneration ∧
          db₁.reportAcknowledgement = (history ts₁).reportGeneration := by
        simp only [acknowledgeReportGeneration, bind_eq_ok] at hack
        obtain ⟨⟨⟩, -, hack⟩ := hack
        split at hack
        · cases hack
        · rename_i heq
          cases hack
          exact ⟨not_not.mp heq, rfl⟩
      rw [← List.append_assoc, history_append, after_cons, hstep]
      refine generation_of_not_pending (hstep ▸ (coherent_history (ts₁ ++ ts₂)).step _) hdb₁.1 hdb₁.2 fun ts₄ hts₄ => ?_
      have := hpending ts₄ hts₄
      rwa [history_append, after_cons, hstep] at this
    rw [history_append] at hend ⊢
    refine congrArg (List.map (·.2)) (eq_of_counter_eq Db.reportGeneration visibleRows
      (I := Coherent) (fun db t h _ => h.step t) (fun db t h hc => (Txn.announced_step h hc).mono)
      (fun db t h hc => (Txn.announced_step h hc).visible) (coherent_history ts₁) hrest hend)

omit [Sha2] in
theorem reportFreshness_turn : @ReportFreshness sha256 [.ingest (turnOf 0 0 0 none 1000), .invalidateReport] :=
  @reportFreshness sha256 _ ⟨⟨by
    rintro ⟨p, -, -, ⟨row, hrow, -⟩, -⟩
    exact Table.not_mem_empty row hrow, fun _ _ _ => trivial⟩, trivial, trivial⟩

/-! ### A silent restoration -/

/-- A turn of a trace that a retention pass then expires. -/
def expiringTurn : SourceObservation := turnOf 0 0 0 none 1000

/-- The retention pass that expires it. -/
def expiry : Txn :=
  .retention (retentionCall 5000
    (@singlePlanId sha256 (@history sha256 [.ingest expiringTurn]) 5000 (numberedId 0).asStr)) (.ok "") (.ok ())

/-- A turn of another trace. -/
def firstTurn : SourceObservation := turnOf 1 1 1 none 800000000

/-- A second span of the expired trace, which goes to the archive. -/
def archivedTurn : SourceObservation := turnOf 2 0 2 none 1000

/-- A turn of a third trace. -/
def lastTurn : SourceObservation := turnOf 3 2 3 none 800000000

/-- The expired turn once more, in a stream of its own. -/
def replayedTurn : SourceObservation := turnOf 4 0 0 none 1000

/-- The history up to the replay. -/
def guardedHistory : List Txn :=
  [.ingest expiringTurn, expiry, .ingest firstTurn, .ingest archivedTurn,
    .maintain (requestAfter 1 2 3650) {} (hotCandidate 0 1000) (.ok ()), .ingest lastTurn]

/-- The visible row of a turn. -/
def turnVisible (commitSeq : ℕ) (o : SourceObservation) : ℕ × DurableRecordV1 := (commitSeq, turnRecord o)

omit [Sha2] in
theorem numberedId_ne {m n : Number} (h : m ≠ n) : (numberedId m).asStr ≠ (numberedId n).asStr := fun he =>
  h (numberedId_inj.mp he)

/-- A store that holds a guard of the expired span and nothing else. -/
structure OnlyGuard (db : Db) : Prop where
  /-- No record. -/
  records : ∀ row, row ∉ db.records
  /-- No link. -/
  topology : ∀ row, row ∉ db.topology
  /-- No observation. -/
  observations : ∀ row, row ∉ db.observations
  /-- No input. -/
  inputs : ∀ row, row ∉ db.sourceInputs
  /-- No outcome. -/
  outcomes : ∀ row, row ∉ db.deliveryOutcomes
  /-- No index row. -/
  index : ∀ row, row ∉ db.hotTraceIndex
  /-- The cursor of the expired stream. -/
  cursors : ∀ row ∈ db.sourceCursors, row.generation = (numberedId 0).asStr
  /-- No disposition. -/
  dispositions : ∀ row, row ∉ db.adapterDispositions
  /-- No expired trace. -/
  expired : ∀ row, row ∉ db.expiredTraceStates
  /-- No archived trace. -/
  control : ∀ row, row ∉ db.traceControl
  /-- No control copy. -/
  copies : ∀ row, row ∉ db.spanControl
  /-- No warm record. -/
  warm : ∀ row, row ∉ db.warmRecords
  /-- The guard. -/
  guards : db.expiredSpanStates.rows = [@retentionGuard sha256 (turnRow 1 expiringTurn)]
  /-- One commit sequence was given out. -/
  sequence : db.recordsSequence = 1
  /-- Two generations passed. -/
  generation : db.reportGeneration = 2
  /-- One epoch passed. -/
  epoch : db.reportVisibilityEpoch = 1

omit [Sha2] in
theorem OnlyGuard.guard {db : Db} (h : OnlyGuard db) {row : SpanGuardRow} (hrow : row ∈ db.expiredSpanStates) :
    row = @retentionGuard sha256 (turnRow 1 expiringTurn) := by
  rw [Table.mem_iff, h.guards] at hrow
  exact List.mem_singleton.mp hrow

omit [Sha2] in
/-- After the retention pass the store holds a guard of the expired span and nothing else. -/
theorem onlyGuard_expiry (db : Db) (hdb : db = @history sha256 [.ingest expiringTurn, expiry]) : OnlyGuard db := by
  let : Sha2 := sha256
  set T := (numberedId 0).asStr with hT
  obtain ⟨db₁, h, hexpiry, heq⟩ : ∃ db₁, TurnStored Db.empty expiringTurn db₁ ∧
      expiry = .retention (retentionCall 5000 (singlePlanId db₁ 5000 T)) (.ok "") (.ok ()) ∧ db = expiry.step db₁ := by
    refine ⟨history [.ingest expiringTurn], ?_, rfl, hdb.trans (history_concat [.ingest expiringTurn] expiry)⟩
    rw [history_singleton]
    exact step_turn coherent_empty (by simp [Db.empty, Db.IsArchived])
      (within_empty.turnFits coherent_empty (Set.notMem_empty _) (Set.notMem_empty _) (Set.notMem_empty _)
        (Set.notMem_empty _) nofun nofun (by simp [Db.empty]))
  have hrecords : db₁.recordsOf T = [turnRow 1 expiringTurn] :=
    List.perm_singleton.mp (recordsOf_perm (List.nodup_singleton _) fun row => by
      rw [h.records, List.mem_singleton]
      constructor
      · rintro rfl
        exact ⟨Or.inr rfl, rfl⟩
      · rintro ⟨hrow | hrow, -⟩
        · simp [Db.empty] at hrow
        · exact hrow)
  have hobs : ∀ row ∈ db₁.observations,
      row = observationRow Db.empty expiringTurn (preparedPrivate expiringTurn) expiringTurn.rawState := by
    intro row hrow
    rcases (h.observations row).mp hrow with hrow | hrow
    · simp [Db.empty] at hrow
    · exact hrow
  have htime : (observationRow Db.empty expiringTurn (preparedPrivate expiringTurn) expiringTurn.rawState).observedAt =
      1000 := by rfl
  have hexpirable : Expirable db₁ 5000 ⟨100000, 256 * 1024 * 1024⟩ T :=
    expirable_of_turns (by decide) ⟨_, (h.observations _).mpr (Or.inr rfl), rfl⟩
      (fun row hrow => by
        rw [hobs row hrow]
        exact iff_of_true rfl (by rw [htime]; decide))
      (fun row hrow _ => by
        rcases (h.topology row).mp hrow with hrow | rfl
        · simp [Db.empty] at hrow
        · rfl)
      (by rw [hrecords]; simp) (by rw [hrecords]; simp)
      (fun row hrow => by
        rw [hrecords, List.mem_singleton] at hrow
        rw [hrow]
        exact ⟨_, _, _, _, rfl⟩)
  obtain ⟨receipts, h₂⟩ : ∃ receipts,
      (Txn.retention (retentionCall 5000 (singlePlanId db₁ 5000 T)) (.ok "") (.ok ())).step db₁ = deleteHotTraces
        { db₁ with
          retentionReceipts := receipts
          expiredSpanStates := replaceSpanGuards db₁.expiredSpanStates ((db₁.recordsOf T).map retentionGuard)
          projectionDirty := true
          reportGeneration := db₁.reportGeneration + 1
          reportVisibilityEpoch := db₁.reportVisibilityEpoch + 1 }
        [T] :=
    step_retention hexpirable rfl (by rw [h.retentionReceipts]; simp [Db.empty]) (by rw [h.generation]; decide)
      (by rw [h.epoch]; decide)
  rw [heq, hexpiry, h₂]
  clear h₂ heq hdb
  have hgone : ∀ eventId, eventId = stableEventId expiringTurn → db₁.observations.Has fun row =>
      row.eventId = eventId ∧ row.traceId ∈ [T] := by
    rintro eventId rfl
    exact ⟨_, (h.observations _).mpr (Or.inr rfl), rfl, List.mem_singleton.mpr rfl⟩
  refine ⟨?_, ?_, ?_, ?_, ?_, ?_, ?_, ?_, ?_, ?_, ?_, ?_, ?_, ?_, ?_, ?_⟩
  · intro row hrow
    simp only [deleteHotTraces, Table.mem_delete, h.records, List.mem_singleton] at hrow
    rcases hrow with ⟨hrow | rfl, hne⟩
    · simp [Db.empty] at hrow
    · exact hne rfl
  · intro row hrow
    simp only [deleteHotTraces, Table.mem_delete, h.topology, List.mem_singleton] at hrow
    rcases hrow with ⟨hrow | rfl, hne⟩
    · simp [Db.empty] at hrow
    · exact hne rfl
  · intro row hrow
    simp only [deleteHotTraces, Table.mem_delete, List.mem_singleton] at hrow
    rw [hobs row hrow.1] at hrow
    exact hrow.2 rfl
  · intro row hrow
    simp only [deleteHotTraces, Table.mem_delete, h.inputs] at hrow
    rcases hrow with ⟨hrow | rfl, hne⟩
    · simp [Db.empty] at hrow
    · exact hne (hgone _ rfl)
  · intro row hrow
    simp only [deleteHotTraces, Table.mem_delete, h.outcomes] at hrow
    rcases hrow with ⟨hrow | rfl, hne⟩
    · simp [Db.empty] at hrow
    · exact hne (hgone _ rfl)
  · intro row hrow
    simp only [deleteHotTraces, Table.mem_delete, h.index (by simp [Db.empty]), List.mem_singleton] at hrow
    rcases hrow with ⟨hrow | rfl, hne⟩
    · simp [Db.empty] at hrow
    · exact hne rfl
  · intro row hrow
    rcases h.cursors row hrow with hrow | hrow
    · simp [Db.empty] at hrow
    · exact hrow
  · intro row hrow
    simp [deleteHotTraces, h.adapterDispositions, Db.empty] at hrow
  · intro row hrow
    simp [deleteHotTraces, h.expiredTraceStates, Db.empty] at hrow
  · intro row hrow
    simp [deleteHotTraces, h.traceControl, Db.empty] at hrow
  · intro row hrow
    simp [deleteHotTraces, h.spanControl, Db.empty] at hrow
  · intro row hrow
    simp [deleteHotTraces, h.warmRecords, Db.empty] at hrow
  · rw [expiredSpanStates_deleteHotTraces]
    dsimp only
    rw [hrecords, h.expiredSpanStates, replaceSpanGuards,
      Table.keepNewest_eq_self (by simp [Table.replace, Db.empty, maxExpiredSpanGuards])]
    rfl
  · exact h.sequence
  · exact congrArg (· + 1) h.generation
  · exact congrArg (· + 1) h.epoch

omit [Sha2] in
theorem OnlyGuard.within {db : Db} (h : OnlyGuard db) : Within db {0} {0} ∅ ∅ where
  inputs row hrow := absurd hrow (h.inputs row)
  cursors row hrow := by
    rw [h.cursors row hrow]
    exact mem_ids.mpr rfl
  dispositions row hrow := absurd hrow (h.dispositions row)
  observations row hrow := absurd hrow (h.observations row)
  observed row hrow := absurd hrow (h.observations row)
  outcomes row hrow := absurd hrow (h.outcomes row)
  known row hrow := by
    rcases Db.mem_knownRows.mp hrow with hrow | ⟨copy, hcopy, -⟩
    · exact absurd hrow (h.records row)
    · exact absurd hcopy (h.copies copy)
  parents row hrow := by
    rcases Db.mem_knownRows.mp hrow with hrow | ⟨copy, hcopy, -⟩
    · exact absurd hrow (h.records row)
    · exact absurd hcopy (h.copies copy)
  guards row hrow := by
    rw [h.guard hrow]
    exact mem_ids.mpr rfl
  gone row hrow := absurd hrow (h.expired row)
  index row hrow := absurd hrow (h.index row)

omit [Sha2] in
/-- The events of the turns differ. -/
theorem turnEvents_ne : @stableEventId sha256 archivedTurn ≠ @stableEventId sha256 firstTurn ∧
    @stableEventId sha256 lastTurn ≠ @stableEventId sha256 archivedTurn ∧
    @stableEventId sha256 lastTurn ≠ @stableEventId sha256 firstTurn := by decide +kernel

/-- A store with the two young turns in its hot tables, a span of the old trace in the archive, and a guard of
another span of this trace. -/
structure GuardedArchive (db : Db) : Prop where
  /-- The tables agree. -/
  coherent : Coherent db
  /-- What the store names. -/
  within : ∃ events, Within db {3, 2, 1, 0} {3, 2, 1, 0} ∅ events
  /-- The young turns. -/
  records : ∀ row, row ∈ db.records ↔ row = turnRow 2 firstTurn ∨ row = turnRow 4 lastTurn
  /-- The archived span. -/
  copies : ∀ row, row ∈ db.spanControl ↔ row = (turnRow 3 archivedTurn).toControl archivedTurn.traceId.asStr
  /-- The archived trace. -/
  control : ∃ control ∈ db.traceControl, control.traceKey = archivedTurn.traceId.asStr
  /-- Nothing is warm. -/
  warm : ∀ row, row ∉ db.warmRecords
  /-- The guard of the expired span. -/
  guard : @retentionGuard sha256 (turnRow 1 expiringTurn) ∈ db.expiredSpanStates

omit [Sha2] in
/-- A guard stays when others are added, while there is room. -/
theorem mem_replaceSpanGuards_of_mem {guards : Table SpanGuardRow} {row added : SpanGuardRow} (h : row ∈ guards)
    (hne : row.spanId ≠ added.spanId) (hroom : guards.rows.length + 1 ≤ maxExpiredSpanGuards) :
    row ∈ replaceSpanGuards guards [added] := by
  have hlength : ([added].foldl Table.replace guards).rows.length ≤ guards.rows.length + 1 := by
    simp only [List.foldl_cons, List.foldl_nil, Table.replace, List.length_append, List.length_singleton]
    exact Nat.succ_le_succ (List.length_filter_le _ _)
  rw [replaceSpanGuards, Table.keepNewest_eq_self (hlength.trans hroom)]
  exact Table.mem_replace.mpr (Or.inl ⟨h, hne⟩)

omit [Sha2] in
/-- The turns of the history up to the archive. -/
theorem guardedArchive_history (db₂ : Db) (hc₂ : Coherent db₂) (h₂ : OnlyGuard db₂) :
    GuardedArchive (After (@Txn.step sha256) db₂ [.ingest firstTurn, .ingest archivedTurn,
      .maintain (requestAfter 1 2 3650) {} (hotCandidate 0 1000) (.ok ()), .ingest lastTurn]) := by
  let : Sha2 := sha256
  obtain ⟨hne₁, hne₂, hne₃⟩ := turnEvents_ne
  simp only [after_cons, after_nil]
  -- The first turn.
  have h₃ : TurnStored db₂ firstTurn ((Txn.ingest firstTurn).step db₂) :=
    step_turn hc₂ (fun ⟨row, hrow, _⟩ => h₂.control row hrow)
      (h₂.within.turnFits hc₂ (by decide) (by decide) (Set.notMem_empty _) (Set.notMem_empty _) nofun nofun
        (by rw [h₂.generation]; decide))
  have hc₃ : Coherent ((Txn.ingest firstTurn).step db₂) := hc₂.step _
  generalize (Txn.ingest firstTurn).step db₂ = db₃ at h₃ hc₃ ⊢
  have hw₃ := h₂.within.turn h₃ nofun
  have hrecords₃ : ∀ row, row ∈ db₃.records ↔ row = turnRow 2 firstTurn := fun row => by
    rw [h₃.records, show db₂.nextCommitSeq = 2 from congrArg (· + 1) h₂.sequence]
    exact or_iff_right (h₂.records row)
  have hindex₃ : ∀ row ∈ db₃.hotTraceIndex, row.traceId ≠ archivedTurn.traceId.asStr := by
    intro row hrow
    rcases (h₃.index (fun row hrow => absurd hrow (h₂.index row)) row).mp hrow with hrow | rfl
    · exact absurd hrow (h₂.index row)
    · exact numberedId_ne (by decide)
  -- The second span of the expired trace.
  have h₄ : TurnStored db₃ archivedTurn ((Txn.ingest archivedTurn).step db₃) :=
    step_turn hc₃ (by rintro ⟨row, hrow, -⟩; rw [h₃.traceControl] at hrow; exact h₂.control row hrow)
      (hw₃.turnFits hc₃ (by decide) (by decide) (Set.notMem_empty _) (fun he => he.elim hne₁ id) nofun nofun
        (by rw [h₃.generation, h₂.generation]; decide))
  have hc₄ : Coherent ((Txn.ingest archivedTurn).step db₃) := hc₃.step _
  generalize (Txn.ingest archivedTurn).step db₃ = db₄ at h₄ hc₄ ⊢
  have hw₄ := hw₃.turn h₄ nofun
  have hrecords₄ : ∀ row, row ∈ db₄.records ↔ row = turnRow 2 firstTurn ∨ row = turnRow 3 archivedTurn := fun row => by
    rw [h₄.records, hrecords₃, show db₃.nextCommitSeq = 3 from
      congrArg (· + 1) (h₃.sequence.trans (congrArg (· + 1) h₂.sequence))]
  have honly : ∀ row, row ∈ db₄.records ∧ row.traceId = archivedTurn.traceId.asStr ↔
      row = turnRow 3 archivedTurn := by
    intro row
    rw [hrecords₄]
    constructor
    · rintro ⟨rfl | rfl, ht⟩
      · exact absurd ht (numberedId_ne (by decide))
      · rfl
    · rintro rfl
      exact ⟨Or.inr rfl, rfl⟩
  -- The trace goes to the archive.
  have hmovable : Movable db₄ (requestAfter 1 2 3650) _ :=
    movable_of_turn honly
      ((h₄.index hindex₃ _).mpr (Or.inr rfl)) rfl rfl
      (decide_eq_false (by
        rintro ⟨row, hrow, ht, hu⟩
        rcases (h₄.topology row).mp hrow with hrow | rfl
        · rcases (h₃.topology row).mp hrow with hrow | rfl
          · exact h₂.topology row hrow
          · cases hu
        · cases hu))
      rfl (fun copy hcopy => by rw [h₄.spanControl, h₃.spanControl] at hcopy; exact absurd hcopy (h₂.copies copy))
      (by rw [h₄.generation, h₃.generation, h₂.generation]; decide)
      (by rw [h₄.epoch, h₃.epoch, h₂.epoch]; decide)
  have h₅ : Archived db₄ archivedTurn.traceId.asStr .cold 1000
      ((Txn.maintain (requestAfter 1 2 3650) {} (hotCandidate 0 1000) (.ok ())).step db₄) :=
    hmovable.step_archive hc₄ rfl rfl rfl (by decide)
  have hc₅ := hc₄.step (.maintain (requestAfter 1 2 3650) {} (hotCandidate 0 1000) (.ok ()))
  generalize (Txn.maintain (requestAfter 1 2 3650) {} (hotCandidate 0 1000) (.ok ())).step db₄ = db₅ at h₅ hc₅ ⊢
  have hw₅ := hw₄.archived hc₄.mirrors h₅
  have hrecords₅ : ∀ row, row ∈ db₅.records ↔ row = turnRow 2 firstTurn := by
    intro row
    rw [h₅.records, hrecords₄]
    constructor
    · rintro ⟨rfl | rfl, ht⟩
      · rfl
      · exact absurd rfl ht
    · rintro rfl
      exact ⟨Or.inl rfl, numberedId_ne (by decide)⟩
  have hlist : db₄.recordsOf archivedTurn.traceId.asStr = [turnRow 3 archivedTurn] :=
    List.perm_singleton.mp (recordsOf_perm (List.nodup_singleton _) fun row => by rw [List.mem_singleton, honly])
  obtain ⟨control, hkey, -, -, hcontrol⟩ := h₅.control
  have hgoneTrace : archivedTurn.traceId.asStr ≠ lastTurn.traceId.asStr := numberedId_ne (by decide)
  -- The last turn.
  have h₆ : TurnStored db₅ lastTurn ((Txn.ingest lastTurn).step db₅) :=
    step_turn hc₅
      (by
        rintro ⟨row, hrow, hk⟩
        rcases (hcontrol row).mp hrow with hrow | rfl
        · rw [h₄.traceControl, h₃.traceControl] at hrow
          exact h₂.control row hrow
        · exact hgoneTrace (hkey.symm.trans hk))
      (hw₅.turnFits hc₅ (by decide) (by decide) (Set.notMem_empty _)
        (fun he => he.elim hne₂ fun he => he.elim hne₃ id) nofun nofun
        (by rw [h₅.generation, h₄.generation, h₃.generation, h₂.generation]; decide))
  have hc₆ : Coherent ((Txn.ingest lastTurn).step db₅) := hc₅.step _
  generalize (Txn.ingest lastTurn).step db₅ = db₆ at h₆ hc₆ ⊢
  refine
    { coherent := hc₆, within := ⟨_, by simpa using hw₅.turn h₆ nofun⟩
      records := fun row => ?_, copies := fun row => ?_
      control := ⟨control, by rw [h₆.traceControl]; exact (hcontrol control).mpr (Or.inr rfl), hkey⟩
      warm := fun row hrow => ?_, guard := ?_ }
  · rw [h₆.records, hrecords₅, show db₅.nextCommitSeq = 4 from congrArg (· + 1) (h₅.sequence.trans
      (h₄.sequence.trans (congrArg (· + 1) (h₃.sequence.trans (congrArg (· + 1) h₂.sequence)))))]
  · rw [h₆.spanControl, h₅.copies, h₄.spanControl, h₃.spanControl, or_iff_right (h₂.copies row)]
    rw [hlist]
    simp only [List.mem_singleton, exists_eq_left]
    exact eq_comm
  · rw [h₆.warmRecords, h₅.warm, h₄.warmRecords, h₃.warmRecords] at hrow
    rcases hrow with hrow | ⟨ht, -⟩
    · exact h₂.warm row hrow
    · cases ht
  · rw [h₆.expiredSpanStates, h₅.guards, h₄.expiredSpanStates, h₃.expiredSpanStates]
    rw [hlist]
    refine mem_replaceSpanGuards_of_mem (Table.mem_iff.mpr ?_) (numberedId_ne (by decide)) ?_
    · rw [h₂.guards]
      exact List.mem_singleton_self _
    · rw [h₂.guards]
      exact Nat.le_of_ble_eq_true rfl

omit [Sha2] in
/-- The replay makes the archived span visible under the old generation. -/
theorem GuardedArchive.replay {db : Db} (h : GuardedArchive db) :
    visibleRows db = [turnVisible 2 firstTurn, turnVisible 4 lastTurn] ∧
    visibleRows (@Txn.step sha256 db (.ingest replayedTurn)) =
      [turnVisible 2 firstTurn, turnVisible 3 archivedTurn, turnVisible 4 lastTurn] ∧
    (@Txn.step sha256 db (.ingest replayedTurn)).reportGeneration = db.reportGeneration := by
  let : Sha2 := sha256
  obtain ⟨events, hw⟩ := h.within
  obtain ⟨control, hcontrol, hkey⟩ := h.control
  have hprep : prepareObservation replayedTurn = .ok (preparedPrivate replayedTurn) := prepareObservation_turnOf
  have hcopies : ∀ copy ∈ db.spanControl, copy = (turnRow 3 archivedTurn).toControl archivedTurn.traceId.asStr :=
    fun copy => (h.copies copy).mp
  have harchived : db.archived (preparedPrivate replayedTurn).state = some control :=
    Table.find?_eq_some_of_mem (fun _ _ ha hb => ha.trans hb.symm) hcontrol
      (hkey.trans (hashOpaqueIdentifier_of_private (isPrivate_numberedId 0)).symm)
  obtain ⟨db₁, hr, ⟨r⟩⟩ := exists_rehydration (s := (preparedPrivate replayedTurn).state) h.coherent
    (isPrivate_numberedId 0) harchived
    (List.ne_nil_of_mem (Table.mem_select.mpr ⟨(h.copies _).mpr rfl, rfl⟩))
    (fun row hrow copy hcopy => by
      rw [hcopies copy hcopy]
      rcases (h.records row).mp hrow with rfl | rfl <;> exact numberedId_ne (by decide))
  have hrecords : ∀ row, row ∈ db₁.records ↔
      row = turnRow 2 firstTurn ∨ row = turnRow 3 archivedTurn ∨ row = turnRow 4 lastTurn := by
    intro row
    have hspans : (∃ copy ∈ db.spansOf (preparedPrivate replayedTurn).state.traceId.asStr, copy.toRecord = row) ↔
        row = turnRow 3 archivedTurn := by
      constructor
      · rintro ⟨copy, hcopy, rfl⟩
        rw [hcopies copy (mem_spansOf.mp hcopy).1]
        rfl
      · rintro rfl
        exact ⟨_, mem_spansOf.mpr ⟨(h.copies _).mpr rfl, rfl⟩, rfl⟩
    rw [r.mem_records, h.records, hspans, or_assoc]
    exact or_congr_right or_comm
  have hrow : db₁.recordRow (preparedPrivate replayedTurn).state.spanId.asStr = none :=
    Table.find?_eq_none.mpr fun row hrow => by
      rcases (hrecords row).mp hrow with rfl | rfl | rfl <;> exact numberedId_ne (by decide)
  have hguard : db₁.guardRow (preparedPrivate replayedTurn).state.spanId.asStr =
      some (retentionGuard (turnRow 1 expiringTurn)) := by
    have hnone : (db.copiesOf (preparedPrivate replayedTurn).state.traceId.asStr).any
        (fun copy => decide (copy.spanId = (preparedPrivate replayedTurn).state.spanId.asStr)) = false :=
      List.any_eq_false.mpr fun copy hcopy he => by
        rw [hcopies copy (Table.mem_select.mp hcopy).1] at he
        exact numberedId_ne (by decide) (of_decide_eq_true he)
    rw [r.guardRow, Db.remainingGuard, hnone, if_neg Bool.false_ne_true]
    exact Table.find?_eq_some_of_mem (fun a b ha hb => ha.trans hb.symm) h.guard rfl
  have hstream : NewStream db 4 :=
    ⟨fun row hrow => ne_of_mem_ids (hw.inputs row hrow) (by decide),
      fun row hrow => ne_of_mem_ids (hw.cursors row hrow) (by decide),
      fun row hrow => ne_of_mem_ids (hw.dispositions row hrow) (by decide)⟩
  have hledger := step_ingest_guarded hprep hstream.freshCursor harchived
    (fun copy hcopy => by
      rw [hcopies copy hcopy]
      exact numberedId_ne (by decide))
    hr hrow hguard rfl
  have hc' : Coherent ((Txn.ingest replayedTurn).step db) := h.coherent.step _
  generalize (Txn.ingest replayedTurn).step db = db' at hledger hc' ⊢
  have hwarm : ∀ row, row ∉ db₁.warmRecords := by
    intro row hrow
    rw [r.result] at hrow
    exact h.warm row (Table.mem_delete.mp hrow).1
  have hgeneration : db₁.reportGeneration = db.reportGeneration := by rw [r.result]; rfl
  obtain ⟨inputs, cursors, dispositions, dirty, rfl⟩ := hledger
  refine ⟨?_, ?_, hgeneration⟩
  · refine eq_of_strict h.coherent.visible_strict (by decide) fun x => ?_
    simp only [mem_visibleRows, h.records, h.warm, false_and, exists_false, or_false, List.mem_cons, List.not_mem_nil]
    constructor
    · rintro ⟨row, rfl | rfl, rfl⟩
      · exact Or.inl rfl
      · exact Or.inr rfl
    · rintro (rfl | rfl)
      · exact ⟨_, Or.inl rfl, rfl⟩
      · exact ⟨_, Or.inr rfl, rfl⟩
  · refine eq_of_strict hc'.visible_strict (by decide) fun x => ?_
    simp only [mem_visibleRows, hrecords, hwarm, false_and, exists_false, or_false, List.mem_cons, List.not_mem_nil]
    constructor
    · rintro ⟨row, rfl | rfl | rfl, rfl⟩
      · exact Or.inl rfl
      · exact Or.inr (Or.inl rfl)
      · exact Or.inr (Or.inr rfl)
    · rintro (rfl | rfl | rfl)
      · exact ⟨_, Or.inl rfl, rfl⟩
      · exact ⟨_, Or.inr (Or.inl rfl), rfl⟩
      · exact ⟨_, Or.inr (Or.inr rfl), rfl⟩

omit [Sha2] in
/-- The replay that ends the guarded history. -/
theorem replayedTurn_visible :
    visibleRows (@history sha256 guardedHistory) = [turnVisible 2 firstTurn, turnVisible 4 lastTurn] ∧
    visibleRows (@history sha256 (guardedHistory ++ [.ingest replayedTurn])) =
      [turnVisible 2 firstTurn, turnVisible 3 archivedTurn, turnVisible 4 lastTurn] ∧
    (@history sha256 (guardedHistory ++ [.ingest replayedTurn])).reportGeneration =
      (@history sha256 guardedHistory).reportGeneration := by
  have h := guardedArchive_history _ (@coherent_history sha256 _) (onlyGuard_expiry _ rfl)
  have hsplit : @history sha256 guardedHistory = After (@Txn.step sha256) (@history sha256 [.ingest expiringTurn, expiry])
      [.ingest firstTurn, .ingest archivedTurn, .maintain (requestAfter 1 2 3650) {} (hotCandidate 0 1000) (.ok ()),
        .ingest lastTurn] := @history_append sha256 [.ingest expiringTurn, expiry] _
  rw [← hsplit] at h
  have hlast := @history_concat sha256 guardedHistory (.ingest replayedTurn)
  rw [hlast]
  exact h.replay

omit [Sha2] in
/-- The replay changes the current records and leaves the generation. -/
theorem not_reportFreshness : ¬ @ReportFreshness sha256 (guardedHistory ++ [.ingest replayedTurn]) := by
  let : Sha2 := sha256
  intro h
  obtain ⟨hbefore, hafter, hgeneration⟩ := replayedTurn_visible
  refine absurd (h.announced guardedHistory _ [] rfl fun he => ?_) (by rw [hgeneration]; exact Nat.lt_irrefl _)
  have := congrArg List.length he
  rw [currentRecords, currentRecords, hbefore, hafter] at this
  simp at this

end AgentObservability.Store
