import AgentObservability.Store.Invariant
import AgentObservability.Store.TurnHistory

/-!
# Retention and the age of a trace

A retention pass reads the age of a trace off the table `observations`. An archived
trace loses its observations, and when it is restored its records come back
without them; its age then survives only in `hot_trace_index`. The invariant
`Aged` says what survives there: no record is younger than its index row, and no
archived copy younger than its control row.

## What is proved

* `preserved_aged`: every effect keeps `Aged`.
* `retention_respectsCutoff`: a pass deletes only records older than its cutoff,
  if no outdated trace is younger for the index.
* `not_respectsCutoff`: without the condition it may delete a younger one.
-/

namespace AgentObservability.Store

open Domain Contracts Foundation

variable {db db' : Db}

/-! ### The invariant -/

/-- A merged range was last observed no later than one of its parts. -/
theorem mergeTiming_observedAt_le (l r : Timing) :
    (mergeTiming l r).endUnixMs.getD (mergeTiming l r).startUnixMs ≤
      max (l.endUnixMs.getD l.startUnixMs) (r.endUnixMs.getD r.startUnixMs) := by
  obtain ⟨ls, le⟩ := l
  obtain ⟨rs, re⟩ := r
  cases le <;> cases re <;> simp [mergeTiming]

/-- **The index and the control tables remember the age of a trace.** -/
structure Aged (db : Db) : Prop where
  /-- No record is younger than its index row. -/
  hot : ∀ row ∈ db.records, ∀ i ∈ db.hotTraceIndex, i.traceId = row.traceId →
    WithBot.some (recordObservedAt row.record) ≤ i.latestObservedAt
  /-- No copy is younger than its control row. -/
  archived : ∀ copy ∈ db.spanControl, ∀ control ∈ db.traceControl, control.traceKey = copy.traceKey →
    recordObservedAt copy.record ≤ control.latestObservedAt

theorem aged_empty : Aged Db.empty := by
  constructor <;> simp [Db.empty]

/-- The invariant is about these tables only. -/
theorem Aged.congr (h : Aged db) (hr : db'.records = db.records) (hi : db'.hotTraceIndex = db.hotTraceIndex)
    (hs : db'.spanControl = db.spanControl) (hc : db'.traceControl = db.traceControl) : Aged db' where
  hot := by
    rw [hr, hi]
    exact h.hot
  archived := by
    rw [hs, hc]
    exact h.archived

/-- Traces may leave the hot tables. -/
theorem Aged.deleteHotTraces (h : Aged db) (ids : List String) : Aged (deleteHotTraces db ids) where
  hot row hrow i hi := h.hot row (Table.mem_delete.mp hrow).1 i (Table.mem_delete.mp hi).1
  archived := h.archived

/-- And leave guards. -/
theorem Aged.expire (h : Aged db) (guards : Table SpanGuardRow) (gone : Table TraceGuardRow) (ids : List String) :
    Aged (Store.deleteHotTraces { db with expiredSpanStates := guards, expiredTraceStates := gone } ids) :=
  (h.deleteHotTraces ids).congr rfl rfl rfl rfl

/-- A hot trace may be archived, with the age of its index row. -/
theorem Aged.archive (h : Aged db) (hdb : Coherent db) {candidate : Candidate} {tier : ArchiveTier}
    {traceControl : Table TraceControlRow} {spanControl : Table SpanControlRow} (hhot : db.IsHot candidate.identity)
    {i : HotTraceRow} (hi : i ∈ db.hotTraceIndex) (hid : i.traceId = candidate.identity)
    (hlatest : i.latestObservedAt = WithBot.some candidate.latestObservedAt)
    (ha : TakenOver db candidate candidate.identity tier traceControl spanControl) :
    Aged { Store.deleteHotTraces db [candidate.identity] with traceControl, spanControl } := by
  obtain ⟨⟨footprint, -, -, hcontrol⟩, hspans⟩ := ha
  refine ⟨(h.deleteHotTraces [candidate.identity]).hot, ?_⟩
  intro copy hcopy control hmem hkey
  rcases (Table.mem_insertAll hspans).mp hcopy with hcopy | hcopy
  · rcases (Table.mem_insert hcontrol).mp hmem with hmem | rfl
    · exact h.archived copy hcopy control hmem hkey
    · -- The trace is hot, so no copy stands under its key.
      refine absurd (hdb.copies copy hcopy).2 (hdb.hot_archived _ ?_)
      rwa [← hkey]
  · obtain ⟨row, hrow, rfl⟩ := List.mem_map.mp hcopy
    obtain ⟨hrow, htrace⟩ := mem_recordsOf.mp hrow
    rcases (Table.mem_insert hcontrol).mp hmem with hmem | rfl
    · exact absurd ⟨control, hmem, hkey⟩ (hdb.hot_archived _ hhot)
    · have hage := h.hot row hrow i hi (hid.trans htrace.symm)
      rw [hlatest] at hage
      exact WithBot.coe_le_coe.mp hage

/-- A restored trace has the age of its control row. -/
theorem Aged.rehydrate (h : Aged db) (hdb : Coherent db) {control : TraceControlRow} {T : String} {db₁ : Db}
    (r : Rehydration db control T db₁) : Aged db₁ where
  hot row hrow i hi hid := by
    have hmem := r.mem_records.mp hrow
    rw [r.result] at hi
    rcases (Table.mem_insert r.insert_index).mp hi with hi | rfl
    · rcases hmem with hrow | ⟨copy, hcopy, rfl⟩
      · exact h.hot row hrow i hi hid
      · -- The index had no row of the trace while it was archived.
        obtain ⟨hcopy, hk⟩ := mem_spansOf.mp hcopy
        refine absurd ⟨control, r.mem, r.key⟩ (hdb.hot_archived T ((hdb.index T).mp ⟨i, hi, ?_⟩))
        exact hid.trans ((hdb.copies copy hcopy).1.symm.trans hk)
    · rcases hmem with hrow | ⟨copy, hcopy, rfl⟩
      · exact absurd ⟨control, r.mem, r.key⟩ (hdb.hot_archived T ⟨row, hrow, hid.symm⟩)
      · obtain ⟨hcopy, hk⟩ := mem_spansOf.mp hcopy
        exact WithBot.coe_le_coe.mpr (h.archived copy hcopy control r.mem (r.key.trans hk.symm))
  archived copy hcopy c hc := by
    rw [r.result] at hcopy hc
    exact h.archived copy (Table.mem_delete.mp hcopy).1 c (Table.mem_delete.mp hc).1

variable [Sha2]

/-- A committed observation may only make its trace younger. -/
theorem Aged.commit (h : Aged db) (hdb : Coherent db) {o : SourceObservation} {p : PreparedObservation}
    (hp : Prepared o p) (c : Commit db o p) : Aged c.result where
  hot := by
    have hm : ∀ row ∈ db.records, row.Mirrors := fun row hrow => hdb.mirrors row (Db.mem_knownRows.mpr (Or.inl hrow))
    obtain ⟨stored, hstored⟩ := c.exists_stored hm hp
    obtain ⟨-, hindex⟩ := c.mem_index hm hdb.backfill hdb.complete
    -- The new index row is no older than the old one and than the observation.
    have hold : ∀ i ∈ db.hotTraceIndex, i.traceId = p.state.traceId.asStr →
        max i.latestObservedAt (WithBot.some (recordObservedAt p.record)) = c.indexRow.latestObservedAt := by
      intro i hi hid
      have hfind : db.hotTraceIndex.find? (fun row => row.traceId = p.state.traceId.asStr) = some i :=
        Table.find?_eq_some_of_mem (fun a b ha hb => ha.trans hb.symm) hi hid
      rw [Commit.indexRow, Table.upserted, hfind]
      rfl
    have hnew : WithBot.some (recordObservedAt p.record) ≤ c.indexRow.latestObservedAt := by
      cases hfind : db.hotTraceIndex.find? fun row => row.traceId = p.state.traceId.asStr with
      | none =>
        rw [Commit.indexRow, Table.upserted, hfind]
        exact le_rfl
      | some i =>
        obtain ⟨hi, hid⟩ := Table.mem_of_find? hfind
        rw [← hold i hi hid]
        exact le_max_right _ _
    have hkept : ∀ row ∈ db.records, row.traceId = p.state.traceId.asStr →
        WithBot.some (recordObservedAt row.record) ≤ c.indexRow.latestObservedAt := by
      intro row hrow htrace
      obtain ⟨i, hi, hid⟩ := (hdb.index _).mpr ⟨row, hrow, rfl⟩
      rw [← hold i hi (hid.trans htrace)]
      exact (h.hot row hrow i hi hid).trans (le_max_left _ _)
    intro row hrow i hi hid
    rcases (hindex i).mp hi with ⟨hi, hne⟩ | rfl
    · rcases hstored.mem.mp hrow with ⟨hrow, -⟩ | rfl
      · exact h.hot row hrow i hi hid
      · exact absurd (hid.trans hstored.traceId) hne
    · rcases hstored.mem.mp hrow with ⟨hrow, -⟩ | rfl
      · exact hkept row hrow (hid.symm.trans c.indexRow_traceId)
      · have hid' := c.reduction.identity hm
        rw [hstored.record, c.reduction.recordObservedAt]
        cases hrow : db.recordRow p.state.spanId.asStr with
        | none =>
          rw [hid'.first hrow, ← hp.recordObservedAt]
          exact hnew
        | some old =>
          obtain ⟨hmem, hspan⟩ := recordOf_mem hrow
          have hmerge := hid'.merged old hrow
          have htrace : old.traceId = p.state.traceId.asStr :=
            (hm old hmem).traceId.trans (congrArg Identifier.asStr hmerge.traceId)
          have hle := mergeTiming_observedAt_le old.state.timing p.state.timing
          rw [← (hm old hmem).observedAt, ← hp.recordObservedAt] at hle
          rw [hmerge.eq]
          refine (WithBot.coe_le_coe.mpr hle).trans ?_
          rw [WithBot.coe_max]
          exact max_le (hkept old hmem htrace) hnew
  archived := h.archived

/-- A move keeps the age of its trace. -/
theorem Aged.moved (h : Aged db) (hdb : Coherent db) {candidate : Candidate} {now : ℕ} {transition : Transition}
    (hread : ReadBack db candidate) (hmv : Moved db candidate now transition db') : Aged db' := by
  have hrow : candidate.tier = .hot → db.IsHot candidate.identity ∧
      ∃ i ∈ db.hotTraceIndex, i.traceId = candidate.identity ∧ i.latestObservedAt = WithBot.some candidate.latestObservedAt := by
    intro ht
    have hin := hread.inItsTier
    have hcurrent := hread.latest
    simp only [InItsTier, ht] at hin
    simp only [currentRow, ht] at hcurrent
    obtain ⟨i, hi, he⟩ := Option.map_eq_some_iff.mp hcurrent
    obtain ⟨hmem, hid, -⟩ := Table.mem_of_find? hi
    exact ⟨hin, i, hmem, hid, (Prod.mk.inj he).1⟩
  cases hmv with
  | hotToWarm ht ha _ _ =>
    obtain ⟨hhot, i, hi, hid, hlatest⟩ := hrow ht
    rw [hdb.hash_of_isHot hhot] at ha
    exact (h.archive hdb hhot hi hid hlatest ha).congr rfl rfl rfl rfl
  | hotToCold ht ha _ =>
    obtain ⟨hhot, i, hi, hid, hlatest⟩ := hrow ht
    rw [hdb.hash_of_isHot hhot] at ha
    exact (h.archive hdb hhot hi hid hlatest ha).congr rfl rfl rfl rfl
  | warmToCold ht _ =>
    refine ⟨h.hot, fun copy hcopy control hcontrol hk => ?_⟩
    simp only [Table.mem_modify] at hcontrol
    obtain ⟨control, hmem, rfl⟩ := hcontrol
    have hage := h.archived copy hcopy control hmem
    by_cases hc : control.traceKey = candidate.identity ∧ control.tier = .warm
    · rw [if_pos hc] at hk ⊢
      exact hage hk
    · rw [if_neg hc] at hk ⊢
      exact hage hk
  | purgeHot ht _ => exact h.expire _ _ [candidate.identity]
  | purgeWarm ht | purgeCold ht =>
    exact ⟨h.hot, fun copy hcopy control hcontrol =>
      h.archived copy (Table.mem_delete.mp hcopy).1 control (Table.mem_delete.mp hcontrol).1⟩

/-- **Every effect keeps the ages.** -/
theorem preserved_aged : Preserved (fun _ _ => True) (fun _ _ => True) Aged where
  unquiet _ _ := trivial
  quiet := by
    rintro db db' h ⟨_, _, _, _, _, _, _, _, _, rfl⟩
    exact h.congr rfl rfl rfl rfl
  rehydrate hdb h _ _ _ _ r := h.rehydrate hdb r
  commit _ _ _ _ _ _ hdb h hp _ _ c := h.commit hdb hp c
  move hdb h hread hmv _ := h.moved hdb hread hmv
  expire _ h _ _ := h.expire _ _ _

theorem aged_history (ts : List Txn) : Aged (history ts) := preserved_aged.history_true aged_empty ts

/-! ### Passes -/

/-- The pass deletes only records that were last observed before its cutoff. -/
def RespectsCutoff (db : Db) (call : RetentionCall) (archive : Except StoreError String)
    (retired : Except StoreError Unit) : Prop :=
  ∀ outcome db', applyRetention db call archive retired = .ok (outcome, db') →
    ∀ row ∈ db.records, row ∉ db'.records → recordObservedAt row.record < call.cutoffUnixMs

omit [Sha2] in
/-- A trace that the observations say to be outdated is older than the cutoff for the index too. -/
def IndexOutdated (db : Db) (cutoffUnixMs : ℕ) : Prop :=
  ∀ row ∈ db.hotTraceIndex, Outdated db cutoffUnixMs row.traceId → row.latestObservedAt < WithBot.some cutoffUnixMs

theorem Aged.respectsCutoff (h : Aged db) (hdb : Coherent db) {call : RetentionCall}
    {archive : Except StoreError String} {retired : Except StoreError Unit} (hage : IndexOutdated db call.cutoffUnixMs) :
    RespectsCutoff db call archive retired := by
  intro outcome db' happly row hrow hgone
  rcases applyRetention_ok happly with rfl | ⟨selection, -, ⟨e⟩⟩
  · exact absurd hrow hgone
  · have hselected : row.traceId ∈ selection.traceIds := by
      by_contra hn
      rw [e.result] at hgone
      exact hgone (Table.mem_delete.mpr ⟨hrow, hn⟩)
    obtain ⟨i, hi, hid⟩ := (hdb.index _).mpr ⟨row, hrow, rfl⟩
    have hlatest := hage i hi (hid ▸ selectRetention_ok e.select hselected)
    exact WithBot.coe_lt_coe.mp ((h.hot row hrow i hi hid).trans_lt hlatest)

/-- **A retention pass respects its cutoff, after any history, if no outdated trace is younger for the index.** -/
theorem retention_respectsCutoff (ts : List Txn) (call : RetentionCall) (archive : Except StoreError String)
    (retired : Except StoreError Unit) (hage : IndexOutdated (history ts) call.cutoffUnixMs) :
    RespectsCutoff (history ts) call archive retired :=
  (aged_history ts).respectsCutoff (coherent_history ts) hage

/-! ### A trace that was restored -/

/-- A turn that goes to the archive. -/
def youngTurn : SourceObservation := turnOf 0 0 0 none 100

/-- An older turn of its trace, which brings it back. -/
def olderTurn : SourceObservation := turnOf 1 0 1 none 10

/-- The history that leaves both turns in the hot tables, and the observation of the older one. -/
def restoredHistory : List Txn :=
  [.ingest youngTurn, .maintain (requestAfter 1 2 3650) {} (hotCandidate 0 100) (.ok ()), .ingest olderTurn]

/-- A retention pass over a store of the trace. -/
def restoredCall (db : Db) (cutoffUnixMs : ℕ) : RetentionCall :=
  retentionCall cutoffUnixMs (@singlePlanId sha256 db cutoffUnixMs (numberedId 0).asStr)

omit [Sha2] in
/-- Before the turn is archived, its trace is as old for the index as for the observations. -/
theorem respectsCutoff_turn : @RespectsCutoff sha256 (@history sha256 [.ingest youngTurn])
    (restoredCall (@history sha256 [.ingest youngTurn]) 5000) (.ok "") (.ok ()) := by
  let : Sha2 := sha256
  refine retention_respectsCutoff [.ingest youngTurn] _ _ _ fun row hrow _ => ?_
  have h : TurnStored Db.empty youngTurn (history [.ingest youngTurn]) := by
    rw [history_singleton]
    exact step_turn coherent_empty (by simp [Db.empty, Db.IsArchived])
      (within_empty.turnFits coherent_empty (Set.notMem_empty _) (Set.notMem_empty _) (Set.notMem_empty _)
        (Set.notMem_empty _) nofun nofun (by simp [Db.empty]))
  rcases (h.index (fun row hrow => absurd hrow (Table.not_mem_empty row)) row).mp hrow with hrow | rfl
  · exact absurd hrow (Table.not_mem_empty row)
  · exact WithBot.coe_lt_coe.mpr (by decide)

omit [Sha2] in
/-- The history leaves the records of both turns, and the observation of the older one. -/
theorem oneRestored_history : OneRestored (@history sha256 restoredHistory) youngTurn olderTurn := by
  have harchived : OneArchived (@history sha256 [.ingest (turnOf 0 0 0 none 100),
      .maintain (requestAfter 1 2 3650) {} (hotCandidate 0 100) (.ok ())]) .cold 0 0 0 100 :=
    oneArchived_history (by decide +kernel)
  have hsplit : @history sha256 restoredHistory = @Txn.step sha256 (@history sha256 [.ingest youngTurn,
      .maintain (requestAfter 1 2 3650) {} (hotCandidate 0 100) (.ok ())]) (.ingest olderTurn) :=
    @history_concat sha256 [.ingest youngTurn, .maintain (requestAfter 1 2 3650) {} (hotCandidate 0 100) (.ok ())]
      (.ingest olderTurn)
  rw [hsplit]
  exact harchived.restore (by decide) (by decide)

omit [Sha2] in
/-- A pass over the restored trace deletes the record of the young turn. -/
theorem OneRestored.deletes_young {db : Db} (h : OneRestored db youngTurn olderTurn) :
    ¬ @RespectsCutoff sha256 db (restoredCall db 50) (.ok "") (.ok ()) := by
  let : Sha2 := sha256
  obtain ⟨n, hrecords⟩ := h.records
  obtain ⟨db₁, hobs⟩ := h.observations
  have htraces : ∀ row ∈ db.records, row.traceId = (numberedId 0).asStr := by
    intro row hrow
    rcases (hrecords row).mp hrow with rfl | rfl <;> rfl
  have hyoung : turnRow 1 youngTurn ∈ db.recordsOf (numberedId 0).asStr :=
    mem_recordsOf.mpr ⟨(hrecords _).mpr (Or.inl rfl), rfl⟩
  have hsub : db.recordsOf (numberedId 0).asStr ⊆ [turnRow 1 youngTurn, turnRow n olderTurn] := fun row hrow => by
    simpa using (hrecords row).mp (mem_recordsOf.mp hrow).1
  have hlength : (db.recordsOf (numberedId 0).asStr).length ≤ 1000 := by
    have hnodup : (db.recordsOf (numberedId 0).asStr).Nodup :=
      sortByKey_perm.nodup_iff.mpr ((db.records.distinct.imp fun hab he => hab (Or.inl (by rw [he]))).filter _)
    exact (hnodup.subperm hsub).length_le.trans (Nat.le_of_ble_eq_true rfl)
  have hexpirable : Expirable db 50 ⟨100000, 256 * 1024 * 1024⟩ (numberedId 0).asStr :=
    expirable_of_turns (by decide) ⟨_, (hobs _).mpr rfl, rfl⟩
      (fun row hrow => by
        rw [(hobs row).mp hrow]
        exact iff_of_true rfl (Nat.lt_of_lt_of_eq (by decide : 10 < 50) rfl))
      (fun row hrow _ => h.topology row hrow) (List.ne_nil_of_mem hyoung) hlength
      (fun row hrow => by
        rcases (hrecords row).mp (mem_recordsOf.mp hrow).1 with rfl | rfl <;> exact ⟨_, _, _, _, rfl⟩)
  have hgone : turnRow 1 youngTurn ∉ ((Txn.retention (restoredCall db 50) (.ok "") (.ok ())).step db).records := by
    obtain ⟨receipts, hstep⟩ := @step_retention db sha256 (restoredCall db 50) _ "" hexpirable rfl h.receipts
      (by rw [h.generation]; decide) (lt_of_le_of_lt (Nat.succ_le_succ h.epoch) (by decide))
    rw [hstep]
    exact fun hrow => (Table.mem_delete.mp hrow).2 (List.mem_singleton.mpr rfl)
  have hmem : turnRow 1 youngTurn ∈ db.records := (mem_recordsOf.mp hyoung).1
  intro hrespects
  rcases Txn.step_cases db (.retention (restoredCall db 50) (.ok "") (.ok ())) with heq | hcommit
  · rw [heq] at hgone
    exact hgone hmem
  · obtain ⟨⟨outcome, db'⟩, happly, hdb'⟩ := map_eq_ok.mp hcommit
    have hlt := hrespects outcome db' happly (turnRow 1 youngTurn) hmem (by rwa [← hdb'] at hgone)
    exact absurd hlt (by decide : ¬ 100 < 50)

omit [Sha2] in
/-- **After the restoration a pass with cutoff 50 deletes a record observed at 100.** -/
theorem not_respectsCutoff : ¬ @RespectsCutoff sha256 (@history sha256 restoredHistory)
    (restoredCall (@history sha256 restoredHistory) 50) (.ok "") (.ok ()) :=
  oneRestored_history.deletes_young

end AgentObservability.Store
