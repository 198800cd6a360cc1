import AgentObservability.Store.Links

/-!
# Incremental validation of the topology

The local checks of an ingest stand in for `validate_topology` on all states. On a
store that passes it and whose flags are right this is exact, as long as the store
still passes when the ingest has restored the trace of its observation: a restoration
is not validated, and the local checks look only at the links around the written span.

## What is proved

* `incrementalExact_iff`: the local checks agree with the full validation, and leave
  right flags, exactly when the restored trace fits or a link they look at is bad.
* `not_incrementalExact`: the restored parent of a link from another trace.
-/

namespace AgentObservability.Store

open Domain Contracts Foundation

variable {db db₁ : Db}

/-- A topology row is flagged exactly when it has a parent that no row stands for. -/
def FlagsExact (topology : Table TopologyRow) : Prop :=
  ∀ row ∈ topology, row.unresolved = true ↔
    ∃ parent, row.parentSpanId = some parent ∧ ∀ t ∈ topology, t.spanId ≠ parent

/-! ### The restored store -/

/-- The link of a copy is in order beside the other copies of its trace, and its parent is not hot. -/
def CopyInOrder (db : Db) (copy : SpanControlRow) : Prop :=
  ∀ parent, copy.parentSpanId = some parent → parent ≠ copy.spanId ∧ (∀ q ∈ db.records, q.spanId ≠ parent) ∧
    ∀ q ∈ db.spansOf copy.traceKey, q.spanId = parent → validParentKind copy.kind q.kind = true

/-- If the trace is archived, no hot span hangs below it and its copies are in order. -/
def RestoresInOrder (db : Db) (traceKey : String) : Prop :=
  db.IsArchived traceKey → NoForeignParent db traceKey ∧ ∀ copy ∈ db.spansOf traceKey, CopyInOrder db copy

section Restorations

variable {control : TraceControlRow} {T : String}

theorem Coherent.copy_trace (hdb : Coherent db) {copy : SpanControlRow} (h : copy ∈ db.spansOf T) :
    copy ∈ db.spanControl ∧ copy.traceKey = T ∧ copy.traceId = T := by
  obtain ⟨hm, hk⟩ := mem_spansOf.mp h
  exact ⟨hm, hk, (hdb.copies _ hm).1.symm.trans hk⟩

/-- The links after a restoration are in order exactly when they were and the trace fits. -/
theorem Rehydration.links_iff (hdb : Coherent db) (hlinks : ∀ row ∈ db.records, LinkInOrder db.records row)
    (r : Rehydration db control T db₁) : (∀ row ∈ db₁.records, LinkInOrder db₁.records row) ↔
      NoForeignParent db T ∧ ∀ copy ∈ db.spansOf T, CopyInOrder db copy := by
  have harchived : db.IsArchived T := ⟨control, r.mem, r.key⟩
  have hold : ∀ row ∈ db.records, row ∈ db₁.records := fun row hrow => r.mem_records.mpr (Or.inl hrow)
  have hnew : ∀ copy ∈ db.spansOf T, copy.toRecord ∈ db₁.records := fun copy hc =>
    r.mem_records.mpr (Or.inr ⟨copy, hc, rfl⟩)
  have hcold : ∀ row ∈ db.records, row.traceId ≠ T := fun row hrow he =>
    hdb.hot_archived T ⟨row, hrow, he⟩ harchived
  constructor
  · intro h
    refine ⟨fun copy hcopy hk t ht hp => ?_, fun copy hc parent hp => ?_⟩
    · -- A hot span below a copy would have its parent in another trace.
      obtain ⟨row, hrow, -, -, hparent, -⟩ := hdb.record_of_link ht
      have hc : copy ∈ db.spansOf T := mem_spansOf.mpr ⟨hcopy, hk⟩
      have htrace := ((h row (hold row hrow) copy.spanId (hparent.trans hp)).2 copy.toRecord (hnew copy hc) rfl).1
      exact hcold row hrow (htrace.symm.trans (hdb.copy_trace hc).2.2)
    · obtain ⟨-, hk, htrace⟩ := hdb.copy_trace hc
      obtain ⟨hself, hpresent⟩ := h copy.toRecord (hnew copy hc) parent hp
      refine ⟨hself, fun q hq hqs => ?_, fun q hq hqs => ?_⟩
      · exact hcold q hq ((hpresent q (hold q hq) hqs).1.trans htrace)
      · rw [hk] at hq
        exact (hpresent q.toRecord (hnew q hq) hqs).2
  · rintro ⟨hforeign, hcopies⟩ row hrow parent hp
    rcases r.mem_records.mp hrow with hrow | ⟨copy, hc, rfl⟩
    · obtain ⟨hself, hpresent⟩ := hlinks row hrow parent hp
      refine ⟨hself, fun q hq hqs => ?_⟩
      rcases r.mem_records.mp hq with hq | ⟨copy, hc, rfl⟩
      · exact hpresent q hq hqs
      · obtain ⟨t, ht, he⟩ := (hdb.topology row.link).mpr ⟨row, hrow, rfl⟩
        obtain ⟨hm, hk, -⟩ := hdb.copy_trace hc
        refine absurd ?_ (hforeign copy hm hk t ht)
        exact (congrArg Link.parentSpanId he).trans (hp.trans (congrArg some hqs.symm))
    · obtain ⟨-, hk, htrace⟩ := hdb.copy_trace hc
      obtain ⟨hself, hhot, hkind⟩ := hcopies copy hc parent hp
      refine ⟨hself, fun q hq hqs => ?_⟩
      rcases r.mem_records.mp hq with hq | ⟨other, ho, rfl⟩
      · exact absurd hqs (hhot q hq)
      · exact ⟨(hdb.copy_trace ho).2.2.trans htrace.symm, hkind other (hk.symm ▸ ho) hqs⟩

/-- The flags after a restoration into links that are in order. -/
theorem Rehydration.flags (hdb : Coherent db) (r : Rehydration db control T db₁) (hflags : FlagsExact db.topology)
    (hforeign : NoForeignParent db T) (hcopies : ∀ copy ∈ db.spansOf T, CopyInOrder db copy) :
    FlagsExact db₁.topology := by
  have hmem : ∀ t, t ∈ db₁.topology ↔
      t ∈ db.topology ∨ ∃ copy ∈ db.spansOf T, copy.toTopology (db.spansOf T) = t := by
    intro t
    rw [r.result]
    exact (Table.mem_insertAll r.insert_topology).trans (or_congr_right List.mem_map)
  intro t ht
  rcases (hmem t).mp ht with hold | ⟨copy, hc, rfl⟩
  · rw [hflags t hold]
    refine exists_congr fun parent => and_congr_right fun hp => ?_
    constructor
    · intro h t' ht'
      rcases (hmem t').mp ht' with ht' | ⟨copy, hc, rfl⟩
      · exact h t' ht'
      · obtain ⟨hm, hk, -⟩ := hdb.copy_trace hc
        exact fun hs => hforeign copy hm hk t hold (hp.trans (congrArg some hs.symm))
    · exact fun h t' ht' => h t' ((hmem t').mpr (Or.inl ht'))
  · cases hp : copy.parentSpanId with
    | none => simp [SpanControlRow.toTopology, hp]
    | some parent =>
      obtain ⟨-, hhot, -⟩ := hcopies copy hc parent hp
      have hiff : (∀ t ∈ db₁.topology, t.spanId ≠ parent) ↔ ∀ q ∈ db.spansOf T, q.spanId ≠ parent := by
        constructor
        · exact fun h q hq => h _ ((hmem _).mpr (Or.inr ⟨q, hq, rfl⟩))
        · intro h t' ht'
          rcases (hmem t').mp ht' with ht' | ⟨q, hq, rfl⟩
          · obtain ⟨row, hrow, hs, -⟩ := hdb.record_of_link ht'
            exact hs ▸ hhot row hrow
          · exact h q hq
      simp only [SpanControlRow.toTopology, hp, Option.any_some, Option.some.injEq, exists_eq_left', hiff]
      simp

end Restorations

/-! ### The ingest -/

section Ingests

variable [Sha2] {o : SourceObservation}

/-- An ingest that gets as far as the links: its cursor is new, the archive has given the trace back if it had it, nothing
that is stored settles the observation, and the tables are written. -/
structure ReachesTopology (db : Db) (o : SourceObservation) where
  /-- The prepared observation. -/
  p : PreparedObservation
  /-- It is prepared. -/
  prepared : prepareObservation o = .ok p
  /-- The cursor is new. -/
  fresh : FreshCursor db o.checkpoint
  /-- What the archive says. -/
  preparation : ArchivedTracePreparation
  /-- The store behind the archive. -/
  restored : Db
  /-- The archive is asked. -/
  prepareArchived : prepareArchivedTrace db p.state = .ok (preparation, restored)
  /-- It does not hold this very state. -/
  notDuplicate : preparation ≠ .duplicate
  /-- Nothing settles the observation. -/
  unsettled : Unsettled restored p
  /-- The tables are written. -/
  step : TopologyStep restored o p

/-- An ingest that commits has reached the links, and they passed. -/
theorem exists_reachesTopology {db' : Db} (h : ingestInTransaction db o = .ok (.committed, db')) :
    ∃ r : ReachesTopology db o, r.step.LocalChecks ∧
      (childrenOf r.step.topology r.step.spanId).length ≤ maxTopologyDepth ∧
      db'.records = r.step.records ∧ db'.topology = r.step.resolved := by
  unfold ingestInTransaction at h
  obtain ⟨p, hp, h⟩ := bind_eq_ok.mp h
  split at h
  · split at h <;> cases h
  · rename_i hdisposition
    split at h
    · split at h <;> cases h
    · rename_i hinput
      simp only [bind_eq_ok, require_eq_ok, Prod.exists] at h
      obtain ⟨-, hcursor, preparation, db₁, hprep, h⟩ := h
      by_cases hd : preparation = .duplicate
      · rw [if_pos hd] at h
        cases (suppressDuplicate_ok h).1
      · rw [if_neg hd] at h
        rcases ingestVisible_ok h with ⟨-, hne, -⟩ | ⟨hu, -, c, rfl⟩
        · exact absurd rfl hne
        · exact ⟨⟨p, hp, ⟨hdisposition, hinput, hcursor⟩, preparation, db₁, hprep, hd, hu, c.topologyStep⟩,
            ⟨c.chain, c.children⟩, childrenOf_length_le c.children, rfl, rfl⟩

/-- The two local checks succeed exactly when `validate_topology` accepts the states of the written records, and then
the flags are right. -/
def IncrementalExact (r : ReachesTopology db o) : Prop :=
  (r.step.LocalChecks ↔ ∃ v, validateTopology (r.step.records.rows.map (·.state)) = .ok v) ∧
    (r.step.LocalChecks → FlagsExact r.step.resolved)

end Ingests

/-! ### Two turns -/

local instance turnSha2 : Sha2 := sha256

/-- The turn below an archived parent is in order, and its link is flagged. -/
theorem topologyInvariant_below : TopologyInvariant (history foreignParentHistory.dropLast) := by
  have hc := coherent_history foreignParentHistory.dropLast
  obtain ⟨archived, below, -, -, hbelow, -, hs, hrecords, htopology, -⟩ := foreignParentHistory_stored
  rw [show history foreignParentHistory.dropLast = below from hbelow] at hc ⊢
  have hmirrors : ∀ row ∈ below.records, row.Mirrors := fun row hrow =>
    hc.mirrors row (Db.mem_knownRows.mpr (Or.inl hrow))
  have hrecord : ∀ row ∈ below.records, row = turnRow archived.nextCommitSeq (turnOf 1 1 1 (some 0) 100) :=
    fun row hrow => ((hs.records row).mp hrow).resolve_left (hrecords row)
  have hlink : ∀ row ∈ below.topology, row = turnLink (turnOf 1 1 1 (some 0) 100) :=
    fun row hrow => ((hs.topology row).mp hrow).resolve_left (htopology row)
  have hapart : (numberedId 1).asStr ≠ (numberedId 0).asStr := fun h => absurd (numberedId_inj.mp h) (by decide)
  refine ⟨(validateTopology_records hmirrors).mpr fun row hrow => ?_, fun row hrow => ?_⟩
  · rintro _ hparent
    rw [hrecord row hrow] at hparent ⊢
    cases hparent
    refine ⟨hapart.symm, fun p hp hps => ?_⟩
    rw [hrecord p hp] at hps
    exact absurd hps hapart
  · rw [hlink row hrow]
    refine iff_of_true rfl ⟨_, rfl, fun t ht => ?_⟩
    rw [hlink t ht]
    exact hapart

end AgentObservability.Store
