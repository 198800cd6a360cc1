import AgentObservability.Store.Invariant
import AgentObservability.Store.TopologyStep
import AgentObservability.Store.TurnHistory

/-!
# The links of the spans

Ingest validates the chain above the span it writes and the chains of its direct
children, and it flags a link whose parent is absent. The invariant `Linked` says
what this comes to: every link of `records` whose parent is present stays in the
trace and has permitted kinds, the flags of `topology` say which parents are
absent, and the flag of an index row whether its trace has such a link. An
archived trace has no absent parent.

A restoration validates nothing. It keeps the invariant when no hot span hangs
below a span of the restored trace.

## What is proved

* `topologyInvariant_history`: after every history that restores no foreign parent
  `validate_topology` accepts the states of `records`, and the flags are right.
-/

namespace AgentObservability.Store

open Domain Contracts Foundation

variable {db db' : Db}

/-! ### The invariant -/

/-- **The links are in order and the flags are right.** -/
structure Linked (db : Db) : Prop where
  /-- Every link of `records` is in order. -/
  links : ∀ row ∈ db.records, LinkInOrder db.records row
  /-- A link is unresolved exactly when its parent is absent. -/
  flags : ∀ row ∈ db.topology, row.unresolved = true ↔
    ∃ parent, row.parentSpanId = some parent ∧ ¬ TopologyContains db parent
  /-- The index says which traces have such a link. -/
  index : ∀ i ∈ db.hotTraceIndex, i.unresolved = true ↔ HasUnresolved db.topology i.traceId
  /-- The parent of a copy is a copy of the trace. -/
  copies : ∀ copy ∈ db.spanControl, ∀ parent, copy.parentSpanId = some parent → parent ≠ copy.spanId ∧
    ∃ p ∈ db.spanControl, p.spanId = parent ∧ p.traceKey = copy.traceKey ∧ validParentKind copy.kind p.kind = true

theorem linked_empty : Linked Db.empty := by
  constructor <;> simp [Db.empty]

/-- The invariant is about these tables only. -/
theorem Linked.congr (h : Linked db) (hr : db'.records = db.records) (ht : db'.topology = db.topology)
    (hi : db'.hotTraceIndex = db.hotTraceIndex) (hs : db'.spanControl = db.spanControl) : Linked db' where
  links := by rw [hr]; exact h.links
  flags := by
    have hcontains : ∀ parent, TopologyContains db' parent ↔ TopologyContains db parent := fun parent => by
      rw [TopologyContains, TopologyContains, ht]
    simp only [ht, hcontains]
    exact h.flags
  index := by rw [hi, ht]; exact h.index
  copies := by rw [hs]; exact h.copies

theorem Coherent.contains_iff (h : Coherent db) {span : String} :
    TopologyContains db span ↔ ∃ row ∈ db.records, row.spanId = span := by
  constructor
  · rintro ⟨t, ht, rfl⟩
    obtain ⟨r, hr, hl⟩ := (h.topology t.link).mp ⟨t, ht, rfl⟩
    exact ⟨r, hr, congrArg Link.spanId hl⟩
  · rintro ⟨r, hr, rfl⟩
    obtain ⟨t, ht, hl⟩ := (h.topology r.link).mpr ⟨r, hr, rfl⟩
    exact ⟨t, ht, congrArg Link.spanId hl⟩

/-- The record of a link. -/
theorem Coherent.record_of_link (h : Coherent db) {t : TopologyRow} (ht : t ∈ db.topology) :
    ∃ row ∈ db.records, row.spanId = t.spanId ∧ row.traceId = t.traceId ∧ row.parentSpanId = t.parentSpanId ∧
      row.kind = t.kind := by
  obtain ⟨r, hr, hl⟩ := (h.topology t.link).mp ⟨t, ht, rfl⟩
  exact ⟨r, hr, congrArg Link.spanId hl, congrArg Link.traceId hl, congrArg Link.parentSpanId hl,
    congrArg Link.kind hl⟩

/-- Traces may leave the hot tables: no link that stays has its parent among them. -/
theorem Linked.deleteHotTraces (h : Linked db) (hdb : Coherent db) (ids : List String) :
    Linked (deleteHotTraces db ids) where
  links row hrow parent hp := by
    obtain ⟨hself, hpresent⟩ := h.links row (Table.mem_delete.mp hrow).1 parent hp
    exact ⟨hself, fun p hpm => hpresent p (Table.mem_delete.mp hpm).1⟩
  flags row hrow := by
    obtain ⟨hrow, hid⟩ := Table.mem_delete.mp hrow
    rw [h.flags row hrow]
    refine exists_congr fun parent => and_congr_right fun hp => not_congr ?_
    constructor
    · rintro ⟨t, ht, rfl⟩
      -- The parent is in the trace of the link, and so it stays.
      obtain ⟨r, hr, -, htrace, hparent, -⟩ := hdb.record_of_link hrow
      obtain ⟨q, hq, hqs, hqt, -, -⟩ := hdb.record_of_link ht
      have hsame := ((h.links r hr t.spanId (hparent.trans hp)).2 q hq hqs).1
      refine ⟨t, Table.mem_delete.mpr ⟨ht, ?_⟩, rfl⟩
      rwa [← hqt, hsame, htrace]
    · rintro ⟨t, ht, hs⟩
      exact ⟨t, (Table.mem_delete.mp ht).1, hs⟩
  index i hi := by
    obtain ⟨hi, hid⟩ := Table.mem_delete.mp hi
    rw [h.index i hi]
    constructor
    · rintro ⟨t, ht, htrace, hu⟩
      exact ⟨t, Table.mem_delete.mpr ⟨ht, by rwa [htrace]⟩, htrace, hu⟩
    · rintro ⟨t, ht, htrace, hu⟩
      exact ⟨t, (Table.mem_delete.mp ht).1, htrace, hu⟩
  copies := h.copies

/-- The parents of a resolved trace are records of the trace. -/
theorem Linked.parent_of_resolved (h : Linked db) (hdb : Coherent db) {i : HotTraceRow} (hi : i ∈ db.hotTraceIndex)
    (hresolved : i.unresolved = false) {row : RecordRow} (hrow : row ∈ db.records) (ht : row.traceId = i.traceId)
    {parent : String} (hp : row.parentSpanId = some parent) : parent ≠ row.spanId ∧
      ∃ p ∈ db.records, p.spanId = parent ∧ p.traceId = row.traceId ∧ validParentKind row.kind p.kind = true := by
  obtain ⟨hself, hpresent⟩ := h.links row hrow parent hp
  refine ⟨hself, ?_⟩
  obtain ⟨t, htm, hl⟩ := (hdb.topology row.link).mpr ⟨row, hrow, rfl⟩
  have hcontains : TopologyContains db parent := by
    by_contra hn
    have hu := (h.flags t htm).mpr ⟨parent, (congrArg Link.parentSpanId hl).trans hp, hn⟩
    have := (h.index i hi).mpr ⟨t, htm, (congrArg Link.traceId hl).trans ht, hu⟩
    rw [hresolved] at this
    cases this
  obtain ⟨p, hpm, hps⟩ := hdb.contains_iff.mp hcontains
  exact ⟨p, hpm, hps, hpresent p hpm hps⟩

/-- A resolved trace may be archived. -/
theorem Linked.archive (h : Linked db) (hdb : Coherent db) {candidate : Candidate} {tier : ArchiveTier}
    {traceControl : Table TraceControlRow} {spanControl : Table SpanControlRow} {i : HotTraceRow}
    (hi : i ∈ db.hotTraceIndex) (hid : i.traceId = candidate.identity) (hresolved : i.unresolved = false)
    (ha : TakenOver db candidate candidate.identity tier traceControl spanControl) :
    Linked { Store.deleteHotTraces db [candidate.identity] with spanControl } := by
  have hdelete := h.deleteHotTraces hdb [candidate.identity]
  refine ⟨hdelete.links, hdelete.flags, hdelete.index, fun copy hcopy parent hp => ?_⟩
  have hmem : ∀ c, c ∈ spanControl ↔ _ := fun c => Table.mem_insertAll ha.spans
  rcases (hmem copy).mp hcopy with hold | hnew
  · obtain ⟨hself, p, hpm, hps⟩ := h.copies copy hold parent hp
    exact ⟨hself, p, (hmem p).mpr (Or.inl hpm), hps⟩
  · obtain ⟨row, hrow, rfl⟩ := List.mem_map.mp hnew
    obtain ⟨hrow, htrace⟩ := mem_recordsOf.mp hrow
    obtain ⟨hself, p, hpm, hps, hpt, hkind⟩ := h.parent_of_resolved hdb hi hresolved hrow (htrace.trans hid.symm) hp
    refine ⟨hself, p.toControl candidate.identity, (hmem _).mpr (Or.inr ?_), hps, rfl, hkind⟩
    exact List.mem_map_of_mem (mem_recordsOf.mpr ⟨hpm, hpt.trans htrace⟩)

/-- No hot span hangs below a span of the archived trace. -/
def NoForeignParent (db : Db) (traceKey : String) : Prop :=
  ∀ copy ∈ db.spanControl, copy.traceKey = traceKey → ∀ row ∈ db.topology, row.parentSpanId ≠ some copy.spanId

/-- **A trace below which no hot span hangs may be restored.** -/
theorem Linked.rehydrate (h : Linked db) (hdb : Coherent db) {control : TraceControlRow} {T : String} {db₁ : Db}
    (r : Rehydration db control T db₁) (hforeign : NoForeignParent db T) : Linked db₁ := by
  have hcopy : ∀ {copy}, copy ∈ db.spansOf T → copy ∈ db.spanControl ∧ copy.traceKey = T ∧ copy.traceId = T :=
    fun hc => by
      obtain ⟨hm, hk⟩ := mem_spansOf.mp hc
      exact ⟨hm, hk, (hdb.copies _ hm).1.symm.trans hk⟩
  have htopology : ∀ t, t ∈ db₁.topology ↔
      t ∈ db.topology ∨ ∃ copy ∈ db.spansOf T, copy.toTopology (db.spansOf T) = t := by
    intro t
    rw [r.result]
    exact (Table.mem_insertAll r.insert_topology).trans (or_congr_right List.mem_map)
  have hcontains : ∀ parent, TopologyContains db₁ parent ↔
      TopologyContains db parent ∨ ∃ copy ∈ db.spansOf T, copy.spanId = parent := by
    intro parent
    constructor
    · rintro ⟨t, ht, rfl⟩
      rcases (htopology t).mp ht with ht | ⟨copy, hc, rfl⟩
      · exact Or.inl ⟨t, ht, rfl⟩
      · exact Or.inr ⟨copy, hc, rfl⟩
    · rintro (⟨t, ht, hs⟩ | ⟨copy, hc, hs⟩)
      · exact ⟨t, (htopology t).mpr (Or.inl ht), hs⟩
      · exact ⟨_, (htopology _).mpr (Or.inr ⟨copy, hc, rfl⟩), hs⟩
  -- A hot trace has no row under the restored trace.
  have hcold : ∀ t ∈ db.topology, t.traceId ≠ T := by
    intro t ht he
    obtain ⟨row, hrow, -, htrace, -⟩ := hdb.record_of_link ht
    exact hdb.hot_archived T ⟨row, hrow, htrace.trans he⟩ ⟨control, r.mem, r.key⟩
  have hclosed : ∀ {copy}, copy ∈ db.spansOf T → ∀ {parent}, copy.parentSpanId = some parent →
      parent ≠ copy.spanId ∧ ∃ p ∈ db.spansOf T, p.spanId = parent ∧ validParentKind copy.kind p.kind = true := by
    intro copy hc parent hp
    obtain ⟨hm, hk, -⟩ := hcopy hc
    obtain ⟨hself, p, hpm, hps, hpk, hkind⟩ := h.copies copy hm parent hp
    exact ⟨hself, p, mem_spansOf.mpr ⟨hpm, hpk.trans hk⟩, hps, hkind⟩
  refine { links := ?links, flags := ?flags, index := ?index, copies := ?copies }
  case links =>
    intro row hrow parent hp
    rcases r.mem_records.mp hrow with hrow | ⟨copy, hc, rfl⟩
    · obtain ⟨hself, hpresent⟩ := h.links row hrow parent hp
      refine ⟨hself, fun p hpm hps => ?_⟩
      rcases r.mem_records.mp hpm with hpm | ⟨copy, hc, rfl⟩
      · exact hpresent p hpm hps
      · obtain ⟨t, ht, hl⟩ := (hdb.topology row.link).mpr ⟨row, hrow, rfl⟩
        refine absurd ?_ (hforeign copy (hcopy hc).1 (hcopy hc).2.1 t ht)
        exact (congrArg Link.parentSpanId hl).trans (hp.trans (congrArg some hps.symm))
    · obtain ⟨hself, q, hq, hqs, hkind⟩ := hclosed hc hp
      refine ⟨hself, fun p hpm hps => ?_⟩
      -- The parent is restored as well, and no other record has its span.
      have hqm : q.toRecord ∈ db₁.records := r.mem_records.mpr (Or.inr ⟨q, hq, rfl⟩)
      rw [Table.eq_of_clash hpm hqm (Or.inr (hps.trans hqs.symm))]
      exact ⟨(hcopy hq).2.2.trans (hcopy hc).2.2.symm, hkind⟩
  case flags =>
    intro t ht
    rcases (htopology t).mp ht with ht | ⟨copy, hc, rfl⟩
    · rw [h.flags t ht]
      refine exists_congr fun parent => and_congr_right fun hp => not_congr ?_
      rw [hcontains]
      refine (or_iff_left ?_).symm
      rintro ⟨copy, hc, rfl⟩
      exact hforeign copy (hcopy hc).1 (hcopy hc).2.1 t ht hp
    · have hflag : (copy.toTopology (db.spansOf T)).unresolved = false := by
        cases hp : copy.parentSpanId with
        | none => simp [SpanControlRow.toTopology, hp]
        | some parent =>
          obtain ⟨-, q, hq, hqs, -⟩ := hclosed hc hp
          simp only [SpanControlRow.toTopology, hp, Option.any_some, Bool.not_eq_false']
          exact List.any_eq_true.mpr ⟨q, hq, decide_eq_true hqs⟩
      rw [hflag]
      refine iff_of_false Bool.false_ne_true ?_
      rintro ⟨parent, hp, hn⟩
      obtain ⟨-, q, hq, hqs, -⟩ := hclosed hc hp
      exact hn ((hcontains parent).mpr (Or.inr ⟨q, hq, hqs⟩))
  case index =>
    intro i hi
    rw [r.result] at hi ⊢
    rcases (Table.mem_insert r.insert_index).mp hi with hi | rfl
    · rw [h.index i hi]
      constructor
      · rintro ⟨t, ht, htrace, hu⟩
        exact ⟨t, (Table.mem_insertAll r.insert_topology).mpr (Or.inl ht), htrace, hu⟩
      · rintro ⟨t, ht, htrace, hu⟩
        rcases (Table.mem_insertAll r.insert_topology).mp ht with ht | hnew
        · exact ⟨t, ht, htrace, hu⟩
        · obtain ⟨copy, hc, rfl⟩ := List.mem_map.mp hnew
          refine absurd ⟨control, r.mem, r.key⟩ (hdb.hot_archived T ((hdb.index T).mp ⟨i, hi, ?_⟩))
          exact htrace.symm.trans (hcopy hc).2.2
    · exact decide_eq_true_iff
  case copies =>
    rw [r.result]
    intro copy hcopy parent hp
    obtain ⟨hcopy, hk⟩ := Table.mem_delete.mp hcopy
    obtain ⟨hself, p, hpm, hps, hpk, hkind⟩ := h.copies copy hcopy parent hp
    exact ⟨hself, p, Table.mem_delete.mpr ⟨hpm, by rwa [hpk]⟩, hps, hpk, hkind⟩

/-! ### The effects -/

section Commits

variable [Sha2] {o : SourceObservation} {p : PreparedObservation}

omit [Sha2] in
/-- The span keeps its trace. -/
theorem StoredRow.traceId_of_span {reduced : DomainSpanState} {record : DurableRecordV1} {records : Table RecordRow}
    {row : RecordRow} (hs : StoredRow db p reduced record records row) {r : RecordRow} (hr : r ∈ db.records)
    (hrs : r.spanId = p.state.spanId.asStr) : r.traceId = p.state.traceId.asStr := by
  rcases hs.rows with ⟨hnone, -⟩ | ⟨old, hold, hrow, -⟩
  · exact absurd hrs (Table.find?_eq_none.mp hnone r hr)
  · obtain rfl := Option.some.inj ((recordOf_eq hr hrs).symm.trans hold)
    rw [← hs.traceId, hrow]

/-- The flag of the index row is read from the table. -/
theorem Commit.indexRow_unresolved (c : Commit db o p) : c.indexRow.unresolved = true ↔
    HasUnresolved (resolveChildren c.topology p.state.spanId.asStr) p.state.traceId.asStr := by
  unfold Commit.indexRow Table.upserted
  cases db.hotTraceIndex.find? fun row => row.traceId = p.state.traceId.asStr <;> exact decide_eq_true_iff

/-- The links of a validated commit are in order: the one of the span by its own chain, those of its children by
theirs, and the others because they were. -/
theorem Linked.commit_links (h : Linked db) (hdb : Coherent db) (hp : Prepared o p) (c : Commit db o p) :
    ∀ row ∈ c.records, LinkInOrder c.records row := by
  apply c.topologyStep.links_of_local hdb hp h.links
  apply (c.topologyStep.localChecks_iff hdb hp (childrenOf_length_le c.children)).mp
  exact ⟨c.chain, c.children⟩

/-- **A commit keeps the links in order and the flags right.** -/
theorem Linked.commit (h : Linked db) (hdb : Coherent db) (hp : Prepared o p) (c : Commit db o p) :
    Linked c.result := by
  have hm : ∀ row ∈ db.records, row.Mirrors := fun row hrow => hdb.mirrors row (Db.mem_knownRows.mpr (Or.inl hrow))
  obtain ⟨stored, hs⟩ := c.exists_stored hm hp
  obtain ⟨linked, hl⟩ := c.exists_linked hm (fun t ht => (hdb.topology t.link).mp ⟨t, ht, rfl⟩) hp
  obtain ⟨-, hindex⟩ := c.mem_index hm hdb.backfill hdb.complete
  have hspan := (c.reduction.identity hm).spanId
  have hlinks := h.commit_links hdb hp c
  have htopology : c.result.topology = resolveChildren c.topology p.state.spanId.asStr := by
    rw [Commit.result, hspan]
  refine { links := hlinks, flags := ?flags, index := ?index, copies := h.copies }
  case flags =>
    exact c.topologyStep.flags hdb hp h.flags
  case index =>
    intro i hi
    rw [htopology]
    rcases (hindex i).mp hi with ⟨hi, hit⟩ | rfl
    · rw [h.index i hi]
      constructor
      · rintro ⟨t, ht, htrace, hu⟩
        obtain ⟨r, hr, hrs, hrt, hrp, -⟩ := hdb.record_of_link ht
        have hne : t.spanId ≠ p.state.spanId.asStr := fun hts =>
          hit (htrace.symm.trans (hrt.symm.trans (hs.traceId_of_span hr (hrs.trans hts))))
        have hmem : t ∈ c.topology := (hl.mem t).mpr (Or.inl ⟨ht, hne⟩)
        refine ⟨t, mem_resolveChildren.mpr ⟨t, hmem, if_neg fun hchild => hit ?_⟩, htrace, hu⟩
        -- A child of the span is in the trace of the span.
        have hrm : r ∈ c.records := hs.mem.mpr (Or.inl ⟨hr, fun h => hne (hrs.symm.trans h)⟩)
        have := ((hlinks r hrm _ (hrp.trans hchild)).2 stored (hs.mem.mpr (Or.inr rfl)) hs.spanId).1
        exact htrace.symm.trans (hrt.symm.trans (this.symm.trans hs.traceId))
      · rintro ⟨t', ht', htrace, hu⟩
        obtain ⟨t, ht, rfl⟩ := mem_resolveChildren.mp ht'
        have htt : t.traceId = i.traceId := by
          rw [← htrace]
          split <;> rfl
        rcases (hl.mem t).mp ht with ⟨ht, -⟩ | rfl
        · refine ⟨t, ht, htt, ?_⟩
          split at hu
          · cases hu
          · exact hu
        · exact absurd (htt.symm.trans (congrArg Link.traceId hl.link)) hit
    · rw [c.indexRow_traceId]
      exact c.indexRow_unresolved

end Commits

section Moves

variable [Sha2] {candidate : Candidate} {now : ℕ} {transition : Transition}

omit [Sha2] in
/-- The trace of a hot candidate has no unresolved link. -/
theorem ReadBack.resolved (h : ReadBack db candidate) (ht : candidate.tier = .hot) :
    ∃ i ∈ db.hotTraceIndex, i.traceId = candidate.identity ∧ i.unresolved = false := by
  have hrow := h.latest
  simp only [currentRow, ht] at hrow
  obtain ⟨i, hi, he⟩ := Option.map_eq_some_iff.mp hrow
  obtain ⟨hmem, hid, -⟩ := Table.mem_of_find? hi
  exact ⟨i, hmem, hid, congrArg Prod.snd he⟩

omit [Sha2] in
/-- The copies of a trace may go. -/
theorem Linked.deleteCopies (h : Linked db) (traceKey : String) :
    Linked { db with spanControl := db.spanControl.delete fun row => row.traceKey = traceKey } where
  links := h.links
  flags := h.flags
  index := h.index
  copies copy hcopy parent hp := by
    obtain ⟨hcopy, hk⟩ := Table.mem_delete.mp hcopy
    obtain ⟨hself, q, hq, hqs, hqk, hkind⟩ := h.copies copy hcopy parent hp
    exact ⟨hself, q, Table.mem_delete.mpr ⟨hq, by rwa [hqk]⟩, hqs, hqk, hkind⟩

omit [Sha2] in
/-- Traces may expire. -/
theorem Linked.expire (h : Linked db) (hdb : Coherent db) (spanGuards : Table SpanGuardRow)
    (traceGuards : Table TraceGuardRow) (ids : List String) :
    Linked (Store.deleteHotTraces { db with expiredSpanStates := spanGuards, expiredTraceStates := traceGuards } ids) :=
  (h.deleteHotTraces hdb ids).congr rfl rfl rfl rfl

/-- **Every move keeps the links in order and the flags right.** -/
theorem Linked.moved (h : Linked db) (hdb : Coherent db) (hread : ReadBack db candidate)
    (hmv : Moved db candidate now transition db') : Linked db' := by
  have hhash : candidate.tier = .hot → hashOpaqueIdentifier candidate.identity = candidate.identity := by
    intro ht
    have hin := hread.inItsTier
    simp only [InItsTier, ht] at hin
    exact hdb.hash_of_isHot hin
  cases hmv with
  | hotToWarm ht ha hw hr =>
    obtain ⟨i, hi, hid, hu⟩ := hread.resolved ht
    rw [hhash ht] at ha
    exact (h.archive hdb hi hid hu ha).congr rfl rfl rfl rfl
  | hotToCold ht ha hc =>
    obtain ⟨i, hi, hid, hu⟩ := hread.resolved ht
    rw [hhash ht] at ha
    exact (h.archive hdb hi hid hu ha).congr rfl rfl rfl rfl
  | warmToCold ht hc => exact h.congr rfl rfl rfl rfl
  | purgeHot ht hne => exact h.expire hdb _ _ [candidate.identity]
  | purgeWarm ht => exact (h.deleteCopies candidate.identity).congr rfl rfl rfl rfl
  | purgeCold ht => exact (h.deleteCopies candidate.identity).congr rfl rfl rfl rfl

end Moves

/-! ### Histories -/

section Histories

variable [Sha2]

/-- The observation restores a trace although a hot span hangs below one of its spans. -/
def RestoresForeignParent (db : Db) (o : SourceObservation) : Prop :=
  ∃ p, prepareObservation o = .ok p ∧ FreshCursor db o.checkpoint ∧ ¬ ArchivedDuplicate db p.state ∧
    ¬ NoForeignParent db p.state.traceId.asStr

/-- The item restores no foreign parent. -/
def RestoresCleanly (db : Db) : StoreBatchItem → Prop
  | .observation o => ¬ RestoresForeignParent db o
  | .disposition _ _ _ _ => True

/-- **Every effect keeps the links in order and the flags right, unless it restores a foreign parent.** -/
theorem preserved_linked : Preserved RestoresCleanly (fun _ _ => True) Linked where
  unquiet _ _ := trivial
  quiet := by
    rintro db db' h ⟨_, _, _, _, _, _, _, _, _, rfl⟩
    exact h.congr rfl rfl rfl rfl
  rehydrate := by
    intro db o p control db₁ hdb h hC hp hf hd r
    refine h.rehydrate hdb r ?_
    by_contra hforeign
    exact hC ⟨p, hp, hf, hd, hforeign⟩
  commit _ _ _ _ _ _ hdb h hp _ _ c := h.commit hdb hp c
  move hdb h hread hmv _ := h.moved hdb hread hmv
  expire hdb h _ _ := h.expire hdb _ _ _

/-- `validate_topology` accepts the states of `records`, and a topology row is flagged exactly when it has a parent
that no topology row stands for. -/
structure TopologyInvariant (db : Db) : Prop where
  /-- The states are valid. -/
  valid : ∃ topology, validateTopology (db.records.rows.map (·.state)) = .ok topology
  /-- The flags are right. -/
  flags : ∀ row ∈ db.topology, row.unresolved = true ↔
    ∃ parent, row.parentSpanId = some parent ∧ ∀ t ∈ db.topology, t.spanId ≠ parent

omit [Sha2] in
theorem Linked.topologyInvariant (h : Linked db) (hdb : Coherent db) : TopologyInvariant db where
  valid := (validateTopology_records fun row hrow => hdb.mirrors row (Db.mem_knownRows.mpr (Or.inl hrow))).mpr h.links
  flags row hrow := by
    rw [h.flags row hrow]
    simp only [TopologyContains, Table.has_iff, not_exists, not_and, ne_eq]

/-- **The topology invariant holds after every history that restores no foreign parent.** -/
theorem topologyInvariant_history {ts : List Txn}
    (h : Along Txn.step (fun db t => t.Ingests RestoresCleanly db) Db.empty ts) : TopologyInvariant (history ts) := by
  have hlinked : Linked (history ts) :=
    preserved_linked.history linked_empty (h.mono fun db t ht => ⟨ht, leaves_true db t⟩)
  exact hlinked.topologyInvariant (coherent_history ts)

omit [Sha2] in
theorem topologyInvariant_turn : TopologyInvariant (@history sha256 [.ingest (turnOf 0 0 0 none 100)]) :=
  @topologyInvariant_history sha256 _ ⟨⟨by
    rintro ⟨p, -, -, -, hforeign⟩
    exact hforeign fun copy hcopy => absurd hcopy (Table.not_mem_empty copy), fun _ _ _ => trivial⟩, trivial⟩

end Histories

/-! ### A restored parent -/

/-- A turn goes to the warm tables, a turn of another trace names it as its parent, and then another turn of the first
trace brings it back. -/
def foreignParentHistory : List Txn :=
  [.ingest (turnOf 0 0 0 none 100), .maintain (requestAfter 1 100 3650) {} (hotCandidate 0 100) (.ok ()),
    .ingest (turnOf 1 1 1 (some 0) 100), .ingest (turnOf 2 0 2 none 200)]

/-- The stores of the history: the archived turn, the turn of the other trace, and then the link across traces. -/
theorem foreignParentHistory_stored : ∃ archived below restored child,
    @history sha256 foreignParentHistory.dropLast = below ∧ @history sha256 foreignParentHistory = restored ∧
    @TurnStored sha256 archived (turnOf 1 1 1 (some 0) 100) below ∧
    (∀ row, row ∉ archived.records) ∧ (∀ row, row ∉ archived.topology) ∧
    @ingestInTransaction sha256 below (turnOf 2 0 2 none 200) = .ok (.committed, restored) ∧
    child ∈ restored.records ∧ ¬ LinkInOrder restored.records child := by
  let : Sha2 := sha256
  have harchived : OneArchived (history (foreignParentHistory.take 2)) .warm 0 0 0 100 :=
    oneArchived_history (by decide +kernel)
  have hevent : stableEventId (turnOf 2 0 2 none 200) ≠ stableEventId (turnOf 1 1 1 (some 0) 100) := by
    rw [show this = _ from sha2_eq]
    decide +kernel
  obtain ⟨below, hi, hs⟩ := harchived.ingest_child 100 (show 1 ≠ 0 by decide)
    (show 1 ≠ 0 by decide) (show 1 ≠ 0 by decide)
  obtain ⟨restored, hi', hparent, hchild⟩ := harchived.restore_parent 2 2 200
    (by decide) hi hs (by decide) (by decide) hevent
  have hbelow : history foreignParentHistory.dropLast = below := by
    rw [show foreignParentHistory.dropLast = foreignParentHistory.take 2 ++ [.ingest (turnOf 1 1 1 (some 0) 100)] from rfl,
      history_concat]
    exact step_ingest_of hi
  have hrestored : history foreignParentHistory = restored := by
    rw [show foreignParentHistory = foreignParentHistory.dropLast ++ [.ingest (turnOf 2 0 2 none 200)] from rfl,
      history_concat, hbelow]
    exact step_ingest_of hi'
  refine ⟨_, below, restored, _, hbelow, hrestored, hs, harchived.records, harchived.topology, hi', hchild, fun hlink => ?_⟩
  have htrace := ((hlink _ rfl).2 _ hparent rfl).1
  exact absurd (numberedId_inj.mp htrace) (by decide)

/-- **The parent is restored under a link that crosses traces, and that is still flagged.** -/
theorem not_topologyInvariant : ¬ TopologyInvariant (@history sha256 foreignParentHistory) := by
  intro h
  have hc := @coherent_history sha256 foreignParentHistory
  obtain ⟨-, -, restored, child, -, hrestored, -, -, -, -, hchild, hlink⟩ := foreignParentHistory_stored
  rw [hrestored] at h hc
  have hmirrors : ∀ row ∈ restored.records, row.Mirrors := fun row hrow =>
    hc.mirrors row (Db.mem_knownRows.mpr (Or.inl hrow))
  exact hlink ((validateTopology_records hmirrors).mp h.valid child hchild)

end AgentObservability.Store
