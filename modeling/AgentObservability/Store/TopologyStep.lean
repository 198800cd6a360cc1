import AgentObservability.Store.Coherence
import AgentObservability.Domain.Topology

/-!
# The topology step

An ingest that gets as far as the links has the reduced state and the tables
`records` and `topology` with it. It then checks the chain above the span it wrote
and the chains of its direct children (`TopologyStep.LocalChecks`), and takes the
flag off every link to the span.

## What is proved

* `validateTopologyChain_ok_iff`: the check of a chain succeeds exactly when the
  links of the records on it (`Above`) are in order. Its bound is never reached: a
  permitted parent has a smaller `kindRank`.
* `TopologyStep.links_of_localChecks`, `TopologyStep.flags_of_localChecks`: on a
  store whose links are in order the local checks keep them so, and the flags right.
-/

namespace AgentObservability.Store

open Domain Contracts Foundation

variable {db db' : Db}

/-! ### Links in order -/

section Links

variable {records : Table RecordRow}

/-- The link of a row is in order: the span is not its own parent, and a parent that is present is in its trace and of
a permitted kind. -/
def LinkInOrder (records : Table RecordRow) (row : RecordRow) : Prop :=
  ∀ parent, row.parentSpanId = some parent → parent ≠ row.spanId ∧
    ∀ p ∈ records, p.spanId = parent → p.traceId = row.traceId ∧ validParentKind row.kind p.kind = true

/-- Among states of records a span is found with the state of its record. -/
theorem byId_of_records (hm : ∀ row ∈ records, row.Mirrors)
    {states : List DomainSpanState} (hs : ∀ s ∈ states, ∃ row ∈ records, row.state = s) {p : RecordRow}
    (hp : p ∈ records) (hmem : p.state ∈ states) {id : SpanId} (hid : p.spanId = id.asStr) :
    byId states id = some p.state := by
  cases hb : byId states id with
  | none =>
    refine absurd ?_ (List.find?_eq_none.mp hb p.state (List.mem_reverse.mpr hmem))
    exact decide_eq_true (Identifier.ext ((hm p hp).spanId.symm.trans hid))
  | some s =>
    obtain ⟨hsm, rfl⟩ := mem_of_byId hb
    obtain ⟨r, hr, rfl⟩ := hs s hsm
    rw [Table.eq_of_clash hr hp (Or.inr ((hm r hr).spanId.trans hid.symm))]

/-- A link that is in order among the records is in order among some of their states. -/
theorem LinkInOrder.linkOk (hm : ∀ row ∈ records, row.Mirrors) {states : List DomainSpanState}
    (hs : ∀ s ∈ states, ∃ row ∈ records, row.state = s) {row : RecordRow} (hrow : row ∈ records)
    (h : LinkInOrder records row) : LinkOk states row.state := by
  intro parentId hparent
  obtain ⟨hself, hpresent⟩ := h parentId.asStr (by rw [(hm row hrow).parentSpanId, hparent]; rfl)
  refine ⟨fun he => hself (by rw [he, ← (hm row hrow).spanId]), fun s hb => ?_⟩
  obtain ⟨hsm, rfl⟩ := mem_of_byId hb
  obtain ⟨p, hpm, rfl⟩ := hs s hsm
  obtain ⟨htrace, hkind⟩ := hpresent p hpm (hm p hpm).spanId
  rw [(hm p hpm).traceId, (hm row hrow).traceId] at htrace
  rw [(hm p hpm).kind, (hm row hrow).kind] at hkind
  exact ⟨Identifier.ext htrace, hkind⟩

/-- A link that is in order among states of records, with its parent among them if it is present, is in order. -/
theorem LinkInOrder.of_linkOk (hm : ∀ row ∈ records, row.Mirrors) {states : List DomainSpanState}
    (hs : ∀ s ∈ states, ∃ row ∈ records, row.state = s) {row : RecordRow} (hrow : row ∈ records)
    (hparents : ∀ p ∈ records, row.parentSpanId = some p.spanId → p.state ∈ states)
    (h : LinkOk states row.state) : LinkInOrder records row := by
  intro parent hp
  have hpid := hp
  rw [(hm row hrow).parentSpanId] at hp
  obtain ⟨parentId, hparent, rfl⟩ := Option.map_eq_some_iff.mp hp
  obtain ⟨hself, hpresent⟩ := h parentId hparent
  refine ⟨fun he => hself (Identifier.ext (he.trans (hm row hrow).spanId)), fun p hpm hps => ?_⟩
  have hmem : p.state ∈ states := hparents p hpm (by rw [hpid, hps])
  obtain ⟨htrace, hkind⟩ := hpresent p.state (byId_of_records hm hs hpm hmem hps)
  rw [(hm p hpm).traceId, (hm row hrow).traceId, (hm p hpm).kind, (hm row hrow).kind]
  exact ⟨congrArg _ htrace, hkind⟩

/-- **`validate_topology` accepts the states of records exactly when their links are in order.** -/
theorem validateTopology_records (hm : ∀ row ∈ records, row.Mirrors) :
    (∃ v, validateTopology (records.rows.map (·.state)) = .ok v) ↔ ∀ row ∈ records, LinkInOrder records row := by
  rw [validateTopology_ok_iff, List.forall_mem_map]
  have hs : ∀ s ∈ records.rows.map (·.state), ∃ row ∈ records, row.state = s := fun s hs => List.mem_map.mp hs
  apply forall₂_congr
  intro row hrow
  constructor
  · exact LinkInOrder.of_linkOk hm hs hrow fun p hp _ => List.mem_map_of_mem hp
  · exact LinkInOrder.linkOk hm hs hrow

/-! ### A chain -/

/-- A record on the way up from a span: its own, that of its parent, and so on as far as the parents are present. -/
inductive Above (records : Table RecordRow) : String → RecordRow → Prop where
  /-- The record of the span. -/
  | self {row : RecordRow} (h : row ∈ records) : Above records row.spanId row
  /-- What is above the parent. -/
  | up {row top : RecordRow} {parent : String} (h : row ∈ records) (hparent : row.parentSpanId = some parent)
      (htop : Above records parent top) : Above records row.spanId top

theorem Above.mem {span : String} {row : RecordRow} (h : Above records span row) : row ∈ records := by
  induction h with
  | self h => exact h
  | up _ _ _ ih => exact ih

/-- The parent of a record on the way up is on it. -/
theorem Above.parent {span : String} {row p : RecordRow} (h : Above records span row) (hp : p ∈ records)
    (hparent : row.parentSpanId = some p.spanId) : Above records span p := by
  induction h with
  | self h => exact .up h hparent (.self hp)
  | up h hup _ ih => exact .up h hup (ih hparent)

/-- A chain of a span with a record begins with its state, and goes on at its parent. -/
theorem topologyChain_cons {fuel : ℕ} {seen : List String} {row : RecordRow}
    {states : List DomainSpanState} (hrow : row ∈ records)
    (h : topologyChain records (fuel + 1) seen (some row.spanId) = .ok states) :
    ∃ rest, states = row.state :: rest ∧
      topologyChain records fuel (row.spanId :: seen) (row.state.parentSpanId.map (·.asStr)) = .ok rest := by
  rw [topologyChain] at h
  split at h
  · cases h
  · obtain ⟨loaded, hload, h⟩ := bind_eq_ok.mp h
    obtain rfl := loadState_ok hload
    rw [recordOf_eq hrow rfl] at h
    obtain ⟨rest, hrest, h⟩ := bind_eq_ok.mp h
    cases h
    exact ⟨rest, rfl, hrest⟩

/-- A chain of a span without a record is empty. -/
theorem topologyChain_absent {fuel : ℕ} {seen : List String} {span : String} {states : List DomainSpanState}
    (hnone : recordOf records span = none) (h : topologyChain records (fuel + 1) seen (some span) = .ok states) :
    states = [] := by
  rw [topologyChain] at h
  split at h
  · cases h
  · obtain ⟨loaded, hload, h⟩ := bind_eq_ok.mp h
    obtain rfl := loadState_ok hload
    rw [hnone] at h
    cases h
    rfl

/-- The states of a chain are those of the records on the way up. -/
theorem mem_topologyChain (hm : ∀ row ∈ records, row.Mirrors) {fuel : ℕ} :
    ∀ {seen : List String} {span : String} {states : List DomainSpanState},
      topologyChain records fuel seen (some span) = .ok states →
      ∀ s, s ∈ states ↔ ∃ row, Above records span row ∧ row.state = s := by
  induction fuel with
  | zero =>
    intro seen span states h
    cases h
  | succ fuel ih =>
    intro seen span states h s
    cases hrow : recordOf records span with
    | none =>
      rw [topologyChain_absent hrow h]
      refine iff_of_false (List.not_mem_nil) ?_
      rintro ⟨top, htop, -⟩
      have habsent := Table.find?_eq_none.mp hrow
      cases htop with
      | self hmem => exact habsent _ hmem rfl
      | up hmem _ _ => exact habsent _ hmem rfl
    | some row =>
      obtain ⟨hmem, rfl⟩ := recordOf_mem hrow
      obtain ⟨rest, rfl, hrest⟩ := topologyChain_cons hmem h
      rw [← (hm row hmem).parentSpanId] at hrest
      have hsame : ∀ {r}, r ∈ records → r.spanId = row.spanId → r = row := fun hr hs =>
        Table.eq_of_clash hr hmem (Or.inr hs)
      rw [List.mem_cons]
      cases hparent : row.parentSpanId with
      | none =>
        rw [hparent] at hrest
        have hnil : rest = [] := by
          unfold topologyChain at hrest
          cases hrest
          rfl
        rw [hnil]
        constructor
        · rintro (rfl | hs)
          · exact ⟨row, .self hmem, rfl⟩
          · cases hs
        · rintro ⟨top, htop, rfl⟩
          generalize hspan : row.spanId = span at htop
          cases htop with
          | self ht => exact Or.inl (by rw [hsame ht hspan.symm])
          | up ht hp _ =>
            rw [hsame ht hspan.symm, hparent] at hp
            cases hp
      | some parent =>
        rw [hparent] at hrest
        rw [ih hrest s]
        constructor
        · rintro (rfl | ⟨top, htop, rfl⟩)
          · exact ⟨row, .self hmem, rfl⟩
          · exact ⟨top, .up hmem hparent htop, rfl⟩
        · rintro ⟨top, htop, rfl⟩
          generalize hspan : row.spanId = span at htop
          cases htop with
          | self ht => exact Or.inl (by rw [hsame ht hspan.symm])
          | up ht hp htop =>
            rw [hsame ht hspan.symm, hparent] at hp
            cases hp
            exact Or.inr ⟨top, htop, rfl⟩

/-- Along links that are in order the rank falls, so a chain ends within its bound and without a repetition. -/
theorem exists_topologyChain (hm : ∀ row ∈ records, row.Mirrors) {fuel : ℕ} :
    ∀ {seen : List String} {span : String}, (∀ row, Above records span row → LinkInOrder records row) →
      1 ≤ fuel → (∀ row ∈ records, row.spanId = span → kindRank row.kind + 2 ≤ fuel) →
      (∀ i ∈ seen, ∃ t ∈ records, t.spanId = i ∧ ∀ row ∈ records, row.spanId = span →
        kindRank row.kind < kindRank t.kind) →
      ∃ states, topologyChain records fuel seen (some span) = .ok states := by
  induction fuel with
  | zero =>
    intro seen span _ hfuel
    omega
  | succ fuel ih =>
    intro seen span hlinks _ hfuel hseen
    have hnew : span ∉ seen := by
      intro hmem
      obtain ⟨t, ht, hts, hlt⟩ := hseen span hmem
      exact lt_irrefl _ (hlt t ht hts)
    rw [topologyChain, if_neg hnew]
    cases hrow : recordOf records span with
    | none =>
      refine ⟨[], ?_⟩
      rw [loadState, hrow]
      rfl
    | some row =>
      obtain ⟨hmem, rfl⟩ := recordOf_mem hrow
      have hload : loadState records row.spanId = .ok (some row.state) := by
        rw [loadState, hrow]
        simp [stateFromJson, (hm row hmem).ordered]
        rfl
      -- The chain goes on at the parent.
      suffices hrest : ∃ rest, topologyChain records fuel (row.spanId :: seen) row.parentSpanId = .ok rest by
        obtain ⟨rest, hrest⟩ := hrest
        rw [(hm row hmem).parentSpanId] at hrest
        exact ⟨row.state :: rest, bind_eq_ok.mpr ⟨some row.state, hload, bind_eq_ok.mpr ⟨rest, hrest, rfl⟩⟩⟩
      cases hparent : row.parentSpanId with
      | none =>
        refine ⟨[], ?_⟩
        unfold topologyChain
        rfl
      | some parent =>
        -- The parent, if it is present, has a smaller rank.
        have hrank : ∀ p ∈ records, p.spanId = parent → kindRank p.kind < kindRank row.kind := fun p hp hps =>
          kindRank_lt ((hlinks row (.self hmem) parent hparent).2 p hp hps).2
        have hbound := hfuel row hmem rfl
        apply ih
        · exact fun r hr => hlinks r (.up hmem hparent hr)
        · omega
        · intro p hp hps
          have := hrank p hp hps
          omega
        · intro i hi
          rcases List.mem_cons.mp hi with rfl | hi
          · exact ⟨row, hmem, rfl, hrank⟩
          · obtain ⟨t, ht, hts, hlt⟩ := hseen i hi
            exact ⟨t, ht, hts, fun p hp hps => (hrank p hp hps).trans (hlt row hmem rfl)⟩

theorem kindRank_le (kind : SpanKind) : kindRank kind ≤ 4 := by
  cases kind <;> simp [kindRank]

/-- **The check of a chain succeeds exactly when the links on the way up are in order.** -/
theorem validateTopologyChain_ok_iff (hm : ∀ row ∈ records, row.Mirrors) {span : String} :
    validateTopologyChain records span = .ok () ↔ ∀ row, Above records span row → LinkInOrder records row := by
  constructor
  · intro h row hrow
    obtain ⟨states, hchain, hvalid⟩ := bind_eq_ok.mp h
    obtain ⟨v, hv, -⟩ := map_eq_ok.mp hvalid
    rw [mapError_ok_iff] at hv
    have hmem := mem_topologyChain hm hchain
    have hs : ∀ s ∈ states, ∃ row ∈ records, row.state = s := fun s h => by
      obtain ⟨r, hr, he⟩ := (hmem s).mp h
      exact ⟨r, hr.mem, he⟩
    apply LinkInOrder.of_linkOk hm hs hrow.mem
    · intro p hp hparent
      exact (hmem p.state).mpr ⟨p, hrow.parent hp hparent, rfl⟩
    · exact validateTopology_ok_iff.mp ⟨v, hv⟩ row.state ((hmem row.state).mpr ⟨row, hrow, rfl⟩)
  · intro h
    obtain ⟨states, hchain⟩ := exists_topologyChain hm h (show 1 ≤ maxTopologyDepth by decide)
      (fun row _ _ => by have := kindRank_le row.kind; have : maxTopologyDepth = 4096 := rfl; omega)
      (fun i (hi : i ∈ ([] : List String)) => absurd hi List.not_mem_nil)
    have hmem := mem_topologyChain hm hchain
    have hs : ∀ s ∈ states, ∃ row ∈ records, row.state = s := fun s h => by
      obtain ⟨r, hr, he⟩ := (hmem s).mp h
      exact ⟨r, hr.mem, he⟩
    have hlinks : ∀ s ∈ states, LinkOk states s := by
      intro s hsm
      obtain ⟨r, hr, rfl⟩ := (hmem s).mp hsm
      exact (h r hr).linkOk hm hs hr.mem
    obtain ⟨v, hv⟩ := validateTopology_ok_iff.mpr hlinks
    rw [validateTopologyChain, hchain]
    show ((validateTopology states).mapError mapReductionError).map _ = _
    rw [hv]
    rfl

end Links

/-- **The check of the direct children succeeds exactly when the check of each succeeds**, if they are not too many. -/
theorem validateDirectChildren_ok_iff {records : Table RecordRow} {topology : Table TopologyRow} {span : String}
    (hbound : (childrenOf topology span).length ≤ maxTopologyDepth) :
    validateDirectChildren records topology span = .ok () ↔
      ∀ t ∈ topology, t.parentSpanId = some span → validateTopologyChain records t.spanId = .ok () := by
  simp only [validateDirectChildren, bind_eq_ok, require_eq_ok]
  have hchildren : ∀ id, id ∈ childrenOf topology span ↔ ∃ t ∈ topology, t.parentSpanId = some span ∧ t.spanId = id := by
    intro id
    rw [childrenOf, List.mem_insertionSort, List.mem_map]
    simp only [Table.mem_select, and_assoc]
  constructor
  · rintro ⟨⟨⟩, -, h⟩ t ht hp
    exact forM_ok_iff.mp h t.spanId ((hchildren _).mpr ⟨t, ht, hp, rfl⟩)
  · intro h
    refine ⟨(), hbound, forM_ok_iff.mpr fun id hid => ?_⟩
    obtain ⟨t, ht, hp, rfl⟩ := (hchildren id).mp hid
    exact h t ht hp

theorem childrenOf_length_le {records : Table RecordRow} {topology : Table TopologyRow} {span : String}
    (h : validateDirectChildren records topology span = .ok ()) :
    (childrenOf topology span).length ≤ maxTopologyDepth := by
  simp only [validateDirectChildren, bind_eq_ok, require_eq_ok] at h
  obtain ⟨⟨⟩, hbound, -⟩ := h
  exact hbound

/-! ### The step -/

section Steps

variable [Sha2] {o : SourceObservation} {p : PreparedObservation}

/-- What an ingest has with it when it comes to the links. -/
structure TopologyStep (db : Db) (o : SourceObservation) (p : PreparedObservation) where
  /-- The reduced state. -/
  reduced : DomainSpanState
  /-- Its record. -/
  record : DurableRecordV1
  /-- The table `records`. -/
  records : Table RecordRow
  /-- The table `topology`, before the children of the span are resolved. -/
  topology : Table TopologyRow
  /-- The reduction succeeds. -/
  reduction : Reduction db o p reduced record
  /-- The record goes in. -/
  upsert_record : upsertRecord db reduced record = some records
  /-- The link goes in. -/
  upsert_topology : upsertTopology db reduced
    (reduced.parentSpanId.any fun parent => ¬ TopologyContains db parent.asStr) = some topology

/-- A commit goes through the step. -/
def Commit.topologyStep (c : Commit db o p) : TopologyStep db o p :=
  ⟨c.reduced, c.record, c.records, c.topology, c.reduction, c.upsert_record, c.upsert_topology⟩

/-- The span that is written. -/
def TopologyStep.spanId (s : TopologyStep db o p) : String := s.reduced.spanId.asStr

/-- The two checks of the source: the chain of the span, and the chains of its direct children. -/
def TopologyStep.LocalChecks (s : TopologyStep db o p) : Prop :=
  validateTopologyChain s.records s.spanId = .ok () ∧ validateDirectChildren s.records s.topology s.spanId = .ok ()

/-- The table `topology` after the step. -/
def TopologyStep.resolved (s : TopologyStep db o p) : Table TopologyRow := resolveChildren s.topology s.spanId

/-- The records whose links the checks look at: those on the way up from the span, and its direct children. -/
def TopologyStep.Local (s : TopologyStep db o p) (row : RecordRow) : Prop :=
  Above s.records s.spanId row ∨ row ∈ s.records ∧ row.parentSpanId = some s.spanId

theorem TopologyStep.Local.mem {s : TopologyStep db o p} {row : RecordRow} (h : s.Local row) : row ∈ s.records := by
  rcases h with h | ⟨h, -⟩
  · exact h.mem
  · exact h

variable (hdb : Coherent db) (hp : Prepared o p) (s : TopologyStep db o p)
include hdb hp

theorem TopologyStep.exists_stored : ∃ row, StoredRow db p s.reduced s.record s.records row :=
  s.reduction.exists_stored (fun row hrow => hdb.mirrors row (Db.mem_knownRows.mpr (Or.inl hrow))) hp s.upsert_record

theorem TopologyStep.exists_linked : ∃ row, LinkedRow db p s.topology row :=
  s.reduction.exists_linked (fun row hrow => hdb.mirrors row (Db.mem_knownRows.mpr (Or.inl hrow)))
    (fun t ht => (hdb.topology t.link).mp ⟨t, ht, rfl⟩) hp s.upsert_record s.upsert_topology

omit hp in
theorem TopologyStep.spanId_eq : s.spanId = p.state.spanId.asStr :=
  congrArg (·.asStr)
    (s.reduction.identity fun row hrow => hdb.mirrors row (Db.mem_knownRows.mpr (Or.inl hrow))).spanId

theorem TopologyStep.mirrors : ∀ row ∈ s.records, row.Mirrors := by
  obtain ⟨stored, hs⟩ := s.exists_stored hdb hp
  intro row hrow
  rcases hs.mem.mp hrow with ⟨hold, -⟩ | rfl
  · exact hdb.mirrors row (Db.mem_knownRows.mpr (Or.inl hold))
  · exact hs.mirrors

/-- Every record is there with its link. -/
theorem TopologyStep.exists_link {row : RecordRow} (hrow : row ∈ db.records) :
    ∃ row' ∈ s.records, row'.link = row.link := by
  obtain ⟨stored, hs⟩ := s.exists_stored hdb hp
  by_cases hspan : row.spanId = p.state.spanId.asStr
  · refine ⟨stored, hs.mem.mpr (Or.inr rfl), ?_⟩
    rcases hs.rows with ⟨hnone, -⟩ | ⟨old, hold, hstored, -⟩
    · exact absurd hspan (Table.find?_eq_none.mp hnone row hrow)
    · obtain rfl := Option.some.inj ((recordOf_eq hrow hspan).symm.trans hold)
      rw [hstored]
      rfl
  · exact ⟨row, hs.mem.mpr (Or.inl ⟨hrow, hspan⟩), rfl⟩

/-- The topology has the links of the records. -/
theorem TopologyStep.links (link : Link) :
    (∃ t ∈ s.topology, t.link = link) ↔ ∃ row ∈ s.records, row.link = link := by
  obtain ⟨stored, hs⟩ := s.exists_stored hdb hp
  obtain ⟨linked, hl⟩ := s.exists_linked hdb hp
  have hsame : linked.link = stored.link := hl.link.trans hs.link.symm
  constructor
  · rintro ⟨t, ht, rfl⟩
    rcases (hl.mem t).mp ht with ⟨hold, hne⟩ | rfl
    · obtain ⟨row, hrow, he⟩ := (hdb.topology t.link).mp ⟨t, hold, rfl⟩
      have hspan : row.spanId = t.spanId := congrArg Link.spanId he
      exact ⟨row, hs.mem.mpr (Or.inl ⟨hrow, hspan ▸ hne⟩), he⟩
    · exact ⟨stored, hs.mem.mpr (Or.inr rfl), hsame.symm⟩
  · rintro ⟨row, hrow, rfl⟩
    rcases hs.mem.mp hrow with ⟨hold, hne⟩ | rfl
    · obtain ⟨t, ht, he⟩ := (hdb.topology row.link).mpr ⟨row, hold, rfl⟩
      have hspan : t.spanId = row.spanId := congrArg Link.spanId he
      exact ⟨t, (hl.mem t).mpr (Or.inl ⟨ht, hspan ▸ hne⟩), he⟩
    · exact ⟨linked, (hl.mem linked).mpr (Or.inr rfl), hsame⟩

/-- **The local checks succeed exactly when the links they look at are in order.** -/
theorem TopologyStep.localChecks_iff (hbound : (childrenOf s.topology s.spanId).length ≤ maxTopologyDepth) :
    s.LocalChecks ↔ ∀ row, s.Local row → LinkInOrder s.records row := by
  have hm := s.mirrors hdb hp
  rw [TopologyStep.LocalChecks, validateTopologyChain_ok_iff hm, validateDirectChildren_ok_iff hbound]
  simp only [validateTopologyChain_ok_iff hm]
  constructor
  · rintro ⟨hchain, hchildren⟩ row (hrow | ⟨hrow, hchild⟩)
    · exact hchain row hrow
    · obtain ⟨t, ht, he⟩ := (s.links hdb hp row.link).mpr ⟨row, hrow, rfl⟩
      have hspan : t.spanId = row.spanId := congrArg Link.spanId he
      have hparent : t.parentSpanId = row.parentSpanId := congrArg Link.parentSpanId he
      exact hchildren t ht (hparent.trans hchild) row (hspan ▸ .self hrow)
  · intro h
    refine ⟨fun row hrow => h row (Or.inl hrow), fun t ht hchild row hrow => h row ?_⟩
    obtain ⟨child, hmem, he⟩ := (s.links hdb hp t.link).mp ⟨t, ht, rfl⟩
    have hspan : t.spanId = child.spanId := (congrArg Link.spanId he).symm
    have hparent : child.parentSpanId = some s.spanId := (congrArg Link.parentSpanId he).trans hchild
    rw [hspan] at hrow
    -- Above a child there is the child, and then what is above the span.
    have hsame : ∀ {r}, r ∈ s.records → child.spanId = r.spanId → r = child := fun hr hs =>
      Table.eq_of_clash hr hmem (Or.inr hs.symm)
    generalize hid : child.spanId = id at hrow
    cases hrow with
    | self hr =>
      rw [hsame hr hid]
      exact Or.inr ⟨hmem, hparent⟩
    | up hr hp htop =>
      rw [hsame hr hid, hparent] at hp
      cases hp
      exact Or.inl htop

/-- The links of a step whose local links are in order are all in order if those of the store are: one that is not
local is the link of another span, and its parent is not the span. -/
theorem TopologyStep.links_of_local (hlinks : ∀ row ∈ db.records, LinkInOrder db.records row)
    (hlocal : ∀ row, s.Local row → LinkInOrder s.records row) : ∀ row ∈ s.records, LinkInOrder s.records row := by
  obtain ⟨stored, hs⟩ := s.exists_stored hdb hp
  have hspan := s.spanId_eq hdb
  intro row hrow
  by_cases hchild : row.parentSpanId = some s.spanId
  · exact hlocal row (Or.inr ⟨hrow, hchild⟩)
  · rcases hs.mem.mp hrow with ⟨hold, -⟩ | rfl
    · intro parent hparent
      obtain ⟨hself, hpresent⟩ := hlinks row hold parent hparent
      refine ⟨hself, fun q hq hqs => ?_⟩
      rcases hs.mem.mp hq with ⟨hq, -⟩ | rfl
      · exact hpresent q hq hqs
      · refine absurd ?_ hchild
        rw [hparent, ← hqs, hs.spanId, hspan]
    · apply hlocal
      left
      rw [hspan, ← hs.spanId]
      exact .self hrow

/-- A link of the store that is not in order stays so. -/
theorem TopologyStep.links_before (h : ∀ row ∈ s.records, LinkInOrder s.records row) :
    ∀ row ∈ db.records, LinkInOrder db.records row := by
  intro row hrow parent hparent
  obtain ⟨row', hrow', he⟩ := s.exists_link hdb hp hrow
  have hspan : row'.spanId = row.spanId := congrArg Link.spanId he
  have htrace : row'.traceId = row.traceId := congrArg Link.traceId he
  have hkind : row'.kind = row.kind := congrArg Link.kind he
  obtain ⟨hself, hpresent⟩ := h row' hrow' parent ((congrArg Link.parentSpanId he).trans hparent)
  refine ⟨fun hs => hself (hs.trans hspan.symm), fun q hq hqs => ?_⟩
  obtain ⟨q', hq', hqe⟩ := s.exists_link hdb hp hq
  have hqtrace : q'.traceId = q.traceId := congrArg Link.traceId hqe
  have hqkind : q'.kind = q.kind := congrArg Link.kind hqe
  have := hpresent q' hq' ((congrArg Link.spanId hqe).trans hqs)
  rwa [hqtrace, hqkind, htrace, hkind] at this

theorem TopologyStep.contains_resolved {parent : String} :
    s.resolved.Has (fun t => t.spanId = parent) ↔ TopologyContains db parent ∨ parent = s.spanId := by
  obtain ⟨linked, hl⟩ := s.exists_linked hdb hp
  have hspan := s.spanId_eq hdb
  have hlinked : linked.spanId = s.spanId := (congrArg Link.spanId hl.link).trans hspan.symm
  simp only [TopologyContains, Table.has_iff, TopologyStep.resolved, mem_resolveChildren, hl.mem, ← hspan]
  constructor
  · rintro ⟨_, ⟨t, ⟨ht, -⟩ | rfl, rfl⟩, rfl⟩
    · exact Or.inl ⟨t, ht, by split <;> rfl⟩
    · exact Or.inr (by split <;> exact hlinked)
  · rintro (⟨t, ht, rfl⟩ | rfl)
    · by_cases hts : t.spanId = s.spanId
      · exact ⟨_, ⟨linked, Or.inr rfl, rfl⟩, by split <;> exact hlinked.trans hts.symm⟩
      · exact ⟨_, ⟨t, Or.inl ⟨ht, hts⟩, rfl⟩, by split <;> rfl⟩
    · exact ⟨_, ⟨linked, Or.inr rfl, rfl⟩, by split <;> exact hlinked⟩

/-- **The step keeps the flags right.** -/
theorem TopologyStep.flags (hflags : ∀ row ∈ db.topology, row.unresolved = true ↔
      ∃ parent, row.parentSpanId = some parent ∧ ¬ TopologyContains db parent) :
    ∀ row ∈ s.resolved, row.unresolved = true ↔
      ∃ parent, row.parentSpanId = some parent ∧ ¬ s.resolved.Has (fun t => t.spanId = parent) := by
  obtain ⟨linked, hl⟩ := s.exists_linked hdb hp
  have hcontains : ∀ parent, s.resolved.Has (fun t => t.spanId = parent) ↔ TopologyContains db parent ∨ parent = s.spanId :=
    fun parent => s.contains_resolved hdb hp
  intro t' ht'
  obtain ⟨t, ht, rfl⟩ := mem_resolveChildren.mp ht'
  by_cases hchild : t.parentSpanId = some s.spanId
  · rw [if_pos hchild]
    refine iff_of_false Bool.false_ne_true ?_
    rintro ⟨parent, hparent, hn⟩
    obtain rfl := Option.some.inj (hparent.symm.trans hchild)
    exact hn ((hcontains _).mpr (Or.inr rfl))
  · rw [if_neg hchild]
    -- The parent, if there is one, is not the span, and so it is there exactly when it was.
    have hsame : (∃ parent, t.parentSpanId = some parent ∧ ¬ s.resolved.Has fun r => r.spanId = parent) ↔
        ∃ parent, t.parentSpanId = some parent ∧ ¬ TopologyContains db parent := by
      refine exists_congr fun parent => and_congr_right fun hparent => not_congr ?_
      rw [hcontains]
      refine or_iff_left ?_
      rintro rfl
      exact hchild hparent
    rw [hsame]
    rcases (hl.mem t).mp ht with ⟨ht, -⟩ | rfl
    · exact hflags t ht
    · have hparent : t.parentSpanId = p.state.parentSpanId.map (·.asStr) := congrArg Link.parentSpanId hl.link
      rw [hl.unresolved, hparent]
      cases p.state.parentSpanId <;> simp

end Steps

end AgentObservability.Store
