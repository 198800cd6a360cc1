import AgentObservability.Store.Invariant
import AgentObservability.Store.TurnHistory

/-!
# A trace is in one tier

Hot, warm and cold are disjoint, the control tables count what the tiers hold,
and an expired trace is in none of them. All of this follows from `Coherent`.

That a span is in one tier rests on the replay guards: a span that left the hot
tables leaves a guard, and a guarded span is not committed again. The guards are
bounded, and the oldest are pruned. So the spans of `records` and of
`lifecycle_span_control` are disjoint as long as no guard has been pruned
(`spansExclusive_history`), and no longer (`not_spansExclusive`).

## What is proved

* `tierPartition_history`: the tiers are disjoint in every store that a history
  leads to, and the spans are while the guards have room.
-/

namespace AgentObservability.Store

open Domain Contracts Foundation

variable {db db' : Db}

/-! ### Tiers -/

section Tiers

variable [Sha2]

/-- A trace has rows in the hot tables, under its key. -/
def Db.InHot (db : Db) (traceKey : String) : Prop :=
  (∃ row ∈ db.records, hashOpaqueIdentifier row.traceId = traceKey) ∨
  (∃ row ∈ db.topology, hashOpaqueIdentifier row.traceId = traceKey) ∨
  (∃ row ∈ db.observations, hashOpaqueIdentifier row.traceId = traceKey) ∨
  ∃ row ∈ db.hotTraceIndex, hashOpaqueIdentifier row.traceId = traceKey

omit [Sha2] in
/-- A trace has rows in the warm tables. -/
def Db.InWarm (db : Db) (traceKey : String) : Prop :=
  (∃ row ∈ db.warmTraces, row.traceKey = traceKey) ∨ ∃ row ∈ db.warmRecords, row.traceKey = traceKey

omit [Sha2] in
/-- A trace has a row in the cold table. -/
def Db.InCold (db : Db) (traceKey : String) : Prop := ∃ row ∈ db.coldTraces, row.traceKey = traceKey

omit [Sha2] in
/-- A control row counts the copies of its trace. -/
def TraceControlRow.Counts (db : Db) (control : TraceControlRow) : Prop :=
  control.recordCount = (db.spanControl.select fun row => row.traceKey = control.traceKey).length

/-- **Every trace is in one tier, and the control tables agree with it.** -/
structure TierPartition (db : Db) : Prop where
  /-- No trace is hot and warm. -/
  hot_warm : ∀ k, db.InHot k → ¬ db.InWarm k
  /-- No trace is hot and cold. -/
  hot_cold : ∀ k, db.InHot k → ¬ db.InCold k
  /-- No trace is warm and cold. -/
  warm_cold : ∀ k, db.InWarm k → ¬ db.InCold k
  /-- A warm trace has a control row, which counts its copies and its warm records. -/
  warm : ∀ k, db.InWarm k → ∃ control ∈ db.traceControl, control.traceKey = k ∧ control.tier = .warm ∧
    control.Counts db ∧ control.recordCount = (db.warmRecords.select fun row => row.traceKey = k).length
  /-- A cold trace has a control row, which counts its copies. -/
  cold : ∀ k, db.InCold k → ∃ control ∈ db.traceControl, control.traceKey = k ∧ control.tier = .cold ∧
    control.Counts db
  /-- Commit sequences are distinct. -/
  sequences : (db.records.rows.map (·.commitSeq) ++ db.spanControl.rows.map (·.originalCommitSeq)).Nodup
  /-- An expired trace is in no tier. -/
  expired : ∀ row ∈ db.expiredTraceStates,
    ¬ db.InHot row.traceKey ∧ ¬ db.InWarm row.traceKey ∧ ¬ db.InCold row.traceKey

theorem Coherent.inHot (h : Coherent db) {k : String} (hk : db.InHot k) : db.IsHot k := by
  have hhot : ∀ {t}, db.IsHot t → hashOpaqueIdentifier t = k → db.IsHot k := by
    intro t ht he
    rwa [← he, h.hash_of_isHot ht]
  rcases hk with ⟨row, hrow, he⟩ | ⟨row, hrow, he⟩ | ⟨row, hrow, he⟩ | ⟨row, hrow, he⟩
  · exact hhot ⟨row, hrow, rfl⟩ he
  · obtain ⟨r, hr, hl⟩ := (h.topology row.link).mp ⟨row, hrow, rfl⟩
    exact hhot ⟨r, hr, congrArg Link.traceId hl⟩ he
  · exact hhot (h.observations row hrow) he
  · exact hhot ((h.index _).mp ⟨row, hrow, rfl⟩) he

omit [Sha2] in
theorem Coherent.inWarm (h : Coherent db) {k : String} (hk : db.InWarm k) : db.IsInTier k .warm := by
  rcases hk with hk | ⟨row, hrow, rfl⟩
  · exact (h.warmTraces k).mp hk
  · obtain ⟨copy, -, rfl, hw⟩ := (h.warmRecords row).mp hrow
    exact hw

omit [Sha2] in
/-- The warm records of a warm trace are as many as its copies. -/
theorem Coherent.length_warmRecords (h : Coherent db) {k : String} (hk : db.IsInTier k .warm) :
    (db.warmRecords.select fun row => row.traceKey = k).length = (db.copiesOf k).length := by
  have hcopies : ((db.copiesOf k).map (·.toWarm)).Nodup := by
    refine List.Nodup.map_on (fun a ha b hb he => ?_) ?_
    · exact Table.eq_of_clash (Table.mem_select.mp ha).1 (Table.mem_select.mp hb).1
        (Or.inl (congrArg WarmRecordRow.spanId he))
    · exact (db.spanControl.distinct.imp fun hab he => hab (Or.inl (by rw [he]))).filter _
  have hwarm : (db.warmRecords.select fun row => row.traceKey = k).Nodup :=
    (db.warmRecords.distinct.imp fun hab he => hab (Or.inl (by rw [he]))).filter _
  have hperm : (db.warmRecords.select fun row => row.traceKey = k).Perm ((db.copiesOf k).map (·.toWarm)) := by
    refine (List.perm_ext_iff_of_nodup hwarm hcopies).mpr fun row => ?_
    rw [Table.mem_select, h.warmRecords, List.mem_map]
    constructor
    · rintro ⟨⟨copy, hcopy, rfl, -⟩, he⟩
      exact ⟨copy, Table.mem_select.mpr ⟨hcopy, he⟩, rfl⟩
    · rintro ⟨copy, hcopy, rfl⟩
      obtain ⟨hcopy, he⟩ := Table.mem_select.mp hcopy
      exact ⟨⟨copy, hcopy, rfl, he ▸ hk⟩, he⟩
  rw [hperm.length_eq, List.length_map]

/-- **Tables that agree partition the traces.** -/
theorem Coherent.tierPartition (h : Coherent db) : TierPartition db := by
  have harchived : ∀ {k tier}, db.IsInTier k tier → db.IsArchived k := fun ⟨row, hrow, hk, _⟩ => ⟨row, hrow, hk⟩
  refine
    { hot_warm := ?_, hot_cold := ?_, warm_cold := ?_, warm := ?_, cold := ?_, sequences := ?_, expired := ?_ }
  · exact fun k hh hw => h.hot_archived k (h.inHot hh) (harchived (h.inWarm hw))
  · exact fun k hh hc => h.hot_archived k (h.inHot hh) (harchived ((h.coldTraces k).mp hc))
  · intro k hw hc
    obtain ⟨row, hrow, hk, ht⟩ := h.inWarm hw
    obtain ⟨row', hrow', hk', ht'⟩ := (h.coldTraces k).mp hc
    rw [Table.eq_of_clash hrow hrow' (hk.trans hk'.symm), ht'] at ht
    cases ht
  · intro k hw
    obtain ⟨control, hcontrol, rfl, ht⟩ := h.inWarm hw
    exact ⟨control, hcontrol, rfl, ht, (h.counts control hcontrol).symm,
      (h.counts control hcontrol).symm.trans (h.length_warmRecords (h.inWarm hw)).symm⟩
  · intro k hc
    obtain ⟨control, hcontrol, rfl, ht⟩ := (h.coldTraces k).mp hc
    exact ⟨control, hcontrol, rfl, ht, (h.counts control hcontrol).symm⟩
  · have := h.distinct
    rwa [Db.knownRows, List.map_append, List.map_map] at this
  · intro row hrow
    have hexpired : db.IsExpired row.traceKey := ⟨row, hrow, rfl⟩
    exact ⟨fun hh => h.expired_hot _ hexpired (h.inHot hh),
      fun hw => h.expired_archived _ hexpired (harchived (h.inWarm hw)),
      fun hc => h.expired_archived _ hexpired (harchived ((h.coldTraces _).mp hc))⟩

end Tiers

/-! ### Spans -/

/-- No span is in `records` and in `lifecycle_span_control`. -/
def SpansExclusive (db : Db) : Prop :=
  ∀ row ∈ db.records, ∀ copy ∈ db.spanControl, row.spanId ≠ copy.spanId

/-- A guarded span is not hot. -/
def GuardsCold (db : Db) : Prop := ∀ guard ∈ db.expiredSpanStates, ∀ row ∈ db.records, row.spanId ≠ guard.spanId

/-- An archived span is guarded. -/
def CopiesGuarded (db : Db) : Prop := ∀ copy ∈ db.spanControl, ∃ guard ∈ db.expiredSpanStates, guard.spanId = copy.spanId

theorem GuardsCold.spansExclusive (h : GuardsCold db) (hc : CopiesGuarded db) : SpansExclusive db := by
  intro row hrow copy hcopy he
  obtain ⟨guard, hguard, hg⟩ := hc copy hcopy
  exact h guard hguard row hrow (he.trans hg.symm)

/-- The guards have room. -/
def GuardsHaveRoom (db : Db) : Prop := db.expiredSpanStates.rows.length < maxExpiredSpanGuards

/-- Replacing guards keeps a guard of every span that had one, and adds one for every new row. -/
theorem exists_replaced {rows : List SpanGuardRow} {s : String} :
    ∀ {guards : Table SpanGuardRow}, ((∃ guard ∈ guards, guard.spanId = s) ∨ ∃ guard ∈ rows, guard.spanId = s) →
      ∃ guard ∈ rows.foldl Table.replace guards, guard.spanId = s := by
  induction rows with
  | nil =>
    rintro guards (h | ⟨_, h, -⟩)
    · exact h
    · cases h
  | cons r rows ih =>
    intro guards h
    refine ih ?_
    by_cases hr : r.spanId = s
    · exact Or.inl ⟨r, Table.mem_replace.mpr (Or.inr rfl), hr⟩
    · rcases h with ⟨guard, hguard, hs⟩ | ⟨guard, hguard, hs⟩
      · exact Or.inl ⟨guard, Table.mem_replace.mpr (Or.inl ⟨hguard, fun he => hr (he.symm.trans hs)⟩), hs⟩
      · rcases List.mem_cons.mp hguard with rfl | hguard
        · exact absurd hs hr
        · exact Or.inr ⟨guard, hguard, hs⟩

/-- A table that was pruned to less than its bound was not pruned. -/
theorem keepNewest_of_lt {guards : Table SpanGuardRow} {n : ℕ} (h : (guards.keepNewest n).rows.length < n) :
    guards.keepNewest n = guards := by
  refine Table.keepNewest_eq_self ?_
  simp only [Table.keepNewest, List.length_drop] at h
  omega

/-- With room, no guard is lost. -/
theorem exists_guard_of_room {guards : Table SpanGuardRow} {rows : List SpanGuardRow} {s : String}
    (hroom : (replaceSpanGuards guards rows).rows.length < maxExpiredSpanGuards)
    (h : (∃ guard ∈ guards, guard.spanId = s) ∨ ∃ guard ∈ rows, guard.spanId = s) :
    ∃ guard ∈ replaceSpanGuards guards rows, guard.spanId = s := by
  unfold replaceSpanGuards at hroom ⊢
  rw [keepNewest_of_lt hroom]
  exact exists_replaced h

/-- The guards of records that leave are guards of no record that stays. -/
theorem GuardsCold.replace (h : GuardsCold db) {rows : List SpanGuardRow} {ids : List String}
    (hrows : ∀ guard ∈ rows, ∃ row ∈ db.records, row.traceId ∈ ids ∧ guard.spanId = row.spanId)
    (hr : ∀ row ∈ db'.records, row ∈ db.records ∧ row.traceId ∉ ids)
    (hg : ∀ guard ∈ db'.expiredSpanStates, guard ∈ replaceSpanGuards db.expiredSpanStates rows) : GuardsCold db' := by
  intro guard hguard row hrow
  obtain ⟨hrow, hid⟩ := hr row hrow
  rcases mem_replaceSpanGuards (hg guard hguard) with hguard | hguard
  · exact h guard hguard row hrow
  · obtain ⟨gone, hgone, hids, he⟩ := hrows guard hguard
    intro hs
    rw [Table.eq_of_clash hrow hgone (Or.inr (hs.trans he))] at hid
    exact hid hids

section Effects

variable [Sha2]

/-- The guards that a move leaves. -/
theorem spanGuards_of_recordsOf (hdb : Coherent db) (T : String) :
    ∀ guard ∈ (db.recordsOf T).map (fun row => spanGuard row.state), ∃ row ∈ db.records,
      row.traceId ∈ [T] ∧ guard.spanId = row.spanId := by
  intro guard hguard
  obtain ⟨row, hrow, rfl⟩ := List.mem_map.mp hguard
  obtain ⟨hrow, ht⟩ := mem_recordsOf.mp hrow
  exact ⟨row, hrow, List.mem_singleton.mpr ht, (hdb.mirrors row (Db.mem_knownRows.mpr (Or.inl hrow))).spanId.symm⟩

/-- **A guarded span is never hot.** -/
theorem preserved_guardsCold : Preserved (fun _ _ => True) (fun _ _ => True) GuardsCold where
  unquiet _ _ := trivial
  quiet := by
    rintro db db' h ⟨_, _, _, _, _, _, _, _, _, rfl⟩
    exact h
  rehydrate := by
    intro db o p control db₁ _ h _ _ _ _ r guard hguard row hrow
    rw [r.result] at hguard
    obtain ⟨hguard, hkept⟩ := Table.mem_delete.mp hguard
    rcases r.mem_records.mp hrow with hrow | ⟨copy, hcopy, rfl⟩
    · exact h guard hguard row hrow
    · exact fun he => hkept (List.any_eq_true.mpr ⟨copy, hcopy, decide_eq_true he⟩)
  commit := by
    intro _ db o p _ _ _ _ _ _ hdb h hp _ hu c guard hguard row hrow
    obtain ⟨stored, hs⟩ := c.exists_stored (fun r hr => hdb.mirrors r (Db.mem_knownRows.mpr (Or.inl hr))) hp
    rcases hs.mem.mp hrow with ⟨hrow, -⟩ | rfl
    · exact h guard hguard row hrow
    · rw [hs.spanId]
      exact fun he => Table.find?_eq_none.mp hu.guard guard hguard he.symm
  move := by
    intro db db' candidate now transition hdb h _ hmv _
    cases hmv with
    | hotToWarm | hotToCold | purgeHot =>
      refine h.replace (spanGuards_of_recordsOf hdb candidate.identity) (fun row hrow => Table.mem_delete.mp hrow) ?_
      intro guard hguard
      rwa [deleteHotTrace, expiredSpanStates_deleteHotTraces] at hguard
    | warmToCold | purgeWarm | purgeCold => exact fun guard hguard row hrow => h guard hguard row hrow
  expire := by
    intro db cutoff bounds selection hdb h hs _
    refine h.replace (fun guard hguard => ?_) (fun row hrow => Table.mem_delete.mp hrow) (fun guard hguard => hguard)
    obtain ⟨row, hrow, hid, rfl⟩ := selectRetention_guards hs hguard
    exact ⟨row, hrow, hid, rfl⟩

/-- **While the guards have room, every archived span has one.** -/
theorem preserved_copiesGuarded : Preserved (fun _ _ => True) (fun _ db => GuardsHaveRoom db) CopiesGuarded where
  unquiet := by
    rintro pass db db' h ⟨_, _, _, _, _, _, _, _, _, rfl⟩
    exact h
  quiet := by
    rintro db db' h ⟨_, _, _, _, _, _, _, _, _, rfl⟩
    exact h
  rehydrate := by
    intro db o p control db₁ _ h _ _ _ _ r copy hcopy
    rw [r.result] at hcopy ⊢
    obtain ⟨hcopy, hk⟩ := Table.mem_delete.mp hcopy
    obtain ⟨guard, hguard, he⟩ := h copy hcopy
    refine ⟨guard, Table.mem_delete.mpr ⟨hguard, fun hany => ?_⟩, he⟩
    obtain ⟨copy', hcopy', he'⟩ := List.any_eq_true.mp hany
    obtain ⟨hmem, hk'⟩ := mem_spansOf.mp hcopy'
    rw [Table.eq_of_clash hcopy hmem (Or.inl (he.symm.trans (of_decide_eq_true he').symm))] at hk
    exact hk hk'
  commit _ _ _ _ _ _ _ h _ _ _ _ := h
  move := by
    intro db db' candidate now transition hdb h _ hmv hroom
    have hspan : ∀ row ∈ db.recordsOf candidate.identity, ∃ guard ∈ (db.recordsOf candidate.identity).map
        (fun row => spanGuard row.state), guard.spanId = row.spanId := by
      intro row hrow
      refine ⟨_, List.mem_map.mpr ⟨row, hrow, rfl⟩, ?_⟩
      exact (hdb.mirrors row (Db.mem_knownRows.mpr (Or.inl (mem_recordsOf.mp hrow).1))).spanId.symm
    cases hmv with
    | hotToWarm _ ha | hotToCold _ ha =>
      intro copy hcopy
      refine exists_guard_of_room hroom ?_
      rcases (Table.mem_insertAll ha.spans).mp hcopy with hcopy | hcopy
      · exact Or.inl (h copy hcopy)
      · obtain ⟨row, hrow, rfl⟩ := List.mem_map.mp hcopy
        exact Or.inr (hspan row hrow)
    | warmToCold => exact h
    | purgeHot => exact fun copy hcopy => exists_guard_of_room hroom (Or.inl (h copy hcopy))
    | purgeWarm | purgeCold => exact fun copy hcopy => h copy (Table.mem_delete.mp hcopy).1
  expire _ h _ hroom copy hcopy := exists_guard_of_room hroom (Or.inl (h copy hcopy))

/-- **The spans are exclusive while the guards have room.** -/
theorem spansExclusive_history {ts : List Txn}
    (h : Along Txn.step (fun db t => GuardsHaveRoom (t.step db)) Db.empty ts) : SpansExclusive (history ts) := by
  have hcold : GuardsCold (history ts) :=
    preserved_guardsCold.history_true (fun guard hguard => absurd hguard (Table.not_mem_empty guard)) ts
  refine hcold.spansExclusive (preserved_copiesGuarded.history (fun copy hcopy => ?_) ?_)
  · exact absurd hcopy (Table.not_mem_empty copy)
  · exact h.mono fun db t hroom => ⟨ingests_true db t, by cases t <;> first | exact hroom | trivial⟩

end Effects

/-- **The tiers are disjoint after every history, and the spans are while the guards have room.** -/
theorem tierPartition_history [Sha2] (ts : List Txn) : TierPartition (history ts) ∧ GuardsCold (history ts) ∧
    (Along Txn.step (fun db t => GuardsHaveRoom (t.step db)) Db.empty ts → SpansExclusive (history ts)) :=
  ⟨(coherent_history ts).tierPartition,
    preserved_guardsCold.history_true (fun guard hguard => absurd hguard (Table.not_mem_empty guard)) ts,
    spansExclusive_history⟩

/-! ### A guard that was pruned -/

/-- A turn of its own stream, trace and span is archived. -/
def archiveTurn (n : Number) : List Txn :=
  [.ingest (turnOf n n n none 100), .maintain (requestAfter 1 2 3650) {} (hotCandidate n 100) (.ok ())]

/-- The turns below a number are archived one after the other. -/
def archiveTurns : ℕ → List Txn
  | 0 => []
  | n + 1 => archiveTurns n ++ archiveTurn (Fin.ofNat _ n)

/-- The numbers below a bound. -/
def below (n : ℕ) : Set Number := {m | m.val < n}

theorem insert_below {n : ℕ} (h : n < 2 ^ 32) : insert (Fin.ofNat _ n) (below n) = below (n + 1) := by
  ext m
  have hval : (Fin.ofNat (2 ^ 32) n).val = n := Nat.mod_eq_of_lt h
  simp only [below, Set.mem_insert_iff, Set.mem_ofPred_eq, Fin.ext_iff, hval]
  omega

theorem not_mem_below {n : ℕ} (h : n < 2 ^ 32) : Fin.ofNat _ n ∉ below n := fun hm =>
  Nat.lt_irrefl n ((Nat.mod_eq_of_lt h).symm.trans_lt hm)

/-- The spans of the turns below a number. -/
def spansBelow (n : ℕ) : List String := (List.range n).map fun i => (numberedId (Fin.ofNat _ i)).asStr

/-- A store that archived the turns below a number. -/
structure ArchivedBelow (db : Db) (n : ℕ) : Prop where
  /-- The tables agree. -/
  coherent : Coherent db
  /-- What the store names. -/
  within : Within db (below n) (below n) ∅ ∅
  /-- No record is left. -/
  records : ∀ row, row ∉ db.records
  /-- No index row is left. -/
  index : ∀ row, row ∉ db.hotTraceIndex
  /-- No outcome is left. -/
  outcomes : ∀ row, row ∉ db.deliveryOutcomes
  /-- The traces are those of the turns. -/
  control : ∀ row ∈ db.traceControl, row.traceKey ∈ ids (below n)
  /-- The first turn is archived. -/
  first : 0 < n → ∃ copy ∈ db.spanControl, copy.spanId = (numberedId 0).asStr
  /-- The newest guards are kept. -/
  guards : db.expiredSpanStates.rows.map (·.spanId) = (spansBelow n).drop (n - maxExpiredSpanGuards)
  /-- Two generations passed for each turn. -/
  generation : db.reportGeneration = 2 * n
  /-- At most one epoch passed for each turn. -/
  epoch : db.reportVisibilityEpoch ≤ n

/-- The newest guards of the spans below a number, after one more. -/
theorem keepNewest_spans {guards : Table SpanGuardRow} {guard : SpanGuardRow} {n bound : ℕ} (hb : 0 < bound)
    (hg : guards.rows.map (·.spanId) = (spansBelow n).drop (n - bound))
    (hs : guard.spanId = (numberedId (Fin.ofNat _ n)).asStr) (hnew : ∀ row ∈ guards, row.spanId ≠ guard.spanId) :
    ((guards.replace guard).keepNewest bound).rows.map (·.spanId) = (spansBelow (n + 1)).drop (n + 1 - bound) := by
  have hrows : (guards.replace guard).rows = guards.rows ++ [guard] := by
    have hfilter : guards.rows.filter (fun x => decide (¬ Keyed.Clash x guard)) = guards.rows :=
      List.filter_eq_self.mpr fun x hx => decide_eq_true (hnew x hx)
    simp only [Table.replace, hfilter]
  have hspans : spansBelow (n + 1) = spansBelow n ++ [guard.spanId] := by
    rw [hs, spansBelow, List.range_succ, List.map_append]
    rfl
  have hlength : guards.rows.length = n - (n - bound) := by
    have := congrArg List.length hg
    simpa [spansBelow] using this
  have hdrop : (spansBelow n).drop (n - bound) ++ [guard.spanId] = (spansBelow (n + 1)).drop (n - bound) := by
    rw [hspans, List.drop_append_of_le_length]
    simp [spansBelow]
  have hsum : n - bound + (n - (n - bound) + 1 - bound) = n + 1 - bound := by omega
  rw [Table.keepNewest, List.map_drop, hrows, List.map_append, hg, List.length_append, hlength, List.map_singleton,
    hdrop, List.drop_drop, List.length_singleton, hsum]

/-- One more turn is archived. -/
theorem ArchivedBelow.succ {db : Db} {n : ℕ} (h : ArchivedBelow db n) (hn : n < 2 ^ 30) :
    ArchivedBelow (After (@Txn.step sha256) db (archiveTurn (Fin.ofNat _ n))) (n + 1) := by
  let : Sha2 := sha256
  have hlt : n < 2 ^ 32 := hn.trans (by decide)
  have hnew : Fin.ofNat _ n ∉ below n := not_mem_below hlt
  have hfits : TurnFits db (Fin.ofNat _ n) (Fin.ofNat _ n) (Fin.ofNat _ n) none 100 :=
    h.within.turnFits h.coherent hnew hnew (Set.notMem_empty _) (Set.notMem_empty _) nofun nofun
      (by rw [h.generation]; omega)
  have hcopies : ∀ copy ∈ db.spanControl, copy.spanId ≠ (numberedId (Fin.ofNat _ n)).asStr := fun copy hcopy =>
    ne_of_mem_ids (h.within.known copy.toRecord (Db.mem_knownRows.mpr (Or.inr ⟨copy, hcopy, rfl⟩))) hnew
  have harchived : ¬ db.IsArchived (numberedId (Fin.ofNat _ n)).asStr := fun ⟨row, hrow, hk⟩ =>
    ne_of_mem_ids (h.control row hrow) hnew hk
  have hc := invariant_after (C := fun _ _ => True) (fun db t (h : Coherent db) _ => h.step t) h.coherent
    (along_true (archiveTurn (Fin.ofNat _ n)))
  have ha : Nonempty (TurnArchived db (turnOf (Fin.ofNat _ n) (Fin.ofNat _ n) (Fin.ofNat _ n) none 100) .cold 100
      (After Txn.step db (archiveTurn (Fin.ofNat _ n)))) :=
    exists_turnArchived h.coherent h.records h.index hcopies harchived hfits
      (by rw [h.generation]; omega) (lt_of_le_of_lt (Nat.succ_le_succ h.epoch) (by omega)) rfl
  obtain ⟨a⟩ := ha
  generalize After Txn.step db (archiveTurn (Fin.ofNat _ n)) = db' at a hc ⊢
  refine
    { coherent := hc, within := ?within, records := a.records, index := a.index, outcomes := a.outcomes h.outcomes
      control := ?control, first := fun _ => ?first, guards := ?guards, generation := ?generation, epoch := ?epoch }
  case within => simpa only [insert_below hlt] using a.within h.within h.outcomes
  case control =>
    obtain ⟨control, hkey, -, -, hcontrol⟩ := a.archived.control
    intro row hrow
    rcases (hcontrol row).mp hrow with hrow | rfl
    · rw [a.turn.traceControl] at hrow
      exact ids_mono (fun m hm => Nat.lt_succ_of_lt hm) (h.control row hrow)
    · rw [hkey]
      exact mem_ids.mpr ((insert_below hlt).subset (Set.mem_insert _ _))
  case first =>
    rcases Nat.eq_zero_or_pos n with rfl | hpos
    · exact ⟨_, (a.copies _).mpr (Or.inr rfl), rfl⟩
    · obtain ⟨copy, hcopy, he⟩ := h.first hpos
      exact ⟨copy, (a.copies copy).mpr (Or.inl hcopy), he⟩
  case guards =>
    rw [a.guards]
    exact keepNewest_spans (Nat.succ_pos _) h.guards rfl fun row hrow => ne_of_mem_ids (h.within.guards row hrow) hnew
  case generation =>
    rw [a.archived.generation, a.turn.generation, h.generation]
    omega
  case epoch => exact a.archived.epoch.trans (Nat.succ_le_succ (by rw [a.turn.epoch]; exact h.epoch))

theorem archivedBelow_history {n : ℕ} (hn : n ≤ 2 ^ 30) : ArchivedBelow (@history sha256 (archiveTurns n)) n := by
  let : Sha2 := sha256
  induction n with
  | zero =>
    refine ⟨coherent_empty, ?_, Table.not_mem_empty, Table.not_mem_empty, Table.not_mem_empty, ?_, nofun, rfl, rfl,
      Nat.le_refl 0⟩
    · exact within_empty.mono (Set.empty_subset _) (Set.empty_subset _) (Set.Subset.refl _) (Set.Subset.refl _)
    · exact fun row hrow => absurd hrow (Table.not_mem_empty row)
  | succ n ih =>
    rw [archiveTurns, history_append]
    exact (ih (Nat.le_of_succ_le hn)).succ hn

/-- A turn of the span of the first turn, in another trace. -/
def secondTurn : SourceObservation := turnOf 200000 200000 0 none 100

/-- **One guard too many, and the span of the first turn is hot and archived.** -/
theorem not_spansExclusive :
    ¬ SpansExclusive (@history sha256 (archiveTurns (maxExpiredSpanGuards + 1) ++ [.ingest secondTurn])) := by
  let : Sha2 := sha256
  have h : ArchivedBelow (history (archiveTurns (maxExpiredSpanGuards + 1))) (maxExpiredSpanGuards + 1) :=
    archivedBelow_history (by decide)
  rw [history_concat]
  generalize history (archiveTurns (maxExpiredSpanGuards + 1)) = db at h ⊢
  have hstream : (200000 : Number) ∉ below (maxExpiredSpanGuards + 1) := fun hm =>
    absurd (show (200000 : Number).val < 100001 from hm) (by decide)
  -- The guard of the first span was the oldest.
  have hguard : ∀ row ∈ db.expiredSpanStates, row.spanId ≠ (numberedId 0).asStr := by
    intro row hrow he
    have hmem : row.spanId ∈ (spansBelow (maxExpiredSpanGuards + 1)).drop 1 := by
      have : row.spanId ∈ db.expiredSpanStates.rows.map (·.spanId) := List.mem_map_of_mem hrow
      rwa [h.guards, Nat.add_sub_cancel_left] at this
    rw [spansBelow, List.range_succ_eq_map, List.map_cons, List.drop_one, List.tail_cons, List.map_map] at hmem
    obtain ⟨i, hi, hrow⟩ := List.mem_map.mp hmem
    have hval := congrArg Fin.val (numberedId_inj.mp (hrow.trans he))
    have hlt : i < maxExpiredSpanGuards := List.mem_range.mp hi
    have : (Fin.ofNat (2 ^ 32) (i + 1)).val = i + 1 := Nat.mod_eq_of_lt (by unfold maxExpiredSpanGuards at hlt; omega)
    rw [Nat.succ_eq_add_one, this] at hval
    cases hval
  have hfits : TurnFits db 200000 200000 0 none 100 :=
    { inputs := fun row hrow => ne_of_mem_ids (h.within.inputs row hrow) hstream
      cursors := fun row hrow => ne_of_mem_ids (h.within.cursors row hrow) hstream
      dispositions := fun row hrow => ne_of_mem_ids (h.within.dispositions row hrow) hstream
      observations := fun row hrow => ne_of_mem_ids (h.within.observations row hrow) hstream
      events := fun row hrow => absurd (h.within.observed row hrow) (Set.notMem_empty _)
      outcomes := fun row hrow => absurd hrow (h.outcomes row)
      expired := fun ⟨row, hrow, _⟩ => by
        obtain ⟨n, hn, -⟩ := h.within.gone row hrow
        exact hn
      record := fun row hrow => absurd hrow (h.records row)
      guard := hguard
      children := fun row hrow => by
        obtain ⟨r, hr, -⟩ := (h.coherent.topology row.link).mp ⟨row, hrow, rfl⟩
        exact absurd hr (h.records r)
      parent_ne := nofun
      parent := nofun
      index := fun row hrow => absurd hrow (h.index row)
      generation := by rw [h.generation]; decide }
  have hs : TurnStored db secondTurn ((Txn.ingest secondTurn).step db) :=
    step_turn h.coherent (fun ⟨row, hrow, hk⟩ => ne_of_mem_ids (h.control row hrow) hstream hk) hfits
  obtain ⟨copy, hcopy, he⟩ := h.first (Nat.succ_pos _)
  intro hex
  refine hex _ ((hs.records _).mpr (Or.inr rfl)) copy ?_ he.symm
  rw [hs.spanControl]
  exact hcopy

end AgentObservability.Store
