import AgentObservability.Store.TierSpec

/-!
# What a retention pass selects

The selection of a retention pass, in both directions: a selected trace is
`Outdated`, its links are resolved and its observations older than the cutoff
(`selectRetention_ok`);
and a store with one such trace, which fits the bounds, has a plan that selects
it (`selectRetention_of`).
-/

namespace AgentObservability.Store

open Domain Contracts Foundation

variable {db : Db} {cutoffUnixMs : ℕ}

/-! ### The age of a trace -/

theorem foldl_max_le_iff {l : List ℕ} {a n : ℕ} : l.foldl max a ≤ n ↔ a ≤ n ∧ ∀ x ∈ l, x ≤ n := by
  induction l generalizing a with
  | nil => simp
  | cons x l ih =>
    rw [List.foldl_cons, ih, max_le_iff, List.forall_mem_cons, and_assoc]

/-- The latest observation of a trace is the largest of its observation times. -/
theorem latestObservedAt_le_iff {t : String} {n : ℕ} :
    db.latestObservedAt t ≤ n ↔ ∀ row ∈ db.observations, row.traceId = t → row.observedAt ≤ n := by
  simp only [Db.latestObservedAt, foldl_max_le_iff, Nat.zero_le, true_and, List.forall_mem_map, Table.mem_select,
    and_imp]

theorem le_latestObservedAt {row : ObservationRow} (h : row ∈ db.observations) :
    row.observedAt ≤ db.latestObservedAt row.traceId :=
  latestObservedAt_le_iff.mp (Nat.le_refl _) row h rfl

/-- The traces that may expire have observations, and all of them are older than the cutoff. -/
theorem mem_expirableTraces {t : String} : t ∈ expirableTraces db cutoffUnixMs ↔
    (∃ row ∈ db.observations, row.traceId = t) ∧ db.latestObservedAt t < cutoffUnixMs := by
  have hlist : t ∈ expirableTraces db cutoffUnixMs ↔ t ∈ (db.observations.rows.map (·.traceId)).dedup.filter
      fun x => db.latestObservedAt x < cutoffUnixMs := by
    simp only [expirableTraces, List.mem_map, List.mem_insertionSort]
    exact ⟨fun ⟨_, ⟨x, hx, rfl⟩, ht⟩ => ht ▸ hx, fun ht => ⟨_, ⟨t, ht, rfl⟩, rfl⟩⟩
  rw [hlist, List.mem_filter, List.mem_dedup, List.mem_map, decide_eq_true_eq]
  rfl

/-- A single trace that may expire is the whole list. -/
theorem expirableTraces_eq_singleton {t : String} (h : ∀ x, x ∈ expirableTraces db cutoffUnixMs ↔ x = t) :
    expirableTraces db cutoffUnixMs = [t] := by
  set candidates := (db.observations.rows.map (·.traceId)).dedup.filter fun x => db.latestObservedAt x < cutoffUnixMs
    with hcandidates
  have hmem : ∀ x, x ∈ candidates ↔ x ∈ [t] := by
    intro x
    rw [List.mem_singleton, ← h x, mem_expirableTraces, hcandidates, List.mem_filter, List.mem_dedup, List.mem_map,
      decide_eq_true_eq]
    rfl
  have hnodup : candidates.Nodup := (List.nodup_dedup _).filter _
  have hsingle : candidates = [t] :=
    List.perm_singleton.mp ((List.perm_ext_iff_of_nodup hnodup (List.nodup_singleton t)).mpr hmem)
  rw [expirableTraces, ← hcandidates, hsingle]
  rfl

variable [Sha2]

/-! ### The selection -/

/-- The replay guard that a retention pass leaves of a record. -/
def retentionGuard (row : RecordRow) : SpanGuardRow := ⟨row.spanId, canonicalStateHash row.state⟩

theorem selectRecords_ok {limit : ℕ} {rows : List RecordRow} :
    ∀ {groupBytes groupBytes' : ℕ} {guards guards' : List SpanGuardRow},
      selectRecords limit rows groupBytes guards = .ok (some (groupBytes', guards')) →
        guards' = guards ++ rows.map retentionGuard := by
  induction rows with
  | nil =>
    intro groupBytes groupBytes' guards guards' h
    cases h
    simp
  | cons row rows ih =>
    intro groupBytes groupBytes' guards guards' h
    obtain ⟨state, hstate, h⟩ := bind_eq_ok.mp h
    obtain ⟨rfl, -⟩ := stateFromJson_ok hstate
    dsimp only at h
    split at h
    · cases h
    · rw [ih h, List.append_assoc]
      rfl

/-- The loop adds traces it was given, whose links are resolved, and the guards of their records. -/
structure SelectsFrom (db : Db) (ids : List String) (s s' : SelectionState) : Prop where
  /-- Traces stay selected. -/
  kept : ∀ t ∈ s.traceIds, t ∈ s'.traceIds
  /-- Only these are added. -/
  added : ∀ t ∈ s'.traceIds, t ∈ s.traceIds ∨ t ∈ ids ∧ ¬ HasUnresolved db.topology t
  /-- A guard is one of their records. -/
  guards : ∀ guard ∈ s'.spanGuards, guard ∈ s.spanGuards ∨
    ∃ t ∈ s'.traceIds, ∃ row ∈ db.recordsOf t, guard = retentionGuard row

/-- The loop over further traces. -/
theorem SelectsFrom.cons {id : String} {ids : List String} {s s' : SelectionState} (h : SelectsFrom db ids s s') :
    SelectsFrom db (id :: ids) s s' where
  kept := h.kept
  added t ht := (h.added t ht).imp_right fun hnew => ⟨List.mem_cons_of_mem _ hnew.1, hnew.2⟩
  guards := h.guards

theorem selectTraces_ok {bounds : RetentionBounds} {ids : List String} :
    ∀ {s s' : SelectionState}, selectTraces db cutoffUnixMs bounds ids s = .ok s' → SelectsFrom db ids s s' := by
  have hstop : ∀ {ids : List String} {s : SelectionState}, SelectsFrom db ids s { s with truncated := true } := by
    intro ids s
    exact ⟨fun t ht => ht, fun t ht => Or.inl ht, fun guard hguard => Or.inl hguard⟩
  induction ids with
  | nil =>
    intro s s' h
    cases h
    exact ⟨fun t ht => ht, fun t ht => Or.inl ht, fun guard hguard => Or.inl hguard⟩
  | cons id ids ih =>
    intro s s' h
    rw [selectTraces] at h
    split at h
    · exact (ih h).cons
    · rename_i hresolved
      dsimp only at h
      split at h
      · exact (ih h).cons
      · split at h
        · cases h
          exact hstop
        · split at h
          · cases h
            exact hstop
          · obtain ⟨r, hr, h⟩ := bind_eq_ok.mp h
            split at h
            · cases h
              exact hstop
            · -- The trace is selected, and the loop goes on.
              have hguards := selectRecords_ok hr
              have hrest := ih h
              refine ⟨fun t ht => hrest.kept t (List.mem_append_left _ ht), fun t ht => ?_, fun guard hguard => ?_⟩
              · rcases hrest.added t ht with hold | ⟨hnew, hr⟩
                · rcases List.mem_append.mp hold with hold | hid
                  · exact Or.inl hold
                  · obtain rfl := List.mem_singleton.mp hid
                    exact Or.inr ⟨List.mem_cons_self, hresolved⟩
                · exact Or.inr ⟨List.mem_cons_of_mem _ hnew, hr⟩
              · rcases hrest.guards guard hguard with hold | hnew
                · rcases List.mem_append.mp hold with hold | hgroup
                  · exact Or.inl hold
                  · rw [hguards, List.nil_append] at hgroup
                    obtain ⟨row, hrow, rfl⟩ := List.mem_map.mp hgroup
                    exact Or.inr ⟨id, hrest.kept id (List.mem_append_right _ (List.mem_singleton_self id)), row, hrow, rfl⟩
                · exact Or.inr hnew

/-- A trace that a pass may expire. -/
structure Outdated (db : Db) (cutoffUnixMs : ℕ) (traceId : String) : Prop where
  /-- It has observations. -/
  observed : ∃ row ∈ db.observations, row.traceId = traceId
  /-- All of them are older than the cutoff. -/
  latest : db.latestObservedAt traceId < cutoffUnixMs
  /-- Its links are resolved. -/
  resolved : ¬ HasUnresolved db.topology traceId

/-- **A selected trace is outdated.** -/
theorem selectRetention_ok {bounds : RetentionBounds} {selection : RetentionSelection}
    (h : selectRetention db cutoffUnixMs bounds = .ok selection) {t : String} (ht : t ∈ selection.traceIds) :
    Outdated db cutoffUnixMs t := by
  simp only [selectRetention, bind_eq_ok, pure_eq_ok] at h
  obtain ⟨-, -, s, hs, -, -, rfl⟩ := h
  rcases (selectTraces_ok hs).added t ht with hnone | ⟨hid, hresolved⟩
  · cases hnone
  · obtain ⟨hobserved, hlatest⟩ := mem_expirableTraces.mp hid
    exact ⟨hobserved, hlatest, hresolved⟩

/-- The guards of a selection are those of records that it selects. -/
theorem selectRetention_guards {bounds : RetentionBounds} {selection : RetentionSelection}
    (h : selectRetention db cutoffUnixMs bounds = .ok selection) {guard : SpanGuardRow}
    (hg : guard ∈ selection.spanGuards) :
    ∃ row ∈ db.records, row.traceId ∈ selection.traceIds ∧ guard = retentionGuard row := by
  simp only [selectRetention, bind_eq_ok, pure_eq_ok] at h
  obtain ⟨-, -, s, hs, -, -, rfl⟩ := h
  rcases (selectTraces_ok hs).guards guard hg with hnone | ⟨t, ht, row, hrow, rfl⟩
  · cases hnone
  · obtain ⟨hmem, rfl⟩ : row ∈ db.records ∧ row.traceId = t := by simpa [Db.recordsOf] using hrow
    exact ⟨row, hmem, ht, rfl⟩

/-! ### A trace that is selected -/

/-- The lines of some records. -/
def recordLinesBytes (rows : List RecordRow) : ℕ := (rows.map fun row => recordLineBytes row.record).sum

theorem selectRecords_of {limit : ℕ} {rows : List RecordRow} (ho : ∀ row ∈ rows, row.state.timing.reversed = false) :
    ∀ {groupBytes : ℕ} {guards : List SpanGuardRow}, groupBytes + recordLinesBytes rows ≤ limit →
      selectRecords limit rows groupBytes guards =
        .ok (some (groupBytes + recordLinesBytes rows, guards ++ rows.map retentionGuard)) := by
  induction rows with
  | nil =>
    intro groupBytes guards _
    simp [selectRecords, recordLinesBytes]
  | cons row rows ih =>
    intro groupBytes guards h
    obtain ⟨hrow, hrows⟩ := List.forall_mem_cons.mp ho
    have hcons : recordLinesBytes (row :: rows) = recordLineBytes row.record + recordLinesBytes rows := by
      simp [recordLinesBytes]
    rw [hcons] at h ⊢
    rw [selectRecords, stateFromJson, require_true hrow, ok_bind, pure_bind]
    dsimp only
    rw [if_neg (by omega), ih hrows (by omega), List.append_assoc, Nat.add_assoc]
    rfl

/-- The plan that expires one trace. -/
def singlePlanId (db : Db) (cutoffUnixMs : ℕ) (traceId : String) : String :=
  retentionPlanId cutoffUnixMs [traceId ++ ":" ++ traceEventsHash (db.observationsOf traceId)]

/-- One trace of a store may expire, and it fits the bounds. -/
structure Expirable (db : Db) (cutoffUnixMs : ℕ) (bounds : RetentionBounds) (traceId : String) : Prop where
  /-- The bounds are admitted. -/
  bounds_ok : validateRetentionBounds bounds = .ok ()
  /-- No other trace may expire. -/
  only : expirableTraces db cutoffUnixMs = [traceId]
  /-- Its links are resolved. -/
  resolved : ¬ HasUnresolved db.topology traceId
  /-- It has records. -/
  nonempty : db.recordsOf traceId ≠ []
  /-- They fit. -/
  records_le : (db.recordsOf traceId).length ≤ bounds.maxArchiveRecords
  /-- Their states do not end before they start. -/
  ordered : ∀ row ∈ db.recordsOf traceId, row.state.timing.reversed = false
  /-- The archive fits, whichever digest its header has. -/
  bytes_le : ∀ planId ∈ [zeroDigest, singlePlanId db cutoffUnixMs traceId],
    headerBytes planId cutoffUnixMs + recordLinesBytes (db.recordsOf traceId) +
      footerBytes 1 (db.recordsOf traceId).length ≤ bounds.maxArchiveBytes

/-- The selection of one trace. -/
def singleSelection (db : Db) (cutoffUnixMs : ℕ) (traceId : String) : RetentionSelection where
  plan :=
    { planId := singlePlanId db cutoffUnixMs traceId, cutoffUnixMs, traces := 1
      observations := (db.observationsOf traceId).length, records := (db.recordsOf traceId).length
      archiveBytes := headerBytes (singlePlanId db cutoffUnixMs traceId) cutoffUnixMs +
        recordLinesBytes (db.recordsOf traceId) + footerBytes 1 (db.recordsOf traceId).length
      truncated := false }
  traceIds := [traceId]
  spanGuards := (db.recordsOf traceId).map retentionGuard

/-- **One trace that may expire and fits is selected.** -/
theorem selectRetention_of {bounds : RetentionBounds} {traceId : String}
    (h : Expirable db cutoffUnixMs bounds traceId) :
    selectRetention db cutoffUnixMs bounds = .ok (singleSelection db cutoffUnixMs traceId) := by
  have hzero := h.bytes_le zeroDigest (by simp)
  have hplan := h.bytes_le (singlePlanId db cutoffUnixMs traceId) (by simp)
  have hrecords := h.records_le
  have hlength : (db.recordsOf traceId).length ≠ 0 := fun h0 => h.nonempty (List.length_eq_zero_iff.mp h0)
  have hselect : selectTraces db cutoffUnixMs bounds [traceId] {} = .ok
      { traceIds := [traceId], spanGuards := (db.recordsOf traceId).map retentionGuard
        planInputs := [traceId ++ ":" ++ traceEventsHash (db.observationsOf traceId)]
        recordBytes := recordLinesBytes (db.recordsOf traceId)
        observationCount := (db.observationsOf traceId).length
        recordCount := (db.recordsOf traceId).length, truncated := false } := by
    have hlimit : ¬ bounds.maxArchiveBytes < 0 + headerBytes zeroDigest cutoffUnixMs +
        footerBytes (0 + 1) (0 + (db.recordsOf traceId).length) := by
      rw [Nat.zero_add, Nat.zero_add, Nat.zero_add]
      omega
    have hgroup : selectRecords (bounds.maxArchiveBytes - (0 + headerBytes zeroDigest cutoffUnixMs +
        footerBytes (0 + 1) (0 + (db.recordsOf traceId).length))) (db.recordsOf traceId) 0 [] =
        .ok (some (0 + recordLinesBytes (db.recordsOf traceId), [] ++ (db.recordsOf traceId).map retentionGuard)) :=
      selectRecords_of h.ordered (by
        rw [Nat.zero_add, Nat.zero_add, Nat.zero_add, Nat.zero_add]
        omega)
    simp only [selectTraces, if_neg h.resolved, if_neg hlength]
    rw [if_neg (by omega)]
    simp only [List.length_nil, if_neg hlimit, hgroup, ok_bind]
    simp
  have hle : headerBytes (singlePlanId db cutoffUnixMs traceId) cutoffUnixMs +
      recordLinesBytes (db.recordsOf traceId) + footerBytes [traceId].length (db.recordsOf traceId).length ≤
        bounds.maxArchiveBytes := hplan
  rw [selectRetention, h.bounds_ok, ok_bind, h.only, hselect, ok_bind]
  simp only [List.isEmpty_cons, Bool.false_eq_true, if_false]
  rw [singlePlanId] at hle
  rw [require_true hle]
  rfl

/-- **A pass with the plan of the trace expires it.** -/
theorem step_retention {call : RetentionCall} {traceId archiveSha256 : String}
    (h : Expirable db call.cutoffUnixMs call.bounds traceId)
    (hplan : call.expectedPlanId = singlePlanId db call.cutoffUnixMs traceId)
    (hreceipts : ∀ row, row ∉ db.retentionReceipts) (hg : db.reportGeneration + 1 < 2 ^ 64)
    (he : db.reportVisibilityEpoch + 1 < 2 ^ 64) :
    ∃ receipts, (Txn.retention call (.ok archiveSha256) (.ok ())).step db = deleteHotTraces
      { db with
        retentionReceipts := receipts
        expiredSpanStates :=
          replaceSpanGuards db.expiredSpanStates ((db.recordsOf traceId).map retentionGuard)
        projectionDirty := true
        reportGeneration := db.reportGeneration + 1
        reportVisibilityEpoch := db.reportVisibilityEpoch + 1 }
      [traceId] := by
  obtain ⟨receipts, hinsert⟩ := Table.exists_insert (t := db.retentionReceipts)
    (r := receiptRow call (singleSelection db call.cutoffUnixMs traceId).plan archiveSha256)
    fun row hrow => absurd hrow (hreceipts row)
  refine ⟨receipts, Txn.step_of_commit ?_⟩
  have hnone : loadRetentionReceipt db call = none := Table.find?_eq_none.mpr fun row hrow => absurd hrow (hreceipts row)
  have hpending : ¬ db.retentionReceipts.Has fun row => row.compacted = false := by
    rintro ⟨row, hrow, -⟩
    exact hreceipts row hrow
  have hid : (singleSelection db call.cutoffUnixMs traceId).plan.planId = call.expectedPlanId := hplan.symm
  have hexpire : expireSelection db call (singleSelection db call.cutoffUnixMs traceId) (.ok archiveSha256) (.ok ()) =
      .ok (deleteHotTraces
        { db with
          retentionReceipts := receipts
          expiredSpanStates :=
            replaceSpanGuards db.expiredSpanStates ((db.recordsOf traceId).map retentionGuard)
          projectionDirty := true
          reportGeneration := db.reportGeneration + 1
          reportVisibilityEpoch := db.reportVisibilityEpoch + 1 }
        [traceId]) := by
    simp only [expireSelection, ok_bind, hinsert, ofOption, advanceGeneration, require_true hg, require_true he]
    rfl
  simp only [Txn.commit, applyRetention, hnone, require_true hpending, ok_bind, selectRetention_of h,
    require_true hid]
  rw [require_true (by rfl), ok_bind, if_neg (by simp [singleSelection]), hexpire]
  rfl

end AgentObservability.Store
