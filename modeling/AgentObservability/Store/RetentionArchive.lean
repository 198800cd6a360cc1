import AgentObservability.Contracts.Identifiers
import AgentObservability.Store.Coherence
import AgentObservability.Store.Turns

/-!
# The selection and the archive of a retention pass

`select_retention` goes through the outdated traces, the oldest first, and stops at
the first that does not fit. It counts the bytes of the archive before the plan has
an id, with a digest of zeros in the header and in the footer, and the footer is
counted again for every trace because its numbers grow.

## What is proved

* `selectTraces_exact`: one run of the loop takes a prefix of the traces it may
  take, keeps the totals (`Tally`), and says so when it stops early.
* `selectRetention_exact`: on every store that a history leads to a pass with
  admitted bounds has a selection, which is as `SelectionExact` says.
-/

namespace AgentObservability.Store

open Domain Contracts Foundation

variable {db : Db} {cutoffUnixMs : ℕ} {bounds : RetentionBounds}

/-! ### The archive file -/

/-- `RetentionArchiveEntry`. -/
inductive RetentionArchiveEntry where
  /-- `Header`. -/
  | header (schemaVersion planId : String) (cutoffUnixMs : ℕ)
  /-- `Record`. -/
  | record (record : DurableRecordV1)
  /-- `Footer`. -/
  | footer (traces records : ℕ) (recordsSha256 : String)

/-- An entry as `serde_json` writes it. -/
def RetentionArchiveEntry.json : RetentionArchiveEntry → Text
  | .header schemaVersion planId cutoffUnixMs =>
    Json.object [("entry_type", Json.str "header"), ("schema_version", Json.str schemaVersion),
      ("plan_id", Json.str planId), ("cutoff_unix_ms", Json.nat cutoffUnixMs)]
  | .record r => Json.object [("entry_type", Json.str "record"), ("record", r.json)]
  | .footer traces records recordsSha256 =>
    Json.object [("entry_type", Json.str "footer"), ("traces", Json.nat traces), ("records", Json.nat records),
      ("records_sha256", Json.str recordsSha256)]

/-- The line that `write_archive_entry` writes. -/
def RetentionArchiveEntry.line (entry : RetentionArchiveEntry) : Text := entry.json ++ ["\n"]

/-- The lines of the records of the selected traces, in the order of the selection and of the commits. -/
def recordLines (db : Db) (traceIds : List String) : Text :=
  (traceIds.flatMap db.recordsOf).flatMap fun row => (RetentionArchiveEntry.record row.record).line

/-- `write_archive`: the content of the file, and its digest. -/
def writeArchive [Sha2] (db : Db) (selection : RetentionSelection) : Except StoreError (Text × String) := do
  let header := (RetentionArchiveEntry.header retentionArchiveVersion selection.plan.planId
    selection.plan.cutoffUnixMs).line
  let lines := recordLines db selection.traceIds
  let records := (selection.traceIds.flatMap db.recordsOf).length
  require (records = selection.plan.records) .schemaMismatch
  let footer := (RetentionArchiveEntry.footer selection.plan.traces records (Sha2.hexDigest (utf8 lines))).line
  let file := header ++ lines ++ footer
  require (byteLength file = selection.plan.archiveBytes) .schemaMismatch
  pure (file, Sha2.hexDigest (utf8 file))

/-! ### Its length -/

theorem byteLength_line (entry : RetentionArchiveEntry) : byteLength entry.line = byteLength entry.json + 1 := by
  rw [RetentionArchiveEntry.line, byteLength_append]
  rfl

/-- A digest has no character that JSON escapes. -/
theorem byteLength_str_of_isDigest {text : String} (h : IsDigest text) : byteLength (Json.str text) = 66 := by
  obtain ⟨hlength, hdigits⟩ := h
  have hall : ("0123456789abcdef".toList.all fun c => Json.escape c = [c] ∧ c.utf8Size = 1) = true := by decide
  have hescape : ∀ c ∈ "0123456789abcdef".toList, Json.escape c = [c] ∧ c.utf8Size = 1 := fun c hc =>
    of_decide_eq_true (List.all_eq_true.mp hall c hc)
  have hflat : text.toList.flatMap Json.escape = text.toList := by
    conv_rhs => rw [← List.flatMap_singleton' text.toList]
    exact List.flatMap_congr fun c hc => (hescape c (hdigits c hc)).1
  have hsize : (String.ofList text.toList).utf8ByteSize = text.toList.length :=
    utf8ByteSize_of_ascii fun c hc => (hescape c (hdigits c hc)).2
  have hquote : ("\"" : String).utf8ByteSize = 1 := rfl
  rw [String.length_toList, hlength, String.ofList_toList] at hsize
  simp [Json.str, hflat, byteLength, hquote, hsize]

theorem isDigest_zeroDigest : IsDigest zeroDigest := by
  have hzero : '0' ∈ "0123456789abcdef".toList := by decide
  constructor
  · unfold zeroDigest
    exact String.length_ofList.trans List.length_replicate
  · unfold zeroDigest
    intro c hc
    rw [String.toList_ofList] at hc
    exact List.eq_of_mem_replicate hc ▸ hzero

/-- The length of an object with a value exchanged for one of the same length. -/
theorem byteLength_object_congr {m m' : List (String × Text)}
    (h : List.Forall₂ (fun x y => x.1 = y.1 ∧ byteLength x.2 = byteLength y.2) m m') :
    byteLength (Json.object m) = byteLength (Json.object m') := by
  have hcommas : byteLength (Json.commas (m.map fun x => "\"" :: x.1 :: "\":" :: x.2)) =
      byteLength (Json.commas (m'.map fun x => "\"" :: x.1 :: "\":" :: x.2)) := by
    induction h with
    | nil => rfl
    | cons hx h ih =>
      obtain ⟨hkey, hvalue⟩ := hx
      cases h with
      | nil => simp_all [Json.commas, byteLength]
      | cons hy h =>
        simp only [Json.commas, List.map_cons, List.intersperse_cons_cons, List.flatten_cons, byteLength_append] at ih ⊢
        simp_all [byteLength]
  show byteLength (["\x7b"] ++ Json.commas _ ++ ["\x7d"]) = byteLength (["\x7b"] ++ Json.commas _ ++ ["\x7d"])
  rw [byteLength_append, byteLength_append, byteLength_append, byteLength_append, hcommas]

theorem headerBytes_congr {planId planId' : String} (h : IsDigest planId) (h' : IsDigest planId') (cutoffUnixMs : ℕ) :
    headerBytes planId cutoffUnixMs = headerBytes planId' cutoffUnixMs := by
  have hvalue := (byteLength_str_of_isDigest h).trans (byteLength_str_of_isDigest h').symm
  exact congrArg (· + 1) (byteLength_object_congr
    (.cons ⟨rfl, rfl⟩ (.cons ⟨rfl, rfl⟩ (.cons ⟨rfl, hvalue⟩ (.cons ⟨rfl, rfl⟩ .nil)))))

/-- The footer is as long as the one that was counted. -/
theorem byteLength_footer {digest : String} (h : IsDigest digest) (traces records : ℕ) :
    byteLength (RetentionArchiveEntry.footer traces records digest).line = footerBytes traces records := by
  have hvalue := (byteLength_str_of_isDigest h).trans (byteLength_str_of_isDigest isDigest_zeroDigest).symm
  rw [byteLength_line, RetentionArchiveEntry.json, footerBytes]
  exact congrArg (· + 1) (byteLength_object_congr
    (.cons ⟨rfl, rfl⟩ (.cons ⟨rfl, rfl⟩ (.cons ⟨rfl, rfl⟩ (.cons ⟨rfl, hvalue⟩ .nil)))))

theorem byteLength_recordLines (traceIds : List String) :
    byteLength (recordLines db traceIds) = (traceIds.map fun t => recordLinesBytes (db.recordsOf t)).sum := by
  have hrows : ∀ rows : List RecordRow,
      byteLength (rows.flatMap fun row => (RetentionArchiveEntry.record row.record).line) = recordLinesBytes rows := by
    intro rows
    induction rows with
    | nil => rfl
    | cons row rows ih =>
      rw [List.flatMap_cons, byteLength_append, ih, byteLength_line]
      simp [recordLinesBytes, recordLineBytes, RetentionArchiveEntry.json]
  rw [recordLines, hrows]
  induction traceIds with
  | nil => rfl
  | cons t traceIds ih =>
    have happend : ∀ rows rows' : List RecordRow,
        recordLinesBytes (rows ++ rows') = recordLinesBytes rows + recordLinesBytes rows' := by simp [recordLinesBytes]
    rw [List.flatMap_cons, happend, ih, List.map_cons, List.sum_cons]

/-! ### The loop -/

/-- A trace that the loop may take: its links are resolved, and it has records. -/
def Takeable (db : Db) (traceId : String) : Prop := ¬ HasUnresolved db.topology traceId ∧ db.recordsOf traceId ≠ []

instance (db : Db) (traceId : String) : Decidable (Takeable db traceId) := inferInstanceAs (Decidable (_ ∧ _))

/-- The totals of the loop are those of the traces it has taken, and they are within the bounds. -/
structure Tally (db : Db) (cutoffUnixMs : ℕ) (bounds : RetentionBounds) (s : SelectionState) : Prop where
  /-- The records. -/
  records : s.recordCount = (s.traceIds.map fun t => (db.recordsOf t).length).sum
  /-- The observations. -/
  observations : s.observationCount = (s.traceIds.map fun t => (db.observationsOf t).length).sum
  /-- The bytes of the records. -/
  bytes : s.recordBytes = (s.traceIds.map fun t => recordLinesBytes (db.recordsOf t)).sum
  /-- The records fit. -/
  records_le : s.recordCount ≤ bounds.maxArchiveRecords
  /-- The archive fits. -/
  bytes_le : s.traceIds ≠ [] → headerBytes zeroDigest cutoffUnixMs + s.recordBytes +
    footerBytes s.traceIds.length s.recordCount ≤ bounds.maxArchiveBytes

theorem tally_nil : Tally db cutoffUnixMs bounds {} :=
  ⟨rfl, rfl, rfl, Nat.zero_le _, fun h => absurd rfl h⟩

section Loop

variable [Sha2]

/-- The records of a trace that does not fit are given up. -/
theorem selectRecords_none {limit : ℕ} {rows : List RecordRow} (ho : ∀ row ∈ rows, row.state.timing.reversed = false) :
    ∀ {groupBytes : ℕ} {guards : List SpanGuardRow}, groupBytes ≤ limit → limit < groupBytes + recordLinesBytes rows →
      selectRecords limit rows groupBytes guards = .ok none := by
  induction rows with
  | nil =>
    intro groupBytes guards hle hlt
    simp only [recordLinesBytes, List.map_nil, List.sum_nil] at hlt
    omega
  | cons row rows ih =>
    intro groupBytes guards hle hlt
    obtain ⟨hrow, hrows⟩ := List.forall_mem_cons.mp ho
    have hcons : recordLinesBytes (row :: rows) = recordLineBytes row.record + recordLinesBytes rows := by
      simp [recordLinesBytes]
    rw [hcons] at hlt
    rw [selectRecords, stateFromJson, require_true hrow, ok_bind, pure_bind]
    dsimp only
    by_cases hfits : limit < groupBytes + recordLineBytes row.record
    · rw [if_pos hfits]
      rfl
    · rw [if_neg hfits]
      exact ih hrows (by omega) (by omega)

/-- The state of the loop behind one more trace. -/
def SelectionState.take (s : SelectionState) (db : Db) (traceId : String) : SelectionState where
  traceIds := s.traceIds ++ [traceId]
  spanGuards := s.spanGuards ++ (db.recordsOf traceId).map retentionGuard
  planInputs := s.planInputs ++ [traceId ++ ":" ++ traceEventsHash (db.observationsOf traceId)]
  recordBytes := s.recordBytes + recordLinesBytes (db.recordsOf traceId)
  observationCount := s.observationCount + (db.observationsOf traceId).length
  recordCount := s.recordCount + (db.recordsOf traceId).length
  truncated := s.truncated

/-- One more trace fits into the archive. -/
def SelectionState.Fits (s : SelectionState) (db : Db) (cutoffUnixMs : ℕ) (bounds : RetentionBounds) (traceId : String) :
    Prop :=
  s.recordCount + (db.recordsOf traceId).length ≤ bounds.maxArchiveRecords ∧
    s.recordBytes + headerBytes zeroDigest cutoffUnixMs +
      footerBytes (s.traceIds.length + 1) (s.recordCount + (db.recordsOf traceId).length) +
      recordLinesBytes (db.recordsOf traceId) ≤ bounds.maxArchiveBytes

instance (s : SelectionState) (db : Db) (cutoffUnixMs : ℕ) (bounds : RetentionBounds) (traceId : String) :
    Decidable (s.Fits db cutoffUnixMs bounds traceId) := inferInstanceAs (Decidable (_ ∧ _))

/-- One round of the loop: a trace that it may not take is passed over, one that fits is taken, and at the first that
does not fit the loop stops. -/
theorem selectTraces_cons (ho : ∀ row ∈ db.records, row.state.timing.reversed = false) (traceId : String)
    (traceIds : List String) (s : SelectionState) :
    selectTraces db cutoffUnixMs bounds (traceId :: traceIds) s =
      if Takeable db traceId then
        if s.Fits db cutoffUnixMs bounds traceId then
          selectTraces db cutoffUnixMs bounds traceIds (s.take db traceId)
        else .ok { s with truncated := true }
      else selectTraces db cutoffUnixMs bounds traceIds s := by
  have hordered : ∀ row ∈ db.recordsOf traceId, row.state.timing.reversed = false := fun row hrow =>
    ho row (mem_recordsOf.mp hrow).1
  rw [selectTraces]
  by_cases hresolved : HasUnresolved db.topology traceId
  · rw [if_pos hresolved, if_neg fun h : Takeable db traceId => h.1 hresolved]
  · by_cases hempty : db.recordsOf traceId = []
    · rw [if_neg hresolved, if_neg fun h : Takeable db traceId => h.2 hempty]
      exact if_pos (List.length_eq_zero_iff.mpr hempty)
    · have hlength : (db.recordsOf traceId).length ≠ 0 := fun h => hempty (List.length_eq_zero_iff.mp h)
      have htake : Takeable db traceId := ⟨hresolved, hempty⟩
      rw [if_neg hresolved, if_pos htake]
      dsimp only
      rw [if_neg hlength]
      by_cases hrecords : bounds.maxArchiveRecords < s.recordCount + (db.recordsOf traceId).length
      · rw [if_pos hrecords, if_neg fun h : s.Fits db cutoffUnixMs bounds traceId => absurd h.1 (Nat.not_le.mpr hrecords)]
      · rw [if_neg hrecords]
        set fixed := s.recordBytes + headerBytes zeroDigest cutoffUnixMs +
          footerBytes (s.traceIds.length + 1) (s.recordCount + (db.recordsOf traceId).length) with hfixed
        by_cases hfits : s.Fits db cutoffUnixMs bounds traceId
        · have hle : fixed + recordLinesBytes (db.recordsOf traceId) ≤ bounds.maxArchiveBytes := hfits.2
          rw [if_pos hfits, if_neg (by omega), selectRecords_of hordered (by omega), ok_bind]
          simp only [List.nil_append, Nat.zero_add]
          rfl
        · rw [if_neg hfits]
          have hlt : bounds.maxArchiveBytes < fixed + recordLinesBytes (db.recordsOf traceId) := by
            by_contra hle
            exact hfits ⟨Nat.le_of_not_lt hrecords, Nat.le_of_not_lt hle⟩
          by_cases hfixedfits : bounds.maxArchiveBytes < fixed
          · rw [if_pos hfixedfits]
          · rw [if_neg hfixedfits, selectRecords_none hordered (Nat.zero_le _) (by omega), ok_bind]
            rfl

theorem Tally.take {s : SelectionState} {traceId : String} (h : Tally db cutoffUnixMs bounds s)
    (hfits : s.Fits db cutoffUnixMs bounds traceId) : Tally db cutoffUnixMs bounds (s.take db traceId) where
  records := by simp [SelectionState.take, h.records]
  observations := by simp [SelectionState.take, h.observations]
  bytes := by simp [SelectionState.take, h.bytes]
  records_le := hfits.1
  bytes_le _ := by
    have := hfits.2
    simp only [SelectionState.take, List.length_append, List.length_singleton]
    omega

/-- **The loop takes a prefix of the traces it may take, keeps the totals, and says when it stops early.** -/
theorem selectTraces_exact (ho : ∀ row ∈ db.records, row.state.timing.reversed = false) (traceIds : List String) :
    ∀ s : SelectionState, Tally db cutoffUnixMs bounds s → s.truncated = false →
      ∃ s' taken rest, selectTraces db cutoffUnixMs bounds traceIds s = .ok s' ∧ Tally db cutoffUnixMs bounds s' ∧
        traceIds.filter (Takeable db) = taken ++ rest ∧ s'.traceIds = s.traceIds ++ taken ∧
        (s'.truncated = false ↔ rest = []) := by
  induction traceIds with
  | nil =>
    intro s htally hs
    exact ⟨s, [], [], rfl, htally, rfl, (List.append_nil _).symm, iff_of_true hs rfl⟩
  | cons traceId traceIds ih =>
    intro s htally hs
    rw [selectTraces_cons ho]
    by_cases htake : Takeable db traceId
    · rw [if_pos htake, List.filter_cons, if_pos (decide_eq_true htake)]
      by_cases hfits : s.Fits db cutoffUnixMs bounds traceId
      · rw [if_pos hfits]
        obtain ⟨s', taken, rest, hrun, htally', hsplit, hids, htruncated⟩ := ih _ (htally.take hfits) hs
        refine ⟨s', traceId :: taken, rest, hrun, htally', congrArg _ hsplit, ?_, htruncated⟩
        rw [hids, SelectionState.take, List.append_assoc, List.singleton_append]
      · rw [if_neg hfits]
        refine ⟨_, [], _, rfl, ⟨htally.records, htally.observations, htally.bytes, htally.records_le, htally.bytes_le⟩,
          rfl, (List.append_nil _).symm, ?_⟩
        exact iff_of_false Bool.true_eq_false.mp (List.cons_ne_nil _ _)
    · rw [if_neg htake, List.filter_cons, if_neg (by simpa using htake)]
      exact ih s htally hs

end Loop

/-! ### The order -/

/-- An observed trace all of whose observations are older than the cutoff, whose links are resolved, and with records. -/
def Eligible (db : Db) (cutoffUnixMs : ℕ) (traceId : String) : Prop :=
  (∃ row ∈ db.observations, row.traceId = traceId) ∧
    (∀ row ∈ db.observations, row.traceId = traceId → row.observedAt < cutoffUnixMs) ∧
    (∃ row ∈ db.records, row.traceId = traceId) ∧ ¬ HasUnresolved db.topology traceId

/-- The order of a plan: by the latest observation, and then by the id. -/
def Older (db : Db) (a b : String) : Prop :=
  db.latestObservedAt a < db.latestObservedAt b ∨ db.latestObservedAt a = db.latestObservedAt b ∧ a < b

theorem expirableTraces_older : (expirableTraces db cutoffUnixMs).Pairwise (Older db) := by
  set candidates := ((db.observations.rows.map (·.traceId)).dedup.filter fun traceId =>
    db.latestObservedAt traceId < cutoffUnixMs).map fun traceId => (db.latestObservedAt traceId, traceId)
    with hcandidates
  set le : ℕ × String → ℕ × String → Prop := fun a b => a.1 < b.1 ∨ (a.1 = b.1 ∧ a.2 ≤ b.2) with hle
  have : Std.Total le := ⟨fun a b => by
    rcases lt_trichotomy a.1 b.1 with h | h | h
    · exact Or.inl (Or.inl h)
    · rcases le_total a.2 b.2 with h' | h'
      · exact Or.inl (Or.inr ⟨h, h'⟩)
      · exact Or.inr (Or.inr ⟨h.symm, h'⟩)
    · exact Or.inr (Or.inl h)⟩
  have : IsTrans (ℕ × String) le := ⟨by
    rintro a b c (hab | ⟨hab, hab'⟩) (hbc | ⟨hbc, hbc'⟩)
    · exact Or.inl (hab.trans hbc)
    · exact Or.inl (hbc ▸ hab)
    · exact Or.inl (hab ▸ hbc)
    · exact Or.inr ⟨hab.trans hbc, hab'.trans hbc'⟩⟩
  have hsorted : (candidates.insertionSort le).Pairwise le := List.pairwise_insertionSort le candidates
  have hperm : (candidates.insertionSort le).Perm candidates := List.perm_insertionSort le candidates
  have hlatest : ∀ c ∈ candidates.insertionSort le, c.1 = db.latestObservedAt c.2 := by
    intro c hc
    obtain ⟨t, -, rfl⟩ := List.mem_map.mp (hperm.mem_iff.mp hc)
    rfl
  have hnodup : ((candidates.insertionSort le).map (·.2)).Nodup := by
    refine (hperm.map _).nodup_iff.mpr ?_
    rw [hcandidates, List.map_map]
    exact ((List.nodup_dedup _).filter _).map fun _ _ h => h
  show ((candidates.insertionSort le).map (·.2)).Pairwise (Older db)
  rw [List.pairwise_map]
  have hdistinct := List.pairwise_map.mp hnodup
  refine (hsorted.and hdistinct).imp_of_mem ?_
  rintro a b ha hb ⟨hab | ⟨hab, hab'⟩, hne⟩
  · exact Or.inl (by rwa [hlatest a ha, hlatest b hb] at hab)
  · exact Or.inr ⟨by rwa [hlatest a ha, hlatest b hb] at hab, lt_of_le_of_ne hab' hne⟩

/-- The eligible traces in the order of a plan. -/
def eligibleTraces (db : Db) (cutoffUnixMs : ℕ) : List String :=
  (expirableTraces db cutoffUnixMs).filter (Takeable db)

theorem eligibleTraces_older : (eligibleTraces db cutoffUnixMs).Pairwise (Older db) := expirableTraces_older.filter _

theorem mem_eligibleTraces {t : String} : t ∈ eligibleTraces db cutoffUnixMs ↔ Eligible db cutoffUnixMs t := by
  have hrecords : db.recordsOf t ≠ [] ↔ ∃ row ∈ db.records, row.traceId = t := by
    constructor
    · intro h
      obtain ⟨row, hrow⟩ := List.exists_mem_of_ne_nil _ h
      exact ⟨row, mem_recordsOf.mp hrow⟩
    · rintro ⟨row, hrow⟩
      exact List.ne_nil_of_mem (mem_recordsOf.mpr hrow)
  rw [eligibleTraces, List.mem_filter, decide_eq_true_eq, mem_expirableTraces, Takeable, hrecords, Eligible]
  constructor
  · rintro ⟨⟨hobserved, hlatest⟩, hresolved, hrecord⟩
    refine ⟨hobserved, fun row hrow ht => ?_, hrecord, hresolved⟩
    exact (ht ▸ le_latestObservedAt hrow).trans_lt hlatest
  · rintro ⟨hobserved, holder, hrecord, hresolved⟩
    refine ⟨⟨hobserved, ?_⟩, hresolved, hrecord⟩
    obtain ⟨row, hrow, ht⟩ := hobserved
    have hpos := holder row hrow ht
    have hle : db.latestObservedAt t ≤ cutoffUnixMs - 1 := latestObservedAt_le_iff.mpr fun row hrow ht => by
      have := holder row hrow ht
      omega
    omega

/-- A list strictly ordered has every member of a longer one only if it is that one. -/
theorem suffix_eq_nil {taken rest : List String} (h : (taken ++ rest).Pairwise (Older db))
    (hall : ∀ t ∈ taken ++ rest, t ∈ taken) : rest = [] := by
  have hirrefl : ∀ t, ¬ Older db t t := by
    rintro t (h | ⟨-, h⟩)
    · exact lt_irrefl _ h
    · exact lt_irrefl _ h
  rw [List.eq_nil_iff_forall_not_mem]
  intro t ht
  exact hirrefl t ((List.pairwise_append.mp h).2.2 t (hall t (List.mem_append_right _ ht)) t ht)

/-! ### The selection -/

section Selections

variable [Sha2]

/-- What a selection says. -/
structure SelectionExact (db : Db) (cutoffUnixMs : ℕ) (bounds : RetentionBounds) (selection : RetentionSelection) :
    Prop where
  /-- The selected traces are the first of the eligible ones. -/
  selected : ∃ eligible : List String, (∀ t, t ∈ eligible ↔ Eligible db cutoffUnixMs t) ∧
    eligible.Pairwise (Older db) ∧ selection.traceIds <+: eligible
  /-- The plan is truncated unless all are selected. -/
  truncated : selection.plan.truncated = false ↔ ∀ t, Eligible db cutoffUnixMs t → t ∈ selection.traceIds
  /-- Their number. -/
  traces : selection.plan.traces = selection.traceIds.length
  /-- Their records. -/
  records : selection.plan.records =
    (selection.traceIds.map fun t => (db.records.select fun row => row.traceId = t).length).sum
  /-- Their observations. -/
  observations : selection.plan.observations =
    (selection.traceIds.map fun t => (db.observations.select fun row => row.traceId = t).length).sum
  /-- The records fit. -/
  records_le : selection.plan.records ≤ bounds.maxArchiveRecords
  /-- The archive fits. -/
  bytes_le : selection.plan.archiveBytes ≤ bounds.maxArchiveBytes
  /-- A file that is written has the length that was counted. -/
  archiveBytes : ∀ file digest, writeArchive db selection = .ok (file, digest) →
    byteLength file = selection.plan.archiveBytes
  /-- The file of a selection is written; without a selection there is none. -/
  written : selection.traceIds ≠ [] → ∃ file digest, writeArchive db selection = .ok (file, digest)
  /-- Without a selection no bytes are counted. -/
  empty : selection.traceIds = [] → selection.plan.archiveBytes = 0

/-- **The selection of a retention pass is exact.** On every store that a history leads to a pass with admitted bounds
has a selection: its traces are the first of the eligible ones, it is truncated unless these are all, its totals are
theirs and within the bounds, and the archive of it has exactly the bytes it counted. -/
theorem selectRetention_exact [HexDigest] (ts : List Txn) (cutoffUnixMs : ℕ) (bounds : RetentionBounds)
    (hbounds : validateRetentionBounds bounds = .ok ()) :
    ∃ selection, selectRetention (history ts) cutoffUnixMs bounds = .ok selection ∧
      SelectionExact (history ts) cutoffUnixMs bounds selection := by
  have hdb := coherent_history ts
  have ho : ∀ row ∈ (history ts).records, row.state.timing.reversed = false := fun row hrow =>
    (hdb.mirrors row (Db.mem_knownRows.mpr (Or.inl hrow))).ordered
  generalize history ts = db at ho ⊢
  have hnil : Tally db cutoffUnixMs bounds {} := tally_nil
  obtain ⟨s, taken, rest, hrun, htally, hsplit, hids, htruncated⟩ :=
    selectTraces_exact ho (expirableTraces db cutoffUnixMs) {} hnil rfl
  simp only [List.nil_append] at hids
  subst hids
  have hplan : IsDigest (retentionPlanId cutoffUnixMs s.planInputs) := HexDigest.isDigest _
  have hheader := headerBytes_congr hplan isDigest_zeroDigest cutoffUnixMs
  set archiveBytes := if s.traceIds.isEmpty then 0
    else headerBytes (retentionPlanId cutoffUnixMs s.planInputs) cutoffUnixMs + s.recordBytes +
      footerBytes s.traceIds.length s.recordCount with harchive
  have hempty : s.traceIds = [] → archiveBytes = 0 := fun h => by rw [harchive, h]; rfl
  have hfull : s.traceIds ≠ [] → archiveBytes = headerBytes (retentionPlanId cutoffUnixMs s.planInputs) cutoffUnixMs +
      s.recordBytes + footerBytes s.traceIds.length s.recordCount := fun h => by
    rw [harchive, if_neg (by simpa using h)]
  have hle : archiveBytes ≤ bounds.maxArchiveBytes := by
    by_cases h : s.traceIds = []
    · rw [hempty h]
      exact Nat.zero_le _
    · rw [hfull h, hheader]
      exact htally.bytes_le h
  have hlength : ∀ t, (db.recordsOf t).length = (db.records.select fun row => row.traceId = t).length := fun t =>
    length_sortByKey
  have hselect : selectRetention db cutoffUnixMs bounds = .ok
      { plan :=
          { planId := retentionPlanId cutoffUnixMs s.planInputs, cutoffUnixMs, traces := s.traceIds.length
            observations := s.observationCount, records := s.recordCount, archiveBytes, truncated := s.truncated }
        traceIds := s.traceIds
        spanGuards := s.spanGuards } := by
    rw [selectRetention, hbounds, ok_bind, hrun, ok_bind]
    exact bind_eq_ok.mpr ⟨(), require_eq_ok.mpr hle, rfl⟩
  refine ⟨_, hselect, ?_⟩
  refine
    { selected := ⟨eligibleTraces db cutoffUnixMs, fun t => mem_eligibleTraces, eligibleTraces_older, rest, hsplit.symm⟩
      truncated := ?truncated, traces := rfl, records := ?records, observations := ?observations
      records_le := htally.records_le, bytes_le := hle, archiveBytes := ?archiveBytes, written := ?written
      empty := hempty }
  case truncated =>
    rw [show _ ↔ _ from htruncated]
    have hmem : ∀ t, Eligible db cutoffUnixMs t ↔ t ∈ s.traceIds ++ rest := fun t => by
      rw [← mem_eligibleTraces, eligibleTraces, hsplit]
    simp only [hmem]
    constructor
    · rintro rfl t ht
      rwa [List.append_nil] at ht
    · intro hall
      have holder : (s.traceIds ++ rest).Pairwise (Older db) := by
        rw [← hsplit]
        exact eligibleTraces_older
      exact suffix_eq_nil holder hall
  case records =>
    rw [show _ = _ from htally.records]
    simp only [hlength]
  case observations =>
    rw [show _ = _ from htally.observations]
    simp only [Db.observationsOf, List.length_insertionSort]
  case archiveBytes =>
    intro file digest h
    simp only [writeArchive, bind_eq_ok, require_eq_ok, pure_eq_ok, Prod.mk.injEq] at h
    obtain ⟨-, -, -, hbytes, rfl, -⟩ := h
    exact hbytes
  case written =>
    intro hne
    have hcount : (s.traceIds.flatMap db.recordsOf).length = s.recordCount := by
      rw [List.length_flatMap, htally.records]
    refine ⟨_, _, bind_eq_ok.mpr ⟨(), require_eq_ok.mpr hcount, bind_eq_ok.mpr ⟨(), require_eq_ok.mpr ?_, rfl⟩⟩⟩
    show _ = archiveBytes
    rw [byteLength_append, byteLength_append, byteLength_footer (HexDigest.isDigest _), byteLength_recordLines,
      ← htally.bytes, hcount, hfull hne, byteLength_line]
    rfl

end Selections

/-- A turn that is older than the cutoff. -/
theorem selectRetention_exact_turn :
    ∃ selection, @selectRetention sha256 (@history sha256 [.ingest (turnOf 0 0 0 none 100)]) 200 ⟨1, 64 * 1024⟩ =
        .ok selection ∧
      @SelectionExact sha256 (@history sha256 [.ingest (turnOf 0 0 0 none 100)]) 200 ⟨1, 64 * 1024⟩ selection :=
  @selectRetention_exact sha256 hexDigest_sha256 _ 200 ⟨1, 64 * 1024⟩ rfl

end AgentObservability.Store
