import AgentObservability.Store.Archive
import AgentObservability.Contracts.Identifiers
import AgentObservability.Foundation.Paging
import AgentObservability.Foundation.KeySort

/-!
# Reading the archive

`query_cold_archives`: a page of the archive, bounded by its traces, its records and its bytes.

## What is proved

`coldArchives_complete`: where every trace fits on a page of its own, asking for page after page
ends and gives every archived trace once, in the order of `archive_seq`; and no page exceeds one of
the three bounds.

A page ends before the first trace that does not fit any more, and the next page begins with it
(`coldLoop_ok`), so `follow_eq` applies to the cursor that a page gives.
-/

namespace AgentObservability.Store

open Domain Contracts Foundation

/-! ### A page -/

/-- A row of `cold_traces` with its `archive_seq`. -/
structure ColdArchiveRow extends ColdTraceRow where
  /-- `archive_seq`. -/
  archiveSeq : ℕ
  deriving DecidableEq

instance : Keyed ColdArchiveRow where
  Clash a b := a.archiveSeq = b.archiveSeq ∨ a.traceKey = b.traceKey
  symm _ _ h := h.imp Eq.symm Eq.symm
  decClash _ _ := inferInstance

/-- `ColdArchiveQuery`. -/
structure ColdArchiveQuery where
  /-- `after_archive_seq`. -/
  afterArchiveSeq : ℕ
  /-- `max_traces`. -/
  maxTraces : ℕ
  /-- `max_records`. -/
  maxRecords : ℕ
  /-- `max_bytes`. -/
  maxBytes : ℕ
  deriving DecidableEq

/-- `ColdArchiveTrace`. -/
structure ColdArchiveTrace where
  /-- `archive_seq`. -/
  archiveSeq : ℕ
  /-- `latest_observed_at_unix_ms`. -/
  latestObservedAt : ℕ
  /-- `archived_at_unix_ms`. -/
  archivedAt : ℕ
  /-- `archive_bytes`. -/
  archiveBytes : ℕ
  /-- `records`. -/
  records : List DurableRecordV1
  deriving DecidableEq

/-- `ColdArchiveBlocked`. -/
structure ColdArchiveBlocked where
  /-- `archive_seq`. -/
  archiveSeq : ℕ
  /-- `records`. -/
  records : ℕ
  /-- `bytes`. -/
  bytes : ℕ
  deriving DecidableEq

/-- What the loop over the rows carries. -/
structure ColdRead where
  /-- `traces`. -/
  traces : List ColdArchiveTrace := []
  /-- `records`. -/
  records : ℕ := 0
  /-- `bytes`. -/
  bytes : ℕ := 0
  /-- `has_more`. -/
  hasMore : Bool := false
  /-- `blocked`. -/
  blocked : Option ColdArchiveBlocked := none
  deriving DecidableEq

/-- `ColdArchivePage`. -/
structure ColdArchivePage extends ColdRead where
  /-- `next_after_archive_seq`. -/
  nextAfterArchiveSeq : ℕ
  deriving DecidableEq

/-- `validate_query`. -/
def validateQuery (request : ColdArchiveQuery) : Except StoreError Unit :=
  require (¬ (2 ^ 63 - 1 < request.afterArchiveSeq ∨ request.maxTraces = 0 ∨ 128 < request.maxTraces ∨
    request.maxRecords = 0 ∨ 100000 < request.maxRecords ∨ request.maxBytes = 0 ∨
    256 * 1024 * 1024 < request.maxBytes)) .invalidRetentionBounds

/-- The records of `archive_blob`, checked against the other columns. -/
def decodeArchive (row : ColdTraceRow) : Except StoreError (List DurableRecordV1) := do
  require (row.archiveBytes = byteLength (Json.array (row.archive.map (·.json)))) .schemaMismatch
  require (row.archive.length = row.recordCount ∧ row.archive ≠ []) .schemaMismatch
  row.archive.forM validateStored
  pure row.archive

/-- The trace of a row. -/
def ColdArchiveRow.trace (row : ColdArchiveRow) : ColdArchiveTrace where
  archiveSeq := row.archiveSeq
  latestObservedAt := row.latestObservedAt
  archivedAt := row.archivedAt
  archiveBytes := row.archiveBytes
  records := row.archive

/-- The loop of `query_cold_archives`. The counts are `u32` and `u64`. -/
def coldLoop (request : ColdArchiveQuery) : List ColdArchiveRow → ColdRead → Except StoreError ColdRead
  | [], page => .ok page
  | row :: rows, page =>
    if request.maxTraces ≤ page.traces.length then .ok { page with hasMore := true }
    else do
      require (row.recordCount < 2 ^ 32 ∧ page.records + row.recordCount < 2 ^ 32 ∧
        page.bytes + row.archiveBytes < 2 ^ 64) .schemaMismatch
      if request.maxRecords < page.records + row.recordCount ∨ request.maxBytes < page.bytes + row.archiveBytes then
        pure { page with hasMore := true, blocked := some ⟨row.archiveSeq, row.recordCount, row.archiveBytes⟩ }
      else do
        let _ ← decodeArchive row.toColdTraceRow
        coldLoop request rows
          { page with
            traces := page.traces ++ [row.trace]
            records := page.records + row.recordCount
            bytes := page.bytes + row.archiveBytes }

/-- The rows after a position, in the order of `archive_seq`. -/
def coldRowsAfter (cold : Table ColdArchiveRow) (after : ℕ) : List ColdArchiveRow :=
  (rowsAfter after (cold.rows.map fun row => (row.archiveSeq, row))).map Prod.snd

/-- `query_cold_archives`. -/
def queryColdArchives (cold : Table ColdArchiveRow) (request : ColdArchiveQuery) : Except StoreError ColdArchivePage := do
  validateQuery request
  let read ← coldLoop request ((coldRowsAfter cold request.afterArchiveSeq).take (request.maxTraces + 1)) {}
  pure { read with
    nextAfterArchiveSeq := (read.traces.getLast?.map (·.archiveSeq)).getD request.afterArchiveSeq }

/-! ### What the loop reads -/

/-- A row is as it was archived. -/
structure ColdTraceRow.Intact (row : ColdTraceRow) : Prop where
  /-- The bytes are those of the archive. -/
  bytes : row.archiveBytes = byteLength (Json.array (row.archive.map (·.json)))
  /-- The records are counted. -/
  count : row.recordCount = row.archive.length
  /-- There is a record. -/
  records : row.archive ≠ []
  /-- The records are valid. -/
  valid : row.archive.forM validateStored = .ok ()

theorem decodeArchive_ok {row : ColdTraceRow} (h : row.Intact) : decodeArchive row = .ok row.archive := by
  unfold decodeArchive
  rw [require_true h.bytes, ok_bind, require_true ⟨h.count.symm, h.records⟩, ok_bind, h.valid]
  rfl

/-- **What is archived is intact.** -/
theorem insertColdTrace_intact [Sha2] {db : Db} {candidate : Candidate} {traceKey : String} {now : ℕ}
    {stored records : List DurableRecordV1} {coldTraces : Table ColdTraceRow} (hrecords : decodeRecords stored = .ok records)
    (h : insertColdTrace db candidate traceKey now records = .ok coldTraces) :
    ∀ row ∈ coldTraces, row ∈ db.coldTraces ∨ row.Intact := by
  simp only [decodeRecords, bind_eq_ok, require_eq_ok, pure_eq_ok] at hrecords
  obtain ⟨_, hvalid, _, hne, rfl⟩ := hrecords
  intro row hrow
  rcases (Table.mem_insert (ofOption_eq_ok.mp h)).mp hrow with hrow | rfl
  · exact .inl hrow
  · exact .inr ⟨rfl, rfl, hne, hvalid⟩

section Page

variable {request : ColdArchiveQuery} {rows : List ColdArchiveRow} {page page' : ColdRead}

/-- A page within its bounds. -/
structure WithinBounds (request : ColdArchiveQuery) (page : ColdRead) : Prop where
  /-- The traces are bounded. -/
  traces : page.traces.length ≤ request.maxTraces
  /-- The records are counted. -/
  count : (page.traces.map fun trace => trace.records.length).sum = page.records
  /-- The records are bounded. -/
  records : page.records ≤ request.maxRecords
  /-- The bytes are counted. -/
  size : (page.traces.map fun trace => trace.archiveBytes).sum = page.bytes
  /-- The bytes are bounded. -/
  bytes : page.bytes ≤ request.maxBytes

theorem withinBounds_empty (request : ColdArchiveQuery) : WithinBounds request {} :=
  ⟨Nat.zero_le _, rfl, Nat.zero_le _, rfl, Nat.zero_le _⟩

/-- A trace that fits is taken. -/
def ColdRead.take (page : ColdRead) (row : ColdArchiveRow) : ColdRead :=
  { page with
    traces := page.traces ++ [row.trace]
    records := page.records + row.recordCount
    bytes := page.bytes + row.archiveBytes }

/-- A row does not fit on a page any more. -/
def Full (request : ColdArchiveQuery) (page : ColdRead) (row : ColdArchiveRow) : Prop :=
  request.maxTraces ≤ page.traces.length ∨ request.maxRecords < page.records + row.recordCount ∨
    request.maxBytes < page.bytes + row.archiveBytes

theorem WithinBounds.take (h : WithinBounds request page) {row : ColdArchiveRow} (hfits : ¬ Full request page row)
    (hcount : row.archive.length = row.recordCount) : WithinBounds request (page.take row) := by
  simp only [Full, not_or, not_le, not_lt] at hfits
  obtain ⟨htraces, hrecords, hbytes⟩ := hfits
  refine ⟨?_, ?_, hrecords, ?_, hbytes⟩
  · rw [ColdRead.take, List.length_append]
    exact htraces
  · rw [ColdRead.take, List.map_append, List.sum_append, h.count]
    simp [ColdArchiveRow.trace, hcount]
  · rw [ColdRead.take, List.map_append, List.sum_append, h.size]
    simp [ColdArchiveRow.trace]

/-- **A page stays within its bounds**, whatever is archived. -/
theorem coldLoop_within : ∀ (rows : List ColdArchiveRow) {page page' : ColdRead}, WithinBounds request page →
    coldLoop request rows page = .ok page' → WithinBounds request page' := by
  intro rows
  induction rows with
  | nil =>
    intro page page' h hloop
    rw [← Except.ok.inj hloop]
    exact h
  | cons row rows ih =>
    intro page page' h hloop
    rw [coldLoop] at hloop
    by_cases htraces : request.maxTraces ≤ page.traces.length
    · rw [if_pos htraces] at hloop
      rw [← Except.ok.inj hloop]
      exact ⟨h.traces, h.count, h.records, h.size, h.bytes⟩
    · rw [if_neg htraces] at hloop
      obtain ⟨_, -, hloop⟩ := bind_eq_ok.mp hloop
      by_cases hover : request.maxRecords < page.records + row.recordCount ∨
          request.maxBytes < page.bytes + row.archiveBytes
      · rw [if_pos hover] at hloop
        rw [← pure_eq_ok.mp hloop]
        exact ⟨h.traces, h.count, h.records, h.size, h.bytes⟩
      · rw [if_neg hover] at hloop
        obtain ⟨records, hdecode, hloop⟩ := bind_eq_ok.mp hloop
        simp only [decodeArchive, bind_eq_ok, require_eq_ok] at hdecode
        obtain ⟨-, -, -, hcount, -⟩ := hdecode
        exact ih (h.take (not_or.mpr ⟨htraces, hover⟩) hcount.1) hloop

/-- A trace that can be read on a page of its own. -/
structure Readable (request : ColdArchiveQuery) (row : ColdArchiveRow) : Prop where
  /-- It is as it was archived. -/
  intact : row.Intact
  /-- Its records fit. -/
  records : row.recordCount ≤ request.maxRecords
  /-- Its bytes fit. -/
  bytes : row.archiveBytes ≤ request.maxBytes

/-- What the loop makes of its rows. -/
structure PageReads (request : ColdArchiveQuery) (rows : List ColdArchiveRow) (page page' : ColdRead)
    (read left : List ColdArchiveRow) : Prop where
  /-- It reads the first rows. -/
  split : rows = read ++ left
  /-- It gives their traces. -/
  traces : page'.traces = page.traces ++ read.map ColdArchiveRow.trace
  /-- It says whether rows are left. -/
  more : page'.hasMore = true ↔ left ≠ []
  /-- The first row that is left does not fit. -/
  stops : ∀ row ∈ left.head?, Full request page' row

/-- **The loop reads rows until one does not fit.** -/
theorem coldLoop_ok (hrecords : request.maxRecords ≤ 100000) (hbytes : request.maxBytes ≤ 256 * 1024 * 1024) :
    ∀ (rows : List ColdArchiveRow) {page : ColdRead}, (∀ row ∈ rows, Readable request row) →
      WithinBounds request page → page.hasMore = false →
      ∃ page' read left, coldLoop request rows page = .ok page' ∧ PageReads request rows page page' read left := by
  intro rows
  induction rows with
  | nil =>
    intro page _ _ hmore
    exact ⟨page, [], [], rfl, rfl, (List.append_nil _).symm, by simp [hmore], nofun⟩
  | cons row rows ih =>
    intro page hrows hpage hmore
    have hrow := hrows row List.mem_cons_self
    rw [coldLoop]
    by_cases htraces : request.maxTraces ≤ page.traces.length
    · rw [if_pos htraces]
      refine ⟨_, [], row :: rows, rfl, rfl, (List.append_nil _).symm, by simp, fun r hr => ?_⟩
      exact .inl htraces
    · have hrange : row.recordCount < 2 ^ 32 ∧ page.records + row.recordCount < 2 ^ 32 ∧
          page.bytes + row.archiveBytes < 2 ^ 64 := by
        have := hrow.records
        have := hrow.bytes
        have := hpage.records
        have := hpage.bytes
        omega
      rw [if_neg htraces, require_true hrange, ok_bind]
      by_cases hover : request.maxRecords < page.records + row.recordCount ∨
          request.maxBytes < page.bytes + row.archiveBytes
      · rw [if_pos hover]
        refine ⟨_, [], row :: rows, rfl, rfl, (List.append_nil _).symm, by simp, fun r hr => ?_⟩
        rw [← Option.some.inj hr]
        exact .inr hover
      · rw [if_neg hover, decodeArchive_ok hrow.intact, ok_bind]
        obtain ⟨page', read, left, hloop, hreads⟩ := ih
          (fun r hr => hrows r (List.mem_cons_of_mem row hr))
          (hpage.take (not_or.mpr ⟨htraces, hover⟩) hrow.intact.count.symm) hmore
        refine ⟨page', row :: read, left, hloop, congrArg _ hreads.split, ?_, hreads.more, hreads.stops⟩
        rw [hreads.traces, ColdRead.take, List.append_assoc]
        rfl

end Page

/-! ### Page after page -/

section Pages

variable {cold : Table ColdArchiveRow} {bounds : ColdArchiveQuery} {after : ℕ}

/-- A page of `query_cold_archives`, with the position of the next one if there is more. -/
def coldPage (cold : Table ColdArchiveRow) (bounds : ColdArchiveQuery) (after : ℕ) :
    Except StoreError (Page ℕ ColdArchiveTrace) := do
  let page ← queryColdArchives cold { bounds with afterArchiveSeq := after }
  pure ⟨page.traces, if page.hasMore then some page.nextAfterArchiveSeq else none⟩

/-- The archive from its beginning, page after page. -/
def readArchive (cold : Table ColdArchiveRow) (bounds : ColdArchiveQuery) (pages : ℕ) :
    Except StoreError (Option (List ColdArchiveTrace)) :=
  follow (fun _ after => coldPage cold bounds after) pages 0 0

/-- An archive whose traces fit on a page each. The database numbers them from one on. -/
structure ReadableArchive (cold : Table ColdArchiveRow) (bounds : ColdArchiveQuery) : Prop where
  /-- The bounds are accepted. -/
  accepted : validateQuery { bounds with afterArchiveSeq := 0 } = .ok ()
  /-- Every trace fits. -/
  readable : ∀ row ∈ cold, Readable bounds row
  /-- Every trace has a number. -/
  numbered : ∀ row ∈ cold, 0 < row.archiveSeq ∧ row.archiveSeq < 2 ^ 63

theorem distinct_archiveSeq (cold : Table ColdArchiveRow) :
    DistinctKeys (cold.rows.map fun row => (row.archiveSeq, row)) := by
  unfold DistinctKeys
  rw [List.map_map]
  exact List.pairwise_map.mpr (cold.distinct.imp fun h heq => h (.inl heq))

theorem mem_coldRowsAfter {row : ColdArchiveRow} (h : row ∈ coldRowsAfter cold after) : row ∈ cold := by
  obtain ⟨r, hr, rfl⟩ := List.mem_map.mp h
  obtain ⟨row, hrow, rfl⟩ := List.mem_map.mp (mem_rowsAfter.mp hr).1
  exact hrow

/-- After rows that were read come those that were not. -/
theorem coldRowsAfter_append {read unread : List ColdArchiveRow} (h : coldRowsAfter cold after = read ++ unread) :
    coldRowsAfter cold (read.foldl (fun _ row => row.archiveSeq) after) = unread := by
  obtain ⟨read', unread', hrows, hread, hunread⟩ := List.map_eq_append_iff.mp h
  have hkey : ∀ r ∈ rowsAfter after (cold.rows.map fun row => (row.archiveSeq, row)), r.1 = r.2.archiveSeq := by
    intro r hr
    obtain ⟨row, -, rfl⟩ := List.mem_map.mp (mem_rowsAfter.mp hr).1
    rfl
  have hposition : ∀ (l : List (ℕ × ColdArchiveRow)) (a : ℕ), (∀ r ∈ l, r.1 = r.2.archiveSeq) →
      (l.map Prod.snd).foldl (fun _ row => row.archiveSeq) a = l.foldl (fun _ r => r.1) a := by
    intro l
    induction l with
    | nil => exact fun _ _ => rfl
    | cons r l ih =>
      intro a hl
      rw [List.map_cons, List.foldl_cons, List.foldl_cons, ← hl r List.mem_cons_self]
      exact ih _ fun r' hr' => hl r' (List.mem_cons_of_mem r hr')
  rw [← hread, hposition read' after fun r hr => hkey r (hrows ▸ List.mem_append_left _ hr), ← hunread, coldRowsAfter,
    rowsAfter_append (distinct_archiveSeq cold) hrows]

/-- From the beginning come all rows. -/
theorem coldRowsAfter_zero (h : ∀ row ∈ cold, 0 < row.archiveSeq) :
    coldRowsAfter cold 0 = sortByKey (·.archiveSeq) cold.rows := by
  have hkeys : (cold.rows.map (·.archiveSeq)).Nodup :=
    List.pairwise_map.mpr (cold.distinct.imp fun h heq => h (.inl heq))
  refine eq_of_strict ?_ (sortByKey_strict hkeys) fun row => ?_
  · refine List.pairwise_map.mpr ((rowsAfter_strict (distinct_archiveSeq cold)).imp_of_mem fun {a b} ha hb hlt => ?_)
    obtain ⟨x, -, rfl⟩ := List.mem_map.mp (mem_rowsAfter.mp ha).1
    obtain ⟨y, -, rfl⟩ := List.mem_map.mp (mem_rowsAfter.mp hb).1
    exact hlt
  · rw [mem_sortByKey]
    constructor
    · exact mem_coldRowsAfter
    · intro hrow
      exact List.mem_map.mpr ⟨(row.archiveSeq, row), mem_rowsAfter.mpr ⟨List.mem_map_of_mem hrow, h row hrow⟩, rfl⟩

/-- The position after the traces of a page. -/
theorem position_eq (read : List ColdArchiveRow) (after : ℕ) :
    (((read.map ColdArchiveRow.trace).getLast?.map (·.archiveSeq)).getD after) =
      read.foldl (fun _ row => row.archiveSeq) after := by
  induction read using List.reverseRecOn with
  | nil => rfl
  | append_singleton read row ih =>
    rw [List.map_append, List.map_singleton, List.getLast?_concat, List.foldl_append]
    rfl

/-- What the bounds that are accepted are. -/
theorem ReadableArchive.bounded (h : ReadableArchive cold bounds) :
    0 < bounds.maxTraces ∧ bounds.maxRecords ≤ 100000 ∧ bounds.maxBytes ≤ 256 * 1024 * 1024 := by
  have haccepted := require_eq_ok.mp h.accepted
  simp only at haccepted
  omega

/-- **A page gives the next traces, and the position of the others.** -/
theorem coldPage_ok (h : ReadableArchive cold bounds) (hafter : after < 2 ^ 63) :
    ∃ page, coldPage cold bounds after = .ok page ∧
      match page.next with
      | none => page.items = (coldRowsAfter cold after).map ColdArchiveRow.trace
      | some next => next < 2 ^ 63 ∧
          page.items ++ (coldRowsAfter cold next).map ColdArchiveRow.trace =
            (coldRowsAfter cold after).map ColdArchiveRow.trace ∧
          (coldRowsAfter cold next).length < (coldRowsAfter cold after).length := by
  obtain ⟨hsome, hrecords, hbytes⟩ := h.bounded
  have hvalid : validateQuery { bounds with afterArchiveSeq := after } = .ok () := by
    have haccepted := require_eq_ok.mp h.accepted
    refine require_eq_ok.mpr ?_
    simp only at haccepted ⊢
    omega
  obtain ⟨read', read, left, hloop, hreads⟩ := @coldLoop_ok { bounds with afterArchiveSeq := after }
    hrecords hbytes ((coldRowsAfter cold after).take (bounds.maxTraces + 1)) {}
    (fun row hrow => by
      have hreadable := h.readable row (mem_coldRowsAfter (List.mem_of_mem_take hrow))
      exact ⟨hreadable.intact, hreadable.records, hreadable.bytes⟩)
    (withinBounds_empty _) rfl
  have htraces : read'.traces = read.map ColdArchiveRow.trace := hreads.traces
  have hwithin := coldLoop_within _ (withinBounds_empty _) hloop
  refine ⟨⟨read'.traces, if read'.hasMore then some ((read'.traces.getLast?.map (·.archiveSeq)).getD after) else none⟩,
    ?_, ?_⟩
  · simp only [coldPage, queryColdArchives, hvalid, hloop, ok_bind]
    rfl
  · cases hmore : read'.hasMore with
    | false =>
      have hleft : left = [] := by
        by_contra hne
        rw [hreads.more.mpr hne] at hmore
        cases hmore
      -- The page ended with the rows, so the limit of the query did not cut them.
      have hall : (coldRowsAfter cold after).take (bounds.maxTraces + 1) = coldRowsAfter cold after := by
        apply List.take_of_length_le
        have hlength := congrArg List.length hreads.split
        have hfew := hwithin.traces
        rw [htraces, List.length_map] at hfew
        rw [hleft, List.append_nil, List.length_take] at hlength
        simp only at hfew
        omega
      show read'.traces = _
      rw [htraces, ← hall, hreads.split, hleft, List.append_nil]
    | true =>
      have hread : read ≠ [] := by
        rintro rfl
        obtain ⟨row, hrow⟩ := Option.isSome_iff_exists.mp (List.isSome_head?.mpr (hreads.more.mp hmore))
        have hcount := hwithin.count
        have hsize := hwithin.size
        rw [htraces] at hcount hsize
        have hmem : row ∈ cold := by
          have hafter : row ∈ coldRowsAfter cold after := by
            apply List.mem_of_mem_take (i := bounds.maxTraces + 1)
            rw [hreads.split]
            exact List.mem_append_right _ (List.mem_of_mem_head? hrow)
          exact mem_coldRowsAfter hafter
        have hreadable := h.readable row hmem
        rcases hreads.stops row hrow with hfull | hfull | hfull
        · rw [htraces] at hfull
          exact absurd hsome (not_lt.mpr hfull)
        · rw [← hcount] at hfull
          exact absurd hfull (not_lt.mpr ((Nat.zero_add _).trans_le hreadable.records))
        · rw [← hsize] at hfull
          exact absurd hfull (not_lt.mpr ((Nat.zero_add _).trans_le hreadable.bytes))
      have hrows : coldRowsAfter cold after =
          read ++ (left ++ (coldRowsAfter cold after).drop (bounds.maxTraces + 1)) := by
        rw [← List.append_assoc, ← hreads.split, List.take_append_drop]
      have hnext := coldRowsAfter_append hrows
      rw [htraces, position_eq]
      simp only [if_true]
      refine ⟨?_, ?_, ?_⟩
      · rw [← position_eq]
        cases hlast : (read.map ColdArchiveRow.trace).getLast? with
        | none => exact hafter
        | some trace =>
          obtain ⟨row, hrow, rfl⟩ := List.mem_map.mp (List.mem_of_getLast? hlast)
          exact (h.numbered row (mem_coldRowsAfter (hrows ▸ List.mem_append_left _ hrow))).2
      · rw [hnext, ← List.map_append, ← hrows]
      · have hlength := congrArg List.length hrows
        have hpos := List.length_pos_of_ne_nil hread
        rw [List.length_append] at hlength
        rw [hnext]
        omega

/-- **The pages of the archive are complete.** -/
theorem coldArchives_complete (cold : Table ColdArchiveRow) (bounds : ColdArchiveQuery) (h : ReadableArchive cold bounds) :
    (∀ pages, cold.rows.length < pages →
      readArchive cold bounds pages = .ok (some ((sortByKey (·.archiveSeq) cold.rows).map ColdArchiveRow.trace))) ∧
    ∀ after page, queryColdArchives cold { bounds with afterArchiveSeq := after } = .ok page →
      WithinBounds bounds page.toColdRead := by
  constructor
  · intro pages hpages
    have hzero := coldRowsAfter_zero fun row hrow => (h.numbered row hrow).1
    have hlength : (coldRowsAfter cold 0).length < pages := by
      rw [hzero, length_sortByKey]
      exact hpages
    rw [← hzero, readArchive]
    refine follow_eq (fun _ after => coldPage cold bounds after) (· < 2 ^ 63)
      (fun after => (coldRowsAfter cold after).map ColdArchiveRow.trace) (fun after => (coldRowsAfter cold after).length)
      (fun _ after hafter => ?_) 0 (Nat.two_pow_pos 63) hlength
    obtain ⟨page, hpage, hnext⟩ := coldPage_ok h hafter
    refine ⟨page, hpage, ?_⟩
    cases hcursor : page.next with
    | none =>
      rw [hcursor] at hnext
      exact hnext
    | some next =>
      rw [hcursor] at hnext
      exact hnext
  · intro after page hpage
    simp only [queryColdArchives, bind_eq_ok, pure_eq_ok] at hpage
    obtain ⟨_, -, read, hloop, rfl⟩ := hpage
    have hwithin := coldLoop_within _ (withinBounds_empty _) hloop
    exact ⟨hwithin.traces, hwithin.count, hwithin.records, hwithin.size, hwithin.bytes⟩

/-- An archived trace of one turn. -/
def turnArchive (archiveSeq : ℕ) (traceKey spanId : String) : ColdArchiveRow where
  archiveSeq := archiveSeq
  traceKey := traceKey
  latestObservedAt := 5
  archivedAt := 9
  recordCount := 1
  archiveBytes := byteLength (Json.array [(turnWithIds traceKey spanId).json])
  archive := [turnWithIds traceKey spanId]

theorem intact_turnArchive (archiveSeq : ℕ) {traceKey spanId : String} (htrace : traceKey ≠ "") (hspan : spanId ≠ "") :
    (turnArchive archiveSeq traceKey spanId).Intact where
  bytes := by simp only [turnArchive, List.map_cons, List.map_nil]
  count := by simp only [turnArchive, List.length_singleton]
  records := List.cons_ne_nil _ _
  valid := by
    have hvalid : (turnWithIds traceKey spanId).validate = .ok () :=
      DurableRecordV1.validate_ok_iff.mpr
        ⟨⟨rfl, rfl⟩, ⟨htrace, hspan, show "turn" ≠ "" by decide⟩, rfl, nofun, nofun, nofun, nofun, nofun, nofun⟩
    refine forM_ok_iff.mpr fun record hrecord => ?_
    rw [List.mem_singleton.mp hrecord, validateStored, hvalid]
    rfl

/-- An archive whose first trace was deleted. -/
def twoArchives : Table ColdArchiveRow := ⟨[turnArchive 3 "t3" "a", turnArchive 4 "t4" "b"], by decide⟩

/-- Bounds for one trace a page. -/
def oneTrace : ColdArchiveQuery := ⟨0, 1, 1, 65536⟩

theorem readable_twoArchives : ReadableArchive twoArchives oneTrace where
  accepted := by decide
  readable row hrow := by
    rcases List.mem_cons.mp hrow with rfl | hrow
    · exact ⟨intact_turnArchive 3 (by decide) (by decide), le_rfl, by decide +kernel⟩
    · rw [List.mem_singleton.mp hrow]
      exact ⟨intact_turnArchive 4 (by decide) (by decide), le_rfl, by decide +kernel⟩
  numbered row hrow := by
    rcases List.mem_cons.mp hrow with rfl | hrow
    · exact ⟨by decide, by decide⟩
    · rw [List.mem_singleton.mp hrow]
      exact ⟨by decide, by decide⟩

/-- Three pages give both traces. -/
theorem coldArchives_complete_twoArchives : readArchive twoArchives oneTrace 3 =
    .ok (some ((sortByKey (·.archiveSeq) twoArchives.rows).map ColdArchiveRow.trace)) :=
  (coldArchives_complete twoArchives oneTrace readable_twoArchives).1 3 (by decide)

end Pages

end AgentObservability.Store
