import AgentObservability.Store.Coherence
import AgentObservability.Store.Turns

/-!
# Replays

Every accepted item leaves an entry at its position of its source stream: the
event that was accepted, or the disposition why nothing was stored. No position
has both. What comes to a position with an entry changes nothing: the item that
the entry stands for is a duplicate, and any other is refused.

An entry of a suppressed observation does not name its event. There an
observation of another event is taken for the suppressed one if its payload is
the same.

## What is proved

* `replayIsNoop_history`: after every run of batches that does not drop old
  dispositions, every accepted item may be presented again without effect, and
  what contradicts it is refused.
* `not_strictReplay`: at the position of a suppressed observation another event
  is not refused.
-/

namespace AgentObservability.Store

open Domain Contracts Foundation

variable [Sha2] {db db' db₁ : Db} {o : SourceObservation} {p : PreparedObservation} {status : IngestStatus}
  {x y : StoreBatchItem}

/-! ### Entries -/

omit [Sha2] in
/-- The checkpoint of an item. -/
def StoreBatchItem.checkpoint : StoreBatchItem → SourceCheckpoint
  | .observation o => o.checkpoint
  | .disposition c _ _ _ => c

omit [Sha2] in
/-- What the ledger holds at a position. -/
inductive LedgerEntry where
  /-- An accepted event. -/
  | input (row : SourceInputRow)
  /-- A disposition. -/
  | disposition (row : DispositionRow)

omit [Sha2] in
/-- The ledger holds the entry. -/
def LedgerEntry.HeldBy (db : Db) : LedgerEntry → Prop
  | .input row => row ∈ db.sourceInputs
  | .disposition row => row ∈ db.adapterDispositions

/-- The entry stands at the checkpoint. -/
def LedgerEntry.At (c : SourceCheckpoint) : LedgerEntry → Prop
  | .input row => AtCheckpoint c row.source row.generation row.cursor
  | .disposition row => AtCheckpoint c row.source row.generation row.cursor

/-- The row of a disposition item. -/
def dispositionRow (c : SourceCheckpoint) (disposition : AdapterDispositionKind) (code : AdapterDispositionCode)
    (canonicalPayloadHash : Option String) : DispositionRow where
  source := c.source
  generation := privateSourceGeneration c
  cursor := c.sourceCursor.asStr
  disposition := disposition
  code := code
  payloadHash := canonicalPayloadHash.getD (dispositionPayloadHash c disposition code)

/-- The entry stands for the item. -/
def LedgerEntry.StandsFor : LedgerEntry → StoreBatchItem → Prop
  | .input row, .observation o => ∃ p, prepareObservation o = .ok p ∧ row.eventId = p.eventId ∧
      row.payloadHash = p.payloadHash
  | .disposition row, .observation o => ∃ p, prepareObservation o = .ok p ∧ row.Suppresses p.payloadHash
  | .input _, .disposition _ _ _ _ => False
  | .disposition row, .disposition c kind code hash =>
    (∀ value ∈ hash, ValidPayloadHash value) ∧ row.disposition = kind ∧ row.code = code ∧
      row.payloadHash = hash.getD (dispositionPayloadHash c kind code)

/-- No position has an accepted event and a disposition. -/
def ExclusiveLedger (db : Db) : Prop :=
  ∀ input ∈ db.sourceInputs, ∀ row ∈ db.adapterDispositions,
    ¬ (input.source = row.source ∧ input.generation = row.generation ∧ input.cursor = row.cursor)

theorem existingInput_of_mem {c : SourceCheckpoint} {row : SourceInputRow} (h : row ∈ db.sourceInputs)
    (hat : AtCheckpoint c row.source row.generation row.cursor) : existingInput db c = some row := by
  refine Table.find?_eq_some_of_mem (fun a b ha hb => ?_) h hat
  obtain ⟨hs, hg, hc⟩ := ha
  obtain ⟨hs', hg', hc'⟩ := hb
  exact Prod.ext (hs.trans hs'.symm) (Prod.ext (hg.trans hg'.symm) (hc.trans hc'.symm))

theorem existingDisposition_of_mem {c : SourceCheckpoint} {row : DispositionRow} (h : row ∈ db.adapterDispositions)
    (hat : AtCheckpoint c row.source row.generation row.cursor) : existingDisposition db c = some row := by
  refine Table.find?_eq_some_of_mem (fun a b ha hb => ?_) h hat
  obtain ⟨hs, hg, hc⟩ := ha
  obtain ⟨hs', hg', hc'⟩ := hb
  exact Prod.ext (hs.trans hs'.symm) (Prod.ext (hg.trans hg'.symm) (hc.trans hc'.symm))

/-- At the position of an accepted event there is no disposition. -/
theorem ExclusiveLedger.existingDisposition (h : ExclusiveLedger db) {c : SourceCheckpoint} {row : SourceInputRow}
    (hrow : row ∈ db.sourceInputs) (hat : AtCheckpoint c row.source row.generation row.cursor) :
    existingDisposition db c = none := by
  refine Table.find?_eq_none.mpr fun d hd hdat => h row hrow d hd ?_
  obtain ⟨hs, hg, hc⟩ := hat
  obtain ⟨hs', hg', hc'⟩ := hdat
  exact ⟨hs.trans hs'.symm, hg.trans hg'.symm, hc.trans hc'.symm⟩

/-! ### Positions with an entry -/

/-- **The item that an entry stands for is a duplicate or suppressed.** -/
theorem ingestItem_of_standsFor (h : ExclusiveLedger db) {e : LedgerEntry} (he : e.HeldBy db) (hat : e.At x.checkpoint)
    (hx : e.StandsFor x) : ∃ status, (status = .duplicate ∨ status = .suppressed) ∧
      ingestItem db x = .ok (status, db) := by
  cases e with
  | input row =>
    cases x with
    | observation o =>
      obtain ⟨p, hp, hevent, hpayload⟩ := hx
      refine ⟨.duplicate, Or.inl rfl, ?_⟩
      have hd : existingDisposition db o.checkpoint = none := h.existingDisposition he hat
      have hi : existingInput db o.checkpoint = some row := existingInput_of_mem he hat
      rw [ingestItem, ingestInTransaction, hp, ok_bind, hd, hi]
      simp only [hevent, hpayload, ne_eq, not_true_eq_false, or_self, if_false]
      rfl
    | disposition => exact hx.elim
  | disposition row =>
    cases x with
    | observation o =>
      obtain ⟨p, hp, hsuppresses⟩ := hx
      refine ⟨.suppressed, Or.inr rfl, ?_⟩
      have hd : Store.existingDisposition db o.checkpoint = some row := existingDisposition_of_mem he hat
      rw [ingestItem, ingestInTransaction, hp, ok_bind, hd]
      simp only [hsuppresses, if_true]
      rfl
    | disposition c disposition code hash =>
      obtain ⟨hvalid, hdisposition, hcode, hpayload⟩ := hx
      refine ⟨.duplicate, Or.inl rfl, ?_⟩
      have hd : Store.existingDisposition db c = some row := existingDisposition_of_mem he hat
      rw [ingestItem, ingestDispositionInTransaction, require_true hvalid, ok_bind]
      simp only [hd, hdisposition, hcode, hpayload, ne_eq, not_true_eq_false, or_self, if_false]
      rfl

/-- **Any other item is refused.** -/
theorem ingestItem_of_not_standsFor (h : ExclusiveLedger db) {e : LedgerEntry} (he : e.HeldBy db)
    (hat : e.At y.checkpoint) (hy : ¬ e.StandsFor y) : ∃ error, ingestItem db y = .error error := by
  cases e with
  | input row =>
    cases y with
    | observation o =>
      rw [ingestItem, ingestInTransaction]
      cases hp : prepareObservation o with
      | error error => exact ⟨error, rfl⟩
      | ok p =>
        have hd : existingDisposition db o.checkpoint = none := h.existingDisposition he hat
        have hi : existingInput db o.checkpoint = some row := existingInput_of_mem he hat
        have hne : row.eventId ≠ p.eventId ∨ row.payloadHash ≠ p.payloadHash := by
          by_contra hn
          rw [not_or, not_not, not_not] at hn
          exact hy ⟨p, hp, hn.1, hn.2⟩
        rw [ok_bind, hd, hi]
        exact ⟨.payloadConflict, if_pos hne⟩
    | disposition c disposition code hash =>
      have hd : existingDisposition db c = none := h.existingDisposition he hat
      have hi : existingInput db c = some row := existingInput_of_mem he hat
      rw [ingestItem, ingestDispositionInTransaction]
      by_cases hvalid : ∀ value ∈ hash, ValidPayloadHash value
      · rw [require_true hvalid, ok_bind]
        simp only [hd, hi]
        exact ⟨.payloadConflict, rfl⟩
      · rw [require_false hvalid]
        exact ⟨_, rfl⟩
  | disposition row =>
    cases y with
    | observation o =>
      rw [ingestItem, ingestInTransaction]
      cases hp : prepareObservation o with
      | error error => exact ⟨error, rfl⟩
      | ok p =>
        have hd : Store.existingDisposition db o.checkpoint = some row := existingDisposition_of_mem he hat
        rw [ok_bind, hd]
        exact ⟨.payloadConflict, if_neg fun hs => hy ⟨p, hp, hs⟩⟩
    | disposition c disposition code hash =>
      have hd : Store.existingDisposition db c = some row := existingDisposition_of_mem he hat
      rw [ingestItem, ingestDispositionInTransaction]
      by_cases hvalid : ∀ value ∈ hash, ValidPayloadHash value
      · have hne : row.disposition ≠ disposition ∨ row.code ≠ code ∨
            row.payloadHash ≠ hash.getD (dispositionPayloadHash c disposition code) := by
          by_contra hn
          rw [not_or, not_or, not_not, not_not, not_not] at hn
          exact hy ⟨hvalid, hn⟩
        rw [require_true hvalid, ok_bind]
        simp only [hd]
        exact ⟨.payloadConflict, if_pos hne⟩
      · rw [require_false hvalid]
        exact ⟨_, rfl⟩

/-! ### New entries -/

omit [Sha2] in
/-- The entry is new in the ledger, which does not change otherwise but for old dispositions that are dropped. -/
def LedgerEntry.EnteredInto (db db' : Db) : LedgerEntry → Prop
  | .input row => db.sourceInputs.insert row = some db'.sourceInputs ∧
      db'.adapterDispositions = db.adapterDispositions
  | .disposition row => db'.sourceInputs = db.sourceInputs ∧ ∃ dispositions,
      db.adapterDispositions.insert row = some dispositions ∧
        db'.adapterDispositions = dispositions.keepNewest maxAdapterDispositions

/-- The row of a suppressed observation. -/
def suppressedRow (o : SourceObservation) (p : PreparedObservation) (code : AdapterDispositionCode) : DispositionRow :=
  dispositionRow o.checkpoint .suppressed code (some p.payloadHash)

theorem recordDisposition_entered {c : SourceCheckpoint} {kind : AdapterDispositionKind}
    {code : AdapterDispositionCode} {hash : Option String}
    (h : recordDisposition db c kind code (hash.getD (dispositionPayloadHash c kind code)) = .ok db') :
    (LedgerEntry.disposition (dispositionRow c kind code hash)).EnteredInto db db' := by
  obtain ⟨dispositions, cursors, hd, -, rfl⟩ := recordDisposition_ok h
  exact ⟨rfl, dispositions, hd, rfl⟩

theorem insertSuppressedObservation_entered {code : AdapterDispositionCode} (hp : prepareObservation o = .ok p)
    (h : insertSuppressedObservation db o code = .ok db') :
    (LedgerEntry.disposition (suppressedRow o p code)).EnteredInto db db' := by
  simp only [prepareObservation, bind_eq_ok, pure_eq_ok] at hp
  obtain ⟨_, -, _, -, hash, hhash, rfl⟩ := hp
  rw [insertSuppressedObservation, hhash, ok_bind] at h
  exact recordDisposition_entered h

theorem suppressDuplicate_entered (hp : prepareObservation o = .ok p)
    (h : suppressDuplicate db o = .ok (status, db')) : status = .suppressed ∧
      (LedgerEntry.disposition (suppressedRow o p .duplicateObservation)).EnteredInto db db' := by
  simp only [suppressDuplicate, bind_eq_ok, pure_eq_ok, Prod.mk.injEq] at h
  obtain ⟨_, h, rfl, rfl⟩ := h
  exact ⟨rfl, (insertSuppressedObservation_entered hp h :)⟩

theorem suppressExpired_entered (hp : prepareObservation o = .ok p)
    (h : suppressExpired db o = .ok (status, db')) : status = .suppressed ∧
      (LedgerEntry.disposition (suppressedRow o p .expiredTrace)).EnteredInto db db' := by
  simp only [suppressExpired, bind_eq_ok, pure_eq_ok, Prod.mk.injEq] at h
  obtain ⟨_, h, rfl, rfl⟩ := h
  exact ⟨rfl, insertSuppressedObservation_entered hp h⟩

/-- Behind the archive an observation is entered as suppressed or as an event. -/
theorem ingestVisible_entered (hp : prepareObservation o = .ok p) (h : ingestVisible db o p = .ok (status, db')) :
    (status = .suppressed ∧ ∃ code, (code = .duplicateObservation ∨ code = .expiredTrace) ∧
      (LedgerEntry.disposition (suppressedRow o p code)).EnteredInto db db') ∨
    (LedgerEntry.input (sourceInputRow o p)).EnteredInto db db' := by
  unfold ingestVisible at h
  rw [bind_eq_ok] at h
  obtain ⟨same, -, h⟩ := h
  split at h
  · obtain ⟨hs, he⟩ := suppressDuplicate_entered hp h
    exact Or.inl ⟨hs, _, Or.inl rfl, he⟩
  · split at h
    · split at h
      · split at h
        · obtain ⟨hs, he⟩ := suppressExpired_entered hp h
          exact Or.inl ⟨hs, _, Or.inr rfl, he⟩
        · cases h
      · obtain ⟨hs, he⟩ := suppressDuplicate_entered hp h
        exact Or.inl ⟨hs, _, Or.inl rfl, he⟩
    · split at h
      · obtain ⟨hs, he⟩ := suppressExpired_entered hp h
        exact Or.inl ⟨hs, _, Or.inr rfl, he⟩
      · split at h
        · split at h
          · cases h
          · simp only [acceptDuplicateEvent, bind_eq_ok, ofOption_eq_ok, pure_eq_ok, Prod.mk.injEq] at h
            obtain ⟨inputs, hin, _, -, -, rfl⟩ := h
            exact Or.inr ⟨hin, rfl⟩
        · obtain ⟨-, c, rfl⟩ := commitObservation_ok h
          exact Or.inr ⟨c.insert_input, rfl⟩

/-- A restoration leaves the ledger alone. -/
theorem Restored.ledger {s : DomainSpanState} (h : Restored db s db₁) :
    db₁.sourceInputs = db.sourceInputs ∧ db₁.adapterDispositions = db.adapterDispositions := by
  cases h with
  | hot => exact ⟨rfl, rfl⟩
  | rehydrated _ _ hr =>
    obtain ⟨_, _, _, _, -, -, -, -, -, -, rfl⟩ := rehydrate_ok hr
    exact ⟨rfl, rfl⟩

/-- How an accepted item finds or leaves its entry. -/
inductive Entry (db : Db) (x : StoreBatchItem) (status : IngestStatus) (db' : Db) (e : LedgerEntry) : Prop
  /-- The entry was there, and nothing changes. -/
  | found (heq : db' = db) (held : e.HeldBy db)
  /-- The entry is new, at a position that had none. -/
  | entered (hinput : existingInput db x.checkpoint = none) (hdisposition : existingDisposition db x.checkpoint = none)
      (he : e.EnteredInto db db')

/-- **An accepted item has its entry.** An observation that is not suppressed is entered as an event. -/
theorem ingestItem_entry (h : ingestItem db x = .ok (status, db')) : ∃ e : LedgerEntry, e.At x.checkpoint ∧
    e.StandsFor x ∧ (∀ o, x = .observation o → status ≠ .suppressed → ∃ row, e = .input row) ∧
      Entry db x status db' e := by
  cases x with
  | observation o =>
    rw [ingestItem, ingestInTransaction, bind_eq_ok] at h
    obtain ⟨p, hp, h⟩ := h
    have hsuppressed : ∀ code, code = .duplicateObservation ∨ code = .expiredTrace →
        (LedgerEntry.disposition (suppressedRow o p code)).StandsFor (.observation o) :=
      fun code hcode => ⟨p, hp, rfl, hcode, rfl⟩
    split at h
    · rename_i row hrow
      obtain ⟨hmem, hat⟩ := Table.mem_of_find? hrow
      split at h
      · rename_i hs
        obtain ⟨rfl, rfl⟩ := Prod.mk.inj (pure_eq_ok.mp h)
        exact ⟨.disposition row, hat, ⟨p, hp, hs⟩, fun _ _ hne => absurd rfl hne, .found rfl hmem⟩
      · cases h
    · rename_i hdisposition
      split at h
      · rename_i row hrow
        obtain ⟨hmem, hat⟩ := Table.mem_of_find? hrow
        split at h
        · cases h
        · rename_i hsame
          rw [not_or, not_not, not_not] at hsame
          obtain ⟨rfl, rfl⟩ := Prod.mk.inj (pure_eq_ok.mp h)
          exact ⟨.input row, hat, ⟨p, hp, hsame.1, hsame.2⟩, fun _ _ _ => ⟨row, rfl⟩, .found rfl hmem⟩
      · rename_i hinput
        simp only [bind_eq_ok, require_eq_ok, Prod.exists] at h
        obtain ⟨-, -, preparation, db₁, hprep, h⟩ := h
        rcases prepareArchivedTrace_ok hprep with ⟨rfl, -, rfl⟩ | ⟨hne, hr⟩
        · rw [if_pos rfl] at h
          obtain ⟨rfl, he⟩ := suppressDuplicate_entered hp h
          exact ⟨.disposition (suppressedRow o p .duplicateObservation), ⟨rfl, rfl, rfl⟩, hsuppressed _ (Or.inl rfl),
            fun _ _ hne => absurd rfl hne, .entered hinput hdisposition he⟩
        · rw [if_neg hne] at h
          have hentered : ∀ e : LedgerEntry, e.EnteredInto db₁ db' → e.EnteredInto db db' := by
            intro e he
            obtain ⟨hi, hd⟩ := hr.ledger
            cases e <;> simpa only [LedgerEntry.EnteredInto, hi, hd] using he
          rcases ingestVisible_entered hp h with ⟨rfl, code, hcode, he⟩ | he
          · exact ⟨.disposition (suppressedRow o p code), ⟨rfl, rfl, rfl⟩, hsuppressed _ hcode,
              fun _ _ hne => absurd rfl hne, .entered hinput hdisposition (hentered _ he)⟩
          · exact ⟨.input (sourceInputRow o p), ⟨rfl, rfl, rfl⟩, ⟨p, hp, rfl, rfl⟩, fun _ _ _ => ⟨_, rfl⟩,
              .entered hinput hdisposition (hentered _ he)⟩
  | disposition c kind code hash =>
    rw [ingestItem, ingestDispositionInTransaction, bind_eq_ok] at h
    obtain ⟨⟨⟩, hvalid, h⟩ := h
    rw [require_eq_ok] at hvalid
    simp only at h
    split at h
    · rename_i row hrow
      obtain ⟨hmem, hat⟩ := Table.mem_of_find? hrow
      split at h
      · cases h
      · rename_i hsame
        rw [not_or, not_or, not_not, not_not, not_not] at hsame
        obtain ⟨rfl, rfl⟩ := Prod.mk.inj (pure_eq_ok.mp h)
        exact ⟨.disposition row, hat, ⟨hvalid, hsame⟩, fun _ he => (by cases he), .found rfl hmem⟩
    · rename_i hdisposition
      simp only [bind_eq_ok, require_eq_ok, pure_eq_ok, Prod.mk.injEq] at h
      obtain ⟨-, hinput, -, -, db₁, hrecord, -, rfl⟩ := h
      have he := recordDisposition_entered hrecord
      have hat : (LedgerEntry.disposition (dispositionRow c kind code hash)).At c := ⟨rfl, rfl, rfl⟩
      have hstands : (LedgerEntry.disposition (dispositionRow c kind code hash)).StandsFor
          (.disposition c kind code hash) := ⟨hvalid, rfl, rfl, rfl⟩
      exact ⟨_, hat, hstands, fun _ he => (by cases he), .entered (Option.isNone_iff_eq_none.mp hinput) hdisposition he⟩

/-! ### Runs -/

/-- **Every accepted item keeps the ledger exclusive.** -/
theorem ExclusiveLedger.ingestItem (h : ExclusiveLedger db) (hi : ingestItem db x = .ok (status, db')) :
    ExclusiveLedger db' := by
  obtain ⟨e, hat, -, -, hentry⟩ := ingestItem_entry hi
  cases hentry with
  | found heq => rwa [heq]
  | entered hinput hdisposition he =>
    cases e with
    | input row =>
      obtain ⟨hinsert, hd⟩ := he
      intro input hmem d hdm hkey
      rw [hd] at hdm
      rcases (Table.mem_insert hinsert).mp hmem with hmem | rfl
      · exact h input hmem d hdm hkey
      · obtain ⟨hs, hg, hc⟩ := hat
        refine Table.find?_eq_none.mp hdisposition d hdm ?_
        exact ⟨hkey.1.symm.trans hs, hkey.2.1.symm.trans hg, hkey.2.2.symm.trans hc⟩
    | disposition row =>
      obtain ⟨hinputs, dispositions, hinsert, hd⟩ := he
      intro input hmem d hdm hkey
      rw [hinputs] at hmem
      rw [hd] at hdm
      rcases (Table.mem_insert hinsert).mp (Table.mem_of_keepNewest hdm) with hdm | rfl
      · exact h input hmem d hdm hkey
      · obtain ⟨hs, hg, hc⟩ := hat
        refine Table.find?_eq_none.mp hinput input hmem ?_
        exact ⟨hkey.1.trans hs, hkey.2.1.trans hg, hkey.2.2.trans hc⟩

/-- The item is not one disposition too many: no old one is dropped for it. -/
def FitsDispositions (db : Db) (item : StoreBatchItem) : Prop :=
  ∀ status db', ingestItem db item = .ok (status, db') → db'.adapterDispositions ≠ db.adapterDispositions →
    db.adapterDispositions.rows.length < maxAdapterDispositions

omit [Sha2] in
/-- An entry goes in, and is held then. -/
theorem LedgerEntry.EnteredInto.heldBy {e : LedgerEntry} (h : e.EnteredInto db db')
    (hfit : db'.adapterDispositions ≠ db.adapterDispositions →
      db.adapterDispositions.rows.length < maxAdapterDispositions) :
    e.HeldBy db' ∧ ∀ old : LedgerEntry, old.HeldBy db → old.HeldBy db' := by
  cases e with
  | input row =>
    obtain ⟨hinsert, hd⟩ := h
    refine ⟨(Table.mem_insert hinsert).mpr (Or.inr rfl), fun old hold => ?_⟩
    cases old with
    | input old => exact (Table.mem_insert hinsert).mpr (Or.inl hold)
    | disposition old =>
      rw [LedgerEntry.HeldBy, hd]
      exact hold
  | disposition row =>
    obtain ⟨hinputs, dispositions, hinsert, hd⟩ := h
    obtain ⟨hnew, hrows⟩ := Table.insert_eq_some.mp hinsert
    have hkept : db'.adapterDispositions = dispositions := by
      by_cases hsame : db'.adapterDispositions = db.adapterDispositions
      · -- The new row is the last one and stays, so the table does change.
        have hmem : row ∈ db'.adapterDispositions := by
          rw [hd]
          exact Table.mem_keepNewest_of_insert hinsert (by decide)
        rw [hsame] at hmem
        exact absurd rfl (hnew row hmem)
      · have hlength := hfit hsame
        rw [hd]
        refine Table.keepNewest_eq_self ?_
        rw [hrows, List.length_append, List.length_singleton]
        omega
    refine ⟨?_, fun old hold => ?_⟩
    · rw [LedgerEntry.HeldBy, hkept]
      exact (Table.mem_insert hinsert).mpr (Or.inr rfl)
    · cases old with
      | input old =>
        rw [LedgerEntry.HeldBy, hinputs]
        exact hold
      | disposition old =>
        rw [LedgerEntry.HeldBy, hkept]
        exact (Table.mem_insert hinsert).mpr (Or.inl hold)

/-- **An accepted item leaves its entry, and all others that were there.** -/
theorem ingestItem_heldBy (hfit : FitsDispositions db x) (hi : ingestItem db x = .ok (status, db')) :
    (∃ e : LedgerEntry, e.At x.checkpoint ∧ e.StandsFor x ∧
      (∀ o, x = .observation o → status ≠ .suppressed → ∃ row, e = .input row) ∧ e.HeldBy db') ∧
    ∀ old : LedgerEntry, old.HeldBy db → old.HeldBy db' := by
  obtain ⟨e, hat, hstands, hinput, hentry⟩ := ingestItem_entry hi
  cases hentry with
  | found heq held =>
    subst heq
    exact ⟨⟨e, hat, hstands, hinput, held⟩, fun _ hold => hold⟩
  | entered _ _ he =>
    obtain ⟨hheld, hold⟩ := he.heldBy (hfit status db' hi)
    exact ⟨⟨e, hat, hstands, hinput, hheld⟩, hold⟩

/-- The ledger is exclusive, and holds the entry. -/
def Keeps (e : LedgerEntry) (db : Db) : Prop := ExclusiveLedger db ∧ e.HeldBy db

/-- A batch keeps an entry. -/
theorem Keeps.batch {e : LedgerEntry} {items : List StoreBatchItem} {statuses : List IngestStatus}
    (hfit : AlongBatch FitsDispositions db items) (h : Keeps e db)
    (hb : ingestOrderedBatch db items = .ok (statuses, db')) : Keeps e db' :=
  ingestOrderedBatch_induction (fun _ _ _ _ hitem hi hk => ⟨hk.1.ingestItem hi, (ingestItem_heldBy hitem hi).2 e hk.2⟩)
    hfit hb h

/-- **Every item of an accepted batch has its entry after it.** -/
theorem ingestOrderedBatch_entry {items : List StoreBatchItem} : ∀ {db : Db} {statuses : List IngestStatus},
    AlongBatch FitsDispositions db items → ExclusiveLedger db → ingestOrderedBatch db items = .ok (statuses, db') →
    (x, status) ∈ items.zip statuses → ∃ e : LedgerEntry, e.At x.checkpoint ∧ e.StandsFor x ∧
      (∀ o, x = .observation o → status ≠ .suppressed → ∃ row, e = .input row) ∧ Keeps e db' := by
  induction items with
  | nil =>
    intro db statuses _ _ _ hmem
    cases hmem
  | cons item items ih =>
    intro db statuses hfit h hb hmem
    simp only [ingestOrderedBatch, bind_eq_ok, pure_eq_ok, Prod.exists, Prod.mk.injEq] at hb
    obtain ⟨first, db₁, hfirst, rest, db₂, hrest, rfl, rfl⟩ := hb
    have hexclusive := h.ingestItem hfirst
    have hfit' := hfit.2 first db₁ hfirst
    rw [List.zip_cons_cons] at hmem
    rcases List.mem_cons.mp hmem with heq | hmem
    · obtain ⟨rfl, rfl⟩ := Prod.mk.inj heq
      obtain ⟨⟨e, hat, hstands, hinput, hheld⟩, -⟩ := ingestItem_heldBy hfit.1 hfirst
      exact ⟨e, hat, hstands, hinput, Keeps.batch hfit' ⟨hexclusive, hheld⟩ hrest⟩
    · exact ih hfit' hexclusive hrest hmem

/-! ### Histories -/

omit [Sha2] in
/-- The items come to one position of one stream. -/
structure SamePosition (x y : StoreBatchItem) : Prop where
  /-- The source is the same. -/
  source : y.checkpoint.source = x.checkpoint.source
  /-- So is its generation. -/
  generation : y.checkpoint.sourceGeneration = x.checkpoint.sourceGeneration
  /-- And the cursor. -/
  cursor : y.checkpoint.sourceCursor = x.checkpoint.sourceCursor

/-- The hash of the canonical payload of an item, if it has one. -/
def StoreBatchItem.payloadHash : StoreBatchItem → Option String
  | .observation o => (prepareObservation o).toOption.map (·.payloadHash)
  | .disposition c kind code hash => some (hash.getD (dispositionPayloadHash c kind code))

/-- The second item is none that the first, accepted with the status, may be taken for: it has another payload,
another event than one that was stored, or another disposition. -/
def Contradicts (status : IngestStatus) (x y : StoreBatchItem) : Prop :=
  y.payloadHash ≠ x.payloadHash ∨
    match x, y with
    | .observation o, .observation o' => status ≠ .suppressed ∧ stableEventId o' ≠ stableEventId o
    | .observation _, .disposition _ kind code _ =>
      status ≠ .suppressed ∨ kind ≠ .suppressed ∨ (code ≠ .duplicateObservation ∧ code ≠ .expiredTrace)
    | .disposition _ kind code _, .observation _ =>
      kind ≠ .suppressed ∨ (code ≠ .duplicateObservation ∧ code ≠ .expiredTrace)
    | .disposition _ kind code _, .disposition _ kind' code' _ => kind' ≠ kind ∨ code' ≠ code

theorem SamePosition.entryAt (h : SamePosition x y) {e : LedgerEntry} (hat : e.At x.checkpoint) :
    e.At y.checkpoint := by
  obtain ⟨hs, hg, hc⟩ := h
  cases e <;>
    simpa only [LedgerEntry.At, AtCheckpoint, privateSourceGeneration, hs, hg, hc] using hat

omit [Sha2] in
/-- The hash of the payload of an entry. -/
def LedgerEntry.payloadHash : LedgerEntry → String
  | .input row => row.payloadHash
  | .disposition row => row.payloadHash

/-- The payload of an entry is the one of the items it stands for. -/
theorem payloadHash_of_standsFor {e : LedgerEntry} (h : e.StandsFor x) : x.payloadHash = some e.payloadHash := by
  cases e <;> cases x
  · obtain ⟨p, hp, -, hpayload⟩ := h
    rw [StoreBatchItem.payloadHash, hp, LedgerEntry.payloadHash, hpayload]
    rfl
  · exact h.elim
  · obtain ⟨p, hp, -, -, hpayload⟩ := h
    rw [StoreBatchItem.payloadHash, hp, LedgerEntry.payloadHash, hpayload]
    rfl
  · obtain ⟨-, -, -, hpayload⟩ := h
    rw [StoreBatchItem.payloadHash, LedgerEntry.payloadHash, hpayload]

/-- **The entry of an item does not stand for one that contradicts it.** -/
theorem not_standsFor_of_contradicts {e : LedgerEntry} (hx : e.StandsFor x)
    (hinput : ∀ o, x = .observation o → status ≠ .suppressed → ∃ row, e = .input row)
    (hc : Contradicts status x y) : ¬ e.StandsFor y := by
  intro hy
  rcases hc with hpayload | hc
  · exact hpayload ((payloadHash_of_standsFor hy).trans (payloadHash_of_standsFor hx).symm)
  · cases x with
    | observation o =>
      cases y with
      | observation o' =>
        obtain ⟨hstatus, hevent⟩ := hc
        obtain ⟨row, rfl⟩ := hinput o rfl hstatus
        obtain ⟨p, hp, he, -⟩ := hx
        obtain ⟨p', hp', he', -⟩ := hy
        refine hevent ?_
        rw [← (prepareObservation_ok hp).eventId, ← (prepareObservation_ok hp').eventId, ← he, ← he']
      | disposition c kind code hash =>
        cases e with
        | input row => exact hy
        | disposition row =>
          obtain ⟨p, -, hsuppressed, hcode, -⟩ := hx
          obtain ⟨-, hkind, hcode', -⟩ := hy
          rcases hc with hstatus | hkind' | ⟨hcode₁, hcode₂⟩
          · obtain ⟨_, he⟩ := hinput o rfl hstatus
            cases he
          · exact hkind' (hkind.symm.trans hsuppressed)
          · rcases hcode with hcode | hcode
            · exact hcode₁ (hcode'.symm.trans hcode)
            · exact hcode₂ (hcode'.symm.trans hcode)
    | disposition c kind code hash =>
      cases e with
      | input row => exact hx
      | disposition row =>
        obtain ⟨-, hkind, hcode, -⟩ := hx
        cases y with
        | observation o =>
          obtain ⟨p, -, hsuppressed, hcode', -⟩ := hy
          rcases hc with hkind' | ⟨hcode₁, hcode₂⟩
          · exact hkind' (hkind.symm.trans hsuppressed)
          · rcases hcode' with hcode' | hcode'
            · exact hcode₁ (hcode.symm.trans hcode')
            · exact hcode₂ (hcode.symm.trans hcode')
        | disposition c' kind' code' hash' =>
          obtain ⟨-, hk, hc', -⟩ := hy
          rcases hc with hne | hne
          · exact hne (hk.symm.trans hkind)
          · exact hne (hc'.symm.trans hcode)

/-- The accepted item may come again without effect, and what contradicts it is refused. -/
structure ReplayIsNoop (db : Db) (x : StoreBatchItem) (status : IngestStatus) : Prop where
  /-- It is a duplicate, or suppressed, and nothing changes. -/
  again : ∃ s, (s = .duplicate ∨ s = .suppressed) ∧ ingestOrderedBatch db [x] = .ok ([s], db)
  /-- What contradicts it at its position is an error, and nothing changes. -/
  refused : ∀ y, SamePosition x y → Contradicts status x y →
    (∃ error, ingestOrderedBatch db [y] = .error error) ∧ Txn.step db (.batch [y]) = db

theorem Keeps.replayIsNoop {e : LedgerEntry} (h : Keeps e db) (hat : e.At x.checkpoint) (hx : e.StandsFor x)
    (hinput : ∀ o, x = .observation o → status ≠ .suppressed → ∃ row, e = .input row) :
    ReplayIsNoop db x status where
  again := by
    obtain ⟨s, hs, hi⟩ := ingestItem_of_standsFor h.1 h.2 hat hx
    exact ⟨s, hs, by rw [ingestOrderedBatch_singleton, hi]; rfl⟩
  refused y hpos hc := by
    obtain ⟨error, hi⟩ := ingestItem_of_not_standsFor h.1 h.2 (hpos.entryAt hat)
      (not_standsFor_of_contradicts hx hinput hc)
    have hb : ingestOrderedBatch db [y] = .error error := by rw [ingestOrderedBatch_singleton, hi]; rfl
    exact ⟨⟨error, hb⟩, Txn.step_of_error (by rw [Txn.commit, hb]; rfl)⟩

/-- The store after a run of batches. -/
abbrev runOf (batches : List (List StoreBatchItem)) : Db := history (batches.map .batch)

/-- No position has an accepted event and a disposition, and every accepted item may come again without effect. -/
def ReplaySafe (batches : List (List StoreBatchItem)) : Prop :=
  ExclusiveLedger (runOf batches) ∧
    ∀ before items after, batches = before ++ items :: after → ∀ statuses db,
      ingestOrderedBatch (runOf before) items = .ok (statuses, db) → ∀ x status, (x, status) ∈ items.zip statuses →
        ReplayIsNoop (runOf batches) x status

/-- What every accepted batch that fits its dispositions keeps, a run of such batches keeps. -/
theorem after_batches {P : Db → Prop}
    (hP : ∀ db items statuses db', P db → AlongBatch FitsDispositions db items →
      ingestOrderedBatch db items = .ok (statuses, db') → P db')
    {batches : List (List StoreBatchItem)} : ∀ {db : Db}, P db →
      Along Txn.step (fun db t => t.Ingests FitsDispositions db) db (batches.map .batch) →
        P (After Txn.step db (batches.map .batch)) := by
  induction batches with
  | nil => exact fun h _ => h
  | cons items batches ih =>
    rintro db h ⟨hfit, hrest⟩
    refine ih (Txn.step_induction h fun db' hc => ?_) hrest
    obtain ⟨⟨statuses, db''⟩, hb, rfl⟩ := map_eq_ok.mp hc
    exact hP db items statuses db'' h hfit hb

/-- **Replays are no-ops after every run of batches that fits its dispositions.** -/
theorem replaySafe_runOf {batches : List (List StoreBatchItem)}
    (hfit : Along Txn.step (fun db t => t.Ingests FitsDispositions db) Db.empty (batches.map .batch)) :
    ReplaySafe batches := by
  have hexclusive : ∀ {batches : List (List StoreBatchItem)},
      Along Txn.step (fun db t => t.Ingests FitsDispositions db) Db.empty (batches.map .batch) →
        ExclusiveLedger (runOf batches) := by
    refine after_batches (fun db items statuses db' h hfit hb => ?_) fun row hrow => absurd hrow (Table.not_mem_empty row)
    exact ingestOrderedBatch_induction (fun _ _ _ _ _ hi h => h.ingestItem hi) hfit hb h
  refine ⟨hexclusive hfit, ?_⟩
  rintro before items after rfl statuses db hb x status hmem
  rw [List.map_append, List.map_cons, along_append] at hfit
  obtain ⟨hbefore, hitems, hafter⟩ := hfit
  obtain ⟨e, hat, hx, hinput, hkeeps⟩ := ingestOrderedBatch_entry hitems (hexclusive hbefore) hb hmem
  have hstep : Txn.step (runOf before) (.batch items) = db :=
    Txn.step_of_commit (by rw [Txn.commit, hb]; rfl)
  rw [hstep] at hafter
  have hend : runOf (before ++ items :: after) = After Txn.step db (after.map .batch) := by
    rw [runOf, List.map_append, history_append, List.map_cons, after_cons, hstep]
  rw [hend]
  exact (after_batches (fun _ _ _ _ h hfit hb => h.batch hfit hb) hkeeps hafter).replayIsNoop hat hx hinput

omit [Sha2] in
theorem replaySafe_turn : @ReplaySafe sha256 [[.observation (turnOf 0 0 0 none 100)]] :=
  @replaySafe_runOf sha256 _ ⟨⟨fun _ _ _ _ => by decide, fun _ _ _ => trivial⟩, trivial⟩

/-! ### Another event -/

/-- At the position of an accepted observation every other event is refused. -/
def RefusesOtherEvents (batches : List (List StoreBatchItem)) : Prop :=
  ∀ before items after, batches = before ++ items :: after → ∀ statuses db,
    ingestOrderedBatch (runOf before) items = .ok (statuses, db) → ∀ o status,
      (.observation o, status) ∈ items.zip statuses → ∀ o', SamePosition (.observation o) (.observation o') →
        stableEventId o' ≠ stableEventId o → ∃ error, ingestOrderedBatch (runOf batches) [.observation o'] = .error error

omit [Sha2] in
/-- A turn. -/
def storedTurn : SourceObservation := turnOf 0 0 0 none 100

omit [Sha2] in
/-- The turn from another stream, which is suppressed. -/
def suppressedTurn : SourceObservation := turnOf 1 0 0 none 100

omit [Sha2] in
/-- Another event at the position of the suppressed one. -/
def otherTurn : SourceObservation := { suppressedTurn with observationId := numberedId 2 }

set_option maxRecDepth 100000 in
omit [Sha2] in
/-- **The other event is taken for the suppressed one.** -/
theorem not_refusesOtherEvents :
    ¬ @RefusesOtherEvents sha256 [[.observation storedTurn], [.observation suppressedTurn]] := by
  let : Sha2 := sha256
  intro h
  have hstatus : ((ingestOrderedBatch (runOf [[.observation storedTurn]]) [.observation suppressedTurn]).map
      (·.1)).toOption = some [.suppressed] := by
    rw [show this = _ from sha2_eq]
    decide +kernel
  have hevent : stableEventId otherTurn ≠ stableEventId suppressedTurn := by decide +kernel
  have haccepted : (ingestOrderedBatch (runOf [[.observation storedTurn], [.observation suppressedTurn]])
      [.observation otherTurn]).toOption.isSome = true := by
    rw [show this = _ from sha2_eq]
    decide +kernel
  cases hb : ingestOrderedBatch (runOf [[.observation storedTurn]]) [.observation suppressedTurn] with
  | error e =>
    rw [hb] at hstatus
    cases hstatus
  | ok r =>
    obtain ⟨statuses, db⟩ := r
    rw [hb] at hstatus
    obtain rfl : statuses = [.suppressed] := Option.some.inj hstatus
    obtain ⟨error, he⟩ := h [[.observation storedTurn]] [.observation suppressedTurn] [] rfl _ db hb suppressedTurn
      .suppressed (List.mem_singleton.mpr rfl) otherTurn ⟨rfl, rfl, rfl⟩ hevent
    rw [he] at haccepted
    cases haccepted

end AgentObservability.Store
