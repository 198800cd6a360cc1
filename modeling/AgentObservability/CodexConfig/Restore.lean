import AgentObservability.CodexConfig.Toml
import AgentObservability.Foundation.Attempt

/-!
# The managed values go in and come out again

`patch_managed_values` puts the manager's values beside the user's and
`restore_owned_values` takes them out again. An edit of the table touches one of its
keys (`SameBut`), so both are folds whose entries are read off at the end
(`otelEntry_fill`, `otelEntry_restore`).

What was patched passes the check for conflicts and is not patched again, and nothing
but the owned keys differs. Taken out again, the values leave the tree of the document,
except where the user's own table was empty: an emptied table is always removed
(`managed_round_trip`).
-/

namespace AgentObservability.CodexConfig

open Foundation

namespace TomlEdit

variable (toml : TomlEdit)

/-- What an edit of a document does: it puts one item in its place or takes it out, and leaves the others. -/
structure Edits : Prop where
  asValue_value : ∀ value, toml.asValue (toml.value value) = some value
  isTableLike_table : toml.isTableLike toml.table = true
  entry_table : ∀ key, toml.entry toml.table key = none
  get_set : ∀ document key item, toml.get (toml.set document key item) key = some item
  get_set_of_ne : ∀ document key other item, key ≠ other →
    toml.get (toml.set document key item) other = toml.get document other
  get_remove : ∀ document key, toml.get (toml.remove document key) key = none
  get_remove_of_ne : ∀ document key other, key ≠ other →
    toml.get (toml.remove document key) other = toml.get document other
  get_insertIn_of_ne : ∀ document key inner item other, key ≠ other →
    toml.get (toml.insertIn document key inner item) other = toml.get document other
  get_removeIn_of_ne : ∀ document key inner other, key ≠ other →
    toml.get (toml.removeIn document key inner) other = toml.get document other
  insertIn_table : ∀ document key inner item table, toml.get document key = some table → toml.isTableLike table = true →
    ∃ again, toml.get (toml.insertIn document key inner item) key = some again ∧ toml.isTableLike again = true ∧
      ((toml.asValue item).isSome → toml.entry again inner = some item) ∧
      ∀ other, inner ≠ other → toml.entry again other = toml.entry table other
  removeIn_table : ∀ document key inner table, toml.get document key = some table → toml.isTableLike table = true →
    ∃ again, toml.get (toml.removeIn document key inner) key = some again ∧ toml.isTableLike again = true ∧
      toml.entry again inner = none ∧ ∀ other, inner ≠ other → toml.entry again other = toml.entry table other
  isEmptyIn_iff : ∀ document key table, toml.get document key = some table → toml.isTableLike table = true →
    (toml.isEmptyIn document key = true ↔ ∀ inner, toml.entry table inner = none)

/-- Two items that are the same, or two tables with the same entries. -/
def SameItem (item item' : toml.Item) : Prop :=
  item = item' ∨ toml.isTableLike item = true ∧ toml.isTableLike item' = true ∧
    ∀ key, toml.entry item key = toml.entry item' key

/-- Two documents with the same keys and values. -/
def SameTree (document document' : toml.Document) : Prop :=
  ∀ key, Option.Rel toml.SameItem (toml.get document key) (toml.get document' key)

end TomlEdit

section Documents

variable (toml : TomlEdit)

/-- No key that the manager does not own differs. -/
structure KeepsOthers (ownsNotify : Bool) (document edited : toml.Document) : Prop where
  get : ∀ key, key ≠ "otel" → (key = "notify" → ownsNotify = false) → toml.get edited key = toml.get document key
  otelEntry : ∀ key ∉ ownedOtelKeys, otelEntry toml edited key = otelEntry toml document key

/-- What the manager's values do to a document: they go in, and come out again. -/
structure RoundTrips (managed : ManagedValues) (ownsNotify : Bool) (document : toml.Document) : Prop where
  patched : ∃ patched, patchManagedValues toml document managed ownsNotify = some patched ∧
    KeepsOthers toml ownsNotify document patched ∧
    ensureNoManagedConflict toml patched managed = .ok () ∧
    patchManagedValues toml patched managed ownsNotify = some patched ∧
    ∃ restored, restoreOwnedValues toml patched document ownsNotify = .ok restored ∧ toml.SameTree restored document
  replaced : ∀ values replaced, replaceManagedValues toml document values ownsNotify = some replaced →
    KeepsOthers toml ownsNotify document replaced
  rebased : ∀ prior rebased, restoreOwnedValues toml document prior ownsNotify = .ok rebased →
    KeepsOthers toml ownsNotify document rebased

/-! ### One key of the table -/

/-- Two documents that differ in keys of the table only. -/
structure SameBut (keys : List String) (document edited : toml.Document) : Prop where
  get : ∀ key, key ≠ "otel" → toml.get edited key = toml.get document key
  tableLikeAt : toml.tableLikeAt edited "otel" = true
  otelEntry : ∀ key ∉ keys, otelEntry toml edited key = otelEntry toml document key

variable {toml} {document edited again : toml.Document} {keys : List String} {key : String} {item : toml.Item}

theorem tableLikeAt_eq_true :
    toml.tableLikeAt document "otel" = true ↔ ∃ table, toml.get document "otel" = some table ∧ toml.isTableLike table = true :=
  Option.any_eq_true _ _

theorem otelEntry_of_table {table : toml.Item} (h : toml.get document "otel" = some table)
    (hlike : toml.isTableLike table = true) (key : String) : otelEntry toml document key = toml.entry table key := by
  simp [otelEntry, h, Option.filter, hlike]

theorem otelEntry_of_none (h : toml.get document "otel" = none) (key : String) : otelEntry toml document key = none := by
  simp [otelEntry, h]

theorem SameBut.refl (h : toml.tableLikeAt document "otel" = true) : SameBut toml keys document document :=
  ⟨fun _ _ => rfl, h, fun _ _ => rfl⟩

theorem SameBut.trans (h : SameBut toml keys document edited) (h' : SameBut toml keys edited again) :
    SameBut toml keys document again where
  get key hkey := (h'.get key hkey).trans (h.get key hkey)
  tableLikeAt := h'.tableLikeAt
  otelEntry key hkey := (h'.otelEntry key hkey).trans (h.otelEntry key hkey)

theorem SameBut.mono {keys' : List String} (h : SameBut toml keys document edited) (hsub : ∀ key ∈ keys, key ∈ keys') :
    SameBut toml keys' document edited :=
  ⟨h.get, h.tableLikeAt, fun key hkey => h.otelEntry key fun hmem => hkey (hsub key hmem)⟩

/-- A fold of edits, each of its own keys. -/
theorem SameBut.foldl {α : Type} {step : toml.Document → α → toml.Document} (entries : List α)
    (hstep : ∀ document, ∀ entry ∈ entries, toml.tableLikeAt document "otel" = true →
      SameBut toml keys document (step document entry)) :
    ∀ document, toml.tableLikeAt document "otel" = true → SameBut toml keys document (entries.foldl step document) := by
  induction entries with
  | nil => exact fun _ h => .refl h
  | cons entry entries ih =>
    intro document h
    have hfirst := hstep document entry List.mem_cons_self h
    have hrest := ih (fun d e he => hstep d e (List.mem_cons_of_mem _ he)) _ hfirst.tableLikeAt
    exact hfirst.trans hrest

variable (edits : toml.Edits)
include edits

theorem sameBut_insertIn (h : toml.tableLikeAt document "otel" = true) (key : String) (item : toml.Item) :
    SameBut toml [key] document (toml.insertIn document "otel" key item) := by
  obtain ⟨table, hget, hlike⟩ := tableLikeAt_eq_true.mp h
  obtain ⟨again, hagain, hlike', -, hothers⟩ := edits.insertIn_table document "otel" key item table hget hlike
  refine ⟨fun other hother => ?_, tableLikeAt_eq_true.mpr ⟨again, hagain, hlike'⟩, fun other hother => ?_⟩
  · exact edits.get_insertIn_of_ne document "otel" key item other (Ne.symm hother)
  · rw [otelEntry_of_table hagain hlike', otelEntry_of_table hget hlike]
    exact hothers other fun heq => hother (by simp [heq])

theorem sameBut_removeIn (h : toml.tableLikeAt document "otel" = true) (key : String) :
    SameBut toml [key] document (toml.removeIn document "otel" key) := by
  obtain ⟨table, hget, hlike⟩ := tableLikeAt_eq_true.mp h
  obtain ⟨again, hagain, hlike', -, hothers⟩ := edits.removeIn_table document "otel" key table hget hlike
  refine ⟨fun other hother => ?_, tableLikeAt_eq_true.mpr ⟨again, hagain, hlike'⟩, fun other hother => ?_⟩
  · exact edits.get_removeIn_of_ne document "otel" key other (Ne.symm hother)
  · rw [otelEntry_of_table hagain hlike', otelEntry_of_table hget hlike]
    exact hothers other fun heq => hother (by simp [heq])

theorem otelEntry_insertIn (h : toml.tableLikeAt document "otel" = true) (hvalue : (toml.asValue item).isSome) :
    otelEntry toml (toml.insertIn document "otel" key item) key = some item := by
  obtain ⟨table, hget, hlike⟩ := tableLikeAt_eq_true.mp h
  obtain ⟨again, hagain, hlike', hself, -⟩ := edits.insertIn_table document "otel" key item table hget hlike
  rw [otelEntry_of_table hagain hlike']
  exact hself hvalue

theorem otelEntry_removeIn (h : toml.tableLikeAt document "otel" = true) :
    otelEntry toml (toml.removeIn document "otel" key) key = none := by
  obtain ⟨table, hget, hlike⟩ := tableLikeAt_eq_true.mp h
  obtain ⟨again, hagain, hlike', hself, -⟩ := edits.removeIn_table document "otel" key table hget hlike
  rw [otelEntry_of_table hagain hlike']
  exact hself

theorem isEmptyIn_iff_otelEntry (h : toml.tableLikeAt document "otel" = true) :
    toml.isEmptyIn document "otel" = true ↔ ∀ key, otelEntry toml document key = none := by
  obtain ⟨table, hget, hlike⟩ := tableLikeAt_eq_true.mp h
  rw [edits.isEmptyIn_iff document "otel" table hget hlike]
  exact forall_congr' fun key => by rw [otelEntry_of_table hget hlike]

/-! ### The two folds -/

theorem sameBut_putOwned (prior : toml.Document) (h : toml.tableLikeAt document "otel" = true) (key : String) :
    SameBut toml [key] document (match otelEntry toml prior key with
      | some item => toml.insertIn document "otel" key item
      | none => toml.removeIn document "otel" key) := by
  cases otelEntry toml prior key with
  | none => exact sameBut_removeIn edits h key
  | some item => exact sameBut_insertIn edits h key item

theorem sameBut_fill (h : toml.tableLikeAt document "otel" = true) (entry : String × TomlValue) :
    SameBut toml [entry.1] document
      (if ((toml.get document "otel").bind fun otel => toml.entry otel entry.1).isNone then
        toml.insertIn document "otel" entry.1 (toml.value entry.2)
      else document) := by
  split_ifs
  · exact sameBut_insertIn edits h _ _
  · exact .refl h

omit edits in
theorem bind_entry_eq_otelEntry (h : toml.tableLikeAt document "otel" = true) (key : String) :
    ((toml.get document "otel").bind fun otel => toml.entry otel key) = otelEntry toml document key := by
  obtain ⟨table, hget, hlike⟩ := tableLikeAt_eq_true.mp h
  rw [otelEntry_of_table hget hlike, hget]
  rfl

/-- **What was filled in is where there was nothing.** -/
theorem otelEntry_fill (entries : List (String × TomlValue)) (key : String) :
    ∀ document, toml.tableLikeAt document "otel" = true →
      otelEntry toml (entries.foldl (fun document entry =>
        if ((toml.get document "otel").bind fun otel => toml.entry otel entry.1).isNone then
          toml.insertIn document "otel" entry.1 (toml.value entry.2)
        else document) document) key =
      (otelEntry toml document key).or ((TomlValue.entry entries key).map toml.value) := by
  induction entries with
  | nil =>
    intro document _
    simp [TomlValue.entry]
  | cons entry entries ih =>
    intro document h
    obtain ⟨name, value⟩ := entry
    have hfirst := sameBut_fill edits h (name, value)
    rw [List.foldl_cons, ih _ hfirst.tableLikeAt]
    by_cases hkey : key = name
    · subst hkey
      have hentry : TomlValue.entry ((key, value) :: entries) key = some value := by simp [TomlValue.entry]
      have hvalue : (toml.asValue (toml.value value)).isSome = true := by rw [edits.asValue_value]; rfl
      simp only [bind_entry_eq_otelEntry h, hentry]
      cases hown : otelEntry toml document key with
      | none => simp [otelEntry_insertIn edits h hvalue]
      | some item => simp [hown]
    · have hentry : TomlValue.entry ((name, value) :: entries) key = TomlValue.entry entries key := by
        simp [TomlValue.entry, Ne.symm hkey]
      rw [hfirst.otelEntry key (by simpa using hkey), hentry]

omit edits in
/-- Where nothing is missing, nothing is filled in. -/
theorem fill_eq_self (entries : List (String × TomlValue)) (h : toml.tableLikeAt document "otel" = true)
    (hentries : ∀ entry ∈ entries, (otelEntry toml document entry.1).isSome) :
    entries.foldl (fun document entry =>
      if ((toml.get document "otel").bind fun otel => toml.entry otel entry.1).isNone then
        toml.insertIn document "otel" entry.1 (toml.value entry.2)
      else document) document = document := by
  induction entries with
  | nil => rfl
  | cons entry entries ih =>
    have hsome := hentries entry List.mem_cons_self
    rw [List.foldl_cons, bind_entry_eq_otelEntry h, if_neg (by simpa [Option.isSome_iff_ne_none] using hsome)]
    exact ih fun e he => hentries e (List.mem_cons_of_mem _ he)

/-- **What is put back under the owned keys is what was there before.** -/
theorem otelEntry_putOwned {prior : toml.Document} (keys : List String) (key : String)
    (hvalues : ∀ key ∈ keys, ∀ item ∈ otelEntry toml prior key, (toml.asValue item).isSome) :
    ∀ document, toml.tableLikeAt document "otel" = true →
      otelEntry toml (keys.foldl (fun document key =>
        match otelEntry toml prior key with
        | some item => toml.insertIn document "otel" key item
        | none => toml.removeIn document "otel" key) document) key =
      if key ∈ keys then otelEntry toml prior key else otelEntry toml document key := by
  induction keys with
  | nil => exact fun _ _ => rfl
  | cons name keys ih =>
    intro document h
    have hfirst := sameBut_putOwned edits prior h name
    rw [List.foldl_cons, ih (fun k hk => hvalues k (List.mem_cons_of_mem _ hk)) _ hfirst.tableLikeAt]
    by_cases hmem : key ∈ keys
    · simp [hmem]
    · by_cases hkey : key = name
      · subst hkey
        simp only [hmem, if_false, List.mem_cons_self, if_true]
        cases hown : otelEntry toml prior key with
        | none => exact otelEntry_removeIn edits h
        | some item => exact otelEntry_insertIn edits h (hvalues key List.mem_cons_self item hown)
      · rw [if_neg hmem, if_neg (by simp [hkey, hmem]), hfirst.otelEntry key (by simpa using hkey)]

/-! ### The check for conflicts -/

variable {managed : ManagedValues} {ownsNotify : Bool}

/-- The check asks for nothing else under an owned key. -/
structure Fits (managed : ManagedValues) (key : String) (item : toml.Item) : Prop where
  exporter : key = "exporter" → exporterMatches toml item managed = true
  logUserPrompt : key = "log_user_prompt" → toml.asValue item = some (.boolean false)
  environment : key = "environment" → (toml.asValue item).bind TomlValue.asStr = some "local"

omit edits in
theorem ensureAbsentOrMatching_ok_iff {item : Option toml.Item} {isMatch : toml.Item → Bool} :
    ensureAbsentOrMatching toml item isMatch = .ok () ↔ ∀ found ∈ item, isMatch found = true := by
  cases item with
  | none => simp [ensureAbsentOrMatching]
  | some found =>
    by_cases h : isMatch found = true
    · simp [ensureAbsentOrMatching, h]
    · simp [ensureAbsentOrMatching, h]

omit edits in
theorem ownedChecks_ok_iff {otel : toml.Item} :
    (do
      ensureAbsentOrMatching toml (toml.entry otel "exporter") fun item => exporterMatches toml item managed
      ensureAbsentOrMatching toml (toml.entry otel "log_user_prompt") fun item =>
        match toml.asValue item with
        | some (.boolean false) => true
        | _ => false
      ensureAbsentOrMatching toml (toml.entry otel "environment") fun item =>
        (toml.asValue item).bind TomlValue.asStr = some "local" : Except ConfigError Unit) = .ok () ↔
      ∀ key, ∀ item ∈ toml.entry otel key, Fits managed key item := by
  have hfalse : ∀ item, (match toml.asValue item with
      | some (.boolean false) => true
      | _ => false) = true ↔ toml.asValue item = some (.boolean false) := by
    intro item
    split
    · next h => simp [h]
    · next h => simpa using h
  have hthen : ∀ (x : Except ConfigError Unit) (f : Unit → Except ConfigError Unit),
      (x >>= f) = .ok () ↔ x = .ok () ∧ f () = .ok () := by
    intro x f
    rw [bind_eq_ok]
    exact ⟨fun ⟨(), h⟩ => h, fun h => ⟨(), h⟩⟩
  simp only [hthen, ensureAbsentOrMatching_ok_iff, hfalse, decide_eq_true_eq]
  constructor
  · rintro ⟨hexporter, hlog, henvironment⟩ key item hitem
    exact ⟨fun h => hexporter item (h ▸ hitem), fun h => hlog item (h ▸ hitem), fun h => henvironment item (h ▸ hitem)⟩
  · intro h
    exact ⟨fun item hitem => (h _ item hitem).exporter rfl, fun item hitem => (h _ item hitem).logUserPrompt rfl,
      fun item hitem => (h _ item hitem).environment rfl⟩

omit edits in
theorem throw_conflict_bind (f : PUnit → Except ConfigError Unit) :
    ((throw .conflict : Except ConfigError PUnit) >>= f) = .error .conflict := rfl

omit edits in
/-- What the check asks of the table. -/
theorem otelChecks_ok_iff :
    (do
      if let some otel := toml.get document "otel" then
        if !toml.isTableLike otel then throw .conflict
        ensureAbsentOrMatching toml (toml.entry otel "exporter") fun item => exporterMatches toml item managed
        ensureAbsentOrMatching toml (toml.entry otel "log_user_prompt") fun item =>
          match toml.asValue item with
          | some (.boolean false) => true
          | _ => false
        ensureAbsentOrMatching toml (toml.entry otel "environment") fun item =>
          (toml.asValue item).bind TomlValue.asStr = some "local" : Except ConfigError Unit) = .ok () ↔
      (toml.get document "otel" = none ∨ toml.tableLikeAt document "otel" = true) ∧
      ∀ key, ∀ item ∈ otelEntry toml document key, Fits managed key item := by
  cases ho : toml.get document "otel" with
  | none => simp [otelEntry_of_none ho, pure, Except.pure]
  | some otel =>
    cases hl : toml.isTableLike otel with
    | false => simp [TomlEdit.tableLikeAt, ho, hl, throw_conflict_bind]
    | true =>
      simp only [otelEntry_of_table ho hl]
      simpa [TomlEdit.tableLikeAt, ho, hl] using ownedChecks_ok_iff

omit edits in
/-- **What the check for conflicts asks of a document.** -/
theorem ensureNoManagedConflict_ok_iff :
    ensureNoManagedConflict toml document managed = .ok () ↔
      (∀ notify ∈ toml.get document "notify",
        notifyMatches toml notify managed = true ∨ validExternalNotify toml notify = true) ∧
      (toml.get document "otel" = none ∨ toml.tableLikeAt document "otel" = true) ∧
      ∀ key, ∀ item ∈ otelEntry toml document key, Fits managed key item := by
  unfold ensureNoManagedConflict
  rw [← otelChecks_ok_iff]
  cases hn : toml.get document "notify" with
  | none => exact ⟨fun h => ⟨nofun, h⟩, fun h => h.2⟩
  | some notify =>
    simp only [Option.mem_some_iff, forall_eq']
    by_cases hc : notifyMatches toml notify managed = true ∨ validExternalNotify toml notify = true
    · have hpass : (!notifyMatches toml notify managed && !validExternalNotify toml notify) = false := by
        rcases hc with h | h <;> simp [h]
      simp only [hpass, Bool.false_eq_true, if_false]
      exact ⟨fun h => ⟨hc, h⟩, fun h => h.2⟩
    · have hfail : (!notifyMatches toml notify managed && !validExternalNotify toml notify) = true := by
        simpa [not_or] using hc
      simp only [hfail, if_true, throw_conflict_bind]
      constructor
      · intro h
        cases h
      · exact fun h => absurd h.1 hc

/-! ### The managed values go in -/

/-- What patching leaves of a document and adds to it. -/
structure Patched (managed : ManagedValues) (ownsNotify : Bool) (document edited : toml.Document) : Prop where
  get : ∀ key, key ≠ "otel" → key ≠ "notify" → toml.get edited key = toml.get document key
  notify : toml.get edited "notify" =
    (toml.get document "notify").or (if ownsNotify then some (toml.value managed.notify) else none)
  tableLikeAt : toml.tableLikeAt edited "otel" = true
  otelEntry : ∀ key, otelEntry toml edited key =
    (otelEntry toml document key).or ((TomlValue.entry (managedEntries managed) key).map toml.value)

omit edits in
theorem entry_managedEntries_of_not_owned (managed : ManagedValues) (h : key ∉ ownedOtelKeys) :
    TomlValue.entry (managedEntries managed) key = none := by
  simp only [ownedOtelKeys, List.mem_cons, List.not_mem_nil, or_false, not_or] at h
  simp [TomlValue.entry, managedEntries, Ne.symm h.1, Ne.symm h.2.1, Ne.symm h.2.2]

theorem fits_managed {value : TomlValue} (h : TomlValue.entry (managedEntries managed) key = some value) :
    Fits managed key (toml.value value) := by
  have hexporter : exporterMatches toml (toml.value managed.exporter) managed = true := by
    unfold exporterMatches
    rw [edits.asValue_value]
    simp [ManagedValues.exporter, TomlValue.asInlineTable, TomlValue.entry, TomlValue.asStr]
  by_cases he : key = "exporter"
  · subst he
    obtain rfl : managed.exporter = value := by simpa [TomlValue.entry, managedEntries] using h
    exact ⟨fun _ => hexporter, nofun, nofun⟩
  · by_cases hl : key = "log_user_prompt"
    · subst hl
      obtain rfl : TomlValue.boolean false = value := by simpa [TomlValue.entry, managedEntries] using h
      exact ⟨nofun, fun _ => edits.asValue_value _, nofun⟩
    · by_cases hv : key = "environment"
      · subst hv
        obtain rfl : TomlValue.string "local" = value := by simpa [TomlValue.entry, managedEntries] using h
        exact ⟨nofun, nofun, fun _ => by rw [edits.asValue_value]; rfl⟩
      · exact ⟨fun h => absurd h he, fun h => absurd h hl, fun h => absurd h hv⟩

theorem notifyMatches_managed (managed : ManagedValues) :
    notifyMatches toml (toml.value managed.notify) managed = true := by
  unfold notifyMatches asArray
  rw [edits.asValue_value]
  simp [ManagedValues.notify, TomlValue.asStr]

/-- **What patching does to a document without conflicts.** -/
theorem patchManagedValues_patched (h : ensureNoManagedConflict toml document managed = .ok ()) (ownsNotify : Bool) :
    ∃ edited, patchManagedValues toml document managed ownsNotify = some edited ∧
      Patched managed ownsNotify document edited := by
  obtain ⟨-, hotel, -⟩ := ensureNoManagedConflict_ok_iff.mp h
  simp only [patchManagedValues]
  -- First the notify slot,
  generalize hd : (if ownsNotify = true ∧ (toml.get document "notify").isNone = true then
      toml.set document "notify" (toml.value managed.notify)
    else document) = noted
  have hnotify : toml.get noted "notify" =
      (toml.get document "notify").or (if ownsNotify then some (toml.value managed.notify) else none) := by
    rw [← hd]
    cases ownsNotify with
    | false => simp
    | true =>
      cases hn : toml.get document "notify" with
      | none => simp [edits.get_set]
      | some notify => simp [hn]
  have hothers : ∀ key, key ≠ "notify" → toml.get noted key = toml.get document key := by
    intro key hkey
    rw [← hd]
    split_ifs
    · exact edits.get_set_of_ne document "notify" key _ (Ne.symm hkey)
    · rfl
  -- then the table,
  generalize ht : (if (toml.get noted "otel").isNone = true then toml.set noted "otel" toml.table else noted) = tabled
  have hget : ∀ key, key ≠ "otel" → toml.get tabled key = toml.get noted key := by
    intro key hkey
    rw [← ht]
    split_ifs
    · exact edits.get_set_of_ne noted "otel" key _ (Ne.symm hkey)
    · rfl
  have htable : toml.tableLikeAt tabled "otel" = true ∧ ∀ key, otelEntry toml tabled key = otelEntry toml document key := by
    rw [← ht]
    cases ho : toml.get document "otel" with
    | none =>
      have hset := edits.get_set noted "otel" toml.table
      rw [hothers "otel" (by decide), ho, Option.isNone_none, if_pos rfl]
      refine ⟨tableLikeAt_eq_true.mpr ⟨_, hset, edits.isTableLike_table⟩, fun key => ?_⟩
      rw [otelEntry_of_table hset edits.isTableLike_table, otelEntry_of_none ho, edits.entry_table]
    | some otel =>
      have hlike := hotel.resolve_left (by simp [ho])
      have hnoted : toml.get noted "otel" = some otel := (hothers "otel" (by decide)).trans ho
      rw [hnoted, Option.isNone_some, if_neg (by decide)]
      refine ⟨?_, fun key => ?_⟩
      · rw [TomlEdit.tableLikeAt, hnoted, ← ho]
        exact hlike
      · rw [otelEntry, otelEntry, hnoted, ho]
  -- and its entries.
  have hfill : SameBut toml ((managedEntries managed).map (·.1)) tabled _ :=
    SameBut.foldl (managedEntries managed) (fun d entry hentry hd => (sameBut_fill edits hd entry).mono
      fun key hkey => by
        rw [List.mem_singleton.mp hkey]
        exact List.mem_map_of_mem hentry) tabled htable.1
  refine ⟨_, if_pos htable.1, ?_, ?_, hfill.tableLikeAt, fun key => ?_⟩
  · intro key hkey hkey'
    rw [hfill.get key hkey, hget key hkey, hothers key hkey']
  · rw [hfill.get "notify" (by decide), hget "notify" (by decide), hnotify]
  · rw [otelEntry_fill edits (managedEntries managed) key tabled htable.1, htable.2]

omit edits in
theorem Patched.keepsOthers (h : Patched managed ownsNotify document edited) :
    KeepsOthers toml ownsNotify document edited where
  get key hkey hnotify := by
    by_cases hn : key = "notify"
    · subst hn
      rw [h.notify, hnotify rfl]
      simp
    · exact h.get key hkey hn
  otelEntry key hkey := by
    rw [h.otelEntry, entry_managedEntries_of_not_owned managed hkey]
    simp

/-- What was patched has no conflict. -/
theorem Patched.unconflicted (h : Patched managed ownsNotify document edited)
    (hd : ensureNoManagedConflict toml document managed = .ok ()) :
    ensureNoManagedConflict toml edited managed = .ok () := by
  obtain ⟨hnotify, -, hentries⟩ := ensureNoManagedConflict_ok_iff.mp hd
  refine ensureNoManagedConflict_ok_iff.mpr ⟨fun notify hn => ?_, .inr h.tableLikeAt, fun key item hitem => ?_⟩
  · rw [h.notify, Option.mem_def, Option.or_eq_some_iff] at hn
    rcases hn with hn | ⟨-, hn⟩
    · exact hnotify notify hn
    · cases ownsNotify with
      | false => simp at hn
      | true =>
        obtain rfl : toml.value managed.notify = notify := by simpa using hn
        exact .inl (notifyMatches_managed edits managed)
  · rw [h.otelEntry, Option.mem_def, Option.or_eq_some_iff] at hitem
    rcases hitem with hitem | ⟨-, hitem⟩
    · exact hentries key item hitem
    · obtain ⟨value, hvalue, rfl⟩ := Option.map_eq_some_iff.mp hitem
      exact fits_managed edits hvalue

omit edits in
/-- What was patched is not patched again. -/
theorem Patched.twice (h : Patched managed ownsNotify document edited) :
    patchManagedValues toml edited managed ownsNotify = some edited := by
  have hnotify : ¬ (ownsNotify = true ∧ (toml.get edited "notify").isNone = true) := by
    rintro ⟨rfl, hnone⟩
    rw [h.notify] at hnone
    simp at hnone
  obtain ⟨table, htable, -⟩ := tableLikeAt_eq_true.mp h.tableLikeAt
  have hpresent : ∀ entry ∈ managedEntries managed, (CodexConfig.otelEntry toml edited entry.1).isSome := by
    intro entry hentry
    rw [h.otelEntry]
    simp only [managedEntries, List.mem_cons, List.not_mem_nil, or_false] at hentry
    rcases hentry with rfl | rfl | rfl <;> simp [TomlValue.entry, managedEntries]
  simp only [patchManagedValues, if_neg hnotify, htable, Option.isNone_some, Bool.false_eq_true, if_false, h.tableLikeAt,
    if_true, Option.some.injEq]
  exact fill_eq_self (managedEntries managed) h.tableLikeAt hpresent

/-! ### The managed values come out -/

/-- **No key that the manager does not own differs where its values were replaced.** -/
theorem keepsOthers_replaceManagedValues (h : replaceManagedValues toml document managed ownsNotify = some edited) :
    KeepsOthers toml ownsNotify document edited := by
  simp only [replaceManagedValues, Option.ite_none_right_eq_some, Option.some.injEq] at h
  obtain ⟨hlike, rfl⟩ := h
  generalize hd : (if ownsNotify = true then toml.set document "notify" (toml.value managed.notify) else document) = noted
    at hlike ⊢
  have hnoted : ∀ key, (key = "notify" → ownsNotify = false) → toml.get noted key = toml.get document key := by
    intro key hkey
    rw [← hd]
    split_ifs with ho
    · exact edits.get_set_of_ne document "notify" key _ fun heq => by simp [hkey heq.symm] at ho
    · rfl
  have hput : SameBut toml ownedOtelKeys noted _ :=
    SameBut.foldl (managedEntries managed) (fun d entry hentry hd => (sameBut_insertIn edits hd entry.1 (toml.value entry.2)).mono
      fun key hkey => by
        rw [List.mem_singleton.mp hkey]
        exact List.mem_map_of_mem (f := Prod.fst) hentry) noted hlike
  refine ⟨fun key hkey hnotify => ?_, fun key hkey => ?_⟩
  · rw [hput.get key hkey, hnoted key hnotify]
  · rw [hput.otelEntry key hkey, otelEntry, otelEntry, hnoted "otel" fun heq => absurd heq (by decide)]

theorem get_putNotify (document prior : toml.Document) (ownsNotify : Bool) (h : key ≠ "notify") :
    toml.get (if ownsNotify then
      match toml.get prior "notify" with
      | some item => toml.set document "notify" item
      | none => toml.remove document "notify"
    else document) key = toml.get document key := by
  split_ifs
  · cases toml.get prior "notify" with
    | none => exact edits.get_remove_of_ne document "notify" key (Ne.symm h)
    | some item => exact edits.get_set_of_ne document "notify" key item (Ne.symm h)
  · rfl

theorem notify_putNotify (document prior : toml.Document) (ownsNotify : Bool) :
    toml.get (if ownsNotify then
      match toml.get prior "notify" with
      | some item => toml.set document "notify" item
      | none => toml.remove document "notify"
    else document) "notify" = toml.get (if ownsNotify then prior else document) "notify" := by
  cases ownsNotify with
  | false => rfl
  | true =>
    cases hn : toml.get prior "notify" with
    | none => simp [hn, edits.get_remove]
    | some item => simp [hn, edits.get_set]

/-- Nothing is restored without a table. -/
theorem tableLikeAt_of_restoreOwnedValues {prior : toml.Document}
    (h : restoreOwnedValues toml document prior ownsNotify = .ok edited) : toml.tableLikeAt document "otel" = true := by
  have hget := get_putNotify edits document prior ownsNotify (show "otel" ≠ "notify" by decide)
  by_contra hn
  rw [TomlEdit.tableLikeAt, ← hget] at hn
  have herror : restoreOwnedValues toml document prior ownsNotify = .error .conflict := if_neg hn
  rw [herror] at h
  cases h

/-- What restoring makes of a document before it looks whether the table is empty. -/
structure PutBack (ownsNotify : Bool) (document prior edited : toml.Document) : Prop where
  get : ∀ key, key ≠ "otel" → key ≠ "notify" → toml.get edited key = toml.get document key
  notify : toml.get edited "notify" = toml.get (if ownsNotify then prior else document) "notify"
  tableLikeAt : toml.tableLikeAt edited "otel" = true
  otherEntry : ∀ key ∉ ownedOtelKeys, otelEntry toml edited key = otelEntry toml document key
  ownedEntry : (∀ key ∈ ownedOtelKeys, ∀ item ∈ otelEntry toml prior key, (toml.asValue item).isSome) →
    ∀ key ∈ ownedOtelKeys, otelEntry toml edited key = otelEntry toml prior key

/-- **What restoring does**: it puts back what was under the owned keys, and removes the table that is empty then. -/
theorem restoreOwnedValues_putBack (h : toml.tableLikeAt document "otel" = true) (prior : toml.Document) (ownsNotify : Bool) :
    ∃ edited, PutBack ownsNotify document prior edited ∧ restoreOwnedValues toml document prior ownsNotify =
      .ok (if toml.isEmptyIn edited "otel" then toml.remove edited "otel" else edited) := by
  have hothers := fun key (hkey : key ≠ "notify") => get_putNotify edits document prior ownsNotify hkey
  have hnotify := notify_putNotify edits document prior ownsNotify
  simp only [restoreOwnedValues]
  generalize (if ownsNotify = true then
      match toml.get prior "notify" with
      | some item => toml.set document "notify" item
      | none => toml.remove document "notify"
    else document) = noted at hothers hnotify
  have hlike : toml.tableLikeAt noted "otel" = true := by
    rw [TomlEdit.tableLikeAt, hothers "otel" (by decide)]
    exact h
  have hentry : ∀ key, otelEntry toml noted key = otelEntry toml document key := by
    intro key
    rw [otelEntry, otelEntry, hothers "otel" (by decide)]
  have hput : SameBut toml ownedOtelKeys noted _ :=
    SameBut.foldl ownedOtelKeys (fun d key hkey hd => (sameBut_putOwned edits prior hd key).mono
      fun other hother => by
        rw [List.mem_singleton.mp hother]
        exact hkey) noted hlike
  refine ⟨_, ⟨fun key hkey hkey' => ?_, ?_, hput.tableLikeAt, fun key hkey => ?_, fun hvalues key hkey => ?_⟩, if_pos hlike⟩
  · rw [hput.get key hkey, hothers key hkey']
  · rw [hput.get "notify" (by decide), hnotify]
  · rw [hput.otelEntry key hkey, hentry]
  · rw [otelEntry_putOwned edits ownedOtelKeys key hvalues noted hlike, if_pos hkey]

/-- The entries of a document whose table is removed when it is empty are those that it had. -/
theorem otelEntry_removeEmpty (h : toml.tableLikeAt document "otel" = true) (key : String) :
    otelEntry toml (if toml.isEmptyIn document "otel" then toml.remove document "otel" else document) key =
      otelEntry toml document key := by
  split_ifs with hempty
  · rw [otelEntry_of_none (edits.get_remove document "otel"), (isEmptyIn_iff_otelEntry edits h).mp hempty]
  · rfl

theorem get_removeEmpty (document : toml.Document) (h : key ≠ "otel") :
    toml.get (if toml.isEmptyIn document "otel" then toml.remove document "otel" else document) key =
      toml.get document key := by
  split_ifs
  · exact edits.get_remove_of_ne document "otel" key (Ne.symm h)
  · rfl

/-- **No key that the manager does not own differs where its values were taken out.** -/
theorem keepsOthers_restoreOwnedValues {prior : toml.Document}
    (h : restoreOwnedValues toml document prior ownsNotify = .ok edited) : KeepsOthers toml ownsNotify document edited := by
  have hlike := tableLikeAt_of_restoreOwnedValues edits h
  obtain ⟨put, hput, hrestore⟩ := restoreOwnedValues_putBack edits hlike prior ownsNotify
  rw [hrestore] at h
  cases h
  refine ⟨fun key hkey hnotify => ?_, fun key hkey => ?_⟩
  · rw [get_removeEmpty edits put hkey]
    by_cases hn : key = "notify"
    · subst hn
      rw [hput.notify, hnotify rfl]
      rfl
    · exact hput.get key hkey hn
  · rw [otelEntry_removeEmpty edits hput.tableLikeAt, hput.otherEntry key hkey]

/-! ### The round trip -/

omit edits in
theorem rel_sameItem {item item' : Option toml.Item} (h : item = item') : Option.Rel toml.SameItem item item' := by
  subst h
  cases item with
  | none => exact .none
  | some item => exact .some (.inl rfl)

/-- **A table that is removed when it is empty has the tree of a table that is not**, or of no table. -/
theorem sameTree_removeEmpty_iff (hlike : toml.tableLikeAt edited "otel" = true)
    (hotel : toml.get document "otel" = none ∨ toml.tableLikeAt document "otel" = true)
    (hget : ∀ key, key ≠ "otel" → toml.get edited key = toml.get document key)
    (hentry : ∀ key, otelEntry toml edited key = otelEntry toml document key) :
    toml.SameTree (if toml.isEmptyIn edited "otel" then toml.remove edited "otel" else edited) document ↔
      ∀ otel ∈ toml.get document "otel", ∃ key, (toml.entry otel key).isSome := by
  have hothers := fun key (hkey : key ≠ "otel") => (get_removeEmpty edits edited hkey).trans (hget key hkey)
  by_cases hempty : toml.isEmptyIn edited "otel" = true
  · have hnone := (isEmptyIn_iff_otelEntry edits hlike).mp hempty
    simp only [hempty, if_true] at hothers ⊢
    have hremoved := edits.get_remove edited "otel"
    constructor
    · intro htree otel hd
      have hrel := htree "otel"
      rw [hremoved, hd] at hrel
      cases hrel
    · intro hsome key
      by_cases hkey : key = "otel"
      · subst hkey
        apply rel_sameItem
        rw [hremoved]
        rcases hotel with hd | hd
        · exact hd.symm
        · obtain ⟨table, htable, htlike⟩ := tableLikeAt_eq_true.mp hd
          obtain ⟨key, hkey⟩ := hsome table htable
          rw [← otelEntry_of_table htable htlike, ← hentry, hnone] at hkey
          cases hkey
      · exact rel_sameItem (hothers key hkey)
  · simp only [hempty, Bool.false_eq_true, if_false] at hothers ⊢
    have hsome : ∃ key, otelEntry toml document key ≠ none := by
      by_contra hno
      refine hempty ((isEmptyIn_iff_otelEntry edits hlike).mpr fun key => ?_)
      rw [hentry]
      exact not_not.mp fun hkey => hno ⟨key, hkey⟩
    obtain ⟨owned, howned⟩ := hsome
    have hdlike := hotel.resolve_left fun hd => howned (otelEntry_of_none hd owned)
    obtain ⟨table, htable, htlike⟩ := tableLikeAt_eq_true.mp hdlike
    obtain ⟨table', htable', htlike'⟩ := tableLikeAt_eq_true.mp hlike
    constructor
    · intro _ otel hd
      obtain rfl : table = otel := Option.some.inj (htable.symm.trans hd)
      rw [otelEntry_of_table htable htlike] at howned
      exact ⟨owned, Option.isSome_iff_ne_none.mpr howned⟩
    · intro _ key
      by_cases hkey : key = "otel"
      · subst hkey
        rw [htable, htable']
        refine .some (.inr ⟨htlike', htlike, fun key => ?_⟩)
        rw [← otelEntry_of_table htable' htlike', hentry, otelEntry_of_table htable htlike]
      · exact rel_sameItem (hothers key hkey)

omit edits in
/-- What fits under an owned key is a value. -/
theorem Fits.isValue {item : toml.Item} (h : Fits managed key item) (hkey : key ∈ ownedOtelKeys) :
    (toml.asValue item).isSome := by
  simp only [ownedOtelKeys, List.mem_cons, List.not_mem_nil, or_false] at hkey
  rcases hkey with rfl | rfl | rfl
  · have hmatches := h.exporter rfl
    unfold exporterMatches at hmatches
    cases hv : toml.asValue item with
    | none => simp [hv] at hmatches
    | some value => rfl
  · simp [h.logUserPrompt rfl]
  · have hlocal := h.environment rfl
    cases hv : toml.asValue item with
    | none => simp [hv] at hlocal
    | some value => rfl

/-- **The managed values go into a document without conflicts and come out again**, beside the other keys and only
once, unless the table of the document was there and empty. -/
theorem managed_round_trip (h : ensureNoManagedConflict toml document managed = .ok ()) (ownsNotify : Bool) :
    RoundTrips toml managed ownsNotify document ↔
      ∀ otel ∈ toml.get document "otel", ∃ key, (toml.entry otel key).isSome := by
  obtain ⟨-, hotel, hfits⟩ := ensureNoManagedConflict_ok_iff.mp h
  obtain ⟨edited, hpatch, hpatched⟩ := patchManagedValues_patched edits h ownsNotify
  obtain ⟨put, hput, hrestore⟩ := restoreOwnedValues_putBack edits hpatched.tableLikeAt document ownsNotify
  have hget : ∀ key, key ≠ "otel" → toml.get put key = toml.get document key := by
    intro key hkey
    by_cases hn : key = "notify"
    · subst hn
      rw [hput.notify]
      cases ownsNotify with
      | true => rfl
      | false => simpa using hpatched.notify
    · rw [hput.get key hkey hn, hpatched.get key hkey hn]
  have hentry : ∀ key, otelEntry toml put key = otelEntry toml document key := by
    intro key
    by_cases hkey : key ∈ ownedOtelKeys
    · exact hput.ownedEntry (fun key hkey item hitem => (hfits key item hitem).isValue hkey) key hkey
    · rw [hput.otherEntry key hkey, hpatched.keepsOthers.otelEntry key hkey]
  have htree := sameTree_removeEmpty_iff edits hput.tableLikeAt hotel hget hentry
  constructor
  · rintro ⟨⟨edited', hp, -, -, -, restored, hr, hsame⟩, -, -⟩
    obtain rfl : edited = edited' := Option.some.inj (hpatch.symm.trans hp)
    rw [hrestore] at hr
    cases hr
    exact htree.mp hsame
  · intro hsome
    refine ⟨⟨edited, hpatch, hpatched.keepsOthers, hpatched.unconflicted edits h, hpatched.twice, _, hrestore,
      htree.mpr hsome⟩, ?_, ?_⟩
    · exact fun values replaced hreplace => keepsOthers_replaceManagedValues edits hreplace
    · exact fun prior rebased hrebase => keepsOthers_restoreOwnedValues edits hrebase

end Documents

end AgentObservability.CodexConfig
