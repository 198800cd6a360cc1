import AgentObservability.CodexConfig.PlainToml
import AgentObservability.CodexConfig.Restore

/-!
# An editor of trees

The documents of two levels, held as `toml_edit` holds them: a table is its entries in
the order in which they were put in, and a table is written out or inline. `edits` says
that the editor does what the manager relies on (`managed_round_trip_trace`).
-/

namespace AgentObservability.CodexConfig.TomlTree

/-! ### Entries in the order in which they were put in -/

section Entries

variable {α : Type}

/-- `get`. -/
def lookup (entries : List (String × α)) (key : String) : Option α := (entries.find? fun e => e.1 = key).map (·.2)

/-- `insert`: in the place of the entry that is there, or at the end. -/
def put (entries : List (String × α)) (key : String) (a : α) : List (String × α) :=
  match entries with
  | [] => [(key, a)]
  | e :: entries => if e.1 = key then (key, a) :: entries else e :: put entries key a

/-- `remove`. -/
def drop (entries : List (String × α)) (key : String) : List (String × α) := entries.filter fun e => e.1 ≠ key

variable {entries : List (String × α)} {key other : String} {a : α}

theorem lookup_cons (e : String × α) (entries : List (String × α)) (key : String) :
    lookup (e :: entries) key = if e.1 = key then some e.2 else lookup entries key := by
  by_cases h : e.1 = key
  · simp [lookup, h]
  · simp [lookup, h]

theorem lookup_put : lookup (put entries key a) other = if key = other then some a else lookup entries other := by
  induction entries with
  | nil => exact lookup_cons ..
  | cons e entries ih =>
    by_cases he : e.1 = key
    · rw [put, if_pos he, lookup_cons, lookup_cons, he]
      split_ifs <;> rfl
    · rw [put, if_neg he, lookup_cons, lookup_cons, ih]
      by_cases ho : e.1 = other
      · rw [if_pos ho, if_neg fun h => he (ho.trans h.symm), if_pos ho]
      · rw [if_neg ho, if_neg ho]

theorem lookup_drop : lookup (drop entries key) other = if key = other then none else lookup entries other := by
  induction entries with
  | nil => simp [drop, lookup]
  | cons e entries ih =>
    by_cases he : e.1 = key
    · have hdrop : drop (e :: entries) key = drop entries key := by simp [drop, he]
      rw [hdrop, ih, lookup_cons, he]
      split_ifs <;> rfl
    · have hdrop : drop (e :: entries) key = e :: drop entries key := by simp [drop, he]
      rw [hdrop, lookup_cons, ih, lookup_cons]
      by_cases ho : e.1 = other
      · rw [if_pos ho, if_neg fun h => he (ho.trans h.symm), if_pos ho]
      · rw [if_neg ho, if_neg ho]

theorem isEmpty_iff_lookup : entries.isEmpty = true ↔ ∀ key, lookup entries key = none := by
  cases entries with
  | nil => simp [lookup]
  | cons e entries =>
    refine ⟨nofun, fun h => ?_⟩
    have hnone := h e.1
    rw [lookup_cons, if_pos rfl] at hnone
    cases hnone

end Entries

/-! ### The editor -/

/-- `Item`. -/
inductive Item where
  /-- `Item::Value`. -/
  | value (v : TomlValue)
  /-- `Item::Table`. -/
  | table (entries : List (String × TomlValue))

namespace Item

/-- `Item::as_value`. -/
def asValue : Item → Option TomlValue
  | .value v => some v
  | .table _ => none

/-- `Item::into_value`. -/
def intoValue : Item → TomlValue
  | .value v => v
  | .table entries => .inlineTable entries

/-- The entries of `Item::as_table_like`. -/
def asTableLike : Item → Option (List (String × TomlValue))
  | .value (.inlineTable entries) => some entries
  | .value _ => none
  | .table entries => some entries

/-- An item like a table with other entries. -/
def edit (item : Item) (f : List (String × TomlValue) → List (String × TomlValue)) : Item :=
  match item with
  | .value (.inlineTable entries) => .value (.inlineTable (f entries))
  | .value v => .value v
  | .table entries => .table (f entries)

theorem asTableLike_edit (item : Item) (f : List (String × TomlValue) → List (String × TomlValue)) :
    (item.edit f).asTableLike = item.asTableLike.map f := by
  cases item with
  | table entries => rfl
  | value v => cases v <;> rfl

/-- `table.get(key)`. -/
def entry (item : Item) (key : String) : Option Item :=
  item.asTableLike.bind fun entries => (lookup entries key).map .value

/-- `Item::to_string`. -/
def text : Item → List Char
  | .value v => PlainToml.print v
  | .table entries => entries.flatMap fun e => e.1.toList ++ " = ".toList ++ PlainToml.print e.2 ++ ['\n']

end Item

/-- The text of an entry of a document. -/
def entryText (e : String × Item) : List Char :=
  match e.2 with
  | .value v => e.1.toList ++ " = ".toList ++ PlainToml.print v ++ ['\n']
  | .table entries => '[' :: e.1.toList ++ "]\n".toList ++ (Item.table entries).text

/-- The document with another item under a key that is there. -/
def editAt (document : List (String × Item)) (key : String) (f : Item → Item) : List (String × Item) :=
  match lookup document key with
  | some item => put document key (f item)
  | none => document

/-- The editor. No text but the empty one is read. -/
def editor : TomlEdit where
  Document := List (String × Item)
  Item := Item
  new := []
  parse text := if text.isEmpty then .ok [] else .error "not an empty document"
  toText document := String.ofList ((document.filter (·.2.asValue.isSome) ++ document.filter (·.2.asValue.isNone)).flatMap entryText)
  get := lookup
  set := put
  remove := drop
  asValue := Item.asValue
  isTableLike item := item.asTableLike.isSome
  entry := Item.entry
  itemText item := String.ofList item.text
  value := .value
  valueText v := String.ofList (PlainToml.print v)
  table := .table []
  insertIn document key inner item := editAt document key fun table => table.edit fun entries => put entries inner item.intoValue
  removeIn document key inner := editAt document key fun table => table.edit fun entries => drop entries inner
  isEmptyIn document key := (lookup document key).any fun table => table.asTableLike.any List.isEmpty

theorem lookup_editAt_of_ne {document : List (String × Item)} {key other : String} (f : Item → Item) (h : key ≠ other) :
    lookup (editAt document key f) other = lookup document other := by
  unfold editAt
  cases lookup document key with
  | none => rfl
  | some item => rw [lookup_put, if_neg h]

theorem lookup_editAt {document : List (String × Item)} {key : String} {item : Item} (f : Item → Item)
    (h : lookup document key = some item) : lookup (editAt document key f) key = some (f item) := by
  unfold editAt
  rw [h, lookup_put, if_pos rfl]

/-- What an edit of a table leaves and what it changes. -/
theorem entry_editAt {document : List (String × Item)} {key : String} {table : Item}
    (f : List (String × TomlValue) → List (String × TomlValue)) (h : lookup document key = some table)
    (hlike : table.asTableLike.isSome = true) :
    ∃ entries, table.asTableLike = some entries ∧ ∃ again, lookup (editAt document key fun table => table.edit f) key = some again ∧
      again.asTableLike = some (f entries) := by
  obtain ⟨entries, hentries⟩ := Option.isSome_iff_exists.mp hlike
  exact ⟨entries, hentries, _, lookup_editAt _ h, by rw [Item.asTableLike_edit, hentries]; rfl⟩

theorem entry_of_put {table again : Item} {entries : List (String × TomlValue)} {inner : String} {v : TomlValue}
    (h : table.asTableLike = some entries) (hagain : again.asTableLike = some (put entries inner v)) (other : String) :
    again.entry other = if inner = other then some (.value v) else table.entry other := by
  rw [Item.entry, Item.entry, hagain, h, Option.bind_some, Option.bind_some, lookup_put]
  split_ifs <;> rfl

theorem entry_of_drop {table again : Item} {entries : List (String × TomlValue)} {inner : String}
    (h : table.asTableLike = some entries) (hagain : again.asTableLike = some (drop entries inner)) (other : String) :
    again.entry other = if inner = other then none else table.entry other := by
  rw [Item.entry, Item.entry, hagain, h, Option.bind_some, Option.bind_some, lookup_drop]
  split_ifs <;> rfl

theorem isEmpty_iff_entry {table : Item} {entries : List (String × TomlValue)} (h : table.asTableLike = some entries) :
    table.asTableLike.any List.isEmpty = true ↔ ∀ inner, table.entry inner = none := by
  rw [h, Option.any_some, isEmpty_iff_lookup]
  refine forall_congr' fun inner => ?_
  rw [Item.entry, h, Option.bind_some, Option.map_eq_none_iff]

/-- **The editor of trees does what the manager relies on.** -/
theorem edits : editor.Edits where
  asValue_value _ := rfl
  isTableLike_table := rfl
  entry_table _ := rfl
  get_set document key item := lookup_put.trans (if_pos rfl)
  get_set_of_ne document key other item h := lookup_put.trans (if_neg h)
  get_remove document key := lookup_drop.trans (if_pos rfl)
  get_remove_of_ne document key other h := lookup_drop.trans (if_neg h)
  get_insertIn_of_ne document key inner item other h := lookup_editAt_of_ne _ h
  get_removeIn_of_ne document key inner other h := lookup_editAt_of_ne _ h
  insertIn_table document key inner item table h hlike := by
    obtain ⟨entries, hentries, again, hagain, hedited⟩ :=
      entry_editAt (fun entries => put entries inner (Item.intoValue item)) h hlike
    refine ⟨again, hagain, Option.isSome_iff_exists.mpr ⟨_, hedited⟩, fun hvalue => ?_, fun other hother => ?_⟩
    · cases item with
      | table entries => cases hvalue
      | value v => exact (entry_of_put hentries hedited inner).trans (if_pos rfl)
    · exact (entry_of_put hentries hedited other).trans (if_neg hother)
  removeIn_table document key inner table h hlike := by
    obtain ⟨entries, hentries, again, hagain, hedited⟩ := entry_editAt (fun entries => drop entries inner) h hlike
    refine ⟨again, hagain, Option.isSome_iff_exists.mpr ⟨_, hedited⟩, ?_, fun other hother => ?_⟩
    · exact (entry_of_drop hentries hedited inner).trans (if_pos rfl)
    · exact (entry_of_drop hentries hedited other).trans (if_neg hother)
  isEmptyIn_iff document key table h hlike := by
    obtain ⟨entries, hentries⟩ := Option.isSome_iff_exists.mp hlike
    have hany : editor.isEmptyIn document key = table.asTableLike.any List.isEmpty := congrArg (Option.any _) h
    rw [hany]
    exact isEmpty_iff_entry hentries

/-! ### A table of the user's -/

/-- The managed values of an installation. -/
def installed : ManagedValues where
  binary := "/usr/local/bin/agentobs"
  runtimeRoot := "/var/agentobs"
  endpoint := "https://127.0.0.1:4318/v1/logs"
  caCertificate := "/var/agentobs/ca.pem"
  authHeaderValue := "token"

/-- A model, and a table with an exporter for the traces. -/
def traced : List (String × Item) :=
  [("model", .value (.string "before")), ("otel", .table [("trace_exporter", .string "none")])]

/-- The values go in beside an exporter for the traces, and come out again. -/
theorem managed_round_trip_traced :
    ensureNoManagedConflict editor traced installed = .ok () ∧ RoundTrips editor installed true traced := by
  have hunconflicted : ensureNoManagedConflict editor traced installed = .ok () := rfl
  refine ⟨hunconflicted, (managed_round_trip edits hunconflicted true).mpr ?_⟩
  rintro _ ⟨⟩
  exact ⟨"trace_exporter", rfl⟩

/-- A table without entries. -/
def emptyTable : List (String × Item) := [("otel", .table [])]

/-- **An empty table of the user's does not come out again.** -/
theorem not_managed_round_trip : ¬ ∀ (toml : TomlEdit) (document : toml.Document) (managed : ManagedValues) (ownsNotify : Bool),
    toml.Edits → ensureNoManagedConflict toml document managed = .ok () → RoundTrips toml managed ownsNotify document := by
  intro h
  obtain ⟨⟨patched, hpatch, -, -, -, restored, hrestore, hsame⟩, -, -⟩ := h editor emptyTable installed true edits rfl
  cases hpatch
  cases hrestore
  have hrel := hsame "otel"
  cases hrel

end AgentObservability.CodexConfig.TomlTree
