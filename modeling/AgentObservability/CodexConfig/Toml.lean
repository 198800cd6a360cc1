import AgentObservability.Foundation.Sha256
import Mathlib.Data.String.Basic

/-!
# The managed values of a Codex configuration

The configuration is a TOML document that the user writes too, so it is edited in
place, by an editor that keeps what it does not touch. `TomlEdit` is that editor
and `TomlEdit.Lawful` what the manager relies on; the rest is what the manager
asks of a document: whether its own values fit beside the user's, where they go,
and how they are taken out again.
-/

namespace AgentObservability.CodexConfig

open Foundation

/-- The bytes of a file. -/
abbrev Bytes := List UInt8

/-- Which of the two files an error is about. -/
inductive ConfigPath where
  /-- `config_path`. -/
  | config
  /-- `snapshot_path`. -/
  | snapshot
  deriving DecidableEq

/-- `ConfigError`. -/
inductive ConfigError where
  /-- `Conflict`. -/
  | conflict
  /-- `InsecurePermissions`. -/
  | insecurePermissions (path : ConfigPath)
  /-- `InvalidArgument`. -/
  | invalidArgument (argument : String)
  /-- `InvalidSnapshot`. -/
  | invalidSnapshot
  /-- `InvalidToml`. -/
  | invalidToml (error : String)
  /-- `Io`. -/
  | io
  /-- `TooLarge`. -/
  | tooLarge (path : ConfigPath)
  /-- `RollbackFailed`. -/
  | rollbackFailed
  deriving DecidableEq

/-! ### The editor -/

/-- `toml_edit::Value`. -/
inductive TomlValue where
  /-- A string. -/
  | string (s : String)
  /-- `true` or `false`. -/
  | boolean (b : Bool)
  /-- An array. -/
  | array (items : List TomlValue)
  /-- An inline table. -/
  | inlineTable (entries : List (String × TomlValue))
  /-- A number or a date. -/
  | other (text : String)

namespace TomlValue

/-- `Value::as_str`. -/
def asStr : TomlValue → Option String
  | .string s => some s
  | _ => none

/-- `Value::as_inline_table`. -/
def asInlineTable : TomlValue → Option (List (String × TomlValue))
  | .inlineTable entries => some entries
  | _ => none

/-- `InlineTable::get`. -/
def entry (entries : List (String × TomlValue)) (key : String) : Option TomlValue :=
  (entries.find? fun e => e.1 = key).map (·.2)

end TomlValue

/-- `toml_edit`, as far as it is used. -/
structure TomlEdit where
  /-- `DocumentMut`. -/
  Document : Type
  /-- `Item`, other than `Item::None`. -/
  Item : Type
  /-- `DocumentMut::new`. -/
  new : Document
  /-- `str::parse`. -/
  parse : String → Except String Document
  /-- `DocumentMut::to_string`. -/
  toText : Document → String
  /-- `document.get(key)`. -/
  get : Document → String → Option Item
  /-- `document[key] = item`. -/
  set : Document → String → Item → Document
  /-- `document.remove(key)`. -/
  remove : Document → String → Document
  /-- `Item::as_value`. -/
  asValue : Item → Option TomlValue
  /-- `item.as_table_like().is_some()`. -/
  isTableLike : Item → Bool
  /-- `table.get(key)`, of an item that is like a table. -/
  entry : Item → String → Option Item
  /-- `Item::to_string`. -/
  itemText : Item → String
  /-- `value(value)`. -/
  value : TomlValue → Item
  /-- `Value::to_string`. -/
  valueText : TomlValue → String
  /-- `Item::Table(Table::new())`. -/
  table : Item
  /-- `table.insert(key, item)`, of the table under a key of the document. -/
  insertIn : Document → String → String → Item → Document
  /-- `table.remove(key)`, of the table under a key of the document. -/
  removeIn : Document → String → String → Document
  /-- `table.is_empty()`, of the table under a key of the document. -/
  isEmptyIn : Document → String → Bool

namespace TomlEdit

variable (toml : TomlEdit)

/-- The document has something like a table under the key. -/
def tableLikeAt (document : toml.Document) (key : String) : Bool := (toml.get document key).any toml.isTableLike

/-- What the manager relies on: a printed document is parsed again with the tables it has, and an edit leaves the
tables where they are. -/
structure Lawful : Prop where
  parse_empty : toml.parse "" = .ok toml.new
  reparse : ∀ document, ∃ again, toml.parse (toml.toText document) = .ok again ∧
    ∀ key, toml.tableLikeAt again key = toml.tableLikeAt document key
  tableLikeAt_set_table : ∀ document, toml.tableLikeAt (toml.set document "otel" toml.table) "otel" = true
  get_set_of_ne : ∀ document key other item, key ≠ other →
    toml.get (toml.set document key item) other = toml.get document other
  tableLikeAt_insertIn : ∀ document key inner item other,
    toml.tableLikeAt (toml.insertIn document key inner item) other = toml.tableLikeAt document other

end TomlEdit

/-! ### The managed values -/

/-- The bytes of a text. -/
def intoBytes (text : String) : Bytes := text.toList.flatMap String.utf8EncodeChar

/-- `str::from_utf8`. -/
def fromUtf8 (bytes : Bytes) : Option String := String.fromUTF8? ⟨bytes.toArray⟩

theorem toByteArray_intoBytes (text : String) : (⟨(intoBytes text).toArray⟩ : ByteArray) = text.toByteArray := by
  rw [← String.utf8Encode_toList, List.utf8Encode]
  apply ByteArray.ext
  rw [List.data_toByteArray]
  rfl

@[simp] theorem fromUtf8_intoBytes (text : String) : fromUtf8 (intoBytes text) = some text := by
  rw [fromUtf8, toByteArray_intoBytes, String.fromUTF8?, dif_pos text.isValidUTF8]
  rfl

@[simp] theorem length_intoBytes (text : String) : (intoBytes text).length = text.utf8ByteSize := by
  have h := congrArg ByteArray.size (toByteArray_intoBytes text)
  rwa [String.size_toByteArray] at h

/-- `hash`. -/
def hash (bytes : Bytes) : String := Sha256.hexDigest bytes

/-- `AUTH_HEADER_NAME`. -/
def authHeaderName : String := "x-agent-observability-token"

/-- `OWNED_OTEL_KEYS`. -/
def ownedOtelKeys : List String := ["exporter", "log_user_prompt", "environment"]

/-- `managed_path`. -/
def managedPath (path argument : String) : Except ConfigError String :=
  if path.startsWith "/" then .ok path else .error (.invalidArgument argument)

/-- `ManagedValues`. -/
structure ManagedValues where
  /-- `binary`. -/
  binary : String
  /-- `runtime_root`. -/
  runtimeRoot : String
  /-- `endpoint`. -/
  endpoint : String
  /-- `ca_certificate`. -/
  caCertificate : String
  /-- `auth_header_value`. -/
  authHeaderValue : String
  deriving DecidableEq

namespace ManagedValues

/-- `ExporterSecurity::new` and `CodexConfigManager::new`, for a port as a `u16`. -/
def new (agentobsBinary runtimeRoot : String) (port : UInt16) (caCertificate authHeaderValue : String) :
    Except ConfigError ManagedValues := do
  if authHeaderValue.isEmpty ∨ authHeaderValue.toList.any fun c => ¬ (0x21 ≤ c.toNat ∧ c.toNat ≤ 0x7e) then
    throw (.invalidArgument "collector authentication header value")
  let caCertificate ← managedPath caCertificate "CA certificate path"
  let binary ← managedPath agentobsBinary "agentobs binary path"
  let runtimeRoot ← managedPath runtimeRoot "runtime root path"
  if port = 0 then throw (.invalidArgument "OTLP port")
  return ⟨binary, runtimeRoot, s!"https://127.0.0.1:{port.toNat}/v1/logs", caCertificate, authHeaderValue⟩

variable (managed : ManagedValues)

/-- `notify`. -/
def notify : TomlValue := .array [.string managed.binary, .string "codex-notify", .string managed.runtimeRoot]

/-- `exporter`. -/
def exporter : TomlValue :=
  .inlineTable [("otlp-http", .inlineTable [
    ("endpoint", .string managed.endpoint),
    ("protocol", .string "json"),
    ("tls", .inlineTable [("ca-certificate", .string managed.caCertificate)]),
    ("headers", .inlineTable [(authHeaderName, .string managed.authHeaderValue)])])]

/-- `fingerprint`. -/
def fingerprint (toml : TomlEdit) (ownsNotify : Bool) : String :=
  hash ((if ownsNotify then intoBytes (toml.valueText managed.notify) else []) ++
    intoBytes (toml.valueText managed.exporter) ++ intoBytes "\x00false\x00local")

end ManagedValues

section Documents

variable (toml : TomlEdit)

/-- `parse_document`. -/
def parseDocument (bytes : Bytes) : Except ConfigError toml.Document :=
  match fromUtf8 bytes with
  | none => .error (.invalidArgument "Codex config encoding")
  | some input =>
    if input.isEmpty then .ok toml.new
    else match toml.parse input with
      | .ok document => .ok document
      | .error error => .error (.invalidToml error)

/-- `document.to_string().into_bytes()`. -/
def documentBytes (document : toml.Document) : Bytes := intoBytes (toml.toText document)

/-- `item.as_array()` of an item. -/
def asArray (item : toml.Item) : Option (List TomlValue) :=
  match toml.asValue item with
  | some (.array items) => some items
  | _ => none

/-- `notify_matches`. -/
def notifyMatches (item : toml.Item) (managed : ManagedValues) : Bool :=
  match asArray toml item with
  | none => false
  | some array =>
    array.length = 3 ∧ array[0]?.bind TomlValue.asStr = some managed.binary ∧
      array[1]?.bind TomlValue.asStr = some "codex-notify" ∧
      array[2]?.bind TomlValue.asStr = some managed.runtimeRoot

/-- `valid_external_notify`. -/
def validExternalNotify (item : toml.Item) : Bool :=
  match asArray toml item with
  | none => false
  | some array => !array.isEmpty && array.all fun value => value.asStr.isSome

/-- `exporter_matches`. -/
def exporterMatches (item : toml.Item) (managed : ManagedValues) : Bool :=
  match (toml.asValue item).bind TomlValue.asInlineTable with
  | none => false
  | some exporter =>
    match (TomlValue.entry exporter "otlp-http").bind TomlValue.asInlineTable with
    | none => false
    | some http =>
      match (TomlValue.entry http "tls").bind TomlValue.asInlineTable,
        (TomlValue.entry http "headers").bind TomlValue.asInlineTable with
      | some tls, some headers =>
        exporter.length = 1 ∧ http.length = 4 ∧ tls.length = 1 ∧ headers.length = 1 ∧
          (TomlValue.entry http "endpoint").bind TomlValue.asStr = some managed.endpoint ∧
          (TomlValue.entry http "protocol").bind TomlValue.asStr = some "json" ∧
          (TomlValue.entry tls "ca-certificate").bind TomlValue.asStr = some managed.caCertificate ∧
          (TomlValue.entry headers authHeaderName).bind TomlValue.asStr = some managed.authHeaderValue
      | _, _ => false

/-- `ensure_absent_or_matching`. -/
def ensureAbsentOrMatching (item : Option toml.Item) (isMatch : toml.Item → Bool) : Except ConfigError Unit :=
  match item with
  | none => .ok ()
  | some item => if isMatch item then .ok () else .error .conflict

/-- `ensure_no_managed_conflict`. -/
def ensureNoManagedConflict (document : toml.Document) (managed : ManagedValues) : Except ConfigError Unit := do
  if let some notify := toml.get document "notify" then
    if !notifyMatches toml notify managed && !validExternalNotify toml notify then throw .conflict
  if let some otel := toml.get document "otel" then
    if !toml.isTableLike otel then throw .conflict
    ensureAbsentOrMatching toml (toml.entry otel "exporter") fun item => exporterMatches toml item managed
    ensureAbsentOrMatching toml (toml.entry otel "log_user_prompt") fun item =>
      match toml.asValue item with
      | some (.boolean false) => true
      | _ => false
    ensureAbsentOrMatching toml (toml.entry otel "environment") fun item =>
      (toml.asValue item).bind TomlValue.asStr = some "local"

/-- The managed value under each of the owned keys of the table. -/
def managedEntries (managed : ManagedValues) : List (String × TomlValue) :=
  [("exporter", managed.exporter), ("log_user_prompt", .boolean false), ("environment", .string "local")]

/-- `patch_managed_values`, which panics where the document has no such table. -/
def patchManagedValues (document : toml.Document) (managed : ManagedValues) (ownsNotify : Bool) :
    Option toml.Document :=
  let document :=
    if ownsNotify ∧ (toml.get document "notify").isNone then
      toml.set document "notify" (toml.value managed.notify)
    else document
  let document := if (toml.get document "otel").isNone then toml.set document "otel" toml.table else document
  if toml.tableLikeAt document "otel" then
    some ((managedEntries managed).foldl (fun document entry =>
      if ((toml.get document "otel").bind fun otel => toml.entry otel entry.1).isNone then
        toml.insertIn document "otel" entry.1 (toml.value entry.2)
      else document) document)
  else none

/-- `replace_managed_values`, which panics where the document has no such table. -/
def replaceManagedValues (document : toml.Document) (managed : ManagedValues) (ownsNotify : Bool) :
    Option toml.Document :=
  let document := if ownsNotify then toml.set document "notify" (toml.value managed.notify) else document
  if toml.tableLikeAt document "otel" then
    some ((managedEntries managed).foldl (fun document entry =>
      toml.insertIn document "otel" entry.1 (toml.value entry.2)) document)
  else none

/-- `items_match`. -/
def itemsMatch (left right : Option toml.Item) : Bool := left.map toml.itemText = right.map toml.itemText

/-- `document.get("otel").and_then(Item::as_table_like).and_then(|table| table.get(key))`. -/
@[grind =] def otelEntry (document : toml.Document) (key : String) : Option toml.Item :=
  ((toml.get document "otel").filter toml.isTableLike).bind fun otel => toml.entry otel key

/-- `owned_values_match`. -/
def ownedValuesMatch (current connected : toml.Document) (ownsNotify : Bool) : Bool :=
  (if ownsNotify then itemsMatch toml (toml.get current "notify") (toml.get connected "notify")
    else (toml.get current "notify").all (validExternalNotify toml)) &&
  ownedOtelKeys.all fun key => itemsMatch toml (otelEntry toml current key) (otelEntry toml connected key)

/-- `restore_owned_values`. -/
def restoreOwnedValues (target prior : toml.Document) (ownsNotify : Bool) : Except ConfigError toml.Document :=
  let target :=
    if ownsNotify then
      match toml.get prior "notify" with
      | some item => toml.set target "notify" item
      | none => toml.remove target "notify"
    else target
  if toml.tableLikeAt target "otel" then
    let target := ownedOtelKeys.foldl (fun target key =>
      match otelEntry toml prior key with
      | some item => toml.insertIn target "otel" key item
      | none => toml.removeIn target "otel" key) target
    .ok (if toml.isEmptyIn target "otel" then toml.remove target "otel" else target)
  else .error .conflict

/-! ### The table stays -/

variable {toml}

theorem tableLikeAt_foldl {α : Type} {step : toml.Document → α → toml.Document} {key : String}
    (h : ∀ document entry, toml.tableLikeAt (step document entry) key = toml.tableLikeAt document key)
    (entries : List α) : ∀ document, toml.tableLikeAt (entries.foldl step document) key = toml.tableLikeAt document key := by
  induction entries with
  | nil => exact fun _ => rfl
  | cons entry entries ih => exact fun document => (ih _).trans (h document entry)

variable {document again : toml.Document} {managed : ManagedValues} {ownsNotify : Bool}

/-- A document without conflicts has its table under `otel`, or nothing. -/
theorem tableLikeAt_of_ensureNoManagedConflict (h : ensureNoManagedConflict toml document managed = .ok ()) :
    toml.get document "otel" = none ∨ toml.tableLikeAt document "otel" = true := by
  cases hg : toml.get document "otel" with
  | none => exact .inl rfl
  | some otel =>
    right
    by_contra hn
    have hlike : toml.isTableLike otel = false := by simpa [TomlEdit.tableLikeAt, hg] using hn
    simp only [ensureNoManagedConflict, hg, hlike, Bool.not_false, if_true] at h
    revert h
    cases toml.get document "notify" with
    | none => exact nofun
    | some notify =>
      intro h
      by_cases hc : (!notifyMatches toml notify managed && !validExternalNotify toml notify) = true
      · simp only [hc, if_true] at h
        exact absurd h nofun
      · simp only [hc] at h
        exact absurd h nofun

variable (law : toml.Lawful)
include law

theorem otel_set_notify (item : toml.Item) :
    toml.get (toml.set document "notify" item) "otel" = toml.get document "otel" :=
  law.get_set_of_ne document "notify" "otel" item (by decide)

/-- Where the manager's values were patched in, there is a table. -/
theorem tableLikeAt_patchManagedValues (h : patchManagedValues toml document managed ownsNotify = some again) :
    toml.tableLikeAt again "otel" = true := by
  simp only [patchManagedValues, Option.ite_none_right_eq_some, Option.some.injEq] at h
  obtain ⟨hlike, rfl⟩ := h
  rw [tableLikeAt_foldl]
  · exact hlike
  · intro document entry
    split_ifs
    · exact law.tableLikeAt_insertIn ..
    · rfl

/-- Where the manager's values were put in, there is a table. -/
theorem tableLikeAt_replaceManagedValues (h : replaceManagedValues toml document managed ownsNotify = some again) :
    toml.tableLikeAt again "otel" = true := by
  simp only [replaceManagedValues, Option.ite_none_right_eq_some, Option.some.injEq] at h
  obtain ⟨hlike, rfl⟩ := h
  rw [tableLikeAt_foldl]
  · exact hlike
  · exact fun document entry => law.tableLikeAt_insertIn ..

/-- The manager never panics on a document without conflicts. -/
theorem patchManagedValues_isSome (h : ensureNoManagedConflict toml document managed = .ok ()) (ownsNotify : Bool) :
    ∃ again, patchManagedValues toml document managed ownsNotify = some again := by
  have hotel := tableLikeAt_of_ensureNoManagedConflict h
  have hnotify : ∀ d : toml.Document, toml.get d "otel" = toml.get document "otel" →
      toml.tableLikeAt (if (toml.get d "otel").isNone then toml.set d "otel" toml.table else d) "otel" = true := by
    intro d hd
    split_ifs with ho
    · exact law.tableLikeAt_set_table ..
    · cases hotel with
      | inl hnone => simp [hd, hnone] at ho
      | inr hlike => rw [TomlEdit.tableLikeAt, hd]; exact hlike
  simp only [patchManagedValues]
  refine ⟨_, if_pos (hnotify _ ?_)⟩
  split_ifs
  · exact otel_set_notify law _
  · rfl

/-- The manager never panics on a document with its table. -/
theorem replaceManagedValues_isSome (h : toml.tableLikeAt document "otel" = true) (managed : ManagedValues)
    (ownsNotify : Bool) : ∃ again, replaceManagedValues toml document managed ownsNotify = some again := by
  simp only [replaceManagedValues]
  refine ⟨_, if_pos ?_⟩
  split_ifs
  · rw [TomlEdit.tableLikeAt, otel_set_notify law]
    exact h
  · exact h

end Documents

end AgentObservability.CodexConfig
