import AgentObservability.Contracts.Privacy
import AgentObservability.Foundation.Attempt
import AgentObservability.Foundation.JsonLayout
import Mathlib.Data.List.Nodup

/-!
# The configuration of the local runtime

`LocalRuntimeConfigV5` with its four policies, what `validate` asks of them, and
`from_json`, which also accepts the four older versions and fills in what they do
not have.

`serde_json` is a parameter: `fromStr` reads a text. What the derived `Serialize`
and `Deserialize` make of a value is here.
-/

namespace AgentObservability.Runtime

open Contracts Foundation Foundation.Json

/-! ### Policies -/

/-- `PolicyError`, without the errors of JSON. -/
inductive PolicyError where
  /-- `OutOfBounds`. -/
  | outOfBounds (field : String) (value min max : ℕ)
  /-- `InvalidLifecycleOrder`. -/
  | invalidLifecycleOrder (hotDays warmDays deleteAfterDays : ℕ)
  deriving DecidableEq

/-- A value with its field and its bounds. -/
structure BoundsCheck where
  /-- The field. -/
  field : String
  /-- The value. -/
  value : ℕ
  /-- The least value. -/
  min : ℕ
  /-- The largest value. -/
  max : ℕ

/-- `validate_bounds`. -/
def validateBounds (check : BoundsCheck) : Except PolicyError Unit :=
  if check.value < check.min ∨ check.max < check.value then
    .error (.outOfBounds check.field check.value check.min check.max)
  else .ok ()

/-- `StorageBudgetMode`. -/
inductive StorageBudgetMode where
  /-- `Legacy`. -/
  | legacy
  /-- `Separated`. -/
  | separated
  deriving DecidableEq

/-- `default_budget`. -/
def defaultBudget : UInt64 := 1073741824

/-- `StorageBudgetPolicyV1`. -/
structure StorageBudgetPolicyV1 where
  /-- `mode`. -/
  mode : StorageBudgetMode := .legacy
  /-- `retained_target_bytes`. -/
  retainedTargetBytes : UInt64 := defaultBudget
  /-- `workspace_budget_bytes`. -/
  workspaceBudgetBytes : UInt64 := defaultBudget
  /-- `minimum_free_bytes`. -/
  minimumFreeBytes : UInt64 := defaultBudget
  deriving DecidableEq

/-- `StorageBudgetPolicyV1::validate`. -/
def StorageBudgetPolicyV1.validate (p : StorageBudgetPolicyV1) : Except PolicyError Unit :=
  [("retained_target_bytes", p.retainedTargetBytes), ("workspace_budget_bytes", p.workspaceBudgetBytes),
    ("minimum_free_bytes", p.minimumFreeBytes)].forM fun check =>
      validateBounds ⟨check.1, check.2.toNat, 268435456, 21474836480⟩

/-- `StorageLifecyclePolicyV1`. -/
structure StorageLifecyclePolicyV1 where
  /-- `enabled`. -/
  enabled : Bool := false
  /-- `hot_days`. -/
  hotDays : UInt16 := 7
  /-- `warm_days`. -/
  warmDays : UInt16 := 30
  /-- `delete_after_days`. -/
  deleteAfterDays : UInt16 := 90
  /-- `private_raw_days`. -/
  privateRawDays : UInt16 := 7
  /-- `maintenance_interval_seconds`. -/
  maintenanceIntervalSeconds : UInt32 := 300
  /-- `max_traces_per_pass`. -/
  maxTracesPerPass : UInt16 := 32
  deriving DecidableEq

/-- `StorageLifecyclePolicyV1::validate`. -/
def StorageLifecyclePolicyV1.validate (p : StorageLifecyclePolicyV1) : Except PolicyError Unit := do
  validateBounds ⟨"hot_days", p.hotDays.toNat, 1, 3650⟩
  validateBounds ⟨"warm_days", p.warmDays.toNat, 1, 3650⟩
  validateBounds ⟨"delete_after_days", p.deleteAfterDays.toNat, 1, 3650⟩
  validateBounds ⟨"private_raw_days", p.privateRawDays.toNat, 1, 3650⟩
  validateBounds ⟨"maintenance_interval_seconds", p.maintenanceIntervalSeconds.toNat, 60, 86400⟩
  validateBounds ⟨"max_traces_per_pass", p.maxTracesPerPass.toNat, 1, 128⟩
  require (p.hotDays ≤ p.warmDays ∧ p.warmDays < p.deleteAfterDays)
    (.invalidLifecycleOrder p.hotDays.toNat p.warmDays.toNat p.deleteAfterDays.toNat)

/-- `RetentionPolicyV1`. -/
structure RetentionPolicyV1 where
  /-- `max_record_age_days`. -/
  maxRecordAgeDays : UInt16 := 30
  /-- `max_archive_records`. -/
  maxArchiveRecords : UInt32 := 10000
  /-- `max_archive_bytes`. -/
  maxArchiveBytes : UInt64 := 16777216
  deriving DecidableEq

/-- `RetentionPolicyV1::validate`. -/
def RetentionPolicyV1.validate (p : RetentionPolicyV1) : Except PolicyError Unit := do
  validateBounds ⟨"max_record_age_days", p.maxRecordAgeDays.toNat, 1, 3650⟩
  validateBounds ⟨"max_archive_records", p.maxArchiveRecords.toNat, 1, 100000⟩
  validateBounds ⟨"max_archive_bytes", p.maxArchiveBytes.toNat, 65536, 268435456⟩

/-- `CollectionPolicyV1`. -/
structure CollectionPolicyV1 where
  /-- `file_reconcile_interval_ms`. -/
  fileReconcileIntervalMs : UInt32 := 5000
  /-- `flush_interval_ms`. -/
  flushIntervalMs : UInt32 := 5000
  /-- `max_batch_records`. -/
  maxBatchRecords : UInt16 := 100
  /-- `max_batch_bytes`. -/
  maxBatchBytes : UInt32 := 524288
  /-- `active_heartbeat_interval_ms`. -/
  activeHeartbeatIntervalMs : UInt32 := 60000
  /-- `idle_heartbeat_interval_ms`. -/
  idleHeartbeatIntervalMs : UInt32 := 300000
  /-- `local_storage_budget_bytes`. -/
  localStorageBudgetBytes : UInt64 := defaultBudget
  deriving DecidableEq

/-- `CollectionPolicyV1::validate`: the first of the checks that fails. -/
def CollectionPolicyV1.validate (p : CollectionPolicyV1) : Except PolicyError Unit :=
  [⟨"file_reconcile_interval_ms", p.fileReconcileIntervalMs.toNat, 1000, 60000⟩,
    ⟨"flush_interval_ms", p.flushIntervalMs.toNat, 1000, 60000⟩,
    ⟨"max_batch_records", p.maxBatchRecords.toNat, 1, 500⟩,
    ⟨"max_batch_bytes", p.maxBatchBytes.toNat, 16384, 2097152⟩,
    ⟨"active_heartbeat_interval_ms", p.activeHeartbeatIntervalMs.toNat, 30000, 300000⟩,
    ⟨"idle_heartbeat_interval_ms", p.idleHeartbeatIntervalMs.toNat, 120000, 900000⟩,
    ⟨"local_storage_budget_bytes", p.localStorageBudgetBytes.toNat, 268435456, 21474836480⟩].forM validateBounds

/-! ### The configuration -/

/-- `LOCAL_RUNTIME_CONFIG_VERSION`. -/
def localRuntimeConfigVersion : String := "local_runtime.v5"

/-- `LocalRuntimeConfigV5`. -/
structure LocalRuntimeConfigV5 where
  /-- `schema_version`. -/
  schemaVersion : String := localRuntimeConfigVersion
  /-- `enabled`. -/
  enabled : Bool := true
  /-- `capture_private_codex_turn_details`. -/
  capturePrivateCodexTurnDetails : Bool := false
  /-- `collection`. -/
  collection : CollectionPolicyV1 := {}
  /-- `retention`. -/
  retention : RetentionPolicyV1 := {}
  /-- `lifecycle`. -/
  lifecycle : StorageLifecyclePolicyV1 := {}
  /-- `storage_budget`. -/
  storageBudget : StorageBudgetPolicyV1 := {}
  deriving DecidableEq

/-- `ConfigError`, as far as a save or a read of the file returns it. -/
inductive ConfigError where
  /-- `InputTooLarge`. -/
  | inputTooLarge
  /-- `Io`. -/
  | io
  /-- `Json`. -/
  | json
  /-- `Policy`. -/
  | policy (error : PolicyError)
  /-- `UnsupportedVersion`. -/
  | unsupportedVersion
  /-- `StoragePolicyUnavailable`. -/
  | storagePolicyUnavailable
  /-- `StorageCoherence`. -/
  | storageCoherence
  /-- `WriteUnverified`: the first error, and whether the two checks failed. -/
  | writeUnverified (primary : Option ConfigError) (mutation accounting : Bool)
  /-- `InsecurePermissions`, `InvalidPath` or `Symlink`. -/
  | path
  /-- `Conflict`. -/
  | conflict

namespace LocalRuntimeConfigV5

/-- `validate`. -/
def validate (c : LocalRuntimeConfigV5) : Except ConfigError Unit := do
  require (c.schemaVersion = localRuntimeConfigVersion) .unsupportedVersion
  c.collection.validate.mapError .policy
  c.retention.validate.mapError .policy
  c.lifecycle.validate.mapError .policy
  c.storageBudget.validate.mapError .policy

/-- `require_operational_storage_policy`. -/
def requireOperationalStoragePolicy (c : LocalRuntimeConfigV5) : Except ConfigError Unit :=
  match c.storageBudget.mode with
  | .legacy => .ok ()
  | .separated => .error .storagePolicyUnavailable

end LocalRuntimeConfigV5

/-! ### The derived `Serialize` -/

/-- An unsigned integer in JSON. -/
def uintValue (n : UInt64) : Value := .number (.posInt n)

/-- The mode in JSON. -/
def StorageBudgetMode.toValue : StorageBudgetMode → Value
  | .legacy => .string "legacy"
  | .separated => .string "separated"

/-- The storage budget in JSON. -/
def StorageBudgetPolicyV1.toValue (p : StorageBudgetPolicyV1) : Value :=
  .object [("mode", p.mode.toValue), ("retained_target_bytes", uintValue p.retainedTargetBytes),
    ("workspace_budget_bytes", uintValue p.workspaceBudgetBytes), ("minimum_free_bytes", uintValue p.minimumFreeBytes)]

/-- The lifecycle in JSON. -/
def StorageLifecyclePolicyV1.toValue (p : StorageLifecyclePolicyV1) : Value :=
  .object [("enabled", .bool p.enabled), ("hot_days", uintValue p.hotDays.toUInt64),
    ("warm_days", uintValue p.warmDays.toUInt64), ("delete_after_days", uintValue p.deleteAfterDays.toUInt64),
    ("private_raw_days", uintValue p.privateRawDays.toUInt64),
    ("maintenance_interval_seconds", uintValue p.maintenanceIntervalSeconds.toUInt64),
    ("max_traces_per_pass", uintValue p.maxTracesPerPass.toUInt64)]

/-- The retention in JSON. -/
def RetentionPolicyV1.toValue (p : RetentionPolicyV1) : Value :=
  .object [("max_record_age_days", uintValue p.maxRecordAgeDays.toUInt64),
    ("max_archive_records", uintValue p.maxArchiveRecords.toUInt64), ("max_archive_bytes", uintValue p.maxArchiveBytes)]

/-- The collection in JSON. -/
def CollectionPolicyV1.toValue (p : CollectionPolicyV1) : Value :=
  .object [("file_reconcile_interval_ms", uintValue p.fileReconcileIntervalMs.toUInt64),
    ("flush_interval_ms", uintValue p.flushIntervalMs.toUInt64),
    ("max_batch_records", uintValue p.maxBatchRecords.toUInt64),
    ("max_batch_bytes", uintValue p.maxBatchBytes.toUInt64),
    ("active_heartbeat_interval_ms", uintValue p.activeHeartbeatIntervalMs.toUInt64),
    ("idle_heartbeat_interval_ms", uintValue p.idleHeartbeatIntervalMs.toUInt64),
    ("local_storage_budget_bytes", uintValue p.localStorageBudgetBytes)]

/-- The configuration in JSON. -/
def LocalRuntimeConfigV5.toValue (c : LocalRuntimeConfigV5) : Value :=
  .object [("schema_version", .string c.schemaVersion), ("enabled", .bool c.enabled),
    ("capture_private_codex_turn_details", .bool c.capturePrivateCodexTurnDetails),
    ("collection", c.collection.toValue), ("retention", c.retention.toValue), ("lifecycle", c.lifecycle.toValue),
    ("storage_budget", c.storageBudget.toValue)]

/-! ### The derived `Deserialize` -/

/-- `u16`. -/
def u16Of (v : Value) : Option UInt16 := (v.asUnsigned 16).map UInt64.toUInt16

/-- `u32`. -/
def u32Of (v : Value) : Option UInt32 := (v.asUnsigned 32).map UInt64.toUInt32

/-- A field, or what stands for it where it is left out, if anything does. -/
def fieldOr {α : Type} (field : Option Value) (decode : Value → Option α) (default : Option α) : Option α :=
  match field with
  | some v => decode v
  | none => default

/-- The fields of `CollectionPolicyV1`. -/
def collectionFields : List String :=
  ["file_reconcile_interval_ms", "flush_interval_ms", "max_batch_records", "max_batch_bytes",
    "active_heartbeat_interval_ms", "idle_heartbeat_interval_ms", "local_storage_budget_bytes"]

/-- `CollectionPolicyV1`, where fields may be left out, and `StrictCollectionPolicyV1`, where they may not. -/
def CollectionPolicyV1.ofValue (default : Option CollectionPolicyV1) (v : Value) : Option CollectionPolicyV1 := do
  let field ← v.fields collectionFields
  return {
    fileReconcileIntervalMs :=
      ← fieldOr (field "file_reconcile_interval_ms") u32Of (default.map (·.fileReconcileIntervalMs))
    flushIntervalMs := ← fieldOr (field "flush_interval_ms") u32Of (default.map (·.flushIntervalMs))
    maxBatchRecords := ← fieldOr (field "max_batch_records") u16Of (default.map (·.maxBatchRecords))
    maxBatchBytes := ← fieldOr (field "max_batch_bytes") u32Of (default.map (·.maxBatchBytes))
    activeHeartbeatIntervalMs :=
      ← fieldOr (field "active_heartbeat_interval_ms") u32Of (default.map (·.activeHeartbeatIntervalMs))
    idleHeartbeatIntervalMs :=
      ← fieldOr (field "idle_heartbeat_interval_ms") u32Of (default.map (·.idleHeartbeatIntervalMs))
    localStorageBudgetBytes :=
      ← fieldOr (field "local_storage_budget_bytes") Value.asU64 (default.map (·.localStorageBudgetBytes)) }

/-- The fields of `RetentionPolicyV1`. -/
def retentionFields : List String := ["max_record_age_days", "max_archive_records", "max_archive_bytes"]

/-- `StrictRetentionPolicyV1`. -/
def RetentionPolicyV1.ofValue (v : Value) : Option RetentionPolicyV1 := do
  let field ← v.fields retentionFields
  return {
    maxRecordAgeDays := ← fieldOr (field "max_record_age_days") u16Of none
    maxArchiveRecords := ← fieldOr (field "max_archive_records") u32Of none
    maxArchiveBytes := ← fieldOr (field "max_archive_bytes") Value.asU64 none }

/-- The fields of `StorageLifecyclePolicyV1`. -/
def lifecycleFields : List String :=
  ["enabled", "hot_days", "warm_days", "delete_after_days", "private_raw_days", "maintenance_interval_seconds",
    "max_traces_per_pass"]

/-- `StrictStorageLifecyclePolicyV1`. -/
def StorageLifecyclePolicyV1.ofValue (v : Value) : Option StorageLifecyclePolicyV1 := do
  let field ← v.fields lifecycleFields
  return {
    enabled := ← fieldOr (field "enabled") Value.asBool none
    hotDays := ← fieldOr (field "hot_days") u16Of none
    warmDays := ← fieldOr (field "warm_days") u16Of none
    deleteAfterDays := ← fieldOr (field "delete_after_days") u16Of none
    privateRawDays := ← fieldOr (field "private_raw_days") u16Of none
    maintenanceIntervalSeconds := ← fieldOr (field "maintenance_interval_seconds") u32Of none
    maxTracesPerPass := ← fieldOr (field "max_traces_per_pass") u16Of none }

/-- A unit variant, by its name or as an object. -/
def StorageBudgetMode.ofValue : Value → Option StorageBudgetMode
  | .string "legacy" | .object [("legacy", .null)] => some .legacy
  | .string "separated" | .object [("separated", .null)] => some .separated
  | _ => none

/-- The fields of `StorageBudgetPolicyV1`. -/
def storageBudgetFields : List String :=
  ["mode", "retained_target_bytes", "workspace_budget_bytes", "minimum_free_bytes"]

/-- `StorageBudgetPolicyV1`. -/
def StorageBudgetPolicyV1.ofValue (v : Value) : Option StorageBudgetPolicyV1 := do
  let field ← v.fields storageBudgetFields
  return {
    mode := ← fieldOr (field "mode") StorageBudgetMode.ofValue none
    retainedTargetBytes := ← fieldOr (field "retained_target_bytes") Value.asU64 none
    workspaceBudgetBytes := ← fieldOr (field "workspace_budget_bytes") Value.asU64 none
    minimumFreeBytes := ← fieldOr (field "minimum_free_bytes") Value.asU64 none }

namespace LocalRuntimeConfigV5

/-- `LegacyLocalRuntimeConfigV1`, upgraded. -/
def ofV1 (v : Value) : Option LocalRuntimeConfigV5 := do
  let field ← v.fields ["schema_version", "enabled", "collection"]
  let _ ← fieldOr (field "schema_version") Value.asStr none
  return {
    enabled := ← fieldOr (field "enabled") Value.asBool (some true)
    collection := ← fieldOr (field "collection") (CollectionPolicyV1.ofValue (some {})) (some {}) }

/-- `LegacyLocalRuntimeConfigV2`, upgraded. -/
def ofV2 (v : Value) : Option LocalRuntimeConfigV5 := do
  let field ← v.fields ["schema_version", "enabled", "collection", "retention"]
  let _ ← fieldOr (field "schema_version") Value.asStr none
  return {
    enabled := ← fieldOr (field "enabled") Value.asBool none
    collection := ← fieldOr (field "collection") (CollectionPolicyV1.ofValue none) none
    retention := ← fieldOr (field "retention") RetentionPolicyV1.ofValue none }

/-- `StrictLocalRuntimeConfigV3`, upgraded. -/
def ofV3 (v : Value) : Option LocalRuntimeConfigV5 := do
  let field ← v.fields ["schema_version", "enabled", "capture_private_codex_turn_details", "collection", "retention"]
  let _ ← fieldOr (field "schema_version") Value.asStr none
  return {
    enabled := ← fieldOr (field "enabled") Value.asBool none
    capturePrivateCodexTurnDetails := ← fieldOr (field "capture_private_codex_turn_details") Value.asBool none
    collection := ← fieldOr (field "collection") (CollectionPolicyV1.ofValue none) none
    retention := ← fieldOr (field "retention") RetentionPolicyV1.ofValue none }

/-- `StrictLocalRuntimeConfigV4`, upgraded. -/
def ofV4 (v : Value) : Option LocalRuntimeConfigV5 := do
  let field ← v.fields
    ["schema_version", "enabled", "capture_private_codex_turn_details", "collection", "retention", "lifecycle"]
  let _ ← fieldOr (field "schema_version") Value.asStr none
  return {
    enabled := ← fieldOr (field "enabled") Value.asBool none
    capturePrivateCodexTurnDetails := ← fieldOr (field "capture_private_codex_turn_details") Value.asBool none
    collection := ← fieldOr (field "collection") (CollectionPolicyV1.ofValue none) none
    retention := ← fieldOr (field "retention") RetentionPolicyV1.ofValue none
    lifecycle := ← fieldOr (field "lifecycle") StorageLifecyclePolicyV1.ofValue none }

/-- `StrictLocalRuntimeConfigV5`. -/
def ofValue (v : Value) : Option LocalRuntimeConfigV5 := do
  let field ← v.fields ["schema_version", "enabled", "capture_private_codex_turn_details", "collection", "retention",
    "lifecycle", "storage_budget"]
  return {
    schemaVersion := ← fieldOr (field "schema_version") Value.asStr none
    enabled := ← fieldOr (field "enabled") Value.asBool none
    capturePrivateCodexTurnDetails := ← fieldOr (field "capture_private_codex_turn_details") Value.asBool none
    collection := ← fieldOr (field "collection") (CollectionPolicyV1.ofValue none) none
    retention := ← fieldOr (field "retention") RetentionPolicyV1.ofValue none
    lifecycle := ← fieldOr (field "lifecycle") StorageLifecyclePolicyV1.ofValue none
    storageBudget := ← fieldOr (field "storage_budget") StorageBudgetPolicyV1.ofValue none }

/-- The `schema_version` of a document, the last one if there are two. -/
def versionOf : Value → Option String
  | .object members => (members.reverse.find? fun m => m.1 = "schema_version").bind fun m => m.2.asStr
  | _ => none

/-- The reader of a version. -/
def readerOf (version : String) : Value → Option LocalRuntimeConfigV5 :=
  if version = "local_runtime.v1" then ofV1
  else if version = "local_runtime.v2" then ofV2
  else if version = "local_runtime.v3" then ofV3
  else if version = "local_runtime.v4" then ofV4
  else ofValue

/-- `from_json`. -/
def fromJson (fromStr : String → Option Value) (input : String) : Except ConfigError LocalRuntimeConfigV5 := do
  let header ← ofOption .json (fromStr input)
  let version ← ofOption .unsupportedVersion (versionOf header)
  let config ← ofOption .json (readerOf version header)
  config.validate
  pure config

end LocalRuntimeConfigV5

/-! ### The round trip -/

/-- A reader of JSON, as far as it is relied on: a text with the tokens of a value is read as the value. -/
def ReadsLayouts (fromStr : String → Option Value) : Prop :=
  ∀ v : Value, v.Plain → ∀ text : String, Lexes text.toList v.tokens → fromStr text = some v

@[simp] theorem u16Of_uintValue (n : UInt16) : u16Of (uintValue n.toUInt64) = some n := by
  have hlt : n.toNat < 65536 := n.toNat_lt
  simp [u16Of, uintValue, Value.asUnsigned, Value.asU64, hlt]

@[simp] theorem u32Of_uintValue (n : UInt32) : u32Of (uintValue n.toUInt64) = some n := by
  have hlt : n.toNat < 4294967296 := n.toNat_lt
  simp [u32Of, uintValue, Value.asUnsigned, Value.asU64, hlt]

@[simp] theorem asU64_uintValue (n : UInt64) : (uintValue n).asU64 = some n := rfl

@[simp] theorem fieldOr_some {α : Type} (v : Value) (decode : Value → Option α) (default : Option α) :
    fieldOr (some v) decode default = decode v := rfl

@[simp] theorem CollectionPolicyV1.ofValue_toValue (default : Option CollectionPolicyV1) (p : CollectionPolicyV1) :
    CollectionPolicyV1.ofValue default p.toValue = some p := by
  unfold CollectionPolicyV1.ofValue CollectionPolicyV1.toValue
  rw [Value.fields_object (show _ = collectionFields from rfl) (by decide) (by decide)]
  simp

@[simp] theorem RetentionPolicyV1.ofValue_toValue (p : RetentionPolicyV1) : RetentionPolicyV1.ofValue p.toValue = some p := by
  unfold RetentionPolicyV1.ofValue RetentionPolicyV1.toValue
  rw [Value.fields_object (show _ = retentionFields from rfl) (by decide) (by decide)]
  simp

@[simp] theorem StorageLifecyclePolicyV1.ofValue_toValue (p : StorageLifecyclePolicyV1) :
    StorageLifecyclePolicyV1.ofValue p.toValue = some p := by
  unfold StorageLifecyclePolicyV1.ofValue StorageLifecyclePolicyV1.toValue
  rw [Value.fields_object (show _ = lifecycleFields from rfl) (by decide) (by decide)]
  simp [Value.asBool]

@[simp] theorem StorageBudgetMode.ofValue_toValue (mode : StorageBudgetMode) :
    StorageBudgetMode.ofValue mode.toValue = some mode := by
  cases mode <;> rfl

@[simp] theorem StorageBudgetPolicyV1.ofValue_toValue (p : StorageBudgetPolicyV1) :
    StorageBudgetPolicyV1.ofValue p.toValue = some p := by
  unfold StorageBudgetPolicyV1.ofValue StorageBudgetPolicyV1.toValue
  rw [Value.fields_object (show _ = storageBudgetFields from rfl) (by decide) (by decide)]
  simp

namespace LocalRuntimeConfigV5

/-- **A configuration is what its document says.** -/
theorem ofValue_toValue (c : LocalRuntimeConfigV5) : ofValue c.toValue = some c := by
  unfold ofValue toValue
  rw [Value.fields_object (show _ = ["schema_version", "enabled", "capture_private_codex_turn_details", "collection",
    "retention", "lifecycle", "storage_budget"] from rfl) (by decide) (by decide)]
  simp [Value.asStr, Value.asBool]

theorem plain_toValue (c : LocalRuntimeConfigV5) : c.toValue.Plain := by
  have hmode : c.storageBudget.mode.toValue.Plain := by
    cases c.storageBudget.mode <;> trivial
  simp [toValue, CollectionPolicyV1.toValue, RetentionPolicyV1.toValue, StorageLifecyclePolicyV1.toValue,
    StorageBudgetPolicyV1.toValue, uintValue, Value.Plain, Value.PlainMembers, hmode]

theorem versionOf_toValue (c : LocalRuntimeConfigV5) : versionOf c.toValue = some c.schemaVersion := by
  simp [versionOf, toValue, Value.asStr]

theorem validate_eq_ok {c : LocalRuntimeConfigV5} (h : c.validate = .ok ()) : c.schemaVersion = localRuntimeConfigVersion := by
  obtain ⟨_, hversion, -⟩ := bind_eq_ok.mp h
  exact require_eq_ok.mp hversion

/-- **A document that says what a valid configuration is, in whatever layout, is read as that configuration.** -/
theorem fromJson_of_lexes {fromStr : String → Option Value} (hreads : ReadsLayouts fromStr) {c : LocalRuntimeConfigV5}
    (hvalid : c.validate = .ok ()) {text : String} (htext : Lexes text.toList c.toValue.tokens) :
    fromJson fromStr text = .ok c := by
  have hreader : readerOf c.schemaVersion c.toValue = some c := by
    rw [validate_eq_ok hvalid, readerOf, if_neg (by decide), if_neg (by decide), if_neg (by decide), if_neg (by decide)]
    exact c.ofValue_toValue
  refine bind_eq_ok.mpr ⟨c.toValue, ofOption_eq_ok.mpr (hreads c.toValue c.plain_toValue text htext), ?_⟩
  refine bind_eq_ok.mpr ⟨c.schemaVersion, ofOption_eq_ok.mpr c.versionOf_toValue, ?_⟩
  exact bind_eq_ok.mpr ⟨c, ofOption_eq_ok.mpr hreader, bind_eq_ok.mpr ⟨(), hvalid, rfl⟩⟩

/-- `serde_json::to_vec`. -/
def toVec (c : LocalRuntimeConfigV5) : Text := c.toValue.json

/-- `serde_json::to_vec_pretty`, and the new line that a save writes after it. -/
def toVecPretty (c : LocalRuntimeConfigV5) : Text := c.toValue.pretty 0 ++ ["\n"]

/-- Both of the documents that are written for a configuration are read as it. -/
theorem fromJson_toVec {fromStr : String → Option Value} (hreads : ReadsLayouts fromStr) {c : LocalRuntimeConfigV5}
    (hvalid : c.validate = .ok ()) : fromJson fromStr (String.ofList (chars c.toVec)) = .ok c ∧
      fromJson fromStr (String.ofList (chars c.toVecPretty)) = .ok c := by
  constructor
  · apply fromJson_of_lexes hreads hvalid
    have h := lexes_json c.toValue c.plain_toValue lexes_nil (fun _ h => nomatch h)
    rw [List.append_nil, List.append_nil] at h
    rw [String.toList_ofList]
    exact h
  · apply fromJson_of_lexes hreads hvalid
    rw [String.toList_ofList]
    exact lexes_pretty_line c.plain_toValue

end LocalRuntimeConfigV5

/-! ### Documents of older versions -/

/-- The sections of the older versions, with their fields. -/
def sections : List (String × List String) :=
  [("collection", collectionFields), ("retention", retentionFields), ("lifecycle", lifecycleFields)]

/-- What a document sets, and where: a member that is not a section, or a field of a section, by name or by position. -/
inductive Sets (members : List (String × Value)) : List String → Value → Prop where
  /-- A member. -/
  | member {name : String} {x : Value} (hmem : (name, x) ∈ members) (hversion : name ≠ "schema_version")
    (hsection : name ∉ sections.map Prod.fst) : Sets members [name] x
  /-- A field of a section. -/
  | field {name key : String} {names : List String} {v x : Value} {field : String → Option Value}
    (hmem : (name, v) ∈ members) (hsection : (name, names) ∈ sections) (hfields : v.fields names = some field)
    (hfield : field key = some x) : Sets members [name, key] x

/-- A configuration says everything that a document sets. -/
def LocalRuntimeConfigV5.Keeps (c : LocalRuntimeConfigV5) (members : List (String × Value)) : Prop :=
  ∀ path x, Sets members path x → path.foldlM Value.get? c.toValue = some x

/-- Only known fields are found. -/
theorem mem_of_field {v : Value} {names : List String} {field : String → Option Value} (hfields : v.fields names = some field)
    {key : String} {x : Value} (hx : field key = some x) : key ∈ names := by
  cases v with
  | object members =>
    simp only [Value.fields] at hfields
    split at hfields
    · rename_i hmembers
      cases hfields
      obtain ⟨m, hfind, -⟩ := Option.map_eq_some_iff.mp hx
      have hkey : m.1 = key := by simpa using List.find?_some hfind
      exact hmembers.2 key (List.mem_map.mpr ⟨m, List.mem_of_find?_eq_some hfind, hkey⟩)
    · exact nomatch hfields
  | array items =>
    simp only [Value.fields] at hfields
    split at hfields
    · rename_i hlen
      cases hfields
      obtain ⟨hlt, -⟩ := List.getElem?_eq_some_iff.mp hx
      exact List.idxOf_lt_length_iff.mp (Nat.lt_of_lt_of_le hlt hlen)
    · exact nomatch hfields
  | null => exact nomatch hfields
  | bool b => exact nomatch hfields
  | number n => exact nomatch hfields
  | string t => exact nomatch hfields

/-- The members of an accepted object are what is found, under known names. -/
theorem field_of_mem {members : List (String × Value)} {names : List String} {field : String → Option Value}
    (hfields : (Value.object members).fields names = some field) {name : String} {x : Value} (hmem : (name, x) ∈ members) :
    field name = some x := by
  simp only [Value.fields] at hfields
  split at hfields
  · rename_i hmembers
    cases hfields
    cases hfind : members.find? fun m => m.1 = name with
    | none => exact absurd (List.find?_eq_none.mp hfind _ hmem) (by simp)
    | some m =>
      have hkey : m.1 = name := by simpa using List.find?_some hfind
      have heq : m = (name, x) :=
        List.inj_on_of_nodup_map hmembers.1 (List.mem_of_find?_eq_some hfind) hmem hkey
      show (members.find? fun m => m.1 = name).map (·.2) = some x
      rw [hfind, heq, Option.map_some]
  · exact nomatch hfields

section Encode

variable {field : Option Value} {x : Value}

theorem keeps_u64 {n : UInt64} {default : Option UInt64} (h : fieldOr field Value.asU64 default = some n)
    (hx : field = some x) : some (uintValue n) = some x := by
  rw [hx, fieldOr_some] at h
  unfold Value.asU64 at h
  split at h
  · cases h
    rfl
  · exact nomatch h

theorem asUnsigned_eq_some {bits : ℕ} {n : UInt64} (h : x.asUnsigned bits = some n) : x = uintValue n ∧ n.toNat < 2 ^ bits := by
  obtain ⟨hn, hlt⟩ := Option.filter_eq_some_iff.mp h
  have hx := @keeps_u64 (some x) x n none hn rfl
  exact ⟨(Option.some.inj hx).symm, by simpa using hlt⟩

theorem keeps_u32 {n : UInt32} {default : Option UInt32} (h : fieldOr field u32Of default = some n)
    (hx : field = some x) : some (uintValue n.toUInt64) = some x := by
  rw [hx, fieldOr_some] at h
  obtain ⟨m, hm, rfl⟩ := Option.map_eq_some_iff.mp h
  obtain ⟨rfl, hlt⟩ := asUnsigned_eq_some hm
  rw [UInt64.toUInt64_toUInt32, UInt64.mod_eq_of_lt]
  exact UInt64.lt_iff_toNat_lt.mpr hlt

theorem keeps_u16 {n : UInt16} {default : Option UInt16} (h : fieldOr field u16Of default = some n)
    (hx : field = some x) : some (uintValue n.toUInt64) = some x := by
  rw [hx, fieldOr_some] at h
  obtain ⟨m, hm, rfl⟩ := Option.map_eq_some_iff.mp h
  obtain ⟨rfl, hlt⟩ := asUnsigned_eq_some hm
  rw [UInt64.toUInt64_toUInt16, UInt64.mod_eq_of_lt]
  exact UInt64.lt_iff_toNat_lt.mpr hlt

theorem keeps_bool {b : Bool} {default : Option Bool} (h : fieldOr field Value.asBool default = some b)
    (hx : field = some x) : some (Value.bool b) = some x := by
  rw [hx, fieldOr_some] at h
  unfold Value.asBool at h
  split at h
  · cases h
    rfl
  · exact nomatch h

end Encode

theorem CollectionPolicyV1.keeps {default : Option CollectionPolicyV1} {v : Value} {p : CollectionPolicyV1}
    (h : CollectionPolicyV1.ofValue default v = some p) {field : String → Option Value}
    (hfields : v.fields collectionFields = some field) {key : String} {x : Value} (hx : field key = some x) :
    p.toValue.get? key = some x := by
  unfold CollectionPolicyV1.ofValue at h
  rw [hfields] at h
  simp only [Option.bind_eq_bind, Option.bind_some, Option.bind_eq_some_iff, Option.pure_def, Option.some.injEq] at h
  obtain ⟨_, hreconcile, _, hflush, _, hrecords, _, hbytes, _, hactive, _, hidle, _, hbudget, rfl⟩ := h
  have hkey := mem_of_field hfields hx
  simp only [collectionFields, List.mem_cons, List.not_mem_nil, or_false] at hkey
  rcases hkey with rfl | rfl | rfl | rfl | rfl | rfl | rfl
  · exact keeps_u32 hreconcile hx
  · exact keeps_u32 hflush hx
  · exact keeps_u16 hrecords hx
  · exact keeps_u32 hbytes hx
  · exact keeps_u32 hactive hx
  · exact keeps_u32 hidle hx
  · exact keeps_u64 hbudget hx

theorem RetentionPolicyV1.keeps {v : Value} {p : RetentionPolicyV1} (h : RetentionPolicyV1.ofValue v = some p)
    {field : String → Option Value} (hfields : v.fields retentionFields = some field) {key : String} {x : Value}
    (hx : field key = some x) : p.toValue.get? key = some x := by
  unfold RetentionPolicyV1.ofValue at h
  rw [hfields] at h
  simp only [Option.bind_eq_bind, Option.bind_some, Option.bind_eq_some_iff, Option.pure_def, Option.some.injEq] at h
  obtain ⟨_, hage, _, hrecords, _, hbytes, rfl⟩ := h
  have hkey := mem_of_field hfields hx
  simp only [retentionFields, List.mem_cons, List.not_mem_nil, or_false] at hkey
  rcases hkey with rfl | rfl | rfl
  · exact keeps_u16 hage hx
  · exact keeps_u32 hrecords hx
  · exact keeps_u64 hbytes hx

theorem StorageLifecyclePolicyV1.keeps {v : Value} {p : StorageLifecyclePolicyV1}
    (h : StorageLifecyclePolicyV1.ofValue v = some p) {field : String → Option Value}
    (hfields : v.fields lifecycleFields = some field) {key : String} {x : Value} (hx : field key = some x) :
    p.toValue.get? key = some x := by
  unfold StorageLifecyclePolicyV1.ofValue at h
  rw [hfields] at h
  simp only [Option.bind_eq_bind, Option.bind_some, Option.bind_eq_some_iff, Option.pure_def, Option.some.injEq] at h
  obtain ⟨_, henabled, _, hhot, _, hwarm, _, hdelete, _, hraw, _, hinterval, _, htraces, rfl⟩ := h
  have hkey := mem_of_field hfields hx
  simp only [lifecycleFields, List.mem_cons, List.not_mem_nil, or_false] at hkey
  rcases hkey with rfl | rfl | rfl | rfl | rfl | rfl | rfl
  · exact keeps_bool henabled hx
  · exact keeps_u16 hhot hx
  · exact keeps_u16 hwarm hx
  · exact keeps_u16 hdelete hx
  · exact keeps_u16 hraw hx
  · exact keeps_u32 hinterval hx
  · exact keeps_u16 htraces hx

namespace LocalRuntimeConfigV5

/-- A configuration was read from fields of an older version. -/
structure ReadFrom (field : String → Option Value) (c : LocalRuntimeConfigV5) : Prop where
  /-- Only known names are found. -/
  known : ∀ name x, field name = some x → name = "schema_version" ∨ name = "enabled" ∨
    name = "capture_private_codex_turn_details" ∨ name ∈ sections.map Prod.fst
  /-- The switch. -/
  enabled : ∀ x, field "enabled" = some x → some (Value.bool c.enabled) = some x
  /-- The capture of details. -/
  capture : ∀ x, field "capture_private_codex_turn_details" = some x →
    some (Value.bool c.capturePrivateCodexTurnDetails) = some x
  /-- The collection. -/
  collection : ∀ x, field "collection" = some x → ∃ default, CollectionPolicyV1.ofValue default x = some c.collection
  /-- The retention. -/
  retention : ∀ x, field "retention" = some x → RetentionPolicyV1.ofValue x = some c.retention
  /-- The lifecycle. -/
  lifecycle : ∀ x, field "lifecycle" = some x → StorageLifecyclePolicyV1.ofValue x = some c.lifecycle

/-- The field that a section was read from. -/
theorem of_fieldOr {α : Type} {field : Option Value} {decode : Value → Option α} {default : Option α} {a : α}
    (h : fieldOr field decode default = some a) (x : Value) (hx : field = some x) : decode x = some a := by
  rw [hx, fieldOr_some] at h
  exact h

theorem readFrom_ofV1 {v : Value} {c : LocalRuntimeConfigV5} (h : ofV1 v = some c) :
    ∃ names field, v.fields names = some field ∧ ReadFrom field c := by
  unfold ofV1 at h
  simp only [Option.bind_eq_bind, Option.bind_eq_some_iff, Option.pure_def, Option.some.injEq] at h
  obtain ⟨field, hfields, _, -, enabled, henabled, collection, hcollection, rfl⟩ := h
  have hknown : ∀ name x, field name = some x → name ∈ _ := fun name x => mem_of_field hfields
  refine ⟨_, field, hfields, ?_, fun x => keeps_bool henabled, ?_, fun x hx => ⟨_, of_fieldOr hcollection x hx⟩, ?_, ?_⟩
  · intro name x hx
    have hname := hknown name x hx
    simp only [List.mem_cons, List.not_mem_nil, or_false] at hname
    rcases hname with rfl | rfl | rfl <;> decide
  · exact fun x hx => absurd (hknown _ x hx) (by decide)
  · exact fun x hx => absurd (hknown _ x hx) (by decide)
  · exact fun x hx => absurd (hknown _ x hx) (by decide)

theorem readFrom_ofV2 {v : Value} {c : LocalRuntimeConfigV5} (h : ofV2 v = some c) :
    ∃ names field, v.fields names = some field ∧ ReadFrom field c := by
  unfold ofV2 at h
  simp only [Option.bind_eq_bind, Option.bind_eq_some_iff, Option.pure_def, Option.some.injEq] at h
  obtain ⟨field, hfields, _, -, enabled, henabled, collection, hcollection, retention, hretention, rfl⟩ := h
  have hknown : ∀ name x, field name = some x → name ∈ _ := fun name x => mem_of_field hfields
  refine ⟨_, field, hfields, ?_, fun x => keeps_bool henabled, ?_, fun x hx => ⟨_, of_fieldOr hcollection x hx⟩,
    of_fieldOr hretention, ?_⟩
  · intro name x hx
    have hname := hknown name x hx
    simp only [List.mem_cons, List.not_mem_nil, or_false] at hname
    rcases hname with rfl | rfl | rfl | rfl <;> decide
  · exact fun x hx => absurd (hknown _ x hx) (by decide)
  · exact fun x hx => absurd (hknown _ x hx) (by decide)

theorem readFrom_ofV3 {v : Value} {c : LocalRuntimeConfigV5} (h : ofV3 v = some c) :
    ∃ names field, v.fields names = some field ∧ ReadFrom field c := by
  unfold ofV3 at h
  simp only [Option.bind_eq_bind, Option.bind_eq_some_iff, Option.pure_def, Option.some.injEq] at h
  obtain ⟨field, hfields, _, -, enabled, henabled, capture, hcapture, collection, hcollection, retention, hretention, rfl⟩ := h
  have hknown : ∀ name x, field name = some x → name ∈ _ := fun name x => mem_of_field hfields
  refine ⟨_, field, hfields, ?_, fun x => keeps_bool henabled, fun x => keeps_bool hcapture,
    fun x hx => ⟨_, of_fieldOr hcollection x hx⟩, of_fieldOr hretention, ?_⟩
  · intro name x hx
    have hname := hknown name x hx
    simp only [List.mem_cons, List.not_mem_nil, or_false] at hname
    rcases hname with rfl | rfl | rfl | rfl | rfl <;> decide
  · exact fun x hx => absurd (hknown _ x hx) (by decide)

theorem readFrom_ofV4 {v : Value} {c : LocalRuntimeConfigV5} (h : ofV4 v = some c) :
    ∃ names field, v.fields names = some field ∧ ReadFrom field c := by
  unfold ofV4 at h
  simp only [Option.bind_eq_bind, Option.bind_eq_some_iff, Option.pure_def, Option.some.injEq] at h
  obtain ⟨field, hfields, _, -, enabled, henabled, capture, hcapture, collection, hcollection, retention, hretention,
    lifecycle, hlifecycle, rfl⟩ := h
  refine ⟨_, field, hfields, ?_, fun x => keeps_bool henabled, fun x => keeps_bool hcapture,
    fun x hx => ⟨_, of_fieldOr hcollection x hx⟩, of_fieldOr hretention, of_fieldOr hlifecycle⟩
  intro name x hx
  have hname := mem_of_field hfields hx
  simp only [List.mem_cons, List.not_mem_nil, or_false] at hname
  rcases hname with rfl | rfl | rfl | rfl | rfl | rfl <;> decide

/-- The versions before this one. -/
def olderVersions : List String := ["local_runtime.v1", "local_runtime.v2", "local_runtime.v3", "local_runtime.v4"]

theorem readFrom_readerOf {version : String} (hversion : version ∈ olderVersions) {v : Value} {c : LocalRuntimeConfigV5}
    (h : readerOf version v = some c) : ∃ names field, v.fields names = some field ∧ ReadFrom field c := by
  simp only [olderVersions, List.mem_cons, List.not_mem_nil, or_false] at hversion
  rcases hversion with rfl | rfl | rfl | rfl
  · exact readFrom_ofV1 h
  · exact readFrom_ofV2 h
  · exact readFrom_ofV3 h
  · exact readFrom_ofV4 h

/-- A field of a section, by its path. -/
theorem at_path {c : LocalRuntimeConfigV5} {name key : String} {v x : Value} (hsection : c.toValue.get? name = some v)
    (hkey : v.get? key = some x) : [name, key].foldlM Value.get? c.toValue = some x := by
  rw [List.foldlM_cons, hsection, Option.bind_eq_bind, Option.bind_some, List.foldlM_cons, hkey]
  rfl

/-- **What is read from fields is kept.** -/
theorem ReadFrom.keeps {members : List (String × Value)} {names : List String} {field : String → Option Value}
    (hfields : (Value.object members).fields names = some field) {c : LocalRuntimeConfigV5} (h : ReadFrom field c) :
    c.Keeps members := by
  intro path x hsets
  cases hsets with
  | member hmem hversion hsection =>
    have hx := field_of_mem hfields hmem
    rw [List.foldlM_cons]
    rcases h.known _ _ hx with hname | hname | hname | hname
    · exact absurd hname hversion
    · subst hname
      exact h.enabled x hx
    · subst hname
      exact h.capture x hx
    · exact absurd hname hsection
  | field hmem hsection hsectionFields hfield =>
    have hv := field_of_mem hfields hmem
    simp only [sections, List.mem_cons, List.not_mem_nil, or_false, Prod.mk.injEq] at hsection
    rcases hsection with ⟨rfl, rfl⟩ | ⟨rfl, rfl⟩ | ⟨rfl, rfl⟩
    · obtain ⟨default, hread⟩ := h.collection _ hv
      exact at_path rfl (CollectionPolicyV1.keeps hread hsectionFields hfield)
    · exact at_path rfl (RetentionPolicyV1.keeps (h.retention _ hv) hsectionFields hfield)
    · exact at_path rfl (StorageLifecyclePolicyV1.keeps (h.lifecycle _ hv) hsectionFields hfield)

/-- **An upgrade validates and keeps what the document sets.** -/
theorem keeps_of_fromJson {fromStr : String → Option Value} {input : String} {c : LocalRuntimeConfigV5}
    (h : fromJson fromStr input = .ok c) {members : List (String × Value)} (hinput : fromStr input = some (.object members))
    {version : String} (hversion : versionOf (.object members) = some version) (holder : version ∈ olderVersions) :
    c.validate = .ok () ∧ c.Keeps members := by
  unfold fromJson at h
  rw [hinput] at h
  obtain ⟨header, hheader, h⟩ := bind_eq_ok.mp h
  obtain rfl := Option.some.inj (ofOption_eq_ok.mp hheader)
  obtain ⟨found, hfound, h⟩ := bind_eq_ok.mp h
  rw [ofOption_eq_ok, hversion] at hfound
  obtain rfl := Option.some.inj hfound
  obtain ⟨config, hread, h⟩ := bind_eq_ok.mp h
  obtain ⟨_, hvalid, h⟩ := bind_eq_ok.mp h
  obtain rfl := pure_eq_ok.mp h
  obtain ⟨names, field, hfields, hreadFrom⟩ := readFrom_readerOf holder (ofOption_eq_ok.mp hread)
  exact ⟨hvalid, hreadFrom.keeps hfields⟩

end LocalRuntimeConfigV5

end AgentObservability.Runtime
