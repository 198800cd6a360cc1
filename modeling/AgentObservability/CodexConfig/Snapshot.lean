import AgentObservability.CodexConfig.Toml
import AgentObservability.Foundation.Durable
import AgentObservability.Foundation.JsonText

/-!
# The ownership snapshot

The manager records what it does to the configuration in a second file: the image
it found, the image it leaves, and while it replaces its own values by others, the
image it is about to leave. Both files are read under a bound on their size, and
every change of one of them names the content it expects.

`snapshotState` compares the configuration with the images, and `OwnershipSnapshot.size`
is the length of the snapshot's file.
-/

namespace AgentObservability.CodexConfig

open Foundation Foundation.Durable

/-- `MAX_CONFIG_BYTES`. -/
def maxConfigBytes : ℕ := 1024 * 1024

/-- `MAX_SNAPSHOT_BYTES`. -/
def maxSnapshotBytes : ℕ := maxConfigBytes * 4 + 8192

/-- `SNAPSHOT_VERSION`. -/
def snapshotVersion : String := "codex_config_ownership.v1"

/-- A file: its bytes and its mode. -/
structure File where
  /-- Its bytes. -/
  bytes : Bytes
  /-- Its permissions. -/
  mode : ℕ
  deriving DecidableEq

/-- `ExistingFile`. -/
structure ExistingFile where
  /-- `existed`. -/
  existed : Bool
  /-- `bytes`. -/
  bytes : Bytes
  /-- `mode`. -/
  mode : ℕ
  deriving DecidableEq

namespace ExistingFile

/-- `ExistingFile` of no file. -/
def absent : ExistingFile := ⟨false, [], 0o600⟩

/-- `ExistingFile::present`. -/
def present (bytes : Bytes) (mode : ℕ) : ExistingFile := ⟨true, bytes, mode⟩

/-- `ExistingFile::matches`. -/
def agrees (file : ExistingFile) (bytes : Bytes) (mode : ℕ) : Bool :=
  file.existed && file.bytes = bytes && file.mode = mode

end ExistingFile

/-- `FileExpectation`. -/
inductive FileExpectation where
  /-- `Missing`. -/
  | missing
  /-- `Present`. -/
  | present (bytes : Bytes) (mode : ℕ)

namespace FileExpectation

/-- `FileExpectation::from_existing`. -/
def fromExisting (file : ExistingFile) : FileExpectation :=
  if file.existed then .present file.bytes file.mode else .missing

/-- `FileExpectation::matches`. -/
def agrees : FileExpectation → ExistingFile → Bool
  | .missing, file => !file.existed
  | .present bytes mode, file => file.agrees bytes mode

end FileExpectation

/-- `SnapshotPhase`. -/
inductive SnapshotPhase where
  /-- `Prepared`. -/
  | prepared
  /-- `Connected`. -/
  | connected
  /-- `Rotating`. -/
  | rotating
  /-- `Restoring`. -/
  | restoring
  deriving DecidableEq

/-- The name of a phase in the snapshot. -/
def SnapshotPhase.name : SnapshotPhase → String
  | .prepared => "prepared"
  | .connected => "connected"
  | .rotating => "rotating"
  | .restoring => "restoring"

/-- `SnapshotState`. -/
inductive SnapshotState where
  /-- `PreparedPrior`. -/
  | preparedPrior
  /-- `Connected`. -/
  | connected
  /-- `RotationPrepared`. -/
  | rotationPrepared
  /-- `RotationApplied`. -/
  | rotationApplied
  /-- `RestoredPrior`. -/
  | restoredPrior
  /-- `Conflict`. -/
  | conflict
  deriving DecidableEq

/-- `PendingRotation`, with its bytes out of their hexadecimal text. -/
structure PendingRotation where
  /-- `connected_bytes_hex`. -/
  connectedBytes : Bytes
  /-- `connected_hash`. -/
  connectedHash : String
  /-- `connected_mode`. -/
  connectedMode : ℕ
  /-- `managed_fingerprint`. -/
  managedFingerprint : String
  deriving DecidableEq

/-- `OwnershipSnapshot`, with its bytes out of their hexadecimal text. -/
structure OwnershipSnapshot where
  /-- `schema_version`. -/
  schemaVersion : String
  /-- `config_path`. -/
  configPath : String
  /-- `phase`. -/
  phase : SnapshotPhase
  /-- `prior_existed`. -/
  priorExisted : Bool
  /-- `prior_bytes_hex`. -/
  priorBytes : Bytes
  /-- `prior_hash`. -/
  priorHash : String
  /-- `prior_mode`. -/
  priorMode : ℕ
  /-- `connected_bytes_hex`. -/
  connectedBytes : Bytes
  /-- `connected_hash`. -/
  connectedHash : String
  /-- `connected_mode`. -/
  connectedMode : ℕ
  /-- `owns_notify`. -/
  ownsNotify : Bool
  /-- `managed_fingerprint`. -/
  managedFingerprint : String
  /-- `pending_rotation`. -/
  pendingRotation : Option PendingRotation
  deriving DecidableEq

/-- `hex_encode`. -/
def hexEncode (bytes : Bytes) : String :=
  String.ofList (bytes.flatMap fun byte => [Nat.digitChar (byte.toNat / 16), Nat.digitChar (byte.toNat % 16)])

/-- A hexadecimal text is twice as long as its bytes, and has two quotation marks. -/
theorem byteLength_hexEncode (bytes : Bytes) : byteLength (Json.str (hexEncode bytes)) = 2 + 2 * bytes.length := by
  have hdigit : ∀ n < 16, Json.escape (Nat.digitChar n) = [Nat.digitChar n] ∧ (Nat.digitChar n).utf8Size = 1 := by decide
  have hsum : (String.ofList ((hexEncode bytes).toList.flatMap Json.escape)).utf8ByteSize = 2 * bytes.length := by
    rw [hexEncode, String.toList_ofList]
    induction bytes with
    | nil => rfl
    | cons byte bytes ih =>
      obtain ⟨hhigh, hhighSize⟩ := hdigit (byte.toNat / 16) (by have := byte.toNat_lt; omega)
      obtain ⟨hlow, hlowSize⟩ := hdigit (byte.toNat % 16) (by omega)
      rw [List.flatMap_cons, List.flatMap_append, String.ofList_append, String.utf8ByteSize_append, ih, List.length_cons]
      simp only [List.flatMap_cons, List.flatMap_nil, hhigh, hlow, List.append_nil, List.cons_append, List.nil_append,
        String.ofList_cons, String.utf8ByteSize_append, String.utf8ByteSize_singleton, hhighSize, hlowSize,
        String.ofList_nil, String.utf8ByteSize_empty]
      omega
  have hquote : ("\"" : String).utf8ByteSize = 1 := rfl
  simp only [Json.str, byteLength, List.map_cons, List.map_nil, List.sum_cons, List.sum_nil, hquote, hsum]
  omega

/-- The text of a pending rotation. -/
def PendingRotation.toText (pending : PendingRotation) : Text :=
  Json.prettyObject 2 [
    ("connected_bytes_hex", Json.str (hexEncode pending.connectedBytes)),
    ("connected_hash", Json.str pending.connectedHash),
    ("connected_mode", Json.nat pending.connectedMode),
    ("managed_fingerprint", Json.str pending.managedFingerprint)]

/-- The pending configuration. -/
def PendingRotation.file (pending : PendingRotation) : File := ⟨pending.connectedBytes, pending.connectedMode⟩

namespace OwnershipSnapshot

variable (snapshot : OwnershipSnapshot)

/-- The members of a snapshot. -/
def members : List (String × Text) := [
  ("schema_version", Json.str snapshot.schemaVersion),
  ("config_path", Json.str snapshot.configPath),
  ("phase", Json.str snapshot.phase.name),
  ("prior_existed", Json.bool snapshot.priorExisted),
  ("prior_bytes_hex", Json.str (hexEncode snapshot.priorBytes)),
  ("prior_hash", Json.str snapshot.priorHash),
  ("prior_mode", Json.nat snapshot.priorMode),
  ("connected_bytes_hex", Json.str (hexEncode snapshot.connectedBytes)),
  ("connected_hash", Json.str snapshot.connectedHash),
  ("connected_mode", Json.nat snapshot.connectedMode),
  ("owns_notify", Json.bool snapshot.ownsNotify),
  ("managed_fingerprint", Json.str snapshot.managedFingerprint)] ++
  Json.member "pending_rotation" PendingRotation.toText snapshot.pendingRotation

/-- `to_bytes`, as a text. -/
def toText : Text := Json.prettyObject 0 snapshot.members ++ ["\n"]

/-- How long the file of a snapshot is. -/
def size : ℕ := byteLength snapshot.toText

/-- `validate_path_and_prior`. -/
def validatePathAndPrior (configPath : String) : Except ConfigError Unit :=
  let pendingIsValid := match snapshot.pendingRotation with
    | some pending => snapshot.phase = .rotating && pending.connectedHash = hash pending.connectedBytes &&
        pending.connectedMode = snapshot.connectedMode
    | none => snapshot.phase ≠ .rotating
  if snapshot.schemaVersion ≠ snapshotVersion || snapshot.configPath ≠ configPath ||
      snapshot.priorHash ≠ hash snapshot.priorBytes || snapshot.connectedHash ≠ hash snapshot.connectedBytes ||
      (!snapshot.priorExisted && !snapshot.priorBytes.isEmpty) || snapshot.priorMode &&& 0o077 ≠ 0 ||
      snapshot.connectedMode &&& 0o077 ≠ 0 || snapshot.connectedMode ≠ snapshot.priorMode || !pendingIsValid then
    .error .invalidSnapshot
  else .ok ()

/-- `matches_prior`. -/
def matchesPrior (current : ExistingFile) : Bool :=
  if snapshot.priorExisted then current.agrees snapshot.priorBytes snapshot.priorMode else !current.existed

/-- `matches_connected`. -/
def matchesConnected (current : ExistingFile) : Bool := current.agrees snapshot.connectedBytes snapshot.connectedMode

/-- `matches_pending`. -/
def matchesPending (current : ExistingFile) : Except ConfigError Bool :=
  match snapshot.pendingRotation with
  | some pending => .ok (current.agrees pending.connectedBytes pending.connectedMode)
  | none => .error .invalidSnapshot

/-- `pending_managed_fingerprint`. -/
def pendingManagedFingerprint : Option String := snapshot.pendingRotation.map (·.managedFingerprint)

/-- The snapshot in another phase. -/
def inPhase (phase : SnapshotPhase) : OwnershipSnapshot := { snapshot with phase := phase }

/-- The prior configuration. -/
def prior : Option File := if snapshot.priorExisted then some ⟨snapshot.priorBytes, snapshot.priorMode⟩ else none

/-- The connected configuration. -/
def connectedFile : File := ⟨snapshot.connectedBytes, snapshot.connectedMode⟩

theorem size_eq : snapshot.size = 3 + (snapshot.members.map fun m => 8 + m.1.utf8ByteSize + byteLength m.2).sum := by
  have hline : byteLength ["\n"] = 1 := rfl
  rw [size, toText, byteLength_append, hline, Json.byteLength_prettyObject 0 (by simp [members])]
  simp only [Nat.zero_add]
  omega

/-- A snapshot is the longest in its last phases. -/
theorem size_inPhase_le (phase : SnapshotPhase) : (snapshot.inPhase phase).size ≤ (snapshot.inPhase .connected).size := by
  have hname : byteLength (Json.str phase.name) ≤ byteLength (Json.str SnapshotPhase.connected.name) := by
    cases phase <;> decide
  rw [size_eq, size_eq]
  simp only [members, inPhase, List.map_append, List.map_cons, List.sum_append, List.sum_cons]
  omega

end OwnershipSnapshot

/-! ### The files -/

/-- The configuration and the snapshot. -/
structure Disk where
  /-- The file at `config_path`. -/
  config : Option File
  /-- The file at `snapshot_path`, read. -/
  snapshot : Option OwnershipSnapshot
  deriving DecidableEq

namespace Disk

/-- `read_optional_private_file` of the configuration. -/
def readConfig (d : Disk) : Except ConfigError ExistingFile :=
  match d.config with
  | none => .ok .absent
  | some file =>
    if file.mode &&& 0o077 ≠ 0 then .error (.insecurePermissions .config)
    else if maxConfigBytes < file.bytes.length then .error (.tooLarge .config)
    else .ok (.present file.bytes file.mode)

/-- `read_optional_private_file` of the snapshot, which the manager makes private. -/
def readSnapshotFile (d : Disk) : Except ConfigError (Option OwnershipSnapshot) :=
  match d.snapshot with
  | none => .ok none
  | some snapshot => if maxSnapshotBytes < snapshot.size then .error (.tooLarge .snapshot) else .ok (some snapshot)

/-- `read_snapshot`. -/
def readSnapshot (configPath : String) (d : Disk) : Except ConfigError OwnershipSnapshot := do
  match ← d.readSnapshotFile with
  | none => throw .invalidSnapshot
  | some snapshot =>
    snapshot.validatePathAndPrior configPath
    return snapshot

/-- The configuration that `snapshot_state` looks at, unless its mode is another one. -/
def currentFor (snapshot : OwnershipSnapshot) (d : Disk) : Except ConfigError (Option ExistingFile) :=
  match d.config with
  | none => .ok (some .absent)
  | some file => if file.mode ≠ snapshot.connectedMode then .ok none else some <$> d.readConfig

/-- `snapshot_state`. -/
def snapshotState (snapshot : OwnershipSnapshot) (d : Disk) : Except ConfigError SnapshotState := do
  match ← d.currentFor snapshot with
  | none => return .conflict
  | some current =>
    if snapshot.phase = .prepared ∧ snapshot.matchesPrior current then return .preparedPrior
    else if snapshot.phase = .restoring ∧ snapshot.matchesPrior current then return .restoredPrior
    else if snapshot.phase = .rotating ∧ snapshot.matchesConnected current then return .rotationPrepared
    else if snapshot.phase = .rotating then
      if ← snapshot.matchesPending current then return .rotationApplied else return .conflict
    else if snapshot.matchesConnected current then return .connected
    else return .conflict

end Disk

/-- A call of `atomic_replace` or of `remove_checked`. -/
inductive Mutation where
  /-- `atomic_replace` of the configuration. -/
  | replaceConfig (expected : FileExpectation) (bytes : Bytes) (mode : ℕ)
  /-- `remove_checked` of the configuration. -/
  | removeConfig (expected : FileExpectation)
  /-- `atomic_replace` of the snapshot. -/
  | replaceSnapshot (expected : Option OwnershipSnapshot) (snapshot : OwnershipSnapshot)
  /-- `remove_checked` of the snapshot. -/
  | removeSnapshot (expected : OwnershipSnapshot)

/-- What a mutation does: it reads the file it is about and refuses another content than it expects. -/
def Mutation.effect (mutation : Mutation) (d : Disk) : Except ConfigError Disk := do
  match mutation with
  | .replaceConfig expected bytes mode =>
    let current ← d.readConfig
    if expected.agrees current then return { d with config := some ⟨bytes, mode⟩ } else throw .conflict
  | .removeConfig expected =>
    let current ← d.readConfig
    if expected.agrees current then return { d with config := none } else throw .conflict
  | .replaceSnapshot expected snapshot =>
    let current ← d.readSnapshotFile
    if current = expected then return { d with snapshot := some snapshot } else throw .conflict
  | .removeSnapshot expected =>
    let current ← d.readSnapshotFile
    if current = some expected then return { d with snapshot := none } else throw .conflict

/-- What `atomic_replace` reads back when it has replaced the file. -/
def Mutation.confirm (mutation : Mutation) (d : Disk) : Except ConfigError Unit := do
  match mutation with
  | .replaceConfig _ bytes mode =>
    let installed ← d.readConfig
    if installed.agrees bytes mode then return () else throw .conflict
  | .replaceSnapshot _ snapshot =>
    let installed ← d.readSnapshotFile
    if installed = some snapshot then return () else throw .conflict
  | .removeConfig _ | .removeSnapshot _ => return ()

/-- The file system. -/
def device : Device Disk Mutation ConfigError where
  effect := Mutation.effect
  confirm := Mutation.confirm
  fault := .io

end AgentObservability.CodexConfig
