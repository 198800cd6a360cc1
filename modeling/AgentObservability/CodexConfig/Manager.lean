import AgentObservability.CodexConfig.Snapshot

/-!
# The manager's operations

`connect`, `disconnect` and `status`, as programs over the two files: each takes
the lock, reads, and makes its changes one checked replacement or removal after
the other. A snapshot that an operation has written is the one that it expects at
its next change.
-/

namespace AgentObservability.CodexConfig

open Foundation Foundation.Durable

/-- `ConnectionStatus`. -/
inductive ConnectionStatus where
  /-- `Connected`. -/
  | connected
  /-- `Disconnected`. -/
  | disconnected
  /-- `Conflict`. -/
  | conflict
  deriving DecidableEq

/-- A computation of the manager. -/
abbrev Action := Prog Disk Mutation ConfigError

/-- `write_snapshot`. -/
def writeSnapshot (snapshot current : OwnershipSnapshot) : Action OwnershipSnapshot := do
  Prog.mutate (.replaceSnapshot (some current) snapshot)
  return snapshot

/-- `transition_snapshot`. -/
def transitionSnapshot (snapshot : OwnershipSnapshot) (phase : SnapshotPhase) : Action OwnershipSnapshot :=
  writeSnapshot { snapshot with phase := phase } snapshot

/-- `transition_snapshot`, unless the snapshot is in the phase. -/
def enterPhase (snapshot : OwnershipSnapshot) (phase : SnapshotPhase) : Action OwnershipSnapshot :=
  if snapshot.phase ≠ phase then transitionSnapshot snapshot phase else pure snapshot

/-- The snapshot after a rotation. -/
def OwnershipSnapshot.rotated (snapshot : OwnershipSnapshot) (pending : PendingRotation) : OwnershipSnapshot :=
  { snapshot with
    pendingRotation := none
    phase := .connected
    connectedBytes := pending.connectedBytes
    connectedHash := pending.connectedHash
    connectedMode := pending.connectedMode
    managedFingerprint := pending.managedFingerprint }

/-- The change of the configuration in `finish_rotation`. -/
def applyRotation (snapshot : OwnershipSnapshot) : SnapshotState → Action Unit
  | .rotationPrepared =>
    match snapshot.pendingRotation with
    | none => Prog.throw .invalidSnapshot
    | some pending => Prog.mutate (.replaceConfig (.present snapshot.connectedBytes snapshot.connectedMode)
        pending.connectedBytes pending.connectedMode)
  | .rotationApplied => pure ()
  | .conflict => Prog.throw .conflict
  | _ => Prog.throw .invalidSnapshot

/-- `finish_rotation`. -/
def finishRotation (snapshot : OwnershipSnapshot) (state : SnapshotState) : Action OwnershipSnapshot := do
  applyRotation snapshot state
  match snapshot.pendingRotation with
  | none => Prog.throw .invalidSnapshot
  | some pending => writeSnapshot (snapshot.rotated pending) snapshot

/-- The snapshot before a rotation to a document. -/
def OwnershipSnapshot.rotating (snapshot : OwnershipSnapshot) (toml : TomlEdit) (managed : ManagedValues)
    (document : toml.Document) : OwnershipSnapshot :=
  { snapshot with
    phase := .rotating
    pendingRotation := some {
      connectedBytes := documentBytes toml document
      connectedHash := hash (documentBytes toml document)
      connectedMode := snapshot.connectedMode
      managedFingerprint := managed.fingerprint toml snapshot.ownsNotify } }

section Operations

variable (toml : TomlEdit) (configPath : String)

/-- `rotate_connected`. -/
def rotateConnected (snapshot : OwnershipSnapshot) (managed : ManagedValues) : Action OwnershipSnapshot := do
  let document ← Prog.lift (parseDocument toml snapshot.connectedBytes)
  match replaceManagedValues toml document managed snapshot.ownsNotify with
  | none => Prog.abort
  | some document =>
    let rotating ← writeSnapshot (snapshot.rotating toml managed document) snapshot
    finishRotation rotating .rotationPrepared

/-- The snapshot after a rebase: another prior and another connected configuration. -/
def OwnershipSnapshot.rebased (snapshot : OwnershipSnapshot) (current : ExistingFile) (prior : Bytes) :
    OwnershipSnapshot :=
  { snapshot with
    priorExisted := true
    priorHash := hash prior
    priorBytes := prior
    priorMode := current.mode
    connectedHash := hash current.bytes
    connectedBytes := current.bytes
    connectedMode := current.mode }

/-- `rebase_unowned_edits`. -/
def rebaseUnownedEdits (snapshot : OwnershipSnapshot) : Action (Option OwnershipSnapshot) := do
  let current ← Prog.read Disk.readConfig
  if !current.existed || current.mode ≠ snapshot.connectedMode then
    return none
  else
    let connected ← Prog.lift (parseDocument toml snapshot.connectedBytes)
    let currentDocument ← Prog.lift (parseDocument toml current.bytes)
    if ownedValuesMatch toml currentDocument connected snapshot.ownsNotify then
      let prior ← Prog.lift (parseDocument toml snapshot.priorBytes)
      let rebasedPrior ← Prog.lift (restoreOwnedValues toml currentDocument prior snapshot.ownsNotify)
      let confirmed ← Prog.read Disk.readConfig
      if confirmed.agrees current.bytes current.mode then
        some <$> writeSnapshot (snapshot.rebased current (documentBytes toml rebasedPrior)) snapshot
      else Prog.throw .conflict
    else return none

/-- The rebase in `connect_existing`, of a configuration that is none of the images. -/
def rebaseConflict (snapshot : OwnershipSnapshot) (state : SnapshotState) :
    Action (OwnershipSnapshot × SnapshotState) :=
  if state = .conflict ∧ snapshot.phase = .connected then do
    match ← rebaseUnownedEdits toml snapshot with
    | some rebased => return (rebased, .connected)
    | none => return (snapshot, state)
  else return (snapshot, state)

/-- The rest of `connect_existing`, with the snapshot as it is now. -/
def connectOwned (managed : ManagedValues) (snapshot : OwnershipSnapshot) (state : SnapshotState) :
    Action (Option ConnectionStatus) :=
  if snapshot.phase = .rotating then
    if snapshot.pendingManagedFingerprint ≠ some (managed.fingerprint toml snapshot.ownsNotify) then
      Prog.throw .conflict
    else do
      let _ ← finishRotation snapshot state
      return some .connected
  else if snapshot.managedFingerprint ≠ managed.fingerprint toml snapshot.ownsNotify then
    if state ≠ .connected then Prog.throw .conflict
    else do
      let _ ← rotateConnected toml snapshot managed
      return some .connected
  else
    match state with
    | .preparedPrior | .restoredPrior => do
      Prog.mutate (.removeSnapshot snapshot)
      return none
    | .connected => do
      let _ ← enterPhase snapshot .connected
      return some .connected
    | .rotationPrepared | .rotationApplied => Prog.throw .invalidSnapshot
    | .conflict => Prog.throw .conflict

/-- `connect_existing`. -/
def connectExisting (managed : ManagedValues) : Action (Option ConnectionStatus) := do
  let snapshot ← Prog.read (Disk.readSnapshot configPath)
  let state ← Prog.read (Disk.snapshotState snapshot)
  let (snapshot, state) ← rebaseConflict toml snapshot state
  connectOwned toml managed snapshot state

/-- The snapshot of a connection over a prior configuration, before or after the change. -/
def preparedSnapshot (managed : ManagedValues) (prior : ExistingFile) (ownsNotify : Bool) (updated : Bytes)
    (phase : SnapshotPhase) : OwnershipSnapshot where
  schemaVersion := snapshotVersion
  configPath := configPath
  phase := phase
  priorExisted := prior.existed
  priorBytes := prior.bytes
  priorHash := hash prior.bytes
  priorMode := prior.mode
  connectedBytes := updated
  connectedHash := hash updated
  connectedMode := prior.mode
  ownsNotify := ownsNotify
  managedFingerprint := managed.fingerprint toml ownsNotify
  pendingRotation := none

/-- What `connect` does when it could not replace the configuration. -/
def rollbackConnect (snapshot : OwnershipSnapshot) (error : ConfigError) : Action ConnectionStatus := do
  match ← Prog.read (Disk.snapshotState snapshot) with
  | .preparedPrior =>
    match ← Prog.attempt (.removeSnapshot snapshot) with
    | .ok () => Prog.throw error
    | .error _ => Prog.throw .rollbackFailed
  | .connected => Prog.throw error
  | _ => Prog.throw .conflict

/-- The changes of `connect` over a prior configuration. -/
def installManagedValues (managed : ManagedValues) (prior : ExistingFile) (ownsNotify : Bool) (updated : Bytes) :
    Action ConnectionStatus :=
  if prior.agrees updated prior.mode then do
    Prog.mutate (.replaceSnapshot none (preparedSnapshot toml configPath managed prior ownsNotify updated .connected))
    return .connected
  else do
    Prog.mutate (.replaceSnapshot none (preparedSnapshot toml configPath managed prior ownsNotify updated .prepared))
    match ← Prog.attempt (.replaceConfig (.fromExisting prior) updated prior.mode) with
    | .error error => rollbackConnect (preparedSnapshot toml configPath managed prior ownsNotify updated .prepared) error
    | .ok () =>
      let _ ← transitionSnapshot (preparedSnapshot toml configPath managed prior ownsNotify updated .prepared) .connected
      return .connected

/-- Whether the manager takes over a document's `notify`. -/
def takesNotify (document : toml.Document) (managed : ManagedValues) : Bool :=
  (toml.get document "notify").all fun item => notifyMatches toml item managed

/-- `connect` without a snapshot. -/
def connectFresh (managed : ManagedValues) : Action ConnectionStatus := do
  let prior ← Prog.read Disk.readConfig
  let document ← Prog.lift (parseDocument toml prior.bytes)
  Prog.lift (ensureNoManagedConflict toml document managed)
  match patchManagedValues toml document managed (takesNotify toml document managed) with
  | none => Prog.abort
  | some updated =>
    installManagedValues toml configPath managed prior (takesNotify toml document managed) (documentBytes toml updated)

/-- `connect` with managed values. -/
def connectManaged (managed : ManagedValues) : Action ConnectionStatus := do
  let existing ← Prog.read fun d => .ok d.snapshot.isSome
  if existing then
    match ← connectExisting toml configPath managed with
    | some status => return status
    | none => connectFresh toml configPath managed
  else connectFresh toml configPath managed

/-- `connect`. -/
def connect : Option ManagedValues → Action ConnectionStatus
  | none => Prog.throw (.invalidArgument "managed Codex values")
  | some managed => connectManaged toml configPath managed

/-- The snapshot's values are the manager's, or the manager has none. -/
def recognizes (managed : Option ManagedValues) (snapshot : OwnershipSnapshot) : Bool :=
  managed.all fun managed =>
    let fingerprint := managed.fingerprint toml snapshot.ownsNotify
    if snapshot.phase = .rotating then snapshot.pendingManagedFingerprint = some fingerprint
    else snapshot.managedFingerprint = fingerprint

/-- A rotation that was begun is finished. -/
def settleRotation (snapshot : OwnershipSnapshot) (state : SnapshotState) :
    Action (OwnershipSnapshot × SnapshotState) :=
  if snapshot.phase = .rotating then do
    let snapshot ← finishRotation snapshot state
    return (snapshot, .connected)
  else return (snapshot, state)

/-- The change of the configuration back to the prior one. -/
def restoreMutation (snapshot : OwnershipSnapshot) : Mutation :=
  if snapshot.priorExisted then
    .replaceConfig (.present snapshot.connectedBytes snapshot.connectedMode) snapshot.priorBytes snapshot.priorMode
  else .removeConfig (.present snapshot.connectedBytes snapshot.connectedMode)

/-- `disconnect` from a snapshot in `Restoring`. -/
def restorePrior (snapshot : OwnershipSnapshot) : Action ConnectionStatus := do
  match ← Prog.attempt (restoreMutation snapshot) with
  | .error error =>
    match ← Prog.read (Disk.snapshotState snapshot) with
    | .restoredPrior =>
      Prog.mutate (.removeSnapshot snapshot)
      return .disconnected
    | .connected => Prog.throw error
    | _ => Prog.throw .conflict
  | .ok () =>
    Prog.mutate (.removeSnapshot snapshot)
    return .disconnected

/-- The end of `disconnect`, from the state of the configuration. -/
def disconnectFrom (snapshot : OwnershipSnapshot) : SnapshotState → Action ConnectionStatus
  | .preparedPrior | .restoredPrior => do
    Prog.mutate (.removeSnapshot snapshot)
    return .disconnected
  | .connected => do
    let snapshot ← enterPhase snapshot .restoring
    restorePrior snapshot
  | .rotationPrepared | .rotationApplied => Prog.throw .invalidSnapshot
  | .conflict => Prog.throw .conflict

/-- `disconnect` with a snapshot. -/
def disconnectOwned (managed : Option ManagedValues) : Action ConnectionStatus := do
  let snapshot ← Prog.read (Disk.readSnapshot configPath)
  let state ← Prog.read (Disk.snapshotState snapshot)
  if recognizes toml managed snapshot then
    let (snapshot, state) ← settleRotation snapshot state
    disconnectFrom snapshot state
  else Prog.throw .conflict

/-- `disconnect`. -/
def disconnect (managed : Option ManagedValues) : Action ConnectionStatus := do
  let existing ← Prog.read fun d => .ok d.snapshot.isSome
  if existing then disconnectOwned toml configPath managed else return .disconnected

/-- The end of `ownership_status`, from the state of the configuration. -/
def statusFrom (snapshot : OwnershipSnapshot) : SnapshotState → Action (Option ConnectionStatus)
  | .preparedPrior | .restoredPrior => do
    Prog.mutate (.removeSnapshot snapshot)
    return none
  | .connected => do
    let _ ← enterPhase snapshot .connected
    return some .connected
  | .rotationPrepared | .rotationApplied => Prog.throw .invalidSnapshot
  | .conflict => return some .conflict

/-- `ownership_status` with a snapshot. -/
def statusOwned (managed : Option ManagedValues) : Action (Option ConnectionStatus) := do
  let snapshot ← Prog.read (Disk.readSnapshot configPath)
  let state ← Prog.read (Disk.snapshotState snapshot)
  if recognizes toml managed snapshot then
    if snapshot.phase = .rotating ∧ state = .conflict then return some .conflict
    else
      let (snapshot, state) ← settleRotation snapshot state
      statusFrom snapshot state
  else return some .conflict

/-- `ownership_status`. -/
def ownershipStatus (managed : Option ManagedValues) : Action (Option ConnectionStatus) := do
  let existing ← Prog.read fun d => .ok d.snapshot.isSome
  if existing then statusOwned toml configPath managed else return none

/-- `status`. -/
def status (managed : Option ManagedValues) : Action ConnectionStatus := do
  let status ← ownershipStatus toml configPath managed
  return status.getD .disconnected

end Operations

end AgentObservability.CodexConfig
