import AgentObservability.CodexConfig.Manager

/-!
# What the snapshot owns

Between the operations, and at every instant of one, the two files belong together:
without a snapshot the configuration is the prior one, and with a snapshot it is one
of the images that the snapshot holds (`Versions`), which are all small enough to be
read back (`Owned`). `snapshotState_eq` says what the manager sees then.

The traces (`FreshTrace`, `FinishTrace`, ...) are the pairs of files that an operation
passes, whatever fails.
-/

namespace AgentObservability.CodexConfig

open Foundation Foundation.Durable

/-- What is read of a file that can be read. -/
def existing : Option File → ExistingFile
  | none => .absent
  | some file => .present file.bytes file.mode

/-- A file that can be read. -/
structure File.Readable (file : File) : Prop where
  owner_only : file.mode &&& 0o077 = 0
  fits : file.bytes.length ≤ maxConfigBytes

theorem readConfig_eq {d : Disk} (h : ∀ file ∈ d.config, file.Readable) : d.readConfig = .ok (existing d.config) := by
  unfold Disk.readConfig existing
  cases hc : d.config with
  | none => rfl
  | some file =>
    have hr := h file hc
    simp only [hr.owner_only, ne_eq, not_true_eq_false, if_false, Nat.not_lt.mpr hr.fits]

theorem readable_of_readConfig {d : Disk} {current : ExistingFile} (h : d.readConfig = .ok current) :
    current = existing d.config ∧ ∀ file ∈ d.config, file.Readable := by
  unfold Disk.readConfig at h
  cases hc : d.config with
  | none =>
    rw [hc] at h
    cases h
    exact ⟨rfl, nofun⟩
  | some file =>
    simp only [hc] at h
    by_cases hm : file.mode &&& 0o077 = 0
    · by_cases hb : maxConfigBytes < file.bytes.length
      · simp [hm, hb] at h
      · simp only [hm, hb, ne_eq, not_true_eq_false, if_false] at h
        cases h
        refine ⟨rfl, ?_⟩
        rintro _ ⟨⟩
        exact ⟨hm, Nat.not_lt.mp hb⟩
    · simp [hm] at h

namespace OwnershipSnapshot

/-- What `validate_path_and_prior` asks of a snapshot. -/
structure Valid (configPath : String) (s : OwnershipSnapshot) : Prop where
  schemaVersion : s.schemaVersion = snapshotVersion
  path : s.configPath = configPath
  priorHash : s.priorHash = hash s.priorBytes
  connectedHash : s.connectedHash = hash s.connectedBytes
  absent : s.priorExisted = false → s.priorBytes = []
  owner_only : s.priorMode &&& 0o077 = 0
  mode : s.connectedMode = s.priorMode
  rotating : s.phase = .rotating ↔ s.pendingRotation.isSome
  pending : ∀ p ∈ s.pendingRotation, p.connectedHash = hash p.connectedBytes ∧ p.connectedMode = s.connectedMode

variable {configPath : String} {s : OwnershipSnapshot}

theorem Valid.validatePathAndPrior (h : s.Valid configPath) : s.validatePathAndPrior configPath = .ok () := by
  have habsent : (!s.priorExisted && !s.priorBytes.isEmpty) = false := by
    cases hp : s.priorExisted with
    | true => rfl
    | false => simp [h.absent hp]
  have hmode : s.connectedMode &&& 0o077 = 0 := h.mode ▸ h.owner_only
  have hrotating := h.rotating
  have hpending := h.pending
  unfold OwnershipSnapshot.validatePathAndPrior
  cases hp : s.pendingRotation with
  | none =>
    have hphase : s.phase ≠ .rotating := by simpa [hp] using hrotating
    simp [h.schemaVersion, h.path, ← h.priorHash, ← h.connectedHash, habsent, h.owner_only, h.mode, hphase]
  | some p =>
    have hphase : s.phase = .rotating := hrotating.mpr (by rw [hp]; rfl)
    obtain ⟨hhash, hpmode⟩ := hpending p hp
    simp [h.schemaVersion, h.path, ← h.priorHash, ← h.connectedHash, habsent, h.owner_only, h.mode, hphase, ← hhash,
      hpmode]

theorem agrees_iff {file : ExistingFile} {bytes : Bytes} {mode : ℕ} :
    file.agrees bytes mode = true ↔ file.existed = true ∧ file.bytes = bytes ∧ file.mode = mode := by
  simp [ExistingFile.agrees, and_assoc]

theorem agrees_existing {config : Option File} {bytes : Bytes} {mode : ℕ} :
    (existing config).agrees bytes mode = true ↔ config = some ⟨bytes, mode⟩ := by
  rw [agrees_iff]
  cases config with
  | none => simp [existing, ExistingFile.absent]
  | some file =>
    obtain ⟨b, m⟩ := file
    simp [existing, ExistingFile.present]

theorem matchesPrior_existing {config : Option File} : s.matchesPrior (existing config) = true ↔ config = s.prior := by
  unfold matchesPrior prior
  cases s.priorExisted with
  | true => simpa using agrees_existing
  | false =>
    cases config with
    | none => simp [existing, ExistingFile.absent]
    | some file => simp [existing, ExistingFile.present]

/-- The configuration is one of the images that the snapshot allows in its phase. -/
def Versions (s : OwnershipSnapshot) (config : Option File) : Prop :=
  match s.phase with
  | .prepared | .restoring => config = s.prior ∨ config = some s.connectedFile
  | .connected => config = some s.connectedFile
  | .rotating => config = some s.connectedFile ∨ config = s.pendingRotation.map PendingRotation.file

/-- What the manager sees of a configuration that is one of the images. -/
def stateOf (s : OwnershipSnapshot) (config : Option File) : SnapshotState :=
  match s.phase with
  | .prepared => if config = s.prior then .preparedPrior else .connected
  | .restoring => if config = s.prior then .restoredPrior else .connected
  | .connected => .connected
  | .rotating => if config = some s.connectedFile then .rotationPrepared else .rotationApplied

end OwnershipSnapshot

theorem readSnapshot_of_valid {configPath : String} {s : OwnershipSnapshot} (h : s.Valid configPath)
    (hs : s.size ≤ maxSnapshotBytes) {d : Disk} (hd : d.snapshot = some s) : d.readSnapshot configPath = .ok s := by
  unfold Disk.readSnapshot Disk.readSnapshotFile
  simp only [hd, Nat.not_lt.mpr hs, if_false]
  simp [bind, Except.bind, pure, Except.pure, h.validatePathAndPrior]

theorem snapshotState_of_readConfig_error {d : Disk} {s : OwnershipSnapshot} {file : File} {e : ConfigError}
    (hd : d.config = some file) (hm : file.mode = s.connectedMode) (hr : d.readConfig = .error e) :
    d.snapshotState s = .error e := by
  have hcurrent : d.currentFor s = .error e := by
    simp only [Disk.currentFor, hd, hm, ne_eq, not_true_eq_false, if_false, hr]
    rfl
  unfold Disk.snapshotState
  rw [hcurrent]
  rfl

section Owned

variable (toml : TomlEdit) (configPath : String)

/-- A configuration that can be read back and has the table of the manager's values. -/
structure Installable (bytes : Bytes) : Prop where
  fits : bytes.length ≤ maxConfigBytes
  table : ∃ document, parseDocument toml bytes = .ok document ∧ toml.tableLikeAt document "otel" = true

/-- A snapshot of a prior configuration, whose file and whose images can be read back. -/
structure Owned (prior : Option File) (s : OwnershipSnapshot) : Prop where
  valid : s.Valid configPath
  prior_eq : s.prior = prior
  prior_fits : s.priorBytes.length ≤ maxConfigBytes
  connected : Installable toml s.connectedBytes
  pending : ∀ p ∈ s.pendingRotation, Installable toml p.connectedBytes
  size : s.size ≤ maxSnapshotBytes
  size_connected : s.phase ≠ .rotating → (s.inPhase .connected).size ≤ maxSnapshotBytes

/-- What `connect` makes of a configuration that it accepts. -/
structure Accepted (managed : ManagedValues) (config : Option File) (document updated : toml.Document) : Prop where
  readable : ∀ file ∈ config, file.Readable
  parsed : parseDocument toml (existing config).bytes = .ok document
  unconflicted : ensureNoManagedConflict toml document managed = .ok ()
  patched : patchManagedValues toml document managed (takesNotify toml document managed) = some updated

/-- The snapshot of a new connection. -/
abbrev freshSnapshot (managed : ManagedValues) (config : Option File) (document updated : toml.Document)
    (phase : SnapshotPhase) : OwnershipSnapshot :=
  preparedSnapshot toml configPath managed (existing config) (takesNotify toml document managed)
    (documentBytes toml updated) phase

variable {toml configPath} {prior : Option File} {s : OwnershipSnapshot}

theorem installable_of_table (law : toml.Lawful) {document : toml.Document}
    (h : toml.tableLikeAt document "otel" = true) :
    ∃ again, parseDocument toml (documentBytes toml document) = .ok again ∧ toml.tableLikeAt again "otel" = true := by
  obtain ⟨again, hparse, hlike⟩ := law.reparse document
  unfold parseDocument documentBytes
  simp only [fromUtf8_intoBytes]
  by_cases he : (toml.toText document).isEmpty = true
  · rw [String.isEmpty_iff] at he
    rw [he, law.parse_empty] at hparse
    cases hparse
    have hempty : ("" : String).isEmpty = true := rfl
    simp only [he, hempty, if_true]
    exact ⟨_, rfl, (hlike "otel").trans h⟩
  · simp only [he, hparse, Bool.false_eq_true, if_false]
    exact ⟨again, rfl, (hlike "otel").trans h⟩

theorem valid_freshSnapshot {managed : ManagedValues} {document updated : toml.Document}
    (h : Accepted toml managed prior document updated) {phase : SnapshotPhase} (hp : phase ≠ .rotating) :
    (freshSnapshot toml configPath managed prior document updated phase).Valid configPath where
  schemaVersion := rfl
  path := rfl
  priorHash := rfl
  connectedHash := rfl
  absent := by
    intro he
    cases prior with
    | none => rfl
    | some file => exact absurd he (by simp [freshSnapshot, preparedSnapshot, existing, ExistingFile.present])
  owner_only := by
    cases prior with
    | none =>
      show (0o600 &&& 0o077 : ℕ) = 0
      decide
    | some file => exact (h.readable file rfl).owner_only
  mode := rfl
  rotating := by simp [freshSnapshot, preparedSnapshot, hp]
  pending := nofun

/-- A rotation makes the snapshot shorter. -/
theorem size_rotated_le {p : PendingRotation} (hp : s.pendingRotation = some p) (hs : s.phase = .rotating) :
    (s.rotated p).size ≤ s.size := by
  have hpending : byteLength p.toText = 4 + ([("connected_bytes_hex", Json.str (hexEncode p.connectedBytes)),
      ("connected_hash", Json.str p.connectedHash), ("connected_mode", Json.nat p.connectedMode),
      ("managed_fingerprint", Json.str p.managedFingerprint)].map fun m =>
        10 + m.1.utf8ByteSize + byteLength m.2).sum := by
    rw [PendingRotation.toText, Json.byteLength_prettyObject 2 (by simp)]
  have hname : byteLength (Json.str SnapshotPhase.connected.name) = byteLength (Json.str SnapshotPhase.rotating.name) + 1 := by
    decide
  rw [OwnershipSnapshot.size_eq, OwnershipSnapshot.size_eq]
  simp only [OwnershipSnapshot.members, OwnershipSnapshot.rotated, hp, hs, Json.member, Option.toList_none,
    Option.toList_some, List.map_nil, List.append_nil, List.map_append, List.map_cons, List.sum_append, List.sum_cons,
    List.sum_nil, hpending, hname]
  omega

namespace Owned

theorem readable_connected (h : Owned toml configPath prior s) : s.connectedFile.Readable :=
  ⟨by rw [OwnershipSnapshot.connectedFile, h.valid.mode]; exact h.valid.owner_only, h.connected.fits⟩

theorem readable_prior (h : Owned toml configPath prior s) : ∀ file ∈ s.prior, file.Readable := by
  intro file hf
  simp only [OwnershipSnapshot.prior, Option.mem_def, Option.ite_none_right_eq_some, Option.some.injEq] at hf
  obtain ⟨_, rfl⟩ := hf
  exact ⟨h.valid.owner_only, h.prior_fits⟩

theorem readable_pending (h : Owned toml configPath prior s) {p : PendingRotation} (hp : p ∈ s.pendingRotation) :
    p.file.Readable :=
  ⟨by rw [PendingRotation.file, (h.valid.pending p hp).2, h.valid.mode]; exact h.valid.owner_only, (h.pending p hp).fits⟩

/-- Every image is of the mode of the connected configuration. -/
theorem mode_of_versions (h : Owned toml configPath prior s) {config : Option File} (hv : s.Versions config) :
    ∀ file ∈ config, file.mode = s.connectedMode := by
  intro file hf
  have hprior : config = s.prior → file.mode = s.connectedMode := by
    intro he
    rw [he] at hf
    simp only [OwnershipSnapshot.prior, Option.mem_def, Option.ite_none_right_eq_some, Option.some.injEq] at hf
    rw [← hf.2, h.valid.mode]
  have hconnected : config = some s.connectedFile → file.mode = s.connectedMode := by
    intro he
    rw [he] at hf
    cases hf
    rfl
  unfold OwnershipSnapshot.Versions at hv
  cases hphase : s.phase with
  | prepared | restoring =>
    simp only [hphase] at hv
    exact hv.elim hprior hconnected
  | connected =>
    simp only [hphase] at hv
    exact hconnected hv
  | rotating =>
    simp only [hphase] at hv
    refine hv.elim hconnected fun he => ?_
    rw [he, Option.mem_def, Option.map_eq_some_iff] at hf
    obtain ⟨p, hp, rfl⟩ := hf
    exact (h.valid.pending p hp).2

/-- Every image can be read back. -/
theorem readable_of_versions (h : Owned toml configPath prior s) {config : Option File} (hv : s.Versions config) :
    ∀ file ∈ config, file.Readable := by
  intro file hf
  have hconnected : config = some s.connectedFile → file.Readable := by
    intro he
    rw [he] at hf
    cases hf
    exact h.readable_connected
  unfold OwnershipSnapshot.Versions at hv
  cases hphase : s.phase with
  | prepared | restoring =>
    simp only [hphase] at hv
    exact hv.elim (fun he => h.readable_prior file (he ▸ hf)) hconnected
  | connected =>
    simp only [hphase] at hv
    exact hconnected hv
  | rotating =>
    simp only [hphase] at hv
    refine hv.elim hconnected fun he => ?_
    rw [he, Option.mem_def, Option.map_eq_some_iff] at hf
    obtain ⟨p, hp, rfl⟩ := hf
    exact h.readable_pending hp

/-- **What the manager sees of a configuration that is one of the snapshot's images.** -/
theorem snapshotState_eq (h : Owned toml configPath prior s) {d : Disk} (hv : s.Versions d.config) :
    d.snapshotState s = .ok (s.stateOf d.config) := by
  have hcurrent : d.currentFor s = .ok (some (existing d.config)) := by
    have hread := readConfig_eq (h.readable_of_versions hv)
    have hmode := h.mode_of_versions hv
    unfold Disk.currentFor
    cases hc : d.config with
    | none => rfl
    | some file =>
      rw [hc] at hread
      simp only [hmode file hc, ne_eq, not_true_eq_false, if_false, hread]
      rfl
  have hmatches : s.matchesConnected (existing d.config) = true ↔ d.config = some s.connectedFile :=
    OwnershipSnapshot.agrees_existing
  unfold Disk.snapshotState OwnershipSnapshot.stateOf
  rw [hcurrent]
  unfold OwnershipSnapshot.Versions at hv
  cases hphase : s.phase with
  | prepared | restoring =>
    simp only [hphase] at hv
    by_cases hp : d.config = s.prior
    · simp [bind, Except.bind, hp, OwnershipSnapshot.matchesPrior_existing.mpr, pure, Except.pure]
    · have hc := hv.resolve_left hp
      simp [bind, Except.bind, hp, OwnershipSnapshot.matchesPrior_existing, hmatches.mpr hc, pure, Except.pure]
  | connected =>
    simp only [hphase] at hv
    simp [bind, Except.bind, hmatches.mpr hv, pure, Except.pure]
  | rotating =>
    simp only [hphase] at hv
    by_cases hc : d.config = some s.connectedFile
    · have hmatch := hmatches.mpr hc
      rw [hc] at hmatch
      simp [bind, Except.bind, hc, hmatch, pure, Except.pure]
    · have hp := hv.resolve_left hc
      obtain ⟨p, hpend⟩ := Option.isSome_iff_exists.mp (h.valid.rotating.mp hphase)
      rw [hpend, Option.map_some] at hp
      have hpending : s.matchesPending (existing d.config) = .ok true := by
        rw [OwnershipSnapshot.matchesPending, hpend]
        exact congrArg _ (OwnershipSnapshot.agrees_existing.mpr hp)
      simp [bind, Except.bind, hmatches, hc, hpending, pure, Except.pure]

theorem readSnapshot_eq (h : Owned toml configPath prior s) {d : Disk} (hd : d.snapshot = some s) :
    d.readSnapshot configPath = .ok s :=
  readSnapshot_of_valid h.valid h.size hd

/-- A snapshot in another phase. -/
theorem inPhase (h : Owned toml configPath prior s) (hs : s.phase ≠ .rotating) {phase : SnapshotPhase}
    (hp : phase ≠ .rotating) : Owned toml configPath prior (s.inPhase phase) where
  valid :=
    { h.valid with
      rotating := by
        have := h.valid.rotating
        simp only [hs, false_iff] at this
        simpa [OwnershipSnapshot.inPhase, hp] using this }
  prior_eq := h.prior_eq
  prior_fits := h.prior_fits
  connected := h.connected
  pending := h.pending
  size := (OwnershipSnapshot.size_inPhase_le s phase).trans (h.size_connected hs)
  size_connected := fun _ => h.size_connected hs

/-- A snapshot that begins a rotation, if it fits. -/
theorem rotating (law : toml.Lawful) (h : Owned toml configPath prior s) {managed : ManagedValues}
    {document updated : toml.Document} (hr : replaceManagedValues toml document managed s.ownsNotify = some updated)
    (hfits : (documentBytes toml updated).length ≤ maxConfigBytes)
    (hsize : (s.rotating toml managed updated).size ≤ maxSnapshotBytes) :
    Owned toml configPath prior (s.rotating toml managed updated) where
  valid :=
    { h.valid with
      rotating := by simp [OwnershipSnapshot.rotating]
      pending := by
        rintro p ⟨⟩
        exact ⟨rfl, rfl⟩ }
  prior_eq := h.prior_eq
  prior_fits := h.prior_fits
  connected := h.connected
  pending := by
    rintro p ⟨⟩
    exact ⟨hfits, installable_of_table law (tableLikeAt_replaceManagedValues law hr)⟩
  size := hsize
  size_connected := fun hn => absurd rfl hn

/-- A snapshot after its rotation. -/
theorem rotated (h : Owned toml configPath prior s) {p : PendingRotation} (hp : s.pendingRotation = some p) :
    Owned toml configPath prior (s.rotated p) where
  valid := {
    schemaVersion := h.valid.schemaVersion
    path := h.valid.path
    priorHash := h.valid.priorHash
    connectedHash := (h.valid.pending p hp).1
    absent := h.valid.absent
    owner_only := h.valid.owner_only
    mode := (h.valid.pending p hp).2.trans h.valid.mode
    rotating := by simp [OwnershipSnapshot.rotated]
    pending := nofun }
  prior_eq := h.prior_eq
  prior_fits := h.prior_fits
  connected := h.pending p hp
  pending := nofun
  size := (size_rotated_le hp (h.valid.rotating.mpr (by rw [hp]; rfl))).trans h.size
  size_connected := fun _ => (size_rotated_le hp (h.valid.rotating.mpr (by rw [hp]; rfl))).trans h.size

/-- A snapshot of a new connection, if it fits. -/
theorem fresh (law : toml.Lawful) {managed : ManagedValues} {document updated : toml.Document}
    (h : Accepted toml managed prior document updated) (hfits : (documentBytes toml updated).length ≤ maxConfigBytes)
    (hsize : (freshSnapshot toml configPath managed prior document updated .connected).size ≤ maxSnapshotBytes)
    {phase : SnapshotPhase} (hp : phase ≠ .rotating) :
    Owned toml configPath prior (freshSnapshot toml configPath managed prior document updated phase) where
  valid := valid_freshSnapshot h hp
  prior_eq := by
    cases prior with
    | none => rfl
    | some file => rfl
  prior_fits := by
    cases prior with
    | none => exact Nat.zero_le _
    | some file => exact (h.readable file rfl).fits
  connected := ⟨hfits, installable_of_table law (tableLikeAt_patchManagedValues law h.patched)⟩
  pending := nofun
  size := (OwnershipSnapshot.size_inPhase_le (freshSnapshot toml configPath managed prior document updated phase) phase).trans hsize
  size_connected := fun _ => hsize

end Owned

variable (toml configPath prior) in
/-- The two files belong together: without a snapshot the configuration is the prior one, with a snapshot it is one of
its images. -/
def Consistent (d : Disk) : Prop :=
  match d.snapshot with
  | none => d.config = prior
  | some s => Owned toml configPath prior s ∧ s.Versions d.config

/-! ### What fits -/

variable (toml configPath)

/-- What a new connection writes over a configuration can be read back. -/
def FreshFits (managed : ManagedValues) (config : Option File) : Prop :=
  ∀ document updated, Accepted toml managed config document updated →
    (documentBytes toml updated).length ≤ maxConfigBytes ∧
      (freshSnapshot toml configPath managed config document updated .connected).size ≤ maxSnapshotBytes

/-- What a rotation writes can be read back. -/
def RotationFits (managed : ManagedValues) (s : OwnershipSnapshot) : Prop :=
  ∀ document updated, parseDocument toml s.connectedBytes = .ok document →
    replaceManagedValues toml document managed s.ownsNotify = some updated →
    (documentBytes toml updated).length ≤ maxConfigBytes ∧
      (s.rotating toml managed updated).size ≤ maxSnapshotBytes

/-- What `connect` with managed values writes can be read back. -/
def ConnectFits (managed : ManagedValues) (d : Disk) : Prop :=
  match d.snapshot with
  | none => FreshFits toml configPath managed d.config
  | some s =>
    match s.stateOf d.config with
    | .preparedPrior | .restoredPrior =>
      s.managedFingerprint = managed.fingerprint toml s.ownsNotify → FreshFits toml configPath managed d.config
    | .connected => s.managedFingerprint ≠ managed.fingerprint toml s.ownsNotify → RotationFits toml managed s
    | _ => True

/-- `connect` takes the managed values: there is no connection and they do not conflict with the configuration, or
they are the values of an operation that was not finished, or the configuration is connected. -/
def Connectable (managed : ManagedValues) (d : Disk) : Prop :=
  match d.snapshot with
  | none => ∃ document updated, Accepted toml managed d.config document updated
  | some s =>
    match s.stateOf d.config with
    | .preparedPrior | .restoredPrior => s.managedFingerprint = managed.fingerprint toml s.ownsNotify ∧
        ∃ document updated, Accepted toml managed d.config document updated
    | .connected => True
    | .rotationPrepared | .rotationApplied => s.pendingManagedFingerprint = some (managed.fingerprint toml s.ownsNotify)
    | .conflict => False

/-- The configuration is connected with the managed values, over the prior one. -/
def ConnectedTo (prior : Option File) (managed : ManagedValues) (d : Disk) : Prop :=
  ∃ s, d = ⟨some s.connectedFile, some s⟩ ∧ Owned toml configPath prior s ∧ s.phase = .connected ∧
    s.managedFingerprint = managed.fingerprint toml s.ownsNotify

variable {toml configPath} in
/-- A new snapshot fits whenever its two images do. -/
theorem size_freshSnapshot_le {managed : ManagedValues} {config : Option File} {document updated : toml.Document}
    {phase : SnapshotPhase} (hpath : configPath.length ≤ 100) (hmode : (existing config).mode < 10 ^ 20)
    (hprior : (existing config).bytes.length ≤ maxConfigBytes)
    (hupdated : (documentBytes toml updated).length ≤ maxConfigBytes + 320) :
    (freshSnapshot toml configPath managed config document updated phase).size ≤ maxSnapshotBytes := by
  have hhash : ∀ bytes, byteLength (Json.str (hash bytes)) ≤ 1538 := fun bytes =>
    (Json.byteLength_str_le _).trans (by rw [hash, Sha256.length_hexDigest])
  have hpathText := Json.byteLength_str_le configPath
  have hphase : byteLength (Json.str phase.name) ≤ 11 := by cases phase <;> decide
  have hbool : ∀ b, byteLength (Json.bool b) ≤ 5 := by decide
  have hmodeText : byteLength (Json.nat (existing config).mode) ≤ 80 := Json.utf8ByteSize_toString_le hmode
  have hversion : byteLength (Json.str snapshotVersion) = 27 := by decide
  have hpriorHash := hhash (existing config).bytes
  have hupdatedHash := hhash (documentBytes toml updated)
  have hfingerprint : byteLength (Json.str (managed.fingerprint toml (takesNotify toml document managed))) ≤ 1538 := hhash _
  have hexisted := hbool (existing config).existed
  have howns := hbool (takesNotify toml document managed)
  rw [OwnershipSnapshot.size_eq]
  simp only [OwnershipSnapshot.members, freshSnapshot, preparedSnapshot, Json.member, Option.toList_none, List.map_nil,
    List.append_nil, List.map_cons, List.sum_cons, List.sum_nil, byteLength_hexEncode, hversion]
  have hkeys : ("schema_version" : String).utf8ByteSize = 14 ∧ ("config_path" : String).utf8ByteSize = 11 ∧
      ("phase" : String).utf8ByteSize = 5 ∧ ("prior_existed" : String).utf8ByteSize = 13 ∧
      ("prior_bytes_hex" : String).utf8ByteSize = 15 ∧ ("prior_hash" : String).utf8ByteSize = 10 ∧
      ("prior_mode" : String).utf8ByteSize = 10 ∧ ("connected_bytes_hex" : String).utf8ByteSize = 19 ∧
      ("connected_hash" : String).utf8ByteSize = 14 ∧ ("connected_mode" : String).utf8ByteSize = 14 ∧
      ("owns_notify" : String).utf8ByteSize = 11 ∧ ("managed_fingerprint" : String).utf8ByteSize = 19 := by
    refine ⟨?_, ?_, ?_, ?_, ?_, ?_, ?_, ?_, ?_, ?_, ?_, ?_⟩ <;> rfl
  simp only [hkeys]
  unfold maxSnapshotBytes
  omega

end Owned

end AgentObservability.CodexConfig
