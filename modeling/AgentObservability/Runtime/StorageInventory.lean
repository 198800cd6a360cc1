import AgentObservability.Foundation.Attempt
import AgentObservability.Foundation.Worklist
import Mathlib.Algebra.GroupWithZero.Nat
import Mathlib.Order.Defs.LinearOrder
import Mathlib.Data.List.Sort

/-!
# The storage inventory

`classifyStorage` walks the directory tree of a runtime, asks a classifier about every
entry, and adds the allocated bytes of the entry to one of three buckets.
`allocatedTreeBytesStrict` walks the same tree with another worklist, another count of
the entries and another rounding, and only adds the bytes up.

The tree does not change while it is walked (`DirectoryTree`), so what the walks read
twice is the same both times. A classifier may remember its earlier calls: it is a
function of their paths.
-/

namespace AgentObservability.Runtime

open Foundation

/-- The kinds of files. -/
inductive FileKind where
  /-- A directory. -/
  | directory
  /-- A regular file. -/
  | regular
  /-- A symbolic link. -/
  | symlink
  /-- A socket, a pipe or a device. -/
  | other
  deriving DecidableEq

/-- `IdentityMetadata`. -/
structure IdentityMetadata where
  /-- `device`. -/
  device : ℕ
  /-- `inode`. -/
  inode : ℕ
  /-- `mode`. -/
  mode : ℕ
  /-- `links`. -/
  links : ℕ
  /-- `size`. -/
  size : ℕ
  /-- `blocks`, of 512 bytes. -/
  blocks : ℕ
  /-- `modified_seconds` and `modified_nanoseconds`. -/
  modified : ℤ × ℤ
  /-- `changed_seconds` and `changed_nanoseconds`. -/
  changed : ℤ × ℤ
  deriving DecidableEq

/-- `fs::Metadata`: the kind of a file, and what `IdentityMetadata::capture` takes of it. -/
structure FileMetadata where
  /-- `file_type`. -/
  kind : FileKind
  /-- `IdentityMetadata::capture`. -/
  capture : IdentityMetadata

/-- A path, relative to the root. -/
abbrev RelativePath (Name : Type) := List Name

/-- A tree of directories that does not change. -/
structure DirectoryTree (Name : Type) where
  /-- The paths of the entries, the root included. -/
  paths : List (RelativePath Name)
  /-- Each is named once. -/
  nodup : paths.Nodup
  /-- The root. -/
  root_mem : [] ∈ paths
  /-- `symlink_metadata`, of an entry. -/
  metadata : RelativePath Name → FileMetadata
  /-- `read_dir`, of a directory, in the order of the file system. -/
  listing : RelativePath Name → List Name
  /-- No name is listed twice. -/
  listing_nodup : ∀ path, (listing path).Nodup
  /-- A directory lists its entries. -/
  mem_listing : ∀ path name, name ∈ listing path ↔ path ++ [name] ∈ paths
  /-- Only entries have entries. -/
  parent_mem : ∀ path name, path ++ [name] ∈ paths → path ∈ paths
  /-- Only directories have entries. -/
  directory : ∀ path name, path ++ [name] ∈ paths → (metadata path).kind = .directory

/-- `MAX_ACCOUNTING_ENTRIES`. -/
def maxAccountingEntries : ℕ := 4096

/-- `checked_add` of unsigned numbers of 64 bits. -/
def checkedAdd (a b : ℕ) : Option ℕ := if a + b < 2 ^ 64 then some (a + b) else none

/-- `checked_mul`. -/
def checkedMul (a b : ℕ) : Option ℕ := if a * b < 2 ^ 64 then some (a * b) else none

/-! ### The classification -/

/-- `StorageAllocationClass`. -/
inductive StorageAllocationClass where
  /-- `Retained`. -/
  | retained
  /-- `Workspace`. -/
  | workspace
  /-- `Unknown`. -/
  | unknown
  deriving DecidableEq

/-- `StorageAllocationObservationV1`. -/
structure StorageAllocationObservationV1 where
  /-- `retained_bytes`. -/
  retainedBytes : ℕ
  /-- `workspace_bytes`. -/
  workspaceBytes : ℕ
  /-- `unknown_bytes`. -/
  unknownBytes : ℕ
  /-- `unknown_entry_count`. -/
  unknownEntryCount : ℕ
  deriving DecidableEq

/-- `StorageInventoryError`. -/
inductive StorageInventoryError where
  /-- `Io`. -/
  | io
  /-- `WrongMutationRoot`. -/
  | wrongMutationRoot
  /-- `OwnershipMismatch`. -/
  | ownershipMismatch
  /-- `InsecurePermissions`. -/
  | insecurePermissions
  /-- `Symlink`. -/
  | symlink
  /-- `Hardlink`. -/
  | hardlink
  /-- `MountOrDeviceMismatch`. -/
  | mountOrDeviceMismatch
  /-- `UnsupportedFileType`. -/
  | unsupportedFileType
  /-- `Replaced`. -/
  | replaced
  /-- `Disappeared`. -/
  | disappeared
  /-- `EntryLimit`. -/
  | entryLimit
  /-- `Overflow`. -/
  | overflow
  /-- `UnsupportedPlatform`. -/
  | unsupportedPlatform
  deriving DecidableEq

/-- A classifier, by the paths of its earlier calls and the path it is asked about. What it reads of the descriptor is its
own affair. -/
abbrev Classifier (Name : Type) :=
  List (RelativePath Name) → RelativePath Name → Except StorageInventoryError StorageAllocationClass

/-- `ObservedEntry`. -/
structure ObservedEntry (Name : Type) where
  /-- `relative`. -/
  relative : RelativePath Name
  /-- `metadata`. -/
  metadata : IdentityMetadata
  /-- `directory_entries`. -/
  directoryEntries : Option (List Name)

/-- `ScannedEntry`. -/
structure ScannedEntry (Name : Type) where
  /-- `observed`. -/
  observed : ObservedEntry Name
  /-- `class`. -/
  allocationClass : StorageAllocationClass
  /-- `bytes`. -/
  bytes : ℕ
  /-- `children`, the last in order first. -/
  children : List (RelativePath Name)

/-- `allocated_bytes`. -/
def allocatedBytes (metadata : IdentityMetadata) : Except StorageInventoryError ℕ := do
  let bytes ← ofOption StorageInventoryError.overflow (checkedMul metadata.blocks 512)
  let rounded ← ofOption StorageInventoryError.overflow (checkedAdd bytes (4096 - 1))
  pure (rounded / 4096 * 4096)

/-- `add_classified_bytes`. -/
def addClassifiedBytes (snapshot : StorageAllocationObservationV1) (allocationClass : StorageAllocationClass)
    (bytes : ℕ) : Except StorageInventoryError StorageAllocationObservationV1 :=
  match allocationClass with
  | .retained => do
    let retained ← ofOption StorageInventoryError.overflow (checkedAdd snapshot.retainedBytes bytes)
    pure { snapshot with retainedBytes := retained }
  | .workspace => do
    let workspace ← ofOption StorageInventoryError.overflow (checkedAdd snapshot.workspaceBytes bytes)
    pure { snapshot with workspaceBytes := workspace }
  | .unknown => do
    let count ← ofOption StorageInventoryError.overflow (checkedAdd snapshot.unknownEntryCount 1)
    let unknown ← ofOption StorageInventoryError.overflow (checkedAdd snapshot.unknownBytes bytes)
    pure { snapshot with unknownEntryCount := count, unknownBytes := unknown }

/-- The loop of `read_directory_entries`. -/
def collectEntries {Name : Type} (maximumEntries : ℕ) (limitError : StorageInventoryError) :
    List Name → List Name → Except StorageInventoryError (List Name)
  | entries, [] => .ok entries
  | entries, entry :: rest =>
    if maximumEntries ≤ entries.length then .error limitError
    else collectEntries maximumEntries limitError (entries ++ [entry]) rest

section Walk

variable {Name : Type} [LinearOrder Name] (t : DirectoryTree Name)

/-- `fs::symlink_metadata`, and the metadata of an opened file that is no link. -/
def symlinkMetadata (path : RelativePath Name) : Except StorageInventoryError FileMetadata :=
  if path ∈ t.paths then .ok (t.metadata path) else .error .disappeared

/-- `named_metadata`. -/
def namedMetadata (path : RelativePath Name) : Except StorageInventoryError FileMetadata := do
  let metadata ← symlinkMetadata t path
  require (metadata.kind ≠ .symlink) StorageInventoryError.symlink
  pure metadata

/-- `read_directory_entries`. -/
def readDirectoryEntries (path : RelativePath Name) (maximumEntries : ℕ) (limitError : StorageInventoryError) :
    Except StorageInventoryError (List Name) := do
  require (path ∈ t.paths) StorageInventoryError.disappeared
  require ((t.metadata path).kind = .directory) StorageInventoryError.io
  let entries ← collectEntries maximumEntries limitError [] (t.listing path)
  pure (entries.mergeSort (· ≤ ·))

/-- `validate_kind_permissions_and_device`. -/
def validateKindPermissionsAndDevice (metadata : FileMetadata) (rootDevice : ℕ) : Except StorageInventoryError Bool := do
  require (metadata.kind ≠ .symlink) StorageInventoryError.symlink
  require (metadata.capture.device = rootDevice) StorageInventoryError.mountOrDeviceMismatch
  match metadata.kind with
  | .directory =>
    require (metadata.capture.mode &&& 0o7777 = 0o700) StorageInventoryError.insecurePermissions
    pure true
  | .regular =>
    require (metadata.capture.mode &&& 0o7777 = 0o600) StorageInventoryError.insecurePermissions
    require (metadata.capture.links = 1) StorageInventoryError.hardlink
    pure false
  | _ => .error .unsupportedFileType

/-- `revalidate_named`. -/
def revalidateNamed (path : RelativePath Name) (expected : IdentityMetadata) : Except StorageInventoryError Unit := do
  let metadata ← namedMetadata t path
  require (metadata.capture = expected) StorageInventoryError.replaced

/-- The listing of a directory that is read again. -/
def revalidateEntries (path : RelativePath Name) : Option (List Name) → Except StorageInventoryError Unit
  | none => pure ()
  | some expectedEntries => do
    let entries ← readDirectoryEntries t path expectedEntries.length .replaced
    require (entries = expectedEntries) StorageInventoryError.replaced

/-- `scan_entry`, up to the call of the classifier. -/
def openEntry (relative : RelativePath Name) (rootDevice maximumChildren : ℕ) (identities : List (ℕ × ℕ)) :
    Except StorageInventoryError (IdentityMetadata × Option (List Name)) := do
  let beforeOpen ← namedMetadata t relative
  let isDirectory ← validateKindPermissionsAndDevice beforeOpen rootDevice
  let held ← symlinkMetadata t relative
  let _ ← validateKindPermissionsAndDevice held rootDevice
  let metadata := held.capture
  require (metadata = beforeOpen.capture) StorageInventoryError.replaced
  require ((metadata.device, metadata.inode) ∉ identities) StorageInventoryError.hardlink
  let directoryEntries ← if isDirectory then
      (readDirectoryEntries t relative maximumChildren .entryLimit).map some
    else pure none
  revalidateNamed t relative metadata
  pure (metadata, directoryEntries)

/-- `scan_entry`, from the answer of the classifier on. -/
def closeEntry (relative : RelativePath Name) (metadata : IdentityMetadata) (directoryEntries : Option (List Name))
    (answer : Except StorageInventoryError StorageAllocationClass) : Except StorageInventoryError (ScannedEntry Name) := do
  let allocationClass ← answer
  revalidateNamed t relative metadata
  let held ← symlinkMetadata t relative
  require (held.capture = metadata) StorageInventoryError.replaced
  revalidateEntries t relative directoryEntries
  let children := ((directoryEntries.getD []).reverse).map fun name => relative ++ [name]
  let bytes ← allocatedBytes metadata
  pure ⟨⟨relative, metadata, directoryEntries⟩, allocationClass, bytes, children⟩

/-- The variables of the loop of `classify_storage_impl`, with the paths the classifier was asked about. -/
structure ClassifyState (Name : Type) where
  /-- `pending`, the next first. -/
  pending : List (RelativePath Name)
  /-- `discovered_entries`. -/
  discoveredEntries : ℕ
  /-- `observed`. -/
  observed : List (ObservedEntry Name)
  /-- `identities`. -/
  identities : List (ℕ × ℕ)
  /-- `snapshot`. -/
  snapshot : StorageAllocationObservationV1
  /-- The calls of the classifier. -/
  calls : List (RelativePath Name)

/-- What the loop does with an entry after `scan_entry`. -/
def ClassifyState.absorb (s : ClassifyState Name) (rest : List (RelativePath Name)) (relative : RelativePath Name)
    (entry : ScannedEntry Name) : Except StorageInventoryError (ClassifyState Name) := do
  let discovered ← ofOption StorageInventoryError.overflow (checkedAdd s.discoveredEntries entry.children.length)
  let snapshot ← addClassifiedBytes s.snapshot entry.allocationClass entry.bytes
  pure {
    pending := entry.children.reverse ++ rest, discoveredEntries := discovered, observed := s.observed ++ [entry.observed]
    identities := (entry.observed.metadata.device, entry.observed.metadata.inode) :: s.identities
    snapshot := snapshot, calls := s.calls ++ [relative] }

/-- The loop of `classify_storage_impl`: the calls of the classifier, and how it ends. -/
def classifyLoop (rootDevice : ℕ) (classifier : Classifier Name) (s : ClassifyState Name) :
    List (RelativePath Name) × Except StorageInventoryError (ClassifyState Name) :=
  match s.pending with
  | [] => (s.calls, .ok s)
  | relative :: rest =>
    if maxAccountingEntries ≤ s.observed.length then (s.calls, .error .entryLimit)
    else match openEntry t relative rootDevice (maxAccountingEntries - s.discoveredEntries) s.identities with
      | .error e => (s.calls, .error e)
      | .ok (metadata, directoryEntries) =>
        match _h : (closeEntry t relative metadata directoryEntries (classifier s.calls relative)) >>= s.absorb rest relative with
        | .error e => (s.calls ++ [relative], .error e)
        | .ok s' => classifyLoop rootDevice classifier s'
termination_by maxAccountingEntries - s.observed.length
decreasing_by
  obtain ⟨entry, -, habsorb⟩ := bind_eq_ok.mp _h
  simp only [ClassifyState.absorb, bind_eq_ok] at habsorb
  obtain ⟨_, _, _, _, hs'⟩ := habsorb
  cases hs'
  simp only [List.length_append, List.length_singleton]
  omega

/-- `revalidate_entry`. -/
def revalidateEntry (entry : ObservedEntry Name) : Except StorageInventoryError Unit := do
  revalidateNamed t entry.relative entry.metadata
  revalidateEntries t entry.relative entry.directoryEntries

/-- `classify_storage`: the calls of the classifier, and the result. `requireRoot` is the check of the mutation guard, with
the error of `map_guard_error`. -/
def classifyStorage (requireRoot : Except StorageInventoryError Unit) (classifier : Classifier Name) :
    List (RelativePath Name) × Except StorageInventoryError StorageAllocationObservationV1 :=
  match (do
    requireRoot
    let rootNamed ← namedMetadata t []
    require (rootNamed.kind = FileKind.directory) StorageInventoryError.unsupportedFileType
    pure rootNamed.capture.device) with
  | .error e => ([], .error e)
  | .ok rootDevice =>
    let walk := classifyLoop t rootDevice classifier ⟨[[]], 1, [], [], ⟨0, 0, 0, 0⟩, []⟩
    (walk.1, do
      let s ← walk.2
      s.observed.forM (revalidateEntry t)
      requireRoot
      pure s.snapshot)

end Walk

/-! ### The strict total -/

/-- `StorageAccountingError`. -/
inductive StorageAccountingError where
  /-- `Io`. -/
  | io
  /-- `EntryLimit`. -/
  | entryLimit
  /-- `Symlink`. -/
  | symlink
  /-- `UnsupportedFileType`. -/
  | unsupportedFileType
  /-- `Overflow`. -/
  | overflow
  /-- A multiplication overflows, in a build that checks for it. -/
  | panics
  deriving DecidableEq

/-- `allocated_metadata_bytes`. The last multiplication overflows where the saturated size does not fit whole blocks: it
panics if the build checks for it, and wraps around if not. -/
def allocatedMetadataBytes (overflowChecks : Bool) (metadata : IdentityMetadata) : Except StorageAccountingError ℕ :=
  let bytes := (min (metadata.blocks * 512) (2 ^ 64 - 1) + 4095) / 4096 * 4096
  if bytes < 2 ^ 64 then .ok bytes else if overflowChecks then .error .panics else .ok (bytes % 2 ^ 64)

section Walk

variable {Name : Type}

/-- The inner loop of `allocated_tree_bytes_observing`, with `pending` as a stack. -/
def pushEntries (current : RelativePath Name) : ℕ → List (RelativePath Name) → List Name →
    Except StorageAccountingError (ℕ × List (RelativePath Name))
  | entries, pending, [] => .ok (entries, pending)
  | entries, pending, entry :: rest =>
    let entries := min (entries + 1) (2 ^ 64 - 1)
    if maxAccountingEntries < entries then .error .entryLimit
    else pushEntries current entries ((current ++ [entry]) :: pending) rest

/-- The entries of a directory are pushed if there are none, or none too many. -/
theorem pushEntries_eq (current : RelativePath Name) (entries : ℕ) (pending : List (RelativePath Name)) (listing : List Name) :
    pushEntries current entries pending listing =
      if listing = [] ∨ entries + listing.length ≤ maxAccountingEntries then
        .ok (entries + listing.length, (listing.reverse.map fun name => current ++ [name]) ++ pending)
      else .error .entryLimit := by
  induction listing generalizing entries pending with
  | nil => rfl
  | cons entry rest ih =>
    have hmax : maxAccountingEntries < 2 ^ 64 - 1 := by decide
    rw [pushEntries, ih, List.length_cons]
    by_cases hlimit : entries + 1 ≤ maxAccountingEntries
    · have hsaturating : min (entries + 1) (2 ^ 64 - 1) = entries + 1 := by omega
      have hiff : (rest = [] ∨ entries + 1 + rest.length ≤ maxAccountingEntries) ↔
          (entry :: rest = [] ∨ entries + (rest.length + 1) ≤ maxAccountingEntries) := by
        rw [or_iff_right (List.cons_ne_nil entry rest)]
        constructor
        · rintro (rfl | hle)
          · simpa using hlimit
          · omega
        · exact fun hle => Or.inr (by omega)
      rw [hsaturating, if_neg (by omega), if_congr hiff ?_ rfl]
      simp only [List.reverse_cons, List.map_append, List.map_cons, List.map_nil, List.append_assoc, List.singleton_append,
        show entries + 1 + rest.length = entries + (rest.length + 1) by omega]
    · rw [if_pos (by omega), if_neg]
      rintro (hnil | hle)
      · cases hnil
      · omega

variable [DecidableEq Name] (t : DirectoryTree Name)

/-- What the loop of `allocated_tree_bytes_observing` does with an entry, where a missing descendant is an error: the
count of the entries, the pending paths and the bytes after it. -/
def accountEntry (overflowChecks : Bool) (current : RelativePath Name) (pending : List (RelativePath Name))
    (entries bytes : ℕ) : Except StorageAccountingError ((ℕ × List (RelativePath Name)) × ℕ) := do
  require (current ∈ t.paths) StorageAccountingError.io
  let metadata := t.metadata current
  require (metadata.kind ≠ .symlink) StorageAccountingError.symlink
  let allocated ← allocatedMetadataBytes overflowChecks metadata.capture
  let bytes ← ofOption StorageAccountingError.overflow (checkedAdd bytes allocated)
  if metadata.kind = .directory then
    let pushed ← pushEntries current entries pending (t.listing current)
    pure (pushed, bytes)
  else
    require (metadata.kind = .regular) StorageAccountingError.unsupportedFileType
    pure ((entries, pending), bytes)

/-- The steps that are left are fewer after an entry. -/
theorem accountEntry_lt {overflowChecks : Bool} {current : RelativePath Name} {pending pending' : List (RelativePath Name)}
    {entries entries' bytes bytes' : ℕ}
    (h : accountEntry t overflowChecks current pending entries bytes = .ok ((entries', pending'), bytes')) :
    pending'.length + (maxAccountingEntries - entries') < (current :: pending).length + (maxAccountingEntries - entries) := by
  simp only [accountEntry, bind_eq_ok, require_eq_ok] at h
  obtain ⟨-, -, -, -, allocated, -, total, -, h⟩ := h
  rw [List.length_cons]
  split_ifs at h with hdirectory
  · obtain ⟨⟨_, _⟩, hpushed, hpure⟩ := bind_eq_ok.mp h
    cases hpure
    rw [pushEntries_eq] at hpushed
    split_ifs at hpushed with hle
    cases hpushed
    simp only [List.length_append, List.length_map, List.length_reverse]
    rcases hle with hnil | hle
    · rw [hnil, List.length_nil]
      omega
    · omega
  · obtain ⟨-, -, hpure⟩ := bind_eq_ok.mp h
    cases hpure
    omega

/-- The loop of `allocated_tree_bytes_observing`. -/
def allocatedLoop (overflowChecks : Bool) (pending : List (RelativePath Name)) (entries bytes : ℕ) :
    Except StorageAccountingError ℕ :=
  match pending with
  | [] => .ok bytes
  | current :: pending =>
    match _h : accountEntry t overflowChecks current pending entries bytes with
    | .error e => .error e
    | .ok ((entries, pending), bytes) => allocatedLoop overflowChecks pending entries bytes
termination_by pending.length + (maxAccountingEntries - entries)
decreasing_by exact accountEntry_lt t _h

/-- `allocated_tree_bytes_strict`. -/
def allocatedTreeBytesStrict (overflowChecks : Bool) : Except StorageAccountingError ℕ :=
  allocatedLoop t overflowChecks [[]] 1 0

end Walk

end AgentObservability.Runtime
