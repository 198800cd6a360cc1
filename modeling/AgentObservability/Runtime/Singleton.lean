import AgentObservability.Foundation.Attempt
import AgentObservability.Foundation.Threads
import Mathlib.Algebra.GroupWithZero.Nat
import Mathlib.Logic.Function.Basic

/-!
# Singletons

One directory has a lock file and the metadata of the party that owns it. A party
acquires the singleton in one of three ways (`SingletonAcquireMode`): it takes the
lock, writes its metadata to a temporary file that is named by its process id, and
renames it. When the owner is dropped it removes the metadata, after checks that
depend on the way, and releases the lock.

Every effect on a file is a step of its own. A step may fail, or its process may
die; the lock of a process that died is released. The directories themselves are
private and stay where they are, and so does the identity of the storage barrier.
-/

namespace AgentObservability.Runtime

open Foundation

/-! ### Metadata -/

/-- `SingletonError`, and the error of a storage barrier that is busy. -/
inductive SingletonError where
  /-- `Io`. -/
  | io
  /-- `AlreadyRunning`. -/
  | alreadyRunning
  /-- `CorruptMetadata`. -/
  | corruptMetadata
  /-- `InsecurePermissions`. -/
  | insecurePermissions
  /-- `WrongMutationRoot`. -/
  | wrongMutationRoot
  /-- `Coherence`. -/
  | coherence
  deriving DecidableEq

/-- A line of a file, without its end. -/
abbrev Line := List Char

/-- `[u8; 32]`. -/
abbrev Nonce := {bytes : List UInt8 // bytes.length = 32}

/-- `encode_nonce`. -/
def encodeNonce (nonce : Nonce) : Line :=
  nonce.1.flatMap fun byte => [Nat.digitChar (byte.toNat / 16), Nat.digitChar (byte.toNat % 16)]

/-- `is_ascii_hexdigit`. -/
def isHexDigit (c : Char) : Bool := c.isDigit || ('a' ≤ c && c ≤ 'f') || ('A' ≤ c && c ≤ 'F')

/-- The value of a hexadecimal digit. -/
def hexValue (c : Char) : ℕ :=
  if c.isDigit then c.toNat - 48 else if 'a' ≤ c then c.toNat - 87 else c.toNat - 55

/-- The bytes of pairs of digits. -/
def hexBytes : Line → List UInt8
  | high :: low :: rest => UInt8.ofNat (16 * hexValue high + hexValue low) :: hexBytes rest
  | _ => []

/-- `decode_nonce`. -/
def decodeNonce (value : Line) : Except SingletonError Nonce :=
  if h : value.length = 64 ∧ value.all isHexDigit = true ∧ (hexBytes value).length = 32 then .ok ⟨hexBytes value, h.2.2⟩
  else .error .corruptMetadata

/-- `parse::<u32>().is_ok()`. -/
def parsesU32 (value : Line) : Bool :=
  let digits := if value.head? = some '+' then value.tail else value
  !digits.isEmpty && digits.all Char.isDigit && decide (Nat.ofDigitChars 10 digits 0 < 2 ^ 32)

/-- What follows a prefix. -/
def stripPrefix (start value : Line) : Option Line :=
  if start.isPrefixOf value then some (value.drop start.length) else none

theorem stripPrefix_append (start value : Line) : stripPrefix start (start ++ value) = some value := by
  simp [stripPrefix]

theorem append_of_stripPrefix {start value rest : Line} (h : stripPrefix start value = some rest) :
    value = start ++ rest := by
  unfold stripPrefix at h
  by_cases hprefix : start.isPrefixOf value = true
  · rw [if_pos hprefix] at h
    cases h
    obtain ⟨rest, hrest⟩ := List.isPrefixOf_iff_prefix.mp hprefix
    rw [← hrest, List.drop_left]
  · rw [if_neg hprefix] at h
    cases h

/-- `parse_nonce`, of the lines of a body. -/
def parseNonce : List Line → Except SingletonError Nonce
  | [version, pid, nonce] => do
    require (version = "runtime_metadata.v1".toList) SingletonError.corruptMetadata
    require ((stripPrefix "pid=".toList pid).any parsesU32 = true) SingletonError.corruptMetadata
    let value ← ofOption SingletonError.corruptMetadata (stripPrefix "boot_nonce=".toList nonce)
    decodeNonce value
  | _ => .error .corruptMetadata

/-- The lines of the metadata of a process. -/
def metadataLines (pid : UInt32) (nonce : Nonce) : List Line :=
  ["runtime_metadata.v1".toList, "pid=".toList ++ Nat.toDigits 10 pid.toNat, "boot_nonce=".toList ++ encodeNonce nonce]

/-- `RUNTIME_METADATA_MAX_BYTES`. -/
def runtimeMetadataMaxBytes : ℕ := 256

/-! ### The directory -/

/-- A regular file with one name. -/
structure Node where
  /-- Its inode. -/
  ino : ℕ
  /-- Its permissions. -/
  mode : ℕ
  /-- Its lines. -/
  text : List Line

/-- The bytes of a file, with the end of every line. -/
def Node.len (node : Node) : ℕ := (node.text.map fun line => (line.map Char.utf8Size).sum + 1).sum

/-- The directory of a singleton, and the locks. -/
structure ScopeDirectory where
  /-- The inode of the next file. -/
  nextIno : ℕ
  /-- `runtime.lock`. -/
  lock : Option Node
  /-- Somebody has the lock. -/
  locked : Bool
  /-- `runtime.meta`. -/
  metadata : Option Node
  /-- `.runtime.meta.tmp.<pid>`. -/
  temporary : UInt32 → Option Node
  /-- Another party has an exclusive lock of the storage barrier. -/
  frozen : Bool

namespace ScopeDirectory

/-- The directory before its first singleton. -/
def new : ScopeDirectory where
  nextIno := 0
  lock := none
  locked := false
  metadata := none
  temporary _ := none
  frozen := false

/-- The lock is released. -/
def release (d : ScopeDirectory) : ScopeDirectory := { d with locked := false }

/-- The temporary file of a process is there, or is not. -/
def setTemporary (d : ScopeDirectory) (pid : UInt32) (node : Option Node) : ScopeDirectory :=
  { d with temporary := Function.update d.temporary pid node }

end ScopeDirectory

/-! ### Parties -/

/-- `SingletonAcquireMode`. -/
inductive SingletonAcquireMode where
  /-- `Legacy`: `Singleton::acquire`. -/
  | legacy
  /-- `Retained`: `ProductionSingleton::acquire` without a storage barrier. -/
  | retained
  /-- `Coordinated`: `ProductionSingleton::acquire` with the storage barrier. -/
  | coordinated
  deriving DecidableEq

/-- What a party does next. -/
inductive Phase where
  /-- `barrier.try_begin_write`. -/
  | permitting
  /-- It opens the lock file, and creates it if it is not there. -/
  | opening
  /-- `try_lock_exclusive`. -/
  | locking
  /-- `validate_scope` and `open_existing_coordinated_metadata`. -/
  | scoping
  /-- It removes the temporary file. -/
  | clearing
  /-- It creates the temporary file. -/
  | creating
  /-- It writes the lines that are left, and syncs the file after them. -/
  | writing (left : List Line)
  /-- `validate_scope` and `revalidate_existing_coordinated_metadata`. -/
  | checking
  /-- `cleanup_coordinated_temporary`. -/
  | cleaning
  /-- It renames the temporary file. -/
  | publishing
  /-- It syncs the directory. -/
  | syncing
  /-- The checks after `acquire_inner`. -/
  | verifying
  /-- It is the owner. Its next step is the beginning of its drop. -/
  | owning
  /-- `barrier.try_begin_write` of the drop. -/
  | withdrawing
  /-- `revalidate` of the drop. -/
  | rechecking
  /-- It removes the metadata. -/
  | removing
  /-- It unlocks the lock file. -/
  | unlocking
  deriving DecidableEq

/-- A party that acquires the singleton or owns it. -/
structure Party where
  /-- `std::process::id`. -/
  pid : UInt32
  /-- The way it acquires. -/
  mode : SingletonAcquireMode
  /-- What `getrandom::fill` gives it. -/
  nonce : Nonce
  /-- The inode of its open lock file. -/
  lockFile : Option ℕ
  /-- The inode of the metadata that it found. -/
  existing : Option ℕ
  /-- The inode of its open metadata. -/
  metadata : Option ℕ
  /-- What it does next. -/
  phase : Phase

/-- A party that begins to acquire. -/
def Party.begin (pid : UInt32) (mode : SingletonAcquireMode) (nonce : Nonce) : Party where
  pid := pid
  mode := mode
  nonce := nonce
  lockFile := none
  existing := none
  metadata := none
  phase := if mode = .coordinated then .permitting else .opening

/-- The party goes on to a phase. -/
def Party.to (p : Party) (phase : Phase) : Party := { p with phase }

/-- The party has the lock. -/
def Phase.holds : Phase → Bool
  | .permitting | .opening | .locking => false
  | _ => true

/-! ### Checks -/

/-- `validate_private_metadata`, of a regular file with one name. -/
def validatePrivateMetadata (node : Node) : Except SingletonError Unit :=
  require (node.mode = 0o600) SingletonError.insecurePermissions

/-- `validate_private_empty_lock` and `same_file` of the lock file. -/
def Party.validateLock (p : Party) (d : ScopeDirectory) : Except SingletonError Unit := do
  let node ← ofOption SingletonError.io d.lock
  validatePrivateMetadata node
  require (node.text = []) SingletonError.wrongMutationRoot
  require (p.lockFile = some node.ino) SingletonError.wrongMutationRoot

/-- `read_bounded_nonce_from_file`. -/
def readBoundedNonce (node : Node) : Except SingletonError Nonce := do
  require (node.len ≤ runtimeMetadataMaxBytes) SingletonError.corruptMetadata
  parseNonce node.text

/-- `revalidate_existing_coordinated_metadata`. -/
def revalidateExisting (existing : Option ℕ) (metadata : Option Node) : Except SingletonError Unit :=
  match existing, metadata with
  | none, none => .ok ()
  | none, some _ => .error .wrongMutationRoot
  | some _, none => .error .io
  | some ino, some node => do
    validatePrivateMetadata node
    require (node.ino = ino) SingletonError.wrongMutationRoot
    let _ ← readBoundedNonce node
    pure ()

/-- The part of `revalidate` that is about the metadata: `read` is the reader of the nonce. -/
def Party.validateMetadata (p : Party) (d : ScopeDirectory) (read : Node → Except SingletonError Nonce) :
    Except SingletonError Unit := do
  let node ← ofOption SingletonError.io d.metadata
  validatePrivateMetadata node
  require (p.metadata = some node.ino) SingletonError.wrongMutationRoot
  let nonce ← read node
  require (nonce = p.nonce) SingletonError.corruptMetadata

/-- `revalidate`. -/
def Party.revalidate (p : Party) (d : ScopeDirectory) : Except SingletonError Unit :=
  match p.mode with
  | .legacy => .ok ()
  | .retained => do
    p.validateLock d
    p.validateMetadata d readBoundedNonce
  | .coordinated => do
    p.validateLock d
    p.validateMetadata d fun node => parseNonce node.text

/-- The checks after `acquire_inner`. -/
def Party.verify (p : Party) (d : ScopeDirectory) : Except SingletonError Unit :=
  match p.mode with
  | .legacy => .ok ()
  | .retained => p.revalidate d
  | .coordinated => p.validateMetadata d fun node => parseNonce node.text

/-! ### Steps -/

/-- What comes of a step of a party. -/
inductive Advance where
  /-- It goes on. -/
  | goes (p : Party)
  /-- It has ended, with an error or without one. -/
  | ends (error : Option SingletonError)

/-- The step of a party when nothing fails. -/
def Party.advance (p : Party) (d : ScopeDirectory) : ScopeDirectory × Advance :=
  match p.phase with
  | .permitting => if d.frozen then (d, .ends (some .coherence)) else (d, .goes (p.to .opening))
  | .opening =>
    match d.lock with
    | some node =>
      -- `private_open_file`
      if node.mode % 64 = 0 then (d, .goes { p with lockFile := some node.ino, phase := .locking })
      else (d, .ends (some .insecurePermissions))
    | none =>
      ({ d with nextIno := d.nextIno + 1, lock := some ⟨d.nextIno, 0o600, []⟩ },
        .goes { p with lockFile := some d.nextIno, phase := .locking })
  | .locking =>
    if d.locked then (d, .ends (some .alreadyRunning))
    else ({ d with locked := true }, .goes (p.to (if p.mode = .legacy then .clearing else .scoping)))
  | .scoping =>
    match (do p.validateLock d; revalidateExisting (d.metadata.map Node.ino) d.metadata) with
    | .error e => (d.release, .ends (some e))
    | .ok () => (d, .goes { p with existing := d.metadata.map Node.ino, phase := .creating })
  | .clearing => (d.setTemporary p.pid none, .goes (p.to .creating))
  | .creating =>
    match d.temporary p.pid with
    | some _ => (d.release, .ends (some .io))
    | none =>
      ({ d.setTemporary p.pid (some ⟨d.nextIno, 0o600, []⟩) with nextIno := d.nextIno + 1 },
        .goes { p with metadata := some d.nextIno, phase := .writing (metadataLines p.pid p.nonce) })
  | .writing (line :: left) =>
    (d.setTemporary p.pid ((d.temporary p.pid).map fun node => { node with text := node.text ++ [line] }),
      .goes (p.to (.writing left)))
  | .writing [] => (d, .goes (p.to (if p.mode = .legacy then .publishing else .checking)))
  | .checking =>
    match (do p.validateLock d; revalidateExisting p.existing d.metadata) with
    | .error _ => (d, .goes (p.to .cleaning))
    | .ok () => (d, .goes (p.to .publishing))
  | .cleaning => ((d.setTemporary p.pid none).release, .ends (some .wrongMutationRoot))
  | .publishing =>
    match d.temporary p.pid with
    | none => (d.release, .ends (some .io))
    | some node => ({ d.setTemporary p.pid none with metadata := some node }, .goes (p.to .syncing))
  | .syncing => (d, .goes (p.to (if p.mode = .legacy then .owning else .verifying)))
  | .verifying =>
    match p.verify d with
    | .ok () => (d, .goes (p.to .owning))
    | .error e => if p.mode = .retained then (d, .goes (p.to .rechecking)) else (d.release, .ends (some e))
  | .owning =>
    (d, .goes (p.to (match p.mode with
      | .legacy => .removing
      | .retained => .rechecking
      | .coordinated => .withdrawing)))
  | .withdrawing => (d, .goes (p.to (if d.frozen then .unlocking else .rechecking)))
  | .rechecking => (d, .goes (p.to (if p.revalidate d = .ok () then .removing else .unlocking)))
  | .removing => ({ d with metadata := none }, .goes (p.to .unlocking))
  | .unlocking => (d.release, .ends none)

/-- What a party comes to when an effect of its step fails. A write that fails may have written a piece of its line. -/
inductive Party.Fails (p : Party) (d : ScopeDirectory) : ScopeDirectory → Multiset Party → Prop
  /-- It has no lock yet. -/
  | unlocked (h : p.phase.holds = false) : Fails p d d 0
  /-- A write. -/
  | writing (line : Line) (left : List Line) (piece : Line) (h : p.phase = .writing (line :: left)) :
    Fails p d (d.setTemporary p.pid ((d.temporary p.pid).map fun node => { node with text := node.text ++ [piece] })).release 0
  /-- Another effect of an acquisition, whose error is returned. -/
  | returned (h : p.phase = .scoping ∨ p.phase = .creating ∨ p.phase = .writing [] ∨ p.phase = .cleaning ∨
      p.phase = .publishing ∨ p.phase = .syncing ∨ p.phase = .verifying ∧ p.mode ≠ .retained) : Fails p d d.release 0
  /-- The temporary file could not be removed, which is ignored. -/
  | clearing (h : p.phase = .clearing) : Fails p d d {p.to .creating}
  /-- A check before the metadata is renamed. -/
  | checking (h : p.phase = .checking) : Fails p d d {p.to .cleaning}
  /-- The check of a new owner, which is dropped. -/
  | verifying (h : p.phase = .verifying) (hmode : p.mode = .retained) : Fails p d d {p.to .rechecking}
  /-- An effect of a drop. The metadata stays. -/
  | dropping (h : p.phase = .withdrawing ∨ p.phase = .rechecking ∨ p.phase = .removing) : Fails p d d {p.to .unlocking}

/-- The process of a party dies. -/
def Party.crash (p : Party) (d : ScopeDirectory) : ScopeDirectory := if p.phase.holds then d.release else d

/-- Who goes on after a step. -/
def Advance.parties : Advance → Multiset Party
  | .goes p => {p}
  | .ends _ => 0

/-- A step of a party. -/
def Party.step (p : Party) (d d' : ScopeDirectory) (new : Multiset Party) : Prop :=
  d' = (p.advance d).1 ∧ new = (p.advance d).2.parties ∨ p.Fails d d' new ∨ d' = p.crash d ∧ new = 0

/-- What happens beside the parties: one begins, or the storage barrier is locked or unlocked by somebody else, at any
time. -/
inductive Happens (d : ScopeDirectory) : ScopeDirectory → Multiset Party → Prop
  /-- A party begins, in a process with any id. -/
  | begins (pid : UInt32) (mode : SingletonAcquireMode) (nonce : Nonce) : Happens d d {Party.begin pid mode nonce}
  /-- The storage barrier. -/
  | freezes (frozen : Bool) : Happens d { d with frozen } 0

/-- Any number of parties on one directory. -/
def singletons : Threads.Machine ScopeDirectory Party where
  step := Party.step
  event := Happens

/-- The steps of one party while no other one takes a step, up to so many. It stops when it is the owner. -/
def Party.alone : ℕ → Party → ScopeDirectory → ScopeDirectory × Advance
  | 0, p, d => (d, .goes p)
  | steps + 1, p, d =>
    if p.phase = .owning then (d, .goes p)
    else match p.advance d with
      | (d', .goes p') => Party.alone steps p' d'
      | ended => ended

/-- `Singleton::acquire` or `ProductionSingleton::acquire`, when no other party takes a step and nothing fails. -/
def acquire (pid : UInt32) (mode : SingletonAcquireMode) (nonce : Nonce) (d : ScopeDirectory) : ScopeDirectory × Advance :=
  (Party.begin pid mode nonce).alone 16 d

/-- The party is the owner. -/
def Advance.acquired : Advance → Bool
  | .goes p => p.phase = .owning
  | .ends _ => false

end AgentObservability.Runtime
