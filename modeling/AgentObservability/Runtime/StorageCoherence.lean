import AgentObservability.Foundation.FileLock

/-!
# Coordination of the writers of a root

Whoever writes below a root takes part in two locks: the root's mutation lock, which
is exclusive, and the accounting lock, which writers share and a freeze excludes. The
file of the accounting lock may be missing; it is created once, and an owner that
did not find it when it was acquired goes on without it.

* `holds_own_locks` — whatever is dropped, everyone keeps the own locks;
* `not_inUse_of_freezing` — a freeze excludes every scope with a permit and every
  `StorageMutationWriter`, in every run;
* `freeze_excludes_writers` — and every scope, where no owner from before begins a
  write after the file was created, and the file is not created during one.
-/

namespace AgentObservability.Runtime

open Foundation Threads

/-- The files that coordinate. -/
structure Coordination where
  /-- The file `storage-accounting.lock` exists. -/
  initialized : Bool
  /-- The locks on `mutation.lock`. -/
  mutation : FileLocks
  /-- The locks on `storage-accounting.lock`. -/
  accounting : FileLocks
  /-- The file descriptions opened so far. -/
  opened : ℕ

/-- How a `StorageMutationWriter` is acquired. -/
structure WriterMode where
  /-- A barrier is given. -/
  barrier : Bool
  /-- `acquire_exclusive` and `acquire_exclusive_waiting_for_root`. -/
  exclusive : Bool
  /-- `acquire_waiting_for_root` and `acquire_exclusive_waiting_for_root`: a busy root is tried again. -/
  waitForRoot : Bool
  deriving DecidableEq

/-- The lock of a writer. -/
def WriterMode.lockMode (mode : WriterMode) : LockMode := if mode.exclusive then .exclusive else .shared

/-- Where someone is who takes part. A number is the description of a lock. -/
inductive Participant where
  /-- In `ProductionSingleton::acquire`, before the discovery. -/
  | acquiring
  /-- With what was discovered. -/
  | discovered (coordinated : Bool)
  /-- In `acquire_with_barrier`, with its permit. -/
  | entering (permit : ℕ)
  /-- A `ProductionSingleton`. -/
  | owner (coordinated : Bool)
  /-- In the drop of a coordinated owner, with its permit. -/
  | leaving (permit : ℕ)
  /-- In `try_begin_write`. -/
  | beginning (coordinated : Bool)
  /-- In `try_begin_write`, with the permit. -/
  | granted (permit : ℕ)
  /-- A scope that `try_begin_write` has granted. -/
  | writing (permit : Option ℕ)
  /-- In `StorageMutationWriter::acquire_with`. -/
  | requesting (mode : WriterMode)
  /-- After the first check. -/
  | checked (mode : WriterMode)
  /-- With the mutation lock. -/
  | rooted (mode : WriterMode) (root : ℕ)
  /-- With the permit, if there is one, before the last check. -/
  | permitted (mode : WriterMode) (root : ℕ) (permit : Option ℕ)
  /-- A `StorageMutationWriter`. -/
  | mutating (mode : WriterMode) (root : ℕ) (permit : Option ℕ)
  /-- In `MutationGuard::try_acquire`. -/
  | guardOpening
  /-- A `MutationGuard`. -/
  | guarding (root : ℕ)
  /-- A `MutationGuard` in `initialize`. -/
  | initializing (root : ℕ)
  /-- In `try_freeze_existing_root`. -/
  | freezeOpening
  /-- In `try_freeze_owned`, with the mutation lock. -/
  | consuming (root : ℕ)
  /-- In `try_freeze_owned` or `try_freeze`, with both locks. -/
  | cutting (owned : Bool) (root permit : ℕ)
  /-- A freeze guard, that owns its mutation guard or has borrowed it. -/
  | freezing (owned : Bool) (root permit : ℕ)
  /-- About to give up the mutation lock. -/
  | releasing (root : ℕ)
  deriving DecidableEq

namespace Participant

/-- The lock that someone has on the mutation file. -/
def mutationHeld : Participant → FileLocks
  | rooted _ root | permitted _ root _ | mutating _ root _ | guarding root | initializing root | consuming root
  | cutting _ root _ | freezing _ root _ | releasing root => {(root, .exclusive)}
  | _ => 0

/-- The lock that someone has on the accounting file. -/
def accountingHeld : Participant → FileLocks
  | entering permit | leaving permit | granted permit | writing (some permit) => {(permit, .shared)}
  | permitted mode _ (some permit) | mutating mode _ (some permit) => {(permit, mode.lockMode)}
  | cutting _ _ permit | freezing _ _ permit => {(permit, .exclusive)}
  | _ => 0

/-- A write scope that is in use. -/
def InUse : Participant → Prop
  | writing _ | mutating _ _ _ => True
  | _ => False

/-- A scope without a permit. -/
def permitless : Participant := writing none

/-- What is left of a freeze without its accounting lock. -/
def afterFreeze (owned : Bool) (root : ℕ) : Participant := if owned then releasing root else guarding root

/-- Steps that leave the locks alone. -/
inductive Proceeds (initialized : Bool) : Participant → Multiset Participant → Prop
  /-- `open_if_initialized`. -/
  | discover : Proceeds initialized acquiring {discovered initialized}
  /-- `LegacyProductionSingleton::acquire`. -/
  | retain : Proceeds initialized (discovered false) {owner false}
  /-- `try_begin_write` is called. -/
  | begin {coordinated : Bool} : Proceeds initialized (owner coordinated) {owner coordinated, beginning coordinated}
  /-- A legacy owner has validated its own files. -/
  | grantWithout : Proceeds initialized (beginning false) {permitless}
  /-- A coordinated owner has validated itself and the permit. -/
  | grant {permit : ℕ} : Proceeds initialized (granted permit) {writing (some permit)}
  /-- The first check of `acquire_with`. -/
  | check {mode : WriterMode} (h : mode.barrier = false → initialized = false) :
    Proceeds initialized (requesting mode) {checked mode}
  /-- Without a barrier there is no permit. -/
  | withoutPermit {mode : WriterMode} {root : ℕ} (h : mode.barrier = false) :
    Proceeds initialized (rooted mode root) {permitted mode root none}
  /-- The last check of `acquire_with`. -/
  | use {mode : WriterMode} {root : ℕ} {permit : Option ℕ} (h : permit = none → initialized = false) :
    Proceeds initialized (permitted mode root permit) {mutating mode root permit}
  /-- `initialize` is called. -/
  | callInitialize {root : ℕ} : Proceeds initialized (guarding root) {initializing root}
  /-- `initialize` fails before it creates the file. -/
  | abandon {root : ℕ} : Proceeds initialized (initializing root) {guarding root}
  /-- `try_freeze_owned` is called. -/
  | consume {root : ℕ} : Proceeds initialized (guarding root) {consuming root}
  /-- The freeze is validated. -/
  | freeze {owned : Bool} {root permit : ℕ} : Proceeds initialized (cutting owned root permit) {freezing owned root permit}
  /-- A mutation guard is dropped, and no permit is left. -/
  | unroot {t : Participant} {root : ℕ} (hroot : t.mutationHeld = {(root, .exclusive)}) (hpermit : t.accountingHeld = 0) :
    Proceeds initialized t {releasing root}
  /-- Someone without locks ends, or fails. -/
  | stop {t : Participant} (hroot : t.mutationHeld = 0) (hpermit : t.accountingHeld = 0) : Proceeds initialized t 0

/-- Steps that create the accounting file: by `initialize`, with a guard of its own or that of a writer. -/
inductive Creates : Participant → Participant → Prop
  /-- With a `MutationGuard`. -/
  | guard {root : ℕ} : Creates (initializing root) (guarding root)
  /-- With the guard of a `StorageMutationWriter`. -/
  | writer {mode : WriterMode} {root : ℕ} {permit : Option ℕ} : Creates (mutating mode root permit) (mutating mode root permit)

/-- Steps that take the accounting lock by a fresh description. -/
inductive Permits : Participant → LockMode → (ℕ → Participant) → Prop
  /-- `acquire_with_barrier`. -/
  | enter : Permits (discovered true) .shared entering
  /-- `try_begin_write` of a coordinated owner. -/
  | begin : Permits (beginning true) .shared granted
  /-- The drop of a coordinated owner. -/
  | leave : Permits (owner true) .shared leaving
  /-- `acquire_with`, with a barrier. -/
  | writer {mode : WriterMode} {root : ℕ} (h : mode.barrier = true) :
    Permits (rooted mode root) mode.lockMode fun permit => permitted mode root (some permit)
  /-- `try_freeze`. -/
  | cut {root : ℕ} : Permits (guarding root) .exclusive (cutting false root)
  /-- `try_freeze_owned`. -/
  | cutOwned {root : ℕ} : Permits (consuming root) .exclusive (cutting true root)

/-- Steps that take the mutation lock by a fresh description. -/
inductive Roots : Participant → (ℕ → Participant) → Prop
  /-- `acquire_with`. -/
  | writer {mode : WriterMode} : Roots (checked mode) (rooted mode)
  /-- `MutationGuard::try_acquire`. -/
  | guard : Roots guardOpening guarding
  /-- `try_freeze_existing_root`. -/
  | freeze : Roots freezeOpening consuming

/-- Steps that give up the accounting lock. -/
inductive Drops : Participant → ℕ → Multiset Participant → Prop
  /-- The permit of `acquire_with_barrier`. -/
  | entered {permit : ℕ} : Drops (entering permit) permit {owner true}
  /-- The same, where the acquisition fails. -/
  | refused {permit : ℕ} : Drops (entering permit) permit 0
  /-- A permit that is not validated. -/
  | withdrawn {permit : ℕ} : Drops (granted permit) permit 0
  /-- The permit of a scope. -/
  | written {permit : ℕ} : Drops (writing (some permit)) permit 0
  /-- The permit of the drop of an owner. -/
  | left {permit : ℕ} : Drops (leaving permit) permit 0
  /-- The permit of a writer that fails its last check. -/
  | unchecked {mode : WriterMode} {root permit : ℕ} : Drops (permitted mode root (some permit)) permit {releasing root}
  /-- The permit of a writer. -/
  | mutated {mode : WriterMode} {root permit : ℕ} : Drops (mutating mode root (some permit)) permit {releasing root}
  /-- A freeze that is not validated. -/
  | uncut {owned : Bool} {root permit : ℕ} : Drops (cutting owned root permit) permit {afterFreeze owned root}
  /-- A freeze. -/
  | thaw {owned : Bool} {root permit : ℕ} : Drops (freezing owned root permit) permit {afterFreeze owned root}

/-- A step of someone. -/
inductive Acts : Participant → Coordination → Coordination → Multiset Participant → Prop
  /-- The locks stay. -/
  | move {t : Participant} {s : Coordination} {new : Multiset Participant} (h : Proceeds s.initialized t new) : Acts t s s new
  /-- The accounting file is created, or found. -/
  | create {t u : Participant} {s : Coordination} (h : Creates t u) : Acts t s { s with initialized := true } {u}
  /-- `StorageBarrier::acquire`, of a file that exists. -/
  | permit {t : Participant} {s : Coordination} {mode : LockMode} {next : ℕ → Participant} {locks : FileLocks}
    (h : Permits t mode next) (hinitialized : s.initialized = true)
    (hlock : s.accounting.tryLock s.opened mode = some locks) :
    Acts t s { s with accounting := locks, opened := s.opened + 1 } {next s.opened}
  /-- The mutation lock is taken. -/
  | root {t : Participant} {s : Coordination} {next : ℕ → Participant} {locks : FileLocks} (h : Roots t next)
    (hlock : s.mutation.tryLock s.opened .exclusive = some locks) :
    Acts t s { s with mutation := locks, opened := s.opened + 1 } {next s.opened}
  /-- The drop of a `StorageWriteGuard`. -/
  | drop {t : Participant} {s : Coordination} {permit : ℕ} {new : Multiset Participant} (h : Drops t permit new) :
    Acts t s { s with accounting := s.accounting.unlock permit } new
  /-- The drop of a `MutationGuard`. -/
  | release {s : Coordination} {root : ℕ} : Acts (releasing root) s { s with mutation := s.mutation.unlock root } 0

/-- Who may turn up. Who brings a barrier has opened the file. -/
inductive Arrives (initialized : Bool) : Participant → Prop
  /-- `ProductionSingleton::acquire`. -/
  | acquire : Arrives initialized acquiring
  /-- `StorageMutationWriter::acquire` and its siblings. -/
  | request {mode : WriterMode} (h : mode.barrier = true → initialized = true) : Arrives initialized (requesting mode)
  /-- `MutationGuard::try_acquire`. -/
  | guard : Arrives initialized guardOpening
  /-- `try_freeze_existing_root`. -/
  | freeze (h : initialized = true) : Arrives initialized freezeOpening

end Participant

open Participant

/-- Everyone, on the files. -/
def coherence : Machine Coordination Participant where
  step := Acts
  event s s' new := s' = s ∧ ∃ t, Arrives s.initialized t ∧ new = {t}

/-- Nothing is locked and nobody is there. -/
def untouched : Config Coordination Participant := ⟨⟨false, 0, 0, 0⟩, 0⟩

/-- Everyone's locks are on the files. -/
def HoldsOwnLocks (c : Config Coordination Participant) : Prop :=
  ∀ t ∈ c.threads, t.mutationHeld ≤ c.shared.mutation ∧ t.accountingHeld ≤ c.shared.accounting

/-- While a freeze guard is held, no scope is in use. -/
def FreezeExcludes (c : Config Coordination Participant) : Prop :=
  ∀ owned root permit, freezing owned root permit ∈ c.threads → ∀ t ∈ c.threads, ¬ t.InUse

/-! ### What a step does to the locks -/

section Effects

variable {t u : Participant} {s s' : Coordination} {new : Multiset Participant} {initialized : Bool} {mode : LockMode}
  {next : ℕ → Participant} {d : ℕ}

theorem mutationHeld_afterFreeze (owned : Bool) (root : ℕ) :
    (afterFreeze owned root).mutationHeld = {(root, .exclusive)} := by
  cases owned <;> rfl

theorem accountingHeld_afterFreeze (owned : Bool) (root : ℕ) : (afterFreeze owned root).accountingHeld = 0 := by
  cases owned <;> rfl

theorem mutationHeld_proceeds (h : Proceeds initialized t new) : new.bind mutationHeld = t.mutationHeld := by
  cases h with
  | unroot hroot hpermit =>
    rw [Multiset.singleton_bind, hroot]
    rfl
  | stop hroot hpermit => rw [Multiset.zero_bind, hroot]
  | «begin» => rfl
  | _ => exact Multiset.singleton_bind _ _

theorem accountingHeld_proceeds (h : Proceeds initialized t new) : new.bind accountingHeld = t.accountingHeld := by
  cases h with
  | unroot hroot hpermit =>
    rw [Multiset.singleton_bind, hpermit]
    rfl
  | stop hroot hpermit => rw [Multiset.zero_bind, hpermit]
  | @use mode root permit h => cases permit <;> rfl
  | _ => rfl

theorem held_creates (h : Creates t u) : u.mutationHeld = t.mutationHeld ∧ u.accountingHeld = t.accountingHeld := by
  cases h <;> exact ⟨rfl, rfl⟩

theorem held_permits (h : Permits t mode next) :
    (next d).mutationHeld = t.mutationHeld ∧ (next d).accountingHeld = (d, mode) ::ₘ t.accountingHeld := by
  cases h <;> exact ⟨rfl, rfl⟩

theorem held_roots (h : Roots t next) :
    (next d).mutationHeld = (d, .exclusive) ::ₘ t.mutationHeld ∧ (next d).accountingHeld = t.accountingHeld := by
  cases h <;> exact ⟨rfl, rfl⟩

theorem mutationHeld_drops (h : Drops t d new) : new.bind mutationHeld = t.mutationHeld := by
  cases h with
  | uncut | thaw =>
    rw [Multiset.singleton_bind, mutationHeld_afterFreeze]
    rfl
  | _ => rfl

theorem accountingHeld_drops (h : Drops t d new) : ∃ mode, t.accountingHeld = (d, mode) ::ₘ new.bind accountingHeld := by
  cases h with
  | uncut | thaw =>
    refine ⟨.exclusive, ?_⟩
    rw [Multiset.singleton_bind, accountingHeld_afterFreeze]
    rfl
  | unchecked | mutated => exact ⟨_, rfl⟩
  | _ => exact ⟨.shared, rfl⟩

/-- What a step does to the locks on the mutation file. -/
theorem mutationEffect (h : Acts t s s' new) :
    LockEffect mutationHeld t new s.mutation s.opened s'.mutation s'.opened := by
  cases h with
  | move h => exact .pass (mutationHeld_proceeds h) le_rfl
  | create h =>
    refine .pass ?_ le_rfl
    rw [Multiset.singleton_bind, (held_creates h).1]
  | permit h hinitialized hlock =>
    refine .pass ?_ (Nat.le_succ _)
    rw [Multiset.singleton_bind, (held_permits h).1]
  | root h hlock =>
    refine .lock hlock ?_ (Nat.lt_succ_self _)
    rw [Multiset.singleton_bind, (held_roots h).1]
  | drop h => exact .pass (mutationHeld_drops h) le_rfl
  | release => exact .unlock rfl le_rfl

/-- What a step does to the locks on the accounting file. -/
theorem accountingEffect (h : Acts t s s' new) :
    LockEffect accountingHeld t new s.accounting s.opened s'.accounting s'.opened := by
  cases h with
  | move h => exact .pass (accountingHeld_proceeds h) le_rfl
  | create h =>
    refine .pass ?_ le_rfl
    rw [Multiset.singleton_bind, (held_creates h).2]
  | permit h hinitialized hlock =>
    refine .lock hlock ?_ (Nat.lt_succ_self _)
    rw [Multiset.singleton_bind, (held_permits h).2]
  | root h hlock =>
    refine .pass ?_ (Nat.le_succ _)
    rw [Multiset.singleton_bind, (held_roots h).2]
  | drop h =>
    obtain ⟨mode, hheld⟩ := accountingHeld_drops h
    exact .unlock hheld le_rfl
  | release => exact .pass rfl le_rfl

/-- The file is not removed. -/
theorem initialized_of_acts (h : Acts t s s' new) (hs : s.initialized = true) : s'.initialized = true := by
  cases h with
  | create h => rfl
  | _ => exact hs

/-- Only an accounting file that exists is locked. -/
theorem accounting_of_acts (h : Acts t s s' new) (hs : s.accounting ≠ 0 → s.initialized = true) :
    s'.accounting ≠ 0 → s'.initialized = true := by
  intro hne
  cases h with
  | move h => exact hs hne
  | create h => rfl
  | permit h hinitialized hlock => exact hinitialized
  | root h hlock => exact hs hne
  | drop h =>
    refine hs fun hzero => hne ?_
    show FileLocks.unlock _ _ = 0
    rw [hzero]
    rfl
  | release => exact hs hne

theorem held_arrives (h : Arrives initialized t) : t.mutationHeld = 0 ∧ t.accountingHeld = 0 := by
  cases h <;> exact ⟨rfl, rfl⟩

end Effects

/-! ### Every run -/

/-- The invariant of every run. -/
structure CoherenceInv (c : Config Coordination Participant) : Prop where
  /-- The locks on the mutation file. -/
  mutation : LocksHeld mutationHeld c.shared.mutation c.shared.opened c.threads
  /-- The locks on the accounting file. -/
  accounting : LocksHeld accountingHeld c.shared.accounting c.shared.opened c.threads
  /-- The accounting file exists when it is locked. -/
  initialized : c.shared.accounting ≠ 0 → c.shared.initialized = true

theorem coherenceInv_thread (t : Participant) (s s' : Coordination) (new rest : Multiset Participant)
    (h : coherence.step t s s' new) (hc : CoherenceInv ⟨s, t ::ₘ rest⟩) : CoherenceInv ⟨s', new + rest⟩ :=
  ⟨hc.mutation.step (mutationEffect h), hc.accounting.step (accountingEffect h), accounting_of_acts h hc.initialized⟩

theorem coherenceInv_event (s s' : Coordination) (new rest : Multiset Participant) (h : coherence.event s s' new)
    (hc : CoherenceInv ⟨s, rest⟩) : CoherenceInv ⟨s', new + rest⟩ := by
  obtain ⟨rfl, t, ht, rfl⟩ := h
  obtain ⟨hmutation, haccounting⟩ := held_arrives ht
  refine ⟨hc.mutation.start ?_, hc.accounting.start ?_, hc.initialized⟩
  · rw [Multiset.singleton_bind, hmutation]
  · rw [Multiset.singleton_bind, haccounting]

theorem coherenceInv_untouched : CoherenceInv untouched :=
  ⟨locksHeld_zero 0, locksHeld_zero 0, fun h => absurd rfl h⟩

theorem coherenceInv_reaches {c : Config Coordination Participant} (h : Reaches coherence untouched c) : CoherenceInv c :=
  invariant_reaches coherenceInv_thread coherenceInv_event h coherenceInv_untouched

/-- **Everyone keeps the own locks**, whatever others drop. -/
theorem CoherenceInv.holdsOwnLocks {c : Config Coordination Participant} (h : CoherenceInv c) : HoldsOwnLocks c := by
  intro t ht
  rw [h.mutation.holders, h.accounting.holders]
  exact ⟨Multiset.le_bind _ ht, Multiset.le_bind _ ht⟩

/-- **A freeze excludes every scope with a permit and every `StorageMutationWriter`**, in every run. -/
theorem CoherenceInv.eq_permitless {c : Config Coordination Participant} (h : CoherenceInv c) {owned : Bool} {root permit : ℕ}
    (hfreeze : freezing owned root permit ∈ c.threads) {t : Participant} (ht : t ∈ c.threads) (huse : t.InUse) :
    t = permitless := by
  cases t with
  | writing scope =>
    cases scope with
    | none => rfl
    | some d =>
      have hheld := h.accounting.excludes hfreeze ht Participant.noConfusion (Multiset.mem_singleton_self (permit, LockMode.exclusive))
      exact absurd hheld (Multiset.singleton_ne_zero _)
  | mutating mode other scope =>
    have hheld := h.mutation.excludes hfreeze ht Participant.noConfusion (Multiset.mem_singleton_self (root, LockMode.exclusive))
    exact absurd hheld (Multiset.singleton_ne_zero _)
  | _ => exact absurd huse id

/-- The accounting file exists while it is frozen. -/
theorem CoherenceInv.initialized_of_freezing {c : Config Coordination Participant} (h : CoherenceInv c) {owned : Bool}
    {root permit : ℕ} (hfreeze : freezing owned root permit ∈ c.threads) : c.shared.initialized = true := by
  apply h.initialized
  intro hzero
  have hmem := h.accounting.mem hfreeze (Multiset.mem_singleton_self (permit, LockMode.exclusive))
  rw [hzero] at hmem
  exact Multiset.notMem_zero _ hmem

/-! ### Careful runs -/

/-- A step that does not let a scope without a permit meet the accounting file: no legacy owner begins to write where the
file exists, and the file is not created during such a write. -/
def CarefulIn (s : Coordination) (t : Participant) (rest : Multiset Participant) : Prop :=
  (t = beginning false → s.initialized = false) ∧
    ∀ u, Creates t u → s.initialized = false → permitless ∉ rest

/-- What careful steps come to. -/
inductive CarefullyReaches : Config Coordination Participant → Prop
  /-- Nothing has happened. -/
  | start : CarefullyReaches untouched
  /-- Someone takes a careful step. -/
  | thread {t : Participant} {s s' : Coordination} {new rest : Multiset Participant} (hc : CarefullyReaches ⟨s, t ::ₘ rest⟩)
    (h : Acts t s s' new) (hcareful : CarefulIn s t rest) : CarefullyReaches ⟨s', new + rest⟩
  /-- Someone turns up. -/
  | event {t : Participant} {s : Coordination} {rest : Multiset Participant} (hc : CarefullyReaches ⟨s, rest⟩)
    (h : Arrives s.initialized t) : CarefullyReaches ⟨s, {t} + rest⟩

theorem CarefullyReaches.reaches {c : Config Coordination Participant} (h : CarefullyReaches c) :
    Reaches coherence untouched c := by
  induction h with
  | start => exact .refl
  | thread hc h hcareful ih => exact ih.tail (.thread h)
  | event hc h ih => exact ih.tail (.event ⟨rfl, _, h, rfl⟩)

/-- A scope without a permit comes from a legacy owner. -/
theorem eq_beginning_of_permitless {t : Participant} {s s' : Coordination} {new : Multiset Participant}
    (h : Acts t s s' new) (hmem : permitless ∈ new) : t = beginning false ∧ s' = s := by
  cases h with
  | move h =>
    cases h with
    | grantWithout => exact ⟨rfl, rfl⟩
    | «begin» =>
      rcases Multiset.mem_cons.mp hmem with heq | hmem
      · cases heq
      · cases Multiset.mem_singleton.mp hmem
    | stop hroot hpermit => exact absurd hmem (Multiset.notMem_zero _)
    | _ => cases Multiset.mem_singleton.mp hmem
  | create h => cases h <;> cases Multiset.mem_singleton.mp hmem
  | permit h hinitialized hlock => cases h <;> cases Multiset.mem_singleton.mp hmem
  | root h hlock => cases h <;> cases Multiset.mem_singleton.mp hmem
  | drop h =>
    cases h with
    | entered | unchecked | mutated => cases Multiset.mem_singleton.mp hmem
    | @uncut owned root permit =>
      cases owned <;> cases Multiset.mem_singleton.mp hmem
    | @thaw owned root permit =>
      cases owned <;> cases Multiset.mem_singleton.mp hmem
    | _ => exact absurd hmem (Multiset.notMem_zero _)
  | release => exact absurd hmem (Multiset.notMem_zero _)

/-- The file appears in a step that creates it. -/
theorem creates_of_initialized {t : Participant} {s s' : Coordination} {new : Multiset Participant} (h : Acts t s s' new)
    (hs : s.initialized = false) (hs' : s'.initialized = true) : ∃ u, Creates t u := by
  cases h with
  | create h => exact ⟨_, h⟩
  | _ =>
    exfalso
    exact Bool.noConfusion (hs.symm.trans hs')

/-- **In a careful run no scope is without a permit once the file exists.** -/
theorem CarefullyReaches.permitless_notMem {c : Config Coordination Participant} (h : CarefullyReaches c) :
    c.shared.initialized = true → permitless ∉ c.threads := by
  induction h with
  | start => exact fun h => nomatch h
  | @thread t s s' new rest hc h hcareful ih =>
    intro hs' hmem
    rcases Multiset.mem_add.mp hmem with hnew | hrest
    · obtain ⟨ht, rfl⟩ := eq_beginning_of_permitless h hnew
      have hs := hcareful.1 ht
      rw [hs'] at hs
      exact nomatch hs
    · cases hs : s.initialized with
      | true => exact ih hs (Multiset.mem_cons_of_mem hrest)
      | false =>
        obtain ⟨u, hcreates⟩ := creates_of_initialized h hs hs'
        exact hcareful.2 u hcreates hs hrest
  | event hc h ih =>
    intro hs hmem
    rcases Multiset.mem_add.mp hmem with hnew | hrest
    · cases Multiset.mem_singleton.mp hnew
      cases h
    · exact ih hs hrest

/-- **A freeze excludes every writer**, where no owner from before begins a write after the accounting file was created, and
the file is not created during such a write; and in every run whatever a participant drops leaves the locks of the others. -/
theorem freeze_excludes_writers (c : Config Coordination Participant) :
    (Reaches coherence untouched c → HoldsOwnLocks c) ∧ (CarefullyReaches c → FreezeExcludes c) := by
  constructor
  · intro h
    exact (coherenceInv_reaches h).holdsOwnLocks
  · intro h owned root permit hfreeze t ht huse
    have hinv := coherenceInv_reaches h.reaches
    have heq := hinv.eq_permitless hfreeze ht huse
    rw [heq] at ht
    exact h.permitless_notMem (hinv.initialized_of_freezing hfreeze) ht

/-! ### A freeze beside an owner from before -/

theorem CarefullyReaches.go {t u : Participant} {s s' : Coordination} {rest : Multiset Participant}
    (hc : CarefullyReaches ⟨s, t ::ₘ rest⟩) (h : Acts t s s' {u}) (hcareful : CarefulIn s t rest) :
    CarefullyReaches ⟨s', u ::ₘ rest⟩ := .thread hc h hcareful

theorem CarefullyReaches.arrive {t : Participant} {s : Coordination} {rest : Multiset Participant}
    (hc : CarefullyReaches ⟨s, rest⟩) (h : Arrives s.initialized t) : CarefullyReaches ⟨s, t ::ₘ rest⟩ := .event hc h

/-- An owner was acquired, then the file was created, then it was frozen. -/
def frozen : Config Coordination Participant :=
  ⟨⟨true, {(0, .exclusive)}, {(1, .exclusive)}, 2⟩, freezing true 0 1 ::ₘ {owner false}⟩

theorem carefullyReaches_frozen : CarefullyReaches frozen := by
  have hidle : ∀ {s : Coordination} {t : Participant} {rest : Multiset Participant}, t ≠ beginning false →
      (∀ u, ¬ Creates t u) → CarefulIn s t rest := fun hne hno => ⟨fun heq => absurd heq hne, fun u h => absurd h (hno u)⟩
  have hdiscovered := (CarefullyReaches.start.arrive .acquire).go (.move .discover) (hidle nofun nofun)
  have howner := hdiscovered.go (.move .retain) (hidle nofun nofun)
  have hroot := (howner.arrive .guard).go (.root .guard (FileLocks.tryLock_eq_some.mpr ⟨by simp, rfl⟩)) (hidle nofun nofun)
  have hinitializing := hroot.go (.move .callInitialize) (hidle nofun nofun)
  have hcreated := hinitializing.go (.create .guard) ⟨nofun, fun _ _ _ => by decide⟩
  have hconsuming := hcreated.go (.move .consume) (hidle nofun nofun)
  have hcut := hconsuming.go (.permit .cutOwned rfl (FileLocks.tryLock_eq_some.mpr ⟨by simp, rfl⟩)) (hidle nofun nofun)
  exact hcut.go (.move .freeze) (hidle nofun nofun)

/-- The freeze beside an owner from before. -/
theorem freeze_excludes_writers_frozen : HoldsOwnLocks frozen ∧ FreezeExcludes frozen :=
  ⟨(freeze_excludes_writers frozen).1 carefullyReaches_frozen.reaches,
    (freeze_excludes_writers frozen).2 carefullyReaches_frozen⟩

/-- A freeze does not exclude an owner from before that begins to write. -/
theorem not_freeze_excludes_writers : ¬ ∀ c, Reaches coherence untouched c → FreezeExcludes c := by
  intro h
  have hswap : frozen = ⟨frozen.shared, owner false ::ₘ {freezing true 0 1}⟩ :=
    congrArg (Config.mk frozen.shared) (Multiset.cons_swap (freezing true 0 1) (owner false) 0)
  have hbegun : Reaches coherence frozen
      ⟨frozen.shared, {owner false, beginning false} + {freezing true 0 1}⟩ := by
    rw [hswap]
    exact .single (.thread (.move .begin))
  have hperm : ({owner false, beginning false} + {freezing true 0 1} : Multiset Participant) =
      beginning false ::ₘ {owner false, freezing true 0 1} :=
    Multiset.cons_swap (owner false) (beginning false) {freezing true 0 1}
  rw [hperm] at hbegun
  have hwriting := (carefullyReaches_frozen.reaches.trans hbegun).tail (.thread (.move .grantWithout))
  exact h _ hwriting true 0 1 (by decide) permitless (by decide) trivial

end AgentObservability.Runtime
