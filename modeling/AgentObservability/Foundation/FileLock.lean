import AgentObservability.Foundation.Threads
import Mathlib.Data.Multiset.Bind

/-!
# Advisory locks on a file

The locks on one file as the system keeps them: each open file description that has
one, shared or exclusive. A lock is only tried, and a description gives up its own
lock and no other.

Threads that hold locks are `LocksHeld`: the locks on the file are exactly those of
the threads, and an exclusive one is alone. `LocksHeld.step` carries this over a step
of a thread that takes a lock by a fresh description, gives up one of its own, or
hands its locks on (`LockEffect`).
-/

namespace AgentObservability.Foundation

universe u

/-- How a file is locked. -/
inductive LockMode where
  /-- Beside other shared locks. -/
  | shared
  /-- Alone. -/
  | exclusive
  deriving DecidableEq, Repr

/-- The locks on a file: the descriptions that have one. -/
abbrev FileLocks := Multiset (ℕ × LockMode)

namespace FileLocks

/-- `try_lock_shared` and `try_lock_exclusive` on a description without a lock: nothing where it would block. -/
def tryLock (locks : FileLocks) (descriptor : ℕ) (mode : LockMode) : Option FileLocks :=
  if (mode = .exclusive → locks = 0) ∧ ∀ lock ∈ locks, lock.2 = .shared then some ((descriptor, mode) ::ₘ locks) else none

/-- `unlock` of a description. -/
def unlock (locks : FileLocks) (descriptor : ℕ) : FileLocks := locks.filter fun lock => lock.1 ≠ descriptor

variable {locks locks' : FileLocks} {d : ℕ} {mode : LockMode}

theorem tryLock_eq_some : locks.tryLock d mode = some locks' ↔
    ((mode = .exclusive → locks = 0) ∧ ∀ lock ∈ locks, lock.2 = .shared) ∧ locks' = (d, mode) ::ₘ locks := by
  unfold tryLock
  split
  · rename_i h
    exact ⟨fun he => ⟨h, (Option.some.inj he).symm⟩, fun he => congrArg some he.2.symm⟩
  · rename_i h
    exact ⟨nofun, fun he => absurd he.1 h⟩

/-- What holds of the locks on a file: a description has one at most, and an exclusive one is alone. -/
structure Sound (locks : FileLocks) : Prop where
  /-- One for each description. -/
  nodup : (locks.map Prod.fst).Nodup
  /-- An exclusive lock is the only one. -/
  alone : ∀ d, (d, .exclusive) ∈ locks → locks = {(d, .exclusive)}

theorem sound_zero : Sound 0 := ⟨Multiset.nodup_zero, fun _ h => absurd h (Multiset.notMem_zero _)⟩

theorem Sound.tryLock (h : Sound locks) (hd : d ∉ locks.map Prod.fst) (hlock : locks.tryLock d mode = some locks') :
    Sound locks' := by
  obtain ⟨⟨hexclusive, hshared⟩, rfl⟩ := tryLock_eq_some.mp hlock
  constructor
  · rw [Multiset.map_cons]
    exact Multiset.nodup_cons.mpr ⟨hd, h.nodup⟩
  · intro e he
    rcases Multiset.mem_cons.mp he with heq | hmem
    · obtain ⟨rfl, rfl⟩ := Prod.mk.inj heq
      rw [hexclusive rfl]
      rfl
    · cases hshared _ hmem

/-- A description that gives up its lock leaves those of the others. -/
theorem unlock_cons {held : FileLocks} (h : (((d, mode) ::ₘ held).map Prod.fst).Nodup) :
    unlock ((d, mode) ::ₘ held) d = held := by
  rw [Multiset.map_cons, Multiset.nodup_cons] at h
  unfold unlock
  rw [Multiset.filter_cons_of_neg _ (by simp)]
  apply Multiset.filter_eq_self.mpr
  intro lock hlock heq
  exact h.1 (Multiset.mem_map.mpr ⟨lock, hlock, heq⟩)

theorem Sound.tail {lock : ℕ × LockMode} {held : FileLocks} (h : Sound (lock ::ₘ held)) : Sound held := by
  constructor
  · have := h.nodup
    rw [Multiset.map_cons] at this
    exact (Multiset.nodup_cons.mp this).2
  · intro d hd
    have hone := congrArg Multiset.card (h.alone d (Multiset.mem_cons_of_mem hd))
    rw [Multiset.card_cons, Multiset.card_singleton] at hone
    rw [Multiset.card_eq_zero.mp (by omega : Multiset.card held = 0)] at hd
    exact absurd hd (Multiset.notMem_zero _)

/-- Two locks of which one is exclusive are one and the same. -/
theorem Sound.not_two {lock : ℕ × LockMode} {others : FileLocks} (h : Sound ((d, .exclusive) ::ₘ lock ::ₘ others)) :
    False := by
  have hone := congrArg Multiset.card (h.alone d (Multiset.mem_cons_self _ _))
  rw [Multiset.card_cons, Multiset.card_cons, Multiset.card_singleton] at hone
  omega

end FileLocks

/-! ### Threads that hold locks -/

section Held

variable {τ : Type u} (held : τ → FileLocks)

/-- The locks on the file are those that the threads hold, by descriptions that have been opened. -/
structure LocksHeld (locks : FileLocks) (opened : ℕ) (threads : Multiset τ) : Prop where
  /-- Whose they are. -/
  holders : locks = threads.bind held
  /-- They are sound. -/
  sound : locks.Sound
  /-- Their descriptions have been opened. -/
  opened : ∀ lock ∈ locks, lock.1 < opened

/-- What a step of a thread does to the locks on a file. -/
inductive LockEffect (t : τ) (new : Multiset τ) (locks : FileLocks) (opened : ℕ) : FileLocks → ℕ → Prop
  /-- The locks are handed on. -/
  | pass {opened' : ℕ} (hheld : new.bind held = held t) (hopened : opened ≤ opened') :
    LockEffect t new locks opened locks opened'
  /-- A fresh description takes a lock. -/
  | lock {mode : LockMode} {locks' : FileLocks} {opened' : ℕ} (hlock : locks.tryLock opened mode = some locks')
    (hheld : new.bind held = (opened, mode) ::ₘ held t) (hopened : opened < opened') :
    LockEffect t new locks opened locks' opened'
  /-- A description gives up its lock. -/
  | unlock {d : ℕ} {mode : LockMode} {opened' : ℕ} (hheld : held t = (d, mode) ::ₘ new.bind held)
    (hopened : opened ≤ opened') : LockEffect t new locks opened (locks.unlock d) opened'

variable {held} {locks locks' : FileLocks} {opened opened' : ℕ} {t : τ} {new rest : Multiset τ}

theorem locksHeld_zero (opened : ℕ) : LocksHeld held 0 opened 0 :=
  ⟨rfl, FileLocks.sound_zero, fun _ h => absurd h (Multiset.notMem_zero _)⟩

/-- **A step keeps the locks with the threads that hold them.** -/
theorem LocksHeld.step (h : LocksHeld held locks opened (t ::ₘ rest))
    (he : LockEffect held t new locks opened locks' opened') : LocksHeld held locks' opened' (new + rest) := by
  obtain ⟨hholders, hsound, hopened⟩ := h
  rw [Multiset.cons_bind] at hholders
  cases he with
  | pass hheld hle =>
    refine ⟨?_, hsound, fun lock hlock => (hopened lock hlock).trans_le hle⟩
    rw [Multiset.add_bind, hheld, hholders]
  | lock hlock hheld hlt =>
    have hfresh : opened ∉ locks.map Prod.fst := by
      intro hmem
      obtain ⟨lock, hlock, heq⟩ := Multiset.mem_map.mp hmem
      exact lt_irrefl _ (heq ▸ hopened lock hlock)
    refine ⟨?_, hsound.tryLock hfresh hlock, ?_⟩
    · rw [(FileLocks.tryLock_eq_some.mp hlock).2, Multiset.add_bind, hheld, hholders, Multiset.cons_add]
    · intro lock hmem
      rw [(FileLocks.tryLock_eq_some.mp hlock).2] at hmem
      rcases Multiset.mem_cons.mp hmem with rfl | hmem
      · exact hlt
      · exact (hopened lock hmem).trans hlt
  | @unlock d mode _ hheld hle =>
    have heq : locks = (d, mode) ::ₘ (new + rest).bind held := by
      rw [hholders, hheld, Multiset.add_bind, Multiset.cons_add]
    have hunlock : locks.unlock d = (new + rest).bind held := by
      rw [heq] at hsound ⊢
      exact FileLocks.unlock_cons hsound.nodup
    refine ⟨hunlock, ?_, fun lock hmem => ?_⟩
    · rw [heq] at hsound
      exact hunlock ▸ hsound.tail
    · exact (hopened lock (Multiset.mem_of_le (Multiset.filter_le _ _) hmem)).trans_le hle

/-- Threads that hold nothing may start. -/
theorem LocksHeld.start (h : LocksHeld held locks opened rest) (hnew : new.bind held = 0) :
    LocksHeld held locks opened (new + rest) := by
  refine ⟨?_, h.sound, h.opened⟩
  rw [Multiset.add_bind, hnew, zero_add]
  exact h.holders

/-- The lock of a thread is on the file. -/
theorem LocksHeld.mem (h : LocksHeld held locks opened rest) (ht : t ∈ rest) {lock : ℕ × LockMode}
    (hlock : lock ∈ held t) : lock ∈ locks := by
  rw [h.holders]
  exact Multiset.mem_bind.mpr ⟨t, ht, hlock⟩

/-- While a thread holds an exclusive lock, no other thread holds one. -/
theorem LocksHeld.excludes (h : LocksHeld held locks opened rest) {t' : τ} (ht : t ∈ rest) (ht' : t' ∈ rest)
    (hne : t ≠ t') {d : ℕ} (hd : (d, .exclusive) ∈ held t) : held t' = 0 := by
  by_contra hheld
  obtain ⟨lock, hlock⟩ := Multiset.exists_mem_of_ne_zero hheld
  obtain ⟨others, rfl⟩ := Multiset.exists_cons_of_mem ht
  obtain ⟨others', rfl⟩ := Multiset.exists_cons_of_mem ((Multiset.mem_cons.mp ht').resolve_left (Ne.symm hne))
  have hsound := h.sound
  rw [h.holders, Multiset.cons_bind, Multiset.cons_bind] at hsound
  obtain ⟨own, hown⟩ := Multiset.exists_cons_of_mem hd
  obtain ⟨own', hown'⟩ := Multiset.exists_cons_of_mem hlock
  rw [hown, hown'] at hsound
  have htwo : (d, LockMode.exclusive) ::ₘ own + (lock ::ₘ own' + others'.bind held) =
      (d, .exclusive) ::ₘ lock ::ₘ (own + (own' + others'.bind held)) := by
    rw [Multiset.cons_add, Multiset.cons_add, Multiset.add_cons]
  rw [htwo] at hsound
  exact hsound.not_two

end Held

end AgentObservability.Foundation
