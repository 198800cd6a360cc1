import AgentObservability.Foundation.Run
import Mathlib.Algebra.Group.Nat.Defs
import Mathlib.Tactic.SplitIfs

/-!
# The adaptive scheduler

The scheduler sees a sample of the load at a time and says how the runtime is to work
until the next: how often to reconcile, whether the flush is paused, whether a report
may be refreshed. Under pressure it slows down, in protection it pauses the flush, and
from there it comes back over a probe.

A sample is to have its effect at once. The scheduler does not look at a sample while a
probe is waiting (`EarlyProbe`), so a critical one is then answered with a schedule that
flushes; everything else holds over every run (`adaptive_iff`).
-/

namespace AgentObservability.Runtime

open Foundation

/-- `PRESSURE_WINDOW_MS`. -/
def pressureWindowMs : ℕ := 10000

/-- `SUSTAINED_PRESSURE_MS`. -/
def sustainedPressureMs : ℕ := 60000

/-- `INITIAL_PROBE_BACKOFF_MS`. -/
def initialProbeBackoffMs : ℕ := 5000

/-- `MAX_PROBE_BACKOFF_MS`. -/
def maxProbeBackoffMs : ℕ := 60000

/-- `saturating_add` of a number of so many bits. -/
def saturatingAdd (bits a b : ℕ) : ℕ := min (a + b) (2 ^ bits - 1)

/-- `saturating_mul`. -/
def saturatingMul (bits a b : ℕ) : ℕ := min (a * b) (2 ^ bits - 1)

/-- `State`. -/
inductive State where
  | normal
  | pressured
  | protected_
  | probe
  deriving DecidableEq, Repr

/-- `PressureSample`, in percent of a budget. -/
structure PressureSample where
  resourcePercent : UInt8
  diskPercent : UInt8
  queuePercent : UInt8
  deriving DecidableEq, Repr

namespace PressureSample

def overBudget (sample : PressureSample) : Bool := 100 < sample.resourcePercent

def critical (sample : PressureSample) : Bool := 90 ≤ sample.diskPercent || 90 ≤ sample.queuePercent

def recovering (sample : PressureSample) : Bool :=
  sample.resourcePercent < 70 && sample.diskPercent < 70 && sample.queuePercent < 70

end PressureSample

/-- `Schedule`. -/
structure Schedule where
  state : State
  reconcileIntervalMs : ℕ
  flushPaused : Bool
  reportRefreshAllowed : Bool
  fairnessSlot : ℕ
  nextProbeAtMs : ℕ
  deriving DecidableEq, Repr

/-- `Scheduler`. The windows are counted in a byte, the times and slots in 64 bits. -/
structure Scheduler where
  state : State
  pressureWindows : ℕ
  recoveryWindows : ℕ
  pressuredSince : Option ℕ
  lastWindowAtMs : Option ℕ
  nextProbeAtMs : ℕ
  probeBackoffMs : ℕ
  fairnessSlot : ℕ
  deriving DecidableEq, Repr

namespace Scheduler

/-- `Scheduler::new`. -/
def new : Scheduler where
  state := .normal
  pressureWindows := 0
  recoveryWindows := 0
  pressuredSince := none
  lastWindowAtMs := none
  nextProbeAtMs := 0
  probeBackoffMs := initialProbeBackoffMs
  fairnessSlot := 0

/-- Whether a window has passed; if so, the next one starts. -/
def windowDue (s : Scheduler) (nowMs : ℕ) : Scheduler × Bool :=
  if s.lastWindowAtMs.all fun last => pressureWindowMs ≤ nowMs - last then
    ({ s with lastWindowAtMs := some nowMs }, true)
  else (s, false)

def enterProtected (s : Scheduler) (nowMs : ℕ) : Scheduler :=
  { s with
    state := .protected_
    recoveryWindows := 0
    lastWindowAtMs := none
    probeBackoffMs := initialProbeBackoffMs
    nextProbeAtMs := saturatingAdd 64 nowMs initialProbeBackoffMs }

def resetPressureTracking (s : Scheduler) : Scheduler :=
  { s with
    pressureWindows := 0
    recoveryWindows := 0
    pressuredSince := none
    lastWindowAtMs := none
    nextProbeAtMs := 0
    probeBackoffMs := initialProbeBackoffMs }

/-- What `evaluate` does in the state it finds. -/
def transition (s : Scheduler) (nowMs : ℕ) (sample : PressureSample) : Scheduler :=
  match s.state with
  | .normal =>
    if sample.critical then s.enterProtected nowMs
    else
      let (s, due) := s.windowDue nowMs
      if due then
        let s := { s with pressureWindows := if sample.overBudget then saturatingAdd 8 s.pressureWindows 1 else 0 }
        if 2 ≤ s.pressureWindows then
          { s with state := .pressured, pressuredSince := some nowMs, recoveryWindows := 0 }
        else s
      else s
  | .pressured =>
    if sample.critical || (sample.overBudget && s.pressuredSince.any fun since => sustainedPressureMs ≤ nowMs - since) then
      s.enterProtected nowMs
    else
      let (s, due) := s.windowDue nowMs
      if due then
        let s := { s with recoveryWindows := if sample.recovering then saturatingAdd 8 s.recoveryWindows 1 else 0 }
        if 3 ≤ s.recoveryWindows then resetPressureTracking { s with state := .normal } else s
      else s
  | .protected_ =>
    if s.nextProbeAtMs ≤ nowMs && sample.recovering then
      { s with
        state := .probe
        recoveryWindows := 0
        lastWindowAtMs := none
        nextProbeAtMs := saturatingAdd 64 nowMs initialProbeBackoffMs }
    else s
  | .probe =>
    if s.nextProbeAtMs ≤ nowMs then
      if sample.recovering then
        let (s, due) := s.windowDue nowMs
        let s := if due then { s with recoveryWindows := saturatingAdd 8 s.recoveryWindows 1 } else s
        let s := { s with
          probeBackoffMs := initialProbeBackoffMs
          nextProbeAtMs := saturatingAdd 64 nowMs initialProbeBackoffMs }
        if 3 ≤ s.recoveryWindows then
          { s with state := .pressured, pressuredSince := some nowMs, recoveryWindows := 0, lastWindowAtMs := none }
        else s
      else
        let probeBackoffMs := min (saturatingMul 64 s.probeBackoffMs 2) maxProbeBackoffMs
        { s with
          state := .protected_
          recoveryWindows := 0
          lastWindowAtMs := none
          probeBackoffMs
          nextProbeAtMs := saturatingAdd 64 nowMs probeBackoffMs }
    else s

/-- The schedule of the state it is in. -/
def schedule (s : Scheduler) (baseReconcileMs : ℕ) : Schedule where
  state := s.state
  reconcileIntervalMs := min (saturatingMul 32 baseReconcileMs (if s.state = .pressured then 2 else 1)) 60000
  flushPaused := s.state = .protected_
  reportRefreshAllowed := s.state = .normal || s.state = .probe
  fairnessSlot := s.fairnessSlot
  nextProbeAtMs := s.nextProbeAtMs

/-- `evaluate`. -/
def evaluate (s : Scheduler) (nowMs : ℕ) (sample : PressureSample) (baseReconcileMs : ℕ) : Scheduler × Schedule :=
  let s := s.transition nowMs sample
  ({ s with fairnessSlot := (s.fairnessSlot + 1) % 2 ^ 64 }, s.schedule baseReconcileMs)

end Scheduler

/-! ### Runs -/

/-- A call of `evaluate`. -/
structure Call where
  nowMs : ℕ
  sample : PressureSample
  baseReconcileMs : ℕ
  deriving DecidableEq, Repr

/-- A scheduler, with the time of its last call and what that announced. -/
structure Evaluated where
  scheduler : Scheduler
  last : Option (ℕ × Schedule)

namespace Evaluated

/-- It has not been called. -/
def start : Evaluated := ⟨.new, none⟩

/-- One call. -/
def step (e : Evaluated) (call : Call) : Evaluated :=
  let (scheduler, schedule) := e.scheduler.evaluate call.nowMs call.sample call.baseReconcileMs
  ⟨scheduler, some (call.nowMs, schedule)⟩

/-- Time does not go back. -/
def InOrder (e : Evaluated) (call : Call) : Prop := ∀ last ∈ e.last, last.1 ≤ call.nowMs

instance (e : Evaluated) (call : Call) : Decidable (e.InOrder call) :=
  inferInstanceAs (Decidable (∀ last ∈ e.last, last.1 ≤ call.nowMs))

end Evaluated

/-- Where a state may lead in one call. -/
def State.successors : State → List State
  | .normal => [.normal, .pressured, .protected_]
  | .pressured => [.pressured, .normal, .protected_]
  | .protected_ => [.protected_, .probe]
  | .probe => [.probe, .pressured, .protected_]

/-- The schedule a call gets. -/
def Evaluated.schedule (e : Evaluated) (call : Call) : Schedule :=
  (e.scheduler.evaluate call.nowMs call.sample call.baseReconcileMs).2

/-- What the scheduler owes to a call. -/
structure Adaptive (e : Evaluated) (call : Call) : Prop where
  /-- A critical sample pauses the flush. -/
  protects : call.sample.critical = true → (e.schedule call).flushPaused = true
  /-- A paused flush resumes on a recovering sample only, and not before the announced probe. -/
  resumes : ∀ last ∈ e.last, last.2.flushPaused = true → (e.schedule call).flushPaused = false →
    call.sample.recovering = true ∧ last.2.nextProbeAtMs ≤ call.nowMs
  /-- The backoff of the probe is a minute at most, and so is the wait for the next one. -/
  bounded : (e.step call).scheduler.probeBackoffMs ≤ maxProbeBackoffMs ∧
    (e.schedule call).nextProbeAtMs ≤ call.nowMs + maxProbeBackoffMs
  /-- Protection is left over the probe and pressure, one state a call. -/
  ordered : (e.schedule call).state ∈ e.scheduler.state.successors

/-! ### One call -/

namespace Scheduler

/-- The probe is not due yet. -/
def EarlyProbe (s : Scheduler) (nowMs : ℕ) : Prop := s.state = .probe ∧ nowMs < s.nextProbeAtMs

@[simp] theorem windowDue_state (s : Scheduler) (nowMs : ℕ) : (s.windowDue nowMs).1.state = s.state := by
  unfold windowDue
  split <;> rfl

@[simp] theorem windowDue_nextProbeAtMs (s : Scheduler) (nowMs : ℕ) :
    (s.windowDue nowMs).1.nextProbeAtMs = s.nextProbeAtMs := by
  unfold windowDue
  split <;> rfl

@[simp] theorem windowDue_probeBackoffMs (s : Scheduler) (nowMs : ℕ) :
    (s.windowDue nowMs).1.probeBackoffMs = s.probeBackoffMs := by
  unfold windowDue
  split <;> rfl

/-- A critical sample is no sign of recovery. -/
theorem not_recovering {sample : PressureSample} (h : sample.critical = true) : sample.recovering = false := by
  unfold PressureSample.critical at h
  unfold PressureSample.recovering
  simp only [Bool.or_eq_true, decide_eq_true_eq, UInt8.le_iff_toNat_le, UInt8.reduceToNat] at h
  simp only [Bool.and_eq_false_iff, decide_eq_false_iff_not, UInt8.lt_iff_toNat_lt, UInt8.reduceToNat]
  omega

/-- What the state, the probe and its backoff are after a call. -/
structure Moved (s s' : Scheduler) (nowMs : ℕ) (sample : PressureSample) : Prop where
  state : s'.state ∈ s.state.successors
  protects : sample.critical = true → s'.state = .protected_ ∨ s.EarlyProbe nowMs
  early : s.EarlyProbe nowMs → s' = s
  resumes : s.state = .protected_ → s'.state ≠ .protected_ → sample.recovering = true ∧ s.nextProbeAtMs ≤ nowMs
  probe : s'.nextProbeAtMs = s.nextProbeAtMs ∨ s'.nextProbeAtMs ≤ nowMs + maxProbeBackoffMs
  backoff : s.probeBackoffMs ≤ maxProbeBackoffMs → s'.probeBackoffMs ≤ maxProbeBackoffMs

theorem saturatingAdd_le (bits a b : ℕ) : saturatingAdd bits a b ≤ a + b := Nat.min_le_left _ _

theorem probe_le (nowMs : ℕ) : saturatingAdd 64 nowMs initialProbeBackoffMs ≤ nowMs + maxProbeBackoffMs := by
  have hle := saturatingAdd_le 64 nowMs initialProbeBackoffMs
  unfold initialProbeBackoffMs at hle
  unfold initialProbeBackoffMs maxProbeBackoffMs
  omega

theorem initial_le_max : initialProbeBackoffMs ≤ maxProbeBackoffMs := by decide

variable {s s' : Scheduler} {nowMs : ℕ} {sample : PressureSample}

theorem State.mem_successors (state : State) : state ∈ state.successors := by cases state <;> decide

/-- A move in which the probe and its backoff stay as they are, from a state without a probe. -/
theorem Moved.within (hne : s.state ≠ .probe) (hprobe : s'.nextProbeAtMs = s.nextProbeAtMs)
    (hbackoff : s'.probeBackoffMs = s.probeBackoffMs) (hstate : s'.state ∈ s.state.successors)
    (hcritical : sample.critical = true → s'.state = .protected_)
    (hprotected : s.state = .protected_ → s'.state = .protected_) : Moved s s' nowMs sample where
  state := hstate
  protects h := .inl (hcritical h)
  early h := absurd h.1 hne
  resumes h hleft := absurd (hprotected h) hleft
  probe := .inl hprobe
  backoff h := hbackoff ▸ h

theorem moved_enterProtected (hstate : s.state = .normal ∨ s.state = .pressured) :
    Moved s (s.enterProtected nowMs) nowMs sample where
  state := by
    have hmem : State.protected_ ∈ s.state.successors := by rcases hstate with h | h <;> rw [h] <;> decide
    exact hmem
  protects _ := .inl rfl
  early h := by rcases hstate with hs | hs <;> rw [h.1] at hs <;> cases hs
  resumes h := by rcases hstate with hs | hs <;> rw [h] at hs <;> cases hs
  probe := .inr (probe_le nowMs)
  backoff _ := initial_le_max

theorem moved_normal (hstate : s.state = .normal) : Moved s (s.transition nowMs sample) nowMs sample := by
  have hne : s.state ≠ .probe := hstate ▸ nofun
  have hnp : s.state = .protected_ → False := hstate ▸ nofun
  unfold transition
  rw [hstate]
  show Moved s (if sample.critical then _ else _) nowMs sample
  by_cases hcritical : sample.critical = true
  · rw [if_pos hcritical]
    exact moved_enterProtected (.inl hstate)
  · rw [if_neg hcritical]
    have hc : ∀ {P : Prop}, sample.critical = true → P := fun h => absurd h hcritical
    simp only
    generalize (if sample.overBudget then saturatingAdd 8 (s.windowDue nowMs).1.pressureWindows 1 else 0) = windows
    split_ifs
    · exact .within hne (by simp) (by simp) (by simp [hstate, State.successors]) hc (fun h => (hnp h).elim)
    · exact .within hne (by simp) (by simp) (by simp [hstate, State.successors]) hc (fun h => (hnp h).elim)
    · exact .within hne (by simp) (by simp) (by simp [hstate, State.successors]) hc (fun h => (hnp h).elim)

theorem moved_pressured (hstate : s.state = .pressured) : Moved s (s.transition nowMs sample) nowMs sample := by
  have hne : s.state ≠ .probe := hstate ▸ nofun
  have hnp : s.state = .protected_ → False := hstate ▸ nofun
  unfold transition
  rw [hstate]
  simp only
  split
  · exact moved_enterProtected (.inr hstate)
  · rename_i hquiet
    have hcritical : ¬ sample.critical = true := fun h => hquiet (by rw [h]; rfl)
    have hc : ∀ {P : Prop}, sample.critical = true → P := fun h => absurd h hcritical
    generalize (if sample.recovering then saturatingAdd 8 (s.windowDue nowMs).1.recoveryWindows 1 else 0) = windows
    split_ifs
    · exact {
        state := by simp [hstate, State.successors, resetPressureTracking]
        protects := hc
        early := fun h => absurd h.1 hne
        resumes := fun h => (hnp h).elim
        probe := .inr (Nat.zero_le _)
        backoff := fun _ => initial_le_max }
    · exact .within hne (by simp) (by simp) (by simp [hstate, State.successors]) hc (fun h => (hnp h).elim)
    · exact .within hne (by simp) (by simp) (by simp [hstate, State.successors]) hc (fun h => (hnp h).elim)

theorem moved_protected (hstate : s.state = .protected_) : Moved s (s.transition nowMs sample) nowMs sample := by
  have hne : s.state ≠ .probe := hstate ▸ nofun
  unfold transition
  rw [hstate]
  simp only
  split
  · rename_i hdue
    rw [Bool.and_eq_true, decide_eq_true_eq] at hdue
    exact {
      state := by simp [hstate, State.successors]
      protects := fun h => absurd hdue.2 (by rw [not_recovering h]; decide)
      early := fun h => absurd h.1 hne
      resumes := fun _ _ => ⟨hdue.2, hdue.1⟩
      probe := .inr (probe_le nowMs)
      backoff := id }
  · exact .within hne rfl rfl (by rw [hstate]; decide) (fun _ => hstate) (fun h => h)

theorem moved_probe (hstate : s.state = .probe) : Moved s (s.transition nowMs sample) nowMs sample := by
  have hnp : s.state = .protected_ → False := hstate ▸ nofun
  unfold transition
  rw [hstate]
  simp only
  by_cases hdue : s.nextProbeAtMs ≤ nowMs
  · have hlate : ¬ s.EarlyProbe nowMs := fun h => absurd hdue (Nat.not_le.mpr h.2)
    rw [if_pos hdue]
    by_cases hrecovering : sample.recovering = true
    · rw [if_pos hrecovering]
      have hc : ∀ {P : Prop}, sample.critical = true → P := fun h =>
        absurd hrecovering (by rw [not_recovering h]; decide)
      split_ifs
      all_goals exact {
        state := by simp [hstate, State.successors]
        protects := hc
        early := fun h => absurd h hlate
        resumes := fun h => (hnp h).elim
        probe := .inr (probe_le nowMs)
        backoff := fun _ => initial_le_max }
    · rw [if_neg hrecovering]
      exact {
        state := by simp [hstate, State.successors]
        protects := fun _ => .inl rfl
        early := fun h => absurd h hlate
        resumes := fun h => (hnp h).elim
        probe := .inr (Nat.le_trans (saturatingAdd_le _ _ _) (Nat.add_le_add_left (Nat.min_le_right _ _) _))
        backoff := fun _ => Nat.min_le_right _ _ }
  · rw [if_neg hdue]
    exact {
      state := State.mem_successors _
      protects := fun _ => .inr ⟨hstate, Nat.lt_of_not_le hdue⟩
      early := fun _ => rfl
      resumes := fun h => (hnp h).elim
      probe := .inl rfl
      backoff := id }

/-- **What one call does**, in whichever state it finds the scheduler. -/
theorem moved_transition (s : Scheduler) (nowMs : ℕ) (sample : PressureSample) :
    Moved s (s.transition nowMs sample) nowMs sample := by
  cases hstate : s.state with
  | normal => exact moved_normal hstate
  | pressured => exact moved_pressured hstate
  | protected_ => exact moved_protected hstate
  | probe => exact moved_probe hstate

end Scheduler

/-! ### All calls -/

open Scheduler

/-- What is known between two calls: the scheduler is as the last one announced. -/
structure Evaluated.Sound (e : Evaluated) : Prop where
  backoff : e.scheduler.probeBackoffMs ≤ maxProbeBackoffMs
  paused : ∀ last ∈ e.last, last.2.flushPaused = true → e.scheduler.state = .protected_
  announced : ∀ last ∈ e.last, last.2.nextProbeAtMs = e.scheduler.nextProbeAtMs
  probe : ∀ last ∈ e.last, e.scheduler.nextProbeAtMs ≤ last.1 + maxProbeBackoffMs
  fresh : e.last = none → e.scheduler.nextProbeAtMs = 0

theorem sound_start : Evaluated.start.Sound := ⟨initial_le_max, nofun, nofun, nofun, fun _ => rfl⟩

variable {e : Evaluated} {call : Call}

/-- The wait for the probe that a call announces. -/
theorem Evaluated.Sound.schedule_le (h : e.Sound) (horder : e.InOrder call) :
    (e.schedule call).nextProbeAtMs ≤ call.nowMs + maxProbeBackoffMs := by
  show (e.scheduler.transition call.nowMs call.sample).nextProbeAtMs ≤ _
  rcases (moved_transition e.scheduler call.nowMs call.sample).probe with hsame | hle
  · rw [hsame]
    cases hlast : e.last with
    | none =>
      rw [h.fresh hlast]
      exact Nat.zero_le _
    | some last =>
      have hprobe := h.probe last hlast
      have htime := horder last hlast
      omega
  · exact hle

theorem Evaluated.Sound.step (h : e.Sound) (horder : e.InOrder call) : (e.step call).Sound where
  backoff := (moved_transition e.scheduler call.nowMs call.sample).backoff h.backoff
  paused last hlast hpaused := by
    cases hlast
    exact of_decide_eq_true hpaused
  announced last hlast := by
    cases hlast
    rfl
  probe last hlast := by
    cases hlast
    exact h.schedule_le horder
  fresh hnone := absurd hnone nofun

/-- A critical sample comes while a probe is waiting. -/
def EarlyCritical (e : Evaluated) (call : Call) : Prop :=
  e.scheduler.state = .probe ∧ call.nowMs < e.scheduler.nextProbeAtMs ∧ call.sample.critical = true

instance (e : Evaluated) (call : Call) : Decidable (EarlyCritical e call) :=
  inferInstanceAs (Decidable (_ ∧ _ ∧ _))

/-- **A call gets what it is owed, unless it brings a critical sample to a waiting probe.** -/
theorem Evaluated.Sound.adaptive_call_iff (h : e.Sound) (horder : e.InOrder call) :
    Adaptive e call ↔ ¬ EarlyCritical e call := by
  have hmoved := moved_transition e.scheduler call.nowMs call.sample
  constructor
  · intro hadaptive hearly
    have hpaused := of_decide_eq_true (hadaptive.protects hearly.2.2)
    rw [hmoved.early ⟨hearly.1, hearly.2.1⟩, hearly.1] at hpaused
    cases hpaused
  · intro hearly
    refine ⟨?_, ?_, ⟨hmoved.backoff h.backoff, h.schedule_le horder⟩, hmoved.state⟩
    · intro hcritical
      apply decide_eq_true
      rcases hmoved.protects hcritical with hprotected | hprobe
      · exact hprotected
      · exact absurd ⟨hprobe.1, hprobe.2, hcritical⟩ hearly
    · intro last hlast hpaused hflushes
      rw [h.announced last hlast]
      exact hmoved.resumes (h.paused last hlast hpaused) (of_decide_eq_false hflushes)

/-- **Over a run whose times do not go back, every call gets what it is owed exactly when no critical
sample comes to a waiting probe.** -/
theorem adaptive_iff {calls : List Call} (horder : Along Evaluated.step Evaluated.InOrder .start calls) :
    Along Evaluated.step Adaptive .start calls ↔
      Along Evaluated.step (fun e call => ¬ EarlyCritical e call) .start calls :=
  along_iff (fun _ _ h hc => h.step hc) (fun _ _ h hc => h.adaptive_call_iff hc) sound_start horder

/-- A disk at 90%, and nothing to do from then on. -/
theorem adaptive_recovery :
    Along Evaluated.step Adaptive .start
      [⟨0, ⟨1, 90, 1⟩, 5000⟩, ⟨5000, ⟨1, 1, 1⟩, 5000⟩, ⟨10000, ⟨1, 1, 1⟩, 5000⟩, ⟨20000, ⟨1, 1, 1⟩, 5000⟩,
        ⟨30000, ⟨1, 1, 1⟩, 5000⟩] :=
  (adaptive_iff (by decide)).mpr (by decide)

/-- A disk at 90% a second after the probe began is answered with a schedule that flushes. -/
theorem not_adaptive :
    ¬ ∀ calls, Along Evaluated.step Evaluated.InOrder .start calls → Along Evaluated.step Adaptive .start calls := by
  intro h
  have hrun := h [⟨0, ⟨1, 90, 1⟩, 5000⟩, ⟨5000, ⟨1, 1, 1⟩, 5000⟩, ⟨6000, ⟨1, 90, 1⟩, 5000⟩] (by decide)
  exact absurd (hrun.2.2.1.protects rfl) (by decide)

end AgentObservability.Runtime
