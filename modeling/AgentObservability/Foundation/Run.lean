import Mathlib.Data.Nat.Notation
import Mathlib.Order.Defs.PartialOrder

/-!
# Runs of a deterministic system

A system takes one step for each label of a list. `After` is where the labels
lead, `Along` says that a condition holds of every label in the state it is
taken in, and the rules carry what one step does over to runs:

* `invariant_after` — an invariant that every admitted step keeps;
* `le_after` — a counter that no admitted step lowers;
* `eq_of_counter_eq` — a view that changes only where a counter rises, between
  two states of a run in which the counter is the same.
-/

namespace AgentObservability.Foundation

universe u v w

variable {σ : Type u} {α : Type v} (step : σ → α → σ)

/-- Where the labels lead from a state. -/
def After (s : σ) (labels : List α) : σ := labels.foldl step s

/-- Every label of the list meets the condition in the state in which it is taken. -/
def Along (C : σ → α → Prop) : σ → List α → Prop
  | _, [] => True
  | s, a :: labels => C s a ∧ Along C (step s a) labels

instance decidableAlong (C : σ → α → Prop) [∀ s a, Decidable (C s a)] :
    ∀ (s : σ) (labels : List α), Decidable (Along step C s labels)
  | _, [] => .isTrue trivial
  | s, a :: labels =>
    have := decidableAlong C (step s a) labels
    inferInstanceAs (Decidable (C s a ∧ Along step C (step s a) labels))

@[simp] theorem after_nil (s : σ) : After step s [] = s := rfl

@[simp] theorem after_cons (s : σ) (a : α) (labels : List α) :
    After step s (a :: labels) = After step (step s a) labels := rfl

theorem after_append (s : σ) (as bs : List α) : After step s (as ++ bs) = After step (After step s as) bs :=
  List.foldl_append

variable {step} {C : σ → α → Prop} {s : σ}

theorem along_append {as bs : List α} :
    Along step C s (as ++ bs) ↔ Along step C s as ∧ Along step C (After step s as) bs := by
  induction as generalizing s with
  | nil => simp [Along]
  | cons a as ih => simp [Along, ih, and_assoc]

theorem Along.mono {D : σ → α → Prop} (h : ∀ s a, C s a → D s a) {labels : List α} :
    ∀ {s : σ}, Along step C s labels → Along step D s labels := by
  induction labels with
  | nil => exact fun _ => trivial
  | cons a labels ih => exact fun hc => ⟨h _ _ hc.1, ih hc.2⟩

theorem along_true (labels : List α) : ∀ {s : σ}, Along step (fun _ _ => True) s labels := by
  induction labels with
  | nil => exact trivial
  | cons a labels ih => exact ⟨trivial, ih⟩

/-- **An invariant of every admitted step is an invariant of every admitted run.** -/
theorem invariant_after {I : σ → Prop} (hstep : ∀ s a, I s → C s a → I (step s a)) {labels : List α} :
    ∀ {s : σ}, I s → Along step C s labels → I (After step s labels) := by
  induction labels with
  | nil => exact fun h _ => h
  | cons a labels ih => exact fun h hc => ih (hstep _ a h hc.1) hc.2

/-- Two conditions that say the same of every admitted step say the same of every admitted run. -/
theorem along_iff {I : σ → Prop} {P Q : σ → α → Prop} (hstep : ∀ s a, I s → C s a → I (step s a))
    (hiff : ∀ s a, I s → C s a → (P s a ↔ Q s a)) {labels : List α} :
    ∀ {s : σ}, I s → Along step C s labels → (Along step P s labels ↔ Along step Q s labels) := by
  induction labels with
  | nil => exact fun _ _ => Iff.rfl
  | cons a labels ih => exact fun h hc => and_congr (hiff _ a h hc.1) (ih (hstep _ a h hc.1) hc.2)

section Counter

variable {β : Type w} (counter : σ → ℕ) (view : σ → β) {I : σ → Prop}

/-- A counter that no admitted step lowers is not lowered by a run. -/
theorem le_after (hI : ∀ s a, I s → C s a → I (step s a))
    (hle : ∀ s a, I s → C s a → counter s ≤ counter (step s a)) {labels : List α} :
    ∀ {s : σ}, I s → Along step C s labels → counter s ≤ counter (After step s labels) := by
  induction labels with
  | nil => exact fun _ _ => Nat.le_refl _
  | cons a labels ih => exact fun h hc => Nat.le_trans (hle _ a h hc.1) (ih (hI _ a h hc.1) hc.2)

/-- **Where a view changes only as a counter rises, equal counters mean equal views.** -/
theorem eq_of_counter_eq (hI : ∀ s a, I s → C s a → I (step s a))
    (hle : ∀ s a, I s → C s a → counter s ≤ counter (step s a))
    (hview : ∀ s a, I s → C s a → counter (step s a) = counter s → view (step s a) = view s) {labels : List α} :
    ∀ {s : σ}, I s → Along step C s labels → counter (After step s labels) = counter s →
      view (After step s labels) = view s := by
  induction labels with
  | nil => exact fun _ _ _ => rfl
  | cons a labels ih =>
    intro s h hc heq
    have hfirst := hle _ a h hc.1
    have hrest : counter (step s a) ≤ counter (After step (step s a) labels) := le_after counter hI hle (hI _ a h hc.1) hc.2
    rw [after_cons] at heq ⊢
    rw [ih (hI _ a h hc.1) hc.2 (by omega)]
    exact hview _ a h hc.1 (by omega)

end Counter

end AgentObservability.Foundation
