import Mathlib.Data.Nat.Notation
import Mathlib.Logic.Basic

/-!
# Computations that may fail

Fallible functions return `Except`. This module has the steps they are built
from, each with the lemma that inverts its success: `require` for a check,
`ofOption` for a lookup that must find something, `>>=` for one step after
another, and a fold of steps along a list.
-/

namespace AgentObservability.Foundation

universe u v w

section Steps

variable {ε : Type u} {α : Type v} {β : Type v}

/-- Fails with `e` unless `c` holds. -/
def require (c : Prop) [Decidable c] (e : ε) : Except ε Unit := if c then .ok () else .error e

/-- Fails with `e` where there is no value. -/
def ofOption (e : ε) : Option α → Except ε α
  | some a => .ok a
  | none => .error e

@[simp] theorem require_eq_ok {c : Prop} [Decidable c] {e : ε} {u : Unit} : require c e = .ok u ↔ c := by
  unfold require
  split <;> simp_all

@[simp] theorem ofOption_eq_ok {e : ε} {o : Option α} {a : α} : ofOption e o = .ok a ↔ o = some a := by
  cases o <;> simp [ofOption]

theorem require_true {c : Prop} [Decidable c] {e : ε} (h : c) : require c e = .ok () := if_pos h

theorem require_false {c : Prop} [Decidable c] {e : ε} (h : ¬ c) : require c e = .error e := if_neg h

/-- Two steps succeed when the first does and the second does on its result. -/
theorem bind_eq_ok {x : Except ε α} {f : α → Except ε β} {b : β} :
    (x >>= f) = .ok b ↔ ∃ a, x = .ok a ∧ f a = .ok b := by
  cases x <;> simp [bind, Except.bind]

@[simp] theorem ok_bind {a : α} {f : α → Except ε β} : (Except.ok a >>= f) = f a := rfl

@[simp] theorem error_bind {e : ε} {f : α → Except ε β} : (Except.error e >>= f) = .error e := rfl

theorem map_eq_ok {x : Except ε α} {f : α → β} {b : β} : x.map f = .ok b ↔ ∃ a, x = .ok a ∧ f a = b := by
  cases x <;> simp [Except.map]

@[simp] theorem pure_eq_ok {a b : α} : (pure a : Except ε α) = .ok b ↔ a = b :=
  ⟨fun h => by cases h; rfl, fun h => h ▸ rfl⟩

/-- Naming an error differently changes no success. -/
@[simp] theorem mapError_ok_iff {δ : Type w} {x : Except ε α} {f : ε → δ} {a : α} :
    x.mapError f = .ok a ↔ x = .ok a := by
  cases x with
  | error e => exact ⟨nofun, nofun⟩
  | ok b => exact ⟨fun h => by cases h; rfl, fun h => by cases h; rfl⟩

theorem mapError_ok {δ : Type w} {f : ε → δ} {a : α} : (Except.ok a : Except ε α).mapError f = .ok a := rfl

/-- A loop over checks succeeds when every check does. -/
theorem forM_ok_iff {f : β → Except ε PUnit} {xs : List β} : xs.forM f = .ok ⟨⟩ ↔ ∀ x ∈ xs, f x = .ok ⟨⟩ := by
  induction xs with
  | nil => simp [pure, Except.pure]
  | cons x xs ih =>
    rw [List.forM, bind_eq_ok, List.forall_mem_cons, ← ih]
    exact ⟨fun ⟨⟨⟩, h, hs⟩ => ⟨h, hs⟩, fun ⟨h, hs⟩ => ⟨⟨⟩, h, hs⟩⟩

end Steps

/-- What every step of a fold preserves, the whole fold preserves. -/
theorem foldlM_ok_induction {ε : Type u} {α : Type w} {β : Type v} {f : β → α → Except ε β} (P : β → Prop)
    {xs : List α} (step : ∀ x ∈ xs, ∀ b b', f b x = .ok b' → P b → P b') :
    ∀ {b b' : β}, xs.foldlM f b = .ok b' → P b → P b' := by
  induction xs with
  | nil => intro b b' h hb; cases h; exact hb
  | cons x xs ih =>
    intro b b' h hb
    rw [List.foldlM_cons] at h
    obtain ⟨c, hc, h⟩ := bind_eq_ok.mp h
    exact ih (fun y hy => step y (List.mem_cons_of_mem _ hy)) h (step x List.mem_cons_self b c hc hb)

end AgentObservability.Foundation
