import AgentObservability.Foundation.Attempt
import Mathlib.Data.List.Basic

/-!
# Steps in place

A function that is given a mutable reference and fails half way leaves the value as
its steps so far made it. `inPlace` runs steps, each of which fails and changes
nothing or gives the next value, and returns the result with the value that is left.
It succeeds with what the fold of the steps computes (`inPlace_eq_ok_iff`). What is
left after a failure is the first value exactly when no step that changes it comes
before the first step that fails (`inPlace_keeps_iff`): the steps only ever add, so
no later step takes a change back.
-/

namespace AgentObservability.Foundation

universe u v

variable {ε : Type u} {σ : Type v}

/-- The steps one after another on a mutable value: the result, and the value left. -/
def inPlace : List (σ → Except ε σ) → σ → Except ε Unit × σ
  | [], value => (.ok (), value)
  | step :: steps, value =>
    match step value with
    | .error e => (.error e, value)
    | .ok value' => inPlace steps value'

variable {steps : List (σ → Except ε σ)} {value value' : σ}

theorem inPlace_cons_error {step : σ → Except ε σ} {e : ε} (h : step value = .error e) :
    inPlace (step :: steps) value = (.error e, value) := by
  rw [inPlace, h]

theorem inPlace_cons_ok {step : σ → Except ε σ} (h : step value = .ok value') :
    inPlace (step :: steps) value = inPlace steps value' := by
  rw [inPlace, h]

/-- A success is that of the fold, with its value. -/
theorem inPlace_eq_ok_iff : inPlace steps value = (.ok (), value') ↔
    steps.foldlM (fun value step => step value) value = .ok value' := by
  induction steps generalizing value with
  | nil => simp [inPlace]
  | cons step steps ih =>
    rw [List.foldlM_cons]
    cases h : step value with
    | error e => simp [inPlace_cons_error h]
    | ok next => rw [inPlace_cons_ok h, ih, ok_bind]

/-- A failure is that of the fold. -/
theorem inPlace_fst_eq_error_iff {e : ε} : (inPlace steps value).1 = .error e ↔
    steps.foldlM (fun value step => step value) value = .error e := by
  induction steps generalizing value with
  | nil => simp [inPlace, pure, Except.pure]
  | cons step steps ih =>
    rw [List.foldlM_cons]
    cases h : step value with
    | error e => simp [inPlace_cons_error h]
    | ok next => rw [inPlace_cons_ok h, ih, ok_bind]

/-- What every step keeps of the first value, the value left keeps. -/
theorem inPlace_induction (P : σ → Prop) (hstep : ∀ step ∈ steps, ∀ a b, step a = .ok b → P a → P b)
    (h : P value) : P (inPlace steps value).2 := by
  induction steps generalizing value with
  | nil => exact h
  | cons step steps ih =>
    cases hs : step value with
    | error e =>
      rw [inPlace_cons_error hs]
      exact h
    | ok next =>
      rw [inPlace_cons_ok hs]
      exact ih (fun step hm => hstep step (List.mem_cons_of_mem _ hm))
        (hstep step List.mem_cons_self value next hs h)

variable (le : σ → σ → Prop)

/-- **The value is left as it was exactly when every step that would change it comes after one
that fails**, where the steps go up in an order. -/
theorem inPlace_keeps_iff (hrefl : ∀ a, le a a) (htrans : ∀ {a b c}, le a b → le b c → le a c)
    (hantisymm : ∀ {a b}, le a b → le b a → a = b) (hup : ∀ step ∈ steps, ∀ a b, step a = .ok b → le a b) :
    (inPlace steps value).2 = value ↔
      ∀ before step after, steps = before ++ step :: after → (∃ next, step value = .ok next ∧ next ≠ value) →
        ∃ fails ∈ before, ∃ e, fails value = .error e := by
  induction steps with
  | nil => simp [inPlace]
  | cons first steps ih =>
    have hup' : ∀ step ∈ steps, ∀ a b, step a = .ok b → le a b := fun step hm =>
      hup step (List.mem_cons_of_mem _ hm)
    cases hfirst : first value with
    | error e =>
      rw [inPlace_cons_error hfirst]
      refine ⟨fun _ before step after hsplit hchange => ?_, fun _ => rfl⟩
      cases before with
      | nil =>
        cases hsplit
        obtain ⟨next, hnext, -⟩ := hchange
        rw [hfirst] at hnext
        cases hnext
      | cons head before =>
        cases hsplit
        exact ⟨first, List.mem_cons_self, e, hfirst⟩
    | ok next =>
      rw [inPlace_cons_ok hfirst]
      by_cases hnext : next = value
      · subst hnext
        rw [ih hup']
        constructor
        · intro h before step after hsplit hchange
          cases before with
          | nil =>
            cases hsplit
            obtain ⟨next', hnext', hne⟩ := hchange
            rw [hfirst] at hnext'
            cases hnext'
            exact absurd rfl hne
          | cons head before =>
            cases hsplit
            obtain ⟨fails, hm, hfails⟩ := h before step after rfl hchange
            exact ⟨fails, List.mem_cons_of_mem _ hm, hfails⟩
        · intro h before step after hsplit hchange
          obtain ⟨fails, hm, e, hfails⟩ := h (first :: before) step after (by rw [hsplit]; rfl) hchange
          rcases List.mem_cons.mp hm with rfl | hm
          · rw [hfirst] at hfails
            cases hfails
          · exact ⟨fails, hm, e, hfails⟩
      · -- The first step changed the value, and the steps after it stay above.
        constructor
        · intro hkept
          have habove : le next (inPlace steps next).2 :=
            inPlace_induction (le next) (fun step hm a b hab hle => htrans hle (hup' step hm a b hab)) (hrefl next)
          rw [hkept] at habove
          exact absurd (hantisymm habove (hup first List.mem_cons_self value next hfirst)) hnext
        · intro h
          obtain ⟨fails, hm, -⟩ := h [] first steps rfl ⟨next, hfirst, hnext⟩
          cases hm

end AgentObservability.Foundation
