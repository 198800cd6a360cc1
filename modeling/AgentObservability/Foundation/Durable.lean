import AgentObservability.Foundation.Attempt

/-!
# Programs with durable effects

A program reads the state of a device and acts on it with mutations, each of
which is atomic: it is refused, or its effect is there at once. The caller of a
mutation that is there may still be told of a failure, a mutation may fail
without effect, and the process may die between any two effects.

* `Ends` is how a program can end under such failures, `exec` how it ends without
  any (`ends_exec`).
* `Keeps` is the precondition for an invariant to hold at every instant and for a
  postcondition to hold of what the program returns (`keeps_ends`); `keeps_bind`
  composes it.
* `Reaches` is a run of programs, each ending in one of its ways, and
  `invariant_reaches` carries an invariant over it.
-/

namespace AgentObservability.Foundation.Durable

universe u v w x

/-- What a device makes of its mutations. -/
structure Device (σ : Type u) (μ : Type v) (ε : Type w) where
  /-- The state after a mutation, unless it is refused. -/
  effect : μ → σ → Except ε σ
  /-- What the caller of a mutation is told when it is there. -/
  confirm : μ → σ → Except ε Unit
  /-- What the caller of a mutation is told when the device fails. -/
  fault : ε

/-- A program that returns a value or an error. -/
inductive Prog (σ : Type u) (μ : Type v) (ε : Type w) (α : Type x) where
  /-- It returns. -/
  | done (result : Except ε α)
  /-- It reads the state. -/
  | inspect (next : σ → Prog σ μ ε α)
  /-- It asks for a mutation. -/
  | act (mutation : μ) (next : Except ε Unit → Prog σ μ ε α)
  /-- It panics. -/
  | abort

/-- How a program ended. -/
inductive Outcome (ε : Type w) (α : Type x) where
  /-- It returned. -/
  | returned (result : Except ε α)
  /-- Its process died. -/
  | crashed

namespace Prog

variable {σ : Type u} {μ : Type v} {ε : Type w} {α β : Type x}

/-- One program after another. -/
def bind : Prog σ μ ε α → (α → Prog σ μ ε β) → Prog σ μ ε β
  | .done (.ok a), f => f a
  | .done (.error e), _ => .done (.error e)
  | .inspect next, f => .inspect fun s => (next s).bind f
  | .act mutation next, f => .act mutation fun r => (next r).bind f
  | .abort, _ => .abort

instance : Monad (Prog σ μ ε) where
  pure a := .done (.ok a)
  bind := bind

/-- Returns an error. -/
def throw (e : ε) : Prog σ μ ε α := .done (.error e)

/-- A computation that reads nothing. -/
def lift (result : Except ε α) : Prog σ μ ε α := .done result

/-- A computation on the state. -/
def read (f : σ → Except ε α) : Prog σ μ ε α := .inspect fun s => .done (f s)

/-- A mutation, whose failure ends the program. -/
def mutate (mutation : μ) : Prog σ μ ε Unit := .act mutation .done

/-- A mutation, whose failure the program looks at. -/
def attempt (mutation : μ) : Prog σ μ ε (Except ε Unit) := .act mutation fun r => .done (.ok r)

/-- The program goes on to a mutation. -/
def Asks : Prog σ μ ε α → σ → Prop
  | .done _, _ => False
  | .inspect next, s => Asks (next s) s
  | .act _ _, _ => True
  | .abort, _ => False

theorem asks_lift_bind {r : Except ε α} {g : α → Prog σ μ ε β} {s : σ} :
    Asks (lift r >>= g) s ↔ ∃ a, r = .ok a ∧ Asks (g a) s := by
  constructor
  · intro h
    cases r with
    | ok a => exact ⟨a, rfl, h⟩
    | error e => exact h.elim
  · rintro ⟨a, rfl, h⟩
    exact h

theorem asks_read_bind {f : σ → Except ε α} {g : α → Prog σ μ ε β} {s : σ} :
    Asks (read f >>= g) s ↔ ∃ a, f s = .ok a ∧ Asks (g a) s :=
  asks_lift_bind (r := f s)

theorem asks_mutate_bind {β : Type} {mutation : μ} {g : Unit → Prog σ μ ε β} {s : σ} : Asks (mutate mutation >>= g) s :=
  trivial

theorem not_asks_throw (e : ε) (s : σ) : ¬ Asks (throw e : Prog σ μ ε α) s := id

theorem not_asks_abort (s : σ) : ¬ Asks (.abort : Prog σ μ ε α) s := id

attribute [irreducible] Asks

end Prog

open Prog

section Semantics

variable {σ : Type u} {μ : Type v} {ε : Type w} {α β : Type x} (dev : Device σ μ ε)

/-- How a program can end. -/
inductive Ends : Prog σ μ ε α → σ → σ → Outcome ε α → Prop
  /-- It returns. -/
  | done {result : Except ε α} {s : σ} : Ends (.done result) s s (.returned result)
  /-- Its process dies here. -/
  | crashed {p : Prog σ μ ε α} {s : σ} : Ends p s s .crashed
  /-- It reads. -/
  | inspect {next : σ → Prog σ μ ε α} {s t : σ} {o : Outcome ε α} : Ends (next s) s t o → Ends (.inspect next) s t o
  /-- Its mutation is refused. -/
  | refused {mutation : μ} {next : Except ε Unit → Prog σ μ ε α} {s t : σ} {e : ε} {o : Outcome ε α} :
      dev.effect mutation s = .error e → Ends (next (.error e)) s t o → Ends (.act mutation next) s t o
  /-- Its mutation is there. -/
  | applied {mutation : μ} {next : Except ε Unit → Prog σ μ ε α} {s s' t : σ} {o : Outcome ε α} :
      dev.effect mutation s = .ok s' → Ends (next (dev.confirm mutation s')) s' t o → Ends (.act mutation next) s t o
  /-- Its mutation fails. -/
  | failed {mutation : μ} {next : Except ε Unit → Prog σ μ ε α} {s t : σ} {o : Outcome ε α} :
      Ends (next (.error dev.fault)) s t o → Ends (.act mutation next) s t o
  /-- Its mutation is there, and the device fails all the same. -/
  | failedApplied {mutation : μ} {next : Except ε Unit → Prog σ μ ε α} {s s' t : σ} {o : Outcome ε α} :
      dev.effect mutation s = .ok s' → Ends (next (.error dev.fault)) s' t o → Ends (.act mutation next) s t o

/-- How a program ends when nothing fails. -/
@[grind =] def exec : Prog σ μ ε α → σ → σ × Outcome ε α
  | .done result, s => (s, .returned result)
  | .inspect next, s => exec (next s) s
  | .act mutation next, s =>
    match dev.effect mutation s with
    | .error e => exec (next (.error e)) s
    | .ok s' => exec (next (dev.confirm mutation s')) s'
  | .abort, s => (s, .crashed)

/-- An undisturbed run is a run. -/
theorem ends_exec (p : Prog σ μ ε α) : ∀ s, Ends dev p s (exec dev p s).1 (exec dev p s).2 := by
  induction p with
  | done result => exact fun s => .done
  | inspect next ih => exact fun s => .inspect (ih s s)
  | act mutation next ih =>
    intro s
    rw [exec]
    cases he : dev.effect mutation s with
    | error e => exact .refused he (ih _ s)
    | ok s' => exact .applied he (ih _ s')
  | abort => exact fun s => .crashed

variable {dev}

@[simp] theorem exec_pure (a : α) (s : σ) : exec dev (pure a : Prog σ μ ε α) s = (s, .returned (.ok a)) := rfl

@[simp] theorem exec_throw (e : ε) (s : σ) : exec dev (throw e : Prog σ μ ε α) s = (s, .returned (.error e)) := rfl

/-- One undisturbed program after another. -/
theorem exec_bind (p : Prog σ μ ε α) (f : α → Prog σ μ ε β) : ∀ s, exec dev (p >>= f) s =
    match exec dev p s with
    | (t, .returned (.ok a)) => exec dev (f a) t
    | (t, .returned (.error e)) => (t, .returned (.error e))
    | (t, .crashed) => (t, .crashed) := by
  induction p with
  | done result =>
    intro s
    cases result with
    | ok a => rfl
    | error e => rfl
  | inspect next ih => exact fun s => ih s s
  | act mutation next ih =>
    intro s
    change exec dev (.act mutation fun r => (next r).bind f) s = _
    simp only [exec]
    cases dev.effect mutation s with
    | error e => exact ih _ s
    | ok s' => exact ih _ s'
  | abort => exact fun s => rfl

theorem exec_bind_ok {p : Prog σ μ ε α} {f : α → Prog σ μ ε β} {s t : σ} {a : α}
    (h : exec dev p s = (t, .returned (.ok a))) : exec dev (p >>= f) s = exec dev (f a) t := by
  rw [exec_bind, h]

theorem exec_bind_error {p : Prog σ μ ε α} {f : α → Prog σ μ ε β} {s t : σ} {e : ε}
    (h : exec dev p s = (t, .returned (.error e))) : exec dev (p >>= f) s = (t, .returned (.error e)) := by
  rw [exec_bind, h]

/-- A run of a program whose beginning nothing disturbs. -/
theorem ends_bind_ok {f : α → Prog σ μ ε β} {t u : σ} {a : α} {o : Outcome ε β} (hf : Ends dev (f a) t u o) :
    ∀ (p : Prog σ μ ε α) (s : σ), exec dev p s = (t, .returned (.ok a)) → Ends dev (p >>= f) s u o := by
  intro p
  induction p with
  | done result =>
    intro s h
    cases h
    exact hf
  | inspect next ih => exact fun s h => .inspect (ih s s h)
  | act mutation next ih =>
    intro s h
    rw [exec] at h
    cases he : dev.effect mutation s with
    | error e => exact .refused he (ih _ s (by simpa only [he] using h))
    | ok s' => exact .applied he (ih _ s' (by simpa only [he] using h))
  | abort =>
    intro s h
    cases h

theorem exec_lift_ok {r : Except ε α} {a : α} (h : r = .ok a) (s : σ) :
    exec dev (lift r : Prog σ μ ε α) s = (s, .returned (.ok a)) := by rw [h]; rfl

theorem exec_read_ok {f : σ → Except ε α} {s : σ} {a : α} (h : f s = .ok a) :
    exec dev (read f : Prog σ μ ε α) s = (s, .returned (.ok a)) := by
  simp only [Prog.read, exec, h]

theorem exec_read_error {f : σ → Except ε α} {s : σ} {e : ε} (h : f s = .error e) :
    exec dev (read f : Prog σ μ ε α) s = (s, .returned (.error e)) := by
  simp only [Prog.read, exec, h]

theorem exec_mutate_ok {mutation : μ} {s s' : σ} (he : dev.effect mutation s = .ok s')
    (hc : dev.confirm mutation s' = .ok ()) : exec dev (mutate mutation) s = (s', .returned (.ok ())) := by
  simp only [mutate, exec, he, hc]

theorem exec_attempt_ok {mutation : μ} {s s' : σ} (he : dev.effect mutation s = .ok s')
    (hc : dev.confirm mutation s' = .ok ()) : exec dev (attempt mutation) s = (s', .returned (.ok (.ok ()))) := by
  simp only [attempt, exec, he, hc]

theorem exec_attempt_error {mutation : μ} {s s' : σ} {e : ε} (he : dev.effect mutation s = .ok s')
    (hc : dev.confirm mutation s' = .error e) :
    exec dev (attempt mutation) s = (s', .returned (.ok (.error e))) := by
  simp only [attempt, exec, he, hc]

/-! ### Invariants -/

variable (dev)

/-- The precondition for `I` to hold at every instant and `R` of what the program returns. A caller may be told
anything. -/
def Keeps (I : σ → Prop) (R : σ → α → Prop) : Prog σ μ ε α → σ → Prop
  | .done (.ok a), s => I s ∧ R s a
  | .done (.error _), s => I s
  | .inspect next, s => Keeps I R (next s) s
  | .act mutation next, s =>
    I s ∧ (∀ e, Keeps I R (next (.error e)) s) ∧ ∀ s', dev.effect mutation s = .ok s' → ∀ r, Keeps I R (next r) s'
  | .abort, s => I s

variable {dev} {I I' : σ → Prop} {R R' : σ → α → Prop}

/-- The invariant holds at the beginning. -/
theorem Keeps.start {p : Prog σ μ ε α} : ∀ {s}, Keeps dev I R p s → I s := by
  induction p with
  | done result =>
    intro s h
    cases result with
    | ok a => exact h.1
    | error e => exact h
  | inspect next ih => exact fun {s} h => ih s h
  | act mutation next ih => exact fun h => h.1
  | abort => exact fun h => h

/-- **The invariant holds however the program ends, and the postcondition where it returns a value.** -/
theorem keeps_ends {p : Prog σ μ ε α} {s t : σ} {o : Outcome ε α} (h : Ends dev p s t o) :
    Keeps dev I R p s → I t ∧ ∀ a, o = .returned (.ok a) → R t a := by
  induction h with
  | @done result s =>
    intro hk
    cases result with
    | ok a => exact ⟨hk.1, fun b hb => by cases hb; exact hk.2⟩
    | error e => exact ⟨hk, nofun⟩
  | crashed => exact fun hk => ⟨hk.start, nofun⟩
  | inspect _ ih => exact fun hk => ih hk
  | refused _ _ ih => exact fun hk => ih (hk.2.1 _)
  | applied he _ ih => exact fun hk => ih (hk.2.2 _ he _)
  | failed _ ih => exact fun hk => ih (hk.2.1 _)
  | failedApplied he _ ih => exact fun hk => ih (hk.2.2 _ he _)

theorem keeps_bind {p : Prog σ μ ε α} {f : α → Prog σ μ ε β} {R : σ → β → Prop} :
    ∀ {s}, Keeps dev I (fun t a => Keeps dev I R (f a) t) p s → Keeps dev I R (p >>= f) s := by
  induction p with
  | done result =>
    intro s h
    cases result with
    | ok a => exact h.2
    | error e => exact h
  | inspect next ih => exact fun {s} h => ih s h
  | act mutation next ih =>
    intro s h
    exact ⟨h.1, fun e => ih _ (h.2.1 e), fun s' he r => ih r (h.2.2 s' he r)⟩
  | abort => exact fun h => h

theorem Keeps.mono (hI : ∀ t, I t → I' t) (hR : ∀ t a, R t a → R' t a) {p : Prog σ μ ε α} :
    ∀ {s}, Keeps dev I R p s → Keeps dev I' R' p s := by
  induction p with
  | done result =>
    intro s h
    cases result with
    | ok a => exact ⟨hI s h.1, hR s a h.2⟩
    | error e => exact hI s h
  | inspect next ih => exact fun {s} h => ih s h
  | act mutation next ih =>
    intro s h
    exact ⟨hI s h.1, fun e => ih _ (h.2.1 e), fun s' he r => ih r (h.2.2 s' he r)⟩
  | abort => exact fun h => hI _ h

/-- The invariant is part of the postcondition. -/
theorem Keeps.and_invariant {p : Prog σ μ ε α} : ∀ {s}, Keeps dev I R p s → Keeps dev I (fun t a => I t ∧ R t a) p s := by
  induction p with
  | done result =>
    intro s h
    cases result with
    | ok a => exact ⟨h.1, h⟩
    | error e => exact h
  | inspect next ih => exact fun {s} h => ih s h
  | act mutation next ih =>
    intro s h
    exact ⟨h.1, fun e => ih _ (h.2.1 e), fun s' he r => ih r (h.2.2 s' he r)⟩
  | abort => exact fun h => h

theorem keeps_lift {result : Except ε α} {s : σ} (hI : I s) (hR : ∀ a, result = .ok a → R s a) :
    Keeps dev I R (lift result) s := by
  cases result with
  | ok a => exact ⟨hI, hR a rfl⟩
  | error e => exact hI

theorem keeps_read {f : σ → Except ε α} {s : σ} (hI : I s) (hR : ∀ a, f s = .ok a → R s a) :
    Keeps dev I R (read f) s := keeps_lift hI hR

theorem keeps_pure {a : α} {s : σ} (hI : I s) (hR : R s a) : Keeps dev I R (pure a) s := ⟨hI, hR⟩

theorem keeps_throw {e : ε} {s : σ} (hI : I s) : Keeps dev I R (throw e) s := hI

theorem keeps_abort {s : σ} (hI : I s) : Keeps dev I R .abort s := hI

theorem keeps_mutate {mutation : μ} {R : σ → Unit → Prop} {s : σ} (hI : I s)
    (h : ∀ s', dev.effect mutation s = .ok s' → I s' ∧ R s' ()) : Keeps dev I R (mutate mutation) s :=
  ⟨hI, fun _ => hI, fun s' he _ => keeps_lift (h s' he).1 fun _ _ => (h s' he).2⟩

theorem keeps_attempt {mutation : μ} {R : σ → Except ε Unit → Prop} {s : σ} (hI : I s) (hR : ∀ e, R s (.error e))
    (h : ∀ s', dev.effect mutation s = .ok s' → I s' ∧ ∀ r, R s' r) : Keeps dev I R (attempt mutation) s :=
  ⟨hI, fun e => ⟨hI, hR e⟩, fun s' he r => ⟨(h s' he).1, (h s' he).2 r⟩⟩

attribute [irreducible] Keeps

end Semantics

/-! ### Runs -/

section Runs

variable {σ : Type u} {μ : Type v} {ε : Type w} {α κ : Type x} (dev : Device σ μ ε)

/-- A run of calls that are admitted where they are made, each ending in one of its ways. -/
inductive Reaches (program : κ → Prog σ μ ε α) (admitted : σ → κ → Prop) : σ → σ → Prop
  /-- No call. -/
  | refl (s : σ) : Reaches program admitted s s
  /-- One more call. -/
  | call {s t u : σ} {k : κ} {o : Outcome ε α} : Reaches program admitted s t → admitted t k →
      Ends dev (program k) t u o → Reaches program admitted s u

variable {dev} {program : κ → Prog σ μ ε α} {admitted : σ → κ → Prop} {I : σ → Prop}

/-- **What every admitted call keeps at every instant, every run keeps.** -/
theorem invariant_reaches (hcall : ∀ s k, I s → admitted s k → Keeps dev I (fun _ _ => True) (program k) s) {s t : σ}
    (h : Reaches dev program admitted s t) (hs : I s) : I t := by
  induction h with
  | refl => exact hs
  | call _ ha he ih => exact (keeps_ends he (hcall _ _ ih ha)).1

end Runs

end AgentObservability.Foundation.Durable
