import Mathlib.Algebra.BigOperators.Group.Multiset.Basic
import Mathlib.Logic.Relation

/-!
# Threads over a shared state

Any number of threads share a state. A step is one of one of the threads, which goes
on, ends or starts others, or an event beside them. The rules carry facts over any
order of the steps:

* `invariant_reaches` — an invariant that every step and every event keeps;
* `count_step` — a number of tokens, which the state knows and the threads hold;
* `Borne`, `borne_step` — a duty of the state, which is on one of the threads for as
  long as it lasts.
-/

namespace AgentObservability.Foundation.Threads

universe u v

/-- What threads do to a state that they share. -/
structure Machine (σ : Type u) (τ : Type v) where
  /-- A step of a thread, with what it goes on as and the threads that it starts. -/
  step : τ → σ → σ → Multiset τ → Prop
  /-- An event beside the threads, with the threads that it starts. -/
  event : σ → σ → Multiset τ → Prop

/-- The shared state and the threads that run. -/
structure Config (σ : Type u) (τ : Type v) where
  /-- The state. -/
  shared : σ
  /-- The threads. -/
  threads : Multiset τ

variable {σ : Type u} {τ : Type v}

/-- One step, of a thread or beside the threads. -/
inductive Step (m : Machine σ τ) : Config σ τ → Config σ τ → Prop
  /-- A thread takes its step. -/
  | thread {t : τ} {s s' : σ} {new rest : Multiset τ} : m.step t s s' new → Step m ⟨s, t ::ₘ rest⟩ ⟨s', new + rest⟩
  /-- Something happens. -/
  | event {s s' : σ} {new rest : Multiset τ} : m.event s s' new → Step m ⟨s, rest⟩ ⟨s', new + rest⟩

/-- What the steps come to, in any order. -/
def Reaches (m : Machine σ τ) : Config σ τ → Config σ τ → Prop := Relation.ReflTransGen (Step m)

variable {m : Machine σ τ}

section Runs

variable {t u : τ} {s s' : σ} {others : Multiset τ} {c : Config σ τ}

/-- A thread goes on. -/
theorem reaches_thread (h : m.step t s s' {u}) (hc : Reaches m ⟨s', u ::ₘ others⟩ c) :
    Reaches m ⟨s, t ::ₘ others⟩ c := .head (.thread h) hc

/-- A thread ends. -/
theorem reaches_ended (h : m.step t s s' 0) (hc : Reaches m ⟨s', others⟩ c) : Reaches m ⟨s, t ::ₘ others⟩ c :=
  .head (.thread h) (by rwa [zero_add])

/-- An event starts a thread. -/
theorem reaches_event (h : m.event s s' {u}) (hc : Reaches m ⟨s', u ::ₘ others⟩ c) : Reaches m ⟨s, others⟩ c :=
  .head (.event h) hc

end Runs

/-- **An invariant of every step and every event holds whatever the order.** -/
theorem invariant_reaches {I : Config σ τ → Prop}
    (hthread : ∀ t s s' new rest, m.step t s s' new → I ⟨s, t ::ₘ rest⟩ → I ⟨s', new + rest⟩)
    (hevent : ∀ s s' new rest, m.event s s' new → I ⟨s, rest⟩ → I ⟨s', new + rest⟩) {c c' : Config σ τ}
    (h : Reaches m c c') (hc : I c) : I c' := by
  induction h with
  | refl => exact hc
  | tail _ hstep ih =>
    cases hstep with
    | thread ht => exact hthread _ _ _ _ _ ht ih
    | event he => exact hevent _ _ _ _ he ih

/-- The tokens that the threads hold. -/
def count (weight : τ → ℕ) (threads : Multiset τ) : ℕ := (threads.map weight).sum

section Count

variable {weight : τ → ℕ} {t : τ} {new rest : Multiset τ}

@[simp] theorem count_cons : count weight (t ::ₘ rest) = weight t + count weight rest := by
  simp [count]

@[simp] theorem count_add : count weight (new + rest) = count weight new + count weight rest := by
  simp [count]

@[simp] theorem count_zero : count weight 0 = 0 := rfl

@[simp] theorem count_singleton : count weight {t} = weight t := by simp [count]

theorem le_count_of_mem (h : t ∈ rest) : weight t ≤ count weight rest := by
  obtain ⟨others, rfl⟩ := Multiset.exists_cons_of_mem h
  rw [count_cons]
  exact Nat.le_add_right _ _

theorem exists_of_count_pos (h : 0 < count weight rest) : ∃ u ∈ rest, 0 < weight u := by
  by_contra hn
  push Not at hn
  have hzero : count weight rest = 0 := by
    refine Multiset.sum_eq_zero fun n hm => ?_
    obtain ⟨u, hu, rfl⟩ := Multiset.mem_map.mp hm
    exact Nat.le_zero.mp (hn u hu)
  omega

end Count

/-- A duty of the state, as long as it lasts, is on a thread. -/
def Borne (duty : σ → Prop) (bears : σ → τ → Prop) (c : Config σ τ) : Prop :=
  duty c.shared → ∃ t ∈ c.threads, bears c.shared t

section Duties

variable {duty : σ → Prop} {bears : σ → τ → Prop} {s s' : σ} {t : τ} {new rest : Multiset τ}

/-- A duty stays on the threads that a step does not concern, and the thread of the step hands its duty on. -/
theorem borne_step (h : Borne duty bears ⟨s, t ::ₘ rest⟩) (hduty : duty s' → duty s)
    (hself : duty s' → bears s t → ∃ u ∈ new + rest, bears s' u)
    (hrest : duty s' → ∀ u ∈ rest, bears s u → bears s' u) : Borne duty bears ⟨s', new + rest⟩ := by
  intro hd
  obtain ⟨u, hu, hb⟩ := h (hduty hd)
  cases Multiset.mem_cons.mp hu with
  | inl heq =>
    subst heq
    exact hself hd hb
  | inr hmem => exact ⟨u, Multiset.mem_add.mpr (.inr hmem), hrest hd u hmem hb⟩

/-- A duty stays on the threads over an event that does not concern it. -/
theorem borne_event (h : Borne duty bears ⟨s, rest⟩) (hduty : duty s' → duty s)
    (hrest : duty s' → ∀ u ∈ rest, bears s u → bears s' u) : Borne duty bears ⟨s', new + rest⟩ := by
  intro hd
  obtain ⟨u, hu, hb⟩ := h (hduty hd)
  exact ⟨u, Multiset.mem_add.mpr (.inr hu), hrest hd u hu hb⟩

/-- A duty is on a thread that goes on or is started. -/
theorem borne_new (h : ∃ u ∈ new, bears s' u) : Borne duty bears ⟨s', new + rest⟩ := by
  obtain ⟨u, hu, hb⟩ := h
  exact fun _ => ⟨u, Multiset.mem_add.mpr (.inl hu), hb⟩

end Duties

end AgentObservability.Foundation.Threads
