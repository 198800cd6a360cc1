import AgentObservability.Foundation.Attempt
import Mathlib.Tactic.Cases
import Mathlib.Logic.Function.Basic
import Mathlib.Tactic.Choose

/-!
# Partial joins

A merge that fails on a conflict and otherwise says all that its two sides say.
There is an order by what a value says, and a relation between values without a
conflict; the merge goes through for such values and is their least upper bound
(`IsPartialJoin`). Then a join of many values does not depend on the order in
which they are merged: it is their least upper bound again, and it is compatible
with what each of them is compatible with (`JoinOf`). So values that are
compatible two by two have a join.
-/

namespace AgentObservability.Foundation

universe u v w

variable {α : Type u} {ε : Type v} {le compatible : α → α → Prop} {merge : α → α → Except ε α}

/-- `merge` computes the joins of compatible values. -/
structure IsPartialJoin (le compatible : α → α → Prop) (merge : α → α → Except ε α) : Prop where
  /-- A value says what it says. -/
  refl : ∀ a, le a a
  /-- A value has no conflict with itself. -/
  self : ∀ a, compatible a a
  /-- A conflict is mutual. -/
  symm : ∀ {a b}, compatible a b → compatible b a
  /-- Compatible values merge, and no others. -/
  isOk_iff : ∀ a b, (∃ c, merge a b = .ok c) ↔ compatible a b
  /-- A merge is a least upper bound. -/
  le_iff : ∀ {a b c}, merge a b = .ok c → ∀ u, le c u ↔ le a u ∧ le b u
  /-- A merge adds no conflict and hides none. -/
  compatible_iff : ∀ {a b c}, merge a b = .ok c → ∀ d, compatible c d ↔ compatible a d ∧ compatible b d

/-- `c` is the join of the values that satisfy `p`. -/
structure JoinOf (le compatible : α → α → Prop) (p : α → Prop) (c : α) : Prop where
  /-- It is their least upper bound. -/
  le_iff : ∀ u, le c u ↔ ∀ a, p a → le a u
  /-- It has the conflicts that they have. -/
  compatible_iff : ∀ d, compatible c d ↔ ∀ a, p a → compatible a d

section Joins

variable {p q : α → Prop} {a b c : α}

theorem joinOf_eq (a : α) : JoinOf le compatible (· = a) a :=
  ⟨fun _ => ⟨fun h _ hx => hx ▸ h, fun h => h a rfl⟩, fun _ => ⟨fun h _ hx => hx ▸ h, fun h => h a rfl⟩⟩

theorem JoinOf.congr (h : JoinOf le compatible p a) (hpq : ∀ x, p x ↔ q x) : JoinOf le compatible q a :=
  ⟨fun u => by simp only [← hpq, h.le_iff], fun d => by simp only [← hpq, h.compatible_iff]⟩

/-- The merge of two joins is the join of all their values. -/
theorem JoinOf.merged (hm : IsPartialJoin le compatible merge) (ha : JoinOf le compatible p a)
    (hb : JoinOf le compatible q b) (h : merge a b = .ok c) : JoinOf le compatible (fun x => p x ∨ q x) c where
  le_iff u := by simp only [hm.le_iff h, ha.le_iff, hb.le_iff, or_imp, forall_and]
  compatible_iff d := by simp only [hm.compatible_iff h, ha.compatible_iff, hb.compatible_iff, or_imp, forall_and]

/-- **A join merges with what all its values are compatible with.** -/
theorem JoinOf.exists_merge (hm : IsPartialJoin le compatible merge) (ha : JoinOf le compatible p a)
    (h : ∀ x, p x → compatible x b) : ∃ c, merge a b = .ok c :=
  (hm.isOk_iff a b).mpr ((ha.compatible_iff b).mpr h)

/-- What merges with a join is compatible with all its values. -/
theorem JoinOf.compatible_of_merge (hm : IsPartialJoin le compatible merge) (ha : JoinOf le compatible p a)
    (h : merge a b = .ok c) {x : α} (hx : p x) : compatible x b :=
  (ha.compatible_iff b).mp ((hm.isOk_iff a b).mp ⟨c, h⟩) x hx

/-- Two joins of the same values say the same. -/
theorem JoinOf.le_of_imp (hrefl : ∀ a, le a a) (ha : JoinOf le compatible p a) (hb : JoinOf le compatible q b)
    (h : ∀ x, p x → q x) : le a b :=
  (ha.le_iff b).mpr fun x hx => (hb.le_iff b).mp (hrefl b) x (h x hx)

end Joins

/-! ### Records of values -/

/-- **A record is merged field by field.** -/
theorem IsPartialJoin.fields {ρ : Type w} {ι : Type*} {get : ρ → ι → α} (hget : Function.Surjective get)
    {merge : ι → α → α → Except ε α} (h : ∀ i, IsPartialJoin le compatible (merge i)) {mergeAll : ρ → ρ → Except ε ρ}
    (hm : ∀ a b c, mergeAll a b = .ok c ↔ ∀ i, merge i (get a i) (get b i) = .ok (get c i)) :
    IsPartialJoin (fun a b => ∀ i, le (get a i) (get b i)) (fun a b => ∀ i, compatible (get a i) (get b i))
      mergeAll where
  refl a i := (h i).refl _
  self a i := (h i).self _
  symm hab i := (h i).symm (hab i)
  isOk_iff a b := by
    constructor
    · rintro ⟨c, hc⟩ i
      exact ((h i).isOk_iff _ _).mp ⟨_, (hm a b c).mp hc i⟩
    · intro hab
      have hex : ∀ i, ∃ c, merge i (get a i) (get b i) = .ok c := fun i => ((h i).isOk_iff _ _).mpr (hab i)
      choose f hf using hex
      obtain ⟨c, hc⟩ := hget f
      exact ⟨c, (hm a b c).mpr fun i => by rw [hc]; exact hf i⟩
  le_iff hc u := by simp only [fun i => (h i).le_iff ((hm _ _ _).mp hc i) (get u i), forall_and]
  compatible_iff hc d := by simp only [fun i => (h i).compatible_iff ((hm _ _ _).mp hc i) (get d i), forall_and]

end AgentObservability.Foundation
