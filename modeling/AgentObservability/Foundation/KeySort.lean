import Mathlib.Data.List.Sort

/-!
# Sorting by a key

`ORDER BY` of a column whose values are distinct. The sorted list is strictly
increasing in the key, so what it holds determines it.
-/

namespace AgentObservability.Foundation

universe u v

variable {α : Type u} {κ : Type v} [LinearOrder κ] (key : α → κ)

/-- `ORDER BY key`. -/
def sortByKey (l : List α) : List α := l.insertionSort fun a b => key a ≤ key b

variable {key} {l : List α}

theorem sortByKey_perm : (sortByKey key l).Perm l := List.perm_insertionSort _ _

@[simp] theorem mem_sortByKey {a : α} : a ∈ sortByKey key l ↔ a ∈ l := List.mem_insertionSort _

@[simp] theorem length_sortByKey : (sortByKey key l).length = l.length := List.length_insertionSort _ _

theorem sortByKey_sorted (l : List α) : (sortByKey key l).Pairwise fun a b => key a ≤ key b :=
  haveI : Std.Total fun a b : α => key a ≤ key b := ⟨fun a b => le_total (key a) (key b)⟩
  haveI : IsTrans α fun a b : α => key a ≤ key b := ⟨fun _ _ _ => le_trans⟩
  List.pairwise_insertionSort _ l

/-- Distinct keys make the order strict. -/
theorem sortByKey_strict (h : (l.map key).Nodup) : (sortByKey key l).Pairwise fun a b => key a < key b := by
  have hnodup : ((sortByKey key l).map key).Nodup := (sortByKey_perm.map key).nodup_iff.mpr h
  refine (sortByKey_sorted l).imp₂ (fun a b hle hne => lt_of_le_of_ne hle hne) ?_
  exact List.pairwise_map.mp hnodup

/-- **Strictly increasing lists with the same members are equal.** -/
theorem eq_of_strict {l₁ l₂ : List α} (h₁ : l₁.Pairwise fun a b => key a < key b)
    (h₂ : l₂.Pairwise fun a b => key a < key b) (h : ∀ a, a ∈ l₁ ↔ a ∈ l₂) : l₁ = l₂ :=
  haveI : Std.Irrefl fun a b : α => key a < key b := ⟨fun a => lt_irrefl (key a)⟩
  haveI : Std.Antisymm fun a b : α => key a < key b := ⟨fun _ _ hab hba => absurd hab (lt_asymm hba)⟩
  List.Pairwise.eq_of_mem_iff h₁ h₂ h

end AgentObservability.Foundation
