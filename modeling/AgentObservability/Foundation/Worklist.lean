import Mathlib.Data.List.Nodup
import Mathlib.Data.List.Perm.Subperm
import Mathlib.Data.Set.Basic

/-!
# Worklists over a tree

A walk over a finite tree that takes the first pending node, visits it and puts its
children in front. `Frontier` is the invariant of such a walk, `Frontier.visit` its
step. Nothing is visited twice or before its parent, there are never more nodes in the
walk than in the tree (`Frontier.length_le`), and when nothing is pending the visited
nodes are all of them, in the order of the tree (`Frontier.finished`).
-/

namespace AgentObservability.Foundation

universe u

/-- A finite tree, by the children of its nodes. -/
structure RootedTree (α : Type u) where
  /-- The root. -/
  root : α
  /-- The children of a node, in the order of the walk. -/
  children : α → List α
  /-- All nodes. -/
  nodes : List α
  /-- Each is named once. -/
  nodup : nodes.Nodup
  /-- The root is a node. -/
  root_mem : root ∈ nodes
  /-- The children of a node are nodes. -/
  child_mem : ∀ x ∈ nodes, ∀ y ∈ children x, y ∈ nodes
  /-- No child is named twice. -/
  children_nodup : ∀ x, (children x).Nodup
  /-- A child has one parent. -/
  parent_unique : ∀ x y z, z ∈ children x → z ∈ children y → x = y
  /-- The root has none. -/
  root_orphan : ∀ x, root ∉ children x
  /-- All nodes come from the root. -/
  reached : ∀ s : Set α, root ∈ s → (∀ x ∈ s, ∀ y ∈ children x, y ∈ s) → ∀ x ∈ nodes, x ∈ s

namespace RootedTree

variable {α : Type u} (t : RootedTree α)

/-- The nodes that a walk visits in `n` steps. -/
def visits : ℕ → List α → List α
  | 0, _ => []
  | _ + 1, [] => []
  | n + 1, x :: pending => x :: visits n (t.children x ++ pending)

/-- The nodes in the order of the walk. -/
def order : List α := t.visits t.nodes.length [t.root]

theorem visits_nil (n : ℕ) : t.visits n [] = [] := by cases n <;> rfl

/-- What a walk has visited, and what it has found. -/
structure Frontier (visited pending : List α) : Prop where
  /-- Only nodes. -/
  mem : ∀ x ∈ visited ++ pending, x ∈ t.nodes
  /-- No node twice. -/
  nodup : (visited ++ pending).Nodup
  /-- The root. -/
  root : t.root ∈ visited ++ pending
  /-- The children of what is visited. -/
  closed : ∀ x ∈ visited, ∀ y ∈ t.children x, y ∈ visited ++ pending
  /-- Nothing but them. -/
  entered : ∀ y ∈ visited ++ pending, y = t.root ∨ ∃ x ∈ visited, y ∈ t.children x
  /-- No node is visited before its parent. -/
  ordered : visited.Pairwise fun a b => a ∉ t.children b
  /-- The walk goes on in the order of the tree. -/
  order_eq : visited ++ t.visits (t.nodes.length - visited.length) pending = t.order

variable {t} {visited pending : List α}

variable (t) in
/-- A walk starts at the root. -/
theorem frontier_root : t.Frontier [] [t.root] where
  mem := by simpa using t.root_mem
  nodup := by simp
  root := by simp
  closed := nofun
  entered := by simp
  ordered := List.Pairwise.nil
  order_eq := rfl

namespace Frontier

/-- **A walk never holds more nodes than the tree.** -/
theorem length_le (h : t.Frontier visited pending) : visited.length + pending.length ≤ t.nodes.length := by
  rw [← List.length_append]
  exact (h.nodup.subperm fun x hx => h.mem x hx).length_le

/-- The children of the node that is visited next are new. -/
theorem not_mem_of_child {x y : α} {rest : List α} (h : t.Frontier visited (x :: rest)) (hy : y ∈ t.children x) :
    y ∉ visited ++ x :: rest := by
  intro hmem
  rcases h.entered y hmem with rfl | ⟨p, hp, hpy⟩
  · exact t.root_orphan x hy
  · have hpx := t.parent_unique p x y hpy hy
    exact List.disjoint_of_nodup_append h.nodup (hpx ▸ hp) List.mem_cons_self

/-- **One step**: the first pending node is visited, and its children come first. -/
theorem visit {x : α} {rest : List α} (h : t.Frontier visited (x :: rest)) :
    t.Frontier (visited ++ [x]) (t.children x ++ rest) := by
  have hx : x ∈ t.nodes := h.mem x (by simp)
  have hmem : ∀ y, y ∈ (visited ++ [x]) ++ (t.children x ++ rest) ↔ y ∈ visited ++ x :: rest ∨ y ∈ t.children x := by
    intro y
    simp only [List.mem_append, List.mem_cons, List.not_mem_nil, or_false]
    tauto
  refine
    { mem := fun y hy => ?mem, nodup := ?nodup, root := (hmem _).mpr (Or.inl h.root), closed := fun y hy z hz => ?closed
      entered := fun y hy => ?entered, ordered := ?ordered, order_eq := ?order_eq }
  case mem =>
    rcases (hmem y).mp hy with hy | hy
    · exact h.mem y hy
    · exact t.child_mem x hx y hy
  case nodup =>
    have hperm : ((visited ++ [x]) ++ (t.children x ++ rest)).Perm (t.children x ++ (visited ++ x :: rest)) := by
      have hcomm := List.perm_append_comm_assoc (visited ++ [x]) (t.children x) rest
      rwa [List.append_assoc visited [x] rest] at hcomm
    rw [hperm.nodup_iff]
    exact List.nodup_append'.mpr ⟨t.children_nodup x, h.nodup, fun y hy hv => h.not_mem_of_child hy hv⟩
  case closed =>
    rw [hmem]
    rcases List.mem_append.mp hy with hy | hy
    · exact Or.inl (h.closed y hy z hz)
    · rw [List.mem_singleton.mp hy] at hz
      exact Or.inr hz
  case entered =>
    rcases (hmem y).mp hy with hy | hy
    · rcases h.entered y hy with hroot | ⟨p, hp, hpy⟩
      · exact Or.inl hroot
      · exact Or.inr ⟨p, List.mem_append_left _ hp, hpy⟩
    · exact Or.inr ⟨x, by simp, hy⟩
  case ordered =>
    rw [List.pairwise_append]
    refine ⟨h.ordered, List.pairwise_singleton _ _, fun a ha b hb hab => ?_⟩
    rw [List.mem_singleton.mp hb] at hab
    exact h.not_mem_of_child hab (List.mem_append_left _ ha)
  case order_eq =>
    have hlength := h.length_le
    rw [List.length_cons] at hlength
    rw [← h.order_eq, List.length_append, List.length_singleton,
      show t.nodes.length - visited.length = (t.nodes.length - (visited.length + 1)) + 1 by omega, List.append_assoc]
    rfl

/-- **When nothing is pending, all nodes are visited.** -/
theorem mem_of_finished (h : t.Frontier visited []) {x : α} (hx : x ∈ t.nodes) : x ∈ visited := by
  refine t.reached {y | y ∈ visited} (by simpa using h.root) (fun y hy z hz => ?_) x hx
  simpa using h.closed y hy z hz

/-- They are visited in the order of the tree. -/
theorem finished (h : t.Frontier visited []) : visited = t.order := by
  rw [← h.order_eq, visits_nil, List.append_nil]

theorem perm_of_finished (h : t.Frontier visited []) : visited.Perm t.nodes :=
  (List.perm_ext_iff_of_nodup (by simpa using h.nodup) t.nodup).mpr fun x =>
    ⟨fun hx => h.mem x (List.mem_append_left _ hx), h.mem_of_finished⟩

/-- What is visited is the start of the order. -/
theorem start_order (h : t.Frontier visited pending) : visited <+: t.order :=
  ⟨_, h.order_eq⟩

end Frontier

/-- A walk that is not finished can go on. -/
theorem exists_finished {visited pending : List α} (h : t.Frontier visited pending) : ∃ all, t.Frontier all [] := by
  induction hn : t.nodes.length - visited.length generalizing visited pending with
  | zero =>
    cases pending with
    | nil => exact ⟨visited, h⟩
    | cons x rest =>
      have := h.length_le
      rw [List.length_cons] at this
      omega
  | succ n ih =>
    cases pending with
    | nil => exact ⟨visited, h⟩
    | cons x rest => exact ih h.visit (by rw [List.length_append, List.length_singleton]; omega)

variable (t)

/-- **The order of the tree has every node once.** -/
theorem order_perm : t.order.Perm t.nodes := by
  obtain ⟨all, h⟩ := exists_finished t.frontier_root
  exact h.finished ▸ h.perm_of_finished

/-- **No node comes before its parent.** -/
theorem order_ordered : t.order.Pairwise fun a b => a ∉ t.children b := by
  obtain ⟨all, h⟩ := exists_finished t.frontier_root
  exact h.finished ▸ h.ordered

end RootedTree

end AgentObservability.Foundation
