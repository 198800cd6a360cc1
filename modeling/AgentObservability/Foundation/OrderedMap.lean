import Mathlib.Data.List.Nodup
import Mathlib.Data.List.Sort
import Mathlib.Order.Defs.LinearOrder

/-!
# Ordered maps

A map as its entries in the strict order of their keys, which is how an ordered
map iterates. The entries carry their order, so two maps with the same entries
are the same map (`ext_entries`), and a map is rebuilt by inserting at its end
(`snoc`).

The values of a *queue map* are queues. `pushBack` and `popFront` are its
operations, and `pushAll_flat` says that a queue map without empty queues is
rebuilt from its flattened entries.
-/

namespace AgentObservability.Foundation

universe u v w

/-- Entries in the strict order of their keys. -/
structure OrderedMap (κ : Type u) (α : Type v) [LinearOrder κ] where
  /-- The entries. -/
  entries : List (κ × α)
  /-- The keys are strictly increasing. -/
  sorted : entries.Pairwise fun a b => a.1 < b.1

namespace OrderedMap

variable {κ : Type u} {α : Type v} [LinearOrder κ]

instance [DecidableEq α] : DecidableEq (OrderedMap κ α) := fun m m' =>
  decidable_of_iff (m.entries = m'.entries) ⟨fun h => by cases m; cases m'; cases h; rfl, fun h => h ▸ rfl⟩

@[ext] theorem ext_entries {m m' : OrderedMap κ α} (h : m.entries = m'.entries) : m = m' := by
  cases m; cases m'; cases h; rfl

/-- No entry. -/
def empty : OrderedMap κ α := ⟨[], .nil⟩

instance : Inhabited (OrderedMap κ α) := ⟨empty⟩

@[simp] theorem entries_empty : (empty : OrderedMap κ α).entries = [] := rfl

/-- The value of a key. -/
def get? (m : OrderedMap κ α) (key : κ) : Option α := (m.entries.find? fun e => e.1 = key).map (·.2)

/-- Sets the value of a key. -/
def insert (m : OrderedMap κ α) (key : κ) (a : α) : OrderedMap κ α where
  entries := m.entries.filter (·.1 < key) ++ (key, a) :: m.entries.filter (key < ·.1)
  sorted := by
    refine List.pairwise_append.mpr ⟨m.sorted.filter _, List.pairwise_cons.mpr ⟨?_, m.sorted.filter _⟩, ?_⟩
    · exact fun e he => of_decide_eq_true (List.mem_filter.mp he).2
    · intro e he e' he'
      have hlt : e.1 < key := of_decide_eq_true (List.mem_filter.mp he).2
      rcases List.mem_cons.mp he' with rfl | he'
      · exact hlt
      · exact lt_trans hlt (of_decide_eq_true (List.mem_filter.mp he').2)

/-- Removes a key. -/
def erase (m : OrderedMap κ α) (key : κ) : OrderedMap κ α where
  entries := m.entries.filter (·.1 ≠ key)
  sorted := m.sorted.filter _

/-- Keeps the entries whose new value is given. -/
def filterMap (m : OrderedMap κ α) {β : Type w} (f : α → Option β) : OrderedMap κ β where
  entries := m.entries.filterMap fun e => (f e.2).map (e.1, ·)
  sorted := by
    refine List.pairwise_filterMap.mpr (m.sorted.imp fun {e e'} hlt b hb b' hb' => ?_)
    obtain ⟨_, -, rfl⟩ := Option.map_eq_some_iff.mp hb
    obtain ⟨_, -, rfl⟩ := Option.map_eq_some_iff.mp hb'
    exact hlt

variable {m m' : OrderedMap κ α} {key key' : κ} {a b : α}

/-- The keys are distinct. -/
theorem nodup_keys (m : OrderedMap κ α) : (m.entries.map (·.1)).Nodup :=
  List.pairwise_map.mpr (m.sorted.imp fun h => ne_of_lt h)

/-- Entries with one key are the same. -/
theorem eq_of_key {e e' : κ × α} (he : e ∈ m.entries) (he' : e' ∈ m.entries) (h : e.1 = e'.1) : e = e' :=
  List.inj_on_of_nodup_map m.nodup_keys he he' h

theorem get?_eq_some : m.get? key = some a ↔ (key, a) ∈ m.entries := by
  unfold get?
  constructor
  · intro h
    obtain ⟨e, he, rfl⟩ := Option.map_eq_some_iff.mp h
    have hk : e.1 = key := by simpa using List.find?_some he
    rw [← hk]
    exact List.mem_of_find?_eq_some he
  · intro h
    cases hf : m.entries.find? fun e => e.1 = key with
    | none =>
      have := List.find?_eq_none.mp hf _ h
      simp at this
    | some e =>
      have hk : e.1 = key := by simpa using List.find?_some hf
      rw [eq_of_key (List.mem_of_find?_eq_some hf) h hk]
      rfl

theorem get?_eq_none : m.get? key = none ↔ ∀ a, (key, a) ∉ m.entries := by
  rw [Option.eq_none_iff_forall_not_mem]
  exact forall_congr' fun a => not_congr get?_eq_some

/-- **Maps with the same values are the same.** -/
theorem ext_get? (h : ∀ key, m.get? key = m'.get? key) : m = m' := by
  refine ext_entries ?_
  have : Std.Irrefl fun a b : κ × α => a.1 < b.1 := ⟨fun a => lt_irrefl a.1⟩
  have : Std.Antisymm fun a b : κ × α => a.1 < b.1 := ⟨fun _ _ hab hba => absurd hab (not_lt_of_gt hba)⟩
  refine List.Pairwise.eq_of_mem_iff m.sorted m'.sorted fun e => ?_
  rw [← get?_eq_some, ← get?_eq_some (m := m'), h]

@[simp] theorem get?_empty : (empty : OrderedMap κ α).get? key = none := rfl

theorem mem_insert {e : κ × α} : e ∈ (m.insert key a).entries ↔ e = (key, a) ∨ e ∈ m.entries ∧ e.1 ≠ key := by
  simp only [insert, List.mem_append, List.mem_cons, List.mem_filter, decide_eq_true_eq]
  constructor
  · rintro (⟨he, hlt⟩ | rfl | ⟨he, hlt⟩)
    · exact Or.inr ⟨he, ne_of_lt hlt⟩
    · exact Or.inl rfl
    · exact Or.inr ⟨he, ne_of_gt hlt⟩
  · rintro (rfl | ⟨he, hne⟩)
    · exact Or.inr (Or.inl rfl)
    · rcases lt_or_gt_of_ne hne with hlt | hlt
      · exact Or.inl ⟨he, hlt⟩
      · exact Or.inr (Or.inr ⟨he, hlt⟩)

theorem mem_erase {e : κ × α} : e ∈ (m.erase key).entries ↔ e ∈ m.entries ∧ e.1 ≠ key := by
  simp [erase]

theorem get?_insert : (m.insert key a).get? key' = if key' = key then some a else m.get? key' := by
  ext b
  rw [get?_eq_some, mem_insert]
  by_cases hk : key' = key
  · simp [hk, eq_comm]
  · simp [hk, get?_eq_some]

@[simp] theorem get?_insert_self : (m.insert key a).get? key = some a := by rw [get?_insert, if_pos rfl]

theorem get?_insert_of_ne (h : key' ≠ key) : (m.insert key a).get? key' = m.get? key' := by
  rw [get?_insert, if_neg h]

theorem get?_erase : (m.erase key).get? key' = if key' = key then none else m.get? key' := by
  ext b
  rw [get?_eq_some, mem_erase]
  by_cases hk : key' = key
  · simp [hk]
  · simp [hk, get?_eq_some]

theorem get?_filterMap {β : Type w} {f : α → Option β} : (m.filterMap f).get? key = (m.get? key).bind f := by
  ext b
  simp only [get?_eq_some, filterMap, List.mem_filterMap, Option.map_eq_some_iff, Option.bind_eq_some_iff]
  constructor
  · rintro ⟨e, he, b', hb, heq⟩
    obtain ⟨rfl, rfl⟩ := Prod.mk.inj heq
    exact ⟨e.2, he, hb⟩
  · rintro ⟨a, ha, hb⟩
    exact ⟨(key, a), ha, b, hb, rfl⟩

/-- A new value of a key stands beside the other entries. -/
theorem insert_perm : (m.insert key a).entries.Perm ((key, a) :: (m.erase key).entries) := by
  refine List.perm_middle.trans (List.Perm.cons _ ?_)
  have hsplit : m.entries.filter (·.1 ≠ key) =
      m.entries.filter (·.1 < key) ++ m.entries.filter (key < ·.1) := by
    have herase : m.erase key = (m.insert key a).erase key := ext_get? fun k => by
      rw [get?_erase, get?_erase]
      split
      · rfl
      · rename_i hk
        rw [get?_insert_of_ne hk]
    have h := congrArg OrderedMap.entries herase
    refine Eq.trans h ?_
    simp only [erase, insert, List.filter_append, List.filter_cons, ne_eq, not_true_eq_false, decide_false,
      Bool.false_eq_true, ↓reduceIte, List.filter_filter]
    congr 1 <;> refine List.filter_congr fun e _ => ?_ <;> simp only [Bool.and_eq_right_iff_imp, decide_eq_true_eq] <;>
      intro h'
    · exact ne_of_lt h'
    · exact ne_of_gt h'
  simp only [erase, hsplit]
  exact .refl _

/-- The value of a key stands beside the other entries. -/
theorem perm_of_get? (h : m.get? key = some a) : m.entries.Perm ((key, a) :: (m.erase key).entries) := by
  have hsame : m.insert key a = m := ext_get? fun k => by
    rw [get?_insert]
    split
    · rename_i hk
      rw [hk, h]
    · rfl
  have hp := @insert_perm _ _ _ m key a
  rwa [hsame] at hp

theorem erase_of_get?_eq_none (h : m.get? key = none) : m.erase key = m := ext_get? fun k => by
  rw [get?_erase]
  split
  · rename_i hk
    rw [hk, h]
  · rfl

/-! ### Queue maps -/

section Queues

variable {m m' : OrderedMap κ (List α)}

/-- The queue of a key. -/
def queue (m : OrderedMap κ (List α)) (key : κ) : List α := (m.get? key).getD []

/-- `entry(key).or_default().push_back(a)`. -/
def pushBack (m : OrderedMap κ (List α)) (key : κ) (a : α) : OrderedMap κ (List α) := m.insert key (m.queue key ++ [a])

/-- Removes the key of an empty queue and sets that of any other. -/
def setQueue (m : OrderedMap κ (List α)) (key : κ) (queue : List α) : OrderedMap κ (List α) :=
  if queue.isEmpty then m.erase key else m.insert key queue

/-- `pop_front` of the queue of a key, whose key goes when it is empty. -/
def popFront (m : OrderedMap κ (List α)) (key : κ) : Option α × OrderedMap κ (List α) :=
  ((m.queue key).head?, m.setQueue key (m.queue key).tail)

/-- `retain` of every queue, then of the queues that are not empty. -/
def retain (m : OrderedMap κ (List α)) (keep : α → Bool) : OrderedMap κ (List α) :=
  m.filterMap fun queue => if (queue.filter keep).isEmpty then none else some (queue.filter keep)

/-- The elements of the queues, each with its key, in the order of the iteration. -/
def flat (m : OrderedMap κ (List α)) : List (κ × α) := m.entries.flatMap fun e => e.2.map (e.1, ·)

/-- No queue is empty. -/
def NoEmpty (m : OrderedMap κ (List α)) : Prop := ∀ key, m.get? key ≠ some []

theorem noEmpty_empty : NoEmpty (empty : OrderedMap κ (List α)) := nofun

@[simp] theorem queue_empty : (empty : OrderedMap κ (List α)).queue key = [] := rfl

@[simp] theorem flat_empty : (empty : OrderedMap κ (List α)).flat = [] := rfl

/-- **Maps without empty queues are the same when their queues are.** -/
theorem ext_queue (h : m.NoEmpty) (h' : m'.NoEmpty) (hq : ∀ key, m.queue key = m'.queue key) : m = m' := by
  refine ext_get? fun key => ?_
  have hkey := hq key
  unfold queue at hkey
  cases hg : m.get? key with
  | none =>
    cases hg' : m'.get? key with
    | none => rfl
    | some queue =>
      rw [hg, hg'] at hkey
      exact absurd (hg'.trans (congrArg some hkey.symm)) (h' key)
  | some queue =>
    cases hg' : m'.get? key with
    | none =>
      rw [hg, hg'] at hkey
      exact absurd (hg.trans (congrArg some hkey)) (h key)
    | some queue' =>
      rw [hg, hg'] at hkey
      exact congrArg some hkey

theorem queue_insert {queue : List α} : (m.insert key queue).queue key' = if key' = key then queue else m.queue key' := by
  rw [OrderedMap.queue, get?_insert]
  split <;> rfl

theorem queue_pushBack {a : α} :
    (m.pushBack key a).queue key' = if key' = key then m.queue key ++ [a] else m.queue key' := queue_insert

theorem queue_setQueue {queue : List α} :
    (m.setQueue key queue).queue key' = if key' = key then queue else m.queue key' := by
  unfold setQueue
  split
  · rename_i he
    rw [OrderedMap.queue, get?_erase, List.isEmpty_iff.mp he]
    split <;> rfl
  · exact queue_insert

theorem queue_popFront :
    (m.popFront key).2.queue key' = if key' = key then (m.queue key).tail else m.queue key' := queue_setQueue

theorem queue_retain {keep : α → Bool} : (m.retain keep).queue key = (m.queue key).filter keep := by
  rw [OrderedMap.queue, retain, get?_filterMap, OrderedMap.queue]
  cases m.get? key with
  | none => rfl
  | some queue =>
    simp only [Option.bind_some, Option.getD_some]
    split
    · rename_i he
      rw [List.isEmpty_iff.mp he]
      rfl
    · rfl

theorem NoEmpty.insert {queue : List α} (h : m.NoEmpty) (hq : queue ≠ []) : (m.insert key queue).NoEmpty := by
  intro k
  rw [get?_insert]
  split
  · exact fun he => hq (Option.some.inj he)
  · exact h k

theorem NoEmpty.pushBack {a : α} (h : m.NoEmpty) : (m.pushBack key a).NoEmpty := h.insert (by simp)

theorem NoEmpty.setQueue {queue : List α} (h : m.NoEmpty) : (m.setQueue key queue).NoEmpty := by
  unfold OrderedMap.setQueue
  split
  · intro k
    rw [get?_erase]
    split
    · exact nofun
    · exact h k
  · rename_i hq
    exact h.insert fun he => hq (List.isEmpty_iff.mpr he)

theorem NoEmpty.popFront (h : m.NoEmpty) : (m.popFront key).2.NoEmpty := h.setQueue

theorem noEmpty_retain {keep : α → Bool} : (m.retain keep).NoEmpty := by
  intro key he
  rw [retain, get?_filterMap] at he
  obtain ⟨queue, -, he⟩ := Option.bind_eq_some_iff.mp he
  split at he
  · cases he
  · rename_i hq
    exact hq (List.isEmpty_iff.mpr (Option.some.inj he))

/-- The elements of a key, in the order of its queue. -/
theorem flat_filter : m.flat.filter (·.1 = key) = (m.queue key).map (key, ·) := by
  have hother : ∀ l : List (κ × List α), (∀ e ∈ l, e.1 ≠ key) →
      (l.flatMap fun e => e.2.map (e.1, ·)).filter (·.1 = key) = [] := by
    intro l hl
    refine List.filter_eq_nil_iff.mpr fun x hx => ?_
    obtain ⟨e, he, hx⟩ := List.mem_flatMap.mp hx
    obtain ⟨a, -, rfl⟩ := List.mem_map.mp hx
    simpa using hl e he
  unfold flat queue
  cases hg : m.get? key with
  | none => exact hother _ fun e he hk => get?_eq_none.mp hg e.2 (by rw [← hk]; exact he)
  | some queue =>
    obtain ⟨l₁, l₂, hl⟩ := List.append_of_mem (get?_eq_some.mp hg)
    have hnodup := m.nodup_keys
    rw [hl, List.map_append, List.map_cons, List.nodup_append, List.nodup_cons] at hnodup
    obtain ⟨-, ⟨h₂, -⟩, h₁⟩ := hnodup
    have hfirst : ∀ e ∈ l₁, e.1 ≠ key := fun e he =>
      h₁ e.1 (List.mem_map_of_mem he) key List.mem_cons_self
    have hlast : ∀ e ∈ l₂, e.1 ≠ key := fun e he hk =>
      h₂ (List.mem_map.mpr ⟨e, he, hk⟩)
    rw [hl, List.flatMap_append, List.flatMap_cons, List.filter_append, List.filter_append, hother l₁ hfirst,
      hother l₂ hlast, List.nil_append, List.append_nil]
    exact List.filter_eq_self.mpr fun x hx => by
      obtain ⟨a, -, rfl⟩ := List.mem_map.mp hx
      exact decide_eq_true rfl

theorem mem_flat {x : κ × α} : x ∈ m.flat ↔ x.2 ∈ m.queue x.1 := by
  have h : x ∈ m.flat.filter (·.1 = x.1) ↔ x ∈ m.flat := by simp
  rw [← h, flat_filter, List.mem_map]
  exact ⟨fun ⟨a, ha, he⟩ => by rw [← he]; exact ha, fun hx => ⟨x.2, hx, rfl⟩⟩

/-- Elements pushed one after the other. -/
def pushAll (m : OrderedMap κ (List α)) (elements : List (κ × α)) : OrderedMap κ (List α) :=
  elements.foldl (fun m x => m.pushBack x.1 x.2) m

theorem queue_pushAll {elements : List (κ × α)} :
    ∀ {m : OrderedMap κ (List α)}, (m.pushAll elements).queue key =
      m.queue key ++ (elements.filter (·.1 = key)).map (·.2) := by
  induction elements with
  | nil => exact fun {m} => (List.append_nil _).symm
  | cons x elements ih =>
    intro m
    refine ih.trans ?_
    rw [queue_pushBack, List.filter_cons]
    by_cases hk : x.1 = key
    · simp [hk]
    · simp [hk, Ne.symm hk]

theorem NoEmpty.pushAll {elements : List (κ × α)} :
    ∀ {m : OrderedMap κ (List α)}, m.NoEmpty → (m.pushAll elements).NoEmpty := by
  induction elements with
  | nil => exact fun h => h
  | cons x elements ih => exact fun h => ih h.pushBack

/-- **A queue map is rebuilt from its flattened entries.** -/
theorem pushAll_flat (h : m.NoEmpty) : empty.pushAll m.flat = m := by
  refine ext_queue noEmpty_empty.pushAll h fun key => ?_
  rw [queue_pushAll, flat_filter, queue_empty, List.nil_append, List.map_map]
  exact List.map_id _

/-- A queue stands beside the elements of the other keys. -/
theorem flat_perm : m.flat.Perm ((m.queue key).map (key, ·) ++ (m.erase key).flat) := by
  unfold queue
  cases hg : m.get? key with
  | none =>
    rw [erase_of_get?_eq_none hg]
    exact .refl _
  | some queue => exact (perm_of_get? hg).flatMap_right _

theorem flat_insert_perm {queue : List α} :
    (m.insert key queue).flat.Perm (queue.map (key, ·) ++ (m.erase key).flat) := insert_perm.flatMap_right _

theorem flat_setQueue_perm {queue : List α} :
    (m.setQueue key queue).flat.Perm (queue.map (key, ·) ++ (m.erase key).flat) := by
  unfold setQueue
  split
  · rename_i he
    rw [List.isEmpty_iff.mp he]
    exact .refl _
  · exact flat_insert_perm

/-- The elements that are left of every queue. -/
theorem flat_filterMap {β : Type w} {f : List α → Option (List β)} {left : List α → List β}
    (h : ∀ queue, (f queue).getD [] = left queue) :
    OrderedMap.flat (m.filterMap f) = m.entries.flatMap fun e => (left e.2).map (e.1, ·) := by
  simp only [flat, filterMap]
  induction m.entries with
  | nil => rfl
  | cons e entries ih =>
    rw [List.filterMap_cons, List.flatMap_cons, ← ih, ← h e.2]
    cases f e.2 with
    | none => rfl
    | some queue => rfl

/-- What is retained. -/
theorem flat_retain {keep : α → Bool} : (m.retain keep).flat = m.flat.filter fun x => keep x.2 := by
  have hleft : ∀ queue : List α, (if (queue.filter keep).isEmpty then none else some (queue.filter keep)).getD [] =
      queue.filter keep := by
    intro queue
    split
    · rename_i he
      exact (List.isEmpty_iff.mp he).symm
    · rfl
  rw [retain, flat_filterMap hleft, flat, List.filter_flatMap]
  refine List.flatMap_congr fun e _ => ?_
  rw [List.filter_map]
  rfl

/-- A pushed element is added. -/
theorem flat_pushBack_perm {a : α} : (m.pushBack key a).flat.Perm ((key, a) :: m.flat) := by
  refine flat_insert_perm.trans ?_
  rw [List.map_append, List.map_singleton, List.append_assoc]
  exact List.perm_middle.trans (List.Perm.cons _ flat_perm.symm)

/-- A popped element is removed. -/
theorem flat_popFront_perm {a : α} (h : (m.popFront key).1 = some a) :
    m.flat.Perm ((key, a) :: (m.popFront key).2.flat) := by
  refine (@flat_perm κ α _ key m).trans ?_
  obtain ⟨rest, hq⟩ := List.head?_eq_some_iff.mp h
  rw [popFront, hq]
  exact List.Perm.cons _ flat_setQueue_perm.symm

/-- Where nothing is popped, nothing changes. -/
theorem popFront_none (h : m.NoEmpty) (hp : (m.popFront key).1 = none) : (m.popFront key).2 = m := by
  have hq : m.queue key = [] := List.head?_eq_none_iff.mp hp
  refine ext_queue h.popFront h fun k => ?_
  rw [queue_popFront]
  split
  · rename_i hk
    rw [hk, hq]
    rfl
  · rfl

end Queues

end OrderedMap

end AgentObservability.Foundation
