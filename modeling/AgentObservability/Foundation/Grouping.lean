import AgentObservability.Foundation.OrderedMap
import Mathlib.Algebra.BigOperators.Group.List.Basic
import Mathlib.Data.List.Induction

/-!
# Elements by their keys

A map that is filled from a list: each element is added to the value of its key.
The value of a key depends on the elements of that key alone (`get?_group`), so
a measure that is summed up key by key is the one of the list (`sum_group`).
`groupM` is the same where an addition can fail.
-/

namespace AgentObservability.Foundation.OrderedMap

universe u v w

variable {κ : Type u} {α : Type v} {β : Type w} [LinearOrder κ]

/-- The elements added to a value, one after the other. -/
def accumulate (add : Option β → α → β) (start : Option β) (xs : List α) : Option β :=
  xs.foldl (fun value x => some (add value x)) start

/-- The elements added to the values of their keys, one after the other. -/
def group (key : α → κ) (add : Option β → α → β) (m : OrderedMap κ β) (xs : List α) : OrderedMap κ β :=
  xs.foldl (fun m x => m.insert (key x) (add (m.get? (key x)) x)) m

/-- The same, with additions that can fail. -/
def groupM (key : α → κ) (add? : Option β → α → Option β) (m : OrderedMap κ β) (xs : List α) : Option (OrderedMap κ β) :=
  xs.foldlM (fun m x => (add? (m.get? (key x)) x).map (m.insert (key x))) m

variable {key : α → κ} {add : Option β → α → β} {add? : Option β → α → Option β} {m : OrderedMap κ β} {xs : List α} {k : κ}

/-- The value of a key is made of the elements of the key. -/
theorem get?_group : (group key add m xs).get? k = accumulate add (m.get? k) (xs.filter (key · = k)) := by
  induction xs generalizing m with
  | nil => rfl
  | cons x xs ih =>
    have hstep : group key add m (x :: xs) = group key add (m.insert (key x) (add (m.get? (key x)) x)) xs := rfl
    rw [hstep, ih, get?_insert]
    by_cases hk : key x = k
    · rw [if_pos hk.symm, List.filter_cons_of_pos (by simpa using hk), hk]
      rfl
    · rw [if_neg (Ne.symm hk), List.filter_cons_of_neg (by simpa using hk)]

/-- Additions that succeed on the elements of each key succeed altogether. -/
theorem groupM_eq_some (h : ∀ before x after, xs = before ++ x :: after →
      add? (accumulate add none (before.filter (key · = key x))) x =
        some (add (accumulate add none (before.filter (key · = key x))) x)) :
    groupM key add? empty xs = some (group key add empty xs) := by
  induction xs using List.reverseRecOn with
  | nil => rfl
  | append_singleton xs x ih =>
    have hxs : groupM key add? empty xs = some (group key add empty xs) :=
      ih fun before y after hsplit => h before y (after ++ [x]) (by rw [hsplit, List.append_assoc, List.cons_append])
    have hadd := h xs x [] rfl
    have hget : (group key add empty xs).get? (key x) = accumulate add none (xs.filter (key · = key x)) := get?_group
    rw [← hget] at hadd
    unfold groupM at hxs ⊢
    unfold group at hadd hxs ⊢
    rw [List.foldlM_append, hxs, List.foldl_append]
    show (add? _ x).map _ >>= _ = _
    rw [hadd]
    rfl

theorem accumulate_append {start : Option β} {x : α} :
    accumulate add start (xs ++ [x]) = some (add (accumulate add start xs) x) := List.foldl_append

theorem accumulate_isSome {start : Option β} : (accumulate add start xs).isSome ↔ start.isSome ∨ xs ≠ [] := by
  induction xs generalizing start with
  | nil => simp [accumulate]
  | cons x xs ih =>
    have hstep : accumulate add start (x :: xs) = accumulate add (some (add start x)) xs := rfl
    rw [hstep, ih]
    simp

/-- The keys of the map are those of the elements. -/
theorem mem_keys_group : (∃ e ∈ (group key add empty xs).entries, e.1 = k) ↔ ∃ x ∈ xs, key x = k := by
  have hget : (group key add empty xs).get? k = accumulate add none (xs.filter (key · = k)) := get?_group
  constructor
  · rintro ⟨e, he, rfl⟩
    have hsome : (accumulate add none (xs.filter (key · = e.1))).isSome := by
      rw [← hget, get?_eq_some.mpr he]
      rfl
    obtain hnone | hne := accumulate_isSome.mp hsome
    · cases hnone
    · obtain ⟨x, hx⟩ := List.exists_mem_of_ne_nil _ hne
      obtain ⟨hx, hkey⟩ := List.mem_filter.mp hx
      exact ⟨x, hx, of_decide_eq_true hkey⟩
  · rintro ⟨x, hx, rfl⟩
    have hne : xs.filter (key · = key x) ≠ [] :=
      List.ne_nil_of_mem (List.mem_filter.mpr ⟨hx, decide_eq_true rfl⟩)
    obtain ⟨b, hb⟩ := Option.isSome_iff_exists.mp (accumulate_isSome.mpr (.inr hne) : (accumulate add none _).isSome)
    exact ⟨(key x, b), get?_eq_some.mp (hget.trans hb), rfl⟩

/-- One of some distinct keys is counted once. -/
theorem sum_ite_of_nodup {M : Type*} [AddCommMonoid M] {keys : List κ} (hnodup : keys.Nodup) (hk : k ∈ keys) (a : M) :
    (keys.map fun j => if k = j then a else 0).sum = a := by
  induction keys with
  | nil => cases hk
  | cons j keys ih =>
    obtain ⟨hj, hnodup⟩ := List.nodup_cons.mp hnodup
    rw [List.map_cons, List.sum_cons]
    by_cases hkj : k = j
    · have hzero : keys.map (fun j => if k = j then a else 0) = keys.map fun _ => 0 :=
        List.map_congr_left fun i hi => if_neg fun h : k = i => hj (by rwa [← hkj, h])
      rw [if_pos hkj, hzero, List.map_const', List.sum_replicate, nsmul_zero, add_zero]
    · obtain rfl | hk := List.mem_cons.mp hk
      · exact absurd rfl hkj
      · rw [if_neg hkj, zero_add, ih hnodup hk]

/-- A measure, summed up over distinct keys that include those of the elements. -/
theorem sum_filter_keys {M : Type*} [AddCommMonoid M] {keys : List κ} (hnodup : keys.Nodup) (measure : α → M)
    (hxs : ∀ x ∈ xs, key x ∈ keys) :
    (keys.map fun k => ((xs.filter (key · = k)).map measure).sum).sum = (xs.map measure).sum := by
  induction xs with
  | nil => simp
  | cons x xs ih =>
    have hsplit : ∀ k, (((x :: xs).filter (key · = k)).map measure).sum =
        (if key x = k then measure x else 0) + ((xs.filter (key · = k)).map measure).sum := by
      intro k
      by_cases hk : key x = k
      · rw [List.filter_cons_of_pos (by simpa using hk), if_pos hk, List.map_cons, List.sum_cons]
      · rw [List.filter_cons_of_neg (by simpa using hk), if_neg hk, zero_add]
    rw [List.map_congr_left fun k _ => hsplit k, List.sum_map_add, sum_ite_of_nodup hnodup (hxs x List.mem_cons_self),
      ih fun y hy => hxs y (List.mem_cons_of_mem x hy), List.map_cons, List.sum_cons]

/-- **A measure that is summed up key by key is the one of the list.** -/
theorem sum_group {M : Type*} [AddCommMonoid M] (measure : α → M) :
    ((group key add empty xs).entries.map fun e => ((xs.filter (key · = e.1)).map measure).sum).sum =
      (xs.map measure).sum := by
  have hmem : ∀ x ∈ xs, key x ∈ (group key add empty xs).entries.map (·.1) := by
    intro x hx
    have hkeys : ∃ e ∈ (group key add empty xs).entries, e.1 = key x := mem_keys_group.mpr ⟨x, hx, rfl⟩
    obtain ⟨e, he, hkey⟩ := hkeys
    exact List.mem_map.mpr ⟨e, he, hkey⟩
  rw [← sum_filter_keys (nodup_keys (group key add empty xs)) measure hmem, List.map_map]
  rfl

/-- The keys of some elements, as a set, do not depend on their order. -/
theorem group_unit_eq {ys : List α} (h : ∀ k, (∃ x ∈ xs, key x = k) ↔ ∃ y ∈ ys, key y = k) :
    group key (fun _ _ => ()) empty xs = group key (fun _ _ => ()) empty ys := by
  have hkeys : ∀ zs : List α, ∀ k, (group key (fun _ _ => ()) empty zs).get? k = some () ↔ ∃ z ∈ zs, key z = k := by
    intro zs k
    rw [get?_eq_some, ← mem_keys_group]
    constructor
    · exact fun hk => ⟨_, hk, rfl⟩
    · rintro ⟨e, he, rfl⟩
      exact he
  apply ext_get?
  intro k
  rw [Option.ext_iff]
  intro a
  cases a
  rw [hkeys, hkeys, h]

end AgentObservability.Foundation.OrderedMap
