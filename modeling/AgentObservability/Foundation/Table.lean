import Mathlib.Data.List.Pairwise
import Mathlib.Data.List.Basic
import Mathlib.Algebra.BigOperators.Group.List.Basic
import Mathlib.Algebra.Ring.Int.Defs

/-!
# Keyed tables

A relational table as the list of its rows, in the order they were inserted. A
row type says when two rows *clash*: they agree on the columns of the `PRIMARY
KEY` or of a `UNIQUE` constraint. A `Table` carries the proof that no two of its
rows clash, so a table that violates a constraint cannot be built; `insert`
returns `none` where the database reports the constraint violation.

The statements of SQL the tables support: `insert` (`INSERT INTO`), `insertAll`
(`INSERT INTO … SELECT`), `replace` (`INSERT OR REPLACE INTO`), `upsert`
(`INSERT INTO … ON CONFLICT(…) DO UPDATE`), `delete` (`DELETE … WHERE`), `modify`
(`UPDATE … SET … WHERE`, on columns no constraint mentions), `find?` (a lookup
by key), `select` (`SELECT … WHERE`) and `total` (`SELECT SUM(…) … WHERE`).
-/

namespace AgentObservability.Foundation

universe u v

/-- The constraints of a row type: which rows may not stand in one table. -/
class Keyed (ρ : Type u) where
  /-- The two rows agree on a `PRIMARY KEY` or `UNIQUE` key. -/
  Clash : ρ → ρ → Prop
  /-- Agreement is symmetric. -/
  symm : ∀ a b, Clash a b → Clash b a
  /-- The constraints can be checked. -/
  decClash : DecidableRel Clash

instance (ρ : Type u) [Keyed ρ] (a b : ρ) : Decidable (Keyed.Clash a b) := Keyed.decClash a b

/-- A row type whose only constraint is one key. -/
abbrev Keyed.byKey {ρ : Type u} {κ : Type v} [DecidableEq κ] (key : ρ → κ) : Keyed ρ where
  Clash a b := key a = key b
  symm _ _ h := h.symm
  decClash _ _ := inferInstance

/-- A table: its rows in insertion order, no two of which clash. -/
@[ext]
structure Table (ρ : Type u) [Keyed ρ] where
  /-- The rows. -/
  rows : List ρ
  /-- The constraints hold. -/
  distinct : rows.Pairwise fun a b => ¬ Keyed.Clash a b

namespace Table

variable {ρ : Type u} [Keyed ρ]

instance : Membership ρ (Table ρ) := ⟨fun t r => r ∈ t.rows⟩

instance [DecidableEq ρ] : DecidableEq (Table ρ) := fun a b =>
  decidable_of_iff (a.rows = b.rows) Table.ext_iff.symm

theorem mem_iff {t : Table ρ} {r : ρ} : r ∈ t ↔ r ∈ t.rows := Iff.rfl

/-- The table without rows. -/
def empty : Table ρ := ⟨[], List.Pairwise.nil⟩

@[simp] theorem rows_empty : (empty : Table ρ).rows = [] := rfl

@[simp] theorem not_mem_empty (r : ρ) : r ∉ (empty : Table ρ) := by simp [mem_iff]

/-- The first row that satisfies `p`; a lookup by key finds the only one. -/
def find? (t : Table ρ) (p : ρ → Prop) [DecidablePred p] : Option ρ := t.rows.find? (fun r => decide (p r))

/-- The rows that satisfy `p`, in insertion order. -/
def select (t : Table ρ) (p : ρ → Prop) [DecidablePred p] : List ρ := t.rows.filter (fun r => decide (p r))

/-- Some row satisfies `p`. -/
def Has (t : Table ρ) (p : ρ → Prop) : Prop := ∃ r ∈ t.rows, p r

instance (t : Table ρ) (p : ρ → Prop) [DecidablePred p] : Decidable (t.Has p) :=
  inferInstanceAs (Decidable (∃ r ∈ t.rows, p r))

theorem has_iff {t : Table ρ} {p : ρ → Prop} : t.Has p ↔ ∃ r ∈ t, p r := Iff.rfl

section Lookup

variable {t : Table ρ} {p : ρ → Prop} [DecidablePred p] {r : ρ}

theorem mem_of_find? (h : t.find? p = some r) : r ∈ t ∧ p r :=
  ⟨List.mem_of_find?_eq_some h, by simpa using List.find?_some h⟩

theorem find?_eq_none : t.find? p = none ↔ ∀ r ∈ t, ¬ p r := by
  simp [find?, mem_iff]

theorem find?_isSome : (t.find? p).isSome ↔ t.Has p := by
  simp [find?, Has, List.find?_isSome]

@[simp] theorem mem_select : r ∈ t.select p ↔ r ∈ t ∧ p r := by simp [select, mem_iff]

end Lookup

/-- Two rows of a table that clash are the same row. -/
theorem eq_of_clash {t : Table ρ} {a b : ρ} (ha : a ∈ t) (hb : b ∈ t) (h : Keyed.Clash a b) : a = b := by
  by_contra hne
  have : Std.Symm fun a b : ρ => ¬ Keyed.Clash a b := ⟨fun x y hxy hyx => hxy (Keyed.symm _ _ hyx)⟩
  exact t.distinct.forall ha hb hne h

/-- A lookup by key finds the row of the key. -/
theorem find?_eq_some_of_mem {t : Table ρ} {p : ρ → Prop} [DecidablePred p] {r : ρ}
    (hp : ∀ a b, p a → p b → Keyed.Clash a b) (hr : r ∈ t) (h : p r) : t.find? p = some r := by
  cases hf : t.find? p with
  | none => exact absurd h (find?_eq_none.mp hf r hr)
  | some x =>
    obtain ⟨hx, hpx⟩ := mem_of_find? hf
    rw [eq_of_clash hx hr (hp x r hpx h)]

/-- `INSERT INTO`: the row goes to the end, unless it clashes with a row that is there. -/
def insert (t : Table ρ) (r : ρ) : Option (Table ρ) :=
  if h : ∀ x ∈ t.rows, ¬ Keyed.Clash x r then
    some ⟨t.rows ++ [r], by
      rw [List.pairwise_append]
      exact ⟨t.distinct, List.pairwise_singleton _ _, by simpa using h⟩⟩
  else none

theorem insert_eq_some {t t' : Table ρ} {r : ρ} :
    t.insert r = some t' ↔ (∀ x ∈ t, ¬ Keyed.Clash x r) ∧ t'.rows = t.rows ++ [r] := by
  unfold insert
  split
  · rename_i h
    rw [Option.some.injEq, Table.ext_iff]
    exact ⟨fun e => ⟨h, e.symm⟩, fun e => e.2.symm⟩
  · rename_i h
    simp only [reduceCtorEq, false_iff, not_and]
    exact fun h' => absurd h' h

/-- A row that clashes with none goes in. -/
theorem exists_insert {t : Table ρ} {r : ρ} (h : ∀ x ∈ t, ¬ Keyed.Clash x r) : ∃ t', t.insert r = some t' :=
  ⟨_, dif_pos h⟩

theorem mem_insert {t t' : Table ρ} {r x : ρ} (h : t.insert r = some t') : x ∈ t' ↔ x ∈ t ∨ x = r := by
  rw [mem_iff, (insert_eq_some.mp h).2]
  simp [mem_iff]

/-- `INSERT INTO … SELECT`: the rows one after the other. -/
def insertAll (t : Table ρ) : List ρ → Option (Table ρ)
  | [] => some t
  | r :: rs => (t.insert r).bind fun t' => t'.insertAll rs

theorem rows_insertAll {rs : List ρ} : ∀ {t t' : Table ρ}, t.insertAll rs = some t' → t'.rows = t.rows ++ rs := by
  induction rs with
  | nil => intro t t' h; cases h; simp
  | cons r rs ih =>
    intro t t' h
    obtain ⟨u, hu, h⟩ := Option.bind_eq_some_iff.mp h
    rw [ih h, (insert_eq_some.mp hu).2]
    simp

theorem mem_insertAll {rs : List ρ} {t t' : Table ρ} {x : ρ} (h : t.insertAll rs = some t') :
    x ∈ t' ↔ x ∈ t ∨ x ∈ rs := by
  rw [mem_iff, rows_insertAll h]
  simp [mem_iff]

/-- The rows of a bulk insertion clash with no row that was there. -/
theorem not_clash_of_insertAll {rs : List ρ} {t t' : Table ρ} (h : t.insertAll rs = some t') {x r : ρ}
    (hx : x ∈ t) (hr : r ∈ rs) : ¬ Keyed.Clash x r := by
  have hd := t'.distinct
  rw [rows_insertAll h, List.pairwise_append] at hd
  exact hd.2.2 x hx r hr

/-- A bulk insertion goes through when the rows clash neither with the table nor with each other. -/
theorem insertAll_isSome {l : List ρ} : ∀ {t : Table ρ}, (∀ x ∈ t, ∀ r ∈ l, ¬ Keyed.Clash x r) →
    l.Pairwise (fun a b => ¬ Keyed.Clash a b) → ∃ t', t.insertAll l = some t' := by
  induction l with
  | nil => exact fun {t} _ _ => ⟨t, rfl⟩
  | cons r rs ih =>
    intro t hx hp
    have hd : (t.rows ++ [r]).Pairwise fun a b => ¬ Keyed.Clash a b := by
      rw [List.pairwise_append]
      exact ⟨t.distinct, List.pairwise_singleton _ _, by simpa using fun a ha => hx a (mem_iff.mpr ha) r List.mem_cons_self⟩
    have hu : t.insert r = some ⟨t.rows ++ [r], hd⟩ :=
      insert_eq_some.mpr ⟨fun x h => hx x h r List.mem_cons_self, rfl⟩
    obtain ⟨hr, hp⟩ := List.pairwise_cons.mp hp
    obtain ⟨t', ht'⟩ := ih (t := ⟨t.rows ++ [r], hd⟩) (by
      intro x h s hs
      rcases List.mem_append.mp h with h | h
      · exact hx x h s (List.mem_cons_of_mem _ hs)
      · obtain rfl := List.mem_singleton.mp h
        exact hr s hs) hp
    exact ⟨t', by rw [insertAll, hu, Option.bind_some, ht']⟩

/-- `INSERT OR REPLACE INTO`: the rows that clash with the new one go, and it is the last. -/
def replace (t : Table ρ) (r : ρ) : Table ρ :=
  ⟨t.rows.filter (fun x => decide (¬ Keyed.Clash x r)) ++ [r], by
    rw [List.pairwise_append]
    exact ⟨t.distinct.sublist List.filter_sublist, List.pairwise_singleton _ _, by simp⟩⟩

@[simp] theorem mem_replace {t : Table ρ} {r x : ρ} : x ∈ t.replace r ↔ (x ∈ t ∧ ¬ Keyed.Clash x r) ∨ x = r := by
  simp [replace, mem_iff]

/-- `DELETE … WHERE p`. -/
def delete (t : Table ρ) (p : ρ → Prop) [DecidablePred p] : Table ρ :=
  ⟨t.rows.filter fun r => decide (¬ p r), t.distinct.sublist List.filter_sublist⟩

@[simp] theorem mem_delete {t : Table ρ} {p : ρ → Prop} [DecidablePred p] {r : ρ} :
    r ∈ t.delete p ↔ r ∈ t ∧ ¬ p r := by
  simp [delete, mem_iff]

theorem delete_eq_self {t : Table ρ} {p : ρ → Prop} [DecidablePred p] (h : ∀ r ∈ t, ¬ p r) : t.delete p = t := by
  ext1
  simpa [delete, mem_iff, List.filter_eq_self] using h

/-- Keeps the last `n` rows inserted: how the bounded ledgers are pruned. -/
def keepNewest (t : Table ρ) (n : ℕ) : Table ρ :=
  ⟨t.rows.drop (t.rows.length - n), t.distinct.sublist (List.drop_sublist _ _)⟩

theorem mem_of_keepNewest {t : Table ρ} {n : ℕ} {r : ρ} (h : r ∈ t.keepNewest n) : r ∈ t :=
  List.mem_of_mem_drop h

/-- The newest row stays. -/
theorem mem_keepNewest_of_insert {t t' : Table ρ} {n : ℕ} {r : ρ} (h : t.insert r = some t') (hn : 0 < n) :
    r ∈ t'.keepNewest n := by
  obtain ⟨-, hrows⟩ := insert_eq_some.mp h
  have hdrop : (t.rows ++ [r]).length - n ≤ t.rows.length := by
    rw [List.length_append, List.length_singleton]
    omega
  change r ∈ t'.rows.drop (t'.rows.length - n)
  rw [hrows, List.drop_append_of_le_length hdrop]
  exact List.mem_append_right _ (List.mem_singleton.mpr rfl)

theorem keepNewest_eq_self {t : Table ρ} {n : ℕ} (h : t.rows.length ≤ n) : t.keepNewest n = t := by
  ext1
  simp [keepNewest, Nat.sub_eq_zero_of_le h]

/-- `UPDATE … SET … WHERE p`, where `g` sets columns that no constraint mentions. -/
def modify (t : Table ρ) (p : ρ → Prop) [DecidablePred p] (g : ρ → ρ)
    (hl : ∀ a b, Keyed.Clash (g a) b ↔ Keyed.Clash a b) (hr : ∀ a b, Keyed.Clash a (g b) ↔ Keyed.Clash a b) :
    Table ρ :=
  ⟨t.rows.map fun r => if p r then g r else r, by
    rw [List.pairwise_map]
    refine t.distinct.imp fun {a b} h => ?_
    split <;> split <;> simpa [hl, hr] using h⟩

section Modify

variable {t : Table ρ} {p : ρ → Prop} [DecidablePred p] {g : ρ → ρ}
  {hl : ∀ a b, Keyed.Clash (g a) b ↔ Keyed.Clash a b} {hr : ∀ a b, Keyed.Clash a (g b) ↔ Keyed.Clash a b}

@[simp] theorem rows_modify : (t.modify p g hl hr).rows = t.rows.map fun r => if p r then g r else r := rfl

theorem mem_modify {r : ρ} : r ∈ t.modify p g hl hr ↔ ∃ x ∈ t, (if p x then g x else x) = r := by
  simp [mem_iff]

end Modify

/-- `INSERT INTO … ON CONFLICT(…) DO UPDATE SET …`: `p` finds the row in conflict and `g` updates it. -/
def upsert (t : Table ρ) (r : ρ) (p : ρ → Prop) [DecidablePred p] (g : ρ → ρ)
    (hl : ∀ a b, Keyed.Clash (g a) b ↔ Keyed.Clash a b) (hr : ∀ a b, Keyed.Clash a (g b) ↔ Keyed.Clash a b) :
    Option (Table ρ) :=
  if t.Has p then some (t.modify p g hl hr) else t.insert r

/-- The row that an upsert leaves. -/
def upserted (t : Table ρ) (r : ρ) (p : ρ → Prop) [DecidablePred p] (g : ρ → ρ) : ρ := ((t.find? p).map g).getD r

section Upsert

variable {t t' : Table ρ} {r : ρ} {p : ρ → Prop} [DecidablePred p] {g : ρ → ρ}
  {hl : ∀ a b, Keyed.Clash (g a) b ↔ Keyed.Clash a b} {hr : ∀ a b, Keyed.Clash a (g b) ↔ Keyed.Clash a b}

theorem upsert_eq_some : t.upsert r p g hl hr = some t' ↔
    (t.Has p ∧ t.modify p g hl hr = t') ∨ (¬ t.Has p ∧ t.insert r = some t') := by
  unfold upsert
  split <;> simp_all

/-- An upsert goes through when only rows in conflict clash with the new row. -/
theorem exists_upsert (h : ∀ x ∈ t, Keyed.Clash x r → p x) : ∃ t', t.upsert r p g hl hr = some t' := by
  unfold upsert
  split
  · exact ⟨_, rfl⟩
  · rename_i hn
    exact exists_insert fun x hx hc => hn ⟨x, hx, h x hx hc⟩

/-- **After an upsert by key**: the rows of other keys, and the row of this one. -/
theorem mem_upsert (h : t.upsert r p g hl hr = some t') (hp : ∀ a b, p a → p b → Keyed.Clash a b) {x : ρ} :
    x ∈ t' ↔ (x ∈ t ∧ ¬ p x) ∨ x = t.upserted r p g := by
  rcases upsert_eq_some.mp h with ⟨⟨y, hy, hpy⟩, rfl⟩ | ⟨hn, hi⟩
  · have hfind : t.find? p = some y := find?_eq_some_of_mem hp hy hpy
    rw [mem_modify, upserted, hfind, Option.map_some, Option.getD_some]
    constructor
    · rintro ⟨z, hz, rfl⟩
      by_cases hpz : p z
      · rw [if_pos hpz, eq_of_clash hz hy (hp z y hpz hpy)]
        exact Or.inr rfl
      · rw [if_neg hpz]
        exact Or.inl ⟨hz, hpz⟩
    · rintro (⟨hz, hpz⟩ | rfl)
      · exact ⟨x, hz, if_neg hpz⟩
      · exact ⟨y, hy, if_pos hpy⟩
  · have hnone : t.find? p = none := find?_eq_none.mpr fun y hy hpy => hn ⟨y, hy, hpy⟩
    rw [mem_insert hi, upserted, hnone, Option.map_none, Option.getD_none]
    exact or_congr ⟨fun hx => ⟨hx, fun hpx => hn ⟨x, hx, hpx⟩⟩, fun hx => hx.1⟩ Iff.rfl

end Upsert

/-! ### Totals -/

/-- `SELECT SUM(f) … WHERE p`. -/
def total (t : Table ρ) (p : ρ → Prop) [DecidablePred p] (f : ρ → ℤ) : ℤ := ((t.select p).map f).sum

section Total

variable {t t' : Table ρ} {p q : ρ → Prop} [DecidablePred p] [DecidablePred q] {f : ρ → ℤ} {r old : ρ}

theorem total_one : t.total p (fun _ => 1) = (t.select p).length := by simp [total]

theorem total_eq_zero (h : ∀ x ∈ t, ¬ p x) : t.total p f = 0 := by
  have hnil : t.select p = [] := List.filter_eq_nil_iff.mpr fun x hx => by simpa using h x hx
  rw [total, hnil, List.map_nil, List.sum_nil]

/-- A new row adds its value. -/
theorem total_append (h : t'.rows = t.rows ++ [r]) : t'.total p f = t.total p f + if p r then f r else 0 := by
  unfold total select
  rw [h, List.filter_append, List.map_append, List.sum_append]
  by_cases hp : p r
  · simp [hp]
  · simp [hp]

/-- A deletion elsewhere changes nothing. -/
theorem total_delete (h : ∀ x ∈ t, p x → ¬ q x) : (t.delete q).total p f = t.total p f := by
  unfold total select delete
  rw [List.filter_filter]
  refine congrArg (fun l => (l.map f).sum) (List.filter_congr fun x hx => ?_)
  by_cases hp : p x
  · simp [hp, h x hx hp]
  · simp [hp]

/-- The value of a row whose place another one takes is exchanged. -/
theorem total_exchange (hold : old ∈ t) (hq : q old) (hclash : ∀ a b, q a → q b → Keyed.Clash a b) (hp : p old ↔ p r)
    (hrows : t'.rows = t.rows.map fun x => if q x then r else x) :
    t'.total p f = t.total p f + if p r then f r - f old else 0 := by
  obtain ⟨l₁, l₂, hl⟩ := List.append_of_mem hold
  have hdistinct := t.distinct
  rw [hl, List.pairwise_append, List.pairwise_cons] at hdistinct
  obtain ⟨-, ⟨hafter, -⟩, hbefore⟩ := hdistinct
  -- No other row is in the place.
  have h₁ : l₁.map (fun x => if q x then r else x) = l₁ :=
    (List.map_congr_left fun x hx => if_neg fun hqx =>
      hbefore x hx old List.mem_cons_self (hclash x old hqx hq)).trans (List.map_id _)
  have h₂ : l₂.map (fun x => if q x then r else x) = l₂ :=
    (List.map_congr_left fun x hx => if_neg fun hqx => hafter x hx (hclash old x hq hqx)).trans (List.map_id _)
  unfold total select
  rw [hrows, hl, List.map_append, List.map_cons, if_pos hq, h₁, h₂]
  by_cases hr : p r
  · simp only [List.filter_append, List.filter_cons, hr, hp.mpr hr, decide_true, if_true, List.map_append, List.map_cons,
      List.sum_append, List.sum_cons]
    omega
  · simp [hr, mt hp.mp hr]

end Total

end Table

end AgentObservability.Foundation
