import AgentObservability.Foundation.Attempt
import Mathlib.Data.List.Sort
import Mathlib.Data.Prod.Lex
import Mathlib.Order.WithBot

/-!
# Reading a table page by page

Rows are read in the order of a key, from the one after the key where the last
page stopped, and a page ends wherever a limit cuts it.

* `rowsAfter` is the query, and `rowsAfter_cons` says that the key of the last
  row that was read leads to the rows that were not.
* `readLoop` is the loop over the rows of one query, and `readLoop_slice` its rule
  for a loop that goes on where a cursor points to.
* `follow` asks for page after page. `follow_eq` says that what the pages leave
  to be read is what they give, however they are cut.
-/

namespace AgentObservability.Foundation

universe u v w x

/-! ### The query -/

section Query

variable {κ : Type u} {ρ : Type v} [LinearOrder κ]

/-- `WHERE key > after ORDER BY key`, of rows with their keys. -/
def rowsAfter (after : κ) (rows : List (κ × ρ)) : List (κ × ρ) :=
  (rows.filter fun r => after < r.1).insertionSort fun a b => a.1 ≤ b.1

/-- No two rows have the same key. -/
def DistinctKeys (rows : List (κ × ρ)) : Prop := (rows.map Prod.fst).Nodup

variable {after : κ} {rows : List (κ × ρ)}

theorem rowsAfter_perm : (rowsAfter after rows).Perm (rows.filter fun r => after < r.1) :=
  List.perm_insertionSort _ _

@[simp] theorem mem_rowsAfter {r : κ × ρ} : r ∈ rowsAfter after rows ↔ r ∈ rows ∧ after < r.1 := by
  rw [rowsAfter_perm.mem_iff, List.mem_filter, decide_eq_true_eq]

/-- Where every key is greater the query gives all rows. -/
theorem rowsAfter_perm_self (h : ∀ r ∈ rows, after < r.1) : (rowsAfter after rows).Perm rows := by
  have hall : (rows.filter fun r => after < r.1) = rows := List.filter_eq_self.mpr fun r hr => decide_eq_true (h r hr)
  exact rowsAfter_perm.trans (List.Perm.of_eq hall)

theorem rowsAfter_sorted : (rowsAfter after rows).Pairwise fun a b => a.1 ≤ b.1 :=
  have : Std.Total fun a b : κ × ρ => a.1 ≤ b.1 := ⟨fun a b => le_total a.1 b.1⟩
  have : IsTrans (κ × ρ) fun a b => a.1 ≤ b.1 := ⟨fun _ _ _ => le_trans⟩
  List.pairwise_insertionSort _ _

/-- Distinct keys make the order strict. -/
theorem rowsAfter_strict (h : DistinctKeys rows) : (rowsAfter after rows).Pairwise fun a b => a.1 < b.1 := by
  have hkeys : ((rowsAfter after rows).map Prod.fst).Nodup :=
    (rowsAfter_perm.map Prod.fst).nodup_iff.mpr (List.Nodup.sublist (List.filter_sublist.map Prod.fst) h)
  exact (rowsAfter_sorted.imp₂ (fun a b hle hne => lt_of_le_of_ne hle hne)) (List.pairwise_map.mp hkeys)

/-- **After a row that was read come the rows that were not.** -/
theorem rowsAfter_cons (h : DistinctKeys rows) {unread : List (κ × ρ)} {r : κ × ρ}
    (hrows : rowsAfter after rows = r :: unread) : rowsAfter r.1 rows = unread := by
  have hstrict : (rowsAfter after rows).Pairwise fun a b => a.1 < b.1 := rowsAfter_strict h
  rw [hrows] at hstrict
  obtain ⟨hunread, htail⟩ := List.pairwise_cons.mp hstrict
  have : Std.Irrefl fun a b : κ × ρ => a.1 < b.1 := ⟨fun a => lt_irrefl a.1⟩
  have : Std.Antisymm fun a b : κ × ρ => a.1 < b.1 := ⟨fun _ _ hab hba => absurd hab (lt_asymm hba)⟩
  refine List.Pairwise.eq_of_mem_iff (rowsAfter_strict h) htail fun x => ?_
  rw [mem_rowsAfter]
  constructor
  · intro hx
    have hr : after < r.1 := (mem_rowsAfter.mp (hrows ▸ List.mem_cons_self)).2
    have hmem : x ∈ rowsAfter after rows := mem_rowsAfter.mpr ⟨hx.1, hr.trans hx.2⟩
    rw [hrows, List.mem_cons] at hmem
    obtain rfl | hmem := hmem
    · exact absurd hx.2 (lt_irrefl _)
    · exact hmem
  · intro hx
    have hmem : x ∈ rowsAfter after rows := hrows ▸ List.mem_cons_of_mem _ hx
    exact ⟨(mem_rowsAfter.mp hmem).1, hunread x hx⟩

/-- **After the rows that were read come those that were not.** -/
theorem rowsAfter_append (h : DistinctKeys rows) : ∀ {read : List (κ × ρ)} {after : κ} {unread : List (κ × ρ)},
    rowsAfter after rows = read ++ unread → rowsAfter (read.foldl (fun _ r => r.1) after) rows = unread := by
  intro read
  induction read with
  | nil => exact fun hrows => hrows
  | cons r read ih => exact fun hrows => ih (rowsAfter_cons h hrows)

end Query

/-! ### The loop over the rows -/

section Loop

variable {σ : Type u} {ρ : Type v} {ε : Type w}

/-- What a loop makes of a row: it takes it and goes on, or it ends before it. -/
inductive Taken (σ : Type u) where
  /-- The row is taken. -/
  | more (s : σ)
  /-- The loop ends before the row. -/
  | stop (s : σ)

/-- A loop over rows. It ends when it is full, at a row that it does not take, or after the last one. -/
def readLoop (full : σ → Bool) (take : ρ → σ → Except ε (Taken σ)) (finish : σ → σ) : List ρ → σ → Except ε σ
  | [], s => .ok (if full s then s else finish s)
  | r :: rows, s =>
    if full s then .ok s
    else
      match take r s with
      | .error e => .error e
      | .ok (.stop t) => .ok t
      | .ok (.more t) => readLoop full take finish rows t

/-- **A slice.** A loop starts where a cursor in its state points to. Every row that it takes moves the cursor to the next
one, and what is given so far and what the other rows will give stay the same together; the first row is never left. Then
the loop either comes to the end, or it pauses with fewer rows left. A `LIMIT` of the query that fills the loop changes
nothing. The induction is on the limit, for a loop that has taken some rows. -/
theorem readLoop_slice {α : Type x} (full : σ → Bool) (take : ρ → σ → Except ε (Taken σ)) (finish : σ → σ) (good : σ → Prop)
    (source : σ → List ρ) (total : σ → List ρ → α) (count : σ → ℕ) {limit : ℕ}
    (hfull : ∀ s, full s = true → 0 < count s) (hlimit : ∀ s, limit ≤ count s → full s = true)
    (htake : ∀ s r rows, good s → source s = r :: rows → ∃ taken, take r s = .ok taken ∧
      match taken with
      | .stop t => 0 < count s ∧ good t ∧ source t = r :: rows ∧ total t (r :: rows) = total s (r :: rows)
      | .more t => good t ∧ source t = rows ∧ total t rows = total s (r :: rows) ∧ count t = count s + 1) {s : σ}
    (hs : good s) (hcount : count s = 0) :
    ∃ t, readLoop full take finish ((source s).take limit) s = .ok t ∧
      ((∃ u, good u ∧ source u = [] ∧ total u [] = total s (source s) ∧ t = finish u) ∨
        (good t ∧ total t (source t) = total s (source s) ∧ (source t).length < (source s).length)) := by
  have hrule : ∀ n v, good v → limit ≤ count v + n →
      ∃ t, readLoop full take finish ((source v).take n) v = .ok t ∧
        ((∃ u, good u ∧ source u = [] ∧ total u [] = total v (source v) ∧ t = finish u) ∨
          (good t ∧ total t (source t) = total v (source v) ∧ (source t).length < (source v).length + count v)) := by
    intro n
    induction n with
    | zero =>
      intro v hv hn
      have hf := hlimit v hn
      have hpos := hfull v hf
      refine ⟨v, ?_, .inr ⟨hv, rfl, by omega⟩⟩
      rw [List.take_zero, readLoop, if_pos hf]
    | succ n ih =>
      intro v hv hn
      cases hf : full v with
      | true =>
        have hpos := hfull v hf
        refine ⟨v, ?_, .inr ⟨hv, rfl, by omega⟩⟩
        cases (source v).take (n + 1) with
        | nil => rw [readLoop, if_pos hf]
        | cons r rows => rw [readLoop, if_pos hf]
      | false =>
        cases hsource : source v with
        | nil =>
          refine ⟨finish v, ?_, .inl ⟨v, hv, hsource, rfl, rfl⟩⟩
          rw [List.take_nil, readLoop, hf, if_neg Bool.false_ne_true]
        | cons r rows =>
          obtain ⟨taken, htaken, hspec⟩ := htake v r rows hv hsource
          rw [List.take_succ_cons, readLoop, hf, if_neg Bool.false_ne_true, htaken]
          cases taken with
          | stop t =>
            obtain ⟨hpos, ht, hrows, htotal⟩ := hspec
            exact ⟨t, rfl, .inr ⟨ht, hrows ▸ htotal, by rw [hrows]; omega⟩⟩
          | more t =>
            obtain ⟨ht, hrows, htotal, hnext⟩ := hspec
            obtain ⟨w, hloop, hw⟩ := ih t ht (by omega)
            rw [hrows, htotal] at hw
            rw [hrows] at hloop
            refine ⟨w, hloop, hw.imp_right fun hpause => ⟨hpause.1, hpause.2.1, ?_⟩⟩
            have hless := hpause.2.2
            rw [List.length_cons]
            omega
  obtain ⟨t, hloop, hend⟩ := hrule limit s hs (Nat.le_add_left _ _)
  exact ⟨t, hloop, hend.imp_right fun hpause => ⟨hpause.1, hpause.2.1, by have := hpause.2.2; omega⟩⟩

end Loop

/-! ### Page after page -/

section Pages

variable {σ α : Type u} {ε : Type v}

/-- A page: its items, and the cursor of the next one. -/
structure Page (σ α : Type u) where
  /-- The items. -/
  items : List α
  /-- The next cursor. -/
  next : Option σ

/-- At most so many pages, one after the other, where the request of every page has its number. `none` if there are more. -/
def follow (page : ℕ → σ → Except ε (Page σ α)) : ℕ → ℕ → σ → Except ε (Option (List α))
  | 0, _, _ => .ok none
  | pages + 1, n, s => do
    let p ← page n s
    match p.next with
    | none => pure (some p.items)
    | some t => do
      let rest ← follow page pages (n + 1) t
      pure (rest.map (p.items ++ ·))

/-- **However the pages are cut, they end and give what there is to read.** Every page succeeds, gives the first part of
what is to be read, and leaves less to do. -/
theorem follow_eq (page : ℕ → σ → Except ε (Page σ α)) (valid : σ → Prop) (rest : σ → List α) (todo : σ → ℕ)
    (hpage : ∀ n s, valid s → ∃ p : Page σ α, page n s = .ok p ∧
      match p.next with
      | none => p.items = rest s
      | some t => valid t ∧ p.items ++ rest t = rest s ∧ todo t < todo s) :
    ∀ {pages : ℕ} (n : ℕ) {s : σ}, valid s → todo s < pages → follow page pages n s = .ok (some (rest s)) := by
  intro pages
  induction pages with
  | zero => exact fun _ _ _ h => absurd h (Nat.not_lt_zero _)
  | succ pages ih =>
    intro n s hs htodo
    obtain ⟨p, hp, hnext⟩ := hpage n s hs
    rw [follow, hp, ok_bind]
    cases hcursor : p.next with
    | none =>
      rw [hcursor] at hnext
      exact congrArg (fun items => Except.ok (some items)) hnext
    | some t =>
      rw [hcursor] at hnext
      obtain ⟨ht, hitems, hless⟩ := hnext
      simp only [ih (n + 1) ht (by omega), ok_bind, Option.map_some, hitems]
      rfl

end Pages

end AgentObservability.Foundation
