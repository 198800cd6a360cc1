import AgentObservability.Foundation.KeySort
import Mathlib.Data.List.Nodup

/-!
# Reading in a circle

Rows with distinct keys are read in a circle: from the one after a cursor to the last, and from
the first to the one at the cursor. Whoever reads some of them leaves the cursor at the last row
that was read.

* `cycle` is the circle from a cursor, and `cycle_advance` says that after the rows that were
  read come the others, and then those again.
* `Unread` counts what has not been read since some time. `Unread.serve` is its rule for reading
  some rows, and `Unread.exhausted` says that with nothing unread everything was read.
-/

namespace AgentObservability.Foundation

universe u v

section Circle

variable {κ : Type u} {ρ : Type v} [LinearOrder κ] (key : ρ → κ)

/-- The rows from the one after the cursor, in a circle. -/
def cycle (cursor : κ) (rows : List ρ) : List ρ :=
  sortByKey key (rows.filter fun r => cursor < key r) ++ sortByKey key (rows.filter fun r => key r ≤ cursor)

/-- Where reading some rows leaves the cursor. -/
def advance (cursor : κ) (read : List ρ) : κ := read.foldl (fun _ r => key r) cursor

omit [LinearOrder κ] in
@[simp] theorem advance_nil (cursor : κ) : advance key cursor ([] : List ρ) = cursor := rfl

omit [LinearOrder κ] in
@[simp] theorem advance_cons (cursor : κ) (r : ρ) (read : List ρ) :
    advance key cursor (r :: read) = advance key (key r) read := rfl

variable {key} {cursor : κ} {rows rest : List ρ} {r : ρ}

omit [LinearOrder κ] in
theorem nodup_filter (h : (rows.map key).Nodup) (p : ρ → Bool) : ((rows.filter p).map key).Nodup :=
  h.sublist (List.filter_sublist.map key)

theorem cycle_perm (cursor : κ) (rows : List ρ) : (cycle key cursor rows).Perm rows := by
  refine ((sortByKey_perm).append (sortByKey_perm)).trans ?_
  have hcomplement : (rows.filter fun r => key r ≤ cursor) = rows.filter fun r => !decide (cursor < key r) := by
    refine List.filter_congr fun r _ => ?_
    rw [← decide_not, decide_eq_decide, not_lt]
  rw [hcomplement]
  exact List.filter_append_perm _ rows

/-- **After a row comes what came after it, and then the row again.** -/
theorem cycle_cons (hkeys : (rows.map key).Nodup) (h : cycle key cursor rows = r :: rest) :
    cycle key (key r) rows = rest ++ [r] := by
  have habove := sortByKey_strict (nodup_filter hkeys fun r => decide (cursor < key r))
  have hbelow := sortByKey_strict (nodup_filter hkeys fun r => decide (key r ≤ cursor))
  have hafter := sortByKey_strict (nodup_filter hkeys fun x => decide (key r < key x))
  have hupto := sortByKey_strict (nodup_filter hkeys fun x => decide (key x ≤ key r))
  have hinj : ∀ x ∈ rows, ∀ y ∈ rows, key x = key y → x = y := fun x hx y hy hxy =>
    List.inj_on_of_nodup_map hkeys hx hy hxy
  have hr : r ∈ rows := (cycle_perm cursor rows).mem_iff.mp (h ▸ List.mem_cons_self)
  unfold cycle at h ⊢
  cases htop : sortByKey key (rows.filter fun r => decide (cursor < key r)) with
  | nil =>
    -- The cursor is behind the last row: the first of all comes next.
    rw [htop, List.nil_append] at h
    have hall : ∀ x ∈ rows, key x ≤ cursor := by
      intro x hx
      by_contra hlt
      have : x ∈ sortByKey key (rows.filter fun r => decide (cursor < key r)) := by simpa [hx] using hlt
      rw [htop] at this
      cases this
    have hmem : ∀ x, x ∈ rows ↔ x ∈ r :: rest := by
      intro x
      rw [← h]
      constructor
      · intro hx
        simpa [hx] using hall x hx
      · intro hx
        exact (List.mem_filter.mp (mem_sortByKey.mp hx)).1
    rw [h] at hbelow
    obtain ⟨hleast, hrest⟩ := List.pairwise_cons.mp hbelow
    have hfirst : sortByKey key (rows.filter fun x => decide (key r < key x)) = rest := by
      refine eq_of_strict hafter hrest fun x => ?_
      rw [mem_sortByKey, List.mem_filter, decide_eq_true_eq]
      constructor
      · rintro ⟨hx, hlt⟩
        rcases List.mem_cons.mp ((hmem x).mp hx) with rfl | hx
        · exact absurd hlt (lt_irrefl _)
        · exact hx
      · intro hx
        exact ⟨(hmem x).mpr (List.mem_cons_of_mem r hx), hleast x hx⟩
    have hlast : sortByKey key (rows.filter fun x => decide (key x ≤ key r)) = [r] := by
      refine eq_of_strict hupto (List.pairwise_singleton _ _) fun x => ?_
      rw [mem_sortByKey, List.mem_filter, decide_eq_true_eq, List.mem_singleton]
      constructor
      · rintro ⟨hx, hle⟩
        rcases List.mem_cons.mp ((hmem x).mp hx) with rfl | hx
        · rfl
        · exact absurd hle (not_le.mpr (hleast x hx))
      · rintro rfl
        exact ⟨hr, le_rfl⟩
    rw [hfirst, hlast]
  | cons r' above =>
    rw [htop, List.cons_append] at h
    obtain ⟨rfl, rfl⟩ := List.cons.inj h
    have hmem : ∀ x, x ∈ rows ∧ cursor < key x ↔ x ∈ r' :: above := by
      intro x
      rw [← htop, mem_sortByKey, List.mem_filter, decide_eq_true_eq]
    have hnext : cursor < key r' := ((hmem r').mpr List.mem_cons_self).2
    rw [htop] at habove
    obtain ⟨hleast, habove⟩ := List.pairwise_cons.mp habove
    have hfirst : sortByKey key (rows.filter fun x => decide (key r' < key x)) = above := by
      refine eq_of_strict hafter habove fun x => ?_
      rw [mem_sortByKey, List.mem_filter, decide_eq_true_eq]
      constructor
      · rintro ⟨hx, hlt⟩
        rcases List.mem_cons.mp ((hmem x).mp ⟨hx, hnext.trans hlt⟩) with rfl | hx
        · exact absurd hlt (lt_irrefl _)
        · exact hx
      · intro hx
        exact ⟨((hmem x).mpr (List.mem_cons_of_mem r' hx)).1, hleast x hx⟩
    have hlast : sortByKey key (rows.filter fun x => decide (key x ≤ key r')) =
        sortByKey key (rows.filter fun x => decide (key x ≤ cursor)) ++ [r'] := by
      refine eq_of_strict hupto ?_ fun x => ?_
      · refine List.pairwise_append.mpr ⟨hbelow, List.pairwise_singleton _ _, fun x hx y hy => ?_⟩
        rw [List.mem_singleton.mp hy]
        exact lt_of_le_of_lt (of_decide_eq_true (List.mem_filter.mp (mem_sortByKey.mp hx)).2) hnext
      · rw [mem_sortByKey, List.mem_filter, decide_eq_true_eq, List.mem_append, List.mem_singleton, mem_sortByKey,
          List.mem_filter, decide_eq_true_eq]
        constructor
        · rintro ⟨hx, hle⟩
          by_cases hcursor : key x ≤ cursor
          · exact .inl ⟨hx, hcursor⟩
          · rcases List.mem_cons.mp ((hmem x).mp ⟨hx, not_le.mp hcursor⟩) with rfl | hx
            · exact .inr rfl
            · exact absurd hle (not_le.mpr (hleast x hx))
        · rintro (⟨hx, hle⟩ | rfl)
          · exact ⟨hx, hle.trans hnext.le⟩
          · exact ⟨hr, le_rfl⟩
    rw [hfirst, hlast, List.append_assoc]

/-- **After the rows that were read come the others, and then those again.** -/
theorem cycle_advance (hkeys : (rows.map key).Nodup) : ∀ {read : List ρ} {cursor : κ} {rest : List ρ},
    cycle key cursor rows = read ++ rest → cycle key (advance key cursor read) rows = rest ++ read := by
  intro read
  induction read with
  | nil =>
    intro cursor rest h
    rw [advance_nil, h, List.nil_append, List.append_nil]
  | cons r read ih =>
    intro cursor rest h
    have hnext : cycle key (key r) rows = read ++ (rest ++ [r]) := by
      exact (cycle_cons hkeys h).trans (List.append_assoc read rest [r])
    rw [advance_cons, ih hnext, List.append_assoc, List.singleton_append]

/-- A circle from the cursor begins with the rows that were not read; all others were. -/
def Unread (key : ρ → κ) (rows : List ρ) (cursor : κ) (seen : ρ → Prop) (n : ℕ) : Prop :=
  ∃ unread read, cycle key cursor rows = unread ++ read ∧ (∀ r ∈ read, seen r) ∧ unread.length = n

/-- At first nothing was read. -/
theorem unread_all (rows : List ρ) (cursor : κ) (seen : ρ → Prop) : Unread key rows cursor seen rows.length :=
  ⟨cycle key cursor rows, [], (List.append_nil _).symm, nofun, (cycle_perm cursor rows).length_eq⟩

namespace Unread

variable {seen seen' : ρ → Prop} {n : ℕ}

theorem mono (h : Unread key rows cursor seen n) (hseen : ∀ r, seen r → seen' r) : Unread key rows cursor seen' n := by
  obtain ⟨unread, done, hcycle, hdone, hn⟩ := h
  exact ⟨unread, done, hcycle, fun r hr => hseen r (hdone r hr), hn⟩

theorem le_length (h : Unread key rows cursor seen n) : n ≤ rows.length := by
  obtain ⟨unread, done, hcycle, -, rfl⟩ := h
  have hlength : (cycle key cursor rows).length = rows.length := (cycle_perm cursor rows).length_eq
  rw [← hlength, hcycle, List.length_append]
  exact Nat.le_add_right _ _

/-- **Reading rows leaves fewer to be read.** -/
theorem serve (hkeys : (rows.map key).Nodup) (h : Unread key rows cursor seen n)
    {read : List ρ} (hread : read <+: cycle key cursor rows) (hseen : ∀ r, seen r → seen' r) (hnew : ∀ r ∈ read, seen' r) :
    Unread key rows (advance key cursor read) seen' (n - read.length) := by
  obtain ⟨unread, done, hcycle, hdone, rfl⟩ := h
  obtain ⟨rest, hrest⟩ := hread
  have hnext := cycle_advance hkeys hrest.symm
  rcases List.append_eq_append_iff.mp (hrest.trans hcycle) with ⟨left, hunread, hdone'⟩ | ⟨again, hread', hdone'⟩
  · -- Some unread rows are left.
    refine ⟨left, done ++ read, ?_, fun r hr => ?_, ?_⟩
    · rw [hnext, hdone', List.append_assoc]
    · rcases List.mem_append.mp hr with hr | hr
      · exact hseen r (hdone r hr)
      · exact hnew r hr
    · rw [hunread, List.length_append, Nat.add_sub_cancel_left]
  · -- The circle was closed.
    refine ⟨[], cycle key (advance key cursor read) rows, rfl, fun r hr => ?_, ?_⟩
    · rw [hnext] at hr
      rcases List.mem_append.mp hr with hr | hr
      · exact hseen r (hdone r (hdone' ▸ List.mem_append_right _ hr))
      · exact hnew r hr
    · rw [hread', List.length_append, List.length_nil]
      omega

/-- **With nothing unread everything was read.** -/
theorem exhausted (h : Unread key rows cursor seen 0) {r : ρ} (hr : r ∈ rows) : seen r := by
  obtain ⟨unread, done, hcycle, hdone, hn⟩ := h
  apply hdone
  rw [List.length_eq_zero_iff.mp hn, List.nil_append] at hcycle
  exact hcycle ▸ (cycle_perm cursor rows).mem_iff.mpr hr

end Unread

end Circle

end AgentObservability.Foundation
