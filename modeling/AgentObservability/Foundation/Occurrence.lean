import Mathlib.Data.Nat.Notation
import Mathlib.Data.List.Infix

/-!
# Where a pattern stands in a text

`position` is where a pattern first stands in a text. It does not move when the text
goes on (`position_append`), so a reader who asks again after every piece gets one
answer.

A reader who does not keep the text keeps how much of the pattern it ends with, at
most (`LongestEnd`). A `Follows` function says how this changes with one more element,
from the pattern alone, and `LongestEnd.next` carries it over to the text.
-/

namespace AgentObservability.Foundation

universe u

variable {α : Type u}

/-! ### The first place -/

section Position

variable [DecidableEq α]

/-- Where the pattern, which is not empty, first stands in the text. -/
def position (pattern : List α) : List α → Option ℕ
  | [] => none
  | a :: text => if pattern <+: a :: text then some 0 else (position pattern text).map (· + 1)

variable {pattern text more : List α} {i : ℕ}

/-- What stands before the first place, and after it. -/
theorem position_eq_some (h : position pattern text = some i) :
    ∃ rest, text = text.take i ++ pattern ++ rest ∧ i + pattern.length ≤ text.length := by
  induction text generalizing i with
  | nil => exact absurd h nofun
  | cons a text ih =>
    unfold position at h
    by_cases hhere : pattern <+: a :: text
    · rw [if_pos hhere] at h
      obtain ⟨rest, hrest⟩ := hhere
      cases h
      refine ⟨rest, by simpa using hrest.symm, ?_⟩
      rw [← hrest, List.length_append]
      omega
    · rw [if_neg hhere] at h
      obtain ⟨j, hj, rfl⟩ := Option.map_eq_some_iff.mp h
      obtain ⟨rest, hrest, hle⟩ := ih hj
      refine ⟨rest, ?_, ?_⟩
      · rw [List.take_succ_cons, List.cons_append, List.cons_append, ← hrest]
      · rw [List.length_cons]
        omega

/-- **The first place stays the first place as the text goes on.** -/
theorem position_append (h : position pattern text = some i) : position pattern (text ++ more) = some i := by
  induction text generalizing i with
  | nil => exact absurd h nofun
  | cons a text ih =>
    unfold position at h
    rw [List.cons_append]
    unfold position
    by_cases hhere : pattern <+: a :: text
    · rw [if_pos hhere] at h
      have hmore : pattern <+: a :: (text ++ more) := hhere.trans (List.prefix_append _ _)
      rw [if_pos hmore, h]
    · rw [if_neg hhere] at h
      obtain ⟨j, hj, rfl⟩ := Option.map_eq_some_iff.mp h
      have hlen : pattern.length ≤ (a :: text).length := by
        obtain ⟨-, -, hle⟩ := position_eq_some hj
        rw [List.length_cons]
        omega
      -- what the text ends with is too late for the pattern to start in it
      have hmore : ¬ pattern <+: a :: (text ++ more) := fun hstands =>
        hhere (List.prefix_of_prefix_length_le hstands (List.prefix_append (a :: text) more) hlen)
      rw [if_neg hmore, ih hj]
      rfl

/-- It is nowhere exactly where the text does not have the pattern. -/
theorem position_eq_none (hne : pattern ≠ []) : position pattern text = none ↔ ¬ pattern <:+: text := by
  induction text with
  | nil => simpa [position] using hne
  | cons a text ih =>
    unfold position
    rw [List.infix_cons_iff]
    by_cases hhere : pattern <+: a :: text
    · simp [hhere]
    · simp [hhere, ih]

theorem position_cons_of_not {a : α} (h : ¬ pattern <+: a :: text) :
    position pattern (a :: text) = (position pattern text).map (· + 1) := if_neg h

theorem position_cons_of_start {a : α} (h : pattern <+: a :: text) : position pattern (a :: text) = some 0 := if_pos h

theorem map_add_one_map_add (found : Option ℕ) (n : ℕ) : (found.map (· + n)).map (· + 1) = found.map (· + (n + 1)) := by
  cases found with
  | none => rfl
  | some i => rfl

/-- **A text that ends where the pattern cannot go on is passed over**: the pattern stands in what follows. -/
theorem position_append_of_last {a : α} (hlast : text.getLast? = some a) (ha : a ∉ pattern.dropLast)
    (hno : ¬ pattern <:+: text) : position pattern (text ++ more) = (position pattern more).map (· + text.length) := by
  induction text with
  | nil => cases hlast
  | cons b text ih =>
    have hhere : ¬ pattern <+: b :: (text ++ more) := by
      intro hstands
      rcases List.prefix_or_prefix_of_prefix hstands (List.prefix_append (b :: text) more) with hinside | ⟨rest, hrest⟩
      · exact hno hinside.isInfix
      · cases rest with
        | nil => exact hno (by rw [← hrest, List.append_nil])
        | cons c rest =>
          -- the text is a proper start of the pattern, which would go on after its last element
          refine ha ?_
          rw [← hrest, List.dropLast_append_of_ne_nil (List.cons_ne_nil c rest)]
          exact List.mem_append_left _ (List.mem_of_getLast? hlast)
    rw [List.cons_append, position_cons_of_not hhere]
    cases text with
    | nil => rfl
    | cons c text =>
      rw [ih (by simpa using hlast) fun hpart => hno (hpart.trans (List.suffix_cons b (c :: text)).isInfix)]
      exact map_add_one_map_add _ _

/-- A text without the first element of the pattern is passed over. -/
theorem position_append_of_notMem {a : α} {rest : List α} (ha : a ∉ text) :
    position (a :: rest) (text ++ more) = (position (a :: rest) more).map (· + text.length) := by
  induction text with
  | nil => simp
  | cons b text ih =>
    rw [List.mem_cons, not_or] at ha
    have hhere : ¬ a :: rest <+: b :: (text ++ more) := fun hstands => ha.1 (List.cons_prefix_cons.mp hstands).1
    rw [List.cons_append, position_cons_of_not hhere, ih ha.2]
    exact map_add_one_map_add _ _

/-- **A pattern whose first element does not come again stands after a text that does not have it.** -/
theorem position_append_self {a : α} {rest : List α} (ha : a ∉ rest) (hno : ¬ a :: rest <:+: text) :
    position (a :: rest) (text ++ (a :: rest ++ more)) = some text.length := by
  induction text with
  | nil => exact position_cons_of_start (List.prefix_append (a :: rest) more)
  | cons b text ih =>
    have hhere : ¬ a :: rest <+: b :: (text ++ (a :: rest ++ more)) := by
      intro hstands
      rcases List.prefix_or_prefix_of_prefix hstands (List.prefix_append (b :: text) (a :: rest ++ more)) with
        hinside | ⟨later, hlater⟩
      · exact hno hinside.isInfix
      · cases later with
        | nil => exact hno (by rw [← hlater, List.append_nil])
        | cons c later =>
          -- the pattern would have to begin again inside itself
          have hagain : c :: later <+: a :: rest ++ more := by
            rw [← List.prefix_append_right_inj (b :: text), hlater]
            exact hstands
          have hc : c = a := (List.cons_prefix_cons.mp hagain).1
          rw [List.cons_append, List.cons.injEq] at hlater
          refine ha ?_
          rw [← hlater.2, hc]
          exact List.mem_append_right _ List.mem_cons_self
    rw [List.cons_append, position_cons_of_not hhere, ih fun hpart => hno (hpart.trans (List.suffix_cons b text).isInfix)]
    rfl

end Position

/-! ### The first place of an element -/

section Split

variable [DecidableEq α]

/-- What stands before the first place of an element, and after it. -/
def splitOnce (a : α) : List α → Option (List α × List α)
  | [] => none
  | b :: text => if b = a then some ([], text) else (splitOnce a text).map fun (before, after) => (b :: before, after)

theorem splitOnce_append {a : α} {before : List α} (h : a ∉ before) (after : List α) :
    splitOnce a (before ++ a :: after) = some (before, after) := by
  induction before with
  | nil => exact if_pos rfl
  | cons b before ih =>
    rw [List.mem_cons, not_or] at h
    rw [List.cons_append, splitOnce, if_neg (Ne.symm h.1), ih h.2]
    rfl

theorem splitOnce_eq_some {a : α} {text before after : List α} (h : splitOnce a text = some (before, after)) :
    text = before ++ a :: after := by
  induction text generalizing before with
  | nil => exact absurd h nofun
  | cons b text ih =>
    unfold splitOnce at h
    by_cases hb : b = a
    · rw [if_pos hb] at h
      cases h
      rw [hb, List.nil_append]
    · rw [if_neg hb] at h
      obtain ⟨⟨before, after⟩, hsome, heq⟩ := Option.map_eq_some_iff.mp h
      cases heq
      rw [List.cons_append, ← ih hsome]

end Split

/-! ### The longest beginning a text ends with -/

/-- So much of the pattern the text ends with, and no more. -/
structure LongestEnd (pattern text : List α) (k : ℕ) : Prop where
  /-- The text ends with it. -/
  ends : pattern.take k <:+ text
  /-- With no longer beginning. -/
  longest : ∀ j ≤ pattern.length, pattern.take j <:+ text → j ≤ k

/-- What one more element makes of a beginning of the pattern that is not the whole of it. -/
def Follows (pattern : List α) (next : ℕ → α → ℕ) : Prop :=
  ∀ k < pattern.length, ∀ a, LongestEnd pattern (pattern.take k ++ [a]) (next k a)

variable {pattern text : List α} {k : ℕ}

theorem longestEnd_nil (hne : pattern ≠ []) : LongestEnd pattern ([] : List α) 0 := by
  refine ⟨by simp, ?_⟩
  intro j _ hends
  have hlen := hends.length_le
  rw [List.length_take, List.length_nil] at hlen
  have := List.length_pos_iff.mpr hne
  omega

/-- **How a beginning goes on is how the text goes on.** -/
theorem LongestEnd.next {next : ℕ → α → ℕ} (hnext : Follows pattern next) (hk : k < pattern.length)
    (h : LongestEnd pattern text k) (a : α) : LongestEnd pattern (text ++ [a]) (next k a) := by
  have hstep := hnext k hk a
  constructor
  · obtain ⟨before, hbefore⟩ := h.ends
    have hlonger : pattern.take k ++ [a] <:+ text ++ [a] := ⟨before, by rw [← hbefore, List.append_assoc]⟩
    exact hstep.ends.trans hlonger
  · intro j hj hends
    rcases Nat.eq_zero_or_pos j with rfl | hpos
    · exact Nat.zero_le _
    · obtain ⟨i, rfl⟩ := Nat.exists_eq_add_of_lt hpos
      rw [Nat.zero_add] at *
      apply hstep.longest (i + 1) hj
      -- without its last element it is an end of the text, so no longer than the longest
      rw [List.take_succ_eq_append_getElem (by omega)] at hends ⊢
      have hlast := List.suffix_concat_iff.mp hends
      rw [List.suffix_concat_iff]
      rcases hlast with hnil | ⟨t, ht, hsuffix⟩
      · exact absurd hnil (List.append_ne_nil_of_right_ne_nil _ (List.cons_ne_nil _ _))
      · obtain ⟨rfl, hlast⟩ := List.append_inj' ht rfl
        have hle := h.longest i (by omega) hsuffix
        refine .inr ⟨_, by rw [hlast], List.suffix_of_suffix_length_le hsuffix h.ends ?_⟩
        simp only [List.length_take]
        omega

/-- The pattern is at the end of the text exactly where all of it is. -/
theorem LongestEnd.whole (h : LongestEnd pattern text k) (hle : k ≤ pattern.length) :
    k = pattern.length ↔ pattern <:+ text := by
  constructor
  · intro heq
    have hends := h.ends
    rwa [heq, List.take_length] at hends
  · intro hends
    have hlongest := h.longest pattern.length (Nat.le_refl _) (by rwa [List.take_length])
    omega

end AgentObservability.Foundation
