import Mathlib.Data.List.Lex
import Mathlib.Data.String.Basic
import Mathlib.Data.Char
import Mathlib.Data.Nat.Digits.Defs

/-!
# Numbers of a fixed width

Decimal numbers that are filled with zeros on the left up to a width
(`zeroPadded`). Those that fit their width are ordered as texts as they are as
numbers (`zeroPadded_lt_iff`), and texts of the same length are compared before
what follows them (`append_lt_append_iff`).
-/

namespace AgentObservability.Foundation

/-- Texts that start with texts of the same length. -/
theorem append_lt_append_iff {α : Type*} [LinearOrder α] {a b x y : List α} (h : a.length = b.length) :
    a ++ x < b ++ y ↔ a < b ∨ a = b ∧ x < y := by
  induction a generalizing b with
  | nil =>
    obtain rfl : b = [] := List.length_eq_zero_iff.mp h.symm
    simp
  | cons c a ih =>
    cases b with
    | nil => simp at h
    | cons d b =>
      have htail : a.length = b.length := by simpa using h
      simp only [List.cons_append, List.cons_lt_cons_iff, ih htail, List.cons.injEq]
      tauto

/-- A number in decimal, filled with zeros on the left up to a width. -/
def zeroPadded (width n : ℕ) : List Char := (Nat.toDigits 10 n).leftpad width '0'

/-- The digits of a number at the lowest places, of which there are `width`. -/
def lowDigits : ℕ → ℕ → List Char
  | 0, _ => []
  | width + 1, n => lowDigits width (n / 10) ++ [Nat.digitChar (n % 10)]

theorem length_lowDigits (width n : ℕ) : (lowDigits width n).length = width := by
  induction width generalizing n with
  | zero => rfl
  | succ width ih => rw [lowDigits, List.length_append, ih, List.length_singleton]

theorem digitChar_lt_iff {m n : ℕ} (hm : m < 10) (hn : n < 10) : Nat.digitChar m < Nat.digitChar n ↔ m < n := by
  rw [Char.lt_def, UInt32.lt_iff_toNat_lt]
  show (Nat.digitChar m).toNat < (Nat.digitChar n).toNat ↔ m < n
  rw [Nat.toNat_digitChar_of_lt_ten hm, Nat.toNat_digitChar_of_lt_ten hn]
  omega

theorem lowDigits_lt_iff {width m n : ℕ} (hm : m < 10 ^ width) (hn : n < 10 ^ width) :
    lowDigits width m < lowDigits width n ↔ m < n := by
  induction width generalizing m n with
  | zero =>
    rw [pow_zero] at hm hn
    simp only [lowDigits, lt_irrefl, false_iff]
    omega
  | succ width ih =>
    rw [pow_succ] at hm hn
    have hlt := ih (m := m / 10) (n := n / 10) (by omega) (by omega)
    have hgt := ih (m := n / 10) (n := m / 10) (by omega) (by omega)
    have heq : lowDigits width (m / 10) = lowDigits width (n / 10) ↔ m / 10 = n / 10 := by
      constructor
      · intro h
        rw [h, lt_self_iff_false, false_iff] at hlt
        rw [h, lt_self_iff_false, false_iff] at hgt
        omega
      · exact fun h => by rw [h]
    have hlast := digitChar_lt_iff (Nat.mod_lt m (show 10 > 0 by decide)) (Nat.mod_lt n (show 10 > 0 by decide))
    rw [lowDigits, lowDigits, append_lt_append_iff (by simp only [length_lowDigits]), hlt, heq]
    simp only [List.cons_lt_cons_iff, lt_irrefl, and_false, or_false, hlast]
    omega

theorem leftpad_toDigits {width n : ℕ} (hwidth : 0 < width) (h : n < 10 ^ width) :
    (Nat.toDigits 10 n).leftpad width '0' = lowDigits width n := by
  induction width generalizing n with
  | zero => exact absurd hwidth (lt_irrefl 0)
  | succ width ih =>
    by_cases hone : n < 10
    · -- one digit, and only zeros before it
      have hzeros : ∀ w, lowDigits w 0 = List.replicate w '0' := by
        intro w
        induction w with
        | zero => rfl
        | succ w ih => rw [lowDigits, Nat.zero_div, ih, List.replicate_succ']; rfl
      rw [Nat.toDigits_of_lt_base hone, lowDigits, Nat.div_eq_of_lt hone, Nat.mod_eq_of_lt hone, hzeros]
      simp [List.leftpad]
    · have hpos : 0 < width := by
        rcases Nat.eq_zero_or_pos width with rfl | hpos
        · omega
        · exact hpos
      rw [pow_succ] at h
      have hsplit := Nat.toDigits_append_toDigits (b := 10) (n := n / 10) (d := n % 10) (by decide) (by omega)
        (Nat.mod_lt n (by decide))
      rw [Nat.div_add_mod, Nat.toDigits_of_lt_base (Nat.mod_lt n (by decide))] at hsplit
      rw [lowDigits, ← ih hpos (by omega), ← hsplit]
      simp [List.leftpad, ← List.append_assoc]

theorem length_zeroPadded {width n : ℕ} (hwidth : 0 < width) (h : n < 10 ^ width) :
    (zeroPadded width n).length = width := by
  rw [zeroPadded, leftpad_toDigits hwidth h, length_lowDigits]

/-- **Numbers that fit the width are ordered as texts as they are as numbers.** -/
theorem zeroPadded_lt_iff {width m n : ℕ} (hwidth : 0 < width) (hm : m < 10 ^ width) (hn : n < 10 ^ width) :
    zeroPadded width m < zeroPadded width n ↔ m < n := by
  rw [zeroPadded, zeroPadded, leftpad_toDigits hwidth hm, leftpad_toDigits hwidth hn, lowDigits_lt_iff hm hn]

theorem zeroPadded_eq_iff {width m n : ℕ} (hwidth : 0 < width) (hm : m < 10 ^ width) (hn : n < 10 ^ width) :
    zeroPadded width m = zeroPadded width n ↔ m = n := by
  constructor
  · intro h
    have hlt := zeroPadded_lt_iff hwidth hm hn
    have hgt := zeroPadded_lt_iff hwidth hn hm
    rw [h, lt_self_iff_false, false_iff] at hlt hgt
    omega
  · exact fun h => by rw [h]

end AgentObservability.Foundation
