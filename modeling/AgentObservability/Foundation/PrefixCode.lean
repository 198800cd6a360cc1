import AgentObservability.Foundation.JsonText
import Mathlib.Tactic.IntervalCases

/-!
# Texts that can be told apart

`PrefixFree print`: what is printed ends where it ends, whatever follows it.
The strings and arrays of a JSON document are prefix-free, and so are its
objects with keys that need no escapes; hence a text of this kind is printed for
one value only, and so is its UTF-8 encoding.
-/

namespace AgentObservability.Foundation

/-- The characters of a text. -/
def chars (t : Text) : List Char := t.flatMap String.toList

@[simp] theorem chars_nil : chars [] = [] := rfl

@[simp] theorem chars_cons (s : String) (t : Text) : chars (s :: t) = s.toList ++ chars t := List.flatMap_cons

@[simp] theorem chars_append (t u : Text) : chars (t ++ u) = chars t ++ chars u := List.flatMap_append

/-- **Texts with the same encoding have the same characters.** -/
theorem chars_eq_of_utf8 {t u : Text} (h : utf8 t = utf8 u) : chars t = chars u := by
  have hencode : ∀ t : Text, (String.ofList (chars t)).toByteArray = (utf8 t).toByteArray := by
    intro t
    rw [String.toByteArray_ofList, List.utf8Encode, chars, List.flatMap_assoc, utf8]
  have hstring : String.ofList (chars t) = String.ofList (chars u) := by
    rw [← String.toByteArray_inj, hencode, hencode, h]
  exact String.ofList_inj.mp hstring

variable {α β : Type}

/-- Where the characters of a value end can be told, whatever follows them. -/
def PrefixFree (print : α → List Char) : Prop := ∀ a b u v, print a ++ u = print b ++ v → a = b ∧ u = v

/-- No value is printed from this character on. -/
def Avoids (print : α → List Char) (stop : Char) : Prop := ∀ a u v, print a ++ u ≠ stop :: v

namespace PrefixFree

variable {print : α → List Char}

/-- A value behind a mark. -/
theorem mark (h : PrefixFree print) (mark : List Char) : PrefixFree fun a => mark ++ print a := by
  intro a b u v heq
  simp only [List.append_assoc, List.append_cancel_left_eq] at heq
  exact h a b u v heq

/-- A value before a mark. -/
theorem before (h : PrefixFree print) (mark : List Char) : PrefixFree fun a => print a ++ mark := by
  intro a b u v heq
  simp only [List.append_assoc] at heq
  obtain ⟨rfl, htail⟩ := h _ _ _ _ heq
  exact ⟨rfl, List.append_cancel_left htail⟩

/-- A value after another one. -/
theorem pair {print' : β → List Char} (h : PrefixFree print) (h' : PrefixFree print') :
    PrefixFree fun p : α × β => print p.1 ++ print' p.2 := by
  intro a b u v heq
  simp only [List.append_assoc] at heq
  obtain ⟨hfst, heq⟩ := h _ _ _ _ heq
  obtain ⟨hsnd, heq⟩ := h' _ _ _ _ heq
  exact ⟨Prod.ext hfst hsnd, heq⟩

/-- Values of two kinds, each with a first character of its own. -/
theorem sum {print' : β → List Char} {first : Char} (h : PrefixFree print) (h' : PrefixFree print')
    (hfirst : ∀ a, ∃ rest, print a = first :: rest) (havoids : Avoids print' first) : PrefixFree (Sum.elim print print') := by
  intro a b u v heq
  cases a with
  | inl a =>
    cases b with
    | inl b => exact (h a b u v heq).imp_left (congrArg _)
    | inr b =>
      obtain ⟨rest, ha⟩ := hfirst a
      simp only [Sum.elim_inl, Sum.elim_inr, ha, List.cons_append] at heq
      exact absurd heq.symm (havoids b _ _)
  | inr a =>
    cases b with
    | inl b =>
      obtain ⟨rest, hb⟩ := hfirst b
      simp only [Sum.elim_inl, Sum.elim_inr, hb, List.cons_append] at heq
      exact absurd heq (havoids a _ _)
    | inr b => exact (h' a b u v heq).imp_left (congrArg _)

/-- Values one after the other, up to a character that none of them begins with. -/
theorem list (h : PrefixFree print) {stop : Char} (hstop : Avoids print stop) :
    PrefixFree fun items : List α => items.flatMap print ++ [stop] := by
  intro items
  induction items with
  | nil =>
    intro items' u v heq
    cases items' with
    | nil => exact ⟨rfl, by simpa using heq⟩
    | cons b items' =>
      simp only [List.flatMap_nil, List.nil_append, List.flatMap_cons, List.append_assoc, List.singleton_append] at heq
      exact absurd heq.symm (hstop b _ _)
  | cons a items ih =>
    intro items' u v heq
    cases items' with
    | nil =>
      simp only [List.flatMap_nil, List.nil_append, List.flatMap_cons, List.append_assoc, List.singleton_append] at heq
      exact absurd heq (hstop a _ _)
    | cons b items' =>
      simp only [List.flatMap_cons, List.append_assoc] at heq
      obtain ⟨rfl, htail⟩ := h _ _ _ _ heq
      obtain ⟨rfl, rfl⟩ := ih items' u v (by simpa only [List.append_assoc] using htail)
      exact ⟨rfl, rfl⟩

end PrefixFree

namespace Json

/-! ### Strings -/

/-- The first character of a string, read from its escaped characters. -/
def unescape : List Char → Option (Char × List Char)
  | '\\' :: 'u' :: '0' :: '0' :: high :: low :: rest =>
    some (Char.ofNat ((if high = '1' then 16 else 0) + (if low.toNat < 58 then low.toNat - 48 else low.toNat - 87)), rest)
  | '\\' :: 'b' :: rest => some (Char.ofNat 8, rest)
  | '\\' :: 't' :: rest => some (Char.ofNat 9, rest)
  | '\\' :: 'n' :: rest => some (Char.ofNat 10, rest)
  | '\\' :: 'f' :: rest => some (Char.ofNat 12, rest)
  | '\\' :: 'r' :: rest => some (Char.ofNat 13, rest)
  | '\\' :: c :: rest => some (c, rest)
  | c :: rest => some (c, rest)
  | [] => none

theorem unescape_escape (c : Char) (u : List Char) : unescape (escape c ++ u) = some (c, u) := by
  by_cases hcontrol : c.toNat < 32
  · have hall : ∀ n < 32, unescape (escape (Char.ofNat n) ++ u) = some (Char.ofNat n, u) := by
      intro n hn
      interval_cases n <;> rfl
    simpa using hall c.toNat hcontrol
  · rw [escape, if_pos (Nat.le_of_not_lt hcontrol)]
    by_cases hquote : c = '"'
    · subst hquote
      rfl
    · by_cases hslash : c = '\\'
      · subst hslash
        rfl
      · rw [if_neg (by simp [hquote, hslash]), List.singleton_append]
        unfold unescape
        split <;> simp_all

theorem escape_prefixFree : PrefixFree escape := by
  intro c d u v h
  have hread := unescape_escape c u
  rw [h, unescape_escape d v] at hread
  simpa using hread.symm

theorem escape_avoids : Avoids escape '"' := by
  intro c u v h
  have hread := unescape_escape c u
  rw [h] at hread
  obtain ⟨rfl, rfl⟩ : c = '"' ∧ u = v := by simpa [unescape, eq_comm] using hread
  simp [escape] at h

/-- **The end of a string can be told.** -/
theorem str_prefixFree : PrefixFree fun s => chars (str s) := by
  have hlist := (escape_prefixFree.list escape_avoids).mark ['"']
  intro s t u v h
  have hbody : ∀ s, chars (str s) = ['"'] ++ (s.toList.flatMap escape ++ ['"']) := by
    intro s
    simp [str]
  simp only [hbody] at h
  obtain ⟨hst, huv⟩ := hlist _ _ _ _ h
  exact ⟨String.toList_inj.mp hst, huv⟩

/-! ### Arrays and objects -/

/-- Items between commas, up to a character that no item begins with. -/
theorem commas_prefixFree {print : α → Text} (stop : Char) (h : PrefixFree fun a => chars (print a))
    (havoids : Avoids (fun a => chars (print a)) stop) (hstop : stop ≠ ',') :
    PrefixFree fun items : List α => chars (commas (items.map print)) ++ [stop] := by
  have hrest := (h.mark [',']).list (show Avoids _ stop from fun a u v heq => hstop (List.cons.inj heq).1.symm)
  have hcons : ∀ (a : α) items, chars (commas ((a :: items).map print)) =
      chars (print a) ++ items.flatMap fun b => [','] ++ chars (print b) := by
    intro a items
    induction items generalizing a with
    | nil => simp [commas]
    | cons b items ih =>
      have htail := ih b
      simp only [commas, List.map_cons, List.intersperse_cons_cons, List.flatten_cons, chars_append] at htail ⊢
      simp [htail]
  intro items items' u v heq
  cases items with
  | nil =>
    cases items' with
    | nil => exact ⟨rfl, by simpa [commas] using heq⟩
    | cons b items' =>
      simp only [hcons, List.append_assoc] at heq
      exact absurd heq.symm (havoids b _ u)
  | cons a items =>
    cases items' with
    | nil =>
      simp only [hcons, List.append_assoc] at heq
      exact absurd heq (havoids a _ v)
    | cons b items' =>
      simp only [hcons, List.append_assoc] at heq
      obtain ⟨rfl, htail⟩ := h _ _ _ _ heq
      obtain ⟨rfl, rfl⟩ := hrest items items' u v (by simpa only [List.append_assoc] using htail)
      exact ⟨rfl, rfl⟩

/-- **The end of an array can be told.** -/
theorem array_prefixFree {print : α → Text} (h : PrefixFree fun a => chars (print a))
    (havoids : Avoids (fun a => chars (print a)) ']') : PrefixFree fun items : List α => chars (array (items.map print)) := by
  have hcommas := (commas_prefixFree ']' h havoids (by decide)).mark ['[']
  intro items items' u v heq
  exact hcommas items items' u v (by simpa [array] using heq)

/-- A key that is printed as it is. -/
abbrev PlainKey := {key : String // '"' ∉ key.toList}

theorem plainKey_prefixFree : PrefixFree fun key : PlainKey => key.1.toList ++ ['"'] := by
  have hlist : ∀ k k' : List Char, '"' ∉ k → '"' ∉ k' → ∀ u v, k ++ '"' :: u = k' ++ '"' :: v → k = k' ∧ u = v := by
    intro k
    induction k with
    | nil =>
      intro k' _ hk' u v h
      cases k' with
      | nil => simpa using h
      | cons c k' => exact absurd (List.cons.inj h).1 (List.ne_of_not_mem_cons hk')
    | cons c k ih =>
      intro k' hk hk' u v h
      cases k' with
      | nil => exact absurd (List.cons.inj h).1.symm (List.ne_of_not_mem_cons hk)
      | cons c' k' =>
        obtain ⟨rfl, htail⟩ := List.cons.inj h
        obtain ⟨rfl, rfl⟩ := ih k' (List.not_mem_of_not_mem_cons hk) (List.not_mem_of_not_mem_cons hk') u v htail
        exact ⟨rfl, rfl⟩
  intro key key' u v h
  simp only [List.append_assoc, List.singleton_append] at h
  exact (hlist _ _ key.2 key'.2 u v h).imp_left fun hkey => Subtype.ext (String.toList_inj.mp hkey)

/-- **The end of an object with plain keys can be told.** -/
theorem object_prefixFree {print : α → Text} (h : PrefixFree fun a => chars (print a)) :
    PrefixFree fun members : List (PlainKey × α) => chars (object (members.map fun m => (m.1.1, print m.2))) := by
  have hmember : PrefixFree fun m : PlainKey × α => chars ("\"" :: m.1.1 :: "\":" :: print m.2) := by
    intro a b u v heq
    exact (plainKey_prefixFree.pair (h.mark [':'])).mark ['"'] a b u v (by simpa using heq)
  have hcommas := (commas_prefixFree '\x7d' hmember (fun m u v heq => by simp at heq) (by decide)).mark ['\x7b']
  intro members members' u v heq
  exact hcommas members members' u v (by simpa [object, List.map_map, Function.comp_def] using heq)

end Json

end AgentObservability.Foundation
