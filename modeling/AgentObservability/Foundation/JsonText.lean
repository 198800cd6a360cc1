import Mathlib.Algebra.BigOperators.Group.List.Basic
import Mathlib.Algebra.GroupWithZero.Nat
import Mathlib.Algebra.Order.BigOperators.Group.List
import Mathlib.Data.String.Basic

/-!
# The text of a JSON document

A printer for compact JSON. A text is the list of the pieces that a writer puts
out one after the other, and each combinator prints one kind of value. Object
members are printed in the order they are given, as a serializer of records does;
`member` drops an absent one.

A text has two sizes, its characters and the bytes of its UTF-8 encoding, and
`byteLength_eq_charLength` says when they agree.
-/

namespace AgentObservability.Foundation

/-- A text as its pieces. -/
abbrev Text := List String

/-- The UTF-8 encoding of a text. -/
def utf8 (t : Text) : List UInt8 := t.flatMap fun s => s.toList.flatMap String.utf8EncodeChar

/-- How many bytes the UTF-8 encoding of a text has. -/
def byteLength (t : Text) : ℕ := (t.map String.utf8ByteSize).sum

/-- How many characters a text has. -/
def charLength (t : Text) : ℕ := (t.map String.length).sum

/-- Every character of the text is one byte long. -/
def Ascii (t : Text) : Prop := ∀ s ∈ t, s.utf8ByteSize = s.length

instance (t : Text) : Decidable (Ascii t) := inferInstanceAs (Decidable (∀ s ∈ t, s.utf8ByteSize = s.length))

@[simp] theorem byteLength_append (t u : Text) : byteLength (t ++ u) = byteLength t + byteLength u := by
  simp [byteLength]

theorem length_le_utf8ByteSize_ofList (l : List Char) : l.length ≤ (String.ofList l).utf8ByteSize := by
  induction l with
  | nil => simp
  | cons c l ih =>
    have := c.utf8Size_pos
    rw [String.ofList_cons, String.utf8ByteSize_append, String.utf8ByteSize_singleton, List.length_cons]
    omega

/-- A string has at least as many bytes as characters. -/
theorem length_le_utf8ByteSize (s : String) : s.length ≤ s.utf8ByteSize := by
  have h := length_le_utf8ByteSize_ofList s.toList
  rwa [String.ofList_toList, String.length_toList] at h

/-- A string of one-byte characters. -/
theorem utf8ByteSize_of_ascii {l : List Char} (h : ∀ c ∈ l, c.utf8Size = 1) :
    (String.ofList l).utf8ByteSize = l.length := by
  induction l with
  | nil => rfl
  | cons c l ih =>
    rw [String.ofList_cons, String.utf8ByteSize_append, String.utf8ByteSize_singleton, h c List.mem_cons_self,
      ih fun d hd => h d (List.mem_cons_of_mem _ hd), List.length_cons, Nat.add_comm]

/-- The two sizes of a text agree exactly when it is ASCII. -/
theorem byteLength_eq_charLength {t : Text} : byteLength t = charLength t ↔ Ascii t := by
  induction t with
  | nil => simp [byteLength, charLength, Ascii]
  | cons s t ih =>
    have hs := length_le_utf8ByteSize s
    have ht : charLength t ≤ byteLength t := List.sum_le_sum fun s _ => length_le_utf8ByteSize s
    have hcons : Ascii (s :: t) ↔ s.utf8ByteSize = s.length ∧ Ascii t := List.forall_mem_cons
    rw [hcons, ← ih]
    simp only [byteLength, charLength, List.map_cons, List.sum_cons] at ht ⊢
    omega

theorem length_utf8 (t : Text) : (utf8 t).length = byteLength t := by
  have hpiece : ∀ s : String, (s.toList.flatMap String.utf8EncodeChar).length = s.utf8ByteSize := by
    intro s
    rw [← String.size_toByteArray, ← String.utf8Encode_toList, List.utf8Encode, List.size_toByteArray]
  induction t with
  | nil => rfl
  | cons s t ih =>
    rw [utf8, List.flatMap_cons, List.length_append, hpiece, ← utf8, ih, byteLength, byteLength, List.map_cons, List.sum_cons]

namespace Json

/-- `null`. -/
def null : Text := ["null"]

/-- `true` or `false`. -/
def bool : Bool → Text
  | true => ["true"]
  | false => ["false"]

/-- An integer. -/
def nat (n : ℕ) : Text := [toString n]

/-- A floating-point number with an integral value below `10^16`. -/
def float (n : ℕ) : Text := [toString n, ".0"]

/-- A character of a string, escaped where JSON asks for it. -/
def escape (c : Char) : List Char :=
  if 32 ≤ c.toNat then if c = '"' ∨ c = '\\' then ['\\', c] else [c]
  else if c.toNat = 8 then ['\\', 'b']
  else if c.toNat = 9 then ['\\', 't']
  else if c.toNat = 10 then ['\\', 'n']
  else if c.toNat = 12 then ['\\', 'f']
  else if c.toNat = 13 then ['\\', 'r']
  else ['\\', 'u', '0', '0', Nat.digitChar (c.toNat / 16), Nat.digitChar (c.toNat % 16)]

/-- A string. -/
def str (s : String) : Text := ["\"", String.ofList (s.toList.flatMap escape), "\""]

/-- A value or `null`. -/
def option {α : Type} (print : α → Text) : Option α → Text
  | some a => print a
  | none => null

/-- Items separated by commas. -/
def commas (items : List Text) : Text := (items.intersperse [","]).flatten

/-- An array. -/
def array (items : List Text) : Text := "[" :: commas items ++ ["]"]

/-- An object with the given members. -/
def object (members : List (String × Text)) : Text :=
  "\x7b" :: commas (members.map fun m => "\"" :: m.1 :: "\":" :: m.2) ++ ["\x7d"]

/-- So many spaces. -/
def spaces (n : ℕ) : String := String.ofList (List.replicate n ' ')

/-- An object with each of its members on a line, between braces that are indented so far. -/
def prettyObject (indent : ℕ) (members : List (String × Text)) : Text :=
  "\x7b\n" :: ((members.map fun m => spaces (indent + 2) :: "\"" :: m.1 :: "\": " :: m.2).intersperse [",\n"]).flatten ++
    ["\n", spaces indent, "\x7d"]

/-- A member that is left out when it is absent. -/
def member {α : Type} (key : String) (print : α → Text) (value : Option α) : List (String × Text) :=
  value.toList.map fun a => (key, print a)

/-! ### Sizes -/

theorem utf8ByteSize_ofList_le (l : List Char) : (String.ofList l).utf8ByteSize ≤ 4 * l.length := by
  induction l with
  | nil => simp
  | cons c l ih =>
    have := c.utf8Size_le_four
    rw [String.ofList_cons, String.utf8ByteSize_append, String.utf8ByteSize_singleton, List.length_cons]
    omega

/-- No character is longer than four bytes. -/
theorem utf8ByteSize_le (s : String) : s.utf8ByteSize ≤ 4 * s.length := by
  have h := utf8ByteSize_ofList_le s.toList
  rwa [String.ofList_toList, String.length_toList] at h

/-- An escape has at most six characters. -/
theorem length_escape_le (c : Char) : (escape c).length ≤ 6 := by
  unfold escape
  split_ifs <;> simp

theorem byteLength_str_le (s : String) : byteLength (str s) ≤ 2 + 24 * s.length := by
  have hsum : ∀ l : List Char, (l.flatMap escape).length ≤ 6 * l.length := by
    intro l
    induction l with
    | nil => simp
    | cons c l ih =>
      have := length_escape_le c
      rw [List.flatMap_cons, List.length_append, List.length_cons]
      omega
  have h := utf8ByteSize_ofList_le (s.toList.flatMap escape)
  have hlen := hsum s.toList
  have hquote : ("\"" : String).utf8ByteSize = 1 := rfl
  rw [String.length_toList] at hlen
  simp only [str, byteLength, List.map_cons, List.map_nil, List.sum_cons, List.sum_nil, hquote]
  omega

theorem byteLength_option_le {α : Type} {print : α → Text} {n : ℕ} {value : Option α} (hn : 4 ≤ n)
    (h : ∀ a ∈ value, byteLength (print a) ≤ n) : byteLength (option print value) ≤ n := by
  cases value with
  | none => exact hn
  | some a => exact h a rfl

/-- A number below `10 ^ 20` has at most twenty digits. -/
theorem utf8ByteSize_toString_le {n : ℕ} (h : n < 10 ^ 20) : (toString n).utf8ByteSize ≤ 80 := by
  have : (toString n).length ≤ 20 := (Nat.length_repr_le_iff (by decide)).mpr h
  exact (utf8ByteSize_le _).trans (Nat.mul_le_mul_left 4 this)

/-- A digit is one byte, and needs no escape. -/
theorem escape_of_isDigit {c : Char} (h : c.isDigit = true) : escape c = [c] ∧ c.utf8Size = 1 := by
  unfold Char.isDigit at h
  rw [Bool.and_eq_true, decide_eq_true_eq, decide_eq_true_eq] at h
  have hlow : 48 ≤ c.toNat := UInt32.le_iff_toNat_le.mp h.1
  have hhigh : c.toNat ≤ 57 := UInt32.le_iff_toNat_le.mp h.2
  refine ⟨?_, Char.utf8Size_eq_one_iff.mpr (UInt32.le_trans h.2 (by decide))⟩
  have hother : ¬ (c = '"' ∨ c = '\\') := by
    rintro (rfl | rfl)
    · exact absurd hlow (by decide)
    · exact absurd hhigh (by decide)
  rw [escape, if_pos (by omega), if_neg hother]

/-- A number has as many bytes as digits. -/
theorem byteLength_nat_le {n k : ℕ} (hk : 0 < k) (h : n < 10 ^ k) : byteLength (nat n) ≤ k := by
  have hdigit : ∀ c ∈ Nat.toDigits 10 n, c.utf8Size = 1 := fun c hc =>
    (escape_of_isDigit (Nat.isDigit_of_mem_toDigits (by decide) (by decide) hc)).2
  have htext : (toString n).utf8ByteSize = (Nat.toDigits 10 n).length := by
    rw [Nat.toString_eq_repr, Nat.repr_eq_ofList_toDigits, utf8ByteSize_of_ascii hdigit]
  have hlen : (Nat.toDigits 10 n).length ≤ k := (Nat.length_toDigits_le_iff (by decide) hk).mpr h
  simp only [nat, byteLength, List.map_cons, List.map_nil, List.sum_cons, List.sum_nil, htext]
  omega

theorem byteLength_commas_le (items : List Text) :
    byteLength (commas items) ≤ (items.map fun item => byteLength item + 1).sum := by
  induction items with
  | nil => simp [commas, byteLength]
  | cons item items ih =>
    cases items with
    | nil => simp [commas, byteLength]
    | cons next items =>
      have hcomma : byteLength [","] = 1 := rfl
      simp only [commas, List.intersperse_cons_cons, List.flatten_cons, byteLength_append, hcomma] at ih ⊢
      rw [List.map_cons, List.sum_cons]
      omega

/-- An object is as long as its members with their keys: `k` bounds the keys, `bounds` the values. -/
theorem byteLength_object_le {m : List (String × Text)} {bounds : List ℕ} {k : ℕ}
    (hk : ∀ x ∈ m, x.1.utf8ByteSize ≤ k) (hb : List.Forall₂ (fun x b => byteLength x.2 ≤ b) m bounds) :
    byteLength (object m) ≤ 2 + (bounds.map fun b => k + 4 + b).sum := by
  have hbrace : byteLength ["\x7b"] = 1 ∧ byteLength ["\x7d"] = 1 := ⟨rfl, rfl⟩
  have hquotes : ("\"" : String).utf8ByteSize = 1 ∧ ("\":" : String).utf8ByteSize = 2 := ⟨rfl, rfl⟩
  have hitems := byteLength_commas_le (m.map fun x => "\"" :: x.1 :: "\":" :: x.2)
  have hsum : (m.map fun x => byteLength ("\"" :: x.1 :: "\":" :: x.2) + 1).sum ≤
      (bounds.map fun b => k + 4 + b).sum := by
    clear hitems
    induction hb with
    | nil => exact Nat.le_refl _
    | @cons x b m bounds hm hb ih =>
      have hkey := hk x List.mem_cons_self
      have hrest := ih fun x hm => hk x (List.mem_cons_of_mem _ hm)
      have hmember : byteLength ("\"" :: x.1 :: "\":" :: x.2) = 3 + x.1.utf8ByteSize + byteLength x.2 := by
        simp only [byteLength, List.map_cons, List.sum_cons, hquotes]
        omega
      simp only [List.map_cons, List.sum_cons, hmember]
      omega
  rw [List.map_map] at hitems
  have hobject : byteLength (object m) =
      1 + byteLength (commas (m.map fun x => "\"" :: x.1 :: "\":" :: x.2)) + 1 := by
    rw [object, byteLength_append, hbrace.2, ← List.singleton_append, byteLength_append, hbrace.1]
  rw [hobject]
  have := hitems.trans hsum
  omega

/-- Items and the commas between them. -/
theorem byteLength_commas (items : List Text) :
    byteLength (commas items) = (items.map byteLength).sum + (items.length - 1) := by
  induction items with
  | nil => simp [commas, byteLength]
  | cons item items ih =>
    cases items with
    | nil => simp [commas]
    | cons next items =>
      have hcomma : byteLength [","] = 1 := rfl
      simp only [commas, List.intersperse_cons_cons, List.flatten_cons, byteLength_append, hcomma] at ih ⊢
      rw [List.map_cons, List.sum_cons, List.length_cons]
      simp only [List.length_cons] at ih ⊢
      omega

theorem byteLength_array (items : List Text) :
    byteLength (array items) = 2 + (items.map byteLength).sum + (items.length - 1) := by
  have hbracket : byteLength ["["] = 1 ∧ byteLength ["]"] = 1 := ⟨rfl, rfl⟩
  rw [array, byteLength_append, hbracket.2, ← List.singleton_append, byteLength_append, hbracket.1, byteLength_commas]
  omega

/-- Members with their keys and the commas between them. -/
theorem byteLength_object (members : List (String × Text)) :
    byteLength (object members) =
      2 + (members.map fun m => 3 + m.1.utf8ByteSize + byteLength m.2).sum + (members.length - 1) := by
  have hbrace : byteLength ["\x7b"] = 1 ∧ byteLength ["\x7d"] = 1 := ⟨rfl, rfl⟩
  have hquotes : ("\"" : String).utf8ByteSize = 1 ∧ ("\":" : String).utf8ByteSize = 2 := ⟨rfl, rfl⟩
  have hmember : ∀ m : String × Text, byteLength ("\"" :: m.1 :: "\":" :: m.2) = 3 + m.1.utf8ByteSize + byteLength m.2 := by
    intro m
    simp only [byteLength, List.map_cons, List.sum_cons, hquotes]
    omega
  rw [object, byteLength_append, hbrace.2, ← List.singleton_append, byteLength_append, hbrace.1, byteLength_commas,
    List.map_map, List.length_map]
  have hmap : (members.map (byteLength ∘ fun m => "\"" :: m.1 :: "\":" :: m.2)) =
      members.map fun m => 3 + m.1.utf8ByteSize + byteLength m.2 := List.map_congr_left fun m _ => hmember m
  rw [hmap]
  omega

/-- A string that needs no escapes. -/
theorem byteLength_str {s : String} (h : ∀ c ∈ s.toList, escape c = [c]) : byteLength (str s) = s.utf8ByteSize + 2 := by
  have hquote : ("\"" : String).utf8ByteSize = 1 := rfl
  have hsame : s.toList.flatMap escape = s.toList := by
    rw [List.flatMap_congr h]
    exact List.flatMap_singleton' _
  simp only [str, byteLength, hsame, String.ofList_toList, List.map_cons, List.map_nil, List.sum_cons, List.sum_nil, hquote]
  omega

theorem utf8ByteSize_spaces (n : ℕ) : (spaces n).utf8ByteSize = n := by
  induction n with
  | zero => rfl
  | succ n ih =>
    rw [spaces, List.replicate_succ, String.ofList_cons, String.utf8ByteSize_append, ← spaces, ih,
      String.utf8ByteSize_singleton, Nat.add_comm]
    rfl

/-- The members of a pretty object and what stands between them. -/
theorem byteLength_prettyObject (n : ℕ) {members : List (String × Text)} (h : members ≠ []) :
    byteLength (prettyObject n members) =
      n + 2 + (members.map fun m => n + 8 + m.1.utf8ByteSize + byteLength m.2).sum := by
  have hmember : ∀ m : String × Text, byteLength (spaces (n + 2) :: "\"" :: m.1 :: "\": " :: m.2) =
      n + 6 + m.1.utf8ByteSize + byteLength m.2 := by
    intro m
    have hquotes : ("\"" : String).utf8ByteSize = 1 ∧ ("\": " : String).utf8ByteSize = 3 := ⟨rfl, rfl⟩
    simp only [byteLength, List.map_cons, List.sum_cons, utf8ByteSize_spaces, hquotes]
    omega
  have hitems : ∀ ms : List (String × Text), ms ≠ [] →
      byteLength ((ms.map fun m => spaces (n + 2) :: "\"" :: m.1 :: "\": " :: m.2).intersperse [",\n"]).flatten + 2 =
        (ms.map fun m => n + 8 + m.1.utf8ByteSize + byteLength m.2).sum := by
    intro ms hms
    induction ms with
    | nil => exact absurd rfl hms
    | cons m ms ih =>
      cases ms with
      | nil => simp [hmember]; omega
      | cons next ms =>
        have hcomma : byteLength [",\n"] = 2 := rfl
        have := ih (by simp)
        simp only [List.map_cons, List.intersperse_cons_cons, List.flatten_cons, byteLength_append, hcomma, hmember,
          List.sum_cons] at this ⊢
        omega
  have hopen : byteLength ["\x7b\n"] = 2 := rfl
  have hclose : byteLength ["\n", spaces n, "\x7d"] = n + 2 := by
    have hpieces : ("\n" : String).utf8ByteSize = 1 ∧ ("\x7d" : String).utf8ByteSize = 1 := ⟨rfl, rfl⟩
    simp only [byteLength, List.map_cons, List.map_nil, List.sum_cons, List.sum_nil, utf8ByteSize_spaces, hpieces]
    omega
  have := hitems members h
  rw [prettyObject, List.cons_append, ← List.singleton_append, byteLength_append, byteLength_append, hopen, hclose]
  omega

end Json

end AgentObservability.Foundation
