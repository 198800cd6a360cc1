import AgentObservability.Foundation.JsonValue

/-!
# Spellings of a JSON document

In a JSON string any character may stand as itself or as the escape of its number. A
`Spelling` is such a choice, `Value.spelled` the document in it; `escape` is the choice
of `serde_json` (`spelled_escape`).

When some characters are rewritten all over a document, and its layout and its numbers do
not have them, what comes out is the same document in another spelling (`respell_json`).
The same holds of the bytes of its encoding (`utf8_respell`).
-/

namespace AgentObservability.Foundation

/-! ### Bytes of one character -/

theorem le_toNat_or {a b : UInt8} (h : 128 ≤ b.toNat) : 128 ≤ (a ||| b).toNat := by
  rw [UInt8.toNat_or]
  exact h.trans Nat.right_le_or

/-- **A byte below 128 is all of its character.** -/
theorem utf8EncodeChar_of_mem_lt {c : Char} {b : UInt8} (hb : b ∈ String.utf8EncodeChar c) (hlt : b.toNat < 128) :
    c.toNat = b.toNat ∧ String.utf8EncodeChar c = [b] := by
  have hlarge : ∀ a b : UInt8, 128 ≤ b.toNat → ¬ (a ||| b).toNat < 128 := fun a b h => (le_toNat_or h).not_gt
  rcases c.utf8Size_eq with h | h | h | h
  · have hsize : c.val ≤ 0x7f := Char.utf8Size_eq_one_iff.mp h
    have hle : c.toNat ≤ 127 := UInt32.le_iff_toNat_le.mp hsize
    have hencode := String.utf8EncodeChar_eq_singleton h
    rw [hencode, List.mem_singleton] at hb
    refine ⟨?_, by rw [hencode, hb]⟩
    rw [hb, UInt32.toNat_toUInt8]
    exact (Nat.mod_eq_of_lt (show c.toNat < 256 by omega)).symm
  · rw [String.utf8EncodeChar_eq_cons_cons h] at hb
    rcases List.mem_pair.mp hb with rfl | rfl
    · exact absurd hlt (hlarge _ _ (by decide))
    · exact absurd hlt (hlarge _ _ (by decide))
  · rw [String.utf8EncodeChar_eq_cons_cons_cons h] at hb
    simp only [List.mem_cons, List.not_mem_nil, or_false] at hb
    rcases hb with rfl | rfl | rfl <;> exact absurd hlt (hlarge _ _ (by decide))
  · rw [String.utf8EncodeChar_eq_cons_cons_cons_cons h] at hb
    simp only [List.mem_cons, List.not_mem_nil, or_false] at hb
    rcases hb with rfl | rfl | rfl | rfl <;> exact absurd hlt (hlarge _ _ (by decide))

/-- The bytes of a character below 128 are no bytes of a text without it. -/
theorem notMem_utf8 {c : Char} (hc : c.toNat < 128) {t : Text} (h : ∀ s ∈ t, c ∉ s.toList) :
    UInt8.ofNat c.toNat ∉ utf8 t := by
  intro hmem
  obtain ⟨s, hs, hmem⟩ := List.mem_flatMap.mp hmem
  obtain ⟨d, hd, hb⟩ := List.mem_flatMap.mp hmem
  have hbyte : (UInt8.ofNat c.toNat).toNat = c.toNat := by
    rw [UInt8.toNat_ofNat']
    exact Nat.mod_eq_of_lt (by omega)
  have hsame := (utf8EncodeChar_of_mem_lt hb (by omega)).1
  rw [hbyte] at hsame
  have heq : d = c := Char.toNat_inj.mp hsame
  exact h s hs (heq ▸ hd)

/-! ### Rewriting characters -/

/-- A text with its characters rewritten. -/
def respell (rewrite : Char → List Char) (t : Text) : Text := t.map fun s => String.ofList (s.toList.flatMap rewrite)

theorem respell_append (rewrite : Char → List Char) (t u : Text) :
    respell rewrite (t ++ u) = respell rewrite t ++ respell rewrite u := List.map_append

/-- **Bytes may be rewritten instead of characters**, where each character agrees. -/
theorem utf8_respell {rewrite : Char → List Char} {rewriteByte : UInt8 → List UInt8}
    (h : ∀ c, (String.utf8EncodeChar c).flatMap rewriteByte = (rewrite c).flatMap String.utf8EncodeChar) (t : Text) :
    (utf8 t).flatMap rewriteByte = utf8 (respell rewrite t) := by
  have hchars : ∀ l : List Char, (l.flatMap String.utf8EncodeChar).flatMap rewriteByte =
      (l.flatMap rewrite).flatMap String.utf8EncodeChar := by
    intro l
    rw [List.flatMap_assoc, List.flatMap_assoc]
    exact List.flatMap_congr fun c _ => h c
  induction t with
  | nil => rfl
  | cons s t ih =>
    show ((s.toList.flatMap String.utf8EncodeChar) ++ utf8 t).flatMap rewriteByte = _
    rw [List.flatMap_append, ih, hchars]
    show _ = (String.ofList (s.toList.flatMap rewrite)).toList.flatMap String.utf8EncodeChar ++ utf8 (respell rewrite t)
    rw [String.toList_ofList]

namespace Json

/-! ### Spellings -/

/-- The escape of a character by its number. -/
def unicodeEscape (c : Char) : List Char :=
  ['\\', 'u', Nat.digitChar (c.toNat / 4096 % 16), Nat.digitChar (c.toNat / 256 % 16), Nat.digitChar (c.toNat / 16 % 16),
    Nat.digitChar (c.toNat % 16)]

/-- A choice for each character: as `serde_json` writes it, or by its number. -/
def Spelling (spell : Char → List Char) : Prop :=
  ∀ c, spell c = escape c ∨ c.toNat < 65536 ∧ spell c = unicodeEscape c

theorem spelling_escape : Spelling escape := fun _ => Or.inl rfl

namespace Value

mutual

/-- The document in a spelling. -/
def spelled (spell : Char → List Char) : Value → Text
  | .null => Json.null
  | .bool b => Json.bool b
  | .number (.posInt n) => Json.nat n.toNat
  | .number (.other text) => [text]
  | .string s => ["\"", String.ofList (s.toList.flatMap spell), "\""]
  | .array items => Json.array (spelledItems spell items)
  | .object members => Json.object (spelledMembers spell members)

/-- The items of an array. -/
def spelledItems (spell : Char → List Char) : List Value → List Text
  | [] => []
  | item :: items => item.spelled spell :: spelledItems spell items

/-- The members of an object. -/
def spelledMembers (spell : Char → List Char) : List (String × Value) → List (String × Text)
  | [] => []
  | (key, value) :: members =>
    (String.ofList (key.toList.flatMap spell), value.spelled spell) :: spelledMembers spell members

end

mutual

/-- The spelling of `serde_json`. -/
theorem spelled_escape : ∀ v : Value, v.spelled escape = v.json
  | .null | .bool _ | .number (.posInt _) | .number (.other _) | .string _ => rfl
  | .array items => by rw [spelled, json, spelledItems_escape items]
  | .object members => by rw [spelled, json, spelledMembers_escape members]

theorem spelledItems_escape : ∀ items : List Value, spelledItems escape items = jsonItems items
  | [] => rfl
  | item :: items => by rw [spelledItems, jsonItems, spelled_escape item, spelledItems_escape items]

theorem spelledMembers_escape : ∀ members : List (String × Value), spelledMembers escape members = jsonMembers members
  | [] => rfl
  | (key, value) :: members => by rw [spelledMembers, jsonMembers, spelled_escape value, spelledMembers_escape members]

end

mutual

/-- The texts of the numbers that are no `u64`. -/
def numberTexts : Value → List String
  | .null | .bool _ | .string _ | .number (.posInt _) => []
  | .number (.other text) => [text]
  | .array items => itemNumberTexts items
  | .object members => memberNumberTexts members

/-- Those of some items. -/
def itemNumberTexts : List Value → List String
  | [] => []
  | item :: items => item.numberTexts ++ itemNumberTexts items

/-- Those of some members. -/
def memberNumberTexts : List (String × Value) → List String
  | [] => []
  | (_, value) :: members => value.numberTexts ++ memberNumberTexts members

end

theorem mem_itemNumberTexts {text : String} {items : List Value} :
    text ∈ itemNumberTexts items ↔ ∃ item ∈ items, text ∈ item.numberTexts := by
  induction items with
  | nil => simp [itemNumberTexts]
  | cons item items ih => simp [itemNumberTexts, ih]

theorem mem_memberNumberTexts {text : String} {members : List (String × Value)} :
    text ∈ memberNumberTexts members ↔ ∃ member ∈ members, text ∈ member.2.numberTexts := by
  induction members with
  | nil => simp [memberNumberTexts]
  | cons member members ih => simp [memberNumberTexts, ih]

end Value

/-! ### Rewriting a document -/

/-- A string is not changed. -/
def Keeps (rewrite : Char → List Char) (s : String) : Prop := s.toList.flatMap rewrite = s.toList

instance (rewrite : Char → List Char) (s : String) : Decidable (Keeps rewrite s) := inferInstanceAs (Decidable (_ = _))

/-- The layout of a document is not changed, nor are digits. -/
structure KeepsLayout (rewrite : Char → List Char) : Prop where
  /-- Words and marks. -/
  marks : ∀ s ∈ ["null", "true", "false", "\"", "\":", ",", "[", "]", "\x7b", "\x7d"], Keeps rewrite s
  /-- Digits. -/
  digits : ∀ c : Char, c.isDigit = true → rewrite c = [c]

variable {rewrite : Char → List Char}

theorem Keeps.ofList {s : String} (h : Keeps rewrite s) : String.ofList (s.toList.flatMap rewrite) = s := by
  rw [h, String.ofList_toList]

theorem keeps_of_forall {s : String} (h : ∀ c ∈ s.toList, rewrite c = [c]) : Keeps rewrite s := by
  rw [Keeps, List.flatMap_congr h]
  exact List.flatMap_singleton' _

theorem respell_singleton {s : String} (h : Keeps rewrite s) : respell rewrite [s] = [s] := by
  rw [respell, List.map_singleton, h.ofList]

theorem KeepsLayout.nat (h : KeepsLayout rewrite) (n : ℕ) : respell rewrite (nat n) = nat n := by
  refine respell_singleton (keeps_of_forall fun c hc => h.digits c ?_)
  rw [Nat.toString_eq_repr, Nat.toList_repr] at hc
  exact Nat.isDigit_of_mem_toDigits (by decide) (by decide) hc

theorem KeepsLayout.commas (h : KeepsLayout rewrite) (items : List Text) :
    respell rewrite (commas items) = commas (items.map (respell rewrite)) := by
  have hcomma : respell rewrite [","] = [","] := respell_singleton (h.marks _ (by simp))
  induction items with
  | nil => rfl
  | cons item items ih =>
    cases items with
    | nil => simp [Json.commas]
    | cons next items =>
      simp only [Json.commas, List.intersperse_cons_cons, List.flatten_cons, respell_append, List.map_cons, hcomma] at ih ⊢
      rw [ih]

theorem KeepsLayout.array (h : KeepsLayout rewrite) (items : List Text) :
    respell rewrite (array items) = array (items.map (respell rewrite)) := by
  have hopen : respell rewrite ["["] = ["["] := respell_singleton (h.marks _ (by simp))
  have hclose : respell rewrite ["]"] = ["]"] := respell_singleton (h.marks _ (by simp))
  rw [Json.array, Json.array, List.cons_append, ← List.singleton_append, respell_append, respell_append, hopen, hclose,
    h.commas]
  rfl

theorem KeepsLayout.object (h : KeepsLayout rewrite) (members : List (String × Text)) :
    respell rewrite (object members) =
      object (members.map fun m => (String.ofList (m.1.toList.flatMap rewrite), respell rewrite m.2)) := by
  have hopen : respell rewrite ["\x7b"] = ["\x7b"] := respell_singleton (h.marks _ (by simp))
  have hclose : respell rewrite ["\x7d"] = ["\x7d"] := respell_singleton (h.marks _ (by simp))
  have hquote : Keeps rewrite "\"" := h.marks _ (by simp)
  have hcolon : Keeps rewrite "\":" := h.marks _ (by simp)
  rw [Json.object, Json.object, List.cons_append, ← List.singleton_append, respell_append, respell_append, hopen, hclose,
    h.commas, List.map_map, List.map_map]
  refine congrArg (fun items => ["\x7b"] ++ (Json.commas items ++ ["\x7d"])) (List.map_congr_left fun m _ => ?_)
  simp only [Function.comp, respell, List.map_cons, hquote.ofList, hcolon.ofList]

mutual

/-- **A document whose layout and numbers are kept is the same document in another spelling.** -/
theorem respell_json (h : KeepsLayout rewrite) : ∀ v : Value, (∀ text ∈ v.numberTexts, Keeps rewrite text) →
    respell rewrite v.json = v.spelled fun c => (escape c).flatMap rewrite
  | .null, _ => respell_singleton (h.marks _ (by simp))
  | .bool true, _ => respell_singleton (h.marks _ (by simp))
  | .bool false, _ => respell_singleton (h.marks _ (by simp))
  | .number (.posInt n), _ => h.nat n.toNat
  | .number (.other text), hnumbers => respell_singleton (hnumbers text List.mem_cons_self)
  | .string s, _ => by
    have hquote : Keeps rewrite "\"" := h.marks _ (by simp)
    simp only [Value.json, Value.spelled, str, respell, List.map_cons, List.map_nil, hquote.ofList, String.toList_ofList,
      List.flatMap_assoc]
  | .array items, hnumbers => by rw [Value.json, Value.spelled, h.array, respell_items h items hnumbers]
  | .object members, hnumbers => by rw [Value.json, Value.spelled, h.object, respell_members h members hnumbers]

theorem respell_items (h : KeepsLayout rewrite) : ∀ items : List Value,
    (∀ text ∈ Value.itemNumberTexts items, Keeps rewrite text) →
    (Value.jsonItems items).map (respell rewrite) = Value.spelledItems (fun c => (escape c).flatMap rewrite) items
  | [], _ => rfl
  | item :: items, hnumbers => by
    rw [Value.jsonItems, Value.spelledItems, List.map_cons,
      respell_json h item fun text ht => hnumbers text (List.mem_append_left _ ht),
      respell_items h items fun text ht => hnumbers text (List.mem_append_right _ ht)]

theorem respell_members (h : KeepsLayout rewrite) : ∀ members : List (String × Value),
    (∀ text ∈ Value.memberNumberTexts members, Keeps rewrite text) →
    (Value.jsonMembers members).map (fun m => (String.ofList (m.1.toList.flatMap rewrite), respell rewrite m.2)) =
      Value.spelledMembers (fun c => (escape c).flatMap rewrite) members
  | [], _ => rfl
  | (key, value) :: members, hnumbers => by
    rw [Value.jsonMembers, Value.spelledMembers, List.map_cons,
      respell_json h value fun text ht => hnumbers text (List.mem_append_left _ ht),
      respell_members h members fun text ht => hnumbers text (List.mem_append_right _ ht), String.toList_ofList,
      List.flatMap_assoc]

end

end Json

end AgentObservability.Foundation
