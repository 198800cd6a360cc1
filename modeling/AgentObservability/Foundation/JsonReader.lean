import AgentObservability.Foundation.JsonValue
import AgentObservability.Foundation.PrefixCode

/-!
# A reader for JSON documents

A text is cut into tokens, with white space between them, and the tokens are read
as a value. The numbers it reads are integers of 64 bits.

What is printed is read back. `Lexes` is how a text is cut, whatever follows it, so
it tells any layout of a document, and `readDocument_json` is the compact one.
-/

namespace AgentObservability.Foundation.Json

/-- What a document is made of. -/
inductive Token where
  | openArray
  | closeArray
  | openObject
  | closeObject
  | comma
  | colon
  | null
  | bool (b : Bool)
  | number (n : UInt64)
  | text (s : String)
  deriving DecidableEq

/-! ### Tokens -/

/-- White space. -/
def isSpace (c : Char) : Bool := c = ' ' || c = '\n' || c = '\t' || c = '\r'

/-- A token of one character. -/
def mark (c : Char) : Option Token :=
  if c = '[' then some .openArray else if c = ']' then some .closeArray
  else if c = '\x7b' then some .openObject else if c = '\x7d' then some .closeObject
  else if c = ',' then some .comma else if c = ':' then some .colon else none

/-- The characters of a string up to its closing quote. -/
def readChars : ℕ → List Char → Option (List Char × List Char)
  | 0, _ => none
  | n + 1, cs =>
    if cs.head? = some '"' then some ([], cs.tail)
    else (unescape cs).bind fun (c, cs) => (readChars n cs).map fun (s, cs) => (c :: s, cs)

/-- `null`, `true` and `false`. -/
def readWord : List Char → Option (Token × List Char)
  | 'n' :: 'u' :: 'l' :: 'l' :: cs => some (.null, cs)
  | 't' :: 'r' :: 'u' :: 'e' :: cs => some (.bool true, cs)
  | 'f' :: 'a' :: 'l' :: 's' :: 'e' :: cs => some (.bool false, cs)
  | _ => none

/-- An integer without leading zeros. -/
def readNumber (cs : List Char) : Option (Token × List Char) :=
  let digits := cs.takeWhile Char.isDigit
  let n := Nat.ofDigitChars 10 digits 0
  if Nat.toDigits 10 n = digits ∧ n < 2 ^ 64 then some (.number (UInt64.ofNat n), cs.dropWhile Char.isDigit) else none

/-- The first token of a text that begins with no white space. -/
def readToken (n : ℕ) (c : Char) (cs : List Char) : Option (Token × List Char) :=
  match mark c with
  | some token => some (token, cs)
  | none =>
    if c = '"' then (readChars n cs).map fun (s, cs) => (.text (String.ofList s), cs)
    else if c.isDigit then readNumber (c :: cs)
    else readWord (c :: cs)

/-- The tokens of a text of so many characters at most. -/
def lex : ℕ → List Char → Option (List Token)
  | _, [] => some []
  | 0, _ :: _ => none
  | n + 1, c :: cs =>
    if isSpace c then lex n cs
    else (readToken (n + 1) c cs).bind fun (token, cs) => (lex n cs).map (token :: ·)

/-- The text is cut into these tokens. -/
def Lexes (cs : List Char) (tokens : List Token) : Prop := ∀ n, cs.length ≤ n → lex n cs = some tokens

/-- A number does not go on with this text. -/
def NoDigit (cs : List Char) : Prop := ∀ c ∈ cs.head?, c.isDigit = false

theorem lexes_nil : Lexes [] [] := fun n _ => by cases n <;> rfl

theorem Lexes.space {cs : List Char} {tokens : List Token} (h : Lexes cs tokens) {c : Char} (hc : isSpace c = true) :
    Lexes (c :: cs) tokens := by
  intro n hn
  obtain ⟨n, rfl⟩ := Nat.exists_eq_add_of_lt (Nat.lt_of_lt_of_le (Nat.succ_pos _) hn)
  rw [List.length_cons] at hn
  rw [show 0 + n + 1 = n + 1 by omega, lex, if_pos hc]
  exact h n (by omega)

/-- A token in front of a text. -/
theorem Lexes.token {c : Char} {cs rest : List Char} {token : Token} {tokens : List Token} (h : Lexes rest tokens)
    (hc : isSpace c = false) (hlen : rest.length ≤ cs.length)
    (htoken : ∀ n, cs.length < n → readToken n c cs = some (token, rest)) : Lexes (c :: cs) (token :: tokens) := by
  intro n hn
  obtain ⟨n, rfl⟩ := Nat.exists_eq_add_of_lt (Nat.lt_of_lt_of_le (Nat.succ_pos _) hn)
  rw [List.length_cons] at hn
  rw [show 0 + n + 1 = n + 1 by omega] at hn ⊢
  rw [lex, hc, htoken (n + 1) (by omega)]
  simp only [Bool.false_eq_true, if_false, Option.bind_some]
  rw [h n (by omega)]
  rfl

/-- White space is no mark and no digit. -/
theorem not_mark_of_isSpace {c : Char} (h : isSpace c = true) : Json.mark c = none ∧ c.isDigit = false := by
  unfold isSpace at h
  simp only [Bool.or_eq_true, decide_eq_true_eq] at h
  rcases h with ((rfl | rfl) | rfl) | rfl <;> decide

theorem Lexes.mark {c : Char} {cs : List Char} {token : Token} {tokens : List Token} (h : Lexes cs tokens)
    (hc : Json.mark c = some token) : Lexes (c :: cs) (token :: tokens) := by
  refine h.token ?_ (Nat.le_refl _) fun n _ => by rw [readToken, hc]
  by_contra hspace
  rw [Bool.not_eq_false] at hspace
  rw [(not_mark_of_isSpace hspace).1] at hc
  cases hc

theorem readChars_escape {s rest : List Char} {n : ℕ} (hn : s.length < n) :
    readChars n (s.flatMap escape ++ '"' :: rest) = some (s, rest) := by
  induction s generalizing n with
  | nil =>
    obtain ⟨n, rfl⟩ := Nat.exists_eq_add_of_lt hn
    simp [readChars]
  | cons c s ih =>
    obtain ⟨n, rfl⟩ := Nat.exists_eq_add_of_lt (Nat.lt_of_le_of_lt (Nat.zero_le _) hn)
    rw [List.length_cons] at hn
    rw [List.flatMap_cons, List.append_assoc, show 0 + n + 1 = n + 1 by omega, readChars]
    have hquote : (escape c ++ (s.flatMap escape ++ '"' :: rest)).head? ≠ some '"' := by
      intro hhead
      obtain ⟨u, hu⟩ := List.head?_eq_some_iff.mp hhead
      exact escape_avoids c _ u hu
    rw [if_neg hquote, unescape_escape]
    simp only [Option.bind_some]
    rw [ih (by omega)]
    rfl

theorem length_le_flatMap_escape (s : List Char) : s.length ≤ (s.flatMap escape).length := by
  induction s with
  | nil => exact Nat.zero_le _
  | cons c s ih =>
    have hpos : escape c ≠ [] := by
      unfold escape
      split_ifs <;> exact List.cons_ne_nil _ _
    have := List.length_pos_iff.mpr hpos
    rw [List.flatMap_cons, List.length_append, List.length_cons]
    omega

theorem Lexes.text {rest : List Char} {tokens : List Token} (h : Lexes rest tokens) (s : String) :
    Lexes (chars (str s) ++ rest) (.text s :: tokens) := by
  have hchars : chars (str s) ++ rest = '"' :: (s.toList.flatMap escape ++ '"' :: rest) := by simp [str]
  rw [hchars]
  refine h.token (by decide) ?_ fun n hn => ?_
  · rw [List.length_append, List.length_cons]
    omega
  · have hlen := length_le_flatMap_escape s.toList
    rw [List.length_append] at hn
    have hmark : Json.mark '"' = none := by decide
    rw [readToken, hmark]
    simp only [if_true]
    rw [readChars_escape (by omega)]
    simp

theorem takeWhile_digits {digits rest : List Char} (hdigits : ∀ c ∈ digits, c.isDigit = true) (hrest : NoDigit rest) :
    (digits ++ rest).takeWhile Char.isDigit = digits ∧ (digits ++ rest).dropWhile Char.isDigit = rest := by
  rw [List.takeWhile_append_of_pos hdigits, List.dropWhile_append_of_pos hdigits]
  cases rest with
  | nil => simp
  | cons c rest =>
    have hc := hrest c rfl
    simp [hc]

theorem Lexes.number {rest : List Char} {tokens : List Token} (h : Lexes rest tokens) (hrest : NoDigit rest)
    (n : UInt64) : Lexes (chars (nat n.toNat) ++ rest) (.number n :: tokens) := by
  have hchars : chars (nat n.toNat) = Nat.toDigits 10 n.toNat := by
    simp [nat]
  have hdigit : ∀ c ∈ Nat.toDigits 10 n.toNat, c.isDigit = true := fun c hc =>
    Nat.isDigit_of_mem_toDigits (by decide) (by decide) hc
  rw [hchars]
  cases hdigits : Nat.toDigits 10 n.toNat with
  | nil => exact absurd hdigits Nat.toDigits_ne_nil
  | cons c digits =>
    have hc : c.isDigit = true := hdigit c (by rw [hdigits]; exact List.mem_cons_self)
    have hother : isSpace c = false ∧ Json.mark c = none ∧ c ≠ '"' := by
      refine ⟨?_, ?_, ?_⟩
      · by_contra hspace
        rw [Bool.not_eq_false] at hspace
        rw [(not_mark_of_isSpace hspace).2] at hc
        cases hc
      · unfold Json.mark
        split_ifs with h1 h2 h3 h4 h5 h6
        all_goals first | rfl | (subst_vars; exact absurd hc (by decide))
      · rintro rfl
        exact absurd hc (by decide)
    have hlen : rest.length ≤ (digits ++ rest).length := by
      rw [List.length_append]
      omega
    show Lexes (c :: (digits ++ rest)) _
    refine h.token hother.1 hlen fun m _ => ?_
    obtain ⟨htake, hdrop⟩ := takeWhile_digits (hdigits ▸ hdigit) hrest
    rw [readToken, hother.2.1]
    simp only [if_neg hother.2.2, hc, if_true]
    unfold readNumber
    rw [← List.cons_append, htake, hdrop, ← hdigits]
    simp only [Nat.ofDigitChars_ten_toDigits]
    rw [if_pos ⟨trivial, UInt64.toNat_lt n⟩, UInt64.ofNat_toNat]

theorem Lexes.null {rest : List Char} {tokens : List Token} (h : Lexes rest tokens) :
    Lexes (chars Json.null ++ rest) (.null :: tokens) := by
  show Lexes ('n' :: 'u' :: 'l' :: 'l' :: rest) _
  refine h.token (by decide) (by simp only [List.length_cons]; omega) fun n _ => ?_
  have hmark : Json.mark 'n' = none := by decide
  have hdigit : Char.isDigit 'n' = false := by decide
  rw [readToken, hmark]
  simp [hdigit, readWord]

theorem Lexes.bool {rest : List Char} {tokens : List Token} (h : Lexes rest tokens) (b : Bool) :
    Lexes (chars (Json.bool b) ++ rest) (.bool b :: tokens) := by
  have htrue : Json.mark 't' = none ∧ Char.isDigit 't' = false := by decide
  have hfalse : Json.mark 'f' = none ∧ Char.isDigit 'f' = false := by decide
  cases b with
  | true =>
    show Lexes ('t' :: 'r' :: 'u' :: 'e' :: rest) _
    refine h.token (by decide) (by simp only [List.length_cons]; omega) fun n _ => ?_
    rw [readToken, htrue.1]
    simp [htrue.2, readWord]
  | false =>
    show Lexes ('f' :: 'a' :: 'l' :: 's' :: 'e' :: rest) _
    refine h.token (by decide) (by simp only [List.length_cons]; omega) fun n _ => ?_
    rw [readToken, hfalse.1]
    simp [hfalse.2, readWord]

/-! ### Values -/

namespace Value

mutual

/-- The value has no numbers but integers of 64 bits. -/
def Plain : Value → Prop
  | .null | .bool _ | .string _ | .number (.posInt _) => True
  | .number (.other _) => False
  | .array items => PlainItems items
  | .object members => PlainMembers members

/-- So have the items of an array. -/
def PlainItems : List Value → Prop
  | [] => True
  | item :: items => item.Plain ∧ PlainItems items

/-- So have the members of an object. -/
def PlainMembers : List (String × Value) → Prop
  | [] => True
  | (_, value) :: members => value.Plain ∧ PlainMembers members

end

mutual

/-- The tokens of a value. -/
def tokens : Value → List Token
  | .null => [.null]
  | .bool b => [.bool b]
  | .number (.posInt n) => [.number n]
  | .number (.other _) => []
  | .string s => [.text s]
  | .array items => .openArray :: itemTokens items
  | .object members => .openObject :: memberTokens members

/-- The tokens of the items of an array, and of its end. -/
def itemTokens : List Value → List Token
  | [] => [.closeArray]
  | [item] => item.tokens ++ [.closeArray]
  | item :: items => item.tokens ++ .comma :: itemTokens items

/-- The tokens of the members of an object, and of its end. -/
def memberTokens : List (String × Value) → List Token
  | [] => [.closeObject]
  | [(key, value)] => .text key :: .colon :: value.tokens ++ [.closeObject]
  | (key, value) :: members => .text key :: .colon :: value.tokens ++ .comma :: memberTokens members

end

end Value

mutual

/-- The value that some tokens begin with, and the tokens after it. -/
def readValue : ℕ → List Token → Option (Value × List Token)
  | 0, _ => none
  | n + 1, tokens =>
    match tokens with
    | .null :: tokens => some (.null, tokens)
    | .bool b :: tokens => some (.bool b, tokens)
    | .number n :: tokens => some (.number (.posInt n), tokens)
    | .text s :: tokens => some (.string s, tokens)
    | .openArray :: .closeArray :: tokens => some (.array [], tokens)
    | .openArray :: tokens => (readItems n tokens).map fun (items, tokens) => (.array items, tokens)
    | .openObject :: .closeObject :: tokens => some (.object [], tokens)
    | .openObject :: tokens => (readMembers n tokens).map fun (members, tokens) => (.object members, tokens)
    | _ => none

/-- The items of an array that is not empty. -/
def readItems : ℕ → List Token → Option (List Value × List Token)
  | 0, _ => none
  | n + 1, tokens =>
    (readValue n tokens).bind fun (item, tokens) =>
      match tokens with
      | .comma :: tokens => (readItems n tokens).map fun (items, tokens) => (item :: items, tokens)
      | .closeArray :: tokens => some ([item], tokens)
      | _ => none

/-- The members of an object that is not empty. -/
def readMembers : ℕ → List Token → Option (List (String × Value) × List Token)
  | 0, _ => none
  | n + 1, tokens =>
    match tokens with
    | .text key :: .colon :: tokens =>
      (readValue n tokens).bind fun (value, tokens) =>
        match tokens with
        | .comma :: tokens => (readMembers n tokens).map fun (members, tokens) => ((key, value) :: members, tokens)
        | .closeObject :: tokens => some ([(key, value)], tokens)
        | _ => none
    | _ => none

end

/-- The value of a document. -/
def readDocument (bytes : List UInt8) : Option Value :=
  (String.fromUTF8? ⟨bytes.toArray⟩).bind fun text =>
    (lex text.toList.length text.toList).bind fun tokens =>
      match readValue tokens.length tokens with
      | some (v, []) => some v
      | _ => none

/-- The value of a text. -/
def readText (text : String) : Option Value :=
  (lex text.toList.length text.toList).bind fun tokens =>
    match readValue tokens.length tokens with
    | some (v, []) => some v
    | _ => none

theorem readDocument_eq (bytes : List UInt8) : readDocument bytes = (String.fromUTF8? ⟨bytes.toArray⟩).bind readText := rfl

/-! ### What is printed is read -/

/-- A value has a token, and its first one closes nothing. -/
theorem Value.tokens_head {v : Value} (h : v.Plain) :
    ∃ token tokens, v.tokens = token :: tokens ∧ token ≠ .closeArray ∧ token ≠ .closeObject := by
  cases v with
  | null => exact ⟨_, _, rfl, by decide, by decide⟩
  | bool b => exact ⟨_, _, rfl, nofun, nofun⟩
  | number n =>
    cases n with
    | posInt n => exact ⟨_, _, rfl, nofun, nofun⟩
    | other => exact h.elim
  | string s => exact ⟨_, _, rfl, nofun, nofun⟩
  | array items => exact ⟨_, _, rfl, by decide, by decide⟩
  | object members => exact ⟨_, _, rfl, by decide, by decide⟩

theorem Value.tokens_pos {v : Value} (h : v.Plain) : 0 < v.tokens.length := by
  obtain ⟨_, _, heq, -⟩ := v.tokens_head h
  rw [heq]
  exact Nat.succ_pos _

/-- Reading goes on at the items of an array that has some. -/
theorem readValue_openArray {n : ℕ} {tokens : List Token} (h : tokens.head? ≠ some .closeArray) :
    readValue (n + 1) (.openArray :: tokens) =
      (readItems n tokens).map fun (items, tokens) => (.array items, tokens) := by
  rw [readValue]
  rintro _ rfl
  exact h rfl

theorem readValue_openObject {n : ℕ} {tokens : List Token} (h : tokens.head? ≠ some .closeObject) :
    readValue (n + 1) (.openObject :: tokens) =
      (readMembers n tokens).map fun (members, tokens) => (.object members, tokens) := by
  rw [readValue]
  rintro _ rfl
  exact h rfl

theorem Value.itemTokens_cons (item next : Value) (items : List Value) :
    itemTokens (item :: next :: items) = item.tokens ++ .comma :: itemTokens (next :: items) := by
  rw [itemTokens]
  exact nofun

theorem Value.memberTokens_cons (key : String) (value : Value) (next : String × Value) (members : List (String × Value)) :
    memberTokens ((key, value) :: next :: members) =
      .text key :: .colon :: (value.tokens ++ .comma :: memberTokens (next :: members)) := by
  rw [memberTokens]
  · rfl
  · exact nofun

mutual

/-- **The tokens of a value are read as that value**, whatever follows them. -/
theorem readValue_tokens : ∀ (v : Value), v.Plain → ∀ (n : ℕ) (rest : List Token), v.tokens.length ≤ n →
    readValue n (v.tokens ++ rest) = some (v, rest)
  | v, h, 0, _, hn => absurd (v.tokens_pos h) (Nat.not_lt_of_le hn)
  | .null, _, n + 1, _, _ => rfl
  | .bool _, _, n + 1, _, _ => rfl
  | .number (.posInt _), _, n + 1, _, _ => rfl
  | .string _, _, n + 1, _, _ => rfl
  | .array [], _, n + 1, _, _ => rfl
  | .array (item :: items), h, n + 1, rest, hn => by
    have hhead : (Value.itemTokens (item :: items) ++ rest).head? ≠ some .closeArray := by
      obtain ⟨token, tokens, heq, hne, -⟩ := item.tokens_head h.1
      cases items <;> simp [Value.itemTokens, heq, hne]
    have hitems := readItems_tokens item items h n rest (Nat.le_of_succ_le_succ hn)
    show readValue (n + 1) (.openArray :: (Value.itemTokens (item :: items) ++ rest)) = _
    rw [readValue_openArray hhead, hitems]
    rfl
  | .object [], _, n + 1, _, _ => rfl
  | .object (member :: members), h, n + 1, rest, hn => by
    have hhead : (Value.memberTokens (member :: members) ++ rest).head? ≠ some .closeObject := by
      cases members <;> simp [Value.memberTokens]
    have hmembers := readMembers_tokens member members h n rest (Nat.le_of_succ_le_succ hn)
    show readValue (n + 1) (.openObject :: (Value.memberTokens (member :: members) ++ rest)) = _
    rw [readValue_openObject hhead, hmembers]
    rfl

/-- So are those of some items. -/
theorem readItems_tokens : ∀ (item : Value) (items : List Value), Value.PlainItems (item :: items) → ∀ (n : ℕ)
    (rest : List Token), (Value.itemTokens (item :: items)).length ≤ n →
    readItems n (Value.itemTokens (item :: items) ++ rest) = some (item :: items, rest)
  | item, [], h, n, rest, hn => by
    have hlen : item.tokens.length + 1 ≤ n := by simpa [Value.itemTokens] using hn
    match n, hlen with
    | n + 1, hlen =>
      have hitem := readValue_tokens item h.1 n (.closeArray :: rest) (Nat.le_of_succ_le_succ hlen)
      rw [Value.itemTokens, List.append_assoc, readItems]
      simp only [List.singleton_append, hitem, Option.bind_some]
  | item, next :: items, h, n, rest, hn => by
    rw [Value.itemTokens_cons] at hn ⊢
    rw [List.length_append, List.length_cons] at hn
    match n, hn with
    | n + 1, hn =>
      have hitem := readValue_tokens item h.1 n (.comma :: (Value.itemTokens (next :: items) ++ rest)) (by omega)
      have hitems := readItems_tokens next items h.2 n rest (by omega)
      rw [List.append_assoc, readItems]
      simp only [List.cons_append, hitem, hitems, Option.bind_some, Option.map_some]

/-- So are those of some members. -/
theorem readMembers_tokens : ∀ (member : String × Value) (members : List (String × Value)),
    Value.PlainMembers (member :: members) → ∀ (n : ℕ) (rest : List Token),
    (Value.memberTokens (member :: members)).length ≤ n →
    readMembers n (Value.memberTokens (member :: members) ++ rest) = some (member :: members, rest)
  | (key, value), [], h, n, rest, hn => by
    have hlen : value.tokens.length + 3 ≤ n := by
      simp only [Value.memberTokens, List.length_cons, List.length_append, List.length_nil] at hn
      omega
    match n, hlen with
    | n + 1, hlen =>
      have hvalue := readValue_tokens value h.1 n (.closeObject :: rest) (by omega)
      rw [Value.memberTokens, List.cons_append, List.cons_append, List.append_assoc]
      show (readValue n (value.tokens ++ _)).bind _ = _
      simp only [List.singleton_append, hvalue, Option.bind_some]
  | (key, value), next :: members, h, n, rest, hn => by
    rw [Value.memberTokens_cons] at hn ⊢
    rw [List.length_cons, List.length_cons, List.length_append, List.length_cons] at hn
    match n, hn with
    | n + 1, hn =>
      have hvalue := readValue_tokens value h.1 n (.comma :: (Value.memberTokens (next :: members) ++ rest)) (by omega)
      have hmembers := readMembers_tokens next members h.2 n rest (by omega)
      rw [List.cons_append, List.cons_append, List.append_assoc]
      show (readValue n (value.tokens ++ _)).bind _ = _
      simp only [List.cons_append, hvalue, hmembers, Option.bind_some, Option.map_some]

end

theorem commas_cons (item next : Text) (items : List Text) :
    commas (item :: next :: items) = item ++ [","] ++ commas (next :: items) := by
  unfold commas
  rw [List.intersperse_cons_cons, List.flatten_cons, List.flatten_cons, List.append_assoc]

theorem noDigit_cons {c : Char} {cs : List Char} (h : c.isDigit = false) : NoDigit (c :: cs) := by
  intro d hd
  cases hd
  exact h

/-- The text of a member. -/
theorem chars_member (key : String) (value : Value) :
    chars ("\"" :: String.ofList (key.toList.flatMap escape) :: "\":" :: value.json) =
      chars (str key) ++ ':' :: chars value.json := by
  simp [str]

mutual

/-- **The text of a value is cut into its tokens**, whatever follows it that is no digit. -/
theorem lexes_json : ∀ (v : Value), v.Plain → ∀ {rest : List Char} {tokens : List Token}, Lexes rest tokens →
    NoDigit rest → Lexes (chars v.json ++ rest) (v.tokens ++ tokens)
  | .null, _, _, _, h, _ => h.null
  | .bool b, _, _, _, h, _ => h.bool b
  | .number (.posInt n), _, _, _, h, hrest => h.number hrest n
  | .string s, _, _, _, h, _ => h.text s
  | .array [], _, _, _, h, _ => (h.mark (by decide)).mark (by decide)
  | .array (item :: items), hplain, rest, tokens, h, _ => by
    have hitems := lexes_items item items hplain h
    have hchars : chars (Value.array (item :: items)).json ++ rest =
        '[' :: (chars (commas (Value.jsonItems (item :: items))) ++ ']' :: rest) := by
      simp [Value.json, array]
    rw [hchars]
    exact hitems.mark (by decide)
  | .object [], _, _, _, h, _ => (h.mark (by decide)).mark (by decide)
  | .object (member :: members), hplain, rest, tokens, h, _ => by
    have hmembers := lexes_members member members hplain h
    have hchars : chars (Value.object (member :: members)).json ++ rest =
        '\x7b' :: (chars (commas ((Value.jsonMembers (member :: members)).map fun m => "\"" :: m.1 :: "\":" :: m.2)) ++
          '\x7d' :: rest) := by
      simp [Value.json, object]
    rw [hchars]
    exact hmembers.mark (by decide)
termination_by v => sizeOf v

/-- So are those of some items. -/
theorem lexes_items : ∀ (item : Value) (items : List Value), Value.PlainItems (item :: items) →
    ∀ {rest : List Char} {tokens : List Token}, Lexes rest tokens →
    Lexes (chars (commas (Value.jsonItems (item :: items))) ++ ']' :: rest) (Value.itemTokens (item :: items) ++ tokens)
  | item, [], hplain, rest, tokens, h => by
    have hitem := lexes_json item hplain.1 (h.mark (show Json.mark ']' = some .closeArray by decide)) (noDigit_cons (by decide))
    rw [Value.itemTokens, List.append_assoc]
    have hcommas : commas (Value.jsonItems [item]) = item.json := by simp [Value.jsonItems, commas]
    rw [hcommas]
    exact hitem
  | item, next :: items, hplain, rest, tokens, h => by
    have hitems := lexes_items next items hplain.2 h
    have hitem := lexes_json item hplain.1 (hitems.mark (show Json.mark ',' = some .comma by decide)) (noDigit_cons (by decide))
    have hcommas : commas (Value.jsonItems (item :: next :: items)) =
        item.json ++ [","] ++ commas (Value.jsonItems (next :: items)) := by
      rw [Value.jsonItems, Value.jsonItems, commas_cons, ← Value.jsonItems]
    rw [Value.itemTokens_cons, hcommas]
    simpa using hitem
termination_by item items => sizeOf item + sizeOf items + 1

/-- So are those of some members. -/
theorem lexes_members : ∀ (member : String × Value) (members : List (String × Value)),
    Value.PlainMembers (member :: members) → ∀ {rest : List Char} {tokens : List Token}, Lexes rest tokens →
    Lexes (chars (commas ((Value.jsonMembers (member :: members)).map fun m => "\"" :: m.1 :: "\":" :: m.2)) ++
      '\x7d' :: rest) (Value.memberTokens (member :: members) ++ tokens)
  | (key, value), [], hplain, rest, tokens, h => by
    have hvalue := lexes_json value hplain.1 (h.mark (show Json.mark '\x7d' = some .closeObject by decide)) (noDigit_cons (by decide))
    have hmember := (hvalue.mark (show Json.mark ':' = some .colon by decide)).text key
    rw [Value.memberTokens]
    have hcommas : commas ((Value.jsonMembers [(key, value)]).map fun m => "\"" :: m.1 :: "\":" :: m.2) =
        "\"" :: String.ofList (key.toList.flatMap escape) :: "\":" :: value.json := by
      simp [Value.jsonMembers, commas]
    rw [hcommas, chars_member]
    simpa using hmember
  | (key, value), next :: members, hplain, rest, tokens, h => by
    have hmembers := lexes_members next members hplain.2 h
    have hvalue := lexes_json value hplain.1 (hmembers.mark (show Json.mark ',' = some .comma by decide)) (noDigit_cons (by decide))
    have hmember := (hvalue.mark (show Json.mark ':' = some .colon by decide)).text key
    have hcommas : commas ((Value.jsonMembers ((key, value) :: next :: members)).map fun m => "\"" :: m.1 :: "\":" :: m.2) =
        ("\"" :: String.ofList (key.toList.flatMap escape) :: "\":" :: value.json) ++ [","] ++
          commas ((Value.jsonMembers (next :: members)).map fun m => "\"" :: m.1 :: "\":" :: m.2) := by
      obtain ⟨next, last⟩ := next
      rw [Value.jsonMembers, Value.jsonMembers, List.map_cons, List.map_cons, commas_cons]
    rw [Value.memberTokens_cons, hcommas, chars_append, chars_append, chars_member]
    simpa using hmember
termination_by member members => sizeOf member + sizeOf members + 1

end

theorem utf8_eq_encode (t : Text) : (⟨(utf8 t).toArray⟩ : ByteArray) = (String.ofList (chars t)).toByteArray := by
  rw [String.toByteArray_ofList, List.utf8Encode, chars, List.flatMap_assoc]
  apply ByteArray.ext
  rw [List.data_toByteArray]
  rfl

theorem fromUTF8?_utf8 (t : Text) : String.fromUTF8? ⟨(utf8 t).toArray⟩ = some (String.ofList (chars t)) := by
  rw [utf8_eq_encode, String.fromUTF8?, dif_pos (String.ofList (chars t)).isValidUTF8]
  rfl

/-- A text in any layout of the tokens. -/
theorem readText_of_lexes {v : Value} (hplain : v.Plain) {text : String} (h : Lexes text.toList v.tokens) :
    readText text = some v := by
  have hread := readValue_tokens v hplain v.tokens.length [] (Nat.le_refl _)
  rw [List.append_nil] at hread
  unfold readText
  rw [h _ (Nat.le_refl _)]
  simp only [Option.bind_some, hread]

/-- A document in any layout of its tokens. -/
theorem readDocument_of_lexes {v : Value} (hplain : v.Plain) {t : Text} (h : Lexes (chars t) v.tokens) :
    readDocument (utf8 t) = some v := by
  rw [readDocument_eq, fromUTF8?_utf8, Option.bind_some]
  exact readText_of_lexes hplain (by rwa [String.toList_ofList])

/-- **A document that was printed is read back.** -/
theorem readDocument_json {v : Value} (hplain : v.Plain) : readDocument (utf8 v.json) = some v := by
  have h := lexes_json v hplain lexes_nil (fun _ hc => absurd hc (by simp))
  rw [List.append_nil, List.append_nil] at h
  exact readDocument_of_lexes hplain h

end AgentObservability.Foundation.Json
