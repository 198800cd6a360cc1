import AgentObservability.Foundation.JsonReader

/-!
# JSON documents with one member on a line

`serde_json::to_string_pretty`: items and members stand on lines of their own, two
more spaces in at each level. White space is all that it adds, so such a document
has the tokens of its value (`lexes_pretty_line`), and a reader finds the value again.
-/

namespace AgentObservability.Foundation.Json

/-- A new line at some level. -/
def newLine (depth : ℕ) : String := String.ofList ('\n' :: List.replicate (2 * depth) ' ')

namespace Value

mutual

/-- `serde_json::to_string_pretty`, at some level. -/
def pretty : ℕ → Value → Text
  | _, .null => Json.null
  | _, .bool b => Json.bool b
  | _, .number (.posInt n) => Json.nat n.toNat
  | _, .number (.other text) => [text]
  | _, .string s => Json.str s
  | _, .array [] => ["[", "]"]
  | depth, .array (item :: items) => "[" :: commas (prettyItems (depth + 1) (item :: items)) ++ [newLine depth, "]"]
  | _, .object [] => ["\x7b", "\x7d"]
  | depth, .object (member :: members) =>
    "\x7b" :: commas (prettyMembers (depth + 1) (member :: members)) ++ [newLine depth, "\x7d"]

/-- The items of an array, each on its line. -/
def prettyItems (depth : ℕ) : List Value → List Text
  | [] => []
  | item :: items => (newLine depth :: item.pretty depth) :: prettyItems depth items

/-- The members of an object, each on its line. -/
def prettyMembers (depth : ℕ) : List (String × Value) → List Text
  | [] => []
  | (key, value) :: members =>
    (newLine depth :: Json.str key ++ ": " :: value.pretty depth) :: prettyMembers depth members

end

end Value

/-! ### Reading it -/

theorem Lexes.newLine {cs : List Char} {tokens : List Token} (h : Lexes cs tokens) (depth : ℕ) :
    Lexes ((newLine depth).toList ++ cs) tokens := by
  have hspaces : ∀ n, Lexes (List.replicate n ' ' ++ cs) tokens := by
    intro n
    induction n with
    | zero => exact h
    | succ n ih => exact ih.space (by decide)
  rw [Json.newLine, String.toList_ofList]
  exact (hspaces _).space (by decide)

theorem noDigit_newLine {depth : ℕ} {cs : List Char} : NoDigit ((newLine depth).toList ++ cs) := by
  rw [newLine, String.toList_ofList]
  exact noDigit_cons (by decide)

mutual

/-- The text of a value in this layout is cut into the same tokens. -/
theorem lexes_pretty : ∀ (v : Value), v.Plain → ∀ (depth : ℕ) {rest : List Char} {tokens : List Token}, Lexes rest tokens →
    NoDigit rest → Lexes (chars (v.pretty depth) ++ rest) (v.tokens ++ tokens)
  | .null, _, _, _, _, h, _ => h.null
  | .bool b, _, _, _, _, h, _ => h.bool b
  | .number (.posInt n), _, _, _, _, h, hrest => h.number hrest n
  | .string s, _, _, _, _, h, _ => h.text s
  | .array [], _, _, _, _, h, _ => (h.mark (by decide)).mark (by decide)
  | .array (item :: items), hplain, depth, rest, tokens, h, _ => by
    have hitems := lexes_prettyItems item items hplain depth h
    have hchars : chars ((Value.array (item :: items)).pretty depth) ++ rest =
        '[' :: (chars (commas (Value.prettyItems (depth + 1) (item :: items))) ++
          ((newLine depth).toList ++ ']' :: rest)) := by
      simp [Value.pretty]
    rw [hchars]
    exact hitems.mark (by decide)
  | .object [], _, _, _, _, h, _ => (h.mark (by decide)).mark (by decide)
  | .object (member :: members), hplain, depth, rest, tokens, h, _ => by
    have hmembers := lexes_prettyMembers member members hplain depth h
    have hchars : chars ((Value.object (member :: members)).pretty depth) ++ rest =
        '\x7b' :: (chars (commas (Value.prettyMembers (depth + 1) (member :: members))) ++
          ((newLine depth).toList ++ '\x7d' :: rest)) := by
      simp [Value.pretty]
    rw [hchars]
    exact hmembers.mark (by decide)
termination_by v => sizeOf v

/-- So is that of some items. -/
theorem lexes_prettyItems : ∀ (item : Value) (items : List Value), Value.PlainItems (item :: items) →
    ∀ (depth : ℕ) {rest : List Char} {tokens : List Token}, Lexes rest tokens →
    Lexes (chars (commas (Value.prettyItems (depth + 1) (item :: items))) ++ ((newLine depth).toList ++ ']' :: rest))
      (Value.itemTokens (item :: items) ++ tokens)
  | item, [], hplain, depth, rest, tokens, h => by
    have hclose := (h.mark (show Json.mark ']' = some .closeArray by decide)).newLine depth
    have hitem := (lexes_pretty item hplain.1 (depth + 1) hclose noDigit_newLine).newLine (depth + 1)
    rw [Value.itemTokens, List.append_assoc]
    have hcommas : commas (Value.prettyItems (depth + 1) [item]) = newLine (depth + 1) :: item.pretty (depth + 1) := by
      simp [Value.prettyItems, commas]
    rw [hcommas, chars_cons, List.append_assoc]
    exact hitem
  | item, next :: items, hplain, depth, rest, tokens, h => by
    have hitems := lexes_prettyItems next items hplain.2 depth h
    have hcomma := hitems.mark (show Json.mark ',' = some .comma by decide)
    have hitem := (lexes_pretty item hplain.1 (depth + 1) hcomma (noDigit_cons (by decide))).newLine (depth + 1)
    have hcommas : commas (Value.prettyItems (depth + 1) (item :: next :: items)) =
        (newLine (depth + 1) :: item.pretty (depth + 1)) ++ [","] ++
          commas (Value.prettyItems (depth + 1) (next :: items)) := by
      rw [Value.prettyItems, Value.prettyItems, commas_cons, ← Value.prettyItems]
    rw [Value.itemTokens_cons, hcommas]
    simpa using hitem
termination_by item items => sizeOf item + sizeOf items + 1

/-- So is that of some members. -/
theorem lexes_prettyMembers : ∀ (member : String × Value) (members : List (String × Value)),
    Value.PlainMembers (member :: members) → ∀ (depth : ℕ) {rest : List Char} {tokens : List Token}, Lexes rest tokens →
    Lexes (chars (commas (Value.prettyMembers (depth + 1) (member :: members))) ++ ((newLine depth).toList ++ '\x7d' :: rest))
      (Value.memberTokens (member :: members) ++ tokens)
  | (key, value), [], hplain, depth, rest, tokens, h => by
    have hclose := (h.mark (show Json.mark '\x7d' = some .closeObject by decide)).newLine depth
    have hvalue := (lexes_pretty value hplain.1 (depth + 1) hclose noDigit_newLine).space (show isSpace ' ' = true by decide)
    have hmember := ((hvalue.mark (show Json.mark ':' = some .colon by decide)).text key).newLine (depth + 1)
    rw [Value.memberTokens]
    have hcommas : commas (Value.prettyMembers (depth + 1) [(key, value)]) =
        newLine (depth + 1) :: Json.str key ++ ": " :: value.pretty (depth + 1) := by
      simp [Value.prettyMembers, commas]
    rw [hcommas]
    simpa using hmember
  | (key, value), next :: members, hplain, depth, rest, tokens, h => by
    have hmembers := lexes_prettyMembers next members hplain.2 depth h
    have hcomma := hmembers.mark (show Json.mark ',' = some .comma by decide)
    have hvalue := (lexes_pretty value hplain.1 (depth + 1) hcomma (noDigit_cons (by decide))).space (show isSpace ' ' = true by decide)
    have hmember := ((hvalue.mark (show Json.mark ':' = some .colon by decide)).text key).newLine (depth + 1)
    have hcommas : commas (Value.prettyMembers (depth + 1) ((key, value) :: next :: members)) =
        (newLine (depth + 1) :: Json.str key ++ ": " :: value.pretty (depth + 1)) ++ [","] ++
          commas (Value.prettyMembers (depth + 1) (next :: members)) := by
      obtain ⟨next, last⟩ := next
      rw [Value.prettyMembers, Value.prettyMembers, commas_cons]
    rw [Value.memberTokens_cons, hcommas]
    simpa using hmember
termination_by member members => sizeOf member + sizeOf members + 1

end

/-- **A text in this layout is cut into the same tokens**, with a new line at its end. -/
theorem lexes_pretty_line {v : Value} (hplain : v.Plain) : Lexes (chars (v.pretty 0 ++ ["\n"])) v.tokens := by
  have hend : Lexes ['\n'] [] := lexes_nil.space (by decide)
  have h := lexes_pretty v hplain 0 hend (noDigit_cons (by decide))
  rw [List.append_nil] at h
  rw [chars_append]
  exact h

end AgentObservability.Foundation.Json
