import AgentObservability.Foundation.JsonText

/-!
# JSON values

The values that `serde_json` reads, as far as a reader can tell them apart: a
number is a `u64` or some other number, and an object has one member for each of
its keys. The accessors are those of `serde_json::Value`.
-/

namespace AgentObservability.Foundation.Json

/-- `serde_json::Number`. -/
inductive Number where
  /-- A number that is a `u64`. -/
  | posInt (n : UInt64)
  /-- A negative or a floating-point number, by its text. -/
  | other (text : String)
  deriving DecidableEq

/-- `serde_json::Value`. -/
inductive Value where
  /-- `null`. -/
  | null
  /-- `true` or `false`. -/
  | bool (b : Bool)
  /-- A number. -/
  | number (n : Number)
  /-- A string. -/
  | string (s : String)
  /-- An array. -/
  | array (items : List Value)
  /-- An object. -/
  | object (members : List (String × Value))

namespace Value

/-- `Value::get` of a member. -/
def get? (v : Value) (key : String) : Option Value :=
  match v with
  | .object members => (members.find? fun m => m.1 = key).map (·.2)
  | _ => none

/-- `Value::as_array`. -/
def asArray : Value → Option (List Value)
  | .array items => some items
  | _ => none

/-- `Value::as_str`. -/
def asStr : Value → Option String
  | .string s => some s
  | _ => none

/-- `Value::as_bool`. -/
def asBool : Value → Option Bool
  | .bool b => some b
  | _ => none

/-- `Value::as_u64`. -/
def asU64 : Value → Option UInt64
  | .number (.posInt n) => some n
  | _ => none

/-- `Value::as_f64`, as the number that `Number::from_f64` makes of it. -/
def asFloat : Value → Option Number
  | .number (.posInt n) => some (.other (toString n))
  | .number (.other text) => some (.other text)
  | _ => none

mutual

/-- `serde_json::to_string`. -/
def json : Value → Text
  | .null => Json.null
  | .bool b => Json.bool b
  | .number (.posInt n) => Json.nat n.toNat
  | .number (.other text) => [text]
  | .string s => Json.str s
  | .array items => Json.array (jsonItems items)
  | .object members => Json.object (jsonMembers members)

/-- The items of an array. -/
def jsonItems : List Value → List Text
  | [] => []
  | item :: items => item.json :: jsonItems items

/-- The members of an object. -/
def jsonMembers : List (String × Value) → List (String × Text)
  | [] => []
  | (key, value) :: members => (String.ofList (key.toList.flatMap escape), value.json) :: jsonMembers members

end

end Value

/-! ### Records -/

namespace Value

/-- The fields of a record as a derived `Deserialize` finds them that denies unknown ones: in an object that has
each at most once, or in an array of them in order. -/
def fields (names : List String) : Value → Option (String → Option Value)
  | .object members =>
    if (members.map Prod.fst).Nodup ∧ ∀ key ∈ members.map Prod.fst, key ∈ names then
      some fun name => (members.find? fun m => m.1 = name).map (·.2)
    else none
  | .array items => if items.length ≤ names.length then some fun name => items[names.idxOf name]? else none
  | _ => none

theorem fields_object {names keys : List String} {members : List (String × Value)}
    (hkeys : members.map Prod.fst = keys) (hnodup : keys.Nodup) (hnames : ∀ key ∈ keys, key ∈ names) :
    (Value.object members).fields names = some fun name => (members.find? fun m => m.1 = name).map (·.2) :=
  if_pos (hkeys ▸ ⟨hnodup, hnames⟩)

/-- An unsigned integer of so many bits, at most 64. -/
def asUnsigned (bits : ℕ) (v : Value) : Option UInt64 := v.asU64.filter fun n => n.toNat < 2 ^ bits

end Value

/-- `str::parse::<u64>`: digits, after an optional plus sign, of a number that fits. -/
def parseU64 (text : String) : Option UInt64 :=
  let digits := match text.toList with
    | '+' :: rest => rest
    | all => all
  if digits ≠ [] ∧ (digits.all Char.isDigit) then
    let n := digits.foldl (fun n c => 10 * n + (c.toNat - '0'.toNat)) 0
    if n < 2 ^ 64 then some (UInt64.ofNat n) else none
  else none

/-- `str::parse::<bool>`. -/
def parseBool (text : String) : Option Bool :=
  if text = "true" then some true else if text = "false" then some false else none

/-- A number is parsed from its decimal digits. -/
theorem parseU64_toString (n : UInt64) : parseU64 (toString n.toNat) = some n := by
  have hdigit : ∀ c ∈ Nat.toDigits 10 n.toNat, c.isDigit = true := fun c hc =>
    Nat.isDigit_of_mem_toDigits (by decide) (by decide) hc
  have hvalue : (Nat.toDigits 10 n.toNat).foldl (fun n c => 10 * n + (c.toNat - '0'.toNat)) 0 = n.toNat := by
    rw [← Nat.ofDigitChars_eq_foldl, Nat.ofDigitChars_ten_toDigits]
  have htext : (toString n.toNat).toList = Nat.toDigits 10 n.toNat := by
    rw [Nat.toString_eq_repr, Nat.toList_repr]
  unfold parseU64
  rw [htext]
  cases hdigits : Nat.toDigits 10 n.toNat with
  | nil => exact absurd hdigits Nat.toDigits_ne_nil
  | cons c digits =>
    rw [hdigits] at hdigit hvalue
    have hplus : c ≠ '+' := by
      rintro rfl
      exact absurd (hdigit '+' List.mem_cons_self) (by decide)
    have hsame : (match c :: digits with | '+' :: rest => rest | all => all) = c :: digits := by
      split
      · rename_i heq
        exact absurd (List.cons.inj heq).1 hplus
      · rfl
    simp only [hsame]
    rw [if_pos ⟨List.cons_ne_nil _ _, List.all_eq_true.mpr hdigit⟩, hvalue, if_pos n.toNat_lt, UInt64.ofNat_toNat]

end AgentObservability.Foundation.Json
