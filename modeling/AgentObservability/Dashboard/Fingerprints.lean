import AgentObservability.Dashboard.Leases
import AgentObservability.Foundation.PrefixCode

/-!
# What the ids and the fingerprints tell

The message of a cursor id tells the number of the cursor (`cursorMessage_inj`),
and the JSON of filters tells the filters (`filters_of_json`). So two cursors, or
two scopes, are told apart by their digests, as long as the digest function has
no collision among the messages that were digested.
-/

namespace AgentObservability.Dashboard

open Domain Contracts Foundation

/-! ### Numbers -/

theorem length_toLeBytes (size n : ℕ) : (DashboardQueryService.toLeBytes size n).length = size := by
  simp [DashboardQueryService.toLeBytes]

/-- The low bytes of a number tell it. -/
theorem toLeBytes_inj {size m n : ℕ} (hm : m < 256 ^ size) (hn : n < 256 ^ size)
    (h : DashboardQueryService.toLeBytes size m = DashboardQueryService.toLeBytes size n) : m = n := by
  have hbyte : ∀ i < size, m / 256 ^ i % 256 = n / 256 ^ i % 256 := by
    intro i hi
    have hget := congrArg (fun bytes => bytes[i]?) h
    simp only [DashboardQueryService.toLeBytes, List.getElem?_map, List.getElem?_range hi, Option.map_some, Option.some.injEq] at hget
    simpa using congrArg UInt8.toNat hget
  have hmod : ∀ i ≤ size, m % 256 ^ i = n % 256 ^ i := by
    intro i hi
    induction i with
    | zero => simp [Nat.mod_one]
    | succ i ih =>
      rw [Nat.pow_succ, Nat.mod_mul, Nat.mod_mul, ih (Nat.le_of_succ_le hi), hbyte i hi]
  have hall := hmod size le_rfl
  rwa [Nat.mod_eq_of_lt hm, Nat.mod_eq_of_lt hn] at hall

/-- **The message of a cursor id tells the number of the cursor.** -/
theorem cursorMessage_inj {secret : List UInt8} {processId m n : ℕ} (hm : m < 2 ^ 64) (hn : n < 2 ^ 64)
    (h : DashboardQueryService.cursorMessage secret processId m = DashboardQueryService.cursorMessage secret processId n) : m = n :=
  toLeBytes_inj hm hn (List.append_cancel_left h)

/-! ### Filters -/

/-- A member with values, if there are any. -/
def valuesMember (key : Json.PlainKey) (values : List String) : List (Json.PlainKey × (List String ⊕ String)) :=
  if values.isEmpty then [] else [(key, .inl values)]

/-- The members of filters in their JSON: an array or a text. -/
def filterMembers (filters : DashboardFiltersV1) : List (Json.PlainKey × (List String ⊕ String)) :=
  valuesMember ⟨"repo", by decide⟩ filters.repo ++ valuesMember ⟨"session", by decide⟩ filters.session ++
    valuesMember ⟨"agent", by decide⟩ filters.agent ++ valuesMember ⟨"model", by decide⟩ filters.model ++
    filters.text.toList.map fun text => (⟨"text", by decide⟩, .inr text)

/-- The JSON of a member. -/
def printMember : List String ⊕ String → Text := Sum.elim (fun values => Json.array (values.map Json.str)) Json.str

theorem filtersJson_eq (filters : DashboardFiltersV1) :
    filtersJson filters = Json.object ((filterMembers filters).map fun m => (m.1.1, printMember m.2)) := by
  have hvalues : ∀ key values, (valuesMember key values).map (fun m => (m.1.1, printMember m.2)) =
      if values.isEmpty then [] else [(key.1, Json.array (values.map Json.str))] := by
    intro key values
    unfold valuesMember
    split <;> rfl
  rw [filterMembers, filtersJson]
  simp only [List.map_append, hvalues, List.map_map]
  rfl

theorem printMember_prefixFree : PrefixFree fun m => chars (printMember m) := by
  have hquote : Avoids (fun s => chars (Json.str s)) ']' := fun s u v h => by simp [Json.str] at h
  have hbracket : Avoids (fun s => chars (Json.str s)) '[' := fun s u v h => by simp [Json.str] at h
  have hsum := (Json.array_prefixFree Json.str_prefixFree hquote).sum Json.str_prefixFree
    (fun values => ⟨_, by rw [Json.array]; rfl⟩) hbracket
  intro a b u v h
  refine hsum a b u v ?_
  cases a <;> cases b <;> exact h

/-- The values under a key. -/
def valuesAt (key : String) (members : List (Json.PlainKey × (List String ⊕ String))) : List String :=
  members.flatMap fun m => if m.1.1 = key then m.2.elim id fun _ => [] else []

theorem valuesAt_valuesMember (k : String) (key : Json.PlainKey) (values : List String) :
    valuesAt k (valuesMember key values) = if key.1 = k then values else [] := by
  unfold valuesAt valuesMember
  cases values <;> simp

theorem valuesAt_filterMembers (k : String) (filters : DashboardFiltersV1) :
    valuesAt k (filterMembers filters) = (if "repo" = k then filters.repo else []) ++
      (if "session" = k then filters.session else []) ++ (if "agent" = k then filters.agent else []) ++
      (if "model" = k then filters.model else []) := by
  have htext : valuesAt k (filters.text.toList.map fun text => (⟨"text", by decide⟩, .inr text)) = [] := by
    cases filters.text <;> simp [valuesAt]
  have happend : ∀ l l', valuesAt k (l ++ l') = valuesAt k l ++ valuesAt k l' := fun l l' => List.flatMap_append
  rw [filterMembers]
  simp only [happend, valuesAt_valuesMember, htext, List.append_nil]

/-- The members tell the filters. -/
theorem filterMembers_injective : Function.Injective filterMembers := by
  intro f g h
  have hvalues : ∀ k, valuesAt k (filterMembers f) = valuesAt k (filterMembers g) := fun k => by rw [h]
  simp only [valuesAt_filterMembers] at hvalues
  have htexts : ∀ f, (filterMembers f).filterMap (fun m => m.2.getRight?) = f.text.toList := by
    intro f
    have hnone : ∀ key values, (valuesMember key values).filterMap (fun m => m.2.getRight?) = [] := by
      intro key values
      unfold valuesMember
      split <;> rfl
    rw [filterMembers]
    simp only [List.filterMap_append, hnone, List.nil_append]
    cases f.text <;> rfl
  have htext : f.text = g.text := by
    have hlist : f.text.toList = g.text.toList := by rw [← htexts, ← htexts, h]
    simpa using congrArg List.head? hlist
  cases f
  cases g
  simp only [DashboardFiltersV1.mk.injEq]
  exact ⟨by simpa using hvalues "repo", by simpa using hvalues "session", by simpa using hvalues "agent",
    by simpa using hvalues "model", htext⟩

/-- **The JSON of filters tells the filters.** -/
theorem filters_of_json {f g : DashboardFiltersV1} (h : utf8 (filtersJson f) = utf8 (filtersJson g)) : f = g := by
  have hchars := chars_eq_of_utf8 h
  rw [filtersJson_eq, filtersJson_eq] at hchars
  refine filterMembers_injective (Json.object_prefixFree printMember_prefixFree _ _ [] [] ?_).1
  simpa using hchars

end AgentObservability.Dashboard
