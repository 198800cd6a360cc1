import AgentObservability.Contracts.Record
import AgentObservability.Foundation.Sha256

/-!
# The identifiers of a sanitized record

What `sanitizeDurableRecord` leaves of the identifiers of a record. A projected
identifier is `id:sha256:` and the sixty-four digits of a digest. The guard of
`hashOpaqueIdentifier` looks at the prefix only, so an identifier that a source
gives this prefix stays as the source wrote it (`sanitizeDurableRecord_projected`).
-/

namespace AgentObservability.Contracts

open Foundation

/-- Sixty-four lower-case hexadecimal digits. -/
def IsDigest (text : String) : Prop := text.length = 64 ∧ ∀ c ∈ text.toList, c ∈ "0123456789abcdef".toList

instance : DecidablePred IsDigest := fun _ => inferInstanceAs (Decidable (_ ∧ _))

/-- The form of a projected identifier. -/
def IsProjected (value : String) : Prop := ∃ digits, value = privatePrefix ++ digits ∧ IsDigest digits

/-- The digests are hexadecimal text. -/
class HexDigest [Sha2] : Prop where
  /-- Sixty-four digits. -/
  isDigest : ∀ message, IsDigest (Sha2.hexDigest message)

/-- SHA-256 gives hexadecimal text. -/
theorem isDigest_sha256 (message : List UInt8) : IsDigest (Sha256.hexDigest message) := by
  have hdigit : ∀ n < 16, Nat.digitChar n ∈ "0123456789abcdef".toList := by decide
  refine ⟨Sha256.length_hexDigest message, fun c hc => ?_⟩
  simp only [Sha256.hexDigest, String.toList_ofList, List.mem_flatMap, Sha256.hexWord, List.mem_map] at hc
  obtain ⟨w, -, i, -, rfl⟩ := hc
  exact hdigit _ (Nat.mod_lt _ (by decide))

/-- An attribute that is an identifier, where it is a string. -/
def scalarIdentifier : Option ScalarValueV1 → List String
  | some (.string value) => [value]
  | _ => []

/-- The identifiers of a record: of the trace, the span and its parent, and the session, turn, request, call,
permission and compaction, where they are strings. -/
def DurableRecordV1.identifiers (r : DurableRecordV1) : List String :=
  r.traceId :: r.spanId :: r.parentSpanId.toList ++
    [r.attributes.sessionId, r.attributes.turnId, r.attributes.requestId, r.attributes.callId,
      r.attributes.permissionId, r.attributes.compactionId].flatMap scalarIdentifier

variable [Sha2]

/-- A sanitized identifier attribute. -/
theorem scalarIdentifier_sanitizeScalar {value : Option ScalarValueV1} {key : String} (hk : key ∈ identifierAttributes) :
    scalarIdentifier (sanitizeScalar value key) = (scalarIdentifier value).map hashOpaqueIdentifier := by
  unfold sanitizeScalar
  split
  · simp only [scalarIdentifier, if_pos hk, List.map_cons, List.map_nil]
  · rename_i hn
    cases value with
    | none => rfl
    | some value =>
      cases value with
      | string text => exact absurd rfl (hn text)
      | boolean _ => rfl
      | number _ => rfl

/-- **The sanitization hashes every identifier.** -/
theorem identifiers_sanitized (r : DurableRecordV1) :
    (sanitized r).identifiers = r.identifiers.map hashOpaqueIdentifier := by
  have hparent : (r.parentSpanId.map hashRecordId).toList = r.parentSpanId.toList.map hashOpaqueIdentifier := by
    cases r.parentSpanId <;> rfl
  simp only [DurableRecordV1.identifiers, sanitized, sanitizeFields, sanitizeAttributes, hparent, hashRecordId,
    List.flatMap_cons, List.flatMap_nil, List.append_nil, List.map_append, List.map_cons]
  rw [scalarIdentifier_sanitizeScalar (by decide), scalarIdentifier_sanitizeScalar (by decide),
    scalarIdentifier_sanitizeScalar (by decide), scalarIdentifier_sanitizeScalar (by decide),
    scalarIdentifier_sanitizeScalar (by decide), scalarIdentifier_sanitizeScalar (by decide)]

omit [Sha2] in
theorem IsProjected.isPrivate {value : String} (h : IsProjected value) : IsPrivate value := by
  obtain ⟨digits, rfl, -⟩ := h
  simp [IsPrivate]

/-- A hashed identifier is projected, unless it only imitated the prefix of one. -/
theorem isProjected_hashOpaqueIdentifier [HexDigest] {value : String} :
    IsProjected (hashOpaqueIdentifier value) ↔ (IsPrivate value → IsProjected value) := by
  unfold hashOpaqueIdentifier
  by_cases hp : IsPrivate value
  · rw [if_pos hp]
    exact ⟨fun h _ => h, fun h => h hp⟩
  · rw [if_neg hp]
    exact iff_of_true ⟨_, rfl, HexDigest.isDigest _⟩ fun h => absurd h hp

/-- **The identifiers of a sanitized record are projected exactly if no identifier of the record has the prefix of a
projected one without being one.** -/
theorem sanitizeDurableRecord_projected [HexDigest] {r s : DurableRecordV1} (h : sanitizeDurableRecord r = .ok s) :
    (∀ i ∈ s.identifiers, IsProjected i) ↔ ∀ i ∈ r.identifiers, IsPrivate i → IsProjected i := by
  obtain ⟨⟨⟩, -, h⟩ := bind_eq_ok.mp h
  obtain rfl := pure_eq_ok.mp h
  simp only [identifiers_sanitized, List.mem_map, forall_exists_index, and_imp, forall_apply_eq_imp_iff₂,
    isProjected_hashOpaqueIdentifier]

omit [Sha2] in
/-- The record of a turn whose identifiers are given. -/
def turnWithIds (traceId spanId : String) : DurableRecordV1 where
  schemaVersion := durableRecordVersion
  recordType := "span"
  traceId := traceId
  spanId := spanId
  parentSpanId := none
  spanKind := .turn
  name := "turn"
  startTimeUnixMs := 0
  endTimeUnixMs := none
  status := .unset
  agent := {}
  project := {}
  attributes := {}
  metrics := {}
  content := {}
  redaction := { applied := true, count := 0, fields := [] }

/-- Such a turn is sanitized. -/
theorem sanitizeDurableRecord_turnWithIds (traceId spanId : String) :
    sanitizeDurableRecord (turnWithIds traceId spanId) = .ok (sanitized (turnWithIds traceId spanId)) := by
  have hvalid : (sanitized (turnWithIds traceId spanId)).validate = .ok () :=
    DurableRecordV1.validate_ok_iff.mpr ⟨⟨rfl, rfl⟩, ⟨hashOpaqueIdentifier_ne_empty _, hashOpaqueIdentifier_ne_empty _,
      redactSensitiveText_ne_empty (show "turn" ≠ "" by decide)⟩, rfl, nofun, nofun, nofun, nofun, nofun, nofun⟩
  rw [sanitizeDurableRecord, hvalid]
  rfl

omit [Sha2] in
/-- The digests of SHA-256. -/
theorem hexDigest_sha256 : @HexDigest ⟨Sha256.hexDigest⟩ := @HexDigest.mk ⟨Sha256.hexDigest⟩ isDigest_sha256

omit [Sha2] in
theorem projected_turnWithIds :
    (∀ i ∈ (@sanitized ⟨Sha256.hexDigest⟩ (turnWithIds "trace" "span")).identifiers, IsProjected i) ↔
      ∀ i ∈ (turnWithIds "trace" "span").identifiers, IsPrivate i → IsProjected i :=
  @sanitizeDurableRecord_projected ⟨Sha256.hexDigest⟩ hexDigest_sha256 _ _
    (@sanitizeDurableRecord_turnWithIds ⟨Sha256.hexDigest⟩ _ _)

omit [Sha2] in
/-- A path behind the prefix stays as it is. -/
theorem not_projected_imitation : ¬ ∀ r s, @sanitizeDurableRecord ⟨Sha256.hexDigest⟩ r = .ok s →
    ∀ i ∈ s.identifiers, IsProjected i := by
  intro h
  have hmem : "id:sha256:/home/user/notes" ∈
      (@sanitized ⟨Sha256.hexDigest⟩ (turnWithIds "id:sha256:/home/user/notes" "span")).identifiers := by
    rw [@identifiers_sanitized ⟨Sha256.hexDigest⟩]
    exact List.mem_map.mpr ⟨"id:sha256:/home/user/notes", List.mem_cons_self, if_pos (by decide)⟩
  obtain ⟨digits, hd, hlength, -⟩ := h _ _ (@sanitizeDurableRecord_turnWithIds ⟨Sha256.hexDigest⟩ _ _) _ hmem
  have := congrArg String.length hd
  rw [String.length_append, hlength] at this
  exact absurd this (by decide)

end AgentObservability.Contracts
