import AgentObservability.Codex.Correlation
import AgentObservability.Contracts.Identifiers
import AgentObservability.Store.Schema

/-!
# The persisted correlation

The correlation of the collector goes over a restart as a JSON text beside the
cursor: `toPersistedJson` writes it, the store looks at it before it commits it
(`validateCodexCorrelationState`), and `fromPersistedJson` reads it back.

A text is given by its length and by what `serde_json` reads from it. What
`serde_json` has printed it reads back (`PersistedState.printed`).
-/

namespace AgentObservability.Codex

open Domain Contracts Foundation Foundation.Json

/-- `u8::is_ascii_hexdigit`. -/
def isAsciiHexdigit (c : Char) : Bool := ('0' ≤ c ∧ c ≤ '9') ∨ ('a' ≤ c ∧ c ≤ 'f') ∨ ('A' ≤ c ∧ c ≤ 'F')

/-- `is_private_hash`, and `is_private_identifier_hash` of the store. -/
def isPrivateHash (value : String) : Bool :=
  value.utf8ByteSize = 74 ∧ IsPrivate value ∧ (value.toList.drop 10).all isAsciiHexdigit

/-- `PersistedPendingOtlpRequest`. -/
structure PersistedPending where
  /-- `source_generation_hash`. -/
  sourceGenerationHash : String
  /-- `conversation_hash`. -/
  conversationHash : String
  /-- `model_hash`. -/
  modelHash : String
  /-- `correlation_id`. -/
  correlationId : String
  /-- `official_retry_identity`. -/
  officialRetryIdentity : Option String
  /-- `inserted_at_unix_ms`. -/
  insertedAtUnixMs : ℕ
  /-- `sequence`. -/
  sequence : ℕ

/-- `serde_json::to_string`. -/
def PersistedPending.json (p : PersistedPending) : Text :=
  Json.object ([("source_generation_hash", Json.str p.sourceGenerationHash),
      ("conversation_hash", Json.str p.conversationHash), ("model_hash", Json.str p.modelHash),
      ("correlation_id", Json.str p.correlationId)] ++
    Json.member "official_retry_identity" Json.str p.officialRetryIdentity ++
    [("inserted_at_unix_ms", Json.nat p.insertedAtUnixMs), ("sequence", Json.nat p.sequence)])

/-- `PersistedCompletedOfficialRetry`. -/
structure PersistedCompleted where
  /-- `source_generation_hash`. -/
  sourceGenerationHash : String
  /-- `conversation_hash`. -/
  conversationHash : String
  /-- `model_hash`. -/
  modelHash : String
  /-- `official_retry_identity`. -/
  officialRetryIdentity : String
  /-- `completed_at_unix_ms`. -/
  completedAtUnixMs : ℕ
  /-- `sequence`. -/
  sequence : ℕ

/-- `serde_json::to_string`. -/
def PersistedCompleted.json (c : PersistedCompleted) : Text :=
  Json.object [("source_generation_hash", Json.str c.sourceGenerationHash),
    ("conversation_hash", Json.str c.conversationHash), ("model_hash", Json.str c.modelHash),
    ("official_retry_identity", Json.str c.officialRetryIdentity),
    ("completed_at_unix_ms", Json.nat c.completedAtUnixMs), ("sequence", Json.nat c.sequence)]

/-- `PersistedOtlpRequestCorrelationState`, and `CodexCorrelationStateV1` of the store. -/
structure PersistedState where
  /-- `schema_version`. -/
  schemaVersion : String
  /-- `next_sequence`. -/
  nextSequence : ℕ
  /-- `pending`. -/
  pending : List PersistedPending
  /-- `recently_completed`. -/
  recentlyCompleted : List PersistedCompleted

/-- `serde_json::to_string`. -/
def PersistedState.json (p : PersistedState) : Text :=
  Json.object [("schema_version", Json.str p.schemaVersion), ("next_sequence", Json.nat p.nextSequence),
    ("pending", Json.array (p.pending.map PersistedPending.json)),
    ("recently_completed", Json.array (p.recentlyCompleted.map PersistedCompleted.json))]

/-- A text: its length, and what `serde_json` reads from it, unless it is malformed. -/
structure PersistedText where
  /-- `input.len()`. -/
  bytes : ℕ
  /-- `serde_json::from_str`. -/
  value : Option PersistedState

/-- What `serde_json` prints. -/
def PersistedState.printed (p : PersistedState) : PersistedText := ⟨byteLength p.json, some p⟩

/-- The schema version of a persisted correlation. -/
def correlationSchemaVersion : String := "codex_request_correlation.v1"

/-- An open request as it is persisted. -/
def PendingOtlpRequest.persisted (key : OtlpRequestPairKey) (request : PendingOtlpRequest) : PersistedPending where
  sourceGenerationHash := key.generation
  conversationHash := key.conversation
  modelHash := key.model
  correlationId := request.correlationId
  officialRetryIdentity := request.officialRetryIdentity
  insertedAtUnixMs := request.insertedAtUnixMs
  sequence := request.sequence

/-- A completed request as it is persisted. -/
def CompletedOfficialRetry.persisted (completed : CompletedOfficialRetry) : PersistedCompleted where
  sourceGenerationHash := completed.key.generation
  conversationHash := completed.key.conversation
  modelHash := completed.key.model
  officialRetryIdentity := completed.officialRetryIdentity
  completedAtUnixMs := completed.completedAtUnixMs
  sequence := completed.sequence

namespace CorrelationState

/-- What is persisted of a state. -/
def persisted (s : CorrelationState) : PersistedState where
  schemaVersion := correlationSchemaVersion
  nextSequence := s.nextSequence
  pending := s.pending.flat.map fun x => x.2.persisted x.1
  recentlyCompleted := s.recentlyCompleted.map CompletedOfficialRetry.persisted

/-- `to_persisted_json`. -/
def toPersistedJson (s : CorrelationState) : Except AdapterError PersistedText :=
  if maxPersistedOtlpCorrelationBytes < byteLength s.persisted.json then .error .handoffTooLarge
  else .ok s.persisted.printed

theorem toPersistedJson_eq_ok {s : CorrelationState} {text : PersistedText} :
    s.toPersistedJson = .ok text ↔
      byteLength s.persisted.json ≤ maxPersistedOtlpCorrelationBytes ∧ text = s.persisted.printed := by
  unfold toPersistedJson
  by_cases hlong : maxPersistedOtlpCorrelationBytes < byteLength s.persisted.json
  · rw [if_pos hlong]
    exact iff_of_false nofun fun h => Nat.not_lt.mpr h.1 hlong
  · rw [if_neg hlong, Except.ok.injEq]
    exact ⟨fun h => ⟨Nat.not_lt.mp hlong, h.symm⟩, fun h => h.2.symm⟩

end CorrelationState

/-- An open request is read back. -/
def restorePending (state : CorrelationState) (pending : PersistedPending) : Except AdapterError CorrelationState := do
  require (isPrivateHash pending.sourceGenerationHash ∧ isPrivateHash pending.conversationHash ∧
    isPrivateHash pending.modelHash ∧ isPrivateHash pending.correlationId ∧
    pending.officialRetryIdentity.all isPrivateHash ∧ pending.sequence < state.nextSequence) AdapterError.invalidSchema
  pure (state.push (pairKey pending.sourceGenerationHash pending.conversationHash pending.modelHash)
    { correlationId := pending.correlationId, officialRetryIdentity := pending.officialRetryIdentity
      insertedAtUnixMs := pending.insertedAtUnixMs, sequence := pending.sequence, currentRecordIndex := none })

/-- A completed request is read back. -/
def restoreCompleted (state : CorrelationState) (completed : PersistedCompleted) :
    Except AdapterError CorrelationState := do
  require (isPrivateHash completed.sourceGenerationHash ∧ isPrivateHash completed.conversationHash ∧
    isPrivateHash completed.modelHash ∧ isPrivateHash completed.officialRetryIdentity ∧
    completed.sequence < state.nextSequence) AdapterError.invalidSchema
  pure { state with
    recentlyCompleted := state.recentlyCompleted ++ [
      { key := pairKey completed.sourceGenerationHash completed.conversationHash completed.modelHash
        officialRetryIdentity := completed.officialRetryIdentity, completedAtUnixMs := completed.completedAtUnixMs
        sequence := completed.sequence }] }

/-- The bounds on the entries of a persisted state. -/
def PersistedState.bounded (p : PersistedState) : Bool :=
  p.schemaVersion = correlationSchemaVersion ∧ p.pending.length ≤ maxPendingOtlpRequests ∧
    p.recentlyCompleted.length ≤ maxRecentlyCompletedOtlpRequests ∧
    p.pending.length + p.recentlyCompleted.length ≤ maxPendingOtlpRequests

/-- `from_persisted_json`. -/
def fromPersistedJson (input : PersistedText) (nowUnixMs : ℕ) : Except AdapterError CorrelationState := do
  require (input.bytes ≤ maxPersistedOtlpCorrelationBytes) AdapterError.handoffTooLarge
  let persisted ← ofOption AdapterError.invalidJson input.value
  require persisted.bounded AdapterError.invalidSchema
  let state ← persisted.pending.foldlM restorePending { nextSequence := persisted.nextSequence }
  let state ← persisted.recentlyCompleted.foldlM restoreCompleted state
  pure (state.expire nowUnixMs)

section Store

variable [Sha2]

/-- `validate_codex_correlation_state` of the store. -/
def validateCodexCorrelationState (input : PersistedText) (sourceGeneration : String) :
    Except Store.StoreError Unit := do
  require (input.bytes ≤ maxPersistedOtlpCorrelationBytes) Store.StoreError.invalidObservation
  let state ← ofOption Store.StoreError.json input.value
  let expectedGeneration := hashOpaqueIdentifier sourceGeneration
  require (state.bounded ∧
    (state.pending.all fun pending =>
      pending.sourceGenerationHash = expectedGeneration ∧ isPrivateHash pending.conversationHash ∧
        isPrivateHash pending.modelHash ∧ isPrivateHash pending.correlationId ∧
        pending.officialRetryIdentity.all isPrivateHash ∧ pending.sequence < state.nextSequence ∧
        pending.insertedAtUnixMs ≠ 0) ∧
    (state.recentlyCompleted.all fun completed =>
      completed.sourceGenerationHash = expectedGeneration ∧ isPrivateHash completed.conversationHash ∧
        isPrivateHash completed.modelHash ∧ isPrivateHash completed.officialRetryIdentity ∧
        completed.sequence < state.nextSequence ∧ completed.completedAtUnixMs ≠ 0))
    Store.StoreError.invalidObservation

end Store

/-! ### Sizes -/

/-- The digits of a number. -/
def digits (n : ℕ) : ℕ := (toString n).utf8ByteSize

/-- The bytes of an open request. -/
def PendingOtlpRequest.persistedBytes (request : PendingOtlpRequest) : ℕ :=
  419 + (if request.officialRetryIdentity.isSome then 103 else 0) + digits request.insertedAtUnixMs +
    digits request.sequence

/-- The bytes of a completed request. -/
def CompletedOfficialRetry.persistedBytes (completed : CompletedOfficialRetry) : ℕ :=
  429 + digits completed.completedAtUnixMs + digits completed.sequence

/-- The bytes of a state: its entries, the commas between them and what is written once. -/
def CorrelationState.persistedBytes (s : CorrelationState) : ℕ :=
  103 + digits s.nextSequence + (s.pending.flat.map fun x => x.2.persistedBytes).sum + (s.pending.flat.length - 1) +
    (s.recentlyCompleted.map CompletedOfficialRetry.persistedBytes).sum + (s.recentlyCompleted.length - 1)

/-- Nothing in a private hash is escaped. -/
theorem escape_of_isPrivateHash {value : String} (h : isPrivateHash value = true) :
    ∀ c ∈ value.toList, escape c = [c] := by
  simp only [isPrivateHash, decide_eq_true_eq] at h
  obtain ⟨_, hprefix, hdigits⟩ := h
  intro c hc
  rw [← List.take_append_drop 10 value.toList, List.mem_append] at hc
  cases hc with
  | inl hmem =>
    obtain ⟨rest, hrest⟩ := hprefix
    have htake : value.toList.take 10 = privatePrefix.toList := by rw [← hrest]; rfl
    rw [htake] at hmem
    have hall : ∀ c ∈ privatePrefix.toList, escape c = [c] := by
      have hall : (privatePrefix.toList.all fun c => escape c = [c]) = true := by decide
      exact fun c hc => of_decide_eq_true (List.all_eq_true.mp hall c hc)
    exact hall c hmem
  | inr hmem =>
    have hdigit := List.all_eq_true.mp hdigits c hmem
    simp only [isAsciiHexdigit, decide_eq_true_eq] at hdigit
    have hrange : 48 ≤ c.toNat ∧ c.toNat ≠ 92 := by
      rcases hdigit with ⟨hl, hu⟩ | ⟨hl, hu⟩ | ⟨hl, hu⟩
      · exact ⟨hl, (lt_of_le_of_lt (b := 57) hu (by decide)).ne⟩
      · exact ⟨le_trans (b := 97) (by decide) hl, (lt_of_lt_of_le (b := 97) (by decide) hl).ne'⟩
      · exact ⟨le_trans (b := 65) (by decide) hl, (lt_of_le_of_lt (b := 70) hu (by decide)).ne⟩
    have hplain : ¬ (c = '"' ∨ c = '\\') := by
      rintro (rfl | rfl)
      · exact absurd hrange.1 (by decide)
      · exact hrange.2 rfl
    rw [escape, if_pos (le_trans (by decide) hrange.1), if_neg hplain]

theorem byteLength_str_of_isPrivateHash {value : String} (h : isPrivateHash value = true) :
    byteLength (Json.str value) = 76 := by
  rw [Json.byteLength_str (escape_of_isPrivateHash h)]
  simp only [isPrivateHash, decide_eq_true_eq] at h
  omega

theorem byteLength_nat (n : ℕ) : byteLength (Json.nat n) = digits n := rfl

/-! ### States whose entries are hashes -/

/-- What an open request looks like. -/
structure PendingOtlpRequest.Sound (generation : String) (nextSequence : ℕ) (key : OtlpRequestPairKey)
    (request : PendingOtlpRequest) : Prop where
  generation : key.generation = generation
  conversation : isPrivateHash key.conversation = true
  model : isPrivateHash key.model = true
  correlationId : isPrivateHash request.correlationId = true
  officialRetryIdentity : ∀ identity ∈ request.officialRetryIdentity, isPrivateHash identity = true
  insertedAtUnixMs : 0 < request.insertedAtUnixMs
  sequence : request.sequence < nextSequence

/-- What a completed request looks like. -/
structure CompletedOfficialRetry.Sound (generation : String) (nextSequence : ℕ) (completed : CompletedOfficialRetry) :
    Prop where
  generation : completed.key.generation = generation
  conversation : isPrivateHash completed.key.conversation = true
  model : isPrivateHash completed.key.model = true
  officialRetryIdentity : isPrivateHash completed.officialRetryIdentity = true
  completedAtUnixMs : 0 < completed.completedAtUnixMs
  sequence : completed.sequence < nextSequence

/-- What a state looks like: its entries are hashes of one generation, in sequence, and not too many. -/
structure CorrelationState.Sound (generation : String) (s : CorrelationState) : Prop where
  noEmpty : s.pending.NoEmpty
  pending : ∀ x ∈ s.pending.flat, x.2.Sound generation s.nextSequence x.1
  completed : ∀ completed ∈ s.recentlyCompleted, completed.Sound generation s.nextSequence
  size : s.size ≤ maxPendingOtlpRequests

/-- No request belongs to an export that is still being read. -/
def CorrelationState.Finished (s : CorrelationState) : Prop := ∀ x ∈ s.pending.flat, x.2.currentRecordIndex = none

variable {generation : String} {next : ℕ} {key : OtlpRequestPairKey} {s : CorrelationState}

theorem PendingOtlpRequest.Sound.byteLength_json {request : PendingOtlpRequest}
    (hg : isPrivateHash generation = true) (h : request.Sound generation next key) :
    byteLength (request.persisted key).json = request.persistedBytes := by
  have hkeys : ("source_generation_hash" : String).utf8ByteSize = 22 ∧ ("conversation_hash" : String).utf8ByteSize = 17 ∧
      ("model_hash" : String).utf8ByteSize = 10 ∧ ("correlation_id" : String).utf8ByteSize = 14 ∧
      ("official_retry_identity" : String).utf8ByteSize = 23 ∧ ("inserted_at_unix_ms" : String).utf8ByteSize = 19 ∧
      ("sequence" : String).utf8ByteSize = 8 := by decide
  have hgeneration : byteLength (Json.str key.generation) = 76 := byteLength_str_of_isPrivateHash (h.generation ▸ hg)
  have hconversation := byteLength_str_of_isPrivateHash h.conversation
  have hmodel := byteLength_str_of_isPrivateHash h.model
  have hcorrelation := byteLength_str_of_isPrivateHash h.correlationId
  rw [PersistedPending.json, Json.byteLength_object, PendingOtlpRequest.persistedBytes]
  cases hidentity : request.officialRetryIdentity with
  | none =>
    simp [PendingOtlpRequest.persisted, Json.member, hidentity, hgeneration, hconversation, hmodel, hcorrelation, hkeys,
      byteLength_nat]
    omega
  | some identity =>
    have hofficial := byteLength_str_of_isPrivateHash (h.officialRetryIdentity identity hidentity)
    simp [PendingOtlpRequest.persisted, Json.member, hidentity, hgeneration, hconversation, hmodel, hcorrelation,
      hofficial, hkeys, byteLength_nat]
    omega

theorem CompletedOfficialRetry.Sound.byteLength_json {completed : CompletedOfficialRetry}
    (hg : isPrivateHash generation = true) (h : completed.Sound generation next) :
    byteLength completed.persisted.json = completed.persistedBytes := by
  have hkeys : ("source_generation_hash" : String).utf8ByteSize = 22 ∧ ("conversation_hash" : String).utf8ByteSize = 17 ∧
      ("model_hash" : String).utf8ByteSize = 10 ∧ ("official_retry_identity" : String).utf8ByteSize = 23 ∧
      ("completed_at_unix_ms" : String).utf8ByteSize = 20 ∧ ("sequence" : String).utf8ByteSize = 8 := by decide
  have hgeneration : byteLength (Json.str completed.key.generation) = 76 :=
    byteLength_str_of_isPrivateHash (h.generation ▸ hg)
  have hconversation := byteLength_str_of_isPrivateHash h.conversation
  have hmodel := byteLength_str_of_isPrivateHash h.model
  have hofficial := byteLength_str_of_isPrivateHash h.officialRetryIdentity
  rw [PersistedCompleted.json, Json.byteLength_object, CompletedOfficialRetry.persistedBytes]
  simp [CompletedOfficialRetry.persisted, hgeneration, hconversation, hmodel, hofficial, hkeys, byteLength_nat]
  omega

/-- **How long the persisted state is.** -/
theorem CorrelationState.Sound.byteLength_json (hg : isPrivateHash generation = true) (h : s.Sound generation) :
    byteLength s.persisted.json = s.persistedBytes := by
  have hkeys : ("schema_version" : String).utf8ByteSize = 14 ∧ ("next_sequence" : String).utf8ByteSize = 13 ∧
      ("pending" : String).utf8ByteSize = 7 ∧ ("recently_completed" : String).utf8ByteSize = 18 := by decide
  have hschema : byteLength (Json.str correlationSchemaVersion) = 30 := by decide
  have hpending : (s.pending.flat.map fun x => byteLength (x.2.persisted x.1).json) =
      s.pending.flat.map fun x => x.2.persistedBytes :=
    List.map_congr_left fun x hx => (h.pending x hx).byteLength_json hg
  have hcompleted : (s.recentlyCompleted.map fun completed => byteLength completed.persisted.json) =
      s.recentlyCompleted.map CompletedOfficialRetry.persistedBytes :=
    List.map_congr_left fun completed hc => (h.completed completed hc).byteLength_json hg
  rw [PersistedState.json, Json.byteLength_object, CorrelationState.persistedBytes]
  simp only [CorrelationState.persisted, List.map_map, Function.comp_def, List.map_cons, List.map_nil, List.sum_cons,
    List.sum_nil, Json.byteLength_array, hkeys, hschema, byteLength_nat, List.length_map, List.length_cons,
    List.length_nil, hpending, hcompleted]
  omega

/-! ### The round trip -/

theorem CorrelationState.pendingLen_eq (s : CorrelationState) : s.pendingLen = s.pending.flat.length := by
  rw [pendingLen, OrderedMap.flat, List.length_flatMap]
  simp

theorem CorrelationState.enforceCapacity_of_le (h : s.size ≤ maxPendingOtlpRequests) : s.enforceCapacity = s := by
  unfold enforceCapacity
  cases s.size with
  | zero => rfl
  | succ rounds =>
    rw [enforceCapacityLoop, if_neg (Nat.not_lt.mpr h)]

/-- A request is pushed where there is room. -/
theorem CorrelationState.push_of_lt {request : PendingOtlpRequest} (h : s.size < maxPendingOtlpRequests) :
    s.push key request = { s with pending := s.pending.pushBack key request } := by
  refine enforceCapacity_of_le ?_
  have hlength : (s.pending.pushBack key request).flat.length = s.pending.flat.length + 1 :=
    OrderedMap.flat_pushBack_perm.length_eq
  unfold size at h ⊢
  rw [pendingLen_eq] at h ⊢
  simp only [hlength]
  omega

theorem restorePending_persisted {request : PendingOtlpRequest} (hg : isPrivateHash generation = true)
    (h : request.Sound generation s.nextSequence key) (hf : request.currentRecordIndex = none)
    (hsize : s.size < maxPendingOtlpRequests) :
    restorePending s (request.persisted key) = .ok { s with pending := s.pending.pushBack key request } := by
  have hgeneration : isPrivateHash key.generation = true := h.generation ▸ hg
  have hofficial : request.officialRetryIdentity.all isPrivateHash = true := by
    cases hidentity : request.officialRetryIdentity with
    | none => rfl
    | some identity => exact h.officialRetryIdentity identity hidentity
  have hcheck : isPrivateHash (request.persisted key).sourceGenerationHash = true ∧
      isPrivateHash (request.persisted key).conversationHash = true ∧
      isPrivateHash (request.persisted key).modelHash = true ∧ isPrivateHash (request.persisted key).correlationId = true ∧
      (request.persisted key).officialRetryIdentity.all isPrivateHash = true ∧
      (request.persisted key).sequence < s.nextSequence :=
    ⟨hgeneration, h.conversation, h.model, h.correlationId, hofficial, h.sequence⟩
  rw [restorePending, require_true hcheck, ok_bind]
  have hrequest : { request with currentRecordIndex := none } = request := by rw [← hf]
  refine Eq.trans ?_ (congrArg Except.ok (CorrelationState.push_of_lt hsize))
  exact congrArg (fun r => Except.ok (s.push key r)) hrequest

/-- Open requests are read back one after the other. -/
theorem foldlM_restorePending (hg : isPrivateHash generation = true) {requests : List (OtlpRequestPairKey × PendingOtlpRequest)} :
    ∀ {s : CorrelationState}, (∀ x ∈ requests, x.2.Sound generation s.nextSequence x.1) →
      (∀ x ∈ requests, x.2.currentRecordIndex = none) → s.size + requests.length ≤ maxPendingOtlpRequests →
      (requests.map fun x => x.2.persisted x.1).foldlM restorePending s =
        .ok { s with pending := s.pending.pushAll requests } := by
  induction requests with
  | nil => exact fun _ _ _ => rfl
  | cons x requests ih =>
    intro s hsound hfinished hsize
    rw [List.length_cons] at hsize
    have hlt : s.size < maxPendingOtlpRequests := by omega
    rw [List.map_cons, List.foldlM_cons, restorePending_persisted hg (hsound x List.mem_cons_self)
      (hfinished x List.mem_cons_self) hlt, ok_bind, ih]
    · rfl
    · exact fun y hy => hsound y (List.mem_cons_of_mem _ hy)
    · exact fun y hy => hfinished y (List.mem_cons_of_mem _ hy)
    · have hlength : (s.pending.pushBack x.1 x.2).flat.length = s.pending.flat.length + 1 :=
        OrderedMap.flat_pushBack_perm.length_eq
      unfold CorrelationState.size at hsize ⊢
      rw [CorrelationState.pendingLen_eq] at hsize ⊢
      simp only [hlength]
      omega

/-- Completed requests are read back one after the other. -/
theorem foldlM_restoreCompleted (hg : isPrivateHash generation = true) {completions : List CompletedOfficialRetry} :
    ∀ {s : CorrelationState}, (∀ completed ∈ completions, completed.Sound generation s.nextSequence) →
      (completions.map CompletedOfficialRetry.persisted).foldlM restoreCompleted s =
        .ok { s with recentlyCompleted := s.recentlyCompleted ++ completions } := by
  induction completions with
  | nil =>
    intro s _
    rw [List.append_nil]
    rfl
  | cons completed completions ih =>
    intro s hsound
    have h := hsound completed List.mem_cons_self
    have hgeneration : isPrivateHash completed.key.generation = true := h.generation ▸ hg
    have hcheck : isPrivateHash completed.persisted.sourceGenerationHash = true ∧
        isPrivateHash completed.persisted.conversationHash = true ∧
        isPrivateHash completed.persisted.modelHash = true ∧
        isPrivateHash completed.persisted.officialRetryIdentity = true ∧ completed.persisted.sequence < s.nextSequence :=
      ⟨hgeneration, h.conversation, h.model, h.officialRetryIdentity, h.sequence⟩
    have hrestore : restoreCompleted s completed.persisted =
        .ok { s with recentlyCompleted := s.recentlyCompleted ++ [completed] } := by
      rw [restoreCompleted, require_true hcheck, ok_bind]
      rfl
    rw [List.map_cons, List.foldlM_cons, hrestore, ok_bind]
    refine (ih (s := { s with recentlyCompleted := s.recentlyCompleted ++ [completed] }) fun c hc =>
      hsound c (List.mem_cons_of_mem _ hc)).trans ?_
    simp only [List.append_assoc, List.singleton_append]

theorem CorrelationState.Sound.bounded (h : s.Sound generation) : s.persisted.bounded = true := by
  have hsize := h.size
  unfold CorrelationState.size at hsize
  rw [CorrelationState.pendingLen_eq] at hsize
  simp only [PersistedState.bounded, CorrelationState.persisted, List.length_map, maxPendingOtlpRequests,
    maxRecentlyCompletedOtlpRequests, decide_eq_true_eq] at hsize ⊢
  refine ⟨trivial, ?_, ?_, hsize⟩ <;> omega

/-- **What is persisted is read back**, without the entries that have expired. -/
theorem CorrelationState.Sound.fromPersistedJson (hg : isPrivateHash generation = true) (h : s.Sound generation)
    (hf : s.Finished) (hbytes : byteLength s.persisted.json ≤ maxPersistedOtlpCorrelationBytes) (nowUnixMs : ℕ) :
    Codex.fromPersistedJson s.persisted.printed nowUnixMs = .ok (s.expire nowUnixMs) := by
  have hsize := h.size
  unfold CorrelationState.size at hsize
  rw [CorrelationState.pendingLen_eq] at hsize
  have hrequests := foldlM_restorePending (s := { nextSequence := s.nextSequence }) hg h.pending hf
    (by simp only [CorrelationState.size, CorrelationState.pendingLen_eq, OrderedMap.flat_empty, List.length_nil]; omega)
  have hcompletions := foldlM_restoreCompleted (s := { nextSequence := s.nextSequence, pending := s.pending }) hg h.completed
  simp only [OrderedMap.pushAll_flat h.noEmpty] at hrequests
  have hprinted : s.persisted.printed.bytes ≤ maxPersistedOtlpCorrelationBytes := hbytes
  rw [Codex.fromPersistedJson, require_true hprinted, ok_bind]
  simp only [PersistedState.printed, ofOption, ok_bind, h.bounded, require_true]
  simp only [CorrelationState.persisted]
  rw [hrequests, ok_bind, hcompletions, ok_bind]
  rfl

section Store

variable [Sha2]

/-- **The store accepts what is persisted.** -/
theorem CorrelationState.Sound.validate {sourceGeneration : String} (h : s.Sound (hashOpaqueIdentifier sourceGeneration))
    (hbytes : byteLength s.persisted.json ≤ maxPersistedOtlpCorrelationBytes) :
    validateCodexCorrelationState s.persisted.printed sourceGeneration = .ok () := by
  have hpending : ∀ x ∈ s.pending.flat, x.1.generation = hashOpaqueIdentifier sourceGeneration ∧
      isPrivateHash x.1.conversation = true ∧ isPrivateHash x.1.model = true ∧ isPrivateHash x.2.correlationId = true ∧
      x.2.officialRetryIdentity.all isPrivateHash = true ∧ x.2.sequence < s.nextSequence ∧ x.2.insertedAtUnixMs ≠ 0 := by
    intro x hx
    obtain ⟨hgen, hconv, hmodel, hcorr, hofficial, hinserted, hseq⟩ := h.pending x hx
    refine ⟨hgen, hconv, hmodel, hcorr, ?_, hseq, hinserted.ne'⟩
    cases hidentity : x.2.officialRetryIdentity with
    | none => rfl
    | some identity => exact hofficial identity hidentity
  have hcompleted : ∀ completed ∈ s.recentlyCompleted,
      completed.key.generation = hashOpaqueIdentifier sourceGeneration ∧
      isPrivateHash completed.key.conversation = true ∧ isPrivateHash completed.key.model = true ∧
      isPrivateHash completed.officialRetryIdentity = true ∧ completed.sequence < s.nextSequence ∧
      completed.completedAtUnixMs ≠ 0 := by
    intro completed hc
    obtain ⟨hgen, hconv, hmodel, hofficial, hat, hseq⟩ := h.completed completed hc
    exact ⟨hgen, hconv, hmodel, hofficial, hseq, hat.ne'⟩
  have hprinted : s.persisted.printed.bytes ≤ maxPersistedOtlpCorrelationBytes := hbytes
  rw [validateCodexCorrelationState, require_true hprinted, ok_bind]
  simp only [PersistedState.printed, ofOption, ok_bind]
  refine require_true ⟨h.bounded, ?_, ?_⟩
  · rw [List.all_eq_true]
    intro p hp
    obtain ⟨x, hx, rfl⟩ := List.mem_map.mp hp
    exact decide_eq_true (hpending x hx)
  · rw [List.all_eq_true]
    intro c hc
    obtain ⟨completed, hmem, rfl⟩ := List.mem_map.mp hc
    exact decide_eq_true (hcompleted completed hmem)

end Store

end AgentObservability.Codex
