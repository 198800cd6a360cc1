import AgentObservability.Codex.Otlp
import AgentObservability.Codex.Persisted

/-!
# What exports make of the correlation

A run of exports of one source generation, from the empty correlation. Its entries stay
hashes in sequence (`Sound`) as long as no identifier of a start has the prefix of a
hash without being one and the sequence is not used up; then the correlation can be
persisted exactly if it is short enough (`exported_persists`).
-/

namespace AgentObservability.Codex

open Domain Contracts Foundation Foundation.Json

variable {generation : String} {s : CorrelationState} {key : OtlpRequestPairKey}

namespace CorrelationState

/-! ### Eviction -/

/-- What an eviction leaves: fewer entries by one. -/
structure Evicted (s t : CorrelationState) : Prop where
  noEmpty : t.pending.NoEmpty
  pending : ∀ x ∈ t.pending.flat, x ∈ s.pending.flat
  completed : ∀ completed ∈ t.recentlyCompleted, completed ∈ s.recentlyCompleted
  size : t.size + 1 = s.size
  nextSequence : t.nextSequence = s.nextSequence

theorem evicted_completed (h : s.pending.NoEmpty) {index : ℕ} (hi : index < s.recentlyCompleted.length) :
    Evicted s { s with recentlyCompleted := s.recentlyCompleted.eraseIdx index } where
  noEmpty := h
  pending _ hx := hx
  completed _ hc := List.mem_of_mem_eraseIdx hc
  size := by
    simp only [size, pendingLen, List.length_eraseIdx_of_lt hi]
    omega
  nextSequence := rfl

theorem evicted_pending (h : s.pending.NoEmpty) {request : PendingOtlpRequest}
    (hpop : (s.pending.popFront key).1 = some request) : Evicted s { s with pending := (s.pending.popFront key).2 } where
  noEmpty := h.popFront
  pending _ hx := (OrderedMap.flat_popFront_perm hpop).mem_iff.mpr (List.mem_cons_of_mem _ hx)
  completed _ hc := hc
  size := by
    have hlength := (OrderedMap.flat_popFront_perm hpop).length_eq
    simp only [size, pendingLen_eq, hlength, List.length_cons]
    omega
  nextSequence := rfl

/-- The front of a queue can be popped. -/
theorem popFront_of_mem_fronts {front : Lex (ℕ × OtlpRequestPairKey)} (h : front ∈ s.fronts) :
    ∃ request, (s.pending.popFront (ofLex front).2).1 = some request := by
  obtain ⟨e, he, hmap⟩ := List.mem_filterMap.mp h
  obtain ⟨request, hhead, rfl⟩ := Option.map_eq_some_iff.mp hmap
  refine ⟨request, ?_⟩
  have hqueue : s.pending.queue e.1 = e.2 := by
    rw [OrderedMap.queue, OrderedMap.get?_eq_some.mpr he]
    rfl
  show (s.pending.queue e.1).head? = some request
  rw [hqueue]
  exact hhead

/-- **An eviction takes one entry, if there is any.** -/
theorem evicted_evictOldest (h : s.pending.NoEmpty) (hpos : 0 < s.size) : Evicted s s.evictOldest := by
  have hfront : ∀ front ∈ s.fronts.argmin id, Evicted s { s with pending := (s.pending.popFront (ofLex front).2).2 } := by
    intro front hfront
    obtain ⟨request, hpop⟩ := popFront_of_mem_fronts (List.argmin_mem hfront)
    exact evicted_pending h hpop
  have hindex : ∀ completed ∈ s.recentlyCompleted.zipIdx.argmin (·.1.sequence),
      Evicted s { s with recentlyCompleted := s.recentlyCompleted.eraseIdx completed.2 } := by
    intro completed hc
    have hlt := List.snd_lt_of_mem_zipIdx (List.argmin_mem hc)
    exact evicted_completed h (by omega)
  unfold evictOldest
  simp only
  cases hc : s.recentlyCompleted.zipIdx.argmin (·.1.sequence) with
  | some completed =>
    cases hp : s.fronts.argmin id with
    | none => exact hindex completed hc
    | some front =>
      simp only
      split
      · exact hindex completed hc
      · exact hfront front hp
  | none =>
    cases hp : s.fronts.argmin id with
    | some front => exact hfront front hp
    | none =>
      -- Nothing is completed, and every queue has a front.
      exfalso
      have hcompleted : s.recentlyCompleted = [] := by simpa using List.argmin_eq_none.mp hc
      have hfronts : s.fronts = [] := List.argmin_eq_none.mp hp
      have hpending : s.pending.flat ≠ [] := by
        intro hnil
        simp [size, pendingLen_eq, hnil, hcompleted] at hpos
      obtain ⟨x, hx⟩ := List.exists_mem_of_ne_nil _ hpending
      obtain ⟨e, he, hmem⟩ := List.mem_flatMap.mp hx
      obtain ⟨request, hrequest, _⟩ := List.mem_map.mp hmem
      cases hq : e.2 with
      | nil => simp [hq] at hrequest
      | cons first rest =>
        have hmem : toLex (first.sequence, e.1) ∈ s.fronts :=
          List.mem_filterMap.mpr ⟨e, he, by rw [hq]; rfl⟩
        rw [hfronts] at hmem
        exact List.not_mem_nil hmem

/-! ### Sound states -/

/-- What a state looks like, whatever the number of its entries. -/
structure Entries (generation : String) (s : CorrelationState) : Prop where
  noEmpty : s.pending.NoEmpty
  pending : ∀ x ∈ s.pending.flat, x.2.Sound generation s.nextSequence x.1
  completed : ∀ completed ∈ s.recentlyCompleted, completed.Sound generation s.nextSequence

theorem Sound.entries (h : s.Sound generation) : s.Entries generation := ⟨h.noEmpty, h.pending, h.completed⟩

theorem Entries.evicted {t : CorrelationState} (h : s.Entries generation) (ht : Evicted s t) : t.Entries generation where
  noEmpty := ht.noEmpty
  pending x hx := ht.nextSequence ▸ h.pending x (ht.pending x hx)
  completed c hc := ht.nextSequence ▸ h.completed c (ht.completed c hc)

/-- The rounds of the loop leave as many entries as are admitted. -/
theorem sound_enforceCapacityLoop {rounds : ℕ} :
    ∀ {s : CorrelationState}, s.Entries generation → s.size ≤ maxPendingOtlpRequests + rounds →
      (enforceCapacityLoop rounds s).Sound generation ∧ (enforceCapacityLoop rounds s).nextSequence = s.nextSequence := by
  induction rounds with
  | zero => exact fun h hsize => ⟨⟨h.noEmpty, h.pending, h.completed, hsize⟩, rfl⟩
  | succ rounds ih =>
    intro s h hsize
    rw [enforceCapacityLoop]
    split
    · rename_i hlt
      have hevicted := evicted_evictOldest h.noEmpty (Nat.zero_lt_of_lt hlt)
      have hless := hevicted.size
      obtain ⟨hsound, hnext⟩ := ih (h.evicted hevicted) (by omega)
      exact ⟨hsound, hnext.trans hevicted.nextSequence⟩
    · rename_i hle
      exact ⟨⟨h.noEmpty, h.pending, h.completed, Nat.not_lt.mp hle⟩, rfl⟩

theorem sound_enforceCapacity (h : s.Entries generation) :
    s.enforceCapacity.Sound generation ∧ s.enforceCapacity.nextSequence = s.nextSequence :=
  sound_enforceCapacityLoop h (Nat.le_add_left _ _)

/-- A request is pushed. -/
theorem sound_push (h : s.Entries generation) {request : PendingOtlpRequest}
    (hr : request.Sound generation s.nextSequence key) :
    (s.push key request).Sound generation ∧ (s.push key request).nextSequence = s.nextSequence := by
  refine sound_enforceCapacity ⟨h.noEmpty.pushBack, fun x hx => ?_, h.completed⟩
  cases List.mem_cons.mp (OrderedMap.flat_pushBack_perm.mem_iff.mp hx) with
  | inl heq =>
    rw [heq]
    exact hr
  | inr hmem => exact h.pending x hmem

/-- A completed request is remembered. -/
theorem sound_pushCompleted (h : s.Entries generation) {completed : CompletedOfficialRetry}
    (hc : completed.Sound generation s.nextSequence) :
    (s.pushCompleted completed).Sound generation ∧ (s.pushCompleted completed).nextSequence = s.nextSequence := by
  refine sound_enforceCapacity ⟨h.noEmpty, h.pending, fun c hmem => ?_⟩
  cases List.mem_append.mp hmem with
  | inl hold => exact h.completed c hold
  | inr hnew =>
    rw [List.mem_singleton.mp hnew]
    exact hc

/-- The next sequence is taken. -/
theorem takeSequence_of_lt (h : s.nextSequence + 1 < 2 ^ 64) :
    s.takeSequence = (s.nextSequence, { s with nextSequence := s.nextSequence + 1 }) := by
  rw [takeSequence, if_pos h]

theorem Entries.takeSequence (h : s.Entries generation) :
    Entries generation { s with nextSequence := s.nextSequence + 1 } where
  noEmpty := h.noEmpty
  pending x hx := { h.pending x hx with sequence := Nat.lt_succ_of_lt (h.pending x hx).sequence }
  completed c hc := { h.completed c hc with sequence := Nat.lt_succ_of_lt (h.completed c hc).sequence }

/-- The entries that have not expired. -/
theorem sound_expire (h : s.Sound generation) (nowUnixMs : ℕ) : (s.expire nowUnixMs).Sound generation where
  noEmpty := OrderedMap.noEmpty_retain
  pending x hx := by
    rw [expire, OrderedMap.flat_retain] at hx
    exact h.pending x (List.mem_of_mem_filter hx)
  completed c hc := h.completed c (List.mem_of_mem_filter hc)
  size := by
    have hsize := h.size
    unfold size at hsize ⊢
    rw [pendingLen_eq] at hsize ⊢
    simp only [expire, OrderedMap.flat_retain]
    have hpending := List.length_filter_le (fun x => fresh nowUnixMs x.2.insertedAtUnixMs) s.pending.flat
    have hcompleted := List.length_filter_le (fun c => fresh nowUnixMs c.completedAtUnixMs) s.recentlyCompleted
    omega

/-- The batch is finished: the requests stay, and none belongs to the export any more. -/
theorem flat_finishBatch (s : CorrelationState) : s.finishBatch.pending.flat =
    s.pending.flat.map fun x => (x.1, { x.2 with currentRecordIndex := none }) := by
  have hleft : ∀ queue : List PendingOtlpRequest, (if queue.isEmpty then none
      else some (queue.map fun pending => { pending with currentRecordIndex := none })).getD [] =
      queue.map fun pending => { pending with currentRecordIndex := none } := by
    intro queue
    cases queue with
    | nil | cons => rfl
  rw [finishBatch, OrderedMap.flat_filterMap hleft, OrderedMap.flat, List.map_flatMap]
  refine List.flatMap_congr fun e _ => ?_
  rw [List.map_map, List.map_map]
  rfl

theorem noEmpty_finishBatch : s.finishBatch.pending.NoEmpty := by
  intro key hkey
  rw [finishBatch, OrderedMap.get?_filterMap] at hkey
  obtain ⟨queue, _, hqueue⟩ := Option.bind_eq_some_iff.mp hkey
  cases queue with
  | nil => simp at hqueue
  | cons => simp at hqueue

theorem sound_finishBatch (h : s.Sound generation) : s.finishBatch.Sound generation ∧ s.finishBatch.Finished := by
  have hflat := flat_finishBatch s
  refine ⟨⟨noEmpty_finishBatch, fun x hx => ?_, h.completed, ?_⟩, fun x hx => ?_⟩
  · rw [hflat] at hx
    obtain ⟨y, hy, rfl⟩ := List.mem_map.mp hx
    obtain ⟨hgen, hconv, hmodel, hcorr, hofficial, hinserted, hseq⟩ := h.pending y hy
    exact ⟨hgen, hconv, hmodel, hcorr, hofficial, hinserted, hseq⟩
  · have hsize := h.size
    unfold size at hsize ⊢
    rw [pendingLen_eq] at hsize ⊢
    rw [hflat, List.length_map]
    exact hsize
  · rw [hflat] at hx
    obtain ⟨y, _, rfl⟩ := List.mem_map.mp hx
    rfl

end CorrelationState

section Exports

variable [Sha2]

/-! ### Records -/

/-- The identifier is hashed, or is a hash already: it does not only have the prefix of one. -/
def Hashable (value : String) : Prop := IsPrivate value → isPrivateHash value = true

instance : DecidablePred Hashable := fun _ => inferInstanceAs (Decidable (_ → _))

/-- The identifiers of a start of a request. -/
def HandoffRecord.startIdentifiers (r : HandoffRecord) : List String :=
  if r.isRequestStart then
    ["conversation_id", "model", "request_id"].filterMap fun key => (r.attributes.get? key).bind Value.asStr
  else []

omit [Sha2] in
theorem isPrivateHash_of_isDigest {digits : String} (h : IsDigest digits) :
    isPrivateHash (privatePrefix ++ digits) = true := by
  have hdigit : ∀ c ∈ "0123456789abcdef".toList, isAsciiHexdigit c = true ∧ c.utf8Size = 1 := by
    have hall : ("0123456789abcdef".toList.all fun c => isAsciiHexdigit c && c.utf8Size = 1) = true := by decide
    simpa using hall
  have hbytes : digits.utf8ByteSize = 64 := by
    rw [← String.ofList_toList (s := digits), utf8ByteSize_of_ascii fun c hc => (hdigit c (h.2 c hc)).2]
    exact h.1
  have hprefix : privatePrefix.utf8ByteSize = 10 := by decide
  simp only [isPrivateHash, decide_eq_true_eq, String.utf8ByteSize_append, hbytes, hprefix, String.toList_append,
    List.all_eq_true]
  refine ⟨trivial, ?_, fun c hc => ?_⟩
  · simp [IsPrivate, String.toList_append]
  · rw [List.drop_left' (by decide)] at hc
    exact (hdigit c (h.2 c hc)).1

/-- What the hash of an identifier looks like. -/
theorem isPrivateHash_hashOpaqueIdentifier [HexDigest] {value : String} :
    isPrivateHash (hashOpaqueIdentifier value) = true ↔ Hashable value := by
  unfold hashOpaqueIdentifier Hashable
  by_cases hp : IsPrivate value
  · simp only [hp, if_true, forall_const]
  · simp only [hp, if_false]
    exact iff_of_true (isPrivateHash_of_isDigest (HexDigest.isDigest _)) nofun

theorem isPrivateHash_stableId [HexDigest] (components : List String) :
    isPrivateHash (stableId "id:sha256" components) = true :=
  isPrivateHash_of_isDigest (HexDigest.isDigest _)

omit [Sha2] in
theorem hashable_of_mem {r : HandoffRecord} (h : ∀ identifier ∈ r.startIdentifiers, Hashable identifier)
    (hstart : r.isRequestStart = true) {name value : String} (hname : name ∈ ["conversation_id", "model", "request_id"])
    (hvalue : optionalString r.attributes name = .ok (some value)) : Hashable value := by
  refine h value ?_
  rw [HandoffRecord.startIdentifiers, if_pos hstart]
  refine List.mem_filterMap.mpr ⟨name, hname, ?_⟩
  unfold optionalString at hvalue
  cases hg : r.attributes.get? name with
  | none => simp [hg] at hvalue
  | some v =>
    cases v with
    | string text =>
      simp only [hg] at hvalue
      split at hvalue
      · cases hvalue
      · cases hvalue
        rfl
    | _ => simp [hg] at hvalue

variable [HexDigest] {sourceGeneration conversationId model : String} {nowUnixMs index : ℕ} {record : HandoffRecord}
  {pairing : Pairing} {t : CorrelationState}

/-- A start of a request keeps the state sound. -/
theorem sound_pairStart (h : s.Sound (hashOpaqueIdentifier sourceGeneration)) (hnow : 0 < nowUnixMs)
    (hseq : s.nextSequence + 1 < 2 ^ 64) (hstart : record.isRequestStart = true)
    (hids : ∀ identifier ∈ record.startIdentifiers, Hashable identifier)
    (hkey : otlpRequestPairKey record.attributes = .ok (some (conversationId, model)))
    (hpair : pairStart sourceGeneration nowUnixMs index record conversationId model s = .ok (pairing, t)) :
    t.Sound (hashOpaqueIdentifier sourceGeneration) ∧ t.nextSequence ≤ s.nextSequence + 1 := by
  obtain ⟨conversation, hconversation, hkey⟩ := bind_eq_ok.mp hkey
  obtain ⟨modelName, hmodel, hkey⟩ := bind_eq_ok.mp hkey
  obtain ⟨rfl, rfl⟩ : conversation = some conversationId ∧ modelName = some model := by
    cases conversation with
    | none => simp at hkey
    | some c =>
      cases modelName with
      | none => simp at hkey
      | some m => simpa using hkey
  obtain ⟨requestId, hrequest, hpair⟩ := bind_eq_ok.mp hpair
  obtain ⟨success, _, hpair⟩ := bind_eq_ok.mp hpair
  have hofficial : ∀ identity ∈ requestId.map hashOpaqueIdentifier, isPrivateHash identity = true := by
    intro identity hidentity
    obtain ⟨id, rfl, rfl⟩ := Option.map_eq_some_iff.mp hidentity
    exact isPrivateHash_hashOpaqueIdentifier.mpr (hashable_of_mem hids hstart (by decide) hrequest)
  split at hpair
  · cases hpair
    exact ⟨h, Nat.le_succ _⟩
  · split at hpair
    · cases hpair
      exact ⟨h, Nat.le_succ _⟩
    · rw [CorrelationState.takeSequence_of_lt hseq] at hpair
      cases hpair
      have hcorrelation : isPrivateHash ((requestId.map hashOpaqueIdentifier).getD (stableId "id:sha256"
          ["codex-local-request-v1", sourceGeneration, conversationId, model, record.cursor])) = true := by
        cases requestId with
        | none => exact isPrivateHash_stableId _
        | some id => exact hofficial _ rfl
      have hconv := isPrivateHash_hashOpaqueIdentifier.mpr (hashable_of_mem hids hstart (by decide) hconversation)
      have hmod := isPrivateHash_hashOpaqueIdentifier.mpr (hashable_of_mem hids hstart (by decide) hmodel)
      have hsound : PendingOtlpRequest.Sound (hashOpaqueIdentifier sourceGeneration) (s.nextSequence + 1)
          (pairKey (hashOpaqueIdentifier sourceGeneration) (hashOpaqueIdentifier conversationId)
            (hashOpaqueIdentifier model)) ⟨_, _, nowUnixMs, s.nextSequence, some index⟩ :=
        ⟨rfl, hconv, hmod, hcorrelation, hofficial, hnow, Nat.lt_succ_self _⟩
      have hpushed := CorrelationState.sound_push h.entries.takeSequence hsound
      exact ⟨hpushed.1, hpushed.2.le⟩

omit [HexDigest] in
/-- A completion of a response keeps the state sound. -/
theorem sound_pairCompletion (h : s.Sound (hashOpaqueIdentifier sourceGeneration)) (hnow : 0 < nowUnixMs)
    (hseq : s.nextSequence + 1 < 2 ^ 64)
    (hpair : pairCompletion sourceGeneration nowUnixMs record conversationId model s = .ok (pairing, t)) :
    t.Sound (hashOpaqueIdentifier sourceGeneration) ∧ t.nextSequence ≤ s.nextSequence + 1 := by
  unfold pairCompletion at hpair
  simp only at hpair
  set key := pairKey (hashOpaqueIdentifier sourceGeneration) (hashOpaqueIdentifier conversationId)
    (hashOpaqueIdentifier model)
  cases hpop : (s.pending.popFront key).1 with
  | none =>
    rw [hpop] at hpair
    cases hpair
    rw [OrderedMap.popFront_none h.noEmpty hpop]
    exact ⟨h, Nat.le_succ _⟩
  | some request =>
    rw [hpop] at hpair
    obtain ⟨completed, _, hpair⟩ := bind_eq_ok.mp hpair
    cases hpair
    have hperm := OrderedMap.flat_popFront_perm hpop
    have hrequest : request.Sound (hashOpaqueIdentifier sourceGeneration) s.nextSequence key :=
      h.pending (key, request) (hperm.mem_iff.mpr List.mem_cons_self)
    have hpopped : CorrelationState.Sound (hashOpaqueIdentifier sourceGeneration)
        { s with pending := (s.pending.popFront key).2 } :=
      ⟨h.noEmpty.popFront, fun x hx => h.pending x (hperm.mem_iff.mpr (List.mem_cons_of_mem _ hx)), h.completed,
        (CorrelationState.evicted_pending h.noEmpty hpop).size ▸ h.size |>.trans' (Nat.le_succ _)⟩
    cases hofficial : request.officialRetryIdentity with
    | none => exact ⟨hpopped, Nat.le_succ _⟩
    | some identity =>
      have hsound : CompletedOfficialRetry.Sound (hashOpaqueIdentifier sourceGeneration) (s.nextSequence + 1)
          ⟨key, identity, nowUnixMs, s.nextSequence⟩ :=
        ⟨rfl, hrequest.conversation, hrequest.model, hrequest.officialRetryIdentity identity hofficial, hnow,
          Nat.lt_succ_self _⟩
      have hremembered := CorrelationState.sound_pushCompleted hpopped.entries.takeSequence hsound
      simp only [CorrelationState.rememberCompletedOfficialRetry]
      rw [CorrelationState.takeSequence_of_lt (s := { s with pending := (s.pending.popFront key).2 }) hseq]
      exact ⟨hremembered.1, hremembered.2.le⟩

/-- A record keeps the state sound. -/
theorem sound_pairRecord (h : s.Sound (hashOpaqueIdentifier sourceGeneration)) (hnow : 0 < nowUnixMs)
    (hseq : s.nextSequence + 1 < 2 ^ 64) (hids : ∀ identifier ∈ record.startIdentifiers, Hashable identifier)
    (hpair : pairRecord sourceGeneration nowUnixMs index record s = .ok (pairing, t)) :
    t.Sound (hashOpaqueIdentifier sourceGeneration) ∧ t.nextSequence ≤ s.nextSequence + 1 := by
  obtain ⟨isCompleted, _, hpair⟩ := bind_eq_ok.mp hpair
  split at hpair
  · cases hpair
    exact ⟨h, Nat.le_succ _⟩
  · obtain ⟨pairKey?, hkey, hpair⟩ := bind_eq_ok.mp hpair
    cases pairKey? with
    | none =>
      cases hpair
      exact ⟨h, Nat.le_succ _⟩
    | some names =>
      obtain ⟨conversationId, model⟩ := names
      simp only at hpair
      split at hpair
      · rename_i hstart
        exact sound_pairStart h hnow hseq hstart hids hkey hpair
      · exact sound_pairCompletion h hnow hseq hpair

/-- The records of an export keep the state sound. -/
theorem sound_correlateFrom (hnow : 0 < nowUnixMs) {records : List HandoffRecord} :
    ∀ {visited written : List HandoffRecord} {s t : CorrelationState},
      s.Sound (hashOpaqueIdentifier sourceGeneration) → s.nextSequence + records.length < 2 ^ 64 →
      (∀ r ∈ records, ∀ identifier ∈ r.startIdentifiers, Hashable identifier) →
      correlateFrom sourceGeneration nowUnixMs visited records s = .ok (written, t) →
      t.Sound (hashOpaqueIdentifier sourceGeneration) := by
  induction records with
  | nil =>
    intro visited written s t h _ _ hcorrelate
    cases hcorrelate
    exact h
  | cons record records ih =>
    intro visited written s t h hseq hids hcorrelate
    rw [List.length_cons] at hseq
    obtain ⟨⟨pairing, next⟩, hpair, hcorrelate⟩ := bind_eq_ok.mp hcorrelate
    obtain ⟨hnext, hle⟩ := sound_pairRecord h hnow (by omega) (hids record List.mem_cons_self) hpair
    exact ih hnext (by omega) (fun r hr => hids r (List.mem_cons_of_mem _ hr)) hcorrelate

/-! ### Runs -/

omit [HexDigest] in
/-- What an export must not have: an identifier of a start that only has the prefix of a hash, or a sequence that is
used up. -/
def Admissible (sourceGeneration : String) (previousCursor : Option String) (firstCursor nowUnixMs : ℕ) (input : OtlpBody)
    (s : CorrelationState) : Prop :=
  ∀ root reader, input.root = some root →
    readExport root sourceGeneration previousCursor firstCursor nowUnixMs = .ok reader →
    s.nextSequence + reader.records.length < 2 ^ 64 ∧
      ∀ r ∈ reader.records, ∀ identifier ∈ r.startIdentifiers, Hashable identifier

omit [HexDigest] in
/-- What makes an export of a run one that is looked at. -/
abbrev ExportCondition := Option String → ℕ → ℕ → OtlpBody → CorrelationState → Prop

variable (sourceGeneration) in
/-- The states that exports of the source generation come to, if all of them meet the condition. -/
inductive Exported (condition : ExportCondition) : CorrelationState → Prop
  /-- Nothing was exported. -/
  | empty : Exported condition {}
  /-- One more export is accepted. -/
  | accepted {s t : CorrelationState} {input : OtlpBody} {previousCursor lastCursor : Option String}
      {firstCursor nowUnixMs : ℕ} {batch : AdapterBatch} : Exported condition s → 0 < nowUnixMs →
      condition previousCursor firstCursor nowUnixMs input s →
      parseOtlpHttpJsonWithState input sourceGeneration previousCursor firstCursor nowUnixMs s =
        .ok (batch, lastCursor, t) → Exported condition t

theorem sound_exported (h : Exported sourceGeneration (Admissible sourceGeneration) s) :
    s.Sound (hashOpaqueIdentifier sourceGeneration) ∧ s.Finished := by
  induction h with
  | empty => exact ⟨⟨OrderedMap.noEmpty_empty, nofun, nofun, Nat.zero_le _⟩, nofun⟩
  | @accepted s t input previousCursor lastCursor firstCursor nowUnixMs batch _ hnow hadmissible hparse ih =>
    obtain ⟨_, _, hparse⟩ := bind_eq_ok.mp hparse
    obtain ⟨_, _, hparse⟩ := bind_eq_ok.mp hparse
    obtain ⟨root, hroot, hparse⟩ := bind_eq_ok.mp hparse
    obtain ⟨reader, hread, hparse⟩ := bind_eq_ok.mp hparse
    obtain ⟨⟨records, next⟩, hcorrelate, hparse⟩ := bind_eq_ok.mp hparse
    obtain ⟨_, _, hparse⟩ := bind_eq_ok.mp hparse
    obtain ⟨⟨written, correlated⟩, hloop, hcorrelate⟩ := bind_eq_ok.mp hcorrelate
    cases hcorrelate
    cases hparse
    obtain ⟨hseq, hids⟩ := hadmissible root reader (ofOption_eq_ok.mp hroot) hread
    exact CorrelationState.sound_finishBatch
      (sound_correlateFrom hnow (CorrelationState.sound_expire ih.1 nowUnixMs) hseq hids hloop)

omit [HexDigest] in
/-- The correlation can be persisted: the store accepts it, and reading it back gives the entries that have not expired,
in the order of every queue. -/
def CorrelationState.Persists (sourceGeneration : String) (s : CorrelationState) : Prop :=
  ∃ text, s.toPersistedJson = .ok text ∧ validateCodexCorrelationState text sourceGeneration = .ok () ∧
    ∀ nowUnixMs, ∃ t, fromPersistedJson text nowUnixMs = .ok t ∧ t.nextSequence = s.nextSequence ∧
      t.recentlyCompleted =
        s.recentlyCompleted.filter (fun c => nowUnixMs - c.completedAtUnixMs < otlpRequestCorrelationTtlMs) ∧
      ∀ key, t.pending.queue key =
        (s.pending.queue key).filter fun p => nowUnixMs - p.insertedAtUnixMs < otlpRequestCorrelationTtlMs

/-- **After a run of admissible exports the correlation can be persisted exactly if it is short enough.** -/
theorem exported_persists (hg : Hashable sourceGeneration)
    (h : Exported sourceGeneration (Admissible sourceGeneration) s) :
    s.Persists sourceGeneration ↔ s.persistedBytes ≤ maxPersistedOtlpCorrelationBytes := by
  obtain ⟨hsound, hfinished⟩ := sound_exported h
  have hgeneration := isPrivateHash_hashOpaqueIdentifier.mpr hg
  have hbytes := hsound.byteLength_json hgeneration
  rw [← hbytes]
  constructor
  · intro hpersists
    obtain ⟨text, htext, _⟩ := hpersists
    exact (CorrelationState.toPersistedJson_eq_ok.mp htext).1
  · intro hle
    refine ⟨s.persisted.printed, CorrelationState.toPersistedJson_eq_ok.mpr ⟨hle, rfl⟩, hsound.validate hle,
      fun nowUnixMs => ?_⟩
    exact ⟨s.expire nowUnixMs, hsound.fromPersistedJson hgeneration hfinished hle nowUnixMs, rfl, rfl,
      fun _ => OrderedMap.queue_retain⟩

end Exports

/-! ### Two exports -/

section Samples

local instance exportSha2 : Sha2 := ⟨Sha256.hexDigest⟩

local instance : HexDigest := hexDigest_sha256

/-- A string attribute of a log record. -/
def stringAttribute (key value : String) : Value :=
  .object [("key", .string key), ("value", .object [("stringValue", .string value)])]

/-- The start of a request of the conversation. -/
def startExport (conversationId : String) : Value :=
  .object [("resourceLogs", .array [.object [("scopeLogs", .array [.object [("logRecords", .array
    [.object [("attributes", .array [stringAttribute "event.name" "codex.api_request",
      stringAttribute "conversation.id" conversationId, stringAttribute "model" "gpt-5.4",
      stringAttribute "auth.request_id" "request-1"])]])]])]])]

/-- The body of the export. -/
def startBody (conversationId : String) : OtlpBody :=
  ⟨byteLength (startExport conversationId).json, some (startExport conversationId)⟩

/-- The state after the export. -/
def startedState (conversationId : String) : Except AdapterError CorrelationState :=
  (parseOtlpHttpJsonWithState (startBody conversationId) "generation-1" none 1 1000 {}).map fun result => result.2.2

theorem exported_startedState {condition : ExportCondition} {conversationId : String} {s : CorrelationState}
    (hcondition : condition none 1 1000 (startBody conversationId) {}) (h : startedState conversationId = .ok s) :
    Exported "generation-1" condition s := by
  unfold startedState at h
  cases hparse : parseOtlpHttpJsonWithState (startBody conversationId) "generation-1" none 1 1000 {} with
  | error e => simp [hparse, Except.map] at h
  | ok result =>
    obtain ⟨batch, lastCursor, t⟩ := result
    rw [hparse] at h
    cases h
    exact .accepted .empty (by decide) hcondition hparse

theorem exported_persists_started : ∃ s, startedState "conversation-1" = .ok s ∧ s.size = 1 ∧ s.Persists "generation-1" := by
  have hadmissible : Admissible "generation-1" none 1 1000 (startBody "conversation-1") {} := by
    intro root reader hroot hread
    cases hroot
    have hcheck : (match readExport (startExport "conversation-1") "generation-1" none 1 1000 with
        | .ok reader => decide (reader.records.length < 2 ^ 64 ∧
            ∀ r ∈ reader.records, ∀ identifier ∈ r.startIdentifiers, Hashable identifier)
        | .error _ => true) = true := by
      rw [show exportSha2 = _ from sha2_eq]
      decide +kernel
    rw [hread, decide_eq_true_eq] at hcheck
    exact ⟨by simpa using hcheck.1, hcheck.2⟩
  have hstate : (match startedState "conversation-1" with
      | .ok s => decide (s.size = 1 ∧ s.persistedBytes ≤ maxPersistedOtlpCorrelationBytes)
      | .error _ => false) = true := by
    rw [startedState, show exportSha2 = _ from sha2_eq]
    decide +kernel
  cases h : startedState "conversation-1" with
  | error e => simp [h] at hstate
  | ok s =>
    rw [h, decide_eq_true_eq] at hstate
    exact ⟨s, rfl, hstate.1,
      (exported_persists (by decide) (exported_startedState hadmissible h)).mpr hstate.2⟩

theorem isPrivateHash_of_validate {persisted : PersistedState} {sourceGeneration : String}
    (h : validateCodexCorrelationState persisted.printed sourceGeneration = .ok ()) :
    ∀ pending ∈ persisted.pending, isPrivateHash pending.conversationHash = true := by
  intro pending hmem
  unfold validateCodexCorrelationState at h
  obtain ⟨_, _, h⟩ := bind_eq_ok.mp h
  obtain ⟨state, hstate, h⟩ := bind_eq_ok.mp h
  cases hstate
  have hpending := List.all_eq_true.mp (require_eq_ok.mp h).2.1 pending hmem
  exact (of_decide_eq_true hpending).2.1

/-- A conversation whose id only has the prefix of a hash. Its start is accepted, and the store refuses the correlation. -/
theorem not_persists_unhashed :
    ¬ ∀ s, Exported "generation-1" (fun _ _ _ _ _ => True) s → s.Persists "generation-1" := by
  intro hall
  have hstate : (match startedState "id:sha256:conversation" with
      | .ok s => s.persisted.pending.any fun pending => !isPrivateHash pending.conversationHash
      | .error _ => false) = true := by
    rw [startedState, show exportSha2 = _ from sha2_eq]
    decide +kernel
  cases h : startedState "id:sha256:conversation" with
  | error e => simp [h] at hstate
  | ok s =>
    rw [h] at hstate
    obtain ⟨pending, hmem, hplain⟩ := List.any_eq_true.mp hstate
    obtain ⟨text, htext, hvalid, _⟩ := hall s (exported_startedState trivial h)
    rw [(CorrelationState.toPersistedJson_eq_ok.mp htext).2] at hvalid
    simp only [isPrivateHash_of_validate hvalid pending hmem, Bool.not_true, Bool.false_eq_true] at hplain

end Samples

end AgentObservability.Codex
