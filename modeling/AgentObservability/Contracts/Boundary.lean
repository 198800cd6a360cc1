import AgentObservability.Contracts.Identifiers
import Mathlib.Data.List.Destutter
import Mathlib.Data.List.SplitBy

/-!
# The privacy boundary of a record

`sanitize_durable_record` as a projection: what it leaves of a record, it leaves again.

## What is proved

`sanitizeDurableRecord_boundary`: sanitizing a sanitized record changes nothing, no content is left,
and the values of the content do not matter. Every text is a fixed point of the redaction under its
own key exactly if every identifier attribute that has the prefix of a digest already was one:
`hashOpaqueIdentifier` returns such a text as it is, and a digest is free of secrets and paths
(`redactSensitiveText_digest`).
-/

namespace AgentObservability.Contracts

open Foundation

/-! ### Redaction -/

section Redaction

variable {value key : String}

/-- A text holds a secret, whatever its key is. -/
def secretText (text : List Char) : Bool :=
  let lower := asciiLowercase text
  (containsAny lower secretNames && (lower.contains '=' || lower.contains ':')) || text.any isControl ||
    containsAny lower secretPatterns || containsText (normalizedWhitespace lower) "bearer "

/-- A text names a file of secrets, whatever its key is. -/
def pathText (text : List Char) : Bool :=
  let lower := asciiLowercase text
  lower = ".env".toList || ".env.".toList.isPrefixOf lower || containsText lower "/.env" ||
    [some "pem".toList, some "key".toList].contains (pathExtension lower) ||
    containsAny lower [".pem ", ".key ", ".tfstate", ".tfvars"]

/-- A text has the separators of a path. -/
def separated (text : List Char) : Bool := text.contains '/' || text.contains '\\'

/-- The redaction, by what it asks of the text and what of the key. -/
theorem redactSensitiveText_eq (value key : String) : redactSensitiveText value key =
    if containsAny (asciiLowercase key.toList) sensitiveKeys || secretText value.toList then "[redacted]"
    else if pathText value.toList || (containsText (asciiLowercase key.toList) "path" && separated value.toList) then
      "[redacted path]"
    else value := by
  simp only [redactSensitiveText, secretText, pathText, separated, Bool.or_assoc]

theorem secretText_redacted : secretText "[redacted]".toList = false := rfl

theorem pathText_redacted : pathText "[redacted]".toList = false := rfl

theorem secretText_redactedPath : secretText "[redacted path]".toList = false := rfl

theorem pathText_redactedPath : pathText "[redacted path]".toList = false := rfl

/-- **What is redacted is redacted.** -/
theorem redactSensitiveText_idem (value key : String) :
    redactSensitiveText (redactSensitiveText value key) key = redactSensitiveText value key := by
  rw [redactSensitiveText_eq value key]
  by_cases hsecret : (containsAny (asciiLowercase key.toList) sensitiveKeys || secretText value.toList) = true
  · rw [if_pos hsecret, redactSensitiveText_eq, secretText_redacted, pathText_redacted,
      show separated "[redacted]".toList = false by decide, Bool.and_false, Bool.or_false, Bool.false_or,
      if_neg Bool.false_ne_true, ite_self]
  · rw [if_neg hsecret]
    have hkey : containsAny (asciiLowercase key.toList) sensitiveKeys = false :=
      (Bool.or_eq_false_iff.mp (Bool.eq_false_iff.mpr hsecret)).1
    by_cases hpath : (pathText value.toList ||
        (containsText (asciiLowercase key.toList) "path" && separated value.toList)) = true
    · rw [if_pos hpath, redactSensitiveText_eq, secretText_redactedPath, pathText_redactedPath, hkey,
        show separated "[redacted path]".toList = false by decide, Bool.and_false, Bool.or_false,
        if_neg Bool.false_ne_true, if_neg Bool.false_ne_true]
    · rw [if_neg hpath, redactSensitiveText_eq, if_neg hsecret, if_neg hpath]

end Redaction

/-! ### Digests -/

section Digest

variable {text : List Char} {allowed : List Char}

/-- What a text contains is made of its characters. -/
theorem subset_of_containsText {pattern : String} (h : containsText text pattern = true) :
    ∀ c ∈ pattern.toList, c ∈ text := by
  obtain ⟨tail, htail, hbegin⟩ := List.any_eq_true.mp h
  intro c hc
  exact ((List.mem_tails _ _).mp htail).subset ((List.isPrefixOf_iff_prefix.mp hbegin).subset hc)

/-- A text does not contain a pattern with other characters than its own. -/
theorem containsAny_eq_false (htext : ∀ c ∈ text, c ∈ allowed) {patterns : List String}
    (hpatterns : (patterns.all fun pattern => pattern.toList.any fun c => !allowed.contains c) = true) :
    containsAny text patterns = false := by
  rw [containsAny, List.any_eq_false]
  intro pattern hpattern hcontains
  obtain ⟨c, hc, hnot⟩ := List.any_eq_true.mp (List.all_eq_true.mp hpatterns pattern hpattern)
  have hmem : c ∈ allowed := htext c (subset_of_containsText hcontains c hc)
  simp [hmem] at hnot

theorem containsText_eq_false (htext : ∀ c ∈ text, c ∈ allowed) {pattern : String}
    (hpattern : (pattern.toList.any fun c => !allowed.contains c) = true) : containsText text pattern = false := by
  have hany : containsAny text [pattern] = false :=
    containsAny_eq_false htext (by rw [List.all_cons, hpattern, List.all_nil]; rfl)
  rwa [containsAny, List.any_cons, List.any_nil, Bool.or_false] at hany

theorem mem_intersperse {α : Type} {a sep : α} : ∀ {l : List α}, a ∈ l.intersperse sep → a = sep ∨ a ∈ l := by
  intro l
  induction l with
  | nil => exact fun h => .inr h
  | cons b l ih =>
    cases l with
    | nil => exact fun h => .inr h
    | cons c l =>
      rw [List.intersperse_cons_cons]
      intro h
      rcases List.mem_cons.mp h with rfl | h
      · exact .inr List.mem_cons_self
      · rcases List.mem_cons.mp h with rfl | h
        · exact .inl rfl
        · exact (ih h).imp_right (List.mem_cons_of_mem b)

/-- Joining words adds spaces only. -/
theorem mem_normalizedWhitespace {c : Char} (h : c ∈ normalizedWhitespace text) : c = ' ' ∨ c ∈ text := by
  obtain ⟨word, hword, hc⟩ := List.mem_flatten.mp h
  rcases mem_intersperse hword with rfl | hword
  · exact .inl (List.mem_singleton.mp hc)
  · right
    rw [← List.flatten_splitBy (fun a b => isWhitespace a == isWhitespace b) text]
    exact List.mem_flatten.mpr ⟨word, (List.mem_filter.mp hword).1, hc⟩

/-- An extension is made of the characters of its path. -/
theorem subset_of_pathExtension {extension : List Char} (h : pathExtension text = some extension) :
    ∀ c ∈ extension, c ∈ text := by
  unfold pathExtension at h
  split at h
  · cases h
  · rename_i name hname
    split at h
    · cases h
    · simp only at h
      split at h
      · cases h
      · intro c hc
        rw [← Option.some.inj h, List.mem_reverse] at hc
        have hmem : c ∈ name := List.mem_reverse.mp ((List.takeWhile_sublist _).subset hc)
        have hcomponent := (List.mem_filter.mp (List.mem_of_getLast? hname)).1
        rw [← List.flatten_splitBy (fun a b => (a == '/') == (b == '/')) text]
        exact List.mem_flatten.mpr ⟨name, hcomponent, hmem⟩

/-- The characters of a projected identifier. -/
def projectedChars : List Char := "0123456789abcdefihs:".toList

theorem mem_projectedChars {value : String} (h : IsProjected value) : ∀ c ∈ value.toList, c ∈ projectedChars := by
  obtain ⟨digits, rfl, -, hdigits⟩ := h
  have hprefix : (privatePrefix.toList.all fun c => c ∈ projectedChars) = true := by decide
  have hhex : ("0123456789abcdef".toList.all fun c => c ∈ projectedChars) = true := by decide
  intro c hc
  rw [String.toList_append, List.mem_append] at hc
  rcases hc with hc | hc
  · exact of_decide_eq_true (List.all_eq_true.mp hprefix c hc)
  · exact of_decide_eq_true (List.all_eq_true.mp hhex c (hdigits c hc))

theorem asciiLowercase_eq (htext : ∀ c ∈ text, c ∈ projectedChars) : asciiLowercase text = text := by
  have hlower : (projectedChars.all fun c => c.toLower = c) = true := by decide
  exact (List.map_congr_left fun c hc => of_decide_eq_true (List.all_eq_true.mp hlower c (htext c hc))).trans (List.map_id _)

/-- **A digest is free of secrets and paths.** -/
theorem redactSensitiveText_projected {value key : String} (h : IsProjected value) (hkey : key ∈ identifierAttributes) :
    redactSensitiveText value key = value := by
  have hsafe : ∀ key ∈ identifierAttributes, containsAny (asciiLowercase key.toList) sensitiveKeys = false ∧
      containsText (asciiLowercase key.toList) "path" = false := by decide +kernel
  have htext := mem_projectedChars h
  have hlower := asciiLowercase_eq htext
  have hcontrol : value.toList.any isControl = false := by
    have hplain : (projectedChars.all fun c => !isControl c) = true := by decide
    rw [List.any_eq_false]
    intro c hc
    simpa using List.all_eq_true.mp hplain c (htext c hc)
  have hbearer : containsText (normalizedWhitespace value.toList) "bearer " = false := by
    have hspaced : ∀ c ∈ normalizedWhitespace value.toList, c ∈ ' ' :: projectedChars := by
      intro c hc
      rcases mem_normalizedWhitespace hc with rfl | hc
      · exact List.mem_cons_self
      · exact List.mem_cons_of_mem _ (htext c hc)
    exact containsText_eq_false hspaced (by decide)
  have hdot : '.' ∉ value.toList := fun hmem => absurd (htext '.' hmem) (by decide)
  have hextension : [some "pem".toList, some "key".toList].contains (pathExtension value.toList) = false := by
    rw [List.contains_eq_mem, decide_eq_false_iff_not]
    intro hmem
    rcases List.mem_cons.mp hmem with heq | hmem
    · exact absurd (htext 'p' (subset_of_pathExtension heq 'p' (by decide))) (by decide)
    · exact absurd (htext 'k' (subset_of_pathExtension (List.mem_singleton.mp hmem) 'k' (by decide))) (by decide)
  have hnames : containsAny value.toList secretNames = false := containsAny_eq_false htext (by decide)
  have hpatterns : containsAny value.toList secretPatterns = false := containsAny_eq_false htext (by decide)
  have hsecret : secretText value.toList = false := by
    simp only [secretText, hlower, hcontrol, hbearer, hnames, hpatterns, Bool.false_and, Bool.or_false]
  have hdotted : ∀ pattern : String, '.' ∈ pattern.toList → ¬ (∀ c ∈ pattern.toList, c ∈ value.toList) :=
    fun _ hmem hall => hdot (hall '.' hmem)
  have henv : decide (value.toList = ".env".toList) = false :=
    decide_eq_false fun heq => hdotted ".env" (by decide) fun c hc => heq ▸ hc
  have henvFile : ".env.".toList.isPrefixOf value.toList = false := by
    rw [Bool.eq_false_iff]
    intro hbegin
    exact hdotted ".env." (by decide) fun c hc => (List.isPrefixOf_iff_prefix.mp hbegin).subset hc
  have henvPath : containsText value.toList "/.env" = false := containsText_eq_false htext (by decide)
  have hfiles : containsAny value.toList [".pem ", ".key ", ".tfstate", ".tfvars"] = false :=
    containsAny_eq_false htext (by decide)
  have hpath : pathText value.toList = false := by
    simp only [pathText, hlower, henv, henvFile, hextension, henvPath, hfiles, Bool.or_false]
  rw [redactSensitiveText_eq, (hsafe key hkey).1, (hsafe key hkey).2, hsecret, hpath]
  rfl

end Digest

/-! ### Texts -/

/-- The attributes with their names. -/
def AttributesV1.named (a : AttributesV1) : List (String × Option ScalarValueV1) :=
  [("source", a.source), ("event_type", a.eventType), ("envelope_type", a.envelopeType),
    ("session_id", a.sessionId), ("turn_id", a.turnId), ("request_id", a.requestId), ("call_id", a.callId),
    ("tool_name", a.toolName), ("phase", a.phase), ("exit_code", a.exitCode), ("sandbox", a.sandbox),
    ("approval", a.approval), ("permission_id", a.permissionId), ("decision", a.decision),
    ("command_kind", a.commandKind), ("compaction_id", a.compactionId), ("trigger", a.trigger)]

/-- The free texts of a record and its attributes that are texts, each with its key. -/
def DurableRecordV1.texts (r : DurableRecordV1) : List (String × String) :=
  [("agent.name", r.agent.name), ("agent.version", r.agent.version), ("agent.model", r.agent.model),
    ("project.name", r.project.name), ("project.repo_path", r.project.repoPath), ("name", some r.name)].flatMap
      (fun m => m.2.toList.map (m.1, ·)) ++
    r.attributes.named.flatMap fun m => (scalarIdentifier m.2).map (m.1, ·)

section Record

variable [Sha2]

/-- What the boundary leaves of a text. -/
def boundaryText (m : String × String) : String × String :=
  (m.1, if m.1 ∈ identifierAttributes then hashOpaqueIdentifier m.2 else redactSensitiveText m.2 m.1)

theorem scalarTexts_sanitizeScalar (key : String) (value : Option ScalarValueV1) :
    (scalarIdentifier (sanitizeScalar value key)).map (key, ·) = ((scalarIdentifier value).map (key, ·)).map boundaryText := by
  unfold sanitizeScalar
  split
  · rfl
  · rename_i hn
    cases value with
    | none => rfl
    | some value =>
      cases value with
      | string text => exact absurd rfl (hn text)
      | boolean _ => rfl
      | number _ => rfl

theorem texts_sanitizeOptionalText {key : String} (hkey : key ∉ identifierAttributes) (value : Option String) :
    (sanitizeOptionalText value key).toList.map (key, ·) = (value.toList.map (key, ·)).map boundaryText := by
  cases value with
  | none => rfl
  | some value =>
    show [(key, redactSensitiveText value key)] = [boundaryText (key, value)]
    rw [boundaryText, if_neg hkey]

/-- **The boundary passes over every text.** -/
theorem texts_sanitized (r : DurableRecordV1) : (sanitized r).texts = r.texts.map boundaryText := by
  have hattributes : (sanitizeAttributes r.attributes).named.flatMap (fun m => (scalarIdentifier m.2).map (m.1, ·)) =
      (r.attributes.named.flatMap fun m => (scalarIdentifier m.2).map (m.1, ·)).map boundaryText := by
    have hnamed : (sanitizeAttributes r.attributes).named =
        r.attributes.named.map fun m => (m.1, sanitizeScalar m.2 m.1) := rfl
    rw [hnamed, List.flatMap_map, List.map_flatMap]
    exact congrArg (fun f => r.attributes.named.flatMap f) (funext fun m => scalarTexts_sanitizeScalar m.1 m.2)
  simp only [DurableRecordV1.texts, List.map_append, List.flatMap_cons, List.flatMap_nil, List.append_nil]
  rw [← texts_sanitizeOptionalText (show "agent.name" ∉ identifierAttributes by decide),
    ← texts_sanitizeOptionalText (show "agent.version" ∉ identifierAttributes by decide),
    ← texts_sanitizeOptionalText (show "agent.model" ∉ identifierAttributes by decide),
    ← texts_sanitizeOptionalText (show "project.name" ∉ identifierAttributes by decide),
    ← texts_sanitizeOptionalText (show "project.repo_path" ∉ identifierAttributes by decide),
    ← texts_sanitizeOptionalText (show "name" ∉ identifierAttributes by decide), ← hattributes]
  rfl

/-- **The texts of a sanitized record are redacted exactly if no identifier attribute only imitates a digest.** -/
theorem texts_fixed_iff [HexDigest] (r : DurableRecordV1) :
    (∀ m ∈ (sanitized r).texts, redactSensitiveText m.2 m.1 = m.2) ↔
      ∀ m ∈ r.texts, m.1 ∈ identifierAttributes → IsPrivate m.2 → redactSensitiveText m.2 m.1 = m.2 := by
  rw [texts_sanitized, List.forall_mem_map]
  refine forall₂_congr fun m _ => ?_
  by_cases hkey : m.1 ∈ identifierAttributes
  · have hm : boundaryText m = (m.1, hashOpaqueIdentifier m.2) := by rw [boundaryText, if_pos hkey]
    rw [hm]
    by_cases hprivate : IsPrivate m.2
    · rw [hashOpaqueIdentifier_of_private hprivate]
      exact ⟨fun h _ _ => h, fun h => h hkey hprivate⟩
    · refine iff_of_true ?_ fun _ h => absurd h hprivate
      exact redactSensitiveText_projected (isProjected_hashOpaqueIdentifier.mpr fun h => absurd h hprivate) hkey
  · have hm : boundaryText m = (m.1, redactSensitiveText m.2 m.1) := by rw [boundaryText, if_neg hkey]
    rw [hm]
    exact iff_of_true (redactSensitiveText_idem _ _) fun h => absurd h hkey

/-! ### Records -/

theorem sanitizeScalar_idem (value : Option ScalarValueV1) (key : String) :
    sanitizeScalar (sanitizeScalar value key) key = sanitizeScalar value key := by
  cases value with
  | none => rfl
  | some value =>
    cases value with
    | boolean _ => rfl
    | number _ => rfl
    | string text =>
      simp only [sanitizeScalar]
      by_cases hkey : key ∈ identifierAttributes
      · simp only [if_pos hkey, hashOpaqueIdentifier_idem]
      · simp only [if_neg hkey, redactSensitiveText_idem]

omit [Sha2] in
theorem sanitizeOptionalText_idem (value : Option String) (key : String) :
    sanitizeOptionalText (sanitizeOptionalText value key) key = sanitizeOptionalText value key := by
  cases value with
  | none => rfl
  | some value => exact congrArg some (redactSensitiveText_idem value key)

theorem sanitizeAttributes_idem (a : AttributesV1) : sanitizeAttributes (sanitizeAttributes a) = sanitizeAttributes a := by
  simp only [sanitizeAttributes, sanitizeScalar_idem]

/-- The fields of a sanitized record stay. -/
theorem sanitizeFields_sanitized (r : DurableRecordV1) : sanitizeFields (sanitized r) = sanitized r := by
  have hparent : (r.parentSpanId.map hashRecordId).map hashRecordId = r.parentSpanId.map hashRecordId := by
    rw [Option.map_map]
    exact congrArg (fun f => r.parentSpanId.map f) (funext hashOpaqueIdentifier_idem)
  simp only [sanitized, sanitizeFields, sanitizeOptionalText_idem, sanitizeAttributes_idem, redactSensitiveText_idem,
    hparent, hashRecordId, hashOpaqueIdentifier_idem]

/-- Nothing of a sanitized record is replaced. -/
theorem replacedFields_sanitized (r : DurableRecordV1) : replacedFields (sanitized r) = [] := by
  have hsame : ∀ {α : Type} [DecidableEq α] (a : α) (field : String), replaced a a field = [] := fun _ _ => if_pos rfl
  have hcontent : (sanitized r).content = {} := rfl
  have hattributes : replacedAttributes (sanitized r).attributes = [] := by
    have hattr : sanitizeAttributes (sanitized r).attributes = (sanitized r).attributes := sanitizeAttributes_idem _
    simp only [replacedAttributes, hattr, hsame, List.append_nil]
  simp only [replacedFields, sanitizeFields_sanitized, hcontent, hattributes, hsame, List.append_nil]

omit [Sha2] in
/-- Sorted names without repetition stay. -/
theorem sortDedup_idem (fields : List String) : sortDedup (sortDedup fields) = sortDedup fields := by
  have : Std.Total fun a b : String => a ≤ b := ⟨le_total⟩
  have : IsTrans String fun a b => a ≤ b := ⟨fun _ _ _ => le_trans⟩
  have hsorted : (sortDedup fields).Pairwise fun a b => a ≤ b :=
    (List.pairwise_insertionSort (· ≤ ·) fields).sublist (List.destutter_sublist _ _)
  show ((sortDedup fields).insertionSort fun a b => a ≤ b).destutter (· ≠ ·) = sortDedup fields
  rw [hsorted.insertionSort_eq]
  exact List.destutter_idem _ _

/-- **Sanitizing a sanitized record changes nothing.** -/
theorem sanitized_sanitized (r : DurableRecordV1) : sanitized (sanitized r) = sanitized r := by
  have hredaction : (sanitized (sanitized r)).redaction = (sanitized r).redaction := by
    have happlied : (sanitized (sanitized r)).redaction =
        { applied := (sanitized r).redaction.applied || !(replacedFields (sanitized r)).isEmpty
          count := min ((sanitized r).redaction.count + (replacedFields (sanitized r)).length) (2 ^ 64 - 1)
          fields := sortDedup ((sanitized r).redaction.fields ++ replacedFields (sanitized r)) } := rfl
    have hcount : (sanitized r).redaction.count ≤ 2 ^ 64 - 1 := by
      rw [sanitized]
      exact Nat.min_le_right _ _
    have hfields : sortDedup (sanitized r).redaction.fields = (sanitized r).redaction.fields := by
      rw [sanitized]
      exact sortDedup_idem _
    rw [happlied, replacedFields_sanitized, List.append_nil, List.length_nil, Nat.add_zero, Nat.min_eq_left hcount, hfields,
      List.isEmpty_nil, Bool.not_true, Bool.or_false]
  calc sanitized (sanitized r) = { sanitizeFields (sanitized r) with redaction := (sanitized (sanitized r)).redaction } := rfl
    _ = { sanitized r with redaction := (sanitized r).redaction } := by rw [sanitizeFields_sanitized, hredaction]
    _ = sanitized r := rfl

/-- The records differ at most in the values of their content. -/
structure SameButContent (r r' : DurableRecordV1) : Prop where
  /-- The other fields are the same. -/
  others : { r' with content := r.content } = r
  /-- The prompts are both there or not. -/
  prompt : r'.content.prompt.isSome = r.content.prompt.isSome
  /-- The outputs are both there or not. -/
  output : r'.content.output.isSome = r.content.output.isSome
  /-- The tool inputs are both there or not. -/
  toolInput : r'.content.toolInput.isSome = r.content.toolInput.isSome
  /-- The tool outputs are both there or not. -/
  toolOutput : r'.content.toolOutput.isSome = r.content.toolOutput.isSome

omit [Sha2] in
/-- A value that is removed is reported if it is there. -/
theorem replaced_none {α : Type} [DecidableEq α] {value value' : Option α} (h : value'.isSome = value.isSome)
    (field : String) : replaced value' none field = replaced value none field := by
  cases value <;> cases value' <;> first | rfl | cases h

/-- **The values of the content do not matter.** -/
theorem sanitized_congr {r r' : DurableRecordV1} (h : SameButContent r r') : sanitized r' = sanitized r := by
  obtain ⟨hothers, hprompt, houtput, htoolInput, htoolOutput⟩ := h
  have hfields : sanitizeFields r' = sanitizeFields r := by
    rw [← hothers]
    rfl
  have hreplaced : replacedFields r' = replacedFields r := by
    rw [replacedFields, replacedFields, hfields, replaced_none hprompt, replaced_none houtput, replaced_none htoolInput,
      replaced_none htoolOutput]
    rw [← hothers]
  have hredaction : r'.redaction = r.redaction := by rw [← hothers]
  rw [sanitized, sanitized, hfields, hreplaced, hredaction]

theorem sanitizeDurableRecord_congr {r r' : DurableRecordV1} (h : SameButContent r r') :
    sanitizeDurableRecord r' = sanitizeDurableRecord r := by
  rw [sanitizeDurableRecord, sanitizeDurableRecord, sanitized_congr h]

/-- The boundary is a projection. -/
structure Projects (r s : DurableRecordV1) : Prop where
  /-- The sanitized record is sanitized. -/
  idempotent : sanitizeDurableRecord s = .ok s
  /-- No content is left. -/
  content : s.content = {}
  /-- The texts are redacted. -/
  redacted : ∀ m ∈ s.texts, redactSensitiveText m.2 m.1 = m.2
  /-- The values of the content do not matter. -/
  values : ∀ r', SameButContent r r' → sanitizeDurableRecord r' = .ok s

/-- **The boundary is a projection exactly if no identifier attribute only imitates a digest.** -/
theorem sanitizeDurableRecord_boundary [HexDigest] {r s : DurableRecordV1} (h : sanitizeDurableRecord r = .ok s) :
    Projects r s ↔
      ∀ m ∈ r.texts, m.1 ∈ identifierAttributes → IsPrivate m.2 → redactSensitiveText m.2 m.1 = m.2 := by
  obtain ⟨⟨⟩, hvalid, hs⟩ := bind_eq_ok.mp h
  obtain rfl := pure_eq_ok.mp hs
  rw [← texts_fixed_iff]
  constructor
  · exact Projects.redacted
  · intro hfixed
    refine { idempotent := ?_, content := rfl, redacted := hfixed, values := fun r' hr' => ?_ }
    · rw [sanitizeDurableRecord, sanitized_sanitized, hvalid]
      rfl
    · rw [sanitizeDurableRecord_congr hr', h]

omit [Sha2] in
theorem projects_turnWithIds :
    @Projects ⟨Sha256.hexDigest⟩ (turnWithIds "trace" "span") (@sanitized ⟨Sha256.hexDigest⟩ (turnWithIds "trace" "span")) ↔
      ∀ m ∈ (turnWithIds "trace" "span").texts, m.1 ∈ identifierAttributes → IsPrivate m.2 →
        redactSensitiveText m.2 m.1 = m.2 :=
  @sanitizeDurableRecord_boundary ⟨Sha256.hexDigest⟩ hexDigest_sha256 _ _
    (@sanitizeDurableRecord_turnWithIds ⟨Sha256.hexDigest⟩ _ _)

/-- A turn of a session whose identifier is given. -/
def turnOfSession (sessionId : String) : DurableRecordV1 :=
  { turnWithIds "trace" "span" with attributes := { sessionId := some (.string sessionId) } }

/-- Such a turn is sanitized. -/
theorem sanitizeDurableRecord_turnOfSession (sessionId : String) :
    sanitizeDurableRecord (turnOfSession sessionId) = .ok (sanitized (turnOfSession sessionId)) := by
  have hvalid : (sanitized (turnOfSession sessionId)).validate = .ok () :=
    DurableRecordV1.validate_ok_iff.mpr ⟨⟨rfl, rfl⟩, ⟨hashOpaqueIdentifier_ne_empty _, hashOpaqueIdentifier_ne_empty _,
      redactSensitiveText_ne_empty (show "turn" ≠ "" by decide)⟩, rfl, nofun, nofun, nofun, nofun, nofun, nofun⟩
  rw [sanitizeDurableRecord, hvalid]
  rfl

omit [Sha2] in
/-- A secret behind the prefix stays as it is. -/
theorem not_projects_imitation : ¬ ∀ r s, @sanitizeDurableRecord ⟨Sha256.hexDigest⟩ r = .ok s →
    @Projects ⟨Sha256.hexDigest⟩ r s := by
  intro h
  have hprojects := h _ _ (@sanitizeDurableRecord_turnOfSession ⟨Sha256.hexDigest⟩ "id:sha256:password=hunter2")
  have hmem : ("session_id", "id:sha256:password=hunter2") ∈
      (@sanitized ⟨Sha256.hexDigest⟩ (turnOfSession "id:sha256:password=hunter2")).texts := by
    rw [@texts_sanitized ⟨Sha256.hexDigest⟩]
    refine List.mem_map.mpr ⟨("session_id", "id:sha256:password=hunter2"), by decide +kernel, ?_⟩
    exact congrArg (Prod.mk "session_id")
      ((if_pos (by decide)).trans (@hashOpaqueIdentifier_of_private ⟨Sha256.hexDigest⟩ _ (by decide)))
  exact absurd (@Projects.redacted ⟨Sha256.hexDigest⟩ _ _ hprojects _ hmem) (by decide +kernel)

end Record

end AgentObservability.Contracts
