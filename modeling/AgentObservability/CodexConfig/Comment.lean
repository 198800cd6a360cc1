import AgentObservability.CodexConfig.Execution
import AgentObservability.CodexConfig.PlainToml

/-!
# A configuration that is a comment

What `connect` makes of a configuration that holds nothing but a comment. As long as
the comment leaves room for the managed values, they fit (`freshFits_comment`); a
comment as long as the limit is accepted all the same, and what `connect` writes then
cannot be read back (`exec_connect_limit`).
-/

namespace AgentObservability.CodexConfig

open Foundation Foundation.Durable

section Comment

open PlainToml

/-- Managed values with a token. -/
def sampleValues (token : String) : ManagedValues := ⟨"/b", "/r", "https://127.0.0.1:4318/v1/logs", "/c", token⟩

/-- The file of a comment. -/
def commentFile (comment : { c : List Char // IsComment c }) : File :=
  ⟨intoBytes (String.ofList comment.val), 0o600⟩

theorem utf8ByteSize_managedText : (String.ofList (managedText (sampleValues "t"))).utf8ByteSize = 268 := by
  decide +kernel

variable (comment : { c : List Char // IsComment c })

theorem length_documentBytes_withManaged :
    (documentBytes editor (withManaged comment (sampleValues "t"))).length =
      268 + (String.ofList comment.val).utf8ByteSize := by
  have htext : editor.toText (withManaged comment (sampleValues "t")) =
      String.ofList (managedText (sampleValues "t") ++ comment.val) := congrArg String.ofList (text_withManaged ..)
  show (intoBytes (editor.toText (withManaged comment (sampleValues "t")))).length = _
  rw [length_intoBytes, htext, String.ofList_append, String.utf8ByteSize_append, utf8ByteSize_managedText]

variable {comment}

theorem accepted_comment (h : (String.ofList comment.val).utf8ByteSize ≤ maxConfigBytes) :
    Accepted editor (sampleValues "t") (some (commentFile comment)) { comment := comment }
      (withManaged comment (sampleValues "t")) where
  readable := by
    rintro _ ⟨⟩
    refine ⟨(by decide : (0o600 &&& 0o077 : ℕ) = 0), ?_⟩
    rw [commentFile, length_intoBytes]
    exact h
  parsed := parseDocument_comment comment
  unconflicted := ensureNoManagedConflict_comment comment _
  patched := patchManagedValues_comment comment _

/-- The snapshot of a connection over a comment. -/
abbrev commentSnapshot (comment : { c : List Char // IsComment c }) : OwnershipSnapshot :=
  freshSnapshot editor "/config.toml" (sampleValues "t") (some (commentFile comment)) { comment := comment }
    (withManaged comment (sampleValues "t")) .prepared

/-- The files of a connection over a comment, before its snapshot is settled. -/
def overComment (comment : { c : List Char // IsComment c }) : Disk where
  config := some ⟨documentBytes editor (withManaged comment (sampleValues "t")), 0o600⟩
  snapshot := some (commentSnapshot comment)

variable (comment) in
/-- The comment is not connected yet. -/
theorem not_agrees_withManaged : ¬ (existing (some (commentFile comment))).agrees
    (documentBytes editor (withManaged comment (sampleValues "t"))) (existing (some (commentFile comment))).mode = true := by
  intro ha
  have hfile := OwnershipSnapshot.agrees_existing.mp ha
  have hlength : (commentFile comment).bytes.length =
      (documentBytes editor (withManaged comment (sampleValues "t"))).length :=
    congrArg (fun file : Option File => (existing file).bytes.length) hfile
  rw [length_documentBytes_withManaged, commentFile, length_intoBytes] at hlength
  omega

variable (comment) in
theorem phase_commentSnapshot : (commentSnapshot comment).phase = .prepared := rfl

variable (comment) in
theorem ownsNotify_commentSnapshot : (commentSnapshot comment).ownsNotify = true := rfl

variable (comment) in
theorem fingerprint_commentSnapshot : (commentSnapshot comment).managedFingerprint =
    (sampleValues "t").fingerprint editor (commentSnapshot comment).ownsNotify := rfl

variable (comment) in
theorem versions_commentSnapshot : (commentSnapshot comment).Versions (some (commentFile comment)) :=
  .inl (prior_freshSnapshot ..).symm

variable (comment) in
theorem stateOf_commentSnapshot : (commentSnapshot comment).stateOf (some (commentFile comment)) = .preparedPrior := by
  unfold OwnershipSnapshot.stateOf
  simp only [phase_commentSnapshot]
  exact if_pos (prior_freshSnapshot ..).symm

/-- A connection over a comment fits if the comment leaves room for the managed values. -/
theorem freshFits_comment (h : (String.ofList comment.val).utf8ByteSize + 268 ≤ maxConfigBytes) :
    FreshFits editor "/config.toml" (sampleValues "t") (some (commentFile comment)) := by
  intro document updated hacc
  have hparsed : Except.ok document = Except.ok { comment := comment } :=
    hacc.parsed.symm.trans (parseDocument_comment comment)
  cases hparsed
  have hpatched : some updated = some (withManaged comment (sampleValues "t")) :=
    hacc.patched.symm.trans (patchManagedValues_comment comment _)
  cases hpatched
  have hlength := length_documentBytes_withManaged comment
  refine ⟨by omega, size_freshSnapshot_le (by decide) (by show (0o600 : ℕ) < 10 ^ 20; decide) ?_ (by omega)⟩
  show (intoBytes (String.ofList comment.val)).length ≤ maxConfigBytes
  rw [length_intoBytes]
  omega

/-! ### At the limit -/

variable (h : (String.ofList comment.val).utf8ByteSize = maxConfigBytes)
include h

theorem size_commentSnapshot : (commentSnapshot comment).size ≤ maxSnapshotBytes := by
  refine size_freshSnapshot_le (by decide) (by show (0o600 : ℕ) < 10 ^ 20; decide) ?_ ?_
  · show (intoBytes (String.ofList comment.val)).length ≤ maxConfigBytes
    rw [length_intoBytes, h]
  · rw [length_documentBytes_withManaged, h]
    omega

theorem readConfig_overComment (snapshot : Option OwnershipSnapshot) :
    (Disk.mk (overComment comment).config snapshot).readConfig = .error (.tooLarge .config) := by
  have hlength := length_documentBytes_withManaged comment
  have hlarge : maxConfigBytes < (documentBytes editor (withManaged comment (sampleValues "t"))).length := by omega
  simp [overComment, Disk.readConfig, hlarge]

theorem readSnapshot_overComment : (overComment comment).readSnapshot "/config.toml" = .ok (commentSnapshot comment) :=
  readSnapshot_of_valid (valid_freshSnapshot (accepted_comment h.le) (by decide)) (size_commentSnapshot h) rfl

theorem snapshotState_overComment :
    (overComment comment).snapshotState (commentSnapshot comment) = .error (.tooLarge .config) :=
  snapshotState_of_readConfig_error rfl rfl (readConfig_overComment h _)

/-- `connect` over a comment as long as the limit writes a configuration that it cannot read back. -/
theorem exec_connect_limit : exec device (connect editor "/config.toml" (some (sampleValues "t")))
    ⟨some (commentFile comment), none⟩ = (overComment comment, .returned (.error (.tooLarge .config))) := by
  have hacc := accepted_comment h.le
  have hdiffer := not_agrees_withManaged comment
  have hattempt : exec device (Prog.attempt (.replaceConfig (.fromExisting (existing (some (commentFile comment))))
      (documentBytes editor (withManaged comment (sampleValues "t"))) (existing (some (commentFile comment))).mode))
      ⟨some (commentFile comment), some (commentSnapshot comment)⟩ =
      (overComment comment, .returned (.ok (.error (.tooLarge .config)))) := by
    refine exec_attempt_error (effect_replaceConfig_ok hacc.readable ?_) ?_
    · exact OwnershipSnapshot.agrees_existing.mpr rfl
    · simp only [device, Mutation.confirm]
      rw [show (overComment comment).readConfig = _ from readConfig_overComment h _]
      rfl
  unfold connect connectManaged
  rw [exec_bind_ok (exec_read_ok (f := fun d : Disk => .ok d.snapshot.isSome) rfl)]
  simp only [Option.isSome_none, Bool.false_eq_true, if_false]
  unfold connectFresh
  rw [exec_bind_ok (exec_read_ok (readConfig_eq hacc.readable)), exec_bind_ok (exec_lift_ok hacc.parsed _),
    exec_bind_ok (exec_lift_ok hacc.unconflicted _)]
  simp only [hacc.patched]
  unfold installManagedValues
  simp only [hdiffer, Bool.false_eq_true, if_false]
  rw [exec_bind_ok (exec_createSnapshot (size_commentSnapshot h)), exec_bind_ok hattempt]
  simp only
  exact exec_bind_error (exec_read_error (snapshotState_overComment h))

end Comment

end AgentObservability.CodexConfig
