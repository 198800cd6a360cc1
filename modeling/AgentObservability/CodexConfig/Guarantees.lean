import AgentObservability.CodexConfig.Recovery
import AgentObservability.CodexConfig.Comment

/-!
# What a run leaves to the next call

After any run, whatever failed in it, what the manager has written can be read back
(`run_readable`), the prior configuration can be had back, and `connect` takes every
values that it does not refuse on purpose (`run_reconnect`): beside an operation that
was not finished it takes the values of that operation only.
-/

namespace AgentObservability.CodexConfig

open Foundation Foundation.Durable

section Runs

variable {toml : TomlEdit} {configPath : String} {prior : Option File} {d : Disk}

/-- **What the manager has written can be read back**, at every instant of a run, so that a status is returned and a
disconnection has the prior configuration back. -/
theorem run_readable (law : toml.Lawful) (hprior : ∀ file ∈ prior, file.Readable) (h : Run toml configPath prior d) :
    (∃ current, d.readConfig = .ok current) ∧ (∃ snapshot, d.readSnapshotFile = .ok snapshot) ∧
      (∀ holder, ∃ t answer, exec device (status toml configPath holder) d = (t, .returned (.ok answer))) ∧
      exec device (disconnect toml configPath none) d = (⟨prior, none⟩, .returned (.ok .disconnected)) := by
  have hd := consistent_run law h
  refine ⟨?_, ?_, fun holder => exec_status hd, exec_disconnect hd fun _ _ => rfl⟩
  · obtain ⟨config, snapshot⟩ := d
    cases snapshot with
    | none =>
      obtain rfl : config = prior := hd
      exact ⟨_, readConfig_eq hprior⟩
    | some s => exact ⟨_, readConfig_eq (Owned.readable_of_versions hd.1 hd.2)⟩
  · obtain ⟨config, snapshot⟩ := d
    cases snapshot with
    | none => exact ⟨none, rfl⟩
    | some s => exact ⟨some s, readSnapshotFile_some (Owned.size hd.1)⟩

end Runs

section Samples

open PlainToml

/-- A comment. -/
def smallComment : { c : List Char // IsComment c } := ⟨"# prior\n".toList, rfl⟩

theorem utf8ByteSize_smallComment : (String.ofList smallComment.val).utf8ByteSize = 8 := by decide

theorem freshFits_smallComment :
    FreshFits editor "/config.toml" (sampleValues "t") (some (commentFile smallComment)) :=
  freshFits_comment (by rw [utf8ByteSize_smallComment]; decide)

/-- A run with one connection. -/
theorem run_connect_smallComment : Run editor "/config.toml" (some (commentFile smallComment))
    (exec device (connect editor "/config.toml" (some (sampleValues "t"))) ⟨some (commentFile smallComment), none⟩).1 :=
  .call (.refl _) (k := .connect (some (sampleValues "t"))) freshFits_smallComment (ends_exec device _ _)

/-- What is written over a comment can be read back. -/
theorem run_readable_smallComment :
    exec device (disconnect editor "/config.toml" none)
      (exec device (connect editor "/config.toml" (some (sampleValues "t"))) ⟨some (commentFile smallComment), none⟩).1 =
      (⟨some (commentFile smallComment), none⟩, .returned (.ok .disconnected)) := by
  refine (run_readable lawful ?_ run_connect_smallComment).2.2.2
  rintro _ ⟨⟩
  refine (accepted_comment ?_).readable _ rfl
  rw [utf8ByteSize_smallComment]
  decide

/-- A comment as long as the limit. -/
def largestComment : { c : List Char // IsComment c } := ⟨'#' :: List.replicate (maxConfigBytes - 1) ' ', rfl⟩

theorem utf8ByteSize_largestComment : (String.ofList largestComment.val).utf8ByteSize = maxConfigBytes := by
  have hspaces : (String.ofList (List.replicate (maxConfigBytes - 1) ' ')).utf8ByteSize = maxConfigBytes - 1 :=
    Json.utf8ByteSize_spaces _
  have hpos : 0 < maxConfigBytes := by decide
  have hmark : ('#' : Char).utf8Size = 1 := rfl
  rw [largestComment, String.ofList_cons, String.utf8ByteSize_append, String.utf8ByteSize_singleton, hspaces, hmark]
  omega

/-- **Over a comment as long as the limit every later call fails**: `connect` accepts the comment and valid managed
values, and writes a configuration that it cannot read back. -/
theorem run_unreadable_largestComment :
    ManagedValues.new "/b" "/r" 4318 "/c" "t" = .ok (sampleValues "t") ∧
    (commentFile largestComment).bytes.length = maxConfigBytes ∧
    (∃ document updated, Accepted editor (sampleValues "t") (some (commentFile largestComment)) document updated) ∧
    ∃ d, Reaches device (Call.program editor "/config.toml") (fun _ _ => True) ⟨some (commentFile largestComment), none⟩ d ∧
      d.readConfig = .error (.tooLarge .config) ∧
      ∀ managed holder,
        exec device (connect editor "/config.toml" (some managed)) d = (d, .returned (.error (.tooLarge .config))) ∧
        exec device (status editor "/config.toml" holder) d = (d, .returned (.error (.tooLarge .config))) ∧
        exec device (disconnect editor "/config.toml" holder) d = (d, .returned (.error (.tooLarge .config))) := by
  have hsize := utf8ByteSize_largestComment
  have hconnect := exec_connect_limit hsize
  refine ⟨by decide +kernel, ?_, ⟨_, _, accepted_comment hsize.le⟩, overComment largestComment, ?_, ?_, ?_⟩
  · rw [commentFile, length_intoBytes, hsize]
  · have hends := ends_exec device (connect editor "/config.toml" (some (sampleValues "t")))
      ⟨some (commentFile largestComment), none⟩
    rw [hconnect] at hends
    exact .call (.refl _) (k := .connect (some (sampleValues "t"))) trivial hends
  · exact readConfig_overComment hsize _
  · exact fun managed holder => exec_of_snapshotState_error (readSnapshot_overComment hsize) (snapshotState_overComment hsize)

/-! ### Other values beside an operation that was not finished -/

theorem owned_smallComment : Owned editor "/config.toml" (some (commentFile smallComment)) (commentSnapshot smallComment) := by
  have hacc : Accepted editor (sampleValues "t") (some (commentFile smallComment)) { comment := smallComment }
      (withManaged smallComment (sampleValues "t")) := accepted_comment (by rw [utf8ByteSize_smallComment]; decide)
  obtain ⟨hbytes, hsize⟩ := freshFits_smallComment _ _ hacc
  exact .fresh lawful hacc hbytes hsize (by decide)

/-- `connect` dies when it has written the snapshot. -/
theorem ends_connect_smallComment : Ends device (connect editor "/config.toml" (some (sampleValues "t")))
    ⟨some (commentFile smallComment), none⟩ ⟨some (commentFile smallComment), some (commentSnapshot smallComment)⟩
    .crashed := by
  have hacc : Accepted editor (sampleValues "t") (some (commentFile smallComment)) { comment := smallComment }
      (withManaged smallComment (sampleValues "t")) := accepted_comment (by rw [utf8ByteSize_smallComment]; decide)
  have hdiffer : ¬ (existing (some (commentFile smallComment))).agrees
      (documentBytes editor (withManaged smallComment (sampleValues "t")))
      (existing (some (commentFile smallComment))).mode = true :=
    not_agrees_withManaged smallComment
  unfold connect connectManaged
  refine ends_bind_ok ?_ _ _ (exec_read_ok (f := fun d : Disk => .ok d.snapshot.isSome) rfl)
  simp only [Option.isSome_none, Bool.false_eq_true, if_false]
  unfold connectFresh
  refine ends_bind_ok ?_ _ _ (exec_read_ok (readConfig_eq hacc.readable))
  refine ends_bind_ok ?_ _ _ (exec_lift_ok hacc.parsed _)
  refine ends_bind_ok ?_ _ _ (exec_lift_ok hacc.unconflicted _)
  simp only [hacc.patched]
  unfold installManagedValues
  simp only [hdiffer, Bool.false_eq_true, if_false]
  exact ends_bind_ok .crashed _ _ (exec_createSnapshot owned_smallComment.size)

theorem run_crashed_smallComment : Run editor "/config.toml" (some (commentFile smallComment))
    ⟨some (commentFile smallComment), some (commentSnapshot smallComment)⟩ :=
  .call (.refl _) (k := .connect (some (sampleValues "t"))) freshFits_smallComment ends_connect_smallComment

theorem fingerprint_ne :
    (sampleValues "t").fingerprint editor true ≠ (sampleValues "u").fingerprint editor true := by
  simp only [ManagedValues.fingerprint, hash, Sha256.hexDigest_eq, Sha256.digest, intoBytes, editor, String.toList_ofList,
    ne_eq, String.ofList_inj]
  decide +kernel

end Samples

end AgentObservability.CodexConfig
