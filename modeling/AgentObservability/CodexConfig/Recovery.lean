import AgentObservability.CodexConfig.Execution

/-!
# Runs of the manager

A run is any sequence of connections, rotations, disconnections and inquiries, with
whatever managed values, each of which may fail at any of its changes and die
anywhere. As long as what `connect` writes fits (`Fits`), the two files belong
together at every instant (`consistent_run`), so that the prior configuration can be
had back from the snapshot.
-/

namespace AgentObservability.CodexConfig

open Foundation Foundation.Durable

/-- A call of the manager, with its managed values. -/
inductive Call where
  /-- `connect`. -/
  | connect (managed : Option ManagedValues)
  /-- `status`. -/
  | status (managed : Option ManagedValues)
  /-- `disconnect`. -/
  | disconnect (managed : Option ManagedValues)

section Runs

variable (toml : TomlEdit) (configPath : String)

/-- What a call does. -/
def Call.program : Call → Action ConnectionStatus
  | .connect managed => CodexConfig.connect toml configPath managed
  | .status managed => CodexConfig.status toml configPath managed
  | .disconnect managed => CodexConfig.disconnect toml configPath managed

/-- What a call writes can be read back. -/
def Call.Fits (d : Disk) : Call → Prop
  | .connect (some managed) => ConnectFits toml configPath managed d
  | _ => True

/-- The files that a run from a prior configuration comes to. -/
def Run (prior : Option File) (d : Disk) : Prop :=
  Reaches device (Call.program toml configPath) (Call.Fits toml configPath) ⟨prior, none⟩ d

variable {toml configPath} {prior config : Option File} {s : OwnershipSnapshot} {p : PendingRotation} {d t : Disk}
  {managed : ManagedValues} {holder : Option ManagedValues}

theorem consistent_freshTrace (law : toml.Lawful) (hfits : FreshFits toml configPath managed prior)
    (ht : FreshTrace toml configPath managed prior t) : Consistent toml configPath prior t := by
  cases ht with
  | idle => exact rfl
  | @recorded document updated hacc =>
    obtain ⟨hbytes, hsize⟩ := hfits _ _ hacc
    refine ⟨.fresh law hacc hbytes hsize (by decide), ?_⟩
    exact .inl (prior_freshSnapshot toml configPath managed prior document updated .prepared).symm
  | installed hacc hphase =>
    obtain ⟨hbytes, hsize⟩ := hfits _ _ hacc
    cases hphase with
    | inl h =>
      subst h
      exact ⟨.fresh law hacc hbytes hsize (by decide), .inr rfl⟩
    | inr h =>
      subst h
      exact ⟨.fresh law hacc hbytes hsize (by decide), rfl⟩

theorem consistent_finishTrace (h : Owned toml configPath prior s) (hp : s.pendingRotation = some p)
    (hv : s.Versions config) (ht : FinishTrace s p config t) : Consistent toml configPath prior t := by
  have hphase : s.phase = .rotating := h.valid.rotating.mpr (by rw [hp]; rfl)
  cases ht with
  | idle => exact ⟨h, hv⟩
  | applied =>
    refine ⟨h, ?_⟩
    simp only [OwnershipSnapshot.Versions, hphase, hp, Option.map_some]
    exact .inr trivial
  | finished => exact ⟨h.rotated hp, rfl⟩

theorem versions_connectedFile (hr : s.phase ≠ .rotating) : s.Versions (some s.connectedFile) := by
  unfold OwnershipSnapshot.Versions
  cases hphase : s.phase with
  | prepared | restoring => exact .inr rfl
  | connected => exact rfl
  | rotating => exact absurd hphase hr

theorem consistent_rotateTrace (law : toml.Lawful) (h : Owned toml configPath prior s) (hr : s.phase ≠ .rotating)
    (hfits : RotationFits toml managed s) (ht : RotateTrace toml managed s (some s.connectedFile) t) :
    Consistent toml configPath prior t := by
  cases ht with
  | idle => exact ⟨h, versions_connectedFile hr⟩
  | rotating hd hu hp hfinish =>
    obtain ⟨hbytes, hsize⟩ := hfits _ _ hd hu
    exact consistent_finishTrace (h.rotating law hu hbytes hsize) hp (.inl rfl) hfinish

theorem consistent_restoreTrace (h : Owned toml configPath prior s) (hr : s.phase ≠ .rotating) (ht : RestoreTrace s t) :
    Consistent toml configPath prior t := by
  have hrestoring : Owned toml configPath prior (s.inPhase .restoring) := h.inPhase hr (by decide)
  cases ht with
  | idle => exact ⟨h, versions_connectedFile hr⟩
  | restoring => exact ⟨hrestoring, .inr rfl⟩
  | restored => exact ⟨hrestoring, .inl rfl⟩
  | gone => exact h.prior_eq

/-- Every instant of `connect` has files that belong together. -/
theorem consistent_connectTrace (law : toml.Lawful) (h : Consistent toml configPath prior d)
    (hfits : ConnectFits toml configPath managed d) (ht : ConnectTrace toml configPath managed d t) :
    Consistent toml configPath prior t := by
  obtain ⟨config, snapshot⟩ := d
  cases ht with
  | idle => exact h
  | fresh hs ht =>
    cases hs
    cases h
    exact consistent_freshTrace law hfits ht
  | finish hs hp _ ht =>
    cases hs
    exact consistent_finishTrace h.1 hp h.2 ht
  | rotate hs hstate hf ht =>
    cases hs
    have hcases := stateOf_cases h.2
    rw [hstate] at hcases
    obtain ⟨hr, rfl⟩ := hcases
    simp only [ConnectFits, hstate] at hfits
    exact consistent_rotateTrace law h.1 hr (hfits hf) ht
  | settled hs hstate hf =>
    cases hs
    have hcases := stateOf_cases h.2
    rw [hstate] at hcases
    obtain ⟨hr, rfl⟩ := hcases
    exact ⟨Owned.inPhase h.1 hr (by decide), rfl⟩
  | again hs hstate hf ht =>
    cases hs
    have hcases := stateOf_cases h.2
    have hprior : config = prior := by
      cases hstate with
      | inl hstate | inr hstate =>
        rw [hstate] at hcases
        exact hcases.2.trans (Owned.prior_eq h.1)
    subst hprior
    refine consistent_freshTrace law ?_ ht
    cases hstate with
    | inl hstate | inr hstate =>
      simp only [ConnectFits, hstate] at hfits
      exact hfits hf

/-- Every instant of `disconnect` has files that belong together. -/
theorem consistent_disconnectTrace (h : Consistent toml configPath prior d) (ht : DisconnectTrace toml holder d t) :
    Consistent toml configPath prior t := by
  obtain ⟨config, snapshot⟩ := d
  cases ht with
  | idle => exact h
  | dropped hs _ hprior =>
    cases hs
    exact hprior.trans (Owned.prior_eq h.1)
  | finish hs _ hp ht =>
    cases hs
    exact consistent_finishTrace h.1 hp h.2 ht
  | restore hs _ hr _ ht =>
    cases hs
    exact consistent_restoreTrace h.1 hr ht
  | restoreRotated hs _ hp ht =>
    cases hs
    exact consistent_restoreTrace (Owned.rotated h.1 hp) (by simp [OwnershipSnapshot.rotated]) ht

/-- Every instant of `status` has files that belong together. -/
theorem consistent_statusTrace (h : Consistent toml configPath prior d) (ht : StatusTrace toml holder d t) :
    Consistent toml configPath prior t := by
  obtain ⟨config, snapshot⟩ := d
  cases ht with
  | idle => exact h
  | dropped hs hprior =>
    cases hs
    exact hprior.trans (Owned.prior_eq h.1)
  | finish hs hp ht =>
    cases hs
    exact consistent_finishTrace h.1 hp h.2 ht
  | settled hs hr hc =>
    cases hs
    obtain rfl : config = _ := hc
    exact ⟨Owned.inPhase h.1 hr (by decide), rfl⟩

/-- What a call keeps at every instant. -/
theorem keeps_program (law : toml.Lawful) (h : Consistent toml configPath prior d) (k : Call)
    (hfits : k.Fits toml configPath d) :
    Keeps device (Consistent toml configPath prior) (fun _ _ => True) (k.program toml configPath) d := by
  cases k with
  | connect managed =>
    cases managed with
    | none => exact keeps_throw h
    | some managed => exact keeps_connectManaged h fun t ht => consistent_connectTrace law h hfits ht
  | status managed => exact keeps_status h fun t ht => consistent_statusTrace h ht
  | disconnect managed =>
    exact (keeps_disconnect h fun t ht => consistent_disconnectTrace h ht).mono (fun _ h => h) fun _ _ _ => trivial

/-- **The two files belong together at every instant of a run.** -/
theorem consistent_run (law : toml.Lawful) (h : Run toml configPath prior d) : Consistent toml configPath prior d :=
  invariant_reaches (fun _ k hd hfits => keeps_program law hd k hfits) h rfl

end Runs

end AgentObservability.CodexConfig
