import AgentObservability.CodexConfig.Instants

/-!
# Operations that nothing disturbs

Where the two files belong together and nothing fails, an operation ends as it should:
`exec_disconnect` has the prior configuration back, `exec_connect_owned` and
`exec_connectFresh` have the manager's values in place, and `exec_status` settles what an
operation before it has left open.
-/

namespace AgentObservability.CodexConfig

open Foundation Foundation.Durable

section Execution

variable {toml : TomlEdit} {configPath : String} {prior config : Option File} {s s' : OwnershipSnapshot}
  {p : PendingRotation} {managed : ManagedValues} {holder : Option ManagedValues}

/-! ### The mutations -/

theorem effect_replaceConfig_ok {d : Disk} {expected : FileExpectation} {bytes : Bytes} {mode : ℕ}
    (hr : ∀ file ∈ d.config, file.Readable) (he : expected.agrees (existing d.config) = true) :
    device.effect (.replaceConfig expected bytes mode) d = .ok ⟨some ⟨bytes, mode⟩, d.snapshot⟩ := by
  simp [device, Mutation.effect, bind, Except.bind, readConfig_eq hr, he, pure, Except.pure]

theorem confirm_replaceConfig_ok {d : Disk} {expected : FileExpectation} {bytes : Bytes} {mode : ℕ}
    (hd : d.config = some ⟨bytes, mode⟩) (hr : (File.mk bytes mode).Readable) :
    device.confirm (.replaceConfig expected bytes mode) d = .ok () := by
  have hread := readConfig_eq (d := d) fun file hf => by
    rw [hd] at hf
    cases hf
    exact hr
  have hagrees : (existing d.config).agrees bytes mode = true := OwnershipSnapshot.agrees_existing.mpr hd
  simp [device, Mutation.confirm, bind, Except.bind, hread, hagrees, pure, Except.pure]

theorem effect_removeConfig_ok {d : Disk} {expected : FileExpectation}
    (hr : ∀ file ∈ d.config, file.Readable) (he : expected.agrees (existing d.config) = true) :
    device.effect (.removeConfig expected) d = .ok ⟨none, d.snapshot⟩ := by
  simp [device, Mutation.effect, bind, Except.bind, readConfig_eq hr, he, pure, Except.pure]

theorem readSnapshotFile_some (hs : s.size ≤ maxSnapshotBytes) :
    (Disk.mk config (some s)).readSnapshotFile = .ok (some s) := by
  simp [Disk.readSnapshotFile, Nat.not_lt.mpr hs]

theorem exec_writeSnapshot (h : s.size ≤ maxSnapshotBytes) (hs : s'.size ≤ maxSnapshotBytes) :
    exec device (writeSnapshot s' s) ⟨config, some s⟩ = (⟨config, some s'⟩, .returned (.ok s')) := by
  unfold writeSnapshot
  refine exec_bind_ok (exec_mutate_ok ?_ ?_)
  · simp [device, Mutation.effect, bind, Except.bind, readSnapshotFile_some h, pure, Except.pure]
  · simp [device, Mutation.confirm, bind, Except.bind, readSnapshotFile_some hs, pure, Except.pure]

theorem exec_createSnapshot (hs : s.size ≤ maxSnapshotBytes) :
    exec device (Prog.mutate (.replaceSnapshot none s)) ⟨config, none⟩ = (⟨config, some s⟩, .returned (.ok ())) := by
  refine exec_mutate_ok ?_ ?_
  · simp [device, Mutation.effect, bind, Except.bind, Disk.readSnapshotFile, pure, Except.pure]
  · simp [device, Mutation.confirm, bind, Except.bind, readSnapshotFile_some hs, pure, Except.pure]

theorem exec_removeSnapshot (h : s.size ≤ maxSnapshotBytes) :
    exec device (Prog.mutate (.removeSnapshot s)) ⟨config, some s⟩ = (⟨config, none⟩, .returned (.ok ())) := by
  refine exec_mutate_ok ?_ rfl
  simp [device, Mutation.effect, bind, Except.bind, readSnapshotFile_some h, pure, Except.pure]

/-! ### The parts of an operation -/

theorem exec_enterPhase (h : Owned toml configPath prior s) (hr : s.phase ≠ .rotating) {phase : SnapshotPhase}
    (hp : phase ≠ .rotating) :
    exec device (enterPhase s phase) ⟨config, some s⟩ =
      (⟨config, some (s.inPhase phase)⟩, .returned (.ok (s.inPhase phase))) := by
  unfold enterPhase
  by_cases hsame : s.phase = phase
  · have hs : s.inPhase phase = s := by rw [OwnershipSnapshot.inPhase, ← hsame]
    simp only [hsame, ne_eq, not_true_eq_false, if_false, hs, exec_pure]
  · simp only [ne_eq, hsame, not_false_eq_true, if_true]
    exact exec_writeSnapshot h.size (h.inPhase hr hp).size

/-- A rotation that was begun can be finished. -/
theorem exec_finishRotation (h : Owned toml configPath prior s) (hp : s.pendingRotation = some p)
    (hv : s.Versions config) :
    exec device (finishRotation s (s.stateOf config)) ⟨config, some s⟩ =
      (⟨some p.file, some (s.rotated p)⟩, .returned (.ok (s.rotated p))) := by
  have hphase : s.phase = .rotating := h.valid.rotating.mpr (by rw [hp]; rfl)
  have hwrite : exec device (writeSnapshot (s.rotated p) s) ⟨some p.file, some s⟩ =
      (⟨some p.file, some (s.rotated p)⟩, .returned (.ok (s.rotated p))) :=
    exec_writeSnapshot h.size (h.rotated hp).size
  have happly : exec device (applyRotation s (s.stateOf config)) ⟨config, some s⟩ =
      (⟨some p.file, some s⟩, .returned (.ok ())) := by
    by_cases hc : config = some s.connectedFile
    · have hstate : s.stateOf config = .rotationPrepared := by simp [OwnershipSnapshot.stateOf, hphase, hc]
      simp only [hstate, applyRotation, hp]
      refine exec_mutate_ok (effect_replaceConfig_ok (h.readable_of_versions hv) ?_)
        (confirm_replaceConfig_ok rfl (h.readable_pending hp))
      exact OwnershipSnapshot.agrees_existing.mpr hc
    · have hstate : s.stateOf config = .rotationApplied := by simp [OwnershipSnapshot.stateOf, hphase, hc]
      have hfile := applied_of_stateOf hv hp hstate
      simp only [hstate, applyRotation]
      rw [hfile]
      exact exec_pure () _
  unfold finishRotation
  rw [exec_bind_ok happly]
  simp only [hp]
  exact hwrite

theorem exec_settleRotation (h : Owned toml configPath prior s) (hp : s.pendingRotation = some p)
    (hv : s.Versions config) :
    exec device (settleRotation s (s.stateOf config)) ⟨config, some s⟩ =
      (⟨some p.file, some (s.rotated p)⟩, .returned (.ok (s.rotated p, .connected))) := by
  have hphase : s.phase = .rotating := h.valid.rotating.mpr (by rw [hp]; rfl)
  unfold settleRotation
  simp only [hphase, if_true]
  rw [exec_bind_ok (exec_finishRotation h hp hv), exec_pure]

theorem exec_settleRotation_of_ne (hr : s.phase ≠ .rotating) {state : SnapshotState} (d : Disk) :
    exec device (settleRotation s state) d = (d, .returned (.ok (s, state))) := by
  unfold settleRotation
  simp only [hr, if_false]
  exact exec_pure _ _

theorem exec_restoreMutation (h : Owned toml configPath prior s) (hr : s.phase ≠ .rotating) :
    exec device (Prog.attempt (restoreMutation (s.inPhase .restoring)))
      ⟨some s.connectedFile, some (s.inPhase .restoring)⟩ =
      (⟨s.prior, some (s.inPhase .restoring)⟩, .returned (.ok (.ok ()))) := by
  have howned : Owned toml configPath prior (s.inPhase .restoring) := h.inPhase hr (by decide)
  have hread : ∀ file ∈ (Disk.mk (some s.connectedFile) (some (s.inPhase .restoring))).config, file.Readable := by
    rintro _ ⟨⟩
    exact h.readable_connected
  have hexpected : (FileExpectation.present s.connectedBytes s.connectedMode).agrees (existing (some s.connectedFile)) = true :=
    OwnershipSnapshot.agrees_existing.mpr rfl
  have hprior := h.readable_prior
  unfold restoreMutation OwnershipSnapshot.prior at *
  cases hp : s.priorExisted with
  | true =>
    simp only [OwnershipSnapshot.inPhase, hp, if_true] at *
    exact exec_attempt_ok (effect_replaceConfig_ok hread hexpected)
      (confirm_replaceConfig_ok rfl (hprior _ rfl))
  | false =>
    simp only [OwnershipSnapshot.inPhase, hp] at *
    exact exec_attempt_ok (effect_removeConfig_ok hread hexpected) rfl

/-- A connected configuration is restored. -/
theorem exec_disconnectFrom_connected (h : Owned toml configPath prior s) (hr : s.phase ≠ .rotating) :
    exec device (disconnectFrom s .connected) ⟨some s.connectedFile, some s⟩ =
      (⟨prior, none⟩, .returned (.ok .disconnected)) := by
  have howned : Owned toml configPath prior (s.inPhase .restoring) := h.inPhase hr (by decide)
  unfold disconnectFrom
  simp only
  rw [exec_bind_ok (exec_enterPhase h hr (by decide))]
  unfold restorePrior
  rw [exec_bind_ok (exec_restoreMutation h hr)]
  simp only
  rw [exec_bind_ok (exec_removeSnapshot howned.size), ← h.prior_eq, exec_pure]

/-! ### The operations -/

/-- **A disconnection that nothing disturbs has the prior configuration back**, from any two files that belong
together and whose snapshot is the manager's. -/
theorem exec_disconnect {d : Disk} (h : Consistent toml configPath prior d)
    (hk : ∀ s ∈ d.snapshot, recognizes toml holder s = true) :
    exec device (disconnect toml configPath holder) d = (⟨prior, none⟩, .returned (.ok .disconnected)) := by
  obtain ⟨config, snapshot⟩ := d
  unfold disconnect
  rw [exec_bind_ok (exec_read_ok (f := fun d : Disk => .ok d.snapshot.isSome) rfl)]
  cases snapshot with
  | none =>
    cases h
    exact exec_pure _ _
  | some s =>
    have howned : Owned toml configPath prior s := h.1
    have hv : s.Versions config := h.2
    have hstate := stateOf_cases hv
    simp only [Option.isSome_some, if_true]
    unfold disconnectOwned
    rw [exec_bind_ok (exec_read_ok (howned.readSnapshot_eq rfl)), exec_bind_ok (exec_read_ok (howned.snapshotState_eq hv))]
    simp only [hk s rfl, if_true]
    by_cases hr : s.phase = .rotating
    · obtain ⟨p, hp⟩ := Option.isSome_iff_exists.mp (howned.valid.rotating.mp hr)
      rw [exec_bind_ok (exec_settleRotation howned hp hv)]
      exact exec_disconnectFrom_connected (howned.rotated hp) (by simp [OwnershipSnapshot.rotated])
    · rw [exec_bind_ok (exec_settleRotation_of_ne hr _)]
      cases hs : s.stateOf config with
      | preparedPrior | restoredPrior =>
        rw [hs] at hstate
        simp only [disconnectFrom]
        rw [exec_bind_ok (exec_removeSnapshot howned.size), exec_pure, hstate.2, howned.prior_eq]
      | connected =>
        rw [hs] at hstate
        obtain rfl := hstate.2
        exact exec_disconnectFrom_connected howned hr
      | rotationPrepared | rotationApplied =>
        rw [hs] at hstate
        exact absurd hstate.1 hr
      | conflict =>
        rw [hs] at hstate
        exact hstate.elim

/-- **A status that nothing disturbs is returned.** -/
theorem exec_status {d : Disk} (h : Consistent toml configPath prior d) :
    ∃ t status, exec device (CodexConfig.status toml configPath holder) d = (t, .returned (.ok status)) := by
  have howner : ∃ t status, exec device (ownershipStatus toml configPath holder) d = (t, .returned (.ok status)) := by
    obtain ⟨config, snapshot⟩ := d
    unfold ownershipStatus
    rw [exec_bind_ok (exec_read_ok (f := fun d : Disk => .ok d.snapshot.isSome) rfl)]
    cases snapshot with
    | none => exact ⟨_, _, exec_pure _ _⟩
    | some s =>
      have howned : Owned toml configPath prior s := h.1
      have hv : s.Versions config := h.2
      have hstate := stateOf_cases hv
      simp only [Option.isSome_some, if_true]
      unfold statusOwned
      rw [exec_bind_ok (exec_read_ok (howned.readSnapshot_eq rfl)), exec_bind_ok (exec_read_ok (howned.snapshotState_eq hv))]
      by_cases hk : recognizes toml holder s = true
      · have hno : s.stateOf config ≠ .conflict := by
          intro hc
          rw [hc] at hstate
          exact hstate
        simp only [hk, if_true, hno, and_false, if_false]
        by_cases hr : s.phase = .rotating
        · obtain ⟨p, hp⟩ := Option.isSome_iff_exists.mp (howned.valid.rotating.mp hr)
          rw [exec_bind_ok (exec_settleRotation howned hp hv)]
          unfold statusFrom
          exact ⟨_, _, exec_bind_ok (exec_enterPhase (howned.rotated hp) (by simp [OwnershipSnapshot.rotated]) (by decide))⟩
        · rw [exec_bind_ok (exec_settleRotation_of_ne hr _)]
          cases hs : s.stateOf config with
          | preparedPrior | restoredPrior =>
            simp only [statusFrom]
            exact ⟨_, _, exec_bind_ok (exec_removeSnapshot howned.size)⟩
          | connected =>
            simp only [statusFrom]
            exact ⟨_, _, exec_bind_ok (exec_enterPhase howned hr (by decide))⟩
          | rotationPrepared | rotationApplied =>
            rw [hs] at hstate
            exact absurd hstate.1 hr
          | conflict => exact absurd hs hno
      · simp only [hk]
        exact ⟨_, _, exec_pure _ _⟩
  obtain ⟨t, status, he⟩ := howner
  unfold CodexConfig.status
  exact ⟨t, _, (exec_bind_ok he).trans (exec_pure _ _)⟩

/-! ### Connecting -/

theorem ConnectedTo.of_rotated (h : Owned toml configPath prior s) (hp : s.pendingRotation = some p)
    (hf : p.managedFingerprint = managed.fingerprint toml s.ownsNotify) :
    ConnectedTo toml configPath prior managed ⟨some p.file, some (s.rotated p)⟩ :=
  ⟨s.rotated p, rfl, h.rotated hp, rfl, hf⟩

theorem exec_rotateConnected (law : toml.Lawful) (h : Owned toml configPath prior s)
    (hfits : RotationFits toml managed s) :
    ∃ t a, exec device (rotateConnected toml s managed) ⟨some s.connectedFile, some s⟩ = (t, .returned (.ok a)) ∧
      ConnectedTo toml configPath prior managed t := by
  obtain ⟨document, hd, htable⟩ := h.connected.table
  obtain ⟨updated, hu⟩ := replaceManagedValues_isSome law htable managed s.ownsNotify
  obtain ⟨hbytes, hsize⟩ := hfits document updated hd hu
  have hrotating := h.rotating law hu hbytes hsize
  obtain ⟨p, hp, hf⟩ : ∃ p, (s.rotating toml managed updated).pendingRotation = some p ∧
      p.managedFingerprint = managed.fingerprint toml s.ownsNotify := ⟨_, rfl, rfl⟩
  have hv : (s.rotating toml managed updated).Versions (some s.connectedFile) := .inl rfl
  have hstate : (s.rotating toml managed updated).stateOf (some s.connectedFile) = .rotationPrepared := if_pos rfl
  have hfinish := exec_finishRotation hrotating hp hv
  rw [hstate] at hfinish
  refine ⟨_, (s.rotating toml managed updated).rotated p, ?_, ConnectedTo.of_rotated hrotating hp hf⟩
  unfold rotateConnected
  rw [exec_bind_ok (exec_lift_ok hd _)]
  simp only [hu]
  rw [exec_bind_ok (exec_writeSnapshot h.size hrotating.size)]
  exact hfinish

theorem exec_connectFresh (law : toml.Lawful) {document updated : toml.Document}
    (h : Accepted toml managed prior document updated) (hfits : FreshFits toml configPath managed prior) :
    ∃ t, exec device (connectFresh toml configPath managed) ⟨prior, none⟩ = (t, .returned (.ok .connected)) ∧
      ConnectedTo toml configPath prior managed t := by
  obtain ⟨hbytes, hsize⟩ := hfits document updated h
  have hprepared : Owned toml configPath prior (freshSnapshot toml configPath managed prior document updated .prepared) :=
    .fresh law h hbytes hsize (by decide)
  have hconnected : Owned toml configPath prior (freshSnapshot toml configPath managed prior document updated .connected) :=
    .fresh law h hbytes hsize (by decide)
  have hd : ConnectedTo toml configPath prior managed
      ⟨some ⟨documentBytes toml updated, (existing prior).mode⟩,
        some (freshSnapshot toml configPath managed prior document updated .connected)⟩ :=
    ⟨_, rfl, hconnected, rfl, rfl⟩
  refine ⟨_, ?_, hd⟩
  unfold connectFresh
  rw [exec_bind_ok (exec_read_ok (readConfig_eq h.readable)), exec_bind_ok (exec_lift_ok h.parsed _),
    exec_bind_ok (exec_lift_ok h.unconflicted _)]
  simp only [h.patched]
  unfold installManagedValues
  by_cases ha : (existing prior).agrees (documentBytes toml updated) (existing prior).mode = true
  · simp only [ha, if_true]
    rw [exec_bind_ok (exec_createSnapshot hconnected.size), OwnershipSnapshot.agrees_existing.mp ha]
    exact exec_pure _ _
  · simp only [ha, Bool.false_eq_true, if_false]
    have hinstall : exec device (Prog.attempt (.replaceConfig (.fromExisting (existing prior)) (documentBytes toml updated)
        (existing prior).mode)) ⟨prior, some (freshSnapshot toml configPath managed prior document updated .prepared)⟩ =
        (⟨some ⟨documentBytes toml updated, (existing prior).mode⟩,
          some (freshSnapshot toml configPath managed prior document updated .prepared)⟩, .returned (.ok (.ok ()))) := by
      refine exec_attempt_ok (effect_replaceConfig_ok h.readable ?_)
        (confirm_replaceConfig_ok rfl hprepared.readable_connected)
      cases prior with
      | none => rfl
      | some file => exact OwnershipSnapshot.agrees_existing.mpr rfl
    rw [exec_bind_ok (exec_createSnapshot hprepared.size), exec_bind_ok hinstall]
    simp only
    exact (exec_bind_ok (exec_writeSnapshot hprepared.size hconnected.size)).trans (exec_pure _ _)

/-- **A connection that nothing disturbs has the managed values in place**, from any two files that belong together
and of which `connect` takes the values. -/
theorem exec_connectManaged (law : toml.Lawful) {d : Disk} (h : Consistent toml configPath prior d)
    (hc : Connectable toml managed d) (hfits : ConnectFits toml configPath managed d) :
    ∃ t, exec device (connectManaged toml configPath managed) d = (t, .returned (.ok .connected)) ∧
      ConnectedTo toml configPath prior managed t := by
  obtain ⟨config, snapshot⟩ := d
  cases snapshot with
  | none =>
    obtain ⟨document, updated, hacc⟩ := hc
    unfold connectManaged
    rw [exec_bind_ok (exec_read_ok (f := fun d : Disk => .ok d.snapshot.isSome) rfl)]
    obtain rfl : config = prior := h
    exact exec_connectFresh law hacc hfits
  | some s =>
    have howned : Owned toml configPath prior s := h.1
    have hv : s.Versions config := h.2
    have hstate := stateOf_cases hv
    have hread : ∀ t a, exec device (connectOwned toml managed s (s.stateOf config)) ⟨config, some s⟩ = (t, a) →
        exec device (connectExisting toml configPath managed) ⟨config, some s⟩ = (t, a) := by
      intro t a ht
      unfold connectExisting
      rw [exec_bind_ok (exec_read_ok (howned.readSnapshot_eq rfl)), exec_bind_ok (exec_read_ok (howned.snapshotState_eq hv)),
        rebaseConflict, if_neg (not_conflict_of_stateOf hv)]
      exact ht
    have hdone : ∀ t, exec device (connectOwned toml managed s (s.stateOf config)) ⟨config, some s⟩ =
        (t, .returned (.ok (some .connected))) → ConnectedTo toml configPath prior managed t →
        ∃ t, exec device (connectManaged toml configPath managed) ⟨config, some s⟩ = (t, .returned (.ok .connected)) ∧
          ConnectedTo toml configPath prior managed t := by
      intro t ht hto
      unfold connectManaged
      rw [exec_bind_ok (exec_read_ok (f := fun d : Disk => .ok d.snapshot.isSome) rfl)]
      simp only [Option.isSome_some, if_true]
      exact ⟨t, (exec_bind_ok (hread _ _ ht)).trans (exec_pure _ _), hto⟩
    unfold Connectable at hc
    unfold ConnectFits at hfits
    simp only at hc hfits
    by_cases hr : s.phase = .rotating
    · obtain ⟨p, hp⟩ := Option.isSome_iff_exists.mp (howned.valid.rotating.mp hr)
      have hf : s.pendingManagedFingerprint = some (managed.fingerprint toml s.ownsNotify) := by
        cases hs : s.stateOf config with
        | rotationPrepared | rotationApplied => simpa [hs] using hc
        | preparedPrior | restoredPrior | connected => simp [hs, hr] at hstate
        | conflict => simp [hs] at hstate
      refine hdone _ ?_ (.of_rotated howned hp (by simpa [OwnershipSnapshot.pendingManagedFingerprint, hp] using hf))
      unfold connectOwned
      simp only [hr, if_true, hf, ne_eq, not_true_eq_false, if_false]
      rw [exec_bind_ok (exec_finishRotation howned hp hv), exec_pure]
    · cases hs : s.stateOf config with
      | preparedPrior | restoredPrior =>
        rw [hs] at hstate
        simp only [hs] at hc hfits
        obtain ⟨hf, document, updated, hacc⟩ := hc
        obtain rfl : config = prior := hstate.2.trans howned.prior_eq
        have hnone : exec device (connectOwned toml managed s (s.stateOf config)) ⟨config, some s⟩ =
            (⟨config, none⟩, .returned (.ok none)) := by
          unfold connectOwned
          simp only [hr, if_false, hf, ne_eq, not_true_eq_false, hs]
          rw [exec_bind_ok (exec_removeSnapshot howned.size), exec_pure]
        unfold connectManaged
        rw [exec_bind_ok (exec_read_ok (f := fun d : Disk => .ok d.snapshot.isSome) rfl)]
        simp only [Option.isSome_some, if_true]
        rw [exec_bind_ok (hread _ _ hnone)]
        exact exec_connectFresh law hacc (hfits hf)
      | connected =>
        rw [hs] at hstate
        simp only [hs] at hfits
        obtain rfl := hstate.2
        by_cases hf : s.managedFingerprint = managed.fingerprint toml s.ownsNotify
        · refine hdone ⟨some s.connectedFile, some (s.inPhase .connected)⟩ ?_
            ⟨s.inPhase .connected, rfl, howned.inPhase hr (by decide), rfl, hf⟩
          unfold connectOwned
          simp only [hr, if_false, hf, ne_eq, not_true_eq_false, hs]
          rw [exec_bind_ok (exec_enterPhase howned hr (by decide)), exec_pure]
        · obtain ⟨t, a, ht, hto⟩ := exec_rotateConnected law howned (hfits hf)
          refine hdone t ?_ hto
          unfold connectOwned
          simp only [hr, if_false, hf, ne_eq, not_false_eq_true, if_true, hs, not_true_eq_false]
          rw [exec_bind_ok ht, exec_pure]
      | rotationPrepared | rotationApplied =>
        rw [hs] at hstate
        exact absurd hstate.1 hr
      | conflict =>
        rw [hs] at hstate
        exact hstate.elim

/-- Beside an operation that was not finished, `connect` refuses the values of another one. -/
theorem exec_connectManaged_refuses (h : Owned toml configPath prior s) (hv : s.Versions config)
    (hr : s.phase ≠ .rotating) (hs : s.stateOf config ≠ .connected)
    (hf : s.managedFingerprint ≠ managed.fingerprint toml s.ownsNotify) :
    exec device (connectManaged toml configPath managed) ⟨config, some s⟩ =
      (⟨config, some s⟩, .returned (.error .conflict)) := by
  unfold connectManaged
  rw [exec_bind_ok (exec_read_ok (f := fun d : Disk => .ok d.snapshot.isSome) rfl)]
  simp only [Option.isSome_some, if_true]
  refine exec_bind_error ?_
  unfold connectExisting
  rw [exec_bind_ok (exec_read_ok (h.readSnapshot_eq rfl)), exec_bind_ok (exec_read_ok (h.snapshotState_eq hv)),
    rebaseConflict, if_neg (not_conflict_of_stateOf hv)]
  refine (exec_bind_ok (exec_pure _ _)).trans ?_
  unfold connectOwned
  simp only [hr, if_false, hf, ne_eq, not_false_eq_true, if_true, hs]
  exact exec_throw _ _

/-- Where the configuration cannot be looked at, every operation fails. -/
theorem exec_of_snapshotState_error {d : Disk} {e : ConfigError} (hs : d.readSnapshot configPath = .ok s)
    (he : d.snapshotState s = .error e) :
    exec device (connectManaged toml configPath managed) d = (d, .returned (.error e)) ∧
      exec device (status toml configPath holder) d = (d, .returned (.error e)) ∧
      exec device (disconnect toml configPath holder) d = (d, .returned (.error e)) := by
  have hsome : d.snapshot.isSome = true := by
    cases hd : d.snapshot with
    | none => simp [Disk.readSnapshot, Disk.readSnapshotFile, hd, bind, Except.bind, throw, throwThe,
        MonadExceptOf.throw] at hs
    | some s => rfl
  have hread : exec device (Prog.read fun d : Disk => .ok d.snapshot.isSome) d = (d, .returned (.ok true)) :=
    exec_read_ok (f := fun d : Disk => .ok d.snapshot.isSome) (congrArg _ hsome)
  have hstate : exec device (Prog.read (Disk.snapshotState s)) d = (d, .returned (.error e)) := exec_read_error he
  refine ⟨?_, ?_, ?_⟩
  · unfold connectManaged
    rw [exec_bind_ok hread]
    simp only [if_true]
    refine exec_bind_error ?_
    unfold connectExisting
    rw [exec_bind_ok (exec_read_ok hs), exec_bind_error hstate]
  · unfold status
    refine exec_bind_error ?_
    unfold ownershipStatus
    rw [exec_bind_ok hread]
    simp only [if_true]
    unfold statusOwned
    rw [exec_bind_ok (exec_read_ok hs), exec_bind_error hstate]
  · unfold disconnect
    rw [exec_bind_ok hread]
    simp only [if_true]
    unfold disconnectOwned
    rw [exec_bind_ok (exec_read_ok hs), exec_bind_error hstate]

end Execution

end AgentObservability.CodexConfig
