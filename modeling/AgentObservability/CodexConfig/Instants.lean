import AgentObservability.CodexConfig.Ownership

/-!
# The instants of an operation

The pairs of files that an operation passes, whatever fails and wherever its process
dies. Each trace lists them for a part of an operation, and `keeps_connect` and
`keeps_disconnect` put the parts together.
-/

namespace AgentObservability.CodexConfig

open Foundation Foundation.Durable

/-! ### The mutations -/

section Mutations

variable {d d' : Disk} {expected : FileExpectation} {bytes : Bytes} {mode : ℕ} {s : OwnershipSnapshot}

theorem effect_replaceConfig (h : device.effect (.replaceConfig expected bytes mode) d = .ok d') :
    d' = ⟨some ⟨bytes, mode⟩, d.snapshot⟩ := by
  simp only [device, Mutation.effect, bind, Except.bind] at h
  cases hr : d.readConfig with
  | error e => simp [hr] at h
  | ok current =>
    simp only [hr] at h
    split_ifs at h
    cases h
    rfl

theorem effect_removeConfig (h : device.effect (.removeConfig expected) d = .ok d') : d' = ⟨none, d.snapshot⟩ := by
  simp only [device, Mutation.effect, bind, Except.bind] at h
  cases hr : d.readConfig with
  | error e => simp [hr] at h
  | ok current =>
    simp only [hr] at h
    split_ifs at h
    cases h
    rfl

theorem effect_replaceSnapshot {expected : Option OwnershipSnapshot}
    (h : device.effect (.replaceSnapshot expected s) d = .ok d') : d' = ⟨d.config, some s⟩ := by
  simp only [device, Mutation.effect, bind, Except.bind] at h
  cases hr : d.readSnapshotFile with
  | error e => simp [hr] at h
  | ok current =>
    simp only [hr] at h
    split_ifs at h
    cases h
    rfl

theorem effect_removeSnapshot (h : device.effect (.removeSnapshot s) d = .ok d') : d' = ⟨d.config, none⟩ := by
  simp only [device, Mutation.effect, bind, Except.bind] at h
  cases hr : d.readSnapshotFile with
  | error e => simp [hr] at h
  | ok current =>
    simp only [hr] at h
    split_ifs at h
    cases h
    rfl

end Mutations

section Keeps

variable {toml : TomlEdit} {configPath : String} {I : Disk → Prop} {config : Option File} {s : OwnershipSnapshot}
  {p : PendingRotation} {state : SnapshotState} {managed : ManagedValues}

theorem keeps_writeSnapshot {s₀ : OwnershipSnapshot} {c : Option OwnershipSnapshot} (h : I ⟨config, c⟩)
    (hs : I ⟨config, some s⟩) :
    Keeps device I (fun t a => t = ⟨config, some s⟩ ∧ a = s) (writeSnapshot s s₀) ⟨config, c⟩ := by
  refine keeps_bind (keeps_mutate h ?_)
  intro t ht
  cases effect_replaceSnapshot ht
  exact ⟨hs, keeps_pure hs ⟨rfl, rfl⟩⟩

theorem keeps_enterPhase {phase : SnapshotPhase} (h : I ⟨config, some s⟩) (hs : I ⟨config, some (s.inPhase phase)⟩) :
    Keeps device I (fun t a => t = ⟨config, some (s.inPhase phase)⟩ ∧ a = s.inPhase phase) (enterPhase s phase)
      ⟨config, some s⟩ := by
  unfold enterPhase
  by_cases hp : s.phase = phase
  · have hsame : s.inPhase phase = s := by rw [OwnershipSnapshot.inPhase, ← hp]
    simp only [hp, ne_eq, not_true_eq_false, if_false]
    exact keeps_pure h ⟨by rw [hsame], hsame.symm⟩
  · simp only [ne_eq, hp, not_false_eq_true, if_true]
    exact keeps_writeSnapshot h hs

theorem keeps_removeSnapshot {R : Disk → Unit → Prop} (h : I ⟨config, some s⟩) (hs : I ⟨config, none⟩)
    (hR : R ⟨config, none⟩ ()) : Keeps device I R (Prog.mutate (.removeSnapshot s)) ⟨config, some s⟩ := by
  refine keeps_mutate h fun t ht => ?_
  cases effect_removeSnapshot ht
  exact ⟨hs, hR⟩

/-- The instants of `finish_rotation`. -/
inductive FinishTrace (s : OwnershipSnapshot) (p : PendingRotation) (config : Option File) : Disk → Prop
  | idle : FinishTrace s p config ⟨config, some s⟩
  | applied : FinishTrace s p config ⟨some p.file, some s⟩
  | finished : FinishTrace s p config ⟨some p.file, some (s.rotated p)⟩

theorem keeps_finishRotation (hp : s.pendingRotation = some p) (hI : ∀ t, FinishTrace s p config t → I t)
    (happlied : state = .rotationApplied → config = some p.file) :
    Keeps device I (fun t a => t = ⟨some p.file, some (s.rotated p)⟩ ∧ a = s.rotated p) (finishRotation s state)
      ⟨config, some s⟩ := by
  have hwrite : Keeps device I (fun t a => t = ⟨some p.file, some (s.rotated p)⟩ ∧ a = s.rotated p)
      (writeSnapshot (s.rotated p) s) ⟨some p.file, some s⟩ :=
    keeps_writeSnapshot (hI _ .applied) (hI _ .finished)
  unfold finishRotation
  apply keeps_bind
  simp only [hp]
  cases state with
  | rotationPrepared =>
    simp only [applyRotation, hp]
    refine keeps_mutate (hI _ .idle) fun t ht => ?_
    cases effect_replaceConfig ht
    exact ⟨hI _ .applied, hwrite⟩
  | rotationApplied =>
    cases happlied rfl
    exact keeps_pure (hI _ .idle) hwrite
  | preparedPrior | connected | restoredPrior | conflict => exact keeps_throw (hI _ .idle)

/-- The instants of `rotate_connected`. -/
inductive RotateTrace (toml : TomlEdit) (managed : ManagedValues) (s : OwnershipSnapshot) (config : Option File) :
    Disk → Prop
  | idle : RotateTrace toml managed s config ⟨config, some s⟩
  | rotating {document updated : toml.Document} {t : Disk} {p : PendingRotation} :
      parseDocument toml s.connectedBytes = .ok document →
      replaceManagedValues toml document managed s.ownsNotify = some updated →
      (s.rotating toml managed updated).pendingRotation = some p →
      FinishTrace (s.rotating toml managed updated) p config t → RotateTrace toml managed s config t

theorem keeps_rotateConnected (hI : ∀ t, RotateTrace toml managed s config t → I t) :
    Keeps device I (fun _ _ => True) (rotateConnected toml s managed) ⟨config, some s⟩ := by
  unfold rotateConnected
  refine keeps_bind (keeps_lift (hI _ .idle) fun document hd => ?_)
  cases hr : replaceManagedValues toml document managed s.ownsNotify with
  | none => exact keeps_abort (hI _ .idle)
  | some updated =>
    obtain ⟨p, hp⟩ : ∃ p, (s.rotating toml managed updated).pendingRotation = some p := ⟨_, rfl⟩
    have htrace : ∀ t, FinishTrace (s.rotating toml managed updated) p config t → I t :=
      fun t ht => hI t (.rotating hd hr hp ht)
    have hfinish := keeps_finishRotation hp htrace fun h : SnapshotState.rotationPrepared = .rotationApplied => by cases h
    refine keeps_bind ((keeps_writeSnapshot (hI _ .idle) (htrace _ .idle)).mono (fun _ h => h) ?_)
    rintro _ _ ⟨rfl, rfl⟩
    exact hfinish.mono (fun _ h => h) fun _ _ _ => trivial

/-- What `snapshot_state` looks at is what is there. -/
theorem current_of_currentFor {d : Disk} {current : ExistingFile} (h : d.currentFor s = .ok (some current)) :
    current = existing d.config := by
  unfold Disk.currentFor at h
  cases hd : d.config with
  | none =>
    rw [hd] at h
    cases h
    rfl
  | some file =>
    simp only [hd] at h
    by_cases hm : file.mode = s.connectedMode
    · simp only [hm, ne_eq, not_true_eq_false, if_false] at h
      cases hr : d.readConfig with
      | error e => simp [hr] at h
      | ok read =>
        rw [hr] at h
        cases h
        rw [← hd]
        exact (readable_of_readConfig hr).1
    · simp [hm] at h

/-- The manager takes a configuration for the prior one only when it is. -/
theorem config_of_snapshotState {d : Disk} (h : d.snapshotState s = .ok state)
    (hs : state = .preparedPrior ∨ state = .restoredPrior) : d.config = s.prior := by
  unfold Disk.snapshotState at h
  cases hc : d.currentFor s with
  | error e => simp [hc, bind, Except.bind] at h
  | ok current =>
    cases current with
    | none =>
      simp only [hc, bind, Except.bind, pure, Except.pure, Except.ok.injEq] at h
      simp [← h] at hs
    | some current =>
      rw [← OwnershipSnapshot.matchesPrior_existing, ← current_of_currentFor hc]
      by_contra hn
      simp only [hc, bind, Except.bind, pure, Except.pure, hn, and_false, if_false] at h
      cases hp : s.matchesPending current with
      | error e =>
        simp only [hp] at h
        split_ifs at h <;> cases h <;> simp at hs
      | ok pending =>
        simp only [hp] at h
        split_ifs at h <;> cases h <;> simp at hs

/-- The instants of `connect` without a snapshot. -/
inductive FreshTrace (toml : TomlEdit) (configPath : String) (managed : ManagedValues) (config : Option File) :
    Disk → Prop
  | idle : FreshTrace toml configPath managed config ⟨config, none⟩
  | recorded {document updated : toml.Document} : Accepted toml managed config document updated →
      FreshTrace toml configPath managed config
        ⟨config, some (freshSnapshot toml configPath managed config document updated .prepared)⟩
  | installed {document updated : toml.Document} {phase : SnapshotPhase} :
      Accepted toml managed config document updated → phase = .prepared ∨ phase = .connected →
      FreshTrace toml configPath managed config
        ⟨some ⟨documentBytes toml updated, (existing config).mode⟩,
          some (freshSnapshot toml configPath managed config document updated phase)⟩

theorem prior_freshSnapshot (toml : TomlEdit) (configPath : String) (managed : ManagedValues) (config : Option File)
    (document updated : toml.Document) (phase : SnapshotPhase) :
    (freshSnapshot toml configPath managed config document updated phase).prior = config := by
  cases config with
  | none => rfl
  | some file => rfl

theorem keeps_rollbackConnect {error : ConfigError} (hI : I ⟨config, some s⟩)
    (hnone : config = s.prior → I ⟨config, none⟩) :
    Keeps device I (fun _ _ => True) (rollbackConnect s error) ⟨config, some s⟩ := by
  unfold rollbackConnect
  refine keeps_bind (keeps_read hI fun state hs => ?_)
  cases state with
  | preparedPrior =>
    have hprior := hnone (config_of_snapshotState hs (.inl rfl))
    refine keeps_bind (keeps_attempt hI (fun _ => keeps_throw hI) fun t ht => ?_)
    cases effect_removeSnapshot ht
    refine ⟨hprior, fun r => ?_⟩
    cases r with
    | error e => exact keeps_throw hprior
    | ok _ => exact keeps_throw hprior
  | connected | rotationPrepared | rotationApplied | restoredPrior | conflict => exact keeps_throw hI

theorem keeps_connectFresh (hI : ∀ t, FreshTrace toml configPath managed config t → I t) :
    Keeps device I (fun _ _ => True) (connectFresh toml configPath managed) ⟨config, none⟩ := by
  unfold connectFresh
  refine keeps_bind (keeps_read (hI _ .idle) fun prior hr => ?_)
  obtain ⟨rfl, hreadable⟩ := readable_of_readConfig hr
  refine keeps_bind (keeps_lift (hI _ .idle) fun document hd => ?_)
  refine keeps_bind (keeps_lift (hI _ .idle) fun _ hu => ?_)
  cases hp : patchManagedValues toml document managed (takesNotify toml document managed) with
  | none => exact keeps_abort (hI _ .idle)
  | some updated =>
    have hacc : Accepted toml managed config document updated := ⟨hreadable, hd, hu, hp⟩
    simp only
    unfold installManagedValues
    by_cases ha : (existing config).agrees (documentBytes toml updated) (existing config).mode = true
    · simp only [ha, if_true]
      have hinstalled := hI _ (.installed hacc (.inr rfl))
      rw [← OwnershipSnapshot.agrees_existing.mp ha] at hinstalled
      refine keeps_bind (keeps_mutate (hI _ .idle) fun t ht => ?_)
      cases effect_replaceSnapshot ht
      exact ⟨hinstalled, keeps_pure hinstalled trivial⟩
    · simp only [ha]
      refine keeps_bind (keeps_mutate (hI _ .idle) fun t ht => ?_)
      cases effect_replaceSnapshot ht
      refine ⟨hI _ (.recorded hacc), ?_⟩
      have hrollback : ∀ error t, t = config ∨ t = some ⟨documentBytes toml updated, (existing config).mode⟩ →
          Keeps device I (fun _ _ => True)
            (rollbackConnect (freshSnapshot toml configPath managed config document updated .prepared) error)
            ⟨t, some (freshSnapshot toml configPath managed config document updated .prepared)⟩ := by
        intro error t ht
        refine keeps_rollbackConnect ?_ fun hprior => ?_
        · cases ht with
          | inl h =>
            rw [h]
            exact hI _ (.recorded hacc)
          | inr h =>
            rw [h]
            exact hI _ (.installed hacc (.inl rfl))
        · rw [hprior, prior_freshSnapshot]
          exact hI _ .idle
      refine keeps_bind (keeps_attempt (hI _ (.recorded hacc)) (fun e => hrollback e _ (.inl rfl)) fun t ht => ?_)
      cases effect_replaceConfig ht
      refine ⟨hI _ (.installed hacc (.inl rfl)), fun r => ?_⟩
      cases r with
      | error e => exact hrollback e _ (.inr rfl)
      | ok _ =>
        refine keeps_bind ((keeps_writeSnapshot (hI _ (.installed hacc (.inl rfl)))
          (hI _ (.installed hacc (.inr rfl)))).mono (fun _ h => h) ?_)
        rintro _ _ ⟨rfl, rfl⟩
        exact keeps_pure (hI _ (.installed hacc (.inr rfl))) trivial

/-- The instants of `connect`. -/
inductive ConnectTrace (toml : TomlEdit) (configPath : String) (managed : ManagedValues) (d : Disk) : Disk → Prop
  | idle : ConnectTrace toml configPath managed d d
  | fresh {t : Disk} : d.snapshot = none → FreshTrace toml configPath managed d.config t →
      ConnectTrace toml configPath managed d t
  | finish {s : OwnershipSnapshot} {p : PendingRotation} {t : Disk} : d.snapshot = some s → s.pendingRotation = some p →
      p.managedFingerprint = managed.fingerprint toml s.ownsNotify → FinishTrace s p d.config t →
      ConnectTrace toml configPath managed d t
  | rotate {s : OwnershipSnapshot} {t : Disk} : d.snapshot = some s → s.stateOf d.config = .connected →
      s.managedFingerprint ≠ managed.fingerprint toml s.ownsNotify → RotateTrace toml managed s d.config t →
      ConnectTrace toml configPath managed d t
  | settled {s : OwnershipSnapshot} : d.snapshot = some s → s.stateOf d.config = .connected →
      s.managedFingerprint = managed.fingerprint toml s.ownsNotify →
      ConnectTrace toml configPath managed d ⟨d.config, some (s.inPhase .connected)⟩
  | again {s : OwnershipSnapshot} {t : Disk} : d.snapshot = some s →
      s.stateOf d.config = .preparedPrior ∨ s.stateOf d.config = .restoredPrior →
      s.managedFingerprint = managed.fingerprint toml s.ownsNotify →
      FreshTrace toml configPath managed d.config t → ConnectTrace toml configPath managed d t

variable {prior : Option File}

/-- What the states that the manager sees say about the configuration. -/
theorem stateOf_cases (hv : s.Versions config) :
    match s.stateOf config with
    | .preparedPrior | .restoredPrior => (s.phase = .prepared ∨ s.phase = .restoring) ∧ config = s.prior
    | .connected => s.phase ≠ .rotating ∧ config = some s.connectedFile
    | .rotationPrepared => s.phase = .rotating ∧ config = some s.connectedFile
    | .rotationApplied => s.phase = .rotating ∧ config = s.pendingRotation.map PendingRotation.file
    | .conflict => False := by
  unfold OwnershipSnapshot.Versions at hv
  unfold OwnershipSnapshot.stateOf
  cases hphase : s.phase with
  | prepared | restoring =>
    simp only [hphase] at hv
    by_cases hp : config = s.prior
    · simp [hp]
    · simp only [hp, if_false]
      exact ⟨by simp, hv.resolve_left hp⟩
  | connected =>
    simp only [hphase] at hv
    simp [hv]
  | rotating =>
    simp only [hphase] at hv
    by_cases hc : config = some s.connectedFile
    · simp [hc]
    · simp only [hc, if_false, true_and]
      exact hv.resolve_left hc

theorem not_conflict_of_stateOf (hv : s.Versions config) : ¬ (s.stateOf config = .conflict ∧ s.phase = .connected) := by
  rintro ⟨hc, _⟩
  have hstate := stateOf_cases hv
  rw [hc] at hstate
  exact hstate

theorem applied_of_stateOf (hv : s.Versions config) (hp : s.pendingRotation = some p)
    (hs : s.stateOf config = .rotationApplied) : config = some p.file := by
  have hstate := stateOf_cases hv
  rw [hs] at hstate
  simpa [hp] using hstate.2

theorem keeps_connectOwned (h : Owned toml configPath prior s) (hv : s.Versions config)
    (hI : ∀ t, ConnectTrace toml configPath managed ⟨config, some s⟩ t → I t) :
    Keeps device I (fun t a => a = none → t = ⟨config, none⟩ ∧
      (s.stateOf config = .preparedPrior ∨ s.stateOf config = .restoredPrior) ∧
      s.managedFingerprint = managed.fingerprint toml s.ownsNotify)
      (connectOwned toml managed s (s.stateOf config)) ⟨config, some s⟩ := by
  have hstate := stateOf_cases hv
  unfold connectOwned
  by_cases hr : s.phase = .rotating
  · obtain ⟨p, hp⟩ := Option.isSome_iff_exists.mp (h.valid.rotating.mp hr)
    simp only [hr, if_true]
    by_cases hf : s.pendingManagedFingerprint = some (managed.fingerprint toml s.ownsNotify)
    · simp only [hf, ne_eq, not_true_eq_false, if_false]
      have hpf : p.managedFingerprint = managed.fingerprint toml s.ownsNotify := by
        simpa [OwnershipSnapshot.pendingManagedFingerprint, hp] using hf
      refine keeps_bind ((keeps_finishRotation hp (fun t ht => hI t (.finish rfl hp hpf ht))
        (applied_of_stateOf hv hp)).mono (fun _ h => h) ?_)
      rintro _ _ ⟨rfl, rfl⟩
      exact keeps_pure (hI _ (.finish rfl hp hpf .finished)) nofun
    · simp only [ne_eq, hf, not_false_eq_true, if_true]
      exact keeps_throw (hI _ .idle)
  · simp only [hr, if_false]
    by_cases hf : s.managedFingerprint = managed.fingerprint toml s.ownsNotify
    · simp only [hf, ne_eq, not_true_eq_false, if_false]
      cases hs : s.stateOf config with
      | preparedPrior | restoredPrior =>
        have hnone := hI _ (.again rfl (by simp [hs]) hf .idle)
        refine keeps_bind (keeps_removeSnapshot (hI _ .idle) hnone ?_)
        exact keeps_pure hnone fun _ => ⟨rfl, by simp, trivial⟩
      | connected =>
        have hsettled := hI _ (.settled rfl hs hf)
        refine keeps_bind ((keeps_enterPhase (hI _ .idle) hsettled).mono (fun _ h => h) ?_)
        rintro _ _ ⟨rfl, rfl⟩
        exact keeps_pure hsettled nofun
      | rotationPrepared | rotationApplied | conflict => exact keeps_throw (hI _ .idle)
    · simp only [ne_eq, hf, not_false_eq_true, if_true]
      cases hs : s.stateOf config with
      | connected =>
        simp only [not_true_eq_false, if_false]
        refine keeps_bind ((keeps_rotateConnected fun t ht =>
          hI t (.rotate rfl hs hf ht)).and_invariant.mono (fun _ h => h) ?_)
        exact fun _ _ ht => keeps_pure ht.1 nofun
      | preparedPrior | restoredPrior | rotationPrepared | rotationApplied | conflict => exact keeps_throw (hI _ .idle)

theorem keeps_connectExisting (h : Owned toml configPath prior s) (hv : s.Versions config)
    (hI : ∀ t, ConnectTrace toml configPath managed ⟨config, some s⟩ t → I t) :
    Keeps device I (fun t a => a = none → t = ⟨config, none⟩ ∧
      (s.stateOf config = .preparedPrior ∨ s.stateOf config = .restoredPrior) ∧
      s.managedFingerprint = managed.fingerprint toml s.ownsNotify)
      (connectExisting toml configPath managed) ⟨config, some s⟩ := by
  have hidle : I ⟨config, some s⟩ := hI _ .idle
  unfold connectExisting
  refine keeps_bind (keeps_read hidle fun snapshot hs => ?_)
  obtain rfl : s = snapshot := Except.ok.inj ((h.readSnapshot_eq rfl).symm.trans hs)
  refine keeps_bind (keeps_read hidle fun state hs => ?_)
  obtain rfl : s.stateOf config = state := Except.ok.inj ((h.snapshotState_eq hv).symm.trans hs)
  rw [rebaseConflict, if_neg (not_conflict_of_stateOf hv)]
  exact keeps_connectOwned h hv hI

/-- **The instants of `connect`**, from two files that belong together. -/
theorem keeps_connectManaged {d : Disk} (h : Consistent toml configPath prior d)
    (hI : ∀ t, ConnectTrace toml configPath managed d t → I t) :
    Keeps device I (fun _ _ => True) (connectManaged toml configPath managed) d := by
  obtain ⟨config, snapshot⟩ := d
  unfold connectManaged
  refine keeps_bind (keeps_read (hI _ .idle) fun existing he => ?_)
  cases he
  cases snapshot with
  | none => exact keeps_connectFresh fun t ht => hI t (.fresh rfl ht)
  | some s =>
    refine keeps_bind ((keeps_connectExisting h.1 h.2 hI).and_invariant.mono (fun _ h => h) fun t status ht => ?_)
    cases status with
    | some status => exact keeps_pure ht.1 trivial
    | none =>
      obtain ⟨rfl, hstate, hf⟩ := ht.2 rfl
      exact keeps_connectFresh fun t ht => hI t (.again rfl hstate hf ht)

/-- The instants of `disconnect` from a connected configuration. -/
inductive RestoreTrace (s : OwnershipSnapshot) : Disk → Prop
  | idle : RestoreTrace s ⟨some s.connectedFile, some s⟩
  | restoring : RestoreTrace s ⟨some s.connectedFile, some (s.inPhase .restoring)⟩
  | restored : RestoreTrace s ⟨s.prior, some (s.inPhase .restoring)⟩
  | gone : RestoreTrace s ⟨s.prior, none⟩

theorem effect_restoreMutation {d d' : Disk} (h : device.effect (restoreMutation s) d = .ok d') :
    d' = ⟨s.prior, d.snapshot⟩ := by
  unfold restoreMutation at h
  unfold OwnershipSnapshot.prior
  cases hp : s.priorExisted with
  | true =>
    simp only [hp, if_true] at h
    exact effect_replaceConfig h
  | false =>
    simp only [hp] at h
    exact effect_removeConfig h

theorem keeps_restorePrior (hI : ∀ t, RestoreTrace s t → I t) :
    Keeps device I (fun t _ => t = ⟨s.prior, none⟩) (restorePrior (s.inPhase .restoring))
      ⟨some s.connectedFile, some (s.inPhase .restoring)⟩ := by
  have hremove : Keeps device I (fun t _ => t = ⟨s.prior, none⟩)
      (do Prog.mutate (.removeSnapshot (s.inPhase .restoring)); return ConnectionStatus.disconnected)
      ⟨s.prior, some (s.inPhase .restoring)⟩ :=
    keeps_bind (keeps_removeSnapshot (hI _ .restored) (hI _ .gone) (keeps_pure (hI _ .gone) rfl))
  have herror : ∀ (config : Option File) (next : SnapshotState → Action ConnectionStatus),
      config = some s.connectedFile ∨ config = s.prior →
      (next .restoredPrior = do
        Prog.mutate (.removeSnapshot (s.inPhase .restoring))
        return ConnectionStatus.disconnected) →
      (∀ state ≠ .restoredPrior, ∃ error, next state = Prog.throw error) →
      Keeps device I (fun t _ => t = ⟨s.prior, none⟩) (Prog.read (Disk.snapshotState (s.inPhase .restoring)) >>= next)
        ⟨config, some (s.inPhase .restoring)⟩ := by
    intro config next hc hgone hfails
    have hidle : I ⟨config, some (s.inPhase .restoring)⟩ := by
      cases hc with
      | inl h =>
        rw [h]
        exact hI _ .restoring
      | inr h =>
        rw [h]
        exact hI _ .restored
    refine keeps_bind (keeps_read hidle fun state hs => ?_)
    by_cases hrestored : state = .restoredPrior
    · subst hrestored
      have hprior : config = s.prior := config_of_snapshotState hs (.inr rfl)
      rw [hprior, hgone]
      exact hremove
    · obtain ⟨error, hthrow⟩ := hfails state hrestored
      rw [hthrow]
      exact keeps_throw hidle
  unfold restorePrior
  refine keeps_bind (keeps_attempt (hI _ .restoring) (fun e => ?_) fun t ht => ?_)
  · refine herror _ _ (.inl rfl) rfl fun state hne => ?_
    cases state with
    | restoredPrior => exact absurd rfl hne
    | _ => exact ⟨_, rfl⟩
  · cases effect_restoreMutation ht
    refine ⟨hI _ .restored, fun r => ?_⟩
    cases r with
    | error e =>
      refine herror _ _ (.inr rfl) rfl fun state hne => ?_
      cases state with
      | restoredPrior => exact absurd rfl hne
      | _ => exact ⟨_, rfl⟩
    | ok _ => exact hremove

theorem keeps_disconnectFrom_connected (hI : ∀ t, RestoreTrace s t → I t) :
    Keeps device I (fun t _ => t = ⟨s.prior, none⟩) (disconnectFrom s .connected) ⟨some s.connectedFile, some s⟩ := by
  unfold disconnectFrom
  refine keeps_bind ((keeps_enterPhase (hI _ .idle) (hI _ .restoring)).mono (fun _ h => h) ?_)
  rintro _ _ ⟨rfl, rfl⟩
  exact keeps_restorePrior hI

/-- The instants of `disconnect`. -/
inductive DisconnectTrace (toml : TomlEdit) (managed : Option ManagedValues) (d : Disk) : Disk → Prop
  | idle : DisconnectTrace toml managed d d
  | dropped {s : OwnershipSnapshot} : d.snapshot = some s → recognizes toml managed s = true → d.config = s.prior →
      DisconnectTrace toml managed d ⟨d.config, none⟩
  | finish {s : OwnershipSnapshot} {p : PendingRotation} {t : Disk} : d.snapshot = some s →
      recognizes toml managed s = true → s.pendingRotation = some p → FinishTrace s p d.config t →
      DisconnectTrace toml managed d t
  | restore {s : OwnershipSnapshot} {t : Disk} : d.snapshot = some s → recognizes toml managed s = true →
      s.phase ≠ .rotating → d.config = some s.connectedFile → RestoreTrace s t → DisconnectTrace toml managed d t
  | restoreRotated {s : OwnershipSnapshot} {p : PendingRotation} {t : Disk} : d.snapshot = some s →
      recognizes toml managed s = true → s.pendingRotation = some p → RestoreTrace (s.rotated p) t →
      DisconnectTrace toml managed d t

variable {holder : Option ManagedValues}

theorem keeps_disconnectOwned (h : Owned toml configPath prior s) (hv : s.Versions config)
    (hI : ∀ t, DisconnectTrace toml holder ⟨config, some s⟩ t → I t) :
    Keeps device I (fun t _ => t = ⟨prior, none⟩) (disconnectOwned toml configPath holder) ⟨config, some s⟩ := by
  have hidle : I ⟨config, some s⟩ := hI _ .idle
  have hstate := stateOf_cases hv
  unfold disconnectOwned
  refine keeps_bind (keeps_read hidle fun snapshot hs => ?_)
  obtain rfl : s = snapshot := Except.ok.inj ((h.readSnapshot_eq rfl).symm.trans hs)
  refine keeps_bind (keeps_read hidle fun state hs => ?_)
  obtain rfl : s.stateOf config = state := Except.ok.inj ((h.snapshotState_eq hv).symm.trans hs)
  by_cases hk : recognizes toml holder s = true
  · simp only [hk, if_true]
    unfold settleRotation
    by_cases hr : s.phase = .rotating
    · obtain ⟨p, hp⟩ := Option.isSome_iff_exists.mp (h.valid.rotating.mp hr)
      simp only [hr, if_true]
      have hfinish := keeps_finishRotation hp (fun t ht => hI t (.finish rfl hk hp ht)) (applied_of_stateOf hv hp)
      refine keeps_bind (keeps_bind (hfinish.mono (fun _ h => h) ?_))
      rintro _ _ ⟨rfl, rfl⟩
      refine keeps_pure (hI _ (.finish rfl hk hp .finished)) ?_
      rw [← h.prior_eq]
      exact keeps_disconnectFrom_connected fun t ht => hI t (.restoreRotated rfl hk hp ht)
    · simp only [hr, if_false]
      refine keeps_bind (keeps_pure hidle ?_)
      cases hs : s.stateOf config with
      | preparedPrior | restoredPrior =>
        rw [hs] at hstate
        have hgone := hI _ (.dropped rfl hk hstate.2)
        refine keeps_bind (keeps_removeSnapshot hidle hgone (keeps_pure hgone ?_))
        rw [← h.prior_eq, ← hstate.2]
      | connected =>
        rw [hs] at hstate
        have hconfig := hstate.2
        subst hconfig
        rw [← h.prior_eq]
        exact keeps_disconnectFrom_connected fun t ht => hI t (.restore rfl hk hr rfl ht)
      | rotationPrepared | rotationApplied | conflict => exact keeps_throw hidle
  · simp only [hk]
    exact keeps_throw hidle

/-- **The instants of `disconnect`**, from two files that belong together, and where it ends when it returns. -/
theorem keeps_disconnect {d : Disk} (h : Consistent toml configPath prior d)
    (hI : ∀ t, DisconnectTrace toml holder d t → I t) :
    Keeps device I (fun t _ => t = ⟨prior, none⟩) (disconnect toml configPath holder) d := by
  obtain ⟨config, snapshot⟩ := d
  unfold disconnect
  refine keeps_bind (keeps_read (hI _ .idle) fun existing he => ?_)
  cases he
  cases snapshot with
  | none =>
    cases h
    exact keeps_pure (hI _ .idle) rfl
  | some s => exact keeps_disconnectOwned h.1 h.2 hI

/-- The instants of `status`. -/
inductive StatusTrace (toml : TomlEdit) (managed : Option ManagedValues) (d : Disk) : Disk → Prop
  | idle : StatusTrace toml managed d d
  | dropped {s : OwnershipSnapshot} : d.snapshot = some s → d.config = s.prior → StatusTrace toml managed d ⟨d.config, none⟩
  | finish {s : OwnershipSnapshot} {p : PendingRotation} {t : Disk} : d.snapshot = some s → s.pendingRotation = some p →
      FinishTrace s p d.config t → StatusTrace toml managed d t
  | settled {s : OwnershipSnapshot} : d.snapshot = some s → s.phase ≠ .rotating → d.config = some s.connectedFile →
      StatusTrace toml managed d ⟨d.config, some (s.inPhase .connected)⟩

theorem keeps_statusOwned (h : Owned toml configPath prior s) (hv : s.Versions config)
    (hI : ∀ t, StatusTrace toml holder ⟨config, some s⟩ t → I t) :
    Keeps device I (fun _ _ => True) (statusOwned toml configPath holder) ⟨config, some s⟩ := by
  have hidle : I ⟨config, some s⟩ := hI _ .idle
  have hstate := stateOf_cases hv
  unfold statusOwned
  refine keeps_bind (keeps_read hidle fun snapshot hs => ?_)
  obtain rfl : s = snapshot := Except.ok.inj ((h.readSnapshot_eq rfl).symm.trans hs)
  refine keeps_bind (keeps_read hidle fun state hs => ?_)
  obtain rfl : s.stateOf config = state := Except.ok.inj ((h.snapshotState_eq hv).symm.trans hs)
  by_cases hk : recognizes toml holder s = true
  · have hno : s.stateOf config ≠ .conflict := by
      intro hc
      rw [hc] at hstate
      exact hstate
    simp only [hk, if_true, hno, and_false, if_false]
    unfold settleRotation
    by_cases hr : s.phase = .rotating
    · obtain ⟨p, hp⟩ := Option.isSome_iff_exists.mp (h.valid.rotating.mp hr)
      simp only [hr, if_true]
      have hfinish := keeps_finishRotation hp (fun t ht => hI t (.finish rfl hp ht)) (applied_of_stateOf hv hp)
      refine keeps_bind (keeps_bind (hfinish.mono (fun _ h => h) ?_))
      rintro _ _ ⟨rfl, rfl⟩
      have hfinished := hI _ (.finish rfl hp .finished)
      refine keeps_pure hfinished ?_
      unfold statusFrom
      refine keeps_bind ((keeps_enterPhase hfinished hfinished).mono (fun _ h => h) ?_)
      rintro _ _ ⟨rfl, rfl⟩
      exact keeps_pure hfinished trivial
    · simp only [hr, if_false]
      refine keeps_bind (keeps_pure hidle ?_)
      cases hs : s.stateOf config with
      | preparedPrior | restoredPrior =>
        rw [hs] at hstate
        have hgone := hI _ (.dropped rfl hstate.2)
        exact keeps_bind (keeps_removeSnapshot hidle hgone (keeps_pure hgone trivial))
      | connected =>
        rw [hs] at hstate
        have hsettled := hI _ (.settled rfl hr hstate.2)
        refine keeps_bind ((keeps_enterPhase hidle hsettled).mono (fun _ h => h) ?_)
        rintro _ _ ⟨rfl, rfl⟩
        exact keeps_pure hsettled trivial
      | rotationPrepared | rotationApplied => exact keeps_throw hidle
      | conflict => exact keeps_pure hidle trivial
  · simp only [hk]
    exact keeps_pure hidle trivial

/-- **The instants of `status`**, from two files that belong together. -/
theorem keeps_status {d : Disk} (h : Consistent toml configPath prior d) (hI : ∀ t, StatusTrace toml holder d t → I t) :
    Keeps device I (fun _ _ => True) (status toml configPath holder) d := by
  obtain ⟨config, snapshot⟩ := d
  have howned : Keeps device I (fun _ _ => True) (ownershipStatus toml configPath holder) ⟨config, snapshot⟩ := by
    unfold ownershipStatus
    refine keeps_bind (keeps_read (hI _ .idle) fun existing he => ?_)
    cases he
    cases snapshot with
    | none => exact keeps_pure (hI _ .idle) trivial
    | some s => exact keeps_statusOwned h.1 h.2 hI
  unfold status
  exact keeps_bind (howned.and_invariant.mono (fun _ h => h) fun _ _ ht => keeps_pure ht.1 trivial)

end Keeps

end AgentObservability.CodexConfig
