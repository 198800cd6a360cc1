import AgentObservability.CodexConfig.Guarantees

/-!
# Interrupted operations

A session is a run in which an operation that was interrupted at one of its changes is
called again, with the same managed values, or the connection is given up through its
snapshot; either may be interrupted again. `session_recovers` says that whoever calls
again succeeds, and that the prior configuration can be had back at every instant.
-/

namespace AgentObservability.CodexConfig

open Foundation Foundation.Durable

section Sessions

variable (toml : TomlEdit) (configPath : String)

/-- The two files, and the operation that has been interrupted. -/
inductive Session (prior : Option File) : Disk → Option Call → Prop
  /-- Nothing was called. -/
  | start : Session prior ⟨prior, none⟩ none
  /-- A call that nothing disturbs. -/
  | call {d : Disk} (k : Call) : Session prior d none → k.Fits toml configPath d →
      Session prior (exec device (k.program toml configPath) d).1 none
  /-- A call that is interrupted at one of its changes, or told of failures. -/
  | interrupted {d t : Disk} {k : Call} {o : Outcome ConfigError ConnectionStatus} : Session prior d none →
      k.Fits toml configPath d → (k.program toml configPath).Asks d → Ends device (k.program toml configPath) d t o →
      Session prior t (some k)
  /-- The operation is called again. -/
  | again {d : Disk} {k : Call} : Session prior d (some k) →
      Session prior (exec device (k.program toml configPath) d).1 none
  /-- The operation is called again and is interrupted again. -/
  | interruptedAgain {d t : Disk} {k : Call} {o : Outcome ConfigError ConnectionStatus} : Session prior d (some k) →
      Ends device (k.program toml configPath) d t o → Session prior t (some k)
  /-- The connection is given up through its snapshot. -/
  | recovered {d : Disk} {k : Call} : Session prior d (some k) →
      Session prior (exec device (disconnect toml configPath none) d).1 none
  /-- The connection is given up through its snapshot, which is interrupted. -/
  | recoveryInterrupted {d t : Disk} {k : Call} {o : Outcome ConfigError ConnectionStatus} : Session prior d (some k) →
      Ends device (disconnect toml configPath none) d t o → Session prior t (some (.disconnect none))

/-- Nothing is left open: there is no snapshot, or it is of a connection. -/
def Settled (d : Disk) : Prop := ∀ s ∈ d.snapshot, s.phase = .connected

/-- What the files are like while an operation has yet to be called again. -/
def Awaits (d : Disk) : Option Call → Prop
  | none | some (.status _) => Settled d
  | some (.connect none) => False
  | some (.connect (some managed)) => Connectable toml managed d ∧ ConnectFits toml configPath managed d
  | some (.disconnect holder) => ∀ s ∈ d.snapshot, recognizes toml holder s = true

variable {toml configPath} {prior config : Option File} {s : OwnershipSnapshot} {p : PendingRotation} {d t : Disk}
  {managed : ManagedValues} {holder : Option ManagedValues}

/-! ### Connecting -/

/-- A snapshot of the managed values is taken, if the configuration it came from is. -/
theorem awaits_of_fingerprint (hv : s.Versions config) (hr : s.phase ≠ .rotating)
    (hf : s.managedFingerprint = managed.fingerprint toml s.ownsNotify)
    (hacc : s.phase ≠ .connected → config = s.prior →
      (∃ document updated, Accepted toml managed config document updated) ∧ FreshFits toml configPath managed config) :
    Connectable toml managed ⟨config, some s⟩ ∧ ConnectFits toml configPath managed ⟨config, some s⟩ := by
  have hstate := stateOf_cases hv
  unfold Connectable ConnectFits
  cases hs : s.stateOf config with
  | preparedPrior | restoredPrior =>
    rw [hs] at hstate
    obtain ⟨haccepted, hfits⟩ := hacc (by rcases hstate.1 with h | h <;> simp [h]) hstate.2
    simp only [hs]
    exact ⟨⟨hf, haccepted⟩, fun _ => hfits⟩
  | connected =>
    simp only [hs]
    exact ⟨trivial, fun hn => absurd hf hn⟩
  | rotationPrepared | rotationApplied =>
    rw [hs] at hstate
    exact absurd hstate.1 hr
  | conflict =>
    rw [hs] at hstate
    exact hstate.elim

/-- A rotation to the managed values is taken. -/
theorem awaits_of_pending (hv : s.Versions config) (hr : s.phase = .rotating) (hp : s.pendingRotation = some p)
    (hf : p.managedFingerprint = managed.fingerprint toml s.ownsNotify) :
    Connectable toml managed ⟨config, some s⟩ ∧ ConnectFits toml configPath managed ⟨config, some s⟩ := by
  have hstate := stateOf_cases hv
  unfold Connectable ConnectFits
  cases hs : s.stateOf config with
  | preparedPrior | restoredPrior | connected =>
    rw [hs] at hstate
    simp [hr] at hstate
  | rotationPrepared | rotationApplied =>
    simp only [hs, OwnershipSnapshot.pendingManagedFingerprint, hp, Option.map_some, hf, and_self]
  | conflict =>
    rw [hs] at hstate
    exact hstate.elim

theorem awaits_freshTrace (hacc : ∃ document updated, Accepted toml managed config document updated)
    (hfits : FreshFits toml configPath managed config) (ht : FreshTrace toml configPath managed config t) :
    Connectable toml managed t ∧ ConnectFits toml configPath managed t := by
  cases ht with
  | idle => exact ⟨hacc, hfits⟩
  | @recorded document updated =>
    refine awaits_of_fingerprint ?_ (by simp [freshSnapshot, preparedSnapshot]) rfl fun _ _ => ⟨hacc, hfits⟩
    exact .inl (prior_freshSnapshot toml configPath managed config document updated .prepared).symm
  | @installed document updated phase _ hphase =>
    have hprior := prior_freshSnapshot toml configPath managed config document updated phase
    refine awaits_of_fingerprint ?_ ?_ rfl fun _ hc => ?_
    · cases hphase with
      | inl h =>
        subst h
        exact .inr rfl
      | inr h =>
        subst h
        exact rfl
    · cases hphase with
      | inl h | inr h => simp [freshSnapshot, preparedSnapshot, h]
    · rw [hc, hprior]
      exact ⟨hacc, hfits⟩

theorem awaits_finishTrace (hr : s.phase = .rotating) (hp : s.pendingRotation = some p)
    (hf : p.managedFingerprint = managed.fingerprint toml s.ownsNotify) (hv : s.Versions config)
    (ht : FinishTrace s p config t) :
    Connectable toml managed t ∧ ConnectFits toml configPath managed t := by
  cases ht with
  | idle => exact awaits_of_pending hv hr hp hf
  | applied =>
    refine awaits_of_pending ?_ hr hp hf
    simp only [OwnershipSnapshot.Versions, hr, hp, Option.map_some]
    exact .inr trivial
  | finished => exact awaits_of_fingerprint rfl (by simp [OwnershipSnapshot.rotated]) hf fun hn => absurd rfl hn

/-- What `connect` takes it takes again, wherever it was interrupted. -/
theorem awaits_connectTrace (h : Consistent toml configPath prior d) (hc : Connectable toml managed d)
    (hfits : ConnectFits toml configPath managed d) (ht : ConnectTrace toml configPath managed d t) :
    Connectable toml managed t ∧ ConnectFits toml configPath managed t := by
  obtain ⟨config, snapshot⟩ := d
  cases ht with
  | idle => exact ⟨hc, hfits⟩
  | fresh hs ht =>
    cases hs
    exact awaits_freshTrace hc hfits ht
  | finish hs hp hf ht =>
    cases hs
    have hr := (Owned.valid h.1).rotating.mpr (by rw [hp]; rfl)
    exact awaits_finishTrace hr hp hf h.2 ht
  | @rotate s _ hs hstate hf ht =>
    cases hs
    have hcases := stateOf_cases h.2
    rw [hstate] at hcases
    obtain ⟨hr, rfl⟩ := hcases
    cases ht with
    | idle => exact ⟨hc, hfits⟩
    | rotating hd hu hp hfinish =>
      refine awaits_finishTrace rfl hp ?_ (.inl rfl) hfinish
      cases hp
      rfl
  | settled hs hstate hf =>
    cases hs
    have hcases := stateOf_cases h.2
    rw [hstate] at hcases
    obtain ⟨hr, rfl⟩ := hcases
    exact awaits_of_fingerprint rfl (by simp [OwnershipSnapshot.inPhase]) hf fun hn => absurd rfl hn
  | again hs hstate hf ht =>
    cases hs
    unfold Connectable at hc
    unfold ConnectFits at hfits
    cases hstate with
    | inl hstate | inr hstate =>
      simp only [hstate] at hc hfits
      exact awaits_freshTrace hc.2 (hfits hf) ht

/-- `connect` goes on to a change only if it takes its values, from files where nothing is left open. -/
theorem connectable_of_asks (h : Consistent toml configPath prior d) (hd : Settled d)
    (hasks : (connectManaged toml configPath managed).Asks d) : Connectable toml managed d := by
  obtain ⟨config, snapshot⟩ := d
  unfold Connectable
  cases snapshot with
  | none =>
    unfold connectManaged at hasks
    obtain ⟨_, he, hasks⟩ := Prog.asks_read_bind.mp hasks
    cases he
    simp only [Option.isSome_none, Bool.false_eq_true, if_false] at hasks
    unfold connectFresh at hasks
    obtain ⟨current, hread, hasks⟩ := Prog.asks_read_bind.mp hasks
    obtain ⟨rfl, hreadable⟩ := readable_of_readConfig hread
    obtain ⟨document, hparsed, hasks⟩ := Prog.asks_lift_bind.mp hasks
    obtain ⟨_, hunconflicted, hasks⟩ := Prog.asks_lift_bind.mp hasks
    cases hp : patchManagedValues toml document managed (takesNotify toml document managed) with
    | none =>
      simp only [hp] at hasks
      exact absurd hasks (Prog.not_asks_abort _)
    | some updated => exact ⟨document, updated, hreadable, hparsed, hunconflicted, hp⟩
  | some s =>
    have hstate : s.stateOf config = .connected := by simp [OwnershipSnapshot.stateOf, hd s rfl]
    simp only [hstate]

/-! ### Disconnecting -/

theorem recognizes_of_fingerprint {s' : OwnershipSnapshot} (hk : recognizes toml holder s = true) (hr' : s'.phase ≠ .rotating)
    (howns : s'.ownsNotify = s.ownsNotify)
    (hf : if s.phase = .rotating then s.pendingManagedFingerprint = some s'.managedFingerprint
      else s.managedFingerprint = s'.managedFingerprint) : recognizes toml holder s' = true := by
  cases holder with
  | none => rfl
  | some managed =>
    unfold recognizes at hk ⊢
    simp only [Option.all_some, hr', if_false, howns, decide_eq_true_eq] at hk ⊢
    by_cases hr : s.phase = .rotating
    · simp only [hr, if_true, decide_eq_true_eq] at hk hf
      exact Option.some.inj (hf.symm.trans hk)
    · simp only [hr, if_false, decide_eq_true_eq] at hk hf
      exact hf.symm.trans hk

theorem recognizes_rotated (hk : recognizes toml holder s = true) (hr : s.phase = .rotating)
    (hp : s.pendingRotation = some p) : recognizes toml holder (s.rotated p) = true :=
  recognizes_of_fingerprint hk (by simp [OwnershipSnapshot.rotated]) rfl
    (by simp [hr, OwnershipSnapshot.pendingManagedFingerprint, hp, OwnershipSnapshot.rotated])

theorem recognizes_inPhase (hk : recognizes toml holder s = true) (hr : s.phase ≠ .rotating) {phase : SnapshotPhase}
    (hp : phase ≠ .rotating) : recognizes toml holder (s.inPhase phase) = true :=
  recognizes_of_fingerprint hk hp rfl (by simp [hr, OwnershipSnapshot.inPhase])

/-- What `disconnect` recognizes it recognizes again, wherever it was interrupted. -/
theorem awaits_disconnectTrace (h : Consistent toml configPath prior d)
    (hk : ∀ s ∈ d.snapshot, recognizes toml holder s = true) (ht : DisconnectTrace toml holder d t) :
    ∀ s ∈ t.snapshot, recognizes toml holder s = true := by
  obtain ⟨config, snapshot⟩ := d
  have hrestore : ∀ {s : OwnershipSnapshot} {t : Disk}, recognizes toml holder s = true → s.phase ≠ .rotating →
      RestoreTrace s t → ∀ s ∈ t.snapshot, recognizes toml holder s = true := by
    intro s t hs hr ht
    cases ht with
    | idle =>
      rintro _ ⟨⟩
      exact hs
    | restoring | restored =>
      rintro _ ⟨⟩
      exact recognizes_inPhase hs hr (by decide)
    | gone => exact nofun
  cases ht with
  | idle => exact hk
  | dropped _ _ _ => exact nofun
  | finish hs hkn hp ht =>
    cases hs
    have hr := (Owned.valid h.1).rotating.mpr (by rw [hp]; rfl)
    cases ht with
    | idle | applied =>
      rintro _ ⟨⟩
      exact hkn
    | finished =>
      rintro _ ⟨⟩
      exact recognizes_rotated hkn hr hp
  | restore hs hkn hr _ ht => exact hrestore hkn hr ht
  | restoreRotated hs hkn hp ht =>
    cases hs
    have hr := (Owned.valid h.1).rotating.mpr (by rw [hp]; rfl)
    exact hrestore (recognizes_rotated hkn hr hp) (by simp [OwnershipSnapshot.rotated]) ht

/-- `disconnect` goes on to a change only if it recognizes the snapshot. -/
theorem recognizes_of_asks (h : Consistent toml configPath prior d)
    (hasks : (disconnect toml configPath holder).Asks d) : ∀ s ∈ d.snapshot, recognizes toml holder s = true := by
  obtain ⟨config, snapshot⟩ := d
  rintro s ⟨⟩
  unfold disconnect at hasks
  obtain ⟨_, he, hasks⟩ := Prog.asks_read_bind.mp hasks
  cases he
  simp only [Option.isSome_some, if_true] at hasks
  unfold disconnectOwned at hasks
  obtain ⟨read, hread, hasks⟩ := Prog.asks_read_bind.mp hasks
  obtain rfl : s = read := Except.ok.inj ((Owned.readSnapshot_eq h.1 rfl).symm.trans hread)
  obtain ⟨state, _, hasks⟩ := Prog.asks_read_bind.mp hasks
  by_contra hn
  simp only [hn] at hasks
  exact Prog.not_asks_throw _ _ hasks

/-! ### Nothing is left open -/

theorem settled_none (config : Option File) : Settled ⟨config, none⟩ := nofun

theorem settled_of_connectedTo (h : ConnectedTo toml configPath prior managed d) : Settled d := by
  obtain ⟨s, rfl, _, hphase, _⟩ := h
  rintro _ ⟨⟩
  exact hphase

/-- What `connect` does not take leaves the files as they are. -/
theorem connectTrace_idle (hd : Settled d) (hn : ¬ Connectable toml managed d)
    (ht : ConnectTrace toml configPath managed d t) : t = d := by
  obtain ⟨config, snapshot⟩ := d
  cases snapshot with
  | some s =>
    have hstate : s.stateOf config = .connected := by simp [OwnershipSnapshot.stateOf, hd s rfl]
    exact absurd (by unfold Connectable; simp only [hstate]) hn
  | none =>
    cases ht with
    | idle => rfl
    | fresh _ ht =>
      cases ht with
      | idle => rfl
      | recorded hacc => exact absurd ⟨_, _, hacc⟩ hn
      | installed hacc _ => exact absurd ⟨_, _, hacc⟩ hn
    | finish hs | rotate hs | settled hs | again hs => cases hs

/-- What `disconnect` does not recognize leaves the files as they are. -/
theorem disconnectTrace_idle (hn : ¬ ∀ s ∈ d.snapshot, recognizes toml holder s = true)
    (ht : DisconnectTrace toml holder d t) : t = d := by
  have hk : ∀ {s : OwnershipSnapshot}, d.snapshot = some s → recognizes toml holder s = true → False := by
    intro s hs hk
    refine hn fun s' hs' => ?_
    rw [hs] at hs'
    cases hs'
    exact hk
  cases ht with
  | idle => rfl
  | dropped hs hkn | finish hs hkn | restore hs hkn | restoreRotated hs hkn => exact (hk hs hkn).elim

theorem settled_statusTrace (h : Consistent toml configPath prior d) (hd : Settled d) (ht : StatusTrace toml holder d t) :
    Settled t := by
  obtain ⟨config, snapshot⟩ := d
  cases ht with
  | idle => exact hd
  | dropped _ _ => exact settled_none _
  | finish hs hp ht =>
    cases hs
    have hr := (Owned.valid h.1).rotating.mpr (by rw [hp]; rfl)
    rw [hd _ rfl] at hr
    cases hr
  | settled _ _ _ =>
    rintro _ ⟨⟩
    rfl

/-- A call that nothing disturbs leaves nothing open. -/
theorem settled_exec (law : toml.Lawful) (h : Consistent toml configPath prior d) (k : Call)
    (hd : Settled d ∨ Awaits toml configPath d (some k)) (hfits : k.Fits toml configPath d) :
    Settled (exec device (k.program toml configPath) d).1 := by
  have hends := ends_exec device (k.program toml configPath) d
  cases k with
  | connect managed =>
    cases managed with
    | none =>
      cases hd with
      | inl hd => exact hd
      | inr hd => exact hd.elim
    | some managed =>
      by_cases hc : Connectable toml managed d
      · obtain ⟨t, ht, hto⟩ := exec_connectManaged law h hc hfits
        rw [show exec device (Call.program toml configPath (.connect (some managed))) d = _ from ht]
        exact settled_of_connectedTo hto
      · cases hd with
        | inl hd =>
          have htrace := (keeps_ends hends (keeps_connectManaged h fun t ht => ht)).1
          rw [connectTrace_idle hd hc htrace]
          exact hd
        | inr hd => exact absurd hd.1 hc
  | status holder =>
    have hsettled : Settled d := hd.elim id id
    exact settled_statusTrace h hsettled (keeps_ends hends (keeps_status h fun t ht => ht)).1
  | disconnect holder =>
    by_cases hk : ∀ s ∈ d.snapshot, recognizes toml holder s = true
    · rw [show exec device (Call.program toml configPath (.disconnect holder)) d = _ from exec_disconnect h hk]
      exact settled_none _
    · cases hd with
      | inl hd =>
        rw [disconnectTrace_idle hk (keeps_ends hends (keeps_disconnect h fun t ht => ht)).1]
        exact hd
      | inr hd => exact absurd hd hk

/-! ### Sessions -/

/-- The instants of a call are what its caller awaits. -/
theorem awaits_ends (law : toml.Lawful) {k : Call} {o : Outcome ConfigError ConnectionStatus}
    (h : Consistent toml configPath prior d) (hk : Awaits toml configPath d (some k))
    (hends : Ends device (k.program toml configPath) d t o) :
    Consistent toml configPath prior t ∧ Awaits toml configPath t (some k) := by
  cases k with
  | connect managed =>
    cases managed with
    | none => exact hk.elim
    | some managed =>
      have htrace := (keeps_ends hends (keeps_connectManaged h fun t ht => ht)).1
      exact ⟨consistent_connectTrace law h hk.2 htrace, awaits_connectTrace h hk.1 hk.2 htrace⟩
  | status holder =>
    have htrace := (keeps_ends hends (keeps_status h fun t ht => ht)).1
    exact ⟨consistent_statusTrace h htrace, settled_statusTrace h hk htrace⟩
  | disconnect holder =>
    have htrace := (keeps_ends hends (keeps_disconnect h fun t ht => ht)).1
    exact ⟨consistent_disconnectTrace h htrace, awaits_disconnectTrace h hk htrace⟩

/-- An operation that goes on to a change is one that can be called again. -/
theorem awaits_of_asks {k : Call} (h : Consistent toml configPath prior d) (hd : Settled d)
    (hfits : k.Fits toml configPath d) (hasks : (k.program toml configPath).Asks d) :
    Awaits toml configPath d (some k) := by
  cases k with
  | connect managed =>
    cases managed with
    | none => exact absurd hasks (Prog.not_asks_throw _ _)
    | some managed => exact ⟨connectable_of_asks h hd hasks, hfits⟩
  | status holder => exact hd
  | disconnect holder => exact recognizes_of_asks h hasks

theorem fits_of_awaits {k : Call} (hk : Awaits toml configPath d (some k)) : k.Fits toml configPath d := by
  cases k with
  | connect managed =>
    cases managed with
    | none => exact trivial
    | some managed => exact hk.2
  | status holder | disconnect holder => exact trivial

/-- What the files are like in a session. -/
theorem awaits_session (law : toml.Lawful) {waiting : Option Call} (h : Session toml configPath prior d waiting) :
    Consistent toml configPath prior d ∧ Awaits toml configPath d waiting := by
  have hkeeps : ∀ {d : Disk} {k : Call}, Consistent toml configPath prior d → k.Fits toml configPath d →
      Consistent toml configPath prior (exec device (k.program toml configPath) d).1 :=
    fun hd hfits => (keeps_ends (ends_exec device _ _) (keeps_program law hd _ hfits)).1
  have hrecovery : ∀ {d t : Disk} {o : Outcome ConfigError ConnectionStatus}, Consistent toml configPath prior d →
      Ends device (disconnect toml configPath none) d t o →
      Consistent toml configPath prior t ∧ Awaits toml configPath t (some (.disconnect none)) :=
    fun hd hends => awaits_ends law (k := .disconnect none) hd (fun _ _ => rfl) hends
  induction h with
  | start => exact ⟨rfl, settled_none _⟩
  | call k _ hfits ih => exact ⟨hkeeps ih.1 hfits, settled_exec law ih.1 k (.inl ih.2) hfits⟩
  | interrupted _ hfits hasks hends ih => exact awaits_ends law ih.1 (awaits_of_asks ih.1 ih.2 hfits hasks) hends
  | again _ ih => exact ⟨hkeeps ih.1 (fits_of_awaits ih.2), settled_exec law ih.1 _ (.inr ih.2) (fits_of_awaits ih.2)⟩
  | interruptedAgain _ hends ih => exact awaits_ends law ih.1 ih.2 hends
  | recovered _ ih =>
    rw [exec_disconnect ih.1 fun _ _ => rfl]
    exact ⟨rfl, settled_none _⟩
  | recoveryInterrupted _ hends ih => exact hrecovery ih.1 hends

/-- What a call answers when it succeeds. -/
def Call.Succeeds : Call → ConnectionStatus → Prop
  | .connect _, answer => answer = .connected
  | .status _, _ => True
  | .disconnect _, answer => answer = .disconnected

variable (configPath prior) in
/-- The configuration is the prior one, or one of the images of a snapshot from which the prior one can be read. -/
def Recoverable (d : Disk) : Prop :=
  match d.snapshot with
  | none => d.config = prior
  | some s => d.readSnapshot configPath = .ok s ∧ s.prior = prior ∧ s.Versions d.config

end Sessions

section Samples

open PlainToml

variable {comment : { c : List Char // IsComment c }}

/-- `connect` over a comment goes on to its first change. -/
theorem asks_connect_comment (h : (String.ofList comment.val).utf8ByteSize ≤ maxConfigBytes) :
    (connect editor "/config.toml" (some (sampleValues "t"))).Asks ⟨some (commentFile comment), none⟩ := by
  have hacc := accepted_comment h
  have hdiffer := not_agrees_withManaged comment
  unfold connect connectManaged
  refine Prog.asks_read_bind.mpr ⟨false, rfl, ?_⟩
  simp only [Bool.false_eq_true, if_false]
  unfold connectFresh
  refine Prog.asks_read_bind.mpr ⟨_, readConfig_eq hacc.readable, ?_⟩
  refine Prog.asks_lift_bind.mpr ⟨_, hacc.parsed, ?_⟩
  refine Prog.asks_lift_bind.mpr ⟨_, hacc.unconflicted, ?_⟩
  simp only [hacc.patched]
  unfold installManagedValues
  simp only [hdiffer, Bool.false_eq_true, if_false]
  exact Prog.asks_mutate_bind

/-- A connection that died over a comment, when it had written its snapshot. -/
theorem session_crashed_smallComment : Session editor "/config.toml" (some (commentFile smallComment))
    ⟨some (commentFile smallComment), some (commentSnapshot smallComment)⟩ (some (.connect (some (sampleValues "t")))) := by
  have hsize : (String.ofList smallComment.val).utf8ByteSize ≤ maxConfigBytes := by
    rw [utf8ByteSize_smallComment]
    decide
  exact .interrupted (k := .connect (some (sampleValues "t"))) .start freshFits_smallComment
    (asks_connect_comment hsize) ends_connect_smallComment

end Samples

end AgentObservability.CodexConfig
