import AgentObservability.Runtime.Singleton
import Mathlib.Algebra.Order.BigOperators.Group.Multiset
import Mathlib.Algebra.Order.Group.Nat

/-!
# Runs of singletons

`Inv` says what the directory and the parties are to each other at every instant:
one party at most has the lock, it alone touches the metadata and the temporary
files, and what it has written so far is there. Every step keeps it, whether it
succeeds, fails or is the last one of its process (`inv_step`).
-/

namespace AgentObservability.Runtime

open Foundation

/-! ### Metadata -/

theorem hexValue_digitChar : ∀ n < 16, hexValue (Nat.digitChar n) = n ∧ isHexDigit (Nat.digitChar n) = true := by
  decide

theorem length_encodeNonce (bytes : List UInt8) :
    (bytes.flatMap fun byte => [Nat.digitChar (byte.toNat / 16), Nat.digitChar (byte.toNat % 16)]).length = 2 * bytes.length := by
  induction bytes with
  | nil => rfl
  | cons byte bytes ih =>
    rw [List.flatMap_cons, List.length_append, ih, List.length_cons, List.length_cons, List.length_cons, List.length_nil]
    omega

theorem hexBytes_encode (bytes : List UInt8) :
    hexBytes (bytes.flatMap fun byte => [Nat.digitChar (byte.toNat / 16), Nat.digitChar (byte.toNat % 16)]) = bytes := by
  induction bytes with
  | nil => rfl
  | cons byte bytes ih =>
    have hbyte := byte.toNat_lt
    rw [List.flatMap_cons, List.cons_append, List.cons_append, List.nil_append, hexBytes, ih,
      (hexValue_digitChar _ (by omega)).1, (hexValue_digitChar _ (by omega)).1, Nat.div_add_mod]
    simp

theorem isHexDigit_encode (bytes : List UInt8) :
    (bytes.flatMap fun byte => [Nat.digitChar (byte.toNat / 16), Nat.digitChar (byte.toNat % 16)]).all isHexDigit = true := by
  induction bytes with
  | nil => rfl
  | cons byte bytes ih =>
    have hbyte := byte.toNat_lt
    rw [List.flatMap_cons, List.all_append, ih, Bool.and_true]
    simp [(hexValue_digitChar (byte.toNat / 16) (by omega)).2, (hexValue_digitChar (byte.toNat % 16) (by omega)).2]

theorem decodeNonce_encodeNonce (nonce : Nonce) : decodeNonce (encodeNonce nonce) = .ok nonce := by
  have hbytes : hexBytes (encodeNonce nonce) = nonce.1 := hexBytes_encode nonce.1
  rw [decodeNonce, dif_pos]
  · exact congrArg Except.ok (Subtype.ext hbytes)
  · refine ⟨?_, isHexDigit_encode nonce.1, by rw [hbytes, nonce.2]⟩
    rw [encodeNonce, length_encodeNonce, nonce.2]

theorem parsesU32_toDigits (pid : UInt32) : parsesU32 (Nat.toDigits 10 pid.toNat) = true := by
  have hdigit : ∀ c ∈ Nat.toDigits 10 pid.toNat, c.isDigit = true := fun c hc => Nat.isDigit_of_mem_toDigits (by decide) (by decide) hc
  have hplus : (Nat.toDigits 10 pid.toNat).head? ≠ some '+' := by
    intro h
    have := hdigit '+' (List.mem_of_mem_head? h)
    revert this
    decide
  rw [parsesU32, if_neg hplus]
  simp only [Nat.ofDigitChars_ten_toDigits, Bool.and_eq_true, decide_eq_true_eq, List.all_eq_true]
  exact ⟨⟨by simp, hdigit⟩, pid.toNat_lt⟩

/-- **The metadata of a process has its nonce.** -/
theorem parseNonce_metadataLines (pid : UInt32) (nonce : Nonce) : parseNonce (metadataLines pid nonce) = .ok nonce := by
  simp only [metadataLines, parseNonce, stripPrefix_append, Option.any_some, parsesU32_toDigits]
  exact decodeNonce_encodeNonce nonce

theorem sum_utf8Size_le (line : Line) : (line.map Char.utf8Size).sum ≤ 4 * line.length := by
  induction line with
  | nil => exact Nat.le_refl _
  | cons c line ih =>
    have := c.utf8Size_le_four
    rw [List.map_cons, List.sum_cons, List.length_cons]
    omega

theorem sum_utf8Size_encode (bytes : List UInt8) :
    ((bytes.flatMap fun byte => [Nat.digitChar (byte.toNat / 16), Nat.digitChar (byte.toNat % 16)]).map Char.utf8Size).sum =
      2 * bytes.length := by
  have hdigit : ∀ n < 16, (Nat.digitChar n).utf8Size = 1 := by decide
  induction bytes with
  | nil => rfl
  | cons byte bytes ih =>
    have hbyte := byte.toNat_lt
    simp only [List.flatMap_cons, List.map_append, List.sum_append, List.map_cons, List.map_nil, List.sum_cons, List.sum_nil,
      hdigit (byte.toNat / 16) (by omega), hdigit (byte.toNat % 16) (by omega), List.length_cons] at ih ⊢
    omega

/-- The metadata of a process is short. -/
theorem len_metadataLines (pid : UInt32) (nonce : Nonce) (ino mode : ℕ) :
    (Node.mk ino mode (metadataLines pid nonce)).len ≤ runtimeMetadataMaxBytes := by
  have hlength : (Nat.toDigits 10 pid.toNat).length ≤ 10 :=
    (Nat.length_toDigits_le_iff (by decide) (by decide)).mpr (lt_trans pid.toNat_lt (by decide))
  have hpid := sum_utf8Size_le (Nat.toDigits 10 pid.toNat)
  have hnonce := sum_utf8Size_encode nonce.1
  have hversion : ("runtime_metadata.v1".toList.map Char.utf8Size).sum = 19 := by decide
  have hkey : ("pid=".toList.map Char.utf8Size).sum = 4 ∧ ("boot_nonce=".toList.map Char.utf8Size).sum = 11 := by decide
  rw [nonce.2] at hnonce
  simp only [Node.len, metadataLines, encodeNonce, List.map_cons, List.map_nil, List.sum_cons, List.sum_nil, List.map_append,
    List.sum_append, hversion, hkey, hnonce, runtimeMetadataMaxBytes]
  omega

theorem readBoundedNonce_metadata {node : Node} {pid : UInt32} {nonce : Nonce} (h : node.text = metadataLines pid nonce) :
    readBoundedNonce node = .ok nonce := by
  have hlen : node.len ≤ runtimeMetadataMaxBytes := by
    cases node
    cases h
    exact len_metadataLines pid nonce _ _
  rw [readBoundedNonce, h, parseNonce_metadataLines, require_true hlen, ok_bind]

/-! ### Checks -/

/-- The files of the directory are in order: the lock file is private and empty, and the metadata is that of some
process. -/
structure ScopeDirectory.Sound (d : ScopeDirectory) : Prop where
  lock : ∀ node ∈ d.lock, node.mode = 0o600 ∧ node.text = []
  metadata : ∀ node ∈ d.metadata, node.mode = 0o600 ∧ ∃ pid nonce, node.text = metadataLines pid nonce

/-- The party has the lock file open. -/
def Party.Opened (p : Party) (d : ScopeDirectory) : Prop := ∃ node, d.lock = some node ∧ p.lockFile = some node.ino

/-- The temporary file of the party has what it has written, up to the lines that are left. -/
def Party.Drafts (p : Party) (d : ScopeDirectory) (left : List Line) : Prop :=
  ∃ node, d.temporary p.pid = some node ∧ p.metadata = some node.ino ∧ node.mode = 0o600 ∧
    node.text ++ left = metadataLines p.pid p.nonce

/-- The metadata is the one that the party has written. -/
def Party.Published (p : Party) (d : ScopeDirectory) : Prop :=
  ∃ node, d.metadata = some node ∧ p.metadata = some node.ino ∧ node.mode = 0o600 ∧ node.text = metadataLines p.pid p.nonce

section Checks

variable {p : Party} {d : ScopeDirectory}

theorem validateLock_ok (hd : d.Sound) (h : p.Opened d) : p.validateLock d = .ok () := by
  obtain ⟨node, hnode, hfile⟩ := h
  obtain ⟨hmode, htext⟩ := hd.lock node hnode
  simp [Party.validateLock, hnode, hfile, validatePrivateMetadata, hmode, htext, ofOption, require]

theorem revalidateExisting_ok (hd : d.Sound) : revalidateExisting (d.metadata.map Node.ino) d.metadata = .ok () := by
  cases hmetadata : d.metadata with
  | none => rfl
  | some node =>
    obtain ⟨hmode, pid, nonce, htext⟩ := hd.metadata node hmetadata
    simp [revalidateExisting, validatePrivateMetadata, hmode, readBoundedNonce_metadata htext, require]

theorem validateMetadata_ok {read : Node → Except SingletonError Nonce}
    (hread : ∀ node, node.text = metadataLines p.pid p.nonce → read node = .ok p.nonce) (h : p.Published d) :
    p.validateMetadata d read = .ok () := by
  obtain ⟨node, hnode, hfile, hmode, htext⟩ := h
  simp [Party.validateMetadata, hnode, hfile, validatePrivateMetadata, hmode, hread node htext, ofOption, require]

/-- **The owner of the metadata passes its checks.** -/
theorem revalidate_ok (hd : d.Sound) (hopened : p.Opened d) (h : p.Published d) : p.revalidate d = .ok () := by
  unfold Party.revalidate
  cases p.mode with
  | legacy => rfl
  | retained =>
    simp only [validateLock_ok hd hopened, ok_bind]
    exact validateMetadata_ok (fun node htext => readBoundedNonce_metadata htext) h
  | coordinated =>
    simp only [validateLock_ok hd hopened, ok_bind]
    exact validateMetadata_ok (fun node htext => htext ▸ parseNonce_metadataLines _ _) h

theorem verify_ok (hd : d.Sound) (hopened : p.Opened d) (h : p.Published d) : p.verify d = .ok () := by
  unfold Party.verify
  cases hmode : p.mode with
  | legacy => rfl
  | retained => exact revalidate_ok hd hopened h
  | coordinated => exact validateMetadata_ok (fun node htext => htext ▸ parseNonce_metadataLines _ _) h

end Checks

/-! ### What a party relies on -/

/-- The party knows the metadata that was there when it got the lock. -/
def Party.Found (p : Party) (d : ScopeDirectory) : Prop := p.mode ≠ .legacy → p.existing = d.metadata.map Node.ino

/-- What a party relies on before its next step. -/
def Party.Relies (p : Party) (d : ScopeDirectory) : Prop :=
  match p.phase with
  | .permitting | .opening => True
  | .locking | .scoping | .cleaning | .unlocking => p.Opened d
  | .clearing => p.Opened d ∧ p.mode = .legacy
  | .creating => p.Opened d ∧ p.Found d
  | .writing left => p.Opened d ∧ p.Found d ∧ p.Drafts d left
  | .checking => p.Opened d ∧ p.mode ≠ .legacy ∧ p.Found d ∧ p.Drafts d []
  | .publishing => p.Opened d ∧ p.Found d ∧ p.Drafts d []
  | .syncing | .verifying | .owning | .withdrawing | .rechecking | .removing => p.Opened d ∧ p.Published d

/-- The locks that a party has. -/
def Party.weight (p : Party) : ℕ := if p.phase.holds then 1 else 0

/-- The locks that the directory knows of. -/
def ScopeDirectory.tokens (d : ScopeDirectory) : ℕ := if d.locked then 1 else 0

/-- What a step of a party does: the files stay in order, the lock is handed on, and who goes on may rely on the
directory. Without the lock it changes no metadata and no temporary file. -/
structure Moves (p : Party) (d d' : ScopeDirectory) (new : Multiset Party) : Prop where
  sound : d'.Sound
  tokens : Threads.count Party.weight new + d.tokens = p.weight + d'.tokens
  relies : ∀ q ∈ new, q.Relies d'
  lock : ∀ node, d.lock = some node → d'.lock = some node
  files : p.phase.holds = false → d'.metadata = d.metadata ∧ d'.temporary = d.temporary

section Moves

variable {p q : Party} {d d' : ScopeDirectory}

/-- The party goes on and has the lock as before. -/
theorem moves_goes (hd : d'.Sound) (hholds : q.phase.holds = p.phase.holds) (hlocked : d'.locked = d.locked) (hq : q.Relies d')
    (hlock : ∀ node, d.lock = some node → d'.lock = some node)
    (hfiles : p.phase.holds = false → d'.metadata = d.metadata ∧ d'.temporary = d.temporary) : Moves p d d' {q} where
  sound := hd
  tokens := by simp [Party.weight, ScopeDirectory.tokens, hholds, hlocked]
  relies q' hq' := Multiset.mem_singleton.mp hq' ▸ hq
  lock := hlock
  files := hfiles

/-- The party goes on, and the directory is as it was. -/
theorem moves_same (hd : d.Sound) (hholds : q.phase.holds = p.phase.holds) (hq : q.Relies d) : Moves p d d {q} :=
  moves_goes hd hholds rfl hq (fun _ => id) fun _ => ⟨rfl, rfl⟩

/-- The party ends and releases its lock. -/
theorem moves_release (hd : d'.Sound) (hholds : p.phase.holds = true) (hlocked : d.locked = true)
    (hlock : ∀ node, d.lock = some node → d'.lock = some node) : Moves p d d'.release 0 where
  sound := ⟨hd.lock, hd.metadata⟩
  tokens := by simp [Party.weight, ScopeDirectory.tokens, ScopeDirectory.release, hholds, hlocked]
  relies := by simp
  lock := hlock
  files h := by simp [hholds] at h

/-- The party ends, and had no lock. -/
theorem moves_end (hd : d.Sound) (hholds : p.phase.holds = false) : Moves p d d 0 where
  sound := hd
  tokens := by simp [Party.weight, hholds]
  relies := by simp
  lock _ := id
  files _ := ⟨rfl, rfl⟩

theorem relies_ite {c : Prop} [Decidable c] {phase phase' : Phase} (h : c → (p.to phase).Relies d)
    (h' : ¬ c → (p.to phase').Relies d) : (p.to (if c then phase else phase')).Relies d := by
  split
  · exact h ‹_›
  · exact h' ‹_›

/-- **A step of a party when nothing fails.** -/
theorem moves_advance (hd : d.Sound) (hp : p.Relies d) (hlocked : p.phase.holds = true → d.locked = true) :
    Moves p d (p.advance d).1 (p.advance d).2.parties := by
  unfold Party.advance
  cases hphase : p.phase with
  | permitting =>
    simp only
    split
    · exact moves_end hd (by rw [hphase]; rfl)
    · exact moves_same hd (by rw [hphase]; rfl) trivial
  | opening =>
    simp only
    cases hlock : d.lock with
    | some node =>
      simp only
      split
      · exact moves_same hd (by rw [hphase]; rfl) ⟨node, hlock, rfl⟩
      · exact moves_end hd (by rw [hphase]; rfl)
    | none =>
      refine moves_goes ⟨?_, hd.metadata⟩ (by rw [hphase]; rfl) rfl ⟨_, rfl, rfl⟩ (by simp [hlock]) fun _ => ⟨rfl, rfl⟩
      intro node hnode
      cases hnode
      exact ⟨rfl, rfl⟩
  | locking =>
    have hopened : p.Opened d := by simpa only [Party.Relies, hphase] using hp
    simp only
    cases hfree : d.locked with
    | true => exact moves_end hd (by rw [hphase]; rfl)
    | false =>
      simp only [Bool.false_eq_true, if_false]
      by_cases hmode : p.mode = .legacy
      · simp only [hmode, if_true]
        refine ⟨⟨hd.lock, hd.metadata⟩, ?_, ?_, fun _ => id, fun _ => ⟨rfl, rfl⟩⟩
        · simp [Advance.parties, Party.weight, Party.to, hphase, Phase.holds, ScopeDirectory.tokens, hfree]
        · exact fun q hq => Multiset.mem_singleton.mp hq ▸ ⟨hopened, hmode⟩
      · simp only [hmode, if_false]
        refine ⟨⟨hd.lock, hd.metadata⟩, ?_, ?_, fun _ => id, fun _ => ⟨rfl, rfl⟩⟩
        · simp [Advance.parties, Party.weight, Party.to, hphase, Phase.holds, ScopeDirectory.tokens, hfree]
        · exact fun q hq => Multiset.mem_singleton.mp hq ▸ hopened
  | scoping =>
    have hopened : p.Opened d := by simpa only [Party.Relies, hphase] using hp
    simp only [validateLock_ok hd hopened, ok_bind, revalidateExisting_ok hd]
    exact moves_same hd (by rw [hphase]; rfl) ⟨hopened, fun _ => rfl⟩
  | clearing =>
    obtain ⟨hopened, hmode⟩ : p.Opened d ∧ p.mode = .legacy := by simpa only [Party.Relies, hphase] using hp
    exact moves_goes ⟨hd.lock, hd.metadata⟩ (by rw [hphase]; rfl) rfl ⟨hopened, fun hne => absurd hmode hne⟩ (fun _ => id)
      (by simp [hphase, Phase.holds])
  | creating =>
    obtain ⟨hopened, hfound⟩ : p.Opened d ∧ p.Found d := by simpa only [Party.Relies, hphase] using hp
    have hlock := hlocked (by rw [hphase]; rfl)
    simp only
    cases htemporary : d.temporary p.pid with
    | some node => exact moves_release hd (by rw [hphase]; rfl) hlock fun _ => id
    | none =>
      refine moves_goes ⟨hd.lock, hd.metadata⟩ (by rw [hphase]; rfl) rfl ?_ (fun _ => id) (by simp [hphase, Phase.holds])
      exact ⟨hopened, hfound, ⟨_, Function.update_self .., rfl, rfl, rfl⟩⟩
  | writing left =>
    obtain ⟨hopened, hfound, hdrafts⟩ : p.Opened d ∧ p.Found d ∧ p.Drafts d left := by
      simpa only [Party.Relies, hphase] using hp
    cases left with
    | nil =>
      refine moves_same hd ?_ ?_
      · simp only [Party.to, hphase]
        split <;> rfl
      · exact relies_ite (fun _ => ⟨hopened, hfound, hdrafts⟩) fun hmode => ⟨hopened, hmode, hfound, hdrafts⟩
    | cons line left =>
      obtain ⟨node, hnode, hfile, hmode, htext⟩ := hdrafts
      refine moves_goes ⟨hd.lock, hd.metadata⟩ (by rw [hphase]; rfl) rfl ?_ (fun _ => id) (by simp [hphase, Phase.holds])
      refine ⟨hopened, hfound, ⟨{ node with text := node.text ++ [line] }, ?_, hfile, hmode, ?_⟩⟩
      · simp [ScopeDirectory.setTemporary, Party.to, hnode]
      · simpa [Party.to] using htext
  | checking =>
    obtain ⟨hopened, hmode, hfound, hdrafts⟩ : p.Opened d ∧ p.mode ≠ .legacy ∧ p.Found d ∧ p.Drafts d [] := by
      simpa only [Party.Relies, hphase] using hp
    simp only [validateLock_ok hd hopened, ok_bind, hfound hmode, revalidateExisting_ok hd]
    exact moves_same hd (by rw [hphase]; rfl) ⟨hopened, hfound, hdrafts⟩
  | cleaning =>
    have hkept : (d.setTemporary p.pid none).Sound := ⟨hd.lock, hd.metadata⟩
    exact moves_release hkept (by rw [hphase]; rfl) (hlocked (by rw [hphase]; rfl)) fun _ => id
  | publishing =>
    obtain ⟨hopened, hfound, node, hnode, hfile, hmode, htext⟩ : p.Opened d ∧ p.Found d ∧ p.Drafts d [] := by
      simpa only [Party.Relies, hphase] using hp
    rw [List.append_nil] at htext
    simp only [hnode]
    refine moves_goes ⟨hd.lock, ?_⟩ (by rw [hphase]; rfl) rfl ⟨hopened, node, rfl, hfile, hmode, htext⟩ (fun _ => id)
      (by simp [hphase, Phase.holds])
    intro node' hnode'
    cases hnode'
    exact ⟨hmode, _, _, htext⟩
  | syncing =>
    obtain ⟨hopened, hpublished⟩ : p.Opened d ∧ p.Published d := by simpa only [Party.Relies, hphase] using hp
    refine moves_same hd ?_ ?_
    · simp only [Party.to, hphase]
      split <;> rfl
    · exact relies_ite (fun _ => ⟨hopened, hpublished⟩) fun _ => ⟨hopened, hpublished⟩
  | verifying =>
    obtain ⟨hopened, hpublished⟩ : p.Opened d ∧ p.Published d := by simpa only [Party.Relies, hphase] using hp
    simp only [verify_ok hd hopened hpublished]
    exact moves_same hd (by rw [hphase]; rfl) ⟨hopened, hpublished⟩
  | owning =>
    obtain ⟨hopened, hpublished⟩ : p.Opened d ∧ p.Published d := by simpa only [Party.Relies, hphase] using hp
    refine moves_same hd ?_ ?_
    · simp only [Party.to, hphase]
      cases p.mode <;> rfl
    · simp only [Party.Relies, Party.to]
      cases p.mode <;> exact ⟨hopened, hpublished⟩
  | withdrawing =>
    obtain ⟨hopened, hpublished⟩ : p.Opened d ∧ p.Published d := by simpa only [Party.Relies, hphase] using hp
    refine moves_same hd ?_ ?_
    · simp only [Party.to, hphase]
      split <;> rfl
    · exact relies_ite (fun _ => hopened) fun _ => ⟨hopened, hpublished⟩
  | rechecking =>
    obtain ⟨hopened, hpublished⟩ : p.Opened d ∧ p.Published d := by simpa only [Party.Relies, hphase] using hp
    simp only [revalidate_ok hd hopened hpublished, if_true]
    exact moves_same hd (by rw [hphase]; rfl) ⟨hopened, hpublished⟩
  | removing =>
    obtain ⟨hopened, _⟩ : p.Opened d ∧ p.Published d := by simpa only [Party.Relies, hphase] using hp
    exact moves_goes ⟨hd.lock, by simp⟩ (by rw [hphase]; rfl) rfl hopened (fun _ => id) (by simp [hphase, Phase.holds])
  | unlocking => exact moves_release hd (by rw [hphase]; rfl) (hlocked (by rw [hphase]; rfl)) fun _ => id

/-- **A step of a party that fails.** -/
theorem moves_fails {new : Multiset Party} (hd : d.Sound) (hp : p.Relies d) (hlocked : p.phase.holds = true → d.locked = true)
    (h : p.Fails d d' new) : Moves p d d' new := by
  cases h with
  | unlocked h => exact moves_end hd h
  | writing line left piece h =>
    have hkept : (d.setTemporary p.pid ((d.temporary p.pid).map fun node => { node with text := node.text ++ [piece] })).Sound :=
      ⟨hd.lock, hd.metadata⟩
    exact moves_release hkept (by rw [h]; rfl) (hlocked (by rw [h]; rfl)) fun _ => id
  | returned h =>
    have hholds : p.phase.holds = true := by
      obtain h | h | h | h | h | h | ⟨h, _⟩ := h <;> rw [h] <;> rfl
    exact moves_release hd hholds (hlocked hholds) fun _ => id
  | clearing h =>
    obtain ⟨hopened, hmode⟩ : p.Opened d ∧ p.mode = .legacy := by simpa only [Party.Relies, h] using hp
    exact moves_same hd (by rw [h]; rfl) ⟨hopened, fun hne => absurd hmode hne⟩
  | checking h =>
    obtain ⟨hopened, _⟩ : p.Opened d ∧ p.mode ≠ .legacy ∧ p.Found d ∧ p.Drafts d [] := by simpa only [Party.Relies, h] using hp
    exact moves_same hd (by rw [h]; rfl) hopened
  | verifying h hmode =>
    have hpublished : p.Opened d ∧ p.Published d := by simpa only [Party.Relies, h] using hp
    exact moves_same hd (by rw [h]; rfl) hpublished
  | dropping h =>
    obtain h | h | h := h
    all_goals
      obtain ⟨hopened, _⟩ : p.Opened d ∧ p.Published d := by simpa only [Party.Relies, h] using hp
      exact moves_same hd (by rw [h]; rfl) hopened

/-- The last step of a process. -/
theorem moves_crash (hd : d.Sound) (hlocked : p.phase.holds = true → d.locked = true) : Moves p d (p.crash d) 0 := by
  unfold Party.crash
  cases hholds : p.phase.holds with
  | true => exact moves_release hd hholds (hlocked hholds) fun _ => id
  | false => exact moves_end hd hholds

theorem moves_step {new : Multiset Party} (hd : d.Sound) (hp : p.Relies d) (hlocked : p.phase.holds = true → d.locked = true)
    (h : p.step d d' new) : Moves p d d' new := by
  obtain ⟨rfl, rfl⟩ | h | ⟨rfl, rfl⟩ := h
  · exact moves_advance hd hp hlocked
  · exact moves_fails hd hp hlocked h
  · exact moves_crash hd hlocked

/-- What a party relies on is not touched by a step that keeps the lock file, and the other files if it has the lock. -/
theorem Party.Relies.frame (h : q.Relies d) (hlock : ∀ node, d.lock = some node → d'.lock = some node)
    (hfiles : q.phase.holds = true → d'.metadata = d.metadata ∧ d'.temporary = d.temporary) : q.Relies d' := by
  have hopened : q.Opened d → q.Opened d' := fun ⟨node, hnode, hfile⟩ => ⟨node, hlock node hnode, hfile⟩
  unfold Party.Relies at h ⊢
  cases hphase : q.phase with
  | permitting => trivial
  | opening => trivial
  | locking =>
    simp only [hphase] at h ⊢
    exact hopened h
  | _ =>
    obtain ⟨hmetadata, htemporary⟩ := hfiles (by rw [hphase]; rfl)
    simp only [hphase, Party.Found, Party.Drafts, Party.Published, hmetadata, htemporary] at h ⊢
    first
    | exact hopened h
    | exact ⟨hopened h.1, h.2⟩

end Moves

/-! ### The invariant -/

/-- **The invariant of any number of parties.** -/
structure Inv (c : Threads.Config ScopeDirectory Party) : Prop where
  sound : c.shared.Sound
  tokens : Threads.count Party.weight c.threads = c.shared.tokens
  relies : ∀ p ∈ c.threads, p.Relies c.shared

/-- No party has begun. -/
def start : Threads.Config ScopeDirectory Party := ⟨.new, 0⟩

theorem inv_start : Inv start where
  sound := ⟨by simp [start, ScopeDirectory.new], by simp [start, ScopeDirectory.new]⟩
  tokens := rfl
  relies := by simp [start]

theorem tokens_le_one (d : ScopeDirectory) : d.tokens ≤ 1 := by
  unfold ScopeDirectory.tokens
  split <;> omega

theorem weight_of_holds {p : Party} (h : p.phase.holds = true) : p.weight = 1 := if_pos h

/-- A party that has the lock knows that it is taken. -/
theorem Inv.locked {c : Threads.Config ScopeDirectory Party} (h : Inv c) {p : Party} (hp : p ∈ c.threads)
    (hholds : p.phase.holds = true) : c.shared.locked = true := by
  have hle : p.weight ≤ Threads.count Party.weight c.threads := Threads.le_count_of_mem hp
  rw [h.tokens, weight_of_holds hholds, ScopeDirectory.tokens] at hle
  by_contra hfree
  rw [if_neg hfree] at hle
  omega

/-- **A step of a party keeps the invariant.** -/
theorem inv_step (p : Party) (d d' : ScopeDirectory) (new rest : Multiset Party) (hstep : p.step d d' new)
    (h : Inv ⟨d, p ::ₘ rest⟩) : Inv ⟨d', new + rest⟩ := by
  have hmem := Multiset.mem_cons_self p rest
  have hmoves : Moves p d d' new := moves_step h.sound (h.relies p hmem) (h.locked hmem) hstep
  have htokens : Threads.count Party.weight (p ::ₘ rest) = d.tokens := h.tokens
  have hmoved := hmoves.tokens
  rw [Threads.count_cons] at htokens
  refine ⟨hmoves.sound, ?_, fun q hq => ?_⟩
  · show Threads.count Party.weight (new + rest) = d'.tokens
    rw [Threads.count_add]
    omega
  · obtain hq | hq := Multiset.mem_add.mp hq
    · exact hmoves.relies q hq
    · refine (h.relies q (Multiset.mem_cons_of_mem hq)).frame hmoves.lock fun hholds => hmoves.files ?_
      -- Both cannot have the lock.
      have hle : q.weight ≤ Threads.count Party.weight rest := Threads.le_count_of_mem hq
      have hone := tokens_le_one d
      rw [weight_of_holds hholds] at hle
      by_contra hp
      rw [Bool.not_eq_false] at hp
      rw [weight_of_holds hp] at htokens
      omega

theorem inv_event (d d' : ScopeDirectory) (new rest : Multiset Party) (hevent : Happens d d' new) (h : Inv ⟨d, rest⟩) :
    Inv ⟨d', new + rest⟩ := by
  cases hevent with
  | begins pid mode nonce =>
    have hweight : (Party.begin pid mode nonce).weight = 0 := by cases mode <;> rfl
    refine ⟨h.sound, ?_, fun q hq => ?_⟩
    · rw [Threads.count_add, Threads.count_singleton, hweight, Nat.zero_add]
      exact h.tokens
    · obtain hq | hq := Multiset.mem_add.mp hq
      · obtain rfl := Multiset.mem_singleton.mp hq
        cases mode <;> exact trivial
      · exact h.relies q hq
  | freezes frozen =>
    refine ⟨⟨h.sound.lock, h.sound.metadata⟩, by rw [zero_add]; exact h.tokens, fun q hq => ?_⟩
    rw [zero_add] at hq
    exact (h.relies q hq).frame (fun _ => id) fun _ => ⟨rfl, rfl⟩

theorem inv_reaches {c : Threads.Config ScopeDirectory Party} (h : Threads.Reaches singletons start c) : Inv c :=
  Threads.invariant_reaches inv_step inv_event h inv_start

/-! ### A party alone -/

section Alone

variable {p q : Party} {d d' : ScopeDirectory} {steps : ℕ}

/-- The party goes on alone, and becomes the owner. -/
def Wins (steps : ℕ) (p : Party) (d : ScopeDirectory) : Prop := (p.alone steps d).2.acquired = true

theorem alone_goes (hphase : p.phase ≠ .owning) (h : p.advance d = (d', .goes q)) : p.alone (steps + 1) d = q.alone steps d' := by
  rw [Party.alone, if_neg hphase, h]

theorem alone_ends {error : Option SingletonError} (hphase : p.phase ≠ .owning) (h : p.advance d = (d', .ends error)) :
    p.alone (steps + 1) d = (d', .ends error) := by
  rw [Party.alone, if_neg hphase, h]

theorem wins_owning (h : p.phase = .owning) : Wins steps p d := by
  unfold Wins
  cases steps with
  | zero => simp [Party.alone, Advance.acquired, h]
  | succ steps => simp [Party.alone, Advance.acquired, h]

/-- A party with the lock goes on to the next phase, and from there it wins. -/
theorem wins_next (hd : d.Sound) (hp : p.Relies d) (hlocked : d.locked = true) (hphase : p.phase ≠ .owning)
    (h : p.advance d = (d', .goes q)) (hwins : d'.Sound → q.Relies d' → Wins steps q d') : Wins (steps + 1) p d := by
  have hmoves := moves_advance hd hp fun _ => hlocked
  rw [h] at hmoves
  rw [Wins, alone_goes hphase h]
  exact hwins hmoves.sound (hmoves.relies q (Multiset.mem_singleton_self q))

theorem wins_verifying (hd : d.Sound) (hp : p.Relies d) (hlocked : d.locked = true) (hphase : p.phase = .verifying) :
    Wins (steps + 1) p d := by
  obtain ⟨hopened, hpublished⟩ : p.Opened d ∧ p.Published d := by simpa only [Party.Relies, hphase] using hp
  have h : p.advance d = (d, .goes (p.to .owning)) := by simp only [Party.advance, hphase, verify_ok hd hopened hpublished]
  exact wins_next hd hp hlocked (by simp [hphase]) h fun _ _ => wins_owning rfl

theorem wins_syncing (hd : d.Sound) (hp : p.Relies d) (hlocked : d.locked = true) (hphase : p.phase = .syncing) :
    Wins (steps + 2) p d := by
  have h : p.advance d = (d, .goes (p.to (if p.mode = .legacy then .owning else .verifying))) := by
    simp only [Party.advance, hphase]
  refine wins_next hd hp hlocked (by simp [hphase]) h fun hd' hq => ?_
  by_cases hmode : p.mode = .legacy
  · exact wins_owning (by simp [Party.to, hmode])
  · rw [if_neg hmode] at hq ⊢
    exact wins_verifying hd' hq hlocked rfl

theorem wins_publishing (hd : d.Sound) (hp : p.Relies d) (hlocked : d.locked = true) (hphase : p.phase = .publishing) :
    Wins (steps + 3) p d := by
  obtain ⟨_, _, node, hnode, _⟩ : p.Opened d ∧ p.Found d ∧ p.Drafts d [] := by simpa only [Party.Relies, hphase] using hp
  have h : p.advance d = ({ d.setTemporary p.pid none with metadata := some node }, .goes (p.to .syncing)) := by
    simp only [Party.advance, hphase, hnode]
  exact wins_next hd hp hlocked (by simp [hphase]) h fun hd' hq => wins_syncing hd' hq hlocked rfl

theorem wins_checking (hd : d.Sound) (hp : p.Relies d) (hlocked : d.locked = true) (hphase : p.phase = .checking) :
    Wins (steps + 4) p d := by
  obtain ⟨hopened, hmode, hfound, _⟩ : p.Opened d ∧ p.mode ≠ .legacy ∧ p.Found d ∧ p.Drafts d [] := by
    simpa only [Party.Relies, hphase] using hp
  have h : p.advance d = (d, .goes (p.to .publishing)) := by
    simp only [Party.advance, hphase, validateLock_ok hd hopened, ok_bind, hfound hmode, revalidateExisting_ok hd]
  exact wins_next hd hp hlocked (by simp [hphase]) h fun hd' hq => wins_publishing hd' hq hlocked rfl

theorem wins_writing (steps : ℕ) (left : List Line) : ∀ {p : Party} {d : ScopeDirectory}, d.Sound → p.Relies d → d.locked = true →
    p.phase = .writing left → Wins (steps + 5 + left.length) p d := by
  induction left with
  | nil =>
    intro p d hd hp hlocked hphase
    have h : p.advance d = (d, .goes (p.to (if p.mode = .legacy then .publishing else .checking))) := by
      simp only [Party.advance, hphase]
    refine wins_next hd hp hlocked (by simp [hphase]) h fun hd' hq => ?_
    by_cases hmode : p.mode = .legacy
    · rw [if_pos hmode] at hq ⊢
      exact wins_publishing hd' hq hlocked rfl
    · rw [if_neg hmode] at hq ⊢
      exact wins_checking hd' hq hlocked rfl
  | cons line left ih =>
    intro p d hd hp hlocked hphase
    have h : p.advance d =
        (d.setTemporary p.pid ((d.temporary p.pid).map fun node => { node with text := node.text ++ [line] }),
          .goes (p.to (.writing left))) := by
      simp only [Party.advance, hphase]
    exact wins_next hd hp hlocked (by simp [hphase]) h fun hd' hq => ih hd' hq hlocked rfl

/-- A party that is about to create its temporary file becomes the owner if no file is there; if there is one, it fails and
leaves it. -/
theorem alone_creating (steps : ℕ) (hd : d.Sound) (hp : p.Relies d) (hlocked : d.locked = true) (hphase : p.phase = .creating) :
    (Wins (steps + 9) p d ↔ d.temporary p.pid = none) ∧
      (d.temporary p.pid ≠ none → (p.alone (steps + 9) d).1.temporary = d.temporary) := by
  cases htemporary : d.temporary p.pid with
  | none =>
    have h : p.advance d = ({ d.setTemporary p.pid (some ⟨d.nextIno, 0o600, []⟩) with nextIno := d.nextIno + 1 },
        .goes { p with metadata := some d.nextIno, phase := .writing (metadataLines p.pid p.nonce) }) := by
      simp only [Party.advance, hphase, htemporary]
    have hwins : Wins (steps + 9) p d := wins_next hd hp hlocked (by simp [hphase]) h fun hd' hq =>
      wins_writing steps (metadataLines p.pid p.nonce) hd' hq hlocked rfl
    exact ⟨⟨fun _ => rfl, fun _ => hwins⟩, fun hne => absurd rfl hne⟩
  | some node =>
    have h : p.advance d = (d.release, .ends (some .io)) := by simp only [Party.advance, hphase, htemporary]
    have halone : p.alone (steps + 9) d = (d.release, .ends (some .io)) := alone_ends (by simp [hphase]) h
    refine ⟨⟨fun hwins => ?_, nofun⟩, fun _ => by rw [halone]; rfl⟩
    rw [Wins, halone] at hwins
    cases hwins

/-- A party opens the lock file and takes the lock, which is free. -/
theorem alone_opening (hd : d.Sound) (hfree : d.locked = false) (hphase : p.phase = .opening) :
    ∃ (q : Party) (d' : ScopeDirectory), (∀ steps, p.alone (steps + 2) d = q.alone steps d') ∧ d'.Sound ∧ q.Relies d' ∧ d'.locked = true ∧
      d'.temporary = d.temporary ∧ q.pid = p.pid ∧ q.mode = p.mode ∧
      q.phase = if p.mode = .legacy then .clearing else .scoping := by
  -- The lock file is there, or it is created.
  obtain ⟨d₁, ino, hadvance, hfree₁, htemporary⟩ : ∃ d₁ ino,
      p.advance d = (d₁, .goes { p with lockFile := some ino, phase := .locking }) ∧ d₁.locked = false ∧
        d₁.temporary = d.temporary := by
    cases hlock : d.lock with
    | some node =>
      refine ⟨d, node.ino, ?_, hfree, rfl⟩
      simp only [Party.advance, hphase, hlock, (hd.lock node hlock).1]
      rfl
    | none =>
      refine ⟨{ d with nextIno := d.nextIno + 1, lock := some ⟨d.nextIno, 0o600, []⟩ }, d.nextIno, ?_, hfree, rfl⟩
      simp only [Party.advance, hphase, hlock]
  have hmoves := moves_advance hd (p := p) (by simp only [Party.Relies, hphase]) (by simp [hphase, Phase.holds])
  rw [hadvance] at hmoves
  have hq := hmoves.relies _ (Multiset.mem_singleton_self _)
  have hadvance₁ : ({ p with lockFile := some ino, phase := .locking } : Party).advance d₁ = ({ d₁ with locked := true },
      .goes { p with lockFile := some ino, phase := if p.mode = .legacy then .clearing else .scoping }) := by
    simp only [Party.advance, hfree₁]
    rfl
  have hmoves₁ := moves_advance hmoves.sound hq (by simp [Phase.holds])
  rw [hadvance₁] at hmoves₁
  refine ⟨_, _, fun steps => ?_, hmoves₁.sound, hmoves₁.relies _ (Multiset.mem_singleton_self _), rfl, htemporary, rfl, rfl, rfl⟩
  rw [alone_goes (by simp [hphase]) hadvance, alone_goes (by simp) hadvance₁]

/-- **What an acquisition comes to when the lock is free and no other party takes a step.** -/
theorem acquire_alone (hd : d.Sound) (hfree : d.locked = false) (hfrozen : d.frozen = false) (pid : UInt32)
    (mode : SingletonAcquireMode) (nonce : Nonce) :
    ((acquire pid mode nonce d).2.acquired = true ↔ mode = .legacy ∨ d.temporary pid = none) ∧
      (mode ≠ .legacy → d.temporary pid ≠ none → (acquire pid mode nonce d).1.temporary = d.temporary) := by
  obtain ⟨p, steps, halone, hphase, hpid, hmode⟩ : ∃ (p : Party) (steps : ℕ), acquire pid mode nonce d = p.alone (steps + 9 + 1 + 2) d ∧
      p.phase = .opening ∧ p.pid = pid ∧ p.mode = mode := by
    cases mode with
    | legacy => exact ⟨_, 4, rfl, rfl, rfl, rfl⟩
    | retained => exact ⟨_, 4, rfl, rfl, rfl, rfl⟩
    | coordinated =>
      refine ⟨(Party.begin pid .coordinated nonce).to .opening, 3, ?_, rfl, rfl, rfl⟩
      refine alone_goes (by simp [Party.begin]) ?_
      simp [Party.advance, Party.begin, hfrozen]
  obtain ⟨q, d', hsteps, hd', hq, hlocked, htemporary, hqpid, hqmode, hqphase⟩ := alone_opening hd hfree hphase
  rw [hmode] at hqmode hqphase
  rw [hpid] at hqpid
  rw [halone, hsteps]
  by_cases hlegacy : mode = .legacy
  · rw [if_pos hlegacy] at hqphase
    have h : q.advance d' = (d'.setTemporary q.pid none, .goes (q.to .creating)) := by simp only [Party.advance, hqphase]
    have hmoves := moves_advance hd' hq fun _ => hlocked
    rw [h] at hmoves
    have hcreating := alone_creating (p := q.to .creating) steps hmoves.sound
      (hmoves.relies _ (Multiset.mem_singleton_self _)) hlocked rfl
    refine ⟨iff_of_true ?_ (.inl hlegacy), fun hne => absurd hlegacy hne⟩
    rw [alone_goes (by simp [hqphase]) h]
    exact hcreating.1.mpr (by simp [ScopeDirectory.setTemporary, Party.to])
  · rw [if_neg hlegacy] at hqphase
    have hopened : q.Opened d' := by simpa only [Party.Relies, hqphase] using hq
    have h : q.advance d' = (d', .goes { q with existing := d'.metadata.map Node.ino, phase := .creating }) := by
      simp only [Party.advance, hqphase, validateLock_ok hd' hopened, ok_bind, revalidateExisting_ok hd']
    have hmoves := moves_advance hd' hq fun _ => hlocked
    rw [h] at hmoves
    have hcreating := alone_creating steps hmoves.sound (hmoves.relies _ (Multiset.mem_singleton_self _)) hlocked rfl
    have hthere : d'.temporary q.pid = d.temporary pid := by rw [htemporary, hqpid]
    rw [alone_goes (by simp [hqphase]) h]
    refine ⟨hcreating.1.trans ?_, fun _ hne => (hcreating.2 (hthere ▸ hne)).trans htemporary⟩
    show d'.temporary q.pid = none ↔ _
    rw [hthere]
    exact ⟨.inr, fun hor => hor.resolve_left hlegacy⟩

end Alone

/-! ### What holds of any run -/

/-- The party is a live owner. -/
def Party.owns (p : Party) : ℕ := if p.phase = .owning then 1 else 0

/-- **Singletons.** In every state that any steps of any parties lead to: at most one live owner is there; the metadata is
that of the owner, which passes its checks; a party that is about to remove the metadata removes its own; and if nobody has
the lock and the storage barrier is not locked, an acquisition succeeds, unless it is a production acquisition and a
temporary file of its own process id is there, which it leaves as it is. -/
theorem singletons_sound {c : Threads.Config ScopeDirectory Party} (h : Threads.Reaches singletons start c) :
    Threads.count Party.owns c.threads ≤ 1 ∧
      (∀ p ∈ c.threads, p.phase = .owning → p.revalidate c.shared = .ok () ∧
        ∃ node, c.shared.metadata = some node ∧ parseNonce node.text = .ok p.nonce) ∧
      (∀ p ∈ c.threads, p.phase = .removing → ∃ node, c.shared.metadata = some node ∧ p.metadata = some node.ino ∧
        node.text = metadataLines p.pid p.nonce) ∧
      (c.shared.locked = false → c.shared.frozen = false → ∀ (pid : UInt32) (mode : SingletonAcquireMode) (nonce : Nonce),
        ((acquire pid mode nonce c.shared).2.acquired = true ↔ mode = .legacy ∨ c.shared.temporary pid = none) ∧
        (mode ≠ .legacy → c.shared.temporary pid ≠ none →
          (acquire pid mode nonce c.shared).1.temporary = c.shared.temporary)) := by
  have hinv := inv_reaches h
  refine ⟨?_, fun p hp hphase => ?_, fun p hp hphase => ?_, fun hfree hfrozen pid mode nonce =>
    acquire_alone hinv.sound hfree hfrozen pid mode nonce⟩
  · have hle : ∀ p : Party, p.owns ≤ p.weight := by
      intro p
      unfold Party.owns
      split
      · rename_i hphase
        rw [weight_of_holds (by rw [hphase]; rfl)]
      · exact Nat.zero_le _
    calc Threads.count Party.owns c.threads ≤ Threads.count Party.weight c.threads :=
          Multiset.sum_map_le_sum_map _ _ fun p _ => hle p
      _ = c.shared.tokens := hinv.tokens
      _ ≤ 1 := tokens_le_one _
  · obtain ⟨hopened, hpublished⟩ : p.Opened c.shared ∧ p.Published c.shared := by
      simpa only [Party.Relies, hphase] using hinv.relies p hp
    refine ⟨revalidate_ok hinv.sound hopened hpublished, ?_⟩
    obtain ⟨node, hnode, _, _, htext⟩ := hpublished
    exact ⟨node, hnode, htext ▸ parseNonce_metadataLines _ _⟩
  · obtain ⟨_, node, hnode, hfile, _, htext⟩ : p.Opened c.shared ∧ p.Published c.shared := by
      simpa only [Party.Relies, hphase] using hinv.relies p hp
    exact ⟨node, hnode, hfile, htext⟩

/-! ### A file that a crash has left -/

/-- A nonce. -/
def sampleNonce : Nonce := ⟨List.replicate 32 7, rfl⟩

/-- The directory after a production acquisition of process 7 that died when it had created its temporary file. -/
def leftBehind : ScopeDirectory :=
  { ScopeDirectory.new.setTemporary 7 (some ⟨1, 0o600, []⟩) with nextIno := 2, lock := some ⟨0, 0o600, []⟩ }

theorem reaches_leftBehind : Threads.Reaches singletons start ⟨leftBehind, 0⟩ := by
  refine Threads.reaches_event (.begins 7 .retained sampleNonce) ?_
  -- It opens and takes the lock, checks the directory and creates its file.
  refine Threads.reaches_thread (.inl ⟨rfl, rfl⟩) ?_
  refine Threads.reaches_thread (.inl ⟨rfl, rfl⟩) ?_
  refine Threads.reaches_thread (.inl ⟨rfl, rfl⟩) ?_
  refine Threads.reaches_thread (.inl ⟨rfl, rfl⟩) ?_
  exact Threads.reaches_ended (.inr (.inr ⟨rfl, rfl⟩)) .refl

theorem singletons_sound_leftBehind :
    (acquire 7 .legacy sampleNonce leftBehind).2.acquired = true ∧ (acquire 7 .retained sampleNonce leftBehind).2.acquired = false ∧
      (acquire 8 .retained sampleNonce leftBehind).2.acquired = true := by
  have hacquire := (singletons_sound reaches_leftBehind).2.2.2 rfl rfl
  have hleft : leftBehind.temporary 7 ≠ none := by simp [leftBehind, ScopeDirectory.setTemporary]
  have hnone : leftBehind.temporary 8 = none := by simp [leftBehind, ScopeDirectory.setTemporary, ScopeDirectory.new]
  refine ⟨(hacquire 7 .legacy sampleNonce).1.mpr (.inl rfl), ?_, (hacquire 8 .retained sampleNonce).1.mpr (.inr hnone)⟩
  rw [← Bool.not_eq_true, (hacquire 7 .retained sampleNonce).1]
  simp [hleft]

/-- Not every acquisition succeeds when nobody has the lock: process 7 dies, and another process has its id. -/
theorem not_acquire_whenever_free :
    ¬ ∀ c, Threads.Reaches singletons start c → c.shared.locked = false → c.shared.frozen = false →
      ∀ (pid : UInt32) (mode : SingletonAcquireMode) (nonce : Nonce),
        (acquire pid mode nonce c.shared).2.acquired = true := by
  intro h
  have hacquired := h _ reaches_leftBehind rfl rfl 7 .retained sampleNonce
  have hleft : leftBehind.temporary 7 ≠ none := by simp [leftBehind, ScopeDirectory.setTemporary]
  have hor := (acquire_alone (inv_reaches reaches_leftBehind).sound rfl rfl 7 .retained sampleNonce).1.mp hacquired
  simp [hleft] at hor

end AgentObservability.Runtime
