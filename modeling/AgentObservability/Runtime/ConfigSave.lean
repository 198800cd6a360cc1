import AgentObservability.Foundation.Run
import AgentObservability.Foundation.Sha256
import AgentObservability.Runtime.Config
import Mathlib.Data.List.Chain
import Mathlib.Logic.Function.Basic

/-!
# Saving the configuration

`save_guarded` replaces the configuration file under the mutation guard: it compares
the revision that the caller read with the revision of the file, writes the new
document to a temporary file, compares again, and renames. Whatever the system
refuses on the way is an input, `Faults`.

* `save_cases` — what a save can do;
* `history_chain` — over any reads and saves, each save was made from a
  configuration with the revision of the one that it replaces.
-/

namespace AgentObservability.Runtime

open Contracts Foundation Foundation.Json

/-- The files that a save reads and writes. -/
structure ConfigFiles where
  /-- `config.json`. -/
  config : Option (List UInt8)
  /-- The files `.config.json.update.{process}.{sequence}`. -/
  updates : ℕ × UInt64 → Option (List UInt8)
  /-- `UPDATE_SEQUENCE` of a process. -/
  sequence : ℕ → UInt64

namespace ConfigFiles

/-- Another content of an update file, or none. -/
def setUpdate (files : ConfigFiles) (name : ℕ × UInt64) (content : Option (List UInt8)) : ConfigFiles :=
  { files with updates := Function.update files.updates name content }

/-- `fs::rename` onto `config.json`. -/
def rename (files : ConfigFiles) (name : ℕ × UInt64) : ConfigFiles :=
  { files with config := files.updates name, updates := Function.update files.updates name none }

/-- `fetch_add` of `UPDATE_SEQUENCE`. -/
def advance (files : ConfigFiles) (process : ℕ) : ConfigFiles :=
  { files with sequence := Function.update files.sequence process (files.sequence process + 1) }

@[simp] theorem config_setUpdate (files : ConfigFiles) (name : ℕ × UInt64) (content : Option (List UInt8)) :
    (files.setUpdate name content).config = files.config := rfl

@[simp] theorem config_advance (files : ConfigFiles) (process : ℕ) : (files.advance process).config = files.config := rfl

end ConfigFiles

/-- What the system refuses during one save. -/
structure Faults where
  /-- `require_root`, `open_if_initialized` and `try_freeze`. -/
  guard : Option ConfigError := none
  /-- `reject_symlink`, `private_dir` and `open_private_read`. -/
  path : Option ConfigError := none
  /-- The reads of the first `ensure_revision`. -/
  loading : Option ConfigError := none
  /-- Creating an update file, for another reason than that it exists. -/
  creation : UInt64 → Option ConfigError := fun _ => none
  /-- The bytes written before `write_all` fails. -/
  write : Option ℕ := none
  /-- `sync_all` of the file, and `private_open_file`. -/
  fileSync : Option ConfigError := none
  /-- The reads of the second `ensure_revision`. -/
  reloading : Option ConfigError := none
  /-- `fs::rename`. -/
  rename : Option ConfigError := none
  /-- `sync_all` of the directory. -/
  parentSync : Option ConfigError := none
  /-- `fs::remove_file`, whose result is not looked at. -/
  remove : Bool := false
  /-- `require_root` once more. -/
  mutation : Bool := false
  /-- `revalidate` of the barrier and of the freeze. -/
  accounting : Bool := false

/-- Fails where the system does. -/
def failing {ε : Type} : Option ε → Except ε Unit
  | some e => .error e
  | none => .ok ()

/-- `MAX_CONFIG_FILE_BYTES`. -/
def maxConfigFileBytes : ℕ := 65536

section Save

variable [Sha2] (fromStr : String → Option Value)

/-- `decode_open_file`. -/
def decodeOpenFile (body : List UInt8) : Except ConfigError LocalRuntimeConfigV5 := do
  require (body.length ≤ maxConfigFileBytes) .inputTooLarge
  let text ← ofOption .io (String.fromUTF8? ⟨body.toArray⟩)
  LocalRuntimeConfigV5.fromJson fromStr text

/-- `load`. -/
def load (fault : Option ConfigError) (files : ConfigFiles) : Except ConfigError LocalRuntimeConfigV5 := do
  failing fault
  let body ← ofOption .io files.config
  let config ← decodeOpenFile fromStr body
  config.requireOperationalStoragePolicy
  pure config

/-- `revision`. -/
def revision (config : LocalRuntimeConfigV5) : String := Sha2.hexDigest (utf8 config.toVec)

/-- `ensure_revision`. -/
def ensureRevision (fault : Option ConfigError) (files : ConfigFiles) : Option String → Except ConfigError Unit
  | none => .ok ()
  | some expected => do
    let config ← load fromStr fault files
    require (revision config = expected) .conflict

/-- `private_update_file`, within so many attempts. -/
def privateUpdateFile (faults : Faults) (process : ℕ) :
    ℕ → ConfigFiles → ConfigFiles × Except ConfigError (ℕ × UInt64)
  | 0, files => (files, .error .io)
  | attempts + 1, files =>
    let name := (process, files.sequence process)
    match faults.creation name.2 with
    | some e => (files.advance process, .error e)
    | none =>
      match files.updates name with
      | some _ => privateUpdateFile faults process attempts (files.advance process)
      | none => ((files.advance process).setUpdate name (some []), .ok name)

/-- The steps of `save_with_hook` between the writing and the renaming. -/
def beforeRename (faults : Faults) (files : ConfigFiles) (expected : Option String) : Except ConfigError Unit := do
  failing faults.fileSync
  ensureRevision fromStr faults.reloading files expected
  failing faults.rename

/-- The body of `save_with_hook` once it has its temporary file. -/
def publish (faults : Faults) (config : LocalRuntimeConfigV5) (expected : Option String) (temporary : ℕ × UInt64)
    (files : ConfigFiles) : ConfigFiles × Except ConfigError Unit :=
  let body := utf8 config.toVecPretty
  match faults.write with
  | some n => (files.setUpdate temporary (some (body.take n)), .error .io)
  | none =>
    let written := files.setUpdate temporary (some body)
    match beforeRename fromStr faults written expected with
    | .error e => (written, .error e)
    | .ok () => (written.rename temporary, failing faults.parentSync)

/-- The checks of `save_with_hook` before it writes anything. -/
def beforeSave (faults : Faults) (config : LocalRuntimeConfigV5) (expected : Option String) (files : ConfigFiles) :
    Except ConfigError Unit := do
  config.validate
  config.requireOperationalStoragePolicy
  failing faults.path
  let _ ← ofOption .io files.config
  ensureRevision fromStr faults.loading files expected

/-- `save_with_hook`. -/
def saveWithHook (faults : Faults) (process : ℕ) (config : LocalRuntimeConfigV5) (expected : Option String)
    (files : ConfigFiles) : ConfigFiles × Except ConfigError Unit :=
  match beforeSave fromStr faults config expected files with
  | .error e => (files, .error e)
  | .ok () =>
    match privateUpdateFile faults process 1024 files with
    | (files, .error e) => (files, .error e)
    | (files, .ok temporary) =>
      match publish fromStr faults config expected temporary files with
      | (files, .ok ()) => (files, .ok ())
      | (files, .error e) => (if faults.remove then files else files.setUpdate temporary none, .error e)

/-- The error of a result. -/
def errorOf {ε α : Type} : Except ε α → Option ε
  | .error e => some e
  | .ok _ => none

/-- `save_guarded`. -/
def saveGuarded (faults : Faults) (process : ℕ) (config : LocalRuntimeConfigV5) (expected : Option String)
    (files : ConfigFiles) : ConfigFiles × Except ConfigError Unit :=
  match failing faults.guard with
  | .error e => (files, .error e)
  | .ok () =>
    let (files, result) := saveWithHook fromStr faults process config expected files
    if faults.mutation ∨ faults.accounting then
      (files, .error (.writeUnverified (errorOf result) faults.mutation faults.accounting))
    else (files, result)

/-! ### One save -/

end Save

/-- An update file that was created and removed again leaves nothing. -/
theorem update_none_of_none {updates : ℕ × UInt64 → Option (List UInt8)} {name : ℕ × UInt64} (h : updates name = none)
    (content : Option (List UInt8)) : Function.update (Function.update updates name content) name none = updates := by
  rw [Function.update_idem, ← h, Function.update_eq_self]

theorem privateUpdateFile_error {faults : Faults} {process : ℕ} {e : ConfigError} : ∀ {attempts : ℕ}
    {files files' : ConfigFiles}, privateUpdateFile faults process attempts files = (files', .error e) →
    files'.config = files.config ∧ files'.updates = files.updates := by
  intro attempts
  induction attempts with
  | zero =>
    intro files files' h
    cases h
    exact ⟨rfl, rfl⟩
  | succ attempts ih =>
    intro files files' h
    simp only [privateUpdateFile] at h
    split at h
    · cases h
      exact ⟨rfl, rfl⟩
    · split at h
      · have hrest := ih h
        exact hrest
      · exact nomatch h

theorem privateUpdateFile_ok {faults : Faults} {process : ℕ} {name : ℕ × UInt64} : ∀ {attempts : ℕ}
    {files files' : ConfigFiles}, privateUpdateFile faults process attempts files = (files', .ok name) →
    files'.config = files.config ∧ files.updates name = none ∧
      files'.updates = Function.update files.updates name (some []) := by
  intro attempts
  induction attempts with
  | zero => exact fun h => nomatch h
  | succ attempts ih =>
    intro files files' h
    simp only [privateUpdateFile] at h
    split at h
    · exact nomatch h
    · split at h
      · have hrest := ih h
        exact hrest
      · rename_i hnone
        cases h
        exact ⟨rfl, hnone, rfl⟩

theorem failing_eq_ok {ε : Type} {fault : Option ε} (h : failing fault = .ok ()) : fault = none := by
  cases fault with
  | none => rfl
  | some e => exact nomatch h

/-- A read that succeeds met no fault. -/
theorem load_fault {fromStr : String → Option Value} {fault : Option ConfigError} {files : ConfigFiles} {c : LocalRuntimeConfigV5}
    (h : load fromStr fault files = .ok c) : load fromStr none files = .ok c := by
  obtain ⟨_, hfault, hrest⟩ := bind_eq_ok.mp h
  exact bind_eq_ok.mpr ⟨(), rfl, hrest⟩

/-- What is read depends on the configuration file alone. -/
theorem load_congr {fromStr : String → Option Value} {fault : Option ConfigError} {files files' : ConfigFiles} (h : files'.config = files.config) :
    load fromStr fault files' = load fromStr fault files := by
  unfold load
  rw [h]

/-- The document that a save writes is read as the configuration that was saved. -/
theorem eq_of_load {fromStr : String → Option Value} (hreads : ReadsLayouts fromStr) {config c : LocalRuntimeConfigV5} (hvalid : config.validate = .ok ())
    {files : ConfigFiles} (hfiles : files.config = some (utf8 config.toVecPretty)) (h : load fromStr none files = .ok c) :
    c = config := by
  obtain ⟨_, -, h⟩ := bind_eq_ok.mp h
  obtain ⟨body, hbody, h⟩ := bind_eq_ok.mp h
  rw [ofOption_eq_ok, hfiles] at hbody
  obtain rfl := Option.some.inj hbody
  obtain ⟨decoded, hdecoded, h⟩ := bind_eq_ok.mp h
  obtain ⟨_, -, h⟩ := bind_eq_ok.mp h
  obtain rfl := pure_eq_ok.mp h
  obtain ⟨_, -, hdecoded⟩ := bind_eq_ok.mp hdecoded
  obtain ⟨text, htext, hdecoded⟩ := bind_eq_ok.mp hdecoded
  rw [ofOption_eq_ok, fromUTF8?_utf8] at htext
  obtain rfl := Option.some.inj htext
  have hwritten := (LocalRuntimeConfigV5.fromJson_toVec hreads hvalid).2
  rw [hwritten] at hdecoded
  exact (Except.ok.inj hdecoded).symm

/-- What a save has written is read, when it is small enough. -/
theorem load_written {fromStr : String → Option Value} (hreads : ReadsLayouts fromStr) {c : LocalRuntimeConfigV5} (hvalid : c.validate = .ok ())
    (hoperational : c.requireOperationalStoragePolicy = .ok ()) (hsize : byteLength c.toVecPretty ≤ maxConfigFileBytes)
    {files : ConfigFiles} (hfiles : files.config = some (utf8 c.toVecPretty)) : load fromStr none files = .ok c := by
  refine bind_eq_ok.mpr ⟨(), rfl, bind_eq_ok.mpr ⟨_, ofOption_eq_ok.mpr hfiles, ?_⟩⟩
  refine bind_eq_ok.mpr ⟨c, ?_, bind_eq_ok.mpr ⟨(), hoperational, rfl⟩⟩
  refine bind_eq_ok.mpr ⟨(), require_eq_ok.mpr (by rw [length_utf8]; exact hsize), ?_⟩
  refine bind_eq_ok.mpr ⟨_, ofOption_eq_ok.mpr (fromUTF8?_utf8 c.toVecPretty), ?_⟩
  exact (LocalRuntimeConfigV5.fromJson_toVec hreads hvalid).2

section Save

variable [Sha2] (fromStr : String → Option Value)

/-- The file has a revision. -/
def Current (files : ConfigFiles) (expected : String) : Prop :=
  ∃ c, load fromStr none files = .ok c ∧ revision c = expected

theorem current_of_ensureRevision {fault : Option ConfigError} {files : ConfigFiles} {expected : String}
    (h : ensureRevision fromStr fault files (some expected) = .ok ()) : Current fromStr files expected := by
  obtain ⟨c, hload, hrevision⟩ := bind_eq_ok.mp h
  exact ⟨c, load_fault hload, require_eq_ok.mp hrevision⟩

/-- A save that replaces the configuration. -/
structure Replaces (config : LocalRuntimeConfigV5) (expected : Option String) (files files' : ConfigFiles) : Prop where
  /-- The new configuration is valid. -/
  valid : config.validate = .ok ()
  /-- The file had the revision that was asked for. -/
  current : ∀ revision ∈ expected, Current fromStr files revision
  /-- The file is the whole new document. -/
  config_eq : files'.config = some (utf8 config.toVecPretty)
  /-- The update file is gone. -/
  updates_eq : files'.updates = files.updates

/-- A save that replaces nothing. -/
structure Leaves (faults : Faults) (files files' : ConfigFiles) : Prop where
  /-- The file is as it was. -/
  config_eq : files'.config = files.config
  /-- The update file is gone, unless it could not be removed. -/
  updates_eq : faults.remove = false → files'.updates = files.updates

variable {fromStr}

theorem publish_cases {faults : Faults} {config : LocalRuntimeConfigV5} {expected : Option String} {temporary : ℕ × UInt64}
    {files files' : ConfigFiles} {r : Except ConfigError Unit}
    (h : publish fromStr faults config expected temporary files = (files', r)) :
    (∃ e content, r = .error e ∧ files' = files.setUpdate temporary content) ∨
      (r = failing faults.parentSync ∧ (∀ revision ∈ expected, Current fromStr files revision) ∧
        files'.config = some (utf8 config.toVecPretty) ∧ files'.updates = Function.update files.updates temporary none) := by
  unfold publish at h
  split at h
  · cases h
    exact .inl ⟨_, _, rfl, rfl⟩
  · simp only at h
    split at h
    · cases h
      exact .inl ⟨_, _, rfl, rfl⟩
    · rename_i hbefore
      cases h
      refine .inr ⟨rfl, ?_, ?_, ?_⟩
      · intro revision hrevision
        obtain rfl := hrevision
        obtain ⟨_, -, hrest⟩ := bind_eq_ok.mp hbefore
        obtain ⟨_, hensure, -⟩ := bind_eq_ok.mp hrest
        obtain ⟨c, hload, hc⟩ := current_of_ensureRevision fromStr hensure
        have hfiles : (files.setUpdate temporary (some (utf8 config.toVecPretty))).config = files.config := rfl
        exact ⟨c, load_congr hfiles ▸ hload, hc⟩
      · simp [ConfigFiles.rename, ConfigFiles.setUpdate]
      · simp [ConfigFiles.rename, ConfigFiles.setUpdate]

theorem saveWithHook_cases {faults : Faults} {process : ℕ} {config : LocalRuntimeConfigV5} {expected : Option String}
    {files files' : ConfigFiles} {r : Except ConfigError Unit}
    (h : saveWithHook fromStr faults process config expected files = (files', r)) :
    (Leaves faults files files' ∧ ∃ e, r = .error e) ∨
      (Replaces fromStr config expected files files' ∧ r = failing faults.parentSync) := by
  unfold saveWithHook at h
  split at h
  · cases h
    exact .inl ⟨⟨rfl, fun _ => rfl⟩, _, rfl⟩
  · rename_i hbefore
    obtain ⟨_, hvalid, -⟩ := bind_eq_ok.mp hbefore
    split at h
    · rename_i hcreated
      cases h
      obtain ⟨hconfig, hupdates⟩ := privateUpdateFile_error hcreated
      exact .inl ⟨⟨hconfig, fun _ => hupdates⟩, _, rfl⟩
    · rename_i created temporary hcreated
      obtain ⟨hconfig, hnone, hupdates⟩ := privateUpdateFile_ok hcreated
      have hremoved : ∀ content, Function.update (Function.update created.updates temporary content) temporary none =
          files.updates := by
        intro content
        rw [hupdates, Function.update_idem, update_none_of_none hnone]
      have hreplaces : ∀ {written : ConfigFiles}, (∀ revision ∈ expected, Current fromStr created revision) →
          written.config = some (utf8 config.toVecPretty) →
          written.updates = Function.update created.updates temporary none → Replaces fromStr config expected files written := by
        intro written hcurrent hwritten hgone
        refine ⟨hvalid, fun revision hrevision => ?_, hwritten, ?_⟩
        · obtain ⟨c, hload, hc⟩ := hcurrent revision hrevision
          exact ⟨c, load_congr hconfig ▸ hload, hc⟩
        · rw [hgone, hupdates, update_none_of_none hnone]
      split at h
      · rename_i hpublished
        cases h
        rcases publish_cases hpublished with ⟨e, content, hr, -⟩ | ⟨hr, hcurrent, hwritten, hgone⟩
        · exact nomatch hr
        · exact .inr ⟨hreplaces hcurrent hwritten hgone, hr⟩
      · rename_i written e hpublished
        cases h
        rcases publish_cases hpublished with ⟨e, content, -, rfl⟩ | ⟨hr, hcurrent, hwritten, hgone⟩
        · refine .inl ⟨⟨?_, fun hremove => ?_⟩, _, rfl⟩
          · split
            · exact hconfig
            · exact hconfig
          · rw [hremove]
            exact hremoved content
        · refine .inr ⟨hreplaces hcurrent ?_ ?_, hr⟩
          · split
            · exact hwritten
            · exact hwritten
          · split
            · exact hgone
            · show Function.update written.updates temporary none = _
              rw [hgone, Function.update_idem]

/-- **What a save can do.** It leaves the configuration and fails, or replaces it, and then it still fails where the
directory is not synchronized or the guards are not found again. -/
theorem saveGuarded_cases {faults : Faults} {process : ℕ} {config : LocalRuntimeConfigV5} {expected : Option String}
    {files files' : ConfigFiles} {r : Except ConfigError Unit}
    (h : saveGuarded fromStr faults process config expected files = (files', r)) :
    (Leaves faults files files' ∧ ∃ e, r = .error e) ∨
      (Replaces fromStr config expected files files' ∧
        (r = .ok () ∨ faults.parentSync.isSome ∨ faults.mutation ∨ faults.accounting)) := by
  unfold saveGuarded at h
  split at h
  · cases h
    exact .inl ⟨⟨rfl, fun _ => rfl⟩, _, rfl⟩
  · cases hsaved : saveWithHook fromStr faults process config expected files with
    | mk saved result =>
      rw [hsaved] at h
      simp only at h
      by_cases hchecks : faults.mutation ∨ faults.accounting
      · rw [if_pos hchecks] at h
        cases h
        rcases saveWithHook_cases hsaved with ⟨hleaves, -⟩ | ⟨hreplaces, -⟩
        · exact .inl ⟨hleaves, _, rfl⟩
        · exact .inr ⟨hreplaces, .inr (.inr hchecks)⟩
      · rw [if_neg hchecks] at h
        cases h
        rcases saveWithHook_cases hsaved with hleaves | ⟨hreplaces, hr⟩
        · exact .inl hleaves
        · refine .inr ⟨hreplaces, ?_⟩
          cases hsync : faults.parentSync with
          | none =>
            rw [hr, hsync]
            exact .inl rfl
          | some e => exact .inr (.inl rfl)

/-! ### Many saves -/

/-- A read or a save of someone. -/
inductive ConfigAct where
  /-- The configuration is read, with its revision. -/
  | read (saver : ℕ) (fault : Option ConfigError)
  /-- A configuration is saved, with the revision of what was read last. -/
  | save (saver process : ℕ) (config : LocalRuntimeConfigV5) (faults : Faults)

/-- A save that succeeded or has changed the file. -/
structure Publication where
  /-- What had been read. -/
  base : LocalRuntimeConfigV5
  /-- What was saved. -/
  config : LocalRuntimeConfigV5

/-- The files, what everyone has read last, and what was saved so far. -/
structure ConfigState where
  /-- The files. -/
  files : ConfigFiles
  /-- What was read. -/
  readings : ℕ → Option LocalRuntimeConfigV5
  /-- What was saved. -/
  history : List Publication

/-- Before anyone has read. -/
def ConfigState.start (files : ConfigFiles) : ConfigState := ⟨files, fun _ => none, []⟩

variable (fromStr)

/-- One read or one save. -/
def ConfigState.step (s : ConfigState) : ConfigAct → ConfigState
  | .read saver fault =>
    match load fromStr fault s.files with
    | .ok c => { s with readings := Function.update s.readings saver (some c) }
    | .error _ => s
  | .save saver process config faults =>
    match s.readings saver with
    | none => s
    | some base =>
      let saved := saveGuarded fromStr faults process config (some (revision base)) s.files
      { s with
        files := saved.1
        history := if saved.2.isOk ∨ saved.1.config ≠ s.files.config then s.history ++ [⟨base, config⟩] else s.history }

/-- A history of saves in which each was made from a configuration with the revision of the one it replaces. -/
structure Chained (files : ConfigFiles) (history : List Publication) : Prop where
  /-- The first save replaces what was there. -/
  head : ∀ p ∈ history.head?, Current fromStr files (revision p.base)
  /-- Every other save replaces what the one before it has saved. -/
  chain : history.IsChain fun p q => revision q.base = revision p.config

/-- The invariant of reads and saves: the file is what was saved last. -/
structure ConfigInv (initial : ConfigFiles) (s : ConfigState) : Prop where
  /-- The history. -/
  chained : Chained fromStr initial s.history
  /-- Nothing was saved. -/
  untouched : s.history = [] → s.files.config = initial.config
  /-- What was saved last is in the file. -/
  last : ∀ p ∈ s.history.getLast?, s.files.config = some (utf8 p.config.toVecPretty) ∧ p.config.validate = .ok ()

variable {fromStr}

/-- A save keeps the invariant. -/
theorem ConfigInv.save (hreads : ReadsLayouts fromStr) {initial : ConfigFiles} {s : ConfigState}
    (h : ConfigInv fromStr initial s) {base config : LocalRuntimeConfigV5} {files : ConfigFiles}
    (hreplaces : Replaces fromStr config (some (revision base)) s.files files) :
    ConfigInv fromStr initial { s with files, history := s.history ++ [⟨base, config⟩] } := by
  obtain ⟨c, hload, hrevision⟩ := hreplaces.current _ rfl
  refine ⟨⟨?_, ?_⟩, fun hnil => absurd hnil (by simp), ?_⟩
  · intro p hp
    cases hhistory : s.history with
    | nil =>
      rw [hhistory] at hp
      obtain rfl := Option.some.inj hp
      exact ⟨c, load_congr (h.untouched hhistory).symm ▸ hload, hrevision⟩
    | cons first rest =>
      rw [hhistory] at hp
      exact h.chained.head p (by rw [hhistory]; exact hp)
  · refine List.isChain_append.mpr ⟨h.chained.chain, List.isChain_singleton _, fun p hp q hq => ?_⟩
    obtain rfl := Option.some.inj hq
    obtain ⟨hfile, hvalid⟩ := h.last p hp
    rw [← hrevision, eq_of_load hreads hvalid hfile hload]
  · intro p hp
    rw [List.getLast?_concat] at hp
    obtain rfl := Option.some.inj hp
    exact ⟨hreplaces.config_eq, hreplaces.valid⟩

/-- So does a step. -/
theorem ConfigInv.step (hreads : ReadsLayouts fromStr) {initial : ConfigFiles} {s : ConfigState} (act : ConfigAct)
    (h : ConfigInv fromStr initial s) : ConfigInv fromStr initial (s.step fromStr act) := by
  cases act with
  | read saver fault =>
    simp only [ConfigState.step]
    split
    · exact ⟨h.chained, h.untouched, h.last⟩
    · exact h
  | save saver process config faults =>
    simp only [ConfigState.step]
    split
    · exact h
    · rename_i base _
      cases hsaved : saveGuarded fromStr faults process config (some (revision base)) s.files with
      | mk files result =>
        rcases saveGuarded_cases hsaved with ⟨hleaves, e, rfl⟩ | ⟨hreplaces, -⟩
        · have hsame : ¬ ((Except.error e : Except ConfigError Unit).isOk = true ∨ files.config ≠ s.files.config) := by
            simp [Except.isOk, Except.toBool, hleaves.config_eq]
          simp only [if_neg hsame]
          exact ⟨h.chained, fun hnil => hleaves.config_eq.trans (h.untouched hnil),
            fun p hp => ⟨hleaves.config_eq.trans (h.last p hp).1, (h.last p hp).2⟩⟩
        · simp only
          split
          · exact h.save hreads hreplaces
          · rename_i hsame
            have hconfig : files.config = s.files.config := by
              by_contra hne
              exact hsame (.inr hne)
            exact ⟨h.chained, fun hnil => hconfig.trans (h.untouched hnil),
              fun p hp => ⟨hconfig.trans (h.last p hp).1, (h.last p hp).2⟩⟩

/-- **No save is overwritten unseen**, in whatever order reads and saves happen. -/
theorem history_chain (hreads : ReadsLayouts fromStr) (files : ConfigFiles) (acts : List ConfigAct) :
    Chained fromStr files (After (ConfigState.step fromStr) (.start files) acts).history := by
  have hstart : ConfigInv fromStr files (.start files) :=
    ⟨⟨(fun _ hp => nomatch hp), .nil⟩, fun _ => rfl, (fun _ hp => nomatch hp)⟩
  exact (invariant_after (C := fun _ _ => True) (fun s act h _ => h.step hreads act) hstart
    (along_true acts)).chained

/-- What a failed save leaves: the configuration as it was, or the whole new one where only the synchronization of the
directory or the checks after it failed. -/
structure FailedSave (faults : Faults) (config : LocalRuntimeConfigV5) (files files' : ConfigFiles) : Prop where
  /-- The configuration. -/
  config_eq : files'.config = files.config ∨ files'.config = some (utf8 config.toVecPretty) ∧
    (faults.parentSync.isSome ∨ faults.mutation ∨ faults.accounting)
  /-- The update files, unless the one of this save could not be removed. -/
  updates_eq : faults.remove = false → files'.updates = files.updates

/-- **A save that only fails to synchronize the directory has replaced the configuration.** -/
theorem saveGuarded_parentSync {files : ConfigFiles} {base config : LocalRuntimeConfigV5} {process : ℕ} {e : ConfigError}
    (hload : load fromStr none files = .ok base) (hvalid : config.validate = .ok ())
    (hoperational : config.requireOperationalStoragePolicy = .ok ())
    (hnone : files.updates (process, files.sequence process) = none) :
    (saveGuarded fromStr { parentSync := some e } process config (some (revision base)) files).2 = .error e ∧
      (saveGuarded fromStr { parentSync := some e } process config (some (revision base)) files).1.config =
        some (utf8 config.toVecPretty) := by
  have hensure : ∀ {written : ConfigFiles}, written.config = files.config →
      ensureRevision fromStr none written (some (revision base)) = .ok () := by
    intro written hconfig
    exact bind_eq_ok.mpr ⟨base, load_congr hconfig ▸ hload, require_eq_ok.mpr rfl⟩
  obtain ⟨body, hbody⟩ : ∃ body, files.config = some body := by
    obtain ⟨_, -, hrest⟩ := bind_eq_ok.mp hload
    obtain ⟨body, hbody, -⟩ := bind_eq_ok.mp hrest
    exact ⟨body, ofOption_eq_ok.mp hbody⟩
  have hbefore : beforeSave fromStr { parentSync := some e } config (some (revision base)) files = .ok () := by
    refine bind_eq_ok.mpr ⟨(), hvalid, bind_eq_ok.mpr ⟨(), hoperational, bind_eq_ok.mpr ⟨(), rfl, ?_⟩⟩⟩
    exact bind_eq_ok.mpr ⟨body, ofOption_eq_ok.mpr hbody, hensure rfl⟩
  have hrename : ∀ written : ConfigFiles, written.config = files.config →
      beforeRename fromStr { parentSync := some e } written (some (revision base)) = .ok () := by
    intro written hconfig
    exact bind_eq_ok.mpr ⟨(), rfl, bind_eq_ok.mpr ⟨(), hensure hconfig, rfl⟩⟩
  -- the update file, empty and then written
  obtain ⟨created, hempty⟩ : ∃ created, created =
    (files.advance process).setUpdate (process, files.sequence process) (some []) := ⟨_, rfl⟩
  obtain ⟨written, hfull⟩ : ∃ written, written =
    created.setUpdate (process, files.sequence process) (some (utf8 config.toVecPretty)) := ⟨_, rfl⟩
  have hcreated : privateUpdateFile { parentSync := some e } process 1024 files =
      (created, .ok (process, files.sequence process)) := by
    simp only [privateUpdateFile, hnone, hempty]
  have hwritten : publish fromStr { parentSync := some e } config (some (revision base)) (process, files.sequence process)
      created = (written.rename (process, files.sequence process), .error e) := by
    simp only [publish, ← hfull]
    rw [hrename written (by simp [hfull, hempty])]
    rfl
  have hsaved : saveGuarded fromStr { parentSync := some e } process config (some (revision base)) files =
      saveWithHook fromStr { parentSync := some e } process config (some (revision base)) files := by
    simp [saveGuarded, failing]
  rw [hsaved]
  simp only [saveWithHook, hbefore, hcreated, hwritten]
  constructor
  · trivial
  · simp [ConfigFiles.rename, hfull, ConfigFiles.setUpdate]

/-- Saving the default configuration, switched off, over the default one. -/
theorem exists_replacing_failure : ∃ (faults : Faults) (process : ℕ) (config : LocalRuntimeConfigV5) (expected : String)
    (files : ConfigFiles) (e : ConfigError),
    (saveGuarded readText faults process config (some expected) files).2 = .error e ∧
      (saveGuarded readText faults process config (some expected) files).1.config ≠ files.config := by
  have hreads : ReadsLayouts readText := fun _ hplain _ htext => readText_of_lexes hplain htext
  have hsize : byteLength ({} : LocalRuntimeConfigV5).toVecPretty ≤ maxConfigFileBytes := by
    decide +kernel
  let files : ConfigFiles := ⟨some (utf8 ({} : LocalRuntimeConfigV5).toVecPretty), fun _ => none, fun _ => 0⟩
  have hload : load readText none files = .ok {} := load_written hreads rfl rfl hsize rfl
  obtain ⟨hresult, hconfig⟩ := @saveGuarded_parentSync _ _ _ _ { enabled := false } 0 .io hload rfl rfl rfl
  refine ⟨_, _, _, _, files, _, hresult, fun hsame => ?_⟩
  have heq : ({} : LocalRuntimeConfigV5) = { enabled := false } := eq_of_load hreads rfl (hsame.symm.trans hconfig) hload
  exact absurd heq (by decide)

end Save

end AgentObservability.Runtime
