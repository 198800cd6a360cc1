import AgentObservability.Runtime.StorageInventory
import Mathlib.Data.List.Induction

/-!
# Both storage accountings

Both walks over a private tree are walks in the sense of `RootedTree.Frontier`:
`ClassifyInv` and `AccountInv` say what their variables hold for the entries that have
been visited. An entry limit is met only in a tree with too many entries, and without
an overflow both walks agree on the limit and on the sum (`AccountingsAgree`).
-/

namespace AgentObservability.Runtime

open Foundation

/-! ### The walks over a tree -/

namespace DirectoryTree

variable {Name : Type} (t : DirectoryTree Name)

/-- The paths in a directory, as a walk takes them. -/
def childrenOf (reorder : List Name → List Name) (path : RelativePath Name) : List (RelativePath Name) :=
  (reorder (t.listing path)).map fun name => path ++ [name]

/-- The tree, for a walk that takes the entries of a directory in some order. -/
def walked (reorder : List Name → List Name) (hreorder : ∀ l, (reorder l).Perm l) : RootedTree (RelativePath Name) where
  root := []
  children := t.childrenOf reorder
  nodes := t.paths
  nodup := t.nodup
  root_mem := t.root_mem
  child_mem := by
    intro path _ child hchild
    obtain ⟨name, hname, rfl⟩ := List.mem_map.mp hchild
    exact (t.mem_listing path name).mp ((hreorder _).mem_iff.mp hname)
  children_nodup path := by
    refine List.Nodup.map (fun a b hab => ?_) ((hreorder _).nodup_iff.mpr (t.listing_nodup path))
    simpa using hab
  parent_unique := by
    intro path path' child hchild hchild'
    obtain ⟨name, _, rfl⟩ := List.mem_map.mp hchild
    obtain ⟨name', _, heq⟩ := List.mem_map.mp hchild'
    exact (List.append_inj_left' heq rfl).symm
  root_orphan := by
    intro path hroot
    obtain ⟨name, _, heq⟩ := List.mem_map.mp hroot
    simp at heq
  reached := by
    intro s hroot hclosed path
    induction path using List.reverseRecOn with
    | nil => exact fun _ => hroot
    | append_singleton path name ih =>
      intro hmem
      refine hclosed path (ih (t.parent_mem path name hmem)) _ (List.mem_map.mpr ⟨name, ?_, rfl⟩)
      exact (hreorder _).mem_iff.mpr ((t.mem_listing path name).mpr hmem)

/-- A private tree: directories with mode 0700 and regular files with mode 0600 and one link, on one device, with inodes of
their own. -/
structure Private : Prop where
  /-- The root is a directory. -/
  root : (t.metadata []).kind = .directory
  /-- The kinds, modes and links. -/
  kinds : ∀ path ∈ t.paths,
    (t.metadata path).kind = .directory ∧ (t.metadata path).capture.mode &&& 0o7777 = 0o700 ∨
    (t.metadata path).kind = .regular ∧ (t.metadata path).capture.mode &&& 0o7777 = 0o600 ∧
      (t.metadata path).capture.links = 1
  /-- One device. -/
  device : ∀ path ∈ t.paths, (t.metadata path).capture.device = (t.metadata []).capture.device
  /-- Distinct inodes. -/
  inode : ∀ path ∈ t.paths, ∀ other ∈ t.paths,
    (t.metadata path).capture.inode = (t.metadata other).capture.inode → path = other

/-- The bytes of an entry, in whole blocks. -/
def bytesOf (path : RelativePath Name) : ℕ := ((t.metadata path).capture.blocks * 512 + 4095) / 4096 * 4096

/-- The size of an entry does not overflow. -/
def Fits (path : RelativePath Name) : Prop := (t.metadata path).capture.blocks * 512 + 4095 < 2 ^ 64

instance (path : RelativePath Name) : Decidable (t.Fits path) := inferInstanceAs (Decidable (_ < _))

end DirectoryTree

/-! ### One entry of the classification -/

section Entry

variable {Name : Type} [LinearOrder Name] {t : DirectoryTree Name} {path : RelativePath Name}

/-- `sort_unstable`. -/
abbrev sortNames (names : List Name) : List Name := names.mergeSort (· ≤ ·)

theorem sortNames_perm (names : List Name) : (sortNames names).Perm names := List.mergeSort_perm names _

theorem namedMetadata_of_mem (h : t.Private) (hp : path ∈ t.paths) : namedMetadata t path = .ok (t.metadata path) := by
  have hkind : (t.metadata path).kind ≠ .symlink := by
    rcases h.kinds path hp with ⟨hk, _⟩ | ⟨hk, _⟩ <;> rw [hk] <;> decide
  rw [namedMetadata, symlinkMetadata, if_pos hp, ok_bind, require_true hkind, ok_bind]
  rfl

omit [LinearOrder Name] in
theorem validateKind_of_mem (h : t.Private) (hp : path ∈ t.paths) :
    validateKindPermissionsAndDevice (t.metadata path) (t.metadata []).capture.device =
      .ok (decide ((t.metadata path).kind = .directory)) := by
  have hdevice := h.device path hp
  rcases h.kinds path hp with ⟨hk, hmode⟩ | ⟨hk, hmode, hlinks⟩
  · rw [validateKindPermissionsAndDevice, require_true (by rw [hk]; decide), ok_bind, require_true hdevice, ok_bind, hk]
    simp only [require_true hmode, ok_bind]
    rfl
  · rw [validateKindPermissionsAndDevice, require_true (by rw [hk]; decide), ok_bind, require_true hdevice, ok_bind, hk]
    simp only [require_true hmode, require_true hlinks, ok_bind]
    rfl

theorem revalidateNamed_of_mem (h : t.Private) (hp : path ∈ t.paths) :
    revalidateNamed t path (t.metadata path).capture = .ok () := by
  rw [revalidateNamed, namedMetadata_of_mem h hp, ok_bind, require_true rfl]

omit [LinearOrder Name] in
theorem collectEntries_eq {maximumEntries : ℕ} {limitError : StorageInventoryError} {entries : List Name}
    (listing : List Name) (hentries : entries.length ≤ maximumEntries) :
    collectEntries maximumEntries limitError entries listing =
      if entries.length + listing.length ≤ maximumEntries then .ok (entries ++ listing) else .error limitError := by
  induction listing generalizing entries with
  | nil => simp [collectEntries, hentries]
  | cons entry rest ih =>
    rw [collectEntries, List.length_cons]
    by_cases hlimit : maximumEntries ≤ entries.length
    · rw [if_pos hlimit, if_neg (by omega)]
    · rw [if_neg hlimit, ih (by rw [List.length_append, List.length_singleton]; omega), List.length_append,
        List.length_singleton, Nat.add_assoc, Nat.add_comm 1, List.append_assoc, List.singleton_append]

theorem readDirectoryEntries_eq (hp : path ∈ t.paths) (hk : (t.metadata path).kind = .directory) (maximumEntries : ℕ)
    (limitError : StorageInventoryError) : readDirectoryEntries t path maximumEntries limitError =
      if (t.listing path).length ≤ maximumEntries then .ok (sortNames (t.listing path)) else .error limitError := by
  rw [readDirectoryEntries, require_true hp, ok_bind, require_true hk, ok_bind, collectEntries_eq _ (Nat.zero_le _),
    List.length_nil, Nat.zero_add, List.nil_append]
  split_ifs <;> rfl

variable (t) in
/-- `directory_entries`, of an entry. -/
def directoryEntriesOf (path : RelativePath Name) : Option (List Name) :=
  if (t.metadata path).kind = .directory then some (sortNames (t.listing path)) else none

omit [LinearOrder Name] in
theorem listing_of_not_directory (hk : (t.metadata path).kind ≠ .directory) : t.listing path = [] := by
  rw [List.eq_nil_iff_forall_not_mem]
  exact fun name hname => hk (t.directory path name ((t.mem_listing path name).mp hname))

theorem getD_directoryEntriesOf (path : RelativePath Name) :
    (directoryEntriesOf t path).getD [] = sortNames (t.listing path) := by
  unfold directoryEntriesOf
  split_ifs with hk
  · rfl
  · rw [listing_of_not_directory hk]
    simp [sortNames]

theorem revalidateEntries_of_mem (hp : path ∈ t.paths) : revalidateEntries t path (directoryEntriesOf t path) = .ok () := by
  unfold directoryEntriesOf
  split_ifs with hk
  · have hlength := (sortNames_perm (t.listing path)).length_eq
    rw [revalidateEntries, readDirectoryEntries_eq hp hk, if_pos hlength.ge, ok_bind, require_true rfl]
  · rfl

/-- **An entry is opened unless its directory has too many entries.** -/
theorem openEntry_eq (h : t.Private) (hp : path ∈ t.paths) {identities : List (ℕ × ℕ)}
    (hnew : ((t.metadata path).capture.device, (t.metadata path).capture.inode) ∉ identities) (maximumChildren : ℕ) :
    openEntry t path (t.metadata []).capture.device maximumChildren identities =
      if (t.listing path).length ≤ maximumChildren then .ok ((t.metadata path).capture, directoryEntriesOf t path)
      else .error .entryLimit := by
  rw [openEntry, namedMetadata_of_mem h hp, ok_bind, validateKind_of_mem h hp, ok_bind, symlinkMetadata, if_pos hp, ok_bind,
    validateKind_of_mem h hp, ok_bind]
  simp only [require_true hnew, require_true, ok_bind, decide_eq_true_eq]
  by_cases hk : (t.metadata path).kind = .directory
  · rw [if_pos hk, readDirectoryEntries_eq hp hk, directoryEntriesOf, if_pos hk]
    split_ifs
    · simp only [Except.map, ok_bind, revalidateNamed_of_mem h hp]
      rfl
    · rfl
  · rw [if_neg hk, listing_of_not_directory hk, List.length_nil, if_pos (Nat.zero_le _), directoryEntriesOf, if_neg hk]
    simp only [pure, Except.pure, ok_bind, revalidateNamed_of_mem h hp]

omit [LinearOrder Name] in
theorem allocatedBytes_eq (path : RelativePath Name) : allocatedBytes (t.metadata path).capture =
    if t.Fits path then .ok (t.bytesOf path) else .error .overflow := by
  show _ = if (t.metadata path).capture.blocks * 512 + 4095 < 2 ^ 64 then _ else _
  rw [allocatedBytes, checkedMul]
  by_cases hmul : (t.metadata path).capture.blocks * 512 < 2 ^ 64
  · simp only [if_pos hmul, ofOption, ok_bind, checkedAdd, Nat.reduceSub]
    by_cases hadd : (t.metadata path).capture.blocks * 512 + 4095 < 2 ^ 64
    · rw [if_pos hadd, if_pos hadd]
      rfl
    · rw [if_neg hadd, if_neg hadd]
      rfl
  · have hadd : ¬ (t.metadata path).capture.blocks * 512 + 4095 < 2 ^ 64 := fun h =>
      hmul (Nat.lt_of_le_of_lt (Nat.le_add_right _ _) h)
    rw [if_neg hmul, if_neg hadd]
    rfl

/-- **An entry is scanned unless its size overflows.** -/
theorem closeEntry_eq (h : t.Private) (hp : path ∈ t.paths) (allocationClass : StorageAllocationClass) :
    closeEntry t path (t.metadata path).capture (directoryEntriesOf t path) (.ok allocationClass) =
      if t.Fits path then
        .ok ⟨⟨path, (t.metadata path).capture, directoryEntriesOf t path⟩, allocationClass, t.bytesOf path,
          (t.childrenOf sortNames path).reverse⟩
      else .error .overflow := by
  rw [closeEntry, ok_bind, revalidateNamed_of_mem h hp, ok_bind, symlinkMetadata, if_pos hp, ok_bind, require_true rfl,
    ok_bind, revalidateEntries_of_mem hp, ok_bind, allocatedBytes_eq, getD_directoryEntriesOf]
  split_ifs
  · rw [ok_bind, DirectoryTree.childrenOf, List.map_reverse]
    rfl
  · rfl

end Entry

/-! ### The sums -/

section Sums

variable {Name : Type} {t : DirectoryTree Name}

/-- What a classifier that always answers says of an entry, after some calls. -/
abbrev Answer (Name : Type) := List (RelativePath Name) → RelativePath Name → StorageAllocationClass

/-- The classes of entries, call after call. -/
def assigned (answer : Answer Name) : List (RelativePath Name) → List (RelativePath Name) →
    List (RelativePath Name × StorageAllocationClass)
  | _, [] => []
  | calls, path :: rest => (path, answer calls path) :: assigned answer (calls ++ [path]) rest

theorem assigned_append (answer : Answer Name) (calls paths rest : List (RelativePath Name)) :
    assigned answer calls (paths ++ rest) = assigned answer calls paths ++ assigned answer (calls ++ paths) rest := by
  induction paths generalizing calls with
  | nil => simp [assigned]
  | cons path paths ih => simp [assigned, ih]

theorem map_assigned (answer : Answer Name) (calls paths : List (RelativePath Name)) :
    (assigned answer calls paths).map (·.1) = paths := by
  induction paths generalizing calls with
  | nil => rfl
  | cons path paths ih => simp [assigned, ih]

namespace DirectoryTree

variable (t)

/-- The bytes of some entries. -/
def total (paths : List (RelativePath Name)) : ℕ := (paths.map t.bytesOf).sum

/-- The bytes of the entries of a class. -/
def bucket (entries : List (RelativePath Name × StorageAllocationClass)) (allocationClass : StorageAllocationClass) : ℕ :=
  t.total ((entries.filter fun entry => entry.2 = allocationClass).map (·.1))

/-- The observation of some entries. -/
def tally (entries : List (RelativePath Name × StorageAllocationClass)) : StorageAllocationObservationV1 where
  retainedBytes := t.bucket entries .retained
  workspaceBytes := t.bucket entries .workspace
  unknownBytes := t.bucket entries .unknown
  unknownEntryCount := (entries.filter fun entry => entry.2 = .unknown).length

theorem total_append (paths rest : List (RelativePath Name)) : t.total (paths ++ rest) = t.total paths + t.total rest := by
  simp [total]

theorem total_perm {paths paths' : List (RelativePath Name)} (h : paths.Perm paths') : t.total paths = t.total paths' :=
  (h.map t.bytesOf).sum_nat

theorem bucket_append (entries rest : List (RelativePath Name × StorageAllocationClass))
    (allocationClass : StorageAllocationClass) :
    t.bucket (entries ++ rest) allocationClass = t.bucket entries allocationClass + t.bucket rest allocationClass := by
  simp [bucket, total_append]

theorem bucket_le_total (entries : List (RelativePath Name × StorageAllocationClass))
    (allocationClass : StorageAllocationClass) : t.bucket entries allocationClass ≤ t.total (entries.map (·.1)) := by
  induction entries with
  | nil => simp [bucket, total]
  | cons entry entries ih =>
    by_cases hclass : entry.2 = allocationClass <;> simp [bucket, total, hclass] at ih ⊢ <;> omega

/-- **The buckets of an observation add up to the bytes of its entries.** -/
theorem tally_sum (entries : List (RelativePath Name × StorageAllocationClass)) :
    (t.tally entries).retainedBytes + (t.tally entries).workspaceBytes + (t.tally entries).unknownBytes =
      t.total (entries.map (·.1)) := by
  induction entries with
  | nil => rfl
  | cons entry entries ih =>
    simp only [tally, bucket, total] at ih ⊢
    cases hclass : entry.2 <;> simp [hclass] at ih ⊢ <;> omega

omit t in
theorem ofOption_checkedAdd {ε : Type} (e : ε) (a b : ℕ) :
    ofOption e (checkedAdd a b) = if a + b < 2 ^ 64 then .ok (a + b) else .error e := by
  unfold checkedAdd
  by_cases h : a + b < 2 ^ 64
  · rw [if_pos h, if_pos h]
    rfl
  · rw [if_neg h, if_neg h]
    rfl

theorem addClassifiedBytes_tally {entries : List (RelativePath Name × StorageAllocationClass)} (path : RelativePath Name)
    (allocationClass : StorageAllocationClass) (hcount : entries.length < maxAccountingEntries) :
    addClassifiedBytes (t.tally entries) allocationClass (t.bytesOf path) =
      if t.bucket (entries ++ [(path, allocationClass)]) allocationClass < 2 ^ 64 then
        .ok (t.tally (entries ++ [(path, allocationClass)])) else .error .overflow := by
  have hunknown : (entries.filter fun entry => entry.2 = .unknown).length + 1 < 2 ^ 64 := by
    have := List.length_filter_le (fun entry => decide (entry.2 = .unknown)) entries
    have hmax : maxAccountingEntries < 2 ^ 64 - 1 := by decide
    omega
  have hbucket : ∀ c : StorageAllocationClass, t.bucket (entries ++ [(path, allocationClass)]) c =
      t.bucket entries c + if allocationClass = c then t.bytesOf path else 0 := by
    intro c
    rw [bucket_append]
    by_cases hc : allocationClass = c <;> simp [bucket, total, hc]
  have hcounted : ((entries ++ [(path, allocationClass)]).filter fun entry => entry.2 = .unknown).length =
      (entries.filter fun entry => entry.2 = .unknown).length + if allocationClass = .unknown then 1 else 0 := by
    rw [List.filter_append, List.length_append]
    by_cases hc : allocationClass = .unknown <;> simp [hc]
  cases allocationClass with
  | retained =>
    simp only [addClassifiedBytes, tally, ofOption_checkedAdd, hbucket, hcounted, if_true, reduceCtorEq, if_false,
      Nat.add_zero]
    by_cases hfits : t.bucket entries .retained + t.bytesOf path < 2 ^ 64
    · simp only [if_pos hfits, ok_bind]
      rfl
    · simp only [if_neg hfits, error_bind]
  | workspace =>
    simp only [addClassifiedBytes, tally, ofOption_checkedAdd, hbucket, hcounted, if_true, reduceCtorEq, if_false,
      Nat.add_zero]
    by_cases hfits : t.bucket entries .workspace + t.bytesOf path < 2 ^ 64
    · simp only [if_pos hfits, ok_bind]
      rfl
    · simp only [if_neg hfits, error_bind]
  | unknown =>
    simp only [addClassifiedBytes, tally, ofOption_checkedAdd, hbucket, hcounted, if_true, if_pos hunknown, ok_bind,
      reduceCtorEq, if_false, Nat.add_zero]
    by_cases hfits : t.bucket entries .unknown + t.bytesOf path < 2 ^ 64
    · simp only [if_pos hfits, ok_bind]
      rfl
    · simp only [if_neg hfits, error_bind]

end DirectoryTree

end Sums

/-! ### The classification -/

section Classification

variable {Name : Type} [LinearOrder Name] {t : DirectoryTree Name} {answer : Answer Name} {s : ClassifyState Name}
variable {visited rest : List (RelativePath Name)} {path : RelativePath Name}

/-- The tree of the classification, which takes names in order. -/
abbrev DirectoryTree.sorted (t : DirectoryTree Name) : RootedTree (RelativePath Name) := t.walked sortNames sortNames_perm

/-- The classifier of answers. -/
abbrev Answer.classifier (answer : Answer Name) : Classifier Name := fun calls path => .ok (answer calls path)

/-- What is kept of an entry. -/
def observedOf (t : DirectoryTree Name) (path : RelativePath Name) : ObservedEntry Name :=
  ⟨path, (t.metadata path).capture, directoryEntriesOf t path⟩

/-- What the variables of the loop hold after some entries. -/
structure ClassifyInv (t : DirectoryTree Name) (answer : Answer Name) (s : ClassifyState Name)
    (visited : List (RelativePath Name)) : Prop where
  /-- The walk. -/
  frontier : t.sorted.Frontier visited s.pending
  /-- All entries that were found are counted. -/
  discovered : s.discoveredEntries = visited.length + s.pending.length
  /-- They are not too many. -/
  limit : s.discoveredEntries ≤ maxAccountingEntries
  /-- The entries. -/
  observed : s.observed = visited.map (observedOf t)
  /-- Their inodes. -/
  identities : ∀ identity ∈ s.identities, ∃ path ∈ visited, identity.2 = (t.metadata path).capture.inode
  /-- Their bytes. -/
  snapshot : s.snapshot = t.tally (assigned answer [] visited)
  /-- The classifier was asked about them. -/
  calls : s.calls = visited
  /-- Their sizes do not overflow. -/
  fits : ∀ path ∈ visited, t.Fits path
  /-- Neither do the sums. -/
  sums : ∀ allocationClass, t.bucket (assigned answer [] visited) allocationClass < 2 ^ 64

/-- The state after an entry. -/
def ClassifyState.after (t : DirectoryTree Name) (answer : Answer Name) (s : ClassifyState Name)
    (rest : List (RelativePath Name)) (path : RelativePath Name) : ClassifyState Name where
  pending := t.childrenOf sortNames path ++ rest
  discoveredEntries := s.discoveredEntries + (t.listing path).length
  observed := s.observed ++ [observedOf t path]
  identities := ((t.metadata path).capture.device, (t.metadata path).capture.inode) :: s.identities
  snapshot := t.tally (assigned answer [] (s.calls ++ [path]))
  calls := s.calls ++ [path]

namespace ClassifyInv

variable (t answer) in
/-- Before the first entry. -/
theorem init : ClassifyInv t answer ⟨[[]], 1, [], [], ⟨0, 0, 0, 0⟩, []⟩ [] where
  frontier := t.sorted.frontier_root
  discovered := rfl
  limit := show 1 ≤ maxAccountingEntries by decide
  observed := rfl
  identities := nofun
  snapshot := rfl
  calls := rfl
  fits := nofun
  sums _ := Nat.two_pow_pos 64

theorem mem (inv : ClassifyInv t answer s visited) (hpending : s.pending = path :: rest) : path ∈ t.paths :=
  inv.frontier.mem path (by simp [hpending])

/-- The inode of the next entry is new. -/
theorem not_mem_identities (h : t.Private) (inv : ClassifyInv t answer s visited) (hpending : s.pending = path :: rest) :
    ((t.metadata path).capture.device, (t.metadata path).capture.inode) ∉ s.identities := by
  intro hmem
  obtain ⟨other, hother, hinode⟩ := inv.identities _ hmem
  have hnodup := inv.frontier.nodup
  rw [hpending] at hnodup
  have heq := h.inode path (inv.mem hpending) other (inv.frontier.mem other (List.mem_append_left _ hother)) hinode
  exact List.disjoint_of_nodup_append hnodup hother (heq ▸ List.mem_cons_self)

/-- **An entry that neither meets the limit nor overflows keeps the invariant.** -/
theorem after (inv : ClassifyInv t answer s visited) (hpending : s.pending = path :: rest)
    (hlimit : s.discoveredEntries + (t.listing path).length ≤ maxAccountingEntries) (hfits : t.Fits path)
    (hsum : t.bucket (assigned answer [] (visited ++ [path])) (answer visited path) < 2 ^ 64) :
    ClassifyInv t answer (s.after t answer rest path) (visited ++ [path]) where
  frontier := by
    have hfrontier := inv.frontier
    rw [hpending] at hfrontier
    exact hfrontier.visit
  discovered := by
    have hlength := (sortNames_perm (t.listing path)).length_eq
    have hdiscovered := inv.discovered
    rw [hpending, List.length_cons] at hdiscovered
    simp only [ClassifyState.after, DirectoryTree.childrenOf, List.length_append, List.length_map, List.length_singleton,
      hlength]
    omega
  limit := hlimit
  observed := by rw [ClassifyState.after, inv.observed, List.map_append]; rfl
  identities := by
    intro identity hmem
    rcases List.mem_cons.mp hmem with rfl | hmem
    · exact ⟨path, by simp, rfl⟩
    · obtain ⟨other, hother, hinode⟩ := inv.identities identity hmem
      exact ⟨other, List.mem_append_left _ hother, hinode⟩
  snapshot := by rw [ClassifyState.after, inv.calls]
  calls := by rw [ClassifyState.after, inv.calls]
  fits other hother := by
    rcases List.mem_append.mp hother with hother | hother
    · exact inv.fits other hother
    · rw [List.mem_singleton.mp hother]
      exact hfits
  sums allocationClass := by
    by_cases hclass : answer visited path = allocationClass
    · exact hclass ▸ hsum
    · have hsums := inv.sums allocationClass
      rw [assigned_append, DirectoryTree.bucket_append]
      simpa [assigned, DirectoryTree.bucket, DirectoryTree.total, hclass] using hsums

/-- **The loop takes an entry that was scanned if no sum overflows.** -/
theorem absorb_eq (inv : ClassifyInv t answer s visited) (hlength : visited.length < maxAccountingEntries)
    (hlimit : s.discoveredEntries + (t.listing path).length ≤ maxAccountingEntries) :
    s.absorb rest path ⟨observedOf t path, answer visited path, t.bytesOf path, (t.childrenOf sortNames path).reverse⟩ =
      if t.bucket (assigned answer [] (visited ++ [path])) (answer visited path) < 2 ^ 64 then
        .ok (s.after t answer rest path)
      else .error .overflow := by
  have hchildren : ((t.childrenOf sortNames path).reverse).length = (t.listing path).length := by
    rw [List.length_reverse, DirectoryTree.childrenOf, List.length_map, (sortNames_perm _).length_eq]
  have hmax : maxAccountingEntries < 2 ^ 64 := by decide
  have hcount : (assigned answer [] visited).length < maxAccountingEntries := by
    rw [← List.length_map (·.1), map_assigned]
    exact hlength
  have hassigned : assigned answer [] (visited ++ [path]) = assigned answer [] visited ++ [(path, answer visited path)] := by
    rw [assigned_append]
    rfl
  rw [ClassifyState.absorb, hchildren, DirectoryTree.ofOption_checkedAdd, if_pos (hlimit.trans_lt hmax), ok_bind,
    inv.snapshot, t.addClassifiedBytes_tally path _ hcount, hassigned]
  by_cases hsum : t.bucket (assigned answer [] visited ++ [(path, answer visited path)]) (answer visited path) < 2 ^ 64
  · rw [if_pos hsum, if_pos hsum, ok_bind, ClassifyState.after, inv.calls, hassigned, List.reverse_reverse]
    rfl
  · rw [if_neg hsum, if_neg hsum]
    rfl

/-- **What the loop does with the next entry.** -/
theorem step (h : t.Private) (inv : ClassifyInv t answer s visited) (hpending : s.pending = path :: rest) :
    classifyLoop t (t.metadata []).capture.device answer.classifier s =
      if maxAccountingEntries ≤ visited.length ∨
          maxAccountingEntries < s.discoveredEntries + (t.listing path).length then (visited, .error .entryLimit)
      else if t.Fits path ∧ t.bucket (assigned answer [] (visited ++ [path])) (answer visited path) < 2 ^ 64 then
        classifyLoop t (t.metadata []).capture.device answer.classifier (s.after t answer rest path)
      else (visited ++ [path], .error .overflow) := by
  have hp := inv.mem hpending
  have hobserved : s.observed.length = visited.length := by rw [inv.observed, List.length_map]
  have hopen := openEntry_eq h hp (inv.not_mem_identities h hpending) (maxAccountingEntries - s.discoveredEntries)
  have hlimit := inv.limit
  rw [classifyLoop, hpending]
  simp only [hobserved, inv.calls, hopen]
  by_cases hfull : maxAccountingEntries ≤ visited.length
  · rw [if_pos hfull, if_pos (Or.inl hfull)]
  · by_cases hroom : maxAccountingEntries < s.discoveredEntries + (t.listing path).length
    · rw [if_neg hfull, if_pos (Or.inr hroom), if_neg (show ¬ _ ≤ _ by omega)]
    · rw [if_neg hfull, if_neg (not_or.mpr ⟨hfull, hroom⟩), if_pos (show _ ≤ _ by omega)]
      have hclosed : closeEntry t path (t.metadata path).capture (directoryEntriesOf t path)
          (answer.classifier s.calls path) >>= s.absorb rest path =
          if t.Fits path ∧ t.bucket (assigned answer [] (visited ++ [path])) (answer visited path) < 2 ^ 64 then
            .ok (s.after t answer rest path)
          else .error .overflow := by
        rw [Answer.classifier, inv.calls, closeEntry_eq h hp]
        by_cases hfits : t.Fits path
        · rw [if_pos hfits, ok_bind]
          simp only [hfits, true_and]
          exact inv.absorb_eq (by omega) (by omega)
        · rw [if_neg hfits, if_neg fun hboth => hfits hboth.1]
          rfl
      by_cases hnext : t.Fits path ∧ t.bucket (assigned answer [] (visited ++ [path])) (answer visited path) < 2 ^ 64
      · rw [if_pos hnext] at hclosed ⊢
        simp only
        split <;> rename_i heq <;> rw [hclosed] at heq <;> cases heq
        rfl
      · rw [if_neg hnext] at hclosed ⊢
        simp only
        split <;> rename_i heq <;> rw [hclosed] at heq <;> cases heq
        rfl

end ClassifyInv

variable (t answer) in
/-- No sum of the classification overflows: no size of an entry, and no sum of a class. -/
def NoOverflow : Prop :=
  (∀ path ∈ t.paths, t.Fits path) ∧ ∀ allocationClass, t.bucket (assigned answer [] t.sorted.order) allocationClass < 2 ^ 64

variable (t answer) in
/-- How the loop of the classification ends. -/
inductive Classified : List (RelativePath Name) × Except StorageInventoryError (ClassifyState Name) → Prop where
  /-- All entries are classified, in order. -/
  | finished {s : ClassifyState Name} (inv : ClassifyInv t answer s t.sorted.order) (done : s.pending = []) :
    Classified (t.sorted.order, .ok s)
  /-- There are too many entries. -/
  | limited {calls : List (RelativePath Name)} (start : calls <+: t.sorted.order)
    (many : maxAccountingEntries < t.paths.length) : Classified (calls, .error .entryLimit)
  /-- A sum overflows. -/
  | overflowed {calls : List (RelativePath Name)} (start : calls <+: t.sorted.order) (overflows : ¬ NoOverflow t answer) :
    Classified (calls, .error .overflow)

/-- The sums of the first entries are parts of the sums of all. -/
theorem NoOverflow.of_start (h : NoOverflow t answer) (hstart : visited <+: t.sorted.order)
    (allocationClass : StorageAllocationClass) : t.bucket (assigned answer [] visited) allocationClass < 2 ^ 64 := by
  obtain ⟨rest, hrest⟩ := hstart
  have hsum := h.2 allocationClass
  rw [← hrest, assigned_append, DirectoryTree.bucket_append] at hsum
  omega

/-- **The loop of the classification ends in one of these ways.** -/
theorem classified_classifyLoop (h : t.Private) (inv : ClassifyInv t answer s visited) :
    Classified t answer (classifyLoop t (t.metadata []).capture.device answer.classifier s) := by
  induction hn : maxAccountingEntries - visited.length using Nat.strong_induction_on generalizing s visited with
  | _ n ih =>
    have hlength := inv.frontier.length_le
    have hdiscovered := inv.discovered
    cases hpending : s.pending with
    | nil =>
      have hfrontier := inv.frontier
      rw [hpending] at hfrontier
      have hall := hfrontier.finished
      subst hall
      rw [classifyLoop, hpending]
      simp only [inv.calls]
      exact .finished inv hpending
    | cons path rest =>
      have hfrontier := inv.frontier
      rw [hpending] at hfrontier
      have hvisit := hfrontier.visit
      rw [hpending, List.length_cons] at hlength hdiscovered
      rw [inv.step h hpending]
      split_ifs with hlimit hnext
      · refine .limited hfrontier.start_order ?_
        rcases hlimit with hfull | hroom
        · exact (show maxAccountingEntries < visited.length + (rest.length + 1) by omega).trans_le hlength
        · have hvisited := hvisit.length_le
          have hchildren : (t.sorted.children path).length = (t.listing path).length :=
            (List.length_map _).trans (sortNames_perm _).length_eq
          rw [List.length_append, List.length_append, List.length_singleton, hchildren] at hvisited
          exact (show maxAccountingEntries < visited.length + 1 + ((t.listing path).length + rest.length) by omega).trans_le
            hvisited
      · obtain ⟨hfull, hroom⟩ := not_or.mp hlimit
        exact ih _ (by rw [List.length_append, List.length_singleton]; omega)
          (inv.after hpending (by omega) hnext.1 hnext.2) rfl
      · refine .overflowed hvisit.start_order fun hno => hnext ⟨?_, ?_⟩
        · exact hno.1 path (inv.mem hpending)
        · exact hno.of_start hvisit.start_order _

/-! ### The whole classification -/

variable (t answer) in
/-- The classification under a guard of the root. -/
abbrev classification : List (RelativePath Name) × Except StorageInventoryError StorageAllocationObservationV1 :=
  classifyStorage t (.ok ()) answer.classifier

theorem revalidateEntry_of_mem (h : t.Private) (hp : path ∈ t.paths) : revalidateEntry t (observedOf t path) = .ok () := by
  rw [revalidateEntry, observedOf, revalidateNamed_of_mem h hp, ok_bind, revalidateEntries_of_mem hp]

/-- The classification is its loop and the revalidation of the entries. -/
theorem classification_eq (h : t.Private) (answer : Answer Name) : classification t answer =
    ((classifyLoop t (t.metadata []).capture.device answer.classifier ⟨[[]], 1, [], [], ⟨0, 0, 0, 0⟩, []⟩).1, do
      let s ← (classifyLoop t (t.metadata []).capture.device answer.classifier ⟨[[]], 1, [], [], ⟨0, 0, 0, 0⟩, []⟩).2
      s.observed.forM (revalidateEntry t)
      Except.ok ()
      pure s.snapshot) := by
  rw [classification, classifyStorage]
  simp only [ok_bind, namedMetadata_of_mem h t.root_mem, require_true h.root]
  rfl

/-- How the classification ends. -/
theorem classification_cases (h : t.Private) (answer : Answer Name) :
    classification t answer = (t.sorted.order, .ok (t.tally (assigned answer [] t.sorted.order))) ∧
      t.paths.length ≤ maxAccountingEntries ∧ NoOverflow t answer ∨
    (∃ calls, classification t answer = (calls, .error .entryLimit) ∧ calls <+: t.sorted.order ∧
      maxAccountingEntries < t.paths.length) ∨
    ∃ calls, classification t answer = (calls, .error .overflow) ∧ calls <+: t.sorted.order ∧ ¬ NoOverflow t answer := by
  have hclassified := classified_classifyLoop h (ClassifyInv.init t answer)
  rw [classification_eq h]
  generalize classifyLoop t (t.metadata []).capture.device answer.classifier ⟨[[]], 1, [], [], ⟨0, 0, 0, 0⟩, []⟩ = walk
    at hclassified
  cases hclassified with
  | finished inv done =>
    rename_i s
    have hobserved : s.observed.forM (revalidateEntry t) = .ok () := by
      rw [forM_ok_iff, inv.observed]
      intro entry hentry
      obtain ⟨path, hpath, rfl⟩ := List.mem_map.mp hentry
      exact revalidateEntry_of_mem h (t.sorted.order_perm.mem_iff.mp hpath)
    have hlimit := inv.limit
    have hdiscovered := inv.discovered
    rw [t.sorted.order_perm.length_eq, done] at hdiscovered
    refine Or.inl ⟨?_, ?_, ?_⟩
    · simp only [ok_bind, hobserved, inv.snapshot]
      rfl
    · rw [hdiscovered, List.length_nil, Nat.add_zero] at hlimit
      exact hlimit
    · exact ⟨fun path hp => inv.fits path (t.sorted.order_perm.mem_iff.mpr hp), inv.sums⟩
  | limited start many => exact Or.inr (Or.inl ⟨_, rfl, start, many⟩)
  | overflowed start overflows => exact Or.inr (Or.inr ⟨_, rfl, start, overflows⟩)

end Classification

/-! ### The strict total -/

section Strict

variable {Name : Type} [DecidableEq Name] {t : DirectoryTree Name} {overflowChecks : Bool}
variable {visited pending : List (RelativePath Name)} {path : RelativePath Name} {entries bytes : ℕ}

omit [DecidableEq Name] in
variable (t) in
/-- The tree of the strict walk, which takes the entry listed last first. -/
abbrev DirectoryTree.reversed : RootedTree (RelativePath Name) := t.walked List.reverse List.reverse_perm

omit [DecidableEq Name] in
theorem allocatedMetadataBytes_of_fits (hfits : t.Fits path) :
    allocatedMetadataBytes overflowChecks (t.metadata path).capture = .ok (t.bytesOf path) := by
  unfold DirectoryTree.Fits at hfits
  have hmin : min ((t.metadata path).capture.blocks * 512) (2 ^ 64 - 1) = (t.metadata path).capture.blocks * 512 :=
    min_eq_left (Nat.le_sub_one_of_lt (Nat.lt_of_le_of_lt (Nat.le_add_right _ _) hfits))
  have hbytes : ((t.metadata path).capture.blocks * 512 + 4095) / 4096 * 4096 < 2 ^ 64 :=
    Nat.lt_of_le_of_lt (Nat.div_mul_le_self _ _) hfits
  rw [allocatedMetadataBytes, hmin]
  simp only [if_pos hbytes]
  rfl

omit [DecidableEq Name] in
theorem eq_panics_of_error {e : StorageAccountingError}
    (herror : allocatedMetadataBytes overflowChecks (t.metadata path).capture = .error e) :
    e = .panics ∧ ¬ t.Fits path := by
  constructor
  · unfold allocatedMetadataBytes at herror
    simp only at herror
    split_ifs at herror
    cases herror
    rfl
  · intro hfits
    rw [allocatedMetadataBytes_of_fits hfits] at herror
    cases herror

/-- **What the loop does with an entry of a private tree.** -/
theorem accountEntry_eq (h : t.Private) (hp : path ∈ t.paths) (hentries : entries ≤ maxAccountingEntries)
    (overflowChecks : Bool) (pending : List (RelativePath Name)) (bytes : ℕ) :
    accountEntry t overflowChecks path pending entries bytes =
      allocatedMetadataBytes overflowChecks (t.metadata path).capture >>= fun allocated =>
      if bytes + allocated < 2 ^ 64 then
        if entries + (t.listing path).length ≤ maxAccountingEntries then
          .ok ((entries + (t.listing path).length, t.childrenOf List.reverse path ++ pending), bytes + allocated)
        else .error .entryLimit
      else .error .overflow := by
  have hkind : (t.metadata path).kind ≠ .symlink := by
    rcases h.kinds path hp with ⟨hk, _⟩ | ⟨hk, _⟩ <;> rw [hk] <;> decide
  rw [accountEntry, require_true hp, ok_bind]
  simp only [require_true hkind, ok_bind, DirectoryTree.ofOption_checkedAdd]
  congr 1
  funext allocated
  by_cases hsum : bytes + allocated < 2 ^ 64
  · rw [if_pos hsum, if_pos hsum, ok_bind]
    by_cases hdirectory : (t.metadata path).kind = .directory
    · have hiff : (t.listing path = [] ∨ entries + (t.listing path).length ≤ maxAccountingEntries) ↔
          entries + (t.listing path).length ≤ maxAccountingEntries :=
        or_iff_right_of_imp fun hnil => by rw [hnil]; simpa using hentries
      rw [if_pos hdirectory, pushEntries_eq, if_congr hiff rfl rfl]
      split_ifs <;> rfl
    · have hregular : (t.metadata path).kind = .regular := by
        rcases h.kinds path hp with ⟨hk, _⟩ | ⟨hk, _⟩
        · exact absurd hk hdirectory
        · exact hk
      rw [if_neg hdirectory, require_true hregular, ok_bind, DirectoryTree.childrenOf, listing_of_not_directory hdirectory,
        List.length_nil, Nat.add_zero, if_pos hentries]
      rfl
  · rw [if_neg hsum, if_neg hsum]
    rfl

variable (t) in
/-- What the variables of the loop hold after some entries. -/
structure AccountInv (visited pending : List (RelativePath Name)) (entries bytes : ℕ) : Prop where
  /-- The walk. -/
  frontier : t.reversed.Frontier visited pending
  /-- All entries that were found are counted. -/
  found : entries = visited.length + pending.length
  /-- They are not too many. -/
  limit : entries ≤ maxAccountingEntries
  /-- The bytes, if no size overflows. -/
  sum : (∀ path ∈ t.paths, t.Fits path) → bytes = t.total visited

variable (t) in
/-- How the strict walk ends. -/
inductive Accounted : Except StorageAccountingError ℕ → Prop where
  /-- All entries are added up. -/
  | finished {total : ℕ} (few : t.paths.length ≤ maxAccountingEntries)
    (sum : (∀ path ∈ t.paths, t.Fits path) → total = t.total t.paths) : Accounted (.ok total)
  /-- There are too many entries. -/
  | limited (many : maxAccountingEntries < t.paths.length) : Accounted (.error .entryLimit)
  /-- The sum overflows. -/
  | overflowed (overflows : (∀ path ∈ t.paths, t.Fits path) → 2 ^ 64 ≤ t.total t.paths) : Accounted (.error .overflow)
  /-- A size overflows. -/
  | panicked (overflows : ¬ ∀ path ∈ t.paths, t.Fits path) : Accounted (.error .panics)

omit [DecidableEq Name] in
/-- The bytes of the first entries are a part of the bytes of all. -/
theorem total_le_of_start (hstart : visited <+: t.reversed.order) : t.total visited ≤ t.total t.paths := by
  obtain ⟨rest, hrest⟩ := hstart
  have hperm : t.reversed.order.Perm t.paths := t.reversed.order_perm
  rw [← t.total_perm hperm, ← hrest, t.total_append]
  exact Nat.le_add_right _ _

/-- **The strict walk ends in one of these ways.** -/
theorem accounted_allocatedLoop (h : t.Private) (inv : AccountInv t visited pending entries bytes) :
    Accounted t (allocatedLoop t overflowChecks pending entries bytes) := by
  induction hn : t.paths.length - visited.length using Nat.strong_induction_on
    generalizing visited pending entries bytes with
  | _ n ih =>
    have hlength := inv.frontier.length_le
    have hentries := inv.found
    have hlimit := inv.limit
    cases pending with
    | nil =>
      rw [allocatedLoop]
      refine .finished ?_ fun hfits => ?_
      · have hall := inv.frontier.perm_of_finished.length_eq
        have hnodes : visited.length = t.paths.length := hall
        rw [List.length_nil, Nat.add_zero] at hentries
        rw [← hnodes, ← hentries]
        exact hlimit
      · rw [inv.sum hfits]
        exact t.total_perm inv.frontier.perm_of_finished
    | cons path pending =>
      have hp : path ∈ t.paths := inv.frontier.mem path (by simp)
      have hvisit := inv.frontier.visit
      rw [List.length_cons] at hlength hentries
      have hchildren : (t.childrenOf List.reverse path).length = (t.listing path).length :=
        (List.length_map _).trans (t.listing path).length_reverse
      have hsmaller : visited.length < t.paths.length := (show _ < _ by omega).trans_le hlength
      rw [allocatedLoop]
      cases hallocated : allocatedMetadataBytes overflowChecks (t.metadata path).capture with
      | error e =>
        obtain ⟨rfl, hfits⟩ := eq_panics_of_error hallocated
        have hentry := accountEntry_eq h hp hlimit overflowChecks pending bytes
        rw [hallocated, error_bind] at hentry
        split <;> rename_i heq <;> rw [hentry] at heq <;> cases heq
        exact .panicked fun hall => hfits (hall path hp)
      | ok allocated =>
        have hentry := accountEntry_eq h hp hlimit overflowChecks pending bytes
        rw [hallocated, ok_bind] at hentry
        have hsum : (∀ path ∈ t.paths, t.Fits path) → bytes + allocated = t.total (visited ++ [path]) := by
          intro hfits
          rw [allocatedMetadataBytes_of_fits (hfits path hp)] at hallocated
          cases hallocated
          rw [t.total_append, inv.sum hfits]
          simp [DirectoryTree.total]
        by_cases hoverflow : bytes + allocated < 2 ^ 64
        · rw [if_pos hoverflow] at hentry
          by_cases hmany : entries + (t.listing path).length ≤ maxAccountingEntries
          · rw [if_pos hmany] at hentry
            split <;> rename_i heq <;> rw [hentry] at heq <;> cases heq
            refine ih _ (by rw [List.length_append, List.length_singleton]; omega) ⟨hvisit, ?_, hmany, hsum⟩ rfl
            rw [List.length_append, List.length_append, List.length_singleton, hchildren]
            omega
          · rw [if_neg hmany] at hentry
            split <;> rename_i heq <;> rw [hentry] at heq <;> cases heq
            refine .limited ?_
            have hvisited := hvisit.length_le
            have hchildren' : (t.reversed.children path).length = (t.listing path).length := hchildren
            rw [List.length_append, List.length_append, List.length_singleton, hchildren'] at hvisited
            exact (show maxAccountingEntries < visited.length + 1 + ((t.listing path).length + pending.length) by
              omega).trans_le hvisited
        · rw [if_neg hoverflow] at hentry
          split <;> rename_i heq <;> rw [hentry] at heq <;> cases heq
          refine .overflowed fun hfits => ?_
          rw [hsum hfits] at hoverflow
          exact (Nat.le_of_not_lt hoverflow).trans (total_le_of_start hvisit.start_order)

/-- How the strict total of a private tree ends. -/
theorem accounted (h : t.Private) (overflowChecks : Bool) : Accounted t (allocatedTreeBytesStrict t overflowChecks) :=
  accounted_allocatedLoop h ⟨t.reversed.frontier_root, rfl, by decide, fun _ => rfl⟩

end Strict

/-! ### Both accountings -/

section Agreement

variable {Name : Type} [LinearOrder Name] (t : DirectoryTree Name)

omit [LinearOrder Name] in
/-- A walk takes a path after the path of its directory. -/
theorem parent_mem_of_order {reorder : List Name → List Name} {hreorder : ∀ l, (reorder l).Perm l}
    {calls earlier later : List (RelativePath Name)} {parent : RelativePath Name} {name : Name}
    (hstart : calls <+: (t.walked reorder hreorder).order) (hcalls : calls = earlier ++ (parent ++ [name]) :: later) :
    parent ∈ earlier := by
  obtain ⟨rest, hrest⟩ := hstart
  have hsplit : (t.walked reorder hreorder).order = earlier ++ (parent ++ [name]) :: (later ++ rest) := by
    rw [← hrest, hcalls, List.append_assoc, List.cons_append]
  have hperm : (t.walked reorder hreorder).order.Perm t.paths := (t.walked reorder hreorder).order_perm
  have hordered := (t.walked reorder hreorder).order_ordered
  have hentry : parent ++ [name] ∈ t.paths := hperm.mem_iff.mp (by rw [hsplit]; simp)
  have hchild : parent ++ [name] ∈ t.childrenOf reorder parent :=
    List.mem_map.mpr ⟨name, (hreorder _).mem_iff.mpr ((t.mem_listing parent name).mpr hentry), rfl⟩
  have hparent : parent ∈ earlier ++ (parent ++ [name]) :: (later ++ rest) := by
    rw [← hsplit]
    exact hperm.mem_iff.mpr (t.parent_mem parent name hentry)
  rw [hsplit, List.pairwise_append, List.pairwise_cons] at hordered
  obtain ⟨-, ⟨hlater, -⟩, -⟩ := hordered
  rcases List.mem_append.mp hparent with hmem | hmem
  · exact hmem
  · rcases List.mem_cons.mp hmem with heq | hmem
    · simp at heq
    · exact absurd hchild (hlater parent hmem)

/-- No size of an entry and no sum of some overflows. -/
def TotalFits : Prop := (∀ path ∈ t.paths, t.Fits path) ∧ t.total t.paths < 2 ^ 64

variable {t} in
/-- Then no sum of a class does. -/
theorem TotalFits.noOverflow (h : TotalFits t) (answer : Answer Name) : NoOverflow t answer := by
  refine ⟨h.1, fun allocationClass => ?_⟩
  have hperm : t.sorted.order.Perm t.paths := t.sorted.order_perm
  have hle := t.bucket_le_total (assigned answer [] t.sorted.order) allocationClass
  rw [map_assigned, t.total_perm hperm] at hle
  exact hle.trans_lt h.2

/-- What holds of both accountings of a tree. -/
structure AccountingsAgree (answer : Answer Name) (overflowChecks : Bool) : Prop where
  /-- The classification accepts a tree that is not too large if nothing overflows. -/
  accepts : (∃ snapshot, (classification t answer).2 = .ok snapshot) ↔
    t.paths.length ≤ maxAccountingEntries ∧ NoOverflow t answer
  /-- Then the classifier is asked about every entry once. -/
  all : ∀ snapshot, (classification t answer).2 = .ok snapshot → (classification t answer).1.Perm t.paths
  /-- It is never asked about an entry again. -/
  once : (classification t answer).1.Nodup
  /-- It is asked about an entry after the directory of the entry. -/
  parents : ∀ earlier parent name later,
    (classification t answer).1 = earlier ++ (parent ++ [name]) :: later → parent ∈ earlier
  /-- The buckets add up to the strict total. -/
  sum : ∀ snapshot total, (classification t answer).2 = .ok snapshot →
    allocatedTreeBytesStrict t overflowChecks = .ok total →
      snapshot.retainedBytes + snapshot.workspaceBytes + snapshot.unknownBytes = total
  /-- The classification fails in a tree that is too large, or with an overflow. -/
  fails : ∀ e, (classification t answer).2 = .error e →
    e = .entryLimit ∧ maxAccountingEntries < t.paths.length ∨ e = .overflow ∧ ¬ NoOverflow t answer
  /-- So does the strict total. -/
  strictFails : ∀ e, allocatedTreeBytesStrict t overflowChecks = .error e →
    e = .entryLimit ∧ maxAccountingEntries < t.paths.length ∨ (e = .overflow ∨ e = .panics) ∧ ¬ TotalFits t
  /-- Where nothing overflows, both meet the limit in the same trees. -/
  sameLimit : TotalFits t →
    ((classification t answer).2 = .error .entryLimit ↔ maxAccountingEntries < t.paths.length) ∧
    (allocatedTreeBytesStrict t overflowChecks = .error .entryLimit ↔ maxAccountingEntries < t.paths.length)

variable {t} {answer : Answer Name} {overflowChecks : Bool}

/-- The calls of the classifier are the start of the walk. -/
theorem calls_start (h : t.Private) : (classification t answer).1 <+: t.sorted.order := by
  rcases classification_cases h answer with ⟨heq, -⟩ | ⟨calls, heq, hstart, -⟩ | ⟨calls, heq, hstart, -⟩
  · have hcalls : (classification t answer).1 = t.sorted.order := congrArg Prod.fst heq
    exact ⟨[], by rw [hcalls, List.append_nil]⟩
  · rw [heq]
    exact hstart
  · rw [heq]
    exact hstart

/-- How the strict total fails. -/
theorem strictFails_cases (h : t.Private) {e : StorageAccountingError}
    (herror : allocatedTreeBytesStrict t overflowChecks = .error e) :
    e = .entryLimit ∧ maxAccountingEntries < t.paths.length ∨ (e = .overflow ∨ e = .panics) ∧ ¬ TotalFits t := by
  have haccounted := accounted h overflowChecks
  rw [herror] at haccounted
  cases haccounted with
  | limited many => exact Or.inl ⟨rfl, many⟩
  | overflowed overflows => exact Or.inr ⟨Or.inl rfl, fun hfits => (overflows hfits.1).not_gt hfits.2⟩
  | panicked overflows => exact Or.inr ⟨Or.inr rfl, fun hfits => overflows hfits.1⟩

/-- **Both storage accountings agree**: on the bytes, and on the limit of the entries where no sum overflows. -/
theorem accountingsAgree (h : t.Private) (answer : Answer Name) (overflowChecks : Bool) :
    AccountingsAgree t answer overflowChecks where
  accepts := by
    rcases classification_cases h answer with ⟨heq, hfew, hno⟩ | ⟨_, heq, -, hmany⟩ | ⟨_, heq, -, hover⟩ <;>
      rw [heq]
    · exact iff_of_true ⟨_, rfl⟩ ⟨hfew, hno⟩
    · exact iff_of_false (by simp) fun hand => hmany.not_ge hand.1
    · exact iff_of_false (by simp) fun hand => hover hand.2
  all := by
    intro snapshot hok
    rcases classification_cases h answer with ⟨heq, -⟩ | ⟨_, heq, -⟩ | ⟨_, heq, -⟩ <;> rw [heq] at hok ⊢
    · exact t.sorted.order_perm
    · cases hok
    · cases hok
  once := (calls_start h).sublist.nodup (t.sorted.order_perm.nodup_iff.mpr t.nodup)
  parents _ _ _ _ hcalls := parent_mem_of_order t (calls_start h) hcalls
  sum := by
    intro snapshot total hok hstrict
    have haccounted := accounted h overflowChecks
    rw [hstrict] at haccounted
    cases haccounted with
    | finished few sum =>
      rcases classification_cases h answer with ⟨heq, -, hno⟩ | ⟨_, heq, -⟩ | ⟨_, heq, -⟩ <;>
        rw [heq] at hok <;> cases hok
      have hperm : t.sorted.order.Perm t.paths := t.sorted.order_perm
      rw [t.tally_sum, map_assigned, t.total_perm hperm, sum hno.1]
  fails := by
    intro e herror
    rcases classification_cases h answer with ⟨heq, -⟩ | ⟨_, heq, -, hmany⟩ | ⟨_, heq, -, hover⟩ <;>
      rw [heq] at herror <;> cases herror
    · exact Or.inl ⟨rfl, hmany⟩
    · exact Or.inr ⟨rfl, hover⟩
  strictFails _ herror := strictFails_cases h herror
  sameLimit := by
    intro hfits
    constructor
    · rcases classification_cases h answer with ⟨heq, hfew, -⟩ | ⟨_, heq, -, hmany⟩ | ⟨_, heq, -, hover⟩ <;>
        rw [heq]
      · exact iff_of_false (by simp) hfew.not_gt
      · exact iff_of_true rfl hmany
      · exact absurd (hfits.noOverflow answer) hover
    · cases hstrict : allocatedTreeBytesStrict t overflowChecks with
      | ok total =>
        have haccounted := accounted h overflowChecks
        rw [hstrict] at haccounted
        cases haccounted with
        | finished few _ => exact iff_of_false (by simp) few.not_gt
      | error e =>
        rcases strictFails_cases h hstrict with ⟨rfl, hmany⟩ | ⟨_, hover⟩
        · exact iff_of_true rfl hmany
        · exact absurd hfits hover

end Agreement

/-! ### A crowded directory behind a large file -/

/-- The inodes of a root with a file and a crowded directory. -/
def crowdedInode : RelativePath ℕ → ℕ
  | [0] => 1
  | [1] => 2
  | [_, n] => n + 3
  | _ => 0

/-- A root with a file of some blocks and a directory of some empty files. -/
def crowded (blocks files : ℕ) : DirectoryTree ℕ where
  paths := [] :: [0] :: [1] :: (List.range files).map fun n => [1, n]
  nodup := by
    have hinjective : Function.Injective fun n : ℕ => [1, n] := fun a b hab => by simpa using hab
    simpa using List.nodup_range.map hinjective
  root_mem := List.mem_cons_self
  metadata path :=
    if path = [] ∨ path = [1] then ⟨.directory, ⟨1, crowdedInode path, 0o700, 2, 0, 0, (0, 0), (0, 0)⟩⟩
    else ⟨.regular, ⟨1, crowdedInode path, 0o600, 1, 0, if path = [0] then blocks else 0, (0, 0), (0, 0)⟩⟩
  listing path := if path = [] then [0, 1] else if path = [1] then List.range files else []
  listing_nodup path := by
    split_ifs
    · decide
    · exact List.nodup_range
    · exact List.nodup_nil
  mem_listing path name := by
    match path with
    | [] => simp
    | [a] =>
      by_cases ha : a = 1
      · simp [ha]
      · simp [ha, Ne.symm ha]
    | a :: b :: rest => simp
  parent_mem path name h := by
    match path with
    | [] => simp
    | [a] =>
      have ha : a = 1 := by
        simp at h
        exact h.2.symm
      simp [ha]
    | a :: b :: rest => simp at h
  directory path name h := by
    match path with
    | [] => simp
    | [a] =>
      have ha : a = 1 := by
        simp at h
        exact h.2.symm
      simp [ha]
    | a :: b :: rest => simp at h

variable {blocks files : ℕ} {path : RelativePath ℕ}

theorem mem_crowded : path ∈ (crowded blocks files).paths ↔ path = [] ∨ path = [0] ∨ path = [1] ∨ ∃ n < files, path = [1, n] := by
  simp [crowded, eq_comm]

theorem crowdedInode_injOn {other : RelativePath ℕ} (hp : path ∈ (crowded blocks files).paths)
    (ho : other ∈ (crowded blocks files).paths) (heq : crowdedInode path = crowdedInode other) : path = other := by
  rw [mem_crowded] at hp ho
  rcases hp with rfl | rfl | rfl | ⟨n, -, rfl⟩ <;> rcases ho with rfl | rfl | rfl | ⟨m, -, rfl⟩ <;>
    (simp [crowdedInode] at heq ⊢; try omega)

theorem private_crowded : (crowded blocks files).Private where
  root := by simp [crowded]
  kinds path _ := by
    by_cases h : path = [] ∨ path = [1]
    · exact Or.inl (by simp [crowded, h])
    · exact Or.inr (by simp [crowded, h])
  device path _ := by simp only [crowded]; split_ifs <;> rfl
  inode path hp other ho heq := by
    have hinode : ∀ p, ((crowded blocks files).metadata p).capture.inode = crowdedInode p := by
      intro p
      simp only [crowded]
      split_ifs <;> rfl
    rw [hinode, hinode] at heq
    exact crowdedInode_injOn hp ho heq

/-- The classification meets the file first. -/
theorem classification_crowded (answer : Answer ℕ) (hlarge : ¬ (crowded blocks files).Fits [0]) :
    (classification (crowded blocks files) answer).2 = .error .overflow := by
  have h : (crowded blocks files).Private := private_crowded
  have hroot : (crowded blocks files).bytesOf [] = 0 := by simp [DirectoryTree.bytesOf, crowded]
  have hfits : (crowded blocks files).Fits [] := by simp [DirectoryTree.Fits, crowded]
  have hsum : (crowded blocks files).bucket (assigned answer [] [[]]) (answer [] []) < 2 ^ 64 := by
    simp [assigned, DirectoryTree.bucket, DirectoryTree.total, hroot]
  have inv := ClassifyInv.init (crowded blocks files) answer
  have inv' := inv.after rfl (show 3 ≤ maxAccountingEntries by decide) hfits hsum
  have hsorted : sortNames [0, 1] = [0, 1] := List.mergeSort_of_pairwise (by simp)
  have hpending : (ClassifyState.after (crowded blocks files) answer ⟨[[]], 1, [], [], ⟨0, 0, 0, 0⟩, []⟩ [] []).pending =
      [[0], [1]] := by
    simp only [ClassifyState.after, DirectoryTree.childrenOf, crowded, if_true, hsorted]
    rfl
  have hfirst := inv.step h rfl
  rw [if_neg, if_pos] at hfirst
  case hc => exact ⟨hfits, hsum⟩
  case hnc => exact show ¬ (4096 ≤ 0 ∨ 4096 < 3) by decide
  have hsecond := inv'.step h hpending
  rw [if_neg, if_neg fun hboth => hlarge hboth.1] at hsecond
  case hnc => exact show ¬ (4096 ≤ 1 ∨ 4096 < 3) by decide
  rw [classification_eq h, hfirst, hsecond]
  rfl

/-- The strict total meets the directory first. -/
theorem allocated_crowded (overflowChecks : Bool) (hmany : maxAccountingEntries < 3 + files) :
    allocatedTreeBytesStrict (crowded blocks files) overflowChecks = .error .entryLimit := by
  have h : (crowded blocks files).Private := private_crowded
  have hempty : allocatedMetadataBytes overflowChecks ((crowded blocks files).metadata []).capture = .ok 0 := by
    simp [crowded, allocatedMetadataBytes]
  have hdirectory : allocatedMetadataBytes overflowChecks ((crowded blocks files).metadata [1]).capture = .ok 0 := by
    simp [crowded, allocatedMetadataBytes]
  have hroot : accountEntry (crowded blocks files) overflowChecks [] [] 1 0 = .ok ((3, [[1], [0]]), 0) := by
    rw [accountEntry_eq h (mem_crowded.mpr (by simp)) (by decide), hempty, ok_bind]
    rfl
  have hcrowded : accountEntry (crowded blocks files) overflowChecks [1] [[0]] 3 0 = .error .entryLimit := by
    have hlength : ((crowded blocks files).listing [1]).length = files := by simp [crowded]
    rw [accountEntry_eq h (mem_crowded.mpr (by simp)) (by decide), hdirectory, ok_bind, if_pos (by decide), hlength,
      if_neg hmany.not_ge]
  rw [allocatedTreeBytesStrict, allocatedLoop]
  split <;> rename_i heq <;> rw [hroot] at heq <;> cases heq
  rw [allocatedLoop]
  split <;> rename_i heq <;> rw [hcrowded] at heq <;> cases heq
  rfl

/-- **The walks do not always meet the limit in the same trees**: one may have met an overflow before. -/
theorem not_sameEntryLimit : ¬ ∀ (t : DirectoryTree ℕ) (answer : Answer ℕ) (overflowChecks : Bool), t.Private →
    ((classification t answer).2 = .error .entryLimit ↔ allocatedTreeBytesStrict t overflowChecks = .error .entryLimit) := by
  intro hall
  have hlarge : ¬ (crowded (2 ^ 56) 4095).Fits [0] := show ¬ 2 ^ 56 * 512 + 4095 < 2 ^ 64 by decide
  have hlimit := (hall (crowded (2 ^ 56) 4095) (fun _ _ => .retained) true private_crowded).mpr
    (allocated_crowded true (by decide))
  rw [classification_crowded _ hlarge] at hlimit
  cases hlimit

/-- A root with a file of one block and a directory of one file. -/
theorem accountingsAgree_crowded : (crowded 8 1).Private ∧ AccountingsAgree (crowded 8 1) (fun _ _ => .retained) true :=
  ⟨private_crowded, accountingsAgree private_crowded _ _⟩

end AgentObservability.Runtime
